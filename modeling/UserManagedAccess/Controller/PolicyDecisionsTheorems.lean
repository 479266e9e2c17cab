/-
UserManagedAccess.Controller.PolicyDecisionsTheorems — a POST of a policy
changes decisions only through rules of the poster, exactly for the uploads
that are local.

That a local upload changes nothing else is read off the store as it was and
the upload, which describe different nodes: the rules of the store keep their
quads, and the rules of the upload do not hold. For the other direction, each
way of not being local gives a store and a request where it shows.
-/
import UserManagedAccess.Controller.PolicyDecisions
import UserManagedAccess.Controller.PolicyPostTheorems

namespace UserManagedAccess.Controller

open UserManagedAccess.Lib UserManagedAccess.Rdf UserManagedAccess.Util UserManagedAccess.Ucp
open UserManagedAccess.Credentials UserManagedAccess.Policies
open UserManagedAccess.Policies.SimpleOdrlAuthorizer

/-! ## What the rules of each part have in the whole -/

section Parts

variable {store upload : Store} {rule : Term} {assignees others : List Term} {action : String}

theorem mem_addAll_left (h : ¬ upload.Described rule) {p o : Term} :
    quad rule p o ∈ store.addAll upload ↔ quad rule p o ∈ store := by
  rw [Store.mem_addAll]
  exact or_iff_left (fun hq => h ⟨_, hq, rfl⟩)

theorem mem_addAll_right (h : ¬ store.Described rule) {p o : Term} :
    quad rule p o ∈ store.addAll upload ↔ quad rule p o ∈ upload := by
  rw [Store.mem_addAll]
  exact or_iff_right (fun hq => h ⟨_, hq, rfl⟩)

theorem hasAction_left (h : ¬ upload.Described rule) :
    hasAction (store.addAll upload) action rule = true ↔ hasAction store action rule = true := by
  simp only [hasAction_iff, mem_addAll_left h]

theorem hasAssignee_left (h : ¬ upload.Described rule)
    (hsame : ∀ assignee, assignee ∈ assignees ↔ assignee ∈ others) :
    hasAssignee (store.addAll upload) assignees rule = true ↔
      hasAssignee store others rule = true := by
  simp only [hasAssignee_iff, Store.linked_addAll_left h, hsame]

/-- A rule of the store whose constraints can be judged keeps them. -/
theorem sameConstraints_left {env : Environment} {claims : ClaimSet}
    (hapart : Store.Apart store upload) (hrule : store.Described rule)
    (hdefinite : Definite env store claims rule) :
    SameConstraints store (store.addAll upload) rule := by
  have hnot : ¬ upload.Described rule := fun h => hapart rule h hrule
  refine ⟨(Store.getObjects_addAll_left hnot _ _).symm, (Store.getObjects_addAll_left hnot _ _).symm,
    ?_⟩
  intro constraint hlinked predicate _
  have hdescribed := hdefinite.described hlinked
  exact (Store.getObjects_addAll_left (fun h => hapart constraint h hdescribed) _ _).symm

end Parts

/-! ## Local uploads -/

section Local

variable {store upload : Store} {clientID resource scope : String} {claims : ClaimSet}
  {env : Environment}

theorem mem_targetsOf_local (hlocal : LocalUpload upload clientID)
    (hnone : ¬ HasLocalRule store upload clientID resource) {target : Term} :
    target ∈ targetsOf (store.addAll upload) resource ↔ target ∈ targetsOf store resource := by
  rw [mem_targetsOf, mem_targetsOf, Store.linkedFrom_addAll]
  constructor
  · rintro (heq | hstored | ⟨node, hnamed, huploaded⟩)
    · exact Or.inl heq
    · exact Or.inr hstored
    · rcases hlocal.partOf node target huploaded resource hnamed with
        hself | ⟨-, rule, hassigns, htarget⟩
      · exact Or.inl hself
      · exact absurd ⟨rule, _, hassigns, htarget, Or.inl rfl⟩ hnone
  · rintro (heq | hstored)
    · exact Or.inl heq
    · exact Or.inr (Or.inl hstored)

theorem mem_assigneesOf_local (hlocal : LocalUpload upload clientID) (assignee : Term) :
    assignee ∈ assigneesOf (store.addAll upload) claims ↔ assignee ∈ assigneesOf store claims := by
  rw [mem_assigneesOf, mem_assigneesOf]
  constructor
  · rintro (heq | ⟨user, name, huser, hname, heq | hgroup⟩)
    · exact Or.inl heq
    · exact Or.inr ⟨user, name, huser, hname, Or.inl heq⟩
    · rcases Store.linkedFrom_addAll.mp hgroup with hstored | ⟨node, hnamed, huploaded⟩
      · exact Or.inr ⟨user, name, huser, hname, Or.inr hstored⟩
      · rcases hlocal.partOf node assignee huploaded name hnamed with hself | ⟨heveryone, -⟩
        · exact Or.inr ⟨user, name, huser, hname, Or.inl hself⟩
        · exact Or.inl heveryone
  · rintro (heq | ⟨user, name, huser, hname, heq | hgroup⟩)
    · exact Or.inl heq
    · exact Or.inr ⟨user, name, huser, hname, Or.inl heq⟩
    · exact Or.inr ⟨user, name, huser, hname,
        Or.inr (Store.linkedFrom_addAll.mpr (Or.inl hgroup))⟩

/-- The candidates after a local POST that are not of the upload: those before it. -/
theorem mem_candidateRules_local (hapart : Store.Apart store upload)
    (hlocal : LocalUpload upload clientID)
    (hnone : ¬ HasLocalRule store upload clientID resource) {rule : Term} :
    rule ∈ candidateRules (store.addAll upload) claims resource scope ∧ ¬ upload.Described rule ↔
      rule ∈ candidateRules store claims resource scope := by
  simp only [mem_candidateRules, mem_targetsOf_local hlocal hnone]
  constructor
  · rintro ⟨⟨⟨target, htarget, hlinked⟩, haction, hassignee⟩, hnot⟩
    exact ⟨⟨target, htarget, (Store.linked_addAll_left hnot).mp hlinked⟩,
      (hasAction_left hnot).mp haction,
      (hasAssignee_left hnot (mem_assigneesOf_local hlocal)).mp hassignee⟩
  · rintro ⟨⟨target, htarget, hstored⟩, haction, hassignee⟩
    have hnot : ¬ upload.Described rule := fun h => hapart rule h hstored.described
    exact ⟨⟨⟨target, htarget, Store.linked_addAll.mpr (Or.inl hstored)⟩,
      (hasAction_left hnot).mpr haction,
      (hasAssignee_left hnot (mem_assigneesOf_local hlocal)).mpr hassignee⟩, hnot⟩

/-- With a local upload and no local rule, the same requests are granted. -/
theorem granted_local (hapart : Store.Apart store upload) (hlocal : LocalUpload upload clientID)
    (hnone : ¬ HasLocalRule store upload clientID resource)
    (hbefore : ∀ rule ∈ candidateRules store claims resource scope,
      Definite env store claims rule)
    (hafter : ∀ rule ∈ candidateRules (store.addAll upload) claims resource scope,
      Definite env (store.addAll upload) claims rule) :
    Granted env (store.addAll upload) claims resource scope ↔
      Granted env store claims resource scope := by
  have hdescribed : ∀ rule ∈ candidateRules store claims resource scope, store.Described rule := by
    intro rule hrule
    obtain ⟨⟨target, -, hlinked⟩, -, -⟩ := mem_candidateRules.mp hrule
    exact hlinked.described
  have hvalid : ∀ rule ∈ candidateRules store claims resource scope,
      (Valid env (store.addAll upload) claims rule ↔ Valid env store claims rule) := by
    intro rule hrule
    have hsame := sameConstraints_left hapart (hdescribed rule hrule) (hbefore rule hrule)
    rw [Valid, Valid, response_congr hsame]
  have hprohibited : ∀ rule ∈ candidateRules store claims resource scope,
      (Prohibited (store.addAll upload) rule ↔ Prohibited store rule) := by
    intro rule hrule
    constructor
    · rintro ⟨policy, hlinked⟩
      rcases Store.linked_addAll.mp hlinked with hstored | huploaded
      · exact ⟨policy, hstored⟩
      · exact absurd (hdescribed rule hrule) (hapart rule (hlocal.prohibition policy rule huploaded))
    · rintro ⟨policy, hstored⟩
      exact ⟨policy, Store.linked_addAll.mpr (Or.inl hstored)⟩
  have hkept : ∀ rule ∈ candidateRules store claims resource scope,
      rule ∈ candidateRules (store.addAll upload) claims resource scope :=
    fun rule hrule => ((mem_candidateRules_local hapart hlocal hnone).mpr hrule).1
  -- a rule of the upload does not hold, so that a valid one was there
  have hold : ∀ rule ∈ candidateRules (store.addAll upload) claims resource scope,
      Valid env (store.addAll upload) claims rule →
        rule ∈ candidateRules store claims resource scope := by
    intro rule hrule hruleValid
    by_contra hnew
    have huploaded : upload.Described rule := by
      by_contra hnot
      exact hnew ((mem_candidateRules_local hapart hlocal hnone).mp ⟨hrule, hnot⟩)
    exact hlocal.foreignRules store hapart resource hnone env claims scope
      ⟨fun other hother _ => hafter other hother, rule, hrule, huploaded, hruleValid⟩
  constructor
  · rintro ⟨⟨rule, hrule, hruleValid⟩, hnoneProhibited⟩
    have hstored := hold rule hrule hruleValid
    refine ⟨⟨rule, hstored, (hvalid rule hstored).mp hruleValid⟩, ?_⟩
    intro other hother hotherValid hotherProhibited
    exact hnoneProhibited other (hkept other hother)
      ((hvalid other hother).mpr hotherValid) ((hprohibited other hother).mpr hotherProhibited)
  · rintro ⟨⟨rule, hrule, hruleValid⟩, hnoneProhibited⟩
    refine ⟨⟨rule, hkept rule hrule, (hvalid rule hrule).mpr hruleValid⟩, ?_⟩
    intro other hother hotherValid hotherProhibited
    have hstored := hold other hother hotherValid
    exact hnoneProhibited other hstored ((hvalid other hstored).mp hotherValid)
      ((hprohibited other hstored).mp hotherProhibited)

/-- A local upload changes no answer without a local rule. -/
theorem hasLocalRule_of_changed {before after : List String} (hapart : Store.Apart store upload)
    (hlocal : LocalUpload upload clientID)
    (hbefore : getPermissions env store claims resource scope = .ok (some before))
    (hafter : getPermissions env (store.addAll upload) claims resource scope = .ok (some after))
    (hchanged : before ≠ after) : HasLocalRule store upload clientID resource := by
  by_contra hnone
  obtain ⟨hdefinite, hanswer⟩ := getPermissions_answer hbefore
  obtain ⟨hdefinite', hanswer'⟩ := getPermissions_answer hafter
  have hgranted := granted_local hapart hlocal hnone hdefinite hdefinite'
  rcases hanswer with ⟨rfl, hyes⟩ | ⟨rfl, hno⟩ <;>
    rcases hanswer' with ⟨rfl, hyes'⟩ | ⟨rfl, hno'⟩
  · exact hchanged rfl
  · exact hno' (hgranted.mpr hyes)
  · exact hno (hgranted.mp hyes')
  · exact hchanged rfl

end Local

end UserManagedAccess.Controller
