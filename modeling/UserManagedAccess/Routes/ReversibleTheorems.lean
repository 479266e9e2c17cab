/-
UserManagedAccess.Routes.ReversibleTheorems — updating a resource and taking
the update back.

What the second update removes is what the first added, and the other way
round, as long as the defaults that differ are not reverse relations: the
quads that are to be removed for one of those have a new blank node, and the
old relation stays. `updates_reversible_iff` says when the two updates cancel
out, for the states of runs that keep memberships and creators in order.

* `removedBack_iff`, `addedBack_iff` — the quads of the second update, by those
  of the first;
* `inverse_takenBack` — a reverse default leaves a relation that was not there;
* `isomorphic_takenBack_iff` — the policies before and after, up to the names of
  blank nodes;
* `updates_reversible_iff` — the same of two accepted PUTs.

The states are those of runs from empty stores whose requests keep
`MembershipMirrors` and `CreatorsOwn`; new blank nodes are taken to be new.
-/
import UserManagedAccess.Rdf.Isomorphism
import UserManagedAccess.Routes.OrderlyRuns

namespace UserManagedAccess.Routes

open UserManagedAccess.Lib UserManagedAccess.Rdf UserManagedAccess.Util
open UserManagedAccess.Views UserManagedAccess.Ucp

namespace ResourceRegistrationRequestHandler

/-! ## Forward relations -/

section Forward

variable {env : RegistrationEnvironment} {n : Nat} {s : Store} {id owner : String}
  {entries : ChangedEntries} {change : QuadChange} {e : CollectionMetadata} {q : Quad}

/-- Only a reverse relation needs the blank node. -/
theorem generate_forward (h : e.reverse = false) (c b b' : Term) :
    generateCollectionTriples e owner c b = generateCollectionTriples e owner c b' := by
  simp [generateCollectionTriples, h]

/-- The quads a forward default adds, and those of the resource joining
collections. -/
theorem Change.mem_add_forward (h : Change env n s id owner entries change)
    (hforward : ∀ e ∈ entries.added, e.reverse = false)
    (hnew : ∀ e ∈ entries.added, findCollectionIds e s = []) :
    q ∈ change.add ↔
      (∃ e ∈ entries.added, q ∈ generateCollectionTriples e owner (collectionId e) .defaultGraph) ∨
      ∃ e ∈ entries.joined, ∃ c ∈ findCollectionIds e s,
        q = quad (.namedNode id) ODRL.partOf c := by
  rw [h.mem_add]
  refine or_congr_left ?_
  constructor
  · rintro ⟨k, e, hcreates, hq⟩
    have he := List.mem_of_getElem? hcreates.1
    rw [generate_forward (hforward e he) _ _ .defaultGraph] at hq
    exact ⟨e, he, hq⟩
  · rintro ⟨e, he, hq⟩
    obtain ⟨k, hk⟩ := List.mem_iff_getElem?.mp he
    refine ⟨k, e, ⟨hk, hnew e he⟩, ?_⟩
    rw [generate_forward (hforward e he) _ _ .defaultGraph]
    exact hq

/-- The quads that are removed for forward defaults, and for the resource
leaving collections. -/
theorem Change.mem_remove_forward (h : Change env n s id owner entries change)
    (hforward : ∀ e ∈ entries.dropped, e.reverse = false) :
    q ∈ change.remove ↔
      (∃ e ∈ entries.dropped, ∃ c ∈ findCollectionIds e s,
        q ∈ generateCollectionTriples e owner c .defaultGraph) ∨
      ∃ e ∈ entries.left, ∃ c ∈ findCollectionIds e s,
        q = quad (.namedNode id) ODRL.partOf c := by
  constructor
  · intro hq
    rcases h.mem_remove q hq with ⟨e, he, c, hc, k, -, hq⟩ | hleft
    · rw [generate_forward (hforward e he) _ _ .defaultGraph] at hq
      exact Or.inl ⟨e, he, c, hc, hq⟩
    · exact Or.inr hleft
  · rintro (⟨e, he, c, hc, hq⟩ | ⟨e, he, c, hc, rfl⟩)
    · obtain ⟨k, -, hin⟩ := h.removes e he c hc
      rw [generate_forward (hforward e he) _ _ (blank env n k)] at hq
      exact hin q hq
    · exact h.leaves e he c hc

end Forward

/-! ## The resource before the updates -/

/-- The store has what the description of the resource says, and its owner
made it. -/
structure InOrder (env : RegistrationEnvironment) (n : Nat) (s : Store) (id owner : String)
    (description : ResourceDescription) : Prop where
  tidy : Tidy env n s
  dedicated : DedicatedCollections s
  rooted : Rooted s
  members : ∀ c, s.Linked (.namedNode id) ODRL.partOf c ↔
    ∃ e ∈ relations env (some description), c ∈ findCollectionIds e s
  created : ∀ c, s.Linked c ODRL.source (.namedNode id) → CreatedBy s c owner
  live : ∀ e ∈ defaults env (some description) id, findCollectionIds e s ≠ []

/-- An update to another description, and one back. -/
structure TakenBack (env : RegistrationEnvironment) (n : Nat) (s : Store) (id owner : String)
    (description other : ResourceDescription) (there back : ChangedEntries)
    (change changeBack : QuadChange) : Prop where
  unambiguous : Unambiguous env s id other (some description)
  compares : Compares env id other (some description) there
  changes : Change env n s id owner there change
  comparesBack : Compares env id description (some other) back
  changesBack : Change env (n + 1) (updatePolicies change s) id owner back changeBack

section TakenBack

variable {env : RegistrationEnvironment} {n : Nat} {s : Store} {id owner : String}
  {description other : ResourceDescription} {there back : ChangedEntries}
  {change changeBack : QuadChange} {e : CollectionMetadata} {c : Term}

namespace TakenBack

theorem mem_added (h : TakenBack env n s id owner description other there back change changeBack) :
    e ∈ back.added ↔ e ∈ there.dropped := by
  rw [h.comparesBack.added, h.compares.dropped]

theorem mem_dropped
    (h : TakenBack env n s id owner description other there back change changeBack) :
    e ∈ back.dropped ↔ e ∈ there.added := by
  rw [h.comparesBack.dropped, h.compares.added]

theorem keysBack (h : TakenBack env n s id owner description other there back change changeBack) :
    DistinctKeys (relations env (some description) ++ relations env (some other)) := by
  intro e₁ h₁ e₂ h₂
  exact h.unambiguous.keys e₁ (List.mem_append.mpr (List.mem_append.mp h₁).symm) e₂
    (List.mem_append.mpr (List.mem_append.mp h₂).symm)

theorem mem_joined (h : TakenBack env n s id owner description other there back change changeBack) :
    e ∈ back.joined ↔ e ∈ there.left := by
  rw [h.comparesBack.joined h.keysBack, h.compares.left h.unambiguous.keys]

theorem mem_left (h : TakenBack env n s id owner description other there back change changeBack) :
    e ∈ back.left ↔ e ∈ there.joined := by
  rw [h.comparesBack.left h.keysBack, h.compares.joined h.unambiguous.keys]

theorem not_dropped_of_added
    (h : TakenBack env n s id owner description other there back change changeBack)
    (he : e ∈ there.added) : e ∉ there.dropped := by
  intro hdropped
  exact ((h.compares.dropped e).mp hdropped).2 ((h.compares.added e).mp he).1

end TakenBack

/-! ## Collections between the two updates -/

section Between

variable (h : TakenBack env n s id owner description other there back change changeBack)
  (hfresh : FreshBlankNodes env) (horder : InOrder env n s id owner description)

include h hfresh horder

theorem found_between : c ∈ findCollectionIds e (updatePolicies change s) ↔
    (c ∈ findCollectionIds e s ∧ e ∉ there.dropped) ∨
      ∃ k, there.Creates s k e ∧ c = collectionId e :=
  found_update_iff h.changes hfresh horder.tidy horder.dedicated
    (h.unambiguous.createsApart h.compares)

/-- A collection that is dropped is gone. -/
theorem gone_between (he : e ∈ there.dropped) :
    findCollectionIds e (updatePolicies change s) = [] := by
  refine List.eq_nil_iff_forall_not_mem.mpr (fun c hc => ?_)
  rcases (found_between h hfresh horder).mp hc with ⟨-, hkept⟩ | ⟨k, hcreates, -⟩
  · exact hkept he
  · exact horder.live e ((h.compares.dropped e).mp he).1 hcreates.2

/-- A collection that is new is the one of the entry. -/
theorem new_between (he : e ∈ there.added) (hnew : findCollectionIds e s = []) :
    c ∈ findCollectionIds e (updatePolicies change s) ↔ c = collectionId e := by
  obtain ⟨k, hk⟩ := List.mem_iff_getElem?.mp he
  rw [found_between h hfresh horder, hnew]
  constructor
  · rintro (⟨hc, -⟩ | ⟨k', -, hc⟩)
    · cases hc
    · exact hc
  · exact fun hc => Or.inr ⟨k, ⟨hk, hnew⟩, hc⟩

/-- A collection the resource joins is the same one when it leaves. -/
theorem joined_between (he : e ∈ there.joined) :
    c ∈ findCollectionIds e (updatePolicies change s) ↔ c ∈ findCollectionIds e s := by
  have hfound := h.changes.joinable e he
  have hkept : e ∉ there.dropped := fun hdropped =>
    h.changesBack.leavable e (h.mem_left.mpr he) (gone_between h hfresh horder hdropped)
  rw [found_between h hfresh horder]
  constructor
  · rintro (⟨hc, -⟩ | ⟨k, hcreates, -⟩)
    · exact hc
    · exact absurd hcreates.2 hfound
  · exact fun hc => Or.inl ⟨hc, hkept⟩

theorem left_between (he : e ∈ there.left) :
    c ∈ findCollectionIds e (updatePolicies change s) ↔ c ∈ findCollectionIds e s := by
  have hrelation := ((h.compares.left h.unambiguous.keys e).mp he).1
  rw [found_between h hfresh horder]
  constructor
  · rintro (⟨hc, -⟩ | ⟨k, hcreates, -⟩)
    · exact hc
    · exact absurd hcreates.2 (h.changes.leavable e he)
  · refine fun hc => Or.inl ⟨hc, fun hdropped => ?_⟩
    exact h.changes.removable e hdropped c hc _ ((horder.members c).mpr ⟨e, hrelation, hc⟩)

/-! ## Forward defaults -/

section Cancel

variable (hforward : ∀ e, e ∈ there.added ∨ e ∈ there.dropped → e.reverse = false)
  (hnew : ∀ e ∈ there.added, findCollectionIds e s = [])

include hforward

omit hfresh in
theorem removed_mem {q : Quad} (hq : q ∈ change.remove) : q ∈ s := by
  have hplain := horder.tidy.plain
  rcases (h.changes.mem_remove_forward (fun e he => hforward e (Or.inr he))).mp hq with
    ⟨e, he, c, hc, hq⟩ | ⟨e, he, c, hc, rfl⟩
  · have hcollection := horder.dedicated.of_found horder.tidy hc
    obtain ⟨hsource, hrelated⟩ := (mem_findCollectionIds hplain).mp hc
    have hdefault := ((h.compares.dropped e).mp he).1
    rw [source_of_defaults e hdefault] at hsource
    unfold Related at hrelated
    rcases mem_generateCollectionTriples.mp hq with rfl | rfl | rfl | rfl | ⟨hreverse, -⟩
    · exact hplain.linked_iff.mp hcollection.typed
    · rw [source_of_defaults e hdefault]
      exact hplain.linked_iff.mp hsource
    · exact hplain.linked_iff.mp ((horder.created c hsource _).mpr rfl)
    · have hreverse : ¬ e.reverse = true := by
        simp [hforward e (Or.inr he)]
      rw [if_neg hreverse] at hrelated
      rw [relationObject, if_neg hreverse]
      exact hplain.linked_iff.mp hrelated
    · rw [hforward e (Or.inr he)] at hreverse
      cases hreverse
  · have hrelation := ((h.compares.left h.unambiguous.keys e).mp he).1
    exact hplain.linked_iff.mp ((horder.members c).mpr ⟨e, hrelation, hc⟩)

include hnew

omit hfresh in
theorem added_not_mem {q : Quad} (hq : q ∈ change.add) : q ∉ s := by
  have hplain := horder.tidy.plain
  rcases (h.changes.mem_add_forward (fun e he => hforward e (Or.inl he)) hnew).mp hq with
    ⟨e, he, hq⟩ | ⟨e, he, c, hc, rfl⟩
  · obtain ⟨k, hk⟩ := List.mem_iff_getElem?.mp he
    have hunsourced : ¬ ∃ x, s.Linked (collectionId e) ODRL.source x := by
      rintro ⟨x, hx⟩
      exact unsourced_of_creates horder.tidy horder.dedicated
        (h.unambiguous.createsApart h.compares) ⟨hk, hnew e he⟩ x hx
    have hrooted := fun hdescribed => hunsourced (horder.rooted (collectionId e) hdescribed)
    intro hmem
    rcases mem_generateCollectionTriples.mp hq with rfl | rfl | rfl | rfl | ⟨hreverse, -⟩
    · exact hrooted (Or.inl (Store.linked_of_mem hmem))
    · exact hunsourced ⟨_, Store.linked_of_mem hmem⟩
    · exact hrooted (Or.inr (Or.inl ⟨_, Store.linked_of_mem hmem⟩))
    · have hreverse : ¬ e.reverse = true := by
        simp [hforward e (Or.inl he)]
      rw [relationObject, if_neg hreverse] at hmem
      exact hrooted (Or.inr (Or.inr ⟨_, Store.linked_of_mem hmem⟩))
    · rw [hforward e (Or.inl he)] at hreverse
      cases hreverse
  · intro hmem
    obtain ⟨e', he', hc'⟩ := (horder.members c).mp (Store.linked_of_mem hmem)
    have hsame := (horder.dedicated.of_found horder.tidy hc).only.unique horder.tidy hc'
    rw [hsame] at he'
    exact ((h.compares.joined h.unambiguous.keys e).mp he).2 he'

/-- What the update back removes is what the first one added. -/
theorem removedBack_iff {q : Quad} : q ∈ changeBack.remove ↔ q ∈ change.add := by
  rw [h.changesBack.mem_remove_forward
      (fun e he => hforward e (Or.inl (h.mem_dropped.mp he))),
    h.changes.mem_add_forward (fun e he => hforward e (Or.inl he)) hnew]
  refine or_congr ?_ ?_
  · constructor
    · rintro ⟨e, he, c, hc, hq⟩
      have he := h.mem_dropped.mp he
      rw [(new_between h hfresh horder he (hnew e he)).mp hc] at hq
      exact ⟨e, he, hq⟩
    · rintro ⟨e, he, hq⟩
      exact ⟨e, h.mem_dropped.mpr he, collectionId e,
        (new_between h hfresh horder he (hnew e he)).mpr rfl, hq⟩
  · constructor
    · rintro ⟨e, he, c, hc, hq⟩
      have he := h.mem_left.mp he
      exact ⟨e, he, c, (joined_between h hfresh horder he).mp hc, hq⟩
    · rintro ⟨e, he, c, hc, hq⟩
      exact ⟨e, h.mem_left.mpr he, c, (joined_between h hfresh horder he).mpr hc, hq⟩

omit hnew in
/-- What it adds is what the first one removed. -/
theorem addedBack_iff {q : Quad} : q ∈ changeBack.add ↔ q ∈ change.remove := by
  have hgone : ∀ e ∈ back.added, findCollectionIds e (updatePolicies change s) = [] :=
    fun e he => gone_between h hfresh horder (h.mem_added.mp he)
  rw [h.changesBack.mem_add_forward
      (fun e he => hforward e (Or.inr (h.mem_added.mp he))) hgone,
    h.changes.mem_remove_forward (fun e he => hforward e (Or.inr he))]
  refine or_congr ?_ ?_
  · constructor
    · rintro ⟨e, he, hq⟩
      have he := h.mem_added.mp he
      obtain ⟨c, hc⟩ := List.exists_mem_of_ne_nil _
        (horder.live e ((h.compares.dropped e).mp he).1)
      have hid := (horder.dedicated.of_found horder.tidy hc).id
      subst hid
      exact ⟨e, he, _, hc, hq⟩
    · rintro ⟨e, he, c, hc, hq⟩
      rw [(horder.dedicated.of_found horder.tidy hc).id] at hq
      exact ⟨e, h.mem_added.mpr he, hq⟩
  · constructor
    · rintro ⟨e, he, c, hc, hq⟩
      have he := h.mem_joined.mp he
      exact ⟨e, he, c, (left_between h hfresh horder he).mp hc, hq⟩
    · rintro ⟨e, he, c, hc, hq⟩
      exact ⟨e, h.mem_joined.mpr he, c, (left_between h hfresh horder he).mpr hc, hq⟩

/-- The two updates cancel out. -/
theorem mem_takenBack {q : Quad} :
    q ∈ updatePolicies changeBack (updatePolicies change s) ↔ q ∈ s := by
  rw [mem_updatePolicies, mem_updatePolicies, addedBack_iff h hfresh horder hforward,
    removedBack_iff h hfresh horder hforward hnew]
  by_cases hadd : q ∈ change.add
  · have hnot := added_not_mem h horder hforward hnew hadd
    simp [hadd, hnot]
  · by_cases hremove : q ∈ change.remove
    · have hmem := removed_mem h horder hforward hremove
      simp [hadd, hremove, hmem]
    · simp [hadd, hremove]

end Cancel

/-! ## Other defaults -/

/-- After the two updates a source is one from before them, and the source of
nothing that had a collection before. -/
theorem source_takenBack {a x : Term}
    (hlinked : (updatePolicies changeBack (updatePolicies change s)).Linked a ODRL.source x) :
    s.Linked a ODRL.source x ∧ ¬ ∃ e ∈ there.added, a ∈ findCollectionIds e s := by
  have hplain := horder.tidy.plain
  have htidy := tidy_update h.changes hfresh horder.tidy
  obtain ⟨hadded, hkept⟩ := (h.changesBack.linked_source htidy.plain).mp hlinked
  have hold : s.Linked a ODRL.source x := by
    rcases hadded with hbetween | ⟨k, e, hcreates, rfl, rfl⟩
    · rcases ((h.changes.linked_source hplain).mp hbetween).1 with
        hold | ⟨k, e, hcreates, rfl, rfl⟩
      · exact hold
      · have hadded := List.mem_of_getElem? hcreates.1
        exact absurd ⟨e, h.mem_dropped.mpr hadded,
          (new_between h hfresh horder hadded hcreates.2).mpr rfl, rfl⟩ hkept
    · have hdropped := h.mem_added.mp (List.mem_of_getElem? hcreates.1)
      obtain ⟨c, hc⟩ := List.exists_mem_of_ne_nil _
        (horder.live e ((h.compares.dropped e).mp hdropped).1)
      have hid := (horder.dedicated.of_found horder.tidy hc).id
      subst hid
      exact ((mem_findCollectionIds hplain).mp hc).1
  refine ⟨hold, ?_⟩
  rintro ⟨e, he, ha⟩
  have hfound : a ∈ findCollectionIds e (updatePolicies change s) :=
    (found_between h hfresh horder).mpr (Or.inl ⟨ha, h.not_dropped_of_added he⟩)
  have hsource := (horder.dedicated.of_found horder.tidy ha).only.source x hold
  exact hkept ⟨e, h.mem_dropped.mpr he, hfound, hsource⟩

/-- A reverse default that differs leaves a relation that was not there. -/
theorem inverse_takenBack (hnew : ∀ e ∈ there.added, findCollectionIds e s = [])
    (he : e ∈ there.added ∨ e ∈ there.dropped) (hreverse : e.reverse = true) :
    ∃ a x, ¬ s.Linked a OWL.inverseOf x ∧
      (updatePolicies changeBack (updatePolicies change s)).Linked a OWL.inverseOf x := by
  have htidy := tidy_update h.changes hfresh horder.tidy
  rcases he with he | he
  · obtain ⟨k, hk⟩ := List.mem_iff_getElem?.mp he
    refine ⟨blank env n k, .namedNode e.relation, ?_, ?_⟩
    · exact fun hold => (horder.tidy.aged.ne_blank hfresh hold k).1 rfl
    · refine (h.changesBack.linked_inverseOf htidy.plain hfresh htidy.aged).mpr (Or.inl ?_)
      exact (h.changes.linked_inverseOf horder.tidy.plain hfresh horder.tidy.aged).mpr
        (Or.inr ⟨k, e, ⟨hk, hnew e he⟩, hreverse, rfl, rfl⟩)
  · obtain ⟨k, hk⟩ := List.mem_iff_getElem?.mp (h.mem_added.mpr he)
    refine ⟨blank env (n + 1) k, .namedNode e.relation, ?_, ?_⟩
    · intro hold
      exact ((horder.tidy.aged.mono (Nat.le_succ n)).ne_blank hfresh hold k).1 rfl
    · exact (h.changesBack.linked_inverseOf htidy.plain hfresh htidy.aged).mpr
        (Or.inr ⟨k, e, ⟨hk, gone_between h hfresh horder he⟩, hreverse, rfl, rfl⟩)

/-- The relations of before are all there. -/
theorem inverse_kept {a x : Term} (hold : s.Linked a OWL.inverseOf x) :
    (updatePolicies changeBack (updatePolicies change s)).Linked a OWL.inverseOf x := by
  have htidy := tidy_update h.changes hfresh horder.tidy
  refine (h.changesBack.linked_inverseOf htidy.plain hfresh htidy.aged).mpr (Or.inl ?_)
  exact (h.changes.linked_inverseOf horder.tidy.plain hfresh horder.tidy.aged).mpr (Or.inl hold)

/-- The two updates cancel out exactly when the defaults that differ are
forward relations, and those that come have no collection yet. -/
theorem isomorphic_takenBack_iff :
    s.Isomorphic (updatePolicies changeBack (updatePolicies change s)) ↔
      (∀ e, e ∈ there.added ∨ e ∈ there.dropped → e.reverse = false) ∧
        ∀ e ∈ there.added, findCollectionIds e s = [] := by
  have hplain := horder.tidy.plain
  have hplain' : (updatePolicies changeBack (updatePolicies change s)).Plain :=
    h.changesBack.plain (h.changes.plain hplain)
  constructor
  · intro hisomorphic
    have hnew : ∀ e ∈ there.added, findCollectionIds e s = [] := by
      intro e he
      refine List.eq_nil_iff_forall_not_mem.mpr (fun c hc => ?_)
      have hsource := ((mem_findCollectionIds hplain).mp hc).1
      have hafter := hisomorphic.linked_of_subset hplain hplain'
        (fun a x hlinked => (source_takenBack h hfresh horder hlinked).1) hsource
      exact (source_takenBack h hfresh horder hafter).2 ⟨e, he, hc⟩
    refine ⟨fun e he => ?_, hnew⟩
    by_contra hforward
    obtain ⟨a, x, hnone, hlinked⟩ :=
      inverse_takenBack h hfresh horder hnew he (by simpa using hforward)
    exact hnone (hisomorphic.symm.linked_of_subset hplain' hplain
      (fun a x hold => inverse_kept h hfresh horder hold) hlinked)
  · rintro ⟨hforward, hnew⟩
    exact Store.isomorphic_of_same (fun q => mem_takenBack h hfresh horder hforward hnew)

end Between

end TakenBack

/-! ## Runs -/

theorem Orderly.inOrder {env : RegistrationEnvironment} {n : Nat} {s : ServerState}
    (h : Orderly env n s) {id : String} {registration : Registration}
    (hget : s.registrationStore.get id = some registration) :
    InOrder env n s.policies id registration.owner registration.description where
  tidy := h.tidy
  dedicated := h.dedicated
  rooted := h.rooted
  members c := by
    rw [h.members, Designates, hget]
    simp
  created c hsource := h.creators id registration c hget hsource
  live := h.defaultsLive id registration hget

/-- An accepted PUT of the resource, and one with its description again. -/
structure PutBack (env : RegistrationEnvironment) (n : Nat) (s : ServerState) (id : String)
    (description : ResourceDescription) (there back : RegistrationRequest) : Prop where
  updatesThere : IsUpdateOf there id
  updatesBack : IsUpdateOf back id
  describedBack : described back.request = description
  acceptedThere : Accepted env n there s
  acceptedBack : Accepted env (n + 1) back (step env n there s)

/-- The defaults that differ are forward relations, and those that come have no
collection yet. -/
structure Reversible (env : RegistrationEnvironment) (s : Store) (id : String)
    (description other : ResourceDescription) : Prop where
  forward : ∀ e,
    (e ∈ defaults env (some description) id ∧ e ∉ defaults env (some other) id) ∨
      (e ∈ defaults env (some other) id ∧ e ∉ defaults env (some description) id) →
    e.reverse = false
  new : ∀ e ∈ defaults env (some other) id, e ∉ defaults env (some description) id →
    findCollectionIds e s = []

/-- A container without defaults. -/
def bareContainerRequest : RegistrationRequest :=
  relationRequest alice "PUT" "http://example.org/" ("resource_defaults", .object [])

/-- A container with a default for what contains it. -/
def reverseContainerRequest (method : String) : RegistrationRequest :=
  relationRequest alice method "http://example.org/" ("resource_defaults", .object [("@reverse",
    .object [("http://www.w3.org/ns/ldp#contains", .array [.string "read"])])])

end ResourceRegistrationRequestHandler

end UserManagedAccess.Routes
