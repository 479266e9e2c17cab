/-
UserManagedAccess.Routes.CollectionTheorems — what a collection request does
to the stores, when nothing else runs meanwhile.

A PUT takes everything said about the collection for its old description, the
collections it is itself part of included. `putReplaces_iff` says when it
replaces the collection and nothing else.

* `run_handlePut` — a PUT is refused, or replaces the collection;
* `answered_respond` — so every request is refused, or has an effect;
* `replaces_replaceCollection_iff` — what else goes with the old description;
* `putReplaces_iff` — an accepted PUT replaces the collection and nothing else
  exactly when the collection is a part of none.

Users, bodies and the state before are arbitrary; the description a PUT makes of
its body is the one that `descriptionToQuads` gives.
-/
import UserManagedAccess.Rdf.Links
import UserManagedAccess.Routes.Collection
import UserManagedAccess.Routes.ResourceRegistrationTheorems

namespace UserManagedAccess.Routes

open UserManagedAccess.Lib UserManagedAccess.Rdf UserManagedAccess.Util
open UserManagedAccess.Views UserManagedAccess.Ucp UserManagedAccess.Credentials

/-! ## The quads of a collection -/

namespace CollectionDescription

variable {userId : String} {subject : Term} {description : CollectionDescription} {q : Quad}

theorem mem_textQuads {text : Option String} (h : q ∈ textQuads subject text) :
    ∃ x, q = quad subject DC.description x := by
  unfold textQuads at h
  split at h
  · exact ⟨_, List.mem_singleton.mp h⟩
  · cases h

theorem mem_toQuads : q ∈ description.toQuads userId subject ↔
    q = quad subject RDF.type description.type ∨
      q ∈ textQuads subject description.description ∨
      (∃ owner ∈ description.creators userId, q = quad subject DC.creator (.namedNode owner)) ∨
      ∃ part ∈ description.parts, q = quad (.namedNode part) ODRL.partOf subject := by
  rw [toQuads, List.mem_append, List.mem_append, List.mem_append, List.mem_singleton,
    List.mem_map, List.mem_map, or_assoc, or_assoc]
  simp only [eq_comm]

theorem graph_toQuads (h : q ∈ description.toQuads userId subject) : q.graph = .defaultGraph := by
  rcases mem_toQuads.mp h with rfl | htext | ⟨owner, -, rfl⟩ | ⟨part, -, rfl⟩
  · rfl
  · obtain ⟨x, rfl⟩ := mem_textQuads htext
    rfl
  · rfl
  · rfl

end CollectionDescription

namespace CollectionRequestHandler

/-- A quad about the collection, as the code takes it. -/
def About (subject : Term) (q : Quad) : Prop :=
  q.subject = subject ∨ (q.predicate = ODRL.partOf ∧ q.object = subject)

theorem mem_collectionQuads {subject : Term} {store : Store} {q : Quad} :
    q ∈ collectionQuads subject store ↔ q ∈ store ∧ About subject q := by
  rw [collectionQuads, List.mem_append, Store.mem_getQuads_subject, Store.mem_getQuads,
    Store.matches_iff, About]
  simp [← and_or_left]

theorem about_toQuads {userId : String} {subject : Term} {description : CollectionDescription}
    {q : Quad} (h : q ∈ description.toQuads userId subject) : About subject q := by
  rcases CollectionDescription.mem_toQuads.mp h with
    rfl | htext | ⟨owner, -, rfl⟩ | ⟨part, -, rfl⟩
  · exact Or.inl rfl
  · obtain ⟨x, rfl⟩ := CollectionDescription.mem_textQuads htext
    exact Or.inl rfl
  · exact Or.inl rfl
  · exact Or.inr ⟨rfl, rfl⟩

/-! ## Checks -/

/-- The user is an owner of the party collection, or owns the parts of the
asset collection. -/
def MayDescribe (s : ServerState) (userId : String) : CollectionDescription → Prop
  | .party _ owners _ => userId ∈ owners
  | .asset _ parts => ∀ part ∈ parts, part ∈ s.owned userId

theorem run_checkOwner (userId : String) (description : CollectionDescription) (s : ServerState) :
    (∃ e, (checkOwner userId description).run s = (.error e, s)) ∨
      ((checkOwner userId description).run s = (.ok (), s) ∧
        MayDescribe s userId description) := by
  cases description with
  | party text owners parts =>
    by_cases howner : owners.contains userId = true
    · refine Or.inr ⟨?_, List.contains_iff_mem.mp howner⟩
      unfold checkOwner
      simp only [howner, if_true]
      rfl
    · refine Or.inl ⟨notAnOwner, ?_⟩
      unfold checkOwner
      dsimp only
      rw [if_neg howner]
      rfl
  | asset text parts =>
    have hread : (ResourceRegistrationRequestHandler.ownedResources userId).run s =
        (.ok (s.owned userId), s) := rfl
    unfold checkOwner
    dsimp only
    rw [Async.run_bind_of_ok hread]
    rcases hfind : parts.find? (fun asset => !(s.owned userId).contains asset) with _ | asset
    · refine Or.inr ⟨rfl, fun part hpart => ?_⟩
      have hnone := List.find?_eq_none.mp hfind part hpart
      simpa using hnone
    · exact Or.inl ⟨_, rfl⟩

/-- The description in the body of a request. -/
def describedCollection (request : HttpHandlerRequest) : CollectionDescription :=
  CollectionDescription.ofJson request.body

theorem run_descriptionToQuads (request : HttpHandlerRequest) (userId : String) (subject : Term)
    (s : ServerState) :
    (∃ e, (descriptionToQuads request.body userId subject).run s = (.error e, s)) ∨
      ((descriptionToQuads request.body userId subject).run s =
          (.ok ((describedCollection request).toQuads userId subject), s) ∧
        MayDescribe s userId (describedCollection request)) := by
  unfold descriptionToQuads
  rcases hsyntax : (CollectionDescription.assertion request.body).mapError
    ResourceRegistrationRequestHandler.badSyntax with e | ⟨⟩
  · exact Or.inl ⟨e, Async.run_bind_of_error (Async.run_lift _ _) _⟩
  rw [Async.run_bind_of_ok (Async.run_lift _ _)]
  rcases run_checkOwner userId (CollectionDescription.ofJson request.body) s with
    ⟨e, hrefused⟩ | ⟨hok, hmay⟩
  · exact Or.inl ⟨e, Async.run_bind_of_error hrefused _⟩
  · rw [Async.run_bind_of_ok hok]
    exact Or.inr ⟨rfl, hmay⟩

/-- A collection that is no relation collection, of which the user is an
owner. -/
structure Modifiable (store : Store) (subject : Term) (userId : String) : Prop where
  custom : ∀ x, ¬ store.Linked subject ODRL_P.relation x
  owner : store.Linked subject DC.creator (.namedNode userId)

theorem modifiable_of_checked {store : Store} {subject : Term} {userId : String}
    (h : checkModifiable subject userId store = .ok ()) : Modifiable store subject userId := by
  unfold checkModifiable at h
  by_cases hrelation : (store.getObjects subject ODRL_P.relation none).length > 0
  · rw [if_pos hrelation] at h
    cases h
  rw [if_neg hrelation] at h
  have h : verifyOwnership subject userId store = .ok () := h
  refine ⟨fun x hx => ?_, ?_⟩
  · exact hrelation (List.length_pos_of_mem (Store.mem_getObjects_linked.mpr hx))
  · unfold verifyOwnership at h
    dsimp only at h
    by_cases hnone : (store.getObjects subject DC.creator none).length = 0
    · rw [if_pos hnone] at h
      cases h
    rw [if_neg hnone] at h
    by_cases howner : (store.getObjects subject DC.creator none).any
        (fun owner => owner == .namedNode userId) = true
    · obtain ⟨owner, hmem, heq⟩ := List.any_eq_true.mp howner
      have heq : owner = .namedNode userId := by simpa using heq
      subst heq
      exact Store.mem_getObjects_linked.mp hmem
    · rw [if_pos howner] at h
      cases h

/-! ## Effects -/

/-- The store with the quads in place of all that was said about the
collection. -/
def replaceCollection (subject : Term) (quads : List Quad) (policies : Store) : Store :=
  (policies.addAll ((Store.ofQuads quads).difference
      (Store.ofQuads (collectionQuads subject policies)))).difference
    ((Store.ofQuads (collectionQuads subject policies)).difference (Store.ofQuads quads))

theorem mem_replaceCollection {subject : Term} {quads : List Quad} {policies : Store} {q : Quad}
    (habout : ∀ r ∈ quads, About subject r) :
    q ∈ replaceCollection subject quads policies ↔
      q ∈ quads ∨ (q ∈ policies ∧ ¬ About subject q) := by
  simp only [replaceCollection, Store.mem_difference, Store.mem_addAll, Store.mem_ofQuads,
    mem_collectionQuads]
  have hquads := habout q
  tauto

/-- The collection's quads removed. -/
def withoutCollection (subject : Term) (policies : Store) : Store :=
  policies.difference (Store.ofQuads (collectionQuads subject policies))

theorem mem_withoutCollection {subject : Term} {policies : Store} {q : Quad} :
    q ∈ withoutCollection subject policies ↔ q ∈ policies ∧ ¬ About subject q := by
  simp only [withoutCollection, Store.mem_difference, Store.mem_ofQuads, mem_collectionQuads]
  tauto

/-- What an accepted request of a user does to the state. -/
inductive Effect (env : CollectionEnvironment) (n : Nat) (request : HttpHandlerRequest)
    (userId : String) (s : ServerState) : ServerState → Prop
  | read : Effect env n request userId s s
  | posted (hmethod : request.method = "POST")
      (hmay : MayDescribe s userId (describedCollection request)) :
      Effect env n request userId s (s.addRule (Store.ofQuads
        ((describedCollection request).toQuads userId (.namedNode (newUrl env n request)))))
  | updated (hmethod : request.method = "PUT")
      (hmodifiable : Modifiable s.policies (.namedNode request.url) userId)
      (hmay : MayDescribe s userId (describedCollection request)) :
      Effect env n request userId s { s with
        policies := replaceCollection (.namedNode request.url)
          ((describedCollection request).toQuads userId (.namedNode request.url)) s.policies }
  | deleted (hmethod : request.method = "DELETE")
      (hmodifiable : Modifiable s.policies (.namedNode request.url) userId) :
      Effect env n request userId s { s with
        policies := withoutCollection (.namedNode request.url) s.policies }

def Answered (env : CollectionEnvironment) (n : Nat) (request : HttpHandlerRequest)
    (userId : String) (s : ServerState)
    (outcome : Except HttpError CollectionResponse × ServerState) : Prop :=
  (∃ e, outcome = (.error e, s)) ∨
    ∃ response s', outcome = (.ok response, s') ∧ Effect env n request userId s s'

section Handlers

variable {env : CollectionEnvironment} {n : Nat} {request : HttpHandlerRequest} {userId : String}
  {s : ServerState}

theorem run_addNew (add : Store) (s : ServerState) :
    (addNew add).run s = (.ok (), s.addRule add) := by
  unfold addNew
  by_cases hsize : add.size > 0
  · rw [if_pos hsize]
    rfl
  · rw [if_neg hsize, Store.eq_empty_of_size hsize]
    rfl

theorem run_removeOld (remove : Store) (s : ServerState) :
    (removeOld remove).run s = (.ok (), s.removeData remove) := by
  unfold removeOld
  by_cases hsize : remove.size > 0
  · rw [if_pos hsize]
    rfl
  · rw [if_neg hsize, Store.eq_empty_of_size hsize, ServerState.removeData_empty]
    rfl

theorem run_getStore (s : ServerState) : (serverPolicies.getStore).run s = (.ok s.policies, s) := rfl

theorem answered_handleGet :
    Answered env n request userId s ((handleGet request userId).run s) := by
  unfold handleGet
  rw [Async.run_bind_of_ok (run_getStore s)]
  rcases hid : requestId request with _ | id
  · exact Or.inr ⟨_, _, rfl, .read⟩
  · dsimp only
    rcases hchecked : verifyOwnership (.namedNode request.url) userId s.policies with e | ⟨⟩
    · exact Or.inl ⟨e, Async.run_bind_of_error (Async.run_lift _ _) _⟩
    · rw [Async.run_bind_of_ok (Async.run_lift _ _)]
      exact Or.inr ⟨_, _, rfl, .read⟩

theorem answered_handlePost (hmethod : request.method = "POST") :
    Answered env n request userId s ((handlePost env n request userId).run s) := by
  unfold handlePost
  rcases run_descriptionToQuads request userId (.namedNode (newUrl env n request)) s with
    ⟨e, hrefused⟩ | ⟨hok, hmay⟩
  · exact Or.inl ⟨e, Async.run_bind_of_error hrefused _⟩
  · dsimp only
    rw [Async.run_bind_of_ok hok]
    exact Or.inr ⟨_, _, rfl, .posted hmethod hmay⟩

/-- A PUT is refused, or replaces the collection. -/
theorem run_handlePut (request : HttpHandlerRequest) (userId : String) (s : ServerState) :
    (∃ e, (handlePut request userId).run s = (.error e, s)) ∨
      (Modifiable s.policies (.namedNode request.url) userId ∧
        MayDescribe s userId (describedCollection request) ∧
        (handlePut request userId).run s = (.ok { status := 204 }, { s with
          policies := replaceCollection (.namedNode request.url)
            ((describedCollection request).toQuads userId (.namedNode request.url))
            s.policies })) := by
  unfold handlePut
  rcases hid : requestId request with _ | id
  · exact Or.inl ⟨_, rfl⟩
  dsimp only
  rw [Async.run_bind_of_ok (run_getStore s)]
  rcases hchecked : checkModifiable (.namedNode request.url) userId s.policies with e | ⟨⟩
  · exact Or.inl ⟨e, Async.run_bind_of_error (Async.run_lift _ _) _⟩
  rw [Async.run_bind_of_ok (Async.run_lift _ _), Async.run_bind_of_ok (Async.run_yield _)]
  rcases run_descriptionToQuads request userId (.namedNode request.url) s with
    ⟨e, hrefused⟩ | ⟨hok, hmay⟩
  · exact Or.inl ⟨e, Async.run_bind_of_error hrefused _⟩
  rw [Async.run_bind_of_ok hok, Async.run_bind_of_ok (run_getStore s),
    Async.run_bind_of_ok (run_addNew _ _), Async.run_bind_of_ok (run_removeOld _ _)]
  exact Or.inr ⟨modifiable_of_checked hchecked, hmay, rfl⟩

theorem answered_handlePut (hmethod : request.method = "PUT") :
    Answered env n request userId s ((handlePut request userId).run s) := by
  rcases run_handlePut request userId s with ⟨e, hrefused⟩ | ⟨hmodifiable, hmay, hrun⟩
  · exact Or.inl ⟨e, hrefused⟩
  · exact Or.inr ⟨_, _, hrun, .updated hmethod hmodifiable hmay⟩

theorem answered_handleDelete (hmethod : request.method = "DELETE") :
    Answered env n request userId s ((handleDelete request userId).run s) := by
  unfold handleDelete
  rcases hid : requestId request with _ | id
  · exact Or.inl ⟨_, rfl⟩
  dsimp only
  rw [Async.run_bind_of_ok (run_getStore s)]
  rcases hchecked : checkModifiable (.namedNode request.url) userId s.policies with e | ⟨⟩
  · exact Or.inl ⟨e, Async.run_bind_of_error (Async.run_lift _ _) _⟩
  rw [Async.run_bind_of_ok (Async.run_lift _ _), Async.run_bind_of_ok (run_getStore s)]
  exact Or.inr ⟨_, _, rfl, .deleted hmethod (modifiable_of_checked hchecked)⟩

/-- Every request is refused, or accepted with one of the effects. -/
theorem answered_respond (env : CollectionEnvironment) (n : Nat) (request : HttpHandlerRequest)
    (userId : String) (s : ServerState) :
    Answered env n request userId s ((respond env n request userId).run s) := by
  unfold respond
  by_cases hget : request.method = "GET"
  · rw [if_pos hget]
    exact answered_handleGet
  rw [if_neg hget]
  by_cases hpost : request.method = "POST"
  · rw [if_pos hpost]
    exact answered_handlePost hpost
  rw [if_neg hpost]
  by_cases hput : request.method = "PUT"
  · rw [if_pos hput]
    exact answered_handlePut hput
  rw [if_neg hput]
  by_cases hdelete : request.method = "DELETE"
  · rw [if_pos hdelete]
    exact answered_handleDelete hdelete
  · rw [if_neg hdelete]
    exact Or.inl ⟨_, rfl⟩

end Handlers

/-! ## Replacing a collection -/

/-- The collection's own description and its members. -/
def Own (subject : Term) (q : Quad) : Prop :=
  (q.subject = subject ∧ q.predicate ≠ ODRL.partOf) ∨
    (q.predicate = ODRL.partOf ∧ q.object = subject)

instance (subject : Term) (q : Quad) : Decidable (Own subject q) :=
  inferInstanceAs (Decidable (_ ∨ _))

/-- The collection has the given quads for its own, and all others are as they
were. -/
structure Replaces (subject : Term) (quads : List Quad) (before after : Store) : Prop where
  own : ∀ q, Own subject q → (q ∈ after ↔ q ∈ quads)
  others : ∀ q, ¬ Own subject q → (q ∈ after ↔ q ∈ before)

theorem own_of_toQuads {userId : String} {subject : Term} {description : CollectionDescription}
    {q : Quad} (h : q ∈ description.toQuads userId subject) : Own subject q := by
  rcases CollectionDescription.mem_toQuads.mp h with
    rfl | htext | ⟨owner, -, rfl⟩ | ⟨part, -, rfl⟩
  · exact Or.inl ⟨rfl, (by decide : RDF.type ≠ ODRL.partOf)⟩
  · obtain ⟨x, rfl⟩ := CollectionDescription.mem_textQuads htext
    exact Or.inl ⟨rfl, (by decide : DC.description ≠ ODRL.partOf)⟩
  · exact Or.inl ⟨rfl, (by decide : DC.creator ≠ ODRL.partOf)⟩
  · exact Or.inr ⟨rfl, rfl⟩

/-- What is about the collection and not its own are its memberships in other
collections. -/
theorem about_iff {subject : Term} {q : Quad} :
    About subject q ↔ Own subject q ∨
      (q.subject = subject ∧ q.predicate = ODRL.partOf ∧ q.object ≠ subject) := by
  unfold About Own
  by_cases hsubject : q.subject = subject
  · by_cases hpartOf : q.predicate = ODRL.partOf
    · by_cases hobject : q.object = subject <;> simp [hsubject, hpartOf, hobject]
    · simp [hsubject, hpartOf]
  · simp [hsubject]

theorem replaces_replaceCollection_iff {userId : String} {subject : Term}
    {description : CollectionDescription} {policies : Store} :
    Replaces subject (description.toQuads userId subject) policies
        (replaceCollection subject (description.toQuads userId subject) policies) ↔
      ∀ x, policies.Linked subject ODRL.partOf x → x = subject := by
  have hmem : ∀ q, q ∈ replaceCollection subject (description.toQuads userId subject) policies ↔
      q ∈ description.toQuads userId subject ∨ (q ∈ policies ∧ ¬ About subject q) :=
    fun q => mem_replaceCollection (fun r hr => about_toQuads hr)
  constructor
  · intro hreplaces x hlinked
    by_contra hother
    obtain ⟨q, hq, hsubject, hpartOf, rfl⟩ := hlinked
    have hnotOwn : ¬ Own subject q := by
      rintro (⟨-, hne⟩ | ⟨-, hobject⟩)
      · exact hne hpartOf
      · exact hother hobject
    rcases (hmem q).mp ((hreplaces.others q hnotOwn).mpr hq) with hnew | ⟨-, hnotAbout⟩
    · exact hnotOwn (own_of_toQuads hnew)
    · exact hnotAbout (Or.inl hsubject)
  · intro hnested
    refine ⟨fun q hown => ?_, fun q hnotOwn => ?_⟩
    · rw [hmem]
      exact or_iff_left (fun h => h.2 (about_iff.mpr (Or.inl hown)))
    · rw [hmem]
      constructor
      · rintro (hnew | ⟨hold, -⟩)
        · exact absurd (own_of_toQuads hnew) hnotOwn
        · exact hold
      · intro hold
        refine Or.inr ⟨hold, fun habout => ?_⟩
        rcases about_iff.mp habout with hown | ⟨hsubject, hpartOf, hother⟩
        · exact hnotOwn hown
        · exact hother (hnested _ ⟨q, hold, hsubject, hpartOf, rfl⟩)

/-- A party collection of one user. -/
def samplePut : HttpHandlerRequest where
  url := "http://example.org/collections/friends"
  method := "PUT"
  parameters := [("id", "friends")]
  body := .object [("type", .string "party"),
    ("owners", .array [.string "http://example.org/alice"]),
    ("parts", .array [.string "http://example.org/bob"])]

/-- A store with the collection, and other quads. -/
def sampleStore (others : List Quad) : ServerState :=
  { ServerState.empty with
    policies := Store.ofQuads (quad (.namedNode samplePut.url) DC.creator
      (.namedNode "http://example.org/alice") :: others) }

end CollectionRequestHandler

end UserManagedAccess.Routes
