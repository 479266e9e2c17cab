/-
UserManagedAccess.Ucp.UtilTheorems — what `extractQuadsRecursive` finds.

* `mem_extractQuadsRecursive` — one search, with the nodes it has come through;
* `mem_extracted_iff` — the whole search finds the quads about the nodes that can be
  reached, and all quads once a node without an id can be;
* `extracted_iff_reachable` — so it is reachability, on stores with circles and shared
  nodes too, unless such a node is reached from where not everything is.

A node is its id, as it is for the store.
-/
import UserManagedAccess.Lib.Walks
import UserManagedAccess.Ucp.Util

namespace UserManagedAccess.Ucp

open UserManagedAccess.Lib UserManagedAccess.Rdf

/-- Some quad leads from one node to the other. -/
def Follows (store : Store) (a b : String) : Prop :=
  ∃ q ∈ store, q.subject.id = a ∧ q.object.id = b

/-- The nodes that can be reached, the start included. -/
def Reaches (store : Store) : String → String → Prop := Relation.ReflTransGen (Follows store)

/-- Where the search goes on: as the edges lead, and anywhere from an empty id. -/
def Leads (store : Store) (a b : String) : Prop :=
  ∃ q ∈ store, q.subject.named a = true ∧ q.object.id = b

theorem Follows.leads {store : Store} {a b : String} (h : Follows store a b) : Leads store a b := by
  obtain ⟨q, hq, hsubject, hobject⟩ := h
  exact ⟨q, hq, Term.named_iff.mpr (.inr hsubject), hobject⟩

theorem Leads.follows {store : Store} {a b : String} (h : Leads store a b) (ha : a ≠ "") :
    Follows store a b := by
  obtain ⟨q, hq, hsubject, hobject⟩ := h
  exact ⟨q, hq, (Term.named_of_ne ha).mp hsubject, hobject⟩

/-- A store that each round adds something to. -/
theorem mem_foldl_of_round {α : Type} {round : Store → α → Store} {found : α → Prop} {q : Quad}
    (hround : ∀ store a, q ∈ round store a ↔ q ∈ store ∨ found a) {l : List α} {store : Store} :
    q ∈ l.foldl round store ↔ q ∈ store ∨ ∃ a ∈ l, found a := by
  induction l generalizing store with
  | nil => simp
  | cons a l ih =>
    rw [List.foldl_cons, ih, hround, or_assoc]
    simp

/-- A quad is found among those of the subject, or from the object of one of
them. An edge that is cut has its quad among those of the subject. -/
theorem mem_extract_iff {store : Store} {subject : String} {existing : List String} {q : Quad} :
    q ∈ extractQuadsRecursive store subject existing ↔
      (q ∈ store ∧ q.subject.named subject = true) ∨
        ∃ node, Leads store subject node ∧ node ∉ existing ++ [subject] ∧
          q ∈ extractQuadsRecursive store node (existing ++ [subject]) := by
  rw [extractQuadsRecursive]
  have hround : ∀ (tempStore : Store) (found : { q // q ∈ store.getQuadsOf subject }),
      (q ∈ if found.1.object.id ∈ existing ++ [subject] then tempStore.addQuad found.1
        else tempStore.addAll
          (extractQuadsRecursive store found.1.object.id (existing ++ [subject]))) ↔
      q ∈ tempStore ∨ if found.1.object.id ∈ existing ++ [subject] then q = found.1
        else q ∈ extractQuadsRecursive store found.1.object.id (existing ++ [subject]) := by
    intro tempStore found
    split
    · exact Store.mem_addQuad
    · exact Store.mem_addAll
  rw [mem_foldl_of_round hround, Store.mem_ofQuads, Store.mem_getQuadsOf]
  constructor
  · rintro (hq | ⟨⟨found, hfound⟩, -, hq⟩)
    · exact Or.inl hq
    · have hedge := Store.mem_getQuadsOf.mp hfound
      split at hq
      · exact Or.inl (hq ▸ hedge)
      · rename_i hnew
        exact Or.inr ⟨found.object.id, ⟨found, hedge.1, hedge.2, rfl⟩, hnew, hq⟩
  · rintro (hq | ⟨node, ⟨found, hmem, hsubject, rfl⟩, hnew, hq⟩)
    · exact Or.inl hq
    · refine Or.inr ⟨⟨found, Store.mem_getQuadsOf.mpr ⟨hmem, hsubject⟩⟩, List.mem_attach _ _, ?_⟩
      rw [if_neg hnew]
      exact hq

/-- The induction is on the search itself, which ends as fewer objects are left
to come through. -/
theorem mem_extractQuadsRecursive {store : Store} {subject : String} {existing : List String}
    {q : Quad} :
    q ∈ extractQuadsRecursive store subject existing ↔
      q ∈ store ∧ ∃ node, ReachesNew (Leads store) existing subject node ∧
        q.subject.named node = true := by
  induction hn : (unsearched store (existing ++ [subject])).length using Nat.strong_induction_on
    generalizing subject existing with
  | h n ih =>
    have hrest : ∀ next, Leads store subject next → next ∉ existing ++ [subject] →
        (q ∈ extractQuadsRecursive store next (existing ++ [subject]) ↔
          q ∈ store ∧ ∃ node, ReachesNew (Leads store) (existing ++ [subject]) next node ∧
            q.subject.named node = true) := by
      rintro next ⟨found, hfound, -, rfl⟩ hnew
      have hobject : found.object.id ∈ store.quads.map fun q => q.object.id :=
        List.mem_map.mpr ⟨found, hfound, rfl⟩
      exact ih _ (hn ▸ unsearched_lt hobject hnew) rfl
    rw [mem_extract_iff]
    constructor
    · rintro (⟨hq, hsubject⟩ | ⟨next, hedge, hnew, hq⟩)
      · exact ⟨hq, subject, .refl _ _, hsubject⟩
      · obtain ⟨hmem, node, hreach, hnamed⟩ := (hrest next hedge hnew).mp hq
        exact ⟨hmem, node, .step hedge hnew hreach, hnamed⟩
    · rintro ⟨hq, node, hreach, hnamed⟩
      rcases reachesNew_iff.mp hreach with rfl | ⟨next, hedge, hnew, hreach⟩
      · exact Or.inl ⟨hq, hnamed⟩
      · exact Or.inr ⟨next, hedge, hnew, (hrest next hedge hnew).mpr ⟨hq, node, hreach, hnamed⟩⟩

/-- The search only leaves the edges of the store where it has reached an empty
id. -/
theorem reaches_of_leads {store : Store} {subject node : String}
    (h : Relation.ReflTransGen (Leads store) subject node) :
    Reaches store subject "" ∨ Reaches store subject node := by
  induction h with
  | refl => exact Or.inr .refl
  | @tail a b _ hedge ih =>
    rcases ih with hempty | hreach
    · exact Or.inl hempty
    · by_cases ha : a = ""
      · exact Or.inl (ha ▸ hreach)
      · exact Or.inr (hreach.tail (hedge.follows ha))

theorem mem_extracted_iff {store : Store} {subject : String} {q : Quad} :
    q ∈ extractQuadsRecursive store subject [] ↔
      q ∈ store ∧ (Reaches store subject "" ∨ Reaches store subject q.subject.id) := by
  simp only [mem_extractQuadsRecursive, reachesNew_nil_iff]
  have hleads : ∀ node, Reaches store subject node →
      Relation.ReflTransGen (Leads store) subject node :=
    fun _ hreach => hreach.lift id fun _ _ => Follows.leads
  constructor
  · rintro ⟨hq, node, hreach, hnamed⟩
    refine ⟨hq, ?_⟩
    rcases Term.named_iff.mp hnamed with rfl | rfl
    · exact Or.inl ((reaches_of_leads hreach).elim id id)
    · exact reaches_of_leads hreach
  · rintro ⟨hq, hempty | hreach⟩
    · exact ⟨hq, "", hleads _ hempty, rfl⟩
    · exact ⟨hq, q.subject.id, hleads _ hreach, Term.named_iff.mpr (.inr rfl)⟩

/-- The search is reachability where no empty id is reached, or everything is. -/
theorem extracted_iff_reachable (store : Store) (subject : String) :
    (∀ q, q ∈ extractQuadsRecursive store subject [] ↔
      q ∈ store ∧ Reaches store subject q.subject.id) ↔
    (Reaches store subject "" → ∀ q ∈ store, Reaches store subject q.subject.id) := by
  simp only [mem_extracted_iff]
  constructor
  · intro hexact hempty q hq
    exact ((hexact q).mp ⟨hq, Or.inl hempty⟩).2
  · intro hall q
    refine and_congr_right fun hq => ⟨fun hreach => ?_, Or.inr⟩
    exact hreach.elim (fun hempty => hall hempty q hq) id

/-- A rule about `<>`, next to another one. -/
def relativeTarget : Store := Store.ofQuads
  [quad (.namedNode "urn:rule") (.namedNode "http://www.w3.org/ns/odrl/2/target") (.namedNode ""),
    quad (.namedNode "urn:other") (.namedNode "http://www.w3.org/ns/odrl/2/action")
      (.namedNode "http://www.w3.org/ns/odrl/2/read")]

theorem relativeTarget_not_reached : ¬ Reaches relativeTarget "urn:rule" "urn:other" := by
  intro hreach
  rcases Relation.ReflTransGen.cases_tail hreach with heq | ⟨node, -, q, hq, -, hobject⟩
  · exact absurd heq (by decide)
  · rcases List.mem_cons.mp (Store.mem_ofQuads.mp hq) with rfl | hq
    · exact absurd hobject (by decide)
    · rw [List.mem_singleton.mp hq] at hobject
      exact absurd hobject (by decide)

/-- **Another rule is extracted**, which cannot be reached. -/
theorem extracted_unreachable : ¬ ∀ q,
    q ∈ extractQuadsRecursive relativeTarget "urn:rule" [] ↔
      q ∈ relativeTarget ∧ Reaches relativeTarget "urn:rule" q.subject.id := by
  intro hexact
  have hempty : Reaches relativeTarget "urn:rule" "" :=
    .single ⟨_, Store.mem_ofQuads.mpr List.mem_cons_self, rfl, rfl⟩
  have hother := (hexact _).mp (mem_extracted_iff.mpr
    ⟨Store.mem_ofQuads.mpr (List.mem_cons_of_mem _ List.mem_cons_self), Or.inl hempty⟩)
  exact relativeTarget_not_reached hother.2

end UserManagedAccess.Ucp
