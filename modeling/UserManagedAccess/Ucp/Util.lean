/-
UserManagedAccess.Ucp.Util — the search for what belongs to a rule.

`extractQuadsRecursive` follows the objects of quads, and hands down the ids of the
nodes it has come through. Each of them is one less that can still be searched, which
is why it ends on a store with circles. It asks for quads by the plain id of a node,
so a node whose id is empty has every quad of the store.
-/
import UserManagedAccess.Rdf.Links

namespace UserManagedAccess.Ucp

open UserManagedAccess.Rdf

/-- The objects the search has not come through. -/
def unsearched (store : Store) (existing : List String) : List String :=
  (store.quads.map fun q => q.object.id).filter (· ∉ existing)

theorem unsearched_lt {store : Store} {existing : List String} {node : String}
    (hnode : node ∈ store.quads.map fun q => q.object.id) (hnew : node ∉ existing) :
    (unsearched store (existing ++ [node])).length < (unsearched store existing).length := by
  have hsub : unsearched store (existing ++ [node]) =
      (unsearched store existing).filter (· ≠ node) := by
    simp [unsearched, List.filter_filter, Bool.and_comm]
  rw [hsub]
  exact List.length_filter_lt_length_iff_exists.mpr
    ⟨node, List.mem_filter.mpr ⟨hnode, by simpa using hnew⟩, by simp⟩

def extractQuadsRecursive (store : Store) (subjectIRI : String) (existing : List String) : Store :=
  let subjectIRIQuads := store.getQuadsOf subjectIRI
  let existingSubjects := existing ++ [subjectIRI]
  subjectIRIQuads.attach.foldl (fun tempStore q =>
      if q.1.object.id ∈ existingSubjects then tempStore.addQuad q.1
      else tempStore.addAll (extractQuadsRecursive store q.1.object.id existingSubjects))
    (Store.ofQuads subjectIRIQuads)
termination_by (unsearched store (existing ++ [subjectIRI])).length
decreasing_by
  rename_i hnew
  exact unsearched_lt
    (List.mem_map_of_mem (f := fun q => q.object.id) (Store.mem_getQuadsOf.mp q.2).1) hnew

end UserManagedAccess.Ucp
