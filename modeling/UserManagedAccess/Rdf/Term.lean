/-
UserManagedAccess.Rdf.Term — RDF terms and quads, as the RDF/JS data model
has them.

A term is an IRI, a blank node, a literal, or the default graph. `Term.value`
is the `value` attribute every RDF/JS term carries; two terms with the same
`value` need not be equal (`"a"` and `<a>`), which is why code comparing
values and code comparing terms behave differently.

Nothing here depends on the authorization server.
-/
import Mathlib.Data.List.Basic

namespace UserManagedAccess.Rdf

/-- An RDF/JS term. `defaultGraph` only ever stands in the graph position. -/
inductive Term where
  | namedNode (value : String)
  | blankNode (value : String)
  | literal (value : String) (language : String) (datatype : String)
  | defaultGraph
  deriving DecidableEq, Repr

instance : Inhabited Term := ⟨.defaultGraph⟩

/-- The `value` attribute of a term. -/
def Term.value : Term → String
  | .namedNode value => value
  | .blankNode value => value
  | .literal value _ _ => value
  | .defaultGraph => ""

/-- The `id` of a term, which a store keeps it by. Only that of the default graph
and of the relative IRI `<>` is empty. -/
protected def Term.id : Term → String
  | .namedNode value => value
  | .blankNode value => "_:" ++ value
  | .literal value language datatype =>
    if language ≠ "" then "\"" ++ value ++ "\"@" ++ language
    else if datatype = "http://www.w3.org/2001/XMLSchema#string" then "\"" ++ value ++ "\""
    else "\"" ++ value ++ "\"^^" ++ datatype
  | .defaultGraph => ""

/-- A pattern given as a plain string: the id of a term, and anything at all where
it is empty. -/
def Term.named (t : Term) (id : String) : Bool := id == "" || t.id == id

theorem Term.named_iff {t : Term} {id : String} : t.named id = true ↔ id = "" ∨ t.id = id := by
  simp [Term.named]

theorem Term.named_of_ne {t : Term} {id : String} (h : id ≠ "") :
    t.named id = true ↔ t.id = id := by simp [Term.named, h]

@[simp] theorem Term.id_namedNode (s : String) : (Term.namedNode s).id = s := rfl

def Term.isBlankNode : Term → Bool
  | .blankNode _ => true
  | _ => false

@[simp] theorem Term.value_namedNode (s : String) :
    (Term.namedNode s).value = s := rfl

/-- A quad: a triple in a graph. -/
structure Quad where
  subject : Term
  predicate : Term
  object : Term
  graph : Term
  deriving DecidableEq, Repr

/-- A quad without blank nodes. -/
def Quad.isGround (q : Quad) : Bool :=
  !([q.subject, q.predicate, q.object, q.graph].any Term.isBlankNode)

/-- `DataFactory.quad` with three arguments: a triple of the default graph. -/
def quad (subject predicate object : Term) : Quad :=
  { subject, predicate, object, graph := .defaultGraph }

@[simp] theorem quad_subject (s p o : Term) : (quad s p o).subject = s := rfl
@[simp] theorem quad_predicate (s p o : Term) : (quad s p o).predicate = p := rfl
@[simp] theorem quad_object (s p o : Term) : (quad s p o).object = o := rfl
@[simp] theorem quad_graph (s p o : Term) : (quad s p o).graph = .defaultGraph := rfl

theorem quad_inj {s p o s' p' o' : Term} :
    quad s p o = quad s' p' o' ↔ s = s' ∧ p = p' ∧ o = o' := by
  simp [quad]

end UserManagedAccess.Rdf
