/-
UserManagedAccess.Css.Duties — what the calls of the client have to do.

A call that has put a signal into `inProgress` holds it: it has to take it out
again, or to hand it over to a call that it waits for. A call may also owe a
resource one more registration. `Obeys` says that a body does what its duties
are and sends registrations only where they allow it.

The outcomes of operations are arbitrary, or successful for every call that
may hold a signal. `withIds` leaves out, besides, what the code makes an
exception of: a registration that is answered with an empty `_id`. That is no
failure, as `_id` is a string, but the id that is stored is read as none.
-/
import UserManagedAccess.Css.UmaClient

namespace UserManagedAccess.Css.UmaClient

open UserManagedAccess.Lib UserManagedAccess.Util UserManagedAccess.Views

/-! ## Outcomes -/

/-- What is taken for granted of a run. -/
structure Outcomes (setting : ClientSetting) where
  /-- No operation of a call that may hold a signal fails. -/
  reliable : Prop
  /-- Every id a server hands out is valid for the resource, so not empty. -/
  identified : Prop
  valid : String → String → Prop
  /-- The issuers a resource may be registered with. -/
  registers : String → String → Prop
  reliable_of_identified : identified → reliable
  ne_of_valid : ∀ path id, valid path id → id ≠ ""
  parent : ∀ path issuer, registers path issuer → setting.isRootContainer path = false →
    registers (setting.getParentContainer path) issuer

namespace Outcomes

variable {setting : ClientSetting}

/-- Every operation can fail. -/
def any : Outcomes setting where
  reliable := False
  identified := False
  valid _ id := id ≠ ""
  registers _ _ := True
  reliable_of_identified := False.elim
  ne_of_valid _ _ h := h
  parent _ _ _ _ := trivial

/-- No operation of a call that may hold a signal fails. -/
def successful : Outcomes setting where
  reliable := True
  identified := False
  valid _ id := id ≠ ""
  registers _ _ := True
  reliable_of_identified := False.elim
  ne_of_valid _ _ h := h
  parent _ _ _ _ := trivial

/-- The same, and no registration is answered with an empty id: that answer is a
success, which stores an id that the next call takes for none. -/
def withIds : Outcomes setting where
  reliable := True
  identified := True
  valid _ id := id ≠ ""
  registers _ _ := True
  reliable_of_identified _ := trivial
  ne_of_valid _ _ h := h
  parent _ _ _ _ := trivial

end Outcomes

/-- The operation has succeeded. -/
def Succeeds {setting : ClientSetting} (o : Outcomes setting) : (op : Op) → OpReply op → Prop
  | .fetch (.config _), reply => ∃ res configuration, reply = .ok res ∧ res.status < 400 ∧
      res.body = some configuration ∧
      ∀ value ∈ REQUIRED_METADATA, (configuration.field value).asString?.isSome
  | .fetch (.token ..), reply => ∃ res body, reply = .ok res ∧ res.status = 201 ∧
      res.body = some body ∧ isNullish body = false
  | .fetch (.resource request), reply => ∃ res, reply = .ok res ∧
      if request.update then res.status = 200
      else res.status = 201 ∧ ∃ body umaId, res.body = some body ∧ isNullish body = false ∧
        (body.field "_id").asString? = some umaId ∧ (o.identified → o.valid request.path umaId)
  | .fetch _, reply => ∃ res, reply = .ok res
  | .json _, reply => reply = .ok ()
  | .text _, reply => ∃ message, reply = .ok message
  | .getId _, reply => ∃ id, reply = .ok id
  | .setId .., reply => reply = .ok ()
  | .hasResource _, reply => ∃ found, reply = .ok found
  | .tick, _ => True

/-- The call is, or is part of, a `getPat` or `registerResource` call. -/
def Call.marks : Call → Bool
  | .getPat .. => true
  | .registerResource .. => true
  | .registerAfterParent .. => true
  | .sendRegistration _ => true
  | .fetchTicket .. => false
  | .deleteResource .. => false

/-- Nothing can fail in the call. -/
def Trusted {setting : ClientSetting} (o : Outcomes setting) (marks : Bool) : Prop :=
  o.reliable ∧ marks = true

/-! ## Duties -/

/-- How far the registration of a resource has come. -/
inductive Phase where
  | entered
  | known
  | absent
  /-- The id is requested, and not stored yet. -/
  | posting
  deriving DecidableEq

structure Hold where
  signal : Signal
  phase : Phase := .entered
  /-- Another call will register the resource again. -/
  backed : Bool := false
  /-- The call has put the signal there itself. -/
  own : Bool := true

structure Duties where
  hold : Option Hold := none
  /-- The started calls it has to wait for. -/
  owes : List Nat := []
  /-- A resource it has to register, or have registered. -/
  debt : Option String := none
  /-- The ids it has read. -/
  links : List (String × String) := []

namespace Duties

structure Blank (d : Duties) : Prop where
  hold : d.hold = none
  owes : d.owes = []
  debt : d.debt = none

theorem blank_empty : Blank {} := ⟨rfl, rfl, rfl⟩

/-! ### Actions -/

def Allowed (d : Duties) : Action → Prop
  | .enter _ => d.hold = none
  | .leave signal => ∃ h, d.hold = some h ∧ h.signal = signal ∧ h.phase ≠ .posting
  | _ => True

def acted (d : Duties) : (action : Action) → ActionReply action → Duties
  | .enter signal, false => { d with hold := some { signal } }
  | .leave _, _ => { d with hold := none }
  | _, _ => d

/-! ### Operations -/

/-- The relation a request names is right, or will be put right. -/
def Related (setting : ClientSetting) (d : Duties) (h : Hold) (request : ResourceRequest) : Prop :=
  match request.description.resourceRelations with
  | none => setting.isRootContainer request.path = true ∨ h.backed = true
  | some relations => setting.isRootContainer request.path = false ∧ ∃ id,
      relations = containedIn id ∧ (setting.getParentContainer request.path, id) ∈ d.links

structure MayRegister {setting : ClientSetting} (o : Outcomes setting) (d : Duties) (h : Hold)
    (request : ResourceRequest) : Prop where
  hold : d.hold = some h
  signal : h.signal = .resource request.path
  phase : h.phase = if request.update then .known else .absent
  related : Related setting d h request
  issuer : o.registers request.path request.issuer
  known : ∀ id, request.knownUmaId = some id → (request.path, id) ∈ d.links
  description : request.description = describe request.path request.description.resourceRelations

def Ready {setting : ClientSetting} (o : Outcomes setting) (marks : Bool) (d : Duties) : Op → Prop
  | .fetch (.resource request) => ∃ h, MayRegister o d h request
  | .setId path id => marks = true ∧ ∃ h, d.hold = some h ∧ h.signal = .resource path ∧
      h.phase = .posting ∧ (o.identified → o.valid path id)
  | _ => True

/-- Once the operation is asked for. -/
def sent (d : Duties) : Op → Duties
  | .fetch (.resource request) =>
    { d with
      hold := if request.update then d.hold else d.hold.map fun h => { h with phase := .posting }
      debt := if d.debt = some request.path then none else d.debt }
  | _ => d

/-- The id of a path was read. -/
def learned (d : Duties) (path : String) (id : Option String) : Duties :=
  { d with
    hold := d.hold.map fun h =>
      if h.signal = .resource path ∧ h.phase = .entered then
        { h with phase := if (truthy id).isSome then .known else .absent }
      else h
    links := (truthy id).toList.map (fun id => (path, id)) ++ d.links }

/-- A request leaves the call with what it holds. -/
theorem hold_of_sent {d : Duties} {op : Op} {h : Hold} (hh : (d.sent op).hold = some h) :
    ∃ h', d.hold = some h' ∧ h.signal = h'.signal ∧ h.own = h'.own ∧ h.backed = h'.backed := by
  unfold sent at hh
  split at hh
  · dsimp only at hh
    split at hh
    · exact ⟨h, hh, rfl, rfl, rfl⟩
    · obtain ⟨h', hh', rfl⟩ := Option.map_eq_some_iff.mp hh
      exact ⟨h', hh', rfl, rfl, rfl⟩
  · exact ⟨h, hh, rfl, rfl, rfl⟩

theorem hold_of_learned {d : Duties} {path : String} {id : Option String} {h : Hold}
    (hh : (d.learned path id).hold = some h) :
    ∃ h', d.hold = some h' ∧ h.signal = h'.signal ∧ h.own = h'.own ∧ h.backed = h'.backed := by
  obtain ⟨h', hh', heq⟩ := Option.map_eq_some_iff.mp hh
  refine ⟨h', hh', ?_⟩
  split at heq <;> subst heq <;> exact ⟨rfl, rfl, rfl⟩

/-- Once the operation is answered. -/
def answered (d : Duties) : (op : Op) → OpReply op → Duties
  | .getId path, .ok id => d.learned path id
  | .setId .., .ok () => { d with hold := d.hold.map fun h => { h with phase := .known } }
  | _, _ => d

/-! ### Calls -/

/-- The duties a call can start with. -/
inductive Declared {setting : ClientSetting} (o : Outcomes setting) : Call → Duties → Prop
  | getPat {issuer credentials} : Declared o (.getPat issuer credentials) {}
  | fetchTicket {permissions issuer credentials}
      (hregisters : ∀ entry ∈ permissions, o.registers entry.1 issuer) :
      Declared o (.fetchTicket permissions issuer credentials) {}
  | deleteResource {path issuer credentials} :
      Declared o (.deleteResource path issuer credentials) {}
  | registerResource {path issuer credentials} {debt : Option String}
      (hregisters : o.registers path issuer) (hdebt : debt = none ∨ debt = some path) :
      Declared o (.registerResource path issuer credentials) { debt }
  | registerAfterParent {parent path issuer credentials} (hregisters : o.registers path issuer) :
      Declared o (.registerAfterParent parent path issuer credentials) { debt := some path }
  | sendRegistration {request h d} (hmay : MayRegister o d h request) (howes : d.owes = [])
      (hdebt : d.debt = none ∨ d.debt = some request.path) :
      Declared o (.sendRegistration request) d

/-- The duties of a new call, and what is left of those of the one that starts
it. -/
inductive Splits {setting : ClientSetting} (o : Outcomes setting) (d : Duties) :
    Call → Duties → (Nat → Duties) → Prop
  | free {call} (hdeclared : Declared o call {}) (hmarks : call.marks = true) :
      Splits o d call {} fun id => { d with owes := id :: d.owes }
  | pass {path issuer credentials} (hregisters : o.registers path issuer)
      (hdebt : d.debt = some path) :
      Splits o d (.registerResource path issuer credentials) { debt := some path }
        fun id => { d with debt := none, owes := id :: d.owes }
  | follow {h parent path issuer credentials} (hregisters : o.registers path issuer)
      (hhold : d.hold = some h) (hpath : h.signal = .resource path) :
      Splits o d (.registerAfterParent parent path issuer credentials) { debt := some path }
        fun id => { d with hold := some { h with backed := true }, owes := id :: d.owes }
  | send {h request} (hmay : MayRegister o d h request) (hown : h.own = true)
      (hdebt : d.debt = none ∨ d.debt = some request.path) :
      Splits o d (.sendRegistration request)
        { hold := some { h with own := false }, debt := d.debt, links := d.links }
        fun id => { d with hold := none, debt := none, owes := id :: d.owes }

variable {setting : ClientSetting} {o : Outcomes setting} {d child : Duties} {call : Call}
  {rest : Nat → Duties}

/-- The rest of the duties may differ from those the call has. -/
theorem MayRegister.pass {h : Hold} {request : ResourceRequest}
    (hmay : MayRegister o d h request) (own : Bool)
    (hhold : child.hold = some { h with own }) (hlinks : child.links = d.links) :
    MayRegister o child { h with own } request where
  hold := hhold
  signal := hmay.signal
  phase := hmay.phase
  related := by
    have hrelated := hmay.related
    unfold Related at hrelated ⊢
    rw [hlinks]
    exact hrelated
  issuer := hmay.issuer
  known := hlinks ▸ hmay.known
  description := hmay.description

theorem Splits.declared (h : Splits o d call child rest) : Declared o call child := by
  cases h with
  | free hdeclared hmarks => exact hdeclared
  | pass hregisters hdebt => exact .registerResource hregisters (.inr rfl)
  | follow hregisters hhold hpath => exact .registerAfterParent hregisters
  | send hmay hown hdebt => exact .sendRegistration (hmay.pass false rfl rfl) rfl hdebt

theorem Splits.marks (h : Splits o d call child rest) : call.marks = true := by
  cases h with
  | free hdeclared hmarks => exact hmarks
  | pass | follow | send => rfl

theorem Splits.owes_rest (h : Splits o d call child rest) (id : Nat) :
    (rest id).owes = id :: d.owes := by cases h <;> rfl

theorem Splits.owes_child (h : Splits o d call child rest) : child.owes = [] := by
  cases h <;> rfl

end Duties

open Duties

/-! ## Obeying -/

/-- The body does what its duties are. -/
inductive Obeys {setting : ClientSetting} (o : Outcomes setting) (marks : Bool) :
    Duties → Method (Option String) → Prop
  | returns {d value} (hblank : Blank d) : Obeys o marks d (.done (.ok value))
  | throws {d e} (hfails : ¬ Trusted o marks) (hblank : o.reliable → Blank d) :
      Obeys o marks d (.done (.error e))
  | act {d action next} (hallowed : Allowed d action)
      (hnext : ∀ reply, Obeys o marks (d.acted action reply) (next reply)) :
      Obeys o marks d (.act action next)
  | emit {d signal next} (hnext : Obeys o marks d next) :
      Obeys o marks d (.emit signal next)
  | start {d call child rest next} (hsplits : Splits o d call child rest)
      (hnext : ∀ id, Obeys o marks (rest id) (next id)) :
      Obeys o marks d (.start call next)
  | perform {d op next} (hready : Ready o marks d op)
      (hnext : ∀ reply, (Trusted o marks → Succeeds o op reply) →
        Obeys o marks ((d.sent op).answered op reply) (next reply)) :
      Obeys o marks d (.perform op next)
  | once {d signal timeout next} (hnext : Obeys o marks d (next (.ok ())))
      (htimeout : ∀ e, timeout = some e → Obeys o marks d (next (.error e))) :
      Obeys o marks d (.once signal timeout next)
  | all {d calls next} (hcalls : ∀ i, i ∈ calls ↔ i ∈ d.owes)
      (hok : ∀ values, Obeys o marks { d with owes := [] } (next (.ok values)))
      (herror : ¬ o.reliable → ∀ e, Obeys o marks { d with owes := [] } (next (.error e))) :
      Obeys o marks d (.all calls next)

end UserManagedAccess.Css.UmaClient
