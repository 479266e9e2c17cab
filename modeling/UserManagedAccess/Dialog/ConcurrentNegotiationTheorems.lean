/-
UserManagedAccess.Dialog.ConcurrentNegotiationTheorems — when tickets are
single use.

`Moves` is everything a negotiation does to the ticket store: it deletes or
writes back the ticket it was given, both at the start of a step, and its last
act may be to store a ticket of its own. `moves_negotiate` walks through the
negotiation once; what follows is about `Moves` alone. `Dead` says that an id is
not in the store and that nobody will store it; accepting a ticket makes its id
dead (`dead_of_consumes`), and a safe step keeps it so (`dead_step`).

* `moves_negotiate` — what any negotiation does to the tickets;
* `dead_step` — a step of anybody brings no dead id back;
* `singleUse_of_safeTicketRun` — in a safe run every ticket is accepted once.

The tickets that are handed out are taken to be new and different
(`randomUUID`), and the strategies and token services to leave the ticket store
alone; they are arbitrary otherwise, and so is the schedule. The condition is
needed: two negotiations that have both found a ticket both accept it, and one
that has found it may write it back after it was accepted.
-/
import UserManagedAccess.Dialog.ConcurrentNegotiations
import UserManagedAccess.Dialog.PlainNegotiator
import UserManagedAccess.Lib.Rely
import UserManagedAccess.Policies.Authorizers.AuthorizerTree
import UserManagedAccess.Ticketing.Strategy.ImmediateAuthorizerStrategy

namespace UserManagedAccess.Dialog

open UserManagedAccess.Lib UserManagedAccess.Util UserManagedAccess.Views
open UserManagedAccess.Credentials UserManagedAccess.Ticketing UserManagedAccess.Tokens
open UserManagedAccess.Policies

variable {τ : Type}

/-! ## What a negotiation does to the ticket store -/

/-- The rest of a negotiation on the ticket `mine` that may hand out `uuid`.
The flag says that a step starts here. -/
inductive Moves (mine : Option String) (uuid : String) :
    Bool → Async (NegotiatorState τ) HttpError DialogOutput → Prop
  | done {starts} (r) : Moves mine uuid starts (.done r)
  | keeps {starts update next} (hupdate : ∀ s, (update s).ticketStore = s.ticketStore)
      (hnext : ∀ s, Moves mine uuid false (next s)) : Moves mine uuid starts (.act update next)
  | pause {starts next} (hnext : Moves mine uuid true next) :
      Moves mine uuid starts (.pause next)
  | takes {id next} (hid : mine = some id) (hnext : Moves mine uuid true next) :
      Moves mine uuid true (.act (NegotiatorState.deleteTicket id) fun _ => .pause next)
  | writesBack {id ticket next} (hid : mine = some id) (hnext : Moves mine uuid true next) :
      Moves mine uuid true (.act (NegotiatorState.setTicket id ticket) fun _ => .pause next)
  | denies {starts} (ticket e) :
      Moves mine uuid starts (.act (NegotiatorState.setTicket uuid ticket) fun _ =>
        .done (.error e))

/-- Every action leaves the ticket store alone. -/
abbrev KeepsTickets {α : Type} (p : Async (NegotiatorState τ) HttpError α) : Prop :=
  Async.Keeps NegotiatorState.ticketStore p

namespace Moves

variable {mine : Option String} {uuid : String} {starts : Bool}

theorem of_keeps {p : Async (NegotiatorState τ) HttpError DialogOutput} (hp : KeepsTickets p) :
    Moves mine uuid starts p := by
  induction p generalizing starts with
  | done r => exact .done r
  | act update next ih => exact .keeps (fun s => (hp s).1) fun s => ih s (hp s).2
  | pause next ih => exact .pause (ih hp)

theorem keeps_bind {α : Type} {p : Async (NegotiatorState τ) HttpError α}
    {f : α → Async (NegotiatorState τ) HttpError DialogOutput} (hp : KeepsTickets p)
    (hf : ∀ starts a, Moves mine uuid starts (f a)) : Moves mine uuid starts (p >>= f) := by
  show Moves mine uuid starts (Async.bind p f)
  induction p generalizing starts with
  | done r =>
    cases r with
    | ok a => exact hf starts a
    | error e => exact .done _
  | act update next ih => exact .keeps (fun s => (hp s).1) fun s => ih s (hp s).2
  | pause next ih => exact .pause (ih hp)

theorem bind {p : Async (NegotiatorState τ) HttpError DialogOutput}
    {f : DialogOutput → Async (NegotiatorState τ) HttpError DialogOutput}
    (hp : Moves mine uuid starts p) (hf : ∀ starts a, Moves mine uuid starts (f a)) :
    Moves mine uuid starts (p >>= f) := by
  show Moves mine uuid starts (Async.bind p f)
  induction hp with
  | done r =>
    cases r with
    | ok a => exact hf _ a
    | error e => exact .done _
  | keeps hupdate _ ih => exact .keeps hupdate ih
  | pause _ ih => exact .pause ih
  | takes hid _ ih => exact .takes hid ih
  | writesBack hid _ ih => exact .writesBack hid ih
  | denies ticket e => exact .denies ticket e

end Moves

theorem keepsTickets_onTokens {α : Type} (p : Async τ HttpError α) :
    KeepsTickets (BaseNegotiator.onTokens p) := by
  have hall : Async.Guarantees (fun _ _ => True) p := by
    induction p with
    | done r => trivial
    | act update next ih => exact fun s => ⟨trivial, ih s⟩
    | pause next ih => exact ih
  have hput : ∀ (s : NegotiatorState τ) t, True → (s.setTokens t).ticketStore = s.ticketStore :=
    fun _ _ _ => rfl
  exact .bind (.zoom hput hall) fun a => .bind .yield fun _ => .pure a

theorem keepsTickets_processCredentials (negotiator : BaseNegotiator τ)
    (claims : List ClaimToken) (ticket : Ticket) :
    KeepsTickets (negotiator.processCredentials claims ticket) := by
  induction claims generalizing ticket with
  | nil => exact .pure ticket
  | cons claim claims ih =>
    unfold BaseNegotiator.processCredentials
    split
    · exact .bind (keepsTickets_onTokens _) fun verified =>
        .bind (.lift _) fun ticket => .bind .yield fun _ => ih ticket
    · exact .throw _

theorem keepsTickets_grant (negotiator : BaseNegotiator τ) (ticket : Ticket)
    (granted : List Permission) : KeepsTickets (negotiator.grant ticket granted) := by
  refine .bind (keepsTickets_onTokens _) fun serialized => .bind ?_ fun _ => .pure _
  unfold BaseNegotiator.issueRefreshToken
  cases negotiator.refreshTokenIssuer with
  | none => exact .pure _
  | some issue => exact .bind (keepsTickets_onTokens _) fun refreshToken => .pure _

theorem moves_denyRequest {mine : Option String} {starts : Bool} (uuid : String)
    (ticket : Ticket) (requirements : List RequiredClaim) :
    Moves mine uuid starts (BaseNegotiator.denyRequest (τ := τ) uuid ticket requirements) := by
  unfold BaseNegotiator.denyRequest
  by_cases hnone : requirements.length = 0
  · rw [if_pos hnone]
    exact .done _
  · rw [if_neg hnone]
    exact .denies ticket _

theorem moves_getTicket {negotiator : BaseNegotiator τ} {input : DialogInput} {uuid : String}
    {f : Ticket → Async (NegotiatorState τ) HttpError DialogOutput}
    (hf : ∀ starts ticket, Moves input.ticket uuid starts (f ticket)) :
    Moves input.ticket uuid true (negotiator.getTicket input >>= f) := by
  unfold BaseNegotiator.getTicket
  cases hid : input.ticket with
  | some id =>
    refine .keeps (fun _ => rfl) fun s => .pause ?_
    cases s.ticketStore.get id with
    | none => exact .done _
    | some stored => exact .takes rfl (hid ▸ hf true stored)
  | none =>
    cases input.permissions with
    | none => exact .done _
    | some permissions =>
      refine .keeps_bind ?_ fun starts ticket => hid ▸ hf starts ticket
      exact .bind (.lift _) fun ticket => .bind .yield fun _ => .pure ticket

theorem moves_baseNegotiate (negotiator : BaseNegotiator τ) (uuid : String) (input : Json) :
    Moves (DialogInput.ofJson input).ticket uuid true (negotiator.negotiate uuid input) := by
  unfold BaseNegotiator.negotiate
  cases DialogInput.assertion input with
  | error message => exact .done _
  | ok u =>
    refine moves_getTicket fun starts ticket => ?_
    refine .keeps_bind (keepsTickets_processCredentials negotiator _ ticket) fun starts updated =>
      .keeps_bind (.lift _) fun starts result => .pause ?_
    cases result with
    | success granted => exact .of_keeps (keepsTickets_grant negotiator updated granted)
    | failure requirements => exact moves_denyRequest uuid _ requirements

theorem moves_negotiate (call : NegotiateCall τ) :
    Moves call.ticket call.randomUUID true call.negotiate := by
  unfold NegotiateCall.negotiate AggregatorNegotiator.negotiate
  by_cases hscope : (requestedScopes call.input).contains UmaScopes.derivationCreation = true
  · rw [if_pos hscope]
    unfold AggregatorNegotiator.negotiateDerivationCreation AggregatorNegotiator.getTicket
    cases hid : (DialogInput.ofJson call.input).ticket with
    | none => exact .done _
    | some id =>
      refine .keeps (fun _ => rfl) fun s => .pause ?_
      cases s.ticketStore.get id with
      | none => exact .done _
      | some ticket =>
        dsimp only [bind, pure, Async.bind]
        split
        · refine .writesBack hid (.bind (moves_baseNegotiate call.negotiator _ _) fun _ _ => ?_)
          exact .pause (.done _)
        · exact .done _
  · rw [if_neg hscope]
    exact moves_baseNegotiate call.negotiator _ _

/-! ## One step -/

/-- How a step on the ticket store `before` ends. -/
inductive Stepped (mine : Option String) (uuid : String)
    (p : Async (NegotiatorState τ) HttpError DialogOutput)
    (before after : KeyValueStorage String Ticket) :
    Async (NegotiatorState τ) HttpError DialogOutput → Prop
  | keeps {rest} (hstore : after = before) (hrest : Moves mine uuid true rest) :
      Stepped mine uuid p before after rest
  | deletes {rest} (id) (hid : mine = some id) (hp : Consumes p id)
      (hstore : after = before.delete id) (hrest : Moves mine uuid true rest) :
      Stepped mine uuid p before after rest
  | writesBack {rest} (id ticket) (hid : mine = some id) (hp : Writes p id)
      (hstore : after = before.set id ticket) (hrest : Moves mine uuid true rest) :
      Stepped mine uuid p before after rest
  | denies (ticket e) (hstore : after = before.set uuid ticket) :
      Stepped mine uuid p before after (.done (.error e))

theorem Stepped.rest {mine : Option String} {uuid : String}
    {p rest : Async (NegotiatorState τ) HttpError DialogOutput}
    {before after : KeyValueStorage String Ticket} (h : Stepped mine uuid p before after rest) :
    Moves mine uuid true rest := by
  cases h with
  | keeps _ hrest => exact hrest
  | deletes _ _ _ _ hrest => exact hrest
  | writesBack _ _ _ _ _ hrest => exact hrest
  | denies _ e _ => exact .done _

section

variable {mine : Option String} {uuid : String}
  {p : Async (NegotiatorState τ) HttpError DialogOutput}

/-- In the middle of a step the ticket store is left alone, or the request is
denied. -/
theorem Moves.resume_middle {q : Async (NegotiatorState τ) HttpError DialogOutput}
    (h : Moves mine uuid false p) (s : NegotiatorState τ) :
    Stepped mine uuid q s.ticketStore (p.resume s).2.ticketStore (p.resume s).1 := by
  induction p generalizing s with
  | done r => exact .keeps rfl (.done r)
  | act update next ih =>
    cases h with
    | keeps hupdate hnext =>
      have hstep := ih s (hnext s) (update s)
      rw [hupdate s] at hstep
      exact hstep
    | denies ticket e => exact .denies ticket e rfl
  | pause next _ =>
    cases h with
    | pause hnext => exact .keeps rfl hnext

theorem Moves.resume (h : Moves mine uuid true p) (s : NegotiatorState τ) :
    Stepped mine uuid p s.ticketStore (p.resume s).2.ticketStore (p.resume s).1 := by
  cases h with
  | done r => exact .keeps rfl (.done r)
  | @keeps _ update next hupdate hnext =>
    have hstep := (hnext s).resume_middle (q := .act update next) (update s)
    rw [hupdate s] at hstep
    exact hstep
  | pause hnext => exact .keeps rfl hnext
  | @takes id next hid hnext => exact .deletes id hid ⟨fun _ => .pause next, rfl⟩ rfl hnext
  | @writesBack id ticket next hid hnext =>
    exact .writesBack id ticket hid ⟨ticket, fun _ => .pause next, rfl⟩ rfl hnext
  | denies ticket e => exact .denies ticket e rfl

/-- An accepted ticket is taken out of the store. -/
theorem Moves.get_of_consumes (h : Moves mine uuid true p) {id : String} (hp : Consumes p id)
    {s : NegotiatorState τ} (hfound : (s.ticketStore.get id).isSome) :
    (p.resume s).2.ticketStore.get id = none := by
  obtain ⟨rest, hrest⟩ := hp
  obtain ⟨stored, hstored⟩ := Option.isSome_iff_exists.mp hfound
  have hnone : (s.ticketStore.delete id).get id = none := by simp [KeyValueStorage.get_delete]
  -- no other kind of step has the same effect as the deletion
  have hset : ∀ other ticket, NegotiatorState.setTicket (τ := τ) other ticket ≠
      NegotiatorState.deleteTicket id := by
    intro other ticket hsame
    have hstore := congrArg NegotiatorState.ticketStore (congrFun hsame s)
    have hother := congrArg (KeyValueStorage.get · other) hstore
    have hdeleted := congrArg (KeyValueStorage.get · id) hstore
    simp only [NegotiatorState.setTicket, NegotiatorState.deleteTicket, KeyValueStorage.get_set,
      KeyValueStorage.get_delete] at hother hdeleted
    grind
  cases h with
  | done r => cases hrest
  | keeps hupdate hnext =>
    injection hrest with hupdateEq _
    have hstore := hupdate s
    rw [hupdateEq] at hstore
    have hget : (s.ticketStore.delete id).get id = s.ticketStore.get id :=
      congrArg (KeyValueStorage.get · id) hstore
    rw [hnone, hstored] at hget
    cases hget
  | pause hnext => cases hrest
  | @takes other next hid hnext =>
    injection hrest with hupdate _
    have hstore := congrArg NegotiatorState.ticketStore (congrFun hupdate s)
    show ((NegotiatorState.deleteTicket other s).ticketStore).get id = none
    rw [hstore]
    exact hnone
  | writesBack hid hnext =>
    injection hrest with hupdate _
    exact absurd hupdate (hset _ _)
  | denies ticket e =>
    injection hrest with hupdate _
    exact absurd hupdate (hset _ _)

end

/-! ## Safe runs -/

section

variable {ι : Type} {calls : ι → NegotiateCall τ}
  {pool : Pool ι (NegotiatorState τ) HttpError DialogOutput}

/-- A ticket that a call hands out is in the store only once the call is over. -/
structure HandsOutLast (calls : ι → NegotiateCall τ)
    (pool : Pool ι (NegotiatorState τ) HttpError DialogOutput) : Prop where
  moves : ∀ i, Moves (calls i).ticket (calls i).randomUUID true (pool.processes i)
  issued : ∀ i, (pool.state.ticketStore.get (calls i).randomUUID).isSome →
    ∃ e, pool.processes i = .done (.error e)

/-- The id is not in the store, and nobody will store it. -/
structure Dead (calls : ι → NegotiateCall τ)
    (pool : Pool ι (NegotiatorState τ) HttpError DialogOutput) (id : String) : Prop where
  absent : pool.state.ticketStore.get id = none
  issued : ∀ i, (calls i).randomUUID = id → ∃ e, pool.processes i = .done (.error e)

variable [DecidableEq ι]

theorem stepped (h : HandsOutLast calls pool) (k : ι) :
    Stepped (calls k).ticket (calls k).randomUUID (pool.processes k) pool.state.ticketStore
      (pool.step k).state.ticketStore ((pool.step k).processes k) := by
  simp only [Pool.step, Function.update_self]
  exact (h.moves k).resume pool.state

theorem handsOutLast_step (h : HandsOutLast calls pool)
    (hunique : Function.Injective fun i => (calls i).randomUUID) {k : ι}
    (hsafe : SafeTicketStep (calls k) (pool.processes k) pool.state) :
    HandsOutLast calls (pool.step k) where
  moves i := by
    by_cases hi : i = k
    · subst hi
      exact (stepped h i).rest
    · simp only [Pool.step, Function.update_of_ne hi]
      exact h.moves i
  issued i hstored := by
    have hbefore : (pool.state.ticketStore.get (calls i).randomUUID).isSome →
        ∃ e, (pool.step k).processes i = .done (.error e) := by
      intro hsome
      obtain ⟨e, hdone⟩ := h.issued i hsome
      exact ⟨e, Pool.done_step hdone k⟩
    have hstep := stepped h k
    revert hstep
    generalize hrest : (pool.step k).processes k = rest
    intro hstep
    cases hstep with
    | keeps hstore _ => exact hbefore (hstore ▸ hstored)
    | deletes id _ _ hstore _ =>
      rw [hstore, KeyValueStorage.get_delete] at hstored
      split at hstored
      · cases hstored
      · exact hbefore hstored
    | writesBack id ticket hid hp hstore _ =>
      rw [hstore, KeyValueStorage.get_set] at hstored
      split at hstored
      case isTrue hsame => exact hbefore (hsame ▸ hsafe.writesBack id hid hp)
      case isFalse => exact hbefore hstored
    | denies ticket e hstore =>
      rw [hstore, KeyValueStorage.get_set] at hstored
      split at hstored
      case isTrue hsame =>
        have hi : i = k := hunique hsame
        exact ⟨e, hi ▸ hrest⟩
      case isFalse => exact hbefore hstored

/-- An id whose ticket is accepted is dead. -/
theorem dead_of_consumes (h : HandsOutLast calls pool) {k : ι}
    (hsafe : SafeTicketStep (calls k) (pool.processes k) pool.state) {id : String}
    (hp : Consumes (pool.processes k) id) : Dead calls (pool.step k) id where
  absent := (h.moves k).get_of_consumes hp (hsafe.deletes id hp)
  issued i hi := by
    obtain ⟨e, hdone⟩ := h.issued i (hi ▸ hsafe.deletes id hp)
    exact ⟨e, Pool.done_step hdone k⟩

theorem dead_step (h : HandsOutLast calls pool) {k : ι}
    (hsafe : SafeTicketStep (calls k) (pool.processes k) pool.state) {id : String}
    (hdead : Dead calls pool id) : Dead calls (pool.step k) id where
  absent := by
    by_cases hmine : (calls k).randomUUID = id
    · obtain ⟨e, hdone⟩ := hdead.issued k hmine
      have hstate : (pool.step k).state = pool.state := by
        simp only [Pool.step, hdone]
        rfl
      rw [hstate]
      exact hdead.absent
    · have hstep := stepped h k
      revert hstep
      generalize (pool.step k).processes k = rest
      intro hstep
      cases hstep with
      | keeps hstore _ => exact hstore ▸ hdead.absent
      | deletes other _ _ hstore _ =>
        rw [hstore, KeyValueStorage.get_delete, hdead.absent]
        exact ite_self none
      | writesBack other ticket hid hp hstore _ =>
        have hfound := hsafe.writesBack other hid hp
        have hother : id ≠ other := by
          rintro rfl
          rw [hdead.absent] at hfound
          cases hfound
        rw [hstore, KeyValueStorage.get_set, if_neg hother]
        exact hdead.absent
      | denies ticket e hstore =>
        rw [hstore, KeyValueStorage.get_set, if_neg (Ne.symm hmine)]
        exact hdead.absent
  issued i hi := by
    obtain ⟨e, hdone⟩ := hdead.issued i hi
    exact ⟨e, Pool.done_step hdone k⟩

/-- In a safe run every ticket is accepted once, and gone for good then. -/
theorem singleUse_of_safeTicketRun (calls : ι → NegotiateCall τ) (s : NegotiatorState τ)
    (hunique : Function.Injective fun i => (calls i).randomUUID)
    (hnew : ∀ i, s.ticketStore.get (calls i).randomUUID = none) (schedule : List ι)
    (hsafe : SafeTicketRun calls s schedule) : TicketsSingleUse calls s schedule := by
  rintro before i between later id rfl hconsumes
  have hstart : HandsOutLast calls (Pool.start (fun i => (calls i).negotiate) s) := by
    refine ⟨fun i => moves_negotiate (calls i), fun i hstored => ?_⟩
    have hnone : s.ticketStore.get (calls i).randomUUID = none := hnew i
    rw [show (Pool.start (fun i => (calls i).negotiate) s).state = s from rfl, hnone] at hstored
    cases hstored
  have hbefore : HandsOutLast calls (negotiationsAfter calls s before) := by
    refine Pool.run_invariant (HandsOutLast calls) hstart fun first k rest hsplit h => ?_
    refine handsOutLast_step h hunique (hsafe first k (rest ++ i :: (between ++ later)) ?_)
    rw [hsplit]
    simp
  have hstep := hsafe before i (between ++ later) rfl
  have hafter : ∀ mid rest, between ++ later = mid ++ rest →
      HandsOutLast calls (negotiationsAfter calls s (before ++ i :: mid)) ∧
        Dead calls (negotiationsAfter calls s (before ++ i :: mid)) id := by
    intro mid rest hmid
    have hrun : negotiationsAfter calls s (before ++ i :: mid) =
        ((negotiationsAfter calls s before).step i).run mid :=
      Pool.run_append _ before (i :: mid)
    rw [hrun]
    refine Pool.run_invariant (fun pool => HandsOutLast calls pool ∧ Dead calls pool id)
      ⟨handsOutLast_step hbefore hunique hstep, dead_of_consumes hbefore hstep hconsumes⟩ ?_
    rintro first k last rfl ⟨hlast, hdead⟩
    have hsafeStep := hsafe (before ++ i :: first) k (last ++ rest) (by
      rw [hmid]
      simp)
    have hfirst : negotiationsAfter calls s (before ++ i :: first) =
        ((negotiationsAfter calls s before).step i).run first :=
      Pool.run_append _ before (i :: first)
    rw [hfirst] at hsafeStep
    exact ⟨handsOutLast_step hlast hunique hsafeStep, dead_step hlast hsafeStep hdead⟩
  obtain ⟨-, hdead⟩ := hafter between later rfl
  refine ⟨hdead.absent, fun j hj hagain => ?_⟩
  obtain ⟨rest, rfl⟩ : ∃ rest, later = j :: rest := List.head?_eq_some_iff.mp hj
  have hfound := (hsafe (before ++ i :: between) j rest (by simp)).deletes id hagain
  rw [hdead.absent] at hfound
  cases hfound

end

/-! ## Two clients with one ticket -/

section

variable {call : NegotiateCall τ} {p : Async (NegotiatorState τ) HttpError DialogOutput}
  {s : NegotiatorState τ}

/-- A step that does not begin with an action on the state. -/
theorem SafeTicketStep.of_not_act (hp : ∀ update next, p ≠ .act update next) :
    SafeTicketStep call p s where
  deletes _ := fun ⟨_, hnext⟩ => absurd hnext (hp _ _)
  writesBack _ _ := fun ⟨_, _, hnext⟩ => absurd hnext (hp _ _)

/-- A step that begins with reading the state. -/
theorem SafeTicketStep.of_get
    {next : NegotiatorState τ → Async (NegotiatorState τ) HttpError DialogOutput}
    (hp : p = .act id next) : SafeTicketStep call p s where
  deletes id := by
    rintro ⟨rest, hrest⟩
    rw [hp] at hrest
    injection hrest with hsame _
    have hstore := congrArg NegotiatorState.ticketStore
      (congrFun hsame (s.setTicket id { permissions := [], provided := [] }))
    have hget := congrArg (KeyValueStorage.get · id) hstore
    simp [NegotiatorState.setTicket, NegotiatorState.deleteTicket, KeyValueStorage.get_set,
      KeyValueStorage.get_delete] at hget
  writesBack id _ := by
    rintro ⟨ticket, rest, hrest⟩
    rw [hp] at hrest
    injection hrest with hsame _
    have hstore := congrArg NegotiatorState.ticketStore (congrFun hsame (s.deleteTicket id))
    have hget := congrArg (KeyValueStorage.get · id) hstore
    simp [NegotiatorState.setTicket, NegotiatorState.deleteTicket, KeyValueStorage.get_set,
      KeyValueStorage.get_delete] at hget

/-- A step that takes a ticket that is there. -/
theorem SafeTicketStep.of_delete {id : String}
    {next : NegotiatorState τ → Async (NegotiatorState τ) HttpError DialogOutput}
    (hp : p = .act (NegotiatorState.deleteTicket id) next)
    (hfound : (s.ticketStore.get id).isSome) : SafeTicketStep call p s where
  deletes other := by
    rintro ⟨rest, hrest⟩
    rw [hp] at hrest
    injection hrest with hsame _
    have hstore := congrArg NegotiatorState.ticketStore
      (congrFun hsame (s.setTicket other { permissions := [], provided := [] }))
    have hget := congrArg (KeyValueStorage.get · other) hstore
    by_cases hother : other = id
    · exact hother ▸ hfound
    · simp [NegotiatorState.setTicket, NegotiatorState.deleteTicket, KeyValueStorage.get_set,
        KeyValueStorage.get_delete, hother] at hget
  writesBack other _ := by
    rintro ⟨ticket, rest, hrest⟩
    rw [hp] at hrest
    injection hrest with hsame _
    have hstore := congrArg NegotiatorState.ticketStore (congrFun hsame (s.deleteTicket other))
    have hget := congrArg (KeyValueStorage.get · other) hstore
    simp [NegotiatorState.setTicket, NegotiatorState.deleteTicket, KeyValueStorage.get_set,
      KeyValueStorage.get_delete] at hget

theorem consumes_of_act {id : String}
    {next : NegotiatorState τ → Async (NegotiatorState τ) HttpError DialogOutput}
    (s : NegotiatorState τ) (hp : p = .act (NegotiatorState.deleteTicket id) next)
    (hconst : ∀ t u, next t = next u) : Consumes p id := by
  refine ⟨fun _ => next s, hp.trans ?_⟩
  exact congrArg _ (funext fun t => hconst t s)

end

/-- Two clients have the ticket for the album. -/
def shareTicket (first : Bool) : NegotiateCall Unit where
  negotiator := plainNegotiator (fun _ => .ok Dict.empty) TokenCodec.spelled
    (immediateAuthorizerStrategy AuthorizerTree.all.permissions false)
  encodeAggregateId id := id
  randomUUID := if first then "ticket1" else "ticket2"
  input := .object [("ticket", .string "ticket")]

def albumTicket : NegotiatorState Unit where
  ticketStore := KeyValueStorage.empty.set "ticket"
    { permissions := [⟨"album", ["urn:example:read"]⟩], provided := Dict.empty }
  tokens := ()

theorem shareTicket_unique : Function.Injective fun first => (shareTicket first).randomUUID := by
  rintro (_ | _) (_ | _) h
  · rfl
  · exact absurd h (by decide)
  · exact absurd h (by decide)
  · rfl

theorem shareTicket_new (first : Bool) :
    albumTicket.ticketStore.get (shareTicket first).randomUUID = none := by
  cases first <;> rfl

/-- One after the other, only the first accepts the ticket. -/
theorem shareTicket_singleUse :
    TicketsSingleUse shareTicket albumTicket [true, true, false, false] := by
  refine singleUse_of_safeTicketRun shareTicket albumTicket shareTicket_unique shareTicket_new _ ?_
  intro before i later hsplit
  match before, hsplit with
  | [], hsplit =>
    cases hsplit
    exact .of_get rfl
  | [_], hsplit =>
    cases hsplit
    exact .of_delete rfl rfl
  | [_, _], hsplit =>
    cases hsplit
    exact .of_get rfl
  | [_, _, _], hsplit =>
    cases hsplit
    exact .of_not_act (fun _ _ h => by cases h)
  | _ :: _ :: _ :: _ :: before, hsplit => simp at hsplit

/-- Both find the ticket before one of them takes it. -/
theorem ticket_accepted_twice :
    ¬ ∀ (τ ι : Type) [DecidableEq ι] (calls : ι → NegotiateCall τ) (s : NegotiatorState τ),
      (Function.Injective fun i => (calls i).randomUUID) →
      (∀ i, s.ticketStore.get (calls i).randomUUID = none) →
        ∀ schedule, TicketsSingleUse calls s schedule := by
  intro hclaim
  have hsingle := hclaim Unit Bool shareTicket albumTicket shareTicket_unique shareTicket_new
    [true, false, true, false]
  have hfirst : Consumes ((negotiationsAfter shareTicket albumTicket [true, false]).processes true)
      "ticket" := consumes_of_act albumTicket rfl fun _ _ => rfl
  have hsecond : Consumes ((negotiationsAfter shareTicket albumTicket
      [true, false, true]).processes false) "ticket" :=
    consumes_of_act albumTicket rfl fun _ _ => rfl
  exact (hsingle [true, false] true [] [false] "ticket" rfl hfirst).2 false rfl hsecond

end UserManagedAccess.Dialog
