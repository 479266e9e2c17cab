/-
UserManagedAccess.Css.Simulation — a client moves as its ledger does.

The ledger `Conforms` to a client when every task of it has a call that obeys its
duties, from where the call is now. A step of the client runs one task up to its
next primitive, and there is a lemma for each primitive (`simulates_…`) that
gives the move of the ledger; the other tasks keep their duties
(`Conforms.stays`).

- `conforms_step`: each step of a client is a move of the ledger.
-/
import UserManagedAccess.Css.ClientRuns

namespace UserManagedAccess.Css.UmaClient

open UserManagedAccess.Lib UserManagedAccess.Util UserManagedAccess.Views
open Duties

variable {setting : ClientSetting} {o : Outcomes setting}

/-- The ledger accounts for the client. -/
structure Conforms {setting : ClientSetting} (o : Outcomes setting) (w : World platform) (L : Ledger) :
    Prop where
  inProgress : L.inProgress = w.state.inProgress
  ids : L.ids = w.state.umaIdStore.get
  count : L.count = w.count
  requests : L.requests = requestsOf w.log
  entered : L.entered = enteredOf w.log
  tasks : TasksConform o w.tasks L.duties w.count w.calls L.called

/-- The step is a move. -/
def Simulates {setting : ClientSetting} (o : Outcomes setting) (w' : World platform)
    (L : Ledger) : Prop :=
  ∃ L', Ledger.Moves o L L' ∧ Conforms o w' L'

/-! ## What actions and entries change -/

theorem requestsOf_acted {log : List (Nat × Entry platform)} {i : Nat} {action : Action}
    {reply : ActionReply action} :
    requestsOf (log ++ [(i, .acted (P := platform) action reply)]) = requestsOf log := by
  simp [requestsOf]

theorem enteredOf_performed {log : List (Nat × Entry platform)} {i : Nat} {op : Op} :
    enteredOf (log ++ [(i, .performed (P := platform) op)]) = enteredOf log := by
  simp [enteredOf]

theorem run_umaIdStore (action : Action) (s : ClientState) :
    (Action.run setting action s).2.umaIdStore = s.umaIdStore := by
  cases action <;> simp only [Action.run] <;> split <;> rfl

/-- An action that is about no signal. -/
def Action.IsPlain : Action → Prop
  | .enter _ => False
  | .leave _ => False
  | _ => True

theorem run_inProgress {action : Action} (hplain : action.IsPlain) (s : ClientState) :
    (Action.run setting action s).2.inProgress = s.inProgress := by
  cases action with
  | enter | leave => exact hplain.elim
  | cachedPat | cachedConfig =>
    simp only [Action.run]
    split <;> rfl
  | storePat | cacheConfig | isInProgress => rfl

theorem enteredOf_plain {action : Action} (hplain : action.IsPlain) {i : Nat}
    {reply : ActionReply action} {log : List (Nat × Entry platform)} :
    enteredOf (log ++ [(i, .acted (P := platform) action reply)]) = enteredOf log := by
  cases action with
  | enter | leave => exact hplain.elim
  | cachedPat | storePat | cachedConfig | cacheConfig | isInProgress => simp [enteredOf]

theorem acted_plain {action : Action} (hplain : action.IsPlain) {d : Duties}
    {reply : ActionReply action} : d.acted action reply = d := by
  cases action with
  | enter | leave => exact hplain.elim
  | cachedPat | storePat | cachedConfig | cacheConfig | isInProgress => rfl

/-! ## Steps -/

variable {w : World platform} {L : Ledger} {i : Nat} {call : Call} {stack : List Nat}

theorem Conforms.lt_count {task : Task platform} (h : Conforms o w L)
    (htask : w.tasks i = some task) : i < L.count := by
  rw [h.count]
  exact (h.tasks.bound i).mp (by rw [htask]; rfl)

theorem Conforms.fresh (h : Conforms o w L) (hL : Ledger.Exclusive L) :
    L.duties w.count = {} := hL.fresh _ (Nat.le_of_eq h.count)

/-- The duties stay as they are. -/
theorem Conforms.stays {status : Status platform} (status' : Status platform)
    (h : Conforms o w L) (htask : w.tasks i = some ⟨call, status⟩)
    (hrunning : isSettled status = false)
    (hobeys : StatusObeys o call.marks (L.duties i) status') {w' : World platform}
    (htasks : w'.tasks = Function.update w.tasks i (some ⟨call, status'⟩))
    (hinProgress : w'.state.inProgress = w.state.inProgress)
    (hids : w'.state.umaIdStore = w.state.umaIdStore) (hcount : w'.count = w.count)
    (hcalls : w'.calls = w.calls) (hrequests : requestsOf w'.log = requestsOf w.log)
    (hentered : enteredOf w'.log = enteredOf w.log) : Simulates o w' L := by
  refine ⟨L, .stay, ?_, ?_, ?_, ?_, ?_, ?_⟩
  · rw [hinProgress, h.inProgress]
  · rw [hids, h.ids]
  · rw [hcount, h.count]
  · rw [hrequests, h.requests]
  · rw [hentered, h.entered]
  · rw [htasks, hcount, hcalls]
    exact h.tasks.goOn htask hrunning hobeys

theorem goOn_act {action : Action} {next : ActionReply action → Method (Option String)} :
    (system setting).goOn w i call stack (.act (P := platform) action next) =
      { (w.put i ⟨call, .running (next (Action.run setting action w.state).1)⟩).write i
          (.acted (P := platform) action (Action.run setting action w.state).1) with
        state := (Action.run setting action w.state).2 } := rfl

theorem simulates_act (h : Conforms o w L) {action : Action}
    {next : ActionReply action → Method (Option String)}
    (htask : w.tasks i = some ⟨call, .running (.act (P := platform) action next)⟩) :
    Simulates o
      ((system setting).goOn w i call stack (.act (P := platform) action next)) L := by
  have hi := h.lt_count htask
  have hobeys : Obeys o call.marks (L.duties i) (.act (P := platform) action next) :=
    h.tasks.obeys i _ htask
  cases hobeys with
  | act hallowed hnext =>
    rw [goOn_act]
    by_cases hplain : action.IsPlain
    · refine h.stays (.running _) htask rfl ?_ rfl (run_inProgress hplain _)
        (run_umaIdStore _ _) rfl rfl
        requestsOf_acted (enteredOf_plain hplain)
      have hrest := hnext (Action.run setting action w.state).1
      rw [acted_plain hplain] at hrest
      exact hrest
    · cases action with
      | cachedPat | storePat | cachedConfig | cacheConfig | isInProgress => exact absurd trivial hplain
      | enter signal =>
        have hreply : Action.run setting (.enter signal) w.state = (decide (signal ∈ w.state.inProgress),
          { w.state with inProgress := insert signal w.state.inProgress }) := rfl
        by_cases hin : signal ∈ w.state.inProgress
        · -- it is there already
          rw [hreply, decide_eq_true hin]
          have hrest : Obeys o call.marks (L.duties i) (next true) := hnext true
          refine h.stays (.running _) htask rfl hrest rfl (Finset.insert_eq_of_mem hin) rfl rfl rfl
            requestsOf_acted ?_
          simp [World.write, World.put, enteredOf]
        · rw [hreply, decide_eq_false hin]
          refine ⟨_, .enter hi hallowed (h.inProgress ▸ hin), ?_⟩
          refine ⟨congrArg (insert signal) h.inProgress, h.ids, h.count, ?_, ?_, ?_⟩
          · exact h.requests.trans requestsOf_acted.symm
          · show L.entered ++ [(i, signal)] = _
            rw [h.entered]
            simp [World.write, World.put, enteredOf]
          · exact h.tasks.update htask rfl (hnext false) (fun _ => id) fun _ j hj => .inl hj
      | leave signal =>
        obtain ⟨hold, hhold, rfl, hphase⟩ := hallowed
        refine ⟨_, .leave hi hhold hphase, ?_⟩
        refine ⟨congrArg (Finset.erase · hold.signal) h.inProgress, h.ids, h.count, ?_, ?_, ?_⟩
        · exact h.requests.trans requestsOf_acted.symm
        · exact h.entered.trans (by simp [World.write, World.put, enteredOf])
        · exact h.tasks.update htask rfl (hnext ()) (fun _ => id) fun _ j hj => .inl hj

theorem simulates_emit (h : Conforms o w L) {signal : Signal}
    {next : Method (Option String)}
    (htask : w.tasks i = some ⟨call, .running (.emit (P := platform) signal next)⟩) :
    Simulates o
      ((system setting).goOn w i call stack (.emit (P := platform) signal next)) L := by
  have hobeys : Obeys o call.marks (L.duties i) (.emit (P := platform) signal next) :=
    h.tasks.obeys i _ htask
  cases hobeys with
  | emit hnext =>
    refine ⟨L, .stay, h.inProgress, h.ids, h.count, h.requests, h.entered, ?_⟩
    have hself : (w.tasks i).map (Task.wake (P := platform) signal) =
        some ⟨call, .running (.emit (P := platform) signal next)⟩ := by rw [htask]; rfl
    have hwoken : TasksConform o (Function.update
        (fun j => (w.tasks j).map (Task.wake (P := platform) signal)) i (some ⟨call, .running next⟩))
        L.duties w.count w.calls L.called := (h.tasks.wake signal).goOn hself rfl hnext
    refine cast (congrArg (TasksConform o · L.duties w.count w.calls L.called) ?_) hwoken
    funext j
    rw [Function.update_apply]
    rfl

theorem simulates_start (h : Conforms o w L) (hL : Ledger.Exclusive L) {callee : Call}
    {next : Nat → Method (Option String)}
    (htask : w.tasks i = some ⟨call, .running (.start (P := platform) callee next)⟩) :
    Simulates o
      ((system setting).goOn w i call stack (.start (P := platform) callee next)) L := by
  have hi := h.lt_count htask
  have hobeys : Obeys o call.marks (L.duties i) (.start (P := platform) callee next) :=
    h.tasks.obeys i _ htask
  cases hobeys with
  | start hsplits hnext =>
    refine ⟨_, .start hi hsplits, h.inProgress, h.ids, congrArg (· + 1) h.count, h.requests,
      h.entered, ?_⟩
    have hstarted := h.tasks.start htask rfl (h.fresh hL) hsplits (hnext w.count)
    have hcount : L.count = w.count := h.count
    simp only [Ledger.put, hcount]
    exact hstarted

/-- The registration that an operation asks for. -/
def Op.registration? : Op → Option ResourceRequest
  | .fetch (.resource request) => some request
  | _ => none

theorem Op.eq_of_registration? {op : Op} {request : ResourceRequest}
    (h : op.registration? = some request) : op = .fetch (.resource request) := by
  cases op with
  | fetch r =>
    cases r with
    | resource request' => exact congrArg (fun r => Op.fetch (.resource r)) (Option.some.inj h)
    | config | token | unregister | permission => cases h
  | json | text | getId | setId | hasResource | tick => cases h

theorem sent_of_no_registration {op : Op} {d : Duties} (h : op.registration? = none) :
    d.sent op = d := by
  cases op with
  | fetch r =>
    cases r with
    | resource request => cases h
    | config | token | unregister | permission => rfl
  | json | text | getId | setId | hasResource | tick => rfl

theorem requestsOf_of_no_registration {op : Op} {log : List (Nat × Entry platform)}
    (h : op.registration? = none) :
    requestsOf (log ++ [(i, .performed (P := platform) op)]) = requestsOf log := by
  cases op with
  | fetch r =>
    cases r with
    | resource request => cases h
    | config | token | unregister | permission => simp [requestsOf]
  | json | text | getId | setId | hasResource | tick => simp [requestsOf]

theorem simulates_perform (h : Conforms o w L) {op : Op}
    {next : OpReply op → Method (Option String)}
    (htask : w.tasks i = some ⟨call, .running (.perform (P := platform) op next)⟩) :
    Simulates o
      ((system setting).goOn w i call stack (.perform (P := platform) op next)) L := by
  have hi := h.lt_count htask
  have hobeys : Obeys o call.marks (L.duties i) (.perform (P := platform) op next) :=
    h.tasks.obeys i _ htask
  cases hobeys with
  | perform hready hnext =>
    have hwaits : StatusObeys o call.marks ((L.duties i).sent op)
        (.awaiting (P := platform) op next) := ⟨L.duties i, rfl, hready, hnext⟩
    cases hop : op.registration? with
    | none =>
      rw [sent_of_no_registration hop] at hwaits
      exact h.stays _ htask rfl hwaits rfl rfl rfl rfl rfl (requestsOf_of_no_registration hop)
        enteredOf_performed
    | some request =>
      cases Op.eq_of_registration? hop
      obtain ⟨hold, hmay⟩ := hready
      refine ⟨_, .send hi hmay, h.inProgress, h.ids, h.count, ?_,
        h.entered.trans enteredOf_performed.symm, ?_⟩
      · show L.requests ++ [request] =
          requestsOf (w.log ++ [(i, .performed (P := platform) (.fetch (.resource request)))])
        rw [h.requests]
        simp [requestsOf]
      · exact h.tasks.update htask rfl hwaits (fun _ => id) fun _ j hj => .inl hj

theorem simulates_once (h : Conforms o w L) {signal : Signal} {timeout : Option HttpError}
    {next : Except HttpError Unit → Method (Option String)}
    (htask : w.tasks i = some ⟨call, .running (.once (P := platform) signal timeout next)⟩) :
    Simulates o
      ((system setting).goOn w i call stack (.once (P := platform) signal timeout next)) L := by
  have hobeys : Obeys o call.marks (L.duties i) (.once (P := platform) signal timeout next) :=
    h.tasks.obeys i _ htask
  cases hobeys with
  | once hnext htimeout =>
    exact h.stays (.listening signal timeout next) htask rfl ⟨hnext, htimeout⟩ rfl rfl rfl rfl rfl rfl
      rfl

theorem simulates_all (h : Conforms o w L) {calls : List Nat}
    {next : Except HttpError (List (Option String)) → Method (Option String)}
    (htask : w.tasks i = some ⟨call, .running (.all (P := platform) calls next)⟩) :
    Simulates o
      ((system setting).goOn w i call stack (.all (P := platform) calls next)) L := by
  have hobeys : Obeys o call.marks (L.duties i) (.all (P := platform) calls next) :=
    h.tasks.obeys i _ htask
  cases hobeys with
  | all hcalls hok herror =>
    exact h.stays (.joining calls next) htask rfl ⟨hcalls, hok, herror⟩ rfl rfl rfl rfl rfl rfl rfl

theorem simulates_done (h : Conforms o w L) {result : Except HttpError (Option String)}
    (htask : w.tasks i = some ⟨call, .running (.done (P := platform) result)⟩) :
    Simulates o
      ((system setting).goOn w i call stack (.done (P := platform) result)) L := by
  have hobeys : Obeys o call.marks (L.duties i) (.done (P := platform) result) :=
    h.tasks.obeys i _ htask
  refine h.stays (.settled result) htask rfl ?_ rfl rfl rfl rfl rfl rfl rfl
  cases hobeys with
  | returns hblank => exact hblank
  | throws hfails hblank => exact ⟨hfails, hblank⟩

/-! ### What the loop does -/

theorem simulates_call (h : Conforms o w L) (hL : Ledger.Exclusive L)
    (hpermitted : call.Permitted o) : Simulates o
      { w.push call ((system setting).program call) with calls := w.calls ++ [w.count] } L := by
  have hcount : L.count = w.count := h.count
  have hstart : ∃ debt, Declared o call { debt } ∧ ∀ path issuer credentials,
      call = .registerResource path issuer credentials → debt = some path := by
    cases call with
    | getPat => exact ⟨none, .getPat, nofun⟩
    | fetchTicket => exact ⟨none, .fetchTicket hpermitted, nofun⟩
    | registerResource path issuer credentials =>
      refine ⟨some path, .registerResource hpermitted (.inr rfl), fun _ _ _ heq => ?_⟩
      cases heq
      rfl
    | deleteResource => exact ⟨none, .deleteResource, nofun⟩
    | registerAfterParent | sendRegistration => exact hpermitted.elim
  obtain ⟨debt, hdeclared, hdebt⟩ := hstart
  refine ⟨_, .call debt, h.inProgress, h.ids, congrArg (· + 1) hcount, h.requests, h.entered, ?_⟩
  have hcalled := h.tasks.call debt (h.fresh hL) hdeclared hdebt
  simp only [Ledger.put, hcount]
  exact hcalled

theorem simulates_timeout (h : Conforms o w L) {signal : Signal} {e : HttpError}
    {next : Except HttpError Unit → Method (Option String)}
    (htask : w.tasks i = some ⟨call, .listening signal (some e) next⟩) :
    Simulates o (w.put i ⟨call, .ready (next (.error e))⟩) L := by
  have hobeys := h.tasks.obeys i _ htask
  exact h.stays (.ready (next (.error e))) htask rfl (hobeys.2 e rfl) rfl rfl rfl rfl rfl rfl rfl

theorem simulates_resume (h : Conforms o w L) {rest : Method (Option String)}
    (htask : w.tasks i = some ⟨call, .ready rest⟩) :
    Simulates o { w.put i ⟨call, .running rest⟩ with stack := [i] } L :=
  h.stays (.running rest) htask rfl (h.tasks.obeys i _ htask) rfl rfl rfl rfl rfl rfl rfl

/-- What the storage holds once an id was written. -/
theorem Conforms.ids_set (h : Conforms o w L) (path id : String) :
    Function.update L.ids path (some id) = (w.state.umaIdStore.set path id).get := by
  funext other
  rw [h.ids, Function.update_apply, KeyValueStorage.get_set]

/-- The operation changes neither ids nor duties. -/
theorem simulates_plain_answer (h : Conforms o w L) {op : Op}
    {next : OpReply op → Method (Option String)} {reply : OpReply op}
    (htask : w.tasks i = some ⟨call, .awaiting (P := platform) op next⟩)
    (hreply : Trusted o call.marks → Succeeds o op reply)
    (heffect : Op.effect op reply w.state = w.state)
    (hanswered : (L.duties i).answered op reply = L.duties i) :
    Simulates o { w.put i ⟨call, .ready (next reply)⟩ with
      state := Op.effect op reply w.state } L := by
  obtain ⟨d₀, -, -, hnext⟩ := h.tasks.obeys i _ htask
  have hrest := hnext reply hreply
  rw [hanswered] at hrest
  rw [heffect]
  exact h.stays (.ready (next reply)) htask rfl hrest rfl rfl rfl rfl rfl rfl rfl

theorem simulates_answer (h : Conforms o w L) {op : Op}
    {next : OpReply op → Method (Option String)} {reply : OpReply op}
    (htask : w.tasks i = some ⟨call, .awaiting (P := platform) op next⟩)
    (hreply : Trusted o call.marks → Succeeds o op reply)
    (hpermits : Op.permits op w.state reply = true) :
    Simulates o { w.put i ⟨call, .ready (next reply)⟩ with
      state := Op.effect op reply w.state } L := by
  have hi := h.lt_count htask
  obtain ⟨d₀, hsent, hready, hnext⟩ := h.tasks.obeys i _ htask
  have hrest := hnext reply hreply
  cases op with
  | fetch | json | text | hasResource | tick => exact simulates_plain_answer h htask hreply rfl rfl
  | getId path =>
    cases reply with
    | error e => exact simulates_plain_answer h htask hreply rfl rfl
    | ok id =>
      have hid : id = L.ids path := by
        rw [h.ids]
        simpa [Op.permits] using hpermits
      subst hid
      refine ⟨_, .learn path hi, h.inProgress, h.ids, h.count, h.requests, h.entered, ?_⟩
      exact h.tasks.update htask rfl hrest (fun _ => id) fun _ j hj => .inl hj
  | setId path id =>
    obtain ⟨hmarks, hold, hhold, hsignal, hphase, hid⟩ := hready
    have hhold : (L.duties i).hold = some hold := by
      rw [hsent]
      exact hhold
    cases reply with
    | ok u =>
      refine ⟨_, .store hi hhold hsignal hphase hid, h.inProgress, h.ids_set path id, h.count,
        h.requests, h.entered, ?_⟩
      have heq : (L.duties i).answered (.setId path id) (.ok u) =
          { L.duties i with hold := some { hold with phase := .known } } := by
        simp [answered, hhold]
      rw [heq] at hrest
      exact h.tasks.update htask rfl hrest (fun _ => fun h => h) fun _ j hj => .inl hj
    | error e =>
      have ho : ¬ o.reliable := by
        by_contra ho
        exact nomatch hreply ⟨ho, hmarks⟩
      obtain ⟨e, stored⟩ := e
      cases stored with
      | false => exact simulates_plain_answer h htask hreply rfl rfl
      | true =>
        refine ⟨_, .lose ho, h.inProgress, h.ids_set path id, h.count, h.requests, h.entered, ?_⟩
        exact h.tasks.goOn htask rfl hrest

theorem simulates_joined (h : Conforms o w L) {calls : List Nat}
    {next : Except HttpError (List (Option String)) → Method (Option String)}
    {result : Except HttpError (List (Option String))}
    (htask : w.tasks i = some ⟨call, .joining (P := platform) calls next⟩)
    (hgather : w.gather calls = some result) :
    Simulates o { w.put i ⟨call, .running (next result)⟩ with stack := [i] } L := by
  have hi := h.lt_count htask
  obtain ⟨hcalls, hok, herror⟩ := h.tasks.obeys i _ htask
  -- where nothing fails, all calls have settled
  have hsettled : o.reliable → ∀ j ∈ (L.duties i).owes, ∃ task, w.tasks j = some task ∧
      isSettled task.status = true := by
    intro ho j hj
    cases result with
    | ok values =>
      obtain ⟨callee, value, htask'⟩ := World.settled_of_gather hgather j ((hcalls j).mpr hj)
      exact ⟨_, htask', rfl⟩
    | error e =>
      obtain ⟨k, hk, callee, htask'⟩ := World.failed_of_gather hgather
      obtain ⟨-, task, htask'', hmarks⟩ := h.tasks.owed i k ((hcalls k).mp hk)
      cases htask'.symm.trans htask''
      exact absurd ⟨ho, hmarks⟩ (h.tasks.obeys k _ htask').1
  have hrest : Obeys o call.marks { L.duties i with owes := [] } (next result) := by
    cases result with
    | ok values => exact hok values
    | error e =>
      refine herror ?_ e
      by_contra ho
      obtain ⟨k, hk, callee, htask'⟩ := World.failed_of_gather hgather
      obtain ⟨-, task, htask'', hmarks⟩ := h.tasks.owed i k ((hcalls k).mp hk)
      cases htask'.symm.trans htask''
      exact (h.tasks.obeys k _ htask').1 ⟨ho, hmarks⟩
  refine ⟨_, .join hi fun ho j hj => ?_, h.inProgress, h.ids, h.count, h.requests, h.entered, ?_⟩
  · obtain ⟨task, htask', hdone⟩ := hsettled ho j hj
    exact h.tasks.duties_of_settled ho htask' hdone
  · exact h.tasks.update htask rfl hrest nofun fun ho j hj => .inr (hsettled ho j hj)

/-- **A step of the client is a move of its ledger.** -/
theorem conforms_step {w' : World platform} {e : LoopEvent platform} (h : Conforms o w L)
    (hL : Ledger.Exclusive L) (hexpected : Expected o w e)
    (hstep : (system setting).step w e = some w') :
    Simulates o w' L := by
  cases System.step_cases hstep with
  | @goOn i stack call body hstack htask =>
    cases body with
    | done result => exact simulates_done h htask
    | act action next => exact simulates_act h htask
    | emit signal next => exact simulates_emit h htask
    | start callee next => exact simulates_start h hL htask
    | perform op next => exact simulates_perform h htask
    | once signal timeout next => exact simulates_once h htask
    | all calls next => exact simulates_all h htask
  | call call hstack => exact simulates_call h hL hexpected
  | answer hstack htask hpermits => exact simulates_answer h htask (hexpected _ _ _ htask) hpermits
  | timeout hstack htask => exact simulates_timeout h htask
  | resume hstack htask => exact simulates_resume h htask
  | joined hstack htask hgather => exact simulates_joined h htask hgather

end UserManagedAccess.Css.UmaClient
