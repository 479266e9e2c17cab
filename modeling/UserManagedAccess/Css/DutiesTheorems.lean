/-
UserManagedAccess.Css.DutiesTheorems — the calls of the client do what their
duties are.

`Obeys` has a rule for each primitive a body is made of, read off the front of
the body: a failing one ends the body, which is in order where the outcomes
are arbitrary, or where the call has no duties. `program_obeys` walks through
the calls with these rules.
-/
import UserManagedAccess.Css.Duties

namespace UserManagedAccess.Css.UmaClient

open UserManagedAccess.Lib UserManagedAccess.Util UserManagedAccess.Views
open Duties

variable {setting : ClientSetting} {o : Outcomes setting} {marks : Bool} {d : Duties}

/-! ## Rules -/

/-- A call that may hold a signal fails only where outcomes are arbitrary. -/
theorem Obeys.throws_of_marks {e : HttpError} (hfails : ¬ Trusted o true) :
    Obeys o true d (.done (.error e)) :=
  .throws hfails fun ho => absurd ⟨ho, rfl⟩ hfails

theorem obeys_pure {value : Option String} (h : Blank d) :
    Obeys o true d (pure value) := .returns h

theorem obeys_fetch {request : Request} {f : Response → Method (Option String)}
    (hready : Ready o true d (.fetch request))
    (h : ∀ res, (Trusted o true → Succeeds o (.fetch request) (.ok res)) →
      Obeys o true (d.sent (.fetch request)) (f res)) :
    Obeys o true d (fetch request >>= f) := by
  refine .perform hready fun reply hreply => ?_
  cases reply with
  | ok res => exact h res hreply
  | error e =>
    refine .throws_of_marks fun ht => ?_
    have hfailed := hreply ht
    cases request <;> simp [Succeeds] at hfailed

theorem obeys_json {response : Response} {f : Json → Method (Option String)}
    (hbody : Trusted o true → response.body ≠ none)
    (h : ∀ body, response.body = some body → Obeys o true d (f body)) :
    Obeys o true d (json response >>= f) := by
  refine .perform trivial fun reply hreply => ?_
  cases reply with
  | error e => exact .throws_of_marks fun ht => nomatch hreply ht
  | ok u =>
    cases hb : response.body with
    | none =>
      exact .throws_of_marks fun ht => hbody ht hb
    | some body => exact h body hb

theorem obeys_text {response : Response} {f : String → Method (Option String)}
    (h : ∀ message, Obeys o true d (f message)) :
    Obeys o true d (text response >>= f) := by
  refine .perform trivial fun reply hreply => ?_
  cases reply with
  | ok message => exact h message
  | error e => exact .throws_of_marks fun ht => by simpa [Succeeds] using hreply ht

theorem obeys_getId {path : String} {f : Option String → Method (Option String)}
    (h : ∀ id, Obeys o true (d.learned path id) (f id)) :
    Obeys o true d (getId path >>= f) := by
  refine .perform trivial fun reply hreply => ?_
  cases reply with
  | ok id => exact h id
  | error e => exact .throws_of_marks fun ht => by simpa [Succeeds] using hreply ht

theorem obeys_tick {f : Unit → Method (Option String)} (h : Obeys o true d (f ())) :
    Obeys o true d (tick >>= f) := .perform trivial fun _ _ => h

/-- Where the signal is in `inProgress`, and where it was put there. -/
theorem obeys_enter {signal : Signal} {f : Bool → Method (Option String)} (hhold : d.hold = none)
    (hthere : Obeys o true d (f true))
    (hentered : Obeys o true { d with hold := some { signal } } (f false)) :
    Obeys o true d (enter signal >>= f) := by
  refine .act hhold fun reply => ?_
  cases reply with
  | true => exact hthere
  | false => exact hentered

theorem obeys_leave {h : Hold} {f : Unit → Method (Option String)} (hhold : d.hold = some h)
    (hphase : h.phase ≠ .posting)
    (hnext : Obeys o true { d with hold := none } (f ())) :
    Obeys o true d (leave h.signal >>= f) :=
  .act ⟨h, hhold, rfl, hphase⟩ fun _ => .emit hnext

theorem obeys_once {signal : Signal} {f : Unit → Method (Option String)}
    (h : Obeys o true d (f ())) : Obeys o true d (once signal >>= f) :=
  .once h nofun

/-- A call that is waited for. -/
theorem obeys_await {call : Call} {child : Duties} {rest : Nat → Duties}
    {f : Option String → Method (Option String)} (hsplits : Splits o d call child rest)
    (howes : ∀ id, (rest id).owes = [id])
    (h : ∀ id value, Obeys o true { rest id with owes := [] } (f value)) :
    Obeys o true d (Body.await (P := platform) call >>= f) := by
  refine .start hsplits fun id => .all (fun i => by rw [howes id]) (fun values => h id _) ?_
  intro ho e
  exact .throws (fun ht => ho ht.1) fun ho' => absurd ho' ho

theorem obeys_return_await {call : Call} {child : Duties} {rest : Nat → Duties}
    (hsplits : Splits o d call child rest) (howes : ∀ id, (rest id).owes = [id])
    (hblank : ∀ id, Blank { rest id with owes := [] }) :
    Obeys o true d (Body.await (P := platform) call) := by
  rw [← Body.bind_pure (Body.await (P := platform) call)]
  exact obeys_await hsplits howes fun id value => obeys_pure (hblank id)

/-! ## The configuration -/

theorem filter_isUndefined_eq_nil {configuration : Json}
    (h : ∀ value ∈ REQUIRED_METADATA, (configuration.field value).asString?.isSome) :
    (REQUIRED_METADATA.filter fun value => isUndefined (configuration.field value)) = [] := by
  refine List.filter_eq_nil_iff.mpr fun value hvalue => ?_
  have hsome := h value hvalue
  cases hfield : configuration.field value <;> simp [isUndefined, hfield, Json.asString?] at hsome ⊢

theorem filter_noString_eq_nil {configuration : Json}
    (h : ∀ value ∈ REQUIRED_METADATA, (configuration.field value).asString?.isSome) :
    (REQUIRED_METADATA.filter fun value => (configuration.field value).asString?.isNone) = [] := by
  refine List.filter_eq_nil_iff.mpr fun value hvalue => ?_
  have hsome := h value hvalue
  cases hfield : (configuration.field value).asString? <;> simp [hfield] at hsome ⊢

/-- Fetching the configuration does nothing else than to go on or to fail. -/
theorem obeys_fetchUmaConfig_handle {issuer : String}
    {k : Except HttpError UmaConfig → Method (Option String)}
    (hok : ∀ config, Obeys o marks d (k (.ok config)))
    (herror : ¬ Trusted o marks → ∀ e, Obeys o marks d (k (.error e))) :
    Obeys o marks d ((fetchUmaConfig issuer).handle k) := by
  refine .act trivial fun cached => ?_
  cases cached with
  | some config => exact hok config
  | none =>
    refine .perform trivial fun reply hreply => ?_
    cases reply with
    | error e => exact herror (fun ht => by simpa [Succeeds] using hreply ht) e
    | ok res =>
      simp only [bind, Body.bind]
      by_cases hstatus : res.status ≥ 400
      · rw [if_pos hstatus]
        refine herror (fun ht => ?_) _
        obtain ⟨res', configuration, heq, hlt, -⟩ := hreply ht
        cases heq
        omega
      · rw [if_neg hstatus]
        refine .perform trivial fun read hread => ?_
        cases read with
        | error e => exact herror (fun ht => nomatch hread ht) e
        | ok u =>
          cases hbody : res.body with
          | none =>
            refine herror (fun ht => ?_) _
            obtain ⟨res', configuration, heq, -, hsome, -⟩ := hreply ht
            cases heq
            simp [hbody] at hsome
          | some configuration =>
            have hstrings : Trusted o marks → ∀ value ∈ REQUIRED_METADATA,
                (configuration.field value).asString?.isSome := by
              intro ht
              obtain ⟨res', configuration', heq, -, hsome, hstrings⟩ := hreply ht
              cases heq
              cases hbody.symm.trans hsome
              exact hstrings
            dsimp only [pure, Body.bind]
            by_cases hmissing : (REQUIRED_METADATA.filter fun value =>
                isUndefined (configuration.field value)).length ≠ 0
            · rw [if_pos hmissing]
              refine herror (fun ht => hmissing ?_) _
              rw [filter_isUndefined_eq_nil (hstrings ht)]
              rfl
            · rw [if_neg hmissing]
              by_cases hnoString : (REQUIRED_METADATA.filter fun value =>
                  (configuration.field value).asString?.isNone).length ≠ 0
              · rw [if_pos hnoString]
                refine herror (fun ht => hnoString ?_) _
                rw [filter_noString_eq_nil (hstrings ht)]
                rfl
              · rw [if_neg hnoString]
                exact .act trivial fun _ => hok _

theorem obeys_fetchUmaConfig {issuer : String} {f : UmaConfig → Method (Option String)}
    (h : ∀ config, Obeys o true d (f config)) :
    Obeys o true d (fetchUmaConfig issuer >>= f) := by
  rw [Body.bind_eq_handle]
  exact obeys_fetchUmaConfig_handle h fun hfails e => .throws_of_marks hfails

/-! ## The PAT -/

theorem obeys_destructure {body : Json} {f : Unit → Method (Option String)}
    (hbody : Trusted o true → isNullish body = false)
    (h : Obeys o true d (f ())) : Obeys o true d (destructure body >>= f) := by
  unfold destructure
  by_cases hnullish : isNullish body = true
  · rw [if_pos hnullish]
    refine .throws_of_marks fun ht => ?_
    rw [hbody ht] at hnullish
    cases hnullish
  · rw [if_neg hnullish]
    exact h

theorem getPat_obeys {issuer credentials : String} :
    Obeys o true {} (getPat issuer credentials) := by
  refine .act trivial fun cached => ?_
  cases cached with
  | some pat => exact obeys_pure blank_empty
  | none =>
    refine obeys_enter rfl ?_ ?_
    · refine obeys_once (obeys_return_await (.free .getPat rfl) (fun _ => rfl)
        fun id => ⟨rfl, rfl, rfl⟩)
    · refine obeys_fetchUmaConfig fun config => obeys_tick ?_
      refine obeys_fetch trivial fun response hresponse => ?_
      by_cases hstatus : response.status ≠ 201
      · rw [if_pos hstatus]
        refine obeys_text fun message => .throws_of_marks ?_
        intro ht
        obtain ⟨res, body, heq, h201, -⟩ := hresponse ht
        cases heq
        exact hstatus h201
      · rw [if_neg hstatus]
        refine obeys_json ?_ fun body hbody => ?_
        · intro ht hnone
          obtain ⟨res, body, heq, -, hsome, -⟩ := hresponse ht
          cases heq
          simp [hnone] at hsome
        · refine obeys_destructure ?_ ?_
          · intro ht
            obtain ⟨res, body', heq, -, hsome, hnullish⟩ := hresponse ht
            cases heq
            cases hbody.symm.trans hsome
            exact hnullish
          · refine .act trivial fun _ => ?_
            exact obeys_leave (h := { signal := .PAT_EVENT }) rfl nofun (obeys_pure ⟨rfl, rfl, rfl⟩)

theorem obeys_awaitPat {issuer credentials : String} {f : String → Method (Option String)}
    (howes : d.owes = []) (h : ∀ pat, Obeys o true d (f pat)) :
    Obeys o true d (awaitPat issuer credentials >>= f) := by
  have hd : { d with owes := [] } = d := by rw [← howes]
  unfold awaitPat
  rw [Body.bind_assoc]
  refine obeys_await (.free .getPat rfl) (fun id => by rw [howes]) fun id value => ?_
  show Obeys o true { d with owes := [] } _
  rw [hd]
  exact h _

/-! ## Registering resources -/

theorem registerAfterParent_obeys {parent path issuer credentials : String}
    (hregisters : o.registers path issuer) : Obeys o true { debt := some path }
      (registerAfterParent parent path issuer credentials) :=
  obeys_once (obeys_return_await (.pass hregisters rfl) (fun _ => rfl) fun _ => ⟨rfl, rfl, rfl⟩)

/-- The duties of a registration while it deals with the parent. -/
structure Relating (d : Duties) (path : String) (knownUmaId : Option String) (h : Hold)
    (debt : Option String) : Prop where
  hold : d.hold = some h
  signal : h.signal = .resource path
  learned : h.phase = if knownUmaId.isSome then .known else .absent
  own : h.own = true
  debt : d.debt = debt
  known : ∀ id, knownUmaId = some id → (path, id) ∈ d.links

theorem Relating.not_entered {path : String} {knownUmaId : Option String} {h : Hold}
    {debt : Option String} (hd : Relating d path knownUmaId h debt) : h.phase ≠ .entered := by
  rw [hd.learned]
  split <;> decide

theorem Relating.learned_of {path : String} {knownUmaId : Option String} {h : Hold}
    {debt : Option String} (hd : Relating d path knownUmaId h debt) (other : String)
    (id : Option String) : Relating (d.learned other id) path knownUmaId h debt where
  hold := by simp [Duties.learned, hd.hold, hd.not_entered]
  signal := hd.signal
  learned := hd.learned
  own := hd.own
  debt := hd.debt
  known umaId hid := List.mem_append_right _ (hd.known umaId hid)

/-- Relations to send, and calls to wait for. -/
structure Prepared (setting : ClientSetting) (d : Duties) (path : String)
    (knownUmaId : Option String) (debt : Option String) (relations : Option Json)
    (promises : List Nat) : Prop where
  relating : ∃ h, Relating d path knownUmaId h debt ∧
    ∀ request : ResourceRequest, request.path = path →
      request.description.resourceRelations = relations → Related setting d h request
  promises : ∀ i, i ∈ promises ↔ i ∈ d.owes

theorem obeys_relateToParent {path issuer credentials : String} {knownUmaId : Option String}
    {h : Hold} {debt : Option String} {f : Option Json × List Nat → Method (Option String)}
    (hregisters : o.registers path issuer) (hd : Relating d path knownUmaId h debt)
    (howes : d.owes = [])
    (hnext : ∀ d' relations promises, Prepared setting d' path knownUmaId debt relations promises →
      Obeys o true d' (f (relations, promises))) :
    Obeys o true d (relateToParent setting path issuer credentials >>= f) := by
  unfold relateToParent
  by_cases hroot : setting.isRootContainer path = true
  · rw [if_pos hroot]
    refine hnext d none [] ⟨⟨h, hd, ?_⟩, by simp [howes]⟩
    intro request hpath hrelations
    rw [Related, hrelations]
    exact .inl (hpath ▸ hroot)
  · rw [if_neg hroot]
    dsimp only [pure, bind, Body.bind]
    refine .perform trivial fun reply hreply => ?_
    cases reply with
    | error e => exact .throws_of_marks fun ht => by simpa [Succeeds] using hreply ht
    | ok id =>
      have hread := hd.learned_of (setting.getParentContainer path) id
      dsimp only [Body.bind]
      cases hid : truthy id with
      | some parentId =>
        refine hnext (d.learned (setting.getParentContainer path) id)
          (some (containedIn parentId)) [] ⟨⟨h, hread, ?_⟩, by simp [Duties.learned, howes]⟩
        intro request hpath hrelations
        rw [Related, hrelations]
        refine ⟨?_, parentId, rfl, by simp [Duties.learned, hid, hpath]⟩
        rw [hpath]
        simpa using hroot
      | none =>
        -- the update comes after the event of the parent
        have hbacked : ∀ d' : Duties, d'.hold = some { h with backed := true } → d'.debt = debt →
            d'.links = (d.learned (setting.getParentContainer path) id).links →
            ∀ promises, (∀ i, i ∈ promises ↔ i ∈ d'.owes) →
              Prepared setting d' path knownUmaId debt none promises := by
          intro d' hhold hdebt hlinks promises hpromises
          refine ⟨⟨{ h with backed := true }, ⟨hhold, hd.signal, hd.learned, hd.own, hdebt, ?_⟩, ?_⟩,
            hpromises⟩
          · rw [hlinks]
            exact hread.known
          intro request _ hrelations
          rw [Related, hrelations]
          exact .inr rfl
        refine .start (.follow hregisters hread.hold hd.signal) fun update => .act ?_ fun found => ?_
        · trivial
        cases found with
        | true =>
          refine hnext _ none [update] (hbacked _ rfl ?_ ?_ _ fun i => ?_)
          · exact hread.debt
          · rfl
          · show i ∈ [update] ↔ i ∈ update :: d.owes
            rw [howes]
        | false =>
          have hparent := o.parent path issuer hregisters (by simpa using hroot)
          refine .start (.free (.registerResource hparent (.inl rfl)) rfl) fun registration => ?_
          refine hnext _ none [update, registration] (hbacked _ rfl ?_ ?_ _ fun i => ?_)
          · exact hread.debt
          · rfl
          · show i ∈ [update, registration] ↔ i ∈ registration :: update :: d.owes
            simp [howes, or_comm]

theorem sendRegistration_obeys {request : ResourceRequest} {h : Hold}
    (hmay : MayRegister o d h request) (howes : d.owes = [])
    (hdebt : d.debt = none ∨ d.debt = some request.path) :
    Obeys o true d (sendRegistration request) := by
  have hpaid : (d.sent (.fetch (.resource request))).debt = none := by
    rcases hdebt with hdebt | hdebt <;> simp [sent, hdebt]
  refine obeys_fetch ⟨h, hmay⟩ fun res hres => ?_
  by_cases hupdate : request.update = true
  · rw [if_pos hupdate]
    by_cases hstatus : res.status ≠ 200
    · rw [if_pos hstatus]
      refine obeys_text fun message => .throws_of_marks ?_
      intro ht
      obtain ⟨res', heq, h200⟩ := hres ht
      cases heq
      rw [if_pos hupdate] at h200
      exact hstatus h200
    · rw [if_neg hstatus]
      have hhold : (d.sent (.fetch (.resource request))).hold = some h := by
        simp [sent, hupdate, hmay.hold]
      have hphase : h.phase ≠ .posting := by
        rw [hmay.phase, if_pos hupdate]
        decide
      refine .act ⟨h, hhold, hmay.signal, hphase⟩ fun _ => .emit (obeys_pure ⟨rfl, howes, hpaid⟩)
  · rw [if_neg hupdate]
    have hposted : Trusted o true → res.status = 201 ∧ ∃ body umaId, res.body = some body ∧
        isNullish body = false ∧ (body.field "_id").asString? = some umaId ∧
          (o.identified → o.valid request.path umaId) := by
      intro ht
      obtain ⟨res', heq, hposted⟩ := hres ht
      cases heq
      rwa [if_neg hupdate] at hposted
    by_cases hstatus : res.status ≠ 201
    · rw [if_pos hstatus]
      refine obeys_text fun message => .throws_of_marks ?_
      exact fun ht => hstatus (hposted ht).1
    · rw [if_neg hstatus]
      refine obeys_json ?_ fun body hbody => ?_
      · intro ht hnone
        obtain ⟨-, body, umaId, hsome, -⟩ := hposted ht
        simp [hnone] at hsome
      · have hread : Trusted o true → isNullish body = false ∧
            ∃ umaId, (body.field "_id").asString? = some umaId ∧
              (o.identified → o.valid request.path umaId) := by
          intro ht
          obtain ⟨-, body', umaId, hsome, hnullish, hid⟩ := hposted ht
          cases hbody.symm.trans hsome
          exact ⟨hnullish, umaId, hid⟩
        refine obeys_destructure (fun ht => (hread ht).1) ?_
        cases hid : (body.field "_id").asString? with
        | none =>
          refine .throws_of_marks fun ht => ?_
          obtain ⟨-, umaId, hsome, -⟩ := hread ht
          simp [hid] at hsome
        | some umaId =>
          have hhold : (d.sent (.fetch (.resource request))).hold =
              some { h with phase := .posting } := by simp [sent, hupdate, hmay.hold]
          have hvalid : o.identified → o.valid request.path umaId := by
            intro ho
            obtain ⟨-, umaId', hsome, hvalid⟩ := hread ⟨o.reliable_of_identified ho, rfl⟩
            cases hid.symm.trans hsome
            exact hvalid ho
          refine .perform ⟨rfl, _, hhold, hmay.signal, rfl, hvalid⟩ fun reply hreply => ?_
          cases reply with
          | error e => exact .throws_of_marks fun ht => nomatch hreply ht
          | ok u =>
            refine .act ⟨{ h with phase := .known }, ?_, hmay.signal, nofun⟩ fun _ =>
              .emit (obeys_pure ⟨rfl, howes, hpaid⟩)
            show Option.map _ (d.sent (.fetch (.resource request))).hold = _
            rw [hhold]
            rfl

theorem registerResource_obeys {path issuer credentials : String} {debt : Option String}
    (hregisters : o.registers path issuer) (hdebt : debt = none ∨ debt = some path) :
    Obeys o true { debt } (registerResource setting path issuer credentials) := by
  refine obeys_enter rfl (obeys_once ?_) ?_
  · rcases hdebt with rfl | rfl
    · exact obeys_return_await (.free (.registerResource hregisters (.inl rfl)) rfl) (fun _ => rfl)
        fun _ => ⟨rfl, rfl, rfl⟩
    · exact obeys_return_await (.pass hregisters rfl) (fun _ => rfl) fun _ => ⟨rfl, rfl, rfl⟩
  · refine obeys_fetchUmaConfig fun config => obeys_tick ?_
    refine obeys_getId fun id => obeys_awaitPat rfl fun pat => ?_
    -- the phase says whether an id is known
    have hrelating : Relating (Duties.learned { hold := some { signal := .resource path }, debt } path
        id) path (truthy id) ⟨.resource path, if (truthy id).isSome then .known else .absent, false,
          true⟩ debt := by
      refine ⟨by simp [Duties.learned], rfl, rfl, rfl, rfl, fun umaId hid => ?_⟩
      simp [Duties.learned, hid]
    refine obeys_relateToParent hregisters hrelating rfl fun d' relations promises hprepared => ?_
    obtain ⟨h, hd', hrelated⟩ := hprepared.relating
    refine .start (.send (h := h) ⟨hd'.hold, hd'.signal, hd'.learned, hrelated _ rfl rfl, hregisters,
      hd'.known, rfl⟩ hd'.own ?_) fun fetchPromise => ?_
    · rw [hd'.debt]
      exact hdebt
    · refine .all (fun i => ?_) (fun values => obeys_pure ⟨rfl, rfl, rfl⟩) fun ho e => ?_
      · simp [hprepared.promises i, or_comm]
      · exact .throws (fun ht => ho ht.1) fun ho' => absurd ho' ho

/-! ## Calls without duties

`deleteResource` and `fetchTicket` may fail, and have no duties where they
can: whatever goes on after one of their parts has none either.
-/

/-- A part of a call that is without duties before and after it. -/
def Quiet {setting : ClientSetting} (o : Outcomes setting) {α : Type} (p : Method α) : Prop :=
  ∀ k : Except HttpError α → Method (Option String),
    (∀ result d, Blank d → Obeys o false d (k result)) →
      ∀ d, Blank d → Obeys o false d (p.handle k)

theorem Quiet.obeys {p : Method (Option String)} (hp : Quiet o p) (hd : Blank d) :
    Obeys o false d p := by
  rw [← Body.handle_done p]
  refine hp _ (fun result d hd => ?_) d hd
  cases result with
  | ok value => exact .returns hd
  | error e => exact .throws (fun ht => nomatch ht.2) fun _ => hd

section

variable {α β : Type}

theorem quiet_done {result : Except HttpError α} : Quiet o (.done result) :=
  fun _ hk d hd => hk result d hd

theorem Quiet.bind {p : Method α} {f : α → Method β} (hp : Quiet o p)
    (hf : ∀ a, Quiet o (f a)) : Quiet o (p >>= f) := by
  intro k hk d hd
  rw [Body.bind_eq_handle, Body.handle_handle]
  refine hp _ (fun result d hd => ?_) d hd
  cases result with
  | ok a => exact hf a k hk d hd
  | error e => exact hk (.error e) d hd

theorem Quiet.map {p : Method α} (f : α → β) (hp : Quiet o p) :
    Quiet o (f <$> p) := hp.bind fun _ => quiet_done

theorem Quiet.tryCatch {p : Method α} {handler : HttpError → Method α} (hp : Quiet o p)
    (hhandler : ∀ e, Quiet o (handler e)) : Quiet o (p.tryCatch handler) := by
  intro k hk d hd
  rw [Body.tryCatch_eq_handle, Body.handle_handle]
  refine hp _ (fun result d hd => ?_) d hd
  cases result with
  | ok a => exact hk (.ok a) d hd
  | error e => exact hhandler e k hk d hd

theorem Quiet.ite {c : Prop} [Decidable c] {p q : Method α} (hp : Quiet o p)
    (hq : Quiet o q) : Quiet o (if c then p else q) := by
  by_cases hc : c
  · rw [if_pos hc]
    exact hp
  · rw [if_neg hc]
    exact hq

/-- An operation that needs no duty and changes none. -/
theorem quiet_perform {op : Op} {result : OpReply op → Except HttpError α}
    (hready : ∀ d, Ready o false d op)
    (hblank : ∀ d reply, Blank d → Blank ((d.sent op).answered op reply)) :
    Quiet o (Body.perform (P := platform) op fun reply => .done (result reply)) :=
  fun _ hk d hd => .perform (hready d) fun reply _ => hk _ _ (hblank d reply hd)

theorem Duties.Blank.learned_of (hd : Blank d) (path : String) (id : Option String) :
    Blank (d.learned path id) where
  hold := by simp [Duties.learned, hd.hold]
  owes := hd.owes
  debt := hd.debt

theorem quiet_getId {path : String} : Quiet o (getId path) := by
  refine quiet_perform (fun _ => trivial) fun d reply hd => ?_
  cases reply with
  | ok id => exact hd.learned_of path id
  | error e => exact hd

theorem quiet_hasResource {path : String} : Quiet o (hasResource path) :=
  quiet_perform (fun _ => trivial) fun _ _ hd => hd

theorem quiet_tick : Quiet o tick := quiet_perform (fun _ => trivial) fun _ _ hd => hd

theorem quiet_json {response : Response} : Quiet o (json response) := by
  intro k hk d hd
  refine .perform trivial fun reply _ => ?_
  cases reply with
  | error e => exact hk _ _ hd
  | ok u => cases response.body <;> exact hk _ _ hd

theorem quiet_isInProgress {signal : Signal} : Quiet o (isInProgress signal) :=
  fun _ hk d hd => .act trivial fun reply => hk (.ok reply) d hd

theorem quiet_onceOrTimeout {signal : Signal} {e : HttpError} :
    Quiet o (onceOrTimeout signal e) :=
  fun _ hk d hd => .once (hk _ d hd) fun e' _ => hk (.error e') d hd

theorem quiet_await {call : Call} (hdeclared : Declared o call {})
    (hmarks : call.marks = true) : Quiet o (Body.await (P := platform) call) := by
  intro k hk d hd
  refine .start (.free hdeclared hmarks) fun id => .all (fun i => by rw [hd.owes])
    (fun values => ?_) fun _ e => ?_
  · exact hk _ _ ⟨hd.hold, rfl, hd.debt⟩
  · exact hk _ _ ⟨hd.hold, rfl, hd.debt⟩

end

theorem quiet_fetchUmaConfig {issuer : String} : Quiet o (fetchUmaConfig issuer) :=
  fun _ hk d hd => obeys_fetchUmaConfig_handle (fun config => hk (.ok config) d hd)
    fun _ e => hk (.error e) d hd

theorem quiet_awaitPat {issuer credentials : String} :
    Quiet o (awaitPat issuer credentials) :=
  (quiet_await .getPat rfl).bind fun _ => quiet_done

theorem deleteResource_quiet {path issuer credentials : String} :
    Quiet o (deleteResource setting path issuer credentials) := by
  refine quiet_fetchUmaConfig.bind fun config => quiet_tick.bind fun _ => quiet_getId.bind fun id => ?_
  cases truthy id with
  | none => exact quiet_done
  | some umaId =>
    refine quiet_awaitPat.bind fun pat => .bind ?_ fun _ => quiet_done
    exact quiet_perform (fun _ => trivial) fun _ _ hd => hd

/-- The target is registered now, unless its id is known. -/
theorem registered_quiet {target issuer credentials : String}
    (hregisters : o.registers target issuer) {answer : Option String → Method String}
    (hanswer : ∀ known, Quiet o (answer known)) (known : Option String) : Quiet o (do
      let known ←
        if known.isNone then do
          if ← hasResource target then
            let _ ← Body.await (P := platform) (.registerResource target issuer credentials)
            truthy <$> getId target
          else throw .notFound
        else pure known
      answer known) := by
  have hread : Quiet o (truthy <$> getId target) := quiet_getId.map truthy
  refine .ite (quiet_hasResource.bind fun found => .ite ?_ ?_) (quiet_done.bind hanswer)
  · exact (quiet_await (.registerResource hregisters (.inl rfl)) rfl).bind fun _ => hread.bind hanswer
  · exact quiet_done.bind hanswer

theorem ticketId_quiet {target issuer credentials : String}
    (hregisters : o.registers target issuer) : Quiet o (ticketId target issuer credentials) := by
  have hread : Quiet o (truthy <$> getId target) := quiet_getId.map truthy
  refine quiet_getId.bind fun id => .ite
    (quiet_isInProgress.bind fun waits => .ite
      (quiet_onceOrTimeout.bind fun _ => hread.bind (registered_quiet hregisters ?_))
      (quiet_done.bind (registered_quiet hregisters ?_)))
    (quiet_done.bind fun waits => .ite
      (quiet_onceOrTimeout.bind fun _ => hread.bind (registered_quiet hregisters ?_))
      (quiet_done.bind (registered_quiet hregisters ?_)))
  -- What is left is the answer, whether or not the id is known.
  all_goals rintro (_ | umaId) <;> exact quiet_done

theorem ticketEntries_quiet {issuer credentials : String} (permissions : List (String × List String))
    (hregisters : ∀ entry ∈ permissions, o.registers entry.1 issuer) :
    Quiet o (ticketEntries setting issuer credentials permissions) := by
  induction permissions with
  | nil => exact quiet_done
  | cons permission permissions ih =>
    have hfirst : Quiet o (ticketId permission.1 issuer credentials) :=
      ticketId_quiet (hregisters _ List.mem_cons_self)
    have hrest := ih fun entry hentry => hregisters entry (List.mem_cons_of_mem _ hentry)
    exact hfirst.bind fun _ => quiet_done.bind fun _ => hrest.bind fun _ => quiet_done

theorem fetchTicket_quiet {permissions : List (String × List String)}
    {issuer credentials : String} (hregisters : ∀ entry ∈ permissions, o.registers entry.1 issuer) :
    Quiet o (fetchTicket setting permissions issuer credentials) := by
  refine ((quiet_fetchUmaConfig.map _).tryCatch fun e => quiet_done).bind fun endpoint => ?_
  refine quiet_tick.bind fun _ => (ticketEntries_quiet permissions hregisters).bind fun body => ?_
  refine quiet_awaitPat.bind fun pat => .bind ?_ fun response => .ite quiet_done (.ite quiet_done ?_)
  · exact quiet_perform (fun _ => trivial) fun _ _ hd => hd
  · refine quiet_json.bind fun answer => .bind (.ite quiet_done quiet_done) fun _ => ?_
    cases truthy (answer.field "ticket").asString? <;> exact quiet_done

/-! ## All calls -/

theorem program_obeys {call : Call} (h : Declared o call d) :
    Obeys o call.marks d (program setting call) := by
  cases h with
  | getPat => exact getPat_obeys
  | fetchTicket hregisters => exact (fetchTicket_quiet hregisters).obeys blank_empty
  | deleteResource => exact deleteResource_quiet.obeys blank_empty
  | registerResource hregisters hdebt => exact registerResource_obeys hregisters hdebt
  | registerAfterParent hregisters => exact registerAfterParent_obeys hregisters
  | sendRegistration hmay howes hdebt => exact sendRegistration_obeys hmay howes hdebt

end UserManagedAccess.Css.UmaClient
