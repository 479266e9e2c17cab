/-
UserManagedAccess.Css.DeploymentTheorems — when the ids of the client are
those its servers have registered.

A deployment is a client and its servers, step by step: a request that the
client sends is handled by its server up to the next pause, in between any other
step, and the answer goes back later. `InOrder` is what holds of ids, requests
and registrations at any time; `Aligned` adds the ledger of the client, which
tells what its calls still ask for. `aligned_step` keeps both, by cases on who
moves: the client asks or is answered, or a server goes on with a request.

* `InOrder.accepted` — what the client sends is accepted, whatever else the
  server does;
* `aligned_of_reachable` — the invariant, in every run;
* `ids_agree` — the two agree whenever all calls are finished;
* `ids_disagree` — a deletion leaves the id, and the next issuer refuses it.

`ids_agree` is about runs in which no request fails on its way, each resource has
one issuer, and nothing is deleted that is registered. How the requests overlap
is not restricted.
-/
import UserManagedAccess.Css.Deployment

namespace UserManagedAccess.Css.UmaClient.Deployment

open UserManagedAccess.Lib UserManagedAccess.Util UserManagedAccess.Views
open UserManagedAccess.Routes UserManagedAccess.Routes.ResourceRegistrationRequestHandler

variable {setting : DeploymentSetting} {homes : Homes setting.client}

/-- Nothing fails, and a resource is registered with its issuer. -/
def Homes.outcomes (homes : Homes setting.client) : Outcomes setting.client where
  reliable := True
  identified := True
  valid path id := id = path ∧ path ≠ ""
  registers path issuer := issuer = homes.home path ∧ path ≠ ""
  reliable_of_identified _ := trivial
  ne_of_valid path id h := h.1 ▸ h.2
  parent path issuer h hroot := by
    refine ⟨h.1.trans (homes.parent path hroot).symm, fun hempty => ?_⟩
    have hcontainer := homes.container path hroot
    rw [hempty] at hcontainer
    cases hcontainer

/-! ## What is in order -/

/-- A request for the path waits for its answer. -/
def Awaiting (awaits : Nat → Option Op) (i : Nat) (path : String) : Prop :=
  ∃ request : ResourceRequest, awaits i = some (.fetch (.resource request)) ∧ request.path = path

def Exclusively (awaits : Nat → Option Op) : Prop :=
  ∀ i j path, Awaiting awaits i path → Awaiting awaits j path → i = j

/-- The client has asked for an id. -/
def Requested (requests : List ResourceRequest) (path : String) : Prop :=
  requests.filter (Ledger.isPost path) ≠ []

def Present (homes : Homes setting.client) (servers : String → ServerState) (path : String) : Prop :=
  (servers (homes.home path)).registrationStore.get path ≠ none

/-- What is left of a request will be accepted. -/
def Acceptable (setting : DeploymentSetting) (servers : String → ServerState)
    (request : ResourceRequest) (job : Job) : Prop :=
  ∀ t, Spares request.path (servers request.issuer) t →
    PathSteps (setting.client.getParentContainer request.path) (setting.owner request.path)
      request.path (if request.update then 200 else 201) true job t

structure InOrder (setting : DeploymentSetting) (homes : Homes setting.client)
    (ids : String → Option String) (requests : List ResourceRequest) (awaits : Nat → Option Op)
    (jobs : Nat → Option Job) (servers : String → ServerState) : Prop where
  homed : ∀ request ∈ requests, request.issuer = homes.home request.path ∧ request.path ≠ ""
  registered : ∀ issuer path registration,
    (servers issuer).registrationStore.get path = some registration →
      issuer = homes.home path ∧ Requested requests path ∧
        Rightly (setting.client.getParentContainer path) (setting.owner path) path registration
          (servers issuer)
  stored : ∀ path id, ids path = some id → id = path ∧ Present homes servers path
  answered : ∀ path, Requested requests path →
    Present homes servers path ∨ ∃ i, Awaiting awaits i path
  sent : ∀ i request, awaits i = some (.fetch (.resource request)) → request ∈ requests ∧
    Requested requests request.path ∧
      ∃ job, jobs i = some job ∧ Acceptable setting servers request job
  deletes : ∀ i issuer id url pat, awaits i = some (.fetch (.unregister issuer id url pat)) →
    ∃ job, jobs i = some job ∧
      (job = Deployment.job setting i ⟨issuer, id, deletion id⟩ ∨ job.isDone = true)

section

variable {ids : String → Option String} {requests : List ResourceRequest}
  {awaits : Nat → Option Op} {jobs : Nat → Option Job} {servers : String → ServerState}

/-! ## Steps of a server -/

theorem resume_getRegistration (id : String)
    (f : Option Registration → Async ServerState HttpError HttpHandlerResponse) (s : ServerState) :
    (getRegistration id >>= f).resume s = (f (s.registrationStore.get id), s) := rfl

theorem resume_deletion (env : RegistrationEnvironment) (n : Nat) (owner : String) {id : String}
    {s : ServerState} (h : s.registrationStore.get id = none) :
    (respond env n (deletion id) owner).resume s = (.done (.error .notFound), s) := by
  have hrespond : respond env n (deletion id) owner = handleDelete (deletion id) owner := by
    simp [respond, deletion]
  have hid : (deletion id).parameters.get "id" = some id := by simp [deletion, Dict.get]
  rw [hrespond]
  unfold handleDelete
  rw [hid]
  refine (resume_getRegistration id _ s).trans ?_
  rw [h]
  rfl

theorem accepts_stable {path : String} {status : Nat} (ready : Bool)
    (r : Except HttpError HttpHandlerResponse) (t u : ServerState) (h : Spares path t u)
    (haccepts : Accepts path status ready r t) : Accepts path status true r u :=
  ⟨haccepts.1, h.registration ▸ haccepts.2⟩

/-- What a step of a registration changes. -/
structure Advances (setting : DeploymentSetting) (request : ResourceRequest)
    (servers servers' : String → ServerState) : Prop where
  spares : ∀ issuer path, issuer ≠ request.issuer ∨ path ≠ request.path →
    Spares path (servers issuer) (servers' issuer)
  collects : ∀ issuer id, Collects (servers issuer).policies id →
    Collects (servers' issuer).policies id
  own : (servers' request.issuer).registrationStore.get request.path =
      (servers request.issuer).registrationStore.get request.path ∨
    ∃ registration, (servers' request.issuer).registrationStore.get request.path =
        some registration ∧
      Rightly (setting.client.getParentContainer request.path) (setting.owner request.path)
        request.path registration (servers' request.issuer)

theorem advances_of_serves {request : ResourceRequest} {update : ServerState → ServerState}
    (h : Serves (setting.client.getParentContainer request.path) (setting.owner request.path)
      request.path update (servers request.issuer)) :
    Advances setting request servers
      (Function.update servers request.issuer (update (servers request.issuer))) where
  spares issuer path hother := by
    by_cases hissuer : issuer = request.issuer
    · subst hissuer
      rw [Function.update_self]
      exact h.spares path (hother.resolve_left (not_not_intro rfl))
    · rw [Function.update_of_ne hissuer]
      exact .refl path _
  collects issuer id hid := by
    by_cases hissuer : issuer = request.issuer
    · subst hissuer
      rw [Function.update_self]
      exact h.collects id hid
    · rwa [Function.update_of_ne hissuer]
  own := by
    rw [Function.update_self]
    exact h.own

section

variable {request : ResourceRequest} {servers' : String → ServerState}

/-- What is registered stays. -/
theorem Advances.keeps (h : Advances setting request servers servers') {issuer path : String}
    (hpath : (servers issuer).registrationStore.get path ≠ none) :
    (servers' issuer).registrationStore.get path ≠ none := by
  by_cases hother : issuer ≠ request.issuer ∨ path ≠ request.path
  · rwa [(h.spares issuer path hother).registration]
  · obtain ⟨rfl, rfl⟩ : issuer = request.issuer ∧ path = request.path := by simpa using hother
    rcases h.own with hsame | ⟨registration, hregistration, -⟩
    · rwa [hsame]
    · rw [hregistration]
      exact Option.some_ne_none _

/-- What is registered was before, or is what the request is about. -/
theorem Advances.registered (h : Advances setting request servers servers') {issuer path : String}
    {registration : Registration}
    (hregistration : (servers' issuer).registrationStore.get path = some registration) :
    (servers issuer).registrationStore.get path = some registration ∨
      issuer = request.issuer ∧ path = request.path ∧
        Rightly (setting.client.getParentContainer path) (setting.owner path) path registration
          (servers' issuer) := by
  by_cases hother : issuer ≠ request.issuer ∨ path ≠ request.path
  · exact .inl ((h.spares issuer path hother).registration ▸ hregistration)
  · obtain ⟨rfl, rfl⟩ : issuer = request.issuer ∧ path = request.path := by simpa using hother
    rcases h.own with hsame | ⟨registration', hregistration', hrightly⟩
    · exact .inl (hsame ▸ hregistration)
    · cases hregistration.symm.trans hregistration'
      exact .inr ⟨rfl, rfl, hrightly⟩

/-- What is left of another request is accepted still. -/
theorem Advances.acceptable (h : Advances setting request servers servers')
    {other : ResourceRequest} {job : Job} (hpath : other.path ≠ request.path)
    (hjob : Acceptable setting servers other job) : Acceptable setting servers' other job :=
  fun t ht => hjob t ((h.spares other.issuer other.path (.inr hpath)).trans ht)

end

/-- A registration is handled up to its next pause. -/
theorem InOrder.serve_resource (h : InOrder setting homes ids requests awaits jobs servers)
    (hone : Exclusively awaits) {i : Nat} {request : ResourceRequest} {job : Job}
    (hwait : awaits i = some (.fetch (.resource request))) (hjob : jobs i = some job) :
    InOrder setting homes ids requests awaits
      (Function.update jobs i (some (job.resume (servers request.issuer)).1))
      (Function.update servers request.issuer (job.resume (servers request.issuer)).2) := by
  obtain ⟨hmem, hrequested, job', hjob', hsteps⟩ := h.sent i request hwait
  cases hjob.symm.trans hjob'
  obtain ⟨hserves, hstate, hrest⟩ := (hsteps _ (.refl _ _)).resume .id accepts_stable
  have hadvances := advances_of_serves hserves
  rw [hstate]
  refine ⟨h.homed, fun issuer path registration hregistration => ?_, fun path id hid => ?_,
    fun path hpath => (h.answered path hpath).imp_left hadvances.keeps, fun j other hj => ?_,
    fun j issuer id url pat hj => ?_⟩
  · rcases hadvances.registered hregistration with hold | ⟨rfl, rfl, hrightly⟩
    · obtain ⟨hhome, hrequested', hrightly⟩ := h.registered issuer path registration hold
      exact ⟨hhome, hrequested', hrightly.mono (hadvances.collects issuer)⟩
    · exact ⟨(h.homed request hmem).1, hrequested, hrightly⟩
  · exact ⟨(h.stored path id hid).1, hadvances.keeps (h.stored path id hid).2⟩
  · by_cases hji : j = i
    · subst hji
      cases hwait.symm.trans hj
      refine ⟨hmem, hrequested, _, Function.update_self .., fun t ht => ?_⟩
      rw [Function.update_self] at ht
      exact hrest t ht
    · obtain ⟨hmem', hrequested', job', hjob', hacceptable⟩ := h.sent j other hj
      refine ⟨hmem', hrequested', job', (Function.update_of_ne hji ..).trans hjob', ?_⟩
      refine hadvances.acceptable (fun hpath => hji ?_) hacceptable
      exact hone j i request.path ⟨other, hj, hpath⟩ ⟨request, hwait, rfl⟩
  · have hji : j ≠ i := by
      rintro rfl
      cases hwait.symm.trans hj
    rw [Function.update_of_ne hji]
    exact h.deletes j issuer id url pat hj

/-- A DELETE that finds nothing is refused. -/
theorem InOrder.serve_unregister (h : InOrder setting homes ids requests awaits jobs servers)
    {i : Nat} {issuer id url pat : String} {job : Job}
    (hwait : awaits i = some (.fetch (.unregister issuer id url pat))) (hjob : jobs i = some job)
    (hnothing : job.isDone = false → (servers issuer).registrationStore.get id = none) :
    InOrder setting homes ids requests awaits
      (Function.update jobs i (some (job.resume (servers issuer)).1))
      (Function.update servers issuer (job.resume (servers issuer)).2) := by
  obtain ⟨job', hjob', hshape⟩ := h.deletes i issuer id url pat hwait
  cases hjob.symm.trans hjob'
  have hresume : (job.resume (servers issuer)).1.isDone = true ∧
      (job.resume (servers issuer)).2 = servers issuer := by
    cases hdone : job.isDone with
    | true =>
      obtain ⟨r, rfl⟩ := Async.exists_of_isDone hdone
      exact ⟨rfl, rfl⟩
    | false =>
      rcases hshape with rfl | hdone'
      · have hresume := resume_deletion setting.environment i (setting.owner id) (hnothing hdone)
        exact ⟨by rw [Deployment.job, hresume]; rfl, by rw [Deployment.job, hresume]⟩
      · rw [hdone] at hdone'
        cases hdone'
  rw [hresume.2, Function.update_eq_self]
  refine ⟨h.homed, h.registered, h.stored, h.answered, fun j other hj => ?_,
    fun j issuer' id' url' pat' hj => ?_⟩
  · have hji : j ≠ i := by
      rintro rfl
      cases hwait.symm.trans hj
    rw [Function.update_of_ne hji]
    exact h.sent j other hj
  · by_cases hji : j = i
    · subst hji
      exact ⟨_, Function.update_self .., .inr hresume.1⟩
    · rw [Function.update_of_ne hji]
      exact h.deletes j issuer' id' url' pat' hj

/-! ## Steps of the client -/

theorem requested_append {path : String} {request : ResourceRequest}
    (h : Requested requests path) : Requested (requests ++ [request]) path := by
  rw [Requested, List.filter_append]
  exact List.append_ne_nil_of_left_ne_nil h _

theorem requested_of_append {path : String} {request : ResourceRequest}
    (h : Requested (requests ++ [request]) path) : Requested requests path ∨ request.path = path := by
  by_cases hpost : Ledger.isPost path request = true
  · right
    simp only [Ledger.isPost, Bool.and_eq_true, decide_eq_true_eq] at hpost
    exact hpost.1
  · left
    have hnone : [request].filter (Ledger.isPost path) = [] := by simp [hpost]
    rwa [Requested, List.filter_append, hnone, List.append_nil] at h

/-- After one call asks for an operation, an awaited one is that, or was
awaited before. -/
theorem awaited_update {i j : Nat} {op other : Op}
    (h : Function.update awaits i (some op) j = some other) :
    (j = i ∧ op = other) ∨ (j ≠ i ∧ awaits j = some other) := by
  by_cases hji : j = i
  · subst hji
    rw [Function.update_self] at h
    exact .inl ⟨rfl, Option.some.inj h⟩
  · rw [Function.update_of_ne hji] at h
    exact .inr ⟨hji, h⟩

/-- A call sends a registration. -/
theorem InOrder.sends (h : InOrder setting homes ids requests awaits jobs servers) {i : Nat}
    {request : ResourceRequest} {job : Job} {jobs' : Nat → Option Job} (hi : awaits i = none)
    (hhome : request.issuer = homes.home request.path ∧ request.path ≠ "")
    (hrequested : Requested (requests ++ [request]) request.path)
    (hacceptable : Acceptable setting servers request job) (hjob : jobs' i = some job)
    (hjobs : ∀ j, j ≠ i → jobs' j = jobs j) :
    InOrder setting homes ids (requests ++ [request])
      (Function.update awaits i (some (.fetch (.resource request)))) jobs' servers := by
  have hold : ∀ {j op}, awaits j = some op → j ≠ i := by
    rintro j op hj rfl
    cases hi.symm.trans hj
  refine ⟨fun sent hsent => ?_, fun issuer path registration hregistration => ?_, h.stored,
    fun path hpath => ?_, fun j sent hj => ?_, fun j issuer id url pat hj => ?_⟩
  · rcases List.mem_append.mp hsent with hsent | hsent
    · exact h.homed sent hsent
    · rw [List.mem_singleton.mp hsent]
      exact hhome
  · obtain ⟨hissuer, hpath, hrightly⟩ := h.registered issuer path registration hregistration
    exact ⟨hissuer, requested_append hpath, hrightly⟩
  · rcases requested_of_append hpath with hpath | rfl
    · refine (h.answered path hpath).imp_right fun ⟨j, sent, hj, heq⟩ => ⟨j, sent, ?_, heq⟩
      rwa [Function.update_of_ne (hold hj)]
    · exact .inr ⟨i, request, Function.update_self .., rfl⟩
  · rcases awaited_update hj with ⟨rfl, hop⟩ | ⟨hji, hj⟩
    · cases hop
      exact ⟨List.mem_append_right _ List.mem_cons_self, hrequested, job, hjob, hacceptable⟩
    · obtain ⟨hmem, hpath, job', hjob', hacceptable'⟩ := h.sent j sent hj
      exact ⟨List.mem_append_left _ hmem, requested_append hpath, job', (hjobs j hji).trans hjob',
        hacceptable'⟩
  · rcases awaited_update hj with ⟨-, hop⟩ | ⟨hji, hj⟩
    · cases hop
    · rw [hjobs j hji]
      exact h.deletes j issuer id url pat hj

/-- A call asks for something else. -/
theorem InOrder.asks (h : InOrder setting homes ids requests awaits jobs servers) {i : Nat} {op : Op}
    {jobs' : Nat → Option Job} (hi : awaits i = none) (hop : op.registration? = none)
    (hdeletes : ∀ issuer id url pat, op = .fetch (.unregister issuer id url pat) →
      jobs' i = some (Deployment.job setting i ⟨issuer, id, deletion id⟩))
    (hjobs : ∀ j, j ≠ i → jobs' j = jobs j) :
    InOrder setting homes ids requests (Function.update awaits i (some op)) jobs' servers := by
  have hold : ∀ {j op}, awaits j = some op → j ≠ i := by
    rintro j op hj rfl
    cases hi.symm.trans hj
  refine ⟨h.homed, h.registered, h.stored, fun path hpath => ?_, fun j sent hj => ?_,
    fun j issuer id url pat hj => ?_⟩
  · refine (h.answered path hpath).imp_right fun ⟨j, sent, hj, heq⟩ => ⟨j, sent, ?_, heq⟩
    rwa [Function.update_of_ne (hold hj)]
  · rcases awaited_update hj with ⟨rfl, heq⟩ | ⟨hji, hj⟩
    · rw [heq] at hop
      cases hop
    · rw [hjobs j hji]
      exact h.sent j sent hj
  · rcases awaited_update hj with ⟨rfl, heq⟩ | ⟨hji, hj⟩
    · exact ⟨_, hdeletes _ _ _ _ heq, .inl rfl⟩
    · rw [hjobs j hji]
      exact h.deletes j issuer id url pat hj

/-- A call is answered. -/
theorem InOrder.answers (h : InOrder setting homes ids requests awaits jobs servers) {i : Nat}
    {ids' : String → Option String}
    (hpresent : ∀ path, Awaiting awaits i path → Present homes servers path)
    (hstored : ∀ path id, ids' path = some id → id = path ∧ Present homes servers path) :
    InOrder setting homes ids' requests (Function.update awaits i none) jobs servers := by
  refine ⟨h.homed, h.registered, hstored, fun path hpath => ?_, fun j sent hj => ?_,
    fun j issuer id url pat hj => ?_⟩
  · rcases h.answered path hpath with hpath | ⟨j, sent, hj, heq⟩
    · exact .inl hpath
    · by_cases hji : j = i
      · exact .inl (hpresent path ⟨sent, hji ▸ hj, heq⟩)
      · exact .inr ⟨j, sent, (Function.update_of_ne hji ..).trans hj, heq⟩
  · rw [Function.update_apply] at hj
    split at hj
    case isTrue => cases hj
    case isFalse => exact h.sent j sent hj
  · rw [Function.update_apply] at hj
    split at hj
    case isTrue => cases hj
    case isFalse => exact h.deletes j issuer id url pat hj

end

/-! ## Runs -/

/-- A ledger accounts for the client, and what it asks for is in order. -/
structure Aligned (setting : DeploymentSetting) (homes : Homes setting.client) (d : Deployment)
    (L : Ledger) : Prop where
  accountable : Accountable (Homes.outcomes homes) d.client L
  posted : L.Posted
  inOrder : InOrder setting homes d.client.state.umaIdStore.get (requestsOf d.client.log)
    d.client.awaits d.jobs d.servers

section

variable {d : Deployment} {L : Ledger}

theorem inFlight_of_awaiting {w : World platform} {i : Nat} {path : String}
    (h : Awaiting w.awaits i path) : InFlight w i path := by
  obtain ⟨request, hwait, hpath⟩ := h
  obtain ⟨call, next, htask⟩ := World.tasks_of_awaits hwait
  exact ⟨call, request, next, htask, hpath⟩

theorem Aligned.exclusively (h : Aligned setting homes d L) : Exclusively d.client.awaits :=
  fun i j _ hi hj => h.accountable.exclusive.unique i j _
    (held_of_inFlight h.accountable.conforms (inFlight_of_awaiting hi))
    (held_of_inFlight h.accountable.conforms (inFlight_of_awaiting hj))

theorem truthy_eq_some {id? : Option String} {id : String} (h : truthy id? = some id) :
    id? = some id := (Option.filter_eq_some_iff.mp h).1

/-- An id that a call has read is stored. -/
theorem Aligned.read (h : Aligned setting homes d L) {i : Nat} {path id : String}
    (hlink : (path, id) ∈ (L.duties i).links) : id = path ∧ Present homes d.servers path := by
  have hid := truthy_eq_some ((h.accountable.linked trivial).links i path id hlink)
  rw [h.accountable.conforms.ids] at hid
  exact h.inOrder.stored path id hid

theorem Aligned.relates (h : Aligned setting homes d L) {i : Nat} {hold : Hold}
    {request : ResourceRequest}
    (hmay : Duties.MayRegister (Homes.outcomes homes) (L.duties i) hold request) :
    Relates (d.servers request.issuer).policies (setting.client.getParentContainer request.path)
      request.description.resourceRelations := by
  have hrelated := hmay.related
  unfold Duties.Related at hrelated
  cases hrelations : request.description.resourceRelations with
  | none => exact .inl rfl
  | some relations =>
    rw [hrelations] at hrelated
    obtain ⟨hroot, id, rfl, hlink⟩ := hrelated
    obtain ⟨rfl, hpresent⟩ := h.read hlink
    refine .inr ⟨rfl, ?_⟩
    obtain ⟨registration, hregistration⟩ := Option.ne_none_iff_exists'.mp hpresent
    obtain ⟨-, -, hrightly⟩ := h.inOrder.registered _ _ registration hregistration
    rw [hmay.issuer.1, ← homes.parent request.path hroot]
    exact hrightly.collects (homes.container request.path hroot)

/-- **What the client sends is accepted**, whatever else the server does. -/
theorem Aligned.acceptable (h : Aligned setting homes d L) {i : Nat} {hold : Hold}
    {request : ResourceRequest}
    (hmay : Duties.MayRegister (Homes.outcomes homes) (L.duties i) hold request) :
    Requested (requestsOf d.client.log ++ [request]) request.path ∧
      Acceptable setting d.servers request
        (respond setting.environment i (httpRequest request) (setting.owner request.path)) := by
  obtain ⟨hhome, hpath⟩ : request.issuer = homes.home request.path ∧ request.path ≠ "" := hmay.issuer
  have hrelates := h.relates hmay
  cases hknown : request.knownUmaId with
  | none =>
    have hupdate : request.update = false := by rw [ResourceRequest.update, hknown]; rfl
    have hfree : (d.servers request.issuer).registrationStore.get request.path = none := by
      by_contra hregistered
      obtain ⟨registration, hregistration⟩ := Option.ne_none_iff_exists'.mp hregistered
      obtain ⟨-, hrequested, -⟩ := h.inOrder.registered _ _ registration hregistration
      have hstage := Ledger.stage_eq_some hmay.hold
      rw [hmay.signal, hmay.phase, hupdate] at hstage
      obtain ⟨-, hposts⟩ := (h.accountable.identified trivial).stands i _ _ hstage
      rw [Ledger.posts, h.accountable.conforms.requests] at hposts
      exact hrequested hposts
    refine ⟨?_, fun t ht => ?_⟩
    · have hpost : [request].filter (Ledger.isPost request.path) = [request] := by
        simp [Ledger.isPost, hupdate]
      rw [Requested, List.filter_append, hpost]
      simp
    · rw [hupdate]
      exact steps_post hupdate hpath hmay.description (ht.registration.trans hfree)
        (hrelates.mono (ht.collects _))
  | some id =>
    have hupdate : request.update = true := by rw [ResourceRequest.update, hknown]; rfl
    obtain ⟨rfl, hpresent⟩ := h.read (hmay.known id hknown)
    obtain ⟨registration, hregistration⟩ := Option.ne_none_iff_exists'.mp hpresent
    rw [← hhome] at hregistration
    obtain ⟨-, hrequested, hrightly⟩ := h.inOrder.registered _ _ registration hregistration
    refine ⟨requested_append hrequested, fun t ht => ?_⟩
    rw [hupdate]
    exact steps_put hknown hmay.description (ht.registration.trans hregistration)
      (hrightly.mono ht.collects) (hrelates.mono (ht.collects _))

/-! ### Answers -/

/-- The answer of a server to a registration that is done. -/
theorem InOrder.accepted {ids : String → Option String} {requests : List ResourceRequest}
    {awaits : Nat → Option Op} {jobs : Nat → Option Job} {servers : String → ServerState}
    (h : InOrder setting homes ids requests awaits jobs servers) {i : Nat} {request : ResourceRequest}
    {r : Except HttpError HttpHandlerResponse}
    (hwait : awaits i = some (.fetch (.resource request))) (hjob : jobs i = some (.done r)) :
    r = .ok { status := if request.update then 200 else 201,
              body := ResourceRegistrationRequestHandler.registered request.path } ∧
      Present homes servers request.path := by
  obtain ⟨hmem, -, job, hjob', hacceptable⟩ := h.sent i request hwait
  cases hjob.symm.trans hjob'
  obtain ⟨hr, hregistered⟩ := hacceptable _ (.refl _ _)
  refine ⟨hr, ?_⟩
  rw [Present, ← (h.homed request hmem).1]
  exact hregistered

theorem succeeds_of_plain {o : Outcomes setting.client} {op : Op} {reply : OpReply op}
    (hop : op.toServer = none)
    (h : Succeeds (Outcomes.successful : Outcomes setting.client) op reply) : Succeeds o op reply := by
  cases op with
  | fetch request =>
    cases request with
    | resource | unregister => cases hop
    | config | token | permission => exact h
  | json | text | getId | setId | hasResource | tick => exact h

theorem toServer_eq_some {op : Op} {request : ServerRequest} (h : op.toServer = some request) :
    (∃ r : ResourceRequest, op = .fetch (.resource r) ∧
      request = { issuer := r.issuer, about := r.path, request := httpRequest r }) ∨
    ∃ issuer id url pat, op = .fetch (.unregister issuer id url pat) ∧
      request = { issuer, about := id, request := deletion id } := by
  cases op with
  | fetch r =>
    cases r with
    | resource r => exact .inl ⟨r, rfl, (Option.some.inj h).symm⟩
    | unregister issuer id url pat => exact .inr ⟨issuer, id, url, pat, rfl, (Option.some.inj h).symm⟩
    | config | token | permission => cases h
  | json | text | getId | setId | hasResource | tick => cases h

theorem expected_answer (h : Aligned setting homes d L) {i : Nat} {reply : (op : Op) → OpReply op}
    {event : LoopEvent platform} (hreliable : Reliable d (.client (.answer i reply)))
    (hdelivered : d.delivered (.answer i reply) = some event) :
    Expected (Homes.outcomes homes) d.client event := by
  dsimp only [delivered] at hdelivered
  split at hdelivered
  case h_1 hrequest =>
    cases hdelivered
    intro call op next htask _
    have hwait : d.client.awaits i = some op := World.awaits_of_tasks htask
    have hop : op.toServer = none := by simpa [request?, hwait] using hrequest
    exact succeeds_of_plain hop (hreliable op hwait hop setting.client)
  case h_2 request r hrequest hjob =>
    cases hdelivered
    intro call op next htask _
    have hwait : d.client.awaits i = some op := World.awaits_of_tasks htask
    have hop : op.toServer = some request := by simpa [request?, hwait] using hrequest
    rcases toServer_eq_some hop with ⟨sent, rfl, -⟩ | ⟨issuer, id, url, pat, rfl, -⟩
    · obtain ⟨rfl, -⟩ := h.inOrder.accepted hwait hjob
      obtain ⟨hmem, -⟩ := h.inOrder.sent i sent hwait
      refine ⟨_, rfl, ?_⟩
      cases hupdate : sent.update with
      | true => rfl
      | false =>
        exact ⟨rfl, _, sent.path, rfl, rfl, rfl, fun _ => ⟨rfl, (h.inOrder.homed sent hmem).2⟩⟩
    · exact ⟨_, rfl⟩
  case h_3 => cases hdelivered

theorem expected_of_delivered (h : Aligned setting homes d L) {event event' : LoopEvent platform}
    (hreliable : Reliable d (.client event)) (hhome : AtHome homes d (.client event))
    (hdelivered : d.delivered event = some event') :
    Expected (Homes.outcomes homes) d.client event' := by
  cases event with
  | answer i reply => exact expected_answer h hreliable hdelivered
  | call call =>
    cases hdelivered
    rcases hreliable with ⟨path, issuer, credentials, rfl, hpath⟩ | ⟨path, issuer, credentials, rfl⟩
    · exact ⟨hhome, hpath⟩
    · trivial
  | advance | timeout | resume =>
    cases hdelivered
    trivial

/-- What was asked for is registered, once its answer is there. -/
theorem present_of_delivered (h : Aligned setting homes d L) {i : Nat} {path : String}
    {event : LoopEvent platform} {reply : (op : Op) → OpReply op}
    (hdelivered : d.delivered event = some (.answer i reply))
    (hwait : Awaiting d.client.awaits i path) : Present homes d.servers path := by
  obtain ⟨request, hwait, rfl⟩ := hwait
  cases event with
  | answer j reply' =>
    dsimp only [delivered] at hdelivered
    split at hdelivered
    case h_1 hrequest =>
      cases hdelivered
      simp [request?, hwait, Op.toServer] at hrequest
    case h_2 hjob =>
      cases hdelivered
      exact (h.inOrder.accepted hwait hjob).2
    case h_3 => cases hdelivered
  | call | advance | timeout | resume => cases hdelivered

/-- An id that is stored now is that of a path that is registered. -/
theorem stored_of_answer (h : Aligned setting homes d L) {i : Nat} {call : Call} {op : Op}
    {next : OpReply op → Method (Option String)} {reply : OpReply op}
    (htask : d.client.tasks i = some ⟨call, .awaiting (P := platform) op next⟩)
    (path id : String) (hid : (Op.effect op reply d.client.state).umaIdStore.get path = some id) :
    id = path ∧ Present homes d.servers path := by
  have hold : (Op.effect op reply d.client.state).umaIdStore = d.client.state.umaIdStore ∨
      ∃ path' id', op = .setId path' id' ∧ (Op.effect op reply d.client.state).umaIdStore =
        d.client.state.umaIdStore.set path' id' := by
    cases op with
    | setId path' id' =>
      cases reply with
      | ok u => exact .inr ⟨path', id', rfl, rfl⟩
      | error e =>
        obtain ⟨e, stored⟩ := e
        cases stored with
        | true => exact .inr ⟨path', id', rfl, rfl⟩
        | false => exact .inl rfl
    | fetch | json | text | getId | hasResource | tick => exact .inl rfl
  rcases hold with hsame | ⟨path', id', rfl, hset⟩
  · rw [hsame] at hid
    exact h.inOrder.stored path id hid
  rw [hset, KeyValueStorage.get_set] at hid
  split at hid
  case isFalse => exact h.inOrder.stored path id hid
  case isTrue hpath =>
    cases hid
    subst hpath
    -- the call has asked for the id, and nobody else asks for it
    obtain ⟨d₀, hsent, ⟨-, hold, hhold, hsignal, hphase, hvalid⟩, -⟩ :=
      h.accountable.conforms.tasks.obeys i _ htask
    rw [show d₀ = L.duties i from hsent.symm] at hhold
    refine ⟨(hvalid trivial).1, ?_⟩
    have hstage := Ledger.stage_eq_some hhold
    rw [hsignal, hphase] at hstage
    have hposts := h.posted i path hstage
    rw [Ledger.posts, h.accountable.conforms.requests] at hposts
    refine (h.inOrder.answered path hposts).resolve_right ?_
    rintro ⟨j, hj⟩
    have hheld := held_of_inFlight h.accountable.conforms (inFlight_of_awaiting hj)
    cases h.accountable.exclusive.unique i j _ (Ledger.held_of_stage hstage) hheld
    obtain ⟨request, hwait, -⟩ := hj
    cases (World.awaits_of_tasks htask).symm.trans hwait

/-! ### Steps -/

theorem dispatch_of_not_sent {w w' : World platform} {jobs : Nat → Option Job} {i : Nat}
    (h : w'.awaits i = w.awaits i ∨ w'.awaits i = none) :
    dispatch setting w w' jobs i = jobs i := by
  unfold dispatch
  rcases h with h | h <;> rw [h] <;> cases w.awaits i <;> rfl

theorem inOrder_of_asks (h : Aligned setting homes d L) {w' : World platform} {i : Nat}
    {call : Call} {op : Op} {next : OpReply op → Method (Option String)}
    (htask : d.client.tasks i = some ⟨call, .running (.perform (P := platform) op next)⟩)
    (hawaits : w'.awaits = Function.update d.client.awaits i (some op))
    (hlog : w'.log = d.client.log ++ [(i, .performed (P := platform) op)]) :
    InOrder setting homes d.client.state.umaIdStore.get (requestsOf w'.log) w'.awaits
      (dispatch setting d.client w' d.jobs) d.servers := by
  have hi : d.client.awaits i = none := World.awaits_of_tasks htask
  have hnow : w'.awaits i = some op := by rw [hawaits, Function.update_self]
  have hjobs : ∀ j, j ≠ i → dispatch setting d.client w' d.jobs j = d.jobs j := by
    intro j hj
    refine dispatch_of_not_sent (.inl ?_)
    rw [hawaits, Function.update_of_ne hj]
  rw [hlog, hawaits]
  cases hop : op.registration? with
  | some request =>
    cases Op.eq_of_registration? hop
    have hobeys : Obeys (Homes.outcomes homes) call.marks (L.duties i)
        (.perform (P := platform) (.fetch (.resource request)) next) :=
      h.accountable.conforms.tasks.obeys i _ htask
    cases hobeys with
    | perform hready hnext =>
      obtain ⟨hold, hmay⟩ := hready
      obtain ⟨hrequested, hacceptable⟩ := h.acceptable hmay
      have hlast : requestsOf
          (d.client.log ++ [(i, .performed (P := platform) (.fetch (.resource request)))]) =
          requestsOf d.client.log ++ [request] := by simp [requestsOf]
      rw [hlast]
      refine h.inOrder.sends hi hmay.issuer hrequested hacceptable ?_ hjobs
      simp only [dispatch, hi, hnow, Option.bind_some, Op.toServer]
      rfl
  | none =>
    rw [requestsOf_of_no_registration hop]
    refine h.inOrder.asks hi hop (fun issuer id url pat heq => ?_) hjobs
    subst heq
    simp only [dispatch, hi, hnow, Option.bind_some, Op.toServer]

theorem inOrder_of_asked (h : Aligned setting homes d L) {event event' : LoopEvent platform}
    {w' : World platform} (hdelivered : d.delivered event = some event')
    (hasked : (system setting.client).Asked d.client w' event') :
    InOrder setting homes w'.state.umaIdStore.get (requestsOf w'.log) w'.awaits
      (dispatch setting d.client w' d.jobs) d.servers := by
  cases hasked with
  | same hawaits hstate hlog =>
    have hids : w'.state.umaIdStore = d.client.state.umaIdStore := by
      rcases hstate with hstate | ⟨action, hstate⟩
      · rw [hstate]
      · rw [hstate]
        exact run_umaIdStore action _
    have hrequests : requestsOf w'.log = requestsOf d.client.log := by
      rcases hlog with hlog | ⟨i, action, reply, hlog⟩
      · rw [hlog]
      · rw [hlog]
        exact requestsOf_acted
    have hjobs : dispatch setting d.client w' d.jobs = d.jobs :=
      funext fun i => dispatch_of_not_sent (.inl (congrFun hawaits i))
    rw [hids, hrequests, hawaits, hjobs]
    exact h.inOrder
  | asks htask hawaits hstate hlog =>
    rw [hstate]
    exact inOrder_of_asks h htask hawaits hlog
  | @answers i reply call op next htask hpermits hawaits hstate hlog =>
    have hjobs : dispatch setting d.client w' d.jobs = d.jobs := by
      refine funext fun j => dispatch_of_not_sent ?_
      rw [hawaits, Function.update_apply]
      split
      · exact .inr rfl
      · exact .inl rfl
    rw [hlog, hjobs, hawaits]
    refine h.inOrder.answers (fun path hwait => present_of_delivered h hdelivered hwait) ?_
    rw [hstate]
    exact stored_of_answer h htask

/-- **Every step leaves the deployment aligned.** -/
theorem aligned_step (h : Aligned setting homes d L) {d' : Deployment} {event : DeploymentEvent}
    (hreliable : Reliable d event) (hhome : AtHome homes d event)
    (hstep : d.step setting event = some d') : ∃ L', Aligned setting homes d' L' := by
  cases event with
  | client event =>
    obtain ⟨event', hdelivered, hrest⟩ := Option.bind_eq_some_iff.mp hstep
    obtain ⟨w', hclient, hrest⟩ := Option.bind_eq_some_iff.mp hrest
    cases hrest
    have hexpected := expected_of_delivered h hreliable hhome hdelivered
    obtain ⟨L', hmove, haccountable⟩ := accountable_step h.accountable hexpected hclient
    have hfresh : d.client.tasks d.client.count = none := by
      have hbound := h.accountable.conforms.tasks.bound d.client.count
      simpa using hbound
    exact ⟨L', haccountable, h.posted.step h.accountable.exclusive.fresh trivial hmove,
      inOrder_of_asked h hdelivered (System.step_asked hfresh hclient)⟩
  | serve i =>
    obtain ⟨request, hrequest, hrest⟩ := Option.bind_eq_some_iff.mp hstep
    obtain ⟨job, hjob, hrest⟩ := Option.bind_eq_some_iff.mp hrest
    cases hrest
    refine ⟨L, h.accountable, h.posted, ?_⟩
    obtain ⟨op, hwait, hop⟩ := Option.bind_eq_some_iff.mp hrequest
    rcases toServer_eq_some hop with ⟨sent, rfl, rfl⟩ | ⟨issuer, id, url, pat, rfl, rfl⟩
    · exact h.inOrder.serve_resource h.exclusively hwait hjob
    · refine h.inOrder.serve_unregister hwait hjob fun hrunning => ?_
      exact hhome _ job hrequest rfl hjob hrunning

theorem aligned_new (setting : DeploymentSetting) (homes : Homes setting.client) :
    Aligned setting homes new (newLedger KeyValueStorage.empty) where
  accountable := accountable_newClient
  posted i path hi := by simp [Ledger.stage, newLedger] at hi
  inOrder := {
    homed := fun request hrequest => by simp [new, newClient, requestsOf] at hrequest
    registered := fun issuer path registration hget => by
      simp [new, ServerState.empty, KeyValueStorage.empty, KeyValueStorage.get] at hget
    stored := fun path id hid => by
      simp [new, newClient, KeyValueStorage.empty, KeyValueStorage.get] at hid
    answered := fun path hpath => by simp [Requested, new, newClient, requestsOf] at hpath
    sent := fun i request hi => by simp [new, newClient, World.awaits] at hi
    deletes := fun i issuer id url pat hi => by simp [new, newClient, World.awaits] at hi }

end

theorem aligned_of_reachable (homes : Homes setting.client) {d : Deployment}
    (h : Reachable setting (fun d event => Reliable d event ∧ AtHome homes d event) d) :
    ∃ L, Aligned setting homes d L := by
  induction h with
  | new => exact ⟨_, aligned_new setting homes⟩
  | step _ hsafe hstep ih =>
    obtain ⟨L, hL⟩ := ih
    exact aligned_step hL hsafe.1 hsafe.2 hstep

/-! ## Agreement -/

section

variable {d : Deployment} {L : Ledger}

theorem lastRequest_of_requested {requests : List ResourceRequest} {path : String}
    (h : Requested requests path) : ∃ request, Ledger.lastRequest requests path = some request ∧
      request ∈ requests := by
  obtain ⟨posted, hposted⟩ := List.exists_mem_of_ne_nil _ h
  obtain ⟨hmem, hpost⟩ := List.mem_filter.mp hposted
  have hne : (requests.filter fun request => request.path = path) ≠ [] := by
    refine List.ne_nil_of_mem (a := posted) (List.mem_filter.mpr ⟨hmem, ?_⟩)
    simp only [Ledger.isPost, Bool.and_eq_true] at hpost
    exact hpost.1
  obtain ⟨request, hlast⟩ := Option.isSome_iff_exists.mp (List.getLast?_isSome.mpr hne)
  exact ⟨request, hlast, (List.mem_filter.mp (List.mem_of_getLast? hlast)).1⟩

/-- Nothing is waited for once all calls are finished. -/
theorem Aligned.settled (h : Aligned setting homes d L) (hquiet : d.Quiet) {i : Nat}
    (hi : i < d.client.count) : d.client.settled i :=
  settled_of_calls h.accountable.conforms trivial hquiet hi

theorem Aligned.stored_of_registered (h : Aligned setting homes d L) (hquiet : d.Quiet)
    {issuer path : String} {registration : Registration}
    (hregistered : (d.servers issuer).registrationStore.get path = some registration) :
    d.client.state.umaIdStore.get path = some path := by
  obtain ⟨-, hrequested, -⟩ := h.inOrder.registered _ _ registration hregistered
  rw [Requested, ← h.accountable.conforms.requests] at hrequested
  rcases (h.accountable.identified trivial).posted path hrequested with hsome | ⟨i, hi⟩
  · obtain ⟨id, hid⟩ := Option.isSome_iff_exists.mp hsome
    have hstored := truthy_eq_some hid
    rw [h.accountable.conforms.ids] at hstored
    rw [hstored, (h.inOrder.stored path id hstored).1]
  · obtain ⟨hold, hhold, -⟩ := Option.map_eq_some_iff.mp hi
    have hlt : i < d.client.count := by
      by_contra hge
      rw [h.accountable.exclusive.fresh i (by rw [h.accountable.conforms.count]; omega)] at hhold
      cases hhold
    have hblank := h.accountable.conforms.blank_of_settled trivial (h.settled hquiet hlt)
    rw [hblank.hold] at hhold
    cases hhold

theorem Aligned.agrees (h : Aligned setting homes d L) (hquiet : d.Quiet) : d.Agrees := by
  intro path id
  constructor
  · intro hid
    obtain ⟨rfl, hpresent⟩ := h.inOrder.stored path id hid
    obtain ⟨registration, hregistration⟩ := Option.ne_none_iff_exists'.mp hpresent
    obtain ⟨-, hrequested, hrightly⟩ := h.inOrder.registered _ _ registration hregistration
    obtain ⟨request, hlast, hmem⟩ := lastRequest_of_requested hrequested
    refine ⟨request, hlast, registration, ?_, hrightly.name⟩
    rw [(h.inOrder.homed request hmem).1, Ledger.path_of_lastRequest hlast]
    exact hregistration
  · rintro ⟨request, -, registration, hregistration, hname⟩
    obtain ⟨-, -, hrightly⟩ := h.inOrder.registered _ _ registration hregistration
    cases hrightly.name.symm.trans hname
    exact h.stored_of_registered hquiet hregistration

theorem Aligned.succeeded (h : Aligned setting homes d L) : d.Succeeded := by
  intro i path issuer credentials result htask
  cases result with
  | ok value => exact ⟨value, rfl⟩
  | error e =>
    obtain ⟨hfails, -⟩ := h.accountable.conforms.tasks.obeys i _ htask
    exact absurd ⟨trivial, rfl⟩ hfails

end

theorem ids_agree {d : Deployment} (homes : Homes setting.client)
    (h : Reachable setting (fun d event => Reliable d event ∧ AtHome homes d event) d)
    (hquiet : d.Quiet) : d.Agrees ∧ d.Succeeded := by
  obtain ⟨L, hL⟩ := aligned_of_reachable homes h
  exact ⟨hL.agrees hquiet, hL.succeeded⟩

/-! ### Runs of a small tree -/

def forest : DeploymentSetting where
  client := tree
  environment :=
    { randomUUID := fun _ => "uuid", blankNode := fun _ _ => "b", toString := fun _ => "" }
  owner _ := "me"

/-- One issuer for all of it. -/
def oneHome : Homes forest.client where
  home _ := "as"
  parent _ _ := rfl
  container _ _ := by
    show isContainerIdentifier "/" = true
    decide

theorem reliable_nextEvent {d : Deployment} {event : DeploymentEvent}
    (h : nextEvent succeeding d = some event) : Reliable d event := by
  rcases nextEvent_cases h with rfl | ⟨i, rfl⟩ | ⟨i, rfl⟩ | ⟨i, rfl⟩
  · trivial
  · intro op _ _ setting
    exact succeeds_succeeding (fun path => by simp [Outcomes.successful]) _ op
  · trivial
  · trivial

def serveAllowed (d : Deployment) : DeploymentEvent → Bool
  | .serve i => d.deletesNothing i
  | _ => true

theorem atHome_nextEvent {d : Deployment} {event : DeploymentEvent}
    (h : nextEvent succeeding d = some event) (hallowed : serveAllowed d event = true) :
    AtHome oneHome d event := by
  rcases nextEvent_cases h with rfl | ⟨i, rfl⟩ | ⟨i, rfl⟩ | ⟨i, rfl⟩
  · trivial
  · trivial
  · trivial
  · exact deletesNothing_of_eq_true hallowed

theorem quiet_of_isSettled {d : Deployment}
    (h : (d.client.calls.all fun i =>
      (d.client.tasks i).any fun task => isSettled task.status) = true) :
    d.Quiet := fun i hi => settled_of_isSettled (List.all_eq_true.mp h i hi)

/-- A member is registered. -/
def planted : Deployment :=
  after forest succeeding serveAllowed 200 new (.registerResource "/a" "as" "me")

/-- It is deleted where it is not registered. -/
def plantedOnce : Deployment :=
  after forest succeeding serveAllowed 200 planted (.deleteResource "/a" "other" "me")

theorem reachable_plantedOnce :
    Reachable forest (fun d event => Reliable d event ∧ AtHome oneHome d event) plantedOnce := by
  have hsafe : ∀ d event, nextEvent succeeding d = some event → serveAllowed d event = true →
      Reliable d event ∧ AtHome oneHome d event :=
    fun d event h hallowed => ⟨reliable_nextEvent h, atHome_nextEvent h hallowed⟩
  have hplanted :
      Reachable forest (fun d event => Reliable d event ∧ AtHome oneHome d event) planted :=
    reachable_after hsafe ⟨.inl ⟨"/a", "as", "me", rfl, by decide⟩, rfl⟩ .new 200
  exact reachable_after hsafe ⟨.inr ⟨"/a", "other", "me", rfl⟩, trivial⟩ hplanted 200

theorem ids_agree_plantedOnce : plantedOnce.Agrees ∧ plantedOnce.Succeeded :=
  ids_agree oneHome reachable_plantedOnce (quiet_of_isSettled (by decide +kernel))

def always (_ : Deployment) (_ : DeploymentEvent) : Bool := true

/-- The container is registered, then deleted, then registered with another
issuer. -/
def rooted : Deployment := after forest succeeding always 200 new (.registerResource "/" "as" "me")

def uprooted : Deployment := after forest succeeding always 200 rooted (.deleteResource "/" "as" "me")

def moved : Deployment :=
  after forest succeeding always 200 uprooted (.registerResource "/" "other" "me")

theorem reachable_moved :
    Reachable forest (fun d event => Reliable d event ∧ OneAtATime d event) moved := by
  have hsafe : ∀ d event, nextEvent succeeding d = some event → always d event = true →
      Reliable d event ∧ OneAtATime d event := by
    intro d event h _
    refine ⟨reliable_nextEvent h, ?_⟩
    rcases nextEvent_cases h with rfl | ⟨i, rfl⟩ | ⟨i, rfl⟩ | ⟨i, rfl⟩ <;> trivial
  have hrooted : Reachable forest (fun d event => Reliable d event ∧ OneAtATime d event) rooted :=
    reachable_after hsafe ⟨.inl ⟨"/", "as", "me", rfl, by decide⟩, quiet_of_isSettled rfl⟩ .new 200
  have huprooted : Reachable forest (fun d event => Reliable d event ∧ OneAtATime d event) uprooted :=
    reachable_after hsafe
      ⟨.inr ⟨"/", "as", "me", rfl⟩, quiet_of_isSettled (by decide +kernel)⟩ hrooted 200
  exact reachable_after hsafe
    ⟨.inl ⟨"/", "other", "me", rfl, by decide⟩, quiet_of_isSettled (by decide +kernel)⟩ huprooted 200

/-- A registration that has failed. -/
def failed : Task platform → Bool
  | ⟨.registerResource .., .settled (.error _)⟩ => true
  | _ => false

theorem not_succeeded_of_failed {d : Deployment} {i : Nat}
    (h : (d.client.tasks i).any failed = true) : ¬ d.Succeeded := by
  intro hsucceeded
  obtain ⟨task, htask, hfailed⟩ := (Option.any_eq_true failed _).mp h
  unfold failed at hfailed
  split at hfailed
  case h_1 path issuer credentials e =>
    obtain ⟨value, hvalue⟩ := hsucceeded i path issuer credentials (.error e) htask
    cases hvalue
  case h_2 => cases hfailed

/-- **An id without a registration.** The client keeps the id of what it has
deleted, and the next issuer refuses the registration. -/
theorem ids_disagree :
    Reachable forest (fun d event => Reliable d event ∧ OneAtATime d event) moved ∧ moved.Quiet ∧
      ¬ moved.Agrees ∧ ¬ moved.Succeeded := by
  refine ⟨reachable_moved, quiet_of_isSettled (by decide +kernel), fun hagrees => ?_,
    fun hsucceeded => ?_⟩
  · have hid : moved.client.state.umaIdStore.get "/" = some "/" := by decide +kernel
    obtain ⟨request, hlast, registration, hregistration, -⟩ := (hagrees "/" "/").mp hid
    have hissuer : (Ledger.lastRequest (requestsOf moved.client.log) "/").map ResourceRequest.issuer =
        some "other" := by decide +kernel
    have hnone : ((moved.servers "other").registrationStore.get "/").isNone = true := by decide +kernel
    rw [hlast] at hissuer
    rw [show request.issuer = "other" from Option.some.inj hissuer] at hregistration
    simp [hregistration] at hnone
  · exact not_succeeded_of_failed
      (by decide +kernel : (moved.client.tasks 5).any failed = true) hsucceeded

end UserManagedAccess.Css.UmaClient.Deployment
