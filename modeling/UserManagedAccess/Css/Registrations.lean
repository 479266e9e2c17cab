/-
UserManagedAccess.Css.Registrations — requests and ids where nothing fails.

- `Moves.stages`: what a move does to the stages of registrations.
- `Asked`: an id is asked for only where none is stored, so one that is stored
  stays.
- `Identified`: where no id is empty a path has at most one `POST`, and the
  stage a call is at says whether there is an id.
- `Linked`: the last request of a resource names the id of its container, or
  some call still has to send another one.

`Asked` and `Linked` only need that nothing fails. A server can answer a
registration with an empty id, which is no failure but is read as none: the
resource is then registered by a second `POST`, which `Identified` leaves out.
-/
import UserManagedAccess.Css.Ledger

namespace UserManagedAccess.Css.UmaClient.Ledger

open UserManagedAccess.Lib UserManagedAccess.Util UserManagedAccess.Views

variable {setting : ClientSetting} {o : Outcomes setting} {L L' : Ledger}

/-! ## Stages -/

/-- The signal a call holds, and how far it has come. -/
def stage (L : Ledger) (i : Nat) : Option (Signal × Phase) :=
  (L.duties i).hold.map fun h => (h.signal, h.phase)

theorem stage_eq_some {i : Nat} {h : Hold} (hhold : (L.duties i).hold = some h) :
    L.stage i = some (h.signal, h.phase) := by rw [stage, hhold]; rfl

theorem held_of_stage {i : Nat} {s : Signal} {phase : Phase} (h : L.stage i = some (s, phase)) :
    L.held i = some s := by
  obtain ⟨hold, hhold, heq⟩ := Option.map_eq_some_iff.mp h
  rw [held_eq_some hhold]
  exact congrArg some (congrArg Prod.fst heq)

theorem stage_put {i : Nat} {d : Duties} : (L.put i d).stage =
    Function.update L.stage i (d.hold.map fun h => (h.signal, h.phase)) := by
  funext j
  by_cases hj : j = i
  · subst hj
    simp [stage]
  · simp [stage, put_duties_of_ne hj, hj]

theorem stage_put_of_eq {i : Nat} {d : Duties}
    (h : (d.hold.map fun h => (h.signal, h.phase)) = L.stage i) : (L.put i d).stage = L.stage := by
  rw [stage_put, h, Function.update_eq_self]

theorem stage_put_put_of_eq {i : Nat} {d child : Duties} (hnew : L.stage L.count = none)
    (h : (d.hold.map fun h => (h.signal, h.phase)) = L.stage i) (hchild : child.hold = none) :
    ((L.put i d).put L.count child).stage = L.stage := by
  rw [stage_put_of_eq, stage_put_of_eq h]
  rw [stage_put_of_eq h, hnew, hchild]
  rfl

/-- What a move does to stages, ids and requests. -/
inductive Stages (o : Outcomes setting) (L L' : Ledger) : Prop
  | same (hstage : L'.stage = L.stage) (hids : L'.ids = L.ids) (hrequests : L'.requests = L.requests)
  | enters {i s} (hi : L.stage i = none)
      (hstage : L'.stage = Function.update L.stage i (some (s, .entered))) (hids : L'.ids = L.ids)
      (hrequests : L'.requests = L.requests)
  | leaves {i s phase} (hi : L.stage i = some (s, phase)) (hphase : phase ≠ .posting)
      (hstage : L'.stage = Function.update L.stage i none) (hids : L'.ids = L.ids)
      (hrequests : L'.requests = L.requests)
  | passes {i j x} (hi : L.stage i = some x) (hj : L.stage j = none)
      (hstage : L'.stage = Function.update (Function.update L.stage i none) j (some x))
      (hids : L'.ids = L.ids) (hrequests : L'.requests = L.requests)
  | learns {i path} (hi : L.stage i = some (.resource path, .entered))
      (hstage : L'.stage = Function.update L.stage i (some (.resource path,
        if (truthy (L.ids path)).isSome then .known else .absent)))
      (hids : L'.ids = L.ids) (hrequests : L'.requests = L.requests)
  | updates {i request} (hi : L.stage i = some (.resource request.path, .known))
      (hupdate : request.update = true) (hstage : L'.stage = L.stage) (hids : L'.ids = L.ids)
      (hrequests : L'.requests = L.requests ++ [request])
  | posts {i request} (hi : L.stage i = some (.resource request.path, .absent))
      (hupdate : request.update = false)
      (hstage : L'.stage = Function.update L.stage i (some (.resource request.path, .posting)))
      (hids : L'.ids = L.ids) (hrequests : L'.requests = L.requests ++ [request])
  | stores {i path id} (hi : L.stage i = some (.resource path, .posting))
      (hid : o.identified → o.valid path id)
      (hstage : L'.stage = Function.update L.stage i (some (.resource path, .known)))
      (hids : L'.ids = Function.update L.ids path (some id)) (hrequests : L'.requests = L.requests)
  | loses (ho : ¬ o.reliable)

theorem Moves.stages (hfresh : ∀ i, L.count ≤ i → L.duties i = {}) (h : Moves o L L') :
    Stages o L L' := by
  have hnew : L.stage L.count = none := by rw [stage, hfresh _ (Nat.le_refl _)]; rfl
  cases h with
  | stay => exact .same rfl rfl rfl
  | call debt => exact .same (stage_put_of_eq hnew.symm) rfl rfl
  | @start i call child rest hi hsplits =>
    cases hsplits with
    | free hdeclared hmarks => exact .same (stage_put_put_of_eq hnew rfl rfl) rfl rfl
    | pass hregisters hdebt => exact .same (stage_put_put_of_eq hnew rfl rfl) rfl rfl
    | follow hregisters hhold hpath =>
      exact .same (stage_put_put_of_eq hnew (stage_eq_some hhold).symm rfl) rfl rfl
    | send hmay hown hdebt =>
      refine .passes (stage_eq_some hmay.hold) hnew ?_ rfl rfl
      exact stage_put.trans (by rw [stage_put]; rfl)
  | @enter i signal hi hhold hsignal =>
    exact .enters (i := i) (by rw [stage, hhold]; rfl) stage_put rfl rfl
  | @leave i h hi hhold hphase => exact .leaves (stage_eq_some hhold) hphase stage_put rfl rfl
  | @send i request h hi hmay =>
    have hstage := stage_eq_some hmay.hold
    rw [hmay.signal, hmay.phase] at hstage
    cases hupdate : request.update with
    | true =>
      rw [hupdate] at hstage
      refine .updates hstage hupdate (stage_put_of_eq ?_) rfl rfl
      rw [hstage]
      simp [Duties.sent, hupdate, hmay.hold, hmay.signal, hmay.phase]
    | false =>
      rw [hupdate] at hstage
      refine .posts hstage hupdate (stage_put.trans ?_) rfl rfl
      simp [Duties.sent, hupdate, hmay.hold, hmay.signal]
  | @learn i path hi =>
    cases hhold : (L.duties i).hold with
    | none =>
      refine .same (stage_put_of_eq ?_) rfl rfl
      simp [Duties.learned, stage, hhold]
    | some h =>
      by_cases hentered : h.signal = .resource path ∧ h.phase = .entered
      · have hstage := stage_eq_some hhold
        rw [hentered.1, hentered.2] at hstage
        refine .learns hstage (stage_put.trans ?_) rfl rfl
        simp [Duties.learned, hhold, hentered]
      · refine .same (stage_put_of_eq ?_) rfl rfl
        simp [Duties.learned, stage, hhold, hentered]
  | @store i path id h hi hhold hsignal hphase hid =>
    have hstage := stage_eq_some hhold
    rw [hsignal, hphase] at hstage
    exact .stores hstage hid (stage_put.trans (by rw [← hsignal]; rfl)) rfl rfl
  | lose ho => exact .loses ho
  | join hi hblank => exact .same (stage_put_of_eq rfl) rfl rfl

theorem Exclusive.stage_unique (hL : Exclusive L) {i j : Nat} {s : Signal} {phase phase' : Phase}
    (hi : L.stage i = some (s, phase)) (hj : L.stage j = some (s, phase')) : i = j :=
  hL.unique i j s (held_of_stage hi) (held_of_stage hj)

/-! ## Ids -/

def isPost (path : String) (request : ResourceRequest) : Bool :=
  request.path = path && !request.update

def posts (L : Ledger) (path : String) : List ResourceRequest := L.requests.filter (isPost path)

/-- What the stage of its registration says about a path. -/
def Stands (L : Ledger) (path : String) : Phase → Prop
  | .entered => True
  | .known => (truthy (L.ids path)).isSome
  | .absent => truthy (L.ids path) = none ∧ L.posts path = []
  | .posting => truthy (L.ids path) = none

structure Identified (L : Ledger) : Prop where
  stands : ∀ i path phase, L.stage i = some (.resource path, phase) → L.Stands path phase
  posts : ∀ path, (L.posts path).length ≤ 1
  posted : ∀ path, L.posts path ≠ [] → (truthy (L.ids path)).isSome ∨
    ∃ i, L.stage i = some (.resource path, .posting)

theorem posts_of_requests {path : String} (h : L'.requests = L.requests) :
    L'.posts path = L.posts path := by rw [Ledger.posts, h]; rfl

theorem posts_of_sends {path : String} {request : ResourceRequest}
    (h : L'.requests = L.requests ++ [request]) :
    L'.posts path = L.posts path ++ if isPost path request then [request] else [] := by
  rw [Ledger.posts, h, List.filter_append]
  cases hpost : isPost path request <;> simp [Ledger.posts, hpost]

theorem Stands.congr {path : String} {phase : Phase} (hids : L'.ids path = L.ids path)
    (hposts : L'.posts path = L.posts path) (h : L.Stands path phase) : L'.Stands path phase := by
  unfold Stands at h ⊢
  rw [hids, hposts]
  exact h

/-- A move that leaves ids and requests as they are. -/
theorem Identified.frame (hL : Identified L) (hids : L'.ids = L.ids)
    (hrequests : L'.requests = L.requests)
    (hstage : ∀ j path phase, L'.stage j = some (.resource path, phase) →
      phase = .entered ∨ ∃ i, L.stage i = some (.resource path, phase))
    (hposting : ∀ i path, L.stage i = some (.resource path, .posting) →
      ∃ j, L'.stage j = some (.resource path, .posting)) : Identified L' where
  stands := by
    intro j path phase hj
    obtain rfl | ⟨i, hi⟩ := hstage j path phase hj
    · trivial
    · exact (hL.stands i path phase hi).congr (congrFun hids path) (posts_of_requests hrequests)
  posts := fun path => (posts_of_requests hrequests).symm ▸ hL.posts path
  posted := by
    intro path hpath
    rw [posts_of_requests hrequests] at hpath
    rw [hids]
    exact (hL.posted path hpath).imp_right fun ⟨i, hi⟩ => hposting i path hi

/-- Who comes to a path that has no id finds that nobody has asked for one. -/
theorem Identified.posts_eq_nil (hL : Identified L) (hexclusive : Exclusive L) {i : Nat}
    {path : String} {phase : Phase} (hi : L.stage i = some (.resource path, phase))
    (hphase : phase ≠ .posting) (hnone : truthy (L.ids path) = none) : L.posts path = [] := by
  by_contra hposts
  rcases hL.posted path hposts with hsome | ⟨j, hj⟩
  · simp [hnone] at hsome
  · cases hexclusive.stage_unique hi hj
    cases hi.symm.trans hj
    exact hphase rfl

theorem truthy_some {id : String} (h : id ≠ "") : truthy (some id) = some id := by
  simp [truthy, h]

/-- A registration learns whether its path has an id. -/
theorem Identified.of_learns (hL : Identified L) (hexclusive : Exclusive L) {i : Nat} {p : String}
    (hi : L.stage i = some (.resource p, .entered))
    (hstage : L'.stage = Function.update L.stage i (some (.resource p,
      if (truthy (L.ids p)).isSome then .known else .absent)))
    (hids : L'.ids = L.ids) (hrequests : L'.requests = L.requests) : Identified L' := by
  have hposts : ∀ path, L'.posts path = L.posts path := fun _ => posts_of_requests hrequests
  refine ⟨fun j path phase hj => ?_, fun path => hposts path ▸ hL.posts path, fun path hpath => ?_⟩
  · rw [hstage, Function.update_apply] at hj
    split at hj
    case isTrue hji =>
      cases hj
      refine Stands.congr (congrFun hids p) (hposts p) ?_
      cases hid : truthy (L.ids p) with
      | some id => simp [Stands, hid]
      | none => simp [Stands, hid, hL.posts_eq_nil hexclusive hi (by decide) hid]
    case isFalse hji => exact (hL.stands j path phase hj).congr (congrFun hids path) (hposts path)
  · rw [hposts] at hpath
    rw [hids]
    refine (hL.posted path hpath).imp_right fun ⟨j, hj⟩ => ⟨j, ?_⟩
    rw [hstage, Function.update_apply]
    grind

/-- An update is sent. -/
theorem Identified.of_updates (hL : Identified L) {request : ResourceRequest}
    (hupdate : request.update = true) (hstage : L'.stage = L.stage) (hids : L'.ids = L.ids)
    (hrequests : L'.requests = L.requests ++ [request]) : Identified L' := by
  have hposts : ∀ path, L'.posts path = L.posts path := by
    intro path
    simp [posts_of_sends hrequests, isPost, hupdate]
  refine ⟨fun j path phase hj => ?_, fun path => hposts path ▸ hL.posts path, fun path hpath => ?_⟩
  · exact (hL.stands j path phase (hstage ▸ hj)).congr (congrFun hids path) (hposts path)
  · rw [hids, hstage]
    exact hL.posted path (hposts path ▸ hpath)

/-- A first registration is sent. -/
theorem Identified.of_posts (hL : Identified L) (hexclusive : Exclusive L) {i : Nat}
    {request : ResourceRequest} (hi : L.stage i = some (.resource request.path, .absent))
    (hstage : L'.stage = Function.update L.stage i (some (.resource request.path, .posting)))
    (hids : L'.ids = L.ids) (hrequests : L'.requests = L.requests ++ [request]) :
    Identified L' := by
  obtain ⟨hnone, hnil⟩ := hL.stands i _ _ hi
  have hposts : ∀ path, path ≠ request.path → L'.posts path = L.posts path := by
    intro path hpath
    simp [posts_of_sends hrequests, isPost, hpath.symm]
  refine ⟨fun j path phase hj => ?_, fun path => ?_, fun path hpath => ?_⟩
  · rw [hstage, Function.update_apply] at hj
    split at hj
    case isTrue hji =>
      cases hj
      rw [Stands, hids]
      exact hnone
    case isFalse hji =>
      have hpath : path ≠ request.path := by
        rintro rfl
        exact hji (hexclusive.stage_unique hj hi)
      exact (hL.stands j path phase hj).congr (congrFun hids path) (hposts path hpath)
  · by_cases hp : path = request.path
    · subst hp
      rw [posts_of_sends hrequests, hnil]
      split <;> simp
    · exact hposts path hp ▸ hL.posts path
  · by_cases hp : path = request.path
    · subst hp
      exact .inr ⟨i, by rw [hstage, Function.update_self]⟩
    · rw [hposts path hp] at hpath
      rw [hids]
      refine (hL.posted path hpath).imp_right fun ⟨j, hj⟩ => ⟨j, ?_⟩
      rw [hstage, Function.update_apply]
      grind

/-- The id of an answer is stored. -/
theorem Identified.of_stores (hL : Identified L) (hexclusive : Exclusive L) {i : Nat}
    {p id : String} (hi : L.stage i = some (.resource p, .posting)) (hid : id ≠ "")
    (hstage : L'.stage = Function.update L.stage i (some (.resource p, .known)))
    (hids : L'.ids = Function.update L.ids p (some id)) (hrequests : L'.requests = L.requests) :
    Identified L' := by
  have hposts : ∀ path, L'.posts path = L.posts path := fun _ => posts_of_requests hrequests
  have hstored : truthy (L'.ids p) = some id := by
    rw [hids, Function.update_self]
    exact truthy_some hid
  have hother : ∀ path, path ≠ p → L'.ids path = L.ids path := by
    intro path hpath
    rw [hids, Function.update_of_ne hpath]
  refine ⟨fun j path phase hj => ?_, fun path => hposts path ▸ hL.posts path, fun path hpath => ?_⟩
  · rw [hstage, Function.update_apply] at hj
    split at hj
    case isTrue hji =>
      cases hj
      simp [Stands, hstored]
    case isFalse hji =>
      have hpath : path ≠ p := by
        rintro rfl
        exact hji (hexclusive.stage_unique hj hi)
      exact (hL.stands j path phase hj).congr (hother path hpath) (hposts path)
  · by_cases hp : path = p
    · subst hp
      simp [hstored]
    · rw [hother path hp, hstage]
      refine (hL.posted path (hposts path ▸ hpath)).imp_right fun ⟨j, hj⟩ => ⟨j, ?_⟩
      rw [Function.update_apply]
      grind

/-- **Ids and requests stay in order** where every operation succeeds. -/
theorem Identified.step (hL : Identified L) (hexclusive : Exclusive L) (ho : o.identified)
    (h : Moves o L L') : Identified L' := by
  cases h.stages hexclusive.fresh with
  | same hstage hids hrequests =>
    refine hL.frame hids hrequests ?_ ?_
    · exact fun j path phase hj => .inr ⟨j, hstage ▸ hj⟩
    · exact fun i path hi => ⟨i, hstage ▸ hi⟩
  | @enters i s hi hstage hids hrequests =>
    refine hL.frame hids hrequests (fun j path phase hj => ?_) fun j path hj => ⟨j, ?_⟩
    · rw [hstage, Function.update_apply] at hj
      grind
    · rw [hstage, Function.update_apply]
      grind
  | @leaves i s phase hi hphase hstage hids hrequests =>
    refine hL.frame hids hrequests (fun j path phase hj => ?_) fun j path hj => ⟨j, ?_⟩
    · rw [hstage, Function.update_apply] at hj
      grind
    · rw [hstage, Function.update_apply]
      grind
  | @passes i c x hi hc hstage hids hrequests =>
    refine hL.frame hids hrequests (fun j path phase hj => ?_) fun j path hj => ?_
    · rw [hstage, Function.update_apply, Function.update_apply] at hj
      grind
    · refine ⟨if j = i then c else j, ?_⟩
      rw [hstage, Function.update_apply, Function.update_apply]
      grind
  | learns hi hstage hids hrequests => exact hL.of_learns hexclusive hi hstage hids hrequests
  | updates hi hupdate hstage hids hrequests => exact hL.of_updates hupdate hstage hids hrequests
  | posts hi hupdate hstage hids hrequests =>
    exact hL.of_posts hexclusive hi hstage hids hrequests
  | stores hi hid hstage hids hrequests =>
    exact hL.of_stores hexclusive hi (o.ne_of_valid _ _ (hid ho)) hstage hids hrequests
  | loses ho' => exact absurd (o.reliable_of_identified ho) ho'

/-- Where an id is asked for, none is stored. An empty one is as good as none:
it is asked for again. -/
def Asked (L : Ledger) : Prop :=
  ∀ i path phase, L.stage i = some (.resource path, phase) → phase = .absent ∨ phase = .posting →
    truthy (L.ids path) = none

/-- An id that is stored stays. -/
theorem Asked.ids_mono (hL : Asked L) (hexclusive : Exclusive L) (ho : o.reliable)
    (h : Moves o L L') {path id : String} (hid : truthy (L.ids path) = some id) :
    truthy (L'.ids path) = some id := by
  cases h.stages hexclusive.fresh with
  | same _ hids | enters _ _ hids | leaves _ _ _ hids | passes _ _ _ hids | learns _ _ hids
  | updates _ _ _ hids | posts _ _ _ hids =>
    rw [hids]
    exact hid
  | @stores i p id' hi hid' hstage hids hrequests =>
    have hp : path ≠ p := by
      rintro rfl
      have hnone : truthy (L.ids path) = none := hL i _ _ hi (.inr rfl)
      simp [hid] at hnone
    rw [hids, Function.update_of_ne hp]
    exact hid
  | loses ho' => exact absurd ho ho'

/-- A move after which the registrations that ask for an id asked for it before. -/
theorem Asked.frame (hL : Asked L) (hids : L'.ids = L.ids)
    (hstage : ∀ j path phase, L'.stage j = some (.resource path, phase) →
      phase = .absent ∨ phase = .posting → ∃ i phase', L.stage i = some (.resource path, phase') ∧
        (phase' = .absent ∨ phase' = .posting)) : Asked L' := by
  intro j path phase hj hphase
  obtain ⟨i, phase', hi, hphase'⟩ := hstage j path phase hj hphase
  rw [hids]
  exact hL i path phase' hi hphase'

theorem Asked.step (hL : Asked L) (hexclusive : Exclusive L) (ho : o.reliable)
    (h : Moves o L L') : Asked L' := by
  cases h.stages hexclusive.fresh with
  | same hstage hids | updates _ _ hstage hids =>
    exact hL.frame hids fun j path phase hj hphase => ⟨j, phase, hstage ▸ hj, hphase⟩
  | enters hi hstage hids | leaves hi hphase hstage hids =>
    refine hL.frame hids fun j path phase hj hphase => ⟨j, phase, ?_, hphase⟩
    rw [hstage, Function.update_apply] at hj
    grind
  | @passes i c x hi hc hstage hids hrequests =>
    refine hL.frame hids fun j path phase hj hphase => ⟨if j = c then i else j, phase, ?_, hphase⟩
    rw [hstage, Function.update_apply, Function.update_apply] at hj
    grind
  | @learns i p hi hstage hids hrequests =>
    intro j path phase hj hphase
    rw [hids]
    rw [hstage, Function.update_apply] at hj
    split at hj
    case isTrue hji =>
      -- it asks for an id just because none is there
      cases hid : truthy (L.ids p) with
      | none =>
        cases hj
        exact hid
      | some id => simp [hid] at hj; grind
    case isFalse hji => exact hL j path phase hj hphase
  | @posts i request hi hupdate hstage hids hrequests =>
    refine hL.frame hids fun j path phase hj hphase => ?_
    rw [hstage, Function.update_apply] at hj
    split at hj
    case isTrue =>
      cases hj
      exact ⟨i, .absent, hi, .inl rfl⟩
    case isFalse => exact ⟨j, phase, hj, hphase⟩
  | @stores i p id hi hid hstage hids hrequests =>
    intro j path phase hj hphase
    rw [hstage, Function.update_apply] at hj
    split at hj
    case isTrue => grind
    case isFalse hji =>
      have hpath : path ≠ p := by
        rintro rfl
        exact hji (hexclusive.stage_unique hj hi)
      rw [hids, Function.update_of_ne hpath]
      exact hL j path phase hj hphase
  | loses ho' => exact absurd ho ho'

/-! ## Debts -/

/-- Some call still has to register the resource. -/
def Owed (duties : Nat → Duties) (path : String) : Prop := ∃ j, (duties j).debt = some path

/-- Who relies on a later registration relies on another call. -/
def Backed (duties : Nat → Duties) : Prop :=
  ∀ i h path, (duties i).hold = some h → h.backed = true → h.signal = .resource path →
    ∃ j, j ≠ i ∧ (duties j).debt = some path

section

variable {duties : Nat → Duties} {i c : Nat} {d child : Duties}

/-- The call still owes what it owed, or leaves it to one that holds nothing. -/
theorem Backed.update (hbacked : Backed duties)
    (hhold : ∀ h, d.hold = some h → h.backed = true → ∃ h', (duties i).hold = some h' ∧
      h'.backed = true ∧ h.signal = h'.signal)
    (hdebt : ∀ path, (duties i).debt = some path → d.debt = some path) :
    Backed (Function.update duties i d) := by
  intro j h path hj hb hs
  rw [Function.update_apply] at hj
  have hsource : ∃ h', (duties j).hold = some h' ∧ h'.backed = true ∧ h'.signal = .resource path := by
    split at hj
    case isTrue hji =>
      subst hji
      obtain ⟨h', hh', hb', hs'⟩ := hhold h hj hb
      exact ⟨h', hh', hb', hs' ▸ hs⟩
    case isFalse hji => exact ⟨h, hj, hb, hs⟩
  obtain ⟨h', hh', hb', hs'⟩ := hsource
  obtain ⟨k, hk, hpath⟩ := hbacked j h' path hh' hb' hs'
  refine ⟨k, hk, ?_⟩
  rw [Function.update_apply]
  split
  case isTrue hki => exact hdebt path (hki ▸ hpath)
  case isFalse hki => exact hpath

/-- A new call that holds nothing. -/
theorem Backed.update_fresh (hbacked : Backed duties) (hc : duties c = {})
    (hchild : child.hold = none) :
    Backed (Function.update duties c child) := by
  refine hbacked.update (fun h hh => ?_) fun path hpath => ?_
  · rw [hchild] at hh
    cases hh
  · rw [hc] at hpath
    cases hpath

end

theorem Backed.step (hbacked : Backed L.duties) (hexclusive : Exclusive L)
    (h : Moves o L L') : Backed L'.duties := by
  have hfresh := hexclusive.fresh L.count (Nat.le_refl _)
  cases h with
  | stay => exact hbacked
  | call debt => exact hbacked.update_fresh hfresh rfl
  | @start i call child rest hi hsplits =>
    have hne : L.count ≠ i := by omega
    cases hsplits with
    | free hdeclared hmarks =>
      have hrest : Backed (Function.update L.duties i
          { L.duties i with owes := L.count :: (L.duties i).owes }) :=
        hbacked.update (fun h hh hb => ⟨h, hh, hb, rfl⟩) fun _ => id
      exact hrest.update_fresh (by rw [Function.update_of_ne hne, hfresh]) rfl
    | pass hregisters hdebt =>
      -- the new call holds nothing, so it backs every call
      intro j h p hj hb hs
      simp only [put, Function.update_apply] at hj ⊢
      have hold := hbacked j h p
      grind
    | @follow h parent path issuer credentials hregisters hhold hpath =>
      intro j h' p hj hb hs
      simp only [put, Function.update_apply] at hj ⊢
      have hold := hbacked j h' p
      grind
    | @send h request hmay hown hdebt =>
      -- what the call holds and owes goes to the new one together
      intro j h' p hj hb hs
      simp only [put, Function.update_apply] at hj ⊢
      have hold := hbacked j h' p
      have hmoved := hbacked i h p hmay.hold
      grind
  | enter hi hhold hsignal =>
    refine hbacked.update (fun h hh hb => ?_) fun _ => id
    cases hh
    cases hb
  | leave hi hhold hphase => exact hbacked.update (fun _ h => nomatch h) fun _ => id
  | @send i request h hi hmay =>
    intro j h' p hj hb hs
    by_cases hji : j = i
    · subst hji
      obtain ⟨h₀, hhold, hsignal, -, hb₀⟩ := Duties.hold_of_sent (put_duties_self ▸ hj)
      obtain ⟨k, hk, hpath⟩ := hbacked j h₀ p hhold (hb₀ ▸ hb) (hsignal ▸ hs)
      exact ⟨k, hk, (congrArg Duties.debt (put_duties_of_ne hk)).trans hpath⟩
    · replace hj : (L.duties j).hold = some h' := (congrArg Duties.hold (put_duties_of_ne hji)) ▸ hj
      obtain ⟨k, hk, hpath⟩ := hbacked j h' p hj hb hs
      refine ⟨k, hk, ?_⟩
      by_cases hki : k = i
      · subst hki
        -- the debt is about another path, as that one is held here
        have hother : p ≠ request.path := by
          rintro rfl
          have hsame : L.held j = L.held k := by
            rw [held_eq_some hj, held_eq_some hmay.hold, hs, hmay.signal]
          exact hji (hexclusive.unique j k _ (held_eq_some hj) (hsame ▸ held_eq_some hj))
        have hsent : ((L.duties k).sent (.fetch (.resource request))).debt = some p := by
          simp [Duties.sent, hpath, hother]
        exact (congrArg Duties.debt put_duties_self).trans hsent
      · exact (congrArg Duties.debt (put_duties_of_ne hki)).trans hpath
  | learn path hi =>
    refine hbacked.update (fun h hh hb => ?_) fun _ => id
    obtain ⟨h', hhold, hsignal, -, hb'⟩ := Duties.hold_of_learned hh
    exact ⟨h', hhold, hb' ▸ hb, hsignal⟩
  | @store i path id h hi hhold hsignal hphase hid =>
    refine hbacked.update (fun h' hh hb => ?_) fun _ h => h
    cases hh
    exact ⟨h, hhold, hb, rfl⟩
  | lose ho' => exact hbacked
  | join hi hblank => exact hbacked.update (fun h hh hb => ⟨h, hh, hb, rfl⟩) fun _ => id

/-! ## The last requests -/

def lastRequest (requests : List ResourceRequest) (path : String) : Option ResourceRequest :=
  (requests.filter fun request => request.path = path).getLast?

theorem lastRequest_append {requests : List ResourceRequest} {request : ResourceRequest}
    {path : String} : lastRequest (requests ++ [request]) path =
      if request.path = path then some request else lastRequest requests path := by
  rw [lastRequest, List.filter_append]
  split <;> simp_all [lastRequest]

theorem path_of_lastRequest {requests : List ResourceRequest} {request : ResourceRequest}
    {path : String} (h : lastRequest requests path = some request) : request.path = path := by
  have hmem := List.mem_of_getLast? h
  simpa using (List.mem_filter.mp hmem).2

/-- A debt is paid by a request only. -/
theorem Moves.owed (hfresh : L.duties L.count = {}) (h : Moves o L L') {path : String}
    (howed : Owed L.duties path) : Owed L'.duties path ∨
      ∃ request : ResourceRequest, request.path = path ∧ L'.requests = L.requests ++ [request] := by
  obtain ⟨j, hj⟩ := howed
  have hput : ∀ {i : Nat} {d : Duties}, (∀ path, (L.duties i).debt = some path → d.debt = some path) →
      Owed (Function.update L.duties i d) path := by
    intro i d hd
    refine ⟨j, ?_⟩
    rw [Function.update_apply]
    split
    case isTrue hji => exact hd path (hji ▸ hj)
    case isFalse hji => exact hj
  cases h with
  | stay => exact .inl ⟨j, hj⟩
  | call debt =>
    refine .inl (hput fun path hpath => ?_)
    rw [hfresh] at hpath
    cases hpath
  | @start i call child rest hi hsplits =>
    left
    have hjc : j ≠ L.count := by
      rintro rfl
      rw [hfresh] at hj
      cases hj
    have hne : i ≠ L.count := by omega
    cases hsplits with
    | free hdeclared hmarks =>
      refine ⟨j, ?_⟩
      simp only [put, Function.update_apply]
      grind
    | follow hregisters hhold hpath =>
      refine ⟨j, ?_⟩
      simp only [put, Function.update_apply]
      grind
    | pass hregisters hdebt =>
      refine ⟨if j = i then L.count else j, ?_⟩
      simp only [put, Function.update_apply]
      grind
    | send hmay hown hdebt =>
      refine ⟨if j = i then L.count else j, ?_⟩
      simp only [put, Function.update_apply]
      grind
  | enter hi hhold hsignal => exact .inl (hput fun _ => id)
  | leave hi hhold hphase => exact .inl (hput fun _ => id)
  | @send i request h hi hmay =>
    by_cases hpath : request.path = path
    · exact .inr ⟨request, hpath, rfl⟩
    · refine .inl ⟨j, ?_⟩
      by_cases hji : j = i
      · subst hji
        refine (congrArg Duties.debt put_duties_self).trans ?_
        simp [Duties.sent, hj, Ne.symm hpath]
      · exact (congrArg Duties.debt (put_duties_of_ne hji)).trans hj
  | learn path hi => exact .inl (hput fun _ => id)
  | store hi hhold hsignal hphase hid => exact .inl (hput fun _ h => h)
  | lose ho => exact .inl ⟨j, hj⟩
  | join hi hblank => exact .inl (hput fun _ => id)

/-- A link is to the id that was stored. -/
theorem Moves.links (h : Moves o L L') {j : Nat}
    {x : String × String} (hx : x ∈ (L'.duties j).links) :
    (∃ i, x ∈ (L.duties i).links) ∨ truthy (L.ids x.1) = some x.2 := by
  have hput : ∀ {duties : Nat → Duties} {i : Nat} {d : Duties},
      x ∈ (Function.update duties i d j).links → x ∈ d.links ∨ x ∈ (duties j).links := by
    intro duties i d hx
    rw [Function.update_apply] at hx
    split at hx
    · exact .inl hx
    · exact .inr hx
  cases h with
  | stay => exact .inl ⟨j, hx⟩
  | call debt => exact (hput hx).elim nofun fun hx => .inl ⟨j, hx⟩
  | @start i call child rest hi hsplits =>
    left
    rcases hput hx with hchild | hold
    · cases hsplits with
      | send hmay hown hdebt => exact ⟨i, hchild⟩
      | free | pass | follow => cases hchild
    · rcases hput hold with hrest | hold
      · cases hsplits <;> exact ⟨i, hrest⟩
      · exact ⟨j, hold⟩
  | @enter i signal hi hhold hsignal => exact .inl ((hput hx).elim (⟨i, ·⟩) (⟨j, ·⟩))
  | @leave i h hi hhold hphase => exact .inl ((hput hx).elim (⟨i, ·⟩) (⟨j, ·⟩))
  | @send i request h hi hmay => exact .inl ((hput hx).elim (⟨i, ·⟩) (⟨j, ·⟩))
  | @learn i path hi =>
    rcases hput hx with hx | hx
    · rcases List.mem_append.mp hx with hx | hx
      · obtain ⟨id, hid, rfl⟩ := List.mem_map.mp hx
        exact .inr (Option.mem_toList.mp hid)
      · exact .inl ⟨i, hx⟩
    · exact .inl ⟨j, hx⟩
  | @store i path id h hi hhold hsignal hphase hid => exact .inl ((hput hx).elim (⟨i, ·⟩) (⟨j, ·⟩))
  | lose ho => exact .inl ⟨j, hx⟩
  | @join i hi hblank => exact .inl ((hput hx).elim (⟨i, ·⟩) (⟨j, ·⟩))

/-- The relation of a request is right, or some call still has to put it
right. -/
def RelatedNow (setting : ClientSetting) (L : Ledger) (request : ResourceRequest) : Prop :=
  match request.description.resourceRelations with
  | none => setting.isRootContainer request.path = true ∨ Owed L.duties request.path
  | some relations => ∃ id, relations = containedIn id ∧
      truthy (L.ids (setting.getParentContainer request.path)) = some id

structure Linked (setting : ClientSetting) (L : Ledger) : Prop where
  backed : Backed L.duties
  links : ∀ i path id, (path, id) ∈ (L.duties i).links → truthy (L.ids path) = some id
  last : ∀ path request, lastRequest L.requests path = some request → RelatedNow setting L request
  called : ∀ path ∈ L.called, Owed L.duties path ∨ (lastRequest L.requests path).isSome

/-- What a move does to the requests. -/
theorem Moves.requests (h : Moves o L L') : L'.requests = L.requests ∨
    ∃ i request h, i < L.count ∧ Duties.MayRegister o (L.duties i) h request ∧
      L' = { L.put i ((L.duties i).sent (.fetch (.resource request))) with
        requests := L.requests ++ [request] } := by
  cases h with
  | @send i request h hi hmay => exact .inr ⟨i, request, h, hi, hmay, rfl⟩
  | _ => exact .inl rfl

theorem RelatedNow.mono {request : ResourceRequest} (h : RelatedNow setting L request)
    (howed : Owed L.duties request.path → Owed L'.duties request.path)
    (hids : ∀ path id, truthy (L.ids path) = some id → truthy (L'.ids path) = some id) :
    RelatedNow setting L' request := by
  unfold RelatedNow at h ⊢
  split at h
  case h_1 => exact h.imp_right howed
  case h_2 =>
    obtain ⟨id, hrelations, hid⟩ := h
    exact ⟨id, hrelations, hids _ id hid⟩

theorem relatedNow_of_send {i : Nat} {request : ResourceRequest} {h : Hold}
    (hL : Linked setting L) (hmay : Duties.MayRegister o (L.duties i) h request)
    (hduties : ∀ j, j ≠ i → L'.duties j = L.duties j) (hids : L'.ids = L.ids) :
    RelatedNow setting L' request := by
  have hrelated := hmay.related
  unfold Duties.Related at hrelated
  unfold RelatedNow
  cases hrelations : request.description.resourceRelations with
  | none =>
    rw [hrelations] at hrelated
    refine hrelated.imp_right fun hb => ?_
    obtain ⟨j, hj, hpath⟩ := hL.backed i h request.path hmay.hold hb hmay.signal
    exact ⟨j, (hduties j hj).symm ▸ hpath⟩
  | some relations =>
    rw [hrelations] at hrelated
    obtain ⟨-, id, heq, hlink⟩ := hrelated
    exact ⟨id, heq, hids ▸ hL.links i _ id hlink⟩

theorem Moves.called (h : Moves o L L') {path : String} (hpath : path ∈ L'.called) :
    path ∈ L.called ∨ Owed L'.duties path := by
  cases h with
  | call debt =>
    refine (List.mem_append.mp hpath).imp_right fun hpath => ⟨L.count, ?_⟩
    exact (congrArg Duties.debt put_duties_self).trans (Option.mem_toList.mp hpath)
  | _ => exact .inl hpath

/-- A path that has a request keeps having one. -/
theorem Moves.lastRequest_isSome (h : Moves o L L') {path : String}
    (hpath : (lastRequest L.requests path).isSome) : (lastRequest L'.requests path).isSome := by
  rcases h.requests with hsame | ⟨i, sent, held, hi, hmay, rfl⟩
  · rwa [hsame]
  · rw [lastRequest_append]
    split
    · rfl
    · exact hpath

theorem Linked.step (hL : Linked setting L) (hexclusive : Exclusive L) (hasked : Asked L)
    (ho : o.reliable) (h : Moves o L L') : Linked setting L' := by
  have hfresh := hexclusive.fresh L.count (Nat.le_refl _)
  have hids : ∀ path id, truthy (L.ids path) = some id → truthy (L'.ids path) = some id :=
    fun _ _ => hasked.ids_mono hexclusive ho h
  refine ⟨hL.backed.step hexclusive h, fun j path id hx => ?_, ?_, ?_⟩
  · rcases h.links hx with ⟨i, hi⟩ | hid
    · exact hids path id (hL.links i path id hi)
    · exact hids path id hid
  · intro path request hlast
    rcases h.requests with hsame | ⟨i, sent, held, hi, hmay, rfl⟩
    · rw [hsame] at hlast
      refine (hL.last path request hlast).mono (fun howed => ?_) hids
      refine (h.owed hfresh howed).resolve_right ?_
      rintro ⟨sent, -, hsent⟩
      simp [hsame] at hsent
    · rw [lastRequest_append] at hlast
      split at hlast
      case isTrue hpath =>
        cases hlast
        exact relatedNow_of_send hL hmay (fun j hj => put_duties_of_ne hj) rfl
      case isFalse hpath =>
        refine (hL.last path request hlast).mono (fun howed => ?_) hids
        refine (h.owed hfresh howed).resolve_right ?_
        rintro ⟨sent', hpath', hsent⟩
        have hsame : sent = sent' := by simpa using hsent
        exact hpath (hsame ▸ hpath'.trans (path_of_lastRequest hlast))
  · intro path hpath
    rcases h.called hpath with hpath | howed
    · rcases hL.called path hpath with howed | hlast
      · refine (h.owed hfresh howed).imp_right ?_
        rintro ⟨sent, rfl, hsent⟩
        rw [hsent, lastRequest_append, if_pos rfl]
        rfl
      · exact .inr (h.lastRequest_isSome hlast)
    · exact .inl howed

/-! ## Ids that are asked for -/

/-- Who waits for an id has asked for it. -/
def Posted (L : Ledger) : Prop :=
  ∀ i path, L.stage i = some (.resource path, .posting) → L.posts path ≠ []

theorem Posted.step (hL : Posted L) (hfresh : ∀ i, L.count ≤ i → L.duties i = {}) (ho : o.reliable)
    (h : Moves o L L') : Posted L' := by
  intro j path hj
  have hold : ∀ i, L.stage i = some (.resource path, .posting) → L'.posts path ≠ [] := by
    intro i hi hnil
    refine hL i path hi ?_
    rcases h.requests with hsame | ⟨k, sent, held, hk, hmay, rfl⟩
    · rw [← posts_of_requests hsame]
      exact hnil
    · rw [posts_of_sends rfl] at hnil
      exact (List.append_eq_nil_iff.mp hnil).1
  cases h.stages hfresh with
  | same hstage | updates _ _ hstage => exact hold j (hstage ▸ hj)
  | enters hi hstage | leaves hi hphase hstage | stores hi hid hstage =>
    rw [hstage, Function.update_apply] at hj
    refine hold j ?_
    grind
  | @passes i c x hi hc hstage hids hrequests =>
    rw [hstage, Function.update_apply, Function.update_apply] at hj
    refine hold (if j = c then i else j) ?_
    grind
  | @learns i p hi hstage hids hrequests =>
    rw [hstage, Function.update_apply] at hj
    refine hold j ?_
    grind
  | @posts i request hi hupdate hstage hids hrequests =>
    rw [hstage, Function.update_apply] at hj
    split at hj
    case isTrue =>
      cases hj
      rw [posts_of_sends hrequests]
      simp [isPost, hupdate]
    case isFalse => exact hold j hj
  | loses ho' => exact absurd ho ho'

end UserManagedAccess.Css.UmaClient.Ledger
