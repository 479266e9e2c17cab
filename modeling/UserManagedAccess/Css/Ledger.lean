/-
UserManagedAccess.Css.Ledger — the duties of all calls at once.

A ledger is what matters of a client about marks and registrations: the set
`inProgress`, the ids that are stored, the requests that were sent, and the
duties of each call. Its moves are what calls do that obey. A move changes who
holds a signal in a few ways only (`Shifts`), and the invariants below are
proved of these.

- `Exclusive`: no two calls hold the same signal, whatever fails.
- `Owned`: where nothing fails, every signal in `inProgress` is held.
- `Accounted`: where nothing fails, who holds a signal can be found from the
  call that put it there.
-/
import UserManagedAccess.Css.Duties

namespace UserManagedAccess.Css.UmaClient

open UserManagedAccess.Lib UserManagedAccess.Util UserManagedAccess.Views

structure Ledger where
  inProgress : Finset Signal
  ids : String → Option String
  requests : List ResourceRequest := []
  /-- Who has put which signal into `inProgress`. -/
  entered : List (Nat × Signal) := []
  /-- The resources that calls from outside register. -/
  called : List String := []
  duties : Nat → Duties := fun _ => {}
  count : Nat := 0

namespace Ledger

def put (L : Ledger) (i : Nat) (d : Duties) : Ledger :=
  { L with duties := Function.update L.duties i d }

@[simp] theorem put_duties_self {L : Ledger} {i : Nat} {d : Duties} : (L.put i d).duties i = d :=
  Function.update_self ..

theorem put_duties_of_ne {L : Ledger} {i j : Nat} {d : Duties} (h : j ≠ i) :
    (L.put i d).duties j = L.duties j := Function.update_of_ne h ..

/-- What calls do that obey. -/
inductive Moves {setting : ClientSetting} (o : Outcomes setting) (L : Ledger) : Ledger → Prop
  | stay : Moves o L L
  | call (debt : Option String) : Moves o L
      { L.put L.count { debt } with called := L.called ++ debt.toList, count := L.count + 1 }
  | start {i call child rest} (hi : i < L.count)
      (hsplits : Duties.Splits o (L.duties i) call child rest) : Moves o L
      { (L.put i (rest L.count)).put L.count child with count := L.count + 1 }
  | enter {i signal} (hi : i < L.count) (hhold : (L.duties i).hold = none)
      (hsignal : signal ∉ L.inProgress) : Moves o L
      { L.put i { L.duties i with hold := some { signal } } with
        inProgress := insert signal L.inProgress
        entered := L.entered ++ [(i, signal)] }
  | leave {i h} (hi : i < L.count) (hhold : (L.duties i).hold = some h)
      (hphase : h.phase ≠ .posting) : Moves o L
      { L.put i { L.duties i with hold := none } with inProgress := L.inProgress.erase h.signal }
  | send {i request h} (hi : i < L.count) (hmay : Duties.MayRegister o (L.duties i) h request) :
      Moves o L
      { L.put i ((L.duties i).sent (.fetch (.resource request))) with
        requests := L.requests ++ [request] }
  | learn {i} (path : String) (hi : i < L.count) :
      Moves o L (L.put i ((L.duties i).learned path (L.ids path)))
  | store {i path id h} (hi : i < L.count) (hhold : (L.duties i).hold = some h)
      (hsignal : h.signal = .resource path) (hphase : h.phase = .posting)
      (hid : o.identified → o.valid path id) : Moves o L
      { L.put i { L.duties i with hold := some { h with phase := .known } } with
        ids := Function.update L.ids path (some id) }
  /-- The id was stored, but the call does not know. -/
  | lose {path id} (ho : ¬ o.reliable) :
      Moves o L { L with ids := Function.update L.ids path (some id) }
  | join {i} (hi : i < L.count) (hblank : o.reliable → ∀ j ∈ (L.duties i).owes, (L.duties j).Blank) :
      Moves o L (L.put i { L.duties i with owes := [] })

/-! ## Who holds what -/

/-- The signal a call holds. -/
def held (L : Ledger) (i : Nat) : Option Signal := (L.duties i).hold.map Hold.signal

theorem held_eq_some {L : Ledger} {i : Nat} {h : Hold} (hhold : (L.duties i).hold = some h) :
    L.held i = some h.signal := by rw [held, hhold]; rfl

theorem held_put {L : Ledger} {i : Nat} {d : Duties} :
    (L.put i d).held = Function.update L.held i (d.hold.map Hold.signal) := by
  funext j
  by_cases hj : j = i
  · subst hj
    simp [held]
  · simp [held, put_duties_of_ne hj, hj]

theorem held_put_of_eq {L : Ledger} {i : Nat} {d : Duties}
    (h : d.hold.map Hold.signal = L.held i) : (L.put i d).held = L.held := by
  rw [held_put, h, Function.update_eq_self]

/-- The ways in which holders change. -/
inductive Shifts (L L' : Ledger) : Prop
  | same (hheld : L'.held = L.held) (hmarks : L'.inProgress = L.inProgress)
  | gains {i s} (hi : L.held i = none) (hs : s ∉ L.inProgress)
      (hheld : L'.held = Function.update L.held i (some s))
      (hmarks : L'.inProgress = insert s L.inProgress)
  | drops {i s} (hi : L.held i = some s) (hheld : L'.held = Function.update L.held i none)
      (hmarks : L'.inProgress = L.inProgress.erase s)
  | passes {i j s} (hi : L.held i = some s) (hj : L.held j = none)
      (hheld : L'.held = Function.update (Function.update L.held i none) j (some s))
      (hmarks : L'.inProgress = L.inProgress)

variable {setting : ClientSetting} {o : Outcomes setting} {L L' : Ledger}

theorem held_put_put_of_eq {i : Nat} {d child : Duties} (hnew : L.held L.count = none)
    (h : d.hold.map Hold.signal = L.held i) (hchild : child.hold = none) :
    ((L.put i d).put L.count child).held = L.held := by
  rw [held_put_of_eq, held_put_of_eq h]
  rw [held_put_of_eq h, hnew, hchild]
  rfl

theorem Moves.shifts (hfresh : ∀ i, L.count ≤ i → L.duties i = {}) (h : Moves o L L') :
    Shifts L L' := by
  have hnew : L.held L.count = none := by rw [held, hfresh _ (Nat.le_refl _)]; rfl
  cases h with
  | stay => exact .same rfl rfl
  | call debt => exact .same (held_put_of_eq hnew.symm) rfl
  | @start i call child rest hi hsplits =>
    cases hsplits with
    | free hdeclared hmarks => exact .same (held_put_put_of_eq hnew rfl rfl) rfl
    | pass hregisters hdebt => exact .same (held_put_put_of_eq hnew rfl rfl) rfl
    | follow hregisters hhold hpath =>
      exact .same (held_put_put_of_eq hnew (held_eq_some hhold).symm rfl) rfl
    | send hmay hown hdebt =>
      refine .passes (held_eq_some hmay.hold) hnew ?_ rfl
      exact held_put.trans (by rw [held_put]; rfl)
  | @enter i signal hi hhold hsignal =>
    exact .gains (i := i) (by rw [held, hhold]; rfl) hsignal held_put rfl
  | @leave i h hi hhold hphase => exact .drops (held_eq_some hhold) held_put rfl
  | @send i request h hi hmay =>
    refine .same (held_put_of_eq ?_) rfl
    rw [held_eq_some hmay.hold]
    cases hupdate : request.update <;> simp [Duties.sent, hupdate, hmay.hold]
  | @learn i path hi =>
    refine .same (held_put_of_eq ?_) rfl
    cases hhold : (L.duties i).hold with
    | none => simp [Duties.learned, held, hhold]
    | some h =>
      rw [held_eq_some hhold]
      simp only [Duties.learned, hhold, Option.map_some]
      split <;> rfl
  | @store i path id h hi hhold hsignal hphase hid =>
    exact .same (held_put_of_eq (held_eq_some hhold).symm) rfl
  | lose ho => exact .same rfl rfl
  | join hi hblank => exact .same (held_put_of_eq rfl) rfl

/-! ### Exclusion -/

/-- No two calls hold the same signal. -/
structure Exclusive (L : Ledger) : Prop where
  fresh : ∀ i, L.count ≤ i → L.duties i = {}
  held : ∀ i s, L.held i = some s → s ∈ L.inProgress
  unique : ∀ i j s, L.held i = some s → L.held j = some s → i = j

theorem Moves.fresh (h : Moves o L L') (hfresh : ∀ i, L.count ≤ i → L.duties i = {}) :
    ∀ i, L'.count ≤ i → L'.duties i = {} := by
  have hput : ∀ {i d}, i < L.count → ∀ j, L.count ≤ j → (L.put i d).duties j = {} := by
    intro i d hi j hj
    rw [put_duties_of_ne (by omega)]
    exact hfresh j hj
  cases h with
  | stay => exact hfresh
  | call debt =>
    intro j hj
    have hj : L.count + 1 ≤ j := hj
    exact (put_duties_of_ne (by omega)).trans (hfresh j (by omega))
  | @start i call child rest hi hsplits =>
    intro j hj
    have hj : L.count + 1 ≤ j := hj
    exact (put_duties_of_ne (by omega)).trans (hput hi j (by omega))
  | enter hi hhold hsignal => exact hput hi
  | leave hi hhold hphase => exact hput hi
  | send hi hmay => exact hput hi
  | learn path hi => exact hput hi
  | store hi hhold hsignal hphase hid => exact hput hi
  | lose ho => exact hfresh
  | join hi hblank => exact hput hi

/-- **Exclusion is kept** by every move, whatever fails. -/
theorem Exclusive.step (hL : Exclusive L) (h : Moves o L L') : Exclusive L' := by
  have hheld := hL.held
  have hunique := hL.unique
  refine ⟨h.fresh hL.fresh, fun j t hj => ?_, fun j k t hj hk => ?_⟩
  · cases h.shifts hL.fresh with
    | same hsame hmarks =>
      rw [hsame] at hj
      exact hmarks ▸ hheld j t hj
    | gains hi hs hsame hmarks =>
      rw [hsame, Function.update_apply] at hj
      rw [hmarks]
      grind
    | drops hi hsame hmarks =>
      rw [hsame, Function.update_apply] at hj
      rw [hmarks]
      grind
    | passes hi hnew hsame hmarks =>
      rw [hsame, Function.update_apply, Function.update_apply] at hj
      rw [hmarks]
      grind
  · cases h.shifts hL.fresh with
    | same hsame hmarks =>
      rw [hsame] at hj hk
      exact hunique j k t hj hk
    | gains hi hs hsame hmarks =>
      rw [hsame, Function.update_apply] at hj hk
      grind
    | drops hi hsame hmarks =>
      rw [hsame, Function.update_apply] at hj hk
      grind
    | passes hi hnew hsame hmarks =>
      rw [hsame, Function.update_apply, Function.update_apply] at hj hk
      grind

/-- Every signal in `inProgress` is held by a call. -/
def Owned (L : Ledger) : Prop := ∀ s ∈ L.inProgress, ∃ i, L.held i = some s

theorem Owned.step (hL : Owned L) (hfresh : ∀ i, L.count ≤ i → L.duties i = {})
    (h : Moves o L L') : Owned L' := by
  intro t ht
  cases h.shifts hfresh with
  | same hheld hmarks =>
    rw [hheld]
    exact hL t (hmarks ▸ ht)
  | @gains i s hi hs hheld hmarks =>
    rw [hheld]
    by_cases hts : t = s
    · exact ⟨i, by rw [hts, Function.update_self]⟩
    · obtain ⟨j, hj⟩ := hL t (Finset.mem_of_mem_insert_of_ne (hmarks ▸ ht) hts)
      refine ⟨j, ?_⟩
      rw [Function.update_of_ne (by rintro rfl; simp [hi] at hj)]
      exact hj
  | @drops i s hi hheld hmarks =>
    obtain ⟨hts, ht⟩ := Finset.mem_erase.mp (hmarks ▸ ht)
    obtain ⟨j, hj⟩ := hL t ht
    refine ⟨j, ?_⟩
    rw [hheld, Function.update_of_ne]
    · exact hj
    · rintro rfl
      exact hts (Option.some.inj (hj.symm.trans hi))
  | @passes i c s hi hc hheld hmarks =>
    obtain ⟨j, hj⟩ := hL t (hmarks ▸ ht)
    rw [hheld]
    by_cases hji : j = i
    · exact ⟨c, by rw [Function.update_self, ← hi, ← hji, hj]⟩
    · refine ⟨j, ?_⟩
      rw [Function.update_of_ne (by rintro rfl; simp [hc] at hj), Function.update_of_ne hji]
      exact hj

/-! ### Accounts -/

/-- Where a held signal comes from: the call has put it there itself, or a
call that has to wait for it has. -/
def Accounts (entered : List (Nat × Signal)) (duties : Nat → Duties) (i : Nat) (h : Hold) : Prop :=
  if h.own then (i, h.signal) ∈ entered
  else ∃ k, (k, h.signal) ∈ entered ∧ i ∈ (duties k).owes

def Accounted (entered : List (Nat × Signal)) (duties : Nat → Duties) : Prop :=
  ∀ i h, (duties i).hold = some h → Accounts entered duties i h

section

variable {entered entered' : List (Nat × Signal)} {duties duties' : Nat → Duties} {i : Nat}

theorem Accounts.mono {h : Hold} (hmem : ∀ x ∈ entered, x ∈ entered')
    (howes : ∀ k, i ∈ (duties k).owes → i ∈ (duties' k).owes)
    (haccounts : Accounts entered duties i h) : Accounts entered' duties' i h := by
  unfold Accounts at haccounts ⊢
  by_cases hown : h.own = true
  · rw [if_pos hown] at haccounts ⊢
    exact hmem _ haccounts
  · rw [if_neg hown] at haccounts ⊢
    obtain ⟨k, hk, hi⟩ := haccounts
    exact ⟨k, hmem _ hk, howes k hi⟩

theorem Accounts.of_tag {h h' : Hold} (haccounts : Accounts entered duties i h)
    (hsignal : h'.signal = h.signal) (hown : h'.own = h.own) : Accounts entered duties i h' := by
  unfold Accounts at haccounts ⊢
  rw [hsignal, hown]
  exact haccounts

theorem Accounted.mono (haccounted : Accounted entered duties)
    (hmem : ∀ x ∈ entered, x ∈ entered') : Accounted entered' duties :=
  fun i h hhold => (haccounted i h hhold).mono hmem fun _ => id

theorem Accounted.update {d : Duties} (haccounted : Accounted entered duties)
    (hnew : ∀ h, d.hold = some h → Accounts entered duties i h)
    (howes : ∀ j ∈ (duties i).owes, j ∈ d.owes) : Accounted entered (Function.update duties i d) := by
  have hgrow : ∀ j k, j ∈ (duties k).owes → j ∈ (Function.update duties i d k).owes := by
    intro j k hj
    by_cases hk : k = i
    · subst hk
      rw [Function.update_self]
      exact howes j hj
    · rwa [Function.update_of_ne hk]
  intro j h hhold
  by_cases hj : j = i
  · subst hj
    rw [Function.update_self] at hhold
    exact (hnew h hhold).mono (fun _ => id) (hgrow j)
  · rw [Function.update_of_ne hj] at hhold
    exact (haccounted j h hhold).mono (fun _ => id) (hgrow j)

/-- The same, where the call holds what it held. -/
theorem Accounted.update_of_hold {d : Duties} (haccounted : Accounted entered duties)
    (hhold : ∀ h, d.hold = some h →
      ∃ h', (duties i).hold = some h' ∧ h.signal = h'.signal ∧ h.own = h'.own)
    (howes : ∀ j ∈ (duties i).owes, j ∈ d.owes) : Accounted entered (Function.update duties i d) := by
  refine haccounted.update (fun h hh => ?_) howes
  obtain ⟨h', hh', hsignal, hown⟩ := hhold h hh
  exact (haccounted i h' hh').of_tag hsignal hown

/-- A call that has waited for calls that hold nothing. -/
theorem Accounted.join (haccounted : Accounted entered duties)
    (hblank : ∀ j ∈ (duties i).owes, (duties j).hold = none) :
    Accounted entered (Function.update duties i { duties i with owes := [] }) := by
  intro j h hhold
  have hj : (duties j).hold = some h := by
    by_cases hj : j = i
    · subst hj
      rwa [Function.update_self] at hhold
    · rwa [Function.update_of_ne hj] at hhold
  have haccounts := haccounted j h hj
  unfold Accounts at haccounts ⊢
  by_cases hown : h.own = true
  · rw [if_pos hown] at haccounts ⊢
    exact haccounts
  · rw [if_neg hown] at haccounts ⊢
    obtain ⟨k, hk, howed⟩ := haccounts
    refine ⟨k, hk, ?_⟩
    rw [Function.update_of_ne]
    · exact howed
    · rintro rfl
      simp [hblank j howed] at hj

end

theorem Accounted.step (haccounted : Accounted L.entered L.duties) (ho : o.reliable)
    (hfresh : ∀ i, L.count ≤ i → L.duties i = {}) (h : Moves o L L') :
    Accounted L'.entered L'.duties := by
  have hnew : ∀ d : Duties, ∀ j ∈ (L.duties L.count).owes, j ∈ d.owes := by
    rw [hfresh _ (Nat.le_refl _)]
    exact fun _ _ h => nomatch h
  cases h with
  | stay => exact haccounted
  | call debt => exact haccounted.update (fun _ h => nomatch h) (hnew _)
  | @start i call child rest hi hsplits =>
    have hne : L.count ≠ i := by omega
    have hstart : ∀ {d child : Duties}, Accounted L.entered (Function.update L.duties i d) →
        (∀ h, child.hold = some h → Accounts L.entered (Function.update L.duties i d) L.count h) →
          Accounted L.entered (Function.update (Function.update L.duties i d) L.count child) := by
      intro d child hd hchild
      refine hd.update hchild ?_
      rw [Function.update_of_ne hne]
      exact hnew _
    cases hsplits with
    | free hdeclared hmarks =>
      refine hstart (haccounted.update_of_hold (fun h hh => ⟨h, hh, rfl, rfl⟩) ?_) fun _ h => nomatch h
      exact fun _ => List.mem_cons_of_mem _
    | pass hregisters hdebt =>
      refine hstart (haccounted.update_of_hold (fun h hh => ⟨h, hh, rfl, rfl⟩) ?_) fun _ h => nomatch h
      exact fun _ => List.mem_cons_of_mem _
    | follow hregisters hhold hpath =>
      refine hstart (haccounted.update_of_hold (fun h hh => ?_) ?_) fun _ h => nomatch h
      · cases hh
        exact ⟨_, hhold, rfl, rfl⟩
      · exact fun _ => List.mem_cons_of_mem _
    | @send h request hmay hown hdebt =>
      refine hstart (haccounted.update (fun _ h => nomatch h) fun _ => List.mem_cons_of_mem _)
        fun h' hh => ?_
      cases hh
      have hentered := haccounted i h hmay.hold
      rw [Accounts, if_pos hown] at hentered
      rw [Accounts, if_neg Bool.false_ne_true]
      exact ⟨i, hentered, by rw [Function.update_self]; exact List.mem_cons_self⟩
  | @enter i signal hi hhold hsignal =>
    refine (haccounted.mono fun _ => List.mem_append_left _).update (fun h hh => ?_) fun _ => id
    cases hh
    rw [Accounts, if_pos rfl]
    simp
  | leave hi hhold hphase => exact haccounted.update (fun _ h => nomatch h) fun _ => id
  | send hi hmay =>
    refine haccounted.update_of_hold (fun h' hh => ?_) fun _ => id
    obtain ⟨h, hhold, hsignal, hown, -⟩ := Duties.hold_of_sent hh
    exact ⟨h, hhold, hsignal, hown⟩
  | learn path hi =>
    refine haccounted.update_of_hold (fun h' hh => ?_) fun _ => id
    obtain ⟨h, hhold, hsignal, hown, -⟩ := Duties.hold_of_learned hh
    exact ⟨h, hhold, hsignal, hown⟩
  | @store i path id h hi hhold hsignal hphase hid =>
    refine haccounted.update_of_hold (fun h' hh => ?_) fun _ => fun h => h
    cases hh
    exact ⟨h, hhold, rfl, rfl⟩
  | lose ho' => exact absurd ho ho'
  | join hi hblank => exact haccounted.join fun j hj => (hblank ho j hj).hold

end Ledger

end UserManagedAccess.Css.UmaClient
