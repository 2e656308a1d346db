/-
  Runs, moment by moment.

  A run folds a step over its events; its moment `k` is the state after the first `k` of them.
  `inv` is the induction that carries an invariant through the moments, `exact_iff` the one that
  tells which event breaks a property: where an event keeps it exactly under a condition, it holds at
  every moment exactly if every event meets the condition.  `since_iff` is about a property that
  comes and goes.  `never_back_iff` is about a register that the events write: it never goes back
  exactly if no write is below an earlier one.
-/
import Mathlib.Data.List.Basic
import Mathlib.Order.Basic

namespace Runs

variable {σ ε : Type*} {step : σ → ε → σ} {x : σ} {events : List ε} {k : Nat} {event : ε}

variable (step x events) in
/-- The state after the first `k` events. -/
abbrev moment (k : Nat) : σ := (events.take k).foldl step x

theorem moment_succ (h : events[k]? = some event) :
    moment step x events (k + 1) = step (moment step x events k) event := by
  show (events.take (k + 1)).foldl step x = _
  rw [List.take_add_one, h, List.foldl_append]
  rfl

/-- Nothing happens after the last event. -/
theorem moment_succ_of_none (h : events[k]? = none) :
    moment step x events (k + 1) = moment step x events k := by
  show (events.take (k + 1)).foldl step x = _
  rw [List.take_add_one, h, List.foldl_append]
  rfl

/-- Every event of a run meets a condition if the first does, and those of the run from there. -/
theorem forall_moment_cons {C : σ → ε → Prop} :
    (∀ k e, (event :: events)[k]? = some e → C (moment step x (event :: events) k) e) ↔
      C x event ∧ ∀ k e, events[k]? = some e → C (moment step (step x event) events k) e := by
  constructor
  · exact fun h => ⟨h 0 event rfl, fun k e he => h (k + 1) e he⟩
  · rintro ⟨hfirst, hrest⟩ k e he
    cases k with
    | zero =>
      cases he
      exact hfirst
    | succ k => exact hrest k e he

/-- What no event takes back grows with the moments. -/
theorem le_of_le {α : Type*} [Preorder α] {f : σ → α}
    (hstep : ∀ y, ∀ event ∈ events, f y ≤ f (step y event)) {j : Nat} (hj : j ≤ k) :
    f (moment step x events j) ≤ f (moment step x events k) := by
  induction k with
  | zero => rw [Nat.le_zero.mp hj]
  | succ k ih =>
    rcases Nat.lt_or_eq_of_le hj with hlt | rfl
    · refine le_trans (ih (by omega)) ?_
      cases hevent : events[k]? with
      | none => rw [moment_succ_of_none hevent]
      | some event =>
        rw [moment_succ hevent]
        exact hstep _ event (List.mem_of_getElem? hevent)
    · exact le_rfl

/-- What the events keep holds at every moment. -/
theorem inv {I : σ → Prop} (hx : I x) (hstep : ∀ y, ∀ event ∈ events, I y → I (step y event))
    (k : Nat) : I (moment step x events k) :=
  List.foldlRecOn (events.take k) step hx
    fun y hy event hevent => hstep y event (List.mem_of_mem_take hevent) hy

variable (events) in
/-- A property of the moments, which an event carries on exactly under a condition, for as long as
    there is the invariant. -/
theorem forall_le_iff {I Q : Nat → Prop} {C : Nat → ε → Prop} (hI : I 0) (hQ : Q 0)
    (hstep : ∀ k event, events[k]? = some event → I k → Q k →
      I (k + 1) ∧ (Q (k + 1) ↔ C k event)) :
    (∀ k ≤ events.length, Q k) ↔ ∀ k event, events[k]? = some event → C k event := by
  have hnext : ∀ {k} (hk : k < events.length), events[k]? = some events[k] :=
    fun hk => List.getElem?_eq_getElem hk
  constructor
  · intro hall
    -- the property holds everywhere, and so does the invariant
    have hinv : ∀ k ≤ events.length, I k := by
      intro k
      induction k with
      | zero => exact fun _ => hI
      | succ k ih =>
        intro hk
        exact (hstep k _ (hnext hk) (ih (by omega)) (hall k (by omega))).1
    intro k event hevent
    have hk : k < events.length := (List.getElem?_eq_some_iff.mp hevent).1
    exact (hstep k event hevent (hinv k (by omega)) (hall k (by omega))).2.mp (hall (k + 1) hk)
  · intro hmeets
    -- neither the invariant nor the property gets on without the other
    have hboth : ∀ k ≤ events.length, I k ∧ Q k := by
      intro k
      induction k with
      | zero => exact fun _ => ⟨hI, hQ⟩
      | succ k ih =>
        intro hk
        obtain ⟨hinv, hprop⟩ := ih (by omega)
        obtain ⟨hinv', hkeeps⟩ := hstep k _ (hnext hk) hinv hprop
        exact ⟨hinv', hkeeps.mpr (hmeets k _ (hnext hk))⟩
    exact fun k hk => (hboth k hk).2

variable (step x events) in
/-- **A property holds at every moment exactly if every event meets the condition under which it
    keeps the property.** -/
theorem exact_iff {I Q : σ → Prop} {C : σ → ε → Prop} (hI : I x) (hQ : Q x)
    (hstep : ∀ y, ∀ event ∈ events, I y → Q y → I (step y event) ∧ (Q (step y event) ↔ C y event)) :
    (∀ k ≤ events.length, Q (moment step x events k)) ↔
    ∀ k event, events[k]? = some event → C (moment step x events k) event := by
  refine forall_le_iff events (I := fun k => I (moment step x events k)) hI hQ ?_
  intro k event hevent hinv hprop
  rw [moment_succ hevent]
  exact hstep _ event (List.mem_of_getElem? hevent) hinv hprop

/-! ## Since when -/

/-- **What some moments lose and some restore** holds exactly if the last loss has been made good. -/
theorem since_iff {Q lost restored : Nat → Prop} {n : Nat} (h0 : Q 0)
    (hstep : ∀ k < n, (restored k → Q (k + 1)) ∧ (lost k → ¬ Q (k + 1)) ∧
      (¬ restored k → ¬ lost k → (Q (k + 1) ↔ Q k))) {k : Nat} (hk : k ≤ n) :
    Q k ↔ ∀ j < k, lost j → ∃ i, j < i ∧ i < k ∧ restored i := by
  induction k with
  | zero => exact ⟨fun _ j hj => absurd hj (Nat.not_lt_zero j), fun _ => h0⟩
  | succ k ih =>
    obtain ⟨hgood, hbad, hsame⟩ := hstep k (by omega)
    by_cases hrestored : restored k
    · refine ⟨fun _ j hj hlost => ⟨k, ?_, by omega, hrestored⟩, fun _ => hgood hrestored⟩
      -- a moment does not lose what it restores
      rcases Nat.lt_or_eq_of_le (show j ≤ k by omega) with hlt | rfl
      · exact hlt
      · exact absurd (hgood hrestored) (hbad hlost)
    · by_cases hlost : lost k
      · refine ⟨fun hq => absurd hq (hbad hlost), fun h => ?_⟩
        obtain ⟨i, hi, hi', -⟩ := h k (by omega) hlost
        omega
      · rw [hsame hrestored hlost, ih (by omega)]
        constructor
        · intro h j hj hlostj
          rcases Nat.lt_or_eq_of_le (show j ≤ k by omega) with hlt | rfl
          · obtain ⟨i, hi, hi', hres⟩ := h j hlt hlostj
            exact ⟨i, hi, by omega, hres⟩
          · exact absurd hlostj hlost
        · intro h j hj hlostj
          obtain ⟨i, hi, hi', hres⟩ := h j (by omega) hlostj
          rcases Nat.lt_or_eq_of_le (show i ≤ k by omega) with hlt | rfl
          · exact ⟨i, hi, hlt, hres⟩
          · exact absurd hres hrestored

/-! ## A register -/

/-- A register holds what was written to it last, or what it held at first. -/
theorem last_written {α : Type*} {v : Nat → α} {written : Nat → Option α} {n : Nat}
    (hv : ∀ k < n, v (k + 1) = (written k).getD (v k)) {k : Nat} (hk : k ≤ n) :
    v k = v 0 ∨ ∃ j < k, written j = some (v k) := by
  induction k with
  | zero => exact Or.inl rfl
  | succ k ih =>
    rw [hv k hk]
    cases hwritten : written k with
    | some a => exact Or.inr ⟨k, Nat.lt_succ_self k, hwritten⟩
    | none =>
      rcases ih (by omega) with hfirst | ⟨j, hj, hlast⟩
      · exact Or.inl hfirst
      · exact Or.inr ⟨j, by omega, hlast⟩

/-- A register that is not written to holds what it held. -/
theorem eq_of_unwritten {α : Type*} {v : Nat → α} {written : Nat → Option α} {j k : Nat} (hj : j ≤ k)
    (hv : ∀ l, j ≤ l → l < k → v (l + 1) = (written l).getD (v l))
    (hnone : ∀ l, j ≤ l → l < k → written l = none) : v k = v j := by
  induction k with
  | zero => rw [Nat.le_zero.mp hj]
  | succ k ih =>
    rcases Nat.lt_or_eq_of_le hj with hlt | rfl
    · rw [hv k (by omega) (by omega), hnone k (by omega) (by omega)]
      exact ih (by omega) (fun l hl hl' => hv l hl (by omega)) fun l hl hl' => hnone l hl (by omega)
    · rfl

/-- **A register never goes back exactly if each write is at least as high as what it held at first
    and as every write before.** -/
theorem never_back_iff {α : Type*} [Preorder α] {v : Nat → α} {written : Nat → Option α} {n : Nat}
    (hv : ∀ k < n, v (k + 1) = (written k).getD (v k)) :
    (∀ k < n, v k ≤ v (k + 1)) ↔
    ∀ k < n, ∀ a, written k = some a →
      v 0 ≤ a ∧ ∀ j < k, ∀ b, written j = some b → b ≤ a := by
  have hafter : ∀ k < n, ∀ a, written k = some a → v (k + 1) = a := by
    intro k hk a ha
    rw [hv k hk, ha]
    rfl
  constructor
  · intro hall k hk a ha
    have hle : ∀ k ≤ n, ∀ j ≤ k, v j ≤ v k := by
      intro k
      induction k with
      | zero =>
        intro _ j hj
        rw [Nat.le_zero.mp hj]
      | succ k ih =>
        intro hk j hj
        rcases Nat.lt_or_eq_of_le hj with hlt | rfl
        · exact le_trans (ih (by omega) j (by omega)) (hall k hk)
        · exact le_rfl
    rw [← hafter k hk a ha]
    refine ⟨hle (k + 1) hk 0 (by omega), fun j hj b hb => ?_⟩
    rw [← hafter j (by omega) b hb]
    exact hle (k + 1) hk (j + 1) (by omega)
  · intro hwrites k hk
    cases hwritten : written k with
    | none =>
      rw [hv k hk, hwritten]
      exact le_rfl
    | some a =>
      rw [hafter k hk a hwritten]
      obtain ⟨hfirst, hearlier⟩ := hwrites k hk a hwritten
      rcases last_written hv (Nat.le_of_lt hk) with hheld | ⟨j, hj, hlast⟩
      · rw [hheld]
        exact hfirst
      · exact hearlier j hj (v k) hlast

end Runs
