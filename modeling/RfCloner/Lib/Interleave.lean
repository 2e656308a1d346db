/-
  Joining lists with a separator between each two.

  `join [l₀, l₁, …, lₙ] [s₀, …, sₙ₋₁]` is `l₀ ++ s₀ :: l₁ ++ s₁ :: … ++ lₙ`.  What is left of the
  separators after the last list is not used.
-/
import Mathlib.Data.List.Basic

namespace Interleave

variable {α : Type*}

/-- `l₀`, `s₀`, `l₁`, `s₁` and so on to the last of the lists. -/
def join : List (List α) → List α → List α
  | [], _ => []
  | l :: ls, seps => l ++ (seps.zip ls).flatMap fun p => p.1 :: p.2

@[simp] theorem join_nil (seps : List α) : join [] seps = [] := rfl

@[simp] theorem join_singleton (l : List α) (seps : List α) : join [l] seps = l := by
  simp [join]

@[simp] theorem join_cons_cons (l m : List α) (ls : List (List α)) (s : α) (seps : List α) :
    join (l :: m :: ls) (s :: seps) = l ++ s :: join (m :: ls) seps := by
  simp [join]

/-- The separators after the last list are not used. -/
theorem join_take (ls : List (List α)) : ∀ seps : List α,
    join ls (seps.take (ls.length - 1)) = join ls seps := by
  induction ls with
  | nil => exact fun _ => rfl
  | cons l ls ih =>
    intro seps
    cases ls with
    | nil => simp
    | cons m ls =>
      cases seps with
      | nil => rfl
      | cons s seps =>
        have hrest := ih seps
        simp only [List.length_cons, Nat.add_one_sub_one] at hrest ⊢
        rw [List.take_succ_cons, join_cons_cons, join_cons_cons, hrest]

/-- Leaving the separators out leaves the lists, one after the other. -/
theorem filter_join {p : α → Bool} (ls : List (List α)) : ∀ {seps : List α},
    seps.length = ls.length - 1 → (∀ l ∈ ls, ∀ a ∈ l, p a = true) → (∀ s ∈ seps, p s = false) →
    (join ls seps).filter p = ls.flatten := by
  induction ls with
  | nil => exact fun _ _ _ => rfl
  | cons l ls ih =>
    intro seps hlen hkept hdropped
    rw [List.forall_mem_cons] at hkept
    have hl : l.filter p = l := List.filter_eq_self.mpr hkept.1
    cases ls with
    | nil => simpa using hl
    | cons m ls =>
      obtain ⟨s, seps, rfl⟩ : ∃ s rest, seps = s :: rest := by
        cases seps with
        | nil => simp at hlen
        | cons s rest => exact ⟨s, rest, rfl⟩
      rw [List.forall_mem_cons] at hdropped
      have hrest := ih (by simpa using hlen) hkept.2 hdropped.2
      rw [join_cons_cons, List.filter_append, hl, List.filter_cons, hdropped.1, hrest,
        List.flatten_cons]
      rfl

/-- A separator stands between the list before it and the one after it. -/
theorem infix_join (ls : List (List α)) : ∀ {seps : List α} {l m : List α} {s : α},
    (l, m, s) ∈ ls.zip (ls.tail.zip seps) → l ++ s :: m <:+: join ls seps := by
  induction ls with
  | nil => exact fun h => nomatch h
  | cons l ls ih =>
    intro seps l' m' s' h
    cases ls with
    | nil => simp at h
    | cons m ls =>
      cases seps with
      | nil => simp at h
      | cons s seps =>
        rw [join_cons_cons]
        rw [List.tail_cons, List.zip_cons_cons, List.zip_cons_cons] at h
        rcases List.mem_cons.mp h with heq | hmem
        · obtain ⟨rfl, rfl, rfl⟩ : l' = l ∧ m' = m ∧ s' = s := by simpa using heq
          -- the join goes on with the list after the separator
          obtain ⟨rest, hrest⟩ : m' <+: join (m' :: ls) seps := List.prefix_append _ _
          exact ⟨[], rest, by simp [← hrest]⟩
        · obtain ⟨before, after, hsplit⟩ := ih hmem
          exact ⟨l ++ s :: before, after, by rw [← hsplit]; simp⟩

end Interleave
