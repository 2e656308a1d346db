/-
  Tables of slots.

  A program without a heap keeps its records in a fixed row of slots, some of them free, and finds
  them by scanning for a key.  This file has what such a program needs to know about its row,
  whatever the records are:

  * reading and setting one slot (`get_set`), and the occupied slots as a list (`content`);
  * keys that no two occupied slots share (`Distinct`): setting one slot keeps them distinct when
    the new key is not used elsewhere (`Distinct.set`), and a scan then finds *the* slot of a key
    (`Distinct.findKey_eq`);
  * a scan for a free slot, which succeeds exactly while the row is not full (`findFree_isSome`);
  * totals over the occupied slots (`total_set`, `total_le`).

  Slots are addressed by position, and a position past the end reads as free, so that no statement
  has to carry a bound.
-/
import Mathlib.Algebra.Order.BigOperators.Group.List
import Mathlib.Algebra.Order.Ring.Nat
import Mathlib.Data.List.Nodup
import Mathlib.Tactic.Push

/-- What can be kept in a slot: some contents are a record, and `free` is not. -/
class Slotted (α : Type) where
  free : α
  occupied : α → Bool
  occupied_free : occupied free = false

namespace SlotTable

open Slotted

variable {α κ : Type} [Slotted α] {l l' : List α} {i k : Nat} {c : α}

attribute [simp] Slotted.occupied_free

/-! ## One slot -/

/-- The contents of slot `i`. -/
def get (l : List α) (i : Nat) : α := l.getD i free

theorem get_of_lt (hi : i < l.length) : get l i = l[i] := by
  rw [get, List.getD_eq_getElem?_getD, List.getElem?_eq_getElem hi, Option.getD_some]

theorem get_of_le (hi : l.length ≤ i) : get l i = free := by
  rw [get, List.getD_eq_getElem?_getD, List.getElem?_eq_none hi, Option.getD_none]

theorem lt_of_occupied (h : occupied (get l i) = true) : i < l.length := by
  by_contra hi
  rw [get_of_le (by omega), occupied_free] at h
  cases h

theorem get_set (hi : i < l.length) (c : α) (k : Nat) :
    get (l.set i c) k = if k = i then c else get l k := by
  by_cases hk : k < l.length
  · rw [get_of_lt (by rwa [List.length_set]), List.getElem_set, get_of_lt hk]
    by_cases hki : k = i
    · rw [if_pos hki, if_pos hki.symm]
    · rw [if_neg hki, if_neg (Ne.symm hki)]
  · rw [if_neg (by omega), get_of_le (by rw [List.length_set]; omega), get_of_le (by omega)]

@[simp] theorem get_set_self (hi : i < l.length) (c : α) : get (l.set i c) i = c := by
  rw [get_set hi, if_pos rfl]

theorem get_set_ne (hi : i < l.length) (c : α) (hk : k ≠ i) : get (l.set i c) k = get l k := by
  rw [get_set hi, if_neg hk]

@[simp] theorem get_replicate (n i : Nat) : get (List.replicate n (free : α)) i = free := by
  by_cases hi : i < (List.replicate n (free : α)).length
  · rw [get_of_lt hi, List.getElem_replicate]
  · exact get_of_le (by omega)

/-- Setting a slot and setting it back. -/
theorem set_set_get (hi : i < l.length) (c : α) : (l.set i c).set i (get l i) = l := by
  rw [List.set_set, get_of_lt hi, List.set_getElem_self]

/-! ## The occupied slots -/

/-- The records in the row, in slot order. -/
def content (l : List α) : List α := l.filter fun c => occupied c

theorem range_map_get {n : Nat} (hn : l.length ≤ n) :
    (List.range n).map (get l) = l ++ List.replicate (n - l.length) free := by
  apply List.ext_getElem
  · rw [List.length_map, List.length_range, List.length_append, List.length_replicate]
    omega
  · intro i hi hi'
    rw [List.getElem_map, List.getElem_range]
    by_cases hlt : i < l.length
    · rw [get_of_lt hlt, List.getElem_append_left hlt]
    · rw [get_of_le (by omega), List.getElem_append_right (by omega), List.getElem_replicate]

/-- The records of a row, read off by position. -/
theorem content_eq_range {n : Nat} (hn : l.length ≤ n) :
    content l = ((List.range n).map (get l)).filter fun c => occupied c := by
  rw [range_map_get hn, List.filter_append,
    List.filter_replicate_of_neg (by rw [occupied_free]; exact Bool.false_ne_true),
    List.append_nil]
  rfl

theorem mem_content : c ∈ content l ↔ ∃ i, get l i = c ∧ occupied c = true := by
  rw [content_eq_range (Nat.le_refl _), List.mem_filter, List.mem_map]
  constructor
  · rintro ⟨⟨i, -, hget⟩, hocc⟩
    exact ⟨i, hget, hocc⟩
  · rintro ⟨i, hget, hocc⟩
    have hi : i < l.length := lt_of_occupied (by rw [hget]; exact hocc)
    exact ⟨⟨i, List.mem_range.mpr hi, hget⟩, hocc⟩

theorem get_mem_content (h : occupied (get l i) = true) : get l i ∈ content l :=
  mem_content.mpr ⟨i, rfl, h⟩

/-- Two rows with the same occupied slots hold the same records, in the same order. -/
theorem content_congr
    (h : ∀ i, get l' i = if occupied (get l i) then get l i else free) :
    content l' = content l := by
  rw [content_eq_range (Nat.le_max_left l'.length l.length),
    content_eq_range (Nat.le_max_right l'.length l.length)]
  induction List.range (max l'.length l.length) with
  | nil => rfl
  | cons i is ih =>
    rw [List.map_cons, List.map_cons, h i]
    by_cases hocc : occupied (get l i) = true
    · rw [if_pos hocc, List.filter_cons_of_pos hocc, List.filter_cons_of_pos hocc, ih]
    · rw [if_neg hocc, List.filter_cons_of_neg (by rw [occupied_free]; exact Bool.false_ne_true),
        List.filter_cons_of_neg hocc, ih]

theorem content_eq_nil : content l = [] ↔ ∀ i, occupied (get l i) = false := by
  rw [List.eq_nil_iff_forall_not_mem]
  constructor
  · intro h i
    by_contra hocc
    exact h _ (get_mem_content (Bool.not_eq_false _ ▸ hocc))
  · intro h c hc
    obtain ⟨i, rfl, hocc⟩ := mem_content.mp hc
    rw [h i] at hocc
    cases hocc

/-- A property of the records is kept by setting one slot to a record that has it. -/
theorem forall_content_set {P : α → Prop} (hi : i < l.length) (h : ∀ d ∈ content l, P d)
    (hc : occupied c = true → P c) : ∀ d ∈ content (l.set i c), P d := by
  intro d hd
  obtain ⟨k, hk, hocc⟩ := mem_content.mp hd
  rw [get_set hi] at hk
  split at hk
  · subst hk
    exact hc hocc
  · exact h d (mem_content.mpr ⟨k, hk, hocc⟩)

/-- A record put into a free slot joins the others. -/
theorem content_set_perm (hi : i < l.length) (hfree : occupied (get l i) = false)
    (hc : occupied c = true) : (content (l.set i c)).Perm (c :: content l) := by
  rw [get_of_lt hi] at hfree
  have hsplit : content l = content (l.take i) ++ content (l.drop (i + 1)) := by
    conv_lhs => rw [← List.take_append_drop i l, ← List.cons_getElem_drop_succ (h := hi)]
    rw [content, List.filter_append, List.filter_cons_of_neg (by simp [hfree])]
    rfl
  rw [hsplit, List.set_eq_take_append_cons_drop, if_pos hi, content, List.filter_append,
    List.filter_cons_of_pos hc]
  exact List.perm_middle

/-- Setting a slot to a record that some key does not tell from the one it holds. -/
theorem map_content_set {β : Type} {f : α → β} (hocc : occupied c = occupied (get l i))
    (hkey : f c = f (get l i)) : (content (l.set i c)).map f = (content l).map f := by
  induction l generalizing i with
  | nil => rfl
  | cons a l ih =>
    cases i with
    | zero =>
      have hhead : get (a :: l) 0 = a := rfl
      rw [hhead] at hocc hkey
      rw [List.set_cons_zero, content, content, List.filter_cons, List.filter_cons, hocc]
      split
      · rw [List.map_cons, List.map_cons, hkey]
      · rfl
    | succ i =>
      have htail := ih (i := i) hocc hkey
      rw [List.set_cons_succ, content, content, List.filter_cons, List.filter_cons]
      split
      · rw [List.map_cons, List.map_cons]
        exact congrArg _ htail
      · exact htail

@[simp] theorem content_replicate (n : Nat) : content (List.replicate n (free : α)) = [] :=
  content_eq_nil.mpr fun i => by rw [get_replicate, occupied_free]

/-! ## Keys -/

/-- No two occupied slots have the same key. -/
def Distinct (key : α → κ) (l : List α) : Prop := ((content l).map key).Nodup

instance [DecidableEq κ] (key : α → κ) (l : List α) : Decidable (Distinct key l) :=
  inferInstanceAs (Decidable (List.Nodup _))

theorem distinct_iff {key : α → κ} : Distinct key l ↔
    ∀ i k, occupied (get l i) = true → occupied (get l k) = true →
      key (get l i) = key (get l k) → i = k := by
  rw [Distinct, List.Nodup, List.pairwise_map, content, List.pairwise_filter,
    List.pairwise_iff_getElem]
  constructor
  · intro h i k hi hk hkey
    have hi' := lt_of_occupied hi
    have hk' := lt_of_occupied hk
    rw [get_of_lt hi'] at hi hkey
    rw [get_of_lt hk'] at hk hkey
    rcases Nat.lt_trichotomy i k with hlt | heq | hgt
    · exact absurd hkey (h i k hi' hk' hlt hi hk)
    · exact heq
    · exact absurd hkey.symm (h k i hk' hi' hgt hk hi)
  · intro h i k hi hk hlt hocci hocck hkey
    rw [← get_of_lt hi] at hocci hkey
    rw [← get_of_lt hk] at hocck hkey
    have := h i k hocci hocck hkey
    omega

/-- Setting one slot keeps the keys distinct when no other occupied slot has the new key. -/
theorem Distinct.set {key : α → κ} (h : Distinct key l) (hi : i < l.length)
    (hnew : occupied c = true → ∀ k, k ≠ i → occupied (get l k) = true → key (get l k) ≠ key c) :
    Distinct key (l.set i c) := by
  rw [distinct_iff] at h ⊢
  intro j k hj hk hkey
  rw [get_set hi] at hj hkey
  rw [get_set hi] at hk hkey
  by_cases hji : j = i
  · by_cases hki : k = i
    · rw [hji, hki]
    · rw [if_pos hji] at hj hkey
      rw [if_neg hki] at hk hkey
      exact absurd hkey.symm (hnew hj k hki hk)
  · rw [if_neg hji] at hj hkey
    by_cases hki : k = i
    · rw [if_pos hki] at hk hkey
      exact absurd hkey (hnew hk j hji hj)
    · rw [if_neg hki] at hk hkey
      exact h j k hj hk hkey

/-- Keys stay distinct in a row whose occupied slots have the keys they had in another. -/
theorem Distinct.mono {key : α → κ} (h : Distinct key l)
    (hsub : ∀ i, occupied (get l' i) = true →
      occupied (get l i) = true ∧ key (get l' i) = key (get l i)) : Distinct key l' := by
  rw [distinct_iff] at h ⊢
  intro i k hi hk hkey
  obtain ⟨hi', hkeyi⟩ := hsub i hi
  obtain ⟨hk', hkeyk⟩ := hsub k hk
  exact h i k hi' hk' (by rw [← hkeyi, hkey, hkeyk])

/-! ## Scans -/

section Scans

theorem findIdx?_get {p : α → Bool} (h : l.findIdx? p = some i) :
    i < l.length ∧ p (get l i) = true := by
  obtain ⟨hi, hp, -⟩ := List.findIdx?_eq_some_iff_getElem.mp h
  exact ⟨hi, by rw [get_of_lt hi]; exact hp⟩

variable [BEq κ] [LawfulBEq κ] (key : α → κ)

/-- The first occupied slot with key `k`. -/
def findKey (x : κ) (l : List α) : Option Nat := l.findIdx? fun c => occupied c && key c == x

variable {key} {x : κ}

theorem findKey_eq_some (h : findKey key x l = some i) :
    occupied (get l i) = true ∧ key (get l i) = x := by
  have hp := (findIdx?_get h).2
  rw [Bool.and_eq_true, beq_iff_eq] at hp
  exact hp

theorem findKey_eq_none :
    findKey key x l = none ↔ ∀ i, occupied (get l i) = true → key (get l i) ≠ x := by
  rw [findKey, List.findIdx?_eq_none_iff]
  constructor
  · intro h i hocc hkey
    have hi := lt_of_occupied hocc
    have hp := h (get l i) (by rw [get_of_lt hi]; exact List.getElem_mem hi)
    rw [hocc, Bool.true_and, beq_eq_false_iff_ne] at hp
    exact hp hkey
  · intro h c hc
    obtain ⟨i, hi, rfl⟩ := List.mem_iff_getElem.mp hc
    rw [← get_of_lt hi]
    cases hocc : occupied (get l i) with
    | false => rfl
    | true => exact beq_eq_false_iff_ne.mpr (h i hocc)

/-- Where keys are distinct a scan finds the slot of a key. -/
theorem Distinct.findKey_eq (h : Distinct key l) (hocc : occupied (get l i) = true) :
    findKey key (key (get l i)) l = some i := by
  cases hfind : findKey key (key (get l i)) l with
  | none => exact absurd rfl (findKey_eq_none.mp hfind i hocc)
  | some k =>
    obtain ⟨hk, hkey⟩ := findKey_eq_some hfind
    rw [distinct_iff.mp h k i hk hocc hkey]

end Scans

/-- The first free slot. -/
def findFree (l : List α) : Option Nat := l.findIdx? fun c => !occupied c

theorem findFree_eq_some (h : findFree l = some i) : i < l.length ∧ occupied (get l i) = false := by
  obtain ⟨hi, hp⟩ := findIdx?_get h
  exact ⟨hi, by simpa using hp⟩

/-- There is a free slot exactly while the row is not full. -/
theorem findFree_isSome : (findFree l).isSome = true ↔ (content l).length < l.length := by
  rw [content, findFree, List.findIdx?_isSome, List.any_eq_true]
  have hle := List.length_filter_le (fun c => occupied c) l
  have hall := List.length_filter_eq_length_iff (l := l) (p := fun c => occupied c)
  constructor
  · rintro ⟨c, hc, hfree⟩
    refine Nat.lt_of_le_of_ne hle fun heq => ?_
    have hocc := hall.mp heq c hc
    simp [hocc] at hfree
  · intro hlt
    by_contra hno
    push Not at hno
    have : ∀ c ∈ l, occupied c = true := by
      intro c hc
      simpa using hno c hc
    rw [← hall] at this
    omega

/-! ## Totals -/

section Totals

variable (cost : α → Nat)

/-- What a slot contributes to a total. -/
def weight (c : α) : Nat := if occupied c then cost c else 0

/-- The cost of all records in the row. -/
def total (l : List α) : Nat := ((content l).map cost).sum

variable {cost}

theorem total_eq_weight : total cost l = (l.map (weight cost)).sum := by
  induction l with
  | nil => rfl
  | cons c l ih =>
    have htail : total cost l = ((l.filter fun c => occupied c).map cost).sum := rfl
    rw [List.map_cons, List.sum_cons, ← ih, total, content, weight]
    by_cases hocc : occupied c = true
    · rw [List.filter_cons_of_pos hocc, if_pos hocc, List.map_cons, List.sum_cons, htail]
    · rw [List.filter_cons_of_neg hocc, if_neg hocc, Nat.zero_add, htail]

theorem total_eq_range {n : Nat} (hn : l.length ≤ n) :
    total cost l = ((List.range n).map fun i => weight cost (get l i)).sum := by
  have hzero : weight cost (free : α) = 0 := by
    rw [weight, occupied_free]
    rfl
  have hmap : (List.range n).map (fun i => weight cost (get l i))
      = (l ++ List.replicate (n - l.length) free).map (weight cost) := by
    rw [← range_map_get hn, List.map_map]
    rfl
  rw [hmap, List.map_append, List.sum_append, List.map_replicate, hzero, List.sum_replicate,
    nsmul_zero, Nat.add_zero, total_eq_weight]

variable (cost) in
/-- Setting one slot exchanges its contribution for the new one. -/
theorem total_set (hi : i < l.length) (c : α) :
    total cost (l.set i c) + weight cost (get l i) = total cost l + weight cost c := by
  rw [total_eq_weight, total_eq_weight, List.map_set, List.sum_set, List.length_map, if_pos hi]
  have hsplit := List.sum_take_add_sum_drop (l.map (weight cost)) i
  have hi' : i < (l.map (weight cost)).length := by rw [List.length_map]; exact hi
  rw [← List.cons_getElem_drop_succ (h := hi'), List.sum_cons, List.getElem_map] at hsplit
  rw [get_of_lt hi]
  omega

/-- A row none of whose slots contributes more has no greater total. -/
theorem total_le (h : ∀ i, weight cost (get l' i) ≤ weight cost (get l i)) :
    total cost l' ≤ total cost l := by
  rw [total_eq_range (Nat.le_max_left l'.length l.length),
    total_eq_range (Nat.le_max_right l'.length l.length)]
  exact List.sum_le_sum fun i _ => h i

variable (cost l) in
/-- A bound on each record bounds the total. -/
theorem total_le_mul (n : Nat) (h : ∀ i, occupied (get l i) = true → cost (get l i) ≤ n) :
    total cost l ≤ l.length * n := by
  have hbound : ∀ x ∈ l.map (weight cost), x ≤ n := by
    intro x hx
    obtain ⟨c, hc, rfl⟩ := List.mem_map.mp hx
    obtain ⟨i, hi, rfl⟩ := List.mem_iff_getElem.mp hc
    rw [← get_of_lt hi, weight]
    split
    · rename_i hocc
      exact h i hocc
    · exact Nat.zero_le _
  have hsum := List.sum_le_card_nsmul _ _ hbound
  rw [List.length_map] at hsum
  rw [total_eq_weight]
  exact hsum

end Totals

end SlotTable
