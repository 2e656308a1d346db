/-
  A table of slots as a finite map.

  Read through its keys, a row of slots whose keys are distinct is a finite map: what a scan finds
  under a key (`lookup_toFinmap`), an insertion when one slot is set (`toFinmap_set`), an erasure
  when one slot is freed (`toFinmap_set_free`), whatever the position of the slot.  A program that
  is specified by a map and runs on a row is verified with these.
-/
import Mathlib.Data.Finmap
import RfCloner.Lib.SlotTable

namespace SlotTable

open Slotted

variable {α κ β : Type} [Slotted α] {key : α → κ} {val : α → β} {l l' : List α} {i : Nat}
  {c : α} {x : κ} {v : β}

/-- The map from keys to values that the occupied slots hold. -/
def toFinmap (key : α → κ) (val : α → β) (l : List α) (h : Distinct key l) :
    Finmap fun _ : κ => β where
  entries := ((content l).map fun c => (⟨key c, val c⟩ : Sigma fun _ : κ => β))
  nodupKeys := by
    rw [Multiset.coe_nodupKeys, List.NodupKeys, List.keys, List.map_map]
    exact h

theorem entries_toFinmap (h : Distinct key l) :
    (toFinmap key val l h).entries
      = ((content l).map fun c => (⟨key c, val c⟩ : Sigma fun _ : κ => β)) := rfl

variable [DecidableEq κ]

theorem lookup_toFinmap_eq_some (h : Distinct key l) :
    (toFinmap key val l h).lookup x = some v ↔
      ∃ i, occupied (get l i) = true ∧ key (get l i) = x ∧ val (get l i) = v := by
  rw [Finmap.lookup_eq_some_iff, entries_toFinmap, Multiset.mem_coe, List.mem_map]
  constructor
  · rintro ⟨c, hc, heq⟩
    obtain ⟨i, rfl, hocc⟩ := mem_content.mp hc
    cases heq
    exact ⟨i, hocc, rfl, rfl⟩
  · rintro ⟨i, hocc, rfl, rfl⟩
    exact ⟨get l i, get_mem_content hocc, rfl⟩

/-- Looking up a key is scanning for it. -/
theorem lookup_toFinmap (h : Distinct key l) (x : κ) :
    (toFinmap key val l h).lookup x = (findKey key x l).map fun i => val (get l i) := by
  cases hfind : findKey key x l with
  | none =>
    rw [Option.map_none, Option.eq_none_iff_forall_ne_some]
    intro v hv
    obtain ⟨i, hocc, hkey, -⟩ := (lookup_toFinmap_eq_some h).mp hv
    exact findKey_eq_none.mp hfind i hocc hkey
  | some i =>
    obtain ⟨hocc, hkey⟩ := findKey_eq_some hfind
    exact (lookup_toFinmap_eq_some h).mpr ⟨i, hocc, hkey, rfl⟩

/-- Away from the old and the new key of slot `i`, setting it changes nothing. -/
theorem lookup_toFinmap_set_ne (h : Distinct key l) (h' : Distinct key (l.set i c))
    (hi : i < l.length) (hold : occupied (get l i) = true → key (get l i) ≠ x)
    (hnew : occupied c = true → key c ≠ x) :
    (toFinmap key val (l.set i c) h').lookup x = (toFinmap key val l h).lookup x := by
  apply Option.ext
  intro v
  rw [lookup_toFinmap_eq_some, lookup_toFinmap_eq_some]
  constructor
  · rintro ⟨k, hocc, hkey, hval⟩
    rw [get_set hi] at hocc hkey hval
    by_cases hki : k = i
    · rw [if_pos hki] at hocc hkey
      exact absurd hkey (hnew hocc)
    · rw [if_neg hki] at hocc hkey hval
      exact ⟨k, hocc, hkey, hval⟩
  · rintro ⟨k, hocc, hkey, hval⟩
    have hki : k ≠ i := by
      rintro rfl
      exact hold hocc hkey
    refine ⟨k, ?_⟩
    rw [get_set_ne hi c hki]
    exact ⟨hocc, hkey, hval⟩

variable (val) in
/-- Setting a slot that is free, or that holds the same key, inserts. -/
theorem toFinmap_set (h : Distinct key l) (h' : Distinct key (l.set i c)) (hi : i < l.length)
    (hocc : occupied c = true) (hslot : occupied (get l i) = true → key (get l i) = key c) :
    toFinmap key val (l.set i c) h' = (toFinmap key val l h).insert (key c) (val c) := by
  apply Finmap.ext_lookup
  intro x
  by_cases hx : x = key c
  · subst hx
    rw [Finmap.lookup_insert, lookup_toFinmap_eq_some]
    refine ⟨i, ?_⟩
    rw [get_set_self hi]
    exact ⟨hocc, rfl, rfl⟩
  · rw [Finmap.lookup_insert_of_ne _ hx]
    refine lookup_toFinmap_set_ne h h' hi ?_ fun _ heq => hx heq.symm
    intro ho heq
    exact hx (heq.symm.trans (hslot ho))

variable (val) in
/-- Freeing a slot erases its key. -/
theorem toFinmap_set_free (h : Distinct key l) (h' : Distinct key (l.set i free))
    (hocc : occupied (get l i) = true) :
    toFinmap key val (l.set i free) h' = (toFinmap key val l h).erase (key (get l i)) := by
  have hi := lt_of_occupied hocc
  have hfree : occupied (free : α) = false := occupied_free
  apply Finmap.ext_lookup
  intro x
  by_cases hx : x = key (get l i)
  · subst hx
    rw [Finmap.lookup_erase, Option.eq_none_iff_forall_ne_some]
    intro v hv
    obtain ⟨k, hk, hkey, -⟩ := (lookup_toFinmap_eq_some h').mp hv
    rw [get_set hi] at hk hkey
    by_cases hki : k = i
    · rw [if_pos hki, hfree] at hk
      cases hk
    · rw [if_neg hki] at hk hkey
      exact hki (distinct_iff.mp h k i hk hocc hkey)
  · rw [Finmap.lookup_erase_ne hx]
    refine lookup_toFinmap_set_ne h h' hi (fun _ heq => hx heq.symm) ?_
    intro ho
    rw [hfree] at ho
    cases ho

theorem toFinmap_of_free (h : Distinct key l) (hfree : ∀ i, occupied (get l i) = false) :
    toFinmap key val l h = ∅ := by
  apply Finmap.ext_lookup
  intro x
  rw [Finmap.lookup_empty, Option.eq_none_iff_forall_ne_some]
  intro v hv
  obtain ⟨i, hocc, -⟩ := (lookup_toFinmap_eq_some h).mp hv
  rw [hfree i] at hocc
  cases hocc

omit [DecidableEq κ] in
/-- The size of the map is the number of occupied slots. -/
theorem card_toFinmap (h : Distinct key l) :
    Multiset.card (toFinmap key val l h).entries = (content l).length := by
  rw [entries_toFinmap, Multiset.coe_card, List.length_map]

omit [DecidableEq κ] in
/-- A total over the map is the total over the row. -/
theorem sum_toFinmap (h : Distinct key l) (cost : β → Nat) :
    ((toFinmap key val l h).entries.map fun e => cost e.2).sum
      = total (fun c => cost (val c)) l := by
  rw [entries_toFinmap, Multiset.map_coe, Multiset.sum_coe, List.map_map, total]
  rfl

end SlotTable
