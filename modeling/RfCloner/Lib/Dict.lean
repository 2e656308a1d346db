/-
  Dictionaries that keep the order of insertion, as association lists.

  `set` replaces a value where its key stands and appends a new key, `erase` drops a key, and
  `ofPairs` inserts one pair after another.  A lookup (`get`) is the first pair of its key; in a
  dictionary with distinct keys (`Unique`) it is the only one, and the order of the pairs does not
  matter (`Unique.get_perm`).
-/
import Mathlib.Data.List.Nodup
import Mathlib.Data.List.Perm.Basic
import Mathlib.Tactic.Push

namespace Dict

variable {κ β : Type} [DecidableEq κ] {d e : List (κ × β)} {k x : κ} {v w : β}

/-! ## Operations -/

/-- `d.get(k)`. -/
def get (d : List (κ × β)) (k : κ) : Option β := (d.find? fun p => p.1 = k).map Prod.snd

/-- `d[k] = v`. -/
def set : List (κ × β) → κ → β → List (κ × β)
  | [], k, v => [(k, v)]
  | p :: d, k, v => if p.1 = k then (k, v) :: d else p :: set d k v

/-- `d.pop(k, None)`. -/
def erase (d : List (κ × β)) (k : κ) : List (κ × β) := d.filter fun p => p.1 ≠ k

/-- The dictionary of a sequence of pairs: the last pair of a key counts. -/
def ofPairs (l : List (κ × β)) : List (κ × β) := l.foldl (fun d p => set d p.1 p.2) []

/-- Every key stands once. -/
def Unique (d : List (κ × β)) : Prop := (d.map Prod.fst).Nodup

/-! ## Lookups -/

@[simp] theorem get_nil : get ([] : List (κ × β)) k = none := rfl

theorem get_cons (p : κ × β) : get (p :: d) k = if p.1 = k then some p.2 else get d k := by
  unfold get
  by_cases h : p.1 = k
  · rw [if_pos h, List.find?_cons_of_pos (by simpa using h)]
    rfl
  · rw [if_neg h, List.find?_cons_of_neg (by simpa using h)]

theorem mem_of_get (h : get d k = some v) : (k, v) ∈ d := by
  obtain ⟨p, hp, rfl⟩ := Option.map_eq_some_iff.mp h
  have hkey : p.1 = k := by simpa using List.find?_some hp
  subst hkey
  exact List.mem_of_find?_eq_some hp

theorem get_eq_none_iff : get d k = none ↔ ∀ v, (k, v) ∉ d := by
  unfold get
  rw [Option.map_eq_none_iff, List.find?_eq_none]
  constructor
  · intro h v hmem
    exact h _ hmem (by simp)
  · rintro h ⟨k', v⟩ hmem hkey
    obtain rfl : k' = k := by simpa using hkey
    exact h v hmem

/-- Among distinct keys a pair is what a lookup finds. -/
theorem get_isSome_iff : (get d k).isSome = true ↔ k ∈ d.map Prod.fst := by
  rw [Option.isSome_iff_ne_none, ne_eq, get_eq_none_iff]
  simp only [not_forall, not_not, List.mem_map, Prod.exists, exists_and_right, exists_eq_right]

theorem Unique.get_eq_some_iff (h : Unique d) : get d k = some v ↔ (k, v) ∈ d := by
  refine ⟨mem_of_get, fun hmem => ?_⟩
  induction d with
  | nil => cases hmem
  | cons p d ih =>
    obtain ⟨hfresh, hd⟩ := List.nodup_cons.mp h
    rw [get_cons]
    rcases List.mem_cons.mp hmem with rfl | hmem
    · exact if_pos rfl
    · have hne : p.1 ≠ k := by
        rintro rfl
        exact hfresh (List.mem_map.mpr ⟨_, hmem, rfl⟩)
      rw [if_neg hne]
      exact ih hd hmem

/-- The order of distinct keys does not matter. -/
theorem Unique.get_perm (h : Unique d) (hperm : e.Perm d) : get e k = get d k := by
  have he : Unique e := (hperm.map Prod.fst).nodup_iff.mpr h
  cases hget : get d k with
  | none =>
    rw [get_eq_none_iff] at hget ⊢
    exact fun v hmem => hget v (hperm.mem_iff.mp hmem)
  | some v =>
    rw [he.get_eq_some_iff, hperm.mem_iff]
    exact mem_of_get hget

/-! ## Updates -/

theorem get_set (d : List (κ × β)) (k : κ) (v : β) (x : κ) :
    get (set d k v) x = if x = k then some v else get d x := by
  induction d with
  | nil =>
    unfold set
    rw [get_cons]
    by_cases h : x = k
    · rw [if_pos h, if_pos h.symm]
    · rw [if_neg h, if_neg (Ne.symm h)]
  | cons p d ih =>
    unfold set
    by_cases hp : p.1 = k
    · rw [if_pos hp, get_cons, get_cons, hp]
      by_cases h : x = k
      · simp only [if_pos h, if_pos h.symm]
      · simp only [if_neg h, if_neg (Ne.symm h)]
    · rw [if_neg hp, get_cons, get_cons, ih]
      by_cases h : x = k
      · simp only [if_pos h, if_neg (h ▸ hp)]
      · simp only [if_neg h]

/-- After a `set`, what is read is what was set or what was there under another key. -/
theorem get_set_eq_some_iff {w : β} : get (set d k v) x = some w ↔
    x = k ∧ w = v ∨ x ≠ k ∧ get d x = some w := by
  rw [get_set]
  split
  · rename_i hx
    simp [hx, eq_comm]
  · rename_i hx
    simp [hx]

theorem mem_keys_set : x ∈ (set d k v).map Prod.fst ↔ x = k ∨ x ∈ d.map Prod.fst := by
  induction d with
  | nil => simp [set]
  | cons p d ih =>
    unfold set
    by_cases hp : p.1 = k
    · simp [hp]
    · rw [if_neg hp, List.map_cons, List.mem_cons, ih, List.map_cons, List.mem_cons]
      exact or_left_comm

theorem Unique.set (h : Unique d) (k : κ) (v : β) : Unique (set d k v) := by
  induction d with
  | nil => exact List.nodup_singleton k
  | cons p d ih =>
    obtain ⟨hfresh, hd⟩ := List.nodup_cons.mp h
    unfold Dict.set
    by_cases hp : p.1 = k
    · rw [if_pos hp]
      exact List.nodup_cons.mpr ⟨hp ▸ hfresh, hd⟩
    · rw [if_neg hp]
      refine List.nodup_cons.mpr ⟨fun hmem => ?_, ih hd⟩
      rcases mem_keys_set.mp hmem with heq | hmem
      · exact hp heq
      · exact hfresh hmem

/-- A lookup among the pairs whose keys are kept. -/
theorem get_filter (keep : κ → Bool) (d : List (κ × β)) (k : κ) :
    get (d.filter fun p => keep p.1) k = if keep k then get d k else none := by
  induction d with
  | nil => simp
  | cons p d ih =>
    rw [List.filter_cons, get_cons]
    by_cases hk : p.1 = k
    · subst hk
      cases hkeep : keep p.1 with
      | true =>
        rw [if_pos rfl, get_cons, if_pos rfl]
        simp
      | false =>
        rw [if_neg Bool.false_ne_true, ih, hkeep]
        rfl
    · rw [if_neg hk]
      split
      · rw [get_cons, if_neg hk, ih]
      · exact ih

theorem get_erase (d : List (κ × β)) (k x : κ) :
    get (erase d k) x = if x = k then none else get d x := by
  by_cases hx : x = k
  · rw [if_pos hx, get_eq_none_iff]
    intro v hmem
    have := (List.mem_filter.mp hmem).2
    simp [hx] at this
  · rw [if_neg hx]
    unfold get erase
    rw [List.find?_filter]
    congr 2
    funext p
    by_cases hp : p.1 = x
    · simp [hp, hx]
    · simp [hp]

theorem Unique.erase (h : Unique d) (k : κ) : Unique (erase d k) :=
  (List.Sublist.map Prod.fst List.filter_sublist).nodup h

/-! ## Building a dictionary -/

theorem unique_foldl_set (l : List (κ × β)) (h : Unique d) :
    Unique (l.foldl (fun d p => Dict.set d p.1 p.2) d) := by
  induction l generalizing d with
  | nil => exact h
  | cons p l ih => exact ih (h.set p.1 p.2)

theorem unique_ofPairs (l : List (κ × β)) : Unique (ofPairs l) :=
  unique_foldl_set l List.nodup_nil

theorem get_foldl_set (l : List (κ × β)) (x : κ) :
    get (l.foldl (fun d p => set d p.1 p.2) d) x = (get l.reverse x).or (get d x) := by
  induction l generalizing d with
  | nil => rfl
  | cons p l ih =>
    rw [List.foldl_cons, ih, get_set, List.reverse_cons]
    unfold get
    rw [List.find?_append, List.find?_singleton]
    cases hfind : List.find? (fun q => decide (q.1 = x)) l.reverse with
    | some q => rfl
    | none =>
      by_cases hp : p.1 = x
      · simp [hp]
      · simp [hp, Ne.symm hp]

/-- A dictionary holds only pairs it was built from. -/
theorem mem_of_get_ofPairs {l : List (κ × β)} (h : get (ofPairs l) k = some v) : (k, v) ∈ l := by
  unfold ofPairs at h
  rw [get_foldl_set, get_nil, Option.or_none] at h
  exact List.mem_reverse.mp (mem_of_get h)

/-- A key is missing from a dictionary when no pair it was built from has it. -/
theorem get_ofPairs_eq_none_iff {l : List (κ × β)} : get (ofPairs l) k = none ↔ ∀ v, (k, v) ∉ l := by
  unfold ofPairs
  rw [get_foldl_set, get_nil, Option.or_none, get_eq_none_iff]
  simp only [List.mem_reverse]

/-- Distinct keys are inserted as they are. -/
theorem get_ofPairs {l : List (κ × β)} (h : Unique l) (x : κ) : get (ofPairs l) x = get l x := by
  unfold ofPairs
  rw [get_foldl_set, get_nil, Option.or_none]
  exact h.get_perm (List.reverse_perm l)

/-! ## Selecting -/

section Select

variable {γ : Type} {f : κ → β → Option γ} {w : γ}

/-- What a function of key and value makes of a dictionary, under the same keys. -/
def select (f : κ → β → Option γ) (d : List (κ × β)) : List (κ × γ) :=
  d.filterMap fun p => (f p.1 p.2).map fun w => (p.1, w)

omit [DecidableEq κ] in
theorem select_cons (p : κ × β) :
    select f (p :: d) = ((f p.1 p.2).map fun w => (p.1, w)).toList ++ select f d := by
  unfold select
  rw [List.filterMap_cons]
  cases f p.1 p.2 <;> rfl

omit [DecidableEq κ] in
theorem mem_select : (k, w) ∈ select f d ↔ ∃ v, (k, v) ∈ d ∧ f k v = some w := by
  unfold select
  rw [List.mem_filterMap]
  constructor
  · rintro ⟨⟨k', v⟩, hmem, hf⟩
    obtain ⟨w', hw, heq⟩ := Option.map_eq_some_iff.mp hf
    obtain ⟨rfl, rfl⟩ := Prod.mk.inj heq
    exact ⟨v, hmem, hw⟩
  · rintro ⟨v, hmem, hf⟩
    exact ⟨(k, v), hmem, Option.map_eq_some_iff.mpr ⟨w, hf, rfl⟩⟩

omit [DecidableEq κ] in
theorem Unique.select (h : Unique d) (f : κ → β → Option γ) : Unique (Dict.select f d) := by
  induction d with
  | nil => exact List.nodup_nil
  | cons p d ih =>
    obtain ⟨hfresh, hd⟩ := List.nodup_cons.mp h
    rw [select_cons]
    cases hf : f p.1 p.2 with
    | none => exact ih hd
    | some w =>
      refine List.nodup_cons.mpr ⟨fun hmem => ?_, ih hd⟩
      obtain ⟨⟨k, w'⟩, hmem', hkey⟩ := List.mem_map.mp hmem
      obtain ⟨v, hv, -⟩ := mem_select.mp hmem'
      exact hfresh (List.mem_map.mpr ⟨(k, v), hv, hkey⟩)

theorem Unique.get_select (h : Unique d) (f : κ → β → Option γ) (x : κ) :
    get (Dict.select f d) x = (get d x).bind (f x) := by
  cases hget : get (Dict.select f d) x with
  | some w =>
    obtain ⟨v, hv, hf⟩ := mem_select.mp (mem_of_get hget)
    rw [h.get_eq_some_iff.mpr hv, Option.bind_some, hf]
  | none =>
    rw [get_eq_none_iff] at hget
    cases hd : get d x with
    | none => rfl
    | some v =>
      rw [Option.bind_some]
      cases hf : f x v with
      | none => rfl
      | some w => exact absurd (mem_select.mpr ⟨v, mem_of_get hd, hf⟩) (hget w)

/-- Pairs that are selected as they are. -/
theorem filterMap_map_eq_self {α : Type} {l : List α} {g : α → β} {f : β → Option α}
    (h : ∀ a ∈ l, f (g a) = some a) : (l.map g).filterMap f = l := by
  induction l with
  | nil => rfl
  | cons a l ih =>
    rw [List.map_cons, List.filterMap_cons_some (h a List.mem_cons_self),
      ih fun b hb => h b (List.mem_cons_of_mem a hb)]

end Select

end Dict
