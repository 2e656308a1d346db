/-
  Byte records on a medium that can fail.

  A device keeps its state in a handful of records, each written as a whole under its own key.
  What can go wrong is the same for every program on such a medium, so it is described here
  without one:

  * `StorageBackend κ σ`  - the interface a program is written against: `save`, `load`, `sync`,
    over whatever state `σ` the medium has;
  * `Records κ`           - the contents of the medium, and `Records.apply`, a sequence of saves;
  * `StorageBackend.saveAll` - the saves of one operation, given up at the first that reports a
    failure.

  Three media interpret the interface.  `faulty lands` lets any chosen save fail and leave its
  record alone; `cutAfter k` is a power cut: the first `k` saves land and no later one does;
  `staged commits` keeps what is saved aside until a `sync` that succeeds.  On each of them the
  outcome of an operation's saves is a *prefix* of those saves (`saveAll_faulty`,
  `saveAll_cutAfter`) or all of them pending (`saveAll_staged`), which is all a crash argument
  needs.
-/
import Mathlib.Logic.Function.Basic
import RfCloner.Lib.FixedCodec

/-- What a program asks of its storage.  `save` and `sync` report whether they succeeded; `load`
    succeeds only on a record of exactly the length asked for. -/
structure StorageBackend (κ σ : Type) where
  save : κ → Bytes → σ → Bool × σ
  load : κ → Nat → σ → Option Bytes
  sync : σ → Bool × σ

/-- The contents of a medium: at most one record under each key. -/
abbrev Records (κ : Type) := κ → Option Bytes

namespace Records

variable {κ : Type}

/-- The record under `key`, if it has exactly `len` bytes. -/
def load (r : Records κ) (key : κ) (len : Nat) : Option Bytes :=
  (r key).filter fun d => d.length = len

theorem load_eq_some {r : Records κ} {key : κ} {len : Nat} {d : Bytes} :
    r.load key len = some d ↔ r key = some d ∧ d.length = len := by
  simp [load, Option.filter_eq_some_iff]

theorem load_congr {r r' : Records κ} {key : κ} (h : r key = r' key) (len : Nat) :
    r.load key len = r'.load key len := by
  rw [load, load, h]

variable [DecidableEq κ]

/-- The contents after one save: the whole record is replaced. -/
def save (r : Records κ) (key : κ) (d : Bytes) : Records κ := Function.update r key (some d)

@[simp] theorem save_self (r : Records κ) (key : κ) (d : Bytes) : r.save key d key = some d :=
  Function.update_self ..

theorem save_of_ne {key key' : κ} (h : key' ≠ key) (r : Records κ) (d : Bytes) :
    r.save key d key' = r key' :=
  Function.update_of_ne h ..

/-- The contents after a sequence of saves. -/
def apply (r : Records κ) : List (κ × Bytes) → Records κ
  | [] => r
  | (key, d) :: ws => apply (r.save key d) ws

@[simp] theorem apply_nil (r : Records κ) : r.apply [] = r := rfl

@[simp] theorem apply_cons (r : Records κ) (key : κ) (d : Bytes) (ws : List (κ × Bytes)) :
    r.apply ((key, d) :: ws) = (r.save key d).apply ws := rfl

theorem apply_append (r : Records κ) (ws vs : List (κ × Bytes)) :
    r.apply (ws ++ vs) = (r.apply ws).apply vs := by
  induction ws generalizing r with
  | nil => rfl
  | cons w ws ih => exact ih _

/-- A record no save addresses keeps its contents. -/
theorem apply_of_not_mem {ws : List (κ × Bytes)} {key : κ} :
    ∀ {r : Records κ}, (∀ w ∈ ws, w.1 ≠ key) → r.apply ws key = r key := by
  induction ws with
  | nil => intro r _; rfl
  | cons w ws ih =>
    intro r h
    have hw : key ≠ w.1 := (h w List.mem_cons_self).symm
    show (r.save w.1 w.2).apply ws key = r key
    rw [ih fun v hv => h v (List.mem_cons_of_mem _ hv), save_of_ne hw]

/-- Saves never delete a record. -/
theorem none_of_apply {ws : List (κ × Bytes)} {key : κ} :
    ∀ {r : Records κ}, r.apply ws key = none → r key = none := by
  induction ws with
  | nil => intro r h; exact h
  | cons w ws ih =>
    intro r h
    have hsaved : r.save w.1 w.2 key = none := ih h
    by_cases hw : key = w.1
    · rw [hw, save_self] at hsaved
      cases hsaved
    · rwa [save_of_ne hw] at hsaved

/-- After saves to pairwise different keys each of them holds what was saved. -/
theorem apply_of_mem {ws : List (κ × Bytes)} (hnd : (ws.map Prod.fst).Nodup) {key : κ} {d : Bytes}
    (hmem : (key, d) ∈ ws) : ∀ r : Records κ, r.apply ws key = some d := by
  induction ws with
  | nil => exact absurd hmem List.not_mem_nil
  | cons w ws ih =>
    intro r
    rw [List.map_cons, List.nodup_cons] at hnd
    show (r.save w.1 w.2).apply ws key = some d
    rcases List.mem_cons.mp hmem with heq | htail
    · subst heq
      have hfresh : ∀ v ∈ ws, v.1 ≠ key := by
        intro v hv hvk
        exact hnd.1 (List.mem_map.mpr ⟨v, hv, hvk⟩)
      rw [apply_of_not_mem hfresh, save_self]
    · exact ih hnd.2 htail _

/-! A property of single records is kept by saving records that have it. -/

/-- Every record of the medium has the property. -/
def All (P : Bytes → Prop) (r : Records κ) : Prop := ∀ key d, r key = some d → P d

section All

variable {P : Bytes → Prop} {r : Records κ}

theorem All.save (h : All P r) {d : Bytes} (hd : P d) (key : κ) : All P (r.save key d) := by
  intro key' d' hget
  by_cases hkey : key' = key
  · rw [hkey, save_self] at hget
    exact Option.some.inj hget ▸ hd
  · rw [save_of_ne hkey] at hget
    exact h key' d' hget

theorem All.apply {ws : List (κ × Bytes)} (hws : ∀ w ∈ ws, P w.2) :
    ∀ {r : Records κ}, All P r → All P (r.apply ws) := by
  induction ws with
  | nil => exact fun h => h
  | cons w ws ih =>
    intro r h
    exact ih (fun v hv => hws v (List.mem_cons_of_mem _ hv)) (h.save (hws w List.mem_cons_self) w.1)

end All

/-! Two programs on one medium: what one of them sees of it is its own records. -/

/-- Two contents agree on the records a program looks at. -/
def AgreeOn (K : κ → Prop) (r r' : Records κ) : Prop := ∀ key, K key → r key = r' key

section AgreeOn

variable {K : κ → Prop} {r r' : Records κ}

omit [DecidableEq κ] in
theorem AgreeOn.load (h : AgreeOn K r r') {key : κ} (hkey : K key) (len : Nat) :
    r.load key len = r'.load key len :=
  load_congr (h key hkey) len

/-- The same saves on both sides keep them in agreement. -/
theorem AgreeOn.apply (h : AgreeOn K r r') (ws : List (κ × Bytes)) :
    AgreeOn K (r.apply ws) (r'.apply ws) := by
  induction ws generalizing r r' with
  | nil => exact h
  | cons w ws ih =>
    refine ih fun key hkey => ?_
    by_cases hw : key = w.1
    · rw [hw, save_self, save_self]
    · rw [save_of_ne hw, save_of_ne hw]
      exact h key hkey

/-- Saves of another program, under other keys, are not seen. -/
theorem AgreeOn.apply_other (h : AgreeOn K r r') {ws : List (κ × Bytes)}
    (hws : ∀ w ∈ ws, ¬ K w.1) : AgreeOn K (r.apply ws) r' := by
  intro key hkey
  rw [apply_of_not_mem fun w hw heq => hws w hw (heq ▸ hkey)]
  exact h key hkey

end AgreeOn

/-- Saving what is there already changes nothing. -/
theorem save_eq_self {r : Records κ} {key : κ} {d : Bytes} (h : r key = some d) :
    r.save key d = r := by
  rw [save, ← h, Function.update_eq_self]

end Records

namespace StorageBackend

variable {κ σ : Type}

/-- The saves of one operation in order, given up at the first one that fails. -/
def saveAll (B : StorageBackend κ σ) : List (κ × Bytes) → σ → Bool × σ
  | [], io => (true, io)
  | (key, d) :: ws, io =>
    match B.save key d io with
    | (true, io') => B.saveAll ws io'
    | (false, io') => (false, io')

/-! ## A medium on which any save may fail, or the power may be cut -/

/-- The contents of the medium and the number of saves attempted so far. -/
structure Fake (κ : Type) where
  records : Records κ
  attempts : Nat := 0

variable [DecidableEq κ]

/-- Save number `n` replaces its record when `lands n`, and reports `reports n`. -/
def fake (lands reports : Nat → Bool) : StorageBackend κ (Fake κ) where
  save key d st :=
    (reports st.attempts,
      { records := if lands st.attempts then st.records.save key d else st.records
        attempts := st.attempts + 1 })
  load key len st := st.records.load key len
  sync st := (true, st)

/-- A failed save reports it and leaves its record unchanged. -/
def faulty (lands : Nat → Bool) : StorageBackend κ (Fake κ) := fake lands lands

/-- Power is cut after `k` saves: no later one lands, and nobody is left to be told. -/
def cutAfter (k : Nat) : StorageBackend κ (Fake κ) := fake (fun n => n < k) fun _ => true

/-- Every save lands. -/
abbrev sound : StorageBackend κ (Fake κ) := faulty fun _ => true

/-- On a faulty medium the saves that land are a prefix: all of them when the operation is told
    so, and otherwise those before the first failure. -/
theorem saveAll_faulty (lands : Nat → Bool) : ∀ (ws : List (κ × Bytes)) (st : Fake κ),
    ∃ n ≤ ws.length, ((faulty lands).saveAll ws st).2.records = st.records.apply (ws.take n) ∧
      (((faulty lands).saveAll ws st).1 = true → n = ws.length) ∧
      (((faulty lands).saveAll ws st).1 = false → n < ws.length ∧ lands (st.attempts + n) = false) ∧
      ∀ i < n, lands (st.attempts + i) = true
  | [], st =>
    ⟨0, Nat.le_refl _, rfl, fun _ => rfl, fun h => (nomatch h), fun i hi => absurd hi (Nat.not_lt_zero i)⟩
  | (key, d) :: ws, st => by
    by_cases hland : lands st.attempts = true
    · have hstep : (faulty lands).saveAll ((key, d) :: ws) st
          = (faulty lands).saveAll ws ⟨st.records.save key d, st.attempts + 1⟩ := by
        simp only [saveAll, faulty, fake, hland, if_true]
      obtain ⟨n, hn, hrec, hok, hfail, hbefore⟩ :=
        saveAll_faulty lands ws ⟨st.records.save key d, st.attempts + 1⟩
      rw [hstep]
      refine ⟨n + 1, Nat.succ_le_succ hn, hrec, fun h => by rw [hok h, List.length_cons], ?_, ?_⟩
      · intro h
        obtain ⟨hlt, hl⟩ := hfail h
        refine ⟨Nat.succ_lt_succ hlt, ?_⟩
        rw [Nat.add_comm n 1, ← Nat.add_assoc]
        exact hl
      · intro i hi
        cases i with
        | zero => exact hland
        | succ i =>
          rw [Nat.add_comm i 1, ← Nat.add_assoc]
          exact hbefore i (Nat.lt_of_succ_lt_succ hi)
    · have hfalse : lands st.attempts = false := Bool.eq_false_iff.mpr hland
      have hstep : (faulty lands).saveAll ((key, d) :: ws) st
          = (false, ⟨st.records, st.attempts + 1⟩) := by
        simp only [saveAll, faulty, fake, hfalse, Bool.false_eq_true, if_false]
      rw [hstep]
      exact ⟨0, Nat.zero_le _, rfl, fun h => (nomatch h), fun _ => ⟨Nat.succ_pos _, hfalse⟩,
        fun i hi => absurd hi (Nat.not_lt_zero i)⟩

/-- On a sound medium every save lands. -/
theorem saveAll_sound : ∀ (ws : List (κ × Bytes)) (st : Fake κ),
    (sound : StorageBackend κ (Fake κ)).saveAll ws st
      = (true, ⟨st.records.apply ws, st.attempts + ws.length⟩)
  | [], _ => rfl
  | (key, d) :: ws, st => by
    show (sound : StorageBackend κ (Fake κ)).saveAll ws ⟨st.records.save key d, st.attempts + 1⟩ = _
    rw [saveAll_sound ws, List.length_cons,
      show st.attempts + 1 + ws.length = st.attempts + (ws.length + 1) by omega]
    rfl

/-- After a power cut exactly the first saves are on the medium. -/
theorem saveAll_cutAfter (k : Nat) : ∀ (ws : List (κ × Bytes)) (st : Fake κ),
    (cutAfter k).saveAll ws st
      = (true, ⟨st.records.apply (ws.take (k - st.attempts)), st.attempts + ws.length⟩)
  | [], st => by rw [List.take_nil]; rfl
  | (key, d) :: ws, st => by
    by_cases hlt : st.attempts < k
    · obtain ⟨m, hm⟩ : ∃ m, k - st.attempts = m + 1 := ⟨k - st.attempts - 1, by omega⟩
      have hstep : (cutAfter k).saveAll ((key, d) :: ws) st
          = (cutAfter k).saveAll ws ⟨st.records.save key d, st.attempts + 1⟩ := by
        simp only [saveAll, cutAfter, fake, decide_eq_true_eq, hlt, if_true]
      rw [hstep, saveAll_cutAfter k ws, hm, List.take_succ_cons]
      show (true, (⟨(st.records.save key d).apply (ws.take (k - (st.attempts + 1))), _⟩ : Fake κ)) = _
      rw [show k - (st.attempts + 1) = m by omega, List.length_cons,
        show st.attempts + 1 + ws.length = st.attempts + (ws.length + 1) by omega]
      rfl
    · have hz : k - st.attempts = 0 := by omega
      have hstep : (cutAfter k).saveAll ((key, d) :: ws) st
          = (cutAfter k).saveAll ws ⟨st.records, st.attempts + 1⟩ := by
        simp only [saveAll, cutAfter, fake, decide_eq_true_eq, hlt, if_false]
      rw [hstep, saveAll_cutAfter k ws, hz]
      show (true, (⟨st.records.apply (ws.take (k - (st.attempts + 1))), _⟩ : Fake κ)) = _
      rw [show k - (st.attempts + 1) = 0 by omega, List.length_cons,
        show st.attempts + 1 + ws.length = st.attempts + (ws.length + 1) by omega]
      rfl

/-! ## A medium that stages its saves -/

/-- What is committed, what is saved but not yet committed (oldest first), and the number of
    commits attempted so far. -/
structure Staged (κ : Type) where
  committed : Records κ
  pending : List (κ × Bytes) := []
  syncs : Nat := 0

/-- What a reader sees: the committed records under the pending ones. -/
def Staged.view (st : Staged κ) : Records κ := st.committed.apply st.pending

/-- What is left after the power is cut. -/
def Staged.powerCycle (st : Staged κ) : Staged κ := { st with pending := [] }

/-- A save only stages its record and succeeds; sync number `n` commits everything staged when
    `commits n`, and otherwise reports a failure. -/
def staged (commits : Nat → Bool) : StorageBackend κ (Staged κ) where
  save key d st := (true, { st with pending := st.pending ++ [(key, d)] })
  load key len st := st.view.load key len
  sync st :=
    if commits st.syncs then (true, { committed := st.view, pending := [], syncs := st.syncs + 1 })
    else (false, { st with syncs := st.syncs + 1 })

theorem saveAll_staged (commits : Nat → Bool) (ws : List (κ × Bytes)) (st : Staged κ) :
    (staged commits).saveAll ws st = (true, { st with pending := st.pending ++ ws }) := by
  induction ws generalizing st with
  | nil => simp [saveAll]
  | cons w ws ih =>
    show (staged commits).saveAll ws { st with pending := st.pending ++ [w] } = _
    rw [ih]
    simp

end StorageBackend
