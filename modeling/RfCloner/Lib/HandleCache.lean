/-
  Storage behind handles.

  Some storage is not addressed by keys but through handles, which are made for a key and a length,
  and which nobody gives back.  A program that makes one for each access uses up its memory; one that
  keeps the handles it has made, and looks among them first, does not.

  `direct` makes a handle for each access and `cached` keeps them.  They answer alike
  (`load_cached`, `saveAll_cached`), and the cache has one handle for each key and length that has
  been asked for (`Made`).
-/
import RfCloner.Lib.RecordStore
import Mathlib.Data.List.Nodup

/-- Storage over a medium `μ`, through handles `η` that are made for a length and a key. -/
structure HandleStorage (κ η μ : Type) where
  make : Nat → κ → η
  save : η → Bytes → μ → Bool × μ
  load : η → Nat → μ → Option Bytes
  sync : μ → Bool × μ

/-- A handle that is kept. -/
structure CachedHandle (κ η : Type) where
  key : κ
  len : Nat
  handle : η

/-- What it was asked for by. -/
def CachedHandle.request {κ η : Type} (c : CachedHandle κ η) : κ × Nat := (c.key, c.len)

namespace HandleStorage

variable {κ η μ : Type} (P : HandleStorage κ η μ)

/-- Each access makes a handle. -/
def direct : StorageBackend κ μ where
  save key d := P.save (P.make d.length key) d
  load key len := P.load (P.make len key) len
  sync := P.sync

variable [DecidableEq κ]

/-- The handle for an access: one that is kept, or a new one, which is kept from then on. -/
def lookup (key : κ) (len : Nat) (cache : List (CachedHandle κ η)) : η × List (CachedHandle κ η) :=
  match cache.find? fun c => c.key = key && c.len = len with
  | some c => (c.handle, cache)
  | none => (P.make len key, cache ++ [⟨key, len, P.make len key⟩])

/-- The handles are kept.  What a load leaves of them is that of `loaded`. -/
def cached : StorageBackend κ (List (CachedHandle κ η) × μ) where
  save key d x :=
    let handle := P.lookup key d.length x.1
    let out := P.save handle.1 d x.2
    (out.1, handle.2, out.2)
  load key len x := P.load (P.lookup key len x.1).1 len x.2
  sync x := ((P.sync x.2).1, x.1, (P.sync x.2).2)

/-- The handles after some loads. -/
def loaded (requests : List (κ × Nat)) (cache : List (CachedHandle κ η)) : List (CachedHandle κ η) :=
  requests.foldl (fun cache r => (P.lookup r.1 r.2 cache).2) cache

/-- The handles are those that were made, one for each key and length. -/
structure Made (cache : List (CachedHandle κ η)) : Prop where
  handle : ∀ c ∈ cache, c.handle = P.make c.len c.key
  nodup : (cache.map CachedHandle.request).Nodup

section Made

variable {P} {cache : List (CachedHandle κ η)}

omit [DecidableEq κ] in
theorem made_nil : P.Made ([] : List (CachedHandle κ η)) := ⟨by simp, List.nodup_nil⟩

/-- Looking a handle up. -/
theorem Made.lookup (h : P.Made cache) (key : κ) (len : Nat) :
    (P.lookup key len cache).1 = P.make len key ∧ P.Made (P.lookup key len cache).2 ∧
    ∀ r, r ∈ (P.lookup key len cache).2.map CachedHandle.request ↔
      r ∈ cache.map CachedHandle.request ∨ r = (key, len) := by
  unfold HandleStorage.lookup
  split
  · rename_i c hfound
    have hc := List.mem_of_find?_eq_some hfound
    have hrequest := List.find?_some hfound
    simp only [Bool.and_eq_true, decide_eq_true_eq] at hrequest
    obtain ⟨rfl, rfl⟩ := hrequest
    refine ⟨h.handle c hc, h, fun r => ⟨.inl, ?_⟩⟩
    rintro (hr | rfl)
    · exact hr
    · exact List.mem_map_of_mem hc
  · rename_i hnone
    rw [List.find?_eq_none] at hnone
    refine ⟨rfl, ⟨fun c hc => ?_, ?_⟩, fun r => ?_⟩
    · rcases List.mem_append.mp hc with hold | hnew
      · exact h.handle c hold
      · rw [List.mem_singleton.mp hnew]
    · rw [List.map_append, List.nodup_append]
      refine ⟨h.nodup, List.nodup_singleton _, fun r hr r' hr' heq => ?_⟩
      obtain ⟨c, hc, rfl⟩ := List.mem_map.mp hr
      obtain ⟨hkey, hlen⟩ := Prod.mk.inj (heq.trans (List.mem_singleton.mp hr'))
      exact hnone c hc (by simp [hkey, hlen])
    · rw [List.map_append, List.mem_append]
      exact or_congr_right List.mem_singleton

/-- Loads make no handle but those that are asked for. -/
theorem Made.loaded (requests : List (κ × Nat)) (h : P.Made cache) :
    P.Made (P.loaded requests cache) ∧
    ∀ r, r ∈ (P.loaded requests cache).map CachedHandle.request ↔
      r ∈ cache.map CachedHandle.request ∨ r ∈ requests := by
  induction requests generalizing cache with
  | nil => exact ⟨h, fun r => by simp [HandleStorage.loaded]⟩
  | cons request requests ih =>
    obtain ⟨-, hmade, hrequests⟩ := h.lookup request.1 request.2
    obtain ⟨hmade', hrequests'⟩ := ih hmade
    refine ⟨hmade', fun r => (hrequests' r).trans ?_⟩
    rw [hrequests, List.mem_cons, or_assoc]

theorem Made.load_cached (h : P.Made cache) (key : κ) (len : Nat) (io : μ) :
    P.cached.load key len (cache, io) = P.direct.load key len io := by
  show P.load (P.lookup key len cache).1 len io = _
  rw [(h.lookup key len).1]
  rfl

/-- **The saves of an operation** come to the same, and make no handle but those that they ask for. -/
theorem Made.saveAll_cached (h : P.Made cache) (ws : List (κ × Bytes)) (io : μ) : ∃ cache',
    P.cached.saveAll ws (cache, io)
      = ((P.direct.saveAll ws io).1, cache', (P.direct.saveAll ws io).2) ∧
    P.Made cache' ∧
    ∀ r ∈ cache'.map CachedHandle.request,
      r ∈ cache.map CachedHandle.request ∨ ∃ w ∈ ws, r = (w.1, w.2.length) := by
  induction ws generalizing cache io with
  | nil => exact ⟨cache, rfl, h, fun r hr => .inl hr⟩
  | cons w ws ih =>
    obtain ⟨key, d⟩ := w
    obtain ⟨hhandle, hmade, hrequests⟩ := h.lookup key d.length
    have hsave : P.cached.save key d (cache, io) = ((P.direct.save key d io).1,
        (P.lookup key d.length cache).2, (P.direct.save key d io).2) := by
      show ((P.save (P.lookup key d.length cache).1 d io).1, _, _) = _
      rw [hhandle]
      rfl
    have hfirst : ∀ r ∈ (P.lookup key d.length cache).2.map CachedHandle.request,
        r ∈ cache.map CachedHandle.request ∨ ∃ w ∈ (key, d) :: ws, r = (w.1, w.2.length) :=
      fun r hr => ((hrequests r).mp hr).imp_right fun heq => ⟨(key, d), List.mem_cons_self, heq⟩
    rw [StorageBackend.saveAll, StorageBackend.saveAll, hsave]
    rcases P.direct.save key d io with ⟨_ | _, io'⟩
    · exact ⟨_, rfl, hmade, hfirst⟩
    · obtain ⟨cache', hsaves, hmade', hrequests'⟩ := ih hmade io'
      refine ⟨cache', hsaves, hmade', fun r hr => ?_⟩
      rcases hrequests' r hr with hbefore | ⟨w, hw, heq⟩
      · exact hfirst r hbefore
      · exact .inr ⟨w, List.mem_cons_of_mem _ hw, heq⟩

end Made

end HandleStorage
