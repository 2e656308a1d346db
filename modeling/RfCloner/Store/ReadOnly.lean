/-
  Read-only containment.

  `begin` only reads once there is a header record, whatever that record and the others say.  If it
  ends read-only, nothing but `factory_reset` gets past the first lines of an operation: every call
  is refused, and refused before it has touched the RAM or the flash.  No assumption is made about
  the bytes or about the backend.
-/
import RfCloner.Store.Load

namespace RfCloner

open FixedCodec StorageBackend

namespace CommandStore

variable {σ : Type} (B : StorageBackend UInt32 σ)

/-! ## Sequences of calls -/

/-- Calls made one after the other, with what each of them returned. -/
def callAll : List Op → CommandStore → σ → List StoreResult × CommandStore × σ
  | [], s, io => ([], s, io)
  | op :: ops, s, io =>
    let (result, s, io) := op.run B s io
    let (results, s, io) := callAll ops s io
    (result :: results, s, io)

/-! ## What `begin` does with a header -/

/-- **`begin` saves nothing** once a header record has been read. -/
theorem begin_of_header {s : CommandStore} {io : σ} {raw : Bytes} (hbackend : s.backend = true)
    (hraw : B.load s.config.headerKey StoredHeader.codec.width io = some raw)
    (random : Option BridgeId) :
    begin B random s io
      = ((({ s with readOnly := false, fault := .none } : CommandStore).readHeader
            (fun key len => B.load key len io) raw).1,
          (({ s with readOnly := false, fault := .none } : CommandStore).readHeader
            (fun key len => B.load key len io) raw).2, io) := by
  unfold begin
  simp only [hbackend, hraw, Bool.not_true, Bool.false_eq_true, if_false]

/-! ## What a read-only store does -/

section ReadOnly

variable {s : CommandStore}

theorem writable_of_readOnly (hbackend : s.backend = true) (hro : s.readOnly = true) :
    s.writable = .readOnly := by
  simp [writable, hbackend, hro]

/-- **Every mutation but `factory_reset` stops at its guard** in a read-only store. -/
theorem plan_of_readOnly (hbackend : s.backend = true) (hro : s.readOnly = true) {op : Op}
    (hop : ∀ random, op ≠ .factoryReset random) : op.plan s = .stop .readOnly := by
  have hw := writable_of_readOnly hbackend hro
  cases op with
  | put command => simp [Op.plan, putPlan, hw]
  | rename commandId newName => simp [Op.plan, renamePlan, hw]
  | remove name => simp [Op.plan, removePlan, hw]
  | removeById commandId => simp [Op.plan, removeByIdPlan, hw]
  | clearAll => simp [Op.plan, clearAllPlan, hbackend, hro]
  | factoryReset random => exact absurd rfl (hop random)
  | restoreBegin bridgeId nextCommandId => simp [Op.plan, restoreBeginPlan, hbackend, hro]
  | importCommand command => simp [Op.plan, importCommandPlan, hbackend, hro]
  | restoreCommit sourceRevision => simp [Op.plan, restoreCommitPlan, hbackend, hro]

/-- The calls are refused one by one, and each finds the store as the one before it did. -/
theorem callAll_of_readOnly (hbackend : s.backend = true) (hro : s.readOnly = true) (io : σ)
    {ops : List Op} (hops : ∀ op ∈ ops, ∀ random, op ≠ .factoryReset random) :
    callAll B ops s io = (List.replicate ops.length .readOnly, s, io) := by
  induction ops with
  | nil => rfl
  | cons op ops ih =>
    have hplan := plan_of_readOnly hbackend hro (hops op List.mem_cons_self)
    rw [callAll, Op.run_of_stop hplan]
    dsimp only
    rw [ih fun op hop => hops op (List.mem_cons_of_mem _ hop), List.length_cons,
      List.replicate_succ]

end ReadOnly

/-- **Read-only containment.**  Whatever the flash holds besides a header record of ten bytes, and
    whatever those ten bytes are, `begin` leaves the flash as it found it; and if it ends read-only,
    every later call other than `factory_reset` returns `readOnly`, and neither the flash nor
    anything the store holds in RAM has changed after any number of them. -/
theorem readOnly_containment {s : CommandStore} {io : σ} {raw : Bytes} (hbackend : s.backend = true)
    (hraw : B.load s.config.headerKey StoredHeader.codec.width io = some raw)
    (random : Option BridgeId) :
    let out := begin B random s io
    out.2.2 = io ∧
    (out.2.1.readOnly = true →
      ∀ ops : List Op, (∀ op ∈ ops, ∀ random, op ≠ .factoryReset random) →
        callAll B ops out.2.1 out.2.2 = (List.replicate ops.length .readOnly, out.2.1, io)) := by
  intro out
  have hout : out = _ := begin_of_header B hbackend hraw random
  have hio : out.2.2 = io := by rw [hout]
  refine ⟨hio, fun hro ops hops => ?_⟩
  have hbackend' : out.2.1.backend = true := by
    rw [hout]
    exact (readHeader_keeps (fun key len => B.load key len io) _ raw).2.trans hbackend
  rw [hio]
  exact callAll_of_readOnly B hbackend' hro io hops

/-- Ten zero bytes for a header: the session is read-only, and learning, clearing and restoring are
    refused. -/
theorem readOnly_containment_zero_header :
    let out := begin sound none (configure ⟨1, 4, 200, 7⟩)
      ⟨fun _ => some (List.replicate StoredHeader.codec.width 0), 0⟩
    out.2.1.readOnly = true ∧
    callAll sound [.put { name := ascii "a", timings := [350, -1050] }, .clearAll,
        .restoreBegin BridgeId.zero 1] out.2.1 out.2.2
      = ([.readOnly, .readOnly, .readOnly], out.2.1,
          ⟨fun _ => some (List.replicate StoredHeader.codec.width 0), 0⟩) := by
  have hraw : (sound : StorageBackend UInt32 (Fake UInt32)).load
      (configure ⟨1, 4, 200, 7⟩).config.headerKey StoredHeader.codec.width
      ⟨fun _ => some (List.replicate StoredHeader.codec.width 0), 0⟩
        = some (List.replicate StoredHeader.codec.width 0) := rfl
  have hcontained := readOnly_containment sound (s := configure ⟨1, 4, 200, 7⟩) rfl hraw none
  have hro : (begin sound none (configure ⟨1, 4, 200, 7⟩)
      ⟨fun _ => some (List.replicate StoredHeader.codec.width 0), 0⟩).2.1.readOnly = true := by
    decide +kernel
  refine ⟨hro, hcontained.2 hro _ ?_⟩
  intro op hop random
  simp only [List.mem_cons, List.not_mem_nil, or_false] at hop
  rcases hop with rfl | rfl | rfl <;> exact Op.noConfusion

end CommandStore

end RfCloner
