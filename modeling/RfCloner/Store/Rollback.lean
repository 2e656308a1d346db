/-
  When an operation fails: what is left in RAM, and what is left on flash.

  The rollback of every mutation is written by hand, and in RAM it is exact (`rollback_exact`):
  `op_change` has already compared it with the state before.  The flash is not rolled back.  The
  records that landed before the failing save stay, and `restores_before_iff` says which of them a
  later `begin` does not notice: none at all, or the payload alone if no index describes the slot it
  went to.  `failure_unseen_iff` puts the two together for every operation.
  `factory_reset` is the exception: it has no rollback, so a failed one leaves an empty registry in
  RAM, and the next operation that is accepted writes that over the flash.
-/
import RfCloner.Store.Authored
import RfCloner.Store.Crash

namespace RfCloner

open FixedCodec StorageBackend

/-! ## When an operation writes -/

/-- What the guards of an operation ask for before it writes anything. -/
def Op.Accepts : Op → CommandStore → Prop
  | .put c, s => s.Accepts c
  | .rename id name, s =>
    s.writable = .ok ∧ validateName name = .ok ∧ (s.findSlotById id).isSome = true ∧
      s.findSlot name = none ∧ s.revision < revisionMax
  | .remove name, s =>
    s.writable = .ok ∧ (s.findSlot name).isSome = true ∧ s.revision < revisionMax
  | .removeById id, s =>
    s.writable = .ok ∧ (s.findSlotById id).isSome = true ∧ s.revision < revisionMax
  | .clearAll, s =>
    s.backend = true ∧ s.readOnly = false ∧ ¬ (s.count = 0 ∧ s.restoreState = 0) ∧
      s.revision < revisionMax
  | .factoryReset _, s => s.backend = true
  | .restoreBegin _ id, s =>
    s.backend = true ∧ s.readOnly = false ∧ s.count = 0 ∧
      ¬ (id < commandIdFirst ∨ id > commandIdLast + 1) ∧ s.revision < revisionMax
  | .importCommand c, s =>
    s.backend = true ∧ s.readOnly = false ∧ s.restoreState ≠ 0 ∧ validateName c.name = .ok ∧
      ¬ (c.commandId = commandIdNone ∨ c.commandId ≥ s.nextCommandId ∨ s.hasId c.commandId = true) ∧
      s.has c.name = false ∧
      ¬ (c.timings.isEmpty = true ∨ c.timings.length > s.config.maxPulses.toNat) ∧
      s.findFreeSlot.isSome = true ∧
      s.projectedBytes none (UInt16.ofNat c.timings.length) ≤ s.config.maxStorageBytes ∧
      s.revision < revisionMax
  | .restoreCommit source, s =>
    s.backend = true ∧ s.readOnly = false ∧ s.restoreState ≠ 0 ∧
      (if source > s.revision then source else s.revision) < revisionMax

instance (op : Op) (s : CommandStore) : Decidable (op.Accepts s) := by
  cases op <;> unfold Op.Accepts <;> infer_instance

/-- Whether the operation saves a waveform before the index. -/
def Op.savesPayload : Op → Bool
  | .put _ => true
  | .importCommand _ => true
  | _ => false

/-- The operation is asked to remove the command or to replace it. -/
def Op.Disposes (c : Command) : Op → Prop
  | .put new => new.name = c.name
  | .rename id _ => id = c.commandId
  | .remove name => name = c.name
  | .removeById id => id = c.commandId
  | .clearAll => True
  | .factoryReset _ => True
  | .restoreBegin _ _ => False
  | .importCommand _ => False
  | .restoreCommit _ => False

namespace CommandStore

section Plans

variable {s next undone : CommandStore} {payload : Option Nat} {op : Op}

/-- An operation that saves a payload saves it for one slot. -/
theorem savesPayload_of_write (h : op.plan s = .write payload next undone) :
    payload.isSome = op.savesPayload := by
  cases op with
  | put c =>
    obtain ⟨-, -, -, -, slot, overwriting, id, rev, -, -, -, rfl, -⟩ := putPlan_eq_write h
    rfl
  | rename id name =>
    obtain ⟨-, -, slot, rev, -, -, -, rfl, -⟩ := renamePlan_eq_write h
    rfl
  | remove name =>
    obtain ⟨slot, -, h'⟩ := removePlan_eq_write h
    obtain ⟨-, slot', rev, -, -, rfl, -⟩ := removeByIdPlan_eq_write h'
    rfl
  | removeById id =>
    obtain ⟨-, slot, rev, -, -, rfl, -⟩ := removeByIdPlan_eq_write h
    rfl
  | clearAll =>
    obtain ⟨-, -, rev, -, rfl, -⟩ := clearAllPlan_eq_write h
    rfl
  | factoryReset random =>
    obtain ⟨-, rfl, -⟩ := factoryResetPlan_eq_write h
    rfl
  | restoreBegin bridgeId id =>
    obtain ⟨-, -, -, -, rev, -, rfl, -⟩ := restoreBeginPlan_eq_write h
    rfl
  | importCommand c =>
    obtain ⟨-, -, -, -, -, -, -, slot, rev, -, -, -, rfl, -⟩ := importCommandPlan_eq_write h
    rfl
  | restoreCommit source =>
    obtain ⟨-, -, -, rev, -, rfl, -⟩ := restoreCommitPlan_eq_write h
    rfl

/-- A revision with a successor is below the last one. -/
theorem lt_of_nextRevision {base rev : UInt32} (h : nextRevision base = some rev) :
    base < revisionMax :=
  (nextRevision_isSome base).mp (Option.isSome_iff_exists.mpr ⟨rev, h⟩)

/-- An operation that reaches its writes has passed its guards. -/
theorem accepts_of_write (h : op.plan s = .write payload next undone) : op.Accepts s := by
  cases op with
  | put c => exact putPlan_write_iff.mp ⟨_, _, _, h⟩
  | rename id name =>
    obtain ⟨hw, hname, slot, rev, hslot, hfree, hrev, -⟩ := renamePlan_eq_write h
    exact ⟨hw, hname, Option.isSome_iff_exists.mpr ⟨slot, hslot⟩, hfree, lt_of_nextRevision hrev⟩
  | remove name =>
    obtain ⟨slot, hfind, h'⟩ := removePlan_eq_write h
    obtain ⟨hw, slot', rev, -, hrev, -⟩ := removeByIdPlan_eq_write h'
    exact ⟨hw, Option.isSome_iff_exists.mpr ⟨slot, hfind⟩, lt_of_nextRevision hrev⟩
  | removeById id =>
    obtain ⟨hw, slot, rev, hslot, hrev, -⟩ := removeByIdPlan_eq_write h
    exact ⟨hw, Option.isSome_iff_exists.mpr ⟨slot, hslot⟩, lt_of_nextRevision hrev⟩
  | clearAll =>
    obtain ⟨hb, hro, rev, hrev, -⟩ := clearAllPlan_eq_write h
    refine ⟨hb, hro, fun hnoop => ?_, lt_of_nextRevision hrev⟩
    have hstop : s.clearAllPlan = .stop .ok := by
      rw [clearAllPlan, hb, hro]
      exact if_pos hnoop
    cases hstop.symm.trans h
  | factoryReset random =>
    obtain ⟨hb, -⟩ := factoryResetPlan_eq_write h
    exact hb
  | restoreBegin bridgeId id =>
    obtain ⟨hb, hro, hcount, -, rev, hrev, -⟩ := restoreBeginPlan_eq_write h
    refine ⟨hb, hro, hcount, fun hid => ?_, lt_of_nextRevision hrev⟩
    have hstop : s.restoreBeginPlan bridgeId id = .stop .idConflict := by
      rw [restoreBeginPlan, hb, hro, if_neg (not_not_intro hcount)]
      exact if_pos hid
    cases hstop.symm.trans h
  | importCommand c =>
    obtain ⟨hb, hro, hopen, hc, hlt, hid, hname, slot, rev, hslot, hbudget, hrev, -⟩ :=
      importCommandPlan_eq_write h
    have hpos := hc.timings_pos
    have hle := hc.timings_le
    refine ⟨hb, hro, hopen, hc.name_valid, ?_, hname, ?_,
      Option.isSome_iff_exists.mpr ⟨slot, hslot⟩, UInt32.not_lt.mp hbudget, lt_of_nextRevision hrev⟩
    · rintro (hnone | hge | hhas)
      · exact Command.occupied_iff.mp hc.occupied hnone
      · exact absurd hlt (UInt32.not_lt.mpr hge)
      · rw [hid] at hhas
        cases hhas
    · rintro (hempty | hlong)
      · rw [List.isEmpty_iff.mp hempty] at hpos
        exact absurd hpos (Nat.lt_irrefl 0)
      · omega
  | restoreCommit source =>
    obtain ⟨hb, hro, hopen, rev, hrev, -⟩ := restoreCommitPlan_eq_write h
    exact ⟨hb, hro, hopen, lt_of_nextRevision hrev⟩

/-- Without a backend every operation is refused. -/
theorem backend_of_accepts (h : op.Accepts s) : s.backend = true := by
  cases op with
  | put c => exact (writable_eq_ok h.1).1
  | rename => exact (writable_eq_ok h.1).1
  | remove => exact (writable_eq_ok h.1).1
  | removeById => exact (writable_eq_ok h.1).1
  | clearAll => exact h.1
  | factoryReset => exact h
  | restoreBegin => exact h.1
  | importCommand => exact h.1
  | restoreCommit => exact h.1

/-- An operation whose guards all pass reaches its writes. -/
theorem write_of_accepts (h : op.Accepts s) :
    ∃ payload next undone, op.plan s = .write payload next undone := by
  have hnext : ∀ {base : UInt32}, base < revisionMax → ∃ rev, nextRevision base = some rev :=
    fun hlt => Option.isSome_iff_exists.mp ((nextRevision_isSome _).mpr hlt)
  cases op with
  | put c => exact putPlan_write_iff.mpr h
  | rename id name =>
    obtain ⟨hw, hname, hid, hfree, hlt⟩ := h
    obtain ⟨slot, hslot⟩ := Option.isSome_iff_exists.mp hid
    obtain ⟨rev, hrev⟩ := hnext hlt
    have hother : (s.slot slot).name ≠ name :=
      findSlot_eq_none.mp hfree slot (findSlotById_eq_some hslot).1
    show ∃ payload next undone, s.renamePlan id name = _
    simp [renamePlan, hw, hname, hslot, hother, hfree, hrev]
  | remove name =>
    obtain ⟨hw, hname, hlt⟩ := h
    obtain ⟨slot, hslot⟩ := Option.isSome_iff_exists.mp hname
    obtain ⟨rev, hrev⟩ := hnext hlt
    -- the command found by name is found again by its id
    have hfound : s.findSlotById (s.slot slot).commandId ≠ none := fun hnone =>
      findSlotById_eq_none.mp hnone slot (findSlot_eq_some hslot).1 rfl
    obtain ⟨slot', hslot'⟩ := Option.ne_none_iff_exists'.mp hfound
    show ∃ payload next undone, s.removePlan name = _
    simp [removePlan, removeByIdPlan, hw, hslot, hslot', hrev]
  | removeById id =>
    obtain ⟨hw, hid, hlt⟩ := h
    obtain ⟨slot, hslot⟩ := Option.isSome_iff_exists.mp hid
    obtain ⟨rev, hrev⟩ := hnext hlt
    show ∃ payload next undone, s.removeByIdPlan id = _
    simp [removeByIdPlan, hw, hslot, hrev]
  | clearAll =>
    obtain ⟨hb, hro, hsome, hlt⟩ := h
    obtain ⟨rev, hrev⟩ := hnext hlt
    show ∃ payload next undone, s.clearAllPlan = _
    rw [clearAllPlan, hb, hro, if_neg hsome, hrev]
    exact ⟨_, _, _, rfl⟩
  | factoryReset random =>
    have hb : s.backend = true := h
    show ∃ payload next undone, s.factoryResetPlan random = _
    rw [factoryResetPlan, hb]
    exact ⟨_, _, _, rfl⟩
  | restoreBegin bridgeId id =>
    obtain ⟨hb, hro, hcount, hid, hlt⟩ := h
    obtain ⟨rev, hrev⟩ := hnext hlt
    show ∃ payload next undone, s.restoreBeginPlan bridgeId id = _
    rw [restoreBeginPlan, hb, hro, if_neg (not_not_intro hcount), if_neg hid, hrev]
    exact ⟨_, _, _, rfl⟩
  | importCommand c =>
    obtain ⟨hb, hro, hopen, hname, hid, hfree, htimings, hslot, hbudget, hlt⟩ := h
    obtain ⟨slot, hslot⟩ := Option.isSome_iff_exists.mp hslot
    obtain ⟨rev, hrev⟩ := hnext hlt
    show ∃ payload next undone, s.importCommandPlan c = _
    rw [importCommandPlan, hb, hro, if_neg hopen, if_neg (not_not_intro hname), if_neg hid, hfree,
      if_neg htimings, hslot]
    dsimp only
    rw [if_neg (UInt32.not_lt.mpr hbudget), hrev]
    exact ⟨_, _, _, rfl⟩
  | restoreCommit source =>
    obtain ⟨hb, hro, hopen, hlt⟩ := h
    obtain ⟨rev, hrev⟩ := hnext hlt
    show ∃ payload next undone, s.restoreCommitPlan source = _
    rw [restoreCommitPlan, hb, hro, if_neg hopen, hrev]
    exact ⟨_, _, _, rfl⟩

/-- **An operation reaches its writes exactly when its guards pass.** -/
theorem refused_iff : (∃ result, op.plan s = .stop result) ↔ ¬ op.Accepts s := by
  constructor
  · rintro ⟨result, hstop⟩ hacc
    obtain ⟨payload, next, undone, hwrite⟩ := write_of_accepts hacc
    cases hstop.symm.trans hwrite
  · intro hrefused
    cases hplan : op.plan s with
    | stop result => exact ⟨result, rfl⟩
    | write payload next undone => exact absurd (accepts_of_write hplan) hrefused

end Plans

/-! ## What the flash keeps of a failed operation -/

section Flash

variable {s t next undone : CommandStore} {payload : Option Nat} {op : Op} {r : Records UInt32}
  {raw : Bytes}

/-- An operation is told of every save that fails. -/
theorem lands_of_ok {lands : Nat → Bool} {io : Fake UInt32}
    (hplan : op.plan s = .write payload next undone) (hok : (op.run (faulty lands) s io).1 = .ok) :
    ∀ i < (next.records payload).length, lands (io.attempts + i) = true := by
  obtain ⟨n, -, -, hall, -, hbefore⟩ := saveAll_faulty lands (next.records payload) io
  rw [run_of_write (faulty lands) hplan] at hok
  cases hsaved : ((faulty lands).saveAll (next.records payload) io).1 with
  | false =>
    rw [hsaved] at hok
    cases hok
  | true =>
    rw [← hall hsaved]
    exact hbefore

/-- **Which partial writes a reboot does not see.**  Of the saves of a change, those before the
    first failing one are on flash: a later `begin` loads the registry from before if there are
    none, or if there is only the payload and it went to a free slot or equals the one there. -/
theorem restores_before_iff (h : Change s payload next) (hs : s.Sound)
    (hfrom : LoadedFrom s r raw t) {n : Nat} (hn : n < (next.records payload).length) :
    Restores s.config (r.apply ((next.records payload).take n)) s.registry ↔
      n = 0 ∨ n = 1 ∧ ∃ i, payload = some i ∧
        ((s.slot i).occupied = true → (next.slot i).timings = (s.slot i).timings) := by
  have hconfig := h.config.1
  -- once the index has landed, a reboot reads the new revision
  have hindexed : ¬ Restores s.config ((r.apply (payload.map next.payloadRecord).toList).save
      s.config.indexKey next.indexRecord) s.registry := by
    intro hrestores
    obtain ⟨hw, hreg⟩ := hrestores none
    have hrev := ((h.after_index hs hfrom).2 none hw).2
    rw [hreg] at hrev
    have hlt := h.revision_lt hs
    rw [← hrev] at hlt
    exact UInt32.lt_irrefl _ hlt
  have hzero : Restores s.config r s.registry := by
    rw [← hfrom.registry]
    exact Restores.of_readable hfrom.readable
  cases payload with
  | none =>
    rw [records_none] at hn ⊢
    rcases n with _ | _ | n
    · exact ⟨fun _ => Or.inl rfl, fun _ => hzero⟩
    · refine ⟨fun hrestores => ?_, ?_⟩
      · rw [indexRecords, hconfig] at hrestores
        exact absurd hrestores hindexed
      · rintro (hn | ⟨-, i, hi, -⟩)
        · cases hn
        · cases hi
    · rw [indexRecords, List.length_cons, List.length_singleton] at hn
      omega
  | some i =>
    rw [records_some] at hn ⊢
    have hi : i < s.slots.length := by
      have hlt := h.payload_lt rfl
      rwa [(h.sound hs).sized, hconfig, ← hs.sized] at hlt
    have hpayload : next.payloadRecord i
        = (s.config.payloadKey (UInt8.ofNat i), timingsBytes (next.slot i).timings) := by
      rw [payloadRecord, hconfig]
    rcases n with _ | _ | _ | n
    · exact ⟨fun _ => Or.inl rfl, fun _ => hzero⟩
    · rw [List.take_succ_cons, List.take_zero, Records.apply_cons, Records.apply_nil, hpayload]
      constructor
      · intro hrestores
        refine Or.inr ⟨rfl, i, rfl, fun hocc => ?_⟩
        by_contra hdiff
        exact hfrom.save_other hocc (fun heq => hdiff (timingsBytes_inj heq)) none (hrestores none)
      · rintro (hn | ⟨-, j, hj, hsame⟩)
        · cases hn
        obtain rfl := Option.some.inj hj
        by_cases hocc : (s.slot i).occupied = true
        · rw [hsame hocc, Records.save_eq_self (hfrom.coherent i hocc)]
          exact hzero
        · exact hfrom.save_free hs hi (Bool.eq_false_iff.mpr hocc) _
    · refine ⟨fun hrestores => ?_, ?_⟩
      · rw [indexRecords, hconfig] at hrestores
        exact absurd hrestores hindexed
      · rintro (hn | ⟨hn, -⟩) <;> cases hn
    · rw [indexRecords, List.length_cons, List.length_cons, List.length_singleton] at hn
      omega

/-- The payload an operation saves goes over another waveform only in a `put` that relearns a
    command. -/
theorem payload_same_iff (hs : s.Sound) {i : Nat}
    (hplan : op.plan s = .write (some i) next undone) :
    ((s.slot i).occupied = true → (next.slot i).timings = (s.slot i).timings) ↔
      ∀ c, op = .put c → ∀ old, s.get c.name = some old → old.timings = c.timings := by
  have hkind := savesPayload_of_write hplan
  cases op with
  | put c =>
    obtain ⟨slot, hslot, hput⟩ := putWrite_of_plan hs hplan
    obtain rfl := Option.some.inj hslot
    rw [hput.timings]
    constructor
    · intro hsame c' hc old hold
      obtain rfl := Op.put.inj hc
      obtain ⟨j, hfind, rfl⟩ := Option.map_eq_some_iff.mp hold
      rcases hput.target with ⟨htarget, hocc⟩ | ⟨hnone, -⟩
      · obtain rfl := Option.some.inj (hfind.symm.trans htarget)
        exact (hsame hocc).symm
      · rw [hnone] at hfind
        cases hfind
    · intro hsame hocc
      rcases hput.target with ⟨htarget, -⟩ | ⟨-, hfree⟩
      · exact (hsame c rfl _ (Option.map_eq_some_iff.mpr ⟨i, htarget, rfl⟩)).symm
      · rw [hfree] at hocc
        cases hocc
  | importCommand c =>
    obtain ⟨-, -, -, -, -, -, -, slot, rev, hfree, -, -, hpay, -⟩ := importCommandPlan_eq_write hplan
    obtain rfl := Option.some.inj hpay
    refine ⟨fun _ c' hc => Op.noConfusion hc, fun _ hocc => ?_⟩
    rw [(findFreeSlot_eq_some hfree).2] at hocc
    cases hocc
  | rename | remove | removeById | clearAll | factoryReset | restoreBegin | restoreCommit =>
    cases hkind

/-- **When a failure is not seen by a reboot**, for one operation in any sound store that its flash
    restores. -/
theorem failure_unseen_iff (hs : s.Sound) (hst : Stored Sound s.config r)
    (hrestores : Restores s.config r s.registry) (hop : ∀ random, op ≠ .factoryReset random)
    (lands : Nat → Bool) (k : Nat) :
    ((op.run (faulty lands) s ⟨r, k⟩).1 ≠ .ok →
      Restores s.config (op.run (faulty lands) s ⟨r, k⟩).2.2.records s.registry) ↔
    (¬ op.Accepts s ∨ lands k = false ∨
      (∀ i < (if op.savesPayload then 3 else 2), lands (k + i) = true) ∨
      (op.savesPayload = true ∧ lands (k + 1) = false ∧
        ∀ c, op = .put c → ∀ old, s.get c.name = some old → old.timings = c.timings)) := by
  cases hplan : op.plan s with
  | stop result =>
    rw [Op.run_of_stop hplan]
    exact ⟨fun _ => Or.inl (refused_iff.mp ⟨result, hplan⟩), fun _ _ => hrestores⟩
  | write payload next undone =>
    have hacc := accepts_of_write hplan
    have hkind := savesPayload_of_write hplan
    obtain ⟨-, hchange, -⟩ := (op_change (fun _ => hs) hplan).resolve_right
      fun ⟨random, hreset, _⟩ => hop random hreset
    obtain ⟨raw, t, hfrom⟩ := hrestores.loadedFrom hst
    have hcount : (next.records payload).length = if op.savesPayload then 3 else 2 := by
      rw [← hkind]
      cases payload <;> rfl
    rcases run_cases lands hplan ⟨r, k⟩ with ⟨hok, -⟩ | ⟨herror, -, n, hn, hrec, hbefore, hfails⟩
    · have hall := lands_of_ok hplan hok
      rw [hcount] at hall
      exact ⟨fun _ => Or.inr (Or.inr (Or.inl hall)), fun _ hne => absurd hok hne⟩
    · have hfailed : (op.run (faulty lands) s ⟨r, k⟩).1 ≠ .ok := by
        rw [herror]
        exact fun h => nomatch h
      have hfirst : 0 < n → lands k = true := fun hpos => hbefore 0 hpos
      show (_ → Restores s.config _ s.registry) ↔ _
      rw [show (op.run (faulty lands) s ⟨r, k⟩).2.2.records = _ from hrec]
      rw [imp_iff_right hfailed, restores_before_iff hchange hs hfrom hn]
      constructor
      · rintro (rfl | ⟨rfl, i, rfl, hsame⟩)
        · exact Or.inr (Or.inl hfails)
        · exact Or.inr (Or.inr (Or.inr ⟨hkind.symm, hfails, (payload_same_iff hs hplan).mp hsame⟩))
      · rintro (hrefused | hzero | hall | ⟨hsaves, hone, hsame⟩)
        · exact absurd hacc hrefused
        · left
          by_contra hpos
          rw [hfirst (Nat.pos_of_ne_zero hpos)] at hzero
          cases hzero
        · have hlanded := hall n (hcount ▸ hn)
          rw [show lands (k + n) = false from hfails] at hlanded
          cases hlanded
        · rw [hsaves] at hkind
          obtain ⟨i, rfl⟩ := Option.isSome_iff_exists.mp hkind
          rcases n with _ | _ | n
          · exact Or.inl rfl
          · exact Or.inr ⟨rfl, i, rfl, (payload_same_iff hs hplan).mpr hsame⟩
          · have hlanded : lands (k + 1) = true := hbefore 1 (by omega)
            rw [hone] at hlanded
            cases hlanded

end Flash

end CommandStore

namespace Session

open CommandStore

/-! ## In RAM -/

/-- **The rollback in RAM is exact.**  In every state a device can reach through operations and
    reboots under any configurations, with any saves failing: an operation other than
    `factory_reset` that does not return `ok` leaves the whole store as it was, and unless it
    returns `storage_error` it has not attempted a save. -/
theorem rollback_exact (lands : Nat → Bool) (cfg : Config) (random : Option BridgeId)
    (events : List Event) (op : Op) (hop : ∀ random, op ≠ .factoryReset random)
    (lands' : Nat → Bool) :
    let x := run lands (powerOn lands cfg random) events
    let out := op.run (faulty lands') x.store x.flash
    out.1 ≠ .ok → out.2.1 = x.store ∧ (out.1 ≠ .storageError → out.2.2 = x.flash) := by
  intro x out hfailed
  have hx : Founded x := founded_run lands cfg random events
  cases hplan : op.plan x.store with
  | stop result =>
    have hout : out = (result, x.store, x.flash) := Op.run_of_stop hplan x.flash
    rw [hout]
    exact ⟨rfl, fun _ => rfl⟩
  | write payload next undone =>
    obtain ⟨-, -, hundone⟩ := (op_change hx.ram hplan).resolve_right
      fun ⟨random, hreset, _⟩ => hop random hreset
    rcases run_cases lands' hplan x.flash with ⟨hok, -⟩ | ⟨herror, hstore, -⟩
    · exact absurd hok hfailed
    · exact ⟨hstore.trans hundone, fun hne => absurd herror hne⟩

/-- A fresh device whose first operation fails at its index save. -/
theorem rollback_exact_failed_put :
    let x := run (fun _ => true) (powerOn (fun _ => true) ⟨2, 4, 200, 7⟩ none) []
    let out := (Op.put { name := ascii "a", timings := [350, -1050] }).run
      (faulty fun n => n ≠ 3) x.store x.flash
    out.2.1 = x.store :=
  (rollback_exact (fun _ => true) ⟨2, 4, 200, 7⟩ none [] (.put { name := ascii "a", timings := [350, -1050] })
    (fun _ h => Op.noConfusion h) (fun n => n ≠ 3) (by decide +kernel)).1

/-! ## On flash -/

/-- **A reported failure and the next boot.**  In every reachable state that is not read-only and
    whose flash restores its registry, and for every operation other than `factory_reset`: a failure
    leaves a flash that loads the registry from before exactly if the guards refuse the operation,
    or its first save fails, or none fails, or it is its second save, the first was a payload, and
    that payload is not another waveform for a stored command. -/
theorem failure_leaves_flash_iff (lands : Nat → Bool) (cfg : Config) (random : Option BridgeId)
    (events : List Event) :
    let x := run lands (powerOn lands cfg random) events
    x.store.readOnly = false → Restores x.store.config x.flash.records x.store.registry →
    ∀ (op : Op) (lands' : Nat → Bool), (∀ random, op ≠ .factoryReset random) →
    (((op.run (faulty lands') x.store x.flash).1 ≠ .ok →
      Restores x.store.config (op.run (faulty lands') x.store x.flash).2.2.records
        x.store.registry) ↔
    (¬ op.Accepts x.store ∨ lands' x.flash.attempts = false ∨
      (∀ i < (if op.savesPayload then 3 else 2), lands' (x.flash.attempts + i) = true) ∨
      (op.savesPayload = true ∧ lands' (x.flash.attempts + 1) = false ∧
        ∀ c, op = .put c → ∀ old, x.store.get c.name = some old → old.timings = c.timings))) := by
  intro x hro hrestores op lands' hop
  have hx : Founded x := founded_run lands cfg random events
  exact failure_unseen_iff (hx.ram hro) (hx.flash.stored_of_restores hrestores) hrestores hop lands'
    x.flash.attempts

/-- A rename whose header save fails: it reports the failure, and the next boot has the new name. -/
theorem failed_rename_survives_reboot :
    learned.store.readOnly = false ∧
    Restores learned.store.config learned.flash.records learned.store.registry ∧
    ((Op.rename 1 (ascii "b")).run (faulty fun n => n ≠ 6) learned.store learned.flash).1
      = .storageError ∧
    ¬ Restores learned.store.config ((Op.rename 1 (ascii "b")).run (faulty fun n => n ≠ 6)
      learned.store learned.flash).2.2.records learned.store.registry := by
  have hx : Founded learned := founded_run (fun _ => true) ⟨1, 4, 200, 7⟩ none
    [.op (.put { name := ascii "a", timings := [350, -1050] })]
  have hro : learned.store.readOnly = false := by decide +kernel
  have herror : ((Op.rename 1 (ascii "b")).run (faulty fun n => n ≠ 6) learned.store
      learned.flash).1 = .storageError := by decide +kernel
  refine ⟨hro, learned_restores, herror, fun h => ?_⟩
  rcases (failure_unseen_iff (hx.ram hro) (hx.flash.stored_of_restores learned_restores)
    learned_restores (fun _ h => Op.noConfusion h) _ _).mp fun _ => h with
    hrefused | hfirst | hall | ⟨hsaves, -⟩
  · exact hrefused (by decide +kernel)
  · exact absurd hfirst (by decide +kernel)
  · exact absurd (hall 1 (by decide)) (by decide +kernel)
  · cases hsaves

/-- The same rename failing at its first save is not seen by the next boot. -/
theorem failed_rename_unseen :
    Restores learned.store.config ((Op.rename 1 (ascii "b")).run (faulty fun n => n ≠ 5)
      learned.store learned.flash).2.2.records learned.store.registry :=
  (failure_leaves_flash_iff (fun _ => true) ⟨1, 4, 200, 7⟩ none
    [.op (.put { name := ascii "a", timings := [350, -1050] })] (by decide +kernel) learned_restores
    (.rename 1 (ascii "b")) (fun n => n ≠ 5) (fun _ h => Op.noConfusion h)).mpr
    (Or.inr (Or.inl (by decide +kernel))) (by decide +kernel)

/-! ## A failed factory reset -/

/-- The two stores hold the same registry in RAM. -/
def SameRegistry (s t : CommandStore) : Prop :=
  t.commands = s.commands ∧ t.bridgeId = s.bridgeId ∧ t.nextCommandId = s.nextCommandId ∧
    t.revision = s.revision ∧ t.restoreState = s.restoreState

instance (s t : CommandStore) : Decidable (SameRegistry s t) := by
  unfold SameRegistry
  infer_instance

/-- Whatever is called from here on, an accepted operation writes the index of a registry that has
    all of these commands, those apart that it or an earlier call was asked to dispose of. -/
def Spares (lands : Nat → Bool) (cs : List Command) (x : Session) : Prop :=
  ∀ (later : List Op) (op : Op) (payload : Option Nat) (next undone : CommandStore),
    op.plan (run lands x (later.map .op)).store = .write payload next undone →
    ∀ c ∈ cs, (∀ o ∈ op :: later, ¬ o.Disposes c) → c ∈ next.commands

/-- The store is what a factory reset makes of it. -/
def Minted (random : Option BridgeId) (s : CommandStore) : Prop :=
  s.commands = [] ∧ s.bridgeId = random.getD BridgeId.zero ∧ s.nextCommandId = commandIdFirst ∧
    s.revision = revisionInitial ∧ s.restoreState = 0

/-- A reset that fails keeps the registry only if that is what it resets to. -/
theorem sameRegistry_resetStore_iff (s : CommandStore) (random : Option BridgeId) :
    SameRegistry s (s.resetStore random) ↔ Minted random s := by
  have hempty : (s.resetStore random).commands = [] :=
    SlotTable.content_replicate s.config.maxCommands.toNat
  constructor
  · rintro ⟨hcommands, hid, hnext, hrev, hrestore⟩
    exact ⟨hcommands.symm.trans hempty, hid.symm, hnext.symm, hrev.symm, hrestore.symm⟩
  · rintro ⟨hcommands, hid, hnext, hrev, hrestore⟩
    exact ⟨hempty.trans hcommands.symm, hid.symm, hnext.symm, hrev.symm, hrestore.symm⟩

/-- Without a backend nothing is written, now or later. -/
theorem spares_of_no_backend (lands : Nat → Bool) (cs : List Command) {x : Session}
    (hbackend : x.store.backend = false) : Spares lands cs x := by
  have hrefused : ∀ op : Op, ¬ op.Accepts x.store := by
    intro op hacc
    rw [backend_of_accepts hacc] at hbackend
    cases hbackend
  have hstays : ∀ later : List Op, run lands x (later.map .op) = x := by
    intro later
    induction later with
    | nil => rfl
    | cons op later ih =>
      obtain ⟨result, hstop⟩ := refused_iff.mpr (hrefused op)
      rw [List.map_cons, run_cons, step_of_stop lands hstop]
      exact ih
  intro later op payload next undone hplan
  rw [hstays later] at hplan
  exact absurd (accepts_of_write hplan) (hrefused op)

/-- **When a failed factory reset loses nothing**, from any store over any flash: if there is no
    backend, or both saves land (so it does not fail), or the store is already what the reset makes
    of it. -/
theorem factory_reset_keeps_iff (lands : Nat → Bool) (s : CommandStore) (flash : Fake UInt32)
    (random : Option BridgeId) :
    let out := (Op.factoryReset random).run (faulty lands) s flash
    (out.1 = .storageError →
      SameRegistry s out.2.1 ∧ Spares lands s.commands ⟨out.2.1, out.2.2⟩) ↔
    (s.backend = false ∨
      (lands flash.attempts = true ∧ lands (flash.attempts + 1) = true) ∨ Minted random s) := by
  intro out
  cases hbackend : s.backend with
  | false =>
    have hstop : (Op.factoryReset random).plan s = .stop .storageError := by
      show s.factoryResetPlan random = _
      rw [factoryResetPlan, hbackend]
      rfl
    have hout : out = (.storageError, s, flash) := Op.run_of_stop hstop flash
    rw [hout]
    refine ⟨fun _ => Or.inl rfl, fun _ _ => ⟨⟨rfl, rfl, rfl, rfl, rfl⟩, ?_⟩⟩
    exact spares_of_no_backend lands s.commands hbackend
  | true =>
    have haccepts : (Op.factoryReset random).Accepts s := hbackend
    obtain ⟨payload, next, undone, hplan⟩ := write_of_accepts haccepts
    obtain ⟨-, rfl, rfl, rfl⟩ := factoryResetPlan_eq_write hplan
    rcases run_cases lands hplan flash with ⟨hok, -⟩ | ⟨herror, hstore, n, hn, -, -, hfails⟩
    · have hall := lands_of_ok hplan hok
      have hboth : lands flash.attempts = true ∧ lands (flash.attempts + 1) = true :=
        ⟨hall 0 Nat.zero_lt_two, hall 1 Nat.one_lt_two⟩
      refine ⟨fun _ => Or.inr (Or.inl hboth), fun _ hfailed => ?_⟩
      cases hok.symm.trans hfailed
    · have hsome : n = 0 ∨ n = 1 := by
        rw [records_none, indexRecords, List.length_cons, List.length_singleton] at hn
        omega
      have hnot : ¬ (lands flash.attempts = true ∧ lands (flash.attempts + 1) = true) := by
        rintro ⟨hfirst, hsecond⟩
        rcases hsome with rfl | rfl
        · exact absurd hfails (ne_true_of_eq_false · hfirst)
        · exact absurd hfails (ne_true_of_eq_false · hsecond)
      have hreset : out.2.1 = s.resetStore random := hstore
      rw [hreset]
      constructor
      · intro hkeeps
        exact Or.inr (Or.inr ((sameRegistry_resetStore_iff s random).mp (hkeeps herror).1))
      · rintro (hno | hboth | hminted) _
        · cases hno
        · exact absurd hboth hnot
        · refine ⟨(sameRegistry_resetStore_iff s random).mpr hminted, ?_⟩
          intro later op payload next undone _ c hc
          rw [hminted.1] at hc
          cases hc

/-- A factory reset whose first save fails, then a learn that succeeds: the command that was never
    reset is not in the index the learn writes, nor after the next boot. -/
theorem failed_reset_drops_command :
    let lands : Nat → Bool := fun n => n ≠ 5
    let out := (Op.factoryReset none).run (faulty lands) learned.store learned.flash
    let x := step lands ⟨out.2.1, out.2.2⟩ (.op (.put { name := ascii "b", timings := [500, -900] }))
    out.1 = .storageError ∧ ¬ SameRegistry learned.store out.2.1 ∧
    ¬ Spares lands learned.store.commands ⟨out.2.1, out.2.2⟩ ∧
    learned.store.names = [ascii "a"] ∧ x.store.names = [ascii "b"] ∧
    Restores x.store.config x.flash.records x.store.registry := by
  intro lands out x
  have herror : out.1 = .storageError := by decide +kernel
  have hreset : out.2.1 = learned.store.resetStore none := by decide +kernel
  have hacc : (Op.put { name := ascii "b", timings := [500, -900] }).Accepts out.2.1 := by
    decide +kernel
  have hok : ((Op.put { name := ascii "b", timings := [500, -900] }).run (faulty lands) out.2.1
      out.2.2).1 = .ok := by decide +kernel
  obtain ⟨payload, next, undone, hplan⟩ := write_of_accepts hacc
  obtain ⟨hstore, hrestores, -⟩ := op_restores
    (fun _ => by rw [hreset]; exact resetStore_sound learned.store none) (by decide +kernel)
    (fun _ => by rw [hreset]; exact Coherent.of_empty rfl) hplan hok
  have hx : x.store = next := hstore
  refine ⟨herror, by decide +kernel, fun hspares => ?_, by decide +kernel, by decide +kernel,
    by rw [hx]; exact hrestores⟩
  have hmem : ({ commandId := 1, name := ascii "a", timings := [350, -1050] } : Command)
      ∈ next.commands := by
    refine hspares [] _ payload next undone hplan _ (by decide +kernel) ?_
    intro o ho
    obtain rfl := List.mem_singleton.mp ho
    show ¬ ascii "b" = ascii "a"
    decide
  rw [← hx] at hmem
  exact absurd hmem (by decide +kernel)

end Session

end RfCloner
