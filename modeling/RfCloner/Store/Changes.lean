/-
  What a mutation can do.

  `Change s payload next` lists the changes the operations make to a store, one constructor for
  each kind, with everything the guards of the source have checked by then.  `op_change` is the
  inversion lemma: an operation that reaches its writes makes one of these changes, and its
  rollback restores the store it started from.  The exception is `factory_reset`, which starts over
  from any state and has no rollback.  The registry invariant is then proved once for each
  constructor (`Change.sound`).
-/
import RfCloner.Store.Slots

namespace RfCloner

open FixedCodec

/-- A command `put` or `import_command` may store. -/
structure Command.Admissible (c : Command) (cfg : Config) : Prop where
  occupied : c.occupied = true
  name_valid : validateName c.name = .ok
  timings_pos : 0 < c.timings.length
  timings_le : c.timings.length ≤ cfg.maxPulses.toNat

namespace CommandStore

/-! ## The invariant -/

/-- The part of the registry invariant that does not depend on the budget. -/
structure Sound (s : CommandStore) : Prop extends WellFormed s where
  free : ∀ i, (s.slot i).occupied = false → s.slot i = {}
  restoreState_le : s.restoreState = 0 ∨ s.restoreState = 1
  timings_le : ∀ c ∈ s.commands, c.timings.length ≤ s.config.maxPulses.toNat
  id_lt : ∀ c ∈ s.commands, c.commandId < s.nextCommandId
  next_pos : commandIdFirst ≤ s.nextCommandId
  revision_pos : revisionInitial ≤ s.revision
  revision_le : s.revision ≤ revisionMax

/-- The waveforms and the index are within the configured budget. -/
def WithinBudget (s : CommandStore) : Prop :=
  overhead s.config + s.payloadTotal ≤ s.config.maxStorageBytes.toNat

/-! ## Changes -/

/-- What an operation that reaches its writes does to the store: the new store, and the slot whose
    payload is written with it. -/
inductive Change (s : CommandStore) : Option Nat → CommandStore → Prop where
  /-- `put` of a new name, and `import_command`: a free slot takes a command with an unused id and
      an unused name. -/
  | store {i : Nat} {c : Command} {next rev : UInt32} (hi : i < s.slots.length)
      (hfree : (s.slot i).occupied = false) (hc : c.Admissible s.config)
      (hid : ∀ k, (s.slot k).occupied = true → (s.slot k).commandId ≠ c.commandId)
      (hname : ∀ k, (s.slot k).occupied = true → (s.slot k).name ≠ c.name)
      (hlt : c.commandId < next) (hnext : s.nextCommandId ≤ next)
      (hrev : nextRevision s.revision = some rev)
      (hbudget : ¬ s.projectedBytes none (UInt16.ofNat c.timings.length) > s.config.maxStorageBytes) :
      Change s (some i)
        { s with slots := s.slots.set i c, nextCommandId := next, revision := rev }
  /-- `put` of a known name: the command of that name is replaced under its id. -/
  | relearn {i : Nat} {c : Command} {rev : UInt32} (hocc : (s.slot i).occupied = true)
      (hc : c.Admissible s.config) (hid : c.commandId = (s.slot i).commandId)
      (hname : c.name = (s.slot i).name) (hrev : nextRevision s.revision = some rev)
      (hbudget : ¬ s.projectedBytes (some i) (UInt16.ofNat c.timings.length)
        > s.config.maxStorageBytes) :
      Change s (some i) { s with slots := s.slots.set i c, revision := rev }
  /-- `rename`: one command gets an unused name. -/
  | rename {i : Nat} {name : Bytes} {rev : UInt32} (hocc : (s.slot i).occupied = true)
      (hvalid : validateName name = .ok)
      (hname : ∀ k, (s.slot k).occupied = true → (s.slot k).name ≠ name)
      (hrev : nextRevision s.revision = some rev) :
      Change s none
        { s with slots := s.slots.set i { s.slot i with name := name }, revision := rev }
  /-- `remove` and `remove_by_id`: one slot is freed. -/
  | erase {i : Nat} {rev : UInt32} (hocc : (s.slot i).occupied = true)
      (hrev : nextRevision s.revision = some rev) :
      Change s none { s with slots := s.slots.set i {}, revision := rev }
  /-- `clear_all`: every slot is freed and an open restore is closed. -/
  | clear {rev : UInt32} (hrev : nextRevision s.revision = some rev) :
      Change s none
        { s with
          slots := List.replicate s.config.maxCommands.toNat {}
          restoreState := 0
          revision := rev }
  /-- `restore_begin`: an empty store adopts an identity and a next id. -/
  | adopt {bridgeId : BridgeId} {next rev : UInt32} (hempty : s.count = 0)
      (hnext : commandIdFirst ≤ next) (hrev : nextRevision s.revision = some rev) :
      Change s none
        { s with bridgeId := bridgeId, nextCommandId := next, restoreState := 1, revision := rev }
  /-- `restore_commit`: the restore is closed at a revision above `base`. -/
  | commit {base rev : UInt32} (hopen : s.restoreState ≠ 0) (hbase : s.revision ≤ base)
      (hrev : nextRevision base = some rev) :
      Change s none { s with restoreState := 0, revision := rev }

/-! ## Revisions -/

/-- There is a next revision exactly below the last one. -/
theorem nextRevision_isSome (base : UInt32) :
    (nextRevision base).isSome = true ↔ base < revisionMax := by
  rw [nextRevision]
  split
  · rename_i hge
    exact ⟨fun h => (nomatch h), fun h => absurd h (UInt32.not_lt.mpr hge)⟩
  · rename_i hlt
    exact ⟨fun _ => UInt32.not_le.mp hlt, fun _ => rfl⟩

/-- A commit goes on from the newer of two revisions. -/
theorem toNat_newer (source revision : UInt32) :
    (if source > revision then source else revision).toNat
      = max source.toNat revision.toNat := by
  split
  · rename_i hgt
    exact (Nat.max_eq_left (Nat.le_of_lt (UInt32.lt_iff_toNat_lt.mp hgt))).symm
  · rename_i hle
    exact (Nat.max_eq_right (UInt32.le_iff_toNat_le.mp (UInt32.not_lt.mp hle))).symm

/-- A revision that follows another is one more, and still a persistable one. -/
theorem nextRevision_eq_some {base rev : UInt32} (h : nextRevision base = some rev) :
    rev.toNat = base.toNat + 1 ∧ rev ≤ revisionMax := by
  rw [nextRevision] at h
  split at h
  · cases h
  · rename_i hlt
    have hlt' : base.toNat < revisionMax.toNat := UInt32.lt_iff_toNat_lt.mp (UInt32.not_le.mp hlt)
    have hmax : revisionMax.toNat = 2147483646 := rfl
    obtain rfl := Option.some.inj h
    have hone : (1 : UInt32).toNat = 1 := rfl
    have hsucc : (base + 1).toNat = base.toNat + 1 := by
      rw [UInt32.toNat_add, hone]
      omega
    refine ⟨hsucc, UInt32.le_iff_toNat_le.mpr ?_⟩
    omega

/-! ## The invariant, constructor by constructor -/

section SoundSet

variable {s : CommandStore} {i : Nat} {c : Command} {next rev : UInt32}

/-- Setting one slot of a sound store to a command that respects the others. -/
theorem Sound.set (hs : s.Sound) (hi : i < s.slots.length)
    (hc : c = {} ∨ c.Admissible s.config)
    (hid : c.occupied = true → ∀ k, k ≠ i → (s.slot k).occupied = true →
      (s.slot k).commandId ≠ c.commandId)
    (hname : c.occupied = true → ∀ k, k ≠ i → (s.slot k).occupied = true →
      (s.slot k).name ≠ c.name)
    (hlt : c.occupied = true → c.commandId < next) (hnext : s.nextCommandId ≤ next)
    (hpos : revisionInitial ≤ rev) (hle : rev ≤ revisionMax) :
    Sound { s with slots := s.slots.set i c, nextCommandId := next, revision := rev } := by
  have hadm : c.occupied = true → c.Admissible s.config := by
    intro hocc
    rcases hc with rfl | hadm
    · cases hocc
    · exact hadm
  have hlim : s.config.maxPulses.toNat < 2 ^ 16 := s.config.maxPulses.toNat_lt
  refine
    { sized := (List.length_set ..).trans hs.sized
      ids_nodup := SlotTable.Distinct.set hs.ids_nodup hi hid
      names_nodup := SlotTable.Distinct.set hs.names_nodup hi hname
      names_valid := SlotTable.forall_content_set hi hs.names_valid fun h => (hadm h).name_valid
      timings_pos := SlotTable.forall_content_set hi hs.timings_pos fun h => (hadm h).timings_pos
      timings_lt := SlotTable.forall_content_set hi hs.timings_lt fun h => ?_
      free := ?_
      restoreState_le := hs.restoreState_le
      timings_le := SlotTable.forall_content_set hi hs.timings_le fun h => (hadm h).timings_le
      id_lt := SlotTable.forall_content_set hi (fun d hd => ?_) hlt
      next_pos := UInt32.le_trans hs.next_pos hnext
      revision_pos := hpos
      revision_le := hle }
  · exact Nat.lt_of_le_of_lt (hadm h).timings_le hlim
  · intro k hk
    rw [slot_of_set rfl hi] at hk ⊢
    split
    · rename_i hki
      rw [if_pos hki] at hk
      rcases hc with rfl | hadm
      · rfl
      · rw [hadm.occupied] at hk
        cases hk
    · rename_i hki
      rw [if_neg hki] at hk
      exact hs.free k hk
  · exact UInt32.lt_of_lt_of_le (hs.id_lt d hd) hnext

/-- A store without commands is sound whatever its metadata. -/
theorem Sound.of_empty {t : CommandStore}
    (hslots : t.slots = List.replicate t.config.maxCommands.toNat {})
    (hrestore : t.restoreState = 0 ∨ t.restoreState = 1) (hnext : commandIdFirst ≤ t.nextCommandId)
    (hpos : revisionInitial ≤ t.revision) (hle : t.revision ≤ revisionMax) : t.Sound := by
  have hnil : t.commands = [] := by
    rw [commands, hslots]
    exact SlotTable.content_replicate _
  have hnone : ∀ {P : Command → Prop}, ∀ c ∈ t.commands, P c := by
    intro P c hc
    rw [hnil] at hc
    exact absurd hc List.not_mem_nil
  refine ⟨⟨?_, ?_, ?_, hnone, hnone, hnone⟩, ?_, hrestore, hnone, hnone, hnext, hpos, hle⟩
  · rw [hslots, List.length_replicate]
  · rw [hnil]
    exact List.nodup_nil
  · rw [hnil]
    exact List.nodup_nil
  · intro i _
    exact slot_of_replicate hslots i

end SoundSet

/-! ## From plans to changes -/

section Plans

variable {s next undone : CommandStore} {payload : Option Nat}

/-- A plan that reaches its writes has passed its guards, one by one. -/
theorem guard_eq_write {c : Prop} [Decidable c] {result : StoreResult} {plan : Plan}
    (h : (if c then .stop result else plan) = .write payload next undone) :
    ¬ c ∧ plan = .write payload next undone := by
  by_cases hc : c
  · rw [if_pos hc] at h
    cases h
  · rw [if_neg hc] at h
    exact ⟨hc, h⟩

/-- A plan that stops has been stopped by the guard, or has passed it. -/
theorem guard_eq_stop {c : Prop} [Decidable c] {refused result : StoreResult} {plan : Plan}
    (h : (if c then .stop refused else plan) = .stop result) :
    c ∧ refused = result ∨ ¬ c ∧ plan = .stop result := by
  by_cases hc : c
  · rw [if_pos hc] at h
    exact Or.inl ⟨hc, Plan.stop.inj h⟩
  · rw [if_neg hc] at h
    exact Or.inr ⟨hc, h⟩

theorem writable_eq_ok (h : s.writable = .ok) :
    s.backend = true ∧ s.readOnly = false ∧ s.restoreState = 0 := by
  rw [writable] at h
  split at h
  · cases h
  · rename_i hb
    split at h
    · cases h
    · rename_i hr
      split at h
      · cases h
      · rename_i hz
        exact ⟨by simpa using hb, Bool.eq_false_iff.mpr hr, not_not.mp hz⟩

/-- Where `put` stores a command, and under which id. -/
theorem putSlot_eq_ok {name : Bytes} {slot : Nat} {overwriting : Bool} {id : UInt32}
    (h : s.putSlot name = .ok (slot, overwriting, id)) :
    (overwriting = true ∧ s.findSlot name = some slot ∧ id = (s.slot slot).commandId) ∨
    (overwriting = false ∧ s.findSlot name = none ∧ s.findFreeSlot = some slot ∧
      s.nextCommandId ≤ commandIdLast ∧ id = s.nextCommandId) := by
  rw [putSlot] at h
  split at h
  · rename_i slot' hfind
    cases h
    exact Or.inl ⟨rfl, hfind, rfl⟩
  · rename_i hfind
    split at h
    · cases h
    · rename_i slot' hfree
      split at h
      · cases h
      · rename_i hlast
        cases h
        exact Or.inr ⟨rfl, hfind, hfree, UInt32.not_lt.mp hlast, rfl⟩

/-- `put` reaches its writes only through all its guards. -/
theorem putPlan_eq_write {c : Command} (h : s.putPlan c = .write payload next undone) :
    s.writable = .ok ∧ validateName c.name = .ok ∧ 0 < c.timings.length ∧
    c.timings.length ≤ s.config.maxPulses.toNat ∧
    ∃ slot overwriting id rev, s.putSlot c.name = .ok (slot, overwriting, id) ∧
      ¬ s.projectedBytes (if overwriting then some slot else none)
        (UInt16.ofNat c.timings.length) > s.config.maxStorageBytes ∧
      nextRevision s.revision = some rev ∧ payload = some slot ∧
      next = { s with
        slots := s.slots.set slot { c with commandId := id }
        nextCommandId := if overwriting then s.nextCommandId else id + 1
        revision := rev } ∧
      undone = { s with slots := (s.slots.set slot { c with commandId := id }).set slot (s.slot slot) }
    := by
  rw [putPlan] at h
  obtain ⟨hw, h⟩ := guard_eq_write h
  obtain ⟨hname, h⟩ := guard_eq_write h
  obtain ⟨hempty, h⟩ := guard_eq_write h
  obtain ⟨hlen, h⟩ := guard_eq_write h
  split at h
  · cases h
  rename_i slot overwriting id hslot
  obtain ⟨hbudget, h⟩ := guard_eq_write h
  cases hrev : nextRevision s.revision with
  | none =>
    rw [hrev] at h
    cases h
  | some rev =>
    rw [hrev] at h
    cases h
    refine ⟨not_not.mp hw, not_not.mp hname, ?_, Nat.not_lt.mp hlen, slot, overwriting, id, rev,
      hslot, hbudget, rfl, rfl, rfl, rfl⟩
    exact List.length_pos_of_ne_nil fun hnil => hempty (List.isEmpty_iff.mpr hnil)

theorem renamePlan_eq_write {id : UInt32} {name : Bytes}
    (h : s.renamePlan id name = .write payload next undone) :
    s.writable = .ok ∧ validateName name = .ok ∧
    ∃ slot rev, s.findSlotById id = some slot ∧ s.findSlot name = none ∧
      nextRevision s.revision = some rev ∧ payload = none ∧
      next = { s with slots := s.slots.set slot { s.slot slot with name := name }, revision := rev } ∧
      undone = { s with
        slots := (s.slots.set slot { s.slot slot with name := name }).set slot
          { next.slot slot with name := (s.slot slot).name } } := by
  rw [renamePlan] at h
  obtain ⟨hw, h⟩ := guard_eq_write h
  obtain ⟨hname, h⟩ := guard_eq_write h
  split at h
  · cases h
  rename_i slot hfind
  obtain ⟨-, h⟩ := guard_eq_write h
  obtain ⟨hfree, h⟩ := guard_eq_write h
  split at h
  · cases h
  rename_i rev hrev
  cases h
  exact ⟨not_not.mp hw, not_not.mp hname, slot, rev, hfind, by simpa using hfree, hrev, rfl, rfl, rfl⟩

theorem removeByIdPlan_eq_write {id : UInt32}
    (h : s.removeByIdPlan id = .write payload next undone) :
    s.writable = .ok ∧ ∃ slot rev, s.findSlotById id = some slot ∧
      nextRevision s.revision = some rev ∧ payload = none ∧
      next = { s with slots := s.slots.set slot {}, revision := rev } ∧
      undone = { s with slots := (s.slots.set slot {}).set slot (s.slot slot) } := by
  rw [removeByIdPlan] at h
  obtain ⟨hw, h⟩ := guard_eq_write h
  split at h
  · cases h
  rename_i slot hfind
  split at h
  · cases h
  rename_i rev hrev
  cases h
  exact ⟨not_not.mp hw, slot, rev, hfind, hrev, rfl, rfl, rfl⟩

/-- `remove` is `remove_by_id` of the command of that name. -/
theorem removePlan_eq_write {name : Bytes} (h : s.removePlan name = .write payload next undone) :
    ∃ slot, s.findSlot name = some slot ∧
      s.removeByIdPlan (s.slot slot).commandId = .write payload next undone := by
  rw [removePlan] at h
  obtain ⟨-, h⟩ := guard_eq_write h
  split at h
  · cases h
  rename_i slot hfind
  exact ⟨slot, hfind, h⟩

theorem clearAllPlan_eq_write (h : s.clearAllPlan = .write payload next undone) :
    s.backend = true ∧ s.readOnly = false ∧ ∃ rev, nextRevision s.revision = some rev ∧
      payload = none ∧
      next = { s with
        slots := List.replicate s.config.maxCommands.toNat {}, restoreState := 0, revision := rev } ∧
      undone = s := by
  rw [clearAllPlan] at h
  obtain ⟨hb, h⟩ := guard_eq_write h
  obtain ⟨hr, h⟩ := guard_eq_write h
  obtain ⟨-, h⟩ := guard_eq_write h
  split at h
  · cases h
  rename_i rev hrev
  cases h
  exact ⟨by simpa using hb, Bool.eq_false_iff.mpr hr, rev, hrev, rfl, rfl, rfl⟩

/-- What `factory_reset` writes, before it is known whether the write succeeds. -/
def resetStore (s : CommandStore) (random : Option BridgeId) : CommandStore :=
  { s with slots := List.replicate s.config.maxCommands.toNat {} }.mintIdentity random

/-- The end of read-only mode. -/
def resume (s : CommandStore) : CommandStore := { s with readOnly := false, fault := .none }

theorem factoryResetPlan_eq_write {random : Option BridgeId}
    (h : s.factoryResetPlan random = .write payload next undone) :
    s.backend = true ∧ payload = none ∧
      next = (s.resetStore random).resume ∧ undone = s.resetStore random := by
  rw [factoryResetPlan] at h
  obtain ⟨hb, h⟩ := guard_eq_write h
  cases h
  exact ⟨by simpa using hb, rfl, rfl, rfl⟩

theorem restoreBeginPlan_eq_write {bridgeId : BridgeId} {id : UInt32}
    (h : s.restoreBeginPlan bridgeId id = .write payload next undone) :
    s.backend = true ∧ s.readOnly = false ∧ s.count = 0 ∧ commandIdFirst ≤ id ∧
    ∃ rev, nextRevision s.revision = some rev ∧ payload = none ∧
      next = { s with
        bridgeId := bridgeId, nextCommandId := id, restoreState := 1, revision := rev } ∧
      undone = s := by
  rw [restoreBeginPlan] at h
  obtain ⟨hb, h⟩ := guard_eq_write h
  obtain ⟨hr, h⟩ := guard_eq_write h
  obtain ⟨hcount, h⟩ := guard_eq_write h
  obtain ⟨hid, h⟩ := guard_eq_write h
  split at h
  · cases h
  rename_i rev hrev
  cases h
  refine ⟨by simpa using hb, Bool.eq_false_iff.mpr hr, not_not.mp hcount, ?_, rev, hrev, rfl, rfl, rfl⟩
  exact UInt32.not_lt.mp fun hlt => hid (Or.inl hlt)

theorem importCommandPlan_eq_write {c : Command}
    (h : s.importCommandPlan c = .write payload next undone) :
    s.backend = true ∧ s.readOnly = false ∧ s.restoreState ≠ 0 ∧ c.Admissible s.config ∧
    c.commandId < s.nextCommandId ∧ s.hasId c.commandId = false ∧ s.has c.name = false ∧
    ∃ slot rev, s.findFreeSlot = some slot ∧
      ¬ s.projectedBytes none (UInt16.ofNat c.timings.length) > s.config.maxStorageBytes ∧
      nextRevision s.revision = some rev ∧ payload = some slot ∧
      next = { s with slots := s.slots.set slot c, revision := rev } ∧
      undone = { s with slots := (s.slots.set slot c).set slot {} } := by
  rw [importCommandPlan] at h
  obtain ⟨hb, h⟩ := guard_eq_write h
  obtain ⟨hr, h⟩ := guard_eq_write h
  obtain ⟨hopen, h⟩ := guard_eq_write h
  obtain ⟨hname, h⟩ := guard_eq_write h
  obtain ⟨hid, h⟩ := guard_eq_write h
  obtain ⟨htaken, h⟩ := guard_eq_write h
  obtain ⟨hlen, h⟩ := guard_eq_write h
  split at h
  · cases h
  rename_i slot hfree
  obtain ⟨hbudget, h⟩ := guard_eq_write h
  split at h
  · cases h
  rename_i rev hrev
  cases h
  push Not at hid hlen
  obtain ⟨hnone, hlt, hfresh⟩ := hid
  refine ⟨by simpa using hb, Bool.eq_false_iff.mpr hr, hopen, ⟨Command.occupied_iff.mpr hnone,
    not_not.mp hname, ?_, hlen.2⟩, UInt32.not_le.mp hlt, by simpa using hfresh, by simpa using htaken, slot, rev,
    hfree, hbudget, hrev, rfl, rfl, rfl⟩
  exact List.length_pos_of_ne_nil fun hnil => hlen.1 (List.isEmpty_iff.mpr hnil)

theorem restoreCommitPlan_eq_write {source : UInt32}
    (h : s.restoreCommitPlan source = .write payload next undone) :
    s.backend = true ∧ s.readOnly = false ∧ s.restoreState ≠ 0 ∧
    ∃ rev, nextRevision (if source > s.revision then source else s.revision) = some rev ∧
      payload = none ∧ next = { s with restoreState := 0, revision := rev } ∧
      undone = { s with restoreState := 1 } := by
  rw [restoreCommitPlan] at h
  obtain ⟨hb, h⟩ := guard_eq_write h
  obtain ⟨hr, h⟩ := guard_eq_write h
  obtain ⟨hopen, h⟩ := guard_eq_write h
  split at h
  · cases h
  rename_i rev hrev
  cases h
  exact ⟨by simpa using hb, Bool.eq_false_iff.mpr hr, hopen, rev, hrev, rfl, rfl, rfl⟩

/-- Setting a slot and setting it back leaves the store as it was. -/
theorem set_slot_back {i : Nat} (hi : i < s.slots.length) (c : Command) :
    { s with slots := (s.slots.set i c).set i (s.slot i) } = s := by
  have hback : (s.slots.set i c).set i (s.slot i) = s.slots := SlotTable.set_set_get hi c
  rw [hback]

/-- An id that may still be assigned has a successor: the counter does not wrap. -/
theorem lt_succ_of_le_last {id : UInt32} (h : id ≤ commandIdLast) : id < id + 1 := by
  have hle : id.toNat ≤ 4294967294 := UInt32.le_iff_toNat_le.mp h
  have hone : (1 : UInt32).toNat = 1 := rfl
  rw [UInt32.lt_iff_toNat_lt, UInt32.toNat_add, hone]
  omega

/-- `put`, as a change. -/
theorem putPlan_change {c : Command} (hs : s.Sound)
    (h : s.putPlan c = .write payload next undone) : Change s payload next ∧ undone = s := by
  obtain ⟨-, hname, hpos, hle, slot, overwriting, id, rev, hslot, hbudget, hrev, rfl, rfl, rfl⟩ :=
    putPlan_eq_write h
  rcases putSlot_eq_ok hslot with ⟨rfl, hfind, rfl⟩ | ⟨rfl, hfind, hfree, hlast, rfl⟩
  · -- a relearn
    obtain ⟨hocc, hsame⟩ := findSlot_eq_some hfind
    have hadm : Command.Admissible { c with commandId := (s.slot slot).commandId } s.config :=
      ⟨hocc, hname, hpos, hle⟩
    exact ⟨Change.relearn hocc hadm rfl hsame.symm hrev hbudget,
      set_slot_back (lt_of_slot_occupied hocc) _⟩
  · -- a new name
    obtain ⟨hlt, hfree⟩ := findFreeSlot_eq_some hfree
    have hgt := lt_succ_of_le_last hlast
    have hne : s.nextCommandId ≠ commandIdNone := by
      intro hz
      exact absurd (hz ▸ hs.next_pos) (by decide)
    have hadm : Command.Admissible { c with commandId := s.nextCommandId } s.config :=
      ⟨Command.occupied_iff.mpr hne, hname, hpos, hle⟩
    have hfresh : ∀ k, (s.slot k).occupied = true → (s.slot k).commandId ≠ s.nextCommandId := by
      intro k hk heq
      exact UInt32.lt_irrefl _ (heq ▸ hs.id_lt _ (slot_mem_commands hk))
    exact ⟨Change.store hlt hfree hadm hfresh (findSlot_eq_none.mp hfind) hgt
      (UInt32.le_of_lt hgt) hrev hbudget, set_slot_back hlt _⟩

theorem renamePlan_change {id : UInt32} {name : Bytes}
    (h : s.renamePlan id name = .write payload next undone) :
    Change s payload next ∧ undone = s := by
  obtain ⟨-, hvalid, slot, rev, hfind, hnone, hrev, rfl, rfl, rfl⟩ := renamePlan_eq_write h
  obtain ⟨hocc, -⟩ := findSlotById_eq_some hfind
  have hlt := lt_of_slot_occupied hocc
  refine ⟨Change.rename hocc hvalid (findSlot_eq_none.mp hnone) hrev, ?_⟩
  have hnew : CommandStore.slot
      { s with slots := s.slots.set slot { s.slot slot with name := name }, revision := rev } slot
      = { s.slot slot with name := name } := SlotTable.get_set_self hlt _
  rw [hnew]
  exact set_slot_back hlt _

theorem removeByIdPlan_change {id : UInt32}
    (h : s.removeByIdPlan id = .write payload next undone) :
    Change s payload next ∧ undone = s := by
  obtain ⟨-, slot, rev, hfind, hrev, rfl, rfl, rfl⟩ := removeByIdPlan_eq_write h
  obtain ⟨hocc, -⟩ := findSlotById_eq_some hfind
  exact ⟨Change.erase hocc hrev, set_slot_back (lt_of_slot_occupied hocc) _⟩

theorem importCommandPlan_change {c : Command} (hs : s.Sound)
    (h : s.importCommandPlan c = .write payload next undone) :
    Change s payload next ∧ undone = s := by
  obtain ⟨-, -, -, hadm, hid, hhas, hname, slot, rev, hfree, hbudget, hrev, rfl, rfl, rfl⟩ :=
    importCommandPlan_eq_write h
  obtain ⟨hlt, hfree⟩ := findFreeSlot_eq_some hfree
  refine ⟨Change.store hlt hfree hadm (hasId_eq_false.mp hhas) (has_eq_false.mp hname) hid
    (UInt32.le_refl _) hrev hbudget, ?_⟩
  rw [← hs.free slot hfree]
  exact set_slot_back hlt _

theorem restoreCommitPlan_change {source : UInt32} (hs : s.Sound)
    (h : s.restoreCommitPlan source = .write payload next undone) :
    Change s payload next ∧ undone = s := by
  obtain ⟨-, -, hopen, rev, hrev, rfl, rfl, rfl⟩ := restoreCommitPlan_eq_write h
  refine ⟨Change.commit hopen ?_ hrev, ?_⟩
  · split
    · rename_i hlt
      exact UInt32.le_of_lt hlt
    · exact UInt32.le_refl _
  · rw [← hs.restoreState_le.resolve_left hopen]

/-- **Every write is a change**, and what a failed write leaves in RAM is the store as it was -
    unless the operation is `factory_reset`, which leaves the emptied registry. -/
theorem op_change {op : Op} (hs : s.readOnly = false → s.Sound)
    (h : op.plan s = .write payload next undone) :
    (s.readOnly = false ∧ Change s payload next ∧ undone = s) ∨
    (∃ random, op = .factoryReset random ∧ payload = none ∧
      next = (s.resetStore random).resume ∧ undone = s.resetStore random) := by
  cases op with
  | put c =>
    have hro := (writable_eq_ok (putPlan_eq_write h).1).2.1
    exact Or.inl ⟨hro, putPlan_change (hs hro) h⟩
  | rename id name =>
    exact Or.inl ⟨(writable_eq_ok (renamePlan_eq_write h).1).2.1, renamePlan_change h⟩
  | remove name =>
    obtain ⟨slot, -, h'⟩ := removePlan_eq_write h
    exact Or.inl ⟨(writable_eq_ok (removeByIdPlan_eq_write h').1).2.1, removeByIdPlan_change h'⟩
  | removeById id =>
    exact Or.inl ⟨(writable_eq_ok (removeByIdPlan_eq_write h).1).2.1, removeByIdPlan_change h⟩
  | clearAll =>
    obtain ⟨-, hro, rev, hrev, rfl, rfl, rfl⟩ := clearAllPlan_eq_write h
    exact Or.inl ⟨hro, Change.clear hrev, rfl⟩
  | factoryReset random =>
    obtain ⟨-, rfl, rfl, rfl⟩ := factoryResetPlan_eq_write h
    exact Or.inr ⟨random, rfl, rfl, rfl, rfl⟩
  | restoreBegin bridgeId id =>
    obtain ⟨-, hro, hempty, hid, rev, hrev, rfl, rfl, rfl⟩ := restoreBeginPlan_eq_write h
    exact Or.inl ⟨hro, Change.adopt hempty hid hrev, rfl⟩
  | importCommand c =>
    have hro := (importCommandPlan_eq_write h).2.1
    exact Or.inl ⟨hro, importCommandPlan_change (hs hro) h⟩
  | restoreCommit source =>
    have hro := (restoreCommitPlan_eq_write h).2.1
    exact Or.inl ⟨hro, restoreCommitPlan_change (hs hro) h⟩

end Plans

/-! ## Changes keep the invariant -/

section ChangeSound

variable {s next : CommandStore} {payload : Option Nat}

theorem WellFormed.slot_inj_id (hwf : s.WellFormed) {i k : Nat} (hi : (s.slot i).occupied = true)
    (hk : (s.slot k).occupied = true) (h : (s.slot i).commandId = (s.slot k).commandId) : i = k :=
  SlotTable.distinct_iff.mp hwf.ids_nodup i k hi hk h

theorem WellFormed.slot_inj_name (hwf : s.WellFormed) {i k : Nat}
    (hi : (s.slot i).occupied = true) (hk : (s.slot k).occupied = true)
    (h : (s.slot i).name = (s.slot k).name) : i = k :=
  SlotTable.distinct_iff.mp hwf.names_nodup i k hi hk h

theorem Sound.admissible (hs : s.Sound) {i : Nat} (hocc : (s.slot i).occupied = true) :
    (s.slot i).Admissible s.config :=
  ⟨hocc, hs.names_valid _ (slot_mem_commands hocc), hs.timings_pos _ (slot_mem_commands hocc),
    hs.timings_le _ (slot_mem_commands hocc)⟩

/-- A revision that follows a sound one is again a persistable one. -/
theorem Sound.nextRevision (hs : s.Sound) {base rev : UInt32} (hbase : s.revision ≤ base)
    (hrev : RfCloner.nextRevision base = some rev) :
    revisionInitial ≤ rev ∧ rev ≤ revisionMax ∧ s.revision < rev := by
  obtain ⟨hsucc, hle⟩ := nextRevision_eq_some hrev
  have h1 : (1 : UInt32).toNat ≤ s.revision.toNat := UInt32.le_iff_toNat_le.mp hs.revision_pos
  have h2 := UInt32.le_iff_toNat_le.mp hbase
  refine ⟨UInt32.le_iff_toNat_le.mpr ?_, hle, UInt32.lt_iff_toNat_lt.mpr (by omega)⟩
  show (1 : UInt32).toNat ≤ _
  omega

/-- **A change keeps the store sound.** -/
theorem Change.sound (h : Change s payload next) (hs : s.Sound) : next.Sound := by
  cases h with
  | @store i c next rev hi hfree hc hid hname hlt hnext hrev hbudget =>
    obtain ⟨hpos, hle, -⟩ := hs.nextRevision (UInt32.le_refl _) hrev
    exact hs.set hi (Or.inr hc) (fun _ k _ => hid k) (fun _ k _ => hname k) (fun _ => hlt) hnext
      hpos hle
  | @relearn i c rev hocc hc hid hname hrev hbudget =>
    -- a relearn can only clash with itself
    obtain ⟨hpos, hle, -⟩ := hs.nextRevision (UInt32.le_refl _) hrev
    refine hs.set (lt_of_slot_occupied hocc) (Or.inr hc) ?_ ?_ ?_ (UInt32.le_refl _) hpos hle
    · intro _ k hki hk heq
      exact hki (hs.slot_inj_id hk hocc (heq.trans hid))
    · intro _ k hki hk heq
      exact hki (hs.slot_inj_name hk hocc (heq.trans hname))
    · intro _
      rw [hid]
      exact hs.id_lt _ (slot_mem_commands hocc)
  | @rename i name rev hocc hvalid hname hrev =>
    obtain ⟨hpos, hle, -⟩ := hs.nextRevision (UInt32.le_refl _) hrev
    have hold := hs.admissible hocc
    refine hs.set (lt_of_slot_occupied hocc) (Or.inr ⟨hocc, hvalid, hold.timings_pos,
      hold.timings_le⟩) ?_ (fun _ k _ => hname k) ?_ (UInt32.le_refl _) hpos hle
    · intro _ k hki hk heq
      exact hki (hs.slot_inj_id hk hocc heq)
    · intro _
      exact hs.id_lt (s.slot i) (slot_mem_commands hocc)
  | @erase i rev hocc hrev =>
    obtain ⟨hpos, hle, -⟩ := hs.nextRevision (UInt32.le_refl _) hrev
    exact hs.set (lt_of_slot_occupied hocc) (Or.inl rfl) (fun h => nomatch h)
      (fun h => nomatch h) (fun h => nomatch h) (UInt32.le_refl _) hpos hle
  | clear hrev =>
    obtain ⟨hpos, hle, -⟩ := hs.nextRevision (UInt32.le_refl _) hrev
    exact Sound.of_empty rfl (Or.inl rfl) hs.next_pos hpos hle
  | adopt hempty hnext hrev =>
    obtain ⟨hpos, hle, -⟩ := hs.nextRevision (UInt32.le_refl _) hrev
    refine { hs with
      restoreState_le := Or.inr rfl
      id_lt := ?_
      next_pos := hnext
      revision_pos := hpos
      revision_le := hle }
    -- the adopted counter bounds no id, as there is none
    intro c hc
    rw [count_eq, List.length_eq_zero_iff] at hempty
    exact absurd (hempty ▸ hc : c ∈ []) List.not_mem_nil
  | commit hopen hbase hrev =>
    obtain ⟨hpos, hle, -⟩ := hs.nextRevision hbase hrev
    exact { hs with
      restoreState_le := Or.inl rfl
      revision_pos := hpos
      revision_le := hle }

/-- **A change moves the revision up.** -/
theorem Change.revision_lt (h : Change s payload next) (hs : s.Sound) :
    s.revision < next.revision := by
  cases h with
  | store _ _ _ _ _ _ _ hrev => exact (hs.nextRevision (UInt32.le_refl _) hrev).2.2
  | relearn _ _ _ _ hrev => exact (hs.nextRevision (UInt32.le_refl _) hrev).2.2
  | rename _ _ _ hrev => exact (hs.nextRevision (UInt32.le_refl _) hrev).2.2
  | erase _ hrev => exact (hs.nextRevision (UInt32.le_refl _) hrev).2.2
  | clear hrev => exact (hs.nextRevision (UInt32.le_refl _) hrev).2.2
  | adopt _ _ hrev => exact (hs.nextRevision (UInt32.le_refl _) hrev).2.2
  | commit _ hbase hrev => exact (hs.nextRevision hbase hrev).2.2

/-- A freshly minted registry is sound. -/
theorem mint_sound (cfg : Config) (random : Option BridgeId) :
    ((configure cfg).mintIdentity random).Sound :=
  Sound.of_empty rfl (Or.inl rfl) (UInt32.le_refl _) (UInt32.le_refl _)
    (show revisionInitial ≤ revisionMax by decide)

theorem resetStore_sound (s : CommandStore) (random : Option BridgeId) :
    (s.resetStore random).Sound :=
  Sound.of_empty rfl (Or.inl rfl) (UInt32.le_refl _) (UInt32.le_refl _)
    (show revisionInitial ≤ revisionMax by decide)

theorem Sound.resume (hs : s.Sound) : s.resume.Sound := { hs with }

/-- Freeing every slot leaves only the overhead. -/
theorem total_replicate (n : Nat) :
    SlotTable.total Command.payloadBytes (List.replicate n {}) = 0 := by
  have hnil : SlotTable.content (List.replicate n ({} : Command)) = [] :=
    SlotTable.content_replicate n
  rw [SlotTable.total, hnil]
  rfl

/-- **A change keeps the store within its budget.** -/
theorem Change.withinBudget (h : Change s payload next) (hs : s.Sound) (hb : s.WithinBudget) :
    next.WithinBudget := by
  have hlim : s.config.maxPulses.toNat < 2 ^ 16 := s.config.maxPulses.toNat_lt
  cases h with
  | @store i c next rev hi hfree hc hid hname hlt hnext hrev hbudget =>
    have hproj := hs.projectedBytes_toNat hi (Or.inr ⟨rfl, hfree⟩) hc.occupied
      (Nat.lt_of_le_of_lt hc.timings_le hlim)
    have hle := UInt32.le_iff_toNat_le.mp (UInt32.not_lt.mp hbudget)
    rw [hproj] at hle
    exact hle
  | @relearn i c rev hocc hc hid hname hrev hbudget =>
    have hproj := hs.projectedBytes_toNat (lt_of_slot_occupied hocc) (Or.inl rfl) hc.occupied
      (Nat.lt_of_le_of_lt hc.timings_le hlim)
    have hle := UInt32.le_iff_toNat_le.mp (UInt32.not_lt.mp hbudget)
    rw [hproj] at hle
    exact hle
  | @rename i name rev hocc hvalid hname hrev =>
    refine Nat.le_trans (Nat.add_le_add_left (SlotTable.total_le fun k => ?_) _) hb
    rw [SlotTable.get_set (lt_of_slot_occupied hocc)]
    split
    · rename_i hki
      rw [hki]
      exact Nat.le_refl (SlotTable.weight Command.payloadBytes (s.slot i))
    · exact Nat.le_refl _
  | @erase i rev hocc hrev =>
    refine Nat.le_trans (Nat.add_le_add_left (SlotTable.total_le fun k => ?_) _) hb
    rw [SlotTable.get_set (lt_of_slot_occupied hocc)]
    split
    · exact Nat.zero_le _
    · exact Nat.le_refl _
  | clear hrev =>
    rw [WithinBudget, payloadTotal, total_replicate]
    exact Nat.le_trans (Nat.le_add_right _ _) hb
  | adopt => exact hb
  | commit => exact hb

/-- A change leaves the configuration and the backend alone. -/
theorem Change.config (h : Change s payload next) :
    next.config = s.config ∧ next.backend = s.backend := by
  cases h <;> exact ⟨rfl, rfl⟩

/-- A change never enters read-only mode. -/
theorem Change.readOnly (h : Change s payload next) : next.readOnly = s.readOnly := by
  cases h <;> rfl

/-- What an operation writes is sound, and leaves the configuration and the backend alone. -/
theorem op_next {op : Op} {undone : CommandStore} (hs : s.readOnly = false → s.Sound)
    (h : op.plan s = .write payload next undone) :
    next.Sound ∧ next.config = s.config ∧ next.backend = s.backend := by
  rcases op_change hs h with ⟨hro, hchange, -⟩ | ⟨random, -, -, rfl, -⟩
  · exact ⟨hchange.sound (hs hro), hchange.config⟩
  · exact ⟨(resetStore_sound s random).resume, rfl, rfl⟩

end ChangeSound

end CommandStore

end RfCloner
