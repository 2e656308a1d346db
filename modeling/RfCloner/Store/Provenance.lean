/-
  Where the commands of a listing come from.

  `put` may fail after its index has landed: RAM is rolled back to the old counter while the flash
  already holds the new command under the id that is still next in RAM.  Until the next write or
  reboot the two disagree about what that id stands for.

  `Traced` keeps, beside the device, which `put` each command stems from: one record for RAM and one
  for the index on flash, where the second is a copy of the first made whenever an index lands, and
  is copied back by a reboot.  The invariant (`Traced.Sourced`) is that the two agree below the next
  id in RAM, and nothing at or above it has ever been shown.
-/
import RfCloner.Store.Assigned
import RfCloner.Store.ReadOnly

namespace RfCloner

open FixedCodec StorageBackend CommandStore

/-- An event of a run without restores and factory resets, under one configuration. -/
def Event.Plain (cfg : Config) : Event → Prop
  | .op (.put _) | .op (.rename _ _) | .op (.remove _) | .op (.removeById _) | .op .clearAll => True
  | .op _ => False
  | .reboot config _ => config = cfg

/-- The operation stores a command under a new id. -/
def CommandStore.learns (s : CommandStore) : Op → Bool
  | .put c => !s.has c.name
  | _ => false

namespace CommandStore

/-! ## Plain writes -/

section Plain

variable {s next undone : CommandStore} {payload : Option Nat} {op : Op}

/-- Every command that is written was there under its id before, or takes the next id. -/
theorem commands_of_plain_write {cfg : Config} (hplain : (Event.op op).Plain cfg)
    (h : op.plan s = .write payload next undone) :
    ∀ c ∈ next.commands, (∃ d ∈ s.commands, d.commandId = c.commandId) ∨
      s.learns op = true ∧ c.commandId = s.nextCommandId := by
  have hkeep : ∀ d ∈ s.commands, (∃ d' ∈ s.commands, d'.commandId = d.commandId) ∨
      s.learns op = true ∧ d.commandId = s.nextCommandId := fun d hd => Or.inl ⟨d, hd, rfl⟩
  have hremove : ∀ {id : UInt32}, s.removeByIdPlan id = .write payload next undone →
      ∀ c ∈ next.commands, (∃ d ∈ s.commands, d.commandId = c.commandId) ∨
        s.learns op = true ∧ c.commandId = s.nextCommandId := by
    intro id h
    obtain ⟨-, slot, rev, hslot, -, -, rfl, -⟩ := removeByIdPlan_eq_write h
    exact SlotTable.forall_content_set (lt_of_slot_occupied (findSlotById_eq_some hslot).1) hkeep
      fun hocc => nomatch hocc
  cases op with
  | put c =>
    cases hhas : s.has c.name with
    | false =>
      obtain ⟨-, slot, rev, hlt, -, rfl⟩ := putPlan_new h hhas
      refine SlotTable.forall_content_set hlt hkeep fun _ => Or.inr ⟨?_, rfl⟩
      rw [learns, hhas]
      rfl
    | true =>
      obtain ⟨slot, rev, hocc, -, rfl⟩ := putPlan_known h hhas
      exact SlotTable.forall_content_set (lt_of_slot_occupied hocc) hkeep
        fun _ => Or.inl ⟨s.slot slot, slot_mem_commands hocc, rfl⟩
  | rename id name =>
    obtain ⟨-, -, slot, rev, hslot, -, -, -, rfl, -⟩ := renamePlan_eq_write h
    have hocc := (findSlotById_eq_some hslot).1
    exact SlotTable.forall_content_set (lt_of_slot_occupied hocc) hkeep
      fun _ => Or.inl ⟨s.slot slot, slot_mem_commands hocc, rfl⟩
  | remove name =>
    obtain ⟨_, -, h'⟩ := removePlan_eq_write h
    exact hremove h'
  | removeById id => exact hremove h
  | clearAll =>
    obtain ⟨-, -, rev, -, -, rfl, -⟩ := clearAllPlan_eq_write h
    intro c hc
    have hnil : SlotTable.content (List.replicate s.config.maxCommands.toNat ({} : Command)) = [] :=
      SlotTable.content_replicate _
    rw [commands, hnil] at hc
    cases hc
  | factoryReset | restoreBegin | importCommand | restoreCommit => exact hplain.elim

theorem plain_reset {cfg : Config} (hplain : (Event.op op).Plain cfg) (random : Option BridgeId) :
    op ≠ .factoryReset random := by
  rintro rfl
  exact hplain

theorem plain_begin {cfg : Config} (hplain : (Event.op op).Plain cfg) (b : BridgeId) (id : UInt32) :
    op ≠ .restoreBegin b id := by
  rintro rfl
  exact hplain

end Plain

end CommandStore

namespace Session

variable (lands : Nat → Bool)

/-! ## Saves that land -/

/-- The index of an operation lands: its save is reached, and succeeds. -/
def indexLands (x : Session) (op : Op) : Bool :=
  match op.plan x.store with
  | .stop _ => false
  | .write payload _ _ =>
    (List.range (payload.toList.length + 1)).all fun i => lands (x.flash.attempts + i)

variable {lands} in
theorem indexLands_iff {x : Session} {op : Op} {payload : Option Nat} {next undone : CommandStore}
    (hplan : op.plan x.store = .write payload next undone) :
    x.indexLands lands op = true ↔
      ∀ i < payload.toList.length + 1, lands (x.flash.attempts + i) = true := by
  rw [indexLands, hplan]
  simp only [List.all_eq_true, List.mem_range]

/-- Until the index is saved, at most a payload record has changed. -/
theorem apply_take_payload {s : CommandStore} {payload : Option Nat} {n : Nat}
    {r : Records UInt32} {key : UInt32} (hn : n ≤ payload.toList.length)
    (hkey : ∀ i, s.config.payloadKey i ≠ key) :
    r.apply ((s.records payload).take n) key = r key := by
  refine Records.apply_of_not_mem fun w hw => ?_
  have hw' : w ∈ (payload.map s.payloadRecord).toList := by
    have hmem := List.take_subset_take_left _ hn hw
    cases payload with
    | none => cases hmem
    | some i => exact hmem
  cases payload with
  | none => cases hw'
  | some i =>
    rw [List.mem_singleton.mp hw']
    exact hkey _

/-- The index is saved before the header. -/
theorem apply_take_index (s : CommandStore) (payload : Option Nat) (r : Records UInt32) :
    r.apply ((s.records payload).take (payload.toList.length + 1)) s.config.headerKey
        = r s.config.headerKey ∧
      r.apply ((s.records payload).take (payload.toList.length + 1)) s.config.indexKey
        = some s.indexRecord := by
  have htake : (s.records payload).take (payload.toList.length + 1)
      = (payload.map s.payloadRecord).toList ++ [(s.config.indexKey, s.indexRecord)] := by
    cases payload <;> rfl
  rw [htake, Records.apply_append, Records.apply_cons, Records.apply_nil]
  refine ⟨?_, Records.save_self _ _ _⟩
  rw [Records.save_of_ne s.config.headerKey_ne_indexKey]
  cases payload with
  | none => rfl
  | some i => exact Records.save_of_ne (s.config.payloadKey_ne_headerKey _).symm _ _

/-- What a write of `next` leaves on flash: the header lands last and only if everything did, and
    the index is replaced exactly if it lands. -/
theorem records_of_write {x : Session} {op : Op} {payload : Option Nat}
    {next undone : CommandStore} (hplan : op.plan x.store = .write payload next undone) :
    let out := op.run (faulty lands) x.store x.flash
    (out.1 = .ok ∧ out.2.1 = next ∧ x.indexLands lands op = true ∧
      out.2.2.records next.config.headerKey = some (headerRecord next.config) ∧
      out.2.2.records next.config.indexKey = some next.indexRecord) ∨
    (out.1 ≠ .ok ∧ out.2.1 = undone ∧
      out.2.2.records next.config.headerKey = x.flash.records next.config.headerKey ∧
      out.2.2.records next.config.indexKey
        = if x.indexLands lands op then some next.indexRecord
          else x.flash.records next.config.indexKey) := by
  intro out
  have hout : out = _ := run_of_write (faulty lands) hplan x.flash
  obtain ⟨n, hn, hrec, hok, hfail, hbefore⟩ :=
    saveAll_faulty lands (next.records payload) x.flash
  generalize (faulty lands).saveAll (next.records payload) x.flash = saved at hout hrec hok hfail
  obtain ⟨success, io⟩ := saved
  have hlands : x.indexLands lands op = true ↔ _ := indexLands_iff hplan
  cases success with
  | true =>
    left
    rw [hok rfl, List.take_length, CommandStore.records, Records.apply_append] at hrec
    rw [hout]
    refine ⟨rfl, rfl, hlands.mpr fun i hi => hbefore i ?_, ?_, ?_⟩
    · rw [hok rfl, CommandStore.records, List.length_append]
      cases payload <;> exact Nat.lt_succ_of_lt hi
    · exact (congrFun hrec _).trans apply_indexRecords_header
    · exact (congrFun hrec _).trans apply_indexRecords_index
  | false =>
    right
    obtain ⟨hlt, hfalse⟩ := hfail rfl
    rw [hout]
    refine ⟨StoreResult.noConfusion, rfl, ?_⟩
    show io.records next.config.headerKey = _ ∧ io.records next.config.indexKey = _
    dsimp only at hrec
    by_cases hreached : payload.toList.length < n
    · -- the index has landed, and the header has not
      have hn' : n = payload.toList.length + 1 := by
        rw [CommandStore.records, List.length_append] at hlt
        cases payload <;> simp [indexRecords] at hlt hreached ⊢ <;> omega
      have hindex : x.indexLands lands op = true := hlands.mpr fun i hi => hbefore i (hn' ▸ hi)
      rw [if_pos hindex, hrec, hn']
      exact apply_take_index next payload x.flash.records
    · -- at most the payload has landed
      have hindex : ¬ x.indexLands lands op = true := by
        intro h
        rw [hlands.mp h n (by omega)] at hfalse
        cases hfalse
      have hn' := Nat.le_of_not_lt hreached
      rw [if_neg hindex, hrec]
      exact ⟨apply_take_payload hn' next.config.payloadKey_ne_headerKey,
        apply_take_payload hn' next.config.payloadKey_ne_indexKey⟩

/-- Booting from an index: nothing is saved, and the store is what the index decodes to, read-only or
    not. -/
theorem boot_indexed_eq {flash : Fake UInt32} {t : CommandStore}
    (hpos : t.config.maxCommands ≠ 0)
    (hheader : flash.records t.config.headerKey = some (headerRecord t.config))
    (hindex : flash.records t.config.indexKey = some t.indexRecord) (random : Option BridgeId) :
    ∃ ro fault, boot lands t.config random flash
      = ⟨{ decoded flash.records.load t.config t.config.maxCommands t.indexRecord with
            readOnly := ro, fault := fault }, flash⟩ := by
  have hload : (fun key len => (faulty lands).load key len flash) = flash.records.load := rfl
  have hh : flash.records.load t.config.headerKey StoredHeader.codec.width
      = some (headerRecord t.config) := Records.load_eq_some.mpr ⟨hheader, length_headerRecord _⟩
  have hi : flash.records.load t.config.indexKey (indexBytesFor t.config.maxCommands)
      = some t.indexRecord := Records.load_eq_some.mpr ⟨hindex, length_indexRecord t⟩
  have hs := headerStates_headerRecord t.config hpos
  have hout : ∃ ro fault, (CommandStore.boot (faulty lands) t.config random flash).2
      = ({ decoded flash.records.load t.config t.config.maxCommands t.indexRecord with
            readOnly := ro, fault := fault }, flash) := by
    by_cases hfaulty : ∃ i < t.config.maxCommands.toNat,
        (outcomeAt flash.records.load t.indexRecord t.config i).isFaulty = true
    · exact ⟨_, _, boot_of_payload_fault _ _ _ _ hload random hh hs hi (indexIntact_indexRecord t)
        hfaulty⟩
    · push Not at hfaulty
      have hr : Readable flash.records.load t.config t.config.maxCommands t.indexRecord :=
        ⟨⟨_, hh, hs⟩, hi, indexIntact_indexRecord t,
          fun i hlt => Bool.eq_false_iff.mpr (hfaulty i hlt)⟩
      exact ⟨_, _, (boot_of_readable _ _ _ _ hload random hr).1⟩
  obtain ⟨ro, fault, hboot⟩ := hout
  exact ⟨ro, fault, congrArg (fun out => (⟨out.1, out.2⟩ : Session)) hboot⟩

/-- **Booting from an index**: nothing is saved, and what comes up has the counter of the index and
    no command that is not in it, whether or not the waveforms can be read. -/
theorem boot_indexed {flash : Fake UInt32} {t : CommandStore} (ht : t.Sound)
    (hpos : t.config.maxCommands ≠ 0)
    (hheader : flash.records t.config.headerKey = some (headerRecord t.config))
    (hindex : flash.records t.config.indexKey = some t.indexRecord) (random : Option BridgeId) :
    let y := boot lands t.config random flash
    y.flash = flash ∧ y.store.config = t.config ∧ y.store.backend = true ∧
    y.store.nextCommandId = t.nextCommandId ∧
    (∀ c ∈ y.store.commands, ∃ d ∈ t.commands, d.commandId = c.commandId) ∧
    (y.store.readOnly = false → y.store.Sound) := by
  intro y
  have hreload : Reloads flash.records t
      (decoded flash.records.load t.config t.config.maxCommands t.indexRecord) :=
    reloads_decoded ht.toWellFormed
  obtain ⟨ro, fault, hboot⟩ := boot_indexed_eq lands hpos hheader hindex random
  have hstore : y.store = _ := congrArg Session.store hboot
  refine ⟨congrArg Session.flash hboot, by rw [hstore]; rfl, by rw [hstore]; rfl, ?_, ?_, ?_⟩
  · rw [hstore]
    exact hreload.nextCommandId
  · intro c hc
    rw [hstore] at hc
    obtain ⟨i, rfl, hocc⟩ := SlotTable.mem_content.mp hc
    obtain ⟨hid, -⟩ := hreload.same (i := i) hocc
    obtain ⟨hocc', -⟩ := hreload.slot_of_occupied (i := i) hocc
    exact ⟨t.slot i, slot_mem_commands hocc', hid.symm⟩
  · intro _
    rw [hstore]
    exact { hreload.sound ht with }

end Session

/-! ## Provenance -/

/-- A registry listing: the next id, and the listed ids with the `put` each of them stems from. -/
structure Listing where
  next : UInt32
  stems : List (UInt32 × Option Nat)
  deriving DecidableEq, Repr

/-- A device with the record of where its commands stem from: the number of the event that created
    the command of each id, as far as RAM goes and as far as the index on flash goes; and every
    listing that could be observed, the latest first. -/
structure Traced where
  device : Session
  clock : Nat
  ram : UInt32 → Option Nat
  flash : UInt32 → Option Nat
  seen : List Listing

namespace Traced

variable (lands : Nat → Bool)

/-- What a listing would show now. -/
def listing (T : Traced) : Listing where
  next := T.device.store.nextCommandId
  stems := T.device.store.commands.map fun c => (c.commandId, T.ram c.commandId)

/-- The registry is listed. -/
def observe (T : Traced) : Traced := { T with seen := T.listing :: T.seen }

def powerOn (cfg : Config) (random : Option BridgeId) : Traced :=
  observe ⟨Session.powerOn lands cfg random, 0, fun _ => none, fun _ => none, []⟩

/-- Where the commands stem from if the operation goes through: a command learned under a new id
    stems from this very event, everything else from where it stemmed before. -/
def made (T : Traced) (op : Op) : UInt32 → Option Nat :=
  if T.device.store.learns op then
    Function.update T.ram T.device.store.nextCommandId (some T.clock)
  else T.ram

/-- One event.  The flash records what its index was written from, as soon as the index lands; a
    reboot reads it back. -/
def step (T : Traced) (e : Event) : Traced :=
  match e with
  | .op op =>
    observe
      { device := T.device.step lands e
        clock := T.clock + 1
        ram := if (op.run (faulty lands) T.device.store T.device.flash).1 = .ok then T.made op
          else T.ram
        flash := if T.device.indexLands lands op then T.made op else T.flash
        seen := T.seen }
  | .reboot _ _ =>
    observe
      { device := T.device.step lands e
        clock := T.clock + 1
        ram := T.flash
        flash := T.flash
        seen := T.seen }

def run (T : Traced) (events : List Event) : Traced := events.foldl (step lands) T

/-! ## The invariant -/

/-- No header has landed yet, and no id has been given out. -/
def Blank (T : Traced) : Prop :=
  T.device.flash.records T.device.store.config.headerKey = none ∧
    T.device.store.nextCommandId = commandIdFirst

/-- The index on flash is that of some store whose counter is not behind the one in RAM, and below
    the latter the two agree on where commands stem from. -/
def Written (T : Traced) : Prop :=
  ∃ t : CommandStore, t.Sound ∧ t.config = T.device.store.config ∧
    T.device.flash.records t.config.headerKey = some (headerRecord t.config) ∧
    T.device.flash.records t.config.indexKey = some t.indexRecord ∧
    T.device.store.nextCommandId ≤ t.nextCommandId ∧
    (∀ c ∈ t.commands, (T.flash c.commandId).isSome = true) ∧
    ∀ id < T.device.store.nextCommandId, T.flash id = T.ram id

/-- The state of the device and the record of where its commands stem from, after `done`. -/
structure Sourced (cfg : Config) (done : List Event) (T : Traced) : Prop where
  config : T.device.store.config = cfg
  sound : T.device.store.readOnly = false → T.device.store.Sound
  clock : T.clock = done.length
  below : ∀ c ∈ T.device.store.commands, c.commandId < T.device.store.nextCommandId
  stems : ∀ c ∈ T.device.store.commands, (T.ram c.commandId).isSome = true
  puts : ∀ id k, T.ram id = some k ∨ T.flash id = some k → ∃ c, done[k]? = some (.op (.put c))
  flash : T.Blank ∨ T.Written

/-- What has been shown is below the counter in RAM, and as RAM has it. -/
structure Shown (T : Traced) : Prop where
  next_le : ∀ l ∈ T.seen, l.next ≤ T.device.store.nextCommandId
  stems : ∀ l ∈ T.seen, ∀ p ∈ l.stems, p.1 ≠ commandIdNone ∧
    p.1 < T.device.store.nextCommandId ∧ p.2 = T.ram p.1 ∧ p.2.isSome = true
  ordered : T.seen.Pairwise fun later earlier => earlier.next ≤ later.next

section Invariant

variable {lands} {cfg : Config} {done : List Event} {T T' : Traced}

/-- What was shown stays valid while the counter does not go back and RAM keeps what is below it. -/
theorem Shown.mono (h : T.Shown) (hseen : T'.seen = T.seen)
    (hnext : T.device.store.nextCommandId ≤ T'.device.store.nextCommandId)
    (hram : ∀ id, id ≠ commandIdNone → id < T.device.store.nextCommandId → T'.ram id = T.ram id) :
    T'.Shown where
  next_le l hl := UInt32.le_trans (h.next_le l (hseen ▸ hl)) hnext
  stems l hl p hp := by
    obtain ⟨hne, hlt, hstem, hsome⟩ := h.stems l (hseen ▸ hl) p hp
    exact ⟨hne, UInt32.lt_of_lt_of_le hlt hnext, hstem.trans (hram _ hne hlt).symm, hsome⟩
  ordered := by
    rw [hseen]
    exact h.ordered

/-- The current listing can be shown. -/
theorem Shown.observe (h : T.Shown) (hT : Sourced cfg done T) : T.observe.Shown where
  next_le l hl := by
    rcases List.mem_cons.mp hl with rfl | hl
    · exact UInt32.le_refl _
    · exact h.next_le l hl
  stems l hl p hp := by
    rcases List.mem_cons.mp hl with rfl | hl
    · obtain ⟨c, hc, rfl⟩ := List.mem_map.mp hp
      obtain ⟨i, rfl, hocc⟩ := SlotTable.mem_content.mp hc
      exact ⟨Command.occupied_iff.mp hocc, hT.below _ hc, rfl, hT.stems _ hc⟩
    · exact h.stems l hl p hp
  ordered := List.pairwise_cons.mpr ⟨h.next_le, h.ordered⟩

theorem Sourced.observe (h : Sourced cfg done T) : Sourced cfg done T.observe := { h with }

/-- An event of the past stays where it is. -/
theorem getElem?_done {e e' : Event} {k : Nat} (h : done[k]? = some e') :
    (done ++ [e])[k]? = some e' := by
  obtain ⟨hk, -⟩ := List.getElem?_eq_some_iff.mp h
  rw [List.getElem?_append_left hk, h]

/-- Below the next id, what an operation makes changes nothing. -/
theorem made_of_lt (op : Op) {id : UInt32} (h : id < T.device.store.nextCommandId) :
    T.made op id = T.ram id := by
  unfold made
  split
  · exact Function.update_of_ne (UInt32.ne_of_lt h) _ _
  · rfl

/-- Every command an operation writes stems from somewhere. -/
theorem Sourced.made_isSome (h : Sourced cfg done T) {op : Op} {payload : Option Nat}
    {next undone : CommandStore} (hplain : (Event.op op).Plain cfg)
    (hplan : op.plan T.device.store = .write payload next undone) :
    ∀ c ∈ next.commands, (T.made op c.commandId).isSome = true := by
  intro c hc
  unfold made
  rcases commands_of_plain_write hplain hplan c hc with ⟨d, hd, hid⟩ | ⟨hlearns, hid⟩
  · rw [← hid]
    split
    · rw [Function.update_of_ne (UInt32.ne_of_lt (h.below d hd))]
      exact h.stems d hd
    · exact h.stems d hd
  · rw [if_pos hlearns, hid, Function.update_self]
    rfl

/-- What an operation makes stems from puts, this one included. -/
theorem Sourced.made_puts (h : Sourced cfg done T) {op : Op} {id : UInt32} {k : Nat}
    (hk : T.made op id = some k) : ∃ c, (done ++ [.op op])[k]? = some (.op (.put c)) := by
  have hold : T.ram id = some k → ∃ c, (done ++ [.op op])[k]? = some (.op (.put c)) := by
    intro hram
    obtain ⟨c, hc⟩ := h.puts id k (Or.inl hram)
    exact ⟨c, getElem?_done hc⟩
  unfold made at hk
  split at hk
  · rename_i hlearns
    by_cases hid : id = T.device.store.nextCommandId
    · rw [hid, Function.update_self] at hk
      obtain rfl := Option.some.inj hk
      unfold learns at hlearns
      split at hlearns
      · rename_i c
        refine ⟨c, ?_⟩
        rw [h.clock, List.getElem?_append_right (Nat.le_refl _), Nat.sub_self]
        rfl
      · cases hlearns
    · rw [Function.update_of_ne hid] at hk
      exact hold hk
  · exact hold hk

/-- The clock counts the events. -/
theorem Sourced.clock_succ (h : Sourced cfg done T) (e : Event) :
    T.clock + 1 = (done ++ [e]).length := by
  rw [List.length_append, h.clock]
  rfl

/-- What stemmed from a put before an event does so after it. -/
theorem Sourced.puts_past (h : Sourced cfg done T) (e : Event) :
    ∀ id k, T.ram id = some k ∨ T.flash id = some k →
      ∃ c, (done ++ [e])[k]? = some (.op (.put c)) :=
  fun id k hk => (h.puts id k hk).imp fun _ hc => getElem?_done hc

/-- An operation that stops has not learned anything. -/
theorem made_of_stop {op : Op} (hplan : op.plan T.device.store = .stop .ok) : T.made op = T.ram := by
  have hnot : ¬ T.device.store.learns op = true := by
    unfold learns
    split
    · rename_i c
      exact absurd hplan putPlan_stop
    · exact Bool.false_ne_true
  rw [made, if_neg hnot]

variable (lands) in
/-- An operation before its outcome is listed. -/
def acted (T : Traced) (op : Op) : Traced where
  device := T.device.step lands (.op op)
  clock := T.clock + 1
  ram := if (op.run (faulty lands) T.device.store T.device.flash).1 = .ok then T.made op else T.ram
  flash := if T.device.indexLands lands op then T.made op else T.flash
  seen := T.seen

theorem acted_of_stop {op : Op} {result : StoreResult}
    (hplan : op.plan T.device.store = .stop result) :
    T.acted lands op = { T with clock := T.clock + 1 } := by
  have hdevice : T.device.step lands (.op op) = T.device := Session.step_of_stop lands hplan
  have hlands : T.device.indexLands lands op = false := by rw [Session.indexLands, hplan]
  have hram : (if (op.run (faulty lands) T.device.store T.device.flash).1 = .ok then T.made op
      else T.ram) = T.ram := by
    split
    · rename_i hok
      rw [Op.run_of_stop hplan] at hok
      obtain rfl : result = .ok := hok
      exact made_of_stop hplan
    · rfl
  rw [acted, hdevice, hram, hlands]
  rfl

section Write

variable {op : Op} {payload : Option Nat} {next undone : CommandStore}

/-- All saves of an operation have landed: RAM and flash both stem from what was made. -/
theorem Sourced.landed (h : Sourced cfg done T) (hplain : (Event.op op).Plain cfg)
    (hplan : op.plan T.device.store = .write payload next undone)
    (hok : (op.run (faulty lands) T.device.store T.device.flash).1 = .ok)
    (hstore : (T.device.step lands (.op op)).store = next)
    (hlands : T.device.indexLands lands op = true)
    (hheader : (T.device.step lands (.op op)).flash.records next.config.headerKey
      = some (headerRecord next.config))
    (hindex : (T.device.step lands (.op op)).flash.records next.config.indexKey
      = some next.indexRecord) :
    Sourced cfg (done ++ [.op op]) (T.acted lands op) := by
  obtain ⟨hsound, hconfig, -⟩ := op_next h.sound hplan
  have hmade := h.made_isSome hplain hplan
  unfold acted
  rw [if_pos hok, if_pos hlands]
  refine ⟨?_, ?_, h.clock_succ _, ?_, ?_, ?_, ?_⟩
  · exact (congrArg CommandStore.config hstore).trans (hconfig.trans h.config)
  · intro _
    rw [hstore]
    exact hsound
  · rw [hstore]
    exact hsound.id_lt
  · rw [hstore]
    exact hmade
  · rintro id k (hk | hk) <;> exact h.made_puts hk
  · right
    refine ⟨next, hsound, ?_, hheader, hindex, ?_, hmade, fun _ _ => rfl⟩
    · rw [hstore]
    · rw [hstore]
      exact UInt32.le_refl _

/-- A save of an operation has failed: RAM is as it was, and the flash may be ahead of it. -/
theorem Sourced.failed (h : Sourced cfg done T) (hplain : (Event.op op).Plain cfg)
    (hplan : op.plan T.device.store = .write payload next undone)
    (hfail : (op.run (faulty lands) T.device.store T.device.flash).1 ≠ .ok)
    (hstore : (T.device.step lands (.op op)).store = T.device.store)
    (hheader : (T.device.step lands (.op op)).flash.records next.config.headerKey
      = T.device.flash.records next.config.headerKey)
    (hindex : (T.device.step lands (.op op)).flash.records next.config.indexKey
      = if T.device.indexLands lands op then some next.indexRecord
        else T.device.flash.records next.config.indexKey) :
    Sourced cfg (done ++ [.op op]) (T.acted lands op) := by
  obtain ⟨hsound, hconfig, -⟩ := op_next h.sound hplan
  have hnext : T.device.store.nextCommandId ≤ next.nextCommandId :=
    nextCommandId_le_plan (plain_reset hplain) (plain_begin hplain) hplan
  unfold acted
  rw [if_neg hfail]
  refine ⟨?_, ?_, h.clock_succ _, ?_, ?_, ?_, ?_⟩
  · exact (congrArg CommandStore.config hstore).trans h.config
  · rw [hstore]
    exact h.sound
  · rw [hstore]
    exact h.below
  · rw [hstore]
    exact h.stems
  · rintro id k (hk | hk)
    · exact h.puts_past _ id k (Or.inl hk)
    · dsimp only at hk
      split at hk
      · exact h.made_puts hk
      · exact h.puts_past _ id k (Or.inr hk)
  · rw [hconfig] at hheader hindex
    rcases h.flash with ⟨hnone, hfirst⟩ | ⟨t, ht, htconfig, hth, hti, htn, htstems, htagree⟩
    · left
      refine ⟨?_, ?_⟩
      · rw [hstore]
        exact hheader.trans hnone
      · rw [hstore]
        exact hfirst
    · right
      rw [htconfig] at hth hti
      by_cases hlands : T.device.indexLands lands op = true
      · -- the index landed, so it is that of the store that was rolled back
        rw [if_pos hlands] at hindex ⊢
        refine ⟨next, hsound, ?_, ?_, ?_, ?_, h.made_isSome hplain hplan, ?_⟩
        · rw [hstore]
          exact hconfig
        · rw [hconfig]
          exact hheader.trans hth
        · rw [hconfig]
          exact hindex
        · rw [hstore]
          exact hnext
        · rw [hstore]
          exact fun id hlt => made_of_lt op hlt
      · rw [if_neg hlands] at hindex ⊢
        refine ⟨t, ht, ?_, ?_, ?_, ?_, htstems, ?_⟩
        · rw [hstore]
          exact htconfig
        · rw [htconfig]
          exact hheader.trans hth
        · rw [htconfig]
          exact hindex.trans hti
        · rw [hstore]
          exact htn
        · rw [hstore]
          exact htagree

end Write

/-- The state after an operation and before it is listed, and what it leaves of what was shown. -/
theorem Sourced.acted (h : Sourced cfg done T) {op : Op} (hplain : (Event.op op).Plain cfg) :
    Sourced cfg (done ++ [.op op]) (T.acted lands op) ∧
    T.device.store.nextCommandId ≤ (T.acted lands op).device.store.nextCommandId ∧
    ∀ id < T.device.store.nextCommandId, (T.acted lands op).ram id = T.ram id := by
  cases hplan : op.plan T.device.store with
  | stop result =>
    rw [acted_of_stop hplan]
    exact ⟨⟨h.config, h.sound, h.clock_succ _, h.below, h.stems, h.puts_past _, h.flash⟩,
      UInt32.le_refl _, fun _ _ => rfl⟩
  | write payload next undone =>
    obtain ⟨-, -, hundone⟩ := (op_change h.sound hplan).resolve_right
      fun ⟨random, hop, _⟩ => plain_reset hplain random hop
    rcases Session.records_of_write lands hplan with
      ⟨hok, hstore, hlands, hheader, hindex⟩ | ⟨hfail, hstore, hheader, hindex⟩
    · have hnext : T.device.store.nextCommandId ≤ next.nextCommandId :=
        nextCommandId_le_plan (plain_reset hplain) (plain_begin hplain) hplan
      have hstore' : (T.device.step lands (.op op)).store = next := hstore
      refine ⟨h.landed hplain hplan hok hstore hlands hheader hindex, ?_, fun id hlt => ?_⟩
      · exact UInt32.le_trans hnext (UInt32.le_of_eq (congrArg _ hstore'.symm))
      · rw [Traced.acted, if_pos hok]
        exact made_of_lt op hlt
    · have hstore' : (T.device.step lands (.op op)).store = T.device.store := hstore.trans hundone
      refine ⟨h.failed hplain hplan hfail hstore' hheader hindex, ?_, fun id _ => ?_⟩
      · exact UInt32.le_of_eq (congrArg CommandStore.nextCommandId hstore'.symm)
      · rw [Traced.acted, if_neg hfail]

/-- **One operation.** -/
theorem Sourced.op (h : Sourced cfg done T) (hshown : T.Shown) {op : Op}
    (hplain : (Event.op op).Plain cfg) :
    Sourced cfg (done ++ [.op op]) (T.step lands (.op op)) ∧ (T.step lands (.op op)).Shown := by
  obtain ⟨hnew, hle, hram⟩ := h.acted hplain
  have hstep : T.step lands (.op op) = (T.acted lands op).observe := rfl
  have hkept : (T.acted lands op).Shown := hshown.mono rfl hle fun id _ hlt => hram id hlt
  rw [hstep]
  exact ⟨hnew.observe, hkept.observe hnew⟩

/-- Booting without a header mints a registry without commands, and writes it as far as the saves
    go. -/
theorem sourced_fresh {flash : Fake UInt32} (hnone : flash.records cfg.headerKey = none)
    (random : Option BridgeId) (hdevice : T.device = Session.boot lands cfg random flash)
    (hclock : T.clock = done.length)
    (hputs : ∀ id k, T.flash id = some k → ∃ c, done[k]? = some (.op (.put c)))
    (hram : T.ram = T.flash) : Sourced cfg done T := by
  obtain ⟨hstore, n, hwritten⟩ := Session.boot_fresh lands hnone random
  rw [← hdevice] at hstore hwritten
  have hnil : ((configure cfg).mintIdentity random).commands = [] :=
    SlotTable.content_replicate cfg.maxCommands.toNat
  refine ⟨?_, ?_, hclock, ?_, ?_, ?_, ?_⟩
  · rw [hstore]
    rfl
  · intro _
    rw [hstore]
    exact mint_sound cfg random
  · intro c hc
    rw [hstore, hnil] at hc
    cases hc
  · intro c hc
    rw [hstore, hnil] at hc
    cases hc
  · intro id k hk
    rw [hram] at hk
    exact hputs id k (hk.elim (fun h => h) fun h => h)
  · -- the header is the second and last save of a fresh identity
    by_cases hn : n < 2
    · left
      refine ⟨?_, by rw [hstore]; rfl⟩
      rw [hstore, hwritten, ← hnone]
      refine Records.apply_of_not_mem fun w hw => ?_
      have hw' : w ∈ [(cfg.indexKey, ((configure cfg).mintIdentity random).indexRecord)] :=
        List.take_subset_take_left _ (Nat.le_of_lt_succ hn) hw
      rw [List.mem_singleton.mp hw']
      exact cfg.headerKey_ne_indexKey.symm
    · right
      have hlen : ((configure cfg).mintIdentity random).indexRecords.length ≤ n :=
        Nat.le_of_not_lt hn
      rw [List.take_of_length_le hlen] at hwritten
      refine ⟨(configure cfg).mintIdentity random, mint_sound cfg random, ?_, ?_, ?_, ?_, ?_, ?_⟩
      · rw [hstore]
      · rw [hwritten]
        exact apply_indexRecords_header
      · rw [hwritten]
        exact apply_indexRecords_index
      · rw [hstore]
        exact UInt32.le_refl _
      · intro c hc
        rw [hnil] at hc
        cases hc
      · intro id _
        rw [hram]

/-- There is no id below the first but the one that stands for none. -/
theorem eq_none_of_lt_first {id : UInt32} (h : id < commandIdFirst) : id = commandIdNone := by
  have hlt : id.toNat < 1 := UInt32.lt_iff_toNat_lt.mp h
  exact UInt32.toNat_inj.mp (show id.toNat = 0 by omega)

/-- **One reboot.** -/
theorem Sourced.reboot (h : Sourced cfg done T) (hshown : T.Shown) (hpos : cfg.maxCommands ≠ 0)
    (random : Option BridgeId) :
    Sourced cfg (done ++ [.reboot cfg random]) (T.step lands (.reboot cfg random)) ∧
      (T.step lands (.reboot cfg random)).Shown := by
  have hclock := h.clock_succ (.reboot cfg random)
  have hputs : ∀ id k, T.flash id = some k →
      ∃ c, (done ++ [.reboot cfg random])[k]? = some (.op (.put c)) :=
    fun id k hk => h.puts_past _ id k (Or.inr hk)
  suffices hcore : ∃ T₁ : Traced, T.step lands (.reboot cfg random) = T₁.observe ∧
      Sourced cfg (done ++ [.reboot cfg random]) T₁ ∧ T₁.Shown by
    obtain ⟨T₁, hstep, hnew, hold⟩ := hcore
    rw [hstep]
    exact ⟨hnew.observe, hold.observe hnew⟩
  refine ⟨_, rfl, ?_⟩
  rcases h.flash with ⟨hnone, hfirst⟩ | ⟨t, ht, htconfig, hth, hti, htn, htstems, htagree⟩
  · -- a fresh identity is minted; nothing can have been shown yet
    rw [h.config] at hnone
    refine ⟨sourced_fresh hnone random rfl hclock hputs rfl, hshown.mono rfl ?_ ?_⟩
    · have hstore : (T.device.step lands (.reboot cfg random)).store
          = (configure cfg).mintIdentity random := (Session.boot_fresh lands hnone random).1
      rw [hstore, hfirst]
      exact UInt32.le_refl _
    · intro id hne hlt
      rw [hfirst] at hlt
      exact absurd (eq_none_of_lt_first hlt) hne
  · -- the index is read back, and with it where its commands stem from
    rw [h.config] at htconfig
    subst htconfig
    obtain ⟨hflash, hconfig, -, hnext, hcommands, hsound⟩ :=
      Session.boot_indexed lands ht hpos hth hti random
    have hflash' : (T.device.step lands (.reboot t.config random)).flash = T.device.flash := hflash
    have hnext' : (T.device.step lands (.reboot t.config random)).store.nextCommandId
        = t.nextCommandId := hnext
    refine ⟨⟨hconfig, hsound, hclock, ?_, ?_, ?_, Or.inr ?_⟩, hshown.mono rfl ?_ ?_⟩
    · intro c hc
      obtain ⟨d, hd, hid⟩ := hcommands c hc
      rw [hnext', ← hid]
      exact ht.id_lt d hd
    · intro c hc
      obtain ⟨d, hd, hid⟩ := hcommands c hc
      rw [← hid]
      exact htstems d hd
    · rintro id k (hk | hk) <;> exact hputs id k hk
    · refine ⟨t, ht, hconfig.symm, ?_, ?_, ?_, htstems, fun _ _ => rfl⟩
      · rw [hflash']
        exact hth
      · rw [hflash']
        exact hti
      · rw [hnext']
        exact UInt32.le_refl _
    · rw [hnext']
      exact htn
    · exact fun id _ hlt => htagree id hlt

/-- The first boot of a fresh device. -/
theorem sourced_powerOn (cfg : Config) (random : Option BridgeId) :
    Sourced cfg [] (powerOn lands cfg random) ∧ (powerOn lands cfg random).Shown := by
  have hblank : Session.blank.records cfg.headerKey = none := rfl
  have hnew : Sourced cfg []
      (⟨Session.powerOn lands cfg random, 0, fun _ => none, fun _ => none, []⟩ : Traced) :=
    sourced_fresh hblank random rfl rfl (fun id k hk => nomatch hk) rfl
  have hnothing : Shown
      (⟨Session.powerOn lands cfg random, 0, fun _ => none, fun _ => none, []⟩ : Traced) :=
    ⟨fun l hl => (List.not_mem_nil hl).elim, fun l hl => (List.not_mem_nil hl).elim, List.Pairwise.nil⟩
  exact ⟨hnew.observe, hnothing.observe hnew⟩

/-- **Every plain run keeps the invariant.**  Induction on the events. -/
theorem Sourced.run (h : Sourced cfg done T) (hshown : T.Shown) (hpos : cfg.maxCommands ≠ 0)
    {events : List Event} (hplain : ∀ e ∈ events, e.Plain cfg) :
    Sourced cfg (done ++ events) (T.run lands events) ∧ (T.run lands events).Shown := by
  induction events generalizing T done with
  | nil =>
    rw [List.append_nil]
    exact ⟨h, hshown⟩
  | cons e events ih =>
    have he := hplain e List.mem_cons_self
    have hstep : Sourced cfg (done ++ [e]) (T.step lands e) ∧ (T.step lands e).Shown := by
      cases e with
      | op op => exact h.op hshown he
      | reboot config random =>
        obtain rfl : config = cfg := he
        exact h.reboot hshown hpos random
    have hrest := ih hstep.1 hstep.2 fun e he => hplain e (List.mem_cons_of_mem _ he)
    rw [List.append_assoc] at hrest
    exact hrest

end Invariant

/-- **No id is bound twice, whatever saves fail and whenever the power is cut**, in every run of one
    device without restores and factory resets: two listings observed at any two moments that show
    the same id show a command that stems from the same `put`, which is an event of the run, and the
    next id never goes back. -/
theorem id_bound_once {cfg : Config} (hpos : cfg.maxCommands ≠ 0) (lands : Nat → Bool)
    (random : Option BridgeId) {events : List Event} (hplain : ∀ e ∈ events, e.Plain cfg) :
    let seen := ((powerOn lands cfg random).run lands events).seen
    seen.Pairwise (fun later earlier => earlier.next ≤ later.next) ∧
    ∀ l ∈ seen, ∀ l' ∈ seen, ∀ id stem stem', (id, stem) ∈ l.stems → (id, stem') ∈ l'.stems →
      stem = stem' ∧ ∃ k c, stem = some k ∧ events[k]? = some (.op (.put c)) := by
  intro seen
  obtain ⟨hstart, hnothing⟩ : Sourced cfg [] (powerOn lands cfg random) ∧ _ :=
    sourced_powerOn cfg random
  obtain ⟨hsourced, hshown⟩ := hstart.run hnothing hpos hplain
  refine ⟨hshown.ordered, ?_⟩
  intro l hl l' hl' id stem stem' hmem hmem'
  obtain ⟨-, -, hstem, hsome⟩ := hshown.stems l hl _ hmem
  obtain ⟨-, -, hstem', -⟩ := hshown.stems l' hl' _ hmem'
  refine ⟨hstem.trans hstem'.symm, ?_⟩
  obtain ⟨k, hk⟩ := Option.isSome_iff_exists.mp hsome
  obtain ⟨c, hc⟩ := hsourced.puts id k (Or.inl (hstem.symm.trans hk))
  exact ⟨k, c, hk, hc⟩

/-- A command whose header save fails comes back with a reboot; the next one gets another id. -/
theorem id_bound_once_after_failed_put :
    let events : List Event := [.op (.put { name := ascii "a", timings := [350, -1050] }),
      .reboot ⟨2, 4, 200, 7⟩ none, .op (.put { name := ascii "b", timings := [350, -1050] })]
    let seen := ((powerOn (fun n => n ≠ 4) ⟨2, 4, 200, 7⟩ none).run (fun n => n ≠ 4) events).seen
    seen.Pairwise (fun later earlier => earlier.next ≤ later.next) ∧
    ∀ l ∈ seen, ∀ l' ∈ seen, ∀ id stem stem', (id, stem) ∈ l.stems → (id, stem') ∈ l'.stems →
      stem = stem' ∧ ∃ k c, stem = some k ∧ events[k]? = some (.op (.put c)) := by
  intro events
  have hplain : ∀ e ∈ events, e.Plain ⟨2, 4, 200, 7⟩ := by
    intro e he
    simp only [events, List.mem_cons, List.not_mem_nil, or_false] at he
    rcases he with rfl | rfl | rfl
    · trivial
    · rfl
    · trivial
  exact id_bound_once (by decide) (fun n => n ≠ 4) none hplain

end Traced

end RfCloner
