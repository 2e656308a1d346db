/-
  The command store refines the abstract registry.

  `CommandStore.abs` reads a sound store as a `Reference`.  Each operation is matched with its
  abstract counterpart guard by guard (`Op.matches_plan`): where the store stops, the reference
  refuses with the same result, and where the store goes on to write, the reference arrives at what
  the written store stands for.  Along a run with succeeding saves the two therefore return the same
  results and answer every question alike (`Session.refines_reference`).
-/
import RfCloner.Store.Lifetime
import RfCloner.Store.Reference

namespace RfCloner

open FixedCodec StorageBackend

/-- What a configuration allows. -/
def Config.limits (cfg : Config) : Limits where
  commands := cfg.maxCommands.toNat
  pulses := cfg.maxPulses.toNat
  bytes := cfg.maxStorageBytes.toNat
  overhead := CommandStore.overhead cfg

namespace CommandStore

variable {s next : CommandStore} {i : Nat} {c : Command}

theorem Sound.distinct_ids (hs : s.Sound) : SlotTable.Distinct Command.commandId s.slots :=
  hs.ids_nodup

/-- The commands a sound store holds. -/
def registered (s : CommandStore) (hs : s.Sound) : Registered :=
  SlotTable.toFinmap Command.commandId Command.entry s.slots hs.distinct_ids

theorem lookup_registered_eq_some (hs : s.Sound) {id : UInt32} {e : Entry} :
    (s.registered hs).lookup id = some e ↔
      ∃ i, (s.slot i).occupied = true ∧ (s.slot i).commandId = id ∧ (s.slot i).entry = e :=
  SlotTable.lookup_toFinmap_eq_some hs.distinct_ids

/-- What a sound store stands for. -/
def abs (s : CommandStore) (hs : s.Sound) : Reference where
  limits := s.config.limits
  commands := s.registered hs
  names_unique := by
    intro a ea ha b eb hb hname
    obtain ⟨i, hi, rfl, rfl⟩ := (lookup_registered_eq_some hs).mp ha
    obtain ⟨k, hk, rfl, rfl⟩ := (lookup_registered_eq_some hs).mp hb
    rw [hs.slot_inj_name hk hi hname]
  bridgeId := s.bridgeId
  nextId := s.nextCommandId
  revision := s.revision
  restoring := s.restoreState != 0

/-! ## Questions -/

theorem lookup_registered (hs : s.Sound) (id : UInt32) :
    (s.registered hs).lookup id = (s.findSlotById id).map fun i => (s.slot i).entry := by
  rw [findSlotById_eq]
  exact SlotTable.lookup_toFinmap hs.distinct_ids id

theorem lookup_slot (hs : s.Sound) (hocc : (s.slot i).occupied = true) :
    (s.registered hs).lookup (s.slot i).commandId = some (s.slot i).entry :=
  (lookup_registered_eq_some hs).mpr ⟨i, hocc, rfl, rfl⟩

theorem getById_abs (hs : s.Sound) (id : UInt32) : (s.abs hs).getById id = s.getById id := by
  show ((s.registered hs).lookup id).map (Entry.command id) = _
  rw [lookup_registered, getById]
  cases hfind : s.findSlotById id with
  | none => rfl
  | some i =>
    obtain ⟨-, rfl⟩ := findSlotById_eq_some hfind
    rfl

theorem mem_registered (hs : s.Sound) (id : UInt32) :
    id ∈ s.registered hs ↔ s.hasId id = true := by
  rw [← Finmap.lookup_isSome, lookup_registered, hasId, Option.isSome_map]

theorem idOf_abs (hs : s.Sound) (name : Bytes) :
    (s.abs hs).idOf name = (s.findSlot name).map fun i => (s.slot i).commandId := by
  cases hfind : s.findSlot name with
  | none =>
    refine Reference.idOf_eq_none.mpr fun id e hlookup hname => ?_
    obtain ⟨i, hocc, -, rfl⟩ := (lookup_registered_eq_some hs).mp hlookup
    exact findSlot_eq_none.mp hfind i hocc hname
  | some i =>
    obtain ⟨hocc, hname⟩ := findSlot_eq_some hfind
    exact Reference.idOf_eq_some.mpr ⟨_, lookup_slot hs hocc, hname⟩

theorem get_abs (hs : s.Sound) (name : Bytes) : (s.abs hs).get name = s.get name := by
  rw [Reference.get, idOf_abs, get]
  cases hfind : s.findSlot name with
  | none => rfl
  | some i =>
    obtain ⟨hocc, -⟩ := findSlot_eq_some hfind
    show ((s.registered hs).lookup (s.slot i).commandId).map (Entry.command (s.slot i).commandId) = _
    rw [lookup_slot hs hocc]
    rfl

theorem count_abs (hs : s.Sound) : (s.abs hs).count = s.count := by
  rw [count_eq]
  exact SlotTable.card_toFinmap hs.distinct_ids

theorem usedBytes_abs (hs : s.Sound) : (s.abs hs).usedBytes = s.usedBytes.toNat := by
  rw [hs.usedBytes_toNat]
  exact congrArg (overhead s.config + ·)
    (SlotTable.sum_toFinmap hs.distinct_ids fun e : Entry => e.timings.length * 4)

/-- The listing, up to order. -/
theorem entries_abs (hs : s.Sound) :
    (s.abs hs).entries
      = (s.entries.map fun e => (e.commandId, e.name, e.pulseCount.toNat) : List _) := by
  show Multiset.map _ (s.registered hs).entries = _
  rw [registered, SlotTable.entries_toFinmap, Multiset.map_coe, List.map_map, entries, List.map_map]
  refine congrArg _ (List.map_congr_left fun c hc => ?_)
  have hlt : c.timings.length < 2 ^ 16 := hs.timings_lt c hc
  show (c.commandId, c.name, c.timings.length)
    = (c.commandId, c.name, (UInt16.ofNat c.timings.length).toNat)
  rw [UInt16.toNat_ofNat', Nat.mod_eq_of_lt hlt]

/-- There is a free slot exactly while the registry is below its capacity. -/
theorem findFreeSlot_eq_none_iff (hs : s.Sound) :
    s.findFreeSlot = none ↔ (s.abs hs).count ≥ (s.abs hs).limits.commands := by
  rw [← Option.not_isSome_iff_eq_none, findFreeSlot_eq, SlotTable.findFree_isSome, count_abs,
    count_eq, hs.sized, Nat.not_lt]
  rfl

/-! ## Changes -/

/-- A store whose slots are those of another, with the same limits. -/
theorem registered_congr (hs : s.Sound) (hn : next.Sound) (hslots : next.slots = s.slots) :
    next.registered hn = s.registered hs := by
  unfold registered
  congr 1

theorem registered_set (hs : s.Sound) (hn : next.Sound) (hslots : next.slots = s.slots.set i c)
    (hi : i < s.slots.length) (hocc : c.occupied = true)
    (hslot : (s.slot i).occupied = true → (s.slot i).commandId = c.commandId) :
    next.registered hn = (s.registered hs).insert c.commandId c.entry := by
  have hd : SlotTable.Distinct Command.commandId (s.slots.set i c) := hslots ▸ hn.distinct_ids
  calc next.registered hn
      = SlotTable.toFinmap Command.commandId Command.entry (s.slots.set i c) hd := by
        unfold registered
        congr 1
    _ = (s.registered hs).insert c.commandId c.entry :=
        SlotTable.toFinmap_set Command.entry hs.distinct_ids hd hi hocc hslot

theorem registered_free (hs : s.Sound) (hn : next.Sound) (hslots : next.slots = s.slots.set i {})
    (hocc : (s.slot i).occupied = true) :
    next.registered hn = (s.registered hs).erase (s.slot i).commandId := by
  have hd : SlotTable.Distinct Command.commandId (s.slots.set i {}) := hslots ▸ hn.distinct_ids
  calc next.registered hn
      = SlotTable.toFinmap Command.commandId Command.entry (s.slots.set i {}) hd := by
        unfold registered
        congr 1
    _ = (s.registered hs).erase (s.slot i).commandId :=
        SlotTable.toFinmap_set_free Command.entry hs.distinct_ids hd hocc

theorem registered_empty (hn : next.Sound) {n : Nat} (hslots : next.slots = List.replicate n {}) :
    next.registered hn = ∅ :=
  SlotTable.toFinmap_of_free hn.distinct_ids fun i =>
    congrArg Command.occupied (slot_of_replicate hslots i)

/-- `projected_bytes_` is the size of the registry the operation is about to make. -/
theorem usedBytes_store (hs : s.Sound) {skip : Option Nat} (hi : i < s.slots.length)
    (hskip : skip = some i ∨ skip = none ∧ (s.slot i).occupied = false) (hocc : c.occupied = true)
    (hlt : c.timings.length < 2 ^ 16)
    (hid : ∀ k, k ≠ i → (s.slot k).occupied = true → (s.slot k).commandId ≠ c.commandId)
    (hslot : (s.slot i).occupied = true → (s.slot i).commandId = c.commandId)
    {r : Reference} (hlimits : r.limits = s.config.limits)
    (hcommands : r.commands = (s.registered hs).insert c.commandId c.entry) :
    r.usedBytes = (s.projectedBytes skip (UInt16.ofNat c.timings.length)).toNat := by
  have hd : SlotTable.Distinct Command.commandId (s.slots.set i c) :=
    SlotTable.Distinct.set hs.distinct_ids hi fun _ => hid
  have hset := SlotTable.toFinmap_set Command.entry hs.distinct_ids hd hi hocc hslot
  rw [hs.projectedBytes_toNat hi hskip hocc hlt, Reference.usedBytes, hlimits, hcommands, registered,
    ← hset]
  exact congrArg (overhead s.config + ·)
    (SlotTable.sum_toFinmap hd fun e : Entry => e.timings.length * 4)

/-! ## Guard by guard -/

/-- The outcome of a plan is what the abstract operation comes to. -/
def Matches (s : CommandStore) (hs : s.Sound) : Plan → StoreResult × Reference → Prop
  | .stop result, out => out = (result, s.abs hs)
  | .write _ next _, out => ∀ hn : next.Sound, out = (.ok, next.abs hn)

section Matches

variable {cand : Reference} {base : UInt32} {payload : Option Nat}
  {written undone : UInt32 → CommandStore}

/-- The end of every operation: a revision is left, or none is. -/
theorem matches_advance (hs : s.Sound)
    (h : ∀ rev (hn : (written rev).Sound), { cand with revision := rev } = (written rev).abs hn) :
    Matches s hs
      (match nextRevision base with
        | none => .stop .revisionExhausted
        | some rev => .write payload (written rev) (undone rev))
      ((s.abs hs).advance cand base) := by
  unfold Reference.advance
  cases nextRevision base with
  | none => rfl
  | some rev =>
    intro hn
    exact congrArg (Prod.mk StoreResult.ok) (h rev hn)

/-- The budget, and then the revision. -/
theorem matches_accept (hs : s.Sound) {projected : UInt32}
    (hbytes : cand.usedBytes = projected.toNat)
    (h : ∀ rev (hn : (written rev).Sound), { cand with revision := rev } = (written rev).abs hn) :
    Matches s hs
      (if projected > s.config.maxStorageBytes then .stop .budgetExceeded
        else match nextRevision s.revision with
          | none => .stop .revisionExhausted
          | some rev => .write payload (written rev) (undone rev))
      ((s.abs hs).accept cand) := by
  have hiff : cand.usedBytes > (s.abs hs).limits.bytes ↔ projected > s.config.maxStorageBytes := by
    rw [hbytes]
    exact UInt32.lt_iff_toNat_lt.symm
  unfold Reference.accept
  by_cases hover : projected > s.config.maxStorageBytes
  · rw [if_pos hover, if_pos (hiff.mpr hover)]
    rfl
  · rw [if_neg hover, if_neg (mt hiff.mp hover)]
    exact matches_advance hs h

variable (hs : s.Sound) (hb : s.backend = true) (hro : s.readOnly = false)

theorem abs_restoring : (s.abs hs).restoring = true ↔ s.restoreState ≠ 0 := bne_iff_ne

theorem abs_not_restoring : (s.abs hs).restoring = false ↔ s.restoreState = 0 := by
  rw [← Bool.not_eq_true, abs_restoring, not_not]

include hb in
omit hs in
theorem backend_guard : ¬ (!s.backend) = true := by
  rw [hb]
  exact Bool.false_ne_true

include hro in
omit hs in
theorem readOnly_guard : ¬ s.readOnly = true := by
  rw [hro]
  exact Bool.false_ne_true

include hb hro

omit hs in
theorem writable_open (hopen : s.restoreState ≠ 0) : s.writable = .restoreInProgress := by
  unfold writable
  rw [hb, hro]
  simp [hopen]

omit hs in
theorem writable_ok (hopen : s.restoreState = 0) : s.writable = .ok := by
  unfold writable
  rw [hb, hro]
  simp [hopen]

section Put

variable {c : Command} (hopen : s.restoreState = 0) (hname : validateName c.name = .ok)
  (hlen : ¬(c.timings.length = 0 ∨ c.timings.length > (s.abs hs).limits.pulses))
include hopen hname hlen

/-- Past its guards `put` looks for a slot. -/
theorem putPlan_guarded : s.putPlan c = match s.putSlot c.name with
    | .error result => .stop result
    | .ok (slot, overwriting, commandId) =>
      if s.projectedBytes (if overwriting then some slot else none)
          (UInt16.ofNat c.timings.length) > s.config.maxStorageBytes then .stop .budgetExceeded
      else match nextRevision s.revision with
        | none => .stop .revisionExhausted
        | some rev =>
          let next : CommandStore :=
            { s with
              slots := s.slots.set slot { c with commandId := commandId }
              nextCommandId := if overwriting then s.nextCommandId else commandId + 1
              revision := rev }
          .write (some slot) next
            { next with
              slots := next.slots.set slot (s.slot slot)
              nextCommandId := s.nextCommandId
              revision := s.revision } := by
  push Not at hlen
  obtain ⟨hne, hle⟩ := hlen
  have hempty : ¬ c.timings.isEmpty = true := fun h =>
    hne (by rw [List.isEmpty_iff.mp h, List.length_nil])
  have hle' : c.timings.length ≤ s.config.maxPulses.toNat := hle
  unfold putPlan
  rw [writable_ok hb hro hopen]
  exact (if_neg (not_not_intro rfl)).trans <|
    (if_neg (not_not_intro hname)).trans <|
      (if_neg hempty).trans <| if_neg (Nat.not_lt.mpr hle')

omit hb hro hopen hname in
/-- The length of a waveform within the limit is a `uint16_t`. -/
theorem length_lt_of_limits : c.timings.length < 2 ^ 16 := by
  have hlim : s.config.maxPulses.toNat < 2 ^ 16 := s.config.maxPulses.toNat_lt
  push Not at hlen
  have hle : c.timings.length ≤ s.config.maxPulses.toNat := hlen.2
  omega

/-- A relearn: the slot keeps its id. -/
theorem putPlan_known_matches {i : Nat} (hfind : s.findSlot c.name = some i) :
    Matches s hs (s.putPlan c) ((s.abs hs).put c) := by
  have hclosed := (abs_not_restoring hs).mpr hopen
  have hlt := length_lt_of_limits hs hlen
  obtain ⟨hocc, -⟩ := findSlot_eq_some hfind
  have hid : (s.abs hs).idOf c.name = some (s.slot i).commandId := by rw [idOf_abs, hfind]; rfl
  have hi := lt_of_slot_occupied hocc
  rw [putPlan_guarded hs hb hro hopen hname hlen, putSlot, hfind,
    Reference.put_known hclosed hname hlen hid]
  refine matches_accept hs (usedBytes_store (c := { c with commandId := (s.slot i).commandId })
    hs hi (Or.inl rfl) hocc hlt ?_ (fun _ => rfl) rfl rfl) ?_
  · intro k hki hk heq
    exact hki (hs.slot_inj_id hk hocc heq)
  · intro rev hn
    refine Reference.ext rfl ?_ rfl rfl rfl rfl
    exact (registered_set hs hn rfl hi hocc fun _ => rfl).symm

/-- A new name: a free slot, under the next id. -/
theorem putPlan_new_matches (hfind : s.findSlot c.name = none) :
    Matches s hs (s.putPlan c) ((s.abs hs).put c) := by
  have hclosed := (abs_not_restoring hs).mpr hopen
  have hlt := length_lt_of_limits hs hlen
  have hid : (s.abs hs).idOf c.name = none := by rw [idOf_abs, hfind]; rfl
  rw [putPlan_guarded hs hb hro hopen hname hlen, putSlot, hfind,
    Reference.put_new hclosed hname hlen hid]
  cases hfree : s.findFreeSlot with
  | none =>
    rw [if_pos ((findFreeSlot_eq_none_iff hs).mp hfree)]
    rfl
  | some i =>
    obtain ⟨hi, hfreed⟩ := findFreeSlot_eq_some hfree
    have hroom : ¬ (s.abs hs).count ≥ (s.abs hs).limits.commands := by
      rw [← findFreeSlot_eq_none_iff hs, hfree]
      exact Option.some_ne_none i
    rw [if_neg hroom]
    -- a free slot is not enough: the counter may have run out
    by_cases hlast : s.nextCommandId > commandIdLast
    · dsimp only
      rw [if_pos hlast, if_pos (show (s.abs hs).nextId > commandIdLast from hlast)]
      rfl
    · dsimp only
      rw [if_neg hlast, if_neg (show ¬ (s.abs hs).nextId > commandIdLast from hlast)]
      have hne : s.nextCommandId ≠ commandIdNone := fun hz =>
        absurd (hz ▸ hs.next_pos) (by decide)
      have hocc : ({ c with commandId := s.nextCommandId } : Command).occupied = true :=
        Command.occupied_iff.mpr hne
      have hslot : (s.slot i).occupied = true → (s.slot i).commandId = s.nextCommandId := by
        intro h
        rw [hfreed] at h
        cases h
      refine matches_accept hs (usedBytes_store (c := { c with commandId := s.nextCommandId })
        hs hi (Or.inr ⟨rfl, hfreed⟩) hocc hlt ?_ hslot rfl rfl) ?_
      · intro k _ hk heq
        exact UInt32.lt_irrefl _ (heq ▸ hs.id_lt _ (slot_mem_commands hk))
      · intro rev hn
        refine Reference.ext rfl ?_ rfl rfl rfl rfl
        exact (registered_set hs hn rfl hi hocc hslot).symm

end Put

theorem putPlan_matches (c : Command) : Matches s hs (s.putPlan c) ((s.abs hs).put c) := by
  -- the guards of both sides, in the order of the source
  by_cases hopen : s.restoreState = 0
  · have hclosed := (abs_not_restoring hs).mpr hopen
    by_cases hname : validateName c.name = .ok
    · by_cases hlen : c.timings.length = 0 ∨ c.timings.length > (s.abs hs).limits.pulses
      · have hplan : s.putPlan c = .stop .tooManyPulses := by
          unfold putPlan
          rw [writable_ok hb hro hopen]
          rcases hlen with hzero | hlong
          · simp [hname, List.length_eq_zero_iff.mp hzero]
          · have hlong' : c.timings.length > s.config.maxPulses.toNat := hlong
            simp [hname, hlong']
        rw [hplan]
        unfold Reference.put
        rw [hclosed, if_neg Bool.false_ne_true, if_neg (not_not_intro hname), if_pos hlen]
        rfl
      · cases hfind : s.findSlot c.name with
        | some i => exact putPlan_known_matches hs hb hro hopen hname hlen hfind
        | none => exact putPlan_new_matches hs hb hro hopen hname hlen hfind
    · unfold putPlan Reference.put
      rw [writable_ok hb hro hopen, hclosed, if_neg (not_not_intro rfl), if_pos hname,
        if_neg Bool.false_ne_true, if_pos hname]
      rfl
  · unfold putPlan Reference.put
    rw [writable_open hb hro hopen, if_pos (by decide), if_pos ((abs_restoring hs).mpr hopen)]
    rfl

theorem renamePlan_matches (id : UInt32) (name : Bytes) :
    Matches s hs (s.renamePlan id name) ((s.abs hs).rename id name) := by
  by_cases hopen : s.restoreState = 0
  · have hclosed := (abs_not_restoring hs).mpr hopen
    by_cases hname : validateName name = .ok
    · unfold renamePlan
      rw [writable_ok hb hro hopen, if_neg (not_not_intro rfl), if_neg (not_not_intro hname)]
      cases hfind : s.findSlotById id with
      | none =>
        have hlookup : (s.abs hs).commands.lookup id = none := by
          show (s.registered hs).lookup id = none
          rw [lookup_registered, hfind]
          rfl
        unfold Reference.rename
        rw [hclosed, if_neg Bool.false_ne_true, if_neg (not_not_intro hname), hlookup]
        rfl
      | some i =>
        obtain ⟨hocc, rfl⟩ := findSlotById_eq_some hfind
        have hlookup : (s.abs hs).commands.lookup (s.slot i).commandId = some (s.slot i).entry :=
          lookup_slot hs hocc
        by_cases hsame : (s.slot i).name = name
        · unfold Reference.rename
          rw [hclosed, if_neg Bool.false_ne_true, if_neg (not_not_intro hname), hlookup]
          dsimp only
          rw [if_pos hsame, if_pos (show (s.slot i).entry.name = name from hsame)]
          rfl
        · have hid := idOf_abs hs name
          dsimp only
          rw [if_neg hsame]
          cases htaken : s.findSlot name with
          | some k =>
            rw [htaken] at hid
            rw [Reference.rename_taken hclosed hname hlookup hsame hid]
            rfl
          | none =>
            rw [htaken] at hid
            rw [Reference.rename_free hclosed hname hlookup hsame hid, if_neg (by decide)]
            refine matches_advance hs fun rev hn => Reference.ext rfl ?_ rfl rfl rfl rfl
            exact (registered_set hs hn rfl (lt_of_slot_occupied hocc)
              (c := { s.slot i with name := name }) hocc fun _ => rfl).symm
    · unfold renamePlan Reference.rename
      rw [writable_ok hb hro hopen, hclosed, if_neg (not_not_intro rfl), if_pos hname,
        if_neg Bool.false_ne_true, if_pos hname]
      rfl
  · unfold renamePlan Reference.rename
    rw [writable_open hb hro hopen, if_pos (by decide), if_pos ((abs_restoring hs).mpr hopen)]
    rfl

theorem removeByIdPlan_matches (id : UInt32) :
    Matches s hs (s.removeByIdPlan id) ((s.abs hs).removeById id) := by
  by_cases hopen : s.restoreState = 0
  · have hclosed := (abs_not_restoring hs).mpr hopen
    unfold removeByIdPlan Reference.removeById
    rw [writable_ok hb hro hopen, if_neg (not_not_intro rfl), hclosed, if_neg Bool.false_ne_true]
    cases hfind : s.findSlotById id with
    | none =>
      have hmem : ¬ id ∈ (s.abs hs).commands := by
        show ¬ id ∈ s.registered hs
        rw [mem_registered, hasId, hfind]
        exact Bool.false_ne_true
      rw [if_neg hmem]
      rfl
    | some i =>
      obtain ⟨hocc, rfl⟩ := findSlotById_eq_some hfind
      have hmem : (s.slot i).commandId ∈ (s.abs hs).commands :=
        Finmap.mem_of_lookup_eq_some (lookup_slot hs hocc)
      rw [if_pos hmem]
      refine matches_advance hs fun rev hn => Reference.ext rfl ?_ rfl rfl rfl rfl
      exact (registered_free hs hn rfl hocc).symm
  · unfold removeByIdPlan Reference.removeById
    rw [writable_open hb hro hopen, if_pos (by decide), if_pos ((abs_restoring hs).mpr hopen)]
    rfl

theorem removePlan_matches (name : Bytes) :
    Matches s hs (s.removePlan name) ((s.abs hs).remove name) := by
  by_cases hopen : s.restoreState = 0
  · have hclosed := (abs_not_restoring hs).mpr hopen
    have hid := idOf_abs hs name
    unfold removePlan Reference.remove
    rw [writable_ok hb hro hopen, if_neg (not_not_intro rfl), hclosed, if_neg Bool.false_ne_true]
    cases hfind : s.findSlot name with
    | none =>
      rw [hfind] at hid
      rw [hid]
      rfl
    | some i =>
      rw [hfind] at hid
      rw [hid]
      exact removeByIdPlan_matches hs hb hro (s.slot i).commandId
  · unfold removePlan Reference.remove
    rw [writable_open hb hro hopen, if_pos (by decide), if_pos ((abs_restoring hs).mpr hopen)]
    rfl

theorem clearAllPlan_matches : Matches s hs s.clearAllPlan (s.abs hs).clearAll := by
  unfold clearAllPlan Reference.clearAll
  rw [if_neg (backend_guard hb), if_neg (readOnly_guard hro), count_abs]
  have hiff : s.count = 0 ∧ s.restoreState = 0 ↔ s.count = 0 ∧ (s.abs hs).restoring = false :=
    and_congr_right' (abs_not_restoring hs).symm
  by_cases hnothing : s.count = 0 ∧ s.restoreState = 0
  · rw [if_pos hnothing, if_pos (hiff.mp hnothing)]
    rfl
  · rw [if_neg hnothing, if_neg (mt hiff.mpr hnothing)]
    refine matches_advance hs fun rev hn => Reference.ext rfl ?_ rfl rfl rfl rfl
    exact (registered_empty hn rfl).symm

omit hro in
theorem factoryResetPlan_matches (random : Option BridgeId) :
    Matches s hs (s.factoryResetPlan random) (.ok, Reference.fresh s.config.limits random) := by
  unfold factoryResetPlan
  rw [if_neg (backend_guard hb)]
  intro hn
  refine congrArg (Prod.mk StoreResult.ok) (Reference.ext rfl ?_ rfl rfl rfl rfl)
  exact (registered_empty hn rfl).symm

theorem restoreBeginPlan_matches (bridgeId : BridgeId) (id : UInt32) :
    Matches s hs (s.restoreBeginPlan bridgeId id) ((s.abs hs).restoreBegin bridgeId id) := by
  unfold restoreBeginPlan Reference.restoreBegin
  rw [if_neg (backend_guard hb), if_neg (readOnly_guard hro), count_abs]
  by_cases hempty : s.count ≠ 0
  · rw [if_pos hempty, if_pos hempty]
    rfl
  rw [if_neg hempty, if_neg hempty]
  by_cases hid : id < commandIdFirst ∨ id > commandIdLast + 1
  · rw [if_pos hid, if_pos hid]
    rfl
  rw [if_neg hid, if_neg hid]
  refine matches_advance hs fun rev hn => Reference.ext rfl ?_ rfl rfl rfl rfl
  exact (registered_congr hs hn rfl).symm

theorem importCommandPlan_matches (c : Command) :
    Matches s hs (s.importCommandPlan c) ((s.abs hs).importCommand c) := by
  have hlim : s.config.maxPulses.toNat < 2 ^ 16 := s.config.maxPulses.toNat_lt
  unfold importCommandPlan
  rw [if_neg (backend_guard hb), if_neg (readOnly_guard hro)]
  by_cases hopen : s.restoreState = 0
  · unfold Reference.importCommand
    rw [if_pos hopen, if_pos ((abs_not_restoring hs).mpr hopen)]
    rfl
  rw [if_neg hopen]
  have hopened := (abs_restoring hs).mpr hopen
  by_cases hname : validateName c.name = .ok
  swap
  · rw [if_pos hname]
    unfold Reference.importCommand
    rw [hopened, if_neg (show ¬ true = false by decide), if_pos hname]
    rfl
  rw [if_neg (not_not_intro hname)]
  -- each guard reads the same registry on both sides
  have hids : (c.commandId = commandIdNone ∨ c.commandId ≥ s.nextCommandId
      ∨ s.hasId c.commandId = true) ↔ (c.commandId = commandIdNone
      ∨ c.commandId ≥ (s.abs hs).nextId ∨ c.commandId ∈ (s.abs hs).commands) := by
    rw [← mem_registered hs]
    exact Iff.rfl
  by_cases hid : c.commandId = commandIdNone ∨ c.commandId ≥ s.nextCommandId
      ∨ s.hasId c.commandId = true
  · rw [if_pos hid]
    unfold Reference.importCommand
    rw [hopened, if_neg (show ¬ true = false by decide), if_neg (not_not_intro hname),
      if_pos (hids.mp hid)]
    rfl
  rw [if_neg hid]
  have hid' := mt hids.mpr hid
  have hnamed := idOf_abs hs c.name
  rw [has]
  cases htaken : s.findSlot c.name with
  | some k =>
    rw [htaken] at hnamed
    rw [Reference.importCommand_taken hopened hname hid' hnamed]
    rfl
  | none =>
    rw [htaken] at hnamed
    rw [Reference.importCommand_free hopened hname hid' hnamed, if_neg (by decide)]
    by_cases hlen : c.timings.length = 0 ∨ c.timings.length > (s.abs hs).limits.pulses
    · have hlen' : c.timings.isEmpty = true ∨ c.timings.length > s.config.maxPulses.toNat := by
        rw [List.isEmpty_iff_length_eq_zero]
        exact hlen
      rw [if_pos hlen, if_pos hlen']
      rfl
    have hlen' : ¬(c.timings.isEmpty = true ∨ c.timings.length > s.config.maxPulses.toNat) := by
      rw [List.isEmpty_iff_length_eq_zero]
      exact hlen
    rw [if_neg hlen, if_neg hlen']
    cases hfree : s.findFreeSlot with
    | none =>
      rw [if_pos ((findFreeSlot_eq_none_iff hs).mp hfree)]
      rfl
    | some i =>
      obtain ⟨hi, hfreed⟩ := findFreeSlot_eq_some hfree
      have hroom : ¬ (s.abs hs).count ≥ (s.abs hs).limits.commands := by
        rw [← findFreeSlot_eq_none_iff hs, hfree]
        exact Option.some_ne_none i
      rw [if_neg hroom]
      push Not at hid hlen'
      obtain ⟨hne, -, hfresh⟩ := hid
      have hocc : c.occupied = true := Command.occupied_iff.mpr hne
      have hslot : (s.slot i).occupied = true → (s.slot i).commandId = c.commandId := by
        intro h
        rw [hfreed] at h
        cases h
      refine matches_accept hs (usedBytes_store hs hi (Or.inr ⟨rfl, hfreed⟩) hocc (by omega)
        (fun k _ hk => ?_) hslot rfl rfl) fun rev hn => Reference.ext rfl ?_ rfl rfl rfl rfl
      · exact hasId_eq_false.mp (Bool.not_eq_true _ ▸ hfresh) k hk
      · exact (registered_set hs hn rfl hi hocc hslot).symm

theorem restoreCommitPlan_matches (source : UInt32) :
    Matches s hs (s.restoreCommitPlan source) ((s.abs hs).restoreCommit source) := by
  unfold restoreCommitPlan Reference.restoreCommit
  rw [if_neg (backend_guard hb), if_neg (readOnly_guard hro)]
  by_cases hopen : s.restoreState = 0
  · rw [if_pos hopen, if_pos ((abs_not_restoring hs).mpr hopen)]
    rfl
  have hopened : ¬ (s.abs hs).restoring = false := mt (abs_not_restoring hs).mp hopen
  rw [if_neg hopen, if_neg hopened]
  refine matches_advance hs fun rev hn => Reference.ext rfl ?_ rfl rfl rfl rfl
  exact (registered_congr hs hn rfl).symm

/-- **Every operation matches its abstract counterpart**, on every sound writable store. -/
theorem plan_matches (op : Op) : Matches s hs (op.plan s) ((s.abs hs).step op) := by
  cases op with
  | put c => exact putPlan_matches hs hb hro c
  | rename id name => exact renamePlan_matches hs hb hro id name
  | remove name => exact removePlan_matches hs hb hro name
  | removeById id => exact removeByIdPlan_matches hs hb hro id
  | clearAll => exact clearAllPlan_matches hs hb hro
  | factoryReset random => exact factoryResetPlan_matches hs hb random
  | restoreBegin b id => exact restoreBeginPlan_matches hs hb hro b id
  | importCommand c => exact importCommandPlan_matches hs hb hro c
  | restoreCommit source => exact restoreCommitPlan_matches hs hb hro source

end Matches

theorem op_writable {op : Op} {payload : Option Nat} {undone : CommandStore}
    (hs : s.readOnly = false → s.Sound) (hro : s.readOnly = false)
    (h : op.plan s = .write payload next undone) : next.readOnly = false := by
  rcases op_change hs h with ⟨-, hchange, -⟩ | ⟨random, -, -, rfl, -⟩
  · exact hchange.readOnly.trans hro
  · rfl

/-! ## What can be observed -/

/-- The store answers every question as the reference does. -/
structure Agrees (s : CommandStore) (r : Reference) : Prop where
  get : ∀ name, s.get name = r.get name
  getById : ∀ id, s.getById id = r.getById id
  has : ∀ name, s.has name = (r.idOf name).isSome
  hasId : ∀ id, s.hasId id = true ↔ id ∈ r.commands
  count : s.count = r.count
  usedBytes : s.usedBytes.toNat = r.usedBytes
  entries : (s.entries.map fun e => (e.commandId, e.name, e.pulseCount.toNat) : List _) = r.entries
  bridgeId : s.bridgeId = r.bridgeId
  nextCommandId : s.nextCommandId = r.nextId
  revision : s.revision = r.revision
  restoring : s.restoreState ≠ 0 ↔ r.restoring = true

theorem agrees_abs (hs : s.Sound) : Agrees s (s.abs hs) where
  get name := (get_abs hs name).symm
  getById id := (getById_abs hs id).symm
  has name := by
    rw [idOf_abs, Option.isSome_map]
    rfl
  hasId id := (mem_registered hs id).symm
  count := (count_abs hs).symm
  usedBytes := (usedBytes_abs hs).symm
  entries := (entries_abs hs).symm
  bridgeId := rfl
  nextCommandId := rfl
  revision := rfl
  restoring := (abs_restoring hs).symm

/-- The ids an operation on `s` is about: `clear_all` and `factory_reset` are about every command,
    and the metadata operations about none. -/
def Addresses (s : CommandStore) : Op → UInt32 → Prop
  | .put command, id => id = ((s.get command.name).map Command.commandId).getD s.nextCommandId
  | .rename commandId _, id => id = commandId
  | .remove name, id => (s.get name).map Command.commandId = some id
  | .removeById commandId, id => id = commandId
  | .clearAll, _ => True
  | .factoryReset _, _ => True
  | .restoreBegin _ _, _ => False
  | .importCommand command, id => id = command.commandId
  | .restoreCommit _, _ => False

/-- What an operation that returned `result` did to single commands: a relearn keeps the id of the
    name, a rename changes the name only, a removal drops its command, and every command that is
    not addressed is as it was. -/
structure Local (s : CommandStore) (op : Op) (result : StoreResult) (next : CommandStore) : Prop where
  put : ∀ c old, op = .put c → s.get c.name = some old → result = .ok →
    next.getById old.commandId = some { c with commandId := old.commandId }
  rename : ∀ id name, op = .rename id name → result = .ok →
    ∃ old, s.getById id = some old ∧ next.getById id = some { old with name := name }
  remove : ∀ name, op = .remove name → result = .ok →
    ∃ old, s.get name = some old ∧ next.getById old.commandId = none
  removeById : ∀ id, op = .removeById id → result = .ok →
    (s.getById id).isSome = true ∧ next.getById id = none
  others : ∀ id, ¬ s.Addresses op id → next.getById id = s.getById id

/-- The id under which the reference keeps a name is that of the command the store finds. -/
theorem idOf_abs_get (hs : s.Sound) (name : Bytes) :
    (s.abs hs).idOf name = (s.get name).map Command.commandId := by
  rw [idOf_abs, get, Option.map_map]
  rfl

theorem addresses_abs (hs : s.Sound) (op : Op) (id : UInt32) :
    (s.abs hs).Addresses op id ↔ s.Addresses op id := by
  cases op with
  | put c =>
    show id = ((s.abs hs).idOf c.name).getD _ ↔ _
    rw [idOf_abs_get]
    rfl
  | remove name =>
    show (s.abs hs).idOf name = some id ↔ _
    rw [idOf_abs_get]
    rfl
  | _ => exact Iff.rfl

/-- The reference has the property, and hence every store that stands for it. -/
theorem local_of_agrees {op : Op} (hs : s.Sound) (h : Agrees next ((s.abs hs).step op).2) :
    Local s op ((s.abs hs).step op).1 next where
  put := by
    rintro c old rfl hold hok
    have hid : (s.abs hs).idOf c.name = some old.commandId := by
      rw [idOf_abs_get, hold]
      rfl
    have hlookup := Reference.put_ok_known hid hok
    have hget : next.getById old.commandId
        = (((s.abs hs).put c).2.commands.lookup old.commandId).map (Entry.command old.commandId) :=
      h.getById old.commandId
    rw [hget, hlookup]
    rfl
  rename := by
    rintro id name rfl hok
    obtain ⟨e, hlookup, hnext⟩ := Reference.rename_ok hok
    have hget : next.getById id
        = (((s.abs hs).rename id name).2.commands.lookup id).map (Entry.command id) := h.getById id
    refine ⟨e.command id, ?_, ?_⟩
    · rw [← getById_abs hs, Reference.getById, hlookup]
      rfl
    · rw [hget, hnext]
      rfl
  remove := by
    rintro name rfl hok
    obtain ⟨id, hid, hcommands⟩ := Reference.remove_ok hok
    rw [idOf_abs_get] at hid
    obtain ⟨old, hold, rfl⟩ := Option.map_eq_some_iff.mp hid
    have hget : next.getById old.commandId
        = (((s.abs hs).remove name).2.commands.lookup old.commandId).map
            (Entry.command old.commandId) := h.getById old.commandId
    refine ⟨old, hold, ?_⟩
    rw [hget, hcommands, Finmap.lookup_erase]
    rfl
  removeById := by
    rintro id rfl hok
    obtain ⟨hmem, hcommands⟩ := Reference.removeById_ok hok
    have hget : next.getById id
        = (((s.abs hs).removeById id).2.commands.lookup id).map (Entry.command id) := h.getById id
    refine ⟨?_, ?_⟩
    · rw [← getById_abs hs, Reference.getById, Option.isSome_map, Finmap.lookup_isSome]
      exact hmem
    · rw [hget, hcommands, Finmap.lookup_erase]
      rfl
  others := by
    intro id hid
    have hframe := Reference.step_lookup (mt (addresses_abs hs op id).mp hid)
    rw [h.getById, ← getById_abs hs, Reference.getById, hframe]
    rfl

end CommandStore

/-! ## Runs -/

namespace Session

open CommandStore

/-- A device whose store is writable and stands for the reference. -/
structure Mirrors (x : Session) (r : Reference) : Prop where
  backend : x.store.backend = true
  writable : x.store.readOnly = false
  sound : x.store.Sound
  abs : x.store.abs sound = r

/-- **One operation**: the same result, and the device stands for what the reference becomes. -/
theorem Mirrors.op {x : Session} {r : Reference} (h : Mirrors x r) (op : Op) :
    (op.run (faulty fun _ => true) x.store x.flash).1 = (r.step op).1 ∧
    Mirrors (step (fun _ => true) x (.op op)) (r.step op).2 := by
  have hmatch := plan_matches h.sound h.backend h.writable op
  rw [h.abs] at hmatch
  cases hplan : op.plan x.store with
  | stop result =>
    rw [hplan] at hmatch
    have hout : r.step op = (result, x.store.abs h.sound) := hmatch
    rw [step_of_stop _ hplan, hout, Op.run_of_stop hplan]
    exact ⟨rfl, h.backend, h.writable, h.sound, rfl⟩
  | write payload next undone =>
    rw [hplan] at hmatch
    obtain ⟨hsound, -, hbackend⟩ := op_next (fun _ => h.sound) hplan
    have hout : r.step op = (.ok, next.abs hsound) := hmatch hsound
    -- no save fails
    obtain ⟨hok, hstore, -⟩ := (step_cases (fun _ => true) hplan).resolve_right
      fun ⟨_, _, n, _, _, _, hfail⟩ => Bool.noConfusion hfail
    rw [hout]
    refine ⟨hok, ?_, ?_, hstore ▸ hsound, ?_⟩
    · rw [hstore]
      exact hbackend.trans h.backend
    · rw [hstore]
      exact op_writable (fun _ => h.sound) h.writable hplan
    · congr 1

theorem Mirrors.of_store {x : Session} {t : CommandStore} (h : x.store = t)
    (hb : t.backend = true) (hro : t.readOnly = false) (hs : t.Sound) : Mirrors x (t.abs hs) := by
  subst h
  exact ⟨hb, hro, hs, rfl⟩

/-- A device that has minted an identity stands for the fresh reference. -/
theorem Mirrors.of_fresh {x : Session} {cfg : Config} {random : Option BridgeId}
    (h : x.store = (configure cfg).mintIdentity random) :
    Mirrors x (Reference.fresh cfg.limits random) := by
  have hmirrors := Mirrors.of_store h rfl rfl (mint_sound cfg random)
  have habs : ((configure cfg).mintIdentity random).abs (mint_sound cfg random)
      = Reference.fresh cfg.limits random :=
    Reference.ext rfl (registered_empty (mint_sound cfg random) rfl) rfl rfl rfl rfl
  rw [habs] at hmirrors
  exact hmirrors

theorem mirrors_powerOn (cfg : Config) (random : Option BridgeId) :
    Mirrors (powerOn (fun _ => true) cfg random) (Reference.fresh cfg.limits random) := by
  have hheader : blank.records cfg.headerKey = none := rfl
  exact Mirrors.of_fresh (boot_fresh (fun _ => true) hheader random).1

/-- **The simulation**: after any operations, the device stands for the reference. -/
theorem Mirrors.run {x : Session} {r : Reference} (h : Mirrors x r) (ops : List Op) :
    Mirrors (Session.run (fun _ => true) x (ops.map .op)) (r.run ops) := by
  induction ops generalizing x r with
  | nil => exact h
  | cons op ops ih => exact ih (h.op op).2

/-- **`CommandStore` refines the abstract registry.**  After any operations with succeeding saves
    on a fresh device, the next operation returns the result the reference returns and leaves a
    store that answers every question as the reference does; and it is local to the commands it
    addresses. -/
theorem refines_reference (cfg : Config) (random : Option BridgeId) (ops : List Op) (op : Op) :
    let x := Session.run (fun _ => true) (powerOn (fun _ => true) cfg random) (ops.map .op)
    let r := (Reference.fresh cfg.limits random).run ops
    let out := op.run (faulty fun _ => true) x.store x.flash
    Agrees x.store r ∧ out.1 = (r.step op).1 ∧ Agrees out.2.1 (r.step op).2 ∧
      Local x.store op out.1 out.2.1 := by
  intro x r out
  have hx : Mirrors x r := (mirrors_powerOn cfg random).run ops
  obtain ⟨hresult, hnext⟩ := hx.op op
  have hagrees : Agrees out.2.1 (r.step op).2 := by
    rw [← hnext.abs]
    exact agrees_abs hnext.sound
  refine ⟨hx.abs ▸ agrees_abs hx.sound, hresult, hagrees, ?_⟩
  have hresult' : out.1 = (r.step op).1 := hresult
  rw [hresult']
  rw [← hx.abs] at hagrees ⊢
  exact local_of_agrees hx.sound hagrees

end Session

end RfCloner
