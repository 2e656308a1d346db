/-
  What an open restore accepts.

  `import_command` refuses a command for reasons of its own (`Command.Admissible`, the next id), for
  what is stored already, and for want of room.  `FitsBeside` has all of them in terms of the list of the
  stored commands, so that what a sequence of imports leaves behind is what `Greedy.take` keeps.
  Apart from these there is the revision, which has an end: `Holding` goes on to say what is known
  once it has been reached.
-/
import RfCloner.Device.Cloner
import RfCloner.Store.Changes
import RfCloner.Lib.Greedy

namespace RfCloner

open CommandStore

/-! ## Fitting -/

/-- The command can be stored beside the others. -/
structure FitsBeside (cfg : Config) (next : Nat) (stored : List Command) (c : Command) : Prop where
  admissible : c.Admissible cfg
  id_lt : c.commandId.toNat < next
  id_fresh : ∀ d ∈ stored, d.commandId ≠ c.commandId
  name_fresh : ∀ d ∈ stored, d.name ≠ c.name
  room : stored.length < cfg.maxCommands.toNat
  budget : overhead cfg + (stored.map Command.payloadBytes).sum + c.payloadBytes
    ≤ cfg.maxStorageBytes.toNat

instance (c : Command) (cfg : Config) : Decidable (c.Admissible cfg) :=
  decidable_of_iff (c.occupied = true ∧ validateName c.name = .ok ∧ 0 < c.timings.length ∧
      c.timings.length ≤ cfg.maxPulses.toNat)
    ⟨fun ⟨h₁, h₂, h₃, h₄⟩ => ⟨h₁, h₂, h₃, h₄⟩,
      fun h => ⟨h.occupied, h.name_valid, h.timings_pos, h.timings_le⟩⟩

instance (cfg : Config) (next : Nat) (stored : List Command) : DecidablePred (FitsBeside cfg next stored) :=
  fun c => decidable_of_iff (c.Admissible cfg ∧ c.commandId.toNat < next ∧
      (∀ d ∈ stored, d.commandId ≠ c.commandId) ∧ (∀ d ∈ stored, d.name ≠ c.name) ∧
      stored.length < cfg.maxCommands.toNat ∧
      overhead cfg + (stored.map Command.payloadBytes).sum + c.payloadBytes
        ≤ cfg.maxStorageBytes.toNat)
    ⟨fun ⟨h₁, h₂, h₃, h₄, h₅, h₆⟩ => ⟨h₁, h₂, h₃, h₄, h₅, h₆⟩,
      fun h => ⟨h.admissible, h.id_lt, h.id_fresh, h.name_fresh, h.room, h.budget⟩⟩

section Fitting

variable {cfg : Config} {next : Nat} {stored stored' : List Command} {c : Command}

/-- The order of the stored commands does not matter. -/
theorem FitsBeside.perm (h : FitsBeside cfg next stored c) (hperm : stored.Perm stored') :
    FitsBeside cfg next stored' c where
  admissible := h.admissible
  id_lt := h.id_lt
  id_fresh d hd := h.id_fresh d (hperm.mem_iff.mpr hd)
  name_fresh d hd := h.name_fresh d (hperm.mem_iff.mpr hd)
  room := hperm.length_eq ▸ h.room
  budget := (hperm.map Command.payloadBytes).sum_eq ▸ h.budget

end Fitting

namespace CommandStore

variable {s : CommandStore} {c : Command} {payload : Option Nat} {next undone : CommandStore}

theorem hasId_eq_false_iff_commands {id : UInt32} :
    s.hasId id = false ↔ ∀ d ∈ s.commands, d.commandId ≠ id := by
  rw [hasId_eq_false]
  constructor
  · intro h d hd
    obtain ⟨i, rfl, hocc⟩ := SlotTable.mem_content.mp hd
    exact h i hocc
  · intro h i hocc
    exact h _ (slot_mem_commands hocc)

theorem has_eq_false_iff_commands {name : Bytes} :
    s.has name = false ↔ ∀ d ∈ s.commands, d.name ≠ name := by
  rw [has_eq_false]
  constructor
  · intro h d hd
    obtain ⟨i, rfl, hocc⟩ := SlotTable.mem_content.mp hd
    exact h i hocc
  · intro h i hocc
    exact h _ (slot_mem_commands hocc)

/-- The bytes a command adds to those of the others, in a free slot. -/
theorem WellFormed.projectedBytes_free (hwf : s.WellFormed) {slot : Nat}
    (hfree : s.findFreeSlot = some slot) (hadm : c.Admissible s.config) :
    (s.projectedBytes none (UInt16.ofNat c.timings.length)).toNat
      = overhead s.config + (s.commands.map Command.payloadBytes).sum + c.payloadBytes := by
  obtain ⟨hlt, hvacant⟩ := findFreeSlot_eq_some hfree
  have hpulses : c.timings.length < 2 ^ 16 :=
    Nat.lt_of_le_of_lt hadm.timings_le s.config.maxPulses.toNat_lt
  have hset := SlotTable.total_set Command.payloadBytes hlt c
  have hnew : SlotTable.weight Command.payloadBytes c = c.payloadBytes := if_pos hadm.occupied
  have hold : SlotTable.weight Command.payloadBytes (SlotTable.get s.slots slot) = 0 :=
    if_neg (Bool.eq_false_iff.mp hvacant)
  rw [hwf.projectedBytes_toNat hlt (Or.inr ⟨rfl, hvacant⟩) hadm.occupied hpulses]
  have htotal : SlotTable.total Command.payloadBytes s.slots
      = (s.commands.map Command.payloadBytes).sum := rfl
  omega

/-- What is imported fits. -/
theorem fits_of_importCommandPlan (hwf : s.WellFormed)
    (h : s.importCommandPlan c = .write payload next undone) :
    FitsBeside s.config s.nextCommandId.toNat s.commands c := by
  obtain ⟨-, -, -, hadm, hid, hhas, hname, slot, rev, hfree, hbudget, -⟩ :=
    importCommandPlan_eq_write h
  refine
    { admissible := hadm
      id_lt := UInt32.lt_iff_toNat_lt.mp hid
      id_fresh := hasId_eq_false_iff_commands.mp hhas
      name_fresh := has_eq_false_iff_commands.mp hname
      room := ?_
      budget := ?_ }
  · rw [← hwf.sized]
    exact SlotTable.findFree_isSome.mp (by rw [← findFreeSlot_eq, hfree]; rfl)
  · rw [← hwf.projectedBytes_free hfree hadm]
    exact UInt32.le_iff_toNat_le.mp (UInt32.not_lt.mp hbudget)

/-- What fits is imported, as long as there is a revision for it. -/
theorem importCommandPlan_of_fits (hwf : s.WellFormed) (hbackend : s.backend = true)
    (hwritable : s.readOnly = false) (hopen : s.restoreState ≠ 0)
    (hfits : FitsBeside s.config s.nextCommandId.toNat s.commands c) {rev : UInt32}
    (hrev : nextRevision s.revision = some rev) :
    ∃ payload next undone, s.importCommandPlan c = .write payload next undone := by
  obtain ⟨⟨hocc, hname, hpos, hle⟩, hid, hids, hnames, hroom, hbudget⟩ := hfits
  have hfree : s.findFreeSlot.isSome = true := by
    rw [findFreeSlot_eq, SlotTable.findFree_isSome, hwf.sized]
    exact hroom
  obtain ⟨slot, hslot⟩ := Option.isSome_iff_exists.mp hfree
  have hbytes := hwf.projectedBytes_free hslot ⟨hocc, hname, hpos, hle⟩
  have hid' : ¬(c.commandId = commandIdNone ∨ c.commandId ≥ s.nextCommandId ∨
      s.hasId c.commandId = true) := by
    rw [not_or, not_or, Bool.not_eq_true, hasId_eq_false_iff_commands]
    refine ⟨Command.occupied_iff.mp hocc, ?_, hids⟩
    exact UInt32.not_le.mpr (UInt32.lt_iff_toNat_lt.mpr hid)
  have htimings : ¬(c.timings.isEmpty = true ∨ c.timings.length > s.config.maxPulses.toNat) := by
    rw [not_or, List.isEmpty_iff_length_eq_zero]
    omega
  have hfit : ¬ s.projectedBytes none (UInt16.ofNat c.timings.length) > s.config.maxStorageBytes := by
    rw [gt_iff_lt, UInt32.lt_iff_toNat_lt]
    omega
  unfold importCommandPlan
  rw [if_neg (by simp [hbackend]), if_neg (by simp [hwritable]), if_neg hopen,
    if_neg (not_not_intro hname), if_neg hid',
    if_neg (by rw [has_eq_false_iff_commands.mpr hnames]; exact Bool.false_ne_true), if_neg htimings,
    hslot]
  dsimp only
  rw [if_neg hfit, hrev]
  exact ⟨_, _, _, rfl⟩

/-! ## A store with a restore open -/

/-- A restore is open under the identity and the next id. -/
structure Opened (cfg : Config) (B : BridgeId) (nextId : UInt32) (s : CommandStore) : Prop where
  config : s.config = cfg
  backend : s.backend = true
  writable : s.readOnly = false
  sound : s.Sound
  bridgeId : s.bridgeId = B
  nextCommandId : s.nextCommandId = nextId
  opened : s.restoreState ≠ 0

/-- The store holds what has been kept, and has counted one revision for each from `r` on, unless
    the revisions have run out. -/
structure Holding (r : Nat) (kept : List Command) (s : CommandStore) : Prop where
  revision : s.revision.toNat = min revisionMax.toNat (r + kept.length)
  commands : s.revision < revisionMax → s.commands.Perm kept

section Opened

variable {cfg : Config} {B : BridgeId} {nextId : UInt32} {r : Nat} {kept : List Command}

/-- **One import**: it is kept if its saves succeed and it fits beside what was kept before. -/
theorem Opened.importCommand (h : Opened cfg B nextId s) (hk : Holding r kept s) (saves : Bool)
    (c : Command) :
    let t := ((Op.importCommand c).attempt saves s).2
    Opened cfg B nextId t ∧
      Holding r (if saves = true ∧ FitsBeside cfg nextId.toNat kept c then kept ++ [c] else kept) t := by
  intro t
  have hfits (hlt : s.revision < revisionMax) :
      FitsBeside s.config s.nextCommandId.toNat s.commands c ↔ FitsBeside cfg nextId.toNat kept c := by
    rw [h.config, h.nextCommandId]
    exact ⟨fun hf => hf.perm (hk.commands hlt), fun hf => hf.perm (hk.commands hlt).symm⟩
  cases hplan : (Op.importCommand c).plan s with
  | stop result =>
    have hsame : t = s := congrArg Prod.snd (Op.attempt_of_stop hplan saves)
    rw [hsame]
    refine ⟨h, ?_⟩
    by_cases hcond : saves = true ∧ FitsBeside cfg nextId.toNat kept c
    · -- it fits, so that only the revision can have stopped it
      rw [if_pos hcond]
      have hlast : ¬ s.revision < revisionMax := by
        intro hlt
        obtain ⟨rev, hrev⟩ := Option.isSome_iff_exists.mp ((nextRevision_isSome _).mpr hlt)
        obtain ⟨_, _, _, hwrite⟩ := importCommandPlan_of_fits h.sound.toWellFormed h.backend
          h.writable h.opened ((hfits hlt).mpr hcond.2) hrev
        rw [Op.plan, hwrite] at hplan
        cases hplan
      have hge := UInt32.le_iff_toNat_le.mp (UInt32.not_lt.mp hlast)
      refine ⟨?_, fun hlt => absurd hlt hlast⟩
      rw [hk.revision, List.length_append, List.length_singleton]
      have := hk.revision
      omega
    · rw [if_neg hcond]
      exact hk
  | write payload next undone =>
    have hchange := (op_change (fun _ => h.sound) hplan).resolve_right fun ⟨_, hop, _⟩ => nomatch hop
    obtain ⟨-, hchange, rfl⟩ := hchange
    cases saves with
    | false =>
      have hsame : t = undone := congrArg Prod.snd (Op.attempt_of_write hplan false)
      rw [hsame, if_neg fun hcond => nomatch hcond.1]
      exact ⟨h, hk⟩
    | true =>
      have hnext : t = next := congrArg Prod.snd (Op.attempt_of_write hplan true)
      have hstored := fits_of_importCommandPlan h.sound.toWellFormed hplan
      obtain ⟨-, -, -, -, -, -, -, slot, rev, hfree, -, hrev, -, rfl, -⟩ :=
        importCommandPlan_eq_write hplan
      have hlt := (nextRevision_isSome _).mp (Option.isSome_of_eq_some hrev)
      obtain ⟨hrev', -⟩ := nextRevision_eq_some hrev
      obtain ⟨hslot, hvacant⟩ := findFreeSlot_eq_some hfree
      rw [hnext, if_pos ⟨rfl, (hfits hlt).mp hstored⟩]
      refine ⟨⟨h.config, h.backend, h.writable, hchange.sound h.sound, h.bridgeId, h.nextCommandId,
        h.opened⟩, ?_, fun _ => ?_⟩
      · have hcount := hk.revision
        have hlt' := UInt32.lt_iff_toNat_lt.mp hlt
        rw [List.length_append, List.length_singleton]
        show rev.toNat = _
        omega
      · refine (SlotTable.content_set_perm hslot hvacant hstored.admissible.occupied).trans ?_
        exact ((hk.commands hlt).cons c).trans (List.perm_append_singleton c kept).symm

end Opened

end CommandStore

end RfCloner
