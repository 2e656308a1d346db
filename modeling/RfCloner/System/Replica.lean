/-
  What a replica is worth.

  The replica is labelled with the revision of the status and filled with what the exports returned.
  Nothing makes the two the same registry: the device may change between two calls, and the listing
  may be short of what the flash names.  `consistent_cut_iff` is when a replica is the registry of
  the revision it is labelled with.
-/
import RfCloner.System.Link
import RfCloner.Store.Slots

namespace RfCloner

open CommandStore SnapshotManager

/-! ## The registry of a device, in portable form -/

namespace Cloner

/-- The registry of a device as its exports show it. -/
def portable (c : Cloner) : List ExportedCommand :=
  c.store.commands.map fun command =>
    c.exported ((c.store.getById command.commandId).getD command)

/-- In a well-formed store that is every command, in slot order. -/
theorem portable_eq {c : Cloner} (hwf : c.store.WellFormed) :
    c.portable = c.store.commands.map c.exported := by
  refine List.map_congr_left fun command hmem => ?_
  obtain ⟨i, rfl, hocc⟩ := SlotTable.mem_content.mp hmem
  have hfind : c.store.findSlotById (c.store.slot i).commandId = some i := hwf.findSlotById_id hocc
  show c.exported ((c.store.getById (c.store.slot i).commandId).getD (c.store.slot i)) = _
  rw [getById, hfind]
  rfl

/-- A listed command is exported. -/
theorem exportOf_listed {c : Cloner} {k : Nat} {command : Command}
    (h : c.store.commands[k]? = some command) :
    c.exportOf command.commandId = c.portable[k]? := by
  have hmem := List.mem_of_getElem? h
  obtain ⟨i, rfl, hocc⟩ := SlotTable.mem_content.mp hmem
  have hsome : (c.store.findSlotById (c.store.slot i).commandId).isSome = true := by
    rw [← Option.ne_none_iff_isSome]
    intro hnone
    exact findSlotById_eq_none.mp hnone i hocc rfl
  obtain ⟨slot, hslot⟩ := Option.isSome_iff_exists.mp hsome
  unfold exportOf portable
  rw [List.getElem?_map, h]
  show (c.store.getById (c.store.slot i).commandId).map c.exported = some (c.exported
    ((c.store.getById (c.store.slot i).commandId).getD (c.store.slot i)))
  rw [getById, hslot]
  rfl

/-- The call for a command of the listing answers with what the device of that moment exports. -/
theorem asyncExport_listed {w : Wire} {reached : Bool} {c : Cloner} {id : UInt32}
    {e : ExportedCommand} : c.asyncExport w reached id.toNat = .command e ↔
      reached = true ∧ (w.send id.toNat).isSome = true ∧ c.exportOf id = some e := by
  rw [asyncExport_eq_command]
  refine and_congr_right fun _ => ?_
  constructor
  · rintro ⟨arg, hsend, hexport⟩
    have hid := w.toUInt32_of_send hsend
    rw [hsend]
    refine ⟨rfl, ?_⟩
    rw [rfExport, hid] at hexport
    exact hexport
  · rintro ⟨hsome, hexport⟩
    obtain ⟨arg, hsend⟩ := Option.isSome_iff_exists.mp hsome
    refine ⟨arg, hsend, ?_⟩
    rw [rfExport, w.toUInt32_of_send hsend]
    exact hexport

end Cloner

/-! ## Exports while the device changes -/

section Cut

variable (w : Wire) (c : Cloner) (device : Nat → Cloner) (reached : Nat → Bool)

/-- The exports of a refresh, where `device k` is the device at export number `k`. -/
def exportsOf (k : Nat) (commandId : Int) : ExportResult :=
  (device k).asyncExport w (reached k) commandId

/-- Some export of a listed command does not get through, or finds the command gone. -/
def ExportFails : Prop :=
  ∃ (k : Nat) (command : Command), c.store.commands[k]? = some command ∧
    ¬(reached k = true ∧ (w.send command.commandId.toNat).isSome = true ∧
      ((device k).store.getById command.commandId).isSome = true)

/-- At its export every listed command is what it was at the status, under the same identity. -/
def UnchangedAtExports : Prop :=
  ∀ (k : Nat) (command : Command), c.store.commands[k]? = some command →
    (device k).exportOf command.commandId = c.exportOf command.commandId

variable {w c device reached} {m : SnapshotManager} {commands : List ExportedCommand}

/-- The calls of a refresh, in terms of the devices that answer them. -/
theorem replaces_rfStatus : m.Replaces c.rfStatus (exportsOf w device reached) commands ↔
    m.Considers c.rfStatus ∧ commands.length = c.store.commands.length ∧
    ∀ (k : Nat) (command : Command), c.store.commands[k]? = some command →
      reached k = true ∧ (w.send command.commandId.toNat).isSome = true ∧
        (device k).exportOf command.commandId = commands[k]? := by
  rw [replaces_iff]
  refine and_congr_right fun _ => ?_
  have hcall : ∀ k : Nat, (c.rfStatus.commands[k]?).map
      (fun info => exportsOf w device reached k info.commandId)
        = (c.store.commands[k]?).map fun command =>
            exportsOf w device reached k command.commandId.toNat := by
    intro k
    rw [Cloner.commands_rfStatus, List.getElem?_map, Option.map_map]
    rfl
  constructor
  · intro h
    have hlen : commands.length = c.store.commands.length := by
      refine Nat.le_antisymm (Nat.le_of_not_lt fun hlt => ?_) (Nat.le_of_not_lt fun hlt => ?_)
      · have hk := h c.store.commands.length
        rw [hcall, List.getElem?_eq_none (Nat.le_refl _), List.getElem?_eq_getElem hlt] at hk
        cases hk
      · have hk := h commands.length
        rw [hcall, List.getElem?_eq_getElem hlt, List.getElem?_eq_none (Nat.le_refl _)] at hk
        cases hk
    refine ⟨hlen, fun k command hk => ?_⟩
    have hlt : k < commands.length := hlen ▸ (List.getElem?_eq_some_iff.mp hk).1
    have hanswer := h k
    rw [hcall, hk, List.getElem?_eq_getElem hlt] at hanswer
    obtain ⟨hreached, hsent, hexport⟩ :=
      Cloner.asyncExport_listed.mp (Option.some.inj hanswer)
    exact ⟨hreached, hsent, hexport.trans (List.getElem?_eq_getElem hlt).symm⟩
  · rintro ⟨hlen, h⟩ k
    rw [hcall]
    cases hk : c.store.commands[k]? with
    | none =>
      rw [List.getElem?_eq_none (hlen.symm ▸ List.getElem?_eq_none_iff.mp hk)]
      rfl
    | some command =>
      have hlt : k < commands.length := hlen ▸ (List.getElem?_eq_some_iff.mp hk).1
      obtain ⟨hreached, hsent, hexport⟩ := h k command hk
      rw [List.getElem?_eq_getElem hlt] at hexport ⊢
      exact congrArg some (Cloner.asyncExport_listed.mpr ⟨hreached, hsent, hexport⟩)

/-- A refresh that considers the status replaces the replica unless an export fails. -/
theorem exists_replaces_iff :
    (∃ commands, m.Replaces c.rfStatus (exportsOf w device reached) commands) ↔
      m.Considers c.rfStatus ∧ ¬ ExportFails w c device reached := by
  constructor
  · rintro ⟨commands, h⟩
    obtain ⟨hconsiders, hlen, hcalls⟩ := replaces_rfStatus.mp h
    refine ⟨hconsiders, ?_⟩
    rintro ⟨k, command, hk, hfails⟩
    obtain ⟨hreached, hsent, hexport⟩ := hcalls k command hk
    refine hfails ⟨hreached, hsent, ?_⟩
    have hlt : k < commands.length := hlen ▸ (List.getElem?_eq_some_iff.mp hk).1
    rw [List.getElem?_eq_getElem hlt] at hexport
    unfold Cloner.exportOf at hexport
    rw [Option.map_eq_some_iff] at hexport
    obtain ⟨found, hfound, -⟩ := hexport
    rw [hfound]
    rfl
  · -- what is stored is what each device would answer
    rintro ⟨hconsiders, hfine⟩
    refine ⟨c.store.commands.zipIdx.map fun p =>
      ((device p.2).exportOf p.1.commandId).getD (c.exported p.1), ?_⟩
    refine replaces_rfStatus.mpr ⟨hconsiders, by simp, fun k command hk => ?_⟩
    have hall : reached k = true ∧ (w.send command.commandId.toNat).isSome = true ∧
        ((device k).store.getById command.commandId).isSome = true := by
      by_contra hfails
      exact hfine ⟨k, command, hk, hfails⟩
    refine ⟨hall.1, hall.2.1, ?_⟩
    obtain ⟨found, hfound⟩ := Option.isSome_iff_exists.mp hall.2.2
    rw [List.getElem?_map, List.getElem?_zipIdx, hk]
    unfold Cloner.exportOf
    simp [hfound]

/-- **When a replica is a consistent cut.**  A refresh that stores a replica stores exactly the
    registry of the revision it is labelled with if and only if there is nothing to consider, or an
    export fails, or every exported command still is, at its export, what it was at the status. -/
theorem consistent_cut_iff (w : Wire) (m : SnapshotManager) (now : Timestamp) (c : Cloner)
    (device : Nat → Cloner) (reached : Nat → Bool) :
    let m' := m.asyncRefresh c.rfStatus now (exportsOf w device reached)
    (m' ≠ m → ∃ s, m'.snapshot = some s ∧ s.bridgeId = c.store.bridgeId.hex ∧
      s.revision = c.store.revision.toNat ∧ s.commands = c.portable) ↔
    ¬ m.Considers c.rfStatus ∨ ExportFails w c device reached ∨ UnchangedAtExports c device := by
  intro m'
  constructor
  · intro hcut
    by_cases hconsiders : m.Considers c.rfStatus
    · by_cases hfails : ExportFails w c device reached
      · exact Or.inr (Or.inl hfails)
      · right
        right
        have hreplaced := exists_replaces_iff.mpr ⟨hconsiders, hfails⟩
        obtain ⟨s, hs, -, -, hcommands⟩ := hcut (asyncRefresh_ne_iff.mpr hreplaced)
        -- what was stored is what the calls answered
        rcases asyncRefresh_cases m c.rfStatus now (exportsOf w device reached) with
          ⟨-, hnone⟩ | ⟨commands, hreplaces, hnew⟩
        · obtain ⟨commands, hreplaces⟩ := hreplaced
          exact absurd hreplaces (hnone commands)
        · have hm' : m'.snapshot = _ := congrArg SnapshotManager.snapshot hnew
          obtain rfl := Option.some.inj (hm'.symm.trans hs)
          have hstored : commands = c.portable := hcommands
          intro k command hk
          obtain ⟨-, -, hexport⟩ := (replaces_rfStatus.mp hreplaces).2.2 k command hk
          rw [hexport, hstored, Cloner.exportOf_listed hk]
    · exact Or.inl hconsiders
  · intro h hne
    obtain ⟨commands, hreplaces⟩ := asyncRefresh_ne_iff.mp hne
    obtain ⟨hconsiders, hlen, hcalls⟩ := replaces_rfStatus.mp hreplaces
    rcases h with hnot | hfails | hunchanged
    · exact absurd hconsiders hnot
    · exact absurd hfails (exists_replaces_iff.mp ⟨commands, hreplaces⟩).2
    · have hstored : commands = c.portable := by
        refine List.ext_getElem? fun k => ?_
        cases hk : c.store.commands[k]? with
        | none =>
          have hle := List.getElem?_eq_none_iff.mp hk
          have hle' : c.portable.length ≤ k := by
            unfold Cloner.portable
            rw [List.length_map]
            exact hle
          rw [List.getElem?_eq_none (by omega), List.getElem?_eq_none hle']
        | some command =>
          rw [← (hcalls k command hk).2.2, hunchanged k command hk, Cloner.exportOf_listed hk]
      rcases asyncRefresh_cases m c.rfStatus now (exportsOf w device reached) with
        ⟨hsame, -⟩ | ⟨commands', hreplaces', hnew⟩
      · exact absurd hsame hne
      · have hboth : commands' = commands := by
          have hmaps := hreplaces'.2.symm.trans hreplaces.2
          exact List.map_injective_iff.mpr (fun a b h => ExportResult.command.inj h) hmaps
        refine ⟨_, congrArg SnapshotManager.snapshot hnew, rfl, rfl, ?_⟩
        exact hboth.trans hstored

end Cut

/-! ## A refresh that is overtaken -/

/-- Two commands, "a" under id 1 and "b" under id 2. -/
def twoCommands : CommandStore :=
  let s := (configure ⟨2, 4, 200, 7⟩).mintIdentity (some (.filled 1))
  let s := ((Op.put { name := ascii "a", timings := [350, -1050] }).attempt true s).2
  ((Op.put { name := ascii "b", timings := [420, -840] }).attempt true s).2

/-- The names are passed on: "a" becomes "c", and then "b" becomes "a". -/
def renamedOver : CommandStore :=
  let s := ((Op.rename 1 (ascii "c")).attempt true twoCommands).2
  ((Op.rename 2 (ascii "a")).attempt true s).2

/-- The device of a refresh whose first export precedes the two renames and whose second follows
    them. -/
def overtaken (k : Nat) : Cloner := if k = 0 then ⟨twoCommands, []⟩ else ⟨renamedOver, []⟩

/-- **The replica has two commands of one name**, which the registry never had. -/
theorem overtaken_not_consistent :
    let c : Cloner := ⟨twoCommands, []⟩
    let m : SnapshotManager := ⟨c.store.bridgeId.hex, none⟩
    let m' := m.asyncRefresh c.rfStatus 0 (exportsOf Wire.exact overtaken fun _ => true)
    m'.snapshot.map (fun s => s.commands.map ExportedCommand.name) = some [str "a", str "a"] ∧
    ¬(m' ≠ m → ∃ s, m'.snapshot = some s ∧ s.bridgeId = c.store.bridgeId.hex ∧
      s.revision = c.store.revision.toNat ∧ s.commands = c.portable) := by
  intro c m m'
  have hnames : m'.snapshot.map (fun s => s.commands.map ExportedCommand.name)
      = some [str "a", str "a"] := by decide +kernel
  refine ⟨hnames, fun hcut => ?_⟩
  have hne : m' ≠ m := by
    intro hsame
    rw [hsame] at hnames
    cases hnames
  obtain ⟨s, hs, -, -, hcommands⟩ := hcut hne
  rw [hs, Option.map_some, hcommands] at hnames
  exact absurd hnames (by decide +kernel)

end RfCloner
