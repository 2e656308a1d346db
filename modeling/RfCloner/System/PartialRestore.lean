/-
  A restore that commits less than the snapshot.

  `async_restore` sends the commit whenever no call has raised, and an import that the device refuses
  does not raise.  What is committed is then what `Greedy.take` has kept, and the check that follows
  comes too late.  `Fitting` is what a snapshot has to be for nothing to be refused, and
  `never_partial_iff` that exactly such a snapshot, or a restore that gets no commit through, leaves
  no partial registry.
-/
import RfCloner.System.Restore
import RfCloner.Store.Authored
import Mathlib.Algebra.Order.BigOperators.Group.List
import Mathlib.Data.List.Dedup

namespace RfCloner

open CommandStore

/-! ## What a command is -/

/-- A command, apart from the bridge and the format it was exported under. -/
def ExportedCommand.body (e : ExportedCommand) : ExportedCommand :=
  { e with schema := 1, bridgeId := [] }

/-- A command as it is exported, apart from the bridge. -/
def Command.body (c : Command) : ExportedCommand where
  schema := 1
  bridgeId := []
  commandId := c.commandId.toNat
  name := ofUtf8 c.name
  gapUs := c.gapUs.toNat
  repeatTimes := c.repeatTimes.toNat
  frequencyHz := c.frequencyHz.toNat
  modulation := c.modulation.toNat
  timings := c.timings.map Int32.toInt

/-- The commands of the device are those of the snapshot. -/
def SameCommands (snapshot : Snapshot) (device : Cloner) : Prop :=
  ∀ b, b ∈ device.portable.map ExportedCommand.body ↔ b ∈ snapshot.commands.map ExportedCommand.body

/-- The device passes for the bridge of the snapshot, with other commands. -/
def Partial (snapshot : Snapshot) (device : Cloner) : Prop :=
  device.rfStatus.bridgeId = snapshot.bridgeId ∧ device.rfStatus.restoreIncomplete = false ∧
    ¬ SameCommands snapshot device

/-- A command that the device stores as it is, below the next id. -/
structure ExportedCommand.Exact (e : ExportedCommand) (next : Nat) : Prop where
  id_pos : 1 ≤ e.commandId
  id_lt : e.commandId < next
  name_valid : validateName (utf8 e.name) = .ok
  timings_ne : e.timings ≠ []
  gap : 0 ≤ e.gapUs
  repeats : 0 ≤ e.repeatTimes ∧ e.repeatTimes < 2 ^ 16
  frequency : 0 ≤ e.frequencyHz
  modulation : 0 ≤ e.modulation ∧ e.modulation < 2 ^ 8

section Bodies

variable {e : ExportedCommand} {c : Command} {w : Wire} {args : Cloner.ImportArgs} {next : Nat}

theorem sameCommands_iff {snapshot : Snapshot} {device : Cloner} (hwf : device.store.WellFormed) :
    SameCommands snapshot device ↔ ∀ b, b ∈ device.store.commands.map Command.body ↔
      b ∈ snapshot.commands.map ExportedCommand.body := by
  have hmap : device.portable.map ExportedCommand.body = device.store.commands.map Command.body := by
    rw [Cloner.portable_eq hwf, List.map_map]
    rfl
  unfold SameCommands
  rw [hmap]

/-- An argument that is not negative. -/
theorem toNat_toUInt32_of_nonneg {arg : Int32} (h : 0 ≤ arg.toInt) :
    (arg.toUInt32.toNat : Int) = arg.toInt := by
  have hnat : arg.toUInt32.toNat = arg.toInt.toNat := toNat_toUInt32_of_toInt (by omega)
  omega

theorem toInt_of_mapM_send {ns : List Int} {args : List Int32} (h : ns.mapM w.send = some args) :
    args.map Int32.toInt = ns := by
  induction ns generalizing args with
  | nil =>
    obtain rfl := Option.some.inj h
    rfl
  | cons n ns ih =>
    rw [List.mapM_cons] at h
    obtain ⟨arg, harg, h⟩ := Option.bind_eq_some_iff.mp h
    obtain ⟨rest, hrest, h⟩ := Option.bind_eq_some_iff.mp h
    obtain rfl := Option.some.inj h
    rw [List.map_cons, ih hrest, w.send_eq harg]

/-- What the arguments of an import were. -/
theorem importArgs_eq_some (h : importArgs w e = some args) :
    args.commandId.toInt = e.commandId ∧ args.name = utf8 e.name ∧
    args.timings.map Int32.toInt = e.timings ∧ args.gapUs.toInt = e.gapUs ∧
    args.repeatTimes.toInt = e.repeatTimes ∧ args.frequencyHz.toInt = e.frequencyHz ∧
    args.modulation.toInt = e.modulation := by
  unfold importArgs at h
  obtain ⟨commandId, hid, h⟩ := Option.bind_eq_some_iff.mp h
  obtain ⟨timings, htimings, h⟩ := Option.bind_eq_some_iff.mp h
  obtain ⟨gapUs, hgap, h⟩ := Option.bind_eq_some_iff.mp h
  obtain ⟨repeatTimes, hrepeat, h⟩ := Option.bind_eq_some_iff.mp h
  obtain ⟨frequencyHz, hfrequency, h⟩ := Option.bind_eq_some_iff.mp h
  obtain ⟨modulation, hmodulation, h⟩ := Option.bind_eq_some_iff.mp h
  obtain rfl := Option.some.inj h
  exact ⟨w.send_eq hid, rfl, toInt_of_mapM_send htimings, w.send_eq hgap, w.send_eq hrepeat,
    w.send_eq hfrequency, w.send_eq hmodulation⟩

/-- **What is stored is what was sent**, if it is exact. -/
theorem body_of_importArgs (h : importArgs w e = some args) (hexact : e.Exact next) :
    args.command.body = e.body := by
  obtain ⟨hid, hname, htimings, hgap, hrepeats, hfrequency, hmodulation⟩ := importArgs_eq_some h
  have hpos := hexact.id_pos
  have hid' : (args.commandId.toUInt32.toNat : Int) = args.commandId.toInt :=
    toNat_toUInt32_of_nonneg (by omega)
  have hgap' : (args.gapUs.toUInt32.toNat : Int) = args.gapUs.toInt :=
    toNat_toUInt32_of_nonneg (hgap ▸ hexact.gap)
  have hfrequency' : (args.frequencyHz.toUInt32.toNat : Int) = args.frequencyHz.toInt :=
    toNat_toUInt32_of_nonneg (hfrequency ▸ hexact.frequency)
  have hrepeats' : (args.repeatTimes.toUInt32.toNat : Int) = args.repeatTimes.toInt :=
    toNat_toUInt32_of_nonneg (hrepeats ▸ hexact.repeats.1)
  have hmodulation' : (args.modulation.toUInt32.toNat : Int) = args.modulation.toInt :=
    toNat_toUInt32_of_nonneg (hmodulation ▸ hexact.modulation.1)
  -- the two narrow fields
  have hrepeats'' : (args.repeatTimes.toUInt32.toUInt16.toNat : Int) = e.repeatTimes := by
    have := hexact.repeats
    rw [UInt32.toNat_toUInt16]
    omega
  have hmodulation'' : (args.modulation.toUInt32.toUInt8.toNat : Int) = e.modulation := by
    have := hexact.modulation
    rw [UInt32.toNat_toUInt8]
    omega
  have hname' : ofUtf8 args.name = e.name := by
    rw [hname]
    exact ofUtf8_utf8 (lt_of_validateName hexact.name_valid)
  unfold Command.body Cloner.ImportArgs.command ExportedCommand.body
  rw [hid'.trans hid, hname', hgap'.trans hgap, hrepeats'', hfrequency'.trans hfrequency,
    hmodulation'', htimings]

/-- **A command that is stored as it was sent is exact.** -/
theorem exact_of_body (hadm : ∃ cfg, c.Admissible cfg) (hid : c.commandId.toNat < next)
    (h : c.body = e.body) : e.Exact next ∧ utf8 e.name = c.name := by
  obtain ⟨cfg, hocc, hvalid, hpos, -⟩ := hadm
  have hid' : (c.commandId.toNat : Int) = e.commandId := congrArg ExportedCommand.commandId h
  have hname : ofUtf8 c.name = e.name := congrArg ExportedCommand.name h
  have hgap : (c.gapUs.toNat : Int) = e.gapUs := congrArg ExportedCommand.gapUs h
  have hrepeats : (c.repeatTimes.toNat : Int) = e.repeatTimes :=
    congrArg ExportedCommand.repeatTimes h
  have hfrequency : (c.frequencyHz.toNat : Int) = e.frequencyHz :=
    congrArg ExportedCommand.frequencyHz h
  have hmodulation : (c.modulation.toNat : Int) = e.modulation :=
    congrArg ExportedCommand.modulation h
  have htimings : c.timings.map Int32.toInt = e.timings := congrArg ExportedCommand.timings h
  have hutf8 : utf8 e.name = c.name := by
    rw [← hname]
    exact utf8_ofUtf8 (lt_of_validateName hvalid)
  have hnonzero : c.commandId.toNat ≠ 0 := fun hzero =>
    Command.occupied_iff.mp hocc (UInt32.toNat_inj.mp hzero)
  have h16 := c.repeatTimes.toNat_lt
  have h8 := c.modulation.toNat_lt
  refine ⟨⟨by omega, by omega, by rw [hutf8]; exact hvalid, ?_, by omega, by omega, by omega,
    by omega⟩, hutf8⟩
  rintro hnil
  rw [hnil, List.map_eq_nil_iff] at htimings
  rw [htimings] at hpos
  cases hpos

theorem commandId_inj_of_body {d : Command} (h : d.body = c.body) : d.commandId = c.commandId :=
  UInt32.toNat_inj.mp (Int.ofNat_inj.mp (congrArg ExportedCommand.commandId h))

/-- The bytes of a waveform, read off its portable form. -/
theorem length_timings_body : c.body.timings.length * 4 = c.payloadBytes := by
  show (c.timings.map Int32.toInt).length * 4 = c.timings.length * 4
  rw [List.length_map]

end Bodies

/-! ## What a device can take -/

/-- What a snapshot has to be, and its imports to come to, for a device to store all of it. -/
structure Fitting (line : Nat → Fate) (snapshot : Snapshot) (cfg : Config) : Prop where
  exact : ∀ e ∈ snapshot.commands, e.Exact (nextOnDevice snapshot)
  apart : ∀ e ∈ snapshot.commands, ∀ f ∈ snapshot.commands,
    e.commandId = f.commandId ∨ e.name = f.name → e.body = f.body
  budget : snapshot.commands ≠ [] → overhead cfg + ((snapshot.commands.map
    ExportedCommand.body).dedup.map fun b => b.timings.length * 4).sum ≤ cfg.maxStorageBytes.toNat
  landed : ∀ e ∈ snapshot.commands, ∃ i f, snapshot.commands[i]? = some f ∧ f.body = e.body ∧
    (line (2 + i)).lands = true

/-- What is kept one by one: storable commands with ids and names of their own, within the budget. -/
structure Together (cfg : Config) (next : Nat) (l : List Command) : Prop where
  admissible : ∀ c ∈ l, c.Admissible cfg ∧ c.commandId.toNat < next
  ids : (l.map Command.commandId).Nodup
  names : (l.map Command.name).Nodup
  budget : l = [] ∨ overhead cfg + (l.map Command.payloadBytes).sum ≤ cfg.maxStorageBytes.toNat

section Taking

variable {w : Wire} {line : Nat → Fate} {snapshot : Snapshot} {cfg : Config} {next : Nat}
  {l : List Command} {c : Command}

theorem nodup_map_append_singleton {α β : Type} {f : α → β} {l : List α} {a : α}
    (h : (l.map f).Nodup) (hnew : ∀ b ∈ l, f b ≠ f a) : ((l ++ [a]).map f).Nodup := by
  rw [List.map_append, List.nodup_append]
  refine ⟨h, List.nodup_singleton _, ?_⟩
  rintro x hx y hy
  obtain ⟨b, hb, rfl⟩ := List.mem_map.mp hx
  rw [List.map_singleton, List.mem_singleton] at hy
  rw [hy]
  exact hnew b hb

/-- One more. -/
theorem Together.add (h : Together cfg next l) (hfits : FitsBeside cfg next l c) : Together cfg next (l ++ [c]) where
  admissible d hd := by
    rcases List.mem_append.mp hd with hd | hd
    · exact h.admissible d hd
    · rw [List.mem_singleton.mp hd]
      exact ⟨hfits.admissible, hfits.id_lt⟩
  ids := nodup_map_append_singleton h.ids hfits.id_fresh
  names := nodup_map_append_singleton h.names hfits.name_fresh
  budget := by
    right
    have := hfits.budget
    simp only [List.map_append, List.map_singleton, List.sum_append, List.sum_singleton]
    omega

theorem together_keptOf : Together cfg (nextOnDevice snapshot) (keptOf w line snapshot cfg) :=
  Greedy.take_induction (P := Together cfg (nextOnDevice snapshot))
    ⟨fun _ h => (nomatch h), List.nodup_nil, List.nodup_nil, Or.inl rfl⟩
    fun _ _ _ h hfits => h.add hfits

/-- Commands of their own ids have bodies of their own. -/
theorem nodup_bodies (h : (l.map Command.commandId).Nodup) : (l.map Command.body).Nodup := by
  refine List.Nodup.of_map (fun b => b.commandId) ?_
  rw [List.map_map]
  have hids : l.map ((fun b : ExportedCommand => b.commandId) ∘ Command.body)
      = (l.map Command.commandId).map fun id => (id.toNat : Int) := by
    rw [List.map_map]
    rfl
  rw [hids]
  exact h.map fun a b hab => UInt32.toNat_inj.mp (Int.ofNat_inj.mp hab)

theorem sum_payloadBytes : (l.map Command.payloadBytes).sum
    = ((l.map Command.body).map fun b => b.timings.length * 4).sum := by
  rw [List.map_map]
  refine congrArg List.sum (List.map_congr_left fun c _ => ?_)
  exact length_timings_body.symm

/-- What is kept was sent. -/
theorem sent_of_mem_keptOf (h : c ∈ keptOf w line snapshot cfg) :
    ∃ i e args, snapshot.commands[i]? = some e ∧ importArgs w e = some args ∧
      (line (2 + i)).lands = true ∧ args.command = c :=
  mem_offered.mp ((Greedy.mem_of_mem_take h).resolve_left List.not_mem_nil)

/-- A snapshot that is stored whole is fitting. -/
theorem fitting_of_same (h : ∀ b, b ∈ (keptOf w line snapshot cfg).map Command.body ↔
    b ∈ snapshot.commands.map ExportedCommand.body) : Fitting line snapshot cfg := by
  have htogether : Together cfg (nextOnDevice snapshot) (keptOf w line snapshot cfg) := together_keptOf
  have hstored : ∀ e ∈ snapshot.commands, ∃ c ∈ keptOf w line snapshot cfg, c.body = e.body ∧
      e.Exact (nextOnDevice snapshot) ∧ utf8 e.name = c.name := by
    intro e he
    obtain ⟨c, hc, hbody⟩ := List.mem_map.mp ((h _).mpr (List.mem_map_of_mem he))
    obtain ⟨hadm, hlt⟩ := htogether.admissible c hc
    exact ⟨c, hc, hbody, exact_of_body ⟨cfg, hadm⟩ hlt hbody⟩
  refine ⟨fun e he => ?_, fun e he f hf hkey => ?_, fun hne => ?_, fun e he => ?_⟩
  · obtain ⟨c, -, -, hexact, -⟩ := hstored e he
    exact hexact
  · obtain ⟨c, hc, hcbody, -, hcname⟩ := hstored e he
    obtain ⟨d, hd, hdbody, -, hdname⟩ := hstored f hf
    rw [← hcbody, ← hdbody]
    refine congrArg Command.body ?_
    rcases hkey with hid | hname
    · refine List.inj_on_of_nodup_map htogether.ids hc hd ?_
      have hc' : (c.commandId.toNat : Int) = e.commandId := congrArg ExportedCommand.commandId hcbody
      have hd' : (d.commandId.toNat : Int) = f.commandId := congrArg ExportedCommand.commandId hdbody
      exact UInt32.toNat_inj.mp (by omega)
    · refine List.inj_on_of_nodup_map htogether.names hc hd ?_
      rw [← hcname, ← hdname, hname]
  · -- the same bodies, each once, on both sides
    have hperm : ((keptOf w line snapshot cfg).map Command.body).Perm
        (snapshot.commands.map ExportedCommand.body).dedup := by
      rw [List.perm_ext_iff_of_nodup (nodup_bodies htogether.ids) (List.nodup_dedup _)]
      intro b
      rw [List.mem_dedup]
      exact h b
    have hbudget := htogether.budget.resolve_left ?_
    · rw [sum_payloadBytes, (hperm.map _).sum_eq] at hbudget
      exact hbudget
    · intro hnil
      obtain ⟨e, he⟩ := List.exists_mem_of_ne_nil _ hne
      obtain ⟨c, hc, -⟩ := hstored e he
      rw [hnil] at hc
      cases hc
  · obtain ⟨c, hc, hbody, -⟩ := hstored e he
    obtain ⟨i, f, args, hf, hargs, hlands, rfl⟩ := sent_of_mem_keptOf hc
    obtain ⟨-, -, -, hexact, -⟩ := hstored f (List.mem_of_getElem? hf)
    exact ⟨i, f, hf, (body_of_importArgs hargs hexact).symm.trans hbody, hlands⟩

/-- Commands of a snapshot that are all different are some of the different ones it has. -/
theorem subperm_bodies (hl : ∀ d ∈ l, ∃ e ∈ snapshot.commands, d.body = e.body)
    (hnodup : (l.map Command.body).Nodup) :
    (l.map Command.body).Subperm (snapshot.commands.map ExportedCommand.body).dedup := by
  refine List.subperm_of_subset hnodup fun b hb => ?_
  obtain ⟨d, hd, rfl⟩ := List.mem_map.mp hb
  obtain ⟨f, hf, hbody⟩ := hl d hd
  rw [List.mem_dedup, hbody]
  exact List.mem_map_of_mem hf

theorem length_le_of_bodies (hl : ∀ d ∈ l, ∃ e ∈ snapshot.commands, d.body = e.body)
    (hnodup : (l.map Command.body).Nodup) : l.length ≤ snapshot.commands.length := by
  have hlength := (subperm_bodies hl hnodup).length_le
  have hdedup := (List.dedup_sublist (snapshot.commands.map ExportedCommand.body)).length_le
  rw [List.length_map] at hlength hdedup
  exact hlength.trans hdedup

/-- Different commands of a fitting snapshot are within the budget. -/
theorem Fitting.budget_of_bodies (h : Fitting line snapshot cfg) (hne : snapshot.commands ≠ [])
    (hl : ∀ d ∈ l, ∃ e ∈ snapshot.commands, d.body = e.body) (hnodup : (l.map Command.body).Nodup) :
    overhead cfg + (l.map Command.payloadBytes).sum ≤ cfg.maxStorageBytes.toNat := by
  obtain ⟨m, hperm, hsub⟩ := subperm_bodies hl hnodup
  have hsum := List.Sublist.sum_le_sum (hsub.map fun b => b.timings.length * 4)
    fun _ _ => Nat.zero_le _
  rw [(hperm.map _).sum_eq, ← sum_payloadBytes] at hsum
  exact (Nat.add_le_add_left hsum _).trans (h.budget hne)

/-- Beside commands of a fitting snapshot another one fits unless it is one of them. -/
theorem Fitting.fits_iff (h : Fitting line snapshot cfg)
    (hslots : snapshot.commands.length ≤ cfg.maxCommands.toNat)
    (hpulses : ∀ e ∈ snapshot.commands, e.timings.length ≤ cfg.maxPulses.toNat)
    (hl : ∀ d ∈ l, ∃ e ∈ snapshot.commands, d.body = e.body)
    (hc : ∃ e ∈ snapshot.commands, c.body = e.body ∧ c.name = utf8 e.name)
    (hnodup : (l.map Command.body).Nodup) :
    FitsBeside cfg (nextOnDevice snapshot) l c ↔ c.body ∉ l.map Command.body := by
  constructor
  · intro hfits hmem
    obtain ⟨d, hd, hbody⟩ := List.mem_map.mp hmem
    exact hfits.id_fresh d hd (commandId_inj_of_body hbody)
  intro hnew
  obtain ⟨e, he, hbody, hname⟩ := hc
  have hexact := h.exact e he
  have hid : (c.commandId.toNat : Int) = e.commandId := congrArg ExportedCommand.commandId hbody
  have htimings : c.timings.length = e.timings.length := by
    have := congrArg (fun b => b.timings.length) hbody
    rw [← List.length_map (f := Int32.toInt)]
    exact this
  -- a command of the same id or name would be the same command
  have hapart : ∀ d ∈ l, ∀ f ∈ snapshot.commands, d.body = f.body →
      ¬(f.commandId = e.commandId ∨ f.name = e.name) := by
    intro d hd f hf hdbody hkey
    refine hnew (List.mem_map.mpr ⟨d, hd, ?_⟩)
    rw [hdbody, hbody]
    exact h.apart f hf e he hkey
  -- with the command, everything is still among the bodies of the snapshot
  have hl' : ∀ d ∈ l ++ [c], ∃ f ∈ snapshot.commands, d.body = f.body := by
    intro d hd
    rcases List.mem_append.mp hd with hd | hd
    · exact hl d hd
    · rw [List.mem_singleton.mp hd]
      exact ⟨e, he, hbody⟩
  have hnodup' : ((l ++ [c]).map Command.body).Nodup := nodup_map_append_singleton hnodup
    fun d hd hsame => hnew (List.mem_map.mpr ⟨d, hd, hsame⟩)
  refine
    { admissible := ⟨?_, by rw [hname]; exact hexact.name_valid, ?_, ?_⟩
      id_lt := ?_
      id_fresh := fun d hd heq => ?_
      name_fresh := fun d hd heq => ?_
      room := ?_
      budget := ?_ }
  · have := hexact.id_pos
    rw [Command.occupied_iff]
    intro hzero
    rw [hzero] at hid
    have hnone : commandIdNone.toNat = 0 := rfl
    omega
  · rw [htimings]
    exact List.length_pos_of_ne_nil hexact.timings_ne
  · rw [htimings]
    exact hpulses e he
  · have := hexact.id_lt
    omega
  · obtain ⟨f, hf, hdbody⟩ := hl d hd
    have hdid : (d.commandId.toNat : Int) = f.commandId := congrArg ExportedCommand.commandId hdbody
    refine hapart d hd f hf hdbody (Or.inl ?_)
    rw [← hdid, heq, hid]
  · obtain ⟨f, hf, hdbody⟩ := hl d hd
    have hdname : ofUtf8 d.name = f.name := congrArg ExportedCommand.name hdbody
    have hcname : ofUtf8 c.name = e.name := congrArg ExportedCommand.name hbody
    refine hapart d hd f hf hdbody (Or.inr ?_)
    rw [← hdname, heq, hcname]
  · -- there is a slot for every command of the snapshot
    have hlength := length_le_of_bodies hl' hnodup'
    rw [List.length_append, List.length_singleton] at hlength
    omega
  · -- and bytes for every different waveform
    have hsum := h.budget_of_bodies (List.ne_nil_of_mem he) hl' hnodup'
    rw [List.map_append, List.sum_append, List.map_singleton, List.sum_singleton] at hsum
    omega

/-- A fitting snapshot is stored whole. -/
theorem Fitting.same (h : Fitting line snapshot cfg)
    (hargs : ∀ e ∈ snapshot.commands, (importArgs w e).isSome = true)
    (hslots : snapshot.commands.length ≤ cfg.maxCommands.toNat)
    (hpulses : ∀ e ∈ snapshot.commands, e.timings.length ≤ cfg.maxPulses.toNat) :
    ∀ b, b ∈ (keptOf w line snapshot cfg).map Command.body ↔
      b ∈ snapshot.commands.map ExportedCommand.body := by
  have hoffered : ∀ c ∈ offered w line 2 snapshot.commands,
      ∃ e ∈ snapshot.commands, c.body = e.body ∧ c.name = utf8 e.name := by
    intro c hc
    obtain ⟨i, e, args, he, hargs, -, rfl⟩ := mem_offered.mp hc
    have hmem := List.mem_of_getElem? he
    exact ⟨e, hmem, body_of_importArgs hargs (h.exact e hmem), (importArgs_eq_some hargs).2.1⟩
  intro b
  constructor
  · intro hb
    obtain ⟨c, hc, rfl⟩ := List.mem_map.mp hb
    obtain ⟨e, he, hbody, -⟩ := hoffered c
      ((Greedy.mem_of_mem_take hc).resolve_left List.not_mem_nil)
    rw [hbody]
    exact List.mem_map_of_mem he
  · intro hb
    obtain ⟨e, he, rfl⟩ := List.mem_map.mp hb
    obtain ⟨i, f, hf, hbody, hlands⟩ := h.landed e he
    have hmem := List.mem_of_getElem? hf
    obtain ⟨args, hsome⟩ := Option.isSome_iff_exists.mp (hargs f hmem)
    rw [← hbody, ← body_of_importArgs hsome (h.exact f hmem)]
    refine Greedy.key_mem_take Command.body (List.nil_subset _) (List.Subset.refl _) List.nodup_nil
      ?_ _ (mem_offered.mpr ⟨i, f, args, hf, hsome, hlands, rfl⟩)
    intro l c hl hc hnodup
    refine h.fits_iff hslots hpulses (fun d hd => ?_) (hoffered c hc) hnodup
    obtain ⟨e, he, hbody, -⟩ := hoffered d (hl hd)
    exact ⟨e, he, hbody⟩

/-- **Exactly a fitting snapshot is stored whole.** -/
theorem same_keptOf_iff (hargs : ∀ e ∈ snapshot.commands, (importArgs w e).isSome = true)
    (hslots : snapshot.commands.length ≤ cfg.maxCommands.toNat)
    (hpulses : ∀ e ∈ snapshot.commands, e.timings.length ≤ cfg.maxPulses.toNat) :
    (∀ b, b ∈ (keptOf w line snapshot cfg).map Command.body ↔
      b ∈ snapshot.commands.map ExportedCommand.body) ↔ Fitting line snapshot cfg :=
  ⟨fitting_of_same, fun h => h.same hargs hslots hpulses⟩

end Taking

/-! ## The restore of a snapshot -/

/-- A device that passes the checks is one that a restore can begin on. -/
theorem Restorable.of_check {device : Cloner} {snapshot : Snapshot}
    (hcheck : checkRestoreTarget device.rfStatus snapshot = .ok ())
    (hbackend : device.store.backend = true)
    (hsound : device.store.readOnly = false → device.store.Sound) : Restorable device.store := by
  obtain ⟨hwritable, hclosed, hcount, -⟩ := checkRestoreTarget_ok.mp hcheck
  refine ⟨hbackend, hwritable, hsound hwritable, device.restoreIncomplete_rfStatus.mp hclosed, ?_⟩
  have hcount' : (device.store.count : Int) = 0 := hcount
  rw [count_eq] at hcount'
  exact List.eq_nil_of_length_eq_zero (by omega)

/-- **Exactly when a restore leaves no partial registry behind**: it gets no commit through, or the
    snapshot is one that the device can store whole, by imports that land. -/
theorem never_partial_iff (lands : Nat → Bool) (cfg : Config) (random : Option BridgeId)
    (events : List Event) (lastResult : Bytes) (w : Wire) (line : Nat → Fate) {snapshot : Snapshot} :
    let device : Cloner := ⟨(Session.run lands (Session.powerOn lands cfg random) events).store, lastResult⟩
    device.rfStatus.bridgeId ≠ snapshot.bridgeId →
    checkRestoreTarget device.rfStatus snapshot = .ok () →
    (¬ Partial snapshot (asyncRestore w line snapshot device).2 ↔
      (Commits w line snapshot device.store → Fitting line snapshot device.store.config)) := by
  intro device hother hcheck
  have hfounded := Session.founded_run lands cfg random events
  have hrestorable := Restorable.of_check hcheck hfounded.backend hfounded.ram
  obtain ⟨-, -, -, hslots, hpulses, -⟩ := checkRestoreTarget_ok.mp hcheck
  have hpulses' : ∀ e ∈ snapshot.commands,
      e.timings.length ≤ device.store.config.maxPulses.toNat :=
    fun e he => Int.ofNat_le.mp (hpulses e he)
  rcases asyncRestore_cases w line hrestorable hcheck with
    ⟨hcommits, B, nextId, hB, -, hdone⟩ | ⟨hnot, hstill⟩
  · have hargs : ∀ e ∈ snapshot.commands, (importArgs w e).isSome = true := by
      intro e he
      obtain ⟨i, hi⟩ := List.mem_iff_getElem?.mp he
      exact (hcommits.imported i e hi).1
    have hpart : Partial snapshot (asyncRestore w line snapshot device).2 ↔
        ¬ SameCommands snapshot (asyncRestore w line snapshot device).2 := by
      refine ⟨fun h => h.2.2, fun h => ⟨?_, ?_, h⟩⟩
      · exact (congrArg BridgeId.hex hdone.bridgeId).trans hB
      · exact (Cloner.restoreIncomplete_rfStatus _).mpr hdone.closed
    have hmem (b : ExportedCommand) :
        b ∈ (asyncRestore w line snapshot device).2.store.commands.map Command.body ↔
          b ∈ (keptOf w line snapshot device.store.config).map Command.body :=
      (hdone.commands.map Command.body).mem_iff
    rw [hpart, not_not, sameCommands_iff hdone.sound.toWellFormed]
    simp only [hmem]
    rw [same_keptOf_iff hargs (Int.ofNat_le.mp hslots) hpulses']
    exact ⟨fun h _ => h, fun h => h hcommits⟩
  · refine iff_of_true ?_ fun hcommits => absurd hcommits hnot
    rintro ⟨hbridge, hclosed, -⟩
    rcases hstill with hsame | hforeign | hopen
    · exact hother ((congrArg BridgeId.hex hsame).symm.trans hbridge)
    · exact hforeign hbridge
    · exact hopen ((Cloner.restoreIncomplete_rfStatus _).mp hclosed)

/-! ## One command too many -/

/-- The identity of a bridge that is to be replaced. -/
def formerBridge : BridgeId := .filled 1

/-- Its two commands, of eight bytes each. -/
def onOff : Snapshot :=
  ⟨formerBridge.hex, 5, 3, 0,
    [⟨1, formerBridge.hex, 1, str "on", 0, 0, 0, 0, [350, -1050]⟩,
      ⟨1, formerBridge.hex, 2, str "off", 0, 0, 0, 0, [350, -350]⟩]⟩

/-- New hardware of two slots, whose header and index take 128 bytes. -/
def newHardware (maxStorageBytes : UInt32) : Cloner :=
  ⟨(Session.powerOn (fun _ => true) ⟨2, 4, maxStorageBytes, 7⟩ none).store, []⟩

/-- **The second import is refused, and the commit goes through.** -/
theorem over_budget_commits_part :
    checkRestoreTarget (newHardware 140).rfStatus onOff = .ok () ∧
    (newHardware 140).rfStatus.bridgeId ≠ onOff.bridgeId ∧
    Partial onOff (asyncRestore Wire.exact (fun _ => {}) onOff (newHardware 140)).2 := by
  refine ⟨by decide +kernel, by decide +kernel, by decide +kernel, by decide +kernel, fun hsame => ?_⟩
  have hoff : (⟨1, [], 2, str "off", 0, 0, 0, 0, [350, -350]⟩ : ExportedCommand)
      ∈ (asyncRestore Wire.exact (fun _ => {}) onOff (newHardware 140)).2.portable.map
        ExportedCommand.body := (hsame _).mpr (by decide +kernel)
  have hmissing : (⟨1, [], 2, str "off", 0, 0, 0, 0, [350, -350]⟩ : ExportedCommand)
      ∉ (asyncRestore Wire.exact (fun _ => {}) onOff (newHardware 140)).2.portable.map
        ExportedCommand.body := by decide +kernel
  exact hmissing hoff

/-- With room for both the restore is whole. -/
theorem within_budget_whole :
    ¬ Partial onOff (asyncRestore Wire.exact (fun _ => {}) onOff (newHardware 144)).2 := by
  have hother : (newHardware 144).rfStatus.bridgeId ≠ onOff.bridgeId := by decide +kernel
  have hcheck : checkRestoreTarget (newHardware 144).rfStatus onOff = .ok () := by decide +kernel
  refine (never_partial_iff (fun _ => true) ⟨2, 4, 144, 7⟩ none [] [] Wire.exact (fun _ => {})
    hother hcheck).mpr fun _ => ?_
  refine ⟨?_, by decide +kernel, fun _ => by decide +kernel, ?_⟩
  · intro e he
    simp only [onOff, List.mem_cons, List.not_mem_nil, or_false] at he
    rcases he with rfl | rfl <;> constructor <;> decide +kernel
  · intro e he
    obtain ⟨i, hi⟩ := List.mem_iff_getElem?.mp he
    exact ⟨i, e, hi, rfl, rfl⟩

end RfCloner
