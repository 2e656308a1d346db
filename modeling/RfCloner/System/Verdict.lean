/-
  What a restore that succeeds has done.

  `async_restore` judges by the status it reads last: the identity, the flag, the count and the
  revision.  A command that is not stored is missing from the count, and a begin that did not happen
  shows in the identity, unless the device was under the identity of the snapshot before.  Then
  nothing else gives it away when there are no commands to count, and the next id is not looked at:
  `success_is_snapshot_iff`.
-/
import RfCloner.System.Preflight

namespace RfCloner

open CommandStore

/-- A snapshot that has been taken of devices of any state, one for each call. -/
def Taken (w : Wire) (snapshot : Snapshot) : Prop :=
  ∃ (m : SnapshotManager) (now : Timestamp) (c : Cloner) (device : Nat → Cloner)
    (reached : Nat → Bool), m.snapshot ≠ some snapshot ∧ Reached c ∧ (∀ k, Reached (device k)) ∧
      (m.asyncRefresh c.rfStatus now (exportsOf w device reached)).snapshot = some snapshot

/-- The device has what the snapshot has, at a later revision. -/
structure IsSnapshot (snapshot : Snapshot) (device : Cloner) : Prop where
  bridgeId : device.rfStatus.bridgeId = snapshot.bridgeId
  nextCommandId : device.rfStatus.nextCommandId = snapshot.nextCommandId
  commands : (device.portable.map ExportedCommand.body).Perm
    (snapshot.commands.map ExportedCommand.body)
  closed : device.rfStatus.restoreIncomplete = false
  later : snapshot.revision < device.rfStatus.revision

/-- The begin is missed without a trace: a snapshot without commands, for a device that is under its
    identity already, further on, and with another next id. -/
structure BeginMissed (w : Wire) (line : Nat → Fate) (snapshot : Snapshot) (s : CommandStore) :
    Prop where
  empty : snapshot.commands = []
  own : s.bridgeId.hex = snapshot.bridgeId
  ahead : snapshot.revision < s.revision.toNat
  counter : (s.nextCommandId.toNat : Int) ≠ snapshot.nextCommandId
  missed : (line 1).lands = false ∨ ¬ s.revision < revisionMax
  carried : (w.send snapshot.nextCommandId).isSome = true ∧ (w.send snapshot.revision).isSome = true
  silent : ∀ k < 4, (line k).raises = false

/-! ## What a snapshot can be -/

section Snapshots

variable {w : Wire} {snapshot : Snapshot} {c : Cloner}

theorem Reached.registry (h : Reached c) :
    c.store.WellFormed ∧ commandIdFirst ≤ c.store.nextCommandId ∧
      ∀ d ∈ c.store.commands, d.commandId < c.store.nextCommandId := by
  obtain ⟨lands, cfg, random, events, hstore⟩ := h
  rw [hstore]
  exact registry_of_run lands cfg random events

/-- What is in a snapshot was on some device. -/
structure Real (snapshot : Snapshot) : Prop where
  bridgeId : ∃ B : BridgeId, B.hex = snapshot.bridgeId
  nextCommandId : ∃ next : UInt32, (next.toNat : Int) = snapshot.nextCommandId ∧ next ≠ 0
  revision : ∃ rev : UInt32, (rev.toNat : Int) = snapshot.revision
  commands : ∀ e ∈ snapshot.commands, ∃ (device : Cloner) (command : Command),
    validateName command.name = .ok ∧ device.exported command = e
  ids : (snapshot.commands.map ExportedCommand.commandId).Nodup

theorem Taken.real (h : Taken w snapshot) : Real snapshot := by
  obtain ⟨m, now, c, device, reached, hold, hreached, hdevices, hnew⟩ := h
  rcases SnapshotManager.asyncRefresh_cases m c.rfStatus now (exportsOf w device reached) with
    ⟨hsame, -⟩ | ⟨commands, hreplaces, hreplaced⟩
  · rw [hsame] at hnew
    exact absurd hnew hold
  · rw [hreplaced] at hnew
    obtain rfl := Option.some.inj hnew
    obtain ⟨-, hlen, hcalls⟩ := replaces_rfStatus.mp hreplaces
    -- each export is of the command that the listing has there
    have hexport : ∀ k e, commands[k]? = some e → ∃ command, (∃ i, ((device k).store.slot i).occupied = true ∧
        (device k).store.slot i = command) ∧ (device k).exported command = e ∧
        (c.store.commands.map Command.commandId)[k]? = some command.commandId := by
      intro k e hk
      have hlt : k < c.store.commands.length := hlen ▸ (List.getElem?_eq_some_iff.mp hk).1
      obtain ⟨-, -, hexport⟩ := hcalls k _ (List.getElem?_eq_getElem hlt)
      rw [hk] at hexport
      obtain ⟨command, hget, hexported⟩ := Option.map_eq_some_iff.mp hexport
      obtain ⟨i, hfind, rfl⟩ := Option.map_eq_some_iff.mp hget
      obtain ⟨hocc, hid⟩ := findSlotById_eq_some hfind
      refine ⟨_, ⟨i, hocc, rfl⟩, hexported, ?_⟩
      rw [List.getElem?_map, List.getElem?_eq_getElem hlt, hid]
      rfl
    obtain ⟨hwf, hpos, -⟩ := hreached.registry
    refine ⟨⟨c.store.bridgeId, rfl⟩, ⟨c.store.nextCommandId, rfl, ?_⟩, ⟨c.store.revision, rfl⟩, ?_, ?_⟩
    · intro hzero
      rw [hzero] at hpos
      exact absurd hpos (by decide)
    · intro e he
      obtain ⟨k, hk⟩ := List.mem_iff_getElem?.mp he
      obtain ⟨_, ⟨i, hocc, rfl⟩, hexported, -⟩ := hexport k e hk
      obtain ⟨hdevice, -⟩ := (hdevices k).registry
      exact ⟨device k, _, hdevice.names_valid _ (slot_mem_commands hocc), hexported⟩
    · have hids : commands.map ExportedCommand.commandId
          = (c.store.commands.map Command.commandId).map fun id => (id.toNat : Int) := by
        refine List.ext_getElem? fun k => ?_
        rw [List.getElem?_map, List.getElem?_map]
        cases hk : commands[k]? with
        | none =>
          have hle := List.getElem?_eq_none_iff.mp hk
          rw [List.getElem?_eq_none (by rw [List.length_map]; omega)]
          rfl
        | some e =>
          obtain ⟨command, -, rfl, hid⟩ := hexport k e hk
          rw [hid]
          rfl
      show (commands.map ExportedCommand.commandId).Nodup
      rw [hids]
      exact hwf.ids_nodup.map fun a b hab => UInt32.toNat_inj.mp (Int.ofNat_inj.mp hab)

end Snapshots

/-! ## Success -/

section Success

variable {w : Wire} {line : Nat → Fate} {snapshot : Snapshot} {device : Cloner}

theorem Progress.andThen_ok {progress : Progress} {next : Cloner → Progress} :
    (progress.andThen next).1 = .ok () ↔ progress.1 = .ok () ∧ (next progress.2).1 = .ok () := by
  by_cases h : progress.1 = .ok ()
  · rw [Progress.andThen_of_ok h]
    exact ⟨fun hnext => ⟨h, hnext⟩, fun hboth => hboth.2⟩
  · rw [Progress.andThen_of_ne_ok h]
    exact ⟨fun hok => absurd hok h, fun hboth => absurd hboth.1 h⟩

theorem asyncStatus_ok {fate : Fate} {check : BridgeStatus → Except RestoreError Unit} :
    (asyncStatus fate check device).1 = .ok () ↔
      fate.raises = false ∧ check device.rfStatus = .ok () := by
  unfold asyncStatus
  cases fate.raises <;> simp

theorem asyncImport_ok {fate : Fate} {command : ExportedCommand} :
    (asyncImport w fate command device).1 = .ok () ↔
      (importArgs w command).isSome = true ∧ fate.raises = false := by
  unfold asyncImport
  cases importArgs w command with
  | none => simp
  | some args => simp

theorem asyncImports_ok : ∀ {commands : List ExportedCommand} {k : Nat} {device : Cloner},
    (asyncImports w line k commands device).1 = .ok () ↔
      ∀ i e, commands[i]? = some e → (importArgs w e).isSome = true ∧ (line (k + i)).raises = false
  | [], k, device => ⟨fun _ i e he => (nomatch he), fun _ => rfl⟩
  | command :: commands, k, device => by
    unfold asyncImports
    rw [Progress.andThen_ok, asyncImport_ok, asyncImports_ok]
    constructor
    · rintro ⟨hfirst, hrest⟩ i e he
      cases i with
      | zero =>
        obtain rfl := Option.some.inj he
        exact hfirst
      | succ i =>
        rw [show k + (i + 1) = k + 1 + i by omega]
        exact hrest i e he
    · intro h
      refine ⟨h 0 command rfl, fun i e he => ?_⟩
      rw [show k + 1 + i = k + (i + 1) by omega]
      exact h (i + 1) e he

/-- The last check passes. -/
theorem checkRestored_ok {result : BridgeStatus} : checkRestored result snapshot = .ok () ↔
    result.bridgeId = snapshot.bridgeId ∧ result.restoreIncomplete = false ∧
      result.count = snapshot.commands.length ∧ snapshot.revision < result.revision := by
  unfold checkRestored
  constructor
  · intro h
    split at h
    · cases h
    rename_i hid
    split at h
    · cases h
    rename_i hclosed
    split at h
    · cases h
    rename_i hcount
    split at h
    · cases h
    rename_i hlater
    exact ⟨not_not.mp hid, Bool.eq_false_iff.mpr hclosed, not_not.mp hcount, Int.not_le.mp hlater⟩
  · rintro ⟨h₁, h₂, h₃, h₄⟩
    rw [if_neg (not_not_intro h₁), if_neg (by simp [h₂]), if_neg (not_not_intro h₃),
      if_neg (Int.not_le.mpr h₄)]

/-- **When a restore succeeds**: no call raises, everything is carried, and the last status passes. -/
theorem asyncRestore_ok (hcheck : checkRestoreTarget device.rfStatus snapshot = .ok ()) :
    (asyncRestore w line snapshot device).1 = .ok () ↔
      (line 0).raises = false ∧
      ((w.send snapshot.nextCommandId).isSome = true ∧ (line 1).raises = false) ∧
      (∀ i e, snapshot.commands[i]? = some e →
        (importArgs w e).isSome = true ∧ (line (2 + i)).raises = false) ∧
      ((w.send snapshot.revision).isSome = true ∧
        (line (2 + snapshot.commands.length)).raises = false) ∧
      (line (3 + snapshot.commands.length)).raises = false ∧
      checkRestored (asyncRestore w line snapshot device).2.rfStatus snapshot = .ok () := by
  obtain ⟨-, -, -, -, -, hdomain⟩ := checkRestoreTarget_ok.mp hcheck
  by_cases hanswered : (line 0).raises = false
  · rw [asyncRestore_of_begun hcheck hanswered, Progress.andThen_ok, asyncRestoreBegin_ok,
      Progress.andThen_ok, asyncImports_ok, Progress.andThen_ok, asyncRestoreCommit_ok hdomain,
      asyncStatus_ok]
    constructor
    · rintro ⟨hbegin, himports, hcommit, hlast, hchecked⟩
      refine ⟨hanswered, hbegin, himports, hcommit, hlast, ?_⟩
      rw [Progress.andThen_of_ok (asyncRestoreBegin_ok.mpr hbegin),
        Progress.andThen_of_ok (asyncImports_ok.mpr himports), andThen_asyncStatus]
      exact hchecked
    · rintro ⟨-, hbegin, himports, hcommit, hlast, hchecked⟩
      rw [Progress.andThen_of_ok (asyncRestoreBegin_ok.mpr hbegin),
        Progress.andThen_of_ok (asyncImports_ok.mpr himports), andThen_asyncStatus] at hchecked
      exact ⟨hbegin, himports, hcommit, hlast, hchecked⟩
  · refine iff_of_false (fun hok => ?_) fun h => hanswered h.1
    unfold asyncRestore at hok
    rw [Progress.andThen_ok, asyncStatus_ok] at hok
    exact hanswered hok.1.1

variable (line) in
/-- A restore whose begin does nothing does nothing. -/
theorem asyncRestore_of_not_begun (h : Restorable device.store)
    (hcheck : checkRestoreTarget device.rfStatus snapshot = .ok ())
    (hnot : ∀ arg B, ¬ Begins w (line 1) snapshot.bridgeId snapshot.nextCommandId
      device.store.revision arg B) : (asyncRestore w line snapshot device).2.store = device.store := by
  cases hanswered : (line 0).raises with
  | true => rw [asyncRestore_of_not_answered hanswered]
  | false =>
    rw [asyncRestore_of_begun hcheck hanswered]
    rcases asyncRestoreBegin_cases w (line 1) snapshot.bridgeId snapshot.nextCommandId h
      with ⟨arg, B, hbegins, -⟩ | ⟨-, hsame⟩
    · exact absurd hbegins (hnot arg B)
    · refine Progress.andThen_keeps (P := fun c => c.store = device.store) hsame fun c hc => ?_
      rw [afterBegin_of_closed (by rw [hc]; exact h.closed), hc]

end Success

/-! ## Counting -/

section Counting

variable {w : Wire} {line : Nat → Fate} {snapshot : Snapshot} {device : Cloner}

/-- No more is offered than there is. -/
theorem length_offered_le (w : Wire) (line : Nat → Fate) : ∀ (commands : List ExportedCommand) (k : Nat),
    (offered w line k commands).length ≤ commands.length
  | [], _ => Nat.le_refl 0
  | command :: commands, k => by
    have hrest := length_offered_le w line commands (k + 1)
    have hone : (if (line k).lands then
        ((importArgs w command).map Cloner.ImportArgs.command).toList else []).length ≤ 1 := by
      split
      · cases importArgs w command <;> simp
      · exact Nat.zero_le 1
    rw [offered, List.length_append, List.length_cons]
    omega

/-- **As much offered as there is** is all there is. -/
theorem bodies_offered (hreal : Real snapshot) : ∀ {commands : List ExportedCommand} {k : Nat},
    (∀ e ∈ commands, e ∈ snapshot.commands) →
    (offered w line k commands).length = commands.length →
    (offered w line k commands).map Command.body = commands.map ExportedCommand.body
  | [], _, _, _ => rfl
  | command :: commands, k, hmem, hlength => by
    have hle := length_offered_le w line commands (k + 1)
    rw [offered, List.length_append, List.length_cons] at hlength
    rw [offered, List.map_append, List.map_cons]
    -- the first one is offered, for the others make up for nothing
    split at hlength
    · rename_i hlands
      rw [if_pos hlands]
      cases hargs : importArgs w command with
      | none =>
        rw [hargs] at hlength
        simp at hlength
        omega
      | some args =>
        rw [hargs] at hlength
        have hrest := bodies_offered hreal (k := k + 1)
          (fun e he => hmem e (List.mem_cons_of_mem _ he))
          (show (offered w line (k + 1) commands).length = commands.length by simp at hlength; omega)
        obtain ⟨source, c, hname, rfl⟩ := hreal.commands command (hmem command List.mem_cons_self)
        rw [hrest]
        show args.command.body :: _ = _
        rw [command_of_importArgs hname hargs]
        rfl
    · simp at hlength
      omega

/-- **A restore that begins and succeeds** has made the device the snapshot: as many commands as were
    offered are all of them. -/
theorem isSnapshot_of_begun (hreal : Real snapshot) (h : Restorable device.store)
    (hcheck : checkRestoreTarget device.rfStatus snapshot = .ok ()) {arg : Int32} {B : BridgeId}
    (hbegins : Begins w (line 1) snapshot.bridgeId snapshot.nextCommandId device.store.revision arg B)
    (hok : (asyncRestore w line snapshot device).1 = .ok ()) :
    IsSnapshot snapshot (asyncRestore w line snapshot device).2 := by
  obtain ⟨-, -, -, -, -, hdomain⟩ := checkRestoreTarget_ok.mp hcheck
  obtain ⟨hanswered, hbegin, -, -, -, hchecked⟩ := (asyncRestore_ok hcheck).mp hok
  obtain ⟨hbridge, hclosed, hcount, hlater⟩ := checkRestored_ok.mp hchecked
  have hclosed' := (Cloner.restoreIncomplete_rfStatus _).mp hclosed
  have hrest := congrArg (fun p : Progress => p.2.store) ((asyncRestore_of_begun hcheck hanswered).trans
    (Progress.andThen_of_ok (asyncRestoreBegin_ok.mpr hbegin)))
  rcases asyncRestoreBegin_cases w (line 1) snapshot.bridgeId snapshot.nextCommandId h
    with ⟨arg', B', hbegins', hopened, hholding⟩ | ⟨hnot, -⟩
  · rcases afterBegin_opened w line hopened hholding hdomain with ⟨-, -, hdone⟩ | ⟨-, hopen⟩
    · rw [← hrest] at hdone
      refine ⟨hbridge, ?_, ?_, hclosed, hlater⟩
      · have hsent : arg'.toInt = snapshot.nextCommandId := w.send_eq hbegins'.sent
        obtain ⟨next, hnext, -⟩ := hreal.nextCommandId
        show (((asyncRestore w line snapshot device).2.store.nextCommandId.toNat : Nat) : Int) = _
        rw [hdone.nextCommandId, toNat_toUInt32_of_toInt (hsent.trans hnext.symm), hnext]
      · have hlength := hdone.commands.length_eq
        have hall : (asyncRestore w line snapshot device).2.store.commands.length
            = snapshot.commands.length := by
          rw [← count_eq]
          exact Int.ofNat_inj.mp hcount
        have hle := Greedy.length_take_le (FitsBeside device.store.config arg'.toUInt32.toNat)
          (offered w line 2 snapshot.commands)
        have hoffered := length_offered_le w line snapshot.commands 2
        have hkept : Greedy.take (FitsBeside device.store.config arg'.toUInt32.toNat) []
            (offered w line 2 snapshot.commands) = offered w line 2 snapshot.commands :=
          Greedy.take_eq_of_length (by omega)
        have hperm := hdone.commands.map Command.body
        rw [hkept, bodies_offered hreal (fun e he => he) (by omega)] at hperm
        have hbodies : (asyncRestore w line snapshot device).2.portable.map ExportedCommand.body
            = (asyncRestore w line snapshot device).2.store.commands.map Command.body := by
          rw [Cloner.portable_eq hdone.sound.toWellFormed, List.map_map]
          rfl
        rw [hbodies]
        exact hperm
    · rw [← hrest] at hopen
      exact absurd hclosed' hopen
  · exact absurd hbegins (hnot arg B)

end Counting

/-! ## The verdict -/

section Verdict

variable {w : Wire} {line : Nat → Fate} {snapshot : Snapshot} {device : Cloner}

variable (line) in
/-- A restore that does not begin and succeeds: the device had the identity, and nothing of it. -/
theorem ok_of_not_begun_iff (h : Restorable device.store)
    (hcheck : checkRestoreTarget device.rfStatus snapshot = .ok ())
    (hnot : ∀ arg B, ¬ Begins w (line 1) snapshot.bridgeId snapshot.nextCommandId
      device.store.revision arg B) :
    (asyncRestore w line snapshot device).1 = .ok () ↔
      snapshot.commands = [] ∧ device.store.bridgeId.hex = snapshot.bridgeId ∧
      snapshot.revision < device.store.revision.toNat ∧
      ((w.send snapshot.nextCommandId).isSome = true ∧ (w.send snapshot.revision).isSome = true) ∧
      ∀ k < 4, (line k).raises = false := by
  have hsame := asyncRestore_of_not_begun line h hcheck hnot
  have hcount : (asyncRestore w line snapshot device).2.rfStatus.count = 0 := by
    show ((asyncRestore w line snapshot device).2.store.count : Int) = 0
    rw [hsame, count_eq, h.empty]
    rfl
  have hbridge : (asyncRestore w line snapshot device).2.rfStatus.bridgeId
      = device.store.bridgeId.hex := congrArg (fun s => s.bridgeId.hex) hsame
  have hrevision : (asyncRestore w line snapshot device).2.rfStatus.revision
      = (device.store.revision.toNat : Int) := congrArg (fun s => (s.revision.toNat : Int)) hsame
  have hclosed : (asyncRestore w line snapshot device).2.rfStatus.restoreIncomplete = false := by
    rw [Cloner.restoreIncomplete_rfStatus, hsame]
    exact h.closed
  rw [asyncRestore_ok hcheck, checkRestored_ok, hcount, hbridge, hrevision]
  constructor
  · rintro ⟨h₀, ⟨hnext, h₁⟩, -, ⟨hsource, h₂⟩, h₃, hid, -, hnone, hahead⟩
    have hempty : snapshot.commands = [] := List.eq_nil_of_length_eq_zero (by omega)
    rw [hempty] at h₂ h₃
    refine ⟨hempty, hid, hahead, ⟨hnext, hsource⟩, fun k hk => ?_⟩
    match k with
    | 0 => exact h₀
    | 1 => exact h₁
    | 2 => exact h₂
    | 3 => exact h₃
  · rintro ⟨hempty, hid, hahead, ⟨hnext, hsource⟩, hsilent⟩
    rw [hempty]
    exact ⟨hsilent 0 (by decide), ⟨hnext, hsilent 1 (by decide)⟩, fun _ _ he => (nomatch he),
      ⟨hsource, hsilent 2 (by decide)⟩, hsilent 3 (by decide), hid, hclosed, rfl, hahead⟩

/-- A restore of a snapshot that was taken begins, if its begin lands and there is a revision. -/
theorem begins_of_real (hreal : Real snapshot) {s : CommandStore}
    (hcarried : (w.send snapshot.nextCommandId).isSome = true) (hlands : (line 1).lands = true)
    (hroom : s.revision < revisionMax) :
    ∃ arg B, Begins w (line 1) snapshot.bridgeId snapshot.nextCommandId s.revision arg B := by
  obtain ⟨B, hB⟩ := hreal.bridgeId
  obtain ⟨next, hnext, hpos⟩ := hreal.nextCommandId
  obtain ⟨arg, hsend⟩ := Option.isSome_iff_exists.mp hcarried
  have hsent : arg.toInt = snapshot.nextCommandId := w.send_eq hsend
  have harg : arg.toUInt32 = next :=
    UInt32.toNat_inj.mp (toNat_toUInt32_of_toInt (hsent.trans hnext.symm))
  refine ⟨arg, B, hlands, hsend, ?_, ?_, hroom⟩
  · rw [← hB]
    exact parseBridgeId_hex B
  · rw [harg]
    exact hpos

/-- **A successful restore is the snapshot**, unless the begin was missed.  For any reachable device
    that passes the checks and any snapshot that was taken of any devices, whatever becomes of the
    calls. -/
theorem success_is_snapshot_iff (w : Wire) (line : Nat → Fate) {snapshot : Snapshot}
    {device : Cloner} (hreached : Reached device) (htaken : Taken w snapshot)
    (hcheck : checkRestoreTarget device.rfStatus snapshot = .ok ()) :
    ((asyncRestore w line snapshot device).1 = .ok () →
        IsSnapshot snapshot (asyncRestore w line snapshot device).2) ↔
      ¬ BeginMissed w line snapshot device.store := by
  have hreal := htaken.real
  have h : Restorable device.store := Restorable.of_check hcheck hreached.kept.1 hreached.kept.2
  by_cases hbegins : ∃ arg B, Begins w (line 1) snapshot.bridgeId snapshot.nextCommandId
      device.store.revision arg B
  · obtain ⟨arg, B, hbegins⟩ := hbegins
    refine iff_of_true (isSnapshot_of_begun hreal h hcheck hbegins) fun hmissed => ?_
    rcases hmissed.missed with hlands | hroom
    · exact Bool.false_ne_true (hlands.symm.trans hbegins.lands)
    · exact hroom hbegins.room
  · have hnot : ∀ arg B, ¬ Begins w (line 1) snapshot.bridgeId snapshot.nextCommandId
        device.store.revision arg B := fun arg B h => hbegins ⟨arg, B, h⟩
    have hsame := asyncRestore_of_not_begun line h hcheck hnot
    have hcounter : (asyncRestore w line snapshot device).2.rfStatus.nextCommandId
        = (device.store.nextCommandId.toNat : Int) :=
      congrArg (fun s => (s.nextCommandId.toNat : Int)) hsame
    constructor
    · intro hsound hmissed
      have hok := (ok_of_not_begun_iff line h hcheck hnot).mpr
        ⟨hmissed.empty, hmissed.own, hmissed.ahead, hmissed.carried, hmissed.silent⟩
      exact hmissed.counter (hcounter.symm.trans (hsound hok).nextCommandId)
    · intro hnotMissed hok
      obtain ⟨hempty, hown, hahead, hcarried, hsilent⟩ := (ok_of_not_begun_iff line h hcheck hnot).mp hok
      have hmissed : (line 1).lands = false ∨ ¬ device.store.revision < revisionMax := by
        by_contra hboth
        push Not at hboth
        exact hbegins (begins_of_real hreal hcarried.1 (Bool.eq_true_of_not_eq_false hboth.1) hboth.2)
      obtain ⟨-, -, -, -, -, hchecked⟩ := (asyncRestore_ok hcheck).mp hok
      obtain ⟨hbridge, hclosed, -, hlater⟩ := checkRestored_ok.mp hchecked
      refine ⟨hbridge, ?_, ?_, hclosed, hlater⟩
      · by_contra hcounter'
        exact hnotMissed ⟨hempty, hown, hahead, fun heq => hcounter' (hcounter.trans heq), hmissed,
          hcarried, hsilent⟩
      · have hnone : (asyncRestore w line snapshot device).2.portable = [] := by
          rw [Cloner.portable_eq (by rw [hsame]; exact h.sound.toWellFormed), hsame, h.empty]
          rfl
        rw [hnone, hempty]

end Verdict

/-! ## A begin that is missed -/

/-- The replica of a device as it is, taken by the first refresh. -/
theorem taken_replicaOf {w : Wire} (hw : w.Full) {source : Cloner} (hreached : Reached source)
    (hclosed : source.store.restoreState = 0)
    (hids : ∀ c ∈ source.store.commands, c.commandId.toNat < 2 ^ 31) (now : Timestamp) :
    Taken w (replicaOf source now) :=
  ⟨⟨source.rfStatus.bridgeId, none⟩, now, source, fun _ => source, fun _ => true,
    fun h => (nomatch h), hreached, fun _ => hreached, asyncRefresh_replicaOf hw hclosed hids⟩

/-- A device as it starts, and the same device after a command has been stored and removed. -/
def untouched : Cloner := ⟨(Session.powerOn (fun _ => true) ⟨1, 4, 92, 7⟩ none).store, []⟩

def emptied : Cloner :=
  ⟨(Session.run (fun _ => true) (Session.powerOn (fun _ => true) ⟨1, 4, 92, 7⟩ none)
    [.op (.put { name := ascii "on", timings := [350, -1050] }), .op (.removeById 1)]).store, []⟩

theorem reached_untouched : Reached untouched := ⟨fun _ => true, ⟨1, 4, 92, 7⟩, none, [], rfl⟩

/-- The header is not saved when the restore begins. -/
def unsavedBegin (k : Nat) : Fate := { saves := k != 1 }

/-- **The begin fails, and the restore succeeds**: the device has given id 1 away, and the snapshot has
    not. -/
theorem missed_begin_succeeds :
    Reached emptied ∧ Taken Wire.exact (replicaOf untouched 0) ∧
    checkRestoreTarget emptied.rfStatus (replicaOf untouched 0) = .ok () ∧
    (asyncRestore Wire.exact unsavedBegin (replicaOf untouched 0) emptied).1 = .ok () ∧
    (replicaOf untouched 0).nextCommandId = 1 ∧
    (asyncRestore Wire.exact unsavedBegin (replicaOf untouched 0) emptied).2.rfStatus.nextCommandId = 2 ∧
    ¬ IsSnapshot (replicaOf untouched 0)
      (asyncRestore Wire.exact unsavedBegin (replicaOf untouched 0) emptied).2 := by
  have hfirst : (replicaOf untouched 0).nextCommandId = 1 := by decide +kernel
  have hsecond : (asyncRestore Wire.exact unsavedBegin (replicaOf untouched 0) emptied).2.rfStatus.nextCommandId
      = 2 := by decide +kernel
  refine ⟨⟨fun _ => true, ⟨1, 4, 92, 7⟩, none, _, by rw [emptied]⟩,
    taken_replicaOf Wire.full_exact reached_untouched (by decide +kernel) (by decide +kernel) 0,
    by decide +kernel, by decide +kernel, hfirst, hsecond, fun hsnapshot => ?_⟩
  have hsame := hsnapshot.nextCommandId
  rw [hfirst, hsecond] at hsame
  exact absurd hsame (by decide)

theorem taken_oneButton : Taken Wire.exact (replicaOf oneButton 0) :=
  taken_replicaOf Wire.full_exact reached_oneButton (by decide +kernel) (by decide +kernel) 0

/-- A restore that succeeds on new hardware. -/
theorem one_button_restored : IsSnapshot (replicaOf oneButton 0)
    (asyncRestore Wire.exact (fun _ => {}) (replicaOf oneButton 0) (newHardware 136)).2 := by
  refine (success_is_snapshot_iff Wire.exact (fun _ => {}) (reached_newHardware 136) taken_oneButton
    (by decide +kernel)).mpr (fun hmissed => ?_) (by decide +kernel)
  exact absurd hmissed.empty (by decide +kernel)

end RfCloner
