/-
  Writing a snapshot onto replacement hardware (`restore.py`).

  The three actions of a restore return nothing to Home Assistant: `async_restore` reads the status
  once before it begins and once after the commit, and in between sees only whether a call raised.
  What becomes of a call is its `Fate`.
-/
import RfCloner.System.Replica
import RfCloner.Device.Import
import RfCloner.Lib.Decimal

namespace RfCloner

open CommandStore

/-! ## Checks -/

/-- An exception that ends a restore. -/
inductive RestoreError
  /-- `RestoreNotPossible`. -/
  | notPossible (message : Str)
  /-- `HomeAssistantError`, out of `async_restore` or `async_restore_commit`. -/
  | homeAssistant (message : Str)
  /-- A call did not get through. -/
  | call
  deriving DecidableEq

/-- A number in a message. -/
abbrev num (n : Int) : Str := Decimal.toText n

/-- `REVISION_MAX`, as the integration has it. -/
def revisionMaxHass : Int := 2 ^ 31 - 1 - 1

/-- The names of the commands that are longer than the target's limit. -/
def oversized (status : BridgeStatus) (snapshot : Snapshot) : List Str :=
  (snapshot.commands.filter fun command =>
    decide ((command.timings.length : Int) > status.maxPulses)).map ExportedCommand.name

/-- `check_restore_target`. -/
def checkRestoreTarget (status : BridgeStatus) (snapshot : Snapshot) : Except RestoreError Unit :=
  if status.readOnly then
    .error (.notPossible (str "the target is in read-only mode (" ++ status.fault ++ str ")"))
  else if status.restoreIncomplete then
    .error (.notPossible (str "the target already has an unfinished restore"))
  else if status.count ≠ 0 then
    .error (.notPossible (str "the target already holds " ++ num status.count
      ++ str " command(s); clear it first"))
  else if (snapshot.commands.length : Int) > status.maxCommands then
    .error (.notPossible (str "the target holds " ++ num status.maxCommands
      ++ str " commands and the snapshot has " ++ num snapshot.commands.length))
  else if oversized status snapshot ≠ [] then
    .error (.notPossible (str "the target's " ++ num status.maxPulses
      ++ str "-pulse limit cannot hold: " ++ List.intercalate (str ", ") (oversized status snapshot)))
  else if ¬(0 ≤ snapshot.revision ∧ snapshot.revision ≤ revisionMaxHass) then
    .error (.notPossible (str "the snapshot's revision " ++ num snapshot.revision
      ++ str " is outside the bridge's revision domain (0 to " ++ num revisionMaxHass ++ str ")"))
  else .ok ()

/-- The checks `async_restore` makes on the status it reads last. -/
def checkRestored (result : BridgeStatus) (snapshot : Snapshot) : Except RestoreError Unit :=
  if result.bridgeId ≠ snapshot.bridgeId then
    .error (.homeAssistant (str "Restore finished but the bridge reports " ++ result.bridgeId
      ++ str ", expected " ++ snapshot.bridgeId))
  else if result.restoreIncomplete then
    .error (.homeAssistant (str "Restore did not commit; the bridge is still mid-restore"))
  else if result.count ≠ snapshot.commands.length then
    .error (.homeAssistant (str "Restore wrote " ++ num result.count ++ str " of "
      ++ num snapshot.commands.length ++ str " command(s)"))
  else if result.revision ≤ snapshot.revision then
    .error (.homeAssistant (str "Restore committed revision " ++ num result.revision
      ++ str ", which does not advance the snapshot's revision " ++ num snapshot.revision
      ++ str "; the bridge's firmware may predate rf_restore_commit(source_revision)"))
  else .ok ()

/-! ## Calls -/

/-- What becomes of a call: whether the action runs on the device, whether the saves it makes
    succeed, and whether the call raises. -/
structure Fate where
  delivered : Bool := true
  saves : Bool := true
  raises : Bool := false
  deriving DecidableEq

/-- The exception that has ended the restore, if any, and the device. -/
abbrev Progress := Except RestoreError Unit × Cloner

/-- Going on while nothing has been raised. -/
def Progress.andThen (progress : Progress) (next : Cloner → Progress) : Progress :=
  match progress with
  | (.ok (), device) => next device
  | (.error e, device) => (.error e, device)

/-- A call of an action without a response. -/
def callAction (fate : Fate) (action : Bool → Cloner → Cloner) (device : Cloner) : Progress :=
  (if fate.raises then .error .call else .ok (),
    if fate.delivered then action fate.saves device else device)

/-- `async_restore_begin`. -/
def asyncRestoreBegin (w : Wire) (fate : Fate) (bridgeId : Str) (nextCommandId : Int)
    (device : Cloner) : Progress :=
  match w.send nextCommandId with
  | none => (.error .call, device)
  | some next => callAction fate (fun saves => Cloner.rfRestoreBegin saves (utf8 bridgeId) next) device

/-- The arguments of `rf_import` for a command, if they can be carried. -/
def importArgs (w : Wire) (command : ExportedCommand) : Option Cloner.ImportArgs := do
  let commandId ← w.send command.commandId
  let timings ← command.timings.mapM w.send
  let gapUs ← w.send command.gapUs
  let repeatTimes ← w.send command.repeatTimes
  let frequencyHz ← w.send command.frequencyHz
  let modulation ← w.send command.modulation
  return ⟨commandId, utf8 command.name, timings, gapUs, repeatTimes, frequencyHz, modulation⟩

/-- `async_import`. -/
def asyncImport (w : Wire) (fate : Fate) (command : ExportedCommand) (device : Cloner) : Progress :=
  match importArgs w command with
  | none => (.error .call, device)
  | some args => callAction fate (fun saves => Cloner.rfImport saves args) device

/-- `async_restore_commit`. -/
def asyncRestoreCommit (w : Wire) (fate : Fate) (sourceRevision : Int) (device : Cloner) : Progress :=
  if ¬(0 ≤ sourceRevision ∧ sourceRevision ≤ revisionMaxHass) then
    (.error (.homeAssistant (str "source_revision " ++ num sourceRevision
      ++ str " is outside the bridge's revision domain (0 to " ++ num revisionMaxHass ++ str ")")),
      device)
  else
    match w.send sourceRevision with
    | none => (.error .call, device)
    | some source => callAction fate (fun saves => Cloner.rfRestoreCommit saves source) device

/-- `async_status`, and what is done with it. -/
def asyncStatus (fate : Fate) (check : BridgeStatus → Except RestoreError Unit) (device : Cloner) :
    Progress :=
  (if fate.raises then .error .call else check device.rfStatus, device)

/-! ## The restore -/

/-- The imports of `async_restore`, from call number `k` on. -/
def asyncImports (w : Wire) (line : Nat → Fate) : Nat → List ExportedCommand → Cloner → Progress
  | _, [], device => (.ok (), device)
  | k, command :: commands, device =>
    (asyncImport w (line k) command device).andThen (asyncImports w line (k + 1) commands)

/-- `async_restore`, where `line k` is the fate of call number `k`. -/
def asyncRestore (w : Wire) (line : Nat → Fate) (snapshot : Snapshot) (device : Cloner) : Progress :=
  (asyncStatus (line 0) (checkRestoreTarget · snapshot) device).andThen fun device =>
  (asyncRestoreBegin w (line 1) snapshot.bridgeId snapshot.nextCommandId device).andThen fun device =>
  (asyncImports w line 2 snapshot.commands device).andThen fun device =>
  (asyncRestoreCommit w (line (2 + snapshot.commands.length)) snapshot.revision device).andThen
    (asyncStatus (line (3 + snapshot.commands.length)) (checkRestored · snapshot))

/-! ## What the calls do to the device -/

/-- The action runs on the device and its saves succeed. -/
def Fate.lands (fate : Fate) : Bool := fate.delivered && fate.saves

section Calls

variable {w : Wire} {line : Nat → Fate} {fate : Fate} {device : Cloner} {P : Cloner → Prop}

/-- What holds after the first calls and is kept by the others holds in the end. -/
theorem Progress.andThen_keeps {progress : Progress} {next : Cloner → Progress} (h : P progress.2)
    (hnext : ∀ device, P device → P (next device).2) : P (progress.andThen next).2 := by
  obtain ⟨result, device⟩ := progress
  cases result with
  | error e => exact h
  | ok => exact hnext device h

theorem Progress.andThen_of_ok {progress : Progress} {next : Cloner → Progress}
    (h : progress.1 = .ok ()) : progress.andThen next = next progress.2 := by
  obtain ⟨result, device⟩ := progress
  obtain rfl : result = .ok () := h
  rfl

theorem Progress.andThen_of_ne_ok {progress : Progress} {next : Cloner → Progress}
    (h : progress.1 ≠ .ok ()) : progress.andThen next = progress := by
  obtain ⟨result, device⟩ := progress
  cases result with
  | error e => rfl
  | ok => exact absurd rfl h

@[simp] theorem callAction_ok {action : Bool → Cloner → Cloner} :
    (callAction fate action device).1 = .ok () ↔ fate.raises = false := by
  unfold callAction
  cases fate.raises <;> simp

/-- What an action keeps, saved or not, the call keeps. -/
theorem callAction_keeps {action : Bool → Cloner → Cloner} (h : P device)
    (haction : ∀ saves, P (action saves device)) : P (callAction fate action device).2 := by
  unfold callAction
  cases fate.delivered with
  | false => exact h
  | true => exact haction _

/-- The imports, as far as the device is concerned. -/
theorem asyncImports_keeps (himport : ∀ saves args device, P device → P (device.rfImport saves args)) :
    ∀ (commands : List ExportedCommand) (k : Nat) (device : Cloner), P device →
      P (asyncImports w line k commands device).2
  | [], _, _, h => h
  | command :: commands, k, device, h => by
    refine Progress.andThen_keeps ?_ (asyncImports_keeps himport commands (k + 1))
    unfold asyncImport
    cases importArgs w command with
    | none => exact h
    | some args => exact callAction_keeps h fun saves => himport saves args device h

theorem asyncRestoreCommit_keeps (h : P device)
    (hcommit : ∀ saves source, P (device.rfRestoreCommit saves source)) (sourceRevision : Int) :
    P (asyncRestoreCommit w fate sourceRevision device).2 := by
  unfold asyncRestoreCommit
  split
  · exact h
  · cases w.send sourceRevision with
    | none => exact h
    | some source => exact callAction_keeps h fun saves => hcommit saves source

end Calls

/-! ## Devices whose restore is not open, or open under another identity -/

section Kept

variable {w : Wire} {line : Nat → Fate} {device : Cloner} {snapshot : Snapshot}

/-- What an import can change. -/
theorem Op.attempt_importCommand (saves : Bool) (c : Command) (s : CommandStore) :
    let t := ((Op.importCommand c).attempt saves s).2
    t.bridgeId = s.bridgeId ∧ (s.restoreState = 0 → t = s) := by
  intro t
  have ht : t = ((Op.importCommand c).attempt saves s).2 := rfl
  rw [Op.attempt] at ht
  cases hplan : (Op.importCommand c).plan s with
  | stop result =>
    rw [hplan] at ht
    rw [ht]
    exact ⟨rfl, fun _ => rfl⟩
  | write payload next undone =>
    rw [hplan] at ht
    obtain ⟨-, -, hopen, -, -, -, -, slot, rev, -, -, -, -, rfl, rfl⟩ :=
      importCommandPlan_eq_write hplan
    rw [ht]
    refine ⟨?_, fun hclosed => absurd hclosed hopen⟩
    cases saves <;> rfl

/-- What a commit can change. -/
theorem Op.attempt_restoreCommit (saves : Bool) (source : UInt32) (s : CommandStore) :
    let t := ((Op.restoreCommit source).attempt saves s).2
    t.bridgeId = s.bridgeId ∧ (s.restoreState = 0 → t = s) := by
  intro t
  have ht : t = ((Op.restoreCommit source).attempt saves s).2 := rfl
  rw [Op.attempt] at ht
  cases hplan : (Op.restoreCommit source).plan s with
  | stop result =>
    rw [hplan] at ht
    rw [ht]
    exact ⟨rfl, fun _ => rfl⟩
  | write payload next undone =>
    rw [hplan] at ht
    obtain ⟨-, -, hopen, rev, -, -, rfl, rfl⟩ := restoreCommitPlan_eq_write hplan
    rw [ht]
    refine ⟨?_, fun hclosed => absurd hclosed hopen⟩
    cases saves <;> rfl

/-- A property of the store that neither an import nor a commit changes is kept by the rest of the
    restore. -/
theorem afterBegin_keeps {P : CommandStore → Prop}
    (himport : ∀ saves c s, P s → P ((Op.importCommand c).attempt saves s).2)
    (hcommit : ∀ saves source s, P s → P ((Op.restoreCommit source).attempt saves s).2)
    (h : P device.store) :
    P (((asyncImports w line 2 snapshot.commands device).andThen fun device =>
      (asyncRestoreCommit w (line (2 + snapshot.commands.length)) snapshot.revision device).andThen
        (asyncStatus (line (3 + snapshot.commands.length)) (checkRestored · snapshot))).2.store) := by
  refine Progress.andThen_keeps (P := fun c => P c.store) ?_ fun c hc => ?_
  · refine asyncImports_keeps (P := fun c => P c.store) (fun saves args c hc => ?_) _ _ _ h
    rw [Cloner.store_rfImport]
    exact himport _ _ _ hc
  · refine Progress.andThen_keeps (P := fun c => P c.store) ?_ fun c hc => hc
    refine asyncRestoreCommit_keeps (P := fun c => P c.store) hc (fun saves source => ?_) _
    rw [Cloner.store_rfRestoreCommit]
    split
    · exact hc
    · exact hcommit _ _ _ hc

end Kept

/-! ## The imports of an open restore -/

/-- The commands whose imports land, from call number `k` on. -/
def offered (w : Wire) (line : Nat → Fate) : Nat → List ExportedCommand → List Command
  | _, [] => []
  | k, command :: commands =>
    (if (line k).lands then ((importArgs w command).map Cloner.ImportArgs.command).toList else [])
      ++ offered w line (k + 1) commands

section Opened

variable {w : Wire} {line : Nat → Fate} {device : Cloner} {cfg : Config} {B : BridgeId}
  {nextId : UInt32} {r : Nat} {kept : List Command} {c : Command}

theorem mem_offered : ∀ {commands : List ExportedCommand} {k : Nat},
    c ∈ offered w line k commands ↔ ∃ i e args, commands[i]? = some e ∧
      importArgs w e = some args ∧ (line (k + i)).lands = true ∧ args.command = c
  | [], k => by simp [offered]
  | command :: commands, k => by
    unfold offered
    rw [List.mem_append, mem_offered]
    constructor
    · rintro (h | ⟨i, e, args, he, hargs, hlands, rfl⟩)
      · split at h
        · rename_i hlands
          rw [Option.mem_toList, Option.map_eq_some_iff] at h
          obtain ⟨args, hargs, rfl⟩ := h
          exact ⟨0, command, args, rfl, hargs, hlands, rfl⟩
        · cases h
      · refine ⟨i + 1, e, args, he, hargs, ?_, rfl⟩
        rw [← hlands]
        congr 2
        omega
    · rintro ⟨i, e, args, he, hargs, hlands, rfl⟩
      cases i with
      | zero =>
        obtain rfl := Option.some.inj he
        have hlands' : (line k).lands = true := hlands
        left
        rw [if_pos hlands', hargs]
        simp
      | succ i =>
        refine Or.inr ⟨i, e, args, he, hargs, ?_, rfl⟩
        rw [← hlands]
        congr 2
        omega

variable (w) in
/-- One import of an open restore. -/
theorem asyncImport_opened (fate : Fate) (command : ExportedCommand)
    (hopened : Opened cfg B nextId device.store) (hholding : Holding r kept device.store) :
    let p := asyncImport w fate command device
    Opened cfg B nextId p.2.store ∧
    (p.1 = .ok () ↔ (importArgs w command).isSome = true ∧ fate.raises = false) ∧
    (p.1 = .ok () → Holding r (Greedy.take (FitsBeside cfg nextId.toNat) kept
      (if fate.lands then ((importArgs w command).map Cloner.ImportArgs.command).toList else []))
        p.2.store) := by
  intro p
  have hp : p = asyncImport w fate command device := rfl
  unfold asyncImport at hp
  cases hargs : importArgs w command with
  | none =>
    rw [hargs] at hp
    rw [hp]
    exact ⟨hopened, by simp, fun hok => nomatch hok⟩
  | some args =>
    rw [hargs] at hp
    have hok : p.1 = .ok () ↔ fate.raises = false := by
      rw [hp]
      exact callAction_ok
    have hstep := hopened.importCommand hholding fate.saves args.command
    have hstore : p.2.store = if fate.delivered then
        ((Op.importCommand args.command).attempt fate.saves device.store).2 else device.store := by
      rw [hp]
      show Cloner.store (if fate.delivered then device.rfImport fate.saves args else device) = _
      rw [apply_ite Cloner.store, Cloner.store_rfImport]
    rw [hok, hstore]
    refine ⟨?_, by simp, fun _ => ?_⟩
    · split
      · exact hstep.1
      · exact hopened
    · unfold Fate.lands
      cases fate.delivered with
      | false => exact hholding
      | true =>
        cases hsaves : fate.saves with
        | false =>
          rw [hsaves] at hstep
          exact hstep.2
        | true =>
          rw [hsaves] at hstep
          have hboth := hstep.2
          simp only [true_and] at hboth
          exact hboth

variable (w line) in
/-- **The imports of an open restore** keep, of the commands whose imports land, those that fit.
    Induction on the commands, with what has been kept so far. -/
theorem asyncImports_opened (commands : List ExportedCommand) (k : Nat)
    (hopened : Opened cfg B nextId device.store) (hholding : Holding r kept device.store) :
    let p := asyncImports w line k commands device
    Opened cfg B nextId p.2.store ∧
    (p.1 = .ok () ↔ ∀ i e, commands[i]? = some e →
      (importArgs w e).isSome = true ∧ (line (k + i)).raises = false) ∧
    (p.1 = .ok () →
      Holding r (Greedy.take (FitsBeside cfg nextId.toNat) kept (offered w line k commands)) p.2.store) := by
  induction commands generalizing k device kept with
  | nil => exact ⟨hopened, ⟨fun _ _ _ he => (nomatch he), fun _ => rfl⟩, fun _ => hholding⟩
  | cons command commands ih =>
    intro p
    obtain ⟨hone, hok, hkept⟩ :=
      asyncImport_opened w (line k) command hopened hholding
    have hp : p = (asyncImport w (line k) command device).andThen (asyncImports w line (k + 1) commands) :=
      rfl
    -- the first import and the others, by the number of the call
    have hsplit : (∀ i e, (command :: commands)[i]? = some e →
        (importArgs w e).isSome = true ∧ (line (k + i)).raises = false) ↔
        ((importArgs w command).isSome = true ∧ (line k).raises = false) ∧
        ∀ i e, commands[i]? = some e →
          (importArgs w e).isSome = true ∧ (line (k + 1 + i)).raises = false := by
      constructor
      · intro h
        refine ⟨h 0 command rfl, fun i e he => ?_⟩
        rw [Nat.add_right_comm]
        exact h (i + 1) e he
      · rintro ⟨hfirst, hrest⟩ i e he
        cases i with
        | zero =>
          obtain rfl := Option.some.inj he
          exact hfirst
        | succ i =>
          have := hrest i e he
          rw [Nat.add_right_comm] at this
          exact this
    rw [hsplit, ← hok]
    by_cases hfirst : (asyncImport w (line k) command device).1 = .ok ()
    · rw [Progress.andThen_of_ok hfirst] at hp
      obtain ⟨hopened', hok', hkept'⟩ := ih (k + 1) hone (hkept hfirst)
      rw [hp]
      refine ⟨hopened', ?_, fun h => ?_⟩
      · rw [hok']
        exact ⟨fun h => ⟨hfirst, h⟩, fun h => h.2⟩
      · rw [offered, Greedy.take_append]
        exact hkept' h
    · -- an import that raises ends the loop, though it may have been saved
      rw [Progress.andThen_of_ne_ok hfirst] at hp
      rw [hp]
      exact ⟨hone, ⟨fun h => absurd h hfirst, fun h => absurd h.1 hfirst⟩, fun h => absurd h hfirst⟩

/-! ## The commit -/

/-- A restore has been committed at a revision, with what was kept. -/
structure Restored (cfg : Config) (B : BridgeId) (nextId : UInt32) (kept : List Command)
    (revision : Nat) (s : CommandStore) : Prop where
  config : s.config = cfg
  writable : s.readOnly = false
  sound : s.Sound
  bridgeId : s.bridgeId = B
  nextCommandId : s.nextCommandId = nextId
  closed : s.restoreState = 0
  commands : s.commands.Perm kept
  revision : s.revision.toNat = revision

/-- **The commit of an open restore** lands if there is a revision after both sequences, and leaves
    the restore open otherwise. -/
theorem attempt_restoreCommit_opened {s : CommandStore} (source : UInt32) (saves : Bool)
    (hopened : Opened cfg B nextId s) (hholding : Holding r kept s) :
    let t := ((Op.restoreCommit source).attempt saves s).2
    (saves = true ∧ source < revisionMax ∧ r + kept.length < revisionMax.toNat ∧
      Restored cfg B nextId kept (max source.toNat (r + kept.length) + 1) t) ∨
    ¬(saves = true ∧ source < revisionMax ∧ r + kept.length < revisionMax.toNat) ∧
      t.restoreState ≠ 0 := by
  intro t
  have hcount := hholding.revision
  let base := if source > s.revision then source else s.revision
  have hbase : base.toNat = max source.toNat s.revision.toNat := toNat_newer source s.revision
  have hroom : (nextRevision base).isSome = true ↔
      source < revisionMax ∧ r + kept.length < revisionMax.toNat := by
    rw [nextRevision_isSome, UInt32.lt_iff_toNat_lt, UInt32.lt_iff_toNat_lt, hbase]
    omega
  have hplan : (Op.restoreCommit source).plan s
      = (nextRevision base).elim (.stop .revisionExhausted) fun rev =>
          .write none { s with restoreState := 0, revision := rev }
            { s with restoreState := 1, revision := s.revision } := by
    show s.restoreCommitPlan source = _
    unfold restoreCommitPlan
    rw [if_neg (by simp [hopened.backend]), if_neg (by simp [hopened.writable]),
      if_neg hopened.opened]
    show _ = (nextRevision (if source > s.revision then source else s.revision)).elim _ _
    cases nextRevision (if source > s.revision then source else s.revision) <;> rfl
  -- either sequence may have run out
  cases hnext : nextRevision base with
  | none =>
    rw [hnext] at hroom hplan
    have hsame : t = s := congrArg Prod.snd (Op.attempt_of_stop hplan saves)
    refine Or.inr ⟨fun h => absurd (hroom.mpr h.2) Bool.false_ne_true, ?_⟩
    rw [hsame]
    exact hopened.opened
  | some rev =>
    rw [hnext] at hroom hplan
    obtain ⟨hsource, hlast⟩ := hroom.mp rfl
    cases saves with
    | false =>
      refine Or.inr ⟨fun h => absurd h.1 Bool.false_ne_true, ?_⟩
      have hundone : t = { s with restoreState := 1, revision := s.revision } :=
        congrArg Prod.snd (Op.attempt_of_write hplan false)
      rw [hundone]
      exact show (1 : UInt8) ≠ 0 by decide
    | true =>
      have hnew : t = { s with restoreState := 0, revision := rev } :=
        congrArg Prod.snd (Op.attempt_of_write hplan true)
      have hsound := (op_next (fun _ => hopened.sound) hplan).1
      obtain ⟨hrev, -⟩ := nextRevision_eq_some hnext
      have hlt : s.revision < revisionMax := by
        rw [UInt32.lt_iff_toNat_lt]
        omega
      rw [hnew]
      refine Or.inl ⟨rfl, hsource, hlast, hopened.config, hopened.writable, hsound, hopened.bridgeId,
        hopened.nextCommandId, rfl, hholding.commands hlt, ?_⟩
      show rev.toNat = _
      omega

variable (w) in
/-- The call for the commit of an open restore, with a revision of the domain. -/
theorem asyncRestoreCommit_opened (fate : Fate) {source : Int}
    (hdomain : 0 ≤ source ∧ source ≤ revisionMaxHass) (hopened : Opened cfg B nextId device.store)
    (hholding : Holding r kept device.store) :
    let p := asyncRestoreCommit w fate source device
    let carried := fate.lands = true ∧ (w.send source).isSome = true ∧
      source < revisionMax.toNat ∧ r + kept.length < revisionMax.toNat
    (carried ∧ Restored cfg B nextId kept (max source.toNat (r + kept.length) + 1) p.2.store) ∨
      ¬ carried ∧ p.2.store.restoreState ≠ 0 := by
  intro p carried
  have hp : p = asyncRestoreCommit w fate source device := rfl
  unfold asyncRestoreCommit at hp
  rw [if_neg (not_not_intro hdomain)] at hp
  cases hsend : w.send source with
  | none =>
    rw [hsend] at hp
    refine Or.inr ⟨fun h => ?_, ?_⟩
    · have := h.2.1
      rw [hsend] at this
      cases this
    · rw [hp]
      exact hopened.opened
  | some arg =>
    rw [hsend] at hp
    have hint : arg.toInt = source := w.send_eq hsend
    have hnat : arg.toUInt32.toNat = source.toNat := toNat_toUInt32_of_toInt (by omega)
    -- the wrapper refuses a negative revision, which the domain rules out
    have hpos : ¬ arg < 0 := by
      rw [Int32.lt_iff_toInt_lt, hint]
      exact Int.not_lt.mpr hdomain.1
    have hstore : p.2.store = if fate.delivered then
        ((Op.restoreCommit arg.toUInt32).attempt fate.saves device.store).2 else device.store := by
      rw [hp]
      show Cloner.store (if fate.delivered then device.rfRestoreCommit fate.saves arg else device) = _
      rw [apply_ite Cloner.store, Cloner.store_rfRestoreCommit, if_neg hpos]
    have hcarried : carried ↔ fate.delivered = true ∧ fate.saves = true ∧
        arg.toUInt32 < revisionMax ∧ r + kept.length < revisionMax.toNat := by
      show (fate.delivered && fate.saves) = true ∧ (w.send source).isSome = true ∧ _ ↔ _
      rw [hsend, Bool.and_eq_true, UInt32.lt_iff_toNat_lt, hnat]
      have := hdomain.1
      constructor
      · rintro ⟨⟨h₁, h₂⟩, -, h₃, h₄⟩
        exact ⟨h₁, h₂, by omega, h₄⟩
      · rintro ⟨h₁, h₂, h₃, h₄⟩
        exact ⟨⟨h₁, h₂⟩, rfl, by omega, h₄⟩
    rw [hcarried, hstore]
    cases fate.delivered with
    | false => exact Or.inr ⟨fun h => (nomatch h.1), hopened.opened⟩
    | true =>
      rcases attempt_restoreCommit_opened arg.toUInt32 fate.saves hopened hholding with ⟨h₂, h₃, h₄, hdone⟩ | ⟨hnot, hstill⟩
      · rw [hnat] at hdone
        exact Or.inl ⟨⟨rfl, h₂, h₃, h₄⟩, hdone⟩
      · exact Or.inr ⟨fun h => hnot h.2, hstill⟩

theorem asyncRestoreCommit_ok {fate : Fate} {source : Int}
    (hdomain : 0 ≤ source ∧ source ≤ revisionMaxHass) :
    (asyncRestoreCommit w fate source device).1 = .ok () ↔
      (w.send source).isSome = true ∧ fate.raises = false := by
  unfold asyncRestoreCommit
  rw [if_neg (not_not_intro hdomain)]
  cases w.send source with
  | none => simp
  | some arg => simp

end Opened

/-! ## The begin -/

/-- A device that a restore can begin on. -/
structure Restorable (s : CommandStore) : Prop where
  backend : s.backend = true
  writable : s.readOnly = false
  sound : s.Sound
  closed : s.restoreState = 0
  empty : s.commands = []

section Begin

variable {w : Wire} {fate : Fate} {device : Cloner} {bridgeId : Str} {nextCommandId : Int}

theorem asyncRestoreBegin_ok : (asyncRestoreBegin w fate bridgeId nextCommandId device).1 = .ok () ↔
    (w.send nextCommandId).isSome = true ∧ fate.raises = false := by
  unfold asyncRestoreBegin
  cases w.send nextCommandId with
  | none => simp
  | some arg => simp

/-- What it takes to begin: the call lands, the identity is one, the next id is not 0, and there is
    a revision. -/
structure Begins (w : Wire) (fate : Fate) (bridgeId : Str) (nextCommandId : Int) (revision : UInt32)
    (arg : Int32) (B : BridgeId) : Prop where
  lands : fate.lands = true
  sent : w.send nextCommandId = some arg
  parsed : parseBridgeId (utf8 bridgeId) = some B
  nonzero : arg.toUInt32 ≠ 0
  room : revision < revisionMax

/-- Every next id but 0 is one to begin with. -/
theorem restoreBeginPlan_of_restorable {s : CommandStore} (h : Restorable s) (B : BridgeId)
    (id : UInt32) : s.restoreBeginPlan B id = if id = 0 then .stop .idConflict else
      match nextRevision s.revision with
      | none => .stop .revisionExhausted
      | some rev => .write none
          { s with bridgeId := B, nextCommandId := id, restoreState := 1, revision := rev } s := by
  have hcount : ¬ s.count ≠ 0 := by
    rw [count_eq, h.empty]
    simp
  have hid : (id < commandIdFirst ∨ id > commandIdLast + 1) ↔ id = 0 := by
    have hlt := id.toNat_lt
    have hfirst : commandIdFirst.toNat = 1 := rfl
    have hlast : (commandIdLast + 1).toNat = 2 ^ 32 - 1 := rfl
    rw [gt_iff_lt, UInt32.lt_iff_toNat_lt, UInt32.lt_iff_toNat_lt, ← UInt32.toNat_inj, hfirst, hlast]
    show _ ↔ id.toNat = 0
    omega
  refine (if_neg (by simp [h.backend])).trans
    ((if_neg (by simp [h.writable])).trans ((if_neg hcount).trans ?_))
  exact if_congr hid rfl rfl

section Attempt

variable {s : CommandStore} {B : BridgeId} {id : UInt32}

theorem restoreBegin_opened (h : Restorable s) (hid : id ≠ 0) (hroom : s.revision < revisionMax) :
    let t := ((Op.restoreBegin B id).attempt true s).2
    Opened s.config B id t ∧ Holding (s.revision.toNat + 1) [] t := by
  intro t
  obtain ⟨rev, hrev⟩ := Option.isSome_iff_exists.mp ((nextRevision_isSome _).mpr hroom)
  have hplan : (Op.restoreBegin B id).plan s = _ := restoreBeginPlan_of_restorable h B id
  rw [if_neg hid, hrev] at hplan
  have hsound := (op_next (fun _ => h.sound) hplan).1
  have hnext : t = _ := congrArg Prod.snd (Op.attempt_of_write hplan true)
  rw [hnext]
  refine ⟨⟨rfl, h.backend, h.writable, hsound, rfl, rfl, ?_⟩, ?_, ?_⟩
  · exact show (1 : UInt8) ≠ 0 by decide
  · have hlt := UInt32.lt_iff_toNat_lt.mp hroom
    show rev.toNat = min _ (s.revision.toNat + 1 + 0)
    rw [(nextRevision_eq_some hrev).1]
    omega
  · intro _
    show s.commands.Perm []
    rw [h.empty]

theorem restoreBegin_same (h : Restorable s) {saves : Bool}
    (hnot : ¬(saves = true ∧ id ≠ 0 ∧ s.revision < revisionMax)) :
    ((Op.restoreBegin B id).attempt saves s).2 = s := by
  have hplan : (Op.restoreBegin B id).plan s = _ := restoreBeginPlan_of_restorable h B id
  by_cases hid : id = 0
  · rw [if_pos hid] at hplan
    exact congrArg Prod.snd (Op.attempt_of_stop hplan saves)
  · rw [if_neg hid] at hplan
    cases hrev : nextRevision s.revision with
    | none =>
      rw [hrev] at hplan
      exact congrArg Prod.snd (Op.attempt_of_stop hplan saves)
    | some rev =>
      rw [hrev] at hplan
      have hroom := (nextRevision_isSome _).mp (Option.isSome_of_eq_some hrev)
      have hfails : saves = false := Bool.eq_false_iff.mpr fun hsaves => hnot ⟨hsaves, hid, hroom⟩
      rw [hfails]
      exact congrArg Prod.snd (Op.attempt_of_write hplan false)

end Attempt

variable (w fate bridgeId nextCommandId) in
/-- **The begin** opens a restore, or nothing happens. -/
theorem asyncRestoreBegin_cases (h : Restorable device.store) :
    let p := asyncRestoreBegin w fate bridgeId nextCommandId device
    (∃ arg B, Begins w fate bridgeId nextCommandId device.store.revision arg B ∧
      Opened device.store.config B arg.toUInt32 p.2.store ∧
      Holding (device.store.revision.toNat + 1) [] p.2.store) ∨
    (∀ arg B, ¬ Begins w fate bridgeId nextCommandId device.store.revision arg B) ∧
      p.2.store = device.store := by
  intro p
  have hp : p = asyncRestoreBegin w fate bridgeId nextCommandId device := rfl
  unfold asyncRestoreBegin at hp
  cases hsend : w.send nextCommandId with
  | none =>
    rw [hsend] at hp
    refine Or.inr ⟨fun arg B hbegins => ?_, by rw [hp]⟩
    cases hsend.symm.trans hbegins.sent
  | some arg =>
    rw [hsend] at hp
    have hstore : p.2.store = if fate.delivered then
        ((parseBridgeId (utf8 bridgeId)).elim device.store fun id =>
          ((Op.restoreBegin id arg.toUInt32).attempt fate.saves device.store).2)
        else device.store := by
      rw [hp]
      unfold callAction
      cases fate.delivered with
      | false => rfl
      | true =>
        refine (device.store_rfRestoreBegin fate.saves (utf8 bridgeId) arg).trans ?_
        cases parseBridgeId (utf8 bridgeId) <;> rfl
    by_cases hbegins : ∃ B, Begins w fate bridgeId nextCommandId device.store.revision arg B
    · obtain ⟨B, hbegins⟩ := hbegins
      obtain ⟨hdelivered, hsaves⟩ := Bool.and_eq_true_iff.mp hbegins.lands
      rw [hdelivered, if_pos rfl, hbegins.parsed, hsaves] at hstore
      rw [hstore]
      exact Or.inl ⟨arg, B, hbegins, restoreBegin_opened h hbegins.nonzero hbegins.room⟩
    · refine Or.inr ⟨fun arg' B hother => ?_, ?_⟩
      · obtain rfl := Option.some.inj (hsend.symm.trans hother.sent)
        exact hbegins ⟨B, hother⟩
      · rw [hstore]
        cases hdelivered : fate.delivered with
        | false => rfl
        | true =>
          rw [if_pos rfl]
          cases hparse : parseBridgeId (utf8 bridgeId) with
          | none => rfl
          | some B =>
            refine restoreBegin_same h fun hopens => hbegins ⟨B, ?_, hsend, hparse, hopens.2.1,
              hopens.2.2⟩
            exact Bool.and_eq_true_iff.mpr ⟨hdelivered, hopens.1⟩

end Begin

/-! ## The whole restore -/

/-- The checks that pass. -/
theorem checkRestoreTarget_ok {status : BridgeStatus} {snapshot : Snapshot} :
    checkRestoreTarget status snapshot = .ok () ↔
      status.readOnly = false ∧ status.restoreIncomplete = false ∧ status.count = 0 ∧
      (snapshot.commands.length : Int) ≤ status.maxCommands ∧
      (∀ e ∈ snapshot.commands, (e.timings.length : Int) ≤ status.maxPulses) ∧
      0 ≤ snapshot.revision ∧ snapshot.revision ≤ revisionMaxHass := by
  have hoversized : oversized status snapshot = [] ↔
      ∀ e ∈ snapshot.commands, (e.timings.length : Int) ≤ status.maxPulses := by
    simp [oversized]
  unfold checkRestoreTarget
  constructor
  · intro h
    split at h
    · cases h
    rename_i hwritable
    split at h
    · cases h
    rename_i hclosed
    split at h
    · cases h
    rename_i hempty
    split at h
    · cases h
    rename_i hslots
    split at h
    · cases h
    rename_i hpulses
    split at h
    · cases h
    rename_i hdomain
    exact ⟨Bool.eq_false_iff.mpr hwritable, Bool.eq_false_iff.mpr hclosed, not_not.mp hempty,
      Int.not_lt.mp hslots, hoversized.mp (not_not.mp hpulses), not_not.mp hdomain⟩
  · rintro ⟨h₁, h₂, h₃, h₄, h₅, h₆⟩
    rw [if_neg (by simp [h₁]), if_neg (by simp [h₂]), if_neg (not_not_intro h₃),
      if_neg (Int.not_lt.mpr h₄), if_neg (not_not_intro (hoversized.mpr h₅)),
      if_neg (not_not_intro h₆)]

/-- An argument without its sign. -/
theorem toNat_toUInt32_emod (arg : Int32) : arg.toUInt32.toNat = (arg.toInt % 2 ^ 32).toNat := by
  have hcond := BitVec.toInt_eq_toNat_cond arg.toBitVec
  have hlt := arg.toBitVec.isLt
  show arg.toBitVec.toNat = (arg.toBitVec.toInt % 2 ^ 32).toNat
  split at hcond <;> omega

/-- The next id of a snapshot, as the device takes it. -/
def nextOnDevice (snapshot : Snapshot) : Nat := (snapshot.nextCommandId % 2 ^ 32).toNat

/-- What the imports of a snapshot leave on a device: of the commands whose imports land, those that
    fit beside what was kept before them. -/
def keptOf (w : Wire) (line : Nat → Fate) (snapshot : Snapshot) (cfg : Config) : List Command :=
  Greedy.take (FitsBeside cfg (nextOnDevice snapshot)) [] (offered w line 2 snapshot.commands)

/-- The restore goes as far as a commit that lands: the first status is answered; the begin lands,
    under the identity of the snapshot, and does not raise; no import raises; and the commit lands, on
    a device that has a revision for it. -/
structure Commits (w : Wire) (line : Nat → Fate) (snapshot : Snapshot) (s : CommandStore) : Prop where
  answered : (line 0).raises = false
  begun : ∃ arg B, Begins w (line 1) snapshot.bridgeId snapshot.nextCommandId s.revision arg B ∧
    B.hex = snapshot.bridgeId
  continued : (line 1).raises = false
  imported : ∀ i e, snapshot.commands[i]? = some e →
    (importArgs w e).isSome = true ∧ (line (2 + i)).raises = false
  lands : (line (2 + snapshot.commands.length)).lands = true
  sent : (w.send snapshot.revision).isSome = true
  advances : snapshot.revision < revisionMax.toNat ∧
    s.revision.toNat + 1 + (keptOf w line snapshot s.config).length < revisionMax.toNat

section Whole

variable {w : Wire} {line : Nat → Fate} {device : Cloner} {snapshot : Snapshot}

/-- The restore up to the commit. -/
theorem asyncRestore_of_begun (hcheck : checkRestoreTarget device.rfStatus snapshot = .ok ())
    (hanswered : (line 0).raises = false) :
    asyncRestore w line snapshot device
      = (asyncRestoreBegin w (line 1) snapshot.bridgeId snapshot.nextCommandId device).andThen
        fun device => (asyncImports w line 2 snapshot.commands device).andThen fun device =>
          (asyncRestoreCommit w (line (2 + snapshot.commands.length)) snapshot.revision device).andThen
            (asyncStatus (line (3 + snapshot.commands.length)) (checkRestored · snapshot)) := by
  refine Progress.andThen_of_ok ?_
  unfold asyncStatus
  rw [hanswered]
  exact hcheck

theorem asyncRestore_of_not_answered (hanswered : (line 0).raises = true) :
    (asyncRestore w line snapshot device).2 = device := by
  unfold asyncRestore
  rw [Progress.andThen_of_ne_ok]
  · rfl
  · unfold asyncStatus
    rw [hanswered]
    exact fun h => nomatch h

/-- Reading the status changes nothing. -/
theorem andThen_asyncStatus {progress : Progress} {fate : Fate}
    {check : BridgeStatus → Except RestoreError Unit} :
    (progress.andThen (asyncStatus fate check)).2 = progress.2 :=
  Progress.andThen_keeps (P := fun c => c = progress.2) rfl fun _ hc => hc

/-- A restore that has not begun leaves the device alone. -/
theorem afterBegin_of_closed (hclosed : device.store.restoreState = 0) :
    ((asyncImports w line 2 snapshot.commands device).andThen fun device =>
      (asyncRestoreCommit w (line (2 + snapshot.commands.length)) snapshot.revision device).andThen
        (asyncStatus (line (3 + snapshot.commands.length)) (checkRestored · snapshot))).2.store
      = device.store := by
  refine afterBegin_keeps (P := fun t => t = device.store) ?_ ?_ rfl
  · rintro saves c t rfl
    exact (Op.attempt_importCommand saves c device.store).2 hclosed
  · rintro saves source t rfl
    exact (Op.attempt_restoreCommit saves source device.store).2 hclosed

/-- Nothing after the begin changes the identity. -/
theorem bridgeId_afterBegin :
    ((asyncImports w line 2 snapshot.commands device).andThen fun device =>
      (asyncRestoreCommit w (line (2 + snapshot.commands.length)) snapshot.revision device).andThen
        (asyncStatus (line (3 + snapshot.commands.length)) (checkRestored · snapshot))).2.store.bridgeId
      = device.store.bridgeId :=
  afterBegin_keeps (P := fun t => t.bridgeId = device.store.bridgeId)
    (fun saves c t ht => (Op.attempt_importCommand saves c t).1.trans ht)
    (fun saves source t ht => (Op.attempt_restoreCommit saves source t).1.trans ht) rfl

variable (w line) in
/-- **The imports and the commit of an open restore.** -/
theorem afterBegin_opened {cfg : Config} {B : BridgeId} {nextId : UInt32} {r : Nat}
    (hopened : Opened cfg B nextId device.store) (hholding : Holding r [] device.store)
    (hdomain : 0 ≤ snapshot.revision ∧ snapshot.revision ≤ revisionMaxHass) :
    let kept := Greedy.take (FitsBeside cfg nextId.toNat) [] (offered w line 2 snapshot.commands)
    let imported := ∀ i e, snapshot.commands[i]? = some e →
      (importArgs w e).isSome = true ∧ (line (2 + i)).raises = false
    let carried := (line (2 + snapshot.commands.length)).lands = true ∧
      (w.send snapshot.revision).isSome = true ∧ snapshot.revision < revisionMax.toNat ∧
      r + kept.length < revisionMax.toNat
    let s := ((asyncImports w line 2 snapshot.commands device).andThen fun device =>
      (asyncRestoreCommit w (line (2 + snapshot.commands.length)) snapshot.revision device).andThen
        (asyncStatus (line (3 + snapshot.commands.length)) (checkRestored · snapshot))).2.store
    (imported ∧ carried ∧
      Restored cfg B nextId kept (max snapshot.revision.toNat (r + kept.length) + 1) s) ∨
    ¬(imported ∧ carried) ∧ s.restoreState ≠ 0 := by
  intro kept imported carried s
  obtain ⟨hstill, hok, hkept⟩ :=
    asyncImports_opened w line snapshot.commands 2 hopened hholding
  by_cases himported : imported
  · have hs : s = (asyncRestoreCommit w (line (2 + snapshot.commands.length)) snapshot.revision
        (asyncImports w line 2 snapshot.commands device).2).2.store :=
      (congrArg (fun p : Progress => p.2.store) (Progress.andThen_of_ok (hok.mpr himported))).trans
        (congrArg Cloner.store andThen_asyncStatus)
    rw [hs]
    rcases asyncRestoreCommit_opened w (line (2 + snapshot.commands.length)) hdomain hstill
      (hkept (hok.mpr himported)) with ⟨hcarried, hdone⟩ | ⟨hnot, hopen⟩
    · exact Or.inl ⟨himported, hcarried, hdone⟩
    · exact Or.inr ⟨fun hboth => hnot hboth.2, hopen⟩
  · refine Or.inr ⟨fun hboth => himported hboth.1, ?_⟩
    have hs : s = (asyncImports w line 2 snapshot.commands device).2.store :=
      congrArg (fun p : Progress => p.2.store)
        (Progress.andThen_of_ne_ok fun h => himported (hok.mp h))
    rw [hs]
    exact hstill.opened

variable (w line) in
/-- **What a restore does to a device it is begun on.**  Either it commits what was kept, or the
    device is still under its own identity, or under one that is not that of the snapshot, or its
    restore is open. -/
theorem asyncRestore_cases (h : Restorable device.store)
    (hcheck : checkRestoreTarget device.rfStatus snapshot = .ok ()) :
    let s := (asyncRestore w line snapshot device).2.store
    (Commits w line snapshot device.store ∧ ∃ B nextId, B.hex = snapshot.bridgeId ∧
      nextId.toNat = nextOnDevice snapshot ∧
      Restored device.store.config B nextId (keptOf w line snapshot device.store.config)
        (max snapshot.revision.toNat (device.store.revision.toNat + 1
          + (keptOf w line snapshot device.store.config).length) + 1) s) ∨
    ¬ Commits w line snapshot device.store ∧ (s.bridgeId = device.store.bridgeId ∨
      s.bridgeId.hex ≠ snapshot.bridgeId ∨ s.restoreState ≠ 0) := by
  intro s
  obtain ⟨-, -, -, -, -, hdomain⟩ := checkRestoreTarget_ok.mp hcheck
  cases hanswered : (line 0).raises with
  | true =>
    have hsame : s = device.store := congrArg Cloner.store (asyncRestore_of_not_answered hanswered)
    refine Or.inr ⟨fun hcommits => ?_, Or.inl (by rw [hsame])⟩
    exact Bool.false_ne_true (hcommits.answered.symm.trans hanswered)
  | false =>
    have hrest : s = ((asyncRestoreBegin w (line 1) snapshot.bridgeId snapshot.nextCommandId
        device).andThen _).2.store :=
      congrArg (fun p => p.2.store) (asyncRestore_of_begun hcheck hanswered)
    rcases asyncRestoreBegin_cases w (line 1) snapshot.bridgeId snapshot.nextCommandId h
      with ⟨arg, B, hbegins, hopened, hholding⟩ | ⟨hnot, hsame⟩
    · by_cases hcontinued : (line 1).raises = false
      · have hok : (asyncRestoreBegin w (line 1) snapshot.bridgeId snapshot.nextCommandId device).1
            = .ok () := asyncRestoreBegin_ok.mpr ⟨Option.isSome_of_eq_some hbegins.sent, hcontinued⟩
        rw [Progress.andThen_of_ok hok] at hrest
        by_cases hid : B.hex = snapshot.bridgeId
        · have hnext : arg.toUInt32.toNat = nextOnDevice snapshot := by
            rw [toNat_toUInt32_emod, w.send_eq hbegins.sent]
            rfl
          rw [hrest]
          rcases afterBegin_opened w line hopened hholding hdomain with
            ⟨himported, ⟨hlands, hsent, hfirst, hsecond⟩, hdone⟩ | ⟨hnot, hopen⟩
          · rw [hnext] at hsecond hdone
            exact Or.inl ⟨⟨hanswered, ⟨arg, B, hbegins, hid⟩, hcontinued, himported, hlands, hsent,
              hfirst, hsecond⟩, B, arg.toUInt32, hid, hnext, hdone⟩
          · refine Or.inr ⟨fun hcommits => hnot ⟨hcommits.imported, hcommits.lands, hcommits.sent,
              hcommits.advances.1, ?_⟩, Or.inr (Or.inr hopen)⟩
            rw [hnext]
            exact hcommits.advances.2
        · refine Or.inr ⟨fun hcommits => ?_, Or.inr (Or.inl ?_)⟩
          · obtain ⟨_, B', hbegins', hid'⟩ := hcommits.begun
            obtain rfl := Option.some.inj (hbegins.parsed.symm.trans hbegins'.parsed)
            exact hid hid'
          · rw [hrest, bridgeId_afterBegin, hopened.bridgeId]
            exact hid
      · refine Or.inr ⟨fun hcommits => hcontinued hcommits.continued, Or.inr (Or.inr ?_)⟩
        rw [hrest, Progress.andThen_of_ne_ok fun hok => hcontinued (asyncRestoreBegin_ok.mp hok).2]
        exact hopened.opened
    · refine Or.inr ⟨fun hcommits => ?_, Or.inl ?_⟩
      · obtain ⟨arg, B, hbegins, -⟩ := hcommits.begun
        exact hnot arg B hbegins
      · rw [hrest]
        refine congrArg CommandStore.bridgeId (Progress.andThen_keeps
          (P := fun c => c.store = device.store) hsame fun c hc => ?_)
        rw [afterBegin_of_closed (by rw [hc]; exact h.closed), hc]

/-- What a restore that commits ends with, when neither the commit nor the last status raises. -/
theorem asyncRestore_result (h : Restorable device.store)
    (hcheck : checkRestoreTarget device.rfStatus snapshot = .ok ())
    (hcommits : Commits w line snapshot device.store)
    (hcommit : (line (2 + snapshot.commands.length)).raises = false)
    (hlast : (line (3 + snapshot.commands.length)).raises = false) :
    (asyncRestore w line snapshot device).1
      = checkRestored (asyncRestore w line snapshot device).2.rfStatus snapshot := by
  obtain ⟨-, -, -, -, -, hdomain⟩ := checkRestoreTarget_ok.mp hcheck
  obtain ⟨arg, B, hbegins, -⟩ := hcommits.begun
  rcases asyncRestoreBegin_cases w (line 1) snapshot.bridgeId snapshot.nextCommandId h
    with ⟨arg, B, -, hopened, hholding⟩ | ⟨hnot, -⟩
  · have hbegin : (asyncRestoreBegin w (line 1) snapshot.bridgeId snapshot.nextCommandId device).1
        = .ok () :=
      asyncRestoreBegin_ok.mpr ⟨Option.isSome_of_eq_some hbegins.sent, hcommits.continued⟩
    obtain ⟨-, himports, -⟩ := asyncImports_opened w line snapshot.commands 2 hopened hholding
    have himport := himports.mpr hcommits.imported
    rw [asyncRestore_of_begun hcheck hcommits.answered, Progress.andThen_of_ok hbegin,
      Progress.andThen_of_ok himport,
      Progress.andThen_of_ok ((asyncRestoreCommit_ok hdomain).mpr ⟨hcommits.sent, hcommit⟩)]
    unfold asyncStatus
    rw [hlast]
    rfl
  · exact absurd hbegins (hnot arg B)

end Whole

end RfCloner
