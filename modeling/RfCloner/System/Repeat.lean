/-
  Repeating a restore that was interrupted.

  The first run stops at some call, and the device may restart before the flow is run again.  Once
  the begin has landed the device is under the identity of the entry, so that the second flow takes it
  for the bridge: it binds the entry to it and reports success, and the restore stays as it is.
  `repeat_recovers_iff` says when the second flow is right nevertheless.

  A restart reads the flash, so the operations of the first run are followed there as well
  (`restoreOps`): `Since` is what becomes of RAM and flash.
-/
import RfCloner.System.Reconfigure

namespace RfCloner

open CommandStore StorageBackend

/-! ## What the first run attempts -/

/-- The operation of a call that is delivered, with whether its saves land. -/
def Fate.attempts (fate : Fate) (op : Option Op) : List (Bool × Op) :=
  if fate.delivered then (op.map fun op => (fate.saves, op)).toList else []

/-- The operation behind `rf_restore_begin`, if its arguments are carried and the identity is one. -/
def restoreBeginOp (w : Wire) (snapshot : Snapshot) : Option Op := do
  let next ← w.send snapshot.nextCommandId
  let id ← parseBridgeId (utf8 snapshot.bridgeId)
  return .restoreBegin id next.toUInt32

/-- The operation behind `rf_import`. -/
def importOp (w : Wire) (command : ExportedCommand) : Option Op :=
  (importArgs w command).map fun args => .importCommand args.command

/-- The operation behind `rf_restore_commit`. -/
def restoreCommitOp (w : Wire) (snapshot : Snapshot) : Option Op := do
  let source ← w.send snapshot.revision
  if source < 0 then none else return .restoreCommit source.toUInt32

/-- What the imports attempt from call number `k` on, and what comes after them. -/
def importOps (w : Wire) (line : Nat → Fate) (rest : List (Bool × Op)) :
    Nat → List ExportedCommand → List (Bool × Op)
  | _, [] => rest
  | k, command :: commands =>
    (line k).attempts (importOp w command) ++
      if (importArgs w command).isSome && !(line k).raises then importOps w line rest (k + 1) commands
      else []

/-- What `async_restore` makes a device attempt that passes the checks. -/
def restoreOps (w : Wire) (line : Nat → Fate) (snapshot : Snapshot) : List (Bool × Op) :=
  if (line 0).raises then []
  else
    (line 1).attempts (restoreBeginOp w snapshot) ++
      if (w.send snapshot.nextCommandId).isSome && !(line 1).raises then
        importOps w line ((line (2 + snapshot.commands.length)).attempts (restoreCommitOp w snapshot))
          2 snapshot.commands
      else []

/-- The store after the attempts. -/
def attempted (s : CommandStore) (ops : List (Bool × Op)) : CommandStore :=
  ops.foldl (fun s a => (a.2.attempt a.1 s).2) s

section Attempted

variable {w : Wire} {line : Nat → Fate} {fate : Fate} {snapshot : Snapshot} {device : Cloner}
  {s : CommandStore}

theorem attempted_attempts (op : Option Op) : attempted s (fate.attempts op) =
    if fate.delivered then op.elim s fun op => (op.attempt fate.saves s).2 else s := by
  unfold Fate.attempts
  cases fate.delivered with
  | false => rfl
  | true => cases op <;> rfl

/-- A call, and what comes after it if it does not raise. -/
theorem store_andThen {p : Progress} {next : Cloner → Progress} {ops rest : List (Bool × Op)}
    {goes : Bool} (hstore : p.2.store = attempted s ops) (hok : p.1 = .ok () ↔ goes = true)
    (hnext : ∀ c : Cloner, (next c).2.store = attempted c.store rest) :
    (p.andThen next).2.store = attempted s (ops ++ if goes then rest else []) := by
  unfold attempted at hstore ⊢
  rw [List.foldl_append, ← hstore]
  by_cases h : p.1 = .ok ()
  · rw [Progress.andThen_of_ok h, if_pos (hok.mp h)]
    exact hnext p.2
  · rw [Progress.andThen_of_ne_ok h, if_neg fun hgoes => h (hok.mpr hgoes)]
    rfl

theorem store_asyncRestoreBegin (device : Cloner) :
    (asyncRestoreBegin w fate snapshot.bridgeId snapshot.nextCommandId device).2.store
      = attempted device.store (fate.attempts (restoreBeginOp w snapshot)) := by
  rw [attempted_attempts]
  unfold asyncRestoreBegin restoreBeginOp
  cases w.send snapshot.nextCommandId with
  | none => exact (ite_self _).symm
  | some next =>
    show Cloner.store (if fate.delivered then _ else device) = _
    rw [apply_ite Cloner.store, Cloner.store_rfRestoreBegin]
    cases parseBridgeId (utf8 snapshot.bridgeId) <;> rfl

theorem store_asyncImport (command : ExportedCommand) (device : Cloner) :
    (asyncImport w fate command device).2.store
      = attempted device.store (fate.attempts (importOp w command)) := by
  rw [attempted_attempts]
  unfold asyncImport importOp
  cases importArgs w command with
  | none => exact (ite_self _).symm
  | some args =>
    show Cloner.store (if fate.delivered then _ else device) = _
    rw [apply_ite Cloner.store, Cloner.store_rfImport]
    rfl

theorem store_asyncRestoreCommit
    (hdomain : 0 ≤ snapshot.revision ∧ snapshot.revision ≤ revisionMaxHass) (device : Cloner) :
    (asyncRestoreCommit w fate snapshot.revision device).2.store
      = attempted device.store (fate.attempts (restoreCommitOp w snapshot)) := by
  rw [attempted_attempts]
  unfold asyncRestoreCommit restoreCommitOp
  rw [if_neg (not_not_intro hdomain)]
  cases w.send snapshot.revision with
  | none => exact (ite_self _).symm
  | some source =>
    show Cloner.store (if fate.delivered then _ else device) = _
    rw [apply_ite Cloner.store, Cloner.store_rfRestoreCommit]
    by_cases hneg : source < 0
    · simp [hneg]
    · simp [hneg]

/-- The imports, by induction on the commands. -/
theorem store_asyncImports {next : Cloner → Progress} {rest : List (Bool × Op)}
    (hnext : ∀ c : Cloner, (next c).2.store = attempted c.store rest)
    (commands : List ExportedCommand) (k : Nat) (device : Cloner) :
    ((asyncImports w line k commands device).andThen next).2.store
      = attempted device.store (importOps w line rest k commands) := by
  induction commands generalizing k device with
  | nil => exact hnext device
  | cons command commands ih =>
    have hassoc : (asyncImports w line k (command :: commands) device).andThen next
        = (asyncImport w (line k) command device).andThen fun c =>
          (asyncImports w line (k + 1) commands c).andThen next := by
      show ((asyncImport w (line k) command device).andThen _).andThen next = _
      by_cases h : (asyncImport w (line k) command device).1 = .ok ()
      · rw [Progress.andThen_of_ok h, Progress.andThen_of_ok h]
      · rw [Progress.andThen_of_ne_ok h, Progress.andThen_of_ne_ok h, Progress.andThen_of_ne_ok h]
    rw [hassoc]
    refine store_andThen (store_asyncImport command device) ?_ fun c => ih (k + 1) c
    rw [asyncImport_ok]
    simp

variable (w line) in
/-- **What a restore leaves in RAM** is what its operations make of it. -/
theorem store_asyncRestore (hcheck : checkRestoreTarget device.rfStatus snapshot = .ok ()) :
    (asyncRestore w line snapshot device).2.store
      = attempted device.store (restoreOps w line snapshot) := by
  obtain ⟨-, -, -, -, -, hdomain⟩ := checkRestoreTarget_ok.mp hcheck
  unfold restoreOps
  cases hanswered : (line 0).raises with
  | true =>
    rw [asyncRestore_of_not_answered hanswered]
    rfl
  | false =>
    rw [asyncRestore_of_begun hcheck hanswered]
    refine store_andThen (store_asyncRestoreBegin device) ?_ fun c => ?_
    · rw [asyncRestoreBegin_ok]
      simp
    · refine store_asyncImports (fun c => ?_) snapshot.commands 2 c
      rw [andThen_asyncStatus]
      exact store_asyncRestoreCommit hdomain c

/-- There are no other operations. -/
theorem mem_restoreOps {P : Op → Prop} (hbegin : ∀ B id, P (.restoreBegin B id))
    (himport : ∀ c, P (.importCommand c)) (hcommit : ∀ source, P (.restoreCommit source)) :
    ∀ a ∈ restoreOps w line snapshot, P a.2 := by
  have hattempts {fate : Fate} {op : Option Op} (hop : ∀ o, op = some o → P o) :
      ∀ a ∈ fate.attempts op, P a.2 := by
    intro a ha
    unfold Fate.attempts at ha
    split at ha
    · rw [Option.mem_toList, Option.map_eq_some_iff] at ha
      obtain ⟨o, ho, rfl⟩ := ha
      exact hop o ho
    · cases ha
  have hlater {p : Bool} {l : List (Bool × Op)} (hl : ∀ a ∈ l, P a.2) :
      ∀ a ∈ if p then l else [], P a.2 := by
    intro a ha
    split at ha
    · exact hl a ha
    · cases ha
  have hlast : ∀ a ∈ (line (2 + snapshot.commands.length)).attempts (restoreCommitOp w snapshot), P a.2 := by
    refine hattempts fun o ho => ?_
    obtain ⟨source, -, ho⟩ := Option.bind_eq_some_iff.mp ho
    split at ho
    · cases ho
    · obtain rfl := Option.some.inj ho
      exact hcommit _
  have himports (rest : List (Bool × Op)) (hrest : ∀ a ∈ rest, P a.2) :
      ∀ (commands : List ExportedCommand) (k : Nat), ∀ a ∈ importOps w line rest k commands, P a.2 := by
    intro commands
    induction commands with
    | nil => exact fun _ => hrest
    | cons command commands ih =>
      intro k a ha
      rcases List.mem_append.mp ha with ha | ha
      · refine hattempts (fun o ho => ?_) a ha
        obtain ⟨args, -, rfl⟩ := Option.map_eq_some_iff.mp ho
        exact himport _
      · exact hlater (ih (k + 1)) a ha
  intro a ha
  unfold restoreOps at ha
  split at ha
  · cases ha
  · rcases List.mem_append.mp ha with ha | ha
    · refine hattempts (fun o ho => ?_) a ha
      obtain ⟨next, -, ho⟩ := Option.bind_eq_some_iff.mp ho
      obtain ⟨id, -, ho⟩ := Option.bind_eq_some_iff.mp ho
      obtain rfl := Option.some.inj ho
      exact hbegin _ _
    · exact hlater (himports _ hlast _ _) a ha

end Attempted

/-! ## RAM and flash -/

namespace Session

/-- An operation all of whose saves land, or none. -/
def attempt (x : Session) (a : Bool × Op) : Session := step (fun _ => a.1) x (.op a.2)

/-- The device restarts, if it does, with the random bytes it is offered. -/
def restarted (x : Session) : Option (Option BridgeId) → Session
  | none => x
  | some random => boot (fun _ => true) x.store.config random x.flash

/-- What is in RAM has been written. -/
structure Backed (x : Session) : Prop where
  coherent : Coherent x.store x.flash.records
  restores : Restores x.store.config x.flash.records x.store.registry

/-- What has become of `x`: nothing, or it has been written at a later revision. -/
inductive Since (x y : Session) : Prop where
  | same (hstore : y.store = x.store) (hflash : y.flash.records = x.flash.records)
  | written (hlater : x.store.revision < y.store.revision) (hbacked : Backed y)

section Since

variable {x y : Session} {a : Bool × Op}

/-- All of the saves land, or the flash is as it was. -/
theorem attempt_cases {payload : Option Nat} {next undone : CommandStore}
    (hplan : a.2.plan y.store = .write payload next undone) :
    (a.1 = true ∧ (a.2.run (faulty fun _ => a.1) y.store y.flash).1 = .ok ∧
      (y.attempt a).store = next) ∨
    (a.1 = false ∧ (y.attempt a).store = undone ∧ (y.attempt a).flash.records = y.flash.records) := by
  obtain ⟨n, -, hrec, hok, hfail, hbefore⟩ :=
    saveAll_faulty (fun _ => a.1) (next.records payload) y.flash
  have hrun := run_of_write (faulty fun _ => a.1) hplan y.flash
  have hpos : 0 < (next.records payload).length := by
    rw [CommandStore.records, List.length_append]
    exact Nat.add_pos_right _ (show 0 < 2 by decide)
  cases hsuccess : ((faulty fun _ => a.1).saveAll (next.records payload) y.flash).1 with
  | true =>
    rw [if_pos hsuccess] at hrun
    refine Or.inl ⟨hbefore 0 (by rw [hok hsuccess]; exact hpos), congrArg Prod.fst hrun, ?_⟩
    exact congrArg (fun out => out.2.1) hrun
  | false =>
    rw [if_neg (by rw [hsuccess]; exact Bool.false_ne_true)] at hrun
    obtain ⟨-, hnone⟩ := hfail hsuccess
    -- the first save has failed already
    have hn : n = 0 := by
      by_contra hne
      exact Bool.false_ne_true (hnone.symm.trans (hbefore 0 (Nat.pos_of_ne_zero hne)))
    rw [hn, List.take_zero, Records.apply_nil] at hrec
    refine Or.inr ⟨hnone, congrArg (fun out => out.2.1) hrun, ?_⟩
    rw [← hrec]
    exact congrArg (fun out => out.2.2.records) hrun

/-- **One operation**, on a device that has been empty or written. -/
theorem Since.attempt (hx : Coherent x.store x.flash.records) (hpos : y.store.config.maxCommands ≠ 0)
    (hsound : y.store.readOnly = false → y.store.Sound) (hreset : ∀ random, a.2 ≠ .factoryReset random)
    (h : Since x y) :
    Since x (y.attempt a) ∧ (y.attempt a).store = (a.2.attempt a.1 y.store).2 ∧
      (y.attempt a).store.config = y.store.config := by
  have hcoherent : Coherent y.store y.flash.records := by
    rcases h with ⟨hstore, hflash⟩ | ⟨-, hbacked⟩
    · rw [hstore, hflash]
      exact hx
    · exact hbacked.coherent
  cases hplan : a.2.plan y.store with
  | stop result =>
    have hsame : y.attempt a = y := step_of_stop _ hplan
    rw [hsame, Op.attempt_of_stop hplan]
    exact ⟨h, rfl, rfl⟩
  | write payload next undone =>
    obtain ⟨hro, hchange, rfl⟩ := (op_change hsound hplan).resolve_right
      fun ⟨random, hop, _⟩ => hreset random hop
    have hlt := hchange.revision_lt (hsound hro)
    rw [Op.attempt_of_write hplan]
    rcases attempt_cases hplan with ⟨hsaves, hok, hstore⟩ | ⟨hsaves, hstore, hflash⟩
    · obtain ⟨-, hrestores, hcoherent'⟩ := op_restores hsound hpos (fun _ => hcoherent) hplan hok
      rw [hsaves, if_pos rfl, hstore]
      refine ⟨.written ?_ ⟨?_, ?_⟩, rfl, hchange.config.1⟩
      · rw [hstore]
        rcases h with ⟨hsame, -⟩ | ⟨hlater, -⟩
        · rw [← hsame]
          exact hlt
        · exact UInt32.lt_trans hlater hlt
      · rw [hstore]
        exact hcoherent'
      · rw [hstore]
        exact hrestores
    · rw [hsaves, if_neg Bool.false_ne_true, hstore]
      refine ⟨?_, rfl, rfl⟩
      rcases h with ⟨hsame, hrecords⟩ | ⟨hlater, hcoh, hrestores⟩
      · exact .same (hstore.trans hsame) (hflash.trans hrecords)
      · refine .written ?_ ⟨?_, ?_⟩
        · rw [hstore]
          exact hlater
        · rw [hstore, hflash]
          exact hcoh
        · rw [hstore, hflash]
          exact hrestores

/-- **A whole run of them.** -/
theorem Since.attempts (hx : Coherent x.store x.flash.records) {ops : List (Bool × Op)}
    (hops : ∀ a ∈ ops, ∀ random, a.2 ≠ .factoryReset random) {y : Session} (hfounded : Founded y)
    (hpos : y.store.config.maxCommands ≠ 0) (h : Since x y) :
    let z := ops.foldl Session.attempt y
    Since x z ∧ z.store = attempted y.store ops ∧ Founded z ∧ z.store.config = y.store.config := by
  induction ops generalizing y with
  | nil => exact ⟨h, rfl, hfounded, rfl⟩
  | cons a ops ih =>
    have hop : Founded (y.attempt a) := hfounded.op a.2
    obtain ⟨hnext, hstore, hconfig⟩ :=
      h.attempt hx hpos hfounded.ram (hops a List.mem_cons_self)
    obtain ⟨hsince, hattempted, hfounded', hconfig'⟩ := ih
      (fun b hb => hops b (List.mem_cons_of_mem _ hb)) hop (by rw [hconfig]; exact hpos) hnext
    refine ⟨hsince, hattempted.trans ?_, hfounded', hconfig'.trans hconfig⟩
    exact congrArg (fun s => attempted s ops) hstore

theorem store_restarted (random : Option BridgeId) :
    (x.restarted (some random)).store = reboot x.store.config random x.flash.records :=
  store_boot (fun _ => true) x.store.config random x.flash

/-- **What has been written is there after a restart.** -/
theorem Backed.restarted (h : Backed x) (restart : Option (Option BridgeId)) :
    (x.restarted restart).store.registry = x.store.registry := by
  cases restart with
  | none => rfl
  | some random =>
    rw [store_restarted]
    exact (h.restores random).2

theorem Founded.restarted (h : Founded x) (restart : Option (Option BridgeId)) :
    Founded (x.restarted restart) := by
  cases restart with
  | none => exact h
  | some random => exact Founded.boot h.flash x.store.config random

end Since

end Session

/-- Whether a device is the snapshot is a matter of its registry. -/
theorem IsSnapshot.of_registry {snapshot : Snapshot} {c d : Cloner} (h : IsSnapshot snapshot c)
    (hsame : d.store.registry = c.store.registry) : IsSnapshot snapshot d := by
  have hbridge : d.store.bridgeId = c.store.bridgeId := congrArg Registry.bridgeId hsame
  have hnext : d.store.nextCommandId = c.store.nextCommandId := congrArg Registry.nextCommandId hsame
  have hrevision : d.store.revision = c.store.revision := congrArg Registry.revision hsame
  have hslots : d.store.slots = c.store.slots := congrArg Registry.slots hsame
  have hslot : d.store.slot = c.store.slot := by
    funext i
    rw [slot, slot, hslots]
  have hget : d.store.getById = c.store.getById := by
    funext id
    rw [getById, getById, findSlotById, findSlotById, hslots, hslot]
  have hexported : d.exported = c.exported := by
    funext command
    rw [Cloner.exported, Cloner.exported, hbridge]
  have hportable : d.portable = c.portable := by
    rw [Cloner.portable, Cloner.portable, CommandStore.commands, CommandStore.commands, hslots, hget,
      hexported]
  refine ⟨?_, ?_, ?_, ?_, ?_⟩
  · rw [← h.bridgeId]
    exact congrArg BridgeId.hex hbridge
  · rw [← h.nextCommandId]
    exact congrArg (fun id => (id.toNat : Int)) hnext
  · rw [hportable]
    exact h.commands
  · rw [← h.closed]
    exact congrArg Registry.restoreIncomplete hsame
  · rw [show d.rfStatus.revision = c.rfStatus.revision from
      congrArg (fun rev => (rev.toNat : Int)) hrevision]
    exact h.later

/-! ## The first run -/

/-- The begin of the first run has landed. -/
def Begun (w : Wire) (line : Nat → Fate) (snapshot : Snapshot) (s : CommandStore) : Prop :=
  (line 0).raises = false ∧
    ∃ arg B, Begins w (line 1) snapshot.bridgeId snapshot.nextCommandId s.revision arg B

section FirstRun

variable {w : Wire} {line : Nat → Fate} {snapshot : Snapshot} {device : Cloner}

theorem store_of_not_begun (h : Restorable device.store)
    (hcheck : checkRestoreTarget device.rfStatus snapshot = .ok ())
    (hnot : ¬ Begun w line snapshot device.store) :
    (asyncRestore w line snapshot device).2.store = device.store := by
  cases hanswered : (line 0).raises with
  | true => rw [asyncRestore_of_not_answered hanswered]
  | false =>
    exact asyncRestore_of_not_begun line h hcheck fun arg B hbegins => hnot ⟨hanswered, arg, B, hbegins⟩

/-- A device on which the begin has landed is under the identity of the snapshot. -/
theorem bridgeId_of_begun (hreal : Real snapshot) (h : Restorable device.store)
    (hcheck : checkRestoreTarget device.rfStatus snapshot = .ok ())
    (hbegun : Begun w line snapshot device.store) :
    (asyncRestore w line snapshot device).2.store.bridgeId.hex = snapshot.bridgeId := by
  obtain ⟨hanswered, arg, B, hbegins⟩ := hbegun
  obtain ⟨B₀, hB₀⟩ := hreal.bridgeId
  rw [asyncRestore_of_begun hcheck hanswered]
  rcases asyncRestoreBegin_cases w (line 1) snapshot.bridgeId snapshot.nextCommandId h
    with ⟨arg', B', hbegins', hopened, -⟩ | ⟨hnot, -⟩
  · have hid : B' = B₀ := by
      have hparsed := hbegins'.parsed
      rw [← hB₀, parseBridgeId_hex] at hparsed
      exact (Option.some.inj hparsed).symm
    -- the rest of the run keeps the identity that the begin has set
    refine Progress.andThen_keeps (P := fun c : Cloner => c.store.bridgeId.hex = snapshot.bridgeId) ?_
      fun c hc => ?_
    · rw [hopened.bridgeId, hid, hB₀]
    · rw [bridgeId_afterBegin]
      exact hc
  · exact absurd hbegins (hnot arg B)

/-- **What a first run that has begun leaves behind** is the snapshot exactly if its commit has landed
    and the device can store all of it. -/
theorem isSnapshot_of_begun_iff (hreal : Real snapshot) (h : Restorable device.store)
    (hcheck : checkRestoreTarget device.rfStatus snapshot = .ok ())
    (hother : device.store.bridgeId.hex ≠ snapshot.bridgeId)
    (hbegun : Begun w line snapshot device.store) :
    IsSnapshot snapshot (asyncRestore w line snapshot device).2 ↔
      Commits w line snapshot device.store ∧ Fitting line snapshot device.store.config := by
  have hbridge := bridgeId_of_begun hreal h hcheck hbegun
  obtain ⟨-, -, -, hslots, hpulses, -⟩ := checkRestoreTarget_ok.mp hcheck
  rcases asyncRestore_cases w line h hcheck with ⟨hcommits, B, nextId, hB, hnext, hdone⟩ | ⟨hnot, hstill⟩
  · have hargs : ∀ e ∈ snapshot.commands, (importArgs w e).isSome = true := by
      intro e he
      obtain ⟨i, hi⟩ := List.mem_iff_getElem?.mp he
      exact (hcommits.imported i e hi).1
    have hsame : (∀ b, b ∈ (keptOf w line snapshot device.store.config).map Command.body ↔
        b ∈ snapshot.commands.map ExportedCommand.body) ↔ Fitting line snapshot device.store.config :=
      same_keptOf_iff hargs (Int.ofNat_le.mp hslots) fun e he => Int.ofNat_le.mp (hpulses e he)
    have hbodies : (asyncRestore w line snapshot device).2.portable.map ExportedCommand.body
        = (asyncRestore w line snapshot device).2.store.commands.map Command.body := by
      rw [Cloner.portable_eq hdone.sound.toWellFormed, List.map_map]
      rfl
    have hperm := hdone.commands.map Command.body
    constructor
    · intro hsnapshot
      have hcommands := hsnapshot.commands
      rw [hbodies] at hcommands
      exact ⟨hcommits, hsame.mp fun b => (hperm.symm.trans hcommands).mem_iff⟩
    · rintro ⟨-, hfitting⟩
      have hids : (snapshot.commands.map ExportedCommand.body).Nodup := by
        refine List.Nodup.of_map ExportedCommand.commandId ?_
        rw [List.map_map]
        exact hreal.ids
      have hkept := (List.perm_ext_iff_of_nodup (nodup_bodies together_keptOf.ids) hids).mpr
        (hsame.mpr hfitting)
      obtain ⟨next, hnext', -⟩ := hreal.nextCommandId
      obtain ⟨rev, hrev⟩ := hreal.revision
      refine ⟨hbridge, ?_, ?_, (Cloner.restoreIncomplete_rfStatus _).mpr hdone.closed, ?_⟩
      · have hlt := next.toNat_lt
        show ((asyncRestore w line snapshot device).2.store.nextCommandId.toNat : Int) = _
        rw [hdone.nextCommandId, hnext, nextOnDevice]
        omega
      · rw [hbodies]
        exact hperm.trans hkept
      · show snapshot.revision < ((asyncRestore w line snapshot device).2.store.revision.toNat : Int)
        rw [hdone.revision]
        omega
  · refine iff_of_false (fun hsnapshot => ?_) fun hboth => hnot hboth.1
    rcases hstill with hsame | hforeign | hopen
    · exact hother ((congrArg BridgeId.hex hsame).symm.trans hbridge)
    · exact hforeign hbridge
    · exact hopen ((Cloner.restoreIncomplete_rfStatus _).mp hsnapshot.closed)

end FirstRun

/-! ## The second run -/

/-- The device when the flow is run again: the first run has stopped, and the device has restarted, if
    it does. -/
def interrupted (w : Wire) (line : Nat → Fate) (snapshot : Snapshot)
    (restart : Option (Option BridgeId)) (x : Session) : Session :=
  ((restoreOps w line snapshot).foldl Session.attempt x).restarted restart

/-- What is promised of the second run: it reports success of nothing but the snapshot, and it
    completes a restore that is under way. -/
structure Recovers (snapshot : Snapshot) (underway : Prop)
    (outcome : Option (StepResult × ReconfigureFlow)) : Prop where
  whole : ReconfigureFlow.Whole snapshot outcome
  completes : underway → ∃ result flow, outcome = some (result, flow) ∧
    IsSnapshot snapshot flow.device

/-- The device of the second run is founded like that of the first, and is either what the first run
    has written, whether it has restarted or not, or the device as it was. -/
theorem interrupted_cases (w : Wire) (line : Nat → Fate) {snapshot : Snapshot} {x : Session}
    {lastResult : Bytes} (hfounded : x.Founded) (hpos : x.store.config.maxCommands ≠ 0)
    (h : Restorable x.store)
    (hcheck : checkRestoreTarget (Cloner.rfStatus ⟨x.store, lastResult⟩) snapshot = .ok ())
    (restart : Option (Option BridgeId)) :
    (interrupted w line snapshot restart x).Founded ∧
    (((asyncRestore w line snapshot ⟨x.store, lastResult⟩).2.store ≠ x.store ∧
        (interrupted w line snapshot restart x).store.registry
          = (asyncRestore w line snapshot ⟨x.store, lastResult⟩).2.store.registry) ∨
      ((asyncRestore w line snapshot ⟨x.store, lastResult⟩).2.store = x.store ∧
        (interrupted w line snapshot restart x).store = (x.restarted restart).store)) := by
  -- an empty registry is coherent with any flash
  have hcoherent : Coherent x.store x.flash.records := by
    intro i hocc
    have hmem := slot_mem_commands hocc
    have hempty : x.store.commands = [] := h.empty
    rw [hempty] at hmem
    cases hmem
  have hsame := store_asyncRestore w line hcheck
  let y := (restoreOps w line snapshot).foldl Session.attempt x
  obtain ⟨hsince, hstore, hfounded', -⟩ := Session.Since.attempts hcoherent
    (mem_restoreOps (P := fun op => ∀ random, op ≠ .factoryReset random)
      (fun _ _ _ h => Op.noConfusion h) (fun _ _ h => Op.noConfusion h) fun _ _ h => Op.noConfusion h)
    hfounded hpos (.same rfl rfl)
  have hy : y.store = (asyncRestore w line snapshot ⟨x.store, lastResult⟩).2.store :=
    hstore.trans hsame.symm
  refine ⟨hfounded'.restarted restart, ?_⟩
  rw [← hy]
  rcases hsince with ⟨hunchanged, hflash⟩ | ⟨hlater, hbacked⟩
  · have hunchanged : y.store = x.store := hunchanged
    refine Or.inr ⟨hunchanged, ?_⟩
    cases restart with
    | none => exact hunchanged
    | some random =>
      have hconfig : y.store.config = x.store.config := congrArg CommandStore.config hunchanged
      show (y.restarted (some random)).store = _
      rw [Session.store_restarted, Session.store_restarted, hconfig]
      exact congrArg _ hflash
  · refine Or.inl ⟨fun hunchanged => ?_, hbacked.restarted restart⟩
    -- a store that has not changed has not been written
    refine absurd hlater ?_
    rw [show _ = x.store from hunchanged]
    exact UInt32.lt_irrefl _

/-- **An interrupted restore can be repeated exactly if it need not be.**  For any reachable device
    under another identity that passes the checks, any snapshot that was taken, any point at which the
    first run stops, whatever has become of its calls, and with or without a restart: the second flow,
    in which nothing fails, keeps what is promised exactly if
    - the begin had not landed, and the device does not come up under the identity of the snapshot
      with another registry, or
    - the commit had landed, and every command could be stored. -/
theorem repeat_recovers_iff (lands : Nat → Bool) (cfg : Config) (random : Option BridgeId)
    (events : List Event) (w : Wire) (line : Nat → Fate) {snapshot : Snapshot}
    (htaken : Taken w snapshot) (restart : Option (Option BridgeId)) (lastResult lastResult' : Bytes)
    {entry : BridgeEntry} (hentry : entry.uniqueId = some snapshot.bridgeId)
    (hsnapshot : entry.snapshot = some snapshot) {choices : List Str} (hchoices : choices ≠ [])
    (node : NodeRef) :
    let x := Session.run lands (Session.powerOn lands cfg random) events
    let device : Cloner := ⟨x.store, lastResult⟩
    x.store.config.maxCommands ≠ 0 →
    device.rfStatus.bridgeId ≠ snapshot.bridgeId →
    checkRestoreTarget device.rfStatus snapshot = .ok () →
    (Recovers snapshot (Begun w line snapshot x.store ∧ ¬ Commits w line snapshot x.store)
        (ReconfigureFlow.run w (fun _ => {}) choices node
          ⟨entry, none, ⟨(interrupted w line snapshot restart x).store, lastResult'⟩⟩) ↔
      (¬ Begun w line snapshot x.store ∧
        ((x.restarted restart).store.bridgeId.hex = snapshot.bridgeId →
          IsSnapshot snapshot ⟨(x.restarted restart).store, lastResult'⟩)) ∨
      (Commits w line snapshot x.store ∧ Fitting line snapshot x.store.config)) := by
  intro x device hpos hother hcheck
  have hreal := htaken.real
  have hfounded : Session.Founded x := Session.founded_run lands cfg random events
  have h : Restorable device.store := Restorable.of_check hcheck hfounded.backend hfounded.ram
  obtain ⟨hz, hdevice⟩ := interrupted_cases w line hfounded hpos h hcheck restart
  have hwhole : ReconfigureFlow.Whole snapshot (ReconfigureFlow.run w (fun _ => {}) choices node
        ⟨entry, none, ⟨(interrupted w line snapshot restart x).store, lastResult'⟩⟩) ↔
      ((interrupted w line snapshot restart x).store.bridgeId.hex = snapshot.bridgeId →
        IsSnapshot snapshot ⟨(interrupted w line snapshot restart x).store, lastResult'⟩) :=
    reconfigure_whole_iff w node hchoices hsnapshot hreal hentry hz.backend hz.ram
  by_cases hbegun : Begun w line snapshot x.store
  · have hbridge := bridgeId_of_begun hreal h hcheck hbegun
    rcases hdevice with ⟨-, hregistry⟩ | ⟨hunchanged, -⟩
    · have hown : (interrupted w line snapshot restart x).store.bridgeId.hex = snapshot.bridgeId := by
        rw [← hbridge]
        exact congrArg (fun reg => reg.bridgeId.hex) hregistry
      have hiff : IsSnapshot snapshot ⟨(interrupted w line snapshot restart x).store, lastResult'⟩ ↔
          Commits w line snapshot x.store ∧ Fitting line snapshot x.store.config := by
        rw [← isSnapshot_of_begun_iff hreal h hcheck hother hbegun]
        exact ⟨fun hdone => hdone.of_registry hregistry.symm, fun hdone => hdone.of_registry hregistry⟩
      constructor
      · intro hrecovers
        exact Or.inr (hiff.mp (hwhole.mp hrecovers.whole hown))
      · rintro (⟨hnot, -⟩ | hdone)
        · exact absurd hbegun hnot
        · exact ⟨hwhole.mpr fun _ => hiff.mpr hdone, fun hunderway => absurd hdone.1 hunderway.2⟩
    · -- the identity is another one, so the begin has been written
      refine absurd ?_ hother
      rw [← hbridge, hunchanged]
      rfl
  · have hunchanged := store_of_not_begun h hcheck hbegun
    rcases hdevice with ⟨hchanged, -⟩ | ⟨-, hrestarted⟩
    · exact absurd hunchanged hchanged
    · rw [hrestarted] at hwhole ⊢
      constructor
      · intro hrecovers
        exact Or.inl ⟨hbegun, hwhole.mp hrecovers.whole⟩
      · rintro (⟨-, hother'⟩ | ⟨hcommits, -⟩)
        · exact ⟨hwhole.mpr hother', fun hunderway => absurd hunderway.1 hbegun⟩
        · obtain ⟨arg, B, hbegins, -⟩ := hcommits.begun
          exact absurd ⟨hcommits.answered, arg, B, hbegins⟩ hbegun

/-! ## Interrupted after the begin, and before it -/

/-- Nothing gets through from call number `k` on. -/
def cutBefore (k : Nat) (call : Nat) : Fate :=
  if call < k then {} else { delivered := false, raises := true }

/-- Replacement hardware with an identity of its own. -/
def spare : Session := Session.powerOn (fun _ => true) ⟨2, 4, 136, 7⟩ (some formerBridge)

/-- The entry of the bridge that is replaced, and the node it is pointed at. -/
def replacedEntry : BridgeEntry :=
  ⟨some (replicaOf oneButton 0).bridgeId, ⟨str "old", str "rf_"⟩,
    some ⟨(replicaOf oneButton 0).bridgeId, some (replicaOf oneButton 0)⟩⟩

def spareNode : NodeRef := ⟨str "new", str "rf_"⟩

/-- The second flow, after the first run was cut before call number `k`. -/
def secondFlow (k : Nat) : Option (StepResult × ReconfigureFlow) :=
  ReconfigureFlow.run Wire.exact (fun _ => {}) [str "new"] spareNode ⟨replacedEntry, none,
    ⟨(interrupted Wire.exact (cutBefore k) (replicaOf oneButton 0) none spare).store, []⟩⟩

/-- What the flow reports, and the registry it leaves: whether a restore is open, and the number of
    commands. -/
def reported (outcome : Option (StepResult × ReconfigureFlow)) : Option (StepResult × Bool × Int) :=
  outcome.map fun (result, flow) =>
    (result, flow.device.rfStatus.restoreIncomplete, flow.device.rfStatus.count)

/-- **Repeated after the begin, the restore is reported done**, and the device has none of the commands
    and is still in the middle of it. -/
theorem repeat_rebinds_incomplete :
    Taken Wire.exact (replicaOf oneButton 0) ∧
    spare.store.bridgeId.hex ≠ (replicaOf oneButton 0).bridgeId ∧
    checkRestoreTarget (Cloner.rfStatus ⟨spare.store, []⟩) (replicaOf oneButton 0) = .ok () ∧
    reported (secondFlow 2) = some (.abort (str "reconfigure_successful") none, true, 0) ∧
    ¬ ReconfigureFlow.Whole (replicaOf oneButton 0) (secondFlow 2) := by
  have hreported : reported (secondFlow 2)
      = some (.abort (str "reconfigure_successful") none, true, 0) := by decide +kernel
  refine ⟨taken_oneButton, by decide +kernel, by decide +kernel, hreported, fun hwhole => ?_⟩
  obtain ⟨⟨result, flow⟩, houtcome, heq⟩ := Option.map_eq_some_iff.mp hreported
  obtain ⟨rfl, hrest⟩ := Prod.mk.inj heq
  obtain ⟨hopen, -⟩ := Prod.mk.inj hrest
  have hsnapshot := hwhole _ flow houtcome ⟨_, List.mem_cons_self, rfl⟩
  exact Bool.false_ne_true (hsnapshot.closed.symm.trans hopen)

theorem commands_oneButton : (replicaOf oneButton 0).commands
    = [⟨1, BridgeId.zero.hex, 1, str "on", 0, 1, 0, 0, [350, -1050]⟩] := by decide +kernel

/-- Cut when the commit has landed and before the registry is read again. -/
theorem commits_cutBefore :
    Commits Wire.exact (cutBefore 4) (replicaOf oneButton 0) spare.store := by
  refine ⟨by decide +kernel, ⟨2, BridgeId.zero, ⟨by decide +kernel, by decide +kernel,
    by decide +kernel, by decide +kernel, by decide +kernel⟩, by decide +kernel⟩,
    by decide +kernel, ?_, by decide +kernel, by decide +kernel, by decide +kernel⟩
  intro i e hi
  rw [commands_oneButton] at hi
  rcases i with _ | i
  · obtain rfl := Option.some.inj hi
    exact ⟨by decide +kernel, by decide +kernel⟩
  · cases hi

theorem fitting_cutBefore :
    Fitting (cutBefore 4) (replicaOf oneButton 0) spare.store.config := by
  refine ⟨?_, ?_, fun _ => by decide +kernel, ?_⟩
  · intro e he
    rw [commands_oneButton, List.mem_singleton] at he
    subst he
    constructor <;> decide +kernel
  · intro e he f hf _
    rw [commands_oneButton, List.mem_singleton] at he hf
    rw [he, hf]
  · intro e he
    obtain ⟨i, hi⟩ := List.mem_iff_getElem?.mp he
    refine ⟨i, e, hi, rfl, ?_⟩
    rw [commands_oneButton] at hi
    rcases i with _ | i
    · rfl
    · cases hi

/-- Repeated before anything was done, it is done; repeated after the commit, nothing is left to do. -/
theorem repeat_before_and_after :
    (∀ k, k = 1 ∨ k = 4 → Recovers (replicaOf oneButton 0)
      (Begun Wire.exact (cutBefore k) (replicaOf oneButton 0) spare.store ∧
        ¬ Commits Wire.exact (cutBefore k) (replicaOf oneButton 0) spare.store) (secondFlow k)) ∧
    reported (secondFlow 1) = some (.abort (str "restore_successful") none, false, 1) ∧
    reported (secondFlow 4) = some (.abort (str "reconfigure_successful") none, false, 1) := by
  refine ⟨fun k hk => ?_, by decide +kernel, by decide +kernel⟩
  have hentry : replacedEntry.uniqueId = some (replicaOf oneButton 0).bridgeId := rfl
  refine (repeat_recovers_iff (fun _ => true) ⟨2, 4, 136, 7⟩ (some formerBridge) [] Wire.exact
    (cutBefore k) taken_oneButton none [] [] hentry rfl (List.cons_ne_nil _ _) spareNode
    (by decide +kernel) (by decide +kernel) (by decide +kernel)).mpr ?_
  rcases hk with rfl | rfl
  · refine Or.inl ⟨?_, fun hown => absurd hown (by decide +kernel)⟩
    rintro ⟨-, _, _, hbegins⟩
    exact Bool.false_ne_true hbegins.lands
  · exact Or.inr ⟨commits_cutBefore, fitting_cutBefore⟩

end RfCloner
