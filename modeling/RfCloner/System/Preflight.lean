/-
  What the checks before a restore leave out.

  `check_restore_target` looks at the status of the target and at the snapshot, so that nothing is
  begun that the device would refuse later on.  The device goes on to ask for more: the commit wants
  a revision below `REVISION_MAX` where the check still admits `REVISION_MAX` itself, each step takes
  one of the target's own revisions, and the waveforms have to fit its storage.
  `preflight_complete_iff` lists what is missing, and that nothing else is.
-/
import RfCloner.Device.Actions
import RfCloner.System.Fidelity

namespace RfCloner

open CommandStore

/-! ## Acceptance -/

/-- The device in the middle of a restore: after the begin and `k` imports. -/
def duringRestore (w : Wire) (snapshot : Snapshot) (device : Cloner) (k : Nat) : Cloner :=
  (asyncImports w (fun _ => {}) 2 (snapshot.commands.take k)
    (asyncRestoreBegin w {} snapshot.bridgeId snapshot.nextCommandId device).2).2

/-- The device accepts every call of the restore: each is carried, and the wrapper returns true. -/
structure AcceptsRestore (w : Wire) (snapshot : Snapshot) (device : Cloner) : Prop where
  begun : ∃ next, w.send snapshot.nextCommandId = some next ∧
    (device.restoreBegin true (utf8 snapshot.bridgeId) next.toUInt32).1 = true
  imported : ∀ k e, snapshot.commands[k]? = some e → ∃ args, importArgs w e = some args ∧
    ((duringRestore w snapshot device k).importCommand true args.command).1 = true
  committed : ∃ source, w.send snapshot.revision = some source ∧
    ((duringRestore w snapshot device snapshot.commands.length).restoreCommit true source).1 = true

section Steps

variable {w : Wire} {device : Cloner} {s : CommandStore} {cfg : Config} {B : BridgeId}
  {nextId : UInt32} {r : Nat} {kept : List Command}

/-- The begin is accepted. -/
theorem begun_iff (h : Restorable device.store) (bridgeId : Str) (nextCommandId : Int) :
    (∃ next, w.send nextCommandId = some next ∧
        (device.restoreBegin true (utf8 bridgeId) next.toUInt32).1 = true) ↔
      ∃ arg B, Begins w {} bridgeId nextCommandId device.store.revision arg B := by
  have hone (next : Int32) : (device.restoreBegin true (utf8 bridgeId) next.toUInt32).1 = true ↔
      ∃ B, parseBridgeId (utf8 bridgeId) = some B ∧ next.toUInt32 ≠ 0 ∧
        device.store.revision < revisionMax := by
    unfold Cloner.restoreBegin
    cases parseBridgeId (utf8 bridgeId) with
    | none => simp
    | some B =>
      have hplan : (Op.restoreBegin B next.toUInt32).plan device.store = _ :=
        restoreBeginPlan_of_restorable h B next.toUInt32
      dsimp only
      rw [Cloner.finish_eq_true, ← nextRevision_isSome]
      by_cases hid : next.toUInt32 = 0
      · rw [if_pos hid] at hplan
        rw [Op.attempt_of_stop hplan]
        simp [hid]
      · rw [if_neg hid] at hplan
        cases hrev : nextRevision device.store.revision with
        | none =>
          rw [hrev] at hplan
          simp [Op.attempt_of_stop hplan]
        | some rev =>
          rw [hrev] at hplan
          simp [Op.attempt_of_write hplan, hid]
  constructor
  · rintro ⟨next, hsend, haccepted⟩
    obtain ⟨B, hparse, hid, hroom⟩ := (hone next).mp haccepted
    exact ⟨next, B, rfl, hsend, hparse, hid, hroom⟩
  · rintro ⟨next, B, hbegins⟩
    exact ⟨next, hbegins.sent, (hone next).mpr ⟨B, hbegins.parsed, hbegins.nonzero, hbegins.room⟩⟩

/-- An import into an open restore is accepted. -/
theorem imported_iff (hopened : Opened cfg B nextId s) (hholding : Holding r kept s) {c : Command} :
    ((Op.importCommand c).attempt true s).1 = .ok ↔
      FitsBeside cfg nextId.toNat kept c ∧ r + kept.length < revisionMax.toNat := by
  have hop : ¬ s.NoOp (.importCommand c) := fun h => h
  have hroom : s.revision < revisionMax ↔ r + kept.length < revisionMax.toNat := by
    have := hholding.revision
    rw [UInt32.lt_iff_toNat_lt]
    omega
  constructor
  · intro h
    obtain ⟨-, payload, next, undone, hplan, -⟩ := write_of_attempt_ok hop h
    have hfits := fits_of_importCommandPlan hopened.sound.toWellFormed hplan
    obtain ⟨-, -, -, -, -, -, -, slot, rev, -, -, hrev, -⟩ := importCommandPlan_eq_write hplan
    have hlt := (nextRevision_isSome _).mp (Option.isSome_of_eq_some hrev)
    rw [hopened.config, hopened.nextCommandId] at hfits
    exact ⟨hfits.perm (hholding.commands hlt), hroom.mp hlt⟩
  · rintro ⟨hfits, hlt⟩
    have hlt' := hroom.mpr hlt
    obtain ⟨rev, hrev⟩ := Option.isSome_iff_exists.mp ((nextRevision_isSome _).mpr hlt')
    have hfits' : FitsBeside s.config s.nextCommandId.toNat s.commands c := by
      rw [hopened.config, hopened.nextCommandId]
      exact hfits.perm (hholding.commands hlt').symm
    obtain ⟨payload, next, undone, hplan⟩ := importCommandPlan_of_fits hopened.sound.toWellFormed
      hopened.backend hopened.writable hopened.opened hfits' hrev
    have hplan' : (Op.importCommand c).plan s = .write payload next undone := hplan
    rw [Op.attempt_of_write hplan']
    rfl

/-- The commit of an open restore is accepted. -/
theorem committed_iff (hopened : Opened cfg B nextId s) (hholding : Holding r kept s)
    {source : UInt32} : ((Op.restoreCommit source).attempt true s).1 = .ok ↔
      source < revisionMax ∧ r + kept.length < revisionMax.toNat := by
  have hop : ¬ s.NoOp (.restoreCommit source) := fun h => h
  rcases attempt_restoreCommit_opened source true hopened hholding with
    ⟨-, hsource, hroom, hdone⟩ | ⟨hnot, hstill⟩
  · refine iff_of_true ?_ ⟨hsource, hroom⟩
    by_contra hne
    -- a commit that is refused would leave the restore open
    have hsame := attempt_of_ne_ok (fun _ => hopened.sound) (fun _ h => Op.noConfusion h) hne
    have hclosed := hdone.closed
    rw [hsame] at hclosed
    exact hopened.opened hclosed
  · refine iff_of_false (fun h => ?_) fun h => hnot ⟨rfl, h⟩
    obtain ⟨-, payload, next, undone, hplan, hnext⟩ := write_of_attempt_ok hop h
    obtain ⟨-, -, -, rev, -, -, rfl, -⟩ := restoreCommitPlan_eq_write hplan
    rw [hnext] at hstill
    exact hstill rfl

/-- The wrapper looks at the sign first. -/
theorem restoreCommit_eq_true (c : Cloner) (arg : Int32) : (c.restoreCommit true arg).1 = true ↔
    ¬ arg < 0 ∧ ((Op.restoreCommit arg.toUInt32).attempt true c.store).1 = .ok := by
  unfold Cloner.restoreCommit
  split
  · rename_i hneg
    simp [hneg]
  · rename_i hneg
    rw [Cloner.finish_eq_true]
    simp [hneg]

end Steps

/-! ## The whole restore -/

section Whole

variable {source target : Cloner} {w : Wire} {now : Timestamp}

/-- A command that is carried arrives as it was. -/
theorem command_of_importArgs {c : Command} (hname : validateName c.name = .ok)
    {args : Cloner.ImportArgs} (h : importArgs w (source.exported c) = some args) :
    args.command = c := by
  obtain ⟨hid, hname', htimings, hgap, hrepeats, hfrequency, hmodulation⟩ := importArgs_eq_some h
  have hnat : ∀ {arg : Int32} {n : Nat}, arg.toInt = n → arg.toUInt32.toNat = n :=
    fun h => toNat_toUInt32_of_toInt h
  have h16 := c.repeatTimes.toNat_lt
  have h8 := c.modulation.toNat_lt
  have hrepeats' : args.repeatTimes.toUInt32.toUInt16 = c.repeatTimes := by
    have := hnat hrepeats
    rw [← UInt16.toNat_inj, UInt32.toNat_toUInt16]
    omega
  have hmodulation' : args.modulation.toUInt32.toUInt8 = c.modulation := by
    have := hnat hmodulation
    rw [← UInt8.toNat_inj, UInt32.toNat_toUInt8]
    omega
  have hutf8 : args.name = c.name := hname'.trans (utf8_ofUtf8 (lt_of_validateName hname))
  have hsame : args.timings = c.timings :=
    List.map_injective_iff.mpr (fun _ _ => Int32.toInt_inj.mp) htimings
  unfold Cloner.ImportArgs.command
  rw [UInt32.toNat_inj.mp (hnat hid), UInt32.toNat_inj.mp (hnat hgap),
    UInt32.toNat_inj.mp (hnat hfrequency), hrepeats', hmodulation', hutf8, hsame]

/-- A command is carried exactly if its numbers fit in 31 bits. -/
theorem importArgs_isSome_iff (hw : w.Full) {c : Command} :
    (importArgs w (source.exported c)).isSome = true ↔ c.commandId.toNat < 2 ^ 31 ∧
      c.gapUs.toNat < 2 ^ 31 ∧ c.frequencyHz.toNat < 2 ^ 31 := by
  constructor
  · intro h
    obtain ⟨args, hargs⟩ := Option.isSome_iff_exists.mp h
    obtain ⟨hid, -, -, hgap, -, hfrequency, -⟩ := importArgs_eq_some hargs
    have hlt : ∀ {arg : Int32} {n : Nat}, arg.toInt = n → n < 2 ^ 31 := by
      intro arg n h
      have := arg.toInt_lt
      omega
    exact ⟨hlt hid, hlt hgap, hlt hfrequency⟩
  · rintro ⟨hid, hfields⟩
    exact importArgs_exported hw hid hfields

/-- What is offered to the device. -/
theorem offered_exported {l : List Command} (hnames : ∀ c ∈ l, validateName c.name = .ok)
    (hargs : ∀ c ∈ l, (importArgs w (source.exported c)).isSome = true) (k : Nat) :
    offered w (fun _ => {}) k (l.map source.exported) = l := by
  induction l generalizing k with
  | nil => rfl
  | cons c l ih =>
    obtain ⟨args, hsome⟩ := Option.isSome_iff_exists.mp (hargs c List.mem_cons_self)
    have hrest := ih (fun d hd => hnames d (List.mem_cons_of_mem _ hd))
      (fun d hd => hargs d (List.mem_cons_of_mem _ hd)) (k + 1)
    rw [List.map_cons, offered, hrest, hsome]
    show [args.command] ++ l = c :: l
    rw [command_of_importArgs (hnames c List.mem_cons_self) hsome]
    rfl

/-- The commands of a registry fit a device that has the slots, the pulses and the bytes, each beside
    those before it. -/
theorem fits_of_room {s : CommandStore} (hwf : s.WellFormed)
    (hids : ∀ c ∈ s.commands, c.commandId < s.nextCommandId) {cfg : Config}
    (hslots : s.commands.length ≤ cfg.maxCommands.toNat)
    (hpulses : ∀ c ∈ s.commands, c.timings.length ≤ cfg.maxPulses.toNat)
    (hbytes : s.commands ≠ [] → overhead cfg + s.payloadTotal ≤ cfg.maxStorageBytes.toNat)
    {k : Nat} {c : Command} (hc : s.commands[k]? = some c) :
    FitsBeside cfg s.nextCommandId.toNat (s.commands.take k) c := by
  have hmem := List.mem_of_getElem? hc
  obtain ⟨i, -, hocc⟩ := SlotTable.mem_content.mp hmem
  have hnext : s.commands.take (k + 1) = s.commands.take k ++ [c] := by
    rw [List.take_add_one, hc, Option.toList_some]
  -- what comes before a command is apart from it
  have hapart : ∀ {κ : Type} (key : Command → κ), (s.commands.map key).Nodup →
      ∀ d ∈ s.commands.take k, key d ≠ key c := by
    intro κ key hnodup d hd heq
    have hsub := hnodup.sublist ((List.take_sublist (k + 1) s.commands).map key)
    rw [hnext, List.map_append, List.nodup_append] at hsub
    exact hsub.2.2 _ (List.mem_map_of_mem hd) _ (by simp) heq
  refine
    { admissible := ⟨hocc, hwf.names_valid c hmem, hwf.timings_pos c hmem, hpulses c hmem⟩
      id_lt := UInt32.lt_iff_toNat_lt.mp (hids c hmem)
      id_fresh := hapart Command.commandId hwf.ids_nodup
      name_fresh := hapart Command.name hwf.names_nodup
      room := ?_
      budget := ?_ }
  · have hk := (List.getElem?_eq_some_iff.mp hc).1
    rw [List.length_take]
    omega
  · have hsum := List.Sublist.sum_le_sum
      ((List.take_sublist (k + 1) s.commands).map Command.payloadBytes) fun _ _ => Nat.zero_le _
    rw [hnext, List.map_append, List.sum_append, List.map_singleton, List.sum_singleton] at hsum
    have htotal : s.payloadTotal = (s.commands.map Command.payloadBytes).sum := rfl
    have := hbytes (List.ne_nil_of_mem hmem)
    omega

variable (w now) in
/-- The device in the middle of the restore of a registry that is carried whole. -/
theorem during_opened (hrestorable : Restorable target.store) (hwf : source.store.WellFormed)
    (hargs : ∀ c ∈ source.store.commands, (importArgs w (source.exported c)).isSome = true)
    {arg : Int32} {B : BridgeId} (hbegins : Begins w {} (replicaOf source now).bridgeId
      (replicaOf source now).nextCommandId target.store.revision arg B) (k : Nat) :
    let s := (duringRestore w (replicaOf source now) target k).store
    ∃ B', Opened target.store.config B' arg.toUInt32 s ∧
      Holding (target.store.revision.toNat + 1) (Greedy.take
        (FitsBeside target.store.config arg.toUInt32.toNat) [] (source.store.commands.take k)) s := by
  intro s
  have htake : (replicaOf source now).commands.take k
      = (source.store.commands.take k).map source.exported := by
    show source.portable.take k = _
    rw [Cloner.portable_eq hwf, List.map_take]
  have hmem : ∀ c ∈ source.store.commands.take k, c ∈ source.store.commands :=
    fun c hc => List.mem_of_mem_take hc
  rcases asyncRestoreBegin_cases w {} (replicaOf source now).bridgeId
    (replicaOf source now).nextCommandId hrestorable with
    ⟨arg', B', hbegins', hopened, hholding⟩ | ⟨hnot, -⟩
  · obtain rfl := Option.some.inj (hbegins.sent.symm.trans hbegins'.sent)
    obtain ⟨hopened', hok, hkept⟩ := asyncImports_opened w (fun _ => {})
      ((replicaOf source now).commands.take k) 2 hopened hholding
    have himported := hok.mpr fun i e he => by
      rw [htake] at he
      obtain ⟨c, hc, rfl⟩ := List.mem_map.mp (List.mem_of_getElem? he)
      exact ⟨hargs c (hmem c hc), rfl⟩
    have hholding' := hkept himported
    rw [htake, offered_exported (fun c hc => hwf.names_valid c (hmem c hc))
      (fun c hc => hargs c (hmem c hc))] at hholding'
    rw [← htake] at hholding'
    exact ⟨B', hopened', hholding'⟩
  · exact absurd hbegins (hnot arg B)

theorem length_replicaOf : (replicaOf source now).commands.length = source.store.commands.length :=
  List.length_map _

theorem getElem?_replicaOf (hwf : source.store.WellFormed) (k : Nat) (e : ExportedCommand) :
    (replicaOf source now).commands[k]? = some e ↔
      ∃ c, source.store.commands[k]? = some c ∧ source.exported c = e := by
  show source.portable[k]? = some e ↔ _
  rw [Cloner.portable_eq hwf, List.getElem?_map, Option.map_eq_some_iff]

/-- What the checks do not ask for: the numbers of the registry can be sent, there is a revision after
    its own, and the target has the revisions and the bytes for all of it. -/
structure HasRoom (target source : CommandStore) : Prop where
  numbers : Portable source
  sourceRevision : source.revision < revisionMax
  revisions : target.revision.toNat + 1 + source.commands.length < revisionMax.toNat
  bytes : source.commands ≠ [] →
    overhead target.config + source.payloadTotal ≤ target.config.maxStorageBytes.toNat

section Registry

variable (hw : w.Full) (hrestorable : Restorable target.store) (hwf : source.store.WellFormed)
include hw hrestorable hwf

/-- A device that accepts everything has room for it. -/
theorem hasRoom_of_accepts (haccepts : AcceptsRestore w (replicaOf source now) target) :
    HasRoom target.store source.store := by
  obtain ⟨hbegun, himported, hcommitted⟩ := haccepts
  obtain ⟨arg, B, hbegins⟩ := (begun_iff hrestorable _ _).mp hbegun
  have harg : arg.toInt = source.store.nextCommandId.toNat := w.send_eq hbegins.sent
  have hnext : arg.toUInt32.toNat = source.store.nextCommandId.toNat := toNat_toUInt32_of_toInt harg
  have hargs : ∀ c ∈ source.store.commands, (importArgs w (source.exported c)).isSome = true := by
    intro c hc
    obtain ⟨k, hk⟩ := List.mem_iff_getElem?.mp hc
    obtain ⟨args, hsome, -⟩ := himported k _ ((getElem?_replicaOf hwf k _).mpr ⟨c, hk, rfl⟩)
    exact Option.isSome_of_eq_some hsome
  -- each import is accepted beside what was kept, so everything is kept
  have hfits (k : Nat) (c : Command) (hk : source.store.commands[k]? = some c) :
      FitsBeside target.store.config arg.toUInt32.toNat (Greedy.take
        (FitsBeside target.store.config arg.toUInt32.toNat) [] (source.store.commands.take k)) c := by
    obtain ⟨args, hsome, haccepted⟩ := himported k _ ((getElem?_replicaOf hwf k _).mpr ⟨c, hk, rfl⟩)
    obtain ⟨B', hopened, hholding⟩ := during_opened w now hrestorable hwf hargs hbegins k
    unfold Cloner.importCommand at haccepted
    rw [Cloner.finish_eq_true, imported_iff hopened hholding,
      command_of_importArgs (hwf.names_valid c (List.mem_of_getElem? hk)) hsome] at haccepted
    exact haccepted.1
  have hkept (k : Nat) := Greedy.take_eq_self (k := k) fun j _ c hj heq => heq ▸ hfits j c hj
  obtain ⟨arg', hsend', haccepted⟩ := hcommitted
  obtain ⟨B', hopened, hholding⟩ := during_opened w now hrestorable hwf hargs hbegins
    source.store.commands.length
  rw [hkept, List.take_length] at hholding
  rw [length_replicaOf, restoreCommit_eq_true, committed_iff hopened hholding] at haccepted
  have harg' : arg'.toUInt32.toNat = source.store.revision.toNat :=
    toNat_toUInt32_of_toInt (w.send_eq hsend')
  refine ⟨⟨?_, fun c hc => ((importArgs_isSome_iff hw).mp (hargs c hc)).2⟩, ?_, haccepted.2.2, ?_⟩
  · have := arg.toInt_lt
    omega
  · rw [UInt32.lt_iff_toNat_lt, ← harg', ← UInt32.lt_iff_toNat_lt]
    exact haccepted.2.1
  · intro hne
    -- the last command says how many bytes there are
    obtain ⟨n, hn⟩ := Nat.exists_eq_succ_of_ne_zero
      (Nat.pos_iff_ne_zero.mp (List.length_pos_of_ne_nil hne))
    have hlast := List.getElem?_eq_getElem (l := source.store.commands) (i := n) (by omega)
    have hbudget := (hfits n _ hlast).budget
    have hall : source.store.commands.take n ++ [source.store.commands[n]]
        = source.store.commands := by
      rw [List.take_append_getElem, List.take_of_length_le (by omega)]
    have hsum := congrArg (fun l => (l.map Command.payloadBytes).sum) hall
    simp only [List.map_append, List.sum_append, List.map_singleton, List.sum_singleton] at hsum
    have htotal : source.store.payloadTotal
        = (source.store.commands.map Command.payloadBytes).sum := rfl
    rw [hkept] at hbudget
    omega

/-- A device that passes the checks and has room accepts everything. -/
theorem accepts_of_hasRoom (hpos : commandIdFirst ≤ source.store.nextCommandId)
    (hids : ∀ c ∈ source.store.commands, c.commandId < source.store.nextCommandId)
    (hcheck : checkRestoreTarget target.rfStatus (replicaOf source now) = .ok ())
    (hroom : HasRoom target.store source.store) :
    AcceptsRestore w (replicaOf source now) target := by
  obtain ⟨-, -, -, hslots, hpulses, -⟩ := checkRestoreTarget_ok.mp hcheck
  obtain ⟨hportable, hrevision, hrevisions, hbytes⟩ := hroom
  have hid (c : Command) (hc : c ∈ source.store.commands) : c.commandId.toNat < 2 ^ 31 := by
    have := UInt32.lt_iff_toNat_lt.mp (hids c hc)
    have := hportable.next
    omega
  have hargs : ∀ c ∈ source.store.commands, (importArgs w (source.exported c)).isSome = true :=
    fun c hc => importArgs_exported hw (hid c hc) (hportable.fields c hc)
  obtain ⟨arg, hsend, hnext⟩ := hw.send_of_lt hportable.next
  have hbegins : Begins w {} (replicaOf source now).bridgeId (replicaOf source now).nextCommandId
      target.store.revision arg source.store.bridgeId := by
    refine ⟨rfl, hsend, parseBridgeId_hex _, fun hzero => ?_, ?_⟩
    · have hfirst := UInt32.le_iff_toNat_le.mp hpos
      rw [hzero] at hnext
      have hone : commandIdFirst.toNat = 1 := rfl
      have hnone : (0 : UInt32).toNat = 0 := rfl
      omega
    · rw [UInt32.lt_iff_toNat_lt]
      omega
  have hfits (k : Nat) (c : Command) (hk : source.store.commands[k]? = some c) :
      FitsBeside target.store.config arg.toUInt32.toNat (source.store.commands.take k) c := by
    rw [hnext]
    refine fits_of_room hwf hids ?_ (fun d hd => ?_) hbytes hk
    · have hlength : (replicaOf source now).commands.length = source.store.commands.length :=
        length_replicaOf
      rw [← hlength]
      exact Int.ofNat_le.mp hslots
    · have hle := hpulses _ ((mem_replicaOf hwf).mpr ⟨d, hd, rfl⟩)
      have hmap : (source.exported d).timings.length = d.timings.length := List.length_map _
      rw [hmap] at hle
      exact Int.ofNat_le.mp hle
  have hkept (k : Nat) := Greedy.take_eq_self (k := k) fun j _ c hj _ => hfits j c hj
  refine ⟨(begun_iff hrestorable _ _).mpr ⟨arg, _, hbegins⟩, fun k e he => ?_, ?_⟩
  · obtain ⟨c, hk, rfl⟩ := (getElem?_replicaOf hwf k e).mp he
    have hmem := List.mem_of_getElem? hk
    obtain ⟨args, hsome⟩ := Option.isSome_iff_exists.mp (hargs c hmem)
    obtain ⟨B', hopened, hholding⟩ := during_opened w now hrestorable hwf hargs hbegins k
    refine ⟨args, hsome, ?_⟩
    unfold Cloner.importCommand
    rw [Cloner.finish_eq_true, imported_iff hopened hholding,
      command_of_importArgs (hwf.names_valid c hmem) hsome, hkept]
    refine ⟨hfits k c hk, ?_⟩
    have hlt := (List.getElem?_eq_some_iff.mp hk).1
    rw [List.length_take]
    omega
  · obtain ⟨arg', hsend', harg'⟩ := hw.send_of_lt (Nat.lt_trans
      (UInt32.lt_iff_toNat_lt.mp hrevision) (show revisionMax.toNat < 2 ^ 31 by decide))
    obtain ⟨B', hopened, hholding⟩ := during_opened w now hrestorable hwf hargs hbegins
      source.store.commands.length
    rw [hkept, List.take_length] at hholding
    refine ⟨arg', hsend', ?_⟩
    rw [length_replicaOf, restoreCommit_eq_true, committed_iff hopened hholding,
      UInt32.lt_iff_toNat_lt, harg']
    refine ⟨?_, UInt32.lt_iff_toNat_lt.mp hrevision, hrevisions⟩
    have hint : arg'.toInt = source.store.revision.toNat := w.send_eq hsend'
    rw [Int32.lt_iff_toInt_lt, hint]
    exact Int.not_lt.mpr (Int.natCast_nonneg _)

end Registry

end Whole

/-- What a registry has in any case, be it of a session that loaded nothing. -/
theorem registry_of_run (lands : Nat → Bool) (cfg : Config) (random : Option BridgeId)
    (events : List Event) :
    let s := (Session.run lands (Session.powerOn lands cfg random) events).store
    s.WellFormed ∧ commandIdFirst ≤ s.nextCommandId ∧ ∀ c ∈ s.commands, c.commandId < s.nextCommandId := by
  intro s
  rcases Session.sound_or_unloaded lands cfg random events with hsound | ⟨cfg', fault, hstore⟩
  · exact ⟨hsound.toWellFormed, hsound.next_pos, hsound.id_lt⟩
  · have hfirst : commandIdFirst ≤ commandIdFirst := by decide
    have hpos : revisionInitial ≤ revisionInitial := by decide
    have hle : revisionInitial ≤ revisionMax := by decide
    -- only the revision of such a session is not one that is ever written
    have hsound : ({ unloaded cfg' fault with revision := revisionInitial } : CommandStore).Sound :=
      Sound.of_empty rfl (Or.inl rfl) hfirst hpos hle
    have hs : s = unloaded cfg' fault := hstore
    rw [hs]
    exact ⟨{ hsound with }, hsound.next_pos, hsound.id_lt⟩

/-- **Preflight completeness.**  For the registry of any reachable device, and any reachable device
    whose status passes the checks, every call of the restore is accepted exactly if the numbers of
    the registry fit in 31 bits, its revision is below `REVISION_MAX`, the target has a revision left
    for each step, and its storage holds the waveforms beside its header and index. -/
theorem preflight_complete_iff {w : Wire} (hw : w.Full) (lands lands' : Nat → Bool)
    (cfg cfg' : Config) (random random' : Option BridgeId) (events events' : List Event)
    (lastResult lastResult' : Bytes) (now : Timestamp) :
    let source : Cloner := ⟨(Session.run lands (Session.powerOn lands cfg random) events).store,
      lastResult⟩
    let target : Cloner := ⟨(Session.run lands' (Session.powerOn lands' cfg' random') events').store,
      lastResult'⟩
    checkRestoreTarget target.rfStatus (replicaOf source now) = .ok () →
    (AcceptsRestore w (replicaOf source now) target ↔ HasRoom target.store source.store) := by
  intro source target hcheck
  obtain ⟨hwf, hpos, hids⟩ := registry_of_run lands cfg random events
  have hfounded := Session.founded_run lands' cfg' random' events'
  have hrestorable : Restorable target.store :=
    Restorable.of_check hcheck hfounded.backend hfounded.ram
  exact ⟨hasRoom_of_accepts hw hrestorable hwf, accepts_of_hasRoom hw hrestorable hwf hpos hids hcheck⟩

/-! ## The last revision -/

/-- A device at the last revision: it was the target of a restore that continued the one before. -/
def lastRevision : Cloner :=
  ⟨(Session.run (fun _ => true) (Session.powerOn (fun _ => true) ⟨1, 4, 92, 7⟩ none)
    [.op (.restoreBegin formerBridge 1), .op (.restoreCommit (revisionMax - 1))]).store, []⟩

theorem reached_lastRevision : Reached lastRevision :=
  ⟨fun _ => true, ⟨1, 4, 92, 7⟩, none,
    [.op (.restoreBegin formerBridge 1), .op (.restoreCommit (revisionMax - 1))],
    by rw [lastRevision]⟩

/-- **The check admits the last revision, and the commit does not**: the restore stays open. -/
theorem last_revision_refused :
    let replica := replicaOf lastRevision 0
    lastRevision.store.revision = revisionMax ∧
    (SnapshotManager.asyncRefresh ⟨lastRevision.rfStatus.bridgeId, none⟩ lastRevision.rfStatus 0
      (exportsOf Wire.exact (fun _ => lastRevision) fun _ => true)).snapshot = some replica ∧
    checkRestoreTarget (newHardware 136).rfStatus replica = .ok () ∧
    ¬ AcceptsRestore Wire.exact replica (newHardware 136) ∧
    (asyncRestore Wire.exact (fun _ => {}) replica (newHardware 136)).2.store.restoreState ≠ 0 := by
  intro replica
  have hcheck : checkRestoreTarget (newHardware 136).rfStatus replica = .ok () := by decide +kernel
  have htarget := (reached_newHardware 136).kept
  have hsource := reached_lastRevision.kept.2 (by decide +kernel)
  refine ⟨by decide +kernel, asyncRefresh_replicaOf Wire.full_exact (by decide +kernel) ?_, hcheck,
    fun haccepts => ?_, by decide +kernel⟩
  · decide +kernel
  · have hroom := hasRoom_of_accepts Wire.full_exact
      (Restorable.of_check hcheck htarget.1 htarget.2) hsource.toWellFormed haccepts
    exact absurd hroom.sourceRevision (by decide +kernel)

/-- A restore that is accepted throughout. -/
theorem one_button_accepted :
    AcceptsRestore Wire.exact (replicaOf oneButton 0) (newHardware 136) := by
  refine (preflight_complete_iff Wire.full_exact (fun _ => true) (fun _ => true) ⟨1, 4, 92, 7⟩
    ⟨2, 4, 136, 7⟩ none none [.op (.put { name := ascii "on", timings := [350, -1050] })] [] [] [] 0
    (show checkRestoreTarget (newHardware 136).rfStatus (replicaOf oneButton 0) = .ok () by
      decide +kernel)).mpr ?_
  exact ⟨portable_oneButton, by decide +kernel, by decide +kernel, fun _ => by decide +kernel⟩

end RfCloner
