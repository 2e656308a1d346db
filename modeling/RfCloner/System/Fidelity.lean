/-
  From one bridge to another.

  The registry of a device is exported command by command, kept as a snapshot, stored as JSON and
  read back, and written onto another device.  On the way it is a row of slots, a list of exports, a
  dictionary, the arguments of imports and another row of slots.  `backup_restores` is what has to
  hold of the two devices for the second one to end up with the registry of the first.
-/
import RfCloner.System.PartialRestore
import RfCloner.Hass.Stored

namespace RfCloner

open CommandStore

/-- A device that some run of operations and reboots leads to, under whatever configurations and
    whatever saves have failed. -/
def Reached (c : Cloner) : Prop :=
  ∃ (lands : Nat → Bool) (cfg : Config) (random : Option BridgeId) (events : List Event),
    c.store = (Session.run lands (Session.powerOn lands cfg random) events).store

/-- Every 32-bit integer is carried. -/
def Wire.Full (w : Wire) : Prop := ∀ arg : Int32, w.send arg.toInt = some arg

/-! ## Commands are their bodies -/

section Bodies

variable {c d : Command}

/-- A command with a valid name is known by its body. -/
theorem eq_of_body (hc : validateName c.name = .ok) (hd : validateName d.name = .ok)
    (h : c.body = d.body) : c = d := by
  have hid := commandId_inj_of_body h
  have hname : ofUtf8 c.name = ofUtf8 d.name := congrArg ExportedCommand.name h
  have hname' : c.name = d.name := by
    rw [← utf8_ofUtf8 (lt_of_validateName hc), hname, utf8_ofUtf8 (lt_of_validateName hd)]
  have hgap : c.gapUs = d.gapUs :=
    UInt32.toNat_inj.mp (Int.ofNat_inj.mp (congrArg ExportedCommand.gapUs h))
  have hrepeats : c.repeatTimes = d.repeatTimes :=
    UInt16.toNat_inj.mp (Int.ofNat_inj.mp (congrArg ExportedCommand.repeatTimes h))
  have hfrequency : c.frequencyHz = d.frequencyHz :=
    UInt32.toNat_inj.mp (Int.ofNat_inj.mp (congrArg ExportedCommand.frequencyHz h))
  have hmodulation : c.modulation = d.modulation :=
    UInt8.toNat_inj.mp (Int.ofNat_inj.mp (congrArg ExportedCommand.modulation h))
  have htimings : c.timings = d.timings :=
    List.map_injective_iff.mpr (fun _ _ => Int32.toInt_inj.mp) (congrArg ExportedCommand.timings h)
  cases c
  cases d
  dsimp only at hid hname' hgap hrepeats hfrequency hmodulation htimings
  subst hid hname' hgap hrepeats hfrequency hmodulation htimings
  rfl

/-- Two sound stores whose commands have the same bodies have the same commands. -/
theorem commands_perm_of_bodies {s t : CommandStore} (hs : s.WellFormed) (ht : t.WellFormed)
    (h : ∀ b, b ∈ s.commands.map Command.body ↔ b ∈ t.commands.map Command.body) :
    s.commands.Perm t.commands := by
  have hsub {s t : CommandStore} (hs : s.WellFormed) (ht : t.WellFormed)
      (h : ∀ b, b ∈ s.commands.map Command.body → b ∈ t.commands.map Command.body) :
      ∀ c ∈ s.commands, c ∈ t.commands := by
    intro c hc
    obtain ⟨d, hd, hbody⟩ := List.mem_map.mp (h _ (List.mem_map_of_mem hc))
    rw [← eq_of_body (ht.names_valid d hd) (hs.names_valid c hc) hbody]
    exact hd
  rw [List.perm_ext_iff_of_nodup (List.Nodup.of_map _ hs.ids_nodup) (List.Nodup.of_map _ ht.ids_nodup)]
  exact fun c => ⟨hsub hs ht (fun b => (h b).mp) c, hsub ht hs (fun b => (h b).mpr) c⟩

end Bodies

/-! ## The snapshot of a device -/

section Source

variable {source : Cloner} {w : Wire} {now : Timestamp}

theorem Wire.Full.send_of_lt (hw : w.Full) {n : Nat} (hn : n < 2 ^ 31) :
    ∃ arg, w.send n = some arg ∧ arg.toUInt32.toNat = n := by
  have hint : (Int32.ofInt n).toInt = n := Int32.toInt_ofInt_of_le (by omega) (by omega)
  refine ⟨Int32.ofInt n, ?_, toNat_toUInt32_of_toInt hint⟩
  have hsend := hw (Int32.ofInt n)
  rw [hint] at hsend
  exact hsend

/-- The replica of a device, at a moment. -/
def replicaOf (source : Cloner) (now : Timestamp) : Snapshot :=
  ⟨source.rfStatus.bridgeId, source.rfStatus.revision, source.rfStatus.nextCommandId, now,
    source.portable⟩

/-- **A refresh without a replica takes one**, when nothing changes meanwhile and every id fits. -/
theorem asyncRefresh_replicaOf (hw : w.Full) (hclosed : source.store.restoreState = 0)
    (hids : ∀ c ∈ source.store.commands, c.commandId.toNat < 2 ^ 31) :
    (SnapshotManager.asyncRefresh ⟨source.rfStatus.bridgeId, none⟩ source.rfStatus now
      (exportsOf w (fun _ => source) fun _ => true)).snapshot = some (replicaOf source now) := by
  have hconsiders : SnapshotManager.Considers ⟨source.rfStatus.bridgeId, none⟩ source.rfStatus :=
    ⟨rfl, source.restoreIncomplete_rfStatus.mpr hclosed, fun _ h => nomatch h⟩
  have hreplaces : SnapshotManager.Replaces ⟨source.rfStatus.bridgeId, none⟩ source.rfStatus
      (exportsOf w (fun _ => source) fun _ => true) source.portable := by
    refine replaces_rfStatus.mpr ⟨hconsiders, List.length_map _, fun k c hk => ⟨rfl, ?_, ?_⟩⟩
    · obtain ⟨arg, hsend, -⟩ := hw.send_of_lt (hids c (List.mem_of_getElem? hk))
      rw [hsend]
      rfl
    · exact Cloner.exportOf_listed hk
  have hexports := SnapshotManager.asyncExportAll_eq_some.mpr hreplaces.2
  rw [SnapshotManager.asyncRefresh_of_considers hconsiders, hexports]
  rfl

/-- The numbers of a registry all fit in 31 bits. -/
structure Portable (s : CommandStore) : Prop where
  next : s.nextCommandId.toNat < 2 ^ 31
  fields : ∀ c ∈ s.commands, c.gapUs.toNat < 2 ^ 31 ∧ c.frequencyHz.toNat < 2 ^ 31

theorem Portable.id_lt {s : CommandStore} (h : Portable s) (hs : s.Sound) :
    ∀ c ∈ s.commands, c.commandId.toNat < 2 ^ 31 := by
  intro c hc
  have := UInt32.lt_iff_toNat_lt.mp (hs.id_lt c hc)
  have := h.next
  omega

theorem mem_replicaOf {e : ExportedCommand} (hwf : source.store.WellFormed) :
    e ∈ (replicaOf source now).commands ↔ ∃ c ∈ source.store.commands, source.exported c = e := by
  show e ∈ source.portable ↔ _
  rw [Cloner.portable_eq hwf, List.mem_map]

theorem bodies_replicaOf (hwf : source.store.WellFormed) :
    (replicaOf source now).commands.map ExportedCommand.body
      = source.store.commands.map Command.body := by
  show source.portable.map ExportedCommand.body = _
  rw [Cloner.portable_eq hwf, List.map_map]
  rfl

theorem nextOnDevice_replicaOf (h : Portable source.store) :
    nextOnDevice (replicaOf source now) = source.store.nextCommandId.toNat := by
  have := h.next
  show ((source.store.nextCommandId.toNat : Int) % 2 ^ 32).toNat = _
  omega

/-- A command whose numbers fit in 31 bits can be sent. -/
theorem importArgs_exported (hw : w.Full) {c : Command} (hid : c.commandId.toNat < 2 ^ 31)
    (hfields : c.gapUs.toNat < 2 ^ 31 ∧ c.frequencyHz.toNat < 2 ^ 31) :
    (importArgs w (source.exported c)).isSome = true := by
  have htimings : ∀ timings : List Int32, (timings.map Int32.toInt).mapM w.send = some timings := by
    intro timings
    induction timings with
    | nil => rfl
    | cons t timings ih =>
      rw [List.map_cons, List.mapM_cons, hw, ih]
      rfl
  obtain ⟨_, hid, -⟩ := hw.send_of_lt hid
  obtain ⟨_, hgap, -⟩ := hw.send_of_lt hfields.1
  obtain ⟨_, hfrequency, -⟩ := hw.send_of_lt hfields.2
  obtain ⟨_, hrepeats, -⟩ := hw.send_of_lt (Nat.lt_trans c.repeatTimes.toNat_lt (by decide))
  obtain ⟨_, hmodulation, -⟩ := hw.send_of_lt (Nat.lt_trans c.modulation.toNat_lt (by decide))
  unfold importArgs Cloner.exported
  rw [hid, htimings, hgap, hrepeats, hfrequency, hmodulation]
  rfl

/-- **The replica of a sound device fits any other that has the room**, if the imports land. -/
theorem fitting_replicaOf (h : Portable source.store) (hs : source.store.Sound) {cfg : Config}
    (hbytes : source.store.commands ≠ [] →
      overhead cfg + source.store.payloadTotal ≤ cfg.maxStorageBytes.toNat)
    {line : Nat → Fate} (hline : ∀ k, (line k).lands = true) :
    Fitting line (replicaOf source now) cfg := by
  have hwf := hs.toWellFormed
  have hname : ∀ c ∈ source.store.commands, utf8 (ofUtf8 c.name) = c.name :=
    fun c hc => utf8_ofUtf8 (lt_of_validateName (hwf.names_valid c hc))
  -- in range, apart, within the budget, and sent
  refine ⟨fun e he => ?_, fun e he f hf hkey => ?_, fun hne => ?_, fun e he => ?_⟩
  · obtain ⟨c, hc, rfl⟩ := (mem_replicaOf hwf).mp he
    obtain ⟨i, -, hocc⟩ := SlotTable.mem_content.mp hc
    have hpos : c.commandId.toNat ≠ 0 := fun hzero =>
      Command.occupied_iff.mp hocc (UInt32.toNat_inj.mp hzero)
    have hlt := UInt32.lt_iff_toNat_lt.mp (hs.id_lt c hc)
    have h16 := c.repeatTimes.toNat_lt
    have h8 := c.modulation.toNat_lt
    refine
      { id_pos := show (1 : Int) ≤ c.commandId.toNat by omega
        id_lt := ?_
        name_valid := ?_
        timings_ne := ?_
        gap := Int.natCast_nonneg _
        repeats := show 0 ≤ (c.repeatTimes.toNat : Int) ∧ (c.repeatTimes.toNat : Int) < 2 ^ 16 by omega
        frequency := Int.natCast_nonneg _
        modulation := show 0 ≤ (c.modulation.toNat : Int) ∧ (c.modulation.toNat : Int) < 2 ^ 8 by omega }
    · rw [nextOnDevice_replicaOf h]
      exact Int.ofNat_lt.mpr hlt
    · show validateName (utf8 (ofUtf8 c.name)) = .ok
      rw [hname c hc]
      exact hwf.names_valid c hc
    · intro hnil
      have hpulses := hwf.timings_pos c hc
      rw [List.map_eq_nil_iff.mp hnil] at hpulses
      cases hpulses
  · obtain ⟨c, hc, rfl⟩ := (mem_replicaOf hwf).mp he
    obtain ⟨d, hd, rfl⟩ := (mem_replicaOf hwf).mp hf
    refine congrArg (fun c => (source.exported c).body) ?_
    rcases hkey with hid | hsame
    · exact List.inj_on_of_nodup_map hwf.ids_nodup hc hd (UInt32.toNat_inj.mp (Int.ofNat_inj.mp hid))
    · refine List.inj_on_of_nodup_map hwf.names_nodup hc hd ?_
      rw [← hname c hc, ← hname d hd]
      exact congrArg utf8 hsame
  · have hsome : source.store.commands ≠ [] := by
      rintro hnil
      refine hne ?_
      show source.portable = []
      rw [Cloner.portable_eq hwf, hnil]
      rfl
    rw [bodies_replicaOf hwf, List.dedup_eq_self.mpr (nodup_bodies hwf.ids_nodup), ← sum_payloadBytes]
    exact hbytes hsome
  · obtain ⟨i, hi⟩ := List.mem_iff_getElem?.mp he
    exact ⟨i, e, hi, rfl, hline _⟩

end Source

/-! ## The restore -/

theorem Reached.kept {c : Cloner} (h : Reached c) :
    c.store.backend = true ∧ (c.store.readOnly = false → c.store.Sound) := by
  obtain ⟨lands, cfg, random, events, hstore⟩ := h
  have hfounded := Session.founded_run lands cfg random events
  rw [hstore]
  exact ⟨hfounded.backend, hfounded.ram⟩

/-- A device that can take the registry of another: empty and healthy, with as many slots and pulses,
    with room for the waveforms beside its own header and index, and with revisions left. -/
structure Takes (target source : CommandStore) : Prop where
  writable : target.readOnly = false
  closed : target.restoreState = 0
  empty : target.commands = []
  slots : source.config.maxCommands ≤ target.config.maxCommands
  pulses : source.config.maxPulses ≤ target.config.maxPulses
  bytes : source.commands ≠ [] →
    overhead target.config + source.payloadTotal ≤ target.config.maxStorageBytes.toNat
  revisions : target.revision.toNat + 1 + source.commands.length < revisionMax.toNat

section Restoring

variable {source target : Cloner} {w : Wire} {now : Timestamp}

/-- The target passes the checks. -/
theorem check_of_takes (now : Timestamp) (hs : source.store.Sound) (htakes : Takes target.store source.store)
    (hrevision : source.store.revision < revisionMax) :
    checkRestoreTarget target.rfStatus (replicaOf source now) = .ok () := by
  have hlen : (replicaOf source now).commands.length = source.store.commands.length :=
    List.length_map _
  have hslots := UInt8.le_iff_toNat_le.mp htakes.slots
  have hpulses := UInt16.le_iff_toNat_le.mp htakes.pulses
  have hcount : source.store.commands.length ≤ source.store.config.maxCommands.toNat := by
    rw [← hs.sized]
    exact List.length_filter_le _ _
  refine checkRestoreTarget_ok.mpr ⟨htakes.writable,
    target.restoreIncomplete_rfStatus.mpr htakes.closed, ?_, ?_, fun e he => ?_,
    Int.natCast_nonneg _, ?_⟩
  · show (target.store.count : Int) = 0
    rw [count_eq, htakes.empty]
    rfl
  · rw [hlen]
    exact Int.ofNat_le.mpr (by omega)
  · obtain ⟨c, hc, rfl⟩ := (mem_replicaOf hs.toWellFormed).mp he
    have hle := hs.timings_le c hc
    show ((c.timings.map Int32.toInt).length : Int) ≤ (target.store.config.maxPulses.toNat : Int)
    rw [List.length_map]
    exact Int.ofNat_le.mpr (by omega)
  · have hlt := UInt32.lt_iff_toNat_lt.mp hrevision
    have hmax : revisionMax.toNat = 2 ^ 31 - 2 := rfl
    show (source.store.revision.toNat : Int) ≤ revisionMaxHass
    unfold revisionMaxHass
    omega

/-- What the target keeps is what the source has. -/
theorem keptOf_perm (now : Timestamp) (hw : w.Full) (hportable : Portable source.store) (hs : source.store.Sound)
    (htakes : Takes target.store source.store) (hrevision : source.store.revision < revisionMax) :
    ((keptOf w (fun _ => {}) (replicaOf source now) target.store.config).map Command.body).Perm
      (source.store.commands.map Command.body) := by
  have hwf := hs.toWellFormed
  obtain ⟨-, -, -, hslots, hpulses, -⟩ :=
    checkRestoreTarget_ok.mp (check_of_takes now hs htakes hrevision)
  have hfitting : Fitting (fun _ => {}) (replicaOf source now) target.store.config :=
    fitting_replicaOf hportable hs htakes.bytes fun _ => rfl
  have hsendable : ∀ e ∈ (replicaOf source now).commands, (importArgs w e).isSome = true := by
    intro e he
    obtain ⟨c, hc, rfl⟩ := (mem_replicaOf hwf).mp he
    exact importArgs_exported hw (hportable.id_lt hs c hc) (hportable.fields c hc)
  have hsame := hfitting.same hsendable (Int.ofNat_le.mp hslots)
    fun e he => Int.ofNat_le.mp (hpulses e he)
  rw [bodies_replicaOf hwf] at hsame
  exact (List.perm_ext_iff_of_nodup (nodup_bodies together_keptOf.ids)
    (nodup_bodies hwf.ids_nodup)).mpr hsame

/-- Nothing stops the restore before its commit lands. -/
theorem commits_of_takes (hw : w.Full) (hportable : Portable source.store) (hs : source.store.Sound)
    (htakes : Takes target.store source.store) (hrevision : source.store.revision < revisionMax) :
    Commits w (fun _ => {}) (replicaOf source now) target.store := by
  have hkept := (keptOf_perm now hw hportable hs htakes hrevision).length_eq
  rw [List.length_map, List.length_map] at hkept
  obtain ⟨arg, hsend, harg⟩ := hw.send_of_lt hportable.next
  obtain ⟨_, hsent, -⟩ := hw.send_of_lt (Nat.lt_trans (UInt32.lt_iff_toNat_lt.mp hrevision)
    (show revisionMax.toNat < 2 ^ 31 by decide))
  have hfirst : (1 : UInt32).toNat ≤ source.store.nextCommandId.toNat :=
    UInt32.le_iff_toNat_le.mp hs.next_pos
  have hroom : target.store.revision < revisionMax := by
    rw [UInt32.lt_iff_toNat_lt]
    have := htakes.revisions
    omega
  refine
    { answered := rfl
      begun := ⟨arg, source.store.bridgeId, ⟨rfl, hsend, parseBridgeId_hex _, ?_, hroom⟩, rfl⟩
      continued := rfl
      imported := fun i e he => ⟨?_, rfl⟩
      lands := rfl
      sent := by
        show (w.send source.store.revision.toNat).isSome = true
        rw [hsent]
        rfl
      advances := ⟨Int.ofNat_lt.mpr (UInt32.lt_iff_toNat_lt.mp hrevision), ?_⟩ }
  · intro hzero
    rw [hzero] at harg
    have : (0 : UInt32).toNat = 0 := rfl
    have : (1 : UInt32).toNat = 1 := rfl
    omega
  · obtain ⟨c, hc, rfl⟩ := (mem_replicaOf hs.toWellFormed).mp (List.mem_of_getElem? he)
    exact importArgs_exported hw (hportable.id_lt hs c hc) (hportable.fields c hc)
  · rw [hkept]
    exact htakes.revisions

end Restoring

/-- **Backup and restore.**  The registry of a reachable device whose numbers fit in 31 bits, exported,
    stored, read back and restored onto a device that can take it, is the registry of that device,
    under the same identity and next id, at a later revision. -/
theorem backup_restores {out : Outside} {w : Wire} (hw : w.Full) {source target : Cloner}
    (hsource : Reached source) (hready : source.store.readOnly = false)
    (hclosed : source.store.restoreState = 0) (hportable : Portable source.store)
    (hrevision : source.store.revision < revisionMax) (htarget : Reached target)
    (htakes : Takes target.store source.store) {now : Timestamp}
    (hclock : out.parseDatetime (out.isoformat now) = some now) :
    ∃ replica restored : Snapshot,
      (SnapshotManager.asyncRefresh ⟨source.rfStatus.bridgeId, none⟩ source.rfStatus now
        (exportsOf w (fun _ => source) fun _ => true)).snapshot = some replica ∧
      Snapshot.fromStored out (replica.asStored out) = .ok (some restored) ∧
      let p := asyncRestore w (fun _ => {}) restored target
      p.1 = .ok () ∧ p.2.store.bridgeId = source.store.bridgeId ∧
        p.2.store.nextCommandId = source.store.nextCommandId ∧
        p.2.store.commands.Perm source.store.commands ∧ p.2.store.restoreState = 0 ∧
        source.store.revision < p.2.store.revision := by
  have hs := hsource.kept.2 hready
  have hwf := hs.toWellFormed
  refine ⟨replicaOf source now, replicaOf source now,
    asyncRefresh_replicaOf hw hclosed (hportable.id_lt hs), fromStored_asStored _ hclock, ?_⟩
  intro p
  have hcheck : checkRestoreTarget target.rfStatus (replicaOf source now) = .ok () :=
    check_of_takes now hs htakes hrevision
  have hcommits : Commits w (fun _ => {}) (replicaOf source now) target.store :=
    commits_of_takes hw hportable hs htakes hrevision
  have hrestorable := Restorable.of_check hcheck htarget.kept.1 htarget.kept.2
  obtain ⟨B, nextId, hB, hnext, hdone⟩ :=
    ((asyncRestore_cases w (fun _ => {}) hrestorable hcheck).resolve_right
      fun h => h.1 hcommits).2
  have hkept := keptOf_perm now hw hportable hs htakes hrevision
  have hbridge : p.2.store.bridgeId = source.store.bridgeId :=
    hdone.bridgeId.trans (BridgeId.hex_inj hB)
  have hcommands : p.2.store.commands.Perm source.store.commands := by
    -- the slots may differ, so the bodies are compared as sets
    refine commands_perm_of_bodies hdone.sound.toWellFormed hwf fun b => ?_
    exact ((hdone.commands.map Command.body).trans hkept).mem_iff
  have hadvances : source.store.revision < p.2.store.revision := by
    have hrev : p.2.store.revision.toNat = _ := hdone.revision
    have hnat : (replicaOf source now).revision.toNat = source.store.revision.toNat :=
      Int.toNat_natCast _
    rw [UInt32.lt_iff_toNat_lt, hrev, hnat]
    omega
  refine ⟨?_, hbridge, ?_, hcommands, hdone.closed, hadvances⟩
  · -- the last status passes every check
    have hresult : p.1 = checkRestored p.2.rfStatus (replicaOf source now) :=
      asyncRestore_result hrestorable hcheck hcommits rfl rfl
    rw [hresult]
    have hcount : p.2.store.count = source.portable.length :=
      count_eq.trans (hcommands.length_eq.trans (List.length_map _).symm)
    have hlater := UInt32.lt_iff_toNat_lt.mp hadvances
    have hidentity : p.2.rfStatus.bridgeId = (replicaOf source now).bridgeId :=
      congrArg BridgeId.hex hbridge
    have hclosed' : p.2.rfStatus.restoreIncomplete = false :=
      p.2.restoreIncomplete_rfStatus.mpr hdone.closed
    have hall : p.2.rfStatus.count = (replicaOf source now).commands.length :=
      Int.ofNat_inj.mpr hcount
    have hrev : ¬ p.2.rfStatus.revision ≤ (replicaOf source now).revision :=
      fun hle => Nat.not_le.mpr hlater (Int.ofNat_le.mp hle)
    unfold checkRestored
    rw [if_neg (not_not_intro hidentity), if_neg (Bool.eq_false_iff.mp hclosed'),
      if_neg (not_not_intro hall), if_neg hrev]
  · exact UInt32.toNat_inj.mp ((congrArg UInt32.toNat hdone.nextCommandId).trans
      (hnext.trans (nextOnDevice_replicaOf hportable)))

/-! ## The header and the index of the target -/

theorem Wire.full_exact : Wire.exact.Full := by
  intro arg
  show (if (Int32.ofInt arg.toInt).toInt = arg.toInt then _ else none) = _
  rw [Int32.ofInt_toInt, if_pos rfl]

/-- The clock, at the one moment that is read here. -/
def epoch : Outside where
  repr _ := []
  isoformat _ := str "1970-01-01T00:00:00+00:00"
  parseDatetime text := if text = str "1970-01-01T00:00:00+00:00" then some 0 else none

/-- A device of one slot with a command of eight bytes, beside a header and an index of 84. -/
def oneButton : Cloner :=
  ⟨(Session.run (fun _ => true) (Session.powerOn (fun _ => true) ⟨1, 4, 92, 7⟩ none)
    [.op (.put { name := ascii "on", timings := [350, -1050] })]).store, []⟩

theorem reached_oneButton : Reached oneButton :=
  ⟨fun _ => true, ⟨1, 4, 92, 7⟩, none, [.op (.put { name := ascii "on", timings := [350, -1050] })],
    rfl⟩

theorem reached_newHardware (maxStorageBytes : UInt32) : Reached (newHardware maxStorageBytes) :=
  ⟨fun _ => true, ⟨2, 4, maxStorageBytes, 7⟩, none, [], rfl⟩

theorem portable_oneButton : Portable oneButton.store :=
  ⟨by decide +kernel, by decide +kernel⟩

/-- **More slots take more bytes.**  The target has at least as much of everything, but its index is
    the larger one and leaves no room for the waveform. -/
theorem larger_index_refuses :
    let p := asyncRestore Wire.exact (fun _ => {}) (replicaOf oneButton 0) (newHardware 130)
    Reached oneButton ∧ oneButton.store.readOnly = false ∧ oneButton.store.restoreState = 0 ∧
      Portable oneButton.store ∧ oneButton.store.revision < revisionMax ∧
    Reached (newHardware 130) ∧ (newHardware 130).store.readOnly = false ∧
      (newHardware 130).store.restoreState = 0 ∧ (newHardware 130).store.commands = [] ∧
    oneButton.store.config.maxCommands ≤ (newHardware 130).store.config.maxCommands ∧
      oneButton.store.config.maxPulses ≤ (newHardware 130).store.config.maxPulses ∧
      oneButton.store.config.maxStorageBytes ≤ (newHardware 130).store.config.maxStorageBytes ∧
      (newHardware 130).store.revision.toNat + 2 < revisionMax.toNat ∧
    Snapshot.fromStored epoch ((replicaOf oneButton 0).asStored epoch)
      = .ok (some (replicaOf oneButton 0)) ∧
    p.1 = .error (.homeAssistant (str "Restore wrote 0 of 1 command(s)")) ∧
      p.2.store.commands = [] ∧ oneButton.store.commands.length = 1 :=
  ⟨reached_oneButton, by decide +kernel, by decide +kernel, portable_oneButton, by decide +kernel,
    reached_newHardware 130, by decide +kernel, by decide +kernel, by decide +kernel,
    by decide +kernel, by decide +kernel, by decide +kernel, by decide +kernel,
    fromStored_asStored _ rfl, by decide +kernel, by decide +kernel, by decide +kernel⟩

/-- With eight bytes beside the larger index the command is restored. -/
theorem larger_index_restores :
    ∃ replica restored : Snapshot,
      (SnapshotManager.asyncRefresh ⟨oneButton.rfStatus.bridgeId, none⟩ oneButton.rfStatus 0
        (exportsOf Wire.exact (fun _ => oneButton) fun _ => true)).snapshot = some replica ∧
      Snapshot.fromStored epoch (replica.asStored epoch) = .ok (some restored) ∧
      let p := asyncRestore Wire.exact (fun _ => {}) restored (newHardware 136)
      p.1 = .ok () ∧ p.2.store.commands.Perm oneButton.store.commands := by
  have htakes : Takes (newHardware 136).store oneButton.store :=
    { writable := by decide +kernel
      closed := by decide +kernel
      empty := by decide +kernel
      slots := by decide +kernel
      pulses := by decide +kernel
      bytes := fun _ => by decide +kernel
      revisions := by decide +kernel }
  obtain ⟨replica, restored, hreplica, hrestored, hok, -, -, hcommands, -⟩ :=
    backup_restores Wire.full_exact reached_oneButton (by decide +kernel) (by decide +kernel)
      portable_oneButton (by decide +kernel) (reached_newHardware 136) htakes
      (show epoch.parseDatetime (epoch.isoformat 0) = some 0 from rfl)
  exact ⟨replica, restored, hreplica, hrestored, hok, hcommands⟩

end RfCloner
