/-
  A replica is taken whole or not at all (`snapshot.py`).

  A refresh keeps the replica that it has unless every listed command has been exported, and the
  replica survives its stored form.  Reading that form back is meant to be as strict: a command that
  cannot be read discards the snapshot.  But what an item that is no dictionary raises is not among
  the exceptions that are taken for an unreadable snapshot, and leaves `from_stored`.
-/
import RfCloner.Hass.Snapshot
import RfCloner.Hass.Stored

namespace RfCloner

/-! ## Refreshing -/

namespace SnapshotManager

variable {m : SnapshotManager} {status : BridgeStatus} {now : Timestamp}
  {answers : Nat → Int → ExportResult}

/-- What keeps a replica from being refreshed: the status of another bridge, an open restore, the
    revision that the replica has, or a listed command that could not be exported. -/
inductive Keeps (m : SnapshotManager) (status : BridgeStatus) (answers : Nat → Int → ExportResult) :
    Prop where
  | foreign : status.bridgeId ≠ m.bridgeId → Keeps m status answers
  | incomplete : status.restoreIncomplete = true → Keeps m status answers
  | current {s : Snapshot} : m.snapshot = some s → s.revision = status.revision →
      Keeps m status answers
  | unexported {k : Nat} {info : CommandInfo} : status.commands[k]? = some info →
      (∀ command, answers k info.commandId ≠ .command command) → Keeps m status answers

/-- The commands are what the export of each listed command came to, in the order of the listing. -/
def Exports (status : BridgeStatus) (answers : Nat → Int → ExportResult)
    (commands : List ExportedCommand) : Prop :=
  ∀ k : Nat, (status.commands[k]?).map (fun info => answers k info.commandId)
    = (commands[k]?).map ExportResult.command

/-- A replacement is what is left when nothing keeps the replica. -/
theorem exists_replaces_iff_not_keeps (hown : ∀ s, m.snapshot = some s → s.bridgeId = m.bridgeId) :
    (∃ commands, m.Replaces status answers commands) ↔ ¬ m.Keeps status answers := by
  constructor
  · rintro ⟨commands, hreplaces⟩ hkeeps
    obtain ⟨hconsiders, hexported⟩ := replaces_iff.mp hreplaces
    cases hkeeps with
    | foreign hforeign => exact hforeign hconsiders.own
    | incomplete hopen =>
      rw [hconsiders.complete] at hopen
      cases hopen
    | current hs hrevision =>
      exact hconsiders.outdated _ hs ⟨(hown _ hs).trans hconsiders.own.symm, hrevision⟩
    | @unexported k info hinfo hnone =>
      have hk := hexported k
      rw [hinfo, Option.map_some] at hk
      obtain ⟨command, -, hcommand⟩ := Option.map_eq_some_iff.mp hk.symm
      exact hnone command hcommand.symm
  · intro hnone
    have hconsiders : m.Considers status := by
      refine ⟨?_, ?_, fun s hs hsame => hnone (.current hs hsame.2)⟩
      · by_contra hforeign
        exact hnone (.foreign hforeign)
      · by_contra hopen
        exact hnone (.incomplete (Bool.not_eq_false _ ▸ hopen))
    -- every call has an answer to take
    have hall : ∀ p ∈ status.commands.zipIdx, ∃ command,
        answers p.2 p.1.commandId = .command command := by
      rintro ⟨info, k⟩ hmem
      by_contra hunexported
      rw [not_exists] at hunexported
      exact hnone (.unexported (List.mem_zipIdx_iff_getElem?.mp hmem) hunexported)
    obtain ⟨commands, hcommands⟩ : ∃ commands : List ExportedCommand,
        status.commands.zipIdx.map (fun p => answers p.2 p.1.commandId)
          = commands.map ExportResult.command := by
      generalize status.commands.zipIdx = listing at hall
      induction listing with
      | nil => exact ⟨[], rfl⟩
      | cons p listing ih =>
        obtain ⟨command, hcommand⟩ := hall p List.mem_cons_self
        obtain ⟨commands, hrest⟩ := ih fun q hq => hall q (List.mem_cons_of_mem _ hq)
        refine ⟨command :: commands, ?_⟩
        rw [List.map_cons, List.map_cons, hcommand, hrest]
    exact ⟨commands, hconsiders, hcommands⟩

variable (status now answers) in
/-- **A refresh is whole or nothing.** -/
theorem asyncRefresh_whole (hown : ∀ s, m.snapshot = some s → s.bridgeId = m.bridgeId) :
    (m.Keeps status answers → m.asyncRefresh status now answers = m) ∧
    (¬ m.Keeps status answers → ∃ commands, Exports status answers commands ∧
      m.asyncRefresh status now answers = { m with
        snapshot := some ⟨status.bridgeId, status.revision, status.nextCommandId, now, commands⟩ }) := by
  have hiff : (∃ commands, m.Replaces status answers commands) ↔ ¬ m.Keeps status answers :=
    exists_replaces_iff_not_keeps hown
  rcases asyncRefresh_cases m status now answers with ⟨hsame, hnone⟩ | ⟨commands, hreplaces, hnew⟩
  · refine ⟨fun _ => hsame, fun hkeeps => ?_⟩
    obtain ⟨commands, hreplaces⟩ := hiff.mpr hkeeps
    exact absurd hreplaces (hnone commands)
  · refine ⟨fun hkeeps => absurd hkeeps (hiff.mp ⟨commands, hreplaces⟩), fun _ => ?_⟩
    exact ⟨commands, (replaces_iff.mp hreplaces).2, hnew⟩

end SnapshotManager

/-! ## Reading back -/

namespace Snapshot

variable {out : Outside}

/-- A command that cannot be read. -/
def Unreadable (out : Outside) (item : Value) : Prop :=
  ∀ command, ExportedCommand.fromPayload out item ≠ .ok (some command)

/-- The commands of a stored form, as the loop of `from_stored` runs through them. -/
def StoredItems (payload : List (Str × Value)) (items : List Value) : Prop :=
  ∃ value, Dict.get payload (str "commands") = some value ∧ value.items = .ok items

/-- The first command that cannot be read is not a dictionary, and the loop gets to it. -/
def Misread (out : Outside) (payload : List (Str × Value)) : Prop :=
  (∃ text capturedAt, Dict.get payload (str "captured_at") = some (.str text) ∧
      out.parseDatetime text = some capturedAt) ∧
    ∃ before item rest, StoredItems payload (before ++ item :: rest) ∧
      (∀ earlier ∈ before, ¬ Unreadable out earlier) ∧ ∀ fields, item ≠ .dict fields

theorem ok_ne_attributeError {α : Type} (a : α) :
    (.ok a : Except PyError α) ≠ .error .attributeError := by
  intro h
  cases h

theorem bind_ne_attributeError {α β : Type} {x : Except PyError α} {f : α → Except PyError β}
    (hx : x ≠ .error .attributeError) (hf : ∀ a, f a ≠ .error .attributeError) :
    x >>= f ≠ .error .attributeError := by
  cases x with
  | error e =>
    intro h
    cases h
    exact hx rfl
  | ok a => exact hf a

theorem toInt_ne_attributeError (value : Value) : value.toInt ≠ .error .attributeError := by
  cases value with
  | str s =>
    cases hs : Decimal.ofText s <;> simp [Value.toInt, hs]
  | _ => simp [Value.toInt]

theorem items_ne_attributeError (value : Value) : value.items ≠ .error .attributeError := by
  cases value <;> simp [Value.items]

theorem getItem_ne_attributeError (payload : List (Str × Value)) (key : String) :
    getItem payload key ≠ .error .attributeError := by
  cases hitem : Dict.get payload (str key) <;> simp [getItem, hitem]

theorem mapM_toInt_ne_attributeError (values : List Value) :
    values.mapM Value.toInt ≠ .error .attributeError := by
  induction values with
  | nil => exact ok_ne_attributeError []
  | cons value values ih =>
    rw [List.mapM_cons]
    exact bind_ne_attributeError (toInt_ne_attributeError value)
      fun _ => bind_ne_attributeError ih fun _ => ok_ne_attributeError _

/-- What a dictionary raises, it raises for a missing key or a value. -/
theorem ofDict_ne_attributeError (fields : List (Str × Value)) :
    ExportedCommand.ofDict out fields ≠ .error .attributeError := by
  have hitem (key : String) {β : Type} {f : Value → Except PyError β}
      (hf : ∀ value, f value ≠ .error .attributeError) :
      (getItem fields key >>= f) ≠ .error .attributeError :=
    bind_ne_attributeError (getItem_ne_attributeError fields key) hf
  have hint (value : Value) {β : Type} {f : Int → Except PyError β}
      (hf : ∀ i, f i ≠ .error .attributeError) : (value.toInt >>= f) ≠ .error .attributeError :=
    bind_ne_attributeError (toInt_ne_attributeError value) hf
  unfold ExportedCommand.ofDict
  split
  · exact ok_ne_attributeError none
  · refine hint _ fun schema => hitem _ fun bridgeId => hitem _ fun _ => hint _ fun commandId => ?_
    refine hitem _ fun name => hitem _ fun _ => hint _ fun gapUs => ?_
    refine hitem _ fun _ => hint _ fun repeatTimes => hitem _ fun _ => hint _ fun frequencyHz => ?_
    refine hitem _ fun _ => hint _ fun modulation => ?_
    refine bind_ne_attributeError (items_ne_attributeError _) fun values => ?_
    exact bind_ne_attributeError (mapM_toInt_ne_attributeError values) fun _ => ok_ne_attributeError _

/-- Only what is no dictionary raises `AttributeError`. -/
theorem fromPayload_eq_attributeError_iff {item : Value} :
    ExportedCommand.fromPayload out item = .error .attributeError ↔ ∀ fields, item ≠ .dict fields := by
  constructor
  · rintro h fields rfl
    exact ofDict_ne_attributeError fields h
  · intro h
    cases item with
    | dict fields => exact absurd rfl (h fields)
    | _ => rfl

theorem not_unreadable_iff {item : Value} :
    ¬ Unreadable out item ↔ ∃ command, ExportedCommand.fromPayload out item = .ok (some command) := by
  simp [Unreadable]

/-- The loop over the commands ends in `AttributeError` at the first that cannot be read, or not at
    all. -/
theorem commandsOf_eq_attributeError_iff {items : List Value} :
    commandsOf out items = .error .attributeError ↔
      ∃ before item rest, items = before ++ item :: rest ∧
        (∀ earlier ∈ before, ¬ Unreadable out earlier) ∧ ∀ fields, item ≠ .dict fields := by
  induction items with
  | nil => simp [commandsOf]
  | cons value values ih =>
    constructor
    · intro h
      cases hread : ExportedCommand.fromPayload out value with
      | error e =>
        rw [commandsOf, hread] at h
        cases h
        exact ⟨[], value, values, rfl, by simp, fromPayload_eq_attributeError_iff.mp hread⟩
      | ok read =>
        cases read with
        | none =>
          rw [commandsOf, hread] at h
          cases h
        | some command =>
          have hrest : commandsOf out values = .error .attributeError := by
            rw [commandsOf, hread] at h
            cases hvalues : commandsOf out values with
            | error e => simpa only [hvalues] using h
            | ok commands =>
              simp only [hvalues] at h
              cases h
          obtain ⟨before, item, rest, rfl, hbefore, hitem⟩ := ih.mp hrest
          refine ⟨value :: before, item, rest, rfl, ?_, hitem⟩
          rw [List.forall_mem_cons]
          exact ⟨not_unreadable_iff.mpr ⟨command, hread⟩, hbefore⟩
    · rintro ⟨before, item, rest, hsplit, hbefore, hitem⟩
      cases before with
      | nil =>
        obtain ⟨rfl, rfl⟩ := List.cons.inj hsplit
        rw [commandsOf, fromPayload_eq_attributeError_iff.mpr hitem]
      | cons earlier before =>
        obtain ⟨rfl, rfl⟩ := List.cons.inj hsplit
        rw [List.forall_mem_cons] at hbefore
        obtain ⟨command, hread⟩ := not_unreadable_iff.mp hbefore.1
        rw [commandsOf, hread, ih.mpr ⟨before, item, rest, rfl, hbefore.2, hitem⟩]

/-- A command that cannot be read is never left out: no snapshot comes of it. -/
theorem commandsOf_ne_some {items : List Value} {item : Value} (hmem : item ∈ items)
    (hunreadable : Unreadable out item) (commands : List ExportedCommand) :
    commandsOf out items ≠ .ok (some commands) := by
  induction items generalizing commands with
  | nil => cases hmem
  | cons value values ih =>
    intro h
    rw [commandsOf] at h
    cases hread : ExportedCommand.fromPayload out value with
    | error e =>
      rw [hread] at h
      cases h
    | ok read =>
      cases read with
      | none =>
        rw [hread] at h
        cases h
      | some command =>
        rw [hread] at h
        rcases List.mem_cons.mp hmem with rfl | hrest
        · exact hunreadable command hread
        · cases hvalues : commandsOf out values with
          | error e =>
            simp only [hvalues] at h
            cases h
          | ok later =>
            cases later with
            | none =>
              simp only [hvalues] at h
              cases h
            | some later => exact ih hrest later hvalues

variable {payload : List (Str × Value)} {items : List Value} {text : Str} {capturedAt : Timestamp}

theorem ofStored_of_no_time (hnone : Dict.get payload (str "captured_at") = none) :
    ofStored out payload = .error .keyError := by
  have hcaptured : getItem payload "captured_at" = .error .keyError := by
    rw [getItem, hnone]
  rw [ofStored, hcaptured]
  rfl

theorem ofStored_of_other_time {value : Value}
    (hvalue : Dict.get payload (str "captured_at") = some value) (hother : ∀ text, value ≠ .str text) :
    ofStored out payload = .error .typeError := by
  have hcaptured : getItem payload "captured_at" = .ok value := by
    rw [getItem, hvalue]
  rw [ofStored, hcaptured]
  cases value with
  | str text => exact absurd rfl (hother text)
  | _ => rfl

theorem ofStored_of_unread_time (htext : Dict.get payload (str "captured_at") = some (.str text))
    (hnone : out.parseDatetime text = none) : ofStored out payload = .ok none := by
  have hcaptured : getItem payload "captured_at" = .ok (.str text) := by
    rw [getItem, htext]
  simp only [ofStored, hcaptured, bind, Except.bind, hnone]
  rfl

/-- With a time that reads, `from_stored` comes to its commands. -/
theorem ofStored_of_commands {value : Value}
    (htext : Dict.get payload (str "captured_at") = some (.str text))
    (htime : out.parseDatetime text = some capturedAt)
    (hvalue : Dict.get payload (str "commands") = some value) (hitems : value.items = .ok items) :
    (∀ e, commandsOf out items = .error e → ofStored out payload = .error e) ∧
    (commandsOf out items = .ok none → ofStored out payload = .ok none) := by
  have hcaptured : getItem payload "captured_at" = .ok (.str text) := by
    rw [getItem, htext]
  have hcommands : getItem payload "commands" = .ok value := by
    rw [getItem, hvalue]
  constructor
  · intro e he
    simp only [ofStored, hcaptured, bind, Except.bind, htime, hcommands, hitems, he]
  · intro hnone
    simp only [ofStored, hcaptured, bind, Except.bind, htime, hcommands, hitems, hnone]
    rfl

/-- A stored form with a command that cannot be read is discarded, or raises. -/
theorem fromStored_of_unreadable {item : Value} (hstored : StoredItems payload items)
    (hmem : item ∈ items) (hunreadable : Unreadable out item) (hmisread : ¬ Misread out payload) :
    fromStored out payload = .ok none := by
  obtain ⟨value, hvalue, hitems⟩ := hstored
  cases htext : Dict.get payload (str "captured_at") with
  | none => rw [fromStored, ofStored_of_no_time htext]
  | some captured =>
    cases captured with
    | str text =>
      cases htime : out.parseDatetime text with
      | none => rw [fromStored, ofStored_of_unread_time htext htime]
      | some capturedAt =>
        obtain ⟨hraised, hunknown⟩ := ofStored_of_commands htext htime hvalue hitems
        cases hcommands : commandsOf out items with
        | error e =>
          rw [fromStored, hraised e hcommands]
          cases e with
          | attributeError =>
            obtain ⟨before, item, rest, rfl, hbefore, hitem⟩ :=
              commandsOf_eq_attributeError_iff.mp hcommands
            exact absurd ⟨⟨text, capturedAt, htext, htime⟩, before, item, rest,
              ⟨value, hvalue, hitems⟩, hbefore, hitem⟩ hmisread
          | _ => rfl
        | ok read =>
          cases read with
          | none => rw [fromStored, hunknown hcommands]
          | some commands => exact absurd hcommands (commandsOf_ne_some hmem hunreadable commands)
    | _ => rw [fromStored, ofStored_of_other_time htext (by simp)]

/-- What `from_stored` does not catch, it raises. -/
theorem fromStored_of_misread (hmisread : Misread out payload) :
    fromStored out payload = .error .attributeError := by
  obtain ⟨⟨text, capturedAt, htext, htime⟩, before, item, rest, ⟨value, hvalue, hitems⟩, hbefore,
    hitem⟩ := hmisread
  have hcommands := commandsOf_eq_attributeError_iff.mpr ⟨before, item, rest, rfl, hbefore, hitem⟩
  rw [fromStored, (ofStored_of_commands htext htime hvalue hitems).1 _ hcommands]

/-- **Every stored form with a command that cannot be read is discarded, unless it is misread.** -/
theorem unreadable_discarded_iff :
    (∀ items item, StoredItems payload items → item ∈ items → Unreadable out item →
      fromStored out payload = .ok none) ↔ ¬ Misread out payload := by
  constructor
  · intro hdiscarded hmisread
    have hraised := fromStored_of_misread hmisread
    obtain ⟨-, before, item, rest, hstored, -, hitem⟩ := hmisread
    have hunreadable : Unreadable out item := by
      intro command hread
      rw [fromPayload_eq_attributeError_iff.mpr hitem] at hread
      cases hread
    have hnone := hdiscarded _ item hstored (by simp) hunreadable
    rw [hraised] at hnone
    cases hnone
  · intro hmisread items item hstored hmem hunreadable
    exact fromStored_of_unreadable hstored hmem hunreadable hmisread

end Snapshot

/-! ## Both -/

/-- **A replica is refreshed whole or kept, and is read back as it was stored.**  What is stored with
    a command that cannot be read is discarded as a whole exactly unless it is misread. -/
theorem replica_whole_iff {m : SnapshotManager}
    (hown : ∀ s, m.snapshot = some s → s.bridgeId = m.bridgeId) (status : BridgeStatus)
    (now : Timestamp) (answers : Nat → Int → ExportResult) (out : Outside)
    (payload : List (Str × Value)) :
    (m.Keeps status answers → m.asyncRefresh status now answers = m) ∧
    (¬ m.Keeps status answers → ∃ commands, SnapshotManager.Exports status answers commands ∧
      m.asyncRefresh status now answers = { m with
        snapshot := some ⟨status.bridgeId, status.revision, status.nextCommandId, now, commands⟩ }) ∧
    (∀ s : Snapshot, out.parseDatetime (out.isoformat s.capturedAt) = some s.capturedAt →
      Snapshot.fromStored out (s.asStored out) = .ok (some s)) ∧
    ((∀ items item, Snapshot.StoredItems payload items → item ∈ items →
        Snapshot.Unreadable out item → Snapshot.fromStored out payload = .ok none) ↔
      ¬ Snapshot.Misread out payload) := by
  obtain ⟨hkept, hwhole⟩ := SnapshotManager.asyncRefresh_whole status now answers hown
  exact ⟨hkept, hwhole, fromStored_asStored, Snapshot.unreadable_discarded_iff⟩

/-- The time of a stored form, which this clock reads. -/
def writtenTime : Str := str "2024-01-01T00:00:00+00:00"

/-- A clock that knows one time. -/
def oneTime : Outside where
  repr _ := []
  isoformat _ := writtenTime
  parseDatetime text := if text = writtenTime then some 1704067200 else none

/-- A stored form whose one command is `null`. -/
def nullCommand : List (Str × Value) :=
  [(str "bridge_id", .str (str "aabbcc")), (str "revision", .int 3),
    (str "next_command_id", .int 2), (str "captured_at", .str writtenTime),
    (str "commands", .list [.null])]

/-- A bridge with two commands. -/
def twoListed : BridgeStatus :=
  ⟨str "aabbcc", 3, 3, false, false, [], [], 2, 48, 512, 40, 4096, [⟨1, str "on", 2⟩, ⟨2, str "off", 2⟩]⟩

/-- The export of a command of two pulses. -/
def exportOf (commandId : Int) (name : Str) : ExportedCommand :=
  ⟨1, str "aabbcc", commandId, name, 10000, 8, 433920000, 0, [350, -1050]⟩

/-- With the second command gone there is no replica, and a replica of the first alone would have
    been read back. -/
theorem gone_command_keeps :
    (SnapshotManager.asyncRefresh ⟨str "aabbcc", none⟩ twoListed 1704067200
      fun k _ => if k = 0 then .command (exportOf 1 (str "on")) else .unknown)
        = ⟨str "aabbcc", none⟩ ∧
    Snapshot.fromStored oneTime
      ((⟨str "aabbcc", 3, 3, 1704067200, [exportOf 1 (str "on")]⟩ : Snapshot).asStored oneTime)
        = .ok (some ⟨str "aabbcc", 3, 3, 1704067200, [exportOf 1 (str "on")]⟩) := by
  obtain ⟨hkept, -, hstored, -⟩ := replica_whole_iff (m := ⟨str "aabbcc", none⟩) nofun twoListed
    1704067200 (fun k _ => if k = 0 then .command (exportOf 1 (str "on")) else .unknown) oneTime
    nullCommand
  have hgone : twoListed.commands[1]? = some ⟨2, str "off", 2⟩ := rfl
  exact ⟨hkept (.unexported hgone fun command => nofun), hstored _ rfl⟩

/-- The command cannot be read, and the snapshot is not discarded but `AttributeError` raised. -/
theorem null_command_raises :
    ¬ ∀ (out : Outside) (payload : List (Str × Value)) (items : List Value) (item : Value),
      Snapshot.StoredItems payload items → item ∈ items → Snapshot.Unreadable out item →
        Snapshot.fromStored out payload = .ok none := by
  intro hdiscarded
  have hstored : Snapshot.StoredItems nullCommand [.null] := ⟨.list [.null], rfl, rfl⟩
  have hraised : Snapshot.fromStored oneTime nullCommand = .error .attributeError := rfl
  have hnone := hdiscarded oneTime nullCommand [.null] .null hstored (List.mem_singleton.mpr rfl) nofun
  rw [hraised] at hnone
  cases hnone

end RfCloner
