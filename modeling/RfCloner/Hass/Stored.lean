/-
  The stored form of a snapshot (`snapshot.py`, `models.py`).

  Home Assistant's store holds JSON.  `from_stored` converts whatever it finds, with `int()` and
  `str()`, and takes three kinds of exception for an unreadable snapshot.  Neither the text `str()`
  makes of a list, a dictionary or a fraction nor the clock is part of the repository.
-/
import RfCloner.Hass.Models
import RfCloner.Lib.Decimal
import RfCloner.Lib.Dict

namespace RfCloner

/-! ## Values -/

/-- A value of the JSON store.  Of a fraction all that is kept is what `int()` makes of it, and
    whether it is true. -/
inductive Value
  | null
  | bool (b : Bool)
  | int (i : Int)
  | fraction (truncated : Int) (truth : Bool)
  | str (s : Str)
  | list (items : List Value)
  | dict (items : List (Str × Value))

/-- The exceptions a conversion can end with. -/
inductive PyError
  | keyError
  | typeError
  | valueError
  | attributeError
  deriving DecidableEq

/-- What the stored form goes through outside the repository: `str()` of a value that is not a
    scalar, `isoformat` and `parse_datetime`. -/
structure Outside where
  repr : Value → Str
  isoformat : Timestamp → Str
  parseDatetime : Str → Option Timestamp

/-- `int(value)`. -/
def Value.toInt : Value → Except PyError Int
  | .bool b => .ok (if b then 1 else 0)
  | .int i => .ok i
  | .fraction truncated _ => .ok truncated
  | .str s => match Decimal.ofText s with
    | some i => .ok i
    | none => .error .valueError
  | .null | .list _ | .dict _ => .error .typeError

/-- `str(value)`. -/
def Value.toStr (out : Outside) : Value → Str
  | .null => RfCloner.str "None"
  | .bool b => if b then RfCloner.str "True" else RfCloner.str "False"
  | .int i => Decimal.toText i
  | .str s => s
  | value => out.repr value

/-- `bool(value)`. -/
def Value.truth : Value → Bool
  | .null => false
  | .bool b => b
  | .int i => i != 0
  | .fraction _ truth => truth
  | .str s => !s.isEmpty
  | .list items => !items.isEmpty
  | .dict items => !items.isEmpty

/-- The items a loop over the value runs through. -/
def Value.items : Value → Except PyError (List Value)
  | .str s => .ok (s.map fun c => .str [c])
  | .list items => .ok items
  | .dict items => .ok (items.map fun item => .str item.1)
  | _ => .error .typeError

/-- `payload[key]`. -/
def getItem (payload : List (Str × Value)) (key : String) : Except PyError Value :=
  match Dict.get payload (str key) with
  | some value => .ok value
  | none => .error .keyError

/-! ## Commands -/

namespace ExportedCommand

variable (out : Outside)

/-- `from_payload` of a dictionary. -/
def ofDict (payload : List (Str × Value)) : Except PyError (Option ExportedCommand) := do
  if !((Dict.get payload (str "found")).elim false Value.truth) then return none
  let schema ← ((Dict.get payload (str "schema")).getD (.int 1)).toInt
  let bridgeId ← getItem payload "bridge_id"
  let commandId ← (← getItem payload "command_id").toInt
  let name ← getItem payload "name"
  let gapUs ← (← getItem payload "gap_us").toInt
  let repeatTimes ← (← getItem payload "repeat_times").toInt
  let frequencyHz ← (← getItem payload "frequency_hz").toInt
  let modulation ← (← getItem payload "modulation").toInt
  let timings ← (← ((Dict.get payload (str "timings")).getD (.list [])).items).mapM Value.toInt
  return some ⟨schema, bridgeId.toStr out, commandId, name.toStr out, gapUs, repeatTimes, frequencyHz,
    modulation, timings⟩

/-- `from_payload`. -/
def fromPayload : Value → Except PyError (Option ExportedCommand)
  | .dict payload => ofDict out payload
  | _ => .error .attributeError

/-- `as_dict`. -/
def asDict (e : ExportedCommand) : List (Str × Value) :=
  [(str "schema", .int e.schema), (str "found", .bool true), (str "bridge_id", .str e.bridgeId),
    (str "command_id", .int e.commandId), (str "name", .str e.name),
    (str "pulses", .int e.timings.length), (str "gap_us", .int e.gapUs),
    (str "repeat_times", .int e.repeatTimes), (str "frequency_hz", .int e.frequencyHz),
    (str "modulation", .int e.modulation), (str "timings", .list (e.timings.map .int))]

end ExportedCommand

/-! ## Snapshots -/

namespace Snapshot

variable (out : Outside)

/-- The loop of `from_stored`: `none` as soon as a command is unknown. -/
def commandsOf : List Value → Except PyError (Option (List ExportedCommand))
  | [] => .ok (some [])
  | value :: values =>
    match ExportedCommand.fromPayload out value with
    | .error e => .error e
    | .ok none => .ok none
    | .ok (some command) =>
      match commandsOf values with
      | .error e => .error e
      | .ok commands => .ok (commands.map (command :: ·))

/-- `from_stored`, before its exceptions are caught. -/
def ofStored (payload : List (Str × Value)) : Except PyError (Option Snapshot) := do
  match ← getItem payload "captured_at" with
  | .str text =>
    match out.parseDatetime text with
    | none => return none
    | some capturedAt =>
      match ← commandsOf out (← (← getItem payload "commands").items) with
      | none => return none
      | some commands =>
        let bridgeId ← getItem payload "bridge_id"
        let revision ← (← getItem payload "revision").toInt
        let nextCommandId ← (← getItem payload "next_command_id").toInt
        return some ⟨bridgeId.toStr out, revision, nextCommandId, capturedAt, commands⟩
  | _ => throw .typeError

/-- `from_stored`. -/
def fromStored (payload : List (Str × Value)) : Except PyError (Option Snapshot) :=
  match ofStored out payload with
  | .error .attributeError => .error .attributeError
  | .error _ => .ok none
  | .ok snapshot => .ok snapshot

/-- `as_stored`. -/
def asStored (s : Snapshot) : List (Str × Value) :=
  [(str "bridge_id", .str s.bridgeId), (str "revision", .int s.revision),
    (str "next_command_id", .int s.nextCommandId),
    (str "captured_at", .str (out.isoformat s.capturedAt)),
    (str "commands", .list (s.commands.map fun command => .dict command.asDict))]

end Snapshot

/-! ## The round trip -/

variable {out : Outside}

theorem mapM_toInt (is : List Int) : (is.map Value.int).mapM Value.toInt = .ok is := by
  induction is with
  | nil => rfl
  | cons i is ih =>
    rw [List.map_cons, List.mapM_cons, ih]
    rfl

/-- What `as_dict` writes, `from_payload` reads. -/
theorem fromPayload_asDict (e : ExportedCommand) :
    ExportedCommand.fromPayload out (.dict e.asDict) = .ok (some e) := by
  have hread : ExportedCommand.ofDict out e.asDict
      = (e.timings.map Value.int).mapM Value.toInt >>= fun timings => .ok (some { e with timings }) :=
    rfl
  show ExportedCommand.ofDict out e.asDict = _
  rw [hread, mapM_toInt]
  rfl

theorem commandsOf_asDict (commands : List ExportedCommand) :
    Snapshot.commandsOf out (commands.map fun command => .dict command.asDict)
      = .ok (some commands) := by
  induction commands with
  | nil => rfl
  | cons command commands ih =>
    rw [List.map_cons, Snapshot.commandsOf, fromPayload_asDict, ih]
    rfl

/-- **A snapshot is read back as it was stored**, if the clock reads its own texts. -/
theorem fromStored_asStored (s : Snapshot)
    (hclock : out.parseDatetime (out.isoformat s.capturedAt) = some s.capturedAt) :
    Snapshot.fromStored out (s.asStored out) = .ok (some s) := by
  have hread : Snapshot.ofStored out (s.asStored out)
      = match out.parseDatetime (out.isoformat s.capturedAt) with
        | none => .ok none
        | some capturedAt =>
          Snapshot.commandsOf out (s.commands.map fun command => .dict command.asDict) >>= fun
            | none => .ok none
            | some commands => .ok (some { s with capturedAt, commands }) := rfl
  unfold Snapshot.fromStored
  rw [hread, hclock, commandsOf_asDict]
  rfl

end RfCloner
