/-
  The calls from Home Assistant to the device (`transport.py`).

  An action is called over the network: the call may raise before or after it has reached the
  device, and its integer arguments are carried in 32 bits.  ESPHome's wire format is not part of
  the repository; what is relied on is that an integer that arrives is the one that was sent.
-/
import RfCloner.Hass.Snapshot
import RfCloner.Device.Cloner

namespace RfCloner

open CommandStore

/-- The carrier of integer arguments: an integer that does not fit is never delivered. -/
structure Wire where
  send : Int → Option Int32
  send_eq : ∀ {n : Int} {arg : Int32}, send n = some arg → arg.toInt = n

/-- A carrier of everything that fits. -/
def Wire.exact : Wire where
  send n := if (Int32.ofInt n).toInt = n then some (Int32.ofInt n) else none
  send_eq := by
    intro n arg h
    split at h
    · rename_i hfits
      obtain rfl := Option.some.inj h
      exact hfits
    · cases h

/-- An argument that is not negative is the same number without its sign. -/
theorem toNat_toUInt32_of_toInt {arg : Int32} {n : Nat} (h : arg.toInt = n) :
    arg.toUInt32.toNat = n := by
  have hcond := BitVec.toInt_eq_toNat_cond arg.toBitVec
  have hlt := arg.toBitVec.isLt
  have hint : arg.toBitVec.toInt = n := h
  show arg.toBitVec.toNat = n
  split at hcond <;> omega

theorem Wire.toUInt32_of_send (w : Wire) {id : UInt32} {arg : Int32}
    (h : w.send id.toNat = some arg) : arg.toUInt32 = id :=
  UInt32.toNat_inj.mp (toNat_toUInt32_of_toInt (w.send_eq h))

namespace Cloner

/-- `async_export` of a device in state `c`, when the call gets through or when it does not. -/
def asyncExport (w : Wire) (reached : Bool) (c : Cloner) (commandId : Int) : ExportResult :=
  if reached then
    match w.send commandId with
    | none => .raises
    | some arg =>
      match c.rfExport arg with
      | none => .unknown
      | some command => .command command
  else .raises

variable {w : Wire} {reached : Bool} {c : Cloner}

theorem asyncExport_eq_command {commandId : Int} {e : ExportedCommand} :
    c.asyncExport w reached commandId = .command e ↔
      reached = true ∧ ∃ arg, w.send commandId = some arg ∧ c.rfExport arg = some e := by
  unfold asyncExport
  cases reached with
  | false => simp
  | true =>
    cases w.send commandId with
    | none => simp
    | some arg =>
      cases hexport : c.rfExport arg <;> simp [hexport]

/-- The rows of the listing are those of the commands, in slot order. -/
theorem commands_rfStatus : c.rfStatus.commands = c.store.commands.map fun command =>
    { commandId := command.commandId.toNat
      name := ofUtf8 command.name
      pulses := (UInt16.ofNat command.timings.length).toNat } := by
  unfold rfStatus entries
  rw [List.map_map]
  rfl

end Cloner

end RfCloner
