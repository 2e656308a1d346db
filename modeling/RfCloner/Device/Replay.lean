/-
  Replaying (`rf_cloner.cpp`: `send`, `send_by_id`, `transmit_`).

  A send looks a command up and hands its waveform to the transmitter, with the repeats and the gap
  of the command unless the caller has given others.  It changes nothing but `last_result_`.  So what
  goes over the air is a function of the registry, and `served_alike` says of which one: for whoever
  makes registry calls, sends and power cycles, the device cannot be told from the abstract registry,
  which knows nothing of slots and flash and does not notice the power cycles.
-/
import RfCloner.Device.Cloner
import RfCloner.Lib.Decimal
import RfCloner.Store.Refine
import RfCloner.Store.Revision

namespace RfCloner

open CommandStore StorageBackend

/-! ## The transmitter -/

/-- What `transmit_` hands to the transmitter. -/
structure Transmission where
  carrierFrequency : UInt32
  data : List Int32
  sendTimes : UInt32
  sendWait : UInt32
  deriving DecidableEq, Repr

/-- The repeats and the gap that a caller asks for; zero asks for those of the command. -/
structure Overrides where
  repeatTimes : UInt16 := 0
  gapUs : UInt32 := 0
  deriving DecidableEq, Repr

/-- What a send calls out of the component. -/
inductive Sent where
  | perform (transmission : Transmission)
  | onSend (name : Bytes)
  deriving DecidableEq, Repr

/-- The transmission of a command.  RF: the CC1101 does its own modulation, so there is no IR
    carrier. -/
def Command.transmission (command : Command) (overrides : Overrides) : Transmission where
  carrierFrequency := 0
  data := command.timings
  sendTimes :=
    (if overrides.repeatTimes > 0 then overrides.repeatTimes else command.repeatTimes).toUInt32
  sendWait := if overrides.gapUs > 0 then overrides.gapUs else command.gapUs

namespace Cloner

/-- `transmit_`. -/
def transmit (command : Command) (overrides : Overrides) (c : Cloner) : Bool × Cloner × List Sent :=
  (true, c, [.perform (command.transmission overrides), .onSend command.name])

/-- `send`; `transmitter` says whether there is one. -/
def send (transmitter : Bool) (name : Bytes) (overrides : Overrides) (c : Cloner) :
    Bool × Cloner × List Sent :=
  if !transmitter then (false, c, [])
  else
    match c.store.get name with
    | none => (false, { c with lastResult := ascii "not_found:" ++ name }, [])
    | some command => c.transmit command overrides

/-- `send_by_id`. -/
def sendById (transmitter : Bool) (commandId : UInt32) (overrides : Overrides) (c : Cloner) :
    Bool × Cloner × List Sent :=
  if !transmitter then (false, c, [])
  else
    match c.store.getById commandId with
    | none =>
      (false, { c with lastResult := ascii ("not_found:#" ++ toString commandId.toNat) }, [])
    | some command => c.transmit command overrides

/-- `rf_send`. -/
def rfSend (name : Bytes) (c : Cloner) : Cloner × List Sent := (c.send true name {}).2

/-- `rf_send_id`. -/
def rfSendId (commandId : Int32) (c : Cloner) : Cloner × List Sent :=
  (c.sendById true commandId.toUInt32 {}).2

section Send

variable {transmitter : Bool} {name : Bytes} {commandId : UInt32} {overrides : Overrides} {c : Cloner}

/-- A send never touches the registry. -/
theorem store_send : (c.send transmitter name overrides).2.1.store = c.store := by
  unfold send transmit
  split
  · rfl
  · split <;> rfl

theorem store_sendById : (c.sendById transmitter commandId overrides).2.1.store = c.store := by
  unfold sendById transmit
  split
  · rfl
  · split <;> rfl

/-- What goes over the air is the waveform of a stored command. -/
theorem perform_mem_send {t : Transmission} (h : .perform t ∈ (c.send transmitter name overrides).2.2) :
    ∃ command, c.store.get name = some command ∧ t = command.transmission overrides := by
  unfold send at h
  split at h
  · cases h
  · split at h
    · cases h
    · rename_i command hget
      have h : Sent.perform t ∈ [.perform (command.transmission overrides), .onSend command.name] := h
      simp only [List.mem_cons, Sent.perform.injEq, reduceCtorEq, List.not_mem_nil, or_false] at h
      exact ⟨command, hget, h⟩

theorem perform_mem_sendById {t : Transmission}
    (h : .perform t ∈ (c.sendById transmitter commandId overrides).2.2) :
    ∃ command, c.store.getById commandId = some command ∧ t = command.transmission overrides := by
  unfold sendById at h
  split at h
  · cases h
  · split at h
    · cases h
    · rename_i command hget
      have h : Sent.perform t ∈ [.perform (command.transmission overrides), .onSend command.name] := h
      simp only [List.mem_cons, Sent.perform.injEq, reduceCtorEq, List.not_mem_nil, or_false] at h
      exact ⟨command, hget, h⟩

end Send

end Cloner

/-! ## Requests and replies -/

/-- What happens to a device with a transmitter, as its caller sees it. -/
inductive Request where
  | call (op : Op)
  | send (name : Bytes) (overrides : Overrides)
  | sendById (commandId : UInt32) (overrides : Overrides)
  | powerCycle (random : Option BridgeId)
  deriving DecidableEq, Repr

/-- What the caller sees of it. -/
inductive Reply where
  | result (result : StoreResult)
  | sent (known : Bool) (sent : List Sent)
  | none
  deriving DecidableEq, Repr

namespace Session

/-- The reply of a device, whose saves succeed, and the device after it. -/
def serve (cfg : Config) (x : Session) : Request → Reply × Session
  | .call op =>
    (.result (op.run (faulty fun _ => true) x.store x.flash).1, step (fun _ => true) x (.op op))
  | .send name overrides =>
    let out := Cloner.send true name overrides { store := x.store }
    (.sent out.1 out.2.2, { x with store := out.2.1.store })
  | .sendById commandId overrides =>
    let out := Cloner.sendById true commandId overrides { store := x.store }
    (.sent out.1 out.2.2, { x with store := out.2.1.store })
  | .powerCycle random => (.none, step (fun _ => true) x (.reboot cfg random))

/-- The replies to some requests. -/
def replies (cfg : Config) : Session → List Request → List Reply
  | _, [] => []
  | x, request :: requests =>
    (x.serve cfg request).1 :: replies cfg (x.serve cfg request).2 requests

end Session

namespace Reference

/-- The reply to a send, given what the registry holds. -/
def sent (found : Option Command) (overrides : Overrides) : Reply :=
  match found with
  | none => .sent false []
  | some command => .sent true [.perform (command.transmission overrides), .onSend command.name]

/-- The reply of the abstract registry, and the registry after it. -/
noncomputable def serve (r : Reference) : Request → Reply × Reference
  | .call op => (.result (r.step op).1, (r.step op).2)
  | .send name overrides => (sent (r.get name) overrides, r)
  | .sendById commandId overrides => (sent (r.getById commandId) overrides, r)
  | .powerCycle _ => (.none, r)

/-- Its replies to some requests. -/
noncomputable def replies : Reference → List Request → List Reply
  | _, [] => []
  | r, request :: requests => (r.serve request).1 :: replies (r.serve request).2 requests

end Reference

/-! ## The device and the registry -/

namespace Session

variable {cfg : Config} {x : Session} {r : Reference}

theorem reply_send (name : Bytes) (overrides : Overrides) :
    (x.serve cfg (.send name overrides)).1 = Reference.sent (x.store.get name) overrides := by
  unfold serve Cloner.send Reference.sent
  dsimp only
  rw [if_neg (by decide)]
  cases x.store.get name <;> rfl

theorem reply_sendById (commandId : UInt32) (overrides : Overrides) :
    (x.serve cfg (.sendById commandId overrides)).1
      = Reference.sent (x.store.getById commandId) overrides := by
  unfold serve Cloner.sendById Reference.sent
  dsimp only
  rw [if_neg (by decide)]
  cases x.store.getById commandId <;> rfl

/-- A device that stands for a registry, and holds it on flash. -/
structure Serves (cfg : Config) (x : Session) (r : Reference) : Prop where
  settled : Settled cfg x
  mirrors : Mirrors x r

/-- **One request**: the same reply, and the device goes on standing for the registry. -/
theorem Serves.serve (h : Serves cfg x r) (hpos : cfg.maxCommands ≠ 0) (request : Request) :
    (x.serve cfg request).1 = (r.serve request).1 ∧
      Serves cfg (x.serve cfg request).2 (r.serve request).2 := by
  cases request with
  | call op =>
    obtain ⟨hresult, hnext⟩ := h.mirrors.op op
    refine ⟨congrArg Reply.result hresult, ?_, hnext⟩
    cases hplan : op.plan x.store with
    | stop result =>
      show Settled cfg (step (fun _ => true) x (.op op))
      rw [step_of_stop _ hplan]
      exact h.settled
    | write payload next undone => exact (h.settled.write hpos hplan).2.2
  | send name overrides =>
    refine ⟨?_, ?_⟩
    · rw [reply_send, ← get_abs h.mirrors.sound, h.mirrors.abs]
      rfl
    · have hsame : (x.serve cfg (.send name overrides)).2 = x :=
        congrArg (fun store => { x with store := store }) Cloner.store_send
      rw [hsame]
      exact h
  | sendById commandId overrides =>
    refine ⟨?_, ?_⟩
    · rw [reply_sendById, ← getById_abs h.mirrors.sound, h.mirrors.abs]
      rfl
    · have hsame : (x.serve cfg (.sendById commandId overrides)).2 = x :=
        congrArg (fun store => { x with store := store }) Cloner.store_sendById
      rw [hsame]
      exact h
  | powerCycle random =>
    refine ⟨rfl, ?_⟩
    show Serves cfg (step (fun _ => true) x (.reboot cfg random)) r
    rw [h.settled.reboot hpos random]
    exact h

/-- **Every run of requests.**  Induction on the requests. -/
theorem Serves.replies (h : Serves cfg x r) (hpos : cfg.maxCommands ≠ 0) (requests : List Request) :
    x.replies cfg requests = r.replies requests := by
  induction requests generalizing x r with
  | nil => rfl
  | cons request requests ih =>
    obtain ⟨hreply, hnext⟩ := h.serve hpos request
    rw [Session.replies, Reference.replies, hreply, ih hnext]

/-- **A device cannot be told from the abstract registry.**  Whatever registry calls, sends and power
    cycles a fresh device is given, with succeeding saves, it gives the replies of the registry: the
    same results, and the same transmissions. -/
theorem served_alike (hpos : cfg.maxCommands ≠ 0) (random : Option BridgeId) (requests : List Request) :
    (powerOn (fun _ => true) cfg random).replies cfg requests
      = (Reference.fresh cfg.limits random).replies requests :=
  Serves.replies ⟨Settled.powerOn cfg random, mirrors_powerOn cfg random⟩ hpos requests

/-- A device that has learned one command. -/
def learnedOn : Session :=
  step (fun _ => true) (powerOn (fun _ => true) ⟨2, 4, 200, 7⟩ none)
    (.op (.put { name := ascii "on", timings := [350, -1050], gapUs := 9000, repeatTimes := 5 }))

theorem powerCycle_learnedOn (random : Option BridgeId) :
    learnedOn.serve ⟨2, 4, 200, 7⟩ (.powerCycle random) = (.none, learnedOn) := by
  have hsettled : Settled ⟨2, 4, 200, 7⟩ learnedOn :=
    ((Settled.powerOn _ none).op (by decide) fun _ h => by cases h).1
  exact congrArg (Prod.mk Reply.none) (hsettled.reboot (by decide) random)

/-- It is sent after a power cycle: the registry has not noticed. -/
theorem served_alike_power_cycle :
    (Reference.fresh (Config.limits ⟨2, 4, 200, 7⟩) none).replies
      [.call (.put { name := ascii "on", timings := [350, -1050], gapUs := 9000, repeatTimes := 5 }),
        .powerCycle none, .send (ascii "on") { repeatTimes := 3 }, .sendById 2 {}]
      = [.result .ok, .none, .sent true [.perform ⟨0, [350, -1050], 3, 9000⟩, .onSend (ascii "on")],
        .sent false []] := by
  rw [← served_alike (by decide) none]
  show _ :: (learnedOn.serve ⟨2, 4, 200, 7⟩ (.powerCycle none)).1
    :: (learnedOn.serve ⟨2, 4, 200, 7⟩ (.powerCycle none)).2.replies _ _ = _
  rw [powerCycle_learnedOn]
  decide +kernel

end Session

end RfCloner
