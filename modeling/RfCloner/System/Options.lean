/-
  The options of the component (`components/rf_cloner/__init__.py`).

  The build checks them before any code is made: every option against its own range, and then some
  against each other (`_validate_budget`).  `to_code` hands them to the setters, whose parameters are
  of 8, 16 and 32 bits.  `Validated` is what passes both checks.  What the device and the build rely
  on afterwards follows from it: that the budget the build warns about is the budget the device can
  refuse for (`notice_iff_refusable`), and that whatever is learned is within the limits that were
  asked for (`learned_within`).
-/
import RfCloner.Device.Agreement
import RfCloner.Device.Split
import RfCloner.Store.Capacity
import RfCloner.System.Outcomes

namespace RfCloner

open CommandStore StorageBackend

/-! ## The options -/

/-- `CONFIG_SCHEMA`, with its defaults: durations in microseconds, but `settleTime` and
    `learnTimeout` in milliseconds, and the frequency as the `int` of its Hertz. -/
structure Options where
  id : Bytes
  maxCommands : Int := 16
  maxPulses : Int := 128
  maxStorageBytes : Int := 12288
  minPulses : Int := 8
  minPulseLength : Int := 100
  maxPulseLength : Int := 100000
  tolerance : Int := 25
  minRepeats : Int := 3
  frameGapMin : Int := 3000
  settleTime : Int := 800
  learnTimeout : Int := 15000
  defaultRepeatTimes : Int := 20
  defaultGap : Int := 10000
  minGap : Int := 1000
  maxGap : Int := 200000
  frequency : Int := 433920000
  deriving DecidableEq, Repr

/-- `cv.int_range`. -/
def intRange (lo hi value : Int) : Prop := lo ≤ value ∧ value ≤ hi

instance (lo hi value : Int) : Decidable (intRange lo hi value) := by
  unfold intRange
  infer_instance

namespace Options

/-- The schema: every option by itself. -/
structure InSchema (o : Options) : Prop where
  maxCommands : intRange 1 255 o.maxCommands
  maxPulses : intRange 4 2048 o.maxPulses
  maxStorageBytes : intRange 64 65535 o.maxStorageBytes
  minPulses : intRange 2 2048 o.minPulses
  minPulseLength : 0 ≤ o.minPulseLength
  maxPulseLength : 0 ≤ o.maxPulseLength
  minRepeats : intRange 2 32 o.minRepeats
  frameGapMin : 0 ≤ o.frameGapMin
  settleTime : 0 ≤ o.settleTime
  learnTimeout : 0 ≤ o.learnTimeout
  defaultRepeatTimes : intRange 1 1000 o.defaultRepeatTimes
  defaultGap : 0 ≤ o.defaultGap
  minGap : 0 ≤ o.minGap
  maxGap : 0 ≤ o.maxGap

/-- `_HEADER_BYTES`. -/
def headerBytes : Int := 10
/-- `_META_BYTES`. -/
def metaBytes : Int := 28
/-- `_SLOT_BYTES`. -/
def slotBytes : Int := 44
/-- `_CRC_BYTES`. -/
def crcBytes : Int := 2

/-- `index_bytes` of `_validate_budget`. -/
def indexBytes (o : Options) : Int := headerBytes + metaBytes + o.maxCommands * slotBytes + crcBytes

/-- `worst_case` of `_validate_budget`. -/
def worstCase (o : Options) : Int := o.indexBytes + o.maxCommands * o.maxPulses * 4

/-- What `_validate_budget` logs when the worst case is above the budget. -/
def budgetNotice (o : Options) : String :=
  s!"rf_cloner: max_commands x max_pulses could need {o.worstCase} bytes, above max_storage_bytes ({o.maxStorageBytes}). Learning will be refused once the budget is reached."

/-- `_validate_budget`: the text it raises, or what it logs. -/
def validateBudget (o : Options) : Except String (Option String) :=
  if o.indexBytes > o.maxStorageBytes then
    .error s!"max_storage_bytes ({o.maxStorageBytes}) is smaller than the {o.indexBytes} bytes the command index alone needs for max_commands: {o.maxCommands}"
  else if o.minPulses > o.maxPulses then .error "min_pulses must not exceed max_pulses"
  else if o.minPulseLength ≥ o.maxPulseLength then
    .error "min_pulse_length must be shorter than max_pulse_length"
  else if o.minGap ≥ o.maxGap then .error "min_gap must be shorter than max_gap"
  else if o.frameGapMin > o.maxGap then .error "frame_gap_min must not exceed max_gap"
  else if ¬ (o.minGap ≤ o.defaultGap ∧ o.defaultGap ≤ o.maxGap) then
    .error "default_gap must fall between min_gap and max_gap"
  else if o.worstCase > o.maxStorageBytes then .ok (some o.budgetNotice)
  else .ok none

/-- `_fnv1a_32`. -/
def fnv1a32 (text : Bytes) : Nat :=
  text.foldl (fun value byte => (value ^^^ byte.toNat) * 0x01000193 &&& 0xFFFFFFFF) 0x811C9DC5

/-! ## The setters -/

/-- What `to_code` and `setup` hand to the store. -/
def storeConfig (o : Options) : Config where
  maxCommands := UInt8.ofInt o.maxCommands
  maxPulses := UInt16.ofInt o.maxPulses
  maxStorageBytes := UInt32.ofInt o.maxStorageBytes
  keySalt := UInt32.ofNat (fnv1a32 o.id)

/-- What `to_code` hands to the capture. -/
def captureConfig (o : Options) : CaptureConfig where
  limits :=
    { minPulses := UInt16.ofInt o.minPulses
      maxPulses := UInt16.ofInt o.maxPulses
      minPulseUs := UInt32.ofInt o.minPulseLength
      maxPulseUs := UInt32.ofInt o.maxPulseLength
      tolerancePercent := UInt8.ofInt o.tolerance }
  minRepeats := UInt8.ofInt o.minRepeats
  frameGapMinUs := UInt32.ofInt o.frameGapMin
  settleMs := UInt32.ofInt o.settleTime
  learnTimeoutMs := UInt32.ofInt o.learnTimeout
  defaultRepeatTimes := UInt16.ofInt o.defaultRepeatTimes
  defaultGapUs := UInt32.ofInt o.defaultGap
  minGapUs := UInt32.ofInt o.minGap
  maxGapUs := UInt32.ofInt o.maxGap
  frequencyHz := UInt32.ofInt o.frequency

end Options

/-- `dump_config` warns that the budget does not hold the worst case. -/
def Config.warnsOfBudget (cfg : Config) : Bool := cfg.worstCaseBytes > cfg.maxStorageBytes

/-! ## What passes the checks -/

namespace Options

/-- Every option against the others. -/
structure Consistent (o : Options) : Prop where
  index : o.indexBytes ≤ o.maxStorageBytes
  pulses : o.minPulses ≤ o.maxPulses
  lengths : o.minPulseLength < o.maxPulseLength
  gaps : o.minGap < o.maxGap
  frameGap : o.frameGapMin ≤ o.maxGap
  defaultGap_ge : o.minGap ≤ o.defaultGap
  defaultGap_le : o.defaultGap ≤ o.maxGap

theorem validateBudget_eq_ok {o : Options} {notice : Option String} :
    o.validateBudget = .ok notice ↔ o.Consistent ∧
      notice = if o.worstCase > o.maxStorageBytes then some o.budgetNotice else none := by
  constructor
  · intro h
    unfold validateBudget at h
    split_ifs at h with hindex hpulses hlengths hgaps hframe hdefault hworst
    all_goals
      refine ⟨⟨by omega, by omega, by omega, by omega, by omega, by omega, by omega⟩, ?_⟩
      simpa [hworst] using (Except.ok.inj h).symm
  · rintro ⟨⟨hindex, hpulses, hlengths, hgaps, hframe, hge, hle⟩, rfl⟩
    rw [validateBudget, if_neg (by omega), if_neg (by omega), if_neg (by omega), if_neg (by omega),
      if_neg (by omega), if_neg (not_not_intro ⟨hge, hle⟩)]
    split_ifs <;> rfl

/-- The defaults pass every check, and nothing is logged about them. -/
def defaults (id : Bytes) : Options := { id := id }

theorem inSchema_defaults (id : Bytes) : (defaults id).InSchema := by
  constructor <;> simp [defaults, intRange]

theorem validateBudget_defaults (id : Bytes) : (defaults id).validateBudget = .ok none := by
  refine validateBudget_eq_ok.mpr ⟨?_, rfl⟩
  constructor <;> simp [defaults, indexBytes, headerBytes, metaBytes, slotBytes, crcBytes]

end Options

/-- Options that the build accepts, with what it logs about them. -/
structure Validated where
  options : Options
  notice : Option String
  inSchema : options.InSchema
  valid : options.validateBudget = .ok notice

/-- The default options of a component. -/
def Validated.defaults (id : Bytes) : Validated :=
  ⟨.defaults id, none, Options.inSchema_defaults id, Options.validateBudget_defaults id⟩

/-! ## What the device is given -/

section Setters

variable {value : Int}

theorem toNat_ofInt8 (h : 0 ≤ value) (hlt : value < 2 ^ 8) : ((UInt8.ofInt value).toNat : Int) = value := by
  rw [UInt8.ofInt, UInt8.toNat_ofNat']
  omega

theorem toNat_ofInt16 (h : 0 ≤ value) (hlt : value < 2 ^ 16) :
    ((UInt16.ofInt value).toNat : Int) = value := by
  rw [UInt16.ofInt, UInt16.toNat_ofNat']
  omega

theorem toNat_ofInt32 (h : 0 ≤ value) (hlt : value < 2 ^ 32) :
    ((UInt32.ofInt value).toNat : Int) = value := by
  rw [UInt32.ofInt, UInt32.toNat_ofNat']
  omega

end Setters

namespace Validated

variable (v : Validated)

theorem consistent : v.options.Consistent := (Options.validateBudget_eq_ok.mp v.valid).1

theorem toNat_maxCommands :
    (v.options.storeConfig.maxCommands.toNat : Int) = v.options.maxCommands := by
  have hrange := v.inSchema.maxCommands
  exact toNat_ofInt8 (by have := hrange.1; omega) (by have := hrange.2; omega)

theorem toNat_maxPulses : (v.options.storeConfig.maxPulses.toNat : Int) = v.options.maxPulses := by
  have hrange := v.inSchema.maxPulses
  exact toNat_ofInt16 (by have := hrange.1; omega) (by have := hrange.2; omega)

theorem toNat_maxStorageBytes :
    (v.options.storeConfig.maxStorageBytes.toNat : Int) = v.options.maxStorageBytes := by
  have hrange := v.inSchema.maxStorageBytes
  exact toNat_ofInt32 (by have := hrange.1; omega) (by have := hrange.2; omega)

/-- The build and the device agree on the size of the index. -/
theorem indexBytes_eq :
    v.options.indexBytes = (indexOverheadBytes v.options.storeConfig.maxCommands).toNat := by
  have hcommands := v.toNat_maxCommands
  have hover : overhead v.options.storeConfig
      = 10 + (30 + v.options.storeConfig.maxCommands.toNat * 44) := by
    rw [overhead, width_header, indexBytesFor_eq]
  rw [toNat_indexOverheadBytes, hover]
  show 10 + 28 + v.options.maxCommands * 44 + 2 = _
  omega

/-- They agree on the worst case. -/
theorem worstCase_eq :
    v.options.worstCase = v.options.storeConfig.worstCaseBytes.toNat := by
  have hindex := v.indexBytes_eq
  rw [toNat_indexOverheadBytes] at hindex
  rw [Config.toNat_worstCaseBytes]
  show v.options.indexBytes + v.options.maxCommands * v.options.maxPulses * 4
    = ((overhead _ + _ * (_ * 4) : Nat) : Int)
  rw [← v.toNat_maxCommands, ← v.toNat_maxPulses, hindex, Nat.cast_add, Nat.cast_mul, Nat.cast_mul,
    Int.mul_assoc]
  rfl

theorem isSome_notice : v.notice.isSome = true ↔ v.options.maxStorageBytes < v.options.worstCase := by
  rw [(Options.validateBudget_eq_ok.mp v.valid).2]
  split_ifs with h
  · exact iff_of_true rfl h
  · exact iff_of_false Bool.false_ne_true h

/-- **The notice of the build is exact.**  The build and the device compute the same sizes.  What the
    build logs is what `dump_config` warns of, and it is logged exactly if the device can come to refuse
    an operation for its bytes, whatever has happened to it before it was given these options. -/
theorem notice_iff_refusable :
    v.options.indexBytes = (indexOverheadBytes v.options.storeConfig.maxCommands).toNat ∧
    v.options.worstCase = v.options.storeConfig.worstCaseBytes.toNat ∧
    v.notice.isSome = v.options.storeConfig.warnsOfBudget ∧
    (v.notice.isSome = true ↔ ∃ lands first random events, ∃ op : Op,
      let x := Session.run lands (Session.powerOn lands first random) events
      x.store.config = v.options.storeConfig ∧
        (op.run (faulty lands) x.store x.flash).1 = .budgetExceeded) := by
  have hwarns : v.notice.isSome = true ↔
      v.options.storeConfig.maxStorageBytes < v.options.storeConfig.worstCaseBytes := by
    rw [v.isSome_notice, v.worstCase_eq, ← v.toNat_maxStorageBytes, UInt32.lt_iff_toNat_lt]
    omega
  refine ⟨v.indexBytes_eq, v.worstCase_eq, ?_, ?_⟩
  · exact Bool.eq_iff_iff.mpr (hwarns.trans (by rw [Config.warnsOfBudget, decide_eq_true_eq]))
  · refine hwarns.trans (Session.refusable_iff ?_ ?_).symm
    · intro hzero
      have hpulses := v.toNat_maxPulses
      have hrange := v.inSchema.maxPulses.1
      rw [hzero] at hpulses
      have hpulses : (0 : Int) = v.options.maxPulses := hpulses
      omega
    · have hindex := v.consistent.index
      rw [UInt32.le_iff_toNat_le]
      rw [v.indexBytes_eq, ← v.toNat_maxStorageBytes] at hindex
      exact Int.ofNat_le.mp hindex

end Validated

/-! ## What is learned -/

namespace Options

/-- What the store refuses a command for by itself: its name, or the number of its pulses. -/
def blamesCommand : StoreResult → Bool
  | .nameEmpty | .nameTooLong | .nameInvalid | .tooManyPulses => true
  | _ => false

theorem not_blamed_of_writable (s : CommandStore) : blamesCommand s.writable = false := by
  unfold writable
  split_ifs <;> rfl

/-- The two ways in which no slot is found. -/
theorem not_blamed_of_putSlot {s : CommandStore} {name : Bytes} {error : StoreResult}
    (h : s.putSlot name = .error error) : blamesCommand error = false := by
  unfold putSlot at h
  split at h
  · cases h
  · split at h
    · obtain rfl := Except.error.inj h
      rfl
    · split at h
      · obtain rfl := Except.error.inj h
        rfl
      · cases h

/-- A command of a valid name and of admissible length is not refused for either. -/
theorem not_blamed_put {s : CommandStore} {command : Command} {saves : Bool}
    (hname : validateName command.name = .ok) (hpos : command.timings ≠ [])
    (hlen : command.timings.length ≤ s.config.maxPulses.toNat) :
    blamesCommand ((Op.put command).attempt saves s).1 = false := by
  have hplan : ∀ result, s.putPlan command = .stop result → blamesCommand result = false := by
    intro result hstop
    rw [putPlan] at hstop
    rcases guard_eq_stop hstop with ⟨-, rfl⟩ | ⟨-, hstop⟩
    · exact not_blamed_of_writable s
    rw [if_neg (not_not_intro hname), if_neg (by simpa using hpos), if_neg (by omega)] at hstop
    cases hslot : s.putSlot command.name with
    | error error =>
      rw [hslot] at hstop
      rw [← Plan.stop.inj hstop]
      exact not_blamed_of_putSlot hslot
    | ok found =>
      obtain ⟨slot, overwriting, commandId⟩ := found
      rw [hslot] at hstop
      rcases guard_eq_stop hstop with ⟨-, rfl⟩ | ⟨-, hstop⟩
      · rfl
      · cases hrev : nextRevision s.revision with
        | none =>
          rw [hrev] at hstop
          rw [← Plan.stop.inj hstop]
          rfl
        | some rev =>
          rw [hrev] at hstop
          cases hstop
  cases h : (Op.put command).plan s with
  | stop result =>
    rw [Op.attempt_of_stop h]
    exact hplan result h
  | write payload next undone =>
    rw [Op.attempt_of_write h]
    split <;> rfl

end Options

/-- No operation changes the configuration. -/
theorem Op.config_of_write {op : Op} {s next undone : CommandStore} {payload : Option Nat}
    (h : op.plan s = .write payload next undone) :
    next.config = s.config ∧ undone.config = s.config := by
  cases op with
  | put c =>
    obtain ⟨-, -, -, -, slot, overwriting, id, rev, -, -, -, -, rfl, rfl⟩ := putPlan_eq_write h
    exact ⟨rfl, rfl⟩
  | rename id name =>
    obtain ⟨-, -, slot, rev, -, -, -, -, rfl, rfl⟩ := renamePlan_eq_write h
    exact ⟨rfl, rfl⟩
  | remove name =>
    obtain ⟨slot, -, h⟩ := removePlan_eq_write h
    obtain ⟨-, slot, rev, -, -, -, rfl, rfl⟩ := removeByIdPlan_eq_write h
    exact ⟨rfl, rfl⟩
  | removeById id =>
    obtain ⟨-, slot, rev, -, -, -, rfl, rfl⟩ := removeByIdPlan_eq_write h
    exact ⟨rfl, rfl⟩
  | clearAll =>
    obtain ⟨-, -, rev, -, -, rfl, rfl⟩ := clearAllPlan_eq_write h
    exact ⟨rfl, rfl⟩
  | factoryReset random =>
    obtain ⟨-, -, rfl, rfl⟩ := factoryResetPlan_eq_write h
    exact ⟨rfl, rfl⟩
  | restoreBegin bridgeId id =>
    obtain ⟨-, -, -, -, rev, -, -, rfl, rfl⟩ := restoreBeginPlan_eq_write h
    exact ⟨rfl, rfl⟩
  | importCommand c =>
    obtain ⟨-, -, -, -, -, -, -, slot, rev, -, -, -, -, rfl, rfl⟩ := importCommandPlan_eq_write h
    exact ⟨rfl, rfl⟩
  | restoreCommit source =>
    obtain ⟨-, -, -, rev, -, -, rfl, rfl⟩ := restoreCommitPlan_eq_write h
    exact ⟨rfl, rfl⟩

theorem Op.config_attempt (op : Op) (saves : Bool) (s : CommandStore) :
    (op.attempt saves s).2.config = s.config := by
  cases hplan : op.plan s with
  | stop result => rw [Op.attempt_of_stop hplan]
  | write payload next undone =>
    rw [Op.attempt_of_write hplan]
    split
    · exact (Op.config_of_write hplan).1
    · exact (Op.config_of_write hplan).2

namespace LearningCloner

variable {cfg : CaptureConfig} {c : LearningCloner} {event : LearnEvent} {call : Call}
  {command : Command} {result : StoreResult}

/-- What `commit_capture_` puts, and what comes of it. -/
theorem attempt_of_commitCapture {saves : Bool} (hcall : call ∈ (c.commitCapture cfg saves).2)
    (hput : call.effect = .put command result) : command.name = c.pendingName ∧
      result = ((Op.put command).attempt saves c.store).1 := by
  obtain rfl := put_of_commitCapture hcall hput
  refine ⟨rfl, ?_⟩
  unfold commitCapture at hcall
  split at hcall
  all_goals
    rename_i hattempt
    rw [hattempt]
    rcases List.mem_cons.mp hcall with rfl | hcall
    · exact (Effect.put.inj hput).2.symm
    · obtain rfl := List.mem_singleton.mp hcall
      cases hput

/-- Whoever puts a command puts it under the name of the learn. -/
theorem attempt_of_step (hcall : call ∈ (c.step cfg event).2)
    (hput : call.effect = .put command result) :
    c.state = .armed ∧ command.name = c.pendingName ∧
      ∃ saves, result = ((Op.put command).attempt saves c.store).1 := by
  have hcase := step_cases cfg c event
  generalize c.step cfg event = next at hcase hcall
  cases hcase with
  | rearmed name timeoutMs nowMs =>
    rcases List.mem_append.mp hcall with hcall | hcall
    · exact absurd hcall (put_not_mem_fail hput)
    · exact absurd hcall (put_not_mem_arm hput)
  | armed name timeoutMs nowMs => exact absurd hcall (put_not_mem_arm hput)
  | ignored => cases hcall
  | failed failure => exact absurd hcall (put_not_mem_fail hput)
  | received => cases hcall
  | committed saves rawData nowUs nowMs harmed hcommit =>
    obtain ⟨hname, hresult⟩ := attempt_of_commitCapture hcall hput
    exact ⟨harmed, hname, saves, hresult⟩
  | waited => cases hcall
  | settled saves nowMs harmed hready =>
    obtain ⟨hname, hresult⟩ := attempt_of_commitCapture hcall hput
    exact ⟨harmed, hname, saves, hresult⟩
  | acted => cases hcall

/-- The component runs under one configuration, and learns under valid names only. -/
structure Named (config : Config) (c : LearningCloner) : Prop where
  config : c.store.config = config
  named : c.state = .armed → validateName c.pendingName = .ok

section Named

variable {config : Config}

theorem Named.arm (h : c.store.config = config) (name : Bytes) (timeoutMs nowMs : UInt32) :
    Named config (c.arm cfg name timeoutMs nowMs).1 := by
  refine ⟨(congrArg CommandStore.config (store_arm cfg name timeoutMs nowMs c).1).trans h, ?_⟩
  intro harmed
  by_cases hname : validateName name = .ok
  · unfold LearningCloner.arm at harmed ⊢
    rw [if_neg (not_not_intro hname)] at harmed ⊢
    split at harmed
    · cases harmed
    · rename_i hfull
      rw [if_neg hfull]
      exact hname
  · unfold LearningCloner.arm at harmed
    rw [if_pos hname] at harmed
    cases harmed

theorem Named.commitCapture (h : c.store.config = config) (saves : Bool) :
    Named config (c.commitCapture cfg saves).1 := by
  refine ⟨?_, fun harmed => absurd harmed (state_commitCapture_ne saves c)⟩
  rw [store_commitCapture, storeAfter]
  split
  · exact (Op.config_attempt _ _ _).trans h
  · exact h

/-- **One event.** -/
theorem Named.step (h : Named config c) (event : LearnEvent) : Named config (c.step cfg event).1 := by
  have hcase := step_cases cfg c event
  generalize c.step cfg event = next at hcase
  cases hcase with
  | rearmed name timeoutMs nowMs =>
    exact Named.arm (c := (c.fail .cancelled).1) h.config name timeoutMs nowMs
  | armed name timeoutMs nowMs => exact Named.arm h.config name timeoutMs nowMs
  | ignored => exact h
  | failed failure => exact ⟨h.config, fun harmed => by cases harmed⟩
  | received => exact ⟨h.config, h.named⟩
  | committed saves rawData nowUs nowMs =>
    exact Named.commitCapture
      (c := { c with capture := (c.capture.receive cfg rawData nowUs nowMs).1 }) h.config saves
  | waited => exact h
  | settled saves => exact Named.commitCapture h.config saves
  | acted saves action =>
    refine ⟨?_, h.named⟩
    rcases action.store_perform saves c.toCloner with ⟨op, hstore⟩ | hstore
    · exact ((congrArg CommandStore.config hstore).trans (op.config_attempt saves _)).trans h.config
    · exact (congrArg CommandStore.config hstore).trans h.config

end Named

end LearningCloner

/-- The gap that is stored is within the limits of the configuration, if the default is. -/
theorem CaptureState.resolveGapUs_bounds (cfg : CaptureConfig) (hge : cfg.minGapUs ≤ cfg.defaultGapUs)
    (hle : cfg.defaultGapUs ≤ cfg.maxGapUs) (s : CaptureState) :
    cfg.minGapUs ≤ s.resolveGapUs cfg ∧ s.resolveGapUs cfg ≤ cfg.maxGapUs := by
  unfold resolveGapUs
  split
  · rename_i hmeasured
    simp only [measured, Bool.and_eq_true, decide_eq_true_eq] at hmeasured
    exact ⟨hmeasured.1.2, hmeasured.2⟩
  · split
    · rename_i hestimated
      exact estimateGapUs_bounds hestimated
    · exact ⟨hge, hle⟩

namespace Validated

variable (v : Validated)

theorem intRange_pulses {n : Nat} (hmin : v.options.captureConfig.limits.minPulses.toNat ≤ n)
    (hmax : n ≤ v.options.captureConfig.limits.maxPulses.toNat) :
    intRange v.options.minPulses v.options.maxPulses n := by
  have hlow := v.inSchema.minPulses
  have hhigh := v.inSchema.maxPulses
  unfold intRange at hlow hhigh
  have hminPulses : ((UInt16.ofInt v.options.minPulses).toNat : Int) = v.options.minPulses :=
    toNat_ofInt16 (by omega) (by omega)
  have hmaxPulses : ((UInt16.ofInt v.options.maxPulses).toNat : Int) = v.options.maxPulses :=
    toNat_ofInt16 (by omega) (by omega)
  exact ⟨hminPulses ▸ Int.ofNat_le.mpr hmin, hmaxPulses ▸ Int.ofNat_le.mpr hmax⟩

theorem intRange_magnitude (hlength : v.options.maxPulseLength < 2 ^ 32) {timing : Int32}
    (h : pulseInRange v.options.captureConfig.limits timing = true) :
    intRange v.options.minPulseLength v.options.maxPulseLength timing.toInt.natAbs := by
  have hlow := v.inSchema.minPulseLength
  have hless := v.consistent.lengths
  have hminLength := toNat_ofInt32 hlow (by omega)
  have hmaxLength := toNat_ofInt32 (by omega : 0 ≤ v.options.maxPulseLength) hlength
  simp only [pulseInRange, Bool.and_eq_true, Bool.not_eq_true', Bool.or_eq_false_iff,
    decide_eq_false_iff_not, UInt32.lt_iff_toNat_lt, toNat_magnitude, gt_iff_lt] at h
  have hlt : ¬ timing.toInt.natAbs < (UInt32.ofInt v.options.minPulseLength).toNat := h.2.1
  have hgt : ¬ (UInt32.ofInt v.options.maxPulseLength).toNat < timing.toInt.natAbs := h.2.2
  unfold intRange
  omega

theorem intRange_gap (hgap : v.options.maxGap < 2 ^ 32) (s : CaptureState) :
    intRange v.options.minGap v.options.maxGap (s.resolveGapUs v.options.captureConfig).toNat := by
  have hlow := v.inSchema.minGap
  obtain ⟨-, -, -, hless, -, hge, hle⟩ := v.consistent
  have hmin := toNat_ofInt32 hlow (by omega)
  have hmax := toNat_ofInt32 (by omega : 0 ≤ v.options.maxGap) hgap
  have hdefault := toNat_ofInt32 (by omega : 0 ≤ v.options.defaultGap) (by omega)
  have hmin' : v.options.captureConfig.minGapUs = UInt32.ofInt v.options.minGap := rfl
  have hmax' : v.options.captureConfig.maxGapUs = UInt32.ofInt v.options.maxGap := rfl
  have hdefault' : v.options.captureConfig.defaultGapUs = UInt32.ofInt v.options.defaultGap := rfl
  obtain ⟨hlower, hupper⟩ := CaptureState.resolveGapUs_bounds v.options.captureConfig
    (by rw [hmin', hdefault', UInt32.le_iff_toNat_le]; omega)
    (by rw [hmax', hdefault', UInt32.le_iff_toNat_le]; omega) s
  rw [hmin', UInt32.le_iff_toNat_le] at hlower
  rw [hmax', UInt32.le_iff_toNat_le] at hupper
  unfold intRange
  omega

/-- **What is learned is within the limits that were asked for.**  On a device with accepted options,
    whose longest pulse and gap fit 32 bits, in every run of learns, windows and registry actions,
    whatever is put has a valid name, a number of pulses and a gap within the options, and only pulses
    whose lengths are; and it is not refused for its name or for the number of its pulses. -/
theorem learned_within (hlength : v.options.maxPulseLength < 2 ^ 32) (hgap : v.options.maxGap < 2 ^ 32)
    {store : CommandStore} (hstore : store.config = v.options.storeConfig) {events : List LearnEvent}
    {k : Nat} {event : LearnEvent} (hevent : events[k]? = some event) {call : Call} {command : Command}
    {result : StoreResult}
    (hcall : call ∈ ((Observed.moment v.options.captureConfig store events k).cloner.step
      v.options.captureConfig event).2)
    (hput : call.effect = .put command result) :
    validateName command.name = .ok ∧
    intRange v.options.minPulses v.options.maxPulses command.timings.length ∧
    (∀ timing ∈ command.timings,
      intRange v.options.minPulseLength v.options.maxPulseLength timing.toInt.natAbs) ∧
    intRange v.options.minGap v.options.maxGap command.gapUs.toNat ∧
    Options.blamesCommand result = false := by
  have hnamed : LearningCloner.Named v.options.storeConfig
      (Observed.moment v.options.captureConfig store events k).cloner :=
    Runs.inv (I := fun x : Observed => LearningCloner.Named v.options.storeConfig x.cloner)
      ⟨hstore, fun h => by cases h⟩ (fun _ event _ h => h.step event) k
  obtain ⟨harmed, hname, saves, rfl⟩ := LearningCloner.attempt_of_step hcall hput
  have hvalid := hnamed.named harmed
  rw [← hname] at hvalid
  obtain ⟨hcapture, hready, htimings, hresolved⟩ :=
    Observed.put_inv (I := fun s _ => s.Valid v.options.captureConfig)
      (fun s => ⟨fun h => absurd rfl h, fun h => by cases h⟩)
      (fun s windows rawData nowUs nowMs h => h.receive rawData nowUs nowMs)
      store hevent hcall hput
  have hne := hcapture.ready hready
  have hframe := hcapture.valid hne
  rw [← htimings] at hne hframe
  obtain ⟨hmin, hmax, hpulses⟩ := validateFrame_eq_ok.mp hframe
  refine ⟨hvalid, v.intRange_pulses hmin hmax, fun timing htiming => ?_, ?_, ?_⟩
  · exact v.intRange_magnitude hlength (hpulses timing htiming)
  · rw [hresolved]
    exact v.intRange_gap hgap _
  · exact Options.not_blamed_put hvalid hne (by rw [hnamed.config]; exact hmax)

/-- Three repeats of a frame are learned with the default options. -/
theorem learned_within_defaults :
    let v := defaults (ascii "cloner")
    let store := CommandStore.configure v.options.storeConfig
    let window := Observed.windowOf 5000 (List.replicate 3 (Observed.pulseTrain 400))
    let events := Observed.learnFrom window
    ∃ call command result, call ∈ ((Observed.moment v.options.captureConfig store events 1).cloner.step
        v.options.captureConfig (.onReceive true window 5000 5)).2 ∧
      call.effect = .put command result ∧ intRange 8 128 command.timings.length ∧
      intRange 1000 200000 command.gapUs.toNat := by
  intro v store window events
  obtain ⟨call, command, result, hcall, hput, -⟩ := Observed.put_learnFrom v.options.captureConfig
    store window (by decide +kernel) (by decide +kernel)
  obtain ⟨-, hpulses, -, hgap, -⟩ := v.learned_within (by decide) (by decide)
    (rfl : store.config = v.options.storeConfig)
    (rfl : events[1]? = some (.onReceive true window 5000 5)) hcall hput
  exact ⟨call, command, result, hcall, hput, hpulses, hgap⟩

end Validated

end RfCloner
