/-
  What the forms refuse, and what the device refuses (`models.py`, `config_flow.py`).

  A learn and a rename are calls that bring nothing back: the device notes a refusal in its last
  result, and the flow goes on.  So the forms have to know beforehand.  `validate_command_name` counts
  characters where `validate_name` counts bytes, and tests characters where that one tests bytes.
  They accept the same names, since no name beyond ASCII passes either.

  `forms_exact` says what the forms let pass when they see the current status.  A learn passes exactly
  if the device arms for it, takes the capture as far as its guards go, and has no command of that
  name.  A rename passes exactly if the device has nothing to say against it but that its revision is
  exhausted or its write fails.
-/
import RfCloner.System.Outcomes

namespace RfCloner

open CommandStore

/-! ## Names -/

section Names

variable {c : Char} {name : Str}

/-- The two character sets are the same. -/
theorem nameCharAllowed_of_ascii (h : c.toNat < 128) :
    nameCharAllowed (UInt8.ofNat c.toNat) = (c.isAlphanum || decide (c ∈ nameAllowedExtra)) := by
  have hall : ∀ n : Fin 128, nameCharAllowed (UInt8.ofNat n.val)
      = ((Char.ofNat n.val).isAlphanum || decide (Char.ofNat n.val ∈ nameAllowedExtra)) := by
    decide +kernel
  have hchar := hall ⟨c.toNat, h⟩
  rwa [Char.ofNat_toNat] at hchar

theorem lt_of_nameCharAllowed {byte : UInt8} (h : nameCharAllowed byte = true) : byte < 128 := by
  have hall : ∀ i : Fin 256, nameCharAllowed (UInt8.ofFin i) = true → UInt8.ofFin i < 128 := by
    decide +kernel
  exact hall byte.toFin h

/-- The bytes of a character are allowed exactly if it is. -/
theorem all_utf8EncodeChar (c : Char) : (String.utf8EncodeChar c).all nameCharAllowed
    = (decide (c.toNat < 128) && (c.isAlphanum || decide (c ∈ nameAllowedExtra))) := by
  by_cases hc : c.toNat < 128
  · rw [utf8EncodeChar_of_lt hc, decide_eq_true hc, ← nameCharAllowed_of_ascii hc]
    simp
  · rw [decide_eq_false hc, Bool.false_and]
    refine Bool.eq_false_iff.mpr fun hall => hc ?_
    exact lt_of_utf8EncodeChar fun byte hbyte =>
      lt_of_nameCharAllowed (List.all_eq_true.mp hall byte hbyte)

theorem all_utf8 (name : Str) : (utf8 name).all nameCharAllowed
    = name.all fun c => decide (c.toNat < 128) && (c.isAlphanum || decide (c ∈ nameAllowedExtra)) := by
  induction name with
  | nil => rfl
  | cons c name ih =>
    have hsplit : utf8 (c :: name) = String.utf8EncodeChar c ++ utf8 name := rfl
    rw [hsplit, List.all_append, all_utf8EncodeChar, ih, List.all_cons]

/-- A character takes a byte at least. -/
theorem length_le_utf8 (name : Str) : name.length ≤ (utf8 name).length := by
  induction name with
  | nil => exact Nat.le_refl 0
  | cons c name ih =>
    have hsplit : utf8 (c :: name) = String.utf8EncodeChar c ++ utf8 name := rfl
    have hpos : 0 < (String.utf8EncodeChar c).length := by
      rw [String.length_utf8EncodeChar]
      exact c.utf8Size_pos
    rw [hsplit, List.length_append, List.length_cons]
    omega

/-- Allowed characters take one byte each. -/
theorem length_utf8_of_allowed (h : (utf8 name).all nameCharAllowed = true) :
    (utf8 name).length = name.length := by
  have hascii : ∀ byte ∈ utf8 name, byte < 128 := fun byte hbyte =>
    lt_of_nameCharAllowed (List.all_eq_true.mp h byte hbyte)
  have hback := ofUtf8_utf8 hascii
  have hall : (utf8 name).all (· < 128) = true := by simpa using hascii
  unfold ofUtf8 at hback
  rw [if_pos hall] at hback
  simpa using congrArg List.length hback

end Names

/-- The key under which a form reports what the device finds wrong with a name. -/
def StoreResult.problem (result : StoreResult) : Option Str :=
  if result = .ok then none else some (ofUtf8 result.text)

/-- **The two checks of a name accept the same names**, and find the same wrong with the others unless
    a name of few characters has many bytes. -/
theorem validateCommandName_exact (name : Str) :
    (validateCommandName name = none ↔ validateName (utf8 name) = .ok) ∧
    (validateCommandName name = (validateName (utf8 name)).problem ↔
      ¬ (name.length ≤ nameMaxLength ∧ nameMaxLength < (utf8 name).length)) := by
  have hle := length_le_utf8 name
  have hmax : nameMaxChars = nameMaxLength := rfl
  have hempty : (utf8 name).isEmpty = name.isEmpty := by
    cases name with
    | nil => rfl
    | cons c name =>
      rw [List.length_cons] at hle
      rw [List.isEmpty_cons, List.isEmpty_eq_false_iff, ← List.length_pos_iff]
      omega
  unfold validateCommandName validateName
  rw [← all_utf8, hmax, hempty]
  by_cases hnil : name.isEmpty = true
  · rw [if_pos hnil, if_pos hnil, List.isEmpty_iff.mp hnil]
    decide
  rw [if_neg hnil, if_neg hnil]
  by_cases hlong : name.length > nameMaxLength
  · have hbytes : (utf8 name).length > nameMaxLength := by omega
    rw [if_pos hlong, if_pos hbytes]
    exact ⟨iff_of_false (by decide) (by decide), iff_of_true (by decide) fun h => by omega⟩
  rw [if_neg hlong]
  cases hall : (utf8 name).all nameCharAllowed with
  | true =>
    have hsame := length_utf8_of_allowed hall
    rw [if_neg (show ¬ (utf8 name).length > nameMaxLength by omega)]
    exact ⟨iff_of_true rfl rfl, iff_of_true rfl fun h => by omega⟩
  | false =>
    by_cases hbytes : (utf8 name).length > nameMaxLength
    · rw [if_pos hbytes]
      exact ⟨iff_of_false (by decide) (by decide), iff_of_false (by decide) fun h => h (by omega)⟩
    · rw [if_neg hbytes]
      exact ⟨iff_of_false (by decide) (by decide), iff_of_true (by decide) fun h => by omega⟩

/-! ## Learning -/

namespace LearningCloner

variable (cfg : CaptureConfig) (c : LearningCloner)

/-- When the device arms. -/
theorem state_learn (name : Bytes) (timeoutMs nowMs : UInt32) :
    (c.learn cfg name timeoutMs nowMs).1.state = .armed ↔
      validateName name = .ok ∧
        (c.store.has name = true ∨ c.store.count < c.store.config.maxCommands.toNat) := by
  have harm : ∀ d : LearningCloner, d.store = c.store →
      ((d.arm cfg name timeoutMs nowMs).1.state = .armed ↔ validateName name = .ok ∧
        (c.store.has name = true ∨ c.store.count < c.store.config.maxCommands.toNat)) := by
    intro d hd
    unfold arm refuse
    rw [hd]
    by_cases hname : validateName name = .ok
    · rw [if_neg (not_not.mpr hname)]
      split
      · rename_i hfull
        refine iff_of_false (fun h => by cases h) fun h => ?_
        rw [hfull.1] at h
        rcases h.2 with h | h
        · cases h
        · omega
      · rename_i hroom
        refine iff_of_true rfl ⟨hname, ?_⟩
        by_contra hnot
        rw [not_or, Bool.not_eq_true] at hnot
        exact hroom ⟨hnot.1, by omega⟩
    · rw [if_pos hname]
      exact iff_of_false (fun h => by cases h) fun h => hname h.1
  unfold learn
  split
  · exact harm (c.fail .cancelled).1 rfl
  · exact harm c rfl

/-- A status has a row of a name exactly if the registry has a command of that name. -/
theorem isSome_byName (hwf : c.store.WellFormed) (name : Str) :
    (c.rfStatus.byName name).isSome = c.store.has (utf8 name) := by
  have hbears := congrArg Option.isSome (commandId_byName hwf name)
  rw [Option.isSome_map, Option.isSome_map] at hbears
  refine hbears.trans ?_
  unfold CommandStore.bearer CommandStore.get CommandStore.has
  rw [Option.isSome_map, Option.isSome_map]

end LearningCloner

/-! ## Renaming -/

namespace CommandStore

variable {s : CommandStore} {i : Nat} {id : UInt32} {name : Bytes}

/-- A rename that the device has nothing to say against, but that its revision is exhausted or its
    write fails. -/
def MayRename (s : CommandStore) (id : UInt32) (name : Bytes) : Prop :=
  ((Op.rename id name).attempt true s).1 = .ok ∨
    ((Op.rename id name).attempt true s).1 = .revisionExhausted

theorem writable_of_mayRename (h : s.MayRename id name) : s.writable = .ok := by
  by_contra hwritable
  have hplan : (Op.rename id name).plan s = .stop s.writable := if_pos hwritable
  unfold MayRename at h
  rw [Op.attempt_of_stop hplan] at h
  rcases h with h | h
  · exact hwritable h
  · exact absurd h (by unfold writable; split_ifs <;> decide)

theorem mayRename_iff (hwritable : s.writable = .ok) (hfind : s.findSlotById id = some i)
    (hname : (s.slot i).name ≠ name) :
    s.MayRename id name ↔ validateName name = .ok ∧ s.has name = false := by
  have hplan : (Op.rename id name).plan s = s.renamePlan id name := rfl
  unfold MayRename
  unfold renamePlan at hplan
  rw [if_neg (not_not.mpr hwritable)] at hplan
  by_cases hvalid : validateName name = .ok
  · rw [if_neg (not_not.mpr hvalid), hfind] at hplan
    simp only [if_neg hname] at hplan
    cases hhas : s.has name with
    | true =>
      rw [if_pos (show (s.findSlot name).isSome = true from hhas)] at hplan
      rw [Op.attempt_of_stop hplan]
      exact iff_of_false (fun h => by rcases h with h | h <;> cases h) fun h => by cases h.2
    | false =>
      rw [if_neg (by rw [show (s.findSlot name).isSome = false from hhas]; decide)] at hplan
      refine iff_of_true ?_ ⟨hvalid, rfl⟩
      split at hplan
      · rw [Op.attempt_of_stop hplan]
        exact Or.inr rfl
      · rw [Op.attempt_of_write hplan]
        exact Or.inl rfl
  · rw [if_pos hvalid] at hplan
    rw [Op.attempt_of_stop hplan]
    refine iff_of_false (fun h => ?_) fun h => hvalid h.1
    rcases h with h | h
    · exact hvalid h
    · exact absurd h (by unfold validateName; split_ifs <;> decide)

end CommandStore

namespace LearningCloner

variable {c : LearningCloner} {name : Str} {row : CommandInfo} {commandId : Int}

/-- The row of a slot. -/
theorem exists_slot (h : row ∈ c.rfStatus.commands) :
    ∃ i, (c.store.slot i).occupied = true ∧ row.commandId = (c.store.slot i).commandId.toNat ∧
      row.name = ofUtf8 (c.store.slot i).name := by
  rw [Cloner.commands_rfStatus] at h
  obtain ⟨command, hcommand, rfl⟩ := List.mem_map.mp h
  obtain ⟨i, rfl, hocc⟩ := SlotTable.mem_content.mp hcommand
  exact ⟨i, hocc, rfl, rfl⟩

theorem mem_of_byId (h : c.rfStatus.byId commandId = some row) :
    row ∈ c.rfStatus.commands ∧ row.commandId = commandId := by
  have hfind : (c.rfStatus.commands.reverse.find? fun command => command.commandId = commandId)
      = some row := h
  exact ⟨List.mem_reverse.mp (List.mem_of_find?_eq_some hfind), by simpa using List.find?_some hfind⟩

theorem mem_of_byName (h : c.rfStatus.byName name = some row) :
    row ∈ c.rfStatus.commands ∧ row.name = name := by
  have hfind : (c.rfStatus.commands.reverse.find? fun command => command.name = name) = some row := h
  exact ⟨List.mem_reverse.mp (List.mem_of_find?_eq_some hfind), by simpa using List.find?_some hfind⟩

/-- A name that a command does not have is taken by another exactly if the registry has it. -/
theorem taken_eq (hwf : c.store.WellFormed) (hrow : c.rfStatus.byId commandId = some row)
    (hne : name ≠ row.name) :
    ((c.rfStatus.byName name).any fun takenBy => takenBy.commandId != commandId)
      = c.store.has (utf8 name) := by
  rw [← isSome_byName c hwf name]
  cases hbyName : c.rfStatus.byName name with
  | none => rfl
  | some other =>
    obtain ⟨hmem, hid⟩ := mem_of_byId hrow
    obtain ⟨hmem', hname⟩ := mem_of_byName hbyName
    obtain ⟨i, hocc, hi, hi'⟩ := exists_slot hmem
    obtain ⟨j, hocc', hj, hj'⟩ := exists_slot hmem'
    show (other.commandId != commandId) = true
    refine bne_iff_ne.mpr fun hsame => hne ?_
    have hids : (c.store.slot j).commandId = (c.store.slot i).commandId := by
      have hcast : ((c.store.slot j).commandId.toNat : Int) = (c.store.slot i).commandId.toNat := by
        rw [← hj, ← hi, hsame, hid]
      exact UInt32.toNat_inj.mp (Int.ofNat_inj.mp hcast)
    have hslots : some j = some i := by
      rw [← hwf.findSlotById_id hocc', ← hwf.findSlotById_id hocc, hids]
    rw [← hname, hj', hi', Option.some.inj hslots]

/-- The command of a row is found under its id, and has the name of the row. -/
theorem findSlotById_of_byId (hwf : c.store.WellFormed) (hrow : c.rfStatus.byId commandId = some row)
    (hne : name ≠ row.name) :
    ∃ i, c.store.findSlotById (UInt32.ofNat commandId.toNat) = some i ∧
      (c.store.slot i).name ≠ utf8 name := by
  obtain ⟨hmem, hid⟩ := mem_of_byId hrow
  obtain ⟨i, hocc, hi, hi'⟩ := exists_slot hmem
  refine ⟨i, ?_, fun hname => hne ?_⟩
  · rw [← hid, hi, Int.toNat_natCast, UInt32.ofNat_toNat]
    exact hwf.findSlotById_id hocc
  · have hascii := lt_of_validateName (hwf.names_valid _ (slot_mem_commands hocc))
    rw [hname] at hascii
    rw [hi', hname, ofUtf8_utf8 hascii]

end LearningCloner

/-! ## The forms -/

section Exact

variable {c : LearningCloner}

theorem acceptsMutations_rfStatus : c.rfStatus.acceptsMutations = true ↔
    c.store.readOnly = false ∧ c.store.restoreState = 0 := by
  show (!c.store.readOnly && !(c.store.restoreState != 0)) = true ↔ _
  simp

theorem isFull_rfStatus (hpos : c.store.config.maxCommands ≠ 0) :
    c.rfStatus.isFull = true ↔ ¬ c.store.count < c.store.config.maxCommands.toNat := by
  have hpos : 0 < c.store.config.maxCommands.toNat :=
    Nat.pos_of_ne_zero fun h => hpos (UInt8.toNat_inj.mp h)
  show (decide (((c.store.config.maxCommands.toNat : Nat) : Int) > 0)
    && decide (((c.store.count : Nat) : Int) ≥ c.store.config.maxCommands.toNat)) = true ↔ _
  rw [Bool.and_eq_true, decide_eq_true_eq, decide_eq_true_eq]
  omega

/-- A learn passes the form exactly if the registry can be written to, has no such command, and the
    device arms. -/
theorem learnForm_exact (hs : c.store.readOnly = false → c.store.Sound)
    (hpos : c.store.config.maxCommands ≠ 0) (cfg : CaptureConfig) (input : LearnInput)
    (timeoutMs nowMs : UInt32) :
    (∃ steps, LearnCommandSteps.asyncStepLearnCommand (some c.rfStatus) input = .next steps) ↔
      c.store.readOnly = false ∧ c.store.restoreState = 0 ∧
        c.store.has (utf8 (strip input.name)) = false ∧
        (c.learn cfg (utf8 (strip input.name)) timeoutMs nowMs).1.state = .armed := by
  rw [LearningCloner.state_learn]
  unfold LearnCommandSteps.asyncStepLearnCommand
  dsimp only
  by_cases haccepts : c.rfStatus.acceptsMutations = true
  · rw [haccepts]
    obtain ⟨hro, hrestore⟩ := acceptsMutations_rfStatus.mp haccepts
    have hwf := (hs hro).toWellFormed
    have hbyName := LearningCloner.isSome_byName c hwf (strip input.name)
    have hnames := (validateCommandName_exact (strip input.name)).1
    rw [if_neg (by decide)]
    by_cases hfull : c.rfStatus.isFull = true
    · rw [if_pos hfull]
      refine iff_of_false (fun ⟨_, h⟩ => by cases h) fun ⟨_, _, hnot, _, h⟩ => ?_
      rw [hnot] at h
      exact (isFull_rfStatus hpos).mp hfull (h.resolve_left Bool.false_ne_true)
    · rw [if_neg hfull]
      have hroom := not_not.mp fun hnot => hfull ((isFull_rfStatus hpos).mpr hnot)
      cases hproblem : validateCommandName (strip input.name) with
      | some problem =>
        refine iff_of_false (fun ⟨_, h⟩ => by cases h) fun ⟨_, _, _, hvalid, _⟩ => ?_
        rw [hnames.mpr hvalid] at hproblem
        cases hproblem
      | none =>
        dsimp only
        rw [hbyName]
        cases hhas : c.store.has (utf8 (strip input.name)) with
        | true =>
          exact iff_of_false (fun ⟨_, h⟩ => by cases h) fun ⟨_, _, h, _⟩ => by cases h
        | false => exact iff_of_true ⟨_, rfl⟩ ⟨hro, hrestore, rfl, hnames.mp hproblem, Or.inr hroom⟩
  · rw [Bool.not_eq_true] at haccepts
    rw [haccepts, if_pos (by decide)]
    refine iff_of_false (fun ⟨_, h⟩ => by cases h) fun ⟨hro, hrestore, _⟩ => ?_
    rw [acceptsMutations_rfStatus.mpr ⟨hro, hrestore⟩] at haccepts
    cases haccepts

/-- A rename passes the form exactly if the device has nothing to say against it. -/
theorem renameForm_exact (hs : c.store.readOnly = false → c.store.Sound)
    (hbackend : c.store.backend = true) {commandId : Int} {row : CommandInfo} {input : CommandInput} (hdelete : input.delete = false)
    (hrow : c.rfStatus.byId commandId = some row) (hname : strip input.name ≠ row.name) :
    input.accepted (some c.rfStatus) (some commandId) true = .next commandId ↔
      c.store.MayRename (UInt32.ofNat commandId.toNat) (utf8 (strip input.name)) := by
  unfold CommandInput.accepted
  simp only [hrow, hdelete, Bool.false_eq_true, if_false, Bool.not_true, and_false]
  by_cases haccepts : c.rfStatus.acceptsMutations = true
  · obtain ⟨hro, hrestore⟩ := acceptsMutations_rfStatus.mp haccepts
    have hwf := (hs hro).toWellFormed
    have hwritable : c.store.writable = .ok := by
      unfold writable
      simp [hbackend, hro, hrestore]
    obtain ⟨i, hfind, hne⟩ := LearningCloner.findSlotById_of_byId hwf hrow hname
    rw [mayRename_iff hwritable hfind hne, LearningCloner.taken_eq hwf hrow hname, haccepts,
      ← (validateCommandName_exact (strip input.name)).1]
    simp only [Bool.not_true, Bool.false_eq_true, and_false, if_false]
    cases validateCommandName (strip input.name) with
    | some problem => exact iff_of_false (fun h => by cases h) fun h => by cases h.1
    | none =>
      cases c.store.has (utf8 (strip input.name)) with
      | true => exact iff_of_false (fun h => by cases h) fun h => by cases h.2
      | false => exact iff_of_true rfl ⟨rfl, rfl⟩
  · rw [Bool.not_eq_true] at haccepts
    rw [haccepts]
    refine iff_of_false (fun h => ?_) fun h => ?_
    · split at h
      · cases h
      · split at h
        · cases h
        · rw [if_pos ⟨hname, rfl⟩] at h
          cases h
    · obtain ⟨-, hro, hrestore⟩ := writable_eq_ok (writable_of_mayRename h)
      rw [acceptsMutations_rfStatus.mpr ⟨hro, hrestore⟩] at haccepts
      cases haccepts

end Exact

/-- **The forms know what the device will say.**  Every name is accepted by both or by neither, and
    the same is found wrong with it unless a name of few characters has many bytes.  For a device that
    has come to be in any way and a form that sees its current status: a learn passes exactly if the
    registry can be written to, has no command of that name, and the device arms; a new name passes
    exactly if the device has nothing to say against it but that its revision is exhausted or its
    write fails. -/
theorem forms_exact (cfg : CaptureConfig) (config : Config) (lands : Nat → Bool)
    (random : Option BridgeId) (history : List Event) (c : LearningCloner)
    (hc : c.store = (Session.run lands (Session.powerOn lands config random) history).store)
    (hpos : c.store.config.maxCommands ≠ 0) :
    (∀ name : Str, (validateCommandName name = none ↔ validateName (utf8 name) = .ok) ∧
      (validateCommandName name = (validateName (utf8 name)).problem ↔
        ¬ (name.length ≤ nameMaxLength ∧ nameMaxLength < (utf8 name).length))) ∧
    (∀ (input : LearnInput) (timeoutMs nowMs : UInt32),
      (∃ steps, LearnCommandSteps.asyncStepLearnCommand (some c.rfStatus) input = .next steps) ↔
        c.store.readOnly = false ∧ c.store.restoreState = 0 ∧
          c.store.has (utf8 (strip input.name)) = false ∧
          (c.learn cfg (utf8 (strip input.name)) timeoutMs nowMs).1.state = .armed) ∧
    ∀ (commandId : Int) (row : CommandInfo) (input : CommandInput), input.delete = false →
      c.rfStatus.byId commandId = some row → strip input.name ≠ row.name →
      (input.accepted (some c.rfStatus) (some commandId) true = .next commandId ↔
        c.store.MayRename (UInt32.ofNat commandId.toNat) (utf8 (strip input.name))) := by
  have hs : c.store.readOnly = false → c.store.Sound := by
    rw [hc]
    exact (Session.founded_run lands config random history).ram
  have hbackend : c.store.backend = true := by
    rw [hc]
    exact (Session.founded_run lands config random history).backend
  refine ⟨validateCommandName_exact, learnForm_exact hs hpos cfg, ?_⟩
  intro commandId row input hdelete hrow hname
  exact renameForm_exact hs hbackend hdelete hrow hname

/-- A device with one command. -/
def withFan : LearningCloner :=
  LearningCloner.boot (Session.run (fun _ => true)
    (Session.powerOn (fun _ => true) ⟨2, 16, 400, 7⟩ none)
    [.op (.put { name := ascii "fan", timings := [350, -1050] })]).store

/-- Its command may get another name, and a second one may be learned under the name it has; the form
    lets the one pass and not the other. -/
theorem forms_exact_renamed :
    withFan.store.MayRename 1 (utf8 (str "lamp")) ∧
    ¬ ∃ steps, LearnCommandSteps.asyncStepLearnCommand (some withFan.rfStatus) ⟨str "fan ", none, none⟩
      = .next steps := by
  obtain ⟨-, hlearn, hrename⟩ := forms_exact {} ⟨2, 16, 400, 7⟩ (fun _ => true) none
    [.op (.put { name := ascii "fan", timings := [350, -1050] })] withFan rfl (by decide +kernel)
  refine ⟨(hrename 1 ⟨1, str "fan", 2⟩ ⟨str "lamp", none, none, false⟩ rfl (by decide +kernel)
    (by decide +kernel)).mp ?_, fun h => ?_⟩
  · rfl
  · have hhas := ((hlearn ⟨str "fan ", none, none⟩ 0 0).mp h).2.2.1
    exact absurd hhas (by decide +kernel)

end RfCloner
