/-
  What the command store is for: the abstract registry.

  A `Reference` is a finite map from command ids to what they stand for, with no name used twice,
  together with the identity, the counters and the limits of the bridge.  Its operations know
  nothing of slots, scans, machine words for byte counts, flash or rollback.  The store is compared
  with it in `RfCloner.Store.Refine`.
-/
import RfCloner.Lib.SlotMap
import RfCloner.Store.Operations

namespace RfCloner

/-! ## Entries -/

/-- What a command id stands for. -/
structure Entry where
  name : Bytes
  timings : List Int32
  gapUs : UInt32
  repeatTimes : UInt16
  frequencyHz : UInt32
  modulation : UInt8
  deriving DecidableEq, Repr

def Command.entry (c : Command) : Entry :=
  ⟨c.name, c.timings, c.gapUs, c.repeatTimes, c.frequencyHz, c.modulation⟩

def Entry.command (id : UInt32) (e : Entry) : Command :=
  ⟨id, e.name, e.timings, e.gapUs, e.repeatTimes, e.frequencyHz, e.modulation⟩

/-- The commands of a registry. -/
abbrev Registered := Finmap fun _ : UInt32 => Entry

/-- The name is free, or used by the command `id`. -/
def NameFree (m : Registered) (id : UInt32) (name : Bytes) : Prop :=
  ∀ id' e, m.lookup id' = some e → e.name = name → id' = id

/-! ## The registry -/

/-- How much a bridge can hold: commands, pulses in one of them, and bytes in all, of which an
    empty registry takes `overhead`. -/
structure Limits where
  commands : Nat
  pulses : Nat
  bytes : Nat
  overhead : Nat
  deriving DecidableEq, Repr

/-- The abstract registry. -/
@[ext] structure Reference where
  limits : Limits
  commands : Registered
  names_unique : ∀ id e, commands.lookup id = some e → NameFree commands id e.name
  bridgeId : BridgeId
  nextId : UInt32
  revision : UInt32
  restoring : Bool

namespace Reference

/-- The registry of a bridge that has just minted its identity. -/
def fresh (limits : Limits) (random : Option BridgeId) : Reference where
  limits := limits
  commands := ∅
  names_unique := fun _ _ h => nomatch h
  bridgeId := random.getD BridgeId.zero
  nextId := commandIdFirst
  revision := revisionInitial
  restoring := false

variable (r : Reference)

/-! ## Looking things up -/

/-- How many commands there are. -/
def count : Nat := Multiset.card r.commands.entries

/-- The bytes in use. -/
def usedBytes : Nat :=
  r.limits.overhead + (r.commands.entries.map fun e => e.2.timings.length * 4).sum

/-- The id of the command of that name. -/
noncomputable def idOf (name : Bytes) : Option UInt32 :=
  haveI := Classical.dec (∃ id e, r.commands.lookup id = some e ∧ e.name = name)
  if h : ∃ id e, r.commands.lookup id = some e ∧ e.name = name then some h.choose else none

/-- The command of that id. -/
def getById (id : UInt32) : Option Command := (r.commands.lookup id).map (Entry.command id)

/-- The command of that name. -/
noncomputable def get (name : Bytes) : Option Command := (r.idOf name).bind r.getById

/-- The listing, in no particular order. -/
def entries : Multiset (UInt32 × Bytes × Nat) :=
  r.commands.entries.map fun e => (e.1, e.2.name, e.2.timings.length)

variable {r} {name : Bytes} {id : UInt32}

theorem idOf_eq_some : r.idOf name = some id ↔ ∃ e, r.commands.lookup id = some e ∧ e.name = name := by
  unfold idOf
  constructor
  · intro h
    split at h
    · rename_i hex
      obtain rfl := Option.some.inj h
      exact hex.choose_spec
    · cases h
  · rintro ⟨e, hlookup, hname⟩
    have hex : ∃ id e, r.commands.lookup id = some e ∧ e.name = name := ⟨id, e, hlookup, hname⟩
    obtain ⟨e', hlookup', hname'⟩ := hex.choose_spec
    rw [dif_pos hex, r.names_unique id e hlookup _ e' hlookup' (hname'.trans hname.symm)]

theorem idOf_eq_none : r.idOf name = none ↔ ∀ id e, r.commands.lookup id = some e → e.name ≠ name := by
  rw [Option.eq_none_iff_forall_ne_some]
  constructor
  · intro h id e hlookup hname
    exact h id (idOf_eq_some.mpr ⟨e, hlookup, hname⟩)
  · intro h id hid
    obtain ⟨e, hlookup, hname⟩ := idOf_eq_some.mp hid
    exact h id e hlookup hname

/-- A known name is used by its own command only. -/
theorem free_of_idOf_some (h : r.idOf name = some id) : NameFree r.commands id name := by
  obtain ⟨e, hlookup, rfl⟩ := idOf_eq_some.mp h
  exact r.names_unique id e hlookup

/-- An unknown name can be given to any command. -/
theorem free_of_idOf_none (h : r.idOf name = none) (id : UInt32) : NameFree r.commands id name :=
  fun id' e hlookup hname => absurd hname (idOf_eq_none.mp h id' e hlookup)

/-! ## Changing a registry -/

/-- Names stay unique when a command gets a name that is free for it. -/
theorem unique_insert {m : Registered} {e : Entry}
    (hunique : ∀ id e, m.lookup id = some e → NameFree m id e.name) (hfree : NameFree m id e.name) :
    ∀ id' e', (m.insert id e).lookup id' = some e' → NameFree (m.insert id e) id' e'.name := by
  intro a ea ha b eb hb hname
  by_cases hai : a = id
  · subst hai
    rw [Finmap.lookup_insert] at ha
    obtain rfl := Option.some.inj ha
    by_contra hba
    rw [Finmap.lookup_insert_of_ne _ hba] at hb
    exact hba (hfree b eb hb hname)
  · rw [Finmap.lookup_insert_of_ne _ hai] at ha
    by_cases hbi : b = id
    · subst hbi
      rw [Finmap.lookup_insert] at hb
      obtain rfl := Option.some.inj hb
      exact absurd (hfree a ea ha hname.symm) hai
    · rw [Finmap.lookup_insert_of_ne _ hbi] at hb
      exact hunique a ea ha b eb hb hname

theorem lookup_of_erase {m : Registered} {id' : UInt32} {e : Entry}
    (h : (m.erase id).lookup id' = some e) : m.lookup id' = some e := by
  by_cases hid : id' = id
  · subst hid
    rw [Finmap.lookup_erase] at h
    cases h
  · rwa [Finmap.lookup_erase_ne hid] at h

variable (r)

/-- The registry with command `id` added or replaced. -/
def store (id : UInt32) (e : Entry) (h : NameFree r.commands id e.name) : Reference :=
  { r with
    commands := r.commands.insert id e
    names_unique := unique_insert r.names_unique h }

/-- The registry without command `id`. -/
def drop (id : UInt32) : Reference :=
  { r with
    commands := r.commands.erase id
    names_unique := fun a ea ha b eb hb =>
      r.names_unique a ea (lookup_of_erase ha) b eb (lookup_of_erase hb) }

/-- The registry without any command. -/
def clear : Reference :=
  { r with commands := ∅, names_unique := fun _ _ h => nomatch h }

/-- Change to `next` under the revision that follows `base`, if there is one. -/
def advance (next : Reference) (base : UInt32) : StoreResult × Reference :=
  match nextRevision base with
  | none => (.revisionExhausted, r)
  | some rev => (.ok, { next with revision := rev })

/-- Change to `next`, if it fits. -/
def accept (next : Reference) : StoreResult × Reference :=
  if next.usedBytes > r.limits.bytes then (.budgetExceeded, r) else r.advance next r.revision

/-! ## The operations -/

/-- Learn a command, or relearn the command of that name. -/
noncomputable def put (c : Command) : StoreResult × Reference :=
  if r.restoring then (.restoreInProgress, r)
  else if validateName c.name ≠ .ok then (validateName c.name, r)
  else if c.timings.length = 0 ∨ c.timings.length > r.limits.pulses then (.tooManyPulses, r)
  else
    match h : r.idOf c.name with
    | some id => r.accept (r.store id c.entry (free_of_idOf_some h))
    | none =>
      if r.count ≥ r.limits.commands then (.storeFull, r)
      else if r.nextId > commandIdLast then (.idExhausted, r)
      else
        r.accept { r.store r.nextId c.entry (free_of_idOf_none h _) with nextId := r.nextId + 1 }

/-- Give command `id` another name. -/
noncomputable def rename (id : UInt32) (name : Bytes) : StoreResult × Reference :=
  if r.restoring then (.restoreInProgress, r)
  else if validateName name ≠ .ok then (validateName name, r)
  else
    match r.commands.lookup id with
    | none => (.notFound, r)
    | some e =>
      if e.name = name then (.ok, r)
      else
        match h : r.idOf name with
        | some _ => (.nameTaken, r)
        | none => r.advance (r.store id { e with name := name } (free_of_idOf_none h _)) r.revision

/-- Forget command `id`. -/
def removeById (id : UInt32) : StoreResult × Reference :=
  if r.restoring then (.restoreInProgress, r)
  else if id ∈ r.commands then r.advance (r.drop id) r.revision
  else (.notFound, r)

/-- Forget the command of that name. -/
noncomputable def remove (name : Bytes) : StoreResult × Reference :=
  if r.restoring then (.restoreInProgress, r)
  else
    match r.idOf name with
    | none => (.notFound, r)
    | some id => r.removeById id

/-- Forget every command, and close an open restore. -/
def clearAll : StoreResult × Reference :=
  if r.count = 0 ∧ r.restoring = false then (.ok, r)
  else r.advance { r.clear with restoring := false } r.revision

/-- Become another bridge and adopt its commands one by one. -/
def restoreBegin (bridgeId : BridgeId) (nextId : UInt32) : StoreResult × Reference :=
  if r.count ≠ 0 then (.restoreNotEmpty, r)
  else if nextId < commandIdFirst ∨ nextId > commandIdLast + 1 then (.idConflict, r)
  else
    r.advance { r with bridgeId := bridgeId, nextId := nextId, restoring := true } r.revision

/-- Adopt one command under its own id. -/
noncomputable def importCommand (c : Command) : StoreResult × Reference :=
  if r.restoring = false then (.restoreNotActive, r)
  else if validateName c.name ≠ .ok then (validateName c.name, r)
  else if c.commandId = commandIdNone ∨ c.commandId ≥ r.nextId ∨ c.commandId ∈ r.commands then
    (.idConflict, r)
  else
    match h : r.idOf c.name with
    | some _ => (.nameTaken, r)
    | none =>
      if c.timings.length = 0 ∨ c.timings.length > r.limits.pulses then (.tooManyPulses, r)
      else if r.count ≥ r.limits.commands then (.storeFull, r)
      else r.accept (r.store c.commandId c.entry (free_of_idOf_none h _))

/-- Close the restore, above the revision it was taken at. -/
def restoreCommit (sourceRevision : UInt32) : StoreResult × Reference :=
  if r.restoring = false then (.restoreNotActive, r)
  else
    r.advance { r with restoring := false }
      (if sourceRevision > r.revision then sourceRevision else r.revision)

/-- One operation. -/
noncomputable def step : Op → StoreResult × Reference
  | .put command => r.put command
  | .rename commandId newName => r.rename commandId newName
  | .remove name => r.remove name
  | .removeById commandId => r.removeById commandId
  | .clearAll => r.clearAll
  | .factoryReset random => (.ok, fresh r.limits random)
  | .restoreBegin bridgeId nextCommandId => r.restoreBegin bridgeId nextCommandId
  | .importCommand command => r.importCommand command
  | .restoreCommit sourceRevision => r.restoreCommit sourceRevision

/-- A sequence of operations. -/
noncomputable def run (ops : List Op) : Reference := ops.foldl (fun r op => (r.step op).2) r

/-! ## The operations, case by case -/

section Cases

variable {r} {c : Command} {e : Entry}

theorem put_known (hopen : r.restoring = false) (hname : validateName c.name = .ok)
    (hlen : ¬(c.timings.length = 0 ∨ c.timings.length > r.limits.pulses))
    (h : r.idOf c.name = some id) :
    r.put c = r.accept (r.store id c.entry (free_of_idOf_some h)) := by
  unfold put
  rw [hopen, if_neg Bool.false_ne_true, if_neg (not_not_intro hname), if_neg hlen]
  split
  · rename_i id' h'
    obtain rfl := Option.some.inj (h.symm.trans h')
    rfl
  · rename_i h'
    cases h.symm.trans h'

theorem put_new (hopen : r.restoring = false) (hname : validateName c.name = .ok)
    (hlen : ¬(c.timings.length = 0 ∨ c.timings.length > r.limits.pulses))
    (h : r.idOf c.name = none) :
    r.put c =
      if r.count ≥ r.limits.commands then (.storeFull, r)
      else if r.nextId > commandIdLast then (.idExhausted, r)
      else
        r.accept { r.store r.nextId c.entry (free_of_idOf_none h _) with nextId := r.nextId + 1 } := by
  unfold put
  rw [hopen, if_neg Bool.false_ne_true, if_neg (not_not_intro hname), if_neg hlen]
  split
  · rename_i id' h'
    cases h.symm.trans h'
  · rfl

theorem rename_taken {id' : UInt32} (hopen : r.restoring = false) (hname : validateName name = .ok)
    (he : r.commands.lookup id = some e) (hne : e.name ≠ name) (h : r.idOf name = some id') :
    r.rename id name = (.nameTaken, r) := by
  unfold rename
  rw [hopen, if_neg Bool.false_ne_true, if_neg (not_not_intro hname), he]
  dsimp only
  rw [if_neg hne]
  split
  · rfl
  · rename_i h'
    cases h.symm.trans h'

theorem rename_free (hopen : r.restoring = false) (hname : validateName name = .ok)
    (he : r.commands.lookup id = some e) (hne : e.name ≠ name) (h : r.idOf name = none) :
    r.rename id name
      = r.advance (r.store id { e with name := name } (free_of_idOf_none h _)) r.revision := by
  unfold rename
  rw [hopen, if_neg Bool.false_ne_true, if_neg (not_not_intro hname), he]
  dsimp only
  rw [if_neg hne]
  split
  · rename_i h'
    cases h.symm.trans h'
  · rfl

theorem importCommand_taken {id' : UInt32} (hopen : r.restoring = true)
    (hname : validateName c.name = .ok)
    (hid : ¬(c.commandId = commandIdNone ∨ c.commandId ≥ r.nextId ∨ c.commandId ∈ r.commands))
    (h : r.idOf c.name = some id') : r.importCommand c = (.nameTaken, r) := by
  unfold importCommand
  rw [hopen, if_neg (by decide), if_neg (not_not_intro hname), if_neg hid]
  split
  · rfl
  · rename_i h'
    cases h.symm.trans h'

theorem importCommand_free (hopen : r.restoring = true) (hname : validateName c.name = .ok)
    (hid : ¬(c.commandId = commandIdNone ∨ c.commandId ≥ r.nextId ∨ c.commandId ∈ r.commands))
    (h : r.idOf c.name = none) :
    r.importCommand c =
      if c.timings.length = 0 ∨ c.timings.length > r.limits.pulses then (.tooManyPulses, r)
      else if r.count ≥ r.limits.commands then (.storeFull, r)
      else r.accept (r.store c.commandId c.entry (free_of_idOf_none h _)) := by
  unfold importCommand
  rw [hopen, if_neg (by decide), if_neg (not_not_intro hname), if_neg hid]
  split
  · rename_i h'
    cases h.symm.trans h'
  · rfl

end Cases

/-! ## What the operations leave alone -/

/-- The ids an operation is about: `clear_all` and `factory_reset` are about every command. -/
def Addresses (r : Reference) : Op → UInt32 → Prop
  | .put command, id => id = (r.idOf command.name).getD r.nextId
  | .rename commandId _, id => id = commandId
  | .remove name, id => r.idOf name = some id
  | .removeById commandId, id => id = commandId
  | .clearAll, _ => True
  | .factoryReset _, _ => True
  | .restoreBegin _ _, _ => False
  | .importCommand command, id => id = command.commandId
  | .restoreCommit _, _ => False

section Frame

variable {r} {next : Reference} {base : UInt32}

theorem advance_lookup (h : next.commands.lookup id = r.commands.lookup id) :
    (r.advance next base).2.commands.lookup id = r.commands.lookup id := by
  unfold advance
  split
  · rfl
  · exact h

theorem accept_lookup (h : next.commands.lookup id = r.commands.lookup id) :
    (r.accept next).2.commands.lookup id = r.commands.lookup id := by
  unfold accept
  split
  · rfl
  · exact advance_lookup h

theorem lookup_store_ne {a : UInt32} {e : Entry} (h : NameFree r.commands a e.name) (hne : id ≠ a) :
    (r.store a e h).commands.lookup id = r.commands.lookup id :=
  Finmap.lookup_insert_of_ne _ hne

/-- A refusal leaves the commands alone. -/
theorem refused_lookup {c : Prop} [Decidable c] {result : StoreResult}
    {otherwise : StoreResult × Reference}
    (h : otherwise.2.commands.lookup id = r.commands.lookup id) :
    (if c then (result, r) else otherwise).2.commands.lookup id = r.commands.lookup id := by
  split
  · rfl
  · exact h

theorem put_lookup {c : Command} (hne : id ≠ (r.idOf c.name).getD r.nextId) :
    (r.put c).2.commands.lookup id = r.commands.lookup id := by
  unfold put
  refine refused_lookup (refused_lookup (refused_lookup ?_))
  split
  · -- the name is in use: its command is the one addressed
    rename_i a ha
    rw [ha] at hne
    exact accept_lookup (lookup_store_ne _ hne)
  · rename_i hnone
    rw [hnone] at hne
    refine refused_lookup (refused_lookup ?_)
    exact accept_lookup (lookup_store_ne (free_of_idOf_none hnone _) hne)

theorem rename_lookup {a : UInt32} {name : Bytes} (hne : id ≠ a) :
    (r.rename a name).2.commands.lookup id = r.commands.lookup id := by
  unfold rename
  refine refused_lookup (refused_lookup ?_)
  split
  · rfl
  · refine refused_lookup ?_
    split
    · rfl
    · exact advance_lookup (lookup_store_ne _ hne)

theorem removeById_lookup {a : UInt32} (hne : id ≠ a) :
    (r.removeById a).2.commands.lookup id = r.commands.lookup id := by
  unfold removeById
  refine refused_lookup ?_
  split
  · exact advance_lookup (Finmap.lookup_erase_ne hne)
  · rfl

theorem remove_lookup {name : Bytes} (hne : r.idOf name ≠ some id) :
    (r.remove name).2.commands.lookup id = r.commands.lookup id := by
  unfold remove
  refine refused_lookup ?_
  split
  · rfl
  · rename_i a ha
    rw [ha] at hne
    exact removeById_lookup fun heq => hne (heq ▸ rfl)

theorem restoreBegin_lookup (b : BridgeId) (n : UInt32) :
    (r.restoreBegin b n).2.commands.lookup id = r.commands.lookup id := by
  unfold restoreBegin
  exact refused_lookup (refused_lookup (advance_lookup rfl))

theorem importCommand_lookup {c : Command} (hne : id ≠ c.commandId) :
    (r.importCommand c).2.commands.lookup id = r.commands.lookup id := by
  unfold importCommand
  refine refused_lookup (refused_lookup (refused_lookup ?_))
  split
  · rfl
  · refine refused_lookup (refused_lookup ?_)
    exact accept_lookup (lookup_store_ne _ hne)

theorem restoreCommit_lookup (sourceRevision : UInt32) :
    (r.restoreCommit sourceRevision).2.commands.lookup id = r.commands.lookup id := by
  unfold restoreCommit
  exact refused_lookup (advance_lookup rfl)

/-- **An operation leaves every command alone that it is not about.** -/
theorem step_lookup {op : Op} (h : ¬ r.Addresses op id) :
    (r.step op).2.commands.lookup id = r.commands.lookup id := by
  cases op with
  | put c => exact put_lookup h
  | rename a name => exact rename_lookup h
  | remove name => exact remove_lookup h
  | removeById a => exact removeById_lookup h
  | clearAll => exact absurd trivial h
  | factoryReset random => exact absurd trivial h
  | restoreBegin b n => exact restoreBegin_lookup b n
  | importCommand c => exact importCommand_lookup h
  | restoreCommit src => exact restoreCommit_lookup src

theorem advance_ok (h : (r.advance next base).1 = .ok) :
    (r.advance next base).2.commands = next.commands := by
  unfold advance at h ⊢
  split at h
  · cases h
  · rfl

theorem accept_ok (h : (r.accept next).1 = .ok) : (r.accept next).2.commands = next.commands := by
  unfold accept at h ⊢
  split at h
  · cases h
  · rename_i hfits
    rw [if_neg hfits]
    exact advance_ok h

/-- A relearn that is accepted replaces the command under its id. -/
theorem put_ok_known {c : Command} (h : r.idOf c.name = some id) (hok : (r.put c).1 = .ok) :
    (r.put c).2.commands.lookup id = some c.entry := by
  by_cases hopen : r.restoring = true
  · unfold put at hok
    rw [if_pos hopen] at hok
    cases hok
  by_cases hname : validateName c.name = .ok
  · by_cases hlen : c.timings.length = 0 ∨ c.timings.length > r.limits.pulses
    · unfold put at hok
      rw [if_neg hopen, if_neg (not_not_intro hname), if_pos hlen] at hok
      cases hok
    · have hput := put_known (Bool.eq_false_iff.mpr hopen) hname hlen h
      rw [hput] at hok ⊢
      rw [accept_ok hok]
      exact Finmap.lookup_insert _
  · unfold put at hok
    rw [if_neg hopen, if_pos hname] at hok
    exact absurd hok hname

/-- A rename that is accepted changes the name of a command and nothing else of it. -/
theorem rename_ok {name : Bytes} (hok : (r.rename id name).1 = .ok) :
    ∃ e, r.commands.lookup id = some e ∧
      (r.rename id name).2.commands.lookup id = some { e with name := name } := by
  by_cases hopen : r.restoring = true
  · unfold rename at hok
    rw [if_pos hopen] at hok
    cases hok
  by_cases hname : validateName name = .ok
  · cases he : r.commands.lookup id with
    | none =>
      unfold rename at hok
      rw [if_neg hopen, if_neg (not_not_intro hname), he] at hok
      cases hok
    | some e =>
      refine ⟨e, rfl, ?_⟩
      by_cases hsame : e.name = name
      · unfold rename
        rw [if_neg hopen, if_neg (not_not_intro hname), he]
        dsimp only
        rw [if_pos hsame, he, ← hsame]
      · cases h : r.idOf name with
        | some id' =>
          rw [rename_taken (Bool.eq_false_iff.mpr hopen) hname he hsame h] at hok
          cases hok
        | none =>
          rw [rename_free (Bool.eq_false_iff.mpr hopen) hname he hsame h] at hok ⊢
          rw [advance_ok hok]
          exact Finmap.lookup_insert _
  · unfold rename at hok
    rw [if_neg hopen, if_pos hname] at hok
    exact absurd hok hname

/-- A removal that is accepted drops a command that was there. -/
theorem removeById_ok (hok : (r.removeById id).1 = .ok) :
    id ∈ r.commands ∧ (r.removeById id).2.commands = r.commands.erase id := by
  unfold removeById at hok ⊢
  split at hok
  · cases hok
  rename_i hopen
  rw [if_neg hopen]
  split at hok
  · rename_i hmem
    rw [if_pos hmem]
    exact ⟨hmem, advance_ok hok⟩
  · cases hok

theorem remove_ok {name : Bytes} (hok : (r.remove name).1 = .ok) :
    ∃ id, r.idOf name = some id ∧ (r.remove name).2.commands = r.commands.erase id := by
  unfold remove at hok ⊢
  split at hok
  · cases hok
  rename_i hopen
  rw [if_neg hopen]
  cases h : r.idOf name with
  | none =>
    rw [h] at hok
    cases hok
  | some id =>
    rw [h] at hok
    exact ⟨id, rfl, (removeById_ok hok).2⟩

end Frame

end Reference

end RfCloner
