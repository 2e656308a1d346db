/-
  Pruning the organisation (`options_pruned_to`), and the update listener that prunes.

  A prune forgets the commands that are absent from the listing and clears the assignments to
  targets that do not exist, and `prunedMeta` is that for one command.  What it leaves is not stale
  in its turn, so a prune is a normal form: pruned again, it is left alone.  That is what ends the
  cycle of `async_handle_entry_update`, which is called again for every write that it makes.
-/
import RfCloner.Hass.Mirror

namespace RfCloner

/-! ## What is stale -/

/-- A listing that the command would have been in does not name it. -/
def Absent (commandIds : Option (List Int)) (listedBelow : Option Int) (commandId : Int) : Prop :=
  ∃ ids, commandIds = some ids ∧ commandId ∉ ids ∧ ∀ below ∈ listedBelow, commandId < below

/-- The assignment is to a target that the entry does not have. -/
def Stranded (entry : ConfigEntry) (m : CommandMeta) : Prop :=
  ∃ targetId, m.targetId = some targetId ∧
    ∀ subentry ∈ entry.subentries, ∀ target, RfTarget.fromSubentry subentry = some target →
      target.targetId ≠ targetId

theorem absentFrom_iff {commandIds : Option (List Int)} {listedBelow : Option Int} {commandId : Int} :
    absentFrom commandIds listedBelow commandId = true ↔ Absent commandIds listedBelow commandId := by
  unfold absentFrom Absent
  cases commandIds with
  | none => exact ⟨nofun, nofun⟩
  | some ids =>
    cases listedBelow with
    | none => simp
    | some below => simp

/-- A target is known when a subentry defines it. -/
theorem missing_iff {entry : ConfigEntry} {targetId : Str} :
    Missing entry targetId ↔ ∀ subentry ∈ entry.subentries, ∀ target,
      RfTarget.fromSubentry subentry = some target → target.targetId ≠ targetId := by
  unfold Missing targets
  rw [Dict.get_ofPairs_eq_none_iff]
  simp only [List.mem_map, List.mem_filterMap, Prod.mk.injEq, not_exists, not_and]
  constructor
  · intro h subentry hmem target htarget heq
    exact h target target ⟨subentry, hmem, htarget⟩ heq rfl
  · intro h _ target hmem heq _
    obtain ⟨subentry, hmem, htarget⟩ := hmem
    exact h subentry hmem target htarget heq

theorem danglingTarget_iff {entry : ConfigEntry} {m : CommandMeta} :
    danglingTarget entry m = true ↔ Stranded entry m := by
  unfold danglingTarget Stranded
  cases m.targetId with
  | none => simp
  | some targetId =>
    simp only [Option.isNone_iff_eq_none, Option.some.injEq, exists_eq_left']
    exact missing_iff

instance (commandIds : Option (List Int)) (listedBelow : Option Int) (commandId : Int) :
    Decidable (Absent commandIds listedBelow commandId) :=
  decidable_of_iff _ absentFrom_iff

instance (entry : ConfigEntry) (m : CommandMeta) : Decidable (Stranded entry m) :=
  decidable_of_iff _ danglingTarget_iff

/-! ## Pruning -/

section Prune

variable {entry : ConfigEntry} {commandIds : Option (List Int)} {listedBelow : Option Int}

theorem staleUpdate_eq_none_iff {id : Int} {m : CommandMeta} :
    staleUpdate entry commandIds listedBelow id m = none ↔
      ¬ Absent commandIds listedBelow id ∧ ¬ Stranded entry m := by
  rw [← absentFrom_iff, ← danglingTarget_iff]
  unfold staleUpdate
  split
  · rename_i habsent
    simp [habsent]
  · rename_i habsent
    split
    · rename_i hdangling
      simp [hdangling]
    · rename_i hdangling
      simp [habsent, hdangling]

/-- **A prune has nothing to do exactly when nothing is stale.** -/
theorem optionsPrunedTo_eq_none_iff :
    optionsPrunedTo entry commandIds listedBelow = none ↔
      ∀ id m, metaFor entry id = some m → ¬ Absent commandIds listedBelow id ∧ ¬ Stranded entry m := by
  have hempty : optionsPrunedTo entry commandIds listedBelow = none ↔
      Dict.select (staleUpdate entry commandIds listedBelow) (commandMeta entry) = [] := by
    unfold optionsPrunedTo
    simp only [List.isEmpty_iff, ite_eq_left_iff, reduceCtorEq, imp_false, not_not]
  rw [hempty, List.eq_nil_iff_forall_not_mem]
  constructor
  · intro h id m hm
    rw [← staleUpdate_eq_none_iff, Option.eq_none_iff_forall_ne_some]
    intro update hupdate
    exact h (id, update) (Dict.mem_select.mpr ⟨m, CommandReconciler.metaFor_eq_some_iff.mp hm, hupdate⟩)
  · rintro h ⟨id, update⟩ hmem
    obtain ⟨m, hm, hupdate⟩ := Dict.mem_select.mp hmem
    have hfresh := h id m (CommandReconciler.metaFor_eq_some_iff.mpr hm)
    rw [← staleUpdate_eq_none_iff] at hfresh
    rw [hfresh] at hupdate
    cases hupdate

/-- What a prune leaves of one command's metadata: nothing of an absent command, the icon of one
    whose target is unknown, and everything else. -/
def prunedMeta (entry : ConfigEntry) (commandIds : Option (List Int))
    (listedBelow : Option Int) (id : Int) (m : CommandMeta) : Option CommandMeta :=
  if Absent commandIds listedBelow id then none
  else if Stranded entry m then m.icon.map fun icon => { targetId := none, icon := some icon }
  else some m

theorem entry_prunedTo {options : JsonDict}
    (h : optionsPrunedTo entry commandIds listedBelow = some options) :
    entry.prunedTo commandIds listedBelow = { entry with options := options } := by
  unfold ConfigEntry.prunedTo
  rw [h]

theorem metaFor_pruned {options : JsonDict}
    (h : optionsPrunedTo entry commandIds listedBelow = some options) (id : Int) :
    metaFor { entry with options := options } id
      = (metaFor entry id).bind (prunedMeta entry commandIds listedBelow id) := by
  rw [← entry_prunedTo h, metaFor_prunedTo]
  cases metaFor entry id with
  | none => rfl
  | some m =>
    show _ = prunedMeta entry commandIds listedBelow id m
    unfold prunedMeta
    by_cases habsent : Absent commandIds listedBelow id
    · simp only [absentFrom_iff, habsent, if_true]
    · simp only [absentFrom_iff, habsent, if_false, danglingTarget_iff]
      by_cases hstranded : Stranded entry m
      · simp only [hstranded, if_true]
        cases m.icon <;> rfl
      · simp only [hstranded, if_false]

/-- **A prune touches nothing but the metadata of the commands.** -/
theorem get_pruned {options : JsonDict}
    (h : optionsPrunedTo entry commandIds listedBelow = some options) {key : Str}
    (hkey : key ≠ optCommands) : Dict.get options key = Dict.get entry.options key := by
  unfold optionsPrunedTo at h
  dsimp only at h
  split at h
  · cases h
  · obtain rfl := Option.some.inj h
    unfold optionsWith
    rw [Dict.get_set, if_neg hkey]

theorem stranded_congr {entry' : ConfigEntry} (h : entry'.subentries = entry.subentries)
    (m : CommandMeta) : Stranded entry' m ↔ Stranded entry m := by
  unfold Stranded
  rw [h]

/-- **What has been pruned is left alone.** -/
theorem optionsPrunedTo_pruned {options : JsonDict}
    (h : optionsPrunedTo entry commandIds listedBelow = some options) :
    optionsPrunedTo { entry with options := options } commandIds listedBelow = none := by
  refine optionsPrunedTo_eq_none_iff.mpr fun id m hm => ?_
  rw [metaFor_pruned h, Option.bind_eq_some_iff] at hm
  obtain ⟨old, -, hold⟩ := hm
  unfold prunedMeta at hold
  split at hold
  · cases hold
  · rename_i habsent
    refine ⟨habsent, (stranded_congr (by rfl) m).not.mpr ?_⟩
    split at hold
    · obtain ⟨icon, -, rfl⟩ := Option.map_eq_some_iff.mp hold
      rintro ⟨targetId, htarget, -⟩
      cases htarget
    · rename_i hknown
      obtain rfl := Option.some.inj hold
      exact hknown

end Prune

/-! ## The update listener -/

namespace CommandReconciler

variable {ρ : Type} {r : CommandReconciler ρ} {data : Option BridgeStatus} {accepts : Bool}

/-- The options that `async_handle_entry_update` writes, when it does. -/
def entryUpdateWrite (r : CommandReconciler ρ) (data : Option BridgeStatus) (accepts : Bool) :
    Option JsonDict :=
  if accepts then
    optionsPrunedTo r.entry (r.asyncListedCommands data) (data.map BridgeStatus.nextCommandId)
  else none

/-- The calls of the update listener that one update of the entry leads to, with what they write:
    a write is an update of the entry, and calls it again. -/
inductive UpdateCycle (data : Option BridgeStatus) (accepts : Bool) :
    CommandReconciler ρ → List JsonDict → CommandReconciler ρ → Prop where
  | stops {r : CommandReconciler ρ} : r.entryUpdateWrite data accepts = none →
      UpdateCycle data accepts r [] (r.asyncHandleEntryUpdate data accepts)
  | again {r last : CommandReconciler ρ} {options : JsonDict} {writes : List JsonDict} :
      r.entryUpdateWrite data accepts = some options →
      UpdateCycle data accepts (r.asyncHandleEntryUpdate data accepts) writes last →
      UpdateCycle data accepts r (options :: writes) last

/-- The entry carries what the listener writes, and is otherwise kept. -/
theorem entry_asyncHandleEntryUpdate :
    (r.asyncHandleEntryUpdate data accepts).entry
      = match r.entryUpdateWrite data accepts with
        | none => r.entry
        | some options => { r.entry with options := options } := by
  unfold asyncHandleEntryUpdate entryUpdateWrite
  cases accepts with
  | false => rfl
  | true =>
    show r.entry.prunedTo (r.asyncListedCommands data) (data.map BridgeStatus.nextCommandId) = _
    unfold ConfigEntry.prunedTo
    rfl

theorem entryUpdateWrite_asyncHandleEntryUpdate :
    (r.asyncHandleEntryUpdate data accepts).entryUpdateWrite data accepts = none := by
  have hentry : (r.asyncHandleEntryUpdate data accepts).entry
      = match r.entryUpdateWrite data accepts with
        | none => r.entry
        | some options => { r.entry with options := options } := entry_asyncHandleEntryUpdate
  have hmismatch : (r.asyncHandleEntryUpdate data accepts).identityMismatch = r.identityMismatch := by
    unfold asyncHandleEntryUpdate
    split <;> rfl
  have hlisted : (r.asyncHandleEntryUpdate data accepts).asyncListedCommands data
      = r.asyncListedCommands data := by
    unfold asyncListedCommands
    rw [hmismatch]
  cases accepts with
  | false => rfl
  | true =>
    show optionsPrunedTo _ _ _ = none
    rw [hlisted, hentry]
    unfold entryUpdateWrite
    simp only [if_true]
    split
    · rename_i hwrite
      exact hwrite
    · rename_i options hwrite
      exact optionsPrunedTo_pruned hwrite

/-- **The listener writes once, if at all**, and the cycle ends. -/
theorem updateCycle_iff {writes : List JsonDict} {last : CommandReconciler ρ} :
    UpdateCycle data accepts r writes last ↔
      writes = (r.entryUpdateWrite data accepts).toList ∧
        last = match r.entryUpdateWrite data accepts with
          | some _ => (r.asyncHandleEntryUpdate data accepts).asyncHandleEntryUpdate data accepts
          | none => r.asyncHandleEntryUpdate data accepts := by
  constructor
  · intro h
    cases h with
    | stops hwrite =>
      rw [hwrite]
      exact ⟨rfl, rfl⟩
    | again hwrite hrest =>
      rw [hwrite]
      cases hrest with
      | stops => exact ⟨rfl, rfl⟩
      | again hagain =>
        rw [entryUpdateWrite_asyncHandleEntryUpdate] at hagain
        cases hagain
  · rintro ⟨rfl, rfl⟩
    cases hwrite : r.entryUpdateWrite data accepts with
    | none => exact .stops hwrite
    | some options => exact .again hwrite (.stops entryUpdateWrite_asyncHandleEntryUpdate)

end CommandReconciler

/-- **Pruning is exact, and done in one write.**  For any entry, whatever is in its options,
    `options_pruned_to` writes nothing exactly when no metadata is stale.  What it writes reads back
    as the old metadata without what was stale, with the other options as they were, and has nothing
    more to prune; so the update listener, called again for its own write, stops there. -/
theorem pruning_is_exact {ρ : Type} (entry : ConfigEntry) (commandIds : Option (List Int))
    (listedBelow : Option Int) (r : CommandReconciler ρ) (data : Option BridgeStatus)
    (accepts : Bool) :
    (optionsPrunedTo entry commandIds listedBelow = none ↔
      ∀ id m, metaFor entry id = some m →
        ¬ Absent commandIds listedBelow id ∧ ¬ Stranded entry m) ∧
    (∀ options, optionsPrunedTo entry commandIds listedBelow = some options →
      (∀ id, metaFor { entry with options := options } id
        = (metaFor entry id).bind (prunedMeta entry commandIds listedBelow id)) ∧
      (∀ key, key ≠ optCommands → Dict.get options key = Dict.get entry.options key) ∧
      optionsPrunedTo { entry with options := options } commandIds listedBelow = none) ∧
    (∃ writes last, CommandReconciler.UpdateCycle data accepts r writes last) ∧
    ∀ writes last, CommandReconciler.UpdateCycle data accepts r writes last →
      writes = (r.entryUpdateWrite data accepts).toList := by
  refine ⟨optionsPrunedTo_eq_none_iff, fun options h => ?_, ?_, fun writes last h => ?_⟩
  · exact ⟨metaFor_pruned h, fun key hkey => get_pruned h hkey, optionsPrunedTo_pruned h⟩
  · exact ⟨_, _, CommandReconciler.updateCycle_iff.mpr ⟨rfl, rfl⟩⟩
  · exact (CommandReconciler.updateCycle_iff.mp h).1

end RfCloner
