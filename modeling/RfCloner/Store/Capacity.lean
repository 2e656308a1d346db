/-
  When the storage budget can refuse a command.

  A registry has room for `commands` commands of `pulses` pulses each, and for `bytes` bytes in all.
  The bytes are what gives out only where they do not hold the worst case of the other two.  The
  build says so before (`_validate_budget`), and so does `dump_config`; `refusable_iff` is what they
  rely on.  A registry whose limits hold the worst case never refuses a command for its bytes,
  whatever has become of it before, and every other one does so in the run that fills it.
-/
import RfCloner.Store.Refine
import RfCloner.Store.Authored
import RfCloner.Store.ReadOnly
import Mathlib.Algebra.Order.BigOperators.Group.Multiset

namespace RfCloner

open FixedCodec StorageBackend

/-- `CommandStore::worst_case_bytes`. -/
def Config.worstCaseBytes (cfg : Config) : UInt32 :=
  indexOverheadBytes cfg.maxCommands
    + cfg.maxCommands.toUInt32 * cfg.maxPulses.toUInt32 * 4

/-- What all commands take that the limits allow, if each is as long as they allow. -/
def Limits.worstCase (limits : Limits) : Nat :=
  limits.overhead + limits.commands * (limits.pulses * 4)

/-- The 32 bits hold the worst case of every configuration. -/
theorem Config.toNat_worstCaseBytes (cfg : Config) :
    cfg.worstCaseBytes.toNat = cfg.limits.worstCase := by
  have hcommands := cfg.maxCommands.toNat_lt
  have hpulses := cfg.maxPulses.toNat_lt
  have hoverhead := CommandStore.overhead_lt cfg
  have hproduct : cfg.maxCommands.toNat * cfg.maxPulses.toNat ≤ 255 * 65535 :=
    Nat.mul_le_mul (by omega) (by omega)
  show (indexOverheadBytes cfg.maxCommands + _ * _ * 4).toNat
    = CommandStore.overhead cfg + cfg.maxCommands.toNat * (cfg.maxPulses.toNat * 4)
  rw [UInt32.toNat_add, UInt32.toNat_mul, UInt32.toNat_mul, CommandStore.toNat_indexOverheadBytes,
    UInt8.toNat_toUInt32, UInt16.toNat_toUInt32, ← Nat.mul_assoc]
  show (CommandStore.overhead cfg + _ % 2 ^ 32 * 4 % 2 ^ 32) % 2 ^ 32 = _
  omega

namespace Reference

variable {r next : Reference} {id : UInt32} {e : Entry} {c : Command}

/-! ## What fits -/

/-- A registry that holds no more commands than it may, and none that is too long. -/
structure Within (r : Reference) : Prop where
  count : r.count ≤ r.limits.commands
  pulses : ∀ id e, r.commands.lookup id = some e → e.timings.length ≤ r.limits.pulses

theorem mem_entries {p : Sigma fun _ : UInt32 => Entry} :
    p ∈ r.commands.entries ↔ r.commands.lookup p.1 = some p.2 := by
  rw [Finmap.lookup_eq_some_iff]

/-- **A registry within its limits takes no more than their worst case.** -/
theorem Within.usedBytes_le (h : r.Within) : r.usedBytes ≤ r.limits.worstCase := by
  have hsum : (r.commands.entries.map fun e => e.2.timings.length * 4).sum
      ≤ (r.commands.entries.map fun e => e.2.timings.length * 4).card • (r.limits.pulses * 4) := by
    refine Multiset.sum_le_card_nsmul _ _ fun n hn => ?_
    obtain ⟨p, hp, rfl⟩ := Multiset.mem_map.mp hn
    have := h.pulses p.1 p.2 (mem_entries.mp hp)
    omega
  rw [Multiset.card_map, nsmul_eq_mul, Nat.cast_id] at hsum
  have hcount : r.count * (r.limits.pulses * 4) ≤ r.limits.commands * (r.limits.pulses * 4) :=
    Nat.mul_le_mul_right _ h.count
  show r.limits.overhead + _ ≤ r.limits.overhead + _
  exact Nat.add_le_add_left (hsum.trans hcount) _

/-- The commands are counted by their ids. -/
theorem count_eq_card_keys (r : Reference) : r.count = r.commands.keys.card := by
  show _ = Multiset.card (r.commands.entries.map Sigma.fst)
  rw [Multiset.card_map]
  rfl

theorem count_store_of_mem {h : NameFree r.commands id e.name} (hmem : id ∈ r.commands) :
    (r.store id e h).count = r.count := by
  have hkeys : (r.commands.insert id e).keys = r.commands.keys := by
    ext x
    simp only [Finmap.mem_keys, Finmap.mem_insert]
    exact ⟨fun hx => hx.elim (fun heq => heq ▸ hmem) (fun hx => hx), Or.inr⟩
  rw [count_eq_card_keys, count_eq_card_keys]
  exact congrArg Finset.card hkeys

theorem count_store_of_notMem {h : NameFree r.commands id e.name} (hmem : id ∉ r.commands) :
    (r.store id e h).count = r.count + 1 := by
  show Multiset.card (r.commands.insert id e).entries = _
  rw [Finmap.entries_insert_of_notMem hmem, Multiset.card_cons]
  rfl

theorem usedBytes_store_of_notMem {h : NameFree r.commands id e.name} (hmem : id ∉ r.commands) :
    (r.store id e h).usedBytes = r.usedBytes + e.timings.length * 4 := by
  have hentries : (r.store id e h).commands.entries = ⟨id, e⟩ ::ₘ r.commands.entries :=
    Finmap.entries_insert_of_notMem hmem
  have hlimits : (r.store id e h).limits = r.limits := rfl
  rw [usedBytes, usedBytes, hentries, hlimits, Multiset.map_cons, Multiset.sum_cons,
    Nat.add_comm (e.timings.length * 4), Nat.add_assoc]

/-- One more command, or another waveform for one of them. -/
theorem Within.store (h : r.Within) {hfree : NameFree r.commands id e.name}
    (hlen : e.timings.length ≤ r.limits.pulses)
    (hroom : id ∈ r.commands ∨ r.count < r.limits.commands) : (r.store id e hfree).Within := by
  refine ⟨?_, fun id' e' hlookup => ?_⟩
  · show (r.store id e hfree).count ≤ r.limits.commands
    have hcount := h.count
    by_cases hmem : id ∈ r.commands
    · rw [count_store_of_mem hmem]
      exact hcount
    · rw [count_store_of_notMem hmem]
      have := hroom.resolve_left hmem
      omega
  · have hlookup : (r.commands.insert id e).lookup id' = some e' := hlookup
    by_cases hid : id' = id
    · subst hid
      rw [Finmap.lookup_insert] at hlookup
      obtain rfl := Option.some.inj hlookup
      exact hlen
    · rw [Finmap.lookup_insert_of_ne _ hid] at hlookup
      exact h.pulses id' e' hlookup

/-! ## What the budget refuses -/

theorem accept_over (h : (r.accept next).1 = .budgetExceeded) : r.limits.bytes < next.usedBytes := by
  unfold accept at h
  split at h
  · assumption
  · unfold advance at h
    split at h <;> cases h

theorem advance_ne_over (base : UInt32) : (r.advance next base).1 ≠ .budgetExceeded := by
  unfold advance
  split <;> simp

theorem validateName_ne_over (name : Bytes) : validateName name ≠ .budgetExceeded := by
  unfold validateName
  split_ifs <;> simp

/-- A guard that refuses for another reason. -/
theorem guard_over {p : Prop} [Decidable p] {result : StoreResult} {otherwise : StoreResult × Reference}
    (hresult : result ≠ .budgetExceeded)
    (h : (if p then (result, r) else otherwise).1 = .budgetExceeded) :
    ¬ p ∧ otherwise.1 = .budgetExceeded := by
  split at h
  · exact absurd h hresult
  · exact ⟨‹_›, h⟩

theorem rename_ne_over (name : Bytes) : (r.rename id name).1 ≠ .budgetExceeded := by
  intro h
  unfold rename at h
  obtain ⟨-, h⟩ := guard_over (by simp) h
  obtain ⟨-, h⟩ := guard_over (validateName_ne_over name) h
  split at h
  · cases h
  obtain ⟨-, h⟩ := guard_over (by simp) h
  split at h
  · cases h
  · exact advance_ne_over _ h

theorem removeById_ne_over : (r.removeById id).1 ≠ .budgetExceeded := by
  intro h
  unfold removeById at h
  obtain ⟨-, h⟩ := guard_over (by simp) h
  split at h
  · exact advance_ne_over _ h
  · cases h

theorem remove_ne_over (name : Bytes) : (r.remove name).1 ≠ .budgetExceeded := by
  intro h
  unfold remove at h
  obtain ⟨-, h⟩ := guard_over (by simp) h
  split at h
  · cases h
  · exact removeById_ne_over h

/-- A command that is too much for the budget: it is no longer than it may be, and replaces a
    command or makes one more than there are. -/
def Overfills (r : Reference) (c : Command) : Prop :=
  ∃ id, ∃ hfree : NameFree r.commands id c.entry.name,
    c.timings.length ≤ r.limits.pulses ∧ (id ∈ r.commands ∨ r.count < r.limits.commands) ∧
    r.limits.bytes < (r.store id c.entry hfree).usedBytes

theorem put_over (hover : (r.put c).1 = .budgetExceeded) : r.Overfills c := by
  by_cases hopen : r.restoring = true
  · rw [put, if_pos hopen] at hover
    cases hover
  by_cases hname : validateName c.name = .ok
  · by_cases hlen : c.timings.length = 0 ∨ c.timings.length > r.limits.pulses
    · rw [put, if_neg hopen, if_neg (not_not_intro hname), if_pos hlen] at hover
      cases hover
    have hpulses : c.timings.length ≤ r.limits.pulses := by omega
    cases hid : r.idOf c.name with
    | some id =>
      rw [put_known (Bool.eq_false_iff.mpr hopen) hname hlen hid] at hover
      obtain ⟨e, hlookup, -⟩ := idOf_eq_some.mp hid
      exact ⟨id, free_of_idOf_some hid, hpulses, .inl (Finmap.mem_of_lookup_eq_some hlookup),
        accept_over hover⟩
    | none =>
      rw [put_new (Bool.eq_false_iff.mpr hopen) hname hlen hid] at hover
      obtain ⟨hcount, hover⟩ := guard_over (by simp) hover
      obtain ⟨-, hover⟩ := guard_over (by simp) hover
      have hlt := accept_over hover
      exact ⟨r.nextId, free_of_idOf_none hid _, hpulses, .inr (Nat.lt_of_not_le hcount), hlt⟩
  · rw [put, if_neg hopen, if_pos hname] at hover
    exact absurd hover (validateName_ne_over _)

theorem importCommand_over (hover : (r.importCommand c).1 = .budgetExceeded) : r.Overfills c := by
  by_cases hopen : r.restoring = true
  · by_cases hname : validateName c.name = .ok
    · by_cases hid : c.commandId = commandIdNone ∨ c.commandId ≥ r.nextId ∨ c.commandId ∈ r.commands
      · rw [importCommand, hopen, if_neg (by simp), if_neg (not_not_intro hname), if_pos hid] at hover
        cases hover
      cases hfree : r.idOf c.name with
      | some id =>
        rw [importCommand_taken hopen hname hid hfree] at hover
        cases hover
      | none =>
        rw [importCommand_free hopen hname hid hfree] at hover
        obtain ⟨hlen, hover⟩ := guard_over (by simp) hover
        obtain ⟨hcount, hover⟩ := guard_over (by simp) hover
        exact ⟨c.commandId, free_of_idOf_none hfree _, by omega, .inr (Nat.lt_of_not_le hcount),
          accept_over hover⟩
    · rw [importCommand, hopen, if_neg (by simp), if_pos hname] at hover
      exact absurd hover (validateName_ne_over _)
  · rw [importCommand, if_pos (Bool.eq_false_iff.mpr hopen)] at hover
    cases hover

/-- Only the two operations that store a waveform look at the budget. -/
theorem step_over {op : Op} (hover : (r.step op).1 = .budgetExceeded) : ∃ c, r.Overfills c := by
  cases op with
  | put c => exact ⟨c, put_over hover⟩
  | rename id name => exact absurd hover (rename_ne_over name)
  | remove name => exact absurd hover (remove_ne_over name)
  | removeById id => exact absurd hover removeById_ne_over
  | clearAll =>
    obtain ⟨-, h⟩ := guard_over (by simp) hover
    exact absurd h (advance_ne_over _)
  | factoryReset random => cases hover
  | restoreBegin b n =>
    obtain ⟨-, h⟩ := guard_over (by simp) hover
    obtain ⟨-, h⟩ := guard_over (by simp) h
    exact absurd h (advance_ne_over _)
  | importCommand c => exact ⟨c, importCommand_over hover⟩
  | restoreCommit source =>
    obtain ⟨-, h⟩ := guard_over (by simp) hover
    exact absurd h (advance_ne_over _)

/-- **What is refused for its bytes was within the other limits.** -/
theorem Within.over (h : r.Within) {op : Op} (hover : (r.step op).1 = .budgetExceeded) :
    r.limits.bytes < r.limits.worstCase := by
  obtain ⟨c, id, hfree, hlen, hroom, hlt⟩ := step_over hover
  exact hlt.trans_le (h.store hlen hroom).usedBytes_le

/-! ## The run that fills a registry -/

/-- 256 names: two letters from `a` to `p`. -/
def fillerName (k : Nat) : Bytes := [UInt8.ofNat (97 + k / 16), UInt8.ofNat (97 + k % 16)]

/-- The command number `k`, of `pulses` pulses. -/
def filler (pulses k : Nat) : Command where
  name := fillerName k
  timings := List.replicate pulses 1

/-- The first `n` of them are learned. -/
def fill (pulses n : Nat) : List Op := (List.range n).map fun k => .put (filler pulses k)

theorem validateName_filler {k : Nat} (h : k < 256) : validateName (fillerName k) = .ok := by
  have hall : ∀ i : Fin 256, validateName (fillerName i.1) = .ok := by
    decide +kernel
  exact hall ⟨k, h⟩

theorem fillerName_inj {j k : Nat} (hj : j < 256) (hk : k < 256) (h : fillerName j = fillerName k) :
    j = k := by
  simp only [fillerName, List.cons.injEq, and_true] at h
  have hhi := congrArg UInt8.toNat h.1
  have hlo := congrArg UInt8.toNat h.2
  rw [UInt8.toNat_ofNat', UInt8.toNat_ofNat'] at hhi hlo
  omega

/-- The registry that has learned the first `n` commands, each of `pulses` pulses. -/
structure Filled (limits : Limits) (n : Nat) (r : Reference) : Prop where
  limited : r.limits = limits
  idle : r.restoring = false
  count : r.count = n
  used : r.usedBytes = limits.overhead + n * (limits.pulses * 4)
  nextId : r.nextId.toNat = n + 1
  revision : r.revision.toNat = n + 1
  ids : ∀ id e, r.commands.lookup id = some e → id < r.nextId
  names : ∀ id e, r.commands.lookup id = some e → ∃ k < n, e.name = fillerName k
  pulses : ∀ id e, r.commands.lookup id = some e → e.timings.length = limits.pulses

section Filled

variable {limits : Limits} {n : Nat}

theorem Filled.fresh (limits : Limits) (random : Option BridgeId) :
    Filled limits 0 (fresh limits random) where
  limited := rfl
  idle := rfl
  count := rfl
  used := by
    show limits.overhead + 0 = _
    omega
  nextId := rfl
  revision := rfl
  ids := by
    intro id e h
    cases h
  names := by
    intro id e h
    cases h
  pulses := by
    intro id e h
    cases h

/-- The next command is new. -/
theorem Filled.idOf_next (h : Filled limits n r) (hn : n < 256) : r.idOf (fillerName n) = none := by
  refine idOf_eq_none.mpr fun id e hlookup hname => ?_
  obtain ⟨k, hk, hname'⟩ := h.names id e hlookup
  have := fillerName_inj (by omega) hn (hname'.symm.trans hname)
  omega

theorem Filled.nextId_notMem (h : Filled limits n r) : r.nextId ∉ r.commands := by
  intro hmem
  obtain ⟨e, hlookup⟩ := Finmap.mem_iff.mp hmem
  exact UInt32.lt_irrefl _ (h.ids _ e hlookup)

/-- The registry that has learned the next command. -/
theorem Filled.store (h : Filled limits n r) (hn : n < 255)
    (hfree : NameFree r.commands r.nextId (fillerName n)) :
    Filled limits (n + 1)
      { r.store r.nextId (filler limits.pulses n).entry hfree with
        nextId := r.nextId + 1, revision := r.revision + 1 } := by
  have hnotMem := h.nextId_notMem
  have hlen : (filler limits.pulses n).entry.timings.length = limits.pulses := List.length_replicate
  have hnext : (r.nextId + 1).toNat = n + 1 + 1 := by
    rw [UInt32.toNat_add, h.nextId]
    show (n + 1 + 1) % 2 ^ 32 = _
    omega
  have hlt : r.nextId < r.nextId + 1 := by
    rw [UInt32.lt_iff_toNat_lt, hnext, h.nextId]
    omega
  refine ⟨h.limited, h.idle, ?_, ?_, hnext, ?_, ?_, ?_, ?_⟩
  · exact (count_store_of_notMem (h := hfree) hnotMem).trans (by rw [h.count])
  · refine (usedBytes_store_of_notMem (h := hfree) hnotMem).trans ?_
    rw [hlen, h.used, Nat.add_mul, Nat.one_mul, Nat.add_assoc]
  · show (r.revision + 1).toNat = _
    rw [UInt32.toNat_add, h.revision]
    show (n + 1 + 1) % 2 ^ 32 = _
    omega
  all_goals
    intro id e hlookup
    have hlookup : (r.commands.insert r.nextId _).lookup id = some e := hlookup
    by_cases hid : id = r.nextId
  · exact hid ▸ hlt
  · rw [Finmap.lookup_insert_of_ne _ hid] at hlookup
    exact UInt32.lt_trans (h.ids id e hlookup) hlt
  · subst hid
    rw [Finmap.lookup_insert] at hlookup
    obtain rfl := Option.some.inj hlookup
    exact ⟨n, by omega, rfl⟩
  · rw [Finmap.lookup_insert_of_ne _ hid] at hlookup
    obtain ⟨k, hk, hname⟩ := h.names id e hlookup
    exact ⟨k, by omega, hname⟩
  · subst hid
    rw [Finmap.lookup_insert] at hlookup
    obtain rfl := Option.some.inj hlookup
    exact hlen
  · rw [Finmap.lookup_insert_of_ne _ hid] at hlookup
    exact h.pulses id e hlookup

/-- The next command is learned, unless it is too much for the budget. -/
theorem Filled.put (h : Filled limits n r) (hroom : n < limits.commands) (hn : n < 255)
    (hpulses : 0 < limits.pulses) :
    if limits.overhead + (n + 1) * (limits.pulses * 4) ≤ limits.bytes then
      Filled limits (n + 1) (r.put (filler limits.pulses n)).2
    else (r.put (filler limits.pulses n)).1 = .budgetExceeded := by
  have hlen : (filler limits.pulses n).timings.length = limits.pulses := List.length_replicate
  have hid : r.idOf (filler limits.pulses n).name = none := h.idOf_next (show n < 256 by omega)
  have hfree := free_of_idOf_none hid r.nextId
  have hlast : ¬ r.nextId > commandIdLast := by
    rw [gt_iff_lt, UInt32.lt_iff_toNat_lt, h.nextId]
    show ¬ 4294967294 < n + 1
    omega
  have hrev : ¬ r.revision ≥ revisionMax := by
    rw [ge_iff_le, UInt32.le_iff_toNat_le, h.revision]
    show ¬ 2147483646 ≤ n + 1
    omega
  have hput : r.put (filler limits.pulses n) = r.accept
      { r.store r.nextId (filler limits.pulses n).entry hfree with nextId := r.nextId + 1 } := by
    rw [put_new h.idle (validateName_filler (by omega)) (by rw [hlen, h.limited]; omega) hid,
      if_neg (by rw [h.count, h.limited]; omega), if_neg hlast]
  have hused : Reference.usedBytes
      { r.store r.nextId (filler limits.pulses n).entry hfree with nextId := r.nextId + 1 }
      = limits.overhead + (n + 1) * (limits.pulses * 4) := (h.store hn hfree).used
  rw [hput]
  by_cases hfits : limits.overhead + (n + 1) * (limits.pulses * 4) ≤ limits.bytes
  · rw [if_pos hfits, accept, if_neg (by rw [hused, h.limited]; omega), advance, nextRevision,
      if_neg hrev]
    exact h.store hn hfree
  · rw [if_neg hfits, accept, if_pos (by rw [hused, h.limited]; omega)]

/-- As many commands are learned as the budget holds. -/
theorem Filled.fill (limits : Limits) (random : Option BridgeId) (hpulses : 0 < limits.pulses)
    (hroom : n ≤ limits.commands) (hn : n ≤ 255)
    (hfits : limits.overhead + n * (limits.pulses * 4) ≤ limits.bytes) :
    Filled limits n ((Reference.fresh limits random).run (fill limits.pulses n)) := by
  induction n with
  | zero => exact Filled.fresh limits random
  | succ n ih =>
    have hless : limits.overhead + n * (limits.pulses * 4) ≤ limits.bytes := by
      rw [Nat.add_mul] at hfits
      omega
    have hput := (ih (by omega) (by omega) hless).put (by omega) (by omega) hpulses
    rw [if_pos hfits] at hput
    rw [Reference.fill, List.range_succ, List.map_append, Reference.run, List.foldl_append]
    exact hput

/-- **A registry whose bytes do not hold the worst case refuses a command in the run that fills it.** -/
theorem exists_over (limits : Limits) (random : Option BridgeId) (hpulses : 0 < limits.pulses)
    (hcommands : limits.commands ≤ 255) (hover : limits.overhead ≤ limits.bytes)
    (hworst : limits.bytes < limits.worstCase) :
    ∃ n, (((Reference.fresh limits random).run (fill limits.pulses n)).step
      (.put (filler limits.pulses n))).1 = .budgetExceeded := by
  -- the first number of commands that is too much
  have hex : ∃ n, limits.bytes < limits.overhead + n * (limits.pulses * 4) :=
    ⟨limits.commands, hworst⟩
  have hfirst := Nat.find_spec hex
  have hle : Nat.find hex ≤ limits.commands := Nat.find_min' hex hworst
  cases hn : Nat.find hex with
  | zero =>
    rw [hn] at hfirst
    omega
  | succ n =>
    have hfits : limits.overhead + n * (limits.pulses * 4) ≤ limits.bytes :=
      Nat.le_of_not_lt (Nat.find_min hex (show n < Nat.find hex by omega))
    have hput := (Filled.fill limits random hpulses (by omega) (by omega) hfits).put (by omega)
      (by omega) hpulses
    rw [hn] at hfirst
    rw [if_neg (by omega)] at hput
    exact ⟨n, hput⟩

end Filled

end Reference

/-! ## Devices -/

namespace CommandStore

/-- A sound store is within its limits. -/
theorem Sound.within {s : CommandStore} (hs : s.Sound) : (s.abs hs).Within where
  count := by
    rw [count_abs]
    show s.count ≤ s.config.maxCommands.toNat
    rw [← hs.sized]
    exact List.countP_le_length
  pulses := by
    intro id e hlookup
    obtain ⟨i, hocc, -, rfl⟩ := (lookup_registered_eq_some hs).mp hlookup
    exact hs.timings_le _ (slot_mem_commands hocc)

end CommandStore

namespace Session

open CommandStore

variable {lands : Nat → Bool} {s : CommandStore} {io : Fake UInt32} {op : Op}

theorem plan_of_over (h : (op.run (faulty lands) s io).1 = .budgetExceeded) :
    op.plan s = .stop .budgetExceeded := by
  cases hplan : op.plan s with
  | stop result =>
    rw [Op.run_of_stop hplan] at h
    exact congrArg Plan.stop h
  | write payload next undone =>
    rw [run_of_write (faulty lands) hplan] at h
    split at h <;> cases h

/-- A read-only store refuses for another reason. -/
theorem writable_of_over (hb : s.backend = true)
    (h : (op.run (faulty lands) s io).1 = .budgetExceeded) : s.readOnly = false := by
  have hplan := plan_of_over h
  by_contra hro
  by_cases hreset : ∃ random, op = .factoryReset random
  · obtain ⟨random, rfl⟩ := hreset
    rw [Op.plan, factoryResetPlan, hb] at hplan
    cases hplan
  · have hstop := plan_of_readOnly hb (Bool.eq_true_of_not_eq_false hro)
      fun random heq => hreset ⟨random, heq⟩
    cases hstop.symm.trans hplan

/-- What a device refuses for its bytes, the registry it stands for refuses. -/
theorem op_over (hs : s.Sound) (hb : s.backend = true) (hro : s.readOnly = false)
    (h : (op.run (faulty lands) s io).1 = .budgetExceeded) :
    ((s.abs hs).step op).1 = .budgetExceeded := by
  have hmatch := plan_matches hs hb hro op
  rw [plan_of_over h] at hmatch
  exact congrArg Prod.fst hmatch

/-- **When the budget can refuse.**  A device with some configuration, on which anything may have
    happened before (operations and reboots under other configurations, failing saves), can refuse an
    operation for its bytes exactly if `worst_case_bytes` is above `max_storage_bytes`. -/
theorem refusable_iff {cfg : Config} (hpulses : cfg.maxPulses ≠ 0)
    (hover : indexOverheadBytes cfg.maxCommands ≤ cfg.maxStorageBytes) :
    (∃ lands first random events, ∃ op : Op,
      let x := run lands (powerOn lands first random) events
      x.store.config = cfg ∧ (op.run (faulty lands) x.store x.flash).1 = .budgetExceeded) ↔
    cfg.maxStorageBytes < cfg.worstCaseBytes := by
  rw [UInt32.lt_iff_toNat_lt, cfg.toNat_worstCaseBytes]
  constructor
  · rintro ⟨lands, first, random, events, op, hcfg, hrefused⟩
    have hx := founded_run lands first random events
    have hwritable := writable_of_over hx.backend hrefused
    have hs := hx.ram hwritable
    have hover := hs.within.over (op_over hs hx.backend hwritable hrefused)
    have hlimits : ((run lands (powerOn lands first random) events).store.abs hs).limits = cfg.limits :=
      congrArg Config.limits hcfg
    rw [hlimits] at hover
    exact hover
  · intro hworst
    have hover : overhead cfg ≤ cfg.maxStorageBytes.toNat := by
      rw [← toNat_indexOverheadBytes]
      exact UInt32.le_iff_toNat_le.mp hover
    have hpos : 0 < cfg.limits.pulses := by
      have := UInt16.toNat_inj.not.mpr hpulses
      exact Nat.pos_of_ne_zero this
    have hcommands : cfg.limits.commands ≤ 255 := by
      have := cfg.maxCommands.toNat_lt
      show cfg.maxCommands.toNat ≤ 255
      omega
    obtain ⟨n, hn⟩ := Reference.exists_over cfg.limits none hpos hcommands hover hworst
    have hx := (mirrors_powerOn cfg none).run (Reference.fill cfg.limits.pulses n)
    refine ⟨fun _ => true, cfg, none, (Reference.fill cfg.limits.pulses n).map .op,
      .put (Reference.filler cfg.limits.pulses n), ?_, (hx.op _).1.trans hn⟩
    have hevents : ∀ e ∈ (Reference.fill cfg.limits.pulses n).map Event.op, e.Under (· = cfg) := by
      intro e he
      obtain ⟨op, -, rfl⟩ := List.mem_map.mp he
      trivial
    have hP := preserved_withinBudget hover
    have hfresh : Kept (· = cfg) _ (powerOn (fun _ => true) cfg none) := Kept.powerOn hP rfl none
    have hkept : Kept (· = cfg) _ (run (fun _ => true) (powerOn (fun _ => true) cfg none)
        ((Reference.fill cfg.limits.pulses n).map .op)) :=
      hfresh.run hP hevents fun c c' hc hc' => by rw [hc, hc']
    exact (hkept.ram hx.writable).2.2

end Session

end RfCloner
