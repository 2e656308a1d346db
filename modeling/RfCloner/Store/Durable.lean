/-
  What an `ok` is worth.

  An operation that returns `ok` has had all its saves land, so what it wrote is on flash; but most
  operations write only the index, and the payloads it refers to were written long before.  The
  invariant that carries the result is `Coherent`: every command in RAM has its waveform on flash.
  All operations, failures and reboots keep it, with one exception: a relearn with a different
  waveform whose payload lands and whose index or header does not (`Tears`).  Its rollback restores
  the old waveform in RAM over the new one on flash, and the next `ok` is an empty promise.
-/
import RfCloner.Store.Crash

namespace RfCloner

open FixedCodec StorageBackend CommandStore

namespace CommandStore

section FailedWrite

variable {s next : CommandStore} {payload : Option Nat} {r : Records UInt32}

/-- A write that fails before its payload landed, or that has none, leaves the old store coherent. -/
theorem Coherent.of_failed_index (h : Coherent s r) (hconfig : next.config = s.config) (n : Nat) :
    Coherent s (r.apply (next.indexRecords.take n)) := by
  refine h.congr fun i => Records.apply_of_not_mem ?_
  intro w hw
  rw [← hconfig]
  rcases List.mem_cons.mp (List.mem_of_mem_take hw) with rfl | hw
  · exact (next.config.payloadKey_ne_indexKey i).symm
  · rw [List.mem_singleton.mp hw]
    exact (next.config.payloadKey_ne_headerKey i).symm

/-- A payload saved into a free slot, or over the same waveform, leaves the old store coherent. -/
theorem Coherent.save_payload (h : Coherent s r) (hs : s.Sound) {i : Nat} (hi : i < s.slots.length)
    {timings : List Int32}
    (hsame : (s.slot i).occupied = true → (s.slot i).timings = timings) :
    Coherent s (r.save (s.config.payloadKey (UInt8.ofNat i)) (timingsBytes timings)) := by
  intro k hocc
  have hlen := hs.length_lt
  have hk := lt_of_slot_occupied hocc
  by_cases hki : k = i
  · subst hki
    rw [Records.save_self, hsame hocc]
  · rw [Records.save_of_ne (s.config.payloadKey_ne_payloadKey (by omega) (by omega) hki)]
    exact h k hocc

/-- Only a learn and an import save a waveform. -/
theorem op_saves_waveform {op : Op} {undone : CommandStore} {i : Nat}
    (hplan : op.plan s = .write (some i) next undone) :
    (∃ c, op = .put c) ∨ ∃ c, op = .importCommand c := by
  cases op with
  | put c => exact Or.inl ⟨c, rfl⟩
  | importCommand c => exact Or.inr ⟨c, rfl⟩
  | rename id name =>
    obtain ⟨-, -, slot, rev, -, -, -, hpay, -⟩ := renamePlan_eq_write hplan
    cases hpay
  | remove name =>
    obtain ⟨_, -, hplan'⟩ := removePlan_eq_write hplan
    obtain ⟨-, slot, rev, -, -, hpay, -⟩ := removeByIdPlan_eq_write hplan'
    cases hpay
  | removeById id =>
    obtain ⟨-, slot, rev, -, -, hpay, -⟩ := removeByIdPlan_eq_write hplan
    cases hpay
  | clearAll =>
    obtain ⟨-, -, rev, -, hpay, -⟩ := clearAllPlan_eq_write hplan
    cases hpay
  | factoryReset random =>
    obtain ⟨-, hpay, -⟩ := factoryResetPlan_eq_write hplan
    cases hpay
  | restoreBegin bridgeId id =>
    obtain ⟨-, -, -, -, rev, -, hpay, -⟩ := restoreBeginPlan_eq_write hplan
    cases hpay
  | restoreCommit source =>
    obtain ⟨-, -, -, rev, -, hpay, -⟩ := restoreCommitPlan_eq_write hplan
    cases hpay

/-- The only operation that writes a waveform over another one is a relearn. -/
theorem op_overwrites {op : Op} {undone : CommandStore} {i : Nat} (hs : s.Sound)
    (hplan : op.plan s = .write (some i) next undone) (hocc : (s.slot i).occupied = true) :
    ∃ c, op = .put c ∧ s.Accepts c ∧ s.get c.name = some (s.slot i) ∧
      (next.slot i).timings = c.timings := by
  rcases op_saves_waveform hplan with ⟨c, rfl⟩ | ⟨c, rfl⟩
  · obtain ⟨slot, hslot, hput⟩ := putWrite_of_plan hs hplan
    obtain rfl := Option.some.inj hslot
    refine ⟨c, rfl, putPlan_write_iff.mp ⟨_, _, _, hplan⟩, ?_, hput.timings⟩
    rcases hput.target with ⟨hfind, -⟩ | ⟨-, hfree⟩
    · exact Option.map_eq_some_iff.mpr ⟨i, hfind, rfl⟩
    · rw [hfree] at hocc
      cases hocc
  · -- an import takes a free slot
    obtain ⟨-, -, -, -, -, -, -, slot, rev, hfree, -, -, hpay, -⟩ := importCommandPlan_eq_write hplan
    obtain rfl := Option.some.inj hpay
    rw [(findFreeSlot_eq_some hfree).2] at hocc
    cases hocc

end FailedWrite

end CommandStore

namespace Session

/-- A relearn with a different waveform whose payload save lands while its index or header save
    fails. -/
def Tears (lands : Nat → Bool) (x : Session) : Event → Prop
  | .op (.put c) =>
    x.store.Accepts c ∧ (∃ old, x.store.get c.name = some old ∧ old.timings ≠ c.timings) ∧
      lands x.flash.attempts = true ∧
      ¬ (lands (x.flash.attempts + 1) = true ∧ lands (x.flash.attempts + 2) = true)
  | _ => False

/-- A run in which no relearn is torn. -/
def Untorn (lands : Nat → Bool) (x : Session) : List Event → Prop
  | [] => True
  | e :: events => ¬ Tears lands x e ∧ Untorn lands (step lands x e) events

section Coherence

variable {lands : Nat → Bool} {allowed : Config → Prop} {P : CommandStore → Prop}
  (hP : Preserved allowed P)
include hP

variable (lands) in
/-- A reboot reads every waveform it loads from its own record. -/
theorem coherent_boot {cfg : Config} {flash : Fake UInt32} (hflash : Stored P cfg flash.records)
    (random : Option BridgeId) (hro : (boot lands cfg random flash).store.readOnly = false) :
    Coherent (boot lands cfg random flash).store (boot lands cfg random flash).flash.records := by
  by_cases hheader : flash.records cfg.headerKey = none
  · obtain ⟨hstore, -⟩ := boot_fresh lands hheader random
    rw [hstore]
    exact Coherent.of_empty rfl
  · obtain ⟨-, -, hsame, hreload⟩ := boot_stored lands hP.sound hflash hheader random
    obtain ⟨t, -, hr⟩ := hreload hro
    rw [hsame]
    intro i hocc
    exact (hr.slot_of_occupied hocc).2.2.2.2

/-- **One event keeps RAM and flash coherent**, unless it tears a relearn. -/
theorem coherent_step {x : Session} (hx : Kept allowed P x) (hpos : x.store.config.maxCommands ≠ 0)
    (hcoh : x.store.readOnly = false → Coherent x.store x.flash.records) {e : Event}
    (hsalt : ∀ cfg random, e = .reboot cfg random → cfg.keySalt = x.store.config.keySalt)
    (hun : ¬ Tears lands x e) (hro : (step lands x e).store.readOnly = false) :
    Coherent (step lands x e).store (step lands x e).flash.records := by
  cases e with
  | reboot cfg random =>
    exact coherent_boot lands hP (hx.flash.of_salt (hsalt cfg random rfl)) random hro
  | op op =>
    cases hplan : op.plan x.store with
    | stop result =>
      rw [step_of_stop lands hplan] at hro ⊢
      exact hcoh hro
    | write payload next undone =>
      rcases step_cases lands hplan with ⟨hok, -⟩ | ⟨-, hstore, n, hn, hrec, hbefore, hfail⟩
      · -- every save landed
        obtain ⟨hnext, -, hc⟩ := op_restores (fun hro => hP.sound (hx.ram hro)) hpos hcoh
          hplan hok
        have hstore : (step lands x (.op op)).store = next := hnext
        rw [hstore]
        exact hc
      · -- some save failed, and the operation rolled back
        rw [hstore] at hro ⊢
        rw [hrec]
        rcases op_change (fun hro => hP.sound (hx.ram hro)) hplan with
          ⟨hro', hchange, rfl⟩ | ⟨random, -, -, -, rfl⟩
        · have hs := hP.sound (hx.ram hro')
          have hc := hcoh hro'
          have hconfig := hchange.config.1
          cases payload with
          | none =>
            rw [records_none]
            exact hc.of_failed_index hconfig n
          | some i =>
            cases n with
            | zero =>
              rw [List.take_zero, Records.apply_nil]
              exact hc
            | succ n =>
              have hi : i < x.store.slots.length := by
                have hlt := hchange.payload_lt rfl
                rwa [(hchange.sound hs).sized, hconfig, ← hs.sized] at hlt
              have hsame : (x.store.slot i).occupied = true →
                  (x.store.slot i).timings = (next.slot i).timings := by
                intro hocc
                obtain ⟨c, rfl, hacc, hget, htimings⟩ := op_overwrites hs hplan hocc
                by_contra hdiff
                rw [htimings] at hdiff
                refine hun ⟨hacc, ⟨_, hget, hdiff⟩, hbefore 0 (Nat.succ_pos n), fun hlater => ?_⟩
                -- the save that failed is that of the index or that of the header
                have hn3 : n + 1 < 3 := hn
                have hn' : n = 0 ∨ n = 1 := by omega
                rcases hn' with rfl | rfl
                · exact Bool.false_ne_true (hfail.symm.trans hlater.1)
                · exact Bool.false_ne_true (hfail.symm.trans hlater.2)
              rw [records_some, List.take_succ_cons, payloadRecord, Records.apply_cons, hconfig]
              exact (hc.save_payload hs hi hsame).of_failed_index hconfig n
        · exact Coherent.of_empty rfl

/-- Every run without a torn relearn keeps RAM and flash coherent. -/
theorem coherent_run {x : Session} (hx : Kept allowed P x) {events : List Event}
    (hevents : ∀ e ∈ events, e.Under allowed)
    (hsalt : ∀ c c', allowed c → allowed c' → c.keySalt = c'.keySalt)
    (hpos : ∀ c, allowed c → c.maxCommands ≠ 0) (hun : Untorn lands x events)
    (hcoh : x.store.readOnly = false → Coherent x.store x.flash.records) :
    (run lands x events).store.readOnly = false →
      Coherent (run lands x events).store (run lands x events).flash.records := by
  induction events generalizing x with
  | nil => exact hcoh
  | cons e events ih =>
    have he := hevents e List.mem_cons_self
    have hnext : Kept allowed P (step lands x e) := by
      have hrun : Kept allowed P (run lands x [e]) := hx.run hP
        (fun e' he' => List.mem_singleton.mp he' ▸ he) hsalt
      exact hrun
    refine ih hnext (fun e' he' => hevents e' (List.mem_cons_of_mem _ he')) hun.2 ?_
    intro hro
    refine coherent_step hP hx (hpos _ hx.allowed) hcoh ?_ hun.1 hro
    rintro cfg random rfl
    exact hsalt _ _ he hx.allowed

end Coherence

/-- **Acknowledged means durable**, in every run from a fresh device in which no relearn with a
    different waveform has its payload land and its index or header fail: whenever an operation that
    wrote returns `ok`, a fresh store over the flash of that moment comes up writable with exactly
    the registry in RAM.  Any save may fail at any point. -/
theorem ok_durable {cfg : Config} (hpos : cfg.maxCommands ≠ 0) (lands : Nat → Bool)
    (random : Option BridgeId) {events : List Event} (hevents : ∀ e ∈ events, e.Under (· = cfg))
    (hun : Untorn lands (powerOn lands cfg random) events) (op : Op) :
    let x := run lands (powerOn lands cfg random) events
    let out := op.run (faulty lands) x.store x.flash
    out.1 = .ok → out.2.2.attempts ≠ x.flash.attempts →
      Restores cfg out.2.2.records out.2.1.registry := by
  intro x out hok hwrote
  have hP := preserved_sound (· = cfg)
  have hsalt : ∀ c c' : Config, c = cfg → c' = cfg → c.keySalt = c'.keySalt := by
    rintro c c' rfl rfl
    rfl
  have hstart : Kept (· = cfg) Sound (powerOn lands cfg random) := Kept.powerOn hP rfl random
  have hx : Kept (· = cfg) Sound x := hstart.run hP hevents hsalt
  have hcoh := coherent_run hP hstart hevents hsalt (fun c hc => hc ▸ hpos) hun
    fun hro => coherent_boot lands hP (Or.inl rfl) random hro
  cases hplan : op.plan x.store with
  | stop result =>
    have hout : out = (result, x.store, x.flash) := Op.run_of_stop hplan x.flash
    exact absurd (congrArg (fun out => out.2.2.attempts) hout) hwrote
  | write payload next undone =>
    have hconfig : next.config = cfg := (op_next hx.ram hplan).2.1.trans hx.allowed
    obtain ⟨hstore, hrestores, -⟩ := op_restores hx.ram (hx.allowed ▸ hpos) hcoh hplan hok
    have hstore' : out.2.1 = next := hstore
    rw [hstore', ← hconfig]
    exact hrestores

/-- On a device whose very first save failed, a command learned later is durable. -/
theorem ok_durable_after_failed_mint :
    let x := powerOn (fun n => n ≠ 0) ⟨1, 4, 200, 7⟩ none
    let out := (Op.put { name := ascii "a", timings := [350, -1050] }).run
      (faulty fun n => n ≠ 0) x.store x.flash
    Restores ⟨1, 4, 200, 7⟩ out.2.2.records out.2.1.registry :=
  ok_durable (by decide) (fun n => n ≠ 0) none
    (show ∀ e ∈ ([] : List Event), e.Under (· = ⟨1, 4, 200, 7⟩) by simp) trivial
    (.put { name := ascii "a", timings := [350, -1050] }) (by decide +kernel) (by decide +kernel)

/-- A device whose seventh save fails: the index of a relearn. -/
def torn : Session :=
  run (fun n => n ≠ 6) (powerOn (fun n => n ≠ 6) ⟨1, 4, 200, 7⟩ none)
    [.op (.put { name := ascii "a", timings := [350, -1050] }),
      .op (.put { name := ascii "a", timings := [1, 2] })]

/-- After a torn relearn a rename returns `ok`, and what it acknowledges is not on flash. -/
theorem rename_after_torn_not_durable :
    let out := (Op.rename 1 (ascii "b")).run (faulty fun n => n ≠ 6) torn.store torn.flash
    out.1 = .ok ∧ out.2.2.attempts ≠ torn.flash.attempts ∧
      ¬ Restores ⟨1, 4, 200, 7⟩ out.2.2.records out.2.1.registry := by
  intro out
  have hP := preserved_sound (· = (⟨1, 4, 200, 7⟩ : Config))
  have hfresh : Kept _ Sound (powerOn (fun n => n ≠ 6) ⟨1, 4, 200, 7⟩ none) :=
    Kept.powerOn hP rfl none
  have hout : Kept _ Sound (step (fun n => n ≠ 6) torn (.op (.rename 1 (ascii "b")))) :=
    Kept.op hP (Kept.op hP (Kept.op hP hfresh _) _) _
  refine ⟨by decide +kernel, by decide +kernel, fun h => ?_⟩
  have hconfig : out.2.1.config = ⟨1, 4, 200, 7⟩ := hout.allowed
  obtain ⟨raw, t, hfrom⟩ := Restores.loadedFrom (s := out.2.1) hout.flash (hconfig ▸ h)
  have hpay := hfrom.coherent 0 (by decide +kernel)
  exact absurd hpay (by decide +kernel)

end Session

end RfCloner
