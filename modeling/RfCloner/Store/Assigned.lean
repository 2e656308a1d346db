/-
  The ids a store has handed out.

  An id belongs to a command for as long as the bridge exists, also after the command is deleted, so
  "never handed out twice" is a statement about a history that no state records.  The history is
  kept beside the run (`Session.assigned`), and what ties it to the state is one inequality: every
  id handed out is below the next one, in RAM and on flash (`Session.Issued`).

  `restore_begin` is the one operation that may break it, because the counter it adopts is taken
  from its argument alone.
-/
import RfCloner.Store.Revision

namespace RfCloner

open FixedCodec StorageBackend

namespace CommandStore

/-! ## Learning a new command -/

section Learning

variable {s next undone : CommandStore} {payload : Option Nat} {c : Command}

/-- A `put` of a name the store does not know takes the next id. -/
theorem putPlan_new (h : s.putPlan c = .write payload next undone) (hnew : s.has c.name = false) :
    s.nextCommandId ≤ commandIdLast ∧
    ∃ slot rev, slot < s.slots.length ∧ (s.slot slot).occupied = false ∧
      next = { s with
        slots := s.slots.set slot { c with commandId := s.nextCommandId }
        nextCommandId := s.nextCommandId + 1
        revision := rev } := by
  obtain ⟨-, -, -, -, slot, overwriting, id, rev, hslot, -, -, -, rfl, -⟩ := putPlan_eq_write h
  rcases putSlot_eq_ok hslot with ⟨rfl, hfind, -⟩ | ⟨rfl, -, hfree, hlast, rfl⟩
  · rw [has, hfind] at hnew
    cases hnew
  · obtain ⟨hlt, hfree⟩ := findFreeSlot_eq_some hfree
    exact ⟨hlast, slot, rev, hlt, hfree, rfl⟩

/-- A `put` of a known name keeps the counter and the id. -/
theorem putPlan_known (h : s.putPlan c = .write payload next undone) (hknown : s.has c.name = true) :
    ∃ slot rev, (s.slot slot).occupied = true ∧ (s.slot slot).name = c.name ∧
      next = { s with
        slots := s.slots.set slot { c with commandId := (s.slot slot).commandId }
        revision := rev } := by
  obtain ⟨-, -, -, -, slot, overwriting, id, rev, hslot, -, -, -, rfl, -⟩ := putPlan_eq_write h
  rcases putSlot_eq_ok hslot with ⟨rfl, hfind, rfl⟩ | ⟨rfl, hfind, -⟩
  · obtain ⟨hocc, hname⟩ := findSlot_eq_some hfind
    exact ⟨slot, rev, hocc, hname, rfl⟩
  · rw [has, hfind] at hknown
    cases hknown

/-- The new command is found under its name, with the id that was next. -/
theorem get_putPlan_new (hs : s.Sound) (hn : next.Sound)
    (h : s.putPlan c = .write payload next undone) (hnew : s.has c.name = false) :
    next.get c.name = some { c with commandId := s.nextCommandId } := by
  obtain ⟨-, slot, rev, hlt, -, hnext⟩ := putPlan_new h hnew
  have hslot : next.slot slot = { c with commandId := s.nextCommandId } := by
    rw [slot_of_set (congrArg CommandStore.slots hnext) hlt, if_pos rfl]
  have hocc : (next.slot slot).occupied = true := by
    rw [hslot, Command.occupied_iff]
    intro hnone
    have hpos : commandIdFirst ≤ s.nextCommandId := hs.next_pos
    rw [show s.nextCommandId = commandIdNone from hnone] at hpos
    exact absurd hpos (by decide)
  have hfind := hn.findSlot_name hocc
  rw [hslot] at hfind
  rw [get, hfind, Option.map_some, hslot]

end Learning

/-! ## What is on flash -/

/-- A sound store whose next id is above every id issued. -/
def Above (issued : List UInt32) (s : CommandStore) : Prop :=
  s.Sound ∧ ∀ id ∈ issued, id < s.nextCommandId

end CommandStore

namespace Session

open CommandStore

/-! ## The history -/

variable (lands : Nat → Bool)

/-- The id an event assigns to a new command: that of a name `put` has just accepted and did not
    know before. -/
def assigns (x : Session) : Event → Option UInt32
  | .op (.put c) =>
    let out := (Op.put c).run (faulty lands) x.store x.flash
    if out.1 = .ok ∧ x.store.has c.name = false then (out.2.1.get c.name).map Command.commandId
    else none
  | _ => none

/-- The ids assigned in a run, in order. -/
def assigned (x : Session) : List Event → List UInt32
  | [] => []
  | e :: events => (x.assigns lands e).toList ++ assigned (step lands x e) events

/-- A `restore_begin` that passes its guards with a counter that is not above every id issued. -/
def Rewinds (issued : List UInt32) (x : Session) : Event → Prop
  | .op (.restoreBegin bridgeId next) =>
    (∀ result, x.store.restoreBeginPlan bridgeId next ≠ .stop result) ∧ ∃ id ∈ issued, next ≤ id
  | _ => False

/-- A run in which no restore rewinds the counter. -/
def Unrewound : List UInt32 → Session → List Event → Prop
  | _, _, [] => True
  | issued, x, e :: events =>
    ¬ x.Rewinds issued e ∧
      Unrewound (issued ++ (x.assigns lands e).toList) (step lands x e) events

/-! ## The invariant -/

/-- Every id issued is below the next one, in RAM and on flash, and something is on flash once an
    id has been issued. -/
structure Issued (salt : UInt32) (issued : List UInt32) (x : Session) : Prop where
  salt : x.store.config.keySalt = salt
  ram : x.store.readOnly = false → x.store.Above issued
  flash : Stored (Above issued) x.store.config x.flash.records
  fresh : x.flash.records x.store.config.headerKey = none → issued = []

variable {lands} {salt : UInt32} {issued : List UInt32} {x : Session}

/-- What `put` assigns is the next id. -/
theorem assigns_eq_some {e : Event} {id : UInt32} (hs : x.store.readOnly = false → x.store.Sound)
    (h : x.assigns lands e = some id) :
    ∃ c payload next undone, e = .op (.put c) ∧ x.store.putPlan c = .write payload next undone ∧
      x.store.has c.name = false ∧ id = x.store.nextCommandId ∧
      ((Op.put c).run (faulty lands) x.store x.flash).1 = .ok := by
  unfold assigns at h
  split at h
  · rename_i c
    dsimp only at h
    split at h
    · rename_i hok
      cases hplan : x.store.putPlan c with
      | stop result =>
        rw [Op.run, Op.plan, hplan] at hok
        obtain rfl : result = .ok := hok.1
        exact absurd hplan putPlan_stop
      | write payload next undone =>
        refine ⟨c, payload, next, undone, rfl, hplan, hok.2, ?_, hok.1⟩
        have hro : x.store.readOnly = false := (writable_eq_ok (putPlan_eq_write hplan).1).2.1
        have hsound := (op_next hs (show (Op.put c).plan x.store = _ from hplan)).1
        have hstore : ((Op.put c).run (faulty lands) x.store x.flash).2.1 = next := by
          rcases run_cases lands (show (Op.put c).plan x.store = _ from hplan) x.flash with
            ⟨-, hstore, -⟩ | ⟨hfail, -⟩
          · exact hstore
          · rw [hfail] at hok
            exact absurd hok.1 (by decide)
        rw [hstore, get_putPlan_new (hs hro) hsound hplan hok.2] at h
        exact (Option.some.inj h).symm
    · cases h
  · cases h

/-- Nothing is assigned unless the operation plans a write. -/
theorem assigns_of_stop {op : Op} {result : StoreResult}
    (hs : x.store.readOnly = false → x.store.Sound) (hplan : op.plan x.store = .stop result) :
    x.assigns lands (.op op) = none := by
  rw [Option.eq_none_iff_forall_ne_some]
  intro id hid
  obtain ⟨c, payload, next, undone, heq, hwrite, -⟩ := assigns_eq_some hs hid
  obtain rfl : op = .put c := Event.op.inj heq
  rw [Op.plan, hwrite] at hplan
  cases hplan

/-- Nor unless every save lands. -/
theorem assigns_of_ne_ok {op : Op} (hs : x.store.readOnly = false → x.store.Sound)
    (hfail : (op.run (faulty lands) x.store x.flash).1 ≠ .ok) :
    x.assigns lands (.op op) = none := by
  rw [Option.eq_none_iff_forall_ne_some]
  intro id hid
  obtain ⟨c, _, _, _, heq, -, -, -, hok⟩ := assigns_eq_some hs hid
  obtain rfl : op = .put c := Event.op.inj heq
  exact hfail hok

/-- What is assigned is below the counter that is written. -/
theorem assigns_lt_next {op : Op} {payload : Option Nat} {next undone : CommandStore}
    (hs : x.store.readOnly = false → x.store.Sound)
    (hplan : op.plan x.store = .write payload next undone) :
    ∀ id ∈ (x.assigns lands (.op op)).toList, id < next.nextCommandId := by
  intro id hid
  obtain ⟨c, _, _, _, heq, hwrite, hfresh, rfl, -⟩ :=
    assigns_eq_some hs (Option.mem_toList.mp hid)
  obtain rfl : op = .put c := Event.op.inj heq
  obtain ⟨hlast, slot, rev, -, -, rfl⟩ := putPlan_new hplan hfresh
  exact lt_succ_of_le_last hlast

/-- The counter that is written is above every id issued so far. -/
theorem Issued.lt_next (h : Issued salt issued x) {op : Op} {payload : Option Nat}
    {next undone : CommandStore} (hreset : ∀ random, op ≠ .factoryReset random)
    (hwind : ¬ x.Rewinds issued (.op op)) (hro : x.store.readOnly = false)
    (hplan : op.plan x.store = .write payload next undone) :
    ∀ id ∈ issued, id < next.nextCommandId := by
  intro id hid
  by_cases hbegin : ∃ b n, op = .restoreBegin b n
  · obtain ⟨b, n, rfl⟩ := hbegin
    obtain ⟨-, -, -, -, rev, -, -, rfl, -⟩ := restoreBeginPlan_eq_write hplan
    by_contra hle
    refine hwind ⟨fun result hstop => ?_, id, hid, UInt32.not_lt.mp hle⟩
    rw [Op.plan, hstop] at hplan
    cases hplan
  · push Not at hbegin
    exact UInt32.lt_of_lt_of_le ((h.ram hro).2 id hid) (nextCommandId_le_plan hreset hbegin hplan)

/-- **One operation.** -/
theorem Issued.op (h : Issued salt issued x) {op : Op} (hreset : ∀ random, op ≠ .factoryReset random)
    (hwind : ¬ x.Rewinds issued (.op op)) :
    Issued salt (issued ++ (x.assigns lands (.op op)).toList) (step lands x (.op op)) := by
  have hs : x.store.readOnly = false → x.store.Sound := fun hro => (h.ram hro).1
  cases hplan : op.plan x.store with
  | stop result =>
    rw [step_of_stop lands hplan, assigns_of_stop hs hplan, Option.toList_none, List.append_nil]
    exact h
  | write payload next undone =>
    obtain ⟨hro, hchange, hundone⟩ := (op_change hs hplan).resolve_right (by
      rintro ⟨random, hop, -⟩
      exact hreset random hop)
    obtain ⟨hsound, hconfig, -⟩ := op_next hs hplan
    have hold := h.lt_next hreset hwind hro hplan
    rcases step_cases lands hplan with ⟨-, hstore, hrec⟩ | ⟨hfail, hstore, n, hn, hrec, -⟩
    · -- every save landed: the flash holds the index of `next` whatever it held before
      have habove : next.Above (issued ++ (x.assigns lands (.op op)).toList) :=
        ⟨hsound, fun id hid => (List.mem_append.mp hid).elim (hold id) (assigns_lt_next hs hplan id)⟩
      have hheader : x.flash.records.apply (next.records payload) next.config.headerKey
          = some (headerRecord next.config) := by
        rw [CommandStore.records, Records.apply_append]
        exact apply_indexRecords_header
      refine ⟨?_, ?_, ?_, ?_⟩
      · rw [hstore, hconfig]
        exact h.salt
      · intro _
        rw [hstore]
        exact habove
      · rw [hstore, hrec, CommandStore.records, Records.apply_append]
        exact Stored.apply_indexRecords habove
      · rw [hstore, hrec, hheader]
        exact fun hnone => absurd hnone (Option.some_ne_none _)
    · -- some save failed: nothing was assigned, and RAM is rolled back
      rw [hundone] at hstore
      have hnone : x.assigns lands (.op op) = none :=
        assigns_of_ne_ok hs (hfail.trans_ne StoreResult.noConfusion)
      rw [hnone, Option.toList_none, List.append_nil]
      refine ⟨by rw [hstore]; exact h.salt, by rw [hstore]; exact h.ram, ?_, ?_⟩
      · rw [hstore, hrec, ← hconfig]
        exact Stored.apply_records (hconfig ▸ h.flash) ⟨hsound, hold⟩ payload n
      · intro hheader
        rw [hstore, hrec] at hheader
        exact h.fresh (Records.none_of_apply hheader)

/-- **One reboot.** -/
theorem Issued.reboot (h : Issued salt issued x) {cfg : Config} (hsalt : cfg.keySalt = salt)
    (random : Option BridgeId) : Issued salt issued (step lands x (.reboot cfg random)) := by
  have hflash : Stored (Above issued) cfg x.flash.records := h.flash.of_salt (hsalt.trans h.salt.symm)
  by_cases hheader : x.flash.records cfg.headerKey = none
  · obtain ⟨hstore, n, hwritten⟩ := boot_fresh lands hheader random
    have hnil : issued = [] := by
      refine h.fresh ?_
      rw [← hheader, Config.headerKey, Config.headerKey, h.salt, hsalt]
    have habove : ((configure cfg).mintIdentity random).Above issued :=
      ⟨mint_sound cfg random, fun id hid => by rw [hnil] at hid; cases hid⟩
    refine ⟨?_, ?_, ?_, fun _ => hnil⟩
    · rw [step, hstore]
      exact hsalt
    · intro _
      rw [step, hstore]
      exact habove
    · rw [step, hstore, hwritten]
      exact Stored.apply_records (t := (configure cfg).mintIdentity random) hflash habove none n
  · obtain ⟨hconfig, -, hsame, hreload⟩ :=
      boot_stored lands (fun h => h.1) hflash hheader random
    refine ⟨?_, ?_, ?_, ?_⟩
    · rw [step, hconfig]
      exact hsalt
    · intro hw
      obtain ⟨t, ht, hr⟩ := hreload hw
      refine ⟨hr.sound ht.1, fun id hid => ?_⟩
      rw [step, hr.nextCommandId]
      exact ht.2 id hid
    · rw [step, hconfig, hsame]
      exact hflash
    · rw [step, hconfig, hsame]
      exact fun hnone => absurd hnone hheader

/-- A device on its first boot has issued nothing. -/
theorem Issued.powerOn (cfg : Config) (random : Option BridgeId) :
    Issued cfg.keySalt [] (powerOn lands cfg random) := by
  have hblank : Stored (Above []) cfg blank.records := Or.inl rfl
  have hheader : blank.records cfg.headerKey = none := rfl
  obtain ⟨hstore, n, hwritten⟩ := boot_fresh lands hheader random
  have habove : ((configure cfg).mintIdentity random).Above [] :=
    ⟨mint_sound cfg random, fun id hid => by cases hid⟩
  refine ⟨?_, ?_, ?_, fun _ => rfl⟩
  · rw [Session.powerOn, hstore]
    rfl
  · intro _
    rw [Session.powerOn, hstore]
    exact habove
  · rw [Session.powerOn, hstore, hwritten]
    exact Stored.apply_records (t := (configure cfg).mintIdentity random) hblank habove none n

/-- **What is assigned in a run is above everything issued before it, and in order.**  Induction on
    the events; each step extends the history by what it assigns. -/
theorem Issued.run (h : Issued salt issued x) {events : List Event}
    (hevents : ∀ e ∈ events,
      e.Under (·.keySalt = salt) ∧ ∀ random, e ≠ .op (.factoryReset random))
    (hun : Unrewound lands issued x events) :
    (assigned lands x events).Pairwise (· < ·) ∧
      ∀ id ∈ issued, ∀ id' ∈ assigned lands x events, id < id' := by
  induction events generalizing x issued with
  | nil => exact ⟨List.Pairwise.nil, fun id _ id' hid' => nomatch hid'⟩
  | cons e events ih =>
    obtain ⟨hunder, hreset⟩ := hevents e List.mem_cons_self
    obtain ⟨hwind, hun⟩ := hun
    have hstep : Issued salt (issued ++ (x.assigns lands e).toList) (step lands x e) := by
      cases e with
      | op op => exact h.op (fun random heq => hreset random (congrArg Event.op heq)) hwind
      | reboot cfg random =>
        rw [show x.assigns lands (.reboot cfg random) = none from rfl, Option.toList_none,
          List.append_nil]
        exact h.reboot hunder random
    -- what this event assigns is the next id, and so above what was issued before
    have hhere : ∀ id ∈ issued, ∀ id' ∈ (x.assigns lands e).toList, id < id' := by
      intro id hid id' hid'
      have hs : x.store.readOnly = false → x.store.Sound := fun hro => (h.ram hro).1
      obtain ⟨c, _, _, _, -, hwrite, -, rfl, -⟩ := assigns_eq_some hs (Option.mem_toList.mp hid')
      exact (h.ram (writable_eq_ok (putPlan_eq_write hwrite).1).2.1).2 id hid
    obtain ⟨hrest, hafter⟩ := ih hstep (fun e he => hevents e (List.mem_cons_of_mem _ he)) hun
    refine ⟨?_, ?_⟩
    · refine List.pairwise_append.mpr ⟨?_, hrest, fun id hid id' hid' =>
        hafter id (List.mem_append_right _ hid) id' hid'⟩
      cases x.assigns lands e with
      | none => exact List.Pairwise.nil
      | some id => exact List.pairwise_singleton _ _
    · intro id hid id' hid'
      rcases List.mem_append.mp hid' with hid' | hid'
      · exact hhere id hid id' hid'
      · exact hafter id (List.mem_append_left _ hid) id' hid'

/-- **No id is handed out twice**, in any run of a device without a factory reset in which no
    `restore_begin` sets the counter to an id that has been assigned already: deleting, clearing and
    rebooting never bring one back, whatever saves fail. -/
theorem ids_never_reused (lands : Nat → Bool) (cfg : Config) (random : Option BridgeId)
    {events : List Event}
    (hevents : ∀ e ∈ events,
      e.Under (·.keySalt = cfg.keySalt) ∧ ∀ random, e ≠ .op (.factoryReset random))
    (hun : Unrewound lands [] (powerOn lands cfg random) events) :
    (assigned lands (powerOn lands cfg random) events).Nodup :=
  ((Issued.powerOn cfg random).run hevents hun).1.imp UInt32.ne_of_lt

/-- A bridge that learns a command, is cleared, is restored under its own identity with the counter
    `next`, and learns another command. -/
def relearned (next : UInt32) : List Event :=
  [.op (.put { name := ascii "a", timings := [350, -1050] }), .op .clearAll,
    .op (.restoreBegin Life.sampleBridge next), .op (.restoreCommit 0),
    .op (.put { name := ascii "b", timings := [350, -1050] })]

/-- **With a counter of 1 the second command gets the id of the first**, under one identity. -/
theorem restore_begin_rewinds :
    let x := powerOn (fun _ => true) ⟨1, 4, 200, 7⟩ (some Life.sampleBridge)
    (∀ k < 6, (run (fun _ => true) x ((relearned 1).take k)).store.bridgeId = Life.sampleBridge) ∧
    ¬ (assigned (fun _ => true) x (relearned 1)).Nodup := by
  intro x
  have hassigned : assigned (fun _ => true) x (relearned 1) = [1, 1] := by decide +kernel
  refine ⟨by decide +kernel, ?_⟩
  rw [hassigned]
  decide

/-- With a counter above the id that was assigned it gets another one. -/
theorem ids_never_reused_restored :
    (assigned (fun _ => true) (powerOn (fun _ => true) ⟨1, 4, 200, 7⟩ (some Life.sampleBridge))
      (relearned 2)).Nodup := by
  refine ids_never_reused (fun _ => true) ⟨1, 4, 200, 7⟩ (some Life.sampleBridge) ?_ ?_
  · intro e he
    simp only [relearned, List.mem_cons, List.not_mem_nil, or_false] at he
    rcases he with rfl | rfl | rfl | rfl | rfl <;> exact ⟨trivial, fun _ h => by cases h⟩
  · refine ⟨id, id, ?_, id, id, trivial⟩
    rintro ⟨-, hle⟩
    exact absurd hle (by decide +kernel)

end Session

end RfCloner
