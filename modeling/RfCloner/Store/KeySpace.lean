/-
  Two instances on one flash.

  Every key a store uses is one of 257 fixed keys, masked with the salt of the instance.  A store
  looks at nothing else (`boot_congr`) and writes nothing else (`writes_owned`), so two instances
  whose masked keys are disjoint do not notice each other: `isolated_of_disjoint` is the frame
  argument over whole interleaved runs.  That two *different* salts do not yet make the keys disjoint
  is the subject of `Collision`.
-/
import RfCloner.Store.Rollback

namespace RfCloner

open FixedCodec StorageBackend

/-! ## The keys of an instance -/

/-- The keys before they are salted: the header, the index, and the payload of each slot that
    `max_commands`, a `uint8_t`, lets a store have. -/
def recordKeys : List UInt32 :=
  keyHeader :: keyIndex :: (List.range 255).map fun i => payloadKey (UInt8.ofNat i)

theorem mem_recordKeys {k : UInt32} :
    k ∈ recordKeys ↔ k = keyHeader ∨ k = keyIndex ∨ ∃ i < 255, payloadKey (UInt8.ofNat i) = k := by
  simp only [recordKeys, List.mem_cons, List.mem_map, List.mem_range]

/-- The keys of an instance of a given salt. -/
def Owns (salt key : UInt32) : Prop := ∃ k ∈ recordKeys, k ^^^ salt = key

/-- Whether the keys of two instances are all different. -/
def KeysDisjoint (salt : Bool → UInt32) : Prop :=
  ∀ a ∈ recordKeys, ∀ b ∈ recordKeys, a ^^^ salt false ≠ b ^^^ salt true

namespace Config

variable (cfg : Config)

theorem owns_headerKey : Owns cfg.keySalt cfg.headerKey :=
  ⟨keyHeader, mem_recordKeys.mpr (Or.inl rfl), rfl⟩

theorem owns_indexKey : Owns cfg.keySalt cfg.indexKey :=
  ⟨keyIndex, mem_recordKeys.mpr (Or.inr (Or.inl rfl)), rfl⟩

theorem owns_payloadKey {i : Nat} (hi : i < 255) :
    Owns cfg.keySalt (cfg.payloadKey (UInt8.ofNat i)) :=
  ⟨_, mem_recordKeys.mpr (Or.inr (Or.inr ⟨i, hi, rfl⟩)), rfl⟩

end Config

/-- Of two instances with disjoint keys neither owns a key of the other. -/
theorem KeysDisjoint.not_owns {salt : Bool → UInt32} (h : KeysDisjoint salt) {who : Bool}
    {key : UInt32} (hother : Owns (salt !who) key) : ¬ Owns (salt who) key := by
  rintro ⟨a, ha, rfl⟩
  obtain ⟨b, hb, heq⟩ := hother
  cases who with
  | false => exact h a ha b hb heq.symm
  | true => exact h b hb a ha heq

namespace CommandStore

/-! ## A store looks only at its own records -/

section Load

variable {load load' : Loader} {cfg : Config}

/-- Two readers of the flash that agree on the keys of an instance. -/
def SameLoads (salt : UInt32) (load load' : Loader) : Prop :=
  ∀ key, Owns salt key → ∀ len, load key len = load' key len

theorem slotOutcome_same (h : SameLoads cfg.keySalt load load') (i : Nat) (slot : StoredSlot) :
    slotOutcome load cfg i slot = slotOutcome load' cfg i slot := by
  rw [slotOutcome, slotOutcome]
  split
  · rfl
  split
  · rfl
  · rename_i hfits
    -- the payload is looked up only for a slot within `max_commands`
    have hi : i < cfg.maxCommands.toNat := by
      simp [StoredSlot.fits] at hfits
      omega
    have hmax : cfg.maxCommands.toNat < 256 := cfg.maxCommands.toNat_lt
    rw [StoredSlot.waveform, StoredSlot.waveform, h _ (cfg.owns_payloadKey (by omega))]

theorem loadSlots_same {raw : Bytes} (n : Nat) {acc : LoadReport × CommandStore}
    (h : SameLoads acc.2.config.keySalt load load') :
    loadSlots load raw n acc = loadSlots load' raw n acc := by
  induction n with
  | zero => rfl
  | succ n ih =>
    have hconfig := (loadSlots_keeps load' raw n acc).1
    rw [loadSlots_succ, loadSlots_succ, ih]
    unfold loadSlot
    dsimp only
    rw [slotOutcome_same (by rw [hconfig]; exact h)]

theorem readHeader_same {s : CommandStore} (h : SameLoads s.config.keySalt load load')
    (header : Bytes) : s.readHeader load header = s.readHeader load' header := by
  rw [readHeader, readHeader]
  split
  · rfl
  split
  · rfl
  · rw [loadIndex, loadIndex, h _ s.config.owns_indexKey]
    split
    · rfl
    split
    · rfl
    split
    · rfl
    · dsimp only
      rw [loadSlots_same]
      exact h

end Load

/-- The slot array has the configured length. -/
def Sized (s : CommandStore) : Prop := s.slots.length = s.config.maxCommands.toNat

/-- Loading fills slots, it does not add any. -/
theorem loadSlots_sized (load : Loader) (raw : Bytes) (n : Nat) {acc : LoadReport × CommandStore}
    (h : acc.2.Sized) : (loadSlots load raw n acc).2.Sized := by
  induction n with
  | zero => exact h
  | succ n ih =>
    rw [loadSlots_succ]
    generalize loadSlots load raw n acc = acc' at ih ⊢
    unfold loadSlot
    dsimp only
    split
    · exact ih
    · exact ih
    · exact ih
    · rw [Sized, List.length_set]
      exact ih

theorem loadIndex_sized (load : Loader) {s : CommandStore} (h : s.Sized) (m : UInt8) (len : UInt16)
    (report : LoadReport) : (s.loadIndex load m len report).2.Sized := by
  rw [loadIndex]
  split
  · exact h
  split
  · exact h
  split
  · exact h
  · rename_i raw _ _
    have hslots := loadSlots_sized load raw m.toNat
      (show ({ report with
          restoreIncomplete := (storedMetaOf raw).restoreState != 0
          slotCountChanged := m != s.config.maxCommands }, s.adoptMeta (storedMetaOf raw)).2.Sized
        from h)
    dsimp only
    generalize loadSlots load raw m.toNat _ = acc at hslots ⊢
    split <;> exact hslots

theorem readHeader_sized (load : Loader) {s : CommandStore} (h : s.Sized) (header : Bytes) :
    (s.readHeader load header).2.Sized := by
  rw [readHeader]
  split
  · exact h
  split
  · exact h
  · exact loadIndex_sized load h _ _ _

/-- **What a boot loads, and what it does to the records of its instance, depends on those records
    only.** -/
theorem boot_congr {r r' : Records UInt32} {cfg : Config}
    (h : Records.AgreeOn (Owns cfg.keySalt) r r') (random : Option BridgeId) (k k' : Nat) :
    let out := boot sound cfg random ⟨r, k⟩
    let out' := boot sound cfg random ⟨r', k'⟩
    out.1 = out'.1 ∧ out.2.1 = out'.2.1 ∧
      Records.AgreeOn (Owns cfg.keySalt) out.2.2.records out'.2.2.records := by
  intro out out'
  have hheader := h.load cfg.owns_headerKey StoredHeader.codec.width
  cases hload : r.load cfg.headerKey StoredHeader.codec.width with
  | none =>
    have hboot : out = _ := boot_of_no_header cfg sound ⟨r, k⟩ random hload
    have hboot' : out' = _ := boot_of_no_header cfg sound ⟨r', k'⟩ random (hheader.symm.trans hload)
    rw [hboot, hboot', writeIndex_eq_saveAll, saveAll_sound, writeIndex_eq_saveAll, saveAll_sound]
    exact ⟨rfl, rfl, h.apply _⟩
  | some header =>
    have hboot : out = _ := boot_of_header cfg sound ⟨r, k⟩ random hload
    have hboot' : out' = _ := boot_of_header cfg sound ⟨r', k'⟩ random (hheader.symm.trans hload)
    have hsame : (configure cfg).readHeader r.load header = (configure cfg).readHeader r'.load header :=
      readHeader_same (fun key hkey len => h.load hkey len) header
    have hreport := congrArg Prod.fst hsame
    have hstore := congrArg Prod.snd hsame
    rw [hboot, hboot']
    exact ⟨hreport, hstore, h⟩

/-! ## A store writes only its own records -/

section Write

variable {s next undone : CommandStore} {payload : Option Nat} {op : Op}

/-- An operation keeps the configuration and the length of the slot array, and the payload it
    writes is that of an existing slot. -/
theorem sized_of_write (hs : s.Sized) (h : op.plan s = .write payload next undone) :
    next.config = s.config ∧ next.Sized ∧ ∀ i, payload = some i → i < s.slots.length := by
  have hset : ∀ {t : CommandStore} {i : Nat} {c : Command}, t.config = s.config →
      t.slots = s.slots.set i c → t.Sized := by
    intro t i c hconfig hslots
    rw [Sized, hslots, List.length_set, hconfig]
    exact hs
  cases op with
  | put c =>
    obtain ⟨-, -, -, -, slot, overwriting, id, rev, hslot, -, -, rfl, rfl, -⟩ := putPlan_eq_write h
    refine ⟨rfl, hset rfl rfl, fun i hi => ?_⟩
    obtain rfl := Option.some.inj hi
    rcases putSlot_eq_ok hslot with ⟨-, hfind, -⟩ | ⟨-, -, hfree, -⟩
    · exact lt_of_slot_occupied (findSlot_eq_some hfind).1
    · exact (findFreeSlot_eq_some hfree).1
  | rename id name =>
    obtain ⟨-, -, slot, rev, -, -, -, rfl, rfl, -⟩ := renamePlan_eq_write h
    exact ⟨rfl, hset rfl rfl, fun i hi => nomatch hi⟩
  | remove name =>
    obtain ⟨slot, -, h'⟩ := removePlan_eq_write h
    obtain ⟨-, slot', rev, -, -, rfl, rfl, -⟩ := removeByIdPlan_eq_write h'
    exact ⟨rfl, hset rfl rfl, fun i hi => nomatch hi⟩
  | removeById id =>
    obtain ⟨-, slot, rev, -, -, rfl, rfl, -⟩ := removeByIdPlan_eq_write h
    exact ⟨rfl, hset rfl rfl, fun i hi => nomatch hi⟩
  | clearAll =>
    obtain ⟨-, -, rev, -, rfl, rfl, -⟩ := clearAllPlan_eq_write h
    exact ⟨rfl, List.length_replicate, fun i hi => nomatch hi⟩
  | factoryReset random =>
    obtain ⟨-, rfl, rfl, -⟩ := factoryResetPlan_eq_write h
    exact ⟨rfl, List.length_replicate, fun i hi => nomatch hi⟩
  | restoreBegin bridgeId id =>
    obtain ⟨-, -, -, -, rev, -, rfl, rfl, -⟩ := restoreBeginPlan_eq_write h
    exact ⟨rfl, hs, fun i hi => nomatch hi⟩
  | importCommand c =>
    obtain ⟨-, -, -, -, -, -, -, slot, rev, hfree, -, -, rfl, rfl, -⟩ := importCommandPlan_eq_write h
    refine ⟨rfl, hset rfl rfl, fun i hi => ?_⟩
    obtain rfl := Option.some.inj hi
    exact (findFreeSlot_eq_some hfree).1
  | restoreCommit source =>
    obtain ⟨-, -, -, rev, -, rfl, rfl, -⟩ := restoreCommitPlan_eq_write h
    exact ⟨rfl, hs, fun i hi => nomatch hi⟩

/-- The saves for a store go to the keys of its instance. -/
theorem records_owned (next : CommandStore) (hslot : ∀ i, payload = some i → i < 255) :
    ∀ w ∈ next.records payload, Owns next.config.keySalt w.1 := by
  intro w hw
  rcases List.mem_append.mp hw with hpay | hindex
  · obtain ⟨i, hi, rfl⟩ := Option.map_eq_some_iff.mp (Option.mem_toList.mp hpay)
    exact next.config.owns_payloadKey (hslot i hi)
  · rcases List.mem_cons.mp hindex with rfl | hheader
    · exact next.config.owns_indexKey
    · rw [List.mem_singleton.mp hheader]
      exact next.config.owns_headerKey

end Write

end CommandStore

/-! ## One instance -/

namespace Session

open CommandStore

/-- The saves of one event, all of which land. -/
def writes (x : Session) : Event → List (UInt32 × Bytes)
  | .op op =>
    match op.plan x.store with
    | .stop _ => []
    | .write payload next _ => next.records payload
  | .reboot cfg random =>
    if (x.flash.records.load cfg.headerKey StoredHeader.codec.width).isSome then []
    else ((configure cfg).mintIdentity random).indexRecords

/-- Where every save lands, an event does to the flash what its saves say. -/
theorem records_step (x : Session) (e : Event) :
    (step (fun _ => true) x e).flash.records = x.flash.records.apply (x.writes e) := by
  cases e with
  | op op =>
    rw [writes]
    cases hplan : op.plan x.store with
    | stop result => rw [step_of_stop _ hplan]; rfl
    | write payload next undone =>
      exact ((step_cases (fun _ => true) hplan).resolve_right
        fun ⟨_, _, n, _, _, _, hfail⟩ => Bool.noConfusion hfail).2.2
  | reboot cfg random =>
    rw [writes]
    cases hload : x.flash.records.load cfg.headerKey StoredHeader.codec.width with
    | none => exact records_boot_fresh hload random
    | some header =>
      exact congrArg (fun out => out.2.2.records)
        (boot_of_header cfg (sound : StorageBackend UInt32 (Fake UInt32)) x.flash random hload)

/-- The salt an instance keeps, and the length of its slot array. -/
structure Salted (salt : UInt32) (s : CommandStore) : Prop where
  salt : s.config.keySalt = salt
  sized : s.Sized

section Salted

variable {salt : UInt32} {x y : Session} {e : Event}

theorem salted_boot (cfg : Config) (random : Option BridgeId) (flash : Fake UInt32) :
    Salted cfg.keySalt (boot (fun _ => true) cfg random flash).store := by
  have hconfigured : (configure cfg).Sized := List.length_replicate
  cases hload : flash.records.load cfg.headerKey StoredHeader.codec.width with
  | none =>
    have hstore : (boot (fun _ => true) cfg random flash).store = (configure cfg).mintIdentity random :=
      congrArg (fun out => out.2.1)
        (boot_of_no_header cfg (sound : StorageBackend UInt32 (Fake UInt32)) flash random hload)
    rw [hstore]
    exact ⟨rfl, hconfigured⟩
  | some header =>
    have hstore : (boot (fun _ => true) cfg random flash).store
        = ((configure cfg).readHeader flash.records.load header).2 :=
      congrArg (fun out => out.2.1)
        (boot_of_header cfg (sound : StorageBackend UInt32 (Fake UInt32)) flash random hload)
    rw [hstore]
    exact ⟨congrArg Config.keySalt (readHeader_keeps _ (configure cfg) header).1,
      readHeader_sized _ hconfigured header⟩

/-- Every event keeps the salt. -/
theorem Salted.step (h : Salted salt x.store) (he : e.Under fun cfg => cfg.keySalt = salt) :
    Salted salt (step (fun _ => true) x e).store := by
  cases e with
  | op op =>
    cases hplan : op.plan x.store with
    | stop result =>
      rw [step_of_stop _ hplan]
      exact h
    | write payload next undone =>
      obtain ⟨-, hstore, -⟩ := (step_cases (fun _ => true) hplan).resolve_right
        fun ⟨_, _, n, _, _, _, hfail⟩ => Bool.noConfusion hfail
      obtain ⟨hconfig, hsized, -⟩ := sized_of_write h.sized hplan
      rw [hstore]
      exact ⟨(congrArg Config.keySalt hconfig).trans h.salt, hsized⟩
  | reboot cfg random =>
    obtain rfl : cfg.keySalt = salt := he
    exact salted_boot cfg random x.flash

/-- **An instance writes only under its own keys.** -/
theorem writes_owned (h : Salted salt x.store) (he : e.Under fun cfg => cfg.keySalt = salt) :
    ∀ w ∈ x.writes e, Owns salt w.1 := by
  intro w hw
  cases e with
  | op op =>
    rw [writes] at hw
    cases hplan : op.plan x.store with
    | stop result =>
      rw [hplan] at hw
      cases hw
    | write payload next undone =>
      rw [hplan] at hw
      obtain ⟨hconfig, -, hslot⟩ := sized_of_write h.sized hplan
      have hmax : x.store.config.maxCommands.toNat < 256 := x.store.config.maxCommands.toNat_lt
      have hlen : x.store.slots.length = x.store.config.maxCommands.toNat := h.sized
      have howned := records_owned next (fun i hi => by
        have hlt := hslot i hi
        omega) w hw
      rwa [hconfig, h.salt] at howned
  | reboot cfg random =>
    obtain rfl : cfg.keySalt = salt := he
    rw [writes] at hw
    split at hw
    · cases hw
    · have hnone : ∀ i, (none : Option Nat) = some i → i < 255 := fun i hi => nomatch hi
      exact records_owned ((configure cfg).mintIdentity random) hnone w hw

/-- **An instance that finds the same records under its own keys does the same.** -/
theorem step_congr (hstore : x.store = y.store)
    (hflash : Records.AgreeOn (Owns salt) x.flash.records y.flash.records)
    (he : e.Under fun cfg => cfg.keySalt = salt) :
    (step (fun _ => true) x e).store = (step (fun _ => true) y e).store ∧
    Records.AgreeOn (Owns salt) (step (fun _ => true) x e).flash.records
      (step (fun _ => true) y e).flash.records := by
  cases e with
  | op op =>
    have hwrites : x.writes (.op op) = y.writes (.op op) := by rw [writes, writes, hstore]
    rw [records_step, records_step, hwrites]
    refine ⟨?_, hflash.apply _⟩
    cases hplan : op.plan x.store with
    | stop result =>
      rw [step_of_stop _ hplan, step_of_stop _ (hstore ▸ hplan)]
      exact hstore
    | write payload next undone =>
      have hall : ∀ {z : Session}, op.plan z.store = .write payload next undone →
          (Session.step (fun _ => true) z (.op op)).store = next := fun hplan =>
        ((step_cases (fun _ => true) hplan).resolve_right
          fun ⟨_, _, n, _, _, _, hfail⟩ => Bool.noConfusion hfail).2.1
      rw [hall hplan, hall (hstore ▸ hplan)]
  | reboot cfg random =>
    obtain rfl : cfg.keySalt = salt := he
    exact (boot_congr hflash random x.flash.attempts y.flash.attempts).2

end Salted

end Session

/-! ## Two instances -/

/-- Two stores in RAM, told apart by a `Bool`, over one flash. -/
structure Shared where
  store : Bool → CommandStore
  flash : Fake UInt32

namespace Shared

open CommandStore

/-- An event of one of the two. -/
abbrev Event := Bool × RfCloner.Event

/-- What one instance makes of the flash. -/
def session (x : Shared) (who : Bool) : Session := ⟨x.store who, x.flash⟩

/-- One event: the instance it belongs to and the flash go on, the other store waits. -/
def step (x : Shared) (e : Event) : Shared :=
  let y := Session.step (fun _ => true) (x.session e.1) e.2
  { store := Function.update x.store e.1 y.store, flash := y.flash }

/-- A run of both instances. -/
def run (x : Shared) (events : List Event) : Shared := events.foldl step x

/-- Both instances configured, over a blank flash. -/
def start (cfg : Bool → Config) : Shared := ⟨fun who => configure (cfg who), Session.blank⟩

/-- The events of one of the two. -/
def eventsOf (who : Bool) (events : List Event) : List RfCloner.Event :=
  (events.filter fun e => e.1 == who).map Prod.snd

/-- The same run without the other instance. -/
def alone (cfg : Bool → Config) (who : Bool) (events : List Event) : Session :=
  Session.run (fun _ => true) ⟨configure (cfg who), Session.blank⟩ (eventsOf who events)

/-- **The instances do not notice each other**: after every interleaved run of operations and
    reboots, whatever the limits they are configured with, each has in RAM what it would have alone,
    every operation returns what it would return alone, and every boot reports and loads what it
    would alone. -/
def Isolated (salt : Bool → UInt32) : Prop :=
  ∀ cfg : Bool → Config, (∀ who, (cfg who).keySalt = salt who) →
  ∀ events : List Event, (∀ e ∈ events, e.2.Under fun c => c.keySalt = salt e.1) →
  ∀ who : Bool,
    let x := run (start cfg) events
    let y := alone cfg who events
    x.store who = y.store ∧
    (∀ op : Op, (op.run sound (x.store who) x.flash).1 = (op.run sound y.store y.flash).1) ∧
    (∀ (c : Config) (random : Option BridgeId), c.keySalt = salt who →
      (boot sound c random x.flash).1 = (boot sound c random y.flash).1 ∧
      (boot sound c random x.flash).2.1 = (boot sound c random y.flash).2.1)

/-- One instance as it would be alone, as far as it can see. -/
structure Unnoticed (salt : Bool → UInt32) (who : Bool) (x : Shared) (y : Session) : Prop where
  store : x.store who = y.store
  flash : Records.AgreeOn (Owns (salt who)) x.flash.records y.flash.records

section Frame

variable {salt : Bool → UInt32} {who : Bool} {x : Shared} {y : Session}

theorem store_step_self (x : Shared) (e : Event) :
    (x.step e).store e.1 = (Session.step (fun _ => true) (x.session e.1) e.2).store :=
  Function.update_self ..

theorem store_step_other (x : Shared) {e : Event} (hwho : who ≠ e.1) :
    (x.step e).store who = x.store who :=
  Function.update_of_ne hwho ..

/-- An event of the instance itself. -/
theorem Unnoticed.own (h : Unnoticed salt who x y) {e : RfCloner.Event}
    (he : e.Under fun c => c.keySalt = salt who) :
    Unnoticed salt who (x.step (who, e)) (Session.step (fun _ => true) y e) := by
  obtain ⟨hstore, hflash⟩ := Session.step_congr (x := x.session who) h.store h.flash he
  exact ⟨(store_step_self x (who, e)).trans hstore, hflash⟩

/-- An event of the other instance, whose keys are different. -/
theorem Unnoticed.other (h : Unnoticed salt who x y) (hdisj : KeysDisjoint salt)
    (hsalted : Session.Salted (salt !who) (x.store !who)) {e : RfCloner.Event}
    (he : e.Under fun c => c.keySalt = salt !who) : Unnoticed salt who (x.step (!who, e)) y := by
  have hne : who ≠ !who := by cases who <;> decide
  refine ⟨(store_step_other x hne).trans h.store, ?_⟩
  show Records.AgreeOn _ (Session.step (fun _ => true) (x.session !who) e).flash.records _
  rw [Session.records_step]
  exact h.flash.apply_other fun w hw => hdisj.not_owns (Session.writes_owned hsalted he w hw)

theorem salted_step (h : ∀ who, Session.Salted (salt who) (x.store who)) {e : Event}
    (he : e.2.Under fun c => c.keySalt = salt e.1) :
    ∀ who, Session.Salted (salt who) ((x.step e).store who) := by
  intro who
  by_cases hwho : who = e.1
  · subst hwho
    rw [store_step_self]
    exact Session.Salted.step (x := x.session e.1) (h e.1) he
  · rw [store_step_other x hwho]
    exact h who

/-- The frame of a whole run.  Induction on the events: each belongs to one instance or the other. -/
theorem Unnoticed.run (hdisj : KeysDisjoint salt) {events : List Event}
    (hevents : ∀ e ∈ events, e.2.Under fun c => c.keySalt = salt e.1) :
    ∀ {x : Shared} {y : Session}, (∀ who, Session.Salted (salt who) (x.store who)) →
    Unnoticed salt who x y →
    Unnoticed salt who (x.run events) (Session.run (fun _ => true) y (eventsOf who events)) := by
  induction events with
  | nil => exact fun _ h => h
  | cons e events ih =>
    intro x y hsalted h
    obtain ⟨which, e⟩ := e
    have he := hevents (which, e) List.mem_cons_self
    have hrest := @ih (fun e he => hevents e (List.mem_cons_of_mem _ he)) (x.step (which, e))
    have hnext := salted_step hsalted (e := (which, e)) he
    by_cases hwho : which = who
    · subst hwho
      rw [eventsOf, List.filter_cons_of_pos (by simp), List.map_cons]
      exact hrest hnext (h.own he)
    · obtain rfl : which = !who := Bool.eq_not_of_ne hwho
      rw [eventsOf, List.filter_cons_of_neg (by simp)]
      exact hrest hnext (h.other hdisj (hsalted !who) he)

end Frame

/-- **Instances with disjoint keys are isolated.** -/
theorem isolated_of_disjoint {salt : Bool → UInt32} (hdisj : KeysDisjoint salt) : Isolated salt := by
  intro cfg hcfg events hevents who x y
  have hstart : ∀ who, Session.Salted (salt who) ((start cfg).store who) := fun who =>
    ⟨hcfg who, List.length_replicate⟩
  have h : Unnoticed salt who x y := Unnoticed.run hdisj hevents hstart ⟨rfl, fun _ _ => rfl⟩
  refine ⟨h.store, fun op => ?_, fun c random hc => ?_⟩
  · rw [h.store]
    cases hplan : op.plan y.store with
    | stop result => rw [Op.run_of_stop hplan, Op.run_of_stop hplan]
    | write payload next undone =>
      rw [run_of_write _ hplan, run_of_write _ hplan, saveAll_sound, saveAll_sound]
      rfl
  · have hflash : Records.AgreeOn (Owns c.keySalt) x.flash.records y.flash.records := hc ▸ h.flash
    obtain ⟨hreport, hstore, -⟩ := boot_congr hflash random x.flash.attempts y.flash.attempts
    exact ⟨hreport, hstore⟩

end Shared

end RfCloner
