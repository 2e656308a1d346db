/-
  Polls that are not trusted leave no trace.

  A poll under a foreign identity, or with a restore open, changes nothing that is kept.  But it does
  change what the coordinator holds and the reconciler's mark, and a later entry update reads both.
  `freeze_noninterference` compares a run with the run in which those polls never happened.
-/
import RfCloner.Hass.Mirror

namespace RfCloner

open CommandReconciler

/-- What happens to the mirror of one bridge. -/
inductive MirrorEvent (ρ : Type)
  | poll (status : BridgeStatus) (now : Timestamp) (answers : Nat → Int → ExportResult)
  | update (subentries : List ConfigSubentry) (touch : ρ → ρ) (acceptsUserRemovals : Bool)

/-- A status that is evidence of what the bridge `B` has. -/
def BridgeStatus.Trusted (B : Str) (status : BridgeStatus) : Prop :=
  status.bridgeId = B ∧ status.restoreIncomplete = false

instance (B : Str) (status : BridgeStatus) : Decidable (status.Trusted B) :=
  inferInstanceAs (Decidable (_ ∧ _))

/-- The event is not a poll that has to be ignored. -/
def MirrorEvent.trusted {ρ : Type} (B : Str) : MirrorEvent ρ → Bool
  | poll status _ _ => status.Trusted B
  | update .. => true

namespace Mirror

variable {ρ : Type} (R : EntityRegistry ρ)

/-- A mirror that has read no status yet, of an entry that has adopted the identity `B`. -/
def new (B : Str) (entry : ConfigEntry) (registry : ρ) (snapshot : Option Snapshot) : Mirror ρ where
  reconciler := .new entry registry
  snapshots := ⟨B, snapshot⟩
  data := none

/-- One event. -/
def step (x : Mirror ρ) : MirrorEvent ρ → Mirror ρ
  | .poll status now answers => x.poll R status now answers
  | .update subentries touch accepts => x.update subentries touch accepts

/-- A run. -/
def run (x : Mirror ρ) (events : List (MirrorEvent ρ)) : Mirror ρ := events.foldl (step R) x

/-! ## The simulation -/

/-- `x` has seen every poll, `y` only those to be trusted.  They keep the same; and `x` either holds
    the status that `y` holds, or one that is not a usable listing.  That makes no difference to `y`,
    whose last listing covers its metadata. -/
structure Follows (B : Str) (x y : Mirror ρ) : Prop where
  reconciler : x.reconciler = { y.reconciler with
    identityMismatch := x.reconciler.identityMismatch }
  snapshots : x.snapshots = y.snapshots
  uniqueId : y.reconciler.entry.uniqueId = some B
  manager : y.snapshots.bridgeId = B
  calm : y.reconciler.identityMismatch = false
  listed : ∀ status, y.data = some status → status.restoreIncomplete = false ∧
    Covers y.reconciler.entry (status.commands.map CommandInfo.commandId)
  data : x.reconciler.identityMismatch = false ∧ x.data = y.data ∨
    x.reconciler.asyncListedCommands x.data = none

variable {R} {B : Str} {x y : Mirror ρ} {status : BridgeStatus} {now : Timestamp}
  {answers : Nat → Int → ExportResult}

/-- The mark of a foreign identity does not outlast the next status. -/
theorem asyncReconcile_mark (r : CommandReconciler ρ) (mark : Bool) :
    ({ r with identityMismatch := mark } : CommandReconciler ρ).asyncReconcile R status
      = r.asyncReconcile R status := rfl

/-- **An ignored poll** is followed by doing nothing. -/
theorem Follows.ignored (h : Follows B x y) (hignored : ¬ status.Trusted B) :
    Follows B (x.poll R status now answers) y := by
  have hx : x.reconciler.entry.uniqueId = some B := by
    rw [h.reconciler]
    exact h.uniqueId
  have hmanager : x.snapshots.bridgeId = B := by
    rw [h.snapshots]
    exact h.manager
  have hmark (mark : Bool) : ({ x.reconciler with identityMismatch := mark } : CommandReconciler ρ)
      = { y.reconciler with identityMismatch := mark } := by
    rw [h.reconciler]
  by_cases hid : status.bridgeId = B
  · -- The bridge's own status, with a restore open: the mark is gone, but the status has no listing.
    have hopen : status.restoreIncomplete = true := by
      rw [← Bool.not_eq_false]
      exact fun hclosed => hignored ⟨hid, hclosed⟩
    rw [poll_of_incomplete hx hid hopen]
    refine ⟨hmark false, h.snapshots, h.uniqueId, h.manager, h.calm, h.listed, Or.inr ?_⟩
    unfold asyncListedCommands
    simp [hopen]
  · rw [poll_of_foreign hx hmanager hid]
    exact ⟨hmark true, h.snapshots, h.uniqueId, h.manager, h.calm, h.listed, Or.inr rfl⟩

/-- **A trusted poll** does the same to both. -/
theorem Follows.trusted (h : Follows B x y) (htrusted : status.Trusted B) :
    Follows B (x.poll R status now answers) (y.poll R status now answers) := by
  obtain ⟨hid, hopen⟩ := htrusted
  have hsame : x.poll R status now answers = y.poll R status now answers := by
    unfold poll handleStatus
    dsimp only
    rw [h.reconciler, asyncReconcile_mark, h.snapshots]
  obtain ⟨-, hentry⟩ := asyncReconcile_eq (R := R) h.uniqueId hid hopen
  have hcalm : (y.reconciler.asyncReconcile R status).identityMismatch = false :=
    identityMismatch_asyncReconcile h.uniqueId hid
  rw [hsame]
  refine ⟨rfl, rfl, ?_, ?_, hcalm, ?_, Or.inl ⟨hcalm, rfl⟩⟩
  · show (y.reconciler.asyncReconcile R status).entry.uniqueId = some B
    rw [hentry, (entryId_prunedTo _ _ _).2.1]
    exact h.uniqueId
  · show (y.snapshots.asyncRefresh status now answers).bridgeId = B
    rw [SnapshotManager.bridgeId_asyncRefresh]
    exact h.manager
  · intro status' h'
    obtain rfl : status = status' := Option.some.inj h'
    exact ⟨hopen, covers_asyncReconcile h.uniqueId hid hopen⟩

/-- What the side without ignored polls prunes, it would prune without a listing. -/
theorem prunedTo_asyncListedCommands {r : CommandReconciler ρ} {data : Option BridgeStatus}
    {entry : ConfigEntry} (hcalm : r.identityMismatch = false)
    (hlisted : ∀ status, data = some status → status.restoreIncomplete = false ∧
      Covers entry (status.commands.map CommandInfo.commandId)) (below : Option Int) :
    entry.prunedTo (r.asyncListedCommands data) below = entry.prunedTo none none := by
  cases data with
  | none => rfl
  | some status =>
    obtain ⟨hopen, hcovers⟩ := hlisted status rfl
    have hlisting : r.asyncListedCommands (some status)
        = some (status.commands.map CommandInfo.commandId) := by
      unfold asyncListedCommands
      simp [hcalm, hopen]
    rw [hlisting]
    exact hcovers.prunedTo_eq _ _

/-- **A change of targets** does the same to both: where only `y` has a listing to prune against, the
    listing covers what there is to prune. -/
theorem Follows.update (h : Follows B x y) (subentries : List ConfigSubentry) (touch : ρ → ρ)
    (accepts : Bool) :
    Follows B (x.update subentries touch accepts) (y.update subentries touch accepts) := by
  obtain ⟨r, snapshots, data⟩ := x
  obtain ⟨r', snapshots', data'⟩ := y
  obtain ⟨hr, rfl, huniqueId, hmanager, hcalm, hlisted, hdata⟩ := h
  dsimp only at hr huniqueId hmanager hcalm hlisted hdata
  cases accepts with
  | false =>
    refine ⟨?_, rfl, huniqueId, hmanager, hcalm, hlisted, hdata⟩
    unfold Mirror.update asyncHandleEntryUpdate
    dsimp only
    rw [hr]
    rfl
  | true =>
    let entry : ConfigEntry := { r'.entry with subentries := subentries }
    have hcovers : ∀ status, data' = some status → status.restoreIncomplete = false ∧
        Covers entry (status.commands.map CommandInfo.commandId) := hlisted
    have hblind (below : Option Int) : entry.prunedTo (r'.asyncListedCommands data') below
        = entry.prunedTo none none := prunedTo_asyncListedCommands hcalm hcovers below
    have hy : (Mirror.update ⟨r', snapshots, data'⟩ subentries touch true).reconciler.entry
        = entry.prunedTo none none := hblind _
    have hsame : entry.prunedTo (r.asyncListedCommands data)
        (data.map BridgeStatus.nextCommandId) = entry.prunedTo none none := by
      rcases hdata with ⟨hmark, rfl⟩ | hnone
      · -- both last heard the same status, or what `x` heard lists nothing
        have hlisting : r.asyncListedCommands data = r'.asyncListedCommands data := by
          unfold asyncListedCommands
          rw [hmark, hcalm]
        rw [hlisting]
        exact hblind _
      · rw [hnone]
        rfl
    have hx : (Mirror.update ⟨r, snapshots, data⟩ subentries touch true).reconciler.entry
        = entry.prunedTo none none := by
      rw [← hsame]
      show ConfigEntry.prunedTo { r.entry with subentries := subentries } _ _ = _
      rw [hr]
      rfl
    refine ⟨?_, rfl, ?_, hmanager, hcalm, ?_, hdata⟩
    · -- The entries agree, and nothing else depends on the listing.
      have hentries := hx.trans hy.symm
      unfold Mirror.update asyncHandleEntryUpdate at hentries ⊢
      simp only [Bool.not_true, Bool.false_eq_true, if_false] at hentries ⊢
      rw [hentries, hr]
      rfl
    · rw [hy, (entryId_prunedTo _ _ _).2.1]
      exact huniqueId
    · intro status hstatus
      obtain ⟨hopen, hcover⟩ := hcovers status hstatus
      rw [hy]
      exact ⟨hopen, hcover.prunedTo _ _⟩

/-- **A run is followed by the run of its trusted events.** -/
theorem Follows.run (h : Follows B x y) (events : List (MirrorEvent ρ)) :
    Follows B (x.run R events) (y.run R (events.filter (MirrorEvent.trusted B))) := by
  induction events generalizing x y with
  | nil => exact h
  | cons event events ih =>
    cases event with
    | poll status now answers =>
      by_cases htrusted : status.Trusted B
      · rw [List.filter_cons_of_pos (by simpa [MirrorEvent.trusted] using htrusted)]
        exact ih (h.trusted htrusted)
      · rw [List.filter_cons_of_neg (by simpa [MirrorEvent.trusted] using htrusted)]
        exact ih (h.ignored htrusted)
    | update subentries touch accepts =>
      rw [List.filter_cons_of_pos rfl]
      exact ih (h.update subentries touch accepts)

theorem follows_new {entry : ConfigEntry} (hB : entry.uniqueId = some B) (registry : ρ)
    (snapshot : Option Snapshot) :
    Follows B (new B entry registry snapshot) (new B entry registry snapshot) where
  reconciler := rfl
  snapshots := rfl
  uniqueId := hB
  manager := rfl
  calm := rfl
  listed := by
    intro status h
    cases h
  data := Or.inl ⟨rfl, rfl⟩

/-- **Freeze non-interference.**  Of any sequence of polls and changes of targets, the options of the
    entry, the entity records and the replica come out as if no poll under a foreign identity and no
    poll with a restore open had ever happened. -/
theorem freeze_noninterference (R : EntityRegistry ρ) {B : Str} {entry : ConfigEntry}
    (hB : entry.uniqueId = some B) (registry : ρ) (snapshot : Option Snapshot)
    (events : List (MirrorEvent ρ)) :
    let seen := (new B entry registry snapshot).run R events
    let trusted := (new B entry registry snapshot).run R (events.filter (MirrorEvent.trusted B))
    seen.reconciler.entry.options = trusted.reconciler.entry.options ∧
    seen.reconciler.registry = trusted.reconciler.registry ∧
    seen.snapshots.snapshot = trusted.snapshots.snapshot := by
  intro seen trusted
  have h := (follows_new hB registry snapshot).run (R := R) events
  have hreconciler : seen.reconciler = { trusted.reconciler with
      identityMismatch := seen.reconciler.identityMismatch } := h.reconciler
  refine ⟨?_, ?_, congrArg SnapshotManager.snapshot h.snapshots⟩
  · rw [hreconciler]
  · rw [hreconciler]

/-- A bridge with two commands: the first is on a target and has an icon, and both have an entity
    record and a place in the replica. -/
def settled : Mirror { l : List RegistryEntry // (l.map RegistryEntry.entityId).Nodup } :=
  new (str "b")
    { entryId := str "e"
      uniqueId := some (str "b")
      options := [(optCommands, .dict [(str "1",
        .dict [(confTargetId, .str (str "t")), (confIcon, .str (str "mdi:fan"))])])]
      subentries := [⟨str "s", subentryTypeTarget, str "Fan", [(confTargetId, .str (str "t"))]⟩] }
    ⟨[⟨str "button.on", commandUniqueId (str "b") 1, str "e"⟩,
      ⟨str "button.off", commandUniqueId (str "b") 2, str "e"⟩], by decide +kernel⟩
    (some ⟨str "b", 3, 3, 0, [⟨1, str "b", 1, str "on", 0, 0, 0, 0, [350, -1050]⟩,
      ⟨1, str "b", 2, str "off", 0, 0, 0, 0, [350, -350]⟩]⟩)

/-- What its device reports. -/
def settledStatus : BridgeStatus :=
  ⟨str "b", 3, 3, false, false, str "none", str "ok", 2, 4, 200, 128, 4096,
    [⟨1, str "on", 2⟩, ⟨2, str "off", 2⟩]⟩

/-- Two empty listings, of a foreign device and of an open restore, around the removal of the target:
    the target is what goes, and the icon, the records and the waveforms stay. -/
theorem freeze_noninterference_foreign_then_removed :
    let events : List (MirrorEvent { l : List RegistryEntry //
        (l.map RegistryEntry.entityId).Nodup }) :=
      [.poll settledStatus 0 fun _ _ => .raises,
        .poll { settledStatus with bridgeId := str "x", revision := 7, commands := [] } 1
          fun _ _ => .raises,
        .update [] id true,
        .poll { settledStatus with revision := 4, restoreIncomplete := true, commands := [] } 2
          fun _ _ => .raises]
    let seen := settled.run EntityRegistry.listed events
    let trusted := settled.run EntityRegistry.listed (events.filter (MirrorEvent.trusted (str "b")))
    metaFor seen.reconciler.entry 1 = some ⟨none, some (str "mdi:fan")⟩ ∧
      seen.reconciler.registry = settled.reconciler.registry ∧
      seen.snapshots.snapshot = settled.snapshots.snapshot ∧
    seen.reconciler.entry.options = trusted.reconciler.entry.options ∧
      seen.reconciler.registry = trusted.reconciler.registry ∧
      seen.snapshots.snapshot = trusted.snapshots.snapshot := by
  intro events seen trusted
  have hB : settled.reconciler.entry.uniqueId = some (str "b") := rfl
  obtain ⟨hoptions, hregistry, hsnapshot⟩ :=
    freeze_noninterference EntityRegistry.listed hB settled.reconciler.registry
      settled.snapshots.snapshot events
  exact ⟨by decide +kernel, by decide +kernel, by decide +kernel, hoptions, hregistry, hsnapshot⟩

end Mirror

end RfCloner
