/-
  A lock that is taken in turn (`asyncio.Lock`).

  A task that finds the lock taken goes into a queue.  Letting the lock go wakes the first of the
  queue, but the task runs only later, and until then the lock is free: others may ask for it, and
  tasks of the queue may be cancelled, the one that was woken among them.  A cancelled task stays in
  the queue until it runs.

  `Turns` is the lock with who holds it and who has been served.  `Fair` is what every call keeps:
  nobody is served before a task that has asked earlier and was not cancelled, and a free lock never
  has a queue of which the first is not about to run.
-/
import Mathlib.Data.List.Basic
import Mathlib.Order.Basic

/-- A task in the queue. -/
structure Waiter (τ : Type) where
  task : τ
  woken : Bool := false
  cancelled : Bool := false
  deriving DecidableEq

/-- The task is about to run. -/
def Waiter.done {τ : Type} (w : Waiter τ) : Bool := w.woken || w.cancelled

/-- What `_wake_up_first` does to the first. -/
def Waiter.wake {τ : Type} (w : Waiter τ) : Waiter τ := if w.done then w else { w with woken := true }

namespace Waiter

variable {τ : Type} (w : Waiter τ)

@[simp] theorem task_wake : w.wake.task = w.task := by
  unfold wake
  split <;> rfl

@[simp] theorem cancelled_wake : w.wake.cancelled = w.cancelled := by
  unfold wake
  split <;> rfl

@[simp] theorem done_wake : w.wake.done = true := by
  unfold wake
  split
  · assumption
  · rfl

end Waiter

structure AsyncLock (τ : Type) where
  locked : Bool := false
  waiters : List (Waiter τ) := []
  deriving DecidableEq

namespace AsyncLock

variable {τ : Type}

/-- `_wake_up_first`. -/
def wakeUpFirst (l : AsyncLock τ) : AsyncLock τ :=
  { l with waiters := l.waiters.modifyHead Waiter.wake }

/-- `acquire`, until it returns or waits. -/
def acquire (t : τ) (l : AsyncLock τ) : Bool × AsyncLock τ :=
  if l.locked = false ∧ l.waiters.all (fun w => w.cancelled && !w.woken) then
    (true, { l with locked := true })
  else (false, { l with waiters := l.waiters ++ [{ task := t }] })

/-- `release`. -/
def release (l : AsyncLock τ) : AsyncLock τ := wakeUpFirst { l with locked := false }

section Tasks

variable [DecidableEq τ]

/-- A waiting task is cancelled. -/
def cancel (t : τ) (l : AsyncLock τ) : AsyncLock τ :=
  { l with
    waiters := l.waiters.map fun w => if w.task = t then { w with cancelled := true } else w }

/-- `acquire` goes on: whether it returns or raises, if the task was about to run. -/
def resume (t : τ) (l : AsyncLock τ) : Option (Bool × AsyncLock τ) :=
  match l.waiters.find? fun w => w.task = t with
  | none => none
  | some w =>
    let rest : AsyncLock τ := { l with waiters := l.waiters.eraseP fun w => w.task = t }
    if !w.done then none
    else if w.cancelled then some (false, if l.locked then rest else rest.wakeUpFirst)
    else some (true, { rest with locked := true })

variable {l l' : AsyncLock τ} {t : τ} {granted : Bool}

/-- A task that runs was about to, and leaves the queue: it has the lock, or it was cancelled. -/
theorem resume_cases (h : l.resume t = some (granted, l')) :
    ∃ w ∈ l.waiters, w.task = t ∧
      ((granted = true ∧ w.woken = true ∧ w.cancelled = false ∧
        l' = { locked := true, waiters := l.waiters.eraseP fun w => w.task = t }) ∨
      (granted = false ∧ w.cancelled = true ∧
        l' = if l.locked then { l with waiters := l.waiters.eraseP fun w => w.task = t }
          else wakeUpFirst { l with waiters := l.waiters.eraseP fun w => w.task = t })) := by
  unfold resume at h
  cases hfind : l.waiters.find? fun w => w.task = t with
  | none =>
    rw [hfind] at h
    cases h
  | some w =>
    rw [hfind] at h
    have htask : decide (w.task = t) = true :=
      List.find?_some (p := fun w : Waiter τ => decide (w.task = t)) hfind
    refine ⟨w, List.mem_of_find?_eq_some hfind, of_decide_eq_true htask, ?_⟩
    dsimp only at h
    split at h
    · cases h
    · rename_i hdone
      split at h
      · rename_i hcancelled
        obtain ⟨rfl, rfl⟩ := Prod.mk.inj (Option.some.inj h)
        exact Or.inr ⟨rfl, hcancelled, rfl⟩
      · rename_i hkept
        obtain ⟨rfl, rfl⟩ := Prod.mk.inj (Option.some.inj h)
        have hcancelled : w.cancelled = false := Bool.not_eq_true _ ▸ hkept
        refine Or.inl ⟨rfl, ?_, hcancelled, rfl⟩
        have hdone : (w.woken || w.cancelled) = true := by
          rwa [Bool.not_eq_true', Bool.not_eq_false] at hdone
        rwa [hcancelled, Bool.or_false] at hdone

end Tasks

/-- Taking one out of the queue brings nobody from behind the first to before him. -/
theorem mem_tail_of_mem_tail_eraseP {p : Waiter τ → Bool} {ws : List (Waiter τ)} {v : Waiter τ}
    (h : v ∈ (ws.eraseP p).tail) : v ∈ ws.tail := by
  cases ws with
  | nil => cases h
  | cons w rest =>
    cases hp : p w with
    | true =>
      rw [List.eraseP_cons_of_pos hp] at h
      exact List.mem_of_mem_tail h
    | false =>
      rw [List.eraseP_cons_of_neg (Bool.not_eq_true _ ▸ hp)] at h
      exact List.eraseP_sublist.subset h

end AsyncLock

/-- A lock, with the task that holds it and those that have been served. -/
structure Turns (τ : Type) where
  lock : AsyncLock τ := {}
  holder : Option τ := none
  served : List τ := []
  deriving DecidableEq

namespace Turns

variable {τ : Type}

def serve (x : Turns τ) (t : τ) (lock : AsyncLock τ) : Turns τ :=
  { lock := lock, holder := some t, served := x.served ++ [t] }

def ask (t : τ) (x : Turns τ) : Bool × Turns τ :=
  match x.lock.acquire t with
  | (true, lock) => (true, x.serve t lock)
  | (false, lock) => (false, { x with lock := lock })

def leave (x : Turns τ) : Turns τ := { x with lock := x.lock.release, holder := none }

section Tasks

variable [DecidableEq τ]

def cancel (t : τ) (x : Turns τ) : Turns τ := { x with lock := x.lock.cancel t }

def resume (t : τ) (x : Turns τ) : Option (Bool × Turns τ) :=
  match x.lock.resume t with
  | none => none
  | some (true, lock) => some (true, x.serve t lock)
  | some (false, lock) => some (false, { x with lock := lock })

end Tasks

/-- The tasks in the queue. -/
def waiting (x : Turns τ) : List τ := x.lock.waiters.map Waiter.task

section Effects

variable {x y : Turns τ} {t : τ} {granted : Bool}

/-- Waking changes who is about to run, and nothing about who waits. -/
theorem waiting_wakeUpFirst (l : AsyncLock τ) :
    l.wakeUpFirst.waiters.map Waiter.task = l.waiters.map Waiter.task := by
  obtain ⟨locked, waiters⟩ := l
  cases waiters with
  | nil => rfl
  | cons w rest =>
    show w.wake.task :: rest.map Waiter.task = _
    rw [Waiter.task_wake]
    rfl

@[simp] theorem waiting_leave : x.leave.waiting = x.waiting := waiting_wakeUpFirst _

/-- A task that has to wait. -/
theorem ask_queued (hask : (x.ask t).1 = false) :
    (x.ask t).2.holder = x.holder ∧ (x.ask t).2.served = x.served ∧
      (x.ask t).2.waiting = x.waiting ++ [t] := by
  unfold Turns.ask AsyncLock.acquire at hask ⊢
  by_cases hfree : x.lock.locked = false ∧ x.lock.waiters.all (fun w => w.cancelled && !w.woken) = true
  · rw [if_pos hfree] at hask
    cases hask
  · rw [if_neg hfree]
    exact ⟨rfl, rfl, List.map_append⟩

variable [DecidableEq τ]

@[simp] theorem waiting_cancel (t : τ) : (x.cancel t).waiting = x.waiting := by
  show (x.lock.waiters.map fun w => if w.task = t then { w with cancelled := true } else w).map
    Waiter.task = x.lock.waiters.map Waiter.task
  rw [List.map_map]
  refine List.map_congr_left fun w _ => ?_
  show (if w.task = t then { w with cancelled := true } else w).task = w.task
  split <;> rfl

theorem resume_lock (hresume : x.resume t = some (granted, y)) :
    ∃ lock, x.lock.resume t = some (granted, lock) ∧
      y = if granted then x.serve t lock else { x with lock := lock } := by
  unfold Turns.resume at hresume
  split at hresume
  · cases hresume
  · rename_i lock hlock
    obtain ⟨rfl, rfl⟩ := Prod.mk.inj (Option.some.inj hresume)
    exact ⟨lock, hlock, rfl⟩
  · rename_i lock hlock
    obtain ⟨rfl, rfl⟩ := Prod.mk.inj (Option.some.inj hresume)
    exact ⟨lock, hlock, rfl⟩

/-- A task that waited runs, and waits no longer. -/
theorem waiting_resume (hresume : x.resume t = some (granted, y)) :
    t ∈ x.waiting ∧ y.waiting = x.waiting.erase t ∧
      (granted = true → y.served = x.served ++ [t] ∧ y.holder = some t) ∧
      (granted = false → y.served = x.served ∧ y.holder = x.holder) := by
  obtain ⟨lock, hlock, rfl⟩ := resume_lock hresume
  have herase : (x.lock.waiters.eraseP fun w => w.task = t).map Waiter.task = x.waiting.erase t := by
    rw [waiting, List.erase_eq_eraseP', List.eraseP_map]
    rfl
  obtain ⟨w, hw, htask, hcase⟩ := AsyncLock.resume_cases hlock
  refine ⟨htask ▸ List.mem_map_of_mem hw, ?_, fun hgranted => ?_, fun hwithdrawn => ?_⟩
  · rcases hcase with ⟨rfl, -, -, rfl⟩ | ⟨rfl, -, rfl⟩
    · exact herase
    · rw [if_neg Bool.false_ne_true]
      show (if x.lock.locked = true then _ else _ : AsyncLock τ).waiters.map Waiter.task = _
      split
      · exact herase
      · rw [waiting_wakeUpFirst]
        exact herase
  · rw [if_pos hgranted]
    exact ⟨rfl, rfl⟩
  · rw [hwithdrawn, if_neg Bool.false_ne_true]
    exact ⟨rfl, rfl⟩

end Effects

/-! ## Nobody is cancelled -/

/-- Nobody in the queue has been cancelled. -/
def NoneCancelled (x : Turns τ) : Prop := ∀ w ∈ x.lock.waiters, w.cancelled = false

section NoneCancelled

variable {x y : Turns τ} {t : τ} {granted : Bool}

theorem NoneCancelled.leave (h : x.NoneCancelled) : x.leave.NoneCancelled := by
  intro w hw
  change w ∈ x.lock.waiters.modifyHead Waiter.wake at hw
  cases hwaiters : x.lock.waiters with
  | nil =>
    rw [hwaiters] at hw
    cases hw
  | cons v rest =>
    rw [hwaiters] at hw
    rcases List.mem_cons.mp hw with rfl | hrest
    · rw [Waiter.cancelled_wake]
      exact h v (by rw [hwaiters]; exact List.mem_cons_self)
    · exact h w (by rw [hwaiters]; exact List.mem_cons_of_mem v hrest)

theorem NoneCancelled.ask (h : x.NoneCancelled) (t : τ) : (x.ask t).2.NoneCancelled := by
  unfold Turns.ask AsyncLock.acquire
  by_cases hfree : x.lock.locked = false ∧ x.lock.waiters.all (fun w => w.cancelled && !w.woken) = true
  · rw [if_pos hfree]
    exact h
  · rw [if_neg hfree]
    intro w hw
    rcases List.mem_append.mp hw with hold | hnew
    · exact h w hold
    · rw [List.mem_singleton.mp hnew]

/-- Whoever runs has the lock. -/
theorem NoneCancelled.resume [DecidableEq τ] (h : x.NoneCancelled)
    (hresume : x.resume t = some (granted, y)) : granted = true ∧ y.NoneCancelled := by
  obtain ⟨lock, hlock, rfl⟩ := resume_lock hresume
  obtain ⟨w, hw, -, ⟨rfl, -, -, rfl⟩ | ⟨-, hcancelled, -⟩⟩ := AsyncLock.resume_cases hlock
  · exact ⟨rfl, fun v hv => h v (List.eraseP_sublist.subset hv)⟩
  · rw [h w hw] at hcancelled
    cases hcancelled

end NoneCancelled

/-! ## Turns are kept -/

/-- **What every call keeps.**  Later tasks are larger ones. -/
structure Fair [Preorder τ] (x : Turns τ) : Prop where
  held : x.lock.locked = x.holder.isSome
  last : ∀ t ∈ x.holder, x.served.getLast? = some t
  queued : x.lock.waiters.Pairwise fun w v => w.task < v.task
  served : x.served.Pairwise (· < ·)
  /-- Only cancelled tasks are passed over. -/
  passed : ∀ s ∈ x.served, ∀ w ∈ x.lock.waiters, w.cancelled = false → s < w.task
  woken : x.lock.locked = true → ∀ w ∈ x.lock.waiters, w.woken = false
  first : ∀ w ∈ x.lock.waiters.tail, w.woken = false
  /-- No wake-up is lost. -/
  alert : x.lock.locked = false → ∀ w ∈ x.lock.waiters.head?, w.done = true

section Fair

variable [Preorder τ] {x : Turns τ} {t : τ}

theorem fair_start : Fair ({} : Turns τ) := by
  constructor <;> simp

/-- Waking the first of the queue of a free lock. -/
theorem Fair.wake {lock : AsyncLock τ} {served : List τ} (hfree : lock.locked = false)
    (hqueued : lock.waiters.Pairwise fun w v => w.task < v.task)
    (hserved : served.Pairwise (· < ·))
    (hpassed : ∀ s ∈ served, ∀ w ∈ lock.waiters, w.cancelled = false → s < w.task)
    (hfirst : ∀ w ∈ lock.waiters.tail, w.woken = false) :
    Fair { lock := lock.wakeUpFirst, holder := none, served := served } := by
  obtain ⟨locked, waiters⟩ := lock
  obtain rfl : locked = false := hfree
  cases waiters with
  | nil =>
    constructor <;> simp [AsyncLock.wakeUpFirst, hserved]
  | cons w rest =>
    have hwaiters : (AsyncLock.wakeUpFirst ⟨false, w :: rest⟩).waiters = w.wake :: rest := rfl
    refine ⟨rfl, fun t ht => (by cases ht), ?_, hserved, fun s hs v hv => ?_,
      fun hlocked => (by cases hlocked), hfirst, fun _ v hv => ?_⟩
    · show (w.wake :: rest).Pairwise _
      rw [List.pairwise_cons, Waiter.task_wake]
      exact List.pairwise_cons.mp hqueued
    · rcases List.mem_cons.mp (hwaiters ▸ hv) with rfl | hrest
      · rw [Waiter.task_wake, Waiter.cancelled_wake]
        exact hpassed s hs w List.mem_cons_self
      · exact hpassed s hs v (List.mem_cons_of_mem _ hrest)
    · obtain rfl := Option.some.inj hv
      exact w.done_wake

/-- The lock is let go. -/
theorem Fair.leave (h : x.Fair) (hholds : x.holder = some t) : x.leave.Fair := by
  have hwoken := h.woken (by rw [h.held, hholds]; rfl)
  exact .wake rfl h.queued h.served h.passed fun w hw => hwoken w (List.mem_of_mem_tail hw)

/-- Somebody is served whom no task that was asked for before and goes on waiting precedes. -/
theorem Fair.serve (h : x.Fair) {waiters : List (Waiter τ)}
    (hsublist : waiters.Sublist x.lock.waiters) (hlater : ∀ s ∈ x.served, s < t)
    (hbefore : ∀ w ∈ waiters, w.cancelled = false → t < w.task)
    (hwoken : ∀ w ∈ waiters, w.woken = false) :
    (x.serve t { locked := true, waiters := waiters }).Fair := by
  refine ⟨rfl, fun u hu => ?_, h.queued.sublist hsublist, ?_, fun s hs w hw => ?_, fun _ => hwoken,
    fun w hw => hwoken w (List.mem_of_mem_tail hw), fun hfree => (by cases hfree)⟩
  · obtain rfl := Option.some.inj hu
    exact List.getLast?_concat
  · refine List.pairwise_append.mpr ⟨h.served, List.pairwise_singleton _ _, fun s hs u hu => ?_⟩
    obtain rfl := List.mem_singleton.mp hu
    exact hlater s hs
  · rcases List.mem_append.mp hs with hserved | hnew
    · exact h.passed s hserved w (hsublist.subset hw)
    · obtain rfl := List.mem_singleton.mp hnew
      exact hbefore w hw

/-- A task asks, which nobody has seen before. -/
theorem Fair.ask (h : x.Fair) (hserved : ∀ s ∈ x.served, s < t)
    (hqueued : ∀ w ∈ x.lock.waiters, w.task < t) : (x.ask t).2.Fair := by
  unfold Turns.ask AsyncLock.acquire
  by_cases hfree : x.lock.locked = false ∧ x.lock.waiters.all (fun w => w.cancelled && !w.woken) = true
  · -- all who wait have been cancelled
    rw [if_pos hfree]
    have hall : ∀ w ∈ x.lock.waiters, w.cancelled = true ∧ w.woken = false := by
      simpa using hfree.2
    refine h.serve (List.Sublist.refl _) hserved (fun w hw hkept => ?_) fun w hw => (hall w hw).2
    rw [(hall w hw).1] at hkept
    cases hkept
  · rw [if_neg hfree]
    have htail : ∀ w ∈ (x.lock.waiters ++ [Waiter.mk t false false]).tail, w.woken = false := by
      intro w hw
      cases hwaiters : x.lock.waiters with
      | nil =>
        rw [hwaiters] at hw
        cases hw
      | cons v rest =>
        rw [hwaiters] at hw
        rcases List.mem_append.mp (show w ∈ rest ++ [Waiter.mk t false false] from hw) with hrest | hnew
        · exact h.first w (by rw [hwaiters]; exact hrest)
        · obtain rfl := List.mem_singleton.mp hnew
          rfl
    refine ⟨h.held, h.last, ?_, h.served, fun s hs w hw hkept => ?_, fun hlocked w hw => ?_, htail,
      fun hunlocked w hw => ?_⟩
    · refine List.pairwise_append.mpr ⟨h.queued, List.pairwise_singleton _ _, fun w hw v hv => ?_⟩
      obtain rfl := List.mem_singleton.mp hv
      exact hqueued w hw
    · rcases List.mem_append.mp hw with hold | hnew
      · exact h.passed s hs w hold hkept
      · obtain rfl := List.mem_singleton.mp hnew
        exact hserved s hs
    · rcases List.mem_append.mp hw with hold | hnew
      · exact h.woken hlocked w hold
      · obtain rfl := List.mem_singleton.mp hnew
        rfl
    · -- the lock is free, and yet somebody is ahead
      cases hwaiters : x.lock.waiters with
      | nil => exact absurd ⟨hunlocked, by rw [hwaiters]; rfl⟩ hfree
      | cons v rest =>
        refine h.alert hunlocked w ?_
        rw [hwaiters] at hw ⊢
        exact hw

/-- No task waits twice. -/
theorem Fair.nodup_waiting (h : x.Fair) : x.waiting.Nodup :=
  List.pairwise_map.mpr (h.queued.imp fun hlt => ne_of_lt hlt)

/-- A task that is served at once. -/
theorem Fair.ask_served (h : x.Fair) (hask : (x.ask t).1 = true) :
    x.holder = none ∧ (x.ask t).2.holder = some t ∧ (x.ask t).2.served = x.served ++ [t] ∧
      (x.ask t).2.waiting = x.waiting := by
  unfold Turns.ask AsyncLock.acquire at hask ⊢
  by_cases hfree : x.lock.locked = false ∧ x.lock.waiters.all (fun w => w.cancelled && !w.woken) = true
  · rw [if_pos hfree]
    refine ⟨?_, rfl, rfl, rfl⟩
    rw [← Option.not_isSome_iff_eq_none, ← h.held, hfree.1]
    exact Bool.false_ne_true
  · rw [if_neg hfree] at hask
    cases hask

/-- Who holds the lock is the last who has been served. -/
theorem Fair.served_of_holder (h : x.Fair) (hholds : x.holder = some t) :
    t ∈ x.served ∧ ∀ s ∈ x.served, s ≤ t := by
  have hlast := h.last t hholds
  refine ⟨List.mem_of_getLast? hlast, fun s hs => ?_⟩
  obtain ⟨before, hserved⟩ := List.getLast?_eq_some_iff.mp hlast
  have hsorted := h.served
  rw [hserved] at hsorted hs
  rcases List.mem_append.mp hs with hbefore | hself
  · exact le_of_lt ((List.pairwise_append.mp hsorted).2.2 s hbefore t (List.mem_singleton.mpr rfl))
  · exact le_of_eq (List.mem_singleton.mp hself)

end Fair

section Waiting

variable [Preorder τ] [DecidableEq τ] {x y : Turns τ} {t : τ} {granted : Bool}

/-- A task that waits is cancelled. -/
theorem Fair.cancel (h : x.Fair) (t : τ) : (x.cancel t).Fair := by
  have hmark (w : Waiter τ) :
      (if w.task = t then { w with cancelled := true } else w).task = w.task ∧
      (if w.task = t then { w with cancelled := true } else w).woken = w.woken ∧
      ((if w.task = t then { w with cancelled := true } else w).cancelled = false →
        w.cancelled = false) ∧
      (w.done = true → (if w.task = t then { w with cancelled := true } else w).done = true) := by
    split
    · exact ⟨rfl, rfl, fun hkept => (by cases hkept), fun _ => Bool.or_true _⟩
    · exact ⟨rfl, rfl, id, id⟩
  have hwaiters : (x.cancel t).lock.waiters
      = x.lock.waiters.map fun w => if w.task = t then { w with cancelled := true } else w := rfl
  refine ⟨h.held, h.last, ?_, h.served, fun s hs w hw hkept => ?_, fun hlocked w hw => ?_,
    fun w hw => ?_, fun hfree w hw => ?_⟩
  · rw [hwaiters, List.pairwise_map]
    exact h.queued.imp fun hlt => by rw [(hmark _).1, (hmark _).1]; exact hlt
  · obtain ⟨v, hv, rfl⟩ := List.mem_map.mp (hwaiters ▸ hw)
    rw [(hmark v).1]
    exact h.passed s hs v hv ((hmark v).2.2.1 hkept)
  · obtain ⟨v, hv, rfl⟩ := List.mem_map.mp (hwaiters ▸ hw)
    rw [(hmark v).2.1]
    exact h.woken hlocked v hv
  · rw [hwaiters, ← List.map_tail] at hw
    obtain ⟨v, hv, rfl⟩ := List.mem_map.mp hw
    rw [(hmark v).2.1]
    exact h.first v hv
  · rw [hwaiters, List.head?_map] at hw
    obtain ⟨v, hv, rfl⟩ := Option.map_eq_some_iff.mp hw
    exact (hmark v).2.2.2 (h.alert hfree v hv)

/-- A task that waited runs: it is served, or it has been cancelled. -/
theorem Fair.resume (h : x.Fair) (hresume : x.resume t = some (granted, y)) : y.Fair := by
  obtain ⟨lock, hlock, rfl⟩ := resume_lock hresume
  obtain ⟨w, hw, htask, ⟨rfl, hwoken, hkept, rfl⟩ | ⟨rfl, -, rfl⟩⟩ := AsyncLock.resume_cases hlock
  · -- only the first of the queue is ever woken
    obtain ⟨rest, hwaiters⟩ : ∃ rest, x.lock.waiters = w :: rest := by
      cases hwaiters : x.lock.waiters with
      | nil => rw [hwaiters] at hw; cases hw
      | cons v rest =>
        rw [hwaiters] at hw
        rcases List.mem_cons.mp hw with rfl | hrest
        · exact ⟨rest, rfl⟩
        · have hasleep := h.first w (by rw [hwaiters]; exact hrest)
          rw [hwoken] at hasleep
          cases hasleep
    have herase : (x.lock.waiters.eraseP fun w => w.task = t) = rest := by
      rw [hwaiters]
      exact List.eraseP_cons_of_pos (p := fun v : Waiter τ => decide (v.task = t))
        (decide_eq_true htask)
    have hqueued := h.queued
    rw [hwaiters] at hqueued
    rw [herase]
    refine h.serve (by rw [hwaiters]; exact List.sublist_cons_self _ _) (fun s hs => ?_)
      (fun v hv _ => ?_) fun v hv => h.first v (by rw [hwaiters]; exact hv)
    · exact htask ▸ h.passed s hs w hw hkept
    · exact htask ▸ (List.pairwise_cons.mp hqueued).1 v hv
  · have hsublist : (x.lock.waiters.eraseP fun w => w.task = t).Sublist x.lock.waiters :=
      List.eraseP_sublist
    have hqueued := h.queued.sublist hsublist
    have hpassed : ∀ s ∈ x.served, ∀ v ∈ x.lock.waiters.eraseP fun w => w.task = t,
        v.cancelled = false → s < v.task := fun s hs v hv => h.passed s hs v (hsublist.subset hv)
    have hfirst : ∀ v ∈ (x.lock.waiters.eraseP fun w => w.task = t).tail, v.woken = false :=
      fun v hv => h.first v (AsyncLock.mem_tail_of_mem_tail_eraseP hv)
    rw [if_neg Bool.false_ne_true]
    by_cases hlocked : x.lock.locked = true
    · rw [if_pos hlocked]
      exact ⟨h.held, h.last, hqueued, h.served, hpassed,
        fun hheld v hv => h.woken hheld v (hsublist.subset hv), hfirst,
        fun hfree => absurd hlocked (by rw [show x.lock.locked = false from hfree]; decide)⟩
    · rw [Bool.not_eq_true] at hlocked
      have hnone : x.holder = none := by
        rw [← Option.not_isSome_iff_eq_none, ← h.held, hlocked]
        exact Bool.false_ne_true
      rw [if_neg (by rw [hlocked]; exact Bool.false_ne_true), hnone]
      exact .wake hlocked hqueued h.served hpassed hfirst

/-- A task is served only while nobody holds the lock. -/
theorem Fair.holder_of_resume (h : x.Fair) (hresume : x.resume t = some (true, y)) :
    x.holder = none := by
  obtain ⟨lock, hlock, -⟩ := resume_lock hresume
  obtain ⟨w, hw, -, ⟨-, hwoken, -, -⟩ | ⟨hfalse, -, -⟩⟩ := AsyncLock.resume_cases hlock
  · rw [← Option.not_isSome_iff_eq_none, ← h.held]
    intro hlocked
    have hasleep := h.woken hlocked w hw
    rw [hwoken] at hasleep
    cases hasleep
  · cases hfalse

/-- **Nobody waits for nothing**: if tasks wait while nobody holds the lock, one of them is about to
    run. -/
theorem Fair.exists_resume (h : x.Fair) (hnone : x.holder = none) (hwaits : x.lock.waiters ≠ []) :
    ∃ t, (x.resume t).isSome = true := by
  obtain ⟨w, rest, hwaiters⟩ := List.exists_cons_of_ne_nil hwaits
  have hfree : x.lock.locked = false := by rw [h.held, hnone]; rfl
  have hdone := h.alert hfree w (by rw [hwaiters]; rfl)
  refine ⟨w.task, ?_⟩
  have hfind : (x.lock.waiters.find? fun v => v.task = w.task) = some w := by
    rw [hwaiters, List.find?_cons, decide_eq_true rfl]
  unfold Turns.resume AsyncLock.resume
  rw [hfind]
  cases hcancelled : w.cancelled <;> simp [hdone, hcancelled]

end Waiting

end Turns
