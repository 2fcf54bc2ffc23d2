import Agner.ActorControl
import Agner.Foundations.Runs

/-!
`MtScheduler::run`: the calling thread, the worker threads, and the decision to shut down.

Each label is one access to the members the threads share. A spawn registers the actor,
increments the counter and detaches the coroutine; an exit erases the actor, decrements the
counter, sends its signals and tests the counter, and stores `shutdown_` if it read zero.

* Spawns are made by actors and detached tasks on the workers, by the visitors that the signals of
  an exit reach, by callbacks of timers on the calling thread, and by the calling thread while it
  is not in `run`.
* A visitor that a signal reaches may raise. The exception ends the coroutine of the exit, which
  then sends no more signals and does not test the counter.
* The queues are left open: an actor that is not being run may be resumed by any worker, by one
  at a time, and detached tasks may be resumed at any time. So are the timers: a callback may be
  due whenever `timer_loop` looks for one. Callbacks return.
* Fewer than `2 ^ 64` actors are spawned, so that neither the counter nor the references wrap
  around.

* `Unhurried`: the condition on steps. No test reads zero while a spawn is between its
  registration and its increment, and no spawn registers after a test has read zero.
* `run_returns_empty`: in such runs, `run` returns with no actor registered.
-/

namespace Agner.MtRun

open Runs

/-- How far `on_actor_exit` has come. -/
inductive ExitStage where
  /-- The coroutine of the actor has returned. -/
  | returned
  | erased
  | decremented
  | signalled
  /-- The test has read zero. -/
  | zero
  deriving DecidableEq

/-- Whose code spawns: a job, or a visitor that a signal of the exit of `a` has reached. -/
inductive Caller where
  | ofJob (job : Option ActorRef)
  | ofExit (a : ActorRef)
  deriving DecidableEq

/-- What a thread is doing. A job is the coroutine of an actor, or a detached task or a callback
(`none`). -/
inductive Activity where
  | idle
  /-- A worker that has found no stop requested. -/
  | polling
  | executing (job : Option ActorRef)
  | spawning (caller : Caller) (ref : ActorRef) (counted : Bool)
  | exiting (a : ActorRef) (stage : ExitStage)
  | joined
  deriving DecidableEq

/-- How far the calling thread has come in `run`. -/
inductive Phase where
  | outside
  /-- `shutdown_` has been cleared. -/
  | called
  /-- At the head of `timer_loop`. -/
  | looping
  /-- In the guarded part of `timer_loop`. -/
  | waiting
  | callback
  /-- The workers are asked to stop. -/
  | stopping
  | returned
  deriving DecidableEq

/-- `run` has started the workers and has not returned. -/
def Phase.running : Phase → Bool
  | .looping | .waiting | .callback | .stopping => true
  | .outside | .called | .returned => false

/-- The members that the threads share, and what each thread is doing. -/
structure MtScheduler where
  threadCount : ℕ
  /-- The keys of `actors_`. -/
  actors : List ActorRef := []
  nextActorId : ActorRef := 1
  activeActorCount : ℕ := 0
  shutdown : Bool := false
  phase : Phase := .outside
  calling : Activity := .executing none
  workers : List Activity := []
  /-- How many of the workers, from the first on, `run` has asked to stop. -/
  asked : ℕ := 0
  /-- The actors that have been detached and are not being run. -/
  dormant : List ActorRef := []
  deriving DecidableEq

/-- The calling thread and the workers. -/
inductive ThreadId where
  | calling
  | worker (i : ℕ)
  deriving DecidableEq

/-- One access of a thread that runs code of the scheduler. -/
inductive Work where
  /-- `spawn_impl`: `actors_.emplace`. -/
  | register
  /-- `spawn_impl`: `active_actor_count_.fetch_add`. -/
  | increment
  /-- `spawn_impl`: `detach`. -/
  | detach
  /-- `worker_loop` finds no stop requested. -/
  | poll
  /-- `worker_loop` finds nothing to do. -/
  | rest
  | resume (a : ActorRef)
  | resumeTask
  /-- The job is suspended, or a detached task ends. -/
  | suspend
  /-- The coroutine of the actor returns. -/
  | complete
  /-- `notify_exit`: `actors_.erase`. -/
  | erase
  /-- `notify_exit`: `active_actor_count_.fetch_sub`. -/
  | decrement
  /-- `notify_exit`: all signals have been sent. -/
  | signal
  /-- `notify_exit`: a visitor that a signal has reached raises. -/
  | raise
  /-- `on_actor_exit`: `active_actor_count() == 0`. -/
  | test
  /-- `on_actor_exit`: `shutdown_.store(true)`. -/
  | store
  deriving DecidableEq

/-- The access belongs to a spawn. -/
def Work.ofSpawn : Work → Bool
  | .register | .increment | .detach => true
  | _ => false

/-- One access of a thread, or one step of `run` and `timer_loop` on the calling thread. -/
inductive Label where
  | work (t : ThreadId) (w : Work)
  /-- `run` is called. -/
  | call
  /-- `run` tests the counter, and starts the workers if it is not zero. -/
  | check
  | enterLoop
  /-- The head of `timer_loop` reads `shutdown_`. -/
  | leaveLoop
  /-- `timer_loop` finds `shutdown_` set and no timer. -/
  | breakLoop
  /-- `timer_loop` takes a callback that is due. -/
  | fire
  /-- `timer_loop` waits in vain. -/
  | wake
  | callbackReturns
  /-- `run` asks the next worker to stop. -/
  | requestStop
  | join (i : ℕ)
  | runReturns
  /-- The calling thread goes on. -/
  | proceed
  deriving DecidableEq

namespace MtScheduler

/-- What the thread is doing. -/
def activity (s : MtScheduler) : ThreadId → Option Activity
  | .calling => some s.calling
  | .worker i => s.workers[i]?

/-- The thread does something else. -/
def setActivity (s : MtScheduler) (x : Activity) : ThreadId → MtScheduler
  | .calling => { s with calling := x }
  | .worker i => { s with workers := s.workers.set i x }

/-- `run` has asked the thread to stop. -/
def stopRequested (s : MtScheduler) : ThreadId → Bool
  | .calling => false
  | .worker i => decide (i < s.asked)

/-- One access of a thread: the members, and what the thread does afterwards. -/
def work (s : MtScheduler) : Work → Activity → Option (MtScheduler × Activity)
  | .register, .executing job =>
      some ({ s with actors := s.actors ++ [s.nextActorId], nextActorId := s.nextActorId + 1 },
        .spawning (.ofJob job) s.nextActorId false)
  | .register, .exiting a .decremented =>
      some ({ s with actors := s.actors ++ [s.nextActorId], nextActorId := s.nextActorId + 1 },
        .spawning (.ofExit a) s.nextActorId false)
  | .increment, .spawning caller ref false =>
      some ({ s with activeActorCount := s.activeActorCount + 1 }, .spawning caller ref true)
  | .detach, .spawning (.ofJob job) ref true =>
      some ({ s with dormant := s.dormant ++ [ref] }, .executing job)
  | .detach, .spawning (.ofExit a) ref true =>
      some ({ s with dormant := s.dormant ++ [ref] }, .exiting a .decremented)
  | .poll, .idle => some (s, .polling)
  | .rest, .polling => some (s, .idle)
  | .resume a, .polling =>
      if a ∈ s.dormant then
        some ({ s with dormant := s.dormant.erase a }, .executing (some a))
      else none
  | .resumeTask, .polling => some (s, .executing none)
  | .suspend, .executing job => some ({ s with dormant := s.dormant ++ job.toList }, .idle)
  | .complete, .executing (some a) => some (s, .exiting a .returned)
  | .erase, .exiting a .returned =>
      some ({ s with actors := s.actors.erase a }, .exiting a .erased)
  | .decrement, .exiting a .erased =>
      some ({ s with activeActorCount := s.activeActorCount - 1 }, .exiting a .decremented)
  | .signal, .exiting a .decremented => some (s, .exiting a .signalled)
  | .raise, .exiting _ .decremented => some (s, .idle)
  | .test, .exiting a .signalled =>
      some (s, if s.activeActorCount = 0 then .exiting a .zero else .idle)
  | .store, .exiting _ .zero => some ({ s with shutdown := true }, .idle)
  | _, _ => none

end MtScheduler

/-- One step; `none` if the label is not enabled. -/
def step (s : MtScheduler) : Label → Option MtScheduler
  | .work t w =>
      if t = .calling ∧ w.ofSpawn = false ∨ w = .poll ∧ s.stopRequested t = true then none
      else
        (s.activity t).bind fun x =>
          (s.work w x).map fun r => r.1.setActivity r.2 t
  | .call =>
      if s.phase = .outside ∧ s.calling = .executing none then
        some { s with shutdown := false, phase := .called, calling := .idle }
      else none
  | .check =>
      if s.phase = .called then
        if s.activeActorCount = 0 then some { s with phase := .returned }
        else
          some { s with
            phase := .looping
            workers := List.replicate s.threadCount .idle
            asked := 0 }
      else none
  | .enterLoop =>
      if s.phase = .looping ∧ s.shutdown = false then some { s with phase := .waiting } else none
  | .leaveLoop =>
      if s.phase = .looping ∧ s.shutdown = true then some { s with phase := .stopping } else none
  | .breakLoop =>
      if s.phase = .waiting ∧ s.shutdown = true then some { s with phase := .stopping } else none
  | .fire =>
      if s.phase = .waiting ∧ s.shutdown = false then
        some { s with phase := .callback, calling := .executing none }
      else none
  | .wake => if s.phase = .waiting then some { s with phase := .looping } else none
  | .callbackReturns =>
      if s.phase = .callback ∧ s.calling = .executing none then
        some { s with phase := .looping, calling := .idle }
      else none
  | .requestStop =>
      if s.phase = .stopping ∧ s.asked < s.workers.length then some { s with asked := s.asked + 1 }
      else none
  | .join i =>
      if s.phase = .stopping ∧ s.asked = s.workers.length ∧ s.workers[i]? = some .idle then
        some { s with workers := s.workers.set i .joined }
      else none
  | .runReturns =>
      if s.phase = .stopping ∧ ∀ x ∈ s.workers, x = .joined then
        some { s with phase := .returned, workers := [] }
      else none
  | .proceed =>
      if s.phase = .returned then some { s with phase := .outside, calling := .executing none }
      else none

/-! ### The decision -/

/-- A worker that has read zero and not stored `shutdown_` yet. -/
def Activity.readZero : Activity → Bool
  | .exiting _ .zero => true
  | _ => false

/-- A spawn that has registered its actor and not counted it yet. -/
def Activity.uncounted : Activity → Bool
  | .spawning _ _ false => true
  | _ => false

/-- The scheduler is about to shut down. -/
def MtScheduler.decided (s : MtScheduler) : Bool :=
  s.phase.running && (s.shutdown || s.workers.any Activity.readZero)

/-- The condition on steps. -/
def Unhurried (s : MtScheduler) : Label → Prop
  | .work _ .test => s.activeActorCount = 0 →
      s.calling.uncounted = false ∧ ∀ x ∈ s.workers, x.uncounted = false
  | .work _ .register => s.decided = false
  | _ => True

instance (s : MtScheduler) : ∀ l : Label, Decidable (Unhurried s l)
  | .work _ .test => inferInstanceAs (Decidable (_ = 0 → _ = false ∧ ∀ x ∈ s.workers, _ = false))
  | .work _ .register => inferInstanceAs (Decidable (s.decided = false))
  | .work _ .increment | .work _ .detach | .work _ .poll | .work _ .rest | .work _ (.resume _)
  | .work _ .resumeTask | .work _ .suspend | .work _ .complete | .work _ .erase
  | .work _ .decrement | .work _ .signal | .work _ .raise | .work _ .store
  | .call | .check | .enterLoop | .leaveLoop | .breakLoop | .fire | .wake | .callbackReturns
  | .requestStop | .join _ | .runReturns | .proceed => isTrue trivial

/-! ### Accounting -/

/-- The registered actors whose code the caller is. -/
def Caller.held : Caller → List ActorRef
  | .ofJob job => job.toList
  | .ofExit _ => []

/-- The registered actors that the thread has in hand. -/
def Activity.refs : Activity → Multiset ActorRef
  | .executing job => job.toList
  | .spawning caller ref _ => ref ::ₘ caller.held
  | .exiting a .returned => {a}
  | _ => 0

/-- What the thread contributes to the counter. -/
def Activity.weight : Activity → ℕ
  | .executing job => job.toList.length
  | .spawning caller _ counted => caller.held.length + counted.toNat
  | .exiting _ .returned | .exiting _ .erased => 1
  | _ => 0

/-- The sum over all threads. -/
def MtScheduler.total {A : Type} [AddCommMonoid A] (s : MtScheduler) (f : Activity → A) : A :=
  f s.calling + (s.workers.map f).sum

/-- The registry holds the dormant actors and those in hand, and the counter counts them. -/
structure Balanced (s : MtScheduler) : Prop where
  population : (s.actors : Multiset ActorRef) = s.dormant + s.total Activity.refs
  count : s.activeActorCount = s.dormant.length + s.total Activity.weight

variable {s u : MtScheduler} {t : ThreadId} {w : Work} {x y : Activity}

lemma sum_map_set {A : Type} [AddCommMonoid A] (f : Activity → A) {l : List Activity} {i : ℕ}
    (h : l[i]? = some x) : ((l.set i y).map f).sum + f x = (l.map f).sum + f y := by
  induction l generalizing i with
  | nil => simp at h
  | cons z l ih =>
      cases i with
      | zero =>
          obtain rfl : z = x := by simpa using h
          simp only [List.set_cons_zero, List.map_cons, List.sum_cons]
          abel
      | succ i =>
          have hrest := ih (i := i) (by simpa using h)
          simp only [List.set_cons_succ, List.map_cons, List.sum_cons, add_assoc, hrest]

/-- The sum changes by what the one thread changes. -/
lemma total_setActivity {A : Type} [AddCommMonoid A] (f : Activity → A)
    (h : s.activity t = some x) : (s.setActivity y t).total f + f x = s.total f + f y := by
  cases t with
  | calling =>
      obtain rfl := Option.some.inj h
      simp only [MtScheduler.setActivity, MtScheduler.total]
      abel
  | worker i =>
      have hsum := sum_map_set (y := y) f (show s.workers[i]? = some x from h)
      simp only [MtScheduler.setActivity, MtScheduler.total, add_assoc, hsum]

/-- A thread contributes a part of the sum. -/
lemma exists_total_eq {A : Type} [AddCommMonoid A] {f : Activity → A} (hidle : f .idle = 0)
    (h : s.activity t = some x) : ∃ rest, s.total f = rest + f x := by
  have htotal := total_setActivity (y := .idle) f h
  rw [hidle, add_zero] at htotal
  exact ⟨_, htotal.symm⟩

lemma coe_erase_add {l : List ActorRef} {a : ActorRef} (h : a ∈ l) :
    (l.erase a + {a} : Multiset ActorRef) = l := by
  rw [← Multiset.coe_erase, add_comm, Multiset.singleton_add, Multiset.cons_erase h]

/-- One access moves actors between the registry, the dormant ones and the thread. -/
lemma work_population (h : s.work w x = some (u, y)) (hrefs : x.refs ≤ s.actors) :
    (u.actors : Multiset ActorRef) + s.dormant + x.refs =
      (s.actors : Multiset ActorRef) + u.dormant + y.refs := by
  revert h
  fun_cases MtScheduler.work s w x <;> intro h <;> cases h
  case case1.refl job =>
    simp only [Activity.refs, Caller.held, ← Multiset.coe_add, ← Multiset.coe_singleton, add_assoc,
      ← Multiset.singleton_add]
    abel
  case case2.refl a =>
    simp only [Activity.refs, Caller.held, ← Multiset.coe_add, ← Multiset.coe_singleton, add_assoc,
      ← Multiset.singleton_add, Multiset.coe_nil, add_zero]
    abel
  case case5.refl a ref =>
    simp only [Activity.refs, Caller.held, ← Multiset.coe_add, ← Multiset.coe_singleton, add_assoc,
      ← Multiset.singleton_add, Multiset.coe_nil, add_zero]
  case case8.refl a ha =>
    simp only [Activity.refs, add_zero, Option.toList_some, Multiset.coe_singleton, add_assoc,
      coe_erase_add ha]
  case case13.refl a =>
    have ha : a ∈ s.actors := Multiset.singleton_le.mp hrefs
    simp only [Activity.refs, add_zero]
    rw [add_right_comm, coe_erase_add ha]
  case case17.refl a =>
    have hnone : (if s.activeActorCount = 0 then Activity.exiting a .zero else .idle).refs = 0 := by
      split <;> rfl
    rw [hnone]
    rfl
  all_goals simp [Activity.refs, Caller.held]

/-- The counter follows, except for actors between registration and increment. -/
lemma work_count (h : s.work w x = some (u, y)) (hweight : x.weight ≤ s.activeActorCount) :
    u.activeActorCount + s.dormant.length + x.weight =
      s.activeActorCount + u.dormant.length + y.weight := by
  revert h
  fun_cases MtScheduler.work s w x <;> intro h <;> cases h
  case case8.refl a ha =>
    have hlength := List.length_erase_add_one ha
    simp only [Activity.weight, Option.toList_some, List.length_singleton]
    omega
  case case14.refl a =>
    simp only [Activity.weight] at hweight ⊢
    omega
  case case17.refl a =>
    have hnone :
        (if s.activeActorCount = 0 then Activity.exiting a .zero else .idle).weight = 0 := by
      split <;> rfl
    rw [hnone]
    rfl
  all_goals simp [Activity.weight, Caller.held]
  all_goals omega

/-- What else one access does: `shutdown_` is stored by a thread that has read zero, and a test
reads zero only if the counter is zero. -/
lemma work_frame (h : s.work w x = some (u, y)) :
    (w ≠ .register → u.actors ⊆ s.actors) ∧ u.shutdown = (s.shutdown || x.readZero) ∧
      (y.readZero = true → w = .test ∧ s.activeActorCount = 0) ∧
      u.phase = s.phase ∧ u.calling = s.calling ∧ u.workers = s.workers := by
  revert h
  fun_cases MtScheduler.work s w x <;> intro h <;> cases h
  case case13.refl a => simp [Activity.readZero, List.erase_subset]
  case case17.refl a =>
    refine ⟨fun _ => List.Subset.refl _, by simp [Activity.readZero], fun hzero => ⟨rfl, ?_⟩,
      rfl, rfl, rfl⟩
    by_contra hcount
    rw [if_neg hcount] at hzero
    cases hzero
  all_goals simp [Activity.readZero]

/-- The threads are as before, but for the one that worked. -/
lemma total_work {A : Type} [AddCommMonoid A] (f : Activity → A) (hx : s.activity t = some x)
    (h : s.work w x = some (u, y)) : (u.setActivity y t).total f + f x = s.total f + f y := by
  obtain ⟨-, -, -, -, hcalling, hworkers⟩ := work_frame h
  have hu : u.activity t = some x := by
    cases t with
    | calling => rw [← hx, MtScheduler.activity, MtScheduler.activity, hcalling]
    | worker i => rw [← hx, MtScheduler.activity, MtScheduler.activity, hworkers]
  rw [total_setActivity f hu, MtScheduler.total, MtScheduler.total, hcalling, hworkers]

lemma Balanced.refs_le (h : Balanced s) (hx : s.activity t = some x) : x.refs ≤ s.actors := by
  obtain ⟨rest, hrest⟩ := exists_total_eq (f := Activity.refs) rfl hx
  rw [h.population, hrest, ← add_assoc]
  exact Multiset.le_add_left _ _

lemma Balanced.weight_le (h : Balanced s) (hx : s.activity t = some x) :
    x.weight ≤ s.activeActorCount := by
  obtain ⟨rest, hrest⟩ := exists_total_eq (f := Activity.weight) rfl hx
  rw [h.count, hrest, ← add_assoc]
  exact Nat.le_add_left _ _

/-- One access keeps the balance. -/
lemma Balanced.work (h : Balanced s) (hx : s.activity t = some x)
    (hw : s.work w x = some (u, y)) : Balanced (u.setActivity y t) := by
  have hactors : (u.setActivity y t).actors = u.actors := by cases t <;> rfl
  have hdormant : (u.setActivity y t).dormant = u.dormant := by cases t <;> rfl
  have hcount : (u.setActivity y t).activeActorCount = u.activeActorCount := by cases t <;> rfl
  constructor
  · have hmoved := work_population hw (h.refs_le hx)
    have htotal := total_work Activity.refs hx hw
    rw [hactors, hdormant]
    refine add_right_cancel (b := (s.dormant : Multiset ActorRef) + x.refs) ?_
    calc (u.actors : Multiset ActorRef) + (s.dormant + x.refs)
        = s.actors + u.dormant + y.refs := by rw [← add_assoc, hmoved]
      _ = s.dormant + u.dormant + (s.total Activity.refs + y.refs) := by
          rw [h.population]
          abel
      _ = u.dormant + (u.setActivity y t).total Activity.refs + (s.dormant + x.refs) := by
          rw [← htotal]
          abel
  · have hmoved := work_count hw (h.weight_le hx)
    have htotal := total_work Activity.weight hx hw
    have hold := h.count
    rw [hcount, hdormant]
    omega

/-! ### The invariant -/

/-- Once it is decided to shut down, nobody is registered. -/
structure Sound (s : MtScheduler) : Prop where
  balanced : Balanced s
  calling : s.phase ≠ .outside → s.phase ≠ .callback → s.calling = .idle
  workers : s.phase.running = false → s.workers = []
  called : s.phase = .called → s.shutdown = false
  stopping : s.phase = .stopping → s.shutdown = true
  decided : s.decided = true → s.actors = []
  returned : s.phase = .returned → s.actors = [] ∧ s.activeActorCount = 0

/-- A thread that does not count and is not about to has no actor in hand. -/
lemma refs_eq_zero (hweight : x.weight = 0) (huncounted : x.uncounted = false) : x.refs = 0 := by
  cases x with
  | idle | polling | joined => rfl
  | executing job =>
      have hjob : job.toList = [] := List.length_eq_zero_iff.mp hweight
      rw [Activity.refs, hjob]
      rfl
  | spawning job ref counted =>
      cases counted with
      | false => cases huncounted
      | true => cases hweight
  | exiting a stage =>
      cases stage with
      | returned => cases hweight
      | erased | decremented | signalled | zero => rfl

/-- If the counter is zero and no spawn is uncounted, nobody is registered. -/
lemma Balanced.actors_eq_nil (h : Balanced s) (hcount : s.activeActorCount = 0)
    (hcalling : s.calling.uncounted = false) (hworkers : ∀ x ∈ s.workers, x.uncounted = false) :
    s.actors = [] := by
  have hzero := h.count
  rw [hcount, MtScheduler.total] at hzero
  have hdormant : s.dormant = [] := List.length_eq_zero_iff.mp (by omega)
  have hrefs : (s.workers.map Activity.refs).sum = 0 := by
    refine List.sum_eq_zero fun r hr => ?_
    obtain ⟨x, hx, rfl⟩ := List.mem_map.mp hr
    have hle : x.weight ≤ (s.workers.map Activity.weight).sum :=
      List.le_sum_of_mem (List.mem_map_of_mem hx)
    exact refs_eq_zero (by omega) (hworkers x hx)
  have hpopulation := h.population
  rw [hdormant, MtScheduler.total, refs_eq_zero (by omega) hcalling, hrefs] at hpopulation
  simpa using hpopulation

/-- An empty registry with nobody in hand is counted as such. -/
lemma Balanced.count_eq_zero (h : Balanced s) (hactors : s.actors = [])
    (htotal : s.total Activity.weight = 0) : s.activeActorCount = 0 := by
  have hpopulation := h.population
  rw [hactors] at hpopulation
  have hdormant : s.dormant.length = 0 := by
    have hcard := congrArg Multiset.card hpopulation
    simp only [Multiset.card_add, Multiset.coe_card, List.length_nil] at hcard
    omega
  rw [h.count, hdormant, htotal]

/-- The balance depends on the registry, the counter and the threads only. -/
lemma Balanced.congr (h : Balanced s) (hactors : u.actors = s.actors)
    (hdormant : u.dormant = s.dormant) (hcount : u.activeActorCount = s.activeActorCount)
    (hrefs : u.total Activity.refs = s.total Activity.refs)
    (hweight : u.total Activity.weight = s.total Activity.weight) : Balanced u := by
  constructor
  · rw [hactors, hdormant, hrefs]
    exact h.population
  · rw [hcount, hdormant, hweight]
    exact h.count

/-- Spawns are made by a thread that runs a job. -/
lemma work_ofSpawn (h : s.work w x = some (u, y)) (hw : w.ofSpawn = true) :
    x ≠ .idle ∧ x.readZero = false := by
  revert h hw
  fun_cases MtScheduler.work s w x <;> intro h hw <;> cases h
  case case1.refl | case2.refl | case3.refl | case4.refl | case5.refl => exact ⟨nofun, rfl⟩
  all_goals cases hw

/-- A thread that works is a worker, or the calling thread during a spawn. -/
lemma Sound.working (h : Sound s) (hcall : ¬ (t = .calling ∧ w.ofSpawn = false))
    (hx : s.activity t = some x) (hw : s.work w x = some (u, y)) :
    (t = .calling ∧ (s.phase = .outside ∨ s.phase = .callback) ∧ x.readZero = false) ∨
      (∃ i, t = .worker i ∧ s.workers[i]? = some x ∧ s.phase.running = true) := by
  cases t with
  | calling =>
      have hspawn : w.ofSpawn = true := by simpa using hcall
      obtain ⟨hbusy, hzero⟩ := work_ofSpawn hw hspawn
      obtain rfl : s.calling = x := Option.some.inj hx
      refine Or.inl ⟨rfl, ?_, hzero⟩
      by_contra hphase
      rw [not_or] at hphase
      exact hbusy (h.calling hphase.1 hphase.2)
  | worker i =>
      refine Or.inr ⟨i, rfl, hx, ?_⟩
      by_contra hphase
      have hx' : s.workers[i]? = some x := hx
      rw [h.workers (by simpa using hphase)] at hx'
      simp at hx'

/-- If it is decided to shut down after an access, nobody is registered. -/
lemma Sound.work_decided (h : Sound s) (hcall : ¬ (t = .calling ∧ w.ofSpawn = false))
    (hx : s.activity t = some x) (hw : s.work w x = some (u, y))
    (hok : Unhurried s (.work t w)) (hdecided : (u.setActivity y t).decided = true) :
    u.actors = [] := by
  obtain ⟨hsub, hshutdown, hzero, hphase, hcalling, hworkers⟩ := work_frame hw
  have hnil : s.actors = [] → w ≠ .register → u.actors = [] := by
    intro hnone hregister
    have hsub' := hsub hregister
    rw [hnone] at hsub'
    exact List.subset_nil.mp hsub'
  -- either the decision was made before, or this is the test that reads zero
  have hcases : s.decided = true ∨ y.readZero = true := by
    rcases h.working hcall hx hw with ⟨rfl, -, hx0⟩ | ⟨i, rfl, hi, -⟩
    · left
      simpa [MtScheduler.decided, MtScheduler.setActivity, hphase, hworkers, hshutdown, hx0]
        using hdecided
    · simp only [MtScheduler.decided, MtScheduler.setActivity, hphase, hworkers, hshutdown,
        Bool.and_eq_true, Bool.or_eq_true, List.any_eq_true] at hdecided ⊢
      obtain ⟨hrunning, (hold | hx0) | ⟨z, hz, hz0⟩⟩ := hdecided
      · exact Or.inl ⟨hrunning, Or.inl hold⟩
      · exact Or.inl ⟨hrunning, Or.inr ⟨x, List.mem_of_getElem? hi, hx0⟩⟩
      · rcases List.mem_or_eq_of_mem_set hz with hz | rfl
        · exact Or.inl ⟨hrunning, Or.inr ⟨z, hz, hz0⟩⟩
        · exact Or.inr hz0
  rcases hcases with hdone | hy
  · refine hnil (h.decided hdone) ?_
    rintro rfl
    rw [Unhurried] at hok
    rw [hok] at hdone
    cases hdone
  · obtain ⟨rfl, hcount⟩ := hzero hy
    obtain ⟨hc, hws⟩ := hok hcount
    exact hnil (h.balanced.actors_eq_nil hcount hc hws) nofun

lemma Sound.work (h : Sound s) (hcall : ¬ (t = .calling ∧ w.ofSpawn = false))
    (hx : s.activity t = some x) (hw : s.work w x = some (u, y))
    (hok : Unhurried s (.work t w)) : Sound (u.setActivity y t) := by
  obtain ⟨-, hshutdown, -, hphase, hcalling, hworkers⟩ := work_frame hw
  have hphase' : (u.setActivity y t).phase = s.phase := by
    rw [← hphase]
    cases t <;> rfl
  have hshutdown' : (u.setActivity y t).shutdown = u.shutdown := by cases t <;> rfl
  have hactors : (u.setActivity y t).actors = u.actors := by cases t <;> rfl
  have hwho := h.working hcall hx hw
  -- neither before the workers are started nor after `run` has returned does a thread work
  have hquiet : s.phase ≠ .called ∧ s.phase ≠ .returned := by
    rcases hwho with ⟨-, hp | hp, -⟩ | ⟨i, -, -, hp⟩
    · simp [hp]
    · simp [hp]
    · constructor
      · rintro hc
        rw [hc] at hp
        cases hp
      · rintro hc
        rw [hc] at hp
        cases hp
  refine ⟨h.balanced.work hx hw, ?_, ?_, ?_, ?_, ?_, ?_⟩
  · rw [hphase']
    intro hout hcb
    rcases hwho with ⟨-, hp, -⟩ | ⟨i, rfl, -, -⟩
    · exact absurd hp (by simp [hout, hcb])
    · exact hcalling.trans (h.calling hout hcb)
  · rw [hphase']
    intro hnot
    rcases hwho with ⟨rfl, -, -⟩ | ⟨i, -, -, hp⟩
    · exact hworkers.trans (h.workers hnot)
    · rw [hnot] at hp
      cases hp
  · rw [hphase']
    exact fun hc => absurd hc hquiet.1
  · rw [hphase', hshutdown', hshutdown]
    exact fun hs => by rw [h.stopping hs, Bool.true_or]
  · rw [hactors]
    exact h.work_decided hcall hx hw hok
  · rw [hphase']
    exact fun hr => absurd hr hquiet.2

/-- The calling thread goes from one place of `run` to another, with no actor in hand. -/
lemma Sound.loop (h : Sound s) {phase : Phase} {calling : Activity}
    (hfrom : s.phase.running = true) (hto : phase.running = true)
    (hcalling : phase ≠ .callback → calling = .idle)
    (hstopping : phase = .stopping → s.shutdown = true)
    (hrefs : calling.refs = s.calling.refs) (hweight : calling.weight = s.calling.weight) :
    Sound { s with phase := phase, calling := calling } := by
  refine ⟨h.balanced.congr rfl rfl rfl ?_ ?_, fun _ => hcalling, ?_, ?_, hstopping, ?_, ?_⟩
  · simp only [MtScheduler.total, hrefs]
  · simp only [MtScheduler.total, hweight]
  · intro hnot
    rw [hto] at hnot
    cases hnot
  · rintro rfl
    cases hto
  · intro hdecided
    refine h.decided ?_
    rw [MtScheduler.decided] at hdecided ⊢
    rw [hfrom]
    rwa [hto] at hdecided
  · rintro rfl
    cases hto

/-- Workers that have just been started have nothing in hand. -/
lemma Sound.start (h : Sound s) (hphase : s.phase = .called) :
    Sound { s with
      phase := .looping
      workers := List.replicate s.threadCount .idle
      asked := 0 } := by
  have hworkers : s.workers = [] := h.workers (by rw [hphase]; rfl)
  refine ⟨h.balanced.congr rfl rfl rfl ?_ ?_, ?_, nofun, nofun, nofun, ?_, nofun⟩
  · simp [MtScheduler.total, hworkers, Activity.refs]
  · simp [MtScheduler.total, hworkers, Activity.weight]
  · exact fun _ _ => h.calling (by rw [hphase]; nofun) (by rw [hphase]; nofun)
  · intro hdecided
    simp [MtScheduler.decided, h.called hphase, Activity.readZero] at hdecided

/-- `run` returns at once if the counter is zero. -/
lemma Sound.skip (h : Sound s) (hphase : s.phase = .called) (hcount : s.activeActorCount = 0) :
    Sound { s with phase := .returned } := by
  have hworkers : s.workers = [] := h.workers (by rw [hphase]; rfl)
  have hcalling : s.calling = .idle := h.calling (by rw [hphase]; nofun) (by rw [hphase]; nofun)
  have hactors : s.actors = [] :=
    h.balanced.actors_eq_nil hcount (by rw [hcalling]; rfl) (by simp [hworkers])
  exact ⟨h.balanced.congr rfl rfl rfl rfl rfl, fun _ _ => hcalling, fun _ => hworkers, nofun,
    nofun, nofun, fun _ => ⟨hactors, hcount⟩⟩

/-- While the workers are being joined nobody is registered. -/
lemma Sound.empty_of_stopping (h : Sound s) (hphase : s.phase = .stopping) : s.actors = [] :=
  h.decided (by rw [MtScheduler.decided, hphase, h.stopping hphase]; rfl)

lemma Sound.join (h : Sound s) {i : ℕ} (hphase : s.phase = .stopping)
    (hi : s.workers[i]? = some .idle) :
    Sound { s with workers := s.workers.set i .joined } := by
  refine ⟨h.balanced.congr rfl rfl rfl ?_ ?_, h.calling, ?_, h.called, h.stopping,
    fun _ => h.empty_of_stopping hphase, h.returned⟩
  · have hsum := sum_map_set (y := .joined) Activity.refs hi
    rw [MtScheduler.total, MtScheduler.total]
    exact congrArg (s.calling.refs + ·) (add_right_cancel (b := 0) hsum)
  · have hsum := sum_map_set (y := .joined) Activity.weight hi
    rw [MtScheduler.total, MtScheduler.total]
    exact congrArg (s.calling.weight + ·) (add_right_cancel (b := 0) hsum)
  · intro hnot
    rw [hphase] at hnot
    cases hnot

/-- All workers have been joined. -/
lemma Sound.finish (h : Sound s) (hphase : s.phase = .stopping)
    (hjoined : ∀ x ∈ s.workers, x = .joined) :
    Sound { s with phase := .returned, workers := [] } := by
  have hcalling : s.calling = .idle := h.calling (by rw [hphase]; nofun) (by rw [hphase]; nofun)
  have hworkers : s.workers = List.replicate s.workers.length .joined :=
    List.eq_replicate_iff.mpr ⟨rfl, hjoined⟩
  have hrefs : s.total Activity.refs = 0 := by
    rw [MtScheduler.total, hcalling, hworkers]
    simp [Activity.refs]
  have hweight : s.total Activity.weight = 0 := by
    rw [MtScheduler.total, hcalling, hworkers]
    simp [Activity.weight]
  have hactors := h.empty_of_stopping hphase
  refine ⟨h.balanced.congr rfl rfl rfl ?_ ?_, fun _ _ => hcalling, fun _ => rfl, nofun, nofun,
    nofun, fun _ => ⟨hactors, h.balanced.count_eq_zero hactors hweight⟩⟩
  · rw [hrefs, MtScheduler.total, hcalling]
    rfl
  · rw [hweight, MtScheduler.total, hcalling]
    rfl

/-- Every unhurried step keeps the invariant. -/
lemma Sound.step {l : Label} (h : Sound s) (hok : Unhurried s l) (hstep : step s l = some u) :
    Sound u := by
  cases l with
  | work t w =>
      simp only [MtRun.step] at hstep
      split at hstep
      · cases hstep
      · rename_i hcall
        rw [not_or] at hcall
        obtain ⟨x, hx, hmap⟩ := Option.bind_eq_some_iff.mp hstep
        obtain ⟨⟨v, y⟩, hw, rfl⟩ := Option.map_eq_some_iff.mp hmap
        exact h.work hcall.1 hx hw hok
  | call =>
      simp only [MtRun.step, Option.ite_none_right_eq_some, Option.some.injEq] at hstep
      obtain ⟨⟨hphase, hcalling⟩, rfl⟩ := hstep
      refine ⟨h.balanced.congr rfl rfl rfl ?_ ?_, fun _ _ => rfl, ?_, fun _ => rfl, nofun, nofun,
        nofun⟩
      · simp [MtScheduler.total, hcalling, Activity.refs]
      · simp [MtScheduler.total, hcalling, Activity.weight]
      · exact fun _ => h.workers (by rw [hphase]; rfl)
  | check =>
      simp only [MtRun.step, Option.ite_none_right_eq_some] at hstep
      obtain ⟨hphase, hstep⟩ := hstep
      split at hstep
      · obtain rfl := Option.some.inj hstep
        exact h.skip hphase ‹_›
      · obtain rfl := Option.some.inj hstep
        exact h.start hphase
  -- within `timer_loop` the calling thread works only while a callback runs
  | enterLoop =>
      simp only [MtRun.step, Option.ite_none_right_eq_some, Option.some.injEq] at hstep
      obtain ⟨⟨hphase, -⟩, rfl⟩ := hstep
      have hcalling := h.calling (by rw [hphase]; nofun) (by rw [hphase]; nofun)
      exact h.loop (by rw [hphase]; rfl) rfl (fun _ => hcalling) nofun rfl rfl
  | leaveLoop | breakLoop =>
      simp only [MtRun.step, Option.ite_none_right_eq_some, Option.some.injEq] at hstep
      obtain ⟨⟨hphase, hshutdown⟩, rfl⟩ := hstep
      have hcalling := h.calling (by rw [hphase]; nofun) (by rw [hphase]; nofun)
      exact h.loop (by rw [hphase]; rfl) rfl (fun _ => hcalling) (fun _ => hshutdown) rfl rfl
  | fire =>
      simp only [MtRun.step, Option.ite_none_right_eq_some, Option.some.injEq] at hstep
      obtain ⟨⟨hphase, -⟩, rfl⟩ := hstep
      have hcalling := h.calling (by rw [hphase]; nofun) (by rw [hphase]; nofun)
      exact h.loop (by rw [hphase]; rfl) rfl (fun hc => absurd rfl hc) nofun
        (by rw [hcalling]; rfl) (by rw [hcalling]; rfl)
  | wake =>
      simp only [MtRun.step, Option.ite_none_right_eq_some, Option.some.injEq] at hstep
      obtain ⟨hphase, rfl⟩ := hstep
      have hcalling := h.calling (by rw [hphase]; nofun) (by rw [hphase]; nofun)
      exact h.loop (by rw [hphase]; rfl) rfl (fun _ => hcalling) nofun rfl rfl
  | callbackReturns =>
      simp only [MtRun.step, Option.ite_none_right_eq_some, Option.some.injEq] at hstep
      obtain ⟨⟨hphase, hcalling⟩, rfl⟩ := hstep
      exact h.loop (by rw [hphase]; rfl) rfl (fun _ => rfl) nofun (by rw [hcalling]; rfl)
        (by rw [hcalling]; rfl)
  | requestStop =>
      simp only [MtRun.step, Option.ite_none_right_eq_some, Option.some.injEq] at hstep
      obtain ⟨-, rfl⟩ := hstep
      exact { h with balanced := h.balanced.congr rfl rfl rfl rfl rfl }
  | join i =>
      simp only [MtRun.step, Option.ite_none_right_eq_some, Option.some.injEq] at hstep
      obtain ⟨⟨hphase, -, hi⟩, rfl⟩ := hstep
      exact h.join hphase hi
  | runReturns =>
      simp only [MtRun.step, Option.ite_none_right_eq_some, Option.some.injEq] at hstep
      obtain ⟨⟨hphase, hjoined⟩, rfl⟩ := hstep
      exact h.finish hphase hjoined
  | proceed =>
      simp only [MtRun.step, Option.ite_none_right_eq_some, Option.some.injEq] at hstep
      obtain ⟨hphase, rfl⟩ := hstep
      have hcalling := h.calling (by rw [hphase]; nofun) (by rw [hphase]; nofun)
      refine ⟨h.balanced.congr rfl rfl rfl ?_ ?_, fun hc => absurd rfl hc, ?_, nofun, nofun, nofun,
        nofun⟩
      · simp [MtScheduler.total, hcalling, Activity.refs]
      · simp [MtScheduler.total, hcalling, Activity.weight]
      · exact fun _ => h.workers (by rw [hphase]; rfl)

/-! ### The return of `run` -/

/-- In runs of unhurried steps, every actor has exited when `run` returns. -/
theorem run_returns_empty {threadCount : ℕ} {ls : List Label} {s : MtScheduler}
    (hrun : run step { threadCount := threadCount } ls = some s)
    (hok : AllSteps step Unhurried { threadCount := threadCount } ls)
    (hreturned : s.phase = .returned) : s.actors = [] ∧ s.activeActorCount = 0 := by
  have hinit : Sound { threadCount := threadCount } :=
    ⟨⟨rfl, rfl⟩, fun hc => absurd rfl hc, fun _ => rfl, nofun, nofun, nofun, nofun⟩
  exact (invariant (fun _ _ _ h hok hstep => h.step hok hstep) hinit hok hrun).returned hreturned

/-- The calling thread spawns an actor and calls `run`. -/
def spawnAndRun : List Label :=
  [.work .calling .register, .work .calling .increment, .work .calling .detach, .call, .check]

/-- The worker runs the first actor to its end and tests the counter. -/
def exitFirst : List Label :=
  [.work (.worker 0) .poll, .work (.worker 0) (.resume 1), .work (.worker 0) .complete,
    .work (.worker 0) .erase, .work (.worker 0) .decrement, .work (.worker 0) .signal,
    .work (.worker 0) .test]

/-- The worker stores `shutdown_`, is asked to stop and is joined. -/
def shutDown : List Label :=
  [.work (.worker 0) .store, .leaveLoop, .requestStop, .join 0, .runReturns]

/-- A callback spawns a second actor. -/
def spawnSecond : List Label :=
  [.work .calling .register, .work .calling .increment, .work .calling .detach, .callbackReturns]

/-- One actor is spawned, exits, and `run` returns. -/
def oneActor : List Label := spawnAndRun ++ exitFirst ++ shutDown

/-- Nobody is left when `run` returns. -/
theorem run_returns_empty_one :
    run step { threadCount := 1 } oneActor = some (reached step { threadCount := 1 } oneActor) ∧
      (reached step { threadCount := 1 } oneActor).actors = [] ∧
      (reached step { threadCount := 1 } oneActor).activeActorCount = 0 :=
  have hrun := run_eq_reached (by decide +kernel)
  ⟨hrun, run_returns_empty hrun (by decide +kernel) (by decide +kernel)⟩

/-- The last actor exits while a callback is running, which spawns another after the test: `run`
returns and leaves it behind. -/
theorem run_returns_early :
    ∃ s, run step { threadCount := 1 } (spawnAndRun ++ [.enterLoop, .fire] ++ exitFirst ++
        spawnSecond ++ shutDown) = some s ∧
      s.phase = .returned ∧ s.actors = [2] ∧ s.activeActorCount = 1 :=
  ⟨_, run_eq_reached (by decide +kernel), by decide +kernel, by decide +kernel,
    by decide +kernel⟩

end Agner.MtRun
