import Agner.Foundations.Runs

/-!
`asio_scheduler.hpp`: a scheduler on a `boost::asio::io_context`, and its awaits of futures and
awaitables.

An awaited operation completes on some other thread, or on the thread of `run`: it stores its
result, schedules the coroutine, and resets the guard that has kept `run` from returning. What the
other threads and the coroutines do comes in between.

* `IoContext`: what is documented of the `io_context`. It says nothing about the order in which
  handlers are taken.
* `AsioScheduler`, `step`: the scheduler, the operations that are awaited and the coroutines.
* `Sound`: the invariant. A handle is in the queue if and only if its coroutine is due to be
  resumed, and then once.
* `awaits_resumed_once`: every await is resumed once at most, and with the result of its own
  operation; unless it is stopped, `run` returns with no await outstanding.
-/

namespace Agner

open Runs

namespace Asio

/-- What is posted to the `io_context`. -/
inductive Handler where
  | resume (handle : ℕ)
  /-- The handler of a timer. -/
  | expired (callback : ℕ)
  deriving DecidableEq

/-- What can be said about an `io_context`. -/
structure Contents where
  /-- What has been posted and not taken. -/
  queued : Multiset Handler := 0
  /-- The work guards and asynchronous operations that are outstanding. -/
  work : ℕ := 0
  stopped : Bool := false

/-- `boost::asio::io_context`. -/
structure IoContext where
  State : Type
  create : State
  post : State → Handler → State
  /-- The handler that `run` executes next. -/
  take : State → Option (Handler × State)
  workStarted : State → State
  workFinished : State → State
  stop : State → State
  restart : State → State
  contents : State → Contents
  contents_create : contents create = {}
  contents_post (s : State) (h : Handler) :
    contents (post s h) = { contents s with queued := h ::ₘ (contents s).queued }
  contents_take {s t : State} {h : Handler} (htake : take s = some (h, t)) :
    contents s = { contents t with queued := h ::ₘ (contents t).queued }
  contents_workStarted (s : State) :
    contents (workStarted s) = { contents s with work := (contents s).work + 1 }
  contents_workFinished (s : State) :
    contents (workFinished s) = { contents s with work := (contents s).work - 1 }
  contents_stop (s : State) : contents (stop s) = { contents s with stopped := true }
  contents_restart (s : State) : contents (restart s) = { contents s with stopped := false }

/-- How far an awaited operation has come. -/
inductive Stage where
  | unused
  | waiting
  /-- The result has been stored. -/
  | stored
  /-- The coroutine has been scheduled. -/
  | posted
  /-- The guard has been reset. -/
  | released
  deriving DecidableEq

/-- The coroutine has been scheduled. -/
def Stage.isPosted : Stage → Bool
  | .posted | .released => true
  | _ => false

/-- `asio_await_state`. -/
structure AwaitState (E V : Type) where
  handle : ℕ := 0
  result : Option V := none
  exception : Option E := none
  stage : Stage := .unused

namespace AwaitState

variable {E V : Type}

/-- The completion stores the result. -/
def store (a : AwaitState E V) : Except E V → AwaitState E V
  | .error e => { a with exception := some e, stage := .stored }
  | .ok v => { a with result := some v, stage := .stored }

/-- `resume_result`: what is thrown or returned; `none` if there is nothing to take. -/
def resumeResult (a : AwaitState E V) : Option (Except E V) :=
  match a.exception with
  | some e => some (.error e)
  | none => a.result.map .ok

lemma stage_store (a : AwaitState E V) (outcome : Except E V) :
    (a.store outcome).stage = .stored := by
  cases outcome <;> rfl

lemma handle_store (a : AwaitState E V) (outcome : Except E V) :
    (a.store outcome).handle = a.handle := by
  cases outcome <;> rfl

lemma resumeResult_store {a : AwaitState E V} (h : a.exception = none) (outcome : Except E V) :
    (a.store outcome).resumeResult = some outcome := by
  cases outcome <;> simp [store, resumeResult, h]

end AwaitState

/-- Where a coroutine is. -/
inductive Place where
  | unused
  /-- Its handle has been posted. -/
  | scheduled
  | running
  /-- In `asio_await`. -/
  | suspended (k : ℕ)
  /-- Suspended at something else. -/
  | parked
  | done
  deriving DecidableEq

/-- User code that `run` has called. -/
inductive Running where
  | coroutine (handle : ℕ)
  | callback (callback : ℕ)
  deriving DecidableEq

/-- The scheduler, with the coroutines and what they await. Coroutine handles and callbacks are
numbers. -/
structure AsioScheduler (io : IoContext) (E V : Type) where
  ioContext : io.State := io.create
  inRun : Bool := false
  running : Option Running := none
  places : ℕ → Place := fun _ => .unused
  nextHandle : ℕ := 0
  awaits : ℕ → AwaitState E V := fun _ => {}
  nextAwait : ℕ := 0
  /-- The callbacks of the timers that wait. -/
  timers : Multiset ℕ := 0
  /-- The awaits that have been resumed, with what they threw or returned. -/
  resumed : List (ℕ × Option (Except E V)) := []
  /-- The callbacks that `schedule_after` has been called with. -/
  added : Multiset ℕ := 0
  called : Multiset ℕ := 0

/-- What happens next. -/
inductive Label (E V : Type) where
  /-- User code starts a coroutine. -/
  | detach
  /-- User code schedules a coroutine that is suspended at something else than an await. -/
  | schedule (handle : ℕ)
  | scheduleAfter (callback : ℕ)
  /-- The running coroutine awaits an operation. -/
  | await
  /-- The running coroutine is suspended at something else. -/
  | park
  /-- The running coroutine ends, or the callback returns. -/
  | finish
  /-- An operation completes with an exception or a value. -/
  | complete (k : ℕ) (outcome : Except E V)
  /-- Its completion schedules the coroutine. -/
  | post (k : ℕ)
  /-- Its completion resets the guard. -/
  | reset (k : ℕ)
  /-- A timer expires. -/
  | expire (callback : ℕ)
  | run
  /-- `run` executes the next handler. -/
  | take
  | runReturns
  | stop

namespace AsioScheduler

variable {io : IoContext} {E V : Type}

/-- User code may call the scheduler. -/
def userCode (s : AsioScheduler io E V) : Bool := s.running.isSome || !s.inRun

/-- The coroutine goes to a place. -/
def move (s : AsioScheduler io E V) (handle : ℕ) (p : Place) : AsioScheduler io E V :=
  { s with places := Function.update s.places handle p }

/-- Assignment to members of the state of an await. -/
def updateAwait (s : AsioScheduler io E V) (k : ℕ) (f : AwaitState E V → AwaitState E V) :
    AsioScheduler io E V :=
  { s with awaits := Function.update s.awaits k (f (s.awaits k)) }

/-- `asio_scheduler_state::schedule`. -/
def schedule (s : AsioScheduler io E V) (handle : ℕ) : AsioScheduler io E V :=
  if s.places handle = .done then s
  else { s with ioContext := io.post s.ioContext (.resume handle) }

/-- The handler that `schedule` posts. A coroutine suspended in `asio_await` goes on with
`await_resume`. -/
def resume (s : AsioScheduler io E V) (handle : ℕ) : AsioScheduler io E V :=
  match s.places handle with
  | .done => s
  | .suspended k =>
      { s.move handle .running with
        running := some (.coroutine handle)
        resumed := s.resumed ++ [(k, (s.awaits k).resumeResult)] }
  | _ => { s.move handle .running with running := some (.coroutine handle) }

/-- `await_suspend`: the state with its guard. -/
def await (s : AsioScheduler io E V) (handle : ℕ) : AsioScheduler io E V :=
  { s.move handle (.suspended s.nextAwait) with
    ioContext := io.workStarted s.ioContext
    running := none
    awaits := Function.update s.awaits s.nextAwait { handle := handle, stage := .waiting }
    nextAwait := s.nextAwait + 1 }

/-- One step. -/
def step (s : AsioScheduler io E V) : Label E V → Option (AsioScheduler io E V)
  | .detach =>
      if s.userCode then
        some { (s.move s.nextHandle .scheduled).schedule s.nextHandle with
          nextHandle := s.nextHandle + 1 }
      else none
  | .schedule handle =>
      if s.userCode ∧ s.places handle = .parked then
        some ((s.move handle .scheduled).schedule handle)
      else none
  | .scheduleAfter callback =>
      if s.userCode then
        some { s with
          ioContext := io.workStarted s.ioContext
          timers := callback ::ₘ s.timers
          added := callback ::ₘ s.added }
      else none
  | .await =>
      match s.running with
      | some (.coroutine handle) => some (s.await handle)
      | _ => none
  | .park =>
      match s.running with
      | some (.coroutine handle) => some { s.move handle .parked with running := none }
      | _ => none
  | .finish =>
      match s.running with
      | some (.coroutine handle) => some { s.move handle .done with running := none }
      | some (.callback _) => some { s with running := none }
      | none => none
  | .complete k outcome =>
      if (s.awaits k).stage = .waiting then some (s.updateAwait k fun a => a.store outcome)
      else none
  | .post k =>
      if (s.awaits k).stage = .stored then
        some ((s.schedule (s.awaits k).handle).updateAwait k fun a => { a with stage := .posted })
      else none
  | .reset k =>
      if (s.awaits k).stage = .posted then
        some { s.updateAwait k fun a => { a with stage := .released } with
          ioContext := io.workFinished s.ioContext }
      else none
  | .expire callback =>
      if callback ∈ s.timers then
        some { s with
          ioContext := io.post (io.workFinished s.ioContext) (.expired callback)
          timers := s.timers.erase callback }
      else none
  | .run =>
      if s.inRun then none
      else some { s with ioContext := io.restart s.ioContext, inRun := true }
  | .take =>
      if s.inRun ∧ s.running = none ∧ (io.contents s.ioContext).stopped = false then
        (io.take s.ioContext).map fun r =>
          match r.1 with
          | .resume handle => { s with ioContext := r.2 }.resume handle
          | .expired callback =>
              { s with
                ioContext := r.2
                running := some (.callback callback)
                called := callback ::ₘ s.called }
      else none
  | .runReturns =>
      if s.inRun ∧ s.running = none ∧ ((io.contents s.ioContext).stopped = true ∨
          (io.contents s.ioContext).queued = 0 ∧ (io.contents s.ioContext).work = 0) then
        some { s with ioContext := io.stop s.ioContext, inRun := false }
      else none
  | .stop => some { s with ioContext := io.stop s.ioContext }

/-! ### Coroutines and awaits -/

variable {s t : AsioScheduler io E V} {reported : ℕ → Except E V → Prop}

/-- The await has been resumed. -/
def Resumed (s : AsioScheduler io E V) (k : ℕ) : Prop := k ∈ s.resumed.map Prod.fst

/-- Coroutines and awaits agree. The completions report the given outcomes. -/
structure Agrees (reported : ℕ → Except E V → Prop) (s : AsioScheduler io E V) : Prop where
  running : ∀ c, s.places c = .running ↔ s.running = some (.coroutine c)
  fresh : ∀ c, s.nextHandle ≤ c → s.places c = .unused
  unused : ∀ k, (s.awaits k).stage = .unused ↔ s.nextAwait ≤ k
  suspended : ∀ c k, s.places c = .suspended k →
    (s.awaits k).handle = c ∧ (s.awaits k).stage ≠ .unused ∧ ¬ s.Resumed k
  awaiting : ∀ k, (s.awaits k).stage ≠ .unused → ¬ s.Resumed k →
    s.places (s.awaits k).handle = .suspended k
  empty : ∀ k, (s.awaits k).stage = .waiting → (s.awaits k).exception = none
  stored : ∀ k, (s.awaits k).stage ≠ .unused → (s.awaits k).stage ≠ .waiting →
    ∃ outcome, (s.awaits k).resumeResult = some outcome ∧ reported k outcome
  resumed : ∀ x ∈ s.resumed, (s.awaits x.1).stage.isPosted = true ∧
    x.2 = (s.awaits x.1).resumeResult
  nodup : (s.resumed.map Prod.fst).Nodup

/-- Neither the coroutines nor the awaits change. -/
lemma Agrees.frame (h : s.Agrees reported) (hplaces : t.places = s.places)
    (hawaits : t.awaits = s.awaits) (hresumed : t.resumed = s.resumed)
    (hhandle : t.nextHandle = s.nextHandle) (hawait : t.nextAwait = s.nextAwait)
    (hrunning : ∀ c, t.running = some (.coroutine c) ↔ s.running = some (.coroutine c)) :
    t.Agrees reported where
  running c := by rw [hplaces, hrunning, h.running]
  fresh := by rw [hplaces, hhandle]; exact h.fresh
  unused := by rw [hawaits, hawait]; exact h.unused
  suspended := by simpa only [Resumed, hplaces, hawaits, hresumed] using h.suspended
  awaiting := by simpa only [Resumed, hplaces, hawaits, hresumed] using h.awaiting
  empty := by rw [hawaits]; exact h.empty
  stored := by rw [hawaits]; exact h.stored
  resumed := by rw [hawaits, hresumed]; exact h.resumed
  nodup := by rw [hresumed]; exact h.nodup

/-- A coroutine that is not suspended at an await moves, and not to an await. -/
lemma Agrees.move {c : ℕ} {p : Place} (h : s.Agrees reported)
    (hplaces : t.places = Function.update s.places c p) (hawaits : t.awaits = s.awaits)
    (hresumed : t.resumed = s.resumed) (hawait : t.nextAwait = s.nextAwait)
    (hhandle : ∀ x, t.nextHandle ≤ x → s.nextHandle ≤ x ∧ x ≠ c)
    (hfrom : ∀ k, s.places c ≠ .suspended k) (hto : ∀ k, p ≠ .suspended k)
    (hrunning : ∀ x, Function.update s.places c p x = .running ↔
      t.running = some (.coroutine x)) : t.Agrees reported where
  running x := by rw [hplaces, hrunning]
  fresh x hx := by
    obtain ⟨hle, hne⟩ := hhandle x hx
    rw [hplaces, Function.update_of_ne hne]
    exact h.fresh x hle
  unused := by rw [hawaits, hawait]; exact h.unused
  suspended x k hx := by
    rw [hplaces] at hx
    rcases eq_or_ne x c with rfl | hne
    · rw [Function.update_self] at hx
      exact absurd hx (hto k)
    · rw [Function.update_of_ne hne] at hx
      simpa only [Resumed, hawaits, hresumed] using h.suspended x k hx
  awaiting k hk hnot := by
    rw [Resumed, hresumed] at hnot
    rw [hawaits] at hk ⊢
    have hplace := h.awaiting k hk hnot
    rw [hplaces, Function.update_of_ne, hplace]
    rintro rfl
    exact hfrom k hplace
  empty := by rw [hawaits]; exact h.empty
  stored := by rw [hawaits]; exact h.stored
  resumed := by rw [hawaits, hresumed]; exact h.resumed
  nodup := by rw [hresumed]; exact h.nodup

/-- The completion of an await goes on. -/
lemma Agrees.updateAwait {k : ℕ} {a : AwaitState E V} (h : s.Agrees reported)
    (hawaits : t.awaits = Function.update s.awaits k a) (hplaces : t.places = s.places)
    (hresumed : t.resumed = s.resumed) (hhandle : t.nextHandle = s.nextHandle)
    (hawait : t.nextAwait = s.nextAwait) (hrunning : t.running = s.running)
    (hsame : a.handle = (s.awaits k).handle) (hused : (s.awaits k).stage ≠ .unused)
    (hlater : a.stage ≠ .unused ∧ a.stage ≠ .waiting)
    (hstored : ∃ outcome, a.resumeResult = some outcome ∧ reported k outcome)
    (hposted : (s.awaits k).stage.isPosted = true →
      a.stage.isPosted = true ∧ a.resumeResult = (s.awaits k).resumeResult) :
    t.Agrees reported where
  running := by rw [hplaces, hrunning]; exact h.running
  fresh := by rw [hplaces, hhandle]; exact h.fresh
  unused x := by
    rw [hawaits, hawait]
    rcases eq_or_ne x k with rfl | hne
    · rw [Function.update_self, ← h.unused]
      exact iff_of_false hlater.1 hused
    · rw [Function.update_of_ne hne]
      exact h.unused x
  suspended c x hx := by
    rw [hplaces] at hx
    rw [Resumed, hresumed, hawaits]
    obtain ⟨hc, hstage, hnot⟩ := h.suspended c x hx
    rcases eq_or_ne x k with rfl | hne
    · rw [Function.update_self]
      exact ⟨hsame.trans hc, hlater.1, hnot⟩
    · rw [Function.update_of_ne hne]
      exact ⟨hc, hstage, hnot⟩
  awaiting x hx hnot := by
    rw [Resumed, hresumed] at hnot
    rw [hawaits] at hx ⊢
    rw [hplaces]
    rcases eq_or_ne x k with rfl | hne
    · rw [Function.update_self, hsame]
      exact h.awaiting x hused hnot
    · rw [Function.update_of_ne hne] at hx ⊢
      exact h.awaiting x hx hnot
  empty x hx := by
    rw [hawaits] at hx ⊢
    rcases eq_or_ne x k with rfl | hne
    · rw [Function.update_self] at hx
      exact absurd hx hlater.2
    · rw [Function.update_of_ne hne] at hx ⊢
      exact h.empty x hx
  stored x hx hwaiting := by
    rw [hawaits] at hx hwaiting ⊢
    rcases eq_or_ne x k with rfl | hne
    · rw [Function.update_self]
      exact hstored
    · rw [Function.update_of_ne hne] at hx hwaiting ⊢
      exact h.stored x hx hwaiting
  resumed x hx := by
    rw [hresumed] at hx
    rw [hawaits]
    obtain ⟨hstage, hresult⟩ := h.resumed x hx
    rcases eq_or_ne x.1 k with heq | hne
    · rw [heq] at hstage hresult ⊢
      rw [Function.update_self]
      obtain ⟨hp, hr⟩ := hposted hstage
      exact ⟨hp, hresult.trans hr.symm⟩
    · rw [Function.update_of_ne hne]
      exact ⟨hstage, hresult⟩
  nodup := by rw [hresumed]; exact h.nodup

/-- A coroutine begins to await an operation. -/
lemma Agrees.await {c : ℕ} (h : s.Agrees reported) (hc : s.running = some (.coroutine c)) :
    (s.await c).Agrees reported where
  running x := by
    rcases eq_or_ne x c with rfl | hne
    · simp [AsioScheduler.await, AsioScheduler.move]
    · have hx : s.places x ≠ .running := fun hx => hne (by
        have := (h.running x).mp hx
        simpa [hc] using this.symm)
      simp [AsioScheduler.await, AsioScheduler.move, Function.update_of_ne hne, hx]
  fresh x hx := by
    have hne : x ≠ c := by
      rintro rfl
      exact absurd ((h.fresh x hx).symm.trans ((h.running x).mpr hc)) (by simp)
    exact (Function.update_of_ne hne _ _).trans (h.fresh x hx)
  unused k := by
    change (Function.update s.awaits s.nextAwait _ k).stage = .unused ↔ s.nextAwait + 1 ≤ k
    rcases eq_or_ne k s.nextAwait with rfl | hne
    · rw [Function.update_self]
      exact iff_of_false (by simp) (by omega)
    · rw [Function.update_of_ne hne, h.unused]
      omega
  suspended x k hx := by
    change Function.update s.places c _ x = _ at hx
    change (Function.update s.awaits s.nextAwait _ k).handle = x ∧
      (Function.update s.awaits s.nextAwait _ k).stage ≠ .unused ∧ ¬ s.Resumed k
    rcases eq_or_ne x c with rfl | hne
    · -- the new await has not been used, so nothing has been resumed for it
      rw [Function.update_self] at hx
      obtain rfl : s.nextAwait = k := Place.suspended.inj hx
      rw [Function.update_self]
      refine ⟨rfl, by simp, fun hresumed => ?_⟩
      obtain ⟨y, hy, heq⟩ := List.mem_map.mp hresumed
      have hposted := (h.resumed y hy).1
      rw [heq, (h.unused _).mpr le_rfl] at hposted
      cases hposted
    · rw [Function.update_of_ne hne] at hx
      obtain ⟨hhandle, hstage, hnot⟩ := h.suspended x k hx
      have hk : k ≠ s.nextAwait := by
        rintro rfl
        exact hstage ((h.unused _).mpr le_rfl)
      rw [Function.update_of_ne hk]
      exact ⟨hhandle, hstage, hnot⟩
  awaiting k hk hnot := by
    change (Function.update s.awaits s.nextAwait _ k).stage ≠ .unused at hk
    change Function.update s.places c _ (Function.update s.awaits s.nextAwait _ k).handle = _
    rcases eq_or_ne k s.nextAwait with rfl | hne
    · rw [Function.update_self, Function.update_self]
    · rw [Function.update_of_ne hne] at hk ⊢
      have hplace := h.awaiting k hk hnot
      rw [Function.update_of_ne, hplace]
      intro heq
      rw [heq, (h.running c).mpr hc] at hplace
      cases hplace
  empty k hk := by
    change (Function.update s.awaits s.nextAwait _ k).stage = .waiting at hk
    change (Function.update s.awaits s.nextAwait _ k).exception = none
    rcases eq_or_ne k s.nextAwait with rfl | hne
    · rw [Function.update_self]
    · rw [Function.update_of_ne hne] at hk ⊢
      exact h.empty k hk
  stored k hk hwaiting := by
    change (Function.update s.awaits s.nextAwait _ k).stage ≠ .unused at hk
    change (Function.update s.awaits s.nextAwait _ k).stage ≠ .waiting at hwaiting
    change ∃ outcome, (Function.update s.awaits s.nextAwait _ k).resumeResult = _ ∧ _
    rcases eq_or_ne k s.nextAwait with rfl | hne
    · rw [Function.update_self] at hwaiting
      exact absurd rfl hwaiting
    · rw [Function.update_of_ne hne] at hk hwaiting ⊢
      exact h.stored k hk hwaiting
  resumed x hx := by
    have hposted := h.resumed x hx
    have hne : x.1 ≠ s.nextAwait := by
      intro heq
      rw [heq, (h.unused _).mpr le_rfl] at hposted
      cases hposted.1
    change (Function.update s.awaits s.nextAwait _ x.1).stage.isPosted = true ∧
      x.2 = (Function.update s.awaits s.nextAwait _ x.1).resumeResult
    rw [Function.update_of_ne hne]
    exact hposted
  nodup := h.nodup

/-! ### What is in the queue -/

/-- The handle of the coroutine has been posted and not been taken. -/
def due (s : AsioScheduler io E V) (c : ℕ) : Bool :=
  match s.places c with
  | .scheduled => true
  | .suspended k => (s.awaits k).stage.isPosted
  | _ => false

/-- The awaits whose guards have not been reset. -/
def guards (s : AsioScheduler io E V) : Finset ℕ :=
  (Finset.range s.nextAwait).filter fun k => (s.awaits k).stage ≠ .released

lemma mem_guards {k : ℕ} :
    k ∈ s.guards ↔ k < s.nextAwait ∧ (s.awaits k).stage ≠ .released := by
  rw [guards, Finset.mem_filter, Finset.mem_range]

/-- What is in the queue of the `io_context`. -/
def queued (s : AsioScheduler io E V) : Multiset Handler := (io.contents s.ioContext).queued

/-- The work guards that are held. -/
def work (s : AsioScheduler io E V) : ℕ := (io.contents s.ioContext).work

lemma due_congr {c : ℕ} (hplace : t.places c = s.places c)
    (hawaits : ∀ k, s.places c = .suspended k →
      (t.awaits k).stage.isPosted = (s.awaits k).stage.isPosted) : t.due c = s.due c := by
  rw [due, due, hplace]
  cases hc : s.places c with
  | suspended k => exact hawaits k hc
  | unused | scheduled | running | parked | done => rfl

/-- A coroutine whose handle is taken goes on. -/
lemma Agrees.resume {c : ℕ} (h : s.Agrees reported) (hnone : s.running = none)
    (hdue : s.due c = true) : (s.resume c).Agrees reported ∧ (s.resume c).due c = false ∧
      (∀ x ≠ c, (s.resume c).due x = s.due x) := by
  have hrunning : ∀ x, Function.update s.places c .running x = .running ↔
      some (Running.coroutine c) = some (.coroutine x) := by
    intro x
    rcases eq_or_ne x c with rfl | hne
    · simp
    · have hx : s.places x ≠ .running := fun hx => by
        rw [(h.running x).mp hx] at hnone
        cases hnone
      simp [Function.update_of_ne hne, hx, hne.symm]
  have hlt : s.places c ≠ .unused → ∀ x, s.nextHandle ≤ x → s.nextHandle ≤ x ∧ x ≠ c := by
    rintro hplace x hx
    refine ⟨hx, ?_⟩
    rintro rfl
    exact hplace (h.fresh x hx)
  rw [due] at hdue
  rw [AsioScheduler.resume]
  cases hc : s.places c <;> simp only [hc, Bool.false_eq_true] at hdue
  case scheduled =>
    refine ⟨h.move rfl rfl rfl rfl (hlt (by simp [hc])) (by simp [hc]) (by simp) hrunning, ?_,
      fun x hx => due_congr (Function.update_of_ne hx _ _) fun _ _ => rfl⟩
    simp [due, AsioScheduler.move]
  case suspended k =>
    obtain ⟨hhandle, hstage, hnot⟩ := h.suspended c k hc
    refine ⟨⟨hrunning, fun x hx => ?_, h.unused, fun x j hx => ?_, fun j hj hnotj => ?_, h.empty,
      h.stored, fun x hx => ?_, ?_⟩, ?_,
      fun x hx => due_congr (Function.update_of_ne hx _ _) fun _ _ => rfl⟩
    · exact (Function.update_of_ne (hlt (by simp [hc]) x hx).2 _ _).trans (h.fresh x hx)
    · change Function.update s.places c _ x = _ at hx
      rcases eq_or_ne x c with rfl | hne
      · rw [Function.update_self] at hx
        cases hx
      · rw [Function.update_of_ne hne] at hx
        obtain ⟨hx', hj, hnotj⟩ := h.suspended x j hx
        refine ⟨hx', hj, fun hresumed => ?_⟩
        rw [Resumed, List.map_append, List.mem_append] at hresumed
        refine hresumed.elim hnotj fun hlast => hne ?_
        obtain rfl : j = k := by simpa using hlast
        exact hx'.symm.trans hhandle
    · rw [Resumed, List.map_append, List.mem_append, not_or] at hnotj
      have hplace := h.awaiting j hj hnotj.1
      have hne : (s.awaits j).handle ≠ c := by
        rintro heq
        rw [heq, hc] at hplace
        exact hnotj.2 (by simp [Place.suspended.inj hplace])
      exact (Function.update_of_ne hne _ _).trans hplace
    · rcases List.mem_append.mp hx with hx | hx
      · exact h.resumed x hx
      · obtain rfl := List.mem_singleton.mp hx
        exact ⟨hdue, rfl⟩
    · rw [List.map_append]
      refine h.nodup.append (List.nodup_singleton _) ?_
      exact List.disjoint_singleton.mpr hnot
    · simp [due, AsioScheduler.move]

/-- The callbacks of expired timers. -/
def expired (handlers : Multiset Handler) : Multiset ℕ :=
  handlers.filterMap fun
    | .expired callback => some callback
    | .resume _ => none

@[simp] lemma expired_zero : expired 0 = 0 := rfl

@[simp] lemma expired_cons_resume (c : ℕ) (handlers : Multiset Handler) :
    expired (.resume c ::ₘ handlers) = expired handlers := Multiset.filterMap_cons_none _ _ rfl

@[simp] lemma expired_cons_expired (f : ℕ) (handlers : Multiset Handler) :
    expired (.expired f ::ₘ handlers) = f ::ₘ expired handlers :=
  Multiset.filterMap_cons_some _ _ _ rfl

/-- The invariant. -/
structure Sound (reported : ℕ → Except E V → Prop) (s : AsioScheduler io E V) : Prop where
  agrees : s.Agrees reported
  queue : ∀ c, s.queued.count (.resume c) = if s.due c then 1 else 0
  work : s.work = s.guards.card + s.timers.card
  callbacks : s.added = s.timers + s.called + expired s.queued

lemma schedule_of_ne_done {c : ℕ} (h : s.places c ≠ .done) :
    s.schedule c = { s with ioContext := io.post s.ioContext (.resume c) } := if_neg h

/-- The handle of a coroutine that was not due is posted. -/
lemma count_post {c : ℕ} (h : s.Sound reported) (hqueued : t.queued = .resume c ::ₘ s.queued)
    (hc : s.due c = false) (hpost : t.due c = true) (hothers : ∀ x ≠ c, t.due x = s.due x) (x : ℕ) :
    t.queued.count (.resume x) = if t.due x then 1 else 0 := by
  rw [hqueued]
  rcases eq_or_ne x c with rfl | hne
  · rw [Multiset.count_cons_self, h.queue, hc, hpost]
    simp
  · rw [Multiset.count_cons_of_ne (by simpa using hne), h.queue, hothers x hne]

/-- Nobody becomes due, and no callback is called. -/
lemma Sound.quiet (h : s.Sound reported) (hagrees : t.Agrees reported)
    (hqueued : t.queued = s.queued) (hdue : ∀ c, t.due c = s.due c)
    (hwork : t.work + s.guards.card = s.work + t.guards.card) (htimers : t.timers = s.timers)
    (hadded : t.added = s.added) (hcalled : t.called = s.called) : t.Sound reported where
  agrees := hagrees
  queue c := by rw [hqueued, hdue, h.queue]
  work := by
    have hs := h.work
    rw [htimers]
    omega
  callbacks := by rw [hadded, htimers, hcalled, hqueued, h.callbacks]

/-- The handle of a coroutine that waits for nothing is scheduled. -/
lemma Sound.scheduled {c n : ℕ} (h : s.Sound reported) (hrunning : s.places c ≠ .running)
    (hscheduled : s.places c ≠ .scheduled) (hsuspended : ∀ k, s.places c ≠ .suspended k)
    (hn : ∀ x, n ≤ x → s.nextHandle ≤ x ∧ x ≠ c) :
    ({ (s.move c .scheduled).schedule c with nextHandle := n }).Sound reported := by
  have hdue : s.due c = false := by
    rw [due]
    cases hc : s.places c with
    | scheduled => exact absurd hc hscheduled
    | suspended k => exact absurd hc (hsuspended k)
    | unused | running | parked | done => rfl
  rw [schedule_of_ne_done (by simp [AsioScheduler.move])]
  refine ⟨h.agrees.move rfl rfl rfl rfl hn hsuspended (by simp) fun x => ?_,
    count_post h ?_ hdue ?_ fun x hx => due_congr (Function.update_of_ne hx _ _) fun _ _ => rfl,
    ?_, ?_⟩
  · rcases eq_or_ne x c with rfl | hne
    · rw [Function.update_self]
      exact iff_of_false (by simp) fun hx => hrunning ((h.agrees.running x).mpr hx)
    · rw [Function.update_of_ne hne]
      exact h.agrees.running x
  · exact congrArg Contents.queued (io.contents_post _ _)
  · simp [due, AsioScheduler.move]
  · exact (congrArg Contents.work (io.contents_post _ _)).trans h.work
  · refine h.callbacks.trans ?_
    change _ = s.timers + s.called + expired (io.contents (io.post s.ioContext _)).queued
    rw [io.contents_post]
    simp [queued]

/-- A running coroutine leaves the thread of `run` otherwise than into an await. -/
lemma Sound.leave {c : ℕ} {p : Place} (h : s.Sound reported)
    (hc : s.running = some (.coroutine c)) (hp : p = .parked ∨ p = .done) :
    ({ s.move c p with running := none }).Sound reported := by
  have hplace := (h.agrees.running c).mpr hc
  refine h.quiet (h.agrees.move (c := c) (p := p) rfl rfl rfl rfl (fun x hx => ⟨hx, ?_⟩)
    (by simp [hplace]) (by rcases hp with rfl | rfl <;> simp) fun x => ?_) rfl (fun x => ?_) rfl
    rfl rfl rfl
  · rintro rfl
    exact absurd ((h.agrees.fresh x hx).symm.trans hplace) (by simp)
  · rcases eq_or_ne x c with rfl | hne
    · rcases hp with rfl | rfl <;> simp
    · rw [Function.update_of_ne hne, h.agrees.running, hc]
      simp [hne.symm]
  · rcases eq_or_ne x c with rfl | hne
    · rcases hp with rfl | rfl <;> simp [due, AsioScheduler.move, hplace]
    · exact due_congr (Function.update_of_ne hne _ _) fun _ _ => rfl

lemma Sound.await {c : ℕ} (h : s.Sound reported) (hc : s.running = some (.coroutine c)) :
    (s.await c).Sound reported := by
  have hplace := (h.agrees.running c).mpr hc
  have hguards : (s.await c).guards = insert s.nextAwait s.guards := by
    ext k
    rw [Finset.mem_insert, mem_guards, mem_guards]
    change k < s.nextAwait + 1 ∧ (Function.update s.awaits s.nextAwait _ k).stage ≠ _ ↔ _
    rcases eq_or_ne k s.nextAwait with rfl | hne
    · simp
    · rw [Function.update_of_ne hne]
      have hlt : k < s.nextAwait + 1 ↔ k < s.nextAwait := by omega
      simp [hne, hlt]
  have hnot : s.nextAwait ∉ s.guards := fun hmem => absurd (mem_guards.mp hmem).1 (lt_irrefl _)
  refine h.quiet (h.agrees.await hc) ?_ (fun x => ?_) ?_ rfl rfl rfl
  · exact (congrArg Contents.queued (io.contents_workStarted s.ioContext)).trans rfl
  · rcases eq_or_ne x c with rfl | hne
    · simp [due, AsioScheduler.await, AsioScheduler.move, hplace, Stage.isPosted]
    · refine due_congr (Function.update_of_ne hne _ _) fun k hk => ?_
      have hused : k ≠ s.nextAwait := by
        rintro rfl
        exact (h.agrees.suspended x _ hk).2.1 ((h.agrees.unused _).mpr le_rfl)
      exact congrArg (fun a : AwaitState E V => a.stage.isPosted)
        (Function.update_of_ne hused _ _)
  · have hwork : (s.await c).work = s.work + 1 :=
      congrArg Contents.work (io.contents_workStarted _)
    rw [hguards, Finset.card_insert_of_notMem hnot, hwork]
    omega

/-- The completion of an await goes on, and does not schedule. -/
lemma Sound.updateAwait {k : ℕ} {a : AwaitState E V} (h : s.Sound reported)
    (hagrees : t.Agrees reported) (hawaits : t.awaits = Function.update s.awaits k a)
    (hplaces : t.places = s.places) (hqueued : t.queued = s.queued)
    (hposted : a.stage.isPosted = (s.awaits k).stage.isPosted)
    (hwork : t.work + s.guards.card = s.work + t.guards.card) (htimers : t.timers = s.timers)
    (hadded : t.added = s.added) (hcalled : t.called = s.called) : t.Sound reported := by
  refine h.quiet hagrees hqueued (fun x => ?_) hwork htimers hadded hcalled
  refine due_congr (congrFun hplaces x) fun j _ => ?_
  rw [hawaits]
  rcases eq_or_ne j k with rfl | hne
  · rw [Function.update_self, hposted]
  · rw [Function.update_of_ne hne]

lemma Sound.complete {k : ℕ} {outcome : Except E V} (h : s.Sound reported)
    (hk : (s.awaits k).stage = .waiting) (houtcome : reported k outcome) :
    (s.updateAwait k fun a => a.store outcome).Sound reported := by
  have hstage := (s.awaits k).stage_store outcome
  have hguards : (s.updateAwait k fun a => a.store outcome).guards = s.guards := by
    refine Finset.filter_congr fun j _ => ?_
    rcases eq_or_ne j k with rfl | hne
    · simp [AsioScheduler.updateAwait, hstage, hk]
    · simp [AsioScheduler.updateAwait, Function.update_of_ne hne]
  refine h.updateAwait (h.agrees.updateAwait rfl rfl rfl rfl rfl rfl
    (AwaitState.handle_store _ _) (by simp [hk]) (by simp [hstage]) ⟨outcome,
      AwaitState.resumeResult_store (h.agrees.empty k hk) _, houtcome⟩
      (by simp [hk, Stage.isPosted]))
    rfl rfl rfl (by simp [hstage, hk, Stage.isPosted]) (by rw [hguards]; rfl) rfl rfl rfl

lemma Sound.reset {k : ℕ} (h : s.Sound reported) (hk : (s.awaits k).stage = .posted) :
    { s.updateAwait k fun a => { a with stage := .released } with
      ioContext := io.workFinished s.ioContext }.Sound reported := by
  have hlt : k < s.nextAwait := not_le.mp fun hle => by
    rw [(h.agrees.unused k).mpr hle] at hk
    cases hk
  have hmem : k ∈ s.guards := mem_guards.mpr ⟨hlt, by simp [hk]⟩
  have hguards : (s.updateAwait k fun a => { a with stage := .released }).guards =
      s.guards.erase k := by
    ext j
    rw [Finset.mem_erase, mem_guards, mem_guards]
    change j < s.nextAwait ∧ (Function.update s.awaits k _ j).stage ≠ _ ↔ _
    rcases eq_or_ne j k with rfl | hne
    · simp
    · simp [hne]
  obtain ⟨outcome, hresult, hreported⟩ := h.agrees.stored k (by simp [hk]) (by simp [hk])
  refine h.updateAwait (h.agrees.updateAwait rfl rfl rfl rfl rfl rfl rfl (by simp [hk]) (by simp)
    ⟨outcome, hresult, hreported⟩ fun _ => ⟨rfl, rfl⟩) rfl rfl ?_ (by simp [hk, Stage.isPosted]) ?_
    rfl rfl rfl
  · exact (congrArg Contents.queued (io.contents_workFinished s.ioContext)).trans rfl
  · change (io.contents (io.workFinished s.ioContext)).work + s.guards.card =
      s.work + (s.updateAwait k fun a => { a with stage := .released }).guards.card
    have hpos : 0 < s.guards.card := Finset.card_pos.mpr ⟨k, hmem⟩
    have hwork := h.work
    rw [hguards, Finset.card_erase_of_mem hmem, io.contents_workFinished]
    change s.work - 1 + _ = _
    omega

lemma Sound.post {k : ℕ} (h : s.Sound reported) (hk : (s.awaits k).stage = .stored) :
    ((s.schedule (s.awaits k).handle).updateAwait k fun a => { a with stage := .posted }).Sound
      reported := by
  have hnot : ¬ s.Resumed k := fun hresumed => by
    obtain ⟨x, hx, rfl⟩ := List.mem_map.mp hresumed
    have hposted := (h.agrees.resumed x hx).1
    rw [hk] at hposted
    cases hposted
  have hplace := h.agrees.awaiting k (by simp [hk]) hnot
  have hguards : ((s.updateAwait k fun a => { a with stage := .posted })).guards = s.guards := by
    refine Finset.filter_congr fun j _ => ?_
    rcases eq_or_ne j k with rfl | hne
    · simp [AsioScheduler.updateAwait, hk]
    · simp [AsioScheduler.updateAwait, Function.update_of_ne hne]
  obtain ⟨outcome, hresult, hreported⟩ := h.agrees.stored k (by simp [hk]) (by simp [hk])
  rw [schedule_of_ne_done (by simp [hplace])]
  refine ⟨h.agrees.updateAwait rfl rfl rfl rfl rfl rfl rfl (by simp [hk]) (by simp)
    ⟨outcome, hresult, hreported⟩ (by simp [hk, Stage.isPosted]), count_post h ?_
    (c := (s.awaits k).handle) ?_ ?_ fun x hx => due_congr rfl fun j hj => ?_, ?_, ?_⟩
  · exact congrArg Contents.queued (io.contents_post _ _)
  · simp [due, hplace, hk, Stage.isPosted]
  · simp [due, AsioScheduler.updateAwait, hplace, Stage.isPosted]
  · have hne : j ≠ k := by
      rintro rfl
      exact hx (h.agrees.suspended x j hj).1.symm
    simp [AsioScheduler.updateAwait, Function.update_of_ne hne]
  · refine (congrArg Contents.work (io.contents_post _ _)).trans (h.work.trans ?_)
    rw [← hguards]
    rfl
  · refine h.callbacks.trans ?_
    change _ = s.timers + s.called + expired (io.contents (io.post s.ioContext _)).queued
    rw [io.contents_post]
    simp [queued]

lemma resume_frame (s : AsioScheduler io E V) (c : ℕ) :
    (s.resume c).ioContext = s.ioContext ∧ (s.resume c).timers = s.timers ∧
      (s.resume c).added = s.added ∧ (s.resume c).called = s.called ∧
      (s.resume c).guards = s.guards := by
  rw [AsioScheduler.resume]
  cases s.places c <;> exact ⟨rfl, rfl, rfl, rfl, rfl⟩

lemma Sound.resume {c : ℕ} {ctx : io.State} (h : s.Sound reported) (hnone : s.running = none)
    (htake : io.take s.ioContext = some (.resume c, ctx)) :
    ({ s with ioContext := ctx }.resume c).Sound reported := by
  have hcontents := io.contents_take htake
  have hqueued : s.queued = .resume c ::ₘ (io.contents ctx).queued :=
    congrArg Contents.queued hcontents
  have hcount := h.queue c
  rw [hqueued, Multiset.count_cons_self] at hcount
  have hdue : s.due c = true := by
    by_contra hnot
    simp [hnot] at hcount
  rw [hdue, if_pos rfl] at hcount
  have hframe : { s with ioContext := ctx }.Agrees reported :=
    h.agrees.frame rfl rfl rfl rfl rfl fun _ => Iff.rfl
  obtain ⟨hagrees, hself, hothers⟩ := hframe.resume hnone hdue
  obtain ⟨hctx, htimers, hadded, hcalled, hguards⟩ := resume_frame { s with ioContext := ctx } c
  refine ⟨hagrees, fun x => ?_, ?_, ?_⟩
  · rw [queued, hctx]
    rcases eq_or_ne x c with rfl | hne
    · rw [hself]
      change (io.contents ctx).queued.count _ = 0
      omega
    · have hx := h.queue x
      rw [hqueued, Multiset.count_cons_of_ne (by simpa using hne)] at hx
      rw [hothers x hne]
      exact hx
  · rw [AsioScheduler.work, hctx, hguards, htimers]
    exact (congrArg Contents.work hcontents).symm.trans h.work
  · have hcallbacks := h.callbacks
    rw [hqueued] at hcallbacks
    rw [queued, hctx, htimers, hadded, hcalled]
    simpa using hcallbacks

/-- The handler of a timer is executed. -/
lemma Sound.callback {f : ℕ} {ctx : io.State} (h : s.Sound reported) (hnone : s.running = none)
    (htake : io.take s.ioContext = some (.expired f, ctx)) :
    { s with ioContext := ctx, running := some (.callback f), called := f ::ₘ s.called }.Sound
      reported := by
  have hcontents := io.contents_take htake
  have hqueued : s.queued = .expired f ::ₘ (io.contents ctx).queued :=
    congrArg Contents.queued hcontents
  refine ⟨h.agrees.frame rfl rfl rfl rfl rfl (by simp [hnone]), fun x => ?_, ?_, ?_⟩
  · have hx := h.queue x
    rw [hqueued, Multiset.count_cons_of_ne (by simp)] at hx
    exact hx
  · exact (congrArg Contents.work hcontents).symm.trans h.work
  · have hcallbacks := h.callbacks
    rw [hqueued, expired_cons_expired] at hcallbacks
    change s.added = s.timers + f ::ₘ s.called + expired (io.contents ctx).queued
    rw [hcallbacks, Multiset.add_cons, Multiset.add_cons, Multiset.cons_add]

lemma Sound.expire {f : ℕ} (h : s.Sound reported) (hf : f ∈ s.timers) :
    { s with
      ioContext := io.post (io.workFinished s.ioContext) (.expired f)
      timers := s.timers.erase f }.Sound reported := by
  have hcontents : io.contents (io.post (io.workFinished s.ioContext) (.expired f)) =
      { io.contents s.ioContext with queued := .expired f ::ₘ s.queued, work := s.work - 1 } := by
    rw [io.contents_post, io.contents_workFinished]
    rfl
  refine ⟨h.agrees.frame rfl rfl rfl rfl rfl fun _ => Iff.rfl, fun x => ?_, ?_, ?_⟩
  · rw [queued, hcontents, Multiset.count_cons_of_ne (by simp)]
    exact h.queue x
  · rw [AsioScheduler.work, hcontents]
    have hwork := h.work
    have hpos : 0 < s.timers.card := Multiset.card_pos_iff_exists_mem.mpr ⟨f, hf⟩
    change s.work - 1 = s.guards.card + (s.timers.erase f).card
    rw [Multiset.card_erase_of_mem hf, Nat.pred_eq_sub_one]
    omega
  · rw [queued, hcontents, expired_cons_expired]
    refine h.callbacks.trans ?_
    change s.timers + s.called + _ = s.timers.erase f + s.called + f ::ₘ _
    conv_lhs => rw [← Multiset.cons_erase hf]
    rw [Multiset.cons_add, Multiset.cons_add, Multiset.add_cons]

lemma Sound.scheduleAfter (f : ℕ) (h : s.Sound reported) :
    { s with
      ioContext := io.workStarted s.ioContext
      timers := f ::ₘ s.timers
      added := f ::ₘ s.added }.Sound reported := by
  have hcontents := io.contents_workStarted s.ioContext
  refine ⟨h.agrees.frame rfl rfl rfl rfl rfl fun _ => Iff.rfl, fun x => ?_, ?_, ?_⟩
  · rw [queued, hcontents]
    exact h.queue x
  · rw [AsioScheduler.work, hcontents]
    change s.work + 1 = s.guards.card + (f ::ₘ s.timers).card
    rw [Multiset.card_cons, h.work, add_assoc]
  · rw [queued, hcontents]
    change f ::ₘ s.added = f ::ₘ s.timers + s.called + expired s.queued
    rw [h.callbacks, Multiset.cons_add, Multiset.cons_add]

/-- The `io_context` is stopped or restarted. -/
lemma Sound.context (h : s.Sound reported) (hagrees : t.Agrees reported)
    (hplaces : t.places = s.places) (hawaits : t.awaits = s.awaits)
    (hnext : t.nextAwait = s.nextAwait) (hqueued : t.queued = s.queued) (hwork : t.work = s.work)
    (htimers : t.timers = s.timers) (hadded : t.added = s.added) (hcalled : t.called = s.called) :
    t.Sound reported := by
  refine h.quiet hagrees hqueued
    (fun x => due_congr (congrFun hplaces x) fun _ _ => by rw [hawaits]) ?_ htimers hadded hcalled
  rw [hwork, guards, guards, hawaits, hnext]

/-- The outcomes that completions report are those of the labels. -/
def Reports (reported : ℕ → Except E V → Prop) : Label E V → Prop
  | .complete k outcome => reported k outcome
  | _ => True

lemma Sound.step {l : Label E V} (h : s.Sound reported) (hl : Reports reported l)
    (hstep : s.step l = some t) : t.Sound reported := by
  cases l with
  -- a new coroutine and one that has been suspended by other code go the same way
  | detach =>
      obtain ⟨-, hstep⟩ := Option.ite_none_right_eq_some.mp hstep
      obtain rfl := Option.some.inj hstep
      have hfresh := h.agrees.fresh s.nextHandle le_rfl
      exact h.scheduled (by simp [hfresh]) (by simp [hfresh]) (by simp [hfresh])
        fun x hx => ⟨by omega, by omega⟩
  | schedule c =>
      obtain ⟨⟨-, hc⟩, hstep⟩ := Option.ite_none_right_eq_some.mp hstep
      obtain rfl := Option.some.inj hstep
      have hnext : ((s.move c .scheduled).schedule c).nextHandle = s.nextHandle := by
        rw [AsioScheduler.schedule]
        split <;> rfl
      have hsound := h.scheduled (c := c) (n := s.nextHandle) (by simp [hc]) (by simp [hc])
        (by simp [hc]) fun x hx => ⟨hx, fun heq => by
          -- `c` has been created, so it is below the next handle
          have := h.agrees.fresh x hx
          rw [heq, hc] at this
          cases this⟩
      rwa [← hnext] at hsound
  | scheduleAfter f =>
      obtain ⟨-, hstep⟩ := Option.ite_none_right_eq_some.mp hstep
      obtain rfl := Option.some.inj hstep
      exact h.scheduleAfter f
  | await =>
      simp only [AsioScheduler.step] at hstep
      split at hstep
      · rename_i c hc
        obtain rfl := Option.some.inj hstep
        exact h.await hc
      · cases hstep
  | park =>
      simp only [AsioScheduler.step] at hstep
      split at hstep
      · rename_i c hc
        obtain rfl := Option.some.inj hstep
        exact h.leave hc (.inl rfl)
      · cases hstep
  | finish =>
      simp only [AsioScheduler.step] at hstep
      split at hstep
      · rename_i c hc
        obtain rfl := Option.some.inj hstep
        exact h.leave hc (.inr rfl)
      · -- a timer callback that returns leaves only `current` behind
        rename_i f hf
        obtain rfl := Option.some.inj hstep
        exact h.context (h.agrees.frame rfl rfl rfl rfl rfl (by simp [hf])) rfl rfl rfl rfl rfl rfl
          rfl rfl
      · cases hstep
  | complete k outcome =>
      obtain ⟨hk, hstep⟩ := Option.ite_none_right_eq_some.mp hstep
      obtain rfl := Option.some.inj hstep
      exact h.complete hk hl
  | post k =>
      obtain ⟨hk, hstep⟩ := Option.ite_none_right_eq_some.mp hstep
      obtain rfl := Option.some.inj hstep
      exact h.post hk
  | reset k =>
      obtain ⟨hk, hstep⟩ := Option.ite_none_right_eq_some.mp hstep
      obtain rfl := Option.some.inj hstep
      exact h.reset hk
  | expire f =>
      obtain ⟨hf, hstep⟩ := Option.ite_none_right_eq_some.mp hstep
      obtain rfl := Option.some.inj hstep
      exact h.expire hf
  -- `run` and its return restart and stop the `io_context`, which keeps its contents
  | run =>
      simp only [AsioScheduler.step] at hstep
      split at hstep
      · cases hstep
      · obtain rfl := Option.some.inj hstep
        have hcontents := io.contents_restart s.ioContext
        exact h.context (h.agrees.frame rfl rfl rfl rfl rfl fun _ => Iff.rfl) rfl rfl rfl
          ((congrArg Contents.queued hcontents).trans rfl)
          ((congrArg Contents.work hcontents).trans rfl) rfl rfl rfl
  | take =>
      obtain ⟨⟨-, hnone, -⟩, hstep⟩ := Option.ite_none_right_eq_some.mp hstep
      obtain ⟨⟨x, ctx⟩, htake, rfl⟩ := Option.map_eq_some_iff.mp hstep
      cases x with
      | resume c => exact h.resume hnone htake
      | expired f => exact h.callback hnone htake
  | runReturns =>
      obtain ⟨-, hstep⟩ := Option.ite_none_right_eq_some.mp hstep
      obtain rfl := Option.some.inj hstep
      have hcontents := io.contents_stop s.ioContext
      exact h.context (h.agrees.frame rfl rfl rfl rfl rfl fun _ => Iff.rfl) rfl rfl rfl
        ((congrArg Contents.queued hcontents).trans rfl)
        ((congrArg Contents.work hcontents).trans rfl) rfl rfl rfl
  | stop =>
      obtain rfl := Option.some.inj hstep
      have hcontents := io.contents_stop s.ioContext
      exact h.context (h.agrees.frame rfl rfl rfl rfl rfl fun _ => Iff.rfl) rfl rfl rfl
        ((congrArg Contents.queued hcontents).trans rfl)
        ((congrArg Contents.work hcontents).trans rfl) rfl rfl rfl

lemma sound_start : ({} : AsioScheduler io E V).Sound reported where
  agrees := by
    refine ⟨fun c => by simp, fun c _ => rfl, fun k => by simp, fun c k hc => ?_, fun k hk => ?_,
      fun k hk => ?_, fun k hk => ?_, fun x hx => ?_, List.nodup_nil⟩
    · cases hc
    · exact absurd rfl hk
    · cases hk
    · exact absurd rfl hk
    · cases hx
  queue c := by simp [queued, io.contents_create, due]
  work := by simp [AsioScheduler.work, io.contents_create, guards]
  callbacks := by simp [queued, io.contents_create]

/-- **Every await is resumed once, with its own result**: however completions on other threads,
timers, coroutines, `stop` and repeated calls of `run` interleave, an await is resumed once at
most, and then throws or returns what its operation has completed with; when `run` returns without
having been stopped, every await has been resumed, every callback has been called, and no coroutine
is left but those that are done or suspended at something else. -/
theorem awaits_resumed_once (io : IoContext) (E V : Type) (labels : List (Label E V))
    (s : AsioScheduler io E V) (hrun : run step {} labels = some s) :
    (s.resumed.map Prod.fst).Nodup ∧
      (∀ k result, (k, result) ∈ s.resumed →
        ∃ outcome, result = some outcome ∧ Label.complete k outcome ∈ labels) ∧
      ∀ t, s.step .runReturns = some t → (io.contents s.ioContext).stopped = false →
        (∀ k < s.nextAwait, s.Resumed k) ∧ s.called = s.added ∧
          ∀ c, s.places c = .unused ∨ s.places c = .parked ∨ s.places c = .done := by
  have hok : AllSteps step (fun _ l => l ∈ labels) ({} : AsioScheduler io E V) labels :=
    allSteps_of_forall fun _ ha _ => ha
  have h : s.Sound fun k outcome => Label.complete k outcome ∈ labels :=
    invariant (fun _ l _ hs hl hstep => hs.step (by
      cases l <;> first | exact hl | trivial) hstep) sound_start hok hrun
  refine ⟨h.agrees.nodup, fun k result hk => ?_, fun t ht hstopped => ?_⟩
  · obtain ⟨hposted, hresult⟩ := h.agrees.resumed _ hk
    dsimp only at hposted hresult
    obtain ⟨outcome, houtcome, hreported⟩ := h.agrees.stored k
      (fun hstage => by rw [hstage] at hposted; cases hposted)
      (fun hstage => by rw [hstage] at hposted; cases hposted)
    exact ⟨outcome, hresult.trans houtcome, hreported⟩
  · obtain ⟨⟨-, hnone, hreturns⟩, -⟩ := Option.ite_none_right_eq_some.mp ht
    obtain ⟨hqueued, hwork⟩ := hreturns.resolve_left (by simp [hstopped])
    have hempty : s.queued = 0 := hqueued
    have hzero : s.guards.card + s.timers.card = 0 := h.work.symm.trans hwork
    have hnotDue : ∀ c, s.due c = false := fun c => by
      have hc := h.queue c
      rw [hempty, Multiset.count_zero] at hc
      by_contra hdue
      simp [hdue] at hc
    have hresumed : ∀ k < s.nextAwait, s.Resumed k := fun k hk => by
      have hreleased : (s.awaits k).stage = .released := by
        by_contra hnot
        have hmem : k ∈ s.guards := mem_guards.mpr ⟨hk, hnot⟩
        have := Finset.card_pos.mpr ⟨k, hmem⟩
        omega
      by_contra hnot
      have hdue := hnotDue (s.awaits k).handle
      rw [due, h.agrees.awaiting k (by simp [hreleased]) hnot] at hdue
      simp [hreleased, Stage.isPosted] at hdue
    refine ⟨hresumed, ?_, fun c => ?_⟩
    · have htimers : s.timers = 0 := Multiset.card_eq_zero.mp (by omega)
      rw [h.callbacks, hempty, htimers, expired_zero, zero_add, add_zero]
    · have hdue := hnotDue c
      rw [due] at hdue
      cases hc : s.places c <;> simp only [hc, Bool.true_eq_false] at hdue
      case unused => exact .inl rfl
      case running =>
        rw [(h.agrees.running c).mp hc] at hnone
        cases hnone
      case suspended k =>
        obtain ⟨-, hstage, hnot⟩ := h.agrees.suspended c k hc
        exact absurd (hresumed k (not_le.mp fun hle => hstage ((h.agrees.unused k).mpr hle))) hnot
      case parked => exact .inr (.inl rfl)
      case done => exact .inr (.inr rfl)

/-- An `io_context` that takes handlers in the order in which they have been posted. -/
def fifo : IoContext where
  State := List Handler × ℕ × Bool
  create := ([], 0, false)
  post s h := (s.1 ++ [h], s.2)
  take s := s.1.head?.map fun h => (h, s.1.tail, s.2)
  workStarted s := (s.1, s.2.1 + 1, s.2.2)
  workFinished s := (s.1, s.2.1 - 1, s.2.2)
  stop s := (s.1, s.2.1, true)
  restart s := (s.1, s.2.1, false)
  contents s := ⟨s.1, s.2.1, s.2.2⟩
  contents_create := rfl
  contents_post s h := by
    rw [← Multiset.coe_add, Multiset.coe_singleton, add_comm, Multiset.singleton_add]
  contents_take {s t h} htake := by
    obtain ⟨x, hx, heq⟩ := Option.map_eq_some_iff.mp htake
    obtain ⟨q, hq⟩ := List.head?_eq_some_iff.mp hx
    cases heq
    rw [hq]
    rfl
  contents_workStarted _ := rfl
  contents_workFinished _ := rfl
  contents_stop _ := rfl
  contents_restart _ := rfl

/-- A coroutine awaits a future. It is resumed by `run` between the two last steps of the thread
that waits for the future. -/
def futureRun : List (Label ℕ ℕ) :=
  [.detach, .run, .take, .await, .complete 0 (.ok 5), .post 0, .take, .finish, .reset 0]

/-- One await is resumed with the result of its future, and then `run` can return. -/
theorem awaits_resumed_once_futureRun :
    let s : AsioScheduler fifo ℕ ℕ := reached step {} futureRun
    s.resumed.map (fun x => x.1) = [0] ∧ (s.step .runReturns).isSome = true ∧
      (s.resumed.map Prod.fst).Nodup ∧
      (∀ k result, (k, result) ∈ s.resumed →
        ∃ outcome, result = some outcome ∧ Label.complete k outcome ∈ futureRun) ∧
      ∀ t, s.step .runReturns = some t → (fifo.contents s.ioContext).stopped = false →
        (∀ k < s.nextAwait, s.Resumed k) ∧ s.called = s.added ∧
          ∀ c, s.places c = .unused ∨ s.places c = .parked ∨ s.places c = .done :=
  ⟨by decide +kernel, by decide +kernel,
    awaits_resumed_once fifo ℕ ℕ futureRun _ (run_eq_reached (by decide +kernel))⟩

end AsioScheduler

end Asio

end Agner
