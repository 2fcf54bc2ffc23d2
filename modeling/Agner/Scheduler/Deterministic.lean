import Agner.Foundations.MultiMap
import Agner.Foundations.Runs
import Agner.Scheduler.Durations

/-!
`deterministic_scheduler.hpp`: a scheduler whose clock is advanced by `run_until`.

Times are signed 64-bit counts, converted and added as in `Durations`. The outcomes of the shuffles
come from outside; they are arbitrary orders of what is shuffled.

* `DeterministicScheduler`: the members that `run_until` uses, and which coroutines are done.
* `Run`, `go`: a call of `run_until`, cut where batches are shuffled and where user code runs.
* `step`: that code, a shuffle, or what user code does: `schedule`, `schedule_after`, the
  resumption of another coroutine, a suspension or return, and the end of a coroutine.
-/

namespace Agner

instance int64LinearOrder : LinearOrder Int64 where
  le_refl := Int64.le_refl
  le_trans _ _ _ := Int64.le_trans
  le_antisymm _ _ := Int64.le_antisymm
  le_total := Int64.le_total
  lt_iff_le_not_ge a b := by
    rw [Int64.le_iff_toInt_le, Int64.lt_iff_toInt_lt, Int64.le_iff_toInt_le]
    omega
  toDecidableLE := inferInstance

namespace Deterministic

open Durations

/-- `DeterministicScheduler`. Coroutine handles and callbacks are numbers. -/
structure DeterministicScheduler where
  ready : List ℕ
  timers : MultiMap Int64 ℕ
  currentTime : Int64
  /-- The coroutines that are done. -/
  finished : List ℕ := []

/-- Where `run_until` calls `run_until_idle`. -/
inductive Caller where
  /-- In the branch for a time before now. -/
  | before
  | loop
  /-- After the clock has been set to the time. -/
  | last
  deriving DecidableEq

/-- Where `run_until_idle` is. -/
inductive Place where
  /-- The outer loop of `process_due_timers`. -/
  | processDue
  | shuffleCallbacks (batch : List ℕ)
  /-- The loop over the callbacks of a batch. -/
  | callbacks (batch : List ℕ)
  /-- After `process_due_timers`. -/
  | takeReady
  | shuffleHandles (batch : List ℕ)
  /-- The loop over the handles of a batch. -/
  | handles (batch : List ℕ)
  /-- `run_until` has returned. -/
  | returned
  deriving DecidableEq

/-- User code on the call stack. -/
inductive Running where
  | callback (callback : ℕ)
  | coroutine (handle : ℕ)
  deriving DecidableEq

/-- What is observed of a run. -/
inductive Event where
  /-- `schedule` is called with a handle; whether the coroutine is done. -/
  | scheduled (handle : ℕ) (done : Bool)
  | resumed (handle : ℕ)
  | finished (handle : ℕ)
  /-- `schedule_after` is called. -/
  | added (factor : Factor) (delay : Count) (callback : ℕ)
  | fired (callback : ℕ)

/-- An event, and the value of `now()` at that time. -/
structure Occurrence where
  event : Event
  now : Int64

/-- A call of `run_until`. -/
structure Run extends DeterministicScheduler where
  time : Int64
  caller : Caller
  place : Place := .processDue
  running : List Running := []
  history : List Occurrence := []

/-- What happens next. -/
inductive Label where
  /-- The code of the scheduler. -/
  | go
  | shuffle (outcome : List ℕ)
  | schedule (handle : Option ℕ)
  | scheduleAfter (factor : Factor) (delay : Count) (callback : ℕ)
  /-- User code resumes a coroutine. -/
  | resume (handle : ℕ)
  /-- The coroutine is suspended, or the callback returns. -/
  | suspend
  /-- The coroutine runs to its end. -/
  | finish

namespace Run

/-- `run_until` is called. -/
def start (s : DeterministicScheduler) (time : Int64) : Run :=
  let history := s.ready.map fun h => ⟨.scheduled h (s.finished.contains h), s.currentTime⟩
  if time < s.currentTime then
    { s with currentTime := time, time := time, caller := .before, history := history }
  else { s with time := time, caller := .loop, history := history }

/-- The history with one more event. -/
def record (s : Run) (e : Event) : List Occurrence := s.history ++ [⟨e, s.currentTime⟩]

/-- `run_until_idle` returns. -/
def returns (s : Run) : Run :=
  match s.caller with
  | .before | .last => { s with place := .returned }
  | .loop =>
      match s.timers.entries with
      | [] => { s with currentTime := s.time, caller := .last, place := .processDue }
      | (first, _) :: _ =>
          if s.time < first then
            { s with currentTime := s.time, caller := .last, place := .processDue }
          else { s with currentTime := first, place := .processDue }

/-- The code of the scheduler, up to a shuffle or a call of user code. -/
def go (s : Run) : Option Run :=
  match s.place with
  | .processDue =>
      match s.timers.entries with
      | [] => some { s with place := .takeReady }
      | (first, _) :: _ =>
          if s.currentTime < first then some { s with place := .takeReady }
          else
            let (callbacks, timers) := s.timers.detach first
            some { s with timers := timers, place := .shuffleCallbacks callbacks }
  | .callbacks [] => some { s with place := .processDue }
  | .callbacks (c :: batch) =>
      some { s with
        place := .callbacks batch
        running := [.callback c]
        history := s.record (.fired c) }
  | .takeReady =>
      if s.ready = [] then some s.returns
      else some { s with ready := [], place := .shuffleHandles s.ready }
  | .handles [] => some { s with place := .processDue }
  | .handles (h :: batch) =>
      if h ∈ s.finished then some { s with place := .handles batch }
      else some { s with
        place := .handles batch
        running := [.coroutine h]
        history := s.record (.resumed h) }
  | .shuffleCallbacks _ | .shuffleHandles _ | .returned => none

/-- `shuffle`; the only order of a batch of one is its own. -/
def shuffle (s : Run) (outcome : List ℕ) : Option Run :=
  match s.place with
  | .shuffleCallbacks batch =>
      if outcome.Perm batch then some { s with place := .callbacks outcome } else none
  | .shuffleHandles batch =>
      if outcome.Perm batch then some { s with place := .handles outcome } else none
  | _ => none

/-- What user code does. -/
def user (s : Run) (top : Running) (rest : List Running) : Label → Option Run
  | .schedule none => some s
  | .schedule (some h) =>
      some { s with
        ready := s.ready ++ [h]
        history := s.record (.scheduled h (s.finished.contains h)) }
  | .scheduleAfter factor delay callback =>
      (durationCast factor delay).map fun d =>
        { s with
          timers := s.timers.insert (scheduleAfter s.currentTime d) callback
          history := s.record (.added factor delay callback) }
  | .resume h =>
      if h ∈ s.finished ∨ .coroutine h ∈ s.running then none
      else some { s with
        running := .coroutine h :: s.running
        history := s.record (.resumed h) }
  | .suspend => some { s with running := rest }
  | .finish =>
      match top with
      | .callback _ => none
      | .coroutine h =>
          some { s with
            finished := h :: s.finished
            running := rest
            history := s.record (.finished h) }
  | .go | .shuffle _ => none

/-- One step. -/
def step (s : Run) (l : Label) : Option Run :=
  match s.running with
  | top :: rest => s.user top rest l
  | [] =>
      match l with
      | .go => s.go
      | .shuffle outcome => s.shuffle outcome
      | _ => none

end Run

end Deterministic

end Agner
