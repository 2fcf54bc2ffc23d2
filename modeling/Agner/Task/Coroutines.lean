import Mathlib.Tactic

/-!
`task.hpp`: lazy tasks on a single-threaded scheduler.

The bodies of coroutines are trees of what they do next (`Code`). A coroutine has a frame with its
promise and the point it is suspended at; frames are named by numbers in the order in which they
are created, and absent before that and after they have been destroyed. What is on the call stack
are the activations of coroutines and of the `await_suspend` at their final suspension, which
resumes the continuation from within.

* `Code`, `direct`: programs, and what they mean when `co_await` of a task is an ordinary call.
* `finish`, `resume`, `awaitResume`, `go`: the code of `task<T>`, cut where user code runs. An
  access to a frame that has been destroyed, or a second destruction, has no meaning in the
  language, and no step.
* `step`: the code that is running goes on, the handle of a coroutine that is suspended on an
  external awaiter is scheduled, or the scheduler resumes a handle.

`task<void>` is the case in which values carry no information: its promise has no result, and a
call of it has the value `default`.
-/

namespace Agner

namespace Tasks

/-- The body of a coroutine, or a block of it. -/
inductive Code (V E X : Type) where
  /-- The end of a block with the value it has computed; at the end of a body, its `co_return`. -/
  | value (v : V)
  | coReturn (v : V)
  | throw (e : E)
  /-- `co_await` of a new child task. -/
  | coAwait (isVoid : Bool) (body : Code V E X) (rest : V → Code V E X)
  /-- `co_await` of an external awaiter, which is resumed with an answer. -/
  | external (rest : X → Code V E X)
  /-- A block with a handler for some exceptions, and what comes after both. -/
  | tryCatch (block : Code V E X) (handles : E → Bool) (handler : E → Code V E X)
      (rest : V → Code V E X)

/-! ### Direct evaluation -/

/-- How a block ends. -/
inductive Flow (V E : Type) where
  | value (v : V)
  | returned (v : V)
  | thrown (e : E)

/-- A call that has returned or thrown. -/
structure Call (V E : Type) where
  caller : ℕ
  callee : ℕ
  outcome : Except E V

/-- What the evaluation of a block yields. -/
structure Eval (V E : Type) where
  flow : Flow V E
  /-- How many external answers have been asked for so far. -/
  asked : ℕ
  /-- The number of the next call. -/
  next : ℕ
  /-- The calls that have ended, in this order. -/
  calls : List (Call V E)

variable {V E X : Type} [Inhabited V]

/-- The value that a task has been given, as it is seen from outside. -/
def seen (isVoid : Bool) (v : V) : V := if isVoid then default else v

/-- The outcome of a call whose body ends in this way. -/
def Flow.outcome : Flow V E → Except E V
  | .value v | .returned v => .ok v
  | .thrown e => .error e

/-- The same evaluation, after these calls. -/
def Eval.after (d : Eval V E) (calls : List (Call V E)) : Eval V E :=
  { d with calls := calls ++ d.calls }

/-- Evaluation with ordinary calls and exceptions: of code in the call `self`, after `asked`
external answers, with `next` the number of the next call. -/
def direct (answers : ℕ → X) : Code V E X → (self asked next : ℕ) → Eval V E
  | .value v, _, asked, next => ⟨.value v, asked, next, []⟩
  | .coReturn v, _, asked, next => ⟨.returned v, asked, next, []⟩
  | .throw e, _, asked, next => ⟨.thrown e, asked, next, []⟩
  | .coAwait isVoid body rest, self, asked, next =>
      let callee := direct answers body next asked (next + 1)
      let outcome := callee.flow.outcome.map (seen isVoid)
      let calls := callee.calls ++ [⟨self, next, outcome⟩]
      match outcome with
      | .ok v => (direct answers (rest v) self callee.asked callee.next).after calls
      | .error e => { callee with flow := .thrown e, calls := calls }
  | .external rest, self, asked, next => direct answers (rest (answers asked)) self (asked + 1) next
  | .tryCatch block handles handler rest, self, asked, next =>
      let tried := direct answers block self asked next
      match tried.flow with
      | .value v => (direct answers (rest v) self tried.asked tried.next).after tried.calls
      | .returned _ => tried
      | .thrown e =>
          if handles e then
            let handled :=
              (direct answers (handler e) self tried.asked tried.next).after tried.calls
            match handled.flow with
            | .value v =>
                (direct answers (rest v) self handled.asked handled.next).after handled.calls
            | .returned _ | .thrown _ => handled
          else tried

/-! ### Coroutines -/

/-- What is to be done when a block ends. -/
inductive Scope (V E X : Type) where
  | seq (rest : V → Code V E X)
  | catching (handles : E → Bool) (handler : E → Code V E X) (rest : V → Code V E X)

/-- Where a coroutine is. -/
inductive Point (V E X : Type) where
  | initial (body : Code V E X)
  | running
  /-- Suspended in `co_await` of the task whose frame is `child`. -/
  | awaiting (child : ℕ) (rest : V → Code V E X) (scopes : List (Scope V E X))
  /-- Suspended on an external awaiter, the one asked for after `asked` others. -/
  | external (asked : ℕ) (rest : X → Code V E X) (scopes : List (Scope V E X))
  | final

/-- `promise_type`. -/
structure Promise (V E : Type) where
  continuation : Option ℕ := none
  detached : Bool := false
  result : Option V := none
  exception : Option E := none

/-- `return_value`, `return_void` or `unhandled_exception`. -/
def Promise.store (isVoid : Bool) (p : Promise V E) : Except E V → Promise V E
  | .ok v => if isVoid then p else { p with result := some v }
  | .error e => { p with exception := some e }

/-- The code with which the caller goes on, `k` being what follows the call. -/
def Code.afterCall (k : V → Code V E X) : Except E V → Code V E X
  | .ok v => k v
  | .error e => .throw e

/-- What `await_resume` returns or throws. -/
def Promise.take (isVoid : Bool) (p : Promise V E) : Option (Except E V) :=
  match p.exception with
  | some e => some (.error e)
  | none => if isVoid then some (.ok default) else p.result.map .ok

/-- The frame of a coroutine. -/
structure Frame (V E X : Type) where
  isVoid : Bool
  promise : Promise V E
  point : Point V E X

/-- What is on the call stack. -/
inductive Activation (V E X : Type) where
  /-- The body of a coroutine. -/
  | running (t : ℕ) (code : Code V E X) (scopes : List (Scope V E X))
  /-- `await_resume` of the awaited task `child` in the coroutine `t`. -/
  | resuming (t child : ℕ) (rest : V → Code V E X) (scopes : List (Scope V E X))
  /-- `final_awaitable::await_suspend`. -/
  | final (t : ℕ)
  /-- The same, after the continuation it has resumed has returned. -/
  | resumed (t : ℕ)

/-- What happens to a task. -/
inductive Event (V E : Type) where
  /-- Its result or exception is stored. -/
  | stored (t : ℕ) (outcome : Except E V)
  /-- The coroutine that awaits it is resumed. -/
  | resumed (parent t : ℕ)
  /-- Its frame is destroyed by the task object in the coroutine that awaits it. -/
  | destroyedByOwner (t : ℕ)
  /-- Its frame is destroyed at its final suspension. -/
  | destroyedAtFinal (t : ℕ)

/-- The coroutines of a program and the scheduler they run on. -/
structure Machine (V E X : Type) where
  frames : ℕ → Option (Frame V E X) := fun _ => none
  next : ℕ := 0
  stack : List (Activation V E X) := []
  ready : List ℕ := []
  /-- The coroutines that are suspended on external awaiters. -/
  waiting : List ℕ := []
  asked : ℕ := 0
  events : List (Event V E) := []

namespace Machine

/-- A frame is allocated or changed. -/
def setFrame (s : Machine V E X) (t : ℕ) (f : Frame V E X) : Machine V E X :=
  { s with frames := Function.update s.frames t (some f) }

/-- `destroy` of the handle of a coroutine, which has to be suspended. -/
def destroy (s : Machine V E X) (t : ℕ) : Option (Machine V E X) :=
  (s.frames t).bind fun f =>
    match f.point with
    | .running => none
    | _ => some { s with frames := Function.update s.frames t none }

/-- The end of a body: the promise is given the outcome, then comes `final_suspend`. -/
def finish (s : Machine V E X) (t : ℕ) (rest : List (Activation V E X)) (outcome : Except E V) :
    Option (Machine V E X) :=
  (s.frames t).map fun f =>
    { s.setFrame t { f with promise := f.promise.store f.isVoid outcome, point := .final } with
      stack := .final t :: rest
      events := s.events ++ [.stored t (outcome.map (seen f.isVoid))] }

/-- `resume` of a coroutine handle, on top of `rest`. -/
def resume (answers : ℕ → X) (s : Machine V E X) (t : ℕ) (rest : List (Activation V E X)) :
    Option (Machine V E X) :=
  (s.frames t).bind fun f =>
    match f.point with
    | .initial body =>
        some { s.setFrame t { f with point := .running } with stack := .running t body [] :: rest }
    | .external asked k scopes =>
        some { s.setFrame t { f with point := .running } with
          stack := .running t (k (answers asked)) scopes :: rest }
    | .awaiting child k scopes =>
        some { s.setFrame t { f with point := .running } with
          stack := .resuming t child k scopes :: rest
          events := s.events ++ [.resumed t child] }
    | .running | .final => none

/-- `await_resume`, after which the task object is destroyed, and the frame with it. -/
def awaitResume (s : Machine V E X) (t child : ℕ) (k : V → Code V E X)
    (scopes : List (Scope V E X)) (rest : List (Activation V E X)) : Option (Machine V E X) :=
  (s.frames child).bind fun f =>
    (f.promise.take f.isVoid).bind fun outcome =>
      (s.destroy child).map fun s =>
        { s with
          stack := .running t (.afterCall k outcome) scopes :: rest
          events := s.events ++ [.destroyedByOwner child] }

/-- `final_awaitable::await_suspend`. After its call of `resume` it calls `await_resume`, which
does nothing. -/
def awaitSuspendFinal (answers : ℕ → X) (s : Machine V E X) (t : ℕ)
    (rest : List (Activation V E X)) : Option (Machine V E X) :=
  (s.frames t).bind fun f =>
    match f.promise.continuation with
    | some continuation => s.resume answers continuation (.resumed t :: rest)
    | none =>
        if f.promise.detached then
          (s.destroy t).map fun s =>
            { s with stack := rest, events := s.events ++ [.destroyedAtFinal t] }
        else some { s with stack := rest }

/-- `co_await` of a new task: its frame is created, `await_suspend` sets its continuation and
returns its handle, and it is resumed. -/
def await (s : Machine V E X) (t : ℕ) (isVoid : Bool) (body : Code V E X) (k : V → Code V E X)
    (scopes : List (Scope V E X)) (rest : List (Activation V E X)) : Option (Machine V E X) :=
  (s.frames t).map fun f =>
    { (s.setFrame t { f with point := .awaiting s.next k scopes }).setFrame s.next
        { isVoid := isVoid, promise := { continuation := some t }, point := .running } with
      next := s.next + 1
      stack := .running s.next body [] :: rest }

/-- The coroutine is suspended on an external awaiter. -/
def suspend (s : Machine V E X) (t : ℕ) (k : X → Code V E X) (scopes : List (Scope V E X))
    (rest : List (Activation V E X)) : Option (Machine V E X) :=
  (s.frames t).map fun f =>
    { s.setFrame t { f with point := .external s.asked k scopes } with
      asked := s.asked + 1
      waiting := s.waiting ++ [t]
      stack := rest }

/-- What is on top of the call stack goes on. -/
def go (answers : ℕ → X) (s : Machine V E X) : Option (Machine V E X) :=
  match s.stack with
  | [] => none
  | .running t code scopes :: rest =>
      match code, scopes with
      | .value v, [] => s.finish t rest (.ok v)
      | .value v, .seq k :: scopes => some { s with stack := .running t (k v) scopes :: rest }
      | .value v, .catching _ _ k :: scopes =>
          some { s with stack := .running t (k v) scopes :: rest }
      | .coReturn v, _ => s.finish t rest (.ok v)
      | .throw e, [] => s.finish t rest (.error e)
      | .throw e, .seq _ :: scopes => some { s with stack := .running t (.throw e) scopes :: rest }
      | .throw e, .catching handles handler k :: scopes =>
          some { s with
            stack :=
              (if handles e then .running t (handler e) (.seq k :: scopes)
                else .running t (.throw e) scopes) :: rest }
      | .coAwait isVoid body k, scopes => s.await t isVoid body k scopes rest
      | .external k, scopes => s.suspend t k scopes rest
      | .tryCatch block handles handler k, scopes =>
          some { s with
            stack := .running t block (.catching handles handler k :: scopes) :: rest }
  | .resuming t child k scopes :: rest => s.awaitResume t child k scopes rest
  | .final t :: rest => s.awaitSuspendFinal answers t rest
  | .resumed _ :: rest => some { s with stack := rest }

/-- What happens next. -/
inductive Label where
  | go
  /-- An external awaiter passes the handle it was given to `schedule`. -/
  | wake (t : ℕ)
  /-- The scheduler resumes the first handle of its ready queue. -/
  | resume

/-- One step; external awaiters are answered by `answers`, in the order in which they are asked. -/
def step (answers : ℕ → X) (s : Machine V E X) : Label → Option (Machine V E X)
  | .go => s.go answers
  | .wake t =>
      if t ∈ s.waiting then
        some { s with waiting := s.waiting.erase t, ready := s.ready ++ [t] }
      else none
  | .resume =>
      match s.stack, s.ready with
      | [], t :: ready => { s with ready := ready }.resume answers t []
      | _, _ => none

/-- The root has been created and `detach` called. -/
def start (isVoid : Bool) (body : Code V E X) : Machine V E X :=
  { frames := Function.update (fun _ => none) 0
      (some { isVoid := isVoid, promise := { detached := true }, point := .initial body })
    next := 1
    ready := [0] }

end Machine

end Tasks

end Agner
