import Agner.Actor.Mailbox
import Agner.Foundations.Runs
import Agner.Scheduler.Base

/-!
`actor.hpp` on a single-threaded scheduler: mailboxes, receives, timers and exits of any
number of actors.

User code runs in the frames of a call stack: the coroutine of an actor, a message visitor,
or a timeout visitor. A message visitor runs either in its own actor, when `await_ready`
finds a queued message, or in whoever delivers a message to a suspended receive. Each label
of the machine is one thing user code or the event loop does next, so that visitors may send,
stop and spawn while they run, and deliveries nest.

* The values that visitors return, and whether they throw, come with the labels.
* `enqueueMessage`, `notifyWaiterLocked`, `beginReceive`, `visitorReturned`,
  `timeoutReturned`: the bodies of the operations, cut where user code runs.
* An exception is on its way while `raising` is set: the frame on top may catch it or be
  unwound by it. Resuming a receive that is not suspended has no meaning in the language,
  and no step here.
* `Moves`, `moves_of_step`: what each step is taken in and what it leads to.

The registry and the topology are those of `SchedulerBase`, whose own lists of signals stay
empty: the mailboxes are the ones kept here. Stamps, `enqueued`, `consumed`, `outcomes`,
`stage` and the count of `schedule` calls record the history of a run.
-/

namespace Agner

/-- How far a call of `receive` or `try_receive` has come. -/
inductive Stage where
  | unused
  /-- `await_ready` runs a visitor. -/
  | matching
  /-- Suspended. -/
  | waiting
  /-- Suspended, a message visitor is running in the sender. -/
  | delivering
  /-- Suspended, the timeout visitor is running. -/
  | expiring
  /-- Suspended, the handle has been passed to `schedule`. -/
  | scheduled
  | done
  deriving DecidableEq, Repr

/-- The coroutine of the receive is suspended. -/
def Stage.suspended : Stage → Bool
  | .waiting | .delivering | .expiring | .scheduled => true
  | .unused | .matching | .done => false

/-- `ReceiveAwaiter`, with `active_` the flag it shares with its timer callback. -/
structure ReceiveAwaiter (M R : Type) where
  actor : ActorRef := 0
  visitors : List (Visitor M) := []
  /-- There is a timeout visitor. -/
  timed : Bool := false
  storage : Option R := none
  active : Option Bool := none
  stage : Stage := .unused
  outcomes : List (Outcome M) := []
  scheduled : ℕ := 0

/-- The members of `Actor`; a pending receive is named by the number of its awaiter. -/
structure ActorState (M : Type) where
  mailbox : List (Envelope M) := []
  pending : Option ℕ := none
  exitReason : Option ExitReason := none
  enqueued : List (Envelope M) := []
  consumed : List (Envelope M × ℕ) := []

/-- Coroutine handles in the ready queue. -/
inductive Handle where
  | start (a : ActorRef)
  | receive (r : ℕ)
  deriving DecidableEq

/-- What is on the call stack. -/
inductive Frame where
  /-- The coroutine of the actor. -/
  | running (a : ActorRef)
  /-- `notify_exit`, with the signals still to be sent. -/
  | exiting (a : ActorRef) (signals : List (ActorRef × Signal))
  /-- A message visitor of a receive on the message at a position of the mailbox, run by
  `notify_waiter_locked` (`delivered`) or by `await_ready`. -/
  | visiting (r : ℕ) (position : ℕ) (delivered : Bool)
  /-- The timeout visitor of a receive. -/
  | expiring (r : ℕ)

/-- The frame is a message visitor. -/
def Frame.isVisiting : Frame → Bool
  | .visiting .. => true
  | _ => false

/-- The frame is `notify_exit`. -/
def Frame.isExiting : Frame → Bool
  | .exiting .. => true
  | _ => false

/-- A single-threaded scheduler with its actors. -/
structure Runtime (M R : Type) where
  sched : SchedulerBase := {}
  actors : ActorRef → ActorState M := fun _ => {}
  receives : ℕ → ReceiveAwaiter M R := fun _ => {}
  nextReceive : ℕ := 0
  ready : List Handle := []
  /-- The receives whose timer callbacks are in `timers_`. -/
  timers : List ℕ := []
  stack : List Frame := []
  raising : Bool := false

namespace Runtime

/-- What happens next. -/
inductive Label (M R : Type) where
  | spawn (linker monitorRef : ActorRef)
  | link (left right : ActorRef)
  | monitor (monitorRef targetRef : ActorRef)
  | send (target : ActorRef) (m : M)
  | stop (target : ActorRef) (reason : ExitReason)
  /-- The running actor calls `receive` or `try_receive`. -/
  | receive (visitors : List (Visitor M)) (timed : Bool)
  | visitorReturn (value : R)
  | timeoutReturn (value : R)
  /-- The `run` of the running actor returns. -/
  | finish
  /-- `notify_exit` sends its next signal, or ends. -/
  | signal
  /-- User code throws. -/
  | throw
  /-- User code catches what is on its way. -/
  | catch
  /-- What is on its way leaves the frame on top. -/
  | unwind
  /-- The event loop resumes the first handle of the ready queue. -/
  | resume
  /-- The event loop calls a timer callback. -/
  | fire (r : ℕ)

variable {M R : Type}

/-! ### Operations -/

/-- Assignment to members of an actor. -/
def updateActor (s : Runtime M R) (a : ActorRef) (f : ActorState M → ActorState M) :
    Runtime M R :=
  { s with actors := Function.update s.actors a (f (s.actors a)) }

/-- Assignment to members of an awaiter. -/
def updateReceive (s : Runtime M R) (r : ℕ) (f : ReceiveAwaiter M R → ReceiveAwaiter M R) :
    Runtime M R :=
  { s with receives := Function.update s.receives r (f (s.receives r)) }

section Update

variable (s : Runtime M R) (a : ActorRef) (f : ActorState M → ActorState M) (r : ℕ)
  (g : ReceiveAwaiter M R → ReceiveAwaiter M R)

@[simp] lemma updateActor_actors (x : ActorRef) :
    (s.updateActor a f).actors x = if x = a then f (s.actors a) else s.actors x :=
  Function.update_apply _ _ _ _

@[simp] lemma updateActor_receives : (s.updateActor a f).receives = s.receives := rfl

@[simp] lemma updateActor_nextReceive : (s.updateActor a f).nextReceive = s.nextReceive := rfl

@[simp] lemma updateActor_ready : (s.updateActor a f).ready = s.ready := rfl

@[simp] lemma updateActor_timers : (s.updateActor a f).timers = s.timers := rfl

@[simp] lemma updateActor_stack : (s.updateActor a f).stack = s.stack := rfl

@[simp] lemma updateActor_raising : (s.updateActor a f).raising = s.raising := rfl

@[simp] lemma updateReceive_receives (x : ℕ) :
    (s.updateReceive r g).receives x = if x = r then g (s.receives r) else s.receives x :=
  Function.update_apply _ _ _ _

@[simp] lemma updateReceive_actors : (s.updateReceive r g).actors = s.actors := rfl

@[simp] lemma updateReceive_nextReceive : (s.updateReceive r g).nextReceive = s.nextReceive :=
  rfl

@[simp] lemma updateReceive_ready : (s.updateReceive r g).ready = s.ready := rfl

@[simp] lemma updateReceive_timers : (s.updateReceive r g).timers = s.timers := rfl

@[simp] lemma updateReceive_stack : (s.updateReceive r g).stack = s.stack := rfl

@[simp] lemma updateReceive_raising : (s.updateReceive r g).raising = s.raising := rfl

end Update

/-- The actor is in the scheduler's `actors_`. -/
def registered (s : Runtime M R) (a : ActorRef) : Bool := s.sched.actors.contains a

/-- `schedule`, for the handle of a receive. -/
def schedule (s : Runtime M R) (r : ℕ) : Runtime M R :=
  { s.updateReceive r fun w => { w with scheduled := w.scheduled + 1, stage := .scheduled } with
    ready := s.ready ++ [.receive r] }

/-- `notify_waiter_locked`: `pending_` is reset while the visitor runs, and set again if no
message matches. -/
def notifyWaiterLocked (s : Runtime M R) (a : ActorRef) : Runtime M R :=
  match (s.actors a).pending with
  | none => s
  | some r =>
      match tryMatchMailbox (s.receives r).visitors (s.actors a).mailbox with
      | none => s
      | some position =>
          { (s.updateActor a fun x => { x with pending := none }).updateReceive r
              fun w => { w with stage := .delivering } with
            stack := .visiting r position true :: s.stack }

/-- `mailbox_.emplace_back`. -/
def pushMessage (s : Runtime M R) (a : ActorRef) (m : Message M) : Runtime M R :=
  s.updateActor a fun x =>
    { x with
      mailbox := x.mailbox ++ [{ stamp := x.enqueued.length, body := m }]
      enqueued := x.enqueued ++ [{ stamp := x.enqueued.length, body := m }] }

/-- `enqueue_message`, up to the visitor it may run. -/
def enqueueMessage (s : Runtime M R) (a : ActorRef) (m : Message M) : Runtime M R :=
  (s.pushMessage a m).notifyWaiterLocked a

/-- `SchedulerBase::send`: a message to an actor that is not registered is dropped. -/
def send (s : Runtime M R) (target : ActorRef) (m : Message M) : Runtime M R :=
  if s.registered target then s.enqueueMessage target m else s

/-- `await_suspend`: the receive becomes pending, and a timer is armed. -/
def awaitSuspend (s : Runtime M R) (r : ℕ) : Runtime M R :=
  let w := s.receives r
  { (s.updateActor w.actor fun x => { x with pending := some r }).updateReceive r fun w =>
      { w with stage := .waiting, active := if w.timed then some true else none } with
    timers := if w.timed then s.timers ++ [r] else s.timers }

/-- The awaiter of a new call of `receive` or `try_receive`. -/
def newReceive (s : Runtime M R) (a : ActorRef) (visitors : List (Visitor M)) (timed : Bool) :
    Runtime M R :=
  { s with
    receives := Function.update s.receives s.nextReceive
      { actor := a, visitors := visitors, timed := timed, stage := .matching }
    nextReceive := s.nextReceive + 1 }

/-- `receive` and `try_receive` of the actor whose coroutine is on top of `rest`: `await_ready`
up to the visitor it runs, or else `await_suspend`. -/
def beginReceive (s : Runtime M R) (a : ActorRef) (rest : List Frame)
    (visitors : List (Visitor M)) (timed : Bool) : Runtime M R :=
  match tryMatchMailbox visitors (s.actors a).mailbox with
  | some position =>
      { s.newReceive a visitors timed with
        stack := .visiting s.nextReceive position false :: s.stack }
  | none => { (s.newReceive a visitors timed).awaitSuspend s.nextReceive with stack := rest }

/-- The end of `try_match` once the visitor has returned: the result is stored, the message
erased, and the flag cleared. -/
def completeMatch (s : Runtime M R) (r : ℕ) (position : ℕ) (e : Envelope M) (value : R) :
    Runtime M R :=
  (s.updateActor (s.receives r).actor fun x =>
    { x with
      mailbox := x.mailbox.eraseIdx position
      consumed := x.consumed ++ [(e, r)] }).updateReceive r fun w =>
    { w with
      storage := some value
      active := w.active.map fun _ => false
      outcomes := w.outcomes ++
        [.message e (w.visitors.findIdx fun visitor => visitor e.body)] }

/-- A message visitor returns: the delivery schedules the receive, `await_ready` lets it go
on. -/
def visitorReturned (s : Runtime M R) (rest : List Frame) (r position : ℕ) (delivered : Bool)
    (e : Envelope M) (value : R) : Runtime M R :=
  let t := { s.completeMatch r position e value with stack := rest }
  if delivered then t.schedule r else t.updateReceive r fun w => { w with stage := .done }

/-- The timer callback of `await_suspend`, up to the timeout visitor. -/
def fireTimer (s : Runtime M R) (r : ℕ) : Runtime M R :=
  let s := { s with timers := s.timers.erase r }
  if (s.receives r).active = some true then
    { s.updateReceive r fun w => { w with active := some false, stage := .expiring } with
      stack := .expiring r :: s.stack }
  else s

/-- The rest of the timer callback. -/
def timeoutReturned (s : Runtime M R) (rest : List Frame) (r : ℕ) (value : R) : Runtime M R :=
  ({ (s.updateReceive r fun w =>
      { w with storage := some value, outcomes := w.outcomes ++ [Outcome.timeout] }).updateActor
      (s.receives r).actor fun x => { x with pending := none } with
    stack := rest }).schedule r

/-- `on_actor_exit` up to the signals: `run_actor` has the reason. -/
def beginExit (s : Runtime M R) (a : ActorRef) (rest : List Frame) (reason : ExitReason) :
    Runtime M R :=
  { s with
    sched := s.sched.collectAndErase a
    stack := .exiting a (s.sched.pendingSignals a reason) :: rest }

/-- User code is running: no exception is on its way, and the frame on top is not the code of
`notify_exit`. -/
def userCode (s : Runtime M R) : Bool :=
  !s.raising && !(s.stack.head?.any Frame.isExiting)

/-- One step. -/
def step (s : Runtime M R) (l : Label M R) : Option (Runtime M R) :=
  match l with
  | .spawn linker monitorRef =>
      if s.userCode then
        some { s with
          sched := (s.sched.spawnImpl linker monitorRef).2
          ready := s.ready ++ [.start (s.sched.spawnImpl linker monitorRef).1] }
      else none
  | .link left right =>
      if s.userCode then
        some (match s.sched.link left right with
          | some sched => { s with sched := sched }
          | none => { s with raising := true })
      else none
  | .monitor monitorRef targetRef =>
      if s.userCode then
        some (match s.sched.monitor monitorRef targetRef with
          | some sched => { s with sched := sched }
          | none => { s with raising := true })
      else none
  | .send target m => if s.userCode then some (s.send target (.user m)) else none
  | .stop target reason =>
      if s.userCode then
        if s.registered target then
          some ((s.updateActor target fun x =>
            { x with exitReason := some reason }).enqueueMessage target
            (.signal (.exit target reason)))
        else some { s with raising := true }
      else none
  | .receive visitors timed =>
      match s.raising, s.stack with
      | false, .running a :: rest => some (s.beginReceive a rest visitors timed)
      | _, _ => none
  | .visitorReturn value =>
      match s.raising, s.stack with
      | false, .visiting r position delivered :: rest =>
          (s.actors (s.receives r).actor).mailbox[position]?.map fun e =>
            s.visitorReturned rest r position delivered e value
      | _, _ => none
  | .timeoutReturn value =>
      match s.raising, s.stack with
      | false, .expiring r :: rest => some (s.timeoutReturned rest r value)
      | _, _ => none
  | .finish =>
      match s.raising, s.stack with
      | false, .running a :: rest =>
          some (s.beginExit a rest ((s.actors a).exitReason.getD .normal))
      | _, _ => none
  | .signal =>
      match s.raising, s.stack with
      | false, .exiting _ [] :: rest => some { s with stack := rest }
      | false, .exiting a ((target, sg) :: signals) :: rest =>
          some ({ s with stack := .exiting a signals :: rest }.send target (.signal sg))
      | _, _ => none
  | .throw => if s.userCode && !s.stack.isEmpty then some { s with raising := true } else none
  | .catch =>
      if s.raising && !(s.stack.head?.any Frame.isExiting) then some { s with raising := false }
      else none
  | .unwind =>
      match s.raising, s.stack with
      | true, .running a :: rest => some { s.beginExit a rest .error with raising := false }
      | true, .exiting _ _ :: rest => some { s with stack := rest, raising := false }
      | true, .visiting r _ delivered :: rest =>
          some (if delivered then { s with stack := rest }
            else { s.updateReceive r fun w => { w with stage := .done } with stack := rest })
      | true, .expiring _ :: rest => some { s with stack := rest }
      | _, _ => none
  | .resume =>
      match s.raising, s.stack, s.ready with
      | false, [], .start a :: ready => some { s with ready := ready, stack := [.running a] }
      | false, [], .receive r :: ready =>
          if (s.receives r).stage.suspended then
            some { s.updateReceive r fun w => { w with stage := .done } with
              ready := ready, stack := [.running (s.receives r).actor] }
          else none
      | _, _, _ => none
  | .fire r =>
      match s.raising, s.stack with
      | false, [] => if r ∈ s.timers then some (s.fireTimer r) else none
      | _, _ => none

/-! ### What a step does -/

/-- The steps, each with what it is taken in and what it leads to. -/
inductive Moves (s : Runtime M R) : Label M R → Runtime M R → Prop where
  | spawn (linker monitorRef : ActorRef) (huser : s.userCode = true) :
      Moves s (.spawn linker monitorRef)
        { s with
          sched := (s.sched.spawnImpl linker monitorRef).2
          ready := s.ready ++ [.start (s.sched.spawnImpl linker monitorRef).1] }
  | link (left right : ActorRef) (sched : SchedulerBase) (huser : s.userCode = true)
      (hlink : s.sched.link left right = some sched) :
      Moves s (.link left right) { s with sched := sched }
  | linkRaises (left right : ActorRef) (huser : s.userCode = true) :
      Moves s (.link left right) { s with raising := true }
  | monitor (monitorRef targetRef : ActorRef) (sched : SchedulerBase) (huser : s.userCode = true)
      (hmonitor : s.sched.monitor monitorRef targetRef = some sched) :
      Moves s (.monitor monitorRef targetRef) { s with sched := sched }
  | monitorRaises (monitorRef targetRef : ActorRef) (huser : s.userCode = true) :
      Moves s (.monitor monitorRef targetRef) { s with raising := true }
  | send (target : ActorRef) (m : M) (huser : s.userCode = true) :
      Moves s (.send target m) (s.send target (.user m))
  | stop (target : ActorRef) (reason : ExitReason) (huser : s.userCode = true)
      (hreg : s.registered target = true) :
      Moves s (.stop target reason)
        ((s.updateActor target fun x => { x with exitReason := some reason }).enqueueMessage target
          (.signal (.exit target reason)))
  | stopRaises (target : ActorRef) (reason : ExitReason) (huser : s.userCode = true) :
      Moves s (.stop target reason) { s with raising := true }
  | receive (visitors : List (Visitor M)) (timed : Bool) (a : ActorRef) (rest : List Frame)
      (hraise : s.raising = false) (hstack : s.stack = .running a :: rest) :
      Moves s (.receive visitors timed) (s.beginReceive a rest visitors timed)
  | visitorReturn (value : R) (r position : ℕ) (delivered : Bool) (rest : List Frame)
      (e : Envelope M) (hraise : s.raising = false)
      (hstack : s.stack = .visiting r position delivered :: rest)
      (he : (s.actors (s.receives r).actor).mailbox[position]? = some e) :
      Moves s (.visitorReturn value) (s.visitorReturned rest r position delivered e value)
  | timeoutReturn (value : R) (r : ℕ) (rest : List Frame) (hraise : s.raising = false)
      (hstack : s.stack = .expiring r :: rest) :
      Moves s (.timeoutReturn value) (s.timeoutReturned rest r value)
  | finish (a : ActorRef) (rest : List Frame) (hraise : s.raising = false)
      (hstack : s.stack = .running a :: rest) :
      Moves s .finish (s.beginExit a rest ((s.actors a).exitReason.getD .normal))
  | signalled (a : ActorRef) (rest : List Frame) (hraise : s.raising = false)
      (hstack : s.stack = .exiting a [] :: rest) : Moves s .signal { s with stack := rest }
  | signal (a target : ActorRef) (sg : Signal) (signals : List (ActorRef × Signal))
      (rest : List Frame) (hraise : s.raising = false)
      (hstack : s.stack = .exiting a ((target, sg) :: signals) :: rest) :
      Moves s .signal ({ s with stack := .exiting a signals :: rest }.send target (.signal sg))
  | throw (huser : s.userCode = true) : Moves s .throw { s with raising := true }
  | catch (hraise : s.raising = true) : Moves s .catch { s with raising := false }
  | unwindRunning (a : ActorRef) (rest : List Frame) (hraise : s.raising = true)
      (hstack : s.stack = .running a :: rest) :
      Moves s .unwind { s.beginExit a rest .error with raising := false }
  | unwindExiting (a : ActorRef) (signals : List (ActorRef × Signal)) (rest : List Frame)
      (hraise : s.raising = true) (hstack : s.stack = .exiting a signals :: rest) :
      Moves s .unwind { s with stack := rest, raising := false }
  | unwindVisiting (r position : ℕ) (delivered : Bool) (rest : List Frame)
      (hraise : s.raising = true) (hstack : s.stack = .visiting r position delivered :: rest) :
      Moves s .unwind
        (if delivered then { s with stack := rest }
          else { s.updateReceive r fun w => { w with stage := .done } with stack := rest })
  | unwindExpiring (r : ℕ) (rest : List Frame) (hraise : s.raising = true)
      (hstack : s.stack = .expiring r :: rest) : Moves s .unwind { s with stack := rest }
  | resumeStart (a : ActorRef) (ready : List Handle) (hraise : s.raising = false)
      (hstack : s.stack = []) (hready : s.ready = .start a :: ready) :
      Moves s .resume { s with ready := ready, stack := [.running a] }
  | resumeReceive (r : ℕ) (ready : List Handle) (hraise : s.raising = false)
      (hstack : s.stack = []) (hready : s.ready = .receive r :: ready)
      (hsuspended : (s.receives r).stage.suspended = true) :
      Moves s .resume
        { s.updateReceive r fun w => { w with stage := .done } with
          ready := ready, stack := [.running (s.receives r).actor] }
  | fire (r : ℕ) (hraise : s.raising = false) (hstack : s.stack = []) (htimer : r ∈ s.timers) :
      Moves s (.fire r) (s.fireTimer r)

lemma moves_of_step {s t : Runtime M R} {l : Label M R} (h : s.step l = some t) : s.Moves l t := by
  cases l with
  -- calls that code on the stack makes: each looks its actors up and may raise
  | spawn linker monitorRef =>
      simp only [step, Option.ite_none_right_eq_some, Option.some.injEq] at h
      obtain ⟨huser, rfl⟩ := h
      exact .spawn linker monitorRef huser
  | link left right =>
      simp only [step, Option.ite_none_right_eq_some, Option.some.injEq] at h
      obtain ⟨huser, rfl⟩ := h
      split
      · exact .link left right _ huser ‹_›
      · exact .linkRaises left right huser
  | monitor monitorRef targetRef =>
      simp only [step, Option.ite_none_right_eq_some, Option.some.injEq] at h
      obtain ⟨huser, rfl⟩ := h
      split
      · exact .monitor monitorRef targetRef _ huser ‹_›
      · exact .monitorRaises monitorRef targetRef huser
  | send target m =>
      simp only [step, Option.ite_none_right_eq_some, Option.some.injEq] at h
      obtain ⟨huser, rfl⟩ := h
      exact .send target m huser
  | stop target reason =>
      simp only [step, Option.ite_none_right_eq_some] at h
      obtain ⟨huser, h⟩ := h
      split at h
      · obtain rfl := Option.some.inj h
        exact .stop target reason huser ‹_›
      · obtain rfl := Option.some.inj h
        exact .stopRaises target reason huser
  -- only a running actor receives; a visitor or a timeout visitor returns from its own frame
  | receive visitors timed =>
      simp only [step] at h
      split at h
      · rename_i a rest hraise hstack
        obtain rfl := Option.some.inj h
        exact .receive visitors timed a rest hraise hstack
      · cases h
  | visitorReturn value =>
      simp only [step] at h
      split at h
      · rename_i r position delivered rest hraise hstack
        obtain ⟨e, he, rfl⟩ := Option.map_eq_some_iff.mp h
        exact .visitorReturn value r position delivered rest e hraise hstack he
      · cases h
  | timeoutReturn value =>
      simp only [step] at h
      split at h
      · rename_i r rest hraise hstack
        obtain rfl := Option.some.inj h
        exact .timeoutReturn value r rest hraise hstack
      · cases h
  | finish =>
      simp only [step] at h
      split at h
      · rename_i a rest hraise hstack
        obtain rfl := Option.some.inj h
        exact .finish a rest hraise hstack
      · cases h
  -- `notify_exit`: the last signal has been sent, or the next one is
  | signal =>
      simp only [step] at h
      split at h
      · rename_i a rest hraise hstack
        obtain rfl := Option.some.inj h
        exact .signalled a rest hraise hstack
      · rename_i a target sg signals rest hraise hstack
        obtain rfl := Option.some.inj h
        exact .signal a target sg signals rest hraise hstack
      · cases h
  | throw =>
      simp only [step, Option.ite_none_right_eq_some, Option.some.injEq, Bool.and_eq_true] at h
      obtain ⟨⟨huser, -⟩, rfl⟩ := h
      exact .throw huser
  | «catch» =>
      simp only [step, Option.ite_none_right_eq_some, Option.some.injEq, Bool.and_eq_true] at h
      obtain ⟨⟨hraise, -⟩, rfl⟩ := h
      exact .catch hraise
  -- an exception leaves the frame on top: what it leaves behind depends on the frame
  | unwind =>
      simp only [step] at h
      split at h
      · rename_i a rest hraise hstack
        obtain rfl := Option.some.inj h
        exact .unwindRunning a rest hraise hstack
      · rename_i a signals rest hraise hstack
        obtain rfl := Option.some.inj h
        exact .unwindExiting a signals rest hraise hstack
      · rename_i r position delivered rest hraise hstack
        obtain rfl := Option.some.inj h
        exact .unwindVisiting r position delivered rest hraise hstack
      · rename_i r rest hraise hstack
        obtain rfl := Option.some.inj h
        exact .unwindExpiring r rest hraise hstack
      · cases h
  -- the loop itself: an actor is started, a receive resumed or a timer fired
  | resume =>
      simp only [step] at h
      split at h
      · rename_i a ready hraise hstack hready
        obtain rfl := Option.some.inj h
        exact .resumeStart a ready hraise hstack hready
      · rename_i r ready hraise hstack hready
        rw [Option.ite_none_right_eq_some] at h
        obtain ⟨hsuspended, h⟩ := h
        obtain rfl := Option.some.inj h
        exact .resumeReceive r ready hraise hstack hready hsuspended
      · cases h
  | fire r =>
      simp only [step] at h
      split at h
      · rename_i hraise hstack
        rw [Option.ite_none_right_eq_some] at h
        obtain ⟨htimer, h⟩ := h
        obtain rfl := Option.some.inj h
        exact .fire r hraise hstack htimer
      · cases h

end Runtime

end Agner
