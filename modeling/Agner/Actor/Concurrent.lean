import Agner.Actor.Mailbox
import Agner.Foundations.Runs

/-!
`actor.hpp` on the multi-threaded scheduler: one actor, the worker threads that run its
coroutine, the timer thread, and any number of threads that send to it or stop it.

Each label is a section guarded by `actor_mutex_`, or one access made outside of it. Visitors
return, and a matching visitor runs inside the section that found the message.

* `awaitReady`, `install`: the two sections of a receive. Between them the coroutine is
  `missed`: the search has failed and nothing is pending yet.
* `publish`, `arm`: the rest of `await_suspend` of a `try_receive`, which may still run when
  the coroutine has been resumed by another worker.
* `send`, `stop`: the guarded sections of `enqueue_message` and of `stop`; the thread then
  leaves with a handle it passes to `schedule`.
* `fire`, `store`, `runTimeout`, `reset`, `scheduleTimeout`: the timer thread in a callback.

A handle is the coroutine's: it resumes whichever receive the coroutine is suspended in.
`outcomes`, `scheduled` and `stage` record the history of a run.
-/

namespace Agner.Concurrent

/-- What is left of `await_suspend` once `pending_` is installed. -/
inductive Suspension where
  /-- `active_` is still to be created. -/
  | publishing
  /-- `schedule_after` is still to be called. -/
  | arming
  | complete
  deriving DecidableEq

/-- How far a call of `receive` or `try_receive` has come. -/
inductive Stage where
  | unused
  /-- `await_ready` found no message. -/
  | missed
  /-- `await_ready` ran a visitor. -/
  | matched
  /-- Suspended. -/
  | waiting
  /-- Suspended, the callback has found the flag set. -/
  | claimed
  /-- Suspended, the callback has cleared the flag. -/
  | cleared
  /-- Suspended, the timeout visitor has run. -/
  | expired
  /-- Suspended, the callback has reset `pending_`. -/
  | withdrawn
  /-- Suspended, a sender has run a message visitor. -/
  | delivered
  /-- Suspended, the handle has been passed to `schedule`. -/
  | scheduled
  | done
  deriving DecidableEq

/-- `ReceiveAwaiter`, with what the threads still hold of it. -/
structure ReceiveAwaiter (M : Type) where
  visitors : List (Visitor M) := []
  /-- There is a timeout visitor. -/
  timed : Bool := false
  /-- `active_`, shared with the callback. -/
  active : Option Bool := none
  suspension : Suspension := .complete
  /-- The callback is in `timers_`. -/
  armed : Bool := false
  /-- The threads that have left `actor_mutex_` with the handle to pass to `schedule`. -/
  handed : ℕ := 0
  /-- How often the handle is in the queues of the workers. -/
  queued : ℕ := 0
  /-- The writes to `storage_`. -/
  outcomes : List (Outcome M) := []
  scheduled : ℕ := 0
  stage : Stage := .unused

/-- Where the coroutine of the actor is. -/
inductive Control where
  | running
  /-- Between `await_ready` and `await_suspend` of a receive. -/
  | missed (r : ℕ)
  | suspended (r : ℕ)
  deriving DecidableEq

/-- Where the timer thread is in the callback of a receive. -/
inductive TimerThread where
  | idle
  | loaded (r : ℕ)
  | stored (r : ℕ)
  | visited (r : ℕ)
  | withdrawn (r : ℕ)
  deriving DecidableEq

end Concurrent

/-- An actor on the multi-threaded scheduler, with the threads that touch it. -/
structure ConcurrentActor (M : Type) where
  self : ActorRef := 1
  mailbox : List (Envelope M) := []
  pending : Option ℕ := none
  exitReason : Option ExitReason := none
  enqueued : ℕ := 0
  receives : ℕ → Concurrent.ReceiveAwaiter M := fun _ => {}
  nextReceive : ℕ := 0
  control : Concurrent.Control := .running
  timer : Concurrent.TimerThread := .idle

namespace ConcurrentActor

open Concurrent

/-- What happens next. -/
inductive Label (M : Type) where
  | awaitReady (visitors : List (Visitor M)) (timed : Bool)
  | install
  | publish (r : ℕ)
  | arm (r : ℕ)
  | send (m : M)
  | stop (reason : ExitReason)
  /-- A thread that delivered a message passes the handle to `schedule`. -/
  | schedule (r : ℕ)
  /-- A worker takes a handle from a queue and resumes it. -/
  | resume (r : ℕ)
  /-- The timer thread calls the callback of a receive, which loads the flag. -/
  | fire (r : ℕ)
  | store
  | runTimeout
  | reset
  | scheduleTimeout

variable {M : Type}

/-- Assignment to members of an awaiter. -/
def updateReceive (s : ConcurrentActor M) (r : ℕ)
    (f : Concurrent.ReceiveAwaiter M → Concurrent.ReceiveAwaiter M) : ConcurrentActor M :=
  { s with receives := Function.update s.receives r (f (s.receives r)) }

section Update

variable (s : ConcurrentActor M) (r : ℕ)
  (f : Concurrent.ReceiveAwaiter M → Concurrent.ReceiveAwaiter M)

@[simp] lemma updateReceive_receives (x : ℕ) :
    (s.updateReceive r f).receives x = if x = r then f (s.receives r) else s.receives x :=
  Function.update_apply _ _ _ _

@[simp] lemma updateReceive_mailbox : (s.updateReceive r f).mailbox = s.mailbox := rfl

@[simp] lemma updateReceive_pending : (s.updateReceive r f).pending = s.pending := rfl

@[simp] lemma updateReceive_control : (s.updateReceive r f).control = s.control := rfl

@[simp] lemma updateReceive_timer : (s.updateReceive r f).timer = s.timer := rfl

@[simp] lemma updateReceive_nextReceive : (s.updateReceive r f).nextReceive = s.nextReceive :=
  rfl

lemma updateReceive_updateReceive
    (g : Concurrent.ReceiveAwaiter M → Concurrent.ReceiveAwaiter M) :
    (s.updateReceive r f).updateReceive r g = s.updateReceive r fun w => g (f w) := by
  simp [updateReceive]

end Update

/-! ### The guarded sections -/

/-- `mailbox_.emplace_back`. -/
def pushMessage (s : ConcurrentActor M) (m : Message M) : ConcurrentActor M :=
  { s with
    mailbox := s.mailbox ++ [{ stamp := s.enqueued, body := m }]
    enqueued := s.enqueued + 1 }

/-- The end of `try_match` once a visitor has run on a message: the result is in `storage_`,
and the flag is cleared if it has been created. -/
def matchOn (e : Envelope M) (w : Concurrent.ReceiveAwaiter M) : Concurrent.ReceiveAwaiter M :=
  { w with
    active := w.active.map fun _ => false
    outcomes := w.outcomes ++
      [.message e (w.visitors.findIdx fun visitor => visitor e.body)] }

/-- `try_match` of a receive: the state in which it returns true. -/
def tryMatch (s : ConcurrentActor M) (r : ℕ) : Option (ConcurrentActor M) :=
  match tryMatchMailbox (s.receives r).visitors s.mailbox with
  | none => none
  | some position =>
      s.mailbox[position]?.map fun e =>
        { s.updateReceive r (matchOn e) with mailbox := s.mailbox.eraseIdx position }

/-- The guarded section of `await_ready`, for the awaiter of a new call. -/
def awaitReady (s : ConcurrentActor M) (visitors : List (Visitor M)) (timed : Bool) :
    ConcurrentActor M :=
  let r := s.nextReceive
  let u := { s.updateReceive r fun _ => { visitors := visitors, timed := timed } with
    nextReceive := r + 1 }
  match u.tryMatch r with
  | some t => t.updateReceive r fun w => { w with stage := .matched }
  | none => { u.updateReceive r fun w => { w with stage := .missed } with control := .missed r }

/-- The guarded section of `await_suspend`. -/
def install (s : ConcurrentActor M) (r : ℕ) : ConcurrentActor M :=
  { s.updateReceive r fun w =>
      { w with
        stage := .waiting
        suspension := if w.timed then .publishing else .complete } with
    pending := some r
    control := .suspended r }

/-- `notify_waiter_locked`: `pending_` is reset before the visitors are tried, and set again if
no message matches. The caller leaves with the handle if one does. -/
def notifyWaiterLocked (s : ConcurrentActor M) : ConcurrentActor M :=
  match s.pending with
  | none => s
  | some r =>
      match { s with pending := none }.tryMatch r with
      | some t => t.updateReceive r fun w => { w with handed := w.handed + 1, stage := .delivered }
      | none => s

/-- The guarded section of `enqueue_message`. -/
def enqueueMessage (s : ConcurrentActor M) (m : Message M) : ConcurrentActor M :=
  (s.pushMessage m).notifyWaiterLocked

/-! ### Steps -/

/-- The creation of `active_`. -/
def publish (s : ConcurrentActor M) (r : ℕ) : ConcurrentActor M :=
  s.updateReceive r fun w => { w with active := some true, suspension := .arming }

/-- `schedule_after`. -/
def arm (s : ConcurrentActor M) (r : ℕ) : ConcurrentActor M :=
  s.updateReceive r fun w => { w with armed := true, suspension := .complete }

/-- `schedule`, for the handle of a receive. -/
def schedule (s : ConcurrentActor M) (r : ℕ) : ConcurrentActor M :=
  s.updateReceive r fun w =>
    { w with queued := w.queued + 1, scheduled := w.scheduled + 1, stage := .scheduled }

/-- The end of `enqueue_message` and of `stop`, in a thread that left with the handle. -/
def scheduleHanded (s : ConcurrentActor M) (r : ℕ) : ConcurrentActor M :=
  (s.updateReceive r fun w => { w with handed := w.handed - 1 }).schedule r

/-- A worker takes a handle of `r` and resumes the coroutine, which is suspended in `x`. -/
def resume (s : ConcurrentActor M) (r x : ℕ) : ConcurrentActor M :=
  { (s.updateReceive r fun w => { w with queued := w.queued - 1 }).updateReceive x
      fun w => { w with stage := .done } with
    control := .running }

/-- The callback up to its test of the flag. -/
def fire (s : ConcurrentActor M) (r : ℕ) : ConcurrentActor M :=
  if (s.receives r).active = some true then
    { s.updateReceive r fun w => { w with armed := false, stage := .claimed } with
      timer := .loaded r }
  else s.updateReceive r fun w => { w with armed := false }

/-- The callback clears the flag. -/
def store (s : ConcurrentActor M) (r : ℕ) : ConcurrentActor M :=
  { s.updateReceive r fun w => { w with active := some false, stage := .cleared } with
    timer := .stored r }

/-- The callback runs the timeout visitor. -/
def runTimeout (s : ConcurrentActor M) (r : ℕ) : ConcurrentActor M :=
  { s.updateReceive r fun w =>
      { w with outcomes := w.outcomes ++ [.timeout], stage := .expired } with
    timer := .visited r }

/-- The callback resets `pending_`, whatever it holds. -/
def reset (s : ConcurrentActor M) (r : ℕ) : ConcurrentActor M :=
  { s.updateReceive r fun w => { w with stage := .withdrawn } with
    pending := none, timer := .withdrawn r }

/-- The callback schedules the handle and returns. -/
def scheduleTimeout (s : ConcurrentActor M) (r : ℕ) : ConcurrentActor M :=
  { s.schedule r with timer := .idle }

/-- One step. -/
def step (s : ConcurrentActor M) (l : Label M) : Option (ConcurrentActor M) :=
  match l with
  | .awaitReady visitors timed =>
      match s.control with
      | .running => some (s.awaitReady visitors timed)
      | _ => none
  | .install =>
      match s.control with
      | .missed r => some (s.install r)
      | _ => none
  | .publish r => if (s.receives r).suspension = .publishing then some (s.publish r) else none
  | .arm r => if (s.receives r).suspension = .arming then some (s.arm r) else none
  | .send m => some (s.enqueueMessage (.user m))
  | .stop reason =>
      some ({ s with exitReason := some reason }.enqueueMessage
        (.signal (.exit s.self reason)))
  | .schedule r => if 0 < (s.receives r).handed then some (s.scheduleHanded r) else none
  | .resume r =>
      match s.control with
      | .suspended x => if 0 < (s.receives r).queued then some (s.resume r x) else none
      | _ => none
  | .fire r =>
      match s.timer with
      | .idle => if (s.receives r).armed then some (s.fire r) else none
      | _ => none
  | .store =>
      match s.timer with
      | .loaded r => some (s.store r)
      | _ => none
  | .runTimeout =>
      match s.timer with
      | .stored r => some (s.runTimeout r)
      | _ => none
  | .reset =>
      match s.timer with
      | .visited r => some (s.reset r)
      | _ => none
  | .scheduleTimeout =>
      match s.timer with
      | .withdrawn r => some (s.scheduleTimeout r)
      | _ => none

/-- What a step can be, with its guard. -/
inductive Step (s : ConcurrentActor M) : Label M → ConcurrentActor M → Prop
  | awaitReady (visitors : List (Visitor M)) (timed : Bool) (hc : s.control = .running) :
      Step s (.awaitReady visitors timed) (s.awaitReady visitors timed)
  | install (r : ℕ) (hc : s.control = .missed r) : Step s .install (s.install r)
  | publish (r : ℕ) (hr : (s.receives r).suspension = .publishing) :
      Step s (.publish r) (s.publish r)
  | arm (r : ℕ) (hr : (s.receives r).suspension = .arming) : Step s (.arm r) (s.arm r)
  | send (m : M) : Step s (.send m) (s.enqueueMessage (.user m))
  | stop (reason : ExitReason) :
      Step s (.stop reason) ({ s with exitReason := some reason }.enqueueMessage
        (.signal (.exit s.self reason)))
  | schedule (r : ℕ) (hr : 0 < (s.receives r).handed) :
      Step s (.schedule r) (s.scheduleHanded r)
  | resume (r x : ℕ) (hc : s.control = .suspended x) (hr : 0 < (s.receives r).queued) :
      Step s (.resume r) (s.resume r x)
  | fire (r : ℕ) (htimer : s.timer = .idle) (hr : (s.receives r).armed = true) :
      Step s (.fire r) (s.fire r)
  | store (r : ℕ) (htimer : s.timer = .loaded r) : Step s .store (s.store r)
  | runTimeout (r : ℕ) (htimer : s.timer = .stored r) : Step s .runTimeout (s.runTimeout r)
  | reset (r : ℕ) (htimer : s.timer = .visited r) : Step s .reset (s.reset r)
  | scheduleTimeout (r : ℕ) (htimer : s.timer = .withdrawn r) :
      Step s .scheduleTimeout (s.scheduleTimeout r)

lemma step_cases {s t : ConcurrentActor M} {l : Label M} (h : s.step l = some t) :
    Step s l t := by
  cases l with
  | send m =>
      obtain rfl := Option.some.inj h
      exact .send m
  | stop reason =>
      obtain rfl := Option.some.inj h
      exact .stop reason
  | publish r | arm r | schedule r =>
      simp only [step, Option.ite_none_right_eq_some, Option.some.injEq] at h
      obtain ⟨hr, rfl⟩ := h
      constructor
      exact hr
  | awaitReady | install =>
      cases hc : s.control <;> simp only [step, hc, reduceCtorEq, Option.some.injEq] at h
      subst h
      constructor
      exact hc
  | resume r =>
      cases hc : s.control <;>
        simp only [step, hc, reduceCtorEq, Option.ite_none_right_eq_some,
          Option.some.injEq] at h
      obtain ⟨hr, rfl⟩ := h
      exact .resume r _ hc hr
  | fire r =>
      cases htimer : s.timer <;>
        simp only [step, htimer, reduceCtorEq, Option.ite_none_right_eq_some,
          Option.some.injEq] at h
      obtain ⟨hr, rfl⟩ := h
      exact .fire r htimer hr
  | store | runTimeout | reset | scheduleTimeout =>
      cases htimer : s.timer <;> simp only [step, htimer, reduceCtorEq, Option.some.injEq] at h
      subst h
      constructor
      exact htimer

/-! ### The search -/

/-- `try_match` fails if no message in the mailbox is accepted. -/
lemma tryMatch_eq_none {s : ConcurrentActor M} {r : ℕ} :
    s.tryMatch r = none ↔
      ∀ e ∈ s.mailbox, tryMatchVisitors (s.receives r).visitors e.body = false := by
  rw [← tryMatchMailbox_eq_none, tryMatch]
  cases h : tryMatchMailbox (s.receives r).visitors s.mailbox with
  | none => simp
  | some position =>
      obtain ⟨e, hget, -⟩ := getElem?_of_tryMatchMailbox h
      simp [hget]

/-- `try_match` takes a message that is accepted out of the mailbox. -/
lemma tryMatch_eq_some {s t : ConcurrentActor M} {r : ℕ} (h : s.tryMatch r = some t) :
    ∃ position e, tryMatchVisitors (s.receives r).visitors e.body = true ∧ e ∈ s.mailbox ∧
      t = { s.updateReceive r (matchOn e) with mailbox := s.mailbox.eraseIdx position } := by
  rw [tryMatch] at h
  cases hm : tryMatchMailbox (s.receives r).visitors s.mailbox with
  | none =>
      rw [hm] at h
      exact absurd h (by simp)
  | some position =>
      obtain ⟨e, hget, hacc⟩ := getElem?_of_tryMatchMailbox hm
      rw [hm] at h
      simp only [hget, Option.map_some, Option.some.injEq] at h
      exact ⟨position, e, hacc, List.mem_of_getElem? hget, h.symm⟩

/-- A message is delivered to the pending receive, or it stays in the mailbox. -/
lemma enqueueMessage_cases (s : ConcurrentActor M) (m : Message M) :
    s.enqueueMessage m = s.pushMessage m ∨
    ∃ r position e, s.pending = some r ∧
      (tryMatchMailbox (s.receives r).visitors (s.pushMessage m).mailbox).isSome = true ∧
      s.enqueueMessage m =
        { s.updateReceive r fun w =>
            { matchOn e w with handed := w.handed + 1, stage := .delivered } with
          mailbox := (s.pushMessage m).mailbox.eraseIdx position
          enqueued := s.enqueued + 1
          pending := none } := by
  rw [enqueueMessage, notifyWaiterLocked]
  cases hp : (s.pushMessage m).pending with
  | none => exact .inl rfl
  | some r =>
      dsimp only
      cases hv : { s.pushMessage m with pending := none }.tryMatch r with
      | none => exact .inl rfl
      | some v =>
          obtain ⟨position, e, hacc, he, rfl⟩ := tryMatch_eq_some hv
          refine .inr ⟨r, position, e, hp, ?_, ?_⟩
          · rw [Option.isSome_iff_ne_none, Ne, tryMatchMailbox_eq_none]
            intro hall
            exact absurd (hall e he) (by simpa [pushMessage] using hacc)
          · simp [updateReceive, matchOn, pushMessage]

/-- A message is delivered as soon as the mailbox has one that the pending receive accepts. -/
lemma enqueueMessage_ne_pushMessage {s : ConcurrentActor M} {m : Message M} {r : ℕ}
    (hp : s.pending = some r)
    (hfound : (tryMatchMailbox (s.receives r).visitors (s.pushMessage m).mailbox).isSome = true) :
    s.enqueueMessage m ≠ s.pushMessage m := by
  intro heq
  have hsome : { s.pushMessage m with pending := none }.tryMatch r ≠ none := by
    rw [Ne, tryMatch_eq_none, ← tryMatchMailbox_eq_none]
    exact Option.isSome_iff_ne_none.mp hfound
  obtain ⟨v, hv⟩ := Option.ne_none_iff_exists'.mp hsome
  have hpending : (s.enqueueMessage m).pending = none := by
    have hpush : (s.pushMessage m).pending = some r := hp
    rw [enqueueMessage, notifyWaiterLocked, hpush]
    dsimp only
    rw [hv]
    obtain ⟨position, e, -, -, rfl⟩ := tryMatch_eq_some hv
    rfl
  rw [heq] at hpending
  exact absurd (hpending.symm.trans hp) (by simp)

end ConcurrentActor

end Agner
