import Agner.Actor.Runtime

/-!
Visitors that throw.

When `await_ready` runs the visitor, an exception is raised in the coroutine of the actor that
receives: uncaught, it ends that actor with the reason `error`. When the message is delivered
to a receive that is suspended, the visitor runs in whoever delivers, after `pending_` has been
reset: the exception is raised there, and the receive is left behind.

* `delivery`: the message a step enqueues, and to whom.
* `Stranded`: a receive that is suspended, not pending and not scheduled.
* `queued_exception_stays`: what happens in the first case.
* `delivered_exception_escapes`: what happens in the second, whatever the delivery is.
-/

namespace Agner

open Runs

namespace Runtime

variable {M R : Type}

/-- The message a step enqueues: the state in which it is, the actor it is for, and the
message. -/
def delivery (s : Runtime M R) : Label M R → Option (Runtime M R × ActorRef × Message M)
  | .send target m =>
      if s.userCode && s.registered target then some (s, target, .user m) else none
  | .stop target reason =>
      if s.userCode && s.registered target then
        some (s.updateActor target fun x => { x with exitReason := some reason }, target,
          .signal (.exit target reason))
      else none
  | .signal =>
      match s.raising, s.stack with
      | false, .exiting a ((target, sg) :: signals) :: rest =>
          if s.registered target then
            some ({ s with stack := .exiting a signals :: rest }, target, .signal sg)
          else none
      | _, _ => none
  | _ => none

/-- The receive is suspended, but neither pending nor scheduled: no message will wake it. -/
def Stranded (s : Runtime M R) (r : ℕ) : Prop :=
  (s.receives r).stage.suspended = true ∧ (s.actors (s.receives r).actor).pending = none ∧
    Handle.receive r ∉ s.ready

instance (s : Runtime M R) (r : ℕ) : Decidable (s.Stranded r) :=
  inferInstanceAs (Decidable (_ ∧ (_ : Option ℕ) = none ∧ _))

/-- A message is delivered and the visitor it is for throws: the call that delivered it
completes normally, and the receive is not stranded. -/
def StaysInReceiver (s : Runtime M R) (l : Label M R) (r : ℕ) : Prop :=
  ∃ t, run step s [l, .throw, .unwind] = some t ∧ t.raising = false ∧ ¬ t.Stranded r

/-- What a delivery finds. -/
lemma step_of_delivery {s u : Runtime M R} {l : Label M R} {a : ActorRef} {m : Message M}
    (h : s.delivery l = some (u, a, m)) :
    s.step l = some (u.enqueueMessage a m) ∧ u.raising = false ∧ u.receives = s.receives ∧
      u.ready = s.ready ∧ (u.actors a).pending = (s.actors a).pending := by
  cases l with
  | send target x =>
      simp only [delivery, Option.ite_none_right_eq_some, Bool.and_eq_true, Option.some.injEq,
        Prod.mk.injEq] at h
      obtain ⟨⟨huser, hreg⟩, rfl, rfl, rfl⟩ := h
      refine ⟨by simp [step, huser, Runtime.send, hreg], ?_, rfl, rfl, rfl⟩
      simp only [userCode, Bool.and_eq_true, Bool.not_eq_true'] at huser
      exact huser.1
  | stop target reason =>
      simp only [delivery, Option.ite_none_right_eq_some, Bool.and_eq_true, Option.some.injEq,
        Prod.mk.injEq] at h
      obtain ⟨⟨huser, hreg⟩, rfl, rfl, rfl⟩ := h
      refine ⟨by simp [step, huser, hreg], ?_, rfl, rfl, by simp⟩
      simp only [userCode, Bool.and_eq_true, Bool.not_eq_true'] at huser
      exact huser.1
  | signal =>
      simp only [delivery] at h
      split at h
      · rename_i b target sg signals rest hraise hstack
        simp only [Option.ite_none_right_eq_some, Option.some.injEq, Prod.mk.injEq] at h
        obtain ⟨hreg, rfl, rfl, rfl⟩ := h
        refine ⟨?_, hraise, rfl, rfl, rfl⟩
        simp only [step, hraise, hstack, Runtime.send]
        exact congrArg some (if_pos hreg)
      · cases h
  | _ => simp [delivery] at h

/-- A pending receive that accepts the message runs a visitor. -/
lemma enqueueMessage_of_accepted {u : Runtime M R} {a : ActorRef} {m : Message M} {r : ℕ}
    (hp : (u.actors a).pending = some r)
    (hacc : tryMatchVisitors (u.receives r).visitors m = true) :
    ∃ position, u.enqueueMessage a m =
      { ((u.pushMessage a m).updateActor a fun x => { x with pending := none }).updateReceive r
          fun w => { w with stage := .delivering } with
        stack := .visiting r position true :: u.stack } := by
  have hpend : ((u.pushMessage a m).actors a).pending = some r := by simp [pushMessage, hp]
  have hmatch : tryMatchMailbox ((u.pushMessage a m).receives r).visitors
      ((u.pushMessage a m).actors a).mailbox ≠ none := by
    rw [tryMatchMailbox, Ne, List.findIdx?_eq_none_iff]
    intro hall
    have := hall { stamp := (u.actors a).enqueued.length, body := m } (by simp [pushMessage])
    rw [show (u.pushMessage a m).receives r = u.receives r from rfl, hacc] at this
    cases this
  obtain ⟨position, hposition⟩ := Option.ne_none_iff_exists'.mp hmatch
  refine ⟨position, ?_⟩
  rw [enqueueMessage, notifyWaiterLocked, hpend]
  simp only [hposition]
  rfl

/-- The visitor on top of the stack throws, and catches nothing. -/
lemma run_throw_unwind {s : Runtime M R} {r position : ℕ} {delivered : Bool} {rest : List Frame}
    (hraise : s.raising = false) (hstack : s.stack = .visiting r position delivered :: rest) :
    run step s [.throw, .unwind] =
      some (if delivered then { s with stack := rest, raising := true }
        else { s.updateReceive r fun w => { w with stage := .done } with
          stack := rest, raising := true }) := by
  have hthrow : s.step .throw = some { s with raising := true } := by
    simp [step, userCode, hraise, hstack, Frame.isExiting]
  have hunwind : ({ s with raising := true } : Runtime M R).step .unwind =
      some (if delivered then { s with stack := rest, raising := true }
        else { s.updateReceive r fun w => { w with stage := .done } with
          stack := rest, raising := true }) := by
    simp only [step, hstack]
    rfl
  rw [run_cons, hthrow, Option.bind_some, run_cons, hunwind, Option.bind_some, run_nil]

/-- The visitor that a delivery runs throws: the exception is on its way into the code that
delivered the message, with the receive neither pending nor scheduled. -/
lemma run_delivery_throw {s u : Runtime M R} {l : Label M R} {a : ActorRef} {m : Message M}
    {r : ℕ} (hd : s.delivery l = some (u, a, m)) (hp : (s.actors a).pending = some r)
    (hacc : tryMatchVisitors (s.receives r).visitors m = true) :
    run step s [l, .throw, .unwind] =
      some { ((u.pushMessage a m).updateActor a fun x => { x with pending := none }).updateReceive r
          fun w => { w with stage := .delivering } with
        stack := u.stack, raising := true } := by
  obtain ⟨hstep, hraise, hrecv, -, hpend⟩ := step_of_delivery hd
  obtain ⟨position, henq⟩ := enqueueMessage_of_accepted (u := u) (m := m) (hpend.trans hp)
    (by rw [hrecv]; exact hacc)
  have htop : (u.enqueueMessage a m).stack = .visiting r position true :: u.stack := by rw [henq]
  have hquiet : (u.enqueueMessage a m).raising = false := by
    rw [henq]
    exact hraise
  rw [run_cons, hstep, Option.bind_some, run_throw_unwind hquiet htop, henq]
  rfl

/-- `notify_exit` catches nothing: the signals it has not sent yet are lost. -/
lemma step_of_raising_exiting {t v : Runtime M R} {l : Label M R} {b : ActorRef}
    {signals : List (ActorRef × Signal)} {rest : List Frame} (hraise : t.raising = true)
    (hstack : t.stack = .exiting b signals :: rest) (hv : t.step l = some v) :
    v.stack = rest ∧ v.actors = t.actors := by
  cases l with
  | unwind =>
      simp only [step, hraise, hstack, Option.some.injEq] at hv
      subst hv
      exact ⟨rfl, rfl⟩
  | _ => simp [step, userCode, hraise, hstack, Frame.isExiting] at hv

/-- An exception of a visitor run by `await_ready` is raised in the coroutine of the receiving
actor; uncaught, it ends that actor with the reason `error`, of which its links and monitors
are told. -/
theorem queued_exception_stays {s : Runtime M R} {a : ActorRef} {rest : List Frame}
    {visitors : List (Visitor M)} {position : ℕ} (timed : Bool) (hraise : s.raising = false)
    (hstack : s.stack = .running a :: rest)
    (hmatch : tryMatchMailbox visitors (s.actors a).mailbox = some position) :
    ∃ t, run step s [.receive visitors timed, .throw, .unwind] = some t ∧
      t.raising = true ∧ t.stack = .running a :: rest ∧
      ∃ v, t.step .unwind = some v ∧ v.raising = false ∧
        v.stack = .exiting a (s.sched.pendingSignals a .error) :: rest := by
  have hstep : s.step (.receive visitors timed) =
      some { s.newReceive a visitors timed with
        stack := .visiting s.nextReceive position false :: .running a :: rest } := by
    simp only [step, hraise, hstack, Runtime.beginReceive, hmatch]
  have hrun : run step s [.receive visitors timed, .throw, .unwind] =
      some { (s.newReceive a visitors timed).updateReceive s.nextReceive
          fun w => { w with stage := .done } with
        stack := .running a :: rest, raising := true } := by
    rw [run_cons, hstep, Option.bind_some]
    exact run_throw_unwind (s := { s.newReceive a visitors timed with
      stack := .visiting s.nextReceive position false :: .running a :: rest }) hraise rfl
  exact ⟨_, hrun, rfl, rfl, _, rfl, rfl, rfl⟩

/-- Whatever delivers a message to a suspended receive whose visitor throws on it: the
exception is raised in the code that delivers, a fan-out of `notify_exit` sends no further
signal, and the receive is left suspended, neither pending nor scheduled. -/
theorem delivered_exception_escapes {s u : Runtime M R} {l : Label M R} {a : ActorRef}
    {m : Message M} {r : ℕ} (hd : s.delivery l = some (u, a, m))
    (hp : (s.actors a).pending = some r) (hact : (s.receives r).actor = a)
    (hready : Handle.receive r ∉ s.ready)
    (hacc : tryMatchVisitors (s.receives r).visitors m = true) :
    ¬ StaysInReceiver s l r ∧
    ∃ t, run step s [l, .throw, .unwind] = some t ∧ t.raising = true ∧ t.stack = u.stack ∧
      t.Stranded r ∧
      ∀ b signals rest, u.stack = .exiting b signals :: rest →
        ∀ l' v, t.step l' = some v → v.stack = rest ∧ v.actors = t.actors := by
  have hrun := run_delivery_throw hd hp hacc
  obtain ⟨-, -, hrecv, hready', -⟩ := step_of_delivery hd
  refine ⟨?_, _, hrun, rfl, rfl, ⟨?_, ?_, ?_⟩, ?_⟩
  · rintro ⟨t, ht, hraise, -⟩
    rw [hrun, Option.some.injEq] at ht
    rw [← ht] at hraise
    cases hraise
  · simp [Stage.suspended]
  · simp [pushMessage, hrecv, hact]
  · intro hmem
    exact hready (hready' ▸ hmem)
  · exact fun b signals rest hstack l' v hv => step_of_raising_exiting rfl hstack hv

/-- A receiver that accepts every message waits in a receive. -/
def receiverWaits : List (Label ℕ ℕ) := [.spawn 0 0, .resume, .receive [fun _ => true] false]

/-- The exception of a visitor that a send has reached does not stay in the receiver. -/
theorem delivered_exception_escapes_receiverWaits :
    (reached step {} receiverWaits).delivery (.send 1 7) =
        some (reached step {} receiverWaits, 1, .user 7) ∧
      ¬ StaysInReceiver (reached step {} receiverWaits) (.send 1 7) 0 :=
  have hd : (reached step {} receiverWaits).delivery (.send 1 7) =
      some (reached step {} receiverWaits, 1, .user 7) := by
    simp only [delivery]
    rw [if_pos (by decide +kernel)]
  ⟨hd, (delivered_exception_escapes (r := 0) hd (by decide +kernel) (by decide +kernel)
    (by decide +kernel) (by decide +kernel)).1⟩

/-- Someone sends the waiting receiver a message on which its visitor throws: the exception
comes out of `send`, and the receiver is stranded. -/
theorem send_raises_receiver_exception :
    ∃ s t : Runtime ℕ ℕ, run step {} receiverWaits = some s ∧
      run step s [.send 1 7, .throw, .unwind] = some t ∧ t.raising = true ∧ t.stack = [] ∧
      t.Stranded 0 :=
  ⟨_, _, run_eq_reached (by decide +kernel), run_eq_reached (by decide +kernel),
    by decide +kernel, by decide +kernel, by decide +kernel⟩

end Runtime

end Agner
