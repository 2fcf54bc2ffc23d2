import Agner.Actor.Concurrent

/-!
Timed receives on the multi-threaded scheduler: the race between a message and the timeout.

The flag `active_` is created after `pending_` is visible, and the callback tests and clears it
in two accesses outside of `actor_mutex_`. A message that is delivered before the flag exists,
or after the callback has found it set, does not keep the callback from going on. One that is
delivered before the timer is armed may end the receive, and with it the awaiter whose members
`await_suspend` is still to read.

* `Timely`: the condition on steps. No message is delivered to a pending receive whose timer is
  still to be armed, or whose callback has found the flag set.
* `Fits`: what the threads hold of a receive, by its stage.
* `concurrent_receive_one_outcome`: in every state of a run all of whose steps are timely, each
  receive has one outcome and is scheduled once, and the callback resets its own `pending_`;
  every untimely delivery can end in two outcomes, or in a receive that is over before its
  `await_suspend` is.
-/

namespace Agner

open Runs

namespace Concurrent

/-! ### Stages -/

/-- Where the coroutine is, as one receive sees it. -/
inductive Place where
  | away
  | missed
  | suspended
  deriving DecidableEq

/-- Where the timer thread is, as one receive sees it. -/
inductive Callback where
  | idle
  | loaded
  | stored
  | visited
  | withdrawn
  deriving DecidableEq

/-- The place of the coroutine, seen by `r`. -/
def Control.at : Control → ℕ → Place
  | .running, _ => .away
  | .missed x, r => if x = r then .missed else .away
  | .suspended x, r => if x = r then .suspended else .away

/-- The place of the timer thread, seen by `r`. -/
def TimerThread.at : TimerThread → ℕ → Callback
  | .idle, _ => .idle
  | .loaded x, r => if x = r then .loaded else .idle
  | .stored x, r => if x = r then .stored else .idle
  | .visited x, r => if x = r then .visited else .idle
  | .withdrawn x, r => if x = r then .withdrawn else .idle

lemma Control.at_eq_missed {c : Control} {r : ℕ} : c.at r = .missed ↔ c = .missed r := by
  cases c <;> simp only [Control.at] <;> (try split) <;> simp_all

lemma Control.at_eq_suspended {c : Control} {r : ℕ} :
    c.at r = .suspended ↔ c = .suspended r := by
  cases c <;> simp only [Control.at] <;> (try split) <;> simp_all

namespace Stage

/-- The place of the coroutine at a stage. -/
def place : Stage → Place
  | .unused | .matched | .done => .away
  | .missed => .missed
  | .waiting | .claimed | .cleared | .expired | .withdrawn | .delivered | .scheduled => .suspended

/-- The receive is in `pending_`. -/
def pending : Stage → Bool
  | .waiting | .claimed | .cleared | .expired => true
  | .unused | .matched | .done | .missed | .withdrawn | .delivered | .scheduled => false

/-- The place of the timer thread at a stage. -/
def callback : Stage → Callback
  | .claimed => .loaded
  | .cleared => .stored
  | .expired => .visited
  | .withdrawn => .withdrawn
  | .unused | .matched | .done | .missed | .waiting | .delivered | .scheduled => .idle

/-- The number of writes to `storage_`. -/
def outcomes : Stage → ℕ
  | .matched | .expired | .withdrawn | .delivered | .scheduled | .done => 1
  | .unused | .missed | .waiting | .claimed | .cleared => 0

lemma callback_eq_loaded {st : Stage} : st.callback = .loaded ↔ st = .claimed := by
  cases st <;> simp [callback]

lemma callback_eq_stored {st : Stage} : st.callback = .stored ↔ st = .cleared := by
  cases st <;> simp [callback]

lemma callback_eq_visited {st : Stage} : st.callback = .visited ↔ st = .expired := by
  cases st <;> simp [callback]

lemma callback_eq_withdrawn {st : Stage} : st.callback = .withdrawn ↔ st = .withdrawn := by
  cases st <;> simp [callback]

/-- The receive went through `await_suspend`. -/
def slept : Stage → Bool
  | .unused | .missed | .matched => false
  | .waiting | .claimed | .cleared | .expired | .withdrawn | .delivered | .scheduled
  | .done => true

end Stage

namespace ReceiveAwaiter

variable {M : Type}

/-- The flag, the timer and the rest of `await_suspend`, by the stage. -/
def Alarm (w : Concurrent.ReceiveAwaiter M) : Prop :=
  match w.stage with
  | .unused | .missed | .matched =>
      w.suspension = .complete ∧ w.armed = false ∧ w.active = none
  | .waiting =>
      (w.timed = false ∧ w.suspension = .complete ∧ w.armed = false ∧ w.active = none) ∨
      (w.timed = true ∧ w.suspension = .publishing ∧ w.armed = false ∧ w.active = none) ∨
      (w.timed = true ∧ w.suspension = .arming ∧ w.armed = false ∧ w.active = some true) ∨
      (w.timed = true ∧ w.suspension = .complete ∧ w.armed = true ∧ w.active = some true)
  | .claimed => w.suspension = .complete ∧ w.armed = false ∧ w.active = some true
  | .cleared | .expired | .withdrawn =>
      w.suspension = .complete ∧ w.armed = false ∧ w.active = some false
  | .delivered | .scheduled | .done => w.suspension ≠ .publishing ∧ w.active ≠ some true

/-- What the threads hold of the awaiter, by its stage. -/
structure Booked (w : Concurrent.ReceiveAwaiter M) : Prop where
  outcomes : w.outcomes.length = w.stage.outcomes
  scheduled : w.scheduled = if w.stage = .scheduled ∨ w.stage = .done then 1 else 0
  handed : w.handed = if w.stage = .delivered then 1 else 0
  queued : w.queued = if w.stage = .scheduled then 1 else 0
  alarm : w.Alarm

/-! ### Awaiters -/

variable {w : Concurrent.ReceiveAwaiter M}

lemma Booked.install (h : w.Booked) (hst : w.stage = .missed) :
    { w with stage := .waiting
             suspension := if w.timed then .publishing else .complete }.Booked := by
  obtain ⟨hout, hsch, hhand, hque, halarm⟩ := h
  simp only [Alarm, hst] at halarm
  constructor <;> simp_all [Stage.outcomes, Alarm]

/-- The flag is created: the receive waits. -/
lemma Booked.publish (h : w.Booked) (hw : w.suspension = .publishing) :
    w.stage = .waiting ∧
      { w with active := some true, suspension := Suspension.arming }.Booked := by
  obtain ⟨hout, hsch, hhand, hque, halarm⟩ := h
  have hst : w.stage = .waiting := by
    cases hst : w.stage <;> simp_all [Alarm]
  simp only [Alarm, hst] at halarm
  refine ⟨hst, ?_⟩
  constructor <;> simp_all [Stage.outcomes, Alarm]

/-- The timer is armed: the receive waits, or a message has been delivered already. -/
lemma Booked.arm (h : w.Booked) (hw : w.suspension = .arming) :
    w.stage ≠ .unused ∧ { w with armed := true, suspension := Suspension.complete }.Booked := by
  obtain ⟨hout, hsch, hhand, hque, halarm⟩ := h
  cases hst : w.stage <;> simp only [Alarm, hst] at halarm
  case waiting =>
    refine ⟨by simp, ?_⟩
    constructor <;> simp_all [Stage.outcomes, Alarm]
  case delivered | scheduled | done =>
    refine ⟨by simp, ?_⟩
    constructor <;> simp_all [Stage.outcomes, Alarm]
  all_goals simp_all

/-- A message is delivered to a receive that waits with its flag. -/
lemma Booked.deliver (h : w.Booked) (hst : w.stage = .waiting)
    (hw : w.suspension ≠ .publishing) (e : Envelope M) :
    { ConcurrentActor.matchOn e w with
      handed := w.handed + 1, stage := .delivered }.Booked := by
  obtain ⟨hout, hsch, hhand, hque, halarm⟩ := h
  simp only [Alarm, hst] at halarm
  constructor <;> simp_all [Stage.outcomes, Alarm, ConcurrentActor.matchOn]

lemma Booked.schedule (h : w.Booked) (hst : w.stage = .delivered) :
    { w with handed := w.handed - 1
             queued := w.queued + 1
             scheduled := w.scheduled + 1
             stage := .scheduled }.Booked := by
  obtain ⟨hout, hsch, hhand, hque, halarm⟩ := h
  simp only [Alarm, hst] at halarm
  constructor <;> simp_all [Stage.outcomes, Alarm]

lemma Booked.resume (h : w.Booked) (hst : w.stage = .scheduled) :
    { w with queued := w.queued - 1, stage := .done }.Booked := by
  obtain ⟨hout, hsch, hhand, hque, halarm⟩ := h
  simp only [Alarm, hst] at halarm
  constructor <;> simp_all [Stage.outcomes, Alarm]

/-- The callback of a receive that waits finds the flag set. -/
lemma Booked.claim (h : w.Booked) (hw : w.armed = true) (hactive : w.active = some true) :
    w.stage = .waiting ∧ { w with armed := false, stage := .claimed }.Booked := by
  obtain ⟨hout, hsch, hhand, hque, halarm⟩ := h
  have hst : w.stage = .waiting := by
    cases hst : w.stage <;> simp_all [Alarm]
  simp only [Alarm, hst] at halarm
  refine ⟨hst, ?_⟩
  constructor <;> simp_all [Stage.outcomes, Alarm]

/-- The callback finds the flag cleared after a delivery. -/
lemma Booked.skip (h : w.Booked) (hw : w.armed = true) (hactive : w.active ≠ some true) :
    w.stage ≠ .unused ∧ { w with armed := false }.Booked := by
  obtain ⟨hout, hsch, hhand, hque, halarm⟩ := h
  cases hst : w.stage <;> simp only [Alarm, hst] at halarm
  case delivered | scheduled | done =>
    refine ⟨by simp, ?_⟩
    constructor <;> simp_all [Stage.outcomes, Alarm]
  all_goals simp_all

lemma Booked.store (h : w.Booked) (hst : w.stage = .claimed) :
    { w with active := some false, stage := .cleared }.Booked := by
  obtain ⟨hout, hsch, hhand, hque, halarm⟩ := h
  simp only [Alarm, hst] at halarm
  constructor <;> simp_all [Stage.outcomes, Alarm]

lemma Booked.runTimeout (h : w.Booked) (hst : w.stage = .cleared) :
    { w with outcomes := w.outcomes ++ [Outcome.timeout], stage := .expired }.Booked := by
  obtain ⟨hout, hsch, hhand, hque, halarm⟩ := h
  simp only [Alarm, hst] at halarm
  constructor <;> simp_all [Stage.outcomes, Alarm]

lemma Booked.reset (h : w.Booked) (hst : w.stage = .expired) :
    { w with stage := .withdrawn }.Booked := by
  obtain ⟨hout, hsch, hhand, hque, halarm⟩ := h
  simp only [Alarm, hst] at halarm
  constructor <;> simp_all [Stage.outcomes, Alarm]

lemma Booked.scheduleTimeout (h : w.Booked) (hst : w.stage = .withdrawn) :
    { w with queued := w.queued + 1
             scheduled := w.scheduled + 1
             stage := .scheduled }.Booked := by
  obtain ⟨hout, hsch, hhand, hque, halarm⟩ := h
  simp only [Alarm, hst] at halarm
  constructor <;> simp_all [Stage.outcomes, Alarm]

end ReceiveAwaiter

end Concurrent

namespace ConcurrentActor

open Concurrent

variable {M : Type} {s t : ConcurrentActor M} {r x : ℕ}

/-! ### The condition -/

/-- The message is delivered to a pending receive whose timer is still to be armed, or whose
callback has found the flag set. -/
def interferes (s : ConcurrentActor M) (m : Message M) : Bool :=
  match s.pending with
  | none => false
  | some r =>
      (tryMatchMailbox (s.receives r).visitors (s.pushMessage m).mailbox).isSome &&
        ((s.receives r).suspension != .complete || s.timer.at r != .idle)

/-- The step is not such a delivery. -/
def Timely (s : ConcurrentActor M) : Label M → Prop
  | .send m => s.interferes (.user m) = false
  | .stop reason => s.interferes (.signal (.exit s.self reason)) = false
  | _ => True

instance (s : ConcurrentActor M) : ∀ l : Label M, Decidable (s.Timely l)
  | .send _ | .stop _ => inferInstanceAs (Decidable (_ = false))
  | .awaitReady .. | .install | .publish _ | .arm _ | .schedule _ | .resume _ | .fire _
  | .store | .runTimeout | .reset | .scheduleTimeout => inferInstanceAs (Decidable True)

/-! ### The invariant -/

/-- The state fits the stage of the receive. -/
structure Fits (s : ConcurrentActor M) (r : ℕ) : Prop where
  place : s.control.at r = (s.receives r).stage.place
  pending : (s.pending == some r) = (s.receives r).stage.pending
  callback : s.timer.at r = (s.receives r).stage.callback
  booked : (s.receives r).Booked

/-- Every receive fits, and those not yet created are unused. -/
structure Orderly (s : ConcurrentActor M) : Prop where
  fits : ∀ r, s.Fits r
  unused : ∀ r, s.nextReceive ≤ r → (s.receives r).stage = .unused

lemma Orderly.init (self : ActorRef) : ({ self := self } : ConcurrentActor M).Orderly where
  fits _ := ⟨rfl, rfl, rfl, ⟨rfl, rfl, rfl, rfl, rfl, rfl, rfl⟩⟩
  unused _ _ := rfl

/-- A receive that the step does not touch. -/
lemma Fits.of_frame (h : s.Fits x) (hreceive : t.receives x = s.receives x)
    (hplace : t.control.at x = s.control.at x)
    (hpending : (t.pending == some x) = (s.pending == some x))
    (hcallback : t.timer.at x = s.timer.at x) : t.Fits x := by
  constructor
  · rw [hplace, hreceive, h.place]
  · rw [hpending, hreceive, h.pending]
  · rw [hcallback, hreceive, h.callback]
  · rw [hreceive]
    exact h.booked

/-- One receive changes, and the others see no difference. -/
lemma Orderly.advance (h : s.Orderly)
    {f : Concurrent.ReceiveAwaiter M → Concurrent.ReceiveAwaiter M} {p : Option ℕ} {c : Control}
    {k : TimerThread} (hused : (s.receives r).stage ≠ .unused)
    (hothers : ∀ x, x ≠ r → c.at x = s.control.at x ∧
      (p == some x) = (s.pending == some x) ∧ k.at x = s.timer.at x)
    (hplace : c.at r = (f (s.receives r)).stage.place)
    (hpending : (p == some r) = (f (s.receives r)).stage.pending)
    (hcallback : k.at r = (f (s.receives r)).stage.callback)
    (hbooked : (f (s.receives r)).Booked) :
    { s.updateReceive r f with pending := p, control := c, timer := k }.Orderly := by
  constructor
  · intro x
    by_cases hx : x = r
    · rw [hx]
      constructor
      · simpa using hplace
      · simpa using hpending
      · simpa using hcallback
      · simpa using hbooked
    · obtain ⟨hplace', hpending', hcallback'⟩ := hothers x hx
      exact (h.fits x).of_frame (by simp [hx]) hplace' hpending' hcallback'
  · intro x hx
    have hstage := h.unused x hx
    have hne : x ≠ r := fun heq => hused (heq ▸ hstage)
    simpa [hne] using hstage

/-- The receive stays where it is. -/
lemma Orderly.amend (h : s.Orderly)
    {f : Concurrent.ReceiveAwaiter M → Concurrent.ReceiveAwaiter M}
    (hused : (s.receives r).stage ≠ .unused)
    (hplace : (f (s.receives r)).stage.place = (s.receives r).stage.place)
    (hpending : (f (s.receives r)).stage.pending = (s.receives r).stage.pending)
    (hcallback : (f (s.receives r)).stage.callback = (s.receives r).stage.callback)
    (hbooked : (f (s.receives r)).Booked) : (s.updateReceive r f).Orderly := by
  refine h.advance (r := r) hused (fun x _ => ⟨rfl, rfl, rfl⟩) ?_ ?_ ?_ hbooked
  · rw [hplace]
    exact (h.fits r).place
  · rw [hpending]
    exact (h.fits r).pending
  · rw [hcallback]
    exact (h.fits r).callback

lemma Orderly.of_mailbox (h : s.Orderly) {b : List (Envelope M)} {n : ℕ} :
    { s with mailbox := b, enqueued := n }.Orderly where
  fits r := ⟨(h.fits r).place, (h.fits r).pending, (h.fits r).callback, (h.fits r).booked⟩
  unused := h.unused

lemma Orderly.of_exitReason (h : s.Orderly) (reason : ExitReason) :
    { s with exitReason := some reason }.Orderly where
  fits r := ⟨(h.fits r).place, (h.fits r).pending, (h.fits r).callback, (h.fits r).booked⟩
  unused := h.unused

/-! ### The stage of a receive that a thread acts on -/

lemma Fits.stage_of_missed (h : s.Fits r) (hc : s.control = .missed r) :
    (s.receives r).stage = .missed := by
  have hplace := h.place
  rw [Control.at_eq_missed.mpr hc] at hplace
  cases hst : (s.receives r).stage <;> rw [hst] at hplace <;> simp_all [Stage.place]

/-- A pending receive is the one the coroutine is suspended in. -/
lemma Fits.control_of_pending (h : s.Fits r) (hp : s.pending = some r) :
    s.control = .suspended r := by
  have hpending := h.pending
  rw [hp, beq_self_eq_true] at hpending
  rw [← Control.at_eq_suspended, h.place]
  cases hst : (s.receives r).stage <;> rw [hst] at hpending <;>
    first | rfl | simp [Stage.pending] at hpending

/-- So is one in whose callback the timer thread is. -/
lemma Fits.control_of_callback (h : s.Fits r) (hcb : s.timer.at r ≠ .idle) :
    s.control = .suspended r := by
  rw [h.callback] at hcb
  rw [← Control.at_eq_suspended, h.place]
  cases hst : (s.receives r).stage <;> rw [hst] at hcb <;>
    first | rfl | simp [Stage.callback] at hcb

/-- A receive that is pending outside of its callback waits. -/
lemma Fits.stage_of_waiting (h : s.Fits r) (hp : s.pending = some r)
    (hcb : s.timer.at r = .idle) : (s.receives r).stage = .waiting := by
  have hpending := h.pending
  rw [hp, beq_self_eq_true] at hpending
  rw [h.callback] at hcb
  cases hst : (s.receives r).stage <;> rw [hst] at hpending hcb <;>
    simp [Stage.pending, Stage.callback] at hpending hcb ⊢

lemma Fits.stage_of_handed (h : s.Fits r) (hr : 0 < (s.receives r).handed) :
    (s.receives r).stage = .delivered := by
  by_contra hst
  rw [h.booked.handed, if_neg hst] at hr
  exact absurd hr (lt_irrefl 0)

lemma Fits.stage_of_queued (h : s.Fits r) (hr : 0 < (s.receives r).queued) :
    (s.receives r).stage = .scheduled := by
  by_contra hst
  rw [h.booked.queued, if_neg hst] at hr
  exact absurd hr (lt_irrefl 0)

/-! ### Steps -/

/-- Nothing is pending while the coroutine is not suspended. -/
lemma Orderly.pending_eq_none (h : s.Orderly) (hc : ∀ r, s.control ≠ .suspended r) :
    s.pending = none := by
  cases hp : s.pending with
  | none => rfl
  | some r => exact absurd ((h.fits r).control_of_pending hp) (hc r)

lemma Orderly.install (h : s.Orderly) (hc : s.control = .missed r) :
    (s.install r).Orderly := by
  have hst := (h.fits r).stage_of_missed hc
  have hnone : s.pending = none := h.pending_eq_none (by simp [hc])
  refine h.advance (r := r) (by simp [hst]) (fun x hx => ⟨?_, ?_, rfl⟩) ?_ ?_ ?_
    ((h.fits r).booked.install hst)
  · simp [hc, Control.at, hx.symm]
  · simp [hnone, hx.symm]
  · simp [Control.at, Stage.place]
  · simp [Stage.pending]
  · simpa [hst, Stage.callback] using (h.fits r).callback

lemma Orderly.publish (h : s.Orderly) (hr : (s.receives r).suspension = .publishing) :
    (s.publish r).Orderly := by
  obtain ⟨hst, hbooked⟩ := (h.fits r).booked.publish hr
  refine h.amend (by simp [hst]) rfl rfl rfl ?_
  exact hbooked

lemma Orderly.arm (h : s.Orderly) (hr : (s.receives r).suspension = .arming) :
    (s.arm r).Orderly := by
  obtain ⟨hused, hbooked⟩ := (h.fits r).booked.arm hr
  refine h.amend hused rfl rfl rfl ?_
  exact hbooked

lemma Orderly.scheduleHanded (h : s.Orderly) (hr : 0 < (s.receives r).handed) :
    (s.scheduleHanded r).Orderly := by
  have hst := (h.fits r).stage_of_handed hr
  rw [ConcurrentActor.scheduleHanded, schedule, updateReceive_updateReceive]
  refine h.amend (by simp [hst]) ?_ ?_ ?_ ?_
  · simp [hst, Stage.place]
  · simp [hst, Stage.pending]
  · simp [hst, Stage.callback]
  · exact (h.fits r).booked.schedule hst

lemma Orderly.resume (h : s.Orderly) (hc : s.control = .suspended x)
    (hr : 0 < (s.receives r).queued) : (s.resume r x).Orderly := by
  have hst := (h.fits r).stage_of_queued hr
  -- the handle is that of the receive the coroutine is suspended in
  have hsame : s.control = .suspended r := by
    rw [← Control.at_eq_suspended, (h.fits r).place, hst]
    rfl
  obtain rfl : x = r := by
    rw [hc] at hsame
    exact Control.suspended.inj hsame
  rw [ConcurrentActor.resume, updateReceive_updateReceive]
  refine h.advance (r := x) ?_ (fun y hy => ⟨?_, rfl, rfl⟩) ?_ ?_ ?_
    ((h.fits x).booked.resume hst)
  · simp [hst]
  · simp [hc, Control.at, hy.symm]
  · simp [Control.at, Stage.place]
  · simpa [hst, Stage.pending] using (h.fits x).pending
  · simpa [hst, Stage.callback] using (h.fits x).callback

lemma Orderly.fire (h : s.Orderly) (htimer : s.timer = .idle)
    (hr : (s.receives r).armed = true) : (s.fire r).Orderly := by
  rw [ConcurrentActor.fire]
  split
  · rename_i hactive
    obtain ⟨hst, hbooked⟩ := (h.fits r).booked.claim hr hactive
    refine h.advance (r := r) (by simp [hst]) (fun x hx => ⟨rfl, rfl, ?_⟩) ?_ ?_ ?_ hbooked
    · simp [htimer, TimerThread.at, hx.symm]
    · simpa [hst, Stage.place] using (h.fits r).place
    · simpa [hst, Stage.pending] using (h.fits r).pending
    · simp [TimerThread.at, Stage.callback]
  · rename_i hactive
    obtain ⟨hused, hbooked⟩ := (h.fits r).booked.skip hr hactive
    refine h.amend hused rfl rfl rfl ?_
    exact hbooked

lemma Orderly.store (h : s.Orderly) (htimer : s.timer = .loaded r) : (s.store r).Orderly := by
  have hst : (s.receives r).stage = .claimed := by
    rw [← Stage.callback_eq_loaded, ← (h.fits r).callback]
    simp [htimer, TimerThread.at]
  refine h.advance (r := r) (by simp [hst]) (fun x hx => ⟨rfl, rfl, ?_⟩) ?_ ?_ ?_
    ((h.fits r).booked.store hst)
  · simp [htimer, TimerThread.at, hx.symm]
  · simpa [hst, Stage.place] using (h.fits r).place
  · simpa [hst, Stage.pending] using (h.fits r).pending
  · simp [TimerThread.at, Stage.callback]

lemma Orderly.runTimeout (h : s.Orderly) (htimer : s.timer = .stored r) :
    (s.runTimeout r).Orderly := by
  have hst : (s.receives r).stage = .cleared := by
    rw [← Stage.callback_eq_stored, ← (h.fits r).callback]
    simp [htimer, TimerThread.at]
  refine h.advance (r := r) (by simp [hst]) (fun x hx => ⟨rfl, rfl, ?_⟩) ?_ ?_ ?_
    ((h.fits r).booked.runTimeout hst)
  · simp [htimer, TimerThread.at, hx.symm]
  · simpa [hst, Stage.place] using (h.fits r).place
  · simpa [hst, Stage.pending] using (h.fits r).pending
  · simp [TimerThread.at, Stage.callback]

/-- The timeout visitor has run: `pending_` still holds the receive. -/
lemma Orderly.pending_of_visited (h : s.Orderly) (htimer : s.timer = .visited r) :
    (s.receives r).stage = .expired ∧ s.pending = some r := by
  have hst : (s.receives r).stage = .expired := by
    rw [← Stage.callback_eq_visited, ← (h.fits r).callback]
    simp [htimer, TimerThread.at]
  refine ⟨hst, ?_⟩
  have hpending := (h.fits r).pending
  rw [hst] at hpending
  simpa [Stage.pending] using hpending

lemma Orderly.reset (h : s.Orderly) (htimer : s.timer = .visited r) : (s.reset r).Orderly := by
  obtain ⟨hst, hp⟩ := h.pending_of_visited htimer
  refine h.advance (r := r) (by simp [hst]) (fun x hx => ⟨rfl, ?_, ?_⟩) ?_ ?_ ?_
    ((h.fits r).booked.reset hst)
  · simp [hp, hx.symm]
  · simp [htimer, TimerThread.at, hx.symm]
  · simpa [hst, Stage.place] using (h.fits r).place
  · simp [Stage.pending]
  · simp [TimerThread.at, Stage.callback]

lemma Orderly.scheduleTimeout (h : s.Orderly) (htimer : s.timer = .withdrawn r) :
    (s.scheduleTimeout r).Orderly := by
  have hst : (s.receives r).stage = .withdrawn := by
    rw [← Stage.callback_eq_withdrawn, ← (h.fits r).callback]
    simp [htimer, TimerThread.at]
  refine h.advance (r := r) (by simp [hst]) (fun x hx => ⟨rfl, rfl, ?_⟩) ?_ ?_ ?_
    ((h.fits r).booked.scheduleTimeout hst)
  · simp [htimer, TimerThread.at, hx.symm]
  · simpa [hst, Stage.place, schedule] using (h.fits r).place
  · simpa [hst, Stage.pending, schedule] using (h.fits r).pending
  · simp [TimerThread.at, Stage.callback]

/-- A new receive. -/
lemma Orderly.create (h : s.Orderly) (hc : s.control = .running) {b : List (Envelope M)}
    {w : Concurrent.ReceiveAwaiter M} {c : Control} (hbooked : w.Booked)
    (hnew : w.stage = .matched ∧ c = .running ∨
      w.stage = .missed ∧ c = .missed s.nextReceive) :
    { s with
      mailbox := b
      receives := Function.update s.receives s.nextReceive w
      nextReceive := s.nextReceive + 1
      control := c }.Orderly := by
  have hst := h.unused s.nextReceive le_rfl
  constructor
  · intro x
    by_cases hx : x = s.nextReceive
    · subst hx
      have hpending := (h.fits s.nextReceive).pending
      have hcallback := (h.fits s.nextReceive).callback
      rw [hst] at hpending hcallback
      rcases hnew with ⟨hw, rfl⟩ | ⟨hw, rfl⟩
      · exact ⟨by simp [hw, Control.at, Stage.place], by simpa [hw, Stage.pending] using hpending,
          by simpa [hw, Stage.callback] using hcallback, by simpa using hbooked⟩
      · exact ⟨by simp [hw, Control.at, Stage.place], by simpa [hw, Stage.pending] using hpending,
          by simpa [hw, Stage.callback] using hcallback, by simpa using hbooked⟩
    · refine (h.fits x).of_frame (by simp [hx]) ?_ rfl rfl
      rcases hnew with ⟨-, rfl⟩ | ⟨-, rfl⟩
      · simp [hc]
      · simp [hc, Control.at, Ne.symm hx]
  · intro x hx
    have hne : x ≠ s.nextReceive := (Nat.lt_of_succ_le hx).ne'
    simpa [hne] using h.unused x (Nat.le_of_succ_le hx)

lemma Orderly.awaitReady (h : s.Orderly) (hc : s.control = .running)
    (visitors : List (Visitor M)) (timed : Bool) : (s.awaitReady visitors timed).Orderly := by
  rw [ConcurrentActor.awaitReady]
  dsimp only
  split
  · rename_i v hv
    obtain ⟨position, e, -, -, rfl⟩ := tryMatch_eq_some hv
    have := h.create hc (b := s.mailbox.eraseIdx position) (c := .running)
      (w := { matchOn e { visitors := visitors, timed := timed } with stage := .matched }) ?_
      (.inl ⟨rfl, rfl⟩)
    · simpa [ConcurrentActor.updateReceive, hc] using this
    · exact ⟨by simp [matchOn, Stage.outcomes], by simp [matchOn], by simp [matchOn],
        by simp [matchOn], by simp [matchOn, ReceiveAwaiter.Alarm]⟩
  · have := h.create hc (b := s.mailbox) (c := .missed s.nextReceive)
      (w := { visitors := visitors, timed := timed, stage := .missed }) ?_ (.inr ⟨rfl, rfl⟩)
    · simpa [ConcurrentActor.updateReceive] using this
    · exact ⟨by simp [Stage.outcomes], by simp, by simp, by simp,
        by simp [ReceiveAwaiter.Alarm]⟩

/-- A message that does not interfere with a timeout. -/
lemma Orderly.enqueueMessage (h : s.Orderly) {m : Message M} (hm : s.interferes m = false) :
    (s.enqueueMessage m).Orderly := by
  rcases s.enqueueMessage_cases m with heq | ⟨r, position, e, hp, hfound, heq⟩
  · rw [heq]
    exact h.of_mailbox
  · have hquiet : (s.receives r).suspension = .complete ∧ s.timer.at r = .idle := by
      simpa [interferes, hp, hfound] using hm
    have hst := (h.fits r).stage_of_waiting hp hquiet.2
    have hnext := h.advance (r := r) (p := none) (c := s.control) (k := s.timer)
      (f := fun w => { matchOn e w with handed := w.handed + 1, stage := .delivered })
      (by simp [hst]) (fun x hx => ⟨rfl, by simp [hp, hx.symm], rfl⟩) ?_ rfl ?_
      ((h.fits r).booked.deliver hst (by simp [hquiet.1]) e)
    · rw [heq]
      exact hnext.of_mailbox
    · simpa [hst, Stage.place] using (h.fits r).place
    · simpa [hst, Stage.callback] using (h.fits r).callback

/-- Every timely step keeps the invariant. -/
lemma Orderly.step (h : s.Orderly) {l : Label M} (hok : s.Timely l)
    (hstep : s.step l = some t) : t.Orderly := by
  cases step_cases hstep with
  | awaitReady visitors timed hc => exact h.awaitReady hc visitors timed
  | install r hc => exact h.install hc
  | publish r hr => exact h.publish hr
  | arm r hr => exact h.arm hr
  | send m => exact h.enqueueMessage hok
  | stop reason => exact (h.of_exitReason reason).enqueueMessage hok
  | schedule r hr => exact h.scheduleHanded hr
  | resume r x hc hr => exact h.resume hc hr
  | fire r htimer hr => exact h.fire htimer hr
  | store r htimer => exact h.store htimer
  | runTimeout r htimer => exact h.runTimeout htimer
  | reset r htimer => exact h.reset htimer
  | scheduleTimeout r htimer => exact h.scheduleTimeout htimer

/-! ### Two outcomes -/

/-- The run can go on so that the receive has two outcomes and is scheduled twice. -/
def Doubles (s : ConcurrentActor M) (r : ℕ) : Prop :=
  ∃ labels t, run step s labels = some t ∧ 2 ≤ (t.receives r).outcomes.length ∧
    2 ≤ (t.receives r).scheduled

lemma Doubles.of_step {l : Label M} (hstep : s.step l = some t) (h : t.Doubles r) :
    s.Doubles r := by
  obtain ⟨labels, u, hrun, htwo⟩ := h
  exact ⟨l :: labels, u, by rw [run_cons, hstep]; exact hrun, htwo⟩

/-- The callback has reset `pending_`, and a sender has the handle too. -/
lemma doubles_of_withdrawn (htimer : s.timer = .withdrawn r)
    (hhanded : 0 < (s.receives r).handed) (hout : 2 ≤ (s.receives r).outcomes.length) :
    s.Doubles r := by
  refine Doubles.of_step (l := .scheduleTimeout) (t := s.scheduleTimeout r)
    (by simp [ConcurrentActor.step, htimer]) ?_
  refine Doubles.of_step (l := .schedule r) (t := (s.scheduleTimeout r).scheduleHanded r) ?_ ?_
  · simp [ConcurrentActor.step, ConcurrentActor.scheduleTimeout, ConcurrentActor.schedule, hhanded]
  · refine ⟨[], _, rfl, ?_, ?_⟩
    · simpa [ConcurrentActor.scheduleHanded, ConcurrentActor.scheduleTimeout,
        ConcurrentActor.schedule] using hout
    · simp [ConcurrentActor.scheduleHanded, ConcurrentActor.scheduleTimeout,
        ConcurrentActor.schedule]

lemma doubles_of_visited (htimer : s.timer = .visited r)
    (hhanded : 0 < (s.receives r).handed) (hout : 2 ≤ (s.receives r).outcomes.length) :
    s.Doubles r := by
  refine Doubles.of_step (l := .reset) (t := s.reset r)
    (by simp [ConcurrentActor.step, htimer]) ?_
  exact doubles_of_withdrawn rfl (by simpa [ConcurrentActor.reset] using hhanded)
    (by simpa [ConcurrentActor.reset] using hout)

lemma doubles_of_stored (htimer : s.timer = .stored r)
    (hhanded : 0 < (s.receives r).handed) (hout : 1 ≤ (s.receives r).outcomes.length) :
    s.Doubles r := by
  refine Doubles.of_step (l := .runTimeout) (t := s.runTimeout r)
    (by simp [ConcurrentActor.step, htimer]) ?_
  exact doubles_of_visited rfl (by simpa [ConcurrentActor.runTimeout] using hhanded)
    (by simpa [ConcurrentActor.runTimeout] using hout)

lemma doubles_of_loaded (htimer : s.timer = .loaded r)
    (hhanded : 0 < (s.receives r).handed) (hout : 1 ≤ (s.receives r).outcomes.length) :
    s.Doubles r := by
  refine Doubles.of_step (l := .store) (t := s.store r)
    (by simp [ConcurrentActor.step, htimer]) ?_
  exact doubles_of_stored rfl (by simpa [ConcurrentActor.store] using hhanded)
    (by simpa [ConcurrentActor.store] using hout)

/-- The flag is created only after the delivery. -/
lemma doubles_of_publishing (htimer : s.timer = .idle)
    (hr : (s.receives r).suspension = .publishing) (hhanded : 0 < (s.receives r).handed)
    (hout : 1 ≤ (s.receives r).outcomes.length) : s.Doubles r := by
  refine Doubles.of_step (l := .publish r) (t := s.publish r)
    (by simp [ConcurrentActor.step, hr]) ?_
  refine Doubles.of_step (l := .arm r) (t := (s.publish r).arm r)
    (by simp [ConcurrentActor.step, ConcurrentActor.publish]) ?_
  refine Doubles.of_step (l := .fire r) (t := ((s.publish r).arm r).fire r)
    (by simp [ConcurrentActor.step, ConcurrentActor.publish, ConcurrentActor.arm, htimer]) ?_
  have hactive : (((s.publish r).arm r).receives r).active = some true := by
    simp [ConcurrentActor.publish, ConcurrentActor.arm]
  rw [ConcurrentActor.fire, if_pos hactive]
  exact doubles_of_loaded rfl
    (by simpa [ConcurrentActor.publish, ConcurrentActor.arm] using hhanded)
    (by simpa [ConcurrentActor.publish, ConcurrentActor.arm] using hout)

/-- The timer thread is in no other callback than that of the pending receive. -/
lemma Orderly.timer_eq_idle (h : s.Orderly) (hp : s.pending = some r)
    (hcb : s.timer.at r = .idle) : s.timer = .idle := by
  have hc := (h.fits r).control_of_pending hp
  have hsame : ∀ x, s.timer.at x ≠ .idle → x = r := by
    intro x hx
    have hx' := (h.fits x).control_of_callback hx
    rw [hc] at hx'
    exact (Control.suspended.inj hx').symm
  cases htimer : s.timer with
  | idle => rfl
  | loaded x | stored x | visited x | withdrawn x =>
      have hx := hsame x (by simp [htimer, TimerThread.at])
      simp [htimer, TimerThread.at, hx] at hcb

/-- The run can go on so that the receive is over and its `await_suspend` is not, which then reads
members of an awaiter that is gone. -/
def Outlived (s : ConcurrentActor M) (r : ℕ) : Prop :=
  ∃ labels t, run step s labels = some t ∧ (t.receives r).stage = .done ∧
    (t.receives r).suspension ≠ .complete

/-- A worker takes the handle before the timer is armed. -/
lemma outlived_of_handed (hc : s.control = .suspended r) (hhanded : 0 < (s.receives r).handed)
    (hsus : (s.receives r).suspension ≠ .complete) : s.Outlived r := by
  refine ⟨[.schedule r, .resume r], (s.scheduleHanded r).resume r r, ?_, ?_, ?_⟩
  · have hcontrol : (s.scheduleHanded r).control = .suspended r := hc
    have hqueued : 0 < ((s.scheduleHanded r).receives r).queued := by
      simp [ConcurrentActor.scheduleHanded, ConcurrentActor.schedule]
    simp [run_cons, ConcurrentActor.step, hhanded, hcontrol, hqueued]
  · simp [ConcurrentActor.resume]
  · simpa [ConcurrentActor.resume, ConcurrentActor.scheduleHanded, ConcurrentActor.schedule]
      using hsus

/-- A message that interferes with a timeout is delivered, and the callback or `await_suspend`
goes on. -/
lemma Orderly.ends_of_interferes (h : s.Orderly) {m : Message M} (hm : s.interferes m = true) :
    ∃ r, (s.enqueueMessage m).Doubles r ∨ (s.enqueueMessage m).Outlived r := by
  obtain ⟨r, hp⟩ : ∃ r, s.pending = some r := by
    cases hp : s.pending with
    | none => simp [interferes, hp] at hm
    | some r => exact ⟨r, rfl⟩
  simp only [interferes, hp, Bool.and_eq_true, Bool.or_eq_true, bne_iff_ne] at hm
  obtain ⟨hfound, hwindow⟩ := hm
  refine ⟨r, ?_⟩
  rcases s.enqueueMessage_cases m with heq | ⟨x, position, e, hx, -, heq⟩
  · exact absurd heq (enqueueMessage_ne_pushMessage hp hfound)
  obtain rfl : r = x := by
    rw [hp] at hx
    exact Option.some.inj hx
  rw [heq]
  by_cases hcb : s.timer.at r = .idle
  · have htimer := h.timer_eq_idle hp hcb
    have hsus := hwindow.resolve_right (not_not.mpr hcb)
    by_cases hpublishing : (s.receives r).suspension = .publishing
    · refine .inl (doubles_of_publishing htimer ?_ ?_ ?_)
      · simpa [matchOn] using hpublishing
      · simp
      · simp [matchOn]
    · refine .inr (outlived_of_handed ((h.fits r).control_of_pending hp) ?_ ?_)
      · simp
      · simpa [matchOn] using hsus
  · left
    cases htimer : s.timer with
    | idle => exact absurd (by rw [htimer]; rfl) hcb
    | loaded x =>
        obtain rfl : x = r := by simpa [htimer, TimerThread.at] using hcb
        exact doubles_of_loaded htimer (by simp) (by simp [matchOn])
    | stored x =>
        obtain rfl : x = r := by simpa [htimer, TimerThread.at] using hcb
        exact doubles_of_stored htimer (by simp) (by simp [matchOn])
    | visited x =>
        obtain rfl : x = r := by simpa [htimer, TimerThread.at] using hcb
        have hout := (h.fits x).booked.outcomes
        rw [(h.pending_of_visited htimer).1] at hout
        exact doubles_of_visited htimer (by simp) (by simp [matchOn, hout, Stage.outcomes])
    | withdrawn x =>
        obtain rfl : x = r := by simpa [htimer, TimerThread.at] using hcb
        have hst : (s.receives x).stage = .withdrawn := by
          rw [← Stage.callback_eq_withdrawn, ← (h.fits x).callback]
          simp [htimer, TimerThread.at]
        have hpending := (h.fits x).pending
        simp [hst, hp, Stage.pending] at hpending

/-! ### The outcome -/

/-- No thread has anything left to do for the receive but to resume it. -/
def Settled (s : ConcurrentActor M) (r : ℕ) : Prop :=
  (s.receives r).suspension = .complete ∧ (s.receives r).armed = false ∧
    (s.receives r).handed = 0 ∧ s.timer.at r = .idle

/-- What threads do for a receive before it is resumed. -/
def work (r : ℕ) : List (Label M) :=
  [.publish r, .arm r, .schedule r, .fire r, .store, .runTimeout, .reset, .scheduleTimeout]

/-- The receive has one outcome. -/
structure OneOutcome (s : ConcurrentActor M) (r : ℕ) : Prop where
  scheduled_le : (s.receives r).scheduled ≤ 1
  outcomes_le : (s.receives r).outcomes.length ≤ 1
  resumed : (s.receives r).stage = .done →
    (s.receives r).scheduled = 1 ∧ (s.receives r).outcomes.length = 1
  /-- Some thread goes on until the receive is settled. -/
  progress : ¬ s.Settled r → ∃ l ∈ work r, (s.step l).isSome = true
  settled : (s.receives r).stage.slept = true → (s.receives r).timed = true → s.Settled r →
    (s.receives r).scheduled = 1 ∧ (s.receives r).outcomes.length = 1
  /-- What the callback is about to reset is its own. -/
  own : s.timer = .visited r → s.pending = some r

/-- A callback that has begun goes on. -/
lemma exists_work_of_timer (htimer : s.timer ≠ .idle) :
    ∃ l ∈ work r, (s.step l).isSome = true := by
  cases hk : s.timer with
  | idle => exact absurd hk htimer
  | loaded x => exact ⟨.store, by simp [work], by simp [ConcurrentActor.step, hk]⟩
  | stored x => exact ⟨.runTimeout, by simp [work], by simp [ConcurrentActor.step, hk]⟩
  | visited x => exact ⟨.reset, by simp [work], by simp [ConcurrentActor.step, hk]⟩
  | withdrawn x => exact ⟨.scheduleTimeout, by simp [work], by simp [ConcurrentActor.step, hk]⟩

lemma exists_work (hr : ¬ s.Settled r) : ∃ l ∈ work r, (s.step l).isSome = true := by
  by_cases htimer : s.timer = .idle
  · cases hsus : (s.receives r).suspension with
    | publishing => exact ⟨.publish r, by simp [work], by simp [ConcurrentActor.step, hsus]⟩
    | arming => exact ⟨.arm r, by simp [work], by simp [ConcurrentActor.step, hsus]⟩
    | complete =>
        by_cases harmed : (s.receives r).armed = true
        · exact ⟨.fire r, by simp [work], by simp [ConcurrentActor.step, htimer, harmed]⟩
        · have hhanded : 0 < (s.receives r).handed := by
            by_contra hzero
            exact hr ⟨hsus, by simpa using harmed, by omega, by rw [htimer]; rfl⟩
          exact ⟨.schedule r, by simp [work], by simp [ConcurrentActor.step, hhanded]⟩
  · exact exists_work_of_timer htimer

/-- A timed receive that sleeps with nothing left to be done has been scheduled. -/
lemma Fits.scheduled_of_settled (h : s.Fits r) (hslept : (s.receives r).stage.slept = true)
    (htimed : (s.receives r).timed = true) (hset : s.Settled r) :
    (s.receives r).stage = .scheduled ∨ (s.receives r).stage = .done := by
  obtain ⟨hsus, harmed, hhanded, hcb⟩ := hset
  have halarm := h.booked.alarm
  have hbook := h.booked.handed
  rw [h.callback] at hcb
  cases hst : (s.receives r).stage <;>
    simp_all [Stage.slept, Stage.callback, ReceiveAwaiter.Alarm]

lemma Orderly.oneOutcome (h : s.Orderly) (r : ℕ) : s.OneOutcome r := by
  have hb := (h.fits r).booked
  have hdone : (s.receives r).stage = .scheduled ∨ (s.receives r).stage = .done →
      (s.receives r).scheduled = 1 ∧ (s.receives r).outcomes.length = 1 := by
    intro hst
    refine ⟨by rw [hb.scheduled, if_pos hst], ?_⟩
    rw [hb.outcomes]
    rcases hst with hst | hst <;> rw [hst] <;> rfl
  constructor
  · rw [hb.scheduled]
    split <;> omega
  · rw [hb.outcomes]
    cases (s.receives r).stage <;> simp [Stage.outcomes]
  · exact fun hst => hdone (.inr hst)
  · exact exists_work
  · exact fun hslept htimed hset => hdone ((h.fits r).scheduled_of_settled hslept htimed hset)
  · exact fun htimer => (h.pending_of_visited htimer).2

/-- **A timed receive has one outcome**: in every state of a run in which no message is
delivered to a receive whose timer is still to be armed, or whose callback has found the flag
set, each receive is scheduled once, has one result, and its callback resets no other receive.
Each delivery that breaks the condition can end in two results and two resumptions, or in a
receive that is over while its `await_suspend` goes on. -/
theorem concurrent_receive_one_outcome (self : ActorRef) (labels : List (Label M))
    (s : ConcurrentActor M) (hrun : run step { self := self } labels = some s)
    (hok : AllSteps step Timely { self := self } labels) :
    (∀ r, s.OneOutcome r) ∧
      ∀ l t, s.step l = some t → ¬ s.Timely l → ∃ r, t.Doubles r ∨ t.Outlived r := by
  have h : s.Orderly :=
    invariant (fun _ _ _ hs hl hst => Orderly.step hs hl hst) (Orderly.init self) hok hrun
  refine ⟨h.oneOutcome, fun l t hst hl => ?_⟩
  cases step_cases hst with
  | send m => exact h.ends_of_interferes (by simpa [Timely] using hl)
  | stop reason =>
      have hm : s.interferes (.signal (.exit s.self reason)) = true := by
        simpa [Timely] using hl
      exact (h.of_exitReason reason).ends_of_interferes hm
  | _ => exact absurd trivial hl

/-- A timed receive that times out, and one that gets its message. -/
def raceLabels : List (Label ℕ) :=
  [.awaitReady [fun _ => true] true, .install, .publish 0, .arm 0, .fire 0, .store, .runTimeout,
    .reset, .send 3, .scheduleTimeout, .resume 0, .awaitReady [fun _ => true] true,
    .awaitReady [fun _ => true] true, .install, .publish 2, .arm 2, .send 4, .schedule 2,
    .resume 2, .fire 2]

/-- Of two timed receives, one is ended by the timeout and one by a message. -/
theorem concurrent_receive_one_outcome_timeoutAndMessage :
    (∀ r, (reached step { self := 1 } raceLabels).OneOutcome r) ∧
      ((reached step { self := 1 } raceLabels).receives 0).stage = .done ∧
      ((reached step { self := 1 } raceLabels).receives 2).stage = .done :=
  ⟨(concurrent_receive_one_outcome 1 raceLabels _ (run_eq_reached (by decide +kernel))
    (by decide +kernel)).1, by decide +kernel, by decide +kernel⟩

/-- The message is delivered before the flag is created. -/
def unpublishedLabels : List (Label ℕ) :=
  [.awaitReady [fun _ => true] true, .install, .send 3, .schedule 0, .publish 0, .arm 0, .fire 0,
    .store, .runTimeout, .reset, .scheduleTimeout]

/-- The message is delivered after the callback has found the flag set, and the next receive is
pending when the callback goes on. -/
def claimedLabels : List (Label ℕ) :=
  [.awaitReady [fun _ => true] true, .install, .publish 0, .arm 0, .fire 0, .send 3, .schedule 0,
    .resume 0, .awaitReady [fun _ => true] true, .install, .store, .runTimeout]

/-- In both runs the two visitors are run for one receive; in the first one the coroutine is
scheduled twice, in the second one the next receive is pending. -/
theorem timeout_after_delivery :
    (∃ s, run step ({ self := 1 } : ConcurrentActor ℕ) unpublishedLabels = some s ∧
      (s.receives 0).scheduled = 2 ∧ (s.receives 0).outcomes.length = 2) ∧
    ∃ s, run step ({ self := 1 } : ConcurrentActor ℕ) claimedLabels = some s ∧
      (s.receives 0).outcomes.length = 2 ∧ s.timer = .visited 0 ∧ s.pending = some 1 :=
  ⟨⟨_, run_eq_reached (by decide +kernel), by decide +kernel, by decide +kernel⟩,
    _, run_eq_reached (by decide +kernel), by decide +kernel, by decide +kernel,
    by decide +kernel⟩

end ConcurrentActor

end Agner
