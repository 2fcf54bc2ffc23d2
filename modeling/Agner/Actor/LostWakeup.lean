import Agner.Actor.Concurrent

/-!
Wake-ups on the multi-threaded scheduler.

The search of `await_ready` and the installation of `pending_` are two guarded sections, and
`await_suspend` does not search again.

* `NoLostWakeup`: a pending receive accepts no message of the mailbox.
* `Unmissed`: the condition on steps. A message that arrives between the two sections of a
  receive is not one that the receive accepts.
* `Awake`: the invariant of the runs all of whose steps are unmissed.
* `no_lost_wakeup`: in every state of such a run no wake-up is lost; a message that breaks the
  condition is left in the mailbox when the receive goes to sleep.
-/

namespace Agner.ConcurrentActor

open Runs Concurrent

variable {M : Type} {s t : ConcurrentActor M}

/-- No visitor of the receive accepts a message of the mailbox. -/
def Unmatched (s : ConcurrentActor M) (r : ℕ) : Prop :=
  ∀ e ∈ s.mailbox, tryMatchVisitors (s.receives r).visitors e.body = false

instance (s : ConcurrentActor M) (r : ℕ) : Decidable (s.Unmatched r) :=
  inferInstanceAs (Decidable (∀ e ∈ s.mailbox, _))

/-- A pending receive accepts no message of the mailbox. -/
def NoLostWakeup (s : ConcurrentActor M) : Prop := ∀ r, s.pending = some r → s.Unmatched r

/-- The message arrives between the search and the installation of a receive that accepts
it. -/
def misses (s : ConcurrentActor M) (m : Message M) : Bool :=
  match s.control with
  | .missed r => tryMatchVisitors (s.receives r).visitors m
  | _ => false

/-- The step is not the arrival of a message that a receive misses. -/
def Unmissed (s : ConcurrentActor M) : Label M → Prop
  | .send m => s.misses (.user m) = false
  | .stop reason => s.misses (.signal (.exit s.self reason)) = false
  | _ => True

instance (s : ConcurrentActor M) : ∀ l : Label M, Decidable (s.Unmissed l)
  | .send _ | .stop _ => inferInstanceAs (Decidable (_ = false))
  | .awaitReady .. | .install | .publish _ | .arm _ | .schedule _ | .resume _ | .fire _
  | .store | .runTimeout | .reset | .scheduleTimeout => inferInstanceAs (Decidable True)

/-- No wake-up is lost, and none is about to be. -/
structure Awake (s : ConcurrentActor M) : Prop where
  pending : ∀ r, s.pending = some r → r < s.nextReceive ∧ s.Unmatched r
  missed : ∀ r, s.control = .missed r → r < s.nextReceive ∧ s.Unmatched r

/-! ### Steps that add no message -/

/-- Nothing is added to the mailbox, and no receive becomes pending or misses. -/
lemma Awake.of_frame (h : s.Awake) (hbox : t.mailbox ⊆ s.mailbox)
    (hpending : ∀ r, t.pending = some r → s.pending = some r)
    (hmissed : ∀ r, t.control = .missed r → s.control = .missed r)
    (hnext : s.nextReceive ≤ t.nextReceive)
    (hvisitors : ∀ r < s.nextReceive, (t.receives r).visitors = (s.receives r).visitors) :
    t.Awake := by
  have hkeep : ∀ r, r < s.nextReceive ∧ s.Unmatched r → r < t.nextReceive ∧ t.Unmatched r := by
    rintro r ⟨hlt, hun⟩
    refine ⟨lt_of_lt_of_le hlt hnext, fun e he => ?_⟩
    rw [hvisitors r hlt]
    exact hun e (hbox he)
  exact ⟨fun r hr => hkeep r (h.pending r (hpending r hr)),
    fun r hr => hkeep r (h.missed r (hmissed r hr))⟩

/-- Assignments to members of an awaiter other than its visitors. -/
lemma Awake.updateReceive (h : s.Awake) {r : ℕ}
    {f : Concurrent.ReceiveAwaiter M → Concurrent.ReceiveAwaiter M}
    (hf : ∀ w, (f w).visitors = w.visitors) : (s.updateReceive r f).Awake := by
  refine h.of_frame (List.Subset.refl _) (fun _ => id) (fun _ => id) le_rfl fun x _ => ?_
  by_cases hx : x = r
  · simp [hx, hf]
  · simp [hx]

lemma Awake.schedule (h : s.Awake) {r : ℕ} : (s.schedule r).Awake := h.updateReceive (by simp)

/-- The timer thread moves on. -/
lemma Awake.of_timer (h : s.Awake) {timer : TimerThread} : { s with timer := timer }.Awake :=
  ⟨h.pending, h.missed⟩

/-- A match takes a message out of the mailbox. -/
lemma Awake.tryMatch (h : s.Awake) {r : ℕ} (ht : s.tryMatch r = some t) : t.Awake := by
  obtain ⟨position, e, -, -, rfl⟩ := tryMatch_eq_some ht
  refine (h.updateReceive (r := r) (f := matchOn e) fun _ => rfl).of_frame
    (List.eraseIdx_subset) (fun _ => id) (fun _ => id) le_rfl fun _ _ => rfl

/-! ### Receives -/

/-- `await_ready` misses only when no message is accepted. -/
lemma Awake.awaitReady (h : s.Awake) (visitors : List (Visitor M)) (timed : Bool) :
    (s.awaitReady visitors timed).Awake := by
  rw [ConcurrentActor.awaitReady]
  set u : ConcurrentActor M := { s.updateReceive s.nextReceive
    fun _ => { visitors := visitors, timed := timed } with nextReceive := s.nextReceive + 1 }
    with hu
  have hawake : u.Awake := by
    refine h.of_frame (List.Subset.refl _) (fun _ => id) (fun _ => id) (Nat.le_succ _)
      fun r hr => ?_
    simp [hu, hr.ne]
  cases hm : u.tryMatch s.nextReceive with
  | some v => exact (hawake.tryMatch hm).updateReceive fun _ => rfl
  | none =>
      have hmiss : u.Unmatched s.nextReceive := tryMatch_eq_none.mp hm
      have hset := hawake.updateReceive (r := s.nextReceive)
        (f := fun w => { w with stage := .missed }) fun _ => rfl
      refine ⟨hset.pending, fun r hr => ?_⟩
      obtain rfl : s.nextReceive = r := by simpa using hr
      exact ⟨by simp [hu], fun e he => by simpa using hmiss e he⟩

/-- A receive that missed no message may become pending. -/
lemma Awake.install (h : s.Awake) {r : ℕ} (hmissed : s.control = .missed r) :
    (s.install r).Awake := by
  obtain ⟨hlt, hun⟩ := h.missed r hmissed
  refine ⟨fun x hx => ?_, fun x hx => absurd hx (by simp [ConcurrentActor.install])⟩
  obtain rfl : r = x := by simpa [ConcurrentActor.install] using hx
  exact ⟨hlt, fun e he => by simpa [ConcurrentActor.install] using hun e he⟩

/-! ### Messages -/

/-- The waiter takes a message it accepts, and stays pending if there is none. -/
lemma Awake.notifyWaiterLocked (hpending : ∀ r, s.pending = some r → r < s.nextReceive)
    (hmissed : ∀ r, s.control = .missed r → r < s.nextReceive ∧ s.Unmatched r) :
    s.notifyWaiterLocked.Awake := by
  rw [ConcurrentActor.notifyWaiterLocked]
  cases hp : s.pending with
  | none => exact ⟨fun r hr => absurd hr (by simp [hp]), hmissed⟩
  | some r =>
      have hreset : { s with pending := none }.Awake :=
        ⟨fun r hr => absurd hr (by simp), hmissed⟩
      dsimp only
      cases hm : { s with pending := none }.tryMatch r with
      | some v => exact (hreset.tryMatch hm).updateReceive fun _ => rfl
      | none =>
          have hun : s.Unmatched r := tryMatch_eq_none (s := { s with pending := none }).mp hm
          refine ⟨fun x hx => ?_, hmissed⟩
          obtain rfl : r = x := by simpa [hp] using hx
          exact ⟨hpending r hp, hun⟩

/-- A message that no receive misses. -/
lemma Awake.enqueueMessage (h : s.Awake) {m : Message M}
    (hm : s.misses m = false) : (s.enqueueMessage m).Awake := by
  refine Awake.notifyWaiterLocked (fun r hr => (h.pending r hr).1) fun r hr => ?_
  obtain ⟨hlt, hun⟩ := h.missed r hr
  refine ⟨hlt, fun e he => ?_⟩
  rcases List.mem_append.mp he with he | he
  · exact hun e he
  · obtain rfl := List.mem_singleton.mp he
    simpa [misses, pushMessage, show s.control = .missed r from hr] using hm

/-! ### Runs -/

lemma Awake.init (self : ActorRef) : ({ self := self } : ConcurrentActor M).Awake :=
  ⟨fun _ hr => absurd hr (by simp), fun _ hr => absurd hr (by simp)⟩

/-- Every unmissed step keeps the invariant. -/
lemma Awake.step (h : s.Awake) {l : Label M} (hok : s.Unmissed l)
    (hstep : s.step l = some t) : t.Awake := by
  cases step_cases hstep with
  | awaitReady visitors timed => exact h.awaitReady visitors timed
  | install r hc => exact h.install hc
  | send m => exact h.enqueueMessage hok
  | stop reason =>
      have hexit : { s with exitReason := some reason }.Awake := ⟨h.pending, h.missed⟩
      exact hexit.enqueueMessage hok
  | publish r | arm r => exact h.updateReceive (by simp)
  | schedule r =>
      have hhanded := h.updateReceive (r := r)
        (f := fun w => { w with handed := w.handed - 1 }) (by simp)
      exact hhanded.schedule
  | resume r x =>
      have hdone := (h.updateReceive (r := r)
        (f := fun w => { w with queued := w.queued - 1 }) (by simp)).updateReceive (r := x)
        (f := fun w => { w with stage := .done }) (by simp)
      exact ⟨hdone.pending, fun _ hr => absurd hr (by simp [ConcurrentActor.resume])⟩
  | fire r =>
      rw [ConcurrentActor.fire]
      split
      · exact (h.updateReceive (by simp)).of_timer
      · exact h.updateReceive (by simp)
  | store r | runTimeout r => exact (h.updateReceive (by simp)).of_timer
  | scheduleTimeout r => exact h.schedule.of_timer
  | reset r =>
      have hmissed := (h.updateReceive (r := r) (f := fun w => { w with stage := .withdrawn })
        (by simp)).missed
      exact ⟨fun _ hr => absurd hr (by simp [ConcurrentActor.reset]), hmissed⟩

/-- A message that a receive misses stays in the mailbox, and the receive goes to sleep over
it. -/
lemma not_noLostWakeup_of_misses {r : ℕ} (hc : s.control = .missed r) (hp : s.pending = none)
    {m : Message M} (hm : s.misses m = true) :
    ¬ ((s.enqueueMessage m).install r).NoLostWakeup := by
  intro hno
  have henq : s.enqueueMessage m = s.pushMessage m := by
    simp [ConcurrentActor.enqueueMessage, ConcurrentActor.notifyWaiterLocked, pushMessage, hp]
  have hun := hno r rfl { stamp := s.enqueued, body := m } (by
    simp [henq, ConcurrentActor.install, pushMessage])
  have hacc : tryMatchVisitors (s.receives r).visitors m = true := by
    simpa [misses, hc] using hm
  simp [henq, ConcurrentActor.install, pushMessage, hacc] at hun

/-- In a state without a pending receive, the step before an installation must be unmissed. -/
lemma noLostWakeup_iff (h : s.Awake) {r : ℕ} (hc : s.control = .missed r)
    (hp : s.pending = none) {l : Label M} {u : ConcurrentActor M} (hst : s.step l = some t)
    (htu : t.step .install = some u) : u.NoLostWakeup ↔ s.Unmissed l := by
  constructor
  · intro hno
    -- `enqueue_message` leaves the coroutine where it is
    have hbroken : ∀ (v : ConcurrentActor M) (m : Message M), v.control = .missed r →
        v.pending = none → (v.enqueueMessage m).step .install = some u →
        v.misses m = false := by
      intro v m hvc hvp hv
      have henq : (v.enqueueMessage m).control = .missed r := by
        simp [ConcurrentActor.enqueueMessage, ConcurrentActor.notifyWaiterLocked, pushMessage,
          hvp, hvc]
      obtain rfl : (v.enqueueMessage m).install r = u := by
        simpa [ConcurrentActor.step, henq] using hv
      by_contra hm
      exact not_noLostWakeup_of_misses hvc hvp (by simpa using hm) hno
    cases step_cases hst with
    | send m => exact hbroken s _ hc hp htu
    | stop reason => exact hbroken { s with exitReason := some reason } _ hc hp htu
    | _ => trivial
  · intro hok r hr
    exact (((h.step hok hst).step (l := .install) trivial htu).pending r hr).2

/-- **No lost wake-up**: in every state of a run in which no message arrives between the search
and the installation of a receive that accepts it, the pending receive accepts no message of
the mailbox. A message that arrives there is what it takes to lose a wake-up. -/
theorem no_lost_wakeup (self : ActorRef) (labels : List (Label M)) (s : ConcurrentActor M)
    (hrun : run step { self := self } labels = some s)
    (hok : AllSteps step Unmissed { self := self } labels) :
    s.NoLostWakeup ∧
      ∀ r, s.control = .missed r → s.pending = none →
        ∀ l t u, s.step l = some t → t.step .install = some u →
          (u.NoLostWakeup ↔ s.Unmissed l) := by
  have h : s.Awake :=
    invariant (fun _ _ _ hs hl hst => Awake.step hs hl hst) (Awake.init self) hok hrun
  exact ⟨fun r hr => (h.pending r hr).2, fun r hc hp l t u hst htu =>
    noLostWakeup_iff h hc hp hst htu⟩

/-- A run in which the actor waits and is sent a message. -/
def wakeupLabels : List (Label ℕ) :=
  [.send 4, .awaitReady [fun m => match m with | .user n => n == 7 | _ => false] false,
    .send 5, .install, .send 7, .schedule 0, .resume 0]

/-- A message that comes after the installation is seen. -/
theorem no_lost_wakeup_messageAfterInstall :
    (reached step { self := 1 } wakeupLabels).NoLostWakeup :=
  (no_lost_wakeup 1 wakeupLabels _ (run_eq_reached (by decide +kernel))
    (by decide +kernel)).1

/-- The run in which the message comes between the two sections of the receive. -/
def lostWakeupLabels : List (Label ℕ) :=
  [.awaitReady [fun m => match m with | .user n => n == 7 | _ => false] false, .send 7, .install]

/-- The receive waits, with a message in the mailbox that it accepts. -/
theorem message_between_sections_is_lost :
    ∃ s, run step ({ self := 1 } : ConcurrentActor ℕ) lostWakeupLabels = some s ∧
      s.pending = some 0 ∧
      ∃ e ∈ s.mailbox, tryMatchVisitors (s.receives 0).visitors e.body = true := by
  exact ⟨_, run_eq_reached (by decide +kernel), by decide +kernel,
    List.any_eq_true.mp (by decide +kernel)⟩

end Agner.ConcurrentActor
