import Agner.GenServer.CallLoop

/-!
The deadline of `GenServer::call`, on a scheduler with a logical clock.

* `logical`: the clock stands still while the caller runs, and a timer is fired when it is due.
* `Timing`: where the deadline is in each part of the loop.
* `Found`, `OnTheWay`: the reply has been taken, or it is queued behind replies with other ids.
* `call_deadline`: one deadline for all receives of the loop, and a reply that reaches a pending
  receive is returned.
* `call_misses_reply`: a reply that comes while the caller is in the ready queue need not be.
-/

namespace Agner

namespace CallLoop

open Runs

variable {Q A V : Type}

/-- The step is one of a logical clock. -/
def logical (s : Caller Q A V) : Label Q A → Bool
  | .tick _ => !s.control.running
  | .fire i => s.timers[i]?.all fun p => decide (p.2 ≤ s.clock)
  | _ => true

/-- The call has ended. -/
def Control.final : Control V → Bool
  | .returned _ | .timedOut _ | .raised => true
  | _ => false

/-- The step is taken by the caller, or resumes it. -/
def Label.isOwn : Label Q A → Bool
  | .sent | .checkRemaining | .tryReceive | .conclude | .resume => true
  | .arrive _ | .fire _ | .tick _ => false

section Timing

variable {c : CallSite A V} {s t : Caller Q A V} {began : ℤ}

/-! ### One deadline -/

/-- The invariant of the times, for a call that began at the clock value. -/
structure Timing (c : CallSite A V) (began : ℤ) (s : Caller Q A V) : Prop where
  sending : s.control = .sending → s.clock = began
  deadline : s.control ≠ .sending → s.deadline = began + c.timeout
  remaining : ∀ r, s.control = .receiving r → r = s.deadline - s.clock
  armed : ∀ d ∈ s.armed, d = began + c.timeout
  timers : ∀ p ∈ s.timers, p.2 = began + c.timeout
  expired : s.timedOut = true → began + c.timeout ≤ s.clock
  thrown : ∀ at', s.control = .timedOut at' → began + c.timeout ≤ at'

lemma timing_start (c : CallSite A V) (initial : List (Message (GenMessage Q A))) (clock : ℤ) :
    Timing c clock (start initial clock) where
  sending := fun _ => rfl
  deadline := fun h => absurd rfl h
  remaining := fun _ h => by cases h
  armed := fun d hd => absurd hd (by simp [start])
  timers := fun p hp => absurd hp (by simp [start])
  expired := fun h => by cases h
  thrown := fun _ h => by cases h

/-- A message changes no time, and may end the suspension of the caller. -/
lemma enqueue_times (c : CallSite A V) (s : Caller Q A V) (m : Message (GenMessage Q A)) :
    (enqueue c s m).clock = s.clock ∧ (enqueue c s m).deadline = s.deadline ∧
    (enqueue c s m).armed = s.armed ∧ (enqueue c s m).timers = s.timers ∧
    (enqueue c s m).timedOut = s.timedOut ∧
    ((enqueue c s m).control = s.control ∨ s.control = .suspended ∧
      ((enqueue c s m).control = .scheduled ∨ (enqueue c s m).control = .stranded)) := by
  rw [enqueue]
  split
  · rename_i hc
    rcases tryMatch_cases c (push s m) with ⟨heq, -⟩ |
      ⟨older, e, newer, requestId, response, number, -, -, -, ⟨-, heq⟩ | ⟨result, -, heq⟩⟩
    · rw [heq]
      exact ⟨rfl, rfl, rfl, rfl, rfl, .inl rfl⟩
    · rw [heq]
      exact ⟨rfl, rfl, rfl, rfl, rfl, .inr ⟨hc, .inr rfl⟩⟩
    · rw [heq]
      exact ⟨took_clock .., took_deadline .., took_armed .., took_timers .., took_timedOut ..,
        .inr ⟨hc, .inl rfl⟩⟩
  · exact ⟨rfl, rfl, rfl, rfl, rfl, .inl rfl⟩

lemma Timing.enqueue (h : Timing c began s) (m : Message (GenMessage Q A)) :
    Timing c began (enqueue c s m) := by
  obtain ⟨hclock, hdeadline, harmed, htimers, htimedOut, hcontrol⟩ := enqueue_times c s m
  have hsame (k : Control V) (hs : k ≠ .scheduled) (hd : k ≠ .stranded)
      (hk : (CallLoop.enqueue c s m).control = k) : s.control = k := by
    rcases hcontrol with heq | ⟨-, heq | heq⟩
    · exact heq.symm.trans hk
    · exact absurd (hk.symm.trans heq) hs
    · exact absurd (hk.symm.trans heq) hd
  refine ⟨fun hc => ?_, fun hc => ?_, fun r hr => ?_, harmed ▸ h.armed, htimers ▸ h.timers,
    fun ht => ?_, fun at' hat => ?_⟩
  · rw [hclock]
    exact h.sending (hsame _ (by simp) (by simp) hc)
  · rw [hdeadline]
    refine h.deadline fun hsending => hc ?_
    rcases hcontrol with heq | ⟨hsuspended, -⟩
    · exact heq.trans hsending
    · rw [hsuspended] at hsending
      cases hsending
  · rw [hdeadline, hclock]
    exact h.remaining r (hsame _ (by simp) (by simp) hr)
  · rw [hclock]
    exact h.expired (htimedOut ▸ ht)
  · exact h.thrown at' (hsame _ (by simp) (by simp) hat)

/-- The timer of a receive is due at the deadline of the call. -/
lemma Timing.tryReceive {remaining : ℤ} (h : Timing c began s)
    (hc : s.control = .receiving remaining) : Timing c began (tryReceive c s remaining) := by
  have hdeadline : s.deadline = began + c.timeout := h.deadline (by simp [hc])
  have hdue : s.clock + remaining = began + c.timeout := by
    rw [h.remaining remaining hc, ← hdeadline]
    ring
  rw [CallLoop.tryReceive]
  rcases tryMatch_cases c s with ⟨heq, -⟩ |
    ⟨older, e, newer, requestId, response, number, -, -, -, ⟨-, heq⟩ | ⟨result, -, heq⟩⟩
  · rw [heq]
    refine ⟨(fun hk => by cases hk), fun _ => hdeadline, (fun r hr => by cases hr), fun d hd => ?_,
      fun p hp => ?_, h.expired, (fun at' hat => by cases hat)⟩
    · rcases List.mem_append.mp hd with hold | hnew
      · exact h.armed d hold
      · exact (List.mem_singleton.mp hnew).trans hdue
    · rcases List.mem_append.mp hp with hold | hnew
      · exact h.timers p hold
      · rw [List.mem_singleton.mp hnew]
        exact hdue
  · rw [heq]
    exact ⟨(fun hk => by cases hk), fun _ => hdeadline, (fun r hr => by cases hr),
      h.armed, h.timers,
      h.expired, (fun at' hat => by cases hat)⟩
  · rw [heq]
    exact ⟨(fun hk => by cases hk), fun _ => (took_deadline ..).trans hdeadline,
      (fun r hr => by cases hr), fun d hd => h.armed d (by simpa using hd),
      fun p hp => h.timers p (by simpa using hp), fun ht => by
        simpa using h.expired (by simpa using ht), (fun at' hat => by cases hat)⟩

lemma Timing.checkRemaining (h : Timing c began s) (hc : s.control = .looping) :
    Timing c began (checkRemaining s) := by
  have hdeadline : s.deadline = began + c.timeout := h.deadline (by simp [hc])
  simp only [CallLoop.checkRemaining]
  split
  · rename_i hlate
    refine ⟨(fun hk => by cases hk), fun _ => hdeadline, (fun r hr => by cases hr),
      h.armed, h.timers,
      h.expired, fun at' hat => ?_⟩
    obtain rfl : s.clock = at' := by simpa using hat
    omega
  · refine ⟨(fun hk => by cases hk), fun _ => hdeadline, fun r hr => ?_, h.armed, h.timers,
      (fun ht => by cases ht), (fun at' hat => by cases hat)⟩
    exact (by simpa using hr : s.deadline - s.clock = r).symm

lemma Timing.conclude (h : Timing c began s) (hc : s.control = .resumed) :
    Timing c began (conclude s) := by
  have hdeadline : s.deadline = began + c.timeout := h.deadline (by simp [hc])
  rw [CallLoop.conclude]
  split
  · rename_i hout
    refine ⟨(fun hk => by cases hk), fun _ => hdeadline, (fun r hr => by cases hr),
      h.armed, h.timers,
      h.expired, fun at' hat => ?_⟩
    obtain rfl : s.clock = at' := by simpa using hat
    exact h.expired hout
  · split
    · exact ⟨(fun hk => by cases hk), fun _ => hdeadline, (fun r hr => by cases hr), h.armed,
        h.timers, h.expired, (fun at' hat => by cases hat)⟩
    · exact ⟨(fun hk => by cases hk), fun _ => hdeadline, (fun r hr => by cases hr), h.armed,
        h.timers, h.expired, (fun at' hat => by cases hat)⟩

/-- A timer that is fired is due, and so is the call. -/
lemma Timing.fire {i r : ℕ} {due : ℤ} (h : Timing c began s) (hframe : Frame c s)
    (hi : s.timers[i]? = some (r, due)) (hdue : due ≤ s.clock) :
    Timing c began (timerCallback { s with timers := s.timers.eraseIdx i } r) := by
  have hmem : (r, due) ∈ s.timers := List.mem_of_getElem? hi
  have hlate : began + c.timeout ≤ s.clock := (h.timers _ hmem).symm ▸ hdue
  have htimers : ∀ p ∈ s.timers.eraseIdx i, p.2 = began + c.timeout :=
    fun p hp => h.timers p ((List.eraseIdx_sublist s.timers i).subset hp)
  rw [timerCallback]
  split
  · rename_i hr
    refine ⟨(fun hk => by cases hk), fun hk => h.deadline fun hs => ?_,
      (fun r hr => by cases hr), h.armed, htimers, fun _ => hlate, (fun at' hat => by cases hat)⟩
    rw [hframe.inactive (by simp [hs]) (by simp [hs])] at hr
    cases hr
  · exact ⟨h.sending, h.deadline, h.remaining, h.armed, htimers, h.expired, h.thrown⟩

lemma Timing.step {l : Label Q A} (h : Timing c began s) (hframe : Frame c s)
    (hlogical : logical s l = true) (hstep : step c s l = some t) : Timing c began t := by
  cases l with
  | arrive m =>
      obtain rfl := Option.some.inj hstep
      exact h.enqueue m
  | sent =>
      simp only [CallLoop.step] at hstep
      split at hstep
      · rename_i hc
        obtain rfl := Option.some.inj hstep
        refine ⟨(fun hk => by cases hk), fun _ => ?_, (fun r hr => by cases hr), h.armed, h.timers,
          h.expired, (fun at' hat => by cases hat)⟩
        exact congrArg (· + c.timeout) (h.sending hc)
      · cases hstep
  | checkRemaining =>
      simp only [CallLoop.step] at hstep
      split at hstep
      · rename_i hc
        obtain rfl := Option.some.inj hstep
        exact h.checkRemaining hc
      · cases hstep
  | tryReceive =>
      simp only [CallLoop.step] at hstep
      split at hstep
      · rename_i remaining hc
        obtain rfl := Option.some.inj hstep
        exact h.tryReceive hc
      · cases hstep
  | conclude =>
      simp only [CallLoop.step] at hstep
      split at hstep
      · rename_i hc
        obtain rfl := Option.some.inj hstep
        exact h.conclude hc
      · cases hstep
  | fire i =>
      obtain ⟨⟨r, due⟩, hi, rfl⟩ := Option.map_eq_some_iff.mp hstep
      refine h.fire hframe hi ?_
      simpa [logical, hi] using hlogical
  | resume =>
      simp only [CallLoop.step] at hstep
      split at hstep
      · rename_i hc
        obtain rfl := Option.some.inj hstep
        exact ⟨(fun hk => by cases hk), fun _ => h.deadline (by simp [hc]),
          (fun r hr => by cases hr), h.armed, h.timers, h.expired, (fun at' hat => by cases hat)⟩
      · cases hstep
  | tick ticks =>
      obtain rfl := Option.some.inj hstep
      have hidle : s.control.running = false := by simpa [logical] using hlogical
      refine ⟨fun hk => ?_, h.deadline, fun r hr => ?_, h.armed, h.timers, fun ht => ?_, h.thrown⟩
      · rw [show s.control = .sending from hk] at hidle
        cases hidle
      · rw [show s.control = .receiving r from hr] at hidle
        cases hidle
      · exact (h.expired ht).trans (by simp)

/-- The invariants of a run on a logical clock. -/
lemma timing_of_run {initial : List (Message (GenMessage Q A))} {labels : List (Label Q A)}
    (hrun : run (CallLoop.step c) (start initial began) labels = some s)
    (hlogical : AllSteps (CallLoop.step c) (fun s l => logical s l = true) (start initial began)
      labels) : Timing c began s ∧ Frame c s := by
  have hstep : ∀ (u : Caller Q A V) l v, Timing c began u ∧ Frame c u → logical u l = true →
      CallLoop.step c u l = some v → Timing c began v ∧ Frame c v :=
    fun _ _ _ h hok hs => ⟨h.1.step h.2 hok hs, h.2.step hs⟩
  exact invariant hstep ⟨timing_start c initial began, frame_start c initial began⟩ hlogical hrun

end Timing

section Answered

variable {c : CallSite A V} {s t : Caller Q A V} {v : V} {due : ℤ}

/-! ### A reply that is returned -/

/-- The receive has taken the reply, or the call has returned it. -/
structure Found (v : V) (s : Caller Q A V) : Prop where
  control : s.control = .returned v ∨
    (s.control = .scheduled ∨ s.control = .resumed) ∧ s.timedOut = false ∧ s.storage = some v
  inactive : ∀ r, s.active r = false

lemma Found.not_suspended (h : Found v s) : s.control ≠ .suspended := by
  rcases h.control with hc | ⟨hc | hc, -⟩ <;> simp [hc]

lemma Found.enqueue (h : Found v s) (m : Message (GenMessage Q A)) :
    enqueue c s m = push s m := by
  rw [CallLoop.enqueue]
  split
  · rename_i hc
    exact absurd hc h.not_suspended
  · rfl

/-- Nothing comes between the caller and a reply it has taken. -/
lemma Found.step {l : Label Q A} (h : Found v s) (hstep : step c s l = some t) : Found v t := by
  cases l with
  | arrive m =>
      obtain rfl := Option.some.inj hstep
      rw [h.enqueue m]
      exact ⟨h.control, h.inactive⟩
  | sent | checkRemaining | tryReceive =>
      simp only [CallLoop.step] at hstep
      rcases h.control with hc | ⟨hc | hc, -⟩ <;> simp [hc] at hstep
  | conclude =>
      simp only [CallLoop.step] at hstep
      split at hstep
      · rename_i hc
        obtain rfl := Option.some.inj hstep
        rcases h.control with hreturned | ⟨-, htimedOut, hstorage⟩
        · rw [hc] at hreturned
          cases hreturned
        · simp only [conclude, htimedOut, hstorage]
          exact ⟨.inl rfl, h.inactive⟩
      · cases hstep
  | fire i =>
      obtain ⟨p, -, rfl⟩ := Option.map_eq_some_iff.mp hstep
      simp only [timerCallback, h.inactive]
      exact ⟨h.control, h.inactive⟩
  | resume =>
      simp only [CallLoop.step] at hstep
      split at hstep
      · rename_i hc
        obtain rfl := Option.some.inj hstep
        rcases h.control with hreturned | ⟨-, hrest⟩
        · rw [hc] at hreturned
          cases hreturned
        · exact ⟨.inr ⟨.inr rfl, hrest⟩, h.inactive⟩
      · cases hstep
  | tick ticks =>
      obtain rfl := Option.some.inj hstep
      exact ⟨h.control, h.inactive⟩

/-- The call gets to its end by itself. -/
lemma Found.returns (h : Found v s) :
    ∃ own t, (∀ l ∈ own, l.isOwn = true) ∧ run (CallLoop.step c) s own = some t ∧
      t.control = .returned v := by
  rcases h.control with hc | ⟨hc | hc, htimedOut, hstorage⟩
  · exact ⟨[], s, by simp, rfl, hc⟩
  · refine ⟨[.resume, .conclude], { s with control := .returned v }, by simp [Label.isOwn], ?_,
      rfl⟩
    simp [run_cons, CallLoop.step, hc, conclude, htimedOut, hstorage]
  · refine ⟨[.conclude], { s with control := .returned v }, by simp [Label.isOwn], ?_, rfl⟩
    simp [run_cons, CallLoop.step, hc, conclude, htimedOut, hstorage]

/-- A pending receive takes a reply with the id of the call and a value of the expected type. -/
lemma found_of_enqueue {response : A} (number : ℕ) (h : Frame c s) (hc : s.control = .suspended)
    (hcast : c.anyCast response = some v) :
    Found v (enqueue c s (.user (.reply c.requestId response number))) := by
  have hnone := tryMatchMailbox_eq_none.mp (h.pending hc)
  obtain ⟨hfresh, -⟩ := h.fresh (by rw [hc]; rfl)
  set m : Message (GenMessage Q A) := .user (.reply c.requestId response number) with hm
  -- the new message is the only reply in the mailbox
  have honly : ∀ e ∈ (push s m).mailbox, GenSystem.replyVisitor e.body = true → e.body = m := by
    intro e he hacc
    rcases List.mem_append.mp he with hold | hnew
    · have := hnone e hold
      simp [tryMatchVisitors, hacc] at this
    · rw [List.mem_singleton.mp hnew]
  rw [CallLoop.enqueue]
  simp only [hc]
  rcases tryMatch_cases c (push s m) with ⟨-, hno⟩ |
    ⟨older, e, newer, requestId, response', number', hbox, hbody, -, hresult⟩
  · have := tryMatchMailbox_eq_none.mp hno ⟨s.total.length, m⟩ (by simp [push])
    simp [tryMatchVisitors, hm, GenSystem.replyVisitor] at this
  · have heq : e.body = m := honly e (by simp [hbox]) (by rw [hbody]; rfl)
    rw [hm, hbody] at heq
    simp only [Message.user.injEq, GenMessage.reply.injEq] at heq
    obtain ⟨rfl, rfl, rfl⟩ := heq
    have hvalue : replyResult c c.requestId response' = some (some v) := by
      simp [replyResult, hcast]
    rcases hresult with ⟨hthrow, -⟩ | ⟨result, hsome, heq⟩
    · rw [hvalue] at hthrow
      cases hthrow
    · obtain rfl : some v = result := Option.some.inj (hvalue.symm.trans hsome)
      rw [heq]
      refine ⟨.inr ⟨.inl rfl, (took_timedOut ..).trans hfresh, took_storage ..⟩, fun r => ?_⟩
      rw [← Bool.not_eq_true]
      intro hr
      rcases active_of_update hr with ⟨-, hfalse⟩ | ⟨hrr, hold⟩
      · cases hfalse
      · rw [took_active] at hold
        rw [took_receive] at hrr
        exact absurd (h.flags r hold).1 hrr

/-- The message is a reply with the id of the call. -/
def IsOwnReply (c : CallSite A V) (m : Message (GenMessage Q A)) : Prop :=
  ∃ response number, m = .user (.reply c.requestId response number)

/-- The caller has been made ready, and the first reply with its id is queued behind older
messages. -/
structure Queued (c : CallSite A V) (v : V) (due : ℤ) (older : List (Envelope (GenMessage Q A)))
    (s : Caller Q A V) : Prop where
  mailbox : ∃ e newer response number, s.mailbox = older ++ e :: newer ∧
    e.body = .user (.reply c.requestId response number) ∧ c.anyCast response = some v
  older : ∀ e ∈ older, ¬ IsOwnReply c e.body
  control : s.control = .scheduled ∨ s.control = .resumed ∨ s.control = .looping ∨
    ∃ remaining, s.control = .receiving remaining
  timedOut : s.timedOut = false
  storage : s.storage = none
  inactive : ∀ r, s.active r = false
  deadline : s.deadline = due

/-- The call has found its time over. -/
structure Late (due : ℤ) (s : Caller Q A V) : Prop where
  control : ∃ at', due < at' ∧ s.control = .timedOut at'
  inactive : ∀ r, s.active r = false

/-- What becomes of a reply that is queued. -/
def OnTheWay (c : CallSite A V) (v : V) (due : ℤ) (s : Caller Q A V) : Prop :=
  Found v s ∨ Late due s ∨ ∃ older, Queued c v due older s

lemma Late.step {l : Label Q A} (h : Late due s) (hstep : step c s l = some t) : Late due t := by
  obtain ⟨at', hat, hc⟩ := h.control
  cases l with
  | arrive m =>
      obtain rfl := Option.some.inj hstep
      rw [CallLoop.enqueue]
      simp only [hc]
      exact ⟨⟨at', hat, hc⟩, h.inactive⟩
  | sent | checkRemaining | tryReceive | conclude | resume => simp [CallLoop.step, hc] at hstep
  | fire i =>
      obtain ⟨p, -, rfl⟩ := Option.map_eq_some_iff.mp hstep
      simp only [timerCallback, h.inactive]
      exact ⟨⟨at', hat, hc⟩, h.inactive⟩
  | tick ticks =>
      obtain rfl := Option.some.inj hstep
      exact ⟨⟨at', hat, hc⟩, h.inactive⟩

variable {older : List (Envelope (GenMessage Q A))}

lemma Queued.not_suspended (h : Queued c v due older s) : s.control ≠ .suspended := by
  rcases h.control with hc | hc | hc | ⟨remaining, hc⟩ <;> simp [hc]

/-- A list split at its first element with a property and at some element with it. -/
lemma split_first {α : Type*} {p : α → Bool} {before after older newer : List α} {x y : α}
    (hsplit : before ++ x :: after = older ++ y :: newer) (hbefore : ∀ z ∈ before, p z = false)
    (hy : p y = true) :
    (before = older ∧ x = y ∧ after = newer) ∨
      ∃ middle, older = before ++ x :: middle ∧ after = middle ++ y :: newer := by
  induction before generalizing older with
  | nil =>
      cases older with
      | nil =>
          obtain ⟨rfl, rfl⟩ := List.cons.inj hsplit
          exact .inl ⟨rfl, rfl, rfl⟩
      | cons z older =>
          obtain ⟨rfl, rfl⟩ := List.cons.inj hsplit
          exact .inr ⟨older, rfl, rfl⟩
  | cons z before ih =>
      have hz : p z = false := hbefore z List.mem_cons_self
      cases older with
      | nil =>
          obtain ⟨rfl, -⟩ := List.cons.inj hsplit
          rw [hz] at hy
          cases hy
      | cons w older =>
          obtain ⟨rfl, hrest⟩ := List.cons.inj hsplit
          rcases ih hrest fun u hu => hbefore u (List.mem_cons_of_mem z hu) with
            ⟨rfl, rfl, rfl⟩ | ⟨middle, rfl, rfl⟩
          · exact .inl ⟨rfl, rfl, rfl⟩
          · exact .inr ⟨middle, rfl, rfl⟩

/-- A receive takes the reply, or an older one with another id. -/
lemma Queued.tryReceive (h : Queued c v due older s) (remaining : ℤ) :
    Found v (tryReceive c s remaining) ∧ (tryReceive c s remaining).control = .resumed ∨
      ∃ fewer, fewer.length < older.length ∧ Queued c v due fewer (tryReceive c s remaining) ∧
        (tryReceive c s remaining).control = .resumed := by
  obtain ⟨e, newer, response, number, hbox, hbody, hcast⟩ := h.mailbox
  have haccepts : GenSystem.replyVisitor e.body = true := by rw [hbody]; rfl
  rw [CallLoop.tryReceive]
  rcases tryMatch_cases c s with ⟨-, hno⟩ |
    ⟨before, e', after, requestId, response', number', hbox', hbody', hbefore, hresult⟩
  · have := tryMatchMailbox_eq_none.mp hno e (by simp [hbox])
    simp [tryMatchVisitors, haccepts] at this
  · rcases split_first (hbox'.symm.trans hbox) hbefore haccepts with
      ⟨rfl, rfl, rfl⟩ | ⟨middle, rfl, rfl⟩
    · -- the reply is the first one
      left
      rw [hbody'] at hbody
      simp only [Message.user.injEq, GenMessage.reply.injEq] at hbody
      obtain ⟨rfl, rfl, rfl⟩ := hbody
      have hvalue : replyResult c c.requestId response' = some (some v) := by
        simp [replyResult, hcast]
      rcases hresult with ⟨hthrow, -⟩ | ⟨result, hsome, heq⟩
      · rw [hvalue] at hthrow
        cases hthrow
      · obtain rfl : some v = result := Option.some.inj (hvalue.symm.trans hsome)
        rw [heq]
        refine ⟨⟨.inr ⟨.inr rfl, (took_timedOut ..).trans h.timedOut, took_storage ..⟩,
          fun r => ?_⟩, rfl⟩
        exact (congrFun (took_active ..) r).trans (h.inactive r)
    · -- an older reply comes first
      right
      have hid : requestId ≠ c.requestId := by
        rintro rfl
        exact h.older e' (by simp) ⟨response', number', hbody'⟩
      have hvalue : replyResult c requestId response' = some none := by
        simp [replyResult, hid]
      rcases hresult with ⟨hthrow, -⟩ | ⟨result, hsome, heq⟩
      · rw [hvalue] at hthrow
        cases hthrow
      · obtain rfl : none = result := Option.some.inj (hvalue.symm.trans hsome)
        rw [heq]
        refine ⟨before ++ middle, by simp, ⟨?_, fun e'' he'' => h.older e'' ?_, .inr (.inl rfl),
          (took_timedOut ..).trans h.timedOut, took_storage .., fun r => ?_,
          (took_deadline ..).trans h.deadline⟩, rfl⟩
        · exact ⟨e, newer, response, number, (took_mailbox ..).trans (by simp), hbody, hcast⟩
        · simp only [List.mem_append, List.mem_cons] at he'' ⊢
          tauto
        · exact (congrFun (took_active ..) r).trans (h.inactive r)

lemma Queued.checkRemaining (h : Queued c v due older s) :
    Late due (checkRemaining s) ∨ Queued c v due older (checkRemaining s) ∧
      ∃ remaining, (checkRemaining s).control = .receiving remaining := by
  simp only [CallLoop.checkRemaining]
  split
  · rename_i hlate
    exact .inl ⟨⟨s.clock, by rw [h.deadline] at hlate; omega, rfl⟩, h.inactive⟩
  · exact .inr ⟨⟨h.mailbox, h.older, .inr (.inr (.inr ⟨_, rfl⟩)), rfl, rfl, h.inactive,
      h.deadline⟩, _, rfl⟩

lemma Queued.conclude (h : Queued c v due older s) :
    Queued c v due older (conclude s) ∧ (conclude s).control = .looping := by
  have heq : CallLoop.conclude s = { s with control := .looping } := by
    simp [CallLoop.conclude, h.timedOut, h.storage]
  rw [heq]
  exact ⟨⟨h.mailbox, h.older, .inr (.inr (.inl rfl)), h.timedOut, h.storage, h.inactive,
    h.deadline⟩, rfl⟩

lemma Queued.resume (h : Queued c v due older s) :
    Queued c v due older { s with control := .resumed } :=
  ⟨h.mailbox, h.older, .inr (.inl rfl), h.timedOut, h.storage, h.inactive, h.deadline⟩

lemma OnTheWay.step {l : Label Q A} (h : OnTheWay c v due s) (hstep : step c s l = some t) :
    OnTheWay c v due t := by
  rcases h with h | h | ⟨older, h⟩
  · exact .inl (h.step hstep)
  · exact .inr (.inl (h.step hstep))
  cases l with
  | arrive m =>
      obtain rfl := Option.some.inj hstep
      obtain ⟨e, newer, response, number, hbox, hbody⟩ := h.mailbox
      -- the reply is queued, so the caller is not suspended and what arrives waits behind it
      have hbusy : CallLoop.enqueue c s m = push s m := by
        rw [CallLoop.enqueue]
        split
        · rename_i hc
          exact absurd hc h.not_suspended
        · rfl
      rw [hbusy]
      exact .inr (.inr ⟨older, ⟨e, newer ++ [⟨s.total.length, m⟩], response, number,
        by simp [push, hbox], hbody⟩, h.older, h.control, h.timedOut, h.storage, h.inactive,
        h.deadline⟩)
  | sent =>
      rcases h.control with hc | hc | hc | ⟨remaining, hc⟩ <;>
        simp [CallLoop.step, hc] at hstep
  | checkRemaining =>
      simp only [CallLoop.step] at hstep
      split at hstep
      · obtain rfl := Option.some.inj hstep
        rcases h.checkRemaining with hlate | ⟨hqueued, -⟩
        · exact .inr (.inl hlate)
        · exact .inr (.inr ⟨older, hqueued⟩)
      · cases hstep
  | tryReceive =>
      simp only [CallLoop.step] at hstep
      split at hstep
      · rename_i remaining hc
        obtain rfl := Option.some.inj hstep
        rcases h.tryReceive remaining with ⟨hfound, -⟩ | ⟨fewer, -, hqueued, -⟩
        · exact .inl hfound
        · exact .inr (.inr ⟨fewer, hqueued⟩)
      · cases hstep
  | conclude =>
      simp only [CallLoop.step] at hstep
      split at hstep
      · obtain rfl := Option.some.inj hstep
        exact .inr (.inr ⟨older, h.conclude.1⟩)
      · cases hstep
  | fire i =>
      -- a timer of an earlier receive finds its flag cleared
      obtain ⟨p, -, rfl⟩ := Option.map_eq_some_iff.mp hstep
      simp only [timerCallback, h.inactive]
      exact .inr (.inr ⟨older, h.mailbox, h.older, h.control, h.timedOut, h.storage, h.inactive,
        h.deadline⟩)
  | resume =>
      simp only [CallLoop.step] at hstep
      split at hstep
      · obtain rfl := Option.some.inj hstep
        exact .inr (.inr ⟨older, h.resume⟩)
      · cases hstep
  | tick ticks =>
      obtain rfl := Option.some.inj hstep
      exact .inr (.inr ⟨older, h.mailbox, h.older, h.control, h.timedOut, h.storage, h.inactive,
        h.deadline⟩)

/-- How many steps of its own the caller takes until it has looked at the next reply. -/
def Control.stages : Control V → ℕ
  | .scheduled => 3
  | .resumed => 2
  | .looping => 1
  | _ => 0

/-- The caller takes a step of its own, which brings it closer to the reply. -/
lemma Queued.own_step (h : Queued c v due older s) :
    ∃ l t, l.isOwn = true ∧ CallLoop.step c s l = some t ∧ (Found v t ∨ Late due t ∨
      ∃ fewer, Queued c v due fewer t ∧
        4 * fewer.length + t.control.stages < 4 * older.length + s.control.stages) := by
  rcases h.control with hc | hc | hc | ⟨remaining, hc⟩
  · refine ⟨.resume, _, rfl, by simp only [CallLoop.step, hc]; rfl, .inr (.inr ⟨older, ?_⟩)⟩
    exact ⟨h.resume, by simp [hc, Control.stages]⟩
  · refine ⟨.conclude, _, rfl, by simp only [CallLoop.step, hc]; rfl, .inr (.inr ⟨older, ?_⟩)⟩
    exact ⟨h.conclude.1, by simp [hc, h.conclude.2, Control.stages]⟩
  · refine ⟨.checkRemaining, _, rfl, by simp only [CallLoop.step, hc]; rfl, .inr ?_⟩
    rcases h.checkRemaining with hlate | ⟨hqueued, remaining, hr⟩
    · exact .inl hlate
    · exact .inr ⟨older, hqueued, by simp [hc, hr, Control.stages]⟩
  · refine ⟨.tryReceive, _, rfl, by simp only [CallLoop.step, hc]; rfl, ?_⟩
    rcases h.tryReceive remaining with ⟨hfound, -⟩ | ⟨fewer, hlt, hqueued, hr⟩
    · exact .inl hfound
    · refine .inr (.inr ⟨fewer, hqueued, ?_⟩)
      simp only [hc, hr, Control.stages]
      omega

lemma Late.ends (h : Late due s) :
    ∃ own t, (∀ l ∈ own, l.isOwn = true) ∧ run (CallLoop.step c) s own = some t ∧
      t.control.final = true := by
  obtain ⟨at', -, hc⟩ := h.control
  exact ⟨[], s, by simp, rfl, by rw [hc]; rfl⟩

lemma Found.ends (h : Found v s) :
    ∃ own t, (∀ l ∈ own, l.isOwn = true) ∧ run (CallLoop.step c) s own = some t ∧
      t.control.final = true := by
  obtain ⟨own, t, hown, hrun, ht⟩ := h.returns (c := c)
  exact ⟨own, t, hown, hrun, by rw [ht]; rfl⟩

lemma Queued.ends (h : Queued c v due older s) :
    ∃ own t, (∀ l ∈ own, l.isOwn = true) ∧ run (CallLoop.step c) s own = some t ∧
      t.control.final = true := by
  induction hn : 4 * older.length + s.control.stages using Nat.strong_induction_on
    generalizing older s with
  | _ n ih =>
      obtain ⟨l, u, hl, hstep, hnext⟩ := h.own_step
      have hrest : ∃ own t, (∀ l ∈ own, l.isOwn = true) ∧
          run (CallLoop.step c) u own = some t ∧ t.control.final = true := by
        rcases hnext with hfound | hlate | ⟨fewer, hqueued, hlt⟩
        · exact hfound.ends
        · exact hlate.ends
        · exact ih _ (hn ▸ hlt) hqueued rfl
      obtain ⟨own, t, hown, hrun, ht⟩ := hrest
      refine ⟨l :: own, t, List.forall_mem_cons.mpr ⟨hl, hown⟩, ?_, ht⟩
      rw [run_cons, hstep]
      exact hrun

/-- The call gets to its end by itself. -/
lemma OnTheWay.ends (h : OnTheWay c v due s) :
    ∃ own t, (∀ l ∈ own, l.isOwn = true) ∧ run (CallLoop.step c) s own = some t ∧
      t.control.final = true := by
  rcases h with h | h | ⟨older, h⟩
  · exact h.ends
  · exact h.ends
  · exact h.ends

lemma OnTheWay.final (h : OnTheWay c v due s) (hfinal : s.control.final = true) :
    s.control = .returned v ∨ ∃ at', due < at' ∧ s.control = .timedOut at' := by
  rcases h with h | h | ⟨older, h⟩
  · rcases h.control with hc | ⟨hc | hc, -⟩
    · exact .inl hc
    · rw [hc] at hfinal
      cases hfinal
    · rw [hc] at hfinal
      cases hfinal
  · exact .inr h.control
  · rcases h.control with hc | hc | hc | ⟨remaining, hc⟩ <;>
      · rw [hc] at hfinal
        cases hfinal

lemma Found.final (h : Found v s) (hfinal : s.control.final = true) : s.control = .returned v := by
  rcases h.control with hc | ⟨hc | hc, -⟩
  · exact hc
  · rw [hc] at hfinal
    cases hfinal
  · rw [hc] at hfinal
    cases hfinal

/-- The caller has been made ready by a reply with another id, and no reply with its own id is
queued. -/
structure MadeReady (c : CallSite A V) (s : Caller Q A V) : Prop where
  control : s.control = .scheduled
  timedOut : s.timedOut = false
  storage : s.storage = none
  mailbox : ∀ e ∈ s.mailbox, ¬ IsOwnReply c e.body

/-- A reply that comes before the caller is resumed. -/
lemma queued_of_enqueue {response : A} (number : ℕ) (h : Frame c s) (hready : MadeReady c s)
    (hdeadline : s.deadline = due) (hcast : c.anyCast response = some v) :
    Queued c v due s.mailbox
      (enqueue c s (.user (.reply c.requestId response number))) := by
  have hbusy : enqueue c s (.user (.reply c.requestId response number)) =
      push s (.user (.reply c.requestId response number)) := by
    rw [enqueue, hready.control]
  rw [hbusy]
  exact ⟨⟨_, [], response, number, rfl, rfl, hcast⟩, hready.mailbox, .inl hready.control,
    hready.timedOut, hready.storage, h.inactive (by simp [hready.control])
      (by simp [hready.control]), hdeadline⟩

/-- On a logical clock, all timers of a call are due when its time is over, and `CallTimeout` is
thrown no earlier. A reply with the id of the call and a value of the expected type is returned
if it is enqueued while a receive of the call is pending. If it is enqueued while a reply with
another id has made the caller ready, it is returned unless the caller is resumed too late. -/
theorem call_deadline {initial : List (Message (GenMessage Q A))} {began : ℤ}
    {labels : List (Label Q A)}
    (hrun : run (CallLoop.step c) (start initial began) labels = some s)
    (hlogical : AllSteps (CallLoop.step c) (fun s l => logical s l = true) (start initial began)
      labels) :
    (∀ d ∈ s.armed, d = began + c.timeout) ∧
    (∀ at', s.control = .timedOut at' → began + c.timeout ≤ at') ∧
    ∀ response number v later t, c.anyCast response = some v →
      run (CallLoop.step c) s (.arrive (.user (.reply c.requestId response number)) :: later) =
        some t →
      (s.control = .suspended →
        (t.control.final = true → t.control = .returned v) ∧
        ∃ own u, (∀ l ∈ own, l.isOwn = true) ∧ run (CallLoop.step c) t own = some u ∧
          u.control = .returned v) ∧
      (MadeReady c s →
        (t.control.final = true → t.control = .returned v ∨
          ∃ at', began + c.timeout < at' ∧ t.control = .timedOut at') ∧
        ∃ own u, (∀ l ∈ own, l.isOwn = true) ∧ run (CallLoop.step c) t own = some u ∧
          u.control.final = true) := by
  obtain ⟨htiming, hframe⟩ := timing_of_run hrun hlogical
  refine ⟨htiming.armed, htiming.thrown, fun response number v later t hcast hlater => ?_⟩
  rw [run_cons] at hlater
  refine ⟨fun hc => ?_, fun hready => ?_⟩
  · have hfound : Found v t := invariant_of_step (fun _ _ _ h hs => h.step hs)
      (found_of_enqueue number hframe hc hcast) hlater
    exact ⟨hfound.final, hfound.returns⟩
  · have hqueued := queued_of_enqueue number hframe hready
      (htiming.deadline (by simp [hready.control])) hcast
    have hway : OnTheWay c v (began + c.timeout) t := invariant_of_step
      (fun _ _ _ h hs => OnTheWay.step h hs) (.inr (.inr ⟨_, hqueued⟩)) hlater
    exact ⟨hway.final, hway.ends⟩

end Answered

/-- A reply with another id wakes the caller, the reply of the call comes right after, and the
clock goes past the deadline before the caller is resumed. -/
def resumedLate : List (Label Unit ℤ) :=
  [.sent, .checkRemaining, .tryReceive, .arrive (.user (.reply 2 5 0)),
    .arrive (.user (.reply 3 6 0)), .tick 11, .resume, .conclude, .checkRemaining]

/-- Both timers are armed for the deadline of the call, and fire after the reply. -/
theorem call_deadline_wrongReplyFirst :
    (reached (step tenTicks) (start [.user (.cast ())] 100) (wrongReplyFirst.take 11)).armed =
      [110, 110] ∧
    (reached (step tenTicks) (start [.user (.cast ())] 100) (wrongReplyFirst.take 11 ++
      [.arrive (.user (.reply 3 6 0)), .tick 20, .fire 0, .resume, .conclude])).control =
      .returned 6 :=
  ⟨by decide +kernel, by
    have h := call_deadline (run_eq_reached (show (run (step tenTicks)
      (start [.user (.cast ())] 100) (wrongReplyFirst.take 11)).isSome = true by decide +kernel))
      (by decide +kernel)
    rw [show reached (step tenTicks) (start [.user (.cast ())] 100) (wrongReplyFirst.take 11 ++
      [.arrive (.user (.reply 3 6 0)), .tick 20, .fire 0, .resume, .conclude]) =
      reached (step tenTicks) (reached (step tenTicks) (start [.user (.cast ())] 100)
        (wrongReplyFirst.take 11)) [.arrive (.user (.reply 3 6 0)), .tick 20, .fire 0, .resume,
          .conclude] from rfl]
    exact ((h.2.2 6 0 6 [.tick 20, .fire 0, .resume, .conclude] _ (by decide)
      (run_eq_reached (by decide +kernel))).1 (by decide +kernel)).1 (by decide +kernel)⟩

/-- The claim that a reply which finds the caller suspended is returned fails while the caller is
in the ready queue. -/
theorem call_misses_reply :
    AllSteps (step tenTicks) (fun s l => logical s l = true) (start [] 100) resumedLate ∧
    (reached (step tenTicks) (start [] 100) (resumedLate.take 4)).control.awaiting = true ∧
    (reached (step tenTicks) (start [] 100) (resumedLate.take 4)).timedOut = false ∧
    (reached (step tenTicks) (start [] 100) resumedLate).control = .timedOut 111 := by
  decide +kernel

end CallLoop

end Agner
