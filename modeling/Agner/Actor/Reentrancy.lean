import Agner.Actor.Exceptions
import Agner.Actor.TimedReceive

/-!
Visitors that reach back into their own actor, on a single-threaded scheduler.

While a visitor runs it may send and stop, and the deliveries it triggers run visitors of other
actors on top of it. A message visitor runs in the middle of the search of the mailbox, before
the message is erased; a timeout visitor runs while its receive is still pending.

* `Tidy`: what holds in every reachable state, whatever visitors do.
* `Above`, `step_above`: the steps taken on top of a visitor of an actor leave that actor alone
  unless they deliver something to it.
* `visitor_undisturbed_iff`: the mailbox is the same from the search to the erasure if and only if
  nothing is delivered to the actor in between.
* `timeout_alone_iff`: a timer that fires resumes its receive once, with the value of the timeout
  visitor, and leaves what has been sent in the mailbox if and only if the receive accepts none of
  the messages that are delivered to its actor meanwhile.
-/

namespace Agner

open Runs

/-- The frame is a visitor. -/
def Frame.isVisitor : Frame → Bool
  | .visiting .. | .expiring _ => true
  | .running _ | .exiting .. => false

namespace Runtime

variable {M R : Type} {s t : Runtime M R} {m : Message M}

/-! ### Reachable states -/

/-- Only message visitors run on top of other code, and a pending receive belongs to its actor and
accepts no message of its mailbox. -/
structure Tidy (s : Runtime M R) : Prop where
  base : s.stack.Pairwise fun f _ => f.isVisiting = true
  pending : ∀ a r, (s.actors a).pending = some r → r < s.nextReceive ∧
    (s.receives r).actor = a ∧
    tryMatchMailbox (s.receives r).visitors (s.actors a).mailbox = none

lemma tidy_empty : Tidy ({} : Runtime M R) where
  base := List.Pairwise.nil
  pending a r h := absurd h (by simp)

/-- Nothing arrives, and no receive becomes pending. -/
lemma Tidy.relax (h : Tidy s) (hbase : t.stack.Pairwise fun f _ => f.isVisiting = true)
    (hpend : ∀ a r, (t.actors a).pending = some r → (s.actors a).pending = some r)
    (hmail : ∀ a, (t.actors a).mailbox.Sublist (s.actors a).mailbox)
    (hrecv : ∀ r < s.nextReceive, (t.receives r).actor = (s.receives r).actor ∧
      (t.receives r).visitors = (s.receives r).visitors)
    (hnext : s.nextReceive ≤ t.nextReceive) : Tidy t := by
  refine ⟨hbase, fun a r hr => ?_⟩
  obtain ⟨hlt, hact, hnone⟩ := h.pending a r (hpend a r hr)
  rw [(hrecv r hlt).1, (hrecv r hlt).2]
  exact ⟨hlt.trans_le hnext, hact, tryMatchMailbox_sublist hnone (hmail a)⟩

/-- Actors stay as they are, and receives keep their visitors. -/
lemma Tidy.control (h : Tidy s) (hactors : t.actors = s.actors)
    (hrecv : ∀ r, (t.receives r).actor = (s.receives r).actor ∧
      (t.receives r).visitors = (s.receives r).visitors)
    (hnext : t.nextReceive = s.nextReceive)
    (hbase : t.stack.Pairwise fun f _ => f.isVisiting = true) : Tidy t :=
  h.relax hbase (fun a r => by rw [hactors]; exact id) (fun a => by rw [hactors])
    (fun r _ => hrecv r) hnext.ge

/-- A message arrives at an actor whose pending receive does not accept it. -/
lemma Tidy.push (h : Tidy s) {a : ActorRef}
    (hp : ∀ r, (s.actors a).pending = some r →
      tryMatchMailbox (s.receives r).visitors ((s.pushMessage a m).actors a).mailbox = none) :
    Tidy (s.pushMessage a m) := by
  refine ⟨h.base, fun x r hr => ?_⟩
  by_cases hx : x = a
  · subst hx
    have hr' : (s.actors x).pending = some r := by simpa [pushMessage] using hr
    obtain ⟨hlt, hact, -⟩ := h.pending x r hr'
    exact ⟨hlt, hact, hp r hr'⟩
  · simp only [pushMessage, updateActor_actors, if_neg hx] at hr ⊢
    exact h.pending x r hr

lemma Tidy.resetPending (h : Tidy s) (a : ActorRef) :
    Tidy (s.updateActor a fun x => { x with pending := none }) := by
  refine h.relax h.base (fun x r hr => ?_) (fun x => ?_) (fun _ _ => ⟨rfl, rfl⟩) le_rfl
  · by_cases hx : x = a
    · simp [hx] at hr
    · simpa [hx] using hr
  · by_cases hx : x = a <;> simp [hx]

lemma Tidy.enqueue (h : Tidy s) (a : ActorRef) (m : Message M) : Tidy (s.enqueueMessage a m) := by
  rw [enqueueMessage, notifyWaiterLocked]
  have hpend : ((s.pushMessage a m).actors a).pending = (s.actors a).pending := by
    simp [pushMessage]
  rw [hpend]
  cases hp : (s.actors a).pending with
  | none => exact h.push fun r hr => absurd (hp.symm.trans hr) (by simp)
  | some r =>
      simp only
      split
      · rename_i hnone
        refine h.push fun r' hr' => ?_
        obtain rfl := Option.some.inj (hp.symm.trans hr')
        exact hnone
      · -- the message arrives at an actor without a waiter
        have hpush := (h.resetPending a).push (a := a) (m := m) fun r' hr' =>
          absurd hr' (by simp)
        refine hpush.relax (List.pairwise_cons.mpr ⟨fun _ _ => rfl, h.base⟩) (fun x r' hr' => ?_)
          (fun x => ?_) (fun r' _ => ?_) le_rfl
        · by_cases hx : x = a
          · simp [hx] at hr'
          · simpa [hx, pushMessage] using hr'
        · by_cases hx : x = a <;> simp [hx, pushMessage]
        · by_cases hr' : r' = r <;> simp [hr', pushMessage]

lemma Tidy.setExitReason (h : Tidy s) (a : ActorRef) (reason : ExitReason) :
    Tidy (s.updateActor a fun x => { x with exitReason := some reason }) := by
  refine h.relax h.base (fun x r hr => ?_) (fun x => ?_) (fun _ _ => ⟨rfl, rfl⟩) le_rfl
  · by_cases hx : x = a
    · simpa [hx] using hr
    · simpa [hx] using hr
  · by_cases hx : x = a <;> simp [hx]

lemma Tidy.send (h : Tidy s) (a : ActorRef) (m : Message M) : Tidy (s.send a m) := by
  rw [Runtime.send]
  split
  · exact h.enqueue a m
  · exact h

/-- The stack changes. -/
lemma Tidy.withStack (h : Tidy s) {stack : List Frame}
    (hbase : stack.Pairwise fun f _ => f.isVisiting = true) :
    Tidy ({ s with stack := stack } : Runtime M R) :=
  h.control rfl (fun _ => ⟨rfl, rfl⟩) rfl hbase

/-- The frames below the one on top. -/
lemma Tidy.tail (h : Tidy s) {f : Frame} {rest : List Frame} (hstack : s.stack = f :: rest) :
    rest.Pairwise fun f _ => f.isVisiting = true :=
  (List.pairwise_cons.mp (hstack ▸ h.base)).2

/-- Below a frame that is not a message visitor there is nothing. -/
lemma Tidy.rest_eq_nil (h : Tidy s) {f : Frame} {rest : List Frame} (hstack : s.stack = f :: rest)
    (hf : f.isVisiting = false) : rest = [] := by
  refine List.eq_nil_iff_forall_not_mem.mpr fun g hg => ?_
  have htrue := (List.pairwise_cons.mp (hstack ▸ h.base)).1 g hg
  exact absurd (hf.symm.trans htrue) (by simp)

lemma Tidy.newReceive (h : Tidy s) (a : ActorRef) (visitors : List (Visitor M)) (timed : Bool) :
    Tidy (s.newReceive a visitors timed) := by
  refine h.relax h.base (fun _ _ => id) (fun _ => List.Sublist.refl _) (fun r hr => ?_)
    (Nat.le_succ _)
  have hsame : (s.newReceive a visitors timed).receives r = s.receives r :=
    Function.update_of_ne hr.ne _ _
  rw [hsame]
  exact ⟨rfl, rfl⟩

lemma Tidy.suspend (h : Tidy s) {r : ℕ} (hlt : r < s.nextReceive)
    (hnone : tryMatchMailbox (s.receives r).visitors (s.actors (s.receives r).actor).mailbox =
      none) : Tidy (s.awaitSuspend r) := by
  have hset : Tidy (s.updateActor (s.receives r).actor fun x => { x with pending := some r }) := by
    refine ⟨h.base, fun a r' hr' => ?_⟩
    by_cases ha : a = (s.receives r).actor
    · obtain rfl : r = r' := by simpa [ha] using hr'
      refine ⟨hlt, ha.symm, ?_⟩
      simpa [ha] using hnone
    · simpa [ha] using h.pending a r' (by simpa [ha] using hr')
  refine hset.control rfl (fun r' => ?_) rfl hset.base
  by_cases hr : r' = r <;> simp [awaitSuspend, hr]

lemma Tidy.beginReceive (h : Tidy s) {a : ActorRef} {rest : List Frame}
    (hstack : s.stack = .running a :: rest) (visitors : List (Visitor M)) (timed : Bool) :
    Tidy (s.beginReceive a rest visitors timed) := by
  have hnew := h.newReceive a visitors timed
  rw [Runtime.beginReceive]
  split
  · exact hnew.withStack (List.pairwise_cons.mpr ⟨fun _ _ => rfl, h.base⟩)
  · rename_i hnone
    have hsuspend : Tidy ((s.newReceive a visitors timed).awaitSuspend s.nextReceive) := by
      refine hnew.suspend (Nat.lt_succ_self _) ?_
      simpa [Runtime.newReceive] using hnone
    exact hsuspend.withStack (h.tail hstack)

lemma Tidy.schedule (h : Tidy s) (r : ℕ) : Tidy (s.schedule r) := by
  refine h.control rfl (fun r' => ?_) rfl h.base
  by_cases hr : r' = r <;> simp [Runtime.schedule, hr]

lemma Tidy.completeMatch (h : Tidy s) (r position : ℕ) (e : Envelope M) (value : R) :
    Tidy (s.completeMatch r position e value) := by
  refine h.relax h.base (fun x r' hr' => ?_) (fun x => ?_) (fun r' _ => ?_) le_rfl
  · by_cases hx : x = (s.receives r).actor
    · simpa [hx, Runtime.completeMatch] using hr'
    · simpa [hx, Runtime.completeMatch] using hr'
  · by_cases hx : x = (s.receives r).actor
    · simpa [hx, Runtime.completeMatch] using List.eraseIdx_sublist _ _
    · simp [hx, Runtime.completeMatch]
  · by_cases hr : r' = r <;> simp [Runtime.completeMatch, hr]

lemma Tidy.visitorReturned (h : Tidy s) {r position : ℕ} {delivered : Bool} {rest : List Frame}
    (hstack : s.stack = .visiting r position delivered :: rest) (e : Envelope M) (value : R) :
    Tidy (s.visitorReturned rest r position delivered e value) := by
  have hdone := (h.completeMatch r position e value).withStack (h.tail hstack)
  rw [Runtime.visitorReturned]
  split
  · exact hdone.schedule r
  · refine hdone.control rfl (fun r' => ?_) rfl hdone.base
    by_cases hr : r' = r <;> simp [hr]

lemma Tidy.timeoutReturned (h : Tidy s) {r : ℕ} {rest : List Frame}
    (hstack : s.stack = .expiring r :: rest) (value : R) :
    Tidy (s.timeoutReturned rest r value) := by
  have hstored : Tidy (s.updateReceive r fun w =>
      { w with storage := some value, outcomes := w.outcomes ++ [Outcome.timeout] }) := by
    refine h.control rfl (fun r' => ?_) rfl h.base
    by_cases hr : r' = r <;> simp [hr]
  exact ((hstored.resetPending (s.receives r).actor).withStack (h.tail hstack)).schedule r

lemma Tidy.fireTimer (h : Tidy s) {r : ℕ} (hstack : s.stack = []) : Tidy (s.fireTimer r) := by
  have herased : Tidy ({ s with timers := s.timers.erase r } : Runtime M R) :=
    h.control rfl (fun _ => ⟨rfl, rfl⟩) rfl h.base
  rw [Runtime.fireTimer]
  split
  · refine herased.control rfl (fun r' => ?_) rfl ?_
    · by_cases hr : r' = r <;> simp [hr]
    · rw [hstack]
      exact List.pairwise_singleton _ _
  · exact herased

lemma Tidy.step (s : Runtime M R) (l : Label M R) (t : Runtime M R) (h : Tidy s)
    (ht : s.step l = some t) : Tidy t := by
  cases moves_of_step ht with
  | spawn | link | linkRaises | monitor | monitorRaises | stopRaises | throw | «catch» =>
      exact h.control rfl (fun _ => ⟨rfl, rfl⟩) rfl h.base
  | send target m => exact h.send target _
  | stop target reason => exact (h.setExitReason target reason).enqueue target _
  | receive visitors timed a rest hraise hstack => exact h.beginReceive hstack visitors timed
  | visitorReturn value r position delivered rest e hraise hstack he =>
      exact h.visitorReturned hstack e value
  | timeoutReturn value r rest hraise hstack => exact h.timeoutReturned hstack value
  | finish a rest hraise hstack =>
      rw [h.rest_eq_nil hstack rfl]
      exact h.control rfl (fun _ => ⟨rfl, rfl⟩) rfl (List.pairwise_singleton _ _)
  | signalled a rest hraise hstack => exact h.withStack (h.tail hstack)
  | signal a target sg signals rest hraise hstack =>
      rw [h.rest_eq_nil hstack rfl]
      exact (h.withStack (List.pairwise_singleton _ _)).send target _
  | unwindRunning a rest hraise hstack =>
      rw [h.rest_eq_nil hstack rfl]
      exact h.control rfl (fun _ => ⟨rfl, rfl⟩) rfl (List.pairwise_singleton _ _)
  | unwindExiting a signals rest hraise hstack =>
      exact h.control rfl (fun _ => ⟨rfl, rfl⟩) rfl (h.tail hstack)
  | unwindVisiting r position delivered rest hraise hstack =>
      split
      · exact h.withStack (h.tail hstack)
      · refine h.control rfl (fun r' => ?_) rfl (h.tail hstack)
        by_cases hr : r' = r <;> simp [hr]
  | unwindExpiring r rest hraise hstack => exact h.withStack (h.tail hstack)
  | resumeStart => exact h.control rfl (fun _ => ⟨rfl, rfl⟩) rfl (List.pairwise_singleton _ _)
  | resumeReceive r =>
      refine h.control rfl (fun r' => ?_) rfl (List.pairwise_singleton _ _)
      by_cases hr : r' = r <;> simp [hr]
  | fire r hraise hstack htimer => exact h.fireTimer hstack

/-! ### On top of a visitor -/

/-- The frames on top of `base` are message visitors of actors other than `a`. -/
def Above (base : List Frame) (a : ActorRef) (s : Runtime M R) : Prop :=
  ∃ upper, s.stack = upper ++ base ∧
    ∀ f ∈ upper, ∃ r position delivered,
      f = .visiting r position delivered ∧ (s.receives r).actor ≠ a

/-- The step stays on top of `base`. -/
def Within (base : List Frame) (s : Runtime M R) (l : Label M R) : Prop :=
  ∀ t, s.step l = some t → base <:+ t.stack

/-- The step delivers nothing to the actor. -/
def Spares (a : ActorRef) (s : Runtime M R) (l : Label M R) : Prop :=
  ∀ d ∈ s.delivery l, d.2.1 ≠ a

/-- The actor and its receives are the same. -/
structure Unchanged (a : ActorRef) (s t : Runtime M R) : Prop where
  actor : t.actors a = s.actors a
  receives : ∀ r, (s.receives r).actor = a → t.receives r = s.receives r

lemma Unchanged.refl (a : ActorRef) (s : Runtime M R) : Unchanged a s s := ⟨rfl, fun _ _ => rfl⟩

variable {base : List Frame} {a : ActorRef}

/-- The stack and the receives' actors are the same. -/
lemma Above.congr (h : Above base a s) (hstack : t.stack = s.stack)
    (hrecv : ∀ r, (t.receives r).actor = (s.receives r).actor) : Above base a t := by
  obtain ⟨upper, hupper, hall⟩ := h
  refine ⟨upper, hstack.trans hupper, fun f hf => ?_⟩
  obtain ⟨r, position, delivered, rfl, hne⟩ := hall f hf
  exact ⟨r, position, delivered, rfl, by rw [hrecv]; exact hne⟩

/-- A message visitor of another actor starts. -/
lemma Above.visit (h : Above base a s) {r position : ℕ} {delivered : Bool}
    (hstack : t.stack = .visiting r position delivered :: s.stack)
    (hr : (s.receives r).actor ≠ a)
    (hrecv : ∀ r, (t.receives r).actor = (s.receives r).actor) : Above base a t := by
  obtain ⟨upper, hupper, hall⟩ := h
  refine ⟨.visiting r position delivered :: upper, by rw [hstack, hupper, List.cons_append],
    fun f hf => ?_⟩
  rcases List.mem_cons.mp hf with rfl | hf
  · exact ⟨r, position, delivered, rfl, by rw [hrecv]; exact hr⟩
  · obtain ⟨r', position', delivered', rfl, hne⟩ := hall f hf
    exact ⟨r', position', delivered', rfl, by rw [hrecv]; exact hne⟩

/-- The frame on top of the stack, if it is left, is a message visitor of another actor. -/
lemma Above.pop (h : Above base a s) {f : Frame} {rest : List Frame} (hstack : s.stack = f :: rest)
    (hwithin : base <:+ rest) :
    ∃ r position delivered, f = .visiting r position delivered ∧ (s.receives r).actor ≠ a ∧
      Above base a ({ s with stack := rest } : Runtime M R) := by
  obtain ⟨upper, hupper, hall⟩ := h
  cases upper with
  | nil =>
      have hle := hwithin.length_le
      rw [← List.nil_append base, ← hupper, hstack, List.length_cons] at hle
      exact absurd hle (Nat.not_succ_le_self _)
  | cons g upper =>
      obtain ⟨rfl, rfl⟩ := List.cons.inj (hstack.symm.trans hupper)
      obtain ⟨r, position, delivered, rfl, hne⟩ := hall _ List.mem_cons_self
      exact ⟨r, position, delivered, rfl, hne, upper, rfl,
        fun g hg => hall g (List.mem_cons_of_mem _ hg)⟩

/-- The frame on top of the stack is a visitor. -/
lemma Above.top (h : Above base a s) {f g : Frame} {rest lower : List Frame}
    (hbase : base = g :: lower) (hg : g.isVisitor = true) (hstack : s.stack = f :: rest) :
    f.isVisitor = true := by
  obtain ⟨upper, hupper, hall⟩ := h
  cases upper with
  | nil =>
      rw [List.nil_append, hstack, hbase] at hupper
      rw [(List.cons.inj hupper).1]
      exact hg
  | cons x upper =>
      obtain ⟨rfl, -⟩ := List.cons.inj (hstack.symm.trans hupper)
      obtain ⟨r, position, delivered, rfl, -⟩ := hall _ List.mem_cons_self
      rfl

lemma Above.stack_ne_nil (h : Above base a s) {g : Frame} {lower : List Frame}
    (hbase : base = g :: lower) : s.stack ≠ [] := by
  obtain ⟨upper, hupper, -⟩ := h
  rw [hupper, hbase]
  simp

/-- A message is delivered to another actor. -/
lemma Above.enqueue (hs : Tidy s) (h : Above base a s) {b : ActorRef} (hb : b ≠ a)
    (m : Message M) :
    Above base a (s.enqueueMessage b m) ∧ Unchanged a s (s.enqueueMessage b m) := by
  rcases enqueueMessage_cases s b m with heq | ⟨r, position, hpend, -, heq⟩
  · rw [heq]
    exact ⟨h.congr rfl fun _ => rfl, by simp [pushMessage, hb.symm], fun _ _ => rfl⟩
  · obtain ⟨-, hact, -⟩ := hs.pending b r hpend
    rw [heq]
    refine ⟨h.visit rfl (by rw [hact]; exact hb) fun r' => ?_, by simp [pushMessage, hb.symm],
      fun r' hr' => ?_⟩
    · by_cases hr : r' = r <;> simp [hr, pushMessage]
    · have hne : r' ≠ r := by
        rintro rfl
        exact hb (hact.symm.trans hr')
      simp [hne, pushMessage]

/-- A message visitor of another actor returns. -/
lemma Unchanged.visitorReturned {r position : ℕ} {delivered : Bool} {rest : List Frame}
    (hr : (s.receives r).actor ≠ a) (e : Envelope M) (value : R) :
    Unchanged a s (s.visitorReturned rest r position delivered e value) := by
  refine ⟨?_, fun r' hr' => ?_⟩
  · cases delivered <;>
      simp [Runtime.visitorReturned, Runtime.schedule, Runtime.completeMatch, hr.symm]
  · have hne : r' ≠ r := by
      rintro rfl
      exact hr hr'
    cases delivered <;> simp [Runtime.visitorReturned, Runtime.schedule, Runtime.completeMatch, hne]

lemma actor_visitorReturned (s : Runtime M R) (rest : List Frame) (r position : ℕ)
    (delivered : Bool) (e : Envelope M) (value : R) (r' : ℕ) :
    ((s.visitorReturned rest r position delivered e value).receives r').actor =
      (s.receives r').actor := by
  by_cases hr : r' = r <;> cases delivered <;>
    simp [Runtime.visitorReturned, Runtime.schedule, Runtime.completeMatch, hr]

lemma stack_visitorReturned (s : Runtime M R) (rest : List Frame) (r position : ℕ)
    (delivered : Bool) (e : Envelope M) (value : R) :
    (s.visitorReturned rest r position delivered e value).stack = rest := by
  cases delivered <;> rfl

/-- A step taken on top of a visitor that delivers nothing to the actor leaves the actor as it
is. -/
lemma step_above (hs : Tidy s) {g : Frame} {lower : List Frame} (hbase : base = g :: lower)
    (hg : g.isVisitor = true) (h : Above base a s) {l : Label M R} (hwithin : Within base s l)
    (hspares : Spares a s l) (ht : s.step l = some t) : Above base a t ∧ Unchanged a s t := by
  have hsuffix := hwithin t ht
  cases moves_of_step ht with
  | spawn | link | linkRaises | monitor | monitorRaises | stopRaises | throw | «catch» =>
      exact ⟨h.congr rfl fun _ => rfl, rfl, fun _ _ => rfl⟩
  | send target m huser =>
      rw [Runtime.send]
      split
      · rename_i hreg
        refine h.enqueue hs ?_ _
        exact hspares (s, target, .user m) (by simp [delivery, huser, hreg])
      · exact ⟨h, Unchanged.refl a s⟩
  | stop target reason huser hreg =>
      set u := s.updateActor target fun x => { x with exitReason := some reason } with hu
      have hne : target ≠ a :=
        hspares (u, target, .signal (.exit target reason)) (by simp [delivery, huser, hreg, hu])
      have habove : Above base a u := h.congr rfl fun _ => rfl
      obtain ⟨hafter, hsame⟩ := habove.enqueue (hs.setExitReason target reason) hne
        (.signal (.exit target reason))
      refine ⟨hafter, hsame.actor.trans ?_, hsame.receives⟩
      simp [hne.symm]
  | receive visitors timed b rest hraise hstack =>
      exact absurd (h.top hbase hg hstack) (by simp [Frame.isVisitor])
  | visitorReturn value r position delivered rest e hraise hstack he =>
      rw [stack_visitorReturned] at hsuffix
      obtain ⟨r', _, _, hf, hne, hpop⟩ := h.pop hstack hsuffix
      obtain ⟨rfl, -, -⟩ := Frame.visiting.inj hf
      refine ⟨hpop.congr (stack_visitorReturned ..) fun r' => actor_visitorReturned .., ?_⟩
      exact Unchanged.visitorReturned hne e value
  | timeoutReturn value r rest hraise hstack =>
      obtain ⟨_, _, _, hf, -⟩ := h.pop hstack hsuffix
      cases hf
  | finish b rest hraise hstack =>
      exact absurd (h.top hbase hg hstack) (by simp [Frame.isVisitor])
  | signalled b rest hraise hstack =>
      exact absurd (h.top hbase hg hstack) (by simp [Frame.isVisitor])
  | signal b target sg signals rest hraise hstack =>
      exact absurd (h.top hbase hg hstack) (by simp [Frame.isVisitor])
  | unwindRunning b rest hraise hstack =>
      exact absurd (h.top hbase hg hstack) (by simp [Frame.isVisitor])
  | unwindExiting b signals rest hraise hstack =>
      exact absurd (h.top hbase hg hstack) (by simp [Frame.isVisitor])
  | unwindVisiting r position delivered rest hraise hstack =>
      have hrest : base <:+ rest := by
        cases delivered
        · exact hsuffix
        · exact hsuffix
      obtain ⟨r', _, _, hf, hne, hpop⟩ := h.pop hstack hrest
      obtain ⟨rfl, -, -⟩ := Frame.visiting.inj hf
      split
      · exact ⟨hpop, rfl, fun _ _ => rfl⟩
      · refine ⟨hpop.congr rfl fun r' => ?_, rfl, fun r' hr' => ?_⟩
        · by_cases hr : r' = r <;> simp [hr]
        · have hr : r' ≠ r := by
            rintro rfl
            exact hne hr'
          simp [hr]
  | unwindExpiring r rest hraise hstack =>
      obtain ⟨_, _, _, hf, -⟩ := h.pop hstack hsuffix
      cases hf
  | resumeStart b ready hraise hstack => exact absurd hstack (h.stack_ne_nil hbase)
  | resumeReceive r ready hraise hstack => exact absurd hstack (h.stack_ne_nil hbase)
  | fire r hraise hstack => exact absurd hstack (h.stack_ne_nil hbase)

/-! ### Message visitors -/

/-- The step leaves the mailbox of the actor as given. -/
def Undisturbed (a : ActorRef) (mailbox : List (Envelope M)) (s : Runtime M R) (l : Label M R) :
    Prop :=
  ∀ t, s.step l = some t → (t.actors a).mailbox = mailbox

/-- Steps on top of a visitor that deliver nothing to the actor. -/
lemma run_above {body : List (Label M R)} (hs : Tidy s) {g : Frame} {lower : List Frame}
    (hbase : base = g :: lower) (hg : g.isVisitor = true) (h : Above base a s)
    (hwithin : AllSteps step (Within base) s body) (hspares : AllSteps step (Spares a) s body) :
    AllSteps step (Undisturbed a (s.actors a).mailbox) s body ∧
      ∀ t, run step s body = some t → Unchanged a s t := by
  induction body generalizing s with
  | nil =>
      refine ⟨trivial, fun t ht => ?_⟩
      obtain rfl := Option.some.inj ht
      exact Unchanged.refl a s
  | cons l body ih =>
      have hnext : ∀ u, s.step l = some u → Unchanged a s u ∧
          AllSteps step (Undisturbed a (u.actors a).mailbox) u body ∧
            ∀ t, run step u body = some t → Unchanged a u t := by
        intro u hu
        obtain ⟨habove, hsame⟩ := step_above hs hbase hg h hwithin.1 hspares.1 hu
        exact ⟨hsame, ih (Tidy.step s l u hs hu) habove (hwithin.2 u hu) (hspares.2 u hu)⟩
      refine ⟨⟨fun u hu => ?_, fun u hu => ?_⟩, fun t ht => ?_⟩
      · rw [(hnext u hu).1.actor]
      · rw [← (hnext u hu).1.actor]
        exact (hnext u hu).2.1
      · rw [run_cons, Option.bind_eq_some_iff] at ht
        obtain ⟨u, hu, ht⟩ := ht
        obtain ⟨hsame, -, hrest⟩ := hnext u hu
        have hlater := hrest t ht
        have hactor : ∀ r, (s.receives r).actor = a → (u.receives r).actor = a := fun r hr => by
          rw [hsame.receives r hr]
          exact hr
        exact ⟨hlater.actor.trans hsame.actor, fun r hr =>
          (hlater.receives r (hactor r hr)).trans (hsame.receives r hr)⟩

/-- A delivery finds the mailbox as it is, and the message is added to it. -/
lemma mailbox_of_delivery {u : Runtime M R} {l : Label M R} (h : s.delivery l = some (u, a, m)) :
    ∃ e, ((u.enqueueMessage a m).actors a).mailbox = (s.actors a).mailbox ++ [e] := by
  have hbox : (u.actors a).mailbox = (s.actors a).mailbox := by
    cases l with
    | send target x =>
        simp only [delivery, Option.ite_none_right_eq_some, Option.some.injEq,
          Prod.mk.injEq] at h
        rw [← h.2.1]
    | stop target reason =>
        simp only [delivery, Option.ite_none_right_eq_some, Option.some.injEq,
          Prod.mk.injEq] at h
        obtain ⟨-, rfl, rfl, -⟩ := h
        simp
    | signal =>
        simp only [delivery] at h
        split at h
        · simp only [Option.ite_none_right_eq_some, Option.some.injEq, Prod.mk.injEq] at h
          rw [← h.2.1]
        · cases h
    | _ => simp [delivery] at h
  refine ⟨{ stamp := (u.actors a).enqueued.length, body := m }, ?_⟩
  rw [← hbox]
  rcases enqueueMessage_cases u a m with heq | ⟨r, position, -, -, heq⟩
  · rw [heq]
    simp [pushMessage]
  · rw [heq]
    simp [pushMessage]

/-- A mailbox that stays the same has nothing delivered to it. -/
lemma spares_of_undisturbed {body : List (Label M R)} {mailbox : List (Envelope M)}
    (hbox : (s.actors a).mailbox = mailbox)
    (h : AllSteps step (Undisturbed a mailbox) s body) : AllSteps step (Spares a) s body := by
  induction body generalizing s with
  | nil => trivial
  | cons l body ih =>
      refine ⟨fun d hd => ?_, fun u hu => ih (h.1 u hu) (h.2 u hu)⟩
      obtain ⟨u, b, m⟩ := d
      rintro rfl
      obtain ⟨e, he⟩ := mailbox_of_delivery hd
      have hsame := h.1 _ (step_of_delivery hd).1
      rw [he, hbox] at hsame
      simpa using congrArg List.length hsame

/-- From the search of a mailbox to the return of the visitor it has found, the mailbox stays the
same, and loses just the message found, if and only if nothing is delivered to the actor in
between. -/
theorem visitor_undisturbed_iff {labels body : List (Label M R)} {s t : Runtime M R}
    {r position : ℕ} {delivered : Bool} {rest : List Frame}
    (hrun : run step {} labels = some s)
    (hstack : s.stack = .visiting r position delivered :: rest)
    (hbody : run step s body = some t) (hwithin : AllSteps step (Within s.stack) s body)
    (hend : t.stack = s.stack) :
    (AllSteps step (Undisturbed (s.receives r).actor (s.actors (s.receives r).actor).mailbox)
        s body ∧
      ∀ value u, t.step (.visitorReturn value) = some u →
        (u.actors (s.receives r).actor).mailbox =
          (s.actors (s.receives r).actor).mailbox.eraseIdx position) ↔
      AllSteps step (Spares (s.receives r).actor) s body := by
  refine ⟨fun h => spares_of_undisturbed rfl h.1, fun hspares => ?_⟩
  have hs : Tidy s := invariant_of_step Tidy.step tidy_empty hrun
  have habove : Above s.stack (s.receives r).actor s := ⟨[], rfl, fun f hf => by simp at hf⟩
  obtain ⟨hundisturbed, hunchanged⟩ := run_above hs hstack rfl habove hwithin hspares
  refine ⟨hundisturbed, fun value u hu => ?_⟩
  have hsame := hunchanged t hbody
  have hrecv : t.receives r = s.receives r := hsame.receives r rfl
  cases moves_of_step hu with
  | visitorReturn value r' position' delivered' rest' e hraise hstack' he =>
      obtain ⟨hf, rfl⟩ := List.cons.inj (hstack'.symm.trans (hend.trans hstack))
      obtain ⟨rfl, rfl, rfl⟩ := Frame.visiting.inj hf
      rw [← hsame.actor]
      cases delivered' <;>
        simp [Runtime.visitorReturned, Runtime.schedule, Runtime.completeMatch, hrecv]

/-- An actor with a message in its mailbox receives it, and the visitor starts. -/
def receiveQueued : List (Label ℕ ℕ) :=
  [.spawn 0 0, .resume, .send 1 5, .receive [fun _ => true] false]

/-- What the visitor does: it spawns another actor and sends it a message. -/
def talksToOthers : List (Label ℕ ℕ) := [.spawn 0 0, .send 2 7]

lemma within_talksToOthers :
    AllSteps step (Within (reached step {} receiveQueued).stack) (reached step {} receiveQueued)
      talksToOthers := by
  refine ⟨fun t ht => ?_, fun t ht => ⟨fun u hu => ?_, fun _ _ => trivial⟩⟩
  · obtain rfl := Option.some.inj ht
    exact ⟨[], rfl⟩
  · obtain rfl := Option.some.inj ht
    obtain rfl := Option.some.inj hu
    exact ⟨[], rfl⟩

lemma spares_talksToOthers :
    AllSteps step (Spares 1) (reached step {} receiveQueued) talksToOthers := by
  refine ⟨fun d hd => by simp [delivery] at hd, fun t ht => ⟨fun d hd => ?_, fun _ _ => trivial⟩⟩
  simp only [delivery, Option.mem_def, Option.ite_none_right_eq_some, Option.some.injEq] at hd
  rw [← hd.2]
  simp

/-- A visitor that talks to others leaves the mailbox alone. -/
theorem visitor_undisturbed_talksToOthers :
    run step {} receiveQueued = some (reached step {} receiveQueued) ∧
      (run step (reached step {} receiveQueued) talksToOthers).isSome = true ∧
      AllSteps step (Spares 1) (reached step {} receiveQueued) talksToOthers ∧
      AllSteps step (Undisturbed 1 ((reached step {} receiveQueued).actors 1).mailbox)
        (reached step {} receiveQueued) talksToOthers := by
  have hrun : run step {} receiveQueued = some (reached step {} receiveQueued) :=
    run_eq_reached (by decide +kernel)
  have hbody : (run step (reached step {} receiveQueued) talksToOthers).isSome = true := by
    decide +kernel
  have hiff := visitor_undisturbed_iff hrun rfl (run_eq_reached hbody) within_talksToOthers rfl
  exact ⟨hrun, hbody, spares_talksToOthers, (hiff.mpr spares_talksToOthers).1⟩

/-- A visitor that sends its own actor a message adds it to the mailbox that is being searched. -/
theorem visitor_disturbs_receiveQueued :
    run step {} receiveQueued = some (reached step {} receiveQueued) ∧
      (reached step {} receiveQueued).stack = [.visiting 0 0 false, .running 1] ∧
      ((reached step {} receiveQueued).actors 1).mailbox.length = 1 ∧
      ((reached step (reached step {} receiveQueued) [.send 1 6]).actors 1).mailbox.length = 2 ∧
      ¬ AllSteps step (Undisturbed 1 ((reached step {} receiveQueued).actors 1).mailbox)
        (reached step {} receiveQueued) [.send 1 6] := by
  refine ⟨run_eq_reached (by decide +kernel), rfl, by decide +kernel, by decide +kernel,
    fun h => ?_⟩
  have hsame := congrArg List.length (h.1 _ rfl)
  exact absurd hsame (by decide +kernel)

/-! ### Timeout visitors -/

/-- The receive is pending, and its timer is running. -/
structure Suspended (s : Runtime M R) (r : ℕ) : Prop where
  pending : (s.actors (s.receives r).actor).pending = some r
  active : (s.receives r).active = some true

/-- No message visitor of the receive starts. -/
def NoVisitor (r : ℕ) (s : Runtime M R) (l : Label M R) : Prop :=
  ∀ t, s.step l = some t → r ∉ t.visited

/-- The step delivers nothing to the actor of the receive that the receive accepts. -/
def Unaccepted (r : ℕ) (s : Runtime M R) (l : Label M R) : Prop :=
  ∀ d ∈ s.delivery l, d.2.1 = (s.receives r).actor →
    tryMatchVisitors (s.receives r).visitors d.2.2 = false

/-- The receive has timed out: its handle has been scheduled once, its result is the value of the
timeout visitor, and what has been sent to its actor is in the mailbox. -/
structure TimedOut (s : Runtime M R) (r : ℕ) (value : R) (t : Runtime M R) : Prop where
  scheduled : (t.receives r).scheduled = (s.receives r).scheduled + 1
  storage : (t.receives r).storage = some value
  outcomes : (t.receives r).outcomes = (s.receives r).outcomes ++ [.timeout]
  mail : ∃ sent,
    (t.actors (s.receives r).actor).enqueued = (s.actors (s.receives r).actor).enqueued ++ sent ∧
    (t.actors (s.receives r).actor).mailbox = (s.actors (s.receives r).actor).mailbox ++ sent

/-- The timeout visitor that started in `s` is running, and its receive has not been touched. -/
structure Expiring (s : Runtime M R) (r : ℕ) (t : Runtime M R) : Prop where
  tidy : Tidy t
  above : Above [.expiring r] (s.receives r).actor t
  pending : (t.actors (s.receives r).actor).pending = some r
  receive : t.receives r = s.receives r
  mail : ∃ sent,
    (t.actors (s.receives r).actor).enqueued = (s.actors (s.receives r).actor).enqueued ++ sent ∧
    (t.actors (s.receives r).actor).mailbox = (s.actors (s.receives r).actor).mailbox ++ sent

lemma Expiring.not_visited {u : Runtime M R} {r : ℕ} (h : Expiring s r u) : r ∉ u.visited := by
  rw [mem_visited]
  rintro ⟨position, delivered, hmem⟩
  obtain ⟨upper, hupper, hall⟩ := h.above
  rw [hupper, List.mem_append] at hmem
  rcases hmem with hmem | hmem
  · obtain ⟨r', position', delivered', heq, hne⟩ := hall _ hmem
    obtain ⟨rfl, -, -⟩ := Frame.visiting.inj heq
    exact hne (by rw [h.receive])
  · simp at hmem

/-- A delivery on top of a visitor finds all actors as they are, up to an exit reason. -/
lemma delivery_above {g : Frame} {lower : List Frame} (hbase : base = g :: lower)
    (hg : g.isVisitor = true) (h : Above base a s) {u : Runtime M R} {b : ActorRef}
    {l : Label M R} (hd : s.delivery l = some (u, b, m)) :
    u.stack = s.stack ∧ u.receives = s.receives ∧ u.nextReceive = s.nextReceive ∧
      ∀ x, (u.actors x).pending = (s.actors x).pending ∧
        (u.actors x).mailbox = (s.actors x).mailbox ∧
        (u.actors x).enqueued = (s.actors x).enqueued := by
  cases l with
  | send target x =>
      simp only [delivery, Option.ite_none_right_eq_some, Option.some.injEq, Prod.mk.injEq] at hd
      obtain ⟨-, rfl, -⟩ := hd
      exact ⟨rfl, rfl, rfl, fun _ => ⟨rfl, rfl, rfl⟩⟩
  | stop target reason =>
      simp only [delivery, Option.ite_none_right_eq_some, Option.some.injEq, Prod.mk.injEq] at hd
      obtain ⟨-, rfl, rfl, -⟩ := hd
      refine ⟨rfl, rfl, rfl, fun x => ?_⟩
      by_cases hx : x = target <;> simp [hx]
  | signal =>
      simp only [delivery] at hd
      split at hd
      · rename_i hstack
        exact absurd (h.top hbase hg hstack) (by simp [Frame.isVisitor])
      · cases hd
  | _ => simp [delivery] at hd

/-- A message that the pending receive does not accept is left in the mailbox. -/
lemma enqueueMessage_of_unaccepted {r : ℕ} (hs : Tidy s) (hp : (s.actors a).pending = some r)
    (hm : tryMatchVisitors (s.receives r).visitors m = false) :
    s.enqueueMessage a m = s.pushMessage a m := by
  have hpend : ((s.pushMessage a m).actors a).pending = some r := by simp [pushMessage, hp]
  have hnone : tryMatchMailbox ((s.pushMessage a m).receives r).visitors
      ((s.pushMessage a m).actors a).mailbox = none := by
    refine tryMatchMailbox_eq_none.mpr fun e he => ?_
    have hmem : e ∈ (s.actors a).mailbox ∨
        e = { stamp := (s.actors a).enqueued.length, body := m } := by
      simpa [pushMessage] using he
    rcases hmem with hmem | rfl
    · exact tryMatchMailbox_eq_none.mp (hs.pending a r hp).2.2 e hmem
    · exact hm
  rw [enqueueMessage, notifyWaiterLocked, hpend]
  simp only [hnone]

/-- A message that the receive does not accept is delivered to its actor. -/
lemma Expiring.push {u : Runtime M R} {r : ℕ} (h : Expiring s r u)
    (hm : tryMatchVisitors (s.receives r).visitors m = false) :
    Expiring s r (u.enqueueMessage (s.receives r).actor m) := by
  have hpush : u.enqueueMessage (s.receives r).actor m = u.pushMessage (s.receives r).actor m :=
    enqueueMessage_of_unaccepted h.tidy h.pending (by rw [h.receive]; exact hm)
  have htidy := h.tidy.enqueue (s.receives r).actor m
  obtain ⟨sent, henq, hbox⟩ := h.mail
  rw [hpush] at htidy ⊢
  refine ⟨htidy, h.above.congr rfl fun _ => rfl, by simp [pushMessage, h.pending], h.receive,
    sent ++ [⟨(u.actors (s.receives r).actor).enqueued.length, m⟩], ?_, ?_⟩
  · simp [pushMessage, henq]
  · simp [pushMessage, hbox]

/-- What a delivery finds. -/
lemma Expiring.finds {u v : Runtime M R} {r : ℕ} {b : ActorRef} {l : Label M R}
    (h : Expiring s r u) (hd : u.delivery l = some (v, b, m)) : Expiring s r v := by
  obtain ⟨hstack, hrecv, hnext, hsame⟩ := delivery_above rfl rfl h.above hd
  have htidy : Tidy v := by
    refine h.tidy.relax (by rw [hstack]; exact h.tidy.base) (fun x r' hr' => ?_) (fun x => ?_)
      (fun _ _ => by rw [hrecv]; exact ⟨rfl, rfl⟩) hnext.ge
    · rw [← (hsame x).1]
      exact hr'
    · rw [(hsame x).2.1]
  obtain ⟨sent, henq, hbox⟩ := h.mail
  refine ⟨htidy, h.above.congr hstack fun _ => by rw [hrecv], (hsame _).1.trans h.pending,
    by rw [hrecv]; exact h.receive, sent, (hsame _).2.2.trans henq, (hsame _).2.1.trans hbox⟩

lemma Expiring.step {u v : Runtime M R} {r : ℕ} {l : Label M R} (h : Expiring s r u)
    (hwithin : Within [.expiring r] u l) (hok : Unaccepted r u l) (hv : u.step l = some v) :
    Expiring s r v := by
  by_cases hspares : Spares (s.receives r).actor u l
  · obtain ⟨habove, hsame⟩ := step_above h.tidy rfl rfl h.above hwithin hspares hv
    obtain ⟨sent, henq, hbox⟩ := h.mail
    refine ⟨Tidy.step u l v h.tidy hv, habove, ?_, ?_, sent, ?_, ?_⟩
    · rw [hsame.actor]
      exact h.pending
    · rw [hsame.receives r (by rw [h.receive])]
      exact h.receive
    · rw [hsame.actor]
      exact henq
    · rw [hsame.actor]
      exact hbox
  · simp only [Spares, not_forall, not_not] at hspares
    obtain ⟨⟨w, b, m⟩, hd, rfl⟩ := hspares
    obtain rfl := Option.some.inj ((step_of_delivery hd).1.symm.trans hv)
    have hm := hok _ hd (by rw [h.receive])
    rw [h.receive] at hm
    exact (h.finds hd).push hm

/-- A message that the receive accepts runs a visitor of it. -/
lemma Expiring.unaccepted {u : Runtime M R} {r : ℕ} {l : Label M R} (h : Expiring s r u)
    (hno : NoVisitor r u l) : Unaccepted r u l := by
  rintro ⟨w, b, m⟩ hd rfl
  by_contra hacc
  rw [Bool.not_eq_false] at hacc
  obtain ⟨hstep, -, hrecv, -, hpend⟩ := step_of_delivery hd
  have hp : (w.actors (u.receives r).actor).pending = some r := by
    rw [hpend, h.receive]
    exact h.pending
  obtain ⟨position, heq⟩ := enqueueMessage_of_accepted hp (by rw [hrecv]; exact hacc)
  refine hno _ hstep (mem_visited.mpr ⟨position, true, ?_⟩)
  rw [heq]
  exact List.mem_cons_self

/-- While the timeout visitor runs, no message visitor of its receive does if and only if nothing
that the receive accepts is delivered. -/
lemma run_expiring {u : Runtime M R} {r : ℕ} {body : List (Label M R)} (h : Expiring s r u)
    (hwithin : AllSteps step (Within [.expiring r]) u body) :
    (AllSteps step (NoVisitor r) u body ↔ AllSteps step (Unaccepted r) u body) ∧
      (AllSteps step (Unaccepted r) u body → ∀ t, run step u body = some t → Expiring s r t) := by
  induction body generalizing u with
  | nil =>
      refine ⟨Iff.rfl, fun _ t ht => ?_⟩
      obtain rfl := Option.some.inj ht
      exact h
  | cons l body ih =>
      have hnext : Unaccepted r u l → ∀ v, u.step l = some v → Expiring s r v :=
        fun hok v hv => h.step hwithin.1 hok hv
      refine ⟨⟨fun hno => ?_, fun hok => ?_⟩, fun hok t ht => ?_⟩
      · have hok := h.unaccepted hno.1
        exact ⟨hok, fun v hv => (ih (hnext hok v hv) (hwithin.2 v hv)).1.mp (hno.2 v hv)⟩
      · exact ⟨fun v hv => (hnext hok.1 v hv).not_visited,
          fun v hv => (ih (hnext hok.1 v hv) (hwithin.2 v hv)).1.mpr (hok.2 v hv)⟩
      · rw [run_cons, Option.bind_eq_some_iff] at ht
        obtain ⟨v, hv, ht⟩ := ht
        exact (ih (hnext hok.1 v hv) (hwithin.2 v hv)).2 (hok.2 v hv) t ht

/-- The timer of a suspended receive fires. -/
lemma Suspended.fire {r : ℕ} (hs : Tidy s) (h : Suspended s r) (ht : s.step (.fire r) = some t) :
    t.stack = [.expiring r] ∧ t.actors = s.actors ∧
      t.receives r = { s.receives r with active := some false, stage := .expiring } ∧
      Expiring t r t := by
  have htidy := Tidy.step s _ t hs ht
  cases moves_of_step ht with
  | fire r hraise hstack htimer =>
      have hfire : s.fireTimer r =
          { ({ s with timers := s.timers.erase r } : Runtime M R).updateReceive r
              fun w => { w with active := some false, stage := .expiring } with
            stack := .expiring r :: s.stack } := by
        rw [Runtime.fireTimer]
        exact if_pos h.active
      rw [hfire] at htidy ⊢
      have hrecv : (({ s with timers := s.timers.erase r } : Runtime M R).updateReceive r
          fun w => { w with active := some false, stage := .expiring }).receives r =
          { s.receives r with active := some false, stage := .expiring } := by simp
      refine ⟨by rw [hstack], rfl, hrecv, htidy, ⟨[], by rw [hstack]; rfl, by simp⟩, ?_, rfl, [],
        by simp, by simp⟩
      rw [hrecv]
      exact h.pending

/-- The timer of a suspended receive fires and its timeout visitor runs to its end. The handle is
scheduled once, with the value of the timeout visitor, no message visitor of the receive runs,
and what has been sent to the actor stays in its mailbox if and only if the receive accepts none
of the messages delivered to its actor meanwhile. -/
theorem timeout_alone_iff {labels body : List (Label M R)} {s v t u : Runtime M R} {r : ℕ}
    {value : R} (hrun : run step {} labels = some s) (hsuspended : Suspended s r)
    (hfire : s.step (.fire r) = some v) (hbody : run step v body = some t)
    (hwithin : AllSteps step (Within v.stack) v body) (hend : t.stack = v.stack)
    (hreturn : t.step (.timeoutReturn value) = some u) :
    AllSteps step (NoVisitor r) v body ∧ TimedOut s r value u ↔
      AllSteps step (Unaccepted r) v body := by
  have hs : Tidy s := invariant_of_step Tidy.step tidy_empty hrun
  obtain ⟨hstack, hactors, hrecv, hexpiring⟩ := hsuspended.fire hs hfire
  rw [hstack] at hwithin hend
  obtain ⟨hiff, hkept⟩ := run_expiring hexpiring hwithin
  refine ⟨fun h => hiff.mp h.1, fun hok => ⟨hiff.mpr hok, ?_⟩⟩
  have ht := hkept hok t hbody
  have hactor : (v.receives r).actor = (s.receives r).actor := by rw [hrecv]
  obtain ⟨sent, henq, hbox⟩ := ht.mail
  rw [hactor, hactors] at henq hbox
  cases moves_of_step hreturn with
  | timeoutReturn value r' rest hraise hstack' =>
      obtain ⟨hf, rfl⟩ := List.cons.inj (hstack'.symm.trans hend)
      obtain rfl := Frame.expiring.inj hf
      have hsame : t.receives r' =
          { s.receives r' with active := some false, stage := .expiring } :=
        ht.receive.trans hrecv
      refine ⟨?_, ?_, ?_, sent, ?_, ?_⟩
      · simp [Runtime.timeoutReturned, Runtime.schedule, hsame]
      · simp [Runtime.timeoutReturned, Runtime.schedule]
      · simp [Runtime.timeoutReturned, Runtime.schedule, hsame]
      · simp [Runtime.timeoutReturned, Runtime.schedule, hsame, henq]
      · simp [Runtime.timeoutReturned, Runtime.schedule, hsame, hbox]

/-- An actor waits for a signal, with a timeout. -/
def signalTimesOut : List (Label ℕ ℕ) :=
  [.spawn 0 0, .resume,
    .receive [fun m => match m with | .signal _ => true | .user _ => false] true]

/-- A timeout visitor that sends its own actor a message its receive does not accept. -/
theorem timeout_alone_signalTimesOut :
    ∃ s v t u : Runtime ℕ ℕ, run step {} signalTimesOut = some s ∧ Suspended s 0 ∧
      s.step (.fire 0) = some v ∧ run step v [.send 1 7] = some t ∧
      t.step (.timeoutReturn 9) = some u ∧ AllSteps step (Unaccepted 0) v [.send 1 7] ∧
      TimedOut s 0 9 u := by
  have hrun := run_eq_reached (show (run step {} (signalTimesOut ++ [Label.fire 0] ++
    [Label.send 1 7] ++ [Label.timeoutReturn 9])).isSome = true by decide +kernel)
  obtain ⟨t, ht, hreturn⟩ := run_concat.mp hrun
  obtain ⟨v, hv, hsend⟩ := run_concat.mp ht
  obtain ⟨s, hs, hfire⟩ := run_concat.mp hv
  have hsuspended : Suspended s 0 := by
    obtain rfl : reached step {} signalTimesOut = s := by rw [reached, hs]; rfl
    exact ⟨by decide +kernel, by decide +kernel⟩
  have hstack : v.stack = [.expiring 0] ∧ t.stack = [.expiring 0] := by
    obtain rfl : reached step {} (signalTimesOut ++ [Label.fire 0]) = v := by rw [reached, hv]; rfl
    obtain rfl : reached step {} (signalTimesOut ++ [Label.fire 0] ++ [Label.send 1 7]) = t := by
      rw [reached, ht]; rfl
    exact ⟨rfl, rfl⟩
  have hvisitors : (v.receives 0).visitors =
      [fun m => match m with | .signal _ => true | .user _ => false] := by
    obtain rfl : reached step {} (signalTimesOut ++ [Label.fire 0]) = v := by rw [reached, hv]; rfl
    rfl
  have hwithin : AllSteps step (Within v.stack) v [.send 1 7] := by
    refine ⟨fun t' ht' => ?_, fun _ _ => trivial⟩
    obtain rfl := Option.some.inj (hsend.symm.trans ht')
    rw [hstack.1, hstack.2]
  have hok : AllSteps step (Unaccepted 0) v [.send 1 7] := by
    refine ⟨fun d hd _ => ?_, fun _ _ => trivial⟩
    simp only [delivery, Option.mem_def, Option.ite_none_right_eq_some, Option.some.injEq] at hd
    rw [← hd.2, hvisitors]
    rfl
  have hbody : run step v [.send 1 7] = some t := by rw [run_cons, hsend]; rfl
  have hiff := timeout_alone_iff hs hsuspended hfire hbody hwithin
    (hstack.2.trans hstack.1.symm) hreturn
  exact ⟨s, v, t, _, hs, hsuspended, hfire, hbody, hreturn, hok, (hiff.mpr hok).2⟩

/-- An actor waits for any message, with a timeout. -/
def anyTimesOut : List (Label ℕ ℕ) := [.spawn 0 0, .resume, .receive [fun _ => true] true]

/-- The timer fires, and the timeout visitor sends its own actor a message: the message visitor of
the receive runs on it in the middle of the timeout visitor. -/
def sendsToSelf : List (Label ℕ ℕ) := [.fire 0, .send 1 7, .visitorReturn 3, .timeoutReturn 9]

/-- The message is gone, and the handle has been scheduled twice. -/
theorem timeout_scheduled_twice :
    run step {} anyTimesOut = some (reached step {} anyTimesOut) ∧
      Suspended (reached step {} anyTimesOut) 0 ∧
      run step (reached step {} anyTimesOut) sendsToSelf =
        some (reached step (reached step {} anyTimesOut) sendsToSelf) ∧
      ((reached step (reached step {} anyTimesOut) sendsToSelf).receives 0).scheduled = 2 ∧
      ((reached step (reached step {} anyTimesOut) sendsToSelf).receives 0).outcomes.length = 2 ∧
      ((reached step (reached step {} anyTimesOut) sendsToSelf).actors 1).mailbox.length = 0 ∧
      ¬ TimedOut (reached step {} anyTimesOut) 0 9
        (reached step (reached step {} anyTimesOut) sendsToSelf) := by
  refine ⟨run_eq_reached (by decide +kernel), ⟨by decide +kernel, by decide +kernel⟩,
    run_eq_reached (by decide +kernel), by decide +kernel, by decide +kernel, by decide +kernel,
    fun h => ?_⟩
  exact absurd h.scheduled (by decide +kernel)

end Runtime

end Agner
