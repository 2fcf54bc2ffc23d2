import Agner.Actor.Retries

/-!
The order in which an actor takes messages out of its mailbox, whether its visitors return or
throw, are caught and run again, or deliver to other actors while they run.

* `Grows`: a step that takes nothing adds at most newer messages.
* `Ordered`: the invariant. A receive takes a message only after all older ones that it accepts.
* `never_overtaken`: so it is in every reachable state, and messages that every receive of an actor
  accepts are taken in the order in which they have arrived.

Runs in which a visitor adds to the mailbox it is running on are not excluded. The iterator of the
source is invalid after that; the machine goes on with the position that has been found.
-/

namespace Agner

open Runs

namespace Runtime

variable {M R : Type} {s t u : Runtime M R} {a : ActorRef}

/-- One of the visitors of the receive accepts the message. -/
def Accepts (s : Runtime M R) (r : ℕ) (m : Message M) : Prop :=
  tryMatchVisitors (s.receives r).visitors m = true

/-! ### What a step takes -/

/-- Nothing is taken, and what arrives is the newest. -/
structure Grows (s t : Runtime M R) : Prop where
  grows : ∀ a, ∃ new, (t.actors a).mailbox = (s.actors a).mailbox ++ new ∧
    (t.actors a).enqueued = (s.actors a).enqueued ++ new ∧
    (t.actors a).consumed = (s.actors a).consumed
  receives : ∀ r < s.nextReceive, (t.receives r).actor = (s.receives r).actor ∧
    (t.receives r).visitors = (s.receives r).visitors
  nextReceive : s.nextReceive ≤ t.nextReceive

lemma grows_of_same (hmail : ∀ a, SameMail (t.actors a) (s.actors a))
    (hrecv : ∀ r < s.nextReceive, (t.receives r).actor = (s.receives r).actor ∧
      (t.receives r).visitors = (s.receives r).visitors)
    (hnext : s.nextReceive ≤ t.nextReceive) : Grows s t := by
  refine ⟨fun a => ⟨[], ?_, ?_, (hmail a).2.2⟩, hrecv, hnext⟩
  · rw [(hmail a).1, List.append_nil]
  · rw [(hmail a).2.1, List.append_nil]

lemma Grows.trans (h : Grows s t) (h' : Grows t u) : Grows s u := by
  refine ⟨fun a => ?_, fun r hr => ?_, h.nextReceive.trans h'.nextReceive⟩
  · obtain ⟨new, hbox, henq, hcons⟩ := h.grows a
    obtain ⟨new', hbox', henq', hcons'⟩ := h'.grows a
    refine ⟨new ++ new', ?_, ?_, hcons'.trans hcons⟩
    · rw [hbox', hbox, List.append_assoc]
    · rw [henq', henq, List.append_assoc]
  · have hr' := h'.receives r (hr.trans_le h.nextReceive)
    exact ⟨hr'.1.trans (h.receives r hr).1, hr'.2.trans (h.receives r hr).2⟩

lemma grows_enqueueMessage (s : Runtime M R) (a : ActorRef) (m : Message M) :
    Grows s (s.enqueueMessage a m) := by
  have hpush : Grows s (s.pushMessage a m) := by
    refine ⟨fun x => ?_, fun _ _ => ⟨rfl, rfl⟩, le_rfl⟩
    by_cases hx : x = a
    · subst hx
      exact ⟨[{ stamp := (s.actors x).enqueued.length, body := m }], by simp [pushMessage],
        by simp [pushMessage], by simp [pushMessage]⟩
    · exact ⟨[], by simp [pushMessage, hx], by simp [pushMessage, hx], by simp [pushMessage, hx]⟩
  rcases enqueueMessage_cases s a m with heq | ⟨r, position, -, -, heq⟩
  · rw [heq]
    exact hpush
  · rw [heq]
    refine hpush.trans (grows_of_same (fun x => ?_) (fun r' _ => ?_) le_rfl)
    · by_cases hx : x = a <;> simp [SameMail, hx]
    · by_cases hr : r' = r <;> simp [hr]

lemma grows_send (s : Runtime M R) (a : ActorRef) (m : Message M) : Grows s (s.send a m) := by
  rw [Runtime.send]
  split
  · exact grows_enqueueMessage s a m
  · exact grows_of_same (fun _ => ⟨rfl, rfl, rfl⟩) (fun _ _ => ⟨rfl, rfl⟩) le_rfl

lemma grows_beginReceive (s : Runtime M R) (a : ActorRef) (rest : List Frame)
    (visitors : List (Visitor M)) (timed : Bool) :
    Grows s (s.beginReceive a rest visitors timed) := by
  have hother : ∀ r < s.nextReceive, (s.newReceive a visitors timed).receives r = s.receives r :=
    fun r hr => Function.update_of_ne hr.ne _ _
  rw [Runtime.beginReceive]
  split
  · refine grows_of_same (fun _ => ⟨rfl, rfl, rfl⟩) (fun r hr => ?_) (Nat.le_succ _)
    exact ⟨congrArg ReceiveAwaiter.actor (hother r hr),
      congrArg ReceiveAwaiter.visitors (hother r hr)⟩
  · refine grows_of_same (fun x => ?_) (fun r hr => ?_) (Nat.le_succ _)
    · by_cases hx : x = a <;> simp [SameMail, awaitSuspend, newReceive, hx]
    · simp [awaitSuspend, hr.ne, hother r hr]

/-- A visitor returns, and its message is consumed. -/
structure Consumed (r position : ℕ) (delivered : Bool) (e : Envelope M) (s t : Runtime M R) :
    Prop extends Ends r position delivered e s t where
  consumed : ∀ x, (t.actors x).consumed =
    (s.actors x).consumed ++ if x = (s.receives r).actor then [(e, r)] else []

lemma step_grows {l : Label M R} (hstep : s.step l = some t) :
    Grows s t ∨ ∃ r position delivered e, Consumed r position delivered e s t := by
  have hsame : ∀ r, (s.receives r).actor = (s.receives r).actor ∧
      (s.receives r).visitors = (s.receives r).visitors := fun _ => ⟨rfl, rfl⟩
  cases moves_of_step hstep with
  | spawn | link | linkRaises | monitor | monitorRaises | stopRaises | throw | «catch» | finish
  | signalled | unwindRunning | unwindExiting | unwindExpiring | resumeStart =>
      exact .inl (grows_of_same (fun _ => ⟨rfl, rfl, rfl⟩) (fun r _ => hsame r) le_rfl)
  | send target m => exact .inl (grows_send s target _)
  | stop target reason =>
      have hset : Grows s (s.updateActor target fun x => { x with exitReason := some reason }) := by
        refine grows_of_same (fun x => ?_) (fun r _ => hsame r) le_rfl
        by_cases hx : x = target <;> simp [SameMail, hx]
      exact .inl (hset.trans (grows_enqueueMessage _ target _))
  | signal a target sg signals rest =>
      have htaken : Grows s { s with stack := .exiting a signals :: rest } :=
        grows_of_same (fun _ => ⟨rfl, rfl, rfl⟩) (fun r _ => hsame r) le_rfl
      exact .inl (htaken.trans (grows_send _ target _))
  | receive visitors timed a rest => exact .inl (grows_beginReceive s a rest visitors timed)
  | visitorReturn value r position delivered rest e hraise hstack he =>
      refine .inr ⟨r, position, delivered, e, ends_visitorReturned hstack he value, fun x => ?_⟩
      cases delivered <;> by_cases hx : x = (s.receives r).actor <;>
        simp [Runtime.visitorReturned, Runtime.schedule, Runtime.completeMatch, hx]
  | timeoutReturn value r rest =>
      refine .inl (grows_of_same (fun x => ?_) (fun r' _ => ?_) le_rfl)
      · by_cases hx : x = (s.receives r).actor <;>
          simp [SameMail, Runtime.timeoutReturned, Runtime.schedule, hx]
      · by_cases hr : r' = r <;> simp [Runtime.timeoutReturned, Runtime.schedule, hr]
  | unwindVisiting r position delivered rest =>
      left
      cases delivered with
      | true => exact grows_of_same (fun _ => ⟨rfl, rfl, rfl⟩) (fun r _ => hsame r) le_rfl
      | false =>
          refine grows_of_same (fun _ => ⟨rfl, rfl, rfl⟩) (fun r' _ => ?_) le_rfl
          by_cases hr : r' = r <;> simp [hr]
  | resumeReceive r ready =>
      refine .inl (grows_of_same (fun _ => ⟨rfl, rfl, rfl⟩) (fun r' _ => ?_) le_rfl)
      by_cases hr : r' = r <;> simp [hr]
  | fire r =>
      left
      rw [Runtime.fireTimer]
      split
      · refine grows_of_same (fun _ => ⟨rfl, rfl, rfl⟩) (fun r' _ => ?_) le_rfl
        by_cases hr : r' = r <;> simp [hr]
      · exact grows_of_same (fun _ => ⟨rfl, rfl, rfl⟩) (fun r _ => hsame r) le_rfl

/-! ### The invariant -/

/-- Messages are in the mailbox or consumed, and a receive consumes one only after all older ones
that it accepts. -/
structure Ordered (s : Runtime M R) : Prop where
  perm : ∀ a, ((s.actors a).mailbox ++ (s.actors a).consumed.map Prod.fst).Perm
    (s.actors a).enqueued
  consumer : ∀ a, ∀ c ∈ (s.actors a).consumed, c.2 < s.nextReceive ∧
    (s.receives c.2).actor = a ∧ s.Accepts c.2 c.1.body
  oldest : ∀ a taken c rest, (s.actors a).consumed = taken ++ c :: rest →
    ∀ e ∈ (s.actors a).enqueued, e.stamp < c.1.stamp → s.Accepts c.2 e.body →
      e ∈ taken.map Prod.fst

lemma ordered_empty : Ordered ({} : Runtime M R) where
  perm a := List.Perm.refl _
  consumer a c h := by cases h
  oldest a taken c rest h := by
    have hlength := congrArg List.length h
    simp at hlength

variable {history : List (ActorRef × ℕ)}

/-- Stamps grow in the order of arrival. -/
lemma Trace.pairwise_stamp (h : Trace s history) (a : ActorRef) :
    (s.actors a).enqueued.Pairwise fun e e' => e.stamp < e'.stamp := by
  refine List.pairwise_map.mp ?_
  rw [h.stamps a]
  exact List.pairwise_lt_range

lemma Trace.nodup_map_stamp (h : Trace s history) (a : ActorRef) :
    ((s.actors a).enqueued.map Envelope.stamp).Nodup := by
  rw [h.stamps a]
  exact List.nodup_range

lemma Trace.accepted (h : Trace s history) {r position : ℕ} {delivered : Bool} {e : Envelope M}
    (hmem : Frame.visiting r position delivered ∈ s.visits)
    (hfound : (s.actors (s.receives r).actor).mailbox[position]? = some e) :
    s.Accepts r e.body := by
  obtain ⟨older, x, newer, hsplit, rfl, hacc, -⟩ :=
    tryMatchMailbox_eq_some (h.matched r position delivered hmem)
  rw [hsplit] at hfound
  obtain rfl : x = e := by simpa using hfound
  exact hacc

/-- The message found is older than all others in the mailbox that the receive accepts. -/
lemma Trace.stamp_lt (h : Trace s history) {r position : ℕ} {delivered : Bool}
    {e e' : Envelope M} (hmem : Frame.visiting r position delivered ∈ s.visits)
    (hfound : (s.actors (s.receives r).actor).mailbox[position]? = some e)
    (hin : e' ∈ (s.actors (s.receives r).actor).mailbox) (hacc : s.Accepts r e'.body)
    (hne : e' ≠ e) : e.stamp < e'.stamp := by
  obtain ⟨older, x, newer, hsplit, rfl, -, hbefore⟩ :=
    tryMatchMailbox_eq_some (h.matched r position delivered hmem)
  obtain rfl : x = e := by
    rw [hsplit] at hfound
    simpa using hfound
  have hsorted := (h.pairwise_stamp _).sublist (h.mailbox (s.receives r).actor)
  rw [hsplit] at hin hsorted
  rcases List.mem_append.mp hin with hold | hlater
  · rw [Accepts, hbefore e' hold] at hacc
    cases hacc
  · have hnewer := List.pairwise_cons.mp (List.pairwise_append.mp hsorted).2.1
    exact hnewer.1 e' ((List.mem_cons.mp hlater).resolve_left hne)

/-- What is taken out of a mailbox has been consumed. -/
lemma Consumed.perm {r position : ℕ} {delivered : Bool} {e : Envelope M}
    (h : Consumed r position delivered e s t) (a : ActorRef) :
    ((t.actors a).mailbox ++ (t.actors a).consumed.map Prod.fst).Perm
      ((s.actors a).mailbox ++ (s.actors a).consumed.map Prod.fst) := by
  by_cases ha : a = (s.receives r).actor
  · subst ha
    obtain ⟨hlt, rfl⟩ := List.getElem?_eq_some_iff.mp h.found
    rw [h.mailbox, if_pos rfl, h.consumed, if_pos rfl, List.map_append, ← List.append_assoc]
    refine (List.perm_append_singleton _ _).trans ?_
    exact (List.getElem_cons_eraseIdx_perm hlt).append_right _
  · rw [h.mailbox, if_neg ha, h.consumed, if_neg ha, List.append_nil]

lemma Ordered.mem_enqueued (h : Ordered s) {c : Envelope M × ℕ}
    (hc : c ∈ (s.actors a).consumed) : c.1 ∈ (s.actors a).enqueued :=
  (h.perm a).subset (List.mem_append_right _ (List.mem_map_of_mem hc))

lemma Ordered.grows (h : Ordered s) (htrace : Trace t history) (hgrows : Grows s t) :
    Ordered t := by
  have haccepts : ∀ {a : ActorRef} {c : Envelope M × ℕ}, c ∈ (s.actors a).consumed →
      ∀ m, t.Accepts c.2 m ↔ s.Accepts c.2 m := by
    intro a c hc m
    rw [Accepts, (hgrows.receives c.2 (h.consumer a c hc).1).2, Accepts]
  refine ⟨fun a => ?_, fun a c hc => ?_, fun a taken c rest hsplit e he hlt hacc => ?_⟩
  · obtain ⟨new, hbox, henq, hcons⟩ := hgrows.grows a
    rw [hbox, henq, hcons, List.append_assoc]
    refine (List.perm_append_comm.append_left _).trans ?_
    rw [← List.append_assoc]
    exact (h.perm a).append_right _
  · obtain ⟨-, -, -, hcons⟩ := hgrows.grows a
    rw [hcons] at hc
    obtain ⟨hr, hact, hacc⟩ := h.consumer a c hc
    rw [haccepts hc, (hgrows.receives c.2 hr).1]
    exact ⟨hr.trans_le hgrows.nextReceive, hact, hacc⟩
  · obtain ⟨new, -, henq, hcons⟩ := hgrows.grows a
    rw [hcons] at hsplit
    have hc : c ∈ (s.actors a).consumed := by rw [hsplit]; simp
    have hsorted := htrace.pairwise_stamp a
    rw [henq, List.pairwise_append] at hsorted
    rw [henq] at he
    rcases List.mem_append.mp he with hold | hnew
    · exact h.oldest a taken c rest hsplit e hold hlt ((haccepts hc _).mp hacc)
    · -- what has just arrived is newer than anything consumed
      have hnewer := hsorted.2.2 c.1 (h.mem_enqueued hc) e hnew
      omega

lemma Ordered.consumed (h : Ordered s) (htrace : Trace s history) {r position : ℕ}
    {delivered : Bool} {e : Envelope M} (hends : Consumed r position delivered e s t) :
    Ordered t := by
  have hmem : Frame.visiting r position delivered ∈ s.visits := by
    rw [hends.visits]
    exact List.mem_cons_self
  have haccepts : ∀ r' m, t.Accepts r' m ↔ s.Accepts r' m := fun r' m => by
    rw [Accepts, (hends.receives r').2, Accepts]
  refine ⟨fun a => ?_, fun a c hc => ?_, fun a taken c rest hsplit e' he hlt hacc => ?_⟩
  · rw [hends.enqueued]
    exact (hends.perm a).trans (h.perm a)
  · rw [hends.nextReceive, (hends.receives c.2).1, haccepts]
    rw [hends.consumed] at hc
    rcases List.mem_append.mp hc with hold | hnew
    · exact h.consumer a c hold
    · split_ifs at hnew with ha
      · obtain rfl := List.mem_singleton.mp hnew
        exact ⟨htrace.known r position delivered hmem, ha.symm, htrace.accepted hmem hends.found⟩
      · cases hnew
  · rw [hends.enqueued] at he
    rw [haccepts] at hacc
    rw [hends.consumed] at hsplit
    rcases List.eq_nil_or_concat rest with rfl | ⟨rest', c', rfl⟩
    · split_ifs at hsplit with ha
      · -- the message that has just been taken: what it accepts and is older has gone before
        subst ha
        obtain ⟨rfl, hc⟩ := List.append_inj' hsplit rfl
        obtain rfl : (e, r) = c := by simpa using hc
        rcases List.mem_append.mp ((h.perm _).mem_iff.mpr he) with hin | hdone
        · have hnewer := htrace.stamp_lt hmem hends.found hin hacc fun heq => hlt.ne (by rw [heq])
          exact absurd hlt hnewer.not_gt
        · exact hdone
      · exact h.oldest a taken c [] (by simpa using hsplit) e' he hlt hacc
    · have hconcat : ((s.actors a).consumed ++ if a = (s.receives r).actor then [(e, r)] else []) =
          (taken ++ c :: rest') ++ [c'] := by simpa using hsplit
      split_ifs at hconcat with ha
      · exact h.oldest a taken c rest' (List.append_inj' hconcat rfl).1 e' he hlt hacc
      · exact h.oldest a taken c (rest' ++ [c']) (by simpa using hconcat) e' he hlt hacc

lemma ordered_of_run {labels : List (Label M R)} (hrun : run step {} labels = some s) :
    Ordered s := by
  induction labels using List.reverseRecOn generalizing s with
  | nil =>
      obtain rfl := Option.some.inj hrun
      exact ordered_empty
  | append_singleton labels l ih =>
      obtain ⟨u, hu, hstep⟩ := run_concat.mp hrun
      rcases step_grows hstep with hgrows | ⟨r, position, delivered, e, hends⟩
      · exact (ih hu).grows (trace_of_run hrun) hgrows
      · exact (ih hu).consumed (trace_of_run hu) hends

/-! ### The order of consumption -/

/-- What holds between a member of a list and those after it holds pairwise. -/
lemma pairwise_of_split {α : Type*} {rel : α → α → Prop} {l : List α}
    (h : ∀ before x after, l = before ++ x :: after → ∀ y ∈ after, rel x y) : l.Pairwise rel := by
  induction l with
  | nil => exact List.Pairwise.nil
  | cons x l ih =>
      refine List.pairwise_cons.mpr ⟨h [] x l rfl, ih fun before y after hl => ?_⟩
      exact h (x :: before) y after (by rw [hl, List.cons_append])

/-- A message that is consumed after another is newer, unless the receive that took the other one
does not accept it. -/
lemma Ordered.pairwise (h : Ordered s) (htrace : Trace s history) (a : ActorRef) :
    (s.actors a).consumed.Pairwise fun c c' =>
      s.Accepts c.2 c'.1.body → c.1.stamp < c'.1.stamp := by
  refine pairwise_of_split fun taken c rest hsplit c' hc' hacc => ?_
  have hnodup := List.Nodup.of_map Envelope.stamp (htrace.nodup_map_stamp a)
  have hdistinct := (List.nodup_append.mp ((h.perm a).nodup_iff.mpr hnodup)).2.1
  rw [hsplit, List.map_append, List.map_cons, List.nodup_append, List.nodup_cons] at hdistinct
  obtain ⟨-, ⟨hnot, -⟩, hdisjoint⟩ := hdistinct
  have hin : c'.1 ∈ (s.actors a).enqueued := h.mem_enqueued (by rw [hsplit]; simp [hc'])
  have hcin : c.1 ∈ (s.actors a).enqueued := h.mem_enqueued (by rw [hsplit]; simp)
  have hlater : c'.1 ∈ rest.map Prod.fst := List.mem_map_of_mem hc'
  have hne : c'.1.stamp ≠ c.1.stamp := fun heq =>
    hnot (List.inj_on_of_nodup_map (htrace.nodup_map_stamp a) hin hcin heq ▸ hlater)
  by_contra hle
  have htaken := h.oldest a taken c rest hsplit c'.1 hin (by omega) hacc
  exact hdisjoint c'.1 htaken c'.1 (List.mem_cons_of_mem _ hlater) rfl

/-- In every run each message enqueued to an actor is in its mailbox, in the order of
arrival, or has been consumed; a receive consumes a message that it accepts, after all older ones
that it accepts; and messages that every receive of the actor accepts are consumed in the order in
which they have arrived. -/
theorem never_overtaken {labels : List (Label M R)} (hrun : run step {} labels = some s)
    (a : ActorRef) :
    (((s.actors a).mailbox ++ (s.actors a).consumed.map Prod.fst).Perm (s.actors a).enqueued ∧
      (s.actors a).mailbox.Sublist (s.actors a).enqueued) ∧
    (∀ taken e r rest, (s.actors a).consumed = taken ++ (e, r) :: rest →
      (s.receives r).actor = a ∧ s.Accepts r e.body ∧
        ∀ e' ∈ (s.actors a).enqueued, e'.stamp < e.stamp → s.Accepts r e'.body →
          e' ∈ taken.map Prod.fst) ∧
    ∀ p : Message M → Bool,
      (∀ r < s.nextReceive, (s.receives r).actor = a → ∀ m, p m = true → s.Accepts r m) →
        (((s.actors a).consumed.filter fun c => p c.1.body).map fun c => c.1.stamp).Pairwise
          (· < ·) := by
  have h := ordered_of_run hrun
  have htrace := trace_of_run hrun
  refine ⟨⟨h.perm a, htrace.mailbox a⟩, fun taken e r rest hsplit => ?_, fun p hp => ?_⟩
  · obtain ⟨-, hact, hacc⟩ := h.consumer a (e, r) (by rw [hsplit]; simp)
    exact ⟨hact, hacc, h.oldest a taken (e, r) rest hsplit⟩
  · refine List.pairwise_map.mpr (List.pairwise_filter.mpr ?_)
    refine (h.pairwise htrace a).imp_of_mem fun {c c'} hc _ hlt _ hp' => hlt ?_
    obtain ⟨hr, hact, -⟩ := h.consumer a c hc
    exact hp c.2 hr hact c'.1.body hp'

/-- Two messages are queued; the visitor of the first throws, the actor catches what it has thrown
and receives again, twice. -/
def retried : List (Label ℕ ℕ) :=
  [.spawn 0 0, .resume, .send 1 7, .send 1 8, .receive [fun _ => true] false, .throw, .unwind,
    .catch, .receive [fun _ => true] false, .visitorReturn 0, .receive [fun _ => true] true,
    .visitorReturn 0]

/-- The message whose visitor has raised is found again before the second one. -/
theorem never_overtaken_retried :
    ((((reached step {} retried).actors 1).consumed.filter fun _ => true).map
        fun c => c.1.stamp).Pairwise (· < ·) ∧
      ((reached step {} retried).actors 1).consumed.map (fun c => c.1.stamp) = [0, 1] := by
  have hrun := run_eq_reached (show (run step {} retried).isSome = true by decide +kernel)
  refine ⟨(never_overtaken hrun 1).2.2 (fun _ => true) fun r hr _ m _ => ?_, by decide +kernel⟩
  have hlt : r < 3 := hr
  interval_cases r <;> rfl

end Runtime

end Agner
