import Agner.Actor.Ownership

/-!
What one step on a single-threaded scheduler adds to mailboxes and results, and which receive
has a message.

* `Effect`: the shapes a step can have, as far as messages and results go.
* `Posts`: the message a step may enqueue, and to whom; `step_enqueued`: it enqueues no other.
* `step_storage`: a result is stored only when a visitor returns.
* `Taken`: a receive has consumed the message, or its visitor is running on it. A message that
  is taken stays taken, and by one receive only.
-/

namespace Agner.Runtime

open Runs

variable {M R : Type} {s t : Runtime M R} {l : Label M R}

/-! ### Shapes of steps -/

/-- Mailboxes, results and searches are left alone. -/
structure Idle (s t : Runtime M R) : Prop where
  actors : t.actors = s.actors
  receives : ∀ r, (t.receives r).actor = (s.receives r).actor ∧
    (t.receives r).storage = (s.receives r).storage
  next : t.nextReceive = s.nextReceive
  visits : ∀ r position delivered, Frame.visiting r position delivered ∈ s.stack →
    Frame.visiting r position delivered ∈ t.stack

/-- The step may enqueue the message to the actor. -/
def Posts (l : Label M R) (a : ActorRef) (m : Message M) : Prop :=
  match l with
  | .send target x => a = target ∧ m = .user x
  | .stop _ _ | .signal => ∃ sg, m = .signal sg
  | _ => False

/-- What a quiet step does with messages and results. -/
inductive Effect (s : Runtime M R) : Label M R → Runtime M R → Prop
  | idle {l : Label M R} {t : Runtime M R} (h : Idle s t) : Effect s l t
  /-- A message is enqueued, in a state that does not differ in what matters here. -/
  | enqueue {l : Label M R} (u : Runtime M R) (a : ActorRef) (m : Message M)
      (hmail : ∀ x, SameMail (u.actors x) (s.actors x)) (hreceives : u.receives = s.receives)
      (hnext : u.nextReceive = s.nextReceive)
      (hvisits : ∀ r position delivered, Frame.visiting r position delivered ∈ s.stack →
        Frame.visiting r position delivered ∈ u.stack)
      (hposts : Posts l a m) : Effect s l (u.enqueueMessage a m)
  | receive (a : ActorRef) (rest : List Frame) (visitors : List (Visitor M)) (timed : Bool)
      (hstack : s.stack = .running a :: rest) :
      Effect s (.receive visitors timed) (s.beginReceive a rest visitors timed)
  | visitorReturn (r position : ℕ) (delivered : Bool) (rest : List Frame) (e : Envelope M)
      (value : R) (hstack : s.stack = .visiting r position delivered :: rest)
      (he : (s.actors (s.receives r).actor).mailbox[position]? = some e) :
      Effect s (.visitorReturn value) (s.visitorReturned rest r position delivered e value)
  | timeoutReturn (r : ℕ) (rest : List Frame) (value : R) (hstack : s.stack = .expiring r :: rest) :
      Effect s (.timeoutReturn value) (s.timeoutReturned rest r value)

/-- Only the frame on top, which is no message visitor, and other records change. -/
lemma idle_of_pop {f : Frame} {rest : List Frame} (hstack : s.stack = f :: rest)
    (hf : f.isVisiting = false) (hactors : t.actors = s.actors)
    (hreceives : t.receives = s.receives) (hnext : t.nextReceive = s.nextReceive)
    (hrest : ∀ g ∈ rest, g ∈ t.stack) : Idle s t := by
  refine ⟨hactors, fun r => by rw [hreceives]; exact ⟨rfl, rfl⟩, hnext, fun r p d hmem => ?_⟩
  rw [hstack] at hmem
  rcases List.mem_cons.mp hmem with rfl | hmem
  · cases hf
  · exact hrest _ hmem

lemma step_effect (hq : s.Quiet l) (hstep : s.step l = some t) : Effect s l t := by
  cases moves_of_step hstep with
  | spawn | link | linkRaises | monitor | monitorRaises | stopRaises | throw | «catch» =>
      exact .idle ⟨rfl, fun _ => ⟨rfl, rfl⟩, rfl, fun _ _ _ => id⟩
  | send target m =>
      rw [send]
      split
      · exact .enqueue s target _ (fun _ => ⟨rfl, rfl, rfl⟩) rfl rfl (fun _ _ _ => id) ⟨rfl, rfl⟩
      · exact .idle ⟨rfl, fun _ => ⟨rfl, rfl⟩, rfl, fun _ _ _ => id⟩
  | stop target reason =>
      refine .enqueue _ target _ (fun x => ?_) rfl rfl (fun _ _ _ => id) ⟨_, rfl⟩
      by_cases hx : x = target <;> simp [SameMail, hx]
  | signalled a rest _ hstack =>
      exact .idle (idle_of_pop hstack rfl rfl rfl rfl fun _ => id)
  | signal a target sg signals rest _ hstack =>
      have hidle : Idle s { s with stack := .exiting a signals :: rest } :=
        idle_of_pop hstack rfl rfl rfl rfl fun _ => List.mem_cons_of_mem _
      rw [send]
      split
      · exact .enqueue _ target _ (fun _ => ⟨rfl, rfl, rfl⟩) rfl rfl hidle.visits ⟨sg, rfl⟩
      · exact .idle hidle
  | receive visitors timed a rest _ hstack => exact .receive a rest visitors timed hstack
  | visitorReturn value r position delivered rest e _ hstack he =>
      exact .visitorReturn r position delivered rest e value hstack he
  | timeoutReturn value r rest _ hstack => exact .timeoutReturn r rest value hstack
  | finish a rest _ hstack | unwindRunning a rest _ hstack =>
      exact .idle (idle_of_pop hstack rfl rfl rfl rfl fun _ => List.mem_cons_of_mem _)
  | unwindExiting a signals rest _ hstack | unwindExpiring r rest _ hstack =>
      exact .idle (idle_of_pop hstack rfl rfl rfl rfl fun _ => id)
  | unwindVisiting r position delivered rest _ hstack =>
      simp [Quiet, hstack, Frame.isVisiting] at hq
  | resumeStart a ready _ hstack hready =>
      refine .idle ⟨rfl, fun _ => ⟨rfl, rfl⟩, rfl, fun r p d hmem => ?_⟩
      rw [hstack] at hmem
      cases hmem
  | resumeReceive r ready _ hstack hready _ =>
      refine .idle ⟨rfl, fun x => ?_, rfl, fun r p d hmem => ?_⟩
      · by_cases hx : x = r <;> simp [hx]
      · rw [hstack] at hmem
        cases hmem
  | fire r _ hstack htimer =>
      rw [fireTimer]
      split
      · refine .idle ⟨rfl, fun x => ?_, rfl, fun r p d hmem => List.mem_cons_of_mem _ hmem⟩
        by_cases hx : x = r <;> simp [hx]
      · exact .idle ⟨rfl, fun _ => ⟨rfl, rfl⟩, rfl, fun _ _ _ => id⟩

/-! ### Messages -/

lemma enqueued_enqueueMessage (s : Runtime M R) (a : ActorRef) (m : Message M) (x : ActorRef) :
    ((s.enqueueMessage a m).actors x).enqueued = (s.actors x).enqueued ++
      if x = a then [{ stamp := (s.actors x).enqueued.length, body := m }] else [] := by
  have hpush : ((s.enqueueMessage a m).actors x).enqueued =
      ((s.pushMessage a m).actors x).enqueued := by
    rw [enqueueMessage, notifyWaiterLocked]
    split
    · rfl
    · split
      · rfl
      · by_cases hx : x = a <;> simp [hx]
  rw [hpush]
  by_cases hx : x = a <;> simp [pushMessage, hx]

/-- A step enqueues at most one message, the one it posts. -/
lemma step_enqueued (hq : s.Quiet l) (hstep : s.step l = some t) (x : ActorRef) :
    (t.actors x).enqueued = (s.actors x).enqueued ∨
      ∃ e, (t.actors x).enqueued = (s.actors x).enqueued ++ [e] ∧ Posts l x e.body := by
  cases step_effect hq hstep with
  | idle h => exact .inl (by rw [h.actors])
  | enqueue u a m hmail _ _ _ hposts =>
      rw [enqueued_enqueueMessage, (hmail x).2.1]
      by_cases hx : x = a
      · exact .inr ⟨_, by rw [if_pos hx], by rw [hx]; exact hposts⟩
      · exact .inl (by rw [if_neg hx, List.append_nil])
  | receive a rest visitors timed =>
      left
      rw [beginReceive]
      split
      · rfl
      · by_cases hx : x = a <;> simp [awaitSuspend, newReceive, hx]
  | visitorReturn r position delivered rest e value =>
      left
      rw [visitorReturned]
      split <;> by_cases hx : x = (s.receives r).actor <;> simp [completeMatch, schedule, hx]
  | timeoutReturn r rest value =>
      left
      by_cases hx : x = (s.receives r).actor <;> simp [timeoutReturned, schedule, hx]

lemma mem_enqueued_of_step (hq : s.Quiet l) (hstep : s.step l = some t) {x : ActorRef}
    {e : Envelope M} (he : e ∈ (s.actors x).enqueued) : e ∈ (t.actors x).enqueued := by
  rcases step_enqueued hq hstep x with h | ⟨_, h, -⟩
  · rw [h]
    exact he
  · rw [h]
    exact List.mem_append_left _ he

/-! ### Results -/

lemma receives_enqueueMessage (s : Runtime M R) (a : ActorRef) (m : Message M) (r : ℕ) :
    ((s.enqueueMessage a m).receives r).actor = (s.receives r).actor ∧
      ((s.enqueueMessage a m).receives r).storage = (s.receives r).storage := by
  rw [enqueueMessage, notifyWaiterLocked]
  split
  · exact ⟨rfl, rfl⟩
  · rename_i r' _
    split
    · exact ⟨rfl, rfl⟩
    · by_cases hr : r = r' <;> simp [hr, pushMessage]

lemma nextReceive_enqueueMessage (s : Runtime M R) (a : ActorRef) (m : Message M) :
    (s.enqueueMessage a m).nextReceive = s.nextReceive := by
  rw [enqueueMessage, notifyWaiterLocked]
  split
  · rfl
  · split <;> rfl

lemma receives_beginReceive (s : Runtime M R) (a : ActorRef) (rest : List Frame)
    (visitors : List (Visitor M)) (timed : Bool) :
    (∀ r, r ≠ s.nextReceive → (s.beginReceive a rest visitors timed).receives r = s.receives r) ∧
      ((s.beginReceive a rest visitors timed).receives s.nextReceive).actor = a ∧
      ((s.beginReceive a rest visitors timed).receives s.nextReceive).storage = none ∧
      (s.beginReceive a rest visitors timed).nextReceive = s.nextReceive + 1 := by
  rw [beginReceive]
  split
  · exact ⟨fun r hr => Function.update_of_ne hr _ _, by simp [newReceive], by simp [newReceive],
      rfl⟩
  · refine ⟨fun r hr => ?_, by simp [awaitSuspend, newReceive],
      by simp [awaitSuspend, newReceive], rfl⟩
    simp [awaitSuspend, newReceive, hr]

/-- Receives keep their actors, and there are only more of them. -/
lemma step_receives (hq : s.Quiet l) (hstep : s.step l = some t) :
    s.nextReceive ≤ t.nextReceive ∧
      ∀ r < s.nextReceive, (t.receives r).actor = (s.receives r).actor := by
  cases step_effect hq hstep with
  | idle h => exact ⟨h.next.ge, fun r _ => (h.receives r).1⟩
  | enqueue u a m _ hreceives hnext _ _ =>
      rw [nextReceive_enqueueMessage, hnext]
      refine ⟨le_rfl, fun r _ => ?_⟩
      rw [(receives_enqueueMessage u a m r).1, hreceives]
  | receive a rest visitors timed =>
      obtain ⟨hsame, -, -, hnext⟩ := receives_beginReceive s a rest visitors timed
      exact ⟨hnext.ge.trans' (Nat.le_succ _), fun r hr => by rw [hsame r hr.ne]⟩
  | visitorReturn r position delivered rest e value =>
      rw [visitorReturned]
      split <;> refine ⟨le_rfl, fun x _ => ?_⟩ <;> by_cases hx : x = r <;>
        simp [completeMatch, schedule, hx]
  | timeoutReturn r rest value =>
      refine ⟨le_rfl, fun x _ => ?_⟩
      by_cases hx : x = r <;> simp [timeoutReturned, schedule, hx]

/-- A result is stored only when a visitor returns it. -/
lemma step_storage (hq : s.Quiet l) (hstep : s.step l = some t) (r : ℕ) :
    (t.receives r).storage = (s.receives r).storage ∨ (t.receives r).storage = none ∨
      (∃ value position delivered rest, l = .visitorReturn value ∧
        s.stack = .visiting r position delivered :: rest ∧
        (t.receives r).storage = some value) ∨
      ∃ value rest, l = .timeoutReturn value ∧ s.stack = .expiring r :: rest ∧
        (t.receives r).storage = some value := by
  cases step_effect hq hstep with
  | idle h => exact .inl (h.receives r).2
  | enqueue u a m _ hreceives _ _ _ =>
      rw [(receives_enqueueMessage u a m r).2, hreceives]
      exact .inl rfl
  | receive a rest visitors timed =>
      obtain ⟨hsame, -, hnone, -⟩ := receives_beginReceive s a rest visitors timed
      by_cases hr : r = s.nextReceive
      · rw [hr]
        exact .inr (.inl hnone)
      · exact .inl (by rw [hsame r hr])
  | visitorReturn x position delivered rest e value hstack =>
      by_cases hr : r = x
      · subst hr
        refine .inr (.inr (.inl ⟨value, position, delivered, rest, rfl, hstack, ?_⟩))
        rw [visitorReturned]
        split <;> simp [completeMatch, schedule]
      · left
        rw [visitorReturned]
        split <;> simp [completeMatch, schedule, hr]
  | timeoutReturn x rest value hstack =>
      by_cases hr : r = x
      · subst hr
        exact .inr (.inr (.inr ⟨value, rest, rfl, hstack, by simp [timeoutReturned, schedule]⟩))
      · exact .inl (by simp [timeoutReturned, schedule, hr])

/-! ### Who has a message -/

/-- The receive has consumed the message, or its visitor is running on it. -/
def Taken (s : Runtime M R) (r : ℕ) (e : Envelope M) : Prop :=
  (e, r) ∈ (s.actors (s.receives r).actor).consumed ∨
    ∃ position delivered, Frame.visiting r position delivered ∈ s.stack ∧
      (s.actors (s.receives r).actor).mailbox[position]? = some e

lemma Taken.mem_enqueued {r : ℕ} {e : Envelope M} (h : s.Taken r e) (ho : Owned s) :
    e ∈ (s.actors (s.receives r).actor).enqueued := by
  refine (ho.perm _).mem_iff.mp (List.mem_append.mpr ?_)
  rcases h with h | ⟨position, delivered, -, h⟩
  · exact .inr (List.mem_map.mpr ⟨_, h, rfl⟩)
  · exact .inl (List.mem_of_getElem? h)

/-- One receive takes a message. -/
lemma Taken.unique {r r' : ℕ} {e : Envelope M} (h : s.Taken r e) (h' : s.Taken r' e)
    (ho : Owned s) (hactor : (s.receives r).actor = (s.receives r').actor) : r = r' := by
  have hplace := ho.inOnePlace (h.mem_enqueued ho)
  rcases hplace with ⟨-, hnot⟩ | ⟨hnot, x, -, huniq⟩
  · -- both visitors run on the mailbox of one actor
    rcases h with h | ⟨position, delivered, hf, -⟩
    · exact absurd h (hnot r)
    rcases h' with h' | ⟨position', delivered', hf', -⟩
    · exact absurd (hactor ▸ h') (hnot r')
    exact List.inj_on_of_nodup_map ho.searched (mem_visited.mpr ⟨_, _, hf⟩)
      (mem_visited.mpr ⟨_, _, hf'⟩) hactor
  · rcases h with h | ⟨position, delivered, -, h⟩
    swap
    · exact absurd (List.mem_of_getElem? h) hnot
    rcases h' with h' | ⟨position', delivered', -, h'⟩
    swap
    · exact absurd (List.mem_of_getElem? (hactor ▸ h')) hnot
    rw [huniq r h, huniq r' (hactor ▸ h')]

lemma visits_enqueueMessage (s : Runtime M R) (a : ActorRef) (m : Message M) {f : Frame}
    (hf : f ∈ s.stack) : f ∈ (s.enqueueMessage a m).stack := by
  rw [enqueueMessage, notifyWaiterLocked]
  split
  · exact hf
  · split
    · exact hf
    · exact List.mem_cons_of_mem _ hf

lemma consumed_of_step (ho : Owned s) (hq : s.Quiet l) (hstep : s.step l = some t)
    {a : ActorRef} {p : Envelope M × ℕ} (hp : p ∈ (s.actors a).consumed) :
    p ∈ (t.actors a).consumed := by
  rcases (ho.step hq hstep).2 a with h | ⟨_, _, _, _, _, -, -, -, -, -, h, -⟩
  · rw [h.2]
    exact hp
  · rw [h]
    exact List.mem_append_left _ hp

/-- No message visitor runs below a frame that is none itself. -/
lemma not_visiting_of_base (ho : Owned s) {f : Frame} {rest : List Frame}
    (hstack : s.stack = f :: rest) (hf : f.isVisiting = false) {r position : ℕ}
    {delivered : Bool} : Frame.visiting r position delivered ∉ s.stack := by
  rw [hstack, ho.rest_eq_nil hstack hf, List.mem_singleton]
  rintro rfl
  cases hf

/-- A message that is taken stays taken. -/
lemma Taken.step {r : ℕ} {e : Envelope M} (h : s.Taken r e) (hr : r < s.nextReceive)
    (ho : Owned s) (hq : s.Quiet l) (hstep : s.step l = some t) : t.Taken r e := by
  have hactor := (step_receives hq hstep).2 r hr
  rcases h with h | ⟨position, delivered, hf, hbox⟩
  · left
    rw [hactor]
    exact consumed_of_step ho hq hstep h
  rw [Taken, hactor]
  cases step_effect hq hstep with
  | idle h =>
      rw [h.actors]
      exact .inr ⟨position, delivered, h.visits _ _ _ hf, hbox⟩
  | enqueue u a m hmail _ _ hvisits _ =>
      refine .inr ⟨position, delivered, visits_enqueueMessage u a m (hvisits _ _ _ hf), ?_⟩
      obtain ⟨newer, hnewer⟩ := (onlyAppends_enqueueMessage u a m (s.receives r).actor).1
      rw [(hmail _).1] at hnewer
      obtain ⟨hlt, -⟩ := List.getElem?_eq_some_iff.mp hbox
      rw [← hnewer, List.getElem?_append_left hlt]
      exact hbox
  | receive a rest visitors timed hstack => exact absurd hf (not_visiting_of_base ho hstack rfl)
  | timeoutReturn x rest value hstack => exact absurd hf (not_visiting_of_base ho hstack rfl)
  | visitorReturn x position' delivered' rest e' value hstack he' =>
      have htop : Frame.visiting x position' delivered' ∈ s.stack := by
        rw [hstack]
        exact List.mem_cons_self
      by_cases hx : r = x
      · -- a receive searches once, so this is the message that its visitor returns from
        subst hx
        have hpos : position = position' := Option.some.inj
          ((ho.matched r position delivered hf).symm.trans
            (ho.matched r position' delivered' htop))
        subst hpos
        obtain rfl : e = e' := Option.some.inj (hbox.symm.trans he')
        left
        rw [visitorReturned]
        split <;> simp [completeMatch, schedule]
      · have hne : (s.receives r).actor ≠ (s.receives x).actor := by
          intro heq
          exact hx (List.inj_on_of_nodup_map ho.searched (mem_visited.mpr ⟨_, _, hf⟩)
            (mem_visited.mpr ⟨_, _, htop⟩) heq)
        have hrest : Frame.visiting r position delivered ∈ rest := by
          rw [hstack] at hf
          rcases List.mem_cons.mp hf with heq | hf
          · exact absurd (Frame.visiting.inj heq).1 hx
          · exact hf
        refine .inr ⟨position, delivered, ?_, ?_⟩
        · rw [visitorReturned]
          split <;> exact hrest
        · rw [visitorReturned]
          split <;> simpa [completeMatch, schedule, hne] using hbox

end Agner.Runtime
