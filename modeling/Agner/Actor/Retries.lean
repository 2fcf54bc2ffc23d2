import Agner.Actor.Reentrancy

/-!
How often a message is passed to a visitor, when visitors throw and actors catch and receive
again, on a single-threaded scheduler.

* `Exclusive`: in every reachable state, whatever visitors do, an actor is searched by at most one
  receive, which is the one its coroutine runs or is suspended in.
* `passed`, `passes`: the message that a step passes to a visitor, and those of a run.
* `passed_at_most_once`: no message is passed twice as long as no exception leaves a message
  visitor and no mailbox grows while it is being searched; and once an exception leaves a visitor
  that `await_ready` runs, the actor may catch it and its next receive is passed the same message.
-/

namespace Agner

open Runs

namespace Runtime

variable {M R : Type} {s t : Runtime M R} {m : Message M}

/-! ### One search at a time -/

/-- The coroutine of the receive is suspended. -/
def suspended (s : Runtime M R) (r : ℕ) : Bool := (s.receives r).stage.suspended

/-- The invariant: where the coroutine of an actor may be. -/
structure Exclusive (s : Runtime M R) : Prop where
  tidy : Tidy s
  visiting : ∀ r position delivered, Frame.visiting r position delivered ∈ s.stack →
    r < s.nextReceive ∧ (s.actors (s.receives r).actor).pending = none ∧
      s.suspended r = delivered
  expiring : ∀ r, Frame.expiring r ∈ s.stack → r < s.nextReceive ∧ s.suspended r = true ∧
    (s.receives r).active ≠ some true
  running : ∀ a, Frame.running a ∈ s.stack → a < s.sched.nextActorId ∧
    (s.actors a).pending = none ∧ ∀ r, (s.receives r).actor = a → s.suspended r = false
  start : ∀ a, Handle.start a ∈ s.ready → a < s.sched.nextActorId ∧
    s.ready.count (.start a) = 1 ∧ Frame.running a ∉ s.stack ∧
    (s.actors a).pending = none ∧ ∀ r, (s.receives r).actor = a → s.suspended r = false
  ready : ∀ r, Handle.receive r ∈ s.ready → r < s.nextReceive ∧
    (s.suspended r = true → (s.actors (s.receives r).actor).pending = none)
  pending : ∀ a r, (s.actors a).pending = some r → s.suspended r = true
  unique : ∀ r r', s.suspended r = true → s.suspended r' = true →
    (s.receives r).actor = (s.receives r').actor → r = r'
  known : ∀ r, s.suspended r = true →
    r < s.nextReceive ∧ (s.receives r).actor < s.sched.nextActorId
  active : ∀ r, (s.receives r).active = some true →
    s.suspended r = true ∧ Handle.receive r ∉ s.ready

lemma exclusive_empty : Exclusive ({} : Runtime M R) where
  tidy := tidy_empty
  visiting r p d h := by cases h
  expiring r h := by cases h
  running a h := by cases h
  start a h := by cases h
  ready r h := by cases h
  pending a r h := by cases h
  unique r r' h := by cases h
  known r h := by cases h
  active r h := by cases h

/-- Frames are left, mailboxes and the registry change, pending receives and flags are reset. -/
lemma Exclusive.relax (h : Exclusive s) (htidy : Tidy t)
    (hrecv : ∀ r, (t.receives r).actor = (s.receives r).actor ∧ t.suspended r = s.suspended r ∧
      ((t.receives r).active = some true → (s.receives r).active = some true))
    (hpend : ∀ a r, (t.actors a).pending = some r → (s.actors a).pending = some r)
    (hready : t.ready = s.ready) (hnext : t.nextReceive = s.nextReceive)
    (hid : t.sched.nextActorId = s.sched.nextActorId)
    (hstack : ∀ f ∈ t.stack, f.isExiting = false → f ∈ s.stack) : Exclusive t := by
  have hnone : ∀ {a}, (s.actors a).pending = none → (t.actors a).pending = none := by
    intro a ha
    cases hp : (t.actors a).pending with
    | none => rfl
    | some r => rw [hpend a r hp] at ha; cases ha
  refine ⟨htidy, fun r p d hf => ?_, fun r hf => ?_, fun a hf => ?_, fun a ha => ?_,
    fun r hr => ?_, fun a r hr => ?_, fun r r' hr hr' hact => ?_, fun r hr => ?_,
    fun r hr => ?_⟩
  · obtain ⟨hlt, hp, hs⟩ := h.visiting r p d (hstack _ hf rfl)
    rw [hnext, (hrecv r).1, (hrecv r).2.1]
    exact ⟨hlt, hnone hp, hs⟩
  · obtain ⟨hlt, hs, hactive⟩ := h.expiring r (hstack _ hf rfl)
    rw [hnext, (hrecv r).2.1]
    exact ⟨hlt, hs, fun ha => hactive ((hrecv r).2.2 ha)⟩
  · obtain ⟨hlt, hp, hfree⟩ := h.running a (hstack _ hf rfl)
    rw [hid]
    refine ⟨hlt, hnone hp, fun r hr => ?_⟩
    rw [(hrecv r).2.1]
    exact hfree r ((hrecv r).1.symm.trans hr)
  · rw [hready] at ha ⊢
    obtain ⟨hlt, hcount, hnot, hp, hfree⟩ := h.start a ha
    rw [hid]
    refine ⟨hlt, hcount, fun hf => hnot (hstack _ hf rfl), hnone hp, fun r hr => ?_⟩
    rw [(hrecv r).2.1]
    exact hfree r ((hrecv r).1.symm.trans hr)
  · rw [hready] at hr
    obtain ⟨hlt, hp⟩ := h.ready r hr
    rw [hnext, (hrecv r).1, (hrecv r).2.1]
    exact ⟨hlt, fun hs => hnone (hp hs)⟩
  · rw [(hrecv r).2.1]
    exact h.pending a r (hpend a r hr)
  · rw [(hrecv r).2.1] at hr
    rw [(hrecv r').2.1] at hr'
    exact h.unique r r' hr hr' ((hrecv r).1.symm.trans (hact.trans (hrecv r').1))
  · rw [(hrecv r).2.1] at hr
    rw [hnext, hid, (hrecv r).1]
    exact h.known r hr
  · rw [hready, (hrecv r).2.1]
    exact h.active r ((hrecv r).2.2 hr)

/-- No receive and no stack changes. -/
lemma Exclusive.same (h : Exclusive s) (htidy : Tidy t) (hrecv : t.receives = s.receives)
    (hpend : ∀ a r, (t.actors a).pending = some r → (s.actors a).pending = some r)
    (hready : t.ready = s.ready) (hnext : t.nextReceive = s.nextReceive)
    (hid : t.sched.nextActorId = s.sched.nextActorId)
    (hstack : ∀ f ∈ t.stack, f.isExiting = false → f ∈ s.stack) : Exclusive t :=
  h.relax htidy (fun r => by rw [suspended, hrecv]; exact ⟨rfl, rfl, id⟩) hpend hready hnext hid
    hstack

/-- The handle of a suspended receive is scheduled. -/
lemma Exclusive.schedule (h : Exclusive s) {r : ℕ} (hs : s.suspended r = true)
    (hp : (s.actors (s.receives r).actor).pending = none)
    (ha : (s.receives r).active ≠ some true) : Exclusive (s.schedule r) := by
  have hactor : ∀ r', ((s.schedule r).receives r').actor = (s.receives r').actor := by
    intro r'
    by_cases hr : r' = r <;> simp [Runtime.schedule, hr]
  have hsusp : ∀ r', (s.schedule r).suspended r' = s.suspended r' := by
    intro r'
    by_cases hr : r' = r
    · rw [hr, hs]
      simp [suspended, Runtime.schedule, Stage.suspended]
    · simp [suspended, Runtime.schedule, hr]
  have hactive : ∀ r', ((s.schedule r).receives r').active = (s.receives r').active := by
    intro r'
    by_cases hr : r' = r <;> simp [Runtime.schedule, hr]
  have hready : (s.schedule r).ready = s.ready ++ [.receive r] := rfl
  refine ⟨h.tidy.schedule r, fun r' p d hf => ?_, fun r' hf => ?_, fun a hf => ?_, fun a hf => ?_,
    fun r' hr' => ?_, fun a r' hr' => ?_, fun r' r'' hr' hr'' hact => ?_, fun r' hr' => ?_,
    fun r' hr' => ?_⟩
  · rw [hactor, hsusp]
    exact h.visiting r' p d hf
  · rw [hsusp, hactive]
    exact h.expiring r' hf
  · obtain ⟨hlt, hpend, hfree⟩ := h.running a hf
    exact ⟨hlt, hpend, fun r' hr' => (hsusp r').trans (hfree r' ((hactor r').symm.trans hr'))⟩
  · rw [hready] at hf ⊢
    have hold : Handle.start a ∈ s.ready := by simpa using hf
    obtain ⟨hlt, hcount, hnot, hpend, hfree⟩ := h.start a hold
    refine ⟨hlt, ?_, hnot, hpend,
      fun r' hr' => (hsusp r').trans (hfree r' ((hactor r').symm.trans hr'))⟩
    rw [List.count_append, hcount]
    simp
  · rw [hready] at hr'
    rw [hactor, hsusp]
    rcases List.mem_append.mp hr' with hold | hnew
    · exact h.ready r' hold
    · obtain rfl : r' = r := by simpa using hnew
      exact ⟨(h.known r' hs).1, fun _ => hp⟩
  · rw [hsusp]
    exact h.pending a r' hr'
  · rw [hsusp] at hr' hr''
    rw [hactor, hactor] at hact
    exact h.unique r' r'' hr' hr'' hact
  · rw [hsusp] at hr'
    rw [hactor]
    exact h.known r' hr'
  · rw [hactive] at hr'
    rw [hsusp, hready]
    obtain ⟨hs', hnot⟩ := h.active r' hr'
    refine ⟨hs', fun hmem => ?_⟩
    rcases List.mem_append.mp hmem with hold | hnew
    · exact hnot hold
    · obtain rfl : r' = r := by simpa using hnew
      exact ha hr'

/-- The frame is a visitor of the receive, as far as it has come. -/
def Runs (s : Runtime M R) (r : ℕ) (f : Frame) : Prop :=
  (∃ position delivered, f = .visiting r position delivered ∧
    (s.actors (s.receives r).actor).pending = none ∧ s.suspended r = delivered) ∨
  f = .expiring r ∧ s.suspended r = true ∧ (s.receives r).active ≠ some true

/-- A visitor starts. -/
lemma Exclusive.pushFrame (h : Exclusive s) {f : Frame} {r : ℕ} (hf : s.Runs r f)
    (hlt : r < s.nextReceive)
    (htidy : Tidy ({ s with stack := f :: s.stack } : Runtime M R)) :
    Exclusive ({ s with stack := f :: s.stack } : Runtime M R) := by
  have hrunning : ∀ a, f ≠ .running a := by
    intro a
    rcases hf with ⟨position, delivered, rfl, -⟩ | ⟨rfl, -, -⟩ <;> simp
  refine ⟨htidy, fun r' p d hmem => ?_, fun r' hmem => ?_, fun a hmem => ?_, fun a ha => ?_,
    h.ready, h.pending, h.unique, h.known, h.active⟩
  · rcases List.mem_cons.mp hmem with heq | hold
    · rcases hf with ⟨position, delivered, rfl, hp, hs⟩ | ⟨rfl, -⟩
      · obtain ⟨rfl, rfl, rfl⟩ := Frame.visiting.inj heq
        exact ⟨hlt, hp, hs⟩
      · cases heq
    · exact h.visiting r' p d hold
  · rcases List.mem_cons.mp hmem with heq | hold
    · rcases hf with ⟨position, delivered, rfl, -⟩ | ⟨rfl, hs⟩
      · cases heq
      · obtain rfl := Frame.expiring.inj heq
        exact ⟨hlt, hs⟩
    · exact h.expiring r' hold
  · rcases List.mem_cons.mp hmem with heq | hold
    · exact absurd heq.symm (hrunning a)
    · exact h.running a hold
  · obtain ⟨hlta, hcount, hnot, hrest⟩ := h.start a ha
    refine ⟨hlta, hcount, fun hmem => ?_, hrest⟩
    rcases List.mem_cons.mp hmem with heq | hold
    · exact hrunning a heq.symm
    · exact hnot hold

lemma Exclusive.enqueue (h : Exclusive s) (a : ActorRef) (m : Message M) :
    Exclusive (s.enqueueMessage a m) := by
  have htidy := h.tidy.enqueue a m
  rcases enqueueMessage_cases s a m with heq | ⟨r, position, hp, -, heq⟩
  · rw [heq] at htidy ⊢
    refine h.same htidy rfl (fun x r hr => ?_) rfl rfl rfl fun _ hf _ => hf
    by_cases hx : x = a <;> simpa [pushMessage, hx] using hr
  · rw [heq] at htidy ⊢
    obtain ⟨-, hact, -⟩ := h.tidy.pending a r hp
    have hs := h.pending a r hp
    set u := ((s.pushMessage a m).updateActor a fun x => { x with pending := none }).updateReceive r
      fun w => { w with stage := .delivering } with hu
    have hrecv : ∀ r', (u.receives r').actor = (s.receives r').actor ∧
        u.suspended r' = s.suspended r' ∧
          ((u.receives r').active = some true → (s.receives r').active = some true) := by
      intro r'
      by_cases hr : r' = r
      · rw [hr, hs]
        simp [hu, suspended, Stage.suspended, pushMessage]
      · simp [hu, suspended, pushMessage, hr]
    have hutidy : Tidy u := htidy.control rfl (fun _ => ⟨rfl, rfl⟩) rfl h.tidy.base
    have hux : Exclusive u := by
      refine h.relax hutidy hrecv (fun x r' hr' => ?_) rfl rfl rfl fun _ hf _ => hf
      by_cases hx : x = a
      · simp [hu, hx] at hr'
      · simpa [hu, hx, pushMessage] using hr'
    refine hux.pushFrame (.inl ⟨position, true, rfl, ?_, (hrecv r).2.1.trans hs⟩)
      (h.tidy.pending a r hp).1 htidy
    rw [(hrecv r).1, hact]
    simp [hu]

lemma Exclusive.send (h : Exclusive s) (a : ActorRef) (m : Message M) :
    Exclusive (s.send a m) := by
  rw [Runtime.send]
  split
  · exact h.enqueue a m
  · exact h

/-- A receive that has not looked at the mailbox yet. -/
lemma Exclusive.newReceive (h : Exclusive s) (a : ActorRef) (visitors : List (Visitor M))
    (timed : Bool) : Exclusive (s.newReceive a visitors timed) := by
  have hself : (s.newReceive a visitors timed).receives s.nextReceive =
      { actor := a, visitors := visitors, timed := timed, stage := .matching } :=
    Function.update_self _ _ _
  have hother : ∀ r, r ≠ s.nextReceive →
      (s.newReceive a visitors timed).receives r = s.receives r :=
    fun r hr => Function.update_of_ne hr _ _
  have hsusp : ∀ r, (s.newReceive a visitors timed).suspended r = true →
      r ≠ s.nextReceive ∧ s.suspended r = true := by
    intro r hr
    by_cases hne : r = s.nextReceive
    · rw [suspended, hne, hself] at hr
      cases hr
    · rw [suspended, hother r hne] at hr
      exact ⟨hne, hr⟩
  have hfree : ∀ {x}, (∀ r, (s.receives r).actor = x → s.suspended r = false) →
      ∀ r, ((s.newReceive a visitors timed).receives r).actor = x →
        (s.newReceive a visitors timed).suspended r = false := by
    intro x hx r hr
    refine Bool.eq_false_iff.mpr fun hs => ?_
    obtain ⟨hne, hs⟩ := hsusp r hs
    rw [hother r hne] at hr
    rw [hx r hr] at hs
    cases hs
  refine ⟨h.tidy.newReceive a visitors timed, fun r p d hf => ?_, fun r hf => ?_, fun x hf => ?_,
    fun x hx => ?_, fun r hr => ?_, fun x r hr => ?_, fun r r' hr hr' hact => ?_, fun r hr => ?_,
    fun r hr => ?_⟩
  · obtain ⟨hlt, hp, hs⟩ := h.visiting r p d hf
    rw [suspended, hother r hlt.ne]
    exact ⟨Nat.lt_succ_of_lt hlt, hp, hs⟩
  · obtain ⟨hlt, hs⟩ := h.expiring r hf
    rw [suspended, hother r hlt.ne]
    exact ⟨Nat.lt_succ_of_lt hlt, hs⟩
  · obtain ⟨hlt, hp, hx⟩ := h.running x hf
    exact ⟨hlt, hp, hfree hx⟩
  · obtain ⟨hlt, hcount, hnot, hp, hx⟩ := h.start x hx
    exact ⟨hlt, hcount, hnot, hp, hfree hx⟩
  · obtain ⟨hlt, hp⟩ := h.ready r hr
    rw [suspended, hother r hlt.ne]
    exact ⟨Nat.lt_succ_of_lt hlt, hp⟩
  · have hlt := (h.tidy.pending x r hr).1
    rw [suspended, hother r hlt.ne]
    exact h.pending x r hr
  · obtain ⟨hne, hs⟩ := hsusp r hr
    obtain ⟨hne', hs'⟩ := hsusp r' hr'
    rw [hother r hne, hother r' hne'] at hact
    exact h.unique r r' hs hs' hact
  · obtain ⟨hne, hs⟩ := hsusp r hr
    rw [hother r hne]
    exact ⟨Nat.lt_succ_of_lt (h.known r hs).1, (h.known r hs).2⟩
  · by_cases hne : r = s.nextReceive
    · rw [hne, hself] at hr
      cases hr
    · rw [hother r hne] at hr
      rw [suspended, hother r hne]
      exact h.active r hr

/-- The coroutine of an actor is suspended in a receive that has found nothing. -/
lemma Exclusive.suspend (h : Exclusive s) {r : ℕ} (hlt : r < s.nextReceive)
    (hid : (s.receives r).actor < s.sched.nextActorId)
    (hfree : ∀ r', (s.receives r').actor = (s.receives r).actor → s.suspended r' = false)
    (hstart : Handle.start (s.receives r).actor ∉ s.ready) (hready : Handle.receive r ∉ s.ready)
    (htidy : Tidy ({ s.awaitSuspend r with stack := [] } : Runtime M R)) :
    Exclusive ({ s.awaitSuspend r with stack := [] } : Runtime M R) := by
  set t : Runtime M R := { s.awaitSuspend r with stack := [] } with ht
  have hactor : ∀ r', (t.receives r').actor = (s.receives r').actor := by
    intro r'
    by_cases hr : r' = r <;> simp [ht, awaitSuspend, hr]
  have hself : t.suspended r = true := by simp [ht, suspended, awaitSuspend, Stage.suspended]
  have hsusp : ∀ r', r' ≠ r → t.suspended r' = s.suspended r' := by
    intro r' hr
    simp [ht, suspended, awaitSuspend, hr]
  have hpend : ∀ a, a ≠ (s.receives r).actor → (t.actors a).pending = (s.actors a).pending := by
    intro a ha
    simp [ht, awaitSuspend, ha]
  -- the other suspended receives belong to other actors
  have hne : ∀ r', r' ≠ r → t.suspended r' = true →
      (s.receives r').actor ≠ (s.receives r).actor := by
    intro r' hr hs hact
    rw [hsusp r' hr, hfree r' hact] at hs
    cases hs
  refine ⟨htidy, (fun _ _ _ hf => by cases hf), (fun _ hf => by cases hf),
    (fun _ hf => by cases hf), fun a ha => ?_, fun r' hr' => ?_, fun a r' hr' => ?_,
    fun r' r'' hr' hr'' hact => ?_, fun r' hr' => ?_, fun r' hr' => ?_⟩
  · have hna : a ≠ (s.receives r).actor := fun heq => hstart (heq ▸ ha)
    obtain ⟨hlta, hcount, -, hp, hfreea⟩ := h.start a ha
    refine ⟨hlta, hcount, by simp [ht], (hpend a hna).trans hp, fun r' hr' => ?_⟩
    rw [hactor] at hr'
    have hrne : r' ≠ r := by
      rintro rfl
      exact hna hr'.symm
    rw [hsusp r' hrne]
    exact hfreea r' hr'
  · have hrne : r' ≠ r := fun heq => hready (heq ▸ hr')
    obtain ⟨hlt', hp⟩ := h.ready r' hr'
    refine ⟨hlt', fun hs => ?_⟩
    rw [hactor, hpend _ (hne r' hrne hs)]
    exact hp ((hsusp r' hrne).symm.trans hs)
  · by_cases ha : a = (s.receives r).actor
    · obtain rfl : r = r' := by simpa [ht, awaitSuspend, ha] using hr'
      exact hself
    · rw [hpend a ha] at hr'
      have hact := (h.tidy.pending a r' hr').2.1
      have hrne : r' ≠ r := by
        rintro rfl
        exact ha hact.symm
      rw [hsusp r' hrne]
      exact h.pending a r' hr'
  · rw [hactor, hactor] at hact
    by_cases hr : r' = r
    · by_cases hrr : r'' = r
      · rw [hr, hrr]
      · exact absurd (hact.symm.trans (by rw [hr])) (hne r'' hrr hr'')
    · by_cases hrr : r'' = r
      · exact absurd (hact.trans (by rw [hrr])) (hne r' hr hr')
      · rw [hsusp r' hr] at hr'
        rw [hsusp r'' hrr] at hr''
        exact h.unique r' r'' hr' hr'' hact
  · rw [hactor]
    by_cases hr : r' = r
    · rw [hr]
      exact ⟨hlt, hid⟩
    · rw [hsusp r' hr] at hr'
      exact h.known r' hr'
  · by_cases hr : r' = r
    · rw [hr]
      exact ⟨hself, hready⟩
    · have hact : (s.receives r').active = some true := by
        simpa [ht, awaitSuspend, hr] using hr'
      rw [hsusp r' hr]
      exact h.active r' hact

/-- The receive that begins is the only one of its actor. -/
lemma Exclusive.beginReceive (h : Exclusive s) {a : ActorRef} {rest : List Frame}
    (hstack : s.stack = .running a :: rest) (visitors : List (Visitor M)) (timed : Bool) :
    Exclusive (s.beginReceive a rest visitors timed) := by
  have htidy := h.tidy.beginReceive hstack visitors timed
  have hrest : rest = [] := h.tidy.rest_eq_nil hstack rfl
  have hmem : Frame.running a ∈ s.stack := by rw [hstack]; exact List.mem_cons_self
  have hnew := h.newReceive a visitors timed
  obtain ⟨hlta, hpa, hfree⟩ := hnew.running a hmem
  have hself : (s.newReceive a visitors timed).receives s.nextReceive =
      { actor := a, visitors := visitors, timed := timed, stage := .matching } :=
    Function.update_self _ _ _
  rw [Runtime.beginReceive] at htidy ⊢
  cases hmatch : tryMatchMailbox visitors (s.actors a).mailbox with
  | some position =>
      simp only [hmatch] at htidy
      refine hnew.pushFrame (r := s.nextReceive) (.inl ⟨position, false, rfl, ?_, ?_⟩)
        (Nat.lt_succ_self _) htidy
      · rw [hself]
        exact hpa
      · rw [suspended, hself]
        rfl
  | none =>
      simp only [hmatch, hrest] at htidy
      simp only [hrest]
      refine hnew.suspend (Nat.lt_succ_self _) ?_ (fun r' hr' => ?_) ?_ ?_ htidy
      · rw [hself]
        exact hlta
      · rw [hself] at hr'
        exact hfree r' hr'
      · rw [hself]
        exact fun hs => (hnew.start a hs).2.2.1 hmem
      · exact fun hr => absurd (h.ready _ hr).1 (lt_irrefl _)

/-- What the end of a search leaves: the frame is gone and the receive has its result. -/
lemma Exclusive.completeMatch (h : Exclusive s) {r position : ℕ} {delivered : Bool}
    {rest : List Frame} (hstack : s.stack = .visiting r position delivered :: rest)
    (e : Envelope M) (value : R) :
    Exclusive ({ s.completeMatch r position e value with stack := rest } : Runtime M R) := by
  have htidy := (h.tidy.completeMatch r position e value).withStack (h.tidy.tail hstack)
  refine h.relax htidy (fun r' => ?_) (fun x r' hr' => ?_) rfl rfl rfl fun f hf _ => ?_
  · by_cases hr : r' = r
    · subst hr
      refine ⟨by simp [Runtime.completeMatch], by simp [suspended, Runtime.completeMatch], ?_⟩
      simp [Runtime.completeMatch]
    · simp [suspended, Runtime.completeMatch, hr]
  · by_cases hx : x = (s.receives r).actor <;> simpa [Runtime.completeMatch, hx] using hr'
  · rw [hstack]
    exact List.mem_cons_of_mem _ hf

lemma Exclusive.visitorReturned (h : Exclusive s) {r position : ℕ} {delivered : Bool}
    {rest : List Frame} (hstack : s.stack = .visiting r position delivered :: rest)
    (e : Envelope M) (value : R) :
    Exclusive (s.visitorReturned rest r position delivered e value) := by
  have htidy := h.tidy.visitorReturned hstack e value
  have hdone := h.completeMatch hstack e value
  obtain ⟨-, hp, hs⟩ := h.visiting r position delivered (by rw [hstack]; exact List.mem_cons_self)
  rw [Runtime.visitorReturned] at htidy ⊢
  cases delivered with
  | true =>
      refine hdone.schedule ?_ ?_ ?_
      · simpa [suspended, Runtime.completeMatch] using hs
      · simpa [Runtime.completeMatch] using hp
      · simp [Runtime.completeMatch]
  | false =>
      refine hdone.relax htidy (fun r' => ?_) (fun _ _ hr' => hr') rfl rfl rfl fun _ hf _ => hf
      by_cases hr : r' = r
      · have hold : (s.receives r).stage.suspended = false := hs
        have hnew : Stage.done.suspended = false := rfl
        simp [suspended, Runtime.completeMatch, hr, hold, hnew]
      · simp [suspended, Runtime.completeMatch, hr]

lemma Exclusive.timeoutReturned (h : Exclusive s) {r : ℕ} {rest : List Frame}
    (hstack : s.stack = .expiring r :: rest) (value : R) :
    Exclusive (s.timeoutReturned rest r value) := by
  obtain ⟨-, hs, hactive⟩ := h.expiring r (by rw [hstack]; exact List.mem_cons_self)
  set u : Runtime M R := { (s.updateReceive r fun w =>
      { w with storage := some value, outcomes := w.outcomes ++ [Outcome.timeout] }).updateActor
      (s.receives r).actor fun x => { x with pending := none } with stack := rest } with hu
  have hstored : Tidy (s.updateReceive r fun w =>
      { w with storage := some value, outcomes := w.outcomes ++ [Outcome.timeout] }) := by
    refine h.tidy.control rfl (fun r' => ?_) rfl h.tidy.base
    by_cases hr : r' = r <;> simp [hr]
  have htidy : Tidy u := (hstored.resetPending (s.receives r).actor).withStack (h.tidy.tail hstack)
  have hux : Exclusive u := by
    refine h.relax htidy (fun r' => ?_) (fun x r' hr' => ?_) rfl rfl rfl fun f hf _ => ?_
    · by_cases hr : r' = r <;> simp [hu, suspended, hr]
    · by_cases hx : x = (s.receives r).actor
      · simp [hu, hx] at hr'
      · simpa [hu, hx] using hr'
    · rw [hstack]
      exact List.mem_cons_of_mem _ hf
  refine hux.schedule ?_ ?_ ?_
  · simpa [hu, suspended] using hs
  · simp [hu]
  · simpa [hu] using hactive

lemma Exclusive.fireTimer (h : Exclusive s) {r : ℕ} (hstack : s.stack = []) :
    Exclusive (s.fireTimer r) := by
  have htidy := h.tidy.fireTimer (r := r) hstack
  have herased : Exclusive ({ s with timers := s.timers.erase r } : Runtime M R) :=
    h.same (h.tidy.control rfl (fun _ => ⟨rfl, rfl⟩) rfl h.tidy.base) rfl (fun _ _ hr => hr) rfl
      rfl rfl fun _ hf _ => hf
  rw [Runtime.fireTimer] at htidy ⊢
  split
  · rename_i hactive
    rw [if_pos (show (s.receives r).active = some true from hactive)] at htidy
    obtain ⟨hs, -⟩ := h.active r hactive
    set u : Runtime M R := { s with timers := s.timers.erase r }.updateReceive r
      fun w => { w with active := some false, stage := .expiring } with hu
    have hux : Exclusive u := by
      refine herased.relax (herased.tidy.control rfl (fun r' => ?_) rfl herased.tidy.base)
        (fun r' => ?_) (fun _ _ hr => hr) rfl rfl rfl fun _ hf _ => hf
      · by_cases hr : r' = r <;> simp [hu, hr]
      · by_cases hr : r' = r
        · rw [hr]
          have hold : (s.receives r).stage.suspended = true := hs
          have hnew : Stage.expiring.suspended = true := rfl
          simp [hu, suspended, hold, hnew, show (s.receives r).active = some true from hactive]
        · simp [hu, suspended, hr]
    have hsu : u.suspended r = true := by simp [hu, suspended, Stage.suspended]
    exact hux.pushFrame (.inr ⟨rfl, hsu, by simp [hu]⟩) (h.known r hs).1 htidy
  · exact herased

/-- The coroutine of an actor starts. -/
lemma Exclusive.resumeStart (h : Exclusive s) {a : ActorRef} {ready : List Handle}
    (hready : s.ready = .start a :: ready)
    (htidy : Tidy ({ s with ready := ready, stack := [.running a] } : Runtime M R)) :
    Exclusive ({ s with ready := ready, stack := [.running a] } : Runtime M R) := by
  obtain ⟨hlt, hcount, -, hp, hfree⟩ := h.start a (by simp [hready])
  have hmem : ∀ x ∈ ready, x ∈ s.ready := fun x hx => by
    rw [hready]
    exact List.mem_cons_of_mem _ hx
  refine ⟨htidy, fun r p d hf => ?_, fun r hf => ?_, fun x hx => ?_, fun x hx => ?_,
    fun r hr => h.ready r (hmem _ hr), h.pending, h.unique, h.known,
    fun r hr => ⟨(h.active r hr).1, fun hin => (h.active r hr).2 (hmem _ hin)⟩⟩
  · simp at hf
  · simp at hf
  · obtain rfl : x = a := by simpa using hx
    exact ⟨hlt, hp, hfree⟩
  · have hx' : Handle.start x ∈ ready := hx
    obtain ⟨hltx, hcountx, -, hpx, hfreex⟩ := h.start x (hmem _ hx')
    have hxa : x ≠ a := by
      rintro rfl
      rw [hready, List.count_cons_self] at hcount
      exact absurd (List.count_pos_iff.mpr hx') (by omega)
    refine ⟨hltx, ?_, by simpa using hxa, hpx, hfreex⟩
    rw [hready, List.count_cons_of_ne (by simpa using Ne.symm hxa)] at hcountx
    exact hcountx

/-- The coroutine of an actor goes on. -/
lemma Exclusive.resumeReceive (h : Exclusive s) {r : ℕ} {ready : List Handle}
    (hready : s.ready = .receive r :: ready) (hs : s.suspended r = true)
    (htidy : Tidy ({ s.updateReceive r fun w => { w with stage := .done } with
      ready := ready, stack := [.running (s.receives r).actor] } : Runtime M R)) :
    Exclusive ({ s.updateReceive r fun w => { w with stage := .done } with
      ready := ready, stack := [.running (s.receives r).actor] } : Runtime M R) := by
  set t : Runtime M R := { s.updateReceive r fun w => { w with stage := .done } with
    ready := ready, stack := [.running (s.receives r).actor] } with ht
  have hp : (s.actors (s.receives r).actor).pending = none :=
    (h.ready r (by rw [hready]; exact List.mem_cons_self)).2 hs
  have hactor : ∀ r', (t.receives r').actor = (s.receives r').actor := by
    intro r'
    by_cases hr : r' = r <;> simp [ht, hr]
  have hsusp : ∀ r', t.suspended r' = true → r' ≠ r ∧ s.suspended r' = true := by
    intro r' hr'
    by_cases hr : r' = r
    · simp [ht, suspended, hr, Stage.suspended] at hr'
    · exact ⟨hr, by simpa [ht, suspended, hr] using hr'⟩
  have hmem : ∀ x ∈ ready, x ∈ s.ready := fun x hx => by
    rw [hready]
    exact List.mem_cons_of_mem _ hx
  refine ⟨htidy, fun r' p d hf => ?_, fun r' hf => ?_, fun x hx => ?_, fun x hx => ?_,
    fun r' hr' => ?_, fun x r' hr' => ?_, fun r' r'' hr' hr'' hact => ?_, fun r' hr' => ?_,
    fun r' hr' => ?_⟩
  · simp [ht] at hf
  · simp [ht] at hf
  · -- the actor was suspended in this receive, and so in no other
    obtain rfl : x = (s.receives r).actor := by simpa [ht] using hx
    refine ⟨(h.known r hs).2, hp, fun r' hr' => Bool.eq_false_iff.mpr fun hs' => ?_⟩
    obtain ⟨hne, hs'⟩ := hsusp r' hs'
    rw [hactor] at hr'
    exact hne (h.unique r' r hs' hs hr')
  · have hx' : Handle.start x ∈ ready := hx
    obtain ⟨hltx, hcountx, -, hpx, hfreex⟩ := h.start x (hmem _ hx')
    have hne : x ≠ (s.receives r).actor := by
      rintro rfl
      rw [hfreex r rfl] at hs
      cases hs
    refine ⟨hltx, ?_, by simpa [ht] using hne, hpx,
      fun r' hr' => Bool.eq_false_iff.mpr fun hs' => ?_⟩
    · rw [hready, List.count_cons_of_ne (by simp)] at hcountx
      exact hcountx
    · rw [hactor] at hr'
      exact absurd (hsusp r' hs').2 (by rw [hfreex r' hr']; simp)
  · obtain ⟨hlt, hp'⟩ := h.ready r' (hmem _ hr')
    rw [hactor]
    exact ⟨hlt, fun hs' => hp' (hsusp r' hs').2⟩
  · have hpend : (s.actors x).pending = some r' := hr'
    have hs' := h.pending x r' hpend
    have hne : r' ≠ r := by
      rintro rfl
      rw [(h.tidy.pending x r' hpend).2.1, hpend] at hp
      cases hp
    simpa [ht, suspended, hne] using hs'
  · rw [hactor, hactor] at hact
    exact h.unique r' r'' (hsusp r' hr').2 (hsusp r'' hr'').2 hact
  · rw [hactor]
    exact h.known r' (hsusp r' hr').2
  · have hold : (s.receives r').active = some true := by
      by_cases hr : r' = r <;> simpa [ht, hr] using hr'
    obtain ⟨hs', hnot⟩ := h.active r' hold
    have hne : r' ≠ r := by
      rintro rfl
      exact hnot (by rw [hready]; exact List.mem_cons_self)
    exact ⟨by simpa [ht, suspended, hne] using hs', fun hin => hnot (hmem _ hin)⟩

lemma Exclusive.spawn (h : Exclusive s) (linker monitorRef : ActorRef) :
    Exclusive ({ s with
      sched := (s.sched.spawnImpl linker monitorRef).2
      ready := s.ready ++ [.start (s.sched.spawnImpl linker monitorRef).1] } : Runtime M R) := by
  have hfresh : Handle.start s.sched.nextActorId ∉ s.ready :=
    fun hmem => absurd (h.start _ hmem).1 (lt_irrefl _)
  have hready : ∀ r, Handle.receive r ∈ s.ready ++ [.start s.sched.nextActorId] →
      Handle.receive r ∈ s.ready := by
    intro r hr
    simpa using hr
  refine ⟨h.tidy.control rfl (fun _ => ⟨rfl, rfl⟩) rfl h.tidy.base, h.visiting, h.expiring,
    fun x hx => ?_, fun x hx => ?_, fun r hr => h.ready r (hready r hr), h.pending, h.unique,
    fun r hr => ⟨(h.known r hr).1, Nat.lt_succ_of_lt (h.known r hr).2⟩,
    fun r hr => ⟨(h.active r hr).1, fun hin => (h.active r hr).2 (hready r hin)⟩⟩
  · obtain ⟨hlt, hrest⟩ := h.running x hx
    exact ⟨Nat.lt_succ_of_lt hlt, hrest⟩
  · rcases List.mem_append.mp hx with hold | hnew
    · obtain ⟨hlt, hcount, hrest⟩ := h.start x hold
      refine ⟨Nat.lt_succ_of_lt hlt, ?_, hrest⟩
      rw [List.count_append, hcount, List.count_singleton]
      simp [show (s.sched.spawnImpl linker monitorRef).1 = s.sched.nextActorId from rfl, hlt.ne']
    · -- no receive belongs to the new actor yet
      obtain rfl : x = s.sched.nextActorId :=
        Handle.start.inj (List.mem_singleton.mp hnew)
      have hnone : ∀ r, (s.receives r).actor = s.sched.nextActorId → s.suspended r = false := by
        intro r hr
        refine Bool.eq_false_iff.mpr fun hs => ?_
        exact absurd (h.known r hs).2 (by rw [hr]; exact lt_irrefl _)
      refine ⟨Nat.lt_succ_self _, ?_, fun hmem => ?_, ?_, hnone⟩
      · rw [List.count_append, List.count_eq_zero_of_not_mem hfresh]
        simp [show (s.sched.spawnImpl linker monitorRef).1 = s.sched.nextActorId from rfl]
      · exact absurd (h.running _ hmem).1 (lt_irrefl _)
      · cases hp : (s.actors s.sched.nextActorId).pending with
        | none => rfl
        | some r =>
            have hs := h.pending _ r hp
            rw [hnone r (h.tidy.pending _ r hp).2.1] at hs
            cases hs

/-- A signal leaves the fan-out of an exit. -/
lemma Exclusive.sending (h : Exclusive s) {a : ActorRef}
    {signals signals' : List (ActorRef × Signal)} {rest : List Frame}
    (hstack : s.stack = .exiting a signals :: rest) :
    Exclusive { s with stack := .exiting a signals' :: rest } := by
  have hrest := h.tidy.rest_eq_nil hstack rfl
  refine h.same (h.tidy.withStack ?_) rfl (fun _ _ hr => hr) rfl rfl rfl fun f hf hexit => ?_
  · rw [hrest]
    exact List.pairwise_singleton _ _
  · rcases List.mem_cons.mp hf with rfl | hf
    · cases hexit
    · rw [hstack]
      exact List.mem_cons_of_mem _ hf

lemma Exclusive.step {l : Label M R} (h : Exclusive s) (hstep : s.step l = some t) :
    Exclusive t := by
  have htidy := Tidy.step s l t h.tidy hstep
  cases moves_of_step hstep with
  | spawn linker monitorRef => exact h.spawn linker monitorRef
  | link left right sched _ hlink =>
      exact h.same htidy rfl (fun _ _ hr => hr) rfl rfl (SchedulerBase.nextActorId_link hlink)
        fun _ hf _ => hf
  | monitor monitorRef targetRef sched _ hmonitor =>
      exact h.same htidy rfl (fun _ _ hr => hr) rfl rfl
        (SchedulerBase.nextActorId_monitor hmonitor) fun _ hf _ => hf
  | linkRaises | monitorRaises | stopRaises | throw | «catch» =>
      exact h.same htidy rfl (fun _ _ hr => hr) rfl rfl rfl fun _ hf _ => hf
  | send target m => exact h.send target _
  | stop target reason =>
      refine Exclusive.enqueue ?_ target _
      refine h.same (h.tidy.setExitReason target reason) rfl (fun x r hr => ?_) rfl rfl rfl
        fun _ hf _ => hf
      by_cases hx : x = target <;> simpa [hx] using hr
  | receive visitors timed a rest hraise hstack => exact h.beginReceive hstack visitors timed
  | visitorReturn value r position delivered rest e hraise hstack he =>
      exact h.visitorReturned hstack e value
  | timeoutReturn value r rest hraise hstack => exact h.timeoutReturned hstack value
  | finish a rest hraise hstack | unwindRunning a rest hraise hstack =>
      refine h.same htidy rfl (fun _ _ hr => hr) rfl rfl rfl fun f hf hexit => ?_
      rcases List.mem_cons.mp hf with rfl | hf
      · cases hexit
      · rw [hstack]
        exact List.mem_cons_of_mem _ hf
  | signalled a rest hraise hstack | unwindExiting a signals rest hraise hstack
  | unwindExpiring r rest hraise hstack =>
      refine h.same htidy rfl (fun _ _ hr => hr) rfl rfl rfl fun f hf _ => ?_
      rw [hstack]
      exact List.mem_cons_of_mem _ hf
  | signal a target sg signals rest hraise hstack =>
      exact (h.sending hstack).send target _
  | unwindVisiting r position delivered rest hraise hstack =>
      have hmem : ∀ f ∈ rest, f ∈ s.stack := fun f hf => by
        rw [hstack]
        exact List.mem_cons_of_mem _ hf
      cases delivered with
      | true => exact h.same htidy rfl (fun _ _ hr => hr) rfl rfl rfl fun f hf _ => hmem f hf
      | false =>
          have hold : (s.receives r).stage.suspended = false :=
            (h.visiting r position false (by rw [hstack]; exact List.mem_cons_self)).2.2
          have hnew : Stage.done.suspended = false := rfl
          refine h.relax htidy (fun r' => ?_) (fun _ _ hr => hr) rfl rfl rfl
            fun f hf _ => hmem f hf
          by_cases hr : r' = r <;> simp [suspended, hr, hold, hnew]
  | resumeStart a ready hraise hstack hready => exact h.resumeStart hready htidy
  | resumeReceive r ready hraise hstack hready hs => exact h.resumeReceive hready hs htidy
  | fire r hraise hstack htimer => exact h.fireTimer hstack

lemma exclusive_of_run {labels : List (Label M R)} (hrun : run step {} labels = some s) :
    Exclusive s :=
  invariant_of_step (fun _ _ _ h hs => h.step hs) exclusive_empty hrun

/-! ### What a step does to the searches -/

/-- The message visitors that are running, innermost first. -/
def visits (s : Runtime M R) : List Frame := s.stack.filter Frame.isVisiting

lemma mem_visits {r position : ℕ} {delivered : Bool} :
    Frame.visiting r position delivered ∈ s.visits ↔
      Frame.visiting r position delivered ∈ s.stack := by
  simp [visits, Frame.isVisiting]

/-- No mailbox changes, and receives keep their actors and visitors. -/
structure SameMails (s t : Runtime M R) : Prop where
  mailbox : ∀ a, (t.actors a).mailbox = (s.actors a).mailbox
  enqueued : ∀ a, (t.actors a).enqueued = (s.actors a).enqueued
  receives : ∀ r < s.nextReceive, (t.receives r).actor = (s.receives r).actor ∧
    (t.receives r).visitors = (s.receives r).visitors
  nextReceive : s.nextReceive ≤ t.nextReceive

/-- A message is enqueued to one actor. -/
structure Arrives (a : ActorRef) (e : Envelope M) (s t : Runtime M R) : Prop where
  stamp : e.stamp = (s.actors a).enqueued.length
  mailbox : ∀ x, (t.actors x).mailbox = (s.actors x).mailbox ++ if x = a then [e] else []
  enqueued : ∀ x, (t.actors x).enqueued = (s.actors x).enqueued ++ if x = a then [e] else []
  receives : ∀ r < s.nextReceive, (t.receives r).actor = (s.receives r).actor ∧
    (t.receives r).visitors = (s.receives r).visitors
  nextReceive : s.nextReceive ≤ t.nextReceive

/-- A visitor starts on the first message that its receive accepts. -/
structure Starts (r position : ℕ) (delivered : Bool) (u t : Runtime M R) : Prop where
  same : SameMails u t
  lt : r < t.nextReceive
  stack : ∃ rest, t.stack = .visiting r position delivered :: rest
  visits : t.visits = .visiting r position delivered :: u.visits
  found : tryMatchMailbox (t.receives r).visitors (t.actors (t.receives r).actor).mailbox =
    some position
  free : ∀ r' p d, Frame.visiting r' p d ∈ u.visits →
    (t.receives r').actor ≠ (t.receives r).actor

/-- A visitor returns, and its message is erased. -/
structure Ends (r position : ℕ) (delivered : Bool) (e : Envelope M) (s t : Runtime M R) :
    Prop where
  visits : s.visits = .visiting r position delivered :: t.visits
  found : (s.actors (s.receives r).actor).mailbox[position]? = some e
  mailbox : ∀ x, (t.actors x).mailbox = if x = (s.receives r).actor then
    (s.actors x).mailbox.eraseIdx position else (s.actors x).mailbox
  enqueued : ∀ x, (t.actors x).enqueued = (s.actors x).enqueued
  receives : ∀ r, (t.receives r).actor = (s.receives r).actor ∧
    (t.receives r).visitors = (s.receives r).visitors
  nextReceive : t.nextReceive = s.nextReceive

/-- The steps by what they do to mailboxes and searches. -/
inductive Kind (s : Runtime M R) (l : Label M R) (t : Runtime M R) : Prop where
  | rest (hsame : SameMails s t) (hvisits : t.visits = s.visits)
  | arrives (a : ActorRef) (e : Envelope M) (harrives : Arrives a e s t)
      (hvisits : t.visits = s.visits)
  | starts (r position : ℕ) (hstarts : Starts r position false s t)
  | delivers (a : ActorRef) (e : Envelope M) (u : Runtime M R) (harrives : Arrives a e s u)
      (hvisits : u.visits = s.visits) (r position : ℕ) (hstarts : Starts r position true u t)
  | ends (r position : ℕ) (delivered : Bool) (e : Envelope M)
      (hends : Ends r position delivered e s t)
  /-- An exception leaves a visitor. -/
  | escapes (r position : ℕ) (delivered : Bool) (hunwind : l = .unwind)
      (hhead : s.stack.head?.any Frame.isVisiting = true) (hsame : SameMails s t)
      (hvisits : s.visits = .visiting r position delivered :: t.visits)

lemma sameMails_of_eq (hactors : ∀ a, (t.actors a).mailbox = (s.actors a).mailbox ∧
      (t.actors a).enqueued = (s.actors a).enqueued)
    (hrecv : ∀ r, (t.receives r).actor = (s.receives r).actor ∧
      (t.receives r).visitors = (s.receives r).visitors)
    (hnext : t.nextReceive = s.nextReceive) : SameMails s t :=
  ⟨fun a => (hactors a).1, fun a => (hactors a).2, fun r _ => hrecv r, hnext.ge⟩

/-- A message is enqueued in a state with the mails and searches of `s`. -/
lemma kind_enqueue {u : Runtime M R} {l : Label M R} (h : Exclusive u)
    (hactors : ∀ x, (u.actors x).mailbox = (s.actors x).mailbox ∧
      (u.actors x).enqueued = (s.actors x).enqueued)
    (hrecv : u.receives = s.receives) (hnext : u.nextReceive = s.nextReceive)
    (hvisits : u.visits = s.visits) (a : ActorRef) (m : Message M) :
    Kind s l (u.enqueueMessage a m) := by
  have hu : (u.pushMessage a m).receives = u.receives := rfl
  have harrives : Arrives a ⟨(u.actors a).enqueued.length, m⟩ s (u.pushMessage a m) := by
    refine ⟨by rw [(hactors a).2], fun x => ?_, fun x => ?_, fun _ _ => ?_, hnext.ge⟩
    · by_cases hx : x = a <;> simp [pushMessage, hx, (hactors _).1]
    · by_cases hx : x = a <;> simp [pushMessage, hx, (hactors _).2]
    · rw [hu, hrecv]
      exact ⟨rfl, rfl⟩
  rcases enqueueMessage_cases u a m with heq | ⟨r, position, hp, hmatch, heq⟩
  · rw [heq]
    exact .arrives a _ harrives hvisits
  · obtain ⟨hlt, hact, -⟩ := h.tidy.pending a r hp
    rw [heq]
    refine .delivers a _ (u.pushMessage a m) harrives hvisits r position
      ⟨⟨fun x => ?_, fun x => ?_, fun r' _ => ?_, le_rfl⟩, hlt, ⟨u.stack, rfl⟩, ?_, ?_, ?_⟩
    · by_cases hx : x = a <;> simp [hx]
    · by_cases hx : x = a <;> simp [hx]
    · by_cases hr : r' = r <;> simp [hr]
    · exact List.filter_cons_of_pos rfl
    · simpa [hu, hact] using hmatch
    · -- the receive is pending, and so no visitor of its actor runs
      intro r' p d hf hsame
      have hnone := (h.visiting r' p d (mem_visits.mp hf)).2.1
      have hact' : (u.receives r').actor = a := by
        by_cases hr : r' = r
        · rw [hr, hact]
        · simpa [hu, hr, hact] using hsame
      rw [hact', hp] at hnone
      cases hnone

lemma kind_send {u : Runtime M R} {l : Label M R} (h : Exclusive u)
    (hactors : ∀ x, (u.actors x).mailbox = (s.actors x).mailbox ∧
      (u.actors x).enqueued = (s.actors x).enqueued)
    (hrecv : u.receives = s.receives) (hnext : u.nextReceive = s.nextReceive)
    (hvisits : u.visits = s.visits) (a : ActorRef) (m : Message M) :
    Kind s l (u.send a m) := by
  rw [Runtime.send]
  split
  · exact kind_enqueue h hactors hrecv hnext hvisits a m
  · exact .rest (sameMails_of_eq hactors (fun r => by rw [hrecv]; exact ⟨rfl, rfl⟩) hnext) hvisits

/-- `receive` and `try_receive`: a visitor of a queued message starts, or none does. -/
lemma kind_beginReceive {l : Label M R} (h : Exclusive s) {a : ActorRef} {rest : List Frame}
    (hstack : s.stack = .running a :: rest) (visitors : List (Visitor M)) (timed : Bool) :
    Kind s l (s.beginReceive a rest visitors timed) := by
  have hrest : rest = [] := h.tidy.rest_eq_nil hstack rfl
  have hself : (s.newReceive a visitors timed).receives s.nextReceive =
      { actor := a, visitors := visitors, timed := timed, stage := .matching } :=
    Function.update_self _ _ _
  have hother : ∀ r < s.nextReceive,
      (s.newReceive a visitors timed).receives r = s.receives r :=
    fun r hr => Function.update_of_ne hr.ne _ _
  have hnovisits : s.visits = [] := by
    rw [visits, hstack, hrest]
    rfl
  rw [Runtime.beginReceive]
  cases hmatch : tryMatchMailbox visitors (s.actors a).mailbox with
  | some position =>
      refine .starts s.nextReceive position ⟨⟨fun _ => rfl, fun _ => rfl, fun r hr => ?_,
        Nat.le_succ _⟩, Nat.lt_succ_self _, ⟨s.stack, rfl⟩, List.filter_cons_of_pos rfl, ?_, ?_⟩
      · change ((s.newReceive a visitors timed).receives r).actor = _ ∧
          ((s.newReceive a visitors timed).receives r).visitors = _
        rw [hother r hr]
        exact ⟨rfl, rfl⟩
      · change tryMatchMailbox ((s.newReceive a visitors timed).receives s.nextReceive).visitors
          (s.actors ((s.newReceive a visitors timed).receives s.nextReceive).actor).mailbox = _
        rw [hself]
        exact hmatch
      · intro r' p d hf
        rw [hnovisits] at hf
        cases hf
  | none =>
      refine .rest ⟨fun x => ?_, fun x => ?_, fun r hr => ?_, Nat.le_succ _⟩ ?_
      · by_cases hx : x = a <;> simp [awaitSuspend, hx, newReceive]
      · by_cases hx : x = a <;> simp [awaitSuspend, hx, newReceive]
      · simp [awaitSuspend, hr.ne, hother r hr]
      · rw [hnovisits, hrest]
        rfl

/-- A visitor returns. -/
lemma ends_visitorReturned {r position : ℕ} {delivered : Bool} {rest : List Frame}
    {e : Envelope M} (hstack : s.stack = .visiting r position delivered :: rest)
    (he : (s.actors (s.receives r).actor).mailbox[position]? = some e) (value : R) :
    Ends r position delivered e s (s.visitorReturned rest r position delivered e value) := by
  refine ⟨?_, he, fun x => ?_, fun x => ?_, fun r' => ?_, ?_⟩
  · have hrest : (s.visitorReturned rest r position delivered e value).stack = rest := by
      cases delivered <;> rfl
    rw [visits, visits, hrest, hstack]
    exact List.filter_cons_of_pos rfl
  · cases delivered <;> by_cases hx : x = (s.receives r).actor <;>
      simp [Runtime.visitorReturned, Runtime.schedule, Runtime.completeMatch, hx]
  · cases delivered <;> by_cases hx : x = (s.receives r).actor <;>
      simp [Runtime.visitorReturned, Runtime.schedule, Runtime.completeMatch, hx]
  · cases delivered <;> by_cases hr : r' = r <;>
      simp [Runtime.visitorReturned, Runtime.schedule, Runtime.completeMatch, hr]
  · cases delivered <;> rfl

/-- Only receives change, and not in what they search for. -/
lemma kind_rest {l : Label M R} (hactors : ∀ x, (t.actors x).mailbox = (s.actors x).mailbox ∧
      (t.actors x).enqueued = (s.actors x).enqueued)
    (hrecv : ∀ r, (t.receives r).actor = (s.receives r).actor ∧
      (t.receives r).visitors = (s.receives r).visitors)
    (hnext : t.nextReceive = s.nextReceive) (hvisits : t.visits = s.visits) : Kind s l t :=
  .rest (sameMails_of_eq hactors hrecv hnext) hvisits

lemma step_kind {l : Label M R} (h : Exclusive s) (hstep : s.step l = some t) : Kind s l t := by
  have hsame : ∀ x, (s.actors x).mailbox = (s.actors x).mailbox ∧
      (s.actors x).enqueued = (s.actors x).enqueued := fun _ => ⟨rfl, rfl⟩
  -- a frame of another kind may come or go
  have hpop : ∀ {f g : Frame} {rest : List Frame}, s.stack = f :: rest → f.isVisiting = false →
      g.isVisiting = false → (rest.filter Frame.isVisiting = s.visits ∧
        (g :: rest).filter Frame.isVisiting = s.visits) := by
    intro f g rest hstack hf hg
    rw [visits, hstack, List.filter_cons_of_neg (by simp [hf]),
      List.filter_cons_of_neg (by simp [hg])]
    exact ⟨rfl, rfl⟩
  cases moves_of_step hstep with
  | spawn | link | linkRaises | monitor | monitorRaises | stopRaises | throw | «catch» =>
      exact kind_rest hsame (fun _ => ⟨rfl, rfl⟩) rfl rfl
  | send target m => exact kind_send h hsame rfl rfl rfl target _
  | stop target reason =>
      refine kind_enqueue (s := s) (h.same (h.tidy.setExitReason target reason) rfl
        (fun x r hr => ?_) rfl rfl rfl fun _ hf _ => hf) (fun x => ?_) rfl rfl rfl target _
      · by_cases hx : x = target <;> simpa [hx] using hr
      · by_cases hx : x = target <;> simp [hx]
  | receive visitors timed a rest hraise hstack => exact kind_beginReceive h hstack visitors timed
  | visitorReturn value r position delivered rest e hraise hstack he =>
      exact .ends r position delivered e (ends_visitorReturned hstack he value)
  | timeoutReturn value r rest hraise hstack =>
      refine kind_rest (fun x => ?_) (fun r' => ?_) rfl (hpop (g := .expiring r) hstack rfl rfl).1
      · by_cases hx : x = (s.receives r).actor <;>
          simp [Runtime.timeoutReturned, Runtime.schedule, hx]
      · by_cases hr : r' = r <;> simp [Runtime.timeoutReturned, Runtime.schedule, hr]
  | finish a rest hraise hstack | unwindRunning a rest hraise hstack =>
      exact kind_rest hsame (fun _ => ⟨rfl, rfl⟩) rfl (hpop hstack rfl rfl).2
  | signalled a rest hraise hstack | unwindExiting a signals rest hraise hstack
  | unwindExpiring r rest hraise hstack =>
      exact kind_rest hsame (fun _ => ⟨rfl, rfl⟩) rfl
        (hpop (g := .running 0) hstack rfl rfl).1
  | signal a target sg signals rest hraise hstack =>
      exact kind_send (h.sending hstack) hsame rfl rfl (hpop hstack rfl rfl).2 target _
  | unwindVisiting r position delivered rest hraise hstack =>
      refine .escapes r position delivered rfl (by rw [hstack]; rfl) ?_ ?_
      · cases delivered with
        | true => exact sameMails_of_eq hsame (fun _ => ⟨rfl, rfl⟩) rfl
        | false =>
            refine sameMails_of_eq hsame (fun r' => ?_) rfl
            by_cases hr : r' = r <;> simp [hr]
      · cases delivered <;> rw [visits, hstack] <;> exact List.filter_cons_of_pos rfl
  | resumeStart a ready hraise hstack hready =>
      refine kind_rest hsame (fun _ => ⟨rfl, rfl⟩) rfl ?_
      rw [visits, visits, hstack]
      rfl
  | resumeReceive r ready hraise hstack hready hs =>
      refine kind_rest hsame (fun r' => ?_) rfl ?_
      · by_cases hr : r' = r <;> simp [hr]
      · rw [visits, visits, hstack]
        rfl
  | fire r hraise hstack htimer =>
      rw [Runtime.fireTimer]
      split
      · refine kind_rest hsame (fun r' => ?_) rfl ?_
        · by_cases hr : r' = r <;> simp [hr]
        · rw [visits, visits]
          exact List.filter_cons_of_neg (by simp [Frame.isVisiting])
      · exact kind_rest hsame (fun _ => ⟨rfl, rfl⟩) rfl rfl

/-! ### The messages passed to visitors -/

/-- The message a step passes to a visitor, by its actor and its stamp. -/
def passed (s : Runtime M R) (l : Label M R) : Option (ActorRef × ℕ) :=
  (s.step l).bind fun t =>
    match t.stack with
    | .visiting r position _ :: _ =>
        if t.visits.length = s.visits.length + 1 then
          (t.actors (t.receives r).actor).mailbox[position]?.map fun e =>
            ((t.receives r).actor, e.stamp)
        else none
    | _ => none

/-- The messages passed to visitors in a run. -/
def passes (labels : List (Label M R)) : List (ActorRef × ℕ) :=
  (observations step passed {} labels).filterMap id

lemma passed_eq_none {l : Label M R} (hstep : s.step l = some t)
    (hvisits : t.visits.length ≤ s.visits.length) : s.passed l = none := by
  rw [passed, hstep, Option.bind_some]
  split
  · rw [if_neg (by omega)]
  · rfl

lemma passed_eq_some {l : Label M R} (hstep : s.step l = some t) {r position : ℕ}
    {delivered : Bool} {rest : List Frame} {e : Envelope M}
    (hstack : t.stack = .visiting r position delivered :: rest)
    (hvisits : t.visits.length = s.visits.length + 1)
    (he : (t.actors (t.receives r).actor).mailbox[position]? = some e) :
    s.passed l = some ((t.receives r).actor, e.stamp) := by
  simp only [passed, hstep, Option.bind_some, hstack, if_pos hvisits, he, Option.map_some]

/-- The visitors are run by receives of different actors. -/
def Apart (s : Runtime M R) (f g : Frame) : Prop :=
  ∀ r position delivered r' position' delivered', f = .visiting r position delivered →
    g = .visiting r' position' delivered' → (s.receives r).actor ≠ (s.receives r').actor

/-- The invariant: mailboxes, and the visitors that are running, against the messages that have
been passed so far. -/
structure Trace (s : Runtime M R) (history : List (ActorRef × ℕ)) : Prop where
  stamps : ∀ a, (s.actors a).enqueued.map Envelope.stamp =
    List.range (s.actors a).enqueued.length
  mailbox : ∀ a, (s.actors a).mailbox.Sublist (s.actors a).enqueued
  known : ∀ r position delivered, Frame.visiting r position delivered ∈ s.visits →
    r < s.nextReceive
  apart : s.visits.Pairwise s.Apart
  matched : ∀ r position delivered, Frame.visiting r position delivered ∈ s.visits →
    tryMatchMailbox (s.receives r).visitors (s.actors (s.receives r).actor).mailbox =
      some position
  found : ∀ r position delivered e, Frame.visiting r position delivered ∈ s.visits →
    (s.actors (s.receives r).actor).mailbox[position]? = some e →
      ((s.receives r).actor, e.stamp) ∈ history
  old : ∀ p ∈ history, p.2 < (s.actors p.1).enqueued.length

/-- No message has been passed twice, and one still queued is being visited if it has been
passed. -/
structure Once (s : Runtime M R) (history : List (ActorRef × ℕ)) : Prop where
  nodup : history.Nodup
  visited : ∀ a, ∀ e ∈ (s.actors a).mailbox, (a, e.stamp) ∈ history →
    ∃ r position delivered, Frame.visiting r position delivered ∈ s.visits ∧
      (s.receives r).actor = a ∧ (s.actors a).mailbox[position]? = some e

/-- Nothing has been passed yet. -/
lemma trace_empty : Trace ({} : Runtime M R) [] where
  stamps a := rfl
  mailbox a := List.Sublist.refl _
  known r position delivered h := by cases h
  apart := List.Pairwise.nil
  matched r position delivered h := by cases h
  found r position delivered e h := by cases h
  old p h := by cases h

lemma once_empty : Once ({} : Runtime M R) [] where
  nodup := List.nodup_nil
  visited a e h := by cases h

variable {history : List (ActorRef × ℕ)}

/-- The messages of a mailbox differ in their stamps. -/
lemma Trace.nodup_stamps (h : Trace s history) (a : ActorRef) :
    ((s.actors a).mailbox.map Envelope.stamp).Nodup := by
  refine ((h.mailbox a).map Envelope.stamp).nodup ?_
  rw [h.stamps a]
  exact List.nodup_range

/-- Visitors end at most, and nothing else changes. -/
lemma Trace.same (h : Trace s history) (hsame : SameMails s t)
    (hvisits : t.visits.Sublist s.visits) : Trace t history := by
  refine ⟨fun a => ?_, fun a => ?_, fun r p d hf => ?_, ?_, fun r p d hf => ?_,
    fun r p d e hf he => ?_, fun p hp => ?_⟩
  · rw [hsame.enqueued]
    exact h.stamps a
  · rw [hsame.enqueued, hsame.mailbox]
    exact h.mailbox a
  · exact (h.known r p d (hvisits.subset hf)).trans_le hsame.nextReceive
  · refine (h.apart.sublist hvisits).imp_of_mem fun {f g} hf hg hfg r p d r' p' d' hfr hgr => ?_
    have hr := h.known r p d (hvisits.subset (hfr ▸ hf))
    have hr' := h.known r' p' d' (hvisits.subset (hgr ▸ hg))
    rw [(hsame.receives r hr).1, (hsame.receives r' hr').1]
    exact hfg r p d r' p' d' hfr hgr
  · have hr := hsame.receives r (h.known r p d (hvisits.subset hf))
    rw [hr.1, hr.2, hsame.mailbox]
    exact h.matched r p d (hvisits.subset hf)
  · have hr := hsame.receives r (h.known r p d (hvisits.subset hf))
    rw [hr.1, hsame.mailbox] at he
    rw [hr.1]
    exact h.found r p d e (hvisits.subset hf) he
  · rw [hsame.enqueued]
    exact h.old p hp

lemma Once.same (h : Once s history) (htrace : Trace s history) (hsame : SameMails s t)
    (hvisits : t.visits = s.visits) : Once t history := by
  refine ⟨h.nodup, fun a e he hmem => ?_⟩
  rw [hsame.mailbox] at he ⊢
  obtain ⟨r, p, d, hf, hact, hget⟩ := h.visited a e he hmem
  refine ⟨r, p, d, hvisits ▸ hf, ?_, hget⟩
  rw [(hsame.receives r (htrace.known r p d hf)).1, hact]

/-- What a search has found stays the first match when a message arrives. -/
lemma tryMatchMailbox_append {visitors : List (Visitor M)} {mailbox new : List (Envelope M)}
    {position : ℕ} (h : tryMatchMailbox visitors mailbox = some position) :
    tryMatchMailbox visitors (mailbox ++ new) = some position := by
  rw [tryMatchMailbox] at h ⊢
  rw [List.findIdx?_append, h]
  rfl

lemma Trace.arrives (h : Trace s history) {a : ActorRef} {e : Envelope M}
    (harrives : Arrives a e s t) (hvisits : t.visits = s.visits) : Trace t history := by
  refine ⟨fun x => ?_, fun x => ?_, fun r p d hf => ?_, ?_, fun r p d hf => ?_,
    fun r p d e' hf he => ?_, fun p hp => ?_⟩
  · rw [harrives.enqueued]
    by_cases hx : x = a
    · rw [if_pos hx, List.map_append, h.stamps, List.length_append, hx]
      simp [harrives.stamp, List.range_succ]
    · rw [if_neg hx, List.append_nil]
      exact h.stamps x
  · rw [harrives.enqueued, harrives.mailbox]
    exact (h.mailbox x).append (List.Sublist.refl _)
  · exact (h.known r p d (hvisits ▸ hf)).trans_le harrives.nextReceive
  · rw [hvisits]
    refine h.apart.imp_of_mem fun {f g} hf hg hfg r p d r' p' d' hfr hgr => ?_
    rw [(harrives.receives r (h.known r p d (hfr ▸ hf))).1,
      (harrives.receives r' (h.known r' p' d' (hgr ▸ hg))).1]
    exact hfg r p d r' p' d' hfr hgr
  · have hr := harrives.receives r (h.known r p d (hvisits ▸ hf))
    rw [hr.1, hr.2, harrives.mailbox]
    exact tryMatchMailbox_append (h.matched r p d (hvisits ▸ hf))
  · -- the message found is not the one that arrives
    have hr := harrives.receives r (h.known r p d (hvisits ▸ hf))
    have hmatched := h.matched r p d (hvisits ▸ hf)
    obtain ⟨e'', he'', -⟩ := getElem?_of_tryMatchMailbox hmatched
    rw [hr.1, harrives.mailbox,
      List.getElem?_append_left (List.getElem?_eq_some_iff.mp he'').1] at he
    rw [hr.1]
    exact h.found r p d e' (hvisits ▸ hf) he
  · rw [harrives.enqueued, List.length_append]
    exact Nat.lt_add_right _ (h.old p hp)

lemma Once.arrives (h : Once s history) (htrace : Trace s history) {a : ActorRef}
    {e : Envelope M} (harrives : Arrives a e s t) (hvisits : t.visits = s.visits) :
    Once t history := by
  refine ⟨h.nodup, fun x e' he' hmem => ?_⟩
  rw [harrives.mailbox] at he' ⊢
  rcases List.mem_append.mp he' with hold | hnew
  · obtain ⟨r, p, d, hf, hact, hget⟩ := h.visited x e' hold hmem
    refine ⟨r, p, d, hvisits ▸ hf, ?_, ?_⟩
    · rw [(harrives.receives r (htrace.known r p d hf)).1, hact]
    · rw [List.getElem?_append_left (List.getElem?_eq_some_iff.mp hget).1, hget]
  · -- the stamp of a new message is not in the history
    obtain ⟨rfl, rfl⟩ : x = a ∧ e' = e := by
      by_cases hx : x = a
      · exact ⟨hx, by simpa [hx] using hnew⟩
      · simp [hx] at hnew
    have hlt := htrace.old _ hmem
    rw [harrives.stamp] at hlt
    exact absurd hlt (lt_irrefl _)

/-- A visitor that starts is one more, on the message it is passed. -/
lemma Trace.starts (h : Trace s history) {r position : ℕ} {delivered : Bool} {e : Envelope M}
    (hstarts : Starts r position delivered s t)
    (he : (t.actors (t.receives r).actor).mailbox[position]? = some e) :
    Trace t (history ++ [((t.receives r).actor, e.stamp)]) := by
  have hcases : ∀ {r' p' d'}, Frame.visiting r' p' d' ∈ t.visits →
      (r' = r ∧ p' = position) ∨ Frame.visiting r' p' d' ∈ s.visits := by
    intro r' p' d' hf
    rw [hstarts.visits] at hf
    rcases List.mem_cons.mp hf with heq | hf
    · obtain ⟨rfl, rfl, rfl⟩ := Frame.visiting.inj heq
      exact .inl ⟨rfl, rfl⟩
    · exact .inr hf
  have hrecv : ∀ {r' p' d'}, Frame.visiting r' p' d' ∈ s.visits →
      (t.receives r').actor = (s.receives r').actor ∧
        (t.receives r').visitors = (s.receives r').visitors :=
    fun hf => hstarts.same.receives _ (h.known _ _ _ hf)
  refine ⟨fun a => ?_, fun a => ?_, fun r' p' d' hf => ?_, ?_, fun r' p' d' hf => ?_,
    fun r' p' d' e' hf he' => ?_, fun q hq => ?_⟩
  · rw [hstarts.same.enqueued]
    exact h.stamps a
  · rw [hstarts.same.enqueued, hstarts.same.mailbox]
    exact h.mailbox a
  · rcases hcases hf with ⟨rfl, -⟩ | hf
    · exact hstarts.lt
    · exact (h.known r' p' d' hf).trans_le hstarts.same.nextReceive
  · rw [hstarts.visits]
    refine List.pairwise_cons.mpr ⟨fun g hg r₁ p₁ d₁ r₂ p₂ d₂ h₁ h₂ => ?_,
      h.apart.imp_of_mem fun {f g} hf hg hfg r₁ p₁ d₁ r₂ p₂ d₂ h₁ h₂ => ?_⟩
    · obtain ⟨rfl, rfl, rfl⟩ := Frame.visiting.inj h₁
      exact (hstarts.free r₂ p₂ d₂ (h₂ ▸ hg)).symm
    · rw [(hrecv (h₁ ▸ hf)).1, (hrecv (h₂ ▸ hg)).1]
      exact hfg r₁ p₁ d₁ r₂ p₂ d₂ h₁ h₂
  · rcases hcases hf with ⟨rfl, rfl⟩ | hf
    · exact hstarts.found
    · rw [(hrecv hf).1, (hrecv hf).2, hstarts.same.mailbox]
      exact h.matched r' p' d' hf
  · rcases hcases hf with ⟨rfl, rfl⟩ | hf
    · obtain rfl := Option.some.inj (he.symm.trans he')
      exact List.mem_append_right _ List.mem_cons_self
    · rw [(hrecv hf).1, hstarts.same.mailbox] at he'
      rw [(hrecv hf).1]
      exact List.mem_append_left _ (h.found r' p' d' e' hf he')
  · rw [hstarts.same.enqueued]
    rcases List.mem_append.mp hq with hq | hq
    · exact h.old q hq
    · -- the message is in the mailbox, and so among those enqueued
      obtain rfl := List.mem_singleton.mp hq
      have hmem : e ∈ (s.actors (t.receives r).actor).enqueued := by
        rw [hstarts.same.mailbox] at he
        exact (h.mailbox _).subset (List.mem_of_getElem? he)
      have hstamp := List.mem_map_of_mem (f := Envelope.stamp) hmem
      rw [h.stamps] at hstamp
      exact List.mem_range.mp hstamp

lemma Once.starts (h : Once s history) (htrace : Trace s history) {r position : ℕ}
    {delivered : Bool} {e : Envelope M} (hstarts : Starts r position delivered s t)
    (he : (t.actors (t.receives r).actor).mailbox[position]? = some e) :
    Once t (history ++ [((t.receives r).actor, e.stamp)]) := by
  have hmem : e ∈ (s.actors (t.receives r).actor).mailbox := by
    rw [hstarts.same.mailbox] at he
    exact List.mem_of_getElem? he
  refine ⟨List.nodup_append.mpr ⟨h.nodup, List.nodup_singleton _, fun q hq q' hq' => ?_⟩,
    fun a e' he' hin => ?_⟩
  · -- a message that has been passed and is still queued has a visitor of its actor running
    rintro rfl
    obtain rfl := List.mem_singleton.mp hq'
    obtain ⟨r', p, d, hf, hact, -⟩ := h.visited _ e hmem hq
    refine hstarts.free r' p d hf ?_
    rw [(hstarts.same.receives r' (htrace.known r' p d hf)).1, hact]
  · rcases List.mem_append.mp hin with hin | hin
    · rw [hstarts.same.mailbox] at he' ⊢
      obtain ⟨r', p, d, hf, hact, hget⟩ := h.visited a e' he' hin
      refine ⟨r', p, d, ?_, ?_, hget⟩
      · rw [hstarts.visits]
        exact List.mem_cons_of_mem _ hf
      · rw [(hstarts.same.receives r' (htrace.known r' p d hf)).1, hact]
    · obtain ⟨rfl, hstamp⟩ := Prod.mk.inj (List.mem_singleton.mp hin)
      have heq : e' = e := by
        rw [hstarts.same.mailbox] at he'
        exact List.inj_on_of_nodup_map (htrace.nodup_stamps _) he' hmem hstamp
      refine ⟨r, position, delivered, ?_, rfl, heq ▸ he⟩
      rw [hstarts.visits]
      exact List.mem_cons_self

/-- A visitor that returns is one less, and the mailboxes of the others stay as they are. -/
lemma Trace.ends (h : Trace s history) {r position : ℕ} {delivered : Bool} {e : Envelope M}
    (hends : Ends r position delivered e s t) : Trace t history := by
  have hpair := h.apart
  rw [hends.visits] at hpair
  have hmem : ∀ {f}, f ∈ t.visits → f ∈ s.visits := fun hf => by
    rw [hends.visits]
    exact List.mem_cons_of_mem _ hf
  have hmailbox : ∀ {r' p' d'}, Frame.visiting r' p' d' ∈ t.visits →
      (t.actors (s.receives r').actor).mailbox = (s.actors (s.receives r').actor).mailbox := by
    intro r' p' d' hf
    have hne := (List.pairwise_cons.mp hpair).1 _ hf _ _ _ _ _ _ rfl rfl
    rw [hends.mailbox, if_neg hne.symm]
  refine ⟨fun a => ?_, fun a => ?_, fun r' p' d' hf => ?_, ?_, fun r' p' d' hf => ?_,
    fun r' p' d' e' hf he' => ?_, fun q hq => ?_⟩
  · rw [hends.enqueued]
    exact h.stamps a
  · rw [hends.enqueued, hends.mailbox]
    split
    · exact (List.eraseIdx_sublist _ _).trans (h.mailbox a)
    · exact h.mailbox a
  · rw [hends.nextReceive]
    exact h.known r' p' d' (hmem hf)
  · refine (List.pairwise_cons.mp hpair).2.imp fun {f g} hfg r₁ p₁ d₁ r₂ p₂ d₂ h₁ h₂ => ?_
    rw [(hends.receives r₁).1, (hends.receives r₂).1]
    exact hfg r₁ p₁ d₁ r₂ p₂ d₂ h₁ h₂
  · rw [(hends.receives r').1, (hends.receives r').2, hmailbox hf]
    exact h.matched r' p' d' (hmem hf)
  · rw [(hends.receives r').1, hmailbox hf] at he'
    rw [(hends.receives r').1]
    exact h.found r' p' d' e' (hmem hf) he'
  · rw [hends.enqueued]
    exact h.old q hq

lemma Once.ends (h : Once s history) (htrace : Trace s history) {r position : ℕ}
    {delivered : Bool} {e : Envelope M} (hends : Ends r position delivered e s t) :
    Once t history := by
  have hpair := htrace.apart
  rw [hends.visits] at hpair
  have hsub : ∀ a, (t.actors a).mailbox.Sublist (s.actors a).mailbox := by
    intro a
    rw [hends.mailbox]
    split
    · exact List.eraseIdx_sublist _ _
    · exact List.Sublist.refl _
  refine ⟨h.nodup, fun a e' he' hin => ?_⟩
  obtain ⟨r', p', d', hf, hact, hget⟩ := h.visited a e' ((hsub a).subset he') hin
  rw [hends.visits] at hf
  rcases List.mem_cons.mp hf with heq | hf
  · -- the message of the visitor that returns is gone
    obtain ⟨rfl, rfl, rfl⟩ := Frame.visiting.inj heq
    have hnodup : (s.actors a).mailbox.Nodup := (htrace.nodup_stamps a).of_map _
    rw [hends.mailbox, if_pos hact.symm] at he'
    obtain ⟨hlt, rfl⟩ := List.getElem?_eq_some_iff.mp hget
    obtain ⟨i, hi, hne, heq⟩ := List.mem_eraseIdx_iff_getElem.mp he'
    exact absurd ((hnodup.getElem_inj_iff).mp heq) hne
  · have hne := (List.pairwise_cons.mp hpair).1 _ hf _ _ _ _ _ _ rfl rfl
    refine ⟨r', p', d', hf, (hends.receives r').1.trans hact, ?_⟩
    rw [hends.mailbox, if_neg (fun heq => hne (heq.symm.trans hact.symm)), hget]

/-- An exception that is on its way leaves no message visitor. -/
def Contained (s : Runtime M R) (l : Label M R) : Prop :=
  l = .unwind → s.stack.head?.any Frame.isVisiting = false

lemma contained_of_quiet {l : Label M R} (h : s.Quiet l) : Contained s l := by
  rintro rfl
  exact h

/-- Where no visitor starts, nothing is passed. -/
lemma append_passed {l : Label M R} (hstep : s.step l = some t)
    (hvisits : t.visits.length ≤ s.visits.length) : history ++ (s.passed l).toList = history := by
  rw [passed_eq_none hstep hvisits, Option.toList_none, List.append_nil]

/-- A visitor that starts is passed the message that the search has found. -/
lemma passed_starts {l : Label M R} {u : Runtime M R} {r position : ℕ} {delivered : Bool}
    (hstep : s.step l = some t) (hvisits : u.visits = s.visits)
    (hstarts : Starts r position delivered u t) :
    ∃ e, (t.actors (t.receives r).actor).mailbox[position]? = some e ∧
      s.passed l = some ((t.receives r).actor, e.stamp) := by
  obtain ⟨e, he, -⟩ := getElem?_of_tryMatchMailbox hstarts.found
  obtain ⟨rest, hstack⟩ := hstarts.stack
  refine ⟨e, he, passed_eq_some hstep hstack ?_ he⟩
  rw [hstarts.visits, List.length_cons, hvisits]

lemma Trace.step {l : Label M R} (h : Trace s history) (hex : Exclusive s)
    (hstep : s.step l = some t) : Trace t (history ++ (s.passed l).toList) := by
  cases step_kind hex hstep with
  | rest hsame hvisits =>
      rw [append_passed hstep (congrArg List.length hvisits).le]
      exact h.same hsame (hvisits ▸ List.Sublist.refl _)
  | arrives a e harrives hvisits =>
      rw [append_passed hstep (congrArg List.length hvisits).le]
      exact h.arrives harrives hvisits
  | starts r position hstarts =>
      obtain ⟨e, he, hpassed⟩ := passed_starts hstep rfl hstarts
      rw [hpassed]
      exact h.starts hstarts he
  | delivers a e u harrives hvisits r position hstarts =>
      obtain ⟨e', he', hpassed⟩ := passed_starts hstep hvisits hstarts
      rw [hpassed]
      exact (h.arrives harrives hvisits).starts hstarts he'
  | ends r position delivered e hends =>
      rw [append_passed hstep (by simp [hends.visits])]
      exact h.ends hends
  | escapes r position delivered hunwind hhead hsame hvisits =>
      rw [append_passed hstep (by simp [hvisits])]
      exact h.same hsame (hvisits ▸ List.sublist_cons_self _ _)

lemma Once.step {l : Label M R} (h : Once s history) (htrace : Trace s history)
    (hex : Exclusive s) (hcontained : Contained s l) (hstep : s.step l = some t) :
    Once t (history ++ (s.passed l).toList) := by
  cases step_kind hex hstep with
  | rest hsame hvisits =>
      rw [append_passed hstep (congrArg List.length hvisits).le]
      exact h.same htrace hsame hvisits
  | arrives a e harrives hvisits =>
      rw [append_passed hstep (congrArg List.length hvisits).le]
      exact h.arrives htrace harrives hvisits
  | starts r position hstarts =>
      obtain ⟨e, he, hpassed⟩ := passed_starts hstep rfl hstarts
      rw [hpassed]
      exact h.starts htrace hstarts he
  | delivers a e u harrives hvisits r position hstarts =>
      obtain ⟨e', he', hpassed⟩ := passed_starts hstep hvisits hstarts
      rw [hpassed]
      exact (h.arrives htrace harrives hvisits).starts (htrace.arrives harrives hvisits) hstarts he'
  | ends r position delivered e hends =>
      rw [append_passed hstep (by simp [hends.visits])]
      exact h.ends htrace hends
  | escapes r position delivered hunwind hhead hsame hvisits =>
      rw [hcontained hunwind] at hhead
      cases hhead

lemma passes_concat {labels : List (Label M R)} {l : Label M R}
    (hrun : run step {} labels = some s) (hstep : s.step l = some t) :
    passes (labels ++ [l]) = passes labels ++ (s.passed l).toList := by
  rw [passes, observations_concat hrun hstep, List.filterMap_append]
  cases s.passed l <;> rfl

lemma trace_of_run {labels : List (Label M R)} (hrun : run step {} labels = some s) :
    Trace s (passes labels) := by
  induction labels using List.reverseRecOn generalizing s with
  | nil =>
      obtain rfl := Option.some.inj hrun
      exact trace_empty
  | append_singleton labels l ih =>
      obtain ⟨u, hu, hstep⟩ := run_concat.mp hrun
      rw [passes_concat hu hstep]
      exact (ih hu).step (exclusive_of_run hu) hstep

lemma once_of_run {labels : List (Label M R)} (hrun : run step {} labels = some s)
    (hcontained : AllSteps step Contained {} labels) : Once s (passes labels) := by
  induction labels using List.reverseRecOn generalizing s with
  | nil =>
      obtain rfl := Option.some.inj hrun
      exact once_empty
  | append_singleton labels l ih =>
      obtain ⟨u, hu, hstep⟩ := run_concat.mp hrun
      obtain ⟨hall, hlast⟩ := (allSteps_append hu).mp hcontained
      rw [passes_concat hu hstep]
      exact (ih hu hall).step (trace_of_run hu) (exclusive_of_run hu) hlast.1 hstep

/-! ### A retry -/

/-- An actor catches what has left a visitor and calls `receive` with the same visitors. -/
def retry (s : Runtime M R) (r : ℕ) : List (Label M R) :=
  [.unwind, .catch, .receive (s.receives r).visitors false]

/-- The retry is passed the message that the visitor had. -/
lemma passes_retry {labels : List (Label M R)} (hrun : run step {} labels = some s)
    {r position : ℕ} (hraise : s.raising = true)
    (hstack : s.stack = [.visiting r position false, .running (s.receives r).actor]) :
    ∃ t, run step s (s.retry r) = some t ∧ ¬ (passes (labels ++ s.retry r)).Nodup := by
  have htrace := trace_of_run hrun
  have hmem : Frame.visiting r position false ∈ s.visits :=
    mem_visits.mpr (by rw [hstack]; exact List.mem_cons_self)
  have hmatched := htrace.matched r position false hmem
  obtain ⟨e, he, -⟩ := getElem?_of_tryMatchMailbox hmatched
  set a := (s.receives r).actor with ha
  set u : Runtime M R :=
    { s.updateReceive r fun w => { w with stage := .done } with stack := [.running a] } with hu
  have hunwind : s.step .unwind = some u := by
    simp [step, hraise, hstack, hu]
  have hcatch : u.step .catch = some { u with raising := false } := by
    simp [step, hu, hraise, Frame.isExiting]
  have hreceive : ({ u with raising := false } : Runtime M R).step
      (.receive (s.receives r).visitors false) =
        some (({ u with raising := false } : Runtime M R).beginReceive a []
          (s.receives r).visitors false) := rfl
  set v : Runtime M R := { u with raising := false } with hv
  set t := v.beginReceive a [] (s.receives r).visitors false with ht
  -- the message is still where the search of the receive had found it
  have hself : (v.newReceive a (s.receives r).visitors false).receives v.nextReceive =
      { actor := a, visitors := (s.receives r).visitors, timed := false, stage := .matching } :=
    Function.update_self _ _ _
  have hstarts : t = { v.newReceive a (s.receives r).visitors false with
      stack := .visiting v.nextReceive position false :: v.stack } := by
    rw [ht, Runtime.beginReceive, show v.actors = s.actors from rfl, hmatched]
  have hrun₂ : run step {} (labels ++ [.unwind] ++ [.catch]) = some v :=
    run_concat.mpr ⟨u, run_concat.mpr ⟨s, hrun, hunwind⟩, hcatch⟩
  have hpassed : v.passed (.receive (s.receives r).visitors false) = some (a, e.stamp) := by
    rw [passed_eq_some (e := e) hreceive (by rw [hstarts]) (by rw [hstarts]; rfl) ?_]
    · rw [hstarts, hself]
    · rw [hstarts, hself]
      exact he
  refine ⟨t, ?_, fun hnodup => ?_⟩
  · simp [retry, run_cons, hunwind, hcatch, hreceive]
  · have hsplit : labels ++ s.retry r =
        labels ++ [.unwind] ++ [.catch] ++ [.receive (s.receives r).visitors false] := by
      simp [retry]
    have hold : (a, e.stamp) ∈ passes (labels ++ [.unwind] ++ [.catch]) := by
      rw [passes_concat (run_concat.mpr ⟨s, hrun, hunwind⟩) hcatch, passes_concat hrun hunwind]
      exact List.mem_append_left _
        (List.mem_append_left _ (htrace.found r position false e hmem he))
    rw [hsplit, passes_concat hrun₂ hreceive, hpassed] at hnodup
    exact (List.nodup_append.mp hnodup).2.2 _ hold _ List.mem_cons_self rfl

/-- No message is passed to a visitor twice as long as no exception leaves a visitor and nothing
is added to a mailbox that is being searched; and the actor whose coroutine an exception leaves
may be passed the same message again. -/
theorem passed_at_most_once {labels : List (Label M R)} (hrun : run step {} labels = some s) :
    (AllSteps step Quiet {} labels → (passes labels).Nodup) ∧
    ∀ r position, s.raising = true →
      s.stack = [.visiting r position false, .running (s.receives r).actor] →
        ∃ t, run step s (s.retry r) = some t ∧ ¬ (passes (labels ++ s.retry r)).Nodup :=
  ⟨fun hquiet => (once_of_run hrun (hquiet.mono fun _ _ => contained_of_quiet)).nodup,
    fun _ _ hraise hstack => passes_retry hrun hraise hstack⟩

/-- An actor receives a message that has been queued for it. -/
def queued : List (Label ℕ ℕ) :=
  [.spawn 0 0, .resume, .send 1 7, .receive [fun _ => true] false]

/-- A visitor that returns is passed its message once; one that throws is passed it again. -/
theorem passed_at_most_once_queued :
    ((passes (queued ++ [.visitorReturn 0])).Nodup ∧
      passes (queued ++ [.visitorReturn 0]) = [(1, 0)]) ∧
    ∃ s : Runtime ℕ ℕ, run step {} (queued ++ [.throw]) = some s ∧
      ∃ t, run step s (s.retry 0) = some t ∧
        ¬ (passes (queued ++ [.throw] ++ s.retry 0)).Nodup := by
  refine ⟨⟨?_, by decide +kernel⟩, ?_⟩
  · refine (passed_at_most_once (run_eq_reached
      (show (run step {} (queued ++ [.visitorReturn 0])).isSome = true by decide +kernel))).1 ?_
    decide +kernel
  · have hrun := run_eq_reached
      (show (run step {} (queued ++ [.throw])).isSome = true by decide +kernel)
    exact ⟨_, hrun, (passed_at_most_once hrun).2 0 0 (by decide +kernel) (by rfl)⟩

/-- An actor whose visitor throws catches the exception and receives the same message again. -/
theorem passed_twice : ∃ labels : List (Label ℕ ℕ),
    (run step {} labels).isSome = true ∧ ¬ (passes labels).Nodup :=
  ⟨queued ++ [.throw, .unwind, .catch, .receive [fun _ => true] false], by decide +kernel,
    by decide +kernel⟩

end Runtime

end Agner
