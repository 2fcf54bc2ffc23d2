import Agner.Actor.Runtime
import Agner.Spec.ActorSystem

/-!
What the specification sees of the runtime: the projection of `actor.hpp` and `scheduler_base.hpp`
to the variables of `actor_system`.

* `View`: the part of the runtime that belongs to one actor. `SpecView`: that of the specification.
* `At`: how the two go together while no code is running.
* `view_updateReceive` and others: what the operations of the runtime do to the views.
-/

namespace Agner

open ActorSystem Runs

namespace Projection

variable {I P R : Type}

/-! ### Actors -/

/-- The visitor of all receives: a lambda that takes a `Ping`. -/
def acceptsPing : Visitor (Msg I P)
  | .user msg => msg.kind == .ping
  | .signal _ => false

/-- How often an actor calls `receive` or `try_receive`. -/
def callCount : SpawnKind → ℕ
  | .collector | .timeout => 1
  | .sequence => 2

/-- Where the specification has an actor that has made some of its calls. -/
def pcAfter : SpawnKind → ℕ → Pc
  | .collector, _ => .collect
  | .sequence, 0 => .seqFirst
  | .sequence, _ + 1 => .seqSecond
  | .timeout, _ => .trying

/-! ### Views -/

/-- The messages of the actor's own types. -/
def userMessages (mailbox : List (Envelope (Msg I P))) : List (Msg I P) :=
  mailbox.filterMap fun e =>
    match e.body with
    | .user msg => some msg
    | .signal _ => none

/-- What a visitor has been run on, as an observation. -/
def observation : Outcome (Msg I P) → Option (Observation I P)
  | .message e _ =>
      match e.body with
      | .user msg => some (.message msg)
      | .signal _ => none
  | .timeout => some .timeoutToken

/-- The actor whose coroutine a handle resumes. -/
def handleActor (s : Runtime (Msg I P) R) : Handle → ActorRef
  | .start a => a
  | .receive r => (s.receives r).actor

/-- The calls of `receive` and `try_receive` that an actor has made. -/
def callsOf (s : Runtime (Msg I P) R) (a : ActorRef) : List (ℕ × ReceiveAwaiter (Msg I P) R) :=
  ((List.range s.nextReceive).filter fun r => (s.receives r).actor = a).map
    fun r => (r, s.receives r)

/-- What belongs to one actor. -/
structure View (I P R : Type) where
  registered : Bool
  /-- The reference has not been handed out. -/
  fresh : Bool
  box : List (Msg I P)
  pending : Option ℕ
  calls : List (ℕ × ReceiveAwaiter (Msg I P) R)
  queued : List Handle

/-- What is read off the runtime about one actor. -/
def view (s : Runtime (Msg I P) R) (a : ActorRef) : View I P R where
  registered := s.registered a
  fresh := decide (s.sched.nextActorId ≤ a ∨ a = 0)
  box := userMessages (s.actors a).mailbox
  pending := (s.actors a).pending
  calls := callsOf s a
  queued := s.ready.filter fun h => handleActor s h = a

/-- The variables of the specification at one actor. -/
structure SpecView (I P : Type) where
  pc : Pc
  ready : Bool
  pendingResult : Pending I P
  box : List (Msg I P)
  armed : Bool
  observations : List (Observation I P)

/-- What is read off a state of the specification about one actor. -/
def specView (σ : State ActorRef I P) (a : ActorRef) : SpecView I P where
  pc := σ.pc a
  ready := decide (a ∈ σ.ready)
  pendingResult := σ.pendingResult a
  box := σ.mailboxes a
  armed := (σ.timers a).isSome
  observations := σ.observations a

/-- What a call has led to. -/
def observationsOf (x : ReceiveAwaiter (Msg I P) R) : List (Observation I P) :=
  x.outcomes.filterMap observation

/-- What the calls of an actor have led to. -/
def observed (calls : List (ℕ × ReceiveAwaiter (Msg I P) R)) : List (Observation I P) :=
  calls.flatMap fun p => observationsOf p.2

/-- The actor is resumed with it. -/
def pendingOf : Observation I P → Pending I P
  | .timeoutToken => .timeoutToken
  | .message msg => .message msg

/-- The call has returned. -/
structure Returned (x : ReceiveAwaiter (Msg I P) R) : Prop where
  stage : x.stage = .done
  inactive : x.active ≠ some true
  one : (observationsOf x).length = 1

/-- The call is suspended. -/
structure Waiting (kind : SpawnKind) (x : ReceiveAwaiter (Msg I P) R) : Prop where
  stage : x.stage = .waiting
  visitors : x.visitors = [acceptsPing]
  active : x.active = if kind = .timeout then some true else none
  outcomes : x.outcomes = []

/-- The call is going to be resumed. -/
structure Scheduled (o : Observation I P) (x : ReceiveAwaiter (Msg I P) R) : Prop where
  stage : x.stage = .scheduled
  inactive : x.active ≠ some true
  one : observationsOf x = [o]

/-- How the views of an actor go together while it is not running. -/
inductive At (kind : SpawnKind) (a : ActorRef) (v : View I P R) (w : SpecView I P) : Prop where
  | absent (hv : v = ⟨false, true, [], none, [], []⟩) (hpc : w.pc = .absent)
  | started (box : List (Msg I P)) (hv : v = ⟨true, false, box, none, [], [.start a]⟩)
      (hw : w = ⟨spawnPc kind, true, .noPending, box, false, []⟩)
  | blocked (box : List (Msg I P)) (past : List (ℕ × ReceiveAwaiter (Msg I P) R)) (r : ℕ)
      (x : ReceiveAwaiter (Msg I P) R) (hv : v = ⟨true, false, box, some r, past ++ [(r, x)], []⟩)
      (hpast : ∀ p ∈ past, Returned p.2) (hcount : past.length < callCount kind)
      (hx : Waiting kind x)
      (hw : w = ⟨pcAfter kind past.length, false, .noPending, box, decide (kind = .timeout),
        observed past⟩)
  | scheduled (box : List (Msg I P)) (past : List (ℕ × ReceiveAwaiter (Msg I P) R)) (r : ℕ)
      (x : ReceiveAwaiter (Msg I P) R) (o : Observation I P)
      (hv : v = ⟨true, false, box, none, past ++ [(r, x)], [.receive r]⟩)
      (hpast : ∀ p ∈ past, Returned p.2) (hcount : past.length < callCount kind)
      (hx : Scheduled o x)
      (hw : w = ⟨pcAfter kind past.length, true, pendingOf o, box, false, observed past⟩)
  | ended (box : List (Msg I P)) (calls : List (ℕ × ReceiveAwaiter (Msg I P) R))
      (hv : v = ⟨false, false, box, none, calls, []⟩) (hpast : ∀ p ∈ calls, Returned p.2)
      (hpc : w.pc = .done) (hobservations : w.observations = observed calls)

/-! ### Searching the mailbox -/

section Search

variable {mailbox : List (Envelope (Msg I P))} {pc : Pc}

lemma userMessages_append (mailbox mailbox' : List (Envelope (Msg I P))) :
    userMessages (mailbox ++ mailbox') = userMessages mailbox ++ userMessages mailbox' :=
  List.filterMap_append

lemma userMessages_cons_user {e : Envelope (Msg I P)} {msg : Msg I P} (h : e.body = .user msg) :
    userMessages (e :: mailbox) = msg :: userMessages mailbox := by
  simp [userMessages, h]

/-- The visitor accepts what the specification lets an actor in a receive go on with. -/
lemma matchesPc_iff {msg : Msg I P} (hpc : pc ≠ .absent ∧ pc ≠ .done) :
    matchesPc pc msg = acceptsPing (.user msg) := by
  cases pc <;> simp_all [matchesPc, acceptsPing]

/-- What the visitor does not accept does not match. -/
lemma not_matchesPc (hpc : pc ≠ .absent ∧ pc ≠ .done)
    (h : ∀ e ∈ mailbox, tryMatchVisitors [acceptsPing] e.body = false) :
    ∀ msg ∈ userMessages mailbox, matchesPc pc msg = false := by
  intro msg hmsg
  obtain ⟨e, he, hbody⟩ := List.mem_filterMap.mp hmsg
  have hno := h e he
  cases hb : e.body with
  | user m =>
      simp only [hb, Option.some.injEq] at hbody
      simpa [tryMatchVisitors, hb, matchesPc_iff hpc, hbody] using hno
  | signal sg => simp [hb] at hbody

/-- The runtime finds nothing: nothing matches. -/
lemma firstMatch_of_none (hpc : pc ≠ .absent ∧ pc ≠ .done)
    (h : tryMatchMailbox [acceptsPing] mailbox = none) :
    firstMatch pc (userMessages mailbox) = none :=
  firstMatch_eq_none.mpr (not_matchesPc hpc (tryMatchMailbox_eq_none.mp h))

/-- The runtime finds a message: it is the first one that matches. -/
lemma firstMatch_of_some {position : ℕ} (hpc : pc ≠ .absent ∧ pc ≠ .done)
    (h : tryMatchMailbox [acceptsPing] mailbox = some position) :
    ∃ e msg, mailbox[position]? = some e ∧ e.body = .user msg ∧
      firstMatch pc (userMessages mailbox) =
        some (msg, userMessages (mailbox.eraseIdx position)) := by
  obtain ⟨older, e, newer, rfl, rfl, hacc, hbefore⟩ := tryMatchMailbox_eq_some h
  cases hb : e.body with
  | signal sg => simp [tryMatchVisitors, hb, acceptsPing] at hacc
  | user msg =>
      have hmatch : matchesPc pc msg = true := by
        simpa [tryMatchVisitors, hb, matchesPc_iff hpc] using hacc
      refine ⟨e, msg, by simp, hb, ?_⟩
      rw [List.eraseIdx_append_of_length_le le_rfl, Nat.sub_self, List.eraseIdx_cons_zero,
        userMessages_append, userMessages_append, userMessages_cons_user hb]
      exact firstMatch_append (not_matchesPc hpc hbefore) hmatch

end Search

/-! ### The views after an operation -/

section Operations

variable {s : Runtime (Msg I P) R} {a : ActorRef} {r : ℕ}

lemma mem_callsOf {x : ReceiveAwaiter (Msg I P) R} :
    (r, x) ∈ callsOf s a ↔ r < s.nextReceive ∧ (s.receives r).actor = a ∧ x = s.receives r := by
  simp only [callsOf, List.mem_map, List.mem_filter, List.mem_range, Prod.mk.injEq,
    decide_eq_true_eq]
  constructor
  · rintro ⟨r', ⟨hlt, hactor⟩, rfl, rfl⟩
    exact ⟨hlt, hactor, rfl⟩
  · rintro ⟨hlt, hactor, rfl⟩
    exact ⟨r, ⟨hlt, hactor⟩, rfl, rfl⟩

lemma nodup_callsOf (s : Runtime (Msg I P) R) (a : ActorRef) :
    ((callsOf s a).map Prod.fst).Nodup := by
  have hfst : (Prod.fst ∘ fun r => (r, s.receives r)) = id := rfl
  rw [callsOf, List.map_map, hfst, List.map_id]
  exact List.nodup_range.filter _

section UpdateReceive

variable {f : ReceiveAwaiter (Msg I P) R → ReceiveAwaiter (Msg I P) R}

lemma callsOf_updateReceive (hf : ∀ x, (f x).actor = x.actor) :
    callsOf (s.updateReceive r f) a =
      (callsOf s a).map fun p => (p.1, if p.1 = r then f p.2 else p.2) := by
  have hactor : ∀ r', ((s.updateReceive r f).receives r').actor = (s.receives r').actor := by
    intro r'
    rw [Runtime.updateReceive_receives]
    split_ifs with h
    · rw [hf, h]
    · rfl
  simp only [callsOf, hactor, Runtime.updateReceive_nextReceive, List.map_map]
  refine List.map_congr_left fun r' _ => ?_
  by_cases h : r' = r
  · simp [h]
  · simp [h]

/-- The calls of other actors stay as they are. -/
lemma callsOf_updateReceive_of_ne (hf : ∀ x, (f x).actor = x.actor)
    (hne : (s.receives r).actor ≠ a) : callsOf (s.updateReceive r f) a = callsOf s a := by
  rw [callsOf_updateReceive hf]
  refine (List.map_congr_left fun p hp => ?_).trans (List.map_id _)
  obtain ⟨r', x⟩ := p
  obtain ⟨-, hactor, -⟩ := mem_callsOf.mp hp
  rw [if_neg]
  · rfl
  · rintro rfl
    exact hne hactor

/-- The last call of an actor changes. -/
lemma callsOf_updateReceive_last (hf : ∀ x, (f x).actor = x.actor)
    {past : List (ℕ × ReceiveAwaiter (Msg I P) R)} {x : ReceiveAwaiter (Msg I P) R}
    (hcalls : callsOf s a = past ++ [(r, x)]) :
    callsOf (s.updateReceive r f) a = past ++ [(r, f x)] := by
  have hnodup := nodup_callsOf s a
  rw [hcalls, List.map_append] at hnodup
  have hdisjoint := (List.nodup_append'.mp hnodup).2.2
  rw [callsOf_updateReceive hf, hcalls, List.map_append]
  congr 1
  · refine (List.map_congr_left fun p hp => ?_).trans (List.map_id _)
    rw [if_neg]
    · rfl
    · intro h
      exact hdisjoint (List.mem_map_of_mem hp) (by simp [h])
  · simp

end UpdateReceive

lemma callsOf_newReceive (visitors : List (Visitor (Msg I P))) (timed : Bool) (b : ActorRef) :
    callsOf (s.newReceive a visitors timed) b =
      callsOf s b ++ if a = b then
        [(s.nextReceive, { actor := a, visitors := visitors, timed := timed, stage := .matching })]
      else [] := by
  have hold : ∀ w, ∀ r ∈ List.range s.nextReceive,
      Function.update s.receives s.nextReceive w r = s.receives r :=
    fun w r hr => Function.update_of_ne (List.mem_range.mp hr).ne _ _
  simp only [callsOf, Runtime.newReceive, List.range_succ, List.filter_append, List.map_append]
  congr 1
  · rw [List.filter_congr (q := fun r => decide ((s.receives r).actor = b))
      fun r hr => by simp only [hold _ r hr]]
    exact List.map_congr_left fun r hr => by rw [hold _ r (List.mem_of_mem_filter hr)]
  · by_cases hab : a = b <;> simp [hab]

/-! #### Whole views -/

lemma view_updateActor (b : ActorRef) (f : ActorState (Msg I P) → ActorState (Msg I P)) :
    view (s.updateActor b f) a =
      if a = b then
        { view s a with
          box := userMessages (f (s.actors b)).mailbox
          pending := (f (s.actors b)).pending }
      else view s a := by
  split_ifs with hab
  · simp only [view, View.mk.injEq, Runtime.updateActor_actors, hab, if_true]
    exact ⟨rfl, rfl, trivial, trivial, rfl, rfl⟩
  · simp only [view, View.mk.injEq, Runtime.updateActor_actors, hab, if_false]
    exact ⟨rfl, rfl, trivial, trivial, rfl, rfl⟩

/-- A call begins. -/
lemma view_newReceive (visitors : List (Visitor (Msg I P))) (timed : Bool)
    (hready : .receive s.nextReceive ∉ s.ready) (b : ActorRef) :
    view (s.newReceive a visitors timed) b =
      if b = a then
        { view s a with
          calls := (view s a).calls ++ [(s.nextReceive,
            { actor := a, visitors := visitors, timed := timed, stage := .matching })] }
      else view s b := by
  have hqueued : (s.newReceive a visitors timed).ready.filter
      (fun h => handleActor (s.newReceive a visitors timed) h = b) =
        s.ready.filter fun h => handleActor s h = b := by
    refine List.filter_congr fun h hh => ?_
    cases h with
    | start => rfl
    | receive r' =>
        have hne : r' ≠ s.nextReceive := by
          rintro rfl
          exact hready hh
        refine decide_eq_decide.mpr ?_
        simp [handleActor, Runtime.newReceive, hne]
  split_ifs with hb
  · subst hb
    simp only [view, hqueued, callsOf_newReceive, if_true]
    rfl
  · simp only [view, hqueued, callsOf_newReceive, Ne.symm hb, if_false, List.append_nil]
    rfl

/-- Nothing is different but one actor, and the state of one of its calls. -/
structure ChangesCall (s t : Runtime (Msg I P) R) (a : ActorRef) (r : ℕ)
    (x : ReceiveAwaiter (Msg I P) R) : Prop where
  sched : t.sched = s.sched
  nextReceive : t.nextReceive = s.nextReceive
  actors : ∀ b, b ≠ a → t.actors b = s.actors b
  receives : ∀ r', t.receives r' = if r' = r then x else s.receives r'
  actor : (s.receives r).actor = a
  same : x.actor = a
  ready : ∀ b, b ≠ a →
    t.ready.filter (fun h => handleActor s h = b) = s.ready.filter fun h => handleActor s h = b

section ChangesCall

variable {t : Runtime (Msg I P) R} {x : ReceiveAwaiter (Msg I P) R}

lemma ChangesCall.receives_actor (h : ChangesCall s t a r x) (r' : ℕ) :
    (t.receives r').actor = (s.receives r').actor := by
  rw [h.receives]
  split_ifs with hr
  · rw [h.same, hr, h.actor]
  · rfl

lemma ChangesCall.handleActor_eq (h : ChangesCall s t a r x) : handleActor t = handleActor s := by
  funext c
  cases c with
  | start => rfl
  | receive r' => exact h.receives_actor r'

lemma ChangesCall.callsOf_eq (h : ChangesCall s t a r x) (b : ActorRef) :
    callsOf t b = callsOf (s.updateReceive r fun w => { x with actor := w.actor }) b := by
  have hreceives : t.receives =
      (s.updateReceive r fun w => { x with actor := w.actor }).receives := by
    funext r'
    rw [h.receives, Runtime.updateReceive_receives, h.actor, ← h.same]
  simp only [callsOf, hreceives, h.nextReceive, Runtime.updateReceive_nextReceive]

/-- The views of the other actors are the same. -/
lemma ChangesCall.view_of_ne {b : ActorRef} (h : ChangesCall s t a r x) (hb : b ≠ a) :
    view t b = view s b := by
  have hcalls : callsOf t b = callsOf s b := by
    rw [h.callsOf_eq]
    exact callsOf_updateReceive_of_ne (fun _ => rfl) (h.actor ▸ Ne.symm hb)
  simp only [view, h.handleActor_eq, h.ready b hb, hcalls, h.actors b hb, h.sched,
    Runtime.registered]

lemma ChangesCall.view_self {past : List (ℕ × ReceiveAwaiter (Msg I P) R)}
    {y : ReceiveAwaiter (Msg I P) R} (h : ChangesCall s t a r x)
    (hcalls : callsOf s a = past ++ [(r, y)]) :
    view t a = ⟨(view s a).registered, (view s a).fresh, userMessages (t.actors a).mailbox,
      (t.actors a).pending, past ++ [(r, x)], t.ready.filter fun h => handleActor s h = a⟩ := by
  have hy : y.actor = a := by
    obtain ⟨-, hactor, rfl⟩ := mem_callsOf.mp (hcalls ▸ (by simp) : (r, y) ∈ callsOf s a)
    exact hactor
  have hcalls' : callsOf t a = past ++ [(r, x)] := by
    have hlast := callsOf_updateReceive_last (f := fun w => { x with actor := w.actor })
      (fun _ => rfl) hcalls
    rw [h.callsOf_eq, hlast, hy, ← h.same]
  simp only [view, h.handleActor_eq, hcalls', h.sched, Runtime.registered]

end ChangesCall

end Operations

end Projection

end Agner
