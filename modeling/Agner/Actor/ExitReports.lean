import Agner.Actor.Retries
import Agner.Actor.Traffic
import Agner.Scheduler.ExitSignals

/-!
Exits of actors that run arbitrary user code, on a single-threaded scheduler.

Visitors that throw, nested deliveries, timeouts and retries do not show in the registry: what a
run of actors does there is a run of the network of `ExitSignals`, and the signals that actors
find in their mailboxes are the ones that network delivers, and the stop requests.

* `Unfinished`: the coroutine of an actor has not come to its end. Only registered actors have one.
* `registrySteps`, `stopRequests`: what a step does to the registry, and the stop it asks for.
* `Reflects`: the runtime and a state of the network agree.
* `exits_reported`: every run of the runtime is, in the registry, a run of the network.
-/

namespace Agner

open Runs ExitSignals

/-- The signal in a message. -/
def Message.signal? {M : Type} : Message M → Option Signal
  | .signal sg => some sg
  | .user _ => none

namespace Runtime

variable {M R : Type} {s t : Runtime M R} {n : Net} {a : ActorRef}

/-! ### What is seen of a run -/

/-- The coroutine of the actor has not come to its end. -/
def Unfinished (s : Runtime M R) (a : ActorRef) : Prop :=
  Frame.running a ∈ s.stack ∨ Handle.start a ∈ s.ready ∨
    ∃ r, s.suspended r = true ∧ (s.receives r).actor = a

/-- What a step does to the registry. -/
def registrySteps (s : Runtime M R) : Label M R → List ExitSignals.Label
  | .spawn linker monitorRef => [.spawn linker monitorRef]
  | .link left right => if s.registered left && s.registered right then [.link left right] else []
  | .monitor monitorRef targetRef =>
      if s.registered monitorRef && s.registered targetRef then [.monitor monitorRef targetRef]
      else []
  | .finish =>
      match s.stack with
      | .running a :: _ => [.exit a ((s.actors a).exitReason.getD .normal)]
      | _ => []
  | .unwind =>
      match s.stack with
      | .running a :: _ => [.exit a .error]
      | _ => []
  | .signal =>
      match s.stack with
      | .exiting a (_ :: _) :: _ => [.send a]
      | _ => []
  | _ => []

/-- The stop that a step asks for. -/
def stopRequests (s : Runtime M R) : Label M R → List (ActorRef × ExitReason)
  | .stop target reason => if s.registered target then [(target, reason)] else []
  | _ => []

/-- The signals enqueued to an actor. -/
def signals (s : Runtime M R) (a : ActorRef) : List Signal :=
  (s.actors a).enqueued.filterMap fun e => e.body.signal?

/-- Those that name other actors. -/
def reports (s : Runtime M R) (a : ActorRef) : List Signal :=
  (s.signals a).filter fun sg => sg.source ≠ a

/-- Those that name the actor itself. -/
def stopSignals (s : Runtime M R) (a : ActorRef) : List Signal :=
  (s.signals a).filter fun sg => sg.source = a

/-- No actor is joined with itself: `notify_exit` would then shorten the list it is walking. -/
def NoSelfLink (s : Runtime M R) : Label M R → Prop
  | .spawn linker _ => linker ≠ s.sched.nextActorId
  | .link left right => s.registered left = true → left ≠ right
  | _ => True

instance (s : Runtime M R) : ∀ l : Label M R, Decidable (s.NoSelfLink l)
  | .spawn linker _ => inferInstanceAs (Decidable (linker ≠ s.sched.nextActorId))
  | .link left right => inferInstanceAs (Decidable (s.registered left = true → left ≠ right))
  | .monitor .. | .send .. | .stop .. | .receive .. | .visitorReturn _ | .timeoutReturn _
  | .finish | .signal | .throw | .catch | .unwind | .resume | .fire _ => isTrue trivial

/-- No exception leaves `notify_exit`. -/
def Tells (s : Runtime M R) (l : Label M R) : Prop :=
  l = .unwind → s.stack.head?.any Frame.isExiting = false

/-! ### The registry of the one and of the other -/

/-- The tables are the same, and the same actors are registered. -/
structure SameTables (u v : SchedulerBase) : Prop where
  contains : ∀ a, u.actors.contains a = v.actors.contains a
  links : u.links = v.links
  monitors : u.monitors = v.monitors
  nextActorId : u.nextActorId = v.nextActorId

section SameTables

variable {u v w : SchedulerBase}

lemma SameTables.pendingSignals (h : SameTables u v) (a : ActorRef) (reason : ExitReason) :
    u.pendingSignals a reason = v.pendingSignals a reason := by
  simp only [SchedulerBase.pendingSignals, SchedulerBase.linksOf, SchedulerBase.monitorsOf,
    h.links, h.monitors]

lemma SameTables.spawnImpl (h : SameTables u v) (linker monitorRef : ActorRef) :
    SameTables (u.spawnImpl linker monitorRef).2 (v.spawnImpl linker monitorRef).2 := by
  refine ⟨fun a => ?_, ?_, ?_, ?_⟩
  · rw [SchedulerBase.contains_spawnImpl, SchedulerBase.contains_spawnImpl, h.contains,
      h.nextActorId]
  · simp only [SchedulerBase.spawnImpl, h.links, h.nextActorId]
  · simp only [SchedulerBase.spawnImpl, h.monitors, h.nextActorId]
  · simp only [SchedulerBase.spawnImpl, h.nextActorId]

lemma SameTables.link (h : SameTables u v) {left right : ActorRef}
    (hlink : u.link left right = some w) :
    ∃ w', v.link left right = some w' ∧ SameTables w w' := by
  rw [SchedulerBase.link, Option.ite_none_right_eq_some] at hlink
  obtain ⟨hreg, heq⟩ := hlink
  obtain rfl := Option.some.inj heq
  rw [h.contains, h.contains] at hreg
  rw [SchedulerBase.link, if_pos hreg]
  exact ⟨_, rfl, h.contains, by rw [h.links], h.monitors, h.nextActorId⟩

lemma SameTables.monitor (h : SameTables u v) {monitorRef targetRef : ActorRef}
    (hmonitor : u.monitor monitorRef targetRef = some w) :
    ∃ w', v.monitor monitorRef targetRef = some w' ∧ SameTables w w' := by
  rw [SchedulerBase.monitor, Option.ite_none_right_eq_some] at hmonitor
  obtain ⟨hreg, heq⟩ := hmonitor
  obtain rfl := Option.some.inj heq
  rw [h.contains, h.contains] at hreg
  rw [SchedulerBase.monitor, if_pos hreg]
  exact ⟨_, rfl, h.contains, h.links, by rw [h.monitors], h.nextActorId⟩

lemma SameTables.collectAndErase (h : SameTables u v) (a : ActorRef) :
    SameTables (u.collectAndErase a) (v.collectAndErase a) := by
  refine ⟨fun b => ?_, ?_, ?_, h.nextActorId⟩
  · simp only [SchedulerBase.collectAndErase, OrdMap.contains_erase, h.contains]
  · simp only [SchedulerBase.collectAndErase, SchedulerBase.linksOf, h.links]
  · simp only [SchedulerBase.collectAndErase, h.monitors]

/-- The network keeps the signals it delivers, which the runtime has in its mailboxes. -/
lemma SameTables.send (h : SameTables u v) (target : ActorRef) (sg : Signal) :
    SameTables u (v.send target sg) :=
  ⟨fun a => by rw [SchedulerBase.contains_send, h.contains], by simp [h.links],
    by simp [h.monitors], by simp [h.nextActorId]⟩

end SameTables

/-! ### Steps that do not show -/

/-- A step starts no coroutine. -/
lemma Unfinished.of_le (h : t.Unfinished a)
    (hstack : ∀ a, Frame.running a ∈ t.stack → Frame.running a ∈ s.stack)
    (hready : ∀ a, Handle.start a ∈ t.ready → Handle.start a ∈ s.ready)
    (hrecv : ∀ r, t.suspended r = true →
      s.suspended r = true ∧ (t.receives r).actor = (s.receives r).actor) : s.Unfinished a := by
  rcases h with hrun | hstart | ⟨r, hs, hact⟩
  · exact .inl (hstack a hrun)
  · exact .inr (.inl (hready a hstart))
  · exact .inr (.inr ⟨r, (hrecv r hs).1, (hrecv r hs).2.symm.trans hact⟩)

/-- Messages aside, nothing that shows is different. -/
structure Quiescent (s t : Runtime M R) : Prop where
  sched : t.sched = s.sched
  exitReason : ∀ x, (t.actors x).exitReason = (s.actors x).exitReason
  unfinished : ∀ x, t.Unfinished x → s.Unfinished x
  exiting : ∀ x signals, Frame.exiting x signals ∈ t.stack ↔ Frame.exiting x signals ∈ s.stack

/-- Nothing that shows is different. -/
structure Unseen (s t : Runtime M R) : Prop extends Quiescent s t where
  signals : ∀ x, t.signals x = s.signals x

lemma signals_eq (h : ∀ x, (t.actors x).enqueued = (s.actors x).enqueued) (x : ActorRef) :
    t.signals x = s.signals x := by
  rw [signals, h, signals]

lemma signals_enqueueMessage (s : Runtime M R) (a : ActorRef) (m : Message M) (x : ActorRef) :
    (s.enqueueMessage a m).signals x =
      s.signals x ++ if x = a then m.signal?.toList else [] := by
  rw [signals, enqueued_enqueueMessage, List.filterMap_append, signals]
  by_cases hx : x = a
  · cases m <;> simp [hx, Message.signal?]
  · simp [hx]

/-- The receive that is woken was suspended, and still is. -/
lemma quiescent_enqueueMessage
    (hpend : ∀ r, (s.actors a).pending = some r → s.suspended r = true) (m : Message M) :
    Quiescent s (s.enqueueMessage a m) := by
  rcases enqueueMessage_cases s a m with heq | ⟨r, position, hp, -, heq⟩
  · rw [heq]
    refine ⟨rfl, fun x => ?_, fun x => id, fun _ _ => Iff.rfl⟩
    by_cases hx : x = a <;> simp [pushMessage, hx]
  · rw [heq]
    refine ⟨rfl, fun x => ?_, fun x hx => ?_, fun x signals => by simp⟩
    · by_cases hx : x = a <;> simp [pushMessage, hx]
    · refine hx.of_le (fun x hx => ?_) (fun x hx => hx) fun r' hr' => ?_
      · simpa using hx
      · by_cases hr : r' = r
        · subst hr
          exact ⟨hpend r' hp, by simp [pushMessage]⟩
        · exact ⟨by simpa [suspended, pushMessage, hr] using hr', by simp [hr, pushMessage]⟩

lemma unseen_beginReceive (h : Exclusive s) {rest : List Frame}
    (hstack : s.stack = .running a :: rest) (visitors : List (Visitor M)) (timed : Bool) :
    Unseen s (s.beginReceive a rest visitors timed) := by
  have hrest : rest = [] := h.tidy.rest_eq_nil hstack rfl
  have hself : (s.newReceive a visitors timed).receives s.nextReceive =
      { actor := a, visitors := visitors, timed := timed, stage := .matching } :=
    Function.update_self _ _ _
  have hother : ∀ r, r ≠ s.nextReceive →
      (s.newReceive a visitors timed).receives r = s.receives r :=
    fun r hr => Function.update_of_ne hr _ _
  have hrunning : Frame.running a ∈ s.stack := by
    rw [hstack]
    exact List.mem_cons_self
  rw [Runtime.beginReceive]
  split
  · refine ⟨⟨rfl, fun _ => rfl, fun x hx => ?_, fun x signals => by simp⟩, fun _ => rfl⟩
    refine hx.of_le (fun y hy => by simpa using hy) (fun _ hy => hy) fun r hr => ?_
    have hne : r ≠ s.nextReceive := by
      rintro rfl
      simp [suspended, hself, Stage.suspended] at hr
    simpa [suspended, hother r hne] using hr
  · refine ⟨⟨rfl, fun x => ?_, fun x hx => ?_, fun x signals => ?_⟩,
      signals_eq fun x => ?_⟩
    · by_cases hx : x = a <;> simp [awaitSuspend, newReceive, hx]
    · rcases hx with hrun | hstart | ⟨r, hs, hact⟩
      · rw [hrest] at hrun
        cases hrun
      · exact .inr (.inl hstart)
      · by_cases hr : r = s.nextReceive
        · -- it is the actor's own coroutine that is suspended
          obtain rfl : a = x := by simpa [awaitSuspend, hr, hself] using hact
          exact .inl hrunning
        · refine .inr (.inr ⟨r, ?_, ?_⟩)
          · simpa [suspended, awaitSuspend, hr, hother r hr] using hs
          · simpa [awaitSuspend, hr, hother r hr] using hact
    · rw [hrest, hstack, hrest]
      simp
    · by_cases hx : x = a <;> simp [awaitSuspend, newReceive, hx]

lemma unseen_visitorReturned (h : Exclusive s) {r position : ℕ} {delivered : Bool}
    {rest : List Frame} (hstack : s.stack = .visiting r position delivered :: rest)
    (e : Envelope M) (value : R) :
    Unseen s (s.visitorReturned rest r position delivered e value) := by
  obtain ⟨-, -, hs⟩ := h.visiting r position delivered (by rw [hstack]; exact List.mem_cons_self)
  have htop : (s.visitorReturned rest r position delivered e value).stack = rest := by
    cases delivered <;> rfl
  refine ⟨⟨?_, fun x => ?_, fun x hx => hx.of_le (fun y hy => ?_) (fun y hy => ?_)
    fun r' hr' => ?_, fun x signals => ?_⟩, signals_eq fun x => ?_⟩
  · cases delivered <;> rfl
  · cases delivered <;> by_cases hx : x = (s.receives r).actor <;>
      simp [visitorReturned, completeMatch, Runtime.schedule, hx]
  · rw [htop] at hy
    rw [hstack]
    exact List.mem_cons_of_mem _ hy
  · cases delivered <;> simpa [visitorReturned, completeMatch, Runtime.schedule] using hy
  · by_cases hr : r' = r
    · subst hr
      cases delivered with
      | true => exact ⟨hs, by simp [visitorReturned, completeMatch, Runtime.schedule]⟩
      | false =>
          simp [suspended, visitorReturned, completeMatch, Stage.suspended] at hr'
    · cases delivered <;>
        simpa [suspended, visitorReturned, completeMatch, Runtime.schedule, hr] using hr'
  · rw [htop, hstack]
    simp
  · cases delivered <;> by_cases hx : x = (s.receives r).actor <;>
      simp [visitorReturned, completeMatch, Runtime.schedule, hx]

lemma unseen_timeoutReturned (h : Exclusive s) {r : ℕ} {rest : List Frame}
    (hstack : s.stack = .expiring r :: rest) (value : R) :
    Unseen s (s.timeoutReturned rest r value) := by
  obtain ⟨-, hs, -⟩ := h.expiring r (by rw [hstack]; exact List.mem_cons_self)
  refine ⟨⟨rfl, fun x => ?_, fun x hx => hx.of_le (fun y hy => ?_) (fun y hy => ?_)
    fun r' hr' => ?_, fun x signals => ?_⟩, signals_eq fun x => ?_⟩
  · by_cases hx : x = (s.receives r).actor <;> simp [timeoutReturned, Runtime.schedule, hx]
  · rw [hstack]
    exact List.mem_cons_of_mem _ hy
  · simpa [timeoutReturned, Runtime.schedule] using hy
  · by_cases hr : r' = r
    · subst hr
      exact ⟨hs, by simp [timeoutReturned, Runtime.schedule]⟩
    · simpa [suspended, timeoutReturned, Runtime.schedule, hr] using hr'
  · rw [hstack]
    simp [timeoutReturned, Runtime.schedule]
  · by_cases hx : x = (s.receives r).actor <;> simp [timeoutReturned, Runtime.schedule, hx]

lemma unseen_fireTimer (h : Exclusive s) (r : ℕ) : Unseen s (s.fireTimer r) := by
  rw [fireTimer]
  split
  · rename_i hactive
    obtain ⟨hs, -⟩ := h.active r hactive
    refine ⟨⟨rfl, fun _ => rfl, fun x hx => hx.of_le (fun y hy => by simpa using hy)
      (fun _ hy => hy) fun r' hr' => ?_, fun x signals => by simp⟩, fun _ => rfl⟩
    by_cases hr : r' = r
    · subst hr
      exact ⟨hs, by simp⟩
    · simpa [suspended, hr] using hr'
  · exact ⟨⟨rfl, fun _ => rfl, fun _ => id, fun _ _ => Iff.rfl⟩, fun _ => rfl⟩

/-- A receive that is not suspended is done, and frames that are not `notify_exit` are left. -/
lemma unseen_done (r : ℕ) {stack : List Frame} (ready : List Handle)
    (hready : ∀ h ∈ ready, h ∈ s.ready)
    (hstack : ∀ x, Frame.running x ∈ stack → s.Unfinished x)
    (hexiting : ∀ x signals, Frame.exiting x signals ∈ stack ↔
      Frame.exiting x signals ∈ s.stack) :
    Unseen s { s.updateReceive r fun w => { w with stage := .done } with
      ready := ready, stack := stack } := by
  refine ⟨⟨rfl, fun _ => rfl, fun x hx => ?_, hexiting⟩, fun _ => rfl⟩
  rcases hx with hrun | hstart | ⟨r', hs, hact⟩
  · exact hstack x hrun
  · exact .inr (.inl (hready _ hstart))
  · have hne : r' ≠ r := by
      rintro rfl
      simp [suspended, Stage.suspended] at hs
    exact .inr (.inr ⟨r', by simpa [suspended, hne] using hs, by simpa [hne] using hact⟩)

/-- Frames that are not `notify_exit` are left. -/
lemma unseen_stack {stack : List Frame} (ready : List Handle) (raising : Bool)
    (hready : ∀ h ∈ ready, h ∈ s.ready)
    (hstack : ∀ x, Frame.running x ∈ stack → s.Unfinished x)
    (hexiting : ∀ x signals, Frame.exiting x signals ∈ stack ↔
      Frame.exiting x signals ∈ s.stack) :
    Unseen s { s with ready := ready, stack := stack, raising := raising } := by
  refine ⟨⟨rfl, fun _ => rfl, fun x hx => ?_, hexiting⟩, fun _ => rfl⟩
  rcases hx with hrun | hstart | hsusp
  · exact hstack x hrun
  · exact .inr (.inl (hready _ hstart))
  · exact .inr (.inr hsusp)

/-! ### The runtime and the network -/

/-- The runtime and a state of the network agree, after the stop requests so far. -/
structure Reflects (s : Runtime M R) (n : Net) (requests : List (ActorRef × ExitReason)) :
    Prop where
  tables : SameTables s.sched n.base
  registered : ∀ a, s.Unfinished a → s.registered a = true
  outgoing : ∀ a signals, Frame.exiting a signals ∈ s.stack → n.outgoing a = signals
  reports : ∀ a, s.reports a = (n.enqueued.filter fun p => p.1 = a).map Prod.snd
  stops : ∀ a, s.stopSignals a = (requests.filter fun p => p.1 = a).map fun p => .exit p.1 p.2
  reason : ∀ a, (s.actors a).exitReason = ((requests.filter fun p => p.1 = a).map Prod.snd).getLast?

/-- What an exit has not sent yet is on the stack. -/
def Drained (s : Runtime M R) (n : Net) : Prop :=
  ∀ a, n.outgoing a ≠ [] → ∃ signals, Frame.exiting a signals ∈ s.stack

/-- What a step does to the network. -/
def Follows (n : Net) (requests : List (ActorRef × ExitReason)) (s : Runtime M R) (l : Label M R)
    (t : Runtime M R) : Prop :=
  ∃ n', run ExitSignals.step n (s.registrySteps l) = some n' ∧
    Reflects t n' (requests ++ s.stopRequests l) ∧ (s.Tells l → Drained s n → Drained t n')

variable {requests : List (ActorRef × ExitReason)} {l : Label M R}

lemma run_single {n' : Net} {label : ExitSignals.Label}
    (h : ExitSignals.step n label = some n') : run ExitSignals.step n [label] = some n' := by
  rw [run_cons, h, Option.bind_some, run_nil]

lemma Reflects.follows {n' : Net} (h : Reflects t n' requests)
    (hrun : run ExitSignals.step n (s.registrySteps l) = some n') (hstops : s.stopRequests l = [])
    (hdrained : s.Tells l → Drained s n → Drained t n') : Follows n requests s l t :=
  ⟨n', hrun, by rwa [hstops, List.append_nil], hdrained⟩

lemma Reflects.unseen (h : Reflects s n requests) (hu : Unseen s t) : Reflects t n requests where
  tables := hu.sched ▸ h.tables
  registered a ha := by
    rw [Runtime.registered, hu.sched]
    exact h.registered a (hu.unfinished a ha)
  outgoing a signals ha := h.outgoing a signals ((hu.exiting a signals).mp ha)
  reports a := by
    rw [Runtime.reports, hu.signals]
    exact h.reports a
  stops a := by
    rw [stopSignals, hu.signals]
    exact h.stops a
  reason a := (hu.exitReason a).trans (h.reason a)

lemma Reflects.follows_unseen (h : Reflects s n requests) (hu : Unseen s t)
    (hsteps : s.registrySteps l = []) (hstops : s.stopRequests l = []) :
    Follows n requests s l t := by
  refine (h.unseen hu).follows (by rw [hsteps, run_nil]) hstops fun _ hd a ha => ?_
  obtain ⟨signals, hs⟩ := hd a ha
  exact ⟨signals, (hu.exiting a signals).mpr hs⟩

/-- A message with no signal in it. -/
lemma Reflects.follows_send (h : Reflects s n requests) (hex : Exclusive s) (target : ActorRef)
    (m : M) : Follows n requests s (.send target m) (s.send target (.user m)) := by
  refine h.follows_unseen ?_ rfl rfl
  rw [Runtime.send]
  split
  · refine ⟨quiescent_enqueueMessage (hex.pending target) _, fun x => ?_⟩
    rw [signals_enqueueMessage]
    simp [Message.signal?]
  · exact ⟨⟨rfl, fun _ => rfl, fun _ => id, fun _ _ => Iff.rfl⟩, fun _ => rfl⟩

/-- `stop` of a registered actor. -/
lemma Reflects.follows_stop (h : Reflects s n requests) (hex : Exclusive s) {target : ActorRef}
    (reason : ExitReason) (hreg : s.registered target = true) :
    Follows n requests s (.stop target reason)
      ((s.updateActor target fun x => { x with exitReason := some reason }).enqueueMessage target
        (.signal (.exit target reason))) := by
  set u := s.updateActor target fun x => { x with exitReason := some reason } with hu
  have hstops : s.stopRequests (.stop target reason) = [(target, reason)] := by
    simp [stopRequests, hreg]
  have hq := quiescent_enqueueMessage (s := u) (a := target) (fun r hr => by
    have hr' : (s.actors target).pending = some r := by simpa [hu] using hr
    exact hex.pending target r hr') (.signal (.exit target reason))
  set t := u.enqueueMessage target (.signal (.exit target reason)) with ht
  have hsignals : ∀ x, t.signals x =
      s.signals x ++ if x = target then [.exit target reason] else [] := by
    intro x
    rw [ht, signals_enqueueMessage]
    refine congrArg₂ _ (signals_eq (fun y => ?_) x) rfl
    by_cases hy : y = target <;> simp [hu, hy]
  refine ⟨n, rfl, ⟨hq.sched ▸ h.tables, fun x hx => ?_,
    fun x signals hx => ?_, fun x => ?_, fun x => ?_, fun x => ?_⟩, fun _ hd x hx => ?_⟩
  · rw [Runtime.registered, hq.sched]
    exact h.registered x (hq.unfinished x hx)
  · exact h.outgoing x signals ((hq.exiting x signals).mp hx)
  · rw [Runtime.reports, hsignals, List.filter_append, ← h.reports, Runtime.reports]
    by_cases hx : x = target <;> simp [hx]
  · rw [stopSignals, hsignals, hstops, List.filter_append, List.filter_append, List.map_append,
      ← h.stops, stopSignals]
    by_cases hx : x = target
    · simp [hx]
    · simp [hx, Ne.symm hx]
  · rw [hq.exitReason, hstops, List.filter_append, List.map_append]
    by_cases hx : x = target
    · simp [hu, hx]
    · simpa [hu, hx, Ne.symm hx] using h.reason x
  · obtain ⟨signals, hs⟩ := hd x hx
    exact ⟨signals, (hq.exiting x signals).mpr hs⟩

lemma Reflects.follows_spawn (h : Reflects s n requests) {linker monitorRef : ActorRef}
    (hapart : linker ≠ s.sched.nextActorId) :
    Follows n requests s (.spawn linker monitorRef)
      { s with
        sched := (s.sched.spawnImpl linker monitorRef).2
        ready := s.ready ++ [.start (s.sched.spawnImpl linker monitorRef).1] } := by
  have hnet : linker ≠ n.base.nextActorId := h.tables.nextActorId ▸ hapart
  have hreflects : Reflects { s with
        sched := (s.sched.spawnImpl linker monitorRef).2
        ready := s.ready ++ [.start (s.sched.spawnImpl linker monitorRef).1] }
      { n with
        base := (n.base.spawnImpl linker monitorRef).2
        joined := if linker.valid then n.joined ++ [(linker, n.base.nextActorId)] else n.joined
        monitored := if monitorRef.valid then n.monitored ++ [(monitorRef, n.base.nextActorId)]
          else n.monitored } requests := by
    refine ⟨h.tables.spawnImpl linker monitorRef, fun x hx => ?_, h.outgoing, h.reports, h.stops,
      h.reason⟩
    rw [Runtime.registered, SchedulerBase.contains_spawnImpl, Bool.or_eq_true, decide_eq_true_eq]
    rcases hx with hrun | hstart | hsusp
    · exact .inr (h.registered x (.inl hrun))
    · rcases List.mem_append.mp hstart with hold | hnew
      · exact .inr (h.registered x (.inr (.inl hold)))
      · exact .inl (by simpa [SchedulerBase.spawnImpl] using hnew)
    · exact .inr (h.registered x (.inr (.inr hsusp)))
  exact hreflects.follows (run_single (if_neg hnet)) rfl fun _ hd => hd

/-- Entries are added to the tables. -/
lemma Reflects.tables_change (h : Reflects s n requests) {sched : SchedulerBase} {n' : Net}
    (hactors : sched.actors = s.sched.actors) (htables : SameTables sched n'.base)
    (hout : n'.outgoing = n.outgoing) (henq : n'.enqueued = n.enqueued) :
    Reflects { s with sched := sched } n' requests where
  tables := htables
  registered a ha := by
    rw [Runtime.registered, hactors]
    exact h.registered a ha
  outgoing := hout ▸ h.outgoing
  reports := henq ▸ h.reports
  stops := h.stops
  reason := h.reason

lemma Reflects.follows_link (h : Reflects s n requests) {left right : ActorRef}
    {sched : SchedulerBase} (hapart : s.registered left = true → left ≠ right)
    (hlink : s.sched.link left right = some sched) :
    Follows n requests s (.link left right) { s with sched := sched } := by
  obtain ⟨base, hbase, htables⟩ := h.tables.link hlink
  rw [SchedulerBase.link, Option.ite_none_right_eq_some] at hlink
  have hsteps : s.registrySteps (.link left right) = [.link left right] := if_pos hlink.1
  have hne : left ≠ right := hapart ((Bool.and_eq_true _ _).mp hlink.1).1
  have hnet : ExitSignals.step n (.link left right) =
      some { n with base := base, joined := n.joined ++ [(left, right)] } := by
    rw [ExitSignals.step, if_neg hne, hbase]
  have hactors : sched.actors = s.sched.actors := by rw [← Option.some.inj hlink.2]
  have hreflects : Reflects { s with sched := sched }
      { n with base := base, joined := n.joined ++ [(left, right)] } requests :=
    h.tables_change hactors htables rfl rfl
  exact hreflects.follows (hsteps ▸ run_single hnet) rfl fun _ hd => hd

lemma Reflects.follows_monitor (h : Reflects s n requests) {monitorRef targetRef : ActorRef}
    {sched : SchedulerBase} (hmonitor : s.sched.monitor monitorRef targetRef = some sched) :
    Follows n requests s (.monitor monitorRef targetRef) { s with sched := sched } := by
  obtain ⟨base, hbase, htables⟩ := h.tables.monitor hmonitor
  rw [SchedulerBase.monitor, Option.ite_none_right_eq_some] at hmonitor
  have hsteps : s.registrySteps (.monitor monitorRef targetRef) =
      [.monitor monitorRef targetRef] := if_pos hmonitor.1
  have hnet : ExitSignals.step n (.monitor monitorRef targetRef) =
      some { n with base := base, monitored := n.monitored ++ [(monitorRef, targetRef)] } := by
    rw [ExitSignals.step, hbase]
  have hactors : sched.actors = s.sched.actors := by rw [← Option.some.inj hmonitor.2]
  have hreflects : Reflects { s with sched := sched }
      { n with base := base, monitored := n.monitored ++ [(monitorRef, targetRef)] } requests :=
    h.tables_change hactors htables rfl rfl
  exact hreflects.follows (hsteps ▸ run_single hnet) rfl fun _ hd => hd

/-- A call that raises leaves the registry as it is. -/
lemma Reflects.follows_raises (h : Reflects s n requests) (hsteps : s.registrySteps l = [])
    (hstops : s.stopRequests l = []) : Follows n requests s l { s with raising := true } :=
  h.follows_unseen ⟨⟨rfl, fun _ => rfl, fun _ => id, fun _ _ => Iff.rfl⟩, fun _ => rfl⟩ hsteps
    hstops

/-- The locked section of `notify_exit`. -/
lemma Reflects.follows_exit (h : Reflects s n requests) (hex : Exclusive s) {rest : List Frame}
    (hstack : s.stack = .running a :: rest) (reason : ExitReason) (raising : Bool)
    (hsteps : s.registrySteps l = [.exit a reason]) (hstops : s.stopRequests l = []) :
    Follows n requests s l { s.beginExit a rest reason with raising := raising } := by
  have hrest : rest = [] := hex.tidy.rest_eq_nil hstack rfl
  have hrunning : Frame.running a ∈ s.stack := by
    rw [hstack]
    exact List.mem_cons_self
  have hreg : n.base.actors.contains a = true :=
    (h.tables.contains a).symm.trans (h.registered a (.inl hrunning))
  -- the coroutine of `a` was running, and so is neither about to start nor suspended
  have hothers : ∀ x, ({ s.beginExit a rest reason with raising := raising } :
      Runtime M R).Unfinished x → x ≠ a ∧ s.Unfinished x := by
    intro x hx
    obtain ⟨-, -, hfree⟩ := hex.running a hrunning
    rcases hx with hr | hstart | ⟨r, hs, hact⟩
    · simp [Runtime.beginExit, hrest] at hr
    · refine ⟨?_, .inr (.inl hstart)⟩
      rintro rfl
      exact (hex.start x hstart).2.2.1 hrunning
    · have hs' : s.suspended r = true := hs
      refine ⟨?_, .inr (.inr ⟨r, hs, hact⟩)⟩
      rintro rfl
      rw [hfree r hact] at hs'
      cases hs'
  have hreflects : Reflects { s.beginExit a rest reason with raising := raising }
      { n with
        base := n.base.collectAndErase a
        outgoing := Function.update n.outgoing a (n.base.pendingSignals a reason)
        exited := n.exited ++ [a] } requests := by
    refine ⟨h.tables.collectAndErase a, fun x hx => ?_, fun x signals hx => ?_, h.reports, h.stops,
      h.reason⟩
    · have hold := h.registered x (hothers x hx).2
      rw [Runtime.registered] at hold ⊢
      simp [Runtime.beginExit, SchedulerBase.collectAndErase, OrdMap.contains_erase,
        (hothers x hx).1, hold]
    · obtain ⟨rfl, rfl⟩ : x = a ∧ signals = s.sched.pendingSignals a reason := by
        simpa [Runtime.beginExit, hrest] using hx
      exact (Function.update_self _ _ _).trans (h.tables.pendingSignals x reason).symm
  refine hreflects.follows (hsteps ▸ run_single (if_pos hreg)) hstops fun _ hd x hx => ?_
  by_cases hxa : x = a
  · subst hxa
    exact ⟨_, List.mem_cons_self⟩
  · obtain ⟨signals, hs⟩ := hd x (by simpa [Function.update_of_ne hxa] using hx)
    rw [hstack, hrest] at hs
    simp at hs

/-- The frame on top is left. -/
lemma Reflects.left (h : Reflects s n requests) {f : Frame} {rest : List Frame}
    (hstack : s.stack = f :: rest) (raising : Bool) :
    Reflects { s with stack := rest, raising := raising } n requests := by
  have hmem : ∀ g ∈ rest, g ∈ s.stack := fun g hg => by
    rw [hstack]
    exact List.mem_cons_of_mem _ hg
  exact ⟨h.tables, fun x hx => h.registered x (hx.imp_left (hmem _)),
    fun x signals hx => h.outgoing x signals (hmem _ hx), h.reports, h.stops, h.reason⟩

/-- `notify_exit` is at its end. -/
lemma Reflects.follows_signalled (h : Reflects s n requests) {rest : List Frame}
    (hstack : s.stack = .exiting a [] :: rest) :
    Follows n requests s .signal { s with stack := rest } := by
  have hnone : n.outgoing a = [] := h.outgoing a [] (by rw [hstack]; exact List.mem_cons_self)
  have hleft := h.left hstack s.raising
  refine hleft.follows (by simp [registrySteps, hstack]) rfl fun _ hd x hx => ?_
  obtain ⟨signals, hs⟩ := hd x hx
  rw [hstack] at hs
  rcases List.mem_cons.mp hs with heq | hs
  · obtain ⟨rfl, rfl⟩ := Frame.exiting.inj heq
    exact absurd hnone hx
  · exact ⟨signals, hs⟩

/-- An exception leaves `notify_exit`: what it has not sent is lost. -/
lemma Reflects.follows_unwindExiting (h : Reflects s n requests)
    {signals : List (ActorRef × Signal)} {rest : List Frame}
    (hstack : s.stack = .exiting a signals :: rest) :
    Follows n requests s .unwind { s with stack := rest, raising := false } := by
  have hleft := h.left hstack false
  refine hleft.follows (by simp [registrySteps, hstack]) rfl fun htells => ?_
  have hhead := htells rfl
  rw [hstack] at hhead
  cases hhead

/-- The next signal is taken off the list of `notify_exit`. -/
lemma Reflects.taken (h : Reflects s n requests) {p : ActorRef × Signal}
    {signals : List (ActorRef × Signal)} (hstack : s.stack = [.exiting a (p :: signals)]) :
    Reflects { s with stack := [.exiting a signals] }
      { n with outgoing := Function.update n.outgoing a signals } requests := by
  refine ⟨h.tables, fun x hx => h.registered x (hx.imp_left fun hr => ?_), fun x xs hx => ?_,
    h.reports, h.stops, h.reason⟩
  · simp at hr
  · obtain ⟨rfl, rfl⟩ : x = a ∧ xs = signals := by simpa using hx
    exact Function.update_self _ _ _

/-- A signal is enqueued to an actor that it does not name. -/
lemma Reflects.reported (h : Reflects s n requests) {target : ActorRef} {sg : Signal}
    (hpend : ∀ r, (s.actors target).pending = some r → s.suspended r = true)
    (hne : sg.source ≠ target) :
    Reflects (s.enqueueMessage target (.signal sg))
      { n with base := n.base.send target sg, enqueued := n.enqueued ++ [(target, sg)] }
      requests := by
  have hq := quiescent_enqueueMessage hpend (.signal sg)
  refine ⟨hq.sched ▸ h.tables.send target sg, fun x hx => ?_,
    fun x xs hx => h.outgoing x xs ((hq.exiting x xs).mp hx), fun x => ?_, fun x => ?_,
    fun x => (hq.exitReason x).trans (h.reason x)⟩
  · rw [Runtime.registered, hq.sched]
    exact h.registered x (hq.unfinished x hx)
  · rw [Runtime.reports, signals_enqueueMessage, List.filter_append, List.filter_append,
      List.map_append, ← h.reports, Runtime.reports]
    by_cases hx : x = target
    · simp [hx, Message.signal?, hne]
    · simp [hx, Ne.symm hx]
  · rw [stopSignals, signals_enqueueMessage, List.filter_append, ← h.stops, stopSignals]
    by_cases hx : x = target
    · simp [hx, Message.signal?, hne]
    · simp [hx]

/-- The next send of `notify_exit`: it names the actor that exits, which is not the one it goes
to. -/
lemma Reflects.follows_signal (h : Reflects s n requests) (hinv : Inv n) (hex : Exclusive s)
    {target : ActorRef} {sg : Signal} {signals : List (ActorRef × Signal)} {rest : List Frame}
    (hstack : s.stack = .exiting a ((target, sg) :: signals) :: rest) :
    Follows n requests s .signal
      ({ s with stack := .exiting a signals :: rest }.send target (.signal sg)) := by
  obtain rfl : rest = [] := hex.tidy.rest_eq_nil hstack rfl
  have hout : n.outgoing a = (target, sg) :: signals :=
    h.outgoing a _ (by rw [hstack]; exact List.mem_cons_self)
  obtain ⟨hsource, hexited⟩ :=
    hinv.outgoing_source a (target, sg) (by rw [hout]; exact List.mem_cons_self)
  have hsteps : s.registrySteps .signal = [.send a] := by simp [registrySteps, hstack]
  have htaken := h.taken hstack
  have hdrained : ∀ t : Runtime M R, (∀ x xs, Frame.exiting x xs ∈ t.stack ↔
      Frame.exiting x xs ∈ [Frame.exiting a signals]) → ∀ n' : Net,
      n'.outgoing = Function.update n.outgoing a signals → Drained s n → Drained t n' := by
    intro t ht n' hn' hd x hx
    by_cases hxa : x = a
    · exact ⟨signals, (ht x signals).mpr (by simp [hxa])⟩
    · obtain ⟨xs, hs⟩ := hd x (by simpa [hn', Function.update_of_ne hxa] using hx)
      rw [hstack] at hs
      exact absurd (by simpa using hs : x = a ∧ xs = (target, sg) :: signals).1 hxa
  set u : Runtime M R := { s with stack := [.exiting a signals] } with hu
  have hreg : u.registered target = n.base.actors.contains target := h.tables.contains target
  rw [Runtime.send, hreg]
  -- whether the target is registered decides for both
  by_cases hc : n.base.actors.contains target = true
  · have hne : sg.source ≠ target := fun heq => hinv.not_exited target hc (by
      rw [← heq, show sg.source = a from hsource]
      exact hexited)
    have hreported := htaken.reported (fun r hr => hex.pending target r hr) hne
    have hq := quiescent_enqueueMessage (s := u) (fun r hr => hex.pending target r hr) (.signal sg)
    rw [if_pos hc]
    refine hreported.follows (hsteps ▸ run_single ?_) rfl fun _ => hdrained _ hq.exiting _ rfl
    rw [ExitSignals.step, hout]
    simp [hc]
  · rw [if_neg hc]
    have hdropped : Reflects u { n with
        base := n.base.send target sg
        outgoing := Function.update n.outgoing a signals } requests :=
      { htaken with tables := h.tables.send target sg }
    refine hdropped.follows (hsteps ▸ run_single ?_) rfl
      fun _ => hdrained _ (fun _ _ => Iff.rfl) _ rfl
    rw [ExitSignals.step, hout]
    simp [hc]

/-! ### Runs -/

lemma raising_of_userCode (huser : s.userCode = true) : s.raising = false := by
  rw [userCode, Bool.and_eq_true, Bool.not_eq_true'] at huser
  exact huser.1

lemma link_eq_none_of_raises {left right : ActorRef} (huser : s.userCode = true)
    (hstep : s.step (.link left right) = some { s with raising := true }) :
    s.sched.link left right = none := by
  cases hlink : s.sched.link left right with
  | none => rfl
  | some sched =>
      simp only [step, huser, if_true, hlink, Option.some.injEq] at hstep
      have hraising : s.raising = true := congrArg raising hstep
      exact absurd ((raising_of_userCode huser).symm.trans hraising) (by simp)

lemma monitor_eq_none_of_raises {monitorRef targetRef : ActorRef} (huser : s.userCode = true)
    (hstep : s.step (.monitor monitorRef targetRef) = some { s with raising := true }) :
    s.sched.monitor monitorRef targetRef = none := by
  cases hmonitor : s.sched.monitor monitorRef targetRef with
  | none => rfl
  | some sched =>
      simp only [step, huser, if_true, hmonitor, Option.some.injEq] at hstep
      have hraising : s.raising = true := congrArg raising hstep
      exact absurd ((raising_of_userCode huser).symm.trans hraising) (by simp)

lemma not_registered_of_raises {target : ActorRef} {reason : ExitReason}
    (huser : s.userCode = true)
    (hstep : s.step (.stop target reason) = some { s with raising := true }) :
    s.registered target = false := by
  by_contra hreg
  rw [Bool.not_eq_false] at hreg
  simp only [Runtime.step, huser, hreg, if_true, Option.some.injEq] at hstep
  have hraising := congrArg raising hstep
  have hsame : ∀ (u : Runtime M R) (m : Message M),
      (u.enqueueMessage target m).raising = u.raising := by
    intro u m
    rcases enqueueMessage_cases u target m with heq | ⟨r, position, -, -, heq⟩ <;> rw [heq] <;> rfl
  rw [hsame] at hraising
  exact absurd ((raising_of_userCode huser).symm.trans hraising) (by simp)

lemma Reflects.step (h : Reflects s n requests) (hinv : Inv n) (hex : Exclusive s)
    (hself : s.NoSelfLink l) (hstep : s.step l = some t) : Follows n requests s l t := by
  cases moves_of_step hstep with
  | spawn linker monitorRef => exact h.follows_spawn hself
  | link left right sched huser hlink => exact h.follows_link hself hlink
  | linkRaises left right huser =>
      have hnone := link_eq_none_of_raises huser hstep
      refine h.follows_raises (if_neg fun hreg => ?_) rfl
      rw [SchedulerBase.link] at hnone
      exact absurd (hnone.symm.trans (if_pos hreg)) (by simp)
  | monitor monitorRef targetRef sched huser hmonitor => exact h.follows_monitor hmonitor
  | monitorRaises monitorRef targetRef huser =>
      have hnone := monitor_eq_none_of_raises huser hstep
      refine h.follows_raises (if_neg fun hreg => ?_) rfl
      rw [SchedulerBase.monitor] at hnone
      exact absurd (hnone.symm.trans (if_pos hreg)) (by simp)
  | send target m => exact h.follows_send hex target m
  | stop target reason huser hreg => exact h.follows_stop hex reason hreg
  | stopRaises target reason huser =>
      refine h.follows_raises rfl (if_neg fun hreg => ?_)
      have hstop := not_registered_of_raises huser hstep
      rw [hreg] at hstop
      cases hstop
  -- receives, visitors and exceptions are unseen by the registry
  | receive visitors timed a rest hraise hstack =>
      exact h.follows_unseen (unseen_beginReceive hex hstack visitors timed) rfl rfl
  | visitorReturn value r position delivered rest e hraise hstack he =>
      exact h.follows_unseen (unseen_visitorReturned hex hstack e value) rfl rfl
  | timeoutReturn value r rest hraise hstack =>
      exact h.follows_unseen (unseen_timeoutReturned hex hstack value) rfl rfl
  | finish a rest hraise hstack =>
      have hexit := h.follows_exit (l := .finish) hex hstack
        ((s.actors a).exitReason.getD .normal) s.raising (by simp [registrySteps, hstack]) rfl
      exact hexit
  | signalled a rest hraise hstack => exact h.follows_signalled hstack
  | signal a target sg signals rest hraise hstack => exact h.follows_signal hinv hex hstack
  | throw | «catch» =>
      exact h.follows_unseen ⟨⟨rfl, fun _ => rfl, fun _ => id, fun _ _ => Iff.rfl⟩,
        fun _ => rfl⟩ rfl rfl
  | unwindRunning a rest hraise hstack =>
      exact h.follows_exit hex hstack .error false (by simp [registrySteps, hstack]) rfl
  | unwindExiting a signals rest hraise hstack => exact h.follows_unwindExiting hstack
  | unwindVisiting r position delivered rest hraise hstack =>
      refine h.follows_unseen ?_ (by simp [registrySteps, hstack]) rfl
      have hmem : ∀ f ∈ rest, f ∈ s.stack := fun f hf => by
        rw [hstack]
        exact List.mem_cons_of_mem _ hf
      have hexiting : ∀ x signals, Frame.exiting x signals ∈ rest ↔
          Frame.exiting x signals ∈ s.stack := fun x signals => by simp [hstack]
      cases delivered with
      | true =>
          exact unseen_stack s.ready s.raising (fun _ => id) (fun x hx => .inl (hmem _ hx))
            hexiting
      | false => exact unseen_done r s.ready (fun _ => id) (fun x hx => .inl (hmem _ hx)) hexiting
  | unwindExpiring r rest hraise hstack =>
      refine h.follows_unseen (unseen_stack s.ready s.raising (fun _ => id) (fun x hx => .inl ?_)
        fun x signals => by simp [hstack]) (by simp [registrySteps, hstack]) rfl
      rw [hstack]
      exact List.mem_cons_of_mem _ hx
  | resumeStart a ready hraise hstack hready =>
      refine h.follows_unseen (unseen_stack ready s.raising (fun x hx => ?_) (fun x hx => ?_)
        fun x signals => by simp [hstack]) rfl rfl
      · rw [hready]
        exact List.mem_cons_of_mem _ hx
      · obtain rfl : x = a := by simpa using hx
        exact .inr (.inl (by rw [hready]; exact List.mem_cons_self))
  | resumeReceive r ready hraise hstack hready hsuspended =>
      refine h.follows_unseen (unseen_done r ready (fun x hx => ?_) (fun x hx => ?_)
        fun x signals => by simp [hstack]) rfl rfl
      · rw [hready]
        exact List.mem_cons_of_mem _ hx
      · obtain rfl : x = (s.receives r).actor := by simpa using hx
        exact .inr (.inr ⟨r, hsuspended, rfl⟩)
  | fire r hraise hstack htimer => exact h.follows_unseen (unseen_fireTimer hex r) rfl rfl

end Runtime

end Agner
