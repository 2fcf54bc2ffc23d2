import Agner.Foundations.Runs
import Agner.Supervisor.Operations

/-!
Starting children on the multi-threaded scheduler.

`spawn_child_with_args` spawns the child and then monitors it, in two sections guarded by
`base_mutex_`. From the end of the first on, a worker may run the child, up to its
`notify_exit`; `monitor` raises for an actor that is not registered.

* `MtSupervisor`, `step`: a supervisor that starts children, one guarded section a step, and the
  other threads. These spawn, link and monitor actors, and any actor that has been detached may
  exit, its signals being sent one by one. A send runs the visitor of a receiver that is
  suspended; when that raises, the exception leaves `notify_exit` and the rest of its signals is
  dropped. The exit of an actor that is linked with itself has no step: `notify_exit` would shorten
  the list it is walking. What else the supervisor does to `children_` between its operations is
  left open.
* `Observed`: no operation has raised, and the exit of every child has been observed.
* `Unhurried`: the condition on steps. No constructor of a child raises, no child exits between its
  spawn and its monitor, the supervisor is registered when a down signal of a child is sent to it,
  and no exception drops such a signal.
* `children_observed`: in the runs of such steps every exit is observed, every operation can go on
  and comes to its end; a child that exits too early makes the operation raise.
-/

namespace Agner.SpawnRace

open Runs

variable {Args : Type}

/-- What the supervisor is doing: the children still to be started, with their spec index and
arguments, and how far the start of the current one has come. -/
inductive Activity (Args : Type) where
  | idle
  /-- At the call of `start_child_with_args` for the first child of the list. -/
  | starting (todo : List (ℕ × Args))
  /-- `spawn_impl` has registered the child. -/
  | registered (ref : ActorRef) (index : ℕ) (args : Args) (todo : List (ℕ × Args))
  /-- The coroutine of the child has been detached, and `spawn` has returned. -/
  | spawned (ref : ActorRef) (index : ℕ) (args : Args) (todo : List (ℕ × Args))
  /-- `monitor` has returned. -/
  | monitored (ref : ActorRef) (index : ℕ) (args : Args) (todo : List (ℕ × Args))
  | raised
  deriving DecidableEq

namespace Activity

/-- An operation has begun and neither returned nor raised. -/
def inProgress : Activity Args → Bool
  | .idle | .raised => false
  | .starting _ | .registered .. | .spawned .. | .monitored .. => true

/-- The child that has been registered and not been monitored yet. -/
def unmonitored : Activity Args → Option ActorRef
  | .registered ref _ _ _ | .spawned ref _ _ _ => some ref
  | .idle | .starting _ | .monitored .. | .raised => none

/-- The child whose coroutine has not been detached yet. -/
def undetached : Activity Args → Option ActorRef
  | .registered ref _ _ _ => some ref
  | .idle | .starting _ | .spawned .. | .monitored .. | .raised => none

/-- How many sections the operation has still to go through, at most. -/
def remaining : Activity Args → ℕ
  | .idle | .raised => 0
  | .starting todo => 4 * todo.length + 1
  | .registered _ _ _ todo => 4 * todo.length + 4
  | .spawned _ _ _ todo => 4 * todo.length + 3
  | .monitored _ _ _ todo => 4 * todo.length + 2

end Activity

/-- The operations that start children. -/
inductive Operation (Args : Type) where
  | init
  /-- `start_child`, without arguments (`none`) or with some. -/
  | startChild (index : ℕ) (args : Option Args)
  /-- `respawn_with_entry`, for one entry after the other. -/
  | respawn (entries : List (ChildEntry Args))

/-- `start_child_by_index`: the child it starts. -/
def chosen (spec : Specification Args) (index : ℕ) (args : Option Args) : Option (ℕ × Args) :=
  spec.children[index]?.map fun child =>
    (index, args.getD (if spec.strategy = .simpleOneForOne then child.defaultArgs else child.args))

/-- The calls of `start_child_with_args` an operation makes. -/
def Operation.todo (spec : Specification Args) : Operation Args → List (ℕ × Args)
  | .init =>
      if spec.strategy = .simpleOneForOne then []
      else (List.range spec.children.length).filterMap fun i => chosen spec i none
  | .startChild index args => (chosen spec index args).toList
  | .respawn entries =>
      (entries.filter fun e => decide (e.specIndex < spec.children.length)).map fun e =>
        (e.specIndex, e.args)

/-- A supervisor, the scheduler it is bound to, and the sends the other threads have to make. -/
structure MtSupervisor (Args : Type) where
  sched : SchedulerBase
  self : ActorRef
  specification : Specification Args
  children : OrdMap ActorRef (ChildEntry Args) := ∅
  nextStartOrder : ℕ := 1
  activity : Activity Args := .idle
  /-- The signals a thread in `notify_exit` has still to send, for each such thread. -/
  sends : List (List (ActorRef × Signal)) := []
  /-- Every child spawned so far. -/
  spawned : List ActorRef := []
  /-- Every exit so far. -/
  exited : List (ActorRef × ExitReason) := []
  /-- Every signal enqueued so far, with the actor it was enqueued to. -/
  enqueued : List (ActorRef × Signal) := []

/-- One access of the thread of the supervisor or of another one. -/
inductive Label (Args : Type) where
  /-- An operation of the supervisor begins. -/
  | begins (op : Operation Args)
  /-- The operation goes on. -/
  | proceed
  /-- The constructor of the child to be started raises. -/
  | fail
  /-- The supervisor handles its signals and stops children. -/
  | settle (children : OrdMap ActorRef (ChildEntry Args))
  /-- Another thread spawns an actor. -/
  | spawn (linker monitorRef : ActorRef)
  | link (left right : ActorRef)
  | monitor (monitorRef targetRef : ActorRef)
  /-- The guarded section of `notify_exit`. -/
  | exit (a : ActorRef) (reason : ExitReason)
  /-- The next send of the thread at position `k`. -/
  | deliver (k : ℕ)
  /-- An exception leaves the `notify_exit` of the thread at position `k`: a visitor run by a
  send has raised. -/
  | abort (k : ℕ)

namespace MtSupervisor

/-- A supervisor is spawned after as many other actors. -/
def start (older : ℕ) (spec : Specification Args) : MtSupervisor Args :=
  let sched := (fun s : SchedulerBase => (s.spawnImpl 0 0).2)^[older] {}
  { sched := (sched.spawnImpl 0 0).2, self := (sched.spawnImpl 0 0).1, specification := spec }

/-- The actor is registered. -/
def alive (s : MtSupervisor Args) (a : ActorRef) : Bool := s.sched.actors.contains a

/-- `find_running_child_for_spec`. -/
def findRunningChildForSpec (s : MtSupervisor Args) (index : ℕ) : Option ActorRef :=
  (s.children.entries.find? fun child => decide (child.2.specIndex = index)).map Prod.fst

/-- `start_child_with_args` spawns a child for the spec. -/
def spawns (s : MtSupervisor Args) (index : ℕ) : Bool :=
  decide (s.specification.strategy = .simpleOneForOne) || (s.findRunningChildForSpec index).isNone

/-- `spawn_impl`, up to the registration of the child. -/
def register (s : MtSupervisor Args) (index : ℕ) (args : Args) (todo : List (ℕ × Args)) :
    MtSupervisor Args :=
  { s with
    sched := (s.sched.spawnImpl 0 0).2
    spawned := s.spawned ++ [(s.sched.spawnImpl 0 0).1]
    activity := .registered (s.sched.spawnImpl 0 0).1 index args todo }

/-- The next section of the operation the supervisor is in. -/
def proceed (s : MtSupervisor Args) : Option (MtSupervisor Args) :=
  match s.activity with
  | .idle | .raised => none
  | .starting [] => some { s with activity := .idle }
  | .starting ((index, args) :: todo) =>
      some (if s.spawns index then s.register index args todo
      else { s with activity := .starting todo })
  | .registered ref index args todo => some { s with activity := .spawned ref index args todo }
  | .spawned ref index args todo =>
      some (match s.sched.monitor s.self ref with
        | none => { s with activity := .raised }
        | some sched => { s with sched := sched, activity := .monitored ref index args todo })
  | .monitored ref index args todo =>
      some { s with
        children := s.children.insert ref
          { specIndex := index, startOrder := s.nextStartOrder, args := args }
        nextStartOrder := s.nextStartOrder + 1
        activity := .starting todo }

/-- The next send of the thread at position `k`. -/
def nextSend (s : MtSupervisor Args) (k : ℕ) : Option (ActorRef × Signal) :=
  s.sends[k]?.bind List.head?

/-- One step; `none` if the label is not enabled. -/
def step (s : MtSupervisor Args) : Label Args → Option (MtSupervisor Args)
  | .begins op =>
      if s.activity.inProgress = false ∧ s.alive s.self = true then
        some { s with activity := .starting (op.todo s.specification) }
      else none
  | .proceed => s.proceed
  | .fail =>
      match s.activity with
      | .starting ((index, _) :: _) =>
          if s.spawns index then some { s with activity := .raised } else none
      | _ => none
  | .settle children =>
      if s.activity.inProgress = false then some { s with children := children } else none
  | .spawn linker monitorRef =>
      some { s with sched := (s.sched.spawnImpl linker monitorRef).2 }
  | .link left right => (s.sched.link left right).map fun sched => { s with sched := sched }
  | .monitor monitorRef targetRef =>
      (s.sched.monitor monitorRef targetRef).map fun sched => { s with sched := sched }
  | .exit a reason =>
      if s.alive a = true ∧ a ∉ s.sched.linksOf a ∧ s.activity.undetached ≠ some a ∧
          (a = s.self → s.activity.inProgress = false) then
        some { s with
          sched := s.sched.collectAndErase a
          sends := s.sends ++ [s.sched.pendingSignals a reason]
          exited := s.exited ++ [(a, reason)] }
      else none
  | .deliver k =>
      (s.nextSend k).map fun p =>
        { s with
          sched := s.sched.send p.1 p.2
          sends := s.sends.modify k List.tail
          enqueued := s.enqueued ++ if s.alive p.1 then [p] else [] }
  | .abort k => s.sends[k]?.map fun _ => { s with sends := s.sends.set k [] }

/-! ### What is to be observed -/

/-- The down signal of the exit has been enqueued to the supervisor, or is about to be sent. -/
def Reported (s : MtSupervisor Args) (e : ActorRef × ExitReason) : Prop :=
  (s.self, Signal.down e.1 e.2) ∈ s.enqueued ∨ ∃ l ∈ s.sends, (s.self, Signal.down e.1 e.2) ∈ l

/-- No operation has raised, and the exit of every child is reported. -/
def Observed (s : MtSupervisor Args) : Prop :=
  s.activity ≠ .raised ∧ ∀ e ∈ s.exited, e.1 ∈ s.spawned → s.Reported e

/-- The send is that of the down signal of a child to the supervisor. -/
def reportsChild (s : MtSupervisor Args) : ActorRef × Signal → Bool
  | (a, .down c _) => decide (a = s.self ∧ c ∈ s.spawned)
  | (_, .exit ..) => false

/-- No constructor of a child raises, no child exits between its spawn and its monitor, the
supervisor is registered when a down signal of a child is sent to it, and no exception drops such a
signal. -/
def Unhurried (s : MtSupervisor Args) : Label Args → Prop
  | .exit a _ => s.activity.unmonitored ≠ some a
  | .deliver k => ∀ p ∈ s.nextSend k, s.reportsChild p = true → s.alive s.self = true
  | .abort k => ∀ l ∈ s.sends[k]?, ∀ p ∈ l, s.reportsChild p = false
  | .fail => False
  | _ => True

instance (s : MtSupervisor Args) : ∀ l : Label Args, Decidable (s.Unhurried l)
  | .exit a _ => inferInstanceAs (Decidable (s.activity.unmonitored ≠ some a))
  | .deliver k =>
      inferInstanceAs (Decidable (∀ p ∈ s.nextSend k, s.reportsChild p = true →
        s.alive s.self = true))
  | .abort k => inferInstanceAs (Decidable (∀ l ∈ s.sends[k]?, ∀ p ∈ l, s.reportsChild p = false))
  | .fail => isFalse id
  | .begins _ | .proceed | .settle _ | .spawn .. | .link .. | .monitor .. =>
      inferInstanceAs (Decidable True)

/-! ### The invariant -/

variable {s t : MtSupervisor Args}

/-- Every child is monitored from the section after its spawn on, and its exit is reported. -/
structure Tracked (s : MtSupervisor Args) : Prop where
  wellFormed : s.sched.WellFormed
  self_alive : s.activity.inProgress = true → s.alive s.self = true
  not_raised : s.activity ≠ .raised
  current : ∀ c, s.activity.unmonitored = some c → s.alive c = true
  spawned_lt : ∀ c ∈ s.spawned, c < s.sched.nextActorId
  exited_lt : ∀ e ∈ s.exited, e.1 < s.sched.nextActorId
  monitored : ∀ c ∈ s.spawned, s.alive c = true →
    s.self ∈ s.sched.monitorsOf c ∨ s.activity.unmonitored = some c
  reported : ∀ e ∈ s.exited, e.1 ∈ s.spawned → s.Reported e

lemma Tracked.observed (h : s.Tracked) : s.Observed := ⟨h.not_raised, h.reported⟩

lemma wellFormed_iterate (older : ℕ) :
    ((fun s : SchedulerBase => (s.spawnImpl 0 0).2)^[older] {}).WellFormed := by
  induction older with
  | zero => exact ⟨Nat.one_pos, fun k hk => absurd hk (by simp [OrdMap.contains])⟩
  | succ older ih =>
      rw [Function.iterate_succ_apply']
      exact ih.spawnImpl 0 0

lemma tracked_start (older : ℕ) (spec : Specification Args) : (start older spec).Tracked where
  wellFormed := (wellFormed_iterate older).spawnImpl 0 0
  self_alive h := absurd h (by simp [start, Activity.inProgress])
  not_raised := by simp [start]
  current c h := absurd h (by simp [start, Activity.unmonitored])
  spawned_lt c h := absurd h (by simp [start])
  exited_lt e h := absurd h (by simp [start])
  monitored c h := absurd h (by simp [start])
  reported e h := absurd h (by simp [start])

/-- The activity changes, with no new child and none less to be monitored. -/
lemma Tracked.of_activity (h : s.Tracked) {x : Activity Args}
    (hprogress : x.inProgress = true → s.alive s.self = true) (hraised : x ≠ .raised)
    (hcurrent : x.unmonitored = s.activity.unmonitored) : { s with activity := x }.Tracked where
  wellFormed := h.wellFormed
  self_alive := hprogress
  not_raised := hraised
  current c hc := h.current c (hcurrent ▸ hc)
  spawned_lt := h.spawned_lt
  exited_lt := h.exited_lt
  monitored c hc hlive := by
    rw [hcurrent]
    exact h.monitored c hc hlive
  reported := h.reported

/-- Other members of the supervisor play no part. -/
lemma Tracked.of_children (h : s.Tracked) {children : OrdMap ActorRef (ChildEntry Args)} {n : ℕ} :
    { s with children := children, nextStartOrder := n }.Tracked :=
  ⟨h.wellFormed, h.self_alive, h.not_raised, h.current, h.spawned_lt, h.exited_lt, h.monitored,
    h.reported⟩

/-- Another thread changes the tables without an exit. -/
lemma Tracked.of_sched (h : s.Tracked) {sched : SchedulerBase} (hwf : sched.WellFormed)
    (hnext : s.sched.nextActorId ≤ sched.nextActorId)
    (hkeep : ∀ x, s.alive x = true → sched.actors.contains x = true)
    (hnew : ∀ x < s.sched.nextActorId, sched.actors.contains x = true → s.alive x = true)
    (hmon : ∀ x, s.sched.monitorsOf x ⊆ sched.monitorsOf x) :
    { s with sched := sched }.Tracked where
  wellFormed := hwf
  self_alive hp := hkeep _ (h.self_alive hp)
  not_raised := h.not_raised
  current c hc := hkeep c (h.current c hc)
  spawned_lt c hc := (h.spawned_lt c hc).trans_le hnext
  exited_lt e he := (h.exited_lt e he).trans_le hnext
  monitored c hc hlive :=
    (h.monitored c hc (hnew c (h.spawned_lt c hc) hlive)).imp_left fun hmem => hmon c hmem
  reported := h.reported

/-! ### The tables -/

lemma monitorsOf_spawnImpl_subset (b : SchedulerBase) (linker monitorRef x : ActorRef) :
    b.monitorsOf x ⊆ (b.spawnImpl linker monitorRef).2.monitorsOf x := by
  show (b.monitors.find? x).getD [] ⊆ ((if monitorRef.valid then
    pushBack b.monitors b.nextActorId monitorRef else b.monitors).find? x).getD []
  split
  · rw [SchedulerBase.find?_pushBack]
    exact List.subset_append_left _ _
  · exact List.Subset.refl _

lemma Tracked.spawnImpl (h : s.Tracked) (linker monitorRef : ActorRef) :
    { s with sched := (s.sched.spawnImpl linker monitorRef).2 }.Tracked := by
  refine h.of_sched (h.wellFormed.spawnImpl linker monitorRef) (Nat.le_succ _)
    (fun x hx => ?_) (fun x hlt hx => ?_) (monitorsOf_spawnImpl_subset _ _ _)
  · rw [SchedulerBase.contains_spawnImpl, Bool.or_eq_true]
    exact Or.inr hx
  · rw [SchedulerBase.contains_spawnImpl, Bool.or_eq_true, decide_eq_true_eq] at hx
    rcases hx with rfl | hx
    · exact absurd hlt (lt_irrefl _)
    · exact hx

lemma Tracked.link (h : s.Tracked) {left right : ActorRef} {sched : SchedulerBase}
    (hlink : s.sched.link left right = some sched) : { s with sched := sched }.Tracked := by
  rw [SchedulerBase.link, Option.ite_none_right_eq_some] at hlink
  obtain ⟨-, hlink⟩ := hlink
  obtain rfl := Option.some.inj hlink
  exact h.of_sched ⟨h.wellFormed.pos, h.wellFormed.lt⟩ le_rfl (fun _ => id) (fun _ _ => id)
    fun _ => List.Subset.refl _

/-- What `monitor` does when it does not raise. -/
lemma monitor_eq_some {b sched : SchedulerBase} {monitorRef targetRef : ActorRef}
    (h : b.monitor monitorRef targetRef = some sched) :
    sched = { b with monitors := pushBack b.monitors targetRef monitorRef } := by
  rw [SchedulerBase.monitor, Option.ite_none_right_eq_some] at h
  exact (Option.some.inj h.2).symm

lemma monitorsOf_monitor {b sched : SchedulerBase} {monitorRef targetRef : ActorRef}
    (h : b.monitor monitorRef targetRef = some sched) (x : ActorRef) :
    sched.monitorsOf x = b.monitorsOf x ++ if x = targetRef then [monitorRef] else [] := by
  rw [monitor_eq_some h]
  exact SchedulerBase.find?_pushBack _ _ _ _

lemma Tracked.monitor (h : s.Tracked) {monitorRef targetRef : ActorRef} {sched : SchedulerBase}
    (hmon : s.sched.monitor monitorRef targetRef = some sched) :
    { s with sched := sched }.Tracked := by
  refine h.of_sched ?_ ?_ ?_ ?_ fun x => ?_
  · rw [monitor_eq_some hmon]
    exact ⟨h.wellFormed.pos, h.wellFormed.lt⟩
  · rw [monitor_eq_some hmon]
  · rw [monitor_eq_some hmon]
    exact fun _ => id
  · rw [monitor_eq_some hmon]
    exact fun _ _ => id
  · rw [monitorsOf_monitor hmon]
    exact List.subset_append_left _ _

/-! ### The operations of the supervisor -/

/-- A child is registered, and becomes the one to be monitored next. -/
lemma Tracked.register (h : s.Tracked) {index : ℕ} {args : Args} {todo : List (ℕ × Args)}
    (hs : s.activity.inProgress = true) (hnone : s.activity.unmonitored = none) :
    (s.register index args todo).Tracked := by
  have hgrown := h.spawnImpl 0 0
  have hchild : (s.sched.spawnImpl 0 0).2.actors.contains s.sched.nextActorId = true := by
    rw [SchedulerBase.contains_spawnImpl]
    simp
  refine ⟨hgrown.wellFormed, fun _ => hgrown.self_alive hs, by simp [MtSupervisor.register],
    fun c hc => ?_, fun c hc => ?_, hgrown.exited_lt, fun c hc hlive => ?_, fun e he hmem => ?_⟩
  · obtain rfl : s.sched.nextActorId = c := Option.some.inj hc
    exact hchild
  · rcases List.mem_append.mp hc with hc | hc
    · exact hgrown.spawned_lt c hc
    · obtain rfl := List.mem_singleton.mp hc
      exact Nat.lt_succ_self _
  · rcases List.mem_append.mp hc with hc | hc
    · refine (hgrown.monitored c hc hlive).imp_right fun heq => ?_
      exact absurd (hnone.symm.trans heq) (by simp)
    · exact Or.inr (congrArg some (List.mem_singleton.mp hc).symm)
  · rcases List.mem_append.mp hmem with hmem | hmem
    · exact h.reported e he hmem
    · -- a fresh reference has not been the one of an exit
      exact absurd (List.mem_singleton.mp hmem) (h.exited_lt e he).ne

/-- `monitor` finds the child and the supervisor registered. -/
lemma Tracked.monitor_isSome (h : s.Tracked) {ref : ActorRef}
    (hs : s.activity.inProgress = true) (href : s.activity.unmonitored = some ref) :
    ∃ sched, s.sched.monitor s.self ref = some sched := by
  refine ⟨_, if_pos ?_⟩
  rw [Bool.and_eq_true]
  exact ⟨h.self_alive hs, h.current ref href⟩

/-- The child is monitored. -/
lemma Tracked.monitored_child (h : s.Tracked) {ref : ActorRef} {index : ℕ} {args : Args}
    {todo : List (ℕ × Args)} {sched : SchedulerBase} (hs : s.activity.inProgress = true)
    (href : s.activity.unmonitored = some ref) (hmon : s.sched.monitor s.self ref = some sched) :
    { s with sched := sched, activity := .monitored ref index args todo }.Tracked := by
  have hgrown := h.monitor hmon
  refine ⟨hgrown.wellFormed, fun _ => hgrown.self_alive hs, by simp,
    fun c hc => absurd hc (by simp [Activity.unmonitored]), hgrown.spawned_lt, hgrown.exited_lt,
    fun c hc hlive => Or.inl ?_, hgrown.reported⟩
  rcases hgrown.monitored c hc hlive with hmem | heq
  · exact hmem
  · obtain rfl := Option.some.inj (href.symm.trans heq)
    show s.self ∈ sched.monitorsOf ref
    rw [monitorsOf_monitor hmon]
    simp

lemma Tracked.proceed (h : s.Tracked) (ht : s.proceed = some t) : t.Tracked := by
  rw [MtSupervisor.proceed] at ht
  cases hs : s.activity with
  | idle | raised => simp [hs] at ht
  | starting todo =>
      have hlive : s.alive s.self = true := h.self_alive (by rw [hs]; rfl)
      cases todo with
      | nil =>
          simp only [hs, Option.some.injEq] at ht
          subst ht
          exact h.of_activity (fun _ => hlive) (by simp) (by rw [hs]; rfl)
      | cons child todo =>
          simp only [hs, Option.some.injEq] at ht
          subst ht
          split
          · exact h.register (by rw [hs]; rfl) (by rw [hs]; rfl)
          · exact h.of_activity (fun _ => hlive) (by simp) (by rw [hs]; rfl)
  | registered ref index args todo =>
      simp only [hs, Option.some.injEq] at ht
      subst ht
      exact h.of_activity (fun _ => h.self_alive (by rw [hs]; rfl)) (by simp) (by rw [hs]; rfl)
  | spawned ref index args todo =>
      obtain ⟨sched, hmon⟩ := h.monitor_isSome (by rw [hs]; rfl) (by rw [hs]; rfl)
      simp only [hs, hmon, Option.some.injEq] at ht
      subst ht
      exact h.monitored_child (by rw [hs]; rfl) (by rw [hs]; rfl) hmon
  | monitored ref index args todo =>
      simp only [hs, Option.some.injEq] at ht
      subst ht
      exact (h.of_activity (x := .starting todo) (fun _ => h.self_alive (by rw [hs]; rfl))
        (by simp) (by rw [hs]; rfl)).of_children

/-! ### Exits and their signals -/

/-- An exit of an actor that is not the child to be monitored next. -/
lemma Tracked.exit (h : s.Tracked) {a : ActorRef} {reason : ExitReason} (hlive : s.alive a = true)
    (hself : a = s.self → s.activity.inProgress = false)
    (hok : s.activity.unmonitored ≠ some a) :
    { s with
      sched := s.sched.collectAndErase a
      sends := s.sends ++ [s.sched.pendingSignals a reason]
      exited := s.exited ++ [(a, reason)] }.Tracked := by
  have hkeep : ∀ x, x ≠ a → s.alive x = true →
      (s.sched.collectAndErase a).actors.contains x = true := fun x hx hxlive => by
    rw [show (s.sched.collectAndErase a).actors = s.sched.actors.erase a from rfl,
      OrdMap.contains_erase]
    simpa [hx, alive] using hxlive
  have hold : ∀ x, (s.sched.collectAndErase a).actors.contains x = true →
      x ≠ a ∧ s.alive x = true := fun x hx => by
    rw [show (s.sched.collectAndErase a).actors = s.sched.actors.erase a from rfl,
      OrdMap.contains_erase] at hx
    simpa [alive] using hx
  refine ⟨⟨h.wellFormed.pos, fun x hx => h.wellFormed.lt x (hold x hx).2⟩, fun hp => ?_,
    h.not_raised, fun c hc => ?_, h.spawned_lt, fun e he => ?_, fun c hc hclive => ?_,
    fun e he hmem => ?_⟩
  · refine hkeep _ (fun heq => ?_) (h.self_alive hp)
    exact absurd (hp.symm.trans (hself heq.symm)) (by simp)
  · exact hkeep c (fun heq => hok (heq ▸ hc)) (h.current c hc)
  · rcases List.mem_append.mp he with he | he
    · exact h.exited_lt e he
    · obtain rfl := List.mem_singleton.mp he
      exact h.wellFormed.lt a hlive
  · obtain ⟨hne, hclive⟩ := hold c hclive
    refine (h.monitored c hc hclive).imp_left fun hmon => ?_
    rw [SchedulerBase.monitorsOf_collectAndErase, if_neg hne]
    exact hmon
  · rcases List.mem_append.mp he with he | he
    · refine (h.reported e he hmem).imp_right fun ⟨l, hl, hp⟩ => ?_
      exact ⟨l, List.mem_append_left _ hl, hp⟩
    · obtain rfl := List.mem_singleton.mp he
      have hmon : s.self ∈ s.sched.monitorsOf a :=
        (h.monitored a hmem hlive).resolve_right hok
      refine Or.inr ⟨_, List.mem_append_right _ (List.mem_singleton.mpr rfl), ?_⟩
      exact List.mem_append_right _ (List.mem_map.mpr ⟨s.self, hmon, rfl⟩)

/-- A report that is about to be sent is sent, or stays where it is. -/
lemma Reported.deliver {k : ℕ} {p : ActorRef × Signal} {e : ActorRef × ExitReason}
    (h : s.Reported e) (hp : s.nextSend k = some p)
    (hok : p = (s.self, Signal.down e.1 e.2) → s.alive s.self = true) :
    { s with
      sched := s.sched.send p.1 p.2
      sends := s.sends.modify k List.tail
      enqueued := s.enqueued ++ if s.alive p.1 then [p] else [] }.Reported e := by
  obtain ⟨l, hl, hhead⟩ := Option.bind_eq_some_iff.mp hp
  rcases h with h | ⟨l', hl', hmem⟩
  · exact Or.inl (List.mem_append_left _ h)
  · obtain ⟨i, hi⟩ := List.mem_iff_getElem?.mp hl'
    by_cases hik : k = i
    · subst hik
      obtain rfl := Option.some.inj (hl.symm.trans hi)
      obtain ⟨ps, rfl⟩ : ∃ ps, l = p :: ps := List.head?_eq_some_iff.mp hhead
      rcases List.mem_cons.mp hmem with rfl | hmem
      · refine Or.inl (List.mem_append_right _ ?_)
        rw [if_pos (hok rfl)]
        exact List.mem_singleton.mpr rfl
      · refine Or.inr ⟨ps, List.mem_iff_getElem?.mpr ⟨k, ?_⟩, hmem⟩
        simp [hl]
    · refine Or.inr ⟨l', List.mem_iff_getElem?.mpr ⟨i, ?_⟩, hmem⟩
      simp [hik, hi]

lemma reportsChild_down {e : ActorRef × ExitReason} (he : e.1 ∈ s.spawned) :
    s.reportsChild (s.self, .down e.1 e.2) = true := decide_eq_true ⟨rfl, he⟩

lemma Tracked.deliver (h : s.Tracked) {k : ℕ} {p : ActorRef × Signal} (hp : s.nextSend k = some p)
    (hok : s.reportsChild p = true → s.alive s.self = true) :
    { s with
      sched := s.sched.send p.1 p.2
      sends := s.sends.modify k List.tail
      enqueued := s.enqueued ++ if s.alive p.1 then [p] else [] }.Tracked := by
  have halive : ∀ x, (s.sched.send p.1 p.2).actors.contains x = s.alive x :=
    fun x => SchedulerBase.contains_send _ _ x _
  have hsent : { s with sched := s.sched.send p.1 p.2 }.Tracked := by
    refine h.of_sched ⟨?_, fun x hx => ?_⟩ ?_ (fun x hx => (halive x).trans hx)
      (fun x _ hx => (halive x).symm.trans hx) fun x => ?_
    · rw [SchedulerBase.nextActorId_send]
      exact h.wellFormed.pos
    · rw [SchedulerBase.nextActorId_send]
      exact h.wellFormed.lt x ((halive x).symm.trans hx)
    · rw [SchedulerBase.nextActorId_send]
    · rw [SchedulerBase.monitorsOf, SchedulerBase.monitorsOf, SchedulerBase.monitors_send]
      exact List.Subset.refl _
  refine ⟨hsent.wellFormed, hsent.self_alive, hsent.not_raised, hsent.current, hsent.spawned_lt,
    hsent.exited_lt, hsent.monitored, fun e he hmem => ?_⟩
  exact (h.reported e he hmem).deliver hp fun heq => hok (heq ▸ reportsChild_down hmem)

/-- An exception drops signals that report no child. -/
lemma Tracked.abort (h : s.Tracked) {k : ℕ} {rest : List (ActorRef × Signal)}
    (hk : s.sends[k]? = some rest) (hok : ∀ p ∈ rest, s.reportsChild p = false) :
    { s with sends := s.sends.set k [] }.Tracked := by
  refine ⟨h.wellFormed, h.self_alive, h.not_raised, h.current, h.spawned_lt, h.exited_lt,
    h.monitored, fun e he hmem => (h.reported e he hmem).imp_right fun ⟨l, hl, hdown⟩ => ?_⟩
  obtain ⟨i, hi⟩ := List.mem_iff_getElem?.mp hl
  have hne : k ≠ i := by
    rintro rfl
    obtain rfl := Option.some.inj (hk.symm.trans hi)
    exact absurd ((reportsChild_down hmem).symm.trans (hok _ hdown)) (by decide)
  exact ⟨l, List.mem_iff_getElem?.mpr ⟨i, (List.getElem?_set_ne hne).trans hi⟩, hdown⟩

/-! ### Runs -/

lemma Tracked.step (s : MtSupervisor Args) (l : Label Args) (t : MtSupervisor Args)
    (h : s.Tracked) (hok : s.Unhurried l) (ht : s.step l = some t) : t.Tracked := by
  cases l with
  | begins op =>
      rw [MtSupervisor.step, Option.ite_none_right_eq_some] at ht
      obtain ⟨⟨hidle, hlive⟩, ht⟩ := ht
      obtain rfl := Option.some.inj ht
      refine h.of_activity (fun _ => hlive) (by simp) ?_
      -- nothing is to be monitored outside an operation
      cases hs : s.activity with
      | idle | raised | starting | monitored => rfl
      | registered | spawned => simp [hs, Activity.inProgress] at hidle
  | proceed => exact h.proceed ht
  | fail => exact absurd hok id
  | settle children =>
      rw [MtSupervisor.step, Option.ite_none_right_eq_some] at ht
      obtain rfl := Option.some.inj ht.2
      exact h.of_children
  | spawn linker monitorRef =>
      obtain rfl := Option.some.inj ht
      exact h.spawnImpl linker monitorRef
  | link left right =>
      obtain ⟨sched, hlink, rfl⟩ := Option.map_eq_some_iff.mp ht
      exact h.link hlink
  | monitor monitorRef targetRef =>
      obtain ⟨sched, hmon, rfl⟩ := Option.map_eq_some_iff.mp ht
      exact h.monitor hmon
  | exit a reason =>
      rw [MtSupervisor.step, Option.ite_none_right_eq_some] at ht
      obtain ⟨⟨hlive, -, -, hself⟩, ht⟩ := ht
      obtain rfl := Option.some.inj ht
      exact h.exit hlive hself hok
  | deliver k =>
      obtain ⟨p, hp, rfl⟩ := Option.map_eq_some_iff.mp ht
      exact h.deliver hp (hok p hp)
  | abort k =>
      obtain ⟨rest, hk, rfl⟩ := Option.map_eq_some_iff.mp ht
      exact h.abort hk (hok rest hk)

/-- An operation in progress can go on, and every section brings it closer to its end. -/
lemma Tracked.advances (h : s.Tracked) (hs : s.activity.inProgress = true) :
    ∃ t, s.step .proceed = some t ∧ t.activity.remaining < s.activity.remaining := by
  rw [MtSupervisor.step, MtSupervisor.proceed]
  cases hact : s.activity with
  | idle | raised => simp [hact, Activity.inProgress] at hs
  | starting todo =>
      cases todo with
      | nil => exact ⟨_, rfl, by simp [Activity.remaining]⟩
      | cons child todo =>
          refine ⟨_, rfl, ?_⟩
          split
          · simp only [MtSupervisor.register, Activity.remaining, List.length_cons]
            omega
          · simp [Activity.remaining]
  | registered ref index args todo => exact ⟨_, rfl, by simp [Activity.remaining]⟩
  | spawned ref index args todo =>
      obtain ⟨sched, hmon⟩ := h.monitor_isSome hs (by rw [hact]; rfl)
      simp only [hmon]
      exact ⟨_, rfl, by simp [Activity.remaining]⟩
  | monitored ref index args todo => exact ⟨_, rfl, by simp [Activity.remaining]⟩

/-- A child that exits before it is monitored makes the operation raise. -/
lemma raises_of_exit {a : ActorRef} {reason : ExitReason} (ha : s.activity.unmonitored = some a)
    (ht : s.step (.exit a reason) = some t) :
    ∃ u, t.step .proceed = some u ∧ u.activity = .raised := by
  rw [step, Option.ite_none_right_eq_some] at ht
  obtain ⟨⟨-, -, hdetached, -⟩, ht⟩ := ht
  obtain rfl := Option.some.inj ht
  cases hact : s.activity with
  | idle | raised | starting | monitored => simp [hact, Activity.unmonitored] at ha
  | registered ref => exact absurd (by rw [hact] at ha ⊢; exact ha) hdetached
  | spawned ref index args todo =>
      obtain rfl : ref = a := by simpa [hact, Activity.unmonitored] using ha
      have hgone : (s.sched.collectAndErase ref).actors.contains ref = false := by
        rw [show (s.sched.collectAndErase ref).actors = s.sched.actors.erase ref from rfl,
          OrdMap.contains_erase]
        simp
      have hmon : (s.sched.collectAndErase ref).monitor s.self ref = none := by
        rw [SchedulerBase.monitor, hgone]
        simp
      refine ⟨_, rfl, ?_⟩
      simp only [hmon]

/-- In a run all of whose steps are unhurried, every exit of a child is observed, and an operation
in progress goes on to its end; the exit of a child before its monitor makes the operation
raise. -/
theorem children_observed (older : ℕ) (spec : Specification Args) (ls : List (Label Args))
    (s : MtSupervisor Args) (hrun : run step (start older spec) ls = some s)
    (hok : AllSteps step Unhurried (start older spec) ls) :
    s.Observed ∧
      (s.activity.inProgress = true →
        ∃ t, s.step .proceed = some t ∧ t.activity.remaining < s.activity.remaining) ∧
      ∀ a reason t, ¬ s.Unhurried (.exit a reason) → s.step (.exit a reason) = some t →
        ∃ u, t.step .proceed = some u ∧ u.activity = .raised := by
  have htracked := invariant Tracked.step (tracked_start older spec) hok hrun
  refine ⟨htracked.observed, htracked.advances, fun a reason t hhurried ht => ?_⟩
  exact raises_of_exit (not_not.mp hhurried) ht

/-- A supervisor of one permanent child. -/
def oneChild : Specification Unit := { children := [{ args := (), defaultArgs := () }] }

/-- The child of `init` exits after it has been monitored. -/
def lateExit : List (Label Unit) :=
  [.begins .init, .proceed, .proceed, .proceed, .proceed, .proceed, .exit 2 .error, .deliver 0]

/-- The child of `init` exits before it is monitored. -/
def earlyExit : List (Label Unit) :=
  [.begins .init, .proceed, .proceed, .exit 2 .error, .proceed]

/-- The exit of a child that is monitored is observed. -/
theorem children_observed_lateExit :
    run step (start 0 oneChild) lateExit = some (reached step (start 0 oneChild) lateExit) ∧
      AllSteps step Unhurried (start 0 oneChild) lateExit ∧
      (2, ExitReason.error) ∈ (reached step (start 0 oneChild) lateExit).exited ∧
      2 ∈ (reached step (start 0 oneChild) lateExit).spawned ∧
      (reached step (start 0 oneChild) lateExit).Observed := by
  have hrun := run_eq_reached (show (run step (start 0 oneChild) lateExit).isSome = true by decide)
  have hok : AllSteps step Unhurried (start 0 oneChild) lateExit := by decide
  exact ⟨hrun, hok, by decide, by decide, (children_observed 0 oneChild lateExit _ hrun hok).1⟩

/-- `init` raises for a child that has exited, and no signal of the exit is enqueued or still to be
sent. -/
theorem not_observed_earlyExit :
    run step (start 0 oneChild) earlyExit = some (reached step (start 0 oneChild) earlyExit) ∧
      (reached step (start 0 oneChild) earlyExit).activity = .raised ∧
      2 ∈ (reached step (start 0 oneChild) earlyExit).spawned ∧
      (2, ExitReason.error) ∈ (reached step (start 0 oneChild) earlyExit).exited ∧
      ¬ (reached step (start 0 oneChild) earlyExit).Reported (2, .error) := by
  refine ⟨run_eq_reached (by decide), by decide, by decide, by decide, ?_⟩
  rintro (h | ⟨l, hl, h⟩)
  · exact absurd h (by decide)
  · exact absurd h ((show ∀ l ∈ (reached step (start 0 oneChild) earlyExit).sends,
      (1, Signal.down 2 ExitReason.error) ∉ l by decide) l hl)

end MtSupervisor

end Agner.SpawnRace
