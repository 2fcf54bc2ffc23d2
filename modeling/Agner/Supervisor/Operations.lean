import Agner.Scheduler.Base

/-!
`supervisor.hpp`: the members of `Supervisor` and its operations, run against the registry
of `SchedulerBase`.

An operation is a computation on `World`, the supervisor's own members together with the
scheduler it is bound to; raising is the `std::out_of_range` of `children_.at` and of the
scheduler's `actors_.at`, and leaves behind the state in which it was raised. The type
erased constructor arguments of a child are values of the parameter `Args`. The code of the
children, which some operations run, does nothing here; see `Reacting`.

The order of the definitions is bottom up: `requestStop` and the loops that call it,
spawning and starting, restart accounting, group restarts, the handling of a termination,
and the public operations.
-/

namespace Agner

/-- `Restart`. -/
inductive Restart where
  | permanent
  | transient
  | temporary
  deriving DecidableEq, Repr

/-- `Strategy`. -/
inductive Strategy where
  | oneForOne
  | oneForAll
  | restForOne
  | simpleOneForOne
  deriving DecidableEq, Repr

/-- `Intensity`, its window in clock ticks. -/
structure Intensity where
  maxRestarts : ℕ := 0
  within : ℤ := 0

/-- `ChildSpec`: `args` are the arguments of the static child, `defaultArgs` the value
initialised tuple a dynamic child is started with when no arguments are given. -/
structure ChildSpec (Args : Type) where
  restart : Restart := .permanent
  args : Args
  defaultArgs : Args

/-- `Supervisor::Specification`. -/
structure Specification (Args : Type) where
  strategy : Strategy := .oneForOne
  intensity : Intensity := {}
  children : List (ChildSpec Args)

/-- `Supervisor::ChildEntry`. -/
structure ChildEntry (Args : Type) where
  specIndex : ℕ
  startOrder : ℕ
  args : Args
  stopping : Bool := false
  suppressRestart : Bool := false

/-- `Supervisor::RestartPlanItem`. -/
structure RestartPlanItem (Args : Type) where
  ref : ActorRef
  entry : ChildEntry Args
  reason : ExitReason

/-- `Supervisor::RestartGroup`. -/
structure RestartGroup (Args : Type) where
  strategy : Strategy
  plan : List (RestartPlanItem Args)
  pendingStops : List ActorRef := []

/-- How far the coroutine `Supervisor::run` has come. -/
inductive Phase where
  | created
  | supervising
  | ended
  deriving DecidableEq, Repr

/-- A supervisor and the scheduler it is bound to. The supervisor's mailbox is the list of
signals the registry keeps for `self`. -/
structure World (Args : Type) where
  sched : SchedulerBase
  /-- The clock reading `scheduler_now` returns. -/
  now : ℤ := 0
  self : ActorRef
  specification : Specification Args
  children : OrdMap ActorRef (ChildEntry Args) := ∅
  restartTimes : List ℤ := []
  restartGroup : Option (RestartGroup Args) := none
  nextStartOrder : ℕ := 1
  stopping : Bool := false
  exitReason : Option ExitReason := none
  phase : Phase := .created
  /-- Every child spawned so far with its spec index, in order. -/
  spawned : List (ActorRef × ℕ) := []

/-- The exceptions an operation may raise. -/
inductive Exception where
  /-- `std::out_of_range`, of `children_.at` or of the scheduler's `actors_.at`. -/
  | outOfRange
  /-- An exception of user code. -/
  | user
  deriving DecidableEq, Repr

namespace Supervisor

variable {Args : Type}

/-- Computations of the supervisor. -/
abbrev SupM (Args : Type) := EStateM Exception (World Args)

/-! ### Stopping children -/

/-- `scheduler().stop(target, reason)`. -/
def schedulerStop (target : ActorRef) (reason : ExitReason) : SupM Args Unit := do
  let w ← get
  match w.sched.stop target reason with
  | none => throw .outOfRange
  | some sched => set { w with sched := sched }

/-- `request_stop`. -/
def requestStop (ref : ActorRef) : SupM Args Unit := do
  let w ← get
  match w.children.find? ref with
  | none => throw .outOfRange
  | some child =>
      if child.stopping then pure ()
      else do
        set { w with children := w.children.modify ref fun c => { c with stopping := true } }
        schedulerStop ref .stopped

/-- Assignment to `suppress_restart` of the entry stored for `ref`. -/
def setSuppress (ref : ActorRef) (b : Bool) : SupM Args Unit :=
  modify fun w =>
    { w with children := w.children.modify ref fun c => { c with suppressRestart := b } }

/-- `stop_and_suppress_by_index`. -/
def stopAndSuppressByIndex (index : ℕ) : SupM Args Unit := do
  let w ← get
  w.children.entries.forM fun child =>
    if child.2.specIndex = index then do
      setSuppress child.1 true
      requestStop child.1
    else pure ()

/-- `stop_all_children`. -/
def stopAllChildren : SupM Args Unit := do
  let w ← get
  w.children.entries.forM fun child => do
    setSuppress child.1 true
    requestStop child.1

/-- `Actor::stop`, the base class operation, on the supervisor itself. -/
def baseStop (reason : ExitReason) : SupM Args Unit :=
  modify fun w =>
    { w with exitReason := some reason, sched := w.sched.send w.self (.exit w.self reason) }

/-- `Supervisor::stop`. -/
def stop (reason : ExitReason) : SupM Args Unit := do
  let w ← get
  if w.stopping then baseStop reason
  else do
    set { w with stopping := true }
    stopAllChildren
    modify fun w => { w with restartGroup := none }
    baseStop reason

/-! ### Starting children -/

/-- `restart_at_spec_index`. -/
def restartAtSpecIndex (spec : Specification Args) (index : ℕ) : Restart :=
  ((spec.children[index]?).map ChildSpec.restart).getD .permanent

/-- `find_running_child_for_spec`. -/
def findRunningChildForSpec (w : World Args) (index : ℕ) : Option ActorRef :=
  (w.children.entries.find? fun child => decide (child.2.specIndex = index)).map Prod.fst

/-- `spawn_child_with_args`: `spawn`, then `monitor`, as two operations of the scheduler. -/
def spawnChildWithArgs (index : ℕ) : SupM Args ActorRef := do
  let w ← get
  let (ref, sched) := w.sched.spawnImpl 0 0
  set { w with sched := sched, spawned := w.spawned ++ [(ref, index)] }
  match sched.monitor w.self ref with
  | none => throw .outOfRange
  | some sched' => do
      modify fun w => { w with sched := sched' }
      pure ref

/-- The registration of a spawned child in `children_`. -/
def registerChild (ref : ActorRef) (index : ℕ) (args : Args) : SupM Args Unit :=
  modify fun w =>
    { w with
      children := w.children.insert ref
        { specIndex := index, startOrder := w.nextStartOrder, args := args }
      nextStartOrder := w.nextStartOrder + 1 }

/-- The part of `start_child_with_args` that starts an instance. -/
def startFresh (index : ℕ) (args : Args) : SupM Args ActorRef := do
  let ref ← spawnChildWithArgs index
  registerChild ref index args
  pure ref

/-- `start_child_with_args`: unless children are dynamic, a running child is returned as it
is. -/
def startChildWithArgs (index : ℕ) (args : Args) : SupM Args ActorRef := do
  let w ← get
  if w.specification.strategy = .simpleOneForOne then startFresh index args
  else
    match findRunningChildForSpec w index with
    | some ref => pure ref
    | none => startFresh index args

/-- `respawn_with_entry`: `visit_at_index` calls nothing for an index past the last spec. -/
def respawnWithEntry (entry : ChildEntry Args) : SupM Args Unit := do
  let w ← get
  if entry.specIndex < w.specification.children.length then do
    let _ ← startChildWithArgs entry.specIndex entry.args
    pure ()
  else pure ()

/-- `start_child_by_index`, without arguments (`none`) or with some. -/
def startChildByIndex (index : ℕ) (args : Option Args) : SupM Args Unit := do
  let w ← get
  match w.specification.children[index]? with
  | none => pure ()
  | some spec => do
      let chosen := args.getD
        (if w.specification.strategy = .simpleOneForOne then spec.defaultArgs else spec.args)
      let _ ← startChildWithArgs index chosen
      pure ()

/-- `init`, which runs `start_all_from_specs` unless children are started dynamically. -/
def init : SupM Args Unit := do
  let w ← get
  if w.specification.strategy = .simpleOneForOne then pure ()
  else (List.range w.specification.children.length).forM fun i => startChildByIndex i none

/-! ### Restarting children -/

/-- `should_restart`. -/
def shouldRestart : Restart → ExitReason → Bool
  | .permanent, _ => true
  | .transient, reason => decide (reason ≠ .normal)
  | .temporary, _ => false

/-- `register_restart`: whether the restart is within the intensity limit; if it is not, the
supervisor stops itself. -/
def registerRestart : SupM Args Bool := do
  let w ← get
  if w.specification.intensity.maxRestarts = 0 then do
    stop .error
    pure false
  else do
    let times := (w.restartTimes.filter fun t =>
      !decide (w.specification.intensity.within < w.now - t)) ++ [w.now]
    set { w with restartTimes := times }
    if w.specification.intensity.maxRestarts < times.length then do
      stop .error
      pure false
    else pure true

/-- `finalize_restart_group`. -/
def finalizeRestartGroup : SupM Args Unit := do
  let w ← get
  match w.restartGroup with
  | none => pure ()
  | some group => do
      set { w with restartGroup := none }
      group.plan.forM fun item =>
        if shouldRestart (restartAtSpecIndex w.specification item.entry.specIndex) item.reason
        then respawnWithEntry item.entry
        else pure ()

/-- The plan of `begin_restart_group`: the failed child first, then every child still
registered, in the order of `children_`, less those that `rest_for_one` leaves alone. -/
def restartPlan (w : World Args) (failedRef : ActorRef) (failed : ChildEntry Args)
    (reason : ExitReason) : List (RestartPlanItem Args) :=
  { ref := failedRef, entry := failed, reason := reason } ::
    ((w.children.entries.map fun child =>
      ({ ref := child.1, entry := child.2, reason := .stopped } : RestartPlanItem Args)).filter
      fun item => !(decide (w.specification.strategy = .restForOne) &&
        decide (item.entry.startOrder ≤ failed.startOrder)))

/-- `restart_group_->pending_stops.push_back(ref)`. -/
def pushPendingStop (ref : ActorRef) : SupM Args Unit :=
  modify fun w =>
    { w with restartGroup := w.restartGroup.map fun g =>
        { g with pendingStops := g.pendingStops ++ [ref] } }

/-- The loop of `begin_restart_group` that asks the children of the plan to stop. -/
def stopPlan (plan : List (RestartPlanItem Args)) : SupM Args Unit :=
  plan.forM fun item => do
    let w ← get
    if w.children.contains item.ref then do
      pushPendingStop item.ref
      setSuppress item.ref false
      requestStop item.ref
    else pure ()

/-- `if (restart_group_->pending_stops.empty()) finalize_restart_group()`. -/
def finalizeIfDone : SupM Args Unit := do
  let w ← get
  match w.restartGroup with
  | none => pure ()
  | some group => if group.pendingStops = [] then finalizeRestartGroup else pure ()

/-- `begin_restart_group`. -/
def beginRestartGroup (failedRef : ActorRef) (failed : ChildEntry Args)
    (reason : ExitReason) : SupM Args Unit := do
  let w ← get
  let plan := restartPlan w failedRef failed reason
  set { w with
    restartGroup := some { strategy := w.specification.strategy, plan := plan } }
  stopPlan plan
  finalizeIfDone

/-- `handle_restart_group_stop`. -/
def handleRestartGroupStop (ref : ActorRef) : SupM Args Unit := do
  modify fun w =>
    { w with
      children := w.children.erase ref
      restartGroup := w.restartGroup.map fun g =>
        { g with pendingStops := g.pendingStops.erase ref } }
  finalizeIfDone

/-- `handle_termination`. -/
def handleTermination (ref : ActorRef) (reason : ExitReason) : SupM Args Unit := do
  let w ← get
  if w.restartGroup.isSome then handleRestartGroupStop ref
  else
    match w.children.find? ref with
    | none => pure ()
    | some entry => do
        set { w with children := w.children.erase ref }
        if !entry.suppressRestart &&
            shouldRestart (restartAtSpecIndex w.specification entry.specIndex) reason then do
          if ← registerRestart then
            match w.specification.strategy with
            | .oneForOne | .simpleOneForOne => respawnWithEntry entry
            | .oneForAll | .restForOne => beginRestartGroup ref entry reason
          else pure ()
        else pure ()

/-- `handle_signal`. -/
def handleSignal (source : ActorRef) (reason : ExitReason) : SupM Args Unit :=
  if source.valid then handleTermination source reason else pure ()

/-- The two visitors of `supervise_loop`, on the received signal. -/
def superviseVisitor (signal : Signal) : SupM Args Unit := do
  let w ← get
  match signal with
  | .down source reason => handleSignal source reason
  | .exit source reason =>
      if w.stopping && decide (source = w.self) then set { w with phase := .ended }
      else handleSignal source reason

/-! ### Administrative operations -/

/-- `restart_child_entry`, on the entry now stored for `ref`. -/
def restartChildEntry (index : ℕ) (ref : ActorRef) : SupM Args Unit := do
  let w ← get
  match w.children.find? ref with
  | none => throw .outOfRange
  | some entry =>
      if !entry.stopping then do
        setSuppress ref false
        requestStop ref
      else do
        let _ ← startChildWithArgs index entry.args
        pure ()

/-- `restart_child`, through `restart_children_by_index`. -/
def restartChild (index : ℕ) : SupM Args Unit := do
  let w ← get
  let toRestart := (w.children.entries.filter fun child =>
    decide (child.2.specIndex = index)).map Prod.fst
  toRestart.forM fun ref => setSuppress ref false
  toRestart.forM fun ref => restartChildEntry index ref

/-- `start_child`. -/
def startChild (index : ℕ) (args : Option Args) : SupM Args Unit := startChildByIndex index args

/-- `stop_child`, through `stop_children_by_index`. -/
def stopChild (index : ℕ) : SupM Args Unit := stopAndSuppressByIndex index

/-- `delete_child`, through `delete_children_by_index`. -/
def deleteChild (index : ℕ) : SupM Args Unit := do
  stopAndSuppressByIndex index
  modify fun w =>
    { w with children := w.children.filter fun _ c => decide (c.specIndex ≠ index) }

end Supervisor

end Agner
