import Agner.Supervisor.Lifetime

/-!
The code that runs inside the operations of a supervisor.

`scheduler().stop(child)` calls the `stop` of the child, which may be an override (that of a
supervisor asks the children of the child first), and then runs the visitor of a child that is
suspended; starting a child runs its constructor. Such code may spawn, link and monitor actors,
it may raise, and it may call an operation of the supervisor that is in the middle of another one.

* `Site`, `Code`: where such code runs, and what it does.
* `Reacting`: the operations of the supervisor with that code run where the source runs it. With
  code that does nothing they are those of `Operations`.
* `Foreign`: the code calls no operation of the supervisor. What the source does after such a call
  may be undefined, since it changes containers that the outer operation iterates over.
* `Sweeping`, `Robust`: a property that the parts of the operations keep, and the operations that
  keep it. `Lasting` properties are kept by all of them.
-/

namespace Agner

open Raising

namespace Supervisor

variable {Args : Type}

/-! ### Code of others -/

/-- Where an operation of the supervisor runs code of others. -/
inductive Site where
  /-- The `stop` of the child, before it enqueues the exit signal. -/
  | stopping (child : ActorRef)
  /-- The `stop` of the child, from then on. -/
  | stopped (child : ActorRef)
  /-- The constructor of the child that gets this start order. -/
  | constructing (order : ℕ)
  deriving DecidableEq, Repr

/-- The administrative operations, and `stop`. -/
inductive Operation (Args : Type) where
  | startChild (index : ℕ) (args : Option Args)
  | stopChild (index : ℕ)
  | restartChild (index : ℕ)
  | deleteChild (index : ℕ)
  | stop (reason : ExitReason)

/-- The operation, called while nothing runs inside it. -/
def Operation.run : Operation Args → SupM Args Unit
  | .startChild index args => Supervisor.startChild index args
  | .stopChild index => Supervisor.stopChild index
  | .restartChild index => Supervisor.restartChild index
  | .deleteChild index => Supervisor.deleteChild index
  | .stop reason => Supervisor.stop reason

/-- The label is a step that code of other actors takes. -/
def Label.taken : Label Args → Bool
  | .spawn .. | .link .. | .monitor .. | .advance _ => true
  | _ => false

/-- What a piece of code does, up to its end. -/
inductive Code (Args : Type) where
  | returns
  | raises
  /-- It spawns, links or monitors actors, or time passes. -/
  | takes (l : Label Args) (next : Code Args)
  /-- It calls an operation of the supervisor. -/
  | calls (op : Operation Args) (next : Code Args)

/-- The world after the step, which changes nothing if it is not possible. -/
def taken (w : World Args) (l : Label Args) : World Args :=
  if l.taken then ((step { world := w } l).map System.world).getD w else w

namespace Code

/-- The effect of the code. -/
def run : Code Args → SupM Args Unit
  | .returns => pure ()
  | .raises => throw .user
  | .takes l next => do
      modify fun w => taken w l
      next.run
  | .calls op next => do
      op.run
      next.run

/-- The code calls no operation of the supervisor. -/
def foreign : Code Args → Bool
  | .returns | .raises => true
  | .takes _ next => next.foreign
  | .calls .. => false

/-- The code ends without an exception. -/
def returning : Code Args → Bool
  | .returns => true
  | .raises => false
  | .takes _ next | .calls _ next => next.returning

end Code

/-! ### The operations -/

namespace Reacting

variable (inner : Site → Code Args)

/-- `scheduler().stop(target, reason)`. -/
def schedulerStop (target : ActorRef) (reason : ExitReason) : SupM Args Unit := do
  let w ← get
  if w.sched.actors.contains target then do
    (inner (.stopping target)).run
    modify fun w => { w with sched := w.sched.send target (.exit target reason) }
    (inner (.stopped target)).run
  else throw .outOfRange

/-- `request_stop`. -/
def requestStop (ref : ActorRef) : SupM Args Unit := do
  let w ← get
  match w.children.find? ref with
  | none => throw .outOfRange
  | some child =>
      if child.stopping then pure ()
      else do
        set { w with children := w.children.modify ref fun c => { c with stopping := true } }
        schedulerStop inner ref .stopped

/-- `stop_and_suppress_by_index`. -/
def stopAndSuppressByIndex (index : ℕ) : SupM Args Unit := do
  let w ← get
  w.children.entries.forM fun child =>
    if child.2.specIndex = index then do
      setSuppress child.1 true
      requestStop inner child.1
    else pure ()

/-- `stop_all_children`. -/
def stopAllChildren : SupM Args Unit := do
  let w ← get
  w.children.entries.forM fun child => do
    setSuppress child.1 true
    requestStop inner child.1

/-- `Supervisor::stop`. -/
def stop (reason : ExitReason) : SupM Args Unit := do
  let w ← get
  if w.stopping then baseStop reason
  else do
    set { w with stopping := true }
    stopAllChildren inner
    modify fun w => { w with restartGroup := none }
    baseStop reason

/-- The part of `start_child_with_args` that starts an instance: `spawn_impl` constructs the child
before it registers it. -/
def startFresh (index : ℕ) (args : Args) : SupM Args ActorRef := do
  let w ← get
  (inner (.constructing w.nextStartOrder)).run
  Supervisor.startFresh index args

/-- `start_child_with_args`. -/
def startChildWithArgs (index : ℕ) (args : Args) : SupM Args ActorRef := do
  let w ← get
  if w.specification.strategy = .simpleOneForOne then startFresh inner index args
  else
    match findRunningChildForSpec w index with
    | some ref => pure ref
    | none => startFresh inner index args

/-- `respawn_with_entry`. -/
def respawnWithEntry (entry : ChildEntry Args) : SupM Args Unit := do
  let w ← get
  if entry.specIndex < w.specification.children.length then do
    let _ ← startChildWithArgs inner entry.specIndex entry.args
    pure ()
  else pure ()

/-- `start_child_by_index`. -/
def startChildByIndex (index : ℕ) (args : Option Args) : SupM Args Unit := do
  let w ← get
  match w.specification.children[index]? with
  | none => pure ()
  | some spec => do
      let chosen := args.getD
        (if w.specification.strategy = .simpleOneForOne then spec.defaultArgs else spec.args)
      let _ ← startChildWithArgs inner index chosen
      pure ()

/-- `register_restart`. -/
def registerRestart : SupM Args Bool := do
  let w ← get
  if w.specification.intensity.maxRestarts = 0 then do
    stop inner .error
    pure false
  else do
    let times := (w.restartTimes.filter fun t =>
      !decide (w.specification.intensity.within < w.now - t)) ++ [w.now]
    set { w with restartTimes := times }
    if w.specification.intensity.maxRestarts < times.length then do
      stop inner .error
      pure false
    else pure true

/-- `finalize_restart_group`. -/
def finalizeRestartGroup : SupM Args Unit := do
  let w ← get
  match w.restartGroup with
  | none => pure ()
  | some group => do
      set { w with restartGroup := none }
      group.plan.forM fun item =>
        if shouldRestart (restartAtSpecIndex w.specification item.entry.specIndex) item.reason
        then respawnWithEntry inner item.entry
        else pure ()

/-- The loop of `begin_restart_group` that asks the children of the plan to stop. -/
def stopPlan (plan : List (RestartPlanItem Args)) : SupM Args Unit :=
  plan.forM fun item => do
    let w ← get
    if w.children.contains item.ref then do
      pushPendingStop item.ref
      setSuppress item.ref false
      requestStop inner item.ref
    else pure ()

/-- `if (restart_group_->pending_stops.empty()) finalize_restart_group()`. -/
def finalizeIfDone : SupM Args Unit := do
  let w ← get
  match w.restartGroup with
  | none => pure ()
  | some group => if group.pendingStops = [] then finalizeRestartGroup inner else pure ()

/-- `begin_restart_group`. -/
def beginRestartGroup (failedRef : ActorRef) (failed : ChildEntry Args)
    (reason : ExitReason) : SupM Args Unit := do
  let w ← get
  let plan := restartPlan w failedRef failed reason
  set { w with
    restartGroup := some { strategy := w.specification.strategy, plan := plan } }
  stopPlan inner plan
  finalizeIfDone inner

/-- `handle_restart_group_stop`. -/
def handleRestartGroupStop (ref : ActorRef) : SupM Args Unit := do
  modify fun w =>
    { w with
      children := w.children.erase ref
      restartGroup := w.restartGroup.map fun g =>
        { g with pendingStops := g.pendingStops.erase ref } }
  finalizeIfDone inner

/-- `handle_termination`. -/
def handleTermination (ref : ActorRef) (reason : ExitReason) : SupM Args Unit := do
  let w ← get
  if w.restartGroup.isSome then handleRestartGroupStop inner ref
  else
    match w.children.find? ref with
    | none => pure ()
    | some entry => do
        set { w with children := w.children.erase ref }
        if !entry.suppressRestart &&
            shouldRestart (restartAtSpecIndex w.specification entry.specIndex) reason then do
          if ← registerRestart inner then
            match w.specification.strategy with
            | .oneForOne | .simpleOneForOne => respawnWithEntry inner entry
            | .oneForAll | .restForOne => beginRestartGroup inner ref entry reason
          else pure ()
        else pure ()

/-- `handle_signal`. -/
def handleSignal (source : ActorRef) (reason : ExitReason) : SupM Args Unit :=
  if source.valid then handleTermination inner source reason else pure ()

/-- The two visitors of `supervise_loop`. -/
def superviseVisitor (signal : Signal) : SupM Args Unit := do
  let w ← get
  match signal with
  | .down source reason => handleSignal inner source reason
  | .exit source reason =>
      if w.stopping && decide (source = w.self) then set { w with phase := .ended }
      else handleSignal inner source reason

/-- `restart_child_entry`. -/
def restartChildEntry (index : ℕ) (ref : ActorRef) : SupM Args Unit := do
  let w ← get
  match w.children.find? ref with
  | none => throw .outOfRange
  | some entry =>
      if !entry.stopping then do
        setSuppress ref false
        requestStop inner ref
      else do
        let _ ← startChildWithArgs inner index entry.args
        pure ()

/-- `restart_child`. -/
def restartChild (index : ℕ) : SupM Args Unit := do
  let w ← get
  let toRestart := (w.children.entries.filter fun child =>
    decide (child.2.specIndex = index)).map Prod.fst
  toRestart.forM fun ref => setSuppress ref false
  toRestart.forM fun ref => restartChildEntry inner index ref

/-- `delete_child`. -/
def deleteChild (index : ℕ) : SupM Args Unit := do
  stopAndSuppressByIndex inner index
  modify fun w =>
    { w with children := w.children.filter fun _ c => decide (c.specIndex ≠ index) }

/-- The administrative operations, and `stop`. -/
def administer : Operation Args → SupM Args Unit
  | .startChild index args => startChildByIndex inner index args
  | .stopChild index => stopAndSuppressByIndex inner index
  | .restartChild index => restartChild inner index
  | .deleteChild index => deleteChild inner index
  | .stop reason => stop inner reason

end Reacting

/-! ### Code that does nothing -/

/-- Nothing runs inside the operation. -/
def quiet : Site → Code Args := fun _ => .returns

section Quiet

lemma schedulerStop_quiet (target : ActorRef) (reason : ExitReason) :
    Reacting.schedulerStop quiet target reason =
      (schedulerStop target reason : SupM Args Unit) := by
  funext w
  change (Reacting.schedulerStop quiet target reason : SupM Args Unit).run w =
    (schedulerStop target reason : SupM Args Unit).run w
  simp only [Reacting.schedulerStop, schedulerStop, SchedulerBase.stop, quiet, Code.run,
    EStateM.run_bind, EStateM.run_get]
  split
  · rfl
  · rfl

lemma requestStop_quiet (ref : ActorRef) :
    Reacting.requestStop quiet ref = (requestStop ref : SupM Args Unit) := by
  simp only [Reacting.requestStop, schedulerStop_quiet]
  rfl

lemma stopAndSuppressByIndex_quiet (index : ℕ) :
    Reacting.stopAndSuppressByIndex quiet index =
      (stopAndSuppressByIndex index : SupM Args Unit) := by
  simp only [Reacting.stopAndSuppressByIndex, stopAndSuppressByIndex, requestStop_quiet]

lemma stop_quiet (reason : ExitReason) :
    Reacting.stop quiet reason = (stop reason : SupM Args Unit) := by
  simp only [Reacting.stop, stop, Reacting.stopAllChildren, stopAllChildren, requestStop_quiet]

lemma startChildWithArgs_quiet (index : ℕ) (args : Args) :
    Reacting.startChildWithArgs quiet index args = startChildWithArgs index args := by
  have hfresh : Reacting.startFresh quiet index args = startFresh index args := rfl
  simp only [Reacting.startChildWithArgs, hfresh]
  rfl

lemma respawnWithEntry_quiet (entry : ChildEntry Args) :
    Reacting.respawnWithEntry quiet entry = respawnWithEntry entry := by
  simp only [Reacting.respawnWithEntry, respawnWithEntry, startChildWithArgs_quiet]

lemma finalizeIfDone_quiet :
    Reacting.finalizeIfDone quiet = (finalizeIfDone : SupM Args Unit) := by
  simp only [Reacting.finalizeIfDone, Reacting.finalizeRestartGroup, respawnWithEntry_quiet]
  rfl

lemma beginRestartGroup_quiet (ref : ActorRef) (failed : ChildEntry Args) (reason : ExitReason) :
    Reacting.beginRestartGroup quiet ref failed reason = beginRestartGroup ref failed reason := by
  simp only [Reacting.beginRestartGroup, beginRestartGroup, Reacting.stopPlan, stopPlan,
    requestStop_quiet, finalizeIfDone_quiet]

/-- With code that does nothing, one round of `supervise_loop` is that of `Operations`. -/
theorem superviseVisitor_quiet (signal : Signal) :
    Reacting.superviseVisitor quiet signal = (superviseVisitor signal : SupM Args Unit) := by
  have htermination : ∀ ref reason, Reacting.handleTermination quiet ref reason =
      (handleTermination ref reason : SupM Args Unit) := fun ref reason => by
    simp only [Reacting.handleTermination, Reacting.handleRestartGroupStop,
      Reacting.registerRestart, stop_quiet, respawnWithEntry_quiet, beginRestartGroup_quiet,
      finalizeIfDone_quiet]
    rfl
  simp only [Reacting.superviseVisitor, Reacting.handleSignal, htermination]
  rfl

/-- With code that does nothing, the administrative operations are those of `Operations`. -/
theorem administer_quiet (op : Operation Args) : Reacting.administer quiet op = op.run := by
  cases op with
  | startChild index args =>
      simp only [Reacting.administer, Reacting.startChildByIndex, startChildWithArgs_quiet]
      rfl
  | stopChild index => exact stopAndSuppressByIndex_quiet index
  | restartChild index =>
      simp only [Reacting.administer, Reacting.restartChild, Reacting.restartChildEntry,
        startChildWithArgs_quiet, requestStop_quiet]
      rfl
  | deleteChild index =>
      simp only [Reacting.administer, Reacting.deleteChild, Operation.run, deleteChild,
        stopAndSuppressByIndex_quiet]
  | stop reason => exact stop_quiet reason

end Quiet

/-! ### What code of others keeps -/

/-- The steps that code of other actors takes keep the property. -/
def Stable (P : World Args → Prop) : Prop := ∀ w l, l.taken = true → P w → P (taken w l)

/-- No code calls an operation of the supervisor. -/
def Foreign (inner : Site → Code Args) : Prop := ∀ site, (inner site).foreign = true

lemma Code.preserves {P : World Args → Prop} (hP : Stable P) :
    ∀ {c : Code Args}, c.foreign = true → Preserves P c.run
  | .returns, _ => Preserves.pure ()
  | .raises, _ => fun _ h => h
  | .takes l next, hc => by
      refine Preserves.bind (Preserves.modify fun w hw => ?_) fun _ => Code.preserves hP hc
      by_cases hl : l.taken = true
      · exact hP w l hl hw
      · rwa [taken, if_neg hl]
  | .calls _ _, hc => by cases hc

/-- What such code raises is an exception of user code. -/
lemma Code.throws : ∀ {c : Code Args}, c.foreign = true → ∀ w,
    Throws (fun e => e = .user ∧ c.returning = false) c.run w
  | .returns, _, _ => throws_pure
  | .raises, _, _ => throws_throw ⟨rfl, rfl⟩
  | .takes l next, hc, w =>
      throws_modify.bind_any fun _ t => Code.throws (c := next) hc t
  | .calls _ _, hc, _ => by cases hc

/-- A step of other actors is one of the environment, or changes nothing. -/
lemma taken_cases (w : World Args) {l : Label Args} (hl : l.taken = true) :
    taken w l = w ∨ Surrounding w l (taken w l) := by
  have henv : l.environment = true := by cases l <;> first | rfl | cases hl
  rw [taken, if_pos hl]
  cases hstep : step { world := w } l with
  | none => exact Or.inl rfl
  | some u =>
      obtain ⟨v, hv, rfl⟩ := surrounding_of_step hstep henv
      exact Or.inr hv

/-- Other actors change the scheduler and the clock only. -/
lemma taken_members (w : World Args) {l : Label Args} (hl : l.taken = true) :
    ∃ sched now, w.now ≤ now ∧ taken w l = { w with sched := sched, now := now } := by
  have henv : l.environment = true := by cases l <;> first | rfl | cases hl
  rw [taken, if_pos hl]
  cases hstep : step { world := w } l with
  | none => exact ⟨w.sched, w.now, le_rfl, rfl⟩
  | some u =>
      have hnow := environment_now_le hstep henv
      obtain ⟨sched, now, rfl⟩ := environment_members hstep henv
      exact ⟨sched, now, hnow, rfl⟩

lemma taken_children (w : World Args) {l : Label Args} (hl : l.taken = true) :
    (taken w l).children = w.children := by
  obtain ⟨sched, now, -, heq⟩ := taken_members w hl
  rw [heq]

/-- The pieces of code that run inside one call, by the place where they run. At other places
nothing runs. -/
def codeAt (codes : List (Site × Code Args)) (site : Site) : Code Args :=
  (codes.lookup site).getD .returns

/-- What holds of all the pieces, and of code that does nothing, holds at every place. -/
lemma codeAt_of_forall {p : Site → Code Args → Prop} {codes : List (Site × Code Args)}
    (hreturns : ∀ site, p site .returns) (h : ∀ c ∈ codes, p c.1 c.2) (site : Site) :
    p site (codeAt codes site) := by
  rw [codeAt]
  cases hlook : codes.lookup site with
  | none => exact hreturns site
  | some c =>
      obtain ⟨before, after, rfl, -⟩ := List.lookup_eq_some_iff.mp hlook
      exact h (site, c) (List.mem_append_right _ List.mem_cons_self)

/-! ### What the operations keep -/

/-- `stop` of a child keeps what its exit signal and the code of others keep. -/
lemma schedulerStop_preserves {inner : Site → Code Args} (hforeign : Foreign inner)
    {P : World Args → Prop} (hstable : Stable P) (ref : ActorRef) (reason : ExitReason)
    (hsend : ∀ w, P w → P { w with sched := w.sched.send ref (.exit ref reason) }) :
    Preserves P (Reacting.schedulerStop inner ref reason) := by
  have hcode := fun site => Code.preserves hstable (hforeign site)
  refine Preserves.get fun w h => ?_
  split
  · exact Preserves.bind (hcode _)
      (fun _ => Preserves.bind (Preserves.modify hsend) fun _ => hcode _) w h
  · exact h

/-- Asking one child keeps what marking its entry, its exit signal and the code of others keep. -/
lemma requestStop_keeps {inner : Site → Code Args} (hforeign : Foreign inner)
    {P : World Args → Prop} (hstable : Stable P) {ref : ActorRef}
    (hmark : ∀ w, P w →
      P { w with children := w.children.modify ref fun c => { c with stopping := true } })
    (hsend : ∀ w, P w → P { w with sched := w.sched.send ref (.exit ref .stopped) }) :
    Preserves P (Reacting.requestStop inner ref) := by
  refine Preserves.get fun w h => ?_
  split
  · exact h
  · split
    · exact h
    · rw [post_bind, post_set]
      exact schedulerStop_preserves hforeign hstable ref .stopped hsend _ (hmark w h)

lemma requestStop_preserves {inner : Site → Code Args} (hforeign : Foreign inner)
    {P : World Args → Prop} (hstable : Stable P)
    (hmark : ∀ w ref, P w →
      P { w with children := w.children.modify ref fun c => { c with stopping := true } })
    (hsend : ∀ w ref, P w → P { w with sched := w.sched.send ref (.exit ref .stopped) })
    (ref : ActorRef) : Preserves P (Reacting.requestStop inner ref) :=
  requestStop_keeps hforeign hstable (fun w => hmark w ref) fun w => hsend w ref

/-- Starting an instance keeps what its constructor and its registration keep. -/
lemma startFresh_preserves {inner : Site → Code Args} (hforeign : Foreign inner)
    {P : World Args → Prop} (hstable : Stable P)
    (hregistered : ∀ w, P w → w.registered w.self = true)
    (hstart : ∀ w index args, P w → P (started w index args)) (index : ℕ) (args : Args) :
    Preserves P (Reacting.startFresh inner index args) := by
  refine Preserves.get fun w h => ?_
  refine Preserves.bind (Code.preserves hstable (hforeign _)) (fun _ v hv => ?_) w h
  rw [Post, startFresh_run (hregistered v hv)]
  exact hstart v index args hv

/-- The parts of the operations that ask children to stop keep the property. -/
structure Sweeping (inner : Site → Code Args) (P : World Args → Prop) : Prop where
  suppress : ∀ ref b, Preserves P (setSuppress ref b)
  requestStop : ∀ ref, Preserves P (Reacting.requestStop inner ref)
  group : ∀ w g, P w → P { w with restartGroup := g }

/-- So do those that start them. -/
structure Robust (inner : Site → Code Args) (P : World Args → Prop) : Prop
    extends Sweeping inner P where
  startFresh : ∀ index args, Preserves P (Reacting.startFresh inner index args)

lemma registerRestart_preserves {inner : Site → Code Args} {P : World Args → Prop}
    (htimes : ∀ w times, P w → P { w with restartTimes := times })
    (hstop : Preserves P (Reacting.stop inner .error)) :
    Preserves P (Reacting.registerRestart inner) := by
  have hrefuse : Preserves P (do Reacting.stop inner .error; pure false : SupM Args Bool) :=
    hstop.bind fun _ => Preserves.pure false
  refine Preserves.get fun w hw => ?_
  split
  · exact hrefuse w hw
  · rw [post_bind, post_set]
    split
    · exact hrefuse _ (htimes w _ hw)
    · exact htimes w _ hw

section Keeping

variable {inner : Site → Code Args} {P : World Args → Prop}

namespace Sweeping

variable (hP : Sweeping inner P)

include hP

lemma suppressAndStop (ref : ActorRef) (b : Bool) :
    Preserves P (do setSuppress ref b; Reacting.requestStop inner ref : SupM Args Unit) :=
  (hP.suppress ref b).bind fun _ => hP.requestStop ref

lemma stopAllChildren : Preserves P (Reacting.stopAllChildren inner) :=
  Preserves.get fun w hw => Preserves.forM (fun child _ => hP.suppressAndStop child.1 true) w hw

lemma stopAndSuppressByIndex (index : ℕ) :
    Preserves P (Reacting.stopAndSuppressByIndex inner index) := by
  refine Preserves.get fun w hw => Preserves.forM (fun child _ => ?_) w hw
  split
  · exact hP.suppressAndStop child.1 true
  · exact Preserves.pure ()

lemma stopPlan (plan : List (RestartPlanItem Args)) :
    Preserves P (Reacting.stopPlan inner plan) := by
  refine Preserves.forM fun item _ => Preserves.get fun w hw => ?_
  split
  · exact Preserves.bind (Preserves.modify fun v hv => hP.group v _ hv)
      (fun _ => hP.suppressAndStop item.ref false) w hw
  · exact hw

lemma stop (hflag : ∀ w, P w → P { w with stopping := true }) (reason : ExitReason)
    (hbase : Preserves P (baseStop reason : SupM Args Unit)) :
    Preserves P (Reacting.stop inner reason) := by
  refine Preserves.get fun w hw => ?_
  split
  · exact hbase w hw
  · rw [post_bind, post_set]
    exact Preserves.bind hP.stopAllChildren (fun _ => Preserves.bind
      (Preserves.modify fun v hv => hP.group v none hv) fun _ => hbase) _ (hflag w hw)

end Sweeping

namespace Robust

variable (hP : Robust inner P)

include hP

lemma startChildWithArgs (index : ℕ) (args : Args) :
    Preserves P (Reacting.startChildWithArgs inner index args) := by
  refine Preserves.get fun w hw => ?_
  split
  · exact hP.startFresh index args w hw
  · split
    · exact hw
    · exact hP.startFresh index args w hw

lemma startChildByIndex (index : ℕ) (args : Option Args) :
    Preserves P (Reacting.startChildByIndex inner index args) := by
  refine Preserves.get fun w hw => ?_
  split
  · exact hw
  · exact Preserves.bind (hP.startChildWithArgs index _) (fun _ => Preserves.pure ()) w hw

lemma respawnWithEntry (entry : ChildEntry Args) :
    Preserves P (Reacting.respawnWithEntry inner entry) := by
  refine Preserves.get fun w hw => ?_
  split
  · exact Preserves.bind (hP.startChildWithArgs _ _) (fun _ => Preserves.pure ()) w hw
  · exact hw

lemma finalizeIfDone : Preserves P (Reacting.finalizeIfDone inner) := by
  refine Preserves.get fun w hw => ?_
  split
  · exact hw
  · split
    · refine Preserves.get (fun v hv => ?_) w hw
      split
      · exact hv
      · rw [post_bind, post_set]
        refine Preserves.forM (fun item _ => ?_) _ (hP.group v none hv)
        split
        · exact hP.respawnWithEntry _
        · exact Preserves.pure ()
    · exact hw

lemma beginRestartGroup (ref : ActorRef) (failed : ChildEntry Args) (reason : ExitReason) :
    Preserves P (Reacting.beginRestartGroup inner ref failed reason) := by
  refine Preserves.get fun w hw => ?_
  rw [post_bind, post_set]
  exact Preserves.bind (hP.stopPlan _) (fun _ => hP.finalizeIfDone) _ (hP.group w _ hw)

lemma restartChild (index : ℕ) : Preserves P (Reacting.restartChild inner index) := by
  refine Preserves.get fun w hw => ?_
  refine Preserves.bind (Preserves.forM fun ref _ => hP.suppress ref false) (fun _ => ?_) w hw
  refine Preserves.forM fun ref _ => Preserves.get fun v hv => ?_
  split
  · exact hv
  · split
    · exact hP.suppressAndStop ref false v hv
    · exact Preserves.bind (hP.startChildWithArgs index _) (fun _ => Preserves.pure ()) v hv

/-- Once the terminated child is out of `children_`, a termination keeps the property. -/
lemma handleTermination (hregister : Preserves P (Reacting.registerRestart inner)) {w : World Args}
    {ref : ActorRef} (reason : ExitReason) (h : P (dropped w ref)) :
    Post (Reacting.handleTermination inner ref reason) w (fun _ => P) P := by
  rw [Reacting.handleTermination, post_bind, post_get]
  split
  · rw [Reacting.handleRestartGroupStop, post_bind, post_modify]
    exact hP.finalizeIfDone _ (hP.group _ _ h)
  · cases he : w.children.find? ref with
    | none => exact post_pure.mpr (dropped_eq he ▸ h)
    | some failed =>
        rw [post_bind, post_set]
        split
        · refine Preserves.bind hregister (fun ok => ?_) _ h
          split
          · split
            · exact hP.respawnWithEntry failed
            · exact hP.respawnWithEntry failed
            · exact hP.beginRestartGroup ref failed reason
            · exact hP.beginRestartGroup ref failed reason
          · exact Preserves.pure ()
        · exact h

end Robust

/-- A framed property that lasts as time passes: it does not speak of the registry, of
`children_`, of the restart group, or of what is counted when a child is started. -/
structure Lasting (P : World Args → Prop) : Prop where
  framed : Framed P
  later : ∀ w now, w.now ≤ now → P w → P { w with now := now }

lemma Lasting.stable (hP : Lasting P) : Stable P := fun w _ hl hw => by
  obtain ⟨sched, now, hnow, heq⟩ := taken_members w hl
  rw [heq]
  exact hP.framed _ sched w.children w.restartGroup w.nextStartOrder w.spawned
    (hP.later w now hnow hw)

lemma Lasting.robust (hP : Lasting P) (hforeign : Foreign inner) : Robust inner P where
  suppress _ _ := Preserves.modify fun w hw =>
    hP.framed w w.sched _ w.restartGroup w.nextStartOrder w.spawned hw
  requestStop := requestStop_preserves hforeign hP.stable
    (fun w _ hw => hP.framed w w.sched _ w.restartGroup w.nextStartOrder w.spawned hw)
    fun w _ hw => hP.framed w _ w.children w.restartGroup w.nextStartOrder w.spawned hw
  group w g hw := hP.framed w w.sched w.children g w.nextStartOrder w.spawned hw
  startFresh index args := Preserves.get fun w hw =>
    Preserves.bind (Code.preserves hP.stable (hforeign _))
      (fun _ => hP.framed.startFresh index args) w hw

end Keeping

/-- The visitors of `supervise_loop`: the supervisor's own exit signal may end the loop, the
signal of nobody is dropped, and any other signal is a termination. -/
lemma Reacting.superviseVisitor_cases {inner : Site → Code Args} {w : World Args} {sg : Signal}
    {Q : Unit → World Args → Prop} {E : World Args → Prop}
    (hended : w.stopping = true → sg.source = w.self → Q () { w with phase := .ended })
    (hnobody : sg.source = 0 → Q () w)
    (htermination : sg.source.valid = true →
      Post (Reacting.handleTermination inner sg.source sg.reason) w Q E) :
    Post (Reacting.superviseVisitor inner sg) w Q E := by
  have hsignal : Post (Reacting.handleSignal inner sg.source sg.reason) w Q E := by
    rw [Reacting.handleSignal]
    split
    · rename_i hvalid
      exact htermination hvalid
    · rename_i hvalid
      exact post_pure.mpr (hnobody (by simpa [ActorRef.valid] using hvalid))
  rw [Reacting.superviseVisitor, post_bind, post_get]
  cases sg with
  | down source reason => exact hsignal
  | exit source reason =>
      simp only
      split
      · rename_i hown
        rw [Bool.and_eq_true, decide_eq_true_eq] at hown
        exact post_set.mpr (hended hown.1 hown.2)
      · exact hsignal

end Supervisor

end Agner
