import Agner.Foundations.Runs
import Agner.Supervisor.Effects

/-!
A supervisor on a single-threaded scheduler, with its children and any other actors.

One label is one uninterrupted piece of work: an actor exits and the scheduler reports it,
another actor is spawned, linked or monitored, the clock advances, the supervisor receives
the oldest signal of its mailbox, or one of its administrative operations or `stop` is
called. Signals reach the supervisor's mailbox in the order in which actors exit, and may
wait there behind any number of other steps. A supervisor that is suspended when a signal
arrives handles it at once; that is the `exit` step followed by `receive`.

Once an operation has raised, `raised` is set and the run ends.

* `Surrounding`: what a step of the environment makes of the world.
* `Administers`: the operation that an administrative step performs.
* `Event`: a signal that reaches a visitor of `supervise_loop` without waiting in the mailbox.
-/

namespace Agner

open Raising

namespace Supervisor

variable {Args : Type}

/-- A world, and whether an operation of the supervisor has raised. -/
structure System (Args : Type) where
  world : World Args
  raised : Bool := false

/-- What may happen to a supervisor among other actors. -/
inductive Label (Args : Type) where
  /-- The first part of `Supervisor::run`. -/
  | init
  /-- Another actor exits: `notify_exit`. -/
  | exit (a : ActorRef) (reason : ExitReason)
  | spawn (linker monitorRef : ActorRef)
  | link (left right : ActorRef)
  | monitor (monitorRef targetRef : ActorRef)
  | advance (time : ℤ)
  /-- One round of `supervise_loop`. -/
  | receive
  | startChild (index : ℕ) (args : Option Args)
  | stopChild (index : ℕ)
  | restartChild (index : ℕ)
  | deleteChild (index : ℕ)
  | stop (reason : ExitReason)

/-- The label is an administrative operation or a call of `stop` from outside. -/
def Label.administrative : Label Args → Bool
  | .startChild .. | .stopChild _ | .restartChild _ | .deleteChild _ | .stop _ => true
  | _ => false

/-- The label is a step of the scheduler or of another actor. -/
def Label.environment : Label Args → Bool
  | .exit .. | .spawn .. | .link .. | .monitor .. | .advance _ => true
  | _ => false

/-- The label is a round of `supervise_loop`. -/
def Label.receive? : Label Args → Bool
  | .receive => true
  | _ => false

/-- The state an operation of the supervisor leads to. -/
def perform (x : SupM Args Unit) (w : World Args) : System Args :=
  match x.run w with
  | .ok _ w' => { world := w' }
  | .error _ w' => { world := w', raised := true }

/-- The world after the oldest signal has been taken out of the supervisor's mailbox. -/
def popped (w : World Args) : World Args :=
  { w with sched := { w.sched with actors := w.sched.actors.modify w.self List.tail } }

/-- `init`, with the supervisor then entering `supervise_loop`. -/
def initAndSupervise : SupM Args Unit := do
  init
  modify fun w => { w with phase := .supervising }

/-- One step. The indices of administrative operations are checked by the compiler. -/
def step (s : System Args) (l : Label Args) : Option (System Args) :=
  if s.raised then none else
  let w := s.world
  match l with
  | .init => if w.phase = .created then some (perform initAndSupervise w) else none
  | .exit a reason =>
      if a ≠ w.self ∧ w.registered a = true then
        some { world := { w with sched := w.sched.notifyExit a reason } }
      else none
  | .spawn linker monitorRef =>
      some { world := { w with sched := (w.sched.spawnImpl linker monitorRef).2 } }
  | .link left right =>
      (w.sched.link left right).map fun sched => { world := { w with sched := sched } }
  | .monitor monitorRef targetRef =>
      (w.sched.monitor monitorRef targetRef).map fun sched =>
        { world := { w with sched := sched } }
  | .advance time => if w.now ≤ time then some { world := { w with now := time } } else none
  | .receive =>
      if w.phase = .supervising then
        match w.mailbox with
        | [] => none
        | signal :: _ => some (perform (superviseVisitor signal) (popped w))
      else none
  | .startChild index args =>
      if index < w.specification.children.length then some (perform (startChild index args) w)
      else none
  | .stopChild index =>
      if index < w.specification.children.length then some (perform (stopChild index) w)
      else none
  | .restartChild index =>
      if index < w.specification.children.length then some (perform (restartChild index) w)
      else none
  | .deleteChild index =>
      if index < w.specification.children.length then some (perform (deleteChild index) w)
      else none
  | .stop reason => some (perform (Supervisor.stop reason) w)

/-- A supervisor that has just been spawned. -/
def create (sched : SchedulerBase) (spec : Specification Args) : System Args :=
  { world := { sched := (sched.spawnImpl 0 0).2, self := sched.nextActorId,
               specification := spec } }

/-! ### Steps -/

lemma perform_eq_of_post {x : SupM Args Unit} {w : World Args} {Q : Unit → World Args → Prop}
    {E : World Args → Prop} (h : Post x w Q E) :
    ((perform x w).raised = false ∧ Q () (perform x w).world) ∨
      ((perform x w).raised = true ∧ E (perform x w).world) := by
  rw [Post] at h
  rw [perform]
  cases hx : x.run w with
  | ok a t =>
      rw [hx] at h
      exact Or.inl ⟨rfl, h⟩
  | error e t =>
      rw [hx] at h
      exact Or.inr ⟨rfl, h⟩

/-- What an operation promises holds of the world of one that has not raised. -/
lemma post_of_perform {x : SupM Args Unit} {w : World Args} {Q : Unit → World Args → Prop}
    {E : World Args → Prop} (h : Post x w Q E) (hr : (perform x w).raised = false) :
    Q () (perform x w).world := by
  rcases perform_eq_of_post h with ⟨-, hq⟩ | ⟨hr', -⟩
  · exact hq
  · rw [hr'] at hr
    cases hr

/-- The run of an operation that has not raised. -/
lemma run_of_perform {x : SupM Args Unit} {w : World Args} (h : (perform x w).raised = false) :
    x.run w = .ok () (perform x w).world := by
  rw [perform] at h ⊢
  cases hx : x.run w with
  | ok a t => rfl
  | error e t =>
      rw [hx] at h
      cases h

/-- A step that is taken is taken in a state that has not raised. -/
lemma raised_of_step {s t : System Args} {l : Label Args} (h : step s l = some t) :
    s.raised = false := by
  by_contra hr
  rw [Bool.not_eq_false] at hr
  simp [step, hr] at h

/-- What a step of the environment makes of the world. -/
inductive Surrounding (w : World Args) : Label Args → World Args → Prop where
  | exit (a : ActorRef) (reason : ExitReason) (hne : a ≠ w.self) (ha : w.registered a = true) :
      Surrounding w (.exit a reason) { w with sched := w.sched.notifyExit a reason }
  | spawn (linker monitorRef : ActorRef) :
      Surrounding w (.spawn linker monitorRef)
        { w with sched := (w.sched.spawnImpl linker monitorRef).2 }
  | link (left right : ActorRef) :
      Surrounding w (.link left right)
        { w with sched := { w.sched with
            links := pushBack (pushBack w.sched.links left right) right left } }
  | monitor (monitorRef targetRef : ActorRef) :
      Surrounding w (.monitor monitorRef targetRef)
        { w with sched := { w.sched with
            monitors := pushBack w.sched.monitors targetRef monitorRef } }
  | advance (time : ℤ) : Surrounding w (.advance time) { w with now := time }

lemma surrounding_of_step {s t : System Args} {l : Label Args} (h : step s l = some t)
    (henv : l.environment = true) : ∃ w, Surrounding s.world l w ∧ t = { world := w } := by
  have hr := raised_of_step h
  cases l with
  | exit a reason =>
      simp only [step, hr, Bool.false_eq_true, if_false, Option.ite_none_right_eq_some] at h
      obtain ⟨⟨hne, ha⟩, h⟩ := h
      exact ⟨_, .exit a reason hne ha, (Option.some.inj h).symm⟩
  | spawn linker monitorRef =>
      simp only [step, hr, Bool.false_eq_true, if_false] at h
      exact ⟨_, .spawn linker monitorRef, (Option.some.inj h).symm⟩
  | link left right =>
      simp only [step, hr, Bool.false_eq_true, if_false, SchedulerBase.link] at h
      split at h
      · exact ⟨_, .link left right, (Option.some.inj h).symm⟩
      · cases h
  | monitor monitorRef targetRef =>
      simp only [step, hr, Bool.false_eq_true, if_false, SchedulerBase.monitor] at h
      split at h
      · exact ⟨_, .monitor monitorRef targetRef, (Option.some.inj h).symm⟩
      · cases h
  | advance time =>
      simp only [step, hr, Bool.false_eq_true, if_false, Option.ite_none_right_eq_some] at h
      exact ⟨_, .advance time, (Option.some.inj h.2).symm⟩
  | _ => cases henv

/-- The steps of the environment change the scheduler and the clock only. -/
lemma environment_members {s t : System Args} {l : Label Args} (h : step s l = some t)
    (henv : l.environment = true) :
    ∃ sched now, t = { world := { s.world with sched := sched, now := now } } := by
  obtain ⟨w, hw, rfl⟩ := surrounding_of_step h henv
  cases hw with
  | exit | spawn | link | monitor | advance => exact ⟨_, _, rfl⟩

/-- The clock does not go back. -/
lemma environment_now_le {s t : System Args} {l : Label Args} (h : step s l = some t)
    (henv : l.environment = true) : s.world.now ≤ t.world.now := by
  cases l with
  | advance time =>
      simp only [step, raised_of_step h, Bool.false_eq_true, if_false,
        Option.ite_none_right_eq_some, Option.some.injEq] at h
      obtain ⟨hle, rfl⟩ := h
      exact hle
  | exit | spawn | link | monitor =>
      obtain ⟨w, hw, rfl⟩ := surrounding_of_step h henv
      cases hw
      exact le_rfl
  | _ => cases henv

/-- Such a step keeps the supervisor registered. -/
lemma step_environment {s t : System Args} {l : Label Args} (h : step s l = some t)
    (henv : l.environment = true) (hwf : s.world.sched.WellFormed)
    (hreg : s.world.registered s.world.self = true) :
    ∃ sched now, t = { world := { s.world with sched := sched, now := now } } ∧
      sched.WellFormed ∧ sched.actors.contains s.world.self = true ∧
      s.world.sched.nextActorId ≤ sched.nextActorId := by
  rw [World.registered] at hreg
  obtain ⟨w, hw, rfl⟩ := surrounding_of_step h henv
  cases hw with
  | exit a reason hne ha =>
      refine ⟨_, _, rfl, hwf.notifyExit a reason, ?_, ?_⟩
      · rw [SchedulerBase.contains_notifyExit, hreg]
        simpa using hne.symm
      · rw [SchedulerBase.nextActorId_notifyExit]
  | spawn linker monitorRef =>
      refine ⟨_, _, rfl, hwf.spawnImpl linker monitorRef, ?_, Nat.le_succ _⟩
      rw [SchedulerBase.contains_spawnImpl, hreg, Bool.or_true]
  | link | monitor => exact ⟨_, _, rfl, ⟨hwf.pos, hwf.lt⟩, hreg, le_refl _⟩
  | advance time => exact ⟨_, _, rfl, hwf, hreg, le_refl _⟩

/-- The operation that an administrative step performs. -/
inductive Administers (w : World Args) : Label Args → SupM Args Unit → Prop where
  | startChild (index : ℕ) (args : Option Args)
      (hlt : index < w.specification.children.length) :
      Administers w (.startChild index args) (startChild index args)
  | stopChild (index : ℕ) : Administers w (.stopChild index) (stopChild index)
  | restartChild (index : ℕ) : Administers w (.restartChild index) (restartChild index)
  | deleteChild (index : ℕ) : Administers w (.deleteChild index) (deleteChild index)
  | stop (reason : ExitReason) : Administers w (.stop reason) (Supervisor.stop reason)

lemma administers_of_step {s t : System Args} {l : Label Args} (h : step s l = some t)
    (hadmin : l.administrative = true) :
    ∃ x, Administers s.world l x ∧ t = perform x s.world := by
  have hr := raised_of_step h
  cases l with
  | startChild index args =>
      simp only [step, hr, Bool.false_eq_true, if_false, Option.ite_none_right_eq_some] at h
      exact ⟨_, .startChild index args h.1, (Option.some.inj h.2).symm⟩
  | stopChild index =>
      simp only [step, hr, Bool.false_eq_true, if_false, Option.ite_none_right_eq_some] at h
      exact ⟨_, .stopChild index, (Option.some.inj h.2).symm⟩
  | restartChild index =>
      simp only [step, hr, Bool.false_eq_true, if_false, Option.ite_none_right_eq_some] at h
      exact ⟨_, .restartChild index, (Option.some.inj h.2).symm⟩
  | deleteChild index =>
      simp only [step, hr, Bool.false_eq_true, if_false, Option.ite_none_right_eq_some] at h
      exact ⟨_, .deleteChild index, (Option.some.inj h.2).symm⟩
  | stop reason =>
      simp only [step, hr, Bool.false_eq_true, if_false] at h
      exact ⟨_, .stop reason, (Option.some.inj h).symm⟩
  | _ => cases hadmin

/-- A round of `supervise_loop` handles the oldest signal. -/
lemma step_receive {s t : System Args} (h : step s .receive = some t) :
    s.world.phase = .supervising ∧ ∃ sg rest, s.world.mailbox = sg :: rest ∧
      t = perform (superviseVisitor sg) (popped s.world) := by
  simp only [step, raised_of_step h, Bool.false_eq_true, if_false,
    Option.ite_none_right_eq_some] at h
  obtain ⟨hphase, h⟩ := h
  split at h
  · cases h
  · rename_i sg rest hbox
    exact ⟨hphase, sg, rest, hbox, (Option.some.inj h).symm⟩

lemma step_init {s t : System Args} (h : step s .init = some t) :
    s.world.phase = .created ∧ t = perform initAndSupervise s.world := by
  simp only [step, raised_of_step h, Bool.false_eq_true, if_false,
    Option.ite_none_right_eq_some] at h
  exact ⟨h.1, (Option.some.inj h.2).symm⟩

@[simp] lemma popped_registered (w : World Args) (k : ActorRef) :
    (popped w).registered k = w.registered k := OrdMap.contains_modify _ _ _ _

/-! ### Signals in any order -/

/-- A signal from anyone reaches a visitor of `supervise_loop`, or the environment takes a
step. -/
inductive Event (Args : Type) where
  | signal (sg : Signal)
  | environment (l : Label Args)

/-- One event; there is none after an exception. -/
def Event.step (s : System Args) : Event Args → Option (System Args)
  | .signal sg => if s.raised then none else some (perform (superviseVisitor sg) s.world)
  | .environment l => if l.environment then Supervisor.step s l else none

end Supervisor

end Agner
