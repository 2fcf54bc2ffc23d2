import Agner.Supervisor.DeadChildren

/-!
The life of a supervisor, from its spawning to its removal from the registry.

A run of `System` ends with the first exception. Here it goes on: an administrative
operation passes the exception to its caller and leaves behind what it has done so far,
while an exception out of a visitor of `supervise_loop` ends `run`, or, when the signal was
delivered to a suspended supervisor, goes to the sender and leaves the supervisor suspended
for good. `init` starts one child at a time, so that everything may also happen in between.

* `Life`, `Life.step`: the supervisor with its registry, and its steps.
* `stopRequested`: an exit signal naming an actor itself has been enqueued to it.
* `Tracked`: the invariant of all runs. The supervisor knows every child it has spawned, or
  has asked it to stop; and the signals in its mailbox name actors that have exited.
-/

namespace Agner

open Raising Runs

namespace Supervisor

variable {Args : Type}

/-- Where the coroutine of the supervisor is. A `stuck` one has lost its pending receive to an
exception, a `gone` one has been removed from the registry. -/
inductive Status where
  | alive
  | stuck
  | gone
  deriving DecidableEq, Repr

/-- A supervisor from its spawn on. -/
structure Life (Args : Type) where
  world : World Args
  /-- The spec whose child `start_all_from_specs` starts next. -/
  next : ℕ := 0
  status : Status := .alive

/-- What may happen to it. -/
inductive Act (Args : Type) where
  /-- A step of the environment, or an administrative operation called by anyone. -/
  | call (l : Label Args)
  /-- `init` starts its next child, or is done. -/
  | initNext
  /-- One round of `supervise_loop`. A delivered signal has met a suspended supervisor and is
  handled inside the call that sends it. -/
  | receive (delivered : Bool)
  /-- An exception of user code, such as the constructor of a child, ends `run`. -/
  | crash
  /-- `run` has returned. -/
  | leave

namespace Life

/-- `on_actor_exit` for the supervisor itself. -/
def removed (s : Life Args) (reason : ExitReason) : Life Args :=
  { s with
    world := { s.world with sched := s.world.sched.notifyExit s.world.self reason }
    status := .gone }

/-- One step; there is none once the supervisor has been removed. -/
def step (s : Life Args) (a : Act Args) : Option (Life Args) :=
  let w := s.world
  match s.status, a with
  | .gone, _ => none
  | _, .call l =>
      if l.administrative || l.environment then
        (Supervisor.step { world := w } l).map fun t => { s with world := t.world }
      else none
  | .stuck, _ => none
  | .alive, .initNext =>
      if w.phase = .created then
        if w.specification.strategy = .simpleOneForOne ∨
            w.specification.children.length ≤ s.next then
          some { s with world := { w with phase := .supervising } }
        else
          let t := perform (startChildByIndex s.next none) w
          if t.raised then some (removed { s with world := t.world } .error)
          else some { s with world := t.world, next := s.next + 1 }
      else none
  | .alive, .receive delivered =>
      if w.phase = .supervising then
        match w.mailbox with
        | [] => none
        | signal :: _ =>
            let t := perform (superviseVisitor signal) (popped w)
            if t.raised then
              if delivered then some { s with world := t.world, status := .stuck }
              else some (removed { s with world := t.world } .error)
            else some { s with world := t.world }
      else none
  | .alive, .crash => if w.phase = .ended then none else some (s.removed .error)
  | .alive, .leave =>
      if w.phase = .ended then some (s.removed (w.exitReason.getD .normal)) else none

/-- A supervisor that has just been spawned. -/
def create (sched : SchedulerBase) (spec : Specification Args) : Life Args :=
  { world := (Supervisor.create sched spec).world }

/-- What a step can be. -/
inductive Moves (s : Life Args) : Act Args → Life Args → Prop where
  | call {l : Label Args} {u : System Args} (hl : (l.administrative || l.environment) = true)
      (hu : Supervisor.step { world := s.world } l = some u) :
      Moves s (.call l) { s with world := u.world }
  | initEnds (hphase : s.world.phase = .created)
      (hdone : s.world.specification.strategy = .simpleOneForOne ∨
        s.world.specification.children.length ≤ s.next) :
      Moves s .initNext { s with world := { s.world with phase := .supervising } }
  | initStarts {u : System Args} (hphase : s.world.phase = .created)
      (hstatic : s.world.specification.strategy ≠ .simpleOneForOne)
      (hlt : s.next < s.world.specification.children.length)
      (hu : u = perform (startChildByIndex s.next none) s.world) (hr : u.raised = false) :
      Moves s .initNext { s with world := u.world, next := s.next + 1 }
  | initRaises {u : System Args} (hlt : s.next < s.world.specification.children.length)
      (hu : u = perform (startChildByIndex s.next none) s.world) (hr : u.raised = true) :
      Moves s .initNext (removed { s with world := u.world } .error)
  | handles {d : Bool} {sg : Signal} {rest : List Signal} {u : System Args}
      (halive : s.status = .alive) (hphase : s.world.phase = .supervising)
      (hbox : s.world.mailbox = sg :: rest)
      (hu : u = perform (superviseVisitor sg) (popped s.world)) (hr : u.raised = false) :
      Moves s (.receive d) { s with world := u.world }
  | sticks {sg : Signal} {rest : List Signal} {u : System Args}
      (hbox : s.world.mailbox = sg :: rest)
      (hu : u = perform (superviseVisitor sg) (popped s.world)) (hr : u.raised = true) :
      Moves s (.receive true) { s with world := u.world, status := .stuck }
  | raises {sg : Signal} {rest : List Signal} {u : System Args}
      (halive : s.status = .alive) (hbox : s.world.mailbox = sg :: rest)
      (hu : u = perform (superviseVisitor sg) (popped s.world)) (hr : u.raised = true) :
      Moves s (.receive false) (removed { s with world := u.world } .error)
  | crashes (halive : s.status = .alive) : Moves s .crash (s.removed .error)
  | leaves (halive : s.status = .alive) (hphase : s.world.phase = .ended) :
      Moves s .leave (s.removed (s.world.exitReason.getD .normal))

lemma step_cases {s t : Life Args} {a : Act Args} (h : s.step a = some t) :
    s.status ≠ .gone ∧ Moves s a t := by
  cases hst : s.status with
  | gone => simp [step, hst] at h
  | stuck =>
      cases a with
      | call l =>
          simp only [step, hst, Option.ite_none_right_eq_some, Option.map_eq_some_iff] at h
          obtain ⟨hl, u, hu, rfl⟩ := h
          exact ⟨by simp, hst ▸ Moves.call hl hu⟩
      | _ => simp [step, hst] at h
  | alive =>
      refine ⟨by simp, ?_⟩
      cases a with
      | call l =>
          simp only [step, hst, Option.ite_none_right_eq_some, Option.map_eq_some_iff] at h
          obtain ⟨hl, u, hu, rfl⟩ := h
          exact hst ▸ Moves.call hl hu
      | initNext =>
          simp only [step, hst, Option.ite_none_right_eq_some] at h
          obtain ⟨hphase, h⟩ := h
          split at h
          · rename_i hdone
            obtain rfl := Option.some.inj h
            exact hst ▸ Moves.initEnds hphase hdone
          · rename_i hmore
            rw [not_or, not_le] at hmore
            split at h
            · rename_i hr
              obtain rfl := Option.some.inj h
              exact hst ▸ Moves.initRaises hmore.2 rfl hr
            · rename_i hr
              obtain rfl := Option.some.inj h
              exact hst ▸ Moves.initStarts hphase hmore.1 hmore.2 rfl (by simpa using hr)
      | receive d =>
          simp only [step, hst, Option.ite_none_right_eq_some] at h
          obtain ⟨hphase, h⟩ := h
          split at h
          · cases h
          · rename_i sg rest hbox
            split at h
            · rename_i hr
              split at h
              · rename_i hd
                obtain rfl := Option.some.inj h
                exact hd ▸ Moves.sticks hbox rfl hr
              · rename_i hd
                rw [Bool.not_eq_true] at hd
                obtain rfl := Option.some.inj h
                exact hd ▸ hst ▸ Moves.raises hst hbox rfl hr
            · rename_i hr
              obtain rfl := Option.some.inj h
              exact hst ▸ Moves.handles hst hphase hbox rfl (by simpa using hr)
      | crash =>
          simp only [step, hst] at h
          split at h
          · cases h
          · obtain rfl := Option.some.inj h
            exact Moves.crashes hst
      | leave =>
          simp only [step, hst, Option.ite_none_right_eq_some] at h
          obtain ⟨hphase, h⟩ := h
          obtain rfl := Option.some.inj h
          exact Moves.leaves hst hphase

end Life

/-! ### Operations that start and remove no child -/

/-- An exit signal naming the actor itself has been enqueued to it. -/
def stopRequested (w : World Args) (k : ActorRef) : Bool :=
  ((w.sched.actors.find? k).getD []).any fun sg =>
    match sg with
    | .exit source _ => decide (source = k)
    | .down .. => false

lemma stopRequested_iff {w : World Args} {k : ActorRef} :
    stopRequested w k = true ↔ ∃ r, Signal.exit k r ∈ (w.sched.actors.find? k).getD [] := by
  rw [stopRequested, List.any_eq_true]
  constructor
  · rintro ⟨sg, hsg, hk⟩
    cases sg with
    | down a r => cases hk
    | exit a r =>
        obtain rfl : a = k := by simpa using hk
        exact ⟨r, hsg⟩
  · rintro ⟨r, hr⟩
    exact ⟨_, hr, by simp⟩

/-- `w'` differs from `w` in flags of entries, in exit signals that name their receiver, and
in the supervisor's own members other than `children_`. An entry that has become `stopping`
belongs to a child that has been asked or is gone. -/
structure Adjusted (w w' : World Args) : Prop where
  core : ∀ k, (w'.children.find? k).map ChildEntry.core = (w.children.find? k).map ChildEntry.core
  stops : ∀ k e', w'.children.find? k = some e' → e'.stopping = true → w'.registered k = true →
    (∃ e, w.children.find? k = some e ∧ e.stopping = true) ∨ stopRequested w' k = true
  requests : ∀ k, stopRequested w k = true → stopRequested w' k = true
  registered : ∀ k, w'.registered k = w.registered k
  mailbox_of : ∀ sg ∈ w'.mailbox, sg ∈ w.mailbox ∨ ∃ r, sg = .exit w.self r
  of_mailbox : ∀ sg ∈ w.mailbox, sg ∈ w'.mailbox
  monitors : w'.sched.monitors = w.sched.monitors
  nextActorId : w'.sched.nextActorId = w.sched.nextActorId
  self : w'.self = w.self
  specification : w'.specification = w.specification
  spawned : w'.spawned = w.spawned

namespace Adjusted

/-- A change of members that are not the registry, `children_` or `spawned`. -/
lemma of_eq {w w' : World Args} (hsched : w'.sched = w.sched)
    (hchildren : w'.children = w.children) (hself : w'.self = w.self)
    (hspec : w'.specification = w.specification) (hspawned : w'.spawned = w.spawned) :
    Adjusted w w' := by
  have hbox : w'.mailbox = w.mailbox := by rw [World.mailbox, World.mailbox, hsched, hself]
  refine ⟨fun k => by rw [hchildren], fun k e he hst _ => Or.inl ⟨e, hchildren ▸ he, hst⟩,
    fun k hk => ?_, fun k => by rw [World.registered, World.registered, hsched],
    fun sg hsg => Or.inl (hbox ▸ hsg), fun sg hsg => hbox ▸ hsg, by rw [hsched], by rw [hsched],
    hself, hspec, hspawned⟩
  rwa [stopRequested, hsched]

lemma refl (w : World Args) : Adjusted w w := of_eq rfl rfl rfl rfl rfl

lemma trans {u v w : World Args} (h : Adjusted u v) (h' : Adjusted v w) : Adjusted u w where
  core k := (h'.core k).trans (h.core k)
  stops k e he hst hreg := by
    rcases h'.stops k e he hst hreg with ⟨e', he', hst'⟩ | hreq
    · rcases h.stops k e' he' hst' (by rwa [← h'.registered]) with hold | hreq
      · exact Or.inl hold
      · exact Or.inr (h'.requests k hreq)
    · exact Or.inr hreq
  requests k hk := h'.requests k (h.requests k hk)
  registered k := (h'.registered k).trans (h.registered k)
  mailbox_of sg hsg := by
    rcases h'.mailbox_of sg hsg with hsg | ⟨r, rfl⟩
    · exact h.mailbox_of sg hsg
    · exact Or.inr ⟨r, by rw [h.self]⟩
  of_mailbox sg hsg := h'.of_mailbox sg (h.of_mailbox sg hsg)
  monitors := h'.monitors.trans h.monitors
  nextActorId := h'.nextActorId.trans h.nextActorId
  self := h'.self.trans h.self
  specification := h'.specification.trans h.specification
  spawned := h'.spawned.trans h.spawned

/-- An update of the flags of one entry. -/
lemma modify (w : World Args) (ref : ActorRef) (f : ChildEntry Args → ChildEntry Args)
    (hf : ∀ e, (f e).core = e.core)
    (hstop : ∀ e, (f e).stopping = true → w.registered ref = true → e.stopping = true) :
    Adjusted w { w with children := w.children.modify ref f } := by
  have hmark := marked_modify w ref f hf
  refine ⟨hmark.core, fun k e' he' hst hreg => ?_, fun k hk => hk, fun k => rfl,
    fun sg hsg => Or.inl hsg, fun sg hsg => hsg, rfl, rfl, rfl, rfl, rfl⟩
  rw [OrdMap.find?_modify] at he'
  split at he'
  · rename_i hk
    obtain ⟨e, he, rfl⟩ := Option.map_eq_some_iff.mp he'
    exact Or.inl ⟨e, he, hstop e hst (hk ▸ hreg)⟩
  · exact Or.inl ⟨e', he', hst⟩

/-- An exit signal naming its receiver. -/
lemma send (w : World Args) (ref : ActorRef) (reason : ExitReason) :
    Adjusted w { w with sched := w.sched.send ref (.exit ref reason) } := by
  refine ⟨fun k => rfl, fun k e he hst _ => Or.inl ⟨e, he, hst⟩, fun k hk => ?_,
    fun k => SchedulerBase.contains_send _ _ _ _, fun sg hsg => ?_, fun sg hsg => ?_,
    SchedulerBase.monitors_send _ _ _, SchedulerBase.nextActorId_send _ _ _, rfl, rfl, rfl⟩
  · obtain ⟨r, hr⟩ := stopRequested_iff.mp hk
    refine stopRequested_iff.mpr ⟨r, ?_⟩
    rw [SchedulerBase.find?_send]
    cases hf : w.sched.actors.find? k with
    | none => simp [hf] at hr
    | some l => simpa using Or.inl (by simpa [hf] using hr)
  · simp only [World.mailbox, SchedulerBase.find?_send] at hsg ⊢
    cases hf : w.sched.actors.find? w.self with
    | none => simp [hf] at hsg
    | some l =>
        rw [hf, Option.map_some, Option.getD_some, List.mem_append] at hsg
        rcases hsg with hsg | hsg
        · exact Or.inl (by simpa using hsg)
        · split at hsg
          · rename_i hself
            exact Or.inr ⟨reason, by rw [List.mem_singleton.mp hsg, hself]⟩
          · cases hsg
  · simp only [World.mailbox, SchedulerBase.find?_send] at hsg ⊢
    cases hf : w.sched.actors.find? w.self with
    | none => simp [hf] at hsg
    | some l => simpa using Or.inl (by simpa [hf] using hsg)

lemma stopRequested_send {w : World Args} {ref : ActorRef} {reason : ExitReason}
    (hreg : w.registered ref = true) :
    stopRequested ({ w with sched := w.sched.send ref (.exit ref reason) } : World Args) ref =
      true := by
  obtain ⟨l, hl⟩ := OrdMap.contains_iff.mp hreg
  refine stopRequested_iff.mpr ⟨reason, ?_⟩
  simp [SchedulerBase.find?_send, hl]

end Adjusted

section Adjusting

variable {w₀ : World Args}

lemma setSuppress_adjusts (ref : ActorRef) (b : Bool) :
    Preserves (Adjusted w₀) (setSuppress ref b : SupM Args Unit) :=
  Preserves.modify fun w hw =>
    hw.trans (Adjusted.modify w ref _ (fun _ => rfl) fun _ hst _ => hst)

lemma requestStop_adjusts (ref : ActorRef) :
    Preserves (Adjusted w₀) (requestStop ref : SupM Args Unit) := by
  refine Preserves.get fun w hw => ?_
  split
  · exact hw
  · rename_i child hchild
    split
    · exact hw
    · rw [post_bind, post_set, schedulerStop, post_bind, post_get, SchedulerBase.stop]
      have hcore : ∀ e : ChildEntry Args, ({ e with stopping := true } : ChildEntry Args).core =
          e.core := fun _ => rfl
      by_cases hreg : w.registered ref = true
      · -- the flag and the signal together: neither is an adjustment without the other
        have hsched : w.sched.actors.contains ref = true := hreg
        simp only [hsched, if_true, post_set]
        refine hw.trans ?_
        have hsend := Adjusted.send w ref .stopped
        refine ⟨(marked_modify w ref _ hcore).core, fun k e' he' hst _ => ?_, hsend.requests,
          hsend.registered, hsend.mailbox_of, hsend.of_mailbox, hsend.monitors,
          hsend.nextActorId, rfl, rfl, rfl⟩
        rw [OrdMap.find?_modify] at he'
        split at he'
        · rename_i hk
          subst hk
          exact Or.inr (Adjusted.stopRequested_send hreg)
        · exact Or.inl ⟨e', he', hst⟩
      · have hsched : w.sched.actors.contains ref = false := by
          simpa [World.registered] using hreg
        simp only [hsched, Bool.false_eq_true, if_false, post_throw]
        exact hw.trans (Adjusted.modify w ref _ hcore fun _ _ h => absurd h hreg)

lemma suppressAndStop_adjusts (ref : ActorRef) (b : Bool) :
    Preserves (Adjusted w₀) (do setSuppress ref b; requestStop ref : SupM Args Unit) :=
  (setSuppress_adjusts ref b).bind fun _ => requestStop_adjusts ref

lemma stopAndSuppressByIndex_adjusts (index : ℕ) :
    Preserves (Adjusted w₀) (stopAndSuppressByIndex index : SupM Args Unit) := by
  rw [stopAndSuppressByIndex_eq]
  exact Preserves.get fun w hw =>
    Preserves.forM (fun r _ => suppressAndStop_adjusts r true) w hw

lemma baseStop_adjusts (reason : ExitReason) :
    Preserves (Adjusted w₀) (baseStop reason : SupM Args Unit) :=
  Preserves.modify fun w hw =>
    (hw.trans (Adjusted.send w w.self reason)).trans (Adjusted.of_eq rfl rfl rfl rfl rfl)

lemma stop_adjusts (reason : ExitReason) :
    Preserves (Adjusted w₀) (stop reason : SupM Args Unit) := by
  refine Preserves.get fun w hw => ?_
  split
  · exact baseStop_adjusts reason w hw
  · rw [post_bind, post_set, stopAllChildren_eq]
    have hset : Adjusted w₀ { w with stopping := true } :=
      hw.trans (Adjusted.of_eq rfl rfl rfl rfl rfl)
    refine Preserves.bind (Preserves.get fun v hv => ?_) (fun _ => Preserves.bind
      (Preserves.modify fun v hv => hv.trans (Adjusted.of_eq rfl rfl rfl rfl rfl)) fun _ =>
        baseStop_adjusts reason) _ hset
    exact Preserves.forM (fun r _ => suppressAndStop_adjusts r true) v hv

lemma registerRestart_adjusts : Preserves (Adjusted w₀) (registerRestart : SupM Args Bool) := by
  refine Preserves.get fun w hw => ?_
  have hstop : Preserves (Adjusted w₀) (do stop .error; pure false : SupM Args Bool) :=
    (stop_adjusts .error).bind fun _ => Preserves.pure false
  split
  · exact hstop w hw
  · rw [post_bind, post_set]
    have hset : ∀ times, Adjusted w₀ { w with restartTimes := times } :=
      fun times => hw.trans (Adjusted.of_eq rfl rfl rfl rfl rfl)
    split
    · exact hstop _ (hset _)
    · exact hset _

lemma stopPlan_adjusts (plan : List (RestartPlanItem Args)) :
    Preserves (Adjusted w₀) (stopPlan plan : SupM Args Unit) := by
  refine Preserves.forM fun item _ => Preserves.get fun w hw => ?_
  split
  · refine Preserves.bind (Preserves.modify fun v hv => ?_)
      (fun _ => suppressAndStop_adjusts item.ref false) w hw
    exact hv.trans (Adjusted.of_eq rfl rfl rfl rfl rfl)
  · exact hw

end Adjusting

/-! ### What a sweep leaves behind -/

/-- The entry of `k`, if there is one, has been asked to stop and will not be restarted. -/
def Quelled (w : World Args) (k : ActorRef) : Prop :=
  ∀ e, w.children.find? k = some e → e.stopping = true ∧ e.suppressRestart = true

lemma quelled_modify {w : World Args} {k : ActorRef} (h : Quelled w k) (ref : ActorRef)
    {f : ChildEntry Args → ChildEntry Args}
    (hf : ∀ e, e.stopping = true → e.suppressRestart = true →
      (f e).stopping = true ∧ (f e).suppressRestart = true) :
    Quelled { w with children := w.children.modify ref f } k := by
  intro e' he'
  rw [OrdMap.find?_modify] at he'
  split at he'
  · obtain ⟨e, he, rfl⟩ := Option.map_eq_some_iff.mp he'
    exact hf e (h e he).1 (h e he).2
  · exact h e' he'

/-- Asking a child to stop quells it and disturbs no other. -/
lemma suppressAndStop_quells (w : World Args) (ref : ActorRef) :
    Post (do setSuppress ref true; requestStop ref : SupM Args Unit) w
      (fun _ w' => Quelled w' ref ∧ ∀ k, Quelled w k → Quelled w' k)
      (fun w' => ∀ k, Quelled w k → Quelled w' k) := by
  rw [post_bind, setSuppress, post_modify, requestStop, post_bind, post_get]
  have hall : ∀ k, Quelled w k →
      Quelled { w with children := w.children.modify ref fun c =>
        { c with suppressRestart := true } } k :=
    fun k hk => quelled_modify hk ref fun e hst _ => ⟨hst, rfl⟩
  simp only [OrdMap.find?_modify, if_true]
  cases hf : w.children.find? ref with
  | none => exact post_throw.mpr hall
  | some c =>
      simp only [Option.map_some]
      split
      · rename_i hst
        refine post_pure.mpr ⟨fun e' he' => ?_, hall⟩
        rw [OrdMap.find?_modify, if_pos rfl, hf] at he'
        obtain rfl := Option.some.inj he'
        exact ⟨hst, rfl⟩
      · have hboth := fun k hk => quelled_modify (hall k hk) ref
          (f := fun c => { c with stopping := true }) fun e _ hsup => ⟨rfl, hsup⟩
        rw [post_bind, post_set, schedulerStop, post_bind, post_get]
        split
        · exact post_throw.mpr hboth
        · refine post_set.mpr ⟨fun e' he' => ?_, hboth⟩
          simp only [OrdMap.find?_modify, if_true, hf, Option.map_some] at he'
          obtain rfl := Option.some.inj he'
          exact ⟨rfl, rfl⟩

lemma sweep_quells (refs : List ActorRef) (w : World Args) :
    Post (refs.forM fun r => (do setSuppress r true; requestStop r : SupM Args Unit)) w
      (fun _ w' => ∀ k ∈ refs, Quelled w' k) (fun _ => True) := by
  refine post_forM (fun done _ w' => ∀ k ∈ done, Quelled w' k) ?_ refs w (by simp)
  intro done r rest w' hdone
  refine (suppressAndStop_quells w' r).mono (fun _ w'' h k hk => ?_) fun _ _ => trivial
  rcases List.mem_append.mp hk with hk | hk
  · exact h.2 k (hdone k hk)
  · rw [List.mem_singleton.mp hk]
    exact h.1

/-- After `stop_and_suppress_by_index` every child of the spec is quelled. -/
lemma stopAndSuppressByIndex_quells (w : World Args) (index : ℕ) :
    Post (stopAndSuppressByIndex index : SupM Args Unit) w
      (fun _ w' => ∀ k e, w'.children.find? k = some e → e.specIndex = index →
        e.stopping = true ∧ e.suppressRestart = true) (fun _ => True) := by
  have hadj := stopAndSuppressByIndex_adjusts index w (Adjusted.refl w)
  rw [stopAndSuppressByIndex_eq, post_bind, post_get] at hadj ⊢
  refine ((sweep_quells _ w).and hadj).mono ?_ fun _ _ => trivial
  rintro _ w' ⟨hall, ha⟩ k e he hi
  refine hall k ?_ e he
  have hk := ha.core k
  rw [he] at hk
  obtain ⟨e₀, he₀, hcore⟩ := Option.map_eq_some_iff.mp hk.symm
  have hi₀ : e₀.specIndex = e.specIndex := congrArg Prod.fst hcore
  simp only [List.mem_map, List.mem_filter, decide_eq_true_eq]
  exact ⟨(k, e₀), ⟨OrdMap.mem_entries_iff.mpr he₀, hi₀.trans hi⟩, rfl⟩

/-- Asking children to stop leaves the rest of the supervisor as it is. -/
lemma suppressAndStop_keeps {P : World Args → Prop} (ref : ActorRef) (b : Bool)
    (hP : ∀ w children sched, P w → P { w with children := children, sched := sched }) :
    Preserves P (do setSuppress ref b; requestStop ref : SupM Args Unit) := by
  refine Preserves.bind (Preserves.modify fun w hw => hP w _ w.sched hw) fun _ => ?_
  refine Preserves.get fun w hw => ?_
  split
  · exact hw
  · split
    · exact hw
    · rw [post_bind, post_set, schedulerStop, post_bind, post_get]
      split
      · exact post_throw.mpr (hP w _ w.sched hw)
      · exact post_set.mpr (hP w _ _ hw)

/-! ### What starting and stopping children leaves alone -/

/-- The property does not speak of the registry, of `children_`, of the restart group, or of
what is counted when a child is started. -/
def Framed (P : World Args → Prop) : Prop :=
  ∀ w sched children group order spawned, P w →
    P { w with sched := sched, children := children, restartGroup := group,
               nextStartOrder := order, spawned := spawned }

namespace Framed

variable {P : World Args → Prop}

lemma suppressAndStop (hP : Framed P) (ref : ActorRef) (b : Bool) :
    Preserves P (do setSuppress ref b; requestStop ref : SupM Args Unit) :=
  suppressAndStop_keeps ref b fun w children sched hw =>
    hP w sched children w.restartGroup w.nextStartOrder w.spawned hw

lemma sweep (hP : Framed P) (refs : List ActorRef) (b : Bool) :
    Preserves P (refs.forM fun r => (do setSuppress r b; requestStop r : SupM Args Unit)) :=
  Preserves.forM fun r _ => hP.suppressAndStop r b

lemma stopAllChildren (hP : Framed P) : Preserves P (stopAllChildren : SupM Args Unit) := by
  rw [stopAllChildren_eq]
  exact Preserves.get fun w hw => hP.sweep _ true w hw

lemma stopAndSuppressByIndex (hP : Framed P) (index : ℕ) :
    Preserves P (stopAndSuppressByIndex index : SupM Args Unit) := by
  rw [stopAndSuppressByIndex_eq]
  exact Preserves.get fun w hw => hP.sweep _ true w hw

lemma startFresh (hP : Framed P) (index : ℕ) (args : Args) :
    Preserves P (startFresh index args : SupM Args ActorRef) := by
  refine Preserves.bind (Preserves.get fun w hw => ?_) fun ref =>
    Preserves.bind (Preserves.modify fun w hw => hP w w.sched _ w.restartGroup _ w.spawned hw)
      fun _ => Preserves.pure ref
  rw [post_bind, post_set]
  split
  · exact post_throw.mpr (hP w _ w.children w.restartGroup w.nextStartOrder _ hw)
  · exact hP w _ w.children w.restartGroup w.nextStartOrder _ hw

lemma startChildWithArgs (hP : Framed P) (index : ℕ) (args : Args) :
    Preserves P (startChildWithArgs index args : SupM Args ActorRef) := by
  refine Preserves.get fun w hw => ?_
  split
  · exact hP.startFresh index args w hw
  · split
    · exact hw
    · exact hP.startFresh index args w hw

lemma startChildByIndex (hP : Framed P) (index : ℕ) (args : Option Args) :
    Preserves P (startChildByIndex index args : SupM Args Unit) := by
  refine Preserves.get fun w hw => ?_
  split
  · exact hw
  · exact Preserves.bind (hP.startChildWithArgs index _) (fun _ => Preserves.pure ()) w hw

lemma respawnWithEntry (hP : Framed P) (entry : ChildEntry Args) :
    Preserves P (respawnWithEntry entry : SupM Args Unit) := by
  refine Preserves.get fun w hw => ?_
  split
  · exact Preserves.bind (hP.startChildWithArgs _ _) (fun _ => Preserves.pure ()) w hw
  · exact hw

lemma finalizeIfDone (hP : Framed P) : Preserves P (finalizeIfDone : SupM Args Unit) := by
  refine Preserves.get fun w hw => ?_
  split
  · exact hw
  · split
    · refine Preserves.get (fun v hv => ?_) w hw
      split
      · exact hv
      · rw [post_bind, post_set]
        refine Preserves.forM (fun item _ => ?_) _
          (hP v v.sched v.children none v.nextStartOrder v.spawned hv)
        split
        · exact hP.respawnWithEntry _
        · exact Preserves.pure ()
    · exact hw

lemma beginRestartGroup (hP : Framed P) (ref : ActorRef) (failed : ChildEntry Args)
    (reason : ExitReason) :
    Preserves P (beginRestartGroup ref failed reason : SupM Args Unit) := by
  refine Preserves.get fun w hw => ?_
  rw [post_bind, post_set]
  refine Preserves.bind (Preserves.forM fun item _ => Preserves.get fun v hv => ?_)
    (fun _ => hP.finalizeIfDone) _
    (hP w w.sched w.children _ w.nextStartOrder w.spawned hw)
  split
  · have hpush : Preserves P (pushPendingStop item.ref : SupM Args Unit) :=
      fun u hu => hP u u.sched u.children _ u.nextStartOrder u.spawned hu
    exact hpush.bind (fun _ => hP.suppressAndStop item.ref false) v hv
  · exact hv

lemma restartChild (hP : Framed P) (index : ℕ) :
    Preserves P (restartChild index : SupM Args Unit) := by
  have hset : ∀ ref, Preserves P (setSuppress ref false : SupM Args Unit) :=
    fun _ w hw => hP w w.sched _ w.restartGroup w.nextStartOrder w.spawned hw
  refine Preserves.get fun w hw => ?_
  refine Preserves.bind (Preserves.forM fun ref _ => hset ref) (fun _ => ?_) w hw
  refine Preserves.forM fun ref _ => Preserves.get fun v hv => ?_
  split
  · exact hv
  · split
    · exact hP.suppressAndStop ref false v hv
    · exact Preserves.bind (hP.startChildWithArgs index _) (fun _ => Preserves.pure ()) v hv

lemma deleteChild (hP : Framed P) (index : ℕ) :
    Preserves P (deleteChild index : SupM Args Unit) :=
  (hP.stopAndSuppressByIndex index).bind fun _ => Preserves.modify fun w hw =>
    hP w w.sched _ w.restartGroup w.nextStartOrder w.spawned hw

end Framed

/-- `stop` writes the flag and the exit reason besides. -/
lemma stop_keeps {P : World Args → Prop} (reason : ExitReason)
    (hP : ∀ w sched children group stopping exitReason, P w →
      P { w with sched := sched, children := children, restartGroup := group,
                 stopping := stopping, exitReason := exitReason }) :
    Preserves P (stop reason : SupM Args Unit) := by
  have hsweep : Preserves P (stopAllChildren : SupM Args Unit) := by
    rw [stopAllChildren_eq]
    exact Preserves.get fun w hw => Preserves.forM (fun r _ => suppressAndStop_keeps r true
      fun v children sched hv => hP v sched children v.restartGroup v.stopping v.exitReason hv) w hw
  have hbase : Preserves P (baseStop reason : SupM Args Unit) :=
    Preserves.modify fun w hw => hP w _ w.children w.restartGroup w.stopping _ hw
  refine Preserves.get fun w hw => ?_
  split
  · exact hbase w hw
  · rw [post_bind, post_set]
    refine Preserves.bind hsweep (fun _ => Preserves.bind (Preserves.modify fun v hv => ?_)
      fun _ => hbase) _ (hP w w.sched w.children w.restartGroup true w.exitReason hw)
    exact hP v v.sched v.children none v.stopping v.exitReason hv

lemma registerRestart_keeps {P : World Args → Prop}
    (hP : ∀ w sched children group stopping exitReason, P w →
      P { w with sched := sched, children := children, restartGroup := group,
                 stopping := stopping, exitReason := exitReason })
    (htimes : ∀ w times, P w → P { w with restartTimes := times }) :
    Preserves P (registerRestart : SupM Args Bool) := by
  have hstop : Preserves P (do stop .error; pure false : SupM Args Bool) :=
    (stop_keeps .error hP).bind fun _ => Preserves.pure false
  refine Preserves.get fun w hw => ?_
  split
  · exact hstop w hw
  · rw [post_bind, post_set]
    split
    · exact hstop _ (htimes w _ hw)
    · exact htimes w _ hw

/-- The property speaks only of what no signal changes: the clock, the supervisor's name and
specification, and how far `run` has come. -/
structure Constant (P : World Args → Prop) : Prop where
  framed : Framed P
  stops : ∀ w times stopping exitReason, P w →
    P { w with restartTimes := times, stopping := stopping, exitReason := exitReason }

lemma Constant.registerRestart {P : World Args → Prop} (hP : Constant P) :
    Preserves P (registerRestart : SupM Args Bool) :=
  registerRestart_keeps
    (fun w sched children group stopping exitReason hw => hP.stops _ w.restartTimes stopping
      exitReason (hP.framed w sched children group w.nextStartOrder w.spawned hw))
    fun w times hw => hP.stops w times w.stopping w.exitReason hw

lemma Constant.handleTermination {P : World Args → Prop} (hP : Constant P) (ref : ActorRef)
    (reason : ExitReason) : Preserves P (handleTermination ref reason : SupM Args Unit) := by
  have herase : ∀ w group, P w →
      P { w with children := w.children.erase ref, restartGroup := group } :=
    fun w group hw => hP.framed w w.sched _ group w.nextStartOrder w.spawned hw
  refine Preserves.get fun w hw => ?_
  split
  · rw [handleRestartGroupStop, post_bind, post_modify]
    exact hP.framed.finalizeIfDone _ (herase w _ hw)
  · split
    · exact hw
    · rename_i entry _
      rw [post_bind, post_set]
      split
      · refine Preserves.bind hP.registerRestart (fun ok => ?_) _ (herase w w.restartGroup hw)
        split
        · split
          · exact hP.framed.respawnWithEntry entry
          · exact hP.framed.respawnWithEntry entry
          · exact hP.framed.beginRestartGroup ref entry reason
          · exact hP.framed.beginRestartGroup ref entry reason
        · exact Preserves.pure ()
      · exact herase w w.restartGroup hw

/-- One round of `supervise_loop` may end the loop besides. -/
lemma Constant.superviseVisitor {P : World Args → Prop} (hP : Constant P)
    (hended : ∀ w, P w → P { w with phase := .ended }) (sg : Signal) :
    Preserves P (superviseVisitor sg : SupM Args Unit) :=
  fun w hw => superviseVisitor_cases (fun _ _ => hended w hw) (fun _ => hw) fun _ =>
    hP.handleTermination sg.source sg.reason w hw

/-! ### What holds in every run -/

/-- The invariant of all runs. -/
structure Tracked (w : World Args) : Prop extends Accounted w where
  spawned_lt : ∀ p ∈ w.spawned, p.1 < w.sched.nextActorId ∧ p.1 ≠ w.self
  spawned_nodup : (w.spawned.map Prod.fst).Nodup
  child_spawned : ∀ k e, w.children.find? k = some e → (k, e.specIndex) ∈ w.spawned
  /-- The signals in the mailbox are the supervisor's own, or come from actors that have
  exited. -/
  source : ∀ sg ∈ w.mailbox, sg.source = w.self ∨
    (w.registered sg.source = false ∧ sg.source < w.sched.nextActorId)
  /-- A child that has been spawned and has not exited is known or has been asked to stop. -/
  covered : ∀ p ∈ w.spawned, w.registered p.1 = true →
    w.children.contains p.1 = true ∨ stopRequested w p.1 = true
  requested : ∀ k e, w.children.find? k = some e → e.stopping = true → w.registered k = true →
    stopRequested w k = true

lemma waiting_adjusted {w w' : World Args} (h : Adjusted w w') (k : ActorRef) :
    waiting w' k = waiting w k := by
  rw [Bool.eq_iff_iff, waiting_iff, waiting_iff]
  constructor
  · rintro ⟨r, hr⟩
    rcases h.mailbox_of _ hr with hr | ⟨r', hr'⟩
    · exact ⟨r, hr⟩
    · cases hr'
  · rintro ⟨r, hr⟩
    exact ⟨r, h.of_mailbox _ hr⟩

namespace Tracked

lemma adjusted {w w' : World Args} (h : Tracked w) (ha : Adjusted w w') : Tracked w' := by
  have hcontains := contains_of_core ha.core
  have hacc : Accounted w' := h.toAccounted.transfer ha.self ha.registered ha.nextActorId
    ha.monitors (waiting_adjusted ha) fun k hk => (hcontains k).symm.trans hk
  refine { hacc with
    spawned_lt := fun p hp => ?_, spawned_nodup := by rw [ha.spawned]; exact h.spawned_nodup,
    child_spawned := fun k e he => ?_, source := fun sg hsg => ?_,
    covered := fun p hp hreg => ?_, requested := fun k e he hst hreg => ?_ }
  · rw [ha.spawned] at hp
    rw [ha.nextActorId, ha.self]
    exact h.spawned_lt p hp
  · obtain ⟨e', he', hcore⟩ : ∃ e', w.children.find? k = some e' ∧ e'.core = e.core := by
      have hk := ha.core k
      rw [he] at hk
      obtain ⟨e', he', hcore⟩ := Option.map_eq_some_iff.mp hk.symm
      exact ⟨e', he', hcore⟩
    have hidx : e'.specIndex = e.specIndex := congrArg Prod.fst hcore
    rw [ha.spawned, ← hidx]
    exact h.child_spawned k e' he'
  · rw [ha.self, ha.registered, ha.nextActorId]
    rcases ha.mailbox_of sg hsg with hold | ⟨r, rfl⟩
    · exact h.source sg hold
    · exact Or.inl rfl
  · rw [ha.spawned] at hp
    rw [ha.registered] at hreg
    rw [hcontains]
    exact (h.covered p hp hreg).imp_right (ha.requests p.1)
  · rcases ha.stops k e he hst hreg with ⟨e', he', hst'⟩ | hreq
    · exact ha.requests k (h.requested k e' he' hst' (by rwa [← ha.registered]))
    · exact hreq

/-- Removing children that are gone or have been asked to stop. -/
lemma removing {w w' : World Args} (h : Tracked w) (hsched : w'.sched = w.sched)
    (hself : w'.self = w.self) (hspawned : w'.spawned = w.spawned)
    (hsub : ∀ k e, w'.children.find? k = some e → w.children.find? k = some e)
    (hrest : ∀ k e, w.children.find? k = some e → w.registered k = true →
      w'.children.contains k = true ∨ stopRequested w k = true) : Tracked w' := by
  have hreg : ∀ k, w'.registered k = w.registered k :=
    fun k => by rw [World.registered, World.registered, hsched]
  have hbox : w'.mailbox = w.mailbox := by rw [World.mailbox, World.mailbox, hsched, hself]
  have hreq : ∀ k, stopRequested w' k = stopRequested w k :=
    fun k => by rw [stopRequested, stopRequested, hsched]
  have hacc : Accounted w' := h.toAccounted.transfer hself hreg (by rw [hsched]) (by rw [hsched])
    (waiting_congr hbox) fun k hk => by
      obtain ⟨e, he⟩ := OrdMap.contains_iff.mp hk
      exact OrdMap.contains_iff.mpr ⟨e, hsub k e he⟩
  refine { hacc with
    spawned_lt := by rw [hspawned, hsched, hself]; exact h.spawned_lt,
    spawned_nodup := by rw [hspawned]; exact h.spawned_nodup,
    child_spawned := fun k e he => by rw [hspawned]; exact h.child_spawned k e (hsub k e he),
    source := ?_, covered := fun p hp hr => ?_, requested := fun k e he hst hr => ?_ }
  · simp only [hbox, hself, hreg, hsched]
    exact h.source
  · rw [hspawned] at hp
    rw [hreg] at hr
    rw [hreq]
    rcases h.covered p hp hr with hc | hc
    · obtain ⟨e, he⟩ := OrdMap.contains_iff.mp hc
      exact hrest p.1 e he hr
    · exact Or.inr hc
  · rw [hreq]
    exact h.requested k e (hsub k e he) hst (by rwa [← hreg])

lemma started {w : World Args} (h : Tracked w) (index : ℕ) (args : Args) :
    Tracked (started w index args) := by
  have hacc := h.toAccounted.started index args
  -- nobody has had the reference of the new child
  have hfresh : w.registered w.sched.nextActorId = false := by
    by_contra hc
    rw [Bool.not_eq_false] at hc
    exact absurd (h.wellFormed.lt _ hc) (lt_irrefl _)
  have hfind := find?_started w index args
  have hactors : ∀ k, k ≠ w.sched.nextActorId →
      (Supervisor.started w index args).sched.actors.find? k = w.sched.actors.find? k :=
    fun k hk => (OrdMap.find?_insert _ _ _ _).trans (if_neg hk)
  have hreq : ∀ k, k ≠ w.sched.nextActorId →
      stopRequested (Supervisor.started w index args) k = stopRequested w k :=
    fun k hk => by rw [stopRequested, stopRequested, hactors k hk]
  have hself : w.self ≠ w.sched.nextActorId := (h.wellFormed.lt _ h.registered_self).ne
  have hnext : (Supervisor.started w index args).sched.nextActorId = w.sched.nextActorId + 1 := rfl
  have hspawned : (Supervisor.started w index args).spawned =
      w.spawned ++ [(w.sched.nextActorId, index)] := rfl
  refine { hacc with
    spawned_lt := fun p hp => ?_, spawned_nodup := ?_, child_spawned := fun k e he => ?_,
    source := fun sg hsg => ?_, covered := fun p hp hreg => ?_,
    requested := fun k e he hst hreg => ?_ }
  · rw [hnext]
    rw [hspawned, List.mem_append, List.mem_singleton] at hp
    rcases hp with hp | rfl
    · exact ⟨(h.spawned_lt p hp).1.trans (Nat.lt_succ_self _), (h.spawned_lt p hp).2⟩
    · exact ⟨Nat.lt_succ_self _, hself.symm⟩
  · rw [hspawned, List.map_append, List.map_cons, List.map_nil, List.nodup_append]
    refine ⟨h.spawned_nodup, by simp, fun a ha b hb => ?_⟩
    obtain ⟨p, hp, rfl⟩ := List.mem_map.mp ha
    rw [List.mem_singleton.mp hb]
    exact (h.spawned_lt p hp).1.ne
  · rw [hspawned, List.mem_append, List.mem_singleton]
    rw [hfind] at he
    split at he
    · rename_i hk
      obtain rfl := Option.some.inj he
      exact Or.inr (by rw [hk])
    · exact Or.inl (h.child_spawned k e he)
  · rw [World.mailbox, started_self, hactors _ hself] at hsg
    rw [started_self, started_registered, hnext]
    refine (h.source sg hsg).imp_right fun hs => ⟨?_, hs.2.trans (Nat.lt_succ_self _)⟩
    rw [hs.1, Bool.or_false, decide_eq_false_iff_not]
    exact hs.2.ne
  · rw [hspawned, List.mem_append, List.mem_singleton] at hp
    rcases hp with hp | rfl
    · have hne := (h.spawned_lt p hp).1.ne
      rw [started_registered, decide_eq_false hne, Bool.false_or] at hreg
      rw [hreq _ hne, OrdMap.contains, hfind, if_neg hne]
      exact h.covered p hp hreg
    · exact Or.inl (OrdMap.contains_iff.mpr ⟨_, by rw [hfind, if_pos rfl]⟩)
  · rw [hfind] at he
    split at he
    · obtain rfl := Option.some.inj he
      cases hst
    · rename_i hne
      rw [started_registered, decide_eq_false hne, Bool.false_or] at hreg
      rw [hreq k hne]
      exact h.requested k e he hst hreg

lemma startedChild {w : World Args} (h : Tracked w) (index : ℕ) (args : Args) :
    Tracked (startedChild w index args) := by
  rw [Supervisor.startedChild]
  split
  · exact h.started index args
  · split
    · exact h
    · exact h.started index args

end Tracked

/-! ### Steps of the environment -/

/-- What a step of the environment does: no actor is registered again, requests to registered
actors are not lost, and new signals come from actors that have exited. -/
structure Passed (w w' : World Args) : Prop where
  members : ∃ sched now, w' = { w with sched := sched, now := now }
  registered_of : ∀ k < w.sched.nextActorId, w'.registered k = true → w.registered k = true
  nextActorId : w.sched.nextActorId ≤ w'.sched.nextActorId
  mailbox_of : ∀ sg ∈ w'.mailbox, sg ∈ w.mailbox ∨
    (w'.registered sg.source = false ∧ sg.source < w'.sched.nextActorId)
  requests : ∀ k < w.sched.nextActorId, w'.registered k = true → stopRequested w k = true →
    stopRequested w' k = true

/-- Everything that leaves the registered actors and their mailboxes as they are. -/
lemma Passed.of_actors {w : World Args} (sched : SchedulerBase) (now : ℤ)
    (hactors : sched.actors = w.sched.actors) (hnext : sched.nextActorId = w.sched.nextActorId) :
    Passed w { w with sched := sched, now := now } := by
  refine ⟨⟨sched, now, rfl⟩, fun k _ hk => ?_, hnext.ge, fun sg hsg => Or.inl ?_,
    fun k _ _ hk => ?_⟩
  · rwa [World.registered, hactors] at hk
  · rwa [World.mailbox, hactors] at hsg
  · rwa [stopRequested, hactors]

/-- An exit takes no request away from the other actors. -/
lemma stopRequested_notifyExit {w : World Args} {a k : ActorRef} {reason : ExitReason}
    (hk : k ≠ a) (hreq : stopRequested w k = true) :
    stopRequested ({ w with sched := w.sched.notifyExit a reason } : World Args) k = true := by
  obtain ⟨r, hr⟩ := stopRequested_iff.mp hreq
  refine stopRequested_iff.mpr ⟨r, ?_⟩
  cases hl : w.sched.actors.find? k with
  | none => simp [hl] at hr
  | some l =>
      rw [hl, Option.getD_some] at hr
      simp only [SchedulerBase.find?_notifyExit _ _ _ hk, hl, Option.map_some, Option.getD_some]
      exact List.mem_append_left _ hr

lemma Passed.exit {w : World Args} (h : Accounted w) {a : ActorRef} (hne : a ≠ w.self)
    (ha : w.registered a = true) (reason : ExitReason) :
    Passed w { w with sched := w.sched.notifyExit a reason } := by
  have hreg : ∀ k, ({ w with sched := w.sched.notifyExit a reason } : World Args).registered k =
      (decide (k ≠ a) && w.registered k) := fun k => SchedulerBase.contains_notifyExit _ _ _ _
  have hsource : ∀ p ∈ w.sched.pendingSignals a reason, p.2.source = a := by
    intro p hp
    rcases List.mem_append.mp hp with hp | hp
    · obtain ⟨_, _, rfl⟩ := List.mem_map.mp hp
      rfl
    · obtain ⟨_, _, rfl⟩ := List.mem_map.mp hp
      rfl
  refine ⟨⟨_, _, rfl⟩, fun k _ hk => ?_, ?_, fun sg hsg => ?_, fun k _ hk hreq => ?_⟩
  · rw [hreg, Bool.and_eq_true] at hk
    exact hk.2
  · rw [SchedulerBase.nextActorId_notifyExit]
  · obtain ⟨l, hl⟩ := OrdMap.contains_iff.mp h.registered_self
    simp only [World.mailbox, SchedulerBase.find?_notifyExit _ _ _ hne.symm, hl,
      Option.map_some, Option.getD_some, List.mem_append] at hsg ⊢
    refine hsg.imp_right fun hnew => ?_
    obtain ⟨p, hp, rfl⟩ := List.mem_map.mp hnew
    rw [hsource p (List.mem_filter.mp hp).1, hreg, SchedulerBase.nextActorId_notifyExit]
    exact ⟨by simp, h.wellFormed.lt a ha⟩
  · rw [hreg, Bool.and_eq_true, decide_eq_true_eq] at hk
    exact stopRequested_notifyExit hk.1 hreq

lemma environment_passed {w : World Args} {u : System Args} {l : Label Args} (h : Accounted w)
    (henv : l.environment = true) (hstep : step { world := w } l = some u) : Passed w u.world := by
  obtain ⟨w', hw', rfl⟩ := surrounding_of_step hstep henv
  cases hw' with
  | exit a reason hne ha => exact Passed.exit h hne ha reason
  | spawn linker monitorRef =>
      have hfind : ∀ k, k ≠ w.sched.nextActorId →
          (w.sched.spawnImpl linker monitorRef).2.actors.find? k = w.sched.actors.find? k :=
        fun k hk => (OrdMap.find?_insert _ _ _ _).trans (if_neg hk)
      have hself : w.self ≠ w.sched.nextActorId := (h.wellFormed.lt _ h.registered_self).ne
      refine ⟨⟨_, _, rfl⟩, fun k hlt hk => ?_, Nat.le_succ _, fun sg hsg => Or.inl ?_,
        fun k hlt _ hk => ?_⟩
      · rwa [World.registered, OrdMap.contains, hfind k hlt.ne] at hk
      · rwa [World.mailbox, hfind _ hself] at hsg
      · rwa [stopRequested, hfind k hlt.ne]
  | link | monitor | advance => exact Passed.of_actors _ _ rfl rfl

lemma Tracked.passed {w w' : World Args} (h : Tracked w) (hacc : Accounted w')
    (hp : Passed w w') : Tracked w' := by
  obtain ⟨sched, now, rfl⟩ := hp.members
  have hlt : ∀ p ∈ w.spawned, p.1 < w.sched.nextActorId := fun p hps => (h.spawned_lt p hps).1
  refine { hacc with
    spawned_lt := fun p hps => ⟨(hlt p hps).trans_le hp.nextActorId, (h.spawned_lt p hps).2⟩,
    spawned_nodup := h.spawned_nodup, child_spawned := h.child_spawned,
    source := fun sg hsg => ?_, covered := fun p hps hreg => ?_,
    requested := fun k e he hst hreg => ?_ }
  · rcases hp.mailbox_of sg hsg with hold | hnew
    · refine (h.source sg hold).imp_right fun hs => ⟨?_, hs.2.trans_le hp.nextActorId⟩
      by_contra hc
      rw [Bool.not_eq_false] at hc
      have hreg := hp.registered_of _ hs.2 hc
      rw [hs.1] at hreg
      cases hreg
    · exact Or.inr hnew
  · refine (h.covered p hps (hp.registered_of _ (hlt p hps) hreg)).imp_right fun hreq => ?_
    exact hp.requests _ (hlt p hps) hreg hreq
  · have hk := h.child_lt k (OrdMap.contains_iff.mpr ⟨e, he⟩)
    exact hp.requests k hk hreg (h.requested k e he hst (hp.registered_of k hk hreg))

/-! ### Operations -/

section Tracking

lemma startChildWithArgs_tracked (index : ℕ) (args : Args) :
    Preserves Tracked (startChildWithArgs index args : SupM Args ActorRef) := by
  intro w h
  obtain ⟨ref, hrun⟩ := startChildWithArgs_run h.registered_self index args
  rw [Post, hrun]
  exact h.startedChild index args

lemma startChildByIndex_tracked (index : ℕ) (args : Option Args) :
    Preserves Tracked (startChildByIndex index args : SupM Args Unit) := by
  refine Preserves.get fun w h => ?_
  split
  · exact h
  · exact Preserves.bind (startChildWithArgs_tracked index _) (fun _ => Preserves.pure ()) w h

lemma respawnWithEntry_tracked (entry : ChildEntry Args) :
    Preserves Tracked (respawnWithEntry entry : SupM Args Unit) := by
  refine Preserves.get fun w h => ?_
  split
  · exact Preserves.bind (startChildWithArgs_tracked _ _) (fun _ => Preserves.pure ()) w h
  · exact h

/-- Operations that only adjust keep the invariant. -/
lemma Tracked.of_adjusts {α : Type} {x : SupM Args α}
    (hx : ∀ w₀, Preserves (Adjusted w₀) x) : Preserves Tracked x := by
  intro w h
  exact (hx w w (Adjusted.refl w)).mono (fun _ w' ha => h.adjusted ha) fun w' ha => h.adjusted ha

lemma finalizeIfDone_tracked : Preserves Tracked (finalizeIfDone : SupM Args Unit) := by
  refine Preserves.get fun w h => ?_
  split
  · exact h
  · split
    · refine Preserves.get (fun v hv => ?_) w h
      split
      · exact hv
      · rw [post_bind, post_set]
        refine Preserves.forM (fun item _ => ?_) _
          (hv.adjusted (Adjusted.of_eq rfl rfl rfl rfl rfl))
        split
        · exact respawnWithEntry_tracked _
        · exact Preserves.pure ()
    · exact h

lemma beginRestartGroup_tracked (ref : ActorRef) (failed : ChildEntry Args)
    (reason : ExitReason) :
    Preserves Tracked (beginRestartGroup ref failed reason : SupM Args Unit) := by
  refine Preserves.get fun w h => ?_
  simp only [post_bind, post_set]
  refine Post.mono (Tracked.of_adjusts (fun _ => stopPlan_adjusts _) _
    (h.adjusted (Adjusted.of_eq rfl rfl rfl rfl rfl)))
    (fun _ w' h' => finalizeIfDone_tracked w' h') fun _ => id

/-- Once the terminated child is out of `children_`, a termination keeps the invariant. -/
lemma handleTermination_tracked {w : World Args} {ref : ActorRef} (reason : ExitReason)
    (h : Tracked (dropped w ref)) :
    Post (handleTermination ref reason : SupM Args Unit) w (fun _ => Tracked) Tracked := by
  rw [handleTermination, post_bind, post_get]
  by_cases hg : w.restartGroup.isSome = true
  · simp only [hg, if_true, handleRestartGroupStop, post_bind, post_modify]
    exact finalizeIfDone_tracked _ (h.adjusted (Adjusted.of_eq rfl rfl rfl rfl rfl))
  · simp only [hg, Bool.false_eq_true, if_false]
    cases he : w.children.find? ref with
    | none => exact post_pure.mpr (dropped_eq he ▸ h)
    | some failed =>
        simp only [post_bind, post_set]
        split
        · rw [post_bind]
          refine Post.mono (Tracked.of_adjusts (fun _ => registerRestart_adjusts) _ h)
            (fun ok w' h' => ?_) fun _ => id
          cases ok with
          | false => exact h'
          | true =>
              simp only [if_true]
              split
              · exact respawnWithEntry_tracked _ w' h'
              · exact respawnWithEntry_tracked _ w' h'
              · exact beginRestartGroup_tracked _ _ _ w' h'
              · exact beginRestartGroup_tracked _ _ _ w' h'
        · exact h

/-- Taking a signal out of the mailbox, together with the child it names. -/
lemma Tracked.popped {w : World Args} {sg : Signal} {rest : List Signal} (h : Tracked w)
    (hbox : w.mailbox = sg :: rest) : Tracked (dropped (popped w) sg.source) := by
  have hacc := h.toAccounted.popped hbox
  have hactors : ∀ k, k ≠ w.self →
      (Supervisor.popped w).sched.actors.find? k = w.sched.actors.find? k :=
    fun k hk => (OrdMap.find?_modify _ _ _ _).trans (if_neg hk)
  have hreq : ∀ k, k ≠ w.self →
      stopRequested (dropped (Supervisor.popped w) sg.source) k = stopRequested w k := by
    intro k hk
    rw [stopRequested, stopRequested]
    exact congrArg (fun o => List.any (Option.getD o []) _) (hactors k hk)
  have hchild : ∀ k e, (dropped (Supervisor.popped w) sg.source).children.find? k = some e →
      w.children.find? k = some e := fun k e he => (find?_erase_some he).2
  have hreg : ∀ k, (dropped (Supervisor.popped w) sg.source).registered k = w.registered k :=
    popped_registered w
  refine { hacc with
    spawned_lt := h.spawned_lt, spawned_nodup := h.spawned_nodup,
    child_spawned := fun k e he => h.child_spawned k e (hchild k e he),
    source := fun sg' hsg' => ?_, covered := fun p hp hr => ?_,
    requested := fun k e he hst hr => ?_ }
  · have hmem : sg' ∈ w.mailbox := by
      obtain ⟨l, hl⟩ := OrdMap.contains_iff.mp h.registered_self
      simp only [World.mailbox, dropped, Supervisor.popped, OrdMap.find?_modify, hl] at hsg'
      rw [World.mailbox, hl]
      exact List.mem_of_mem_tail hsg'
    rw [hreg]
    exact h.source sg' hmem
  · rw [hreg] at hr
    have hne := (h.spawned_lt p hp).2
    rw [hreq _ hne]
    refine (h.covered p hp hr).imp_left fun hc => ?_
    -- the signal names an actor that has exited, or the supervisor, which is no child
    have hsrc : p.1 ≠ sg.source := by
      intro heq
      rcases h.source sg (by rw [hbox]; simp) with hs | hs
      · exact hne (heq.trans hs)
      · rw [heq, hs.1] at hr
        cases hr
    rw [dropped, OrdMap.contains_erase, decide_eq_true hsrc, Bool.true_and]
    exact hc
  · rw [hreg] at hr
    have hne : k ≠ w.self := (h.spawned_lt _ (h.child_spawned k e (hchild k e he))).2
    rw [hreq k hne]
    exact h.requested k e (hchild k e he) hst hr

/-- One round of `supervise_loop`. -/
lemma superviseVisitor_tracked {w : World Args} {sg : Signal} {rest : List Signal}
    (h : Tracked w) (hbox : w.mailbox = sg :: rest) :
    Post (superviseVisitor sg : SupM Args Unit) (popped w) (fun _ => Tracked) Tracked := by
  have hpop := h.popped hbox
  have hnone {k : ActorRef} (hk : ¬ w.children.contains k = true) :
      (popped w).children.find? k = none := by
    have hf : w.children.find? k = none := by simpa [OrdMap.contains] using hk
    exact hf
  refine superviseVisitor_cases (fun _ hown => ?_) (fun hzero => ?_) fun _ =>
    handleTermination_tracked sg.reason hpop
  · have hown' : sg.source = w.self := hown
    have hno : ¬ w.children.contains w.self = true := by simp [h.self_not_child]
    rw [hown', dropped_eq (hnone hno)] at hpop
    exact hpop.adjusted (Adjusted.of_eq rfl rfl rfl rfl rfl)
  · have hno : ¬ w.children.contains sg.source = true := fun hc => h.child_pos _ hc hzero
    exact dropped_eq (hnone hno) ▸ hpop

lemma restartChild_tracked (index : ℕ) :
    Preserves Tracked (restartChild index : SupM Args Unit) := by
  refine Preserves.get fun w h => ?_
  refine Preserves.bind (Preserves.forM fun ref _ =>
    Tracked.of_adjusts fun _ => setSuppress_adjusts ref false) (fun _ => ?_) w h
  refine Preserves.forM fun ref _ => Preserves.get fun v hv => ?_
  split
  · exact hv
  · split
    · exact Tracked.of_adjusts (fun _ => suppressAndStop_adjusts ref false) v hv
    · exact Preserves.bind (startChildWithArgs_tracked index _) (fun _ => Preserves.pure ()) v hv

lemma deleteChild_tracked (index : ℕ) :
    Preserves Tracked (deleteChild index : SupM Args Unit) := by
  intro w h
  rw [deleteChild, post_bind]
  refine ((Tracked.of_adjusts (fun _ => stopAndSuppressByIndex_adjusts index) w h).and
    (stopAndSuppressByIndex_quells w index)).mono ?_ fun _ h' => h'.1
  rintro _ w' ⟨h', hquelled⟩
  rw [post_modify]
  refine h'.removing rfl rfl rfl (fun k e he => ?_) fun k e he hreg => ?_
  · exact OrdMap.find?_of_filter he
  · by_cases hi : e.specIndex = index
    · exact Or.inr (h'.requested k e he (hquelled k e he hi).1 hreg)
    · refine Or.inl (OrdMap.contains_iff.mpr ⟨e, ?_⟩)
      rw [OrdMap.find?_filter, he]
      simp [hi]

end Tracking

/-! ### Whole runs -/

lemma perform_preserves {P : World Args → Prop} {x : SupM Args Unit} {w : World Args}
    (hx : Post x w (fun _ => P) P) : P (perform x w).world := by
  rcases perform_eq_of_post hx with ⟨-, h⟩ | ⟨-, h⟩
  · exact h
  · exact h

lemma Tracked.call {w : World Args} {u : System Args} {l : Label Args} (h : Tracked w)
    (hl : (l.administrative || l.environment) = true) (hu : step { world := w } l = some u) :
    Tracked u.world := by
  by_cases henv : l.environment = true
  · exact h.passed (h.toAccounted.environment (s := { world := w }) henv hu).2
      (environment_passed h.toAccounted henv hu)
  have hadmin : l.administrative = true := by simpa [henv] using hl
  obtain ⟨x, hx, rfl⟩ := administers_of_step hu hadmin
  cases hx with
  | startChild index args hlt =>
      exact perform_preserves (startChildByIndex_tracked index args w h)
  | stopChild index =>
      exact perform_preserves
        (Tracked.of_adjusts (fun _ => stopAndSuppressByIndex_adjusts index) w h)
  | restartChild index =>
      exact perform_preserves (restartChild_tracked index w h)
  | deleteChild index =>
      exact perform_preserves (deleteChild_tracked index w h)
  | stop reason =>
      exact perform_preserves (Tracked.of_adjusts (fun _ => stop_adjusts reason) w h)

namespace Life

/-- Until the supervisor is removed, every step keeps the invariant. -/
lemma tracked_step {s t : Life Args} {a : Act Args} (h : s.status ≠ .gone → Tracked s.world)
    (hstep : s.step a = some t) (ht : t.status ≠ .gone) : Tracked t.world := by
  obtain ⟨hs, hmove⟩ := step_cases hstep
  have hw := h hs
  cases hmove with
  | call hl hu => exact hw.call hl hu
  | initEnds hphase hdone => exact hw.adjusted (Adjusted.of_eq rfl rfl rfl rfl rfl)
  | initStarts hphase hstatic hlt hu hr =>
      rw [hu]
      exact perform_preserves (startChildByIndex_tracked _ _ _ hw)
  | handles halive hphase hbox hu hr =>
      rw [hu]
      exact perform_preserves (superviseVisitor_tracked hw hbox)
  | sticks hbox hu hr =>
      rw [hu]
      exact perform_preserves (superviseVisitor_tracked hw hbox)
  | initRaises => exact absurd rfl ht
  | raises => exact absurd rfl ht
  | crashes => exact absurd rfl ht
  | leaves => exact absurd rfl ht

lemma tracked_create {sched : SchedulerBase} (hwf : sched.WellFormed)
    (spec : Specification Args) : Tracked (create sched spec).world := by
  have hbox : (create sched spec).world.mailbox = [] := by
    simp [create, Supervisor.create, World.mailbox, SchedulerBase.spawnImpl]
  have hacc : Accounted (create sched spec).world := accounted_create hwf spec
  refine { hacc with
    spawned_lt := ?_, spawned_nodup := List.nodup_nil, child_spawned := ?_, source := ?_,
    covered := ?_, requested := ?_ }
  · intro p hp
    cases hp
  · intro k e he
    cases he
  · intro sg hsg
    rw [hbox] at hsg
    cases hsg
  · intro p hp
    cases hp
  · intro k e he
    cases he

end Life

end Supervisor

end Agner
