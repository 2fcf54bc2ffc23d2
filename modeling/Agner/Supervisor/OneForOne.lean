import Agner.Supervisor.Instances

/-!
One-for-one supervision refines its reference semantics.

`Reference` is the action `HandleTermination` of `supervisor.tla`, for the strategies that
restart a child on its own: its state is the multiset of children, each with its spec, its
arguments and whether a restart is suppressed, and has no references. The administrative
operations and the clock are added, with what they do to that multiset.

* `Reference.Step`: one step of the reference semantics.
* `reference`: the state of the reference semantics that a supervisor implements.
* `observed`: the step of the reference semantics that an input amounts to. A signal is the
  termination of the child it names, if it names one.
* `one_for_one_refines`: up to its first `stop`, every run of a supervisor is a run of the
  reference semantics, and signals touch no entry other than the one they name.
-/

namespace Agner

open Raising Runs

/-! ### The reference semantics -/

namespace Reference

variable {Args : Type}

/-- A running child, and whether it is not to be restarted. -/
structure Child (Args : Type) where
  specIndex : ℕ
  args : Args
  suppressed : Bool

/-- What the reference semantics knows of a supervisor. -/
structure State (Args : Type) where
  children : Multiset (Child Args) := 0
  restartTimes : List ℤ := []
  time : ℤ := 0
  stopping : Bool := false

/-- `PruneWindow`. -/
def pruneWindow (within : ℤ) (times : List ℤ) (now : ℤ) : List ℤ :=
  times.filter fun t => decide (now - t ≤ within)

/-- `RegisterRestart`: the new restart times, and whether the restart is allowed. -/
def registerRestart (intensity : Intensity) (times : List ℤ) (now : ℤ) : List ℤ × Bool :=
  if intensity.maxRestarts = 0 then (times, false)
  else
    let updated := pruneWindow intensity.within times now ++ [now]
    (updated, !decide (intensity.maxRestarts < updated.length))

/-- `will_restart`. -/
def willRestart (spec : Specification Args) (c : Child Args) (reason : ExitReason) : Bool :=
  !c.suppressed &&
    Supervisor.shouldRestart (Supervisor.restartAtSpecIndex spec c.specIndex) reason

/-- What may happen to it. -/
inductive Event (Args : Type) where
  | start (index : ℕ) (args : Args)
  | stopChild (index : ℕ)
  | deleteChild (index : ℕ)
  | advance (time : ℤ)
  | terminated (child : Child Args) (reason : ExitReason)
  /-- A signal that names no child. -/
  | ignored

/-- One step. In the three cases of a termination the child that has terminated is removed,
and `rest` are the others. -/
inductive Step (spec : Specification Args) : State Args → Event Args → State Args → Prop where
  | starts {r : State Args} {index : ℕ} {args : Args}
      (h : spec.strategy = .simpleOneForOne ∨ ∀ c ∈ r.children, c.specIndex ≠ index) :
      Step spec r (.start index args)
        { r with children := ⟨index, args, false⟩ ::ₘ r.children }
  | running {r : State Args} {index : ℕ} {args : Args}
      (hstatic : spec.strategy ≠ .simpleOneForOne)
      (h : ∃ c ∈ r.children, c.specIndex = index) : Step spec r (.start index args) r
  | stopChild {r : State Args} {index : ℕ} :
      Step spec r (.stopChild index)
        { r with children := r.children.map fun c =>
            if c.specIndex = index then { c with suppressed := true } else c }
  | deleteChild {r : State Args} {index : ℕ} :
      Step spec r (.deleteChild index)
        { r with children := r.children.filter fun c => c.specIndex ≠ index }
  | advance {r : State Args} {time : ℤ} : Step spec r (.advance time) { r with time := time }
  | ignored {r : State Args} : Step spec r .ignored r
  | exits {r : State Args} {c : Child Args} {rest : Multiset (Child Args)} {reason : ExitReason}
      (hc : r.children = c ::ₘ rest) (hwill : willRestart spec c reason = false) :
      Step spec r (.terminated c reason) { r with children := rest }
  | restarts {r : State Args} {c : Child Args} {rest : Multiset (Child Args)}
      {reason : ExitReason} (hc : r.children = c ::ₘ rest)
      (hwill : willRestart spec c reason = true)
      (hallowed : (registerRestart spec.intensity r.restartTimes r.time).2 = true) :
      Step spec r (.terminated c reason)
        { r with
          children := ⟨c.specIndex, c.args, false⟩ ::ₘ rest
          restartTimes := (registerRestart spec.intensity r.restartTimes r.time).1 }
  | exceeded {r : State Args} {c : Child Args} {rest : Multiset (Child Args)}
      {reason : ExitReason} (hc : r.children = c ::ₘ rest)
      (hwill : willRestart spec c reason = true)
      (hrefused : (registerRestart spec.intensity r.restartTimes r.time).2 = false) :
      Step spec r (.terminated c reason)
        { r with
          children := rest.map fun c => { c with suppressed := true }
          restartTimes := (registerRestart spec.intensity r.restartTimes r.time).1
          stopping := true }

end Reference

/-! ### The supervisor seen through it -/

/-- An entry as the reference semantics sees it. -/
def ChildEntry.view {Args : Type} (e : ChildEntry Args) : Reference.Child Args :=
  ⟨e.specIndex, e.args, e.suppressRestart⟩

namespace Supervisor

variable {Args : Type}

/-- The state of the reference semantics that the supervisor implements. -/
def reference (s : System Args) : Reference.State Args where
  children := s.world.children.values.map ChildEntry.view
  restartTimes := s.world.restartTimes
  time := s.world.now
  stopping := s.world.stopping

/-- `start_child`, `stop_child`, `delete_child`. -/
def Label.childCall : Label Args → Bool
  | .startChild .. | .stopChild _ | .deleteChild _ => true
  | _ => false

/-- What may happen to the supervisor: a call, a step of the environment, or a signal from any
source. -/
inductive Input (Args : Type) where
  | call (l : Label Args)
  | signal (sg : Signal)

/-- The effect of an input on the supervisor. -/
def Input.step (s : System Args) : Input Args → Option (System Args)
  | .call l => if l.childCall || l.environment then Supervisor.step s l else none
  | .signal sg => if s.raised then none else some (perform (superviseVisitor sg) s.world)

/-- The step of the reference semantics that an input amounts to. -/
def observed (s : System Args) : Input Args → Reference.Event Args
  | .call (.startChild index args) =>
      match s.world.specification.children[index]? with
      | none => .ignored
      | some spec => .start index (chosenArgs s.world spec args)
  | .call (.stopChild index) => .stopChild index
  | .call (.deleteChild index) => .deleteChild index
  | .call (.advance time) => .advance time
  | .call _ => .ignored
  | .signal sg =>
      match if sg.source.valid then s.world.children.find? sg.source else none with
      | none => .ignored
      | some e => .terminated e.view sg.reason

/-- The condition on runs: the supervisor has not been stopped, and the calls of
`scheduler().stop` that the input makes do not raise. -/
def Quiet (s : System Args) (i : Input Args) : Prop :=
  s.world.stopping = false ∧ (Input.step s i).all fun t => !t.raised

instance (s : System Args) (i : Input Args) : Decidable (Quiet s i) :=
  inferInstanceAs (Decidable (_ ∧ _))

/-- The invariant of a supervisor that restarts children on their own. -/
structure Direct (w : World Args) : Prop where
  strategy : w.specification.strategy = .oneForOne ∨ w.specification.strategy = .simpleOneForOne
  wellFormed : w.sched.WellFormed
  registered_self : w.registered w.self = true
  self_not_child : w.children.contains w.self = false
  child_lt : ∀ k, w.children.contains k = true → k < w.sched.nextActorId
  index_lt : ∀ k e, w.children.find? k = some e → e.specIndex < w.specification.children.length
  unique : w.specification.strategy = .oneForOne → ∀ k k' e e', w.children.find? k = some e →
    w.children.find? k' = some e' → e.specIndex = e'.specIndex → k = k'
  group : w.restartGroup = none

namespace Direct

/-- Removing entries and changing flags. -/
lemma shrink {w w' : World Args} (h : Direct w) (hspec : w'.specification = w.specification)
    (hself : w'.self = w.self) (hreg : ∀ k, w'.registered k = w.registered k)
    (hnext : w'.sched.nextActorId = w.sched.nextActorId)
    (hgroup : w'.restartGroup = w.restartGroup)
    (hsub : ∀ k e', w'.children.find? k = some e' →
      ∃ e, w.children.find? k = some e ∧ e.specIndex = e'.specIndex) : Direct w' := by
  have hcontains : ∀ k, w'.children.contains k = true → w.children.contains k = true := by
    intro k hk
    obtain ⟨e', he'⟩ := OrdMap.contains_iff.mp hk
    obtain ⟨e, he, -⟩ := hsub k e' he'
    exact OrdMap.contains_iff.mpr ⟨e, he⟩
  refine ⟨by rw [hspec]; exact h.strategy, ⟨by rw [hnext]; exact h.wellFormed.pos, fun k hk => ?_⟩,
    by rw [hreg, hself]; exact h.registered_self, ?_, fun k hk => ?_, fun k e' he' => ?_,
    fun hone k k' e₁ e₂ h₁ h₂ heq => ?_, hgroup.trans h.group⟩
  · rw [hnext]
    exact h.wellFormed.lt k ((hreg k).symm.trans hk)
  · rw [hself]
    by_contra hc
    rw [Bool.not_eq_false] at hc
    exact absurd h.self_not_child (by rw [hcontains _ hc]; simp)
  · rw [hnext]
    exact h.child_lt k (hcontains k hk)
  · obtain ⟨e, he, hi⟩ := hsub k e' he'
    rw [hspec, ← hi]
    exact h.index_lt k e he
  · obtain ⟨d₁, hd₁, hi₁⟩ := hsub k e₁ h₁
    obtain ⟨d₂, hd₂, hi₂⟩ := hsub k' e₂ h₂
    exact h.unique (by rwa [hspec] at hone) k k' d₁ d₂ hd₁ hd₂ (by rw [hi₁, hi₂, heq])

lemma started {w : World Args} (h : Direct w) {index : ℕ} (args : Args)
    (hlt : index < w.specification.children.length)
    (hfree : w.specification.strategy = .oneForOne → hasChild w index = false) :
    Direct (started w index args) := by
  have hfind := find?_started w index args
  have hcontains := contains_started w index args
  have hself := h.wellFormed.lt w.self h.registered_self
  refine ⟨h.strategy, wellFormed_started h.wellFormed index args, ?_, ?_, fun k hk => ?_,
    fun k e he => ?_, fun hone k k' e e' he he' heq => ?_, h.group⟩
  · rw [started_registered, started_self, h.registered_self, Bool.or_true]
  · rw [hcontains, started_self, h.self_not_child, Bool.or_false, decide_eq_false_iff_not]
    exact hself.ne
  · rw [hcontains, Bool.or_eq_true, decide_eq_true_eq] at hk
    rcases hk with rfl | hk
    · exact Nat.lt_succ_self _
    · exact (h.child_lt k hk).trans (Nat.lt_succ_self _)
  · rw [hfind] at he
    split at he
    · obtain rfl := Option.some.inj he
      exact hlt
    · exact h.index_lt k e he
  · have hnone : ∀ k e, w.children.find? k = some e → e.specIndex ≠ index := by
      intro k e he hi
      have hno := hfree hone
      rw [hasChild_iff.mpr ⟨k, e, he, hi⟩] at hno
      cases hno
    rw [hfind] at he he'
    split at he <;> split at he'
    · simp_all
    · obtain rfl := Option.some.inj he
      exact absurd heq.symm (hnone k' e' he')
    · obtain rfl := Option.some.inj he'
      exact absurd heq (hnone k e he)
    · exact h.unique hone k k' e e' he he' heq

lemma dropped {w : World Args} (h : Direct w) (ref : ActorRef) : Direct (dropped w ref) :=
  h.shrink rfl rfl (fun _ => rfl) rfl rfl fun _ e he => ⟨e, (find?_erase_some he).2, rfl⟩

end Direct

/-! ### Single steps -/

/-- The reference of a fresh child is not in `children_`. -/
lemma Direct.find?_next {w : World Args} (h : Direct w) :
    w.children.find? w.sched.nextActorId = none := by
  cases hf : w.children.find? w.sched.nextActorId with
  | none => rfl
  | some e => exact absurd (h.child_lt _ (OrdMap.contains_iff.mpr ⟨e, hf⟩)) (lt_irrefl _)

lemma view_started {w : World Args} (h : Direct w) (index : ℕ) (args : Args) :
    (started w index args).children.values.map ChildEntry.view =
      ⟨index, args, false⟩ ::ₘ w.children.values.map ChildEntry.view := by
  have hvalues : (started w index args).children.values =
      { specIndex := index, startOrder := w.nextStartOrder, args := args } ::ₘ
        w.children.values := OrdMap.values_insert _ h.find?_next
  rw [hvalues, Multiset.map_cons]
  rfl

/-- The children of two worlds, one of them with a change that can be seen from outside. -/
lemma view_of_find? {w w' : World Args} (f : Reference.Child Args → Reference.Child Args)
    (h : ∀ k, (w'.children.find? k).map ChildEntry.view =
      ((w.children.find? k).map ChildEntry.view).map f) :
    w'.children.values.map ChildEntry.view = (w.children.values.map ChildEntry.view).map f := by
  have hmap : w'.children.map (fun _ e => ChildEntry.view e) =
      w.children.map fun _ e => f (ChildEntry.view e) := by
    refine OrdMap.ext fun k => ?_
    rw [OrdMap.find?_map, OrdMap.find?_map, h, Option.map_map]
    rfl
  rw [← OrdMap.values_map, hmap, Multiset.map_map, ← OrdMap.values_map]
  rfl

/-- `register_restart` and `RegisterRestart` agree. -/
lemma registerRestart_eq (w : World Args) :
    Reference.registerRestart w.specification.intensity w.restartTimes w.now =
      (if w.specification.intensity.maxRestarts = 0 then w.restartTimes else windowTimes w,
        granted w) := by
  have hprune : Reference.pruneWindow w.specification.intensity.within w.restartTimes w.now =
      w.restartTimes.filter fun t =>
        !decide (w.specification.intensity.within < w.now - t) := by
    rw [Reference.pruneWindow]
    refine List.filter_congr fun t _ => ?_
    rw [← decide_not]
    exact decide_eq_decide.mpr not_lt.symm
  rw [Reference.registerRestart, hprune, ← windowTimes, granted]
  split
  · rename_i hmax
    rw [decide_eq_false (not_not_intro hmax), Bool.false_and]
  · rename_i hmax
    rw [decide_eq_true hmax, Bool.true_and]
    refine Prod.ext rfl ?_
    show (!decide (w.specification.intensity.maxRestarts < (windowTimes w).length)) = _
    rw [← decide_not]
    exact decide_eq_decide.mpr not_lt

/-- A refused restart leaves the clock alone, and the times that `RegisterRestart` says. -/
lemma registerRestart_times (w : World Args) :
    Post (registerRestart : SupM Args Bool) w
      (fun _ w' => w'.now = w.now ∧ w'.restartTimes =
        if w.specification.intensity.maxRestarts = 0 then w.restartTimes else windowTimes w)
      (fun _ => True) := by
  have hstop : ∀ (v : World Args) reason, Post (stop reason : SupM Args Unit) v
      (fun _ w' => w'.now = v.now ∧ w'.restartTimes = v.restartTimes) (fun _ => True) := by
    intro v reason
    have hframed : Framed fun w' : World Args => w'.now = v.now ∧
        w'.restartTimes = v.restartTimes := fun _ _ _ _ _ _ h => h
    rw [stop, post_bind, post_get]
    split
    · exact ⟨rfl, rfl⟩
    · simp only [post_bind, post_set]
      refine Post.mono (hframed.stopAllChildren { v with stopping := true } ⟨rfl, rfl⟩)
        (fun _ w' h => ?_) fun _ _ => trivial
      rw [post_modify, baseStop, post_modify]
      exact h
  rw [registerRestart, post_bind, post_get]
  split
  · rename_i hmax
    rw [post_bind]
    refine (hstop w .error).mono (fun _ w' h => ?_) fun _ => id
    exact post_pure.mpr h
  · rename_i hmax
    rw [post_bind, post_set]
    split
    · rw [post_bind]
      refine (hstop { w with restartTimes := windowTimes w } .error).mono (fun _ w' h => ?_)
        fun _ => id
      exact post_pure.mpr h
    · exact post_pure.mpr ⟨rfl, rfl⟩

/-- The world without the child that has terminated, its restart recorded. -/
def recorded (w : World Args) (ref : ActorRef) : World Args :=
  { w with children := w.children.erase ref, restartTimes := windowTimes w }

/-- A respawn starts a child, for there is no other child of the spec. -/
lemma Direct.respawned {w : World Args} (h : Direct w) {entry : ChildEntry Args}
    (hlt : entry.specIndex < w.specification.children.length)
    (hfree : w.specification.strategy = .oneForOne → hasChild w entry.specIndex = false) :
    respawned w entry = Supervisor.started w entry.specIndex entry.args := by
  rw [Supervisor.respawned, if_pos hlt, startedChild]
  split
  · rfl
  · rename_i hsimple
    rw [findRunningChildForSpec_eq_none.mpr (hfree (h.strategy.resolve_right hsimple))]

/-- The entry that has been removed was the only one of its spec. -/
lemma Direct.free_of_dropped {w : World Args} (h : Direct w) {ref : ActorRef}
    {e : ChildEntry Args} (he : w.children.find? ref = some e)
    (hone : w.specification.strategy = .oneForOne) :
    hasChild (recorded w ref) e.specIndex = false := by
  by_contra hc
  rw [Bool.not_eq_false] at hc
  obtain ⟨k, e', he', hi⟩ := hasChild_iff.mp hc
  obtain ⟨hne, he''⟩ := find?_erase_some (w := w) he'
  exact hne (h.unique hone k ref e' e he'' he hi)

lemma Direct.recorded {w : World Args} (h : Direct w) (ref : ActorRef) : Direct (recorded w ref) :=
  h.shrink rfl rfl (fun _ => rfl) rfl rfl fun _ e he => ⟨e, (find?_erase_some (w := w) he).2, rfl⟩

/-- How a supervisor that restarts children on their own ends the handling of a termination,
unless it raises. -/
inductive Handled (w : World Args) (ref : ActorRef) (reason : ExitReason) (w' : World Args) :
    Prop where
  | unknown (hfind : w.children.find? ref = none) (hw : w' = w)
  | exits (e : ChildEntry Args) (hfind : w.children.find? ref = some e)
      (hwill : Reference.willRestart w.specification e.view reason = false)
      (hw : w' = dropped w ref)
  | restarts (e : ChildEntry Args) (hfind : w.children.find? ref = some e)
      (hwill : Reference.willRestart w.specification e.view reason = true)
      (hgranted : granted w = true)
      (hw : w' = started (recorded w ref) e.specIndex e.args)
  | exceeded (e : ChildEntry Args) (hfind : w.children.find? ref = some e)
      (hwill : Reference.willRestart w.specification e.view reason = true)
      (hrefused : granted w = false) (hhalted : Halted .error (dropped w ref) w')
      (htimes : w'.now = w.now ∧ w'.restartTimes =
        if w.specification.intensity.maxRestarts = 0 then w.restartTimes else windowTimes w)

/-- A restart is due and refused. -/
def Refuses (w : World Args) (ref : ActorRef) (reason : ExitReason) : Prop :=
  granted w = false ∧ ∃ e, w.children.find? ref = some e ∧
    Reference.willRestart w.specification e.view reason = true

lemma handleTermination_handled {w : World Args} (h : Direct w) (ref : ActorRef)
    (reason : ExitReason) :
    Post (handleTermination ref reason : SupM Args Unit) w (fun _ => Handled w ref reason)
      (fun _ => Refuses w ref reason) := by
  rw [handleTermination, post_bind, post_get]
  have hgroup : w.restartGroup.isSome = false := by rw [h.group, Option.isSome_none]
  simp only [hgroup, Bool.false_eq_true, if_false]
  cases he : w.children.find? ref with
  | none => exact post_pure.mpr (.unknown he rfl)
  | some e =>
      simp only [post_bind, post_set]
      split
      · rename_i hwill
        rw [post_bind]
        have hdrop := h.dropped ref
        refine ((registerRestart_post hdrop.self_not_child).and
          (registerRestart_times (dropped w ref))).mono (fun ok w' h' => ?_)
          fun _ h' => ⟨h'.1.1, e, he, hwill⟩
        obtain ⟨⟨rfl, hgr, rfl⟩ | ⟨rfl, hgr, hhalted, -⟩, htimes⟩ := h'
        · have hrespawn : Post (respawnWithEntry e : SupM Args Unit) (recorded w ref)
              (fun _ => Handled w ref reason) (fun _ => Refuses w ref reason) := by
            have hrec := h.recorded ref
            rw [Post, respawnWithEntry_run hrec.registered_self,
              hrec.respawned (h.index_lt ref e he) (h.free_of_dropped he)]
            exact .restarts e he hwill hgr rfl
          simp only [if_true]
          rcases h.strategy with hs | hs
          · simp only [hs]
            exact hrespawn
          · simp only [hs]
            exact hrespawn
        · exact post_pure.mpr (.exceeded e he hwill hgr hhalted htimes)
      · rename_i hwill
        rw [Bool.not_eq_true] at hwill
        exact post_pure.mpr (.exits e he hwill rfl)

/-- A supervisor of the given specification that restarts children on their own. -/
def DirectOf (spec : Specification Args) (w : World Args) : Prop :=
  Direct w ∧ w.specification = spec

lemma Direct.halted {w w' : World Args} {reason : ExitReason} (h : Direct w)
    (hh : Halted reason w w') : Direct w' := by
  refine h.shrink hh.specification hh.self hh.registered hh.nextActorId ?_ fun _ _ he =>
    find?_of_core hh.core he
  by_cases hst : w.stopping = true
  · exact (hh.unchanged hst).2
  · rw [hh.group (by simpa using hst), h.group]

lemma Handled.direct {w w' : World Args} {ref : ActorRef} {reason : ExitReason} (h : Direct w)
    (hh : Handled w ref reason w') : DirectOf w.specification w' := by
  cases hh with
  | unknown hfind hw =>
      subst hw
      exact ⟨h, rfl⟩
  | exits e hfind hwill hw => exact hw ▸ ⟨h.dropped ref, rfl⟩
  | restarts e hfind hwill hgranted hw =>
      exact hw ▸ ⟨(h.recorded ref).started e.args (h.index_lt ref e hfind)
        (h.free_of_dropped hfind), rfl⟩
  | exceeded e hfind hwill hrefused hhalted htimes =>
      exact ⟨(h.dropped ref).halted hhalted, hhalted.specification⟩

lemma Direct.withPhase {w : World Args} (h : Direct w) (phase : Phase) :
    Direct ({ w with phase := phase } : World Args) :=
  { h with }

/-- What a signal comes to: the end of the loop, nothing, or the handling of a termination. -/
inductive Visited (w : World Args) (sg : Signal) (w' : World Args) : Prop where
  | ended (hst : w.stopping = true) (hself : sg.source = w.self)
      (hw : w' = { w with phase := .ended })
  | nobody (hzero : sg.source = 0) (hw : w' = w)
  | handled (hvalid : sg.source.valid = true) (hh : Handled w sg.source sg.reason w')

lemma superviseVisitor_visited {w : World Args} (h : Direct w) (sg : Signal) :
    Post (superviseVisitor sg : SupM Args Unit) w (fun _ => Visited w sg)
      (fun _ => Refuses w sg.source sg.reason) :=
  superviseVisitor_cases (fun hst hself => .ended hst hself rfl)
    (fun hzero => .nobody hzero rfl) fun hvalid =>
    (handleTermination_handled h _ _).mono (fun _ _ => .handled hvalid) fun _ => id

/-- Stopping the supervisor suppresses every child it has left. -/
lemma Halted.view {w w' : World Args} {reason : ExitReason} (h : Halted reason w w')
    (hst : w.stopping = false) :
    w'.children.values.map ChildEntry.view =
      (w.children.values.map ChildEntry.view).map fun c => { c with suppressed := true } := by
  refine view_of_find? _ fun k => ?_
  have hcore := h.core k
  cases hf' : w'.children.find? k with
  | none =>
      rw [hf', Option.map_none, eq_comm, Option.map_eq_none_iff] at hcore
      rw [hcore]
      rfl
  | some e' =>
      rw [hf'] at hcore
      obtain ⟨e, he, heq⟩ := Option.map_eq_some_iff.mp hcore.symm
      have hi : e.specIndex = e'.specIndex := congrArg Prod.fst heq
      have hargs : e.args = e'.args := congrArg (fun p => p.2.2) heq
      simp [he, ChildEntry.view, hi, hargs, h.suppress hst k e' hf']

/-- What the handling of a signal is in the reference semantics. -/
lemma Handled.simulates {s t : System Args} {ref : ActorRef} {reason : ExitReason}
    (h : Direct s.world) (hst : s.world.stopping = false)
    (hh : Handled s.world ref reason t.world) :
    Reference.Step s.world.specification (reference s)
        (match s.world.children.find? ref with
          | none => .ignored
          | some e => .terminated e.view reason) (reference t) ∧
      (t.world.stopping = false → Direct t.world ∧
        ∀ k, k ≠ ref → k ≠ s.world.sched.nextActorId →
          t.world.children.find? k = s.world.children.find? k) ∧
      t.world.specification = s.world.specification := by
  have hrest : ∀ {e}, s.world.children.find? ref = some e → (reference s).children =
      e.view ::ₘ (s.world.children.erase ref).values.map ChildEntry.view := by
    intro e he
    rw [reference, OrdMap.values_erase he, Multiset.map_cons]
  have hreg := registerRestart_eq s.world
  obtain ⟨hdirect, hspec⟩ := hh.direct h
  cases hh with
  | unknown hfind hw =>
      rw [hfind, show reference t = reference s by rw [reference, reference, hw], hw]
      exact ⟨.ignored, fun _ => ⟨h, fun _ _ _ => rfl⟩, rfl⟩
  | exits e hfind hwill hw =>
      have href : reference t = { reference s with
          children := (s.world.children.erase ref).values.map ChildEntry.view } := by
        rw [reference, hw]
        rfl
      rw [hfind, href]
      refine ⟨.exits (hrest hfind) hwill, fun _ => ⟨hdirect, fun k hk _ => ?_⟩, hspec⟩
      rw [hw, dropped, OrdMap.find?_erase, if_neg hk]
  | restarts e hfind hwill hgranted hw =>
      -- a restart that is granted has been recorded
      have hmax : s.world.specification.intensity.maxRestarts ≠ 0 := by
        rw [granted, Bool.and_eq_true, decide_eq_true_eq] at hgranted
        exact hgranted.1
      rw [if_neg hmax, hgranted] at hreg
      have href : reference t = { reference s with
          children := ⟨e.view.specIndex, e.view.args, false⟩ ::ₘ
            (s.world.children.erase ref).values.map ChildEntry.view
          restartTimes := (Reference.registerRestart s.world.specification.intensity
            (reference s).restartTimes (reference s).time).1 } := by
        rw [reference, hw, view_started (h.recorded ref)]
        rw [show Reference.registerRestart s.world.specification.intensity
          (reference s).restartTimes (reference s).time = _ from hreg]
        rfl
      rw [hfind, href]
      refine ⟨.restarts (hrest hfind) hwill (congrArg Prod.snd hreg),
        fun _ => ⟨hdirect, fun k hk hnew => ?_⟩, hspec⟩
      have hold : (recorded s.world ref).children.find? k = s.world.children.find? k :=
        (OrdMap.find?_erase _ _ _).trans (if_neg hk)
      rw [hw]
      exact (find?_started _ _ _ _).trans ((if_neg hnew).trans hold)
  | exceeded e hfind hwill hrefused hhalted htimes =>
      rw [hrefused] at hreg
      have href : reference t = { reference s with
          children := ((s.world.children.erase ref).values.map ChildEntry.view).map fun c =>
            { c with suppressed := true }
          restartTimes := (Reference.registerRestart s.world.specification.intensity
            (reference s).restartTimes (reference s).time).1
          stopping := true } := by
        rw [reference, hhalted.view hst, htimes.1, htimes.2, hhalted.stopping]
        rw [show Reference.registerRestart s.world.specification.intensity
          (reference s).restartTimes (reference s).time = _ from hreg]
        rfl
      rw [hfind, href, hhalted.stopping]
      exact ⟨.exceeded (hrest hfind) hwill (congrArg Prod.snd hreg), fun hf => absurd hf (by simp),
        hspec⟩

/-- The children of a spec after they have been asked to stop. -/
lemma stopAndSuppressByIndex_find? {w : World Args} (h : Direct w) (index : ℕ) :
    Post (stopAndSuppressByIndex index : SupM Args Unit) w
      (fun _ w' => Marked w w' ∧ w'.restartGroup = w.restartGroup ∧
        ∀ k, w'.children.find? k = (w.children.find? k).map fun e =>
          if e.specIndex = index then asked true e else e) (fun _ => True) := by
  rw [stopAndSuppressByIndex_eq, post_bind, post_get]
  refine (sweep_post true _ (w.children.nodup_keys.sublist
    (List.filter_sublist.map Prod.fst)) fun r hr => ?_).mono ?_ fun _ _ => trivial
  · obtain ⟨e, he, -⟩ := mem_refs_of_spec.mp hr
    refine ⟨fun heq => ?_, by simp [he]⟩
    exact absurd h.self_not_child (by rw [← heq, OrdMap.contains, he]; simp)
  · rintro _ w' ⟨hmark, hgroup, hfind, -⟩
    refine ⟨hmark, hgroup, fun k => ?_⟩
    rw [hfind]
    cases he : w.children.find? k with
    | none => simp
    | some e =>
        by_cases hi : e.specIndex = index
        · rw [if_pos (mem_refs_of_spec.mpr ⟨e, he, hi⟩), Option.map_some, Option.map_some,
            if_pos hi]
        · have hnot : k ∉ (w.children.entries.filter fun c =>
              decide (c.2.specIndex = index)).map Prod.fst := by
            intro hk
            obtain ⟨e', he', hi'⟩ := mem_refs_of_spec.mp hk
            obtain rfl := Option.some.inj (he.symm.trans he')
            exact hi hi'
          rw [if_neg hnot, Option.map_some, if_neg hi]

/-- The clock after a step of the environment. -/
lemma environment_now {s t : System Args} {l : Label Args} (h : step s l = some t)
    (henv : l.environment = true) :
    (∃ time, l = .advance time ∧ t.world.now = time) ∨
      ((∀ time, l ≠ .advance time) ∧ t.world.now = s.world.now) := by
  obtain ⟨w, hw, rfl⟩ := surrounding_of_step h henv
  cases hw with
  | advance time => exact Or.inl ⟨time, rfl, rfl⟩
  | exit | spawn | link | monitor => exact Or.inr ⟨by simp, rfl⟩

/-- A step of the environment at most moves the clock. -/
lemma environment_simulates {s t : System Args} {l : Label Args} (h : Direct s.world)
    (henv : l.environment = true) (hstep : step s l = some t) :
    Reference.Step s.world.specification (reference s) (observed s (.call l)) (reference t) ∧
      Direct t.world ∧ t.world.specification = s.world.specification := by
  have hnow := environment_now hstep henv
  obtain ⟨sched, now, rfl, hwf, hself, hnext⟩ :=
    step_environment hstep henv h.wellFormed h.registered_self
  refine ⟨?_, { h with wellFormed := hwf, registered_self := hself, child_lt := ?_ }, rfl⟩
  · rcases hnow with ⟨time, rfl, htime⟩ | ⟨hne, htime⟩
    · have htime' : now = time := htime
      rw [htime']
      exact .advance
    · have htime' : now = s.world.now := htime
      have hobs : observed s (.call l) = .ignored := by
        cases l with
        | advance time => exact absurd rfl (hne time)
        | exit | spawn | link | monitor => rfl
        | _ => cases henv
      rw [hobs, htime']
      exact .ignored
  · exact fun k hk => (h.child_lt k hk).trans_le hnext

/-- `start_child`. -/
lemma startChild_simulates {s t : System Args} {index : ℕ} {args : Option Args}
    (h : Direct s.world) (hstep : step s (.startChild index args) = some t) :
    Reference.Step s.world.specification (reference s) (observed s (.call (.startChild index args)))
      (reference t) ∧ Direct t.world ∧ t.world.specification = s.world.specification := by
  obtain ⟨x, hx, rfl⟩ := administers_of_step hstep rfl
  obtain ⟨rfl, hlt⟩ :
      x = startChild index args ∧ index < s.world.specification.children.length := by
    cases hx with
    | startChild _ _ hlt => exact ⟨rfl, hlt⟩
  have hspec : s.world.specification.children[index]? =
      some (s.world.specification.children[index]) := List.getElem?_eq_getElem hlt
  obtain ⟨a, ha⟩ : ∃ a, a = chosenArgs s.world (s.world.specification.children[index]) args :=
    ⟨_, rfl⟩
  have hperform : perform (startChild index args) s.world =
      { world := startedChild s.world index a } := by
    rw [ha, perform, startChild, startChildByIndex_run h.registered_self hspec args]
  simp only [observed, hspec]
  rw [hperform, ← ha]
  have hstart : s.world.specification.strategy = .simpleOneForOne ∨
      hasChild s.world index = false → Reference.Step s.world.specification (reference s)
        (.start index a) (reference { world := started s.world index a }) ∧
        Direct (started s.world index a) ∧
        (started s.world index a).specification = s.world.specification := by
    intro hfree
    have href : reference { world := started s.world index a } = { reference s with
        children := ⟨index, a, false⟩ ::ₘ (reference s).children } := by
      rw [reference, view_started h]
      rfl
    rw [href]
    refine ⟨.starts (hfree.imp id fun hnone c hc hi => ?_), h.started a hlt fun hone => ?_, rfl⟩
    · have hc' : c ∈ s.world.children.values.map ChildEntry.view := hc
      obtain ⟨e, he, rfl⟩ := Multiset.mem_map.mp hc'
      obtain ⟨k, hk⟩ := OrdMap.mem_values.mp he
      rw [hasChild_iff.mpr ⟨k, e, hk, hi⟩] at hnone
      cases hnone
    · exact hfree.resolve_left (by rw [hone]; simp)
  rw [startedChild]
  split
  · rename_i hsimple
    exact hstart (Or.inl hsimple)
  · rename_i hstatic
    split
    · rename_i ref hfound
      refine ⟨.running hstatic ?_, h, rfl⟩
      have hchild : hasChild s.world index = true := by
        by_contra hno
        rw [Bool.not_eq_true, ← findRunningChildForSpec_eq_none, hfound] at hno
        cases hno
      obtain ⟨k, e, he, hi⟩ := hasChild_iff.mp hchild
      exact ⟨e.view, Multiset.mem_map_of_mem _ (OrdMap.mem_values.mpr ⟨k, he⟩), hi⟩
    · rename_i hnone
      exact hstart (Or.inr (findRunningChildForSpec_eq_none.mp hnone))

/-- What `stop_and_suppress_by_index` does to the children, seen from outside. -/
lemma view_stopped {w w' : World Args} {index : ℕ}
    (hfind : ∀ k, w'.children.find? k = (w.children.find? k).map fun e =>
      if e.specIndex = index then asked true e else e) :
    w'.children.values.map ChildEntry.view = (w.children.values.map ChildEntry.view).map fun c =>
      if c.specIndex = index then { c with suppressed := true } else c := by
  refine view_of_find? _ fun k => ?_
  rw [hfind]
  cases w.children.find? k with
  | none => rfl
  | some e =>
      simp only [Option.map_some, Option.some.injEq]
      by_cases hi : e.specIndex = index
      · simp [hi, ChildEntry.view, asked]
      · simp [hi, ChildEntry.view]

/-- A marking leaves the invariant. -/
lemma Direct.marked {w w' : World Args} (h : Direct w) (hm : Marked w w')
    (hgroup : w'.restartGroup = w.restartGroup) : Direct w' :=
  h.shrink hm.specification hm.self hm.registered hm.nextActorId hgroup fun _ _ he' =>
    find?_of_core hm.core he'

/-- `stop_child` and `delete_child`. -/
lemma stopChild_simulates {s t : System Args} {index : ℕ} (h : Direct s.world)
    (hstep : step s (.stopChild index) = some t) (hr : t.raised = false) :
    Reference.Step s.world.specification (reference s) (.stopChild index) (reference t) ∧
      Direct t.world ∧ t.world.specification = s.world.specification := by
  obtain ⟨x, hx, rfl⟩ := administers_of_step hstep rfl
  cases hx
  obtain ⟨hmark, hgroup, hfind⟩ := post_of_perform (stopAndSuppressByIndex_find? h index) hr
  have href : reference (perform (stopChild index) s.world) = { reference s with
      children := (reference s).children.map fun c =>
        if c.specIndex = index then { c with suppressed := true } else c } := by
    rw [reference, reference, stopChild, view_stopped hfind, hmark.restartTimes, hmark.now,
      hmark.stopping]
  rw [href]
  exact ⟨.stopChild, h.marked hmark hgroup, hmark.specification⟩

/-- The world without the children of a spec. -/
def deleted (w : World Args) (index : ℕ) : World Args :=
  { w with children := w.children.filter fun _ c => decide (c.specIndex ≠ index) }

lemma deleteChild_simulates {s t : System Args} {index : ℕ} (h : Direct s.world)
    (hstep : step s (.deleteChild index) = some t) (hr : t.raised = false) :
    Reference.Step s.world.specification (reference s) (.deleteChild index) (reference t) ∧
      Direct t.world ∧ t.world.specification = s.world.specification := by
  obtain ⟨x, hx, rfl⟩ := administers_of_step hstep rfl
  cases hx
  have hpost : Post (deleteChild index : SupM Args Unit) s.world
      (fun _ w' => ∃ v, w' = deleted v index ∧ Marked s.world v ∧
        v.restartGroup = s.world.restartGroup ∧
        ∀ k, v.children.find? k = (s.world.children.find? k).map fun e =>
          if e.specIndex = index then asked true e else e) (fun _ => True) := by
    rw [deleteChild, post_bind]
    refine (stopAndSuppressByIndex_find? h index).mono (fun _ v hv => ?_) fun _ => id
    exact post_modify.mpr ⟨v, rfl, hv⟩
  obtain ⟨v, hw, hmark, hgroup, hfind⟩ := post_of_perform hpost hr
  have hchildren : (deleted v index).children = (deleted s.world index).children := by
    refine OrdMap.ext fun k => ?_
    rw [deleted, deleted, OrdMap.find?_filter, OrdMap.find?_filter, hfind]
    cases s.world.children.find? k with
    | none => rfl
    | some e =>
        by_cases hi : e.specIndex = index
        · simp [Option.filter, hi, asked]
        · simp [hi]
  have href : reference (perform (deleteChild index) s.world) = { reference s with
      children := (reference s).children.filter fun c => c.specIndex ≠ index } := by
    have hvalues : (deleted s.world index).children.values =
        s.world.children.values.filter fun e => e.specIndex ≠ index := by
      rw [deleted, OrdMap.values_filter]
      simp only [decide_eq_true_eq]
    have htimes : (deleted v index).restartTimes = s.world.restartTimes := hmark.restartTimes
    have hnow : (deleted v index).now = s.world.now := hmark.now
    have hstop : (deleted v index).stopping = s.world.stopping := hmark.stopping
    rw [reference, hw, hchildren, hvalues, htimes, hnow, hstop]
    simp only [reference, Multiset.filter_map]
    rfl
  rw [href, hw]
  refine ⟨.deleteChild, (h.marked hmark hgroup).shrink rfl rfl (fun _ => rfl) rfl rfl
    fun k e he => ⟨e, ?_, rfl⟩, hmark.specification⟩
  rw [deleted, OrdMap.find?_filter] at he
  exact (Option.filter_eq_some_iff.mp he).1

/-- A signal, from whatever source. -/
lemma signal_simulates {s t : System Args} {sg : Signal} (h : Direct s.world)
    (hst : s.world.stopping = false) (hstep : Input.step s (.signal sg) = some t)
    (hr : t.raised = false) :
    Reference.Step s.world.specification (reference s) (observed s (.signal sg)) (reference t) ∧
      (t.world.stopping = false → Direct t.world ∧
        ∀ k, k ≠ sg.source → k ≠ s.world.sched.nextActorId →
          t.world.children.find? k = s.world.children.find? k) ∧
      t.world.specification = s.world.specification := by
  simp only [Input.step, Option.ite_none_left_eq_some] at hstep
  obtain rfl := Option.some.inj hstep.2
  have hv := post_of_perform (superviseVisitor_visited h sg) hr
  cases hv with
  | ended hst' hself hw =>
      rw [hst] at hst'
      cases hst'
  | nobody hzero hw =>
      have hinvalid : sg.source.valid = false := by simp [ActorRef.valid, hzero]
      simp only [observed, hinvalid, if_false, Bool.false_eq_true]
      rw [show reference (perform (superviseVisitor sg) s.world) = reference s by
        rw [reference, reference, hw], hw]
      exact ⟨.ignored, fun _ => ⟨h, fun _ _ _ => rfl⟩, rfl⟩
  | handled hvalid hh =>
      simp only [observed, hvalid, if_true]
      exact hh.simulates h hst

/-! ### Whole runs -/

/-- The invariant, until the supervisor stops. -/
structure Refining (spec : Specification Args) (s : System Args) : Prop where
  specification : s.world.specification = spec
  direct : s.world.stopping = false → Direct s.world

lemma Refining.step {spec : Specification Args} {s t : System Args} {i : Input Args}
    (h : Refining spec s) (hok : Quiet s i) (hstep : Input.step s i = some t) :
    Reference.Step spec (reference s) (observed s i) (reference t) ∧ Refining spec t := by
  obtain ⟨hst, hquiet⟩ := hok
  have hr : t.raised = false := by simpa [hstep] using hquiet
  have hdirect := h.direct hst
  have hfinish : ∀ {e}, (Reference.Step s.world.specification (reference s) e (reference t) ∧
      Direct t.world ∧ t.world.specification = s.world.specification) →
      Reference.Step spec (reference s) e (reference t) ∧ Refining spec t := by
    rintro e ⟨hs, hd, hspec⟩
    exact ⟨h.specification ▸ hs, hspec.trans h.specification, fun _ => hd⟩
  cases i with
  | signal sg =>
      obtain ⟨hs, hd, hspec⟩ := signal_simulates hdirect hst hstep hr
      exact ⟨h.specification ▸ hs, hspec.trans h.specification, fun hst' => (hd hst').1⟩
  | call l =>
      simp only [Input.step, Option.ite_none_right_eq_some] at hstep
      obtain ⟨hl, hstep⟩ := hstep
      by_cases henv : l.environment = true
      · exact hfinish (environment_simulates hdirect henv hstep)
      cases l with
      | startChild index args => exact hfinish (startChild_simulates hdirect hstep)
      | stopChild index => exact hfinish (stopChild_simulates hdirect hstep hr)
      | deleteChild index => exact hfinish (deleteChild_simulates hdirect hstep hr)
      | _ => simp_all [Label.childCall, Label.environment]

lemma direct_create {sched : SchedulerBase} (hwf : sched.WellFormed) {spec : Specification Args}
    (hstrategy : spec.strategy = .oneForOne ∨ spec.strategy = .simpleOneForOne) :
    Direct (create sched spec).world := by
  refine ⟨hstrategy, hwf.spawnImpl 0 0, ?_, rfl, ?_, ?_, ?_, rfl⟩
  · exact (SchedulerBase.contains_spawnImpl _ _ _ _).trans (by simp [create])
  · intro k hk
    cases hk
  · intro k e he
    cases he
  · intro _ k k' e e' he
    cases he

/-- Every run of a supervisor that restarts children on their own, up to its first `stop`, is a
run of the reference semantics. In the state it leads to, a signal touches the entry of the
child it names, and besides it at most that of a fresh one. -/
theorem one_for_one_refines {sched : SchedulerBase} (hwf : sched.WellFormed)
    {spec : Specification Args}
    (hstrategy : spec.strategy = .oneForOne ∨ spec.strategy = .simpleOneForOne)
    {inputs : List (Input Args)} {s : System Args}
    (hrun : run Input.step (create sched spec) inputs = some s)
    (hquiet : AllSteps Input.step Quiet (create sched spec) inputs) :
    Traces (Reference.Step spec) {} (observations Input.step observed (create sched spec) inputs)
        (reference s) ∧
      ∀ sg t, Quiet s (.signal sg) → Input.step s (.signal sg) = some t →
        t.world.stopping = false → ∀ k, k ≠ sg.source → k ≠ s.world.sched.nextActorId →
          t.world.children.find? k = s.world.children.find? k := by
  have hinit : Refining spec (create sched spec) := ⟨rfl, fun _ => direct_create hwf hstrategy⟩
  refine ⟨simulation (fun s i t h hok hstep => h.step hok hstep) hinit hquiet hrun, ?_⟩
  intro sg t hok hstep hst k hk hnew
  have hs : Refining spec s :=
    invariant (fun s i t h hok hstep => (h.step hok hstep).2) hinit hquiet hrun
  have hr : t.raised = false := by simpa [hstep] using hok.2
  exact ((signal_simulates (hs.direct hok.1) hok.1 hstep hr).2.1 hst).2 k hk hnew

/-- Children started on demand, with a number as their argument. -/
def onDemand : Specification ℕ where
  strategy := .simpleOneForOne
  intensity := { maxRestarts := 3, within := 10 }
  children := [{ args := 0, defaultArgs := 0 }]

/-- Two instances of one spec; the first one fails, and its signal comes twice. -/
def failsTwice : List (Input ℕ) :=
  [.call (.startChild 0 (some 7)), .call (.startChild 0 (some 8)), .call (.advance 4),
    .signal (.down 2 .error), .signal (.exit 2 .error), .signal (.down 0 .error)]

/-- The child that has failed is replaced once. -/
theorem one_for_one_refines_failsTwice :
    ∃ s, run Input.step (create {} onDemand) failsTwice = some s ∧
      s.world.children.entries.map (fun c => (c.1, c.2.args)) = [(3, 8), (4, 7)] ∧
      Traces (Reference.Step onDemand) {}
        (observations Input.step observed (create {} onDemand) failsTwice) (reference s) :=
  have hrun := run_eq_reached (by decide +kernel)
  ⟨_, hrun, by decide +kernel, (one_for_one_refines ⟨by decide, fun k hk => by cases hk⟩
    (Or.inr rfl) hrun (by decide +kernel)).1⟩

end Supervisor

end Agner
