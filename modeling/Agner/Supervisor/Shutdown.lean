import Agner.Supervisor.Departures
import Agner.Supervisor.PermanentChildren

/-!
Shutting a supervisor down.

`stop` visits the children that are in `children_` at that moment, once: a second call only
enqueues the supervisor's own exit signal again. Neither the handling of a termination nor
the operations that start children look at `stopping_`.

* `Closed`: what the first `stop` leaves behind when it returns.
* `Settled`: no group is active, and no child that is left would be restarted.
* `no_restart_during_shutdown`: after a `stop` that was the first one, or that was called in a
  settled state, no signal spawns a child or begins or finalizes a restart group.
* `Closing`: a supervisor that is stopping has been closed. What the operations do to that.
-/

namespace Agner

open Raising Runs

namespace Supervisor

variable {Args : Type}

/-! ### The sweep of the first `stop` -/

/-- All the children named by `K` are quelled. -/
def QuelledOn (K : ActorRef → Prop) (w : World Args) : Prop := ∀ k, K k → Quelled w k

lemma stable_quelledOn (K : ActorRef → Prop) : Stable (QuelledOn K : World Args → Prop) :=
  fun w _ hl h k hk e he => h k hk e (taken_children w hl ▸ he)

section Sweeps

variable {inner : Site → Code Args} (hforeign : Foreign inner)

include hforeign

/-- Asking a child to stop disturbs nobody who is quelled. -/
lemma suppressAndStop_quelledOn (K : ActorRef → Prop) (ref : ActorRef) :
    Preserves (QuelledOn K)
      (do setSuppress ref true; Reacting.requestStop inner ref : SupM Args Unit) := by
  refine Preserves.bind (Preserves.modify fun w h k hk => ?_) fun _ =>
    requestStop_preserves hforeign (stable_quelledOn K) (fun w r h k hk => ?_) (fun _ _ h => h) ref
  · exact quelled_modify (h k hk) ref fun _ hst _ => ⟨hst, rfl⟩
  · exact quelled_modify (h k hk) r fun _ _ hs => ⟨rfl, hs⟩

/-- It quells the child itself. -/
lemma suppressAndStop_quells_self (w : World Args) (ref : ActorRef) :
    Post (do setSuppress ref true; Reacting.requestStop inner ref : SupM Args Unit) w
      (fun _ w' => Quelled w' ref) (fun _ => True) := by
  rw [post_bind, setSuppress, post_modify, Reacting.requestStop, post_bind, post_get]
  simp only [OrdMap.find?_modify, if_true]
  cases hf : w.children.find? ref with
  | none => exact post_throw.mpr trivial
  | some c =>
      simp only [Option.map_some]
      split
      · rename_i hst
        refine post_pure.mpr fun e he => ?_
        rw [OrdMap.find?_modify, if_pos rfl, hf] at he
        obtain rfl := Option.some.inj he
        exact ⟨hst, rfl⟩
      · rw [post_bind, post_set]
        refine (schedulerStop_preserves hforeign (stable_quelledOn (· = ref)) ref .stopped
          (fun _ h => h) _ ?_).mono (fun _ _ h => h ref rfl) fun _ _ => trivial
        rintro _ rfl e he
        simp only [OrdMap.find?_modify, if_true, hf, Option.map_some, Option.some.injEq] at he
        rw [← he]
        exact ⟨rfl, rfl⟩

lemma sweep_quells_all (l : List (ActorRef × ChildEntry Args)) (w : World Args) :
    Post (l.forM fun child =>
        (do setSuppress child.1 true; Reacting.requestStop inner child.1 : SupM Args Unit)) w
      (fun _ w' => ∀ child ∈ l, Quelled w' child.1) (fun _ => True) := by
  refine (post_forM (E := fun _ => True) (fun done _ => QuelledOn (· ∈ done.map Prod.fst)) ?_ l w
    ?_).mono (fun _ w' h child hc => h _ (List.mem_map_of_mem hc)) fun _ _ => trivial
  · intro done child rest w' hdone
    have hkeep := suppressAndStop_quelledOn hforeign _ child.1 w' hdone
    refine ((suppressAndStop_quells_self hforeign w' child.1).and hkeep).mono ?_
      fun _ _ => trivial
    rintro _ w'' ⟨hself, hrest⟩ k hk
    rw [List.map_append, List.mem_append] at hk
    rcases hk with hk | hk
    · exact hrest k hk
    · rw [List.mem_singleton.mp hk]
      exact hself
  · intro k hk
    cases hk

/-- The same children are left, of the same specs. -/
lemma suppressAndStop_core (w₀ : World Args) : Sweeping inner fun w =>
    ∀ k, (w.children.find? k).map ChildEntry.core = (w₀.children.find? k).map ChildEntry.core where
  suppress ref b := Preserves.modify fun w h k =>
    ((marked_modify w ref (fun c => { c with suppressRestart := b }) fun _ => rfl).core k).trans
      (h k)
  requestStop := requestStop_preserves hforeign
    (fun w _ hl h k => by rw [taken_children w hl]; exact h k)
    (fun w ref h k => ((marked_modify w ref (fun c => { c with stopping := true })
      fun _ => rfl).core k).trans (h k)) fun _ _ h => h
  group _ _ h := h

lemma stopAllChildren_quells (w : World Args) :
    Post (Reacting.stopAllChildren inner) w (fun _ w' => ∀ k, Quelled w' k) (fun _ => True) := by
  have hcore := (suppressAndStop_core hforeign w).stopAllChildren w fun _ => rfl
  rw [Reacting.stopAllChildren, post_bind, post_get] at hcore ⊢
  refine ((sweep_quells_all hforeign _ w).and hcore).mono ?_ fun _ _ => trivial
  rintro _ w' ⟨hall, hsame⟩ k e he
  have hc : w.children.contains k = true := by
    rw [← contains_of_core hsame]
    exact OrdMap.contains_iff.mpr ⟨e, he⟩
  obtain ⟨e₀, he₀⟩ := OrdMap.contains_iff.mp hc
  exact hall (k, e₀) (OrdMap.mem_entries_iff.mpr he₀) e he

/-- After `stop_and_suppress_by_index` every child of the spec is quelled. -/
lemma stopAndSuppressByIndex_quells_spec (w : World Args) (index : ℕ) :
    Post (Reacting.stopAndSuppressByIndex inner index) w
      (fun _ w' => ∀ k e, w'.children.find? k = some e → e.specIndex = index →
        e.stopping = true ∧ e.suppressRestart = true) (fun _ => True) := by
  have hcore := (suppressAndStop_core hforeign w).stopAndSuppressByIndex index w fun _ => rfl
  rw [Reacting.stopAndSuppressByIndex, post_bind, post_get, forM_ite] at hcore ⊢
  refine ((sweep_quells_all hforeign _ w).and hcore).mono ?_ fun _ _ => trivial
  rintro _ w' ⟨hall, hsame⟩ k e he hi
  have hk := hsame k
  rw [he] at hk
  obtain ⟨e₀, he₀, hcore⟩ := Option.map_eq_some_iff.mp hk.symm
  have hi₀ : e₀.specIndex = e.specIndex := congrArg Prod.fst hcore
  refine hall (k, e₀) (List.mem_filter.mpr ⟨OrdMap.mem_entries_iff.mpr he₀, ?_⟩) e he
  exact decide_eq_true (hi₀.trans hi)

end Sweeps

/-- What the first `stop` leaves behind when it returns. -/
structure Closed (w : World Args) : Prop where
  stopping : w.stopping = true
  group : w.restartGroup = none
  quelled : ∀ k, Quelled w k

lemma stop_closes {inner : Site → Code Args} (hforeign : Foreign inner) {w : World Args}
    (reason : ExitReason) (hst : w.stopping = false) :
    Post (Reacting.stop inner reason) w (fun _ w' => Closed w' ∧ w'.phase = w.phase)
      (fun _ => True) := by
  rw [Reacting.stop, post_bind, post_get]
  simp only [hst, Bool.false_eq_true, if_false, post_bind, post_set]
  have hlasting : Lasting fun w' : World Args => w'.stopping = true ∧ w'.phase = w.phase :=
    ⟨fun _ _ _ _ _ _ h => h, fun _ _ _ h => h⟩
  have hkeep := (hlasting.robust hforeign).stopAllChildren { w with stopping := true } ⟨rfl, rfl⟩
  refine ((stopAllChildren_quells hforeign _).and hkeep).mono ?_ fun _ _ => trivial
  rintro _ w' ⟨hq, hs, hp⟩
  rw [post_modify, baseStop, post_modify]
  exact ⟨⟨hs, rfl, hq⟩, hp⟩

/-- A further call of `stop` while the supervisor is stopping. -/
lemma stop_again {inner : Site → Code Args} {w : World Args} (reason : ExitReason)
    (h : w.stopping = true) :
    Post (Reacting.stop inner reason) w
      (fun _ w' => ∃ sched, w' = { w with exitReason := some reason, sched := sched })
      (fun _ => False) := by
  rw [Reacting.stop, post_bind, post_get]
  simp only [h, if_true, baseStop, post_modify]
  exact ⟨_, rfl⟩

/-! ### Signals after the shutdown -/

/-- A restart is due for the termination of `ref`: `handle_termination` calls `register_restart`,
and then restarts the child or begins a group if the intensity allows it. -/
def due (w : World Args) (ref : ActorRef) (reason : ExitReason) : Bool :=
  w.restartGroup.isNone && (w.children.find? ref).any fun e => !e.suppressRestart &&
    shouldRestart (restartAtSpecIndex w.specification e.specIndex) reason

/-- No group is active, and every child left is suppressed, or of a spec that is never
restarted. -/
def Settled (w : World Args) : Prop :=
  w.restartGroup = none ∧ ∀ child ∈ w.children.entries, child.2.suppressRestart = true ∨
    restartAtSpecIndex w.specification child.2.specIndex = .temporary

/-- What may happen once the shutdown has begun. -/
inductive Sequel (Args : Type) where
  /-- A signal from anyone reaches a visitor of `supervise_loop`. -/
  | signal (sg : Signal) (codes : List (Site × Code Args))
  /-- The other actors, the registry and the clock change in any way. -/
  | elsewhere (sched : SchedulerBase) (now : ℤ)

/-- The effect of what happens after the shutdown; nothing more is handled once a visitor has
raised. -/
def Sequel.step (s : System Args) : Sequel Args → Option (System Args)
  | .signal sg codes =>
      if s.raised then none
      else some (perform (Reacting.superviseVisitor (codeAt codes) sg) s.world)
  | .elsewhere sched now => some { s with world := { s.world with sched := sched, now := now } }

/-- The supervisor is stopping in a settled state. -/
structure Shut (w : World Args) : Prop where
  stopping : w.stopping = true
  settled : Settled w

lemma Closed.shut {w : World Args} (h : Closed w) : Shut w := by
  refine ⟨h.stopping, h.group, fun child hchild => Or.inl ?_⟩
  exact (h.quelled child.1 child.2 (OrdMap.mem_entries_iff.mp hchild)).2

lemma Shut.of_sub {w w' : World Args} (h : Shut w) (hstop : w'.stopping = w.stopping)
    (hgroup : w'.restartGroup = w.restartGroup) (hspec : w'.specification = w.specification)
    (hsub : ∀ k e, w'.children.find? k = some e → w.children.find? k = some e) : Shut w' := by
  refine ⟨hstop.trans h.stopping, hgroup.trans h.settled.1, fun child hchild => ?_⟩
  rw [hspec]
  refine h.settled.2 child (OrdMap.mem_entries_iff.mpr ?_)
  exact hsub _ _ (OrdMap.mem_entries_iff.mp hchild)

/-- No restart is due. -/
lemma Shut.not_due {w : World Args} (h : Shut w) {ref : ActorRef} {e : ChildEntry Args}
    (he : w.children.find? ref = some e) (reason : ExitReason) :
    (!e.suppressRestart &&
      shouldRestart (restartAtSpecIndex w.specification e.specIndex) reason) = false := by
  rcases h.settled.2 (ref, e) (OrdMap.mem_entries_iff.mpr he) with hs | ht
  · have hs' : e.suppressRestart = true := hs
    simp [hs']
  · have ht' : restartAtSpecIndex w.specification e.specIndex = .temporary := ht
    simp [ht', shouldRestart]

lemma Shut.due {w : World Args} (h : Shut w) (ref : ActorRef) (reason : ExitReason) :
    due w ref reason = false := by
  rw [Supervisor.due]
  cases he : w.children.find? ref with
  | none => simp
  | some e => simp only [Option.any_some, h.not_due he reason, Bool.and_false]

/-- A termination in a settled state takes the child out of `children_` and does no more. -/
lemma handleTermination_shut {inner : Site → Code Args} {w : World Args} (h : Shut w)
    (ref : ActorRef) (reason : ExitReason) :
    Post (Reacting.handleTermination inner ref reason) w (fun _ w' => w' = dropped w ref)
      (fun _ => False) := by
  rw [Reacting.handleTermination, post_bind, post_get]
  have hgroup : w.restartGroup.isSome = false := by rw [h.settled.1, Option.isSome_none]
  simp only [hgroup, Bool.false_eq_true, if_false]
  cases he : w.children.find? ref with
  | none => exact post_pure.mpr (dropped_eq he).symm
  | some e =>
      simp only [post_bind, post_set, h.not_due he reason, Bool.false_eq_true, if_false]
      exact post_pure.mpr rfl

lemma superviseVisitor_shut {inner : Site → Code Args} {w : World Args} (h : Shut w)
    (sg : Signal) :
    Post (Reacting.superviseVisitor inner sg) w
      (fun _ w' => Shut w' ∧ w'.spawned = w.spawned) (fun _ => False) := by
  refine Reacting.superviseVisitor_cases (fun _ _ => ⟨h.of_sub rfl rfl rfl fun _ _ => id, rfl⟩)
    (fun _ => ⟨h, rfl⟩) fun _ => ?_
  refine (handleTermination_shut h sg.source sg.reason).mono ?_ fun _ => id
  rintro _ w' rfl
  exact ⟨h.of_sub rfl rfl rfl fun k e he => (find?_erase_some he).2, rfl⟩

/-- No event after the shutdown spawns or restarts anything. -/
lemma Shut.event {s t : System Args} {e : Sequel Args} (h : Shut s.world) (hr : s.raised = false)
    (hstep : Sequel.step s e = some t) :
    t.raised = false ∧ Shut t.world ∧ t.world.spawned = s.world.spawned := by
  cases e with
  | signal sg codes =>
      simp only [Sequel.step, hr, Bool.false_eq_true, if_false] at hstep
      obtain rfl := Option.some.inj hstep
      rcases perform_eq_of_post (superviseVisitor_shut h sg) with ⟨hr', h'⟩ | ⟨-, h'⟩
      · exact ⟨hr', h'⟩
      · exact h'.elim
  | elsewhere sched now =>
      obtain rfl := Option.some.inj hstep
      exact ⟨hr, h.of_sub rfl rfl rfl fun _ _ => id, rfl⟩

/-- The states in which a call of `stop` returns are shut, if it is the first call or the state
is settled. -/
lemma shut_of_stop {inner : Site → Code Args} (hforeign : Foreign inner) {w : World Args}
    (reason : ExitReason) (h : w.stopping = false ∨ Settled w) :
    Post (Reacting.stop inner reason) w (fun _ w' => Shut w') (fun _ => True) := by
  cases hst : w.stopping with
  | false => exact (stop_closes hforeign reason hst).mono (fun _ w' h' => h'.1.shut) fun _ => id
  | true =>
      have hset : Settled w := h.resolve_left (by simp [hst])
      refine (stop_again reason hst).mono ?_ fun _ _ => trivial
      rintro _ w' ⟨sched, rfl⟩
      exact Shut.of_sub ⟨hst, hset⟩ rfl rfl rfl fun _ _ => id

/-- A call of `stop` that is not made inside another operation, that returns, and that was the
first one or was made in a settled state: whatever signals follow, no child is spawned, no group
is active, and no restart is due for any termination. -/
theorem no_restart_during_shutdown {w w' : World Args} {reason : ExitReason}
    {codes : List (Site × Code Args)} (hforeign : (codes.all fun c => c.2.foreign) = true)
    (hcall : (Reacting.stop (codeAt codes) reason).run w = .ok () w')
    (hfirst : w.stopping = false ∨ Settled w)
    {sequel : List (Sequel Args)} {s : System Args}
    (hrun : run Sequel.step { world := w' } sequel = some s) :
    s.raised = false ∧ s.world.spawned = w'.spawned ∧ s.world.restartGroup = none ∧
      ∀ ref reason, due s.world ref reason = false := by
  have hshut : Shut w' := by
    have hpost := shut_of_stop (foreign_codeAt hforeign) reason hfirst
    rw [Post, hcall] at hpost
    exact hpost
  have hinv : s.raised = false ∧ Shut s.world ∧ s.world.spawned = w'.spawned := by
    refine invariant_of_step (P := fun s => s.raised = false ∧ Shut s.world ∧
      s.world.spawned = w'.spawned) (fun s e t hs hstep => ?_) ⟨rfl, hshut, rfl⟩ hrun
    obtain ⟨hr, ht, hspawned⟩ := hs.2.1.event hs.1 hstep
    exact ⟨hr, ht, hspawned.trans hs.2.2⟩
  exact ⟨hinv.1, hinv.2.2, hinv.2.1.settled.1, hinv.2.1.due⟩

/-- Both children of the group have been asked to stop when the supervisor is stopped. -/
def duringGroupRestart : List (Deed Unit) :=
  [.initNext [], .initNext [], .initNext [], .exit 2 .error, .tell, .receive true []]

/-- The state after them. -/
def groupRestarting : World Unit :=
  (reached Family.step (Family.create {} twoPermanent) duringGroupRestart).world

/-- The visitor of the child that has been asked spawns an actor. -/
theorem no_restart_during_shutdown_group :
    groupRestarting.restartGroup.isSome = true ∧
      ∃ w' s, (Reacting.stop (codeAt [(.stopped 3, .takes (.spawn 0 0) .returns)])
          .normal).run groupRestarting = .ok () w' ∧
        run Sequel.step { world := w' } [.elsewhere (w'.sched.collectAndErase 3) 5,
          .signal (.down 3 .stopped) [], .signal (.exit 7 .error) []] = some s ∧
        s.world.spawned = w'.spawned :=
  have hrun := run_of_perform (by decide +kernel)
  have hevents := run_eq_reached (by decide +kernel)
  ⟨by decide +kernel, _, _, hrun, hevents,
    (no_restart_during_shutdown rfl hrun (Or.inl (by decide +kernel)) hevents).2.1⟩

/-- One permanent child. -/
def onePermanent : Specification Unit where
  intensity := { maxRestarts := 3, within := 10 }
  children := [{ args := (), defaultArgs := () }]

/-- The child is stopped and has exited, the supervisor is stopped, and the child is freed for
a restart before its exit has been seen. -/
def freedWhileStopping : List (Deed Unit) :=
  [.initNext [], .initNext [], .call (.stopChild 0) [], .exit 2 .stopped, .tell,
    .call (.stop .normal) [], .call (.restartChild 0) []]

/-- The state after them. -/
def freed : World Unit :=
  (reached Family.step (Family.create {} onePermanent) freedWhileStopping).world

/-- A second `stop` returns, and the exit of the child it did not visit is answered with a
restart. -/
theorem restart_after_second_stop :
    ∃ s₀ w' s, run Family.step (Family.create {} onePermanent) freedWhileStopping = some s₀ ∧
      (Reacting.stop (codeAt []) .normal).run s₀.world = .ok () w' ∧
      run Sequel.step { world := w' } [.signal (.down 2 .stopped) []] = some s ∧
      s.world.spawned ≠ w'.spawned :=
  ⟨_, _, _, run_eq_reached (by decide +kernel),
    run_of_perform (w := freed) (by decide +kernel), run_eq_reached (by decide +kernel),
    by decide +kernel⟩

/-! ### Operations of a supervisor that is not stopping -/

/-- The supervisor has not begun to stop. -/
def Running (w : World Args) : Prop := w.stopping = false ∧ w.phase ≠ .ended

lemma lasting_running : Lasting (Running : World Args → Prop) :=
  ⟨fun _ _ _ _ _ _ h => h, fun _ _ _ h => h⟩

/-- A restart is granted, or the supervisor stops itself. -/
lemma registerRestart_running {inner : Site → Code Args} (hforeign : Foreign inner)
    {w : World Args} (h : Running w) :
    Post (Reacting.registerRestart inner) w (fun ok w' => if ok then Running w' else Closed w')
      (fun _ => True) := by
  rw [Reacting.registerRestart, post_bind, post_get]
  split
  · rw [post_bind]
    refine (stop_closes hforeign .error h.1).mono (fun _ w' h' => ?_) fun _ => id
    exact post_pure.mpr h'.1
  · rw [post_bind, post_set]
    split
    · rw [post_bind]
      refine (stop_closes hforeign (w := { w with restartTimes := windowTimes w }) .error h.1).mono
        (fun _ w' h' => ?_) fun _ => id
      exact post_pure.mpr h'.1
    · exact post_pure.mpr h

/-! ### Nobody is forgotten -/

/-- A supervisor that is stopping has been closed by its first `stop`, and one that has ended is
stopping. -/
structure Closing (w : World Args) : Prop where
  closed : w.stopping = true → Closed w
  ended : w.phase = .ended → w.stopping = true

lemma Running.closing {w : World Args} (h : Running w) : Closing w :=
  ⟨fun hst => absurd hst (by simp [h.1]), fun hp => absurd hp h.2⟩

lemma Closed.closing {w : World Args} (h : Closed w) : Closing w :=
  ⟨fun _ => h, fun _ => h.stopping⟩

lemma Closing.running {w : World Args} (h : Closing w) (hst : w.stopping = false) : Running w :=
  ⟨hst, fun hp => absurd (h.ended hp) (by simp [hst])⟩

/-- Changes of members that the invariant does not mention, and of entries that stay quelled. -/
lemma Closing.of_quelled {w w' : World Args} (h : Closing w) (hstop : w'.stopping = w.stopping)
    (hgroup : w'.restartGroup = w.restartGroup) (hphase : w'.phase = .ended → w.phase = .ended)
    (hq : ∀ k, Quelled w k → Quelled w' k) : Closing w' := by
  refine ⟨fun hst => ?_, fun hp => hstop.trans (h.ended (hphase hp))⟩
  have hc := h.closed (hstop.symm.trans hst)
  exact ⟨hst, hgroup.trans hc.group, fun k => hq k (hc.quelled k)⟩

/-- Removing entries. -/
lemma Closing.of_sub {w w' : World Args} (h : Closing w) (hstop : w'.stopping = w.stopping)
    (hgroup : w'.restartGroup = w.restartGroup) (hphase : w'.phase = .ended → w.phase = .ended)
    (hsub : ∀ k e, w'.children.find? k = some e → w.children.find? k = some e) : Closing w' :=
  h.of_quelled hstop hgroup hphase fun k hk e he => hk e (hsub k e he)

lemma stable_closing : Stable (Closing : World Args → Prop) := fun w l hl h => by
  obtain ⟨sched, now, -, heq⟩ := taken_members w (l := l) hl
  rw [heq]
  exact h.of_sub rfl rfl id fun _ _ => id

section Closing

variable {inner : Site → Code Args} (hforeign : Foreign inner)

include hforeign

lemma suppressAndStop_closing (ref : ActorRef) :
    Preserves Closing
      (do setSuppress ref true; Reacting.requestStop inner ref : SupM Args Unit) := by
  refine Preserves.bind (Preserves.modify fun w h => ?_) fun _ =>
    requestStop_preserves hforeign stable_closing (fun w r h => ?_)
      (fun w _ h => h.of_sub rfl rfl id fun _ _ => id) ref
  · exact h.of_quelled rfl rfl id fun k hk => quelled_modify hk ref fun _ hst _ => ⟨hst, rfl⟩
  · exact h.of_quelled rfl rfl id fun k hk => quelled_modify hk r fun _ _ hs => ⟨rfl, hs⟩

lemma stopAndSuppressByIndex_closing (index : ℕ) :
    Preserves Closing (Reacting.stopAndSuppressByIndex inner index) := by
  refine Preserves.get fun w h => ?_
  rw [forM_ite]
  exact Preserves.forM (fun child _ => suppressAndStop_closing hforeign child.1) w h

lemma stop_closing (reason : ExitReason) {w : World Args} (h : Closing w) :
    Post (Reacting.stop inner reason) w (fun _ => Closing) (fun _ => True) := by
  cases hst : w.stopping with
  | false =>
      exact (stop_closes hforeign reason hst).mono (fun _ w' h' => h'.1.closing) fun _ => id
  | true =>
      refine (stop_again reason hst).mono ?_ fun _ _ => trivial
      rintro _ w' ⟨sched, rfl⟩
      exact h.of_sub rfl rfl id fun _ _ => id

/-- A termination that is handled without an exception. -/
lemma handleTermination_closing {w : World Args} (h : Closing w) (ref : ActorRef)
    (reason : ExitReason) :
    Post (Reacting.handleTermination inner ref reason) w (fun _ => Closing)
      (fun _ => True) := by
  cases hst : w.stopping with
  | true =>
      refine (handleTermination_shut (h.closed hst).shut ref reason).mono ?_ fun _ => False.elim
      rintro _ w' rfl
      exact h.of_sub rfl rfl id fun k e he => (find?_erase_some he).2
  | false =>
      have hrun := h.running hst
      have hP : Robust inner Running := lasting_running.robust hforeign
      have hkeep : ∀ {x : SupM Args Unit} {v : World Args}, Preserves Running x → Running v →
          Post x v (fun _ => Closing) (fun _ => True) := fun hx hv =>
        (hx _ hv).mono (fun _ _ h' => h'.closing) fun _ _ => trivial
      rw [Reacting.handleTermination, post_bind, post_get]
      split
      · rw [Reacting.handleRestartGroupStop, post_bind, post_modify]
        exact hkeep hP.finalizeIfDone hrun
      · split
        · exact post_pure.mpr h
        · rw [post_bind, post_set]
          split
          · rw [post_bind]
            refine (registerRestart_running hforeign
              (w := { w with children := w.children.erase ref }) hrun).mono
              (fun ok w' h' => ?_) fun _ => id
            cases ok with
            | false =>
                rw [if_neg Bool.false_ne_true] at h'
                exact post_pure.mpr h'.closing
            | true =>
                rw [if_pos rfl] at h'
                simp only [if_true]
                split
                · exact hkeep (hP.respawnWithEntry _) h'
                · exact hkeep (hP.respawnWithEntry _) h'
                · exact hkeep (hP.beginRestartGroup _ _ _) h'
                · exact hkeep (hP.beginRestartGroup _ _ _) h'
          · exact post_pure.mpr (Running.closing hrun)

lemma superviseVisitor_closing {w : World Args} (h : Closing w) (sg : Signal) :
    Post (Reacting.superviseVisitor inner sg) w (fun _ => Closing) (fun _ => True) := by
  refine Reacting.superviseVisitor_cases (fun hst _ => ?_) (fun _ => h) fun _ =>
    handleTermination_closing hforeign h sg.source sg.reason
  have hc := h.closed hst
  exact Closed.closing ⟨hc.stopping, hc.group, hc.quelled⟩

end Closing

end Supervisor

end Agner
