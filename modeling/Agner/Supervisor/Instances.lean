import Agner.Supervisor.Shutdown

/-!
At most one registered instance of a static spec.

A child leaves `children_` when its termination is handled, and is not registered any more
then, or when `delete_child` erases it, and may still be registered then: its exit signal has
only been enqueued. `start_child` looks for a running child in `children_` alone, and so does
the respawn at the end of a group restart.

* `Live`: an actor spawned for a spec that is still registered.
* `detached`: a live instance of the spec has been erased from `children_`.
* `Single`: the invariant. No spec has two live instances, and the child of a spec, if it has
  one, is the only one.
* `Reaped`: the condition on steps. A spec with a detached instance is not started.
* `at_most_one_instance`: runs of such steps never have two live instances of a spec.
-/

namespace Agner

open Raising Runs

namespace Supervisor

variable {Args : Type}

/-- `k` has been spawned for the spec and is registered. -/
def Live (w : World Args) (i : ℕ) (k : ActorRef) : Prop :=
  (k, i) ∈ w.spawned ∧ w.registered k = true

/-- No spec has two live instances. -/
def AtMostOne (w : World Args) : Prop := ∀ i k k', Live w i k → Live w i k' → k = k'

/-- A live instance of the spec is not in `children_`. -/
def detached (w : World Args) (i : ℕ) : Bool :=
  w.spawned.any fun p => decide (p.2 = i) && w.registered p.1 && !w.children.contains p.1

/-- The invariant. -/
structure Single (w : World Args) : Prop where
  static : w.specification.strategy ≠ .simpleOneForOne
  unique : ∀ k k' e e', w.children.find? k = some e → w.children.find? k' = some e' →
    e.specIndex = e'.specIndex → k = k'
  one : AtMostOne w
  child : ∀ k e k', w.children.find? k = some e → Live w e.specIndex k' → k' = k

/-- A child of the spec may be started: nothing is started if there is one, and otherwise no
instance is live. -/
def Free (w : World Args) (i : ℕ) : Prop := hasChild w i = true ∨ ∀ k, ¬ Live w i k

/-- A live instance without an entry is detached. -/
lemma Tracked.free {w : World Args} (h : Tracked w) {i : ℕ}
    (hi : hasChild w i = true ∨ detached w i = false) : Free w i := by
  refine hi.elim Or.inl fun hdet => ?_
  by_cases hchild : hasChild w i = true
  · exact Or.inl hchild
  · refine Or.inr fun k hlive => hchild ?_
    rw [detached, List.any_eq_false] at hdet
    have hc : w.children.contains k = true := by
      simpa [hlive.2] using hdet (k, i) hlive.1
    obtain ⟨e, he⟩ := OrdMap.contains_iff.mp hc
    -- the actor was spawned once, so the spec it was spawned for is the one of its entry
    have heq : (k, e.specIndex) = (k, i) :=
      List.inj_on_of_nodup_map h.spawned_nodup (h.child_spawned k e he) hlive.1 rfl
    exact hasChild_iff.mpr ⟨k, e, he, congrArg Prod.snd heq⟩

/-! ### What keeps the invariant -/

lemma live_adjusted {w w' : World Args} (ha : Adjusted w w') {i : ℕ} {k : ActorRef} :
    Live w' i k ↔ Live w i k := by rw [Live, Live, ha.spawned, ha.registered]

lemma find?_of_core {w w' : World Args}
    (h : ∀ k, (w'.children.find? k).map ChildEntry.core = (w.children.find? k).map ChildEntry.core)
    {k : ActorRef} {e' : ChildEntry Args} (he' : w'.children.find? k = some e') :
    ∃ e, w.children.find? k = some e ∧ e.specIndex = e'.specIndex := by
  have hk := h k
  rw [he'] at hk
  obtain ⟨e, he, hcore⟩ := Option.map_eq_some_iff.mp hk.symm
  exact ⟨e, he, congrArg Prod.fst hcore⟩

lemma hasChild_adjusted {w w' : World Args} (ha : Adjusted w w') {i : ℕ}
    (h : hasChild w i = true) : hasChild w' i = true := by
  obtain ⟨k, e, he, rfl⟩ := hasChild_iff.mp h
  obtain ⟨e', he', hi⟩ := find?_of_core (fun k => (ha.core k).symm) he
  exact hasChild_iff.mpr ⟨k, e', he', hi⟩

lemma Free.adjusted {w w' : World Args} {i : ℕ} (h : Free w i) (ha : Adjusted w w') :
    Free w' i :=
  h.imp (hasChild_adjusted ha) fun hnone k hk => hnone k ((live_adjusted ha).mp hk)

namespace Single

lemma adjusted {w w' : World Args} (h : Single w) (ha : Adjusted w w') : Single w' := by
  refine ⟨by rw [ha.specification]; exact h.static, fun k k' e e' he he' heq => ?_,
    fun i k k' hk hk' => h.one i k k' ((live_adjusted ha).mp hk) ((live_adjusted ha).mp hk'),
    fun k e k' he hk' => ?_⟩
  · obtain ⟨d, hd, hi⟩ := find?_of_core ha.core he
    obtain ⟨d', hd', hi'⟩ := find?_of_core ha.core he'
    exact h.unique k k' d d' hd hd' (by rw [hi, hi', heq])
  · obtain ⟨d, hd, hi⟩ := find?_of_core ha.core he
    exact h.child k d k' hd (by rw [hi]; exact (live_adjusted ha).mp hk')

/-- Removing entries, and exits of actors. -/
lemma of_sub {w w' : World Args} (h : Single w) (hspec : w'.specification = w.specification)
    (hlive : ∀ i k, Live w' i k → Live w i k)
    (hsub : ∀ k e, w'.children.find? k = some e → w.children.find? k = some e) : Single w' :=
  ⟨hspec ▸ h.static, fun k k' e e' he he' => h.unique k k' e e' (hsub k e he) (hsub k' e' he'),
    fun i k k' hk hk' => h.one i k k' (hlive i k hk) (hlive i k' hk'),
    fun k e k' he hk' => h.child k e k' (hsub k e he) (hlive _ k' hk')⟩

lemma passed {w w' : World Args} (h : Single w) (htr : Tracked w) (hp : Passed w w') :
    Single w' := by
  obtain ⟨sched, now, rfl⟩ := hp.members
  refine h.of_sub rfl (fun i k hk => ⟨hk.1, ?_⟩) fun _ _ => id
  exact hp.registered_of k (htr.spawned_lt _ hk.1).1 hk.2

end Single

/-- The live instances after a child has been started. -/
lemma live_started {w : World Args} (htr : Tracked w) {index i : ℕ} {args : Args}
    {k : ActorRef} (hk : Live (started w index args) i k) :
    (k = w.sched.nextActorId ∧ i = index) ∨ (k ≠ w.sched.nextActorId ∧ Live w i k) := by
  obtain ⟨hmem, hreg⟩ := hk
  rcases List.mem_append.mp hmem with hmem | hmem
  · have hne := (htr.spawned_lt _ hmem).1.ne
    rw [started_registered, decide_eq_false hne, Bool.false_or] at hreg
    exact Or.inr ⟨hne, hmem, hreg⟩
  · obtain ⟨rfl, rfl⟩ := Prod.mk.inj (List.mem_singleton.mp hmem)
    exact Or.inl ⟨rfl, rfl⟩

lemma Single.started {w : World Args} (h : Single w) (htr : Tracked w) {index : ℕ} (args : Args)
    (hchild : hasChild w index = false) (hnone : ∀ k, ¬ Live w index k) :
    Single (started w index args) := by
  have hother : ∀ k e, w.children.find? k = some e → e.specIndex ≠ index := by
    intro k e he heq
    rw [hasChild_iff.mpr ⟨k, e, he, heq⟩] at hchild
    cases hchild
  refine ⟨h.static, fun k k' e e' he he' heq => ?_, fun i k k' hk hk' => ?_,
    fun k e k' he hk' => ?_⟩
  · rw [find?_started] at he he'
    split at he <;> split at he'
    · simp_all
    · obtain rfl := Option.some.inj he
      exact absurd heq.symm (hother k' e' he')
    · obtain rfl := Option.some.inj he'
      exact absurd heq (hother k e he)
    · exact h.unique k k' e e' he he' heq
  · rcases live_started htr hk with ⟨hnew, hi⟩ | ⟨-, hold⟩
    · rcases live_started htr hk' with ⟨hnew', -⟩ | ⟨-, hold'⟩
      · exact hnew.trans hnew'.symm
      · exact absurd (hi ▸ hold') (hnone k')
    · rcases live_started htr hk' with ⟨-, hi⟩ | ⟨-, hold'⟩
      · exact absurd (hi ▸ hold) (hnone k)
      · exact h.one i k k' hold hold'
  · rw [find?_started] at he
    split at he
    · rename_i hk
      obtain rfl := Option.some.inj he
      rcases live_started htr hk' with ⟨rfl, -⟩ | ⟨-, hk'⟩
      · exact hk.symm
      · exact absurd hk' (hnone k')
    · rcases live_started htr hk' with ⟨-, hi⟩ | ⟨-, hk'⟩
      · exact absurd hi (hother k e he)
      · exact h.child k e k' he hk'

lemma Single.startedChild {w : World Args} (h : Single w) (htr : Tracked w) {index : ℕ}
    (args : Args) (hfree : Free w index) : Single (startedChild w index args) := by
  rw [Supervisor.startedChild, if_neg h.static]
  split
  · exact h
  · rename_i hnone
    rw [findRunningChildForSpec_eq_none] at hnone
    exact h.started htr args hnone (hfree.resolve_left (by simp [hnone]))

/-- Starting one child leaves the other specs free. -/
lemma Free.startedChild {w : World Args} (htr : Tracked w) {i : ℕ} (hfree : Free w i)
    (hstatic : w.specification.strategy ≠ .simpleOneForOne) (index : ℕ) (args : Args) :
    Free (startedChild w index args) i := by
  rw [Supervisor.startedChild, if_neg hstatic]
  split
  · exact hfree
  · by_cases hi : i = index
    · subst hi
      refine Or.inl (hasChild_iff.mpr ⟨w.sched.nextActorId,
        { specIndex := i, startOrder := w.nextStartOrder, args := args }, ?_, rfl⟩)
      rw [find?_started, if_pos rfl]
    · refine hfree.imp (fun hchild => ?_) fun hnone k hk => ?_
      · obtain ⟨k, e, he, rfl⟩ := hasChild_iff.mp hchild
        have hne := (htr.child_lt k (OrdMap.contains_iff.mpr ⟨e, he⟩)).ne
        exact hasChild_iff.mpr ⟨k, e, by rw [find?_started, if_neg hne, he], rfl⟩
      · rcases live_started htr hk with ⟨-, rfl⟩ | ⟨-, hk⟩
        · exact hi rfl
        · exact hnone k hk

/-- A list of respawns, all of free specs. -/
lemma Single.foldl_respawned {w : World Args} (h : Single w) (htr : Tracked w)
    (entries : List (ChildEntry Args)) (hfree : ∀ e ∈ entries, Free w e.specIndex) :
    Single (entries.foldl respawned w) := by
  induction entries generalizing w with
  | nil => exact h
  | cons e es ih =>
      rw [List.foldl_cons]
      have hrest : ∀ x ∈ es, Free w x.specIndex := fun x hx => hfree x (by simp [hx])
      rw [respawned]
      split
      · exact ih (h.startedChild htr e.args (hfree e (by simp)))
          (htr.startedChild e.specIndex e.args)
          fun x hx => (hrest x hx).startedChild htr h.static e.specIndex e.args
      · exact ih h htr hrest

/-! ### Terminations -/

lemma Single.dropped {w : World Args} (h : Single w) (ref : ActorRef) : Single (dropped w ref) :=
  h.of_sub rfl (fun _ _ => id) fun _ _ he => (find?_erase_some he).2

/-- A spec whose child has exited is free. -/
lemma Single.free_of_exited {w : World Args} (h : Single w) {ref : ActorRef}
    {e : ChildEntry Args} (he : w.children.find? ref = some e) (href : w.registered ref = false)
    {v : World Args} (hlive : ∀ i k, Live v i k → Live w i k) : Free v e.specIndex := by
  refine Or.inr fun k hk => ?_
  have hk' := hlive _ k hk
  rw [h.child ref e k he hk', Live, href] at hk'
  exact absurd hk'.2 (by simp)

lemma Free.dropped {w : World Args} (h : Single w) {ref : ActorRef} {i : ℕ} (hfree : Free w i)
    (href : w.children.contains ref = true → w.registered ref = false) :
    Free (dropped w ref) i := by
  rcases hfree with hchild | hnone
  · obtain ⟨k, e, he, rfl⟩ := hasChild_iff.mp hchild
    by_cases hk : k = ref
    · subst hk
      exact h.free_of_exited he (href (OrdMap.contains_iff.mpr ⟨e, he⟩)) fun _ _ => id
    · exact Or.inl (hasChild_iff.mpr
        ⟨k, e, (OrdMap.find?_erase _ _ _).trans (by rw [if_neg hk, he]), rfl⟩)
  · exact Or.inr hnone

lemma finalizeIfDone_single {w : World Args} (h : Single w) (htr : Tracked w)
    (hfree : ∀ g, w.restartGroup = some g → g.pendingStops = [] →
      ∀ e ∈ RestartGroup.toRespawn w.specification g, Free w e.specIndex) :
    Post (finalizeIfDone : SupM Args Unit) w (fun _ => Single) (fun _ => False) := by
  rw [finalizeIfDone, post_bind, post_get]
  split
  · exact post_pure.mpr h
  · rename_i g hgroup
    split
    · rename_i hpend
      have hadj : Adjusted w { w with restartGroup := none } := Adjusted.of_eq rfl rfl rfl rfl rfl
      rw [Post, finalizeRestartGroup_run hgroup htr.registered_self]
      exact (h.adjusted hadj).foldl_respawned (htr.adjusted hadj) _ fun e he =>
        (hfree g hgroup hpend e he).adjusted hadj
    · exact post_pure.mpr h

/-- The children a group restart takes along are still in `children_`, and the failed one has
exited. -/
lemma beginRestartGroup_single {w : World Args} {ref : ActorRef} {failed : ChildEntry Args}
    {reason : ExitReason} (h : Single w) (htr : Tracked w) (hfailed : Free w failed.specIndex) :
    Post (beginRestartGroup ref failed reason : SupM Args Unit) w (fun _ => Single)
      (fun _ => True) := by
  rw [beginRestartGroup, post_bind, post_get]
  simp only [post_bind, post_set]
  have hplan : ∀ item ∈ restartPlan w ref failed reason, Free w item.entry.specIndex := by
    intro item hitem
    rcases mem_restartPlan hitem with ⟨-, he⟩ | he
    · rw [he]
      exact hfailed
    · exact Or.inl (hasChild_iff.mpr ⟨item.ref, item.entry, he, rfl⟩)
  have hgroups : Preserves (fun v : World Args => ∀ g, v.restartGroup = some g →
      g.plan = restartPlan w ref failed reason)
      (stopPlan (restartPlan w ref failed reason) : SupM Args Unit) := by
    refine Preserves.forM fun item _ => Preserves.get fun v hv => ?_
    split
    · refine Preserves.bind (fun u hu => ?_)
        (fun _ => suppressAndStop_keeps item.ref false fun _ _ _ h => h) v hv
      rw [pushPendingStop, post_modify]
      intro g hg
      obtain ⟨g', hg', rfl⟩ := Option.map_eq_some_iff.mp hg
      exact hu g' hg'
    · exact hv
  have hadjusts : Preserves (Adjusted w)
      (stopPlan (restartPlan w ref failed reason) : SupM Args Unit) := stopPlan_adjusts _
  refine ((hadjusts _ ?_).and (hgroups _ ?_)).mono ?_ fun _ _ => trivial
  · exact Adjusted.of_eq rfl rfl rfl rfl rfl
  · intro g hg
    rw [← Option.some.inj hg]
  rintro _ w' ⟨hadj, hg'⟩
  refine (finalizeIfDone_single (h.adjusted hadj) (htr.adjusted hadj) ?_).mono (fun _ _ => id)
    fun _ _ => trivial
  intro g hg _ e he
  obtain ⟨item, hitem, rfl⟩ := List.mem_map.mp he
  rw [hg' g hg] at hitem
  exact (hplan item (List.mem_filter.mp hitem).1).adjusted hadj

lemma handleTermination_single {w : World Args} {ref : ActorRef} (reason : ExitReason)
    (h : Single w) (htr : Tracked (dropped w ref))
    (href : w.children.contains ref = true → w.registered ref = false)
    (hfree : ∀ g, w.restartGroup = some g → g.pendingStops.erase ref = [] →
      ∀ e ∈ RestartGroup.toRespawn w.specification g, Free w e.specIndex) :
    Post (handleTermination ref reason : SupM Args Unit) w (fun _ => Single)
      (fun _ => True) := by
  rw [handleTermination, post_bind, post_get]
  split
  · rw [handleRestartGroupStop, post_bind, post_modify]
    have hadj : Adjusted (dropped w ref) (withoutMember w ref) :=
      Adjusted.of_eq rfl rfl rfl rfl rfl
    refine (finalizeIfDone_single (w := withoutMember w ref) ((h.dropped ref).adjusted hadj)
      (htr.adjusted hadj) ?_).mono (fun _ _ => id) fun _ _ => trivial
    intro g hg hpend e he
    obtain ⟨g', hg', rfl⟩ := Option.map_eq_some_iff.mp hg
    exact ((hfree g' hg' hpend e he).dropped h href).adjusted hadj
  · split
    · exact post_pure.mpr h
    · rename_i failed hfailed
      rw [post_bind, post_set]
      split
      · rw [post_bind]
        refine Post.mono (registerRestart_adjusts _ (Adjusted.refl (dropped w ref)))
          (fun ok w' hadj => ?_) fun _ _ => trivial
        have h' := (h.dropped ref).adjusted hadj
        have htr' := htr.adjusted hadj
        have hfree' : Free w' failed.specIndex :=
          h.free_of_exited hfailed (href (OrdMap.contains_iff.mpr ⟨failed, hfailed⟩))
            fun i k hk => (live_adjusted hadj).mp hk
        have hrespawn : Post (respawnWithEntry failed : SupM Args Unit) w' (fun _ => Single)
            (fun _ => True) := by
          rw [Post, respawnWithEntry_run htr'.registered_self]
          exact h'.foldl_respawned htr' [failed] fun e he => List.mem_singleton.mp he ▸ hfree'
        cases ok with
        | false => exact post_pure.mpr h'
        | true =>
            simp only [if_true]
            split
            · exact hrespawn
            · exact hrespawn
            · exact beginRestartGroup_single h' htr' hfree'
            · exact beginRestartGroup_single h' htr' hfree'
      · exact post_pure.mpr (h.dropped ref)

/-! ### Whole runs -/

/-- The condition on steps: no spec with a detached instance is started, by `start_child`, by
`init`, or by the signal that completes a group restart. -/
def Reaped (s : Life Args) : Act Args → Prop
  | .call (.startChild index _) =>
      hasChild s.world index = true ∨ detached s.world index = false
  | .initNext => hasChild s.world s.next = true ∨ detached s.world s.next = false
  | .receive _ => ∀ sg ∈ s.world.mailbox.head?, ∀ g ∈ s.world.restartGroup,
      g.pendingStops.erase sg.source = [] →
        ∀ e ∈ RestartGroup.toRespawn s.world.specification g,
          hasChild s.world e.specIndex = true ∨ detached s.world e.specIndex = false
  | _ => True

instance (s : Life Args) : (a : Act Args) → Decidable (Reaped s a)
  | .call (.startChild ..) => inferInstanceAs (Decidable (_ ∨ _))
  | .initNext => inferInstanceAs (Decidable (_ ∨ _))
  | .receive _ => inferInstanceAs (Decidable (∀ sg ∈ s.world.mailbox.head?,
      ∀ g ∈ s.world.restartGroup, _ → ∀ e ∈ _, _ ∨ _))
  | .crash | .leave | .call .init | .call (.exit ..) | .call (.spawn ..) | .call (.link ..)
  | .call (.monitor ..) | .call (.advance _) | .call .receive | .call (.stopChild _)
  | .call (.restartChild _) | .call (.deleteChild _) | .call (.stop _) => isTrue trivial

lemma startChildByIndex_single {w : World Args} (h : Single w) (htr : Tracked w) {index : ℕ}
    (args : Option Args) (hfree : Free w index) :
    Post (startChildByIndex index args : SupM Args Unit) w (fun _ => Single) Single := by
  rw [startChildByIndex, post_bind, post_get]
  split
  · exact post_pure.mpr h
  · rename_i spec hspec
    obtain ⟨ref, hrun⟩ := startChildWithArgs_run htr.registered_self index
      (chosenArgs w spec args)
    rw [chosenArgs] at hrun
    rw [Post, EStateM.run_bind, hrun]
    exact h.startedChild htr _ hfree

/-- A static spec that is restarted has a child, so that nothing is started. -/
lemma restartChild_adjusts {w : World Args}
    (hstatic : w.specification.strategy ≠ .simpleOneForOne) (index : ℕ) :
    Post (restartChild index : SupM Args Unit) w (fun _ => Adjusted w) (Adjusted w) := by
  rw [restartChild, post_bind, post_get]
  refine Preserves.bind (Preserves.forM fun ref _ => setSuppress_adjusts ref false)
    (fun _ => Preserves.forM fun ref href => Preserves.get fun v hv => ?_) w (Adjusted.refl w)
  obtain ⟨e, he, hi⟩ := mem_refs_of_spec.mp href
  have hchild : hasChild v index = true := hasChild_adjusted hv (hasChild_iff.mpr ⟨ref, e, he, hi⟩)
  split
  · exact hv
  · split
    · exact suppressAndStop_adjusts ref false v hv
    · rw [post_bind, startChildWithArgs, post_bind, post_get,
        if_neg (by rw [hv.specification]; exact hstatic)]
      split
      · exact hv
      · rename_i hnone
        rw [findRunningChildForSpec_eq_none, hchild] at hnone
        cases hnone

lemma Single.call {s : Life Args} {u : System Args} {l : Label Args} (h : Single s.world)
    (htr : Tracked s.world) (hl : (l.administrative || l.environment) = true)
    (hu : step { world := s.world } l = some u) (hok : Reaped s (.call l)) : Single u.world := by
  by_cases henv : l.environment = true
  · exact h.passed htr (environment_passed htr.toAccounted henv hu)
  have hadjusts : ∀ {x : SupM Args Unit}, Post x s.world (fun _ => Adjusted s.world)
      (Adjusted s.world) → Single (perform x s.world).world := fun hx =>
    h.adjusted (perform_preserves hx)
  have hadmin : l.administrative = true := by simpa [henv] using hl
  obtain ⟨x, hx, rfl⟩ := administers_of_step hu hadmin
  cases hx with
  | startChild index args hlt =>
      exact perform_preserves (startChildByIndex_single h htr args (htr.free hok))
  | stopChild index =>
      exact hadjusts (stopAndSuppressByIndex_adjusts index _ (Adjusted.refl _))
  | restartChild index =>
      exact hadjusts (restartChild_adjusts h.static index)
  | deleteChild index =>
      refine perform_preserves ?_
      rw [deleteChild, post_bind]
      refine Post.mono (stopAndSuppressByIndex_adjusts index _ (Adjusted.refl s.world))
        (fun _ w' ha => ?_) fun w' ha => h.adjusted ha
      rw [post_modify]
      refine (h.adjusted ha).of_sub rfl (fun _ _ => id) fun k e he => ?_
      exact OrdMap.find?_of_filter he
  | stop reason =>
      exact hadjusts (stop_adjusts reason _ (Adjusted.refl _))

/-- A termination raises before it has started any child. -/
lemma handleTermination_raises {w : World Args} {ref : ActorRef} (reason : ExitReason)
    (h : Tracked (dropped w ref)) :
    Post (handleTermination ref reason : SupM Args Unit) w (fun _ _ => True)
      (fun w' => Adjusted (dropped w ref) w') := by
  have hquiet : ∀ {x : SupM Args Unit} {v : World Args} {Q : World Args → Prop},
      Post x v (fun _ => Q) (fun _ => False) →
      Post x v (fun _ _ => True) (fun w' => Adjusted (dropped w ref) w') :=
    fun hx => hx.mono (fun _ _ _ => trivial) fun _ hf => hf.elim
  rw [handleTermination, post_bind, post_get]
  split
  · rw [handleRestartGroupStop, post_bind, post_modify]
    refine hquiet (finalizeIfDone_accounted (Tracked.toAccounted ?_))
    exact h.adjusted (Adjusted.of_eq rfl rfl rfl rfl rfl)
  · split
    · exact post_pure.mpr trivial
    · rename_i failed _
      rw [post_bind, post_set]
      split
      · rw [post_bind]
        refine Post.mono (registerRestart_adjusts _ (Adjusted.refl (dropped w ref)))
          (fun ok w' ha => ?_) fun _ => id
        have h' := h.adjusted ha
        have hrespawn : Post (respawnWithEntry failed : SupM Args Unit) w' (fun _ _ => True)
            (fun w' => Adjusted (dropped w ref) w') := by
          rw [Post, respawnWithEntry_run h'.registered_self]
          trivial
        have hgroup : Post (beginRestartGroup ref failed reason : SupM Args Unit) w'
            (fun _ _ => True) (fun w' => Adjusted (dropped w ref) w') := by
          rw [beginRestartGroup, post_bind, post_get]
          simp only [post_bind, post_set]
          refine Post.mono (stopPlan_adjusts _ _
            (ha.trans (Adjusted.of_eq rfl rfl rfl rfl rfl))) (fun _ w'' ha' => ?_) fun _ => id
          exact hquiet (finalizeIfDone_accounted (h.adjusted ha').toAccounted)
        cases ok with
        | false => exact post_pure.mpr trivial
        | true =>
            simp only [if_true]
            split
            · exact hrespawn
            · exact hrespawn
            · exact hgroup
            · exact hgroup
      · exact post_pure.mpr trivial

lemma superviseVisitor_raises {w : World Args} {sg : Signal} {rest : List Signal}
    (h : Tracked w) (hbox : w.mailbox = sg :: rest) :
    Post (superviseVisitor sg : SupM Args Unit) (popped w) (fun _ _ => True)
      (fun w' => Adjusted (dropped (popped w) sg.source) w') :=
  superviseVisitor_cases (fun _ _ => trivial) (fun _ => trivial) fun _ =>
    handleTermination_raises sg.reason (h.popped hbox)

/-- One round of `supervise_loop`, whether or not it raises. -/
lemma superviseVisitor_single {w : World Args} {sg : Signal} {rest : List Signal}
    (h : Single w) (htr : Tracked w) (hbox : w.mailbox = sg :: rest)
    (hfree : ∀ g, w.restartGroup = some g → g.pendingStops.erase sg.source = [] →
      ∀ e ∈ RestartGroup.toRespawn w.specification g, Free w e.specIndex) :
    Post (superviseVisitor sg : SupM Args Unit) (popped w) (fun _ => Single) Single := by
  have hpop : Single (popped w) := by
    refine h.of_sub rfl (fun i k hk => ⟨hk.1, ?_⟩) fun _ _ => id
    rw [← popped_registered]
    exact hk.2
  have hexited : (popped w).children.contains sg.source = true →
      (popped w).registered sg.source = false := by
    intro hc
    have hc' : w.children.contains sg.source = true := hc
    rw [popped_registered]
    rcases htr.source sg (by rw [hbox]; simp) with hs | hs
    · rw [hs, htr.self_not_child] at hc'
      cases hc'
    · exact hs.1
  have hnormal : Post (superviseVisitor sg : SupM Args Unit) (popped w) (fun _ => Single)
      (fun _ => True) := by
    refine superviseVisitor_cases
      (fun _ _ => hpop.adjusted (Adjusted.of_eq rfl rfl rfl rfl rfl)) (fun _ => hpop) fun _ =>
      handleTermination_single sg.reason hpop (htr.popped hbox) hexited ?_
    intro g hg hpend e he
    refine (hfree g hg hpend e he).imp id fun hnone k hk => hnone k ⟨hk.1, ?_⟩
    rw [← popped_registered]
    exact hk.2
  exact (hnormal.and (superviseVisitor_raises htr hbox)).mono (fun _ _ h' => h'.1)
    fun w' h' => (hpop.dropped sg.source).adjusted h'.2

namespace Life

/-- The invariant of runs, with what is left of it once the supervisor is gone. -/
structure OneEach (s : Life Args) : Prop where
  tracked : s.status ≠ .gone → Tracked s.world
  single : s.status ≠ .gone → Single s.world
  one : AtMostOne s.world

lemma AtMostOne.removed {s : Life Args} (h : AtMostOne s.world) (reason : ExitReason) :
    AtMostOne (s.removed reason).world := by
  have hlive : ∀ i k, Live (s.removed reason).world i k → Live s.world i k := by
    intro i k hk
    have hreg := (SchedulerBase.contains_notifyExit s.world.sched s.world.self k reason).symm.trans
      hk.2
    rw [Bool.and_eq_true] at hreg
    exact ⟨hk.1, hreg.2⟩
  exact fun i k k' hk hk' => h i k k' (hlive i k hk) (hlive i k' hk')

lemma OneEach.of_single {s : Life Args} (h : s.status ≠ .gone → Tracked s.world)
    (hs : Single s.world) : OneEach s := ⟨h, fun _ => hs, hs.one⟩

lemma OneEach.of_removed {s : Life Args} (h : AtMostOne s.world) (reason : ExitReason) :
    OneEach (s.removed reason) :=
  ⟨fun hg => absurd rfl hg, fun hg => absurd rfl hg, AtMostOne.removed h reason⟩

lemma OneEach.step {s t : Life Args} {a : Act Args} (h : OneEach s) (hok : Reaped s a)
    (hstep : s.step a = some t) : OneEach t := by
  obtain ⟨hs, hmove⟩ := step_cases hstep
  have htr := h.tracked hs
  have hsingle := h.single hs
  have htracked := tracked_step h.tracked hstep
  -- the visitor keeps the invariant in both of its outcomes
  have hvisitor : ∀ {d sg rest}, a = .receive d → s.world.mailbox = sg :: rest →
      Single (perform (superviseVisitor sg) (popped s.world)).world := by
    rintro d sg rest rfl hbox
    refine perform_preserves (superviseVisitor_single hsingle htr hbox fun g hg hpend e he => ?_)
    exact htr.free (hok sg (by rw [hbox]; rfl) g hg hpend e he)
  cases hmove with
  | call hl hu => exact OneEach.of_single htracked (hsingle.call htr hl hu hok)
  | initEnds hphase hdone =>
      exact OneEach.of_single htracked (hsingle.adjusted (Adjusted.of_eq rfl rfl rfl rfl rfl))
  | initStarts hphase hstatic hlt hu hr =>
      refine OneEach.of_single htracked ?_
      rw [hu]
      exact perform_preserves (startChildByIndex_single hsingle htr none (htr.free hok))
  | initRaises hlt hu hr =>
      rw [hu, perform, startChildByIndex_run htr.registered_self (List.getElem?_eq_getElem hlt)]
        at hr
      cases hr
  | handles halive hphase hbox hu hr =>
      exact OneEach.of_single htracked (hu ▸ hvisitor rfl hbox)
  | sticks hbox hu hr => exact OneEach.of_single htracked (hu ▸ hvisitor rfl hbox)
  | raises halive hbox hu hr =>
      rw [hu]
      exact OneEach.of_removed (s := { s with world := _ }) (hvisitor rfl hbox).one _
  | crashes halive => exact OneEach.of_removed h.one _
  | leaves halive hphase => exact OneEach.of_removed h.one _

end Life

/-- In runs that start no spec with a detached instance, no spec ever has two live instances. -/
theorem at_most_one_instance {sched : SchedulerBase} (hwf : sched.WellFormed)
    {spec : Specification Args} (hstatic : spec.strategy ≠ .simpleOneForOne)
    {acts : List (Act Args)} {s : Life Args}
    (hrun : run Life.step (Life.create sched spec) acts = some s)
    (hreaped : AllSteps Life.step Reaped (Life.create sched spec) acts) : AtMostOne s.world := by
  have hinit : Life.OneEach (Life.create sched spec) := by
    refine Life.OneEach.of_single (fun _ => Life.tracked_create hwf spec) ⟨hstatic, ?_, ?_, ?_⟩
    · intro k k' e e' he
      cases he
    · rintro i k k' ⟨hk, -⟩
      cases hk
    · intro k e k' he
      cases he
  exact (invariant (fun _ _ _ h hok hstep => h.step hok hstep) hinit hreaped hrun).one

/-- A child is deleted during a group restart, exits, and the group is completed. -/
def deletedDuringGroupRestart : List (Act Unit) :=
  [.initNext, .initNext, .initNext, .call (.exit 2 .error), .receive true,
    .call (.deleteChild 1), .call (.exit 3 .stopped), .receive true, .call (.startChild 1 none)]

/-- The group brings back one child of each spec. -/
theorem at_most_one_instance_group :
    ∃ s, run Life.step (Life.create {} twoPermanent) deletedDuringGroupRestart = some s ∧
      s.world.spawned = [(2, 0), (3, 1), (4, 0), (5, 1)] ∧ AtMostOne s.world :=
  have hrun := run_eq_reached (by decide +kernel)
  ⟨_, hrun, by decide +kernel, at_most_one_instance ⟨by decide, fun k hk => by cases hk⟩
    (by decide) hrun (by decide +kernel)⟩

/-- A child is deleted and started again before it has exited. -/
theorem deleted_child_started_twice :
    ∃ s, run Life.step (Life.create {} onePermanent) [.initNext, .initNext,
        .call (.deleteChild 0), .call (.startChild 0 none)] = some s ∧
      Live s.world 0 2 ∧ Live s.world 0 3 :=
  ⟨_, run_eq_reached (by decide +kernel), ⟨by decide +kernel, by decide +kernel⟩,
    by decide +kernel, by decide +kernel⟩

end Supervisor

end Agner
