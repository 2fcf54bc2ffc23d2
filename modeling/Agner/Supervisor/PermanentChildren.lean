import Agner.Supervisor.System

/-!
No permanent child is lost, as long as the terminations that reach the supervisor during a
group restart come from members of the group.

`handle_restart_group_stop` removes whatever child terminates while a group is active, and
only the members of the group are in the plan that `finalize_restart_group` respawns from.
Under `rest_for_one` the children started before the failed one are not members: one of
them that terminates then is removed and never comes back.

* `NoLost`: every permanent spec has a child, or is in the plan of the active group, unless
  the supervisor is stopping.
* `Kept`: the invariant of the runs in which every termination received during a group
  restart comes from a pending member or from a child that need not come back.
* `permanent_children_kept_iff`: such runs keep `NoLost`, and the first other termination
  breaks it.
-/

namespace Agner

open Raising Runs

namespace Supervisor

variable {Args : Type}

/-- `children_` holds an entry of the spec. -/
def hasChild (w : World Args) (i : ℕ) : Bool :=
  w.children.entries.any fun child => decide (child.2.specIndex = i)

/-- The plan of the active restart group holds an item of the spec. -/
def inPlan (w : World Args) (i : ℕ) : Bool :=
  match w.restartGroup with
  | none => false
  | some g => g.plan.any fun item => decide (item.entry.specIndex = i)

/-- No permanent child is lost. -/
def NoLost (w : World Args) : Prop :=
  ∀ i < w.specification.children.length, restartAtSpecIndex w.specification i = .permanent →
    w.stopping = true ∨ hasChild w i = true ∨ inPlan w i = true

lemma hasChild_iff {w : World Args} {i : ℕ} :
    hasChild w i = true ↔ ∃ k e, w.children.find? k = some e ∧ e.specIndex = i := by
  simp [hasChild, List.any_eq_true, OrdMap.mem_entries_iff]

lemma inPlan_iff {w : World Args} {i : ℕ} {g : RestartGroup Args}
    (hg : w.restartGroup = some g) :
    inPlan w i = true ↔ ∃ item ∈ g.plan, item.entry.specIndex = i := by
  simp [inPlan, hg, List.any_eq_true]

lemma findRunningChildForSpec_eq_none {w : World Args} {i : ℕ} :
    findRunningChildForSpec w i = none ↔ hasChild w i = false := by
  simp [findRunningChildForSpec, hasChild]

/-- A signal from `ref` does not take a child out of reach: while a group is active, a
permanent child that terminates is one of its pending stops. -/
def Expected (w : World Args) (ref : ActorRef) : Prop :=
  ∀ g, w.restartGroup = some g → ∀ e, w.children.find? ref = some e →
    restartAtSpecIndex w.specification e.specIndex = .permanent → ref ∈ g.pendingStops

instance (w : World Args) : Decidable (NoLost w) :=
  inferInstanceAs (Decidable (∀ i < w.specification.children.length, _ → _))

instance (w : World Args) (ref : ActorRef) : Decidable (Expected w ref) :=
  match hg : w.restartGroup, he : w.children.find? ref with
  | some g, some e => decidable_of_iff
      (restartAtSpecIndex w.specification e.specIndex = .permanent → ref ∈ g.pendingStops)
      (by simp [Expected, hg, he])
  | none, _ => isTrue (by simp [Expected, hg])
  | some _, none => isTrue (by simp [Expected, he])

/-- What the registry and `children_` look like whenever no operation is running. -/
structure Shape (w : World Args) : Prop where
  static : w.specification.strategy ≠ .simpleOneForOne
  wellFormed : w.sched.WellFormed
  registered_self : w.registered w.self = true
  self_not_child : w.children.contains w.self = false
  child_lt : ∀ k, w.children.contains k = true → k < w.sched.nextActorId
  child_pos : ∀ k, w.children.contains k = true → k ≠ 0
  index_lt : ∀ k e, w.children.find? k = some e → e.specIndex < w.specification.children.length
  unique : ∀ k k' e e', w.children.find? k = some e → w.children.find? k' = some e' →
    e.specIndex = e'.specIndex → k = k'

/-- What ties an active group to `children_`. -/
structure GroupShape (w : World Args) (g : RestartGroup Args) : Prop where
  running : w.stopping = false
  plan_lt : ∀ item ∈ g.plan, item.entry.specIndex < w.specification.children.length
  planned : ∀ r ∈ g.pendingStops, ∀ e, w.children.find? r = some e →
    ∃ item ∈ g.plan, item.entry.specIndex = e.specIndex
  outside : ∀ k e, w.children.find? k = some e → k ∉ g.pendingStops →
    ∀ item ∈ g.plan, item.entry.specIndex ≠ e.specIndex
  covers : w.specification.strategy ≠ .restForOne →
    ∀ k, w.children.contains k = true → k ∈ g.pendingStops

/-- The invariant. -/
structure Kept (w : World Args) : Prop extends Shape w where
  group : ∀ g, w.restartGroup = some g → g.pendingStops ≠ [] ∧ GroupShape w g
  suppress : ∀ k e, w.children.find? k = some e → e.suppressRestart = w.stopping
  noLost : NoLost w

/-! ### Starting children -/

lemma Shape.started {w : World Args} (h : Shape w) {index : ℕ} (args : Args)
    (hlt : index < w.specification.children.length) (hfree : hasChild w index = false) :
    Shape (started w index args) := by
  have hfind := find?_started w index args
  have hcontains := contains_started w index args
  have hnone : ∀ k e, w.children.find? k = some e → e.specIndex ≠ index := by
    intro k e he heq
    rw [hasChild_iff.mpr ⟨k, e, he, heq⟩] at hfree
    cases hfree
  have hself := h.wellFormed.lt w.self h.registered_self
  refine ⟨h.static, wellFormed_started h.wellFormed index args, ?_, ?_, fun k hk => ?_,
    fun k hk => ?_, fun k e he => ?_, fun k k' e e' he he' heq => ?_⟩
  · rw [started_registered, started_self, h.registered_self, Bool.or_true]
  · rw [hcontains, started_self, h.self_not_child, Bool.or_false, decide_eq_false_iff_not]
    exact hself.ne
  · rw [hcontains, Bool.or_eq_true, decide_eq_true_eq] at hk
    rcases hk with rfl | hk
    · exact Nat.lt_succ_self _
    · exact (h.child_lt k hk).trans (Nat.lt_succ_self _)
  · rw [hcontains, Bool.or_eq_true, decide_eq_true_eq] at hk
    rcases hk with rfl | hk
    · exact h.wellFormed.pos.ne'
    · exact h.child_pos k hk
  · rw [hfind] at he
    split at he
    · obtain rfl := Option.some.inj he
      exact hlt
    · exact h.index_lt k e he
  · rw [hfind] at he he'
    split at he <;> split at he'
    · simp_all
    · obtain rfl := Option.some.inj he
      exact absurd heq.symm (hnone k' e' he')
    · obtain rfl := Option.some.inj he'
      exact absurd heq (hnone k e he)
    · exact h.unique k k' e e' he he' heq

/-- How a list of respawns relates the worlds before and after it. -/
structure Grown (w w' : World Args) : Prop where
  shape : Shape w'
  specification : w'.specification = w.specification
  stopping : w'.stopping = w.stopping
  group : w'.restartGroup = w.restartGroup
  phase : w'.phase = w.phase
  hasChild : ∀ i, Supervisor.hasChild w i = true → Supervisor.hasChild w' i = true
  suppress : (∀ k e, w.children.find? k = some e → e.suppressRestart = false) →
    ∀ k e, w'.children.find? k = some e → e.suppressRestart = false

lemma Grown.refl {w : World Args} (h : Shape w) : Grown w w :=
  ⟨h, rfl, rfl, rfl, rfl, fun _ => id, fun h => h⟩

lemma Grown.trans {u v w : World Args} (h : Grown u v) (h' : Grown v w) : Grown u w where
  shape := h'.shape
  specification := h'.specification.trans h.specification
  stopping := h'.stopping.trans h.stopping
  group := h'.group.trans h.group
  phase := h'.phase.trans h.phase
  hasChild i hi := h'.hasChild i (h.hasChild i hi)
  suppress hu := h'.suppress (h.suppress hu)

lemma Grown.started {w : World Args} (h : Shape w) {index : ℕ} (args : Args)
    (hlt : index < w.specification.children.length) (hfree : Supervisor.hasChild w index = false) :
    Grown w (started w index args) ∧ Supervisor.hasChild (started w index args) index = true := by
  have hfind := find?_started w index args
  refine ⟨⟨h.started args hlt hfree, rfl, rfl, rfl, rfl, fun i hi => ?_, fun hu k e he => ?_⟩, ?_⟩
  · obtain ⟨k, e, he, hei⟩ := hasChild_iff.mp hi
    have hne : k ≠ w.sched.nextActorId :=
      (h.child_lt k (OrdMap.contains_iff.mpr ⟨e, he⟩)).ne
    exact hasChild_iff.mpr ⟨k, e, by rw [hfind, if_neg hne, he], hei⟩
  · rw [hfind] at he
    split at he
    · obtain rfl := Option.some.inj he
      rfl
    · exact hu k e he
  · exact hasChild_iff.mpr ⟨w.sched.nextActorId, _, by rw [hfind, if_pos rfl], rfl⟩

/-- Starting a child of a static spec leaves that spec with a child. -/
lemma Grown.startedChild {w : World Args} (h : Shape w) {index : ℕ} (args : Args)
    (hlt : index < w.specification.children.length) :
    Grown w (startedChild w index args) ∧
      Supervisor.hasChild (startedChild w index args) index = true := by
  rw [Supervisor.startedChild, if_neg h.static]
  split
  · rename_i ref hf
    refine ⟨Grown.refl h, ?_⟩
    by_contra hno
    rw [Bool.not_eq_true, ← findRunningChildForSpec_eq_none, hf] at hno
    cases hno
  · rename_i hf
    exact Grown.started h args hlt (findRunningChildForSpec_eq_none.mp hf)

lemma Grown.foldl_respawned {w : World Args} (h : Shape w) (entries : List (ChildEntry Args))
    (hlt : ∀ e ∈ entries, e.specIndex < w.specification.children.length) :
    Grown w (entries.foldl respawned w) ∧
      ∀ e ∈ entries, Supervisor.hasChild (entries.foldl respawned w) e.specIndex = true := by
  induction entries generalizing w with
  | nil => exact ⟨Grown.refl h, by simp⟩
  | cons e es ih =>
      have hlt' : e.specIndex < w.specification.children.length := hlt e (by simp)
      have hone := Grown.startedChild h e.args hlt'
      rw [List.foldl_cons, respawned, if_pos hlt']
      obtain ⟨hrest, hall⟩ := ih hone.1.shape fun x hx => by
        rw [hone.1.specification]
        exact hlt x (by simp [hx])
      refine ⟨hone.1.trans hrest, fun x hx => ?_⟩
      rcases List.mem_cons.mp hx with rfl | hx
      · exact hrest.hasChild _ hone.2
      · exact hall x hx

/-! ### Group restarts -/

/-- Removing children and changing flags keeps the shape. -/
lemma Shape.shrink {w w' : World Args} (h : Shape w)
    (hspec : w'.specification = w.specification) (hself : w'.self = w.self)
    (hreg : ∀ k, w'.registered k = w.registered k)
    (hnext : w'.sched.nextActorId = w.sched.nextActorId)
    (hsub : ∀ k e', w'.children.find? k = some e' →
      ∃ e, w.children.find? k = some e ∧ e.core = e'.core) : Shape w' := by
  have hcontains : ∀ k, w'.children.contains k = true → w.children.contains k = true := by
    intro k hk
    obtain ⟨e', he'⟩ := OrdMap.contains_iff.mp hk
    obtain ⟨e, he, -⟩ := hsub k e' he'
    exact OrdMap.contains_iff.mpr ⟨e, he⟩
  refine ⟨by rw [hspec]; exact h.static, ⟨by rw [hnext]; exact h.wellFormed.pos, fun k hk => ?_⟩,
    ?_, ?_, fun k hk => ?_, fun k hk => h.child_pos k (hcontains k hk), fun k e' he' => ?_,
    fun k k' e₁ e₂ h₁ h₂ heq => ?_⟩
  · rw [hnext]
    exact h.wellFormed.lt k ((hreg k).symm.trans hk)
  · rw [hreg, hself]
    exact h.registered_self
  · rw [hself]
    by_contra hc
    rw [Bool.not_eq_false] at hc
    exact absurd h.self_not_child (by rw [hcontains _ hc]; simp)
  · rw [hnext]
    exact h.child_lt k (hcontains k hk)
  · obtain ⟨e, he, hcore⟩ := hsub k e' he'
    have hidx : e.specIndex = e'.specIndex := congrArg Prod.fst hcore
    rw [hspec, ← hidx]
    exact h.index_lt k e he
  · obtain ⟨e₁', he₁, hc₁⟩ := hsub k e₁ h₁
    obtain ⟨e₂', he₂, hc₂⟩ := hsub k' e₂ h₂
    refine h.unique k k' e₁' e₂' he₁ he₂ ?_
    have h1 : e₁'.specIndex = e₁.specIndex := congrArg Prod.fst hc₁
    have h2 : e₂'.specIndex = e₂.specIndex := congrArg Prod.fst hc₂
    rw [h1, h2, heq]

/-- The end of a group's bookkeeping: either stops are still pending, or the plan is
respawned; both restore the invariant. -/
lemma finalizeIfDone_post {w : World Args} {g : RestartGroup Args} (h : Shape w)
    (hgroup : w.restartGroup = some g) (hg : GroupShape w g)
    (hsup : ∀ k e, w.children.find? k = some e → e.suppressRestart = false)
    (hlost : NoLost w) :
    Post (finalizeIfDone : SupM Args Unit) w
      (fun _ w' => Kept w' ∧ w'.phase = w.phase) (fun _ => False) := by
  rw [finalizeIfDone, post_bind, post_get]
  simp only [hgroup]
  by_cases hpend : g.pendingStops = []
  · simp only [hpend, if_true]
    rw [Post, finalizeRestartGroup_run hgroup h.registered_self]
    have hlt : ∀ e ∈ RestartGroup.toRespawn w.specification g,
        e.specIndex < w.specification.children.length := by
      intro e he
      obtain ⟨item, hitem, rfl⟩ := List.mem_map.mp he
      exact hg.plan_lt item (List.mem_filter.mp hitem).1
    have hshape : Shape ({ w with restartGroup := none } : World Args) := { h with }
    obtain ⟨hgrow, hall⟩ := Grown.foldl_respawned hshape _ hlt
    refine ⟨⟨hgrow.shape, fun g' hg' => ?_, fun k e he => ?_, fun i hi hperm => ?_⟩, hgrow.phase⟩
    · rw [finalized, hgrow.group] at hg'
      cases hg'
    · rw [finalized, hgrow.stopping]
      exact (hgrow.suppress hsup k e he).trans hg.running.symm
    · rw [finalized, hgrow.specification] at hi hperm
      refine Or.inr (Or.inl ?_)
      rcases hlost i hi hperm with hst | hc | hp
      · rw [hg.running] at hst
        cases hst
      · exact hgrow.hasChild i hc
      · obtain ⟨item, hitem, rfl⟩ := (inPlan_iff hgroup).mp hp
        refine hall item.entry (List.mem_map.mpr ⟨item, List.mem_filter.mpr ⟨hitem, ?_⟩, rfl⟩)
        have hperm' : restartAtSpecIndex w.specification item.entry.specIndex = .permanent :=
          hperm
        rw [hperm']
        rfl
  · simp only [hpend, if_false, post_pure]
    refine ⟨⟨h, fun g' hg' => ?_, fun k e he => (hsup k e he).trans hg.running.symm, hlost⟩,
      trivial⟩
    rw [hgroup, Option.some.injEq] at hg'
    exact hg' ▸ ⟨hpend, hg⟩

/-- The world in which `handle_restart_group_stop` tests for pending stops. -/
def withoutMember (w : World Args) (ref : ActorRef) : World Args :=
  { w with
    children := w.children.erase ref
    restartGroup := w.restartGroup.map fun g =>
      { g with pendingStops := g.pendingStops.erase ref } }

/-- Members of the group, and children that need not come back, may terminate. -/
lemma handleRestartGroupStop_post {w : World Args} {ref : ActorRef} {g : RestartGroup Args}
    (h : Kept w) (hgroup : w.restartGroup = some g) (hexp : Expected w ref) :
    Post (handleRestartGroupStop ref : SupM Args Unit) w
      (fun _ w' => Kept w' ∧ w'.phase = w.phase) (fun _ => False) := by
  obtain ⟨-, hg⟩ := h.group g hgroup
  rw [handleRestartGroupStop, post_bind, post_modify]
  have hgroup' : (withoutMember w ref).restartGroup =
      some { g with pendingStops := g.pendingStops.erase ref } := by
    simp [withoutMember, hgroup]
  refine finalizeIfDone_post (w := withoutMember w ref) ?_ hgroup'
    ⟨hg.running, hg.plan_lt, ?_, ?_, ?_⟩ ?_ ?_
  · refine h.toShape.shrink rfl rfl (fun _ => rfl) rfl fun k e he => ?_
    exact ⟨e, (find?_erase_some he).2, rfl⟩
  · exact fun r hr e he => hg.planned r (List.mem_of_mem_erase hr) e (find?_erase_some he).2
  · intro k e he hk item hitem
    obtain ⟨hne, he'⟩ := find?_erase_some he
    exact hg.outside k e he' (fun hmem => hk ((List.mem_erase_of_ne hne).mpr hmem)) item hitem
  · intro hstrat k hk
    obtain ⟨e, he⟩ := OrdMap.contains_iff.mp hk
    obtain ⟨hne, he'⟩ := find?_erase_some he
    exact (List.mem_erase_of_ne hne).mpr
      (hg.covers hstrat k (OrdMap.contains_iff.mpr ⟨e, he'⟩))
  · intro k e he
    exact (h.suppress k e (find?_erase_some he).2).trans hg.running
  · intro i hi hperm
    have hplan : inPlan w i = true → inPlan (withoutMember w ref) i = true := by
      intro hp
      rw [inPlan_iff hgroup] at hp
      exact (inPlan_iff hgroup').mpr hp
    rcases h.noLost i hi hperm with hst | hc | hp
    · exact Or.inl hst
    · obtain ⟨k, e, he, rfl⟩ := hasChild_iff.mp hc
      by_cases hk : k = ref
      · -- a permanent child that terminates now is in the plan
        subst hk
        obtain ⟨item, hitem, heq⟩ := hg.planned k (hexp g hgroup e he hperm) e he
        exact Or.inr (Or.inr (hplan ((inPlan_iff hgroup).mpr ⟨item, hitem, heq⟩)))
      · refine Or.inr (Or.inl (hasChild_iff.mpr ⟨k, e, ?_, rfl⟩))
        rw [withoutMember, OrdMap.find?_erase, if_neg hk, he]
    · exact Or.inr (Or.inr (hplan hp))

/-- Any other permanent child that terminates during a group restart is lost. -/
lemma handleRestartGroupStop_lost {w : World Args} {ref : ActorRef} (h : Kept w)
    (hexp : ¬ Expected w ref) :
    Post (handleRestartGroupStop ref : SupM Args Unit) w
      (fun _ w' => ¬ NoLost w') (fun _ => False) := by
  simp only [Expected, not_forall] at hexp
  obtain ⟨g, hgroup, e, he, hperm, hnot⟩ := hexp
  obtain ⟨hpend, hg⟩ := h.group g hgroup
  have hgroup' : (withoutMember w ref).restartGroup = some g := by
    simp [withoutMember, hgroup, List.erase_of_not_mem hnot]
  rw [handleRestartGroupStop, post_bind, post_modify, finalizeIfDone, post_bind, post_get]
  rw [show ({ w with
    children := w.children.erase ref
    restartGroup := w.restartGroup.map fun g =>
      { g with pendingStops := g.pendingStops.erase ref } } : World Args) =
      withoutMember w ref from rfl]
  simp only [hgroup', hpend, if_false, post_pure]
  intro hlost
  rcases hlost e.specIndex (h.index_lt ref e he) hperm with hst | hc | hp
  · exact absurd hg.running (by rw [show w.stopping = true from hst]; simp)
  · obtain ⟨k, e', he', heq⟩ := hasChild_iff.mp hc
    obtain ⟨hne, he''⟩ := find?_erase_some he'
    exact hne (h.unique k ref e' e he'' he heq)
  · obtain ⟨item, hitem, heq⟩ := (inPlan_iff hgroup').mp hp
    exact hg.outside ref e he hnot item hitem heq

/-! ### Terminations outside a group restart -/

/-- A child whose termination calls for no restart may go. -/
lemma Kept.forget {w : World Args} {ref : ActorRef} {e : ChildEntry Args} {reason : ExitReason}
    (h : Kept w) (hgroup : w.restartGroup = none) (he : w.children.find? ref = some e)
    (hno : (!e.suppressRestart &&
      shouldRestart (restartAtSpecIndex w.specification e.specIndex) reason) = false) :
    Kept ({ w with children := w.children.erase ref } : World Args) := by
  refine ⟨h.toShape.shrink rfl rfl (fun _ => rfl) rfl fun k e' he' =>
    ⟨e', (find?_erase_some he').2, rfl⟩, fun g hg => ?_, fun k e' he' => ?_,
    fun i hi hperm => ?_⟩
  · rw [hgroup] at hg
    cases hg
  · exact h.suppress k e' (find?_erase_some he').2
  · rcases h.noLost i hi hperm with hst | hc | hp
    · exact Or.inl hst
    · obtain ⟨k, e', he', rfl⟩ := hasChild_iff.mp hc
      by_cases hk : k = ref
      · -- a permanent child goes without a restart only if the supervisor is stopping
        subst hk
        obtain rfl : e = e' := Option.some.inj (he.symm.trans he')
        have hperm' : restartAtSpecIndex w.specification e.specIndex = .permanent := hperm
        rw [hperm', shouldRestart, Bool.and_true, Bool.not_eq_false'] at hno
        exact Or.inl ((h.suppress k e he).symm.trans hno)
      · refine Or.inr (Or.inl (hasChild_iff.mpr ⟨k, e', ?_, rfl⟩))
        simp only [OrdMap.find?_erase, if_neg hk, he']
    · simp [inPlan, hgroup] at hp

/-- A supervisor that has stopped itself loses nothing. -/
lemma Kept.of_halted {w w' : World Args} (h : Shape w) (hst : w.stopping = false)
    (hh : Halted .error w w') : Kept w' := by
  refine ⟨h.shrink hh.specification hh.self hh.registered hh.nextActorId fun k e' he' => ?_,
    fun g hg => ?_, fun k e he => ?_, fun i _ _ => Or.inl hh.stopping⟩
  · have hcore := hh.core k
    rw [he', Option.map_some] at hcore
    exact Option.map_eq_some_iff.mp hcore.symm
  · rw [hh.group hst] at hg
    cases hg
  · rw [hh.stopping]
    exact hh.suppress hst k e he

/-- A child with the entry `e` that is to be restarted has just been removed; all other
permanent specs have their child. -/
structure Failed (w : World Args) (ref : ActorRef) (e : ChildEntry Args) : Prop where
  shape : Shape w
  group : w.restartGroup = none
  running : w.stopping = false
  suppress : ∀ k e', w.children.find? k = some e' → e'.suppressRestart = false
  removed : w.children.find? ref = none
  index_lt : e.specIndex < w.specification.children.length
  free : ∀ k e', w.children.find? k = some e' → e'.specIndex ≠ e.specIndex
  others : ∀ i < w.specification.children.length,
    restartAtSpecIndex w.specification i = .permanent → i ≠ e.specIndex → hasChild w i = true

/-- What is left when a child whose termination calls for a restart is removed. -/
lemma Kept.failed {w : World Args} {ref : ActorRef} {e : ChildEntry Args} (h : Kept w)
    (hgroup : w.restartGroup = none) (he : w.children.find? ref = some e)
    (hsup : e.suppressRestart = false) :
    Failed ({ w with children := w.children.erase ref } : World Args) ref e := by
  have hst : w.stopping = false := (h.suppress ref e he).symm.trans hsup
  refine ⟨h.toShape.shrink rfl rfl (fun _ => rfl) rfl fun k e' he' =>
      ⟨e', (find?_erase_some he').2, rfl⟩, hgroup, hst, fun k e' he' => ?_, by simp,
    h.index_lt ref e he, fun k e' he' heq => ?_, fun i hi hperm hne => ?_⟩
  · exact (h.suppress k e' (find?_erase_some he').2).trans hst
  · obtain ⟨hk, he''⟩ := find?_erase_some he'
    exact hk (h.unique k ref e' e he'' he heq)
  · rcases h.noLost i hi hperm with hst' | hc | hp
    · rw [hst] at hst'
      cases hst'
    · obtain ⟨k, e', he', rfl⟩ := hasChild_iff.mp hc
      have hk : k ≠ ref := by
        rintro rfl
        exact hne (by rw [Option.some.inj (he.symm.trans he')])
      refine hasChild_iff.mpr ⟨k, e', ?_, rfl⟩
      simp only [OrdMap.find?_erase, if_neg hk, he']
    · simp [inPlan, hgroup] at hp

/-- Restarting the failed child alone. -/
lemma Failed.respawn {w : World Args} {ref : ActorRef} {e : ChildEntry Args}
    (h : Failed w ref e) : Kept (respawned w e) ∧ (respawned w e).phase = w.phase := by
  rw [respawned, if_pos h.index_lt]
  obtain ⟨hgrow, hidx⟩ := Grown.startedChild h.shape e.args h.index_lt
  refine ⟨⟨hgrow.shape, fun g hg => ?_, fun k e' he' => ?_, fun i hi hperm => ?_⟩, hgrow.phase⟩
  · rw [hgrow.group, h.group] at hg
    cases hg
  · exact (hgrow.suppress h.suppress k e' he').trans (hgrow.stopping.trans h.running).symm
  · rw [hgrow.specification] at hi hperm
    by_cases hie : i = e.specIndex
    · exact Or.inr (Or.inl (hie ▸ hidx))
    · exact Or.inr (Or.inl (hgrow.hasChild i (h.others i hi hperm hie)))

/-- A group restart that begins keeps the invariant: the failed child is in the plan, and the
other children are still there. -/
lemma Failed.begin_post {w : World Args} {ref : ActorRef} {e : ChildEntry Args}
    (reason : ExitReason) (h : Failed w ref e) :
    Post (beginRestartGroup ref e reason : SupM Args Unit) w
      (fun _ w' => Kept w' ∧ w'.phase = w.phase) (fun _ => True) := by
  rw [beginRestartGroup, post_bind, post_get]
  simp only [post_bind, post_set]
  refine (stopPlan_post (w := { w with restartGroup := some { strategy := _, plan := _ } }) _
    rfl (nodup_restartPlan_ref e reason h.removed) h.shape.self_not_child).mono ?_
    fun _ _ => trivial
  rintro _ w' ⟨hmark, hgroup', hfind, -⟩
  simp only [List.nil_append] at hgroup'
  have hcore : ∀ k e', w'.children.find? k = some e' →
      ∃ e'', w.children.find? k = some e'' ∧ e''.core = e'.core := by
    intro k e' he'
    have hc := hmark.core k
    rw [he', Option.map_some] at hc
    exact Option.map_eq_some_iff.mp hc.symm
  have hback : ∀ k e'', w.children.find? k = some e'' →
      ∃ e', w'.children.find? k = some e' ∧ e'.core = e''.core := by
    intro k e'' he''
    have hc := hmark.core k
    rw [show (_ : World Args).children = w.children from rfl, he'', Option.map_some] at hc
    exact Option.map_eq_some_iff.mp hc
  have hshape : Shape w' :=
    h.shape.shrink hmark.specification hmark.self hmark.registered hmark.nextActorId hcore
  refine (finalizeIfDone_post hshape hgroup'
    ⟨hmark.stopping.trans h.running, ?_, ?_, ?_, ?_⟩ ?_ ?_).mono
    (fun _ w'' hk => ⟨hk.1, hk.2.trans hmark.phase⟩) fun _ => False.elim
  · intro item hitem
    rw [hmark.specification]
    rcases mem_restartPlan hitem with ⟨-, heq⟩ | hc
    · rw [heq]
      exact h.index_lt
    · exact h.shape.index_lt _ _ hc
  · intro r hr e' he'
    obtain ⟨item, hitem, rfl⟩ := List.mem_map.mp (List.mem_filter.mp hr).1
    obtain ⟨e'', he'', hc⟩ := hcore _ _ he'
    refine ⟨item, hitem, ?_⟩
    rcases mem_restartPlan hitem with ⟨heq, -⟩ | hitem'
    · rw [heq, h.removed] at he''
      cases he''
    · obtain rfl : item.entry = e'' := Option.some.inj (hitem'.symm.trans he'')
      exact congrArg Prod.fst hc
  · -- a child that is not waited for has no item in the plan: each spec has one child
    intro k e' he' hk item hitem heq
    obtain ⟨e'', he'', hc⟩ := hcore _ _ he'
    have hidx : e''.specIndex = e'.specIndex := congrArg Prod.fst hc
    rcases mem_restartPlan hitem with ⟨-, heq'⟩ | hitem'
    · exact h.free k e'' he'' (by rw [hidx, ← heq, heq'])
    · have hkey : k = item.ref := h.shape.unique k item.ref e'' item.entry he'' hitem'
        (by rw [hidx, heq])
      refine hk (List.mem_filter.mpr ⟨hkey ▸ List.mem_map_of_mem hitem, ?_⟩)
      exact OrdMap.contains_iff.mpr ⟨e'', he''⟩
  · intro hstrat k hk
    rw [hmark.specification] at hstrat
    obtain ⟨e', he'⟩ := OrdMap.contains_iff.mp hk
    obtain ⟨e'', he'', -⟩ := hcore _ _ he'
    have hk' : w.children.contains k = true := OrdMap.contains_iff.mpr ⟨e'', he''⟩
    exact List.mem_filter.mpr ⟨mem_restartPlan_of_child hstrat hk', hk'⟩
  · intro k e' he'
    rw [hfind] at he'
    split at he'
    · obtain ⟨e'', -, rfl⟩ := Option.map_eq_some_iff.mp he'
      rfl
    · exact h.suppress k e' he'
  · intro i hi hperm
    rw [hmark.specification] at hi hperm
    by_cases hie : i = e.specIndex
    · refine Or.inr (Or.inr ((inPlan_iff hgroup').mpr ⟨_, List.mem_cons_self, hie.symm⟩))
    · obtain ⟨k, e'', he'', rfl⟩ := hasChild_iff.mp (h.others i hi hperm hie)
      obtain ⟨e', he', hc⟩ := hback k e'' he''
      exact Or.inr (Or.inl (hasChild_iff.mpr ⟨k, e', he', congrArg Prod.fst hc⟩))

/-- A restart that is due is carried out, or refused and the supervisor stops. -/
lemma Failed.restart_post {w : World Args} {ref : ActorRef} {e : ChildEntry Args}
    (reason : ExitReason) (h : Failed w ref e) :
    Post (do
        if ← registerRestart then
          match w.specification.strategy with
          | .oneForOne | .simpleOneForOne => respawnWithEntry e
          | .oneForAll | .restForOne => beginRestartGroup ref e reason
        else pure () : SupM Args Unit) w
      (fun _ w' => Kept w' ∧ w'.phase = w.phase) (fun _ => True) := by
  rw [post_bind]
  refine (registerRestart_post h.shape.self_not_child).mono ?_ fun _ _ => trivial
  rintro ok w' (⟨rfl, -, rfl⟩ | ⟨rfl, -, hh, -⟩)
  · have hrec : Failed { w with restartTimes := windowTimes w } ref e :=
      { h with shape := { h.shape with } }
    have hsingle : Post (respawnWithEntry e : SupM Args Unit)
        { w with restartTimes := windowTimes w }
        (fun _ w' => Kept w' ∧ w'.phase = w.phase) (fun _ => True) := by
      rw [Post, respawnWithEntry_run hrec.shape.registered_self]
      exact hrec.respawn
    simp only [if_true]
    cases w.specification.strategy with
    | oneForOne => exact hsingle
    | simpleOneForOne => exact hsingle
    | oneForAll => exact hrec.begin_post reason
    | restForOne => exact hrec.begin_post reason
  · exact post_pure.mpr ⟨Kept.of_halted h.shape h.running hh, hh.phase⟩

/-- A termination that is expected keeps the invariant, unless an operation raises. -/
lemma handleTermination_post {w : World Args} {ref : ActorRef} (reason : ExitReason)
    (h : Kept w) (hexp : Expected w ref) :
    Post (handleTermination ref reason : SupM Args Unit) w
      (fun _ w' => Kept w' ∧ w'.phase = w.phase) (fun _ => True) := by
  rw [handleTermination, post_bind, post_get]
  by_cases hg : w.restartGroup.isSome = true
  · obtain ⟨g, hgroup⟩ := Option.isSome_iff_exists.mp hg
    simp only [hg, if_true]
    exact (handleRestartGroupStop_post h hgroup hexp).mono (fun _ _ => id) fun _ _ => trivial
  · simp only [hg, Bool.false_eq_true, if_false]
    have hgroup : w.restartGroup = none := by simpa using hg
    cases he : w.children.find? ref with
    | none => exact post_pure.mpr ⟨h, rfl⟩
    | some e =>
        simp only
        rw [post_bind, post_set]
        by_cases hwill : (!e.suppressRestart &&
          shouldRestart (restartAtSpecIndex w.specification e.specIndex) reason) = true
        · rw [if_pos hwill]
          rw [Bool.and_eq_true, Bool.not_eq_true'] at hwill
          exact (h.failed hgroup he hwill.1).restart_post reason
        · rw [if_neg hwill]
          rw [Bool.not_eq_true] at hwill
          exact post_pure.mpr ⟨h.forget hgroup he hwill, rfl⟩

/-- A termination that is not expected loses a child. -/
lemma handleTermination_lost {w : World Args} {ref : ActorRef} (reason : ExitReason)
    (h : Kept w) (hexp : ¬ Expected w ref) :
    Post (handleTermination ref reason : SupM Args Unit) w
      (fun _ w' => ¬ NoLost w') (fun _ => False) := by
  have hsome : w.restartGroup.isSome = true := by
    cases hg : w.restartGroup with
    | none => exact absurd (fun g h' => by rw [hg] at h'; cases h') hexp
    | some g => rfl
  rw [handleTermination, post_bind, post_get]
  simp only [hsome, if_true]
  exact handleRestartGroupStop_lost h hexp

/-! ### Whole runs -/

/-- A supervisor whose `run` has not begun. -/
structure Fresh (w : World Args) : Prop extends Shape w where
  empty : w.children = ∅
  noGroup : w.restartGroup = none
  running : w.stopping = false

/-- The invariant of runs: it is of interest only until an operation raises. -/
def Inv (s : System Args) : Prop :=
  s.raised = false → (s.world.phase = .created ∧ Fresh s.world) ∨
    (s.world.phase ≠ .created ∧ Kept s.world)

/-- The condition on steps: no administrative operation, and no unexpected termination. -/
def Fits (s : System Args) (l : Label Args) : Prop :=
  l.administrative = false ∧
    (l.receive? = true → ∀ sg ∈ s.world.mailbox.head?, Expected s.world sg.source)

instance (s : System Args) (l : Label Args) : Decidable (Fits s l) :=
  inferInstanceAs (Decidable (_ ∧ (_ → _)))

lemma Shape.withSched {w : World Args} (h : Shape w) {sched : SchedulerBase} (now : ℤ)
    (hwf : sched.WellFormed) (hreg : sched.actors.contains w.self = true)
    (hle : w.sched.nextActorId ≤ sched.nextActorId) :
    Shape ({ w with sched := sched, now := now } : World Args) :=
  ⟨h.static, hwf, hreg, h.self_not_child, fun k hk => (h.child_lt k hk).trans_le hle,
    h.child_pos, h.index_lt, h.unique⟩

lemma Kept.withSched {w : World Args} (h : Kept w) {sched : SchedulerBase} (now : ℤ)
    (hwf : sched.WellFormed) (hreg : sched.actors.contains w.self = true)
    (hle : w.sched.nextActorId ≤ sched.nextActorId) :
    Kept ({ w with sched := sched, now := now } : World Args) :=
  ⟨h.toShape.withSched now hwf hreg hle,
    fun g hg => ⟨(h.group g hg).1, { (h.group g hg).2 with }⟩, h.suppress, h.noLost⟩

lemma Kept.withPhase {w : World Args} (h : Kept w) (phase : Phase) :
    Kept ({ w with phase := phase } : World Args) :=
  ⟨{ h.toShape with }, fun g hg => ⟨(h.group g hg).1, { (h.group g hg).2 with }⟩,
    h.suppress, h.noLost⟩

lemma Kept.popped {w : World Args} (h : Kept w) : Kept (popped w) := by
  refine h.withSched w.now ⟨h.wellFormed.pos, fun k hk => ?_⟩ ?_ le_rfl
  · exact h.wellFormed.lt k ((popped_registered w k).symm.trans hk)
  · exact (popped_registered w w.self).trans h.registered_self

/-- `init` starts a child for every spec. -/
lemma init_post {w : World Args} (h : Fresh w) :
    Post (initAndSupervise : SupM Args Unit) w
      (fun _ w' => Kept w' ∧ w'.phase = .supervising) (fun _ => False) := by
  rw [initAndSupervise, post_bind, init, post_bind, post_get]
  simp only [h.static, if_false]
  refine Post.mono (post_forM (fun done rest w' =>
      done ++ rest = List.range w.specification.children.length ∧ Grown w w' ∧
      ∀ i ∈ done, hasChild w' i = true) ?_ _ w ⟨rfl, Grown.refl h.toShape, by simp⟩) ?_
    fun _ => False.elim
  · rintro done i rest w' ⟨hsplit, hgrow, hall⟩
    have hi : i < w.specification.children.length :=
      List.mem_range.mp (by rw [← hsplit]; simp)
    have hspec : w'.specification.children[i]? = some w.specification.children[i] := by
      rw [hgrow.specification]
      exact List.getElem?_eq_getElem hi
    rw [Post, startChildByIndex_run hgrow.shape.registered_self hspec]
    obtain ⟨hstep, hidx⟩ := Grown.startedChild hgrow.shape
      (chosenArgs w' w.specification.children[i] none) (by rwa [hgrow.specification])
    refine ⟨by simpa using hsplit, hgrow.trans hstep, fun j hj => ?_⟩
    rcases List.mem_append.mp hj with hj | hj
    · exact hstep.hasChild j (hall j hj)
    · rw [List.mem_singleton.mp hj]
      exact hidx
  · rintro _ w' ⟨-, hgrow, hall⟩
    rw [post_modify]
    have hshape := hgrow.shape
    refine ⟨⟨{ hshape with }, fun g hg => ?_, fun k e he => ?_, fun i hi _ => ?_⟩, rfl⟩
    · rw [show (_ : World Args).restartGroup = w'.restartGroup from rfl, hgrow.group,
        h.noGroup] at hg
      cases hg
    · refine (hgrow.suppress (fun k e he => ?_) k e he).trans (hgrow.stopping.trans h.running).symm
      rw [h.empty] at he
      cases he
    · refine Or.inr (Or.inl (hall i (List.mem_range.mpr ?_)))
      rwa [← hgrow.specification]

/-- One round of `supervise_loop` with a signal that is expected. -/
lemma superviseVisitor_post {w : World Args} {sg : Signal} (h : Kept w)
    (hphase : w.phase = .supervising) (hexp : Expected w sg.source) :
    Post (superviseVisitor sg : SupM Args Unit) w
      (fun _ w' => w'.phase ≠ .created ∧ Kept w') (fun _ => True) := by
  refine superviseVisitor_cases (fun _ _ => ⟨by simp, h.withPhase .ended⟩)
    (fun _ => ⟨by simp [hphase], h⟩) fun _ => ?_
  refine (handleTermination_post sg.reason h hexp).mono (fun _ w' hk => ⟨?_, hk.1⟩) fun _ => id
  rw [hk.2, hphase]
  simp

/-- One round of `supervise_loop` with a signal that is not expected. -/
lemma superviseVisitor_lost {w : World Args} {sg : Signal} (h : Kept w)
    (hexp : ¬ Expected w sg.source) :
    Post (superviseVisitor sg : SupM Args Unit) w
      (fun _ w' => ¬ NoLost w') (fun _ => False) := by
  have hchild : w.children.contains sg.source = true := by
    by_contra hc
    rw [OrdMap.contains, Option.isSome_iff_exists] at hc
    exact hexp fun g _ e he => absurd ⟨e, he⟩ hc
  have hne : sg.source ≠ w.self := by
    intro heq
    rw [heq, h.self_not_child] at hchild
    cases hchild
  exact superviseVisitor_cases (fun _ hself => absurd hself hne)
    (fun hzero => absurd hzero (h.child_pos _ hchild)) fun _ =>
    handleTermination_lost sg.reason h hexp

lemma inv_create {sched : SchedulerBase} (hwf : sched.WellFormed) {spec : Specification Args}
    (hstatic : spec.strategy ≠ .simpleOneForOne) : Inv (create sched spec) := by
  refine fun _ => Or.inl ⟨rfl, ⟨⟨hstatic, hwf.spawnImpl 0 0, ?_, rfl, ?_, ?_, ?_, ?_⟩, rfl, rfl,
    rfl⟩⟩
  · exact (SchedulerBase.contains_spawnImpl _ _ _ _).trans (by simp [create])
  · intro k hk
    cases hk
  · intro k hk
    cases hk
  · intro k e he
    cases he
  · intro k k' e e' he
    cases he

/-- Before `init` has run, a step keeps the invariant. -/
lemma Fresh.step {s t : System Args} {l : Label Args} (h : Fresh s.world)
    (hphase : s.world.phase = .created) (hadmin : l.administrative = false)
    (hstep : step s l = some t) : Inv t := by
  by_cases henv : l.environment = true
  · obtain ⟨sched, now, rfl, hwf, hreg, hle⟩ :=
      step_environment hstep henv h.wellFormed h.registered_self
    exact fun _ => Or.inl ⟨hphase, h.toShape.withSched now hwf hreg hle, h.empty, h.noGroup,
      h.running⟩
  · cases l with
    | init =>
        obtain ⟨-, rfl⟩ := step_init hstep
        rcases perform_eq_of_post (init_post h) with ⟨-, hkept, hsup⟩ | ⟨-, hf⟩
        · exact fun _ => Or.inr ⟨by rw [hsup]; simp, hkept⟩
        · exact hf.elim
    | receive =>
        obtain ⟨hsup, -⟩ := step_receive hstep
        rw [hphase] at hsup
        cases hsup
    | _ => simp [Label.administrative, Label.environment] at hadmin henv

/-- Once `init` has run, a step that fits keeps the invariant. -/
lemma Kept.step {s t : System Args} {l : Label Args} (h : Kept s.world)
    (hphase : s.world.phase ≠ .created) (hfit : Fits s l) (hstep : step s l = some t)
    (hraised : t.raised = false) : t.world.phase ≠ .created ∧ Kept t.world := by
  have hadmin := hfit.1
  by_cases henv : l.environment = true
  · obtain ⟨sched, now, rfl, hwf, hreg, hle⟩ :=
      step_environment hstep henv h.wellFormed h.registered_self
    exact ⟨hphase, h.withSched now hwf hreg hle⟩
  · cases l with
    | init => exact absurd (step_init hstep).1 hphase
    | receive =>
        obtain ⟨hsup, sg, rest, hbox, rfl⟩ := step_receive hstep
        have hexp : Expected (Supervisor.popped s.world) sg.source :=
          hfit.2 rfl sg (by simp [hbox])
        exact post_of_perform (superviseVisitor_post h.popped hsup hexp) hraised
    | _ => simp [Label.administrative, Label.environment] at hadmin henv

lemma inv_step {s t : System Args} {l : Label Args} (h : Inv s) (hfit : Fits s l)
    (hstep : step s l = some t) : Inv t := by
  rcases h (raised_of_step hstep) with ⟨hphase, hfresh⟩ | ⟨hphase, hkept⟩
  · exact hfresh.step hphase hfit.1 hstep
  · exact fun hr => Or.inr (hkept.step hphase hfit hstep hr)

/-- A step that does not fit, and is not an administrative operation, loses a child. -/
lemma lost_step {s t : System Args} {l : Label Args} (h : Kept s.world)
    (hadmin : l.administrative = false) (hfit : ¬ Fits s l) (hstep : step s l = some t) :
    ¬ NoLost t.world := by
  simp only [Fits, hadmin, true_and, Classical.not_imp, not_forall] at hfit
  obtain ⟨hrec, sg, hhead, hexp⟩ := hfit
  cases l with
  | receive =>
      obtain ⟨hsup, sg', rest, hbox, rfl⟩ := step_receive hstep
      obtain rfl : sg' = sg := by simpa [hbox] using hhead
      have hexp' : ¬ Expected (popped s.world) sg'.source := hexp
      rcases perform_eq_of_post (superviseVisitor_lost h.popped hexp') with ⟨-, hl⟩ | ⟨-, hf⟩
      · exact hl
      · exact hf.elim
  | _ => cases hrec

/-- Except under `rest_for_one`, every child is a member of the active group. -/
lemma Kept.fits {s : System Args} {l : Label Args} (h : Kept s.world)
    (hstrat : s.world.specification.strategy ≠ .restForOne)
    (hadmin : l.administrative = false) : Fits s l := by
  refine ⟨hadmin, fun _ sg _ g hg e he _ => ?_⟩
  exact (h.group g hg).2.covers hstrat _ (OrdMap.contains_iff.mpr ⟨e, he⟩)

/-- In every run in which the permanent children that terminate during a group restart are
members of the group, no permanent child is lost; the first other termination of a permanent
child loses it, and there can be one only under `rest_for_one`. -/
theorem permanent_children_kept {sched : SchedulerBase} (hwf : sched.WellFormed)
    {spec : Specification Args} (hstatic : spec.strategy ≠ .simpleOneForOne)
    {labels : List (Label Args)} {s : System Args}
    (hrun : run step (create sched spec) labels = some s)
    (hfits : AllSteps step Fits (create sched spec) labels)
    (hraised : s.raised = false) (hinit : s.world.phase ≠ .created) :
    NoLost s.world ∧ ∀ l t, l.administrative = false → step s l = some t → t.raised = false →
      (NoLost t.world ↔ Fits s l) ∧
        (s.world.specification.strategy ≠ .restForOne → Fits s l) := by
  have hinv : Inv s :=
    invariant (fun s a t => inv_step) (inv_create hwf hstatic) hfits hrun
  rcases hinv hraised with ⟨hphase, -⟩ | ⟨-, hkept⟩
  · exact absurd hphase hinit
  · refine ⟨hkept.noLost, fun l t hadmin hstep hr => ⟨⟨fun hnl => ?_, fun hfit => ?_⟩,
      fun hstrat => hkept.fits hstrat hadmin⟩⟩
    · by_contra hfit
      exact lost_step hkept hadmin hfit hstep hnl
    · exact (hkept.step hinit hfit hstep hr).2.noLost

/-- Three permanent children under `rest_for_one`. -/
def threePermanent : Specification Unit where
  strategy := .restForOne
  intensity := { maxRestarts := 3, within := 10 }
  children := List.replicate 3 { args := (), defaultArgs := () }

/-- The middle child fails, and the last one, a member of the group, stops. -/
def memberStops : List (Label Unit) :=
  [.init, .exit 3 .error, .receive, .exit 4 .stopped, .receive]

/-- The middle child fails, and the first one, not a member of the group, exits before the
last one has stopped. -/
def outsiderExits : List (Label Unit) :=
  [.init, .exit 3 .error, .receive, .exit 2 .normal, .receive]

/-- A member of the group stops after it has been asked. -/
theorem permanent_children_kept_memberStops :
    run step (create {} threePermanent) memberStops =
        some (reached step (create {} threePermanent) memberStops) ∧
      NoLost (reached step (create {} threePermanent) memberStops).world :=
  have hrun := run_eq_reached (by decide +kernel)
  ⟨hrun, (permanent_children_kept ⟨by decide, fun k hk => by cases hk⟩ (by decide) hrun
    (by decide +kernel) (by decide +kernel) (by decide +kernel)).1⟩

/-- The first child, which had nothing to do with the restart, is gone for good. -/
theorem rest_for_one_loses_child :
    (∀ l ∈ outsiderExits, l.administrative = false) ∧
    ∃ s, run step (create {} threePermanent) outsiderExits = some s ∧ s.raised = false ∧
      s.world.phase = .supervising ∧ ¬ NoLost s.world :=
  ⟨by decide, _, run_eq_reached (by decide +kernel), by decide +kernel, by decide +kernel,
    by decide +kernel⟩

end Supervisor

end Agner
