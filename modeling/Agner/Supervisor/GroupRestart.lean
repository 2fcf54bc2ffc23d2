import Agner.Supervisor.Shutdown

/-!
Group restarts, from the failure that begins one to the respawning of its members.

A run of `init` and of signals, without administrative operations, keeps `children_` in line:
actor refs and start orders grow together, every spec has at most one child, and under
`rest_for_one` the specs come in the order of the specification. The plan of an active group
continues the children that are not members of it.

* `Lined`: the invariant, with `GroupLined` for an active group. Its parameter `ordered` says
  whether the order of the specs is kept as well.
* `freshChildren`: the children that a list of respawns appends to `children_`.
* `Progress`: how far a group has come when some of its members have been reported.
* `group_restart_order_independent`: whatever the order of the reports, the group is finalized
  with the last of them, and the result is the same.
-/

namespace Agner

open Raising Runs

namespace Supervisor

variable {Args : Type} {ordered : Prop}

/-! ### Restarts that are due -/

/-- Handling the termination of `ref` goes on to restart it: `handle_termination` reaches
`respawn_with_entry` or `begin_restart_group`. -/
def restarts (w : World Args) (ref : ActorRef) (reason : ExitReason) : Bool :=
  w.restartGroup.isNone && granted w &&
    (w.children.find? ref).any fun e => !e.suppressRestart &&
      shouldRestart (restartAtSpecIndex w.specification e.specIndex) reason

/-! ### Children in line -/

/-- The spec `i` may stand before `j`: they differ, and if the specs are kept in order the order
is that of the specification. -/
def Precedes (ordered : Prop) (i j : ℕ) : Prop := i ≠ j ∧ (ordered → i < j)

/-- Refs, start orders and specs are in line. -/
structure Ranked (ordered : Prop) (w : World Args) : Prop extends Shape w where
  order_lt : ∀ k e, w.children.find? k = some e → e.startOrder < w.nextStartOrder
  orders : ∀ k k' e e', w.children.find? k = some e → w.children.find? k' = some e' → k < k' →
    e.startOrder < e'.startOrder
  specs : ∀ k k' e e', w.children.find? k = some e → w.children.find? k' = some e' → k < k' →
    Precedes ordered e.specIndex e'.specIndex
  suppress : ∀ k e, w.children.find? k = some e → e.suppressRestart = w.stopping

/-- An active group: its pending stops are children, and its plan comes after the other
children. -/
structure GroupLined (ordered : Prop) (w : World Args) (g : RestartGroup Args) : Prop where
  running : w.stopping = false
  pending_nodup : g.pendingStops.Nodup
  pending_child : ∀ r ∈ g.pendingStops, w.children.contains r = true
  plan_lt : ∀ item ∈ g.plan, item.entry.specIndex < w.specification.children.length
  plan_specs : g.plan.Pairwise fun item item' =>
    Precedes ordered item.entry.specIndex item'.entry.specIndex
  outside : ∀ k e, w.children.find? k = some e → k ∉ g.pendingStops → ∀ item ∈ g.plan,
    Precedes ordered e.specIndex item.entry.specIndex
  covers : w.specification.strategy ≠ .restForOne →
    ∀ k, w.children.contains k = true → k ∈ g.pendingStops

/-- The invariant of runs without administrative operations. -/
structure Lined (ordered : Prop) (w : World Args) : Prop extends Ranked ordered w where
  group : ∀ g, w.restartGroup = some g → g.pendingStops ≠ [] ∧ GroupLined ordered w g

/-- Removing children and changing flags keeps children in line. -/
lemma Ranked.shrink {w w' : World Args} (h : Ranked ordered w)
    (hspec : w'.specification = w.specification) (hself : w'.self = w.self)
    (hreg : ∀ k, w'.registered k = w.registered k)
    (hnext : w'.sched.nextActorId = w.sched.nextActorId)
    (horder : w'.nextStartOrder = w.nextStartOrder)
    (hsub : ∀ k e', w'.children.find? k = some e' →
      ∃ e, w.children.find? k = some e ∧ e.core = e'.core)
    (hsup : ∀ k e', w'.children.find? k = some e' → e'.suppressRestart = w'.stopping) :
    Ranked ordered w' := by
  have hcore : ∀ {e e' : ChildEntry Args}, e.core = e'.core →
      e.specIndex = e'.specIndex ∧ e.startOrder = e'.startOrder :=
    fun hc => ⟨congrArg Prod.fst hc, congrArg (fun c => c.2.1) hc⟩
  refine { h.toShape.shrink hspec hself hreg hnext hsub with
    order_lt := fun k e he => ?_, orders := fun k k' e e' he he' hlt => ?_,
    specs := fun k k' e e' he he' hlt => ?_, suppress := hsup }
  · obtain ⟨e₀, he₀, hc⟩ := hsub k e he
    rw [horder, ← (hcore hc).2]
    exact h.order_lt k e₀ he₀
  · obtain ⟨e₀, he₀, hc⟩ := hsub k e he
    obtain ⟨e₁, he₁, hc'⟩ := hsub k' e' he'
    rw [← (hcore hc).2, ← (hcore hc').2]
    exact h.orders k k' e₀ e₁ he₀ he₁ hlt
  · obtain ⟨e₀, he₀, hc⟩ := hsub k e he
    obtain ⟨e₁, he₁, hc'⟩ := hsub k' e' he'
    rw [← (hcore hc).1, ← (hcore hc').1]
    exact h.specs k k' e₀ e₁ he₀ he₁ hlt

lemma Ranked.dropped {w : World Args} (h : Ranked ordered w) (ref : ActorRef) :
    Ranked ordered (dropped w ref) :=
  h.shrink rfl rfl (fun _ => rfl) rfl rfl (fun _ e he => ⟨e, (find?_erase_some he).2, rfl⟩)
    fun k e he => h.suppress k e (find?_erase_some he).2

/-- Any two children are in line one way or the other. -/
lemma Ranked.side {w : World Args} (h : Ranked ordered w) {k k' : ActorRef} {e e' : ChildEntry Args}
    (he : w.children.find? k = some e) (he' : w.children.find? k' = some e') (hne : k ≠ k') :
    (e.startOrder < e'.startOrder ∧
      Precedes ordered e.specIndex e'.specIndex) ∨
    (e'.startOrder < e.startOrder ∧
      Precedes ordered e'.specIndex e.specIndex) := by
  rcases lt_or_gt_of_ne hne with hlt | hlt
  · exact Or.inl ⟨h.orders k k' e e' he he' hlt, h.specs k k' e e' he he' hlt⟩
  · exact Or.inr ⟨h.orders k' k e' e he' he hlt, h.specs k' k e' e he' he hlt⟩

/-! ### Respawning -/

/-- The children that respawning a list of entries adds: refs and start orders are counted up,
the flags are reset. -/
def freshChildren : ActorRef → ℕ → List (ChildEntry Args) → List (ActorRef × ChildEntry Args)
  | _, _, [] => []
  | ref, order, e :: es =>
      (ref, { specIndex := e.specIndex, startOrder := order, args := e.args }) ::
        freshChildren (ref + 1) (order + 1) es

/-- What respawning a list of entries does. -/
structure Respawns (es : List (ChildEntry Args)) (w w' : World Args) : Prop where
  entries : w'.children.entries =
    w.children.entries ++ freshChildren w.sched.nextActorId w.nextStartOrder es
  spawned : w'.spawned = w.spawned ++
    (freshChildren w.sched.nextActorId w.nextStartOrder es).map fun c => (c.1, c.2.specIndex)
  group : w'.restartGroup = w.restartGroup
  stopping : w'.stopping = w.stopping
  specification : w'.specification = w.specification
  phase : w'.phase = w.phase

/-- A child whose spec comes after all others is started. -/
lemma Ranked.started {w : World Args} (h : Ranked ordered w) (hrun : w.stopping = false) {index : ℕ}
    (args : Args) (hlt : index < w.specification.children.length)
    (hafter : ∀ k e, w.children.find? k = some e →
      Precedes ordered e.specIndex index) :
    Ranked ordered (started w index args) := by
  have hfree : hasChild w index = false := by
    rw [← Bool.not_eq_true, hasChild_iff]
    rintro ⟨k, e, he, hi⟩
    exact (hafter k e he).1 hi
  have hfind := find?_started w index args
  have hlast : ∀ {k e}, (Supervisor.started w index args).children.find? k = some e →
      ¬ w.sched.nextActorId < k := by
    intro k e he hgt
    rw [hfind, if_neg hgt.ne'] at he
    exact absurd (h.child_lt k (OrdMap.contains_iff.mpr ⟨e, he⟩)) (lt_asymm hgt)
  refine { h.toShape.started args hlt hfree with
    order_lt := fun k e he => ?_, orders := fun k k' e e' he he' hkk => ?_,
    specs := fun k k' e e' he he' hkk => ?_, suppress := fun k e he => ?_ }
  · show e.startOrder < w.nextStartOrder + 1
    rw [hfind] at he
    split at he
    · obtain rfl := Option.some.inj he
      exact Nat.lt_succ_self _
    · exact (h.order_lt k e he).trans (Nat.lt_succ_self _)
  · rw [hfind] at he
    split at he
    · rename_i hk
      exact absurd hkk (hk ▸ hlast he')
    · rw [hfind] at he'
      split at he'
      · obtain rfl := Option.some.inj he'
        exact h.order_lt k e he
      · exact h.orders k k' e e' he he' hkk
  · rw [hfind] at he
    split at he
    · rename_i hk
      exact absurd hkk (hk ▸ hlast he')
    · rw [hfind] at he'
      split at he'
      · obtain rfl := Option.some.inj he'
        exact hafter k e he
      · exact h.specs k k' e e' he he' hkk
  · rw [hfind] at he
    split at he
    · obtain rfl := Option.some.inj he
      exact hrun.symm
    · exact h.suppress k e he

/-- The new child stands at the end of `children_`. -/
lemma entries_started {w : World Args} (h : Shape w) (index : ℕ) (args : Args) :
    (started w index args).children.entries = w.children.entries ++
      [(w.sched.nextActorId,
        { specIndex := index, startOrder := w.nextStartOrder, args := args })] :=
  OrdMap.entries_insert_of_forall_lt _ fun p hp =>
    h.child_lt p.1 (OrdMap.contains_iff.mpr ⟨p.2, OrdMap.mem_entries_iff.mp hp⟩)

/-- Entries whose specs continue those of `children_` are all respawned, in order. -/
lemma Ranked.foldl_respawned {w : World Args} (h : Ranked ordered w) (hrun : w.stopping = false)
    (es : List (ChildEntry Args))
    (hlt : ∀ e ∈ es, e.specIndex < w.specification.children.length)
    (hes : es.Pairwise fun e e' => Precedes ordered e.specIndex e'.specIndex)
    (hafter : ∀ k c, w.children.find? k = some c → ∀ e ∈ es,
      Precedes ordered c.specIndex e.specIndex) :
    Ranked ordered (es.foldl respawned w) ∧ Respawns es w (es.foldl respawned w) := by
  induction es generalizing w with
  | nil => exact ⟨h, by simp [freshChildren], by simp [freshChildren], rfl, rfl, rfl, rfl⟩
  | cons e es ih =>
      obtain ⟨hhead, htail⟩ := List.pairwise_cons.mp hes
      have hlt' : e.specIndex < w.specification.children.length := hlt e List.mem_cons_self
      have hnone : findRunningChildForSpec w e.specIndex = none := by
        rw [findRunningChildForSpec_eq_none, ← Bool.not_eq_true, hasChild_iff]
        rintro ⟨k, c, hc, hi⟩
        exact (hafter k c hc e List.mem_cons_self).1 hi
      have hone : respawned w e = Supervisor.started w e.specIndex e.args := by
        simp only [respawned, if_pos hlt', startedChild, if_neg h.static, hnone]
      have hstart := h.started hrun e.args hlt' fun k c hc => hafter k c hc e List.mem_cons_self
      have hentries := entries_started h.toShape e.specIndex e.args
      obtain ⟨hr, hgrow⟩ := ih hstart hrun
        (fun x hx => hlt x (List.mem_cons_of_mem e hx)) htail fun k c hc x hx => by
          rw [← OrdMap.mem_entries_iff, hentries, List.mem_append, List.mem_singleton] at hc
          rcases hc with hc | hc
          · exact hafter k c (OrdMap.mem_entries_iff.mp hc) x (List.mem_cons_of_mem e hx)
          · rw [(Prod.mk.inj hc).2]
            exact hhead x hx
      rw [List.foldl_cons, hone]
      refine ⟨hr, ?_, ?_, hgrow.group, hgrow.stopping, hgrow.specification, hgrow.phase⟩
      · rw [hgrow.entries, hentries, List.append_assoc]
        rfl
      · rw [hgrow.spawned]
        exact List.append_assoc _ _ _

/-! ### The end of a group -/

/-- A group whose last member has stopped respawns its plan behind the children left. -/
lemma GroupLined.finalize {w : World Args} {g : RestartGroup Args} (h : Ranked ordered w)
    (hg : GroupLined ordered w g) (hpend : g.pendingStops = []) :
    Lined ordered (finalized w g) ∧ Respawns (RestartGroup.toRespawn w.specification g)
      { w with restartGroup := none } (finalized w g) := by
  have hbase : Ranked ordered ({ w with restartGroup := none } : World Args) :=
    { h with toShape := { h.toShape with } }
  have hitem : ∀ e ∈ RestartGroup.toRespawn w.specification g,
      ∃ item ∈ g.plan, item.entry = e := by
    intro e he
    obtain ⟨item, hitem, rfl⟩ := List.mem_map.mp he
    exact ⟨item, (List.mem_filter.mp hitem).1, rfl⟩
  obtain ⟨hr, hgrow⟩ := hbase.foldl_respawned hg.running
    (RestartGroup.toRespawn w.specification g)
    (fun e he => by
      obtain ⟨item, hmem, rfl⟩ := hitem e he
      exact hg.plan_lt item hmem)
    (List.pairwise_map.mpr (hg.plan_specs.filter _))
    (fun k c hc e he => by
      obtain ⟨item, hmem, rfl⟩ := hitem e he
      exact hg.outside k c hc (by simp [hpend]) item hmem)
  refine ⟨{ hr with group := fun g' hg' => ?_ }, hgrow⟩
  rw [finalized, hgrow.group] at hg'
  cases hg'

lemma finalizeIfDone_lined {w : World Args} {g : RestartGroup Args} (h : Ranked ordered w)
    (hgroup : w.restartGroup = some g) (hg : GroupLined ordered w g) :
    Post (finalizeIfDone : SupM Args Unit) w
      (fun _ w' => Lined ordered w' ∧ ((g.pendingStops ≠ [] ∧ w' = w) ∨
        (g.pendingStops = [] ∧ Respawns (RestartGroup.toRespawn w.specification g)
          { w with restartGroup := none } w'))) (fun _ => False) := by
  rw [finalizeIfDone, post_bind, post_get]
  simp only [hgroup]
  by_cases hpend : g.pendingStops = []
  · rw [if_pos hpend, Post, finalizeRestartGroup_run hgroup h.registered_self]
    obtain ⟨hl, hgrow⟩ := hg.finalize h hpend
    exact ⟨hl, Or.inr ⟨hpend, hgrow⟩⟩
  · rw [if_neg hpend]
    refine post_pure.mpr ⟨{ h with group := fun g' hg' => ?_ }, Or.inl ⟨hpend, rfl⟩⟩
    rw [hgroup, Option.some.injEq] at hg'
    exact hg' ▸ ⟨hpend, hg⟩

/-- The termination of a member, or of any other child, leaves the group in line. -/
lemma GroupLined.withoutMember {w : World Args} {g : RestartGroup Args}
    (hg : GroupLined ordered w g) (ref : ActorRef) :
    GroupLined ordered (withoutMember w ref)
      { g with pendingStops := g.pendingStops.erase ref } where
  running := hg.running
  pending_nodup := hg.pending_nodup.erase ref
  pending_child r hr := by
    obtain ⟨hne, hmem⟩ := hg.pending_nodup.mem_erase_iff.mp hr
    exact (OrdMap.contains_erase _ _ _).trans (by rw [hg.pending_child r hmem]; simpa using hne)
  plan_lt := hg.plan_lt
  plan_specs := hg.plan_specs
  outside k e he hk := by
    obtain ⟨hne, he'⟩ := find?_erase_some he
    exact hg.outside k e he' fun hmem => hk ((List.mem_erase_of_ne hne).mpr hmem)
  covers hstrat k hk := by
    obtain ⟨e, he⟩ := OrdMap.contains_iff.mp hk
    obtain ⟨hne, he'⟩ := find?_erase_some he
    exact (List.mem_erase_of_ne hne).mpr (hg.covers hstrat k (OrdMap.contains_iff.mpr ⟨e, he'⟩))

/-- `handle_restart_group_stop`: the termination is noted, and the last one finalizes. -/
lemma handleRestartGroupStop_lined {w : World Args} {g : RestartGroup Args} (h : Lined ordered w)
    (hgroup : w.restartGroup = some g) (ref : ActorRef) :
    Post (handleRestartGroupStop ref : SupM Args Unit) w
      (fun _ w' => Lined ordered w' ∧
        ((g.pendingStops.erase ref ≠ [] ∧ w' = withoutMember w ref) ∨
        (g.pendingStops.erase ref = [] ∧ Respawns (RestartGroup.toRespawn w.specification g)
          { withoutMember w ref with restartGroup := none } w'))) (fun _ => False) := by
  rw [handleRestartGroupStop, post_bind, post_modify]
  have hgroup' : (withoutMember w ref).restartGroup =
      some { g with pendingStops := g.pendingStops.erase ref } := by
    simp [withoutMember, hgroup]
  have hranked : Ranked ordered (withoutMember w ref) :=
    h.toRanked.shrink rfl rfl (fun _ => rfl) rfl rfl
      (fun k e he => ⟨e, (find?_erase_some he).2, rfl⟩)
      fun k e he => h.suppress k e (find?_erase_some he).2
  exact finalizeIfDone_lined hranked hgroup' ((h.group g hgroup).2.withoutMember ref)

/-! ### The beginning of a group -/

/-- A child with the entry `e` that is to be restarted has just been removed. -/
structure Departed (ordered : Prop) (w : World Args) (ref : ActorRef) (e : ChildEntry Args) :
    Prop where
  ranked : Ranked ordered w
  group : w.restartGroup = none
  running : w.stopping = false
  removed : w.children.find? ref = none
  index_lt : e.specIndex < w.specification.children.length
  side : ∀ k c, w.children.find? k = some c →
    (c.startOrder < e.startOrder ∧
      Precedes ordered c.specIndex e.specIndex) ∨
    (e.startOrder < c.startOrder ∧
      Precedes ordered e.specIndex c.specIndex)

lemma Lined.departed {w : World Args} {ref : ActorRef} {e : ChildEntry Args} (h : Lined ordered w)
    (hgroup : w.restartGroup = none) (he : w.children.find? ref = some e)
    (hsup : e.suppressRestart = false) : Departed ordered (dropped w ref) ref e where
  ranked := h.toRanked.dropped ref
  group := hgroup
  running := (h.suppress ref e he).symm.trans hsup
  removed := OrdMap.find?_erase_self _ _
  index_lt := h.index_lt ref e he
  side k c hc := by
    obtain ⟨hne, hc'⟩ := find?_erase_some hc
    exact h.toRanked.side hc' he hne

lemma Precedes.symm {i j : ℕ} (h : Precedes ordered i j) (hno : ¬ ordered) :
    Precedes ordered j i :=
  ⟨h.1.symm, fun ho => absurd ho hno⟩

/-- A group restart begun by this child keeps specs in order: the group is only the rest, or the
child is the first of all. -/
def First (w : World Args) (e : ChildEntry Args) : Prop :=
  w.specification.strategy = .restForOne ∨ (w.specification.strategy = .oneForAll ∧
    ∀ k c, w.children.find? k = some c → e.specIndex < c.specIndex)

/-- The item of a child in the plan. -/
def toItem (child : ActorRef × ChildEntry Args) : RestartPlanItem Args :=
  { ref := child.1, entry := child.2, reason := .stopped }

/-- Who is in the plan, behind the failed child. -/
def joins (strategy : Strategy) (failed : ChildEntry Args)
    (child : ActorRef × ChildEntry Args) : Bool :=
  decide (strategy = .restForOne → failed.startOrder < child.2.startOrder)

lemma restartPlan_eq (w : World Args) (ref : ActorRef) (failed : ChildEntry Args)
    (reason : ExitReason) :
    restartPlan w ref failed reason = { ref := ref, entry := failed, reason := reason } ::
      (w.children.entries.filter (joins w.specification.strategy failed)).map toItem := by
  rw [restartPlan, List.filter_map]
  refine congrArg (List.cons _) (congrArg (List.map toItem) (List.filter_congr fun c _ => ?_))
  rw [Bool.eq_iff_iff]
  simp [joins, imp_iff_not_or]

namespace Departed

variable {w : World Args} {ref : ActorRef} {e : ChildEntry Args}

/-- The children that join come after the failed one, the others before it. -/
lemma precedes_of_joins (h : Departed ordered w ref e) (hfirst : ordered → First w e)
    {k : ActorRef} {c : ChildEntry Args} (hc : w.children.find? k = some c)
    (hj : joins w.specification.strategy e (k, c) = true) :
    Precedes ordered e.specIndex c.specIndex := by
  rw [joins, decide_eq_true_eq] at hj
  rcases h.side k c hc with ⟨hlt, hp⟩ | ⟨-, hp⟩
  · refine hp.symm fun ho => ?_
    rcases hfirst ho with hr | ⟨-, hlow⟩
    · exact absurd (hj hr) (lt_asymm hlt)
    · exact absurd (hlow k c hc) (lt_asymm (hp.2 ho))
  · exact hp

lemma precedes_of_not_joins (h : Departed ordered w ref e) {k : ActorRef} {c : ChildEntry Args}
    (hc : w.children.find? k = some c) (hj : ¬ joins w.specification.strategy e (k, c) = true) :
    w.specification.strategy = .restForOne ∧ c.startOrder < e.startOrder ∧
      Precedes ordered c.specIndex e.specIndex := by
  rw [joins, decide_eq_true_eq, Classical.not_imp] at hj
  rcases h.side k c hc with ⟨hlt, hp⟩ | ⟨hlt, -⟩
  · exact ⟨hj.1, hlt, hp⟩
  · exact absurd hlt hj.2

/-- The plan is in line. -/
lemma plan_specs (h : Departed ordered w ref e) (hfirst : ordered → First w e)
    (reason : ExitReason) :
    (restartPlan w ref e reason).Pairwise fun item item' =>
      Precedes ordered item.entry.specIndex item'.entry.specIndex := by
  rw [restartPlan_eq, List.pairwise_cons]
  constructor
  · intro item hitem
    obtain ⟨⟨k, c⟩, hmem, rfl⟩ := List.mem_map.mp hitem
    obtain ⟨hmem, hj⟩ := List.mem_filter.mp hmem
    exact h.precedes_of_joins hfirst (OrdMap.mem_entries_iff.mp hmem) hj
  · rw [List.pairwise_map]
    exact (OrdMap.pairwise_entries fun k k' c c' hc hc' hlt =>
      h.ranked.specs k k' c c' hc hc' hlt).filter _

/-- The children that do not join come before all members of the plan. -/
lemma outside (h : Departed ordered w ref e) (reason : ExitReason) {k : ActorRef}
    {c : ChildEntry Args} (hc : w.children.find? k = some c)
    (hj : ¬ joins w.specification.strategy e (k, c) = true)
    {item : RestartPlanItem Args} (hitem : item ∈ restartPlan w ref e reason) :
    Precedes ordered c.specIndex item.entry.specIndex := by
  obtain ⟨hrest, hlt, hp⟩ := h.precedes_of_not_joins hc hj
  rw [restartPlan_eq, List.mem_cons] at hitem
  rcases hitem with rfl | hitem
  · exact hp
  · obtain ⟨⟨k', c'⟩, hmem, rfl⟩ := List.mem_map.mp hitem
    obtain ⟨hmem, hj'⟩ := List.mem_filter.mp hmem
    have hc' := OrdMap.mem_entries_iff.mp hmem
    have hlt' : e.startOrder < c'.startOrder := by
      rw [joins, decide_eq_true_eq] at hj'
      exact hj' hrest
    -- start orders decide which of the two comes first
    have hkk : k < k' := by
      by_contra hge
      rcases lt_or_eq_of_le (not_lt.mp hge) with hgt | heq
      · have := h.ranked.orders k' k c' c hc' hc hgt
        omega
      · subst heq
        obtain rfl := Option.some.inj (hc.symm.trans hc')
        omega
    exact h.ranked.specs k k' c c' hc hc' hkk

lemma ne_ref (h : Departed ordered w ref e) {k : ActorRef} {c : ChildEntry Args}
    (hc : w.children.find? k = some c) : k ≠ ref := by
  rintro rfl
  rw [h.removed] at hc
  cases hc

/-- The children that join are the pending stops of the group that begins. -/
lemma mem_pending (h : Departed ordered w ref e) (reason : ExitReason) {k : ActorRef}
    {c : ChildEntry Args} (hc : w.children.find? k = some c) :
    k ∈ ((restartPlan w ref e reason).map RestartPlanItem.ref).filter
        (fun r => w.children.contains r) ↔
      joins w.specification.strategy e (k, c) = true := by
  rw [List.mem_filter, mem_restartPlan_ref (h.ne_ref hc) hc, joins, decide_eq_true_eq]
  exact and_iff_left (OrdMap.contains_iff.mpr ⟨c, hc⟩)

end Departed

/-- The world in which `begin_restart_group` has asked the members of the plan to stop. -/
structure Began (w : World Args) (ref : ActorRef) (e : ChildEntry Args) (reason : ExitReason)
    (v : World Args) : Prop where
  marked : Marked w v
  group : v.restartGroup = some
    { strategy := w.specification.strategy, plan := restartPlan w ref e reason,
      pendingStops := ((restartPlan w ref e reason).map RestartPlanItem.ref).filter
        fun r => w.children.contains r }
  find? : ∀ k, v.children.find? k =
    if k ∈ (restartPlan w ref e reason).map RestartPlanItem.ref then
      (w.children.find? k).map (asked false)
    else w.children.find? k

/-- A group that begins is in line. -/
lemma Began.lined {w v : World Args} {ref : ActorRef} {e : ChildEntry Args} {reason : ExitReason}
    (h : Departed ordered w ref e) (hfirst : ordered → First w e)
    (hb : Began w ref e reason v) :
    Ranked ordered v ∧ ∀ g, v.restartGroup = some g → GroupLined ordered v g := by
  have hcore : ∀ k c, v.children.find? k = some c →
      ∃ c', w.children.find? k = some c' ∧ c'.core = c.core := by
    intro k c hc
    have hk := hb.marked.core k
    rw [hc, Option.map_some] at hk
    exact Option.map_eq_some_iff.mp hk.symm
  constructor
  · refine h.ranked.shrink hb.marked.specification hb.marked.self hb.marked.registered
      hb.marked.nextActorId hb.marked.nextStartOrder hcore fun k c hc => ?_
    rw [hb.marked.stopping, h.running]
    rw [hb.find?] at hc
    split at hc
    · obtain ⟨c', -, rfl⟩ := Option.map_eq_some_iff.mp hc
      rfl
    · exact (h.ranked.suppress k c hc).trans h.running
  · intro g hg
    rw [hb.group, Option.some.injEq] at hg
    subst hg
    refine ⟨hb.marked.stopping.trans h.running,
      (nodup_restartPlan_ref e reason h.removed).filter _, fun r hr => ?_, fun item hitem => ?_,
      ?_, fun k c hc hk item hitem => ?_, fun hstrat k hk => ?_⟩
    · rw [contains_of_core hb.marked.core]
      exact (List.mem_filter.mp hr).2
    · rw [hb.marked.specification]
      rcases mem_restartPlan hitem with ⟨-, heq⟩ | hc
      · rw [heq]
        exact h.index_lt
      · exact h.ranked.index_lt _ _ hc
    · exact h.plan_specs hfirst reason
    · obtain ⟨c', hc', hcc⟩ := hcore k c hc
      have hidx : c'.specIndex = c.specIndex := congrArg Prod.fst hcc
      rw [← hidx]
      exact h.outside reason hc' (fun hj => hk ((h.mem_pending reason hc').mpr hj)) hitem
    · rw [hb.marked.specification] at hstrat
      rw [contains_of_core hb.marked.core] at hk
      obtain ⟨c, hc⟩ := OrdMap.contains_iff.mp hk
      exact (h.mem_pending reason hc).mpr (by simp [joins, hstrat])

lemma beginRestartGroup_lined {w : World Args} {ref : ActorRef} {e : ChildEntry Args}
    (reason : ExitReason) (h : Departed ordered w ref e) (hfirst : ordered → First w e) :
    Post (beginRestartGroup ref e reason : SupM Args Unit) w
      (fun _ w' => Lined ordered w' ∧ ∃ v, Began w ref e reason v ∧ ∃ g, v.restartGroup = some g ∧
        ((g.pendingStops ≠ [] ∧ w' = v) ∨
          (g.pendingStops = [] ∧ Respawns (RestartGroup.toRespawn v.specification g)
            { v with restartGroup := none } w'))) (fun _ => True) := by
  rw [beginRestartGroup, post_bind, post_get]
  simp only [post_bind, post_set]
  refine (stopPlan_post (w := { w with restartGroup := some { strategy := _, plan := _ } }) _
    rfl (nodup_restartPlan_ref e reason h.removed) h.ranked.self_not_child).mono ?_
    fun _ _ => trivial
  rintro _ v ⟨hmark, hgroup, hfind, -⟩
  have hb : Began w ref e reason v :=
    ⟨{ hmark with }, by rw [hgroup, List.nil_append], hfind⟩
  obtain ⟨hranked, hlined⟩ := hb.lined h hfirst
  refine (finalizeIfDone_lined hranked hb.group (hlined _ hb.group)).mono ?_ fun _ => False.elim
  rintro _ w' ⟨hl, hw'⟩
  exact ⟨hl, v, hb, _, hb.group, hw'⟩

/-! ### Runs without administrative operations -/

lemma Lined.withSched {w : World Args} (h : Lined ordered w) {sched : SchedulerBase} (now : ℤ)
    (hwf : sched.WellFormed) (hreg : sched.actors.contains w.self = true)
    (hle : w.sched.nextActorId ≤ sched.nextActorId) :
    Lined ordered ({ w with sched := sched, now := now } : World Args) :=
  { h with
    toShape := h.toShape.withSched now hwf hreg hle
    group := fun g hg => ⟨(h.group g hg).1, { (h.group g hg).2 with }⟩ }

lemma Lined.withPhase {w : World Args} (h : Lined ordered w) (phase : Phase) :
    Lined ordered ({ w with phase := phase } : World Args) :=
  { h with
    toShape := { h.toShape with }
    group := fun g hg => ⟨(h.group g hg).1, { (h.group g hg).2 with }⟩ }

lemma Lined.popped {w : World Args} (h : Lined ordered w) : Lined ordered (popped w) := by
  refine h.withSched w.now ⟨h.wellFormed.pos, fun k hk => ?_⟩ ?_ le_rfl
  · exact h.wellFormed.lt k ((popped_registered w k).symm.trans hk)
  · exact (popped_registered w w.self).trans h.registered_self

/-- A supervisor that has stopped itself has no group. -/
lemma Ranked.halted {w w' : World Args} (h : Ranked ordered w) (hst : w.stopping = false)
    (horder : w'.nextStartOrder = w.nextStartOrder) (hh : Halted .error w w') :
    Lined ordered w' := by
  have hranked : Ranked ordered w' := by
    refine h.shrink hh.specification hh.self hh.registered hh.nextActorId horder
      (fun k c hc => ?_) fun k c hc => ?_
    · have hk := hh.core k
      rw [hc, Option.map_some] at hk
      exact Option.map_eq_some_iff.mp hk.symm
    · rw [hh.stopping]
      exact hh.suppress hst k c hc
  refine { hranked with group := fun g hg => ?_ }
  rw [hh.group hst] at hg
  cases hg

/-- A child that is not to be restarted leaves the others in line. -/
lemma Lined.forget {w : World Args} (h : Lined ordered w) (hgroup : w.restartGroup = none)
    (ref : ActorRef) : Lined ordered (dropped w ref) :=
  { h.toRanked.dropped ref with
    group := fun g hg => by
      rw [show (dropped w ref).restartGroup = w.restartGroup from rfl, hgroup] at hg
      cases hg }

/-- A restart that is due is carried out, or refused and the supervisor stops. -/
lemma Departed.restart_lined {w : World Args} {ref : ActorRef} {e : ChildEntry Args}
    (reason : ExitReason) (h : Departed ordered w ref e)
    (hfirst : ordered → granted w = true → First w e) :
    Post (do
        if ← registerRestart then
          match w.specification.strategy with
          | .oneForOne | .simpleOneForOne => respawnWithEntry e
          | .oneForAll | .restForOne => beginRestartGroup ref e reason
        else pure () : SupM Args Unit) w (fun _ => Lined ordered) (fun _ => True) := by
  have hkeeps : Preserves (fun w' : World Args => w'.nextStartOrder = w.nextStartOrder)
      (registerRestart : SupM Args Bool) :=
    registerRestart_keeps (fun _ _ _ _ _ _ h => h) fun _ _ h => h
  rw [post_bind]
  refine ((registerRestart_post h.ranked.self_not_child).and
    (hkeeps w rfl)).mono ?_ fun _ _ => trivial
  rintro ok w' ⟨⟨rfl, hgr, rfl⟩ | ⟨rfl, -, hh, -⟩, horder⟩
  · have hrec : Departed ordered { w with restartTimes := windowTimes w } ref e :=
      { h with ranked := { h.ranked with toShape := { h.ranked.toShape with } } }
    have hgroup : Post (beginRestartGroup ref e reason : SupM Args Unit)
        { w with restartTimes := windowTimes w } (fun _ => Lined ordered) (fun _ => True) :=
      (beginRestartGroup_lined reason hrec fun ho => hfirst ho hgr).mono
        (fun _ _ h' => h'.1) fun _ => id
    simp only [if_true]
    cases hstrat : w.specification.strategy with
    | oneForOne | simpleOneForOne =>
        -- a single restart: the child comes last, and no order of specs is kept
        have hno : ¬ ordered := fun ho => by simpa [First, hstrat] using hfirst ho hgr
        obtain ⟨hr, hgrow⟩ := hrec.ranked.foldl_respawned h.running [e]
          (by simpa using h.index_lt) (List.pairwise_singleton _ _) fun k c hc x hx => by
            rw [List.mem_singleton.mp hx]
            rcases h.side k c hc with ⟨-, hp⟩ | ⟨-, hp⟩
            · exact hp
            · exact hp.symm hno
        rw [Post, respawnWithEntry_run hrec.ranked.registered_self]
        refine { hr with group := fun g hg => ?_ }
        have hnone : w.restartGroup = some g := hgrow.group.symm.trans hg
        rw [h.group] at hnone
        cases hnone
    | oneForAll | restForOne => exact hgroup
  · exact post_pure.mpr (h.ranked.halted h.running horder hh)

/-- Should the termination begin a restart, specs stay in order. -/
def Leads (ordered : Prop) (w : World Args) (ref : ActorRef) (reason : ExitReason) : Prop :=
  ordered → restarts w ref reason = true →
    ∀ e, w.children.find? ref = some e → First (dropped w ref) e

lemma handleTermination_lined {w : World Args} (h : Lined ordered w) {ref : ActorRef}
    {reason : ExitReason} (hlead : Leads ordered w ref reason) :
    Post (handleTermination ref reason : SupM Args Unit) w (fun _ => Lined ordered)
      (fun _ => True) := by
  rw [handleTermination, post_bind, post_get]
  by_cases hsome : w.restartGroup.isSome = true
  · obtain ⟨g, hgroup⟩ := Option.isSome_iff_exists.mp hsome
    rw [if_pos hsome]
    exact (handleRestartGroupStop_lined h hgroup ref).mono (fun _ _ h' => h'.1) fun _ => False.elim
  · have hgroup : w.restartGroup = none := by simpa using hsome
    rw [if_neg hsome]
    cases he : w.children.find? ref with
    | none => exact post_pure.mpr h
    | some e =>
        simp only [post_bind, post_set]
        split
        · rename_i hdue
          have hsup : e.suppressRestart = false := by
            rw [Bool.and_eq_true, Bool.not_eq_true'] at hdue
            exact hdue.1
          refine (h.departed hgroup he hsup).restart_lined reason fun ho hgr => hlead ho ?_ e he
          have hgr' : granted w = true := hgr
          rw [restarts, hgroup, hgr', he, Option.any_some, hdue]
          rfl
        · exact post_pure.mpr (h.forget hgroup ref)

/-- One round of `supervise_loop`. -/
lemma superviseVisitor_lined {w : World Args} (h : Lined ordered w) {sg : Signal}
    (hlead : Leads ordered w sg.source sg.reason) :
    Post (superviseVisitor sg : SupM Args Unit) w (fun _ => Lined ordered) (fun _ => True) :=
  superviseVisitor_cases (fun _ _ => h.withPhase .ended) (fun _ => h)
    fun _ => handleTermination_lined h hlead

/-- `init` starts the children in the order of the specification. -/
lemma init_lined {w : World Args} (h : Fresh w) :
    Post (initAndSupervise : SupM Args Unit) w (fun _ => Lined ordered) (fun _ => False) := by
  have hempty : ∀ k e, w.children.find? k ≠ some e := by
    intro k e he
    rw [h.empty] at he
    cases he
  have hfresh : Ranked ordered w :=
    { h.toShape with
      order_lt := fun k e he => absurd he (hempty k e)
      orders := fun k _ e _ he => absurd he (hempty k e)
      specs := fun k _ e _ he => absurd he (hempty k e)
      suppress := fun k e he => absurd he (hempty k e) }
  rw [initAndSupervise, post_bind, init, post_bind, post_get]
  simp only [h.static, if_false]
  refine Post.mono (post_forM (fun done rest w' =>
      done ++ rest = List.range w.specification.children.length ∧ Ranked ordered w' ∧
      w'.stopping = false ∧ w'.restartGroup = none ∧ w'.specification = w.specification ∧
      ∀ k e, w'.children.find? k = some e → ∀ i ∈ rest, e.specIndex < i) ?_ _ w
      ⟨rfl, hfresh, h.running, h.noGroup, rfl, fun k e he => absurd he (hempty k e)⟩) ?_
    fun _ => False.elim
  · rintro done i rest w' ⟨hsplit, hr, hrun, hgroup, hspec, hbelow⟩
    have hi : i < w.specification.children.length :=
      List.mem_range.mp (by rw [← hsplit]; simp)
    have hget : w'.specification.children[i]? = some w.specification.children[i] := by
      rw [hspec]
      exact List.getElem?_eq_getElem hi
    have hrest : ∀ j ∈ rest, i < j := by
      have hsorted : (done ++ i :: rest).Pairwise (· < ·) := hsplit ▸ List.pairwise_lt_range
      exact (List.pairwise_cons.mp (List.pairwise_append.mp hsorted).2.1).1
    have hfree : findRunningChildForSpec w' i = none := by
      rw [findRunningChildForSpec_eq_none, ← Bool.not_eq_true, hasChild_iff]
      rintro ⟨k, e, he, hei⟩
      exact absurd (hbelow k e he i List.mem_cons_self) (by omega)
    rw [Post, startChildByIndex_run hr.registered_self hget]
    simp only [startedChild, if_neg hr.static, hfree]
    refine ⟨by simpa using hsplit, hr.started hrun _ (by rwa [hspec]) fun k e he => ?_, hrun,
      hgroup, hspec, fun k e he j hj => ?_⟩
    · have hlt := hbelow k e he i List.mem_cons_self
      exact ⟨hlt.ne, fun _ => hlt⟩
    · rw [← OrdMap.mem_entries_iff, entries_started hr.toShape, List.mem_append,
        List.mem_singleton] at he
      rcases he with he | he
      · exact hbelow k e (OrdMap.mem_entries_iff.mp he) j (List.mem_cons_of_mem i hj)
      · rw [(Prod.mk.inj he).2]
        exact hrest j hj
  · rintro _ w' ⟨-, hr, hrun, hgroup, -⟩
    rw [post_modify]
    have hl : Lined ordered w' := { hr with group := fun g hg => by rw [hgroup] at hg; cases hg }
    exact hl.withPhase .supervising

/-- The specification is never written. -/
lemma specification_step {s t : System Args} {l : Label Args} (hadmin : l.administrative = false)
    (hstep : step s l = some t) : t.world.specification = s.world.specification := by
  have hconst : Constant fun w : World Args => w.specification = s.world.specification :=
    ⟨fun _ _ _ _ _ _ h => h, fun _ _ _ _ h => h⟩
  by_cases henv : l.environment = true
  · obtain ⟨sched', now, rfl⟩ := environment_members hstep henv
    rfl
  · cases l with
    | init =>
        obtain ⟨-, rfl⟩ := step_init hstep
        have hinit : Preserves (fun w : World Args => w.specification = s.world.specification)
            (init : SupM Args Unit) := by
          refine Preserves.get fun w hw => ?_
          split
          · exact hw
          · exact Preserves.forM (fun i _ => hconst.framed.startChildByIndex i none) w hw
        have hboth : Preserves (fun w : World Args => w.specification = s.world.specification)
            (initAndSupervise : SupM Args Unit) :=
          hinit.bind fun _ => Preserves.modify fun w hw => hw
        exact perform_preserves (hboth s.world rfl)
    | receive =>
        obtain ⟨-, sg, rest, -, rfl⟩ := step_receive hstep
        exact perform_preserves (hconst.superviseVisitor (fun _ h => h) sg (popped s.world) rfl)
    | _ => simp [Label.administrative, Label.environment] at hadmin henv

/-- The condition on steps: no administrative operation, and no restart that would take the
specs out of order. -/
def InTurn (ordered : Prop) (s : System Args) (l : Label Args) : Prop :=
  l.administrative = false ∧ (l.receive? = true →
    ∀ sg ∈ s.world.mailbox.head?, Leads ordered s.world sg.source sg.reason)

/-- The invariant of runs: it is of interest only until an operation raises. -/
def InLine (ordered : Prop) (spec : Specification Args) (s : System Args) : Prop :=
  s.world.specification = spec ∧ (s.raised = false →
    Lined ordered s.world ∧ (s.world.phase = .created → Fresh s.world))

lemma inLine_create {sched : SchedulerBase} (hwf : sched.WellFormed) {spec : Specification Args}
    (hstatic : spec.strategy ≠ .simpleOneForOne) : InLine ordered spec (create sched spec) := by
  refine ⟨rfl, fun hr => ?_⟩
  rcases inv_create hwf hstatic hr with ⟨-, hfresh⟩ | ⟨hphase, -⟩
  · have hempty : ∀ k e, (create sched spec).world.children.find? k ≠ some e := by
      intro k e he
      cases he
    refine ⟨{ hfresh.toShape with
      order_lt := fun k e he => absurd he (hempty k e)
      orders := fun k _ e _ he => absurd he (hempty k e)
      specs := fun k _ e _ he => absurd he (hempty k e)
      suppress := fun k e he => absurd he (hempty k e)
      group := fun g hg => by cases hg }, fun _ => hfresh⟩
  · exact absurd rfl hphase

/-- Steps of the supervisor and of its environment keep children in line. -/
lemma inLine_step {spec : Specification Args} {s t : System Args} {l : Label Args}
    (h : InLine ordered spec s) (hturn : InTurn ordered s l) (hstep : step s l = some t) :
    InLine ordered spec t := by
  have hadmin := hturn.1
  refine ⟨(specification_step hadmin hstep).trans h.1, fun hraised => ?_⟩
  obtain ⟨hl, hcreated⟩ := h.2 (raised_of_step hstep)
  by_cases henv : l.environment = true
  · obtain ⟨sched, now, rfl, hwf, hreg, hle⟩ :=
      step_environment hstep henv hl.wellFormed hl.registered_self
    refine ⟨hl.withSched now hwf hreg hle, fun hphase => ?_⟩
    have hfresh := hcreated hphase
    exact ⟨hfresh.toShape.withSched now hwf hreg hle, hfresh.empty, hfresh.noGroup,
      hfresh.running⟩
  · cases l with
    | init =>
        obtain ⟨hphase, rfl⟩ := step_init hstep
        have hfresh := hcreated hphase
        rcases perform_eq_of_post ((init_lined hfresh).and (init_post hfresh)) with
          ⟨-, hl', -, hsup⟩ | ⟨-, hf, -⟩
        · exact ⟨hl', fun hc => by rw [hsup] at hc; cases hc⟩
        · exact hf.elim
    | receive =>
        obtain ⟨hphase, sg, rest, hbox, rfl⟩ := step_receive hstep
        have hlead : Leads ordered (popped s.world) sg.source sg.reason :=
          hturn.2 rfl sg (by simp [hbox])
        have hconst : Constant fun w : World Args => w.phase ≠ .created :=
          ⟨fun _ _ _ _ _ _ h => h, fun _ _ _ _ h => h⟩
        have hkeep := hconst.superviseVisitor (fun _ _ => by simp) sg (popped s.world)
          (by simp [popped, hphase])
        obtain ⟨hl', hp⟩ :=
          post_of_perform ((superviseVisitor_lined hl.popped hlead).and hkeep) hraised
        exact ⟨hl', fun hc => absurd hc hp⟩
    | _ => simp [Label.administrative, Label.environment] at hadmin henv

/-- In every run whose steps are in turn, until an operation raises. -/
lemma inLine_of_run {sched : SchedulerBase} (hwf : sched.WellFormed) {spec : Specification Args}
    (hstatic : spec.strategy ≠ .simpleOneForOne) {ok : System Args → Label Args → Prop}
    (hok : ∀ s l, s.world.specification = spec → ok s l → InTurn ordered s l)
    {labels : List (Label Args)} {s : System Args}
    (hrun : run step (create sched spec) labels = some s)
    (hall : AllSteps step ok (create sched spec) labels) : InLine ordered spec s :=
  invariant (fun s l _ hs hl hstep => inLine_step hs (hok s l hs.1 hl) hstep)
    (inLine_create hwf hstatic) hall hrun

/-- Without administrative operations the specs of the children differ. -/
lemma inLine_of_signals {sched : SchedulerBase} (hwf : sched.WellFormed)
    {spec : Specification Args} (hstatic : spec.strategy ≠ .simpleOneForOne)
    {labels : List (Label Args)} {s : System Args}
    (hrun : run step (create sched spec) labels = some s)
    (hadmin : ∀ l ∈ labels, l.administrative = false) : InLine False spec s :=
  inLine_of_run hwf hstatic
    (fun _ _ _ hno => ⟨hno, fun _ _ _ ho => ho.elim⟩) hrun
    (allSteps_of_forall fun a ha _ => hadmin a ha)

/-! ### Reports -/

/-- The actor whose termination an event reports. -/
def Event.reported : Event Args → Option ActorRef
  | .signal sg => some sg.source
  | .environment _ => none

/-- The condition on events: a signal reports a member of the group, or nobody who is in
`children_`. -/
def Answers (members : List ActorRef) (s : System Args) : Event Args → Prop
  | .signal sg => sg.source ∈ members ∨ s.world.children.contains sg.source = false
  | .environment _ => True

instance (members : List ActorRef) (s : System Args) : DecidablePred (Answers members s)
  | .signal _ => inferInstanceAs (Decidable (_ ∨ _))
  | .environment _ => isTrue trivial

/-- Some members of the group have been reported: they are out of `children_`, the others are
still pending, and nothing has been spawned. -/
structure Reporting (w₀ : World Args) (g : RestartGroup Args) (seen : List ActorRef)
    (w : World Args) : Prop where
  lined : Lined False w
  group : w.restartGroup =
    some { g with pendingStops := g.pendingStops.filter fun r => decide (r ∉ seen) }
  entries : w.children.entries = w₀.children.entries.filter fun c =>
    decide (c.1 ∈ g.pendingStops → c.1 ∉ seen)
  spawned : w.spawned = w₀.spawned
  specification : w.specification = w₀.specification
  nextStartOrder : w.nextStartOrder = w₀.nextStartOrder
  nextActorId : w₀.sched.nextActorId ≤ w.sched.nextActorId

/-- The group has been finalized: the plan has been respawned behind the children that were not
members. -/
structure Finished (w₀ : World Args) (g : RestartGroup Args) (w : World Args) : Prop where
  lined : Lined False w
  group : w.restartGroup = none
  running : w.stopping = false
  respawned : ∃ ref, w₀.sched.nextActorId ≤ ref ∧
    w.children.entries =
      (w₀.children.entries.filter fun c => decide (c.1 ∉ g.pendingStops)) ++
        freshChildren ref w₀.nextStartOrder (RestartGroup.toRespawn w₀.specification g) ∧
    w.spawned = w₀.spawned ++
      (freshChildren ref w₀.nextStartOrder (RestartGroup.toRespawn w₀.specification g)).map
        fun c => (c.1, c.2.specIndex)

/-- How far the group has come when the actors `seen` have been reported. -/
def Progress (w₀ : World Args) (g : RestartGroup Args) (seen : List ActorRef) (w : World Args) :
    Prop :=
  ((∃ r ∈ g.pendingStops, r ∉ seen) ∧ Reporting w₀ g seen w) ∨
    ((∀ r ∈ g.pendingStops, r ∈ seen) ∧ Finished w₀ g w)

lemma le_of_mem_freshChildren {ref order : ℕ} {es : List (ChildEntry Args)}
    {c : ActorRef × ChildEntry Args} (hc : c ∈ freshChildren ref order es) : ref ≤ c.1 := by
  induction es generalizing ref order with
  | nil => cases hc
  | cons e es ih =>
      rcases List.mem_cons.mp hc with rfl | hc
      · exact le_rfl
      · exact (Nat.le_succ ref).trans (ih hc)

/-- While the supervisor is not stopping, both visitors do the same. -/
lemma post_superviseVisitor {w : World Args} (hst : w.stopping = false) (sg : Signal)
    {Q : Unit → World Args → Prop} {E : World Args → Prop} :
    Post (superviseVisitor sg : SupM Args Unit) w Q E ↔
      Post (handleSignal sg.source sg.reason : SupM Args Unit) w Q E := by
  rw [superviseVisitor, post_bind, post_get]
  cases sg with
  | down source reason => exact Iff.rfl
  | exit source reason =>
      simp only [hst, Bool.false_and, Bool.false_eq_true, if_false]
      exact Iff.rfl

/-- What a report leaves in `children_`. -/
lemma Reporting.erase_entries {w₀ w : World Args} {g : RestartGroup Args}
    {seen : List ActorRef} (h : Reporting w₀ g seen w) {ref : ActorRef}
    (hans : ref ∈ g.pendingStops ∨ w.children.contains ref = false) :
    (w.children.erase ref).entries = w₀.children.entries.filter fun c =>
      decide (c.1 ∈ g.pendingStops → c.1 ∉ seen ++ [ref]) := by
  show w.children.entries.filter (fun c => decide (c.1 ≠ ref)) = _
  rw [h.entries, List.filter_filter]
  refine List.filter_congr fun c hc => ?_
  rw [Bool.eq_iff_iff]
  simp only [Bool.and_eq_true, decide_eq_true_eq, List.mem_append, List.mem_singleton, not_or]
  constructor
  · rintro ⟨hne, hkeep⟩ hmem
    exact ⟨hkeep hmem, hne⟩
  · intro hkeep
    refine ⟨?_, fun hmem => (hkeep hmem).1⟩
    rintro rfl
    -- a stranger who is not in `children_` now was not there before either
    rcases hans with hmem | hno
    · exact (hkeep hmem).2 rfl
    · by_cases hmem : c.1 ∈ g.pendingStops
      · exact (hkeep hmem).2 rfl
      · have hin : (c.1, c.2) ∈ w.children.entries := by
          rw [h.entries]
          exact List.mem_filter.mpr ⟨hc, by simp [hmem]⟩
        rw [OrdMap.contains_iff.mpr ⟨c.2, OrdMap.mem_entries_iff.mp hin⟩] at hno
        cases hno

section Reports

variable {w₀ : World Args} {g : RestartGroup Args} (hl : Lined False w₀)
  (hgroup : w₀.restartGroup = some g)

include hl hgroup

lemma Progress.start : Progress w₀ g [] w₀ := by
  obtain ⟨hpend, hg⟩ := hl.group g hgroup
  refine Or.inl ⟨?_, hl, ?_, ?_, rfl, rfl, rfl, le_rfl⟩
  · obtain ⟨r, hr⟩ := List.exists_mem_of_ne_nil _ hpend
    exact ⟨r, hr, List.not_mem_nil⟩
  · rw [hgroup, Option.some.injEq]
    simp
  · simp

/-- No member has the reference of nobody. -/
lemma ne_zero_of_pending {r : ActorRef} (hr : r ∈ g.pendingStops) : r ≠ 0 :=
  hl.child_pos r ((hl.group g hgroup).2.pending_child r hr)

/-- What a report leaves pending. -/
lemma erase_pending (seen : List ActorRef) (ref : ActorRef) :
    (g.pendingStops.filter fun r => decide (r ∉ seen)).erase ref =
      g.pendingStops.filter fun r => decide (r ∉ seen ++ [ref]) := by
  rw [((hl.group g hgroup).2.pending_nodup.filter _).erase_eq_filter, List.filter_filter]
  refine List.filter_congr fun r _ => ?_
  rw [Bool.eq_iff_iff]
  simp only [bne_iff_ne, Bool.and_eq_true, decide_eq_true_eq, List.mem_append,
    List.mem_singleton, not_or]
  exact and_comm

/-- A report while stops are pending. -/
lemma Reporting.signal {seen : List ActorRef} {w : World Args} (h : Reporting w₀ g seen w)
    {sg : Signal} (hans : sg.source ∈ g.pendingStops ∨ w.children.contains sg.source = false)
    (hpend : ∃ r ∈ g.pendingStops, r ∉ seen) :
    Post (superviseVisitor sg : SupM Args Unit) w
      (fun _ w' => Progress w₀ g (seen ++ [sg.source]) w') (fun _ => False) := by
  obtain ⟨-, hg'⟩ := h.lined.group _ h.group
  have hentries := h.erase_entries hans
  rw [post_superviseVisitor hg'.running, handleSignal]
  by_cases hvalid : sg.source.valid = true
  · have hsome : w.restartGroup.isSome = true := by rw [h.group, Option.isSome_some]
    rw [if_pos hvalid, handleTermination, post_bind, post_get, if_pos hsome]
    refine (handleRestartGroupStop_lined h.lined h.group sg.source).mono ?_ fun _ => id
    rw [erase_pending hl hgroup seen sg.source]
    rintro _ w' ⟨hlined, ⟨hmore, rfl⟩ | ⟨hlast, hgrow⟩⟩
    · obtain ⟨r, hr⟩ := List.exists_mem_of_ne_nil _ hmore
      obtain ⟨hr, hrs⟩ := List.mem_filter.mp hr
      refine Or.inl ⟨⟨r, hr, by simpa using hrs⟩, hlined, ?_, hentries, h.spawned,
        h.specification, h.nextStartOrder, h.nextActorId⟩
      rw [withoutMember, h.group, Option.map_some, erase_pending hl hgroup]
    · -- the last report: the plan is respawned
      have hall : ∀ r ∈ g.pendingStops, r ∈ seen ++ [sg.source] := by
        intro r hr
        by_contra hno
        exact List.not_mem_nil (hlast ▸ List.mem_filter.mpr ⟨hr, decide_eq_true hno⟩)
      have hrest : (w₀.children.entries.filter fun c =>
          decide (c.1 ∈ g.pendingStops → c.1 ∉ seen ++ [sg.source])) =
          w₀.children.entries.filter fun c => decide (c.1 ∉ g.pendingStops) := by
        refine List.filter_congr fun c _ =>
          decide_eq_decide.mpr ⟨fun hk hmem => ?_, fun hk hmem => ?_⟩
        · exact hk hmem (hall c.1 hmem)
        · exact absurd hmem hk
      refine Or.inr ⟨hall, hlined, hgrow.group, hgrow.stopping.trans hg'.running,
        w.sched.nextActorId, h.nextActorId, ?_, ?_⟩
      · rw [← h.nextStartOrder, ← h.specification, ← hrest, ← hentries]
        exact hgrow.entries
      · rw [← h.nextStartOrder, ← h.specification, ← h.spawned]
        exact hgrow.spawned
  · -- the signal of nobody is dropped
    have hzero : sg.source = 0 := by simpa [ActorRef.valid] using hvalid
    have hsame : ∀ r ∈ g.pendingStops, (r ∉ seen ++ [sg.source] ↔ r ∉ seen) := by
      intro r hr
      have hr0 := ne_zero_of_pending hl hgroup hr
      simp [hzero, hr0]
    rw [if_neg hvalid]
    obtain ⟨r, hr, hrs⟩ := hpend
    refine post_pure.mpr (Or.inl ⟨⟨r, hr, (hsame r hr).mpr hrs⟩, h.lined, ?_, ?_, h.spawned,
      h.specification, h.nextStartOrder, h.nextActorId⟩)
    · rw [h.group]
      refine congrArg (fun l => some { g with pendingStops := l })
        (List.filter_congr fun r hr => decide_eq_decide.mpr (hsame r hr).symm)
    · rw [h.entries]
      exact List.filter_congr fun c _ => decide_eq_decide.mpr
        ⟨fun hk hmem => (hsame _ hmem).mpr (hk hmem), fun hk hmem => (hsame _ hmem).mp (hk hmem)⟩

/-- After the end of the group a member that is reported once more is a stranger. -/
lemma Finished.find?_eq_none {w : World Args} (h : Finished w₀ g w) {ref : ActorRef}
    (hans : ref ∈ g.pendingStops ∨ w.children.contains ref = false) :
    w.children.find? ref = none := by
  rcases hans with hmem | hno
  · rw [OrdMap.find?_eq_none_iff]
    intro e he
    obtain ⟨next, hnext, hentries, -⟩ := h.respawned
    rw [hentries, List.mem_append] at he
    rcases he with he | he
    · have hnot := (List.mem_filter.mp he).2
      simp [hmem] at hnot
    · have hlt := hl.child_lt ref ((hl.group g hgroup).2.pending_child ref hmem)
      exact absurd (hnext.trans (le_of_mem_freshChildren he)) (not_le.mpr hlt)
  · simpa [OrdMap.contains] using hno

lemma Finished.signal {w : World Args} (h : Finished w₀ g w) {sg : Signal}
    (hans : sg.source ∈ g.pendingStops ∨ w.children.contains sg.source = false) :
    Post (superviseVisitor sg : SupM Args Unit) w (fun _ w' => w' = w) (fun _ => False) := by
  rw [post_superviseVisitor h.running, handleSignal]
  split
  · rw [handleTermination, post_bind, post_get, h.group]
    simp only [Option.isSome_none, Bool.false_eq_true, if_false, h.find?_eq_none hl hgroup hans]
    exact post_pure.mpr rfl
  · exact post_pure.mpr rfl

/-- One event. -/
lemma Progress.step {seen : List ActorRef} {s t : System Args} {ev : Event Args}
    (h : Progress w₀ g seen s.world) (hraised : s.raised = false)
    (hans : Answers g.pendingStops s ev) (hstep : Event.step s ev = some t) :
    t.raised = false ∧ Progress w₀ g (seen ++ ev.reported.toList) t.world := by
  cases ev with
  | signal sg =>
      rw [Event.step, hraised, if_neg Bool.false_ne_true, Option.some.injEq] at hstep
      subst hstep
      rcases h with ⟨hpend, hr⟩ | ⟨hall, hf⟩
      · rcases perform_eq_of_post (hr.signal hl hgroup hans hpend) with ⟨hr', hp⟩ | ⟨-, hf⟩
        · exact ⟨hr', hp⟩
        · exact hf.elim
      · rcases perform_eq_of_post (hf.signal hl hgroup hans) with ⟨hr', heq⟩ | ⟨-, hf⟩
        · rw [heq]
          exact ⟨hr', Or.inr ⟨fun r hr => List.mem_append_left _ (hall r hr), hf⟩⟩
        · exact hf.elim
  | environment l =>
      rw [Event.step, Option.ite_none_right_eq_some] at hstep
      rw [Event.reported, Option.toList_none, List.append_nil]
      rcases h with ⟨hpend, hr⟩ | ⟨hall, hf⟩
      · obtain ⟨sched, now, rfl, hwf, hreg, hle⟩ :=
          step_environment hstep.2 hstep.1 hr.lined.wellFormed hr.lined.registered_self
        exact ⟨rfl, Or.inl ⟨hpend, hr.lined.withSched now hwf hreg hle, hr.group, hr.entries,
          hr.spawned, hr.specification, hr.nextStartOrder, hr.nextActorId.trans hle⟩⟩
      · obtain ⟨sched, now, rfl, hwf, hreg, hle⟩ :=
          step_environment hstep.2 hstep.1 hf.lined.wellFormed hf.lined.registered_self
        exact ⟨rfl, Or.inr ⟨hall, hf.lined.withSched now hwf hreg hle, hf.group, hf.running,
          hf.respawned⟩⟩

/-- A sequence of events. -/
lemma Progress.run {seen : List ActorRef} {s t : System Args} {events : List (Event Args)}
    (h : Progress w₀ g seen s.world) (hraised : s.raised = false)
    (hans : AllSteps Event.step (Answers g.pendingStops) s events)
    (hrun : Runs.run Event.step s events = some t) :
    t.raised = false ∧ Progress w₀ g (seen ++ events.filterMap Event.reported) t.world := by
  induction events generalizing seen s with
  | nil =>
      obtain rfl := Option.some.inj hrun
      exact ⟨hraised, by simpa using h⟩
  | cons ev events ih =>
      rw [run_cons, Option.bind_eq_some_iff] at hrun
      obtain ⟨u, hu, hut⟩ := hrun
      obtain ⟨hr, hp⟩ := h.step hl hgroup hraised hans.1 hu
      have hrest := ih hp hr (hans.2 u hu) hut
      have hlist : seen ++ ev.reported.toList ++ events.filterMap Event.reported =
          seen ++ (ev :: events).filterMap Event.reported := by
        rw [List.append_assoc, List.filterMap_cons]
        cases ev.reported <;> rfl
      rwa [hlist] at hrest

end Reports

/-! ### The outcome -/

/-- `should_restart`, as a test of the policy. -/
lemma shouldRestart_eq (restart : Restart) (reason : ExitReason) :
    shouldRestart restart reason =
      decide (restart = .permanent ∨ (restart = .transient ∧ reason ≠ .normal)) := by
  cases restart <;> simp [shouldRestart]

lemma map_freshChildren {β : Type} (f : ChildEntry Args → β) (ref order : ℕ)
    (hf : ∀ (e : ChildEntry Args) (n : ℕ),
      f { specIndex := e.specIndex, startOrder := n, args := e.args } = f e)
    (es : List (ChildEntry Args)) :
    (freshChildren ref order es).map (fun c => f c.2) = es.map f := by
  induction es generalizing ref order with
  | nil => rfl
  | cons e es ih => rw [freshChildren, List.map_cons, List.map_cons, ih, hf]

/-- Only the refs of fresh children depend on when they are spawned. -/
lemma map_snd_freshChildren (ref ref' order : ℕ) (es : List (ChildEntry Args)) :
    (freshChildren ref order es).map Prod.snd = (freshChildren ref' order es).map Prod.snd := by
  induction es generalizing ref ref' order with
  | nil => rfl
  | cons e es ih => rw [freshChildren, freshChildren, List.map_cons, List.map_cons, ih]

/-- The outcome of a group restart does not depend on the order in which its members are
reported. As long as a member has not been reported the group is active and nothing has been
spawned; with the last of them it is finalized, and `children_` holds the entries that were not
members and, behind them, one entry for each item of the plan that its policy restarts, in the
order of the plan. Two such sequences differ in the refs of the new children only. -/
theorem group_restart_order_independent {sched : SchedulerBase} (hwf : sched.WellFormed)
    {spec : Specification Args}
    (hstrat : spec.strategy = .oneForAll ∨ spec.strategy = .restForOne)
    {labels : List (Label Args)} {s : System Args}
    (hrun : run step (create sched spec) labels = some s)
    (hadmin : ∀ l ∈ labels, l.administrative = false) (hraised : s.raised = false)
    {g : RestartGroup Args} (hgroup : s.world.restartGroup = some g)
    {events : List (Event Args)} {t : System Args}
    (hans : AllSteps Event.step (Answers g.pendingStops) s events)
    (hevents : run Event.step s events = some t) :
    t.raised = false ∧
    ((∃ r ∈ g.pendingStops, r ∉ events.filterMap Event.reported) →
      t.world.restartGroup.isSome = true ∧ t.world.spawned = s.world.spawned) ∧
    ((∀ r ∈ g.pendingStops, r ∈ events.filterMap Event.reported) →
      t.world.restartGroup = none ∧ ∃ fresh : List (ActorRef × ChildEntry Args),
        t.world.children.entries =
          (s.world.children.entries.filter fun c => decide (c.1 ∉ g.pendingStops)) ++ fresh ∧
        t.world.spawned = s.world.spawned ++ fresh.map (fun c => (c.1, c.2.specIndex)) ∧
        fresh.map (fun c => (c.2.specIndex, c.2.args)) =
          (g.plan.filter fun item => decide
            (restartAtSpecIndex spec item.entry.specIndex = .permanent ∨
              (restartAtSpecIndex spec item.entry.specIndex = .transient ∧
                item.reason ≠ .normal))).map
            (fun item => (item.entry.specIndex, item.entry.args)) ∧
        (∀ c ∈ fresh, s.world.sched.nextActorId ≤ c.1) ∧
        ∀ (events' : List (Event Args)) (t' : System Args),
          AllSteps Event.step (Answers g.pendingStops) s events' →
          run Event.step s events' = some t' →
          (∀ r ∈ g.pendingStops, r ∈ events'.filterMap Event.reported) →
          t'.world.restartGroup = none ∧ ∃ fresh' : List (ActorRef × ChildEntry Args),
            t'.world.children.entries =
              (s.world.children.entries.filter fun c => decide (c.1 ∉ g.pendingStops)) ++
                fresh' ∧
            fresh'.map Prod.snd = fresh.map Prod.snd) := by
  have hstatic : spec.strategy ≠ .simpleOneForOne := by
    rcases hstrat with hs | hs <;> simp [hs]
  obtain ⟨hspec, hlined⟩ := inLine_of_signals hwf hstatic hrun hadmin
  have hl : Lined False s.world := (hlined hraised).1
  have hstart := Progress.start hl hgroup
  obtain ⟨hr, hp⟩ := hstart.run hl hgroup hraised hans hevents
  rw [List.nil_append] at hp
  refine ⟨hr, fun hpend => ?_, fun hall => ?_⟩
  · rcases hp with ⟨-, hrep⟩ | ⟨hall, -⟩
    · exact ⟨by rw [hrep.group, Option.isSome_some], hrep.spawned⟩
    · obtain ⟨r, hr, hno⟩ := hpend
      exact absurd (hall r hr) hno
  · -- every member has reported, in whatever order: the group is over and has respawned its plan
    rcases hp with ⟨⟨r, hr, hno⟩, -⟩ | ⟨-, hf⟩
    · exact absurd (hall r hr) hno
    · obtain ⟨ref, href, hentries, hspawned⟩ := hf.respawned
      refine ⟨hf.group, _, hentries, hspawned, ?_,
        fun c hc => href.trans (le_of_mem_freshChildren hc), fun events' t' hans' hev' hall' => ?_⟩
      · rw [map_freshChildren (fun e => (e.specIndex, e.args)) _ _ fun _ _ => rfl,
          RestartGroup.toRespawn, List.map_map, hspec]
        simp only [shouldRestart_eq]
        rfl
      · obtain ⟨-, hp'⟩ := hstart.run hl hgroup hraised hans' hev'
        rw [List.nil_append] at hp'
        rcases hp' with ⟨⟨r, hr, hno⟩, -⟩ | ⟨-, hf'⟩
        · exact absurd (hall' r hr) hno
        · obtain ⟨ref', -, hentries', -⟩ := hf'.respawned
          exact ⟨hf'.group, _, hentries', map_snd_freshChildren ref' ref _ _⟩

/-- A permanent, a temporary and a transient child. -/
def oneOfEach : Specification ℕ where
  strategy := .oneForAll
  intensity := { maxRestarts := 3, within := 10 }
  children :=
    [{ args := 10, defaultArgs := 0 }, { restart := .temporary, args := 20, defaultArgs := 0 },
      { restart := .transient, args := 30, defaultArgs := 0 }]

/-- The first child fails, and the others are asked to stop. -/
def firstFails : List (Label ℕ) := [.init, .exit 2 .error, .receive]

/-- The state after it. -/
def afterFirst : System ℕ := reached step (create {} oneOfEach) firstFails

/-- The group of the first child. -/
def firstGroup : RestartGroup ℕ :=
  (afterFirst.world.restartGroup).getD { strategy := .oneForAll, plan := [] }

/-- The last child is reported twice, the failed one again, and a stranger in between. -/
def reportsInterleaved : List (Event ℕ) :=
  [.signal (.down 4 .error), .signal (.exit 9 .normal), .environment (.spawn 0 0),
    .signal (.down 2 .error), .signal (.exit 4 .stopped), .signal (.down 3 .normal)]

/-- The group ends with the last report, and its plan is respawned once. -/
theorem group_restart_interleaved :
    firstGroup.pendingStops = [3, 4] ∧
      ∃ t, run Event.step afterFirst reportsInterleaved = some t ∧ t.raised = false ∧
        t.world.restartGroup = none ∧ t.world.children.entries.map (fun c => (c.1, c.2.args)) =
          [(6, 10), (7, 30)] := by
  have hrun : run step (create {} oneOfEach) firstFails = some afterFirst :=
    run_eq_reached (by decide +kernel)
  have hevents : run Event.step afterFirst reportsInterleaved =
      some (reached Event.step afterFirst reportsInterleaved) := run_eq_reached (by decide +kernel)
  have hgroup : afterFirst.world.restartGroup = some firstGroup := by
    rw [firstGroup]
    cases hg : afterFirst.world.restartGroup with
    | none => exact absurd hg (by decide +kernel)
    | some g => rfl
  have h := group_restart_order_independent ⟨by decide, fun k hk => by cases hk⟩ (Or.inl rfl)
    hrun (by decide) (by decide +kernel) hgroup
    (by decide +kernel) hevents
  exact ⟨by decide +kernel, _, hevents, h.1, (h.2.2 (by decide +kernel)).1, by decide +kernel⟩

end Supervisor

end Agner
