import Mathlib.Data.List.Sort
import Agner.Supervisor.GroupRestart

/-!
The order in which a group restart brings children back.

`begin_restart_group` puts the failed child first, and behind it the other members as a
traversal of `children_` finds them, which is the order in which they were started. Under
`rest_for_one` the members are the children started after the failed one, so that this is also
the order of the specification. Under `one_for_all` it is not, unless the failed child is the
first one.

* `byStartOrder`, `bySpecIndex`: the children, listed.
* `superviseVisitor_begins`: the step in which a group restart begins.
* `rest_for_one_restarts_the_rest`, `one_for_all_failed_child_first`: both strategies.
-/

namespace Agner

open Raising Runs

namespace Supervisor

variable {Args : Type} {ordered : Prop}

/-! ### Listing the children -/

/-- The children in the order in which they were started. -/
def byStartOrder (w : World Args) : List (ActorRef × ChildEntry Args) :=
  w.children.entries.insertionSort fun c d => c.2.startOrder ≤ d.2.startOrder

/-- The children in the order of the specification. -/
def bySpecIndex (w : World Args) : List (ActorRef × ChildEntry Args) :=
  w.children.entries.insertionSort fun c d => c.2.specIndex ≤ d.2.specIndex

namespace Ranked

variable {w : World Args}

/-- A traversal of `children_` meets the children in the order of their starts. -/
lemma byStartOrder_eq (h : Ranked ordered w) : byStartOrder w = w.children.entries :=
  List.Pairwise.insertionSort_eq (OrdMap.pairwise_entries fun k k' e e' he he' hlt =>
    (h.orders k k' e e' he he' hlt).le)

lemma bySpecIndex_eq (h : Ranked True w) : bySpecIndex w = w.children.entries :=
  List.Pairwise.insertionSort_eq (OrdMap.pairwise_entries fun k k' e e' he he' hlt =>
    ((h.specs k k' e e' he he' hlt).2 trivial).le)

end Ranked

/-! ### Who is not asked to stop -/

/-- The signals enqueued to `k` are `l`. -/
def Unasked (k : ActorRef) (l : Option (List Signal)) (w : World Args) : Prop :=
  w.sched.actors.find? k = l ∧ k < w.sched.nextActorId

section Unasked

variable {k : ActorRef} {l : Option (List Signal)}

lemma suppressAndStop_unasked {ref : ActorRef} (hne : ref ≠ k) (b : Bool) :
    Preserves (Unasked k l) (do setSuppress ref b; requestStop ref : SupM Args Unit) := by
  refine Preserves.bind (Preserves.modify fun w hw => hw) fun _ => Preserves.get fun w hw => ?_
  split
  · exact hw
  · split
    · exact hw
    · rw [post_bind, post_set, schedulerStop, post_bind, post_get, SchedulerBase.stop]
      split
      · exact post_throw.mpr hw
      · rename_i sched hsched
        rw [Option.ite_none_right_eq_some, Option.some.injEq] at hsched
        obtain ⟨-, rfl⟩ := hsched
        refine post_set.mpr ⟨?_, ?_⟩
        · rw [SchedulerBase.find?_send, if_neg hne]
          simpa using hw.1
        · rw [SchedulerBase.nextActorId_send]
          exact hw.2

/-- New actors have other refs. -/
lemma Unasked.foldl_respawned {w : World Args} (h : Unasked k l w)
    (entries : List (ChildEntry Args)) : Unasked k l (entries.foldl respawned w) := by
  induction entries generalizing w with
  | nil => exact h
  | cons e es ih =>
      refine ih (respawned_induction (P := Unasked k l) e h fun _ _ => ⟨?_, ?_⟩)
      · exact (OrdMap.find?_insert _ _ _ _).trans ((if_neg h.2.ne).trans h.1)
      · exact h.2.trans (Nat.lt_succ_self _)

lemma finalizeIfDone_unasked {w : World Args} (hreg : w.registered w.self = true)
    (h : Unasked k l w) :
    Post (finalizeIfDone : SupM Args Unit) w (fun _ => Unasked k l) (fun _ => True) := by
  rw [finalizeIfDone, post_bind, post_get]
  cases hgroup : w.restartGroup with
  | none => exact post_pure.mpr h
  | some g =>
      simp only
      split
      · rw [Post, finalizeRestartGroup_run hgroup hreg]
        exact Unasked.foldl_respawned (w := { w with restartGroup := none }) h _
      · exact post_pure.mpr h

/-- A group restart asks the members of its plan, and nobody else. -/
lemma beginRestartGroup_unasked {w : World Args} {ref : ActorRef} {e : ChildEntry Args}
    (reason : ExitReason) (h : Unasked k l w) (hd : Departed ordered w ref e)
    (hk : k ∉ (restartPlan w ref e reason).map RestartPlanItem.ref) :
    Post (beginRestartGroup ref e reason : SupM Args Unit) w (fun _ => Unasked k l)
      (fun _ => True) := by
  rw [beginRestartGroup, post_bind, post_get]
  simp only [post_bind, post_set]
  have hstop :
      Preserves (Unasked k l) (stopPlan (restartPlan w ref e reason) : SupM Args Unit) := by
    refine Preserves.forM fun item hitem => Preserves.get fun v hv => ?_
    split
    · have hpush : Preserves (Unasked k l) (pushPendingStop item.ref : SupM Args Unit) :=
        Preserves.modify fun u hu => hu
      refine hpush.bind (fun _ => suppressAndStop_unasked (fun heq => hk ?_) false) v hv
      exact heq ▸ List.mem_map_of_mem hitem
    · exact hv
  have hmarks := fun g : RestartGroup Args =>
    stopPlan_post (w := { w with restartGroup := some g }) (restartPlan w ref e reason) rfl
      (nodup_restartPlan_ref e reason hd.removed) hd.ranked.self_not_child
  refine ((hmarks _).and (hstop _ h)).mono ?_ fun _ _ => trivial
  rintro _ v ⟨⟨hmark, -⟩, hun⟩
  refine finalizeIfDone_unasked ?_ hun
  rw [hmark.self, hmark.registered]
  exact hd.ranked.registered_self

end Unasked

/-! ### The step in which a group restart begins -/

/-- The world in which the failed child has been removed and its restart has been granted. -/
def removed (w : World Args) (ref : ActorRef) : World Args :=
  { dropped w ref with restartTimes := windowTimes w }

section Begins

variable {w : World Args} {sg : Signal} {failed : ChildEntry Args}

lemma suppressRestart_of_restarts (he : w.children.find? sg.source = some failed)
    (hdue : restarts w sg.source sg.reason = true) :
    w.restartGroup = none ∧ granted w = true ∧ failed.suppressRestart = false ∧
      shouldRestart (restartAtSpecIndex w.specification failed.specIndex) sg.reason = true := by
  simpa [restarts, he, and_assoc] using hdue

lemma Lined.removed (h : Lined ordered w) (he : w.children.find? sg.source = some failed)
    (hdue : restarts w sg.source sg.reason = true) :
    Departed ordered (removed w sg.source) sg.source failed := by
  obtain ⟨hgroup, -, hsup, -⟩ := suppressRestart_of_restarts he hdue
  have hd := h.departed hgroup he hsup
  exact { hd with ranked := { hd.ranked with toShape := { hd.ranked.toShape with } } }

/-- A round of `supervise_loop` in which a group restart is due goes on to begin it. -/
lemma superviseVisitor_begins (h : Lined ordered w)
    (hstrat : w.specification.strategy = .oneForAll ∨ w.specification.strategy = .restForOne)
    (he : w.children.find? sg.source = some failed)
    (hdue : restarts w sg.source sg.reason = true) {Q : Unit → World Args → Prop}
    {E : World Args → Prop}
    (hbegin : Post (beginRestartGroup sg.source failed sg.reason : SupM Args Unit)
      (Supervisor.removed w sg.source) Q E) :
    Post (superviseVisitor sg : SupM Args Unit) w Q E := by
  obtain ⟨hgroup, hgranted, hsup, hshould⟩ := suppressRestart_of_restarts he hdue
  have hvalid : sg.source.valid = true := by
    simpa [ActorRef.valid] using h.child_pos _ (OrdMap.contains_iff.mpr ⟨failed, he⟩)
  have hnone : ¬ w.restartGroup.isSome = true := by simp [hgroup]
  rw [post_superviseVisitor ((h.suppress _ _ he).symm.trans hsup), handleSignal, if_pos hvalid,
    handleTermination, post_bind, post_get, if_neg hnone]
  simp only [he, post_bind, post_set, hsup, hshould, Bool.not_false, Bool.and_self, if_true]
  have hself : (dropped w sg.source).children.contains w.self = false :=
    (h.toRanked.dropped sg.source).self_not_child
  have hgranted' : granted (dropped w sg.source) = true := hgranted
  refine (registerRestart_post hself).mono ?_ ?_
  · rintro ok w' (⟨rfl, -, rfl⟩ | ⟨-, hno, -⟩)
    · rcases hstrat with hs | hs <;>
      · simp only [hs, if_true]
        exact hbegin
    · rw [hgranted'] at hno
      cases hno
  · rintro w' ⟨hno, -⟩
    rw [hgranted'] at hno
    cases hno

end Begins

/-- The children that a group restart asks to stop, when the failed one has been removed. -/
def members (w : World Args) (failed : ChildEntry Args) : List (ActorRef × ChildEntry Args) :=
  w.children.entries.filter (joins w.specification.strategy failed)

/-- The group that begins. -/
def begunGroup (w : World Args) (ref : ActorRef) (failed : ChildEntry Args)
    (reason : ExitReason) : RestartGroup Args :=
  { strategy := w.specification.strategy
    plan := { ref := ref, entry := failed, reason := reason } :: (members w failed).map toItem
    pendingStops := (members w failed).map Prod.fst }

/-- What a group restart that begins in `w` makes of the world: if it has members it is active,
if not the failed child is back at once. A child that is not a member keeps its entry. -/
structure Begins (w : World Args) (ref : ActorRef) (failed : ChildEntry Args)
    (reason : ExitReason) (w' : World Args) : Prop where
  active : members w failed ≠ [] → w'.restartGroup = some (begunGroup w ref failed reason)
  alone : members w failed = [] → w'.restartGroup = none ∧ w'.children.entries =
    w.children.entries ++ freshChildren w.sched.nextActorId w.nextStartOrder [failed]
  outside : ∀ k c, w.children.find? k = some c →
    joins w.specification.strategy failed (k, c) = false → w'.children.find? k = some c

namespace Departed

variable {w : World Args} {ref : ActorRef} {failed : ChildEntry Args}

lemma group_eq (h : Departed ordered w ref failed) (reason : ExitReason) :
    { strategy := w.specification.strategy, plan := restartPlan w ref failed reason,
      pendingStops := ((restartPlan w ref failed reason).map RestartPlanItem.ref).filter
        fun r => w.children.contains r } = begunGroup w ref failed reason := by
  have hgone : ¬ w.children.contains ref = true := by simp [OrdMap.contains, h.removed]
  have hpend : ((restartPlan w ref failed reason).map RestartPlanItem.ref).filter
      (fun r => w.children.contains r) = (members w failed).map Prod.fst := by
    rw [restartPlan_eq, List.map_cons, List.filter_cons_of_neg hgone, List.map_map,
      List.filter_eq_self.mpr]
    · rfl
    · intro r hr
      obtain ⟨⟨k, c⟩, hmem, rfl⟩ := List.mem_map.mp hr
      exact OrdMap.contains_iff.mpr ⟨c, OrdMap.mem_entries_iff.mp (List.mem_filter.mp hmem).1⟩
  rw [hpend, restartPlan_eq]
  rfl

lemma mem_plan (h : Departed ordered w ref failed) (reason : ExitReason) {k : ActorRef}
    {c : ChildEntry Args} (hc : w.children.find? k = some c)
    (hj : joins w.specification.strategy failed (k, c) = false) :
    k ∉ (restartPlan w ref failed reason).map RestartPlanItem.ref := by
  rw [mem_restartPlan_ref (h.ne_ref hc) hc]
  simpa [joins] using hj

/-- `begin_restart_group`, as a whole. -/
lemma beginRestartGroup_begins (h : Departed ordered w ref failed)
    (hfirst : ordered → First w failed) {reason : ExitReason}
    (hshould : shouldRestart (restartAtSpecIndex w.specification failed.specIndex) reason = true) :
    Post (beginRestartGroup ref failed reason : SupM Args Unit) w
      (fun _ => Begins w ref failed reason) (fun _ => True) := by
  refine (beginRestartGroup_lined reason h hfirst).mono ?_ fun _ => id
  rintro _ w' ⟨-, v, hb, g, hg, hw'⟩
  have hgroup : begunGroup w ref failed reason = g :=
    (h.group_eq reason).symm.trans (Option.some.inj (hb.group.symm.trans hg))
  have hpend : g.pendingStops = (members w failed).map Prod.fst := by
    rw [← hgroup]
    rfl
  have hkept : ∀ k c, w.children.find? k = some c →
      joins w.specification.strategy failed (k, c) = false → v.children.find? k = some c := by
    intro k c hc hj
    rw [hb.find?, if_neg (h.mem_plan reason hc hj), hc]
  rcases hw' with ⟨hne, rfl⟩ | ⟨hnil, hgrow⟩
  · refine ⟨fun _ => hg.trans (congrArg some hgroup.symm), fun hno => ?_, hkept⟩
    rw [hpend, hno] at hne
    exact absurd rfl hne
  · rw [hpend, List.map_eq_nil_iff] at hnil
    have hsame : v.children = w.children := by
      refine OrdMap.ext fun k => ?_
      cases hc : w.children.find? k with
      | none => simp [hb.find?, hc]
      | some c =>
          refine hkept k c hc (Bool.eq_false_iff.mpr fun hj => ?_)
          have hmem : (k, c) ∈ members w failed :=
            List.mem_filter.mpr ⟨OrdMap.mem_entries_iff.mpr hc, hj⟩
          rw [hnil] at hmem
          cases hmem
    have hrespawn : RestartGroup.toRespawn v.specification g = [failed] := by
      rw [RestartGroup.toRespawn, ← hgroup, begunGroup, hnil, hb.marked.specification]
      simp [hshould]
    have hentries : w'.children.entries = w.children.entries ++
        freshChildren w.sched.nextActorId w.nextStartOrder [failed] := by
      rw [hgrow.entries, hrespawn]
      simp only [hsame, hb.marked.nextActorId, hb.marked.nextStartOrder]
    refine ⟨fun hno => absurd hnil hno, fun _ => ⟨hgrow.group, hentries⟩, fun k c hc _ => ?_⟩
    rw [← OrdMap.mem_entries_iff, hentries]
    exact List.mem_append_left _ (OrdMap.mem_entries_iff.mpr hc)

end Departed

/-- The step in which a group restart begins. A child that is not a member is not asked to
stop. -/
lemma begins_of_step {s t : System Args} {sg : Signal} {rest : List Signal}
    {failed : ChildEntry Args} (h : Lined ordered s.world)
    (hstrat : s.world.specification.strategy = .oneForAll ∨
      s.world.specification.strategy = .restForOne)
    (hfirst : ordered → First (dropped s.world sg.source) failed)
    (hbox : s.world.mailbox = sg :: rest)
    (he : s.world.children.find? sg.source = some failed)
    (hdue : restarts s.world sg.source sg.reason = true) (hstep : step s .receive = some t)
    (hraised : t.raised = false) :
    Begins (dropped s.world sg.source) sg.source failed sg.reason t.world ∧
    ∀ k c, (dropped s.world sg.source).children.find? k = some c →
      joins s.world.specification.strategy failed (k, c) = false →
        t.world.sched.actors.find? k = s.world.sched.actors.find? k := by
  obtain ⟨-, sg', rest', hbox', rfl⟩ := step_receive hstep
  obtain ⟨rfl, rfl⟩ := List.cons.inj (hbox.symm.trans hbox')
  have hd : Departed ordered (removed (popped s.world) sg.source) sg.source failed :=
    h.popped.removed he hdue
  obtain ⟨-, -, -, hshould⟩ := suppressRestart_of_restarts he hdue
  constructor
  · have hpost := superviseVisitor_begins h.popped hstrat he hdue
      (hd.beginRestartGroup_begins hfirst hshould)
    exact { post_of_perform hpost hraised with }
  · intro k c hc hj
    have hin : s.world.children.contains k = true :=
      OrdMap.contains_iff.mpr ⟨c, (find?_erase_some hc).2⟩
    have hne : k ≠ s.world.self := by
      rintro rfl
      rw [h.self_not_child] at hin
      cases hin
    have hun : Unasked k (s.world.sched.actors.find? k) (removed (popped s.world) sg.source) :=
      ⟨(OrdMap.find?_modify _ _ _ _).trans (if_neg hne), h.child_lt k hin⟩
    have hpost := superviseVisitor_begins h.popped hstrat he hdue
      (beginRestartGroup_unasked sg.reason hun hd (hd.mem_plan sg.reason hc hj))
    exact (post_of_perform hpost hraised).1

/-- A round in which no restart is due begins no group. -/
lemma superviseVisitor_idle {w : World Args} (h : Lined ordered w) (hgroup : w.restartGroup = none)
    {sg : Signal} (hdue : restarts w sg.source sg.reason = false) :
    Post (superviseVisitor sg : SupM Args Unit) w (fun _ w' => w'.restartGroup = none)
      (fun _ => True) := by
  refine superviseVisitor_cases (fun _ _ => hgroup) (fun _ => hgroup) fun _ => ?_
  have hnone : ¬ w.restartGroup.isSome = true := by simp [hgroup]
  rw [handleTermination, post_bind, post_get, if_neg hnone]
  cases he : w.children.find? sg.source with
  | none => exact post_pure.mpr hgroup
  | some e =>
      simp only [post_bind, post_set]
      split
      · rename_i hshould
        have hrefused : granted w = false := by
          simpa [restarts, hgroup, he, hshould] using hdue
        have hsup : e.suppressRestart = false := by
          rw [Bool.and_eq_true, Bool.not_eq_true'] at hshould
          exact hshould.1
        rw [post_bind]
        refine (registerRestart_post
          (h.toRanked.dropped sg.source).self_not_child).mono ?_ fun _ _ => trivial
        rintro ok w' (⟨-, hgr, -⟩ | ⟨rfl, -, hh, -⟩)
        · have hgr' : granted w = true := hgr
          rw [hrefused] at hgr'
          cases hgr'
        · exact post_pure.mpr (hh.group ((h.suppress _ e he).symm.trans hsup))
      · exact post_pure.mpr hgroup

/-- A group that is active after a round, and was not before, has begun in it. -/
lemma restarts_of_begun {s t : System Args} {g : RestartGroup Args} (h : Lined ordered s.world)
    (hnone : s.world.restartGroup = none) (hstep : step s .receive = some t)
    (hraised : t.raised = false) (hg : t.world.restartGroup = some g) :
    ∃ sg rest failed, s.world.mailbox = sg :: rest ∧
      s.world.children.find? sg.source = some failed ∧
      restarts s.world sg.source sg.reason = true := by
  obtain ⟨-, sg, rest, hbox, rfl⟩ := step_receive hstep
  by_cases hdue : restarts s.world sg.source sg.reason = true
  · cases he : s.world.children.find? sg.source with
    | none => simp [restarts, he] at hdue
    | some failed => exact ⟨sg, rest, failed, hbox, he, hdue⟩
  · rw [Bool.not_eq_true] at hdue
    have hno := post_of_perform (superviseVisitor_idle h.popped hnone hdue) hraised
    rw [hno] at hg
    cases hg

/-! ### rest_for_one -/

/-- The children behind `failed` in the specification, in its order. -/
def laterChildren (w : World Args) (failed : ChildEntry Args) :
    List (ActorRef × ChildEntry Args) :=
  (bySpecIndex w).filter fun c => decide (failed.specIndex < c.2.specIndex)

lemma entries_dropped (w : World Args) (ref : ActorRef) :
    (dropped w ref).children.entries =
      w.children.entries.filter fun c => decide (c.1 ≠ ref) := rfl

namespace Ranked

variable {w : World Args} {ref : ActorRef} {failed : ChildEntry Args}

/-- The start orders, which `begin_restart_group` compares, tell who is behind in the
specification. -/
lemma startOrder_lt_iff (h : Ranked True w) (he : w.children.find? ref = some failed)
    {k : ActorRef} {c : ChildEntry Args} (hc : w.children.find? k = some c) :
    failed.startOrder < c.startOrder ↔ failed.specIndex < c.specIndex := by
  by_cases hk : k = ref
  · subst hk
    obtain rfl := Option.some.inj (he.symm.trans hc)
    simp
  · rcases h.side hc he hk with ⟨ho, -, hs⟩ | ⟨ho, -, hs⟩
    · have := hs trivial
      omega
    · have := hs trivial
      omega

lemma members_eq (h : Ranked True w) (hstrat : w.specification.strategy = .restForOne)
    (he : w.children.find? ref = some failed) :
    members (Supervisor.dropped w ref) failed = laterChildren w failed := by
  rw [members, laterChildren, h.bySpecIndex_eq, entries_dropped, List.filter_filter]
  refine List.filter_congr fun c hmem => ?_
  have hc : w.children.find? c.1 = some c.2 := OrdMap.mem_entries_iff.mp hmem
  have hiff := h.startOrder_lt_iff he hc
  have hstrat' : (Supervisor.dropped w ref).specification.strategy = .restForOne := hstrat
  rw [Bool.eq_iff_iff, hstrat']
  simp only [joins, true_implies, Bool.and_eq_true, decide_eq_true_eq, hiff]
  refine and_iff_left_of_imp fun hlt heq => ?_
  rw [heq, he] at hc
  obtain rfl := Option.some.inj hc
  exact lt_irrefl _ hlt

end Ranked

/-- `rest_for_one` restarts the failed child and those behind it in the specification. In every
state that a run of `init` and of signals reaches, start orders and specs grow together. A
restart that is due begins the group of the failed child and, in the order of the specification,
of the children behind it; if there are none the failed child is back at once. Whoever comes
before it keeps its entry and finds nothing new in its mailbox. No other group begins. -/
theorem rest_for_one_restarts_the_rest {sched : SchedulerBase} (hwf : sched.WellFormed)
    {spec : Specification Args} (hstrat : spec.strategy = .restForOne)
    {labels : List (Label Args)} {s : System Args}
    (hrun : run step (create sched spec) labels = some s)
    (hadmin : ∀ l ∈ labels, l.administrative = false) (hraised : s.raised = false) :
    ((byStartOrder s.world).Pairwise fun c d =>
      c.2.startOrder < d.2.startOrder ∧ c.2.specIndex < d.2.specIndex) ∧
    ∀ t, step s .receive = some t → t.raised = false →
      (∀ sg rest failed, s.world.mailbox = sg :: rest →
        s.world.children.find? sg.source = some failed →
        restarts s.world sg.source sg.reason = true →
        restartPlan (dropped s.world sg.source) sg.source failed sg.reason =
          { ref := sg.source, entry := failed, reason := sg.reason } ::
            (laterChildren s.world failed).map toItem ∧
        (laterChildren s.world failed ≠ [] → t.world.restartGroup = some
          { strategy := .restForOne
            plan := restartPlan (dropped s.world sg.source) sg.source failed sg.reason
            pendingStops := (laterChildren s.world failed).map Prod.fst }) ∧
        (laterChildren s.world failed = [] → t.world.restartGroup = none ∧
          ∃ ref order, t.world.children.entries =
            (s.world.children.entries.filter fun c => decide (c.1 ≠ sg.source)) ++
              [(ref, { specIndex := failed.specIndex, startOrder := order,
                       args := failed.args })]) ∧
        ∀ k c, s.world.children.find? k = some c → c.specIndex < failed.specIndex →
          t.world.children.find? k = some c ∧
            t.world.sched.actors.find? k = s.world.sched.actors.find? k) ∧
      (s.world.restartGroup = none → t.world.restartGroup.isSome = true →
        ∃ sg rest failed, s.world.mailbox = sg :: rest ∧
          s.world.children.find? sg.source = some failed ∧
          restarts s.world sg.source sg.reason = true) := by
  have hstatic : spec.strategy ≠ .simpleOneForOne := by simp [hstrat]
  have hturn : ∀ (s' : System Args) (l : Label Args), s'.world.specification = spec →
      l.administrative = false → InTurn True s' l :=
    fun s' l hs hno => ⟨hno, fun _ _ _ _ _ _ _ => Or.inl ((congrArg _ hs).trans hstrat)⟩
  obtain ⟨hspec, hlined⟩ := inLine_of_run hwf hstatic hturn hrun
    (allSteps_of_forall fun a ha _ => hadmin a ha)
  have hl : Lined True s.world := (hlined hraised).1
  have hrest : s.world.specification.strategy = .restForOne := by rw [hspec, hstrat]
  refine ⟨?_, fun t hstep hr => ⟨fun sg rest failed hbox he hdue => ?_, fun hnone hsome => ?_⟩⟩
  · rw [hl.toRanked.byStartOrder_eq]
    exact OrdMap.pairwise_entries fun k k' c d hc hd hlt =>
      ⟨hl.orders k k' c d hc hd hlt, (hl.specs k k' c d hc hd hlt).2 trivial⟩
  · have hmem := hl.toRanked.members_eq hrest he
    have hplan : restartPlan (dropped s.world sg.source) sg.source failed sg.reason =
        { ref := sg.source, entry := failed, reason := sg.reason } ::
          (laterChildren s.world failed).map toItem := by
      rw [restartPlan_eq, ← hmem]
      rfl
    obtain ⟨hb, hun⟩ :=
      begins_of_step hl (Or.inr hrest) (fun _ => Or.inl hrest) hbox he hdue hstep hr
    refine ⟨hplan, fun hne => ?_, fun hnil => ?_, fun k c hc hlt => ?_⟩
    · have hrest' : (dropped s.world sg.source).specification.strategy = .restForOne := hrest
      rw [hb.active (by rwa [hmem]), begunGroup, hmem, hplan, hrest']
    · obtain ⟨hnone, hentries⟩ := hb.alone (by rwa [hmem])
      exact ⟨hnone, _, _, hentries⟩
    · -- an older child of rest_for_one is no member of the group
      have hc' : (dropped s.world sg.source).children.find? k = some c := by
        refine (OrdMap.find?_erase _ _ _).trans ((if_neg ?_).trans hc)
        rintro rfl
        obtain rfl := Option.some.inj (he.symm.trans hc)
        exact lt_irrefl _ hlt
      have hout : joins s.world.specification.strategy failed (k, c) = false := by
        have hno : ¬ failed.startOrder < c.startOrder := by
          rw [hl.toRanked.startOrder_lt_iff he hc]
          exact lt_asymm hlt
        simp [joins, hrest, not_lt.mp hno]
      exact ⟨hb.outside k c hc' hout, hun k c hc' hout⟩
  · obtain ⟨g, hg⟩ := Option.isSome_iff_exists.mp hsome
    exact restarts_of_begun hl hnone hstep hr hg

/-- The middle child of three has failed. -/
def middleFails : List (Label Unit) := [.init, .exit 3 .error]

/-- The state after it. -/
def afterMiddle : System Unit := reached step (create {} threePermanent) middleFails

/-- The last child is asked to stop, and the first one is left alone. -/
theorem rest_for_one_restarts_the_last :
    ∃ t, step afterMiddle .receive = some t ∧
      t.world.restartGroup.map RestartGroup.pendingStops = some [4] ∧
      t.world.sched.actors.find? 2 = afterMiddle.world.sched.actors.find? 2 := by
  have hrun : run step (create {} threePermanent) middleFails = some afterMiddle :=
    run_eq_reached (by decide +kernel)
  obtain ⟨t, hstep⟩ : ∃ t, step afterMiddle .receive = some t :=
    Option.isSome_iff_exists.mp (by decide +kernel)
  have hraised : t.raised = false := by
    have hmap : (step afterMiddle .receive).map System.raised = some false := by decide +kernel
    simpa [hstep] using hmap
  obtain ⟨failed, he, hindex⟩ : ∃ e, afterMiddle.world.children.find? 3 = some e ∧
      e.specIndex = 1 := by
    rw [← Option.map_eq_some_iff]
    decide +kernel
  obtain ⟨c, hc, hfirst⟩ : ∃ e, afterMiddle.world.children.find? 2 = some e ∧
      e.specIndex = 0 := by
    rw [← Option.map_eq_some_iff]
    decide +kernel
  have hlater : (laterChildren afterMiddle.world failed).map Prod.fst = [4] := by
    rw [laterChildren, hindex]
    decide +kernel
  have h := rest_for_one_restarts_the_rest ⟨by decide, fun k hk => by cases hk⟩ rfl hrun
    (by decide) (by decide +kernel)
  obtain ⟨-, hactive, -, hbefore⟩ := (h.2 t hstep hraised).1 (.down 3 .error) [] failed
    (by decide +kernel) he (by decide +kernel)
  refine ⟨t, hstep, ?_, (hbefore 2 c hc (by omega)).2⟩
  rw [hactive (fun hnil => by rw [hnil] at hlater; cases hlater), Option.map_some, hlater]

/-! ### one_for_all -/

/-- The children other than the failed one, in the order in which they were started. -/
def otherChildren (w : World Args) (ref : ActorRef) : List (ActorRef × ChildEntry Args) :=
  (byStartOrder w).filter fun c => decide (c.1 ≠ ref)

lemma Ranked.members_eq_others {w : World Args} (h : Ranked ordered w)
    (hstrat : w.specification.strategy = .oneForAll) (ref : ActorRef)
    (failed : ChildEntry Args) :
    members (Supervisor.dropped w ref) failed = otherChildren w ref := by
  have hstrat' : (Supervisor.dropped w ref).specification.strategy = .oneForAll := hstrat
  rw [members, otherChildren, h.byStartOrder_eq, entries_dropped, List.filter_eq_self.mpr]
  intro c _
  simp [joins, hstrat']

/-- Under `one_for_all` the last report of a group leaves nobody in `children_`. -/
lemma GroupLined.entries_eq_nil {w : World Args} {g : RestartGroup Args}
    (hg : GroupLined ordered w g) (hstrat : w.specification.strategy = .oneForAll)
    {ref : ActorRef} (hlast : g.pendingStops.erase ref = []) :
    (dropped w ref).children.entries = [] := by
  rw [List.eq_nil_iff_forall_not_mem]
  rintro ⟨k, c⟩ hmem
  obtain ⟨hne, hc⟩ := find?_erase_some (OrdMap.mem_entries_iff.mp hmem)
  have hk : k ∈ g.pendingStops :=
    hg.covers (by simp [hstrat]) k (OrdMap.contains_iff.mpr ⟨c, hc⟩)
  have hk' : k ∈ g.pendingStops.erase ref := (List.mem_erase_of_ne hne).mpr hk
  rw [hlast] at hk'
  cases hk'

/-- The step that handles a report to an active group: the last one ends the group, and the plan is
respawned, in its order. -/
lemma finalizes_of_step {s t : System Args} {g : RestartGroup Args} {sg : Signal}
    {rest : List Signal} (h : Lined ordered s.world)
    (hstrat : s.world.specification.strategy = .oneForAll)
    (hgroup : s.world.restartGroup = some g) (hbox : s.world.mailbox = sg :: rest)
    (hstep : step s .receive = some t) :
    (t.world.restartGroup = none ↔ g.pendingStops = [sg.source]) ∧
      (g.pendingStops = [sg.source] → Lined ordered t.world ∧ ∃ ref order,
        t.world.children.entries =
          freshChildren ref order (RestartGroup.toRespawn s.world.specification g)) := by
  obtain ⟨-, sg', rest', hbox', rfl⟩ := step_receive hstep
  obtain rfl : sg = sg' := (List.cons.inj (hbox.symm.trans hbox')).1
  obtain ⟨hne, hg⟩ : g.pendingStops ≠ [] ∧ GroupLined ordered (popped s.world) g :=
    h.popped.group g hgroup
  have hlast : g.pendingStops.erase sg.source = [] ↔ g.pendingStops = [sg.source] :=
    List.erase_eq_nil_iff.trans (or_iff_right hne)
  have hpost : Post (superviseVisitor sg : SupM Args Unit) (popped s.world)
      (fun _ w' => (w'.restartGroup = none ↔ g.pendingStops = [sg.source]) ∧
        (g.pendingStops = [sg.source] → Lined ordered w' ∧ ∃ ref order, w'.children.entries =
          freshChildren ref order (RestartGroup.toRespawn s.world.specification g)))
      (fun _ => False) := by
    rw [post_superviseVisitor hg.running, handleSignal, ← hlast]
    have hgroup' : (popped s.world).restartGroup = some g := hgroup
    split
    · rw [handleTermination, post_bind, post_get, hgroup', Option.isSome_some, if_pos rfl]
      refine (handleRestartGroupStop_lined h.popped hgroup sg.source).mono ?_ fun _ => id
      rintro _ w' ⟨hl, ⟨hmore, rfl⟩ | ⟨hdone, hgrow⟩⟩
      · refine ⟨iff_of_false ?_ hmore, fun hdone => absurd hdone hmore⟩
        simp [withoutMember, hgroup']
      · have hnil : (dropped (popped s.world) sg.source).children.entries = [] :=
          hg.entries_eq_nil hstrat hdone
        exact ⟨iff_of_true hgrow.group hdone, fun _ =>
          ⟨hl, _, _, hgrow.entries.trans (congrArg (· ++ _) hnil)⟩⟩
    · rename_i hvalid
      -- nobody reports, and no member of the group has that reference
      have hmore : g.pendingStops.erase sg.source ≠ [] := by
        rw [ne_eq, hlast]
        intro hone
        have hpos := h.child_pos _ (hg.pending_child _ (hone ▸ List.mem_singleton_self _))
        exact hpos (by simpa [ActorRef.valid] using hvalid)
      refine post_pure.mpr ⟨iff_of_false ?_ hmore, fun hdone => absurd hdone hmore⟩
      simp [hgroup']
  rcases perform_eq_of_post hpost with ⟨-, hout⟩ | ⟨-, hf⟩
  · exact hout
  · exact hf.elim

/-- The condition on steps: a restart that the step begins is that of the child which comes
first in the specification, of those in `children_`. -/
def FirstFails (s : System Args) (l : Label Args) : Prop :=
  l.receive? = true → ∀ sg ∈ s.world.mailbox.head?,
    restarts s.world sg.source sg.reason = true →
      ∀ failed, s.world.children.find? sg.source = some failed →
        ∀ k c, s.world.children.find? k = some c → k ≠ sg.source →
          failed.specIndex < c.specIndex

/-- `one_for_all` restarts the failed child first, and behind it the others in the order in
which they were started. In every state that a run of `init` and of signals reaches, start orders
grow and no two children are of one spec; they come in the order of the specification as long as
it is the first of them that fails. A restart that is due begins the group of the failed child
and of all others, and when the last of these has been reported `children_` holds the new
children in the order of the plan, and nobody else. -/
theorem one_for_all_failed_child_first {sched : SchedulerBase} (hwf : sched.WellFormed)
    {spec : Specification Args} (hstrat : spec.strategy = .oneForAll)
    {labels : List (Label Args)} {s : System Args}
    (hrun : run step (create sched spec) labels = some s)
    (hadmin : ∀ l ∈ labels, l.administrative = false) (hraised : s.raised = false) :
    ((byStartOrder s.world).Pairwise fun c d =>
      c.2.startOrder < d.2.startOrder ∧ c.2.specIndex ≠ d.2.specIndex) ∧
    (AllSteps step FirstFails (create sched spec) labels →
      (byStartOrder s.world).Pairwise fun c d => c.2.specIndex < d.2.specIndex) ∧
    ∀ t, step s .receive = some t → t.raised = false →
      (∀ sg rest failed, s.world.mailbox = sg :: rest →
        s.world.children.find? sg.source = some failed →
        restarts s.world sg.source sg.reason = true →
        (otherChildren s.world sg.source ≠ [] → t.world.restartGroup = some
          { strategy := .oneForAll
            plan := { ref := sg.source, entry := failed, reason := sg.reason } ::
              (otherChildren s.world sg.source).map toItem
            pendingStops := (otherChildren s.world sg.source).map Prod.fst }) ∧
        (otherChildren s.world sg.source = [] → t.world.restartGroup = none ∧
          (byStartOrder t.world).map (fun c => (c.2.specIndex, c.2.args)) =
            [(failed.specIndex, failed.args)])) ∧
      ∀ g sg rest, s.world.restartGroup = some g → s.world.mailbox = sg :: rest →
        (t.world.restartGroup = none ↔ g.pendingStops = [sg.source]) ∧
        (g.pendingStops = [sg.source] →
          (byStartOrder t.world).map (fun c => (c.2.specIndex, c.2.args)) =
          (g.plan.filter fun item => decide
            (restartAtSpecIndex spec item.entry.specIndex = .permanent ∨
              (restartAtSpecIndex spec item.entry.specIndex = .transient ∧
                item.reason ≠ .normal))).map
            fun item => (item.entry.specIndex, item.entry.args)) := by
  have hstatic : spec.strategy ≠ .simpleOneForOne := by simp [hstrat]
  have hline : InLine False spec s := inLine_of_signals hwf hstatic hrun hadmin
  have hl : Lined False s.world := (hline.2 hraised).1
  have hall : s.world.specification.strategy = .oneForAll := by rw [hline.1, hstrat]
  refine ⟨?_, fun hfirst => ?_, fun t hstep hr => ⟨fun sg rest failed hbox he hdue => ?_,
    fun g sg rest hgroup hbox => ?_⟩⟩
  · rw [hl.toRanked.byStartOrder_eq]
    exact OrdMap.pairwise_entries fun k k' c d hc hd hlt =>
      ⟨hl.orders k k' c d hc hd hlt, (hl.specs k k' c d hc hd hlt).1⟩
  · have hturn : ∀ (s' : System Args) (l : Label Args), s'.world.specification = spec →
        l.administrative = false ∧ FirstFails s' l → InTurn True s' l := by
      rintro s' l hs ⟨hno, hff⟩
      refine ⟨hno, fun hrec sg hsg _ hdue failed he => Or.inr ⟨(congrArg _ hs).trans hstrat, ?_⟩⟩
      intro k c hc
      obtain ⟨hne, hc'⟩ := find?_erase_some hc
      exact hff hrec sg hsg hdue failed he k c hc' hne
    have hordered : Lined True s.world := ((inLine_of_run hwf hstatic hturn hrun
      ((allSteps_of_forall fun a ha _ => hadmin a ha).and hfirst)).2 hraised).1
    rw [hordered.toRanked.byStartOrder_eq]
    exact OrdMap.pairwise_entries fun k k' c d hc hd hlt =>
      (hordered.specs k k' c d hc hd hlt).2 trivial
  · have hmem := hl.toRanked.members_eq_others hall sg.source failed
    have hb := (begins_of_step hl (Or.inl hall) False.elim hbox he hdue hstep hr).1
    constructor
    · intro hne
      have hall' : (dropped s.world sg.source).specification.strategy = .oneForAll := hall
      rw [hb.active (by rwa [hmem]), begunGroup, hmem, hall']
    · intro hnil
      obtain ⟨hnone, hentries⟩ := hb.alone (by rwa [hmem])
      have hempty : (dropped s.world sg.source).children.entries = [] := by
        rw [entries_dropped, ← hl.toRanked.byStartOrder_eq]
        exact hnil
      have hlt : Lined False t.world :=
        ((inLine_step hline ⟨rfl, fun _ _ _ ho => ho.elim⟩ hstep).2 hr).1
      refine ⟨hnone, ?_⟩
      rw [hlt.toRanked.byStartOrder_eq, hentries, hempty]
      rfl
  · obtain ⟨hdone, hends⟩ := finalizes_of_step hl hall hgroup hbox hstep
    refine ⟨hdone, fun hlast => ?_⟩
    obtain ⟨hlt, ref, order, hentries⟩ := hends hlast
    rw [hlt.toRanked.byStartOrder_eq, hentries,
      map_freshChildren (fun e => (e.specIndex, e.args)) _ _ fun _ _ => rfl,
      RestartGroup.toRespawn, List.map_map, hline.1]
    simp only [shouldRestart_eq]
    rfl

/-- The second child has failed, and the first one has been asked to stop and has stopped. -/
def secondFails : List (Label Unit) := [.init, .exit 3 .error, .receive, .exit 2 .stopped]

/-- The state after it. -/
def afterSecond : System Unit := reached step (create {} twoPermanent) secondFails

/-- The children come back in the order of the plan: the second, then the first. -/
theorem one_for_all_second_child_first :
    ∃ t, step afterSecond .receive = some t ∧
      (byStartOrder t.world).map (fun c => (c.2.specIndex, c.2.args)) = [(1, ()), (0, ())] := by
  have hrun : run step (create {} twoPermanent) secondFails = some afterSecond :=
    run_eq_reached (by decide +kernel)
  obtain ⟨t, hstep⟩ : ∃ t, step afterSecond .receive = some t :=
    Option.isSome_iff_exists.mp (by decide +kernel)
  have hafter : (step afterSecond .receive).map
      (fun t => (t.raised, t.world.restartGroup.isNone)) = some (false, true) := by
    decide +kernel
  rw [hstep, Option.map_some, Option.some.injEq, Prod.mk.injEq, Option.isNone_iff_eq_none]
    at hafter
  obtain ⟨g, hgroup⟩ : ∃ g, afterSecond.world.restartGroup = some g :=
    Option.isSome_iff_exists.mp (by decide +kernel)
  have hplan : afterSecond.world.restartGroup.map (fun g =>
      (g.plan.filter fun item => decide
        (restartAtSpecIndex twoPermanent item.entry.specIndex = .permanent ∨
          (restartAtSpecIndex twoPermanent item.entry.specIndex = .transient ∧
            item.reason ≠ .normal))).map
        fun item => (item.entry.specIndex, item.entry.args)) = some [(1, ()), (0, ())] := by
    decide +kernel
  rw [hgroup, Option.map_some, Option.some.injEq] at hplan
  have h := one_for_all_failed_child_first ⟨by decide, fun k hk => by cases hk⟩ rfl hrun
    (by decide) (by decide +kernel)
  obtain ⟨hdone, hplanned⟩ := (h.2.2 t hstep hafter.1).2 g (.down 2 .stopped) [] hgroup
    (by decide +kernel)
  exact ⟨t, hstep, (hplanned (hdone.mp hafter.2)).trans hplan⟩

/-- The specs do not come in order then. -/
theorem one_for_all_out_of_order :
    (∀ l ∈ secondFails ++ [.receive], l.administrative = false) ∧
    ∃ s, run step (create {} twoPermanent) (secondFails ++ [.receive]) = some s ∧
      s.raised = false ∧ s.world.phase = .supervising ∧
      ¬ (byStartOrder s.world).Pairwise fun c d => c.2.specIndex < d.2.specIndex :=
  ⟨by decide, _, run_eq_reached (by decide +kernel), by decide +kernel, by decide +kernel,
    by decide +kernel⟩

end Supervisor

end Agner
