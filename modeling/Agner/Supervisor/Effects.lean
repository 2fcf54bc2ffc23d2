import Agner.Foundations.Raising
import Agner.Supervisor.Operations

/-!
What the operations of a supervisor do, one statement for each.

* `Marked`: the part of the world that asking children to stop leaves alone. It changes the
  two flags of entries and enqueues exit signals to children, and nothing else.
* `suppressAndStop_post`, `sweep_post`: one child, and a list of children, being asked to
  stop. A sweep raises exactly when it reaches a child that is not registered any more and
  has not been asked before.
* `startFresh_run`: starting a child cannot fail while the supervisor itself is registered.
-/

namespace Agner

open Raising

/-- The members of an entry that never change once the child has been started. -/
def ChildEntry.core {Args : Type} (e : ChildEntry Args) : ℕ × ℕ × Args :=
  (e.specIndex, e.startOrder, e.args)

namespace World

variable {Args : Type}

/-- The actor is in the scheduler's `actors_`. -/
def registered (w : World Args) (ref : ActorRef) : Bool := w.sched.actors.contains ref

/-- The signals waiting for the supervisor, oldest first. -/
def mailbox (w : World Args) : List Signal := (w.sched.actors.find? w.self).getD []

end World

namespace Supervisor

variable {Args : Type}

/-- `w'` differs from `w` at most in the flags of entries, in the pending stops of a restart
group, and in the mailboxes of actors other than the supervisor. -/
structure Marked (w w' : World Args) : Prop where
  core : ∀ k, (w'.children.find? k).map ChildEntry.core = (w.children.find? k).map ChildEntry.core
  registered : ∀ k, w'.registered k = w.registered k
  mailbox : w'.mailbox = w.mailbox
  links : w'.sched.links = w.sched.links
  monitors : w'.sched.monitors = w.sched.monitors
  nextActorId : w'.sched.nextActorId = w.sched.nextActorId
  self : w'.self = w.self
  now : w'.now = w.now
  specification : w'.specification = w.specification
  restartTimes : w'.restartTimes = w.restartTimes
  nextStartOrder : w'.nextStartOrder = w.nextStartOrder
  stopping : w'.stopping = w.stopping
  phase : w'.phase = w.phase
  spawned : w'.spawned = w.spawned

lemma Marked.refl (w : World Args) : Marked w w := by constructor <;> intros <;> rfl

lemma Marked.trans {u v w : World Args} (h : Marked u v) (h' : Marked v w) : Marked u w where
  core k := (h'.core k).trans (h.core k)
  registered k := (h'.registered k).trans (h.registered k)
  mailbox := h'.mailbox.trans h.mailbox
  links := h'.links.trans h.links
  monitors := h'.monitors.trans h.monitors
  nextActorId := h'.nextActorId.trans h.nextActorId
  self := h'.self.trans h.self
  now := h'.now.trans h.now
  specification := h'.specification.trans h.specification
  restartTimes := h'.restartTimes.trans h.restartTimes
  nextStartOrder := h'.nextStartOrder.trans h.nextStartOrder
  stopping := h'.stopping.trans h.stopping
  phase := h'.phase.trans h.phase
  spawned := h'.spawned.trans h.spawned

/-- An update of flags is a marking. -/
lemma marked_modify (w : World Args) (ref : ActorRef) (f : ChildEntry Args → ChildEntry Args)
    (hf : ∀ e, (f e).core = e.core) :
    Marked w { w with children := w.children.modify ref f } := by
  constructor <;> try (intros; rfl)
  intro k
  simp only [OrdMap.find?_modify]
  by_cases hk : k = ref
  · cases hfind : w.children.find? k <;> simp [hk, hf]
  · simp [hk]

/-- A signal enqueued to another actor is a marking. -/
lemma marked_send (w : World Args) (ref : ActorRef) (sg : Signal) (hne : ref ≠ w.self) :
    Marked w { w with sched := w.sched.send ref sg } := by
  constructor <;> try (intros; rfl)
  · exact fun k => SchedulerBase.contains_send w.sched ref k sg
  · simp only [World.mailbox, SchedulerBase.send]
    split
    · simp [OrdMap.find?_modify, hne.symm]
    · rfl
  · exact SchedulerBase.links_send w.sched ref sg
  · exact SchedulerBase.monitors_send w.sched ref sg
  · exact SchedulerBase.nextActorId_send w.sched ref sg

lemma find?_erase_some {w : World Args} {ref k : ActorRef} {e : ChildEntry Args}
    (he : (w.children.erase ref).find? k = some e) :
    k ≠ ref ∧ w.children.find? k = some e := by
  rw [OrdMap.find?_erase] at he
  split at he
  · cases he
  · rename_i hk
    exact ⟨hk, he⟩

/-! ### Asking children to stop -/

/-- The entry after its child has been asked to stop. -/
def asked (b : Bool) (e : ChildEntry Args) : ChildEntry Args :=
  { e with stopping := true, suppressRestart := b }

/-- The child `ref` is in `children_`, has not been asked to stop, and is gone from the
registry. -/
def Gone (w : World Args) (ref : ActorRef) : Prop :=
  ∃ e, w.children.find? ref = some e ∧ e.stopping = false ∧ w.registered ref = false

/-- How one child is asked to stop: this raises exactly when the child is gone. -/
lemma suppressAndStop_post {w : World Args} {ref : ActorRef} {e : ChildEntry Args} (b : Bool)
    (hne : ref ≠ w.self) (hfind : w.children.find? ref = some e) :
    Post (do setSuppress ref b; requestStop ref : SupM Args Unit) w
      (fun _ w' => Marked w w' ∧ w'.restartGroup = w.restartGroup ∧
        (∀ k, k ≠ ref → w'.children.find? k = w.children.find? k) ∧
        w'.children.find? ref = some (asked b e) ∧ ¬ Gone w ref)
      (fun _ => Gone w ref) := by
  have hmark := marked_modify w ref (fun c => { c with suppressRestart := b }) fun _ => rfl
  rw [post_bind, setSuppress, post_modify, requestStop, post_bind, post_get]
  simp only [OrdMap.find?_modify, hfind, if_true, Option.map_some]
  by_cases hst : e.stopping = true
  · simp only [hst, if_true, post_pure]
    refine ⟨hmark, trivial, fun k hk => ?_, ?_, ?_⟩
    · simp [OrdMap.find?_modify, hk]
    · simp [OrdMap.find?_modify, hfind, asked, hst]
    · rintro ⟨e', he', hst', -⟩
      rw [hfind, Option.some.injEq] at he'
      simp [← he', hst] at hst'
  · simp only [hst, if_false, post_bind, post_set, schedulerStop, post_get,
      Bool.false_eq_true, SchedulerBase.stop]
    by_cases hreg : w.sched.actors.contains ref = true
    · simp only [hreg, if_true, post_set]
      refine ⟨?_, trivial, fun k hk => ?_, ?_, ?_⟩
      · exact (hmark.trans (marked_modify _ ref (fun c => { c with stopping := true })
          fun _ => rfl)).trans (marked_send _ ref _ hne)
      · simp [OrdMap.find?_modify, hk]
      · simp [OrdMap.find?_modify, hfind, asked]
      · rintro ⟨-, -, -, hgone⟩
        simp [World.registered, hreg] at hgone
    · simp only [hreg, if_false, post_throw, Bool.false_eq_true]
      exact ⟨e, hfind, by simpa using hst, by simpa [World.registered] using hreg⟩

/-- How a list of children is asked to stop, one after the other. -/
lemma sweep_post {w : World Args} (b : Bool) (refs : List ActorRef) (hnodup : refs.Nodup)
    (hrefs : ∀ r ∈ refs, r ≠ w.self ∧ (w.children.find? r).isSome) :
    Post (refs.forM fun r => (do setSuppress r b; requestStop r : SupM Args Unit)) w
      (fun _ w' => Marked w w' ∧ w'.restartGroup = w.restartGroup ∧
        (∀ k, w'.children.find? k =
          if k ∈ refs then (w.children.find? k).map (asked b) else w.children.find? k) ∧
        ∀ r ∈ refs, ¬ Gone w r)
      (fun _ => ∃ r ∈ refs, Gone w r) := by
  refine Post.mono (post_forM (fun done rest w' => (done ++ rest = refs) ∧ Marked w w' ∧
      w'.restartGroup = w.restartGroup ∧
      (∀ k, w'.children.find? k =
        if k ∈ done then (w.children.find? k).map (asked b) else w.children.find? k) ∧
      ∀ r ∈ done, ¬ Gone w r) ?_ refs w ⟨rfl, Marked.refl w, rfl, by simp, by simp⟩)
    (fun _ w' h => h.2) fun _ => id
  rintro done x rest w' ⟨hsplit, hmark, hgroup, hfind, hgone⟩
  have hx : x ∈ refs := by rw [← hsplit]; simp
  have hxdone : x ∉ done := by
    intro hmem
    rw [← hsplit] at hnodup
    exact (List.nodup_append.mp hnodup).2.2 x hmem x (by simp) rfl
  obtain ⟨hne, hsome⟩ := hrefs x hx
  obtain ⟨e, he⟩ := Option.isSome_iff_exists.mp hsome
  have he' : w'.children.find? x = some e := by rw [hfind, if_neg hxdone, he]
  -- `x` has not been visited yet, so it is gone now exactly if it was gone at the start
  have hiff : Gone w' x ↔ Gone w x := by
    simp only [Gone, he, he', hmark.registered]
  refine (suppressAndStop_post b (by rwa [hmark.self]) he').mono ?_
    fun _ hg => ⟨x, hx, hiff.mp hg⟩
  rintro _ w'' ⟨hmark', hgroup', hothers, hself, hnot⟩
  refine ⟨by simpa using hsplit, hmark.trans hmark', hgroup'.trans hgroup, fun k => ?_, ?_⟩
  · by_cases hk : k = x
    · subst hk
      simp [hself, he]
    · simp [hothers k hk, hfind k, hk]
  · intro r hr
    rcases List.mem_append.mp hr with hr | hr
    · exact hgone r hr
    · rw [List.mem_singleton.mp hr]
      exact fun hg => hnot (hiff.mpr hg)

/-- The loop of `stop_all_children`, and the one of `stop_and_suppress_by_index`, are sweeps
over the children they select. -/
lemma stopAllChildren_eq : (stopAllChildren : SupM Args Unit) = (do
    let w ← get
    w.children.keys.forM fun r => (do setSuppress r true; requestStop r)) := by
  simp only [stopAllChildren, OrdMap.keys, List.forM_eq_forM, List.forM_map]

lemma stopAndSuppressByIndex_eq (index : ℕ) :
    (stopAndSuppressByIndex index : SupM Args Unit) = (do
      let w ← get
      ((w.children.entries.filter fun c => decide (c.2.specIndex = index)).map Prod.fst).forM
        fun r => (do setSuppress r true; requestStop r)) := by
  simp only [stopAndSuppressByIndex, forM_ite, List.forM_eq_forM, List.forM_map]

/-- The children that the operations on a spec select. -/
lemma mem_refs_of_spec {w : World Args} {index : ℕ} {k : ActorRef} :
    k ∈ (w.children.entries.filter fun c => decide (c.2.specIndex = index)).map Prod.fst ↔
      ∃ e, w.children.find? k = some e ∧ e.specIndex = index := by
  simp [OrdMap.mem_entries_iff]

/-- The loop of `begin_restart_group`: the children of the plan become pending stops, in plan
order, and are asked to stop. -/
lemma stopPlan_post {w : World Args} {g : RestartGroup Args} (plan : List (RestartPlanItem Args))
    (hgroup : w.restartGroup = some g) (hnodup : (plan.map RestartPlanItem.ref).Nodup)
    (hself : w.children.contains w.self = false) :
    Post (stopPlan plan : SupM Args Unit) w
      (fun _ w' => Marked w w' ∧
        w'.restartGroup = some { g with pendingStops := g.pendingStops ++
          (plan.map RestartPlanItem.ref).filter fun r => w.children.contains r } ∧
        (∀ k, w'.children.find? k = if k ∈ plan.map RestartPlanItem.ref
          then (w.children.find? k).map (asked false) else w.children.find? k) ∧
        ∀ r ∈ plan.map RestartPlanItem.ref, ¬ Gone w r)
      (fun _ => ∃ r ∈ plan.map RestartPlanItem.ref, Gone w r) := by
  refine Post.mono (post_forM (fun done rest w' => (done ++ rest = plan) ∧ Marked w w' ∧
      w'.restartGroup = some { g with pendingStops := g.pendingStops ++
        (done.map RestartPlanItem.ref).filter fun r => w.children.contains r } ∧
      (∀ k, w'.children.find? k = if k ∈ done.map RestartPlanItem.ref
        then (w.children.find? k).map (asked false) else w.children.find? k) ∧
      ∀ r ∈ done.map RestartPlanItem.ref, ¬ Gone w r) ?_ plan w
      ⟨rfl, Marked.refl w, by simp [hgroup], by simp, by simp⟩)
    (fun _ w' h => h.2) fun _ => id
  rintro done x rest w' ⟨hsplit, hmark, hg, hfind, hgone⟩
  have hx : x.ref ∈ plan.map RestartPlanItem.ref :=
    List.mem_map_of_mem (by rw [← hsplit]; simp)
  have hxdone : x.ref ∉ done.map RestartPlanItem.ref := by
    intro hmem
    rw [← hsplit, List.map_append, List.map_cons] at hnodup
    exact (List.nodup_append.mp hnodup).2.2 x.ref hmem x.ref (by simp) rfl
  have hsame : w'.children.find? x.ref = w.children.find? x.ref := by
    rw [hfind, if_neg hxdone]
  rw [post_bind, post_get]
  cases hc : w.children.find? x.ref with
  | none =>
      -- the child is not registered in `children_`: the failed child itself
      have hcw : w.children.contains x.ref = false := by simp [OrdMap.contains, hc]
      have hcw' : w'.children.contains x.ref = false := by simp [OrdMap.contains, hsame, hc]
      simp only [hcw', Bool.false_eq_true, if_false, post_pure]
      refine ⟨by simpa using hsplit, hmark, by simp [hg, hcw], fun k => ?_, ?_⟩
      · by_cases hk : k = x.ref
        · subst hk
          simp [hsame, hc]
        · simp only [hfind k, List.map_append, List.mem_append, List.map_cons, List.map_nil,
            List.mem_singleton, hk, or_false]
      · intro r hr
        rw [List.map_append, List.mem_append] at hr
        rcases hr with hr | hr
        · exact hgone r hr
        · rw [List.map_cons, List.map_nil, List.mem_singleton] at hr
          rintro ⟨e, he, -⟩
          rw [hr, hc] at he
          cases he
  | some e =>
      have hcw : w.children.contains x.ref = true := by simp [OrdMap.contains, hc]
      have hcw' : w'.children.contains x.ref = true := by simp [OrdMap.contains, hsame, hc]
      have hne : x.ref ≠ w.self := by
        intro heq
        rw [heq, hself] at hcw
        cases hcw
      simp only [hcw', if_true, post_bind, pushPendingStop, post_modify]
      rw [← post_bind]
      have hiff : Gone w' x.ref ↔ Gone w x.ref := by
        simp only [Gone, hsame, hmark.registered]
      refine (suppressAndStop_post (e := e) false (by simpa [hmark.self] using hne)
        (by simpa [hsame] using hc)).mono ?_ fun _ hg' => ⟨x.ref, hx, hiff.mp hg'⟩
      rintro _ w'' ⟨hmark', hgroup', hothers, hask, hnot⟩
      refine ⟨by simpa using hsplit, ?_, by simp [hgroup', hg, hcw], fun k => ?_, ?_⟩
      · exact hmark.trans { hmark' with }
      · by_cases hk : k = x.ref
        · subst hk
          simp [hask, hc]
        · simp only [hothers k hk, hfind k, List.map_append, List.mem_append, List.map_cons,
            List.map_nil, List.mem_singleton, hk, or_false]
      · intro r hr
        rw [List.map_append, List.mem_append] at hr
        rcases hr with hr | hr
        · exact hgone r hr
        · rw [List.map_cons, List.map_nil, List.mem_singleton] at hr
          exact fun hg' => hnot (hiff.mpr (hr ▸ hg'))

/-! ### The plan of a group restart -/

/-- The members of the plan are the failed child and children that are still registered. -/
lemma mem_restartPlan {w : World Args} {ref : ActorRef} {e : ChildEntry Args}
    {reason : ExitReason} {item : RestartPlanItem Args}
    (h : item ∈ restartPlan w ref e reason) :
    (item.ref = ref ∧ item.entry = e) ∨ w.children.find? item.ref = some item.entry := by
  rcases List.mem_cons.mp h with rfl | h
  · exact Or.inl ⟨rfl, rfl⟩
  · obtain ⟨child, hchild, rfl⟩ := List.mem_map.mp (List.mem_filter.mp h).1
    exact Or.inr (OrdMap.mem_entries_iff.mp hchild)

lemma nodup_restartPlan_ref {w : World Args} {ref : ActorRef} (e : ChildEntry Args)
    (reason : ExitReason) (href : w.children.find? ref = none) :
    ((restartPlan w ref e reason).map RestartPlanItem.ref).Nodup := by
  rw [restartPlan, List.map_cons, List.nodup_cons]
  constructor
  · intro hmem
    obtain ⟨item, hitem, hr⟩ := List.mem_map.mp hmem
    obtain ⟨child, hchild, rfl⟩ := List.mem_map.mp (List.mem_filter.mp hitem).1
    have hr' : child.1 = ref := hr
    rw [← hr', OrdMap.mem_entries_iff.mp hchild] at href
    cases href
  · refine List.Nodup.sublist (List.Sublist.map _ (List.filter_sublist (l := _))) ?_
    rw [List.map_map]
    exact w.children.nodup_keys

/-- Except under `rest_for_one`, every child is in the plan. -/
lemma mem_restartPlan_of_child {w : World Args} {ref k : ActorRef} {e : ChildEntry Args}
    {reason : ExitReason} (hstrat : w.specification.strategy ≠ .restForOne)
    (hk : w.children.contains k = true) :
    k ∈ (restartPlan w ref e reason).map RestartPlanItem.ref := by
  obtain ⟨e', he'⟩ := OrdMap.contains_iff.mp hk
  refine List.mem_map.mpr ⟨{ ref := k, entry := e', reason := .stopped },
    List.mem_cons_of_mem _ (List.mem_filter.mpr ⟨?_, by simp [hstrat]⟩), rfl⟩
  exact List.mem_map.mpr ⟨(k, e'), OrdMap.mem_entries_iff.mpr he', rfl⟩

/-! ### Stopping the supervisor -/

/-- The world after the supervisor has stopped: no group is active, every child has been
asked to stop and will not be restarted, and the supervisor's own exit signal is waiting. -/
structure Halted (reason : ExitReason) (w w' : World Args) : Prop where
  core : ∀ k, (w'.children.find? k).map ChildEntry.core = (w.children.find? k).map ChildEntry.core
  registered : ∀ k, w'.registered k = w.registered k
  mailbox : w'.mailbox = w.mailbox ++ if w.registered w.self then [.exit w.self reason] else []
  monitors : w'.sched.monitors = w.sched.monitors
  nextActorId : w'.sched.nextActorId = w.sched.nextActorId
  self : w'.self = w.self
  specification : w'.specification = w.specification
  phase : w'.phase = w.phase
  stopping : w'.stopping = true
  group : w.stopping = false → w'.restartGroup = none
  suppress : w.stopping = false →
    ∀ k e, w'.children.find? k = some e → e.suppressRestart = true
  unchanged : w.stopping = true →
    w'.children = w.children ∧ w'.restartGroup = w.restartGroup

lemma mailbox_send_self (w : World Args) (sg : Signal) :
    ({ w with sched := w.sched.send w.self sg } : World Args).mailbox =
      w.mailbox ++ if w.registered w.self then [sg] else [] := by
  simp only [World.mailbox, World.registered, SchedulerBase.send]
  by_cases hc : w.sched.actors.contains w.self = true
  · obtain ⟨l, hl⟩ := OrdMap.contains_iff.mp hc
    simp [hc, OrdMap.find?_modify, hl]
  · simp [hc]

/-- `Supervisor::stop` raises exactly when it is the first one and a child is gone. -/
lemma stop_post {w : World Args} (reason : ExitReason)
    (hself : w.children.contains w.self = false) :
    Post (stop reason : SupM Args Unit) w
      (fun _ w' => Halted reason w w' ∧ (w.stopping = false → ∀ k, ¬ Gone w k))
      (fun _ => w.stopping = false ∧ ∃ k, Gone w k) := by
  rw [stop, post_bind, post_get]
  by_cases hst : w.stopping = true
  · simp only [hst, if_true, baseStop, post_modify]
    refine ⟨⟨fun k => rfl, fun k => SchedulerBase.contains_send _ _ _ _,
      mailbox_send_self w _, SchedulerBase.monitors_send _ _ _,
      SchedulerBase.nextActorId_send _ _ _, rfl, rfl, rfl, rfl, ?_, ?_, fun _ => ⟨rfl, rfl⟩⟩,
      ?_⟩ <;> simp [hst]
  · have hst' : w.stopping = false := by simpa using hst
    simp only [hst', Bool.false_eq_true, if_false, stopAllChildren_eq, post_bind, post_set,
      post_get]
    have hrefs : ∀ r ∈ w.children.keys, r ≠ w.self ∧ (w.children.find? r).isSome := by
      intro r hr
      obtain ⟨e, he⟩ := OrdMap.mem_keys_iff.mp hr
      refine ⟨fun heq => ?_, by simp [he]⟩
      rw [← heq, OrdMap.contains, he] at hself
      cases hself
    -- the flag `stopping_` plays no part in the sweep
    refine (sweep_post (w := { w with stopping := true }) true w.children.keys
      w.children.nodup_keys hrefs).mono ?_ ?_
    · rintro _ w' ⟨hmark, hgroup, hfind, hgone⟩
      simp only [post_modify, baseStop]
      have hkeys : ∀ k, k ∉ w.children.keys → w.children.find? k = none := by
        intro k hk
        cases hf : w.children.find? k with
        | none => rfl
        | some e => exact absurd (OrdMap.mem_keys_iff.mpr ⟨e, hf⟩) hk
      refine ⟨⟨hmark.core, fun k => ?_, ?_, ?_, ?_, hmark.self, hmark.specification,
        hmark.phase, hmark.stopping, fun _ => rfl, fun _ k e he => ?_, by simp [hst']⟩,
        fun _ k hk => ?_⟩
      · exact (SchedulerBase.contains_send _ _ _ _).trans (hmark.registered k)
      · have hm := mailbox_send_self w' (.exit w'.self reason)
        have hreg : w'.registered w'.self = w.registered w.self := by
          rw [hmark.registered, hmark.self]; rfl
        rw [hreg, hmark.mailbox, hmark.self] at hm
        simpa [World.mailbox, hmark.self] using hm
      · exact (SchedulerBase.monitors_send _ _ _).trans hmark.monitors
      · exact (SchedulerBase.nextActorId_send _ _ _).trans hmark.nextActorId
      · rw [show (_ : World Args).children = w'.children from rfl, hfind] at he
        split at he
        · obtain ⟨e', -, rfl⟩ := Option.map_eq_some_iff.mp he
          rfl
        · rename_i hk
          rw [show (_ : World Args).children = w.children from rfl, hkeys k hk] at he
          cases he
      · obtain ⟨e, he, -⟩ := id hk
        exact hgone k (OrdMap.mem_keys_iff.mpr ⟨e, he⟩) hk
    · rintro _ ⟨r, -, hr⟩
      exact ⟨trivial, r, hr⟩

/-! ### Starting children -/

/-- The world after a child has been started. -/
def started (w : World Args) (index : ℕ) (args : Args) : World Args :=
  { w with
    sched := { (w.sched.spawnImpl 0 0).2 with
      monitors := pushBack w.sched.monitors w.sched.nextActorId w.self }
    spawned := w.spawned ++ [(w.sched.nextActorId, index)]
    children := w.children.insert w.sched.nextActorId
      { specIndex := index, startOrder := w.nextStartOrder, args := args }
    nextStartOrder := w.nextStartOrder + 1 }

/-- Starting a child does not fail while the supervisor is registered. -/
lemma startFresh_run {w : World Args} (hreg : w.registered w.self = true) (index : ℕ)
    (args : Args) :
    (startFresh index args : SupM Args ActorRef).run w =
      .ok w.sched.nextActorId (started w index args) := by
  have hmon : (w.sched.spawnImpl 0 0).2.monitor w.self w.sched.nextActorId =
      some { (w.sched.spawnImpl 0 0).2 with
        monitors := pushBack w.sched.monitors w.sched.nextActorId w.self } := by
    have h1 : (w.sched.spawnImpl 0 0).2.actors.contains w.self = true := by
      rw [World.registered] at hreg
      simp [SchedulerBase.spawnImpl, OrdMap.contains_insert, hreg]
    have h2 : (w.sched.spawnImpl 0 0).2.actors.contains w.sched.nextActorId = true := by
      simp [SchedulerBase.spawnImpl, OrdMap.contains_insert]
    rw [SchedulerBase.monitor, h1, h2]
    rfl
  simp only [startFresh, spawnChildWithArgs, EStateM.run_bind, EStateM.run_get,
    EStateM.run_set]
  have href : (w.sched.spawnImpl 0 0).1 = w.sched.nextActorId := rfl
  rw [href, hmon]
  simp only [EStateM.run_bind, EStateM.run_modify, EStateM.run_pure, registerChild]
  rfl

/-- The world after `start_child_with_args`: unless children are dynamic, a spec that has a
child is left alone. -/
def startedChild (w : World Args) (index : ℕ) (args : Args) : World Args :=
  if w.specification.strategy = .simpleOneForOne then started w index args
  else
    match findRunningChildForSpec w index with
    | some _ => w
    | none => started w index args

lemma startChildWithArgs_run {w : World Args} (hreg : w.registered w.self = true)
    (index : ℕ) (args : Args) :
    ∃ ref, (startChildWithArgs index args : SupM Args ActorRef).run w =
      .ok ref (startedChild w index args) := by
  by_cases hs : w.specification.strategy = .simpleOneForOne
  · exact ⟨w.sched.nextActorId,
      by simp [startChildWithArgs, startedChild, hs, startFresh_run hreg]⟩
  · cases hf : findRunningChildForSpec w index with
    | none =>
        exact ⟨w.sched.nextActorId,
          by simp [startChildWithArgs, startedChild, hs, hf, startFresh_run hreg]⟩
    | some ref => exact ⟨ref, by simp [startChildWithArgs, startedChild, hs, hf]⟩

/-- The world after `respawn_with_entry`. -/
def respawned (w : World Args) (entry : ChildEntry Args) : World Args :=
  if entry.specIndex < w.specification.children.length then
    startedChild w entry.specIndex entry.args
  else w

lemma respawnWithEntry_run {w : World Args} (hreg : w.registered w.self = true)
    (entry : ChildEntry Args) :
    (respawnWithEntry entry : SupM Args Unit).run w = .ok () (respawned w entry) := by
  obtain ⟨ref, hrun⟩ := startChildWithArgs_run hreg entry.specIndex entry.args
  by_cases hlt : entry.specIndex < w.specification.children.length
  · simp only [respawnWithEntry, respawned, EStateM.run_bind, EStateM.run_get, hlt, if_true,
      hrun, EStateM.run_pure]
  · simp [respawnWithEntry, respawned, hlt]

/-- The arguments `start_child_by_index` starts a child with. -/
def chosenArgs (w : World Args) (spec : ChildSpec Args) (args : Option Args) : Args :=
  args.getD (if w.specification.strategy = .simpleOneForOne then spec.defaultArgs else spec.args)

lemma startChildByIndex_run {w : World Args} (hreg : w.registered w.self = true) {index : ℕ}
    {spec : ChildSpec Args} (hspec : w.specification.children[index]? = some spec)
    (args : Option Args) :
    (startChildByIndex index args : SupM Args Unit).run w =
      .ok () (startedChild w index (chosenArgs w spec args)) := by
  obtain ⟨ref, hrun⟩ := startChildWithArgs_run hreg index (chosenArgs w spec args)
  rw [chosenArgs] at hrun ⊢
  simp only [startChildByIndex, EStateM.run_bind, EStateM.run_get, hspec, hrun, EStateM.run_pure]

@[simp] lemma started_self (w : World Args) (index : ℕ) (args : Args) :
    (started w index args).self = w.self := rfl

@[simp] lemma started_specification (w : World Args) (index : ℕ) (args : Args) :
    (started w index args).specification = w.specification := rfl

lemma started_registered (w : World Args) (index : ℕ) (args : Args) (k : ActorRef) :
    (started w index args).registered k =
      (decide (k = w.sched.nextActorId) || w.registered k) :=
  OrdMap.contains_insert _ _ _ _

lemma find?_started (w : World Args) (index : ℕ) (args : Args) (k : ActorRef) :
    (started w index args).children.find? k = if k = w.sched.nextActorId then
      some { specIndex := index, startOrder := w.nextStartOrder, args := args }
    else w.children.find? k := OrdMap.find?_insert _ _ _ _

lemma contains_started (w : World Args) (index : ℕ) (args : Args) (k : ActorRef) :
    (started w index args).children.contains k =
      (decide (k = w.sched.nextActorId) || w.children.contains k) :=
  OrdMap.contains_insert _ _ _ _

lemma monitorsOf_started (w : World Args) (index : ℕ) (args : Args) (k : ActorRef) :
    (started w index args).sched.monitorsOf k =
      w.sched.monitorsOf k ++ if k = w.sched.nextActorId then [w.self] else [] :=
  SchedulerBase.find?_pushBack _ _ _ _

lemma wellFormed_started {w : World Args} (h : w.sched.WellFormed) (index : ℕ) (args : Args) :
    (started w index args).sched.WellFormed :=
  ⟨(h.spawnImpl 0 0).pos, (h.spawnImpl 0 0).lt⟩

/-- A property of worlds that starting a child keeps is kept by a respawn. -/
lemma respawned_induction {P : World Args → Prop} {w : World Args} (entry : ChildEntry Args)
    (hw : P w)
    (hstart : w.specification.strategy = .simpleOneForOne ∨
        findRunningChildForSpec w entry.specIndex = none →
      entry.specIndex < w.specification.children.length →
      P (started w entry.specIndex entry.args)) : P (respawned w entry) := by
  rw [respawned]
  split
  · rename_i hlt
    rw [startedChild]
    split
    · rename_i hs
      exact hstart (Or.inl hs) hlt
    · split
      · exact hw
      · rename_i hf
        exact hstart (Or.inr hf) hlt
  · exact hw

lemma respawned_registered_self {w : World Args} (hreg : w.registered w.self = true)
    (entry : ChildEntry Args) :
    (respawned w entry).registered (respawned w entry).self = true :=
  respawned_induction (P := fun w => w.registered w.self = true) entry hreg fun _ _ => by
    rw [started_registered, started_self, hreg, Bool.or_true]

/-- The entries that `finalize_restart_group` respawns, in order. -/
def RestartGroup.toRespawn (spec : Specification Args) (g : RestartGroup Args) :
    List (ChildEntry Args) :=
  (g.plan.filter fun item =>
    shouldRestart (restartAtSpecIndex spec item.entry.specIndex) item.reason).map
    RestartPlanItem.entry

/-- The world after `finalize_restart_group`. -/
def finalized (w : World Args) (g : RestartGroup Args) : World Args :=
  (RestartGroup.toRespawn w.specification g).foldl respawned { w with restartGroup := none }

lemma forM_respawn_run (entries : List (ChildEntry Args)) {w : World Args}
    (hreg : w.registered w.self = true) :
    (entries.forM respawnWithEntry : SupM Args Unit).run w =
      .ok () (entries.foldl respawned w) := by
  induction entries generalizing w with
  | nil => rfl
  | cons e es ih =>
      rw [List.forM_eq_forM, List.forM_cons, EStateM.run_bind, respawnWithEntry_run hreg]
      simpa using ih (respawned_registered_self hreg e)

lemma finalizeRestartGroup_run {w : World Args} {g : RestartGroup Args}
    (hgroup : w.restartGroup = some g) (hreg : w.registered w.self = true) :
    (finalizeRestartGroup : SupM Args Unit).run w = .ok () (finalized w g) := by
  have hloop : (g.plan.forM fun item =>
      if shouldRestart (restartAtSpecIndex w.specification item.entry.specIndex) item.reason
      then respawnWithEntry item.entry else pure () : SupM Args Unit) =
      (RestartGroup.toRespawn w.specification g).forM respawnWithEntry := by
    rw [forM_ite, RestartGroup.toRespawn]
    simp only [List.forM_eq_forM, List.forM_map, Bool.decide_eq_true]
  simp only [finalizeRestartGroup, EStateM.run_bind, EStateM.run_get, hgroup,
    EStateM.run_set, hloop]
  exact forM_respawn_run _ hreg

/-! ### Restart accounting -/

/-- The restart times after `register_restart` has dropped those out of the window and added
the present one. -/
def windowTimes (w : World Args) : List ℤ :=
  (w.restartTimes.filter fun t =>
    !decide (w.specification.intensity.within < w.now - t)) ++ [w.now]

/-- The intensity limit grants one more restart now. -/
def granted (w : World Args) : Bool :=
  decide (w.specification.intensity.maxRestarts ≠ 0) &&
    decide ((windowTimes w).length ≤ w.specification.intensity.maxRestarts)

/-- `register_restart`: a granted restart is recorded, a refused one stops the supervisor. -/
lemma registerRestart_post {w : World Args} (hself : w.children.contains w.self = false) :
    Post (registerRestart : SupM Args Bool) w
      (fun ok w' => (ok = true ∧ granted w = true ∧
          w' = { w with restartTimes := windowTimes w }) ∨
        (ok = false ∧ granted w = false ∧ Halted .error w w' ∧
          (w.stopping = false → ∀ k, ¬ Gone w k)))
      (fun _ => granted w = false ∧ w.stopping = false ∧ ∃ k, Gone w k) := by
  rw [registerRestart, post_bind, post_get]
  by_cases hmax : w.specification.intensity.maxRestarts = 0
  · have hg : granted w = false := by simp [granted, hmax]
    simp only [hmax, if_true]
    refine ((stop_post .error hself).mono (fun _ w' h => ?_) fun _ h => ⟨hg, h⟩).bind
      (P := fun _ w' => Halted .error w w' ∧ (w.stopping = false → ∀ k, ¬ Gone w k))
      fun _ w' h => ?_
    · exact h
    · exact post_pure.mpr (Or.inr ⟨rfl, hg, h.1, h.2⟩)
  · simp only [hmax, if_false, post_bind, post_set]
    by_cases hlen : w.specification.intensity.maxRestarts < (windowTimes w).length
    · have hg : granted w = false := by simp [granted, hlen]
      rw [windowTimes] at hlen
      simp only [hlen, if_true, post_bind]
      refine (stop_post (w := { w with restartTimes := windowTimes w }) .error hself).mono
        (fun _ w' h => ?_) fun _ h => ⟨hg, h⟩
      exact post_pure.mpr (Or.inr ⟨rfl, hg, { h.1 with }, h.2⟩)
    · have hg : granted w = true := by simp [granted, hmax]; omega
      rw [windowTimes] at hlen
      simp only [hlen, if_false]
      exact post_pure.mpr (Or.inl ⟨rfl, hg, rfl⟩)

/-! ### Handling a signal -/

/-- The visitors of `supervise_loop`: the supervisor's own exit signal may end the loop, the
signal of nobody is dropped, and any other signal is a termination. -/
lemma superviseVisitor_cases {w : World Args} {sg : Signal} {Q : Unit → World Args → Prop}
    {E : World Args → Prop}
    (hended : w.stopping = true → sg.source = w.self → Q () { w with phase := .ended })
    (hnobody : sg.source = 0 → Q () w)
    (htermination : sg.source.valid = true →
      Post (handleTermination sg.source sg.reason : SupM Args Unit) w Q E) :
    Post (superviseVisitor sg : SupM Args Unit) w Q E := by
  have hsignal : Post (handleSignal sg.source sg.reason : SupM Args Unit) w Q E := by
    rw [handleSignal]
    split
    · rename_i hvalid
      exact htermination hvalid
    · rename_i hvalid
      exact post_pure.mpr (hnobody (by simpa [ActorRef.valid] using hvalid))
  rw [superviseVisitor, post_bind, post_get]
  cases sg with
  | down source reason => exact hsignal
  | exit source reason =>
      simp only
      split
      · rename_i hown
        rw [Bool.and_eq_true, decide_eq_true_eq] at hown
        exact post_set.mpr (hended hown.1 hown.2)
      · exact hsignal

end Supervisor

end Agner
