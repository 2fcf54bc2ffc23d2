import Agner.Supervisor.System

/-!
When the operations of a supervisor raise.

`children_` lags behind the registry: a child that has exited stays in `children_` until the
supervisor receives its `DownSignal`, and asking it to stop in between raises
`std::out_of_range`.

* `waiting`: the `DownSignal` of an actor is in the supervisor's mailbox.
* `Accounted`: every child is registered and monitored by the supervisor, or gone with its
  `DownSignal` waiting.
* `asks`: the children that a step is going to ask to stop, read off the state before it.
* `Accounted.step`: while an actor exits and reports it in one step and no code of others runs
  inside an operation, a step raises exactly if it asks a child to stop whose `DownSignal` is
  waiting.
-/

namespace Agner

open Raising Runs

namespace Supervisor

variable {Args : Type}

/-- The `DownSignal` of `k` is in the supervisor's mailbox. -/
def waiting (w : World Args) (k : ActorRef) : Bool :=
  w.mailbox.any fun sg =>
    match sg with
    | .down source _ => decide (source = k)
    | .exit .. => false

/-- The joint invariant of the registry, the supervisor's mailbox and `children_`. -/
structure Accounted (w : World Args) : Prop where
  wellFormed : w.sched.WellFormed
  registered_self : w.registered w.self = true
  self_not_child : w.children.contains w.self = false
  child_lt : ∀ k, w.children.contains k = true → k < w.sched.nextActorId
  child_pos : ∀ k, w.children.contains k = true → k ≠ 0
  monitored : ∀ k, w.children.contains k = true → w.registered k = true →
    w.self ∈ w.sched.monitorsOf k
  reported : ∀ k, w.children.contains k = true → w.registered k = false → waiting w k = true
  down : ∀ k, waiting w k = true → w.registered k = false ∧ k < w.sched.nextActorId

lemma waiting_iff {w : World Args} {k : ActorRef} :
    waiting w k = true ↔ ∃ r, Signal.down k r ∈ w.mailbox := by
  rw [waiting, List.any_eq_true]
  constructor
  · rintro ⟨sg, hsg, hk⟩
    cases sg with
    | exit a r => cases hk
    | down a r =>
        obtain rfl : a = k := by simpa using hk
        exact ⟨r, hsg⟩
  · rintro ⟨r, hr⟩
    exact ⟨_, hr, by simp⟩

/-- A child that has not been asked to stop is gone exactly if its `DownSignal` is waiting. -/
lemma Accounted.gone_iff {w : World Args} (h : Accounted w) {k : ActorRef} :
    Gone w k ↔ (∃ e, w.children.find? k = some e ∧ e.stopping = false) ∧ waiting w k = true := by
  constructor
  · rintro ⟨e, he, hst, hreg⟩
    exact ⟨⟨e, he, hst⟩, h.reported k (OrdMap.contains_iff.mpr ⟨e, he⟩) hreg⟩
  · rintro ⟨⟨e, he, hst⟩, hw⟩
    exact ⟨e, he, hst, (h.down k hw).1⟩

/-- The restart of a failed child takes another child along, or is refused and the supervisor
stops all of them. -/
def takesAlong (w : World Args) (failed child : ChildEntry Args) : Bool :=
  if granted w then
    match w.specification.strategy with
    | .oneForOne | .simpleOneForOne => false
    | .oneForAll => true
    | .restForOne => decide (failed.startOrder < child.startOrder)
  else !w.stopping

/-- While no group is active, the termination of `ref` makes the supervisor ask this child to
stop. -/
def asksOnTermination (w : World Args) (ref : ActorRef) (reason : ExitReason)
    (child : ActorRef × ChildEntry Args) : Bool :=
  w.restartGroup.isNone && decide (child.1 ≠ ref) &&
    (w.children.find? ref).any fun failed =>
      (!failed.suppressRestart &&
        shouldRestart (restartAtSpecIndex w.specification failed.specIndex) reason) &&
      takesAlong w failed child.2

/-- The children a step asks to stop, unless they have been asked before. -/
def asks (w : World Args) : Label Args → ActorRef × ChildEntry Args → Bool
  | .stop _, _ => !w.stopping
  | .stopChild index, child => decide (child.2.specIndex = index)
  | .deleteChild index, child => decide (child.2.specIndex = index)
  | .restartChild index, child => decide (child.2.specIndex = index)
  | .receive, child =>
      (w.mailbox.head?).any fun sg =>
        sg.source.valid && asksOnTermination w sg.source sg.reason child
  | _, _ => false

/-- The condition on steps: no child that is about to be asked to stop has its `DownSignal`
waiting. -/
def Clear (s : System Args) (l : Label Args) : Prop :=
  ∀ child ∈ s.world.children.entries, child.2.stopping = false → asks s.world l child = true →
    waiting s.world child.1 = false

instance (s : System Args) (l : Label Args) : Decidable (Clear s l) :=
  inferInstanceAs (Decidable (∀ child ∈ s.world.children.entries, _ → _ → _))

/-- The condition says that no child that is about to be asked is gone. -/
lemma Accounted.clear_iff {s : System Args} (h : Accounted s.world) {l : Label Args} :
    Clear s l ↔ ∀ k e, s.world.children.find? k = some e → asks s.world l (k, e) = true →
      ¬ Gone s.world k := by
  constructor
  · rintro hc k e he hasks hgone
    obtain ⟨⟨e', he', hst⟩, hw⟩ := h.gone_iff.mp hgone
    obtain rfl : e = e' := Option.some.inj (he.symm.trans he')
    rw [hc (k, e) (OrdMap.mem_entries_iff.mpr he) hst hasks] at hw
    cases hw
  · rintro hg ⟨k, e⟩ hmem hst hasks
    have he := OrdMap.mem_entries_iff.mp hmem
    by_contra hw
    rw [Bool.not_eq_false] at hw
    exact hg k e he hasks (h.gone_iff.mpr ⟨⟨e, he, hst⟩, hw⟩)

/-! ### What keeps the invariant -/

/-- Everything that leaves the registry and the `DownSignal`s as they are and adds no child. -/
lemma Accounted.transfer {w w' : World Args} (h : Accounted w) (hself : w'.self = w.self)
    (hreg : ∀ k, w'.registered k = w.registered k)
    (hnext : w'.sched.nextActorId = w.sched.nextActorId)
    (hmon : w'.sched.monitors = w.sched.monitors)
    (hwait : ∀ k, waiting w' k = waiting w k)
    (hsub : ∀ k, w'.children.contains k = true → w.children.contains k = true) :
    Accounted w' := by
  refine ⟨⟨by rw [hnext]; exact h.wellFormed.pos, fun k hk => ?_⟩, ?_, ?_, fun k hk => ?_,
    fun k hk => h.child_pos k (hsub k hk), fun k hk hr => ?_, fun k hk hr => ?_, fun k hk => ?_⟩
  · rw [hnext]
    exact h.wellFormed.lt k ((hreg k).symm.trans hk)
  · rw [hreg, hself]
    exact h.registered_self
  · rw [hself]
    by_contra hc
    rw [Bool.not_eq_false] at hc
    exact absurd h.self_not_child (by rw [hsub _ hc]; simp)
  · rw [hnext]
    exact h.child_lt k (hsub k hk)
  · rw [hself, SchedulerBase.monitorsOf, hmon]
    exact h.monitored k (hsub k hk) (by rwa [← hreg])
  · rw [hwait]
    exact h.reported k (hsub k hk) (by rwa [← hreg])
  · rw [hreg, hnext]
    exact h.down k (by rwa [← hwait])

lemma waiting_congr {w w' : World Args} (h : w'.mailbox = w.mailbox) (k : ActorRef) :
    waiting w' k = waiting w k := by rw [waiting, waiting, h]

lemma contains_of_core {w w' : World Args}
    (h : ∀ k, (w'.children.find? k).map ChildEntry.core = (w.children.find? k).map ChildEntry.core)
    (k : ActorRef) : w'.children.contains k = w.children.contains k := by
  simpa [OrdMap.contains] using congrArg Option.isSome (h k)

lemma Accounted.marked {w w' : World Args} (h : Accounted w) (hm : Marked w w') :
    Accounted w' :=
  h.transfer hm.self hm.registered hm.nextActorId hm.monitors (waiting_congr hm.mailbox)
    fun k hk => (contains_of_core hm.core k).symm.trans hk

lemma Accounted.halted {w w' : World Args} {reason : ExitReason} (h : Accounted w)
    (hh : Halted reason w w') : Accounted w' := by
  refine h.transfer hh.self hh.registered hh.nextActorId hh.monitors (fun k => ?_)
    fun k hk => (contains_of_core hh.core k).symm.trans hk
  rw [waiting, waiting, hh.mailbox, List.any_append]
  split <;> simp

/-- A fresh actor is registered, and is a child only if the supervisor monitors it. -/
lemma Accounted.spawned {w w' : World Args} (h : Accounted w) (hself : w'.self = w.self)
    (hfind : ∀ k, k ≠ w.sched.nextActorId → w'.sched.actors.find? k = w.sched.actors.find? k)
    (hnew : w'.registered w.sched.nextActorId = true)
    (hnext : w'.sched.nextActorId = w.sched.nextActorId + 1)
    (hmon : ∀ k, w.self ∈ w.sched.monitorsOf k → w.self ∈ w'.sched.monitorsOf k)
    (hsub : ∀ k, w'.children.contains k = true → w.children.contains k = true ∨
      (k = w.sched.nextActorId ∧ w.self ∈ w'.sched.monitorsOf k)) : Accounted w' := by
  have hreg : ∀ k, k ≠ w.sched.nextActorId → w'.registered k = w.registered k :=
    fun k hk => congrArg Option.isSome (hfind k hk)
  have hfresh : w.self ≠ w.sched.nextActorId := (h.wellFormed.lt _ h.registered_self).ne
  have hwait : ∀ k, waiting w' k = waiting w k :=
    waiting_congr (by rw [World.mailbox, World.mailbox, hself, hfind _ hfresh])
  have hlt : ∀ {k}, k < w.sched.nextActorId → k < w'.sched.nextActorId :=
    fun hk => hnext ▸ Nat.lt_succ_of_lt hk
  have hnewlt : w.sched.nextActorId < w'.sched.nextActorId := hnext ▸ Nat.lt_succ_self _
  refine ⟨⟨hnext ▸ Nat.succ_pos _, fun k hk => ?_⟩, ?_, ?_, fun k hk => ?_, fun k hk => ?_,
    fun k hk hr => ?_, fun k hk hr => ?_, fun k hk => ?_⟩
  · by_cases hkn : k = w.sched.nextActorId
    · exact hkn ▸ hnewlt
    · exact hlt (h.wellFormed.lt k ((hreg k hkn).symm.trans hk))
  · rw [hself, hreg _ hfresh]
    exact h.registered_self
  · rw [hself]
    by_contra hc
    rw [Bool.not_eq_false] at hc
    rcases hsub _ hc with hc' | ⟨heq, -⟩
    · exact absurd h.self_not_child (by rw [hc']; simp)
    · exact hfresh heq
  · rcases hsub k hk with hk' | ⟨rfl, -⟩
    · exact hlt (h.child_lt k hk')
    · exact hnewlt
  · rcases hsub k hk with hk' | ⟨rfl, -⟩
    · exact h.child_pos k hk'
    · exact h.wellFormed.pos.ne'
  · rw [hself]
    rcases hsub k hk with hk' | ⟨-, hm⟩
    · exact hmon k (h.monitored k hk' (by rwa [← hreg k (h.child_lt k hk').ne]))
    · exact hm
  · rw [hwait]
    rcases hsub k hk with hk' | ⟨rfl, -⟩
    · exact h.reported k hk' (by rwa [← hreg k (h.child_lt k hk').ne])
    · rw [hnew] at hr
      cases hr
  · obtain ⟨hr, hk'⟩ := h.down k ((hwait k).symm.trans hk)
    exact ⟨(hreg k hk'.ne).trans hr, hlt hk'⟩

lemma Accounted.started {w : World Args} (h : Accounted w) (index : ℕ) (args : Args) :
    Accounted (started w index args) := by
  have hmon := monitorsOf_started w index args
  refine h.spawned rfl (fun k hk => (OrdMap.find?_insert _ _ _ _).trans (if_neg hk)) ?_ rfl
    (fun k hk => ?_) fun k hk => ?_
  · rw [started_registered]
    simp
  · rw [hmon]
    exact List.mem_append_left _ hk
  · rw [contains_started, Bool.or_eq_true, decide_eq_true_eq] at hk
    rcases hk with rfl | hk
    · exact Or.inr ⟨rfl, by rw [hmon]; simp⟩
    · exact Or.inl hk

lemma Accounted.startedChild {w : World Args} (h : Accounted w) (index : ℕ) (args : Args) :
    Accounted (startedChild w index args) := by
  rw [Supervisor.startedChild]
  split
  · exact h.started index args
  · split
    · exact h
    · exact h.started index args

lemma Accounted.foldl_respawned {w : World Args} (h : Accounted w)
    (entries : List (ChildEntry Args)) : Accounted (entries.foldl respawned w) := by
  induction entries generalizing w with
  | nil => exact h
  | cons e es ih =>
      exact ih (respawned_induction (P := Accounted) e h fun _ _ => h.started _ _)

/-- The steps of the environment: an exit moves a child from the registry to the mailbox. -/
lemma Accounted.exit {w : World Args} (h : Accounted w) {a : ActorRef} (hne : a ≠ w.self)
    (ha : w.registered a = true) (reason : ExitReason) :
    Accounted ({ w with sched := w.sched.notifyExit a reason } : World Args) := by
  have hreg : ∀ k, ({ w with sched := w.sched.notifyExit a reason } : World Args).registered k =
      (decide (k ≠ a) && w.registered k) := fun k => SchedulerBase.contains_notifyExit _ _ _ _
  have hbox : ({ w with sched := w.sched.notifyExit a reason } : World Args).mailbox =
      w.mailbox ++ ((w.sched.pendingSignals a reason).filter fun p =>
        decide (p.1 = w.self)).map Prod.snd := by
    obtain ⟨l, hl⟩ := OrdMap.contains_iff.mp h.registered_self
    have herase : (w.sched.collectAndErase a).actors.find? w.self = some l :=
      (OrdMap.find?_erase _ _ _).trans (by rw [if_neg hne.symm, hl])
    simp only [World.mailbox, SchedulerBase.notifyExit, SchedulerBase.find?_foldl_send, herase, hl,
      Option.map_some, Option.getD_some]
  have hwait : ∀ k, waiting ({ w with sched := w.sched.notifyExit a reason } : World Args) k =
      true ↔ waiting w k = true ∨ (k = a ∧ w.self ∈ w.sched.monitorsOf a) := by
    intro k
    rw [waiting_iff, waiting_iff, hbox]
    simp only [List.mem_append, exists_or]
    refine or_congr Iff.rfl ?_
    simp only [SchedulerBase.pendingSignals, List.filter_append, List.map_append, List.mem_append,
      List.mem_map, List.mem_filter, decide_eq_true_eq, Prod.exists]
    constructor
    · rintro ⟨r, ⟨_, _, ⟨⟨_, _, heq⟩, _⟩, rfl⟩ | ⟨_, _, ⟨⟨m, hm, heq⟩, rfl⟩, rfl⟩⟩
      · cases heq
      · cases heq
        exact ⟨rfl, hm⟩
    · rintro ⟨rfl, hm⟩
      exact ⟨reason, Or.inr ⟨_, _, ⟨⟨w.self, hm, rfl⟩, rfl⟩, rfl⟩⟩
  refine ⟨h.wellFormed.notifyExit a reason, ?_, h.self_not_child, fun k hk => ?_, h.child_pos,
    fun k hk hr => ?_, fun k hk hr => ?_, fun k hk => ?_⟩
  · rw [hreg, h.registered_self]
    simpa using hne.symm
  · rw [SchedulerBase.nextActorId_notifyExit]
    exact h.child_lt k hk
  · rw [hreg, Bool.and_eq_true, decide_eq_true_eq] at hr
    rw [SchedulerBase.monitorsOf_notifyExit, if_neg hr.1]
    exact h.monitored k hk hr.2
  · rw [hwait]
    by_cases hold : w.registered k = true
    · -- the child that has just exited
      obtain rfl : k = a := by
        by_contra hka
        rw [hreg, hold] at hr
        simp [hka] at hr
      exact Or.inr ⟨rfl, h.monitored k hk hold⟩
    · exact Or.inl (h.reported k hk (by simpa using hold))
  · rw [SchedulerBase.nextActorId_notifyExit, hreg]
    rcases (hwait k).mp hk with hk' | ⟨rfl, hm⟩
    · exact ⟨by rw [(h.down k hk').1, Bool.and_false], (h.down k hk').2⟩
    · exact ⟨by simp, h.wellFormed.lt k ha⟩

lemma Accounted.environment {s t : System Args} {l : Label Args} (h : Accounted s.world)
    (henv : l.environment = true) (hstep : step s l = some t) :
    t.raised = false ∧ Accounted t.world := by
  obtain ⟨w, hw, rfl⟩ := surrounding_of_step hstep henv
  cases hw with
  | exit a reason hne ha => exact ⟨rfl, h.exit hne ha reason⟩
  | spawn linker monitorRef =>
      refine ⟨rfl, h.spawned rfl (fun k hk => (OrdMap.find?_insert _ _ _ _).trans (if_neg hk)) ?_
        rfl (fun k hk => ?_) fun k hk => Or.inl hk⟩
      · exact (SchedulerBase.contains_spawnImpl _ _ _ _).trans (by simp)
      · simp only [SchedulerBase.spawnImpl, SchedulerBase.monitorsOf] at hk ⊢
        split
        · rw [SchedulerBase.find?_pushBack]
          exact List.mem_append_left _ hk
        · exact hk
  | link left right =>
      exact ⟨rfl, h.transfer rfl (fun _ => rfl) rfl rfl (fun _ => rfl) fun _ => id⟩
  | monitor monitorRef targetRef =>
      refine ⟨rfl, { h with wellFormed := ⟨h.wellFormed.pos, h.wellFormed.lt⟩
                            monitored := fun k hk hreg => ?_ }⟩
      simp only [SchedulerBase.monitorsOf]
      rw [SchedulerBase.find?_pushBack]
      exact List.mem_append_left _ (h.monitored k hk hreg)
  | advance time => exact ⟨rfl, { h with }⟩

/-! ### When the operations raise -/

/-- The children of a spec, and all children, as the sweeps visit them. -/
lemma stopAndSuppressByIndex_post {w : World Args} (h : Accounted w) (index : ℕ) :
    Post (stopAndSuppressByIndex index : SupM Args Unit) w
      (fun _ w' => Marked w w' ∧
        ∀ k e, w.children.find? k = some e → e.specIndex = index → ¬ Gone w k)
      (fun _ => ∃ k e, w.children.find? k = some e ∧ e.specIndex = index ∧ Gone w k) := by
  rw [stopAndSuppressByIndex_eq, post_bind, post_get]
  refine (sweep_post true _ (w.children.nodup_keys.sublist
    (List.filter_sublist.map Prod.fst)) fun r hr => ?_).mono ?_ ?_
  · obtain ⟨e, he, -⟩ := mem_refs_of_spec.mp hr
    refine ⟨fun heq => ?_, by simp [he]⟩
    exact absurd h.self_not_child (by rw [← heq, OrdMap.contains, he]; simp)
  · rintro _ w' ⟨hmark, -, -, hgone⟩
    exact ⟨hmark, fun k e he hi => hgone k (mem_refs_of_spec.mpr ⟨e, he, hi⟩)⟩
  · rintro _ ⟨k, hk, hgone⟩
    obtain ⟨e, he, hi⟩ := mem_refs_of_spec.mp hk
    exact ⟨k, e, he, hi, hgone⟩

lemma startedChild_find? (w : World Args) (index : ℕ) (args : Args) {k : ActorRef}
    (hk : k ≠ w.sched.nextActorId) :
    (startedChild w index args).children.find? k = w.children.find? k ∧
      (startedChild w index args).registered k = w.registered k := by
  have hstart : (started w index args).children.find? k = w.children.find? k ∧
      (started w index args).registered k = w.registered k :=
    ⟨(OrdMap.find?_insert _ _ _ _).trans (if_neg hk), by simp [started_registered, hk]⟩
  rw [startedChild]
  split
  · exact hstart
  · split
    · exact ⟨rfl, rfl⟩
    · exact hstart

/-- The loop of `restart_children_by_index` over the children it has selected. -/
lemma restartEntries_post {w : World Args} (h : Accounted w) (index : ℕ) (refs : List ActorRef)
    (hnodup : refs.Nodup) (hrefs : ∀ r ∈ refs, w.children.contains r = true) :
    Post (refs.forM fun ref => (restartChildEntry index ref : SupM Args Unit)) w
      (fun _ w' => Accounted w' ∧ ∀ r ∈ refs, ¬ Gone w r) (fun _ => ∃ r ∈ refs, Gone w r) := by
  refine Post.mono (post_forM (fun done rest w' => done ++ rest = refs ∧ Accounted w' ∧
      (∀ r ∈ rest, w'.children.find? r = w.children.find? r ∧
        w'.registered r = w.registered r) ∧ ∀ r ∈ done, ¬ Gone w r) ?_ refs w
      ⟨rfl, h, fun _ _ => ⟨rfl, rfl⟩, by simp⟩) (fun _ w' hI => ⟨hI.2.1, hI.2.2.2⟩) fun _ => id
  rintro done x rest w' ⟨hsplit, hacc, hsame, hgone⟩
  have hx : x ∈ refs := by rw [← hsplit]; simp
  have hxrest : ∀ r ∈ rest, r ≠ x := by
    intro r hr heq
    rw [← hsplit] at hnodup
    exact (List.nodup_cons.mp (List.nodup_append.mp hnodup).2.1).1 (heq ▸ hr)
  have hlt : ∀ r ∈ x :: rest, r ≠ w'.sched.nextActorId := by
    intro r hr
    have hc : w'.children.contains r = true := by
      rw [OrdMap.contains, (hsame r hr).1]
      exact hrefs r (by rw [← hsplit]; exact List.mem_append_right _ hr)
    exact (hacc.child_lt r hc).ne
  obtain ⟨e, he⟩ := OrdMap.contains_iff.mp (hrefs x hx)
  obtain ⟨hfx, hrx⟩ := hsame x (by simp)
  rw [he] at hfx
  have hiff : Gone w' x ↔ Gone w x := by simp only [Gone, hfx, he, hrx]
  rw [restartChildEntry, post_bind, post_get]
  simp only [hfx]
  by_cases hst : e.stopping = true
  · -- a child that was asked before is started anew if children are dynamic
    simp only [hst, Bool.not_true, Bool.false_eq_true, if_false]
    obtain ⟨ref, hrun⟩ := startChildWithArgs_run hacc.registered_self index e.args
    rw [Post, EStateM.run_bind, hrun]
    refine ⟨by simpa using hsplit, hacc.startedChild index e.args, fun r hr => ?_, fun r hr => ?_⟩
    · obtain ⟨hf, hreg⟩ := startedChild_find? w' index e.args (hlt r (List.mem_cons_of_mem _ hr))
      obtain ⟨hf', hreg'⟩ := hsame r (List.mem_cons_of_mem _ hr)
      exact ⟨hf.trans hf', hreg.trans hreg'⟩
    · rcases List.mem_append.mp hr with hr | hr
      · exact hgone r hr
      · rw [List.mem_singleton.mp hr]
        rintro ⟨e', he', hst', -⟩
        rw [he, Option.some.injEq] at he'
        rw [← he', hst] at hst'
        cases hst'
  · simp only [hst, Bool.not_false, if_true]
    have hne : x ≠ w'.self := by
      intro heq
      exact absurd hacc.self_not_child (by rw [← heq, OrdMap.contains, hfx]; simp)
    refine (suppressAndStop_post false hne hfx).mono ?_ fun _ hg => ⟨x, hx, hiff.mp hg⟩
    rintro _ w'' ⟨hmark, -, hothers, -, hnot⟩
    refine ⟨by simpa using hsplit, hacc.marked hmark, fun r hr => ?_, fun r hr => ?_⟩
    · obtain ⟨hf, hreg⟩ := hsame r (List.mem_cons_of_mem _ hr)
      exact ⟨(hothers r (hxrest r hr)).trans hf, (hmark.registered r).trans hreg⟩
    · rcases List.mem_append.mp hr with hr | hr
      · exact hgone r hr
      · rw [List.mem_singleton.mp hr]
        exact fun hg => hnot (hiff.mpr hg)

/-- Writing `suppress_restart` raises nothing and changes that flag only. -/
lemma setSuppress_post {w : World Args} (b : Bool) (refs : List ActorRef) :
    Post (refs.forM fun ref => (setSuppress ref b : SupM Args Unit)) w
      (fun _ w' => Marked w w' ∧ w'.restartGroup = w.restartGroup ∧
        ∀ k, w'.children.find? k = (w.children.find? k).map fun c =>
          if k ∈ refs then { c with suppressRestart := b } else c) (fun _ => False) := by
  refine post_forM (fun done _ w' => Marked w w' ∧ w'.restartGroup = w.restartGroup ∧
    ∀ k, w'.children.find? k = (w.children.find? k).map fun c =>
      if k ∈ done then { c with suppressRestart := b } else c) ?_ refs w
    ⟨Marked.refl w, rfl, by simp⟩
  rintro done x rest w' ⟨hmark, hgroup, hfind⟩
  rw [setSuppress, post_modify]
  refine ⟨hmark.trans (marked_modify w' x (fun c => { c with suppressRestart := b })
    fun _ => rfl), hgroup, fun k => ?_⟩
  simp only [OrdMap.find?_modify, hfind k, List.mem_append, List.mem_singleton]
  by_cases hk : k = x
  · subst hk
    cases w.children.find? k with
    | none => simp
    | some e => by_cases hdone : k ∈ done <;> simp [hdone]
  · simp [hk]

/-- The flags that `restart_child` resets first play no part in who is gone. -/
lemma gone_congr {w w' : World Args} (hmark : Marked w w')
    (hst : ∀ k, (w'.children.find? k).map ChildEntry.stopping =
      (w.children.find? k).map ChildEntry.stopping) (k : ActorRef) : Gone w' k ↔ Gone w k := by
  have hside : ∀ {u : World Args}, Gone u k ↔
      (u.children.find? k).map ChildEntry.stopping = some false ∧ u.registered k = false := by
    intro u
    simp only [Gone, Option.map_eq_some_iff]
    constructor
    · rintro ⟨e, he, hs, hr⟩
      exact ⟨⟨e, he, hs⟩, hr⟩
    · rintro ⟨⟨e, he, hs⟩, hr⟩
      exact ⟨e, he, hs, hr⟩
  rw [hside, hside, hst, hmark.registered]

lemma restartChild_post {w : World Args} (h : Accounted w) (index : ℕ) :
    Post (restartChild index : SupM Args Unit) w
      (fun _ w' => Accounted w' ∧
        ∀ k e, w.children.find? k = some e → e.specIndex = index → ¬ Gone w k)
      (fun _ => ∃ k e, w.children.find? k = some e ∧ e.specIndex = index ∧ Gone w k) := by
  rw [restartChild, post_bind, post_get]
  simp only [post_bind]
  refine (setSuppress_post false _).mono ?_ fun _ => False.elim
  rintro _ w' ⟨hmark, -, hfind⟩
  have hst : ∀ k, (w'.children.find? k).map ChildEntry.stopping =
      (w.children.find? k).map ChildEntry.stopping := by
    intro k
    rw [hfind k, Option.map_map]
    refine congrArg (fun f => (w.children.find? k).map f) (funext fun c => ?_)
    dsimp only [Function.comp_apply]
    split <;> rfl
  refine (restartEntries_post (h.marked hmark) index _ (w.children.nodup_keys.sublist
    (List.filter_sublist.map Prod.fst)) fun r hr => ?_).mono ?_ ?_
  · obtain ⟨e, he, -⟩ := mem_refs_of_spec.mp hr
    rw [contains_of_core hmark.core]
    exact OrdMap.contains_iff.mpr ⟨e, he⟩
  · rintro _ w'' ⟨hacc, hgone⟩
    refine ⟨hacc, fun k e he hi hg => ?_⟩
    exact hgone k (mem_refs_of_spec.mpr ⟨e, he, hi⟩) ((gone_congr hmark hst k).mpr hg)
  · rintro _ ⟨k, hk, hgone⟩
    obtain ⟨e, he, hi⟩ := mem_refs_of_spec.mp hk
    exact ⟨k, e, he, hi, (gone_congr hmark hst k).mp hgone⟩

/-- The world without the child that has terminated. -/
def dropped (w : World Args) (ref : ActorRef) : World Args :=
  { w with children := w.children.erase ref }

lemma dropped_eq {w : World Args} {ref : ActorRef} (h : w.children.find? ref = none) :
    dropped w ref = w := by
  have herase : w.children.erase ref = w.children := by
    refine OrdMap.ext fun k => ?_
    rw [OrdMap.find?_erase]
    split
    · rename_i hk
      rw [hk, h]
    · rfl
  rw [dropped, herase]

/-- Which children that are left are gone. -/
lemma gone_dropped {w : World Args} {ref k : ActorRef} :
    Gone (dropped w ref) k ↔ k ≠ ref ∧ Gone w k := by
  constructor
  · rintro ⟨e, he, hst, hreg⟩
    exact ⟨(find?_erase_some he).1, e, (find?_erase_some he).2, hst, hreg⟩
  · rintro ⟨hk, e, he, hst, hreg⟩
    refine ⟨e, ?_, hst, hreg⟩
    rw [dropped, OrdMap.find?_erase, if_neg hk, he]

lemma finalizeIfDone_accounted {w : World Args} (h : Accounted w) :
    Post (finalizeIfDone : SupM Args Unit) w (fun _ w' => Accounted w') (fun _ => False) := by
  rw [finalizeIfDone, post_bind, post_get]
  split
  · exact post_pure.mpr h
  · rename_i g hgroup
    split
    · rw [Post, finalizeRestartGroup_run hgroup h.registered_self]
      exact Accounted.foldl_respawned (w := { w with restartGroup := none }) { h with } _
    · exact post_pure.mpr h

/-- The children in the plan of a group restart, the failed one apart. -/
lemma mem_restartPlan_ref {w : World Args} {ref k : ActorRef} {failed e : ChildEntry Args}
    {reason : ExitReason} (hk : k ≠ ref) (he : w.children.find? k = some e) :
    k ∈ (restartPlan w ref failed reason).map RestartPlanItem.ref ↔
      (w.specification.strategy = .restForOne → failed.startOrder < e.startOrder) := by
  have hside : (!(decide (w.specification.strategy = .restForOne) &&
      decide (e.startOrder ≤ failed.startOrder))) = true ↔
      (w.specification.strategy = .restForOne → failed.startOrder < e.startOrder) := by
    simp [imp_iff_not_or]
  rw [← hside, restartPlan, List.map_cons, List.mem_cons, or_iff_right hk, List.mem_map]
  constructor
  · rintro ⟨item, hitem, rfl⟩
    obtain ⟨hmem, hkeep⟩ := List.mem_filter.mp hitem
    obtain ⟨child, hchild, rfl⟩ := List.mem_map.mp hmem
    obtain rfl : child.2 = e := Option.some.inj ((OrdMap.mem_entries_iff.mp hchild).symm.trans he)
    exact hkeep
  · intro hkeep
    exact ⟨_, List.mem_filter.mpr ⟨List.mem_map.mpr ⟨(k, e), OrdMap.mem_entries_iff.mpr he, rfl⟩,
      hkeep⟩, rfl⟩

/-- A group restart begins by asking the members of the plan to stop. -/
lemma beginRestartGroup_accounted {w : World Args} {ref : ActorRef} (failed : ChildEntry Args)
    (reason : ExitReason) (h : Accounted w) (href : w.children.find? ref = none) :
    Post (beginRestartGroup ref failed reason : SupM Args Unit) w
      (fun _ w' => Accounted w' ∧ ∀ k e, w.children.find? k = some e →
        (w.specification.strategy = .restForOne → failed.startOrder < e.startOrder) → ¬ Gone w k)
      (fun _ => ∃ k e, w.children.find? k = some e ∧
        (w.specification.strategy = .restForOne → failed.startOrder < e.startOrder) ∧
        Gone w k) := by
  rw [beginRestartGroup, post_bind, post_get]
  simp only [post_bind, post_set]
  have hne : ∀ {k e}, w.children.find? k = some e → k ≠ ref := by
    rintro k e he rfl
    rw [href] at he
    cases he
  refine (stopPlan_post (w := { w with restartGroup := some { strategy := _, plan := _ } }) _
    rfl (nodup_restartPlan_ref failed reason href) h.self_not_child).mono ?_ ?_
  · rintro _ w' ⟨hmark, -, -, hgone⟩
    have hacc : Accounted w' := by
      refine Accounted.marked ?_ hmark
      exact { h with }
    refine (finalizeIfDone_accounted hacc).mono (fun _ w'' hacc' => ⟨hacc', ?_⟩)
      fun _ => False.elim
    intro k e he hcond hg
    exact hgone k ((mem_restartPlan_ref (hne he) he).mpr hcond) hg
  · rintro _ ⟨k, hk, hg⟩
    obtain ⟨e, he, -⟩ := id hg
    exact ⟨k, e, he, (mem_restartPlan_ref (hne he) he).mp hk, hg⟩

/-- A restart that is due raises exactly if it asks a child that is gone. -/
lemma restart_accounted {w : World Args} {ref : ActorRef} (failed : ChildEntry Args)
    (reason : ExitReason) (h : Accounted w) (href : w.children.find? ref = none) :
    Post (do
        if ← registerRestart then
          match w.specification.strategy with
          | .oneForOne | .simpleOneForOne => respawnWithEntry failed
          | .oneForAll | .restForOne => beginRestartGroup ref failed reason
        else pure () : SupM Args Unit) w
      (fun _ w' => Accounted w' ∧ ∀ k e, w.children.find? k = some e →
        takesAlong w failed e = true → ¬ Gone w k)
      (fun _ => ∃ k e, w.children.find? k = some e ∧ takesAlong w failed e = true ∧
        Gone w k) := by
  rw [post_bind]
  refine (registerRestart_post h.self_not_child).mono ?_ ?_
  · rintro ok w' (⟨rfl, hgr, rfl⟩ | ⟨rfl, hgr, hh, hgone⟩)
    · have hrec : Accounted ({ w with restartTimes := windowTimes w } : World Args) :=
        { h with }
      have hsingle (hnone : ∀ e, takesAlong w failed e = false) :
          Post (respawnWithEntry failed : SupM Args Unit)
          { w with restartTimes := windowTimes w }
          (fun _ w' => Accounted w' ∧ ∀ k e, w.children.find? k = some e →
            takesAlong w failed e = true → ¬ Gone w k)
          (fun _ => ∃ k e, w.children.find? k = some e ∧ takesAlong w failed e = true ∧
            Gone w k) := by
        rw [Post, respawnWithEntry_run hrec.registered_self]
        refine ⟨hrec.foldl_respawned [failed], fun k e _ ht => ?_⟩
        rw [hnone e] at ht
        cases ht
      have hgroup (hiff : ∀ e, takesAlong w failed e = true ↔
            (w.specification.strategy = .restForOne → failed.startOrder < e.startOrder)) :
          Post (beginRestartGroup ref failed reason : SupM Args Unit)
          { w with restartTimes := windowTimes w }
          (fun _ w' => Accounted w' ∧ ∀ k e, w.children.find? k = some e →
            takesAlong w failed e = true → ¬ Gone w k)
          (fun _ => ∃ k e, w.children.find? k = some e ∧ takesAlong w failed e = true ∧
            Gone w k) := by
        simp only [hiff]
        exact beginRestartGroup_accounted failed reason hrec href
      simp only [if_true]
      cases hstrat : w.specification.strategy with
      | oneForOne => exact hsingle fun e => by simp [takesAlong, hgr, hstrat]
      | simpleOneForOne => exact hsingle fun e => by simp [takesAlong, hgr, hstrat]
      | oneForAll => exact hgroup fun e => by simp [takesAlong, hgr, hstrat]
      | restForOne => exact hgroup fun e => by simp [takesAlong, hgr, hstrat]
    · refine post_pure.mpr ⟨h.halted hh, fun k e _ ht => ?_⟩
      rw [takesAlong, hgr] at ht
      exact hgone (by simpa using ht) k
  · rintro _ ⟨hgr, hst, k, hg⟩
    obtain ⟨e, he, -⟩ := id hg
    exact ⟨k, e, he, by simp [takesAlong, hgr, hst], hg⟩

/-- A termination raises exactly if it asks a child that is gone. -/
lemma handleTermination_accounted {w : World Args} {ref : ActorRef} (reason : ExitReason)
    (h : Accounted (dropped w ref)) :
    Post (handleTermination ref reason : SupM Args Unit) w
      (fun _ w' => Accounted w' ∧ ∀ k e, w.children.find? k = some e →
        asksOnTermination w ref reason (k, e) = true → ¬ Gone w k)
      (fun _ => ∃ k e, w.children.find? k = some e ∧
        asksOnTermination w ref reason (k, e) = true ∧ Gone w k) := by
  rw [handleTermination, post_bind, post_get]
  by_cases hg : w.restartGroup.isSome = true
  · have hnone : w.restartGroup.isNone = false := by
      rw [Option.isNone_eq_false_iff]
      exact hg
    simp only [hg, if_true, handleRestartGroupStop, post_bind, post_modify]
    refine (finalizeIfDone_accounted ?_).mono (fun _ w' hacc => ⟨hacc, ?_⟩) fun _ => False.elim
    · exact { h with }
    · intro k e _ hasks
      simp [asksOnTermination, hnone] at hasks
  · have hnone : w.restartGroup.isNone = true := by simpa using hg
    simp only [hg, Bool.false_eq_true, if_false]
    cases he : w.children.find? ref with
    | none =>
        refine post_pure.mpr ⟨dropped_eq he ▸ h, fun k e _ hasks => ?_⟩
        simp [asksOnTermination, he] at hasks
    | some failed =>
        have hasks : ∀ k e, asksOnTermination w ref reason (k, e) =
            (decide (k ≠ ref) && ((!failed.suppressRestart &&
              shouldRestart (restartAtSpecIndex w.specification failed.specIndex) reason) &&
              takesAlong w failed e)) := by
          intro k e
          simp [asksOnTermination, hnone, he]
        simp only [hasks]
        rw [post_bind, post_set]
        by_cases hwill : (!failed.suppressRestart &&
          shouldRestart (restartAtSpecIndex w.specification failed.specIndex) reason) = true
        · rw [if_pos hwill]
          simp only [hwill, Bool.true_and, Bool.and_eq_true, decide_eq_true_eq]
          have hfind : (dropped w ref).children.find? ref = none := OrdMap.find?_erase_self _ _
          refine (restart_accounted failed reason h hfind).mono ?_ ?_
          · rintro _ w' ⟨hacc, hgone⟩
            refine ⟨hacc, fun k e hk ha hg' => ?_⟩
            refine hgone k e ?_ ha.2 (gone_dropped.mpr ⟨ha.1, hg'⟩)
            rw [dropped, OrdMap.find?_erase, if_neg ha.1, hk]
          · rintro _ ⟨k, e, hk, ha, hg'⟩
            obtain ⟨hne, hg''⟩ := gone_dropped.mp hg'
            exact ⟨k, e, (find?_erase_some hk).2, ⟨hne, ha⟩, hg''⟩
        · rw [if_neg hwill]
          rw [Bool.not_eq_true] at hwill
          refine post_pure.mpr ⟨h, fun k e _ ha => ?_⟩
          simp [hwill] at ha

/-! ### Whole runs -/

/-- Taking a signal out of the mailbox, together with the child it names. -/
lemma Accounted.popped {w : World Args} {sg : Signal} {rest : List Signal} (h : Accounted w)
    (hbox : w.mailbox = sg :: rest) : Accounted (dropped (popped w) sg.source) := by
  have hrest : (Supervisor.popped w).mailbox = rest := by
    obtain ⟨l, hl⟩ := OrdMap.contains_iff.mp h.registered_self
    rw [World.mailbox, hl, Option.getD_some] at hbox
    simp [World.mailbox, Supervisor.popped, OrdMap.find?_modify, hl, hbox]
  have hwait : ∀ k, waiting w k = true → k ≠ sg.source →
      waiting (dropped (Supervisor.popped w) sg.source) k = true := by
    intro k hk hne
    obtain ⟨r, hr⟩ := waiting_iff.mp hk
    rw [hbox] at hr
    rcases List.mem_cons.mp hr with rfl | hr
    · exact absurd rfl hne
    · exact waiting_iff.mpr ⟨r, hrest ▸ hr⟩
  have hback : ∀ k, waiting (dropped (Supervisor.popped w) sg.source) k = true →
      waiting w k = true := by
    intro k hk
    obtain ⟨r, hr⟩ := waiting_iff.mp hk
    refine waiting_iff.mpr ⟨r, ?_⟩
    rw [hbox]
    exact List.mem_cons_of_mem _ (hrest ▸ hr)
  have hreg : ∀ k, (dropped (Supervisor.popped w) sg.source).registered k = w.registered k :=
    popped_registered w
  have hchild : ∀ k, (dropped (Supervisor.popped w) sg.source).children.contains k = true →
      k ≠ sg.source ∧ w.children.contains k = true := by
    intro k hk
    obtain ⟨e, he⟩ := OrdMap.contains_iff.mp hk
    obtain ⟨hne, he'⟩ := find?_erase_some he
    exact ⟨hne, OrdMap.contains_iff.mpr ⟨e, he'⟩⟩
  refine ⟨⟨h.wellFormed.pos, fun k hk => h.wellFormed.lt k ((hreg k).symm.trans hk)⟩,
    (hreg _).trans h.registered_self, ?_, fun k hk => h.child_lt k (hchild k hk).2,
    fun k hk => h.child_pos k (hchild k hk).2,
    fun k hk hr => h.monitored k (hchild k hk).2 ((hreg k).symm.trans hr),
    fun k hk hr => ?_, fun k hk => ?_⟩
  · by_contra hc
    rw [Bool.not_eq_false] at hc
    have hc' : w.children.contains w.self = true := (hchild _ hc).2
    exact absurd h.self_not_child (by rw [hc']; simp)
  · exact hwait k (h.reported k (hchild k hk).2 ((hreg k).symm.trans hr)) (hchild k hk).1
  · rw [hreg]
    exact h.down k (hback k hk)

/-- One round of `supervise_loop`. -/
lemma superviseVisitor_accounted {w : World Args} {sg : Signal} {rest : List Signal}
    (h : Accounted w) (hbox : w.mailbox = sg :: rest) :
    Post (superviseVisitor sg : SupM Args Unit) (popped w)
      (fun _ w' => Accounted w' ∧ ∀ k e, w.children.find? k = some e →
        asks w .receive (k, e) = true → ¬ Gone w k)
      (fun _ => ∃ k e, w.children.find? k = some e ∧ asks w .receive (k, e) = true ∧
        Gone w k) := by
  have hacc := h.popped hbox
  have hself : (popped w).children.find? w.self = none := by
    have hno : w.children.find? w.self = none := by
      simpa [OrdMap.contains] using h.self_not_child
    exact hno
  have hgone : ∀ k, Gone (popped w) k ↔ Gone w k := by
    intro k
    simp only [Gone, popped_registered]
    rfl
  have hasks : ∀ k e, asks w .receive (k, e) =
      (sg.source.valid && asksOnTermination (popped w) sg.source sg.reason (k, e)) := by
    intro k e
    simp only [asks, hbox, List.head?_cons, Option.any_some]
    rfl
  simp only [hasks, ← hgone]
  refine superviseVisitor_cases (fun _ hown => ?_) (fun hzero => ?_) fun hvalid => ?_
  · have hown' : sg.source = w.self := hown
    rw [hown', dropped_eq hself] at hacc
    refine ⟨{ hacc with }, fun k e _ ha => ?_⟩
    simp [asksOnTermination, hown', hself] at ha
  · have hnone : (popped w).children.find? sg.source = none := by
      cases hf : (popped w).children.find? sg.source with
      | none => rfl
      | some e => exact absurd hzero (h.child_pos _ (OrdMap.contains_iff.mpr ⟨e, hf⟩))
    refine ⟨dropped_eq hnone ▸ hacc, fun k e _ ha => ?_⟩
    simp [ActorRef.valid, hzero] at ha
  · simp only [hvalid, Bool.true_and]
    exact handleTermination_accounted sg.reason hacc

lemma init_accounted {w : World Args} (h : Accounted w) :
    Post (initAndSupervise : SupM Args Unit) w (fun _ w' => Accounted w') (fun _ => False) := by
  rw [initAndSupervise, post_bind, init, post_bind, post_get]
  split
  · exact { h with }
  · refine (post_forM (fun _ _ w' => Accounted w') ?_ _ w h).mono
      (fun _ w' hacc => { hacc with }) fun _ => id
    intro done i rest w' hacc
    cases hspec : w'.specification.children[i]? with
    | none =>
        rw [startChildByIndex, post_bind, post_get]
        simp only [hspec]
        exact post_pure.mpr hacc
    | some spec =>
        rw [Post, startChildByIndex_run hacc.registered_self hspec]
        exact hacc.startedChild _ _

lemma accounted_create {sched : SchedulerBase} (hwf : sched.WellFormed)
    (spec : Specification Args) : Accounted (create sched spec).world := by
  have hbox : (create sched spec).world.mailbox = [] := by simp [create, World.mailbox,
    SchedulerBase.spawnImpl]
  refine ⟨hwf.spawnImpl 0 0, ?_, rfl, ?_, ?_, ?_, ?_, fun k hk => ?_⟩
  · exact (SchedulerBase.contains_spawnImpl _ _ _ _).trans (by simp [create])
  · intro k hk
    cases hk
  · intro k hk
    cases hk
  · intro k hk
    cases hk
  · intro k hk
    cases hk
  · rw [waiting, hbox] at hk
    cases hk

/-- An operation that ends normally keeps the invariant and asked no child that was gone; one
that raises did. -/
lemma Accounted.perform {s : System Args} {l : Label Args} {x : SupM Args Unit}
    {w : World Args} (h : Accounted s.world)
    (hx : Post x w
      (fun _ w' => Accounted w' ∧ ∀ k e, s.world.children.find? k = some e →
        asks s.world l (k, e) = true → ¬ Gone s.world k)
      (fun _ => ∃ k e, s.world.children.find? k = some e ∧ asks s.world l (k, e) = true ∧
        Gone s.world k)) :
    ((perform x w).raised = false ∧ Clear s l ∧ Accounted (perform x w).world) ∨
      ((perform x w).raised = true ∧ ¬ Clear s l) := by
  rw [h.clear_iff]
  rcases perform_eq_of_post hx with ⟨hr, hacc, hgone⟩ | ⟨hr, k, e, he, ha, hg⟩
  · exact Or.inl ⟨hr, hgone, hacc⟩
  · exact Or.inr ⟨hr, fun hc => hc k e he ha hg⟩

/-- An operation that asks nobody to stop. -/
lemma Accounted.perform_quiet {s : System Args} {l : Label Args} {x : SupM Args Unit}
    (h : Accounted s.world) (hl : ∀ child, asks s.world l child = false)
    (hx : Post x s.world (fun _ w' => Accounted w') (fun _ => False)) :
    ((Supervisor.perform x s.world).raised = false ∧ Clear s l ∧
      Accounted (Supervisor.perform x s.world).world) ∨
      ((Supervisor.perform x s.world).raised = true ∧ ¬ Clear s l) := by
  refine h.perform (hx.mono (fun _ w' hacc => ⟨hacc, fun k e _ ha => ?_⟩) fun _ => False.elim)
  rw [hl] at ha
  cases ha

lemma asks_of_environment {w : World Args} {l : Label Args} (henv : l.environment = true)
    (child : ActorRef × ChildEntry Args) : asks w l child = false := by
  cases l <;> first | rfl | cases henv

/-- An administrative operation raises exactly if it asks a child to stop whose `DownSignal` is
waiting, and otherwise keeps the invariant. -/
lemma Accounted.administered {s t : System Args} {l : Label Args} (h : Accounted s.world)
    (hadmin : l.administrative = true) (hstep : step s l = some t) :
    (t.raised = false ∧ Clear s l ∧ Accounted t.world) ∨ (t.raised = true ∧ ¬ Clear s l) := by
  obtain ⟨x, hx, rfl⟩ := administers_of_step hstep hadmin
  cases hx with
  | startChild index args hlt =>
      refine h.perform_quiet (fun _ => rfl) ?_
      rw [startChild, Post,
        startChildByIndex_run h.registered_self (List.getElem?_eq_getElem hlt)]
      exact h.startedChild _ _
  | stopChild index =>
      refine h.perform ?_
      simp only [asks, decide_eq_true_eq]
      exact (stopAndSuppressByIndex_post h index).mono
        (fun _ w' hw' => ⟨h.marked hw'.1, hw'.2⟩) fun _ => id
  | deleteChild index =>
      refine h.perform ?_
      simp only [asks, decide_eq_true_eq]
      rw [deleteChild, post_bind]
      refine (stopAndSuppressByIndex_post h index).mono (fun _ w' hw' => ?_) fun _ => id
      rw [post_modify]
      refine ⟨(h.marked hw'.1).transfer rfl (fun _ => rfl) rfl rfl (fun _ => rfl)
        fun k hk => ?_, hw'.2⟩
      obtain ⟨e, he⟩ := OrdMap.contains_iff.mp hk
      exact OrdMap.contains_iff.mpr ⟨e, OrdMap.find?_of_filter he⟩
  | restartChild index =>
      refine h.perform ?_
      simp only [asks, decide_eq_true_eq]
      exact restartChild_post h index
  | stop reason =>
      refine h.perform ((stop_post reason h.self_not_child).mono (fun _ w' hw' => ?_) ?_)
      · exact ⟨h.halted hw'.1, fun k e _ ha => hw'.2 (by simpa [asks] using ha) k⟩
      · rintro _ ⟨hst, k, hg⟩
        obtain ⟨e, he, -⟩ := id hg
        exact ⟨k, e, he, by simp [asks, hst], hg⟩

/-- The same for every step. -/
lemma Accounted.step {s t : System Args} {l : Label Args} (h : Accounted s.world)
    (hstep : step s l = some t) :
    (t.raised = false ∧ Clear s l ∧ Accounted t.world) ∨ (t.raised = true ∧ ¬ Clear s l) := by
  by_cases henv : l.environment = true
  · obtain ⟨hr, hacc⟩ := h.environment henv hstep
    refine Or.inl ⟨hr, fun child _ _ ha => ?_, hacc⟩
    rw [asks_of_environment henv] at ha
    cases ha
  by_cases hadmin : l.administrative = true
  · exact h.administered hadmin hstep
  cases l with
  | init =>
      obtain ⟨-, rfl⟩ := step_init hstep
      exact h.perform_quiet (fun _ => rfl) (init_accounted h)
  | receive =>
      obtain ⟨-, sg, rest, hbox, rfl⟩ := step_receive hstep
      exact h.perform (superviseVisitor_accounted h hbox)
  | exit | spawn | link | monitor | advance => exact absurd rfl henv
  | startChild | stopChild | restartChild | deleteChild | stop => exact absurd rfl hadmin

/-- The invariant holds in every run, until an operation raises. -/
lemma accounted_of_run {sched : SchedulerBase} (hwf : sched.WellFormed)
    {spec : Specification Args} {labels : List (Label Args)} {s : System Args}
    (hrun : run step (create sched spec) labels = some s) :
    s.raised = false → Accounted s.world := by
  refine invariant_of_step (P := fun s => s.raised = false → Accounted s.world)
    (fun s l t hs ht hr => ?_) (fun _ => accounted_create hwf spec) hrun
  rcases (hs (raised_of_step ht)).step ht with ⟨-, -, hacc⟩ | ⟨hr', -⟩
  · exact hacc
  · rw [hr'] at hr
    cases hr

/-- Two permanent children under `one_for_all`. -/
def twoPermanent : Specification Unit where
  strategy := .oneForAll
  intensity := { maxRestarts := 3, within := 10 }
  children := List.replicate 2 { args := (), defaultArgs := () }

end Supervisor

end Agner
