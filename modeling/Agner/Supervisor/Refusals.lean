import Agner.Supervisor.Departures

/-!
A restart that is refused.

`register_restart` then calls `stop` from inside the visitor that is handling the termination. If
that returns, then the supervisor's own exit signal has been added to the mailbox that
`try_match_mailbox` is searching, and the message is erased through an invalid iterator. If asking
a child raises, then the exception leaves the visitor before that, and with it either `run` or the
call that delivered the signal.

* `Stoppable`: asking the child to stop raises nothing.
* `stop_returns_iff`: when `stop` returns.
* `standing_of_refusal`: what becomes of the supervisor.
-/

namespace Agner

open Raising Runs

namespace Supervisor

variable {Args : Type}

/-! ### When the operations return -/

/-- The code of others returns exactly if it does not end with an exception. -/
lemma Code.returns_iff : ∀ {c : Code Args}, c.foreign = true → ∀ w,
    Returns c.run w ↔ c.returning = true
  | .returns, _, _ => ⟨fun _ => rfl, fun _ => trivial⟩
  | .raises, _, _ => ⟨False.elim, nofun⟩
  | .takes l next, hc, w => Code.returns_iff (c := next) hc (taken w l)
  | .calls _ _, hc, _ => by cases hc

/-- Asking the child to stop raises nothing: it has been asked before, or it is registered and its
`stop` returns. -/
def Stoppable (inner : Site → Code Args) (w : World Args) (child : ActorRef × ChildEntry Args) :
    Prop :=
  child.2.stopping = true ∨ w.registered child.1 = true ∧
    (inner (.stopping child.1)).returning = true ∧ (inner (.stopped child.1)).returning = true

instance (inner : Site → Code Args) (w : World Args) (child : ActorRef × ChildEntry Args) :
    Decidable (Stoppable inner w child) :=
  inferInstanceAs (Decidable (_ ∨ _ ∧ _ ∧ _))

section Returning

variable {inner : Site → Code Args} (hforeign : Foreign inner)
  {unsent : List (ActorRef × Signal)} {w : World Args}

include hforeign

lemma schedulerStop_returns_iff (ref : ActorRef) (reason : ExitReason) :
    Returns (Reacting.schedulerStop inner ref reason) w ↔ w.registered ref = true ∧
      (inner (.stopping ref)).returning = true ∧ (inner (.stopped ref)).returning = true := by
  have hstopped : ∀ v, Returns (do
      modify fun w : World Args => { w with sched := w.sched.send ref (.exit ref reason) }
      (inner (.stopped ref)).run : SupM Args Unit) v ↔ (inner (.stopped ref)).returning = true :=
    fun v => Code.returns_iff (hforeign _) _
  rw [Reacting.schedulerStop, Returns, throws_get]
  split
  · rename_i hreg
    have hreg' : w.registered ref = true := hreg
    refine (returns_bind (post_true _ w) fun _ v _ => hstopped v).trans ?_
    rw [Code.returns_iff (hforeign _), iff_true_intro hreg', true_and]
  · rename_i hreg
    have hreg' : ¬ w.registered ref = true := hreg
    exact ⟨False.elim, fun h => hreg' h.1⟩

lemma suppressAndStop_returns_iff {ref : ActorRef} {e : ChildEntry Args} (b : Bool)
    (he : w.children.find? ref = some e) :
    Returns (do setSuppress ref b; Reacting.requestStop inner ref : SupM Args Unit) w ↔
      Stoppable inner w (ref, e) := by
  have hget : Returns (do setSuppress ref b; Reacting.requestStop inner ref : SupM Args Unit) w ↔
      Returns (Reacting.requestStop inner ref)
        { w with children := w.children.modify ref fun c => { c with suppressRestart := b } } :=
    Iff.rfl
  rw [hget, Reacting.requestStop, Returns, throws_get]
  simp only [OrdMap.find?_modify, if_true, he, Option.map_some]
  split
  · rename_i hst
    exact ⟨fun _ => Or.inl hst, fun _ => throws_pure⟩
  · rename_i hst
    refine (schedulerStop_returns_iff hforeign ref .stopped).trans ?_
    rw [Stoppable, or_iff_right hst]
    rfl

/-- Since the state `v`, only the entry of `ref` has changed, and no actor that was registered then
has been removed or registered again. -/
def Aside (unsent : List (ActorRef × Signal)) (v : World Args) (ref : ActorRef)
    (u : World Args) : Prop :=
  Known unsent u ∧ (∀ k ≠ ref, u.children.find? k = v.children.find? k) ∧
    v.sched.nextActorId ≤ u.sched.nextActorId ∧
    ∀ k < v.sched.nextActorId, u.registered k = v.registered k

omit hforeign in
lemma Aside.adapts {v u u' : World Args} {ref : ActorRef} (h : Aside unsent v ref u)
    (ha : Adapts u u') (hothers : ∀ k ≠ ref, u'.children.find? k = u.children.find? k) :
    Aside unsent v ref u' := by
  obtain ⟨hk, hfind, hnext, hreg⟩ := h
  exact ⟨hk.adapts ha, fun k hk => (hothers k hk).trans (hfind k hk),
    hnext.trans ha.nextActorId,
    fun k hk => (ha.registered k (hk.trans_le hnext)).trans (hreg k hk)⟩

/-- Asking a child leaves the others alone. -/
lemma suppressAndStop_aside (v : World Args) (ref : ActorRef) (b : Bool) :
    Preserves (Aside unsent v ref)
      (do setSuppress ref b; Reacting.requestStop inner ref : SupM Args Unit) := by
  have hmodify : ∀ (u : World Args) (f : ChildEntry Args → ChildEntry Args),
      (∀ e, (f e).core = e.core) → Aside unsent v ref u →
      Aside unsent v ref { u with children := u.children.modify ref f } := fun u f hf h =>
    h.adapts (Adapts.modify u ref f hf) fun k hk => by rw [OrdMap.find?_modify, if_neg hk]
  refine Preserves.bind (Preserves.modify fun u => hmodify u _ fun _ => rfl) fun _ =>
    requestStop_keeps hforeign (fun u l hl h => ?_) (fun u => hmodify u _ fun _ => rfl)
      fun u h => h.adapts (Adapts.send u ref .stopped) fun _ _ => rfl
  exact h.adapts (Adapts.taken u hl) fun k _ => by rw [taken_children u hl]

/-- A sweep returns exactly if none of the children in it raises. -/
lemma sweep_returns_iff (b : Bool) (l : List (ActorRef × ChildEntry Args))
    (hnodup : (l.map Prod.fst).Nodup) (h : Known unsent w)
    (hl : ∀ child ∈ l, w.children.find? child.1 = some child.2) :
    Returns (l.forM fun child =>
      (do setSuppress child.1 b; Reacting.requestStop inner child.1 : SupM Args Unit)) w ↔
      ∀ child ∈ l, Stoppable inner w child := by
  induction l generalizing w with
  | nil => exact ⟨fun _ => nofun, fun _ => throws_pure⟩
  | cons x l ih =>
      rw [List.map_cons, List.nodup_cons] at hnodup
      have haside : Aside unsent w x.1 w := ⟨h, fun _ _ => rfl, le_rfl, fun _ _ => rfl⟩
      rw [List.forM_eq_forM, List.forM_cons, List.forall_mem_cons]
      refine (returns_bind (c := ∀ child ∈ l, Stoppable inner w child)
        ((suppressAndStop_aside hforeign w x.1 b w haside).mono (fun _ _ h => h)
          fun _ _ => trivial) fun _ u hu => ?_).trans (and_congr_left' ?_)
      · obtain ⟨hk, hfind, -, hreg⟩ := hu
        refine (ih hnodup.2 hk fun child hc => ?_).trans (forall₂_congr fun child hc => ?_)
        · rw [hfind _ fun heq => hnodup.1 (List.mem_map.mpr ⟨child, hc, heq⟩)]
          exact hl child (List.mem_cons_of_mem x hc)
        · have hlt := (h.child (OrdMap.contains_iff.mpr
            ⟨_, hl child (List.mem_cons_of_mem x hc)⟩)).1
          rw [Stoppable, Stoppable, hreg _ hlt]
      · exact suppressAndStop_returns_iff hforeign b (hl x List.mem_cons_self)

/-- The first `stop` returns exactly if no child in `children_` raises; a later one always does. -/
lemma stop_returns_iff (reason : ExitReason) (h : Known unsent w) :
    Returns (Reacting.stop inner reason) w ↔
      w.stopping = true ∨ ∀ child ∈ w.children.entries, Stoppable inner w child := by
  rw [Reacting.stop, Returns, throws_get]
  split
  · rename_i hst
    exact ⟨fun _ => Or.inl hst, fun _ => throws_modify⟩
  · rename_i hst
    have hset : Known unsent { w with stopping := true } :=
      h.adapts (Adapts.of_eq rfl rfl rfl rfl rfl)
    rw [or_iff_right hst]
    have hsweep := sweep_returns_iff hforeign true w.children.entries w.children.nodup_keys hset
      fun child hc => OrdMap.mem_entries_iff.mp hc
    rw [throws_set_bind]
    refine (returns_bind_left fun _ _ => ?_).trans hsweep
    exact throws_modify.bind_any fun _ _ => throws_modify

/-- A refused call of `register_restart` returns exactly if its `stop` does. -/
lemma registerRestart_returns_iff (h : Known unsent w) (hrefused : granted w = false) :
    Returns (Reacting.registerRestart inner) w ↔
      w.stopping = true ∨ ∀ child ∈ w.children.entries, Stoppable inner w child := by
  have hstop : ∀ times, Returns (do Reacting.stop inner .error; pure false : SupM Args Bool)
      { w with restartTimes := times } ↔
      w.stopping = true ∨ ∀ child ∈ w.children.entries, Stoppable inner w child := by
    intro times
    have hset : Known unsent { w with restartTimes := times } :=
      h.adapts (Adapts.of_eq rfl rfl rfl rfl rfl)
    have hreturns := stop_returns_iff hforeign .error hset
    exact (returns_bind_left fun _ _ => throws_pure).trans hreturns
  rw [Reacting.registerRestart, Returns, throws_get]
  split
  · exact hstop w.restartTimes
  · rename_i hmax
    have hlen : w.specification.intensity.maxRestarts < (windowTimes w).length := by
      simpa [granted, hmax] using hrefused
    rw [windowTimes] at hlen
    simp only [if_pos hlen]
    exact hstop _

omit hforeign in
/-- Other actors send nothing to the supervisor. -/
lemma taken_mailbox (h : Known unsent w) {l : Label Args} (hl : l.taken = true) :
    (taken w l).mailbox = w.mailbox := by
  rcases taken_cases w hl with heq | hs
  · rw [heq]
  · generalize taken w l = u at hs
    cases hs with
    | exit => cases hl
    | spawn linker monitorRef =>
        exact congrArg (fun o => Option.getD o [])
          ((OrdMap.find?_insert _ _ _ _).trans (if_neg h.self_lt.ne))
    | link | monitor | advance => rfl

/-- No message leaves the mailbox. -/
lemma sweeping_mailbox (n : ℕ) :
    Sweeping inner fun u => Known unsent u ∧ n ≤ u.mailbox.length where
  suppress ref _ := Preserves.modify fun u h =>
    ⟨h.1.adapts (Adapts.modify u ref _ fun _ => rfl), h.2⟩
  requestStop := requestStop_preserves hforeign
    (fun u l hl h => ⟨h.1.adapts (Adapts.taken u hl), (taken_mailbox h.1 hl).symm ▸ h.2⟩)
    (fun u ref h => ⟨h.1.adapts (Adapts.modify u ref _ fun _ => rfl), h.2⟩)
    fun u ref h => ⟨h.1.adapts (Adapts.send u ref .stopped), by
      rw [mailbox_send h.1.registered_self (ref, .exit ref .stopped), List.length_append]
      exact h.2.trans (Nat.le_add_right _ _)⟩
  group _ _ h := ⟨h.1.adapts (Adapts.of_eq rfl rfl rfl rfl rfl), h.2⟩

/-- `stop` adds the supervisor's own exit signal. -/
lemma stop_grows (reason : ExitReason) (h : Known unsent w) :
    Post (Reacting.stop inner reason) w (fun _ u => w.mailbox.length < u.mailbox.length)
      (fun _ => True) := by
  have hbase : ∀ u, Known unsent u → w.mailbox.length ≤ u.mailbox.length →
      Post (baseStop reason : SupM Args Unit) u
        (fun _ u' => w.mailbox.length < u'.mailbox.length) (fun _ => True) := by
    intro u hu hle
    rw [baseStop, post_modify]
    have hsend := mailbox_send hu.registered_self (u.self, .exit u.self reason)
    rw [if_pos rfl] at hsend
    have hbox : w.mailbox.length < ({ u with
        sched := u.sched.send u.self (.exit u.self reason) } : World Args).mailbox.length := by
      rw [hsend, List.length_append]
      exact Nat.lt_succ_of_le hle
    exact hbox
  rw [Reacting.stop, post_bind, post_get]
  split
  · exact hbase w h le_rfl
  · have hset : Known unsent { w with stopping := true } :=
      h.adapts (Adapts.of_eq rfl rfl rfl rfl rfl)
    rw [post_bind, post_set, post_bind]
    refine ((sweeping_mailbox hforeign w.mailbox.length).stopAllChildren _ ⟨hset, le_rfl⟩).mono
      (fun _ u hu => ?_) fun _ _ => trivial
    rw [post_bind, post_modify]
    exact hbase _ (hu.1.adapts (Adapts.of_eq rfl rfl rfl rfl rfl)) hu.2

/-- A refused call that returns has done so. -/
lemma registerRestart_grows (h : Known unsent w) (hrefused : granted w = false) :
    Post (Reacting.registerRestart inner) w
      (fun ok u => ok = false ∧ w.mailbox.length < u.mailbox.length) (fun _ => True) := by
  have hstop : ∀ times, Post (do Reacting.stop inner .error; pure false : SupM Args Bool)
      { w with restartTimes := times }
      (fun ok u => ok = false ∧ w.mailbox.length < u.mailbox.length) (fun _ => True) := by
    intro times
    have hset : Known unsent { w with restartTimes := times } :=
      h.adapts (Adapts.of_eq rfl rfl rfl rfl rfl)
    exact (stop_grows hforeign .error hset).bind fun _ _ hu => post_pure.mpr ⟨rfl, hu⟩
  rw [Reacting.registerRestart, post_bind, post_get]
  split
  · exact hstop w.restartTimes
  · rename_i hmax
    have hlen : w.specification.intensity.maxRestarts < (windowTimes w).length := by
      simpa [granted, hmax] using hrefused
    rw [windowTimes] at hlen
    rw [post_bind, post_set, if_pos hlen]
    exact hstop _

/-- What becomes of the handling of a termination whose restart is refused. -/
lemma handleTermination_refused {v : World Args} {ref : ActorRef} {reason : ExitReason}
    (h : Known unsent v) (hv : registersIn w ref reason = some v) (hrefused : granted v = false) :
    (Returns (Reacting.handleTermination inner ref reason) w ↔
      v.stopping = true ∨ ∀ child ∈ v.children.entries, Stoppable inner v child) ∧
    Post (Reacting.handleTermination inner ref reason) w
      (fun _ u => w.mailbox.length < u.mailbox.length) (fun _ => True) := by
  have hgrows := registerRestart_grows hforeign h hrefused
  rw [registersIn] at hv
  rw [Reacting.handleTermination, Returns, throws_get, post_bind, post_get]
  split at hv
  · cases hv
  · rename_i hgroup
    simp only [hgroup, Bool.false_eq_true, if_false]
    cases he : w.children.find? ref with
    | none => simp [he] at hv
    | some entry =>
        simp only [he, Option.ite_none_right_eq_some, Option.some.injEq] at hv
        obtain ⟨hdue, rfl⟩ := hv
        simp only [hdue, if_true]
        rw [throws_set_bind, post_bind, post_set, ← dropped]
        refine ⟨?_, ?_⟩
        · refine Iff.trans ((returns_bind (c := True) hgrows ?_).trans (and_iff_left trivial))
            (registerRestart_returns_iff hforeign h hrefused)
          rintro ok u ⟨rfl, -⟩
          exact iff_true_intro throws_pure
        · refine hgrows.bind ?_
          rintro ok u ⟨rfl, hlt⟩
          exact post_pure.mpr hlt

/-- The same for one round of `supervise_loop`. -/
lemma superviseVisitor_refused {v : World Args} {sg : Signal} (h : Known unsent v)
    (hv : signalRegistersIn w sg = some v) (hrefused : granted v = false) :
    (Returns (Reacting.superviseVisitor inner sg) w ↔
      v.stopping = true ∨ ∀ child ∈ v.children.entries, Stoppable inner v child) ∧
    Post (Reacting.superviseVisitor inner sg) w
      (fun _ u => w.mailbox.length < u.mailbox.length) (fun _ => True) := by
  rw [Reacting.superviseVisitor, Returns, throws_get, post_bind, post_get]
  cases sg with
  | down source reason =>
      rw [signalRegistersIn, Option.ite_none_right_eq_some] at hv
      simp only [Reacting.handleSignal, hv.1, if_true]
      exact handleTermination_refused hforeign h hv.2 hrefused
  | exit source reason =>
      rw [signalRegistersIn, Option.ite_none_left_eq_some, Option.ite_none_right_eq_some] at hv
      simp only [if_neg hv.1, Reacting.handleSignal, hv.2.1, if_true]
      exact handleTermination_refused hforeign h hv.2.2 hrefused

end Returning

/-! ### The round that refuses a restart -/

namespace Family

/-- None of the children that `stop` would ask raises, or it would ask none. -/
def AllStoppable (s : Family Args) (codes : List (Site × Code Args)) : Prop :=
  s.world.stopping = true ∨ ∀ child ∈ s.world.children.entries,
    s.world.mailbox.head?.map Signal.source = some child.1 ∨
      Stoppable (codeAt codes) s.world child

instance (s : Family Args) (codes : List (Site × Code Args)) : Decidable (s.AllStoppable codes) :=
  inferInstanceAs (Decidable (_ ∨ ∀ _ ∈ _, _))

/-- The terminated child is not asked. -/
lemma allStoppable_iff {s : Family Args} {codes : List (Site × Code Args)} {sg : Signal}
    {rest : List Signal} (hbox : s.world.mailbox = sg :: rest) :
    s.AllStoppable codes ↔ (dropped (popped s.world) sg.source).stopping = true ∨
      ∀ child ∈ (dropped (popped s.world) sg.source).children.entries,
        Stoppable (codeAt codes) (dropped (popped s.world) sg.source) child := by
  have hreg : ∀ k, (dropped (popped s.world) sg.source).registered k = s.world.registered k :=
    popped_registered s.world
  have hmem : ∀ child, child ∈ (dropped (popped s.world) sg.source).children.entries ↔
      child.1 ≠ sg.source ∧ child ∈ s.world.children.entries := by
    intro child
    rw [OrdMap.mem_entries_iff, OrdMap.mem_entries_iff]
    refine ⟨find?_erase_some, fun h => ?_⟩
    exact (OrdMap.find?_erase _ _ _).trans ((if_neg h.1).trans h.2)
  refine or_congr Iff.rfl ⟨fun h child hc => ?_, fun h child hc => ?_⟩
  · obtain ⟨hne, hc⟩ := (hmem child).mp hc
    rw [Stoppable, hreg]
    refine (h child hc).resolve_left fun hsource => hne ?_
    simpa [hbox, eq_comm] using hsource
  · by_cases hsource : sg.source = child.1
    · exact Or.inl (by simp [hbox, hsource])
    · have hstoppable := h child ((hmem child).mpr ⟨Ne.symm hsource, hc⟩)
      rw [Stoppable, hreg] at hstoppable
      exact Or.inr hstoppable

/-- What becomes of the supervisor when a restart is refused. -/
lemma standing_of_refusal {s t : Family Args} {delivered : Bool} {codes : List (Site × Code Args)}
    (h : Known s.unsent s.world) (hforeign : Foreign (codeAt codes))
    (hrefuses : refuses s.world = true) (hstep : s.step (.receive delivered codes) = some t) :
    t.standing =
      if s.AllStoppable codes then .undefined else if delivered then .stuck else .gone .error := by
  have hround : ∀ {sg rest}, s.world.mailbox = sg :: rest →
      (Returns (Reacting.superviseVisitor (codeAt codes) sg) (popped s.world) ↔
        s.AllStoppable codes) ∧
      Post (Reacting.superviseVisitor (codeAt codes) sg) (popped s.world)
        (fun _ u => (popped s.world).mailbox.length < u.mailbox.length) (fun _ => True) := by
    intro sg rest hbox
    have hv : ∃ v, signalRegistersIn (popped s.world) sg = some v ∧ granted v = false := by
      simpa [refuses, hbox, Option.any_eq_true] using hrefuses
    obtain ⟨v, hv, hrefused⟩ := hv
    obtain rfl := eq_of_signalRegistersIn hv
    rw [allStoppable_iff hbox]
    exact superviseVisitor_refused hforeign (h.pop hbox) hv hrefused
  cases (step_cases hstep).2 with
  | handles halive hphase hbox hrun =>
      obtain ⟨hreturns, hgrows⟩ := hround hbox
      rw [Post, hrun] at hgrows
      rw [Returns, Throws, hrun, true_iff] at hreturns
      rw [if_pos hreturns, if_neg fun heq => hgrows.ne (congrArg List.length heq.symm)]
  | sticks hbox hrun =>
      have hreturns := (hround hbox).1
      rw [Returns, Throws, hrun, false_iff] at hreturns
      rw [if_neg hreturns, if_pos rfl]
  | falls halive hbox hrun =>
      have hreturns := (hround hbox).1
      rw [Returns, Throws, hrun, false_iff] at hreturns
      rw [if_neg hreturns, if_neg Bool.false_ne_true]
      rfl

end Family

end Supervisor

end Agner
