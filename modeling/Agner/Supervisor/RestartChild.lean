import Agner.Supervisor.OneForOne

/-!
What `restart_child` replaces.

The operation asks the instances of a spec to stop, and leaves it to the handling of their
terminations to respawn them, as the restart policy says. An instance that had been asked before
is started anew at once, unless the strategy is `one_for_one`, and its termination is handled
like that of the others.

* `instances`: the children of a spec.
* `Replacing`: how far the replacement has come. The old instances are where `now` says, and the
  new ones have the arguments `fresh`.
* `restartChild_replacing`, `Replacing.run`: the operation, and the terminations that follow.
* `atOnce`, `later`: the two places where an instance is replaced.
* `restart_child_replaces_once`: when every instance is replaced exactly once.
-/

namespace Agner

open Raising Runs

namespace Supervisor

variable {Args : Type}

/-! ### Choosing from a list twice -/

section Choosing

variable {α β : Type}

/-- A choice that differs from another one in a single element. -/
lemma filter_update {l : List α} (hnodup : l.Nodup) {c : α} (hc : c ∈ l) {p q : α → Bool}
    (hp : p c = false) (h : ∀ d ∈ l, d ≠ c → q d = p d) :
    (l.filter q : Multiset α) = if q c then c ::ₘ (l.filter p : Multiset α)
      else (l.filter p : Multiset α) := by
  obtain ⟨front, back, rfl⟩ := List.append_of_mem hc
  obtain ⟨-, hback, hapart⟩ := List.nodup_append.mp hnodup
  have hfront : front.filter q = front.filter p :=
    List.filter_congr fun d hd => h d (by simp [hd]) (hapart d hd c (by simp))
  have hrest : back.filter q = back.filter p :=
    List.filter_congr fun d hd => h d (by simp [hd]) fun heq =>
      (List.nodup_cons.mp hback).1 (heq ▸ hd)
  have hskip : (c :: back).filter p = back.filter p := List.filter_cons_of_neg (by simp [hp])
  rw [List.filter_append, List.filter_append, hfront, hskip]
  cases hq : q c with
  | false => rw [List.filter_cons_of_neg (by simp [hq]), hrest, if_neg (by simp)]
  | true =>
      rw [List.filter_cons_of_pos hq, hrest, if_pos rfl]
      exact Multiset.coe_eq_coe.mpr List.perm_middle

/-- Two choices make up the whole exactly if what is in both makes up for what is in neither. -/
lemma map_filter_add_eq_iff (l : List α) (p q : α → Bool) (f : α → β) :
    ((l.filter p).map f : Multiset β) + ((l.filter q).map f : Multiset β) = (l.map f : Multiset β) ↔
      ((l.filter fun c => p c && q c).map f : Multiset β) =
        ((l.filter fun c => !p c && !q c).map f : Multiset β) := by
  have hfilter : ∀ r : α → Bool, ((l.filter r).map f : Multiset β) =
      ((l : Multiset α).filter fun c => r c = true).map f := fun r => by
    rw [Multiset.filter_coe, Multiset.map_coe]
    simp
  have hwhole : (l.map f : Multiset β) =
      ((l : Multiset α).filter fun c => p c = true ∨ q c = true).map f +
        ((l : Multiset α).filter fun c => ¬ (p c = true ∨ q c = true)).map f := by
    rw [← Multiset.map_add, Multiset.filter_add_not, Multiset.map_coe]
  rw [hfilter, hfilter, ← Multiset.map_add, Multiset.filter_add_filter, Multiset.map_add, hwhole,
    add_right_inj, hfilter, hfilter]
  simp only [Bool.and_eq_true, Bool.not_eq_true', not_or, Bool.not_eq_true]

end Choosing

/-! ### Old and new instances -/

/-- The instances of a spec in `children_`. -/
def instances (w : World Args) (i : ℕ) : List (ActorRef × ChildEntry Args) :=
  w.children.entries.filter fun c => decide (c.2.specIndex = i)

lemma mem_instances {w : World Args} {i : ℕ} {k : ActorRef} {e : ChildEntry Args} :
    (k, e) ∈ instances w i ↔ w.children.find? k = some e ∧ e.specIndex = i := by
  rw [instances, List.mem_filter, OrdMap.mem_entries_iff, decide_eq_true_eq]

lemma nodup_instances (w : World Args) (i : ℕ) : ((instances w i).map Prod.fst).Nodup :=
  w.children.nodup_keys.sublist (List.filter_sublist.map Prod.fst)

/-- The arguments of the instances whose refs have been handed out from `n` on. -/
def freshArgs (n : ActorRef) (i : ℕ) (w : World Args) : Multiset Args :=
  (w.children.filter fun k c => decide (n ≤ k) && decide (c.specIndex = i)).values.map
    ChildEntry.args

lemma freshArgs_congr {n : ActorRef} {i : ℕ} {w w' : World Args}
    (h : ∀ k, n ≤ k → w'.children.find? k = w.children.find? k) :
    freshArgs n i w' = freshArgs n i w := by
  have hsame : (w'.children.filter fun k c => decide (n ≤ k) && decide (c.specIndex = i)) =
      w.children.filter fun k c => decide (n ≤ k) && decide (c.specIndex = i) := by
    refine OrdMap.ext fun k => ?_
    rw [OrdMap.find?_filter, OrdMap.find?_filter]
    by_cases hk : n ≤ k
    · rw [h k hk]
    · simp [hk]
  rw [freshArgs, hsame, freshArgs]

lemma freshArgs_started {n : ActorRef} {i : ℕ} {w : World Args} (h : Direct w)
    (hn : n ≤ w.sched.nextActorId) (args : Args) :
    freshArgs n i (started w i args) = args ::ₘ freshArgs n i w := by
  have hnone : (w.children.filter fun k c => decide (n ≤ k) && decide (c.specIndex = i)).find?
      w.sched.nextActorId = none := by
    rw [OrdMap.find?_filter, h.find?_next]
    rfl
  have hinsert : ((started w i args).children.filter fun k c =>
      decide (n ≤ k) && decide (c.specIndex = i)) =
      (w.children.filter fun k c => decide (n ≤ k) && decide (c.specIndex = i)).insert
        w.sched.nextActorId { specIndex := i, startOrder := w.nextStartOrder, args := args } := by
    refine OrdMap.ext fun k => ?_
    rw [OrdMap.find?_filter, find?_started, OrdMap.find?_insert]
    split
    · rename_i hk
      simp [hk, hn]
    · rw [OrdMap.find?_filter]
  rw [freshArgs, hinsert, OrdMap.values_insert _ hnone, Multiset.map_cons]
  rfl

/-- How far the replacement of the instances of `i` in `w` has come: an old instance has the
entry that `now` says, the other children are as they were, and the new instances have the
arguments `fresh`. -/
structure Replacing (w : World Args) (i : ℕ)
    (now : ActorRef → ChildEntry Args → Option (ChildEntry Args)) (fresh : Multiset Args)
    (w' : World Args) : Prop where
  direct : Direct w'
  specification : w'.specification = w.specification
  next_le : w.sched.nextActorId ≤ w'.sched.nextActorId
  old : ∀ k, k < w.sched.nextActorId → w'.children.find? k =
    (w.children.find? k).bind fun e => if e.specIndex = i then now k e else some e
  fresh_eq : freshArgs w.sched.nextActorId i w' = fresh

namespace Replacing

variable {w w' : World Args} {i : ℕ}
  {now now' : ActorRef → ChildEntry Args → Option (ChildEntry Args)} {fresh : Multiset Args}

/-- The entry of an old instance. -/
lemma find?_old (h : Replacing w i now fresh w') (hw : Direct w) {k : ActorRef}
    {e : ChildEntry Args} (he : (k, e) ∈ instances w i) : w'.children.find? k = now k e := by
  obtain ⟨he, hi⟩ := mem_instances.mp he
  rw [h.old k (hw.child_lt k (OrdMap.contains_iff.mpr ⟨e, he⟩)), he, Option.bind_some, if_pos hi]

/-- A new instance is started. -/
lemma started (h : Replacing w i now fresh w') (hlt : i < w.specification.children.length)
    (hfree : w.specification.strategy = .oneForOne → hasChild w' i = false) (args : Args) :
    Replacing w i now (args ::ₘ fresh) (started w' i args) where
  direct := h.direct.started args (by rwa [h.specification]) (by rwa [h.specification])
  specification := h.specification
  next_le := h.next_le.trans (Nat.le_succ _)
  old k hk := by
    rw [find?_started, if_neg (hk.trans_le h.next_le).ne]
    exact h.old k hk
  fresh_eq := by rw [freshArgs_started h.direct h.next_le, h.fresh_eq]

/-- An old instance changes its entry, or leaves. -/
lemma update (h : Replacing w i now fresh w') {w'' : World Args} {ref : ActorRef}
    (hdirect : Direct w'') (hspec : w''.specification = w'.specification)
    (hnext : w''.sched.nextActorId = w'.sched.nextActorId)
    (href : ref < w.sched.nextActorId)
    (hother : ∀ k, k ≠ ref → w''.children.find? k = w'.children.find? k)
    (hnow : ∀ k e, (k, e) ∈ instances w i → k ≠ ref → now' k e = now k e)
    (hself : w''.children.find? ref = (w.children.find? ref).bind fun e =>
      if e.specIndex = i then now' ref e else some e) : Replacing w i now' fresh w'' where
  direct := hdirect
  specification := hspec.trans h.specification
  next_le := hnext ▸ h.next_le
  old k hk := by
    by_cases hkr : k = ref
    · rw [hkr]
      exact hself
    · rw [hother k hkr, h.old k hk]
      cases he : w.children.find? k with
      | none => rfl
      | some e =>
          rw [Option.bind_some, Option.bind_some]
          split
          · rename_i hi
            exact (hnow k e (mem_instances.mpr ⟨he, hi⟩) hkr).symm
          · rfl
  fresh_eq := by
    rw [freshArgs_congr fun k hk => hother k (href.trans_le hk).ne', h.fresh_eq]

lemma congr (h : Replacing w i now fresh w')
    (hnow : ∀ k e, (k, e) ∈ instances w i → now' k e = now k e) :
    Replacing w i now' fresh w' where
  direct := h.direct
  specification := h.specification
  next_le := h.next_le
  old k hk := by
    rw [h.old k hk]
    cases he : w.children.find? k with
    | none => rfl
    | some e =>
        rw [Option.bind_some, Option.bind_some]
        split
        · rename_i hi
          exact (hnow k e (mem_instances.mpr ⟨he, hi⟩)).symm
        · rfl
  fresh_eq := h.fresh_eq

end Replacing

/-! ### The operation -/

/-- The instance is replaced while `restart_child` runs: it had been asked to stop before, and
children are dynamic. -/
def atOnce (w : World Args) (c : ActorRef × ChildEntry Args) : Bool :=
  decide (w.specification.strategy = .simpleOneForOne) && c.2.stopping

/-- The entries of the old instances, when those in `done` have been visited. -/
def visiting (done : List ActorRef) (k : ActorRef) (e : ChildEntry Args) :
    Option (ChildEntry Args) :=
  some (if k ∈ done then asked false e else { e with suppressRestart := false })

/-- `restart_child_entry` on one of the old instances. -/
lemma restartChildEntry_replacing {w w' : World Args} {i : ℕ} {done : List ActorRef}
    {fresh : Multiset Args} (hw : Direct w) (hlt : i < w.specification.children.length)
    (h : Replacing w i (visiting done) fresh w') {k : ActorRef} {e : ChildEntry Args}
    (he : (k, e) ∈ instances w i) (hk : k ∉ done) (hreg : w'.registered k = w.registered k) :
    Post (restartChildEntry i k : SupM Args Unit) w'
      (fun _ w'' => Replacing w i (visiting (done ++ [k]))
          (if atOnce w (k, e) then e.args ::ₘ fresh else fresh) w'' ∧
        (∀ r, r < w.sched.nextActorId → w''.registered r = w'.registered r) ∧
        (e.stopping = true ∨ w.registered k = true))
      (fun _ => e.stopping = false ∧ w.registered k = false) := by
  have hfind : w'.children.find? k = some { e with suppressRestart := false } := by
    rw [h.find?_old hw he, visiting, if_neg hk]
  obtain ⟨hek, hi⟩ := mem_instances.mp he
  have hnext : k < w.sched.nextActorId := hw.child_lt k (OrdMap.contains_iff.mpr ⟨e, hek⟩)
  have hvisit : ∀ r d, r ≠ k → (visiting (done ++ [k]) r d : Option (ChildEntry Args)) =
      visiting done r d := by
    intro r d hr
    simp [visiting, hr]
  rw [restartChildEntry, post_bind, post_get]
  simp only [hfind]
  by_cases hst : e.stopping = true
  · -- its stop has been requested before: the entry stays as it is
    have hstay : Replacing w i (visiting (done ++ [k])) fresh w' := by
      refine h.congr fun r d hd => ?_
      by_cases hr : r = k
      · subst hr
        obtain rfl := Option.some.inj (hek.symm.trans (mem_instances.mp hd).1)
        simp [visiting, hk, asked, hst]
      · exact hvisit r d hr
    have hchild : hasChild w' i = true := hasChild_iff.mpr ⟨k, _, hfind, hi⟩
    simp only [hst, Bool.not_true, Bool.false_eq_true, if_false]
    obtain ⟨ref, hrun⟩ := startChildWithArgs_run h.direct.registered_self i e.args
    rw [Post, EStateM.run_bind, hrun]
    by_cases hsimple : w.specification.strategy = .simpleOneForOne
    · have hstart : startedChild w' i e.args = started w' i e.args := by
        rw [startedChild, h.specification, if_pos hsimple]
      have hone : atOnce w (k, e) = true := by simp [atOnce, hsimple, hst]
      rw [if_pos hone, hstart]
      refine ⟨hstay.started hlt (fun hno => ?_) e.args, fun r hr => ?_, Or.inl trivial⟩
      · rw [hno] at hsimple
        cases hsimple
      · rw [started_registered, decide_eq_false (hr.trans_le h.next_le).ne, Bool.false_or]
    · have hstart : startedChild w' i e.args = w' := by
        rw [startedChild, h.specification, if_neg hsimple]
        split
        · rfl
        · rename_i hnone
          rw [findRunningChildForSpec_eq_none, hchild] at hnone
          cases hnone
      have hone : ¬ atOnce w (k, e) = true := by simp [atOnce, hsimple]
      rw [if_neg hone, hstart]
      exact ⟨hstay, fun _ _ => rfl, Or.inl trivial⟩
  · -- it is asked to stop now, which raises if it is gone
    have hst' : e.stopping = false := by simpa using hst
    have hone : ¬ atOnce w (k, e) = true := by simp [atOnce, hst']
    have hne : k ≠ w'.self := by
      rintro rfl
      exact absurd h.direct.self_not_child (by rw [OrdMap.contains, hfind]; simp)
    simp only [hst', Bool.not_false, if_true]
    refine (suppressAndStop_post false hne hfind).mono ?_ ?_
    · rintro _ w'' ⟨hmark, hgroup, hothers, hself, hgone⟩
      rw [if_neg hone]
      refine ⟨h.update (h.direct.marked hmark hgroup) hmark.specification hmark.nextActorId hnext
        hothers (fun r d _ hr => hvisit r d hr) ?_, fun r _ => hmark.registered r, Or.inr ?_⟩
      · rw [hself, hek, Option.bind_some, if_pos hi]
        simp [visiting, asked]
      · by_contra hno
        rw [Bool.not_eq_true, ← hreg] at hno
        exact hgone ⟨_, hfind, hst', hno⟩
    · rintro _ ⟨-, -, -, hno⟩
      exact ⟨trivial, hreg.symm.trans hno⟩

/-- The arguments of chosen instances. -/
def argsOf (l : List (ActorRef × ChildEntry Args)) : Multiset Args :=
  (l.map fun c => c.2.args : List Args)

lemma Replacing.start {w w' : World Args} {i : ℕ} (hw : Direct w) (hmark : Marked w w')
    (hgroup : w'.restartGroup = w.restartGroup)
    (hfind : ∀ k, w'.children.find? k = (w.children.find? k).map fun c =>
      if k ∈ (instances w i).map Prod.fst then { c with suppressRestart := false } else c) :
    Replacing w i (visiting []) 0 w' where
  direct := hw.marked hmark hgroup
  specification := hmark.specification
  next_le := hmark.nextActorId.ge
  old k _ := by
    rw [hfind]
    cases he : w.children.find? k with
    | none => rfl
    | some e =>
        rw [Option.map_some, Option.bind_some]
        have hiff : k ∈ (instances w i).map Prod.fst ↔ e.specIndex = i := by
          rw [instances, mem_refs_of_spec, he]
          simp
        by_cases hi : e.specIndex = i
        · rw [if_pos (hiff.mpr hi), if_pos hi]
          simp [visiting]
        · rw [if_neg (mt hiff.mp hi), if_neg hi]
  fresh_eq := by
    have hempty : (w'.children.filter fun k c =>
        decide (w.sched.nextActorId ≤ k) && decide (c.specIndex = i)) = ∅ := by
      refine OrdMap.ext fun k => ?_
      rw [OrdMap.find?_filter, OrdMap.find?_empty]
      cases he : w'.children.find? k with
      | none => rfl
      | some e =>
          have hlt := (hw.marked hmark hgroup).child_lt k (OrdMap.contains_iff.mpr ⟨e, he⟩)
          rw [hmark.nextActorId] at hlt
          simp [Option.filter, not_le.mpr hlt]
    rw [freshArgs, hempty]
    rfl

/-- `restart_child`: the old instances have all been asked to stop, and those that had been
asked before may have been replaced. It raises exactly if an instance that is to be asked is not
registered any more. -/
lemma restartChild_replacing {w : World Args} (hw : Direct w) {i : ℕ}
    (hlt : i < w.specification.children.length) :
    Post (restartChild i : SupM Args Unit) w
      (fun _ w' => Replacing w i (fun _ e => some (asked false e))
          (argsOf ((instances w i).filter (atOnce w))) w' ∧
        ∀ c ∈ instances w i, c.2.stopping = true ∨ w.registered c.1 = true)
      (fun _ => ∃ c ∈ instances w i, c.2.stopping = false ∧ w.registered c.1 = false) := by
  rw [restartChild, post_bind, post_get]
  simp only [post_bind]
  refine (setSuppress_post false _).mono ?_ fun _ => False.elim
  rintro _ v ⟨hmark, hgroup, hfind⟩
  have hstart : Replacing w i (visiting []) 0 v := Replacing.start hw hmark hgroup hfind
  have hloop : (((instances w i).map Prod.fst).forM fun ref =>
      (restartChildEntry i ref : SupM Args Unit)) =
      (instances w i).forM fun c => restartChildEntry i c.1 := by
    simp only [List.forM_eq_forM, List.forM_map]
  rw [← instances, hloop]
  refine Post.mono (post_forM (fun done rest w' => done ++ rest = instances w i ∧
      Replacing w i (visiting (done.map Prod.fst)) (argsOf (done.filter (atOnce w))) w' ∧
      (∀ r, r < w.sched.nextActorId → w'.registered r = w.registered r) ∧
      ∀ c ∈ done, c.2.stopping = true ∨ w.registered c.1 = true) ?_ _ v
      ⟨rfl, hstart, fun r _ => hmark.registered r, by simp⟩) ?_ fun _ => id
  · rintro done ⟨k, e⟩ rest w' ⟨hsplit, h, hreg, hdone⟩
    have he : (k, e) ∈ instances w i := by rw [← hsplit]; simp
    have hk : k ∉ done.map Prod.fst := by
      intro hmem
      have hnodup := nodup_instances w i
      rw [← hsplit, List.map_append, List.map_cons] at hnodup
      exact (List.nodup_append.mp hnodup).2.2 k hmem k (by simp) rfl
    have hnext : k < w.sched.nextActorId :=
      hw.child_lt k (OrdMap.contains_iff.mpr ⟨e, (mem_instances.mp he).1⟩)
    refine (restartChildEntry_replacing hw hlt h he hk (hreg k hnext)).mono ?_
      fun _ hg => ⟨(k, e), he, hg⟩
    rintro _ w'' ⟨h', hreg', hok⟩
    refine ⟨by simpa using hsplit, ?_, fun r hr => (hreg' r hr).trans (hreg r hr), ?_⟩
    · have hfresh : argsOf ((done ++ [(k, e)]).filter (atOnce w)) =
          if atOnce w (k, e) then e.args ::ₘ argsOf (done.filter (atOnce w))
          else argsOf (done.filter (atOnce w)) := by
        rw [List.filter_append]
        cases hone : atOnce w (k, e) with
        | false => simp [hone, argsOf]
        | true =>
            rw [if_pos rfl, List.filter_cons_of_pos hone, List.filter_nil, argsOf, argsOf,
              List.map_append]
            exact Multiset.coe_eq_coe.mpr (List.perm_append_singleton _ _)
      rw [hfresh, List.map_append]
      exact h'
    · intro c hc
      rcases List.mem_append.mp hc with hc | hc
      · exact hdone c hc
      · rw [List.mem_singleton.mp hc]
        exact hok
  · rintro _ w' ⟨-, h, -, hdone⟩
    refine ⟨h.congr fun k e he => ?_, hdone⟩
    rw [visiting, if_pos (List.mem_map_of_mem he)]

/-! ### Whole runs -/

lemma Direct.startedChild {w : World Args} (h : Direct w) {index : ℕ} (args : Args)
    (hlt : index < w.specification.children.length) : Direct (startedChild w index args) := by
  rw [Supervisor.startedChild]
  split
  · rename_i hsimple
    refine h.started args hlt fun hone => ?_
    rw [hone] at hsimple
    cases hsimple
  · split
    · exact h
    · rename_i hnone
      exact h.started args hlt fun _ => findRunningChildForSpec_eq_none.mp hnone

lemma init_direct {w : World Args} (h : Direct w) :
    Post (initAndSupervise : SupM Args Unit) w (fun _ => DirectOf w.specification)
      (fun _ => True) := by
  have hinit : Post (init : SupM Args Unit) w (fun _ => DirectOf w.specification)
      (fun _ => True) := by
    rw [init, post_bind, post_get]
    split
    · exact post_pure.mpr ⟨h, rfl⟩
    · refine Post.mono (post_forM (fun done rest w' =>
        done ++ rest = List.range w.specification.children.length ∧ DirectOf w.specification w')
        ?_ _ w ⟨rfl, h, rfl⟩) (fun _ w' hw' => hw'.2) fun _ => id
      rintro done i rest w' ⟨hsplit, h', hspec⟩
      have hlt : i < w'.specification.children.length := by
        rw [hspec]
        exact List.mem_range.mp (by rw [← hsplit]; simp)
      rw [Post, startChildByIndex_run h'.registered_self (List.getElem?_eq_getElem hlt)]
      refine ⟨by simpa using hsplit, h'.startedChild _ hlt, ?_⟩
      rw [Supervisor.startedChild]
      split
      · exact hspec
      · split <;> exact hspec
  rw [initAndSupervise, post_bind]
  refine hinit.mono (fun _ w' hw' => ?_) fun _ => id
  exact post_modify.mpr ⟨hw'.1.withPhase .supervising, hw'.2⟩

/-- Every step keeps the invariant, until an operation raises. -/
lemma direct_step {s t : System Args} {l : Label Args} (h : Direct s.world)
    (hstep : step s l = some t) (hr : t.raised = false) :
    DirectOf s.world.specification t.world := by
  by_cases henv : l.environment = true
  · exact (environment_simulates h henv hstep).2
  cases l with
  | init =>
      obtain ⟨-, rfl⟩ := step_init hstep
      exact post_of_perform (init_direct h) hr
  | receive =>
      obtain ⟨-, sg, rest, -, rfl⟩ := step_receive hstep
      have hpop : Direct (popped s.world) :=
        h.shrink rfl rfl (popped_registered s.world) rfl rfl fun _ e he => ⟨e, he, rfl⟩
      cases post_of_perform (superviseVisitor_visited hpop sg) hr with
      | ended hst hself hw =>
          rw [hw]
          exact ⟨hpop.withPhase .ended, rfl⟩
      | nobody hzero hw =>
          rw [hw]
          exact ⟨hpop, rfl⟩
      | handled hvalid hh => exact Handled.direct (w := popped s.world) hpop hh
  | startChild index args => exact (startChild_simulates h hstep).2
  | stopChild index => exact (stopChild_simulates h hstep hr).2
  | deleteChild index => exact (deleteChild_simulates h hstep hr).2
  | restartChild index =>
      simp only [step, raised_of_step hstep, Bool.false_eq_true, if_false,
        Option.ite_none_right_eq_some, Option.some.injEq] at hstep
      obtain ⟨hlt, rfl⟩ := hstep
      obtain ⟨hrep, -⟩ := post_of_perform (restartChild_replacing h hlt) hr
      exact ⟨hrep.direct, hrep.specification⟩
  | stop reason =>
      obtain ⟨x, hx, rfl⟩ := administers_of_step hstep rfl
      cases hx
      obtain ⟨hhalt, -⟩ := post_of_perform (stop_post reason h.self_not_child) hr
      exact ⟨h.halted hhalt, hhalt.specification⟩
  | _ => exact absurd rfl henv

/-- In every state a run reaches without raising. -/
lemma direct_of_run {sched : SchedulerBase} (hwf : sched.WellFormed)
    {spec : Specification Args}
    (hstrategy : spec.strategy = .oneForOne ∨ spec.strategy = .simpleOneForOne)
    {labels : List (Label Args)} {s : System Args}
    (hrun : run step (create sched spec) labels = some s) :
    s.raised = false → DirectOf spec s.world := by
  refine invariant_of_step (P := fun s => s.raised = false → DirectOf spec s.world)
    (fun s l t hs hstep hr => ?_) (fun _ => ⟨direct_create hwf hstrategy, rfl⟩) hrun
  obtain ⟨hd, hspec⟩ := hs (raised_of_step hstep)
  exact hspec ▸ direct_step hd hstep hr

/-! ### The terminations -/

/-- The actor whose termination an event reports, with the reason. -/
def Event.report : Event Args → Option (ActorRef × ExitReason)
  | .signal sg => some (sg.source, sg.reason)
  | .environment _ => none

/-- The instance is replaced when its termination is handled: the policy restarts it for the
reason that was reported first. -/
def later (spec : Specification Args) (reports : List (ActorRef × ExitReason))
    (c : ActorRef × ChildEntry Args) : Bool :=
  (reports.lookup c.1).any (shouldRestart (restartAtSpecIndex spec c.2.specIndex))

/-- The entries of the old instances, when some have been reported. -/
def awaiting (reports : List (ActorRef × ExitReason)) (k : ActorRef) (e : ChildEntry Args) :
    Option (ChildEntry Args) :=
  if (reports.lookup k).isSome then none else some (asked false e)

/-- The condition on events: a signal names an old instance, or nobody in `children_`, and a
restart that is due is granted. -/
def Terminates (old : List ActorRef) (s : System Args) : Event Args → Prop
  | .signal sg => (sg.source ∈ old ∨ s.world.children.contains sg.source = false) ∧
      ((s.world.children.find? sg.source).any (fun e =>
        Reference.willRestart s.world.specification e.view sg.reason) = true →
          granted s.world = true)
  | .environment _ => True

instance (old : List ActorRef) (s : System Args) : DecidablePred (Terminates old s)
  | .signal _ => inferInstanceAs (Decidable (_ ∧ (_ → _)))
  | .environment _ => isTrue trivial

/-- The arguments of the new instances, when some of the old ones have been reported. -/
def replacements (w : World Args) (i : ℕ) (reports : List (ActorRef × ExitReason)) :
    Multiset Args :=
  argsOf ((instances w i).filter (atOnce w)) +
    argsOf ((instances w i).filter (later w.specification reports))

/-- The replacement when some of the old instances have been reported. -/
def Reported (w : World Args) (i : ℕ) (reports : List (ActorRef × ExitReason))
    (w' : World Args) : Prop :=
  Replacing w i (awaiting reports) (replacements w i reports) w'

section Terminations

variable {w w' : World Args} {i : ℕ} {reports : List (ActorRef × ExitReason)}

lemma lookup_concat_of_ne {k ref : ActorRef} (hk : k ≠ ref) (reason : ExitReason) :
    (reports ++ [(ref, reason)]).lookup k = reports.lookup k := by
  have hnone : [(ref, reason)].lookup k = none := by
    rw [List.lookup_eq_none_iff]
    simpa using hk
  rw [List.lookup_append, hnone, Option.or_none]

/-- A report of somebody who is not, or no longer, an old instance changes nothing. -/
lemma Reported.ignore (h : Reported w i reports w') (hw : Direct w) {ref : ActorRef}
    (hnone : w'.children.find? ref = none) (reason : ExitReason) :
    Reported w i (reports ++ [(ref, reason)]) w' := by
  have hlookup : ∀ k e, (k, e) ∈ instances w i →
      (reports ++ [(ref, reason)]).lookup k = reports.lookup k := by
    intro k e he
    by_cases hk : k = ref
    · subst hk
      have hold := h.find?_old hw he
      rw [hnone, awaiting] at hold
      rw [List.lookup_append]
      cases hl : reports.lookup k with
      | none => simp [hl] at hold
      | some r => rfl
    · exact lookup_concat_of_ne hk reason
  have hlater : (instances w i).filter (later w.specification (reports ++ [(ref, reason)])) =
      (instances w i).filter (later w.specification reports) :=
    List.filter_congr fun c hc => by rw [later, later, hlookup c.1 c.2 hc]
  rw [Reported, replacements, hlater]
  exact h.congr fun k e he => by rw [awaiting, awaiting, hlookup k e he]

/-- The first report of an old instance. -/
lemma Reported.lookup_append (h : Reported w i reports w') (hw : Direct w) {ref : ActorRef}
    {e e' : ChildEntry Args} (he : (ref, e) ∈ instances w i)
    (hfind : w'.children.find? ref = some e') (reason : ExitReason) :
    e' = asked false e ∧ reports.lookup ref = none ∧
      ∀ k, (reports ++ [(ref, reason)]).lookup k =
        if k = ref then some reason else reports.lookup k := by
  have hold := h.find?_old hw he
  rw [hfind, awaiting] at hold
  cases hl : reports.lookup ref with
  | some r => simp [hl] at hold
  | none =>
      rw [hl, Option.isSome_none, if_neg Bool.false_ne_true, Option.some.injEq] at hold
      refine ⟨hold, rfl, fun k => ?_⟩
      by_cases hk : k = ref
      · rw [List.lookup_append, hk, hl, if_pos rfl]
        simp
      · rw [if_neg hk, lookup_concat_of_ne hk]

lemma replacements_append {ref : ActorRef} {e : ChildEntry Args}
    (he : (ref, e) ∈ instances w i) {reason : ExitReason} (hnone : reports.lookup ref = none)
    (hlookup : ∀ k, (reports ++ [(ref, reason)]).lookup k =
      if k = ref then some reason else reports.lookup k) :
    replacements w i (reports ++ [(ref, reason)]) =
      if shouldRestart (restartAtSpecIndex w.specification i) reason
      then e.args ::ₘ replacements w i reports else replacements w i reports := by
  have hnodup : (instances w i).Nodup := (nodup_instances w i).of_map
  have hnew : later w.specification (reports ++ [(ref, reason)]) (ref, e) =
      shouldRestart (restartAtSpecIndex w.specification i) reason := by
    rw [later, hlookup, if_pos rfl, Option.any_some, (mem_instances.mp he).2]
  have hupdate := filter_update hnodup he (p := later w.specification reports)
    (q := later w.specification (reports ++ [(ref, reason)]))
    (by rw [later, hnone, Option.any_none]) fun d hd hne => ?_
  · rw [hnew] at hupdate
    rw [replacements, replacements, argsOf, argsOf, argsOf, ← Multiset.map_coe,
      ← Multiset.map_coe, ← Multiset.map_coe, hupdate]
    split
    · rw [Multiset.map_cons, Multiset.add_cons]
    · rfl
  · have hne' : d.1 ≠ ref := by
      intro heq
      refine hne (Prod.ext heq ?_)
      have hd' : (ref, d.2) ∈ instances w i := heq ▸ hd
      exact Option.some.inj ((mem_instances.mp hd').1.symm.trans (mem_instances.mp he).1)
    rw [later, later, hlookup, if_neg hne']

/-- The termination of an old instance. -/
lemma Reported.terminate (h : Reported w i reports w') (hw : Direct w)
    (hlt : i < w.specification.children.length) {ref : ActorRef} {e e' : ChildEntry Args}
    (he : (ref, e) ∈ instances w i) (hfind : w'.children.find? ref = some e')
    {reason : ExitReason} {w'' : World Args} (hh : Handled w' ref reason w'')
    (hgranted : ¬ Refuses w' ref reason) :
    Reported w i (reports ++ [(ref, reason)]) w'' := by
  obtain ⟨hasked, hnone, hlookup⟩ := h.lookup_append hw he hfind reason
  obtain ⟨hek, hi⟩ := mem_instances.mp he
  have hnext : ref < w.sched.nextActorId := hw.child_lt ref (OrdMap.contains_iff.mpr ⟨e, hek⟩)
  have hwill : Reference.willRestart w'.specification e'.view reason =
      shouldRestart (restartAtSpecIndex w.specification i) reason := by
    rw [hasked, h.specification, Reference.willRestart, ChildEntry.view, asked, hi]
    rfl
  -- the old instance leaves
  have hleaves : ∀ {v : World Args}, Direct v → v.specification = w'.specification →
      v.sched.nextActorId = w'.sched.nextActorId → v.children = w'.children.erase ref →
      Replacing w i (awaiting (reports ++ [(ref, reason)])) (replacements w i reports) v := by
    intro v hd hspec hn hv
    refine Replacing.update h hd hspec hn hnext (fun k hk => ?_) (fun k d _ hk => ?_) ?_
    · rw [hv, OrdMap.find?_erase, if_neg hk]
    · rw [awaiting, awaiting, hlookup, if_neg hk]
    · rw [hv, OrdMap.find?_erase, if_pos rfl, hek, Option.bind_some, if_pos hi, awaiting,
        hlookup, if_pos rfl]
      rfl
  rw [Reported, replacements_append he hnone hlookup]
  cases hh with
  | unknown hno hw'' =>
      rw [hno] at hfind
      cases hfind
  | exits d hd hstays hw'' =>
      obtain rfl := Option.some.inj (hfind.symm.trans hd)
      rw [← hwill, hstays, if_neg Bool.false_ne_true, hw'']
      exact hleaves (h.direct.dropped ref) rfl rfl rfl
  | restarts d hd hdue hgr hw'' =>
      obtain rfl := Option.some.inj (hfind.symm.trans hd)
      have hindex : e'.specIndex = i := by rw [hasked]; exact hi
      have hargs : e'.args = e.args := by rw [hasked]; rfl
      rw [← hwill, hdue, if_pos rfl, hw'', hindex, hargs]
      refine (hleaves (h.direct.recorded ref) rfl rfl rfl).started hlt (fun hone => ?_) e.args
      have hfree := h.direct.free_of_dropped hfind (by rw [h.specification]; exact hone)
      rwa [hindex] at hfree
  | exceeded d hd hdue hrefused hhalted htimes => exact absurd ⟨hrefused, d, hd, hdue⟩ hgranted

lemma Reported.withSched (h : Reported w i reports w') {sched : SchedulerBase} (now : ℤ)
    (hwf : sched.WellFormed) (hreg : sched.actors.contains w'.self = true)
    (hle : w'.sched.nextActorId ≤ sched.nextActorId) :
    Reported w i reports ({ w' with sched := sched, now := now } : World Args) where
  direct := { h.direct with
    wellFormed := hwf
    registered_self := hreg
    child_lt := fun k hk => (h.direct.child_lt k hk).trans_le hle }
  specification := h.specification
  next_le := h.next_le.trans hle
  old := h.old
  fresh_eq := h.fresh_eq

/-- One event. -/
lemma Reported.step {s t : System Args} {ev : Event Args} (h : Reported w i reports s.world)
    (hw : Direct w) (hlt : i < w.specification.children.length)
    (hpos : ∀ c ∈ instances w i, c.1 ≠ 0)
    (hok : Terminates ((instances w i).map Prod.fst) s ev) (hstep : Event.step s ev = some t) :
    t.raised = false ∧ Reported w i (reports ++ ev.report.toList) t.world := by
  cases ev with
  | environment l =>
      rw [Event.step, Option.ite_none_right_eq_some] at hstep
      obtain ⟨sched, now, rfl, hwf, hreg, hle⟩ :=
        step_environment hstep.2 hstep.1 h.direct.wellFormed h.direct.registered_self
      rw [Event.report, Option.toList_none, List.append_nil]
      exact ⟨rfl, h.withSched now hwf hreg hle⟩
  | signal sg =>
      obtain ⟨hsource, hgranted⟩ := hok
      rw [Event.step, Option.ite_none_left_eq_some, Option.some.injEq] at hstep
      obtain ⟨-, rfl⟩ := hstep
      have hno : ¬ Refuses s.world sg.source sg.reason := by
        rintro ⟨hrefused, e, he, hdue⟩
        rw [he, Option.any_some, hdue, hrefused] at hgranted
        exact Bool.false_ne_true (hgranted rfl)
      rcases perform_eq_of_post (superviseVisitor_visited h.direct sg) with ⟨hr, hv⟩ | ⟨-, hf⟩
      · refine ⟨hr, ?_⟩
        rw [Event.report, Option.toList_some]
        cases hfind : s.world.children.find? sg.source with
        | none =>
            have hignore := h.ignore hw hfind sg.reason
            cases hv with
            | ended hst hself hw' =>
                rw [hw']
                exact { hignore with direct := h.direct.withPhase .ended }
            | nobody hzero hw' => rwa [hw']
            | handled hvalid hh =>
                cases hh with
                | unknown hnone hw' => rwa [hw']
                | exits d hd | restarts d hd | exceeded d hd =>
                    rw [hfind] at hd
                    cases hd
        | some e' =>
            have hin : s.world.children.contains sg.source = true :=
              OrdMap.contains_iff.mpr ⟨e', hfind⟩
            obtain ⟨⟨k, e⟩, he, hk⟩ := List.mem_map.mp
              (hsource.resolve_right (by rw [hin]; simp))
            obtain rfl : k = sg.source := hk
            cases hv with
            | ended hst hself hw' =>
                rw [hself, h.direct.self_not_child] at hin
                cases hin
            | nobody hzero hw' => exact absurd hzero (hpos _ he)
            | handled hvalid hh => exact h.terminate hw hlt he hfind hh hno
      · exact absurd hf hno

/-- A sequence of events. -/
lemma Reported.run {s t : System Args} {events : List (Event Args)}
    (h : Reported w i reports s.world) (hraised : s.raised = false) (hw : Direct w)
    (hlt : i < w.specification.children.length) (hpos : ∀ c ∈ instances w i, c.1 ≠ 0)
    (hok : AllSteps Event.step (Terminates ((instances w i).map Prod.fst)) s events)
    (hrun : Runs.run Event.step s events = some t) :
    t.raised = false ∧ Reported w i (reports ++ events.filterMap Event.report) t.world := by
  induction events generalizing reports s with
  | nil =>
      obtain rfl := Option.some.inj hrun
      exact ⟨hraised, by simpa using h⟩
  | cons ev events ih =>
      rw [run_cons, Option.bind_eq_some_iff] at hrun
      obtain ⟨u, hu, hut⟩ := hrun
      obtain ⟨hr, hp⟩ := h.step hw hlt hpos hok.1 hu
      have hrest := ih hp hr (hok.2 u hu) hut
      have hlist : reports ++ ev.report.toList ++ events.filterMap Event.report =
          reports ++ (ev :: events).filterMap Event.report := by
        rw [List.append_assoc, List.filterMap_cons]
        cases ev.report <;> rfl
      rwa [hlist] at hrest

end Terminations

/-! ### The outcome -/

/-- Every instance of the spec in `w` has been replaced once in `w'`. -/
structure Replaced (w : World Args) (i : ℕ) (w' : World Args) : Prop where
  fresh : ∀ c ∈ instances w' i, w.sched.nextActorId ≤ c.1
  count : (instances w' i).length = (instances w i).length
  args : argsOf (instances w' i) = argsOf (instances w i)

/-- When all old instances have been reported, only new ones are left. -/
lemma Reported.done {w w' : World Args} {i : ℕ} {reports : List (ActorRef × ExitReason)}
    (h : Reported w i reports w')
    (hall : ∀ c ∈ instances w i, (reports.lookup c.1).isSome = true) :
    (∀ c ∈ instances w' i, w.sched.nextActorId ≤ c.1) ∧
      argsOf (instances w' i) = replacements w i reports := by
  have hfresh : ∀ c ∈ instances w' i, w.sched.nextActorId ≤ c.1 := by
    rintro ⟨k, e⟩ hc
    obtain ⟨hfind, hi⟩ := mem_instances.mp hc
    by_contra hlt
    rw [h.old k (not_le.mp hlt)] at hfind
    cases hold : w.children.find? k with
    | none => simp [hold] at hfind
    | some d =>
        rw [hold, Option.bind_some] at hfind
        split at hfind
        · rename_i hd
          have hseen := hall (k, d) (mem_instances.mpr ⟨hold, hd⟩)
          rw [awaiting, if_pos hseen] at hfind
          cases hfind
        · rename_i hd
          obtain rfl := Option.some.inj hfind
          exact hd hi
  refine ⟨hfresh, ?_⟩
  have hsame : (w'.children.entries.filter fun c =>
      decide (w.sched.nextActorId ≤ c.1) && decide (c.2.specIndex = i)) = instances w' i := by
    refine List.filter_congr fun c hc => ?_
    by_cases hi : c.2.specIndex = i
    · have hn := hfresh c (List.mem_filter.mpr ⟨hc, decide_eq_true hi⟩)
      simp [hi, hn]
    · simp [hi]
  have hvalues : freshArgs w.sched.nextActorId i w' = argsOf (w'.children.entries.filter fun c =>
      decide (w.sched.nextActorId ≤ c.1) && decide (c.2.specIndex = i)) := by
    rw [freshArgs, OrdMap.values, Multiset.map_coe, List.map_map]
    rfl
  rw [← hsame, ← hvalues, h.fresh_eq]

lemma Reported.replaced_iff {w w' : World Args} {i : ℕ}
    {reports : List (ActorRef × ExitReason)} (h : Reported w i reports w')
    (hall : ∀ c ∈ instances w i, (reports.lookup c.1).isSome = true) :
    Replaced w i w' ↔
      argsOf ((instances w i).filter fun c => atOnce w c && later w.specification reports c) =
        argsOf ((instances w i).filter fun c =>
          !atOnce w c && !later w.specification reports c) := by
  obtain ⟨hfresh, hargs⟩ := h.done hall
  have hiff := map_filter_add_eq_iff (instances w i) (atOnce w) (later w.specification reports)
    fun c => c.2.args
  refine ⟨fun hr => hiff.mp (hargs.symm.trans hr.args), fun hc => ?_⟩
  have heq : argsOf (instances w' i) = argsOf (instances w i) := hargs.trans (hiff.mpr hc)
  exact ⟨hfresh, by simpa [argsOf] using congrArg Multiset.card heq, heq⟩

/-- The condition, when no instance is reported to have exited normally. -/
lemma balanced_iff {w : World Args} {i : ℕ} {reports : List (ActorRef × ExitReason)}
    (hall : ∀ c ∈ instances w i, (reports.lookup c.1).isSome = true)
    (hreasons : ∀ r ∈ reports, r.2 ≠ .normal) :
    argsOf ((instances w i).filter fun c => atOnce w c && later w.specification reports c) =
        argsOf ((instances w i).filter fun c =>
          !atOnce w c && !later w.specification reports c) ↔
      (restartAtSpecIndex w.specification i ≠ .temporary ∧
          ∀ c ∈ instances w i, atOnce w c = false) ∨
        (restartAtSpecIndex w.specification i = .temporary ∧
          ∀ c ∈ instances w i, atOnce w c = true) := by
  have hempty : ∀ p : ActorRef × ChildEntry Args → Bool,
      argsOf ((instances w i).filter p) = 0 ↔ ∀ c ∈ instances w i, p c = false := by
    intro p
    rw [argsOf, Multiset.coe_eq_zero, List.map_eq_nil_iff, List.filter_eq_nil_iff]
    simp only [Bool.not_eq_true]
  have hpolicy : ∀ c ∈ instances w i, later w.specification reports c =
      decide (restartAtSpecIndex w.specification i ≠ .temporary) := by
    rintro ⟨k, e⟩ hc
    obtain ⟨reason, hreason⟩ := Option.isSome_iff_exists.mp (hall (k, e) hc)
    have hmem : (k, reason) ∈ reports := by
      obtain ⟨front, back, rfl, -⟩ := List.lookup_eq_some_iff.mp hreason
      simp
    have hne : reason ≠ .normal := hreasons _ hmem
    rw [later, hreason, Option.any_some, (mem_instances.mp hc).2]
    cases restartAtSpecIndex w.specification i <;> simp [shouldRestart, hne]
  by_cases htemp : restartAtSpecIndex w.specification i = .temporary
  · have htwice : argsOf ((instances w i).filter fun c =>
        atOnce w c && later w.specification reports c) = 0 :=
      (hempty _).mpr fun c hc => by simp [hpolicy c hc, htemp]
    rw [htwice, eq_comm, hempty]
    simp only [htemp, ne_eq, not_true_eq_false, false_and, true_and, false_or]
    refine forall₂_congr fun c hc => ?_
    simp [hpolicy c hc, htemp]
  · have hnever : argsOf ((instances w i).filter fun c =>
        !atOnce w c && !later w.specification reports c) = 0 :=
      (hempty _).mpr fun c hc => by simp [hpolicy c hc, htemp]
    rw [hnever, hempty]
    simp only [htemp, ne_eq, not_false_eq_true, false_and, true_and, or_false]
    refine forall₂_congr fun c hc => ?_
    simp [hpolicy c hc, htemp]

lemma Replacing.reported {w w' : World Args} {i : ℕ}
    (h : Replacing w i (fun _ e => some (asked false e))
      (argsOf ((instances w i).filter (atOnce w))) w') : Reported w i [] w' := by
  have hnone : (instances w i).filter (later w.specification []) = [] :=
    List.filter_eq_nil_iff.mpr fun c _ => by simp [later]
  have hstart : replacements w i [] = argsOf ((instances w i).filter (atOnce w)) := by
    rw [replacements, hnone]
    exact Multiset.add_zero _
  rw [Reported, hstart]
  exact h.congr fun _ _ _ => rfl

/-- `restart_child` on a spec of a supervisor that restarts children on their own, in any state
that a run reaches, followed by the terminations of the instances in any order and any steps of
the environment, the restarts that are due being granted. It returns, and every instance is
replaced exactly once, if and only if no instance that had not been asked to stop has exited
already, and the instances that are replaced twice, at once and on their termination, make up
for those that are not replaced at all. When no instance is reported to have exited normally the
latter says that the spec is not temporary and none is replaced at once, or that it is and all of
them are. -/
theorem restart_child_replaces_once {sched : SchedulerBase} (hwf : sched.WellFormed)
    {spec : Specification Args}
    (hstrategy : spec.strategy = .oneForOne ∨ spec.strategy = .simpleOneForOne)
    {labels : List (Label Args)} {s u t : System Args}
    (hrun : run step (create sched spec) labels = some s) {i : ℕ}
    (hstep : step s (.restartChild i) = some u) {events : List (Event Args)}
    (hok : AllSteps Event.step (Terminates ((instances s.world i).map Prod.fst)) u events)
    (hall : ∀ c ∈ instances s.world i, c.1 ∈ (events.filterMap Event.report).map Prod.fst)
    (hevents : u.raised = false → run Event.step u events = some t) :
    ((u.raised = false ∧ t.raised = false ∧ Replaced s.world i t.world) ↔
      (∀ c ∈ instances s.world i, c.2.stopping = true ∨ s.world.registered c.1 = true) ∧
      argsOf ((instances s.world i).filter fun c =>
          atOnce s.world c && later spec (events.filterMap Event.report) c) =
        argsOf ((instances s.world i).filter fun c =>
          !atOnce s.world c && !later spec (events.filterMap Event.report) c)) ∧
    ((∀ r ∈ events.filterMap Event.report, r.2 ≠ .normal) →
      (argsOf ((instances s.world i).filter fun c =>
          atOnce s.world c && later spec (events.filterMap Event.report) c) =
        argsOf ((instances s.world i).filter fun c =>
          !atOnce s.world c && !later spec (events.filterMap Event.report) c) ↔
      (restartAtSpecIndex spec i ≠ .temporary ∧
          ∀ c ∈ instances s.world i, atOnce s.world c = false) ∨
        (restartAtSpecIndex spec i = .temporary ∧
          ∀ c ∈ instances s.world i, atOnce s.world c = true))) := by
  have hr : s.raised = false := raised_of_step hstep
  obtain ⟨hd, hspec⟩ := direct_of_run hwf hstrategy hrun hr
  have hacc : Accounted s.world := accounted_of_run hwf hrun hr
  have hseen : ∀ c ∈ instances s.world i,
      ((events.filterMap Event.report).lookup c.1).isSome = true := by
    intro c hc
    obtain ⟨r, hmem, heq⟩ := List.mem_map.mp (hall c hc)
    exact List.lookup_isSome_iff.mpr ⟨r, hmem, beq_iff_eq.mpr heq.symm⟩
  have hpos : ∀ c ∈ instances s.world i, c.1 ≠ 0 := by
    rintro ⟨k, e⟩ hc
    exact hacc.child_pos k (OrdMap.contains_iff.mpr ⟨e, (mem_instances.mp hc).1⟩)
  refine ⟨?_, fun hreasons => hspec ▸ balanced_iff hseen hreasons⟩
  simp only [step, hr, Bool.false_eq_true, if_false, Option.ite_none_right_eq_some,
    Option.some.injEq] at hstep
  obtain ⟨hlt, rfl⟩ := hstep
  rcases perform_eq_of_post (restartChild_replacing hd hlt) with ⟨hu, hrep, hnogone⟩ |
    ⟨hu, c, hc, hst, hgone⟩
  · obtain ⟨ht, hend⟩ := hrep.reported.run hu hd hlt hpos hok (hevents hu)
    rw [List.nil_append] at hend
    have hiff := hend.replaced_iff hseen
    rw [hspec] at hiff
    exact ⟨fun hrepl => ⟨hnogone, hiff.mp hrepl.2.2⟩, fun hcond => ⟨hu, ht, hiff.mpr hcond.2⟩⟩
  · constructor
    · rintro ⟨hno, -⟩
      rw [hu] at hno
      cases hno
    · rintro ⟨hcond, -⟩
      rcases hcond c hc with hyes | hyes
      · rw [hst] at hyes
        cases hyes
      · rw [hgone] at hyes
        cases hyes

/-- Two instances are running. -/
def twoRunning : System ℕ :=
  reached step (create {} onDemand) [.init, .startChild 0 (some 7), .startChild 0 (some 8)]

/-- They are reported in the other order, the clock advancing in between. -/
def reportsOfTwo : List (Event ℕ) :=
  [.signal (.down 3 .stopped), .environment (.advance 1), .signal (.down 2 .stopped)]

/-- Two children of one spec, with their own arguments. -/
theorem restart_child_replaces_two :
    ∃ t, run Event.step (perform (restartChild 0) twoRunning.world) reportsOfTwo = some t ∧
      Replaced twoRunning.world 0 t.world ∧ argsOf (instances t.world 0) = {7, 8} := by
  have hrun : run step (create {} onDemand)
      [.init, .startChild 0 (some 7), .startChild 0 (some 8)] = some twoRunning :=
    run_eq_reached (by decide +kernel)
  obtain ⟨u, hstep⟩ : ∃ u, step twoRunning (.restartChild 0) = some u :=
    Option.isSome_iff_exists.mp (by decide +kernel)
  obtain ⟨x, hx, rfl⟩ := administers_of_step hstep rfl
  cases hx
  have hevents : run Event.step (perform (restartChild 0) twoRunning.world) reportsOfTwo =
      some (reached Event.step (perform (restartChild 0) twoRunning.world) reportsOfTwo) :=
    run_eq_reached (by decide +kernel)
  have h := restart_child_replaces_once ⟨by decide, fun k hk => by cases hk⟩ (Or.inr rfl) hrun
    hstep (by decide +kernel) (by decide +kernel) fun _ => hevents
  exact ⟨_, hevents, (h.1.mpr ⟨by decide +kernel, by decide +kernel⟩).2.2, by decide +kernel⟩

/-- An instance has been asked to stop by `stop_child`. -/
def oneStopping : System ℕ :=
  reached step (create {} onDemand) [.init, .startChild 0 (some 7), .stopChild 0]

/-- An instance that had been asked to stop before is replaced twice. -/
theorem restart_child_replaces_twice :
    run step (create {} onDemand) [.init, .startChild 0 (some 7), .stopChild 0] =
        some oneStopping ∧
      AllSteps Event.step (Terminates ((instances oneStopping.world 0).map Prod.fst))
        (perform (restartChild 0) oneStopping.world) [.signal (.down 2 .stopped)] ∧
      (perform (restartChild 0) oneStopping.world).raised = false ∧
      ∃ t, run Event.step (perform (restartChild 0) oneStopping.world)
          [.signal (.down 2 .stopped)] = some t ∧
        (instances oneStopping.world 0).map Prod.fst = [2] ∧
        argsOf (instances t.world 0) = {7, 7} ∧ ¬ Replaced oneStopping.world 0 t.world :=
  ⟨run_eq_reached (by decide +kernel), by decide +kernel, by decide +kernel, _,
    run_eq_reached (by decide +kernel), by decide +kernel, by decide +kernel,
    fun h => absurd h.count (by decide +kernel)⟩

end Supervisor

end Agner
