import Agner.Supervisor.Instances

/-!
A child that has been stopped or deleted by an administrative operation stays down, as long
as no group restart gets hold of it.

`stop_child` and `delete_child` write the flag `suppress_restart` of the entries in
`children_`. The plan of a group restart is a copy of entries that nobody looks up again: a
child that is in the plan of an active group comes back however it is stopped meanwhile. And
`begin_restart_group` takes a suppressed child that has not exited yet into its plan like any
other, and clears its flag.

* `instancesOf`: the instances of a spec that have ever been spawned.
* `Held`: the entries of the spec are suppressed and no active plan mentions it.
* `Elsewhere`: the steps that do not start or restart the spec themselves.
* `Unjoined`: the condition on those steps. No group restart takes a child of the spec along.
* `stopped_child_stays_down`: after `stop_child` or `delete_child`, called while no active plan
  mentions the spec, runs of such steps never spawn an instance of it.
-/

namespace Agner

open Raising Runs

namespace Supervisor

variable {Args : Type}

/-- The instances of the spec spawned so far, in order. -/
def instancesOf (w : World Args) (i : ℕ) : List (ActorRef × ℕ) :=
  w.spawned.filter fun p => decide (p.2 = i)

/-- The policy of the spec is never to restart. -/
def neverRestarted (w : World Args) (i : ℕ) : Prop :=
  restartAtSpecIndex w.specification i = .temporary

instance (w : World Args) (i : ℕ) : Decidable (neverRestarted w i) :=
  inferInstanceAs (Decidable (_ = _))

/-- No termination brings the spec back. -/
def Held (i : ℕ) (w : World Args) : Prop :=
  neverRestarted w i ∨
    (∀ k e, w.children.find? k = some e → e.specIndex = i → e.suppressRestart = true) ∧
      inPlan w i = false

/-- The spec is held, in a supervisor of static children, and the instances spawned for it
are the given ones. -/
structure HeldAt (i : ℕ) (c : List (ActorRef × ℕ)) (w : World Args) : Prop where
  held : Held i w
  instances : instancesOf w i = c
  static : w.specification.strategy ≠ .simpleOneForOne

/-! ### What keeps a spec down -/

section Keeping

variable {i : ℕ} {c : List (ActorRef × ℕ)}

/-- Removing entries, replacing entries of other specs, and changes of members that play no
part. -/
lemma HeldAt.of_sub {w w' : World Args} (h : HeldAt i c w)
    (hspec : w'.specification = w.specification) (hspawned : w'.spawned = w.spawned)
    (hplan : inPlan w i = false → inPlan w' i = false)
    (hsub : ∀ k e', w'.children.find? k = some e' → e'.specIndex = i →
      e'.suppressRestart = true ∨ ∃ e, w.children.find? k = some e ∧ e.specIndex = i ∧
        (e.suppressRestart = true → e'.suppressRestart = true)) : HeldAt i c w' := by
  obtain ⟨hheld, hcount, hstatic⟩ := h
  refine ⟨?_, by rw [instancesOf, hspawned]; exact hcount, by rw [hspec]; exact hstatic⟩
  rcases hheld with ht | ⟨hsup, hp⟩
  · exact Or.inl (by rw [neverRestarted, hspec]; exact ht)
  · refine Or.inr ⟨fun k e' he' hi => ?_, hplan hp⟩
    rcases hsub k e' he' hi with hs | ⟨e, he, hei, himp⟩
    · exact hs
    · exact himp (hsup k e he hei)

/-- The spec of an entry whose restart is due is another one. -/
lemma Held.ne_of_due {w : World Args} (h : Held i w) {k : ActorRef} {e : ChildEntry Args}
    {reason : ExitReason} (he : w.children.find? k = some e) (hsup : e.suppressRestart = false)
    (hdue : shouldRestart (restartAtSpecIndex w.specification e.specIndex) reason = true) :
    e.specIndex ≠ i := by
  intro hi
  rcases h with ht | ⟨hall, -⟩
  · rw [hi, show restartAtSpecIndex w.specification i = .temporary from ht] at hdue
    cases hdue
  · rw [hall k e he hi] at hsup
    cases hsup

/-- The spec of a plan item that is respawned is another one. -/
lemma Held.ne_of_planned {w : World Args} (h : Held i w) {g : RestartGroup Args}
    (hg : w.restartGroup = some g) {item : RestartPlanItem Args} (hitem : item ∈ g.plan)
    (hdue : shouldRestart (restartAtSpecIndex w.specification item.entry.specIndex) item.reason =
      true) : item.entry.specIndex ≠ i := by
  intro hi
  rcases h with ht | ⟨-, hplan⟩
  · rw [hi, show restartAtSpecIndex w.specification i = .temporary from ht] at hdue
    cases hdue
  · rw [(inPlan_iff hg).mpr ⟨item, hitem, hi⟩] at hplan
    cases hplan

/-- A write of the flag: it may be cleared for other specs only. -/
lemma HeldAt.setSuppress {w : World Args} (h : HeldAt i c w) (ref : ActorRef) (b : Bool)
    (hother : b = true ∨ neverRestarted w i ∨
      ∀ e, w.children.find? ref = some e → e.specIndex ≠ i) :
    HeldAt i c { w with children := w.children.modify ref fun e =>
      { e with suppressRestart := b } } := by
  by_cases ht : neverRestarted w i
  · exact ⟨Or.inl ht, h.instances, h.static⟩
  refine h.of_sub rfl rfl id fun k e' he' hi => ?_
  rw [OrdMap.find?_modify] at he'
  split at he'
  · rename_i hk
    obtain ⟨e, he, rfl⟩ := Option.map_eq_some_iff.mp he'
    rcases hother with hb | ht' | hne
    · exact Or.inl hb
    · exact absurd ht' ht
    · exact absurd hi (hne e (hk ▸ he))
  · exact Or.inr ⟨e', he', hi, id⟩

lemma requestStop_held (ref : ActorRef) :
    Preserves (HeldAt i c) (requestStop ref : SupM Args Unit) := by
  refine Preserves.get fun w h => ?_
  split
  · exact h
  · split
    · exact h
    · have hmark : ∀ sched, HeldAt i c { w with
          children := w.children.modify ref fun e => { e with stopping := true },
          sched := sched } := by
        intro sched
        refine h.of_sub rfl rfl id fun k e' he' hi => ?_
        rw [OrdMap.find?_modify] at he'
        split at he'
        · obtain ⟨e, he, rfl⟩ := Option.map_eq_some_iff.mp he'
          exact Or.inr ⟨e, he, hi, id⟩
        · exact Or.inr ⟨e', he', hi, id⟩
      rw [post_bind, post_set, schedulerStop, post_bind, post_get]
      split
      · exact post_throw.mpr (hmark w.sched)
      · exact post_set.mpr (hmark _)

lemma suppressAndStop_held (ref : ActorRef) :
    Preserves (HeldAt i c) (do setSuppress ref true; requestStop ref : SupM Args Unit) :=
  Preserves.bind (fun _ h => h.setSuppress ref true (Or.inl rfl)) fun _ => requestStop_held ref

lemma stopAndSuppressByIndex_held (index : ℕ) :
    Preserves (HeldAt i c) (stopAndSuppressByIndex index : SupM Args Unit) := by
  rw [stopAndSuppressByIndex_eq]
  exact Preserves.get fun w h => Preserves.forM (fun r _ => suppressAndStop_held r) w h

/-- Members that play no part. -/
lemma HeldAt.of_eq {w w' : World Args} (h : HeldAt i c w)
    (hspec : w'.specification = w.specification) (hspawned : w'.spawned = w.spawned)
    (hgroup : w'.restartGroup = w.restartGroup) (hchildren : w'.children = w.children) :
    HeldAt i c w' := by
  refine h.of_sub hspec hspawned (fun hp => ?_) fun k e he hi => Or.inr ⟨e, hchildren ▸ he, hi, id⟩
  rwa [inPlan, hgroup]

/-- A group that is given up. -/
lemma HeldAt.ungrouped {w : World Args} (h : HeldAt i c w) :
    HeldAt i c { w with restartGroup := none } :=
  h.of_sub rfl rfl (fun _ => rfl) fun _ e he hi => Or.inr ⟨e, he, hi, id⟩

lemma stop_held (reason : ExitReason) :
    Preserves (HeldAt i c) (stop reason : SupM Args Unit) := by
  have hbase : Preserves (HeldAt i c) (baseStop reason : SupM Args Unit) :=
    fun w h => h.of_eq rfl rfl rfl rfl
  refine Preserves.get fun w h => ?_
  split
  · exact hbase w h
  · rw [post_bind, post_set, stopAllChildren_eq]
    have hset : HeldAt i c { w with stopping := true } := h.of_eq rfl rfl rfl rfl
    refine Preserves.bind (Preserves.get fun v hv => ?_) (fun _ => Preserves.bind
      (Preserves.modify fun v hv => hv.ungrouped) fun _ => hbase) _ hset
    exact Preserves.forM (fun r _ => suppressAndStop_held r) v hv

lemma registerRestart_held : Preserves (HeldAt i c) (registerRestart : SupM Args Bool) := by
  have hstop : Preserves (HeldAt i c) (do stop .error; pure false : SupM Args Bool) :=
    (stop_held .error).bind fun _ => Preserves.pure false
  refine Preserves.get fun w h => ?_
  split
  · exact hstop w h
  · rw [post_bind, post_set]
    have hset : ∀ times, HeldAt i c { w with restartTimes := times } :=
      fun times => h.of_eq rfl rfl rfl rfl
    split
    · exact hstop _ (hset _)
    · exact hset _

/-- Starting a child of another spec. -/
lemma startChildWithArgs_held {index : ℕ} (hne : index ≠ i) (args : Args) :
    Preserves (HeldAt i c) (startChildWithArgs index args : SupM Args ActorRef) := by
  have hspawn : ∀ (w : World Args) sched, HeldAt i c w →
      HeldAt i c
        { w with sched := sched, spawned := w.spawned ++ [(w.sched.nextActorId, index)] } := by
    intro w sched h
    refine ⟨h.held, ?_, h.static⟩
    rw [instancesOf, List.filter_append, List.filter_singleton, decide_eq_false hne,
      Bool.cond_false, List.append_nil]
    exact h.instances
  have hfresh : Preserves (HeldAt i c) (startFresh index args : SupM Args ActorRef) := by
    refine Preserves.bind (Preserves.get fun w h => ?_) fun ref =>
      Preserves.bind (Preserves.modify fun w h => ?_) fun _ => Preserves.pure ref
    · rw [post_bind, post_set]
      split
      · exact post_throw.mpr (hspawn w _ h)
      · exact (hspawn w _ h).of_eq rfl rfl rfl rfl
    · refine h.of_sub rfl rfl id fun k e' he' hi => ?_
      rw [OrdMap.find?_insert] at he'
      split at he'
      · obtain rfl := Option.some.inj he'
        exact absurd hi hne
      · exact Or.inr ⟨e', he', hi, id⟩
  refine Preserves.get fun w h => ?_
  split
  · exact hfresh w h
  · split
    · exact h
    · exact hfresh w h

lemma respawnWithEntry_held {entry : ChildEntry Args} (hne : entry.specIndex ≠ i) :
    Preserves (HeldAt i c) (respawnWithEntry entry : SupM Args Unit) := by
  refine Preserves.get fun w h => ?_
  split
  · exact Preserves.bind (startChildWithArgs_held hne _) (fun _ => Preserves.pure ()) w h
  · exact h

lemma startChildByIndex_held {index : ℕ} (hne : index ≠ i) (args : Option Args) :
    Preserves (HeldAt i c) (startChildByIndex index args : SupM Args Unit) := by
  refine Preserves.get fun w h => ?_
  split
  · exact h
  · exact Preserves.bind (startChildWithArgs_held hne _) (fun _ => Preserves.pure ()) w h

lemma finalizeIfDone_held : Preserves (HeldAt i c) (finalizeIfDone : SupM Args Unit) := by
  refine Preserves.get fun w h => ?_
  split
  · exact h
  · split
    · refine Preserves.get (fun v hv => ?_) w h
      split
      · exact hv
      · rename_i g hgroup
        rw [post_bind, post_set]
        refine Preserves.forM (fun item hitem => ?_) _ hv.ungrouped
        split
        · rename_i hdue
          exact respawnWithEntry_held (hv.held.ne_of_planned hgroup hitem hdue)
        · exact Preserves.pure ()
    · exact h

/-- A world in which the spec is held and which differs from `w₀` in no spec of an entry. -/
def HeldFrom (i : ℕ) (c : List (ActorRef × ℕ)) (w₀ w : World Args) : Prop :=
  HeldAt i c w ∧ Adjusted w₀ w

/-- Clearing the flag of a child of another spec, and asking it to stop. -/
lemma clearAndStop_held {w₀ : World Args} {ref : ActorRef}
    (hother : neverRestarted w₀ i ∨ ∀ e, w₀.children.find? ref = some e → e.specIndex ≠ i) :
    Preserves (HeldFrom i c w₀) (do setSuppress ref false; requestStop ref : SupM Args Unit) := by
  refine Preserves.bind (fun w hw => ?_) fun _ w hw =>
    (requestStop_held ref w hw.1).and (requestStop_adjusts ref w hw.2)
  refine ⟨hw.1.setSuppress ref false (Or.inr ?_), setSuppress_adjusts ref false w hw.2⟩
  rw [neverRestarted, hw.2.specification]
  refine hother.imp id fun hne e he => ?_
  obtain ⟨e₀, he₀, hi⟩ := find?_of_core hw.2.core he
  rw [← hi]
  exact hne e₀ he₀

lemma stopPlan_held {w₀ : World Args} {plan : List (RestartPlanItem Args)}
    (hother : ∀ item ∈ plan, neverRestarted w₀ i ∨
      ∀ e, w₀.children.find? item.ref = some e → e.specIndex ≠ i) :
    Preserves (HeldFrom i c w₀) (stopPlan plan : SupM Args Unit) := by
  refine Preserves.forM fun item hitem => Preserves.get fun w hw => ?_
  split
  · refine Preserves.bind (fun v hv => ?_) (fun _ => clearAndStop_held (hother item hitem)) w hw
    rw [pushPendingStop, post_modify]
    refine ⟨hv.1.of_sub rfl rfl (fun hp => ?_) fun _ e he hi => Or.inr ⟨e, he, hi, id⟩,
      hv.2.trans (Adjusted.of_eq rfl rfl rfl rfl rfl)⟩
    cases hg : v.restartGroup with
    | none => simp [inPlan]
    | some g => simpa [inPlan, hg] using hp
  · exact hw

/-- A group restart that takes no child of the spec along. -/
lemma beginRestartGroup_held {w : World Args} {ref : ActorRef} {failed : ChildEntry Args}
    {reason : ExitReason} (h : HeldAt i c w)
    (hplan : neverRestarted w i ∨
      ∀ item ∈ restartPlan w ref failed reason, item.entry.specIndex ≠ i)
    (href : w.children.find? ref = none) :
    Post (beginRestartGroup ref failed reason : SupM Args Unit) w (fun _ => HeldAt i c)
      (HeldAt i c) := by
  have hstops : Preserves (HeldFrom i c w)
      (stopPlan (restartPlan w ref failed reason) : SupM Args Unit) := by
    refine stopPlan_held fun item hitem => ?_
    refine hplan.imp id fun hne e he => ?_
    rcases mem_restartPlan hitem with ⟨hr, -⟩ | hitem'
    · rw [hr, href] at he
      cases he
    · obtain rfl := Option.some.inj (hitem'.symm.trans he)
      exact hne item hitem
  rw [beginRestartGroup, post_bind, post_get]
  simp only [post_bind, post_set]
  refine Post.mono (hstops _ ⟨?_, ?_⟩) (fun _ w' hw' => finalizeIfDone_held w' hw'.1)
    fun _ hw' => hw'.1
  · refine ⟨?_, h.instances, h.static⟩
    rcases h.held with ht | ⟨hsup, -⟩
    · exact Or.inl ht
    · refine hplan.imp id fun hne => ⟨hsup, ?_⟩
      rw [inPlan, List.any_eq_false]
      intro item hitem
      simpa using hne item hitem
  · exact Adjusted.of_eq rfl rfl rfl rfl rfl

/-- A granted restart changes the restart times only. -/
lemma registerRestart_granted (w : World Args) :
    Post (registerRestart : SupM Args Bool) w
      (fun ok w' => ok = true → granted w = true ∧ w' = { w with restartTimes := windowTimes w })
      (fun _ => True) := by
  rw [registerRestart, post_bind, post_get]
  split
  · rw [post_bind]
    exact (stop_adjusts .error w (Adjusted.refl w)).mono
      (fun _ _ _ => post_pure.mpr fun hf => absurd hf (by simp)) fun _ _ => trivial
  · rename_i hmax
    rw [post_bind, post_set]
    split
    · rw [post_bind]
      have hstop : Preserves (Adjusted { w with restartTimes := windowTimes w })
          (stop .error : SupM Args Unit) := stop_adjusts .error
      exact (hstop _ (Adjusted.refl _)).mono
        (fun _ _ _ => post_pure.mpr fun hf => absurd hf (by simp)) fun _ _ => trivial
    · rename_i hlen
      refine post_pure.mpr fun _ => ⟨?_, rfl⟩
      rw [← windowTimes, not_lt] at hlen
      simp [granted, hmax, hlen]

/-- A termination, if it does not begin a group restart that takes the spec along. -/
lemma handleTermination_held {w : World Args} {ref : ActorRef} {reason : ExitReason}
    (h : HeldAt i c w)
    (hjoin : neverRestarted w i ∨ granted w = false ∨ ∀ k e, w.children.find? k = some e →
      e.specIndex = i → asksOnTermination w ref reason (k, e) = false) :
    Post (handleTermination ref reason : SupM Args Unit) w (fun _ => HeldAt i c)
      (HeldAt i c) := by
  have hdrop : HeldAt i c (dropped w ref) :=
    h.of_sub rfl rfl id fun k e he hi => Or.inr ⟨e, (find?_erase_some he).2, hi, id⟩
  rw [handleTermination, post_bind, post_get]
  split
  · -- a group is active: its plan holds no item of the spec
    rw [handleRestartGroupStop, post_bind, post_modify]
    refine finalizeIfDone_held _ (hdrop.of_sub rfl rfl (fun hp => ?_) fun k e he hi =>
      Or.inr ⟨e, he, hi, id⟩)
    have hp' : inPlan w i = false := hp
    cases hg : w.restartGroup with
    | none => simp [inPlan]
    | some g => simpa [inPlan, hg] using hp'
  · rename_i hnone
    split
    · exact post_pure.mpr h
    · rename_i failed hfailed
      rw [post_bind, post_set]
      split
      · rename_i hdue
        obtain ⟨hsup, hshould⟩ := Bool.and_eq_true_iff.mp hdue
        rw [Bool.not_eq_true'] at hsup
        have hne : failed.specIndex ≠ i := h.held.ne_of_due hfailed hsup hshould
        rw [post_bind]
        refine ((registerRestart_held (dropped w ref) hdrop).and
          (registerRestart_granted (dropped w ref))).mono (fun ok w' h' => ?_) fun _ h' => h'.1
        cases ok with
        | false => exact post_pure.mpr h'.1
        | true =>
            obtain ⟨hheld, hgr⟩ := h'
            obtain ⟨hgranted, rfl⟩ := hgr rfl
            have hgranted' : granted w = true := hgranted
            simp only [if_true]
            have hgroup (hstrat : ∀ e, takesAlong w failed e = true ↔
                  (w.specification.strategy = .restForOne → failed.startOrder < e.startOrder)) :
                Post (beginRestartGroup ref failed reason : SupM Args Unit)
                  { dropped w ref with restartTimes := windowTimes (dropped w ref) }
                  (fun _ => HeldAt i c) (HeldAt i c) := by
              refine beginRestartGroup_held hheld ?_ (OrdMap.find?_erase_self _ _)
              rcases hjoin with ht | hrefused | hapart
              · exact Or.inl ht
              · rw [hgranted'] at hrefused
                cases hrefused
              · refine Or.inr fun item hitem hi => ?_
                rcases mem_restartPlan hitem with ⟨-, he⟩ | he
                · exact hne (he ▸ hi)
                · -- the item is a child of the spec, taken along by the group
                  obtain ⟨hk, he'⟩ := find?_erase_some he
                  have hmem := (mem_restartPlan_ref hk he).mp (List.mem_map_of_mem hitem)
                  have htakes := (hstrat item.entry).mpr hmem
                  have hno := hapart item.ref item.entry he' hi
                  rw [asksOnTermination, hfailed, Option.any_some, hdue, htakes,
                    decide_eq_true hk] at hno
                  simp at hno
                  simp [hno] at hnone
            split
            · exact respawnWithEntry_held hne _ hheld
            · exact respawnWithEntry_held hne _ hheld
            · rename_i hs
              exact hgroup fun e => by simp [takesAlong, hgranted', hs]
            · rename_i hs
              exact hgroup fun e => by simp [takesAlong, hgranted', hs]
      · exact post_pure.mpr hdrop

end Keeping

/-! ### Whole runs -/

/-- The step does not start or restart the spec itself. -/
def Elsewhere (i : ℕ) (s : Life Args) : Act Args → Prop
  | .call (.startChild index _) => index ≠ i
  | .call (.restartChild index) => index ≠ i
  | .initNext => s.next ≠ i
  | _ => True

/-- The condition on steps: the signal that is received does not begin a group restart that
takes a child of the spec along. -/
def Unjoined (i : ℕ) (s : Life Args) : Act Args → Prop
  | .receive _ => neverRestarted s.world i ∨ granted s.world = false ∨
      ∀ child ∈ s.world.children.entries, child.2.specIndex = i →
        asks s.world .receive child = false
  | _ => True

instance (i : ℕ) (s : Life Args) : (a : Act Args) → Decidable (Elsewhere i s a)
  | .call (.startChild ..) => inferInstanceAs (Decidable (_ ≠ _))
  | .call (.restartChild _) => inferInstanceAs (Decidable (_ ≠ _))
  | .initNext => inferInstanceAs (Decidable (_ ≠ _))
  | .receive _ | .crash | .leave | .call .init | .call (.exit ..) | .call (.spawn ..)
  | .call (.link ..) | .call (.monitor ..) | .call (.advance _) | .call .receive
  | .call (.stopChild _) | .call (.deleteChild _) | .call (.stop _) => isTrue trivial

instance (i : ℕ) (s : Life Args) : (a : Act Args) → Decidable (Unjoined i s a)
  | .receive _ => inferInstanceAs (Decidable (_ ∨ _ ∨ ∀ child ∈ s.world.children.entries, _ → _))
  | .call _ | .initNext | .crash | .leave => isTrue trivial

section Holding

variable {i : ℕ} {c : List (ActorRef × ℕ)}

lemma superviseVisitor_held {s : Life Args} {sg : Signal} {rest : List Signal} {d : Bool}
    (h : HeldAt i c s.world) (hbox : s.world.mailbox = sg :: rest)
    (hok : Unjoined i s (.receive d)) :
    Post (superviseVisitor sg : SupM Args Unit) (popped s.world) (fun _ => HeldAt i c)
      (HeldAt i c) := by
  have hpop : HeldAt i c (popped s.world) := h.of_eq rfl rfl rfl rfl
  refine superviseVisitor_cases (fun _ _ => hpop.of_eq rfl rfl rfl rfl) (fun _ => hpop)
    fun hvalid => ?_
  refine handleTermination_held hpop (hok.imp id (Or.imp id fun hall k e he hi => ?_))
  have hasks := hall (k, e) (OrdMap.mem_entries_iff.mpr he) hi
  simp only [asks, hbox, List.head?_cons, Option.any_some, hvalid, Bool.true_and] at hasks
  exact hasks

/-- `restart_child` of another static spec. -/
lemma restartChild_held {w : World Args} (h : HeldAt i c w) {index : ℕ} (hne : index ≠ i) :
    Post (restartChild index : SupM Args Unit) w (fun _ => HeldAt i c) (HeldAt i c) := by
  rw [restartChild, post_bind, post_get]
  have hclear : ∀ ref e, w.children.find? ref = some e → e.specIndex = index →
      ∀ v, HeldFrom i c w v → ∀ e', v.children.find? ref = some e' → e'.specIndex ≠ i := by
    intro ref e he hi v hv e' he'
    obtain ⟨e₀, he₀, hi₀⟩ := find?_of_core hv.2.core he'
    obtain rfl := Option.some.inj (he.symm.trans he₀)
    rw [← hi₀, hi]
    exact hne
  refine Post.mono (Preserves.bind (P := HeldFrom i c w) (Preserves.forM fun ref href v hv => ?_)
    (fun _ => Preserves.forM fun ref href => Preserves.get fun v hv => ?_) w
    ⟨h, Adjusted.refl w⟩) (fun _ _ hw' => hw'.1) fun _ hw' => hw'.1
  · obtain ⟨e, he, hi⟩ := mem_refs_of_spec.mp href
    exact ⟨hv.1.setSuppress ref false (Or.inr (Or.inr (hclear ref e he hi v hv))),
      setSuppress_adjusts ref false v hv.2⟩
  · obtain ⟨e, he, hi⟩ := mem_refs_of_spec.mp href
    split
    · exact hv
    · split
      · refine clearAndStop_held (Or.inr fun e' he' => ?_) v hv
        obtain rfl := Option.some.inj (he.symm.trans he')
        rw [hi]
        exact hne
      · have hchild : hasChild v index = true :=
          hasChild_adjusted hv.2 (hasChild_iff.mpr ⟨ref, e, he, hi⟩)
        rw [post_bind, startChildWithArgs, post_bind, post_get,
          if_neg hv.1.static]
        split
        · exact hv
        · rename_i hnone
          rw [findRunningChildForSpec_eq_none, hchild] at hnone
          cases hnone

lemma HeldAt.call {s : Life Args} {u : System Args} {l : Label Args} (h : HeldAt i c s.world)
    (hl : (l.administrative || l.environment) = true)
    (hu : step { world := s.world } l = some u) (hok : Elsewhere i s (.call l)) :
    HeldAt i c u.world := by
  by_cases henv : l.environment = true
  · obtain ⟨sched, now, rfl⟩ := environment_members hu henv
    exact h.of_eq rfl rfl rfl rfl
  have hadmin : l.administrative = true := by simpa [henv] using hl
  obtain ⟨x, hx, rfl⟩ := administers_of_step hu hadmin
  cases hx with
  | startChild index args hlt =>
      exact perform_preserves (startChildByIndex_held hok args _ h)
  | stopChild index =>
      exact perform_preserves (stopAndSuppressByIndex_held index _ h)
  | restartChild index =>
      exact perform_preserves (restartChild_held h hok)
  | deleteChild index =>
      refine perform_preserves ?_
      rw [deleteChild, post_bind]
      refine (stopAndSuppressByIndex_held index _ h).mono (fun _ w' h' => ?_) fun _ => id
      rw [post_modify]
      refine h'.of_sub rfl rfl id fun k e he hi => ?_
      exact Or.inr ⟨e, OrdMap.find?_of_filter he, hi, id⟩
  | stop reason =>
      exact perform_preserves (stop_held reason _ h)

lemma HeldAt.removed {s : Life Args} (h : HeldAt i c s.world) (reason : ExitReason) :
    HeldAt i c (s.removed reason).world := h.of_eq rfl rfl rfl rfl

lemma HeldAt.step {s t : Life Args} {a : Act Args} (h : HeldAt i c s.world)
    (helse : Elsewhere i s a) (hok : Unjoined i s a) (hstep : s.step a = some t) :
    HeldAt i c t.world := by
  have hvisitor : ∀ {d sg rest}, a = .receive d → s.world.mailbox = sg :: rest →
      HeldAt i c (perform (superviseVisitor sg) (popped s.world)).world := by
    rintro d sg rest rfl hbox
    exact perform_preserves (superviseVisitor_held h hbox hok)
  have hinit : s.next ≠ i →
      HeldAt i c (perform (startChildByIndex s.next none) s.world).world :=
    fun hne => perform_preserves (startChildByIndex_held hne none _ h)
  cases (Life.step_cases hstep).2 with
  | call hl hu => exact h.call hl hu helse
  | initEnds hphase hdone => exact h.of_eq rfl rfl rfl rfl
  | initStarts hphase hs hlt hu hr => exact hu ▸ hinit helse
  | initRaises hlt hu hr =>
      rw [hu]
      exact HeldAt.removed (s := { s with world := _ }) (hinit helse) _
  | handles halive hphase hbox hu hr => exact hu ▸ hvisitor rfl hbox
  | sticks hbox hu hr => exact hu ▸ hvisitor rfl hbox
  | raises halive hbox hu hr =>
      rw [hu]
      exact HeldAt.removed (s := { s with world := _ }) (hvisitor rfl hbox) _
  | crashes halive => exact h.removed _
  | leaves halive hphase => exact h.removed _

end Holding

/-- `stop_and_suppress_by_index` holds the spec, unless the plan of an active group mentions
it. -/
lemma stopAndSuppressByIndex_holds {w : World Args} {i : ℕ}
    (hstatic : w.specification.strategy ≠ .simpleOneForOne)
    (hplan : neverRestarted w i ∨ inPlan w i = false) :
    Post (stopAndSuppressByIndex i : SupM Args Unit) w
      (fun _ w' => HeldAt i (instancesOf w' i) w') (fun _ => True) := by
  have hkeep : Post (stopAndSuppressByIndex i : SupM Args Unit) w
      (fun _ w' => w'.specification = w.specification ∧ w'.restartGroup = w.restartGroup)
      (fun w' => w'.specification = w.specification ∧ w'.restartGroup = w.restartGroup) := by
    rw [stopAndSuppressByIndex_eq, post_bind, post_get]
    exact Preserves.forM (fun r _ => suppressAndStop_keeps
      (P := fun w' => w'.specification = w.specification ∧ w'.restartGroup = w.restartGroup)
      r true fun _ _ _ h => h) w ⟨rfl, rfl⟩
  refine ((stopAndSuppressByIndex_quells w i).and hkeep).mono ?_ fun _ _ => trivial
  rintro _ w' ⟨hquelled, hspec, hgroup⟩
  refine ⟨hplan.imp (fun ht => ?_) fun hp => ⟨fun k e he hi => (hquelled k e he hi).2, ?_⟩, rfl,
    by rw [hspec]; exact hstatic⟩
  · rw [neverRestarted, hspec]
    exact ht
  · rw [inPlan, hgroup]
    exact hp

lemma held_of_stop {w : World Args} {u : System Args} {i : ℕ} {l : Label Args}
    (hl : l = .stopChild i ∨ l = .deleteChild i) (hu : step { world := w } l = some u)
    (hr : u.raised = false) (hstatic : w.specification.strategy ≠ .simpleOneForOne)
    (hplan : neverRestarted w i ∨ inPlan w i = false) :
    HeldAt i (instancesOf u.world i) u.world := by
  have hholds := stopAndSuppressByIndex_holds hstatic hplan
  have hdelete : Post (deleteChild i : SupM Args Unit) w
      (fun _ w' => HeldAt i (instancesOf w' i) w') (fun _ => True) := by
    rw [deleteChild, post_bind]
    refine hholds.mono (fun _ w' h => ?_) fun _ => id
    rw [post_modify]
    refine h.of_sub rfl rfl id fun k e he hi => ?_
    exact Or.inr ⟨e, OrdMap.find?_of_filter he, hi, id⟩
  have hperform : ∀ {x : SupM Args Unit}, u = perform x w →
      Post x w (fun _ w' => HeldAt i (instancesOf w' i) w') (fun _ => True) →
      HeldAt i (instancesOf u.world i) u.world := by
    rintro x rfl hx
    exact post_of_perform hx hr
  rcases hl with rfl | rfl
  · obtain ⟨x, hx, hux⟩ := administers_of_step hu rfl
    cases hx
    exact hperform hux hholds
  · obtain ⟨x, hx, hux⟩ := administers_of_step hu rfl
    cases hx
    exact hperform hux hdelete

/-- After `stop_child` or `delete_child` has returned, in any state of a supervisor with a
static strategy in which no active plan mentions the spec (or its policy is never to
restart), no run of steps that neither start it nor take it along in a group restart spawns
an instance of it. -/
theorem stopped_child_stays_down {s : Life Args} {i : ℕ} {l : Label Args} {u : System Args}
    (hstatic : s.world.specification.strategy ≠ .simpleOneForOne)
    (hl : l = .stopChild i ∨ l = .deleteChild i)
    (hcall : step { world := s.world } l = some u) (hreturns : u.raised = false)
    (hplan : neverRestarted s.world i ∨ inPlan s.world i = false)
    {later : List (Act Args)} {t : Life Args}
    (hlater : run Life.step { s with world := u.world } later = some t)
    (helse : AllSteps Life.step (Elsewhere i) { s with world := u.world } later)
    (hok : AllSteps Life.step (Unjoined i) { s with world := u.world } later) :
    instancesOf t.world i = instancesOf u.world i := by
  have hheld := held_of_stop hl hcall hreturns hstatic hplan
  have hboth := helse.and hok
  exact (invariant (P := fun s : Life Args => HeldAt i (instancesOf u.world i) s.world)
    (fun _ _ _ h hc hstep => h.step hc.1 hc.2 hstep) hheld hboth hlater).instances

/-- The second child is stopped, exits, and is gone before the first one fails. -/
def stoppedAndGone : List (Act Unit) :=
  [.call (.exit 3 .stopped), .receive true, .call (.exit 2 .error), .receive true]

/-- A supervisor that has started two permanent children. -/
def initialized : Life Unit :=
  reached Life.step (Life.create {} twoPermanent) [.initNext, .initNext, .initNext]

/-- The supervisor after the second child has been stopped. -/
def secondStopped : System Unit :=
  (step { world := initialized.world } (.stopChild 1)).getD { world := initialized.world }

lemma secondStopped_step :
    step { world := initialized.world } (.stopChild 1) = some secondStopped := by
  have hsome : (step { world := initialized.world } (.stopChild 1)).isSome = true := by
    decide +kernel
  obtain ⟨u, hu⟩ := Option.isSome_iff_exists.mp hsome
  rw [secondStopped, hu, Option.getD_some]

/-- The other children come back, and the one that was stopped does not. -/
theorem stopped_child_stays_down_gone :
    ∃ t, run Life.step { initialized with world := secondStopped.world } stoppedAndGone = some t ∧
      t.world.spawned = [(2, 0), (3, 1), (4, 0)] ∧
      instancesOf t.world 1 = instancesOf secondStopped.world 1 :=
  have hrun := run_eq_reached (by decide +kernel)
  ⟨_, hrun, by decide +kernel, stopped_child_stays_down (by decide +kernel) (Or.inl rfl)
    secondStopped_step (by decide +kernel) (Or.inr (by decide +kernel)) hrun
    (by decide +kernel) (by decide +kernel)⟩

/-- The second child is stopped, and before it has exited the first one fails: the group
restart brings both back. -/
theorem stopped_child_comes_back :
    ∃ t, run Life.step (Life.create {} twoPermanent) [.initNext, .initNext, .initNext,
        .call (.stopChild 1), .call (.exit 2 .error), .receive true, .call (.exit 3 .stopped),
        .receive true] = some t ∧ instancesOf t.world 1 = [(3, 1), (5, 1)] :=
  ⟨_, run_eq_reached (by decide +kernel), by decide +kernel⟩

end Supervisor

end Agner
