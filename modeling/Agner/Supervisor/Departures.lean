import Agner.Supervisor.Family

/-!
Asking children to stop that may have exited.

An exit takes the child out of the registry first; its down signal is sent later, after the exit
signals to the actors linked with it, and may then wait in the supervisor's mailbox, or never be
sent at all. Until the supervisor has handled it the child is in `children_`, and asking it to stop
raises `std::out_of_range`.

* `Family.Clear`: the condition on steps: no child that is about to be asked, and has not been asked
  before, has a down signal that is still to be handled.
* `Ready`: the children that an operation is going to ask are registered.
* `stopping_departed_children_raises`: in runs of such steps no operation raises.
-/

namespace Agner

open Raising Runs

namespace Supervisor

variable {Args : Type}

/-! ### The condition on steps -/

/-- The operation asks this child to stop, unless it has been asked before. -/
def Operation.asks (w : World Args) : Operation Args → ActorRef × ChildEntry Args → Bool
  | .startChild .., _ => false
  | .stopChild index, child | .restartChild index, child | .deleteChild index, child =>
      decide (child.2.specIndex = index)
  | .stop _, _ => !w.stopping

/-- The same for a step. -/
def Deed.asks (w : World Args) : Deed Args → ActorRef × ChildEntry Args → Bool
  | .call op _, child => op.asks w child
  | .receive .., child => Supervisor.asks w .receive child
  | _, _ => false

namespace Family

/-- No child that is about to be asked to stop has a down signal that is still to be handled. -/
def Present (s : Family Args) (d : Deed Args) : Prop :=
  ∀ child ∈ s.world.children.entries, child.2.stopping = false →
    d.asks s.world child = true → ¬ Unhandled s.unsent s.world child.1

/-- No operation is called from code inside another one, no restart is refused, and nobody is
asked to stop who has left. -/
def Clear (s : Family Args) (d : Deed Args) : Prop :=
  d.foreign = true ∧ (d.receives = true → refuses s.world = false) ∧ s.Present d

instance (s : Family Args) (d : Deed Args) : Decidable (s.Present d) :=
  inferInstanceAs (Decidable (∀ child ∈ s.world.children.entries, _ → _ → ¬ _))

instance (s : Family Args) (d : Deed Args) : Decidable (s.Clear d) :=
  inferInstanceAs (Decidable (_ ∧ (_ → _) ∧ _))

/-- The children that a step asks are registered. -/
lemma Present.registered {s : Family Args} {d : Deed Args} (h : s.Present d)
    (hknown : Known s.unsent s.world) {k : ActorRef} {e : ChildEntry Args}
    (he : s.world.children.find? k = some e) (ha : d.asks s.world (k, e) = true)
    (hst : e.stopping = false) : s.world.registered k = true := by
  by_contra hreg
  rw [Bool.not_eq_true] at hreg
  exact h (k, e) (OrdMap.mem_entries_iff.mpr he) hst ha
    (hknown.reported k (OrdMap.contains_iff.mpr ⟨e, he⟩) hreg)

end Family

/-! ### Children that are about to be asked -/

/-- The children in `S` that have not been asked are registered, and those in `H` are still in
`children_`. -/
structure Ready (unsent : List (ActorRef × Signal)) (S H : ActorRef → Prop) (w : World Args) : Prop
    extends Known unsent w where
  due : ∀ k e, S k → w.children.find? k = some e → e.stopping = false → w.registered k = true
  has : ∀ k, H k → w.children.contains k = true

variable {unsent : List (ActorRef × Signal)} {S H : ActorRef → Prop} {w w' : World Args}

/-- A child that has not been asked has not been asked before. -/
lemma Ready.adapts (h : Ready unsent S H w) (ha : Adapts w w')
    (hflag : ∀ k e', w'.children.find? k = some e' → e'.stopping = false →
      ∃ e, w.children.find? k = some e ∧ e.stopping = false) : Ready unsent S H w' where
  toKnown := h.toKnown.adapts ha
  due k e' hk he' hst := by
    obtain ⟨e, he, hst⟩ := hflag k e' he' hst
    rw [ha.registered k (h.child (OrdMap.contains_iff.mpr ⟨e, he⟩)).1]
    exact h.due k e hk he hst
  has k hk := (contains_of_core ha.core k).trans (h.has k hk)

lemma Ready.modify (h : Ready unsent S H w) (ref : ActorRef)
    (f : ChildEntry Args → ChildEntry Args) (hf : ∀ e, (f e).core = e.core)
    (hstop : ∀ e, (f e).stopping = false → e.stopping = false) :
    Ready unsent S H { w with children := w.children.modify ref f } := by
  refine h.adapts (Adapts.modify w ref f hf) fun k e' he' hst => ?_
  rw [OrdMap.find?_modify] at he'
  split at he'
  · obtain ⟨e, he, rfl⟩ := Option.map_eq_some_iff.mp he'
    exact ⟨e, he, hstop e hst⟩
  · exact ⟨e', he', hst⟩

lemma Ready.started (h : Ready unsent S H w) (index : ℕ) (args : Args) :
    Ready unsent S H (started w index args) where
  toKnown := h.toKnown.started index args
  due k e hk he hst := by
    have hfind := (OrdMap.find?_insert w.children w.sched.nextActorId k _).symm.trans he
    rw [started_registered]
    split at hfind
    · rename_i heq
      simp [heq]
    · rw [h.due k e hk hfind hst, Bool.or_true]
  has k hk := (OrdMap.contains_insert _ _ _ _).trans (by rw [h.has k hk, Bool.or_true])

lemma stable_ready : Stable (Ready unsent S H : World Args → Prop) := fun w _ hl h =>
  h.adapts (Adapts.taken w hl) fun _ e he hst => ⟨e, taken_children w hl ▸ he, hst⟩

section Ready

variable {inner : Site → Code Args} {E : Exception → Prop}

lemma robust_ready (hforeign : Foreign inner) : Robust inner (Ready unsent S H) where
  suppress ref _ := Preserves.modify fun _ h => h.modify ref _ (fun _ => rfl) fun _ => id
  requestStop := requestStop_preserves hforeign stable_ready
    (fun _ ref h => h.modify ref _ (fun _ => rfl) fun _ hst => by cases hst)
    fun w ref h => h.adapts (Adapts.send w ref .stopped) fun _ e he hst => ⟨e, he, hst⟩
  startFresh := startFresh_preserves hforeign stable_ready (fun _ h => h.registered_self)
    fun _ index args h => h.started index args
  group _ _ h := h.adapts (Adapts.of_eq rfl rfl rfl rfl rfl) fun _ e he hst => ⟨e, he, hst⟩

/-- A restart that is granted is recorded. -/
lemma Reacting.registerRestart_granted (h : granted w = true) :
    (Reacting.registerRestart inner).run w = .ok true { w with restartTimes := windowTimes w } := by
  rw [granted, Bool.and_eq_true, decide_eq_true_eq, decide_eq_true_eq] at h
  have hlen : ¬ w.specification.intensity.maxRestarts < (windowTimes w).length := not_lt.mpr h.2
  rw [windowTimes] at hlen
  rw [Reacting.registerRestart, EStateM.run_bind, EStateM.run_get]
  simp only [if_neg h.1, EStateM.run_bind, EStateM.run_set, if_neg hlen, EStateM.run_pure]
  rfl

lemma Reacting.post_registerRestart (h : granted w = true) {Q : Bool → World Args → Prop}
    {R : World Args → Prop} : Post (Reacting.registerRestart inner) w Q R ↔
      Q true { w with restartTimes := windowTimes w } := by
  rw [Post, Reacting.registerRestart_granted h]

/-- Asking a child of `children_` that is registered, unless it has been asked before, raises
nothing but what the code of others raises. -/
lemma suppressAndStop_throws (hcode : ∀ site v, Throws E (inner site).run v) {ref : ActorRef}
    (b : Bool) (hc : w.children.contains ref = true)
    (hr : ∀ e, w.children.find? ref = some e → e.stopping = false → w.registered ref = true) :
    Throws E (do setSuppress ref b; Reacting.requestStop inner ref : SupM Args Unit) w := by
  obtain ⟨e, he⟩ := OrdMap.contains_iff.mp hc
  refine throws_modify.bind (P := fun _ v => v = _) (R := fun _ => True) rfl ?_
  rintro _ _ rfl
  rw [Reacting.requestStop, throws_get]
  simp only [OrdMap.find?_modify, if_true, he, Option.map_some]
  split
  · exact throws_pure
  · rename_i hst
    refine throws_set.bind (P := fun _ v => v = _) (R := fun _ => True) rfl ?_
    rintro _ _ rfl
    rw [Reacting.schedulerStop, throws_get]
    have hreg : w.sched.actors.contains ref = true := hr e he (by simpa using hst)
    simp only [hreg, if_true]
    exact (hcode _ _).bind_any fun _ _ => throws_modify.bind_any fun _ _ => hcode _ _

section Starting

variable (hforeign : Foreign inner)
  (hconstruct : ∀ order v, Throws E (inner (.constructing order)).run v)

include hforeign hconstruct

/-- Starting a child raises nothing but what its constructor raises. -/
lemma startChildWithArgs_throws (h : Known unsent w) (index : ℕ) (args : Args) :
    Throws E (Reacting.startChildWithArgs inner index args) w := by
  have hfresh : Throws E (Reacting.startFresh inner index args) w := by
    refine throws_get.mpr ((hconstruct _ w).bind_preserves
      (Code.preserves (stable_known unsent) (hforeign _)) h fun _ v hv => ?_)
    rw [Throws, startFresh_run hv.registered_self]
    trivial
  refine throws_get.mpr ?_
  split
  · exact hfresh
  · split
    · exact throws_pure
    · exact hfresh

lemma respawnWithEntry_throws (h : Known unsent w) (entry : ChildEntry Args) :
    Throws E (Reacting.respawnWithEntry inner entry) w := by
  refine throws_get.mpr ?_
  split
  · exact (startChildWithArgs_throws hforeign hconstruct h _ _).bind_any fun _ _ => throws_pure
  · exact throws_pure

lemma startChildByIndex_throws (h : Known unsent w) (index : ℕ) (args : Option Args) :
    Throws E (Reacting.startChildByIndex inner index args) w := by
  refine throws_get.mpr ?_
  split
  · exact throws_pure
  · exact (startChildWithArgs_throws hforeign hconstruct h _ _).bind_any fun _ _ => throws_pure

lemma finalizeIfDone_throws (h : Known unsent w) :
    Throws E (Reacting.finalizeIfDone inner) w := by
  have hP : Robust inner (Known unsent) := robust_known hforeign unsent
  refine throws_get.mpr ?_
  split
  · exact throws_pure
  · split
    · refine throws_get.mpr ?_
      split
      · exact throws_pure
      · refine throws_set.bind (P := fun _ => Known unsent) (R := fun _ => True)
          (hP.group w none h) fun _ v hv => ?_
        refine throws_forM (P := Known unsent) (fun item _ => ?_) (fun item _ u hu => ?_) hv
        · split
          · exact hP.respawnWithEntry _
          · exact Preserves.pure ()
        · split
          · exact respawnWithEntry_throws hforeign hconstruct hu _
          · exact throws_pure
    · exact throws_pure

end Starting

/-! ### Operations on children that are registered -/

section Asking

variable (hforeign : Foreign inner) (hcode : ∀ site v, Throws E (inner site).run v)

include hforeign hcode

/-- A sweep over children that are ready to be asked. -/
lemma sweep_throws {l : List (ActorRef × ChildEntry Args)} (h : Ready unsent S H w)
    (hl : ∀ child ∈ l, S child.1 ∧ H child.1) (b : Bool) :
    Throws E (l.forM fun child =>
      (do setSuppress child.1 b; Reacting.requestStop inner child.1 : SupM Args Unit)) w := by
  refine throws_forM (P := Ready unsent S H)
    (fun child _ => (robust_ready hforeign).suppressAndStop child.1 b) (fun child hc v hv => ?_) h
  exact suppressAndStop_throws hcode b (hv.has _ (hl child hc).2)
    fun e he hst => hv.due _ e (hl child hc).1 he hst

/-- The children of a spec are asked. -/
lemma stopAndSuppressByIndex_throws {index : ℕ} (h : Known unsent w)
    (hready : ∀ k e, w.children.find? k = some e → e.specIndex = index → e.stopping = false →
      w.registered k = true) :
    Throws E (Reacting.stopAndSuppressByIndex inner index) w := by
  refine throws_get.mpr ?_
  rw [forM_ite]
  refine sweep_throws hforeign hcode (S := fun k => ∃ e, w.children.find? k = some e ∧
    e.specIndex = index) (H := fun k => w.children.contains k = true) ⟨h, ?_, fun _ => id⟩ ?_ true
  · rintro k e ⟨e', he', hi⟩ he hst
    obtain rfl := Option.some.inj (he.symm.trans he')
    exact hready k e he hi hst
  · intro child hc
    obtain ⟨hc, hi⟩ := List.mem_filter.mp hc
    have he := OrdMap.mem_entries_iff.mp hc
    exact ⟨⟨child.2, he, of_decide_eq_true hi⟩, OrdMap.contains_iff.mpr ⟨child.2, he⟩⟩

lemma stop_throws (reason : ExitReason) (h : Known unsent w)
    (hready : w.stopping = false → ∀ k e, w.children.find? k = some e → e.stopping = false →
      w.registered k = true) :
    Throws E (Reacting.stop inner reason) w := by
  refine throws_get.mpr ?_
  split
  · exact throws_modify
  · rename_i hst
    refine throws_set.bind (P := fun _ v => v = { w with stopping := true })
      (R := fun _ => True) rfl ?_
    rintro _ _ rfl
    refine Throws.bind_any ?_ fun _ _ => throws_modify.bind_any fun _ _ => throws_modify
    have hk := (h.adapts (Adapts.of_eq rfl rfl rfl rfl rfl) : Known unsent
      { w with stopping := true })
    refine sweep_throws hforeign hcode (S := fun _ => True)
      (H := fun k => w.children.contains k = true)
      ⟨hk, fun k e _ he hs => hready (by simpa using hst) k e he hs, fun _ => id⟩ ?_ true
    exact fun child hc => ⟨trivial,
      OrdMap.contains_iff.mpr ⟨child.2, OrdMap.mem_entries_iff.mp hc⟩⟩

/-- The loop over the plan of a group restart asks only who is still in `children_`. -/
lemma stopPlan_throws {plan : List (RestartPlanItem Args)} (h : Known unsent w)
    (hready : ∀ k e, k ∈ plan.map RestartPlanItem.ref → w.children.find? k = some e →
      e.stopping = false → w.registered k = true) :
    Throws E (Reacting.stopPlan inner plan) w := by
  have hP : Robust inner (Ready unsent (fun k => k ∈ plan.map RestartPlanItem.ref)
      fun _ => False) := robust_ready hforeign
  refine throws_forM (P := Ready unsent (fun k => k ∈ plan.map RestartPlanItem.ref)
    fun _ => False) (fun item _ => Preserves.get fun v hv => ?_) (fun item hitem v hv => ?_)
    ⟨h, hready, fun _ => False.elim⟩
  · split
    · exact Preserves.bind (Preserves.modify fun u hu => hP.group u _ hu)
        (fun _ => hP.suppressAndStop item.ref false) v hv
    · exact hv
  · rw [throws_get]
    split
    · rename_i hc
      refine throws_modify.bind (P := fun _ u => u.children = v.children ∧ u.sched = v.sched)
        (R := fun _ => True) ⟨rfl, rfl⟩ fun _ u hu => ?_
      refine suppressAndStop_throws hcode false (hu.1 ▸ hc) fun e he hst => ?_
      rw [World.registered, hu.2]
      exact hv.due _ e (List.mem_map_of_mem hitem) (hu.1 ▸ he) hst
    · exact throws_pure

/-- A group restart asks the siblings that `mem_restartPlan_ref` names. -/
lemma beginRestartGroup_throws {ref : ActorRef} (failed : ChildEntry Args) (reason : ExitReason)
    (h : Known unsent w) (href : w.children.find? ref = none)
    (hready : ∀ k e, w.children.find? k = some e →
      (w.specification.strategy = .restForOne → failed.startOrder < e.startOrder) →
      e.stopping = false → w.registered k = true) :
    Throws E (Reacting.beginRestartGroup inner ref failed reason) w := by
  have hP : Robust inner (Known unsent) := robust_known hforeign unsent
  have hset : ∀ g, Known unsent { w with restartGroup := g } := fun g => hP.group w g h
  refine throws_get.mpr (throws_set.bind (P := fun _ v => v = _) (R := fun _ => True) rfl ?_)
  rintro _ _ rfl
  refine (stopPlan_throws hforeign hcode (hset _) fun k e hk he hst => ?_).bind_preserves
    (hP.stopPlan _) (hset _) fun _ v hv => finalizeIfDone_throws hforeign (fun _ => hcode _) hv
  have hne : k ≠ ref := by
    rintro rfl
    rw [href] at he
    cases he
  exact hready k e he ((mem_restartPlan_ref hne he).mp hk) hst

/-- A termination whose restart, if it is due, is granted. -/
lemma handleTermination_throws {ref : ActorRef} {reason : ExitReason}
    (h : Known unsent (dropped w ref))
    (hgranted : ∀ v, registersIn w ref reason = some v → granted v = true)
    (hready : ∀ k e, w.children.find? k = some e → asksOnTermination w ref reason (k, e) = true →
      e.stopping = false → w.registered k = true) :
    Throws E (Reacting.handleTermination inner ref reason) w := by
  have hP : Robust inner (Known unsent) := robust_known hforeign unsent
  refine throws_get.mpr ?_
  by_cases hgroup : w.restartGroup.isSome = true
  · rw [if_pos hgroup]
    refine throws_modify.bind (P := fun _ => Known unsent) (R := fun _ => True) ?_
      fun _ v hv => finalizeIfDone_throws hforeign (fun _ => hcode _) hv
    exact hP.group _ _ h
  rw [if_neg hgroup]
  cases he : w.children.find? ref with
  | none => exact throws_pure
  | some failed =>
      refine throws_set.bind (P := fun _ v => v = dropped w ref) (R := fun _ => True) rfl ?_
      rintro _ _ rfl
      by_cases hdue : (!failed.suppressRestart &&
          shouldRestart (restartAtSpecIndex w.specification failed.specIndex) reason) = true
      · -- the restart is granted, so only stopping the siblings can raise
        rw [if_pos hdue]
        have hg : granted (dropped w ref) = true := hgranted _ (by
          rw [registersIn, if_neg hgroup]
          simp only [he, hdue, if_true])
        have hrun : (Reacting.registerRestart inner).run (dropped w ref) = _ :=
          Reacting.registerRestart_granted hg
        have hk : Known unsent { dropped w ref with restartTimes := windowTimes (dropped w ref) } :=
          h.adapts (Adapts.of_eq rfl rfl rfl rfl rfl)
        have hasks : ∀ k e, (dropped w ref).children.find? k = some e →
            takesAlong w failed e = true → e.stopping = false → w.registered k = true := by
          intro k e hke ht hst
          obtain ⟨hne, hke⟩ := find?_erase_some hke
          refine hready k e hke ?_ hst
          simp [asksOnTermination, hne, he, ht, hdue, by simpa using hgroup]
        have hgranted' : granted w = true := hg
        rw [Throws, EStateM.run_bind, hrun]
        simp only [if_true]
        cases hstrat : w.specification.strategy with
        | oneForOne => exact respawnWithEntry_throws hforeign (fun _ => hcode _) hk failed
        | simpleOneForOne => exact respawnWithEntry_throws hforeign (fun _ => hcode _) hk failed
        | oneForAll =>
            refine beginRestartGroup_throws hforeign hcode failed reason hk
              (OrdMap.find?_erase_self _ _) fun k e hke _ hst => hasks k e hke ?_ hst
            rw [takesAlong, if_pos hgranted', hstrat]
        | restForOne =>
            refine beginRestartGroup_throws hforeign hcode failed reason hk
              (OrdMap.find?_erase_self _ _) fun k e hke hlater hst => hasks k e hke ?_ hst
            rw [takesAlong, if_pos hgranted', hstrat]
            exact decide_eq_true (hlater hstrat)
      · rw [if_neg hdue]
        exact throws_pure

/-- One round of `supervise_loop`. -/
lemma superviseVisitor_throws {sg : Signal} {rest : List Signal} (h : Known unsent w)
    (hbox : w.mailbox = sg :: rest) (hrefuses : refuses w = false)
    (hready : ∀ k e, w.children.find? k = some e → asks w .receive (k, e) = true →
      e.stopping = false → w.registered k = true) :
    Throws E (Reacting.superviseVisitor inner sg) (popped w) := by
  have hgranted : ∀ v, signalRegistersIn (popped w) sg = some v → granted v = true := by
    intro v hv
    simpa [refuses, hbox, hv] using hrefuses
  have hsignal : (∀ v, (if sg.source.valid then registersIn (popped w) sg.source sg.reason
      else none) = some v → granted v = true) →
      Throws E (Reacting.handleSignal inner sg.source sg.reason) (popped w) := by
    intro hg
    rw [Reacting.handleSignal]
    split
    · rename_i hvalid
      refine handleTermination_throws hforeign hcode (h.pop hbox) (fun v hv => hg v ?_)
        fun k e he hask hst => ?_
      · rw [if_pos hvalid, hv]
      · rw [popped_registered]
        refine hready k e he ?_ hst
        simp only [asks, hbox, List.head?_cons, Option.any_some, hvalid, Bool.true_and]
        exact hask
    · exact throws_pure
  refine throws_get.mpr ?_
  cases sg with
  | down source reason => exact hsignal hgranted
  | exit source reason =>
      simp only
      split
      · exact throws_set
      · rename_i hown
        refine hsignal fun v hv => hgranted v ?_
        rw [signalRegistersIn, if_neg hown]
        exact hv

lemma restartChild_throws {index : ℕ} (h : Known unsent w)
    (hready : ∀ k e, w.children.find? k = some e → e.specIndex = index → e.stopping = false →
      w.registered k = true) :
    Throws E (Reacting.restartChild inner index) w := by
  refine throws_get.mpr ?_
  set refs := (w.children.entries.filter fun child =>
    decide (child.2.specIndex = index)).map Prod.fst with hrefs
  have hmem : ∀ k, k ∈ refs → ∃ e, w.children.find? k = some e ∧ e.specIndex = index :=
    fun k hk => mem_refs_of_spec.mp hk
  have hP : Robust inner (Ready unsent (fun k => k ∈ refs) fun k => k ∈ refs) :=
    robust_ready hforeign
  have hstart : Ready unsent (fun k => k ∈ refs) (fun k => k ∈ refs) w := by
    refine ⟨h, fun k e hk he hst => ?_, fun k hk => ?_⟩
    · obtain ⟨e', he', hi⟩ := hmem k hk
      obtain rfl := Option.some.inj (he.symm.trans he')
      exact hready k e he hi hst
    · obtain ⟨e, he, -⟩ := hmem k hk
      exact OrdMap.contains_iff.mpr ⟨e, he⟩
  refine (throws_forM (fun ref _ => hP.suppress ref false) (fun _ _ _ _ => throws_modify)
    hstart).bind_preserves (Preserves.forM fun ref _ => hP.suppress ref false) hstart
    fun _ v hv => ?_
  refine throws_forM (P := Ready unsent (fun k => k ∈ refs) fun k => k ∈ refs)
    (fun ref hr => Preserves.get fun u hu => ?_) (fun ref hr u hu => ?_) hv
  · split
    · exact hu
    · split
      · exact hP.suppressAndStop ref false u hu
      · exact Preserves.bind (hP.startChildWithArgs index _) (fun _ => Preserves.pure ()) u hu
  · obtain ⟨e, he⟩ := OrdMap.contains_iff.mp (hu.has ref hr)
    refine throws_get.mpr ?_
    simp only [he]
    split
    · exact suppressAndStop_throws hcode false (hu.has ref hr)
        fun e' he' hst => hu.due ref e' hr he' hst
    · exact (startChildWithArgs_throws hforeign (fun _ => hcode _) hu.toKnown index _).bind_any
        fun _ _ => throws_pure

/-- An operation that is called while no other one is running. -/
lemma administer_throws (op : Operation Args) (h : Known unsent w)
    (hready : ∀ k e, w.children.find? k = some e → op.asks w (k, e) = true → e.stopping = false →
      w.registered k = true) :
    Throws E (Reacting.administer inner op) w := by
  have hspec : ∀ {index}, (∀ child, op.asks w child = decide (child.2.specIndex = index)) →
      ∀ k e, w.children.find? k = some e → e.specIndex = index → e.stopping = false →
        w.registered k = true := fun hop k e he hi => hready k e he (by simp [hop, hi])
  cases op with
  | startChild index args => exact startChildByIndex_throws hforeign (fun _ => hcode _) h index args
  | stopChild index => exact stopAndSuppressByIndex_throws hforeign hcode h (hspec fun _ => rfl)
  | restartChild index => exact restartChild_throws hforeign hcode h (hspec fun _ => rfl)
  | deleteChild index =>
      exact (stopAndSuppressByIndex_throws hforeign hcode h (hspec fun _ => rfl)).bind_any
        fun _ _ => throws_modify
  | stop reason =>
      refine stop_throws hforeign hcode reason h fun hst k e he => hready k e he ?_
      simp [Operation.asks, hst]

end Asking

end Ready

/-! ### Whole runs -/

namespace Family

/-- What raises in a clear step is code of others. -/
lemma user_of_throws {x : SupM Args Unit} {w u : World Args} {e : Exception}
    (h : Throws (· = .user) x w) (hrun : x.run w = .error e u) : e = .user := by
  rw [Throws, hrun] at h
  exact h

lemma throws_user {codes : List (Site × Code Args)}
    (hforeign : (codes.all fun c => c.2.foreign) = true) (site : Site) (w : World Args) :
    Throws (· = .user) (codeAt codes site).run w :=
  (Code.throws (foreign_codeAt hforeign site) w).mono fun _ => And.left

lemma outOfRange_raised (s : Family Args) {e : Exception} (he : e = .user) :
    (s.outOfRange || decide (e = .outOfRange)) = s.outOfRange := by
  simp [he]

/-- No operation raises `std::out_of_range` in a clear step. -/
lemma outOfRange_of_step {s t : Family Args} {d : Deed Args} (h : Known s.unsent s.world)
    (hclear : s.Clear d) (hstep : s.step d = some t) : t.outOfRange = s.outOfRange := by
  obtain ⟨hforeign, hrefuses, hpresent⟩ := hclear
  have hready := fun k e he ha hst => hpresent.registered h (k := k) (e := e) he ha hst
  cases (step_cases hstep).2 with
  | exit | tell | abort | takes | returns | initEnds | initStarts | handles | crashes | leaves =>
      rfl
  | raises hfits hrun =>
      have huser := administer_throws (foreign_codeAt hforeign) (throws_user hforeign) _ h hready
      exact outOfRange_raised s (user_of_throws huser hrun)
  | initRaises halive hrun =>
      have huser := startChildByIndex_throws (foreign_codeAt hforeign)
        (fun _ => throws_user hforeign _) h s.next none
      exact outOfRange_raised s (user_of_throws huser hrun)
  | sticks hbox hrun =>
      have huser := superviseVisitor_throws (foreign_codeAt hforeign) (throws_user hforeign) h hbox
        (hrefuses rfl) hready
      exact outOfRange_raised s (user_of_throws huser hrun)
  | falls halive hbox hrun =>
      have huser := superviseVisitor_throws (foreign_codeAt hforeign) (throws_user hforeign) h hbox
        (hrefuses rfl) hready
      exact outOfRange_raised s (user_of_throws huser hrun)

end Family

/-- No operation raises `std::out_of_range` in a run in which no child is asked to stop whose down
signal is still to be handled. -/
theorem stopping_departed_children_raises {sched : SchedulerBase} (hwf : sched.WellFormed)
    {spec : Specification Args} {deeds : List (Deed Args)} {s : Family Args}
    (hrun : run Family.step (Family.create sched spec) deeds = some s)
    (hclear : AllSteps Family.step Family.Clear (Family.create sched spec) deeds) :
    s.outOfRange = false := by
  have hinit : ((Family.create sched spec).Registered → Known (Family.create sched spec).unsent
      (Family.create sched spec).world) ∧ (Family.create sched spec).outOfRange = false :=
    ⟨fun _ => Family.known_create hwf spec, rfl⟩
  refine (invariant (P := fun s => (s.Registered → Known s.unsent s.world) ∧
    s.outOfRange = false) (fun s d t h hc ht => ⟨Family.known_step h.1 hc.1 ht, ?_⟩)
    hinit hclear hrun).2
  have hknown := h.1 (Family.registered_of_step ht)
  exact (Family.outOfRange_of_step hknown hc ht).trans h.2

/-- A child fails and its sibling is asked to stop; both come back, and the supervisor is stopped
while a child exits: an exception keeps its down signal from being sent. -/
def restartAndLose : List (Deed Unit) :=
  [.initNext [], .initNext [], .initNext [], .exit 2 .error, .tell, .receive true [],
    .exit 3 .stopped, .tell, .receive true [], .call (.stop .normal) [(.stopped 4, .raises)],
    .exit 5 .error, .abort]

/-- Nobody is asked who has left. -/
theorem stopping_departed_children_raises_restartAndLose :
    run Family.step (Family.create {} twoPermanent) restartAndLose =
        some (reached Family.step (Family.create {} twoPermanent) restartAndLose) ∧
      (reached Family.step (Family.create {} twoPermanent) restartAndLose).outOfRange = false :=
  have hrun := run_eq_reached (by decide +kernel)
  ⟨hrun, stopping_departed_children_raises ⟨by decide, fun k hk => by cases hk⟩ hrun
    (by decide +kernel)⟩

/-- Both children exit before the supervisor gets to run: restarting the group asks the second
one to stop, which raises. So does `stop` when the exit signal of a linked actor has been sent and
the down signal has not. -/
theorem group_restart_raises_on_departed_sibling :
    (∃ s, run Family.step (Family.create {} twoPermanent) [.initNext [], .initNext [],
        .initNext [], .exit 2 .error, .tell, .exit 3 .error, .tell, .receive false []] = some s ∧
      s.outOfRange = true) ∧
    ∃ s, run Family.step (Family.create {} twoPermanent) [.initNext [], .initNext [],
        .initNext [], .takes (.link 2 3), .exit 2 .error, .tell,
        .call (.stop .normal) []] = some s ∧
      s.outOfRange = true :=
  ⟨⟨_, run_eq_reached (by decide +kernel), by decide +kernel⟩,
    ⟨_, run_eq_reached (by decide +kernel), by decide +kernel⟩⟩

end Supervisor

end Agner
