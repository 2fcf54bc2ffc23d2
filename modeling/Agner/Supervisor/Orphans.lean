import Agner.Supervisor.Shutdown

/-!
Who is left when a supervisor is removed.

The supervisor marks a child in `children_` as stopping, then calls its `stop`, which enqueues the
exit signal. An exception in between leaves a child behind that is marked but has never been asked,
and every later request passes it over; one that leaves the first `stop` leaves behind those that
come after it.

* `Tended`: the supervisor knows every child it has spawned, or has asked it to stop, and has asked
  those that it has marked.
* `Orderly`: the condition on steps under which nobody is forgotten: while the supervisor is
  stopping no child is started or freed for a restart, no exception leaves the `stop` of a child
  before its exit signal is enqueued, or the first `stop` of the supervisor at all, and none ends
  `run` while a child is running.
* `no_orphans`: in runs of such steps, every child that outlives the supervisor has been
  asked to stop.
-/

namespace Agner

open Raising Runs

namespace Supervisor

variable {Args : Type}

/-- Every child the supervisor has spawned that is still registered has been asked to stop. -/
def NoOrphan (w : World Args) : Prop :=
  ∀ p ∈ w.spawned, w.registered p.1 = true → stopRequested w p.1 = true

/-- Every child that is still registered has been marked as stopping. -/
def AllAsked (w : World Args) : Prop :=
  ∀ child ∈ w.children.entries, w.registered child.1 = true → child.2.stopping = true

instance (w : World Args) : Decidable (AllAsked w) :=
  inferInstanceAs (Decidable (∀ child ∈ w.children.entries, _ → _))

lemma allAsked_iff {w : World Args} : AllAsked w ↔
    ∀ k e, w.children.find? k = some e → w.registered k = true → e.stopping = true :=
  ⟨fun h k e he => h (k, e) (OrdMap.mem_entries_iff.mpr he),
    fun h child hc => h child.1 child.2 (OrdMap.mem_entries_iff.mp hc)⟩

/-! ### Requests -/

/-- The supervisor knows every child it has spawned, or has asked it to stop, and it has asked
every child that it has marked, those in `marked` perhaps not yet. -/
structure Tended (unsent : List (ActorRef × Signal)) (marked : ActorRef → Prop)
    (w : World Args) : Prop extends Known unsent w where
  covered : ∀ p ∈ w.spawned, w.registered p.1 = true →
    w.children.contains p.1 = true ∨ stopRequested w p.1 = true
  requested : ∀ k e, w.children.find? k = some e → e.stopping = true → w.registered k = true →
    ¬ marked k → stopRequested w k = true

/-- Everybody has been asked. -/
abbrev nobody : ActorRef → Prop := fun _ => False

lemma stopRequested_congr {w w' : World Args} {k : ActorRef}
    (h : w'.sched.actors.find? k = w.sched.actors.find? k) :
    stopRequested w' k = stopRequested w k := by rw [stopRequested, stopRequested, h]

/-- A signal that is sent takes no request away. -/
lemma stopRequested_send {w : World Args} {k : ActorRef} (p : ActorRef × Signal)
    (h : stopRequested w k = true) :
    stopRequested ({ w with sched := w.sched.send p.1 p.2 } : World Args) k = true := by
  obtain ⟨r, hr⟩ := stopRequested_iff.mp h
  refine stopRequested_iff.mpr ⟨r, ?_⟩
  rw [SchedulerBase.find?_send]
  cases hf : w.sched.actors.find? k with
  | none => simp [hf] at hr
  | some l => simpa using Or.inl (by simpa [hf] using hr)

namespace Tended

variable {unsent : List (ActorRef × Signal)} {marked marked' : ActorRef → Prop}
  {w w' : World Args}

lemma adapts (h : Tended unsent marked w) (ha : Adapts w w')
    (hstops : ∀ k e', w'.children.find? k = some e' → e'.stopping = true → ¬ marked' k →
      ¬ marked k ∧ ∃ e, w.children.find? k = some e ∧ e.stopping = true) :
    Tended unsent marked' w' where
  toKnown := h.toKnown.adapts ha
  covered p hp hreg := by
    rw [ha.spawned] at hp
    have hlt := (h.spawned_lt p hp).1
    rw [ha.registered _ hlt] at hreg
    rw [contains_of_core ha.core]
    exact (h.covered p hp hreg).imp_right (ha.requests p.1 hlt)
  requested k e' he' hst hreg hm := by
    obtain ⟨hm, e, he, hst⟩ := hstops k e' he' hst hm
    have hlt := (h.child (OrdMap.contains_iff.mpr ⟨e, he⟩)).1
    rw [ha.registered k hlt] at hreg
    exact ha.requests k hlt (h.requested k e he hst hreg hm)

/-- Members of the supervisor other than the registry and `children_`. -/
lemma of_eq (h : Tended unsent marked w) (hsched : w'.sched = w.sched)
    (hchildren : w'.children = w.children) (hself : w'.self = w.self)
    (hspec : w'.specification = w.specification) (hspawned : w'.spawned = w.spawned) :
    Tended unsent marked w' :=
  h.adapts (Adapts.of_eq hsched hchildren hself hspec hspawned) fun _ e he hst hm =>
    ⟨hm, e, hchildren ▸ he, hst⟩

/-- The child that is being asked is marked first. -/
lemma mark (h : Tended unsent nobody w) (ref : ActorRef) :
    Tended unsent (· = ref)
      { w with children := w.children.modify ref fun c => { c with stopping := true } } := by
  refine h.adapts (Adapts.modify w ref _ fun _ => rfl) fun k e' he' hst hm => ⟨id, e', ?_, hst⟩
  rwa [OrdMap.find?_modify, if_neg hm] at he'

/-- Its exit signal is enqueued. -/
lemma send (h : Tended unsent (· = ref) w) (hreg : w.registered ref = true) :
    Tended unsent nobody { w with sched := w.sched.send ref (.exit ref .stopped) } := by
  have hsent : Tended unsent (· = ref)
      { w with sched := w.sched.send ref (.exit ref .stopped) } :=
    h.adapts (Adapts.send w ref .stopped) fun k e he hst hm => ⟨hm, e, he, hst⟩
  refine { hsent with requested := fun k e he hst hr _ => ?_ }
  by_cases hk : k = ref
  · subst hk
    exact Adjusted.stopRequested_send hreg
  · exact hsent.requested k e he hst hr hk

/-- Who is not registered needs not be asked. -/
lemma unmark (h : Tended unsent (· = ref) w) (hreg : w.registered ref = false) :
    Tended unsent nobody w := by
  refine { h with requested := fun k e he hst hr _ => h.requested k e he hst hr ?_ }
  rintro rfl
  rw [hreg] at hr
  cases hr

lemma started (h : Tended unsent nobody w) (index : ℕ) (args : Args) :
    Tended unsent nobody (started w index args) := by
  have hfind := find?_started w index args
  have hreq : ∀ k, k ≠ w.sched.nextActorId →
      stopRequested (Supervisor.started w index args) k = stopRequested w k := fun k hk =>
    stopRequested_congr ((OrdMap.find?_insert _ _ _ _).trans (if_neg hk))
  refine { h.toKnown.started index args with
    covered := fun p hp hreg => ?_, requested := fun k e he hst hreg _ => ?_ }
  · rcases List.mem_append.mp hp with hp | hp
    · have hne := (h.spawned_lt p hp).1.ne
      rw [started_registered, decide_eq_false hne, Bool.false_or] at hreg
      rw [hreq _ hne, OrdMap.contains, hfind, if_neg hne]
      exact h.covered p hp hreg
    · rw [List.mem_singleton.mp hp]
      exact Or.inl (OrdMap.contains_iff.mpr ⟨_, by rw [hfind, if_pos rfl]⟩)
  · rw [hfind] at he
    split at he
    · obtain rfl := Option.some.inj he
      cases hst
    · rename_i hne
      rw [started_registered, decide_eq_false hne, Bool.false_or] at hreg
      rw [hreq k hne]
      exact h.requested k e he hst hreg id

/-- The oldest signal is taken out of the mailbox, together with the child it names. -/
lemma pop (h : Tended unsent nobody w) {sg : Signal} {rest : List Signal}
    (hbox : w.mailbox = sg :: rest) : Tended unsent nobody (dropped (popped w) sg.source) := by
  have hreg : ∀ k, (dropped (popped w) sg.source).registered k = w.registered k :=
    popped_registered w
  have hreq : ∀ k, k ≠ w.self →
      stopRequested (dropped (popped w) sg.source) k = stopRequested w k := fun k hk =>
    stopRequested_congr ((OrdMap.find?_modify _ _ _ _).trans (if_neg hk))
  refine { h.toKnown.pop hbox with
    covered := fun p hp hr => ?_, requested := fun k e he hst hr _ => ?_ }
  · have hself := (h.spawned_lt p hp).2.1
    rw [hreg] at hr
    rw [hreq _ hself]
    refine (h.covered p hp hr).imp_left fun hc => ?_
    -- only the child whose exit is reported is dropped
    have hne : p.1 ≠ sg.source := by
      intro heq
      rcases h.source sg (by rw [hbox]; exact List.mem_cons_self) with hs | hs
      · exact hself (heq.trans hs)
      · rw [← heq, hr] at hs
        cases hs.1
    show (w.children.erase sg.source).contains p.1 = true
    rw [OrdMap.contains_erase, hc, decide_eq_true hne]
    rfl
  · obtain ⟨-, he⟩ := find?_erase_some he
    rw [hreg] at hr
    rw [hreq k (h.child (OrdMap.contains_iff.mpr ⟨e, he⟩)).2.1]
    exact h.requested k e he hst hr id

lemma exit (h : Tended unsent nobody w) {a : ActorRef} (hne : a ≠ w.self)
    (ha : w.registered a = true) (reason : ExitReason) :
    Tended (w.sched.pendingSignals a reason ++ unsent) nobody
      { w with sched := w.sched.collectAndErase a } := by
  have hstay : ∀ k, ({ w with sched := w.sched.collectAndErase a } : World Args).registered k =
      true → k ≠ a ∧ w.registered k = true := fun k hk => by
    have hk' := (OrdMap.contains_erase _ _ _).symm.trans hk
    rwa [Bool.and_eq_true, decide_eq_true_eq] at hk'
  have hreq : ∀ k, k ≠ a → stopRequested ({ w with sched := w.sched.collectAndErase a } :
      World Args) k = stopRequested w k := fun k hk =>
    stopRequested_congr ((OrdMap.find?_erase _ _ _).trans (if_neg hk))
  refine { h.toKnown.exit hne ha reason with
    covered := fun p hp hr => ?_, requested := fun k e he hst hr _ => ?_ }
  · obtain ⟨hp1, hr⟩ := hstay _ hr
    rw [hreq _ hp1]
    exact h.covered p hp hr
  · obtain ⟨hk, hr⟩ := hstay _ hr
    rw [hreq _ hk]
    exact h.requested k e he hst hr id

lemma tell {p : ActorRef × Signal} (h : Tended (p :: unsent) nobody w) :
    Tended unsent nobody { w with sched := w.sched.send p.1 p.2 } := by
  have hreg : ∀ k, ({ w with sched := w.sched.send p.1 p.2 } : World Args).registered k =
      w.registered k := fun k => SchedulerBase.contains_send _ _ _ _
  refine { h.toKnown.tell with
    covered := fun q hq hr => ?_, requested := fun k e he hst hr _ => ?_ }
  · rw [hreg] at hr
    exact (h.covered q hq hr).imp_right (stopRequested_send p)
  · rw [hreg] at hr
    exact stopRequested_send p (h.requested k e he hst hr id)

end Tended

lemma stable_tended {unsent : List (ActorRef × Signal)} {marked : ActorRef → Prop} :
    Stable (Tended unsent marked : World Args → Prop) := fun w _ hl h =>
  h.adapts (Adapts.taken w hl) fun _ e he hst hm => ⟨hm, e, taken_children w hl ▸ he, hst⟩

section Tending

variable {inner : Site → Code Args} (hforeign : Foreign inner)
  (hprompt : ∀ k w, Throws (fun _ => False) (inner (.stopping k)).run w)
  {unsent : List (ActorRef × Signal)}

include hforeign hprompt

/-- If the child's `stop` gets as far as to enqueue its exit signal, asking the child leaves nobody
behind who is marked and has not been asked. -/
lemma requestStop_tended (ref : ActorRef) :
    Preserves (Tended unsent nobody) (Reacting.requestStop inner ref) := by
  refine Preserves.get fun w h => ?_
  split
  · exact h
  · split
    · exact h
    · rw [post_bind, post_set, Reacting.schedulerStop, post_bind, post_get]
      have hmark := h.mark ref
      split
      · rename_i hreg
        have hcode : Preserves (fun v => Tended unsent (· = ref) v ∧ v.registered ref = true)
            (inner (.stopping ref)).run := by
          refine Code.preserves (fun v l hl hv => ⟨stable_tended v l hl hv.1, ?_⟩) (hforeign _)
          rw [(Adapts.taken v hl).registered ref (hv.1.wellFormed.lt ref hv.2)]
          exact hv.2
        refine ((hprompt ref _).post (hcode _ ⟨hmark, hreg⟩)).bind fun _ v hv => ?_
        rw [post_bind, post_modify]
        exact Code.preserves stable_tended (hforeign _) _ (hv.1.send hv.2)
      · rename_i hreg
        exact post_throw.mpr (hmark.unmark (Bool.not_eq_true _ ▸ hreg))

lemma robust_tended : Robust inner (Tended unsent nobody) where
  suppress ref b := Preserves.modify fun w h => by
    refine h.adapts (Adapts.modify w ref _ fun _ => rfl) fun k e' he' hst hm => ⟨hm, ?_⟩
    rw [OrdMap.find?_modify] at he'
    split at he'
    · obtain ⟨e, he, rfl⟩ := Option.map_eq_some_iff.mp he'
      exact ⟨e, he, hst⟩
    · exact ⟨e', he', hst⟩
  requestStop := requestStop_tended hforeign hprompt
  startFresh := startFresh_preserves hforeign stable_tended (fun _ h => h.registered_self)
    fun _ index args h => h.started index args
  group _ _ h := h.of_eq rfl rfl rfl rfl rfl

lemma stop_tended (reason : ExitReason) :
    Preserves (Tended unsent nobody) (Reacting.stop inner reason) := by
  refine (robust_tended hforeign hprompt).stop (fun _ h => h.of_eq rfl rfl rfl rfl rfl) reason
    (Preserves.modify fun w h => ?_)
  refine Tended.of_eq (w := { w with sched := w.sched.send w.self (.exit w.self reason) }) ?_
    rfl rfl rfl rfl rfl
  exact h.adapts (Adapts.send w w.self reason) fun _ e he hst hm => ⟨hm, e, he, hst⟩

lemma registerRestart_tended :
    Preserves (Tended unsent nobody) (Reacting.registerRestart inner) :=
  registerRestart_preserves (fun _ _ h => h.of_eq rfl rfl rfl rfl rfl)
    (stop_tended hforeign hprompt .error)

/-- One round of `supervise_loop`. -/
lemma superviseVisitor_tended {w : World Args} {sg : Signal} {rest : List Signal}
    (h : Tended unsent nobody w) (hbox : w.mailbox = sg :: rest) :
    Post (Reacting.superviseVisitor inner sg) (popped w) (fun _ => Tended unsent nobody)
      (Tended unsent nobody) := by
  have hpop := h.pop hbox
  have hnone {k : ActorRef} (hk : w.children.contains k = false) :
      (popped w).children.find? k = none := by
    have hf : w.children.find? k = none := by simpa [OrdMap.contains] using hk
    exact hf
  refine Reacting.superviseVisitor_cases (fun _ hown => ?_) (fun hzero => ?_) fun _ =>
    (robust_tended hforeign hprompt).handleTermination (registerRestart_tended hforeign hprompt)
      sg.reason hpop
  · have hown' : sg.source = w.self := hown
    rw [hown', dropped_eq (hnone h.self_not_child)] at hpop
    exact hpop.of_eq rfl rfl rfl rfl rfl
  · have hno : w.children.contains sg.source = false := by
      by_contra hc
      rw [Bool.not_eq_false] at hc
      exact (h.child hc).2.2 hzero
    exact dropped_eq (hnone hno) ▸ hpop

/-- `delete_child` removes only children that it has asked to stop. -/
lemma deleteChild_tended (index : ℕ) :
    Preserves (Tended unsent nobody) (Reacting.deleteChild inner index) := by
  intro w h
  rw [Reacting.deleteChild, post_bind]
  refine ((stopAndSuppressByIndex_quells_spec hforeign w index).and
    ((robust_tended hforeign hprompt).stopAndSuppressByIndex index w h)).mono
    (fun _ v hv => ?_) fun _ hv => hv.2
  obtain ⟨hquelled, hv⟩ := hv
  rw [post_modify]
  refine { hv.toKnown.of_sub fun _ _ he => OrdMap.find?_of_filter he with
    covered := fun p hp hreg => ?_
    requested := fun k e he => hv.requested k e (OrdMap.find?_of_filter he) }
  rcases hv.covered p hp hreg with hc | hreq
  · obtain ⟨e, he⟩ := OrdMap.contains_iff.mp hc
    by_cases hi : e.specIndex = index
    · exact Or.inr (hv.requested p.1 e he (hquelled p.1 e he hi).1 hreg id)
    · refine Or.inl (OrdMap.contains_iff.mpr ⟨e, ?_⟩)
      simp [OrdMap.find?_filter, he, hi]
  · exact Or.inr hreq

lemma administer_tended (op : Operation Args) :
    Preserves (Tended unsent nobody) (Reacting.administer inner op) := by
  have hP : Robust inner (Tended unsent nobody) := robust_tended hforeign hprompt
  cases op with
  | startChild index args => exact hP.startChildByIndex index args
  | stopChild index => exact hP.stopAndSuppressByIndex index
  | restartChild index => exact hP.restartChild index
  | deleteChild index => exact deleteChild_tended hforeign hprompt index
  | stop reason => exact stop_tended hforeign hprompt reason

end Tending

/-! ### Exceptions out of a round of `supervise_loop` -/

/-- Everybody has been asked, and no child has been started since the start order `n`. -/
structure Asked (unsent : List (ActorRef × Signal)) (n : ℕ) (w : World Args) : Prop
    extends Known unsent w where
  allAsked : AllAsked w
  order : w.nextStartOrder = n

namespace Asked

variable {unsent : List (ActorRef × Signal)} {n : ℕ} {w w' : World Args}

lemma modify (h : Asked unsent n w) (ref : ActorRef) (f : ChildEntry Args → ChildEntry Args)
    (hcore : ∀ e, (f e).core = e.core) (hstop : ∀ e, e.stopping = true → (f e).stopping = true) :
    Asked unsent n { w with children := w.children.modify ref f } := by
  refine ⟨h.toKnown.adapts (Adapts.modify w ref f hcore),
    allAsked_iff.mpr fun k e' he' hreg => ?_, h.order⟩
  rw [OrdMap.find?_modify] at he'
  split at he'
  · obtain ⟨e, he, rfl⟩ := Option.map_eq_some_iff.mp he'
    exact hstop e (allAsked_iff.mp h.allAsked k e he hreg)
  · exact allAsked_iff.mp h.allAsked k e' he' hreg

lemma adapts (h : Asked unsent n w) (ha : Adapts w w') (hchildren : w'.children = w.children)
    (horder : w'.nextStartOrder = w.nextStartOrder) : Asked unsent n w' := by
  refine ⟨h.toKnown.adapts ha, allAsked_iff.mpr fun k e he hreg => ?_, horder.trans h.order⟩
  rw [hchildren] at he
  rw [ha.registered k (h.child (OrdMap.contains_iff.mpr ⟨e, he⟩)).1] at hreg
  exact allAsked_iff.mp h.allAsked k e he hreg

end Asked

lemma stable_asked {unsent : List (ActorRef × Signal)} {n : ℕ} :
    Stable (Asked unsent n : World Args → Prop) := fun w _ hl h => by
  obtain ⟨sched, now, -, heq⟩ := taken_members w hl
  exact h.adapts (Adapts.taken w hl) (taken_children w hl) (by rw [heq])

/-- While nobody is left to be asked, a sweep marks no child that is registered. -/
lemma sweeping_asked {inner : Site → Code Args} (hforeign : Foreign inner)
    {unsent : List (ActorRef × Signal)} {n : ℕ} : Sweeping inner (Asked unsent n) where
  suppress ref _ := Preserves.modify fun _ h => h.modify ref _ (fun _ => rfl) fun _ => id
  requestStop := requestStop_preserves hforeign stable_asked
    (fun _ ref h => h.modify ref _ (fun _ => rfl) fun _ _ => rfl)
    fun w ref h => h.adapts (Adapts.send w ref .stopped) rfl rfl
  group _ _ h := h.adapts (Adapts.of_eq rfl rfl rfl rfl rfl) rfl rfl

section Raising

variable {inner : Site → Code Args} {unsent : List (ActorRef × Signal)} {n : ℕ}

/-- Everybody has been asked, or a child has been started since. -/
def Afresh (unsent : List (ActorRef × Signal)) (n : ℕ) (w : World Args) : Prop :=
  Tended unsent nobody w ∧ (Asked unsent n w ∨ n < w.nextStartOrder)

/-- The state that an exception leaves. -/
def Left (unsent : List (ActorRef × Signal)) (w : World Args) : Prop :=
  Tended unsent nobody w ∧ AllAsked w

variable (hforeign : Foreign inner)
  (hconstruct : ∀ order ≠ n, ∀ w, Throws (fun _ => False) (inner (.constructing order)).run w)

include hforeign hconstruct

/-- Only the first constructor may raise. -/
lemma startFresh_afresh {w : World Args} (h : Afresh unsent n w) (index : ℕ) (args : Args) :
    Post (Reacting.startFresh inner index args) w (fun _ => Afresh unsent n) (Left unsent) := by
  have hstart : ∀ v : World Args, Tended unsent nobody v → n ≤ v.nextStartOrder →
      Post (Supervisor.startFresh index args : SupM Args ActorRef) v (fun _ => Afresh unsent n)
        (Left unsent) := by
    intro v hv hn
    rw [Post, startFresh_run hv.registered_self]
    exact ⟨hv.started index args, Or.inr (Nat.lt_succ_of_le hn)⟩
  rw [Reacting.startFresh, post_bind, post_get]
  rcases h with ⟨htended, hasked | hlt⟩
  · have hcode : Preserves (fun v => Tended unsent nobody v ∧ Asked unsent n v)
        (inner (.constructing n)).run :=
      (Code.preserves stable_tended (hforeign _)).and (Code.preserves stable_asked (hforeign _))
    rw [hasked.order]
    refine Post.bind ((hcode w ⟨htended, hasked⟩).mono (fun _ _ hv => hv)
      fun v hv => ⟨hv.1, hv.2.allAsked⟩) fun _ v hv => hstart v hv.1 hv.2.order.ge
  · have hcode : Preserves (fun v => Tended unsent nobody v ∧ n < v.nextStartOrder)
        (inner (.constructing w.nextStartOrder)).run := by
      refine Code.preserves (fun v l hl hv => ⟨stable_tended v l hl hv.1, ?_⟩) (hforeign _)
      obtain ⟨sched, now, -, heq⟩ := taken_members v hl
      rw [heq]
      exact hv.2
    exact ((hconstruct _ hlt.ne' w).post (hcode w ⟨htended, hlt⟩)).bind
      fun _ v hv => hstart v hv.1 hv.2.le

lemma startChildWithArgs_afresh {w : World Args} (h : Afresh unsent n w) (index : ℕ)
    (args : Args) :
    Post (Reacting.startChildWithArgs inner index args) w (fun _ => Afresh unsent n)
      (Left unsent) := by
  rw [Reacting.startChildWithArgs, post_bind, post_get]
  split
  · exact startFresh_afresh hforeign hconstruct h index args
  · split
    · exact post_pure.mpr h
    · exact startFresh_afresh hforeign hconstruct h index args

lemma startChildByIndex_afresh {w : World Args} (h : Afresh unsent n w) (index : ℕ)
    (args : Option Args) :
    Post (Reacting.startChildByIndex inner index args) w (fun _ => Afresh unsent n)
      (Left unsent) := by
  rw [Reacting.startChildByIndex, post_bind, post_get]
  split
  · exact post_pure.mpr h
  · exact (startChildWithArgs_afresh hforeign hconstruct h _ _).bind fun _ _ hv => post_pure.mpr hv

lemma respawnWithEntry_afresh {w : World Args} (h : Afresh unsent n w) (entry : ChildEntry Args) :
    Post (Reacting.respawnWithEntry inner entry) w (fun _ => Afresh unsent n)
      (Left unsent) := by
  rw [Reacting.respawnWithEntry, post_bind, post_get]
  split
  · exact (startChildWithArgs_afresh hforeign hconstruct h _ _).bind fun _ _ hv => post_pure.mpr hv
  · exact post_pure.mpr h

lemma finalizeIfDone_afresh {w : World Args} (h : Afresh unsent n w) :
    Post (Reacting.finalizeIfDone inner) w (fun _ => Afresh unsent n) (Left unsent) := by
  have hset : Afresh unsent n { w with restartGroup := none } :=
    ⟨h.1.of_eq rfl rfl rfl rfl rfl,
      h.2.imp_left fun ha => ha.adapts (Adapts.of_eq rfl rfl rfl rfl rfl) rfl rfl⟩
  rw [Reacting.finalizeIfDone, post_bind, post_get]
  split
  · exact post_pure.mpr h
  · split
    · rw [Reacting.finalizeRestartGroup, post_bind, post_get]
      split
      · exact post_pure.mpr h
      · rw [post_bind, post_set]
        refine post_forM (fun _ _ => Afresh unsent n) (fun _ item _ v hv => ?_) _ _ hset
        split
        · exact respawnWithEntry_afresh hforeign hconstruct hv item.entry
        · exact post_pure.mpr hv
    · exact post_pure.mpr h

/-- A termination that raises while everybody has been asked. -/
lemma handleTermination_afresh
    (hprompt : ∀ k w, Throws (fun _ => False) (inner (.stopping k)).run w) {w : World Args}
    {ref : ActorRef} {reason : ExitReason} (h : Tended unsent nobody (dropped w ref))
    (hasked : Asked unsent n (dropped w ref))
    (hgranted : ∀ v, registersIn w ref reason = some v → granted v = true) :
    Post (Reacting.handleTermination inner ref reason) w (fun _ _ => True) (Left unsent) := by
  have hset : ∀ times g, Tended unsent nobody
      { dropped w ref with restartTimes := times, restartGroup := g } ∧
      Asked unsent n { dropped w ref with restartTimes := times, restartGroup := g } :=
    fun times g => ⟨h.of_eq rfl rfl rfl rfl rfl,
      hasked.adapts (Adapts.of_eq rfl rfl rfl rfl rfl) rfl rfl⟩
  have hend : ∀ {x : SupM Args Unit} {v : World Args},
      Post x v (fun _ => Afresh unsent n) (Left unsent) →
      Post x v (fun _ _ => True) (Left unsent) :=
    fun hx => hx.mono (fun _ _ _ => trivial) fun _ => id
  rw [Reacting.handleTermination, post_bind, post_get]
  by_cases hgroup : w.restartGroup.isSome = true
  · rw [if_pos hgroup, Reacting.handleRestartGroupStop, post_bind, post_modify]
    refine hend (finalizeIfDone_afresh hforeign hconstruct ?_)
    exact ⟨(hset _ _).1, Or.inl (hset w.restartTimes _).2⟩
  rw [if_neg hgroup]
  cases he : w.children.find? ref with
  | none => exact post_pure.mpr trivial
  | some failed =>
      rw [post_bind, post_set]
      by_cases hdue : (!failed.suppressRestart &&
          shouldRestart (restartAtSpecIndex w.specification failed.specIndex) reason) = true
      · have hg : granted (dropped w ref) = true := hgranted _ (by
          rw [registersIn, if_neg hgroup]
          simp only [he, hdue, if_true])
        have htimes : Afresh unsent n
            { dropped w ref with restartTimes := windowTimes (dropped w ref) } :=
          ⟨(hset _ _).1, Or.inl (hset _ (dropped w ref).restartGroup).2⟩
        have hrespawn := hend (respawnWithEntry_afresh hforeign hconstruct htimes failed)
        have hbegin : Post (Reacting.beginRestartGroup inner ref failed reason)
            { dropped w ref with restartTimes := windowTimes (dropped w ref) }
            (fun _ _ => True) (Left unsent) := by
          rw [Reacting.beginRestartGroup, post_bind, post_get, post_bind, post_set, post_bind]
          have hsweep : ∀ plan, Preserves (fun v => Tended unsent nobody v ∧ Asked unsent n v)
              (Reacting.stopPlan inner plan) := fun plan =>
            ((robust_tended hforeign hprompt).stopPlan plan).and
              ((sweeping_asked hforeign).stopPlan plan)
          refine (hsweep _ _ (hset _ _)).mono (fun _ v hv => ?_)
            fun v hv => ⟨hv.1, hv.2.allAsked⟩
          exact hend (finalizeIfDone_afresh hforeign hconstruct ⟨hv.1, Or.inl hv.2⟩)
        rw [if_pos hdue, ← dropped, post_bind, Reacting.post_registerRestart hg]
        simp only [if_true]
        split
        · exact hrespawn
        · exact hrespawn
        · exact hbegin
        · exact hbegin
      · rw [if_neg hdue]
        exact post_pure.mpr trivial

end Raising

/-! ### The condition on steps -/

/-- The place is the `stop` of a child, before it enqueues the exit signal. -/
def Site.early : Site → Bool
  | .stopping _ => true
  | .stopped _ | .constructing _ => false

/-- The place is the constructor of a child, but not of the first one that is started from now. -/
def Site.later (order : ℕ) : Site → Bool
  | .constructing n => decide (n ≠ order)
  | .stopping _ | .stopped _ => false

/-- The code at these places ends without an exception. -/
def Deed.returning (p : Site → Bool) (d : Deed Args) : Bool :=
  d.codes.all fun c => !p c.1 || c.2.returning

/-- Such code raises nothing. -/
lemma throws_codeAt {p : Site → Bool} {codes : List (Site × Code Args)}
    (hforeign : (codes.all fun c => c.2.foreign) = true)
    (h : (codes.all fun c => !p c.1 || c.2.returning) = true) {site : Site} (hsite : p site = true)
    (w : World Args) : Throws (fun _ => False) (codeAt codes site).run w := by
  have hret : p site = true → (codeAt codes site).returning = true := by
    refine codeAt_of_forall (p := fun site c => p site = true → c.returning = true)
      (fun _ _ => rfl) (fun c hc hp => ?_) site
    simpa [hp] using List.all_eq_true.mp h c hc
  refine (Code.throws (foreign_codeAt hforeign site) w).mono fun e he => ?_
  rw [hret hsite] at he
  cases he.2

namespace Family

/-- No exception can leave the step: all code that runs inside of it returns, and nobody is asked
who has left. -/
def Smooth (s : Family Args) (d : Deed Args) : Prop :=
  d.returning (fun _ => true) = true ∧ s.Present d

instance (s : Family Args) (d : Deed Args) : Decidable (s.Smooth d) :=
  inferInstanceAs (Decidable (_ ∧ _))

/-- Everybody has been asked, and no constructor but the first one raises. -/
def Quits (s : Family Args) (d : Deed Args) : Prop :=
  d.returning (Site.later s.world.nextStartOrder) = true ∧ AllAsked s.world

instance (s : Family Args) (d : Deed Args) : Decidable (s.Quits d) :=
  inferInstanceAs (Decidable (_ ∧ _))

/-- While the supervisor is stopping no child is started or freed, and an exception leaves the
first `stop`, or ends `run`, only if everybody has been asked. -/
def Heeds (s : Family Args) : Deed Args → Prop
  | .call (.startChild index _) _ => s.world.stopping = false ∨
      (s.world.specification.strategy ≠ .simpleOneForOne ∧ hasChild s.world index = true)
  | .call (.restartChild index) _ => s.world.stopping = false ∨ hasChild s.world index = false
  | .call (.stop reason) codes => s.world.stopping = true ∨ s.Smooth (.call (.stop reason) codes)
  | .initNext codes => (s.world.stopping = false ∨
      s.world.specification.strategy = .simpleOneForOne ∨
      s.world.specification.children.length ≤ s.next ∨ hasChild s.world s.next = true) ∧
      (s.Smooth (.initNext codes) ∨ s.Quits (.initNext codes))
  | .receive delivered codes => delivered = true ∨ s.Smooth (.receive delivered codes) ∨
      s.Quits (.receive delivered codes)
  | .crash => AllAsked s.world
  | _ => True

instance (s : Family Args) : (d : Deed Args) → Decidable (s.Heeds d)
  | .call (.startChild ..) _ => inferInstanceAs (Decidable (_ ∨ _ ≠ _ ∧ _ = _))
  | .call (.restartChild _) _ => inferInstanceAs (Decidable (_ ∨ _))
  | .call (.stop _) _ => inferInstanceAs (Decidable (_ ∨ Smooth _ _))
  | .initNext _ => inferInstanceAs (Decidable ((_ ∨ _ ∨ _ ∨ _) ∧ (Smooth _ _ ∨ Quits _ _)))
  | .receive .. => inferInstanceAs (Decidable (_ ∨ Smooth _ _ ∨ Quits _ _))
  | .crash => inferInstanceAs (Decidable (AllAsked _))
  | .exit .. | .tell | .abort | .takes _ | .leave | .call (.stopChild _) _
  | .call (.deleteChild _) _ => isTrue trivial

/-- No operation is called from code inside another one, no restart is refused, no exception leaves
the `stop` of a child before its exit signal is enqueued, and the rest of `Heeds`. -/
def Orderly (s : Family Args) (d : Deed Args) : Prop :=
  d.foreign = true ∧ d.returning Site.early = true ∧ (d.receives = true → refuses s.world = false) ∧
    s.Heeds d

instance (s : Family Args) (d : Deed Args) : Decidable (s.Orderly d) :=
  inferInstanceAs (Decidable (_ ∧ _ ∧ (_ → _) ∧ _))

end Family

/-! ### Whole runs -/

/-- Starting a child of a static spec that has one changes nothing. -/
lemma startChildByIndex_idle {inner : Site → Code Args} {w : World Args} {index : ℕ}
    (args : Option Args) (hstatic : w.specification.strategy ≠ .simpleOneForOne)
    (hchild : hasChild w index = true) :
    Post (Reacting.startChildByIndex inner index args) w (fun _ w' => w' = w)
      (fun _ => False) := by
  rw [Reacting.startChildByIndex, post_bind, post_get]
  split
  · exact post_pure.mpr rfl
  · rw [post_bind, Reacting.startChildWithArgs, post_bind, post_get, if_neg hstatic]
    split
    · exact post_pure.mpr rfl
    · rename_i hnone
      rw [findRunningChildForSpec_eq_none, hchild] at hnone
      cases hnone

/-- Restarting a spec without children changes nothing. -/
lemma restartChild_idle {inner : Site → Code Args} {w : World Args} {index : ℕ}
    (hchild : hasChild w index = false) :
    Post (Reacting.restartChild inner index) w (fun _ w' => w' = w) (fun _ => False) := by
  rw [Reacting.restartChild, post_bind, post_get]
  have hnil : (w.children.entries.filter fun child => decide (child.2.specIndex = index)) = [] := by
    rw [List.filter_eq_nil_iff]
    intro child hmem
    rw [hasChild, List.any_eq_false] at hchild
    exact hchild child hmem
  simp only [hnil, List.map_nil]
  exact post_pure.mpr rfl

namespace Family

section Heeding

variable {s : Family Args}

/-- Starting a child when the step heeds the shutdown. -/
lemma startChildByIndex_closing {codes : List (Site × Code Args)}
    (hforeign : Foreign (codeAt codes)) (h : Closing s.world) {index : ℕ} (args : Option Args)
    (hok : s.world.stopping = false ∨ (s.world.specification.strategy ≠ .simpleOneForOne ∧
      hasChild s.world index = true)) :
    Post (Reacting.startChildByIndex (codeAt codes) index args) s.world (fun _ => Closing)
      Closing := by
  rcases hok with hst | ⟨hstatic, hchild⟩
  · exact (((lasting_running.robust hforeign).startChildByIndex index args) _
      (h.running hst)).mono (fun _ _ => Running.closing) fun _ => Running.closing
  · refine (startChildByIndex_idle args hstatic hchild).mono ?_ fun _ => False.elim
    rintro _ w' rfl
    exact h

/-- An operation that heeds the shutdown. -/
lemma administer_closing {op : Operation Args} {codes : List (Site × Code Args)}
    (hforeign : (Deed.call op codes).foreign = true) (h : Closing s.world)
    (hknown : Known s.unsent s.world) (hok : s.Heeds (.call op codes)) :
    Post (Reacting.administer (codeAt codes) op) s.world (fun _ => Closing) Closing := by
  have hinner := foreign_codeAt hforeign
  cases op with
  | startChild index args => exact startChildByIndex_closing hinner h args hok
  | stopChild index => exact stopAndSuppressByIndex_closing hinner index _ h
  | restartChild index =>
      rcases hok with hst | hchild
      · exact (((lasting_running.robust hinner).restartChild index) _ (h.running hst)).mono
          (fun _ _ => Running.closing) fun _ => Running.closing
      · refine (restartChild_idle hchild).mono ?_ fun _ => False.elim
        rintro _ w' rfl
        exact h
  | deleteChild index =>
      rw [Reacting.administer, Reacting.deleteChild, post_bind]
      refine (stopAndSuppressByIndex_closing hinner index _ h).mono (fun _ w' h' => ?_) fun _ => id
      rw [post_modify]
      exact h'.of_sub rfl rfl id fun k e he => OrdMap.find?_of_filter he
  | stop reason =>
      rcases hok with hst | ⟨hret, hpresent⟩
      · refine (stop_again reason hst).mono ?_ fun _ => False.elim
        rintro _ w' ⟨sched, rfl⟩
        exact h.of_sub rfl rfl id fun _ _ => id
      · refine Throws.post ?_ (stop_closing hinner reason h)
        refine stop_throws hinner (fun site =>
          throws_codeAt (p := fun _ => true) hforeign hret rfl) reason hknown
          fun hst k e he => hpresent.registered hknown he ?_
        simp [Deed.asks, Operation.asks, hst]

/-- Removing the supervisor leaves no orphan if the children it knows have been asked. -/
lemma noOrphan_removed (h : Tended s.unsent nobody s.world) (hall : AllAsked s.world)
    (reason : ExitReason) : NoOrphan (s.removed reason).world := by
  intro p hp hreg
  have hreg' := (OrdMap.contains_erase s.world.sched.actors s.world.self p.1).symm.trans hreg
  rw [Bool.and_eq_true, decide_eq_true_eq] at hreg'
  have hreq : stopRequested (s.removed reason).world p.1 = stopRequested s.world p.1 :=
    stopRequested_congr ((OrdMap.find?_erase _ _ _).trans (if_neg hreg'.1))
  rw [hreq]
  rcases h.covered p hp hreg'.2 with hc | hreq
  · obtain ⟨e, he⟩ := OrdMap.contains_iff.mp hc
    exact h.requested p.1 e he (allAsked_iff.mp hall p.1 e he hreg'.2) hreg'.2 id
  · exact hreq

end Heeding

/-- The invariant of orderly runs. -/
structure Tidy (s : Family Args) : Prop where
  tended : s.Registered → Tended s.unsent nobody s.world
  closing : s.standing = .alive → Closing s.world
  noOrphan : (∃ reason, s.standing = .gone reason) → NoOrphan s.world

/-- The supervisor is removed. -/
lemma Tidy.of_removed {s : Family Args} (h : Tended s.unsent nobody s.world)
    (hall : AllAsked s.world) (reason : ExitReason) : Tidy (s.removed reason) :=
  ⟨fun hr => absurd rfl (hr reason), nofun, fun _ => noOrphan_removed h hall reason⟩

/-- It stays in the registry. -/
lemma Tidy.of_registered {s : Family Args} (hs : s.Registered)
    (h : Tended s.unsent nobody s.world) (hc : s.standing = .alive → Closing s.world) : Tidy s where
  tended _ := h
  closing := hc
  noOrphan hgone := hgone.elim fun reason hg => absurd hg (hs reason)

lemma kept_tended :
    Kept (fun unsent => Tended unsent nobody : List (ActorRef × Signal) → World Args → Prop) where
  exit h hne ha reason := h.exit hne ha reason
  tell h := h.tell
  of_mem h hmem := { h with toKnown := h.toKnown.of_mem hmem }
  stable _ := stable_tended
  phase h := h.of_eq rfl rfl rfl rfl rfl

/-- Until the supervisor is removed, every step keeps what is known of the requests. -/
lemma tended_step {s t : Family Args} {d : Deed Args} (hw : Tended s.unsent nobody s.world)
    (hforeign : d.foreign = true) (hearly : d.returning Site.early = true)
    (hmove : Moves s d t) (ht : t.Registered) : Tended t.unsent nobody t.world := by
  have hinner := foreign_codeAt hforeign
  have hprompt : ∀ k w, Throws (fun _ => False) (codeAt d.codes (.stopping k)).run w :=
    fun k => throws_codeAt hforeign hearly rfl
  exact kept_tended.step hmove ht hw (administer_tended hinner hprompt)
    ((robust_tended hinner hprompt).startChildByIndex _ _)
    fun _ _ => superviseVisitor_tended hinner hprompt hw

/-- Such code lets only the first constructor raise. -/
lemma Quits.throws {s : Family Args} {d : Deed Args} (h : s.Quits d) (hforeign : d.foreign = true)
    (order : ℕ) (hne : order ≠ s.world.nextStartOrder) (w : World Args) :
    Throws (fun _ => False) (codeAt d.codes (.constructing order)).run w := by
  have hlater : Site.later s.world.nextStartOrder (.constructing order) = true :=
    decide_eq_true hne
  exact throws_codeAt hforeign h.1 hlater w

lemma Quits.asked {s : Family Args} {d : Deed Args} (h : s.Quits d)
    (hw : Known s.unsent s.world) : Asked s.unsent s.world.nextStartOrder s.world :=
  ⟨hw, h.2, rfl⟩

/-- An exception out of `init` ends `run` when everybody has been asked. -/
lemma left_of_initRaises {s : Family Args} {codes : List (Site × Code Args)} {e : Exception}
    {w : World Args} (hw : Tended s.unsent nobody s.world) (hok : s.Orderly (.initNext codes))
    (hrun : (Reacting.startChildByIndex (codeAt codes) s.next none).run s.world = .error e w) :
    Left s.unsent w := by
  obtain ⟨hforeign, -, -, -, ⟨hret, -⟩ | hquits⟩ := hok
  · have hthrows : Throws (fun _ => False)
        (Reacting.startChildByIndex (codeAt codes) s.next none) s.world :=
      startChildByIndex_throws (foreign_codeAt hforeign)
        (fun _ => throws_codeAt (p := fun _ => true) hforeign hret rfl) hw.toKnown _ _
    rw [Throws, hrun] at hthrows
    exact hthrows.elim
  · have hpost := startChildByIndex_afresh (foreign_codeAt hforeign) (hquits.throws hforeign)
      ⟨hw, Or.inl (hquits.asked hw.toKnown)⟩ s.next none
    rw [Post] at hpost
    simp only [Deed.codes, hrun] at hpost
    exact hpost

/-- So does an exception out of a visitor. -/
lemma left_of_falls {s : Family Args} {codes : List (Site × Code Args)} {sg : Signal}
    {rest : List Signal} {e : Exception} {w : World Args} (hw : Tended s.unsent nobody s.world)
    (hok : s.Orderly (.receive false codes)) (hbox : s.world.mailbox = sg :: rest)
    (hrun : (Reacting.superviseVisitor (codeAt codes) sg).run (popped s.world) = .error e w) :
    Left s.unsent w := by
  obtain ⟨hforeign, hearly, hrefuses, hd | ⟨hret, hpresent⟩ | hquits⟩ := hok
  · cases hd
  · have hthrows : Throws (fun _ => False) (Reacting.superviseVisitor (codeAt codes) sg)
        (popped s.world) := superviseVisitor_throws (foreign_codeAt hforeign)
      (fun _ => throws_codeAt (p := fun _ => true) hforeign hret rfl) hw.toKnown hbox
      (hrefuses rfl) fun k e he ha hst => hpresent.registered hw.toKnown he ha hst
    rw [Throws, hrun] at hthrows
    exact hthrows.elim
  · have hasked : Asked s.unsent s.world.nextStartOrder (dropped (popped s.world) sg.source) := by
      refine ⟨hw.toKnown.pop hbox, allAsked_iff.mpr fun k e he hreg => ?_, rfl⟩
      rw [show (dropped (popped s.world) sg.source).registered k = s.world.registered k from
        popped_registered _ _] at hreg
      exact allAsked_iff.mp hquits.2 k e (find?_erase_some he).2 hreg
    have hself : (popped s.world).children.find? (popped s.world).self = none := by
      have hno : s.world.children.find? s.world.self = none := by
        simpa [OrdMap.contains] using hw.self_not_child
      exact hno
    have hpost : Post (Reacting.superviseVisitor (codeAt codes) sg) (popped s.world)
        (fun _ _ => True) (Left s.unsent) := by
      refine Reacting.superviseVisitor_cases (fun _ _ => trivial) (fun _ => trivial)
        fun hvalid => ?_
      refine handleTermination_afresh (foreign_codeAt hforeign) (hquits.throws hforeign)
        (fun k => throws_codeAt hforeign hearly rfl) (hw.pop hbox) hasked fun v hv => ?_
      rw [← signalRegistersIn_eq hself hvalid] at hv
      simpa [refuses, hbox, hv] using hrefuses rfl
    rw [Post, hrun] at hpost
    exact hpost

lemma Tidy.step {s t : Family Args} {d : Deed Args} (h : Tidy s) (hok : s.Orderly d)
    (hstep : s.step d = some t) : Tidy t := by
  obtain ⟨hs, hmove⟩ := step_cases hstep
  have hreg := registered_of_step hstep
  have hw := h.tended hreg
  have hforeign := hok.1
  have hinner := foreign_codeAt hforeign
  have htended := tended_step hw hforeign hok.2.1 hmove
  have hheeds := hok.2.2.2
  -- a step that leaves the supervisor where it is
  have hstay : t.standing = s.standing → (s.standing = .alive → Closing t.world) → Tidy t :=
    fun heq hc => by
      have ht : t.Registered := fun reason => heq ▸ hreg reason
      exact Tidy.of_registered ht (htended ht) fun ha => hc (heq.symm.trans ha)
  cases hmove with
  | exit | tell | initEnds =>
      refine hstay rfl fun ha => (h.closing ha).of_sub rfl rfl ?_ fun _ _ => id
      first | exact id | exact nofun
  | abort => exact hstay rfl h.closing
  | takes hl => exact hstay rfl fun ha => stable_closing _ _ hl (h.closing ha)
  | returns hfits hrun =>
      refine hstay rfl fun ha => ?_
      exact (administer_closing hforeign (h.closing ha) hw.toKnown hheeds).ended (e := .user)
        (.inl hrun)
  | raises hfits hrun =>
      refine hstay rfl fun ha => ?_
      exact (administer_closing hforeign (h.closing ha) hw.toKnown hheeds).ended (.inr hrun)
  | initStarts halive hphase hstatic hlt hrun =>
      refine hstay rfl fun ha => ?_
      refine (startChildByIndex_closing hinner (h.closing ha) none ?_).ended (e := .user)
        (.inl hrun)
      rcases hheeds.1 with hst | hsimple | hle | hchild
      · exact Or.inl hst
      · exact absurd hsimple hstatic
      · exact absurd hlt (not_lt.mpr hle)
      · exact Or.inr ⟨hstatic, hchild⟩
  | initRaises halive hrun =>
      obtain ⟨htended, hall⟩ := left_of_initRaises hw hok hrun
      exact Tidy.of_removed (s := s.raised _ _) htended hall .error
  | @handles _ _ sg _ _ halive hphase hbox hrun =>
      have hstanding : ∀ (p : Prop) [Decidable p] (reason : ExitReason),
          (if p then Standing.alive else .undefined) ≠ .gone reason := fun p _ reason => by
        split <;> simp
      refine Tidy.of_registered (hstanding _) (htended (hstanding _)) fun _ => ?_
      have hpop : Closing (popped s.world) := (h.closing halive).of_sub rfl rfl id fun _ _ => id
      have hpost := superviseVisitor_closing hinner hpop sg
      rw [Post] at hpost
      simp only [Deed.codes, hrun] at hpost
      exact hpost
  | sticks hbox hrun =>
      have ht : ∀ reason, Standing.stuck ≠ .gone reason := fun reason h => by cases h
      exact Tidy.of_registered ht (htended ht) fun ha => by cases ha
  | falls halive hbox hrun =>
      obtain ⟨htended, hall⟩ := left_of_falls hw hok hbox hrun
      exact Tidy.of_removed (s := s.raised _ _) htended hall .error
  | crashes => exact Tidy.of_removed hw hheeds _
  | leaves halive hphase =>
      have hclosed := (h.closing halive).closed ((h.closing halive).ended hphase)
      refine Tidy.of_removed hw (fun child hmem _ => ?_) _
      exact (hclosed.quelled child.1 child.2 (OrdMap.mem_entries_iff.mp hmem)).1

end Family

end Supervisor

end Agner
