import Agner.Foundations.Runs
import Agner.Scheduler.Base

/-!
Who is told when an actor exits.

The scheduler is run by any number of threads. Every section under `base_mutex_` is one
step, and so is every send that `notify_exit` makes after its own section, so that other
actors may be spawned, linked, monitored and may exit between an actor's removal from the
registry and each of the signals that report it.

* `Net`: the scheduler, the sends still to be made for each actor that has exited, and the
  history of what was joined, monitored, reported.
* `Inv`: both lists of a link are kept as long as both actors live, nothing is in a list
  that was not joined, and an actor is named by a signal only after it has exited.
* `exit_signals_exact`: an exit signal reaches exactly the actors joined with the one that
  exited and still registered at the send, a down signal exactly its monitors.
-/

namespace Agner

open Runs

namespace ExitSignals

/-- The scheduler together with the `notify_exit` calls in progress and the history. -/
structure Net where
  base : SchedulerBase := {}
  /-- The signals `notify_exit` of an actor has collected and not yet sent. -/
  outgoing : ActorRef → List (ActorRef × Signal) := fun _ => []
  /-- The pairs that a successful `link` or a `spawn_link` joined. -/
  joined : List (ActorRef × ActorRef) := []
  /-- The pairs (monitor, target) that `monitor` or `spawn_monitor` registered. -/
  monitored : List (ActorRef × ActorRef) := []
  exited : List ActorRef := []
  /-- Every signal ever enqueued, with the actor it was enqueued to. -/
  enqueued : List (ActorRef × Signal) := []

/-- The operations of the scheduler, cut at the ends of their locked sections. -/
inductive Label where
  | spawn (linker monitorRef : ActorRef)
  | link (left right : ActorRef)
  | monitor (monitorRef targetRef : ActorRef)
  /-- The locked section of `notify_exit`. -/
  | exit (a : ActorRef) (reason : ExitReason)
  /-- The next send of the `notify_exit` call of `a`. -/
  | send (a : ActorRef)

/-- One step. Joining an actor with itself is left out: `notify_exit` would then shorten the
list it is walking. -/
def step (s : Net) : Label → Option Net
  | .spawn linker monitorRef =>
      if linker = s.base.nextActorId then none else
      let (ref, base) := s.base.spawnImpl linker monitorRef
      some { s with
        base := base
        joined := if linker.valid then s.joined ++ [(linker, ref)] else s.joined
        monitored := if monitorRef.valid then s.monitored ++ [(monitorRef, ref)]
          else s.monitored }
  | .link left right =>
      if left = right then none else
      match s.base.link left right with
      | none => some s
      | some base => some { s with base := base, joined := s.joined ++ [(left, right)] }
  | .monitor monitorRef targetRef =>
      match s.base.monitor monitorRef targetRef with
      | none => some s
      | some base =>
          some { s with base := base, monitored := s.monitored ++ [(monitorRef, targetRef)] }
  | .exit a reason =>
      if s.base.actors.contains a then
        some { s with
          base := s.base.collectAndErase a
          outgoing := Function.update s.outgoing a (s.base.pendingSignals a reason)
          exited := s.exited ++ [a] }
      else none
  | .send a =>
      match s.outgoing a with
      | [] => none
      | (target, signal) :: rest =>
          some { s with
            base := s.base.send target signal
            outgoing := Function.update s.outgoing a rest
            enqueued := if s.base.actors.contains target then s.enqueued ++ [(target, signal)]
              else s.enqueued }

/-- A link operation has joined the two actors, in either order. -/
def Net.Joined (s : Net) (a b : ActorRef) : Prop := (a, b) ∈ s.joined ∨ (b, a) ∈ s.joined

/-- What ties the tables to the history. -/
structure Inv (s : Net) : Prop where
  actors_lt : ∀ x, s.base.actors.contains x = true → x < s.base.nextActorId
  exited_lt : ∀ x ∈ s.exited, x < s.base.nextActorId
  not_exited : ∀ x, s.base.actors.contains x = true → x ∉ s.exited
  joined_of_links : ∀ x y, y ∈ s.base.linksOf x → s.Joined x y
  links_of_joined : ∀ x y, s.Joined x y → x ∉ s.exited → y ∉ s.exited → y ∈ s.base.linksOf x
  monitors_iff : ∀ x m, x ∉ s.exited → (m ∈ s.base.monitorsOf x ↔ (m, x) ∈ s.monitored)
  outgoing_source : ∀ x p, p ∈ s.outgoing x → p.2.source = x ∧ x ∈ s.exited
  enqueued_source : ∀ p ∈ s.enqueued, p.2.source ∈ s.exited

lemma inv_init : Inv {} where
  actors_lt := by simp [OrdMap.contains]
  exited_lt := by simp
  not_exited := by simp
  joined_of_links := by simp [SchedulerBase.linksOf]
  links_of_joined := by simp [Net.Joined]
  monitors_iff := by simp [SchedulerBase.monitorsOf]
  outgoing_source := by simp
  enqueued_source := by simp

/-! ### The invariant is kept -/

lemma Inv.spawn {s t : Net} {linker monitorRef : ActorRef} (h : Inv s)
    (hs : step s (.spawn linker monitorRef) = some t) : Inv t := by
  simp only [step, SchedulerBase.spawnImpl] at hs
  split at hs
  · cases hs
  obtain rfl := Option.some.inj hs
  have hnew : s.base.nextActorId ∉ s.exited := fun hm => (h.exited_lt _ hm).false
  refine ⟨?_, ?_, ?_, ?_, ?_, ?_, h.outgoing_source, h.enqueued_source⟩
  · intro x hx
    rw [OrdMap.contains_insert] at hx
    by_cases hxn : x = s.base.nextActorId
    · exact hxn ▸ Nat.lt_succ_self _
    · exact (h.actors_lt x (by simpa [hxn] using hx)).trans (Nat.lt_succ_self _)
  · exact fun x hx => (h.exited_lt x hx).trans (Nat.lt_succ_self _)
  · intro x hx
    rw [OrdMap.contains_insert] at hx
    by_cases hxn : x = s.base.nextActorId
    · exact hxn ▸ hnew
    · exact h.not_exited x (by simpa [hxn] using hx)
  · intro x y hy
    by_cases hv : linker.valid = true
    · simp only [SchedulerBase.linksOf, hv, if_true, SchedulerBase.find?_pushBack,
        List.mem_append] at hy
      rcases hy with (hy | hy) | hy
      · exact (h.joined_of_links x y hy).imp (by simp +contextual [hv]) (by simp +contextual [hv])
      · split at hy <;> simp_all [Net.Joined]
      · split at hy <;> simp_all [Net.Joined]
    · simpa [SchedulerBase.linksOf, Net.Joined, hv] using h.joined_of_links x y
        (by simpa [SchedulerBase.linksOf, hv] using hy)
  · intro x y hj hx hy
    by_cases hv : linker.valid = true
    · simp only [SchedulerBase.linksOf, hv, if_true, SchedulerBase.find?_pushBack,
        List.mem_append]
      simp only [Net.Joined, hv, if_true, List.mem_append, List.mem_singleton,
        Prod.mk.injEq] at hj
      rcases hj with (hj | ⟨rfl, rfl⟩) | (hj | ⟨rfl, rfl⟩)
      · exact Or.inl (Or.inl (h.links_of_joined x y (Or.inl hj) hx hy))
      · exact Or.inl (Or.inr (by simp))
      · exact Or.inl (Or.inl (h.links_of_joined x y (Or.inr hj) hx hy))
      · exact Or.inr (by simp)
    · simpa [SchedulerBase.linksOf, hv] using h.links_of_joined x y
        (by simpa [Net.Joined, hv] using hj) hx hy
  · intro x m hx
    by_cases hv : monitorRef.valid = true
    · have hold := h.monitors_iff x m hx
      simp only [SchedulerBase.monitorsOf] at hold
      simp only [SchedulerBase.monitorsOf, hv, if_true, SchedulerBase.find?_pushBack,
        List.mem_append, hold, List.mem_singleton, Prod.mk.injEq]
      by_cases hxn : x = s.base.nextActorId <;> simp [hxn]
    · simpa [SchedulerBase.monitorsOf, hv] using h.monitors_iff x m hx

lemma Inv.link {s t : Net} {left right : ActorRef} (h : Inv s)
    (hs : step s (.link left right) = some t) : Inv t := by
  simp only [step, SchedulerBase.link] at hs
  split at hs
  · cases hs
  split at hs
  · exact Option.some.inj hs ▸ h
  rename_i base hbase
  split at hbase
  swap
  · cases hbase
  obtain rfl := Option.some.inj hbase
  obtain rfl := Option.some.inj hs
  refine ⟨h.actors_lt, h.exited_lt, h.not_exited, ?_, ?_, h.monitors_iff,
    h.outgoing_source, h.enqueued_source⟩
  · intro x y hy
    simp only [SchedulerBase.linksOf, SchedulerBase.find?_pushBack, List.mem_append] at hy
    rcases hy with (hy | hy) | hy
    · exact (h.joined_of_links x y hy).imp (by simp +contextual) (by simp +contextual)
    · split at hy <;> simp_all [Net.Joined]
    · split at hy <;> simp_all [Net.Joined]
  · intro x y hj hx hy
    simp only [SchedulerBase.linksOf, SchedulerBase.find?_pushBack, List.mem_append]
    simp only [Net.Joined, List.mem_append, List.mem_singleton, Prod.mk.injEq] at hj
    rcases hj with (hj | ⟨rfl, rfl⟩) | (hj | ⟨rfl, rfl⟩)
    · exact Or.inl (Or.inl (h.links_of_joined x y (Or.inl hj) hx hy))
    · exact Or.inl (Or.inr (by simp))
    · exact Or.inl (Or.inl (h.links_of_joined x y (Or.inr hj) hx hy))
    · exact Or.inr (by simp)

lemma Inv.monitor {s t : Net} {monitorRef targetRef : ActorRef} (h : Inv s)
    (hs : step s (.monitor monitorRef targetRef) = some t) : Inv t := by
  simp only [step, SchedulerBase.monitor] at hs
  split at hs
  · exact Option.some.inj hs ▸ h
  rename_i base hbase
  split at hbase
  swap
  · cases hbase
  obtain rfl := Option.some.inj hbase
  obtain rfl := Option.some.inj hs
  refine ⟨h.actors_lt, h.exited_lt, h.not_exited, h.joined_of_links, h.links_of_joined, ?_,
    h.outgoing_source, h.enqueued_source⟩
  intro x m hx
  have hold := h.monitors_iff x m hx
  simp only [SchedulerBase.monitorsOf] at hold
  simp only [SchedulerBase.monitorsOf, SchedulerBase.find?_pushBack, List.mem_append, hold,
    List.mem_singleton, Prod.mk.injEq]
  by_cases hxt : x = targetRef <;> simp [hxt]

lemma Inv.exit {s t : Net} {a : ActorRef} {reason : ExitReason} (h : Inv s)
    (hs : step s (.exit a reason) = some t) : Inv t := by
  simp only [step] at hs
  split at hs
  swap
  · cases hs
  rename_i ha
  obtain rfl := Option.some.inj hs
  refine ⟨?_, ?_, ?_, ?_, ?_, ?_, ?_, ?_⟩
  · intro x hx
    rw [SchedulerBase.collectAndErase, OrdMap.contains_erase, Bool.and_eq_true] at hx
    exact h.actors_lt x hx.2
  · intro x hx
    rcases List.mem_append.mp hx with hx | hx
    · exact h.exited_lt x hx
    · exact List.mem_singleton.mp hx ▸ h.actors_lt a ha
  · intro x hx hmem
    rw [SchedulerBase.collectAndErase, OrdMap.contains_erase, Bool.and_eq_true,
      decide_eq_true_eq] at hx
    rcases List.mem_append.mp hmem with hmem | hmem
    · exact h.not_exited x hx.2 hmem
    · exact hx.1 (List.mem_singleton.mp hmem)
  · intro x y hy
    rw [SchedulerBase.linksOf_collectAndErase] at hy
    refine h.joined_of_links x y ?_
    split at hy
    · simp at hy
    split at hy
    · exact (List.mem_filter.mp hy).1
    · exact hy
  · intro x y hj hx hy
    rw [List.mem_append, not_or, List.mem_singleton] at hx hy
    have hold := h.links_of_joined x y hj hx.1 hy.1
    rw [SchedulerBase.linksOf_collectAndErase, if_neg hx.2]
    split
    · exact List.mem_filter.mpr ⟨hold, by simpa using hy.2⟩
    · exact hold
  · intro x m hx
    rw [List.mem_append, not_or, List.mem_singleton] at hx
    rw [SchedulerBase.monitorsOf_collectAndErase, if_neg hx.2]
    exact h.monitors_iff x m hx.1
  · intro x p hp
    by_cases hxa : x = a
    · subst hxa
      simp only [Function.update_self, SchedulerBase.pendingSignals, List.mem_append,
        List.mem_map] at hp
      refine ⟨?_, by simp⟩
      rcases hp with ⟨b, -, rfl⟩ | ⟨b, -, rfl⟩ <;> rfl
    · simp only [Function.update_of_ne hxa] at hp
      exact (h.outgoing_source x p hp).imp_right fun hm => List.mem_append_left _ hm
  · exact fun p hp => List.mem_append_left _ (h.enqueued_source p hp)

lemma Inv.send {s t : Net} {a : ActorRef} (h : Inv s) (hs : step s (.send a) = some t) :
    Inv t := by
  simp only [step] at hs
  split at hs
  · cases hs
  rename_i target signal rest hout
  obtain rfl := Option.some.inj hs
  have hsrc := h.outgoing_source a (target, signal) (by simp [hout])
  refine ⟨?_, ?_, ?_, ?_, ?_, ?_, ?_, ?_⟩
  · intro x hx
    rw [SchedulerBase.nextActorId_send]
    exact h.actors_lt x (by rwa [SchedulerBase.contains_send] at hx)
  · exact fun x hx => by rw [SchedulerBase.nextActorId_send]; exact h.exited_lt x hx
  · exact fun x hx => h.not_exited x (by rwa [SchedulerBase.contains_send] at hx)
  · intro x y hy
    exact h.joined_of_links x y (by simpa [SchedulerBase.linksOf] using hy)
  · intro x y hj hx hy
    simpa [SchedulerBase.linksOf] using h.links_of_joined x y hj hx hy
  · intro x m hx
    simpa [SchedulerBase.monitorsOf] using h.monitors_iff x m hx
  · intro x p hp
    by_cases hxa : x = a
    · subst hxa
      simp only [Function.update_self] at hp
      exact h.outgoing_source x p (by simp [hout, hp])
    · simp only [Function.update_of_ne hxa] at hp
      exact h.outgoing_source x p hp
  · intro p hp
    split at hp
    · rcases List.mem_append.mp hp with hp | hp
      · exact h.enqueued_source p hp
      · rw [List.mem_singleton.mp hp]
        exact hsrc.1 ▸ hsrc.2
    · exact h.enqueued_source p hp

lemma Inv.step {s t : Net} {l : Label} (h : Inv s) (hs : step s l = some t) : Inv t := by
  cases l with
  | spawn linker monitorRef => exact h.spawn hs
  | link left right => exact h.link hs
  | monitor monitorRef targetRef => exact h.monitor hs
  | exit a reason => exact h.exit hs
  | send a => exact h.send hs

/-- The invariant holds in every state the scheduler reaches. -/
lemma inv_of_run {s : Net} {as : List Label} (hrun : run ExitSignals.step {} as = some s) :
    Inv s :=
  invariant_of_step (fun _ _ _ h hs => h.step hs) inv_init hrun

/-! ### The sends of one `notify_exit` call -/

/-- Among the labels `as` taken from `u` is the send of `p` by the `notify_exit` call of `a`,
and `found` says whether that send found its target registered. -/
def SendMade (u : Net) (as : List Label) (a : ActorRef) (p : ActorRef × Signal)
    (found : Bool) : Prop :=
  ∃ mid rest w, as = mid ++ Label.send a :: rest ∧ run step u mid = some w ∧
    (w.outgoing a).head? = some p ∧ w.base.actors.contains p.1 = found

lemma sendMade_nil {u : Net} {a : ActorRef} {p : ActorRef × Signal} {found : Bool} :
    ¬ SendMade u [] a p found := by
  rintro ⟨mid, rest, w, h, -⟩
  simp at h

lemma sendMade_concat {u w : Net} {as : List Label} {l : Label} {a : ActorRef}
    {p : ActorRef × Signal} {found : Bool} (hrun : run step u as = some w) :
    SendMade u (as ++ [l]) a p found ↔ SendMade u as a p found ∨
      (l = .send a ∧ (w.outgoing a).head? = some p ∧ w.base.actors.contains p.1 = found) := by
  constructor
  · rintro ⟨mid, rest, w', has, hmid, hhead, hfound⟩
    rcases List.eq_nil_or_concat rest with rfl | ⟨rest', l', rfl⟩
    · obtain ⟨rfl, hl⟩ := List.append_inj' has rfl
      obtain rfl : w = w' := Option.some.inj (hrun.symm.trans hmid)
      exact Or.inr ⟨by simpa using hl, hhead, hfound⟩
    · refine Or.inl ⟨mid, rest', w', ?_, hmid, hhead, hfound⟩
      have has' : as ++ [l] = (mid ++ Label.send a :: rest') ++ [l'] := by simpa using has
      exact (List.append_inj' has' rfl).1
  · rintro (⟨mid, rest, w', rfl, hmid, hhead, hfound⟩ | ⟨rfl, hhead, hfound⟩)
    · exact ⟨mid, rest ++ [l], w', by simp, hmid, hhead, hfound⟩
    · exact ⟨as, [], w, rfl, hrun, hhead, hfound⟩

/-- What a step can do to the signals: only an exit collects some, only a send delivers. -/
lemma step_signals {s t : Net} {l : Label} (hs : step s l = some t) :
    (∃ a r, l = .exit a r ∧ s.base.actors.contains a = true ∧
      t.outgoing = Function.update s.outgoing a (s.base.pendingSignals a r) ∧
      t.exited = s.exited ++ [a] ∧ t.enqueued = s.enqueued) ∨
    (∃ a p rest, l = .send a ∧ s.outgoing a = p :: rest ∧
      t.outgoing = Function.update s.outgoing a rest ∧ t.exited = s.exited ∧
      t.enqueued = if s.base.actors.contains p.1 then s.enqueued ++ [p] else s.enqueued) ∨
    ((∀ a r, l ≠ .exit a r) ∧ (∀ a, l ≠ .send a) ∧ t.outgoing = s.outgoing ∧
      t.exited = s.exited ∧ t.enqueued = s.enqueued) := by
  cases l with
  | exit a r =>
      simp only [step] at hs
      split at hs
      · rename_i ha
        obtain rfl := Option.some.inj hs
        exact Or.inl ⟨a, r, rfl, ha, rfl, rfl, rfl⟩
      · cases hs
  | send a =>
      simp only [step] at hs
      split at hs
      · cases hs
      · rename_i target signal rest hout
        obtain rfl := Option.some.inj hs
        exact Or.inr (Or.inl ⟨a, (target, signal), rest, rfl, hout, rfl, rfl, rfl⟩)
  | spawn linker monitorRef =>
      simp only [step] at hs
      split at hs
      · cases hs
      · obtain rfl := Option.some.inj hs
        simp
  | link left right =>
      simp only [step] at hs
      split at hs
      · cases hs
      · split at hs <;> obtain rfl := Option.some.inj hs <;> simp
  | monitor monitorRef targetRef =>
      simp only [step] at hs
      split at hs <;> obtain rfl := Option.some.inj hs <;> simp

/-- A step other than a send of `a` enqueues no signal naming `a`. -/
lemma enqueued_step {s t : Net} {l : Label} {a : ActorRef} {p : ActorRef × Signal} (h : Inv s)
    (hs : step s l = some t) (hp : p.2.source = a) :
    p ∈ t.enqueued ↔ p ∈ s.enqueued ∨
      (l = .send a ∧ (s.outgoing a).head? = some p ∧ s.base.actors.contains p.1 = true) := by
  rcases step_signals hs with ⟨b, r, rfl, -, -, -, he⟩ | ⟨b, q, rest, rfl, hout, -, -, he⟩ |
    ⟨-, hl, -, -, he⟩
  · simp [he]
  · have hsrc : q.2.source = b := (h.outgoing_source b q (by simp [hout])).1
    by_cases hab : b = a
    · subst hab
      by_cases hc : s.base.actors.contains q.1 = true
      · simp only [he, hc, if_true, List.mem_append, List.mem_singleton, hout, List.head?_cons,
          Option.some.injEq, true_and]
        refine or_congr_right ⟨?_, fun hh => hh.1.symm⟩
        rintro rfl
        exact ⟨rfl, hc⟩
      · simp only [he, hc, hout, List.head?_cons, Option.some.injEq, true_and]
        refine ⟨Or.inl, ?_⟩
        rintro (hm | ⟨rfl, hc'⟩)
        · exact hm
        · exact absurd hc' hc
    · -- the signals `b` sends name `b`
      have hne : p ≠ q := fun heq => hab (by rw [← hsrc, ← hp, heq])
      simp only [he, Label.send.injEq, hab, false_and, or_false]
      split <;> simp [hne]
  · simp [he, hl a]

/-- The sends an exited actor has yet to make are used up from the front, one by each of its
send steps, and no other step touches them. -/
lemma outgoing_step {s t : Net} {l : Label} {a : ActorRef} {p : ActorRef × Signal} (h : Inv s)
    (hs : step s l = some t) (ha : a ∈ s.exited) :
    p ∈ s.outgoing a ↔ p ∈ t.outgoing a ∨ (l = .send a ∧ (s.outgoing a).head? = some p) := by
  rcases step_signals hs with ⟨b, r, rfl, hb, ho, -, -⟩ | ⟨b, q, rest, rfl, hout, ho, -, -⟩ |
    ⟨-, hl, ho, -, -⟩
  · have hne : a ≠ b := by
      rintro rfl
      exact h.not_exited a hb ha
    simp [ho, Function.update_of_ne hne]
  · by_cases hab : b = a
    · subst hab
      simp only [ho, hout, Function.update_self, List.mem_cons, List.head?_cons,
        Option.some.injEq, true_and]
      rw [or_comm, eq_comm]
    · simp [ho, Function.update_of_ne (Ne.symm hab), hab]
  · simp [ho, hl a]

lemma exited_step {s t : Net} {l : Label} {x : ActorRef} (hs : step s l = some t) :
    x ∈ t.exited ↔ x ∈ s.exited ∨ ∃ r, l = .exit x r := by
  rcases step_signals hs with ⟨b, r, rfl, -, -, he, -⟩ | ⟨b, q, rest, rfl, -, -, he, -⟩ |
    ⟨hl, -, -, he, -⟩
  · simp [he, eq_comm]
  · simp [he]
  · simp [he, hl x]

lemma mem_exited_of_run {u s : Net} {as : List Label} {x : ActorRef}
    (hrun : run step u as = some s) : x ∈ s.exited ↔ x ∈ u.exited ∨ ∃ r, .exit x r ∈ as := by
  induction as using List.reverseRecOn generalizing s with
  | nil =>
      obtain rfl := Option.some.inj hrun
      simp
  | append_singleton as l ih =>
      obtain ⟨w, hw, hl⟩ := run_concat.mp hrun
      rw [exited_step hl, ih hw]
      simp only [List.mem_append, List.mem_singleton, exists_or, or_assoc, eq_comm]

section Fanout

variable {u s : Net} {post : List Label} {a : ActorRef}

/-- From an exit of `a` on, a signal naming `a` is enqueued exactly when a send of it found
its target registered. -/
lemma enqueued_of_run (hu : Inv u) (hrun : run step u post = some s)
    {p : ActorRef × Signal} (hp : p.2.source = a) :
    p ∈ s.enqueued ↔ p ∈ u.enqueued ∨ SendMade u post a p true := by
  induction post using List.reverseRecOn generalizing s with
  | nil =>
      obtain rfl := Option.some.inj hrun
      simp [sendMade_nil]
  | append_singleton post l ih =>
      obtain ⟨w, hw, hl⟩ := run_concat.mp hrun
      have hwInv : Inv w := invariant_of_step (fun _ _ _ h hs => h.step hs) hu hw
      rw [enqueued_step hwInv hl hp, ih hw, sendMade_concat hw, or_assoc]

/-- Every signal collected at the exit of `a` is either still to be sent or its send has
been made. -/
lemma outgoing_of_run (hu : Inv u) (ha : a ∈ u.exited) (hrun : run step u post = some s)
    (p : ActorRef × Signal) :
    p ∈ u.outgoing a ↔ p ∈ s.outgoing a ∨ ∃ found, SendMade u post a p found := by
  induction post using List.reverseRecOn generalizing s with
  | nil =>
      obtain rfl := Option.some.inj hrun
      simp [sendMade_nil]
  | append_singleton post l ih =>
      obtain ⟨w, hw, hl⟩ := run_concat.mp hrun
      have hwInv : Inv w := invariant_of_step (fun _ _ _ h hs => h.step hs) hu hw
      have haw : a ∈ w.exited := (mem_exited_of_run hw).mpr (Or.inl ha)
      simp only [ih hw, outgoing_step (p := p) hwInv hl haw, sendMade_concat hw, exists_or,
        or_assoc]
      refine or_congr_right ?_
      rw [or_comm]
      refine or_congr_right ⟨fun hh => ⟨_, hh.1, hh.2, rfl⟩, ?_⟩
      rintro ⟨_, hlab, hhead, -⟩
      exact ⟨hlab, hhead⟩

end Fanout

/-! ### Exit signals reach exactly the right actors -/

lemma mem_pendingSignals {s : SchedulerBase} {a : ActorRef} {r : ExitReason}
    {p : ActorRef × Signal} : p ∈ s.pendingSignals a r ↔
      (p.1 ∈ s.linksOf a ∧ p.2 = .exit a r) ∨ (p.1 ∈ s.monitorsOf a ∧ p.2 = .down a r) := by
  obtain ⟨b, sg⟩ := p
  simp [SchedulerBase.pendingSignals, eq_comm]

/-- **Exit signals reach exactly the right actors.** In every run, and for the exit of `a`
with reason `r` in it, `t` being the state before the locked section and `t'` the one after:
the only signals naming `a` are `a`'s exit and down signals with reason `r`; an exit signal
has been enqueued to `b` exactly when `a` and `b` had been joined before and the send to `b`
found it registered, and that send is made for every `b` joined with `a` that has not exited
itself; a down signal likewise for the monitors of `a`. Nothing else is ever enqueued. -/
theorem exit_signals_exact {as : List Label} {s : Net} (hrun : run step {} as = some s) :
    (∀ p ∈ s.enqueued, Label.exit p.2.source p.2.reason ∈ as) ∧
    ∀ pre post a r t t', as = pre ++ Label.exit a r :: post → run step {} pre = some t →
      step t (.exit a r) = some t' →
      (∀ p ∈ s.enqueued, p.2.source = a → p.2 = .exit a r ∨ p.2 = .down a r) ∧
      ∀ b,
        ((b, Signal.exit a r) ∈ s.enqueued ↔
          t.Joined a b ∧ SendMade t' post a (b, .exit a r) true) ∧
        (t.Joined a b → b ∉ t.exited → (b, Signal.exit a r) ∈ s.outgoing a ∨
          ∃ found, SendMade t' post a (b, .exit a r) found) ∧
        ((b, Signal.down a r) ∈ s.enqueued ↔
          (b, a) ∈ t.monitored ∧ SendMade t' post a (b, .down a r) true) ∧
        ((b, a) ∈ t.monitored → (b, Signal.down a r) ∈ s.outgoing a ∨
          ∃ found, SendMade t' post a (b, .down a r) found) := by
  -- an actor exits once, so what names it is what its exit has sent
  have main : ∀ pre post a r t t', as = pre ++ Label.exit a r :: post →
      run step {} pre = some t → step t (.exit a r) = some t' →
      (a ∉ t.exited ∧ Inv t) ∧
      (∀ p : ActorRef × Signal, p.2.source = a →
        (p ∈ s.enqueued ↔ SendMade t' post a p true)) ∧
      (∀ p, p ∈ t.base.pendingSignals a r ↔
        p ∈ s.outgoing a ∨ ∃ found, SendMade t' post a p found) := by
    intro pre post a r t t' has hpre hexit
    have ht : Inv t := inv_of_run hpre
    have ht' : Inv t' := ht.step hexit
    have hpost : run step t' post = some s := by
      rw [has, run_append, hpre] at hrun
      simpa [run_cons, hexit] using hrun
    rcases step_signals hexit with ⟨a', r', hl, hreg, ho, hx, he⟩ | ⟨_, _, _, hl, -⟩ |
      ⟨hl, -⟩
    · cases hl
      have hnot : a ∉ t.exited := ht.not_exited a hreg
      refine ⟨⟨hnot, ht⟩, fun p hp => ?_, fun p => ?_⟩
      · rw [enqueued_of_run ht' hpost hp, he]
        exact or_iff_right fun hm => hnot (hp ▸ ht.enqueued_source p hm)
      · rw [← outgoing_of_run ht' (by simp [hx]) hpost p, ho, Function.update_self]
    · cases hl
    · exact absurd rfl (hl a r)
  have reasons : ∀ pre post a r t t', as = pre ++ Label.exit a r :: post →
      run step {} pre = some t → step t (.exit a r) = some t' →
      ∀ p ∈ s.enqueued, p.2.source = a → p.2 = .exit a r ∨ p.2 = .down a r := by
    intro pre post a r t t' has hpre hexit p hp hsrc
    obtain ⟨-, henq, hout⟩ := main pre post a r t t' has hpre hexit
    have hpend := (hout p).mpr (Or.inr ⟨true, (henq p hsrc).mp hp⟩)
    exact (mem_pendingSignals.mp hpend).imp And.right And.right
  refine ⟨fun p hp => ?_, fun pre post a r t t' has hpre hexit =>
    ⟨reasons pre post a r t t' has hpre hexit, fun b => ?_⟩⟩
  · -- the actor named by `p` has exited, and its reason is the one of that exit
    have hx : p.2.source ∈ s.exited := (inv_of_run hrun).enqueued_source p hp
    obtain ⟨r, hr⟩ : ∃ r, Label.exit p.2.source r ∈ as := by
      simpa using (mem_exited_of_run hrun).mp hx
    obtain ⟨pre, post, has⟩ := List.append_of_mem hr
    rw [has, run_append, Option.bind_eq_some_iff] at hrun
    obtain ⟨t, hpre, hrest⟩ := hrun
    rw [run_cons, Option.bind_eq_some_iff] at hrest
    obtain ⟨t', hexit, -⟩ := hrest
    have hreason : p.2.reason = r := by
      rcases reasons pre post _ r t t' has hpre hexit p hp rfl with h | h <;> rw [h] <;> rfl
    rw [hreason]
    exact hr
  · obtain ⟨⟨hnot, ht⟩, henq, hout⟩ := main pre post a r t t' has hpre hexit
    have hlinks : (b, Signal.exit a r) ∈ t.base.pendingSignals a r ↔ b ∈ t.base.linksOf a := by
      simp [mem_pendingSignals]
    have hmons : (b, Signal.down a r) ∈ t.base.pendingSignals a r ↔ (b, a) ∈ t.monitored := by
      simp [mem_pendingSignals, ht.monitors_iff a b hnot]
    refine ⟨?_, fun hj hb => ?_, ?_, fun hm => (hout _).mp (hmons.mpr hm)⟩
    · rw [henq _ rfl]
      refine ⟨fun hsend => ⟨?_, hsend⟩, And.right⟩
      exact ht.joined_of_links a b (hlinks.mp ((hout _).mpr (Or.inr ⟨true, hsend⟩)))
    · exact (hout _).mp (hlinks.mpr (ht.links_of_joined a b hj hnot hb))
    · rw [henq _ rfl]
      exact ⟨fun hsend => ⟨hmons.mp ((hout _).mpr (Or.inr ⟨true, hsend⟩)), hsend⟩, And.right⟩

/-- Actor `2`, linked with `1` at its spawn and monitored by `3`, exits with an error. -/
theorem exit_signals_exact_linked_pair :
    ∃ s t t' : Net, run step {} [.spawn 0 0, .spawn 1 0, .spawn 0 0, .monitor 3 2, .exit 2 .error,
        .send 2, .send 2] = some s ∧
      ((1, Signal.exit 2 .error) ∈ s.enqueued ↔
        t.Joined 2 1 ∧ SendMade t' [.send 2, .send 2] 2 (1, .exit 2 .error) true) ∧
      s.enqueued = [(1, .exit 2 .error), (3, .down 2 .error)] :=
  ⟨_, _, _, rfl,
    (((exit_signals_exact rfl).2 [.spawn 0 0, .spawn 1 0, .spawn 0 0, .monitor 3 2]
      [.send 2, .send 2] 2 .error _ _ rfl rfl rfl).2 1).1, rfl⟩

end ExitSignals

end Agner
