import Agner.Scheduler.ExitSignals

/-!
Actors that are linked again, or with themselves.

`links_` keeps a list for every actor, and `link` and `spawn_link` append to two of them without
looking. `notify_exit` walks the list of the actor that exits with a range-based `for`, and its
body removes that actor from the list of every actor it comes to.

* `Walk.visit`, `walk`: the loop, by the position it has come to in the list as it then is.
* `Undisturbed`, `walk_undisturbed_iff`: the loop visits every element once and shortens other
  lists only, if and only if the actor was never linked with itself.
* `told`, `joins`, `exit_told_once`: an exit enqueues as many exit signals to another actor as
  there were links between the two, so at most one if no two linked actors are linked again.
-/

namespace Agner

open Runs

namespace Linking

open ExitSignals (Net Label)

/-! ### The loop of `notify_exit` -/

/-- How far the loop over the list of an actor has come. -/
structure Walk where
  links : OrdMap ActorRef (List ActorRef)
  /-- The elements it has visited. -/
  visited : List ActorRef := []
  /-- `exit_signals`. -/
  signals : List (ActorRef × Signal) := []
  /-- The actors whose lists it has shortened. -/
  shrunk : List ActorRef := []

/-- The list kept for an actor. -/
def Walk.listOf (w : Walk) (x : ActorRef) : List ActorRef := (w.links.find? x).getD []

/-- The body of the loop, for the element `linked`. -/
def Walk.body (a : ActorRef) (reason : ExitReason) (linked : ActorRef) (w : Walk) : Walk where
  links := w.links.modify linked fun l => l.filter fun x => decide (x ≠ a)
  visited := w.visited ++ [linked]
  signals := w.signals ++ [(linked, .exit a reason)]
  shrunk := if a ∈ w.listOf linked then w.shrunk ++ [linked] else w.shrunk

/-- One round of the loop. Once the list that is walked gets shorter the iterators into it are
invalid, and the loop has no meaning in the language. -/
def Walk.visit (a : ActorRef) (reason : ExitReason) (w : Walk) : Option Walk :=
  (w.listOf a)[w.visited.length]?.bind fun linked =>
    if ((w.body a reason linked).listOf a).length < (w.listOf a).length then none
    else some (w.body a reason linked)

/-- The loop, which ends where the list ended when it began. -/
def Walk.visits (a : ActorRef) (reason : ExitReason) : ℕ → Walk → Option Walk
  | 0, w => some w
  | n + 1, w => (w.visit a reason).bind (visits a reason n)

/-- The loop of `notify_exit` over `links_[a]`. -/
def walk (s : SchedulerBase) (a : ActorRef) (reason : ExitReason) : Option Walk :=
  Walk.visits a reason (s.linksOf a).length { links := s.links }

/-- The locked section of `notify_exit`. -/
def notifyExitLocked (s : SchedulerBase) (a : ActorRef) (reason : ExitReason) :
    Option (SchedulerBase × List (ActorRef × Signal)) :=
  (walk s a reason).map fun w =>
    ({ actors := s.actors.erase a
       links := w.links.erase a
       monitors := s.monitors.erase a
       nextActorId := s.nextActorId
       activeActorCount := s.activeActorCount - 1 },
      w.signals ++ (s.monitorsOf a).map fun mon => (mon, Signal.down a reason))

lemma Walk.listOf_body (w : Walk) (a linked x : ActorRef) (reason : ExitReason) :
    (w.body a reason linked).listOf x =
      if x = linked then (w.listOf x).filter fun y => decide (y ≠ a) else w.listOf x := by
  rw [Walk.listOf, Walk.body, OrdMap.find?_modify, Walk.listOf]
  split
  · cases w.links.find? x <;> rfl
  · rfl

section Loop

variable {a : ActorRef} (reason : ExitReason) {w : Walk}

/-- The actor itself is not visited. -/
lemma Walk.visit_other {linked : ActorRef} {rest : List ActorRef}
    (hlist : w.listOf a = w.visited ++ linked :: rest) (hne : linked ≠ a) :
    ∃ t, w.visit a reason = some t ∧ t.listOf a = w.listOf a ∧
      t.links = (w.links.modify linked fun l => l.filter fun x => decide (x ≠ a)) ∧
      t.visited = w.visited ++ [linked] ∧ t.signals = w.signals ++ [(linked, .exit a reason)] ∧
      ∀ x ∈ t.shrunk, x ∈ w.shrunk ∨ x = linked := by
  have hget : (w.listOf a)[w.visited.length]? = some linked := by
    rw [hlist, List.getElem?_append_right le_rfl, Nat.sub_self]
    rfl
  have hkeep := w.listOf_body a linked a reason
  rw [if_neg hne.symm] at hkeep
  refine ⟨w.body a reason linked, ?_, hkeep, rfl, rfl, rfl, fun x hx => ?_⟩
  · rw [Walk.visit, hget, Option.bind_some, hkeep, if_neg (lt_irrefl _)]
  · change x ∈ (if a ∈ w.listOf linked then w.shrunk ++ [linked] else w.shrunk) at hx
    split at hx
    · exact (List.mem_append.mp hx).imp_right List.mem_singleton.mp
    · exact .inl hx

/-- Visiting the actor itself shortens its list. -/
lemma Walk.visit_self {rest : List ActorRef} (hlist : w.listOf a = w.visited ++ a :: rest) :
    w.visit a reason = none := by
  have hget : (w.listOf a)[w.visited.length]? = some a := by
    rw [hlist, List.getElem?_append_right le_rfl, Nat.sub_self]
    rfl
  have hshort : ((w.listOf a).filter fun y => decide (y ≠ a)).length < (w.listOf a).length := by
    refine List.length_filter_lt_length_iff_exists.mpr ⟨a, ?_, by simp⟩
    rw [hlist]
    exact List.mem_append_right _ List.mem_cons_self
  rw [Walk.visit, hget, Option.bind_some, w.listOf_body, if_pos rfl, if_pos hshort]

/-- The loop over elements other than the actor itself. -/
lemma Walk.visits_eq_some {rest : List ActorRef} (hlist : w.listOf a = w.visited ++ rest)
    (hrest : a ∉ rest) :
    ∃ t, Walk.visits a reason rest.length w = some t ∧
      t.links = rest.foldl
        (fun m linked => m.modify linked fun l => l.filter fun x => decide (x ≠ a)) w.links ∧
      t.visited = w.visited ++ rest ∧
      t.signals = w.signals ++ rest.map (fun linked => (linked, Signal.exit a reason)) ∧
      ∀ x ∈ t.shrunk, x ∈ w.shrunk ∨ x ∈ rest := by
  induction rest generalizing w with
  | nil => exact ⟨w, rfl, rfl, by simp, by simp, fun x hx => .inl hx⟩
  | cons linked rest ih =>
      obtain ⟨hne, hrest⟩ := List.ne_and_not_mem_of_not_mem_cons hrest
      obtain ⟨u, hu, hkeep, hlinks, hvisited, hsignals, hshrunk⟩ :=
        Walk.visit_other reason hlist hne.symm
      obtain ⟨t, ht, htlinks, htvisited, htsignals, htshrunk⟩ :=
        ih (w := u) (by rw [hkeep, hlist, hvisited]; simp) hrest
      refine ⟨t, ?_, ?_, ?_, ?_, fun x hx => ?_⟩
      · rw [List.length_cons, Walk.visits, hu, Option.bind_some, ht]
      · rw [htlinks, hlinks, List.foldl_cons]
      · rw [htvisited, hvisited, List.append_assoc, List.singleton_append]
      · rw [htsignals, hsignals, List.append_assoc, List.singleton_append, List.map_cons]
      · rcases htshrunk x hx with hx | hx
        · exact (hshrunk x hx).imp_right fun heq => by rw [heq]; exact List.mem_cons_self
        · exact .inr (List.mem_cons_of_mem _ hx)

/-- The loop comes to the actor itself. -/
lemma Walk.visits_eq_none {rest : List ActorRef} (hlist : w.listOf a = w.visited ++ rest)
    (hrest : a ∈ rest) : Walk.visits a reason rest.length w = none := by
  induction rest generalizing w with
  | nil => cases hrest
  | cons linked rest ih =>
      rw [List.length_cons, Walk.visits]
      by_cases hne : linked = a
      · rw [hne] at hlist
        rw [Walk.visit_self reason hlist, Option.bind_none]
      · obtain ⟨u, hu, hkeep, -, hvisited, -, -⟩ :=
          Walk.visit_other reason hlist hne
        rw [hu, Option.bind_some]
        refine ih (by rw [hkeep, hlist, hvisited]; simp) ?_
        exact (List.mem_cons.mp hrest).resolve_left (Ne.symm hne)

end Loop

/-- The loop visits every element of the list once, collects one signal for each, and shortens
the lists of other actors only. -/
def Undisturbed (s : SchedulerBase) (a : ActorRef) (reason : ExitReason) : Prop :=
  ∃ w, walk s a reason = some w ∧ w.visited = s.linksOf a ∧
    w.signals = (s.linksOf a).map (fun linked => (linked, Signal.exit a reason)) ∧
    ∀ x ∈ w.shrunk, x ≠ a

lemma walk_eq_some {s : SchedulerBase} {a : ActorRef} (reason : ExitReason)
    (h : a ∉ s.linksOf a) :
    ∃ w, walk s a reason = some w ∧
      w.links = (s.linksOf a).foldl
        (fun m linked => m.modify linked fun l => l.filter fun x => decide (x ≠ a)) s.links ∧
      w.visited = s.linksOf a ∧
      w.signals = (s.linksOf a).map (fun linked => (linked, Signal.exit a reason)) ∧
      ∀ x ∈ w.shrunk, x ∈ s.linksOf a := by
  obtain ⟨w, hw, hlinks, hvisited, hsignals, hshrunk⟩ :=
    Walk.visits_eq_some reason (w := { links := s.links }) (List.nil_append _).symm h
  exact ⟨w, hw, hlinks, hvisited, hsignals, fun x hx => (hshrunk x hx).resolve_left (by simp)⟩

lemma walk_eq_none {s : SchedulerBase} {a : ActorRef} (reason : ExitReason)
    (h : a ∈ s.linksOf a) : walk s a reason = none :=
  Walk.visits_eq_none reason (w := { links := s.links }) (List.nil_append _).symm h

lemma undisturbed_iff_not_mem {s : SchedulerBase} {a : ActorRef} {reason : ExitReason} :
    Undisturbed s a reason ↔ a ∉ s.linksOf a := by
  constructor
  · rintro ⟨w, hw, -⟩ hmem
    rw [walk_eq_none reason hmem] at hw
    cases hw
  · intro hmem
    obtain ⟨w, hw, -, hvisited, hsignals, hshrunk⟩ := walk_eq_some reason hmem
    exact ⟨w, hw, hvisited, hsignals, fun x hx hxa => hmem (hxa ▸ hshrunk x hx)⟩

/-- The locked section of an actor that is not linked with itself. -/
lemma notifyExitLocked_eq_some {s : SchedulerBase} {a : ActorRef} (reason : ExitReason)
    (h : a ∉ s.linksOf a) :
    notifyExitLocked s a reason = some (s.collectAndErase a, s.pendingSignals a reason) := by
  obtain ⟨w, hw, hlinks, -, hsignals, -⟩ := walk_eq_some reason h
  rw [notifyExitLocked, hw, Option.map_some, hlinks, hsignals]
  rfl

lemma notifyExitLocked_eq_none {s : SchedulerBase} {a : ActorRef} (reason : ExitReason)
    (h : a ∈ s.linksOf a) : notifyExitLocked s a reason = none := by
  rw [notifyExitLocked, walk_eq_none reason h, Option.map_none]

/-! ### Runs -/

/-- One step, in which actors may be joined again and with themselves. -/
def step (s : Net) : Label → Option Net
  | .spawn linker monitorRef =>
      let (ref, base) := s.base.spawnImpl linker monitorRef
      some { s with
        base := base
        joined := if linker.valid then s.joined ++ [(linker, ref)] else s.joined
        monitored := if monitorRef.valid then s.monitored ++ [(monitorRef, ref)]
          else s.monitored }
  | .link left right =>
      match s.base.link left right with
      | none => some s
      | some base => some { s with base := base, joined := s.joined ++ [(left, right)] }
  | .exit a reason =>
      if s.base.actors.contains a then
        (notifyExitLocked s.base a reason).map fun (base, signals) =>
          { s with
            base := base
            outgoing := Function.update s.outgoing a signals
            exited := s.exited ++ [a] }
      else none
  | l => ExitSignals.step s l

/-- How often the two actors were joined, in either order. -/
def joins (s : Net) (a b : ActorRef) : ℕ := s.joined.count (a, b) + s.joined.count (b, a)

/-- What ties the lists of links to the history. -/
structure Inv (s : Net) : Prop where
  actors_lt : ∀ x, s.base.actors.contains x = true → x < s.base.nextActorId
  exited_lt : ∀ x ∈ s.exited, x < s.base.nextActorId
  not_exited : ∀ x, s.base.actors.contains x = true → x ∉ s.exited
  count : ∀ x y, x ∉ s.exited → y ∉ s.exited → (s.base.linksOf x).count y = joins s x y
  silent : ∀ x, x ∉ s.exited → s.outgoing x = [] ∧ ∀ p ∈ s.enqueued, p.2.source ≠ x
  named : ∀ x, ∀ p ∈ s.outgoing x, p.2.source = x

lemma inv_init : Inv {} where
  actors_lt := by simp [OrdMap.contains]
  exited_lt := by simp
  not_exited := by simp
  count := by simp [SchedulerBase.linksOf, joins]
  silent := by simp
  named := by simp

/-- One of the two actors is appended to the list of the other. -/
lemma count_append_ite (left right x y : ActorRef) :
    (if x = left then [right] else []).count y =
      ([(left, right)] : List (ActorRef × ActorRef)).count (x, y) := by
  by_cases hx : x = left
  · simp [hx, List.count_singleton]
  · simp [hx, Ne.symm hx]

/-- Joining appends each of the two actors to the list of the other. -/
lemma count_pushBack (m : OrdMap ActorRef (List ActorRef)) (left right x y : ActorRef) :
    (((pushBack (pushBack m left right) right left).find? x).getD []).count y =
      ((m.find? x).getD []).count y +
        (([(left, right)] : List (ActorRef × ActorRef)).count (x, y) +
          ([(left, right)] : List (ActorRef × ActorRef)).count (y, x)) := by
  have hswap : ([(left, right)] : List (ActorRef × ActorRef)).count (y, x) =
      ([(right, left)] : List (ActorRef × ActorRef)).count (x, y) := by
    simp [List.count_singleton, and_comm]
  rw [SchedulerBase.find?_pushBack, SchedulerBase.find?_pushBack, List.count_append,
    List.count_append, count_append_ite, count_append_ite, hswap, Nat.add_assoc]

lemma joins_concat {s t : Net} {left right : ActorRef}
    (ht : t.joined = s.joined ++ [(left, right)]) (x y : ActorRef) :
    joins t x y = joins s x y +
      (([(left, right)] : List (ActorRef × ActorRef)).count (x, y) +
        ([(left, right)] : List (ActorRef × ActorRef)).count (y, x)) := by
  rw [joins, joins, ht, List.count_append, List.count_append]
  omega

lemma Inv.spawn {s t : Net} {linker monitorRef : ActorRef} (h : Inv s)
    (hs : step s (.spawn linker monitorRef) = some t) : Inv t := by
  simp only [step, SchedulerBase.spawnImpl] at hs
  obtain rfl := Option.some.inj hs
  have hnew : s.base.nextActorId ∉ s.exited := fun hm => (h.exited_lt _ hm).false
  refine ⟨fun x hx => ?_, fun x hx => (h.exited_lt x hx).trans (Nat.lt_succ_self _),
    fun x hx => ?_, fun x y hx hy => ?_, h.silent, h.named⟩
  · rw [OrdMap.contains_insert, Bool.or_eq_true, decide_eq_true_eq] at hx
    rcases hx with rfl | hx
    · exact Nat.lt_succ_self _
    · exact (h.actors_lt x hx).trans (Nat.lt_succ_self _)
  · rw [OrdMap.contains_insert, Bool.or_eq_true, decide_eq_true_eq] at hx
    rcases hx with rfl | hx
    · exact hnew
    · exact h.not_exited x hx
  · by_cases hv : linker.valid = true
    · refine Eq.trans ?_ (joins_concat (s := s) (if_pos hv) x y).symm
      rw [← h.count x y hx hy]
      simp only [SchedulerBase.linksOf, hv, if_true, count_pushBack]
    · simpa [SchedulerBase.linksOf, joins, hv] using h.count x y hx hy

lemma Inv.link {s t : Net} {left right : ActorRef} (h : Inv s)
    (hs : step s (.link left right) = some t) : Inv t := by
  simp only [step, SchedulerBase.link] at hs
  split at hs
  · exact Option.some.inj hs ▸ h
  rename_i base hbase
  rw [Option.ite_none_right_eq_some] at hbase
  obtain rfl := Option.some.inj hbase.2
  obtain rfl := Option.some.inj hs
  refine ⟨h.actors_lt, h.exited_lt, h.not_exited, fun x y hx hy => ?_, h.silent, h.named⟩
  rw [joins_concat (s := s) rfl, ← h.count x y hx hy]
  exact count_pushBack _ _ _ _ _

lemma Inv.monitor {s t : Net} {monitorRef targetRef : ActorRef} (h : Inv s)
    (hs : step s (.monitor monitorRef targetRef) = some t) : Inv t := by
  simp only [step, ExitSignals.step, SchedulerBase.monitor] at hs
  split at hs
  · exact Option.some.inj hs ▸ h
  rename_i base hbase
  rw [Option.ite_none_right_eq_some] at hbase
  obtain rfl := Option.some.inj hbase.2
  obtain rfl := Option.some.inj hs
  exact ⟨h.actors_lt, h.exited_lt, h.not_exited, h.count, h.silent, h.named⟩

/-- An exit that has a meaning is one of an actor that is not linked with itself. -/
lemma step_exit {s t : Net} {a : ActorRef} {reason : ExitReason}
    (hs : step s (.exit a reason) = some t) :
    s.base.actors.contains a = true ∧ a ∉ s.base.linksOf a ∧
      t = { s with
        base := s.base.collectAndErase a
        outgoing := Function.update s.outgoing a (s.base.pendingSignals a reason)
        exited := s.exited ++ [a] } := by
  simp only [step, Option.ite_none_right_eq_some] at hs
  obtain ⟨ha, hs⟩ := hs
  by_cases hmem : a ∈ s.base.linksOf a
  · rw [notifyExitLocked_eq_none reason hmem] at hs
    cases hs
  · rw [notifyExitLocked_eq_some reason hmem] at hs
    exact ⟨ha, hmem, (Option.some.inj hs).symm⟩

lemma step_exit_eq {s : Net} {a : ActorRef} (reason : ExitReason)
    (ha : s.base.actors.contains a = true) (hmem : a ∉ s.base.linksOf a) :
    step s (.exit a reason) = some { s with
      base := s.base.collectAndErase a
      outgoing := Function.update s.outgoing a (s.base.pendingSignals a reason)
      exited := s.exited ++ [a] } := by
  simp only [step, if_pos ha, notifyExitLocked_eq_some reason hmem, Option.map_some]

lemma Inv.exit {s t : Net} {a : ActorRef} {reason : ExitReason} (h : Inv s)
    (hs : step s (.exit a reason) = some t) : Inv t := by
  obtain ⟨ha, -, rfl⟩ := step_exit hs
  have hne : ∀ {x}, x ∉ s.exited ++ [a] → x ∉ s.exited ∧ x ≠ a := fun hx => by
    simpa [not_or] using hx
  refine ⟨fun x hx => ?_, fun x hx => ?_, fun x hx hmem => ?_, fun x y hx hy => ?_,
    fun x hx => ?_, fun x p hp => ?_⟩
  · rw [SchedulerBase.collectAndErase, OrdMap.contains_erase, Bool.and_eq_true] at hx
    exact h.actors_lt x hx.2
  · rcases List.mem_append.mp hx with hx | hx
    · exact h.exited_lt x hx
    · exact List.mem_singleton.mp hx ▸ h.actors_lt a ha
  · rw [SchedulerBase.collectAndErase, OrdMap.contains_erase, Bool.and_eq_true,
      decide_eq_true_eq] at hx
    rcases List.mem_append.mp hmem with hmem | hmem
    · exact h.not_exited x hx.2 hmem
    · exact hx.1 (List.mem_singleton.mp hmem)
  · -- only the actor that exits is removed from lists
    obtain ⟨hx, hxa⟩ := hne hx
    obtain ⟨hy, hya⟩ := hne hy
    refine Eq.trans ?_ (h.count x y hx hy)
    rw [SchedulerBase.linksOf_collectAndErase, if_neg hxa]
    split
    · exact List.count_filter (by simpa using hya)
    · rfl
  · obtain ⟨hx, hxa⟩ := hne hx
    obtain ⟨hout, henq⟩ := h.silent x hx
    exact ⟨(Function.update_of_ne hxa _ _).trans hout, henq⟩
  · by_cases hxa : x = a
    · simp only [hxa, Function.update_self, SchedulerBase.pendingSignals] at hp
      rw [hxa]
      rcases List.mem_append.mp hp with hp | hp <;>
        · obtain ⟨b, -, rfl⟩ := List.mem_map.mp hp
          rfl
    · simp only [Function.update_of_ne hxa] at hp
      exact h.named x p hp

/-- A send takes the next signal of an actor that has exited. -/
lemma step_send {s t : Net} {a : ActorRef} (hs : step s (.send a) = some t) :
    ∃ p rest, s.outgoing a = p :: rest ∧ t = { s with
      base := s.base.send p.1 p.2
      outgoing := Function.update s.outgoing a rest
      enqueued := if s.base.actors.contains p.1 then s.enqueued ++ [p] else s.enqueued } := by
  simp only [step, ExitSignals.step] at hs
  split at hs
  · cases hs
  · rename_i target signal rest hout
    exact ⟨(target, signal), rest, hout, (Option.some.inj hs).symm⟩

lemma Inv.send {s t : Net} {a : ActorRef} (h : Inv s) (hs : step s (.send a) = some t) :
    Inv t := by
  obtain ⟨p, rest, hout, rfl⟩ := step_send hs
  have hsrc : p.2.source = a := h.named a p (by rw [hout]; exact List.mem_cons_self)
  have hexited : a ∈ s.exited := by
    by_contra hne
    rw [(h.silent a hne).1] at hout
    cases hout
  refine ⟨fun x hx => ?_, fun x hx => ?_, fun x hx => ?_, fun x y hx hy => ?_, fun x hx => ?_,
    fun x q hq => ?_⟩
  · rw [SchedulerBase.nextActorId_send]
    exact h.actors_lt x (by rwa [SchedulerBase.contains_send] at hx)
  · rw [SchedulerBase.nextActorId_send]
    exact h.exited_lt x hx
  · exact h.not_exited x (by rwa [SchedulerBase.contains_send] at hx)
  · refine Eq.trans ?_ (h.count x y hx hy)
    rw [SchedulerBase.linksOf, SchedulerBase.links_send, SchedulerBase.linksOf]
  · have hxa : x ≠ a := fun heq => hx (heq ▸ hexited)
    refine ⟨(Function.update_of_ne hxa _ _).trans (h.silent x hx).1, fun q hq => ?_⟩
    have hq' : q ∈ s.enqueued ∨ q = p := by
      change q ∈ (if s.base.actors.contains p.1 then s.enqueued ++ [p] else s.enqueued) at hq
      split at hq
      · exact (List.mem_append.mp hq).imp_right List.mem_singleton.mp
      · exact .inl hq
    rcases hq' with hq | rfl
    · exact (h.silent x hx).2 q hq
    · exact fun heq => hxa (heq.symm.trans hsrc)
  · by_cases hxa : x = a
    · rw [hxa]
      simp only [hxa, Function.update_self] at hq
      exact h.named a q (by rw [hout]; exact List.mem_cons_of_mem _ hq)
    · simp only [Function.update_of_ne hxa] at hq
      exact h.named x q hq

lemma Inv.step {s t : Net} {l : Label} (h : Inv s) (hs : step s l = some t) : Inv t := by
  cases l with
  | spawn linker monitorRef => exact h.spawn hs
  | link left right => exact h.link hs
  | monitor monitorRef targetRef => exact h.monitor hs
  | exit a reason => exact h.exit hs
  | send a => exact h.send hs

lemma inv_of_run {s : Net} {labels : List Label} (hrun : run step {} labels = some s) : Inv s :=
  invariant_of_step (fun _ _ _ h hs => h.step hs) inv_init hrun

/-! ### Actors linked with themselves -/

/-- The step joins no actor with itself. -/
def Proper (s : Net) : Label → Prop
  | .spawn linker _ => linker ≠ s.base.nextActorId
  | .link left right => left ≠ right
  | _ => True

instance (s : Net) : (l : Label) → Decidable (Proper s l)
  | .spawn _ _ | .link _ _ => inferInstanceAs (Decidable (_ ≠ _))
  | .monitor _ _ | .exit _ _ | .send _ => inferInstanceAs (Decidable True)

lemma mem_linksOf_self {s : Net} (h : Inv s) {a : ActorRef}
    (ha : s.base.actors.contains a = true) : a ∈ s.base.linksOf a ↔ (a, a) ∈ s.joined := by
  have hcount := h.count a a (h.not_exited a ha) (h.not_exited a ha)
  rw [joins] at hcount
  rw [← List.count_pos_iff, ← List.count_pos_iff]
  omega

lemma proper_step {s t : Net} {l : Label} (h : ∀ x, (x, x) ∉ s.joined) (hproper : Proper s l)
    (hs : step s l = some t) (x : ActorRef) : (x, x) ∉ t.joined := by
  have hconcat : ∀ {left right : ActorRef}, left ≠ right →
      (x, x) ∉ s.joined ++ [(left, right)] := by
    intro left right hne hmem
    rcases List.mem_append.mp hmem with hmem | hmem
    · exact h x hmem
    · obtain ⟨rfl, rfl⟩ := Prod.mk.inj (List.mem_singleton.mp hmem)
      exact hne rfl
  cases l with
  | spawn linker monitorRef =>
      simp only [step] at hs
      obtain rfl := Option.some.inj hs
      change (x, x) ∉ (if linker.valid then s.joined ++ [(linker, s.base.nextActorId)]
        else s.joined)
      split
      · exact hconcat hproper
      · exact h x
  | link left right =>
      simp only [step] at hs
      split at hs <;> obtain rfl := Option.some.inj hs
      · exact h x
      · exact hconcat hproper
  | monitor monitorRef targetRef =>
      simp only [step, ExitSignals.step] at hs
      split at hs <;> obtain rfl := Option.some.inj hs <;> exact h x
  | exit a reason =>
      obtain ⟨-, -, rfl⟩ := step_exit hs
      exact h x
  | send a =>
      obtain ⟨p, rest, -, rfl⟩ := step_send hs
      exact h x

/-- In every state reached without joining an actor with itself, and in every reachable state for
the actors that have not been, the loop of `notify_exit` is undisturbed. -/
theorem walk_undisturbed_iff {s : Net} {labels : List Label}
    (hrun : run step {} labels = some s) :
    (AllSteps step Proper {} labels →
      ∀ a reason, s.base.actors.contains a = true → Undisturbed s.base a reason) ∧
    ∀ a reason, s.base.actors.contains a = true →
      (Undisturbed s.base a reason ↔ (a, a) ∉ s.joined) := by
  have hinv := inv_of_run hrun
  have hiff : ∀ a reason, s.base.actors.contains a = true →
      (Undisturbed s.base a reason ↔ (a, a) ∉ s.joined) := fun a reason ha =>
    undisturbed_iff_not_mem.trans (not_congr (mem_linksOf_self hinv ha))
  refine ⟨fun hproper a reason ha => ?_, hiff⟩
  have hnone : ∀ x, (x, x) ∉ s.joined :=
    invariant (fun _ _ _ h hp hs => proper_step h hp hs) (by simp) hproper hrun
  exact (hiff a reason ha).mpr (hnone a)

/-- Two actors linked with each other, and a third linked with itself. -/
def mixed : List Label := [.spawn 0 0, .spawn 1 0, .spawn 0 0, .link 3 3]

/-- The walk for one of two linked actors, and that for an actor linked with itself. -/
theorem walk_undisturbed_iff_mixed :
    (∃ s : Net, run step {} (mixed.take 3) = some s ∧ s.base.linksOf 1 = [2] ∧
      Undisturbed s.base 1 default) ∧
    ∃ s : Net, run step {} mixed = some s ∧ Undisturbed s.base 1 default ∧
      ¬ Undisturbed s.base 3 default := by
  constructor
  · have hrun := run_eq_reached (show (run step {} (mixed.take 3)).isSome = true by decide +kernel)
    exact ⟨_, hrun, by decide +kernel,
      (walk_undisturbed_iff hrun).1 (by decide +kernel) 1 default (by decide +kernel)⟩
  · have hrun := run_eq_reached (show (run step {} mixed).isSome = true by decide +kernel)
    have hiff := (walk_undisturbed_iff hrun).2
    exact ⟨_, hrun, (hiff 1 default (by decide +kernel)).mpr (by decide +kernel),
      mt (hiff 3 default (by decide +kernel)).mp (by decide +kernel)⟩

/-- An actor that was linked with itself exits: the list is shortened while it is walked. -/
theorem self_link_disturbs : ∃ (labels : List Label) (s : Net), run step {} labels = some s ∧
    s.base.actors.contains 1 = true ∧ ¬ Undisturbed s.base 1 default := by
  have hrun := run_eq_reached
    (show (run step {} [.spawn 0 0, .link 1 1]).isSome = true by decide +kernel)
  exact ⟨_, _, hrun, by decide +kernel, mt undisturbed_iff_not_mem.mp (by decide +kernel)⟩

/-! ### Actors linked again -/

/-- The signal reports the exit of `a` to `b`. -/
def reports (a b : ActorRef) (p : ActorRef × Signal) : Bool :=
  match p.2 with
  | .exit source _ => p.1 = b && source = a
  | .down _ _ => false

/-- How many exit signals naming `a` have been enqueued to `b`. -/
def told (s : Net) (a b : ActorRef) : ℕ := s.enqueued.countP (reports a b)

/-- The step does not join two actors that are linked. -/
def Fresh (s : Net) : Label → Prop
  | .spawn linker _ => linker.valid = true → s.base.nextActorId ∉ s.base.linksOf linker ∧
      linker ∉ s.base.linksOf s.base.nextActorId
  | .link left right => right ∉ s.base.linksOf left ∧ left ∉ s.base.linksOf right
  | _ => True

instance (s : Net) : (l : Label) → Decidable (Fresh s l)
  | .spawn _ _ => inferInstanceAs (Decidable (_ → _ ∧ _))
  | .link _ _ => inferInstanceAs (Decidable (_ ∧ _))
  | .monitor _ _ | .exit _ _ | .send _ => inferInstanceAs (Decidable True)

/-- The actor exits, and its signals are sent. -/
def departure (s : Net) (a : ActorRef) (reason : ExitReason) : List Label :=
  .exit a reason :: List.replicate (s.base.pendingSignals a reason).length (.send a)

/-- The signals of an actor that are not about its exit to `b`, or come from another actor. -/
lemma reports_eq_false {a b : ActorRef} {p : ActorRef × Signal} (h : p.2.source ≠ a) :
    reports a b p = false := by
  obtain ⟨target, signal⟩ := p
  cases signal with
  | exit source reason => exact Bool.and_eq_false_imp.mpr fun _ => decide_eq_false h
  | down source reason => rfl

/-- An exit collects one exit signal per link. -/
lemma countP_pendingSignals (s : SchedulerBase) (a b : ActorRef) (reason : ExitReason) :
    (s.pendingSignals a reason).countP (reports a b) = (s.linksOf a).count b := by
  have hdown : ((s.monitorsOf a).map fun mon => (mon, Signal.down a reason)).countP
      (reports a b) = 0 := by
    rw [List.countP_map, List.countP_eq_zero]
    exact fun _ _ => by simp [reports]
  rw [SchedulerBase.pendingSignals, List.countP_append, hdown, Nat.add_zero, List.countP_map]
  exact List.countP_congr fun x _ => by simp [reports]

/-- The invariant of runs that join no two linked actors. -/
structure Simple (s : Net) : Prop where
  inv : Inv s
  links : ∀ x y, x ≠ y → (s.base.linksOf x).count y ≤ 1
  told : ∀ a b, a ≠ b → told s a b + (s.outgoing a).countP (reports a b) ≤ 1

lemma simple_init : Simple {} where
  inv := inv_init
  links := by simp [SchedulerBase.linksOf]
  told := by simp [told]

/-- Two actors are joined that are not linked. -/
lemma count_join {m : OrdMap ActorRef (List ActorRef)} {left right : ActorRef}
    (h : ∀ x y, x ≠ y → ((m.find? x).getD []).count y ≤ 1)
    (hleft : right ∉ (m.find? left).getD []) (hright : left ∉ (m.find? right).getD [])
    {x y : ActorRef} (hne : x ≠ y) :
    (((pushBack (pushBack m left right) right left).find? x).getD []).count y ≤ 1 := by
  rw [count_pushBack]
  simp only [List.count_singleton, Prod.mk.injEq, beq_iff_eq]
  have hle := h x y hne
  by_cases h₁ : left = x ∧ right = y
  · obtain ⟨rfl, rfl⟩ := h₁
    rw [List.count_eq_zero_of_not_mem hleft]
    simp [hne]
  · by_cases h₂ : left = y ∧ right = x
    · obtain ⟨rfl, rfl⟩ := h₂
      rw [List.count_eq_zero_of_not_mem hright]
      simp [hne]
    · simpa [h₁, h₂] using hle

lemma Simple.step {s t : Net} {l : Label} (h : Simple s) (hfresh : Fresh s l)
    (hs : step s l = some t) : Simple t := by
  have hinv := h.inv.step hs
  cases l with
  | spawn linker monitorRef =>
      simp only [Linking.step, SchedulerBase.spawnImpl] at hs
      obtain rfl := Option.some.inj hs
      refine ⟨hinv, fun x y hne => ?_, h.told⟩
      by_cases hv : linker.valid = true
      · obtain ⟨hleft, hright⟩ := hfresh hv
        simp only [SchedulerBase.linksOf, hv, if_true]
        exact count_join h.links hleft hright hne
      · simpa [SchedulerBase.linksOf, hv] using h.links x y hne
  | link left right =>
      simp only [Linking.step, SchedulerBase.link] at hs
      split at hs
      · exact Option.some.inj hs ▸ h
      rename_i base hbase
      rw [Option.ite_none_right_eq_some] at hbase
      obtain rfl := Option.some.inj hbase.2
      obtain rfl := Option.some.inj hs
      exact ⟨hinv, fun x y hne => count_join h.links hfresh.1 hfresh.2 hne, h.told⟩
  | monitor monitorRef targetRef =>
      simp only [Linking.step, ExitSignals.step, SchedulerBase.monitor] at hs
      split at hs
      · exact Option.some.inj hs ▸ h
      rename_i base hbase
      rw [Option.ite_none_right_eq_some] at hbase
      obtain rfl := Option.some.inj hbase.2
      obtain rfl := Option.some.inj hs
      exact ⟨hinv, h.links, h.told⟩
  | exit a reason =>
      obtain ⟨ha, -, rfl⟩ := step_exit hs
      refine ⟨hinv, fun x y hne => ?_, fun x b hne => ?_⟩
      · rw [SchedulerBase.linksOf_collectAndErase]
        split
        · simp
        · split
          · exact (List.filter_sublist.count_le y).trans (h.links x y hne)
          · exact h.links x y hne
      · -- an actor that is registered has not been reported yet
        by_cases hxa : x = a
        · rw [hxa] at hne ⊢
          have hzero : Linking.told s a b = 0 := List.countP_eq_zero.mpr fun p hp => by
            rw [reports_eq_false ((h.inv.silent a (h.inv.not_exited a ha)).2 p hp)]
            exact Bool.false_ne_true
          change Linking.told s a b + _ ≤ 1
          simp only [Function.update_self, hzero, Nat.zero_add, countP_pendingSignals]
          exact h.links a b hne
        · simp only [Function.update_of_ne hxa]
          exact h.told x b hne
  | send a =>
      obtain ⟨p, rest, hout, rfl⟩ := step_send hs
      refine ⟨hinv, fun x y hne => ?_, fun x b hne => ?_⟩
      · rw [SchedulerBase.linksOf, SchedulerBase.links_send]
        exact h.links x y hne
      · have htold := h.told x b hne
        have hle : ∀ c : Bool, (if c then s.enqueued ++ [p] else s.enqueued).countP (reports x b) ≤
            Linking.told s x b + [p].countP (reports x b) := by
          intro c
          split
          · rw [List.countP_append]
            exact le_rfl
          · exact Nat.le_add_right _ _
        have hnow := hle (s.base.actors.contains p.1)
        change (if s.base.actors.contains p.1 then s.enqueued ++ [p] else s.enqueued).countP
          (reports x b) + _ ≤ 1
        by_cases hxa : x = a
        · rw [hxa] at hnow htold ⊢
          rw [hout, ← List.singleton_append, List.countP_append] at htold
          simp only [Function.update_self]
          omega
        · -- the signal names the sender, so it does not count for another actor
          have hsrc : p.2.source = a := h.inv.named a p (by rw [hout]; exact List.mem_cons_self)
          have hzero : [p].countP (reports x b) = 0 := List.countP_eq_zero.mpr fun q hq => by
            rw [List.mem_singleton.mp hq, reports_eq_false (by rw [hsrc]; exact Ne.symm hxa)]
            exact Bool.false_ne_true
          simp only [Function.update_of_ne hxa]
          omega

/-- The sends of an actor that has exited, one after the other. -/
lemma run_sends {a b : ActorRef} (rest : List (ActorRef × Signal)) {s : Net}
    (hout : s.outgoing a = rest) (hb : s.base.actors.contains b = true) :
    ∃ t, run step s (List.replicate rest.length (.send a)) = some t ∧
      told t a b = told s a b + rest.countP (reports a b) := by
  induction rest generalizing s with
  | nil => exact ⟨s, rfl, rfl⟩
  | cons p rest ih =>
      set u : Net := { s with
        base := s.base.send p.1 p.2
        outgoing := Function.update s.outgoing a rest
        enqueued := if s.base.actors.contains p.1 then s.enqueued ++ [p] else s.enqueued } with hu
      have hstep : step s (.send a) = some u := by
        simp only [step, ExitSignals.step, hout, hu]
      have hub : u.base.actors.contains b = true := by rw [hu, SchedulerBase.contains_send, hb]
      -- a signal that is dropped is not one to `b`
      have htold : told u a b = told s a b + [p].countP (reports a b) := by
        change (if s.base.actors.contains p.1 then s.enqueued ++ [p] else s.enqueued).countP
          (reports a b) = _
        split
        · rw [List.countP_append]
          rfl
        · rename_i hdropped
          have hzero : reports a b p = false := by
            obtain ⟨target, signal⟩ := p
            cases signal with
            | exit source reason =>
                have hne : target ≠ b := fun heq => hdropped (by rw [heq]; exact hb)
                simp [reports, hne]
            | down source reason => rfl
          rw [List.countP_singleton, hzero]
          rfl
      obtain ⟨t, ht, hcount⟩ := ih (s := u) (Function.update_self _ _ _) hub
      refine ⟨t, ?_, ?_⟩
      · rw [List.length_cons, List.replicate_succ, run_cons, hstep, Option.bind_some, ht]
      · rw [hcount, htold, Nat.add_assoc, ← List.countP_append, List.singleton_append]

/-- No exit is reported twice to another actor as long as no two linked actors are joined again;
and an actor that exits is reported as often as it was joined with the other. -/
theorem exit_told_once {s : Net} {labels : List Label} (hrun : run step {} labels = some s) :
    (AllSteps step Fresh {} labels → ∀ a b, a ≠ b → told s a b ≤ 1) ∧
    ∀ a b reason, a ≠ b → s.base.actors.contains a = true → s.base.actors.contains b = true →
      (a, a) ∉ s.joined →
        ∃ t, run step s (departure s a reason) = some t ∧ told t a b = joins s a b := by
  have hinv := inv_of_run hrun
  constructor
  · intro hfresh a b hne
    have hsimple : Simple s :=
      invariant (fun _ _ _ h hf hs => h.step hf hs) simple_init hfresh hrun
    exact (Nat.le_add_right _ _).trans (hsimple.told a b hne)
  · intro a b reason hne ha hb hself
    have hmem : a ∉ s.base.linksOf a := mt (mem_linksOf_self hinv ha).mp hself
    have hexit := step_exit_eq reason ha hmem
    have hbt : (s.base.collectAndErase a).actors.contains b = true := by
      rw [SchedulerBase.collectAndErase, OrdMap.contains_erase, hb]
      simpa using hne.symm
    obtain ⟨t, ht, htold⟩ := run_sends (a := a) (b := b) (s.base.pendingSignals a reason)
      (s := { s with
        base := s.base.collectAndErase a
        outgoing := Function.update s.outgoing a (s.base.pendingSignals a reason)
        exited := s.exited ++ [a] }) (Function.update_self _ _ _) hbt
    have hzero : told s a b = 0 := List.countP_eq_zero.mpr fun p hp => by
      rw [reports_eq_false ((hinv.silent a (hinv.not_exited a ha)).2 p hp)]
      exact Bool.false_ne_true
    refine ⟨t, ?_, ?_⟩
    · rw [departure, run_cons, hexit, Option.bind_some, ht]
    · rw [htold, countP_pendingSignals,
        hinv.count a b (hinv.not_exited a ha) (hinv.not_exited b hb)]
      change told s a b + joins s a b = joins s a b
      rw [hzero, Nat.zero_add]

/-- Two actors linked by `spawn_link`, by `link` again, and what the exit of one tells the
other. -/
theorem exit_told_once_again :
    (∃ s : Net, run step {} [.spawn 0 0, .spawn 1 0, .exit 1 default, .send 1] = some s ∧
      told s 1 2 ≤ 1) ∧
    ∃ s : Net, run step {} [.spawn 0 0, .spawn 1 0, .link 2 1] = some s ∧
      ∃ t, run step s (departure s 1 default) = some t ∧ told t 1 2 = joins s 1 2 := by
  constructor
  · have hrun := run_eq_reached (show (run step {}
      [.spawn 0 0, .spawn 1 0, .exit 1 default, .send 1]).isSome = true by decide +kernel)
    exact ⟨_, hrun, (exit_told_once hrun).1 (by decide +kernel) 1 2 (by decide)⟩
  · have hrun := run_eq_reached (show (run step {}
      [.spawn 0 0, .spawn 1 0, .link 2 1]).isSome = true by decide +kernel)
    exact ⟨_, hrun, (exit_told_once hrun).2 1 2 default (by decide) (by decide +kernel)
      (by decide +kernel) (by decide +kernel)⟩

/-- Two actors are linked twice, and one exits. -/
theorem linked_twice_told_twice : ∃ (labels : List Label) (s : Net),
    run step {} labels = some s ∧ told s 1 2 = 2 := by
  have hrun := run_eq_reached (show (run step {} [.spawn 0 0, .spawn 0 0, .link 1 2, .link 1 2,
    .exit 1 default, .send 1, .send 1]).isSome = true by decide +kernel)
  exact ⟨_, _, hrun, by decide +kernel⟩

end Linking

end Agner
