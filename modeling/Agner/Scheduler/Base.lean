import Agner.Foundations.OrdMap
import Agner.ActorControl

/-!
`scheduler_base.hpp`: the registry of actors and the two topology tables, with the
operations that read and write them.

The registry keeps, for every actor, the signals that have been enqueued to it; the other
messages of an actor play no part here. Each operation is the body of one section guarded
by `base_mutex_`:

* `link`, `monitor`, `stop`: `none` is the `std::out_of_range` raised by `actors_.at` for an
  actor that is not registered;
* `spawnImpl`: registration of a fresh actor, together with its link and monitor entry;
* `collectAndErase`: the locked section of `notify_exit`, which yields the signals to send
  and removes the actor; `notifyExit` is that section followed by all its sends.
-/

namespace Agner

/-- `links_[k].push_back(v)`: an absent list is created empty first. -/
def pushBack (m : OrdMap ActorRef (List ActorRef)) (k v : ActorRef) :
    OrdMap ActorRef (List ActorRef) :=
  m.insert k ((m.find? k).getD [] ++ [v])

/-- The members of `SchedulerBase`. -/
structure SchedulerBase where
  /-- `actors_`, with the signals enqueued to each registered actor. -/
  actors : OrdMap ActorRef (List Signal) := ∅
  links : OrdMap ActorRef (List ActorRef) := ∅
  monitors : OrdMap ActorRef (List ActorRef) := ∅
  /-- `next_actor_id_`, a `uint64_t` in the source: fewer than `2 ^ 64` actors are spawned. -/
  nextActorId : ActorRef := 1
  activeActorCount : ℕ := 0
  deriving Inhabited

namespace SchedulerBase

/-- The actors `a` is linked with, in the order of the list kept for it. -/
def linksOf (s : SchedulerBase) (a : ActorRef) : List ActorRef := (s.links.find? a).getD []

/-- The actors monitoring `a`, in the order of the list kept for it. -/
def monitorsOf (s : SchedulerBase) (a : ActorRef) : List ActorRef :=
  (s.monitors.find? a).getD []

/-- `send`: a signal to an actor that is not registered is dropped. -/
def send (s : SchedulerBase) (target : ActorRef) (signal : Signal) : SchedulerBase :=
  if s.actors.contains target then
    { s with actors := s.actors.modify target (· ++ [signal]) }
  else s

/-- `link`. -/
def link (s : SchedulerBase) (left right : ActorRef) : Option SchedulerBase :=
  if s.actors.contains left && s.actors.contains right then
    some { s with links := pushBack (pushBack s.links left right) right left }
  else none

/-- `monitor`. -/
def monitor (s : SchedulerBase) (monitorRef targetRef : ActorRef) : Option SchedulerBase :=
  if s.actors.contains monitorRef && s.actors.contains targetRef then
    some { s with monitors := pushBack s.monitors targetRef monitorRef }
  else none

/-- `spawn_impl`, with the reference it returns; `spawn`, `spawn_link` and `spawn_monitor`
pass an invalid reference for the linker or the monitor they do not have. -/
def spawnImpl (s : SchedulerBase) (linker monitorRef : ActorRef) :
    ActorRef × SchedulerBase :=
  let actorRef := s.nextActorId
  (actorRef,
    { actors := s.actors.insert actorRef []
      links := if linker.valid then
          pushBack (pushBack s.links linker actorRef) actorRef linker
        else s.links
      monitors := if monitorRef.valid then pushBack s.monitors actorRef monitorRef
        else s.monitors
      nextActorId := s.nextActorId + 1
      activeActorCount := s.activeActorCount + 1 })

/-- `Scheduler::stop`: the actor's own `stop` enqueues an exit signal naming itself. -/
def stop (s : SchedulerBase) (target : ActorRef) (reason : ExitReason) :
    Option SchedulerBase :=
  if s.actors.contains target then some (s.send target (.exit target reason)) else none

/-- The signals the locked section of `notify_exit` collects: first one per link, then one
per monitor. -/
def pendingSignals (s : SchedulerBase) (a : ActorRef) (reason : ExitReason) :
    List (ActorRef × Signal) :=
  (s.linksOf a).map (fun linked => (linked, Signal.exit a reason)) ++
    (s.monitorsOf a).map fun mon => (mon, Signal.down a reason)

/-- The tables after the locked section of `notify_exit`: `a` is removed from the list of
every actor it is linked with, and its own entries are erased. -/
def collectAndErase (s : SchedulerBase) (a : ActorRef) : SchedulerBase where
  actors := s.actors.erase a
  links := ((s.linksOf a).foldl
    (fun m linked => m.modify linked fun l => l.filter fun x => decide (x ≠ a)) s.links).erase a
  monitors := s.monitors.erase a
  nextActorId := s.nextActorId
  activeActorCount := s.activeActorCount - 1

/-- `notify_exit`. -/
def notifyExit (s : SchedulerBase) (a : ActorRef) (reason : ExitReason) : SchedulerBase :=
  (s.pendingSignals a reason).foldl (fun t p => t.send p.1 p.2) (s.collectAndErase a)

/-! ### The tables after each operation -/

lemma find?_pushBack (m : OrdMap ActorRef (List ActorRef)) (k v x : ActorRef) :
    ((pushBack m k v).find? x).getD [] =
      (m.find? x).getD [] ++ if x = k then [v] else [] := by
  rw [pushBack, OrdMap.find?_insert]
  by_cases hx : x = k <;> simp [hx]

/-- The removal loop of `notify_exit` filters `a` out of the lists it visits and leaves the
others as they are. -/
lemma find?_foldl_remove (a : ActorRef) (linked : List ActorRef)
    (m : OrdMap ActorRef (List ActorRef)) (x : ActorRef) :
    (linked.foldl (fun m y => m.modify y fun l => l.filter fun z => decide (z ≠ a)) m).find? x
      = if x ∈ linked then (m.find? x).map fun l => l.filter fun z => decide (z ≠ a)
        else m.find? x := by
  induction linked generalizing m with
  | nil => simp
  | cons y ys ih =>
      rw [List.foldl_cons, ih, OrdMap.find?_modify]
      by_cases hxy : x = y
      · subst hxy
        cases hm : m.find? x <;> simp
      · simp [hxy]

lemma linksOf_collectAndErase (s : SchedulerBase) (a x : ActorRef) :
    (s.collectAndErase a).linksOf x =
      if x = a then [] else
        if x ∈ s.linksOf a then (s.linksOf x).filter fun z => decide (z ≠ a)
        else s.linksOf x := by
  by_cases hx : x = a
  · simp [linksOf, collectAndErase, hx]
  · by_cases hmem : x ∈ s.linksOf a
    · simp only [hx, hmem, if_true, if_false]
      simp only [linksOf, collectAndErase, OrdMap.find?_erase, hx, if_false]
      rw [find?_foldl_remove]
      have : x ∈ (s.links.find? a).getD [] := hmem
      cases hm : s.links.find? x <;> simp [this]
    · simp only [hx, hmem, if_false]
      simp only [linksOf, collectAndErase, OrdMap.find?_erase, hx, if_false]
      rw [find?_foldl_remove]
      have : x ∉ (s.links.find? a).getD [] := hmem
      simp [this]

lemma monitorsOf_collectAndErase (s : SchedulerBase) (a x : ActorRef) :
    (s.collectAndErase a).monitorsOf x = if x = a then [] else s.monitorsOf x := by
  by_cases hx : x = a <;> simp [monitorsOf, collectAndErase, OrdMap.find?_erase, hx]

lemma contains_send (s : SchedulerBase) (t x : ActorRef) (sg : Signal) :
    (s.send t sg).actors.contains x = s.actors.contains x := by
  rw [send]
  split
  · exact OrdMap.contains_modify _ _ _ _
  · rfl

@[simp] lemma links_send (s : SchedulerBase) (t : ActorRef) (sg : Signal) :
    (s.send t sg).links = s.links := by
  rw [send]
  split <;> rfl

@[simp] lemma monitors_send (s : SchedulerBase) (t : ActorRef) (sg : Signal) :
    (s.send t sg).monitors = s.monitors := by
  rw [send]
  split <;> rfl

@[simp] lemma nextActorId_send (s : SchedulerBase) (t : ActorRef) (sg : Signal) :
    (s.send t sg).nextActorId = s.nextActorId := by
  rw [send]
  split <;> rfl

/-! ### The registry after each operation -/

lemma contains_foldl_send (l : List (ActorRef × Signal)) (s : SchedulerBase) (x : ActorRef) :
    (l.foldl (fun t p => t.send p.1 p.2) s).actors.contains x = s.actors.contains x := by
  induction l generalizing s with
  | nil => rfl
  | cons p l ih => rw [List.foldl_cons, ih, contains_send]

lemma contains_notifyExit (s : SchedulerBase) (a x : ActorRef) (r : ExitReason) :
    (s.notifyExit a r).actors.contains x = (decide (x ≠ a) && s.actors.contains x) := by
  rw [notifyExit, contains_foldl_send]
  exact OrdMap.contains_erase _ _ _

lemma nextActorId_foldl_send (l : List (ActorRef × Signal)) (s : SchedulerBase) :
    (l.foldl (fun t p => t.send p.1 p.2) s).nextActorId = s.nextActorId := by
  induction l generalizing s with
  | nil => rfl
  | cons p l ih => rw [List.foldl_cons, ih, nextActorId_send]

@[simp] lemma nextActorId_notifyExit (s : SchedulerBase) (a : ActorRef) (r : ExitReason) :
    (s.notifyExit a r).nextActorId = s.nextActorId := nextActorId_foldl_send _ _

lemma nextActorId_link {s t : SchedulerBase} {left right : ActorRef}
    (h : s.link left right = some t) : t.nextActorId = s.nextActorId := by
  rw [link, Option.ite_none_right_eq_some] at h
  exact (congrArg nextActorId (Option.some.inj h.2)).symm

lemma nextActorId_monitor {s t : SchedulerBase} {monitorRef targetRef : ActorRef}
    (h : s.monitor monitorRef targetRef = some t) : t.nextActorId = s.nextActorId := by
  rw [monitor, Option.ite_none_right_eq_some] at h
  exact (congrArg nextActorId (Option.some.inj h.2)).symm

lemma contains_spawnImpl (s : SchedulerBase) (linker monitorRef x : ActorRef) :
    (s.spawnImpl linker monitorRef).2.actors.contains x =
      (decide (x = s.nextActorId) || s.actors.contains x) :=
  OrdMap.contains_insert _ _ _ _

lemma find?_send (s : SchedulerBase) (t x : ActorRef) (sg : Signal) :
    (s.send t sg).actors.find? x =
      (s.actors.find? x).map (· ++ if t = x then [sg] else []) := by
  rw [send]
  split
  · rename_i hc
    rw [OrdMap.find?_modify]
    by_cases hx : x = t
    · simp [hx]
    · simp [hx, Ne.symm hx]
  · rename_i hc
    by_cases hx : t = x
    · have hnone : s.actors.find? x = none := by
        rw [← hx]
        simpa [OrdMap.contains] using hc
      simp [hnone]
    · simp [hx]

/-- A list of sends adds to a mailbox the signals addressed to it, in order. -/
lemma find?_foldl_send (l : List (ActorRef × Signal)) (s : SchedulerBase) (x : ActorRef) :
    (l.foldl (fun t p => t.send p.1 p.2) s).actors.find? x =
      (s.actors.find? x).map (· ++ (l.filter fun p => decide (p.1 = x)).map Prod.snd) := by
  induction l generalizing s with
  | nil => simp
  | cons p l ih =>
      rw [List.foldl_cons, ih, find?_send, Option.map_map]
      by_cases hx : p.1 = x <;> simp [hx, Function.comp_def]

/-- A mailbox after an exit: the signals addressed to it come last. -/
lemma find?_notifyExit (s : SchedulerBase) (a : ActorRef) (r : ExitReason) {x : ActorRef}
    (hx : x ≠ a) :
    (s.notifyExit a r).actors.find? x = (s.actors.find? x).map
      (· ++ ((s.pendingSignals a r).filter fun p => decide (p.1 = x)).map Prod.snd) := by
  have herase : (s.collectAndErase a).actors.find? x = s.actors.find? x :=
    (OrdMap.find?_erase _ _ _).trans (if_neg hx)
  rw [notifyExit, find?_foldl_send, herase]

lemma monitors_foldl_send (l : List (ActorRef × Signal)) (s : SchedulerBase) :
    (l.foldl (fun t p => t.send p.1 p.2) s).monitors = s.monitors := by
  induction l generalizing s with
  | nil => rfl
  | cons p l ih => rw [List.foldl_cons, ih, monitors_send]

lemma links_foldl_send (l : List (ActorRef × Signal)) (s : SchedulerBase) :
    (l.foldl (fun t p => t.send p.1 p.2) s).links = s.links := by
  induction l generalizing s with
  | nil => rfl
  | cons p l ih => rw [List.foldl_cons, ih, links_send]

lemma monitorsOf_notifyExit (s : SchedulerBase) (a x : ActorRef) (r : ExitReason) :
    (s.notifyExit a r).monitorsOf x = if x = a then [] else s.monitorsOf x := by
  rw [monitorsOf, notifyExit, monitors_foldl_send]
  exact monitorsOf_collectAndErase s a x

/-- Every reference in the registry is one that the scheduler has handed out. -/
structure WellFormed (s : SchedulerBase) : Prop where
  pos : 0 < s.nextActorId
  lt : ∀ k, s.actors.contains k = true → k < s.nextActorId

lemma WellFormed.notifyExit {s : SchedulerBase} (h : s.WellFormed) (a : ActorRef)
    (r : ExitReason) : (s.notifyExit a r).WellFormed := by
  refine ⟨by rw [nextActorId_notifyExit]; exact h.pos, fun k hk => ?_⟩
  rw [contains_notifyExit, Bool.and_eq_true] at hk
  rw [nextActorId_notifyExit]
  exact h.lt k hk.2

lemma WellFormed.spawnImpl {s : SchedulerBase} (h : s.WellFormed) (linker monitorRef : ActorRef) :
    (s.spawnImpl linker monitorRef).2.WellFormed := by
  refine ⟨Nat.succ_pos _, fun k hk => ?_⟩
  rw [contains_spawnImpl, Bool.or_eq_true, decide_eq_true_eq] at hk
  rcases hk with rfl | hk
  · exact Nat.lt_succ_self _
  · exact (h.lt k hk).trans (Nat.lt_succ_self _)

end SchedulerBase

end Agner
