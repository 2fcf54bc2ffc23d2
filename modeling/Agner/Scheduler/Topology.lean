import Agner.Foundations.Runs
import Agner.Scheduler.Base

/-!
The topology tables and the registry.

`notify_exit` takes an actor out of the lists of those it is linked with, but not out of the
lists of those it monitors, and `spawn_link` and `spawn_monitor` do not look the linker or the
monitor up. So the tables may mention actors that are not registered.

* `Live`: every key and every element of `links_` and `monitors_` is registered.
* `Keeps`: the condition on steps. Linkers and monitors of new actors are registered, and an
  actor exits only when it monitors nobody that stays.
* `tables_live`: the runs of such steps keep `Live`, and the first other step breaks it.
-/

namespace Agner.Topology

open Runs

variable {s t : SchedulerBase}

/-- The operations of the scheduler. -/
inductive Label where
  /-- `spawn`, `spawn_link`, `spawn_monitor`. -/
  | spawn (linker monitorRef : ActorRef)
  | link (left right : ActorRef)
  | monitor (monitorRef targetRef : ActorRef)
  | exit (a : ActorRef) (reason : ExitReason)

/-- One operation. An operation that raises changes nothing, and the exit of an actor that is
linked with itself has no meaning: `notify_exit` would shorten the list it is walking. -/
def step (s : SchedulerBase) : Label → Option SchedulerBase
  | .spawn linker monitorRef => some (s.spawnImpl linker monitorRef).2
  | .link left right => some ((s.link left right).getD s)
  | .monitor monitorRef targetRef => some ((s.monitor monitorRef targetRef).getD s)
  | .exit a reason =>
      if s.actors.contains a = true ∧ a ∉ s.linksOf a then some (s.notifyExit a reason) else none

/-- Every key and every element of the table is a key of the registry. -/
def OnlyLive (table : OrdMap ActorRef (List ActorRef)) (actors : OrdMap ActorRef (List Signal)) :
    Prop :=
  ∀ k l, table.find? k = some l → actors.contains k = true ∧ ∀ x ∈ l, actors.contains x = true

/-- The topology tables mention only live actors. -/
structure Live (s : SchedulerBase) : Prop where
  links : OnlyLive s.links s.actors
  monitors : OnlyLive s.monitors s.actors

/-- The reference may be put into a table by `spawn_impl`: it is not valid and will not be, or it
is registered, or it is that of the new actor itself. -/
def Known (s : SchedulerBase) (a : ActorRef) : Prop :=
  a.valid = true → a = s.nextActorId ∨ s.actors.contains a = true

/-- The condition on steps. -/
def Keeps (s : SchedulerBase) : Label → Prop
  | .spawn linker monitorRef => Known s linker ∧ Known s monitorRef
  | .exit a _ => ∀ k ∈ s.monitors.keys, a ∈ s.monitorsOf k → k = a
  | .link .. | .monitor .. => True

instance (s : SchedulerBase) : ∀ l : Label, Decidable (Keeps s l)
  | .spawn linker monitorRef =>
      inferInstanceAs
        (Decidable ((linker.valid = true → _ ∨ _) ∧ (monitorRef.valid = true → _ ∨ _)))
  | .exit a _ => inferInstanceAs (Decidable (∀ k ∈ s.monitors.keys, a ∈ s.monitorsOf k → k = a))
  | .link .. | .monitor .. => isTrue trivial

/-! ### Tables -/

/-- A new element brings in its key and itself. -/
lemma onlyLive_pushBack {table : OrdMap ActorRef (List ActorRef)}
    {actors : OrdMap ActorRef (List Signal)} {k v : ActorRef} :
    OnlyLive (pushBack table k v) actors ↔
      OnlyLive table actors ∧ actors.contains k = true ∧ actors.contains v = true := by
  have hfind : ∀ x, (pushBack table k v).find? x =
      if x = k then some ((table.find? k).getD [] ++ [v]) else table.find? x :=
    fun x => OrdMap.find?_insert _ _ _ _
  constructor
  · intro h
    obtain ⟨hk, hl⟩ := h k _ (by rw [hfind, if_pos rfl])
    refine ⟨fun x l hx => ?_, hk, hl v (by simp)⟩
    by_cases hxk : x = k
    · subst hxk
      exact ⟨hk, fun y hy => hl y (by simp [hx, hy])⟩
    · exact h x l (by rw [hfind, if_neg hxk, hx])
  · rintro ⟨h, hk, hv⟩ x l hx
    rw [hfind] at hx
    split at hx
    · rename_i hxk
      obtain rfl := Option.some.inj hx
      refine ⟨hxk ▸ hk, fun y hy => ?_⟩
      rcases List.mem_append.mp hy with hy | hy
      · cases hf : table.find? k with
        | none => simp [hf] at hy
        | some old => exact (h k old hf).2 y (by simpa [hf] using hy)
      · exact List.mem_singleton.mp hy ▸ hv
    · exact h x l hx

/-- A larger registry holds what a smaller one does. -/
lemma OnlyLive.mono {table : OrdMap ActorRef (List ActorRef)}
    {actors actors' : OrdMap ActorRef (List Signal)} (h : OnlyLive table actors)
    (hle : ∀ x, actors.contains x = true → actors'.contains x = true) : OnlyLive table actors' := by
  intro k l hk
  obtain ⟨hkey, hl⟩ := h k l hk
  exact ⟨hle k hkey, fun x hx => hle x (hl x hx)⟩

/-- What is in a list of the table is live. -/
lemma OnlyLive.of_mem {table : OrdMap ActorRef (List ActorRef)}
    {actors : OrdMap ActorRef (List Signal)} (h : OnlyLive table actors) {k x : ActorRef}
    (hx : x ∈ (table.find? k).getD []) :
    actors.contains k = true ∧ actors.contains x = true := by
  cases hf : table.find? k with
  | none => simp [hf] at hx
  | some l =>
      obtain ⟨hk, hl⟩ := h k l hf
      exact ⟨hk, hl x (by simpa [hf] using hx)⟩

/-! ### Steps -/

/-- Links are kept on both sides. -/
def Mirrored (s : SchedulerBase) : Prop := ∀ x y, y ∈ s.linksOf x → x ∈ s.linksOf y

lemma mirrored_pushBack {m : OrdMap ActorRef (List ActorRef)} (a b : ActorRef)
    (h : ∀ x y, y ∈ (m.find? x).getD [] → x ∈ (m.find? y).getD []) (x y : ActorRef)
    (hy : y ∈ ((pushBack (pushBack m a b) b a).find? x).getD []) :
    x ∈ ((pushBack (pushBack m a b) b a).find? y).getD [] := by
  simp only [SchedulerBase.find?_pushBack, List.mem_append] at hy ⊢
  rcases hy with (hy | hy) | hy
  · exact .inl (.inl (h x y hy))
  · split at hy
    · rename_i hxa
      rw [List.mem_singleton.mp hy, hxa]
      exact .inr (by simp)
    · cases hy
  · split at hy
    · rename_i hxb
      rw [List.mem_singleton.mp hy, hxb]
      exact .inl (.inr (by simp))
    · cases hy

lemma linksOf_notifyExit (s : SchedulerBase) (a x : ActorRef) (reason : ExitReason) :
    (s.notifyExit a reason).linksOf x = (s.collectAndErase a).linksOf x := by
  rw [SchedulerBase.linksOf, SchedulerBase.notifyExit, SchedulerBase.links_foldl_send]
  rfl

/-- An exit takes the actor out of `links_`, since links are kept on both sides. -/
lemma Mirrored.mem_linksOf_notifyExit (h : Mirrored s) {a x y : ActorRef} {reason : ExitReason} :
    y ∈ (s.notifyExit a reason).linksOf x ↔ x ≠ a ∧ y ≠ a ∧ y ∈ s.linksOf x := by
  rw [linksOf_notifyExit, SchedulerBase.linksOf_collectAndErase]
  by_cases hx : x = a
  · simp [hx]
  by_cases hmem : x ∈ s.linksOf a
  · simp [hx, hmem, and_comm]
  · simp only [hx, hmem, if_false, ne_eq, not_false_eq_true, true_and]
    refine ⟨fun hy => ⟨?_, hy⟩, And.right⟩
    rintro rfl
    exact hmem (h x y hy)

lemma Mirrored.step {l : Label} (h : Mirrored s) (hstep : step s l = some t) : Mirrored t := by
  cases l with
  | spawn linker monitorRef =>
      obtain rfl := Option.some.inj hstep
      simp only [Mirrored, SchedulerBase.linksOf, SchedulerBase.spawnImpl]
      split
      · exact mirrored_pushBack _ _ h
      · exact h
  | link left right =>
      obtain rfl := Option.some.inj hstep
      rw [SchedulerBase.link]
      split
      · exact mirrored_pushBack _ _ h
      · exact h
  | monitor monitorRef targetRef =>
      obtain rfl := Option.some.inj hstep
      rw [SchedulerBase.monitor]
      split
      · exact h
      · exact h
  | exit a reason =>
      simp only [Topology.step, Option.ite_none_right_eq_some, Option.some.injEq] at hstep
      obtain ⟨-, rfl⟩ := hstep
      intro x y hy
      rw [h.mem_linksOf_notifyExit] at hy ⊢
      exact ⟨hy.2.1, hy.1, h x y hy.2.2⟩

/-- `spawn_impl` keeps the tables live exactly if it gets a linker and a monitor that are. -/
lemma live_spawn_iff (h : Live s) {linker monitorRef : ActorRef} :
    Live (s.spawnImpl linker monitorRef).2 ↔ Known s linker ∧ Known s monitorRef := by
  have hreg : ∀ x, (s.actors.insert s.nextActorId []).contains x = true ↔
      x = s.nextActorId ∨ s.actors.contains x = true := by
    intro x
    rw [OrdMap.contains_insert, Bool.or_eq_true, decide_eq_true_eq]
  have hlinks := h.links.mono fun x hx => (hreg x).mpr (.inr hx)
  have hmonitors := h.monitors.mono fun x hx => (hreg x).mpr (.inr hx)
  have hone : OnlyLive (s.spawnImpl linker monitorRef).2.links
      (s.actors.insert s.nextActorId []) ↔ Known s linker := by
    simp only [SchedulerBase.spawnImpl, Known]
    split
    · rename_i hv
      simp only [onlyLive_pushBack, hlinks, hreg, hv, true_and, true_or, and_true, and_self,
        true_implies]
    · rename_i hv
      simp [hlinks, hv]
  have htwo : OnlyLive (s.spawnImpl linker monitorRef).2.monitors
      (s.actors.insert s.nextActorId []) ↔ Known s monitorRef := by
    simp only [SchedulerBase.spawnImpl, Known]
    split
    · rename_i hv
      simp only [onlyLive_pushBack, hmonitors, hreg, hv, true_and, true_or, true_implies]
    · rename_i hv
      simp [hmonitors, hv]
  exact ⟨fun ht => ⟨hone.mp ht.links, htwo.mp ht.monitors⟩,
    fun hk => ⟨hone.mpr hk.1, htwo.mpr hk.2⟩⟩

/-- An exit keeps the tables live exactly if the actor monitored nobody else. -/
lemma live_exit_iff (h : Live s) (hm : Mirrored s) {a : ActorRef} {reason : ExitReason} :
    Live (s.notifyExit a reason) ↔ ∀ k ∈ s.monitors.keys, a ∈ s.monitorsOf k → k = a := by
  have hreg : ∀ x, (s.notifyExit a reason).actors.contains x = true ↔
      x ≠ a ∧ s.actors.contains x = true := by
    intro x
    rw [SchedulerBase.contains_notifyExit, Bool.and_eq_true, decide_eq_true_eq]
  have hmon : ∀ k, (s.notifyExit a reason).monitors.find? k =
      if k = a then none else s.monitors.find? k := by
    intro k
    rw [SchedulerBase.notifyExit, SchedulerBase.monitors_foldl_send]
    exact OrdMap.find?_erase _ _ _
  have hlinks : OnlyLive (s.notifyExit a reason).links (s.notifyExit a reason).actors := by
    intro k l hk
    have hmem : ∀ y ∈ l, y ∈ (s.notifyExit a reason).linksOf k := by
      intro y hy
      simpa [SchedulerBase.linksOf, hk] using hy
    refine ⟨?_, fun y hy => ?_⟩
    · -- lists are shortened and erased, none is added
      rw [SchedulerBase.notifyExit, SchedulerBase.links_foldl_send,
        SchedulerBase.collectAndErase, OrdMap.find?_erase,
        SchedulerBase.find?_foldl_remove] at hk
      split at hk
      · cases hk
      · rename_i hka
        refine (hreg k).mpr ⟨hka, ?_⟩
        split at hk
        · obtain ⟨l', hl', -⟩ := Option.map_eq_some_iff.mp hk
          exact (h.links k l' hl').1
        · exact (h.links k l hk).1
    · obtain ⟨-, hya, hold⟩ := hm.mem_linksOf_notifyExit.mp (hmem y hy)
      exact (hreg y).mpr ⟨hya, (h.links.of_mem hold).2⟩
  -- only the own key of `a` is erased from `monitors_`
  constructor
  · intro ht k hk ha
    by_contra hka
    obtain ⟨l, hl⟩ := OrdMap.mem_keys_iff.mp hk
    obtain ⟨-, hlive⟩ := ht.monitors k l (by rw [hmon, if_neg hka, hl])
    exact ((hreg a).mp (hlive a (by simpa [SchedulerBase.monitorsOf, hl] using ha))).1 rfl
  · intro hk
    refine ⟨hlinks, fun k l hl => ?_⟩
    rw [hmon] at hl
    split at hl
    · cases hl
    · rename_i hka
      obtain ⟨hkey, hlive⟩ := h.monitors k l hl
      refine ⟨(hreg k).mpr ⟨hka, hkey⟩, fun y hy => (hreg y).mpr ⟨?_, hlive y hy⟩⟩
      rintro rfl
      exact hka (hk k (OrdMap.mem_keys_iff.mpr ⟨l, hl⟩)
        (by simpa [SchedulerBase.monitorsOf, hl] using hy))

/-- A step keeps the tables live exactly if it meets the condition. -/
lemma live_step_iff {l : Label} (h : Live s) (hm : Mirrored s) (hstep : step s l = some t) :
    Live t ↔ Keeps s l := by
  cases l with
  | spawn linker monitorRef =>
      obtain rfl := Option.some.inj hstep
      exact live_spawn_iff h
  | link left right =>
      obtain rfl := Option.some.inj hstep
      refine iff_of_true ?_ trivial
      rw [SchedulerBase.link]
      split
      · rename_i hreg
        rw [Bool.and_eq_true] at hreg
        refine ⟨?_, h.monitors⟩
        exact onlyLive_pushBack.mpr ⟨onlyLive_pushBack.mpr ⟨h.links, hreg⟩, hreg.2, hreg.1⟩
      · exact h
  | monitor monitorRef targetRef =>
      obtain rfl := Option.some.inj hstep
      refine iff_of_true ?_ trivial
      rw [SchedulerBase.monitor]
      split
      · rename_i hreg
        rw [Bool.and_eq_true] at hreg
        exact ⟨h.links, onlyLive_pushBack.mpr ⟨h.monitors, hreg.2, hreg.1⟩⟩
      · exact h
  | exit a reason =>
      simp only [step, Option.ite_none_right_eq_some, Option.some.injEq] at hstep
      obtain ⟨-, rfl⟩ := hstep
      exact live_exit_iff h hm

/-- In every run of steps that meet the condition the tables mention only live actors, and a
further step keeps it so exactly if it meets the condition too. -/
theorem tables_live {labels : List Label} (hrun : run step {} labels = some s)
    (hkeeps : AllSteps step Keeps {} labels) :
    Live s ∧ ∀ l t, step s l = some t → (Live t ↔ Keeps s l) := by
  have hinv : Live s ∧ Mirrored s := by
    refine invariant (P := fun s => Live s ∧ Mirrored s) (fun s l t hs hk ht => ?_)
      ⟨⟨fun k l hk => ?_, fun k l hk => ?_⟩, fun x y hy => ?_⟩ hkeeps hrun
    · exact ⟨(live_step_iff hs.1 hs.2 ht).mpr hk, hs.2.step ht⟩
    · cases hk
    · cases hk
    · cases hy
  exact ⟨hinv.1, fun l t ht => live_step_iff hinv.1 hinv.2 ht⟩

/-- Two actors are linked and one monitors the other; the one that is monitored exits. -/
def monitoredExits : List Label :=
  [.spawn 0 0, .spawn 1 0, .monitor 1 2, .exit 2 .normal]

/-- The monitored actor exits first. -/
theorem tables_live_monitoredExits :
    run step {} monitoredExits = some (reached step {} monitoredExits) ∧
      Live (reached step {} monitoredExits) :=
  have hrun := run_eq_reached (by decide +kernel)
  ⟨hrun, (tables_live hrun (by decide +kernel)).1⟩

/-- A monitor exits before the actor it monitors, and stays in `monitors_`. -/
theorem dead_monitor_stays :
    ∃ s, run step {} [.spawn 0 0, .spawn 0 1, .exit 1 .normal] = some s ∧ ¬ Live s := by
  refine ⟨_, run_eq_reached (by decide +kernel), fun h => ?_⟩
  have hlive := (h.monitors 2 [1] (by decide +kernel)).2 1 (by simp)
  exact absurd hlive (by decide +kernel)

end Agner.Topology
