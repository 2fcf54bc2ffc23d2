import Agner.Foundations.RateLimit
import Agner.Supervisor.Refusals

/-!
The restart intensity over the life of a supervisor.

`register_restart` forgets the restarts that are more than `within` back, records the present
one and only then compares with `max_restarts`, so that a refused call is recorded as well.
The log of a run keeps every call with its answer.

The limit is exact, but a call that is refused does not always end as it should. If its `stop`
returns, then the message that is being handled is erased through an invalid iterator; the
supervisor goes down with `error` exactly if asking a child raises in a round that it received
itself.

* `Ledger`, `Ledger.step`: a supervisor among other actors, and the log of its calls of
  `register_restart`.
* `Balanced`: what `restart_times_` remembers of the log.
* `restart_intensity`: the limit is exact over every run, and what becomes of a refused call.
-/

namespace Agner

open Raising Runs RateLimit

namespace Supervisor

variable {Args : Type}

/-! ### The log -/

/-- The call of `register_restart` in a world. One that raises grants nothing. -/
def request (inner : Site → Code Args) (w : World Args) : Request ℤ where
  time := w.now
  granted :=
    match (Reacting.registerRestart inner).run w with
    | .ok ok _ => ok
    | .error _ _ => false

/-- The calls of `register_restart` that a step makes. -/
def Family.requests (s : Family Args) : Deed Args → List (Request ℤ)
  | .receive _ codes =>
      ((s.world.mailbox.head?.bind (signalRegistersIn (popped s.world))).map
        (request (codeAt codes))).toList
  | _ => []

lemma Family.requests_eq_nil (s : Family Args) {d : Deed Args} (h : d.receives = false) :
    s.requests d = [] := by
  cases d with
  | receive _ _ => cases h
  | _ => rfl

/-- A supervisor among other actors, and its calls of `register_restart` so far, oldest first. -/
structure Ledger (Args : Type) where
  family : Family Args
  calls : List (Request ℤ) := []

namespace Ledger

/-- A step of the family, whose calls are entered into the log. -/
def step (s : Ledger Args) (d : Deed Args) : Option (Ledger Args) :=
  (s.family.step d).map fun t => { family := t, calls := s.calls ++ s.family.requests d }

/-- A supervisor that has just been spawned. -/
def create (sched : SchedulerBase) (spec : Specification Args) : Ledger Args :=
  { family := Family.create sched spec }

end Ledger

/-! ### One call -/

/-- The members that starting and stopping children leaves alone, while time passes. -/
structure Untouched (w w' : World Args) : Prop where
  now : w.now ≤ w'.now
  specification : w'.specification = w.specification
  restartTimes : w'.restartTimes = w.restartTimes
  stopping : w'.stopping = w.stopping

lemma Untouched.refl (w : World Args) : Untouched w w := ⟨le_rfl, rfl, rfl, rfl⟩

lemma lasting_untouched (w : World Args) : Lasting (Untouched w) where
  framed _ _ _ _ _ _ h := ⟨h.now, h.specification, h.restartTimes, h.stopping⟩
  later _ _ hnow h := ⟨h.now.trans hnow, h.specification, h.restartTimes, h.stopping⟩

/-- The restart times that a call leaves behind. -/
def timesAfter (w : World Args) : List ℤ :=
  if w.specification.intensity.maxRestarts = 0 then w.restartTimes else windowTimes w

/-- The world after a call, as far as these members go. -/
def afterCall (w : World Args) : World Args :=
  { w with restartTimes := timesAfter w, stopping := w.stopping || !granted w }

/-- The world whose members a termination leaves behind. -/
def charged (w : World Args) : Option (World Args) → World Args
  | none => w
  | some v => afterCall v

section Calls

variable {inner : Site → Code Args} (hforeign : Foreign inner)

include hforeign

/-- What `stop` does to these members, whether it returns or raises. -/
lemma stop_members (w : World Args) (reason : ExitReason) :
    Post (Reacting.stop inner reason) w
      (fun _ => Untouched { w with stopping := true })
      (Untouched { w with stopping := true }) := by
  rw [Reacting.stop, post_bind, post_get]
  split
  · rename_i hst
    rw [baseStop, post_modify]
    exact ⟨le_rfl, rfl, rfl, hst⟩
  · rw [post_bind, post_set]
    have hsweep := ((lasting_untouched { w with stopping := true }).robust hforeign).stopAllChildren
    refine (hsweep _ (Untouched.refl _)).bind fun _ w' h => ?_
    rw [post_bind, post_modify, baseStop, post_modify]
    exact ⟨h.now, h.specification, h.restartTimes, h.stopping⟩

/-- What a call of `register_restart` does to these members. -/
lemma registerRestart_members (w : World Args) :
    Post (Reacting.registerRestart inner) w
      (fun ok w' => ok = granted w ∧ Untouched (afterCall w) w')
      (fun w' => granted w = false ∧ Untouched (afterCall w) w') := by
  have hrefuse : ∀ times, granted w = false → timesAfter w = times →
      Post (do Reacting.stop inner .error; pure false : SupM Args Bool)
        { w with restartTimes := times }
        (fun ok w' => ok = granted w ∧ Untouched (afterCall w) w')
        (fun w' => granted w = false ∧ Untouched (afterCall w) w') := by
    rintro times hg rfl
    have hafter : afterCall w = { w with restartTimes := timesAfter w, stopping := true } := by
      rw [afterCall, hg, Bool.not_false, Bool.or_true]
    rw [hafter, hg, post_bind]
    refine (stop_members hforeign { w with restartTimes := timesAfter w } .error).mono
      (fun _ w' h => post_pure.mpr ⟨rfl, h⟩) fun w' h => ⟨rfl, h⟩
  by_cases hg : granted w = true
  · rw [Post, Reacting.registerRestart_granted hg]
    have hmax : w.specification.intensity.maxRestarts ≠ 0 := by
      intro hzero
      simp [granted, hzero] at hg
    refine ⟨hg.symm, le_rfl, rfl, ?_, ?_⟩
    · rw [afterCall, timesAfter, if_neg hmax]
    · rw [afterCall, hg, Bool.not_true, Bool.or_false]
  · rw [Bool.not_eq_true] at hg
    rw [Reacting.registerRestart, post_bind, post_get]
    split
    · rename_i hmax
      exact hrefuse w.restartTimes hg (if_pos hmax)
    · rename_i hmax
      have hlen : w.specification.intensity.maxRestarts < (windowTimes w).length := by
        simpa [granted, hmax] using hg
      rw [windowTimes] at hlen
      rw [post_bind, post_set, if_pos hlen]
      exact hrefuse _ hg (if_neg hmax)

lemma request_granted (w : World Args) : (request inner w).granted = granted w := by
  have h := registerRestart_members hforeign w
  rw [Post] at h
  rw [request]
  cases hrun : (Reacting.registerRestart inner).run w with
  | ok ok w' =>
      rw [hrun] at h
      exact h.1
  | error e w' =>
      rw [hrun] at h
      exact h.1.symm

/-! ### One round of `supervise_loop` -/

/-- Whatever happens after the call leaves these members alone. -/
lemma handleTermination_members (w : World Args) (ref : ActorRef) (reason : ExitReason) :
    Post (Reacting.handleTermination inner ref reason) w
      (fun _ => Untouched (charged w (registersIn w ref reason)))
      (Untouched (charged w (registersIn w ref reason))) := by
  have hrobust : ∀ u, Robust inner (Untouched u) := fun u =>
    (lasting_untouched u).robust hforeign
  rw [Reacting.handleTermination, post_bind, post_get, registersIn]
  split
  · rw [Reacting.handleRestartGroupStop, post_bind, post_modify]
    exact (hrobust w).finalizeIfDone _ ⟨le_rfl, rfl, rfl, rfl⟩
  · cases he : w.children.find? ref with
    | none => exact post_pure.mpr (Untouched.refl w)
    | some entry =>
        simp only [post_bind, post_set]
        split
        · rw [post_bind, ← dropped]
          refine (registerRestart_members hforeign (dropped w ref)).mono ?_ fun w' h => h.2
          rintro ok w' ⟨-, h⟩
          have hafter := hrobust (afterCall (dropped w ref))
          cases ok with
          | false => exact post_pure.mpr h
          | true =>
              simp only [if_true]
              split
              · exact hafter.respawnWithEntry entry w' h
              · exact hafter.respawnWithEntry entry w' h
              · exact hafter.beginRestartGroup ref entry reason w' h
              · exact hafter.beginRestartGroup ref entry reason w' h
        · exact post_pure.mpr ⟨le_rfl, rfl, rfl, rfl⟩

lemma superviseVisitor_members (w : World Args) (sg : Signal) :
    Post (Reacting.superviseVisitor inner sg) w
      (fun _ => Untouched (charged w (signalRegistersIn w sg)))
      (Untouched (charged w (signalRegistersIn w sg))) := by
  have hsignal : ∀ source reason, Post (Reacting.handleSignal inner source reason) w
      (fun _ => Untouched (charged w
        (if source.valid then registersIn w source reason else none)))
      (Untouched (charged w (if source.valid then registersIn w source reason else none))) := by
    intro source reason
    rw [Reacting.handleSignal]
    split
    · exact handleTermination_members hforeign w source reason
    · exact post_pure.mpr (Untouched.refl w)
  rw [Reacting.superviseVisitor, post_bind, post_get]
  cases sg with
  | down source reason => exact hsignal source reason
  | exit source reason =>
      simp only [signalRegistersIn]
      split
      · exact post_set.mpr ⟨le_rfl, rfl, rfl, rfl⟩
      · exact hsignal source reason

end Calls

/-! ### What is remembered -/

/-- What `restart_times_` remembers of the log, and what the log says about the answers. -/
structure Balanced (spec : Specification Args) (w : World Args) (calls : List (Request ℤ)) :
    Prop where
  specification : w.specification = spec
  remembered : spec.intensity.maxRestarts ≠ 0 → ∀ t, w.now ≤ t →
    recent spec.intensity.within t w.restartTimes =
      recent spec.intensity.within t (calls.map Request.time)
  exact : ∀ before c after, calls = before ++ c :: after → (c.granted = true ↔
    spec.intensity.maxRestarts ≠ 0 ∧
      (recent spec.intensity.within c.time (before.map Request.time)).length <
        spec.intensity.maxRestarts)
  bounded : w.stopping = false → w.restartTimes.length ≤ spec.intensity.maxRestarts

namespace Balanced

variable {spec : Specification Args} {w w' : World Args} {calls : List (Request ℤ)}

/-- Time passes, and the supervisor may be stopped. -/
lemma drift (h : Balanced spec w calls) (hspec : w'.specification = w.specification)
    (htimes : w'.restartTimes = w.restartTimes) (hnow : w.now ≤ w'.now)
    (hstop : w'.stopping = false → w.stopping = false) : Balanced spec w' calls where
  specification := hspec.trans h.specification
  remembered hmax t ht := by
    rw [htimes]
    exact h.remembered hmax t (hnow.trans ht)
  exact := h.exact
  bounded hst := by
    rw [htimes]
    exact h.bounded (hstop hst)

lemma untouched (h : Balanced spec w calls) (hu : Untouched w w') : Balanced spec w' calls :=
  h.drift hu.specification hu.restartTimes hu.now fun hst => hu.stopping.symm.trans hst

/-- The times `register_restart` keeps are the recent ones and the present one. -/
lemma windowTimes_eq (hspec : w.specification = spec) :
    windowTimes w = recent spec.intensity.within w.now w.restartTimes ++ [w.now] := by
  rw [windowTimes, recent, hspec]
  congr 1
  refine List.filter_congr fun t _ => ?_
  rw [← decide_not]
  exact decide_eq_decide.mpr not_lt

/-- One call compares the limit with the recent calls of the log. -/
lemma granted_iff (h : Balanced spec w calls) :
    granted w = true ↔ spec.intensity.maxRestarts ≠ 0 ∧
      (recent spec.intensity.within w.now (calls.map Request.time)).length <
        spec.intensity.maxRestarts := by
  rw [granted, h.specification, windowTimes_eq h.specification, Bool.and_eq_true,
    decide_eq_true_eq, decide_eq_true_eq, List.length_append, List.length_singleton]
  refine and_congr_right fun hmax => ?_
  rw [h.remembered hmax w.now le_rfl, Nat.succ_le_iff]

/-- A call is entered into the log and into the restart times. -/
lemma call {inner : Site → Code Args} (hforeign : Foreign inner) (h : Balanced spec w calls)
    (hu : Untouched (afterCall w) w') : Balanced spec w' (calls ++ [request inner w]) := by
  have htimes : w'.restartTimes = timesAfter w := hu.restartTimes
  have hnow : w.now ≤ w'.now := hu.now
  have hstop : w'.stopping = (w.stopping || !granted w) := hu.stopping
  refine ⟨hu.specification.trans h.specification, fun hmax t ht => ?_,
    fun before c after hsplit => ?_, fun hst => ?_⟩
  · have hmax' : w.specification.intensity.maxRestarts ≠ 0 := by rwa [h.specification]
    have ht := hnow.trans ht
    rw [htimes, timesAfter, if_neg hmax', windowTimes_eq h.specification, recent_append,
      recent_recent ht, h.remembered hmax t ht, List.map_append, recent_append]
    rfl
  · rcases List.eq_nil_or_concat after with rfl | ⟨after, c', rfl⟩
    · -- the call just made
      obtain ⟨rfl, hc⟩ := List.append_inj' hsplit rfl
      obtain rfl : request inner w = c := by simpa using hc
      rw [request_granted hforeign]
      exact h.granted_iff
    · rw [List.concat_eq_append, ← List.cons_append, ← List.append_assoc] at hsplit
      exact h.exact before c after (List.append_inj' hsplit rfl).1
  · rw [hstop, Bool.or_eq_false_iff, Bool.not_eq_false'] at hst
    have hg := hst.2
    rw [granted, h.specification, Bool.and_eq_true, decide_eq_true_eq, decide_eq_true_eq] at hg
    have hmax : ¬ w.specification.intensity.maxRestarts = 0 := by
      rw [h.specification]
      exact hg.1
    rw [htimes, timesAfter, if_neg hmax]
    exact hg.2

lemma lasting (spec : Specification Args) (calls : List (Request ℤ)) :
    Lasting fun w => Balanced spec w calls where
  framed _ _ _ _ _ _ h := h.drift rfl rfl le_rfl id
  later _ _ hnow h := h.drift rfl rfl hnow id

/-- The administrative operations make no call. -/
lemma administer {inner : Site → Code Args} (hforeign : Foreign inner)
    (spec : Specification Args) (calls : List (Request ℤ)) (op : Operation Args) :
    Preserves (fun w => Balanced spec w calls) (Reacting.administer inner op) := by
  have hP := (lasting spec calls).robust hforeign
  cases op with
  | startChild index args => exact hP.startChildByIndex index args
  | stopChild index => exact hP.stopAndSuppressByIndex index
  | restartChild index => exact hP.restartChild index
  | deleteChild index =>
      exact (hP.stopAndSuppressByIndex index).bind fun _ =>
        Preserves.modify fun w h => h.drift rfl rfl le_rfl id
  | stop reason =>
      exact hP.stop (fun w h => h.drift rfl rfl le_rfl nofun) reason
        (Preserves.modify fun w h => h.drift rfl rfl le_rfl id)

end Balanced

/-! ### Whole runs -/

namespace Ledger

/-- The invariant of all runs. -/
structure Sound (spec : Specification Args) (s : Ledger Args) : Prop where
  balanced : Balanced spec s.family.world s.calls
  known : s.family.Registered → Known s.family.unsent s.family.world

lemma step_eq_some {s t : Ledger Args} {d : Deed Args} (h : s.step d = some t) :
    s.family.step d = some t.family ∧ t.calls = s.calls ++ s.family.requests d := by
  obtain ⟨u, hu, rfl⟩ := Option.map_eq_some_iff.mp h
  exact ⟨hu, rfl⟩

/-- A round of `supervise_loop` enters its call into the log. -/
lemma Sound.receive {spec : Specification Args} {s : Ledger Args} {sg : Signal}
    {rest : List Signal} {delivered : Bool} {codes : List (Site × Code Args)}
    (h : Sound spec s) (hforeign : Foreign (codeAt codes))
    (hbox : s.family.world.mailbox = sg :: rest) :
    Post (Reacting.superviseVisitor (codeAt codes) sg) (popped s.family.world)
      (fun _ w => Balanced spec w (s.calls ++ s.family.requests (.receive delivered codes)))
      (fun w => Balanced spec w (s.calls ++ s.family.requests (.receive delivered codes))) := by
  have hpop : Balanced spec (popped s.family.world) s.calls := h.balanced.drift rfl rfl le_rfl id
  have hmem := superviseVisitor_members hforeign (popped s.family.world) sg
  simp only [Family.requests, hbox, List.head?_cons, Option.bind_some]
  cases hv : signalRegistersIn (popped s.family.world) sg with
  | none =>
      rw [Option.map_none, Option.toList_none, List.append_nil]
      rw [hv] at hmem
      exact hmem.mono (fun _ _ hu => hpop.untouched hu) fun _ hu => hpop.untouched hu
  | some v =>
      obtain rfl := eq_of_signalRegistersIn hv
      have hcall : Balanced spec (dropped (popped s.family.world) sg.source) s.calls :=
        hpop.drift rfl rfl le_rfl id
      rw [Option.map_some, Option.toList_some]
      rw [hv] at hmem
      exact hmem.mono (fun _ _ hu => hcall.call hforeign hu) fun _ hu => hcall.call hforeign hu

/-- Every step keeps what the log says of the restart times. -/
lemma Sound.balanced_step {spec : Specification Args} {s t : Ledger Args} {d : Deed Args}
    (h : Sound spec s) (hforeign : d.foreign = true) (hstep : s.step d = some t) :
    Balanced spec t.family.world t.calls := by
  obtain ⟨hfamily, hcalls⟩ := step_eq_some hstep
  have hinner := foreign_codeAt hforeign
  have hP := Balanced.lasting spec s.calls
  rw [hcalls]
  -- only `receive` makes a call
  have hquiet : d.receives = false → Balanced spec t.family.world s.calls →
      Balanced spec t.family.world (s.calls ++ s.family.requests d) := fun hd hbal => by
    rwa [s.family.requests_eq_nil hd, List.append_nil]
  have hstart := (hP.robust hinner).startChildByIndex s.family.next none _ h.balanced
  generalize t.family = u at hfamily hquiet
  cases (Family.step_cases hfamily).2 with
  | exit a reason hout hne ha => exact hquiet rfl (h.balanced.drift rfl rfl le_rfl id)
  | tell hout => exact hquiet rfl (h.balanced.drift rfl rfl le_rfl id)
  | abort => exact hquiet rfl h.balanced
  | takes hl => exact hquiet rfl (hP.stable _ _ hl h.balanced)
  | returns hfits hrun =>
      exact hquiet rfl ((Balanced.administer hinner spec s.calls _ _ h.balanced).ended
        (e := .user) (.inl hrun))
  | raises hfits hrun =>
      exact hquiet rfl ((Balanced.administer hinner spec s.calls _ _ h.balanced).ended
        (.inr hrun))
  | initEnds codes halive hphase => exact hquiet rfl (h.balanced.drift rfl rfl le_rfl id)
  | initStarts halive hphase hstatic hlt hrun =>
      exact hquiet rfl (hstart.ended (e := .user) (.inl hrun))
  | initRaises halive hrun =>
      exact hquiet rfl ((hstart.ended (.inr hrun)).drift rfl rfl le_rfl id)
  | handles halive hphase hbox hrun => exact (h.receive hinner hbox).ended (e := .user) (.inl hrun)
  | sticks hbox hrun => exact (h.receive hinner hbox).ended (.inr hrun)
  | falls halive hbox hrun =>
      exact ((h.receive hinner hbox).ended (.inr hrun)).drift rfl rfl le_rfl id
  | crashes halive => exact hquiet rfl (h.balanced.drift rfl rfl le_rfl id)
  | leaves halive hphase => exact hquiet rfl (h.balanced.drift rfl rfl le_rfl id)

lemma Sound.step {spec : Specification Args} {s t : Ledger Args} {d : Deed Args}
    (h : Sound spec s) (hforeign : d.foreign = true) (hstep : s.step d = some t) :
    Sound spec t :=
  ⟨h.balanced_step hforeign hstep,
    Family.known_step h.known hforeign (step_eq_some hstep).1⟩

lemma sound_create {sched : SchedulerBase} (hwf : sched.WellFormed) (spec : Specification Args) :
    Sound spec (create sched spec) := by
  refine ⟨⟨rfl, fun _ _ _ => rfl, fun before c after hsplit => ?_, fun _ => Nat.zero_le _⟩,
    fun _ => Family.known_create hwf spec⟩
  simp [create] at hsplit

/-- The supervisor goes down in the step that makes a refused call. -/
def Downs (s : Ledger Args) : Deed Args → Prop
  | .receive delivered codes => delivered = false ∧ ¬ s.family.AllStoppable codes
  | _ => False

/-- A step that makes a refused call is a round that refuses a restart. -/
lemma refuses_of_call {s t : Ledger Args} {d : Deed Args} {c : Request ℤ}
    (hforeign : d.foreign = true) (hstep : s.step d = some t) (hcall : t.calls = s.calls ++ [c])
    (hrefused : c.granted = false) :
    ∃ delivered codes, d = .receive delivered codes ∧ refuses s.family.world = true := by
  have hreq : s.family.requests d = [c] :=
    List.append_cancel_left ((step_eq_some hstep).2.symm.trans hcall)
  cases d with
  | receive delivered codes =>
      refine ⟨delivered, codes, rfl, ?_⟩
      rw [Family.requests] at hreq
      rw [refuses]
      cases hv : s.family.world.mailbox.head?.bind (signalRegistersIn (popped s.family.world)) with
      | none => simp [hv] at hreq
      | some v =>
          obtain rfl : request (codeAt codes) v = c := by simpa [hv] using hreq
          have hinner : Foreign (codeAt codes) := foreign_codeAt hforeign
          rw [request_granted hinner] at hrefused
          rw [Option.any_some, hrefused, Bool.not_false]
  | _ => cases hreq

end Ledger

/-- Restart intensity is an exact sliding-window limit, in every run in which no operation of the
supervisor is called from code inside another one: a call made when all earlier ones were granted
is granted exactly if fewer than `max_restarts` of them are at most `within` back; no closed
interval of length `within` holds more than `max_restarts` granted calls; and `restart_times_` is
no longer than that until the supervisor is stopping. The step that makes a refused call removes
the supervisor with `error` exactly if the supervisor has received the signal itself, is not
stopping yet, and asking a child to stop raises. -/
theorem restart_intensity {sched : SchedulerBase} (hwf : sched.WellFormed)
    (spec : Specification Args) {deeds : List (Deed Args)} {s : Ledger Args}
    (hrun : run Ledger.step (Ledger.create sched spec) deeds = some s)
    (hforeign : ∀ d ∈ deeds, d.foreign = true) :
    (∀ before c after, s.calls = before ++ c :: after → (∀ b ∈ before, b.granted = true) →
      (c.granted = true ↔ 1 ≤ spec.intensity.maxRestarts ∧
        (before.filter fun b => b.granted &&
          decide (c.time - b.time ≤ spec.intensity.within)).length <
          spec.intensity.maxRestarts)) ∧
    (∀ start, (s.calls.filter (grantedIn spec.intensity.within start)).length ≤
      spec.intensity.maxRestarts) ∧
    (s.family.world.stopping = false →
      s.family.world.restartTimes.length ≤ spec.intensity.maxRestarts) ∧
    ∀ d t c, d.foreign = true → s.step d = some t → t.calls = s.calls ++ [c] →
      c.granted = false → (t.family.standing = .gone .error ↔ s.Downs d) := by
  have h : Ledger.Sound spec s := invariant (P := Ledger.Sound spec)
    (fun _ _ _ hs hd hstep => hs.step hd hstep) (Ledger.sound_create hwf spec)
    (allSteps_of_forall fun d hd _ => hforeign d hd) hrun
  refine ⟨fun before c after hsplit hall => ?_, granted_le fun before c after hsplit hc => ?_,
    h.balanced.bounded, fun d t c hd hstep hcall hrefused => ?_⟩
  · have hcount : (recent spec.intensity.within c.time (before.map Request.time)).length =
        (before.filter fun b => b.granted &&
          decide (c.time - b.time ≤ spec.intensity.within)).length := by
      rw [recent, List.filter_map, List.length_map]
      refine congrArg List.length (List.filter_congr fun b hb => ?_)
      rw [hall b hb, Bool.true_and]
      rfl
    rw [h.balanced.exact before c after hsplit, hcount, Nat.one_le_iff_ne_zero]
  · exact ((h.balanced.exact before c after hsplit).mp hc).2
  · obtain ⟨delivered, codes, rfl, hrefuses⟩ := Ledger.refuses_of_call hd hstep hcall hrefused
    have hfamily := (Ledger.step_eq_some hstep).1
    have hinner : Foreign (codeAt codes) := foreign_codeAt hd
    have hstanding := Family.standing_of_refusal (h.known (Family.registered_of_step hfamily))
      hinner hrefuses hfamily
    rw [hstanding, Ledger.Downs]
    by_cases hstoppable : s.family.AllStoppable codes
    · simp [hstoppable]
    · cases delivered with
      | false => simp [hstoppable]
      | true => simp [hstoppable]

/-- Two permanent children, and one restart in ten ticks. -/
def onceInTen : Specification Unit where
  intensity := { maxRestarts := 1, within := 10 }
  children := [{ args := (), defaultArgs := () }, { args := (), defaultArgs := () }]

/-- A child fails at once, and the one that replaces it ten ticks later. -/
def failsAtTheBoundary : List (Deed Unit) :=
  [.initNext [], .initNext [], .initNext [], .exit 2 .error, .tell, .receive false [],
    .takes (.advance 10), .exit 4 .error, .tell]

/-- The state after them. -/
def atTheBoundary : Ledger Unit :=
  reached Ledger.step (Ledger.create {} onceInTen) failsAtTheBoundary

/-- The supervisor has received the second signal itself, and the other child raises when it is
asked to stop. -/
def siblingRaises : Deed Unit := .receive false [(.stopping 3, .raises)]

/-- The state after one step more. -/
def afterTheBoundary (d : Deed Unit) : Ledger Unit := reached Ledger.step atTheBoundary [d]

lemma step_afterTheBoundary {d : Deed Unit} (h : (atTheBoundary.step d).isSome = true) :
    atTheBoundary.step d = some (afterTheBoundary d) := by
  obtain ⟨t, ht⟩ := Option.isSome_iff_exists.mp h
  rw [afterTheBoundary, reached, run_cons, ht]
  rfl

/-- The second restart is refused, and the supervisor goes down with `error`. -/
theorem restart_intensity_boundary :
    atTheBoundary.calls = [{ time := 0, granted := true }] ∧
      atTheBoundary.family.world.restartTimes.length ≤ 1 ∧
      (afterTheBoundary siblingRaises).calls =
        atTheBoundary.calls ++ [{ time := 10, granted := false }] ∧
      (afterTheBoundary siblingRaises).family.standing = .gone .error := by
  have hrun : run Ledger.step (Ledger.create {} onceInTen) failsAtTheBoundary =
      some atTheBoundary := run_eq_reached (by decide +kernel)
  have hcalls : (afterTheBoundary siblingRaises).calls =
      atTheBoundary.calls ++ [{ time := 10, granted := false }] := by decide +kernel
  have h := restart_intensity ⟨by decide, fun k hk => by cases hk⟩ onceInTen hrun (by decide)
  refine ⟨by decide +kernel, h.2.2.1 (by decide +kernel), hcalls, ?_⟩
  refine (h.2.2.2 siblingRaises _ _ (by decide) (step_afterTheBoundary (by decide +kernel))
    hcalls rfl).mpr ⟨rfl, ?_⟩
  decide +kernel

/-- A supervisor that is suspended for ever, or has used an invalid iterator, never exits. -/
lemma Family.stuck_step {s t : Family Args} {d : Deed Args}
    (h : s.standing = .stuck ∨ s.standing = .undefined) (hstep : s.step d = some t) :
    t.standing = .stuck := by
  obtain ⟨hs, hmove⟩ := step_cases hstep
  have hstuck : s.standing = .stuck := by
    rcases h with h | h
    · exact h
    · simp [h] at hs
  cases hmove with
  | exit | tell | abort | takes | returns | raises => exact hstuck
  | sticks => rfl
  | initEnds codes halive => exact absurd (halive.symm.trans hstuck) nofun
  | initStarts halive | initRaises halive | handles halive | falls halive | crashes halive
  | leaves halive => exact absurd (halive.symm.trans hstuck) nofun

/-- A refused call does not make the supervisor exit with `error`: if no child raises, then the
message is erased through an iterator that the supervisor's own exit signal has invalidated, and
if the signal was delivered to the suspended supervisor, then an exception leaves it suspended for
ever. -/
theorem refused_restart_does_not_stop_supervisor :
    run Ledger.step (Ledger.create {} onceInTen) failsAtTheBoundary = some atTheBoundary ∧
      ∀ d ∈ [.receive false [], .receive true [], .receive true [(.stopping 3, .raises)]],
        atTheBoundary.step d = some (afterTheBoundary d) ∧
        (afterTheBoundary d).calls = atTheBoundary.calls ++ [{ time := 10, granted := false }] ∧
        ∀ deeds u, run Ledger.step (afterTheBoundary d) deeds = some u →
          u.family.standing ≠ .gone .error := by
  refine ⟨run_eq_reached (by decide +kernel), fun d hd => ⟨step_afterTheBoundary ?_, ?_,
    fun deeds u hrun => ?_⟩⟩
  · revert d
    decide +kernel
  · revert d
    decide +kernel
  · have hstuck : (afterTheBoundary d).family.standing = .stuck ∨
        (afterTheBoundary d).family.standing = .undefined := by
      clear hrun
      revert d
      decide +kernel
    have hkeep := invariant_of_step (P := fun s : Ledger Unit =>
      s.family.standing = .stuck ∨ s.family.standing = .undefined)
      (fun _ _ _ h hstep => Or.inl (Family.stuck_step h (Ledger.step_eq_some hstep).1)) hstuck hrun
    rcases hkeep with h | h <;> rw [h] <;> nofun

end Supervisor

end Agner
