import Agner.Foundations.MultiMap
import Agner.Foundations.Runs

/-!
`scheduler.hpp`: the event loop of the single-threaded scheduler.

`run` resumes what is ready, and when nothing is, it goes through the timers. The inner loop goes
on until no timer is left: a callback that makes a coroutine ready does not end it, so that the
loop sleeps and fires later timers while the coroutine waits.

* `Loop`, `step`: the loop, cut where user code runs, with the clock as it is read.
* `Prompt`: what the loop has done while something was ready.
* `Drained`: the condition on steps. A callback that returns with something ready leaves no timer
  behind that is due later.
* `loop_prompt`: the runs of such steps are prompt; a callback that breaks the condition makes
  the run one that is not prompt before the loop gets back to what is ready.
-/

namespace Agner.EventLoop

open Runs

/-- Where `run` is. -/
inductive Mode where
  /-- The head of the outer loop. -/
  | outer
  /-- The head of the loop over the timers. -/
  | inner
  | sleeping (deadline : ℤ)
  /-- A coroutine is running. -/
  | resumed
  /-- A timer callback is running. -/
  | calling
  | ended
  deriving DecidableEq

/-- What `run` does. -/
inductive Event where
  | resume (handle : ℕ)
  | sleep (deadline : ℤ)
  | fire (deadline : ℤ)

/-- An event, with what was ready when it happened and since when. -/
structure Occurrence where
  event : Event
  ready : List ℕ
  since : ℤ

/-- With something ready, `run` neither slept nor fired a timer due later than that. -/
def Occurrence.prompt (o : Occurrence) : Prop :=
  o.ready ≠ [] →
    match o.event with
    | .resume _ => True
    | .sleep _ => False
    | .fire deadline => deadline ≤ o.since

instance : ∀ o : Occurrence, Decidable o.prompt
  | ⟨.resume _, _, _⟩ => isTrue fun _ => trivial
  | ⟨.sleep _, ready, _⟩ => inferInstanceAs (Decidable (ready ≠ [] → False))
  | ⟨.fire deadline, ready, since⟩ => inferInstanceAs (Decidable (ready ≠ [] → deadline ≤ since))

/-- The members of `Scheduler` and the state of `run`. Handles and callbacks are numbers. -/
structure Loop where
  ready : List ℕ
  timers : MultiMap ℤ ℕ
  /-- What `Clock::now` returns. -/
  clock : ℤ
  mode : Mode := .outer
  /-- The clock when `ready_` last became non-empty. -/
  since : ℤ
  history : List Occurrence := []

namespace Loop

/-- `run` is called. -/
def start (ready : List ℕ) (timers : MultiMap ℤ ℕ) (clock : ℤ) : Loop :=
  { ready := ready, timers := timers, clock := clock, since := clock }

/-- What happens next. -/
inductive Label where
  | tick (time : ℤ)
  /-- `run` goes on; whether the handle at the front is done. -/
  | iterate (done : Bool)
  /-- User code calls `schedule`. -/
  | schedule (handle : ℕ)
  /-- User code calls `schedule_after`. -/
  | scheduleAfter (delay : ℤ) (callback : ℕ)
  /-- User code returns, or is suspended. -/
  | yields

/-- An entry of the history. -/
def record (s : Loop) (e : Event) : List Occurrence := s.history ++ [⟨e, s.ready, s.since⟩]

/-- User code is running. -/
def userCode (s : Loop) : Bool := s.mode = .resumed || s.mode = .calling

/-- The body of `run`, up to where it waits or calls user code. -/
def iterate (s : Loop) (done : Bool) : Option Loop :=
  match s.mode with
  | .outer =>
      match s.ready with
      | [] => some { s with mode := if s.timers.entries = [] then .ended else .inner }
      | handle :: ready =>
          some (if done then { s with ready := ready }
            else { s with ready := ready, mode := .resumed, history := s.record (.resume handle) })
  | .inner =>
      match s.timers.entries with
      | [] => some { s with mode := .outer }
      | (deadline, _) :: _ =>
          some (if s.clock < deadline then
              { s with mode := .sleeping deadline, history := s.record (.sleep deadline) }
            else { s with
              timers := s.timers.eraseFirst
              mode := .calling
              history := s.record (.fire deadline) })
  | .sleeping deadline => if deadline ≤ s.clock then some { s with mode := .inner } else none
  | .resumed | .calling | .ended => none

/-- One step. -/
def step (s : Loop) : Label → Option Loop
  | .tick time => if s.clock ≤ time then some { s with clock := time } else none
  | .iterate done => s.iterate done
  | .schedule handle =>
      if s.userCode then
        some { s with
          ready := s.ready ++ [handle]
          since := if s.ready = [] then s.clock else s.since }
      else none
  | .scheduleAfter delay callback =>
      if s.userCode then some { s with timers := s.timers.insert (s.clock + delay) callback }
      else none
  | .yields =>
      match s.mode with
      | .resumed => some { s with mode := .outer }
      | .calling => some { s with mode := .inner }
      | _ => none

/-- Whatever `run` did while something was ready, it did at once. -/
def Prompt (s : Loop) : Prop := ∀ o ∈ s.history, o.prompt

instance (s : Loop) : Decidable s.Prompt := inferInstanceAs (Decidable (∀ o ∈ s.history, _))

/-- The condition on steps: a callback that returns with something ready leaves no timer behind
that is due later than what became ready. -/
def Drained (s : Loop) : Label → Prop
  | .yields => s.mode = .calling → s.ready ≠ [] → ∀ e ∈ s.timers.entries, e.1 ≤ s.since
  | _ => True

instance (s : Loop) : ∀ l : Label, Decidable (s.Drained l)
  | .yields => inferInstanceAs (Decidable (s.mode = .calling → s.ready ≠ [] → ∀ e ∈ _, _))
  | .tick _ | .iterate _ | .schedule _ | .scheduleAfter .. => isTrue trivial

variable {s t : Loop}

/-! ### Runs that are prompt -/

/-- The invariant. -/
structure Inv (s : Loop) : Prop where
  since_le : s.since ≤ s.clock
  inner : s.mode = .inner → s.ready ≠ [] → ∀ e ∈ s.timers.entries, e.1 ≤ s.since
  sleeping : ∀ deadline, s.mode = .sleeping deadline → s.ready = []
  prompt : s.Prompt

lemma Prompt.record {e : Event} (h : s.Prompt) (he : Occurrence.prompt ⟨e, s.ready, s.since⟩) :
    ∀ o ∈ s.record e, o.prompt := by
  intro o ho
  rcases List.mem_append.mp ho with ho | ho
  · exact h o ho
  · exact List.mem_singleton.mp ho ▸ he

lemma Inv.iterate {done : Bool} (h : s.Inv) (hstep : s.iterate done = some t) : t.Inv := by
  rw [Loop.iterate] at hstep
  split at hstep
  · rename_i hmode
    split at hstep
    · rename_i hready
      obtain rfl := Option.some.inj hstep
      refine ⟨h.since_le, fun _ hne => absurd hready hne, fun d hd => hready, h.prompt⟩
    · rename_i handle ready hready
      obtain rfl := Option.some.inj hstep
      cases done with
      | true =>
          refine ⟨h.since_le, fun hm => ?_, fun d hd => ?_, h.prompt⟩
          · exact absurd (hmode.symm.trans hm) (by simp)
          · exact absurd (hmode.symm.trans hd) (by simp)
      | false =>
          refine ⟨h.since_le, fun hm => ?_, fun d hd => ?_, h.prompt.record fun _ => trivial⟩
          · cases hm
          · cases hd
  · rename_i hmode
    split at hstep
    · obtain rfl := Option.some.inj hstep
      refine ⟨h.since_le, fun hm => ?_, fun d hd => ?_, h.prompt⟩
      · cases hm
      · cases hd
    · rename_i deadline callback rest hentries
      obtain rfl := Option.some.inj hstep
      have hdue : s.ready ≠ [] → deadline ≤ s.since := fun hne =>
        h.inner hmode hne (deadline, callback) (by simp [hentries])
      split
      · rename_i hlt
        have hready : s.ready = [] := by
          by_contra hne
          exact absurd (hlt.trans_le (hdue hne)) (not_lt.mpr h.since_le)
        refine ⟨h.since_le, fun hm => ?_, fun d hd => hready,
          h.prompt.record fun hne => hne hready⟩
        cases hm
      · refine ⟨h.since_le, fun hm => ?_, fun d hd => ?_, h.prompt.record hdue⟩
        · cases hm
        · cases hd
  · rename_i deadline hmode
    rw [Option.ite_none_right_eq_some] at hstep
    obtain rfl := Option.some.inj hstep.2
    have hready := h.sleeping deadline hmode
    refine ⟨h.since_le, fun _ hne => absurd hready hne, fun d hd => ?_, h.prompt⟩
    cases hd
  all_goals cases hstep

lemma mode_of_userCode (h : s.userCode = true) : s.mode = .resumed ∨ s.mode = .calling := by
  simpa [userCode] using h

lemma Inv.step {l : Label} (h : s.Inv) (hdrained : s.Drained l) (hstep : s.step l = some t) :
    t.Inv := by
  cases l with
  | tick time =>
      simp only [Loop.step, Option.ite_none_right_eq_some, Option.some.injEq] at hstep
      obtain ⟨hle, rfl⟩ := hstep
      exact ⟨h.since_le.trans hle, h.inner, h.sleeping, h.prompt⟩
  | iterate done => exact h.iterate hstep
  | schedule handle =>
      simp only [Loop.step, Option.ite_none_right_eq_some, Option.some.injEq] at hstep
      obtain ⟨huser, rfl⟩ := hstep
      have hmode := mode_of_userCode huser
      refine ⟨?_, fun hm => ?_, fun d hd => ?_, h.prompt⟩
      · dsimp only
        split
        · exact le_rfl
        · exact h.since_le
      · rcases hmode with hmode | hmode <;> exact absurd (hmode.symm.trans hm) (by simp)
      · rcases hmode with hmode | hmode <;> exact absurd (hmode.symm.trans hd) (by simp)
  | scheduleAfter delay callback =>
      simp only [Loop.step, Option.ite_none_right_eq_some, Option.some.injEq] at hstep
      obtain ⟨huser, rfl⟩ := hstep
      have hmode := mode_of_userCode huser
      refine ⟨h.since_le, fun hm => ?_, h.sleeping, h.prompt⟩
      rcases hmode with hmode | hmode <;> exact absurd (hmode.symm.trans hm) (by simp)
  | yields =>
      simp only [Loop.step] at hstep
      split at hstep
      · obtain rfl := Option.some.inj hstep
        refine ⟨h.since_le, fun hm => ?_, fun d hd => ?_, h.prompt⟩
        · cases hm
        · cases hd
      · rename_i hmode
        obtain rfl := Option.some.inj hstep
        refine ⟨h.since_le, fun _ => hdrained hmode, fun d hd => ?_, h.prompt⟩
        cases hd
      · cases hstep

lemma inv_start (ready : List ℕ) (timers : MultiMap ℤ ℕ) (clock : ℤ) :
    (start ready timers clock).Inv := by
  refine ⟨le_rfl, fun hm => ?_, fun d hd => ?_, fun o ho => ?_⟩
  · cases hm
  · cases hd
  · cases ho

/-! ### Runs that are not -/

/-- A coroutine is ready, and the loop over the timers still has one ahead that is due later; or
it is too late already. -/
def Stalled (s : Loop) : Prop :=
  ¬ s.Prompt ∨ (s.mode = .inner ∨ s.mode = .calling) ∧ s.ready ≠ [] ∧
    ∃ e ∈ s.timers.entries, s.since < e.1

lemma not_prompt_record {e : Event} (h : ¬ Occurrence.prompt ⟨e, s.ready, s.since⟩) :
    ¬ ∀ o ∈ s.record e, o.prompt :=
  fun hall => h (hall _ (List.mem_append_right _ (List.mem_singleton_self _)))

/-- The history only grows. -/
lemma history_step {l : Label} (hstep : s.step l = some t) : ∀ o ∈ s.history, o ∈ t.history := by
  intro o ho
  have hrecord : ∀ e, o ∈ s.record e := fun e => List.mem_append_left _ ho
  cases l with
  | tick time | schedule handle | scheduleAfter delay callback =>
      simp only [Loop.step, Option.ite_none_right_eq_some, Option.some.injEq] at hstep
      obtain ⟨-, rfl⟩ := hstep
      exact ho
  | iterate done =>
      simp only [Loop.step, Loop.iterate] at hstep
      repeat' split at hstep
      all_goals cases hstep
      all_goals first | exact ho | exact hrecord _
  | yields =>
      simp only [Loop.step] at hstep
      split at hstep
      all_goals cases hstep
      all_goals exact ho

lemma Stalled.step {l : Label} (h : s.Stalled) (hstep : s.step l = some t) : t.Stalled := by
  by_cases hprompt : s.Prompt
  swap
  · left
    intro ht
    exact hprompt fun o ho => ht o (history_step hstep o ho)
  rcases h with h | ⟨hmode, hready, e, he, hlate⟩
  · exact absurd hprompt h
  -- the loop over the timers goes on until none is left, and so comes to `e` with a coroutine ready
  cases l with
  | tick time =>
      simp only [Loop.step, Option.ite_none_right_eq_some, Option.some.injEq] at hstep
      obtain ⟨-, rfl⟩ := hstep
      exact .inr ⟨hmode, hready, e, he, hlate⟩
  | iterate done =>
      rcases hmode with hmode | hmode
      swap
      · simp [Loop.step, Loop.iterate, hmode] at hstep
      simp only [Loop.step, Loop.iterate, hmode] at hstep
      split at hstep
      · rename_i hentries
        rw [hentries] at he
        cases he
      · rename_i deadline callback rest hentries
        obtain rfl := Option.some.inj hstep
        split
        · exact .inl (not_prompt_record fun hp => hp hready)
        · by_cases hdue : deadline ≤ s.since
          · right
            refine ⟨.inr rfl, hready, e, ?_, hlate⟩
            rw [hentries] at he
            rcases List.mem_cons.mp he with rfl | he
            · exact absurd hdue (not_le.mpr hlate)
            · simpa [MultiMap.eraseFirst, hentries] using he
          · exact .inl (not_prompt_record fun hp => hdue (hp hready))
  | schedule handle =>
      simp only [Loop.step, Option.ite_none_right_eq_some, Option.some.injEq] at hstep
      obtain ⟨-, rfl⟩ := hstep
      refine .inr ⟨hmode, by simp, e, he, ?_⟩
      simpa only [hready, if_false] using hlate
  | scheduleAfter delay callback =>
      simp only [Loop.step, Option.ite_none_right_eq_some, Option.some.injEq] at hstep
      obtain ⟨-, rfl⟩ := hstep
      exact .inr ⟨hmode, hready, e, MultiMap.mem_insert.mpr (.inr he), hlate⟩
  | yields =>
      rcases hmode with hmode | hmode
      · simp [Loop.step, hmode] at hstep
      · simp only [Loop.step, hmode, Option.some.injEq] at hstep
        obtain rfl := hstep
        exact .inr ⟨.inl rfl, hready, e, he, hlate⟩

/-- In every run of steps that meet the condition the loop is prompt. When a callback that breaks
it has returned, the loop is not prompt by the time it gets back to what is ready. -/
theorem loop_prompt {ready : List ℕ} {timers : MultiMap ℤ ℕ} {clock : ℤ} {labels : List Label}
    (hrun : run step (start ready timers clock) labels = some s)
    (hdrained : AllSteps step Drained (start ready timers clock) labels) :
    s.Prompt ∧ ∀ t, s.step .yields = some t → ¬ s.Drained .yields →
      ∀ more u, run step t more = some u → u.mode = .outer → ¬ u.Prompt := by
  have hinv : s.Inv :=
    invariant (fun s l t hs hd ht => hs.step hd ht) (inv_start ready timers clock) hdrained hrun
  refine ⟨hinv.prompt, fun t hstep hnot more u hmore hmode hprompt => ?_⟩
  have hstalled : t.Stalled := by
    simp only [Drained, Classical.not_imp, not_forall, not_le] at hnot
    obtain ⟨hcalling, hready, e, he, hlate⟩ := hnot
    simp only [step, hcalling, Option.some.injEq] at hstep
    obtain rfl := hstep
    exact .inr ⟨.inl rfl, hready, e, he, hlate⟩
  rcases invariant_of_step (fun _ _ _ h hs => h.step hs) hstalled hmore with h | ⟨h, -⟩
  · exact h hprompt
  · rw [hmode] at h
    rcases h with h | h <;> cases h

/-- A timer callback makes a coroutine ready, which is resumed. -/
def wakesOne : List Label :=
  [.iterate false, .iterate false, .tick 5, .iterate false, .iterate false, .schedule 1, .yields,
    .iterate false, .iterate false]

/-- One timer, at 5. -/
def oneTimer : MultiMap ℤ ℕ := (∅ : MultiMap ℤ ℕ).insert 5 0

/-- The callback of the timer has made one coroutine ready, which is resumed. -/
theorem loop_prompt_wakesOne :
    (reached step (start [] oneTimer 0) wakesOne).mode = .resumed ∧
      (reached step (start [] oneTimer 0) wakesOne).Prompt :=
  ⟨by decide +kernel,
    (loop_prompt (run_eq_reached (by decide +kernel)) (by decide +kernel)).1⟩

/-- With a second timer at 9, the loop sleeps until 9 and fires that timer while the coroutine
made ready at 5 waits. -/
theorem ready_coroutine_waits :
    ∃ s, run step (start [] (oneTimer.insert 9 1) 0)
        [.iterate false, .iterate false, .tick 5, .iterate false, .iterate false, .schedule 1,
          .yields, .iterate false, .tick 9, .iterate false, .iterate false] = some s ∧
      s.ready = [1] ∧ ¬ s.Prompt :=
  ⟨_, run_eq_reached (by decide +kernel), by decide +kernel, by decide +kernel⟩

end Loop

end Agner.EventLoop
