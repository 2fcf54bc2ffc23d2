import Agner.Scheduler.EventLoop
import Agner.Scheduler.TimerLoop

/-!
What a scheduler does with the handles and timers it is given, and that the event loop of
`Scheduler` and the timer thread of `MtScheduler` do just that.

* `Agenda`: a queue of handles, and the timers in the order in which they were registered.
* `Agenda.Step`: handles are taken in the order in which they were scheduled. A timer fires when it
  is due and none of the others has an earlier deadline, or the same one and was registered earlier.
* `event_loop_follows`: every run of the event loop is one of the agenda.
* `timer_loop_follows`: so is every run of the timer thread, with any number of calls of
  `schedule_after` in progress.
-/

namespace Agner

open Runs

/-- The handles that wait to be resumed and the timers that have not fired. -/
structure Agenda where
  clock : ℤ
  ready : List ℕ
  timers : List (ℤ × ℕ)

namespace Agenda

/-- What can be seen of a scheduler. -/
inductive Action where
  | tick (time : ℤ)
  | schedule (handle : ℕ)
  | scheduleAfter (delay : ℤ) (callback : ℕ)
  /-- A handle is taken from the queue. -/
  | take (handle : ℕ)
  /-- A callback is called. -/
  | fire (deadline : ℤ) (callback : ℕ)
  /-- `run` returns. -/
  | return
  | silent

/-- What a scheduler may do. -/
inductive Step : Agenda → Action → Agenda → Prop where
  | tick {a : Agenda} {time : ℤ} (h : a.clock ≤ time) : Step a (.tick time) { a with clock := time }
  | schedule {a : Agenda} (handle : ℕ) :
      Step a (.schedule handle) { a with ready := a.ready ++ [handle] }
  | scheduleAfter {a : Agenda} (delay : ℤ) (callback : ℕ) :
      Step a (.scheduleAfter delay callback)
        { a with timers := a.timers ++ [(a.clock + delay, callback)] }
  | take {a : Agenda} {handle : ℕ} {rest : List ℕ} (h : a.ready = handle :: rest) :
      Step a (.take handle) { a with ready := rest }
  | fire {a : Agenda} {deadline : ℤ} {callback : ℕ} {before after : List (ℤ × ℕ)}
      (h : a.timers = before ++ (deadline, callback) :: after) (hdue : deadline ≤ a.clock)
      (hbefore : ∀ x ∈ before, deadline < x.1) (hafter : ∀ x ∈ after, deadline ≤ x.1) :
      Step a (.fire deadline callback) { a with timers := before ++ after }
  | return {a : Agenda} (hready : a.ready = []) (htimers : a.timers = []) : Step a .return a
  | silent (a : Agenda) : Step a .silent a

/-- The handles that have been scheduled. -/
def scheduled (actions : List Action) : List ℕ :=
  actions.filterMap fun
    | .schedule handle => some handle
    | _ => none

/-- The handles that have been taken from the queue. -/
def taken (actions : List Action) : List ℕ :=
  actions.filterMap fun
    | .take handle => some handle
    | _ => none

/-- Handles leave the queue in the order in which they came, each of them once. -/
lemma fifo {a b : Agenda} {actions : List Action} (h : Traces Step a actions b) :
    taken actions ++ b.ready = a.ready ++ scheduled actions := by
  induction h with
  | nil => simp [taken, scheduled]
  | cons hstep _ ih =>
      cases hstep with
      | take h =>
          rw [h]
          simpa [taken, scheduled] using ih
      | schedule handle => simpa [taken, scheduled] using ih
      | tick | scheduleAfter | fire | «return» | silent => simpa [taken, scheduled] using ih

end Agenda

/-! ### The event loop -/

namespace EventLoop

namespace Loop

open Agenda

variable {s t : Loop} {a : Agenda}

/-- What a step of the loop does. -/
def action (s : Loop) : Label → Action
  | .tick time => .tick time
  | .schedule handle => .schedule handle
  | .scheduleAfter delay callback => .scheduleAfter delay callback
  | .iterate _ =>
      match s.mode, s.ready, s.timers.entries with
      | .outer, handle :: _, _ => .take handle
      | .outer, [], [] => .return
      | .inner, _, (deadline, callback) :: _ =>
          if s.clock < deadline then .silent else .fire deadline callback
      | _, _, _ => .silent
  | .yields => .silent

/-- The agenda of the loop. -/
structure Agrees (s : Loop) (a : Agenda) : Prop where
  clock : s.clock = a.clock
  ready : s.ready = a.ready
  timers : s.timers.Sorts a.timers

lemma Agrees.iterate {done : Bool} (h : s.Agrees a) (hstep : s.iterate done = some t) :
    ∃ b, Step a (s.action (.iterate done)) b ∧ t.Agrees b := by
  rw [Loop.iterate] at hstep
  rw [action]
  split at hstep
  · rename_i hmode
    simp only [hmode]
    split at hstep
    · rename_i hready
      obtain rfl := Option.some.inj hstep
      rw [hready]
      cases hentries : s.timers.entries with
      | nil =>
          exact ⟨a, .return (h.ready ▸ hready) (h.timers.eq_nil hentries), h.1,
            hready.symm.trans h.2, h.3⟩
      | cons e es => exact ⟨a, .silent a, h.1, hready.symm.trans h.2, h.3⟩
    · rename_i handle ready hready
      obtain rfl := Option.some.inj hstep
      rw [hready]
      refine ⟨{ a with ready := ready }, .take (h.ready ▸ hready), ?_⟩
      cases done <;> exact ⟨h.1, rfl, h.3⟩
  · rename_i hmode
    simp only [hmode]
    split at hstep
    · rename_i hentries
      obtain rfl := Option.some.inj hstep
      rw [hentries]
      exact ⟨a, .silent a, h.1, h.2, h.3⟩
    · rename_i deadline callback es hentries
      obtain rfl := Option.some.inj hstep
      rw [hentries]
      dsimp only
      split
      · exact ⟨a, .silent a, h.1, h.2, h.3⟩
      · rename_i hdue
        obtain ⟨before, after, hl, hbefore, hafter, herase⟩ := h.timers.eraseFirst hentries
        exact ⟨_, .fire hl (by rw [← h.clock]; exact not_lt.mp hdue) hbefore hafter, h.1, h.2,
          herase⟩
  · rename_i deadline hmode
    simp only [hmode]
    obtain ⟨-, hstep⟩ := Option.ite_none_right_eq_some.mp hstep
    obtain rfl := Option.some.inj hstep
    exact ⟨a, .silent a, h.1, h.2, h.3⟩
  all_goals cases hstep

lemma Agrees.step {l : Label} (h : s.Agrees a) (hstep : s.step l = some t) :
    ∃ b, Step a (s.action l) b ∧ t.Agrees b := by
  cases l with
  | tick time =>
      obtain ⟨hle, hstep⟩ := Option.ite_none_right_eq_some.mp hstep
      obtain rfl := Option.some.inj hstep
      exact ⟨_, .tick (h.clock ▸ hle), rfl, h.2, h.3⟩
  | iterate done => exact h.iterate hstep
  | schedule handle =>
      obtain ⟨-, hstep⟩ := Option.ite_none_right_eq_some.mp hstep
      obtain rfl := Option.some.inj hstep
      exact ⟨_, .schedule handle, h.1, congrArg (· ++ [handle]) h.ready, h.3⟩
  | scheduleAfter delay callback =>
      obtain ⟨-, hstep⟩ := Option.ite_none_right_eq_some.mp hstep
      obtain rfl := Option.some.inj hstep
      exact ⟨_, .scheduleAfter delay callback, h.1, h.2,
        h.clock ▸ h.timers.insert (s.clock + delay) callback⟩
  | yields =>
      refine ⟨a, .silent a, ?_⟩
      cases hmode : s.mode <;> simp only [Loop.step, hmode, reduceCtorEq] at hstep
      all_goals exact Option.some.inj hstep ▸ ⟨h.1, h.2, h.3⟩

/-- **The event loop keeps to its agenda**: whatever coroutines and callbacks schedule, handles are
resumed in the order in which they were scheduled and each of them once, and timers fire once,
never early, by deadline and then by the order of their registration; `run` returns when nothing is
left. -/
theorem event_loop_follows (ready : List ℕ) (timers : MultiMap ℤ ℕ) (clock : ℤ)
    (labels : List Label) (s : Loop) (hrun : run step (start ready timers clock) labels = some s) :
    ∃ a, Traces Step ⟨clock, ready, timers.entries⟩
        (observations step action (start ready timers clock) labels) a ∧
      a.ready = s.ready ∧ s.timers.Sorts a.timers ∧
      taken (observations step action (start ready timers clock) labels) ++ s.ready =
        ready ++ scheduled (observations step action (start ready timers clock) labels) := by
  have hstart : (start ready timers clock).Agrees ⟨clock, ready, timers.entries⟩ :=
    ⟨rfl, rfl, fun _ => rfl⟩
  obtain ⟨a, htraces, hagrees⟩ :=
    simulation_of_rel (fun _ _ _ _ h hstep => Agrees.step h hstep) hstart hrun
  exact ⟨a, htraces, hagrees.ready.symm, hagrees.timers, hagrees.ready ▸ fifo htraces⟩

/-- A coroutine and a callback, and what they schedule. -/
theorem event_loop_follows_wakesOne :
    ∃ a, Traces Step ⟨0, [], oneTimer.entries⟩
        (observations step action (start [] oneTimer 0) wakesOne) a ∧
      a.ready = (reached step (start [] oneTimer 0) wakesOne).ready ∧
      (reached step (start [] oneTimer 0) wakesOne).timers.Sorts a.timers ∧
      taken (observations step action (start [] oneTimer 0) wakesOne) ++
          (reached step (start [] oneTimer 0) wakesOne).ready =
        scheduled (observations step action (start [] oneTimer 0) wakesOne) :=
  event_loop_follows [] oneTimer 0 wakesOne _ (run_eq_reached (by decide +kernel))

end Loop

end EventLoop

/-! ### The timer thread -/

namespace TimerLoop

namespace MtScheduler

open Agenda

variable {s t : MtScheduler} {a : Agenda}

/-- What a step does to the timers. -/
def action (s : MtScheduler) : Label → Action
  | .tick time => .tick time
  | .timer =>
      match s.place, s.timers.entries with
      | .taking, (deadline, callback) :: _ =>
          if s.shutdown = false ∧ deadline ≤ s.clock then .fire deadline callback else .silent
      | _, _ => .silent
  | .advance k =>
      match s.calls[k]? with
      | some (.scheduleAfter delay callback .locked) => .scheduleAfter delay callback
      | _ => .silent
  | _ => .silent

/-- The agenda of the timer thread. -/
structure Agrees (s : MtScheduler) (a : Agenda) : Prop where
  clock : s.clock = a.clock
  timers : s.timers.Sorts a.timers

/-- A step that leaves the timers alone. -/
lemma Agrees.silent (h : s.Agrees a) (hclock : t.clock = s.clock) (htimers : t.timers = s.timers) :
    ∃ b, Step a .silent b ∧ t.Agrees b :=
  ⟨a, .silent a, hclock.trans h.clock, htimers ▸ h.timers⟩

lemma lock_frame {place : Place} (h : s.lock place = some t) :
    t.clock = s.clock ∧ t.timers = s.timers := by
  obtain ⟨-, h⟩ := Option.ite_none_right_eq_some.mp h
  obtain rfl := Option.some.inj h
  exact ⟨rfl, rfl⟩

/-- Only `taking` changes the timers. -/
lemma timerLoop_frame (hplace : s.place ≠ .taking) (h : s.timerLoop = some t) :
    t.clock = s.clock ∧ t.timers = s.timers := by
  rw [timerLoop] at h
  split at h
  case h_2 | h_5 | h_9 => exact lock_frame h
  case h_6 =>
    split at h
    · exact Option.some.inj h ▸ ⟨rfl, rfl⟩
    · obtain ⟨e, -, rfl⟩ := Option.map_eq_some_iff.mp h
      exact ⟨rfl, rfl⟩
  case h_10 => exact absurd ‹_› hplace
  case h_12 | h_13 | h_14 => cases h
  all_goals exact Option.some.inj h ▸ ⟨rfl, rfl⟩

lemma Agrees.timerLoop (h : s.Agrees a) (hstep : s.timerLoop = some t) :
    ∃ b, Step a (s.action .timer) b ∧ t.Agrees b := by
  rw [action]
  by_cases hplace : s.place = .taking
  · rw [MtScheduler.timerLoop] at hstep
    simp only [hplace] at hstep ⊢
    obtain ⟨⟨deadline, callback⟩, he, rfl⟩ := Option.map_eq_some_iff.mp hstep
    obtain ⟨es, hentries⟩ := List.head?_eq_some_iff.mp he
    rw [hentries]
    dsimp only
    split
    · rename_i hdue
      obtain ⟨before, after, hl, hbefore, hafter, herase⟩ := h.timers.eraseFirst hentries
      exact ⟨_, .fire hl (h.clock ▸ hdue.2) hbefore hafter, h.clock, herase⟩
    · exact h.silent rfl rfl
  · obtain ⟨hclock, htimers⟩ := timerLoop_frame hplace hstep
    have hsilent := h.silent hclock htimers
    cases hp : s.place <;> first | exact absurd hp hplace | exact hsilent

lemma Agrees.advance {k : ℕ} (h : s.Agrees a) (hstep : s.step (.advance k) = some t) :
    ∃ b, Step a (s.action (.advance k)) b ∧ t.Agrees b := by
  obtain ⟨c, hc, hadvance⟩ := Option.bind_eq_some_iff.mp hstep
  rw [action, hc]
  unfold MtScheduler.advance at hadvance
  split at hadvance
  · obtain ⟨-, hadvance⟩ := Option.ite_none_right_eq_some.mp hadvance
    exact Option.some.inj hadvance ▸ h.silent rfl rfl
  · rename_i delay callback
    obtain rfl := Option.some.inj hadvance
    exact ⟨_, .scheduleAfter delay callback, h.clock,
      h.clock ▸ h.timers.insert (s.clock + delay) callback⟩
  all_goals exact Option.some.inj hadvance ▸ h.silent rfl rfl

lemma Agrees.step {l : Label} (h : s.Agrees a) (hstep : s.step l = some t) :
    ∃ b, Step a (s.action l) b ∧ t.Agrees b := by
  cases l with
  | timer => exact h.timerLoop hstep
  | advance k => exact h.advance hstep
  | tick time =>
      obtain ⟨hle, hstep⟩ := Option.ite_none_right_eq_some.mp hstep
      obtain rfl := Option.some.inj hstep
      exact ⟨_, .tick (h.clock ▸ hle), rfl, h.timers⟩
  | spurious =>
      rw [MtScheduler.step] at hstep
      split at hstep
      · cases hstep
      · exact Option.some.inj hstep ▸ h.silent rfl rfl
  | expire =>
      rw [MtScheduler.step] at hstep
      split at hstep
      · obtain ⟨-, hstep⟩ := Option.ite_none_right_eq_some.mp hstep
        exact Option.some.inj hstep ▸ h.silent rfl rfl
      · cases hstep
  | actorExits =>
      obtain ⟨-, hstep⟩ := Option.ite_none_right_eq_some.mp hstep
      exact Option.some.inj hstep ▸ h.silent rfl rfl
  | spawn | scheduleAfter => exact Option.some.inj hstep ▸ h.silent rfl rfl

/-- **The timer thread keeps to its agenda**: with any number of calls of `schedule_after` and
`on_actor_exit` in progress, whatever wakes it, a callback is called once at most, never early, and
not as long as there is a timer with an earlier deadline, or with the same deadline and added
earlier. -/
theorem timer_loop_follows (actors : ℕ) (clock : ℤ) (labels : List Label) (s : MtScheduler)
    (hrun : run step (start actors clock) labels = some s) :
    ∃ a, Traces Step ⟨clock, [], []⟩ (observations step action (start actors clock) labels) a ∧
      s.timers.Sorts a.timers := by
  have hstart : (start actors clock).Agrees ⟨clock, [], []⟩ := ⟨rfl, fun _ => rfl⟩
  obtain ⟨a, htraces, hagrees⟩ :=
    simulation_of_rel (fun _ _ _ _ h hstep => Agrees.step h hstep) hstart hrun
  exact ⟨a, htraces, hagrees.timers⟩

/-- Two timers, of which the one added later is due first and fires. -/
def laterFirst : List Label :=
  [.scheduleAfter 5 0, .advance 0, .advance 0, .advance 0, .advance 0, .scheduleAfter 3 1,
    .advance 0, .advance 0, .advance 0, .advance 0, .timer, .timer, .timer, .timer, .timer, .timer,
    .tick 3, .expire, .timer, .timer]

/-- The callback that is due first is run first, though it was added last. -/
theorem timer_loop_follows_laterFirst :
    (reached step (start 1 0) laterFirst).place = .callback 1 ∧
      ∃ a, Traces Step ⟨0, [], []⟩ (observations step action (start 1 0) laterFirst) a ∧
        (reached step (start 1 0) laterFirst).timers.Sorts a.timers :=
  ⟨by decide +kernel, timer_loop_follows 1 0 laterFirst _ (run_eq_reached (by decide +kernel))⟩

end MtScheduler

end TimerLoop

end Agner
