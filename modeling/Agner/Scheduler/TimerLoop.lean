import Agner.Foundations.MultiMap
import Agner.Foundations.Runs

/-!
`MtScheduler::timer_loop`, with the calls of `schedule_after` and `on_actor_exit` that wake it.

`timer_cv_` is a condition variable: `notify_one` wakes a thread that is blocked in it and
nothing else, and `wait` evaluates its predicate with `timer_mutex_` held and then blocks and
releases the mutex in one step. `schedule_after` adds its timer with the mutex held;
`on_actor_exit` stores `shutdown_` without it.

* `MtScheduler`, `step`: the timer thread and any number of calls, one access a step. The calls are
  made by workers, by other threads and by the callbacks of timers.
* `Stranded`: the timer thread is blocked, has something to do, and nobody is going to wake it.
* `Timely`: the condition on steps. With `shutdown_` set, the last notification still to be
  issued is not issued between the evaluation of the predicate and the wait.
* `never_stranded`: in the runs of such steps the timer thread is never stranded; a notification
  that breaks the condition strands it when it blocks.
-/

namespace Agner.TimerLoop

open Runs

/-- Where the timer thread is in `timer_loop`. -/
inductive Place where
  /-- The head of the loop reads `shutdown_`. -/
  | head
  | locking
  /-- `wait` evaluates its predicate. -/
  | evaluating
  /-- The predicate was false. -/
  | deciding
  /-- Blocked in `timer_cv_.wait`. -/
  | blocked
  /-- Woken up, without the mutex. -/
  | woken
  /-- `wait` has returned. -/
  | passed
  /-- `wait_until` evaluates its predicate. -/
  | evaluatingUntil (deadline : ℤ)
  | decidingUntil (deadline : ℤ)
  /-- Blocked in `timer_cv_.wait_until`. -/
  | blockedUntil (deadline : ℤ)
  | wokenUntil (deadline : ℤ) (timedOut : Bool)
  /-- The first timer is looked at. -/
  | taking
  /-- A callback is running. -/
  | callback (fn : ℕ)
  | left
  deriving DecidableEq

/-- The timer thread holds `timer_mutex_`. -/
def Place.holds : Place → Bool
  | .evaluating | .deciding | .passed | .evaluatingUntil _ | .decidingUntil _ | .taking => true
  | .head | .locking | .blocked | .woken | .blockedUntil _ | .wokenUntil .. | .callback _
  | .left => false

/-- Where `notify_one` sends the timer thread. -/
def Place.notified : Place → Place
  | .blocked => .woken
  | .blockedUntil deadline => .wokenUntil deadline false
  | place => place

/-- How far a call of `schedule_after` has come. -/
inductive AfterStage where
  | called
  | locked
  | emplaced
  | unlocked
  deriving DecidableEq

/-- How far a call of `on_actor_exit` has come. -/
inductive ExitStage where
  | called
  /-- `notify_exit` has returned. -/
  | signalled
  /-- The test has read zero. -/
  | zero
  | stored
  deriving DecidableEq

/-- A call of another thread that notifies the timer thread. -/
inductive Call where
  | scheduleAfter (delay : ℤ) (fn : ℕ) (stage : AfterStage)
  | onActorExit (stage : ExitStage)
  deriving DecidableEq

namespace Call

/-- The call holds `timer_mutex_`. -/
def holds : Call → Bool
  | .scheduleAfter _ _ .locked | .scheduleAfter _ _ .emplaced => true
  | _ => false

/-- The call has a `notify_one` on `timer_cv_` still to issue. -/
def toNotify : Call → Bool
  | .scheduleAfter .. | .onActorExit .zero | .onActorExit .stored => true
  | .onActorExit .called | .onActorExit .signalled => false

/-- The next access of the call is its `notify_one`. -/
def notifies : Call → Bool
  | .scheduleAfter _ _ .unlocked | .onActorExit .stored => true
  | _ => false

end Call

/-- The members the threads share, the timer thread and the calls that have not returned.
Callbacks are numbers. -/
structure MtScheduler where
  timers : MultiMap ℤ ℕ := ∅
  shutdown : Bool := false
  activeActorCount : ℕ
  /-- The actors whose coroutine has not returned. -/
  running : ℕ
  /-- What `Clock::now` returns. -/
  clock : ℤ
  place : Place := .head
  calls : List Call := []

/-- What the timer thread or another one does next. -/
inductive Label where
  /-- The timer thread goes on. -/
  | timer
  /-- The wait of the timer thread ends without a notification. -/
  | spurious
  /-- The wait of the timer thread times out. -/
  | expire
  | tick (time : ℤ)
  | spawn
  /-- `schedule_after` is called. -/
  | scheduleAfter (delay : ℤ) (fn : ℕ)
  /-- An actor returns, and `on_actor_exit` is called. -/
  | actorExits
  /-- A call goes on. -/
  | advance (k : ℕ)
  deriving DecidableEq

namespace MtScheduler

/-- `timer_loop` is entered, with as many actors alive. -/
def start (actors : ℕ) (clock : ℤ) : MtScheduler :=
  { activeActorCount := actors, running := actors, clock := clock }

/-- Nobody holds `timer_mutex_`. -/
def free (s : MtScheduler) : Bool := !s.place.holds && s.calls.all fun c => !c.holds

/-- The predicate of `wait`. -/
def predicate (s : MtScheduler) : Bool := s.shutdown || !s.timers.entries.isEmpty

/-- The predicate of `wait_until`. -/
def predicateUntil (s : MtScheduler) (deadline : ℤ) : Bool :=
  s.shutdown || s.timers.entries.head?.any fun e => e.1 < deadline

/-- The timer thread takes the mutex. -/
def lock (s : MtScheduler) (place : Place) : Option MtScheduler :=
  if s.free then some { s with place := place } else none

/-- One access of the timer thread. -/
def timerLoop (s : MtScheduler) : Option MtScheduler :=
  match s.place with
  | .head => some { s with place := if s.shutdown then .left else .locking }
  | .locking => s.lock .evaluating
  | .evaluating => some { s with place := if s.predicate then .passed else .deciding }
  | .deciding => some { s with place := .blocked }
  | .woken => s.lock .evaluating
  | .passed =>
      if s.shutdown ∧ s.timers.entries = [] then some { s with place := .left }
      else
        s.timers.entries.head?.map fun e =>
          { s with place := if s.clock < e.1 then .evaluatingUntil e.1 else .taking }
  | .evaluatingUntil deadline =>
      some { s with
        place := if s.predicateUntil deadline then .taking else .decidingUntil deadline }
  | .decidingUntil deadline => some { s with place := .blockedUntil deadline }
  | .wokenUntil deadline timedOut =>
      s.lock (if timedOut then .taking else .evaluatingUntil deadline)
  | .taking =>
      s.timers.entries.head?.map fun e =>
        if s.shutdown = false ∧ e.1 ≤ s.clock then
          { s with timers := s.timers.eraseFirst, place := .callback e.2 }
        else { s with place := .head }
  | .callback _ => some { s with place := .head }
  | .blocked | .blockedUntil _ | .left => none

/-- One access of the call at position `k`. -/
def advance (s : MtScheduler) (k : ℕ) : Call → Option MtScheduler
  | .scheduleAfter delay fn .called =>
      if s.free then some { s with calls := s.calls.set k (.scheduleAfter delay fn .locked) }
      else none
  | .scheduleAfter delay fn .locked =>
      some { s with
        timers := s.timers.insert (s.clock + delay) fn
        calls := s.calls.set k (.scheduleAfter delay fn .emplaced) }
  | .scheduleAfter delay fn .emplaced =>
      some { s with calls := s.calls.set k (.scheduleAfter delay fn .unlocked) }
  | .scheduleAfter _ _ .unlocked =>
      some { s with place := s.place.notified, calls := s.calls.eraseIdx k }
  | .onActorExit .called =>
      some { s with
        activeActorCount := s.activeActorCount - 1
        calls := s.calls.set k (.onActorExit .signalled) }
  | .onActorExit .signalled =>
      some { s with
        calls := if s.activeActorCount = 0 then s.calls.set k (.onActorExit .zero)
          else s.calls.eraseIdx k }
  | .onActorExit .zero =>
      some { s with shutdown := true, calls := s.calls.set k (.onActorExit .stored) }
  | .onActorExit .stored =>
      some { s with place := s.place.notified, calls := s.calls.eraseIdx k }

/-- One step; `none` if the label is not enabled. -/
def step (s : MtScheduler) : Label → Option MtScheduler
  | .timer => s.timerLoop
  | .spurious =>
      if s.place.notified = s.place then none else some { s with place := s.place.notified }
  | .expire =>
      match s.place with
      | .blockedUntil deadline =>
          if deadline ≤ s.clock then some { s with place := .wokenUntil deadline true } else none
      | _ => none
  | .tick time => if s.clock ≤ time then some { s with clock := time } else none
  | .spawn =>
      some { s with activeActorCount := s.activeActorCount + 1, running := s.running + 1 }
  | .scheduleAfter delay fn =>
      some { s with calls := s.calls ++ [.scheduleAfter delay fn .called] }
  | .actorExits =>
      if 0 < s.running then
        some { s with running := s.running - 1, calls := s.calls ++ [.onActorExit .called] }
      else none
  | .advance k => s.calls[k]?.bind fun c => s.advance k c

/-! ### Notifications still to come -/

/-- A call has a notification still to issue. -/
def pendingNotify (s : MtScheduler) : Bool := s.calls.any Call.toNotify

/-- The timer thread is blocked in `wait` with something to do, and no notification is still to
be issued. -/
def Stranded (s : MtScheduler) : Prop :=
  s.place = .blocked ∧ (s.shutdown = true ∨ s.timers.entries ≠ []) ∧ s.pendingNotify = false

instance (s : MtScheduler) : Decidable s.Stranded :=
  inferInstanceAs (Decidable (_ = _ ∧ (_ = true ∨ _ ≠ []) ∧ _ = false))

/-- The step is not the last notification, issued with `shutdown_` set while the timer thread is
between the evaluation of its predicate and its wait. -/
def Timely (s : MtScheduler) : Label → Prop
  | .advance k =>
      s.place = .deciding → s.shutdown = true → (s.calls[k]?.any Call.notifies) = true →
        ((s.calls.eraseIdx k).any Call.toNotify) = true
  | _ => True

instance (s : MtScheduler) : ∀ l : Label, Decidable (s.Timely l)
  | .advance k =>
      inferInstanceAs (Decidable (s.place = .deciding → s.shutdown = true →
        (s.calls[k]?.any Call.notifies) = true →
        ((s.calls.eraseIdx k).any Call.toNotify) = true))
  | .timer | .spurious | .expire | .tick _ | .spawn | .scheduleAfter .. | .actorExits =>
      inferInstanceAs (Decidable True)

/-! ### Steps of the timer thread -/

variable {s t : MtScheduler}

/-- The timer thread is awaited wherever it may miss something. -/
structure Awaited (s : MtScheduler) : Prop where
  exclusive : s.place.holds = true → ∀ c ∈ s.calls, c.holds = false
  empty : s.place = .deciding → s.timers.entries = []
  awaited : s.place = .deciding ∨ s.place = .blocked → s.predicate = true →
    s.pendingNotify = true

lemma awaited_start (actors : ℕ) (clock : ℤ) : (start actors clock).Awaited where
  exclusive h := absurd h (by simp [start, Place.holds])
  empty h := absurd h (by simp [start])
  awaited h := absurd h (by simp [start])

lemma holds_of_free (h : s.free = true) : ∀ c ∈ s.calls, c.holds = false := by
  rw [free, Bool.and_eq_true, List.all_eq_true] at h
  intro c hc
  simpa using h.2 c hc

/-- The timer thread goes where it misses nothing. -/
lemma Awaited.moved (h : s.Awaited) (hcalls : t.calls = s.calls)
    (hholds : t.place.holds = true → s.place.holds = true ∨ s.free = true)
    (hdeciding : t.place ≠ .deciding) (hblocked : t.place ≠ .blocked) : t.Awaited where
  exclusive ht := by
    rw [hcalls]
    rcases hholds ht with hs | hs
    · exact h.exclusive hs
    · exact holds_of_free hs
  empty ht := absurd ht hdeciding
  awaited ht := ht.elim (absurd · hdeciding) (absurd · hblocked)

lemma Awaited.lock (h : s.Awaited) {place : Place} (hdeciding : place ≠ .deciding)
    (hblocked : place ≠ .blocked) (ht : s.lock place = some t) : t.Awaited := by
  rw [MtScheduler.lock] at ht
  split at ht
  · rename_i hfree
    obtain rfl := Option.some.inj ht
    exact h.moved rfl (fun _ => Or.inr hfree) hdeciding hblocked
  · cases ht

/-- A false predicate is one of a scheduler with nothing to do. -/
lemma predicate_eq_false : s.predicate = false ↔ s.shutdown = false ∧ s.timers.entries = [] := by
  simp [predicate]

/-- The predicate of `wait` is evaluated. -/
lemma Awaited.evaluate (h : s.Awaited) (hs : s.place = .evaluating) :
    { s with place := if s.predicate then .passed else .deciding }.Awaited := by
  cases hp : s.predicate with
  | true => exact h.moved rfl (fun _ => Or.inl (by rw [hs]; rfl)) (by simp) (by simp)
  | false =>
      refine ⟨fun _ => h.exclusive (by rw [hs]; rfl), fun _ => (predicate_eq_false.mp hp).2,
        fun _ htrue => ?_⟩
      exact absurd (hp.symm.trans htrue) (by simp)

/-- The timer thread blocks. -/
lemma Awaited.block (h : s.Awaited) (hs : s.place = .deciding) :
    { s with place := .blocked }.Awaited where
  exclusive ht := absurd ht (by simp [Place.holds])
  empty ht := absurd ht (by simp)
  awaited _ := h.awaited (Or.inl hs)

lemma Awaited.timerLoop (h : s.Awaited) (ht : s.timerLoop = some t) : t.Awaited := by
  rw [MtScheduler.timerLoop] at ht
  cases hs : s.place with
  | head =>
      simp only [hs, Option.some.injEq] at ht
      subst ht
      refine h.moved rfl ?_ ?_ ?_ <;> cases s.shutdown <;> simp [Place.holds]
  | locking =>
      simp only [hs] at ht
      exact h.lock (by simp) (by simp) ht
  | evaluating =>
      simp only [hs, Option.some.injEq] at ht
      subst ht
      exact h.evaluate hs
  | deciding =>
      simp only [hs, Option.some.injEq] at ht
      subst ht
      exact h.block hs
  | woken =>
      simp only [hs] at ht
      exact h.lock (by simp) (by simp) ht
  | passed =>
      -- from here to the callback the mutex is held, but for the second wait
      simp only [hs] at ht
      split at ht
      · obtain rfl := Option.some.inj ht
        exact h.moved rfl (fun _ => Or.inl (by rw [hs]; rfl)) (by simp) (by simp)
      · obtain ⟨e, -, rfl⟩ := Option.map_eq_some_iff.mp ht
        refine h.moved rfl (fun _ => Or.inl (by rw [hs]; rfl)) ?_ ?_ <;>
          by_cases hlt : s.clock < e.1 <;> simp [hlt]
  | evaluatingUntil deadline =>
      simp only [hs, Option.some.injEq] at ht
      subst ht
      refine h.moved rfl (fun _ => Or.inl (by rw [hs]; rfl)) ?_ ?_ <;>
        cases s.predicateUntil deadline <;> simp
  | decidingUntil deadline =>
      simp only [hs, Option.some.injEq] at ht
      subst ht
      exact h.moved rfl (fun _ => Or.inl (by rw [hs]; rfl)) (by simp) (by simp)
  | wokenUntil deadline timedOut =>
      simp only [hs] at ht
      refine h.lock ?_ ?_ ht <;> cases timedOut <;> simp
  | taking =>
      simp only [hs] at ht
      obtain ⟨e, -, rfl⟩ := Option.map_eq_some_iff.mp ht
      split
      · exact h.moved rfl (fun _ => Or.inl (by rw [hs]; rfl)) (by simp) (by simp)
      · exact h.moved rfl (fun _ => Or.inl (by rw [hs]; rfl)) (by simp) (by simp)
  | callback fn =>
      simp only [hs, Option.some.injEq] at ht
      subst ht
      exact h.moved rfl (fun hholds => absurd hholds (by simp [Place.holds])) (by simp) (by simp)
  | blocked | blockedUntil | left => simp [hs] at ht

/-- The timer thread is woken up. -/
lemma Awaited.notified (h : s.Awaited) (hs : s.place ≠ .deciding) :
    { s with place := s.place.notified }.Awaited := by
  cases hplace : s.place with
  | deciding => exact absurd hplace hs
  | blocked | blockedUntil =>
      exact h.moved rfl (fun ht => absurd ht (by simp [Place.notified, Place.holds]))
        (by simp [Place.notified]) (by simp [Place.notified])
  | head | locking | evaluating | woken | passed | evaluatingUntil | decidingUntil | wokenUntil
  | taking | callback | left =>
      exact h.moved rfl (fun ht => Or.inl (by simpa [hplace, Place.notified] using ht))
        (by simp [Place.notified]) (by simp [Place.notified])

/-! ### Steps of the calls -/

variable {α : Type*} {f : α → Bool} {l : List α} {k : ℕ} {c : α}

/-- What held of an element other than the one at `k` still holds of one after an update. -/
lemma any_set (hc : l[k]? = some c) {c' : α} (h : f c' = true ∨ f c = false ∧ l.any f = true) :
    (l.set k c').any f = true := by
  rw [List.any_eq_true]
  rcases h with h | ⟨hfalse, h⟩
  · obtain ⟨hk, -⟩ := List.getElem?_eq_some_iff.mp hc
    exact ⟨c', List.mem_set hk c', h⟩
  · obtain ⟨x, hx, hfx⟩ := List.any_eq_true.mp h
    obtain ⟨i, hi⟩ := List.mem_iff_getElem?.mp hx
    have hne : k ≠ i := by
      rintro rfl
      obtain rfl := Option.some.inj (hc.symm.trans hi)
      exact absurd (hfalse.symm.trans hfx) (by simp)
    exact ⟨x, List.mem_iff_getElem?.mpr ⟨i, by rw [List.getElem?_set_ne hne, hi]⟩, hfx⟩

/-- What held of an element other than the one at `k` still holds of one without it. -/
lemma any_eraseIdx (hc : l[k]? = some c) (hfalse : f c = false) (h : l.any f = true) :
    (l.eraseIdx k).any f = true := by
  obtain ⟨x, hx, hfx⟩ := List.any_eq_true.mp h
  obtain ⟨i, hi⟩ := List.mem_iff_getElem?.mp hx
  have hne : i ≠ k := by
    rintro rfl
    obtain rfl := Option.some.inj (hc.symm.trans hi)
    exact absurd (hfalse.symm.trans hfx) (by simp)
  exact List.any_eq_true.mpr ⟨x, List.mem_eraseIdx_iff_getElem?.mpr ⟨i, hne, hi⟩, hfx⟩

/-- A call goes on, with its notification still to come or with nothing new to do. -/
lemma Awaited.call {k : ℕ} {c c' : Call} (h : s.Awaited) (hc : s.calls[k]? = some c)
    (hplace : t.place = s.place) (hcalls : t.calls = s.calls.set k c')
    (hholds : c'.holds = true → s.place.holds = false)
    (htimers : s.place = .deciding → t.timers = s.timers)
    (hnotify : c'.toNotify = true ∨ c.toNotify = false ∧ t.predicate = s.predicate) :
    t.Awaited := by
  refine ⟨fun ht x hx => ?_, fun ht => ?_, fun ht hp => ?_⟩
  · rw [hplace] at ht
    rw [hcalls] at hx
    rcases List.mem_or_eq_of_mem_set hx with hx | rfl
    · exact h.exclusive ht x hx
    · exact Bool.eq_false_iff.mpr fun hx => absurd (ht.symm.trans (hholds hx)) (by simp)
  · rw [hplace] at ht
    rw [htimers ht]
    exact h.empty ht
  · rw [hplace] at ht
    rw [pendingNotify, hcalls]
    refine any_set hc (hnotify.imp_right fun ⟨hfalse, hsame⟩ => ⟨hfalse, ?_⟩)
    exact h.awaited ht (hsame ▸ hp)

/-- A call returns without a notification. -/
lemma Awaited.returns {k : ℕ} {c : Call} (h : s.Awaited) (hc : s.calls[k]? = some c)
    (hnotify : c.toNotify = false) : { s with calls := s.calls.eraseIdx k }.Awaited :=
  ⟨fun ht x hx => h.exclusive ht x (List.eraseIdx_subset hx), h.empty,
    fun ht hp => any_eraseIdx hc hnotify (h.awaited ht hp)⟩

/-- A call issues its notification, and returns. -/
lemma Awaited.notify {k : ℕ} {c : Call} (h : s.Awaited) (hok : s.Timely (.advance k))
    (hc : s.calls[k]? = some c) (hnotifies : c.notifies = true) :
    { s with place := s.place.notified, calls := s.calls.eraseIdx k }.Awaited := by
  by_cases hs : s.place = .deciding
  · have hplace : s.place.notified = .deciding := by rw [hs]; rfl
    have hempty := h.empty hs
    refine ⟨fun _ x hx => ?_, fun _ => hempty, fun _ hp => ?_⟩
    · exact h.exclusive (by rw [hs]; rfl) x (List.eraseIdx_subset hx)
    · have hshutdown : s.shutdown = true := by simpa [predicate, hempty] using hp
      exact hok hs hshutdown (by simp [hc, hnotifies])
  · have hwoken := h.notified hs
    refine ⟨fun ht x hx => hwoken.exclusive ht x (List.eraseIdx_subset hx), hwoken.empty,
      fun ht => ?_⟩
    exfalso
    revert ht hs
    cases s.place <;> simp [Place.notified]

lemma Awaited.advance {k : ℕ} {c : Call} (h : s.Awaited) (hok : s.Timely (.advance k))
    (hc : s.calls[k]? = some c) (ht : s.advance k c = some t) : t.Awaited := by
  cases c with
  | scheduleAfter delay fn stage =>
      cases stage with
      | called =>
          rw [MtScheduler.advance] at ht
          split at ht
          · rename_i hfree
            obtain rfl := Option.some.inj ht
            refine h.call hc rfl rfl (fun _ => ?_) (fun _ => rfl) (Or.inl rfl)
            rw [free, Bool.and_eq_true] at hfree
            simpa using hfree.1
          · cases ht
      | locked =>
          obtain rfl := Option.some.inj ht
          -- the call holds the mutex, so the timer thread does not
          have hplace : s.place.holds = false := Bool.eq_false_iff.mpr fun hs =>
            absurd (h.exclusive hs _ (List.mem_of_getElem? hc)) (by simp [Call.holds])
          refine h.call hc rfl rfl (fun _ => hplace) (fun hs => ?_) (Or.inl rfl)
          rw [hs] at hplace
          exact absurd hplace (by simp [Place.holds])
      | emplaced =>
          obtain rfl := Option.some.inj ht
          exact h.call hc rfl rfl (fun hx => absurd hx (by simp [Call.holds])) (fun _ => rfl)
            (Or.inl rfl)
      | unlocked =>
          obtain rfl := Option.some.inj ht
          exact h.notify hok hc rfl
  | onActorExit stage =>
      cases stage with
      | called =>
          obtain rfl := Option.some.inj ht
          exact h.call hc rfl rfl (fun hx => absurd hx (by simp [Call.holds])) (fun _ => rfl)
            (Or.inr ⟨rfl, rfl⟩)
      | signalled =>
          obtain rfl := Option.some.inj ht
          by_cases hzero : s.activeActorCount = 0
          · rw [if_pos hzero]
            exact h.call hc rfl rfl (fun hx => absurd hx (by simp [Call.holds])) (fun _ => rfl)
              (Or.inl rfl)
          · rw [if_neg hzero]
            exact h.returns hc rfl
      | zero =>
          obtain rfl := Option.some.inj ht
          exact h.call hc rfl rfl (fun hx => absurd hx (by simp [Call.holds])) (fun _ => rfl)
            (Or.inl rfl)
      | stored =>
          obtain rfl := Option.some.inj ht
          exact h.notify hok hc rfl

/-- A call begins. -/
lemma Awaited.begins {c : Call} (h : s.Awaited) (hplace : t.place = s.place)
    (hpredicate : t.predicate = s.predicate) (htimers : t.timers = s.timers)
    (hcalls : t.calls = s.calls ++ [c]) (hholds : c.holds = false) : t.Awaited := by
  refine ⟨fun ht x hx => ?_, fun ht => ?_, fun ht hp => ?_⟩
  · rw [hplace] at ht
    rw [hcalls, List.mem_append, List.mem_singleton] at hx
    rcases hx with hx | rfl
    · exact h.exclusive ht x hx
    · exact hholds
  · rw [htimers]
    exact h.empty (hplace ▸ ht)
  · rw [hplace] at ht
    rw [hpredicate] at hp
    rw [pendingNotify, hcalls, List.any_append, Bool.or_eq_true]
    exact Or.inl (h.awaited ht hp)

/-! ### Runs -/

lemma Awaited.step (s : MtScheduler) (l : Label) (t : MtScheduler) (h : s.Awaited)
    (hok : s.Timely l) (ht : s.step l = some t) : t.Awaited := by
  cases l with
  | timer => exact h.timerLoop ht
  | spurious =>
      rw [MtScheduler.step] at ht
      split at ht
      · cases ht
      · rename_i hne
        obtain rfl := Option.some.inj ht
        refine h.notified fun hs => hne ?_
        rw [hs]
        rfl
  | expire =>
      rw [MtScheduler.step] at ht
      split at ht
      · split at ht
        · obtain rfl := Option.some.inj ht
          exact h.moved rfl (fun hholds => absurd hholds (by simp [Place.holds])) (by simp)
            (by simp)
        · cases ht
      · cases ht
  | tick time =>
      rw [MtScheduler.step] at ht
      split at ht
      · obtain rfl := Option.some.inj ht
        exact ⟨h.exclusive, h.empty, h.awaited⟩
      · cases ht
  | spawn =>
      obtain rfl := Option.some.inj ht
      exact ⟨h.exclusive, h.empty, h.awaited⟩
  | scheduleAfter delay fn =>
      obtain rfl := Option.some.inj ht
      exact h.begins rfl rfl rfl rfl rfl
  | actorExits =>
      rw [MtScheduler.step] at ht
      split at ht
      · obtain rfl := Option.some.inj ht
        exact h.begins rfl rfl rfl rfl rfl
      · cases ht
  | advance k =>
      obtain ⟨c, hc, ht⟩ := Option.bind_eq_some_iff.mp ht
      exact h.advance hok hc ht

lemma Awaited.not_stranded (h : s.Awaited) : ¬ s.Stranded := by
  rintro ⟨hplace, htodo, hnone⟩
  have hp : s.predicate = true := by
    by_contra hp
    obtain ⟨hshutdown, hempty⟩ := predicate_eq_false.mp (Bool.eq_false_iff.mpr hp)
    rcases htodo with htrue | hne
    · exact absurd (hshutdown.symm.trans htrue) (by simp)
    · exact hne hempty
  exact absurd (hnone.symm.trans (h.awaited (Or.inr hplace) hp)) (by simp)

/-- A notification that breaks the condition strands the timer thread when it blocks. -/
lemma stranded_of_not_timely {l : Label} (hl : ¬ s.Timely l) (ht : s.step l = some t) :
    ∃ u, t.step .timer = some u ∧ u.Stranded := by
  cases l with
  | advance k =>
      simp only [Timely, Classical.not_imp, Bool.not_eq_true] at hl
      obtain ⟨hplace, hshutdown, hnotifies, hnone⟩ := hl
      obtain ⟨c, hc, ht⟩ := Option.bind_eq_some_iff.mp ht
      rw [hc, Option.any_some] at hnotifies
      have hadvance : s.advance k c =
          some { s with place := s.place.notified, calls := s.calls.eraseIdx k } := by
        match c, hnotifies with
        | .scheduleAfter _ _ .unlocked, _ => rfl
        | .onActorExit .stored, _ => rfl
      obtain rfl := Option.some.inj (hadvance.symm.trans ht)
      refine ⟨{ s with place := .blocked, calls := s.calls.eraseIdx k }, ?_, rfl,
        Or.inl hshutdown, hnone⟩
      rw [MtScheduler.step, MtScheduler.timerLoop]
      simp [hplace, Place.notified]
  | timer | spurious | expire | tick | spawn | scheduleAfter | actorExits =>
      exact absurd trivial hl

/-- In a run all of whose steps are timely the timer thread is never stranded, and a step that is
not timely leads to a state in which it is as soon as it blocks. -/
theorem never_stranded (actors : ℕ) (clock : ℤ) (ls : List Label) (s : MtScheduler)
    (hrun : run step (start actors clock) ls = some s)
    (hok : AllSteps step Timely (start actors clock) ls) :
    ¬ s.Stranded ∧
      ∀ l t, ¬ s.Timely l → s.step l = some t → ∃ u, t.step .timer = some u ∧ u.Stranded :=
  ⟨(invariant Awaited.step (awaited_start actors clock) hok hrun).not_stranded,
    fun _ _ hl ht => stranded_of_not_timely hl ht⟩

/-- The last actor exits while the timer thread is about to block. -/
def strandingRun : List Label :=
  [.timer, .timer, .timer, .actorExits, .advance 0, .advance 0, .advance 0, .advance 0, .timer]

/-- The last actor exits once the timer thread has blocked. -/
def timelyRun : List Label :=
  [.timer, .timer, .timer, .timer, .actorExits, .advance 0, .advance 0, .advance 0]

/-- With the notification still to be issued, the timer thread is blocked and not stranded. -/
theorem never_stranded_timelyRun :
    run step (start 1 0) timelyRun = some (reached step (start 1 0) timelyRun) ∧
      AllSteps step Timely (start 1 0) timelyRun ∧
      (reached step (start 1 0) timelyRun).place = .blocked ∧
      (reached step (start 1 0) timelyRun).shutdown = true ∧
      ¬ (reached step (start 1 0) timelyRun).Stranded := by
  have hrun := run_eq_reached (show (run step (start 1 0) timelyRun).isSome = true by decide)
  have hok : AllSteps step Timely (start 1 0) timelyRun := by decide
  exact ⟨hrun, hok, by decide, by decide, (never_stranded 1 0 timelyRun _ hrun hok).1⟩

/-- The notification of the last exit is lost, and every call has returned. -/
theorem stranded_strandingRun :
    run step (start 1 0) strandingRun = some (reached step (start 1 0) strandingRun) ∧
      (reached step (start 1 0) strandingRun).calls = [] ∧
      (reached step (start 1 0) strandingRun).Stranded :=
  ⟨run_eq_reached (by decide), by decide, by decide⟩

end MtScheduler

end Agner.TimerLoop
