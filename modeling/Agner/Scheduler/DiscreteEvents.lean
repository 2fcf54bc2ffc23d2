import Agner.Scheduler.Deterministic

/-!
`run_until` of the deterministic scheduler as a discrete-event simulator.

* `Change`, `change_of_step`: all that a step can do.
* `Clock`, `Tally`, `Woken`: the invariants, about the clock, about the timers and about the
  coroutines that are made ready.
* `Simulates`: what a call that has returned has done.
* `run_until_simulates`: a call in which no deadline leaves the range of the clock has done that; a
  deadline that leaves it is in the past.
-/

namespace Agner

namespace Deterministic

open Runs Durations

/-! ### Steps -/

/-- The delays of timers are not negative. -/
def Label.Nonneg : Label → Prop
  | .scheduleAfter _ delay _ => delay.Nonneg
  | _ => True

/-- The sum that `schedule_after` forms is in the range of the clock. -/
def Run.Fits (s : Run) : Label → Prop
  | .scheduleAfter factor delay _ =>
      delay.Fits factor ∧
        ∃ ticks, delay.rounded factor = some ticks ∧ s.currentTime.toInt + ticks < 2 ^ 63
  | _ => True

instance (f : Factor) : ∀ delay : Count, Decidable (delay.Fits f)
  | .signed _ | .unsigned _ => Int.decLt _ _
  | .floating count rounding =>
      match h : floatingTicks f count rounding with
      | none => isFalse fun ⟨_, hticks, _⟩ => nomatch h.symm.trans hticks
      | some ticks =>
          decidable_of_iff (ticks < 2 ^ 63) ⟨fun hlt => ⟨ticks, h, hlt⟩, fun ⟨_, hticks, hlt⟩ =>
            Option.some.inj (h.symm.trans hticks) ▸ hlt⟩

instance (s : Run) : ∀ l : Label, Decidable (s.Fits l)
  | .scheduleAfter factor delay _ =>
      match h : delay.rounded factor with
      | none => isFalse fun ⟨_, _, hticks, _⟩ => by simp [h] at hticks
      | some ticks =>
          decidable_of_iff (delay.Fits factor ∧ s.currentTime.toInt + ticks < 2 ^ 63)
            (by simp [Run.Fits, h])
  | .go | .shuffle _ | .schedule _ | .resume _ | .suspend | .finish => isTrue trivial

/-- User code may be on the call stack. -/
def Place.calls : Place → Bool
  | .callbacks _ | .handles _ => true
  | _ => false

/-- A batch has been detached or taken, and is not gone through yet. -/
def Place.inBatch : Place → Bool
  | .shuffleCallbacks _ | .callbacks _ | .shuffleHandles _ | .handles _ => true
  | .processDue | .takeReady | .returned => false

/-- The callbacks that have been detached and not called yet. -/
def Place.callbackBatch : Place → List ℕ
  | .shuffleCallbacks batch | .callbacks batch => batch
  | _ => []

/-- The handles that have been taken and not looked at yet. -/
def Place.handleBatch : Place → List ℕ
  | .shuffleHandles batch | .handles batch => batch
  | _ => []

/-- All that a step can do in which no deadline leaves the range of the clock. -/
inductive Change (s : Run) : Run → Prop where
  | noneDue (hplace : s.place = .processDue)
      (hlater : ∀ e ∈ s.timers.entries, s.currentTime < e.1) :
      Change s { s with place := .takeReady }
  | detach {e : Int64 × ℕ} (hplace : s.place = .processDue) (hmem : e ∈ s.timers.entries)
      (hdue : e.1 ≤ s.currentTime) :
      Change s { s with
        timers := (s.timers.detach e.1).2
        place := .shuffleCallbacks (s.timers.detach e.1).1 }
  | shuffleCallbacks {batch outcome : List ℕ} (hplace : s.place = .shuffleCallbacks batch)
      (hperm : outcome.Perm batch) : Change s { s with place := .callbacks outcome }
  | fire {c : ℕ} {batch : List ℕ} (hplace : s.place = .callbacks (c :: batch)) :
      Change s { s with
        place := .callbacks batch
        running := [.callback c]
        history := s.record (.fired c) }
  | fired (hplace : s.place = .callbacks []) (hrunning : s.running = []) :
      Change s { s with place := .processDue }
  | take (hplace : s.place = .takeReady) (hready : s.ready ≠ []) :
      Change s { s with ready := [], place := .shuffleHandles s.ready }
  | shuffleHandles {batch outcome : List ℕ} (hplace : s.place = .shuffleHandles batch)
      (hperm : outcome.Perm batch) : Change s { s with place := .handles outcome }
  | skip {h : ℕ} {batch : List ℕ} (hplace : s.place = .handles (h :: batch))
      (hdone : h ∈ s.finished) : Change s { s with place := .handles batch }
  | resume {h : ℕ} {batch : List ℕ} (hplace : s.place = .handles (h :: batch))
      (hdone : h ∉ s.finished) :
      Change s { s with
        place := .handles batch
        running := [.coroutine h]
        history := s.record (.resumed h) }
  | resumed (hplace : s.place = .handles []) (hrunning : s.running = []) :
      Change s { s with place := .processDue }
  | returns (hplace : s.place = .takeReady) (hready : s.ready = []) (hcaller : s.caller ≠ .loop) :
      Change s { s with place := .returned }
  | advanceLast (hplace : s.place = .takeReady) (hready : s.ready = [])
      (hcaller : s.caller = .loop) (hlater : ∀ e ∈ s.timers.entries, s.time < e.1) :
      Change s { s with currentTime := s.time, caller := .last, place := .processDue }
  | advance {e : Int64 × ℕ} (hplace : s.place = .takeReady) (hready : s.ready = [])
      (hmem : e ∈ s.timers.entries) (hfirst : ∀ x ∈ s.timers.entries, e.1 ≤ x.1)
      (hdue : e.1 ≤ s.time) : Change s { s with currentTime := e.1, place := .processDue }
  | schedule {h : ℕ} (hrunning : s.running ≠ []) :
      Change s { s with
        ready := s.ready ++ [h]
        history := s.record (.scheduled h (s.finished.contains h)) }
  | scheduleNull : Change s s
  | scheduleAfter {factor : Factor} {delay : Count} {c : ℕ} {d : Int64} (hrunning : s.running ≠ [])
      {ticks : ℤ} (hexact : delay.rounded factor = some ticks)
      (hsum : (s.currentTime + d).toInt = s.currentTime.toInt + ticks)
      (hle : s.currentTime ≤ s.currentTime + d) :
      Change s { s with
        timers := s.timers.insert (s.currentTime + d) c
        history := s.record (.added factor delay c) }
  | resumeInline {h : ℕ} (hrunning : s.running ≠ []) (hdone : h ∉ s.finished)
      (hother : .coroutine h ∉ s.running) :
      Change s { s with
        running := .coroutine h :: s.running
        history := s.record (.resumed h) }
  | suspend {top : Running} {rest : List Running} (hrunning : s.running = top :: rest) :
      Change s { s with running := rest }
  | finish {h : ℕ} {rest : List Running} (hrunning : s.running = .coroutine h :: rest) :
      Change s { s with
        finished := h :: s.finished
        running := rest
        history := s.record (.finished h) }

variable {s t : Run}

lemma change_of_returns (hplace : s.place = .takeReady) (hready : s.ready = []) :
    Change s s.returns := by
  rw [Run.returns]
  split
  next hcaller => exact .returns hplace hready (by simp [hcaller])
  next hcaller => exact .returns hplace hready (by simp [hcaller])
  next hcaller =>
    split
    next htimers => exact .advanceLast hplace hready hcaller (by simp [htimers])
    next e c es htimers =>
      have hmem : (e, c) ∈ s.timers.entries := htimers ▸ List.mem_cons_self
      have hfirst : ∀ x ∈ s.timers.entries, e ≤ x.1 := fun x hx => MultiMap.head_le htimers hx
      split_ifs with hlater
      · exact .advanceLast hplace hready hcaller fun x hx => hlater.trans_le (hfirst x hx)
      · exact .advance hplace hready hmem hfirst (not_lt.mp hlater)

lemma change_of_go (hrunning : s.running = []) (h : s.go = some t) : Change s t := by
  rw [Run.go] at h
  split at h
  case h_1 hplace =>
    cases htimers : s.timers.entries with
    | nil =>
        simp only [htimers] at h
        obtain rfl := Option.some.inj h
        exact .noneDue hplace (by simp [htimers])
    | cons e es =>
        have hmem : e ∈ s.timers.entries := htimers ▸ List.mem_cons_self
        simp only [htimers] at h
        split_ifs at h with hlater
        · obtain rfl := Option.some.inj h
          exact .noneDue hplace fun x hx => hlater.trans_le (MultiMap.head_le htimers hx)
        · obtain rfl := Option.some.inj h
          exact .detach hplace hmem (not_lt.mp hlater)
  case h_2 hplace => exact Option.some.inj h ▸ .fired hplace hrunning
  case h_3 c batch hplace => exact Option.some.inj h ▸ .fire hplace
  case h_4 hplace =>
    split_ifs at h with hready
    · exact Option.some.inj h ▸ change_of_returns hplace hready
    · exact Option.some.inj h ▸ .take hplace hready
  case h_5 hplace => exact Option.some.inj h ▸ .resumed hplace hrunning
  case h_6 handle batch hplace =>
    split_ifs at h with hdone
    · exact Option.some.inj h ▸ .skip hplace hdone
    · exact Option.some.inj h ▸ .resume hplace hdone
  all_goals cases h

lemma change_of_shuffle {outcome : List ℕ} (h : s.shuffle outcome = some t) : Change s t := by
  rw [Run.shuffle] at h
  split at h
  next batch hplace =>
    split_ifs at h with hperm
    exact Option.some.inj h ▸ .shuffleCallbacks hplace hperm
  next batch hplace =>
    split_ifs at h with hperm
    exact Option.some.inj h ▸ .shuffleHandles hplace hperm
  next => cases h

lemma change_of_user {top : Running} {rest : List Running} (hrunning : s.running = top :: rest)
    {l : Label} (hnonneg : l.Nonneg) (hfits : s.Fits l) (h : s.user top rest l = some t) :
    Change s t := by
  have hne : s.running ≠ [] := by simp [hrunning]
  cases l with
  | go => cases h
  | shuffle outcome => cases h
  | schedule handle =>
      cases handle with
      | none => exact Option.some.inj h ▸ .scheduleNull
      | some h' => exact Option.some.inj h ▸ .schedule hne
  | scheduleAfter factor delay c =>
      obtain ⟨hfits, ticks, hexact, hlt⟩ := hfits
      obtain ⟨d, hcast, hsum, hle⟩ := sum_exact hnonneg hfits hexact hlt
      simp only [Run.user, hcast, Option.map_some] at h
      exact Option.some.inj h ▸ .scheduleAfter hne hexact hsum hle
  | resume h' =>
      simp only [Run.user] at h
      split_ifs at h with hor
      rw [not_or] at hor
      exact Option.some.inj h ▸ .resumeInline hne hor.1 hor.2
  | suspend => exact Option.some.inj h ▸ .suspend hrunning
  | finish =>
      cases top with
      | callback c => cases h
      | coroutine h' => exact Option.some.inj h ▸ .finish hrunning

lemma change_of_step {l : Label} (hnonneg : l.Nonneg) (hfits : s.Fits l)
    (h : s.step l = some t) : Change s t := by
  cases hrunning : s.running with
  | cons top rest =>
      simp only [Run.step, hrunning] at h
      exact change_of_user hrunning hnonneg hfits h
  | nil =>
      simp only [Run.step, hrunning] at h
      cases l with
      | go => exact change_of_go hrunning h
      | shuffle outcome => exact change_of_shuffle h
      | schedule _ => cases h
      | scheduleAfter _ _ _ => cases h
      | resume _ => cases h
      | suspend => cases h
      | finish => cases h

/-! ### The clock -/

/-- The invariant about the clock and the timers. -/
structure Clock (time : Int64) (s : Run) : Prop where
  argument : s.time = time
  caller : s.caller ≠ .before
  le : s.currentTime ≤ time
  timers : ∀ e ∈ s.timers.entries, s.currentTime ≤ e.1
  calls : s.running ≠ [] → s.place.calls = true
  takeReady : s.place = .takeReady → ∀ e ∈ s.timers.entries, s.currentTime < e.1
  last : s.caller = .last → s.currentTime = time ∧ s.ready = [] ∧
    (∀ e ∈ s.timers.entries, s.currentTime < e.1) ∧
      (s.place = .processDue ∨ s.place = .takeReady ∨ s.place = .returned)
  returned : s.place = .returned → s.caller = .last

variable {time : Int64}

/-- While timers fire or coroutines are resumed, the time does not change. -/
lemma Clock.batch (h : Clock time s) (hlast : s.caller ≠ .last) (htime : t.time = s.time)
    (hcaller : t.caller = s.caller) (hnow : t.currentTime = s.currentTime)
    (htimers : ∀ e ∈ t.timers.entries, s.currentTime ≤ e.1)
    (hcalls : t.running ≠ [] → t.place.calls = true) (htake : t.place ≠ .takeReady)
    (hreturned : t.place ≠ .returned) : Clock time t :=
  ⟨htime.trans h.argument, hcaller ▸ h.caller, hnow ▸ h.le, hnow ▸ htimers, hcalls,
    fun hp => (htake hp).elim, fun hl => (hlast (hcaller ▸ hl)).elim,
    fun hp => (hreturned hp).elim⟩

lemma Clock.not_last (h : Clock time s) (hplace : s.place.inBatch = true) : s.caller ≠ .last := by
  intro hlast
  rcases (h.last hlast).2.2.2 with hp | hp | hp
  all_goals
    rw [hp] at hplace
    cases hplace

lemma Clock.not_running (h : Clock time s) (hplace : s.place.calls = false) : s.running = [] := by
  by_contra hne
  rw [h.calls hne] at hplace
  cases hplace

/-- User code runs while a batch is gone through. -/
lemma Clock.user (h : Clock time s) (hrunning : s.running ≠ []) (htime : t.time = s.time)
    (hcaller : t.caller = s.caller) (hnow : t.currentTime = s.currentTime)
    (hplace : t.place = s.place) (htimers : ∀ e ∈ t.timers.entries, s.currentTime ≤ e.1) :
    Clock time t := by
  have hcalls := h.calls hrunning
  have hbatch : s.place.inBatch = true := by
    cases hp : s.place with
    | callbacks batch => rfl
    | handles batch => rfl
    | _ => simp [hp, Place.calls] at hcalls
  refine h.batch (h.not_last hbatch) htime hcaller hnow htimers (fun _ => hplace ▸ hcalls)
    (fun htake => ?_) (fun hreturned => ?_)
  · rw [hplace.symm.trans htake] at hbatch
    cases hbatch
  · rw [hplace.symm.trans hreturned] at hbatch
    cases hbatch

lemma Clock.change (h : Clock time s) (hchange : Change s t) : Clock time t := by
  cases hchange with
  | noneDue hplace hlater =>
      have hrunning := h.not_running (by rw [hplace]; rfl)
      refine ⟨h.argument, h.caller, h.le, h.timers, fun hne => (hne hrunning).elim,
        fun _ => hlater, fun hl => ?_, fun hp => nomatch hp⟩
      obtain ⟨hnow, hready, hlater, -⟩ := h.last hl
      exact ⟨hnow, hready, hlater, .inr (.inl rfl)⟩
  | @detach e hplace hmem hdue =>
      have hrunning := h.not_running (by rw [hplace]; rfl)
      -- no timer is due in the last round
      have hlast : s.caller ≠ .last := fun hl =>
        absurd ((h.last hl).2.2.1 e hmem) (not_lt.mpr hdue)
      refine h.batch hlast rfl rfl rfl (fun x hx => h.timers x ?_)
        (fun hne => (hne hrunning).elim) (nomatch ·) (nomatch ·)
      rw [s.timers.detach_eq e.1]
      exact List.mem_append_right _ hx
  | shuffleCallbacks hplace hperm =>
      have hlast := h.not_last (by rw [hplace]; rfl)
      exact h.batch hlast rfl rfl rfl h.timers (fun _ => rfl) (nomatch ·) (nomatch ·)
  | fire hplace =>
      have hlast := h.not_last (by rw [hplace]; rfl)
      exact h.batch hlast rfl rfl rfl h.timers (fun _ => rfl) (nomatch ·) (nomatch ·)
  | fired hplace hrunning =>
      have hlast := h.not_last (by rw [hplace]; rfl)
      exact h.batch hlast rfl rfl rfl h.timers (fun hne => (hne hrunning).elim) (nomatch ·)
        (nomatch ·)
  | take hplace hready =>
      have hrunning := h.not_running (by rw [hplace]; rfl)
      exact h.batch (fun hl => hready (h.last hl).2.1) rfl rfl rfl h.timers
        (fun hne => (hne hrunning).elim) (nomatch ·) (nomatch ·)
  | shuffleHandles hplace hperm =>
      have hlast := h.not_last (by rw [hplace]; rfl)
      exact h.batch hlast rfl rfl rfl h.timers (fun _ => rfl) (nomatch ·) (nomatch ·)
  | skip hplace hdone =>
      have hlast := h.not_last (by rw [hplace]; rfl)
      exact h.batch hlast rfl rfl rfl h.timers (fun _ => rfl) (nomatch ·) (nomatch ·)
  | resume hplace hdone =>
      have hlast := h.not_last (by rw [hplace]; rfl)
      exact h.batch hlast rfl rfl rfl h.timers (fun _ => rfl) (nomatch ·) (nomatch ·)
  | resumed hplace hrunning =>
      have hlast := h.not_last (by rw [hplace]; rfl)
      exact h.batch hlast rfl rfl rfl h.timers (fun hne => (hne hrunning).elim) (nomatch ·)
        (nomatch ·)
  | returns hplace hready hcaller =>
      have hrunning := h.not_running (by rw [hplace]; rfl)
      -- the loop of `run_until` does not return before its last round
      have hlast : s.caller = .last := by
        cases hc : s.caller with
        | before => exact (h.caller hc).elim
        | loop => exact (hcaller hc).elim
        | last => rfl
      obtain ⟨hnow, -, hlater, -⟩ := h.last hlast
      exact
        { h with
          calls := fun hne => (hne hrunning).elim
          takeReady := fun hp => nomatch hp
          last := fun _ => ⟨hnow, hready, hlater, .inr (.inr rfl)⟩
          returned := fun _ => hlast }
  | advanceLast hplace hready hcaller hlater =>
      have hrunning := h.not_running (by rw [hplace]; rfl)
      exact
        { argument := h.argument
          caller := fun hc => nomatch hc
          le := h.argument.le
          timers := fun e he => (hlater e he).le
          calls := fun hne => (hne hrunning).elim
          takeReady := fun hp => nomatch hp
          last := fun _ => ⟨h.argument, hready, hlater, .inl rfl⟩
          returned := fun hp => nomatch hp }
  | @advance e hplace hready hmem hfirst hdue =>
      have hrunning := h.not_running (by rw [hplace]; rfl)
      have hlast : s.caller ≠ .last := fun hl => by
        obtain ⟨hnow, -, hlater, -⟩ := h.last hl
        exact absurd (hlater e hmem) (not_lt.mpr (hdue.trans (by rw [hnow, h.argument])))
      exact
        { argument := h.argument
          caller := h.caller
          le := hdue.trans h.argument.le
          timers := hfirst
          calls := fun hne => (hne hrunning).elim
          takeReady := fun hp => nomatch hp
          last := fun hl => (hlast hl).elim
          returned := fun hp => nomatch hp }
  | schedule hrunning => exact h.user hrunning rfl rfl rfl rfl h.timers
  | scheduleNull => exact h
  | scheduleAfter hrunning hexact hsum hle =>
      refine h.user hrunning rfl rfl rfl rfl fun x hx => ?_
      rcases MultiMap.mem_insert.mp hx with rfl | hx
      · exact hle
      · exact h.timers x hx
  | resumeInline hrunning hdone hother => exact h.user hrunning rfl rfl rfl rfl h.timers
  | suspend hrunning => exact h.user (by simp [hrunning]) rfl rfl rfl rfl h.timers
  | finish hrunning => exact h.user (by simp [hrunning]) rfl rfl rfl rfl h.timers

/-! ### The timers -/

/-- If a timer fires: when, and its callback. -/
def Occurrence.fire : Occurrence → Option (ℤ × ℕ)
  | ⟨.fired c, now⟩ => some (now.toInt, c)
  | _ => none

/-- If a timer is added: the deadline that is asked for, and its callback. -/
def Occurrence.timer : Occurrence → Option (ℤ × ℕ)
  | ⟨.added factor delay c, now⟩ => (delay.rounded factor).map fun ticks => (now.toInt + ticks, c)
  | _ => none

/-- The timers that have fired. -/
def fires (history : List Occurrence) : List (ℤ × ℕ) := history.filterMap Occurrence.fire

/-- The timers that have been added. -/
def added (history : List Occurrence) : List (ℤ × ℕ) := history.filterMap Occurrence.timer

/-- The timers of a scheduler, by deadline and callback. -/
def entries (timers : MultiMap Int64 ℕ) : List (ℤ × ℕ) :=
  timers.entries.map fun e => (e.1.toInt, e.2)

/-- The callbacks that have been detached, with their deadline. -/
def detached (s : Run) : List (ℤ × ℕ) :=
  s.place.callbackBatch.map fun c => (s.currentTime.toInt, c)

/-- The invariant about the timers: each is in one place. -/
structure Tally (initial : List (ℤ × ℕ)) (s : Run) : Prop where
  perm : (fires s.history ++ detached s ++ entries s.timers).Perm (initial ++ added s.history)
  past : ∀ e ∈ fires s.history, e.1 ≤ s.currentTime.toInt

variable {initial : List (ℤ × ℕ)}

lemma Tally.congr (h : Tally initial s) (hfires : fires t.history = fires s.history)
    (hadded : added t.history = added s.history) (hdetached : (detached t).Perm (detached s))
    (htimers : t.timers = s.timers) (hle : s.currentTime ≤ t.currentTime) : Tally initial t := by
  refine ⟨?_, fun e he => ?_⟩
  · rw [hfires, hadded, htimers]
    exact ((hdetached.append_left _).append_right _).trans h.perm
  · rw [hfires] at he
    exact (h.past e he).trans (Int64.le_iff_toInt_le.mp hle)

/-- Something else happens. -/
lemma Tally.record (h : Tally initial s) {e : Event} (hhistory : t.history = s.record e)
    (hfire : Occurrence.fire ⟨e, s.currentTime⟩ = none)
    (htimer : Occurrence.timer ⟨e, s.currentTime⟩ = none) (hdetached : detached t = detached s)
    (htimers : t.timers = s.timers) (hnow : t.currentTime = s.currentTime) : Tally initial t := by
  refine h.congr ?_ ?_ (.of_eq hdetached) htimers hnow.ge
  · rw [hhistory, fires, Run.record, List.filterMap_append]
    simp [hfire, fires]
  · rw [hhistory, added, Run.record, List.filterMap_append]
    simp [htimer, added]

/-- The clock is set, or the scheduler goes on, with no callback detached. -/
lemma Tally.goesOn (h : Tally initial s) (hs : s.place.callbackBatch = [])
    (ht : t.place.callbackBatch = []) (hhistory : t.history = s.history)
    (htimers : t.timers = s.timers) (hle : s.currentTime ≤ t.currentTime) : Tally initial t := by
  refine h.congr (by rw [hhistory]) (by rw [hhistory]) ?_ htimers hle
  rw [detached, detached, hs, ht, List.map_nil, List.map_nil]

/-- The first timers, which are due now, are detached. -/
lemma Tally.detach (h : Tally initial s) (hclock : Clock time s) {e : Int64 × ℕ}
    (hplace : s.place = .processDue) (hmem : e ∈ s.timers.entries) (hdue : e.1 ≤ s.currentTime) :
    Tally initial { s with
      timers := (s.timers.detach e.1).2
      place := .shuffleCallbacks (s.timers.detach e.1).1 } := by
  have hnow : e.1 = s.currentTime := hdue.antisymm (hclock.timers e hmem)
  have hperm := h.perm
  rw [detached, hplace, entries, s.timers.detach_eq e.1, List.map_append, List.map_map] at hperm
  refine ⟨?_, h.past⟩
  simpa [detached, entries, Place.callbackBatch, hnow, Function.comp_def,
    List.append_assoc] using hperm

/-- A detached callback is called. -/
lemma Tally.fire (h : Tally initial s) {c : ℕ} {batch : List ℕ}
    (hplace : s.place = .callbacks (c :: batch)) :
    Tally initial { s with
      place := .callbacks batch
      running := [.callback c]
      history := s.record (.fired c) } := by
  have hfires : fires (s.record (.fired c)) =
      fires s.history ++ [(s.currentTime.toInt, c)] := by
    rw [fires, Run.record, List.filterMap_append]
    rfl
  have hadded : added (s.record (.fired c)) = added s.history := by
    rw [added, Run.record, List.filterMap_append]
    simp [Occurrence.timer, added]
  have hperm := h.perm
  rw [detached, hplace] at hperm
  refine ⟨?_, fun e he => ?_⟩
  · simp only [hfires, hadded]
    simpa [detached, Place.callbackBatch] using hperm
  · simp only [hfires, List.mem_append, List.mem_singleton] at he
    rcases he with he | rfl
    · exact h.past e he
    · exact le_rfl

/-- A timer is added. -/
lemma Tally.scheduleAfter (h : Tally initial s) {factor : Factor} {delay : Count} {c : ℕ}
    {d : Int64} {ticks : ℤ} (hexact : delay.rounded factor = some ticks)
    (hsum : (s.currentTime + d).toInt = s.currentTime.toInt + ticks) :
    Tally initial { s with
      timers := s.timers.insert (s.currentTime + d) c
      history := s.record (.added factor delay c) } := by
  have hfires : fires (s.record (.added factor delay c)) = fires s.history := by
    rw [fires, Run.record, List.filterMap_append]
    simp [Occurrence.fire, fires]
  have hadded : added (s.record (.added factor delay c)) =
      added s.history ++ [(s.currentTime.toInt + ticks, c)] := by
    rw [added, Run.record, List.filterMap_append]
    simp [Occurrence.timer, hexact, added]
  have hentries : (entries (s.timers.insert (s.currentTime + d) c)).Perm
      ((s.currentTime.toInt + ticks, c) :: entries s.timers) := by
    rw [← hsum]
    exact (s.timers.perm_insert _ c).map _
  refine ⟨?_, fun e he => ?_⟩
  · simp only [hfires, hadded]
    refine (hentries.append_left _).trans ?_
    refine List.perm_middle.trans ?_
    rw [← List.append_assoc]
    exact (h.perm.cons _).trans (List.perm_append_singleton _ _).symm
  · simp only [hfires] at he
    exact h.past e he

lemma Tally.change (h : Tally initial s) (hclock : Clock time s) (hchange : Change s t) :
    Tally initial t := by
  cases hchange with
  | noneDue hplace hlater => exact h.goesOn (by rw [hplace]; rfl) rfl rfl rfl le_rfl
  | detach hplace hmem hdue => exact h.detach hclock hplace hmem hdue
  | shuffleCallbacks hplace hperm =>
      refine h.congr rfl rfl ?_ rfl le_rfl
      rw [detached, detached, hplace]
      exact hperm.map _
  | fire hplace => exact h.fire hplace
  | fired hplace hrunning => exact h.goesOn (by rw [hplace]; rfl) rfl rfl rfl le_rfl
  | take hplace hready => exact h.goesOn (by rw [hplace]; rfl) rfl rfl rfl le_rfl
  | shuffleHandles hplace hperm => exact h.goesOn (by rw [hplace]; rfl) rfl rfl rfl le_rfl
  | skip hplace hdone => exact h.goesOn (by rw [hplace]; rfl) rfl rfl rfl le_rfl
  | resume hplace hdone =>
      exact h.record rfl rfl rfl (by rw [detached, detached, hplace]; rfl) rfl rfl
  | resumed hplace hrunning => exact h.goesOn (by rw [hplace]; rfl) rfl rfl rfl le_rfl
  | returns hplace hready hcaller => exact h.goesOn (by rw [hplace]; rfl) rfl rfl rfl le_rfl
  | advanceLast hplace hready hcaller hlater =>
      exact h.goesOn (by rw [hplace]; rfl) rfl rfl rfl (hclock.le.trans hclock.argument.ge)
  | advance hplace hready hmem hfirst hdue =>
      exact h.goesOn (by rw [hplace]; rfl) rfl rfl rfl (hclock.timers _ hmem)
  | schedule hrunning => exact h.record rfl rfl rfl rfl rfl rfl
  | scheduleNull => exact h
  | scheduleAfter hrunning hexact hsum hle => exact h.scheduleAfter hexact hsum
  | resumeInline hrunning hdone hother => exact h.record rfl rfl rfl rfl rfl rfl
  | suspend hrunning => exact h.congr rfl rfl (.refl _) rfl le_rfl
  | finish hrunning => exact h.record rfl rfl rfl rfl rfl rfl

/-! ### The coroutines -/

/-- A coroutine that has been made ready at the time `now`, between `pre` and `post`, has been
resumed at that time since, or was running and has come to its end instead. -/
def Met (h : ℕ) (now : Int64) (pre post : List Occurrence) : Prop :=
  ⟨.resumed h, now⟩ ∈ post ∨ ⟨.resumed h, now⟩ ∈ pre ∧ ⟨.finished h, now⟩ ∈ post

/-- For whatever has been made ready and is not yet met, `P` holds. -/
def Owes (history : List Occurrence) (P : ℕ → Int64 → Prop) : Prop :=
  ∀ pre post h now, history = pre ++ ⟨.scheduled h false, now⟩ :: post →
    Met h now pre post ∨ P h now

variable {history : List Occurrence} {P Q : ℕ → Int64 → Prop}

lemma Owes.mono (h : Owes history P) (hpq : ∀ c now, P c now → Q c now) : Owes history Q :=
  fun pre post c now hsplit => (h pre post c now hsplit).imp_right (hpq c now)

lemma Met.concat {h : ℕ} {now : Int64} {pre post : List Occurrence} (hmet : Met h now pre post)
    (o : Occurrence) : Met h now pre (post ++ [o]) :=
  hmet.imp (List.mem_append_left _) fun hm => ⟨hm.1, List.mem_append_left _ hm.2⟩

/-- What becomes of the promises with one more event. -/
lemma Owes.concat (h : Owes history P) {o : Occurrence}
    (hold : ∀ pre post c now, history = pre ++ ⟨.scheduled c false, now⟩ :: post → P c now →
      Met c now pre (post ++ [o]) ∨ Q c now)
    (hnew : ∀ c, o.event = .scheduled c false → Q c o.now) : Owes (history ++ [o]) Q := by
  intro pre post c now hsplit
  rcases List.eq_nil_or_concat post with rfl | ⟨post', o', rfl⟩
  · obtain ⟨-, ho⟩ := List.append_inj' hsplit rfl
    obtain rfl := (List.cons.inj ho).1
    exact .inr (hnew c rfl)
  · rw [List.concat_eq_append, ← List.cons_append, ← List.append_assoc] at hsplit
    obtain ⟨hhistory, ho⟩ := List.append_inj' hsplit rfl
    obtain rfl := (List.cons.inj ho).1
    rw [List.concat_eq_append]
    rcases h pre post' c now hhistory with hmet | hp
    · exact .inl (hmet.concat o)
    · exact hold pre post' c now hhistory hp

/-- With an event that resumes nothing, ends nothing and makes nothing ready. -/
lemma Owes.record (h : Owes history P) {o : Occurrence} (ho : ∀ c, o.event ≠ .scheduled c false) :
    Owes (history ++ [o]) P :=
  h.concat (fun _ _ _ _ _ hp => .inr hp) fun c hc => (ho c hc).elim

/-- The coroutine is in the ready queue or in a batch. -/
def Waits (s : Run) (h : ℕ) (now : Int64) : Prop :=
  now = s.currentTime ∧ (h ∈ s.ready ∨ h ∈ s.place.handleBatch) ∧ h ∉ s.finished

/-- The invariant about the coroutines. -/
structure Woken (s : Run) : Prop where
  owes : Owes s.history (Waits s)
  active : ∀ h, .coroutine h ∈ s.running →
    ⟨.resumed h, s.currentTime⟩ ∈ s.history ∧ h ∉ s.finished
  nodup : s.running.Nodup

/-- The scheduler goes on with the handles that it has. -/
lemma Woken.goesOn (h : Woken s) (hhistory : t.history = s.history)
    (hfinished : t.finished = s.finished) (hnow : t.currentTime = s.currentTime)
    (hrunning : t.running.Sublist s.running)
    (hwaits : ∀ c, c ∈ s.ready ∨ c ∈ s.place.handleBatch → c ∉ s.finished →
      c ∈ t.ready ∨ c ∈ t.place.handleBatch) : Woken t := by
  refine ⟨?_, fun c hc => ?_, h.nodup.sublist hrunning⟩
  · rw [hhistory]
    refine h.owes.mono fun c now hw => ?_
    exact ⟨hw.1.trans hnow.symm, hwaits c hw.2.1 hw.2.2, hfinished ▸ hw.2.2⟩
  · rw [hhistory, hfinished, hnow]
    exact h.active c (hrunning.subset hc)

/-- The scheduler goes on with no handle taken. -/
lemma Woken.moves (h : Woken s) (hbatch : s.place.handleBatch = [])
    (hhistory : t.history = s.history) (hfinished : t.finished = s.finished)
    (hnow : t.currentTime = s.currentTime) (hrunning : t.running = s.running)
    (hready : t.ready = s.ready) : Woken t := by
  refine h.goesOn hhistory hfinished hnow (by rw [hrunning]) fun c hc _ => .inl ?_
  rw [hbatch] at hc
  rw [hready]
  exact hc.resolve_right (List.not_mem_nil)

/-- The clock is set while nothing is ready. -/
lemma Woken.advance (h : Woken s) (hhistory : t.history = s.history) (hrunning : t.running = [])
    (hready : s.ready = []) (hbatch : s.place.handleBatch = []) : Woken t := by
  refine ⟨?_, fun c hc => ?_, by rw [hrunning]; exact List.nodup_nil⟩
  · rw [hhistory]
    refine h.owes.mono fun c now hw => ?_
    simp [hready, hbatch, Waits] at hw
  · rw [hrunning] at hc
    cases hc

/-- Something is recorded that says nothing about coroutines. -/
lemma Woken.record (h : Woken s) {o : Occurrence} (ho : ∀ c, o.event ≠ .scheduled c false)
    (hhistory : t.history = s.history ++ [o]) (hfinished : t.finished = s.finished)
    (hnow : t.currentTime = s.currentTime) (hready : t.ready = s.ready)
    (hbatch : t.place.handleBatch = s.place.handleBatch)
    (hrunning : ∀ c, .coroutine c ∈ t.running → .coroutine c ∈ s.running)
    (hnodup : t.running.Nodup) : Woken t := by
  refine ⟨?_, fun c hc => ?_, hnodup⟩
  · rw [hhistory]
    refine (h.owes.record ho).mono fun c now hw => ?_
    rwa [Waits, hnow, hready, hbatch, hfinished]
  · obtain ⟨hresumed, hdone⟩ := h.active c (hrunning c hc)
    rw [hhistory, hnow, hfinished]
    exact ⟨List.mem_append_left _ hresumed, hdone⟩

/-- A handle is scheduled. -/
lemma Woken.schedule (h : Woken s) (c : ℕ) :
    Woken { s with
      ready := s.ready ++ [c]
      history := s.record (.scheduled c (s.finished.contains c)) } := by
  refine ⟨h.owes.concat (fun _ _ c' now _ hw => .inr ?_) fun c' hc' => ?_, fun c' hc' => ?_,
    h.nodup⟩
  · exact ⟨hw.1, hw.2.1.imp_left (List.mem_append_left _), hw.2.2⟩
  · obtain ⟨rfl, hdone⟩ := Event.scheduled.inj hc'
    refine ⟨rfl, .inl (List.mem_append_right _ (List.mem_singleton_self c)), ?_⟩
    simpa using hdone
  · exact ⟨List.mem_append_left _ (h.active c' hc').1, (h.active c' hc').2⟩

/-- A coroutine is resumed. -/
lemma Woken.resume (h : Woken s) {c : ℕ} (hhistory : t.history = s.record (.resumed c))
    (hfinished : t.finished = s.finished) (hnow : t.currentTime = s.currentTime)
    (hwaits : ∀ c', c' ≠ c → c' ∈ s.ready ∨ c' ∈ s.place.handleBatch →
      c' ∈ t.ready ∨ c' ∈ t.place.handleBatch)
    (hrunning : ∀ c', .coroutine c' ∈ t.running → c' = c ∨ .coroutine c' ∈ s.running)
    (hdone : c ∉ s.finished) (hnodup : t.running.Nodup) : Woken t := by
  refine ⟨?_, fun c' hc' => ?_, hnodup⟩
  · rw [hhistory]
    refine h.owes.concat (fun pre post c' now _ hw => ?_) fun c' hc' => nomatch hc'
    by_cases hc : c' = c
    · obtain rfl := hc
      refine .inl (.inl (List.mem_append_right _ ?_))
      rw [hw.1]
      exact List.mem_singleton_self _
    · exact .inr ⟨hw.1.trans hnow.symm, hwaits c' hc hw.2.1, hfinished ▸ hw.2.2⟩
  · rw [hhistory, hnow, hfinished, Run.record]
    rcases hrunning c' hc' with rfl | hc'
    · exact ⟨List.mem_append_right _ (List.mem_singleton_self _), hdone⟩
    · exact ⟨List.mem_append_left _ (h.active c' hc').1, (h.active c' hc').2⟩

/-- A coroutine runs to its end. -/
lemma Woken.finish (h : Woken s) {c : ℕ} {rest : List Running}
    (hrunning : s.running = .coroutine c :: rest) :
    Woken { s with
      finished := c :: s.finished
      running := rest
      history := s.record (.finished c) } := by
  have hnodup := h.nodup
  rw [hrunning, List.nodup_cons] at hnodup
  refine ⟨h.owes.concat (fun pre post c' now hsplit hw => ?_) (fun c' hc' => nomatch hc'),
    fun c' hc' => ?_, hnodup.2⟩
  · by_cases hc : c' = c
    · -- it has been resumed at this time, before or since it was made ready
      obtain rfl := hc
      obtain ⟨rfl, -⟩ := hw
      have hresumed := (h.active c' (hrunning ▸ List.mem_cons_self)).1
      rw [hsplit, List.mem_append, List.mem_cons] at hresumed
      rcases hresumed with hpre | hne | hpost
      · exact .inl (.inr ⟨hpre, List.mem_append_right _ (List.mem_singleton_self _)⟩)
      · cases hne
      · exact .inl (.inl (List.mem_append_left _ hpost))
    · exact .inr ⟨hw.1, hw.2.1, fun hd => (List.mem_cons.mp hd).elim hc hw.2.2⟩
  · have hactive := h.active c' (hrunning ▸ List.mem_cons_of_mem _ hc')
    refine ⟨List.mem_append_left _ hactive.1, fun hd => ?_⟩
    rcases List.mem_cons.mp hd with rfl | hd
    · exact hnodup.1 hc'
    · exact hactive.2 hd

lemma Woken.change (h : Woken s) (hclock : Clock time s) (hchange : Change s t) : Woken t := by
  cases hchange with
  | noneDue hplace hlater => exact h.moves (by rw [hplace]; rfl) rfl rfl rfl rfl rfl
  | detach hplace hmem hdue => exact h.moves (by rw [hplace]; rfl) rfl rfl rfl rfl rfl
  | shuffleCallbacks hplace hperm => exact h.moves (by rw [hplace]; rfl) rfl rfl rfl rfl rfl
  | fire hplace =>
      exact h.record (by simp) rfl rfl rfl rfl (by rw [hplace]; rfl)
        (fun c hc => by simp at hc) (List.nodup_singleton _)
  | fired hplace hrunning => exact h.moves (by rw [hplace]; rfl) rfl rfl rfl rfl rfl
  | take hplace hready =>
      refine h.goesOn rfl rfl rfl (.refl _) fun c hc _ => .inr (hc.resolve_right fun hb => ?_)
      rw [hplace] at hb
      cases hb
  | shuffleHandles hplace hperm =>
      refine h.goesOn rfl rfl rfl (.refl _) fun c hc _ => hc.imp_right fun hb => ?_
      rw [hplace] at hb
      exact hperm.mem_iff.mpr hb
  | skip hplace hdone =>
      refine h.goesOn rfl rfl rfl (.refl _) fun c hc hnot => hc.imp_right fun hb => ?_
      rw [hplace] at hb
      exact (List.mem_cons.mp hb).resolve_left fun heq => hnot (heq ▸ hdone)
  | resume hplace hdone =>
      refine h.resume rfl rfl rfl (fun c hne hc => hc.imp_right fun hb => ?_)
        (fun c hc => .inl (by simpa using hc)) hdone (List.nodup_singleton _)
      rw [hplace] at hb
      exact (List.mem_cons.mp hb).resolve_left hne
  | resumed hplace hrunning => exact h.moves (by rw [hplace]; rfl) rfl rfl rfl rfl rfl
  | returns hplace hready hcaller => exact h.moves (by rw [hplace]; rfl) rfl rfl rfl rfl rfl
  | advanceLast hplace hready hcaller hlater =>
      exact h.advance rfl (hclock.not_running (by rw [hplace]; rfl)) hready (by rw [hplace]; rfl)
  | advance hplace hready hmem hfirst hdue =>
      exact h.advance rfl (hclock.not_running (by rw [hplace]; rfl)) hready (by rw [hplace]; rfl)
  | schedule hrunning => exact h.schedule _
  | scheduleNull => exact h
  | scheduleAfter hrunning hexact hsum hle =>
      exact h.record (by simp) rfl rfl rfl rfl rfl (fun _ hc => hc) h.nodup
  | resumeInline hrunning hdone hother =>
      exact h.resume rfl rfl rfl (fun _ _ hc => hc)
        (fun c hc => (List.mem_cons.mp hc).imp_left fun heq => Running.coroutine.inj heq) hdone
        (List.nodup_cons.mpr ⟨hother, h.nodup⟩)
  | suspend hrunning =>
      exact h.goesOn rfl rfl rfl (hrunning ▸ List.sublist_cons_self _ _) fun c hc _ => hc
  | finish hrunning => exact h.finish hrunning

/-! ### A call that returns -/

/-- What a call of `run_until` with the argument `time` has done. -/
structure Simulates (initial : DeterministicScheduler) (time : Int64) (s : Run) : Prop where
  /-- What has fired, and when, are the deadlines and callbacks of the timers that were there or
  have been added, as far as they are due at `time`. -/
  fires : (fires s.history).Perm
    ((entries initial.timers ++ added s.history).filter fun e => e.1 ≤ time.toInt)
  /-- A coroutine that is made ready is resumed at the same time afterwards, unless it has been
  resumed at that time before, is running, and comes to its end. -/
  woken : ∀ pre post h now, s.history = pre ++ ⟨.scheduled h false, now⟩ :: post →
    Met h now pre post
  ready : s.ready = []
  now : s.currentTime = time

lemma Tally.filter (h : Tally initial s) (hdetached : detached s = [])
    (hlater : ∀ e ∈ s.timers.entries, s.currentTime < e.1) :
    (fires s.history).Perm
      ((initial ++ added s.history).filter fun e => e.1 ≤ s.currentTime.toInt) := by
  have hfired : (fires s.history).filter (fun e => e.1 ≤ s.currentTime.toInt) = fires s.history :=
    List.filter_eq_self.mpr fun e he => by simpa using h.past e he
  have hleft : (entries s.timers).filter (fun e => e.1 ≤ s.currentTime.toInt) = [] := by
    rw [List.filter_eq_nil_iff]
    intro e he
    obtain ⟨x, hx, rfl⟩ := List.mem_map.mp he
    simpa using Int64.lt_iff_toInt_lt.mp (hlater x hx)
  have hperm := h.perm.filter fun e => decide (e.1 ≤ s.currentTime.toInt)
  rwa [hdetached, List.append_nil, List.filter_append, hfired, hleft, List.append_nil] at hperm

section Start

variable {initially : DeterministicScheduler}

lemma start_of_le (htime : initially.currentTime ≤ time) :
    Run.start initially time =
      { initially with
        time := time
        caller := .loop
        history := initially.ready.map fun h =>
          ⟨.scheduled h (initially.finished.contains h), initially.currentTime⟩ } := by
  rw [Run.start, if_neg (not_lt.mpr htime)]

lemma clock_start (htime : initially.currentTime ≤ time)
    (htimers : ∀ e ∈ initially.timers.entries, initially.currentTime ≤ e.1) :
    Clock time (Run.start initially time) := by
  rw [start_of_le htime]
  exact
    { argument := rfl
      caller := fun hc => nomatch hc
      le := htime
      timers := htimers
      calls := fun hne => (hne rfl).elim
      takeReady := fun hp => nomatch hp
      last := fun hc => nomatch hc
      returned := fun hp => nomatch hp }

lemma tally_start (htime : initially.currentTime ≤ time) :
    Tally (entries initially.timers) (Run.start initially time) := by
  rw [start_of_le htime]
  have hfires : fires (initially.ready.map fun h =>
      ⟨.scheduled h (initially.finished.contains h), initially.currentTime⟩) = [] := by
    simp [fires, List.filterMap_map, Function.comp_def, Occurrence.fire]
  have hadded : added (initially.ready.map fun h =>
      ⟨.scheduled h (initially.finished.contains h), initially.currentTime⟩) = [] := by
    simp [added, List.filterMap_map, Function.comp_def, Occurrence.timer]
  refine ⟨?_, fun e he => ?_⟩
  · simp only [hfires, hadded, List.append_nil]
    exact .refl _
  · simp only [hfires] at he
    cases he

lemma woken_start (htime : initially.currentTime ≤ time) : Woken (Run.start initially time) := by
  rw [start_of_le htime]
  refine ⟨fun pre post h now hsplit => .inr ?_, (fun h hh => nomatch hh), List.nodup_nil⟩
  have hmem : (⟨.scheduled h false, now⟩ : Occurrence) ∈ initially.ready.map fun h =>
      ⟨.scheduled h (initially.finished.contains h), initially.currentTime⟩ := by
    change initially.ready.map _ = _ at hsplit
    rw [hsplit]
    exact List.mem_append_right _ List.mem_cons_self
  obtain ⟨c, hc, heq⟩ := List.mem_map.mp hmem
  obtain ⟨hevent, rfl⟩ := Occurrence.mk.inj heq
  obtain ⟨rfl, hdone⟩ := Event.scheduled.inj hevent
  exact ⟨rfl, .inl hc, by simpa using hdone⟩

/-- A call of `run_until` that returns, in the course of which no deadline leaves the range of the
clock, has simulated the timers and coroutines in their order in time. -/
theorem run_until_simulates {labels : List Label}
    (htimers : ∀ e ∈ initially.timers.entries, initially.currentTime ≤ e.1)
    (htime : initially.currentTime ≤ time) (hnonneg : ∀ l ∈ labels, l.Nonneg)
    (hfits : AllSteps Run.step Run.Fits (Run.start initially time) labels)
    (hrun : run Run.step (Run.start initially time) labels = some s)
    (hreturned : s.place = .returned) : Simulates initially time s := by
  have hok := (allSteps_of_forall fun l hl _ => hnonneg l hl).and hfits
  obtain ⟨hclock, htally, hwoken⟩ := invariant
    (P := fun s => Clock time s ∧ Tally (entries initially.timers) s ∧ Woken s)
    (fun u l t hu hok hstep => by
      have hchange := change_of_step hok.1 hok.2 hstep
      exact ⟨hu.1.change hchange, hu.2.1.change hu.1 hchange, hu.2.2.change hu.1 hchange⟩)
    ⟨clock_start htime htimers, tally_start htime, woken_start htime⟩ hok hrun
  obtain ⟨hnow, hready, hlater, -⟩ := hclock.last (hclock.returned hreturned)
  have hdetached : detached s = [] := by
    rw [detached, hreturned]
    rfl
  refine ⟨hnow ▸ htally.filter hdetached hlater, fun pre post h now hsplit => ?_, hready, hnow⟩
  refine (hwoken.owes pre post h now hsplit).resolve_right fun hw => ?_
  simp [Waits, hready, hreturned, Place.handleBatch] at hw

end Start

/-- Two coroutines are ready, and a timer is due at 3. -/
def twoReady : DeterministicScheduler :=
  { ready := [0, 1], timers := (∅ : MultiMap Int64 ℕ).insert 3 9, currentTime := 0 }

/-- One of them adds a timer and schedules the other, which has ended by then; the new timer
resumes the first one again, and the last timer adds another that is due at once. -/
def mixedRun : List Label :=
  [.go, .go, .shuffle [1, 0], .go, .scheduleAfter nanoseconds (.signed 2) 8, .schedule (some 0),
    .suspend, .go, .finish, .go, .go, .go, .shuffle [0], .go, .go, .go, .go,
    .go, .shuffle [8], .go, .schedule (some 1), .suspend, .go, .go, .go, .shuffle [1], .go,
    .suspend, .go, .go, .go, .go, .shuffle [9], .go, .scheduleAfter nanoseconds (.signed 0) 7,
    .suspend, .go, .go, .shuffle [7], .go, .suspend, .go, .go, .go, .go, .go]

/-- Two coroutines are ready and one timer is pending. -/
theorem run_until_simulates_mixed :
    ∃ s, run Run.step (Run.start twoReady 5) mixedRun = some s ∧ Simulates twoReady 5 s := by
  have hrun := run_eq_reached
    (show (run Run.step (Run.start twoReady 5) mixedRun).isSome = true by decide +kernel)
  have htimers : ∀ e ∈ twoReady.timers.entries, twoReady.currentTime ≤ e.1 :=
    List.forall_mem_singleton.mpr (by decide)
  have hnonneg : ∀ l ∈ mixedRun, l.Nonneg := by
    simp [mixedRun, Label.Nonneg, Count.Nonneg]
  exact ⟨_, hrun, run_until_simulates htimers (by decide) hnonneg (by decide +kernel) hrun
    (by decide +kernel)⟩

/-- A coroutine is ready at 1. -/
def oneReady : DeterministicScheduler := { ready := [0], timers := ∅, currentTime := 1 }

/-- It adds a timer with the longest delay there is. -/
def foreverRun : List Label :=
  [.go, .go, .shuffle [0], .go, .scheduleAfter nanoseconds (.signed Int64.maxValue) 7, .suspend,
    .go, .go, .shuffle [7], .go, .suspend, .go, .go, .go, .go, .go]

/-- A timer that is to fire after the end of time fires at once. -/
theorem forever_is_over :
    ∃ s, (∀ l ∈ foreverRun, l.Nonneg) ∧
      run Run.step (Run.start oneReady 5) foreverRun = some s ∧ s.place = .returned ∧
      fires s.history = [(1, 7)] ∧ added s.history = [(2 ^ 63, 7)] ∧ ¬ Simulates oneReady 5 s := by
  have hrun := run_eq_reached
    (show (run Run.step (Run.start oneReady 5) foreverRun).isSome = true by decide +kernel)
  have hnonneg : ∀ l ∈ foreverRun, l.Nonneg := by
    simp [foreverRun, Label.Nonneg, Count.Nonneg]
  exact ⟨_, hnonneg, hrun, by decide +kernel, by decide +kernel, by decide +kernel,
    fun h => absurd h.fires.length_eq (by decide +kernel)⟩

end Deterministic

end Agner
