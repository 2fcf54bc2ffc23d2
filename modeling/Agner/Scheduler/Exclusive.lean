import Agner.Scheduler.Workers

/-!
Under `MtScheduler` a coroutine is resumed by one worker at a time.

* `live`: the handles that are in a queue, or whose coroutines a worker has to itself. Suspension
  ends that, even before `resume` has returned to the worker.
* `Disciplined`: the condition on steps. `schedule` is called with a handle that is not live: that
  of a new coroutine, or of one that is suspended and has not been scheduled since.
* `coroutine_exclusive`: in runs of such steps, no two workers have the same coroutine, and none
  has one whose handle is in a queue.
-/

namespace Agner

open Runs

namespace Workers

namespace MtScheduler

variable {s t : MtScheduler}

/-- The handles whose coroutines workers have to themselves. -/
def held (s : MtScheduler) : Multiset ℕ := ∑ j ∈ Finset.range s.threadCount, (s.places j).held

/-- The handles in the injection queue and the local queues, or on their way into or out of a local
queue. -/
def queued (s : MtScheduler) : Multiset ℕ :=
  s.injectQueue + s.total ChaseLevDeque.outstanding

/-- The handles that are queued, or whose coroutine a worker has to itself. -/
def live (s : MtScheduler) : Multiset ℕ := s.queued + s.held

/-- `schedule` is not called with a live handle. -/
def Disciplined (s : MtScheduler) : Label → Prop
  | .schedule _ handle | .inject handle => handle ∉ s.live
  | _ => True

instance (s : MtScheduler) : ∀ l : Label, Decidable (s.Disciplined l)
  | .schedule _ handle | .inject handle => inferInstanceAs (Decidable (handle ∉ s.live))
  | .worker _ | .resume .. | .suspend _ | .leave _ | .requestStop _ => isTrue trivial

/-- What a step does to the handles: `x` have been scheduled, `y` obtained, and worker `i` has
gone to `p`. -/
structure Moves (s t : MtScheduler) (i : ℕ) (p : Place) (x y : Multiset ℕ) : Prop where
  count : t.threadCount = s.threadCount
  places : t.places = Function.update s.places i p
  scheduled : t.scheduled = x + s.scheduled
  obtained : t.obtained = y + s.obtained

variable {i : ℕ} {p : Place} {x y : Multiset ℕ}

lemma Moves.held (h : s.Moves t i p x y) (hi : i < s.threadCount) :
    t.held + (s.places i).held = s.held + p.held := by
  have hmem : i ∈ Finset.range s.threadCount := Finset.mem_range.mpr hi
  have hrest : ∑ j ∈ (Finset.range s.threadCount).erase i, (Function.update s.places i p j).held =
      ∑ j ∈ (Finset.range s.threadCount).erase i, (s.places j).held :=
    Finset.sum_congr rfl fun j hj =>
      congrArg Place.held (Function.update_of_ne (Finset.ne_of_mem_erase hj) _ _)
  rw [MtScheduler.held, MtScheduler.held, h.count, h.places,
    ← Finset.add_sum_erase _ (fun j => (Function.update s.places i p j).held) hmem,
    ← Finset.add_sum_erase _ (fun j => (s.places j).held) hmem, hrest, Function.update_self]
  abel

lemma Moves.queued (h : s.Moves t i p x y) (hs : s.Accounts) (ht : t.Accounts) :
    t.queued + y = s.queued + x := by
  have hsum := ht.accounted
  rw [h.scheduled, h.obtained, hs.accounted, add_assoc, add_assoc] at hsum
  have hcancel : s.obtained + (t.queued + y) = s.obtained + (s.queued + x) := by
    rw [MtScheduler.queued, MtScheduler.queued, add_comm _ x, ← add_assoc s.obtained x,
      add_comm s.obtained x, add_assoc x, hsum]
    abel
  exact add_left_cancel hcancel

/-- Handles that a worker obtains, or lets go, do not become live. -/
lemma Moves.live (h : s.Moves t i p x y) (hs : s.Accounts) (ht : t.Accounts)
    (hheld : p.held ≤ (s.places i).held + y) : t.live ≤ x + s.live := by
  have hq := h.queued hs ht
  by_cases hi : i < s.threadCount
  · have hh := h.held hi
    have hsum : t.live + (y + (s.places i).held) = x + s.live + p.held := by
      calc t.live + (y + (s.places i).held)
          = (t.queued + y) + (t.held + (s.places i).held) := by rw [MtScheduler.live]; abel
        _ = (s.queued + x) + (s.held + p.held) := by rw [hq, hh]
        _ = x + s.live + p.held := by rw [MtScheduler.live]; abel
    have hle : t.live + (y + (s.places i).held) ≤ x + s.live + (y + (s.places i).held) := by
      rw [hsum, add_comm y]
      exact add_le_add_right hheld _
    exact le_of_add_le_add_right hle
  · have hh : t.held = s.held := by
      rw [MtScheduler.held, MtScheduler.held, h.count, h.places]
      refine Finset.sum_congr rfl fun j hj => congrArg Place.held (Function.update_of_ne ?_ _ _)
      rintro rfl
      exact hi (Finset.mem_range.mp hj)
    calc t.live ≤ t.live + y := Multiset.le_add_right _ _
      _ = (t.queued + y) + t.held := by rw [MtScheduler.live]; abel
      _ = x + s.live := by rw [hq, hh, MtScheduler.live]; abel

/-- What an operation has returned. -/
lemma moves_proceed {u : MtScheduler} {next : Place} (result : Option ℕ)
    (hcount : u.threadCount = s.threadCount) (hplaces : u.places = s.places)
    (hscheduled : u.scheduled = s.scheduled) (hobtained : u.obtained = s.obtained)
    (hnext : next.held = 0) :
    ∃ p y, s.Moves (u.proceed i next result) i p 0 y ∧ p.held ≤ (s.places i).held + y := by
  cases result with
  | none =>
      refine ⟨next, 0, ⟨hcount, ?_, ?_, ?_⟩, by rw [hnext]; exact Multiset.zero_le _⟩
      · exact congrArg (Function.update · i next) hplaces
      · exact hscheduled.trans (zero_add _).symm
      · exact hobtained.trans (zero_add _).symm
  | some handle =>
      refine ⟨.obtained handle, {handle}, ⟨hcount, ?_, ?_, ?_⟩, Multiset.le_add_left _ _⟩
      · exact congrArg (Function.update · i (Place.obtained handle)) hplaces
      · exact hscheduled.trans (zero_add _).symm
      · exact (congrArg (handle ::ₘ ·) hobtained).trans (Multiset.singleton_add _ _).symm

/-- The worker goes to a place without having obtained anything. -/
lemma moves_to (p : Place) (hcount : t.threadCount = s.threadCount)
    (hplaces : t.places = Function.update s.places i p) (hscheduled : t.scheduled = s.scheduled)
    (hobtained : t.obtained = s.obtained) (hp : p.held ≤ (s.places i).held) :
    ∃ p y, s.Moves t i p 0 y ∧ p.held ≤ (s.places i).held + y :=
  ⟨p, 0, ⟨hcount, hplaces, hscheduled.trans (zero_add _).symm, hobtained.trans (zero_add _).symm⟩,
    by rwa [add_zero]⟩

lemma worker_moves (h : s.workerLoop i = some t) :
    ∃ p y, s.Moves t i p 0 y ∧ p.held ≤ (s.places i).held + y := by
  have hstay : s.places = Function.update s.places i (s.places i) :=
    (Function.update_eq_self i s.places).symm
  rw [workerLoop] at h
  split at h
  · split at h
    · exact Option.some.inj h ▸ moves_to .ended rfl rfl rfl rfl (Multiset.zero_le _)
    · obtain ⟨d, -, rfl⟩ := Option.map_eq_some_iff.mp h
      exact moves_to .popping rfl rfl rfl rfl (Multiset.zero_le _)
  · obtain ⟨d, -, rfl⟩ := Option.map_eq_some_iff.mp h
    split
    · exact moves_to _ rfl hstay rfl rfl le_rfl
    · exact moves_proceed _ rfl rfl rfl rfl rfl
  · obtain rfl := Option.some.inj h
    rw [tryInject]
    split
    · exact moves_to (.stealing 1) rfl rfl rfl rfl (Multiset.zero_le _)
    · exact moves_proceed (some _) rfl rfl rfl rfl (rfl : Place.head.held = 0)
  · rename_i k _
    obtain rfl := Option.some.inj h
    rw [trySteal]
    dsimp only
    split_ifs
    · exact moves_to .waiting rfl rfl rfl rfl (Multiset.zero_le _)
    · exact moves_to (.stealing (k + 1)) rfl rfl rfl rfl (Multiset.zero_le _)
    · split
      · exact moves_to _ rfl hstay rfl rfl le_rfl
      · exact moves_proceed _ rfl rfl rfl rfl rfl
  · exact Option.some.inj h ▸ moves_to .head rfl rfl rfl rfl (Multiset.zero_le _)
  · rename_i handle hplace
    obtain ⟨d, -, rfl⟩ := Option.map_eq_some_iff.mp h
    refine moves_to _ rfl rfl rfl rfl ?_
    rw [hplace]
    split <;> exact le_rfl
  all_goals cases h

/-- The handles that a step schedules. -/
def schedules : Label → Multiset ℕ
  | .schedule _ handle | .inject handle => {handle}
  | _ => 0

lemma moves_of_step {l : Label} (h : s.step l = some t) :
    ∃ i p y, s.Moves t i p (schedules l) y ∧ p.held ≤ (s.places i).held + y := by
  cases l with
  | worker i => exact ⟨i, worker_moves (Option.ite_none_right_eq_some.mp h).2⟩
  | resume i done =>
      cases hi : s.places i <;> simp only [MtScheduler.step, hi, reduceCtorEq] at h
      obtain rfl := Option.some.inj h
      refine ⟨i, moves_to _ rfl rfl rfl rfl ?_⟩
      cases done with
      | true => exact Multiset.zero_le _
      | false =>
          rw [hi]
          exact le_rfl
  | schedule i handle =>
      cases hi : s.places i <;> simp only [MtScheduler.step, hi, reduceCtorEq] at h
      obtain ⟨d, -, rfl⟩ := Option.map_eq_some_iff.mp (Option.ite_none_right_eq_some.mp h).2
      refine ⟨i, _, 0, ⟨rfl, rfl, (Multiset.singleton_add _ _).symm, (zero_add _).symm⟩, ?_⟩
      rw [hi]
      exact Multiset.le_add_right _ _
  | suspend i =>
      cases hi : s.places i <;> simp only [MtScheduler.step, hi, reduceCtorEq] at h
      exact Option.some.inj h ▸ ⟨i, moves_to .leaving rfl rfl rfl rfl (Multiset.zero_le _)⟩
  | leave i =>
      cases hi : s.places i <;> simp only [MtScheduler.step, hi, reduceCtorEq] at h
      exact Option.some.inj h ▸ ⟨i, moves_to .head rfl rfl rfl rfl (Multiset.zero_le _)⟩
  | inject handle =>
      obtain rfl := Option.some.inj h
      exact ⟨0, s.places 0, 0, ⟨rfl, (Function.update_eq_self 0 s.places).symm,
        (Multiset.singleton_add _ _).symm, (zero_add _).symm⟩, Multiset.le_add_right _ _⟩
  | requestStop i =>
      exact Option.some.inj h ▸
        ⟨0, moves_to _ rfl (Function.update_eq_self 0 s.places).symm rfl rfl le_rfl⟩

/-- A step that schedules no live handle keeps all live handles apart. -/
lemma nodup_step {l : Label} (hs : s.Accounts) (ht : t.Accounts) (hnodup : s.live.Nodup)
    (hl : s.Disciplined l) (h : s.step l = some t) : t.live.Nodup := by
  obtain ⟨i, p, y, hmoves, hheld⟩ := moves_of_step h
  have hle := hmoves.live hs ht hheld
  cases l with
  | schedule _ handle | inject handle =>
      exact Multiset.nodup_of_le hle (Multiset.nodup_cons.mpr ⟨hl, hnodup⟩)
  | worker | resume | suspend | leave | requestStop =>
      exact Multiset.nodup_of_le (hle.trans_eq (zero_add _)) hnodup

/-- **One worker at a time**: if `schedule` is called with handles only that are not live, then no
two workers have the same coroutine to resume or running, and no worker has one whose handle is
still in a queue, whatever is stolen from whom. -/
theorem coroutine_exclusive (threadCount cap : ℕ) (hcap : ∃ k, cap = 2 ^ k) (queue : List ℕ)
    (hqueue : queue.Nodup) (labels : List Label) (s : MtScheduler)
    (hrun : run step (start threadCount (.new cap hcap) queue) labels = some s)
    (hok : AllSteps step Disciplined (start threadCount (.new cap hcap) queue) labels) :
    s.live.Nodup ∧
      ∀ i j handle, i < s.threadCount → j < s.threadCount → handle ∈ (s.places i).held →
        handle ∉ s.queued ∧ (handle ∈ (s.places j).held → i = j) := by
  have hstart : (start threadCount (.new cap hcap) queue).live.Nodup := by
    have houtstanding : (start threadCount (.new cap hcap) queue).total
        ChaseLevDeque.outstanding = 0 :=
      total_eq_zero fun _ => (ChaseLevDeque.outstanding_of_idle rfl).trans
        (congrArg _ (window_eq_nil le_rfl))
    have hheld : (start threadCount (.new cap hcap) queue).held = 0 :=
      Finset.sum_eq_zero fun _ _ => rfl
    rw [live, queued, houtstanding, hheld, add_zero, add_zero]
    exact Multiset.coe_nodup.mpr hqueue
  obtain ⟨-, -, hnodup⟩ := invariant
    (P := fun s : MtScheduler => s.Accounts ∧ s.Placed ∧ s.live.Nodup)
    (fun u l v hu hl hstep => by
      have hv := hu.1.step hu.2.1 hstep
      exact ⟨hv, hu.2.1.step hstep, nodup_step hu.1 hv hu.2.2 hl hstep⟩)
    ⟨accounts_start hcap, placed_start hcap, hstart⟩ hok hrun
  refine ⟨hnodup, fun i j handle hi hj hheld => ?_⟩
  obtain ⟨-, hself, hdisjoint⟩ := Multiset.nodup_add.mp hnodup
  have hmem : handle ∈ s.held := Multiset.mem_sum.mpr ⟨i, Finset.mem_range.mpr hi, hheld⟩
  refine ⟨fun hqueued => Multiset.disjoint_left.mp hdisjoint hqueued hmem, fun hother => ?_⟩
  by_contra hne
  rw [held, ← Finset.add_sum_erase _ _ (Finset.mem_range.mpr hi)] at hself
  refine Multiset.disjoint_left.mp (Multiset.nodup_add.mp hself).2.2 hheld ?_
  exact Multiset.mem_sum.mpr
    ⟨j, Finset.mem_erase.mpr ⟨Ne.symm hne, Finset.mem_range.mpr hj⟩, hother⟩

/-- The worker that has stolen the handle 8 has its coroutine to itself. -/
theorem coroutine_exclusive_stolen :
    let s := reached step (start 2 (.new 2 ⟨1, rfl⟩) [7]) (stolenRun.take 26)
    s.live.Nodup ∧
      ∀ i j handle, i < s.threadCount → j < s.threadCount → handle ∈ (s.places i).held →
        handle ∉ s.queued ∧ (handle ∈ (s.places j).held → i = j) :=
  coroutine_exclusive 2 2 ⟨1, rfl⟩ [7] (by decide) (stolenRun.take 26) _
    (run_eq_reached (by decide +kernel)) (by decide +kernel)

end MtScheduler

end Workers

end Agner
