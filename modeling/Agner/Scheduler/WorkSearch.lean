import Agner.Scheduler.Workers

/-!
How a worker of `MtScheduler` looks for work.

A round of `worker_loop` goes through the worker's own deque, the injection queue and the deques of
all other workers. As long as the other threads do nothing in between, it finds a handle if there
is one anywhere, and waits only if all queues are empty.

* `Pops`, `Steals`: an operation of which no other thread's access gets in between.
* `pops_idle`, `steals_idle`: what it then returns.
* `Alone`: only one worker makes its accesses.
* `worker_finds_work`: the round.
-/

namespace Agner

open Runs

namespace ChaseLevDeque

variable {α : Type} [Inhabited α] {s t : ChaseLevDeque α}

/-- The owner goes on with `pop`, until it returns the result. -/
inductive Pops : ChaseLevDeque α → Option α → ChaseLevDeque α → Prop where
  | last {s t : ChaseLevDeque α} {result : Option α} (hstep : s.ownerStep = some t)
      (hresult : s.ownerResult = some result) : Pops s result t
  | more {s t u : ChaseLevDeque α} {result : Option α} (hstep : s.ownerStep = some t)
      (hresult : s.ownerResult = none) (hpops : Pops t result u) : Pops s result u

/-- The thief goes on with `steal`, until it returns the result. -/
inductive Steals (k : ℕ) : ChaseLevDeque α → Option α → ChaseLevDeque α → Prop where
  | last {s : ChaseLevDeque α} {result : Option α} (hresult : s.thiefResult k = some result) :
      Steals k s result (s.thiefStep k)
  | more {s t : ChaseLevDeque α} {result : Option α} (hresult : s.thiefResult k = none)
      (hsteals : Steals k (s.thiefStep k) result t) : Steals k s result t

lemma Pops.sound {result : Option α} (h : Pops s result t) (hs : s.Sound) : t.Sound := by
  induction h with
  | last hstep _ => exact hs.ownerStep hstep
  | more hstep _ _ ih => exact ih (hs.ownerStep hstep)

lemma Pops.thieves {result : Option α} (h : Pops s result t) : t.thieves = s.thieves := by
  induction h with
  | last hstep _ => exact thieves_ownerStep hstep
  | more hstep _ _ ih => rw [ih, thieves_ownerStep hstep]

/-- `pop` up to where it has lowered `bottom_`. -/
lemma Pops.of_lowered {result : Option α}
    (h : Pops { s with bottom := s.bottom - 1, owner := .lowered (s.bottom - 1) s.buffer }
      result t) : Pops { s with owner := .popping } result t :=
  .more rfl rfl (.more rfl rfl (.more rfl rfl h))

/-- Without interference `pop` returns an element unless there is none. -/
lemma pops_idle (h : s.Sound) (hidle : s.owner = .idle) :
    ∃ result t, Pops { s with owner := .popping } result t ∧ t.owner = .idle ∧
      (result = none ↔ s.contents = []) ∧ (result = none → t.contents = []) := by
  have hle : s.top ≤ s.bottom := h.top_le_bottom (by rw [hidle]; rfl)
  by_cases hlt : s.top ≤ s.bottom - 1
  · have hsome : s.contents ≠ [] := by
      rw [contents, window_cons (by omega)]
      exact List.cons_ne_nil _ _
    have hload : ({ s with
        bottom := s.bottom - 1
        owner := .lowered (s.bottom - 1) s.buffer } : ChaseLevDeque α).ownerStep = some { s with
          bottom := s.bottom - 1
          owner := .loading (s.bottom - 1) s.top s.buffer } := by
      simp [ownerStep, hlt]
    by_cases heq : s.top = s.bottom - 1
    · exact ⟨some _, _, .of_lowered (.more hload rfl (.more (if_pos heq) (if_pos heq)
        (.more (if_pos rfl) rfl (.last rfl rfl)))), rfl, by simpa using hsome, by simp⟩
    · exact ⟨some _, _, .of_lowered (.more hload rfl (.last (if_neg heq) (if_neg heq))), rfl,
        by simpa using hsome, by simp⟩
  · have hnone : s.contents = [] := window_eq_nil (by omega)
    have hempty : ({ s with
        bottom := s.bottom - 1
        owner := .lowered (s.bottom - 1) s.buffer } : ChaseLevDeque α).ownerStep = some { s with
          bottom := s.bottom - 1
          owner := .restoring (s.bottom - 1) none } := by
      simp [ownerStep, hlt]
    refine ⟨none, _, .of_lowered (.more hempty rfl (.last rfl rfl)), rfl,
      iff_of_true rfl hnone, fun _ => window_eq_nil ?_⟩
    change s.bottom - 1 + 1 ≤ s.top
    omega

section

omit [Inhabited α]

lemma Steals.sound {k : ℕ} {result : Option α} (h : Steals k s result t) (hs : s.Sound) :
    t.Sound := by
  induction h with
  | last _ => exact hs.thiefStep _
  | more _ _ ih => exact ih (hs.thiefStep _)

lemma Steals.owner {k : ℕ} {result : Option α} (h : Steals k s result t) :
    t.owner = s.owner := by
  induction h with
  | last _ => exact (thiefStep_frame _ _).1
  | more _ _ ih => rw [ih, (thiefStep_frame _ _).1]

lemma Steals.idle {k : ℕ} {result : Option α} (h : Steals k s result t) :
    t.thieves k = .idle := by
  induction h with
  | last hresult => exact (thieves_thiefStep _ _).2 _ hresult
  | more _ _ ih => exact ih

lemma Steals.next {k : ℕ} {p q : Thief α} {result : Option α}
    (h : Steals k (s.setThief k q) result t)
    (hresult : (s.setThief k p).thiefResult k = none)
    (hstep : (s.setThief k p).thiefStep k = s.setThief k q) :
    Steals k (s.setThief k p) result t := .more hresult (hstep ▸ h)

/-- Without interference `steal` returns an element unless there is none. -/
lemma steals_idle {k : ℕ} (hidle : s.thieves k = .idle) :
    ∃ result t, Steals k s result t ∧ (result = none ↔ s.contents = []) := by
  have hself : s.setThief k .idle = s := by
    rw [setThief, ← hidle, Function.update_eq_self]
  by_cases hlt : s.top < s.bottom
  · have hsome : s.contents ≠ [] := by
      rw [contents, window_cons hlt]
      exact List.cons_ne_nil _ _
    have hlast : (s.setThief k (.valueLoaded s.top (s.current.load s.top))).thiefResult k =
        some (some (s.current.load s.top)) := by
      simp [thiefResult, setThief]
    have hsteals : Steals k (s.setThief k .idle) (some (s.current.load s.top))
        ((s.setThief k (.valueLoaded s.top (s.current.load s.top))).thiefStep k) := by
      refine Steals.next (q := .topLoaded s.top) ?_ ?_ ?_
      · refine Steals.next (q := .inRange s.top) ?_ ?_ ?_
        · refine Steals.next (q := .bufferLoaded s.top s.buffer) ?_ ?_ ?_
          · refine Steals.next (.last hlast) ?_ ?_
            all_goals simp [thiefResult, thiefStep, setThief, current]
          all_goals simp [thiefResult, thiefStep, setThief]
        all_goals simp [thiefResult, thiefStep, setThief, hlt]
      all_goals simp [thiefResult, thiefStep, setThief]
    rw [hself] at hsteals
    exact ⟨_, _, hsteals, by simpa using hsome⟩
  · have hnone : s.contents = [] := window_eq_nil (by omega)
    have hlast : (s.setThief k (.topLoaded s.top)).thiefResult k = some none := by
      simp [thiefResult, setThief, hlt]
    have hstep : (s.setThief k (.topLoaded s.top)).thiefStep k = s.setThief k .idle := by
      simp [thiefStep, setThief, hlt]
    have hsteals : Steals k (s.setThief k .idle) none (s.setThief k .idle) := by
      refine Steals.next (q := .topLoaded s.top) (hstep ▸ .last hlast) ?_ ?_
      all_goals simp [thiefResult, thiefStep, setThief]
    rw [hself] at hsteals
    exact ⟨none, s, hsteals, iff_of_true rfl hnone⟩

end

end ChaseLevDeque

namespace Workers

namespace MtScheduler

variable {s t u : MtScheduler} {i k : ℕ}

/-- Worker `i` makes `k` accesses, and does not come to wait before the last one. -/
def Accesses (i k : ℕ) (s t : MtScheduler) : Prop :=
  run step s (List.replicate k (.worker i)) = some t ∧
    ∀ m < k, ∃ u, run step s (List.replicate m (.worker i)) = some u ∧ u.places i ≠ .waiting

/-- Only worker `i` makes its accesses, within one round. -/
def Alone (i : ℕ) (s t : MtScheduler) : Prop := ∃ k, Accesses i k s t

lemma Alone.refl (i : ℕ) (s : MtScheduler) : Alone i s s := ⟨0, rfl, nofun⟩

lemma Alone.head (hi : i < s.threadCount) (hplace : s.places i ≠ .waiting)
    (hstep : s.workerLoop i = some t) (h : Alone i t u) : Alone i s u := by
  obtain ⟨k, hk, hbefore⟩ := h
  have hworker : s.step (.worker i) = some t := (if_pos hi).trans hstep
  have hcons : ∀ m, run step s (List.replicate (m + 1) (.worker i)) =
      run step t (List.replicate m (.worker i)) := fun m => by
    rw [List.replicate_succ, run_cons, hworker]
    rfl
  refine ⟨k + 1, (hcons k).trans hk, fun m hm => ?_⟩
  cases m with
  | zero => exact ⟨s, rfl, hplace⟩
  | succ m =>
      rw [hcons]
      exact hbefore m (Nat.lt_of_succ_lt_succ hm)

lemma Alone.trans (h : Alone i s t) (h' : Alone i t u) : Alone i s u := by
  obtain ⟨k, hk, hbefore⟩ := h
  obtain ⟨l, hl, hafter⟩ := h'
  have happend : ∀ m, run step s (List.replicate (k + m) (.worker i)) =
      run step t (List.replicate m (.worker i)) := fun m => by
    rw [List.replicate_add, run_append, hk]
    rfl
  refine ⟨k + l, (happend l).trans hl, fun m hm => ?_⟩
  rcases lt_or_ge m k with hlt | hge
  · exact hbefore m hlt
  · obtain ⟨m, rfl⟩ := Nat.exists_eq_add_of_le hge
    rw [happend]
    exact hafter m (by omega)

lemma setQueue_setQueue (s : MtScheduler) (j : ℕ) (d e : ChaseLevDeque ℕ) :
    (s.setQueue j d).setQueue j e = s.setQueue j e := by
  simp [setQueue]

/-- The worker's `pop` of its own deque. -/
lemma alone_pops {d e : ChaseLevDeque ℕ} {result : Option ℕ} (h : ChaseLevDeque.Pops d result e)
    (hi : i < s.threadCount) (hplace : s.places i = .popping) (hd : s.workers i = d) :
    Alone i s ((s.setQueue i e).proceed i .injecting result) := by
  induction h generalizing s with
  | last hstep hresult =>
      refine .head hi (by rw [hplace]; nofun) ?_ (.refl _ _)
      rw [workerLoop, hplace]
      dsimp only
      rw [hd, hstep, hresult]
      rfl
  | @more d e f result hstep hresult _ ih =>
      have hrest := ih (s := s.setQueue i e) hi hplace (Function.update_self _ _ _)
      rw [setQueue_setQueue] at hrest
      refine .head hi (by rw [hplace]; nofun) ?_ hrest
      rw [workerLoop, hplace]
      dsimp only
      rw [hd, hstep, hresult]
      rfl

/-- One `steal` of `try_steal`. -/
lemma alone_steals {d e : ChaseLevDeque ℕ} {result : Option ℕ} {j : ℕ}
    (h : ChaseLevDeque.Steals i d result e) (hi : i < s.threadCount)
    (hplace : s.places i = .stealing k) (hk : k ≤ s.threadCount)
    (hj : (i + k) % s.threadCount = j) (hne : j ≠ i) (hd : s.workers j = d) :
    Alone i s ((s.setQueue j e).proceed i (.stealing (k + 1)) result) := by
  induction h generalizing s with
  | last hresult =>
      refine .head hi (by rw [hplace]; nofun) ?_ (.refl _ _)
      rw [workerLoop, hplace]
      dsimp only
      rw [trySteal, if_neg (by omega)]
      dsimp only
      rw [hj, if_neg hne, hd, hresult]
  | @more d e result hresult _ ih =>
      have hrest := ih (s := s.setQueue j (d.thiefStep i)) hi hplace hk hj
        (Function.update_self _ _ _)
      rw [setQueue_setQueue] at hrest
      refine .head hi (by rw [hplace]; nofun) ?_ hrest
      rw [workerLoop, hplace]
      dsimp only
      rw [trySteal, if_neg (by omega)]
      dsimp only
      rw [hj, if_neg hne, hd, hresult]

/-- No operation on a local queue is in progress that matters to worker `i`. -/
def Quiet (s : MtScheduler) (i : ℕ) : Prop :=
  ∀ j < s.threadCount,
    (s.workers j).Sound ∧ (s.workers j).owner = .idle ∧ (s.workers j).thieves i = .idle

lemma Quiet.setQueue {j : ℕ} {d : ChaseLevDeque ℕ} (h : s.Quiet i)
    (hd : d.Sound ∧ d.owner = .idle ∧ d.thieves i = .idle) : (s.setQueue j d).Quiet i := by
  intro k hk
  change (Function.update s.workers j d k).Sound ∧ (Function.update s.workers j d k).owner = _ ∧
    (Function.update s.workers j d k).thieves i = _
  rcases eq_or_ne k j with rfl | hne
  · rwa [Function.update_self]
  · rw [Function.update_of_ne hne]
    exact h k hk

/-- The worker finds a handle, or comes to wait and has not found one in the given queues. -/
def Finds (s : MtScheduler) (i : ℕ) (Empty : Prop) (t : MtScheduler) : Prop :=
  t.scheduled = s.scheduled ∧ ((t.places i = .waiting ∧ Empty) ∨
    ∃ handle, t.places i = .obtained handle ∧ t.obtained = handle ::ₘ s.obtained)

/-- `try_steal` from its loop variable `k` on. -/
lemma alone_trySteal (h : s.Quiet i) (hi : i < s.threadCount) (hplace : s.places i = .stealing k) :
    ∃ t, Alone i s t ∧ s.Finds i (∀ x, k ≤ x → x ≤ s.threadCount → (i + x) % s.threadCount ≠ i →
      (s.workers ((i + x) % s.threadCount)).contents = []) t := by
  -- by the number of victims that are left
  induction hn : s.threadCount + 1 - k generalizing s k with
  | zero =>
      have hk : s.threadCount < k := by omega
      refine ⟨s.move i .waiting, .head hi (by rw [hplace]; nofun) ?_ (.refl _ _), rfl,
        .inl ⟨Function.update_self _ _ _, fun x hx hle => by omega⟩⟩
      rw [workerLoop, hplace]
      dsimp only
      rw [trySteal, if_pos hk]
  | succ n ih =>
      have hk : k ≤ s.threadCount := by omega
      by_cases hvictim : (i + k) % s.threadCount = i
      · obtain ⟨t, halone, hscheduled, hfinds⟩ := ih (s := s.move i (.stealing (k + 1)))
          h hi (Function.update_self _ _ _)
          (by change s.threadCount + 1 - (k + 1) = n; omega)
        refine ⟨t, .head hi (by rw [hplace]; nofun) ?_ halone, hscheduled, hfinds.imp_left ?_⟩
        · rw [workerLoop, hplace]
          dsimp only
          rw [trySteal, if_neg (by omega)]
          dsimp only
          rw [if_pos hvictim]
        · rintro ⟨hwaiting, hempty⟩
          refine ⟨hwaiting, fun x hx hle hne => hempty x (lt_of_le_of_ne hx ?_) hle hne⟩
          rintro rfl
          exact hne hvictim
      · obtain ⟨hsound, howner, hthief⟩ := h ((i + k) % s.threadCount)
          (Nat.mod_lt _ (by omega))
        obtain ⟨result, d, hsteals, hnone⟩ := ChaseLevDeque.steals_idle hthief
        have hsteal := alone_steals hsteals hi hplace hk rfl hvictim rfl
        cases result with
        | some handle =>
            exact ⟨_, hsteal, rfl, .inr ⟨handle, Function.update_self _ _ _, rfl⟩⟩
        | none =>
            have hquiet : (((s.setQueue ((i + k) % s.threadCount) d).proceed i
                (.stealing (k + 1)) none)).Quiet i :=
              h.setQueue ⟨hsteals.sound hsound, hsteals.owner.trans howner, hsteals.idle⟩
            obtain ⟨t, halone, hscheduled, hfinds⟩ := ih hquiet hi (Function.update_self _ _ _)
              (by change s.threadCount + 1 - (k + 1) = n; omega)
            refine ⟨t, hsteal.trans halone, hscheduled, hfinds.imp_left ?_⟩
            rintro ⟨hwaiting, hempty⟩
            refine ⟨hwaiting, fun x hx hle hne => ?_⟩
            rcases eq_or_lt_of_le hx with rfl | hlt
            · exact hnone.mp rfl
            · have hrest := hempty x hlt hle hne
              change (Function.update s.workers _ d ((i + x) % s.threadCount)).contents = []
                at hrest
              rcases eq_or_ne ((i + x) % s.threadCount) ((i + k) % s.threadCount) with heq | hother
              · rw [heq]
                exact hnone.mp rfl
              · rwa [Function.update_of_ne hother] at hrest

/-- `try_inject`, and what follows it. -/
lemma alone_tryInject (h : s.Quiet i) (hi : i < s.threadCount)
    (hplace : s.places i = .injecting) :
    ∃ t, Alone i s t ∧ s.Finds i (s.injectQueue = [] ∧
      ∀ j < s.threadCount, j ≠ i → (s.workers j).contents = []) t := by
  have hstep : s.workerLoop i = some (s.tryInject i) := by rw [workerLoop, hplace]
  have hbusy : s.places i ≠ .waiting := by simp [hplace]
  cases hqueue : s.injectQueue with
  | cons handle queue =>
      refine ⟨_, .head hi hbusy hstep (.refl _ _), ?_⟩
      rw [MtScheduler.tryInject, hqueue]
      exact ⟨rfl, .inr ⟨handle, Function.update_self _ _ _, rfl⟩⟩
  | nil =>
      rw [MtScheduler.tryInject, hqueue] at hstep
      obtain ⟨t, halone, hscheduled, hfinds⟩ := alone_trySteal (s := s.move i (.stealing 1))
        h hi (Function.update_self _ _ _)
      refine ⟨t, .head hi hbusy hstep halone, hscheduled, hfinds.imp_left ?_⟩
      rintro ⟨hwaiting, hempty⟩
      refine ⟨hwaiting, rfl, fun j hj hne => ?_⟩
      -- the loop of `try_steal` comes to every other worker
      have hreach : ∃ x, 1 ≤ x ∧ x ≤ s.threadCount ∧ (i + x) % s.threadCount = j := by
        rcases lt_or_gt_of_ne hne with hlt | hgt
        · refine ⟨s.threadCount + j - i, by omega, by omega, ?_⟩
          rw [show i + (s.threadCount + j - i) = j + s.threadCount by omega, Nat.add_mod_right,
            Nat.mod_eq_of_lt hj]
        · refine ⟨j - i, by omega, by omega, ?_⟩
          rw [Nat.add_sub_cancel' hgt.le, Nat.mod_eq_of_lt hj]
      obtain ⟨x, hx, hle, rfl⟩ := hreach
      exact hempty x hx hle hne

/-- What a worker has found was in one of the queues. -/
lemma mem_of_obtained {handle : ℕ} (hs : s.Accounts) (ht : t.Accounts)
    (hidle : ∀ j < s.threadCount, (s.workers j).owner = .idle)
    (hscheduled : t.scheduled = s.scheduled) (hobtained : t.obtained = handle ::ₘ s.obtained) :
    handle ∈ s.injectQueue ∨ ∃ j < s.threadCount, handle ∈ (s.workers j).contents := by
  have hmem : handle ∈ (s.injectQueue : Multiset ℕ) + s.total ChaseLevDeque.outstanding := by
    have hall := ht.accounted
    rw [hscheduled, hs.accounted, hobtained, ← Multiset.singleton_add,
      add_comm {handle} s.obtained] at hall
    simp only [add_assoc, add_right_inj] at hall
    rw [hall]
    exact Multiset.mem_add.mpr (.inl (Multiset.mem_singleton_self _))
  rcases Multiset.mem_add.mp hmem with hinject | hqueue
  · exact .inl hinject
  · obtain ⟨j, hj, hin⟩ := Multiset.mem_sum.mp hqueue
    have hlt := Finset.mem_range.mp hj
    rw [ChaseLevDeque.outstanding_of_idle (hidle j hlt)] at hin
    exact .inr ⟨j, hlt, hin⟩

/-- A round of `worker_loop`. -/
lemma alone_round (h : s.Quiet i) (hi : i < s.threadCount) (hplace : s.places i = .head)
    (hstop : s.stopRequested i = false) :
    ∃ t, Alone i s t ∧ s.Finds i (s.injectQueue = [] ∧
      ∀ j < s.threadCount, (s.workers j).contents = []) t := by
  obtain ⟨hsound, howner, hthief⟩ := h i hi
  obtain ⟨result, d, hpops, hidle, hnone, -⟩ := ChaseLevDeque.pops_idle hsound howner
  have hbusy : s.places i ≠ .waiting := by rw [hplace]; nofun
  have hcall : (s.workers i).step .pop = some { s.workers i with owner := .popping } := by
    rw [ChaseLevDeque.step, howner]
  have hbegin : s.workerLoop i = some ((s.setQueue i
      { s.workers i with owner := .popping }).move i .popping) := by
    rw [workerLoop, hplace]
    dsimp only
    rw [hstop, hcall]
    rfl
  have hpop := alone_pops (s := (s.setQueue i { s.workers i with owner := .popping }).move i
    .popping) hpops hi (Function.update_self _ _ _) (Function.update_self _ _ _)
  have hquiet : (s.setQueue i d).Quiet i := h.setQueue
    ⟨hpops.sound (hsound.step hcall), hidle, (congrFun hpops.thieves i).trans hthief⟩
  have hsame : ∀ p r, ((((s.setQueue i { s.workers i with owner := .popping }).move i
      .popping).setQueue i d).proceed i p r) = (s.setQueue i d).proceed i p r := by
    rintro p (_ | handle) <;> simp [proceed, move, setQueue]
  rw [hsame] at hpop
  cases result with
  | some handle =>
      exact ⟨_, .head hi hbusy hbegin hpop, rfl, .inr ⟨handle, Function.update_self _ _ _, rfl⟩⟩
  | none =>
      obtain ⟨t, halone, hscheduled, hfinds⟩ := alone_tryInject
        (s := (s.setQueue i d).move i .injecting) hquiet hi (Function.update_self _ _ _)
      refine ⟨t, .head hi hbusy hbegin (hpop.trans halone), hscheduled, hfinds.imp_left ?_⟩
      rintro ⟨hwaiting, hinject, hempty⟩
      refine ⟨hwaiting, hinject, fun j hj => ?_⟩
      rcases eq_or_ne j i with rfl | hne
      · exact hnone.mp rfl
      · have hrest := hempty j hj hne
        change (Function.update s.workers i d j).contents = [] at hrest
        rwa [Function.update_of_ne hne] at hrest

/-- **A worker finds work**: a worker that makes one round of its loop while no other thread makes
an access, and none is in `pop` or `push`, obtains a handle if there is one in the injection queue
or in any local queue, and waits only if there is none. -/
theorem worker_finds_work (threadCount cap : ℕ) (hcap : ∃ k, cap = 2 ^ k) (queue : List ℕ)
    (labels : List Label) (s : MtScheduler) (i : ℕ)
    (hrun : run step (start threadCount (.new cap hcap) queue) labels = some s)
    (hi : i < s.threadCount) (hplace : s.places i = .head) (hstop : s.stopRequested i = false)
    (hothers : ∀ j < s.threadCount, (s.places j).inOperation = false) :
    ∃ k t, Accesses i k s t ∧
      ((t.places i = .waiting ∧ s.injectQueue = [] ∧
          ∀ j < s.threadCount, (s.workers j).contents = []) ∨
        ∃ handle, t.places i = .obtained handle ∧ t.obtained = handle ::ₘ s.obtained ∧
          (handle ∈ s.injectQueue ∨ ∃ j < s.threadCount, handle ∈ (s.workers j).contents)) := by
  obtain ⟨hs, hplaced⟩ := invariants_of_run hcap hrun
  have hidle : ∀ j < s.threadCount, (s.workers j).owner = .idle := fun j hj =>
    hplaced.idle (hothers j hj)
  have hquiet : s.Quiet i := fun j hj => ⟨hs.sound j, hidle j hj, hplaced.thief i j
    fun ⟨_, _, hsteal, _⟩ => by cases hplace.symm.trans hsteal⟩
  obtain ⟨t, ⟨k, hk⟩, hscheduled, hfinds⟩ := alone_round hquiet hi hplace hstop
  have ht : t.Accounts := (invariant_of_step (P := fun s => s.Accounts ∧ s.Placed)
    (fun _ _ _ h hstep => ⟨h.1.step h.2 hstep, h.2.step hstep⟩) ⟨hs, hplaced⟩ hk.1).1
  refine ⟨k, t, hk, hfinds.imp_right fun ⟨handle, hat, hobtained⟩ => ⟨handle, hat, hobtained,
    mem_of_obtained hs ht hidle hscheduled hobtained⟩⟩

/-- The handle that one worker has scheduled and not yet looked for is found by the other one. -/
theorem worker_finds_work_stealing :
    let s := reached step (start 2 (.new 2 ⟨1, rfl⟩) [7]) (stolenRun.take 14)
    ∃ k t, Accesses 1 k s t ∧
      ((t.places 1 = .waiting ∧ s.injectQueue = [] ∧
          ∀ j < s.threadCount, (s.workers j).contents = []) ∨
        ∃ handle, t.places 1 = .obtained handle ∧ t.obtained = handle ::ₘ s.obtained ∧
          (handle ∈ s.injectQueue ∨ ∃ j < s.threadCount, handle ∈ (s.workers j).contents)) :=
  worker_finds_work 2 2 ⟨1, rfl⟩ [7] (stolenRun.take 14) _ 1 (run_eq_reached (by decide +kernel))
    (by decide +kernel) (by decide +kernel) (by decide +kernel) (by decide +kernel)

end MtScheduler

end Workers

end Agner
