import Agner.Deque.Accounting

/-!
The workers of `MtScheduler`: `schedule`, `worker_loop`, `try_inject` and `try_steal` over the
work-stealing deques, access by access.

A worker that is inside `push`, `pop` or `steal` takes the steps of the owner or of a thief of the
deque in question; what the other threads do comes in between. Threads that are no workers reach
the injection queue only.

* `Place`, `workerLoop`: where a worker is, and its next access.
* `ownerResult`, `thiefResult`: what the access makes an operation return.
* `outstanding`: the handles that are in a deque, or on their way into it or out of it.
* `Accounts`: the invariant. What has been pushed onto a deque and what it has returned add up to
  what has been scheduled and what workers have obtained.
* `handles_accounted`: every scheduled handle is in one place, and no worker obtains it twice.
-/

namespace Agner

open Runs

namespace Owner

variable {α : Type}

/-- The owner is in `push`. -/
def inPush : Owner α → Bool
  | .pushing _ | .pushBottom _ _ | .pushTop _ _ _ | .growing _ _ _ _ _ _ | .copying _ _ _ _ _ _ _
  | .storing _ _ _ | .stored _ _ => true
  | _ => false

/-- The owner is in `pop`. -/
def inPop (o : Owner α) : Bool := !o.isIdle && !o.inPush

end Owner

namespace ChaseLevDeque

variable {α : Type} {s t : ChaseLevDeque α}

/-- What the next access of the owner makes `push` (nothing) or `pop` return, if it is the last one
of the operation. -/
def ownerResult (s : ChaseLevDeque α) : Option (Option α) :=
  match s.owner with
  | .stored _ _ => some none
  | .loading b t buf => if t = b then none else some (some ((s.buffers buf).load b))
  | .restoring _ result => some result
  | _ => none

/-- What the next access of a thief makes `steal` return. -/
def thiefResult (s : ChaseLevDeque α) (k : ℕ) : Option (Option α) :=
  match s.thieves k with
  | .topLoaded t => if t < s.bottom then none else some none
  | .valueLoaded t value => some (if s.top = t then some value else none)
  | _ => none

/-- The element that `push` has not made visible yet. -/
def pushing (s : ChaseLevDeque α) : List α :=
  match s.owner with
  | .pushing value | .pushBottom value _ | .pushTop value _ _ | .growing value _ _ _ _ _
  | .copying value _ _ _ _ _ _ | .storing value _ _ | .stored value _ => [value]
  | _ => []

/-- The elements for which `push` has been called. -/
def entered (s : ChaseLevDeque α) : Multiset α := (s.pushed : Multiset α) + s.pushing

/-- The elements in the deque, and those that `push` or `pop` has in hand. -/
def outstanding (s : ChaseLevDeque α) : Multiset α :=
  (window s.current.load s.top s.limit : Multiset α) + s.owner.inFlight + s.pushing

/-! ### Accounts of one deque -/

lemma Sound.entered (h : s.Sound) :
    s.entered = (s.returned : Multiset α) + s.outstanding := by
  have hacc : (s.returned : Multiset α) + window s.current.load s.top s.limit +
      s.owner.inFlight = s.pushed := Multiset.coe_eq_coe.mpr h.accounted
  rw [ChaseLevDeque.entered, outstanding, ← hacc]
  simp only [add_assoc]

/-- Between operations the outstanding elements are those in the deque. -/
lemma outstanding_of_idle (h : s.owner = .idle) : s.outstanding = (s.contents : Multiset α) := by
  rw [outstanding, pushing, limit, h]
  simp [Owner.limit, Owner.inFlight, contents]

lemma returned_ownerStep [Inhabited α] (h : s.ownerStep = some t) :
    t.returned = s.returned ++ s.ownerResult.join.toList := by
  rw [ChaseLevDeque.ownerStep] at h
  rw [ownerResult]
  cases ho : s.owner <;> simp only [ho, reduceCtorEq, Option.some.injEq] at h ⊢
  case growing | contending => split at h <;> simp [← Option.some.inj h]
  case loading => split at h <;> simp_all [← Option.some.inj h, return?]
  all_goals simp [← h, return?]

lemma entered_ownerStep [Inhabited α] (h : s.ownerStep = some t) : t.entered = s.entered := by
  rw [ChaseLevDeque.ownerStep] at h
  rw [entered, entered, pushing, pushing]
  cases ho : s.owner <;> simp only [ho, reduceCtorEq, Option.some.injEq] at h
  case growing | contending | loading =>
    split at h <;> simp [← Option.some.inj h, return?]
  case pushTop => split at h <;> simp [← h]
  case lowered => split at h <;> simp [← h]
  case stored value b =>
    simp [← h, ← Multiset.coe_add]
  all_goals simp [← h, return?]

@[simp] lemma returned_setThief (s : ChaseLevDeque α) (k : ℕ) (p : Thief α) :
    (s.setThief k p).returned = s.returned := rfl

lemma returned_thiefStep (s : ChaseLevDeque α) (k : ℕ) :
    (s.thiefStep k).returned = s.returned ++ (s.thiefResult k).join.toList := by
  cases hk : s.thieves k with
  | topLoaded x =>
      by_cases hx : x < s.bottom <;> simp [ChaseLevDeque.thiefStep, thiefResult, hk, hx]
  | valueLoaded x value =>
      by_cases hx : s.top = x <;> simp [ChaseLevDeque.thiefStep, thiefResult, hk, hx, return?]
  | idle | inRange | bufferLoaded => simp [ChaseLevDeque.thiefStep, thiefResult, hk]

/-- A thief leaves the operation of the owner alone. -/
lemma thiefStep_frame (s : ChaseLevDeque α) (k : ℕ) :
    (s.thiefStep k).owner = s.owner ∧ (s.thiefStep k).pushed = s.pushed := by
  rw [ChaseLevDeque.thiefStep]
  cases s.thieves k with
  | valueLoaded => dsimp only; split <;> exact ⟨rfl, rfl⟩
  | idle | topLoaded | inRange | bufferLoaded => exact ⟨rfl, rfl⟩

lemma entered_thiefStep (s : ChaseLevDeque α) (k : ℕ) :
    (s.thiefStep k).entered = s.entered := by
  obtain ⟨howner, hpushed⟩ := s.thiefStep_frame k
  rw [entered, entered, pushing, pushing, howner, hpushed]

lemma of_push [Inhabited α] {value : α} (h : s.step (.push value) = some t) :
    t.owner.inPush = true ∧ t.thieves = s.thieves ∧ t.returned = s.returned ∧
      t.entered = value ::ₘ s.entered := by
  cases ho : s.owner <;> simp only [step, ho, reduceCtorEq, Option.some.injEq] at h
  subst h
  refine ⟨rfl, rfl, rfl, ?_⟩
  rw [entered, entered, pushing, pushing, ho, Multiset.coe_nil, add_zero, Multiset.coe_singleton,
    add_comm, Multiset.singleton_add]

lemma of_pop [Inhabited α] (h : s.step .pop = some t) :
    t.owner.inPop = true ∧ t.thieves = s.thieves ∧ t.returned = s.returned ∧
      t.entered = s.entered := by
  cases ho : s.owner <;> simp only [step, ho, reduceCtorEq, Option.some.injEq] at h
  subst h
  refine ⟨rfl, rfl, rfl, ?_⟩
  rw [entered, entered, pushing, pushing, ho]

/-- `push` returns nothing. -/
lemma ownerStep_inPush [Inhabited α] (h : s.ownerStep = some t) (hpush : s.owner.inPush = true) :
    (s.ownerResult = none ∧ t.owner.inPush = true) ∨
      (s.ownerResult = some none ∧ t.owner = .idle) := by
  rw [ChaseLevDeque.ownerStep] at h
  rw [ownerResult]
  cases ho : s.owner <;> simp only [ho, reduceCtorEq, Option.some.injEq] at h hpush
  case growing => split at h <;> exact .inl ⟨rfl, Option.some.inj h ▸ rfl⟩
  case pushTop =>
    subst h
    refine .inl ⟨rfl, ?_⟩
    dsimp only
    split <;> rfl
  case stored => exact .inr ⟨rfl, h ▸ rfl⟩
  case pushing | pushBottom | copying | storing => exact .inl ⟨rfl, h ▸ rfl⟩
  all_goals cases hpush

lemma ownerStep_inPop [Inhabited α] (h : s.ownerStep = some t) (hpop : s.owner.inPop = true) :
    (s.ownerResult = none ∧ t.owner.inPop = true) ∨
      ((∃ result, s.ownerResult = some result) ∧ t.owner = .idle) := by
  rw [ChaseLevDeque.ownerStep] at h
  rw [ownerResult]
  cases ho : s.owner <;> simp only [ho, reduceCtorEq, Option.some.injEq] at h hpop
  case loading b x buf =>
    split at h
    · rename_i hx
      exact .inl ⟨if_pos hx, Option.some.inj h ▸ rfl⟩
    · rename_i hx
      exact .inr ⟨⟨_, if_neg hx⟩, Option.some.inj h ▸ rfl⟩
  case contending => split at h <;> exact .inl ⟨rfl, Option.some.inj h ▸ rfl⟩
  case lowered =>
    subst h
    refine .inl ⟨rfl, ?_⟩
    dsimp only
    split <;> rfl
  case restoring => exact .inr ⟨⟨_, rfl⟩, h ▸ rfl⟩
  case popping | popBottom | lowering => exact .inl ⟨rfl, h ▸ rfl⟩
  all_goals cases hpop

/-- A thief that returns is idle again. -/
lemma thieves_thiefStep (s : ChaseLevDeque α) (k : ℕ) :
    (∀ j ≠ k, (s.thiefStep k).thieves j = s.thieves j) ∧
      ∀ result, s.thiefResult k = some result → (s.thiefStep k).thieves k = .idle := by
  constructor
  · intro j hj
    have hset : ∀ p, (s.setThief k p).thieves j = s.thieves j := fun p =>
      Function.update_of_ne hj _ _
    rw [ChaseLevDeque.thiefStep]
    cases s.thieves k with
    | valueLoaded =>
        dsimp only
        split <;> exact hset _
    | idle | topLoaded | inRange | bufferLoaded => exact hset _
  · intro result hresult
    have hset : (s.setThief k .idle).thieves k = .idle := Function.update_self _ _ _
    rw [thiefResult] at hresult
    rw [ChaseLevDeque.thiefStep]
    cases hk : s.thieves k with
    | topLoaded x =>
        simp only [hk, Option.ite_none_left_eq_some] at hresult
        dsimp only
        rw [if_neg hresult.1]
        exact hset
    | valueLoaded =>
        dsimp only
        split <;> exact hset
    | idle | inRange | bufferLoaded => simp [hk] at hresult

end ChaseLevDeque

namespace Workers

/-- Where a worker is in `worker_loop`. -/
inductive Place where
  /-- The test of `stop_requested`. -/
  | head
  /-- In `pop` of its own deque. -/
  | popping
  /-- Before `try_inject`. -/
  | injecting
  /-- In `try_steal`, with the value of its loop variable. -/
  | stealing (i : ℕ)
  | waiting
  /-- A handle has been found, and is tested for being done. -/
  | obtained (handle : ℕ)
  /-- The coroutine has been resumed. -/
  | running (handle : ℕ)
  /-- The coroutine has called `schedule`, which is in `push`. -/
  | pushing (handle : ℕ)
  /-- The coroutine is suspended, or has ended, and `resume` has not returned. -/
  | leaving
  | ended
  deriving DecidableEq

namespace Place

/-- The worker is in an operation of its own deque. -/
def inOperation : Place → Bool
  | .popping | .pushing _ => true
  | _ => false

/-- The handle whose coroutine the worker has to itself. -/
def held : Place → Multiset ℕ
  | .obtained handle | .running handle | .pushing handle => {handle}
  | _ => 0

end Place

/-- The members of `MtScheduler` that handles go through, while `run` has its workers launched.
Handles are numbers. -/
structure MtScheduler where
  threadCount : ℕ
  /-- The local queues of `workers_`. -/
  workers : ℕ → ChaseLevDeque ℕ
  injectQueue : List ℕ := []
  places : ℕ → Place := fun _ => .head
  /-- The stop tokens of the workers. -/
  stopRequested : ℕ → Bool := fun _ => false
  /-- The handles that `schedule` has been called with. -/
  scheduled : Multiset ℕ := 0
  /-- The handles that workers have obtained. -/
  obtained : Multiset ℕ := 0
  /-- Those among them that have been scheduled by other threads, and obtained by `try_inject`. -/
  injected : Multiset ℕ := 0
  extracted : Multiset ℕ := 0

/-- What happens next. -/
inductive Label where
  /-- A worker makes its next access. -/
  | worker (i : ℕ)
  /-- It resumes the handle that it has obtained, unless that is done. -/
  | resume (i : ℕ) (done : Bool)
  /-- The coroutine that it has resumed calls `schedule`. -/
  | schedule (i : ℕ) (handle : ℕ)
  /-- The coroutine is suspended or ends. -/
  | suspend (i : ℕ)
  /-- `resume` returns. -/
  | leave (i : ℕ)
  /-- A thread that is no worker calls `schedule`. -/
  | inject (handle : ℕ)
  /-- `run` asks a worker to stop. -/
  | requestStop (i : ℕ)
  deriving DecidableEq

namespace MtScheduler

/-- The worker moves on. -/
def move (s : MtScheduler) (i : ℕ) (p : Place) : MtScheduler :=
  { s with places := Function.update s.places i p }

/-- The local queue of worker `j` changes. -/
def setQueue (s : MtScheduler) (j : ℕ) (d : ChaseLevDeque ℕ) : MtScheduler :=
  { s with workers := Function.update s.workers j d }

/-- The worker goes on with what an operation has returned: with the handle, or at the place where
it looks next. -/
def proceed (s : MtScheduler) (i : ℕ) (next : Place) : Option ℕ → MtScheduler
  | none => s.move i next
  | some handle => { s.move i (.obtained handle) with obtained := handle ::ₘ s.obtained }

/-- `try_inject`. -/
def tryInject (s : MtScheduler) (i : ℕ) : MtScheduler :=
  match s.injectQueue with
  | [] => s.move i (.stealing 1)
  | handle :: queue =>
      { s with injectQueue := queue, extracted := handle ::ₘ s.extracted }.proceed i .head
        (some handle)

/-- `try_steal`, at its loop variable `k`: one access of `steal`, or the next victim. -/
def trySteal (s : MtScheduler) (i k : ℕ) : MtScheduler :=
  let victim := (i + k) % s.threadCount
  if s.threadCount < k then s.move i .waiting
  else if victim = i then s.move i (.stealing (k + 1))
  else
    let t := s.setQueue victim ((s.workers victim).thiefStep i)
    match (s.workers victim).thiefResult i with
    | none => t
    | some result => t.proceed i (.stealing (k + 1)) result

/-- `worker_loop` up to its next access. -/
def workerLoop (s : MtScheduler) (i : ℕ) : Option MtScheduler :=
  match s.places i with
  | .head =>
      if s.stopRequested i then some (s.move i .ended)
      else ((s.workers i).step .pop).map fun d => (s.setQueue i d).move i .popping
  | .popping =>
      (s.workers i).ownerStep.map fun d =>
        match (s.workers i).ownerResult with
        | none => s.setQueue i d
        | some result => (s.setQueue i d).proceed i .injecting result
  | .injecting => some (s.tryInject i)
  | .stealing k => some (s.trySteal i k)
  | .waiting => some (s.move i .head)
  | .pushing handle =>
      (s.workers i).ownerStep.map fun d =>
        (s.setQueue i d).move i
          (if (s.workers i).ownerResult.isSome then .running handle else .pushing handle)
  | .obtained _ | .running _ | .leaving | .ended => none

/-- One step. -/
def step (s : MtScheduler) : Label → Option MtScheduler
  | .worker i => if i < s.threadCount then s.workerLoop i else none
  | .resume i done =>
      match s.places i with
      | .obtained handle => some (s.move i (if done then .head else .running handle))
      | _ => none
  | .schedule i handle =>
      match s.places i with
      | .running current =>
          if i < s.threadCount then
            ((s.workers i).step (.push handle)).map fun d =>
              { (s.setQueue i d).move i (.pushing current) with
                scheduled := handle ::ₘ s.scheduled }
          else none
      | _ => none
  | .suspend i =>
      match s.places i with
      | .running _ => some (s.move i .leaving)
      | _ => none
  | .leave i =>
      match s.places i with
      | .leaving => some (s.move i .head)
      | _ => none
  | .inject handle =>
      some { s with
        injectQueue := s.injectQueue ++ [handle]
        scheduled := handle ::ₘ s.scheduled
        injected := handle ::ₘ s.injected }
  | .requestStop i =>
      some { s with stopRequested := Function.update s.stopRequested i true }

/-- `run` has launched its workers; handles scheduled before are in the injection queue. -/
def start (threadCount : ℕ) (d : ChaseLevDeque ℕ) (queue : List ℕ) : MtScheduler :=
  { threadCount := threadCount, workers := fun _ => d, injectQueue := queue, scheduled := queue,
    injected := queue }

/-- The sum of what is read off the local queues. -/
def total (s : MtScheduler) (f : ChaseLevDeque ℕ → Multiset ℕ) : Multiset ℕ :=
  ∑ j ∈ Finset.range s.threadCount, f (s.workers j)

variable {s t : MtScheduler}

/-! ### Where the threads are -/

/-- What the place of a worker says about the owner of its local queue. -/
def OwnerAt : Place → Owner ℕ → Prop
  | .popping, o => o.inPop = true
  | .pushing _, o => o.inPush = true
  | _, o => o = .idle

/-- Worker `i` is in `steal` of the local queue of worker `j`. -/
def Robs (s : MtScheduler) (i j : ℕ) : Prop :=
  i ≠ j ∧ ∃ k, s.places i = .stealing k ∧ k ≤ s.threadCount ∧ (i + k) % s.threadCount = j

/-- The operations in progress are those that the places say. -/
structure Placed (s : MtScheduler) : Prop where
  owner : ∀ i, OwnerAt (s.places i) (s.workers i).owner
  thief : ∀ i j, ¬ s.Robs i j → (s.workers j).thieves i = .idle

/-- Worker `i` moves on, after an access to the local queue of worker `j`. -/
lemma Placed.update {i j : ℕ} {p : Place} {d : ChaseLevDeque ℕ} (h : s.Placed)
    (hcount : t.threadCount = s.threadCount) (hplaces : t.places = Function.update s.places i p)
    (hworkers : t.workers = Function.update s.workers j d)
    (howner : OwnerAt p (if i = j then d.owner else (s.workers i).owner))
    (hothers : i ≠ j → d.owner = (s.workers j).owner)
    (hthieves : ∀ k ≠ i, d.thieves k = (s.workers j).thieves k)
    (hthief : ∀ k, ¬ t.Robs i k → (t.workers k).thieves i = .idle) : t.Placed where
  owner k := by
    rw [hplaces, hworkers]
    rcases eq_or_ne k i with rfl | hki
    · rw [Function.update_self]
      rcases eq_or_ne k j with rfl | hkj
      · rw [Function.update_self]
        rwa [if_pos rfl] at howner
      · rw [Function.update_of_ne hkj]
        rwa [if_neg hkj] at howner
    · rw [Function.update_of_ne hki]
      rcases eq_or_ne k j with rfl | hkj
      · rw [Function.update_self, hothers hki.symm]
        exact h.owner k
      · rw [Function.update_of_ne hkj]
        exact h.owner k
  thief k x hk := by
    rcases eq_or_ne k i with rfl | hki
    · exact hthief x hk
    · have hrobs : ¬ s.Robs k x := by
        rw [Robs, hplaces, hcount, Function.update_of_ne hki] at hk
        exact hk
      rw [hworkers]
      rcases eq_or_ne x j with rfl | hxj
      · rw [Function.update_self, hthieves k hki]
        exact h.thief k x hrobs
      · rw [Function.update_of_ne hxj]
        exact h.thief k x hrobs

/-- A worker that is not stealing moves on, after an access to its own queue. -/
lemma Placed.own {i : ℕ} {p : Place} {d : ChaseLevDeque ℕ} (h : s.Placed)
    (hsteal : ∀ k, s.places i ≠ .stealing k) (hcount : t.threadCount = s.threadCount)
    (hplaces : t.places = Function.update s.places i p)
    (hworkers : t.workers = Function.update s.workers i d) (howner : OwnerAt p d.owner)
    (hthieves : d.thieves = (s.workers i).thieves) : t.Placed := by
  have hidle : ∀ k, (s.workers k).thieves i = .idle := fun k =>
    h.thief i k fun ⟨_, x, hx, _⟩ => hsteal x hx
  refine h.update hcount hplaces hworkers (by rwa [if_pos rfl]) (fun hne => absurd rfl hne)
    (fun k _ => congrFun hthieves k) fun k _ => ?_
  rw [hworkers]
  rcases eq_or_ne k i with rfl | hki
  · rw [Function.update_self, hthieves]
    exact hidle k
  · rw [Function.update_of_ne hki]
    exact hidle k

/-- A worker that is in none of the operations moves on. -/
lemma Placed.move {i : ℕ} {p : Place} (h : s.Placed) (hcount : t.threadCount = s.threadCount)
    (hplaces : t.places = Function.update s.places i p) (hworkers : t.workers = s.workers)
    (hidle : (s.workers i).owner = .idle) (hp : OwnerAt p .idle)
    (hrobs : ∀ k, ¬ s.Robs i k) : t.Placed := by
  have hself : t.workers = Function.update s.workers i (s.workers i) := by
    rw [hworkers, Function.update_eq_self]
  refine h.update hcount hplaces hself ?_ (fun hne => absurd rfl hne) (fun _ _ => rfl)
    fun k _ => ?_
  · rwa [if_pos rfl, hidle]
  · rw [hworkers]
    exact h.thief i k (hrobs k)

/-- One access of `steal`. -/
lemma Placed.rob {i k : ℕ} {p : Place} (h : s.Placed) (hi : s.places i = .stealing k)
    (hk : k ≤ s.threadCount) (hne : (i + k) % s.threadCount ≠ i)
    (hcount : t.threadCount = s.threadCount) (hplaces : t.places = Function.update s.places i p)
    (hworkers : t.workers = Function.update s.workers ((i + k) % s.threadCount)
      ((s.workers ((i + k) % s.threadCount)).thiefStep i))
    (hp : OwnerAt p .idle)
    (hdone : p = .stealing k ∨
      ∃ result, (s.workers ((i + k) % s.threadCount)).thiefResult i = some result) :
    t.Placed := by
  obtain ⟨howner, -⟩ := (s.workers ((i + k) % s.threadCount)).thiefStep_frame i
  obtain ⟨hothers, hreturn⟩ := (s.workers ((i + k) % s.threadCount)).thieves_thiefStep i
  have hidle : (s.workers i).owner = .idle := by
    have hat := h.owner i
    rwa [hi] at hat
  refine h.update hcount hplaces hworkers (by rwa [if_neg hne.symm, hidle]) (fun _ => howner)
    hothers fun x hx => ?_
  rw [hworkers]
  rcases eq_or_ne x ((i + k) % s.threadCount) with rfl | hxk
  · rw [Function.update_self]
    rcases hdone with rfl | ⟨result, hresult⟩
    · refine absurd ⟨hne.symm, k, ?_, ?_⟩ hx
      · rw [hplaces, Function.update_self]
      · rw [hcount]
        exact ⟨hk, rfl⟩
    · exact hreturn result hresult
  · rw [Function.update_of_ne hxk]
    refine h.thief i x fun ⟨_, y, hy, _, hyx⟩ => ?_
    obtain rfl : k = y := Place.stealing.inj (hi.symm.trans hy)
    exact hxk hyx.symm

lemma Placed.proceed {i : ℕ} {d : ChaseLevDeque ℕ} {next : Place} (result : Option ℕ)
    (h : s.Placed) (hsteal : ∀ k, s.places i ≠ .stealing k) (hnext : OwnerAt next .idle)
    (howner : d.owner = .idle) (hthieves : d.thieves = (s.workers i).thieves) :
    ((s.setQueue i d).proceed i next result).Placed := by
  cases result with
  | none => exact h.own hsteal rfl rfl rfl (howner ▸ hnext) hthieves
  | some handle => exact h.own (p := .obtained handle) hsteal rfl rfl rfl howner hthieves

lemma Placed.tryInject {i : ℕ} (h : s.Placed) (hi : s.places i = .injecting) :
    (s.tryInject i).Placed := by
  have hrobs : ∀ k, ¬ s.Robs i k := fun k ⟨_, x, hx, _⟩ => by cases hi.symm.trans hx
  have hidle : (s.workers i).owner = .idle := by
    have hat := h.owner i
    rwa [hi] at hat
  rw [MtScheduler.tryInject]
  split
  · exact h.move (p := .stealing 1) rfl rfl rfl hidle rfl hrobs
  · rename_i handle queue _
    exact h.move (p := .obtained handle) rfl rfl rfl hidle rfl hrobs

lemma Placed.trySteal {i k : ℕ} (h : s.Placed) (hi : s.places i = .stealing k) :
    (s.trySteal i k).Placed := by
  have hidle : (s.workers i).owner = .idle := by
    have hat := h.owner i
    rwa [hi] at hat
  have hstay : s.places = Function.update s.places i (.stealing k) := by
    rw [← hi, Function.update_eq_self]
  rw [MtScheduler.trySteal]
  dsimp only
  split_ifs with hk hself
  · refine h.move (p := .waiting) rfl rfl rfl hidle rfl fun x ⟨_, y, hy, hle, _⟩ => ?_
    obtain rfl : k = y := Place.stealing.inj (hi.symm.trans hy)
    omega
  · refine h.move (p := .stealing (k + 1)) rfl rfl rfl hidle rfl fun x ⟨hne, y, hy, _, hx⟩ => ?_
    obtain rfl : k = y := Place.stealing.inj (hi.symm.trans hy)
    exact hne (hself.symm.trans hx)
  · rw [not_lt] at hk
    split
    · exact h.rob hi hk hself rfl hstay rfl rfl (.inl rfl)
    · rename_i result hresult
      cases result with
      | none => exact h.rob (p := .stealing (k + 1)) hi hk hself rfl rfl rfl rfl (.inr ⟨_, hresult⟩)
      | some handle =>
          exact h.rob (p := .obtained handle) hi hk hself rfl rfl rfl rfl (.inr ⟨_, hresult⟩)

lemma Placed.workerLoop {i : ℕ} (h : s.Placed) (hstep : s.workerLoop i = some t) : t.Placed := by
  have hat := h.owner i
  rw [MtScheduler.workerLoop] at hstep
  cases hi : s.places i with
  | head =>
      have hsteal : ∀ k, s.places i ≠ .stealing k := fun k hk => by cases hi.symm.trans hk
      rw [hi] at hat
      simp only [hi] at hstep
      split at hstep
      · exact Option.some.inj hstep ▸
          h.move (p := .ended) rfl rfl rfl hat rfl fun k ⟨_, x, hx, _⟩ => hsteal x hx
      · obtain ⟨d, hd, rfl⟩ := Option.map_eq_some_iff.mp hstep
        obtain ⟨hpop, hthieves, -⟩ := ChaseLevDeque.of_pop hd
        exact h.own (p := .popping) hsteal rfl rfl rfl hpop hthieves
  | popping =>
      have hsteal : ∀ k, s.places i ≠ .stealing k := fun k hk => by cases hi.symm.trans hk
      have hstay : s.places = Function.update s.places i .popping := by
        rw [← hi, Function.update_eq_self]
      rw [hi] at hat
      simp only [hi] at hstep
      obtain ⟨d, hd, rfl⟩ := Option.map_eq_some_iff.mp hstep
      have hthieves := ChaseLevDeque.thieves_ownerStep hd
      rcases ChaseLevDeque.ownerStep_inPop hd hat with ⟨hnone, hpop⟩ | ⟨⟨result, hresult⟩, hidle⟩
      · rw [hnone]
        exact h.own (p := .popping) hsteal rfl hstay rfl hpop hthieves
      · rw [hresult]
        exact h.proceed result hsteal rfl hidle hthieves
  | injecting =>
      simp only [hi] at hstep
      exact Option.some.inj hstep ▸ h.tryInject hi
  | stealing k =>
      simp only [hi] at hstep
      exact Option.some.inj hstep ▸ h.trySteal hi
  | waiting =>
      -- a wake-up, with or without a notification
      rw [hi] at hat
      simp only [hi] at hstep
      exact Option.some.inj hstep ▸
        h.move (p := .head) rfl rfl rfl hat rfl fun k ⟨_, x, hx, _⟩ => by cases hi.symm.trans hx
  | pushing handle =>
      have hsteal : ∀ k, s.places i ≠ .stealing k := fun k hk => by cases hi.symm.trans hk
      rw [hi] at hat
      simp only [hi] at hstep
      obtain ⟨d, hd, rfl⟩ := Option.map_eq_some_iff.mp hstep
      have hthieves := ChaseLevDeque.thieves_ownerStep hd
      rcases ChaseLevDeque.ownerStep_inPush hd hat with ⟨hnone, hpush⟩ | ⟨hsome, hidle⟩
      · rw [hnone]
        exact h.own (p := .pushing handle) hsteal rfl rfl rfl hpush hthieves
      · rw [hsome]
        exact h.own (p := .running handle) hsteal rfl rfl rfl hidle hthieves
  | obtained | running | leaving | ended => simp [hi] at hstep

lemma Placed.step {l : Label} (h : s.Placed) (hstep : s.step l = some t) : t.Placed := by
  cases l with
  | worker i => exact h.workerLoop (Option.ite_none_right_eq_some.mp hstep).2
  | resume i done =>
      have hat := h.owner i
      cases hi : s.places i <;> simp only [MtScheduler.step, hi, reduceCtorEq] at hstep
      rename_i handle
      rw [hi] at hat
      obtain rfl := Option.some.inj hstep
      have hrobs : ∀ k, ¬ s.Robs i k := fun k ⟨_, x, hx, _⟩ => by cases hi.symm.trans hx
      cases done with
      | true => exact h.move (p := .head) rfl rfl rfl hat rfl hrobs
      | false => exact h.move (p := .running handle) rfl rfl rfl hat rfl hrobs
  | schedule i handle =>
      cases hi : s.places i <;> simp only [MtScheduler.step, hi, reduceCtorEq] at hstep
      obtain ⟨d, hd, rfl⟩ := Option.map_eq_some_iff.mp (Option.ite_none_right_eq_some.mp hstep).2
      obtain ⟨hpush, hthieves, -⟩ := ChaseLevDeque.of_push hd
      rename_i current
      exact h.own (p := .pushing current) (fun k hk => by cases hi.symm.trans hk) rfl rfl rfl hpush
        hthieves
  | suspend i =>
      have hat := h.owner i
      cases hi : s.places i <;> simp only [MtScheduler.step, hi, reduceCtorEq] at hstep
      rw [hi] at hat
      obtain rfl := Option.some.inj hstep
      exact h.move (p := .leaving) rfl rfl rfl hat rfl fun k ⟨_, x, hx, _⟩ => by
        cases hi.symm.trans hx
  | leave i =>
      have hat := h.owner i
      cases hi : s.places i <;> simp only [MtScheduler.step, hi, reduceCtorEq] at hstep
      rw [hi] at hat
      obtain rfl := Option.some.inj hstep
      exact h.move (p := .head) rfl rfl rfl hat rfl fun k ⟨_, x, hx, _⟩ => by
        cases hi.symm.trans hx
  | inject | requestStop => exact Option.some.inj hstep ▸ ⟨h.owner, h.thief⟩

/-! ### Accounts -/

/-- Only one queue has changed. -/
lemma total_update {f : ChaseLevDeque ℕ → Multiset ℕ} {j : ℕ} {d : ChaseLevDeque ℕ}
    {x : Multiset ℕ} (hj : j < s.threadCount) (hcount : t.threadCount = s.threadCount)
    (hworkers : t.workers = Function.update s.workers j d) (hd : f d = f (s.workers j) + x) :
    t.total f = s.total f + x := by
  have hmem : j ∈ Finset.range s.threadCount := Finset.mem_range.mpr hj
  have hrest : ∑ k ∈ (Finset.range s.threadCount).erase j, f (Function.update s.workers j d k) =
      ∑ k ∈ (Finset.range s.threadCount).erase j, f (s.workers k) :=
    Finset.sum_congr rfl fun k hk =>
      congrArg f (Function.update_of_ne (Finset.ne_of_mem_erase hk) _ _)
  rw [total, total, hcount, hworkers,
    ← Finset.add_sum_erase _ (fun k => f (Function.update s.workers j d k)) hmem,
    ← Finset.add_sum_erase _ (fun k => f (s.workers k)) hmem, hrest, Function.update_self, hd,
    add_right_comm]

/-- The invariant. -/
structure Accounts (s : MtScheduler) : Prop where
  sound : ∀ j, (s.workers j).Sound
  scheduled : s.scheduled = s.total ChaseLevDeque.entered + s.injected
  obtained : s.obtained = s.total (fun d => (d.returned : Multiset ℕ)) + s.extracted
  injected : s.injected = s.extracted + s.injectQueue

lemma Accounts.move (h : s.Accounts) (i : ℕ) (p : Place) : (s.move i p).Accounts :=
  ⟨h.sound, h.scheduled, h.obtained, h.injected⟩

/-- A step of a thread inside an operation on the local queue of worker `j`: the operation has
been called with the elements `x`, or returns the elements `y`. -/
lemma Accounts.update {j : ℕ} {d : ChaseLevDeque ℕ} {x y : Multiset ℕ} (h : s.Accounts)
    (hj : j < s.threadCount) (hsound : d.Sound)
    (hentered : d.entered = (s.workers j).entered + x)
    (hreturned : (d.returned : Multiset ℕ) = (s.workers j).returned + y)
    (hcount : t.threadCount = s.threadCount)
    (hworkers : t.workers = Function.update s.workers j d)
    (hinjected : t.injected = s.injected) (hextracted : t.extracted = s.extracted)
    (hqueue : t.injectQueue = s.injectQueue) (hscheduled : t.scheduled = s.scheduled + x)
    (hobtained : t.obtained = s.obtained + y) : t.Accounts where
  sound k := by
    rw [hworkers]
    rcases eq_or_ne k j with rfl | hne
    · rw [Function.update_self]
      exact hsound
    · rw [Function.update_of_ne hne]
      exact h.sound k
  scheduled := by
    rw [hscheduled, hinjected, total_update hj hcount hworkers hentered, h.scheduled,
      add_right_comm]
  obtained := by
    rw [hobtained, hextracted,
      total_update (f := fun d => (d.returned : Multiset ℕ)) hj hcount hworkers hreturned,
      h.obtained, add_right_comm]
  injected := by rw [hinjected, hextracted, hqueue, h.injected]

/-- A step inside an operation that goes on. -/
lemma Accounts.within {j i : ℕ} {d : ChaseLevDeque ℕ} (p : Place) (h : s.Accounts)
    (hj : j < s.threadCount) (hsound : d.Sound) (hentered : d.entered = (s.workers j).entered)
    (hreturned : d.returned = (s.workers j).returned) : ((s.setQueue j d).move i p).Accounts :=
  h.update (x := 0) (y := 0) hj hsound (by rw [hentered, add_zero]) (by rw [hreturned, add_zero])
    rfl rfl rfl rfl rfl (add_zero _).symm (add_zero _).symm

/-- The operation returns: what it returns, if anything, has been obtained. -/
lemma Accounts.proceed {j i : ℕ} {d : ChaseLevDeque ℕ} {next : Place} (result : Option ℕ)
    (h : s.Accounts) (hj : j < s.threadCount) (hsound : d.Sound)
    (hentered : d.entered = (s.workers j).entered)
    (hreturned : d.returned = (s.workers j).returned ++ result.toList) :
    ((s.setQueue j d).proceed i next result).Accounts := by
  cases result with
  | none => exact h.within next hj hsound hentered (by rw [hreturned]; exact List.append_nil _)
  | some handle =>
      have hys : (d.returned : Multiset ℕ) = (s.workers j).returned + {handle} := by
        rw [hreturned, ← Multiset.coe_add]
        rfl
      refine h.update (x := 0) hj hsound (by rw [hentered, add_zero]) hys rfl rfl rfl rfl rfl
        (add_zero _).symm ?_
      rw [add_comm, Multiset.singleton_add]
      rfl

lemma Accounts.tryInject {i : ℕ} (h : s.Accounts) : (s.tryInject i).Accounts := by
  rw [MtScheduler.tryInject]
  split
  · exact h.move i _
  · rename_i handle queue hqueue
    refine ⟨h.sound, h.scheduled, ?_, ?_⟩
    · have hobtained := congrArg (handle ::ₘ ·) h.obtained
      rwa [← Multiset.add_cons] at hobtained
    · change s.injected = handle ::ₘ s.extracted + queue
      rw [h.injected, hqueue, ← Multiset.cons_coe, Multiset.add_cons, Multiset.cons_add]

lemma Accounts.trySteal {i k : ℕ} (h : s.Accounts) (hi : i < s.threadCount) :
    (s.trySteal i k).Accounts := by
  have hvictim : (i + k) % s.threadCount < s.threadCount := Nat.mod_lt _ (by omega)
  have hentered := (s.workers ((i + k) % s.threadCount)).entered_thiefStep i
  have hreturned := (s.workers ((i + k) % s.threadCount)).returned_thiefStep i
  have hsound := (h.sound ((i + k) % s.threadCount)).thiefStep i
  rw [MtScheduler.trySteal]
  dsimp only
  split_ifs
  · exact h.move i _
  · exact h.move i _
  · split
    · rename_i hresult
      rw [hresult] at hreturned
      exact h.update (x := 0) (y := 0) hvictim hsound (by rw [hentered, add_zero])
        (by rw [hreturned]; simp) rfl rfl rfl rfl rfl (add_zero _).symm (add_zero _).symm
    · rename_i result hresult
      rw [hresult] at hreturned
      exact h.proceed result hvictim hsound hentered hreturned

lemma Accounts.workerLoop {i : ℕ} (h : s.Accounts) (hplaced : s.Placed) (hi : i < s.threadCount)
    (hstep : s.workerLoop i = some t) : t.Accounts := by
  have hat := hplaced.owner i
  rw [MtScheduler.workerLoop] at hstep
  split at hstep
  · split at hstep
    · exact Option.some.inj hstep ▸ h.move i _
    · obtain ⟨d, hd, rfl⟩ := Option.map_eq_some_iff.mp hstep
      obtain ⟨-, -, hreturned, hentered⟩ := ChaseLevDeque.of_pop hd
      exact h.within _ hi ((h.sound i).step hd) hentered hreturned
  · obtain ⟨d, hd, rfl⟩ := Option.map_eq_some_iff.mp hstep
    have hsound := (h.sound i).ownerStep hd
    have hentered := ChaseLevDeque.entered_ownerStep hd
    have hreturned := ChaseLevDeque.returned_ownerStep hd
    split
    · rename_i hresult
      rw [hresult] at hreturned
      exact h.update (x := 0) (y := 0) hi hsound (by rw [hentered, add_zero])
        (by rw [hreturned]; simp) rfl rfl rfl rfl rfl (add_zero _).symm (add_zero _).symm
    · rename_i result hresult
      rw [hresult] at hreturned
      exact h.proceed result hi hsound hentered hreturned
  · exact Option.some.inj hstep ▸ h.tryInject
  · exact Option.some.inj hstep ▸ h.trySteal hi
  · exact Option.some.inj hstep ▸ h.move i _
  · rename_i hplace
    rw [hplace] at hat
    obtain ⟨d, hd, rfl⟩ := Option.map_eq_some_iff.mp hstep
    have hreturned := ChaseLevDeque.returned_ownerStep hd
    have hnothing : (s.workers i).ownerResult.join = none := by
      rcases ChaseLevDeque.ownerStep_inPush hd hat with ⟨hresult, -⟩ | ⟨hresult, -⟩ <;>
        rw [hresult] <;> rfl
    rw [hnothing] at hreturned
    exact h.within _ hi ((h.sound i).ownerStep hd) (ChaseLevDeque.entered_ownerStep hd)
      (hreturned.trans (List.append_nil _))
  · cases hstep
  · cases hstep
  · cases hstep
  · cases hstep

lemma Accounts.step {l : Label} (h : s.Accounts) (hplaced : s.Placed)
    (hstep : s.step l = some t) : t.Accounts := by
  cases l with
  | worker i =>
      obtain ⟨hi, hstep⟩ := Option.ite_none_right_eq_some.mp hstep
      exact h.workerLoop hplaced hi hstep
  | resume i done =>
      cases hi : s.places i <;> simp only [MtScheduler.step, hi, reduceCtorEq] at hstep
      exact Option.some.inj hstep ▸ h.move i _
  | schedule i handle =>
      cases hi : s.places i <;> simp only [MtScheduler.step, hi, reduceCtorEq] at hstep
      obtain ⟨hlt, hstep⟩ := Option.ite_none_right_eq_some.mp hstep
      obtain ⟨d, hd, rfl⟩ := Option.map_eq_some_iff.mp hstep
      obtain ⟨-, -, hreturned, hentered⟩ := ChaseLevDeque.of_push hd
      refine h.update (x := {handle}) (y := 0) hlt ((h.sound i).step hd) ?_ ?_ rfl rfl rfl rfl rfl
        ?_ (add_zero _).symm
      · rw [hentered, add_comm, Multiset.singleton_add]
      · rw [hreturned, add_zero]
      · rw [add_comm, Multiset.singleton_add]
  | suspend i | leave i =>
      cases hi : s.places i <;> simp only [MtScheduler.step, hi, reduceCtorEq] at hstep
      exact Option.some.inj hstep ▸ h.move i _
  | inject handle =>
      obtain rfl := Option.some.inj hstep
      refine ⟨h.sound, ?_, h.obtained, ?_⟩
      · have hscheduled := congrArg (handle ::ₘ ·) h.scheduled
        rwa [← Multiset.add_cons] at hscheduled
      · change handle ::ₘ s.injected = s.extracted + ((s.injectQueue ++ [handle] : List ℕ) : _)
        rw [h.injected, ← Multiset.coe_add, ← add_assoc, Multiset.coe_singleton,
          ← Multiset.singleton_add, add_comm]
  | requestStop => exact Option.some.inj hstep ▸ ⟨h.sound, h.scheduled, h.obtained, h.injected⟩

lemma total_eq_zero {f : ChaseLevDeque ℕ → Multiset ℕ} (h : ∀ j, f (s.workers j) = 0) :
    s.total f = 0 := Finset.sum_eq_zero fun j _ => h j

variable {threadCount cap : ℕ} {queue : List ℕ} {labels : List Label}

lemma accounts_start (hcap : ∃ k, cap = 2 ^ k) :
    (start threadCount (.new cap hcap) queue).Accounts where
  sound _ := ChaseLevDeque.Sound.init hcap
  scheduled := by
    rw [total_eq_zero fun _ => rfl, zero_add]
    rfl
  obtained := by
    rw [total_eq_zero fun _ => rfl]
    rfl
  injected := (zero_add _).symm

lemma placed_start (hcap : ∃ k, cap = 2 ^ k) :
    (start threadCount (.new cap hcap) queue).Placed := ⟨fun _ => rfl, fun _ _ _ => rfl⟩

lemma invariants_of_run (hcap : ∃ k, cap = 2 ^ k)
    (hrun : run step (start threadCount (.new cap hcap) queue) labels = some s) :
    s.Accounts ∧ s.Placed :=
  invariant_of_step (P := fun s => s.Accounts ∧ s.Placed)
    (fun _ _ _ h hstep => ⟨h.1.step h.2 hstep, h.2.step hstep⟩)
    ⟨accounts_start hcap, placed_start hcap⟩ hrun

/-- Where the scheduled handles are. -/
lemma Accounts.accounted (h : s.Accounts) :
    s.scheduled = s.obtained + s.injectQueue + s.total ChaseLevDeque.outstanding := by
  have hentered : s.total ChaseLevDeque.entered =
      s.total (fun d => (d.returned : Multiset ℕ)) + s.total ChaseLevDeque.outstanding := by
    rw [total, total, total, ← Finset.sum_add_distrib]
    exact Finset.sum_congr rfl fun j _ => (h.sound j).entered
  rw [h.scheduled, h.obtained, h.injected, hentered]
  abel

/-- A worker that is in neither `pop` nor `push` leaves its local queue idle. -/
lemma Placed.idle (h : s.Placed) {j : ℕ} (hj : (s.places j).inOperation = false) :
    (s.workers j).owner = .idle := by
  have hat := h.owner j
  cases hp : s.places j <;> rw [hp] at hat hj <;> first | exact hat | cases hj

/-- **No handle is lost and none is resumed twice**: in every interleaving of the workers and of
the other threads, the handles that `schedule` has been called with are those that workers have
obtained and those that are in the injection queue, in a local queue, or on their way into a local
queue or out of it. -/
theorem handles_accounted (threadCount cap : ℕ) (hcap : ∃ k, cap = 2 ^ k) (queue : List ℕ)
    (labels : List Label) (s : MtScheduler)
    (hrun : run step (start threadCount (.new cap hcap) queue) labels = some s) :
    s.scheduled = s.obtained + s.injectQueue + s.total ChaseLevDeque.outstanding ∧
      s.obtained ≤ s.scheduled ∧
      ∀ j, (s.places j).inOperation = false →
        (s.workers j).outstanding = ((s.workers j).contents : Multiset ℕ) := by
  obtain ⟨h, hplaced⟩ := invariants_of_run hcap hrun
  refine ⟨h.accounted, ?_, fun j hj => ChaseLevDeque.outstanding_of_idle (hplaced.idle hj)⟩
  rw [h.accounted, add_assoc]
  exact Multiset.le_add_right _ _

/-- One of two workers takes a handle that has been scheduled before `run`, and resumes it. The
coroutine schedules another handle, which the other worker has stolen when the first one is about
to look for it. -/
def stolenRun : List Label :=
  List.replicate 7 (.worker 0) ++ [.resume 0 false, .schedule 0 8] ++
    List.replicate 5 (.worker 0) ++ List.replicate 12 (.worker 1) ++
    [.suspend 0, .leave 0, .worker 0]

/-- The handle that one worker has scheduled is stolen by the other one. -/
theorem handles_accounted_stolen :
    let s := reached step (start 2 (.new 2 ⟨1, rfl⟩) [7]) stolenRun
    s.scheduled = s.obtained + s.injectQueue + s.total ChaseLevDeque.outstanding ∧
      s.obtained ≤ s.scheduled ∧
      ∀ j, (s.places j).inOperation = false →
        (s.workers j).outstanding = ((s.workers j).contents : Multiset ℕ) :=
  handles_accounted 2 2 ⟨1, rfl⟩ [7] stolenRun _ (run_eq_reached (by decide +kernel))

end MtScheduler

end Workers

end Agner
