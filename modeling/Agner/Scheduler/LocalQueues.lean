import Agner.Foundations.Runs

/-!
`MtScheduler::schedule`: which queue a handle goes to.

The index of a worker is a static member, one for each thread and shared by all schedulers.
`schedule` takes it for the index of one of its own workers whenever it is less than
`thread_count_`.

* `Process`, `step`: any number of schedulers and threads. `run` fills `workers_`, launches the
  workers, and clears `workers_` after it has joined them; it is not called again before it has
  returned. Any thread may call `schedule` on any scheduler at any time.
* `OwnerOnly`: the call does what the owner of a deque may do, or appends to the injection queue.
* `Foreign`: the thread is a worker of another scheduler, with an index that this one takes for
  its own.
* `schedule_ownerOnly_iff`: in every reachable state, a call keeps to its own queue if and only if
  it is not made by a foreign worker.
-/

namespace Agner.LocalQueues

open Runs

/-- `std::numeric_limits<size_t>::max()`. -/
def sizeMax : ℕ := 2 ^ 64 - 1

/-- How far `run` has come. -/
inductive Stage where
  | outside
  /-- The workers below `next` have been launched. -/
  | launching (next : ℕ)
  /-- `timer_loop` has returned, and the workers are asked to stop. -/
  | stopping
  deriving DecidableEq

/-- The members of `MtScheduler` that `schedule` uses. Handles are numbers. -/
structure MtScheduler where
  threadCount : Fin (2 ^ 64)
  /-- The local queues of `workers_`. -/
  workers : List (List ℕ) := []
  injectQueue : List ℕ := []
  stage : Stage := .outside
  deriving DecidableEq

/-- The life of a thread. -/
inductive Status where
  /-- A worker that has not stored its index yet. -/
  | launched
  | live
  | ended
  deriving DecidableEq

/-- A thread, with the scheduler and the index it is a worker of. -/
structure Thread where
  workerIndex : ℕ := sizeMax
  role : Option (ℕ × ℕ) := none
  status : Status := .live
  deriving DecidableEq

/-- All schedulers and threads. -/
structure Process where
  schedulers : List MtScheduler := []
  threads : List Thread := []
  /-- An element past the end of `workers_` has been accessed. -/
  undefined : Bool := false
  deriving DecidableEq

/-- What happens to the schedulers and the threads. -/
inductive Label where
  | construct (threadCount : Fin (2 ^ 64))
  /-- A thread that is no worker comes into being. -/
  | attach
  /-- `run` is called with an actor alive. -/
  | run (t c : ℕ)
  /-- `run` creates the next worker thread. -/
  | launch (c : ℕ)
  /-- A worker thread stores its index. -/
  | assign (t : ℕ)
  /-- `timer_loop` returns. -/
  | stopWorkers (c : ℕ)
  /-- `worker_loop` returns. -/
  | finish (t : ℕ)
  /-- All workers have been joined, and `run` returns. -/
  | clear (c : ℕ)
  /-- A thread calls `schedule`; `none` is the null handle. -/
  | schedule (t c : ℕ) (handle : Option ℕ)
  /-- A handle is popped or stolen. -/
  | take (c i : ℕ) (handle : ℕ)
  | tryInject (c : ℕ)
  deriving DecidableEq

/-- `current_worker_index`. -/
def currentWorkerIndex (c : MtScheduler) (th : Thread) : Option ℕ :=
  if th.workerIndex < c.threadCount then some th.workerIndex else none

namespace Process

/-- The scheduler at position `c` changes. -/
def update (s : Process) (c : ℕ) (f : MtScheduler → MtScheduler) : Process :=
  { s with schedulers := s.schedulers.modify c f }

/-- `workers_[i].local_queue.push(handle)`. -/
def push (s : Process) (c i handle : ℕ) : Process :=
  if (s.schedulers[c]?.any fun x => i < x.workers.length) = true then
    s.update c fun x => { x with workers := x.workers.modify i (· ++ [handle]) }
  else { s with undefined := true }

/-- `inject_queue_.push_back(handle)`. -/
def inject (s : Process) (c handle : ℕ) : Process :=
  s.update c fun x => { x with injectQueue := x.injectQueue ++ [handle] }

/-- `schedule`, on the scheduler `x` at position `c`. -/
def schedule (s : Process) (th : Thread) (c : ℕ) (x : MtScheduler) : Option ℕ → Process
  | none => s
  | some handle =>
      match currentWorkerIndex x th with
      | some i => s.push c i handle
      | none => s.inject c handle

/-- The thread, if it can make calls. -/
def caller (s : Process) (t : ℕ) : Option Thread :=
  s.threads[t]?.filter fun th => th.status = .live

/-- No thread that has not ended is a worker of the scheduler. -/
def joined (s : Process) (c : ℕ) : Bool :=
  s.threads.all fun th => th.status = .ended || th.role.all fun r => r.1 ≠ c

/-- One step; `none` if the label is not enabled. -/
def step (s : Process) : Label → Option Process
  | .construct threadCount =>
      some { s with schedulers := s.schedulers ++ [{ threadCount := threadCount }] }
  | .attach => some { s with threads := s.threads ++ [{}] }
  | .run t c =>
      match s.caller t, s.schedulers[c]? with
      | some _, some x =>
          if x.stage = .outside then
            some (s.update c fun x =>
              { x with
                workers := x.workers ++ List.replicate x.threadCount []
                stage := .launching 0 })
          else none
      | _, _ => none
  | .launch c =>
      match s.schedulers[c]? with
      | some x =>
          match x.stage with
          | .launching next =>
              if next < x.threadCount then
                some { s.update c (fun x => { x with stage := .launching (next + 1) }) with
                  threads := s.threads ++ [{ role := some (c, next), status := .launched }] }
              else none
          | .outside | .stopping => none
      | none => none
  | .assign t =>
      match s.threads[t]? with
      | some ⟨_, some (c, i), .launched⟩ =>
          some { s with threads := s.threads.set t ⟨i, some (c, i), .live⟩ }
      | _ => none
  | .stopWorkers c =>
      match s.schedulers[c]? with
      | some x =>
          if x.stage = .launching x.threadCount then
            some (s.update c fun x => { x with stage := .stopping })
          else none
      | none => none
  | .finish t =>
      match s.threads[t]? with
      | some ⟨index, some (c, i), .live⟩ =>
          if (s.schedulers[c]?.any fun x => x.stage = .stopping) = true then
            some { s with threads := s.threads.set t ⟨index, some (c, i), .ended⟩ }
          else none
      | _ => none
  | .clear c =>
      match s.schedulers[c]? with
      | some x =>
          if x.stage = .stopping ∧ s.joined c = true then
            some (s.update c fun x => { x with workers := [], stage := .outside })
          else none
      | none => none
  | .schedule t c handle =>
      match s.caller t, s.schedulers[c]? with
      | some th, some x => some (s.schedule th c x handle)
      | _, _ => none
  | .take c i handle =>
      some (s.update c fun x => { x with workers := x.workers.modify i fun q => q.erase handle })
  | .tryInject c => some (s.update c fun x => { x with injectQueue := x.injectQueue.tail })

/-! ### The owner of a queue -/

/-- The thread is the worker `i` of the scheduler `c`. -/
def IsWorker (s : Process) (t c i : ℕ) : Prop := s.threads[t]?.bind Thread.role = some (c, i)

instance (s : Process) (t c i : ℕ) : Decidable (s.IsWorker t c i) :=
  inferInstanceAs (Decidable (_ = _))

/-- The call pushes onto a local queue of the scheduler only if the calling thread is the worker
that owns it, and appends to the injection queue otherwise. -/
def OwnerOnly (s : Process) (t c handle : ℕ) : Prop :=
  ∀ s', s.step (.schedule t c (some handle)) = some s' →
    (∃ i, s.IsWorker t c i ∧ (s.schedulers[c]?.any fun x => i < x.workers.length) = true ∧
      s' = s.push c i handle) ∨
    s' = s.inject c handle

/-- The thread is a worker of another scheduler, with an index less than the number of workers of
this one. -/
def Foreign (s : Process) (t c : ℕ) : Prop :=
  ∃ d i, s.IsWorker t d i ∧ d ≠ c ∧ (s.schedulers[c]?.any fun x => i < x.threadCount) = true

/-! ### Workers and their schedulers -/

variable {s s' : Process} {c : ℕ}

/-- Every worker that has not ended has its place in `workers_`, and every thread the index that
goes with it. -/
structure Placed (s : Process) : Prop where
  filled : ∀ (c : ℕ) (x : MtScheduler), s.schedulers[c]? = some x → x.stage ≠ .outside →
    x.threadCount ≤ x.workers.length
  external : ∀ th ∈ s.threads, th.role = none → th.workerIndex = sizeMax
  worker : ∀ th ∈ s.threads, ∀ c i, th.role = some (c, i) → th.status ≠ .ended →
    ∃ x : MtScheduler, s.schedulers[c]? = some x ∧ i < x.workers.length ∧ i < x.threadCount
  index : ∀ th ∈ s.threads, ∀ c i, th.role = some (c, i) → th.status = .live →
    th.workerIndex = i

lemma placed_empty : ({} : Process).Placed where
  filled c x hx := absurd hx (by simp)
  external th hth := absurd hth (by simp)
  worker th hth := absurd hth (by simp)
  index th hth := absurd hth (by simp)

lemma getElem?_update (f : MtScheduler → MtScheduler) (d : ℕ) :
    (s.update c f).schedulers[d]? = s.schedulers[d]?.map fun x => if c = d then f x else x := by
  rw [update, List.getElem?_modify]
  rfl

/-- Changes of a scheduler that take no queue away. -/
lemma Placed.update (h : s.Placed) {f : MtScheduler → MtScheduler}
    (hcount : ∀ x, (f x).threadCount = x.threadCount)
    (hlength : ∀ x, x.workers.length ≤ (f x).workers.length)
    (hfilled : ∀ x, s.schedulers[c]? = some x → (f x).stage ≠ .outside →
      x.threadCount ≤ (f x).workers.length) : (s.update c f).Placed where
  filled d y hy hstage := by
    rw [getElem?_update] at hy
    obtain ⟨x, hx, rfl⟩ := Option.map_eq_some_iff.mp hy
    split at hstage
    · rename_i hcd
      subst hcd
      rw [if_pos rfl, hcount]
      exact hfilled x hx hstage
    · rename_i hcd
      rw [if_neg hcd]
      exact h.filled d x hx hstage
  external := h.external
  worker th hth d i hrole hstatus := by
    obtain ⟨x, hx, hlt, hcnt⟩ := h.worker th hth d i hrole hstatus
    refine ⟨if c = d then f x else x, ?_, ?_, ?_⟩
    · rw [getElem?_update, hx, Option.map_some]
    · split
      · exact hlt.trans_le (hlength x)
      · exact hlt
    · split
      · rw [hcount]
        exact hcnt
      · exact hcnt
  index := h.index

/-- A change of a scheduler that leaves its stage and its number of queues as they are. -/
lemma Placed.update_queues (h : s.Placed) {f : MtScheduler → MtScheduler}
    (hcount : ∀ x, (f x).threadCount = x.threadCount) (hstage : ∀ x, (f x).stage = x.stage)
    (hlength : ∀ x, (f x).workers.length = x.workers.length) : (s.update c f).Placed := by
  refine h.update hcount (fun x => (hlength x).ge) fun x hx hs => ?_
  rw [hlength]
  exact h.filled c x hx (hstage x ▸ hs)

/-- A further thread. -/
lemma Placed.append (h : s.Placed) {th : Thread}
    (hexternal : th.role = none → th.workerIndex = sizeMax)
    (hworker : ∀ c i, th.role = some (c, i) →
      ∃ x : MtScheduler, s.schedulers[c]? = some x ∧ i < x.workers.length ∧ i < x.threadCount)
    (hindex : ∀ c i, th.role = some (c, i) → th.status = .live → th.workerIndex = i) :
    { s with threads := s.threads ++ [th] }.Placed where
  filled := h.filled
  external x hx := by
    rcases List.mem_append.mp hx with hx | hx
    · exact h.external x hx
    · rw [List.mem_singleton.mp hx]
      exact hexternal
  worker x hx := by
    rcases List.mem_append.mp hx with hx | hx
    · exact h.worker x hx
    · rw [List.mem_singleton.mp hx]
      exact fun c i hrole _ => hworker c i hrole
  index x hx := by
    rcases List.mem_append.mp hx with hx | hx
    · exact h.index x hx
    · rw [List.mem_singleton.mp hx]
      exact hindex

/-- A worker stores its index, or ends. -/
lemma Placed.set (h : s.Placed) {t c i : ℕ} {th th' : Thread} (hth : s.threads[t]? = some th)
    (hrole : th.role = some (c, i)) (hstatus : th.status ≠ .ended) (hrole' : th'.role = some (c, i))
    (hindex : th'.status = .live → th'.workerIndex = i) :
    { s with threads := s.threads.set t th' }.Placed where
  filled := h.filled
  external x hx hnone := by
    rcases List.mem_or_eq_of_mem_set hx with hx | rfl
    · exact h.external x hx hnone
    · exact absurd (hnone.symm.trans hrole') (by simp)
  worker x hx d j hx' hstatus' := by
    rcases List.mem_or_eq_of_mem_set hx with hx | rfl
    · exact h.worker x hx d j hx' hstatus'
    · obtain ⟨rfl, rfl⟩ := Prod.mk.inj (Option.some.inj (hrole'.symm.trans hx'))
      exact h.worker th (List.mem_of_getElem? hth) _ _ hrole hstatus
  index x hx d j hx' hlive := by
    rcases List.mem_or_eq_of_mem_set hx with hx | rfl
    · exact h.index x hx d j hx' hlive
    · obtain ⟨rfl, rfl⟩ := Prod.mk.inj (Option.some.inj (hrole'.symm.trans hx'))
      exact hindex hlive

/-- `workers_` is cleared once all workers have been joined. -/
lemma Placed.clear (h : s.Placed) (hjoined : s.joined c = true) :
    (s.update c fun x => { x with workers := [], stage := .outside }).Placed where
  filled d y hy hstage := by
    rw [getElem?_update] at hy
    obtain ⟨x, hx, rfl⟩ := Option.map_eq_some_iff.mp hy
    split at hstage
    · exact absurd rfl hstage
    · rename_i hcd
      rw [if_neg hcd]
      exact h.filled d x hx hstage
  external := h.external
  worker th hth d i hrole hstatus := by
    obtain ⟨x, hx, hlt⟩ := h.worker th hth d i hrole hstatus
    have hcd : c ≠ d := by
      rintro rfl
      have hended := List.all_eq_true.mp hjoined th hth
      simp [hrole, hstatus] at hended
    refine ⟨x, ?_, hlt⟩
    rw [getElem?_update, hx, Option.map_some, if_neg hcd]
  index := h.index

lemma Placed.push (h : s.Placed) {i handle : ℕ} : (s.push c i handle).Placed := by
  rw [Process.push]
  split
  · exact h.update_queues (fun _ => rfl) (fun _ => rfl) fun _ => List.length_modify ..
  · exact ⟨h.filled, h.external, h.worker, h.index⟩

lemma Placed.schedule (h : s.Placed) {th : Thread} {x : MtScheduler} {handle : Option ℕ} :
    (s.schedule th c x handle).Placed := by
  cases handle with
  | none => exact h
  | some handle =>
      rw [Process.schedule]
      split
      · exact h.push
      · exact h.update_queues (fun _ => rfl) (fun _ => rfl) fun _ => rfl

lemma Placed.launch (h : s.Placed) (ht : s.step (.launch c) = some s') : s'.Placed := by
  rw [step] at ht
  split at ht
  · rename_i x hx
    split at ht
    · rename_i next hstage
      rw [Option.ite_none_right_eq_some] at ht
      obtain ⟨hlt, ht⟩ := ht
      obtain rfl := Option.some.inj ht
      have hfilled := h.filled c x hx (by rw [hstage]; simp)
      have hmoved : (s.update c fun x => { x with stage := .launching (next + 1) }).Placed := by
        refine h.update (fun _ => rfl) (fun _ => le_rfl) fun y hy _ => ?_
        obtain rfl := Option.some.inj (hx.symm.trans hy)
        exact hfilled
      refine hmoved.append (fun hnone => absurd hnone (by simp)) (fun d i hrole => ?_)
        fun d i _ hlive => absurd hlive (by simp)
      obtain ⟨rfl, rfl⟩ := Prod.mk.inj (Option.some.inj hrole)
      refine ⟨{ x with stage := .launching (next + 1) }, ?_, hlt.trans_le hfilled, hlt⟩
      rw [getElem?_update, hx, Option.map_some, if_pos rfl]
    · cases ht
    · cases ht
  · cases ht

lemma Placed.step (s : Process) (l : Label) (s' : Process) (h : s.Placed)
    (ht : s.step l = some s') : s'.Placed := by
  cases l with
  | construct threadCount =>
      obtain rfl := Option.some.inj ht
      refine ⟨fun c x hx hstage => ?_, h.external, fun th hth c i hrole hstatus => ?_, h.index⟩
      · rcases List.mem_append.mp (List.mem_of_getElem? hx) with hmem | hmem
        · obtain ⟨d, hd⟩ := List.mem_iff_getElem?.mp hmem
          exact h.filled d x hd hstage
        · rw [List.mem_singleton.mp hmem] at hstage
          exact absurd rfl hstage
      · obtain ⟨x, hx, hlt⟩ := h.worker th hth c i hrole hstatus
        obtain ⟨hc, -⟩ := List.getElem?_eq_some_iff.mp hx
        exact ⟨x, by rw [List.getElem?_append_left hc, hx], hlt⟩
  | attach =>
      obtain rfl := Option.some.inj ht
      exact h.append (fun _ => rfl) (fun c i hrole => absurd hrole (by simp))
        fun c i hrole => absurd hrole (by simp)
  | run t c =>
      rw [Process.step] at ht
      split at ht
      · rw [Option.ite_none_right_eq_some] at ht
        obtain rfl := Option.some.inj ht.2
        refine h.update (fun _ => rfl) (fun x => ?_) fun x _ _ => ?_
        · rw [List.length_append]
          exact Nat.le_add_right _ _
        · rw [List.length_append, List.length_replicate]
          exact Nat.le_add_left _ _
      · cases ht
  | launch c => exact h.launch ht
  | assign t =>
      rw [Process.step] at ht
      split at ht
      · rename_i hth
        obtain rfl := Option.some.inj ht
        exact h.set hth rfl (by simp) rfl fun _ => rfl
      · cases ht
  -- the workers are there until `run` clears them, which it does after it has joined them
  | stopWorkers c =>
      rw [Process.step] at ht
      split at ht
      · rename_i x hx
        rw [Option.ite_none_right_eq_some] at ht
        obtain ⟨hstage, ht⟩ := ht
        obtain rfl := Option.some.inj ht
        refine h.update (fun _ => rfl) (fun _ => le_rfl) fun y hy _ => ?_
        obtain rfl := Option.some.inj (hx.symm.trans hy)
        exact h.filled c x hx (by rw [hstage]; simp)
      · cases ht
  | finish t =>
      rw [Process.step] at ht
      split at ht
      · rename_i hth
        rw [Option.ite_none_right_eq_some] at ht
        obtain rfl := Option.some.inj ht.2
        exact h.set hth rfl (by simp) rfl fun hlive => absurd hlive (by simp)
      · cases ht
  | clear c =>
      rw [Process.step] at ht
      split at ht
      · rw [Option.ite_none_right_eq_some] at ht
        obtain ⟨⟨-, hjoined⟩, ht⟩ := ht
        obtain rfl := Option.some.inj ht
        exact h.clear hjoined
      · cases ht
  | schedule t c handle =>
      rw [Process.step] at ht
      split at ht
      · obtain rfl := Option.some.inj ht
        exact h.schedule
      · cases ht
  | take c i handle =>
      obtain rfl := Option.some.inj ht
      exact h.update_queues (fun _ => rfl) (fun _ => rfl) fun _ => List.length_modify ..
  | tryInject c =>
      obtain rfl := Option.some.inj ht
      exact h.update_queues (fun _ => rfl) (fun _ => rfl) fun _ => rfl

/-! ### Calls -/

/-- An injection is seen in the injection queue. -/
lemma inject_ne {x : MtScheduler} (hx : s.schedulers[c]? = some x) {handle : ℕ}
    (h : s'.schedulers[c]?.map MtScheduler.injectQueue = some x.injectQueue) :
    s' ≠ s.inject c handle := by
  rintro rfl
  rw [inject, getElem?_update, hx] at h
  simp at h

/-- A push leaves the injection queue as it is. -/
lemma injectQueue_push {x : MtScheduler} (hx : s.schedulers[c]? = some x) (i handle : ℕ) :
    (s.push c i handle).schedulers[c]?.map MtScheduler.injectQueue = some x.injectQueue := by
  rw [push]
  split
  · rw [getElem?_update, hx]
    simp
  · rw [hx]
    rfl

/-- What a call of a live thread does. -/
lemma step_schedule {t handle : ℕ} {th : Thread} {x : MtScheduler} (hth : s.caller t = some th)
    (hx : s.schedulers[c]? = some x) :
    s.step (.schedule t c (some handle)) = some (if th.workerIndex < x.threadCount then
      s.push c th.workerIndex handle else s.inject c handle) := by
  simp only [step, hth, hx, schedule, currentWorkerIndex]
  by_cases hlt : th.workerIndex < x.threadCount
  · simp [hlt]
  · simp [hlt]

/-- A foreign worker pushes onto a queue that is not its own. -/
lemma not_ownerOnly_of_foreign (h : s.Placed) {t handle : ℕ} {th : Thread} {x : MtScheduler}
    (hth : s.caller t = some th) (hx : s.schedulers[c]? = some x) (hforeign : s.Foreign t c) :
    ¬ s.OwnerOnly t c handle := by
  obtain ⟨d, i, hworker, hne, hlt⟩ := hforeign
  obtain ⟨hget, hlive⟩ := Option.filter_eq_some_iff.mp hth
  have hrole : th.role = some (d, i) := by simpa [IsWorker, hget] using hworker
  have hindex : th.workerIndex = i :=
    h.index th (List.mem_of_getElem? hget) d i hrole (by simpa using hlive)
  rw [hx, Option.any_some, decide_eq_true_eq] at hlt
  intro hown
  have hstep : s.step (.schedule t c (some handle)) = _ := step_schedule hth hx
  rw [if_pos (by rw [hindex]; exact hlt)] at hstep
  rcases hown _ hstep with ⟨j, hj, -, -⟩ | hinject
  · have hrole' : th.role = some (c, j) := by simpa [IsWorker, hget] using hj
    exact hne (Prod.mk.inj (Option.some.inj (hrole.symm.trans hrole'))).1
  · exact inject_ne hx (injectQueue_push hx _ _) hinject

/-- Any other thread keeps to its own queue. -/
lemma ownerOnly_of_not_foreign (h : s.Placed) {t handle : ℕ} (hforeign : ¬ s.Foreign t c) :
    s.OwnerOnly t c handle := by
  intro s' ht
  cases hth : s.caller t with
  | none => simp [step, hth] at ht
  | some th =>
      cases hx : s.schedulers[c]? with
      | none => simp [step, hth, hx] at ht
      | some x =>
          rw [step_schedule hth hx] at ht
          obtain rfl := Option.some.inj ht
          obtain ⟨hget, hlive⟩ := Option.filter_eq_some_iff.mp hth
          have hmem := List.mem_of_getElem? hget
          split
          · rename_i hlt
            cases hrole : th.role with
            | none =>
                -- a thread that is no worker has the largest index there is
                rw [h.external th hmem hrole] at hlt
                exact absurd hlt (by have := x.threadCount.isLt; simp [sizeMax]; omega)
            | some r =>
                obtain ⟨d, i⟩ := r
                have hlive' : th.status = .live := by simpa using hlive
                have hindex := h.index th hmem d i hrole hlive'
                have hworker : s.IsWorker t d i := by rw [IsWorker, hget]; exact hrole
                obtain rfl : d = c := by
                  by_contra hne
                  refine hforeign ⟨d, i, hworker, hne, ?_⟩
                  rw [hx, Option.any_some, decide_eq_true_eq, ← hindex]
                  exact hlt
                obtain ⟨y, hy, hlt, -⟩ := h.worker th hmem d i hrole (by rw [hlive']; simp)
                obtain rfl := Option.some.inj (hx.symm.trans hy)
                refine Or.inl ⟨i, hworker, ?_, by rw [hindex]⟩
                simpa [hx] using hlt
          · exact Or.inr rfl

/-- In every reachable state, a call of `schedule` keeps to the queue of its own thread if and only
if the thread is not a foreign worker. -/
theorem schedule_ownerOnly_iff (ls : List Label) (s : Process)
    (hrun : Runs.run step {} ls = some s) (t c handle : ℕ)
    (hcall : (s.step (.schedule t c (some handle))).isSome = true) :
    s.OwnerOnly t c handle ↔ ¬ s.Foreign t c := by
  have hplaced := invariant_of_step Placed.step placed_empty hrun
  refine ⟨fun hown hforeign => ?_, ownerOnly_of_not_foreign hplaced⟩
  cases hth : s.caller t with
  | none => simp [step, hth] at hcall
  | some th =>
      cases hx : s.schedulers[c]? with
      | none => simp [step, hth, hx] at hcall
      | some x => exact not_ownerOnly_of_foreign hplaced hth hx hforeign hown

/-- Two schedulers with one worker each, both running. -/
def twoRunning : List Label :=
  [.construct 1, .construct 1, .attach, .attach, .run 0 0, .run 1 1, .launch 0, .launch 1,
    .assign 2, .assign 3]

/-- A worker that schedules on its own scheduler pushes onto its own queue. -/
theorem schedule_ownerOnly_own :
    Runs.run step {} twoRunning = some (reached step {} twoRunning) ∧
      ¬ (reached step {} twoRunning).Foreign 2 0 ∧
      (reached step {} twoRunning).OwnerOnly 2 0 7 := by
  have hrun := run_eq_reached
    (show (Runs.run step ({} : Process) twoRunning).isSome = true by decide)
  have hforeign : ¬ (reached step {} twoRunning).Foreign 2 0 := by
    rintro ⟨d, i, hworker, hne, -⟩
    have hrole : (reached step ({} : Process) twoRunning).IsWorker 2 0 0 := by decide
    exact hne (Prod.mk.inj (Option.some.inj (hworker.symm.trans hrole))).1
  exact ⟨hrun, hforeign,
    (schedule_ownerOnly_iff twoRunning _ hrun 2 0 7 (by decide)).mpr hforeign⟩

/-- A worker that schedules on the other scheduler pushes onto the queue of the other worker. -/
theorem not_ownerOnly_twoRunning :
    Runs.run step {} twoRunning = some (reached step {} twoRunning) ∧
      (reached step {} twoRunning).IsWorker 2 0 0 ∧
      (reached step {} twoRunning).step (.schedule 2 1 (some 7)) =
        some ((reached step {} twoRunning).push 1 0 7) ∧
      ¬ (reached step {} twoRunning).OwnerOnly 2 1 7 := by
  refine ⟨run_eq_reached (by decide), by decide, by decide, fun hown => ?_⟩
  rcases hown ((reached step {} twoRunning).push 1 0 7) (by decide) with ⟨i, hworker, -⟩ | h
  · have hrole : (reached step ({} : Process) twoRunning).IsWorker 2 0 0 := by decide
    exact absurd (Prod.mk.inj (Option.some.inj (hworker.symm.trans hrole))).1 (by decide)
  · exact absurd h (by decide)

end Process

end Agner.LocalQueues
