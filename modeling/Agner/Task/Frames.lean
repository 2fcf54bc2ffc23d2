import Agner.Foundations.Runs

/-!
`task.hpp`: which `task` object owns which coroutine frame, and when frames are destroyed.

Code runs in a coroutine, or outside of all of them. It creates `task` objects, moves, assigns and
destroys them, detaches tasks, and awaits tasks, as long as the objects are its own and the
coroutines that it detaches or awaits have not been started. `Heap` keeps the frames and the
objects, those inside of frames included.

* `Heap`, `step`: the operations of `task`, and the resumptions.
* `destroying`: the frames on which `destroy` has been called. A frame that is destroyed takes the
  objects in it along.
* `fault`: a frame has been resumed, accessed or destroyed in a state in which it must not be. The
  call of the empty `await_resume` at the end of `final_suspend` is no access.
* `Sound`: the invariant. A frame has one owner: a `task` object, or itself once it is detached. It
  is kept by `handOver`, for what the objects do among each other, by `proceed`, for a coroutine
  that goes on, and by one lemma for each of the other operations.
* `frames_owned`: there is no fault, no frame is destroyed twice, and none is left when there is
  nobody to own it.
-/

namespace Agner

open Runs

namespace Frames

/-- Where the coroutine of a frame is. -/
inductive Status where
  | absent
  /-- At `initial_suspend`. -/
  | initial
  /-- Its handle has been passed to `schedule`. -/
  | queued
  | running
  | awaiting (child : ℕ)
  /-- Suspended at something else than a task. -/
  | parked
  /-- At `final_suspend`. -/
  | final
  | destroyed
  deriving DecidableEq

/-- The coroutine has been started, and has not come to its end. -/
def Status.inProgress : Status → Bool
  | .queued | .running | .awaiting _ | .parked => true
  | .absent | .initial | .final | .destroyed => false

/-- A frame, with the members of its promise. -/
structure Frame where
  status : Status := .absent
  continuation : Option ℕ := none
  detached : Bool := false

/-- A `task` object, and the frame that it is part of: `0` outside of all frames, `none` when it has
not been constructed or has been destroyed. -/
structure Task where
  home : Option ℕ := none
  handle : Option ℕ := none

/-- Frames and `task` objects are numbered. -/
structure Heap where
  frames : ℕ → Frame := fun f => if f = 0 then { status := .running } else {}
  nextFrame : ℕ := 1
  tasks : ℕ → Task := fun _ => {}
  nextTask : ℕ := 0
  /-- The coroutine that runs, if any. -/
  current : Option ℕ := none
  ready : List ℕ := []
  destroying : List ℕ := []
  destroyed : List ℕ := []
  fault : Bool := false

/-- What the running code does next. -/
inductive Label where
  /-- A coroutine is called. The arguments are moved into its frame. -/
  | call (arguments : List ℕ)
  /-- A new `task` is constructed from an old one. -/
  | moveConstruct (v : ℕ)
  /-- `v = std::move(w)`. -/
  | moveAssign (v w : ℕ)
  | destruct (v : ℕ)
  | detach (v : ℕ)
  | await (v : ℕ)
  /-- The coroutine is suspended at something else. -/
  | park
  /-- The coroutine comes to its `final_suspend`. -/
  | complete
  /-- What a coroutine is suspended at schedules it. -/
  | schedule (f : ℕ)
  | resume
  /-- `destroy` goes on. -/
  | destroy
  deriving DecidableEq

namespace Heap

variable {s t : Heap}

/-- The frame whose code runs. -/
def here (s : Heap) : ℕ := s.current.getD 0

/-- The object is one of the code that runs. -/
def local? (s : Heap) (v : ℕ) : Bool := s.destroying.isEmpty && (s.tasks v).home = some s.here

/-- The frame is replaced. -/
def setFrame (s : Heap) (f : ℕ) (x : Frame) : Heap :=
  { s with frames := Function.update s.frames f x }

/-- The task object is replaced. -/
def setTask (s : Heap) (v : ℕ) (x : Task) : Heap :=
  { s with tasks := Function.update s.tasks v x }

/-- The status of a frame changes. -/
def setStatus (s : Heap) (f : ℕ) (status : Status) : Heap :=
  s.setFrame f { s.frames f with status := status }

/-- The promise of a frame is accessed. -/
def touch (s : Heap) (f : ℕ) : Heap :=
  if (s.frames f).status = .absent ∨ (s.frames f).status = .destroyed then { s with fault := true }
  else s

/-- A frame is resumed that should be in the given status. -/
def resumeFrame (s : Heap) (f : ℕ) (status : Status) : Heap :=
  if (s.frames f).status = status then { s.setStatus f .running with current := some f }
  else { s with fault := true }

/-- The frames that the objects in a frame own. -/
def ownedBy (s : Heap) (f : ℕ) : List ℕ :=
  (List.range s.nextTask).filterMap fun v =>
    if (s.tasks v).home = some f then (s.tasks v).handle else none

/-- A coroutine is called. -/
def call (s : Heap) (arguments : List ℕ) : Heap :=
  { s with
    frames := Function.update s.frames s.nextFrame { status := .initial }
    nextFrame := s.nextFrame + 1
    tasks := fun v =>
      if v = s.nextTask then ⟨some s.here, some s.nextFrame⟩
      else if v ∈ arguments then ⟨some s.nextFrame, (s.tasks v).handle⟩
      else s.tasks v
    nextTask := s.nextTask + 1 }

/-- The move constructor. -/
def moveConstruct (s : Heap) (v : ℕ) : Heap :=
  { (s.setTask v ⟨(s.tasks v).home, none⟩).setTask s.nextTask ⟨some s.here, (s.tasks v).handle⟩ with
    nextTask := s.nextTask + 1 }

/-- The move assignment. -/
def moveAssign (s : Heap) (v w : ℕ) : Heap :=
  if v = w then s
  else
    { (s.setTask v ⟨(s.tasks v).home, (s.tasks w).handle⟩).setTask w ⟨(s.tasks w).home, none⟩ with
      destroying := (s.tasks v).handle.toList }

/-- The destructor. -/
def destruct (s : Heap) (v : ℕ) : Heap :=
  { s.setTask v {} with destroying := (s.tasks v).handle.toList }

/-- `detach`. -/
def detach (s : Heap) (v : ℕ) : Heap :=
  match (s.tasks v).handle with
  | none => s
  | some f =>
      let s := s.touch f
      { (s.setFrame f { s.frames f with detached := true, status := .queued }).setTask v
          ⟨(s.tasks v).home, none⟩ with
        ready := s.ready ++ [f] }

/-- `await_suspend`, and the transfer to the coroutine that is awaited. -/
def await (s : Heap) (r f : ℕ) : Heap :=
  let s := s.touch f
  let t := s.setFrame f { s.frames f with continuation := some r }
  (t.setStatus r (.awaiting f)).resumeFrame f .initial

/-- `final_suspend`. A coroutine that is resumed by it goes on with `await_resume`. -/
def complete (s : Heap) (r : ℕ) : Heap :=
  let t := (s.touch r).setStatus r .final
  match (s.frames r).continuation with
  | some g => (t.resumeFrame g (.awaiting r)).touch r
  | none =>
      { t with current := none, destroying := if (s.frames r).detached then [r] else [] }

/-- A frame is destroyed, which destroys the objects in it. -/
def destroyFrame (s : Heap) (f : ℕ) (rest : List ℕ) : Heap :=
  if (s.frames f).status = .initial ∨ (s.frames f).status = .final then
    { s.setStatus f .destroyed with
      tasks := fun v => if (s.tasks v).home = some f then {} else s.tasks v
      destroying := s.ownedBy f ++ rest
      destroyed := s.destroyed ++ [f] }
  else { s with fault := true, destroying := rest }

/-- The object is one of the code that runs, and its coroutine has not been started. -/
def startable (s : Heap) (v : ℕ) : Bool :=
  s.local? v && (s.tasks v).handle.all fun f => (s.frames f).status = .initial

/-- One step. -/
def step (s : Heap) : Label → Option Heap
  | .call arguments =>
      if s.destroying = [] ∧ ∀ v ∈ arguments, s.local? v then some (s.call arguments) else none
  | .moveConstruct v => if s.local? v then some (s.moveConstruct v) else none
  | .moveAssign v w => if s.local? v ∧ s.local? w then some (s.moveAssign v w) else none
  | .destruct v => if s.local? v then some (s.destruct v) else none
  | .detach v => if s.startable v then some (s.detach v) else none
  | .await v =>
      match s.current, (s.tasks v).handle with
      | some r, some f => if s.startable v then some (s.await r f) else none
      | _, _ => none
  | .park =>
      match s.current, s.destroying with
      | some r, [] => some { s.setStatus r .parked with current := none }
      | _, _ => none
  | .complete =>
      match s.current, s.destroying with
      | some r, [] => some (s.complete r)
      | _, _ => none
  | .schedule f =>
      if s.destroying = [] ∧ (s.frames f).status = .parked then
        some { s.setStatus f .queued with ready := s.ready ++ [f] }
      else none
  | .resume =>
      match s.current, s.destroying, s.ready with
      | none, [], f :: ready => some ({ s with ready := ready }.resumeFrame f .queued)
      | _, _, _ => none
  | .destroy =>
      match s.destroying with
      | f :: rest => some (s.destroyFrame f rest)
      | [] => none

/-! ### Ownership -/

/-- The frame exists. -/
def Live (s : Heap) (f : ℕ) : Prop :=
  (s.frames f).status ≠ .absent ∧ (s.frames f).status ≠ .destroyed

/-- The invariant. A frame whose task is still owned by an object is at its start or at its end, or
the coroutine that has the object is awaiting it. -/
structure Sound (s : Heap) : Prop where
  noFault : s.fault = false
  freshFrame : ∀ f, (s.frames f).status ≠ .absent → f < s.nextFrame
  freshTask : ∀ v g, (s.tasks v).home = some g → v < s.nextTask
  main : (s.frames 0).status = .running ∧ (s.frames 0).detached = false ∧
    (s.frames 0).continuation = none ∧ 0 < s.nextFrame ∧ s.current ≠ some 0
  home : ∀ v g, (s.tasks v).home = some g → s.Live g
  null : ∀ v, (s.tasks v).home = none → (s.tasks v).handle = none
  owned : ∀ v f, (s.tasks v).handle = some f → f ≠ 0 ∧ f ∉ s.destroying ∧
    (s.frames f).detached = false ∧ ((s.frames f).status = .initial ∨ (s.frames f).status = .final ∨
      ∃ g, (s.tasks v).home = some g ∧ (s.frames g).status = .awaiting f)
  unique : ∀ v w f, (s.tasks v).handle = some f → (s.tasks w).handle = some f → v = w
  owner : ∀ f, s.Live f → f ≠ 0 →
    f ∈ s.destroying ∨ (s.frames f).detached = true ∨ ∃ v, (s.tasks v).handle = some f
  doomed : s.destroying.Nodup ∧ ∀ f ∈ s.destroying, f ≠ 0 ∧
    ((s.frames f).status = .initial ∨ (s.frames f).status = .final)
  destroyed : s.destroyed.Nodup ∧ ∀ f, f ∈ s.destroyed ↔ (s.frames f).status = .destroyed
  running : ∀ f, (s.frames f).status = .running ↔ f = 0 ∨ s.current = some f
  ready : s.ready.Nodup ∧ ∀ f, f ∈ s.ready ↔ (s.frames f).status = .queued
  awaiting : ∀ f g, (s.frames g).status = .awaiting f →
    (s.frames f).continuation = some g ∧ (s.frames f).status.inProgress = true
  continuation : ∀ f g, (s.frames f).status.inProgress = true →
    (s.frames f).continuation = some g → (s.frames g).status = .awaiting f
  initial : ∀ f, (s.frames f).status = .initial →
    (s.frames f).continuation = none ∧ (s.frames f).detached = false
  detached : ∀ f, (s.frames f).detached = true →
    (s.frames f).status.inProgress = true ∧ (s.frames f).continuation = none ∨
      f ∈ s.destroying ∨ (s.frames f).status = .destroyed
  /-- Nothing owns itself. -/
  ranked : ∃ rank : ℕ → ℕ, ∀ v f g, (s.tasks v).home = some g → (s.tasks v).handle = some f →
    rank g < rank f

lemma Sound.current_running {r : ℕ} (h : s.Sound) (hr : s.current = some r) :
    (s.frames r).status = .running :=
  (h.running r).2 (Or.inr hr)

section setStatus

variable (f g : ℕ) (status : Status)

@[simp, grind =]
lemma setStatus_status : ((s.setStatus f status).frames g).status =
    if g = f then status else (s.frames g).status := by
  simp only [setStatus, setFrame, Function.update_apply]
  split <;> rfl

@[simp, grind =]
lemma setStatus_continuation :
    ((s.setStatus f status).frames g).continuation = (s.frames g).continuation := by
  simp only [setStatus, setFrame, Function.update_apply]
  split <;> simp_all

@[simp, grind =]
lemma setStatus_detached :
    ((s.setStatus f status).frames g).detached = (s.frames g).detached := by
  simp only [setStatus, setFrame, Function.update_apply]
  split <;> simp_all

@[simp, grind =]
lemma setStatus_nextFrame : (s.setStatus f status).nextFrame = s.nextFrame := rfl

@[simp, grind =]
lemma setStatus_tasks : (s.setStatus f status).tasks = s.tasks := rfl

@[simp, grind =]
lemma setStatus_nextTask : (s.setStatus f status).nextTask = s.nextTask := rfl

@[simp, grind =]
lemma setStatus_current : (s.setStatus f status).current = s.current := rfl

@[simp, grind =]
lemma setStatus_ready : (s.setStatus f status).ready = s.ready := rfl

@[simp, grind =]
lemma setStatus_destroying : (s.setStatus f status).destroying = s.destroying := rfl

@[simp, grind =]
lemma setStatus_destroyed : (s.setStatus f status).destroyed = s.destroyed := rfl

end setStatus

/-- A coroutine goes from one stage of its progress to another. -/
lemma Sound.proceed {f : ℕ} {status : Status} (h : s.Sound) (current : Option ℕ)
    (ready : List ℕ) (hf : f ≠ 0) (hp : (s.frames f).status.inProgress = true)
    (hp' : ∀ g, (s.frames f).status ≠ .awaiting g) (hn : status.inProgress = true)
    (hn' : ∀ g, status ≠ .awaiting g) (hc : current ≠ some 0)
    (hrun : ∀ g, (if g = f then status else (s.frames g).status) = .running ↔
      g = 0 ∨ current = some g)
    (hready : ready.Nodup ∧ ∀ g, g ∈ ready ↔
      (if g = f then status else (s.frames g).status) = .queued) :
    ({ s.setStatus f status with current := current, ready := ready }).Sound := by
  refine {
    noFault := h.noFault, freshFrame := ?_, freshTask := h.freshTask, main := ?_, home := ?_,
    null := h.null, owned := ?_, unique := h.unique, owner := ?_, doomed := ?_, destroyed := ?_,
    running := by simpa using hrun, ready := by simpa using hready, awaiting := ?_,
    continuation := ?_, initial := ?_, detached := ?_, ranked := h.ranked }
  all_goals
    clear hrun hready
    simp only [Live, setStatus_status, setStatus_continuation, setStatus_detached,
      setStatus_nextFrame, setStatus_tasks, setStatus_destroying, setStatus_destroyed]
  · intro g hg
    have hl : (s.frames f).status ≠ .absent := by grind [Status.inProgress]
    have := h.freshFrame g
    grind
  · grind [h.main]
  · intro v g hv
    have := h.home v g hv
    grind [Live, Status.inProgress]
  · grind [h.owned, Status.inProgress]
  · grind [h.owner, Live, Status.inProgress]
  · grind [h.doomed, Status.inProgress]
  · grind [h.destroyed, Status.inProgress]
  · grind [h.awaiting, Status.inProgress]
  · grind [h.continuation, Status.inProgress]
  · grind [h.initial, Status.inProgress]
  · grind [h.detached, Status.inProgress]

lemma Sound.park {r : ℕ} (h : s.Sound) (hr : s.current = some r) :
    ({ s.setStatus r .parked with current := none }).Sound := by
  have hs := h.current_running hr
  refine h.proceed none s.ready ?_ (by rw [hs]; rfl) (by simp [hs]) rfl (by simp) (by simp)
    ?_ ?_
  · grind [h.main]
  · grind [h.running, h.main]
  · grind [h.ready]

lemma Sound.schedule {f : ℕ} (h : s.Sound) (hf : (s.frames f).status = .parked) :
    ({ s.setStatus f .queued with ready := s.ready ++ [f] }).Sound := by
  refine h.proceed s.current _ ?_ (by rw [hf]; rfl) (by simp [hf]) rfl (by simp)
    h.main.2.2.2.2 ?_ ?_
  · grind [h.main]
  · grind [h.running]
  · have := h.ready
    refine ⟨?_, ?_⟩
    · grind [List.nodup_append]
    · grind

lemma Sound.resume {f : ℕ} {ready : List ℕ} (h : s.Sound) (hc : s.current = none)
    (hr : s.ready = f :: ready) : ({ s with ready := ready }.resumeFrame f .queued).Sound := by
  have hready := h.ready
  have hf : (s.frames f).status = .queued := (hready.2 f).1 (by simp [hr])
  have hres : { s with ready := ready }.resumeFrame f .queued =
      { s.setStatus f .running with current := some f, ready := ready } := by
    simp [resumeFrame, hf, setStatus, setFrame]
  rw [hres]
  have hf0 : f ≠ 0 := by grind [h.main]
  refine h.proceed _ _ hf0 (by rw [hf]; rfl) (by simp [hf]) rfl (by simp) (by simpa using hf0) ?_ ?_
  · grind [h.running]
  · rw [hr] at hready
    grind

lemma local?_iff {v : ℕ} :
    s.local? v = true ↔ s.destroying = [] ∧ (s.tasks v).home = some s.here := by
  simp [local?]

lemma Sound.here_running (h : s.Sound) : (s.frames s.here).status = .running := by
  rw [h.running, here]
  cases s.current <;> simp

lemma Sound.live_here (h : s.Sound) : s.Live s.here := by
  simp [Live, h.here_running]

lemma Sound.handle_lt {v f : ℕ} (h : s.Sound) (hv : (s.tasks v).handle = some f) :
    v < s.nextTask := by
  cases hh : (s.tasks v).home with
  | none => simp [h.null v hh] at hv
  | some g => exact h.freshTask v g hh

/-- The handles are passed on among the objects of a frame, and some are given up. -/
lemma Sound.handOver (h : s.Sound) (tasks : ℕ → Task) (n : ℕ) (given : List ℕ)
    (hd : s.destroying = []) (hhome : ∀ u g, (tasks u).home = some g → u < n ∧ s.Live g)
    (hnull : ∀ u, (tasks u).home = none → (tasks u).handle = none)
    (hheld : ∀ u f, (tasks u).handle = some f →
      f ∉ given ∧ ∃ v, (s.tasks v).handle = some f ∧ (s.tasks v).home = (tasks u).home)
    (hunique : ∀ u w f, (tasks u).handle = some f → (tasks w).handle = some f → u = w)
    (howner : ∀ v f, (s.tasks v).handle = some f → f ∈ given ∨ ∃ u, (tasks u).handle = some f)
    (hgiven : given.Nodup ∧ ∀ f ∈ given, ∃ v, s.local? v = true ∧ (s.tasks v).handle = some f) :
    ({ s with tasks := tasks, nextTask := n, destroying := given }).Sound where
  noFault := h.noFault
  freshFrame := h.freshFrame
  freshTask u g hu := (hhome u g hu).1
  main := h.main
  home u g hu := (hhome u g hu).2
  null := hnull
  owned u f hu := by
    obtain ⟨hf, v, hv, hvu⟩ := hheld u f hu
    obtain ⟨h0, -, hdet, hst⟩ := h.owned v f hv
    exact ⟨h0, hf, hdet, by simpa only [← hvu] using hst⟩
  unique := hunique
  owner f hf h0 := by
    rcases h.owner f hf h0 with hm | hdet | ⟨v, hv⟩
    · simp [hd] at hm
    · exact Or.inr (Or.inl hdet)
    · exact (howner v f hv).imp_right Or.inr
  doomed := by
    refine ⟨hgiven.1, fun f hf => ?_⟩
    obtain ⟨v, hl, hv⟩ := hgiven.2 f hf
    obtain ⟨h0, -, -, hst⟩ := h.owned v f hv
    have hhere := h.here_running
    grind [local?_iff]
  destroyed := h.destroyed
  running := h.running
  ready := h.ready
  awaiting := h.awaiting
  continuation := h.continuation
  initial := h.initial
  detached f hf := by
    have := h.detached f hf
    simp only [hd, List.not_mem_nil, false_or] at this
    exact this.imp_right Or.inr
  ranked := by
    obtain ⟨rank, hrank⟩ := h.ranked
    refine ⟨rank, fun u f g hg hf => ?_⟩
    obtain ⟨-, v, hv, hvu⟩ := hheld u f hf
    exact hrank v f g (hvu.trans hg) hv

lemma Sound.moveConstruct {v : ℕ} (h : s.Sound) (hv : s.local? v = true) :
    (s.moveConstruct v).Sound := by
  obtain ⟨hd, hvhome⟩ := local?_iff.1 hv
  have hn : v < s.nextTask := h.freshTask v _ hvhome
  have hlt : ∀ w f, (s.tasks w).handle = some f → w < s.nextTask := fun w f hw => h.handle_lt hw
  have := h.handOver (s.moveConstruct v).tasks (s.nextTask + 1) [] hd ?_ ?_ ?_ ?_ ?_ ?_
  · simpa only [hd, Heap.moveConstruct, setTask] using this
  any_goals simp only [Heap.moveConstruct, setTask, Function.update_apply]
  · intro u g hu
    have := h.home u g
    have := h.freshTask u g
    have := h.live_here
    grind
  · grind [h.null]
  · intro u f hu
    refine ⟨by simp, ?_⟩
    by_cases hun : u = s.nextTask
    · exact ⟨v, by grind⟩
    · exact ⟨u, by grind⟩
  · grind [h.unique]
  · intro w f hw
    by_cases hwv : w = v
    · exact Or.inr ⟨s.nextTask, by grind⟩
    · exact Or.inr ⟨w, by grind⟩
  · simp

lemma Sound.destruct {v : ℕ} (h : s.Sound) (hv : s.local? v = true) : (s.destruct v).Sound := by
  obtain ⟨hd, hvhome⟩ := local?_iff.1 hv
  refine h.handOver _ s.nextTask _ hd ?_ ?_ ?_ ?_ ?_ ?_
  any_goals simp only [setTask, Function.update_apply, Option.mem_toList]
  · intro u g hu
    have := h.home u g
    have := h.freshTask u g
    grind
  · grind [h.null]
  · intro u f hu
    refine ⟨?_, u, ?_⟩
    · grind [h.unique]
    · grind
  · grind [h.unique]
  · grind
  · refine ⟨by cases (s.tasks v).handle <;> simp, fun f hf => ⟨v, hv, hf⟩⟩

lemma Sound.moveAssign {v w : ℕ} (h : s.Sound) (hv : s.local? v = true) (hw : s.local? w = true) :
    (s.moveAssign v w).Sound := by
  rcases eq_or_ne v w with rfl | hne
  · simpa [Heap.moveAssign] using h
  obtain ⟨hd, hvhome⟩ := local?_iff.1 hv
  obtain ⟨-, hwhome⟩ := local?_iff.1 hw
  simp only [Heap.moveAssign, hne, if_false]
  refine h.handOver _ s.nextTask _ hd ?_ ?_ ?_ ?_ ?_ ?_
  all_goals simp only [setTask, Function.update_apply, Option.mem_toList]
  · intro u g hu
    have := h.home u g
    have := h.freshTask u g
    have := h.home v g
    have := h.freshTask v g
    grind
  · grind [h.null]
  · intro u f hu
    by_cases huv : u = v
    · exact ⟨by grind [h.unique], w, by grind⟩
    · exact ⟨by grind [h.unique], u, by grind⟩
  · grind [h.unique]
  · intro u f hu
    by_cases huw : u = w
    · exact Or.inr ⟨v, by grind⟩
    · by_cases huv : u = v
      · exact Or.inl (by grind)
      · exact Or.inr ⟨u, by grind⟩
  · refine ⟨by cases (s.tasks v).handle <;> simp, fun f hf => ⟨v, hv, hf⟩⟩

lemma touch_of_live {f : ℕ} (h : s.Live f) : s.touch f = s := by
  simp [Heap.touch, h.1, h.2]

lemma Sound.call {arguments : List ℕ} (h : s.Sound) (hd : s.destroying = [])
    (ha : ∀ v ∈ arguments, s.local? v = true) : (s.call arguments).Sound := by
  obtain ⟨rank, hrank⟩ := h.ranked
  have hhome : ∀ v ∈ arguments, (s.tasks v).home = some s.here :=
    fun v hv => (local?_iff.1 (ha v hv)).2
  have hnew : (s.frames s.nextFrame).status = .absent := by
    by_contra hc
    exact lt_irrefl _ (h.freshFrame _ hc)
  have hlive := h.live_here
  have hown : ∀ v f, (s.tasks v).handle = some f → f ≠ s.nextFrame := by
    intro v f hv hf
    have := h.owned v f hv
    have := h.awaiting f
    grind [Status.inProgress]
  have hhere : s.here ≠ s.nextFrame := by
    intro hc
    rw [hc] at hlive
    exact hlive.1 hnew
  refine {
    noFault := h.noFault, freshFrame := ?_, freshTask := ?_, main := ?_, home := ?_,
    null := ?_, owned := ?_, unique := ?_, owner := ?_, doomed := ?_, destroyed := ?_,
    running := ?_, ready := ?_, awaiting := ?_, continuation := ?_, initial := ?_, detached := ?_,
    -- the new frame comes between the caller and the frames of the caller's tasks
    ranked := ⟨fun x => if x = s.nextFrame then 2 * rank s.here + 1 else 2 * rank x, ?_⟩ }
  all_goals simp only [Heap.call, Live, Function.update_apply]
  · intro f hf
    have := h.freshFrame f
    grind
  · intro v g hg
    have := h.freshTask v g
    have := h.freshTask v s.here
    grind
  · have := h.main
    grind
  · intro v g hg
    have := h.home v g
    grind [Live]
  · intro v
    have := h.null v
    grind
  · intro v f hv
    -- the task that is returned, a task moved into the new frame, or one left alone
    by_cases hvn : v = s.nextTask
    · have := h.main
      grind
    by_cases hva : v ∈ arguments
    · have := h.owned v f
      have := hown v f
      have := h.here_running
      have := hhome v hva
      grind
    · have hvf : (s.tasks v).handle = some f := by grind
      obtain ⟨h0, hfd, hdet, hst⟩ := h.owned v f hvf
      have hf := hown v f hvf
      simp only [hvn, hva, hf, if_false]
      refine ⟨h0, hfd, hdet, hst.imp_right (Or.imp_right ?_)⟩
      rintro ⟨g, hg, hga⟩
      refine ⟨g, hg, ?_⟩
      grind
  · intro v w f hv hw
    have := h.unique v w f
    have := hown v f
    have := hown w f
    grind
  · intro f hf h0
    by_cases hfn : f = s.nextFrame
    · exact Or.inr (Or.inr ⟨s.nextTask, by grind⟩)
    · rcases h.owner f (by grind [Live]) h0 with hm | hdet | ⟨v, hv⟩
      · exact Or.inl hm
      · exact Or.inr (Or.inl (by grind))
      · have := h.handle_lt hv
        exact Or.inr (Or.inr ⟨v, by grind⟩)
  · have := h.doomed
    grind
  · have := h.destroyed
    grind
  · intro f
    have := h.running f
    have := h.running s.nextFrame
    grind
  · have := h.ready
    grind
  · intro f g hg
    have := h.awaiting f g
    grind [Status.inProgress]
  · intro f g hf hg
    have := h.continuation f g
    have := h.awaiting f g
    grind [Status.inProgress]
  · intro f
    have := h.initial f
    grind
  · intro f
    have := h.detached f
    grind
  · intro v f g hg hf
    have := hrank v f g
    have := hrank v f s.here
    have := hown v f
    have := h.home v g
    grind [Live]

lemma startable_iff {v : ℕ} : s.startable v = true ↔ s.local? v = true ∧
    ∀ f, (s.tasks v).handle = some f → (s.frames f).status = .initial := by
  cases h : (s.tasks v).handle <;> simp [startable, h]

lemma Sound.detach {v : ℕ} (h : s.Sound) (hv : s.startable v = true) : (s.detach v).Sound := by
  obtain ⟨hl, hinit⟩ := startable_iff.1 hv
  obtain ⟨hd, hvhome⟩ := local?_iff.1 hl
  rw [Heap.detach]
  cases hf : (s.tasks v).handle with
  | none => exact h
  | some f =>
    have hst := hinit f hf
    have hlive : s.Live f := by simp [Live, hst]
    have hcont := (h.initial f hst).1
    have hf0 := (h.owned v f hf).1
    obtain ⟨rank, hrank⟩ := h.ranked
    simp only [touch_of_live hlive]
    refine {
      noFault := h.noFault, freshFrame := ?_, freshTask := ?_, main := ?_, home := ?_,
      null := ?_, owned := ?_, unique := ?_, owner := ?_, doomed := ?_, destroyed := ?_,
      running := ?_, ready := ?_, awaiting := ?_, continuation := ?_, initial := ?_,
      detached := ?_, ranked := ⟨rank, ?_⟩ }
    all_goals simp only [setFrame, setTask, Live, Function.update_apply]
    · intro g hg
      have := h.freshFrame g
      have := h.freshFrame f
      grind
    · intro w g hg
      have := h.freshTask w g
      have := h.freshTask v g
      grind
    · have := h.main
      grind
    · intro w g hg
      have := h.home w g
      have := h.home v g
      grind [Live]
    · intro w
      have := h.null w
      grind
    · intro w g hg
      have := h.owned w g
      have := h.unique v w g
      have := h.unique v w f
      grind
    · intro w u g
      have := h.unique w u g
      grind
    · intro g hg hg0
      have := h.owner g
      grind [Live]
    · have := h.doomed
      grind
    · have := h.destroyed
      grind
    · intro g
      have := h.running g
      grind
    · have := h.ready
      grind [List.nodup_append]
    · intro g r hr
      have := h.awaiting g r
      grind [Status.inProgress]
    · intro g r hg hr
      have := h.continuation g r
      grind [Status.inProgress]
    · intro g
      have := h.initial g
      grind
    · intro g
      have := h.detached g
      grind [Status.inProgress]
    · intro w g r
      have := hrank w g r
      have := hrank v g r
      grind

lemma await_eq {r f : ℕ} (hf : (s.frames f).status = .initial) (hne : f ≠ r) :
    s.await r f = { s with
      frames := fun g =>
        if g = f then { s.frames f with status := .running, continuation := some r }
        else if g = r then { s.frames r with status := .awaiting f }
        else s.frames g
      current := some f } := by
  have hlive : s.Live f := by simp [Live, hf]
  simp only [Heap.await, touch_of_live hlive, resumeFrame]
  rw [if_pos (by simp [setFrame, hne, hf])]
  simp only [setStatus, setFrame, Heap.mk.injEq, and_true]
  funext g
  simp only [Function.update_apply]
  grind

lemma Sound.await {v r f : ℕ} (h : s.Sound) (hv : s.startable v = true) (hr : s.current = some r)
    (hf : (s.tasks v).handle = some f) : (s.await r f).Sound := by
  obtain ⟨hl, hinit⟩ := startable_iff.1 hv
  obtain ⟨hd, hvhome⟩ := local?_iff.1 hl
  have hhere : s.here = r := by simp [here, hr]
  have hst := hinit f hf
  have hrun := h.current_running hr
  have hne : f ≠ r := by
    rintro rfl
    simp [hst] at hrun
  have hf0 := (h.owned v f hf).1
  rw [await_eq hst hne]
  refine {
    noFault := h.noFault, freshFrame := ?_, freshTask := h.freshTask, main := ?_, home := ?_,
    null := h.null, owned := ?_, unique := h.unique, owner := ?_, doomed := ?_, destroyed := ?_,
    running := ?_, ready := ?_, awaiting := ?_, continuation := ?_, initial := ?_,
    detached := ?_, ranked := h.ranked }
  all_goals simp only [Live]
  · intro g hg
    have := h.freshFrame g
    have := h.freshFrame f
    have := h.freshFrame r
    grind
  · have := h.main
    grind
  · intro w g hg
    have := h.home w g hg
    grind [Live]
  · intro w g hg
    have := h.owned w g hg
    have := h.unique v w f
    grind
  · intro g hg hg0
    have := h.owner g
    grind [Live]
  · have := h.doomed
    grind
  · have := h.destroyed
    grind
  · intro g
    have := h.running g
    have := h.main
    grind
  · have := h.ready
    grind
  · intro g x hx
    have := h.awaiting g x
    grind [Status.inProgress]
  · intro g x hg hx
    have := h.continuation g x
    grind [Status.inProgress]
  · intro g
    have := h.initial g
    grind
  · intro g
    have := h.detached g
    grind [Status.inProgress]

lemma complete_none {r : ℕ} (hr : s.Live r) (hc : (s.frames r).continuation = none) :
    s.complete r = { s.setStatus r .final with
      current := none
      destroying := if (s.frames r).detached then [r] else [] } := by
  simp [Heap.complete, hc, touch_of_live hr]

lemma complete_some {r g : ℕ} (hr : s.Live r) (hc : (s.frames r).continuation = some g)
    (hg : (s.frames g).status = .awaiting r) (hne : g ≠ r) :
    s.complete r = { (s.setStatus r .final).setStatus g .running with current := some g } := by
  have hlive : (((s.setStatus r .final).resumeFrame g (.awaiting r))).Live r := by
    simp [Live, resumeFrame, hne, hne.symm, hg]
  simp [Heap.complete, hc, touch_of_live hr, touch_of_live hlive]
  simp [resumeFrame, hne, hg]

lemma Sound.complete {r : ℕ} (h : s.Sound) (hr : s.current = some r) (hd : s.destroying = []) :
    (s.complete r).Sound := by
  have hrun := h.current_running hr
  have hr0 : r ≠ 0 := by
    rintro rfl
    exact h.main.2.2.2.2 hr
  have hlive : s.Live r := by simp [Live, hrun]
  cases hc : (s.frames r).continuation with
  | none =>
    rw [complete_none hlive hc]
    -- nobody awaits it: only its status changes, and a detached frame destroys itself
    refine {
      noFault := h.noFault, freshFrame := ?_, freshTask := h.freshTask, main := ?_, home := ?_,
      null := h.null, owned := ?_, unique := h.unique, owner := ?_, doomed := ?_, destroyed := ?_,
      running := ?_, ready := ?_, awaiting := ?_, continuation := ?_, initial := ?_,
      detached := ?_, ranked := h.ranked }
    all_goals simp only [Live, setStatus_status, setStatus_continuation, setStatus_detached,
      setStatus_nextFrame, setStatus_tasks, setStatus_ready, setStatus_destroyed]
    · intro g hg
      have := h.freshFrame g
      have := h.freshFrame r
      grind
    · have := h.main
      grind
    · intro w g hg
      have := h.home w g hg
      grind [Live]
    · intro w g hg
      have := h.owned w g hg
      have := h.awaiting r
      grind
    · intro g hg hg0
      have := h.owner g
      grind [Live]
    · grind
    · have := h.destroyed
      grind
    · intro g
      have := h.running g
      grind
    · have := h.ready
      grind
    · intro g x hx
      have := h.awaiting g x
      grind [Status.inProgress]
    · intro g x hg hx
      have := h.continuation g x
      grind [Status.inProgress]
    · intro g
      have := h.initial g
      grind
    · intro g
      have := h.detached g
      grind [Status.inProgress]
  | some g =>
    have hg := h.continuation r g (by rw [hrun]; rfl) hc
    have hne : g ≠ r := by
      rintro rfl
      simp [hg] at hrun
    rw [complete_some hlive hc hg hne]
    -- the frame that awaits it runs on in its place, so there is again one that is running
    refine {
      noFault := h.noFault, freshFrame := ?_, freshTask := h.freshTask, main := ?_, home := ?_,
      null := h.null, owned := ?_, unique := h.unique, owner := ?_, doomed := ?_, destroyed := ?_,
      running := ?_, ready := ?_, awaiting := ?_, continuation := ?_, initial := ?_,
      detached := ?_, ranked := h.ranked }
    all_goals simp only [Live, setStatus_status, setStatus_continuation, setStatus_detached,
      setStatus_nextFrame, setStatus_tasks, setStatus_ready, setStatus_destroying,
      setStatus_destroyed]
    · intro x hx
      have := h.freshFrame x
      have := h.freshFrame r
      have := h.freshFrame g
      grind
    · have := h.main
      grind
    · intro w x hx
      have := h.home w x hx
      grind [Live]
    · intro w x hx
      have := h.owned w x hx
      have := h.awaiting r
      grind
    · intro x hx hx0
      have := h.owner x
      grind [Live]
    · have := h.doomed
      grind
    · have := h.destroyed
      grind
    · intro x
      have := h.running x
      have := h.main
      grind
    · have := h.ready
      grind
    · intro x y hy
      have := h.awaiting x y
      grind [Status.inProgress]
    · intro x y hx hy
      have := h.continuation x y
      have := h.awaiting x y
      grind [Status.inProgress]
    · intro x
      have := h.initial x
      grind
    · intro x
      have := h.detached x
      grind [Status.inProgress]

lemma mem_ownedBy {f g : ℕ} (h : s.Sound) :
    g ∈ s.ownedBy f ↔ ∃ v, (s.tasks v).home = some f ∧ (s.tasks v).handle = some g := by
  simp only [ownedBy, List.mem_filterMap, List.mem_range]
  constructor
  · rintro ⟨v, -, hv⟩
    exact ⟨v, by grind⟩
  · rintro ⟨v, hv, hg⟩
    exact ⟨v, h.freshTask v f hv, by simp [hv, hg]⟩

lemma nodup_ownedBy {f : ℕ} (h : s.Sound) : (s.ownedBy f).Nodup := by
  rw [ownedBy, List.nodup_iff_pairwise_ne, List.pairwise_filterMap]
  refine List.nodup_range.imp fun {v w} hne g hg g' hg' heq => hne ?_
  have := h.unique v w g
  grind

lemma Sound.destroyFrame {f : ℕ} {rest : List ℕ} (h : s.Sound) (hd : s.destroying = f :: rest) :
    (s.destroyFrame f rest).Sound := by
  obtain ⟨rank, hrank⟩ := h.ranked
  obtain ⟨hnodup, hdoomed⟩ := h.doomed
  obtain ⟨hf0, hst⟩ := hdoomed f (by simp [hd])
  have hmem := fun g => mem_ownedBy (f := f) (g := g) h
  rw [hd] at hnodup
  rw [Heap.destroyFrame, if_pos hst]
  refine {
    noFault := h.noFault, freshFrame := ?_, freshTask := ?_, main := ?_, home := ?_,
    null := ?_, owned := ?_, unique := ?_, owner := ?_, doomed := ?_, destroyed := ?_,
    running := ?_, ready := ?_, awaiting := ?_, continuation := ?_, initial := ?_,
    detached := ?_, ranked := ⟨rank, ?_⟩ }
  all_goals simp only [Live, setStatus_status, setStatus_continuation, setStatus_detached,
    setStatus_nextFrame, setStatus_ready]
  · intro g hg
    have := h.freshFrame g
    have := h.freshFrame f
    grind
  · intro v g hg
    have := h.freshTask v g
    grind
  · have := h.main
    grind
  · intro v g hg
    have := h.home v g
    grind [Live]
  · intro v
    have := h.null v
    grind
  · intro v g hg
    have := h.owned v g
    have := h.unique v
    grind
  · intro v w g hv hw
    have := h.unique v w g
    grind
  · intro g hg hg0
    -- what the tasks of the frame own is destroyed next
    rcases h.owner g (by grind [Live]) hg0 with hm | hdet | ⟨v, hv⟩
    · refine Or.inl (List.mem_append_right _ ?_)
      grind
    · exact Or.inr (Or.inl hdet)
    · by_cases hvf : (s.tasks v).home = some f
      · exact Or.inl (List.mem_append_left _ ((hmem g).2 ⟨v, hvf, hv⟩))
      · exact Or.inr (Or.inr ⟨v, by simpa [hvf] using hv⟩)
  · refine ⟨List.nodup_append'.2 ⟨nodup_ownedBy h, (List.nodup_cons.1 hnodup).2, ?_⟩, ?_⟩
    · intro g hg hgr
      obtain ⟨v, -, hv⟩ := (hmem g).1 hg
      exact (h.owned v g hv).2.1 (by simp [hd, hgr])
    · intro g hg
      rcases List.mem_append.1 hg with hg | hg
      · obtain ⟨v, hvf, hv⟩ := (hmem g).1 hg
        have := h.owned v g hv
        have := hrank v g f hvf hv
        grind
      · have := hdoomed g
        grind
  · have := h.destroyed
    refine ⟨?_, fun g => ?_⟩
    · have : f ∉ s.destroyed := by grind
      grind [List.nodup_append, setStatus_destroyed]
    · grind [setStatus_destroyed]
  · intro g
    have := h.running g
    grind
  · have := h.ready
    grind
  · intro g x hx
    have := h.awaiting g x
    grind [Status.inProgress]
  · intro g x hg hx
    have := h.continuation g x
    grind [Status.inProgress]
  · intro g
    have := h.initial g
    grind
  · intro g
    have := h.detached g
    grind [Status.inProgress]
  · intro v g x hx hg
    have := hrank v g x
    grind

lemma sound_start : Sound {} where
  noFault := rfl
  freshFrame f hf := by
    by_contra hc
    exact hf (by simp [Nat.ne_of_gt (not_lt.mp hc)])
  freshTask v g hg := by cases hg
  main := ⟨rfl, rfl, rfl, Nat.one_pos, by simp⟩
  home v g hg := by cases hg
  null _ _ := rfl
  owned v f hf := by cases hf
  unique v w f hf := by cases hf
  owner f hf h0 := absurd (by simp [h0]) hf.1
  doomed := by simp
  destroyed := ⟨List.nodup_nil, fun f => by by_cases h0 : f = 0 <;> simp [h0]⟩
  running f := by by_cases h0 : f = 0 <;> simp [h0]
  ready := ⟨List.nodup_nil, fun f => by by_cases h0 : f = 0 <;> simp [h0]⟩
  awaiting f g hg := by by_cases h0 : g = 0 <;> simp [h0] at hg
  continuation f g _ hg := by by_cases h0 : f = 0 <;> simp [h0] at hg
  initial f hf := by by_cases h0 : f = 0 <;> simp [h0] at hf
  detached f hf := by by_cases h0 : f = 0 <;> simp [h0] at hf
  ranked := ⟨id, fun v f g hg => by cases hg⟩

lemma Sound.step {l : Label} (h : s.Sound) (hstep : s.step l = some t) : t.Sound := by
  cases l with
  | call arguments =>
    obtain ⟨⟨hd, ha⟩, ⟨⟩⟩ := Option.ite_none_right_eq_some.mp hstep
    exact h.call hd ha
  | moveConstruct v =>
    obtain ⟨hv, ⟨⟩⟩ := Option.ite_none_right_eq_some.mp hstep
    exact h.moveConstruct hv
  | moveAssign v w =>
    obtain ⟨⟨hv, hw⟩, ⟨⟩⟩ := Option.ite_none_right_eq_some.mp hstep
    exact h.moveAssign hv hw
  | destruct v =>
    obtain ⟨hv, ⟨⟩⟩ := Option.ite_none_right_eq_some.mp hstep
    exact h.destruct hv
  | detach v =>
    obtain ⟨hv, ⟨⟩⟩ := Option.ite_none_right_eq_some.mp hstep
    exact h.detach hv
  | await v =>
    simp only [Heap.step] at hstep
    split at hstep
    · next r f hr hf =>
      obtain ⟨hv, ⟨⟩⟩ := Option.ite_none_right_eq_some.mp hstep
      exact h.await hv hr hf
    · cases hstep
  | park =>
    simp only [Heap.step] at hstep
    split at hstep
    · next r hr hd =>
      cases hstep
      exact h.park hr
    · cases hstep
  | complete =>
    simp only [Heap.step] at hstep
    split at hstep
    · next r hr hd =>
      cases hstep
      exact h.complete hr hd
    · cases hstep
  | schedule f =>
    obtain ⟨⟨hd, hf⟩, ⟨⟩⟩ := Option.ite_none_right_eq_some.mp hstep
    exact h.schedule hf
  | resume =>
    simp only [Heap.step] at hstep
    split at hstep
    · next f ready hc hd hr =>
      cases hstep
      exact h.resume hc hr
    · cases hstep
  | destroy =>
    simp only [Heap.step] at hstep
    split at hstep
    · next f rest hd =>
      cases hstep
      exact h.destroyFrame hd
    · cases hstep

/-- A frame owns another one through a `task` object in it. -/
def Owns (s : Heap) (g f : ℕ) : Prop :=
  ∃ v, (s.tasks v).home = some g ∧ (s.tasks v).handle = some f

/-- What is not owned by a `task` object. -/
def Root (s : Heap) (f : ℕ) : Prop :=
  f = 0 ∨ (s.frames f).detached = true ∨ f ∈ s.destroying

lemma Sound.exists_root (h : s.Sound) {f : ℕ} (hf : s.Live f) :
    ∃ root, s.Live root ∧ s.Root root ∧ Relation.ReflTransGen s.Owns root f := by
  obtain ⟨rank, hrank⟩ := h.ranked
  induction hn : rank f using Nat.strong_induction_on generalizing f with
  | _ n ih =>
    by_cases h0 : f = 0
    · exact ⟨f, hf, Or.inl h0, .refl⟩
    rcases h.owner f hf h0 with hm | hdet | ⟨v, hv⟩
    · exact ⟨f, hf, Or.inr (Or.inr hm), .refl⟩
    · exact ⟨f, hf, Or.inr (Or.inl hdet), .refl⟩
    · cases hg : (s.tasks v).home with
      | none => simp [h.null v hg] at hv
      | some g =>
        obtain ⟨root, hlive, hroot, hpath⟩ :=
          ih (rank g) (hn ▸ hrank v f g hg hv) (h.home v g hg) rfl
        exact ⟨root, hlive, hroot, hpath.tail ⟨v, hg, hv⟩⟩

/-- **Frames have one owner**: however coroutines create, move, assign, destroy, detach and await
tasks, no frame is resumed, accessed or destroyed out of turn, and none is destroyed twice or still
referred to after that. Every frame that is left is owned by one other at most, and is owned in the
end by the code outside of all frames, a detached coroutine or a destruction in progress: when that
code has no more tasks, and every detached coroutine has come to its end, no frame is left. -/
theorem frames_owned (labels : List Label) (s : Heap) (hrun : run step {} labels = some s) :
    s.fault = false ∧ s.destroyed.Nodup ∧
      (∀ f ∈ s.destroyed, f ∉ s.ready ∧ s.current ≠ some f ∧ (∀ g, ¬ s.Owns g f) ∧
        ∀ g, (s.frames g).status.inProgress = true → (s.frames g).continuation ≠ some f) ∧
      (∀ g g' f, s.Owns g f → s.Owns g' f → g = g') ∧
      (∀ f, s.Live f →
        ∃ root, s.Live root ∧ s.Root root ∧ Relation.ReflTransGen s.Owns root f) ∧
      ((∀ f, s.Root f → s.Live f → f = 0) → (∀ f, ¬ s.Owns 0 f) → ∀ f, s.Live f → f = 0) := by
  have h : s.Sound := invariant_of_step (fun _ _ _ hs hstep => hs.step hstep) sound_start hrun
  refine ⟨h.noFault, h.destroyed.1, fun f hf => ?_, ?_, fun f => h.exists_root, ?_⟩
  · have hst := (h.destroyed.2 f).1 hf
    refine ⟨?_, ?_, ?_, ?_⟩
    · simp [h.ready.2, hst]
    · intro hc
      simp [h.current_running hc] at hst
    · rintro g ⟨v, -, hv⟩
      have := h.owned v f hv
      have := h.awaiting f
      grind [Status.inProgress]
    · intro g hg hc
      simp [h.continuation g f hg hc] at hst
  · rintro g g' f ⟨v, hg, hv⟩ ⟨w, hg', hw⟩
    obtain rfl := h.unique v w f hv hw
    exact Option.some.inj (hg.symm.trans hg')
  · intro hroots hzero f hf
    obtain ⟨root, hlive, hroot, hpath⟩ := h.exists_root hf
    rw [hroots root hroot hlive] at hpath
    rcases hpath.cases_head with rfl | ⟨g, hg, -⟩
    · rfl
    · exact absurd hg (hzero g)

/-- A detached coroutine awaits another one, which leaves a task behind that is never started. -/
def unstartedRun : List Label :=
  [.call [], .detach 0, .destruct 0, .resume, .call [], .await 1, .call [], .complete, .destruct 1,
    .destroy, .destroy, .complete, .destroy]

/-- The three frames are destroyed, the one that has not been started together with its owner. -/
theorem frames_owned_unstarted :
    let s := reached step {} unstartedRun
    s.destroyed = [2, 3, 1] ∧ s.fault = false ∧ s.destroyed.Nodup ∧
      (∀ f ∈ s.destroyed, f ∉ s.ready ∧ s.current ≠ some f ∧ (∀ g, ¬ s.Owns g f) ∧
        ∀ g, (s.frames g).status.inProgress = true → (s.frames g).continuation ≠ some f) ∧
      (∀ g g' f, s.Owns g f → s.Owns g' f → g = g') ∧
      (∀ f, s.Live f →
        ∃ root, s.Live root ∧ s.Root root ∧ Relation.ReflTransGen s.Owns root f) ∧
      ((∀ f, s.Root f → s.Live f → f = 0) → (∀ f, ¬ s.Owns 0 f) → ∀ f, s.Live f → f = 0) :=
  ⟨by decide +kernel, frames_owned unstartedRun _ (run_eq_reached (by decide +kernel))⟩

end Heap

end Frames

end Agner
