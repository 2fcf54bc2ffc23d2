import Agner.Foundations.Locking
import Agner.Foundations.Runs
import Agner.GenServer.System
import Agner.Supervisor.System

/-!
`actor_mutex_` on the multi-threaded scheduler: any number of actors and of threads.

A visitor is run inside the section that found its message, so with the mutex of its actor held,
and what it sends or stops is delivered by the same thread: `enqueue_message` and `stop` of the
target lock the target's mutex and may run the target's visitor in turn. `send` and
`MtScheduler::stop` release `base_mutex_` before they deliver. Handles are passed to `schedule`
after a section and never resumed in it.

* `Receive`, `Program`: the receives an actor may execute, each with its visitors and the calls
  these may make. What a visitor calls, how often and in which order is left open; it may return
  or raise at any time.
* `Guarded`: the sections guarded by `actor_mutex_`. A thread that holds no mutex may deliver to
  any actor, run a coroutine that receives, or run the callback of a timeout.
* `Calls`: some visitor of the one actor may call the other.
* `deadlock_free_iff`: no thread ever wants a mutex it holds and no threads wait for each other
  in a circle, in any run, if and only if `Calls` has no cycle.
-/

namespace Agner.Locks

open Relation Runs

/-- A worker thread, the calling thread of `run`, or a thread of the user. -/
abbrev Thread := ℕ

/-- What a visitor may call. -/
inductive Call (M : Type) where
  | send (target : ActorRef) (m : Message M)
  /-- `scheduler().stop(target, reason)`. -/
  | stop (target : ActorRef) (reason : ExitReason)
  /-- `this->stop(reason)`. -/
  | stopSelf (reason : ExitReason)

/-- A call of `receive` or `try_receive`: its visitors, and what the visitor that is run on a
message may call. -/
structure Receive (M : Type) where
  visitors : List (Visitor M)
  calls : Message M → Call M → Bool

/-- The receives of every actor, each under an index that stands for the place in the code and
the data its visitors capture. -/
abbrev Program (M ι : Type) := ActorRef → ι → Receive M

/-- The sections guarded by `actor_mutex_`. -/
inductive Guarded (M ι : Type) where
  | enqueueMessage (m : Message M)
  | stop (reason : ExitReason)
  | awaitReady (receive : ι)
  | awaitSuspend (receive : ι)
  /-- The section of the callback of a timeout, which resets `pending_`. -/
  | reset

/-- How far the coroutine of an actor has come. -/
inductive Coroutine (ι : Type) where
  | unborn
  | running
  /-- In `await_ready` or `await_suspend`. -/
  | busy
  /-- `await_ready` found no message. -/
  | missed (receive : ι)
  | suspended
  | ended

variable {M ι : Type}

/-- The actor is registered. -/
def Coroutine.registered : Coroutine ι → Bool
  | .unborn | .ended => false
  | _ => true

/-- `Actor`. -/
structure ActorState (M ι : Type) where
  mutex : Option Thread := none
  mailbox : List (Message M) := []
  pending : Option ι := none
  coroutine : Coroutine ι := .unborn

/-- A visitor that is running: its receive, and the message with its position in the mailbox. -/
structure Visit (M ι : Type) where
  receive : ι
  position : ℕ
  message : Message M

/-- A section a thread is in. -/
structure Frame (M ι : Type) where
  actor : ActorRef
  guarded : Guarded M ι
  visit : Option (Visit M ι)
  matched : Bool := false

/-- The sections a thread is in, the innermost first, and the one it waits to enter. -/
structure ThreadState (M ι : Type) where
  frames : List (Frame M ι) := []
  wants : Option (ActorRef × Guarded M ι) := none

/-- The actors and the threads. -/
structure State (M ι : Type) where
  actors : ActorRef → ActorState M ι := fun _ => {}
  threads : Thread → ThreadState M ι := fun _ => {}

/-- One access of one thread. -/
inductive Label (M ι : Type) where
  | spawn (a : ActorRef)
  /-- The coroutine of the actor completes. -/
  | exit (a : ActorRef)
  /-- `send` called outside of all sections. -/
  | send (t : Thread) (target : ActorRef) (m : Message M)
  | stop (t : Thread) (target : ActorRef) (reason : ExitReason)
  | awaitReady (t : Thread) (a : ActorRef) (receive : ι)
  | awaitSuspend (t : Thread) (a : ActorRef)
  /-- The callback of a timeout has run the timeout visitor; which are armed is left open. -/
  | expire (t : Thread) (a : ActorRef)
  /-- The mutex that the thread wants is free. -/
  | acquire (t : Thread)
  /-- The visitor that the thread runs calls `send` or `stop`. -/
  | call (t : Thread) (c : Call M)
  /-- The visitor returns. -/
  | finish (t : Thread)
  /-- The visitor raises, and with it the section. -/
  | raise (t : Thread)
  /-- The section is over. -/
  | release (t : Thread)

/-! ### Sections -/

/-- `try_match_mailbox`: the oldest message that one of the visitors accepts. -/
def tryMatchMailbox (receive : Receive M) (index : ι) (mailbox : List (Message M)) :
    Option (Visit M ι) :=
  (mailbox.find? (tryMatchVisitors receive.visitors)).map fun m =>
    { receive := index, position := mailbox.findIdx (tryMatchVisitors receive.visitors),
      message := m }

/-- It is the search of `Mailbox`, with the message that is found there. -/
lemma tryMatchMailbox_eq (receive : Receive M) (index : ι) (mailbox : List (Envelope M)) :
    tryMatchMailbox receive index (mailbox.map Envelope.body) =
      (Agner.tryMatchMailbox receive.visitors mailbox).bind fun position =>
        mailbox[position]?.map fun e =>
          { receive := index, position := position, message := e.body } := by
  cases h : Agner.tryMatchMailbox receive.visitors mailbox with
  | none =>
      have hnone := tryMatchMailbox_eq_none.mp h
      simpa [tryMatchMailbox] using hnone
  | some position =>
      obtain ⟨older, e, newer, rfl, rfl, hacc, hbefore⟩ := tryMatchMailbox_eq_some h
      have hskip : older.find? (tryMatchVisitors receive.visitors ∘ Envelope.body) = none := by
        simpa using hbefore
      have hlength : older.findIdx (tryMatchVisitors receive.visitors ∘ Envelope.body) =
          older.length := List.findIdx_eq_length_of_false hbefore
      rw [tryMatchMailbox, List.find?_map, List.findIdx_map, List.find?_append, hskip,
        List.findIdx_append, hlength, if_neg (lt_irrefl _)]
      simp [hacc, List.findIdx_cons]

/-- `notify_waiter_locked`, up to the visitor. -/
def notifyWaiterLocked (P : Program M ι) (a : ActorRef) (x : ActorState M ι) :
    ActorState M ι × Option (Visit M ι) :=
  match x.pending with
  | none => (x, none)
  | some i =>
      match tryMatchMailbox (P a i) i x.mailbox with
      | none => (x, none)
      | some v => ({ x with pending := none }, some v)

/-- What a section does until it is over or runs a visitor. -/
def Guarded.perform (P : Program M ι) (a : ActorRef) (x : ActorState M ι) :
    Guarded M ι → ActorState M ι × Option (Visit M ι)
  | .enqueueMessage m => notifyWaiterLocked P a { x with mailbox := x.mailbox ++ [m] }
  | .stop reason =>
      notifyWaiterLocked P a { x with mailbox := x.mailbox ++ [.signal (.exit a reason)] }
  | .awaitReady i => (x, tryMatchMailbox (P a i) i x.mailbox)
  | .awaitSuspend i => ({ x with pending := some i }, none)
  | .reset => ({ x with pending := none }, none)

/-- The coroutine once the section is over. A handle that is scheduled resumes it. -/
def Guarded.leave (matched : Bool) (c : Coroutine ι) : Guarded M ι → Coroutine ι
  | .enqueueMessage _ | .stop _ => if matched then .running else c
  | .awaitReady i => if matched then .running else .missed i
  | .awaitSuspend _ => .suspended
  | .reset =>
      match c with
      | .suspended => .running
      | c => c

/-- The coroutine once a visitor has raised: the exception of `await_ready` reaches it. -/
def Guarded.raised (c : Coroutine ι) : Guarded M ι → Coroutine ι
  | .awaitReady _ => .running
  | _ => c

/-- The actor whose mutex the call locks. -/
def Call.target (self : ActorRef) : Call M → ActorRef
  | .send target _ => target
  | .stop target _ => target
  | .stopSelf _ => self

/-- The section the call enters. -/
def Call.guarded : Call M → Guarded M ι
  | .send _ m => .enqueueMessage m
  | .stop _ reason => .stop reason
  | .stopSelf reason => .stop reason

/-- The call finds its target: `send` returns and `MtScheduler::stop` raises if the target is not
registered, and `this->stop` does not ask. -/
def Call.finds (s : State M ι) : Call M → Bool
  | .send target _ => (s.actors target).coroutine.registered
  | .stop target _ => (s.actors target).coroutine.registered
  | .stopSelf _ => true

/-! ### Steps -/

namespace State

/-- The actor is in another state. -/
def setActor (s : State M ι) (a : ActorRef) (x : ActorState M ι) : State M ι :=
  { s with actors := Function.update s.actors a x }

/-- The thread is in another state. -/
def setThread (s : State M ι) (t : Thread) (y : ThreadState M ι) : State M ι :=
  { s with threads := Function.update s.threads t y }

/-- A thread that is in no section starts to wait for one of `a`. -/
def enter (s : State M ι) (t : Thread) (a : ActorRef) (g : Guarded M ι) : Option (State M ι) :=
  match s.threads t with
  | { frames := [], wants := none } => some (s.setThread t { wants := some (a, g) })
  | _ => none

end State

/-- One step; `none` if the label is not enabled. -/
def step (P : Program M ι) (s : State M ι) : Label M ι → Option (State M ι)
  | .spawn a =>
      match (s.actors a).coroutine with
      | .unborn => some (s.setActor a { s.actors a with coroutine := .running })
      | _ => none
  | .exit a =>
      match (s.actors a).coroutine with
      | .running => some (s.setActor a { s.actors a with coroutine := .ended })
      | _ => none
  | .send t target m =>
      if (s.actors target).coroutine.registered then s.enter t target (.enqueueMessage m)
      else none
  | .stop t target reason =>
      if (s.actors target).coroutine.registered then s.enter t target (.stop reason) else none
  | .awaitReady t a i =>
      match (s.actors a).coroutine with
      | .running => (s.setActor a { s.actors a with coroutine := .busy }).enter t a (.awaitReady i)
      | _ => none
  | .awaitSuspend t a =>
      match (s.actors a).coroutine with
      | .missed i =>
          (s.setActor a { s.actors a with coroutine := .busy }).enter t a (.awaitSuspend i)
      | _ => none
  | .expire t a => s.enter t a .reset
  | .acquire t =>
      match (s.threads t).wants with
      | some (a, g) =>
          if (s.actors a).mutex.isNone then
            let r := g.perform P a (s.actors a)
            some ((s.setActor a { r.1 with mutex := some t }).setThread t
              { frames := { actor := a, guarded := g, visit := r.2 } :: (s.threads t).frames })
          else none
      | none => none
  | .call t c =>
      match s.threads t with
      | { frames := f :: fs, wants := none } =>
          match f.visit with
          | some v =>
              if (P f.actor v.receive).calls v.message c then
                if c.finds s then
                  some (s.setThread t
                    { frames := f :: fs, wants := some (c.target f.actor, c.guarded) })
                else some s
              else none
          | none => none
      | _ => none
  | .finish t =>
      match s.threads t with
      | { frames := f :: fs, wants := none } =>
          match f.visit with
          | some v =>
              let x := s.actors f.actor
              let x' := { x with mailbox := x.mailbox.eraseIdx v.position }
              some ((s.setActor f.actor x').setThread t
                { frames := { f with visit := none, matched := true } :: fs })
          | none => none
      | _ => none
  | .raise t =>
      match s.threads t with
      | { frames := f :: fs, wants := none } =>
          match f.visit with
          | some _ =>
              let x := s.actors f.actor
              let x' := { x with mutex := none, coroutine := f.guarded.raised x.coroutine }
              some ((s.setActor f.actor x').setThread t { frames := fs })
          | none => none
      | _ => none
  | .release t =>
      match s.threads t with
      | { frames := f :: fs, wants := none } =>
          match f.visit with
          | some _ => none
          | none =>
              let x := s.actors f.actor
              let x' :=
                { x with mutex := none, coroutine := f.guarded.leave f.matched x.coroutine }
              some ((s.setActor f.actor x').setThread t { frames := fs })
      | _ => none

/-! ### The locks -/

/-- Some visitor of `a` may call `b`. -/
def Calls (P : Program M ι) (a b : ActorRef) : Prop :=
  ∃ i m c, tryMatchVisitors (P a i).visitors m = true ∧ (P a i).calls m c = true ∧
    c.target a = b

/-- The mutexes, as locks that threads take and want. -/
def State.locks (s : State M ι) : Locking ActorRef Thread where
  holder a := (s.actors a).mutex
  stack t := (s.threads t).frames.map Frame.actor
  wants t := (s.threads t).wants.map Prod.fst

/-- The thread waits for a mutex that it holds itself. -/
def State.Reenters (s : State M ι) (t : Thread) : Prop := s.locks.WaitsFor t t

/-- No thread tries to acquire a mutex it already holds, and no threads hold mutexes that the
others wait for in a circle. -/
def State.DeadlockFree (s : State M ι) : Prop :=
  (∀ t, ¬ s.Reenters t) ∧ ∀ t, ¬ TransGen s.locks.WaitsFor t t

/-- Visitors run on messages they accept. -/
def Accepting (P : Program M ι) (s : State M ι) : Prop :=
  ∀ t, ∀ f ∈ (s.threads t).frames, ∀ v, f.visit = some v →
    tryMatchVisitors (P f.actor v.receive).visitors v.message = true

variable {P : Program M ι} {s s' : State M ι} {t : Thread} {a : ActorRef}

@[simp] lemma locks_setActor (x : ActorState M ι) :
    (s.setActor a x).locks =
      { s.locks with holder := Function.update s.locks.holder a x.mutex } := by
  simp only [State.locks, State.setActor, Locking.mk.injEq, and_true]
  funext b
  simp only [Function.update_apply]
  split <;> rfl

@[simp] lemma locks_setThread (y : ThreadState M ι) :
    (s.setThread t y).locks =
      { s.locks with
        stack := Function.update s.locks.stack t (y.frames.map Frame.actor)
        wants := Function.update s.locks.wants t (y.wants.map Prod.fst) } := by
  simp only [State.locks, State.setThread, Locking.mk.injEq, true_and]
  constructor
  all_goals
    funext t'
    simp only [Function.update_apply]
    split <;> rfl

/-- An update that keeps the mutex changes no lock. -/
lemma locks_setActor_of_mutex {x : ActorState M ι} (h : x.mutex = (s.actors a).mutex) :
    (s.setActor a x).locks = s.locks := by
  rw [locks_setActor, h]
  exact congrArg (fun holder => { s.locks with holder := holder }) (Function.update_eq_self a _)

lemma Accepting.setActor (h : Accepting P s) (x : ActorState M ι) :
    Accepting P (s.setActor a x) := h

/-- Only the new frames of the thread have to be looked at. -/
lemma Accepting.setThread (h : Accepting P s) {y : ThreadState M ι}
    (hy : ∀ f ∈ y.frames, f ∈ (s.threads t).frames ∨ ∀ v, f.visit = some v →
      tryMatchVisitors (P f.actor v.receive).visitors v.message = true) :
    Accepting P (s.setThread t y) := by
  intro t' f hf v hv
  by_cases ht : t' = t
  · subst ht
    rcases hy f (by simpa [State.setThread] using hf) with hold | hnew
    · exact h t' f hold v hv
    · exact hnew v hv
  · exact h t' f (by simpa [State.setThread, ht] using hf) v hv

/-- The search stops at a message that is accepted. -/
lemma accepts_of_tryMatchMailbox {receive : Receive M} {i : ι} {mailbox : List (Message M)}
    {v : Visit M ι} (h : tryMatchMailbox receive i mailbox = some v) :
    v.receive = i ∧ tryMatchVisitors receive.visitors v.message = true := by
  obtain ⟨m, hm, rfl⟩ := Option.map_eq_some_iff.mp h
  exact ⟨rfl, List.find?_some hm⟩

lemma accepts_of_notifyWaiterLocked {x : ActorState M ι} {v : Visit M ι}
    (h : (notifyWaiterLocked P a x).2 = some v) :
    tryMatchVisitors (P a v.receive).visitors v.message = true := by
  rw [notifyWaiterLocked] at h
  split at h
  · cases h
  · split at h
    · cases h
    · rename_i i _ w hw
      obtain rfl := Option.some.inj h
      obtain ⟨hi, hacc⟩ := accepts_of_tryMatchMailbox hw
      rwa [hi]

/-- A section runs a visitor only on a message it accepts. -/
lemma accepts_of_perform {x : ActorState M ι} {v : Visit M ι} {g : Guarded M ι}
    (h : (g.perform P a x).2 = some v) :
    tryMatchVisitors (P a v.receive).visitors v.message = true := by
  cases g with
  | enqueueMessage m => exact accepts_of_notifyWaiterLocked h
  | stop reason => exact accepts_of_notifyWaiterLocked h
  | awaitReady i =>
      obtain ⟨hi, hacc⟩ := accepts_of_tryMatchMailbox h
      rwa [hi]
  | awaitSuspend i => cases h
  | reset => cases h

/-! ### What a step does to the locks -/

/-- Every frame of the thread is an old one or runs no visitor. -/
lemma Accepting.pop (h : Accepting P s) {f : Frame M ι} {fs : List (Frame M ι)}
    {w : Option (ActorRef × Guarded M ι)} (hframes : (s.threads t).frames = f :: fs) :
    Accepting P (s.setThread t { frames := fs, wants := w }) :=
  h.setThread fun g hg => Or.inl (by rw [hframes]; exact List.mem_cons_of_mem f hg)

/-- A thread outside of all sections may want any mutex. -/
lemma moves_enter {g : Guarded M ι} (hacc : Accepting P s) (h : s.enter t a g = some s') :
    Locking.Moves (Calls P) s.locks s'.locks ∧ Accepting P s' := by
  rw [State.enter] at h
  split at h
  · rename_i heq
    obtain rfl := Option.some.inj h
    refine ⟨?_, hacc.setThread fun f hf => by cases hf⟩
    have hstack : s.locks.stack t = [] := by simp [State.locks, heq]
    have hwants : s.locks.wants t = none := by simp [State.locks, heq]
    have hmove : Locking.Moves (Calls P) s.locks _ :=
      Locking.Moves.want s.locks t a hwants (by simp [hstack])
    rw [locks_setThread, List.map_nil, ← hstack, Function.update_eq_self]
    exact hmove
  · cases h

/-- Locks of a thread with its innermost section. -/
lemma locks_of_frames {f : Frame M ι} {fs : List (Frame M ι)}
    (h : s.threads t = { frames := f :: fs, wants := none }) :
    s.locks.stack t = f.actor :: fs.map Frame.actor ∧ s.locks.wants t = none := by
  simp [State.locks, h]

/-- A section is left: its mutex is released and the sections around it remain. -/
lemma moves_leave {f : Frame M ι} {fs : List (Frame M ι)} {x : ActorState M ι}
    (hacc : Accepting P s) (h : s.threads t = { frames := f :: fs, wants := none })
    (hx : x.mutex = none) :
    Locking.Moves (Calls P) s.locks ((s.setActor f.actor x).setThread t { frames := fs }).locks ∧
      Accepting P ((s.setActor f.actor x).setThread t { frames := fs }) := by
  obtain ⟨hstack, hwants⟩ := locks_of_frames h
  refine ⟨?_, (hacc.setActor x).pop (by rw [State.setActor, h])⟩
  have hkeep : Function.update s.locks.wants t none = s.locks.wants :=
    Function.update_eq_self_iff.mpr hwants.symm
  have hmove : Locking.Moves (Calls P) s.locks _ :=
    Locking.Moves.release s.locks t f.actor _ hstack
  rw [locks_setThread, locks_setActor, hx, Option.map_none, hkeep]
  exact hmove

/-- Every step is a move of the thread that takes it. -/
lemma moves_of_step {l : Label M ι} (hacc : Accepting P s) (h : step P s l = some s') :
    Locking.Moves (Calls P) s.locks s'.locks ∧ Accepting P s' := by
  cases l with
  | spawn a | exit a =>
      simp only [step] at h
      split at h
      · obtain rfl := Option.some.inj h
        rw [locks_setActor_of_mutex]
        · exact ⟨.stay _, hacc⟩
        · rfl
      · cases h
  | send t target m | stop t target reason =>
      simp only [step] at h
      split at h
      · exact moves_enter hacc h
      · cases h
  | awaitReady t a i | awaitSuspend t a =>
      simp only [step] at h
      split at h
      · rw [← locks_setActor_of_mutex (s := s) (a := a)
          (x := { s.actors a with coroutine := .busy }) rfl]
        exact moves_enter (hacc.setActor _) h
      · cases h
  | expire t a => exact moves_enter hacc h
  -- the only step that takes a mutex
  | acquire t =>
      simp only [step] at h
      split at h
      · rename_i a g hwants
        split at h
        · rename_i hfree
          obtain rfl := Option.some.inj h
          refine ⟨?_, Accepting.setThread (hacc.setActor _) fun f hf => ?_⟩
          · have hmove : Locking.Moves (Calls P) s.locks _ :=
              Locking.Moves.acquire s.locks t a (by simp [State.locks, hwants])
                (Option.isNone_iff_eq_none.mp hfree)
            rw [locks_setThread, locks_setActor]
            exact hmove
          · rcases List.mem_cons.mp hf with rfl | hf
            · exact Or.inr fun v hv => accepts_of_perform hv
            · exact Or.inl hf
        · cases h
      · cases h
  | call t c =>
      simp only [step] at h
      split at h
      · rename_i f fs heq
        split at h
        · rename_i v hv
          split at h
          · rename_i hcall
            split at h
            · -- the visitor wants the mutex of the actor it calls
              obtain rfl := Option.some.inj h
              obtain ⟨hstack, hwants⟩ := locks_of_frames heq
              have hf : f ∈ (s.threads t).frames := by simp [heq]
              have hcalls : Calls P f.actor (c.target f.actor) :=
                ⟨v.receive, v.message, c, hacc t f hf v hv, hcall, rfl⟩
              refine ⟨?_, hacc.setThread fun g hg => Or.inl (by simpa [heq] using hg)⟩
              have hmove := Locking.Moves.want s.locks t (c.target f.actor) hwants
                (by simpa [hstack] using hcalls)
              rw [locks_setThread, List.map_cons, ← hstack, Function.update_eq_self]
              exact hmove
            · obtain rfl := Option.some.inj h
              exact ⟨.stay _, hacc⟩
          · cases h
        · cases h
      · cases h
  -- the section goes on without its visitor, and ends with `raise` or `release`
  | finish t =>
      simp only [step] at h
      split at h
      · rename_i f fs heq
        split at h
        · obtain rfl := Option.some.inj h
          obtain ⟨hstack, hwants⟩ := locks_of_frames heq
          refine ⟨?_, Accepting.setThread (hacc.setActor _) fun g hg => ?_⟩
          · rw [locks_setThread, locks_setActor_of_mutex, List.map_cons, ← hstack,
              Function.update_eq_self, Option.map_none, ← hwants, Function.update_eq_self]
            · exact .stay _
            · rfl
          · rcases List.mem_cons.mp hg with rfl | hg
            · exact Or.inr fun v hv => by cases hv
            · exact Or.inl (by simpa [State.setActor, heq] using Or.inr hg)
        · cases h
      · cases h
  | raise t =>
      simp only [step] at h
      split at h
      · rename_i f fs heq
        split at h
        · obtain rfl := Option.some.inj h
          exact moves_leave hacc heq rfl
        · cases h
      · cases h
  | release t =>
      simp only [step] at h
      split at h
      · rename_i f fs heq
        split at h
        · cases h
        · obtain rfl := Option.some.inj h
          exact moves_leave hacc heq rfl
      · cases h

/-- In every run the mutexes are taken along calls. -/
lemma nested_of_run {ls : List (Label M ι)} (h : run (step P) {} ls = some s) :
    s.locks.Nested (Calls P) := by
  have hstart : Locking.Nested (Calls P) (State.locks ({} : State M ι)) :=
    ⟨nofun, nofun, fun _ => List.nodup_nil, fun _ => List.Pairwise.nil, nofun⟩
  refine (invariant_of_step (P := fun s => s.locks.Nested (Calls P) ∧ Accepting P s)
    ?_ ⟨hstart, nofun⟩ h).1
  rintro u l u' ⟨hnested, hacc⟩ hu
  obtain ⟨hmove, hacc'⟩ := moves_of_step hacc hu
  exact ⟨hnested.moves hmove, hacc'⟩

/-! ### Following a cycle -/

/-- The actor has missed `m` and is suspended in the receive `i`. -/
def laidOut (i : ι) (m : Message M) : ActorState M ι :=
  { mailbox := [m], pending := some i, coroutine := .suspended }

/-- The actor `b` is spawned and starts to receive; `m` arrives after the search of the mailbox
and before `pending_` is set. -/
def layOut (b : ActorRef) (i : ι) (m : Message M) : List (Label M ι) :=
  [Label.spawn b, Label.awaitReady 1 b i, Label.acquire 1, Label.release 1] ++
    [Label.send 1 b m, Label.acquire 1, Label.release 1] ++
    [Label.awaitSuspend 1 b, Label.acquire 1, Label.release 1]

/-- A section that runs no visitor. -/
lemma run_section {g : Guarded M ι} {x y z : ActorState M ι} (hidle : s.threads 1 = {})
    (hfree : x.mutex = none) (hperform : g.perform P a x = (y, none))
    (hleave : { y with mutex := none, coroutine := g.leave false y.coroutine } = z) :
    run (step P) ((s.setActor a x).setThread 1 { wants := some (a, g) }) [.acquire 1, .release 1] =
      some (s.setActor a z) := by
  have hthreads : Function.update s.threads 1 {} = s.threads := by
    rw [← hidle, Function.update_eq_self]
  simp [run_cons, step, State.setActor, State.setThread, hfree, hperform, hthreads, ← hleave]

lemma run_layOut {b : ActorRef} {i : ι} {m : Message M} (hb : s.actors b = {})
    (hidle : s.threads 1 = {}) :
    run (step P) s (layOut b i m) = some (s.setActor b (laidOut i m)) := by
  have hspawn : step P s (.spawn b) = some (s.setActor b { coroutine := .running }) := by
    simp [step, hb]
  have hready : step P (s.setActor b { coroutine := .running }) (.awaitReady 1 b i) =
      some ((s.setActor b { coroutine := .busy }).setThread 1
        { wants := some (b, .awaitReady i) }) := by
    simp [step, State.setActor, State.enter, hidle]
  have hsend : step P (s.setActor b { coroutine := .missed i }) (.send 1 b m) =
      some ((s.setActor b { coroutine := .missed i }).setThread 1
        { wants := some (b, .enqueueMessage m) }) := by
    simp [step, State.setActor, State.enter, hidle, Coroutine.registered]
  have hsuspend : step P (s.setActor b { mailbox := [m], coroutine := .missed i })
      (.awaitSuspend 1 b) = some ((s.setActor b { mailbox := [m], coroutine := .busy }).setThread 1
        { wants := some (b, .awaitSuspend i) }) := by
    simp [step, State.setActor, State.enter, hidle]
  have hmissed : run (step P) ((s.setActor b { coroutine := .busy }).setThread 1
      { wants := some (b, .awaitReady i) }) [.acquire 1, .release 1] =
      some (s.setActor b { coroutine := .missed i }) := run_section hidle rfl rfl rfl
  have hqueued : run (step P) ((s.setActor b { coroutine := .missed i }).setThread 1
      { wants := some (b, .enqueueMessage m) }) [.acquire 1, .release 1] =
      some (s.setActor b { mailbox := [m], coroutine := .missed i }) :=
    run_section hidle rfl rfl rfl
  have hsuspended : run (step P) ((s.setActor b { mailbox := [m], coroutine := .busy }).setThread 1
      { wants := some (b, .awaitSuspend i) }) [.acquire 1, .release 1] =
      some (s.setActor b (laidOut i m)) := run_section hidle rfl rfl rfl
  rw [layOut, run_append, run_append, run_cons, hspawn, Option.bind_some, run_cons, hready,
    Option.bind_some, hmissed, Option.bind_some, run_cons, hsend, Option.bind_some, hqueued,
    Option.bind_some, run_cons, hsuspend, Option.bind_some, hsuspended]

/-- The first thread runs a visitor of `a` in the receive `i` on the message `m`. -/
def Visiting (s : State M ι) (a : ActorRef) (i : ι) (m : Message M) : Prop :=
  ∃ f fs v, s.threads 0 = { frames := f :: fs } ∧ f.actor = a ∧ f.visit = some v ∧
    v.receive = i ∧ v.message = m

/-- The first thread runs a visitor of `a`, the second is idle, and every actor is either not
spawned yet or suspended with its mutex held by the first. -/
structure Climbing (s : State M ι) (a : ActorRef) (i : ι) (m : Message M) : Prop where
  visiting : Visiting s a i m
  idle : s.threads 1 = {}
  touched : ∀ b, s.actors b = {} ∨
    ((s.actors b).mutex = some 0 ∧ (s.actors b).coroutine = .suspended)

section Climbing

variable {b : ActorRef} {i j : ι} {m m' : Message M} {c : Call M}

/-- The visitor makes its call. -/
lemma Visiting.step_call (h : Visiting s a i m) (hcall : (P a i).calls m c = true)
    (htarget : c.target a = b) (hb : (s.actors b).coroutine = .suspended) :
    ∃ fs, step P s (.call 0 c) =
      some (s.setThread 0 { frames := fs, wants := some (b, c.guarded) }) := by
  obtain ⟨f, fs, v, hthread, rfl, hv, rfl, rfl⟩ := h
  have hregistered : (s.actors (c.target f.actor)).coroutine.registered = true := by
    rw [htarget, hb]
    rfl
  have hfinds : c.finds s = true := by
    cases c with
    | send _ _ | stop _ _ => exact hregistered
    | stopSelf reason => rfl
  refine ⟨f :: fs, ?_⟩
  simp [step, hthread, hv, hcall, hfinds, htarget]

/-- A call of an actor whose mutex the thread holds. -/
lemma Climbing.reenters (h : Climbing s a i m) (hcall : (P a i).calls m c = true)
    (htarget : c.target a = b) (hb : (s.actors b).mutex = some 0) :
    ∃ ls u, run (step P) s ls = some u ∧ u.Reenters 0 := by
  have hsuspended : (s.actors b).coroutine = .suspended := by
    rcases h.touched b with hfresh | ⟨-, hsuspended⟩
    · rw [hfresh] at hb
      cases hb
    · exact hsuspended
  obtain ⟨fs, hstep⟩ := h.visiting.step_call hcall htarget hsuspended
  refine ⟨[.call 0 c], _, by rw [run_cons, hstep]; rfl, b, ?_, ?_⟩
  · simp [State.locks, State.setThread]
  · exact hb

/-- A call of an actor that has been laid out runs its visitor on the message it missed. -/
lemma perform_laidOut (hacc : tryMatchVisitors (P b j).visitors m' = true) :
    ((c.guarded : Guarded M ι).perform P b (laidOut j m')).1.coroutine = .suspended ∧
      ((c.guarded : Guarded M ι).perform P b (laidOut j m')).2 =
        some { receive := j, position := 0, message := m' } := by
  cases c with
  | send _ _ | stop _ _ | stopSelf _ =>
      simp [Call.guarded, Guarded.perform, notifyWaiterLocked, tryMatchMailbox, laidOut, hacc,
        List.findIdx_cons]

/-- The thread takes the mutex of an actor that has been laid out. -/
lemma climbing_acquire (c : Call M) (fs : List (Frame M ι)) (hidle : s.threads 1 = {})
    (htouched : ∀ x, x ≠ b → s.actors x = {} ∨
      ((s.actors x).mutex = some 0 ∧ (s.actors x).coroutine = .suspended))
    (hacc : tryMatchVisitors (P b j).visitors m' = true) :
    ∃ u, step P ((s.setActor b (laidOut j m')).setThread 0
        { frames := fs, wants := some (b, c.guarded) }) (.acquire 0) = some u ∧
      Climbing u b j m' ∧
      ∀ x, x = b ∨ (s.actors x).mutex = some 0 → (u.actors x).mutex = some 0 := by
  obtain ⟨hcoroutine, hvisit⟩ := perform_laidOut (c := c) hacc
  have hfree : (laidOut j m').mutex = none := rfl
  refine ⟨_, by simp [step, State.setThread, State.setActor, hfree]; rfl, ⟨?_, ?_, ?_⟩, ?_⟩
  · exact ⟨{ actor := b, guarded := c.guarded, visit := _ }, fs,
      { receive := j, position := 0, message := m' }, by simp, rfl, hvisit, rfl, rfl⟩
  · simpa using hidle
  · intro x
    by_cases hx : x = b
    · subst hx
      exact Or.inr (by simpa using hcoroutine)
    · simpa [hx] using htouched x hx
  · intro x hx
    by_cases hxb : x = b
    · subst hxb
      simp
    · simpa [hxb] using hx.resolve_left hxb

/-- A call of an actor that is not spawned yet: the other thread lays it out, and the call runs
its visitor. -/
lemma Climbing.climb (h : Climbing s a i m) (hcall : (P a i).calls m c = true)
    (htarget : c.target a = b) (hb : s.actors b = {})
    (hacc : tryMatchVisitors (P b j).visitors m' = true) :
    ∃ ls u, run (step P) s ls = some u ∧ Climbing u b j m' ∧
      ∀ x, (s.actors x).mutex = some 0 → (u.actors x).mutex = some 0 := by
  have hvisiting : Visiting (s.setActor b (laidOut j m')) a i m := h.visiting
  obtain ⟨fs, hstep⟩ := hvisiting.step_call hcall htarget (by simp [State.setActor, laidOut])
  obtain ⟨u, hu, hclimbing, hheld⟩ :=
    climbing_acquire c fs h.idle (fun x _ => h.touched x) hacc
  refine ⟨layOut b j m' ++ [.call 0 c, .acquire 0], u, ?_, hclimbing, fun x hx => ?_⟩
  · rw [run_append, run_layOut hb h.idle, Option.bind_some, run_cons, hstep, Option.bind_some,
      run_cons, hu]
    rfl
  · exact hheld x (Or.inr hx)

/-- From a visitor of `a`, along a chain of calls that leads to a mutex that is held. -/
lemma reenters_of_chain {z : ActorRef} (hchain : TransGen (Calls P) a z) :
    ∃ i m, tryMatchVisitors (P a i).visitors m = true ∧
      ∀ s, Climbing s a i m → (s.actors z).mutex = some 0 →
        ∃ ls u, run (step P) s ls = some u ∧ u.Reenters 0 := by
  induction hchain using TransGen.head_induction_on with
  | single hcalls =>
      obtain ⟨i, m, c, hacc, hcall, htarget⟩ := hcalls
      exact ⟨i, m, hacc, fun s h hz => h.reenters hcall htarget hz⟩
  | head hcalls _ ih =>
      obtain ⟨i, m, c, hacc, hcall, htarget⟩ := hcalls
      obtain ⟨j, m', hacc', hrest⟩ := ih
      refine ⟨i, m, hacc, fun s h hz => ?_⟩
      rcases h.touched _ with hfresh | ⟨hheld, -⟩
      · obtain ⟨ls, u, hu, hclimbing, hkeep⟩ := h.climb hcall htarget hfresh hacc'
        obtain ⟨ls', u', hu', hreenters⟩ := hrest u hclimbing (hkeep _ hz)
        exact ⟨ls ++ ls', u', by rw [run_append, hu]; exact hu', hreenters⟩
      · exact h.reenters hcall htarget hheld

/-- A chain of calls from an actor back to itself lets a thread want a mutex it holds. -/
lemma reenters_of_cycle (hcycle : TransGen (Calls P) a a) :
    ∃ ls u, run (step P) {} ls = some u ∧ u.Reenters 0 := by
  obtain ⟨i, m, hacc, hrest⟩ := reenters_of_chain hcycle
  obtain ⟨u, hu, hclimbing, hheld⟩ := climbing_acquire (s := {}) (.send a m) [] rfl
    (fun x _ => Or.inl rfl) hacc
  obtain ⟨ls, u', hu', hreenters⟩ := hrest u hclimbing (hheld a (Or.inl rfl))
  refine ⟨layOut a i m ++ .send 0 a m :: .acquire 0 :: ls, u', ?_, hreenters⟩
  have hsend : step P (({} : State M ι).setActor a (laidOut i m)) (.send 0 a m) =
      some ((({} : State M ι).setActor a (laidOut i m)).setThread 0
        { frames := [], wants := some (a, (Call.send a m).guarded) }) := by
    simp [step, State.enter, State.setActor, laidOut, Coroutine.registered, Call.guarded]
  rw [run_append, run_layOut rfl rfl, Option.bind_some, run_cons, hsend, Option.bind_some,
    run_cons, hu]
  exact hu'

end Climbing

/-! ### Deadlock -/

/-- No run reaches a deadlock if and only if no chain of calls made by visitors leads from an
actor back to itself. -/
theorem deadlock_free_iff (P : Program M ι) :
    (∀ (ls : List (Label M ι)) s, run (step P) {} ls = some s → s.DeadlockFree) ↔
      ∀ a, ¬ TransGen (Calls P) a a := by
  constructor
  · intro h a hcycle
    obtain ⟨ls, u, hrun, hreenters⟩ := reenters_of_cycle hcycle
    exact (h ls u hrun).1 0 hreenters
  · intro hacyclic ls s hrun
    have hnested := nested_of_run hrun
    refine ⟨fun t h => ?_, fun t => hnested.no_wait_cycle hacyclic t⟩
    exact hnested.no_wait_cycle hacyclic t (TransGen.single h)

/-! ### The visitors of the library -/

/-- The mailbox of `a` holds the signal more often in the second world. -/
def delivers {Args : Type} (w w' : World Args) (a : ActorRef) (sg : Signal) : Bool :=
  decide (((w.sched.actors.find? a).getD []).count sg <
    ((w'.sched.actors.find? a).getD []).count sg)

/-- The receive of `supervise_loop`: its visitors stop the children, and the supervisor itself,
whose mailboxes hold an exit signal afterwards. -/
def superviseLoop {Args : Type} (w : World Args) : Receive Empty where
  visitors := [fun
    | .signal _ => true
    | .user _ => false]
  calls
    | .signal sg, .stop target reason =>
        decide (target ≠ w.self) &&
          delivers w (Supervisor.perform (Supervisor.superviseVisitor sg) w).world target
            (.exit target reason)
    | .signal sg, .stopSelf reason =>
        delivers w (Supervisor.perform (Supervisor.superviseVisitor sg) w).world w.self
          (.exit w.self reason)
    | _, _ => false

/-- Supervisors, each under the members its visitors read. -/
def supervisors (Args : Type) : Program Empty (World Args) := fun a w =>
  if w.self = a then superviseLoop w else { visitors := [], calls := fun _ _ => false }

/-- The receive of `dispatch_one`: `MessageDispatcher` runs `handle` on a request, and then sends
the reply to a call. -/
def dispatchOne {Q V : Type} (handle : Q → Call (GenMessage Q V) → Bool) :
    Receive (GenMessage Q V) where
  visitors := [fun _ => true]
  calls
    | .user (.call caller requestId request _), c =>
        handle request c ||
          match c with
          | .send target (.user (.reply replyId _ _)) =>
              decide (target = caller) && decide (replyId = requestId)
          | _ => false
    | .user (.cast request), c => handle request c
    | _, _ => false

/-- Servers whose handlers call nothing. -/
def servers (Q V : Type) : Program (GenMessage Q V) Unit := fun _ _ =>
  dispatchOne fun _ _ => false

/-- A supervisor that allows no restart, with one child. -/
def unforgiving : World Unit :=
  (Supervisor.perform Supervisor.initAndSupervise
    (Supervisor.create {} { children := [{ args := (), defaultArgs := () }] }).world).world

/-- A supervisor that is told that its child has failed stops itself, inside its own visitor; and
two servers that have called each other reply to each other, each inside its own visitor. -/
theorem library_visitors_deadlock :
    (¬ ∀ (ls : List (Label Empty (World Unit))) s,
      run (step (supervisors Unit)) {} ls = some s → s.DeadlockFree) ∧
    ¬ ∀ (ls : List (Label (GenMessage Unit Unit) Unit)) s,
      run (step (servers Unit Unit)) {} ls = some s → s.DeadlockFree := by
  constructor
  · intro h
    let ls : List (Label Empty (World Unit)) :=
      [.spawn 1, .send 0 1 (.signal (.down 2 .error)), .acquire 0, .release 0,
        .awaitReady 0 1 unforgiving, .acquire 0, .call 0 (.stopSelf .error)]
    have hrun : run (step (supervisors Unit)) {} ls =
        some (reached (step (supervisors Unit)) {} ls) := run_eq_reached (by decide +kernel)
    exact (h ls _ hrun).1 0 ⟨1, by decide +kernel, by decide +kernel⟩
  · intro h
    let ls : List (Label (GenMessage Unit Unit) Unit) :=
      [.spawn 1, .spawn 2, .send 0 1 (.user (.call 2 0 () 0)), .acquire 0, .release 0,
        .send 0 2 (.user (.call 1 0 () 0)), .acquire 0, .release 0,
        .awaitReady 0 1 (), .acquire 0, .awaitReady 1 2 (), .acquire 1,
        .call 0 (.send 2 (.user (.reply 0 () 0))), .call 1 (.send 1 (.user (.reply 0 () 0)))]
    have hrun : run (step (servers Unit Unit)) {} ls =
        some (reached (step (servers Unit Unit)) {} ls) := run_eq_reached (by decide +kernel)
    refine (h ls _ hrun).2 0 (TransGen.head (b := 1) ?_ (TransGen.single ?_))
    · exact ⟨2, by decide +kernel, by decide +kernel⟩
    · exact ⟨1, by decide +kernel, by decide +kernel⟩

end Agner.Locks
