import Agner.GenServer.System

/-!
One `GenServer::call` on a single-threaded scheduler, with its clock, its timers and the mailbox
of its caller.

The environment is open: a message may come at any moment, the event loop fires timers and resumes
the caller when it likes, and the clock goes forward at any time. `call` reads the clock for its
deadline, once in each iteration and once more in `schedule_after`.

* `CallSite`: what the code of the call is given; `anyCast` is `std::any_cast<Response>`.
* `Caller`, `step`: the loop of `call` and the `ReceiveAwaiter` of its `try_receive`. An exception
  that leaves the visitor ends the call, or leaves the receive behind when the visitor ran in a
  sender.
* `call_disturbs_replies_only`: at the end of the call nothing but replies is missing from the
  mailbox.

Times are exact integers in ticks of the clock. `total`, `discarded`, `taken`, `handed` and
`armed` record the history of a run.
-/

namespace Agner

/-- What `call` is given. -/
structure CallSite (A V : Type) where
  requestId : ℕ
  /-- The timeout in ticks of the clock. -/
  timeout : ℤ
  /-- `std::any_cast<Response>`, `none` if it throws `std::bad_any_cast`. -/
  anyCast : A → Option V

namespace CallLoop

open Runs

variable {Q A V : Type}

/-- Where the coroutine of the caller is. -/
inductive Control (V : Type) where
  /-- It sends its request. -/
  | sending
  /-- At the top of the loop. -/
  | looping
  /-- It calls `try_receive` with the time that remains. -/
  | receiving (remaining : ℤ)
  /-- A receive is pending. -/
  | suspended
  /-- Suspended, and the receive is no longer pending: its visitor threw in a sender. -/
  | stranded
  /-- Suspended, and its handle is in the ready queue. -/
  | scheduled
  /-- `try_receive` has returned. -/
  | resumed
  | returned (response : V)
  /-- `CallTimeout` has been thrown at the clock value. -/
  | timedOut (clock : ℤ)
  /-- `std::bad_any_cast` has left `call`. -/
  | raised
  deriving DecidableEq

/-- The code of the caller runs. -/
def Control.running : Control V → Bool
  | .sending | .looping | .receiving _ | .resumed => true
  | _ => false

/-- The coroutine is suspended in its `co_await`. -/
def Control.awaiting : Control V → Bool
  | .suspended | .stranded | .scheduled => true
  | _ => false

/-- A caller in the middle of a call. -/
structure Caller (Q A V : Type) where
  clock : ℤ
  mailbox : List (Envelope (GenMessage Q A))
  control : Control V := .sending
  deadline : ℤ := 0
  /-- The result of the receive, an `std::optional<Response>`. -/
  storage : Option V := none
  /-- The variable `timed_out`. -/
  timedOut : Bool := false
  /-- The number of the receive. -/
  receive : ℕ := 0
  /-- `active_` of each receive. -/
  active : ℕ → Bool := fun _ => false
  /-- Timers of the scheduler: the receive of the callback and the deadline. -/
  timers : List (ℕ × ℤ) := []
  /-- The deadlines of all timers that were armed. -/
  armed : List ℤ := []
  /-- The messages of the mailbox at the start and those enqueued since. -/
  total : List (Envelope (GenMessage Q A))
  /-- The replies with another id that were erased. -/
  discarded : List (Envelope (GenMessage Q A)) := []
  /-- The replies with the id of the call that were erased. -/
  taken : List (Envelope (GenMessage Q A)) := []
  /-- The messages that a visitor of the call was run on. -/
  handed : List (Message (GenMessage Q A)) := []

/-- The caller at the start of a call. -/
def start (initial : List (Message (GenMessage Q A))) (clock : ℤ) : Caller Q A V :=
  let queue := initial.zipIdx.map fun p => ⟨p.2, p.1⟩
  { clock := clock, mailbox := queue, total := queue }

/-! ### The receive -/

/-- The visitor of `call` on a reply: its result, or `none` if the cast throws. -/
def replyResult (c : CallSite A V) (requestId : ℕ) (response : A) : Option (Option V) :=
  if requestId = c.requestId then (c.anyCast response).map some else some none

/-- The record of a reply that is erased. -/
def record (c : CallSite A V) (s : Caller Q A V) (requestId : ℕ)
    (e : Envelope (GenMessage Q A)) : Caller Q A V :=
  if requestId = c.requestId then { s with taken := s.taken ++ [e] }
  else { s with discarded := s.discarded ++ [e] }

/-- What a search of the mailbox leads to. -/
inductive Attempt (σ : Type) where
  | unmatched
  | matched (s : σ)
  /-- An exception leaves the visitor. -/
  | threw (s : σ)

/-- `try_match`: the first reply is visited, and erased if its visitor returns. -/
def tryMatch (c : CallSite A V) (s : Caller Q A V) : Attempt (Caller Q A V) :=
  match tryMatchMailbox [GenSystem.replyVisitor] s.mailbox with
  | none => .unmatched
  | some position =>
      match s.mailbox[position]? with
      | some ⟨stamp, .user (.reply requestId response number)⟩ =>
          let e := ⟨stamp, .user (.reply requestId response number)⟩
          let visited := { s with handed := s.handed ++ [e.body] }
          match replyResult c requestId response with
          | none => .threw visited
          | some result =>
              .matched (record c { visited with
                storage := result
                mailbox := s.mailbox.eraseIdx position } requestId e)
      | _ => .unmatched

/-- `mailbox_.emplace_back`. -/
def push (s : Caller Q A V) (m : Message (GenMessage Q A)) : Caller Q A V :=
  let e := ⟨s.total.length, m⟩
  { s with mailbox := s.mailbox ++ [e], total := s.total ++ [e] }

/-- `enqueue_message`: a pending receive is tried, and the caller scheduled if it matches. -/
def enqueue (c : CallSite A V) (s : Caller Q A V) (m : Message (GenMessage Q A)) :
    Caller Q A V :=
  match s.control with
  | .suspended =>
      match tryMatch c (push s m) with
      | .unmatched => push s m
      | .matched t =>
          { t with active := Function.update t.active t.receive false, control := .scheduled }
      | .threw t => { t with control := .stranded }
  | _ => push s m

/-- `await_suspend`, with `schedule_after`. -/
def awaitSuspend (s : Caller Q A V) (remaining : ℤ) : Caller Q A V :=
  { s with
    control := .suspended
    active := Function.update s.active s.receive true
    timers := s.timers ++ [(s.receive, s.clock + remaining)]
    armed := s.armed ++ [s.clock + remaining] }

/-- `co_await` of the awaiter: `await_ready`, and if nothing matches `await_suspend`. -/
def tryReceive (c : CallSite A V) (s : Caller Q A V) (remaining : ℤ) : Caller Q A V :=
  match tryMatch c s with
  | .unmatched => awaitSuspend s remaining
  | .matched t => { t with control := .resumed }
  | .threw t => { t with control := .raised }

/-- The callback of a timer that was armed for a receive. -/
def timerCallback (s : Caller Q A V) (r : ℕ) : Caller Q A V :=
  if s.active r then
    { s with
      active := Function.update s.active r false
      storage := none
      timedOut := true
      control := .scheduled }
  else s

/-! ### The loop -/

/-- The top of the loop: the time that remains, and a new receive. -/
def checkRemaining (s : Caller Q A V) : Caller Q A V :=
  let remaining := s.deadline - s.clock
  if remaining < 0 then { s with control := .timedOut s.clock }
  else { s with
    control := .receiving remaining
    timedOut := false
    storage := none
    receive := s.receive + 1 }

/-- What the loop does with the result of its receive. -/
def conclude (s : Caller Q A V) : Caller Q A V :=
  if s.timedOut then { s with control := .timedOut s.clock }
  else
    match s.storage with
    | some response => { s with control := .returned response }
    | none => { s with control := .looping }

/-- What happens to the call next. -/
inductive Label (Q A : Type) where
  /-- A message is enqueued to the caller. -/
  | arrive (m : Message (GenMessage Q A))
  /-- `send` has returned, and `call` computes its deadline. -/
  | sent
  | checkRemaining
  | tryReceive
  | conclude
  /-- The event loop calls the callback of the timer at a position. -/
  | fire (i : ℕ)
  /-- The event loop resumes the caller. -/
  | resume
  /-- The clock goes forward. -/
  | tick (ticks : ℕ)

/-- One step. -/
def step (c : CallSite A V) (s : Caller Q A V) : Label Q A → Option (Caller Q A V)
  | .arrive m => some (enqueue c s m)
  | .sent =>
      match s.control with
      | .sending => some { s with control := .looping, deadline := s.clock + c.timeout }
      | _ => none
  | .checkRemaining =>
      match s.control with
      | .looping => some (checkRemaining s)
      | _ => none
  | .tryReceive =>
      match s.control with
      | .receiving remaining => some (tryReceive c s remaining)
      | _ => none
  | .conclude =>
      match s.control with
      | .resumed => some (conclude s)
      | _ => none
  | .fire i =>
      s.timers[i]?.map fun p => timerCallback { s with timers := s.timers.eraseIdx i } p.1
  | .resume =>
      match s.control with
      | .scheduled => some { s with control := .resumed }
      | _ => none
  | .tick ticks => some { s with clock := s.clock + ticks }

/-- The message that a step enqueues. -/
def Label.arrival? : Label Q A → Option (Message (GenMessage Q A))
  | .arrive m => some m
  | _ => none

/-- The messages that a run enqueues. -/
def arrivals (labels : List (Label Q A)) : List (Message (GenMessage Q A)) :=
  labels.filterMap Label.arrival?

section Receive

variable {c : CallSite A V} {s t : Caller Q A V}

/-! ### What a search does -/

lemma replyVisitor_eq_true {m : Message (GenMessage Q A)}
    (h : GenSystem.replyVisitor m = true) :
    ∃ requestId response number, m = .user (.reply requestId response number) := by
  match m, h with
  | .user (.reply requestId response number), _ => exact ⟨requestId, response, number, rfl⟩

/-- The caller after a visitor of its has been run on the message. -/
def visited (s : Caller Q A V) (m : Message (GenMessage Q A)) : Caller Q A V :=
  { s with handed := s.handed ++ [m] }

/-- The caller after a reply has been visited and erased. -/
def took (c : CallSite A V) (s : Caller Q A V) (requestId : ℕ) (e : Envelope (GenMessage Q A))
    (result : Option V) (rest : List (Envelope (GenMessage Q A))) : Caller Q A V :=
  record c { visited s e.body with storage := result, mailbox := rest } requestId e

/-- A search finds no reply, or visits the first one. -/
lemma tryMatch_cases (c : CallSite A V) (s : Caller Q A V) :
    (tryMatch c s = .unmatched ∧
      tryMatchMailbox [GenSystem.replyVisitor] s.mailbox = none) ∨
    ∃ older e newer requestId response number, s.mailbox = older ++ e :: newer ∧
      e.body = .user (.reply requestId response number) ∧
      (∀ e' ∈ older, GenSystem.replyVisitor e'.body = false) ∧
      ((replyResult c requestId response = none ∧ tryMatch c s = .threw (visited s e.body)) ∨
        ∃ result, replyResult c requestId response = some result ∧
          tryMatch c s = .matched (took c s requestId e result (older ++ newer))) := by
  cases hsearch : tryMatchMailbox [GenSystem.replyVisitor] s.mailbox with
  | none => exact .inl ⟨by simp [tryMatch, hsearch], rfl⟩
  | some position =>
      right
      obtain ⟨older, ⟨stamp, body⟩, newer, hbox, hlen, hacc, hbefore⟩ :=
        tryMatchMailbox_eq_some hsearch
      obtain ⟨requestId, response, number, rfl⟩ :=
        replyVisitor_eq_true (m := body) (by simpa [tryMatchVisitors] using hacc)
      have hget : s.mailbox[position]? =
          some ⟨stamp, .user (.reply requestId response number)⟩ := by simp [hbox, ← hlen]
      have herase : s.mailbox.eraseIdx position = older ++ newer := by
        rw [hbox, ← hlen, List.eraseIdx_append_of_length_le le_rfl, Nat.sub_self,
          List.eraseIdx_cons_zero]
      refine ⟨older, _, newer, requestId, response, number, hbox, rfl,
        fun e' he' => by simpa [tryMatchVisitors] using hbefore e' he', ?_⟩
      cases hresult : replyResult c requestId response with
      | none => exact .inl ⟨rfl, by simp [tryMatch, hsearch, hget, hresult, visited]⟩
      | some result =>
          exact .inr ⟨result, rfl,
            by simp [tryMatch, hsearch, hget, hresult, visited, took, herase]⟩

lemma replyResult_own {requestId : ℕ} {response : A} {v : V}
    (h : replyResult c requestId response = some (some v)) :
    requestId = c.requestId ∧ c.anyCast response = some v := by
  rw [replyResult] at h
  split at h
  · rename_i heq
    refine ⟨heq, ?_⟩
    cases hcast : c.anyCast response with
    | none => simp [hcast] at h
    | some w =>
        simp only [hcast, Option.map_some, Option.some.injEq] at h
        rw [h]
  · cases h

lemma replyResult_other {requestId : ℕ} {response : A}
    (h : replyResult c requestId response = some none) : requestId ≠ c.requestId := by
  rw [replyResult] at h
  split at h
  · cases hcast : c.anyCast response <;> simp [hcast] at h
  · assumption

/-! ### The invariant -/

/-- The message is a reply. -/
def IsReply (m : Message (GenMessage Q A)) : Prop :=
  ∃ requestId response number, m = .user (.reply requestId response number)

/-- The response that the call has got hold of. -/
def answer (s : Caller Q A V) : Option V :=
  match s.control with
  | .returned response => some response
  | .scheduled | .resumed => if s.timedOut then none else s.storage
  | _ => none

/-- The replies that were taken are those the call returns. -/
def Takes (c : CallSite A V) (taken : List (Envelope (GenMessage Q A))) : Option V → Prop
  | none => taken = []
  | some v => ∃ e response number, taken = [e] ∧
      e.body = .user (.reply c.requestId response number) ∧ c.anyCast response = some v

/-- The receive has not come to a result. -/
def Control.inReceive : Control V → Bool
  | .receiving _ | .suspended | .stranded => true
  | _ => false

/-- The invariant: what is missing from the mailbox, and how far the receive has come. -/
structure Frame (c : CallSite A V) (s : Caller Q A V) : Prop where
  sublist : s.mailbox.Sublist s.total
  perm : (s.mailbox ++ (s.discarded ++ s.taken)).Perm s.total
  discarded : ∀ e ∈ s.discarded, ∃ requestId response number,
    e.body = .user (.reply requestId response number) ∧ requestId ≠ c.requestId
  taken : Takes c s.taken (answer s)
  handed : ∀ m ∈ s.handed, IsReply m
  fresh : s.control.inReceive = true → s.timedOut = false ∧ s.storage = none
  flags : ∀ r, s.active r = true → r = s.receive ∧
    (s.control = .suspended ∨ s.control = .stranded)
  pending : s.control = .suspended →
    tryMatchMailbox [GenSystem.replyVisitor] s.mailbox = none

lemma frame_start (c : CallSite A V) (initial : List (Message (GenMessage Q A))) (clock : ℤ) :
    Frame c (start initial clock) where
  sublist := List.Sublist.refl _
  perm := by simp [start]
  discarded := fun e he => absurd he (by simp [start])
  taken := rfl
  handed := fun m hm => absurd hm (by simp [start])
  fresh := fun h => absurd h (by simp [start, Control.inReceive])
  flags := fun r hr => absurd hr (by simp [start])
  pending := fun h => absurd h (by simp [start])

/-- The parts of the invariant that only the mailbox and its history are in. -/
structure Kept (c : CallSite A V) (s t : Caller Q A V) : Prop where
  sublist : t.mailbox.Sublist t.total
  perm : (t.mailbox ++ (t.discarded ++ t.taken)).Perm t.total
  discarded : ∀ e ∈ t.discarded, ∃ requestId response number,
    e.body = .user (.reply requestId response number) ∧ requestId ≠ c.requestId
  handed : ∀ m ∈ t.handed, IsReply m
  receive : t.receive = s.receive
  active : t.active = s.active
  timedOut : t.timedOut = s.timedOut

lemma Frame.kept (h : Frame c s) : Kept c s s :=
  ⟨h.sublist, h.perm, h.discarded, h.handed, rfl, rfl, rfl⟩

/-- A message at the end of the mailbox. -/
lemma Kept.push {u : Caller Q A V} (h : Kept c u s) (m : Message (GenMessage Q A)) :
    Kept c u (push s m) where
  sublist := h.sublist.append_right _
  perm := by
    have hswap (e : Envelope (GenMessage Q A)) : (s.mailbox ++ [e] ++ (s.discarded ++ s.taken)).Perm
        (s.mailbox ++ (s.discarded ++ s.taken) ++ [e]) := by
      rw [List.append_assoc, List.append_assoc]
      exact List.perm_append_comm.append_left _
    exact (hswap _).trans (h.perm.append_right _)
  discarded := h.discarded
  handed := h.handed
  receive := h.receive
  active := h.active
  timedOut := h.timedOut

/-- A visitor that throws leaves everything as it is. -/
lemma Kept.visited {u : Caller Q A V} (h : Kept c u s) {m : Message (GenMessage Q A)}
    (hm : IsReply m) : Kept c u (visited s m) :=
  ⟨h.sublist, h.perm, h.discarded, fun m' hm' => by
    rcases List.mem_append.mp hm' with hold | hnew
    · exact h.handed m' hold
    · exact List.mem_singleton.mp hnew ▸ hm, h.receive, h.active, h.timedOut⟩

/-- A reply is erased, and recorded as what it is. -/
lemma Kept.took {u : Caller Q A V} (h : Kept c u s) {e : Envelope (GenMessage Q A)}
    {older newer : List (Envelope (GenMessage Q A))} {requestId number : ℕ} {response : A}
    (hbox : s.mailbox = older ++ e :: newer)
    (hbody : e.body = .user (.reply requestId response number)) (result : Option V) :
    Kept c u (took c s requestId e result (older ++ newer)) := by
  have hsub : (older ++ newer).Sublist s.total := by
    refine List.Sublist.trans ?_ h.sublist
    rw [hbox]
    exact (List.sublist_cons_self e newer).append_left older
  have hperm : (older ++ newer ++ (s.discarded ++ s.taken) ++ [e]).Perm s.total := by
    refine List.Perm.trans ?_ h.perm
    rw [hbox]
    have hfront : (older ++ newer ++ (s.discarded ++ s.taken) ++ [e]).Perm
        (e :: (older ++ newer ++ (s.discarded ++ s.taken))) := List.perm_append_singleton _ _
    have hmiddle : (older ++ e :: newer).Perm (e :: (older ++ newer)) := List.perm_middle
    exact hfront.trans (hmiddle.symm.append_right (s.discarded ++ s.taken))
  have hhanded : ∀ m ∈ s.handed ++ [e.body], IsReply m := by
    intro m hm
    rcases List.mem_append.mp hm with hold | hnew
    · exact h.handed m hold
    · exact List.mem_singleton.mp hnew ▸ ⟨requestId, response, number, hbody⟩
  by_cases hid : requestId = c.requestId
  · rw [CallLoop.took, record, if_pos hid]
    refine ⟨hsub, ?_, h.discarded, hhanded, h.receive, h.active, h.timedOut⟩
    simpa [CallLoop.visited, List.append_assoc] using hperm
  · rw [CallLoop.took, record, if_neg hid]
    refine ⟨hsub, ?_, ?_, hhanded, h.receive, h.active, h.timedOut⟩
    · refine List.Perm.trans ?_ hperm
      simp only [CallLoop.visited, List.append_assoc]
      refine List.Perm.append_left _ (List.Perm.append_left _ (List.Perm.append_left _ ?_))
      exact List.perm_append_comm
    · intro e' he'
      rcases List.mem_append.mp he' with hold | hnew
      · exact h.discarded e' hold
      · exact List.mem_singleton.mp hnew ▸ ⟨requestId, response, number, hbody, hid⟩

/-- The first reply taken with the id of the call is the one it returns. -/
lemma takes_took {e : Envelope (GenMessage Q A)} (rest : List (Envelope (GenMessage Q A)))
    {requestId number : ℕ} {response : A} {result : Option V} (hnone : s.taken = [])
    (hbody : e.body = .user (.reply requestId response number))
    (hresult : replyResult c requestId response = some result) :
    Takes c (took c s requestId e result rest).taken result := by
  cases result with
  | none =>
      rw [took, record, if_neg (replyResult_other hresult)]
      exact hnone
  | some v =>
      obtain ⟨rfl, hcast⟩ := replyResult_own hresult
      rw [took, record, if_pos rfl]
      exact ⟨e, response, number, by simp [visited, hnone], hbody, hcast⟩

section Took

variable (c : CallSite A V) (s : Caller Q A V) (requestId : ℕ) (e : Envelope (GenMessage Q A))
  (result : Option V) (rest : List (Envelope (GenMessage Q A)))

@[simp] lemma took_storage : (took c s requestId e result rest).storage = result := by
  rw [took, record]
  split <;> rfl

@[simp] lemma took_mailbox : (took c s requestId e result rest).mailbox = rest := by
  rw [took, record]
  split <;> rfl

@[simp] lemma took_clock : (took c s requestId e result rest).clock = s.clock := by
  rw [took, record]
  split <;> rfl

@[simp] lemma took_control : (took c s requestId e result rest).control = s.control := by
  rw [took, record]
  split <;> rfl

@[simp] lemma took_deadline : (took c s requestId e result rest).deadline = s.deadline := by
  rw [took, record]
  split <;> rfl

@[simp] lemma took_timedOut : (took c s requestId e result rest).timedOut = s.timedOut := by
  rw [took, record]
  split <;> rfl

@[simp] lemma took_receive : (took c s requestId e result rest).receive = s.receive := by
  rw [took, record]
  split <;> rfl

@[simp] lemma took_active : (took c s requestId e result rest).active = s.active := by
  rw [took, record]
  split <;> rfl

@[simp] lemma took_timers : (took c s requestId e result rest).timers = s.timers := by
  rw [took, record]
  split <;> rfl

@[simp] lemma took_armed : (took c s requestId e result rest).armed = s.armed := by
  rw [took, record]
  split <;> rfl

@[simp] lemma took_total : (took c s requestId e result rest).total = s.total := by
  rw [took, record]
  split <;> rfl

end Took

/-! ### Steps -/

/-- A flag that is set after an assignment to one of them. -/
lemma active_of_update {flags : ℕ → Bool} {k r : ℕ} {value : Bool}
    (h : Function.update flags k value r = true) :
    (r = k ∧ value = true) ∨ (r ≠ k ∧ flags r = true) := by
  by_cases hr : r = k
  · subst hr
    exact .inl ⟨rfl, by simpa using h⟩
  · exact .inr ⟨hr, by simpa [Function.update_of_ne hr] using h⟩

/-- No timer of a caller that is not suspended is active. -/
lemma Frame.inactive (h : Frame c s) (hs : s.control ≠ .suspended) (hd : s.control ≠ .stranded)
    (r : ℕ) : s.active r = false := by
  cases hr : s.active r with
  | false => rfl
  | true =>
      rcases (h.flags r hr).2 with hc | hc
      · exact absurd hc hs
      · exact absurd hc hd

lemma Frame.enqueue (h : Frame c s) (m : Message (GenMessage Q A)) : Frame c (enqueue c s m) := by
  have hkept : Kept c s (push s m) := h.kept.push m
  rw [CallLoop.enqueue]
  split
  · rename_i hc
    obtain ⟨hfresh, hstorage⟩ := h.fresh (by rw [hc]; rfl)
    have hnone : s.taken = [] := by
      have := h.taken
      rwa [answer, hc] at this
    rcases tryMatch_cases c (push s m) with ⟨heq, hno⟩ |
      ⟨older, e, newer, requestId, response, number, hbox, hbody, -, ⟨hthrow, heq⟩ |
        ⟨result, hresult, heq⟩⟩
    · rw [heq]
      exact ⟨hkept.sublist, hkept.perm, hkept.discarded, by rw [answer]; exact hc ▸ hnone,
        hkept.handed, fun _ => ⟨hfresh, hstorage⟩, h.flags, fun _ => hno⟩
    · rw [heq]
      have hk := hkept.visited (m := e.body) ⟨requestId, response, number, hbody⟩
      refine ⟨hk.sublist, hk.perm, hk.discarded, hnone, hk.handed,
        fun _ => ⟨hfresh, hstorage⟩, fun r hr => ?_, (fun hp => by cases hp)⟩
      exact ⟨(h.flags r hr).1, .inr rfl⟩
    · rw [heq]
      have hk := hkept.took hbox hbody result
      have htakes := takes_took (s := push s m) (older ++ newer) hnone hbody hresult
      refine ⟨hk.sublist, hk.perm, hk.discarded, ?_, hk.handed, (fun hf => by cases hf), ?_,
        (fun hp => by cases hp)⟩
      · simp only [answer, hk.timedOut, hfresh, took_storage]
        exact htakes
      · intro r hr
        simp only [hk.receive, hk.active] at hr
        rcases active_of_update hr with ⟨-, hfalse⟩ | ⟨hrr, hold⟩
        · cases hfalse
        · exact absurd (h.flags r hold).1 hrr
  · rename_i hc
    refine ⟨hkept.sublist, hkept.perm, hkept.discarded, h.taken, hkept.handed, h.fresh, h.flags,
      fun hp => absurd hp hc⟩

lemma Frame.tryReceive {remaining : ℤ} (h : Frame c s) (hc : s.control = .receiving remaining) :
    Frame c (tryReceive c s remaining) := by
  obtain ⟨hfresh, hstorage⟩ := h.fresh (by rw [hc]; rfl)
  have hnone : s.taken = [] := by
    have := h.taken
    rwa [answer, hc] at this
  have hinactive : ∀ r, s.active r = false := h.inactive (by simp [hc]) (by simp [hc])
  rw [CallLoop.tryReceive]
  rcases tryMatch_cases c s with ⟨heq, hno⟩ |
    ⟨older, e, newer, requestId, response, number, hbox, hbody, -, ⟨hthrow, heq⟩ |
      ⟨result, hresult, heq⟩⟩
  · rw [heq]
    refine ⟨h.sublist, h.perm, h.discarded, hnone, h.handed, fun _ => ⟨hfresh, hstorage⟩,
      fun r hr => ⟨?_, .inl rfl⟩, fun _ => hno⟩
    rcases active_of_update hr with ⟨hrr, -⟩ | ⟨-, hold⟩
    · exact hrr
    · rw [hinactive] at hold
      cases hold
  · rw [heq]
    have hk := h.kept.visited (m := e.body) ⟨requestId, response, number, hbody⟩
    refine ⟨hk.sublist, hk.perm, hk.discarded, hnone, hk.handed, (fun hf => by cases hf),
      fun r hr => ?_, (fun hp => by cases hp)⟩
    simp only [visited, hinactive] at hr
    cases hr
  · rw [heq]
    have hk := h.kept.took hbox hbody result
    have htakes := takes_took (s := s) (older ++ newer) hnone hbody hresult
    refine ⟨hk.sublist, hk.perm, hk.discarded, ?_, hk.handed, (fun hf => by cases hf),
      fun r hr => ?_, (fun hp => by cases hp)⟩
    · simp only [answer, hk.timedOut, hfresh, took_storage]
      exact htakes
    · simp only [hk.active, hinactive] at hr
      cases hr

lemma Frame.timerCallback (h : Frame c s) (r : ℕ) : Frame c (timerCallback s r) := by
  rw [CallLoop.timerCallback]
  split
  · rename_i hr
    obtain ⟨heq, hc⟩ := h.flags r hr
    have hnone : s.taken = [] := by
      have := h.taken
      rcases hc with hc | hc <;> rwa [answer, hc] at this
    refine ⟨h.sublist, h.perm, h.discarded, hnone, h.handed, (fun hf => by cases hf),
      fun r' hr' => ?_, (fun hp => by cases hp)⟩
    rcases active_of_update hr' with ⟨-, hfalse⟩ | ⟨hrr, hold⟩
    · cases hfalse
    · exact absurd ((h.flags r' hold).1.trans heq.symm) hrr
  · exact h

lemma Frame.checkRemaining (h : Frame c s) (hc : s.control = .looping) :
    Frame c (checkRemaining s) := by
  have hnone : s.taken = [] := by
    have := h.taken
    rwa [answer, hc] at this
  have hinactive : ∀ r, s.active r = false := h.inactive (by simp [hc]) (by simp [hc])
  have hflags : ∀ {P : ℕ → Prop}, ∀ r, s.active r = true → P r := by
    intro P r hr
    rw [hinactive] at hr
    cases hr
  simp only [CallLoop.checkRemaining]
  split
  · exact ⟨h.sublist, h.perm, h.discarded, hnone, h.handed, (fun hf => by cases hf), hflags,
      (fun hp => by cases hp)⟩
  · exact ⟨h.sublist, h.perm, h.discarded, hnone, h.handed, fun _ => ⟨rfl, rfl⟩, hflags,
      (fun hp => by cases hp)⟩

lemma Frame.conclude (h : Frame c s) (hc : s.control = .resumed) : Frame c (conclude s) := by
  have htaken := h.taken
  simp only [answer, hc] at htaken
  have hinactive : ∀ r, s.active r = false := h.inactive (by simp [hc]) (by simp [hc])
  have hflags : ∀ {P : ℕ → Prop}, ∀ r, s.active r = true → P r := by
    intro P r hr
    rw [hinactive] at hr
    cases hr
  rw [CallLoop.conclude]
  split
  · rename_i hout
    rw [if_pos hout] at htaken
    exact ⟨h.sublist, h.perm, h.discarded, htaken, h.handed, (fun hf => by cases hf), hflags,
      (fun hp => by cases hp)⟩
  · rename_i hout
    rw [if_neg hout] at htaken
    split
    · rename_i response hstorage
      rw [hstorage] at htaken
      exact ⟨h.sublist, h.perm, h.discarded, htaken, h.handed, (fun hf => by cases hf), hflags,
        (fun hp => by cases hp)⟩
    · rename_i hstorage
      rw [hstorage] at htaken
      exact ⟨h.sublist, h.perm, h.discarded, htaken, h.handed, (fun hf => by cases hf), hflags,
        (fun hp => by cases hp)⟩

/-- The caller goes on outside of a receive. -/
lemma Frame.moved (h : Frame c s) {control : Control V} {deadline : ℤ}
    (hs : s.control ≠ .suspended) (hd : s.control ≠ .stranded)
    (hanswer : answer { s with control := control, deadline := deadline } = answer s)
    (hoff : control.inReceive = false) :
    Frame c { s with control := control, deadline := deadline } := by
  refine ⟨h.sublist, h.perm, h.discarded, hanswer ▸ h.taken, h.handed, fun hf => ?_,
    fun r hr => ?_, fun hp => ?_⟩
  · exact absurd (hf.symm.trans hoff) (by simp)
  · rw [h.inactive hs hd] at hr
    cases hr
  · obtain rfl : control = .suspended := hp
    cases hoff

lemma Frame.step {l : Label Q A} (h : Frame c s) (hstep : step c s l = some t) : Frame c t := by
  cases l with
  | arrive m =>
      obtain rfl := Option.some.inj hstep
      exact h.enqueue m
  | sent =>
      simp only [CallLoop.step] at hstep
      split at hstep
      · rename_i hc
        obtain rfl := Option.some.inj hstep
        exact h.moved (by simp [hc]) (by simp [hc]) (by simp [answer, hc]) rfl
      · cases hstep
  | checkRemaining =>
      simp only [CallLoop.step] at hstep
      split at hstep
      · rename_i hc
        obtain rfl := Option.some.inj hstep
        exact h.checkRemaining hc
      · cases hstep
  | tryReceive =>
      simp only [CallLoop.step] at hstep
      split at hstep
      · rename_i remaining hc
        obtain rfl := Option.some.inj hstep
        exact h.tryReceive hc
      · cases hstep
  | conclude =>
      simp only [CallLoop.step] at hstep
      split at hstep
      · rename_i hc
        obtain rfl := Option.some.inj hstep
        exact h.conclude hc
      · cases hstep
  | fire i =>
      -- the armed timers are no part of the frame
      obtain ⟨p, -, rfl⟩ := Option.map_eq_some_iff.mp hstep
      have hless : Frame c { s with timers := s.timers.eraseIdx i } :=
        ⟨h.sublist, h.perm, h.discarded, h.taken, h.handed, h.fresh, h.flags, h.pending⟩
      exact hless.timerCallback p.1
  | resume =>
      simp only [CallLoop.step] at hstep
      split at hstep
      · rename_i hc
        obtain rfl := Option.some.inj hstep
        exact h.moved (by simp [hc]) (by simp [hc]) (by simp [answer, hc]) rfl
      · cases hstep
  | tick ticks =>
      obtain rfl := Option.some.inj hstep
      exact ⟨h.sublist, h.perm, h.discarded, h.taken, h.handed, h.fresh, h.flags, h.pending⟩

/-! ### Runs -/

lemma total_start (initial : List (Message (GenMessage Q A))) (clock : ℤ) :
    (start initial clock : Caller Q A V).total.map Envelope.body = initial := by
  rw [start, List.map_map]
  exact List.zipIdx_map_fst 0 initial

lemma total_enqueue (m : Message (GenMessage Q A)) :
    (enqueue c s m).total = s.total ++ [⟨s.total.length, m⟩] := by
  rw [enqueue]
  split
  · rcases tryMatch_cases c (push s m) with ⟨heq, -⟩ |
      ⟨older, e, newer, requestId, response, number, -, -, -, ⟨-, heq⟩ | ⟨result, -, heq⟩⟩
    · rw [heq]
      rfl
    · rw [heq]
      rfl
    · rw [heq]
      exact took_total ..
  · rfl

lemma total_tryReceive (remaining : ℤ) : (tryReceive c s remaining).total = s.total := by
  rw [tryReceive]
  rcases tryMatch_cases c s with ⟨heq, -⟩ |
    ⟨older, e, newer, requestId, response, number, -, -, -, ⟨-, heq⟩ | ⟨result, -, heq⟩⟩
  · rw [heq]
    rfl
  · rw [heq]
    rfl
  · rw [heq]
    exact took_total ..

lemma total_checkRemaining : (checkRemaining s).total = s.total := by
  simp only [checkRemaining]
  split <;> rfl

lemma total_conclude : (conclude s).total = s.total := by
  rw [conclude]
  split
  · rfl
  · split <;> rfl

/-- A step adds the message it enqueues to the record. -/
lemma total_step {l : Label Q A} (hstep : step c s l = some t) :
    t.total.map Envelope.body = s.total.map Envelope.body ++ l.arrival?.toList := by
  cases l with
  | arrive m =>
      obtain rfl := Option.some.inj hstep
      rw [total_enqueue, List.map_append]
      rfl
  | sent | resume =>
      simp only [step] at hstep
      split at hstep
      · obtain rfl := Option.some.inj hstep
        simp [Label.arrival?]
      · cases hstep
  | checkRemaining =>
      simp only [step] at hstep
      split at hstep
      · obtain rfl := Option.some.inj hstep
        simp [total_checkRemaining, Label.arrival?]
      · cases hstep
  | conclude =>
      simp only [step] at hstep
      split at hstep
      · obtain rfl := Option.some.inj hstep
        simp [total_conclude, Label.arrival?]
      · cases hstep
  | tryReceive =>
      simp only [step] at hstep
      split at hstep
      · obtain rfl := Option.some.inj hstep
        simp [total_tryReceive, Label.arrival?]
      · cases hstep
  | fire i =>
      obtain ⟨p, -, rfl⟩ := Option.map_eq_some_iff.mp hstep
      rw [timerCallback]
      split <;> simp [Label.arrival?]
  | tick ticks =>
      obtain rfl := Option.some.inj hstep
      simp [Label.arrival?]

lemma total_of_run {labels : List (Label Q A)} (hrun : run (step c) s labels = some t) :
    t.total.map Envelope.body = s.total.map Envelope.body ++ arrivals labels := by
  induction labels generalizing s with
  | nil =>
      obtain rfl := Option.some.inj hrun
      exact (List.append_nil _).symm
  | cons l labels ih =>
      rw [run_cons, Option.bind_eq_some_iff] at hrun
      obtain ⟨u, hu, hrun⟩ := hrun
      have hcons : arrivals (l :: labels) = l.arrival?.toList ++ arrivals labels := by
        cases l <;> rfl
      rw [ih hrun, total_step hu, hcons, List.append_assoc]

lemma frame_of_run {initial : List (Message (GenMessage Q A))} {clock : ℤ}
    {labels : List (Label Q A)} (hrun : run (step c) (start initial clock) labels = some s) :
    Frame c s :=
  invariant_of_step (fun _ _ _ h hs => h.step hs) (frame_start c initial clock) hrun

/-- At any moment, the mailbox is the initial one followed by what was enqueued since, less some
replies. When `call` returns these are replies with another id and the one that is returned, when
it throws `CallTimeout` replies with another id. Its visitors are run on replies only. -/
theorem call_disturbs_replies_only {initial : List (Message (GenMessage Q A))} {clock : ℤ}
    {labels : List (Label Q A)} (hrun : run (step c) (start initial clock) labels = some s) :
    ∃ discarded taken : List (Message (GenMessage Q A)),
      (s.mailbox.map Envelope.body).Sublist (initial ++ arrivals labels) ∧
      (s.mailbox.map Envelope.body ++ (discarded ++ taken)).Perm
        (initial ++ arrivals labels) ∧
      (∀ m ∈ discarded, ∃ requestId response number,
        m = .user (.reply requestId response number) ∧ requestId ≠ c.requestId) ∧
      (∀ v, s.control = .returned v → ∃ response number,
        taken = [.user (.reply c.requestId response number)] ∧
          c.anyCast response = some v) ∧
      (∀ at', s.control = .timedOut at' → taken = []) ∧
      ∀ m ∈ s.handed, IsReply m := by
  have h : Frame c s := frame_of_run hrun
  have htotal : s.total.map Envelope.body = initial ++ arrivals labels := by
    rw [total_of_run hrun, total_start]
  refine ⟨s.discarded.map Envelope.body, s.taken.map Envelope.body, ?_, ?_, ?_, ?_, ?_, h.handed⟩
  · exact htotal ▸ h.sublist.map _
  · have hperm := h.perm.map Envelope.body
    rwa [List.map_append, List.map_append, htotal] at hperm
  · intro m hm
    obtain ⟨e, he, rfl⟩ := List.mem_map.mp hm
    exact h.discarded e he
  · intro v hv
    have htaken := h.taken
    rw [answer, hv] at htaken
    obtain ⟨e, response, number, htaken, hbody, hcast⟩ := htaken
    exact ⟨response, number, by rw [htaken, List.map_singleton, hbody], hcast⟩
  · intro at' hat
    have htaken := h.taken
    rw [answer, hat] at htaken
    rw [show s.taken = [] from htaken, List.map_nil]

end Receive

/-- A call with request id `3` and `10` ticks of time, where responses that are not negative
are of the expected type. -/
def tenTicks : CallSite ℤ ℤ where
  requestId := 3
  timeout := 10
  anyCast v := if 0 ≤ v then some v else none

/-- A reply with another id comes first, and a `DownSignal` before the reply of the call. -/
def wrongReplyFirst : List (Label Unit ℤ) :=
  [.sent, .checkRemaining, .tryReceive, .tick 4, .arrive (.user (.reply 2 5 0)), .resume,
    .conclude, .checkRemaining, .tryReceive, .arrive (.signal (.down 9 .error)), .tick 2,
    .arrive (.user (.reply 3 6 0)), .resume, .conclude]

/-- The cast stays in the mailbox, and the reply to another call is discarded. -/
theorem call_disturbs_replies_only_wrongReplyFirst :
    (reached (step tenTicks) (start [.user (.cast ())] 100) wrongReplyFirst).control =
      .returned 6 ∧
    ∃ discarded taken : List (Message (GenMessage Unit ℤ)),
      ((reached (step tenTicks) (start [.user (.cast ())] 100) wrongReplyFirst).mailbox.map
        Envelope.body ++ (discarded ++ taken)).Perm
          ([.user (.cast ())] ++ arrivals wrongReplyFirst) :=
  ⟨by decide +kernel, by
    obtain ⟨discarded, taken, -, hperm, -⟩ := call_disturbs_replies_only (run_eq_reached
      (show (run (step tenTicks) (start [.user (.cast ())] 100) wrongReplyFirst).isSome = true
        by decide +kernel))
    exact ⟨discarded, taken, hperm⟩⟩

end CallLoop

end Agner
