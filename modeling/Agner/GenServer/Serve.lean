import Agner.GenServer.System

/-!
`GenServer::serve` on a single-threaded scheduler, against its mailbox read front to back.

`dispatch_one` runs `MessageDispatcher` on a message either in the server's own loop, when the
message is queued before the server gets to its receive, or in whoever sends it, when the server
is suspended. What the handlers return comes with the labels, so a handler may depend on anything.

* `Server`, `step`: the coroutine of `serve`, its mailbox, and the dispatcher cut into the call
  of `handle`, its return, the sending of the reply and the return of the visitor. A message may
  arrive in between any two steps. One that comes while the dispatcher runs, such as a reply to
  the server itself, invalidates the iterator through which the message is to be erased, and the
  visitor has no return any more. A reply runs the visitor of a client that waits for it, and an
  exception of that visitor leaves the dispatcher.
* `beforeExit`, `requests`, `calls`: what the messages alone say the server should do.
* `Undisturbed`: the condition on steps. Nothing is enqueued while the dispatcher runs, and no
  exception leaves a reply.
* `serve_folds_mailbox`: the server does that, in that order, in every run of such steps.
* `comes_to_rest`: left alone, the server gets to the end of its mailbox.
-/

namespace Agner

/-- A `Reply` that has been sent. -/
structure SentReply (V : Type) where
  target : ActorRef
  requestId : ℕ
  response : V
  deriving DecidableEq

/-- A `CallMessage` as its server sees it. -/
structure CallRequest (Q : Type) where
  caller : ActorRef
  requestId : ℕ
  request : Q

namespace Serve

open Runs

variable {Q V : Type}

/-! ### What the messages say -/

/-- The message makes `serve` return. -/
def isExit : Message (GenMessage Q V) → Bool
  | .signal (.exit ..) => true
  | _ => false

/-- The messages that come before the first `ExitSignal`. -/
def beforeExit (messages : List (Message (GenMessage Q V))) : List (Message (GenMessage Q V)) :=
  messages.takeWhile fun m => !isExit m

/-- The request of a `CallMessage` or a `CastMessage`. -/
def requestOf : Message (GenMessage Q V) → Option Q
  | .user (.call _ _ request _) => some request
  | .user (.cast request) => some request
  | _ => none

/-- The requests to be handled, in the order of the messages. -/
def requests (messages : List (Message (GenMessage Q V))) : List Q :=
  messages.filterMap requestOf

/-- The call that the message asks for. -/
def callOf : Message (GenMessage Q V) → Option (CallRequest Q)
  | .user (.call caller requestId request _) => some ⟨caller, requestId, request⟩
  | _ => none

/-- The calls to be answered, in the order of the messages. -/
def calls (messages : List (Message (GenMessage Q V))) : List (CallRequest Q) :=
  messages.filterMap callOf

/-- The reply to a call whose handler returned the value. -/
def answer (c : CallRequest Q) (r : Q × V) : SentReply V := ⟨c.caller, c.requestId, r.2⟩

/-! ### The server -/

/-- How far `MessageDispatcher` has come on its message. -/
inductive Dispatch (V : Type) where
  /-- `handle` runs. -/
  | handling
  /-- `handle` has returned a response. -/
  | replying (response : V)
  /-- The result of the dispatcher. -/
  | returns (shouldStop : Bool)

/-- Where the coroutine of `serve` is. -/
inductive Control (V : Type) where
  /-- Its handle is in the ready queue. -/
  | scheduled
  | running
  /-- A visitor runs on the message at the position, in a sender (`delivered`) or in the loop. -/
  | visiting (position : ℕ) (delivered : Bool) (dispatch : Dispatch V)
  /-- A receive is pending. -/
  | suspended
  /-- `serve` has returned. -/
  | finished
  /-- An exception has left the dispatcher: it has ended `serve`, or gone on to the sender of the
  message that was delivered, with no receive left pending. -/
  | failed

/-- The dispatcher runs, and the iterator to its message is held. -/
def Control.visits : Control V → Bool
  | .visiting .. => true
  | _ => false

/-- A `GenServer` that runs `serve`. -/
structure Server (Q V : Type) where
  self : ActorRef
  mailbox : List (Envelope (GenMessage Q V)) := []
  control : Control V := .scheduled
  /-- The mailbox has grown under the iterator that is held. -/
  invalidated : Bool := false
  /-- The result of the last `dispatch_one`. -/
  shouldStop : Bool := false
  /-- The messages that have arrived. -/
  arrived : List (Message (GenMessage Q V)) := []
  /-- The requests that `handle` was called with. -/
  invoked : List Q := []
  /-- What `handle` returned on the requests of calls. -/
  returned : List (Q × V) := []
  replies : List (SentReply V) := []

/-- `MessageDispatcher` as a visitor: it has an overload for every message. -/
def messageDispatcher : Visitor (GenMessage Q V)
  | .user (.call ..) => true
  | .user (.cast _) => true
  | .user (.reply ..) => true
  | .signal (.exit ..) => true
  | .signal (.down ..) => true

/-- The overload of `MessageDispatcher` for the message begins: it calls `handle`, or returns. -/
def dispatch : Message (GenMessage Q V) → Dispatch V
  | .user (.call ..) => .handling
  | .user (.cast _) => .handling
  | .user (.reply ..) => .returns false
  | .signal (.exit ..) => .returns true
  | .signal (.down ..) => .returns false

/-- The dispatcher is run on a message that was found. -/
def visit (s : Server Q V) (position : ℕ) (delivered : Bool) (m : Message (GenMessage Q V)) :
    Server Q V :=
  { s with
    control := .visiting position delivered (dispatch m)
    invoked := s.invoked ++ (requestOf m).toList }

/-- `try_match` of the receive of `dispatch_one`, up to the visitor. -/
def tryMatch (s : Server Q V) (delivered : Bool) : Option (Server Q V) :=
  (tryMatchMailbox [messageDispatcher] s.mailbox).bind fun position =>
    s.mailbox[position]?.map fun e => visit s position delivered e.body

/-- `mailbox_.emplace_back`, which invalidates the iterators into a `std::deque`. -/
def push (s : Server Q V) (m : Message (GenMessage Q V)) : Server Q V :=
  { s with
    mailbox := s.mailbox ++ [⟨s.arrived.length, m⟩]
    arrived := s.arrived ++ [m]
    invalidated := s.invalidated || s.control.visits }

/-- `enqueue_message` or `stop`: a pending receive is tried. -/
def enqueue (s : Server Q V) (m : Message (GenMessage Q V)) : Server Q V :=
  match s.control with
  | .suspended => (tryMatch (push s m) true).getD (push s m)
  | _ => push s m

/-- The loop of `serve` goes on: it ends, or the next `dispatch_one` looks for a message. -/
def loop (s : Server Q V) : Server Q V :=
  if s.shouldStop then { s with control := .finished }
  else (tryMatch s false).getD { s with control := .suspended }

/-- The message the dispatcher runs on. -/
def current (s : Server Q V) (position : ℕ) : Option (Message (GenMessage Q V)) :=
  s.mailbox[position]?.map Envelope.body

/-- `handle` returns from a call. -/
def handleReturns (s : Server Q V) (response : V) : Option (Server Q V) :=
  match s.control with
  | .visiting position delivered .handling =>
      match current s position with
      | some (.user (.call _ _ request _)) =>
          some { s with
            control := .visiting position delivered (.replying response)
            returned := s.returned ++ [(request, response)] }
      | _ => none
  | _ => none

/-- `handle` returns from a cast. -/
def castReturns (s : Server Q V) : Option (Server Q V) :=
  match s.control with
  | .visiting position delivered .handling =>
      match current s position with
      | some (.user (.cast _)) =>
          some { s with control := .visiting position delivered (.returns false) }
      | _ => none
  | _ => none

/-- The dispatcher sends its reply, which comes back to a server that has called itself. -/
def reply (s : Server Q V) : Option (Server Q V) :=
  match s.control with
  | .visiting position delivered (.replying response) =>
      match current s position with
      | some (.user (.call caller requestId _ number)) =>
          let sent := { s with
            control := .visiting position delivered (.returns false)
            replies := s.replies ++ [⟨caller, requestId, response⟩] }
          some (if caller = s.self then
            enqueue sent (.user (.reply requestId response number)) else sent)
      | _ => none
  | _ => none

/-- The reply runs a visitor of the client, which raises. -/
def replyRaises (s : Server Q V) : Option (Server Q V) :=
  match s.control with
  | .visiting position _ (.replying response) =>
      match current s position with
      | some (.user (.call caller requestId _ _)) =>
          if caller = s.self then none
          else
            some { s with
              control := .failed
              replies := s.replies ++ [⟨caller, requestId, response⟩] }
      | _ => none
  | _ => none

/-- The visitor returns: the message is erased, and a suspended server is scheduled. There is no
erasing through an iterator that has been invalidated. -/
def visitorReturns (s : Server Q V) : Option (Server Q V) :=
  match s.control with
  | .visiting position delivered (.returns shouldStop) =>
      if s.invalidated then none
      else
        some { s with
          mailbox := s.mailbox.eraseIdx position
          shouldStop := shouldStop
          control := if delivered then .scheduled else .running }
  | _ => none

/-- What happens to the server next. -/
inductive Label (Q V : Type) where
  | arrive (m : Message (GenMessage Q V))
  /-- The event loop resumes the server. -/
  | resume
  /-- The running server goes on. -/
  | loop
  | handleReturns (response : V)
  | castReturns
  | reply
  | replyRaises
  | visitorReturns

/-- One step. -/
def step (s : Server Q V) : Label Q V → Option (Server Q V)
  | .arrive m => some (enqueue s m)
  | .resume =>
      match s.control with
      | .scheduled => some { s with control := .running }
      | _ => none
  | .loop =>
      match s.control with
      | .running => some (loop s)
      | _ => none
  | .handleReturns response => handleReturns s response
  | .castReturns => castReturns s
  | .reply => reply s
  | .replyRaises => replyRaises s
  | .visitorReturns => visitorReturns s

/-- The condition on steps: no exception leaves a reply, and nothing is enqueued to the server while
its dispatcher runs, be it by someone else or by the dispatcher, which answers a call of the server
itself. -/
def Undisturbed (s : Server Q V) : Label Q V → Prop
  | .arrive _ => s.control.visits = false
  | .reply =>
      match s.control with
      | .visiting position _ _ => ∀ c ∈ (current s position).bind callOf, c.caller ≠ s.self
      | _ => True
  | .replyRaises => False
  | _ => True

instance (s : Server Q V) : ∀ l : Label Q V, Decidable (Undisturbed s l)
  | .arrive _ => inferInstanceAs (Decidable (_ = false))
  | .reply =>
      match h : s.control with
      | .visiting position _ _ =>
          match hc : (current s position).bind callOf with
          | none => isTrue (by simp [Undisturbed, h, hc])
          | some c => decidable_of_iff (c.caller ≠ s.self) (by simp [Undisturbed, h, hc])
      | .scheduled | .running | .suspended | .finished | .failed =>
          isTrue (by simp [Undisturbed, h])
  | .replyRaises => isFalse id
  | .resume | .loop | .handleReturns _ | .castReturns | .visitorReturns => isTrue trivial

/-- `serve` waits for a message or has returned. -/
def Control.atRest : Control V → Bool
  | .suspended | .finished => true
  | _ => false

/-- The step is not the arrival of a message. -/
def Label.isOwn : Label Q V → Bool
  | .arrive _ => false
  | _ => true

/-! ### Lists of messages -/

section Messages

variable {ms rest : List (Message (GenMessage Q V))} {m : Message (GenMessage Q V)}

lemma requests_append (ms ns : List (Message (GenMessage Q V))) :
    requests (ms ++ ns) = requests ms ++ requests ns := List.filterMap_append

lemma calls_append (ms ns : List (Message (GenMessage Q V))) :
    calls (ms ++ ns) = calls ms ++ calls ns := List.filterMap_append

lemma requests_single (m : Message (GenMessage Q V)) : requests [m] = (requestOf m).toList := by
  cases h : requestOf m <;> simp [requests, h]

lemma calls_single (m : Message (GenMessage Q V)) : calls [m] = (callOf m).toList := by
  cases h : callOf m <;> simp [calls, h]

/-- No message so far ends `serve`. -/
def Open (ms : List (Message (GenMessage Q V))) : Prop := ∀ m ∈ ms, isExit m = false

lemma Open.nil : Open ([] : List (Message (GenMessage Q V))) := fun _ hm => absurd hm (by simp)

lemma Open.append (h : Open ms) (hm : isExit m = false) : Open (ms ++ [m]) := by
  intro m' hm'
  rcases List.mem_append.mp hm' with hold | hnew
  · exact h m' hold
  · obtain rfl := List.mem_singleton.mp hnew
    exact hm

lemma beforeExit_append (h : Open ms) (rest : List (Message (GenMessage Q V))) :
    beforeExit (ms ++ rest) = ms ++ beforeExit rest :=
  List.takeWhile_append_of_pos fun m hm => by simp [h m hm]

lemma beforeExit_exit (h : Open ms) (hm : isExit m = true)
    (rest : List (Message (GenMessage Q V))) : beforeExit (ms ++ m :: rest) = ms := by
  rw [beforeExit_append h, beforeExit, List.takeWhile_cons_of_neg (by simp [hm]), List.append_nil]

/-- An `ExitSignal` asks for nothing. -/
lemma requestOf_exit (hm : isExit m = true) : requestOf m = none := by
  match m, hm with
  | .signal (.exit ..), _ => rfl

lemma callOf_exit (hm : isExit m = true) : callOf m = none := by
  match m, hm with
  | .signal (.exit ..), _ => rfl

end Messages

/-! ### The invariant -/

/-- What the server has done is what the messages ask for. -/
structure Account (s : Server Q V) (done : List (Message (GenMessage Q V))) : Prop where
  invoked : s.invoked = requests done
  returned : s.returned.map Prod.fst = (calls done).map CallRequest.request
  replies : s.replies = List.zipWith answer (calls done) s.returned

/-- What the server has done on the messages before the current one and on the current one, as
far as the dispatcher has come. -/
def Visit (s : Server Q V) (done : List (Message (GenMessage Q V)))
    (m : Message (GenMessage Q V)) : Dispatch V → Prop
  | .handling =>
      s.invoked = requests (done ++ [m]) ∧ (requestOf m).isSome = true ∧
        s.returned.map Prod.fst = (calls done).map CallRequest.request ∧
        s.replies = List.zipWith answer (calls done) s.returned
  | .replying response =>
      s.invoked = requests (done ++ [m]) ∧
        ∃ c earlier, callOf m = some c ∧ s.returned = earlier ++ [(c.request, response)] ∧
          earlier.map Prod.fst = (calls done).map CallRequest.request ∧
          s.replies = List.zipWith answer (calls done) earlier
  | .returns shouldStop => Account s (done ++ [m]) ∧ shouldStop = isExit m

/-- The messages that are done with: none of them ends `serve`, or the last one alone does. -/
def Ends (done : List (Message (GenMessage Q V))) : Bool → Prop
  | false => Open done
  | true => ∃ before m, done = before ++ [m] ∧ Open before ∧ isExit m = true

/-- The mailbox is what the server has not come to yet. -/
def Folds (s : Server Q V) : Prop :=
  match s.control with
  | .scheduled | .running =>
      ∃ done, s.arrived = done ++ s.mailbox.map Envelope.body ∧ Account s done ∧
        Ends done s.shouldStop
  | .suspended => s.mailbox = [] ∧ Account s s.arrived ∧ Open s.arrived ∧ s.shouldStop = false
  | .visiting position _ d =>
      ∃ done e rest, position = 0 ∧ s.mailbox = e :: rest ∧
        s.arrived = done ++ e.body :: rest.map Envelope.body ∧ Open done ∧ Visit s done e.body d
  | .finished => ∃ done rest, s.arrived = done ++ rest ∧ Account s done ∧ Ends done true
  | .failed => ∃ done rest, s.arrived = done ++ rest ∧ Account s done ∧ Open done

section Steps

variable {s t : Server Q V} {done rest : List (Message (GenMessage Q V))}
  {m : Message (GenMessage Q V)}

/-- The dispatcher takes every message. -/
lemma messageDispatcher_eq (m : Message (GenMessage Q V)) : messageDispatcher m = true := by
  match m with
  | .user (.call ..) | .user (.cast _) | .user (.reply ..) => rfl
  | .signal (.exit ..) | .signal (.down ..) => rfl

lemma tryMatch_nil (h : s.mailbox = []) (delivered : Bool) : tryMatch s delivered = none := by
  simp [tryMatch, tryMatchMailbox, h]

/-- The oldest message is taken. -/
lemma tryMatch_cons {e : Envelope (GenMessage Q V)} {newer : List (Envelope (GenMessage Q V))}
    (h : s.mailbox = e :: newer) (delivered : Bool) :
    tryMatch s delivered = some (visit s 0 delivered e.body) := by
  simp [tryMatch, tryMatchMailbox, tryMatchVisitors, messageDispatcher_eq, h, List.findIdx?_cons]

lemma account_of_empty (h : s.invoked = []) (h' : s.returned = []) (h'' : s.replies = []) :
    Account s [] :=
  ⟨by simp [h, requests], by simp [h', calls], by simp [h'', calls]⟩

/-- A message that asks for nothing may be counted as done with. -/
lemma Account.skip (h : Account s done) (hreq : requestOf m = none) (hcall : callOf m = none) :
    Account s (done ++ [m]) := by
  have hrequests : requests (done ++ [m]) = requests done := by
    rw [requests_append, requests_single, hreq]
    exact List.append_nil _
  have hcalls : calls (done ++ [m]) = calls done := by
    rw [calls_append, calls_single, hcall]
    exact List.append_nil _
  refine ⟨?_, ?_, ?_⟩
  · rw [hrequests, h.invoked]
  · rw [hcalls, h.returned]
  · rw [hcalls, h.replies]

/-- The dispatcher calls `handle` or returns at once. -/
lemma dispatch_cases (m : Message (GenMessage Q V)) :
    (dispatch m = .handling ∧ (requestOf m).isSome = true) ∨
      (dispatch m = .returns (isExit m) ∧ requestOf m = none ∧ callOf m = none) := by
  match m with
  | .user (.call ..) | .user (.cast _) => exact .inl ⟨rfl, rfl⟩
  | .user (.reply ..) | .signal (.exit ..) | .signal (.down ..) => exact .inr ⟨rfl, rfl, rfl⟩

/-- What the dispatcher does first on a message. -/
lemma visit_started (h : Account s done) (m : Message (GenMessage Q V)) (delivered : Bool) :
    Visit (visit s 0 delivered m) done m (dispatch m) := by
  have hinvoked : s.invoked ++ (requestOf m).toList = requests (done ++ [m]) := by
    rw [h.invoked, requests_append, requests_single]
  rcases dispatch_cases m with ⟨hd, hreq⟩ | ⟨hd, hreq, hcall⟩
  · rw [hd]
    exact ⟨hinvoked, hreq, h.returned, h.replies⟩
  · rw [hd]
    have hskip := h.skip hreq hcall
    exact ⟨⟨hinvoked, hskip.returned, hskip.replies⟩, rfl⟩

lemma folds_visit {e : Envelope (GenMessage Q V)} {newer : List (Envelope (GenMessage Q V))}
    (hbox : s.mailbox = e :: newer)
    (harrived : s.arrived = done ++ e.body :: newer.map Envelope.body) (h : Account s done)
    (hopen : Open done) (delivered : Bool) : Folds (visit s 0 delivered e.body) :=
  ⟨done, e, newer, rfl, hbox, harrived, hopen, visit_started h e.body delivered⟩

/-- Nothing that has been recorded is touched by a message that only joins the queue. -/
lemma Folds.push (h : Folds s) (hc : s.control ≠ .suspended) (m : Message (GenMessage Q V)) :
    Folds (push s m) := by
  rw [Folds] at h ⊢
  rw [show (Serve.push s m).control = s.control from rfl]
  cases hcontrol : s.control with
  | suspended => exact absurd hcontrol hc
  | scheduled | running =>
      simp only [hcontrol] at h
      obtain ⟨done, harr, hacc, hends⟩ := h
      exact ⟨done, by simp [Serve.push, harr], ⟨hacc.invoked, hacc.returned, hacc.replies⟩, hends⟩
  | visiting position delivered d =>
      simp only [hcontrol] at h
      obtain ⟨done, e, newer, hpos, hbox, harr, hopen, hvisit⟩ := h
      refine ⟨done, e, newer ++ [⟨s.arrived.length, m⟩], hpos, by simp [Serve.push, hbox],
        by simp [Serve.push, harr], hopen, ?_⟩
      cases d with
      | handling => exact hvisit
      | replying response => exact hvisit
      | returns shouldStop =>
          obtain ⟨hacc, hstop⟩ := hvisit
          exact ⟨⟨hacc.invoked, hacc.returned, hacc.replies⟩, hstop⟩
  | finished | failed =>
      simp only [hcontrol] at h
      obtain ⟨done, rest, harr, hacc, hends⟩ := h
      exact ⟨done, rest ++ [m], by simp [Serve.push, harr],
        ⟨hacc.invoked, hacc.returned, hacc.replies⟩, hends⟩

/-- A message that finds the server waiting is visited at once. -/
lemma enqueue_suspended (h : Folds s) (hc : s.control = .suspended)
    (m : Message (GenMessage Q V)) :
    enqueue s m = visit (push s m) 0 true m := by
  rw [Folds] at h
  simp only [hc] at h
  have hbox : (push s m).mailbox = [⟨s.arrived.length, m⟩] := by simp [push, h.1]
  rw [enqueue]
  simp only [hc, tryMatch_cons hbox, Option.getD_some]

lemma enqueue_busy (hc : s.control ≠ .suspended) (m : Message (GenMessage Q V)) :
    enqueue s m = push s m := by
  rw [enqueue]
  split
  · rename_i hs
    exact absurd hs hc
  · rfl

lemma Folds.enqueue (h : Folds s) (m : Message (GenMessage Q V)) : Folds (enqueue s m) := by
  by_cases hc : s.control = .suspended
  · rw [enqueue_suspended h hc]
    rw [Folds] at h
    simp only [hc] at h
    obtain ⟨hbox, hacc, hopen, -⟩ := h
    have hbox' : (Serve.push s m).mailbox = [⟨s.arrived.length, m⟩] := by
      simp [Serve.push, hbox]
    exact folds_visit (e := ⟨s.arrived.length, m⟩) hbox' (by simp [Serve.push])
      ⟨hacc.invoked, hacc.returned, hacc.replies⟩ hopen true
  · rw [enqueue_busy hc]
    exact h.push hc m

lemma Folds.loop (h : Folds s) (hc : s.control = .running) : Folds (loop s) := by
  rw [Folds] at h
  simp only [hc] at h
  obtain ⟨done, harr, hacc, hends⟩ := h
  rw [Serve.loop]
  split
  · rename_i hstop
    rw [hstop] at hends
    exact ⟨done, _, harr, ⟨hacc.invoked, hacc.returned, hacc.replies⟩, hends⟩
  · rename_i hstop
    have hopen : Open done := by
      rw [Bool.not_eq_true] at hstop
      rwa [hstop] at hends
    cases hbox : s.mailbox with
    | nil =>
        rw [tryMatch_nil hbox, Option.getD_none]
        have hdone : s.arrived = done := by simp [harr, hbox]
        exact ⟨rfl, hdone ▸ ⟨hacc.invoked, hacc.returned, hacc.replies⟩, hdone ▸ hopen,
          by simpa using hstop⟩
    | cons e newer =>
        rw [tryMatch_cons hbox, Option.getD_some]
        exact folds_visit hbox (by rw [harr, hbox, List.map_cons]) hacc hopen false

lemma current_zero {e : Envelope (GenMessage Q V)} {newer : List (Envelope (GenMessage Q V))}
    (h : s.mailbox = e :: newer) : current s 0 = some e.body := by
  simp [current, h]

/-- The handler of a call returns its value. -/
lemma Folds.handleReturns {response : V} (h : Folds s)
    (hstep : handleReturns s response = some t) : Folds t := by
  simp only [Serve.handleReturns] at hstep
  split at hstep
  · rename_i position delivered hc
    rw [Folds] at h
    simp only [hc] at h
    obtain ⟨done, e, newer, rfl, hbox, harr, hopen, hinvoked, -, hreturned, hreplies⟩ := h
    rw [current_zero hbox] at hstep
    split at hstep
    · rename_i caller requestId request number hbody
      obtain rfl := Option.some.inj hstep
      have hcall : callOf e.body = some ⟨caller, requestId, request⟩ := by
        rw [Option.some.inj hbody]
        rfl
      exact ⟨done, e, newer, rfl, hbox, harr, hopen, hinvoked, _, s.returned, hcall, rfl,
        hreturned, hreplies⟩
    · cases hstep
  · cases hstep

/-- The handler of a cast returns. -/
lemma Folds.castReturns (h : Folds s) (hstep : castReturns s = some t) : Folds t := by
  simp only [Serve.castReturns] at hstep
  split at hstep
  · rename_i position delivered hc
    rw [Folds] at h
    simp only [hc] at h
    obtain ⟨done, e, newer, rfl, hbox, harr, hopen, hinvoked, -, hreturned, hreplies⟩ := h
    rw [current_zero hbox] at hstep
    split at hstep
    · rename_i request hbody
      obtain rfl := Option.some.inj hstep
      have hcalls : calls (done ++ [e.body]) = calls done := by
        rw [Option.some.inj hbody, calls_append]
        exact List.append_nil _
      refine ⟨done, e, newer, rfl, hbox, harr, hopen, ⟨hinvoked, ?_, ?_⟩, ?_⟩
      · rw [hcalls]
        exact hreturned
      · rw [hcalls]
        exact hreplies
      · rw [Option.some.inj hbody]
        rfl
    · cases hstep
  · cases hstep

/-- With its reply, all that a call asks for has been done. -/
lemma Visit.replied {e : Envelope (GenMessage Q V)} {response : V} {caller : ActorRef}
    {requestId number : ℕ} {request : Q} (h : Visit s done e.body (.replying response))
    (hbody : e.body = .user (.call caller requestId request number)) {control : Control V} :
    Account { s with
      control := control
      replies := s.replies ++ [⟨caller, requestId, response⟩] } (done ++ [e.body]) := by
  obtain ⟨hinvoked, c, earlier, hcall, hreturned, hearlier, hreplies⟩ := h
  obtain rfl : c = ⟨caller, requestId, request⟩ := by
    rw [hbody] at hcall
    exact (Option.some.inj hcall).symm
  have hcalls : calls (done ++ [e.body]) = calls done ++ [⟨caller, requestId, request⟩] := by
    rw [calls_append, calls_single, hcall]
    rfl
  have hlength : (calls done).length = earlier.length := by
    simpa using (congrArg List.length hearlier).symm
  refine ⟨hinvoked, ?_, ?_⟩
  · rw [hcalls, hreturned, List.map_append, List.map_append, hearlier]
    rfl
  · rw [hcalls, hreturned, List.zipWith_append hlength, hreplies]
    rfl

/-- The reply is the answer to the call with the value that its handler returned. -/
lemma Folds.reply (h : Folds s) (hstep : reply s = some t) : Folds t := by
  simp only [Serve.reply] at hstep
  split at hstep
  · rename_i position delivered response hc
    rw [Folds] at h
    simp only [hc] at h
    obtain ⟨done, e, newer, rfl, hbox, harr, hopen, hvisit⟩ := h
    rw [current_zero hbox] at hstep
    split at hstep
    · rename_i caller requestId request number hbody
      have hbody := Option.some.inj hbody
      have hsent : Folds { s with
          control := .visiting 0 delivered (.returns false)
          replies := s.replies ++ [⟨caller, requestId, response⟩] } :=
        ⟨done, e, newer, rfl, hbox, harr, hopen, hvisit.replied hbody, by rw [hbody]; rfl⟩
      obtain rfl := Option.some.inj hstep
      split
      · exact hsent.enqueue _
      · exact hsent
    · cases hstep
  · cases hstep

/-- An exception comes after the reply. -/
lemma Folds.replyRaises (h : Folds s) (hstep : replyRaises s = some t) : Folds t := by
  simp only [Serve.replyRaises] at hstep
  split at hstep
  · rename_i position delivered response hc
    rw [Folds] at h
    simp only [hc] at h
    obtain ⟨done, e, newer, rfl, hbox, harr, hopen, hvisit⟩ := h
    rw [current_zero hbox] at hstep
    split at hstep
    · rename_i caller requestId request number hbody
      have hbody := Option.some.inj hbody
      rw [Option.ite_none_left_eq_some] at hstep
      obtain rfl := Option.some.inj hstep.2
      refine ⟨done ++ [e.body], newer.map Envelope.body, by simp [harr], hvisit.replied hbody,
        hopen.append ?_⟩
      rw [hbody]
      rfl
    · cases hstep
  · cases hstep

lemma Folds.visitorReturns (h : Folds s) (hstep : visitorReturns s = some t) : Folds t := by
  simp only [Serve.visitorReturns] at hstep
  split at hstep
  · rename_i position delivered shouldStop hc
    rw [Folds] at h
    simp only [hc] at h
    obtain ⟨done, e, newer, rfl, hbox, harr, hopen, hacc, hstop⟩ := h
    rw [Option.ite_none_left_eq_some] at hstep
    obtain ⟨-, hstep⟩ := hstep
    obtain rfl := Option.some.inj hstep
    have hends : Ends (done ++ [e.body]) shouldStop := by
      cases hexit : isExit e.body with
      | false =>
          rw [hstop, hexit]
          exact hopen.append hexit
      | true =>
          rw [hstop, hexit]
          exact ⟨done, e.body, rfl, hopen, hexit⟩
    have hidle : ∃ done, s.arrived = done ++ (s.mailbox.eraseIdx 0).map Envelope.body ∧
        Account s done ∧ Ends done shouldStop :=
      ⟨done ++ [e.body], by simp [harr, hbox], hacc, hends⟩
    obtain ⟨done', harr', hacc', hends'⟩ := hidle
    cases delivered with
    | false => exact ⟨done', harr', ⟨hacc'.invoked, hacc'.returned, hacc'.replies⟩, hends'⟩
    | true => exact ⟨done', harr', ⟨hacc'.invoked, hacc'.returned, hacc'.replies⟩, hends'⟩
  · cases hstep

lemma Folds.resume (h : Folds s) (hc : s.control = .scheduled) :
    Folds { s with control := .running } := by
  rw [Folds] at h
  simp only [hc] at h
  obtain ⟨done, harr, hacc, hends⟩ := h
  exact ⟨done, harr, ⟨hacc.invoked, hacc.returned, hacc.replies⟩, hends⟩

lemma Folds.step {l : Label Q V} (h : Folds s) (hstep : step s l = some t) : Folds t := by
  cases l with
  | arrive m =>
      obtain rfl := Option.some.inj hstep
      exact h.enqueue m
  | resume =>
      simp only [Serve.step] at hstep
      split at hstep
      · rename_i hc
        obtain rfl := Option.some.inj hstep
        exact h.resume hc
      · cases hstep
  | loop =>
      simp only [Serve.step] at hstep
      split at hstep
      · rename_i hc
        obtain rfl := Option.some.inj hstep
        exact h.loop hc
      · cases hstep
  | handleReturns response => exact h.handleReturns hstep
  | castReturns => exact h.castReturns hstep
  | reply => exact h.reply hstep
  | replyRaises => exact h.replyRaises hstep
  | visitorReturns => exact h.visitorReturns hstep

/-- A server that begins to serve. -/
lemma folds_new (self : ActorRef) : Folds ({ self := self } : Server Q V) :=
  ⟨[], rfl, account_of_empty rfl rfl rfl, Open.nil⟩

lemma folds_of_run {self : ActorRef} {labels : List (Label Q V)}
    (hrun : run Serve.step { self := self } labels = some s) : Folds s :=
  invariant_of_step (fun _ _ _ h hs => h.step hs) (folds_new self) hrun

/-! ### Reading the invariant -/

/-- Pairing with more on the left only adds at the end. -/
lemma zipWith_of_isPrefix {α β γ : Type*} (f : α → β → γ) {as bs : List α} (h : as <+: bs)
    (cs : List β) : List.zipWith f as cs <+: List.zipWith f bs cs := by
  obtain ⟨later, rfl⟩ := h
  induction as generalizing cs with
  | nil => exact List.nil_prefix
  | cons a as ih =>
      cases cs with
      | nil => exact List.prefix_rfl
      | cons c cs => exact List.prefix_cons_inj _ |>.mpr (ih cs)

lemma Account.drop_exit (h : Account s (done ++ [m])) (hm : isExit m = true) :
    Account s done := by
  have hrequests : requests (done ++ [m]) = requests done := by
    rw [requests_append, requests_single, requestOf_exit hm]
    exact List.append_nil _
  have hcalls : calls (done ++ [m]) = calls done := by
    rw [calls_append, calls_single, callOf_exit hm]
    exact List.append_nil _
  exact ⟨hrequests ▸ h.invoked, hcalls ▸ h.returned, hcalls ▸ h.replies⟩

/-- A server that waits or has returned has done all that comes before the first `ExitSignal`. -/
lemma Folds.account_of_atRest (h : Folds s) (hrest : s.control.atRest = true) :
    Account s (beforeExit s.arrived) ∧
      (s.control = .finished ↔ ∃ m ∈ s.arrived, isExit m = true) := by
  rw [Folds] at h
  cases hc : s.control with
  | suspended =>
      simp only [hc] at h
      obtain ⟨-, hacc, hopen, -⟩ := h
      have hall : beforeExit s.arrived = s.arrived := by
        simpa [beforeExit] using beforeExit_append hopen []
      refine ⟨hall.symm ▸ hacc, fun hf => (by cases hf), ?_⟩
      rintro ⟨m, hm, hexit⟩
      rw [hopen m hm] at hexit
      cases hexit
  | finished =>
      simp only [hc] at h
      obtain ⟨done, rest, harr, hacc, before, m, rfl, hopen, hexit⟩ := h
      have hall : beforeExit s.arrived = before := by
        rw [harr, List.append_assoc, List.singleton_append, beforeExit_exit hopen hexit]
      exact ⟨hall.symm ▸ hacc.drop_exit hexit, fun _ => ⟨m, by simp [harr], hexit⟩, fun _ => rfl⟩
  | scheduled | running | failed => rw [hc] at hrest; cases hrest
  | visiting position delivered d => rw [hc] at hrest; cases hrest

/-- What the server has done at any moment: the messages up to some point, of which the last
call may not have been answered yet. -/
lemma Folds.reading (h : Folds s) :
    ∃ done, done <+: beforeExit s.arrived ∧ s.invoked = requests done ∧
      s.returned.map Prod.fst <+: (calls done).map CallRequest.request ∧
      s.replies <+: List.zipWith answer (calls done) s.returned := by
  have hclosed : ∀ {done rest b}, s.arrived = done ++ rest → Account s done → Ends done b →
      ∃ done, done <+: beforeExit s.arrived ∧ s.invoked = requests done ∧
        s.returned.map Prod.fst <+: (calls done).map CallRequest.request ∧
        s.replies <+: List.zipWith answer (calls done) s.returned := by
    intro done rest b harr hacc hends
    cases b with
    | false =>
        refine ⟨done, ?_, hacc.invoked, hacc.returned ▸ List.prefix_rfl,
          hacc.replies ▸ List.prefix_rfl⟩
        rw [harr, beforeExit_append hends]
        exact List.prefix_append _ _
    | true =>
        obtain ⟨before, m, rfl, hopen, hexit⟩ := hends
        have hacc' := hacc.drop_exit hexit
        refine ⟨before, ?_, hacc'.invoked, hacc'.returned ▸ List.prefix_rfl,
          hacc'.replies ▸ List.prefix_rfl⟩
        rw [harr, List.append_assoc, beforeExit_append hopen]
        exact List.prefix_append _ _
  rw [Folds] at h
  cases hc : s.control with
  | scheduled | running =>
      simp only [hc] at h
      obtain ⟨done, harr, hacc, hends⟩ := h
      exact hclosed harr hacc hends
  | suspended =>
      simp only [hc] at h
      obtain ⟨-, hacc, hopen, -⟩ := h
      exact hclosed (List.append_nil _).symm hacc (b := false) hopen
  | finished =>
      simp only [hc] at h
      obtain ⟨done, rest, harr, hacc, hends⟩ := h
      exact hclosed harr hacc hends
  | failed =>
      simp only [hc] at h
      obtain ⟨done, rest, harr, hacc, hopen⟩ := h
      exact hclosed harr hacc (b := false) hopen
  | visiting position delivered d =>
      simp only [hc] at h
      obtain ⟨done, e, newer, -, -, harr, hopen, hvisit⟩ := h
      have harr' : s.arrived = (done ++ [e.body]) ++ newer.map Envelope.body := by
        simp [harr]
      cases d with
      | returns shouldStop =>
          obtain ⟨hacc, hstop⟩ := hvisit
          cases hexit : isExit e.body with
          | false => exact hclosed harr' hacc (b := false) (hopen.append hexit)
          | true => exact hclosed harr' hacc (b := true) ⟨done, e.body, rfl, hopen, hexit⟩
      | handling =>
          obtain ⟨hinvoked, hreq, hreturned, hreplies⟩ := hvisit
          have hexit : isExit e.body = false := by
            cases hm : isExit e.body with
            | false => rfl
            | true => rw [requestOf_exit hm] at hreq; cases hreq
          refine ⟨done ++ [e.body], ?_, hinvoked, ?_, ?_⟩
          · rw [harr', beforeExit_append (hopen.append hexit)]
            exact List.prefix_append _ _
          · rw [hreturned, calls_append, List.map_append]
            exact List.prefix_append _ _
          · rw [hreplies, calls_append]
            exact zipWith_of_isPrefix _ (List.prefix_append _ _) _
      | replying response =>
          obtain ⟨hinvoked, c, earlier, hcall, hreturned, hearlier, hreplies⟩ := hvisit
          have hexit : isExit e.body = false := by
            cases hm : isExit e.body with
            | false => rfl
            | true => rw [callOf_exit hm] at hcall; cases hcall
          have hcalls : calls (done ++ [e.body]) = calls done ++ [c] := by
            rw [calls_append, calls_single, hcall]
            rfl
          have hlength : (calls done).length = earlier.length := by
            simpa using (congrArg List.length hearlier).symm
          refine ⟨done ++ [e.body], ?_, hinvoked, ?_, ?_⟩
          · rw [harr', beforeExit_append (hopen.append hexit)]
            exact List.prefix_append _ _
          · rw [hreturned, hcalls, List.map_append, List.map_append, hearlier]
            exact List.prefix_rfl
          · rw [hreturned, hcalls, List.zipWith_append hlength, hreplies]
            exact List.prefix_append _ _

/-! ### Coming to rest -/

/-- No iterator that is held has been invalidated, and no exception has left the dispatcher. -/
structure Valid (s : Server Q V) : Prop where
  iterator : s.invalidated = false
  standing : s.control ≠ .failed

/-- The server is valid, and none of the messages in its mailbox is a call of its own. -/
structure Alone (s : Server Q V) : Prop extends Valid s where
  caller : ∀ e ∈ s.mailbox, ∀ c, callOf e.body = some c → c.caller ≠ s.self

/-- What is still to be dealt with: a message whose visitor is about to return is not. -/
def toDo (s : Server Q V) : List (Envelope (GenMessage Q V)) :=
  match s.control with
  | .visiting position _ (.returns _) => s.mailbox.eraseIdx position
  | _ => s.mailbox

/-- How many stages the coroutine has to pass until it looks for a message again. -/
def Control.stages : Control V → ℕ
  | .visiting _ _ (.returns _) => 5
  | .scheduled => 4
  | .running => 3
  | .visiting _ _ .handling => 2
  | .visiting _ _ (.replying _) => 1
  | .suspended | .finished | .failed => 0

/-- Bounds the steps that are left if nothing more arrives. -/
def work (s : Server Q V) : ℕ := 8 * (toDo s).length + s.control.stages

lemma work_visit {e : Envelope (GenMessage Q V)} {newer : List (Envelope (GenMessage Q V))}
    (hbox : s.mailbox = e :: newer) (hc : s.control = .running) (delivered : Bool) :
    work (visit s 0 delivered e.body) < work s := by
  have hs : work s = 8 * (newer.length + 1) + 3 := by
    simp [work, toDo, hc, hbox, Control.stages]
  rcases dispatch_cases e.body with ⟨hd, -⟩ | ⟨hd, -⟩
  · have ht : work (visit s 0 delivered e.body) = 8 * (newer.length + 1) + 2 := by
      simp [work, toDo, visit, hd, hbox, Control.stages]
    omega
  · have ht : work (visit s 0 delivered e.body) = 8 * newer.length + 5 := by
      simp [work, toDo, visit, hd, hbox, Control.stages]
    omega

lemma work_loop (hc : s.control = .running) : work (loop s) < work s := by
  rw [loop]
  split
  · simp [work, toDo, hc, Control.stages]
  · cases hbox : s.mailbox with
    | nil =>
        rw [tryMatch_nil hbox, Option.getD_none]
        simp [work, toDo, hc, hbox, Control.stages]
    | cons e newer =>
        rw [tryMatch_cons hbox, Option.getD_some]
        exact work_visit hbox hc false

/-- The loop adds nothing to the mailbox. -/
lemma Alone.loop (h : Alone s) : Alone (loop s) := by
  rw [Serve.loop]
  split
  · exact ⟨⟨h.iterator, nofun⟩, h.caller⟩
  · cases hbox : s.mailbox with
    | nil =>
        rw [tryMatch_nil hbox, Option.getD_none]
        exact ⟨⟨h.iterator, nofun⟩, fun e he => absurd he (by simp)⟩
    | cons e newer =>
        rw [tryMatch_cons hbox, Option.getD_some]
        exact ⟨⟨h.iterator, nofun⟩, fun e' he' => h.caller e' (hbox ▸ he')⟩

/-- A server that is not at rest has a step of its own that brings it closer. -/
lemma exists_own_step [Nonempty V] (h : Folds s) (halone : Alone s)
    (hrest : s.control.atRest = false) :
    ∃ l t, l.isOwn = true ∧ step s l = some t ∧ Alone t ∧ work t < work s := by
  rw [Folds] at h
  cases hc : s.control with
  | suspended | finished => rw [hc] at hrest; cases hrest
  | failed => exact absurd hc halone.standing
  | scheduled =>
      exact ⟨.resume, { s with control := .running }, rfl, by simp [step, hc],
        ⟨⟨halone.iterator, nofun⟩, halone.caller⟩, by simp [work, toDo, hc, Control.stages]⟩
  | running => exact ⟨.loop, loop s, rfl, by simp [step, hc], halone.loop, work_loop hc⟩
  | visiting position delivered d =>
      simp only [hc] at h
      obtain ⟨done, e, newer, rfl, hbox, -, -, hvisit⟩ := h
      have hcurrent := current_zero hbox
      have hnewer : s.mailbox.eraseIdx 0 = newer := by simp [hbox]
      cases d with
      | returns shouldStop =>
          refine ⟨.visitorReturns, _, rfl,
            by
              simp only [step, visitorReturns, hc, halone.iterator, Bool.false_eq_true, if_false]
              rfl, ?_, ?_⟩
          · exact ⟨⟨rfl, by cases delivered <;> nofun⟩,
              fun e' he' => halone.caller e' (List.mem_of_mem_eraseIdx he')⟩
          · cases delivered <;> simp [work, toDo, hc, Control.stages]
      | handling =>
          have hreq := hvisit.2.1
          match hbody : e.body, hreq with
          | .user (.call caller requestId request number), _ =>
              obtain ⟨response⟩ := ‹Nonempty V›
              refine ⟨.handleReturns response, _, rfl,
                by simp only [step, handleReturns, hc, hcurrent, hbody]; rfl,
                ?_, ?_⟩
              · exact ⟨⟨halone.iterator, nofun⟩, halone.caller⟩
              · simp [work, toDo, hc, Control.stages]
          | .user (.cast request), _ =>
              refine ⟨.castReturns, _, rfl,
                by simp only [step, castReturns, hc, hcurrent, hbody]; rfl,
                ?_, ?_⟩
              · exact ⟨⟨halone.iterator, nofun⟩, halone.caller⟩
              · have hs : work s = 8 * (newer.length + 1) + 2 := by
                  simp [work, toDo, hc, hbox, Control.stages]
                simp only [work, toDo, Control.stages, hnewer]
                simp only [work, toDo, Control.stages] at hs
                omega
      | replying response =>
          obtain ⟨-, c, earlier, hcall, -⟩ := hvisit
          match hbody : e.body, hcall with
          | .user (.call caller requestId request number), _ =>
              have hs : work s = 8 * (newer.length + 1) + 1 := by
                simp [work, toDo, hc, hbox, Control.stages]
              -- the reply reaches another mailbox, not the one that is searched
              have hother : caller ≠ s.self :=
                halone.caller e (by rw [hbox]; exact List.mem_cons_self) _ (by rw [hbody]; rfl)
              refine ⟨.reply, _, rfl, by
                simp only [step, reply, hc, hcurrent, hbody, if_neg hother]; rfl, ?_, ?_⟩
              · exact ⟨⟨halone.iterator, nofun⟩, halone.caller⟩
              · rw [hs]
                simp only [work, toDo, hnewer, Control.stages]
                omega

/-- If nothing more arrives, the server comes to rest. -/
lemma comes_to_rest [Nonempty V] (h : Folds s) (halone : Alone s) :
    ∃ labels t, (∀ l ∈ labels, l.isOwn = true) ∧ run step s labels = some t ∧
      t.control.atRest = true := by
  induction hn : work s using Nat.strong_induction_on generalizing s with
  | _ n ih =>
      cases hrest : s.control.atRest with
      | true => exact ⟨[], s, by simp, rfl, hrest⟩
      | false =>
          obtain ⟨l, u, hown, hstep, halone', hlt⟩ := exists_own_step h halone hrest
          obtain ⟨labels, t, howns, hrun, ht⟩ :=
            ih (work u) (hn ▸ hlt) (h.step hstep) halone' rfl
          refine ⟨l :: labels, t, List.forall_mem_cons.mpr ⟨hown, howns⟩, ?_, ht⟩
          rw [run_cons, hstep]
          exact hrun

/-! ### Disturbances -/

lemma valid_tryMatch (h : Valid s) {delivered : Bool} (ht : tryMatch s delivered = some t) :
    Valid t := by
  obtain ⟨position, -, ht⟩ := Option.bind_eq_some_iff.mp ht
  obtain ⟨e, -, rfl⟩ := Option.map_eq_some_iff.mp ht
  exact ⟨h.iterator, nofun⟩

lemma valid_enqueue (h : Valid s) (hc : s.control.visits = false)
    (m : Message (GenMessage Q V)) : Valid (enqueue s m) := by
  have hpush : Valid (push s m) := ⟨by simp [push, hc, h.iterator], h.standing⟩
  rw [enqueue]
  split
  · cases ht : tryMatch (push s m) true with
    | none => exact hpush
    | some t => exact valid_tryMatch hpush ht
  · exact hpush

/-- Undisturbed steps invalidate nothing, and no exception leaves them. -/
lemma valid_step {l : Label Q V} (h : Valid s) (hok : Undisturbed s l)
    (hstep : step s l = some t) : Valid t := by
  cases l with
  | arrive m =>
      obtain rfl := Option.some.inj hstep
      exact valid_enqueue h hok m
  | resume =>
      simp only [Serve.step] at hstep
      split at hstep
      · exact Option.some.inj hstep ▸ ⟨h.iterator, nofun⟩
      · cases hstep
  | loop =>
      simp only [Serve.step] at hstep
      split at hstep
      · obtain rfl := Option.some.inj hstep
        rw [Serve.loop]
        split
        · exact ⟨h.iterator, nofun⟩
        · cases ht : tryMatch s false with
          | none => exact ⟨h.iterator, nofun⟩
          | some t => exact valid_tryMatch h ht
      · cases hstep
  | handleReturns response =>
      simp only [Serve.step, Serve.handleReturns] at hstep
      split at hstep
      · split at hstep
        · exact Option.some.inj hstep ▸ ⟨h.iterator, nofun⟩
        · cases hstep
      · cases hstep
  | castReturns =>
      simp only [Serve.step, Serve.castReturns] at hstep
      split at hstep
      · split at hstep
        · exact Option.some.inj hstep ▸ ⟨h.iterator, nofun⟩
        · cases hstep
      · cases hstep
  | reply =>
      simp only [Serve.step, Serve.reply] at hstep
      split at hstep
      · rename_i position delivered response hc
        split at hstep
        · rename_i caller requestId request number hbody
          have hother : caller ≠ s.self := by
            simp only [Undisturbed, hc, hbody] at hok
            exact hok ⟨caller, requestId, request⟩ rfl
          rw [if_neg hother] at hstep
          exact Option.some.inj hstep ▸ ⟨h.iterator, nofun⟩
        · cases hstep
      · cases hstep
  | replyRaises => exact absurd hok id
  | visitorReturns =>
      simp only [Serve.step, Serve.visitorReturns] at hstep
      split at hstep
      · rename_i position delivered shouldStop hc
        rw [Option.ite_none_left_eq_some] at hstep
        exact Option.some.inj hstep.2 ▸ ⟨h.iterator, by cases delivered <;> nofun⟩
      · cases hstep

/-- The dispatcher holds an iterator that has been invalidated, or an exception has left it. -/
def Disturbed (s : Server Q V) : Prop :=
  s.control.visits = true ∧ s.invalidated = true ∨ s.control = .failed

/-- A message that comes while the dispatcher runs disturbs it. -/
lemma disturbed_enqueue (h : s.control.visits = true) (m : Message (GenMessage Q V)) :
    Disturbed (enqueue s m) := by
  have hbusy : s.control ≠ .suspended := by
    intro hc
    rw [hc] at h
    cases h
  rw [enqueue_busy hbusy]
  exact .inl ⟨h, by simp [push, h]⟩

/-- The exception has left the dispatcher. -/
lemma disturbed_of_replyRaises (hstep : replyRaises s = some t) : Disturbed t := by
  simp only [Serve.replyRaises] at hstep
  split at hstep
  · split at hstep
    · rw [Option.ite_none_left_eq_some] at hstep
      exact Option.some.inj hstep.2 ▸ .inr rfl
    · cases hstep
  · cases hstep

/-- A server that an exception has left does nothing any more. -/
lemma failed_step {l : Label Q V} (h : s.control = .failed) (hstep : step s l = some t) :
    t.control = .failed := by
  cases l with
  | arrive m =>
      obtain rfl := Option.some.inj hstep
      rw [enqueue_busy (by rw [h]; nofun)]
      exact h
  | resume | loop => simp [Serve.step, h] at hstep
  | handleReturns response => simp [Serve.step, Serve.handleReturns, h] at hstep
  | castReturns => simp [Serve.step, Serve.castReturns, h] at hstep
  | reply => simp [Serve.step, Serve.reply, h] at hstep
  | replyRaises => simp [Serve.step, Serve.replyRaises, h] at hstep
  | visitorReturns => simp [Serve.step, Serve.visitorReturns, h] at hstep

/-- The visitor of a disturbed dispatcher does not return. -/
lemma Disturbed.step {l : Label Q V} (h : Disturbed s) (hstep : step s l = some t) :
    Disturbed t := by
  rcases h with ⟨hvisits, hinvalidated⟩ | hfailed
  swap
  · exact .inr (failed_step hfailed hstep)
  cases hc : s.control with
  | scheduled | running | suspended | finished | failed => rw [hc] at hvisits; cases hvisits
  | visiting position delivered d =>
      cases l with
      | arrive m =>
          obtain rfl := Option.some.inj hstep
          exact disturbed_enqueue hvisits m
      | resume | loop => simp [Serve.step, hc] at hstep
      | handleReturns response =>
          simp only [Serve.step, Serve.handleReturns, hc] at hstep
          split at hstep
          · split at hstep
            · exact Option.some.inj hstep ▸ .inl ⟨rfl, hinvalidated⟩
            · cases hstep
          · cases hstep
      | castReturns =>
          simp only [Serve.step, Serve.castReturns, hc] at hstep
          split at hstep
          · split at hstep
            · exact Option.some.inj hstep ▸ .inl ⟨rfl, hinvalidated⟩
            · cases hstep
          · cases hstep
      | reply =>
          simp only [Serve.step, Serve.reply, hc] at hstep
          split at hstep
          · split at hstep
            · obtain rfl := Option.some.inj hstep
              split
              · exact disturbed_enqueue rfl _
              · exact .inl ⟨rfl, hinvalidated⟩
            · cases hstep
          · cases hstep
      | replyRaises => exact disturbed_of_replyRaises hstep
      | visitorReturns =>
          simp only [Serve.step, Serve.visitorReturns, hc, hinvalidated, if_true] at hstep
          split at hstep
          · cases hstep
          · cases hstep

/-- A step that breaks the condition disturbs the dispatcher. -/
lemma disturbed_of_step {l : Label Q V} (hstep : step s l = some t) (hnot : ¬ Undisturbed s l) :
    Disturbed t := by
  cases l with
  | arrive m =>
      obtain rfl := Option.some.inj hstep
      exact disturbed_enqueue (by simpa [Undisturbed] using hnot) m
  | reply =>
      simp only [Serve.step, Serve.reply] at hstep
      split at hstep
      · rename_i position delivered response hc
        split at hstep
        · rename_i caller requestId request number hbody
          have hself : caller = s.self := by
            by_contra hother
            refine hnot ?_
            simp only [Undisturbed, hc, hbody]
            intro c hcall
            obtain rfl : ⟨caller, requestId, request⟩ = c := by simpa [callOf] using hcall
            exact hother
          rw [if_pos hself] at hstep
          exact Option.some.inj hstep ▸ disturbed_enqueue rfl _
        · cases hstep
      · cases hstep
  | replyRaises => exact disturbed_of_replyRaises hstep
  | resume | loop | handleReturns | castReturns | visitorReturns => exact absurd trivial hnot

lemma Disturbed.not_atRest (h : Disturbed s) : s.control.atRest = false := by
  rcases h with ⟨hvisits, -⟩ | hfailed
  · cases hc : s.control with
    | visiting position delivered d => rfl
    | scheduled | running | suspended | finished | failed => rw [hc] at hvisits; cases hvisits
  · rw [hfailed]
    rfl

/-- In every run in which nothing is enqueued to the server while its dispatcher runs and no
exception leaves its replies, it calls `handle` on the requests that arrive before the first
`ExitSignal`, in their order, and answers each of its calls once, to the caller, with its
`request_id` and the value that `handle` returned, in the same order. At rest all of them are done,
and left alone it comes to rest, unless a call of its own is waiting. A step that breaks the
condition is one after which it never does. -/
theorem serve_folds_mailbox {self : ActorRef} {labels : List (Label Q V)}
    (hrun : run step { self := self } labels = some s)
    (hok : AllSteps step Undisturbed { self := self } labels) :
    (s.invoked <+: requests (beforeExit s.arrived) ∧
      s.returned.map Prod.fst <+: (calls (beforeExit s.arrived)).map CallRequest.request ∧
      s.replies <+: List.zipWith answer (calls (beforeExit s.arrived)) s.returned) ∧
    (s.control.atRest = true →
      s.invoked = requests (beforeExit s.arrived) ∧
      s.returned.map Prod.fst = (calls (beforeExit s.arrived)).map CallRequest.request ∧
      s.replies = List.zipWith answer (calls (beforeExit s.arrived)) s.returned ∧
      (s.control = .finished ↔ ∃ m ∈ s.arrived, isExit m = true)) ∧
    (Nonempty V → (∀ e ∈ s.mailbox, ∀ c, callOf e.body = some c → c.caller ≠ s.self) →
      ∃ own t, (∀ l ∈ own, l.isOwn = true) ∧ run step s own = some t ∧
        t.control.atRest = true) ∧
    ∀ l t, step s l = some t → ¬ Undisturbed s l →
      ∀ later u, run step t later = some u → u.control.atRest = false := by
  have h : Folds s := folds_of_run hrun
  have hnew : Valid ({ self := self } : Server Q V) := ⟨rfl, nofun⟩
  have hvalid : Valid s := invariant (fun _ _ _ hs hl hst => valid_step hs hl hst) hnew hok hrun
  obtain ⟨done, hdone, hinvoked, hreturned, hreplies⟩ := h.reading
  have hrequests : requests done <+: requests (beforeExit s.arrived) := hdone.filterMap _
  have hcalls : calls done <+: calls (beforeExit s.arrived) := hdone.filterMap _
  refine ⟨⟨hinvoked ▸ hrequests, hreturned.trans (hcalls.map _),
    hreplies.trans (zipWith_of_isPrefix answer hcalls _)⟩, fun hrest => ?_,
    fun _ hcaller => comes_to_rest h ⟨hvalid, hcaller⟩, fun l t hstep hnot later u hlater => ?_⟩
  · obtain ⟨hacc, hfinished⟩ := h.account_of_atRest hrest
    exact ⟨hacc.invoked, hacc.returned, hacc.replies, hfinished⟩
  · exact (invariant_of_step (P := Disturbed) (fun _ _ _ hs hst => hs.step hst)
      (disturbed_of_step hstep hnot) hlater).not_atRest

end Steps

/-- A call handled by the loop, a `DownSignal` and a cast taken by a waiting server, and a cast
that comes after the `ExitSignal`. -/
def callThenCast : List (Label ℕ ℕ) :=
  [.arrive (.user (.call 2 0 5 0)), .resume, .loop, .handleReturns 6, .reply, .visitorReturns,
    .loop, .arrive (.signal (.down 3 .error)), .visitorReturns, .arrive (.user (.cast 7)),
    .arrive (.signal (.exit 1 .normal)), .arrive (.user (.cast 8)), .resume, .loop, .castReturns,
    .visitorReturns, .loop, .visitorReturns, .loop]

/-- A call and a cast are handled in order. -/
theorem serve_folds_mailbox_callThenCast :
    (reached step { self := 1 } callThenCast).replies = [⟨2, 0, 6⟩] ∧
    (reached step { self := 1 } callThenCast).invoked = [5, 7] ∧
    (reached step { self := 1 } callThenCast).invoked =
      requests (beforeExit (reached step { self := 1 } callThenCast).arrived) :=
  ⟨by decide +kernel, by decide +kernel,
    ((serve_folds_mailbox (run_eq_reached (by decide +kernel)) (by decide +kernel)).2.1
      (by decide +kernel)).1⟩

/-- The server gets a call of its own, and a cast. -/
def callsItself : List (Label ℕ ℕ) :=
  [.arrive (.user (.call 1 0 5 0)), .arrive (.user (.cast 7)), .resume, .loop, .handleReturns 6,
    .reply]

/-- The reply grows the mailbox in which the dispatcher has been given its message. The cast is
never handled. -/
theorem reply_disturbs_server :
    ∃ s, run step ({ self := 1 } : Server ℕ ℕ) callsItself = some s ∧
      requests (beforeExit s.arrived) = [5, 7] ∧ s.invalidated = true ∧
      ∀ later u, run step s later = some u → u.control.atRest = false := by
  have hrun := run_eq_reached
    (show (run step ({ self := 1 } : Server ℕ ℕ) callsItself).isSome = true by decide +kernel)
  refine ⟨_, hrun, by decide +kernel, by decide +kernel, fun later u hlater => ?_⟩
  have hdisturbed : Disturbed (reached step ({ self := 1 } : Server ℕ ℕ) callsItself) :=
    .inl ⟨by decide +kernel, by decide +kernel⟩
  exact (invariant_of_step (P := Disturbed) (fun _ _ _ hs hst => hs.step hst) hdisturbed
    hlater).not_atRest

end Serve

end Agner
