import Agner.Actor.Runtime

/-!
`genserver.hpp` on a single-threaded scheduler: any number of clients and servers.

A `GenServer` is an actor whose coroutine makes calls and serves requests. Each label is what
the code of the library or of the user does next, and `action` translates it into an operation
of the actor runtime and an assignment to the members of the `GenServer`.

* `call` sends its request and then receives replies until one has its request id or the time
  is over. Time is left open: a receive may expire, and so may the time between two receives.
* `MessageDispatcher` runs `handle` on a request inside the visitor of `dispatch_one`, and then
  sends the reply. While it runs, `handle` may send, stop and spawn.
* Requests and responses are values of one type each, so that the `std::any_cast` of a response
  gives the value back: client and server declare the same response type. A request that the
  target does not declare is dropped on delivery.

`number` counts the calls of a client; it travels with requests and replies for the record, like
`made`, `handled` and `returned`, and no decision depends on it.
-/

namespace Agner

/-- `CallMessage`, `CastMessage` and `Reply`. -/
inductive GenMessage (Q V : Type) where
  | call (caller : ActorRef) (requestId : ℕ) (request : Q) (number : ℕ)
  | cast (request : Q)
  | reply (requestId : ℕ) (response : V) (number : ℕ)

/-- What a receive of a `GenServer` is for. -/
inductive Purpose where
  /-- `call` waits for the reply to a request. -/
  | call (requestId : ℕ)
  /-- `dispatch_one`. -/
  | dispatch
  /-- A receive of the user's own. -/
  | other
  deriving DecidableEq

/-- What visitors return. -/
inductive GenResult (V : Type) where
  /-- The visitor of `call`, with the number of the reply. -/
  | answer (response : Option (V × ℕ))
  /-- The timeout visitor of `call`. -/
  | expired
  /-- `MessageDispatcher`: whether the server should stop. -/
  | stop (shouldStop : Bool)
  | other

/-- A call under way. -/
structure Call (Q : Type) where
  target : ActorRef
  requestId : ℕ
  request : Q
  number : ℕ
  /-- The receive whose result the loop looks at next. -/
  receive : Option ℕ := none

/-- A request that `handle` has returned from. -/
structure Handled (Q V : Type) where
  server : ActorRef
  receive : ℕ
  caller : ActorRef
  requestId : ℕ
  request : Q
  number : ℕ
  response : V

/-- A call that has returned, with the number of the reply it got. -/
structure Returned (Q V : Type) where
  caller : ActorRef
  call : Call Q
  response : V
  reply : ℕ

/-- A system of `GenServer`s. -/
structure GenSystem (Q V : Type) where
  rt : Runtime (GenMessage Q V) (GenResult V) := {}
  /-- `next_request_id_`. -/
  nextRequestId : ActorRef → ℕ := fun _ => 0
  calls : ActorRef → Option (Call Q) := fun _ => none
  purpose : ℕ → Purpose := fun _ => .other
  /-- The targets and requests of the calls of each client. -/
  made : ActorRef → List (ActorRef × Q) := fun _ => []
  handled : List (Handled Q V) := []
  returned : List (Returned Q V) := []

namespace GenSystem

variable {Q V : Type}

/-- The values of `uint64_t`. -/
def requestIds : ℕ := 2 ^ 64

/-- What happens next. -/
inductive Label (Q V : Type) where
  /-- `call`, up to its loop. -/
  | call (target : ActorRef) (request : Q)
  | cast (target : ActorRef) (request : Q)
  /-- The loop of `call` waits for a reply. -/
  | tryReceive
  /-- The loop of `call` finds no time remaining. -/
  | callTimeout
  /-- The visitor of `call` returns. -/
  | answer
  /-- The timeout visitor of `call` returns. -/
  | expire
  /-- The loop of `call` looks at the result of its receive. -/
  | conclude
  | dispatchOne
  /-- `handle` returns a response to a call. -/
  | handle (response : V)
  /-- `MessageDispatcher` returns. -/
  | dispatched
  /-- A receive of the user's own. -/
  | receive (visitors : List (Visitor (GenMessage Q V))) (timed : Bool)
  | visitorReturn
  | timeoutReturn
  /-- Any other operation of user code or of the event loop. -/
  | runtime (l : Runtime.Label (GenMessage Q V) (GenResult V))

/-- The visitor of `call`. -/
def replyVisitor : Visitor (GenMessage Q V)
  | .user (.reply ..) => true
  | _ => false

/-- `MessageDispatcher` has sent the reply in this receive. -/
def answered (s : GenSystem Q V) (r : ℕ) : Bool := s.handled.any fun h => h.receive == r

/-- The code on top of the stack is not the library's. -/
def free (s : GenSystem Q V) : Bool :=
  match s.rt.stack.head? with
  | some (.running a) => (s.calls a).isNone
  | some (.visiting r _ _) =>
      match s.purpose r with
      | .call _ => false
      | .dispatch => !s.answered r
      | .other => true
  | some (.expiring r) => s.purpose r == .other
  | _ => true

/-- The operations of the runtime that are not part of a `GenServer`. -/
def passes : Runtime.Label (GenMessage Q V) (GenResult V) → Bool
  | .send .. | .receive .. | .visitorReturn _ | .timeoutReturn _ => false
  | _ => true

/-- The actor whose coroutine is running. -/
def running? (s : GenSystem Q V) : Option ActorRef :=
  match s.rt.raising, s.rt.stack with
  | false, .running a :: _ => some a
  | _, _ => none

/-- The receive whose visitor is running, and the message it is running on. -/
def visiting? (s : GenSystem Q V) : Option (ℕ × Message (GenMessage Q V)) :=
  match s.rt.raising, s.rt.stack with
  | false, .visiting r position _ :: _ =>
      (s.rt.actors (s.rt.receives r).actor).mailbox[position]?.map fun e => (r, e.body)
  | _, _ => none

/-- The receive whose timeout visitor is running. -/
def expiring? (s : GenSystem Q V) : Option ℕ :=
  match s.rt.raising, s.rt.stack with
  | false, .expiring r :: _ => some r
  | _, _ => none

/-! ### Members -/

/-- Assignment to the call under way. -/
def setCall (s : GenSystem Q V) (a : ActorRef) (c : Option (Call Q)) : GenSystem Q V :=
  { s with calls := Function.update s.calls a c }

/-- The purpose of the next receive. -/
def setPurpose (s : GenSystem Q V) (p : Purpose) : GenSystem Q V :=
  { s with purpose := Function.update s.purpose s.rt.nextReceive p }

/-- `next_request_id_++` and the message of a new call. -/
def newCall (s : GenSystem Q V) (a target : ActorRef) (request : Q) : GenSystem Q V :=
  { s with
    nextRequestId := Function.update s.nextRequestId a ((s.nextRequestId a + 1) % requestIds)
    made := Function.update s.made a (s.made a ++ [(target, request)]) }.setCall a
    (some { target := target, requestId := s.nextRequestId a, request := request,
            number := (s.made a).length })

/-- The result that `call` finds in its receive. -/
def storage (s : GenSystem Q V) (r : ℕ) : Option (GenResult V) := (s.rt.receives r).storage

/-! ### Actions -/

/-- What the code does next: an operation of the runtime, if any, and the members after it. -/
def action (declares : ActorRef → Q → Bool) (s : GenSystem Q V) :
    Label Q V → Option (Option (Runtime.Label (GenMessage Q V) (GenResult V)) × GenSystem Q V)
  | .call target request =>
      match s.running? with
      | some a =>
          if (s.calls a).isNone then
            some (if declares target request then
                some (.send target (.call a (s.nextRequestId a) request (s.made a).length))
              else none, s.newCall a target request)
          else none
      | none => none
  | .cast target request =>
      if s.free then
        some (if declares target request then some (.send target (.cast request)) else none, s)
      else none
  | .tryReceive =>
      match s.running? with
      | some a =>
          match s.calls a with
          | some c =>
              if c.receive.isNone then
                some (some (.receive [replyVisitor] true),
                  (s.setPurpose (.call c.requestId)).setCall a
                    (some { c with receive := some s.rt.nextReceive }))
              else none
          | none => none
      | none => none
  | .callTimeout =>
      match s.running? with
      | some a =>
          match s.calls a with
          | some c => if c.receive.isNone then some (some .throw, s.setCall a none) else none
          | none => none
      | none => none
  | .answer =>
      match s.visiting? with
      | some (r, .user (.reply requestId response number)) =>
          match s.purpose r with
          | .call id =>
              some (some (.visitorReturn
                (.answer (if requestId = id then some (response, number) else none))), s)
          | _ => none
      | _ => none
  | .expire =>
      match s.expiring? with
      | some r =>
          match s.purpose r with
          | .call _ => some (some (.timeoutReturn .expired), s)
          | _ => none
      | none => none
  | .conclude =>
      match s.running? with
      | some a =>
          match s.calls a with
          | some c =>
              match c.receive with
              | some r =>
                  match s.storage r with
                  | some (.answer (some (response, number))) =>
                      some (none, { s.setCall a none with
                        returned := s.returned ++
                          [{ caller := a, call := c, response := response, reply := number }] })
                  | some (.answer none) =>
                      some (none, s.setCall a (some { c with receive := none }))
                  | some .expired => some (some .throw, s.setCall a none)
                  | _ => none
              | none => none
          | none => none
      | none => none
  | .dispatchOne =>
      match s.running? with
      | some a =>
          if (s.calls a).isNone then
            some (some (.receive [fun _ => true] false), s.setPurpose .dispatch)
          else none
      | none => none
  | .handle response =>
      match s.visiting? with
      | some (r, .user (.call caller requestId request number)) =>
          if s.purpose r = .dispatch ∧ s.answered r = false then
            some (some (.send caller (.reply requestId response number)),
              { s with
                handled := s.handled ++
                  [{ server := (s.rt.receives r).actor, receive := r, caller := caller,
                     requestId := requestId, request := request, number := number,
                     response := response }] })
          else none
      | _ => none
  | .dispatched =>
      match s.visiting? with
      | some (r, m) =>
          if s.purpose r = .dispatch then
            match m with
            | .user (.call ..) =>
                if s.answered r then some (some (.visitorReturn (.stop false)), s) else none
            | .user (.cast _) | .user (.reply ..) | .signal (.down ..) =>
                some (some (.visitorReturn (.stop false)), s)
            | .signal (.exit ..) => some (some (.visitorReturn (.stop true)), s)
          else none
      | none => none
  | .receive visitors timed =>
      if s.free then some (some (.receive visitors timed), s.setPurpose .other) else none
  | .visitorReturn =>
      match s.visiting? with
      | some (r, _) =>
          if s.purpose r = .other then some (some (.visitorReturn .other), s) else none
      | none => none
  | .timeoutReturn =>
      match s.expiring? with
      | some r => if s.purpose r = .other then some (some (.timeoutReturn .other), s) else none
      | none => none
  | .runtime l => if s.free && passes l then some (some l, s) else none

/-- One step. -/
def step (declares : ActorRef → Q → Bool) (s : GenSystem Q V) (l : Label Q V) :
    Option (GenSystem Q V) :=
  match s.action declares l with
  | none => none
  | some (none, u) => some u
  | some (some l', u) => (s.rt.step l').map fun rt => { u with rt := rt }

end GenSystem

end Agner
