import Agner.Actor.Traffic
import Agner.GenServer.System

/-!
Calls and replies on a single-threaded scheduler.

A client numbers its calls in `next_request_id_`, and `call` accepts the reply with the request
id of its own. The request id is a `uint64_t`: a client that makes more than `2 ^ 64` calls
uses ids again.

* `Quiet`: the condition on steps. Handlers and visitors return normally, and nothing is added
  to a mailbox that is being searched.
* `Correlated`: the invariant. It follows every request from its call to the one receive that
  takes it, and every reply from its handler to the mailbox of the caller.
* `calls_correlated`: as long as no client has made more than `2 ^ 64` calls, a call returns
  what `handle` of its target returned on its own request, on which it ran once.
-/

namespace Agner.GenSystem

open Runs

variable {Q V : Type} {declares : ActorRef → Q → Bool} {s t : GenSystem Q V}

/-- Visitors return normally, and no mailbox grows while it is being searched. -/
def Quiet (declares : ActorRef → Q → Bool) (s : GenSystem Q V) (l : Label Q V) : Prop :=
  ∀ l' u, s.action declares l = some (some l', u) → s.rt.Quiet l'

instance (declares : ActorRef → Q → Bool) (s : GenSystem Q V) (l : Label Q V) :
    Decidable (s.Quiet declares l) :=
  match h : s.action declares l with
  | none => isTrue fun _ _ h' => by simp [h] at h'
  | some (none, _) => isTrue fun _ _ h' => by simp [h] at h'
  | some (some l', _) => decidable_of_iff (s.rt.Quiet l') (by simp [Quiet, h])

/-- The message that is enqueued to the actor. -/
def Sent (s : GenSystem Q V) (a : ActorRef) (m : GenMessage Q V) : Prop :=
  ∃ e ∈ (s.rt.actors a).enqueued, e.body = .user m

/-- The request of a call of the client. -/
def IsRequest (c : ActorRef) (n : ℕ) (m : Message (GenMessage Q V)) : Prop :=
  ∃ id q, m = .user (.call c id q n)

/-- The reply to a call. -/
def IsReply (n : ℕ) (m : Message (GenMessage Q V)) : Prop := ∃ id v, m = .user (.reply id v n)

/-- At most one message of the kind is ever enqueued to the actor. -/
def Once (s : GenSystem Q V) (a : ActorRef) (p : Message (GenMessage Q V) → Prop) : Prop :=
  ∀ e ∈ (s.rt.actors a).enqueued, ∀ e' ∈ (s.rt.actors a).enqueued, p e.body → p e'.body → e = e'

/-- The invariant. -/
structure Correlated (s : GenSystem Q V) : Prop where
  owned : s.rt.Owned
  ids : ∀ a, s.nextRequestId a = (s.made a).length % requestIds
  calls : ∀ a c, s.calls a = some c → (s.made a)[c.number]? = some (c.target, c.request) ∧
    c.requestId = c.number % requestIds ∧
    ∀ r, c.receive = some r → r < s.rt.nextReceive ∧ (s.rt.receives r).actor = a ∧
      s.purpose r = .call c.requestId
  requests : ∀ a c id q n, s.Sent a (.call c id q n) →
    (s.made c)[n]? = some (a, q) ∧ id = n % requestIds
  requestOnce : ∀ a c n, s.Once a (IsRequest c n)
  handled : ∀ h ∈ s.handled, h.receive < s.rt.nextReceive ∧
    (s.rt.receives h.receive).actor = h.server ∧
    ∃ e, s.rt.Taken h.receive e ∧
      e.body = .user (.call h.caller h.requestId h.request h.number)
  nodup : (s.handled.map Handled.receive).Nodup
  replies : ∀ a id v n, s.Sent a (.reply id v n) →
    ∃ h ∈ s.handled, h.caller = a ∧ h.requestId = id ∧ h.number = n ∧ h.response = v
  replyOnce : ∀ a n, s.Once a (IsReply n)
  answers : ∀ r v n, s.storage r = some (.answer (some (v, n))) → r < s.rt.nextReceive ∧
    ∃ id, s.purpose r = .call id ∧ s.Sent (s.rt.receives r).actor (.reply id v n)
  returned : ∀ x ∈ s.returned,
    (s.made x.caller)[x.call.number]? = some (x.call.target, x.call.request) ∧
    x.call.requestId = x.call.number % requestIds ∧
    s.Sent x.caller (.reply x.call.requestId x.response x.reply)

lemma correlated_empty : ({} : GenSystem Q V).Correlated := by
  refine ⟨Runtime.owned_empty, fun a => rfl, ?_, ?_, ?_, ?_, List.nodup_nil, ?_, ?_, ?_, ?_⟩
  · intro a c h
    cases h
  · rintro a c id q n ⟨e, he, -⟩
    cases he
  · intro a c n e he
    cases he
  · intro h hh
    cases hh
  · rintro a id v n ⟨e, he, -⟩
    cases he
  · intro a n e he
    cases he
  · intro r v n h
    cases h
  · intro x hx
    cases hx

/-! ### Members -/

/-- The purpose of a receive that does not exist yet. -/
lemma Correlated.setPurpose (h : s.Correlated) (p : Purpose) : (s.setPurpose p).Correlated where
  owned := h.owned
  ids := h.ids
  calls a c hc := by
    obtain ⟨hmade, hid, hreceive⟩ := h.calls a c hc
    refine ⟨hmade, hid, fun r hr => ?_⟩
    obtain ⟨hlt, hactor, hpurpose⟩ := hreceive r hr
    exact ⟨hlt, hactor, (Function.update_of_ne hlt.ne _ _).trans hpurpose⟩
  requests := h.requests
  requestOnce := h.requestOnce
  handled := h.handled
  nodup := h.nodup
  replies := h.replies
  replyOnce := h.replyOnce
  answers r v n hr := by
    obtain ⟨hlt, id, hpurpose, hsent⟩ := h.answers r v n hr
    exact ⟨hlt, id, (Function.update_of_ne hlt.ne _ _).trans hpurpose, hsent⟩
  returned := h.returned

/-- The call under way of an actor. -/
lemma Correlated.setCall (h : s.Correlated) (a : ActorRef) {c : Option (Call Q)}
    (hc : ∀ c', c = some c' → (s.made a)[c'.number]? = some (c'.target, c'.request) ∧
      c'.requestId = c'.number % requestIds ∧
      ∀ r, c'.receive = some r → r < s.rt.nextReceive ∧ (s.rt.receives r).actor = a ∧
        s.purpose r = .call c'.requestId) : (s.setCall a c).Correlated where
  owned := h.owned
  ids := h.ids
  calls x c' hx := by
    by_cases hxa : x = a
    · subst hxa
      exact hc c' (by simpa [GenSystem.setCall] using hx)
    · exact h.calls x c' (by simpa [GenSystem.setCall, hxa] using hx)
  requests := h.requests
  requestOnce := h.requestOnce
  handled := h.handled
  nodup := h.nodup
  replies := h.replies
  replyOnce := h.replyOnce
  answers := h.answers
  returned := h.returned

/-- The call under way ends. -/
lemma Correlated.endCall (h : s.Correlated) (a : ActorRef) : (s.setCall a none).Correlated :=
  h.setCall a fun _ hc => by cases hc

/-- What was made stays made. -/
lemma made_newCall (s : GenSystem Q V) (a target : ActorRef) (request : Q) {c : ActorRef} {n : ℕ}
    {x : ActorRef × Q} (h : (s.made c)[n]? = some x) :
    ((s.newCall a target request).made c)[n]? = some x := by
  by_cases hc : c = a
  · subst hc
    obtain ⟨hlt, -⟩ := List.getElem?_eq_some_iff.mp h
    simp only [newCall, GenSystem.setCall, Function.update_self]
    rw [List.getElem?_append_left hlt]
    exact h
  · simpa [newCall, GenSystem.setCall, hc] using h

/-- A call gets the next number. -/
lemma Correlated.newCall (h : s.Correlated) (a target : ActorRef) (request : Q) :
    (s.newCall a target request).Correlated := by
  have hkeep := fun {c n x} => made_newCall s a target request (c := c) (n := n) (x := x)
  have hmade : (s.newCall a target request).made a = s.made a ++ [(target, request)] := by
    simp [GenSystem.newCall, GenSystem.setCall]
  refine ⟨h.owned, fun x => ?_, fun x c hx => ?_, fun x c id q n hs => ?_, h.requestOnce,
    h.handled, h.nodup, h.replies, h.replyOnce, h.answers, fun x hx => ?_⟩
  · by_cases hx : x = a
    · subst hx
      rw [hmade, List.length_append, List.length_singleton]
      simp only [GenSystem.newCall, GenSystem.setCall, Function.update_self, h.ids x,
        Nat.mod_add_mod]
    · simpa [GenSystem.newCall, GenSystem.setCall, hx] using h.ids x
  · by_cases hxa : x = a
    · subst hxa
      obtain rfl : Call.mk target (s.nextRequestId x) request (s.made x).length none = c := by
        simpa [GenSystem.newCall, GenSystem.setCall] using hx
      refine ⟨by rw [hmade, List.getElem?_concat_length], h.ids x, fun r hr => ?_⟩
      cases hr
    · obtain ⟨hm, hrest⟩ := h.calls x c (by
        simpa [GenSystem.newCall, GenSystem.setCall, hxa] using hx)
      exact ⟨hkeep hm, hrest⟩
  · obtain ⟨hm, hid⟩ := h.requests x c id q n hs
    exact ⟨hkeep hm, hid⟩
  · obtain ⟨hm, hrest⟩ := h.returned x hx
    exact ⟨hkeep hm, hrest⟩

/-- `handle` returns: the request is the one its receive has taken. -/
lemma Correlated.addHandled (h : s.Correlated) {x : Handled Q V} {e : Envelope (GenMessage Q V)}
    (hlt : x.receive < s.rt.nextReceive) (hactor : (s.rt.receives x.receive).actor = x.server)
    (htaken : s.rt.Taken x.receive e)
    (he : e.body = .user (.call x.caller x.requestId x.request x.number))
    (hnew : s.answered x.receive = false) :
    { s with handled := s.handled ++ [x] }.Correlated where
  owned := h.owned
  ids := h.ids
  calls := h.calls
  requests := h.requests
  requestOnce := h.requestOnce
  handled y hy := by
    rcases List.mem_append.mp hy with hy | hy
    · exact h.handled y hy
    · obtain rfl := List.mem_singleton.mp hy
      exact ⟨hlt, hactor, e, htaken, he⟩
  nodup := by
    rw [List.map_append, List.map_singleton]
    refine List.nodup_append.mpr ⟨h.nodup, List.nodup_singleton _, fun r hr r' hr' => ?_⟩
    obtain rfl := List.mem_singleton.mp hr'
    rintro rfl
    obtain ⟨y, hy, heq⟩ := List.mem_map.mp hr
    have := List.any_eq_false.mp hnew y hy
    simp [heq] at this
  replies a id v n hs := by
    obtain ⟨y, hy, hrest⟩ := h.replies a id v n hs
    exact ⟨y, List.mem_append_left _ hy, hrest⟩
  replyOnce := h.replyOnce
  answers := h.answers
  returned := h.returned

/-- A call returns. -/
lemma Correlated.addReturned (h : s.Correlated) {x : Returned Q V}
    (hx : (s.made x.caller)[x.call.number]? = some (x.call.target, x.call.request) ∧
      x.call.requestId = x.call.number % requestIds ∧
      s.Sent x.caller (.reply x.call.requestId x.response x.reply)) :
    { s with returned := s.returned ++ [x] }.Correlated where
  owned := h.owned
  ids := h.ids
  calls := h.calls
  requests := h.requests
  requestOnce := h.requestOnce
  handled := h.handled
  nodup := h.nodup
  replies := h.replies
  replyOnce := h.replyOnce
  answers := h.answers
  returned y hy := by
    rcases List.mem_append.mp hy with hy | hy
    · exact h.returned y hy
    · obtain rfl := List.mem_singleton.mp hy
      exact hx

/-! ### Operations of the runtime -/

section Advance

variable {l : Runtime.Label (GenMessage Q V) (GenResult V)}
  {rt : Runtime (GenMessage Q V) (GenResult V)}

/-- What is sent stays sent. -/
lemma Sent.step {a : ActorRef} {m : GenMessage Q V} (h : s.Sent a m) (hq : s.rt.Quiet l)
    (hstep : s.rt.step l = some rt) : { s with rt := rt }.Sent a m := by
  obtain ⟨e, he, hm⟩ := h
  exact ⟨e, Runtime.mem_enqueued_of_step hq hstep he, hm⟩

/-- A message that is sent was sent before, or is the one the operation posts. -/
lemma sent_cases (hq : s.rt.Quiet l) (hstep : s.rt.step l = some rt) {a : ActorRef}
    {m : GenMessage Q V} (h : { s with rt := rt }.Sent a m) :
    s.Sent a m ∨ Runtime.Posts l a (.user m) := by
  obtain ⟨e, he, hm⟩ := h
  have he' : e ∈ (rt.actors a).enqueued := he
  rcases Runtime.step_enqueued hq hstep a with heq | ⟨e', heq, hposts⟩
  · rw [heq] at he'
    exact .inl ⟨e, he', hm⟩
  · rw [heq] at he'
    rcases List.mem_append.mp he' with he' | he'
    · exact .inl ⟨e, he', hm⟩
    · obtain rfl := List.mem_singleton.mp he'
      exact .inr (hm ▸ hposts)

/-- A message that is posted once, and of a kind that was not there, is the only one. -/
lemma Once.step {a : ActorRef} {p : Message (GenMessage Q V) → Prop} (h : s.Once a p)
    (hq : s.rt.Quiet l) (hstep : s.rt.step l = some rt)
    (hnew : ∀ m, Runtime.Posts l a m → p m → ∀ e ∈ (s.rt.actors a).enqueued, ¬ p e.body) :
    { s with rt := rt }.Once a p := by
  intro e he e' he' hp hp'
  rcases Runtime.step_enqueued hq hstep a with heq | ⟨new, heq, hposts⟩
  · have hsame : ∀ x ∈ (rt.actors a).enqueued, x ∈ (s.rt.actors a).enqueued :=
      fun x hx => heq ▸ hx
    exact h e (hsame e he) e' (hsame e' he') hp hp'
  · have hmem : ∀ x ∈ (rt.actors a).enqueued, x ∈ (s.rt.actors a).enqueued ∨ x = new := by
      intro x hx
      rw [heq, List.mem_append, List.mem_singleton] at hx
      exact hx
    rcases hmem e he with hold | rfl <;> rcases hmem e' he' with hold' | heq'
    · exact h e hold e' hold' hp hp'
    · subst heq'
      exact absurd hp (hnew _ hposts hp' e hold)
    · exact absurd hp' (hnew _ hposts hp e' hold')
    · exact heq'.symm

/-- An operation of the runtime, given what it says about the request or reply it posts and the
answer it stores. -/
lemma Correlated.advance (h : s.Correlated) (hq : s.rt.Quiet l) (hstep : s.rt.step l = some rt)
    (hcall : ∀ x c id q n, Runtime.Posts l x (.user (.call c id q n)) →
      ((s.made c)[n]? = some (x, q) ∧ id = n % requestIds) ∧
      ∀ e ∈ (s.rt.actors x).enqueued, ¬ IsRequest c n e.body)
    (hreply : ∀ x id v n, Runtime.Posts l x (.user (.reply id v n)) →
      (∃ y ∈ s.handled, y.caller = x ∧ y.requestId = id ∧ y.number = n ∧ y.response = v) ∧
      ∀ e ∈ (s.rt.actors x).enqueued, ¬ IsReply n e.body)
    (hanswer : ∀ r v n, (rt.receives r).storage = some (.answer (some (v, n))) →
      s.storage r = some (.answer (some (v, n))) ∨ r < s.rt.nextReceive ∧
        ∃ id, s.purpose r = .call id ∧ s.Sent (s.rt.receives r).actor (.reply id v n)) :
    { s with rt := rt }.Correlated := by
  obtain ⟨hnext, hactors⟩ := Runtime.step_receives hq hstep
  refine ⟨(h.owned.step hq hstep).1, h.ids, fun a c hc => ?_, fun a c id q n hs => ?_,
    fun a c n => ?_, fun y hy => ?_, h.nodup, fun a id v n hs => ?_, fun a n => ?_,
    fun r v n hr => ?_, fun x hx => ?_⟩
  · obtain ⟨hmade, hid, hreceive⟩ := h.calls a c hc
    refine ⟨hmade, hid, fun r hr => ?_⟩
    obtain ⟨hlt, hactor, hpurpose⟩ := hreceive r hr
    exact ⟨hlt.trans_le hnext, (hactors r hlt).trans hactor, hpurpose⟩
  · rcases sent_cases hq hstep hs with hs | hposts
    · exact h.requests a c id q n hs
    · exact (hcall a c id q n hposts).1
  · refine (h.requestOnce a c n).step hq hstep fun m hposts hm => ?_
    obtain ⟨id, q, rfl⟩ := hm
    exact (hcall a c id q n hposts).2
  · obtain ⟨hlt, hactor, e, htaken, he⟩ := h.handled y hy
    exact ⟨hlt.trans_le hnext, (hactors _ hlt).trans hactor, e,
      htaken.step hlt h.owned hq hstep, he⟩
  · rcases sent_cases hq hstep hs with hs | hposts
    · exact h.replies a id v n hs
    · exact (hreply a id v n hposts).1
  · refine (h.replyOnce a n).step hq hstep fun m hposts hm => ?_
    obtain ⟨id, v, rfl⟩ := hm
    exact (hreply a id v n hposts).2
  · have hlater : r < s.rt.nextReceive ∧
        ∃ id, s.purpose r = .call id ∧ s.Sent (s.rt.receives r).actor (.reply id v n) := by
      rcases hanswer r v n hr with hold | hnew
      · exact h.answers r v n hold
      · exact hnew
    obtain ⟨hlt, id, hpurpose, hsent⟩ := hlater
    refine ⟨hlt.trans_le hnext, id, hpurpose, ?_⟩
    have hactor := hactors r hlt
    rw [show ({ s with rt := rt } : GenSystem Q V).rt.receives r = rt.receives r from rfl, hactor]
    exact hsent.step hq hstep
  · obtain ⟨hmade, hid, hsent⟩ := h.returned x hx
    exact ⟨hmade, hid, hsent.step hq hstep⟩

/-- An operation that posts no request or reply and stores no answer. -/
lemma Correlated.plain (h : s.Correlated) (hq : s.rt.Quiet l) (hstep : s.rt.step l = some rt)
    (hposts : ∀ x m, Runtime.Posts l x (.user m) → ∃ q, m = .cast q)
    (hvalue : ∀ value, l = .visitorReturn value ∨ l = .timeoutReturn value →
      ∀ x, value ≠ .answer (some x)) : { s with rt := rt }.Correlated := by
  refine h.advance hq hstep (fun x c id q n hp => ?_) (fun x id v n hp => ?_)
    fun r v n hr => ?_
  · obtain ⟨_, heq⟩ := hposts x _ hp
    cases heq
  · obtain ⟨_, heq⟩ := hposts x _ hp
    cases heq
  · rcases Runtime.step_storage hq hstep r with heq | heq | ⟨value, _, _, _, hl, -, heq⟩ |
      ⟨value, _, hl, -, heq⟩
    · exact .inl (heq.symm.trans hr)
    · rw [heq] at hr
      cases hr
    · rw [heq] at hr
      exact absurd (Option.some.inj hr) (hvalue value (.inl hl) _)
    · rw [heq] at hr
      exact absurd (Option.some.inj hr) (hvalue value (.inr hl) _)

end Advance

/-! ### Steps -/

/-- What the code can do next. -/
inductive Acts (declares : ActorRef → Q → Bool) (s : GenSystem Q V) :
    Label Q V → Option (Runtime.Label (GenMessage Q V) (GenResult V)) → GenSystem Q V → Prop
  | call {a target : ActorRef} {request : Q} :
      Acts declares s (.call target request)
        (if declares target request then
          some (.send target (.call a (s.nextRequestId a) request (s.made a).length))
        else none) (s.newCall a target request)
  | cast {target : ActorRef} {request : Q} :
      Acts declares s (.cast target request)
        (if declares target request then some (.send target (.cast request)) else none) s
  | tryReceive {a : ActorRef} {c : Call Q} (hrun : s.running? = some a)
      (hc : s.calls a = some c) :
      Acts declares s .tryReceive (some (.receive [replyVisitor] true))
        ((s.setPurpose (.call c.requestId)).setCall a
          (some { c with receive := some s.rt.nextReceive }))
  | callTimeout {a : ActorRef} : Acts declares s .callTimeout (some .throw) (s.setCall a none)
  | answer {r requestId id number : ℕ} {response : V}
      (hv : s.visiting? = some (r, .user (.reply requestId response number)))
      (hpurpose : s.purpose r = .call id) :
      Acts declares s .answer (some (.visitorReturn
        (.answer (if requestId = id then some (response, number) else none)))) s
  | expire : Acts declares s .expire (some (.timeoutReturn .expired)) s
  | accept {a : ActorRef} {c : Call Q} {r number : ℕ} {response : V} (hc : s.calls a = some c)
      (hr : c.receive = some r)
      (hstorage : s.storage r = some (.answer (some (response, number)))) :
      Acts declares s .conclude none
        { s.setCall a none with returned := s.returned ++ [Returned.mk a c response number] }
  | skip {a : ActorRef} {c : Call Q} (hc : s.calls a = some c) :
      Acts declares s .conclude none (s.setCall a (some { c with receive := none }))
  | giveUp {a : ActorRef} : Acts declares s .conclude (some .throw) (s.setCall a none)
  | dispatchOne :
      Acts declares s .dispatchOne (some (.receive [fun _ => true] false)) (s.setPurpose .dispatch)
  | handle {r requestId number : ℕ} {caller : ActorRef} {request : Q} {response : V}
      (hv : s.visiting? = some (r, .user (.call caller requestId request number)))
      (hnew : s.answered r = false) :
      Acts declares s (.handle response) (some (.send caller (.reply requestId response number)))
        { s with
          handled := s.handled ++
            [Handled.mk (s.rt.receives r).actor r caller requestId request number response] }
  | dispatched {shouldStop : Bool} :
      Acts declares s .dispatched (some (.visitorReturn (.stop shouldStop))) s
  | receive {visitors : List (Visitor (GenMessage Q V))} {timed : Bool} :
      Acts declares s (.receive visitors timed) (some (.receive visitors timed))
        (s.setPurpose .other)
  | visitorReturn : Acts declares s .visitorReturn (some (.visitorReturn .other)) s
  | timeoutReturn : Acts declares s .timeoutReturn (some (.timeoutReturn .other)) s
  | runtime {l : Runtime.Label (GenMessage Q V) (GenResult V)} (hl : passes l = true) :
      Acts declares s (.runtime l) (some l) s

lemma acts_of_action {l : Label Q V} {o : Option (Runtime.Label (GenMessage Q V) (GenResult V))}
    (haction : s.action declares l = some (o, t)) : Acts declares s l o t := by
  cases l with
  | cast target request =>
      simp only [action, Option.ite_none_right_eq_some] at haction
      obtain ⟨-, heq⟩ := haction
      obtain ⟨rfl, rfl⟩ := Prod.mk.inj (Option.some.inj heq)
      exact .cast
  | receive visitors timed =>
      simp only [action, Option.ite_none_right_eq_some] at haction
      obtain ⟨-, heq⟩ := haction
      obtain ⟨rfl, rfl⟩ := Prod.mk.inj (Option.some.inj heq)
      exact .receive
  | runtime l =>
      simp only [action, Option.ite_none_right_eq_some, Bool.and_eq_true] at haction
      obtain ⟨⟨-, hl⟩, heq⟩ := haction
      obtain ⟨rfl, rfl⟩ := Prod.mk.inj (Option.some.inj heq)
      exact .runtime hl
  | call target request =>
      simp only [action] at haction
      split at haction
      · simp only [Option.ite_none_right_eq_some] at haction
        obtain ⟨rfl, rfl⟩ := Prod.mk.inj (Option.some.inj haction.2)
        exact .call
      · cases haction
  | answer =>
      simp only [action] at haction
      split at haction
      · rename_i hv
        split at haction
        · rename_i hpurpose
          obtain ⟨rfl, rfl⟩ := Prod.mk.inj (Option.some.inj haction)
          exact .answer hv hpurpose
        · cases haction
      · cases haction
  | handle response =>
      simp only [action] at haction
      split at haction
      · rename_i hv
        simp only [Option.ite_none_right_eq_some] at haction
        obtain ⟨⟨-, hnew⟩, heq⟩ := haction
        obtain ⟨rfl, rfl⟩ := Prod.mk.inj (Option.some.inj heq)
        exact .handle hv hnew
      · cases haction
  -- from here on the purpose of the actor decides what the label does
  | tryReceive =>
      simp only [action] at haction
      repeat' split at haction
      all_goals cases haction
      exact .tryReceive ‹_› ‹_›
  | callTimeout =>
      simp only [action] at haction
      repeat' split at haction
      all_goals cases haction
      exact .callTimeout
  | expire =>
      simp only [action] at haction
      repeat' split at haction
      all_goals cases haction
      exact .expire
  | conclude =>
      simp only [action] at haction
      repeat' split at haction
      all_goals cases haction
      · exact .accept ‹_› ‹_› ‹_›
      · exact .skip ‹_›
      · exact .giveUp
  | dispatchOne =>
      simp only [action] at haction
      repeat' split at haction
      all_goals cases haction
      exact .dispatchOne
  | dispatched =>
      simp only [action] at haction
      repeat' split at haction
      all_goals cases haction
      all_goals exact .dispatched
  | visitorReturn =>
      simp only [action] at haction
      repeat' split at haction
      all_goals cases haction
      exact .visitorReturn
  | timeoutReturn =>
      simp only [action] at haction
      repeat' split at haction
      all_goals cases haction
      exact .timeoutReturn

/-- A step changes the members only, or does an operation of the runtime first. -/
lemma step_cases {l : Label Q V} (hstep : s.step declares l = some t) :
    Acts declares s l none t ∨
      ∃ l' u rt, s.action declares l = some (some l', u) ∧ Acts declares s l (some l') u ∧
        s.rt.step l' = some rt ∧ t = { u with rt := rt } := by
  rw [step] at hstep
  split at hstep
  · cases hstep
  · rename_i u haction
    obtain rfl := Option.some.inj hstep
    exact .inl (acts_of_action haction)
  · rename_i l' u haction
    obtain ⟨rt, hrt, rfl⟩ := Option.map_eq_some_iff.mp hstep
    exact .inr ⟨l', u, rt, haction, acts_of_action haction, hrt, rfl⟩

/-- The visitor on top of the stack has taken its message. -/
lemma visiting_spec (h : s.Correlated) {r : ℕ} {m : Message (GenMessage Q V)}
    (hv : s.visiting? = some (r, m)) :
    r < s.rt.nextReceive ∧ (∃ position delivered rest,
      s.rt.stack = .visiting r position delivered :: rest) ∧
      ∃ e ∈ (s.rt.actors (s.rt.receives r).actor).enqueued, s.rt.Taken r e ∧ e.body = m := by
  rw [visiting?] at hv
  split at hv
  · rename_i x position delivered rest hraise hstack
    obtain ⟨e, he, heq⟩ := Option.map_eq_some_iff.mp hv
    obtain ⟨rfl, rfl⟩ := Prod.mk.inj heq
    have hmem : Frame.visiting x position delivered ∈ s.rt.stack := by
      rw [hstack]
      exact List.mem_cons_self
    refine ⟨h.owned.known x (Runtime.mem_visited.mpr ⟨_, _, hmem⟩), ⟨_, _, _, hstack⟩, e, ?_,
      .inr ⟨position, delivered, hmem, he⟩, rfl⟩
    exact (h.owned.order _).subset (List.mem_of_getElem? he)
  · cases hv

/-- A request is taken by one receive. -/
lemma Correlated.taken_unique (h : s.Correlated) {r r' n : ℕ} {c : ActorRef}
    {e e' : Envelope (GenMessage Q V)} (ht : s.rt.Taken r e) (ht' : s.rt.Taken r' e')
    (he : IsRequest c n e.body) (he' : IsRequest c n e'.body) : r = r' := by
  have hmem := ht.mem_enqueued h.owned
  have hmem' := ht'.mem_enqueued h.owned
  have hactor : (s.rt.receives r).actor = (s.rt.receives r').actor := by
    obtain ⟨id, q, hbody⟩ := he
    obtain ⟨id', q', hbody'⟩ := he'
    have hmade := (h.requests _ c id q n ⟨e, hmem, hbody⟩).1
    have hmade' := (h.requests _ c id' q' n ⟨e', hmem', hbody'⟩).1
    exact congrArg Prod.fst (Option.some.inj (hmade.symm.trans hmade'))
  rw [← hactor] at hmem'
  obtain rfl := h.requestOnce _ c n e hmem e' hmem' he he'
  exact ht.unique ht' h.owned hactor

/-- A request is sent. -/
lemma Correlated.call (h : s.Correlated) {a target : ActorRef} {request : Q}
    {rt : Runtime (GenMessage Q V) (GenResult V)}
    (hq : s.rt.Quiet (.send target (.call a (s.nextRequestId a) request (s.made a).length)))
    (hstep : s.rt.step (.send target (.call a (s.nextRequestId a) request (s.made a).length)) =
      some rt) : { s.newCall a target request with rt := rt }.Correlated := by
  refine (h.newCall a target request).advance hq hstep (fun x c id q n hp => ?_)
    (fun x id v n hp => ?_) fun r v n hr => ?_
  · obtain ⟨rfl, hm⟩ := hp
    obtain ⟨rfl, rfl, rfl, rfl⟩ := GenMessage.call.inj (Message.user.inj hm)
    refine ⟨⟨?_, h.ids c⟩, fun e he hreq => ?_⟩
    · simp [GenSystem.newCall, GenSystem.setCall]
    · -- an earlier request would have an earlier number
      obtain ⟨id', q', hbody⟩ := hreq
      obtain ⟨hmade, -⟩ := h.requests x c id' q' _ ⟨e, he, hbody⟩
      obtain ⟨hlt, -⟩ := List.getElem?_eq_some_iff.mp hmade
      exact absurd hlt (lt_irrefl _)
  · cases Message.user.inj hp.2
  · rcases Runtime.step_storage hq hstep r with heq | heq | ⟨value, _, _, _, hl, -⟩ |
      ⟨value, _, hl, -⟩
    · exact .inl (heq.symm.trans hr)
    · rw [heq] at hr
      cases hr
    · cases hl
    · cases hl

/-- A reply is sent. -/
lemma Correlated.handle (h : s.Correlated) {r : ℕ} {caller : ActorRef} {requestId number : ℕ}
    {request : Q} {response : V} {rt : Runtime (GenMessage Q V) (GenResult V)}
    (hv : s.visiting? = some (r, .user (.call caller requestId request number)))
    (hnew : s.answered r = false)
    (hq : s.rt.Quiet (.send caller (.reply requestId response number)))
    (hstep : s.rt.step (.send caller (.reply requestId response number)) = some rt) :
    { s with
      rt := rt
      handled := s.handled ++
        [Handled.mk (s.rt.receives r).actor r caller requestId request number response]
      }.Correlated := by
  obtain ⟨hlt, -, e, -, htaken, he⟩ := visiting_spec h hv
  have hadd := h.addHandled (x := ⟨(s.rt.receives r).actor, r, caller, requestId, request, number,
    response⟩) hlt rfl htaken he hnew
  refine hadd.advance hq hstep (fun x c id q n hp => ?_) (fun x id v n hp => ?_) fun r v n hr => ?_
  · cases Message.user.inj hp.2
  · obtain ⟨rfl, hm⟩ := hp
    obtain ⟨rfl, rfl, rfl⟩ := GenMessage.reply.inj (Message.user.inj hm)
    refine ⟨⟨_, List.mem_append_right _ (List.mem_singleton_self _), rfl, rfl, rfl, rfl⟩,
      fun e' he' hrep => ?_⟩
    -- an earlier reply would have been sent in this very receive
    obtain ⟨id', v', hbody⟩ := hrep
    obtain ⟨y, hy, hcaller, -, hnumber, -⟩ := h.replies x id' v' _ ⟨e', he', hbody⟩
    obtain ⟨-, -, e'', htaken', hbody'⟩ := h.handled y hy
    rw [hcaller, hnumber] at hbody'
    have hsame := h.taken_unique htaken' htaken ⟨_, _, hbody'⟩ ⟨_, _, he⟩
    have hany := List.any_eq_false.mp hnew y hy
    simp [hsame] at hany
  · rcases Runtime.step_storage hq hstep r with heq | heq | ⟨value, _, _, _, hl, -⟩ |
      ⟨value, _, hl, -⟩
    · exact .inl (heq.symm.trans hr)
    · rw [heq] at hr
      cases hr
    · cases hl
    · cases hl

/-- A reply is looked at. -/
lemma Correlated.answer (h : s.Correlated) {r : ℕ} {requestId id number : ℕ} {response : V}
    {rt : Runtime (GenMessage Q V) (GenResult V)}
    (hv : s.visiting? = some (r, .user (.reply requestId response number)))
    (hpurpose : s.purpose r = .call id)
    (hstep : s.rt.step (.visitorReturn
      (.answer (if requestId = id then some (response, number) else none))) = some rt) :
    { s with rt := rt }.Correlated := by
  obtain ⟨hlt, ⟨position, delivered, rest, hstack⟩, e, hmem, -, he⟩ := visiting_spec h hv
  have hq : s.rt.Quiet (.visitorReturn
    (.answer (if requestId = id then some (response, number) else none))) := trivial
  refine h.advance hq hstep (fun x c id q n hp => hp.elim) (fun x id v n hp => hp.elim)
    fun x v n hr => ?_
  rcases Runtime.step_storage hq hstep x with heq | heq | ⟨value, _, _, _, hl, hstack', heq⟩ |
    ⟨value, _, hl, -⟩
  · exact .inl (heq.symm.trans hr)
  · rw [heq] at hr
    cases hr
  · right
    rw [hstack] at hstack'
    obtain ⟨rfl, -, -⟩ := Frame.visiting.inj (List.cons.inj hstack').1
    obtain rfl := Runtime.Label.visitorReturn.inj hl
    rw [heq, Option.some.injEq, GenResult.answer.injEq] at hr
    split at hr
    · rename_i hid
      obtain ⟨rfl, rfl⟩ := Prod.mk.inj (Option.some.inj hr)
      exact ⟨hlt, id, hpurpose, e, hmem, by rw [he, hid]⟩
    · cases hr
  · cases hl

/-- The coroutine on top of the stack. -/
lemma running_spec {a : ActorRef} (hrun : s.running? = some a) :
    s.rt.raising = false ∧ ∃ rest, s.rt.stack = .running a :: rest := by
  rw [running?] at hrun
  split at hrun
  · rename_i x rest hraise hstack
    obtain rfl := Option.some.inj hrun
    exact ⟨hraise, rest, hstack⟩
  · cases hrun

/-- `call` waits for a reply. -/
lemma Correlated.tryReceive (h : s.Correlated) {a : ActorRef} {c : Call Q}
    {rt : Runtime (GenMessage Q V) (GenResult V)} (hrun : s.running? = some a)
    (hc : s.calls a = some c) (hq : s.rt.Quiet (.receive [replyVisitor] true))
    (hstep : s.rt.step (.receive [replyVisitor] true) = some rt) :
    { (s.setPurpose (.call c.requestId)).setCall a
        (some { c with receive := some s.rt.nextReceive }) with rt := rt }.Correlated := by
  obtain ⟨hraise, rest, hstack⟩ := running_spec hrun
  have hrt : s.rt.beginReceive a rest [replyVisitor] true = rt := by
    simpa [Runtime.step, hraise, hstack] using hstep
  obtain ⟨-, hactor, -, hnext⟩ := Runtime.receives_beginReceive s.rt a rest [replyVisitor] true
  rw [hrt] at hactor hnext
  obtain ⟨hmade, hid, -⟩ := h.calls a c hc
  have hwait := (h.setPurpose (.call c.requestId)).plain hq hstep (fun x m hp => hp.elim) (by simp)
  refine hwait.setCall a fun c' hc' => ?_
  obtain rfl := Option.some.inj hc'
  refine ⟨hmade, hid, fun r hr => ?_⟩
  obtain rfl := Option.some.inj hr
  exact ⟨hnext.ge, hactor, Function.update_self _ _ _⟩

/-- A step that does no operation of the runtime. -/
lemma Correlated.members (h : s.Correlated) {l : Label Q V} (hacts : Acts declares s l none t) :
    t.Correlated := by
  generalize ho : none = o at hacts
  cases hacts with
  | call => exact h.newCall _ _ _
  | cast => exact h
  | accept hc hr hstorage =>
      -- the reply has the id that the receive was made for
      obtain ⟨hmade, hid, hreceive⟩ := h.calls _ _ hc
      obtain ⟨-, hactor, hpurpose⟩ := hreceive _ hr
      obtain ⟨-, id, hpurpose', hsent⟩ := h.answers _ _ _ hstorage
      rw [← Purpose.call.inj (hpurpose.symm.trans hpurpose'), hactor] at hsent
      exact (h.endCall _).addReturned ⟨hmade, hid, hsent⟩
  | skip hc =>
      obtain ⟨hmade, hid, -⟩ := h.calls _ _ hc
      refine h.setCall _ fun c' hc' => ?_
      obtain rfl := Option.some.inj hc'
      exact ⟨hmade, hid, fun r hr => by cases hr⟩
  | _ => cases ho

/-- A step that does an operation of the runtime. -/
lemma Correlated.operates (h : s.Correlated) {l : Label Q V}
    {l' : Runtime.Label (GenMessage Q V) (GenResult V)} {u : GenSystem Q V}
    {rt : Runtime (GenMessage Q V) (GenResult V)} (hacts : Acts declares s l (some l') u)
    (hq : s.rt.Quiet l') (hrt : s.rt.step l' = some rt) : { u with rt := rt }.Correlated := by
  generalize ho : some l' = o at hacts
  cases hacts with
  | call =>
      split at ho
      · obtain rfl := Option.some.inj ho
        exact h.call hq hrt
      · cases ho
  | cast =>
      split at ho
      · obtain rfl := Option.some.inj ho
        exact h.plain hq hrt (fun x m hp => ⟨_, Message.user.inj hp.2⟩) (by simp)
      · cases ho
  | tryReceive hrun hc =>
      obtain rfl := Option.some.inj ho
      exact h.tryReceive hrun hc hq hrt
  | callTimeout | giveUp =>
      obtain rfl := Option.some.inj ho
      exact (h.endCall _).plain hq hrt (fun x m hp => hp.elim) (by simp)
  | answer hv hpurpose =>
      obtain rfl := Option.some.inj ho
      exact h.answer hv hpurpose hrt
  | expire | dispatched | visitorReturn | timeoutReturn =>
      obtain rfl := Option.some.inj ho
      exact h.plain hq hrt (fun x m hp => hp.elim) (by simp)
  | accept | skip => cases ho
  | dispatchOne | receive =>
      obtain rfl := Option.some.inj ho
      exact (h.setPurpose _).plain hq hrt (fun x m hp => hp.elim) (by simp)
  | handle hv hnew =>
      obtain rfl := Option.some.inj ho
      exact h.handle hv hnew hq hrt
  | runtime hl =>
      obtain rfl := Option.some.inj ho
      refine h.plain hq hrt (fun x m hp => ?_) fun value hvalue => ?_
      · -- `stop` and `notify_exit` send signals only
        cases l' with
        | stop _ _ | signal =>
            obtain ⟨sg, hsg⟩ := hp
            cases hsg
        | send _ _ => cases hl
        | _ => exact hp.elim
      · rcases hvalue with rfl | rfl <;> cases hl

lemma Correlated.step (h : s.Correlated) {l : Label Q V} (hq : s.Quiet declares l)
    (hstep : s.step declares l = some t) : t.Correlated := by
  rcases step_cases hstep with hacts | ⟨l', u, rt, haction, hacts, hrt, rfl⟩
  · exact h.members hacts
  · exact h.operates hacts (hq l' u haction) hrt

/-! ### Calls -/

/-- `handle` of a client's request is recorded once. -/
lemma Correlated.handled_unique (h : s.Correlated) {x y : Handled Q V} (hx : x ∈ s.handled)
    (hy : y ∈ s.handled) (hcaller : x.caller = y.caller) (hnumber : x.number = y.number) :
    x = y := by
  obtain ⟨-, -, e, htaken, he⟩ := h.handled x hx
  obtain ⟨-, -, e', htaken', he'⟩ := h.handled y hy
  rw [hcaller, hnumber] at he
  have hreceive := h.taken_unique htaken htaken' ⟨_, _, he⟩ ⟨_, _, he'⟩
  exact List.inj_on_of_nodup_map h.nodup hx hy hreceive

/-- What was handled was asked for. -/
lemma Correlated.made_of_handled (h : s.Correlated) {x : Handled Q V} (hx : x ∈ s.handled) :
    (s.made x.caller)[x.number]? = some (x.server, x.request) ∧
      x.requestId = x.number % requestIds := by
  obtain ⟨-, hactor, e, htaken, he⟩ := h.handled x hx
  have hmem := htaken.mem_enqueued h.owned
  rw [hactor] at hmem
  exact h.requests _ _ _ _ _ ⟨e, hmem, he⟩

/-- While the counter has not wrapped, a request id is the number of the call. -/
lemma mod_requestIds {a : ActorRef} {n : ℕ} {x : ActorRef × Q} (hn : (s.made a)[n]? = some x)
    (hmade : (s.made a).length ≤ requestIds) : n % requestIds = n := by
  obtain ⟨hlt, -⟩ := List.getElem?_eq_some_iff.mp hn
  exact Nat.mod_eq_of_lt (hlt.trans_le hmade)

/-- Calls are answered as they should be. -/
structure Answered (s : GenSystem Q V) : Prop where
  /-- A call that has returned got the reply to its own request, on which `handle` of the target
  ran once and returned the response. -/
  returned : ∀ x ∈ s.returned, x.reply = x.call.number ∧
    ∃ h, s.handled.filter (fun h => h.caller = x.caller ∧ h.number = x.call.number) = [h] ∧
      h.server = x.call.target ∧ h.request = x.call.request ∧ h.response = x.response
  /-- One reply at most is sent for each caller and request id, -/
  handled : (s.handled.map fun h => (h.caller, h.requestId)).Nodup
  /-- and one at most arrives. -/
  replies : ∀ a id, s.Once a fun m => ∃ v n, m = .user (.reply id v n)

lemma Correlated.answered (h : s.Correlated) (hmade : ∀ a, (s.made a).length ≤ requestIds) :
    s.Answered := by
  have hnodup : s.handled.Nodup := List.Nodup.of_map _ h.nodup
  have hid : ∀ y ∈ s.handled, y.requestId = y.number := by
    intro y hy
    obtain ⟨hm, hid⟩ := h.made_of_handled hy
    rw [hid, mod_requestIds hm (hmade _)]
  refine ⟨fun x hx => ?_, ?_, fun a id e he e' he' hreply hreply' => ?_⟩
  · obtain ⟨hm, hxid, hsent⟩ := h.returned x hx
    obtain ⟨y, hy, hcaller, hyid, hnumber, hresponse⟩ := h.replies _ _ _ _ hsent
    have hnum : y.number = x.call.number := by
      rw [← hid y hy, hyid, hxid, mod_requestIds hm (hmade _)]
    refine ⟨by rw [← hnumber, hnum], y, ?_, ?_⟩
    · refine List.perm_singleton.mp ((List.perm_ext_iff_of_nodup (hnodup.filter _)
        (List.nodup_singleton y)).mpr fun z => ?_)
      simp only [List.mem_filter, decide_eq_true_eq, List.mem_singleton]
      refine ⟨fun ⟨hz, hzc, hzn⟩ => ?_, ?_⟩
      · exact h.handled_unique hz hy (hzc.trans hcaller.symm) (hzn.trans hnum.symm)
      · rintro rfl
        exact ⟨hy, hcaller, hnum⟩
    · have hmy := (h.made_of_handled hy).1
      rw [hcaller, hnum, hm] at hmy
      obtain ⟨htarget, hrequest⟩ := Prod.mk.inj (Option.some.inj hmy)
      exact ⟨htarget.symm, hrequest.symm, hresponse⟩
  · refine (List.nodup_map_iff_inj_on hnodup).mpr fun x hx y hy heq => ?_
    obtain ⟨hcaller, hxy⟩ := Prod.mk.inj heq
    rw [hid x hx, hid y hy] at hxy
    exact h.handled_unique hx hy hcaller hxy
  · obtain ⟨v, n, hb⟩ := hreply
    obtain ⟨v', n', hb'⟩ := hreply'
    obtain ⟨y, hy, -, hyid, hnumber, -⟩ := h.replies _ _ _ _ ⟨e, he, hb⟩
    obtain ⟨y', hy', -, hyid', hnumber', -⟩ := h.replies _ _ _ _ ⟨e', he', hb'⟩
    have hn : n = n' := by
      rw [← hnumber, ← hnumber', ← hid y hy, ← hid y' hy', hyid, hyid']
    subst hn
    exact h.replyOnce a n e he e' he' ⟨_, _, hb⟩ ⟨_, _, hb'⟩

/-- In every run of quiet steps in which no client has made more than `2 ^ 64` calls, calls are
answered as they should be. -/
theorem calls_answered {labels : List (Label Q V)}
    (hrun : run (step declares) {} labels = some s)
    (hquiet : AllSteps (step declares) (Quiet declares) {} labels)
    (hmade : ∀ a, (s.made a).length ≤ requestIds) : s.Answered := by
  have h : s.Correlated :=
    invariant (fun s l t hs hq ht => hs.step hq ht) correlated_empty hquiet hrun
  exact h.answered hmade

/-- A step makes one call at most. -/
lemma length_made_step {l : Label Q V} (hstep : s.step declares l = some t) (a : ActorRef) :
    (t.made a).length ≤ (s.made a).length + 1 := by
  have hacts : ∀ o u, Acts declares s l o u → (u.made a).length ≤ (s.made a).length + 1 := by
    intro o u hacts
    cases hacts with
    | @call c target request =>
        by_cases ha : a = c <;> simp [newCall, GenSystem.setCall, ha]
    | _ => exact Nat.le_succ _
  rcases step_cases hstep with h | ⟨l', u, rt, -, h, -, rfl⟩
  · exact hacts none t h
  · exact hacts (some l') u h

/-- A run makes one call a step at most. -/
lemma length_made_le {labels : List (Label Q V)} (hrun : run (step declares) s labels = some t)
    (a : ActorRef) : (t.made a).length ≤ (s.made a).length + labels.length := by
  induction labels generalizing s with
  | nil =>
      obtain rfl := Option.some.inj hrun
      exact Nat.le_add_right _ _
  | cons l labels ih =>
      rw [run_cons, Option.bind_eq_some_iff] at hrun
      obtain ⟨u, hu, hut⟩ := hrun
      have hstep := length_made_step hu a
      have hrest := ih hut
      rw [List.length_cons]
      omega

/-- Every target declares the request. -/
def declaresAll : ActorRef → Unit → Bool := fun _ _ => true

/-- A client gives up a call and makes another one to another server. The reply to the first
arrives late, while the client waits for the second, and is skipped. -/
def lateReply : List (Label Unit ℕ) :=
  [.runtime (.spawn 0 0), .runtime (.spawn 0 0), .runtime (.spawn 0 0), .runtime .resume,
    .call 2 (), .callTimeout, .runtime .catch, .call 3 (), .tryReceive,
    .runtime .resume, .dispatchOne, .handle 7, .answer, .dispatched, .dispatchOne,
    .runtime .resume, .dispatchOne, .handle 8, .dispatched, .dispatchOne,
    .runtime .resume, .conclude, .tryReceive, .answer, .conclude]

/-- The reply to the call that has timed out comes late, and only the second call returns. -/
theorem calls_answered_lateReply :
    (reached (step declaresAll) {} lateReply).returned.map
      (fun x => (x.caller, x.call.target, x.response)) = [(1, 3, 8)] ∧
      (reached (step declaresAll) {} lateReply).Answered := by
  have hrun : run (step declaresAll) {} lateReply =
    some (reached (step declaresAll) {} lateReply) := run_eq_reached (by decide +kernel)
  refine ⟨by decide +kernel, calls_answered hrun (by decide +kernel) fun a => ?_⟩
  exact (length_made_le hrun a).trans (show 0 + lateReply.length ≤ requestIds by decide)

/-! ### The counter wraps -/

/-- A client makes a call to an actor and gives it up at once. -/
def giveUp (x : ActorRef) (q : Q) : List (Label Q V) := [.call x q, .callTimeout, .runtime .catch]

/-- The state in which a client has given up a number of calls. -/
def givenUp (s : GenSystem Q V) (a x : ActorRef) (q : Q) (n : ℕ) : GenSystem Q V :=
  { s with
    nextRequestId := Function.update s.nextRequestId a ((s.nextRequestId a + n) % requestIds)
    made := Function.update s.made a (s.made a ++ List.replicate n (x, q)) }

lemma givenUp_zero {a x : ActorRef} {q : Q} (hid : s.nextRequestId a < requestIds) :
    s.givenUp a x q 0 = s := by
  simp [givenUp, Nat.mod_eq_of_lt hid]

lemma givenUp_succ {a x : ActorRef} {q : Q} (n : ℕ) :
    (s.givenUp a x q 1).givenUp a x q n = s.givenUp a x q (n + 1) := by
  simp [givenUp, Nat.add_assoc, Nat.add_comm 1 n, List.replicate_succ]

/-- Only the counter changes when a client gives up a call to an actor that is not there. -/
lemma run_giveUp (declares : ActorRef → Q → Bool) {a x : ActorRef} (q : Q)
    (hrun : s.running? = some a) (hcalls : s.calls a = none) (hx : s.rt.registered x = false) :
    run (step declares) s (giveUp x q) = some (s.givenUp a x q 1) ∧
      AllSteps (step declares) (Quiet declares) s (giveUp x q) := by
  obtain ⟨hraise, rest, hstack⟩ := running_spec hrun
  have huser : s.rt.userCode = true := by
    simp [Runtime.userCode, hraise, hstack, Frame.isExiting]
  -- the request is dropped
  have hcall : s.step declares (.call x q) = some (s.newCall a x q) := by
    have hsend : ∀ m, s.rt.step (.send x m) = some s.rt := by
      intro m
      simp [Runtime.step, huser, Runtime.send, hx]
    simp only [step, action, hrun, hcalls, Option.isNone_none, if_true]
    by_cases hd : declares x q = true <;> simp [hd, hsend, GenSystem.newCall, GenSystem.setCall]
  have htimeout : (s.newCall a x q).step declares .callTimeout = some
      { (s.newCall a x q).setCall a none with rt := { s.rt with raising := true } } := by
    have hthrow : (s.newCall a x q).rt.step .throw = some { s.rt with raising := true } := by
      simp [Runtime.step, huser, hstack, GenSystem.newCall, GenSystem.setCall]
    have hc : (s.newCall a x q).calls a =
        some (Call.mk x (s.nextRequestId a) q (s.made a).length none) := by
      simp [GenSystem.newCall, GenSystem.setCall]
    have hrun' : (s.newCall a x q).running? = some a := hrun
    simp only [step, action, hrun', hc, Option.isNone_none, if_true, hthrow,
      Option.map_some]
  have hcatch : step declares
      { (s.newCall a x q).setCall a none with rt := { s.rt with raising := true } }
      (.runtime .catch) = some (s.givenUp a x q 1) := by
    have hrt : ({ s.rt with raising := true } : Runtime _ _).step .catch = some s.rt := by
      have hcode : s.rt.stack.head?.any Frame.isExiting = false := by
        rw [hstack]
        rfl
      simp [Runtime.step, hcode, ← hraise]
    have hfree : free
        { (s.newCall a x q).setCall a none with rt := { s.rt with raising := true } } = true := by
      simp [free, hstack, GenSystem.setCall]
    simp only [step, action, hfree, passes, Bool.and_self, if_true, hrt, Option.map_some]
    simp [givenUp, GenSystem.newCall, GenSystem.setCall, ← hcalls]
  refine ⟨?_, ?_⟩
  · rw [giveUp, run_cons, hcall, Option.bind_some, run_cons, htimeout, Option.bind_some,
      run_cons, hcatch, Option.bind_some, run_nil]
  · have hquiet : Quiet declares s (.call x q) := by
      intro l' u haction
      generalize ho : some l' = o at haction
      cases acts_of_action haction with
      | call =>
          split at ho
          · obtain rfl := Option.some.inj ho
            exact fun hreg => absurd hreg (by rw [hx]; decide)
          · cases ho
    have hquiet' : ∀ u : GenSystem Q V, Quiet declares u .callTimeout := by
      intro u l' u' haction
      cases acts_of_action haction
      trivial
    have hquiet'' : ∀ u : GenSystem Q V, Quiet declares u (.runtime .catch) := by
      intro u l' u' haction
      cases acts_of_action haction
      trivial
    refine ⟨hquiet, fun u _ => ⟨hquiet' u, fun u' _ => ⟨hquiet'' u', fun _ _ => trivial⟩⟩⟩

/-- Nothing but the counter changes, however often. -/
lemma run_giveUps (declares : ActorRef → Q → Bool) {a x : ActorRef} (q : Q) (n : ℕ)
    (hrun : s.running? = some a) (hcalls : s.calls a = none) (hx : s.rt.registered x = false)
    (hid : s.nextRequestId a < requestIds) :
    run (step declares) s (List.replicate n (giveUp x q)).flatten = some (s.givenUp a x q n) ∧
      AllSteps (step declares) (Quiet declares) s (List.replicate n (giveUp x q)).flatten := by
  induction n generalizing s with
  | zero => exact ⟨by rw [givenUp_zero hid]; rfl, trivial⟩
  | succ n ih =>
      obtain ⟨hone, hquiet⟩ := run_giveUp declares q hrun hcalls hx
      have hnext : (s.givenUp a x q 1).nextRequestId a < requestIds := by
        simp only [givenUp, Function.update_self]
        exact Nat.mod_lt _ (by decide)
      obtain ⟨hmany, hquiets⟩ := ih (s := s.givenUp a x q 1) hrun hcalls hx hnext
      rw [List.replicate_succ, List.flatten_cons]
      refine ⟨?_, (allSteps_append hone).mpr ⟨hquiet, hquiets⟩⟩
      rw [run_append, hone, Option.bind_some, hmany, givenUp_succ]

/-- Before the counter wraps: a client has given up a call to a slow server. -/
def beforeWrap : List (Label Unit ℕ) :=
  [.runtime (.spawn 0 0), .runtime (.spawn 0 0), .runtime (.spawn 0 0), .runtime .resume,
    .call 2 (), .callTimeout, .runtime .catch]

/-- After the counter has wrapped: the client calls another server, which exits, and the slow one
replies at last. -/
def afterWrap : List (Label Unit ℕ) :=
  [.call 3 (), .tryReceive, .runtime .resume, .dispatchOne, .handle 7, .answer, .dispatched,
    .dispatchOne, .runtime .resume, .runtime .finish, .runtime .signal, .runtime .resume,
    .conclude]

/-- The state in which the counter is back at its start. -/
def atWrap : GenSystem Unit ℕ :=
  (reached (step declaresAll) {} beforeWrap).givenUp 1 9 () (requestIds - 1)

/-- Once the counter has wrapped, the reply to a call that was given up is returned by a later
call to another server, whose `handle` never ran. -/
theorem late_reply_returned_after_wrap :
    ∃ (labels : List (Label Unit ℕ)) (s : GenSystem Unit ℕ),
      run (step declaresAll) {} labels = some s ∧
        AllSteps (step declaresAll) (Quiet declaresAll) {} labels ∧ ¬ s.Answered := by
  have hbefore : run (step declaresAll) {} beforeWrap =
    some (reached (step declaresAll) {} beforeWrap) := run_eq_reached (by decide +kernel)
  have hafter : run (step declaresAll) atWrap afterWrap =
    some (reached (step declaresAll) atWrap afterWrap) := run_eq_reached (by decide +kernel)
  obtain ⟨hwrap, hquiet⟩ := run_giveUps (s := reached (step declaresAll) {} beforeWrap)
    declaresAll (a := 1) (x := 9) () (requestIds - 1) (by decide +kernel) (by decide +kernel)
    (by decide +kernel) (by decide +kernel)
  refine ⟨beforeWrap ++ ((List.replicate (requestIds - 1) (giveUp 9 ())).flatten ++ afterWrap),
    reached (step declaresAll) atWrap afterWrap, ?_, ?_, fun hanswered => ?_⟩
  · rw [run_append, hbefore, Option.bind_some, run_append, hwrap, Option.bind_some]
    exact hafter
  · refine (allSteps_append hbefore).mpr ⟨by decide +kernel, ?_⟩
    refine (allSteps_append hwrap).mpr ⟨hquiet, ?_⟩
    exact show AllSteps (step declaresAll) (Quiet declaresAll) atWrap afterWrap by decide +kernel
  · -- the call to 3 has returned, and only 2 has handled a request
    have htargets : (reached (step declaresAll) atWrap afterWrap).returned.map
        (fun x => x.call.target) = [3] := by decide +kernel
    have hservers : (reached (step declaresAll) atWrap afterWrap).handled.map
        Handled.server = [2] := by decide +kernel
    obtain ⟨x, hx, htarget⟩ := List.mem_map.mp (htargets ▸ List.mem_singleton_self 3)
    obtain ⟨-, h, hfilter, hserver, -⟩ := hanswered.returned x hx
    have hmem := List.mem_of_mem_filter (hfilter ▸ List.mem_singleton_self h)
    have htwo := hservers ▸ List.mem_map_of_mem (f := Handled.server) hmem
    rw [hserver, htarget] at htwo
    exact absurd htwo (by decide)

end Agner.GenSystem
