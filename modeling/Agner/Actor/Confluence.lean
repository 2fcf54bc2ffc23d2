import Agner.Actor.Mailbox
import Agner.Foundations.Runs

/-!
What an actor that only receives gets to see, on a single-threaded scheduler.

A message is taken out of the mailbox by `await_ready`, when it is queued before the actor gets to
its receive, or handed over by `enqueue_message`, when the actor is suspended. Visitors return
normally and add nothing to the mailbox, so both are one step here.

* `Program`: the next receive, or the end, from what has been observed so far.
* `Receiver`, `step`: the actor with its mailbox, and its sends, resumptions and receives.
* `Takes`: one receive against all messages at once, with no scheduler in between.
* `receives_confluent`: two runs with the same messages that come to rest observe the same.
-/

namespace Agner.Confluence

open Runs Relation

/-- A message visitor with what it returns. -/
structure Handler (M R : Type) where
  accepts : Visitor M
  result : Message M → R

/-- A receive that has been completed: the visitor, its message and what it returned. -/
structure Observation (M R : Type) where
  visitor : ℕ
  message : Envelope M
  result : R

/-- A sequence of receives: the visitors of the next one, or none at the end of `run`. -/
abbrev Program (M R : Type) := List (Observation M R) → Option (List (Handler M R))

/-- Where the coroutine of the actor is. -/
inductive Control where
  /-- Its handle is in the ready queue. -/
  | scheduled
  | running
  /-- A receive is pending. -/
  | suspended
  | finished
  deriving DecidableEq

/-- An actor on a single-threaded scheduler. -/
structure Receiver (M R : Type) where
  mailbox : List (Envelope M) := []
  control : Control := .scheduled
  observed : List (Observation M R) := []
  /-- The messages sent to the actor so far. -/
  sent : List (Message M) := []

namespace Receiver

variable {M R : Type} {program : Program M R} {s t : Receiver M R}

/-! ### Receiving -/

/-- `try_match_visitors`: the first visitor that accepts the message is run on it. -/
def tryMatchVisitors (handlers : List (Handler M R)) (e : Envelope M) :
    Option (Observation M R) :=
  (handlers.findIdx? fun h => h.accepts e.body).bind fun i =>
    handlers[i]?.map fun h => ⟨i, e, h.result e.body⟩

/-- `try_match_mailbox`: the message that the search finds is visited and erased. -/
def tryMatchMailbox (handlers : List (Handler M R)) (mailbox : List (Envelope M)) :
    Option (Observation M R × List (Envelope M)) :=
  (Agner.tryMatchMailbox (handlers.map Handler.accepts) mailbox).bind fun position =>
    (mailbox[position]?.bind (tryMatchVisitors handlers)).map fun o =>
      (o, mailbox.eraseIdx position)

/-- `try_match` of the next receive of the program. -/
def tryMatch (program : Program M R) (s : Receiver M R) : Option (Receiver M R) :=
  (program s.observed).bind fun handlers =>
    (tryMatchMailbox handlers s.mailbox).map fun p =>
      { s with mailbox := p.2, observed := s.observed ++ [p.1] }

/-- The message with its position among all that were sent. -/
def envelope (s : Receiver M R) (m : Message M) : Envelope M := ⟨s.sent.length, m⟩

/-- `mailbox_.emplace_back`. -/
def push (s : Receiver M R) (m : Message M) : Receiver M R :=
  { s with sent := s.sent ++ [m], mailbox := s.mailbox ++ [s.envelope m] }

/-- `send`: a message to an actor that has exited is dropped; a pending receive is tried, and the
actor scheduled if it matches. -/
def send (program : Program M R) (s : Receiver M R) (m : Message M) : Receiver M R :=
  match s.control with
  | .finished => { s with sent := s.sent ++ [m] }
  | .suspended =>
      match (s.push m).tryMatch program with
      | some t => { t with control := .scheduled }
      | none => s.push m
  | .scheduled | .running => s.push m

/-- The running actor gets to its next receive, or to the end. -/
def receive (program : Program M R) (s : Receiver M R) : Receiver M R :=
  match program s.observed with
  | none => { s with control := .finished }
  | some _ =>
      match s.tryMatch program with
      | some t => t
      | none => { s with control := .suspended }

/-- What the actor, or another one, does next. -/
inductive Label (M : Type) where
  | send (m : Message M)
  /-- The event loop resumes the actor. -/
  | resume
  /-- The actor goes on. -/
  | receive

/-- One step. -/
def step (program : Program M R) (s : Receiver M R) : Label M → Option (Receiver M R)
  | .send m => some (s.send program m)
  | .resume => if s.control = .scheduled then some { s with control := .running } else none
  | .receive => if s.control = .running then some (s.receive program) else none

/-- The actor has come to rest. -/
def atRest (s : Receiver M R) : Bool := s.control = .suspended || s.control = .finished

/-! ### All messages at once -/

/-- One receive, from what has been observed and the messages that are left. -/
def Takes (program : Program M R) (p q : List (Observation M R) × List (Envelope M)) : Prop :=
  ∃ handlers o, program p.1 = some handlers ∧ tryMatchMailbox handlers p.2 = some (o, q.2) ∧
    q.1 = p.1 ++ [o]

lemma takes_rightUnique (program : Program M R) : Relator.RightUnique (Takes program) := by
  rintro p q q' ⟨handlers, o, hp, ho, hq⟩ ⟨handlers', o', hp', ho', hq'⟩
  obtain rfl : handlers = handlers' := Option.some.inj (hp.symm.trans hp')
  obtain ⟨rfl, hrest⟩ := Prod.mk.inj (Option.some.inj (ho.symm.trans ho'))
  exact Prod.ext (hq.trans hq'.symm) hrest

/-- A visitor is run exactly on the messages that the search accepts. -/
lemma isSome_tryMatchVisitors (handlers : List (Handler M R)) (e : Envelope M) :
    (tryMatchVisitors handlers e).isSome =
      Agner.tryMatchVisitors (handlers.map Handler.accepts) e.body := by
  rw [tryMatchVisitors, Agner.tryMatchVisitors, List.any_map]
  cases hfind : handlers.findIdx? fun h => h.accepts e.body with
  | none =>
      rw [List.findIdx?_eq_none_iff] at hfind
      simpa using hfind
  | some i =>
      obtain ⟨hlt, hacc, -⟩ := List.findIdx?_eq_some_iff_getElem.mp hfind
      have hany : handlers.any (fun h => h.accepts e.body) = true :=
        List.any_eq_true.mpr ⟨_, List.getElem_mem hlt, hacc⟩
      simpa [List.getElem?_eq_getElem hlt, Function.comp_def] using hany

/-- The search goes from the oldest message on. -/
lemma tryMatchMailbox_cons (handlers : List (Handler M R)) (e : Envelope M)
    (rest : List (Envelope M)) :
    tryMatchMailbox handlers (e :: rest) =
      match tryMatchVisitors handlers e with
      | some o => some (o, rest)
      | none => (tryMatchMailbox handlers rest).map fun p => (p.1, e :: p.2) := by
  have hacc := isSome_tryMatchVisitors handlers e
  rw [tryMatchMailbox, Agner.tryMatchMailbox, List.findIdx?_cons]
  cases ho : tryMatchVisitors handlers e with
  | some o =>
      rw [ho, Option.isSome_some] at hacc
      simp [← hacc, ho]
  | none =>
      rw [ho, Option.isSome_none] at hacc
      simp only [← hacc, Bool.false_eq_true, if_false, tryMatchMailbox, Agner.tryMatchMailbox]
      cases rest.findIdx? fun e => Agner.tryMatchVisitors (handlers.map Handler.accepts) e.body with
      | none => rfl
      | some position =>
          simp only [Option.map_some, Option.bind_some, List.getElem?_cons_succ,
            List.eraseIdx_cons_succ, Option.map_map, Function.comp_def]

/-- A message that is found is found whatever comes later. -/
lemma tryMatchMailbox_append {handlers : List (Handler M R)} {queue rest : List (Envelope M)}
    {o : Observation M R} (h : tryMatchMailbox handlers queue = some (o, rest))
    (later : List (Envelope M)) :
    tryMatchMailbox handlers (queue ++ later) = some (o, rest ++ later) := by
  induction queue generalizing rest with
  | nil => cases h
  | cons e queue ih =>
      rw [tryMatchMailbox_cons] at h
      rw [List.cons_append, tryMatchMailbox_cons]
      split at h
      · obtain ⟨rfl, rfl⟩ := Prod.mk.inj (Option.some.inj h)
        rfl
      · obtain ⟨⟨o', rest'⟩, hrec, heq⟩ := Option.map_eq_some_iff.mp h
        obtain ⟨rfl, rfl⟩ := Prod.mk.inj heq
        rw [ih hrec]
        rfl

lemma Takes.append {p q : List (Observation M R) × List (Envelope M)} (h : Takes program p q)
    (later : List (Envelope M)) : Takes program (p.1, p.2 ++ later) (q.1, q.2 ++ later) := by
  obtain ⟨handlers, o, hp, ho, hq⟩ := h
  exact ⟨handlers, o, hp, tryMatchMailbox_append ho later, hq⟩

lemma takesMany_append {p q : List (Observation M R) × List (Envelope M)}
    (h : ReflTransGen (Takes program) p q) (later : List (Envelope M)) :
    ReflTransGen (Takes program) (p.1, p.2 ++ later) (q.1, q.2 ++ later) := by
  induction h with
  | refl => exact .refl
  | tail _ hstep ih => exact ih.tail (hstep.append later)

/-! ### Runs -/

/-- All messages that were sent, with their positions. -/
def arrivals (s : Receiver M R) : List (Envelope M) := s.sent.zipIdx.map fun p => ⟨p.2, p.1⟩

/-- The invariant: what was observed is what the program takes from all messages at once, and
the mailbox is what it leaves, up to messages that were dropped. -/
structure Replays (program : Program M R) (s : Receiver M R) : Prop where
  taken : ∃ dropped,
    ReflTransGen (Takes program) ([], s.arrivals) (s.observed, s.mailbox ++ dropped) ∧
      (s.control ≠ .finished → dropped = [])
  suspended : s.control = .suspended →
    ∃ handlers, program s.observed = some handlers ∧ tryMatchMailbox handlers s.mailbox = none
  finished : s.control = .finished → program s.observed = none

lemma arrivals_of_sent {m : Message M} (h : t.sent = s.sent ++ [m]) :
    t.arrivals = s.arrivals ++ [s.envelope m] := by
  simp [arrivals, envelope, h, List.zipIdx_append]

/-- A receive that matches takes one more message. -/
lemma takes_of_tryMatch (h : s.tryMatch program = some t) (dropped : List (Envelope M)) :
    Takes program (s.observed, s.mailbox ++ dropped) (t.observed, t.mailbox ++ dropped) ∧
      t.sent = s.sent ∧ t.control = s.control := by
  obtain ⟨handlers, hp, h⟩ := Option.bind_eq_some_iff.mp h
  obtain ⟨⟨o, rest⟩, ho, rfl⟩ := Option.map_eq_some_iff.mp h
  exact ⟨⟨handlers, o, hp, tryMatchMailbox_append ho dropped, rfl⟩, rfl, rfl⟩

lemma tryMatchMailbox_of_tryMatch {handlers : List (Handler M R)} (h : s.tryMatch program = none)
    (hp : program s.observed = some handlers) : tryMatchMailbox handlers s.mailbox = none := by
  simpa [tryMatch, hp] using h

lemma replays_empty : Replays program {} := by
  refine ⟨⟨[], .refl, fun _ => rfl⟩, fun h => ?_, fun h => ?_⟩
  · cases h
  · cases h

/-- The message reaches the mailbox, and nothing has been tried yet. -/
lemma Replays.taken_push (h : Replays program s) (m : Message M) (hc : s.control ≠ .finished) :
    ReflTransGen (Takes program) ([], (s.push m).arrivals)
      (s.observed, (s.push m).mailbox ++ []) := by
  obtain ⟨dropped, htaken, hnone⟩ := h.taken
  rw [hnone hc, List.append_nil] at htaken
  rw [arrivals_of_sent (s := s) (m := m) rfl, List.append_nil]
  exact takesMany_append htaken [s.envelope m]

lemma Replays.send (h : Replays program s) (m : Message M) :
    Replays program (s.send program m) := by
  rw [Receiver.send]
  split
  · rename_i hc
    obtain ⟨dropped, htaken, -⟩ := h.taken
    refine ⟨⟨dropped ++ [s.envelope m], ?_, fun hne => absurd hc hne⟩, fun hs => ?_,
      fun _ => h.finished hc⟩
    · rw [arrivals_of_sent (s := s) (m := m) rfl, ← List.append_assoc]
      exact takesMany_append htaken [s.envelope m]
    · exact absurd (hc.symm.trans hs) (by simp)
  · rename_i hc
    have hpush := h.taken_push m (by simp [hc])
    split
    · rename_i t ht
      obtain ⟨htakes, hsent, -⟩ := takes_of_tryMatch ht []
      refine ⟨⟨[], ?_, fun _ => rfl⟩, fun hs => ?_, fun hf => ?_⟩
      · rw [arrivals, hsent]
        exact hpush.tail htakes
      · cases hs
      · cases hf
    · rename_i hno
      obtain ⟨handlers, hp, -⟩ := h.suspended hc
      refine ⟨⟨[], hpush, fun _ => rfl⟩, fun _ => ⟨handlers, hp, ?_⟩, fun hf => ?_⟩
      · exact tryMatchMailbox_of_tryMatch hno hp
      · exact absurd (hc.symm.trans hf) (by simp)
  all_goals
    rename_i hc
    refine ⟨⟨[], h.taken_push m (by simp [hc]), fun _ => rfl⟩, fun hs => ?_, fun hf => ?_⟩
    · exact absurd (hc.symm.trans hs) (by simp)
    · exact absurd (hc.symm.trans hf) (by simp)

lemma Replays.receive (h : Replays program s) (hc : s.control = .running) :
    Replays program (s.receive program) := by
  obtain ⟨dropped, htaken, hnone⟩ := h.taken
  have hdropped : dropped = [] := hnone (by simp [hc])
  rw [Receiver.receive]
  split
  · rename_i hp
    refine ⟨⟨dropped, htaken, fun _ => hdropped⟩, fun hs => ?_, fun _ => hp⟩
    cases hs
  · rename_i handlers hp
    split
    · rename_i t ht
      obtain ⟨htakes, hsent, hcontrol⟩ := takes_of_tryMatch ht dropped
      refine ⟨⟨dropped, ?_, fun _ => hdropped⟩, fun hs => ?_, fun hf => ?_⟩
      · rw [arrivals, hsent]
        exact htaken.tail htakes
      · exact absurd (hcontrol.symm.trans hs) (by simp [hc])
      · exact absurd (hcontrol.symm.trans hf) (by simp [hc])
    · rename_i ht
      have hno := tryMatchMailbox_of_tryMatch ht hp
      refine ⟨⟨dropped, htaken, fun _ => hdropped⟩, fun _ => ⟨handlers, hp, hno⟩, fun hf => ?_⟩
      cases hf

lemma Replays.step {l : Label M} (h : Replays program s) (hstep : step program s l = some t) :
    Replays program t := by
  cases l with
  | send m =>
      obtain rfl := Option.some.inj hstep
      exact h.send m
  | resume =>
      simp only [Receiver.step, Option.ite_none_right_eq_some, Option.some.injEq] at hstep
      obtain ⟨hc, rfl⟩ := hstep
      obtain ⟨dropped, htaken, hnone⟩ := h.taken
      refine ⟨⟨dropped, htaken, fun _ => hnone (by simp [hc])⟩, fun hs => ?_, fun hf => ?_⟩
      · cases hs
      · cases hf
  | receive =>
      simp only [Receiver.step, Option.ite_none_right_eq_some, Option.some.injEq] at hstep
      obtain ⟨hc, rfl⟩ := hstep
      exact h.receive hc

/-- At rest, the program takes no further message. -/
lemma Replays.normal (h : Replays program s) (hrest : s.atRest = true) :
    ∃ dropped, ReflTransGen (Takes program) ([], s.arrivals) (s.observed, s.mailbox ++ dropped) ∧
      (s.control = .suspended → dropped = []) ∧
      ∀ q, ¬ Takes program (s.observed, s.mailbox ++ dropped) q := by
  obtain ⟨dropped, htaken, hnone⟩ := h.taken
  refine ⟨dropped, htaken, fun hs => hnone (by simp [hs]), ?_⟩
  rintro q ⟨handlers, o, hp, ho, -⟩
  rcases (by simpa [atRest] using hrest : s.control = .suspended ∨ s.control = .finished) with
    hs | hf
  · -- a pending receive accepts nothing that is queued
    rw [hnone (by simp [hs]), List.append_nil] at ho
    obtain ⟨handlers', hp', hno⟩ := h.suspended hs
    obtain rfl : handlers' = handlers := Option.some.inj (hp'.symm.trans hp)
    rw [hno] at ho
    cases ho
  · rw [h.finished hf] at hp
    cases hp

/-- Two runs with the same messages that come to rest have observed the same, both end or both
wait, and if they wait their mailboxes are the same. -/
theorem receives_confluent {labels labels' : List (Label M)} {s s' : Receiver M R}
    (hrun : run (step program) {} labels = some s)
    (hrun' : run (step program) {} labels' = some s') (hsent : s.sent = s'.sent)
    (hrest : s.atRest = true) (hrest' : s'.atRest = true) :
    s.observed = s'.observed ∧ s.control = s'.control ∧
      (s.control = .suspended → s.mailbox = s'.mailbox) := by
  have h : Replays program s := invariant_of_step (fun _ _ _ h hs => h.step hs) replays_empty hrun
  have h' : Replays program s' :=
    invariant_of_step (fun _ _ _ h hs => h.step hs) replays_empty hrun'
  obtain ⟨dropped, htaken, hnil, hstuck⟩ := h.normal hrest
  obtain ⟨dropped', htaken', hnil', hstuck'⟩ := h'.normal hrest'
  have harr : s'.arrivals = s.arrivals := by rw [arrivals, arrivals, hsent]
  rw [harr] at htaken'
  have heq : (s.observed, s.mailbox ++ dropped) = (s'.observed, s'.mailbox ++ dropped') := by
    rcases ReflTransGen.total_of_right_unique (takes_rightUnique program) htaken htaken' with
      hpath | hpath
    · rcases hpath.cases_head with heq | ⟨q, hq, -⟩
      · exact heq
      · exact absurd hq (hstuck q)
    · rcases hpath.cases_head with heq | ⟨q, hq, -⟩
      · exact heq.symm
      · exact absurd hq (hstuck' q)
  obtain ⟨hobs, hbox⟩ := Prod.mk.inj heq
  have hcontrol : s.control = s'.control := by
    have hone : s.control = .suspended ∨ s.control = .finished := by simpa [atRest] using hrest
    have htwo : s'.control = .suspended ∨ s'.control = .finished := by simpa [atRest] using hrest'
    rcases hone with hs | hf <;> rcases htwo with hs' | hf'
    · rw [hs, hs']
    · obtain ⟨handlers, hp, -⟩ := h.suspended hs
      rw [hobs, h'.finished hf'] at hp
      cases hp
    · obtain ⟨handlers, hp, -⟩ := h'.suspended hs'
      rw [← hobs, h.finished hf] at hp
      cases hp
    · rw [hf, hf']
  refine ⟨hobs, hcontrol, fun hs => ?_⟩
  rw [hnil hs, hnil' (hcontrol ▸ hs), List.append_nil, List.append_nil] at hbox
  exact hbox

/-- A program that waits for an even number, then for any, and ends. -/
def evenThenAny : Program ℕ ℕ := fun observed =>
  let number : Message ℕ → ℕ
    | .user n => n
    | .signal _ => 0
  match observed with
  | [] => some [⟨fun m => match m with | .user n => n % 2 = 0 | .signal _ => false, number⟩]
  | [_] => some [⟨fun m => match m with | .user _ => true | .signal _ => false, number⟩]
  | _ => none

/-- The messages are queued before the actor runs, or come one by one: the same is observed. -/
theorem receives_confluent_evenThenAny :
    (reached (step evenThenAny) {} [.send (.user 3), .send (.user 4), .send (.user 5), .resume,
      .receive, .receive, .receive]).observed.map Observation.result = [4, 3] ∧
    (reached (step evenThenAny) {} [.resume, .receive, .send (.user 3), .send (.user 4), .resume,
      .receive, .receive, .send (.user 5)]).observed =
      (reached (step evenThenAny) {} [.send (.user 3), .send (.user 4), .send (.user 5), .resume,
        .receive, .receive, .receive]).observed :=
  ⟨by decide +kernel, (receives_confluent (run_eq_reached (by decide +kernel))
    (run_eq_reached (by decide +kernel)) rfl (by decide +kernel) (by decide +kernel)).1⟩

end Receiver

end Agner.Confluence
