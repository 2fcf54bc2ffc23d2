import Agner.ActorControl
import Mathlib.Data.Fintype.Card
import Mathlib.Logic.Relation
import Mathlib.Tactic

/-!
`spec/shared/actor_defs.tla` and `spec/shared/actor_system.tla`: the specification of the actor
runtime that the repository keeps beside the code.

`ActorPool`, `MessageIds`, `Payloads` and `TimeoutDelay` are parameters, as in the specification:
the model checker takes two actors, two messages, two payloads and a delay of one.

* `State`, `Next`: the variables and the actions.
* `Inv`: the invariants of the specification, with what makes them inductive.
-/

namespace Agner

namespace ActorSystem

/-! ### `actor_defs` -/

/-- `SpawnKinds`. -/
inductive SpawnKind where
  | collector
  | sequence
  | timeout
  deriving DecidableEq

/-- `PcStates`. -/
inductive Pc where
  | absent
  | collect
  | seqFirst
  | seqSecond
  | trying
  | done
  deriving DecidableEq

/-- `MessageKinds`. -/
inductive MessageKind where
  | ping
  | noise
  deriving DecidableEq

/-- An element of `MessageUniverse`. -/
structure Msg (I P : Type) where
  id : I
  kind : MessageKind
  value : P

/-- `MessageStates`. -/
inductive MessageState where
  | unused
  | queued
  | pending
  | observed
  | dropped
  deriving DecidableEq

/-- What an actor is resumed with: `NoPending`, `TimeoutToken` or a message. -/
inductive Pending (I P : Type) where
  | noPending
  | timeoutToken
  | message (msg : Msg I P)

/-- There is nothing that the actor is resumed with. -/
def Pending.isNoPending {I P : Type} : Pending I P → Bool
  | .noPending => true
  | .timeoutToken | .message _ => false

@[simp]
lemma Pending.isNoPending_iff {I P : Type} {p : Pending I P} :
    p.isNoPending = true ↔ p = .noPending := by
  cases p <;> simp [isNoPending]

/-- An element of `ObservationUniverse`; the signals are observed in other specifications. -/
inductive Observation (I P : Type) where
  | timeoutToken
  | message (msg : Msg I P)

/-- `SpawnPc`. -/
def spawnPc : SpawnKind → Pc
  | .collector => .collect
  | .sequence => .seqFirst
  | .timeout => .trying

/-- `Matches`. -/
def matchesPc {I P : Type} (pc : Pc) (msg : Msg I P) : Bool :=
  match pc with
  | .collect | .seqFirst | .seqSecond | .trying => msg.kind == .ping
  | .absent | .done => false

lemma kind_of_matchesPc {I P : Type} {pc : Pc} {msg : Msg I P} (h : matchesPc pc msg = true) :
    msg.kind = .ping := by
  cases pc <;> simp_all [matchesPc]

/-- `HasMatch`, `FirstMatchIndex` and `RemoveAt`: the first message that matches, and what is left
of the mailbox without it. -/
def firstMatch {I P : Type} (pc : Pc) : List (Msg I P) → Option (Msg I P × List (Msg I P))
  | [] => none
  | msg :: box =>
      if matchesPc pc msg then some (msg, box)
      else (firstMatch pc box).map fun p => (p.1, msg :: p.2)

variable {A I P : Type}

/-- `MarkDropped`. -/
def markDropped [DecidableEq I] (state : I → MessageState) (box : List (Msg I P)) :
    I → MessageState :=
  fun id => if id ∈ box.map Msg.id then .dropped else state id

section FirstMatch

variable {pc : Pc} {box : List (Msg I P)}

lemma firstMatch_eq_none : firstMatch pc box = none ↔ ∀ msg ∈ box, matchesPc pc msg = false := by
  induction box with
  | nil => simp [firstMatch]
  | cons msg box ih =>
      by_cases hm : matchesPc pc msg = true
      · simp [firstMatch, hm]
      · simp [firstMatch, hm, ih]

/-- The message is the first one that matches, and the others are left in their order. -/
lemma firstMatch_eq_some {msg : Msg I P} {rest : List (Msg I P)}
    (h : firstMatch pc box = some (msg, rest)) :
    ∃ older newer, box = older ++ msg :: newer ∧ rest = older ++ newer ∧
      matchesPc pc msg = true ∧ ∀ m ∈ older, matchesPc pc m = false := by
  induction box generalizing rest with
  | nil => cases h
  | cons head box ih =>
      rw [firstMatch] at h
      split_ifs at h with hm
      · cases h
        exact ⟨[], box, rfl, rfl, hm, by simp⟩
      · obtain ⟨⟨m, rest'⟩, hfirst, heq⟩ := Option.map_eq_some_iff.mp h
        cases heq
        obtain ⟨older, newer, rfl, rfl, hacc, hno⟩ := ih hfirst
        refine ⟨head :: older, newer, rfl, rfl, hacc, ?_⟩
        simpa [hm] using hno

lemma firstMatch_append {older newer : List (Msg I P)} {msg : Msg I P}
    (hno : ∀ m ∈ older, matchesPc pc m = false) (hacc : matchesPc pc msg = true) :
    firstMatch pc (older ++ msg :: newer) = some (msg, older ++ newer) := by
  induction older with
  | nil => simp [firstMatch, hacc]
  | cons head older ih =>
      have ih := ih fun m hm => hno m (List.mem_cons_of_mem _ hm)
      simp [firstMatch, hno head List.mem_cons_self, ih]

end FirstMatch

/-! ### `actor_system` -/

/-- The variables. -/
structure State (A I P : Type) where
  live : Finset A := ∅
  kind : A → Option SpawnKind := fun _ => none
  pc : A → Pc := fun _ => .absent
  ready : Finset A := ∅
  mailboxes : A → List (Msg I P) := fun _ => []
  pendingResult : A → Pending I P := fun _ => .noPending
  /-- `none` is `NoDeadline`. -/
  timers : A → Option ℕ := fun _ => none
  observations : A → List (Observation I P) := fun _ => []
  msgState : I → MessageState := fun _ => .unused
  time : ℕ := 0
  links : Finset (A × A) := ∅
  monitors : Finset (A × A) := ∅
  exitReason : A → Option ExitReason := fun _ => none

namespace State

/-- `Init`. -/
def init : State A I P := {}

section Actions

variable [DecidableEq A] [DecidableEq I]

/-- `Spawn`. -/
def spawn (s : State A I P) (a : A) (actorKind : SpawnKind) : State A I P :=
  { s with
    live := insert a s.live
    kind := Function.update s.kind a (some actorKind)
    pc := Function.update s.pc a (spawnPc actorKind)
    ready := insert a s.ready }

/-- `Link`. -/
def link (s : State A I P) (a b : A) : State A I P :=
  { s with links := insert (a, b) (insert (b, a) s.links) }

/-- `SetMonitor`. -/
def setMonitor (s : State A I P) (a b : A) : State A I P :=
  { s with monitors := insert (a, b) s.monitors }

/-- `Send`, to an actor that is live. -/
def send (s : State A I P) (target : A) (msg : Msg I P) : State A I P :=
  if target ∉ s.ready ∧ (s.pendingResult target).isNoPending ∧
      matchesPc (s.pc target) msg then
    { s with
      ready := insert target s.ready
      pendingResult := Function.update s.pendingResult target (.message msg)
      timers :=
        if s.pc target = .trying then Function.update s.timers target none else s.timers
      msgState := Function.update s.msgState msg.id .pending }
  else
    { s with
      mailboxes := Function.update s.mailboxes target (s.mailboxes target ++ [msg])
      msgState := Function.update s.msgState msg.id .queued }

/-- `CompleteActor`. -/
def completeActor (s : State A I P) (a : A) (reason : ExitReason) : State A I P :=
  { s with
    exitReason := Function.update s.exitReason a (some reason)
    links := s.links.filter fun p => p.1 ≠ a ∧ p.2 ≠ a
    monitors := s.monitors.filter fun p => p.2 ≠ a }

/-- The message that the actor goes on with, and its mailbox without it: the pending one, or the
first one that matches. -/
def taken (s : State A I P) (a : A) : Option (Msg I P × List (Msg I P)) :=
  match s.pendingResult a with
  | .message msg =>
      if msg.kind = .ping then some (msg, s.mailboxes a) else firstMatch (s.pc a) (s.mailboxes a)
  | _ => firstMatch (s.pc a) (s.mailboxes a)

/-- The actor is blocked. -/
def block (s : State A I P) (a : A) : State A I P := { s with ready := s.ready.erase a }

/-- The actor ends, after it has observed what is given, with a mailbox of which the rest is
dropped. -/
def finish (s : State A I P) (a : A) (observed : List (Observation I P))
    (msgState : I → MessageState) (rest : List (Msg I P)) : State A I P :=
  { s.completeActor a .normal with
    live := s.live.erase a
    pc := Function.update s.pc a .done
    ready := s.ready.erase a
    mailboxes := Function.update s.mailboxes a []
    pendingResult := Function.update s.pendingResult a .noPending
    timers := Function.update s.timers a none
    observations := Function.update s.observations a (s.observations a ++ observed)
    msgState := markDropped msgState rest }

/-- The end of an actor with the message that it takes. -/
def finishWith (s : State A I P) (a : A) (msg : Msg I P) (rest : List (Msg I P)) : State A I P :=
  s.finish a [.message msg] (Function.update s.msgState msg.id .observed) rest

/-- `RunCollector`. -/
def runCollector (s : State A I P) (a : A) : State A I P :=
  match s.taken a with
  | some (msg, rest) => s.finishWith a msg rest
  | none => s.block a

/-- `RunSequenceFirst`. -/
def runSequenceFirst (s : State A I P) (a : A) : State A I P :=
  match s.taken a with
  | some (msg1, box1) =>
      let state1 := Function.update s.msgState msg1.id .observed
      match firstMatch .seqSecond box1 with
      | some (msg2, rest2) =>
          s.finish a [.message msg1, .message msg2] (Function.update state1 msg2.id .observed) rest2
      | none =>
          { s with
            pc := Function.update s.pc a .seqSecond
            ready := s.ready.erase a
            mailboxes := Function.update s.mailboxes a box1
            pendingResult := Function.update s.pendingResult a .noPending
            observations := Function.update s.observations a (s.observations a ++ [.message msg1])
            msgState := state1 }
  | none => s.block a

/-- `RunSequenceSecond`. -/
def runSequenceSecond (s : State A I P) (a : A) : State A I P :=
  match s.taken a with
  | some (msg, rest) => s.finishWith a msg rest
  | none => s.block a

/-- `RunTimeout`. -/
def runTimeout (timeoutDelay : ℕ) (s : State A I P) (a : A) : State A I P :=
  match s.pendingResult a, s.taken a with
  | .timeoutToken, _ => s.finish a [.timeoutToken] s.msgState (s.mailboxes a)
  | _, some (msg, rest) => s.finishWith a msg rest
  | _, none =>
      { s.block a with timers := Function.update s.timers a (some (s.time + timeoutDelay)) }

/-- `RunReadyActor`. -/
def runReadyActor (timeoutDelay : ℕ) (s : State A I P) (a : A) : Option (State A I P) :=
  match s.kind a, s.pc a with
  | some .collector, .collect => some (s.runCollector a)
  | some .sequence, .seqFirst => some (s.runSequenceFirst a)
  | some .sequence, .seqSecond => some (s.runSequenceSecond a)
  | some .timeout, .trying => some (s.runTimeout timeoutDelay a)
  | _, _ => none

/-- `TimeoutFire`. -/
def timeoutFire (s : State A I P) (a : A) : State A I P :=
  { s with
    ready := insert a s.ready
    pendingResult := Function.update s.pendingResult a .timeoutToken
    timers := Function.update s.timers a none }

/-- `Next`, and the actions of the topology that the specifications of links and monitors add. -/
inductive Next (timeoutDelay : ℕ) (s : State A I P) : State A I P → Prop where
  | spawn (a : A) (actorKind : SpawnKind) (habsent : s.pc a = .absent) :
      Next timeoutDelay s (s.spawn a actorKind)
  | spawnLink (linker a : A) (actorKind : SpawnKind) (habsent : s.pc a = .absent)
      (hlinker : linker ∈ s.live) (hne : linker ≠ a) :
      Next timeoutDelay s ((s.spawn a actorKind).link linker a)
  | spawnMonitor (watcher a : A) (actorKind : SpawnKind) (habsent : s.pc a = .absent)
      (hwatcher : watcher ∈ s.live) (hne : watcher ≠ a) :
      Next timeoutDelay s ((s.spawn a actorKind).setMonitor watcher a)
  | link (a b : A) (ha : a ∈ s.live) (hb : b ∈ s.live) (hne : a ≠ b) (hnew : (a, b) ∉ s.links) :
      Next timeoutDelay s (s.link a b)
  | setMonitor (a b : A) (ha : a ∈ s.live) (hb : b ∈ s.live) (hne : a ≠ b)
      (hnew : (a, b) ∉ s.monitors) : Next timeoutDelay s (s.setMonitor a b)
  | send (target : A) (msg : Msg I P) (hunused : s.msgState msg.id = .unused)
      (htarget : target ∈ s.live) : Next timeoutDelay s (s.send target msg)
  /-- A message to an actor that is not live leaves everything as it is. -/
  | sendDead (target : A) (msg : Msg I P) (hunused : s.msgState msg.id = .unused)
      (htarget : target ∉ s.live) : Next timeoutDelay s s
  | run (a : A) (t : State A I P) (ha : a ∈ s.ready)
      (hrun : s.runReadyActor timeoutDelay a = some t) : Next timeoutDelay s t
  /-- Time goes on to the first deadline, which is the one of `a`. -/
  | advanceTime (a : A) (deadline : ℕ) (ha : s.timers a = some deadline) (htime : s.time < deadline)
      (hmin : ∀ b t, s.timers b = some t → deadline ≤ t) :
      Next timeoutDelay s { s with time := deadline }
  | timeoutFire (a : A) (hlive : a ∈ s.live) (hready : a ∉ s.ready) (hpc : s.pc a = .trying)
      (hpending : s.pendingResult a = .noPending) (htimer : s.timers a = some s.time) :
      Next timeoutDelay s (s.timeoutFire a)

/-- The states of the behaviours of `Spec`. -/
def Reachable (timeoutDelay : ℕ) (s : State A I P) : Prop :=
  Relation.ReflTransGen (Next timeoutDelay) init s

end Actions

/-! ### The invariants of the specification -/

/-- `TypeOK`, as far as the types do not say it: time stays below `MaxTick`. -/
def TypeOK [Fintype A] (timeoutDelay : ℕ) (s : State A I P) : Prop :=
  s.time ≤ Fintype.card A * timeoutDelay ∧
    ∀ a t, s.timers a = some t → t ≤ Fintype.card A * timeoutDelay

/-- `ReadyActorsAreLive`. -/
def ReadyActorsAreLive (s : State A I P) : Prop := s.ready ⊆ s.live

/-- `PendingResultsAreReady`. -/
def PendingResultsAreReady (s : State A I P) : Prop :=
  ∀ a, s.pendingResult a ≠ .noPending → a ∈ s.live ∧ a ∈ s.ready ∧
    match s.pendingResult a with
    | .timeoutToken => s.pc a = .trying
    | .message msg => matchesPc (s.pc a) msg = true
    | .noPending => True

/-- `BlockedActorsHaveNoMatches`. -/
def BlockedActorsHaveNoMatches (s : State A I P) : Prop :=
  ∀ a ∈ s.live, a ∉ s.ready → s.pendingResult a = .noPending ∧
    ∀ msg ∈ s.mailboxes a, matchesPc (s.pc a) msg = false

/-- `TimerDiscipline`. -/
def TimerDiscipline (s : State A I P) : Prop :=
  ∀ a t, s.timers a = some t → a ∈ s.live ∧ a ∉ s.ready ∧ s.pc a = .trying ∧
    s.pendingResult a = .noPending ∧ s.time ≤ t

/-- `CompletedActorsClearedState`. -/
def CompletedActorsClearedState (s : State A I P) : Prop :=
  ∀ a, s.pc a = .done → a ∉ s.live ∧ s.mailboxes a = [] ∧ s.pendingResult a = .noPending ∧
    s.timers a = none

/-- `AbsentActorsStayEmpty`. -/
def AbsentActorsStayEmpty (s : State A I P) : Prop :=
  ∀ a, s.pc a = .absent → a ∉ s.live ∧ s.kind a = none ∧ s.mailboxes a = [] ∧
    s.pendingResult a = .noPending ∧ s.timers a = none ∧ s.observations a = []

/-- `QueuedMessage`. -/
def QueuedMessage (s : State A I P) (id : I) : Prop := ∃ a, id ∈ (s.mailboxes a).map Msg.id

/-- `PendingMessage`. -/
def PendingMessage (s : State A I P) (id : I) : Prop :=
  ∃ a msg, s.pendingResult a = .message msg ∧ msg.id = id

/-- `ObservedMessage`. -/
def ObservedMessage (s : State A I P) (id : I) : Prop :=
  ∃ a msg, Observation.message msg ∈ s.observations a ∧ msg.id = id

/-- `MessageOwnership`. -/
def MessageOwnership (s : State A I P) : Prop :=
  ∀ id, (s.QueuedMessage id ↔ s.msgState id = .queued) ∧
    (s.PendingMessage id ↔ s.msgState id = .pending) ∧
    (s.ObservedMessage id ↔ s.msgState id = .observed)

/-- `LinksAreBidirectional`. -/
def LinksAreBidirectional (s : State A I P) : Prop :=
  ∀ a b, (a, b) ∈ s.links → (b, a) ∈ s.links

/-- `LinksOnlyBetweenLive`. -/
def LinksOnlyBetweenLive (s : State A I P) : Prop :=
  ∀ a b, (a, b) ∈ s.links → a ∈ s.live ∧ b ∈ s.live

/-- `DeadActorsHaveExitReason` and `LiveActorsNoExitReason`. -/
def ExitReasons (s : State A I P) : Prop :=
  (∀ a, s.pc a = .done → s.exitReason a ≠ none) ∧ ∀ a ∈ s.live, s.exitReason a = none

/-! ### What makes them inductive -/

/-- What an actor does, by where it is. -/
def kindOf : Pc → Option SpawnKind
  | .collect => some .collector
  | .seqFirst | .seqSecond => some .sequence
  | .trying => some .timeout
  | .absent | .done => none

/-- The invariants, with the fields that say that a message is in one place only. -/
structure Inv (s : State A I P) : Prop where
  ready : s.ready ⊆ s.live
  pending : ∀ a, s.pendingResult a ≠ .noPending → a ∈ s.ready
  timeout : ∀ a, s.pendingResult a = .timeoutToken → s.pc a = .trying
  matching : ∀ a msg, s.pendingResult a = .message msg → matchesPc (s.pc a) msg = true
  blocked : ∀ a msg, a ∈ s.live → a ∉ s.ready → msg ∈ s.mailboxes a →
    matchesPc (s.pc a) msg = false
  timer : ∀ a t, s.timers a = some t → a ∈ s.live ∧ a ∉ s.ready ∧ s.pc a = .trying ∧ s.time ≤ t
  box : ∀ a, a ∉ s.live → s.mailboxes a = []
  live : ∀ a, a ∈ s.live ↔ s.pc a ≠ .absent ∧ s.pc a ≠ .done
  kind : ∀ a, a ∈ s.live → s.kind a = kindOf (s.pc a)
  absent : ∀ a, s.pc a = .absent →
    s.kind a = none ∧ s.observations a = [] ∧ s.exitReason a = none
  queued : ∀ a msg, msg ∈ s.mailboxes a → s.msgState msg.id = .queued
  pendingState : ∀ a msg, s.pendingResult a = .message msg → s.msgState msg.id = .pending
  observed : ∀ a msg, .message msg ∈ s.observations a → s.msgState msg.id = .observed
  someQueued : ∀ id, s.msgState id = .queued → s.QueuedMessage id
  somePending : ∀ id, s.msgState id = .pending → s.PendingMessage id
  someObserved : ∀ id, s.msgState id = .observed → s.ObservedMessage id
  nodup : ∀ a, ((s.mailboxes a).map Msg.id).Nodup
  oneBox : ∀ a b msg msg', msg ∈ s.mailboxes a → msg' ∈ s.mailboxes b → msg.id = msg'.id → a = b
  onePending : ∀ a b msg msg', s.pendingResult a = .message msg →
    s.pendingResult b = .message msg' → msg.id = msg'.id → a = b
  linked : ∀ a b, (a, b) ∈ s.links → (b, a) ∈ s.links ∧ a ∈ s.live
  reason : ∀ a, (a ∈ s.live → s.exitReason a = none) ∧ (s.pc a = .done → s.exitReason a ≠ none)

variable {s : State A I P} {a b : A} {timeoutDelay : ℕ}

lemma inv_init : (init : State A I P).Inv where
  ready := Finset.Subset.refl _
  pending a h := absurd rfl h
  timeout a h := by cases h
  matching a msg h := by cases h
  blocked a msg h := absurd h (Finset.notMem_empty a)
  timer a t h := by cases h
  box a _ := rfl
  live a := by simp [init]
  kind a h := absurd h (Finset.notMem_empty a)
  absent a _ := ⟨rfl, rfl, rfl⟩
  queued a msg h := absurd h List.not_mem_nil
  pendingState a msg h := by cases h
  observed a msg h := absurd h List.not_mem_nil
  someQueued id h := by cases h
  somePending id h := by cases h
  someObserved id h := by cases h
  nodup a := List.nodup_nil
  oneBox a b msg msg' h := absurd h List.not_mem_nil
  onePending a b msg msg' h := by cases h
  linked a b h := absurd h (Finset.notMem_empty _)
  reason a := ⟨fun _ => rfl, by simp [init]⟩

section Spawn

variable [DecidableEq A]

lemma Inv.spawn {actorKind : SpawnKind} (h : s.Inv) (habsent : s.pc a = .absent) :
    (s.spawn a actorKind).Inv := by
  have hpc : spawnPc actorKind ≠ .absent ∧ spawnPc actorKind ≠ .done ∧
      kindOf (spawnPc actorKind) = some actorKind := by
    cases actorKind <;> simp [spawnPc, kindOf]
  have hlive : a ∉ s.live := fun hl => ((h.live a).mp hl).1 habsent
  have hready : a ∉ s.ready := fun hr => hlive (h.ready hr)
  have hbox := h.box a hlive
  have hpending : s.pendingResult a = .noPending := by
    by_contra hc
    exact hready (h.pending a hc)
  have htimer : s.timers a = none := by
    by_contra hc
    obtain ⟨t, ht⟩ := Option.ne_none_iff_exists'.mp hc
    exact hlive (h.timer a t ht).1
  refine { h with
    ready := Finset.insert_subset_insert a h.ready, pending := ?_, timeout := ?_, matching := ?_,
    blocked := ?_, timer := ?_, box := ?_, live := ?_, kind := ?_, absent := ?_, linked := ?_,
    reason := ?_ }
  all_goals simp only [State.spawn, Function.update_apply, Finset.mem_insert]
  · exact fun b hb => Or.inr (h.pending b hb)
  · grind [h.timeout]
  · grind [h.matching]
  · grind [h.blocked]
  · intro b t hb
    have := h.timer b t hb
    grind
  · exact fun b hb => h.box b (fun hl => hb (Or.inr hl))
  · grind [h.live]
  · grind [h.kind]
  · grind [h.absent]
  · exact fun b c hb => ⟨(h.linked b c hb).1, Or.inr (h.linked b c hb).2⟩
  · intro b
    have := h.reason b
    have := h.absent b
    grind

lemma Inv.link (h : s.Inv) (ha : a ∈ s.live) (hb : b ∈ s.live) : (s.link a b).Inv := by
  refine { h with linked := ?_ }
  simp only [State.link, Finset.mem_insert, Prod.mk.injEq]
  rintro c d (⟨rfl, rfl⟩ | ⟨rfl, rfl⟩ | hcd)
  · exact ⟨Or.inr (Or.inl ⟨rfl, rfl⟩), ha⟩
  · exact ⟨Or.inl ⟨rfl, rfl⟩, hb⟩
  · exact ⟨Or.inr (Or.inr (h.linked c d hcd).1), (h.linked c d hcd).2⟩

lemma Inv.setMonitor (h : s.Inv) : (s.setMonitor a b).Inv := { h with }

lemma Inv.block (h : s.Inv) (hno : s.taken a = none) (hpending : s.pendingResult a = .noPending) :
    (s.block a).Inv := by
  rw [taken, hpending] at hno
  have hbox := firstMatch_eq_none.mp hno
  refine { h with ready := ?_, pending := ?_, blocked := ?_, timer := ?_ }
  all_goals simp only [State.block, Finset.mem_erase]
  · exact (Finset.erase_subset _ _).trans h.ready
  · intro b hb
    exact ⟨by rintro rfl; exact hb hpending, h.pending b hb⟩
  · intro b m hb hr hm
    have := h.blocked b m hb
    grind
  · intro b t hb
    have := h.timer b t hb
    grind

end Spawn

/-- A message that has not been sent is nowhere. -/
lemma Inv.unused {msg : Msg I P} (h : s.Inv) (hunused : s.msgState msg.id = .unused) :
    (∀ b m, m ∈ s.mailboxes b → m.id ≠ msg.id) ∧
      (∀ b m, s.pendingResult b = .message m → m.id ≠ msg.id) ∧
      ∀ b m, .message m ∈ s.observations b → m.id ≠ msg.id := by
  refine ⟨fun b m hm hid => ?_, fun b m hm hid => ?_, fun b m hm hid => ?_⟩
  · simpa [hid, hunused] using h.queued b m hm
  · simpa [hid, hunused] using h.pendingState b m hm
  · simpa [hid, hunused] using h.observed b m hm

/-- The message that an actor goes on with has been sent. -/
lemma Inv.used_of_taken {msg : Msg I P} {rest : List (Msg I P)} (h : s.Inv)
    (ht : s.taken a = some (msg, rest)) : s.msgState msg.id ≠ .unused := by
  intro hunused
  obtain ⟨hbox, hpending, -⟩ := h.unused hunused
  have hfirst : firstMatch (s.pc a) (s.mailboxes a) ≠ some (msg, rest) := by
    intro hfirst
    obtain ⟨older, newer, heq, -⟩ := firstMatch_eq_some hfirst
    exact hbox a msg (by simp [heq]) rfl
  rw [taken] at ht
  split at ht
  · rename_i m hm
    split_ifs at ht
    · cases ht
      exact hpending a _ hm rfl
    · exact hfirst ht
  · exact hfirst ht

/-- What is known of the messages that an actor takes in one go. -/
structure Takes (s : State A I P) (a : A) (msgs rest : List (Msg I P)) : Prop where
  subset : ∀ m ∈ rest, m ∈ s.mailboxes a
  all : ∀ m ∈ s.mailboxes a, m ∈ msgs ∨ m ∈ rest
  pending : ∀ m, s.pendingResult a = .message m → m ∈ msgs
  nodup : (rest.map Msg.id).Nodup
  apart : ∀ m ∈ msgs, ∀ m' ∈ rest, m.id ≠ m'.id
  others : ∀ m ∈ msgs, ∀ b, b ≠ a → (∀ m' ∈ s.mailboxes b, m.id ≠ m'.id) ∧
    ∀ m', s.pendingResult b = .message m' → m.id ≠ m'.id

/-- The actor takes one more message, from what is left. -/
lemma Takes.more {msgs rest older newer : List (Msg I P)} {msg : Msg I P} (h : s.Inv)
    (ht : s.Takes a msgs rest) (hrest : rest = older ++ msg :: newer) :
    s.Takes a (msgs ++ [msg]) (older ++ newer) := by
  subst hrest
  have hnodup := ht.nodup
  simp only [List.map_append, List.map_cons] at hnodup
  have hmid := List.nodup_middle.mp hnodup
  rw [List.nodup_cons] at hmid
  have hmem : msg ∈ s.mailboxes a := ht.subset msg (by simp)
  refine ⟨?_, ?_, ?_, ?_, ?_, ?_⟩
  · exact fun m hm => ht.subset m (by grind)
  · intro m hm
    have := ht.all m hm
    grind
  · exact fun m hm => List.mem_append_left _ (ht.pending m hm)
  · rw [List.map_append]
    exact hmid.2
  · intro m hm m' hm'
    rcases List.mem_append.mp hm with hm | hm
    · exact ht.apart m hm m' (by grind)
    · rw [List.mem_singleton.mp hm]
      intro hid
      refine hmid.1 ?_
      rw [← List.map_append]
      exact List.mem_map.mpr ⟨m', hm', hid.symm⟩
  · intro m hm b hb
    rcases List.mem_append.mp hm with hm | hm
    · exact ht.others m hm b hb
    · rw [List.mem_singleton.mp hm]
      refine ⟨fun m' hm' hid => hb (h.oneBox b a m' msg hm' hmem hid.symm), fun m' hm' hid => ?_⟩
      have hq := h.queued a msg hmem
      rw [hid, h.pendingState b m' hm'] at hq
      cases hq

/-- The actor takes nothing. -/
lemma Inv.takes_nil (h : s.Inv) (hp : ∀ m, s.pendingResult a ≠ .message m) :
    s.Takes a [] (s.mailboxes a) :=
  ⟨fun _ hm => hm, fun _ hm => Or.inr hm, fun m hm => absurd hm (hp m), h.nodup a,
    by simp, by simp⟩

/-- An actor that has nothing to go on with has no pending result, unless it has timed out. -/
lemma Inv.noPending_of_taken (h : s.Inv) (ht : s.taken a = none) (hpc : s.pc a ≠ .trying) :
    s.pendingResult a = .noPending := by
  cases hp : s.pendingResult a with
  | noPending => rfl
  | timeoutToken => exact absurd (h.timeout a hp) hpc
  | message msg => simp [taken, hp, kind_of_matchesPc (h.matching a msg hp)] at ht

lemma Inv.takes {msg : Msg I P} {rest : List (Msg I P)} (h : s.Inv)
    (ht : s.taken a = some (msg, rest)) : s.Takes a [msg] rest := by
  by_cases hp : ∃ m, s.pendingResult a = .message m
  · obtain ⟨m, hm⟩ := hp
    have hping : m.kind = .ping := kind_of_matchesPc (h.matching a m hm)
    simp only [taken, hm, hping, if_true, Option.some.injEq, Prod.mk.injEq] at ht
    obtain ⟨rfl, rfl⟩ := ht
    have hstate := h.pendingState a m hm
    have hne : ∀ b, ∀ m' ∈ s.mailboxes b, m.id ≠ m'.id := by
      intro b m' hm' hid
      rw [hid, h.queued b m' hm'] at hstate
      cases hstate
    refine ⟨fun _ hm' => hm', fun _ hm' => Or.inr hm', fun m' hm' => ?_, h.nodup a, ?_, ?_⟩
    · rw [hm] at hm'
      cases hm'
      exact List.mem_singleton_self m
    · intro m' hm'
      rw [List.mem_singleton.mp hm']
      exact hne a
    · intro m' hm' b hb
      rw [List.mem_singleton.mp hm']
      exact ⟨hne b, fun m'' hm'' hid => hb (h.onePending b a m'' m hm'' hm hid.symm)⟩
  · simp only [not_exists] at hp
    have hfirst : firstMatch (s.pc a) (s.mailboxes a) = some (msg, rest) := by
      rw [taken] at ht
      cases hc : s.pendingResult a with
      | message m => exact absurd hc (hp m)
      | noPending | timeoutToken => simpa [hc] using ht
    obtain ⟨older, newer, hbox, rfl, -, -⟩ := firstMatch_eq_some hfirst
    exact (h.takes_nil hp).more h hbox

variable [DecidableEq A] [DecidableEq I]

/-- The message is what the blocked actor waits for. -/
lemma Inv.sendPending {msg : Msg I P} (h : s.Inv) (ha : a ∈ s.live)
    (hunused : s.msgState msg.id = .unused) (hpending : s.pendingResult a = .noPending)
    (hmatch : matchesPc (s.pc a) msg = true) :
    ({ s with
      ready := insert a s.ready
      pendingResult := Function.update s.pendingResult a (.message msg)
      timers := if s.pc a = .trying then Function.update s.timers a none else s.timers
      msgState := Function.update s.msgState msg.id .pending } : State A I P).Inv := by
  obtain ⟨hbox, hfresh, hobs⟩ := h.unused hunused
  have htimers : ∀ b t, (if s.pc a = .trying then Function.update s.timers a none else s.timers) b =
      some t → s.timers b = some t ∧ b ≠ a := by
    intro b t hb
    have := h.timer a t
    split_ifs at hb with htry
    · grind [Function.update_apply]
    · exact ⟨hb, by rintro rfl; exact htry (h.timer b t hb).2.2.1⟩
  refine { h with
    ready := ?_, pending := ?_, timeout := ?_, matching := ?_, blocked := ?_, timer := ?_,
    queued := ?_, pendingState := ?_, observed := ?_, someQueued := ?_, somePending := ?_,
    someObserved := ?_, onePending := ?_ }
  all_goals simp only [Function.update_apply, Finset.mem_insert]
  · exact Finset.insert_subset ha h.ready
  · grind [h.pending]
  · grind [h.timeout]
  · grind [h.matching]
  · exact fun b m hb hr hm => h.blocked b m hb (fun hc => hr (Or.inr hc)) hm
  · intro b t hb
    obtain ⟨ht, hne⟩ := htimers b t hb
    have := h.timer b t ht
    grind
  · grind [h.queued]
  · grind [h.pendingState]
  · grind [h.observed]
  · intro id hid
    have hne : id ≠ msg.id := by grind
    exact h.someQueued id (by simpa [hne] using hid)
  · intro id hid
    by_cases hne : id = msg.id
    · exact ⟨a, msg, by simp, hne.symm⟩
    · obtain ⟨b, m, hm, hmid⟩ := h.somePending id (by simpa [hne] using hid)
      refine ⟨b, m, ?_, hmid⟩
      have hb : b ≠ a := by
        rintro rfl
        simp [hpending] at hm
      simpa [hb] using hm
  · intro id hid
    have hne : id ≠ msg.id := by grind
    exact h.someObserved id (by simpa [hne] using hid)
  · grind [h.onePending]

/-- The message goes to the mailbox. -/
lemma Inv.sendQueued {msg : Msg I P} (h : s.Inv) (ha : a ∈ s.live)
    (hunused : s.msgState msg.id = .unused)
    (hno : a ∈ s.ready ∨ matchesPc (s.pc a) msg = false) :
    ({ s with
      mailboxes := Function.update s.mailboxes a (s.mailboxes a ++ [msg])
      msgState := Function.update s.msgState msg.id .queued } : State A I P).Inv := by
  obtain ⟨hbox, hfresh, hobs⟩ := h.unused hunused
  refine { h with
    blocked := ?_, box := ?_, queued := ?_, pendingState := ?_, observed := ?_, someQueued := ?_,
    absent := h.absent, somePending := ?_, someObserved := ?_, nodup := ?_, oneBox := ?_ }
  all_goals simp only [Function.update_apply]
  · intro b m hb hr hm
    have := h.blocked b m hb hr
    grind
  · intro b hb
    have hne : b ≠ a := fun hba => hb (hba ▸ ha)
    simpa [hne] using h.box b hb
  · grind [h.queued]
  · grind [h.pendingState]
  · grind [h.observed]
  · intro id hid
    by_cases hne : id = msg.id
    · exact ⟨a, by simp [hne]⟩
    · obtain ⟨b, hb⟩ := h.someQueued id (by simpa [hne] using hid)
      exact ⟨b, by by_cases hba : b = a <;> grind [Function.update_apply]⟩
  · intro id hid
    have hne : id ≠ msg.id := by grind
    exact h.somePending id (by simpa [hne] using hid)
  · intro id hid
    have hne : id ≠ msg.id := by grind
    exact h.someObserved id (by simpa [hne] using hid)
  · intro b
    by_cases hba : b = a
    · simp only [hba, if_true, List.map_append, List.map_cons, List.map_nil]
      refine List.Nodup.append (h.nodup a) (List.nodup_singleton _) ?_
      grind [List.disjoint_left]
    · simpa [hba] using h.nodup b
  · grind [h.oneBox]

lemma Inv.send {msg : Msg I P} (h : s.Inv) (ha : a ∈ s.live)
    (hunused : s.msgState msg.id = .unused) : (s.send a msg).Inv := by
  rw [State.send]
  by_cases hc : a ∉ s.ready ∧ (s.pendingResult a).isNoPending ∧ matchesPc (s.pc a) msg
  · rw [if_pos hc]
    exact h.sendPending ha hunused (Pending.isNoPending_iff.mp hc.2.1) hc.2.2
  · rw [if_neg hc]
    refine h.sendQueued ha hunused ?_
    by_cases hr : a ∈ s.ready
    · exact Or.inl hr
    · refine Or.inr (Bool.eq_false_iff.mpr fun hmatch => hc ⟨hr, ?_, hmatch⟩)
      rw [Pending.isNoPending_iff]
      by_contra hne
      exact hr (h.pending a hne)

/-- The states of the messages after some have been observed. -/
lemma Inv.finish {msgs rest : List (Msg I P)} {observed : List (Observation I P)}
    {state : I → MessageState} (h : s.Inv) (ha : a ∈ s.live) (htakes : s.Takes a msgs rest)
    (hobserved : ∀ m, .message m ∈ observed ↔ m ∈ msgs)
    (hstate : ∀ id, state id = if id ∈ msgs.map Msg.id then .observed else s.msgState id) :
    (s.finish a observed state rest).Inv := by
  have hnew : ∀ id, markDropped state rest id =
      if id ∈ rest.map Msg.id then .dropped
      else if id ∈ msgs.map Msg.id then .observed else s.msgState id := by
    intro id
    rw [markDropped, hstate]
  -- the ids of the rest are those of messages that are queued at the actor
  have hold : ∀ id, s.msgState id ≠ .queued → id ∉ rest.map Msg.id := by
    intro id hne hmem
    obtain ⟨m, hm, rfl⟩ := List.mem_map.mp hmem
    exact hne (h.queued a m (htakes.subset m hm))
  have hrest : ∀ b, b ≠ a → ∀ m ∈ s.mailboxes b, m.id ∉ rest.map Msg.id := by
    intro b hba m hm hmem
    obtain ⟨m', hm', hid⟩ := List.mem_map.mp hmem
    exact hba (h.oneBox b a m m' hm (htakes.subset m' hm') hid.symm)
  refine {
    ready := ?_, pending := ?_, timeout := ?_, matching := ?_, blocked := ?_, timer := ?_,
    box := ?_, live := ?_, kind := ?_, absent := ?_, queued := ?_, pendingState := ?_,
    observed := ?_, someQueued := ?_, somePending := ?_, someObserved := ?_, nodup := ?_,
    oneBox := ?_, onePending := ?_, linked := ?_, reason := ?_ }
  all_goals simp only [State.finish, completeActor, Function.update_apply, Finset.mem_erase,
    Finset.mem_filter, hnew, ne_eq]
  -- `a` has left the sets and the tables; the others are as they were
  · exact Finset.erase_subset_erase a h.ready
  · grind [h.pending]
  · grind [h.timeout]
  · grind [h.matching]
  · intro b m hb hr hm
    have := h.blocked b m hb.2
    grind
  · intro b t hb
    have := h.timer b t
    grind
  · intro b hb
    by_cases hba : b = a
    · simp [hba]
    · simpa [hba] using h.box b (fun hl => hb ⟨hba, hl⟩)
  · grind [h.live]
  · intro b hb
    have := h.kind b
    grind
  · intro b hb
    have := h.absent b
    grind
  -- from a place to the state: a message of another actor is in neither list
  · intro b m hm
    have hba : b ≠ a := by
      rintro rfl
      simp at hm
    have hmb : m ∈ s.mailboxes b := by simpa [hba] using hm
    rw [if_neg (hrest b hba m hmb), if_neg, h.queued b m hmb]
    simpa using fun m' hm' => (htakes.others m' hm' b hba).1 m hmb
  · intro b m hm
    have hba : b ≠ a := by
      rintro rfl
      simp at hm
    have hmb : s.pendingResult b = .message m := by simpa [hba] using hm
    have hstate := h.pendingState b m hmb
    rw [if_neg (hold m.id (by simp [hstate])), if_neg, hstate]
    simpa using fun m' hm' => (htakes.others m' hm' b hba).2 m hmb
  · intro b m hm
    by_cases hold' : .message m ∈ s.observations b
    · have hstate := h.observed b m hold'
      rw [if_neg (hold m.id (by simp [hstate])), hstate, ite_self]
    · have hmsg : m ∈ msgs := by
        rw [← hobserved]
        by_cases hba : b = a <;> simp_all
      have hids : m.id ∈ msgs.map Msg.id := List.mem_map_of_mem hmsg
      rw [if_neg, if_pos hids]
      simpa using fun m' hm' hid => htakes.apart m hmsg m' hm' hid.symm
  -- from the state to a place: what was queued or pending at `a` has changed its state
  · intro id hid
    split_ifs at hid with hr hm
    obtain ⟨b, hb⟩ := h.someQueued id hid
    obtain ⟨m, hmb, rfl⟩ := List.mem_map.mp hb
    have hba : b ≠ a := by
      rintro rfl
      rcases htakes.all m hmb with hc | hc
      · exact hm (List.mem_map_of_mem hc)
      · exact hr (List.mem_map_of_mem hc)
    exact ⟨b, by simpa [State.finish, Function.update_apply, hba] using hb⟩
  · intro id hid
    split_ifs at hid with hr hm
    obtain ⟨b, m, hmb, rfl⟩ := h.somePending id hid
    have hba : b ≠ a := by
      rintro rfl
      exact hm (List.mem_map_of_mem (htakes.pending m hmb))
    exact ⟨b, m, by simpa [State.finish, Function.update_apply, hba] using hmb, rfl⟩
  · intro id hid
    split_ifs at hid with hr hm
    · obtain ⟨m, hmsg, rfl⟩ := List.mem_map.mp hm
      refine ⟨a, m, ?_, rfl⟩
      simpa [State.finish, Function.update_apply] using Or.inr ((hobserved m).mpr hmsg)
    · obtain ⟨b, m, hmb, rfl⟩ := h.someObserved id hid
      refine ⟨b, m, ?_, rfl⟩
      by_cases hba : b = a
      · subst hba
        simpa [State.finish, Function.update_apply] using Or.inl hmb
      · simpa [State.finish, Function.update_apply, hba] using hmb
  · intro b
    by_cases hba : b = a
    · simp [hba]
    · simpa [hba] using h.nodup b
  · grind [h.oneBox]
  · grind [h.onePending]
  · intro b c hb
    have := h.linked b c
    grind
  · intro b
    have := h.reason b
    grind

lemma Inv.finishWith {msg : Msg I P} {rest : List (Msg I P)} (h : s.Inv) (ha : a ∈ s.live)
    (ht : s.taken a = some (msg, rest)) : (s.finishWith a msg rest).Inv :=
  h.finish ha (h.takes ht) (by simp) (by simp [Function.update_apply])

/-- `runCollector` and `runSequenceSecond`. -/
lemma Inv.runCollector (h : s.Inv) (ha : a ∈ s.ready) (hpc : s.pc a ≠ .trying) :
    (s.runCollector a).Inv := by
  rw [State.runCollector]
  cases ht : s.taken a with
  | some p => exact h.finishWith (h.ready ha) ht
  | none => exact h.block ht (h.noPending_of_taken ht hpc)

/-- The sequence goes on to wait for its second message. -/
lemma Inv.goOn {msg : Msg I P} {rest : List (Msg I P)} (h : s.Inv) (ha : a ∈ s.ready)
    (hpc : s.pc a = .seqFirst) (ht : s.Takes a [msg] rest)
    (hno : firstMatch .seqSecond rest = none) :
    ({ s with
      pc := Function.update s.pc a .seqSecond
      ready := s.ready.erase a
      mailboxes := Function.update s.mailboxes a rest
      pendingResult := Function.update s.pendingResult a .noPending
      observations := Function.update s.observations a (s.observations a ++ [.message msg])
      msgState := Function.update s.msgState msg.id .observed } : State A I P).Inv := by
  have hlive := h.ready ha
  have hmem := ht.others msg (List.mem_singleton_self msg)
  have hapart := ht.apart msg (List.mem_singleton_self msg)
  have hnot := firstMatch_eq_none.mp hno
  refine { h with
    ready := ?_, pending := ?_, timeout := ?_, matching := ?_, blocked := ?_, timer := ?_,
    box := ?_, live := ?_, kind := ?_, absent := ?_, queued := ?_, pendingState := ?_,
    observed := ?_, someQueued := ?_, somePending := ?_, someObserved := ?_, nodup := ?_,
    oneBox := ?_, onePending := ?_, reason := ?_ }
  all_goals simp only [Function.update_apply, Finset.mem_erase, ne_eq]
  · exact (Finset.erase_subset a _).trans h.ready
  · grind [h.pending]
  · grind [h.timeout]
  · grind [h.matching]
  · intro b m hb hr hm
    have := h.blocked b m hb
    grind
  · intro b t hb
    have := h.timer b t hb
    grind
  · intro b hb
    have hne : b ≠ a := fun hba => hb (hba ▸ hlive)
    simpa [hne] using h.box b hb
  · grind [h.live]
  · intro b hb
    have := h.kind b hb
    grind [kindOf]
  · intro b hb
    have := h.absent b
    grind
  · intro b m hm
    have := h.queued b m
    have := ht.subset m
    have := hapart m
    have := hmem b
    grind
  · intro b m hm
    have := h.pendingState b m
    have := hmem b
    grind
  · intro b m hm
    have := h.observed b m
    grind
  · intro id hid
    have hne : id ≠ msg.id := by grind
    obtain ⟨b, hb⟩ := h.someQueued id (by simpa [hne] using hid)
    obtain ⟨m, hmb, rfl⟩ := List.mem_map.mp hb
    refine ⟨b, List.mem_map_of_mem ?_⟩
    by_cases hba : b = a
    · -- what is not taken stays in the mailbox
      subst hba
      simpa [show m ≠ msg from fun heq => hne (congrArg Msg.id heq)] using ht.all m hmb
    · simpa [hba] using hmb
  · intro id hid
    have hne : id ≠ msg.id := by grind
    obtain ⟨b, m, hm, rfl⟩ := h.somePending id (by simpa [hne] using hid)
    have hba : b ≠ a := by
      rintro rfl
      exact hne (congrArg Msg.id (List.mem_singleton.mp (ht.pending m hm)))
    exact ⟨b, m, by simpa [hba] using hm, rfl⟩
  · intro id hid
    by_cases hne : id = msg.id
    · exact ⟨a, msg, by simp, hne.symm⟩
    · obtain ⟨b, m, hm, rfl⟩ := h.someObserved id (by simpa [hne] using hid)
      exact ⟨b, m, by by_cases hba : b = a <;> simp_all, rfl⟩
  · intro b
    by_cases hba : b = a
    · simpa [hba] using ht.nodup
    · simpa [hba] using h.nodup b
  · intro b c m m' hm hm'
    have := h.oneBox b c m m'
    have := ht.subset m
    have := ht.subset m'
    grind
  · grind [h.onePending]
  · intro b
    have := h.reason b
    grind

lemma Inv.runSequenceFirst (h : s.Inv) (ha : a ∈ s.ready) (hpc : s.pc a = .seqFirst) :
    (s.runSequenceFirst a).Inv := by
  rw [State.runSequenceFirst]
  cases ht : s.taken a with
  | none => exact h.block ht (h.noPending_of_taken ht (by simp [hpc]))
  | some p =>
      obtain ⟨msg1, box1⟩ := p
      have htakes := h.takes ht
      dsimp only
      cases hsecond : firstMatch .seqSecond box1 with
      | none => exact h.goOn ha hpc htakes hsecond
      | some q =>
          obtain ⟨msg2, rest2⟩ := q
          obtain ⟨older, newer, hbox, rfl, -, -⟩ := firstMatch_eq_some hsecond
          refine h.finish (h.ready ha) (htakes.more h hbox) (by simp) fun id => ?_
          simp only [Function.update_apply, List.map_append, List.map_cons, List.map_nil,
            List.mem_append, List.mem_singleton]
          grind

omit [DecidableEq I] in
/-- The actor is blocked, and its timer is armed. -/
lemma Inv.arm {t : ℕ} (h : s.Inv) (ha : a ∈ s.ready) (hpc : s.pc a = .trying)
    (hno : s.taken a = none) (hpending : s.pendingResult a = .noPending) (ht : s.time ≤ t) :
    ({ s.block a with timers := Function.update s.timers a (some t) } : State A I P).Inv := by
  refine { h.block hno hpending with timer := ?_ }
  simp only [State.block, Function.update_apply, Finset.mem_erase]
  intro b u hu
  by_cases hba : b = a
  · subst hba
    simp only [if_true, Option.some.injEq] at hu
    exact ⟨h.ready ha, fun hr => hr.1 rfl, hpc, hu ▸ ht⟩
  · rw [if_neg hba] at hu
    have := h.timer b u hu
    exact ⟨this.1, fun hr => this.2.1 hr.2, this.2.2⟩

lemma Inv.runTimeout (h : s.Inv) (ha : a ∈ s.ready) (hpc : s.pc a = .trying) :
    (s.runTimeout timeoutDelay a).Inv := by
  rw [State.runTimeout]
  cases hp : s.pendingResult a with
  | timeoutToken =>
      exact h.finish (h.ready ha) (h.takes_nil (by simp [hp])) (by simp) (by simp)
  | noPending =>
      cases ht : s.taken a with
      | some p => exact h.finishWith (h.ready ha) ht
      | none => exact h.arm ha hpc ht hp (Nat.le_add_right _ _)
  | message msg =>
      cases ht : s.taken a with
      | some p => exact h.finishWith (h.ready ha) ht
      | none => simp [taken, hp, kind_of_matchesPc (h.matching a msg hp)] at ht

lemma Inv.runReadyActor {t : State A I P} (h : s.Inv) (ha : a ∈ s.ready)
    (hrun : s.runReadyActor timeoutDelay a = some t) : t.Inv := by
  rw [State.runReadyActor] at hrun
  split at hrun
  · rename_i hpc
    exact Option.some.inj hrun ▸ h.runCollector ha (by simp [hpc])
  · rename_i hpc
    exact Option.some.inj hrun ▸ h.runSequenceFirst ha hpc
  · rename_i hpc
    exact Option.some.inj hrun ▸ h.runCollector ha (by simp [hpc])
  · rename_i hpc
    exact Option.some.inj hrun ▸ h.runTimeout ha hpc
  · cases hrun

omit [DecidableEq A] [DecidableEq I] in
lemma Inv.advanceTime {deadline : ℕ} (h : s.Inv)
    (hmin : ∀ b t, s.timers b = some t → deadline ≤ t) : ({ s with time := deadline }).Inv :=
  { h with timer := fun b t hb => ⟨(h.timer b t hb).1, (h.timer b t hb).2.1, (h.timer b t hb).2.2.1,
      hmin b t hb⟩ }

omit [DecidableEq I] in
lemma Inv.timeoutFire (h : s.Inv) (hlive : a ∈ s.live) (hready : a ∉ s.ready)
    (hpc : s.pc a = .trying) : (s.timeoutFire a).Inv := by
  have hpending : s.pendingResult a = .noPending := by
    by_contra hc
    exact hready (h.pending a hc)
  refine { h with
    ready := ?_, pending := ?_, timeout := ?_, matching := ?_, blocked := ?_, timer := ?_,
    pendingState := ?_, somePending := ?_, onePending := ?_ }
  all_goals simp only [State.timeoutFire, Function.update_apply, Finset.mem_insert]
  · exact Finset.insert_subset hlive h.ready
  · grind [h.pending]
  · grind [h.timeout]
  · grind [h.matching]
  · exact fun b m hb hr hm => h.blocked b m hb (fun hc => hr (Or.inr hc)) hm
  · intro b t hb
    have := h.timer b t
    grind
  · grind [h.pendingState]
  · intro id hid
    obtain ⟨b, m, hm, rfl⟩ := h.somePending id hid
    have hba : b ≠ a := by
      rintro rfl
      simp [hpending] at hm
    exact ⟨b, m, by simpa [State.timeoutFire, Function.update_apply, hba] using hm, rfl⟩
  · grind [h.onePending]

lemma Inv.next {t : State A I P} (h : s.Inv) (hnext : Next timeoutDelay s t) : t.Inv := by
  cases hnext with
  | spawn a actorKind habsent => exact h.spawn habsent
  | spawnLink linker a actorKind habsent hlinker hne =>
      exact (h.spawn habsent).link (Finset.mem_insert_of_mem hlinker) (Finset.mem_insert_self a _)
  | spawnMonitor watcher a actorKind habsent hwatcher hne => exact (h.spawn habsent).setMonitor
  | link a b ha hb hne hnew => exact h.link ha hb
  | setMonitor a b ha hb hne hnew => exact h.setMonitor
  | send target msg hunused htarget => exact h.send htarget hunused
  | sendDead target msg hunused htarget => exact h
  | run a _ ha hrun => exact h.runReadyActor ha hrun
  | advanceTime a deadline ha htime hmin => exact h.advanceTime hmin
  | timeoutFire a hlive hready hpc hpending htimer => exact h.timeoutFire hlive hready hpc

lemma Inv.of_reachable (h : s.Reachable timeoutDelay) : s.Inv := by
  induction h with
  | refl => exact inv_init
  | tail _ hnext ih => exact ih.next hnext

/-! ### Time -/

/-- The actor has called `try_receive`, and has been resumed from it or waits. -/
def Waited (s : State A I P) (a : A) : Prop :=
  s.kind a = some .timeout ∧ (a ∉ s.ready ∨ s.pendingResult a ≠ .noPending)

/-- What a run of an actor changes, seen from its clock. -/
structure Ran (timeoutDelay : ℕ) (s : State A I P) (a : A) (t : State A I P) : Prop where
  kind : t.kind = s.kind
  ready : t.ready = s.ready.erase a
  pending : ∀ b, b ≠ a → t.pendingResult b = s.pendingResult b
  time : t.time = s.time
  timers : ∀ b u, t.timers b = some u → s.timers b = some u ∨
    b = a ∧ u = s.time + timeoutDelay ∧ s.pendingResult a = .noPending

omit [DecidableEq I] in
lemma ran_block : Ran timeoutDelay s a (s.block a) :=
  ⟨rfl, rfl, fun _ _ => rfl, rfl, fun _ _ hu => Or.inl hu⟩

lemma ran_finish {observed : List (Observation I P)} {state : I → MessageState}
    {rest : List (Msg I P)} : Ran timeoutDelay s a (s.finish a observed state rest) where
  kind := rfl
  ready := rfl
  pending b hb := Function.update_of_ne hb _ _
  time := rfl
  timers b u hu := by
    by_cases hb : b = a
    · subst hb
      simp [State.finish] at hu
    · exact Or.inl (by simpa [State.finish, hb] using hu)

lemma ran_runCollector : Ran timeoutDelay s a (s.runCollector a) := by
  rw [runCollector]
  split
  · exact ran_finish
  · exact ran_block

lemma ran_runSequenceFirst : Ran timeoutDelay s a (s.runSequenceFirst a) := by
  rw [runSequenceFirst]
  split
  · dsimp only
    split
    · exact ran_finish
    · exact ⟨rfl, rfl, fun b hb => Function.update_of_ne hb _ _, rfl, fun _ _ hu => Or.inl hu⟩
  · exact ran_block

lemma ran_runTimeout (h : s.Inv) : Ran timeoutDelay s a (s.runTimeout timeoutDelay a) := by
  rw [runTimeout]
  split
  · exact ran_finish
  · exact ran_finish
  · rename_i ht hp
    refine ⟨rfl, rfl, fun _ _ => rfl, rfl, fun b u hu => ?_⟩
    by_cases hb : b = a
    · subst hb
      refine Or.inr ⟨rfl, by simpa [eq_comm] using hu, ?_⟩
      cases hpending : s.pendingResult b with
      | noPending => rfl
      | timeoutToken => exact absurd hpending hp
      | message msg => simp [taken, hpending, kind_of_matchesPc (h.matching b msg hpending)] at ht
    · exact Or.inl (by simpa [hb] using hu)

lemma ran_runReadyActor {t : State A I P} (h : s.Inv)
    (hrun : s.runReadyActor timeoutDelay a = some t) : Ran timeoutDelay s a t := by
  rw [runReadyActor] at hrun
  split at hrun
  · exact Option.some.inj hrun ▸ ran_runCollector
  · exact Option.some.inj hrun ▸ ran_runSequenceFirst
  · exact Option.some.inj hrun ▸ ran_runCollector
  · exact Option.some.inj hrun ▸ ran_runTimeout h
  · cases hrun

/-- A timer is armed at most once for each actor, which has not waited before. -/
lemma Next.clock {t : State A I P} (h : s.Inv) (hnext : Next timeoutDelay s t) :
    (∀ a, s.Waited a → t.Waited a) ∧ (t.time = s.time ∨ ∃ a, s.timers a = some t.time) ∧
      ∀ a u, t.timers a = some u → s.timers a = some u ∨
        u = s.time + timeoutDelay ∧ ¬ s.Waited a ∧ t.Waited a := by
  have hspawn : ∀ a actorKind, s.pc a = .absent →
      ∀ b, s.Waited b → (s.spawn a actorKind).Waited b := by
    intro a actorKind habsent b hb
    have hne : b ≠ a := by
      rintro rfl
      have := (h.absent b habsent).1
      simp [Waited, this] at hb
    simpa [Waited, State.spawn, hne] using hb
  cases hnext with
  | spawn a actorKind habsent =>
      exact ⟨hspawn a actorKind habsent, Or.inl rfl, fun _ _ hu => Or.inl hu⟩
  | spawnLink linker a actorKind habsent hlinker hne =>
      exact ⟨hspawn a actorKind habsent, Or.inl rfl, fun _ _ hu => Or.inl hu⟩
  | spawnMonitor watcher a actorKind habsent hwatcher hne =>
      exact ⟨hspawn a actorKind habsent, Or.inl rfl, fun _ _ hu => Or.inl hu⟩
  | link a b ha hb hne hnew => exact ⟨fun _ hw => hw, Or.inl rfl, fun _ _ hu => Or.inl hu⟩
  | setMonitor a b ha hb hne hnew => exact ⟨fun _ hw => hw, Or.inl rfl, fun _ _ hu => Or.inl hu⟩
  | send target msg hunused htarget =>
      rw [State.send]
      split
      · refine ⟨fun b hb => ?_, Or.inl rfl, fun b u hu => Or.inl ?_⟩
        · by_cases hbt : b = target
          · exact ⟨hb.1, Or.inr (by simp [hbt])⟩
          · simpa [Waited, hbt] using hb
        · dsimp only at hu
          split_ifs at hu
          · by_cases hbt : b = target
            · simp [hbt] at hu
            · simpa [hbt] using hu
          · exact hu
      · exact ⟨fun _ hw => hw, Or.inl rfl, fun _ _ hu => Or.inl hu⟩
  | sendDead target msg hunused htarget =>
      exact ⟨fun _ hw => hw, Or.inl rfl, fun _ _ hu => Or.inl hu⟩
  | run a _ ha hrun =>
      -- an actor arms its timer as it begins to wait, and waits once
      have hran := ran_runReadyActor h hrun
      refine ⟨fun b hb => ?_, Or.inl hran.time, fun b u hu => ?_⟩
      · rw [Waited, hran.kind, hran.ready, Finset.mem_erase]
        by_cases hba : b = a
        · exact ⟨hb.1, Or.inl (fun hr => hr.1 hba)⟩
        · rw [hran.pending b hba]
          exact ⟨hb.1, hb.2.imp_left fun hr hc => hr hc.2⟩
      · rcases hran.timers b u hu with hold | ⟨rfl, rfl, hpending⟩
        · exact Or.inl hold
        · refine Or.inr ⟨rfl, fun hw => hw.2.elim (fun hr => hr ha) fun hp => hp hpending, ?_⟩
          have htimer := (h.next (.run b _ ha hrun)).timer b _ hu
          have hkind := (h.next (.run b _ ha hrun)).kind b htimer.1
          rw [htimer.2.2.1] at hkind
          exact ⟨hkind, Or.inl htimer.2.1⟩
  | advanceTime a deadline ha htime hmin =>
      exact ⟨fun _ hw => hw, Or.inr ⟨a, ha⟩, fun _ _ hu => Or.inl hu⟩
  | timeoutFire a hlive hready hpc hpending htimer =>
      refine ⟨fun b hb => ?_, Or.inl rfl, fun b u hu => Or.inl ?_⟩
      · by_cases hba : b = a
        · exact ⟨hb.1, Or.inr (by simp [State.timeoutFire, hba])⟩
        · simpa [Waited, State.timeoutFire, hba] using hb
      · by_cases hba : b = a
        · simp [State.timeoutFire, hba] at hu
        · simpa [State.timeoutFire, hba] using hu

open scoped Classical in
/-- Time does not go beyond one delay for each actor that has waited. -/
lemma time_le [Fintype A] (h : s.Reachable timeoutDelay) :
    s.time ≤ (Finset.univ.filter s.Waited).card * timeoutDelay ∧
      ∀ a t, s.timers a = some t →
        t ≤ (Finset.univ.filter s.Waited).card * timeoutDelay := by
  induction h with
  | refl => exact ⟨Nat.zero_le _, fun a t ht => by cases ht⟩
  | @tail u v hreach hnext ih =>
      obtain ⟨hwaited, htime, htimers⟩ := Next.clock (Inv.of_reachable hreach) hnext
      have hsub : Finset.univ.filter u.Waited ⊆ Finset.univ.filter v.Waited :=
        fun a ha => by simpa using hwaited a (by simpa using ha)
      have hle := Nat.mul_le_mul_right timeoutDelay (Finset.card_le_card hsub)
      refine ⟨?_, fun a t ht => ?_⟩
      · rcases htime with heq | ⟨a, ha⟩
        · exact heq ▸ ih.1.trans hle
        · exact (ih.2 a _ ha).trans hle
      · rcases htimers a t ht with hold | ⟨rfl, hnot, hnow⟩
        · exact (ih.2 a t hold).trans hle
        · have hcard : (Finset.univ.filter u.Waited).card + 1 ≤
              (Finset.univ.filter v.Waited).card := by
            refine Finset.card_lt_card (Finset.ssubset_iff_subset_ne.mpr ⟨hsub, fun heq => hnot ?_⟩)
            have : a ∈ Finset.univ.filter v.Waited := by simpa using hnow
            simpa [← heq] using this
          calc u.time + timeoutDelay
              ≤ (Finset.univ.filter u.Waited).card * timeoutDelay + timeoutDelay :=
                Nat.add_le_add_right ih.1 _
            _ = ((Finset.univ.filter u.Waited).card + 1) * timeoutDelay := by ring
            _ ≤ (Finset.univ.filter v.Waited).card * timeoutDelay :=
                Nat.mul_le_mul_right _ hcard

/-- **The specification keeps its invariants**, whatever the actors, messages and payloads are and
however many: the model checker goes through two actors and two messages. -/
theorem core_system_invariants [Fintype A] (timeoutDelay : ℕ) (s : State A I P)
    (h : s.Reachable timeoutDelay) :
    s.TypeOK timeoutDelay ∧ s.ReadyActorsAreLive ∧ s.PendingResultsAreReady ∧
      s.BlockedActorsHaveNoMatches ∧ s.TimerDiscipline ∧ s.CompletedActorsClearedState ∧
      s.AbsentActorsStayEmpty ∧ s.MessageOwnership ∧ s.LinksAreBidirectional ∧
      s.LinksOnlyBetweenLive ∧ s.ExitReasons := by
  classical
  have hinv := Inv.of_reachable h
  have hpending : ∀ a, a ∉ s.ready → s.pendingResult a = .noPending := by
    intro a ha
    by_contra hc
    exact ha (hinv.pending a hc)
  have htimers : ∀ a, a ∉ s.live → s.timers a = none := by
    intro a ha
    by_contra hc
    obtain ⟨t, ht⟩ := Option.ne_none_iff_exists'.mp hc
    exact ha (hinv.timer a t ht).1
  have hgone : ∀ a, a ∉ s.live → s.mailboxes a = [] ∧ s.pendingResult a = .noPending ∧
      s.timers a = none := fun a ha =>
    ⟨hinv.box a ha, hpending a fun hr => ha (hinv.ready hr), htimers a ha⟩
  refine ⟨?_, hinv.ready, ?_, ?_, ?_, ?_, ?_, ?_, fun a b hab => (hinv.linked a b hab).1, ?_, ?_⟩
  · obtain ⟨htime, hall⟩ := time_le h
    have hcard := Nat.mul_le_mul_right timeoutDelay (Finset.card_filter_le Finset.univ s.Waited)
    exact ⟨htime.trans hcard, fun a t ht => (hall a t ht).trans hcard⟩
  · intro a ha
    have hr := hinv.pending a ha
    refine ⟨hinv.ready hr, hr, ?_⟩
    cases hp : s.pendingResult a with
    | noPending => trivial
    | timeoutToken => exact hinv.timeout a hp
    | message msg => exact hinv.matching a msg hp
  · exact fun a ha hr => ⟨hpending a hr, fun msg hm => hinv.blocked a msg ha hr hm⟩
  · intro a t ht
    obtain ⟨hl, hr, hpc, hle⟩ := hinv.timer a t ht
    exact ⟨hl, hr, hpc, hpending a hr, hle⟩
  · intro a ha
    have hl : a ∉ s.live := fun hl => ((hinv.live a).mp hl).2 ha
    exact ⟨hl, hgone a hl⟩
  · intro a ha
    have hl : a ∉ s.live := fun hl => ((hinv.live a).mp hl).1 ha
    obtain ⟨hbox, hp, ht⟩ := hgone a hl
    exact ⟨hl, (hinv.absent a ha).1, hbox, hp, ht, (hinv.absent a ha).2.1⟩
  · intro id
    refine ⟨⟨?_, hinv.someQueued id⟩, ⟨?_, hinv.somePending id⟩, ⟨?_, hinv.someObserved id⟩⟩
    · rintro ⟨a, ha⟩
      obtain ⟨msg, hm, rfl⟩ := List.mem_map.mp ha
      exact hinv.queued a msg hm
    · rintro ⟨a, msg, hm, rfl⟩
      exact hinv.pendingState a msg hm
    · rintro ⟨a, msg, hm, rfl⟩
      exact hinv.observed a msg hm
  · exact fun a b hab => ⟨(hinv.linked a b hab).2, (hinv.linked b a (hinv.linked a b hab).1).2⟩
  · exact ⟨fun a => (hinv.reason a).2, fun a => (hinv.reason a).1⟩

/-- One actor times out while another one waits for its second message. -/
def timedOut : State (Fin 2) ℕ ℕ :=
  let s := ((init.spawn 0 .timeout).runTimeout 5 0).spawn 1 .sequence
  let s := (s.send 1 ⟨7, .ping, 1⟩).runSequenceFirst 1
  ((({ s with time := 5 }).timeoutFire 0).runTimeout 5 0).send 1 ⟨8, .ping, 2⟩

/-- The state after a timeout has been observed. -/
theorem core_system_invariants_timedOut :
    timedOut.TypeOK 5 ∧ timedOut.ReadyActorsAreLive ∧ timedOut.PendingResultsAreReady ∧
      timedOut.BlockedActorsHaveNoMatches ∧ timedOut.TimerDiscipline ∧
      timedOut.CompletedActorsClearedState ∧ timedOut.AbsentActorsStayEmpty ∧
      timedOut.MessageOwnership ∧ timedOut.LinksAreBidirectional ∧ timedOut.LinksOnlyBetweenLive ∧
      timedOut.ExitReasons := by
  refine core_system_invariants 5 timedOut ?_
  refine .tail (.tail (.tail (.tail (.tail (.tail (.tail (.tail (.tail .refl
    (.spawn 0 .timeout rfl)) (.run 0 _ (by decide) rfl)) (.spawn 1 .sequence rfl))
    (.send 1 ⟨7, .ping, 1⟩ rfl (by decide))) (.run 1 _ (by decide) rfl))
    (.advanceTime 0 5 rfl (by decide) ?_)) (.timeoutFire 0 (by decide) (by decide) rfl rfl rfl))
    (.run 0 _ (by decide) rfl)) (.send 1 ⟨8, .ping, 2⟩ rfl (by decide))
  decide

end State

end ActorSystem

end Agner
