import Agner.Supervisor.Reacting

/-!
A supervisor and the actors around it, with the code of those actors.

Where `Life` lets an actor exit in one step, `notify_exit` goes step by step here: the guarded
section first, then one send after the other, each of which may run the visitor of its receiver.
In between these visitors, like anyone else, may call operations of the supervisor; an exception
out of one of them leaves `notify_exit`, and the rest of its signals is never sent. An actor that
is linked with itself has no exit: `notify_exit` would shorten the list it is walking. The
operations are those of `Reacting`, with code that runs inside of them.

The visitors of `supervise_loop` run while the supervisor's mailbox is being searched. When a
restart is refused, `stop` adds the supervisor's own exit signal to that mailbox; the iterator with
which the message is erased afterwards is then invalid, and nothing is known of what follows.

* `Family`, `Family.step`: the state, and one step.
* `Family.Moves`, `Family.step_cases`: what a step can be.
* `Known`: the invariant of all runs in which no operation is called from code inside another one:
  a child that has exited has its down signal waiting, about to be sent, or lost.
-/

namespace Agner

open Raising Runs

namespace Supervisor

variable {Args : Type}

/-- Where the coroutine of the supervisor is. A `stuck` one has lost its pending receive to an
exception, one that is `undefined` has used an invalid iterator, and one that is `gone` has been
removed from the registry with the given reason. -/
inductive Standing where
  | alive
  | stuck
  | undefined
  | gone (reason : ExitReason)
  deriving DecidableEq, Repr

/-- A supervisor, the registry, and the exit that is being reported. -/
structure Family (Args : Type) where
  world : World Args
  /-- The spec whose child `start_all_from_specs` starts next. -/
  next : ℕ := 0
  standing : Standing := .alive
  /-- What the `notify_exit` in progress has still to send. -/
  outgoing : List (ActorRef × Signal) := []
  /-- What exceptions have kept from being sent. -/
  lost : List (ActorRef × Signal) := []
  /-- An operation has raised `std::out_of_range`. -/
  outOfRange : Bool := false

/-- What may happen. The lists say which code runs inside an operation. -/
inductive Deed (Args : Type) where
  /-- The guarded section of the `notify_exit` of another actor. -/
  | exit (a : ActorRef) (reason : ExitReason)
  /-- Its next send. -/
  | tell
  /-- An exception leaves it. -/
  | abort
  /-- Another actor spawns, links or monitors actors, or time passes. -/
  | takes (l : Label Args)
  /-- An operation is called while no other one is running. -/
  | call (op : Operation Args) (codes : List (Site × Code Args))
  /-- `init` starts its next child, or is done. -/
  | initNext (codes : List (Site × Code Args))
  /-- One round of `supervise_loop`. A delivered signal has met a suspended supervisor and is
  handled inside the call that sends it. -/
  | receive (delivered : Bool) (codes : List (Site × Code Args))
  /-- An exception of other code ends `run`. -/
  | crash
  /-- `run` has returned. -/
  | leave

/-- The deed is one of the supervisor's own coroutine. -/
def Deed.own : Deed Args → Bool
  | .initNext _ | .receive .. | .crash | .leave => true
  | .exit .. | .tell | .abort | .takes _ | .call .. => false

/-- The deed is a round of `supervise_loop`. -/
def Deed.receives : Deed Args → Bool
  | .receive .. => true
  | _ => false

/-- The compiler checks the index of the spec. -/
def Operation.fits (spec : Specification Args) : Operation Args → Bool
  | .startChild index _ | .stopChild index | .restartChild index | .deleteChild index =>
      decide (index < spec.children.length)
  | .stop _ => true

namespace Family

/-- An operation has raised an exception and left the world behind. -/
def raised (s : Family Args) (e : Exception) (w : World Args) : Family Args :=
  { s with world := w, outOfRange := s.outOfRange || decide (e = .outOfRange) }

/-- The guarded section of the `notify_exit` of the supervisor itself. -/
def removed (s : Family Args) (reason : ExitReason) : Family Args :=
  { s with
    world := { s.world with sched := s.world.sched.collectAndErase s.world.self }
    standing := .gone reason }

/-- The exit of the supervisor. That of an actor which is linked with itself has no meaning:
`notify_exit` would shorten the list it is walking. -/
def exits (s : Family Args) (reason : ExitReason) : Option (Family Args) :=
  if s.world.self ∈ s.world.sched.linksOf s.world.self then none else some (s.removed reason)

/-- An exception leaves the `notify_exit` in progress. -/
def aborted (s : Family Args) : Family Args :=
  { s with outgoing := [], lost := s.lost ++ s.outgoing }

/-- The steps that do not run the coroutine of the supervisor. -/
def outer (s : Family Args) (d : Deed Args) : Option (Family Args) :=
  let w := s.world
  match d with
  | .exit a reason =>
      if s.outgoing = [] ∧ a ≠ w.self ∧ w.registered a = true ∧ a ∉ w.sched.linksOf a then
        some { s with
          world := { w with sched := w.sched.collectAndErase a }
          outgoing := w.sched.pendingSignals a reason }
      else none
  | .tell =>
      match s.outgoing with
      | [] => none
      | p :: rest =>
          some { s with world := { w with sched := w.sched.send p.1 p.2 }, outgoing := rest }
  | .abort => some s.aborted
  | .takes l => if l.taken then some { s with world := taken w l } else none
  | .call op codes =>
      if op.fits w.specification then
        match (Reacting.administer (codeAt codes) op).run w with
        | .ok _ w' => some { s with world := w' }
        | .error e w' => some (s.raised e w')
      else none
  | _ => none

/-- The steps of the coroutine of the supervisor, which does not run between the sends of an exit
unless one of them is to the supervisor. -/
def own (s : Family Args) (d : Deed Args) : Option (Family Args) :=
  let w := s.world
  match d with
  | .initNext codes =>
      if w.phase = .created ∧ s.outgoing = [] then
        if w.specification.strategy = .simpleOneForOne ∨
            w.specification.children.length ≤ s.next then
          some { s with world := { w with phase := .supervising } }
        else
          match (Reacting.startChildByIndex (codeAt codes) s.next none).run w with
          | .ok _ w' => some { s with world := w', next := s.next + 1 }
          | .error e w' => (s.raised e w').exits .error
      else none
  | .receive delivered codes =>
      if w.phase = .supervising ∧ (delivered = true ∨ s.outgoing = []) then
        match w.mailbox with
        | [] => none
        | signal :: _ =>
            match (Reacting.superviseVisitor (codeAt codes) signal).run (popped w) with
            | .ok _ w' =>
                some { s with
                  world := w'
                  standing := if w'.mailbox = (popped w).mailbox then .alive else .undefined }
            | .error e w' =>
                if delivered then some { (s.raised e w').aborted with standing := .stuck }
                else (s.raised e w').exits .error
      else none
  | .crash => if w.phase ≠ .ended ∧ s.outgoing = [] then s.exits .error else none
  | .leave =>
      if w.phase = .ended ∧ s.outgoing = [] then s.exits (w.exitReason.getD .normal) else none
  | _ => none

/-- One step. -/
def step (s : Family Args) (d : Deed Args) : Option (Family Args) :=
  match s.standing with
  | .alive => if d.own then s.own d else s.outer d
  | .stuck => s.outer d
  | .undefined | .gone _ => none

/-- A supervisor that has just been spawned. -/
def create (sched : SchedulerBase) (spec : Specification Args) : Family Args :=
  { world := (Supervisor.create sched spec).world }

/-! ### What a step can be -/

/-- What a step of the family can be. -/
inductive Moves (s : Family Args) : Deed Args → Family Args → Prop where
  | exit (a : ActorRef) (reason : ExitReason) (hout : s.outgoing = []) (hne : a ≠ s.world.self)
      (ha : s.world.registered a = true) :
      Moves s (.exit a reason) { s with
        world := { s.world with sched := s.world.sched.collectAndErase a }
        outgoing := s.world.sched.pendingSignals a reason }
  | tell {p : ActorRef × Signal} {rest : List (ActorRef × Signal)} (hout : s.outgoing = p :: rest) :
      Moves s .tell { s with
        world := { s.world with sched := s.world.sched.send p.1 p.2 }, outgoing := rest }
  | abort : Moves s .abort s.aborted
  | takes {l : Label Args} (hl : l.taken = true) :
      Moves s (.takes l) { s with world := taken s.world l }
  | returns {op : Operation Args} {codes : List (Site × Code Args)} {w : World Args}
      (hfits : op.fits s.world.specification = true)
      (hrun : (Reacting.administer (codeAt codes) op).run s.world = .ok () w) :
      Moves s (.call op codes) { s with world := w }
  | raises {op : Operation Args} {codes : List (Site × Code Args)} {e : Exception}
      {w : World Args} (hfits : op.fits s.world.specification = true)
      (hrun : (Reacting.administer (codeAt codes) op).run s.world = .error e w) :
      Moves s (.call op codes) (s.raised e w)
  | initEnds (codes : List (Site × Code Args)) (halive : s.standing = .alive)
      (hphase : s.world.phase = .created) :
      Moves s (.initNext codes) { s with world := { s.world with phase := .supervising } }
  | initStarts {codes : List (Site × Code Args)} {w : World Args} (halive : s.standing = .alive)
      (hphase : s.world.phase = .created)
      (hstatic : s.world.specification.strategy ≠ .simpleOneForOne)
      (hlt : s.next < s.world.specification.children.length)
      (hrun : (Reacting.startChildByIndex (codeAt codes) s.next none).run s.world = .ok () w) :
      Moves s (.initNext codes) { s with world := w, next := s.next + 1 }
  | initRaises {codes : List (Site × Code Args)} {e : Exception} {w : World Args}
      (halive : s.standing = .alive)
      (hrun : (Reacting.startChildByIndex (codeAt codes) s.next none).run s.world = .error e w) :
      Moves s (.initNext codes) ((s.raised e w).removed .error)
  | handles {delivered : Bool} {codes : List (Site × Code Args)} {sg : Signal}
      {rest : List Signal} {w : World Args} (halive : s.standing = .alive)
      (hphase : s.world.phase = .supervising) (hbox : s.world.mailbox = sg :: rest)
      (hrun : (Reacting.superviseVisitor (codeAt codes) sg).run (popped s.world) = .ok () w) :
      Moves s (.receive delivered codes) { s with
        world := w
        standing := if w.mailbox = (popped s.world).mailbox then .alive else .undefined }
  | sticks {codes : List (Site × Code Args)} {sg : Signal} {rest : List Signal} {e : Exception}
      {w : World Args} (hbox : s.world.mailbox = sg :: rest)
      (hrun : (Reacting.superviseVisitor (codeAt codes) sg).run (popped s.world) = .error e w) :
      Moves s (.receive true codes) { (s.raised e w).aborted with standing := .stuck }
  | falls {codes : List (Site × Code Args)} {sg : Signal} {rest : List Signal} {e : Exception}
      {w : World Args} (halive : s.standing = .alive) (hbox : s.world.mailbox = sg :: rest)
      (hrun : (Reacting.superviseVisitor (codeAt codes) sg).run (popped s.world) = .error e w) :
      Moves s (.receive false codes) ((s.raised e w).removed .error)
  | crashes (halive : s.standing = .alive) : Moves s .crash (s.removed .error)
  | leaves (halive : s.standing = .alive) (hphase : s.world.phase = .ended) :
      Moves s .leave (s.removed (s.world.exitReason.getD .normal))

lemma outer_cases {s t : Family Args} {d : Deed Args} (h : s.outer d = some t) : Moves s d t := by
  cases d with
  | exit a reason =>
      rw [outer, Option.ite_none_right_eq_some] at h
      obtain ⟨⟨hout, hne, ha, -⟩, h⟩ := h
      exact Option.some.inj h ▸ Moves.exit a reason hout hne ha
  | tell =>
      rw [outer] at h
      cases hout : s.outgoing with
      | nil => simp [hout] at h
      | cons p rest =>
          simp only [hout, Option.some.injEq] at h
          exact h ▸ Moves.tell hout
  | abort => exact Option.some.inj h ▸ Moves.abort
  | takes l =>
      rw [outer, Option.ite_none_right_eq_some] at h
      exact Option.some.inj h.2 ▸ Moves.takes h.1
  | call op codes =>
      rw [outer, Option.ite_none_right_eq_some] at h
      obtain ⟨hfits, h⟩ := h
      cases hrun : (Reacting.administer (codeAt codes) op).run s.world with
      | ok a w =>
          simp only [hrun, Option.some.injEq] at h
          exact h ▸ Moves.returns hfits hrun
      | error e w =>
          simp only [hrun, Option.some.injEq] at h
          exact h ▸ Moves.raises hfits hrun
  | initNext | receive | crash | leave => cases h

lemma eq_of_exits {s t : Family Args} {reason : ExitReason} (h : s.exits reason = some t) :
    t = s.removed reason := by
  rw [exits, Option.ite_none_left_eq_some] at h
  exact (Option.some.inj h.2).symm

lemma own_cases {s t : Family Args} {d : Deed Args} (halive : s.standing = .alive)
    (h : s.own d = some t) : Moves s d t := by
  cases d with
  | initNext codes =>
      rw [own, Option.ite_none_right_eq_some] at h
      obtain ⟨⟨hphase, -⟩, h⟩ := h
      split at h
      · exact Option.some.inj h ▸ Moves.initEnds codes halive hphase
      · rename_i hmore
        rw [not_or, not_le] at hmore
        cases hrun : (Reacting.startChildByIndex (codeAt codes) s.next none).run s.world with
        | ok a w =>
            simp only [hrun, Option.some.injEq] at h
            exact h ▸ Moves.initStarts halive hphase hmore.1 hmore.2 hrun
        | error e w =>
            simp only [hrun] at h
            exact eq_of_exits h ▸ Moves.initRaises halive hrun
  | receive delivered codes =>
      rw [own, Option.ite_none_right_eq_some] at h
      obtain ⟨⟨hphase, -⟩, h⟩ := h
      cases hbox : s.world.mailbox with
      | nil => simp [hbox] at h
      | cons sg rest =>
          simp only [hbox] at h
          cases hrun : (Reacting.superviseVisitor (codeAt codes) sg).run (popped s.world) with
          | ok a w =>
              simp only [hrun, Option.some.injEq] at h
              exact h ▸ Moves.handles halive hphase hbox hrun
          | error e w =>
              cases delivered with
              | true =>
                  simp only [hrun, if_true, Option.some.injEq] at h
                  exact h ▸ Moves.sticks hbox hrun
              | false =>
                  simp only [hrun, Bool.false_eq_true, if_false] at h
                  exact eq_of_exits h ▸ Moves.falls halive hbox hrun
  | crash =>
      rw [own, Option.ite_none_right_eq_some] at h
      exact eq_of_exits h.2 ▸ Moves.crashes halive
  | leave =>
      rw [own, Option.ite_none_right_eq_some] at h
      exact eq_of_exits h.2 ▸ Moves.leaves halive h.1.1
  | exit | tell | abort | takes | call => cases h

/-- A step is one of these, and taken by a supervisor that is registered. -/
lemma step_cases {s t : Family Args} {d : Deed Args} (h : s.step d = some t) :
    (s.standing = .alive ∨ s.standing = .stuck) ∧ Moves s d t := by
  rw [step] at h
  cases hs : s.standing with
  | alive =>
      simp only [hs] at h
      split at h
      · exact ⟨Or.inl rfl, own_cases hs h⟩
      · exact ⟨Or.inl rfl, outer_cases h⟩
  | stuck =>
      simp only [hs] at h
      exact ⟨Or.inr rfl, outer_cases h⟩
  | undefined | gone => simp [hs] at h

end Family

/-! ### What most changes leave alone -/

/-- `w'` differs from `w` in flags of entries, in exit signals that name their receiver, in what
other actors do, and in the supervisor's own members other than `children_`. -/
structure Adapts (w w' : World Args) : Prop where
  core : ∀ k, (w'.children.find? k).map ChildEntry.core = (w.children.find? k).map ChildEntry.core
  wellFormed : w.sched.WellFormed → w'.sched.WellFormed
  registered : ∀ k < w.sched.nextActorId, w'.registered k = w.registered k
  nextActorId : w.sched.nextActorId ≤ w'.sched.nextActorId
  monitors : ∀ k, w.self ∈ w.sched.monitorsOf k → w.self ∈ w'.sched.monitorsOf k
  mailbox_of : w.self < w.sched.nextActorId →
    ∀ sg ∈ w'.mailbox, sg ∈ w.mailbox ∨ ∃ r, sg = .exit w.self r
  of_mailbox : w.self < w.sched.nextActorId → ∀ sg ∈ w.mailbox, sg ∈ w'.mailbox
  requests : ∀ k < w.sched.nextActorId, stopRequested w k = true → stopRequested w' k = true
  self : w'.self = w.self
  spawned : w'.spawned = w.spawned

namespace Adapts

/-- Nothing is registered or removed. -/
lemma of_adjusted {w w' : World Args} (h : Adjusted w w') (hwf : w.sched.WellFormed →
    w'.sched.WellFormed) : Adapts w w' where
  core := h.core
  wellFormed := hwf
  registered k _ := h.registered k
  nextActorId := h.nextActorId.ge
  monitors k hk := by rwa [SchedulerBase.monitorsOf, h.monitors]
  mailbox_of _ := h.mailbox_of
  of_mailbox _ := h.of_mailbox
  requests k _ := h.requests k
  self := h.self
  spawned := h.spawned

/-- A change of members that are not the registry, `children_` or `spawned`. -/
lemma of_eq {w w' : World Args} (hsched : w'.sched = w.sched)
    (hchildren : w'.children = w.children) (hself : w'.self = w.self)
    (hspec : w'.specification = w.specification) (hspawned : w'.spawned = w.spawned) :
    Adapts w w' :=
  of_adjusted (Adjusted.of_eq hsched hchildren hself hspec hspawned) (by rw [hsched]; exact id)

/-- A change of the flags of one entry. -/
lemma modify (w : World Args) (ref : ActorRef) (f : ChildEntry Args → ChildEntry Args)
    (hf : ∀ e, (f e).core = e.core) :
    Adapts w { w with children := w.children.modify ref f } where
  core := (marked_modify w ref f hf).core
  wellFormed := id
  registered _ _ := rfl
  nextActorId := le_rfl
  monitors _ := id
  mailbox_of _ _ := Or.inl
  of_mailbox _ _ := id
  requests _ _ := id
  self := rfl
  spawned := rfl

lemma wellFormed_send {b : SchedulerBase} (h : b.WellFormed) (ref : ActorRef) (sg : Signal) :
    (b.send ref sg).WellFormed := by
  refine ⟨by rw [SchedulerBase.nextActorId_send]; exact h.pos, fun k hk => ?_⟩
  rw [SchedulerBase.contains_send] at hk
  rw [SchedulerBase.nextActorId_send]
  exact h.lt k hk

/-- An exit signal that names its receiver. -/
lemma send (w : World Args) (ref : ActorRef) (reason : ExitReason) :
    Adapts w { w with sched := w.sched.send ref (.exit ref reason) } :=
  of_adjusted (Adjusted.send w ref reason) fun h => wellFormed_send h _ _

/-- What other actors do. -/
lemma taken (w : World Args) {l : Label Args} (hl : l.taken = true) :
    Adapts w (Supervisor.taken w l) := by
  have hsame : ∀ (sched : SchedulerBase) (now : ℤ), sched.actors = w.sched.actors →
      sched.nextActorId = w.sched.nextActorId →
      (∀ k, w.self ∈ w.sched.monitorsOf k → w.self ∈ sched.monitorsOf k) →
      Adapts w { w with sched := sched, now := now } := by
    intro sched now hactors hnext hmon
    refine ⟨fun _ => rfl, fun hwf => ⟨hnext ▸ hwf.pos, fun k hk => hnext ▸ hwf.lt k (hactors ▸ hk)⟩,
      fun k _ => ?_, hnext.ge, hmon, fun _ sg hsg => Or.inl ?_, fun _ sg hsg => ?_,
      fun k _ hk => ?_, rfl, rfl⟩
    · rw [World.registered, World.registered, hactors]
    · rwa [World.mailbox, hactors] at hsg
    · rwa [World.mailbox, hactors]
    · rwa [stopRequested, hactors]
  rcases taken_cases w hl with heq | hs
  · rw [heq]
    exact of_eq rfl rfl rfl rfl rfl
  · generalize Supervisor.taken w l = u at hs
    cases hs with
    | exit => cases hl
    | spawn linker monitorRef =>
        have hfind : ∀ k, k ≠ w.sched.nextActorId →
            (w.sched.spawnImpl linker monitorRef).2.actors.find? k = w.sched.actors.find? k :=
          fun k hk => (OrdMap.find?_insert _ _ _ _).trans (if_neg hk)
        refine ⟨fun _ => rfl, fun hwf => hwf.spawnImpl linker monitorRef, fun k hk => ?_,
          Nat.le_succ _, fun k hk => ?_, fun hself sg hsg => Or.inl ?_, fun hself sg hsg => ?_,
          fun k hk hreq => ?_, rfl, rfl⟩
        · exact congrArg Option.isSome (hfind k hk.ne)
        · show w.self ∈ (((if monitorRef.valid then _ else _ : OrdMap _ _).find? k).getD [])
          split
          · rw [SchedulerBase.find?_pushBack]
            exact List.mem_append_left _ hk
          · exact hk
        · rwa [World.mailbox, hfind _ hself.ne] at hsg
        · rwa [World.mailbox, hfind _ hself.ne]
        · rwa [stopRequested, hfind k hk.ne]
    | link left right => exact hsame _ w.now rfl rfl fun _ => id
    | monitor monitorRef targetRef =>
        refine hsame _ w.now rfl rfl fun k hk => ?_
        rw [SchedulerBase.monitorsOf, SchedulerBase.find?_pushBack]
        exact List.mem_append_left _ hk
    | advance time => exact hsame w.sched time rfl rfl fun _ => id

end Adapts

/-! ### What the supervisor is going to hear of -/

/-- The down signal of `k` is waiting in the supervisor's mailbox, or is among those that have not
been sent. -/
def Unhandled (unsent : List (ActorRef × Signal)) (w : World Args) (k : ActorRef) : Prop :=
  waiting w k = true ∨ ∃ r, (w.self, Signal.down k r) ∈ unsent

instance (unsent : List (ActorRef × Signal)) (w : World Args) (k : ActorRef) :
    Decidable (Unhandled unsent w k) :=
  decidable_of_iff (waiting w k = true ∨ (w.self, Signal.down k .normal) ∈ unsent ∨
      (w.self, Signal.down k .stopped) ∈ unsent ∨ (w.self, Signal.down k .error) ∈ unsent) <| by
    refine or_congr Iff.rfl ⟨?_, ?_⟩
    · rintro (h | h | h)
      · exact ⟨_, h⟩
      · exact ⟨_, h⟩
      · exact ⟨_, h⟩
    · rintro ⟨r, h⟩
      cases r with
      | normal => exact Or.inl h
      | stopped => exact Or.inr (Or.inl h)
      | error => exact Or.inr (Or.inr h)

/-- The joint invariant of the registry, the supervisor's mailbox, the signals that have not been
sent, and `children_`. -/
structure Known (unsent : List (ActorRef × Signal)) (w : World Args) : Prop where
  wellFormed : w.sched.WellFormed
  registered_self : w.registered w.self = true
  spawned_lt : ∀ p ∈ w.spawned, p.1 < w.sched.nextActorId ∧ p.1 ≠ w.self ∧ p.1 ≠ 0
  child_spawned : ∀ k e, w.children.find? k = some e → (k, e.specIndex) ∈ w.spawned
  monitored : ∀ k, w.children.contains k = true → w.registered k = true →
    w.self ∈ w.sched.monitorsOf k
  reported : ∀ k, w.children.contains k = true → w.registered k = false → Unhandled unsent w k
  /-- The signals in the mailbox are the supervisor's own, or come from actors that have
  exited. -/
  source : ∀ sg ∈ w.mailbox, sg.source = w.self ∨
    (w.registered sg.source = false ∧ sg.source < w.sched.nextActorId)
  sending : ∀ p ∈ unsent, w.registered p.2.source = false ∧ p.2.source < w.sched.nextActorId

/-- A signal that is sent reaches the end of the supervisor's mailbox, if it is for the
supervisor. -/
lemma mailbox_send {w : World Args} (h : w.registered w.self = true) (p : ActorRef × Signal) :
    ({ w with sched := w.sched.send p.1 p.2 } : World Args).mailbox =
      w.mailbox ++ if p.1 = w.self then [p.2] else [] := by
  obtain ⟨l, hl⟩ := OrdMap.contains_iff.mp h
  simp [World.mailbox, SchedulerBase.find?_send, hl]

namespace Known

variable {unsent : List (ActorRef × Signal)} {w w' : World Args}

lemma self_lt (h : Known unsent w) : w.self < w.sched.nextActorId :=
  h.wellFormed.lt _ h.registered_self

lemma child (h : Known unsent w) {k : ActorRef} (hk : w.children.contains k = true) :
    k < w.sched.nextActorId ∧ k ≠ w.self ∧ k ≠ 0 := by
  obtain ⟨e, he⟩ := OrdMap.contains_iff.mp hk
  exact h.spawned_lt _ (h.child_spawned k e he)

lemma self_not_child (h : Known unsent w) : w.children.contains w.self = false := by
  by_contra hc
  rw [Bool.not_eq_false] at hc
  exact (h.child hc).2.1 rfl

lemma adapts (h : Known unsent w) (ha : Adapts w w') : Known unsent w' := by
  have hcontains := contains_of_core ha.core
  have hlt : ∀ k, w'.children.contains k = true → k < w.sched.nextActorId := fun k hk =>
    (h.child ((hcontains k).symm.trans hk)).1
  refine ⟨ha.wellFormed h.wellFormed, ?_, fun p hp => ?_, fun k e he => ?_, fun k hk hreg => ?_,
    fun k hk hreg => ?_, fun sg hsg => ?_, fun p hp => ?_⟩
  · rw [ha.self, ha.registered _ h.self_lt]
    exact h.registered_self
  · rw [ha.spawned] at hp
    rw [ha.self]
    exact ⟨(h.spawned_lt p hp).1.trans_le ha.nextActorId, (h.spawned_lt p hp).2⟩
  · have hk := ha.core k
    rw [he] at hk
    obtain ⟨e', he', hcore⟩ := Option.map_eq_some_iff.mp hk.symm
    have hidx : e'.specIndex = e.specIndex := congrArg Prod.fst hcore
    rw [ha.spawned, ← hidx]
    exact h.child_spawned k e' he'
  · rw [ha.self]
    refine ha.monitors k (h.monitored k ((hcontains k).symm.trans hk) ?_)
    rwa [← ha.registered k (hlt k hk)]
  · rw [ha.registered k (hlt k hk)] at hreg
    rw [Unhandled, ha.self]
    refine (h.reported k ((hcontains k).symm.trans hk) hreg).imp_left fun hwait => ?_
    obtain ⟨r, hr⟩ := waiting_iff.mp hwait
    exact waiting_iff.mpr ⟨r, ha.of_mailbox h.self_lt _ hr⟩
  · rw [ha.self]
    rcases ha.mailbox_of h.self_lt sg hsg with hsg | ⟨r, rfl⟩
    · refine (h.source sg hsg).imp_right fun hs => ⟨?_, hs.2.trans_le ha.nextActorId⟩
      rw [ha.registered _ hs.2]
      exact hs.1
    · exact Or.inl rfl
  · obtain ⟨hreg, hp⟩ := h.sending p hp
    refine ⟨?_, hp.trans_le ha.nextActorId⟩
    rw [ha.registered _ hp]
    exact hreg

/-- Children may be removed. -/
lemma of_sub (h : Known unsent w) {children : OrdMap ActorRef (ChildEntry Args)}
    (hsub : ∀ k e, children.find? k = some e → w.children.find? k = some e) :
    Known unsent { w with children := children } := by
  have hcontains : ∀ k, children.contains k = true → w.children.contains k = true := by
    intro k hk
    obtain ⟨e, he⟩ := OrdMap.contains_iff.mp hk
    exact OrdMap.contains_iff.mpr ⟨e, hsub k e he⟩
  exact { h with
    child_spawned := fun k e he => h.child_spawned k e (hsub k e he)
    monitored := fun k hk => h.monitored k (hcontains k hk)
    reported := fun k hk => h.reported k (hcontains k hk) }

lemma drop (h : Known unsent w) (ref : ActorRef) : Known unsent (dropped w ref) :=
  h.of_sub fun _ _ he => (find?_erase_some he).2

lemma started (h : Known unsent w) (index : ℕ) (args : Args) :
    Known unsent (started w index args) := by
  have hself := h.self_lt.ne
  have hfind := find?_started w index args
  have hbox : (Supervisor.started w index args).mailbox = w.mailbox :=
    congrArg (fun o => Option.getD o []) ((OrdMap.find?_insert _ _ _ _).trans (if_neg hself))
  have hmon := monitorsOf_started w index args
  have hreg : ∀ k, k < w.sched.nextActorId →
      (Supervisor.started w index args).registered k = w.registered k := fun k hk => by
    rw [started_registered, decide_eq_false hk.ne, Bool.false_or]
  have hnext : (Supervisor.started w index args).sched.nextActorId = w.sched.nextActorId + 1 := rfl
  have hold : ∀ k, (Supervisor.started w index args).children.contains k = true →
      k = w.sched.nextActorId ∨ w.children.contains k = true := by
    intro k hk
    rwa [contains_started, Bool.or_eq_true, decide_eq_true_eq] at hk
  refine ⟨wellFormed_started h.wellFormed index args, ?_, fun p hp => ?_, fun k e he => ?_,
    fun k hk hr => ?_, fun k hk hr => ?_, fun sg hsg => ?_, fun p hp => ?_⟩
  · exact (hreg _ h.self_lt).trans h.registered_self
  · rcases List.mem_append.mp hp with hp | hp
    · exact ⟨(h.spawned_lt p hp).1.trans (Nat.lt_succ_self _), (h.spawned_lt p hp).2⟩
    · obtain rfl := List.mem_singleton.mp hp
      exact ⟨Nat.lt_succ_self _, hself.symm, h.wellFormed.pos.ne'⟩
  · rw [hfind] at he
    split at he
    · rename_i hk
      obtain rfl := Option.some.inj he
      exact List.mem_append_right _ (List.mem_singleton.mpr (by rw [hk]))
    · exact List.mem_append_left _ (h.child_spawned k e he)
  · rw [hmon]
    rcases hold k hk with rfl | hk'
    · simp
    · rw [hreg k (h.child hk').1] at hr
      exact List.mem_append_left _ (h.monitored k hk' hr)
  · -- the new child is registered, so only an older one can be gone
    rcases hold k hk with rfl | hk'
    · rw [started_registered] at hr
      simp at hr
    · rw [hreg k (h.child hk').1] at hr
      refine (h.reported k hk' hr).imp_left fun hwait => ?_
      rwa [waiting, hbox]
  · rw [hbox] at hsg
    refine (h.source sg hsg).imp_right fun hs => ⟨?_, hs.2.trans (Nat.lt_succ_self _)⟩
    exact (hreg _ hs.2).trans hs.1
  · obtain ⟨hr, hp⟩ := h.sending p hp
    exact ⟨(hreg _ hp).trans hr, hp.trans (Nat.lt_succ_self _)⟩

/-- The oldest signal is taken out of the mailbox, together with the child it names. -/
lemma pop (h : Known unsent w) {sg : Signal} {rest : List Signal} (hbox : w.mailbox = sg :: rest) :
    Known unsent (dropped (popped w) sg.source) := by
  have hrest : (popped w).mailbox = rest := by
    obtain ⟨l, hl⟩ := OrdMap.contains_iff.mp h.registered_self
    rw [World.mailbox, hl, Option.getD_some] at hbox
    simp [World.mailbox, Supervisor.popped, OrdMap.find?_modify, hl, hbox]
  have hreg : ∀ k, (dropped (popped w) sg.source).registered k = w.registered k :=
    popped_registered w
  have hchild : ∀ k, (dropped (popped w) sg.source).children.contains k = true →
      k ≠ sg.source ∧ w.children.contains k = true := by
    intro k hk
    obtain ⟨e, he⟩ := OrdMap.contains_iff.mp hk
    obtain ⟨hne, he'⟩ := find?_erase_some he
    exact ⟨hne, OrdMap.contains_iff.mpr ⟨e, he'⟩⟩
  refine ⟨⟨h.wellFormed.pos, fun k hk => h.wellFormed.lt k ((hreg k).symm.trans hk)⟩,
    (hreg _).trans h.registered_self, h.spawned_lt,
    fun k e he => h.child_spawned k e (find?_erase_some he).2,
    fun k hk hr => h.monitored k (hchild k hk).2 ((hreg k).symm.trans hr), fun k hk hr => ?_,
    fun sg' hsg' => ?_, fun p hp => ?_⟩
  · refine (h.reported k (hchild k hk).2 ((hreg k).symm.trans hr)).imp_left fun hwait => ?_
    obtain ⟨r, hr'⟩ := waiting_iff.mp hwait
    rw [hbox] at hr'
    rcases List.mem_cons.mp hr' with rfl | hr'
    · exact absurd rfl (hchild k hk).1
    · exact waiting_iff.mpr ⟨r, hrest ▸ hr'⟩
  · have hmem : sg' ∈ w.mailbox := hbox ▸ List.mem_cons_of_mem sg (hrest ▸ hsg')
    rw [hreg]
    exact h.source sg' hmem
  · rw [hreg]
    exact h.sending p hp

/-- Signals may be listed in another order. -/
lemma of_mem {unsent' : List (ActorRef × Signal)} (h : Known unsent w)
    (hmem : ∀ p, p ∈ unsent' ↔ p ∈ unsent) : Known unsent' w :=
  { h with
    reported := fun k hk hr => (h.reported k hk hr).imp_right fun ⟨r, hr'⟩ => ⟨r, (hmem _).mpr hr'⟩
    sending := fun p hp => h.sending p ((hmem p).mp hp) }

/-- The guarded section of an exit. -/
lemma exit (h : Known unsent w) {a : ActorRef} (hne : a ≠ w.self) (ha : w.registered a = true)
    (reason : ExitReason) :
    Known (w.sched.pendingSignals a reason ++ unsent)
      { w with sched := w.sched.collectAndErase a } := by
  have hreg : ∀ k, ({ w with sched := w.sched.collectAndErase a } : World Args).registered k =
      (decide (k ≠ a) && w.registered k) := fun k => OrdMap.contains_erase _ _ _
  have hbox : ({ w with sched := w.sched.collectAndErase a } : World Args).mailbox = w.mailbox :=
    congrArg (fun o => Option.getD o []) ((OrdMap.find?_erase _ _ _).trans (if_neg hne.symm))
  have hgone : ∀ k, w.registered k = false →
      ({ w with sched := w.sched.collectAndErase a } : World Args).registered k = false :=
    fun k hk => by rw [hreg, hk, Bool.and_false]
  refine ⟨⟨h.wellFormed.pos, fun k hk => ?_⟩, ?_, h.spawned_lt, h.child_spawned, fun k hk hr => ?_,
    fun k hk hr => ?_, fun sg hsg => ?_, fun p hp => ?_⟩
  · have hk' := (hreg k).symm.trans hk
    rw [Bool.and_eq_true] at hk'
    exact h.wellFormed.lt k hk'.2
  · rw [hreg, h.registered_self]
    simpa using hne.symm
  · rw [hreg, Bool.and_eq_true, decide_eq_true_eq] at hr
    rw [SchedulerBase.monitorsOf_collectAndErase, if_neg hr.1]
    exact h.monitored k hk hr.2
  · by_cases hka : k = a
    · -- the child that has just exited
      subst hka
      refine Or.inr ⟨reason, List.mem_append_left _ (List.mem_append_right _ ?_)⟩
      exact List.mem_map.mpr ⟨w.self, h.monitored k hk ha, rfl⟩
    · have hr' : w.registered k = false := by simpa [hreg, hka] using hr
      refine (h.reported k hk hr').imp (fun hwait => ?_) fun ⟨r, hr⟩ =>
        ⟨r, List.mem_append_right _ hr⟩
      rwa [waiting, hbox]
  · rw [hbox] at hsg
    exact (h.source sg hsg).imp_right fun hs => ⟨hgone _ hs.1, hs.2⟩
  · rcases List.mem_append.mp hp with hp | hp
    · have hsource : p.2.source = a := by
        rcases List.mem_append.mp hp with hp | hp
        · obtain ⟨_, _, rfl⟩ := List.mem_map.mp hp
          rfl
        · obtain ⟨_, _, rfl⟩ := List.mem_map.mp hp
          rfl
      rw [hsource, hreg]
      exact ⟨by simp, h.wellFormed.lt a ha⟩
    · exact ⟨hgone _ (h.sending p hp).1, (h.sending p hp).2⟩

/-- One send of an exit. -/
lemma tell {p : ActorRef × Signal} (h : Known (p :: unsent) w) :
    Known unsent { w with sched := w.sched.send p.1 p.2 } := by
  have hreg : ∀ k, ({ w with sched := w.sched.send p.1 p.2 } : World Args).registered k =
      w.registered k := fun k => SchedulerBase.contains_send _ _ _ _
  have hbox := mailbox_send h.registered_self p
  have hmon : ∀ k, (w.sched.send p.1 p.2).monitorsOf k = w.sched.monitorsOf k := fun k => by
    rw [SchedulerBase.monitorsOf, SchedulerBase.monitors_send, SchedulerBase.monitorsOf]
  have hnext := SchedulerBase.nextActorId_send w.sched p.1 p.2
  refine ⟨Adapts.wellFormed_send h.wellFormed _ _, (hreg _).trans h.registered_self,
    fun q hq => ?_, h.child_spawned, fun k hk hr => ?_, fun k hk hr => ?_, fun sg hsg => ?_,
    fun q hq => ?_⟩
  · rw [hnext]
    exact h.spawned_lt q hq
  · rw [hmon]
    exact h.monitored k hk ((hreg k).symm.trans hr)
  · rcases h.reported k hk ((hreg k).symm.trans hr) with hwait | ⟨r, hr'⟩
    · obtain ⟨r, hr'⟩ := waiting_iff.mp hwait
      exact Or.inl (waiting_iff.mpr ⟨r, hbox ▸ List.mem_append_left _ hr'⟩)
    · rcases List.mem_cons.mp hr' with rfl | hr'
      · exact Or.inl (waiting_iff.mpr ⟨r, hbox ▸ List.mem_append_right _ (by simp)⟩)
      · exact Or.inr ⟨r, hr'⟩
  · rw [hreg, hnext]
    rw [hbox, List.mem_append] at hsg
    rcases hsg with hsg | hsg
    · exact h.source sg hsg
    · split at hsg
      · rw [List.mem_singleton.mp hsg]
        exact Or.inr (h.sending p List.mem_cons_self)
      · cases hsg
  · rw [hreg, hnext]
    exact h.sending q (List.mem_cons_of_mem p hq)

end Known

lemma stable_known (unsent : List (ActorRef × Signal)) :
    Stable (Known unsent : World Args → Prop) := fun w _ hl h => h.adapts (Adapts.taken w hl)

/-- The parts of the operations keep the invariant. -/
lemma robust_known {inner : Site → Code Args} (hforeign : Foreign inner)
    (unsent : List (ActorRef × Signal)) : Robust inner (Known unsent) where
  suppress ref _ := Preserves.modify fun w h => h.adapts (Adapts.modify w ref _ fun _ => rfl)
  requestStop := requestStop_preserves hforeign (stable_known unsent)
    (fun w ref h => h.adapts (Adapts.modify w ref _ fun _ => rfl))
    fun w ref h => h.adapts (Adapts.send w ref .stopped)
  startFresh := startFresh_preserves hforeign (stable_known unsent)
    (fun _ h => h.registered_self) fun _ index args h => h.started index args
  group _ _ h := h.adapts (Adapts.of_eq rfl rfl rfl rfl rfl)

section Knowing

variable {inner : Site → Code Args} (hforeign : Foreign inner) {unsent : List (ActorRef × Signal)}

include hforeign

lemma stop_known (reason : ExitReason) :
    Preserves (Known unsent) (Reacting.stop inner reason) :=
  (robust_known hforeign unsent).stop
    (fun _ h => h.adapts (Adapts.of_eq rfl rfl rfl rfl rfl)) reason
    (Preserves.modify fun w h => (h.adapts (Adapts.send w w.self reason)).adapts
      (Adapts.of_eq rfl rfl rfl rfl rfl))

lemma registerRestart_known : Preserves (Known unsent) (Reacting.registerRestart inner) :=
  registerRestart_preserves (fun _ _ h => h.adapts (Adapts.of_eq rfl rfl rfl rfl rfl))
    (stop_known hforeign .error)

lemma superviseVisitor_known {w : World Args} {sg : Signal} {rest : List Signal}
    (h : Known unsent w) (hbox : w.mailbox = sg :: rest) :
    Post (Reacting.superviseVisitor inner sg) (popped w) (fun _ => Known unsent)
      (Known unsent) := by
  have hpop := h.pop hbox
  have hnone {k : ActorRef} (hk : w.children.contains k = false) :
      (popped w).children.find? k = none := by
    have hf : w.children.find? k = none := by simpa [OrdMap.contains] using hk
    exact hf
  refine Reacting.superviseVisitor_cases (fun _ hown => ?_) (fun hzero => ?_) fun _ =>
    (robust_known hforeign unsent).handleTermination (registerRestart_known hforeign) sg.reason hpop
  · have hown' : sg.source = w.self := hown
    rw [hown', dropped_eq (hnone h.self_not_child)] at hpop
    exact hpop.adapts (Adapts.of_eq rfl rfl rfl rfl rfl)
  · have hno : w.children.contains sg.source = false := by
      by_contra hc
      rw [Bool.not_eq_false] at hc
      exact (h.child hc).2.2 hzero
    exact dropped_eq (hnone hno) ▸ hpop

lemma administer_known (op : Operation Args) :
    Preserves (Known unsent) (Reacting.administer inner op) := by
  have hP := robust_known hforeign unsent
  cases op with
  | startChild index args => exact hP.startChildByIndex index args
  | stopChild index => exact hP.stopAndSuppressByIndex index
  | restartChild index => exact hP.restartChild index
  | deleteChild index =>
      refine (hP.stopAndSuppressByIndex index).bind fun _ => Preserves.modify fun w h => ?_
      exact h.of_sub fun _ _ he => OrdMap.find?_of_filter he
  | stop reason => exact stop_known hforeign reason

end Knowing

/-- The code that runs inside the deed. -/
def Deed.codes : Deed Args → List (Site × Code Args)
  | .call _ codes | .initNext codes | .receive _ codes => codes
  | .exit .. | .tell | .abort | .takes _ | .crash | .leave => []

/-- None of it calls an operation of the supervisor. -/
def Deed.foreign (d : Deed Args) : Bool := d.codes.all fun c => c.2.foreign

lemma foreign_codeAt {codes : List (Site × Code Args)}
    (h : (codes.all fun c => c.2.foreign) = true) : Foreign (codeAt codes) :=
  codeAt_of_forall (p := fun _ c => c.foreign = true) (fun _ => rfl) (List.all_eq_true.mp h)

namespace Family

/-- The signals that have not been sent. -/
def unsent (s : Family Args) : List (ActorRef × Signal) := s.outgoing ++ s.lost

/-- The supervisor is in the registry. -/
def Registered (s : Family Args) : Prop := ∀ reason, s.standing ≠ .gone reason

lemma registered_of_step {s t : Family Args} {d : Deed Args} (h : s.step d = some t) :
    s.Registered := by
  intro reason hgone
  rcases (step_cases h).1 with hs | hs
  · exact absurd (hs.symm.trans hgone) nofun
  · exact absurd (hs.symm.trans hgone) nofun

/-- What happens around the operations keeps the property of the unsent signals and the world. -/
structure Kept (P : List (ActorRef × Signal) → World Args → Prop) : Prop where
  exit : ∀ {unsent w a}, P unsent w → a ≠ w.self → w.registered a = true → ∀ reason,
    P (w.sched.pendingSignals a reason ++ unsent) { w with sched := w.sched.collectAndErase a }
  tell : ∀ {p unsent w}, P (p :: unsent) w → P unsent { w with sched := w.sched.send p.1 p.2 }
  of_mem : ∀ {unsent unsent' w}, P unsent w → (∀ p, p ∈ unsent' ↔ p ∈ unsent) → P unsent' w
  stable : ∀ unsent, Stable (P unsent)
  phase : ∀ {unsent w}, P unsent w → P unsent { w with phase := .supervising }

/-- If the operations keep the property as well, then so does every step, until the supervisor is
removed. -/
lemma Kept.step {P : List (ActorRef × Signal) → World Args → Prop} (hP : Kept P)
    {s t : Family Args} {d : Deed Args} (hmove : Moves s d t) (ht : t.Registered)
    (hs : P s.unsent s.world)
    (hadmin : ∀ op, Preserves (P s.unsent) (Reacting.administer (codeAt d.codes) op))
    (hstart : Preserves (P s.unsent) (Reacting.startChildByIndex (codeAt d.codes) s.next none))
    (hvisit : ∀ sg rest, s.world.mailbox = sg :: rest →
      Post (Reacting.superviseVisitor (codeAt d.codes) sg) (popped s.world)
        (fun _ => P s.unsent) (P s.unsent)) : P t.unsent t.world := by
  have haborted : ∀ {w : World Args}, P s.unsent w → P s.aborted.unsent w := fun h =>
    hP.of_mem h fun p => by simp [unsent, aborted, or_comm]
  cases hmove with
  | exit a reason hout hne ha =>
      have hexit := hP.exit hs hne ha reason
      rwa [unsent, hout, List.nil_append] at hexit
  | tell hout =>
      rw [unsent, hout] at hs
      exact hP.tell hs
  | abort => exact haborted hs
  | takes hl => exact hP.stable _ _ _ hl hs
  | returns hfits hrun => exact (hadmin _ _ hs).ended (e := .user) (.inl hrun)
  | raises hfits hrun => exact (hadmin _ _ hs).ended (.inr hrun)
  | initEnds => exact hP.phase hs
  | initStarts halive hphase hstatic hlt hrun => exact (hstart _ hs).ended (e := .user) (.inl hrun)
  | handles halive hphase hbox hrun => exact (hvisit _ _ hbox).ended (e := .user) (.inl hrun)
  | sticks hbox hrun => exact haborted ((hvisit _ _ hbox).ended (.inr hrun))
  | initRaises | falls | crashes | leaves => exact absurd rfl (ht _)

lemma kept_known : Kept (Known : List (ActorRef × Signal) → World Args → Prop) where
  exit h hne ha reason := h.exit hne ha reason
  tell h := h.tell
  of_mem h hmem := h.of_mem hmem
  stable := stable_known
  phase h := h.adapts (Adapts.of_eq rfl rfl rfl rfl rfl)

/-- Until the supervisor is removed, every step keeps the invariant. -/
lemma known_step {s t : Family Args} {d : Deed Args}
    (h : s.Registered → Known s.unsent s.world) (hforeign : d.foreign = true)
    (hstep : s.step d = some t) (ht : t.Registered) : Known t.unsent t.world := by
  have hw := h (registered_of_step hstep)
  have hinner := foreign_codeAt hforeign
  exact kept_known.step (step_cases hstep).2 ht hw (administer_known hinner)
    ((robust_known hinner _).startChildByIndex _ _) fun _ _ => superviseVisitor_known hinner hw

lemma known_create {sched : SchedulerBase} (hwf : sched.WellFormed) (spec : Specification Args) :
    Known [] (create sched spec).world := by
  have hbox : (create sched spec).world.mailbox = [] := by
    simp [create, Supervisor.create, World.mailbox, SchedulerBase.spawnImpl]
  have hacc : Accounted (create sched spec).world := accounted_create hwf spec
  refine ⟨hacc.wellFormed, hacc.registered_self, ?_, ?_, hacc.monitored, fun k hk => ?_, ?_, ?_⟩
  · intro p hp
    cases hp
  · intro k e he
    cases he
  · cases hk
  · intro sg hsg
    rw [hbox] at hsg
    cases hsg
  · intro p hp
    cases hp

end Family

/-! ### The restarts that signals request -/

/-- The world in which `handle_termination` calls `register_restart`, if it does. -/
def registersIn (w : World Args) (ref : ActorRef) (reason : ExitReason) : Option (World Args) :=
  if w.restartGroup.isSome then none
  else
    match w.children.find? ref with
    | none => none
    | some entry =>
        if !entry.suppressRestart &&
            shouldRestart (restartAtSpecIndex w.specification entry.specIndex) reason then
          some (dropped w ref)
        else none

/-- The same for a signal that reaches a visitor of `supervise_loop`. -/
def signalRegistersIn (w : World Args) : Signal → Option (World Args)
  | .down source reason => if source.valid then registersIn w source reason else none
  | .exit source reason =>
      if w.stopping && decide (source = w.self) then none
      else if source.valid then registersIn w source reason else none

lemma eq_of_registersIn {w v : World Args} {ref : ActorRef} {reason : ExitReason}
    (h : registersIn w ref reason = some v) : v = dropped w ref := by
  rw [registersIn] at h
  split at h
  · cases h
  · split at h
    · cases h
    · rw [Option.ite_none_right_eq_some] at h
      exact (Option.some.inj h.2).symm

/-- The terminated child is out of `children_` when the call is made. -/
lemma eq_of_signalRegistersIn {w v : World Args} {sg : Signal}
    (h : signalRegistersIn w sg = some v) : v = dropped w sg.source := by
  cases sg with
  | down source reason =>
      rw [signalRegistersIn, Option.ite_none_right_eq_some] at h
      exact eq_of_registersIn h.2
  | exit source reason =>
      rw [signalRegistersIn, Option.ite_none_left_eq_some, Option.ite_none_right_eq_some] at h
      exact eq_of_registersIn h.2.2

/-- The supervisor's own exit signal names no child. -/
lemma signalRegistersIn_eq {w : World Args} {sg : Signal} (hself : w.children.find? w.self = none)
    (hvalid : sg.source.valid = true) :
    signalRegistersIn w sg = registersIn w sg.source sg.reason := by
  cases sg with
  | down source reason => exact if_pos hvalid
  | exit source reason =>
      rw [signalRegistersIn]
      split
      · rename_i hown
        rw [Bool.and_eq_true, decide_eq_true_eq] at hown
        have hnone : w.children.find? (Signal.exit source reason).source = none := by
          rw [← hself, ← hown.2]
          rfl
        rw [registersIn, hnone]
        split <;> rfl
      · exact if_pos hvalid

/-- The oldest signal leads to a call of `register_restart`, which refuses the restart. -/
def refuses (w : World Args) : Bool :=
  (w.mailbox.head?.bind (signalRegistersIn (popped w))).any fun v => !granted v

end Supervisor

end Agner
