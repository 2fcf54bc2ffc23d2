import Agner.Spec.Correspondence

/-!
The runtime refines `actor_system`: for any number of actors and messages, and in runs of any
length, what the code does is what the specification allows.

* `Act`, `step`: the runtime, with actors that are collectors, sequences and timeouts, and other
  code that spawns them, links and monitors them and sends them messages.
* `Running`, `Rel`: the states in which code is running. The specification takes its step when a
  coroutine or a delivery is done.
* `Rel.step`: a step of the runtime is a run of the specification, mostly of one step or none.
-/

namespace Agner

open ActorSystem Runs

namespace Projection

/-- What happens next. -/
inductive Act (I P R : Type) where
  | spawn
  | spawnLink (linker : ActorRef)
  | spawnMonitor (watcher : ActorRef)
  | link (left right : ActorRef)
  | monitor (watcher target : ActorRef)
  | send (target : ActorRef) (msg : Msg I P)
  /-- The coroutine that runs calls `receive` or `try_receive`, or comes to its end. -/
  | go
  | visitorReturn (value : R)
  | timeoutReturn (value : R)
  | signal
  | resume
  /-- The timers have one delay, and so expire in the order in which they have been armed. -/
  | fire

variable {I P R : Type} [DecidableEq I]

/-- One step. -/
def step (kinds : ActorRef → SpawnKind) (s : Runtime (Msg I P) R) :
    Act I P R → Option (Runtime (Msg I P) R)
  | .spawn => if s.stack.isEmpty then s.step (.spawn 0 0) else none
  | .spawnLink linker =>
      if s.stack.isEmpty && s.registered linker then s.step (.spawn linker 0) else none
  | .spawnMonitor watcher =>
      if s.stack.isEmpty && s.registered watcher then s.step (.spawn 0 watcher) else none
  | .link left right =>
      if s.stack.isEmpty && s.registered left && s.registered right && left != right then
        s.step (.link left right)
      else none
  | .monitor watcher target =>
      if s.stack.isEmpty && s.registered watcher && s.registered target && watcher != target then
        s.step (.monitor watcher target)
      else none
  | .send target msg =>
      if s.stack.isEmpty && !alreadySent s msg.id then s.step (.send target msg) else none
  | .go =>
      match s.stack with
      | .running a :: _ =>
          if (callsOf s a).length < callCount (kinds a) then
            s.step (.receive [acceptsPing] (kinds a = .timeout))
          else s.step .finish
      | _ => none
  | .visitorReturn value => s.step (.visitorReturn value)
  | .timeoutReturn value => s.step (.timeoutReturn value)
  | .signal => s.step .signal
  | .resume => s.step .resume
  | .fire =>
      match s.timers with
      | r :: _ => s.step (.fire r)
      | [] => none

/-! ### The states in which code is running -/

/-- What the running actor has observed since it was resumed, and its mailbox now. -/
inductive Progress (σ : State ActorRef I P) (a : ActorRef) :
    List (Observation I P) → List (Msg I P) → Prop where
  | nothing (h : σ.pendingResult a = .noPending) : Progress σ a [] (σ.mailboxes a)
  | timedOut (h : σ.pendingResult a = .timeoutToken) :
      Progress σ a [.timeoutToken] (σ.mailboxes a)
  | one (msg : Msg I P) (rest : List (Msg I P)) (h : σ.taken a = some (msg, rest))
      (hpending : σ.pendingResult a ≠ .timeoutToken) : Progress σ a [.message msg] rest
  | two (msg1 msg2 : Msg I P) (box1 rest2 : List (Msg I P)) (h : σ.taken a = some (msg1, box1))
      (hpc : σ.pc a = .seqFirst) (hsecond : firstMatch .seqSecond box1 = some (msg2, rest2)) :
      Progress σ a [.message msg1, .message msg2] rest2

/-- The running actor, which is about to go on with its run. -/
structure Running (kinds : ActorRef → SpawnKind) (s : Runtime (Msg I P) R)
    (σ : State ActorRef I P) (a : ActorRef) (past now : List (ℕ × ReceiveAwaiter (Msg I P) R))
    (box : List (Msg I P)) : Prop where
  self : view s a = ⟨true, false, box, none, past ++ now, []⟩
  returned : ∀ p ∈ past ++ now, Returned p.2
  count : past.length < callCount (kinds a)
  pc : σ.pc a = pcAfter (kinds a) past.length
  ready : a ∈ σ.ready
  observations : σ.observations a = observed past
  progress : Progress σ a (observed now) box

/-- How the states go together, by what is on the stack of the runtime. -/
inductive Rel (kinds : ActorRef → SpawnKind) (timeoutDelay : ℕ) (s : Runtime (Msg I P) R)
    (σ : State ActorRef I P) : Prop where
  | settled (hstack : s.stack = []) (h : Corresponds kinds timeoutDelay s σ none)
  | exiting (a : ActorRef) (signals : List (ActorRef × Signal))
      (hstack : s.stack = [.exiting a signals]) (h : Corresponds kinds timeoutDelay s σ none)
  /-- The message has been sent, and the visitor of the receive that waits for it is running. -/
  | delivering (s' : Runtime (Msg I P) R) (target : ActorRef) (msg : Msg I P) (r : ℕ)
      (hstack : s'.stack = []) (h : Corresponds kinds timeoutDelay s' σ none)
      (hsent : alreadySent s' msg.id = false) (hpending : (s'.actors target).pending = some r)
      (hping : acceptsPing (I := I) (P := P) (.user msg))
      (hs : s = deliver s' target (.user msg) r)
  /-- The timer has fired, and the timeout visitor is running. -/
  | expiring (s' : Runtime (Msg I P) R) (r : ℕ) (timers : List ℕ) (hstack : s'.stack = [])
      (h : Corresponds kinds timeoutDelay s' σ none) (htimers : s'.timers = r :: timers)
      (hactive : (s'.receives r).active = some true) (hs : s = s'.fireTimer r)
  | running (a : ActorRef) (past now : List (ℕ × ReceiveAwaiter (Msg I P) R))
      (box : List (Msg I P)) (hstack : s.stack = [.running a])
      (h : Corresponds kinds timeoutDelay s σ (some a)) (hrun : Running kinds s σ a past now box)
  /-- The actor has found a message in its mailbox, and the visitor is running. -/
  | visiting (s' : Runtime (Msg I P) R) (a : ActorRef)
      (past now : List (ℕ × ReceiveAwaiter (Msg I P) R)) (box : List (Msg I P))
      (hstack : s'.stack = [.running a]) (h : Corresponds kinds timeoutDelay s' σ (some a))
      (hrun : Running kinds s' σ a past now box)
      (hcount : (past ++ now).length < callCount (kinds a))
      (position : ℕ) (hposition : tryMatchMailbox [acceptsPing] (s'.actors a).mailbox =
        some position)
      (hs : s = s'.beginReceive a [] [acceptsPing] (kinds a = .timeout))

variable {kinds : ActorRef → SpawnKind} {timeoutDelay : ℕ} {s t : Runtime (Msg I P) R}
  {σ τ : State ActorRef I P} {running : Option ActorRef} {a b : ActorRef}
  {past now : List (ℕ × ReceiveAwaiter (Msg I P) R)} {box : List (Msg I P)}

/-! ### The steps of the specification for a coroutine -/

omit [DecidableEq I] in
lemma length_observed {calls : List (ℕ × ReceiveAwaiter (Msg I P) R)}
    (h : ∀ p ∈ calls, Returned p.2) : (observed calls).length = calls.length := by
  induction calls with
  | nil => rfl
  | cons p calls ih =>
      have ih := ih fun q hq => h q (List.mem_cons_of_mem p hq)
      simp only [observed] at ih
      simp [observed, (h p List.mem_cons_self).one, ih]
      omega

omit [DecidableEq I] in
lemma observed_append (calls calls' : List (ℕ × ReceiveAwaiter (Msg I P) R)) :
    observed (calls ++ calls') = observed calls ++ observed calls' := List.flatMap_append

/-- What the specification does when an actor suspends. -/
structure Suspends (timeoutDelay : ℕ) (σ τ : State ActorRef I P) (a : ActorRef) (w : SpecView I P) :
    Prop where
  next : State.Next timeoutDelay σ τ
  self : specView τ a = w
  other : ∀ b, b ≠ a → specView τ b = specView σ b
  links : τ.links = σ.links
  monitors : τ.monitors = σ.monitors
  time : τ.time = σ.time
  timers : τ.timers =
    if w.armed then Function.update σ.timers a (some (σ.time + timeoutDelay)) else σ.timers
  used : ∀ id, τ.msgState id ≠ .unused → σ.msgState id ≠ .unused

omit [DecidableEq I] in
lemma Running.kind (hrun : Running kinds s σ a past now box) (hinv : σ.Inv) :
    σ.kind a = some (kinds a) := by
  rw [hinv.kind a (hinv.ready hrun.ready), hrun.pc, kindOf_pcAfter]

omit [DecidableEq I] in
lemma Running.timers (hrun : Running kinds s σ a past now box) (hinv : σ.Inv) :
    σ.timers a = none := by
  by_contra hc
  obtain ⟨t, ht⟩ := Option.ne_none_iff_exists'.mp hc
  exact (hinv.timer a t ht).2.1 hrun.ready

/-- An actor that has taken nothing is blocked. -/
lemma suspends_block {kind : SpawnKind} {n : ℕ} (hready : a ∈ σ.ready)
    (htimers : σ.timers a = none) (hpending : σ.pendingResult a = .noPending)
    (hpc : σ.pc a = pcAfter kind n) (hkind : kind ≠ .timeout)
    (hrun : σ.runReadyActor timeoutDelay a = some (σ.block a)) :
    Suspends timeoutDelay σ (σ.block a) a ⟨pcAfter kind n, false, .noPending, σ.mailboxes a,
      decide (kind = .timeout), σ.observations a⟩ where
  next := .run a _ hready hrun
  self := by simp [specView, State.block, hpc, hpending, htimers, hkind]
  other b hb := by simp [specView, State.block, hb]
  links := rfl
  monitors := rfl
  time := rfl
  timers := by simp [State.block, hkind]
  used _ h := h

variable (timeoutDelay) in
lemma Running.suspends (hrun : Running kinds s σ a past now box) (hinv : σ.Inv)
    (hcount : (past ++ now).length < callCount (kinds a))
    (hno : firstMatch (pcAfter (kinds a) (past ++ now).length) box = none) :
    ∃ τ, Suspends timeoutDelay σ τ a ⟨pcAfter (kinds a) (past ++ now).length, false, .noPending,
      box, decide (kinds a = .timeout), observed (past ++ now)⟩ := by
  have hkind := hrun.kind hinv
  have htimers := hrun.timers hinv
  have hlength := length_observed fun p hp => hrun.returned p (List.mem_append_right past hp)
  have hpc := hrun.pc
  have hobs := hrun.observations
  have hprogress := hrun.progress
  obtain ⟨obs, hnow⟩ : ∃ obs, observed now = obs := ⟨_, rfl⟩
  rw [hnow] at hprogress hlength
  cases hprogress with
  | nothing hpending =>
      obtain rfl : now = [] := List.length_eq_zero_iff.mp hlength.symm
      rw [List.append_nil] at hcount hno ⊢
      rw [← hpc] at hno
      have htaken : σ.taken a = none := by
        rw [State.taken, hpending]
        exact hno
      rw [← hobs]
      cases hk : kinds a with
      | collector =>
          rw [hk] at hpc hkind
          refine ⟨σ.block a, suspends_block hrun.ready htimers hpending hpc (by simp) ?_⟩
          simp [State.runReadyActor, hkind, hpc, pcAfter, State.runCollector, htaken]
      | sequence =>
          rw [hk] at hpc hkind
          refine ⟨σ.block a, suspends_block hrun.ready htimers hpending hpc (by simp) ?_⟩
          rcases hn : past.length with _ | n
          · simp [State.runReadyActor, hkind, hpc, hn, pcAfter, State.runSequenceFirst, htaken]
          · simp [State.runReadyActor, hkind, hpc, hn, pcAfter, State.runSequenceSecond, htaken]
      | timeout =>
          rw [hk] at hpc hkind
          have harm : σ.runReadyActor timeoutDelay a = some { σ.block a with
              timers := Function.update σ.timers a (some (σ.time + timeoutDelay)) } := by
            simp [State.runReadyActor, hkind, hpc, pcAfter, State.runTimeout, htaken, hpending]
          refine ⟨_, .run a _ hrun.ready harm, ?_, fun b hb => ?_, rfl, rfl, rfl, ?_, fun _ h => h⟩
          · simp [specView, State.block, hpc, hpending]
          · simp [specView, State.block, hb]
          · simp
  | timedOut hpending =>
      -- a timeout makes one call, so it does not get to another one
      have htimeout : kinds a = .timeout := pcAfter_eq_trying.mp (hpc ▸ hinv.timeout a hpending)
      rw [List.length_append, htimeout, callCount, ← hlength, List.length_singleton] at hcount
      omega
  | one msg _ htaken hpending =>
      rw [List.length_append, ← hlength, List.length_singleton] at hcount hno ⊢
      cases hk : kinds a with
      | collector | timeout =>
          rw [hk, callCount] at hcount
          omega
      | sequence =>
          rw [hk, callCount] at hcount
          have hfirst : past = [] := List.length_eq_zero_iff.mp (by omega)
          subst hfirst
          rw [hk] at hpc hkind hno
          have hgoOn : σ.runReadyActor timeoutDelay a = some
              { σ with
                pc := Function.update σ.pc a .seqSecond
                ready := σ.ready.erase a
                mailboxes := Function.update σ.mailboxes a box
                pendingResult := Function.update σ.pendingResult a .noPending
                observations :=
                  Function.update σ.observations a (σ.observations a ++ [.message msg])
                msgState := Function.update σ.msgState msg.id .observed } := by
            have hno : firstMatch .seqSecond box = none := hno
            simp [State.runReadyActor, hkind, hpc, pcAfter, State.runSequenceFirst, htaken, hno]
          refine ⟨_, .run a _ hrun.ready hgoOn, ?_, fun b hb => ?_, rfl, rfl, rfl, ?_,
            fun id hid => ?_⟩
          · rw [observed_append, hnow, hobs]
            simp [specView, pcAfter, htimers]
          · simp [specView, hb]
          · simp
          · by_cases hne : id = msg.id
            · rw [hne]
              exact hinv.used_of_taken htaken
            · simpa [hne] using hid
  | two msg1 msg2 box1 _ htaken hfirst hsecond =>
      have hle : callCount (kinds a) ≤ 2 := by cases kinds a <;> simp [callCount]
      rw [List.length_append, ← hlength, List.length_cons, List.length_singleton] at hcount
      omega

/-- What is dropped or observed has been sent. -/
lemma used_of_markDropped {state : I → MessageState} {rest : List (Msg I P)} {id : I}
    (hinv : σ.Inv) (hrest : ∀ msg ∈ rest, msg ∈ σ.mailboxes a)
    (hstate : state id ≠ .unused → σ.msgState id ≠ .unused)
    (hid : markDropped state rest id ≠ .unused) : σ.msgState id ≠ .unused := by
  rw [markDropped] at hid
  split_ifs at hid with hmem
  · obtain ⟨msg, hmsg, rfl⟩ := List.mem_map.mp hmem
    rw [hinv.queued a msg (hrest msg hmsg)]
    simp
  · exact hstate hid

variable (timeoutDelay) in
lemma Running.finishes (hrun : Running kinds s σ a past now box) (hinv : σ.Inv)
    (hcount : callCount (kinds a) ≤ (past ++ now).length) :
    ∃ state rest, State.Next timeoutDelay σ (σ.finish a (observed now) state rest) ∧
      ∀ id, markDropped state rest id ≠ .unused → σ.msgState id ≠ .unused := by
  have hkind := hrun.kind hinv
  have hlength := length_observed fun p hp => hrun.returned p (List.mem_append_right past hp)
  have hpc := hrun.pc
  have hpast := hrun.count
  have hprogress := hrun.progress
  obtain ⟨obs, hnow⟩ : ∃ obs, observed now = obs := ⟨_, rfl⟩
  rw [hnow] at hprogress hlength ⊢
  cases hprogress with
  | nothing hpending =>
      rw [List.length_append, ← hlength, List.length_nil] at hcount
      omega
  | timedOut hpending =>
      have htrying := hinv.timeout a hpending
      rw [htrying] at hpc
      rw [pcAfter_eq_trying.mp hpc.symm] at hkind
      refine ⟨σ.msgState, σ.mailboxes a, .run a _ hrun.ready ?_, fun id hid =>
        used_of_markDropped hinv (fun _ h => h) (fun h => h) hid⟩
      simp [State.runReadyActor, hkind, htrying, State.runTimeout, hpending]
  | one msg _ htaken hpending =>
      have htakes := hinv.takes htaken
      refine ⟨Function.update σ.msgState msg.id .observed, box, .run a _ hrun.ready ?_,
        fun id hid => used_of_markDropped hinv htakes.subset (fun h => ?_) hid⟩
      · rw [List.length_append, ← hlength, List.length_singleton] at hcount
        cases hk : kinds a with
        | collector =>
            rw [hk] at hpc hkind
            simp [State.runReadyActor, hkind, hpc, pcAfter, State.runCollector, htaken,
              State.finishWith]
        | sequence =>
            rw [hk] at hpc hkind hcount hpast
            rw [callCount] at hcount hpast
            have hsecond : past.length = 1 := by omega
            simp [State.runReadyActor, hkind, hpc, hsecond, pcAfter, State.runSequenceSecond,
              htaken, State.finishWith]
        | timeout =>
            rw [hk] at hpc hkind
            have hrunTimeout : σ.runTimeout timeoutDelay a = σ.finishWith a msg box := by
              rw [State.runTimeout, htaken]
              cases hp : σ.pendingResult a with
              | timeoutToken => exact absurd hp hpending
              | noPending => rfl
              | message m => rfl
            simp [State.runReadyActor, hkind, hpc, pcAfter, hrunTimeout, State.finishWith]
      · by_cases hne : id = msg.id
        · rw [hne]
          exact hinv.used_of_taken htaken
        · simpa [hne] using h
  | two msg1 msg2 box1 _ htaken hfirst hsecond =>
      have htakes := hinv.takes htaken
      obtain ⟨older, newer, rfl, rfl, -, -⟩ := firstMatch_eq_some hsecond
      have htakes2 := htakes.more hinv rfl
      refine ⟨Function.update (Function.update σ.msgState msg1.id .observed) msg2.id .observed,
        older ++ newer, .run a _ hrun.ready ?_, fun id hid =>
        used_of_markDropped hinv htakes2.subset (fun h => ?_) hid⟩
      · -- only a sequence takes two messages in one turn
        have hsequence : kinds a = .sequence := by
          rw [hfirst] at hpc
          cases hk : kinds a <;> simp [hk, pcAfter] at hpc ⊢
        rw [hsequence] at hkind
        simp [State.runReadyActor, hkind, hfirst, State.runSequenceFirst, htaken, hsecond]
      · by_cases hne1 : id = msg1.id
        · rw [hne1]
          exact hinv.used_of_taken htaken
        · by_cases hne2 : id = msg2.id
          · rw [hne2, hinv.queued a msg2 (htakes.subset msg2 (by simp))]
            simp
          · simpa [hne1, hne2] using h

/-! ### A coroutine is resumed -/

/-- An actor starts. -/
lemma Corresponds.resumeStart {ready : List Handle} (h : Corresponds kinds timeoutDelay s σ none)
    (hready : s.ready = .start a :: ready) :
    Corresponds kinds timeoutDelay { s with ready := ready, stack := [.running a] } σ (some a) ∧
      ∃ box, Running kinds { s with ready := ready, stack := [.running a] } σ a [] [] box := by
  have hfilter (b : ActorRef) : (view s b).queued =
      if b = a then .start a :: ready.filter (fun h => handleActor s h = b)
      else ready.filter fun h => handleActor s h = b := by
    rw [view, hready]
    by_cases hb : b = a
    · simp [handleActor, hb]
    · simp [handleActor, hb, Ne.symm hb]
  have hself := hfilter a
  rw [if_pos rfl] at hself
  cases h.views a (by simp) with
  | absent hv hpc => simp [hv] at hself
  | blocked box past r x hv hpast hcount hx hw => simp [hv] at hself
  | scheduled box past r x o hv hpast hcount hx hw => simp [hv] at hself
  | ended box calls hv hpast hpc hobs => simp [hv] at hself
  | started box hv hw =>
      rw [hv] at hself
      have hpc : σ.pc a = spawnPc (kinds a) := congrArg SpecView.pc hw
      have hbox : σ.mailboxes a = box := congrArg SpecView.box hw
      have hmem : a ∈ σ.ready := by simpa [specView] using congrArg SpecView.ready hw
      refine ⟨{ h with views := fun b hb => ?_, clock := ?_ }, box, ?_, by simp, ?_, ?_, hmem,
        congrArg SpecView.observations hw, ?_⟩
      · have hba : b ≠ a := fun hba => hb (congrArg some hba.symm)
        have hother := hfilter b
        rw [if_neg hba] at hother
        convert h.views b (by simp) using 1
        simp only [view, View.mk.injEq] at hother ⊢
        exact ⟨rfl, trivial, trivial, trivial, rfl, hother.symm⟩
      · exact ⟨h.clock.deadline, h.clock.sorted, h.clock.all⟩
      · simp only [view, View.mk.injEq] at hv ⊢
        exact ⟨hv.1, hv.2.1, hv.2.2.1, hv.2.2.2.1, hv.2.2.2.2.1,
          (List.cons_inj_right _).mp hself.symm⟩
      · cases kinds a <;> simp [callCount]
      · rw [hpc, spawnPc_eq]
        rfl
      · rw [← hbox]
        exact .nothing (congrArg SpecView.pendingResult hw)

/-- The coroutine of the receive is resumed. -/
def resumed (s : Runtime (Msg I P) R) (r : ℕ) (ready : List Handle) : Runtime (Msg I P) R :=
  { s.updateReceive r fun w => { w with stage := .done } with
    ready := ready, stack := [.running (s.receives r).actor] }

omit [DecidableEq I] in
lemma changesCall_resumed {r : ℕ} {ready : List Handle} (hready : s.ready = .receive r :: ready)
    (hactor : (s.receives r).actor = a) :
    ChangesCall s (resumed s r ready) a r { s.receives r with stage := .done } where
  sched := rfl
  nextReceive := rfl
  actors _ _ := rfl
  receives := s.updateReceive_receives r fun w => { w with stage := .done }
  actor := hactor
  same := hactor
  ready b hb := by
    rw [hready, List.filter_cons_of_neg]
    · rfl
    · simp [handleActor, hactor, Ne.symm hb]

/-- An actor goes on with what it has waited for. -/
lemma Corresponds.resumeReceive {r : ℕ} {ready : List Handle}
    (h : Corresponds kinds timeoutDelay s σ none) (hready : s.ready = .receive r :: ready)
    (hactor : (s.receives r).actor = a) :
    Corresponds kinds timeoutDelay (resumed s r ready) σ (some a) ∧
      ∃ past x box, Running kinds (resumed s r ready) σ a past [(r, x)] box := by
  have hchanges := changesCall_resumed hready hactor
  have hself : (view s a).queued = .receive r :: ready.filter fun h => handleActor s h = a := by
    rw [view, hready]
    simp [handleActor, hactor]
  cases h.views a (by simp) with
  | absent hv hpc => simp [hv] at hself
  | blocked box past r' x hv hpast hcount hx hw => simp [hv] at hself
  | started box hv hw => simp [hv] at hself
  | ended box calls hv hpast hpc hobs => simp [hv] at hself
  | scheduled box past r' x o hv hpast hcount hx hw =>
      rw [hv] at hself
      simp only [List.cons.injEq, Handle.receive.injEq] at hself
      obtain ⟨rfl, hqueued⟩ := hself
      have hcalls : callsOf s a = past ++ [(r', x)] := congrArg View.calls hv
      obtain ⟨-, -, rfl⟩ := mem_callsOf.mp (hcalls ▸ (by simp) : (r', x) ∈ callsOf s a)
      have hpc : σ.pc a = pcAfter (kinds a) past.length := congrArg SpecView.pc hw
      have hbox : σ.mailboxes a = box := congrArg SpecView.box hw
      have hresult : σ.pendingResult a = pendingOf o := congrArg SpecView.pendingResult hw
      have hmem : a ∈ σ.ready := by simpa [specView] using congrArg SpecView.ready hw
      have hactive : ∀ r, ((resumed s r' ready).receives r).active = (s.receives r).active := by
        intro r
        rw [hchanges.receives]
        split_ifs with hr
        · rw [hr]
        · rfl
      refine ⟨{ h with views := fun b hb => ?_, clock := ?_ }, past,
        { s.receives r' with stage := .done }, box, ?_, ?_, hcount, hpc, hmem,
        congrArg SpecView.observations hw, ?_⟩
      · have hba : b ≠ a := fun hba => hb (congrArg some hba.symm)
        rw [hchanges.view_of_ne hba]
        exact h.views b (by simp)
      · refine h.clock.congr ?_ (fun r _ => hchanges.receives_actor r) rfl rfl
        simp only [armed, hactive]
        rfl
      · refine (hchanges.view_self hcalls).trans ?_
        have hmailbox : userMessages (s.actors a).mailbox = box := congrArg View.box hv
        have hpending : (s.actors a).pending = none := congrArg View.pending hv
        have hrest : (resumed s r' ready).ready.filter (fun h => handleActor s h = a) = [] :=
          hqueued.symm
        have hactors : (resumed s r' ready).actors = s.actors := rfl
        rw [hrest, hactors, hmailbox, hpending, hv]
      · intro p hp
        rcases List.mem_append.mp hp with hp | hp
        · exact hpast p hp
        · rw [List.mem_singleton.mp hp]
          exact ⟨rfl, hx.inactive, congrArg List.length hx.one⟩
      · have hobserved : observed [(r', { s.receives r' with stage := .done })] = [o] := by
          simp [observed, ← hx.one, observationsOf]
        rw [hobserved, ← hbox]
        cases o with
        | timeoutToken => exact .timedOut hresult
        | message msg =>
            have hping := kind_of_matchesPc (h.inv.matching a msg hresult)
            refine .one msg _ ?_ (by simp [hresult, pendingOf])
            simp [State.taken, hresult, pendingOf, hping]

/-! ### A coroutine runs until it suspends or ends -/

/-- No handle is one of a call that has not been made. -/
lemma Running.not_ready (h : Corresponds kinds timeoutDelay s σ (some a))
    (hrun : Running kinds s σ a past now box) : Handle.receive s.nextReceive ∉ s.ready := by
  intro hmem
  obtain ⟨b, hb⟩ : ∃ b, handleActor s (.receive s.nextReceive) = b := ⟨_, rfl⟩
  have hqueued : .receive s.nextReceive ∈ (view s b).queued :=
    List.mem_filter.mpr ⟨hmem, decide_eq_true hb⟩
  by_cases hba : b = a
  · rw [hba, hrun.self] at hqueued
    cases hqueued
  · cases h.views b (by simpa using Ne.symm hba) with
    | absent hv hpc => simp [hv] at hqueued
    | started box hv hw => simp [hv] at hqueued
    | blocked box past r x hv hpast hcount hx hw => simp [hv] at hqueued
    | ended box calls hv hpast hpc hobs => simp [hv] at hqueued
    | scheduled box past r x o hv hpast hcount hx hw =>
        simp only [hv, List.mem_singleton, Handle.receive.injEq] at hqueued
        have hcalls : callsOf s b = past ++ [(r, x)] := congrArg View.calls hv
        obtain ⟨hlt, -, -⟩ := mem_callsOf.mp (hcalls ▸ (by simp) : (r, x) ∈ callsOf s b)
        omega

omit [DecidableEq I] in
/-- The timers are those of calls that have been made. -/
lemma armed_newReceive {timers : List ℕ} (htimers : ∀ r ∈ timers, r < s.nextReceive)
    (hreceives : ∀ r, r ≠ s.nextReceive → t.receives r = s.receives r) :
    timers.filter (fun r => (t.receives r).active = some true) =
      timers.filter fun r => (s.receives r).active = some true :=
  List.filter_congr fun r hr => by rw [hreceives r (htimers r hr).ne]

section Suspended

omit [DecidableEq I]

variable (timed : Bool)

/-- The actor has called `receive` or `try_receive`, and is suspended in it. -/
def suspended (s : Runtime (Msg I P) R) (a : ActorRef) (timed : Bool) : Runtime (Msg I P) R :=
  { (s.newReceive a [acceptsPing] timed).awaitSuspend s.nextReceive with stack := [] }

lemma suspended_receives (r : ℕ) :
    (suspended s a timed).receives r =
      if r = s.nextReceive then
        { actor := a, visitors := [acceptsPing], timed := timed, stage := .waiting
          active := if timed then some true else none }
      else s.receives r := by
  by_cases hr : r = s.nextReceive
  · simp [suspended, Runtime.awaitSuspend, Runtime.newReceive, hr]
  · simp [suspended, Runtime.awaitSuspend, Runtime.newReceive, hr]

lemma suspended_actors (b : ActorRef) :
    (suspended s a timed).actors b =
      if b = a then { s.actors a with pending := some s.nextReceive } else s.actors b := by
  by_cases hb : b = a
  · simp [suspended, Runtime.awaitSuspend, Runtime.newReceive, hb]
  · simp [suspended, Runtime.awaitSuspend, Runtime.newReceive, hb]

lemma suspended_timers : (suspended s a timed).timers =
    if timed then s.timers ++ [s.nextReceive] else s.timers := by
  simp [suspended, Runtime.awaitSuspend, Runtime.newReceive]

lemma changesCall_suspended :
    ChangesCall (s.newReceive a [acceptsPing] timed) (suspended s a timed) a s.nextReceive
      ((suspended s a timed).receives s.nextReceive) where
  sched := rfl
  nextReceive := rfl
  actors b hb := by
    rw [suspended_actors, if_neg hb]
    rfl
  receives r := by
    by_cases hr : r = s.nextReceive
    · rw [hr, if_pos rfl]
    · rw [suspended_receives, if_neg hr, if_neg hr]
      simp [Runtime.newReceive, hr]
  actor := by simp [Runtime.newReceive]
  same := by rw [suspended_receives, if_pos rfl]
  ready _ _ := rfl

end Suspended

/-- The actor suspends. -/
lemma Corresponds.suspend (h : Corresponds kinds timeoutDelay s σ (some a))
    (hrun : Running kinds s σ a past now box) (hcount : (past ++ now).length < callCount (kinds a))
    (hno : tryMatchMailbox [acceptsPing] (s.actors a).mailbox = none) :
    ∃ τ, State.Next timeoutDelay σ τ ∧
      Corresponds kinds timeoutDelay (suspended s a (kinds a = .timeout)) τ none := by
  obtain rfl : userMessages (s.actors a).mailbox = box := congrArg View.box hrun.self
  obtain ⟨τ, hτ⟩ := hrun.suspends timeoutDelay h.inv hcount
    (firstMatch_of_none (pcAfter_live _ _) hno)
  have hnew := view_newReceive (a := a) [acceptsPing] (decide (kinds a = .timeout))
    (hrun.not_ready h)
  have hchanges := changesCall_suspended (s := s) (a := a) (decide (kinds a = .timeout))
  have hcall := suspended_receives (s := s) (a := a) (decide (kinds a = .timeout))
  have hactors := suspended_actors (s := s) (a := a) (decide (kinds a = .timeout))
  have htimers := suspended_timers (s := s) (a := a) (decide (kinds a = .timeout))
  refine ⟨τ, hτ.next, h.inv.next hτ.next, h.raising, h.refs, fun b _ => ?_, ?_, ?_, ?_, ?_,
    fun id hid => ?_⟩
  · refine h.views_of (fun b hb => ?_) hτ.other ?_ b
    · exact (hchanges.view_of_ne hb).trans ((hnew b).trans (if_neg hb))
    · refine .blocked (userMessages (s.actors a).mailbox) (past ++ now) s.nextReceive
        ((suspended s a (kinds a = .timeout)).receives s.nextReceive)
        ((hchanges.view_self (congrArg View.calls ((hnew a).trans (if_pos rfl)))).trans ?_)
        hrun.returned hcount ⟨?_, ?_, ?_, ?_⟩ hτ.self
      · have hself := (hnew a).trans (if_pos rfl)
        rw [hrun.self] at hself
        have hqueued : (suspended s a (kinds a = .timeout)).ready.filter (fun h => handleActor
            (s.newReceive a [acceptsPing] (decide (kinds a = .timeout))) h = a) = [] :=
          congrArg View.queued hself
        rw [hqueued, hself, hactors, if_pos rfl, hrun.self]
      · rw [hcall, if_pos rfl]
      · rw [hcall, if_pos rfl]
      · rw [hcall, if_pos rfl]
        simp
      · rw [hcall, if_pos rfl]
  · rw [htimers]
    intro r hr
    change r < s.nextReceive + 1
    split_ifs at hr with htimed
    · rcases List.mem_append.mp hr with hr | hr
      · exact Nat.lt_succ_of_lt (h.timers r hr)
      · rw [List.mem_singleton.mp hr]
        exact Nat.lt_succ_self _
    · exact Nat.lt_succ_of_lt (h.timers r hr)
  · have hold : s.timers.filter (fun r => ((suspended s a (kinds a = .timeout)).receives r).active =
        some true) = armed s := armed_newReceive h.timers fun r hr => by rw [hcall, if_neg hr]
    have hsame : ∀ r ∈ armed s, ((suspended s a (kinds a = .timeout)).receives r).actor =
        (s.receives r).actor := by
      intro r hr
      rw [hcall, if_neg (h.timers r (List.mem_of_mem_filter hr)).ne]
    -- a timed receive puts its timer behind those that are armed: every delay is the same
    by_cases htimed : kinds a = .timeout
    · refine h.clock.arm (a := a) (r := s.nextReceive) ?_ ?_ hsame (hrun.timers h.inv) ?_ hτ.time
      · rw [armed, htimers, if_pos (decide_eq_true htimed), List.filter_append, hold]
        simp [suspended_receives, htimed]
      · rw [hcall, if_pos rfl]
      · rw [hτ.timers, if_pos (decide_eq_true htimed)]
    · refine h.clock.congr ?_ hsame ?_ hτ.time
      · rw [armed, htimers, if_neg (by simpa using htimed), hold]
      · rw [hτ.timers, if_neg (by simpa using htimed)]
  · rw [hτ.links]
    exact h.links
  · rw [hτ.monitors]
    exact h.monitors
  · have henqueued : ∀ b, ((suspended s a (kinds a = .timeout)).actors b).enqueued =
        (s.actors b).enqueued := by
      intro b
      rw [hactors]
      split_ifs with hb
      · rw [hb]
      · rfl
    rw [alreadySent_congr (s := s) (t := suspended s a (kinds a = .timeout)) rfl henqueued]
    exact h.sent id (hτ.used id hid)

/-- What is left of the links when an actor has ended. -/
lemma mem_linksOf_collectAndErase {sched : SchedulerBase} {x y : ActorRef}
    (hsymm : ∀ z, a ∈ sched.linksOf z → z ∈ sched.linksOf a) :
    y ∈ (sched.collectAndErase a).linksOf x ↔ y ∈ sched.linksOf x ∧ x ≠ a ∧ y ≠ a := by
  rw [SchedulerBase.linksOf_collectAndErase]
  by_cases hx : x = a
  · simp [hx]
  · by_cases hmem : x ∈ sched.linksOf a
    · simp [hx, hmem]
    · have hne : y ∈ sched.linksOf x → y ≠ a := by
        rintro hy rfl
        exact hmem (hsymm x hy)
      simp only [hx, hmem, if_false, ne_eq, not_false_eq_true, true_and]
      exact ⟨fun hy => ⟨hy, hne hy⟩, fun hy => hy.1⟩

/-- The coroutine of the actor ends. -/
lemma Corresponds.finish (h : Corresponds kinds timeoutDelay s σ (some a))
    (hrun : Running kinds s σ a past now box)
    (hcount : callCount (kinds a) ≤ (past ++ now).length) (rest : List Frame)
    (reason : ExitReason) :
    ∃ τ, State.Next timeoutDelay σ τ ∧
      Corresponds kinds timeoutDelay (s.beginExit a rest reason) τ none := by
  obtain ⟨state, left, hnext, hused⟩ := hrun.finishes timeoutDelay h.inv hcount
  have hregistered : ∀ b, (s.beginExit a rest reason).registered b =
      (decide (b ≠ a) && s.registered b) := fun b => OrdMap.contains_erase _ _ _
  have hsymm : ∀ z, a ∈ s.sched.linksOf z → z ∈ s.sched.linksOf a := fun z hz =>
    (h.links a z).mp (h.inv.linked z a ((h.links z a).mpr hz)).1
  refine ⟨_, hnext, h.inv.next hnext, h.raising, h.refs, fun b _ => ?_, h.timers, ?_, ?_, ?_, ?_⟩
  · refine h.views_of (fun b hb => ?_) (fun b hb => ?_) ?_ b
    · simp only [view, hregistered]
      simp only [hb, ne_eq, not_false_eq_true, decide_true, Bool.true_and]
      rfl
    · simp [specView, State.finish, State.completeActor, hb]
    · refine .ended box (past ++ now) ?_ hrun.returned ?_ ?_
      · have hself := hrun.self
        simp only [view, View.mk.injEq] at hself ⊢
        refine ⟨?_, hself.2⟩
        rw [hregistered]
        simp
      · simp [specView, State.finish]
      · rw [observed_append]
        simp [specView, State.finish, hrun.observations]
  · refine h.clock.congr rfl (fun _ _ => rfl) ?_ rfl
    have hnone := hrun.timers h.inv
    simp [State.finish, ← hnone]
  · intro x y
    refine Iff.trans ?_ (mem_linksOf_collectAndErase hsymm).symm
    simp [State.finish, State.completeActor, h.links]
  · intro x y
    refine Iff.trans ?_ (by rw [Runtime.beginExit, SchedulerBase.monitorsOf_collectAndErase])
    by_cases hy : y = a
    · simp [State.finish, State.completeActor, hy]
    · simp [State.finish, State.completeActor, hy, h.monitors]
  · intro id hid
    exact h.sent id (hused id hid)

section Matched

omit [DecidableEq I]

variable (timed : Bool) (position : ℕ) (e : Envelope (Msg I P)) (value : R)

/-- The actor has taken a message out of its mailbox, and goes on. -/
def matched (s : Runtime (Msg I P) R) (a : ActorRef) (timed : Bool) (position : ℕ)
    (e : Envelope (Msg I P)) (value : R) : Runtime (Msg I P) R :=
  Runtime.visitorReturned
    { s.newReceive a [acceptsPing] timed with
      stack := .visiting s.nextReceive position false :: s.stack }
    s.stack s.nextReceive position false e value

lemma matched_receives (r : ℕ) :
    (matched s a timed position e value).receives r =
      if r = s.nextReceive then
        { actor := a, visitors := [acceptsPing], timed := timed, storage := some value
          stage := .done
          outcomes := [.message e ([acceptsPing].findIdx fun visitor => visitor e.body)] }
      else s.receives r := by
  by_cases hr : r = s.nextReceive
  · simp [matched, Runtime.visitorReturned, Runtime.completeMatch, Runtime.newReceive, hr]
  · simp [matched, Runtime.visitorReturned, Runtime.completeMatch, Runtime.newReceive, hr]

lemma matched_actors (b : ActorRef) :
    (matched s a timed position e value).actors b =
      if b = a then
        { s.actors a with
          mailbox := (s.actors a).mailbox.eraseIdx position
          consumed := (s.actors a).consumed ++ [(e, s.nextReceive)] }
      else s.actors b := by
  by_cases hb : b = a
  · simp [matched, Runtime.visitorReturned, Runtime.completeMatch, Runtime.newReceive, hb]
  · simp [matched, Runtime.visitorReturned, Runtime.completeMatch, Runtime.newReceive, hb]

lemma changesCall_matched :
    ChangesCall (s.newReceive a [acceptsPing] timed) (matched s a timed position e value) a
      s.nextReceive ((matched s a timed position e value).receives s.nextReceive) where
  sched := rfl
  nextReceive := rfl
  actors b hb := by
    rw [matched_actors, if_neg hb]
    rfl
  receives r := by
    by_cases hr : r = s.nextReceive
    · rw [hr, if_pos rfl]
    · rw [matched_receives, if_neg hr, if_neg hr]
      simp [Runtime.newReceive, hr]
  actor := by simp [Runtime.newReceive]
  same := by rw [matched_receives, if_pos rfl]
  ready _ _ := rfl

end Matched

omit [DecidableEq I] in
/-- What the actor has observed when it takes one more message. -/
lemma Progress.more {obs : List (Observation I P)} {msg : Msg I P} {rest : List (Msg I P)}
    {kind : SpawnKind} {n : ℕ} (h : Progress σ a obs box) (hinv : σ.Inv)
    (hpc : σ.pc a = pcAfter kind n) (hcount : n + obs.length < callCount kind)
    (hfirst : firstMatch (pcAfter kind (n + obs.length)) box = some (msg, rest)) :
    Progress σ a (obs ++ [.message msg]) rest := by
  cases h with
  | nothing hpending =>
      refine .one msg rest ?_ (by simp [hpending])
      rw [State.taken, hpending, hpc]
      exact hfirst
  | timedOut hpending =>
      have htimeout : kind = .timeout := pcAfter_eq_trying.mp (hpc ▸ hinv.timeout a hpending)
      rw [htimeout, callCount, List.length_singleton] at hcount
      omega
  | one msg1 _ htaken hpending =>
      rw [List.length_singleton] at hcount hfirst
      cases kind with
      | collector | timeout =>
          rw [callCount] at hcount
          omega
      | sequence =>
          rw [callCount] at hcount
          have hn : n = 0 := by omega
          rw [hn] at hpc hfirst
          exact .two msg1 msg box rest htaken hpc hfirst
  | two msg1 msg2 box1 _ htaken hseq hsecond =>
      have hle : callCount kind ≤ 2 := by cases kind <;> simp [callCount]
      rw [List.length_cons, List.length_singleton] at hcount
      omega

/-- The visitor has returned: the actor goes on with its coroutine. -/
lemma Corresponds.goOn {position : ℕ} {e : Envelope (Msg I P)} (value : R)
    (h : Corresponds kinds timeoutDelay s σ (some a))
    (hrun : Running kinds s σ a past now box) (hcount : (past ++ now).length < callCount (kinds a))
    (hposition : tryMatchMailbox [acceptsPing] (s.actors a).mailbox = some position)
    (he : (s.actors a).mailbox[position]? = some e) :
    Corresponds kinds timeoutDelay (matched s a (kinds a = .timeout) position e value) σ (some a) ∧
      ∃ x box', Running kinds (matched s a (kinds a = .timeout) position e value) σ a past
        (now ++ [(s.nextReceive, x)]) box' := by
  obtain rfl : userMessages (s.actors a).mailbox = box := congrArg View.box hrun.self
  have hnew := view_newReceive (a := a) [acceptsPing] (decide (kinds a = .timeout))
    (hrun.not_ready h)
  have hchanges := changesCall_matched (s := s) (a := a) (decide (kinds a = .timeout)) position e
    value
  have hcall := matched_receives (s := s) (a := a) (decide (kinds a = .timeout)) position e value
  have hactors := matched_actors (s := s) (a := a) (decide (kinds a = .timeout)) position e value
  obtain ⟨e', msg, he', hbody, hfirst⟩ :=
    firstMatch_of_some (pcAfter_live (kinds a) (past ++ now).length) hposition
  obtain rfl : e = e' := Option.some.inj (he.symm.trans he')
  have hone : observationsOf ((matched s a (kinds a = .timeout) position e value).receives
      s.nextReceive) = [.message msg] := by
    rw [hcall, if_pos rfl]
    simp [observationsOf, observation, hbody]
  refine ⟨⟨h.inv, h.raising, h.refs, fun b hb => ?_, fun r hr => ?_, ?_, h.links, h.monitors,
    fun id hid => ?_⟩, (matched s a (kinds a = .timeout) position e value).receives s.nextReceive,
    userMessages ((s.actors a).mailbox.eraseIdx position), ?_, ?_, hrun.count, hrun.pc, hrun.ready,
    hrun.observations, ?_⟩
  · have hba : b ≠ a := fun hba => hb (congrArg some hba.symm)
    rw [(hchanges.view_of_ne hba).trans ((hnew b).trans (if_neg hba))]
    exact h.views b hb
  · exact Nat.lt_succ_of_lt (h.timers r hr)
  · refine h.clock.congr (armed_newReceive h.timers fun r hr => by rw [hcall, if_neg hr])
      (fun r hr => ?_) rfl rfl
    rw [hcall, if_neg (h.timers r (List.mem_of_mem_filter hr)).ne]
  · have henqueued : ∀ b, ((matched s a (kinds a = .timeout) position e value).actors b).enqueued =
        (s.actors b).enqueued := by
      intro b
      rw [hactors]
      split_ifs with hb
      · rw [hb]
      · rfl
    rw [alreadySent_congr (s := s) (t := matched s a (kinds a = .timeout) position e value) rfl
      henqueued]
    exact h.sent id hid
  · have hself := (hnew a).trans (if_pos rfl)
    rw [hrun.self] at hself
    have hqueued : (matched s a (kinds a = .timeout) position e value).ready.filter
        (fun h => handleActor (s.newReceive a [acceptsPing] (decide (kinds a = .timeout))) h = a) =
          [] := congrArg View.queued hself
    have hpending : (s.actors a).pending = none := congrArg View.pending hrun.self
    refine (hchanges.view_self (congrArg View.calls ((hnew a).trans (if_pos rfl)))).trans ?_
    rw [hqueued, hself, hactors, if_pos rfl, hrun.self, List.append_assoc]
    simp [hpending]
  · rw [← List.append_assoc]
    intro p hp
    rcases List.mem_append.mp hp with hp | hp
    · exact hrun.returned p hp
    · rw [List.mem_singleton.mp hp]
      refine ⟨?_, ?_, by rw [hone]; rfl⟩
      · rw [hcall, if_pos rfl]
      · rw [hcall, if_pos rfl]
        simp
  · have hlength := length_observed fun p hp => hrun.returned p (List.mem_append_right past hp)
    rw [List.length_append, ← hlength] at hcount hfirst
    have hmore := hrun.progress.more h.inv hrun.pc hcount hfirst
    rw [observed_append]
    simpa [observed, hone] using hmore

/-! ### Steps -/

/-- No code is running. -/
lemma Rel.of_stack_nil (h : Rel kinds timeoutDelay s σ) (hstack : s.stack = []) :
    Corresponds kinds timeoutDelay s σ none := by
  cases h with
  | settled _ h => exact h
  | exiting a signals hs h => simp [hs] at hstack
  | delivering s' target msg r hs' h hsent hpending hping hs => simp [hs, deliver] at hstack
  | expiring s' r timers hs' h htimers hactive hs =>
      simp [hs, Runtime.fireTimer, hactive] at hstack
  | running a past now box hs h hrun => simp [hs] at hstack
  | visiting s' a past now box hs' h hrun hcount position hposition hs =>
      simp [hs, Runtime.beginReceive, hposition] at hstack

/-- The coroutine of an actor is running. -/
lemma Rel.of_running {rest : List Frame} (h : Rel kinds timeoutDelay s σ)
    (hstack : s.stack = .running a :: rest) :
    rest = [] ∧ Corresponds kinds timeoutDelay s σ (some a) ∧
      ∃ past now box, Running kinds s σ a past now box := by
  cases h with
  | settled hs h => simp [hs] at hstack
  | exiting a signals hs h => simp [hs] at hstack
  | delivering s' target msg r hs' h hsent hpending hping hs => simp [hs, deliver] at hstack
  | expiring s' r timers hs' h htimers hactive hs =>
      simp [hs, Runtime.fireTimer, hactive] at hstack
  | running a' past now box hs h hrun =>
      rw [hs] at hstack
      simp only [List.cons.injEq, Frame.running.injEq] at hstack
      obtain ⟨rfl, rfl⟩ := hstack
      exact ⟨rfl, h, past, now, box, hrun⟩
  | visiting s' a past now box hs' h hrun hcount position hposition hs =>
      simp [hs, Runtime.beginReceive, hposition] at hstack

/-- What the specification can do while the runtime takes one step. -/
def Matched (kinds : ActorRef → SpawnKind) (timeoutDelay : ℕ) (t : Runtime (Msg I P) R)
    (σ : State ActorRef I P) : Prop :=
  ∃ τ, Relation.ReflTransGen (State.Next timeoutDelay) σ τ ∧ Rel kinds timeoutDelay t τ

/-- The specification stays where it is. -/
lemma Matched.stay (h : Rel kinds timeoutDelay t σ) : Matched kinds timeoutDelay t σ :=
  ⟨σ, .refl, h⟩

lemma Matched.next (hnext : State.Next timeoutDelay σ τ) (h : Rel kinds timeoutDelay t τ) :
    Matched kinds timeoutDelay t σ := ⟨τ, .single hnext, h⟩

/-- The reference that is handed out next is that of no actor. -/
lemma Corresponds.absent (h : Corresponds kinds timeoutDelay s σ none) :
    σ.pc s.sched.nextActorId = .absent :=
  ((h.views s.sched.nextActorId (by simp)).of_fresh (by simp [view])).2

section Settled

variable (h : Corresponds kinds timeoutDelay s σ none) (hstack : s.stack = [])

include h hstack

lemma matched_spawn (ht : s.Moves (.spawn 0 0) t) : Matched kinds timeoutDelay t σ := by
  cases ht with
  | spawn _ _ huser =>
      refine .next (.spawn s.sched.nextActorId (kinds s.sched.nextActorId) h.absent)
        (.settled hstack ?_)
      exact h.spawn σ.links σ.monitors (h.inv.spawn h.absent)
        (fun x y => by simp) (fun x y => by simp)

lemma matched_spawnLink (hlinker : s.registered a = true) (ht : s.Moves (.spawn a 0) t) :
    Matched kinds timeoutDelay t σ := by
  obtain ⟨hlt, hne⟩ := h.lt hlinker
  have hnext : State.Next timeoutDelay σ ((σ.spawn s.sched.nextActorId
      (kinds s.sched.nextActorId)).link a s.sched.nextActorId) :=
    .spawnLink a _ _ h.absent ((h.live a).mpr hlinker) hlt.ne
  cases ht with
  | spawn _ _ huser =>
      refine .next hnext (.settled hstack ?_)
      refine h.spawn _ _ (h.inv.next hnext) (fun x y => ?_) (fun x y => by simp [State.spawn])
      simp only [State.spawn, Finset.mem_insert, Prod.mk.injEq]
      tauto

lemma matched_spawnMonitor (hwatcher : s.registered a = true) (ht : s.Moves (.spawn 0 a) t) :
    Matched kinds timeoutDelay t σ := by
  obtain ⟨hlt, hne⟩ := h.lt hwatcher
  have hnext : State.Next timeoutDelay σ ((σ.spawn s.sched.nextActorId
      (kinds s.sched.nextActorId)).setMonitor a s.sched.nextActorId) :=
    .spawnMonitor a _ _ h.absent ((h.live a).mpr hwatcher) hlt.ne
  cases ht with
  | spawn _ _ huser =>
      refine .next hnext (.settled hstack ?_)
      refine h.spawn _ _ (h.inv.next hnext) (fun x y => by simp [State.spawn]) (fun x y => ?_)
      simp only [State.spawn, Finset.mem_insert, Prod.mk.injEq]
      tauto

lemma matched_link (ha : s.registered a = true) (hb : s.registered b = true) (hne : a ≠ b)
    (ht : s.step (.link a b) = some t) : Matched kinds timeoutDelay t σ := by
  have hlink : ∃ sched, s.sched.link a b = some sched := by
    rw [Runtime.registered] at ha hb
    exact ⟨_, if_pos (by rw [ha, hb]; rfl)⟩
  obtain ⟨sched, hlink⟩ := hlink
  have hnow := h.link hlink ha hb
  simp only [Runtime.step, hlink, Option.ite_none_right_eq_some, Option.some.injEq] at ht
  obtain ⟨-, rfl⟩ := ht
  by_cases hnew : (a, b) ∈ σ.links
  · have hsame : σ.link a b = σ := by
      rw [State.link, Finset.insert_eq_of_mem (h.inv.linked a b hnew).1,
        Finset.insert_eq_of_mem hnew]
    rw [hsame] at hnow
    exact .stay (.settled hstack hnow)
  · exact .next (.link a b ((h.live a).mpr ha) ((h.live b).mpr hb) hne hnew)
      (.settled hstack hnow)

lemma matched_monitor (ha : s.registered a = true) (hb : s.registered b = true) (hne : a ≠ b)
    (ht : s.step (.monitor a b) = some t) : Matched kinds timeoutDelay t σ := by
  have hmonitor : ∃ sched, s.sched.monitor a b = some sched := by
    rw [Runtime.registered] at ha hb
    exact ⟨_, if_pos (by rw [ha, hb]; rfl)⟩
  obtain ⟨sched, hmonitor⟩ := hmonitor
  have hnow := h.monitor hmonitor
  simp only [Runtime.step, hmonitor, Option.ite_none_right_eq_some, Option.some.injEq] at ht
  obtain ⟨-, rfl⟩ := ht
  by_cases hnew : (a, b) ∈ σ.monitors
  · have hsame : σ.setMonitor a b = σ := by rw [State.setMonitor, Finset.insert_eq_of_mem hnew]
    rw [hsame] at hnow
    exact .stay (.settled hstack hnow)
  · exact .next (.setMonitor a b ((h.live a).mpr ha) ((h.live b).mpr hb) hne hnew)
      (.settled hstack hnow)

omit hstack in
/-- An actor that is registered and has no pending receive is going to run. -/
lemma ready_of_pending (hregistered : s.registered a = true)
    (hpending : (s.actors a).pending = none) : a ∈ σ.ready := by
  have hview : (view s a).pending = none := hpending
  have hreg : (view s a).registered = true := hregistered
  cases h.views a (by simp) with
  | absent hv hpc => simp [hv] at hreg
  | started box hv hw => simpa [specView] using congrArg SpecView.ready hw
  | blocked box past r x hv hpast hcount hx hw => simp [hv] at hview
  | scheduled box past r x o hv hpast hcount hx hw =>
      simpa [specView] using congrArg SpecView.ready hw
  | ended box calls hv hpast hpc hobs => simp [hv] at hreg

lemma matched_send {msg : Msg I P} (hsent : alreadySent s msg.id = false)
    (ht : s.Moves (.send a msg) t) : Matched kinds timeoutDelay t σ := by
  cases ht with
  | send _ _ huser =>
      by_cases hregistered : s.registered a = true
      · have hsend : s.send a (.user msg) = s.enqueueMessage a (.user msg) := if_pos hregistered
        rw [hsend]
        rcases h.enqueue a (.user msg) with ⟨heq, hno⟩ | ⟨r, hpending, hping, heq⟩
        · rw [heq]
          refine .next (.send a msg (h.unused hsent) ((h.live a).mpr hregistered))
            (.settled hstack (h.pushUser hregistered hsent ?_))
          refine hno.imp (ready_of_pending h hregistered) fun hping => ?_
          cases hm : matchesPc (σ.pc a) msg with
          | false => rfl
          | true => simp [acceptsPing, kind_of_matchesPc hm] at hping
        · exact .stay (.delivering s a msg r hstack h hsent hpending hping heq)
      · have hsend : s.send a (.user msg) = s := if_neg hregistered
        rw [hsend]
        exact .stay (.settled hstack h)

omit hstack in
lemma matched_resume (ht : s.Moves .resume t) : Matched kinds timeoutDelay t σ := by
  cases ht with
  | resumeStart a ready hraise _ hready =>
      obtain ⟨hnow, box, hrun⟩ := h.resumeStart hready
      exact .stay (.running a [] [] box rfl hnow hrun)
  | resumeReceive r ready hraise _ hready hsuspended =>
      obtain ⟨hnow, past, x, box, hrun⟩ := h.resumeReceive hready rfl
      exact .stay (.running _ past _ box rfl hnow hrun)

lemma matched_fire {r : ℕ} {timers : List ℕ} (htimers : s.timers = r :: timers)
    (ht : s.Moves (.fire r) t) : Matched kinds timeoutDelay t σ := by
  cases ht with
  | fire _ hraise _ htimer =>
      by_cases hactive : (s.receives r).active = some true
      · exact .stay (.expiring s r timers hstack h htimers hactive rfl)
      · have hfire : s.fireTimer r = { s with timers := timers } := by
          rw [Runtime.fireTimer, htimers, List.erase_cons_head, if_neg hactive]
        rw [hfire]
        refine .stay (.settled hstack { h with
          views := h.views, timers := fun r' hr' => ?_, clock := ?_ })
        · exact h.timers r' (htimers ▸ List.mem_cons_of_mem r hr')
        · refine h.clock.congr ?_ (fun _ _ => rfl) rfl rfl
          rw [armed, armed, htimers]
          exact (List.filter_cons_of_neg (by simpa using hactive)).symm

end Settled

/-- The coroutine that runs makes a call. -/
lemma matched_receive (hstack : s.stack = [.running a])
    (h : Corresponds kinds timeoutDelay s σ (some a)) (hrun : Running kinds s σ a past now box)
    (hcount : (past ++ now).length < callCount (kinds a)) :
    Matched kinds timeoutDelay (s.beginReceive a [] [acceptsPing] (kinds a = .timeout)) σ := by
  cases hmailbox : tryMatchMailbox [acceptsPing] (s.actors a).mailbox with
  | some position =>
      exact .stay (.visiting s a past now box hstack h hrun hcount position hmailbox rfl)
  | none =>
      obtain ⟨τ, hnext, hnow⟩ := h.suspend hrun hcount hmailbox
      have hbegin : s.beginReceive a [] [acceptsPing] (kinds a = .timeout) =
          suspended s a (kinds a = .timeout) := by rw [Runtime.beginReceive, hmailbox]; rfl
      rw [hbegin]
      exact .next hnext (.settled rfl hnow)

/-- The coroutine that runs goes on. -/
lemma matched_go (hstack : s.stack = [.running a])
    (h : Corresponds kinds timeoutDelay s σ (some a)) (hrun : Running kinds s σ a past now box)
    (ht : (if (callsOf s a).length < callCount (kinds a) then
      s.step (.receive [acceptsPing] (kinds a = .timeout)) else s.step .finish) = some t) :
    Matched kinds timeoutDelay t σ := by
  have hcalls : callsOf s a = past ++ now := congrArg View.calls hrun.self
  rw [hcalls] at ht
  split_ifs at ht with hcount
  · cases Runtime.moves_of_step ht with
    | receive _ _ a' rest hraise hstack' =>
        rw [hstack] at hstack'
        cases hstack'
        exact matched_receive hstack h hrun hcount
  · cases Runtime.moves_of_step ht with
    | finish a' rest hraise hstack' =>
        rw [hstack] at hstack'
        cases hstack'
        obtain ⟨τ, hnext, hnow⟩ := h.finish hrun (not_lt.mp hcount) []
          ((s.actors a).exitReason.getD .normal)
        exact .next hnext (.exiting a _ rfl hnow)

lemma matched_visitorReturn {value : R} (h : Rel kinds timeoutDelay s σ)
    (ht : s.Moves (.visitorReturn value) t) : Matched kinds timeoutDelay t σ := by
  cases ht with
  | visitorReturn _ r position delivered rest e hraise hstack he =>
      cases h with
      | settled hs h => simp [hs] at hstack
      | exiting a signals hs h => simp [hs] at hstack
      | expiring s' r timers hs' h htimers hactive hs =>
          simp [hs, Runtime.fireTimer, hactive] at hstack
      | running a past now box hs h hrun => simp [hs] at hstack
      | delivering s' target msg r' hs' h hsent hpending hping hs =>
          have hframe : s.stack = [.visiting r' (s'.actors target).mailbox.length true] := by
            rw [hs, deliver, hs']
          rw [hframe] at hstack
          cases hstack
          obtain ⟨-, -, -, -, -, -, -, hactor⟩ := h.blocked hpending
          have hbody : e.body = .user msg := by
            have hactor' : (s.receives r).actor = target := by
              simpa [hs, deliver, Runtime.pushMessage] using hactor
            have hmailbox : (s.actors target).mailbox = (s'.actors target).mailbox ++
                [⟨(s'.actors target).enqueued.length, .user msg⟩] := by
              simp [hs, deliver, Runtime.pushMessage]
            rw [hactor', hmailbox, List.getElem?_concat_length] at he
            cases he
            rfl
          obtain ⟨hnow, hnext⟩ := h.resumedByMessage hsent hpending hping hbody value
          subst hs
          exact .next hnext (.settled rfl hnow)
      | visiting s' a past now box hs' h hrun hcount position' hposition hs =>
          have hframe : s = { s'.newReceive a [acceptsPing] (kinds a = .timeout) with
              stack := .visiting s'.nextReceive position' false :: s'.stack } := by
            rw [hs, Runtime.beginReceive, hposition]
          subst hframe
          rw [hs'] at hstack
          cases hstack
          have hmailbox : (s'.actors a).mailbox[position]? = some e := by
            simpa [Runtime.newReceive] using he
          obtain ⟨hnow, x, box', hrun'⟩ := Corresponds.goOn value h hrun hcount hposition hmailbox
          have hmatched : Runtime.visitorReturned
              { s'.newReceive a [acceptsPing] (kinds a = .timeout) with
                stack := .visiting s'.nextReceive position false :: s'.stack }
              [.running a] s'.nextReceive position false e value =
                matched s' a (kinds a = .timeout) position e value := by rw [matched, hs']
          rw [hmatched]
          exact .stay (.running a past _ box' hs' hnow hrun')

lemma matched_timeoutReturn {value : R} (h : Rel kinds timeoutDelay s σ)
    (ht : s.Moves (.timeoutReturn value) t) : Matched kinds timeoutDelay t σ := by
  cases ht with
  | timeoutReturn _ r rest hraise hstack =>
      cases h with
      | settled hs h => simp [hs] at hstack
      | exiting a signals hs h => simp [hs] at hstack
      | running a past now box hs h hrun => simp [hs] at hstack
      | delivering s' target msg r' hs' h hsent hpending hping hs => simp [hs, deliver] at hstack
      | visiting s' a past now box hs' h hrun hcount position hposition hs =>
          simp [hs, Runtime.beginReceive, hposition] at hstack
      | expiring s' r' timers hs' h htimers hactive hs =>
          have hframe : s.stack = [.expiring r'] := by
            rw [hs, Runtime.fireTimer, if_pos hactive, hs']
          rw [hframe] at hstack
          cases hstack
          obtain ⟨τ, hnext, hnow⟩ := h.resumedByTimeout htimers hactive value
          rw [hs]
          exact ⟨τ, hnext, .settled rfl hnow⟩

lemma matched_signal (h : Rel kinds timeoutDelay s σ) (ht : s.Moves .signal t) :
    Matched kinds timeoutDelay t σ := by
  obtain ⟨a, signals, rest, hstack⟩ : ∃ a signals rest, s.stack = .exiting a signals :: rest := by
    cases ht with
    | signalled a rest hraise hstack => exact ⟨a, [], rest, hstack⟩
    | signal a target sg signals rest hraise hstack => exact ⟨a, _, rest, hstack⟩
  cases h with
  | settled hs h => simp [hs] at hstack
  | delivering s' target msg r' hs' h hsent hpending hping hs => simp [hs, deliver] at hstack
  | expiring s' r timers hs' h htimers hactive hs =>
      simp [hs, Runtime.fireTimer, hactive] at hstack
  | running a past now box hs h hrun => simp [hs] at hstack
  | visiting s' a past now box hs' h hrun hcount position hposition hs =>
      simp [hs, Runtime.beginReceive, hposition] at hstack
  | exiting a' signals' hs h =>
      cases ht with
      | signalled _ rest' hraise hstack' =>
          rw [hs] at hstack'
          cases hstack'
          exact .stay (.settled rfl h.of_stack)
      | signal _ target sg signals'' rest' hraise hstack' =>
          rw [hs] at hstack'
          cases hstack'
          have hnow : Corresponds kinds timeoutDelay
              { s with stack := [.exiting a' signals''] } σ none := h.of_stack
          obtain ⟨hsent, hstack'⟩ := hnow.sendSignal target sg
          exact .stay (.exiting a' signals'' hstack' hsent)

/-- **Simulation**: the specification can follow each step of the runtime. -/
lemma Rel.step {act : Act I P R} (h : Rel kinds timeoutDelay s σ)
    (hstep : step kinds s act = some t) : Matched kinds timeoutDelay t σ := by
  cases act with
  | spawn =>
      simp only [Projection.step, Option.ite_none_right_eq_some, List.isEmpty_iff] at hstep
      obtain ⟨hstack, hstep⟩ := hstep
      exact matched_spawn (h.of_stack_nil hstack) hstack (Runtime.moves_of_step hstep)
  | spawnLink linker =>
      simp only [Projection.step, Option.ite_none_right_eq_some, Bool.and_eq_true,
        List.isEmpty_iff] at hstep
      obtain ⟨⟨hstack, hlinker⟩, hstep⟩ := hstep
      exact matched_spawnLink (h.of_stack_nil hstack) hstack hlinker (Runtime.moves_of_step hstep)
  | spawnMonitor watcher =>
      simp only [Projection.step, Option.ite_none_right_eq_some, Bool.and_eq_true,
        List.isEmpty_iff] at hstep
      obtain ⟨⟨hstack, hwatcher⟩, hstep⟩ := hstep
      exact matched_spawnMonitor (h.of_stack_nil hstack) hstack hwatcher
        (Runtime.moves_of_step hstep)
  | link left right =>
      simp only [Projection.step, Option.ite_none_right_eq_some, Bool.and_eq_true,
        List.isEmpty_iff, bne_iff_ne] at hstep
      obtain ⟨⟨⟨⟨hstack, hleft⟩, hright⟩, hne⟩, hstep⟩ := hstep
      exact matched_link (h.of_stack_nil hstack) hstack hleft hright hne hstep
  | monitor watcher target =>
      simp only [Projection.step, Option.ite_none_right_eq_some, Bool.and_eq_true,
        List.isEmpty_iff, bne_iff_ne] at hstep
      obtain ⟨⟨⟨⟨hstack, hwatcher⟩, htarget⟩, hne⟩, hstep⟩ := hstep
      exact matched_monitor (h.of_stack_nil hstack) hstack hwatcher htarget hne hstep
  | send target msg =>
      simp only [Projection.step, Option.ite_none_right_eq_some, Bool.and_eq_true,
        List.isEmpty_iff, Bool.not_eq_true'] at hstep
      obtain ⟨⟨hstack, hsent⟩, hstep⟩ := hstep
      exact matched_send (h.of_stack_nil hstack) hstack hsent (Runtime.moves_of_step hstep)
  | go =>
      simp only [Projection.step] at hstep
      split at hstep
      · rename_i a rest hstack
        obtain ⟨rfl, hnow, past, now, box, hrun⟩ := h.of_running hstack
        exact matched_go hstack hnow hrun hstep
      · cases hstep
  | visitorReturn value => exact matched_visitorReturn h (Runtime.moves_of_step hstep)
  | timeoutReturn value => exact matched_timeoutReturn h (Runtime.moves_of_step hstep)
  | signal => exact matched_signal h (Runtime.moves_of_step hstep)
  | resume =>
      have ht : s.Moves .resume t := Runtime.moves_of_step hstep
      have hstack : s.stack = [] := by cases ht <;> assumption
      exact matched_resume (h.of_stack_nil hstack) ht
  | fire =>
      simp only [Projection.step] at hstep
      split at hstep
      · rename_i r timers htimers
        have ht := Runtime.moves_of_step hstep
        have hstack : s.stack = [] := by cases ht; assumption
        exact matched_fire (h.of_stack_nil hstack) hstack htimers ht
      · cases hstep

/-! ### Runs -/

/-- What the variables of the specification are in a state of the runtime in which no code is
running. -/
structure Agrees (kinds : ActorRef → SpawnKind) (s : Runtime (Msg I P) R)
    (σ : State ActorRef I P) : Prop where
  live : ∀ a, a ∈ σ.live ↔ s.registered a = true
  kind : ∀ a ∈ σ.live, σ.kind a = some (kinds a)
  /-- A handle of the actor is in the ready queue. -/
  ready : ∀ a, a ∈ σ.ready ↔ ∃ h ∈ s.ready, handleActor s h = a
  mailboxes : ∀ a ∈ σ.live, σ.mailboxes a = userMessages (s.actors a).mailbox
  /-- What the receives have led to that the coroutine has returned from. -/
  observations : ∀ a, σ.observations a =
    observed ((callsOf s a).filter fun p => p.2.stage = .done)
  /-- What the receive has led to that the coroutine is going to return from. -/
  pendingResult : ∀ a, σ.pendingResult a =
    ((observed ((callsOf s a).filter fun p => p.2.stage = .scheduled)).head?.map pendingOf).getD
      .noPending
  timers : ∀ a, σ.timers a ≠ none ↔
    ∃ r ∈ s.timers, (s.receives r).active = some true ∧ (s.receives r).actor = a
  links : ∀ a b, (a, b) ∈ σ.links ↔ b ∈ s.sched.linksOf a
  monitors : ∀ a b, (a, b) ∈ σ.monitors ↔ a ∈ s.sched.monitorsOf b

section Agrees

omit [DecidableEq I]

lemma filter_done {calls : List (ℕ × ReceiveAwaiter (Msg I P) R)} (h : ∀ p ∈ calls, Returned p.2) :
    calls.filter (fun p => p.2.stage = .done) = calls ∧
      calls.filter (fun p => p.2.stage = .scheduled) = [] := by
  refine ⟨List.filter_eq_self.mpr fun p hp => ?_, List.filter_eq_nil_iff.mpr fun p hp => ?_⟩
  · simp [(h p hp).stage]
  · simp [(h p hp).stage]

/-- The calls of an actor tell what it has observed, and what it is resumed with. -/
lemma At.observations {kind : SpawnKind} (hinv : σ.Inv) (h : At kind a (view s a) (specView σ a)) :
    σ.observations a = observed ((callsOf s a).filter fun p => p.2.stage = .done) ∧
      σ.pendingResult a =
        ((observed ((callsOf s a).filter fun p => p.2.stage = .scheduled)).head?.map
          pendingOf).getD .noPending := by
  have hresult : σ.pc a = .absent ∨ σ.pc a = .done → σ.pendingResult a = .noPending := by
    intro hpc
    by_contra hc
    have hlive := (hinv.live a).mp (hinv.ready (hinv.pending a hc))
    exact hpc.elim hlive.1 hlive.2
  cases h with
  | absent hv hpc =>
      have hcalls : callsOf s a = [] := congrArg View.calls hv
      rw [hcalls]
      exact ⟨(hinv.absent a hpc).2.1, hresult (Or.inl hpc)⟩
  | started box hv hw =>
      have hcalls : callsOf s a = [] := congrArg View.calls hv
      rw [hcalls]
      exact ⟨congrArg SpecView.observations hw, congrArg SpecView.pendingResult hw⟩
  | blocked box past r x hv hpast hcount hx hw =>
      have hcalls : callsOf s a = past ++ [(r, x)] := congrArg View.calls hv
      rw [hcalls, List.filter_append, List.filter_append, (filter_done hpast).1,
        (filter_done hpast).2]
      refine ⟨(congrArg SpecView.observations hw).trans ?_,
        (congrArg SpecView.pendingResult hw).trans ?_⟩
      · simp [hx.stage]
      · simp [hx.stage, observed]
  | scheduled box past r x o hv hpast hcount hx hw =>
      have hcalls : callsOf s a = past ++ [(r, x)] := congrArg View.calls hv
      rw [hcalls, List.filter_append, List.filter_append, (filter_done hpast).1,
        (filter_done hpast).2]
      refine ⟨(congrArg SpecView.observations hw).trans ?_,
        (congrArg SpecView.pendingResult hw).trans ?_⟩
      · simp [hx.stage]
      · simp [hx.stage, hx.one, observed]
  | ended box calls hv hpast hpc hobs =>
      have hcalls : callsOf s a = calls := congrArg View.calls hv
      rw [hcalls, (filter_done hpast).1, (filter_done hpast).2]
      exact ⟨hobs, hresult (Or.inr hpc)⟩

/-- The actors that are going to run are those with a handle in the ready queue. -/
lemma At.ready {kind : SpawnKind} (hinv : σ.Inv) (h : At kind a (view s a) (specView σ a)) :
    a ∈ σ.ready ↔ ∃ h ∈ s.ready, handleActor s h = a := by
  have hqueued : (∃ h ∈ s.ready, handleActor s h = a) ↔ (view s a).queued ≠ [] := by
    simp [view, List.filter_eq_nil_iff]
  have hnone : σ.pc a = .absent ∨ σ.pc a = .done → a ∉ σ.ready := by
    intro hpc hr
    have hlive := (hinv.live a).mp (hinv.ready hr)
    exact hpc.elim hlive.1 hlive.2
  have hready : (specView σ a).ready = true ↔ a ∈ σ.ready := decide_eq_true_iff
  rw [hqueued]
  cases h with
  | absent hv hpc => simp [hv, hnone (Or.inl hpc)]
  | started box hv hw => simp [hv, ← hready, hw]
  | blocked box past r x hv hpast hcount hx hw => simp [hv, ← hready, hw]
  | scheduled box past r x o hv hpast hcount hx hw => simp [hv, ← hready, hw]
  | ended box calls hv hpast hpc hobs => simp [hv, hnone (Or.inr hpc)]

/-- What a registered actor is, and what is in its mailbox. -/
lemma At.registered {kind : SpawnKind} (hinv : σ.Inv) (h : At kind a (view s a) (specView σ a))
    (hlive : a ∈ σ.live) :
    σ.kind a = some kind ∧ σ.mailboxes a = userMessages (s.actors a).mailbox := by
  have hkind := hinv.kind a hlive
  have hpc := (hinv.live a).mp hlive
  cases h with
  | absent hv hw => exact absurd hw hpc.1
  | started box hv hw =>
      have hstart : σ.pc a = spawnPc kind := congrArg SpecView.pc hw
      rw [hkind, hstart, spawnPc_eq, kindOf_pcAfter]
      exact ⟨rfl, (congrArg SpecView.box hw).trans (congrArg View.box hv).symm⟩
  | blocked box past r x hv hpast hcount hx hw =>
      have hafter : σ.pc a = pcAfter kind past.length := congrArg SpecView.pc hw
      rw [hkind, hafter, kindOf_pcAfter]
      exact ⟨rfl, (congrArg SpecView.box hw).trans (congrArg View.box hv).symm⟩
  | scheduled box past r x o hv hpast hcount hx hw =>
      have hafter : σ.pc a = pcAfter kind past.length := congrArg SpecView.pc hw
      rw [hkind, hafter, kindOf_pcAfter]
      exact ⟨rfl, (congrArg SpecView.box hw).trans (congrArg View.box hv).symm⟩
  | ended box calls hv hpast hw hobs => exact absurd hw hpc.2

end Agrees

lemma Corresponds.agrees (h : Corresponds kinds timeoutDelay s σ none) : Agrees kinds s σ where
  live := h.live
  kind a ha := ((h.views a (by simp)).registered h.inv ha).1
  ready a := (h.views a (by simp)).ready h.inv
  mailboxes a ha := ((h.views a (by simp)).registered h.inv ha).2
  observations a := ((h.views a (by simp)).observations h.inv).1
  pendingResult a := ((h.views a (by simp)).observations h.inv).2
  timers a := by
    constructor
    · intro hc
      obtain ⟨t, ht⟩ := Option.ne_none_iff_exists'.mp hc
      obtain ⟨r, hr, hactor⟩ := h.clock.all a t ht
      obtain ⟨hmem, hactive⟩ := List.mem_filter.mp hr
      exact ⟨r, hmem, of_decide_eq_true hactive, hactor⟩
    · rintro ⟨r, hmem, hactive, rfl⟩
      obtain ⟨t, ht, -⟩ := h.clock.deadline r
        (List.mem_filter.mpr ⟨hmem, decide_eq_true hactive⟩)
      simp [ht]
  links := h.links
  monitors := h.monitors

/-- At the start there is nothing. -/
lemma rel_init : Rel kinds timeoutDelay ({} : Runtime (Msg I P) R) State.init := by
  refine .settled rfl ⟨State.inv_init, rfl, Nat.one_pos, fun a _ => ?_, by simp, ?_, ?_, ?_, ?_⟩
  · refine .absent ?_ rfl
    have hrange : 1 ≤ a ∨ a = 0 := (Nat.eq_zero_or_pos a).symm
    exact View.mk.injEq _ _ _ _ _ _ _ _ _ _ _ _ |>.mpr
      ⟨rfl, decide_eq_true hrange, rfl, rfl, rfl, rfl⟩
  · exact ⟨by simp [armed], by simp [armed], fun a t ht => by cases ht⟩
  · exact fun a b => ⟨fun h => absurd h (Finset.notMem_empty _), fun h => absurd h List.not_mem_nil⟩
  · exact fun a b => ⟨fun h => absurd h (Finset.notMem_empty _), fun h => absurd h List.not_mem_nil⟩
  · exact fun id hid => absurd rfl hid

/-- **The runtime refines the specification.** Whatever the actors, the messages and the other code
do, and however long the run is, there is a behaviour of `actor_system` beside it that agrees with
it whenever no code is running. -/
theorem runtime_refines_core (kinds : ActorRef → SpawnKind) (timeoutDelay : ℕ)
    (s : ℕ → Runtime (Msg I P) R) (hinit : s 0 = {})
    (hsteps : ∀ n, s (n + 1) = s n ∨ ∃ act, step kinds (s n) act = some (s (n + 1))) :
    ∃ σ : ℕ → State ActorRef I P, σ 0 = State.init ∧ ∀ n,
      Relation.ReflTransGen (State.Next timeoutDelay) (σ n) (σ (n + 1)) ∧
        ((s n).stack = [] → Agrees kinds (s n) (σ n)) := by
  have hrel : Rel kinds timeoutDelay (s 0) State.init := hinit ▸ rel_init
  have hmatch : ∀ s t τ, Rel kinds timeoutDelay s τ →
      (t = s ∨ ∃ act : Act I P R, step kinds s act = some t) → Matched kinds timeoutDelay t τ := by
    rintro s t τ h (rfl | ⟨act, hact⟩)
    · exact .stay h
    · exact h.step hact
  obtain ⟨σ, h0, hσ⟩ := exists_matching hmatch hrel hsteps
  exact ⟨σ, h0, fun n => ⟨(hσ n).1, fun hstack => ((hσ n).2.of_stack_nil hstack).agrees⟩⟩

/-- The run along a list of acts, without those that are not possible. -/
def follow (kinds : ActorRef → SpawnKind) (acts : List (Act I P R)) (n : ℕ) :
    Runtime (Msg I P) R :=
  (acts.take n).foldl (fun s act => (step kinds s act).getD s) {}

lemma follow_succ (kinds : ActorRef → SpawnKind) (acts : List (Act I P R)) (n : ℕ) :
    follow kinds acts (n + 1) = follow kinds acts n ∨
      ∃ act, step kinds (follow kinds acts n) act = some (follow kinds acts (n + 1)) := by
  simp only [follow, List.take_add_one, List.foldl_append]
  cases acts[n]? with
  | none => exact Or.inl rfl
  | some act =>
      cases hact : step kinds ((acts.take n).foldl (fun s act => (step kinds s act).getD s) {})
          act with
      | none => exact Or.inl (by simp [hact])
      | some t => exact Or.inr ⟨act, by simp [hact]⟩

/-- The first actor times out while the second one, which is linked to it, waits for its second
message. -/
def linkedActs : List (Act ℕ ℕ ℕ) :=
  [.spawn, .spawnLink 1, .resume, .go, .resume, .go, .send 2 ⟨7, .ping, 1⟩, .visitorReturn 0,
    .resume, .go, .fire, .timeoutReturn 0, .resume, .go, .signal, .signal, .send 2 ⟨8, .noise, 2⟩,
    .send 2 ⟨9, .ping, 3⟩, .visitorReturn 0, .resume, .go, .signal]

/-- A timeout and a sequence. -/
def linkedKinds (a : ActorRef) : SpawnKind := if a = 1 then .timeout else .sequence

/-- Two linked actors, with messages and a timer. -/
theorem runtime_refines_core_linked :
    (follow linkedKinds linkedActs 12).timers = [] ∧
      (follow linkedKinds linkedActs 22).stack = [] ∧
      ((follow linkedKinds linkedActs 22).actors 2).mailbox.length = 2 ∧
      ∃ σ : ℕ → State ActorRef ℕ ℕ, σ 0 = State.init ∧ ∀ n,
        Relation.ReflTransGen (State.Next 5) (σ n) (σ (n + 1)) ∧
          ((follow linkedKinds linkedActs n).stack = [] →
            Agrees linkedKinds (follow linkedKinds linkedActs n) (σ n)) :=
  ⟨by decide +kernel, rfl, by decide +kernel,
    runtime_refines_core linkedKinds 5 _ rfl (follow_succ linkedKinds linkedActs)⟩

end Projection

end Agner
