import Agner.Spec.Projection

/-!
How a state of the runtime and one of the specification go together.

* `armed`, `Clock`: the timers of the one and of the other.
* `Corresponds`: the two states agree on all actors but the one that is running.
* `Corresponds.spawn`, `Corresponds.link`, `Corresponds.pushUser` and others: operations of the
  runtime, with what the specification does for them.
-/

namespace Agner

open ActorSystem Runs

namespace Projection

variable {I P R : Type} [DecidableEq I]

/-- A message with this id has been enqueued. -/
def alreadySent (s : Runtime (Msg I P) R) (id : I) : Bool :=
  (List.range s.sched.nextActorId).any fun a =>
    (userMessages (s.actors a).enqueued).any fun msg => msg.id = id

/-! ### The relation -/

omit [DecidableEq I] in
/-- The timers that are not stale. -/
def armed (s : Runtime (Msg I P) R) : List ℕ :=
  s.timers.filter fun r => (s.receives r).active = some true

/-- The armed timers expire in their order, and not later than one delay from now. -/
structure Clock (timeoutDelay : ℕ) (s : Runtime (Msg I P) R) (σ : State ActorRef I P) :
    Prop where
  deadline : ∀ r ∈ armed s, ∃ t, σ.timers (s.receives r).actor = some t ∧
    t ≤ σ.time + timeoutDelay
  sorted : (armed s).Pairwise fun r r' => ∀ t t', σ.timers (s.receives r).actor = some t →
    σ.timers (s.receives r').actor = some t' → t ≤ t'
  all : ∀ a t, σ.timers a = some t → ∃ r ∈ armed s, (s.receives r).actor = a

/-- The runtime and the specification agree on all actors but the one that is running. -/
structure Corresponds (kinds : ActorRef → SpawnKind) (timeoutDelay : ℕ)
    (s : Runtime (Msg I P) R) (σ : State ActorRef I P) (running : Option ActorRef) : Prop where
  inv : σ.Inv
  raising : s.raising = false
  refs : 0 < s.sched.nextActorId
  views : ∀ a, running ≠ some a → At (kinds a) a (view s a) (specView σ a)
  timers : ∀ r ∈ s.timers, r < s.nextReceive
  clock : Clock timeoutDelay s σ
  links : ∀ a b, (a, b) ∈ σ.links ↔ b ∈ s.sched.linksOf a
  monitors : ∀ a b, (a, b) ∈ σ.monitors ↔ a ∈ s.sched.monitorsOf b
  sent : ∀ id, σ.msgState id ≠ .unused → alreadySent s id = true

variable {kinds : ActorRef → SpawnKind} {timeoutDelay : ℕ} {s t : Runtime (Msg I P) R}
  {σ τ : State ActorRef I P} {running : Option ActorRef} {a b : ActorRef}

/-! ### What the relation says -/

section Facts

omit [DecidableEq I]

/-- A reference that has not been handed out is that of no actor. -/
lemma At.of_fresh {kind : SpawnKind} {v : View I P R} {w : SpecView I P} (h : At kind a v w)
    (hfresh : v.fresh = true) : v = ⟨false, true, [], none, [], []⟩ ∧ w.pc = .absent := by
  cases h with
  | absent hv hpc => exact ⟨hv, hpc⟩
  | started box hv hw => simp [hv] at hfresh
  | blocked box past r x hv hpast hcount hx hw => simp [hv] at hfresh
  | scheduled box past r x o hv hpast hcount hx hw => simp [hv] at hfresh
  | ended box calls hv hpast hpc hobs => simp [hv] at hfresh

lemma pcAfter_live (kind : SpawnKind) (n : ℕ) :
    pcAfter kind n ≠ .absent ∧ pcAfter kind n ≠ .done := by
  cases kind <;> rcases n with _ | n <;> simp [pcAfter]

lemma kindOf_pcAfter (kind : SpawnKind) (n : ℕ) : State.kindOf (pcAfter kind n) = some kind := by
  cases kind <;> rcases n with _ | n <;> simp [pcAfter, State.kindOf]

lemma pcAfter_eq_trying {kind : SpawnKind} {n : ℕ} :
    pcAfter kind n = .trying ↔ kind = .timeout := by
  cases kind <;> rcases n with _ | n <;> simp [pcAfter]

lemma spawnPc_eq (kind : SpawnKind) : spawnPc kind = pcAfter kind 0 := by cases kind <;> rfl

/-- The live actors are the registered ones. -/
lemma At.live {kind : SpawnKind} (hinv : σ.Inv) (h : At kind a (view s a) (specView σ a)) :
    a ∈ σ.live ↔ s.registered a = true := by
  have hlive := hinv.live a
  cases h with
  | absent hv hpc =>
      have hreg : s.registered a = false := congrArg View.registered hv
      have hpc : σ.pc a = .absent := hpc
      simp [hlive, hpc, hreg]
  | started box hv hw =>
      have hreg : s.registered a = true := congrArg View.registered hv
      have hpc : σ.pc a = spawnPc kind := congrArg SpecView.pc hw
      simp [hlive, hpc, hreg, spawnPc_eq, pcAfter_live]
  | blocked box past r x hv hpast hcount hx hw =>
      have hreg : s.registered a = true := congrArg View.registered hv
      have hpc : σ.pc a = pcAfter kind past.length := congrArg SpecView.pc hw
      simp [hlive, hpc, hreg, pcAfter_live]
  | scheduled box past r x o hv hpast hcount hx hw =>
      have hreg : s.registered a = true := congrArg View.registered hv
      have hpc : σ.pc a = pcAfter kind past.length := congrArg SpecView.pc hw
      simp [hlive, hpc, hreg, pcAfter_live]
  | ended box calls hv hpast hpc hobs =>
      have hreg : s.registered a = false := congrArg View.registered hv
      have hpc : σ.pc a = .done := hpc
      simp [hlive, hpc, hreg]

lemma Clock.congr (h : Clock timeoutDelay s σ) (harmed : armed t = armed s)
    (hactor : ∀ r ∈ armed s, (t.receives r).actor = (s.receives r).actor)
    (htimers : τ.timers = σ.timers) (htime : τ.time = σ.time) : Clock timeoutDelay t τ := by
  refine ⟨fun r hr => ?_, ?_, fun a u hu => ?_⟩
  · rw [harmed] at hr
    rw [hactor r hr, htimers, htime]
    exact h.deadline r hr
  · rw [harmed, htimers]
    refine h.sorted.imp_of_mem fun {r r'} hr hr' hle => ?_
    rw [hactor r hr, hactor r' hr']
    exact hle
  · rw [htimers] at hu
    obtain ⟨r, hr, rfl⟩ := h.all a u hu
    exact ⟨r, harmed ▸ hr, hactor r hr⟩

end Facts

lemma Corresponds.live (h : Corresponds kinds timeoutDelay s σ none) (a : ActorRef) :
    a ∈ σ.live ↔ s.registered a = true := (h.views a (by simp)).live h.inv

/-- What is registered has been handed out. -/
lemma Corresponds.lt (h : Corresponds kinds timeoutDelay s σ none) (ha : s.registered a = true) :
    a < s.sched.nextActorId ∧ a ≠ 0 := by
  have hfresh : ¬ (view s a).fresh = true := by
    intro hfresh
    have hreg := congrArg View.registered ((h.views a (by simp)).of_fresh hfresh).1
    rw [view, ha] at hreg
    cases hreg
  simpa [view, not_or] using hfresh

/-- The stack plays no part in the relation. -/
lemma Corresponds.of_stack {stack : List Frame} (h : Corresponds kinds timeoutDelay s σ running) :
    Corresponds kinds timeoutDelay { s with stack := stack } σ running :=
  { h with
    views := h.views, clock := ⟨h.clock.deadline, h.clock.sorted, h.clock.all⟩ }

/-! ### Topology -/

lemma mem_linksOf_pushBack {links : OrdMap ActorRef (List ActorRef)} {k v x y : ActorRef} :
    y ∈ ((pushBack links k v).find? x).getD [] ↔
      y ∈ (links.find? x).getD [] ∨ x = k ∧ y = v := by
  rw [SchedulerBase.find?_pushBack]
  by_cases hx : x = k <;> simp [hx]

/-- A registered actor is added, and nothing else happens to the others. -/
lemma views_spawn {linker monitorRef : ActorRef} (h : Corresponds kinds timeoutDelay s σ none)
    (a : ActorRef) :
    At (kinds a) a
      (view { s with
        sched := (s.sched.spawnImpl linker monitorRef).2
        ready := s.ready ++ [.start s.sched.nextActorId] } a)
      (specView (σ.spawn s.sched.nextActorId (kinds s.sched.nextActorId)) a) := by
  by_cases ha : a = s.sched.nextActorId
  · subst ha
    obtain ⟨hv, hpc⟩ := (h.views s.sched.nextActorId (by simp)).of_fresh (by simp [view])
    have hpc : σ.pc s.sched.nextActorId = .absent := hpc
    have hlive : s.sched.nextActorId ∉ σ.live := fun hl => ((h.inv.live _).mp hl).1 hpc
    have hpending : σ.pendingResult s.sched.nextActorId = .noPending := by
      by_contra hc
      exact hlive (h.inv.ready (h.inv.pending _ hc))
    have htimer : σ.timers s.sched.nextActorId = none := by
      by_contra hc
      obtain ⟨t, ht⟩ := Option.ne_none_iff_exists'.mp hc
      exact hlive (h.inv.timer _ t ht).1
    have hqueued : s.ready.filter (fun h => handleActor s h = s.sched.nextActorId) = [] :=
      congrArg View.queued hv
    refine .started [] ?_ ?_
    · have hbox : userMessages (s.actors s.sched.nextActorId).mailbox = [] := congrArg View.box hv
      have hp : (s.actors s.sched.nextActorId).pending = none := congrArg View.pending hv
      have hcalls : callsOf s s.sched.nextActorId = [] := congrArg View.calls hv
      have hrefs := h.refs
      simp only [view, View.mk.injEq]
      refine ⟨?_, ?_, hbox, hp, hcalls, ?_⟩
      · simp [Runtime.registered, SchedulerBase.contains_spawnImpl]
      · exact decide_eq_false (not_or.mpr ⟨Nat.not_succ_le_self _, hrefs.ne'⟩)
      · rw [List.filter_append]
        exact (congrArg (· ++ _) hqueued).trans (by simp [handleActor])
    · simp [specView, State.spawn, hpending, htimer, h.inv.box _ hlive,
        (h.inv.absent _ hpc).2.1]
  · have hw : specView (σ.spawn s.sched.nextActorId (kinds s.sched.nextActorId)) a =
        specView σ a := by
      simp [specView, State.spawn, ha]
    rw [hw]
    convert h.views a (by simp) using 1
    simp only [view, View.mk.injEq, true_and]
    refine ⟨?_, ?_, rfl, ?_⟩
    · simp [Runtime.registered, SchedulerBase.contains_spawnImpl, ha]
    · refine decide_eq_decide.mpr (or_congr_left ⟨Nat.le_of_succ_le, fun hle => ?_⟩)
      exact lt_of_le_of_ne hle (Ne.symm ha)
    · rw [List.filter_append]
      simp [handleActor, Ne.symm ha]
      rfl

lemma mem_linksOf_spawnImpl {sched : SchedulerBase} {linker monitorRef x y : ActorRef} :
    y ∈ (sched.spawnImpl linker monitorRef).2.linksOf x ↔ y ∈ sched.linksOf x ∨
      linker ≠ 0 ∧ (x = linker ∧ y = sched.nextActorId ∨ x = sched.nextActorId ∧ y = linker) := by
  simp only [SchedulerBase.spawnImpl, SchedulerBase.linksOf, ActorRef.valid, decide_eq_true_eq]
  split_ifs with hl
  · rw [mem_linksOf_pushBack, mem_linksOf_pushBack]
    tauto
  · tauto

lemma mem_monitorsOf_spawnImpl {sched : SchedulerBase} {linker monitorRef x y : ActorRef} :
    y ∈ (sched.spawnImpl linker monitorRef).2.monitorsOf x ↔ y ∈ sched.monitorsOf x ∨
      monitorRef ≠ 0 ∧ x = sched.nextActorId ∧ y = monitorRef := by
  simp only [SchedulerBase.spawnImpl, SchedulerBase.monitorsOf, ActorRef.valid, decide_eq_true_eq]
  split_ifs with hm
  · rw [mem_linksOf_pushBack]
    tauto
  · tauto

/-- A message that has been enqueued to one of the actors there were is one that has been sent. -/
lemma alreadySent_iff {id : I} : alreadySent s id = true ↔
    ∃ a < s.sched.nextActorId, ∃ msg ∈ userMessages (s.actors a).enqueued, msg.id = id := by
  simp [alreadySent]

/-- An actor is spawned, with the links and monitors it gets. -/
lemma Corresponds.spawn {linker monitorRef : ActorRef}
    (links monitors : Finset (ActorRef × ActorRef)) (h : Corresponds kinds timeoutDelay s σ none)
    (hinv : State.Inv { σ.spawn s.sched.nextActorId (kinds s.sched.nextActorId) with
      links := links, monitors := monitors })
    (hlinks : ∀ x y, (x, y) ∈ links ↔ (x, y) ∈ σ.links ∨
      linker ≠ 0 ∧ (x = linker ∧ y = s.sched.nextActorId ∨ x = s.sched.nextActorId ∧ y = linker))
    (hmonitors : ∀ x y, (x, y) ∈ monitors ↔ (x, y) ∈ σ.monitors ∨
      monitorRef ≠ 0 ∧ y = s.sched.nextActorId ∧ x = monitorRef) :
    Corresponds kinds timeoutDelay
      { s with
        sched := (s.sched.spawnImpl linker monitorRef).2
        ready := s.ready ++ [.start s.sched.nextActorId] }
      { σ.spawn s.sched.nextActorId (kinds s.sched.nextActorId) with
        links := links, monitors := monitors } none where
  inv := hinv
  raising := h.raising
  refs := Nat.succ_pos _
  views a _ := views_spawn h a
  timers := h.timers
  clock := h.clock.congr rfl (fun _ _ => rfl) rfl rfl
  links a b := by rw [hlinks, mem_linksOf_spawnImpl, h.links]
  monitors a b := by rw [hmonitors, mem_monitorsOf_spawnImpl, h.monitors]
  sent id hid := by
    obtain ⟨a, ha, msg, hm, hid⟩ := alreadySent_iff.mp (h.sent id hid)
    exact alreadySent_iff.mpr ⟨a, Nat.lt_succ_of_lt ha, msg, hm, hid⟩

/-- Actors are linked. -/
lemma Corresponds.link {sched : SchedulerBase} (h : Corresponds kinds timeoutDelay s σ none)
    (hlink : s.sched.link a b = some sched) (ha : s.registered a = true)
    (hb : s.registered b = true) :
    Corresponds kinds timeoutDelay { s with sched := sched } (σ.link a b) none := by
  rw [SchedulerBase.link, Option.ite_none_right_eq_some] at hlink
  obtain ⟨-, heq⟩ := hlink
  obtain rfl := Option.some.inj heq
  refine ⟨h.inv.link ((h.live a).mpr ha) ((h.live b).mpr hb), h.raising, h.refs, h.views, h.timers,
    h.clock.congr rfl (fun _ _ => rfl) rfl rfl, fun x y => ?_, h.monitors, h.sent⟩
  simp only [State.link, SchedulerBase.linksOf, mem_linksOf_pushBack, Finset.mem_insert,
    Prod.mk.injEq, h.links]
  tauto

lemma Corresponds.monitor {sched : SchedulerBase} (h : Corresponds kinds timeoutDelay s σ none)
    (hmonitor : s.sched.monitor a b = some sched) :
    Corresponds kinds timeoutDelay { s with sched := sched } (σ.setMonitor a b) none := by
  rw [SchedulerBase.monitor, Option.ite_none_right_eq_some] at hmonitor
  obtain ⟨-, heq⟩ := hmonitor
  obtain rfl := Option.some.inj heq
  refine ⟨h.inv.setMonitor, h.raising, h.refs, h.views, h.timers,
    h.clock.congr rfl (fun _ _ => rfl) rfl rfl, h.links, fun x y => ?_, h.sent⟩
  simp only [State.setMonitor, SchedulerBase.monitorsOf, mem_linksOf_pushBack, Finset.mem_insert,
    Prod.mk.injEq, h.monitors]
  tauto

/-! ### Messages -/

/-- An actor with a pending receive is blocked in it. -/
lemma Corresponds.blocked {r : ℕ} (h : Corresponds kinds timeoutDelay s σ none)
    (hpending : (s.actors a).pending = some r) :
    ∃ past : List (ℕ × ReceiveAwaiter (Msg I P) R),
      view s a = ⟨true, false, userMessages (s.actors a).mailbox, some r,
        past ++ [(r, s.receives r)], []⟩ ∧
      (∀ p ∈ past, Returned p.2) ∧ past.length < callCount (kinds a) ∧
      Waiting (kinds a) (s.receives r) ∧
      specView σ a = ⟨pcAfter (kinds a) past.length, false, .noPending,
        userMessages (s.actors a).mailbox, decide (kinds a = .timeout), observed past⟩ ∧
      r < s.nextReceive ∧ (s.receives r).actor = a := by
  have hview : (view s a).pending = some r := hpending
  cases h.views a (by simp) with
  | absent hv hpc => simp [hv] at hview
  | started box hv hw => simp [hv] at hview
  | scheduled box past r' x o hv hpast hcount hx hw => simp [hv] at hview
  | ended box calls hv hpast hpc hobs => simp [hv] at hview
  | blocked box past r' x hv hpast hcount hx hw =>
      rw [hv] at hview
      obtain rfl : r' = r := Option.some.inj hview
      obtain rfl : userMessages (s.actors a).mailbox = box := congrArg View.box hv
      have hcalls : callsOf s a = past ++ [(r', x)] := congrArg View.calls hv
      obtain ⟨hlt, hactor, rfl⟩ := mem_callsOf.mp (hcalls ▸ (by simp) : (r', x) ∈ callsOf s a)
      exact ⟨past, hv, hpast, hcount, hx, hw, hlt, hactor⟩

/-- A blocked actor has nothing in its mailbox that its receive accepts. -/
lemma Corresponds.no_match {r : ℕ} (h : Corresponds kinds timeoutDelay s σ none)
    (hpending : (s.actors a).pending = some r) :
    ∀ e ∈ (s.actors a).mailbox, tryMatchVisitors [acceptsPing] e.body = false := by
  intro e he
  obtain ⟨past, hv, -, -, -, hw, -, -⟩ := h.blocked hpending
  have hlive := (h.live a).mpr (congrArg View.registered hv)
  have hready : a ∉ σ.ready := by simpa [specView] using congrArg SpecView.ready hw
  have hpc : σ.pc a = pcAfter (kinds a) past.length := congrArg SpecView.pc hw
  have hbox : σ.mailboxes a = userMessages (s.actors a).mailbox := congrArg SpecView.box hw
  cases hb : e.body with
  | signal sg => simp [tryMatchVisitors, acceptsPing]
  | user msg =>
      have hmem : msg ∈ σ.mailboxes a := by
        rw [hbox]
        exact List.mem_filterMap.mpr ⟨e, he, by simp [hb]⟩
      have hno := h.inv.blocked a msg hlive hready hmem
      rw [hpc, matchesPc_iff (pcAfter_live _ _)] at hno
      simpa [tryMatchVisitors] using hno

omit [DecidableEq I] in
/-- What a message does to the view of its target. -/
lemma view_pushMessage (b : ActorRef) (m : Message (Msg I P)) :
    view (s.pushMessage b m) a =
      if a = b then
        { view s a with
          box := (view s a).box ++ match m with
            | .user msg => [msg]
            | .signal _ => [] }
      else view s a := by
  rw [Runtime.pushMessage, view_updateActor]
  split_ifs with hab
  · subst hab
    simp only [userMessages_append]
    cases m <;> rfl
  · rfl

omit [DecidableEq I] in
/-- A message stays in the mailbox of an actor that does not wait for it. -/
lemma At.push {kind : SpawnKind} {v : View I P R} {w : SpecView I P} (msgs : List (Msg I P))
    (h : At kind a v w) (hregistered : v.registered = true) :
    At kind a { v with box := v.box ++ msgs } { w with box := w.box ++ msgs } := by
  cases h with
  | absent hv hpc => simp [hv] at hregistered
  | started box hv hw => exact .started (box ++ msgs) (by rw [hv]) (by rw [hw])
  | blocked box past r x hv hpast hcount hx hw =>
      exact .blocked (box ++ msgs) past r x (by rw [hv]) hpast hcount hx (by rw [hw])
  | scheduled box past r x o hv hpast hcount hx hw =>
      exact .scheduled (box ++ msgs) past r x o (by rw [hv]) hpast hcount hx (by rw [hw])
  | ended box calls hv hpast hpc hobs => simp [hv] at hregistered

lemma alreadySent_pushMessage {id : I} {b : ActorRef} {m : Message (Msg I P)}
    (h : alreadySent s id = true) : alreadySent (s.pushMessage b m) id = true := by
  obtain ⟨x, hx, msg, hm, hid⟩ := alreadySent_iff.mp h
  refine alreadySent_iff.mpr ⟨x, hx, msg, ?_, hid⟩
  rw [Runtime.pushMessage, Runtime.updateActor_actors]
  split_ifs with hxb
  · subst hxb
    rw [userMessages_append]
    exact List.mem_append_left _ hm
  · exact hm

/-- A signal changes nothing that the specification sees. -/
lemma Corresponds.pushSignal (h : Corresponds kinds timeoutDelay s σ none) (b : ActorRef)
    (sg : Signal) : Corresponds kinds timeoutDelay (s.pushMessage b (.signal sg)) σ none := by
  refine ⟨h.inv, h.raising, h.refs, fun a ha => ?_, h.timers,
    h.clock.congr rfl (fun _ _ => rfl) rfl rfl, h.links, h.monitors,
    fun id hid => alreadySent_pushMessage (h.sent id hid)⟩
  rw [view_pushMessage]
  split_ifs
  · simpa using h.views a ha
  · exact h.views a ha

lemma Corresponds.unused {id : I} (h : Corresponds kinds timeoutDelay s σ running)
    (hsent : alreadySent s id = false) : σ.msgState id = .unused := by
  by_contra hc
  rw [h.sent id hc] at hsent
  cases hsent

lemma alreadySent_pushMessage_self {msg : Msg I P} (hlt : b < s.sched.nextActorId) :
    alreadySent (s.pushMessage b (.user msg)) msg.id = true := by
  refine alreadySent_iff.mpr ⟨b, hlt, msg, ?_, rfl⟩
  rw [Runtime.pushMessage, Runtime.updateActor_actors, if_pos rfl, userMessages_append]
  exact List.mem_append_right _ List.mem_cons_self

/-- A message that the target does not wait for. -/
lemma Corresponds.pushUser {msg : Msg I P} (h : Corresponds kinds timeoutDelay s σ none)
    (hregistered : s.registered b = true) (hsent : alreadySent s msg.id = false)
    (hno : b ∈ σ.ready ∨ matchesPc (σ.pc b) msg = false) :
    Corresponds kinds timeoutDelay (s.pushMessage b (.user msg)) (σ.send b msg) none := by
  have hunused := h.unused hsent
  have hsend : σ.send b msg = { σ with
      mailboxes := Function.update σ.mailboxes b (σ.mailboxes b ++ [msg])
      msgState := Function.update σ.msgState msg.id .queued } := by
    rw [State.send, if_neg]
    rintro ⟨hr, -, hmatch⟩
    rcases hno with hready | hnot
    · exact hr hready
    · rw [hnot] at hmatch
      cases hmatch
  have hlive := (h.live b).mpr hregistered
  refine ⟨h.inv.send hlive hunused, h.raising, h.refs, fun a ha => ?_, h.timers, ?_, ?_, ?_,
    fun id hid => ?_⟩
  · rw [view_pushMessage, hsend]
    split_ifs with hab
    · subst hab
      have := (h.views a ha).push [msg] hregistered
      simpa [specView] using this
    · have hw : specView { σ with
          mailboxes := Function.update σ.mailboxes b (σ.mailboxes b ++ [msg])
          msgState := Function.update σ.msgState msg.id .queued } a = specView σ a := by
        simp [specView, hab]
      rw [hw]
      exact h.views a ha
  · rw [hsend]
    exact h.clock.congr rfl (fun _ _ => rfl) rfl rfl
  · rw [hsend]
    exact h.links
  · rw [hsend]
    exact h.monitors
  · by_cases hne : id = msg.id
    · rw [hne]
      exact alreadySent_pushMessage_self (h.lt hregistered).1
    · refine alreadySent_pushMessage (h.sent id ?_)
      simpa [hsend, hne] using hid

/-- The state in which a message is being delivered to the receive that waits for it. -/
def deliver (s : Runtime (Msg I P) R) (b : ActorRef) (m : Message (Msg I P)) (r : ℕ) :
    Runtime (Msg I P) R :=
  { ((s.pushMessage b m).updateActor b fun x => { x with pending := none }).updateReceive r
      fun w => { w with stage := .delivering } with
    stack := .visiting r (s.actors b).mailbox.length true :: s.stack }

/-- `enqueue_message`: the message stays in the mailbox, or it is what a receive waits for. -/
lemma Corresponds.enqueue (h : Corresponds kinds timeoutDelay s σ none) (b : ActorRef)
    (m : Message (Msg I P)) :
    s.enqueueMessage b m = s.pushMessage b m ∧
        ((s.actors b).pending = none ∨ acceptsPing m = false) ∨
      ∃ r, (s.actors b).pending = some r ∧ acceptsPing m = true ∧
        s.enqueueMessage b m = deliver s b m r := by
  have hpending : ((s.pushMessage b m).actors b).pending = (s.actors b).pending := by
    simp [Runtime.pushMessage]
  rw [Runtime.enqueueMessage, Runtime.notifyWaiterLocked, hpending]
  cases hp : (s.actors b).pending with
  | none => exact Or.inl ⟨rfl, Or.inl rfl⟩
  | some r =>
      have hnone := h.no_match hp
      obtain ⟨-, -, -, -, hx, -, -, -⟩ := h.blocked hp
      have hvisitors : ((s.pushMessage b m).receives r).visitors = [acceptsPing] := hx.visitors
      have hbox : ((s.pushMessage b m).actors b).mailbox = (s.actors b).mailbox ++
          [{ stamp := (s.actors b).enqueued.length, body := m }] := by
        simp [Runtime.pushMessage]
      have hold : (s.actors b).mailbox.findIdx? (fun e => tryMatchVisitors [acceptsPing] e.body) =
          none := List.findIdx?_eq_none_iff.mpr hnone
      dsimp only
      rw [hvisitors, hbox, tryMatchMailbox, List.findIdx?_append, hold]
      cases hm : acceptsPing m with
      | true =>
          refine Or.inr ⟨r, rfl, rfl, ?_⟩
          simp [tryMatchVisitors, hm, deliver, Runtime.pushMessage]
      | false =>
          refine Or.inl ⟨?_, Or.inr rfl⟩
          simp [tryMatchVisitors, hm]

/-- A signal stays in the mailbox: no receive waits for it. -/
lemma Corresponds.sendSignal (h : Corresponds kinds timeoutDelay s σ none) (b : ActorRef)
    (sg : Signal) : Corresponds kinds timeoutDelay (s.send b (.signal sg)) σ none ∧
      (s.send b (.signal sg)).stack = s.stack := by
  rw [Runtime.send]
  split_ifs with hregistered
  · rcases h.enqueue b (.signal sg) with ⟨heq, -⟩ | ⟨r, -, hping, -⟩
    · rw [heq]
      exact ⟨h.pushSignal b sg, rfl⟩
    · simp [acceptsPing] at hping
  · exact ⟨h, rfl⟩

/-! ### Timers -/

/-- An armed timer is that of the receive its actor is blocked in. -/
lemma Corresponds.armed_pending {r : ℕ} (h : Corresponds kinds timeoutDelay s σ none)
    (hr : r ∈ armed s) : (s.actors (s.receives r).actor).pending = some r := by
  obtain ⟨htimer, hactive⟩ := List.mem_filter.mp hr
  have hactive := of_decide_eq_true hactive
  have hmem : (r, s.receives r) ∈ (view s (s.receives r).actor).calls :=
    mem_callsOf.mpr ⟨h.timers r htimer, rfl, rfl⟩
  cases h.views (s.receives r).actor (by simp) with
  | absent hv hpc => simp [hv] at hmem
  | started box hv hw => simp [hv] at hmem
  | blocked box past r' x hv hpast hcount hx hw =>
      simp only [hv, List.mem_append, List.mem_singleton, Prod.mk.injEq] at hmem
      rcases hmem with hold | ⟨rfl, -⟩
      · exact absurd hactive (hpast _ hold).inactive
      · exact congrArg View.pending hv
  | scheduled box past r' x o hv hpast hcount hx hw =>
      simp only [hv, List.mem_append, List.mem_singleton, Prod.mk.injEq] at hmem
      rcases hmem with hold | ⟨rfl, rfl⟩
      · exact absurd hactive (hpast _ hold).inactive
      · exact absurd hactive hx.inactive
  | ended box calls hv hpast hpc hobs =>
      rw [hv] at hmem
      exact absurd hactive (hpast _ hmem).inactive

/-- The timer of the receive that an actor is blocked in becomes stale, or has fired. -/
lemma Corresponds.armed_clear {r : ℕ} (h : Corresponds kinds timeoutDelay s σ none)
    (hpending : (s.actors a).pending = some r)
    (htimers : t.timers = s.timers ∨ s.timers = r :: t.timers)
    (hother : ∀ r', r' ≠ r → (t.receives r').active = (s.receives r').active)
    (hr : (t.receives r).active ≠ some true) :
    armed t = (armed s).filter fun r => (s.receives r).actor ≠ a := by
  obtain ⟨-, -, -, -, -, -, -, hactor⟩ := h.blocked hpending
  have hfilter : ∀ l : List ℕ, (∀ r' ∈ l, r' ∈ s.timers) →
      l.filter (fun r => (t.receives r).active = some true) =
        (l.filter fun r => (s.receives r).active = some true).filter
          fun r => (s.receives r).actor ≠ a := by
    intro l hl
    rw [List.filter_filter]
    refine List.filter_congr fun r' hr' => ?_
    by_cases hne : r' = r
    · simp [hne, hr, hactor]
    · rw [hother r' hne]
      by_cases hactive : (s.receives r').active = some true
      · have hp := h.armed_pending (List.mem_filter.mpr ⟨hl r' hr', decide_eq_true hactive⟩)
        have hne' : (s.receives r').actor ≠ a := by
          intro heq
          rw [heq, hpending] at hp
          exact hne (Option.some.inj hp).symm
        simp [hactive, hne']
      · simp [hactive]
  rcases htimers with heq | heq
  · rw [armed, heq]
    exact hfilter s.timers fun _ hr' => hr'
  · rw [armed, hfilter t.timers fun r' hr' => heq ▸ List.mem_cons_of_mem r hr', armed, heq]
    by_cases hactive : (s.receives r).active = some true
    · simp [hactive, hactor]
    · simp [hactive]

section Clock

omit [DecidableEq I]

/-- The timer of an actor is cleared. -/
lemma Clock.clear (h : Clock timeoutDelay s σ)
    (harmed : armed t = (armed s).filter fun r => (s.receives r).actor ≠ a)
    (hactor : ∀ r, (t.receives r).actor = (s.receives r).actor)
    (htimers : ∀ b, τ.timers b = if b = a then none else σ.timers b) (htime : τ.time = σ.time) :
    Clock timeoutDelay t τ := by
  have hother : ∀ r ∈ armed t, r ∈ armed s ∧ τ.timers (s.receives r).actor =
      σ.timers (s.receives r).actor := by
    intro r hr
    rw [harmed] at hr
    obtain ⟨hr, hne⟩ := List.mem_filter.mp hr
    exact ⟨hr, by rw [htimers, if_neg (of_decide_eq_true hne)]⟩
  refine ⟨fun r hr => ?_, ?_, fun b u hu => ?_⟩
  · rw [hactor, (hother r hr).2, htime]
    exact h.deadline r (hother r hr).1
  · have hsub : (armed t).Sublist (armed s) := harmed ▸ List.filter_sublist
    refine (h.sorted.sublist hsub).imp_of_mem fun {r r'} hr hr' hle => ?_
    rw [hactor, hactor, (hother r hr).2, (hother r' hr').2]
    exact hle
  · rw [htimers] at hu
    split_ifs at hu with hb
    obtain ⟨r, hr, rfl⟩ := h.all b u hu
    exact ⟨r, harmed ▸ List.mem_filter.mpr ⟨hr, decide_eq_true hb⟩, hactor r⟩

/-- A timer is armed, and expires after those that are already armed. -/
lemma Clock.arm {r : ℕ} (h : Clock timeoutDelay s σ) (harmed : armed t = armed s ++ [r])
    (hr : (t.receives r).actor = a)
    (hactor : ∀ r ∈ armed s, (t.receives r).actor = (s.receives r).actor)
    (hnone : σ.timers a = none)
    (htimers : τ.timers = Function.update σ.timers a (some (σ.time + timeoutDelay)))
    (htime : τ.time = σ.time) : Clock timeoutDelay t τ := by
  have hother : ∀ r ∈ armed s, (t.receives r).actor ≠ a ∧
      τ.timers (t.receives r).actor = σ.timers (s.receives r).actor := by
    intro r hr
    obtain ⟨u, hu, -⟩ := h.deadline r hr
    have hne : (t.receives r).actor ≠ a := by
      rw [hactor r hr]
      rintro heq
      rw [heq, hnone] at hu
      cases hu
    exact ⟨hne, by rw [htimers, Function.update_of_ne hne, hactor r hr]⟩
  have hnew : τ.timers (t.receives r).actor = some (σ.time + timeoutDelay) := by
    rw [hr, htimers, Function.update_self]
  refine ⟨fun r' hr' => ?_, ?_, fun b u hu => ?_⟩
  · rw [harmed, List.mem_append, List.mem_singleton] at hr'
    rw [htime]
    rcases hr' with hr' | rfl
    · rw [(hother r' hr').2]
      exact h.deadline r' hr'
    · exact ⟨_, hnew, le_rfl⟩
  · rw [harmed, List.pairwise_append]
    refine ⟨h.sorted.imp_of_mem fun {r r'} hr hr' hle => ?_, List.pairwise_singleton _ _, ?_⟩
    · rw [(hother r hr).2, (hother r' hr').2]
      exact hle
    · intro r1 hr1 r2 hr2 u u' hu hu'
      rw [List.mem_singleton.mp hr2, hnew] at hu'
      rw [(hother r1 hr1).2] at hu
      obtain ⟨v, hv, hle⟩ := h.deadline r1 hr1
      rw [hu] at hv
      cases hv
      cases hu'
      exact hle
  · rw [harmed]
    by_cases hb : b = a
    · exact ⟨r, List.mem_append_right _ (List.mem_singleton_self r), by rw [hr, hb]⟩
    · rw [htimers, Function.update_of_ne hb] at hu
      obtain ⟨r', hr', rfl⟩ := h.all b u hu
      exact ⟨r', List.mem_append_left _ hr', hactor r' hr'⟩

/-- The first armed timer is the next one to expire. -/
lemma Clock.first {r u : ℕ} {rest : List ℕ} (h : Clock timeoutDelay s σ)
    (harmed : armed s = r :: rest) (hu : σ.timers (s.receives r).actor = some u)
    (b : ActorRef) (u' : ℕ) (hu' : σ.timers b = some u') : u ≤ u' := by
  obtain ⟨r', hr', rfl⟩ := h.all b u' hu'
  have hsorted := h.sorted
  rw [harmed, List.pairwise_cons] at hsorted
  rw [harmed, List.mem_cons] at hr'
  rcases hr' with rfl | hr'
  · rw [hu] at hu'
    cases hu'
    exact le_rfl
  · exact hsorted.1 r' hr' u u' hu hu'

/-- Time goes on. -/
lemma Clock.advance {u : ℕ} (h : Clock timeoutDelay s σ) (hle : σ.time ≤ u) :
    Clock timeoutDelay s { σ with time := u } :=
  ⟨fun r hr => by
    obtain ⟨v, hv, hv'⟩ := h.deadline r hr
    exact ⟨v, hv, hv'.trans (Nat.add_le_add_right hle _)⟩, h.sorted, h.all⟩

end Clock

/-! ### A step for one actor -/

lemma Corresponds.weaken (h : Corresponds kinds timeoutDelay s σ none) :
    Corresponds kinds timeoutDelay s σ running :=
  { h with views := fun a _ => h.views a (by simp) }

/-- What has been done for an actor changes nothing for the others. -/
lemma Corresponds.views_of (h : Corresponds kinds timeoutDelay s σ (some a))
    (hviews : ∀ b, b ≠ a → view t b = view s b)
    (hspec : ∀ b, b ≠ a → specView τ b = specView σ b)
    (hat : At (kinds a) a (view t a) (specView τ a)) (b : ActorRef) :
    At (kinds b) b (view t b) (specView τ b) := by
  by_cases hb : b = a
  · rw [hb]
    exact hat
  · rw [hviews b hb, hspec b hb]
    exact h.views b fun hc => hb (Option.some.inj hc).symm

lemma alreadySent_congr (hrefs : t.sched.nextActorId = s.sched.nextActorId)
    (henqueued : ∀ b, (t.actors b).enqueued = (s.actors b).enqueued) (id : I) :
    alreadySent t id = alreadySent s id := by
  simp only [alreadySent, hrefs, henqueued]

/-! ### A blocked actor is resumed -/

section Delivered

omit [DecidableEq I]

variable (msg : Msg I P) (r : ℕ) (e : Envelope (Msg I P)) (value : R)

/-- The delivery is over: the message has gone through the mailbox, and its receive is scheduled. -/
def delivered (s : Runtime (Msg I P) R) (b : ActorRef) (msg : Msg I P) (r : ℕ)
    (e : Envelope (Msg I P)) (value : R) : Runtime (Msg I P) R :=
  (deliver s b (.user msg) r).visitorReturned [] r (s.actors b).mailbox.length true e value

lemma delivered_receives (r' : ℕ) :
    (delivered s b msg r e value).receives r' =
      if r' = r then
        { s.receives r with
          storage := some value
          active := (s.receives r).active.map fun _ => false
          outcomes := (s.receives r).outcomes ++
            [.message e ((s.receives r).visitors.findIdx fun visitor => visitor e.body)]
          scheduled := (s.receives r).scheduled + 1
          stage := .scheduled }
      else s.receives r' := by
  by_cases hr : r' = r
  · simp [delivered, Runtime.visitorReturned, Runtime.schedule, Runtime.completeMatch, deliver,
      Runtime.pushMessage, hr]
  · simp [delivered, Runtime.visitorReturned, Runtime.schedule, Runtime.completeMatch, deliver,
      Runtime.pushMessage, hr]

lemma delivered_actors (hactor : (s.receives r).actor = b) (c : ActorRef) :
    (delivered s b msg r e value).actors c =
      if c = b then
        { s.actors b with
          pending := none
          enqueued := (s.actors b).enqueued ++ [⟨(s.actors b).enqueued.length, .user msg⟩]
          consumed := (s.actors b).consumed ++ [(e, r)] }
      else s.actors c := by
  by_cases hc : c = b
  · simp [delivered, Runtime.visitorReturned, Runtime.schedule, Runtime.completeMatch, deliver,
      Runtime.pushMessage, hc, hactor, List.eraseIdx_append_of_length_le]
  · simp [delivered, Runtime.visitorReturned, Runtime.schedule, Runtime.completeMatch, deliver,
      Runtime.pushMessage, hc, hactor]

lemma changesCall_delivered (hactor : (s.receives r).actor = b) :
    ChangesCall s (delivered s b msg r e value) b r
      ((delivered s b msg r e value).receives r) where
  sched := rfl
  nextReceive := rfl
  actors c hc := by rw [delivered_actors msg r e value hactor, if_neg hc]
  receives r' := by
    by_cases hr : r' = r
    · rw [hr, if_pos rfl]
    · rw [delivered_receives, if_neg hr, if_neg hr]
  actor := hactor
  same := by rw [delivered_receives, if_pos rfl, ← hactor]
  ready c hc := by
    have hready : (delivered s b msg r e value).ready = s.ready ++ [.receive r] := rfl
    rw [hready, List.filter_append]
    simp [handleActor, hactor, Ne.symm hc]

end Delivered

/-- The visitor of the receive has returned: the message is what its actor is resumed with. -/
lemma Corresponds.resumedByMessage {msg : Msg I P} {r : ℕ} {e : Envelope (Msg I P)}
    (h : Corresponds kinds timeoutDelay s σ none) (hsent : alreadySent s msg.id = false)
    (hpending : (s.actors b).pending = some r) (hping : acceptsPing (I := I) (P := P) (.user msg))
    (he : e.body = .user msg) (value : R) :
    Corresponds kinds timeoutDelay (delivered s b msg r e value) (σ.send b msg) none ∧
      State.Next timeoutDelay σ (σ.send b msg) := by
  obtain ⟨past, hv, hpast, hcount, hx, hw, hlt, hactor⟩ := h.blocked hpending
  have hregistered : s.registered b = true := congrArg View.registered hv
  have hlive := (h.live b).mpr hregistered
  have hunused := h.unused hsent
  have hready : b ∉ σ.ready := by simpa [specView] using congrArg SpecView.ready hw
  have hpc : σ.pc b = pcAfter (kinds b) past.length := congrArg SpecView.pc hw
  have hmatch : matchesPc (σ.pc b) msg = true := by
    rw [hpc, matchesPc_iff (pcAfter_live _ _)]
    exact hping
  have hresult : σ.pendingResult b = .noPending := congrArg SpecView.pendingResult hw
  have hsend : σ.send b msg = { σ with
      ready := insert b σ.ready
      pendingResult := Function.update σ.pendingResult b (.message msg)
      timers := if σ.pc b = .trying then Function.update σ.timers b none else σ.timers
      msgState := Function.update σ.msgState msg.id .pending } := by
    rw [State.send, if_pos ⟨hready, by simp [hresult], hmatch⟩]
  have htimers : ∀ c, (σ.send b msg).timers c = if c = b then none else σ.timers c := by
    intro c
    rw [hsend]
    dsimp only
    split_ifs with htrying hc hc
    · simp [hc]
    · simp [hc]
    · -- an actor that is in no timed receive has no timer
      rw [hc]
      by_contra hn
      obtain ⟨u, hu⟩ := Option.ne_none_iff_exists'.mp hn
      exact htrying (h.inv.timer b u hu).2.2.1
    · rfl
  have hnext : State.Next timeoutDelay σ (σ.send b msg) := .send b msg hunused hlive
  have hchanges := changesCall_delivered msg r e value hactor
  have hcall := delivered_receives (s := s) (b := b) msg r e value
  have hnow := delivered_actors msg r e value hactor
  refine ⟨⟨h.inv.next hnext, h.raising, h.refs, fun c _ => ?_, h.timers, ?_, ?_, ?_,
    fun id hid => ?_⟩, hnext⟩
  · refine h.weaken.views_of (a := b) (fun c hc => hchanges.view_of_ne hc) (fun c hc => ?_) ?_ c
    · simp only [specView, htimers, if_neg hc]
      simp [hsend, hc]
    · refine .scheduled (userMessages (s.actors b).mailbox) past r
        ((delivered s b msg r e value).receives r) (.message msg)
        ((hchanges.view_self (congrArg View.calls hv)).trans ?_) hpast hcount ⟨?_, ?_, ?_⟩ ?_
      · have hqueued : s.ready.filter (fun h => handleActor s h = b) = [] := congrArg View.queued hv
        have hready : (delivered s b msg r e value).ready = s.ready ++ [.receive r] := rfl
        rw [hnow, if_pos rfl, hv, hready, List.filter_append, hqueued]
        simp [handleActor, hactor]
      · rw [hcall, if_pos rfl]
      · rw [hcall, if_pos rfl]
        cases (s.receives r).active <;> simp
      · rw [hcall, if_pos rfl]
        simp [observationsOf, hx.outcomes, observation, he]
      · have hbox : σ.mailboxes b = userMessages (s.actors b).mailbox := congrArg SpecView.box hw
        have hobs : σ.observations b = observed past := congrArg SpecView.observations hw
        simp only [specView, htimers, if_pos]
        simp [hsend, hpc, hbox, hobs, pendingOf]
  · refine h.clock.clear (a := b) (h.armed_clear hpending (Or.inl rfl) (fun r' hne => ?_) ?_)
      hchanges.receives_actor htimers (by rw [hsend])
    · rw [hcall, if_neg hne]
    · rw [hcall, if_pos rfl]
      cases (s.receives r).active <;> simp
  · rw [hsend]
    exact h.links
  · rw [hsend]
    exact h.monitors
  · have henqueued : ∀ c, ((delivered s b msg r e value).actors c).enqueued =
        ((s.pushMessage b (.user msg)).actors c).enqueued := by
      intro c
      rw [hnow, Runtime.pushMessage, Runtime.updateActor_actors]
      split_ifs <;> rfl
    rw [alreadySent_congr (s := s.pushMessage b (.user msg)) (t := delivered s b msg r e value) rfl
      henqueued]
    by_cases hne : id = msg.id
    · rw [hne]
      exact alreadySent_pushMessage_self (h.lt hregistered).1
    · refine alreadySent_pushMessage (h.sent id ?_)
      simpa [hsend, hne] using hid

section Expired

omit [DecidableEq I]

variable {r : ℕ} (value : R)

/-- The timer callback is over: its receive is scheduled. -/
def expired (s : Runtime (Msg I P) R) (r : ℕ) (value : R) : Runtime (Msg I P) R :=
  (s.fireTimer r).timeoutReturned [] r value

lemma expired_receives (hactive : (s.receives r).active = some true) (r' : ℕ) :
    (expired s r value).receives r' =
      if r' = r then
        { s.receives r with
          storage := some value
          active := some false
          outcomes := (s.receives r).outcomes ++ [.timeout]
          scheduled := (s.receives r).scheduled + 1
          stage := .scheduled }
      else s.receives r' := by
  by_cases hr : r' = r
  · simp [expired, Runtime.timeoutReturned, Runtime.schedule, Runtime.fireTimer, hactive, hr]
  · simp [expired, Runtime.timeoutReturned, Runtime.schedule, Runtime.fireTimer, hactive, hr]

lemma expired_actors (hactive : (s.receives r).active = some true)
    (hactor : (s.receives r).actor = b) (c : ActorRef) :
    (expired s r value).actors c =
      if c = b then { s.actors b with pending := none } else s.actors c := by
  by_cases hc : c = b
  · simp [expired, Runtime.timeoutReturned, Runtime.schedule, Runtime.fireTimer, hactive, hactor,
      hc]
  · simp [expired, Runtime.timeoutReturned, Runtime.schedule, Runtime.fireTimer, hactive, hactor,
      hc]

lemma expired_frame (hactive : (s.receives r).active = some true) :
    (expired s r value).sched = s.sched ∧ (expired s r value).nextReceive = s.nextReceive ∧
      (expired s r value).ready = s.ready ++ [.receive r] ∧
      (expired s r value).timers = s.timers.erase r ∧ (expired s r value).raising = s.raising := by
  simp only [expired, Runtime.timeoutReturned, Runtime.schedule, Runtime.fireTimer, hactive,
    if_true]
  exact ⟨rfl, rfl, rfl, rfl, rfl⟩

lemma changesCall_expired (hactive : (s.receives r).active = some true)
    (hactor : (s.receives r).actor = b) :
    ChangesCall s (expired s r value) b r ((expired s r value).receives r) where
  sched := (expired_frame value hactive).1
  nextReceive := (expired_frame value hactive).2.1
  actors c hc := by rw [expired_actors value hactive hactor, if_neg hc]
  receives r' := by
    by_cases hr : r' = r
    · rw [hr, if_pos rfl]
    · rw [expired_receives value hactive, if_neg hr, if_neg hr]
  actor := hactor
  same := by rw [expired_receives value hactive, if_pos rfl, ← hactor]
  ready c hc := by
    rw [(expired_frame value hactive).2.2.1, List.filter_append]
    simp [handleActor, hactor, Ne.symm hc]

end Expired

/-- Time goes on to the deadline of the first armed timer. -/
lemma Corresponds.advance {u : ℕ} (h : Corresponds kinds timeoutDelay s σ none)
    (hmin : ∀ b t, σ.timers b = some t → u ≤ t) (hle : σ.time ≤ u) :
    Corresponds kinds timeoutDelay s { σ with time := u } none :=
  { h with
    inv := h.inv.advanceTime hmin
    views := h.views
    clock := h.clock.advance hle }

/-- The first armed timer has expired, and the timeout visitor of its receive has returned. -/
lemma Corresponds.resumedByTimeout {r : ℕ} {timers : List ℕ}
    (h : Corresponds kinds timeoutDelay s σ none) (htimers : s.timers = r :: timers)
    (hactive : (s.receives r).active = some true) (value : R) :
    ∃ τ, Relation.ReflTransGen (State.Next timeoutDelay) σ τ ∧
      Corresponds kinds timeoutDelay (expired s r value) τ none := by
  have harmed : armed s = r :: timers.filter fun r => (s.receives r).active = some true := by
    rw [armed, htimers]
    exact List.filter_cons_of_pos (decide_eq_true hactive)
  have hmem : r ∈ armed s := harmed ▸ List.mem_cons_self
  -- the timers of the code are in the order of the deadlines of the specification
  obtain ⟨u, hu, -⟩ := h.clock.deadline r hmem
  have hmin := h.clock.first harmed hu
  have hle : σ.time ≤ u := (h.inv.timer _ u hu).2.2.2
  have hadvance : Relation.ReflTransGen (State.Next timeoutDelay) σ { σ with time := u } := by
    rcases hle.eq_or_lt with heq | hlt
    · rw [← heq]
    · exact .single (.advanceTime (s.receives r).actor u hu hlt hmin)
  have hpending := h.armed_pending hmem
  obtain ⟨b, hactor⟩ : ∃ b, (s.receives r).actor = b := ⟨_, rfl⟩
  rw [hactor] at hu hpending
  obtain ⟨past, hv, hpast, hcount, hx, hw, -, -⟩ := h.blocked hpending
  obtain ⟨hlive, hready, hpc, -⟩ := h.inv.timer b u hu
  have hresult : σ.pendingResult b = .noPending := congrArg SpecView.pendingResult hw
  have hfire : State.Next timeoutDelay { σ with time := u }
      (State.timeoutFire { σ with time := u } b) := .timeoutFire b hlive hready hpc hresult hu
  have hnow := h.advance hmin hle
  have hchanges := changesCall_expired value hactive hactor
  have hcall := expired_receives (s := s) (r := r) value hactive
  obtain ⟨hsched, hnext, hhandles, herase, hraising⟩ :=
    expired_frame (s := s) (r := r) value hactive
  refine ⟨_, hadvance.tail hfire, ⟨hnow.inv.next hfire, ?_, ?_, fun c _ => ?_, ?_, ?_, ?_, ?_,
    fun id hid => ?_⟩⟩
  · rw [hraising]
    exact h.raising
  · rw [hsched]
    exact h.refs
  · refine h.weaken.views_of (a := b) (fun c hc => hchanges.view_of_ne hc) (fun c hc => ?_) ?_ c
    · simp [specView, State.timeoutFire, hc]
    · refine .scheduled (userMessages (s.actors b).mailbox) past r
        ((expired s r value).receives r) .timeoutToken
        ((hchanges.view_self (congrArg View.calls hv)).trans ?_) hpast hcount ⟨?_, ?_, ?_⟩ ?_
      · have hqueued : s.ready.filter (fun h => handleActor s h = b) = [] := congrArg View.queued hv
        rw [expired_actors value hactive hactor, if_pos rfl, hv, hhandles, List.filter_append,
          hqueued]
        simp [handleActor, hactor]
      · rw [hcall, if_pos rfl]
      · rw [hcall, if_pos rfl]
        simp
      · rw [hcall, if_pos rfl]
        simp [observationsOf, hx.outcomes, observation]
      · have hpc : σ.pc b = pcAfter (kinds b) past.length := congrArg SpecView.pc hw
        have hbox : σ.mailboxes b = userMessages (s.actors b).mailbox := congrArg SpecView.box hw
        have hobs : σ.observations b = observed past := congrArg SpecView.observations hw
        simp [specView, State.timeoutFire, hpc, hbox, hobs, pendingOf]
  · rw [herase, hnext]
    exact fun r' hr' => h.timers r' (List.mem_of_mem_erase hr')
  · refine hnow.clock.clear (a := b) (h.armed_clear hpending (Or.inr ?_) (fun r' hne => ?_) ?_)
      hchanges.receives_actor (fun c => Function.update_apply _ _ _ _) rfl
    · rw [herase, htimers, List.erase_cons_head]
    · rw [hcall, if_neg hne]
    · rw [hcall, if_pos rfl]
      simp
  · rw [hsched]
    exact h.links
  · rw [hsched]
    exact h.monitors
  · rw [alreadySent_congr (s := s) (by rw [hsched])]
    · exact h.sent id hid
    · intro c
      rw [expired_actors value hactive hactor]
      split_ifs with hc
      · rw [hc]
      · rfl

end Projection

end Agner
