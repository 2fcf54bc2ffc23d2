import Agner.Task.Schedules
import Mathlib.Data.List.Intervals

/-!
Awaiting tasks has the meaning of calling them.

* `reaches_call`: at the end of a child its outcome is stored, the parent resumed with it, and the
  frame destroyed.
* `ends_direct`: code that runs on top of continuations that have nothing more to do than to return
  reaches the end that direct evaluation gives it, with the same calls behind it and the frames as
  they were.
* `awaits_are_calls`: whatever the order of steps, a detached program ends, and when it has ended
  its tasks have ended as direct evaluation says.
-/

namespace Agner

namespace Tasks

open Runs Machine

variable {V E X : Type}

/-- The task that the event happens to. -/
def Event.task : Event V E → ℕ
  | .stored t _ | .resumed _ t | .destroyedByOwner t | .destroyedAtFinal t => t

/-- What happens to the task that a call creates. -/
def Call.events (c : Call V E) : List (Event V E) :=
  [.stored c.callee c.outcome, .resumed c.caller c.callee, .destroyedByOwner c.callee]

lemma flatMap_events_concat (calls : List (Call V E)) (c : Call V E) :
    (calls ++ [c]).flatMap Call.events = calls.flatMap Call.events ++ c.events := by
  rw [List.flatMap_append, List.flatMap_cons, List.flatMap_nil, List.append_nil]

/-- Code that ends in this way at once. -/
def Flow.code : Flow V E → Code V E X
  | .value v => .value v
  | .returned v => .coReturn v
  | .thrown e => .throw e

/-- The scopes `after` are those that are left when the block inside `scopes` has ended; a
`co_return` does not leave them one by one. -/
def Flow.Leaves (scopes after : List (Scope V E X)) : Flow V E → Prop
  | .returned _ => True
  | .value _ | .thrown _ => after = scopes

lemma continuation_store (isVoid : Bool) (p : Promise V E) (outcome : Except E V) :
    (p.store isVoid outcome).continuation = p.continuation := by
  cases outcome <;> cases isVoid <;> rfl

lemma detached_store (isVoid : Bool) (p : Promise V E) (outcome : Except E V) :
    (p.store isVoid outcome).detached = p.detached := by
  cases outcome <;> cases isVoid <;> rfl

/-- Activations that only have to return. -/
def Returns (stack : List (Activation V E X)) : Prop := ∀ a ∈ stack, ∃ t, a = .resumed t

lemma Returns.cons {rest : List (Activation V E X)} (h : Returns rest) (t : ℕ) :
    Returns (.resumed t :: rest) := List.forall_mem_cons.mpr ⟨⟨t, rfl⟩, h⟩

/-! ### Calls -/

/-- Calls that have been made one after the other. -/
lemma callees_append {calls calls' : List (Call V E)} {a b c : ℕ} (hab : a ≤ b) (hbc : b ≤ c)
    (h : (calls.map Call.callee).Perm (List.Ico a b))
    (h' : (calls'.map Call.callee).Perm (List.Ico b c)) :
    ((calls ++ calls').map Call.callee).Perm (List.Ico a c) := by
  rw [List.map_append, ← List.Ico.append_consecutive hab hbc]
  exact h.append h'

/-- A call follows the calls that it has made. -/
lemma callees_concat {calls : List (Call V E)} {c : Call V E} {b : ℕ} (hb : c.callee < b)
    (h : (calls.map Call.callee).Perm (List.Ico (c.callee + 1) b)) :
    ((calls ++ [c]).map Call.callee).Perm (List.Ico c.callee b) := by
  rw [List.Ico.eq_cons hb, List.map_append]
  exact (h.append_right [c.callee]).trans (List.perm_append_singleton _ _)

lemma task_of_mem_events {c : Call V E} {e : Event V E} (he : e ∈ c.events) :
    e.task = c.callee := by
  simp only [Call.events, List.mem_cons, List.not_mem_nil, or_false] at he
  rcases he with rfl | rfl | rfl <;> rfl

lemma filter_events_of_notMem {calls : List (Call V E)} {t : ℕ} (ht : t ∉ calls.map Call.callee) :
    (calls.flatMap Call.events).filter (·.task = t) = [] := by
  rw [List.filter_eq_nil_iff]
  intro e he
  obtain ⟨c, hc, he⟩ := List.mem_flatMap.mp he
  have hne : c.callee ≠ t := fun h => ht (h ▸ List.mem_map_of_mem hc)
  simpa [task_of_mem_events he] using hne

/-- The events of a task are those of its call. -/
lemma filter_events {calls : List (Call V E)} (hnodup : (calls.map Call.callee).Nodup)
    {c : Call V E} (hc : c ∈ calls) :
    (calls.flatMap Call.events).filter (·.task = c.callee) = c.events := by
  induction calls with
  | nil => cases hc
  | cons c' calls ih =>
      rw [List.map_cons, List.nodup_cons] at hnodup
      rw [List.flatMap_cons, List.filter_append]
      rcases List.mem_cons.mp hc with rfl | hc
      · rw [filter_events_of_notMem hnodup.1]
        simp [Call.events, Event.task]
      · have hne : c'.callee ≠ c.callee := fun h => hnodup.1 (h ▸ List.mem_map_of_mem hc)
        rw [ih hnodup.2 hc]
        simp [Call.events, Event.task, hne]

/-! ### Steps -/

/-- The machine that executes `code` in the coroutine `t` on top of `rest`. -/
def executing (frames : ℕ → Option (Frame V E X)) (t : ℕ) (code : Code V E X)
    (scopes : List (Scope V E X)) (rest : List (Activation V E X)) (asked next : ℕ)
    (events : List (Event V E)) : Machine V E X where
  frames := frames
  next := next
  stack := .running t code scopes :: rest
  asked := asked
  events := events

/-- A coroutine that is resumed is as it was before it has been suspended. -/
lemma update_running {frames : ℕ → Option (Frame V E X)} {t : ℕ} {f : Frame V E X}
    (hf : frames t = some f) (hrunning : f.point = .running) :
    Function.update frames t (some { f with point := .running }) = frames := by
  rw [← hrunning, ← hf, Function.update_eq_self]

section Handles

variable (answers : ℕ → X)

/-- The final suspension of a task that is awaited. -/
lemma awaitSuspendFinal_eq {s : Machine V E X} {t parent : ℕ} {f : Frame V E X}
    (hf : s.frames t = some f) (hparent : f.promise.continuation = some parent)
    {rest : List (Activation V E X)} :
    s.awaitSuspendFinal answers t rest = s.resume answers parent (.resumed t :: rest) := by
  simp only [awaitSuspendFinal, hf, Option.bind_some, hparent]

/-- The final suspension of a task that is detached. -/
lemma awaitSuspendFinal_detached {s : Machine V E X} {t : ℕ} {f : Frame V E X}
    (hf : s.frames t = some f) (hparent : f.promise.continuation = none)
    (hdetached : f.promise.detached = true) (hpoint : f.point = .final)
    {rest : List (Activation V E X)} :
    s.awaitSuspendFinal answers t rest = some
      { s with
        frames := Function.update s.frames t none
        stack := rest
        events := s.events ++ [.destroyedAtFinal t] } := by
  simp only [awaitSuspendFinal, hf, Option.bind_some, hparent, hdetached, if_true, destroy, hpoint,
    Option.map_some]

/-- A coroutine that awaits a task is resumed. -/
lemma resume_awaiting {s : Machine V E X} {t child : ℕ} {f : Frame V E X}
    {k : V → Code V E X} {scopes : List (Scope V E X)} (hf : s.frames t = some f)
    (hpoint : f.point = .awaiting child k scopes) {rest : List (Activation V E X)} :
    s.resume answers t rest = some
      { s.setFrame t { f with point := .running } with
        stack := .resuming t child k scopes :: rest
        events := s.events ++ [.resumed t child] } := by
  simp only [resume, hf, Option.bind_some, hpoint]

end Handles

variable [Inhabited V]

/-- What has been stored in the promise of an awaited task is what `await_resume` finds. -/
lemma take_store (isVoid : Bool) (continuation : ℕ) (outcome : Except E V) :
    (Promise.store isVoid { continuation := some continuation } outcome).take isVoid =
      some (outcome.map (seen isVoid)) := by
  cases outcome <;> cases isVoid <;> rfl

section Execution

variable (answers : ℕ → X)

/-- A call takes the next number, and the later ones are used by what it calls. -/
lemma next_le_direct (code : Code V E X) (self asked next : ℕ) :
    next ≤ (direct answers code self asked next).next := by
  induction code generalizing self asked next with
  | value v => exact le_rfl
  | coReturn v => exact le_rfl
  | throw e => exact le_rfl
  | coAwait isVoid body k ihbody ihk =>
      have hcallee := ihbody next asked (next + 1)
      simp only [direct]
      split
      next v _ => exact (Nat.le_of_succ_le hcallee).trans (ihk v ..)
      next e _ => exact Nat.le_of_succ_le hcallee
  | external k ih => exact ih _ self (asked + 1) next
  | tryCatch block handles handler k ihblock ihhandler ihk =>
      have htried := ihblock self asked next
      simp only [direct]
      split
      next v _ => exact htried.trans (ihk v ..)
      next => exact htried
      next e _ =>
        split_ifs
        · have hhandled := htried.trans (ihhandler e self
            (direct answers block self asked next).asked
            (direct answers block self asked next).next)
          split
          next v _ => exact hhandled.trans (ihk v ..)
          all_goals exact hhandled
        · exact htried

/-- What is on top of the stack goes on. -/
lemma reaches_of_go {s t u : Machine V E X} (h : s.go answers = some t)
    (htu : Reaches (step answers) t u) : Reaches (step answers) s u := .head .go h htu

/-- They return. -/
lemma reaches_returned {rest : List (Activation V E X)} (h : Returns rest) (s : Machine V E X)
    (hs : s.stack = rest) : Reaches (step answers) s { s with stack := [] } := by
  induction rest generalizing s with
  | nil => exact hs ▸ .refl s
  | cons a rest ih =>
      obtain ⟨⟨t, rfl⟩, hrest⟩ := List.forall_mem_cons.mp h
      have hgo : step answers s .go = some { s with stack := rest } := by
        simp only [step, go, hs]
      exact .head .go hgo (ih hrest { s with stack := rest } rfl)

/-- The end of a body. -/
lemma go_of_leaves {s : Machine V E X} {t : ℕ} {flow : Flow V E} {left : List (Scope V E X)}
    {rest : List (Activation V E X)} (hs : s.stack = .running t flow.code left :: rest)
    (hleft : flow.Leaves [] left) : s.go answers = s.finish t rest flow.outcome := by
  cases flow with
  | value v =>
      obtain rfl : left = [] := hleft
      simp only [go, hs, Flow.code, Flow.outcome]
  | returned v => simp only [go, hs, Flow.code, Flow.outcome]
  | thrown e =>
      obtain rfl : left = [] := hleft
      simp only [go, hs, Flow.code, Flow.outcome]

lemma finish_eq {s : Machine V E X} {t : ℕ} {f : Frame V E X} (hf : s.frames t = some f)
    {rest : List (Activation V E X)} {outcome : Except E V} :
    s.finish t rest outcome = some
      { s.setFrame t { f with promise := f.promise.store f.isVoid outcome, point := .final } with
        stack := .final t :: rest
        events := s.events ++ [.stored t (outcome.map (seen f.isVoid))] } := by
  rw [finish, hf, Option.map_some]

lemma awaitResume_eq {s : Machine V E X} {t child : ℕ} {f : Frame V E X} {outcome : Except E V}
    {k : V → Code V E X} {scopes : List (Scope V E X)} (hf : s.frames child = some f)
    (htake : f.promise.take f.isVoid = some outcome) (hpoint : f.point = .final)
    {rest : List (Activation V E X)} :
    s.awaitResume t child k scopes rest = some
      { s with
        frames := Function.update s.frames child none
        stack := .running t (.afterCall k outcome) scopes :: rest
        events := s.events ++ [.destroyedByOwner child] } := by
  simp only [awaitResume, hf, Option.bind_some, htake, destroy, hpoint, Option.map_some]

/-- The end of the body of a child: its outcome is stored, the parent is resumed with it and
destroys the frame. -/
lemma reaches_call {frames : ℕ → Option (Frame V E X)} {t child : ℕ} {f : Frame V E X}
    (hf : frames t = some f) (hrunning : f.point = .running) (hchild : frames child = none)
    (isVoid : Bool) (k : V → Code V E X) (scopes : List (Scope V E X)) (flow : Flow V E)
    {left : List (Scope V E X)} (hleft : flow.Leaves [] left) (next asked : ℕ)
    (rest : List (Activation V E X)) (events : List (Event V E)) :
    Reaches (step answers)
      (executing (Function.update
          (Function.update frames t (some { f with point := .awaiting child k scopes })) child
          (some { isVoid := isVoid, promise := { continuation := some t }, point := .running }))
        child flow.code left rest asked next events)
      (executing frames t (Code.afterCall k (flow.outcome.map (seen isVoid))) scopes
        (.resumed child :: rest) asked next
        (events ++ Call.events ⟨t, child, flow.outcome.map (seen isVoid)⟩)) := by
  have hne : t ≠ child := by
    rintro rfl
    rw [hf] at hchild
    cases hchild
  let awaiting : Frame V E X := { f with point := .awaiting child k scopes }
  let ended : Frame V E X :=
    { isVoid := isVoid
      promise := Promise.store isVoid { continuation := some t } flow.outcome
      point := .final }
  have hback := update_running hf hrunning
  -- the child's outcome is stored
  refine reaches_of_go answers (t :=
    { frames := Function.update (Function.update frames t (some awaiting)) child (some ended)
      next := next
      stack := .final child :: rest
      asked := asked
      events := events ++ [.stored child (flow.outcome.map (seen isVoid))] }) ?_ ?_
  · rw [go_of_leaves answers rfl hleft, finish_eq (Function.update_self ..), setFrame,
      executing, Function.update_idem]
  -- its final suspension resumes the parent
  refine reaches_of_go answers (t :=
    { frames := Function.update frames child (some ended)
      next := next
      stack := .resuming t child k scopes :: .resumed child :: rest
      asked := asked
      events := events ++
        [.stored child (flow.outcome.map (seen isVoid)), .resumed t child] }) ?_ ?_
  · have hparent : Function.update (Function.update frames t (some awaiting)) child (some ended) t
        = some awaiting := by
      rw [Function.update_of_ne hne, Function.update_self]
    change awaitSuspendFinal answers _ child rest = _
    rw [awaitSuspendFinal_eq answers (Function.update_self ..) (continuation_store ..),
      resume_awaiting answers hparent rfl, setFrame, Function.update_comm hne.symm,
      Function.update_idem, hback, List.append_assoc]
    rfl
  -- the parent takes the outcome and destroys the child
  refine reaches_of_go answers
    (awaitResume_eq (Function.update_self ..) (take_store isVoid t flow.outcome) rfl) ?_
  have hdestroyed :
      Function.update (Function.update frames child (some ended)) child none = frames := by
    rw [Function.update_idem, ← hchild, Function.update_eq_self]
  rw [hdestroyed, List.append_assoc]
  exact .refl _

/-- From `s` the end that the evaluation `d` gives to the code of the coroutine `t` is reached, the
frames being what they were. -/
def Ends (frames : ℕ → Option (Frame V E X)) (t : ℕ) (scopes : List (Scope V E X))
    (d : Eval V E) (events : List (Event V E)) (s : Machine V E X) : Prop :=
  ∃ rest left, Returns rest ∧ d.flow.Leaves scopes left ∧
    Reaches (step answers) s (executing frames t d.flow.code left rest d.asked d.next
      (events ++ d.calls.flatMap Call.events))

lemma Ends.head {frames : ℕ → Option (Frame V E X)} {t : ℕ} {scopes : List (Scope V E X)}
    {d : Eval V E} {events : List (Event V E)} {s s' : Machine V E X}
    (hs : Reaches (step answers) s s') (h : Ends answers frames t scopes d events s') :
    Ends answers frames t scopes d events s := by
  obtain ⟨rest, left, hrest, hleft, hend⟩ := h
  exact ⟨rest, left, hrest, hleft, hs.trans hend⟩

lemma Ends.of_go {frames : ℕ → Option (Frame V E X)} {t : ℕ} {scopes : List (Scope V E X)}
    {d : Eval V E} {events : List (Event V E)} {s s' : Machine V E X}
    (hs : s.go answers = some s') (h : Ends answers frames t scopes d events s') :
    Ends answers frames t scopes d events s :=
  h.head answers (reaches_of_go answers hs (.refl s'))

/-- The rest of the code comes after the calls that have ended. -/
lemma Ends.after {frames : ℕ → Option (Frame V E X)} {t : ℕ} {scopes : List (Scope V E X)}
    {d : Eval V E} {events : List (Event V E)} {calls : List (Call V E)} {s : Machine V E X}
    (h : Ends answers frames t scopes d (events ++ calls.flatMap Call.events) s) :
    Ends answers frames t scopes (d.after calls) events s := by
  obtain ⟨rest, left, hrest, hleft, hend⟩ := h
  refine ⟨rest, left, hrest, hleft, ?_⟩
  rw [List.append_assoc, ← List.flatMap_append] at hend
  exact hend

/-- A coroutine is suspended on an external awaiter, its handle is scheduled, and it goes on with
the answer. -/
lemma reaches_answered {frames : ℕ → Option (Frame V E X)} {t : ℕ} {f : Frame V E X}
    (hf : frames t = some f) (hrunning : f.point = .running) (k : X → Code V E X)
    (scopes : List (Scope V E X)) {rest : List (Activation V E X)} (hrest : Returns rest)
    (asked next : ℕ) (events : List (Event V E)) :
    Reaches (step answers) (executing frames t (.external k) scopes rest asked next events)
      (executing frames t (k (answers asked)) scopes [] (asked + 1) next events) := by
  let suspended : Machine V E X :=
    { frames := Function.update frames t (some { f with point := .external asked k scopes })
      next := next
      asked := asked + 1
      events := events }
  have hsuspend : go answers (executing frames t (.external k) scopes rest asked next events) =
      some { suspended with stack := rest, waiting := [t] } := by
    simp only [go, executing, suspend, hf, Option.map_some, setFrame, List.nil_append, suspended]
  have hwake : step answers { suspended with waiting := [t] } (.wake t) =
      some { suspended with ready := [t] } := by
    simp only [step, List.mem_singleton, if_true, List.erase_cons_head, suspended, List.nil_append]
  have hresume : step answers { suspended with ready := [t] } .resume =
      some (executing frames t (k (answers asked)) scopes [] (asked + 1) next events) := by
    have hback := update_running hf hrunning
    simp only [step, resume, Function.update_self, Option.bind_some, setFrame, suspended,
      Function.update_idem, hback, executing]
  exact reaches_of_go answers hsuspend
    ((reaches_returned answers hrest { suspended with stack := rest, waiting := [t] } rfl).trans
      (.head (.wake t) hwake (.of_step hresume)))

/-- A child task is created and runs. -/
lemma go_coAwait {frames : ℕ → Option (Frame V E X)} {t : ℕ} {f : Frame V E X}
    (hf : frames t = some f) (isVoid : Bool) (body : Code V E X) (k : V → Code V E X)
    (scopes : List (Scope V E X)) (rest : List (Activation V E X)) (asked next : ℕ)
    (events : List (Event V E)) :
    go answers (executing frames t (.coAwait isVoid body k) scopes rest asked next events) =
      some (executing (Function.update
          (Function.update frames t (some { f with point := .awaiting next k scopes })) next
          (some { isVoid := isVoid, promise := { continuation := some t }, point := .running }))
        next body [] rest asked (next + 1) events) := by
  simp only [go, executing, await, hf, Option.map_some, setFrame]

/-- A handler catches an exception, and runs in the scope of what comes after it. -/
lemma go_caught {handles : E → Bool} {e : E} (h : handles e = true)
    (frames : ℕ → Option (Frame V E X)) (t : ℕ) (handler : E → Code V E X) (k : V → Code V E X)
    (scopes : List (Scope V E X)) (rest : List (Activation V E X)) (asked next : ℕ)
    (events : List (Event V E)) :
    go answers (executing frames t (.throw e) (.catching handles handler k :: scopes) rest asked
      next events) =
      some (executing frames t (handler e) (.seq k :: scopes) rest asked next events) := by
  simp only [go, executing, h, if_true]

lemma go_uncaught {handles : E → Bool} {e : E} (h : handles e = false)
    (frames : ℕ → Option (Frame V E X)) (t : ℕ) (handler : E → Code V E X) (k : V → Code V E X)
    (scopes : List (Scope V E X)) (rest : List (Activation V E X)) (asked next : ℕ)
    (events : List (Event V E)) :
    go answers (executing frames t (.throw e) (.catching handles handler k :: scopes) rest asked
      next events) = some (executing frames t (.throw e) scopes rest asked next events) := by
  simp only [go, executing, h, Bool.false_eq_true, if_false]

/-- The end of direct evaluation is reached. -/
lemma ends_direct (code : Code V E X) {frames : ℕ → Option (Frame V E X)} {t : ℕ}
    {f : Frame V E X} (hf : frames t = some f) (hrunning : f.point = .running)
    {rest : List (Activation V E X)} (hrest : Returns rest) {asked next : ℕ}
    (hnext : ∀ i, next ≤ i → frames i = none) (scopes : List (Scope V E X))
    (events : List (Event V E)) :
    Ends answers frames t scopes (direct answers code t asked next) events
      (executing frames t code scopes rest asked next events) := by
  induction code generalizing frames t f rest asked next scopes events with
  | value v => exact ⟨rest, scopes, hrest, rfl, by simpa [direct, Flow.code] using .refl _⟩
  | coReturn v => exact ⟨rest, scopes, hrest, trivial, by simpa [direct, Flow.code] using .refl _⟩
  | throw e => exact ⟨rest, scopes, hrest, rfl, by simpa [direct, Flow.code] using .refl _⟩
  | coAwait isVoid body k ihbody ihk =>
      have hle := next_le_direct answers body next asked (next + 1)
      -- the parent has been created before its child
      have hbelow : t < next := by
        by_contra h
        rw [hnext t (not_lt.mp h)] at hf
        cases hf
      have hbody : Ends answers _ next [] (direct answers body next asked (next + 1)) events
          (executing (Function.update
              (Function.update frames t (some { f with point := .awaiting next k scopes })) next
              (some { isVoid := isVoid, promise := { continuation := some t }, point := .running }))
            next body [] rest asked (next + 1) events) :=
        ihbody (Function.update_self ..) rfl hrest
          (fun i hi => by
            rw [Function.update_of_ne (by omega), Function.update_of_ne (by omega)]
            exact hnext i (by omega))
          [] events
      obtain ⟨rest₁, left₁, hrest₁, hleft₁, hbody⟩ := hbody
      have hreturned := hbody.trans (reaches_call answers hf hrunning (hnext next le_rfl) isVoid k
        scopes _ hleft₁ _ _ rest₁ _)
      rw [List.append_assoc, ← flatMap_events_concat] at hreturned
      refine .of_go answers (go_coAwait answers hf ..) (.head answers hreturned ?_)
      simp only [direct]
      split
      -- the parent goes on with the value, or the exception is thrown where it awaits
      next v hok =>
        rw [hok]
        exact .after answers
          (ihk v hf hrunning (hrest₁.cons next) (fun i hi => hnext i (by omega)) scopes _)
      next e herror =>
        rw [herror]
        exact ⟨.resumed next :: rest₁, scopes, hrest₁.cons next, rfl, .refl _⟩
  | external k ih =>
      exact .head answers (reaches_answered answers hf hrunning k scopes hrest asked next events)
        (ih (answers asked) hf hrunning (List.forall_mem_nil _) hnext scopes events)
  | tryCatch block handles handler k ihblock ihhandler ihk =>
      have htried : Ends answers frames t (.catching handles handler k :: scopes)
          (direct answers block t asked next) events
          (executing frames t block (.catching handles handler k :: scopes) rest asked next
            events) :=
        ihblock hf hrunning hrest hnext _ events
      have hle := next_le_direct answers block t asked next
      refine .of_go answers rfl ?_
      obtain ⟨rest₁, left₁, hrest₁, hleft₁, htried⟩ := htried
      refine .head answers htried ?_
      simp only [direct]
      split
      next v hflow =>
        rw [hflow] at hleft₁ ⊢
        obtain rfl := hleft₁
        exact .of_go answers rfl (.after answers
          (ihk v hf hrunning hrest₁ (fun i hi => hnext i (hle.trans hi)) scopes _))
      next v hflow =>
        exact ⟨rest₁, left₁, hrest₁, by rw [hflow]; trivial, .refl _⟩
      next e hflow =>
        rw [hflow] at hleft₁
        obtain rfl := hleft₁
        split_ifs with hhandles
        · -- the handler runs in place of the rest of the block
          have hhandled : Ends answers frames t (.seq k :: scopes)
              ((direct answers (handler e) t (direct answers block t asked next).asked
                (direct answers block t asked next).next).after
                (direct answers block t asked next).calls) events _ :=
            .after answers (ihhandler e hf hrunning hrest₁ (fun i hi => hnext i (hle.trans hi)) _ _)
          rw [hflow]
          refine .of_go answers (go_caught answers hhandles ..) ?_
          have hle' := hle.trans (next_le_direct answers (handler e) t
            (direct answers block t asked next).asked (direct answers block t asked next).next)
          obtain ⟨rest₂, left₂, hrest₂, hleft₂, hhandled⟩ := hhandled
          refine .head answers hhandled ?_
          split
          next v hflow' =>
            rw [hflow'] at hleft₂ ⊢
            obtain rfl := hleft₂
            exact .of_go answers rfl (.after answers
              (ihk v hf hrunning hrest₂ (fun i hi => hnext i (hle'.trans hi)) scopes _))
          next v hflow' =>
            exact ⟨rest₂, left₂, hrest₂, by rw [hflow']; trivial, .refl _⟩
          next e' hflow' =>
            rw [hflow'] at hleft₂
            obtain rfl := hleft₂
            refine ⟨rest₂, scopes, hrest₂, by rw [hflow']; rfl, ?_⟩
            rw [hflow']
            exact reaches_of_go answers rfl (.refl _)
        · refine ⟨rest₁, scopes, hrest₁, by rw [hflow]; rfl, ?_⟩
          rw [hflow]
          exact reaches_of_go answers (go_uncaught answers (by simpa using hhandles) ..) (.refl _)

/-- Every number is that of one call. -/
lemma callees_direct (code : Code V E X) (self asked next : ℕ) :
    ((direct answers code self asked next).calls.map Call.callee).Perm
      (List.Ico next (direct answers code self asked next).next) := by
  induction code generalizing self asked next with
  | value v => exact .of_eq (List.Ico.self_empty ..).symm
  | coReturn v => exact .of_eq (List.Ico.self_empty ..).symm
  | throw e => exact .of_eq (List.Ico.self_empty ..).symm
  | coAwait isVoid body k ihbody ihk =>
      have hle := next_le_direct answers body next asked (next + 1)
      have hcalls := callees_concat (c := ⟨self, next,
        (direct answers body next asked (next + 1)).flow.outcome.map (seen isVoid)⟩) hle
        (ihbody next asked (next + 1))
      simp only [direct]
      split
      next v _ =>
        exact callees_append (Nat.le_of_succ_le hle) (next_le_direct answers (k v) ..) hcalls
          (ihk v ..)
      next e _ => exact hcalls
  | external k ih => exact ih _ self (asked + 1) next
  | tryCatch block handles handler k ihblock ihhandler ihk =>
      have hle := next_le_direct answers block self asked next
      have htried := ihblock self asked next
      simp only [direct]
      split
      next v _ => exact callees_append hle (next_le_direct answers (k v) ..) htried (ihk v ..)
      next => exact htried
      next e _ =>
        split_ifs
        · have hle' := next_le_direct answers (handler e) self
            (direct answers block self asked next).asked (direct answers block self asked next).next
          have hhandled := callees_append hle hle' htried (ihhandler e ..)
          split
          next v _ =>
            exact callees_append (hle.trans hle') (next_le_direct answers (k v) ..) hhandled
              (ihk v ..)
          all_goals exact hhandled
        · exact htried

/-- The machine when the detached root and everything it has called have ended. -/
def finished (isVoid : Bool) (d : Eval V E) : Machine V E X where
  next := d.next
  asked := d.asked
  events := d.calls.flatMap Call.events ++
    [.stored 0 (d.flow.outcome.map (seen isVoid)), .destroyedAtFinal 0]

/-- A detached root runs to its end. -/
lemma reaches_finished (isVoid : Bool) (body : Code V E X) :
    Reaches (step answers) (start isVoid body) (finished isVoid (direct answers body 0 0 1)) := by
  let root : Frame V E X :=
    { isVoid := isVoid, promise := { detached := true }, point := .running }
  let frames : ℕ → Option (Frame V E X) := Function.update (fun _ => none) 0 (some root)
  have hresume : step answers (start isVoid body) .resume =
      some (executing frames 0 body [] [] 0 1 []) := by
    simp only [step, start, resume, Function.update_self, Option.bind_some, setFrame,
      Function.update_idem, executing, frames, root]
  have hbody : Ends answers frames 0 [] (direct answers body 0 0 1) []
      (executing frames 0 body [] [] 0 1 []) :=
    ends_direct answers body (Function.update_self ..) rfl (List.forall_mem_nil _)
      (fun i hi => Function.update_of_ne (by omega) ..) [] []
  obtain ⟨rest, left, hrest, hleft, hbody⟩ := hbody
  refine .head .resume hresume (hbody.trans ?_)
  let ended : Frame V E X :=
    { isVoid := isVoid
      promise := Promise.store isVoid { detached := true } (direct answers body 0 0 1).flow.outcome
      point := .final }
  -- the root's outcome is stored
  refine reaches_of_go answers (t :=
    { frames := Function.update frames 0 (some ended)
      next := (direct answers body 0 0 1).next
      stack := .final 0 :: rest
      asked := (direct answers body 0 0 1).asked
      events := (direct answers body 0 0 1).calls.flatMap Call.events ++
        [.stored 0 ((direct answers body 0 0 1).flow.outcome.map (seen isVoid))] }) ?_ ?_
  · have hroot : (executing frames 0 (direct answers body 0 0 1).flow.code left rest
        (direct answers body 0 0 1).asked (direct answers body 0 0 1).next
        ([] ++ (direct answers body 0 0 1).calls.flatMap Call.events)).frames 0 = some root := rfl
    rw [go_of_leaves answers rfl hleft, finish_eq hroot]
    rfl
  -- it is destroyed at its final suspension, and what it has been resumed by returns
  have hended : Function.update frames 0 (some ended) 0 = some ended := Function.update_self ..
  refine reaches_of_go answers (awaitSuspendFinal_detached answers hended (continuation_store ..)
    (detached_store ..) rfl) ?_
  have hdestroyed : Function.update (Function.update frames 0 (some ended)) 0 none =
      fun _ => none := by
    rw [Function.update_idem, Function.update_idem]
    exact Function.update_eq_self 0 _
  rw [hdestroyed, List.append_assoc]
  exact reaches_returned answers hrest _ rfl

/-- Nothing is left to be done. -/
lemma step_finished (isVoid : Bool) (d : Eval V E) (l : Label) :
    step answers (finished isVoid d : Machine V E X) l = none := by
  cases l with
  | go => rfl
  | wake t => rfl
  | resume => rfl

end Execution

/-- All tasks of a program have ended as its evaluation says. -/
structure EndedAs (isVoid : Bool) (d : Eval V E) (s : Machine V E X) : Prop where
  /-- The tasks are the root and the calls. -/
  tasks : (0 :: d.calls.map Call.callee).Perm (List.range s.next)
  task_lt : ∀ e ∈ s.events, e.task < s.next
  /-- Of a child: its outcome has been stored, then the coroutine that awaits it has been resumed,
  then its frame has been destroyed by the task object. -/
  child : ∀ c ∈ d.calls, s.events.filter (·.task = c.callee) =
    [.stored c.callee c.outcome, .resumed c.caller c.callee, .destroyedByOwner c.callee]
  /-- Of the root: its outcome has been stored, then its frame has been destroyed at its final
  suspension. -/
  root : s.events.filter (·.task = 0) =
    [.stored 0 (d.flow.outcome.map (seen isVoid)), .destroyedAtFinal 0]
  frames : ∀ t, s.frames t = none
  stack : s.stack = []
  ready : s.ready = []
  waiting : s.waiting = []

lemma endedAs_finished (answers : ℕ → X) (isVoid : Bool) (body : Code V E X) :
    EndedAs isVoid (direct answers body 0 0 1)
      (finished isVoid (direct answers body 0 0 1) : Machine V E X) := by
  have hcallees := callees_direct answers body 0 0 1
  have hpos : 0 < (direct answers body 0 0 1).next := next_le_direct answers body 0 0 1
  have htasks : (0 :: (direct answers body 0 0 1).calls.map Call.callee).Perm
      (List.range (direct answers body 0 0 1).next) := by
    rw [← List.Ico.zero_bot, List.Ico.eq_cons hpos]
    exact hcallees.cons 0
  have hnodup := htasks.nodup_iff.mpr List.nodup_range
  rw [List.nodup_cons] at hnodup
  refine ⟨htasks, fun e he => ?_, fun c hc => ?_, ?_, fun t => rfl, rfl, rfl, rfl⟩
  · rw [finished] at he ⊢
    rw [List.mem_append, List.mem_flatMap] at he
    rcases he with ⟨c, hc, he⟩ | he
    · rw [task_of_mem_events he]
      exact List.mem_range.mp (htasks.subset (List.mem_cons_of_mem 0 (List.mem_map_of_mem hc)))
    · simp only [List.mem_cons, List.not_mem_nil, or_false] at he
      rcases he with rfl | rfl <;> exact hpos
  · have hne : (0 : ℕ) ≠ c.callee := fun h => hnodup.1 (List.mem_map.mpr ⟨c, hc, h.symm⟩)
    rw [finished, List.filter_append, filter_events hnodup.2 hc]
    simp [Call.events, Event.task, hne]
  · rw [finished, List.filter_append, filter_events_of_notMem hnodup.1]
    rfl

/-- Whatever the order of steps, a detached program ends, and when it has ended its tasks have
ended as direct evaluation says. -/
theorem awaits_are_calls (answers : ℕ → X) (isVoid : Bool) (body : Code V E X) :
    ∃ n, ∀ labels s, run (step answers) (start isVoid body) labels = some s →
      labels.length ≤ n ∧
        ((∀ l, step answers s l = none) → EndedAs isVoid (direct answers body 0 0 1) s) := by
  obtain ⟨as, has⟩ := reaches_finished answers isVoid body
  refine ⟨as.length, fun labels s hrun => ?_⟩
  obtain ⟨cs, hlen, hcs⟩ := exists_run_of_diamond diamond_step
    (fun s l t hs h => (tokens_step h).trans hs) (tokens_start isVoid body).le has
    (step_finished answers isVoid _) hrun
  refine ⟨by omega, fun hstuck => ?_⟩
  cases cs with
  | nil =>
      obtain rfl := Option.some.inj hcs
      exact endedAs_finished answers isVoid body
  | cons l cs =>
      rw [run_cons, hstuck l] at hcs
      cases hcs

/-- A child throws the answer it has waited for, and the handler in the root calls another. -/
def handledRoot : Code ℕ ℕ ℕ :=
  .tryCatch (.coAwait false (.external fun x => .throw x) .value) (· == 5)
    (fun e => .coAwait true (.coReturn e) fun _ => .value (e + 1)) .coReturn

/-- Its run. -/
def handledRun : List Label :=
  [.resume, .go, .go, .go, .wake 1, .resume] ++ List.replicate 13 .go

/-- The exception of the child reaches the handler of the root. -/
theorem awaits_are_calls_handled :
    ∃ s, run (step fun _ => 5) (start false handledRoot) handledRun = some s ∧
      EndedAs false (direct (fun _ => 5) handledRoot 0 0 1) s := by
  obtain ⟨n, hn⟩ := awaits_are_calls (fun _ => 5) false handledRoot
  have hrun := run_eq_reached
    (show (run (step fun _ => 5) (start false handledRoot) handledRun).isSome = true by
      decide +kernel)
  refine ⟨_, hrun, (hn handledRun _ hrun).2 fun l => ?_⟩
  cases l <;> rfl

end Tasks

end Agner
