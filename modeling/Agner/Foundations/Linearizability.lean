import Agner.Foundations.Runs

/-!
Concurrent objects whose operations take effect at one moment between call and return.

* `SeqObject`: a sequential object. What an operation may do can depend on a mark, which it keeps
  of the state in which it was called.
* `Atomic`, `Atomic.Step`: threads that use the object. Calls and returns are seen from outside,
  effects are not.
* `Follows`: the object has a run with the given calls and returns. `Follows.trans` and the rules
  for single actions build such runs.
* `follows_of_simulation`: a machine of which every step is some run of the object has the calls
  and returns of one.
-/

namespace Linearizability

open Runs

variable {σ τ Op Res ν : Type*}

/-- A sequential object: `Effect s op mark result t` says that the operation, called with that
mark, may lead from `s` to `t` and return the result. -/
structure SeqObject (σ Op Res ν : Type*) where
  mark : Op → σ → ν
  Effect : σ → Op → ν → Res → σ → Prop

/-- How far a thread has come with its operation. -/
inductive Progress (Op Res ν : Type*) where
  | idle
  | called (op : Op) (mark : ν)
  /-- The operation has taken effect. -/
  | done (result : Res)

/-- An object and the threads that use it. -/
structure Atomic (σ τ Op Res ν : Type*) where
  state : σ
  threads : τ → Progress Op Res ν

/-- What is seen of an operation. -/
inductive Event (τ Op Res : Type*) where
  | call (thread : τ) (op : Op)
  | return (thread : τ) (result : Res)
  deriving DecidableEq

/-- What threads do. -/
inductive Action (τ Op Res : Type*) where
  | event (e : Event τ Op Res)
  | effect (thread : τ)

/-- The event, if the action is one. -/
def Action.event? : Action τ Op Res → Option (Event τ Op Res)
  | .event e => some e
  | .effect _ => none

namespace Atomic

/-- No operation has been called. -/
def start (s : σ) : Atomic σ τ Op Res ν := ⟨s, fun _ => .idle⟩

variable [DecidableEq τ]

/-- One action of a thread. -/
inductive Step (O : SeqObject σ Op Res ν) :
    Atomic σ τ Op Res ν → Action τ Op Res → Atomic σ τ Op Res ν → Prop where
  | call {s : Atomic σ τ Op Res ν} {k : τ} (op : Op) (h : s.threads k = .idle) :
      Step O s (.event (.call k op))
        ⟨s.state, Function.update s.threads k (.called op (O.mark op s.state))⟩
  | effect {s : Atomic σ τ Op Res ν} {k : τ} {op : Op} {mark : ν} {result : Res} {state : σ}
      (h : s.threads k = .called op mark) (heffect : O.Effect s.state op mark result state) :
      Step O s (.effect k) ⟨state, Function.update s.threads k (.done result)⟩
  | return {s : Atomic σ τ Op Res ν} {k : τ} {result : Res} (h : s.threads k = .done result) :
      Step O s (.event (.return k result)) ⟨s.state, Function.update s.threads k .idle⟩

end Atomic

variable [DecidableEq τ]

/-- The object has a run from `s` to `t` with these calls and returns. -/
def Follows (O : SeqObject σ Op Res ν) (s : Atomic σ τ Op Res ν) (history : List (Event τ Op Res))
    (t : Atomic σ τ Op Res ν) : Prop :=
  ∃ actions, Traces (Atomic.Step O) s actions t ∧ actions.filterMap Action.event? = history

namespace Follows

variable {O : SeqObject σ Op Res ν} {s t u : Atomic σ τ Op Res ν} {k : τ}
  {h h' : List (Event τ Op Res)}

lemma refl (s : Atomic σ τ Op Res ν) : Follows O s [] s := ⟨[], .nil s, rfl⟩

/-- One action. -/
lemma of_step {a : Action τ Op Res} (hstep : Atomic.Step O s a t) :
    Follows O s a.event?.toList t := by
  refine ⟨[a], .cons hstep (.nil t), ?_⟩
  cases a <;> rfl

lemma trans (hst : Follows O s h t) (htu : Follows O t h' u) : Follows O s (h ++ h') u := by
  obtain ⟨as, has, rfl⟩ := hst
  obtain ⟨bs, hbs, rfl⟩ := htu
  exact ⟨as ++ bs, has.append hbs, List.filterMap_append⟩

/-- A call. -/
lemma call (op : Op) (hk : s.threads k = .idle) (hstate : t.state = s.state)
    (hthreads : t.threads = Function.update s.threads k (.called op (O.mark op s.state))) :
    Follows O s [.call k op] t := by
  obtain ⟨state, threads⟩ := t
  obtain rfl : state = s.state := hstate
  obtain rfl : threads = _ := hthreads
  exact of_step (.call op hk)

/-- An effect. -/
lemma effect {op : Op} {mark : ν} {result : Res} (hk : s.threads k = .called op mark)
    (heffect : O.Effect s.state op mark result t.state)
    (hthreads : t.threads = Function.update s.threads k (.done result)) : Follows O s [] t := by
  obtain ⟨state, threads⟩ := t
  obtain rfl : threads = _ := hthreads
  exact of_step (.effect hk heffect)

/-- A return. -/
lemma return_ {result : Res} (hk : s.threads k = .done result) (hstate : t.state = s.state)
    (hthreads : t.threads = Function.update s.threads k .idle) :
    Follows O s [.return k result] t := by
  obtain ⟨state, threads⟩ := t
  obtain rfl : state = s.state := hstate
  obtain rfl : threads = _ := hthreads
  exact of_step (.return hk)

/-- An operation that takes effect and returns at once. -/
lemma effect_return {op : Op} {mark : ν} {result : Res} (hk : s.threads k = .called op mark)
    (heffect : O.Effect s.state op mark result t.state)
    (hthreads : t.threads = Function.update s.threads k .idle) :
    Follows O s [.return k result] t := by
  have hmid : Follows O s [] ⟨t.state, Function.update s.threads k (.done result)⟩ :=
    effect hk heffect rfl
  refine hmid.trans (return_ (Function.update_self _ _ _) rfl ?_)
  rw [hthreads, Function.update_idem]

end Follows

/-- If every step of a machine is a run of the object, the whole run is, with the calls and
returns of its steps. -/
lemma follows_of_simulation {ρ β : Type*} {step : ρ → β → Option ρ} {P : ρ → Prop}
    {abs : ρ → Atomic σ τ Op Res ν} {visible : ρ → β → List (Event τ Op Res)}
    {O : SeqObject σ Op Res ν}
    (hstep : ∀ s l t, P s → step s l = some t → Follows O (abs s) (visible s l) (abs t) ∧ P t)
    {s t : ρ} {labels : List β} (hs : P s) (hrun : run step s labels = some t) :
    Follows O (abs s) (observations step visible s labels).flatten (abs t) := by
  induction labels generalizing s with
  | nil =>
      obtain rfl := Option.some.inj hrun
      exact .refl _
  | cons l labels ih =>
      rw [run_cons, Option.bind_eq_some_iff] at hrun
      obtain ⟨u, hu, hut⟩ := hrun
      obtain ⟨hfollows, hP⟩ := hstep s l u hs hu
      simp only [observations, hu, List.flatten_cons]
      exact hfollows.trans (ih hP hut)

end Linearizability
