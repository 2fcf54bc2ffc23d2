import Agner.Task.Coroutines
import Agner.Foundations.Diamond

/-!
The order in which the activations on the call stack return and external awaiters schedule handles.

* `tokens_le_one`: at most one coroutine can go on, now or after it has been resumed.
* `diamond_step`: so the steps that are enabled at one time can be taken in either order.
-/

namespace Agner

namespace Tasks

open Runs Machine

variable {V E X : Type}

/-- 0 if there is nothing to be done for it but to return. -/
def Activation.weight : Activation V E X → ℕ
  | .resumed _ => 0
  | .running _ _ _ | .resuming _ _ _ _ | .final _ => 1

lemma Activation.weight_le_one (a : Activation V E X) : a.weight ≤ 1 := by
  cases a <;> simp [weight]

/-- How many coroutines can go on, now or after they have been resumed. -/
def tokens (s : Machine V E X) : ℕ :=
  (s.stack.map Activation.weight).sum + s.waiting.length + s.ready.length

/-- What was on top of `rest` has handed over to at most one coroutine. -/
def HandsOver (s : Machine V E X) (rest : List (Activation V E X)) (s' : Machine V E X) : Prop :=
  tokens s' ≤ tokens { s with stack := rest } + 1

variable {answers : ℕ → X} {s s' : Machine V E X} {t : ℕ} {rest : List (Activation V E X)}

/-- To one that is on the call stack. -/
lemma handsOver_cons (hready : s'.ready = s.ready) (hwaiting : s'.waiting = s.waiting)
    (a : Activation V E X) (hstack : s'.stack = a :: rest) : HandsOver s rest s' := by
  have := a.weight_le_one
  simp only [HandsOver, tokens, hstack, hready, hwaiting, List.map_cons, List.sum_cons]
  omega

/-- To none. -/
lemma handsOver_rest (hready : s'.ready = s.ready) (hwaiting : s'.waiting = s.waiting)
    (hstack : s'.stack = rest) : HandsOver s rest s' := by
  simp only [HandsOver, tokens, hstack, hready, hwaiting]
  omega

lemma handsOver_resume (h : s.resume answers t rest = some s') : HandsOver s rest s' := by
  obtain ⟨f, _, h⟩ := Option.bind_eq_some_iff.mp h
  split at h
  case h_1 => cases h; exact handsOver_cons rfl rfl _ rfl
  case h_2 => cases h; exact handsOver_cons rfl rfl _ rfl
  case h_3 => cases h; exact handsOver_cons rfl rfl _ rfl
  all_goals cases h

lemma handsOver_finish [Inhabited V] {outcome : Except E V}
    (h : s.finish t rest outcome = some s') : HandsOver s rest s' := by
  obtain ⟨f, _, rfl⟩ := Option.map_eq_some_iff.mp h
  exact handsOver_cons rfl rfl _ rfl

lemma destroy_eq {child : ℕ} (h : s.destroy child = some s') :
    s' = { s with frames := Function.update s.frames child none } := by
  obtain ⟨f, _, h⟩ := Option.bind_eq_some_iff.mp h
  split at h
  · cases h
  · exact (Option.some.inj h).symm

lemma handsOver_awaitResume [Inhabited V] {child : ℕ} {k : V → Code V E X}
    {scopes : List (Scope V E X)} (h : s.awaitResume t child k scopes rest = some s') :
    HandsOver s rest s' := by
  obtain ⟨f, _, h⟩ := Option.bind_eq_some_iff.mp h
  obtain ⟨outcome, _, h⟩ := Option.bind_eq_some_iff.mp h
  obtain ⟨u, hu, rfl⟩ := Option.map_eq_some_iff.mp h
  obtain rfl := destroy_eq hu
  exact handsOver_cons rfl rfl _ rfl

lemma handsOver_awaitSuspendFinal (h : s.awaitSuspendFinal answers t rest = some s') :
    HandsOver s rest s' := by
  obtain ⟨f, _, h⟩ := Option.bind_eq_some_iff.mp h
  split at h
  next continuation _ =>
    have hresume := handsOver_resume h
    simpa [HandsOver, tokens, Activation.weight] using hresume
  next =>
    split_ifs at h
    · obtain ⟨u, hu, rfl⟩ := Option.map_eq_some_iff.mp h
      obtain rfl := destroy_eq hu
      exact handsOver_rest rfl rfl rfl
    · obtain rfl := Option.some.inj h
      exact handsOver_rest rfl rfl rfl

lemma handsOver_await {isVoid : Bool} {body : Code V E X} {k : V → Code V E X}
    {scopes : List (Scope V E X)} (h : s.await t isVoid body k scopes rest = some s') :
    HandsOver s rest s' := by
  obtain ⟨f, _, rfl⟩ := Option.map_eq_some_iff.mp h
  exact handsOver_cons rfl rfl _ rfl

lemma handsOver_suspend {k : X → Code V E X} {scopes : List (Scope V E X)}
    (h : s.suspend t k scopes rest = some s') : HandsOver s rest s' := by
  obtain ⟨f, _, rfl⟩ := Option.map_eq_some_iff.mp h
  simp only [HandsOver, tokens, setFrame, List.length_append, List.length_singleton]
  omega

variable [Inhabited V]

lemma handsOver_go {a : Activation V E X} (hs : s.stack = a :: rest)
    (h : s.go answers = some s') : HandsOver s rest s' := by
  cases a with
  | running t code scopes =>
      simp only [go, hs] at h
      split at h
      case h_1 | h_4 | h_5 => exact handsOver_finish h
      case h_8 => exact handsOver_await h
      case h_9 => exact handsOver_suspend h
      case h_2 | h_3 | h_6 | h_7 | h_10 =>
        obtain rfl := Option.some.inj h
        exact handsOver_cons rfl rfl _ rfl
  | resuming t child k scopes =>
      simp only [go, hs] at h
      exact handsOver_awaitResume h
  | final t =>
      simp only [go, hs] at h
      exact handsOver_awaitSuspendFinal h
  | resumed t =>
      simp only [go, hs] at h
      obtain rfl := Option.some.inj h
      exact handsOver_rest rfl rfl rfl

/-- The only step that is left to an activation that has resumed another one. -/
lemma go_of_weight_eq_zero {a : Activation V E X} (hs : s.stack = a :: rest) (ha : a.weight = 0) :
    s.go answers = some { s with stack := rest } := by
  cases a with
  | resumed t => simp only [go, hs]
  | running t code scopes => cases ha
  | resuming t child k scopes => cases ha
  | final t => cases ha

lemma step_wake {i : ℕ} (h : step answers s (.wake i) = some s') :
    i ∈ s.waiting ∧ s' = { s with waiting := s.waiting.erase i, ready := s.ready ++ [i] } := by
  simp only [step] at h
  split_ifs at h with hi
  exact ⟨hi, (Option.some.inj h).symm⟩

lemma step_resume (h : step answers s .resume = some s') :
    s.stack = [] ∧ ∃ t ready, s.ready = t :: ready ∧
      resume answers { s with ready := ready } t [] = some s' := by
  simp only [step] at h
  split at h
  next t ready hs hr => exact ⟨hs, t, ready, hr, h⟩
  next => cases h

lemma step_go (h : step answers s .go = some s') :
    ∃ a rest, s.stack = a :: rest ∧ s.go answers = some s' := by
  cases hs : s.stack with
  | nil =>
      simp only [step, go, hs] at h
      cases h
  | cons a rest => exact ⟨a, rest, rfl, h⟩

/-- A step hands on what it takes. -/
lemma tokens_step {l : Label} (h : step answers s l = some s') : tokens s' ≤ tokens s := by
  cases l with
  | go =>
      obtain ⟨a, rest, hs, h⟩ := step_go h
      by_cases ha : a.weight = 0
      · obtain rfl := Option.some.inj ((go_of_weight_eq_zero hs ha).symm.trans h)
        simp only [tokens, hs, List.map_cons, List.sum_cons]
        omega
      · have hover := handsOver_go hs h
        simp only [HandsOver, tokens] at hover
        simp only [tokens, hs, List.map_cons, List.sum_cons]
        omega
  | wake t =>
      obtain ⟨ht, rfl⟩ := step_wake h
      have := List.length_pos_of_mem ht
      simp only [tokens, List.length_erase_of_mem ht, List.length_append, List.length_singleton]
      omega
  | resume =>
      obtain ⟨hs, t, ready, hr, h⟩ := step_resume h
      have hover := handsOver_resume h
      simp only [HandsOver, tokens, List.map_nil, List.sum_nil] at hover
      simp only [tokens, hs, hr, List.map_nil, List.sum_nil, List.length_cons]
      omega

omit [Inhabited V] in
lemma tokens_start (isVoid : Bool) (body : Code V E X) : tokens (start isVoid body) = 1 := rfl

/-- While a coroutine waits, what is on the call stack can only return. -/
lemma go_wake {t u : Machine V E X} {i : ℕ} (hs : tokens s ≤ 1)
    (hgo : step answers s .go = some t) (hwake : step answers s (.wake i) = some u) :
    ∃ v, step answers t (.wake i) = some v ∧ step answers u .go = some v := by
  obtain ⟨a, rest, hstack, hgo⟩ := step_go hgo
  obtain ⟨hi, rfl⟩ := step_wake hwake
  have ha : a.weight = 0 := by
    have := List.length_pos_of_mem hi
    simp only [tokens, hstack, List.map_cons, List.sum_cons] at hs
    omega
  obtain rfl := Option.some.inj ((go_of_weight_eq_zero hstack ha).symm.trans hgo)
  exact ⟨_, if_pos hi, go_of_weight_eq_zero hstack ha⟩

/-- The scheduler resumes nothing while something is on the call stack. -/
lemma not_resume_of_go {t u : Machine V E X} (hgo : step answers s .go = some t)
    (hresume : step answers s .resume = some u) : False := by
  obtain ⟨a, rest, hstack, _⟩ := step_go hgo
  rw [(step_resume hresume).1] at hstack
  cases hstack

lemma not_resume_of_wake {t u : Machine V E X} {i : ℕ} (hs : tokens s ≤ 1)
    (hwake : step answers s (.wake i) = some t) (hresume : step answers s .resume = some u) :
    False := by
  have hi := List.length_pos_of_mem (step_wake hwake).1
  obtain ⟨_, j, ready, hready, _⟩ := step_resume hresume
  simp only [tokens, hready, List.length_cons] at hs
  omega

lemma wake_unique {t u : Machine V E X} {i j : ℕ} (hs : tokens s ≤ 1)
    (hi : step answers s (.wake i) = some t) (hj : step answers s (.wake j) = some u) : i = j := by
  have hi := (step_wake hi).1
  have hj := (step_wake hj).1
  have hle : s.waiting.length ≤ 1 := by
    simp only [tokens] at hs
    omega
  obtain ⟨k, hk⟩ := List.length_eq_one_iff.mp (hle.antisymm (List.length_pos_of_mem hi))
  rw [hk] at hi hj
  rw [List.mem_singleton.mp hi, List.mem_singleton.mp hj]

/-- Only returning and scheduling can both be possible, and they do not interfere. -/
lemma diamond_step : Diamond (step answers) fun s : Machine V E X => tokens s ≤ 1 := by
  rintro s a b t u hs ha hb
  cases a with
  | go =>
      cases b with
      | go => exact .inl (Option.some.inj (ha.symm.trans hb))
      | wake i => exact .inr (go_wake hs ha hb)
      | resume => exact (not_resume_of_go ha hb).elim
  | wake i =>
      cases b with
      | go =>
          obtain ⟨v, hv, hv'⟩ := go_wake hs hb ha
          exact .inr ⟨v, hv', hv⟩
      | wake j =>
          obtain rfl := wake_unique hs ha hb
          exact .inl (Option.some.inj (ha.symm.trans hb))
      | resume => exact (not_resume_of_wake hs ha hb).elim
  | resume =>
      cases b with
      | go => exact (not_resume_of_go hb ha).elim
      | wake i => exact (not_resume_of_wake hs hb ha).elim
      | resume => exact .inl (Option.some.inj (ha.symm.trans hb))

end Tasks

end Agner
