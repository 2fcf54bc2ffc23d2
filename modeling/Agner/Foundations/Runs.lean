import Mathlib.Tactic

/-!
Runs of labelled transition systems given by a partial step function
`step : σ → α → Option σ`, where `none` says that the label is not enabled.

* `run`: the state reached by a list of labels, `none` if one of them was not enabled.
* `AllSteps`: every step of a run, taken from the state it is taken in, meets a condition.
* `invariant`: what holds at the start and is kept by every step that meets the condition
  holds wherever such a run leads; `invariant_of_step` is the form without a condition.
* `reached`: the same state as a value, for runs that can be evaluated.
* `Reaches`: there is a run from one state to another.
* `Traces`, `simulation`, `simulation_of_rel`, `exists_matching`: runs of a transition relation, and
  the rules that turn a simulation of single steps into one of whole runs, finite or not.
* `run_append`, `run_concat`: runs compose, and a run that ends in a given label splits into
  the run before it and one step.
-/

namespace Runs

variable {σ α : Type*}

/-- The state a list of labels leads to. -/
def run (step : σ → α → Option σ) : σ → List α → Option σ
  | s, [] => some s
  | s, a :: as => (step s a).bind fun t => run step t as

/-- Every step of the run from `s` along the labels meets `ok`, judged in the state in which
the step is taken. -/
def AllSteps (step : σ → α → Option σ) (ok : σ → α → Prop) : σ → List α → Prop
  | _, [] => True
  | s, a :: as => ok s a ∧ ∀ t, step s a = some t → AllSteps step ok t as

instance AllSteps.decidable (step : σ → α → Option σ) (ok : σ → α → Prop)
    [∀ s a, Decidable (ok s a)] : ∀ (s : σ) (as : List α), Decidable (AllSteps step ok s as)
  | _, [] => inferInstanceAs (Decidable True)
  | s, a :: as =>
      match h : step s a with
      | none => decidable_of_iff (ok s a) (by simp [AllSteps, h])
      | some t =>
          have := AllSteps.decidable step ok t as
          decidable_of_iff (ok s a ∧ AllSteps step ok t as) (by simp [AllSteps, h])

variable {step : σ → α → Option σ}

@[simp] lemma run_nil (s : σ) : run step s [] = some s := rfl

lemma run_cons (s : σ) (a : α) (as : List α) :
    run step s (a :: as) = (step s a).bind fun t => run step t as := rfl

lemma run_append (s : σ) (as bs : List α) :
    run step s (as ++ bs) = (run step s as).bind fun t => run step t bs := by
  induction as generalizing s with
  | nil => rfl
  | cons a as ih =>
      rw [List.cons_append, run_cons, run_cons]
      cases step s a with
      | none => rfl
      | some t => simpa using ih t

/-- A run ending in the label `a` is a run to some state and one step labelled `a`. -/
lemma run_concat {s u : σ} {as : List α} {a : α} :
    run step s (as ++ [a]) = some u ↔ ∃ t, run step s as = some t ∧ step t a = some u := by
  rw [run_append, Option.bind_eq_some_iff]
  simp [run_cons]

lemma allSteps_append {ok : σ → α → Prop} {s t : σ} {as bs : List α}
    (hrun : run step s as = some t) :
    AllSteps step ok s (as ++ bs) ↔ AllSteps step ok s as ∧ AllSteps step ok t bs := by
  induction as generalizing s with
  | nil =>
      obtain rfl := Option.some.inj hrun
      simp [AllSteps]
  | cons a as ih =>
      rw [run_cons, Option.bind_eq_some_iff] at hrun
      obtain ⟨u, hu, hut⟩ := hrun
      simp only [List.cons_append, AllSteps, hu, Option.some.injEq, forall_eq', ih hut,
        and_assoc]

/-- Two conditions on the steps of one run. -/
lemma AllSteps.and {ok ok' : σ → α → Prop} {s : σ} {as : List α} (h : AllSteps step ok s as)
    (h' : AllSteps step ok' s as) : AllSteps step (fun t a => ok t a ∧ ok' t a) s as := by
  induction as generalizing s with
  | nil => trivial
  | cons a as ih => exact ⟨⟨h.1, h'.1⟩, fun t ht => ih (h.2 t ht) (h'.2 t ht)⟩

lemma AllSteps.mono {ok ok' : σ → α → Prop} {s : σ} {as : List α} (h : AllSteps step ok s as)
    (himp : ∀ t a, ok t a → ok' t a) : AllSteps step ok' s as := by
  induction as generalizing s with
  | nil => trivial
  | cons a as ih => exact ⟨himp s a h.1, fun t ht => ih (h.2 t ht)⟩

/-- A condition that the labels of the run meet in every state. -/
lemma allSteps_of_forall {ok : σ → α → Prop} {s : σ} {as : List α}
    (h : ∀ a ∈ as, ∀ t, ok t a) : AllSteps step ok s as := by
  induction as generalizing s with
  | nil => trivial
  | cons a as ih =>
      exact ⟨h a List.mem_cons_self s, fun t _ => ih fun b hb => h b (List.mem_cons_of_mem a hb)⟩

/-- What one step taken under the condition keeps, a run under the condition keeps. -/
lemma invariant {ok : σ → α → Prop} {P : σ → Prop}
    (hstep : ∀ s a t, P s → ok s a → step s a = some t → P t) {s t : σ} {as : List α}
    (hs : P s) (hok : AllSteps step ok s as) (hrun : run step s as = some t) : P t := by
  induction as generalizing s with
  | nil =>
      obtain rfl := Option.some.inj hrun
      exact hs
  | cons a as ih =>
      rw [run_cons, Option.bind_eq_some_iff] at hrun
      obtain ⟨u, hu, hut⟩ := hrun
      exact ih (hstep s a u hs hok.1 hu) (hok.2 u hu) hut

/-- The invariant rule without a condition on the steps. -/
lemma invariant_of_step {P : σ → Prop} (hstep : ∀ s a t, P s → step s a = some t → P t)
    {s t : σ} {as : List α} (hs : P s) (hrun : run step s as = some t) : P t := by
  induction as generalizing s with
  | nil =>
      obtain rfl := Option.some.inj hrun
      exact hs
  | cons a as ih =>
      rw [run_cons, Option.bind_eq_some_iff] at hrun
      obtain ⟨u, hu, hut⟩ := hrun
      exact ih (hstep s a u hs hu) hut

/-- The state a list of labels leads to, and `s` itself if one of them was not enabled. -/
def reached (step : σ → α → Option σ) (s : σ) (as : List α) : σ := (run step s as).getD s

lemma run_eq_reached {s : σ} {as : List α} (h : (run step s as).isSome = true) :
    run step s as = some (reached step s as) := by
  obtain ⟨t, ht⟩ := Option.isSome_iff_exists.mp h
  rw [reached, ht, Option.getD_some]

/-- Some run from `s` leads to `t`. -/
def Reaches (step : σ → α → Option σ) (s t : σ) : Prop := ∃ as, run step s as = some t

lemma Reaches.refl (s : σ) : Reaches step s s := ⟨[], rfl⟩

lemma Reaches.trans {s t u : σ} (hst : Reaches step s t) (htu : Reaches step t u) :
    Reaches step s u := by
  obtain ⟨as, has⟩ := hst
  obtain ⟨bs, hbs⟩ := htu
  exact ⟨as ++ bs, by rw [run_append, has, Option.bind_some, hbs]⟩

lemma Reaches.of_step {s t : σ} {a : α} (h : step s a = some t) : Reaches step s t :=
  ⟨[a], by rw [run_cons, h, Option.bind_some, run_nil]⟩

/-- One step, and what can be reached after it. -/
lemma Reaches.head {s t u : σ} (a : α) (h : step s a = some t) (htu : Reaches step t u) :
    Reaches step s u := (Reaches.of_step h).trans htu

/-! ### Simulation -/

variable {ρ β : Type*}

/-- A run of a transition relation along the labels. -/
inductive Traces (Step : ρ → β → ρ → Prop) : ρ → List β → ρ → Prop where
  | nil (r : ρ) : Traces Step r [] r
  | cons {r r' r'' : ρ} {b : β} {bs : List β} (h : Step r b r') (hs : Traces Step r' bs r'') :
      Traces Step r (b :: bs) r''

lemma Traces.append {Step : ρ → β → ρ → Prop} {r r' r'' : ρ} {bs cs : List β}
    (h : Traces Step r bs r') (h' : Traces Step r' cs r'') : Traces Step r (bs ++ cs) r'' := by
  induction h with
  | nil => exact h'
  | cons hstep _ ih => exact .cons hstep (ih h')

/-- The labels `obs` reads off the steps of a run. -/
def observations (step : σ → α → Option σ) (obs : σ → α → β) : σ → List α → List β
  | _, [] => []
  | s, a :: as =>
      match step s a with
      | none => []
      | some t => obs s a :: observations step obs t as

/-- What is read off a run that ends in one more step. -/
lemma observations_concat {obs : σ → α → β} {s t u : σ} {as : List α} {a : α}
    (hrun : run step s as = some t) (hstep : step t a = some u) :
    observations step obs s (as ++ [a]) = observations step obs s as ++ [obs t a] := by
  induction as generalizing s with
  | nil =>
      obtain rfl := Option.some.inj hrun
      simp [observations, hstep]
  | cons b bs ih =>
      rw [run_cons, Option.bind_eq_some_iff] at hrun
      obtain ⟨v, hv, hvt⟩ := hrun
      simp only [List.cons_append, observations, hv, ih hvt]

/-- If every step taken under the condition is a step of the relation between the states seen
through `abs`, and keeps an invariant, then every run under the condition is a run of the
relation. -/
lemma simulation {ok : σ → α → Prop} {P : σ → Prop} {abs : σ → ρ} {obs : σ → α → β}
    {Step : ρ → β → ρ → Prop}
    (hstep : ∀ s a t, P s → ok s a → step s a = some t → Step (abs s) (obs s a) (abs t) ∧ P t)
    {s t : σ} {as : List α} (hs : P s) (hok : AllSteps step ok s as)
    (hrun : run step s as = some t) : Traces Step (abs s) (observations step obs s as) (abs t) := by
  induction as generalizing s with
  | nil =>
      obtain rfl := Option.some.inj hrun
      exact Traces.nil _
  | cons a as ih =>
      rw [run_cons, Option.bind_eq_some_iff] at hrun
      obtain ⟨u, hu, hut⟩ := hrun
      obtain ⟨habs, hP⟩ := hstep s a u hs hok.1 hu
      simp only [observations, hu]
      exact Traces.cons habs (ih hP (hok.2 u hu) hut)

/-- A simulation by a relation between the states. -/
lemma simulation_of_rel {rel : σ → ρ → Prop} {obs : σ → α → β} {Step : ρ → β → ρ → Prop}
    (hstep : ∀ s a t r, rel s r → step s a = some t → ∃ r', Step r (obs s a) r' ∧ rel t r')
    {s t : σ} {r : ρ} {as : List α} (hs : rel s r) (hrun : run step s as = some t) :
    ∃ r', Traces Step r (observations step obs s as) r' ∧ rel t r' := by
  induction as generalizing s r with
  | nil =>
      obtain rfl := Option.some.inj hrun
      exact ⟨r, .nil r, hs⟩
  | cons a as ih =>
      rw [run_cons, Option.bind_eq_some_iff] at hrun
      obtain ⟨u, hu, hut⟩ := hrun
      obtain ⟨r', hr', hrel⟩ := hstep s a u r hs hu
      obtain ⟨r'', htraces, hlast⟩ := ih hrel hut
      refine ⟨r'', ?_, hlast⟩
      simp only [observations, hu]
      exact .cons hr' htraces

/-- A run without an end, followed step by step. -/
lemma exists_matching {Moves : σ → σ → Prop} {Step : ρ → ρ → Prop} {rel : σ → ρ → Prop}
    (hstep : ∀ s t r, rel s r → Moves s t → ∃ r', Step r r' ∧ rel t r')
    {f : ℕ → σ} {r : ρ} (h0 : rel (f 0) r) (hf : ∀ n, Moves (f n) (f (n + 1))) :
    ∃ g : ℕ → ρ, g 0 = r ∧ ∀ n, Step (g n) (g (n + 1)) ∧ rel (f n) (g n) := by
  choose next hnext using fun n (p : { r // rel (f n) r }) =>
    hstep (f n) (f (n + 1)) p.1 p.2 (hf n)
  let g : (n : ℕ) → { r // rel (f n) r } :=
    Nat.rec ⟨r, h0⟩ fun n p => ⟨next n p, (hnext n p).2⟩
  exact ⟨fun n => (g n).1, rfl, fun n => ⟨(hnext n (g n)).1, (g n).2⟩⟩

end Runs
