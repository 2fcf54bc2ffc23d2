import Agner.Foundations.Runs

/-!
Partial step functions whose steps can be taken in either order.

* `Diamond`: two steps from one state lead to one state, or can be followed by each other to one.
* `exists_run_of_diamond`: if one run ends where no step is enabled, every run can be continued to
  end there, after the same number of steps.
-/

namespace Runs

variable {σ α : Type*} {step : σ → α → Option σ} {P : σ → Prop}

/-- Steps from a state in which `P` holds lead to the same state, or can be swapped. -/
def Diamond (step : σ → α → Option σ) (P : σ → Prop) : Prop :=
  ∀ s a b t u, P s → step s a = some t → step s b = some u →
    t = u ∨ ∃ v, step t b = some v ∧ step u a = some v

/-- A run that ends where no step is enabled, after any other first step. -/
lemma Diamond.exists_run_of_step (hd : Diamond step P)
    (hstep : ∀ s a t, P s → step s a = some t → P t) {s u n : σ} {as : List α} {b : α}
    (hs : P s) (hrun : run step s as = some n) (hn : ∀ a, step n a = none)
    (hb : step s b = some u) :
    ∃ bs, bs.length + 1 = as.length ∧ run step u bs = some n := by
  induction as generalizing s u with
  | nil =>
      obtain rfl := Option.some.inj hrun
      rw [hn b] at hb
      cases hb
  | cons a as ih =>
      rw [run_cons, Option.bind_eq_some_iff] at hrun
      obtain ⟨t, ht, hrun⟩ := hrun
      rcases hd s a b t u hs ht hb with rfl | ⟨v, htv, huv⟩
      · exact ⟨as, rfl, hrun⟩
      · obtain ⟨bs, hlen, hbs⟩ := ih (hstep s a t hs ht) hrun htv
        refine ⟨a :: bs, by rw [List.length_cons, List.length_cons, hlen], ?_⟩
        rw [run_cons, huv, Option.bind_some, hbs]

/-- Every run is the beginning of one that ends there. -/
lemma exists_run_of_diamond (hd : Diamond step P)
    (hstep : ∀ s a t, P s → step s a = some t → P t) {s u n : σ} {as bs : List α}
    (hs : P s) (hrun : run step s as = some n) (hn : ∀ a, step n a = none)
    (hbs : run step s bs = some u) :
    ∃ cs, bs.length + cs.length = as.length ∧ run step u cs = some n := by
  induction bs generalizing s as with
  | nil =>
      obtain rfl := Option.some.inj hbs
      exact ⟨as, Nat.zero_add _, hrun⟩
  | cons b bs ih =>
      rw [run_cons, Option.bind_eq_some_iff] at hbs
      obtain ⟨t, ht, hbs⟩ := hbs
      obtain ⟨as', hlen, hrun'⟩ := hd.exists_run_of_step hstep hs hrun hn ht
      obtain ⟨cs, hcs, hend⟩ := ih (hstep s b t hs ht) hrun' hbs
      exact ⟨cs, by rw [List.length_cons]; omega, hend⟩

end Runs
