import Mathlib.Tactic

/-!
Pre- and postconditions for computations that change a state and may raise, the state in
which they raised being kept (`EStateM`).

`Post x s Q E` says how `x` ends when started in `s`: normally with a value and a state in
`Q`, or by raising in a state in `E`. The rules follow the constructs of `do` blocks, and
`post_forM` is the rule for a loop over a list, whose invariant speaks of the elements
already visited and of those still to come. `Throws` says what it may raise, whatever the state
it leaves behind.
-/

namespace Raising

variable {ε σ α β γ : Type}

/-- Started in `s`, the computation ends normally in `Q` or raises in `E`. -/
def Post (x : EStateM ε σ α) (s : σ) (Q : α → σ → Prop) (E : σ → Prop) : Prop :=
  match x.run s with
  | .ok a t => Q a t
  | .error _ t => E t

lemma post_pure {a : α} {s : σ} {Q : α → σ → Prop} {E : σ → Prop} :
    Post (pure a : EStateM ε σ α) s Q E ↔ Q a s := Iff.rfl

lemma post_bind {x : EStateM ε σ α} {f : α → EStateM ε σ β} {s : σ} {Q : β → σ → Prop}
    {E : σ → Prop} : Post (x >>= f) s Q E ↔ Post x s (fun a t => Post (f a) t Q E) E := by
  simp only [Post, EStateM.run_bind]
  cases x.run s <;> rfl

lemma post_get {s : σ} {Q : σ → σ → Prop} {E : σ → Prop} :
    Post (get : EStateM ε σ σ) s Q E ↔ Q s s := Iff.rfl

lemma post_set {s t : σ} {Q : PUnit → σ → Prop} {E : σ → Prop} :
    Post (set t : EStateM ε σ PUnit) s Q E ↔ Q ⟨⟩ t := Iff.rfl

lemma post_modify {s : σ} {f : σ → σ} {Q : PUnit → σ → Prop} {E : σ → Prop} :
    Post (modify f : EStateM ε σ PUnit) s Q E ↔ Q ⟨⟩ (f s) := Iff.rfl

lemma post_throw {e : ε} {s : σ} {Q : α → σ → Prop} {E : σ → Prop} :
    Post (throw e : EStateM ε σ α) s Q E ↔ E s := Iff.rfl

lemma Post.mono {x : EStateM ε σ α} {s : σ} {Q Q' : α → σ → Prop} {E E' : σ → Prop}
    (h : Post x s Q E) (hQ : ∀ a t, Q a t → Q' a t) (hE : ∀ t, E t → E' t) :
    Post x s Q' E' := by
  rw [Post] at h ⊢
  cases hx : x.run s with
  | ok a t =>
      simp only [hx] at h
      exact hQ a t h
  | error e t =>
      simp only [hx] at h
      exact hE t h

lemma post_true (x : EStateM ε σ α) (s : σ) : Post x s (fun _ _ => True) fun _ => True := by
  rw [Post]
  split <;> trivial

/-- Sequencing with a known way in which the first computation ends. -/
lemma Post.bind {x : EStateM ε σ α} {f : α → EStateM ε σ β} {s : σ} {P : α → σ → Prop}
    {Q : β → σ → Prop} {E : σ → Prop} (hx : Post x s P E)
    (hf : ∀ a t, P a t → Post (f a) t Q E) : Post (x >>= f) s Q E :=
  post_bind.mpr (hx.mono hf fun _ => id)

/-- Two statements about one computation. -/
lemma Post.and {x : EStateM ε σ α} {s : σ} {Q Q' : α → σ → Prop} {E E' : σ → Prop}
    (h : Post x s Q E) (h' : Post x s Q' E') :
    Post x s (fun a t => Q a t ∧ Q' a t) (fun t => E t ∧ E' t) := by
  rw [Post] at h h' ⊢
  cases hx : x.run s with
  | ok a t =>
      rw [hx] at h h'
      exact ⟨h, h'⟩
  | error e t =>
      rw [hx] at h h'
      exact ⟨h, h'⟩

/-- What is said of both ways in which a computation may end holds of the one in which it does. -/
lemma Post.ended {x : EStateM ε σ PUnit} {s t : σ} {e : ε} {Q : σ → Prop}
    (h : Post x s (fun _ => Q) Q) (hrun : x.run s = .ok ⟨⟩ t ∨ x.run s = .error e t) : Q t := by
  rw [Post] at h
  rcases hrun with hrun | hrun <;> rw [hrun] at h <;> exact h

/-- The rule for loops: an invariant of the state, the elements visited and the elements
still to come. -/
lemma post_forM {f : γ → EStateM ε σ PUnit} {E : σ → Prop} (I : List γ → List γ → σ → Prop)
    (hstep : ∀ done x rest s, I done (x :: rest) s →
      Post (f x) s (fun _ t => I (done ++ [x]) rest t) E)
    (l : List γ) (s : σ) (h : I [] l s) : Post (l.forM f) s (fun _ t => I l [] t) E := by
  have key : ∀ rest done s, I done rest s →
      Post (rest.forM f) s (fun _ t => I (done ++ rest) [] t) E := by
    intro rest
    induction rest with
    | nil =>
        intro done s h
        simpa [post_pure] using h
    | cons x rest ih =>
        intro done s h
        rw [List.forM_eq_forM, List.forM_cons]
        refine (hstep done x rest s h).bind fun _ t ht => ?_
        simpa using ih (done ++ [x]) t ht
  simpa using key l [] s h

/-- A loop that tests each element is the loop over the elements that pass. -/
lemma forM_ite {f : γ → EStateM ε σ PUnit} (p : γ → Prop) [DecidablePred p] (l : List γ) :
    (l.forM fun x => if p x then f x else pure ()) = (l.filter fun x => decide (p x)).forM f := by
  induction l with
  | nil => rfl
  | cons x l ih =>
      simp only [List.forM_eq_forM, List.forM_cons] at ih ⊢
      by_cases hx : p x
      · simp [hx, ih]
      · simp [hx, ih]

/-! ### What a computation keeps -/

/-- Whether it ends normally or raises, the computation keeps `P`. -/
def Preserves (P : σ → Prop) (x : EStateM ε σ α) : Prop := ∀ s, P s → Post x s (fun _ => P) P

section Preserves

variable {P : σ → Prop}

lemma Preserves.pure (a : α) : Preserves P (Pure.pure a : EStateM ε σ α) := fun _ => id

lemma Preserves.modify {f : σ → σ} (h : ∀ s, P s → P (f s)) :
    Preserves P (modify f : EStateM ε σ PUnit) := h

lemma Preserves.bind {x : EStateM ε σ α} {f : α → EStateM ε σ β} (hx : Preserves P x)
    (hf : ∀ a, Preserves P (f a)) : Preserves P (x >>= f) :=
  fun s hs => (hx s hs).bind fun a t ht => hf a t ht

lemma Preserves.and {Q : σ → Prop} {x : EStateM ε σ α} (hP : Preserves P x)
    (hQ : Preserves Q x) : Preserves (fun s => P s ∧ Q s) x := fun s hs =>
  (hP s hs.1).and (hQ s hs.2)

/-- A computation that looks at the state first. -/
lemma Preserves.get {f : σ → EStateM ε σ β}
    (h : ∀ s, P s → Post (f s) s (fun _ => P) P) : Preserves P (MonadState.get >>= f) := h

lemma Preserves.forM {f : γ → EStateM ε σ PUnit} {l : List γ} (h : ∀ x ∈ l, Preserves P (f x)) :
    Preserves P (l.forM f) := by
  intro s hs
  refine (post_forM (fun done rest t => done ++ rest = l ∧ P t) ?_ l s ⟨rfl, hs⟩).mono
    (fun _ t ht => ht.2) fun _ => id
  rintro done x rest t ⟨hsplit, ht⟩
  refine (h x (by rw [← hsplit]; simp) t ht).mono (fun _ u hu => ⟨?_, hu⟩) fun _ => id
  simpa using hsplit

end Preserves

/-! ### What a computation raises -/

/-- Started in `s`, the computation ends normally or raises an exception in `E`. -/
def Throws (E : ε → Prop) (x : EStateM ε σ α) (s : σ) : Prop :=
  match x.run s with
  | .ok _ _ => True
  | .error e _ => E e

section Throws

variable {E : ε → Prop}

lemma Throws.mono {E' : ε → Prop} {x : EStateM ε σ α} {s : σ} (h : Throws E x s)
    (hE : ∀ e, E e → E' e) : Throws E' x s := by
  rw [Throws] at h ⊢
  cases hx : x.run s with
  | ok a t => trivial
  | error e t =>
      rw [hx] at h
      exact hE e h

/-- What raises nothing ends normally. -/
lemma Throws.post {x : EStateM ε σ α} {s : σ} {Q : α → σ → Prop} {R R' : σ → Prop}
    (h : Throws (fun _ => False) x s) (hpost : Post x s Q R) : Post x s Q R' := by
  rw [Throws] at h
  rw [Post] at hpost ⊢
  cases hx : x.run s with
  | ok a t =>
      rw [hx] at hpost
      exact hpost
  | error e t =>
      rw [hx] at h
      exact h.elim

lemma throws_pure {a : α} {s : σ} : Throws E (pure a : EStateM ε σ α) s := trivial

lemma throws_modify {f : σ → σ} {s : σ} : Throws E (modify f : EStateM ε σ PUnit) s := trivial

lemma throws_set {s t : σ} : Throws E (set t : EStateM ε σ PUnit) s := trivial

lemma throws_throw {e : ε} {s : σ} (h : E e) : Throws E (throw e : EStateM ε σ α) s := h

lemma throws_get {f : σ → EStateM ε σ β} {s : σ} :
    Throws E (MonadState.get >>= f) s ↔ Throws E (f s) s := Iff.rfl

lemma throws_set_bind {t : σ} {f : PUnit → EStateM ε σ β} {s : σ} :
    Throws E (set t >>= f) s ↔ Throws E (f ⟨⟩) t := Iff.rfl

/-- The second computation starts in a state that the first one may end in. -/
lemma Throws.bind {x : EStateM ε σ α} {f : α → EStateM ε σ β} {s : σ} {P : α → σ → Prop}
    {R : σ → Prop} (hx : Throws E x s) (hpost : Post x s P R)
    (hf : ∀ a t, P a t → Throws E (f a) t) : Throws E (x >>= f) s := by
  rw [Throws, EStateM.run_bind]
  rw [Throws] at hx
  rw [Post] at hpost
  cases hrun : x.run s with
  | ok a t =>
      rw [hrun] at hpost
      exact hf a t hpost
  | error e t =>
      rw [hrun] at hx
      exact hx

/-- What the second computation may raise does not depend on the state. -/
lemma Throws.bind_any {x : EStateM ε σ α} {f : α → EStateM ε σ β} {s : σ} (hx : Throws E x s)
    (hf : ∀ a t, Throws E (f a) t) : Throws E (x >>= f) s := by
  exact hx.bind (post_true x s) fun a t _ => hf a t

/-- The same for a computation that keeps a property. -/
lemma Throws.bind_preserves {x : EStateM ε σ α} {f : α → EStateM ε σ β} {P : σ → Prop} {s : σ}
    (hx : Throws E x s) (hkeep : Preserves P x) (hs : P s) (hf : ∀ a t, P t → Throws E (f a) t) :
    Throws E (x >>= f) s :=
  hx.bind (hkeep s hs) hf

lemma throws_forM {f : γ → EStateM ε σ PUnit} {P : σ → Prop} {l : List γ}
    (hkeep : ∀ x ∈ l, Preserves P (f x)) (h : ∀ x ∈ l, ∀ s, P s → Throws E (f x) s) {s : σ}
    (hs : P s) : Throws E (l.forM f) s := by
  induction l generalizing s with
  | nil => exact throws_pure
  | cons x l ih =>
      rw [List.forM_eq_forM, List.forM_cons]
      refine (h x List.mem_cons_self s hs).bind_preserves (hkeep x List.mem_cons_self) hs
        fun _ t ht => ?_
      exact ih (fun y hy => hkeep y (List.mem_cons_of_mem x hy))
        (fun y hy => h y (List.mem_cons_of_mem x hy)) ht

/-- Started in `s`, the computation ends normally. -/
abbrev Returns (x : EStateM ε σ α) (s : σ) : Prop := Throws (fun _ => False) x s

/-- What cannot raise need not be looked at. -/
lemma returns_bind_left {x : EStateM ε σ α} {f : α → EStateM ε σ β} {s : σ}
    (hf : ∀ a t, Returns (f a) t) : Returns (x >>= f) s ↔ Returns x s := by
  simp only [Returns, Throws, EStateM.run_bind]
  cases hx : x.run s with
  | ok a t => exact iff_true_intro (hf a t)
  | error e t => rfl

/-- A sequence returns if both parts do, where the second one's returning does not depend on the
state in which the first one ends. -/
lemma returns_bind {x : EStateM ε σ α} {f : α → EStateM ε σ β} {s : σ} {P : α → σ → Prop}
    {c : Prop} (hpost : Post x s P fun _ => True)
    (hf : ∀ a t, P a t → (Returns (f a) t ↔ c)) :
    Returns (x >>= f) s ↔ Returns x s ∧ c := by
  rw [Post] at hpost
  simp only [Returns, Throws, EStateM.run_bind]
  cases hx : x.run s with
  | ok a t =>
      rw [hx] at hpost
      exact (hf a t hpost).trans (iff_of_eq (true_and c)).symm
  | error e t => exact (iff_of_eq (false_and c)).symm

end Throws

end Raising
