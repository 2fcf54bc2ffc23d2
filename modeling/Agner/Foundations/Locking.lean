import Mathlib.Logic.Function.Basic
import Mathlib.Logic.Relation
import Mathlib.Tactic

/-!
Threads that take locks in nested sections: while a thread holds locks, it may come to want
another one, and it leaves its sections in the reverse order.

* `Locking`: who holds each lock, the locks of each thread with the newest first, and the lock
  it waits for.
* `Moves calls`: one move of one thread, where a thread that holds locks wants `l` only if
  `calls k l` for its newest lock `k`.
* `Nested calls`: the invariant of such moves. `no_wait_cycle`: if `calls` has no cycle, no
  threads wait for each other in a circle; a thread that wants a lock it holds is a circle of
  one.
-/

open Relation Function

/-- The locks `L` and the threads `T`. -/
structure Locking (L T : Type*) where
  holder : L → Option T
  stack : T → List L
  wants : T → Option L

namespace Locking

variable {L T : Type*}

/-- The thread `t` waits for the thread `t'`. -/
def WaitsFor (s : Locking L T) (t t' : T) : Prop :=
  ∃ l, s.wants t = some l ∧ s.holder l = some t'

/-- Stacks and holders agree, and what a thread took or wants later is called, through others,
by what it took earlier. -/
structure Nested (calls : L → L → Prop) (s : Locking L T) : Prop where
  owned : ∀ t, ∀ l ∈ s.stack t, s.holder l = some t
  held : ∀ t l, s.holder l = some t → l ∈ s.stack t
  distinct : ∀ t, (s.stack t).Nodup
  nested : ∀ t, (s.stack t).Pairwise fun l k => TransGen calls k l
  wanted : ∀ t l, s.wants t = some l → ∀ k ∈ s.stack t, TransGen calls k l

variable {calls : L → L → Prop} {s s' : Locking L T} {t t' : T} {l : L}

/-! ### Moves -/

section Moves

variable [DecidableEq L] [DecidableEq T]

/-- The thread `t` now wants `l`. -/
def want (s : Locking L T) (t : T) (l : L) : Locking L T :=
  { s with wants := update s.wants t (some l) }

/-- The thread `t` takes `l`, which it wanted. -/
def acquire (s : Locking L T) (t : T) (l : L) : Locking L T :=
  { holder := update s.holder l (some t)
    stack := update s.stack t (l :: s.stack t)
    wants := update s.wants t none }

/-- The thread `t` gives `l` back and keeps `ls`. -/
def release (s : Locking L T) (t : T) (l : L) (ls : List L) : Locking L T :=
  { s with holder := update s.holder l none, stack := update s.stack t ls }

/-- One move of one thread. -/
inductive Moves (calls : L → L → Prop) : Locking L T → Locking L T → Prop where
  | stay (s : Locking L T) : Moves calls s s
  | want (s : Locking L T) (t : T) (l : L) (hidle : s.wants t = none)
      (hcalls : ∀ k ∈ (s.stack t).head?, calls k l) : Moves calls s (s.want t l)
  | acquire (s : Locking L T) (t : T) (l : L) (hwants : s.wants t = some l)
      (hfree : s.holder l = none) : Moves calls s (s.acquire t l)
  | release (s : Locking L T) (t : T) (l : L) (ls : List L) (hstack : s.stack t = l :: ls) :
      Moves calls s (s.release t l ls)

omit [DecidableEq L] [DecidableEq T] in
/-- What the newest lock calls is called, through it, by every lock below it. -/
lemma Nested.calls_of_head (h : Nested calls s)
    (hcalls : ∀ k ∈ (s.stack t).head?, calls k l) : ∀ k ∈ s.stack t, TransGen calls k l := by
  intro k hk
  have hnested := h.nested t
  cases hst : s.stack t with
  | nil => simp [hst] at hk
  | cons top below =>
      rw [hst] at hk hcalls hnested
      have htop : calls top l := hcalls top rfl
      rcases List.mem_cons.mp hk with rfl | hk
      · exact TransGen.single htop
      · exact (List.rel_of_pairwise_cons hnested hk).tail htop

omit [DecidableEq L] in
lemma Nested.want (h : Nested calls s) (hcalls : ∀ k ∈ (s.stack t).head?, calls k l) :
    Nested calls (s.want t l) := by
  refine ⟨h.owned, h.held, h.distinct, h.nested, fun t' l' hw k hk => ?_⟩
  rw [Locking.want] at hw hk
  by_cases ht : t' = t
  · subst ht
    obtain rfl : l = l' := by simpa using hw
    exact h.calls_of_head hcalls k hk
  · exact h.wanted t' l' (by simpa [ht] using hw) k hk

lemma mem_stack_acquire {k : L} :
    k ∈ (s.acquire t l).stack t' ↔ (t' = t ∧ k = l) ∨ k ∈ s.stack t' := by
  rw [acquire]
  by_cases ht : t' = t
  · subst ht
    simp
  · simp [ht]

lemma Nested.acquire (h : Nested calls s) (hwants : s.wants t = some l)
    (hfree : s.holder l = none) : Nested calls (s.acquire t l) := by
  have hnew : ∀ t', l ∉ s.stack t' := by
    intro t' hl
    rw [h.owned t' l hl] at hfree
    cases hfree
  have hholder : ∀ k, (s.acquire t l).holder k = if k = l then some t else s.holder k :=
    fun k => update_apply ..
  have hstack : ∀ t', (s.acquire t l).stack t' = if t' = t then l :: s.stack t else s.stack t' :=
    fun t' => update_apply ..
  refine ⟨fun t' k hk => ?_, fun t' k hk => ?_, fun t' => ?_, fun t' => ?_,
    fun t' l' hw k hk => ?_⟩
  · rw [hholder]
    rcases mem_stack_acquire.mp hk with ⟨rfl, rfl⟩ | hk
    · exact if_pos rfl
    · rw [if_neg (ne_of_mem_of_not_mem hk (hnew t'))]
      exact h.owned t' k hk
  · rw [hholder] at hk
    rw [mem_stack_acquire]
    split at hk
    · rename_i hkl
      exact Or.inl ⟨(Option.some.inj hk).symm, hkl⟩
    · exact Or.inr (h.held t' k hk)
  · rw [hstack]
    split
    · exact List.nodup_cons.mpr ⟨hnew t, h.distinct t⟩
    · exact h.distinct t'
  · rw [hstack]
    split
    · exact List.pairwise_cons.mpr ⟨h.wanted t l hwants, h.nested t⟩
    · exact h.nested t'
  · have ht : t' ≠ t := by
      rintro rfl
      simp [Locking.acquire] at hw
    have hw' : s.wants t' = some l' := by simpa [Locking.acquire, ht] using hw
    rcases mem_stack_acquire.mp hk with ⟨rfl, -⟩ | hk
    · exact absurd rfl ht
    · exact h.wanted t' l' hw' k hk

lemma Nested.release (h : Nested calls s) {ls : List L} (hstack : s.stack t = l :: ls) :
    Nested calls (s.release t l ls) := by
  have hholder : ∀ k, (s.release t l ls).holder k = if k = l then none else s.holder k :=
    fun k => update_apply ..
  have hstack' : ∀ t', (s.release t l ls).stack t' = if t' = t then ls else s.stack t' :=
    fun t' => update_apply ..
  have hsub : ∀ t', ((s.release t l ls).stack t').Sublist (s.stack t') := by
    intro t'
    rw [hstack']
    split
    · rename_i ht
      rw [ht, hstack]
      exact List.sublist_cons_self l ls
    · exact List.Sublist.refl _
  -- the released lock is on no stack any more
  have hgone : ∀ t', l ∉ (s.release t l ls).stack t' := by
    intro t' hl
    have howned := h.owned t' l ((hsub t').subset hl)
    rw [h.owned t l (by simp [hstack])] at howned
    obtain rfl := Option.some.inj howned
    rw [hstack', if_pos rfl] at hl
    have hnodup := h.distinct t
    rw [hstack] at hnodup
    exact (List.nodup_cons.mp hnodup).1 hl
  refine ⟨fun t' k hk => ?_, fun t' k hk => ?_, fun t' => (h.distinct t').sublist (hsub t'),
    fun t' => (h.nested t').sublist (hsub t'),
    fun t' l' hw k hk => h.wanted t' l' hw k ((hsub t').subset hk)⟩
  · rw [hholder, if_neg (ne_of_mem_of_not_mem hk (hgone t'))]
    exact h.owned t' k ((hsub t').subset hk)
  · rw [hholder] at hk
    split at hk
    · cases hk
    · rename_i hkl
      have hk' := h.held t' k hk
      rw [hstack']
      split
      · rename_i ht
        rw [ht, hstack] at hk'
        exact (List.mem_cons.mp hk').resolve_left hkl
      · exact hk'

/-- Every move keeps the invariant. -/
lemma Nested.moves (h : Nested calls s) (hmove : Moves calls s s') : Nested calls s' := by
  cases hmove with
  | stay => exact h
  | want t l _ hcalls => exact h.want hcalls
  | acquire t l hwants hfree => exact h.acquire hwants hfree
  | release t l ls hstack => exact h.release hstack

end Moves

/-! ### Waiting -/

/-- A chain of waiting threads climbs: the lock its first thread wants is, or calls through
others, a lock of its last thread. -/
lemma Nested.reaches_of_waits (h : Nested calls s) (hw : TransGen s.WaitsFor t t') :
    ∃ l k, s.wants t = some l ∧ s.holder k = some t' ∧ ReflTransGen calls l k := by
  induction hw with
  | single hstep =>
      obtain ⟨l, hl, hheld⟩ := hstep
      exact ⟨l, l, hl, hheld, ReflTransGen.refl⟩
  | tail _ hstep ih =>
      obtain ⟨l, k, hl, hk, hlk⟩ := ih
      obtain ⟨l', hl', hheld⟩ := hstep
      have hup := h.wanted _ l' hl' k (h.held _ k hk)
      exact ⟨l, l', hl, hheld, hlk.trans hup.to_reflTransGen⟩

/-- Without a cycle of calls there is no circle of waiting threads. -/
lemma Nested.no_wait_cycle (h : Nested calls s) (hacyclic : ∀ l, ¬ TransGen calls l l) (t : T) :
    ¬ TransGen s.WaitsFor t t := by
  intro hw
  obtain ⟨l, k, hl, hk, hlk⟩ := h.reaches_of_waits hw
  have hkl := h.wanted t l hl k (h.held t k hk)
  exact hacyclic k (hkl.trans_left hlk)

end Locking
