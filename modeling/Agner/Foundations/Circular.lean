import Mathlib.Tactic

/-!
Lists laid out in a circular array, the element with index `i` in the slot `i` modulo the length of
the array.

* `pos`: the slot of an index; `pos_ne` says that indices less than the length apart have slots of
  their own.
* `Holds`: the array holds a list from a given index on. Elements are added at the right end
  (`Holds.concat`) and removed at both (`Holds.init`, `Holds.tail`).
-/

namespace Circular

variable {α : Type*}

/-- The slot of an index in an array of length `n`. -/
def pos (n : ℕ) (i : ℤ) : ℕ := (i % n).toNat

lemma pos_lt {n : ℕ} (hn : 0 < n) (i : ℤ) : pos n i < n := by
  have hpos : (0 : ℤ) < n := by exact_mod_cast hn
  have hlt := Int.emod_lt_of_pos i hpos
  have hle := Int.emod_nonneg i hpos.ne'
  rw [pos]
  omega

lemma pos_ne {n : ℕ} {i j : ℤ} (hij : i < j) (hlt : j - i < n) : pos n i ≠ pos n j := by
  intro heq
  have hpos : (0 : ℤ) < n := by omega
  have hi := Int.emod_nonneg i hpos.ne'
  have hj := Int.emod_nonneg j hpos.ne'
  have hmod : i % n = j % n := by
    rw [pos, pos] at heq
    omega
  have hdvd : (n : ℤ) ∣ j - i := Int.ModEq.dvd hmod
  exact absurd (Int.le_of_dvd (by omega) hdvd) (by omega)

/-- The array holds the list from the index `lo` on. -/
structure Holds (data : List α) (lo : ℤ) (items : List α) : Prop where
  fits : items.length ≤ data.length
  get : ∀ j < items.length, data[pos data.length (lo + j)]? = items[j]?

variable {data items : List α} {lo : ℤ} {x : α}

lemma Holds.nil (data : List α) (lo : ℤ) : Holds data lo [] :=
  ⟨Nat.zero_le _, fun _ hj => absurd hj (Nat.not_lt_zero _)⟩

lemma Holds.head (h : Holds data lo (x :: items)) : data[pos data.length lo]? = some x := by
  have hget := h.get 0 (Nat.succ_pos _)
  rwa [Nat.cast_zero, add_zero] at hget

lemma Holds.tail (h : Holds data lo (x :: items)) : Holds data (lo + 1) items := by
  refine ⟨(Nat.le_succ _).trans h.fits, fun j hj => ?_⟩
  have hget := h.get (j + 1) (Nat.succ_lt_succ hj)
  rwa [List.getElem?_cons_succ, Nat.cast_succ, add_comm (j : ℤ), ← add_assoc] at hget

lemma Holds.last (h : Holds data lo (items ++ [x])) :
    data[pos data.length (lo + items.length)]? = some x := by
  rw [h.get items.length (by simp)]
  simp

lemma Holds.init (h : Holds data lo (items ++ [x])) : Holds data lo items := by
  have hlen : (items ++ [x]).length = items.length + 1 := by simp
  refine ⟨by have := h.fits; omega, fun j hj => ?_⟩
  rw [h.get j (by omega), List.getElem?_append_left hj]

/-- A list that does not fill the array can be extended. -/
lemma Holds.concat (h : Holds data lo items) (hlt : items.length < data.length) (x : α) :
    Holds (data.set (pos data.length (lo + items.length)) x) lo (items ++ [x]) := by
  refine ⟨by simpa using hlt, fun j hj => ?_⟩
  rw [List.length_set]
  rcases Nat.lt_or_ge j items.length with hj' | hj'
  · have hne : pos data.length (lo + j) ≠ pos data.length (lo + items.length) :=
      pos_ne (by omega) (by omega)
    rw [List.getElem?_set_ne hne.symm, List.getElem?_append_left hj', h.get j hj']
  · obtain rfl : j = items.length := by
      rw [List.length_append, List.length_singleton] at hj
      omega
    rw [List.getElem?_set_self (pos_lt (by omega) _)]
    simp

end Circular
