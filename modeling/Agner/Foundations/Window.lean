import Mathlib.Tactic

/-!
The values of a function on the integers from `lo` up to, but not including, `hi`, as a list.

* `window_cons`, `window_concat`: the window without its first or its last value.
* `window_congr`: a window depends only on the values in it.
-/

/-- The list of the values at `lo`, `lo + 1`, …, `hi - 1`. -/
def window {α : Type*} (f : ℤ → α) (lo hi : ℤ) : List α :=
  (List.range (hi - lo).toNat).map fun k : ℕ => f (lo + k)

section Window

variable {α : Type*} {f g : ℤ → α} {lo hi : ℤ}

lemma window_eq_nil (h : hi ≤ lo) : window f lo hi = [] := by
  rw [window, Int.toNat_of_nonpos (by omega), List.range_zero, List.map_nil]

lemma window_cons (h : lo < hi) : window f lo hi = f lo :: window f (lo + 1) hi := by
  have hlen : (hi - lo).toNat = (hi - (lo + 1)).toNat + 1 := by omega
  rw [window, window, hlen, List.range_succ_eq_map, List.map_cons, List.map_map]
  congr 1
  · simp
  · refine List.map_congr_left fun k _ => congrArg f ?_
    push_cast
    ring

lemma window_concat (h : lo ≤ hi) : window f lo (hi + 1) = window f lo hi ++ [f hi] := by
  have hlen : (hi + 1 - lo).toNat = (hi - lo).toNat + 1 := by omega
  have hlast : lo + ((hi - lo).toNat : ℤ) = hi := by omega
  rw [window, window, hlen, List.range_succ, List.map_append, List.map_singleton, hlast]

lemma window_congr (h : ∀ i, lo ≤ i → i < hi → f i = g i) : window f lo hi = window g lo hi := by
  refine List.map_congr_left fun k hk => h _ (by omega) ?_
  have := List.mem_range.mp hk
  omega

end Window
