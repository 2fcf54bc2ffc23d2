import Mathlib.Tactic

/-!
Rate limits over a sliding window of time.

A limiter keeps the times of the requests it has seen. It forgets those that are more than a
window back before it answers the next request, so its memory is only a part of the log of all
requests.

* `recent`: the times that are at most a window back.
* `recent_recent`: what is forgotten now would not count later.
* `granted_le`: if every granted request has seen fewer recent requests than the limit, then no
  closed interval as long as the window holds more granted requests than the limit.
-/

namespace RateLimit

variable {τ : Type*}

/-- A request, the time at which it was made, and whether it was granted. -/
structure Request (τ : Type*) where
  time : τ
  granted : Bool
  deriving DecidableEq

variable [AddCommGroup τ] [LinearOrder τ]

/-- The times that are at most `width` back from `now`. -/
def recent (width now : τ) (times : List τ) : List τ :=
  times.filter fun t => decide (now - t ≤ width)

lemma recent_append (width now : τ) (times times' : List τ) :
    recent width now (times ++ times') = recent width now times ++ recent width now times' :=
  List.filter_append ..

variable [IsOrderedAddMonoid τ]

/-- As time goes on, times only leave the window. -/
lemma recent_recent {width now later : τ} (h : now ≤ later) (times : List τ) :
    recent width later (recent width now times) = recent width later times := by
  rw [recent, recent, List.filter_filter]
  refine List.filter_congr fun t _ => ?_
  rw [← Bool.decide_and]
  refine decide_eq_decide.mpr ⟨fun ht => ht.1, fun ht => ⟨ht, ?_⟩⟩
  exact (sub_le_sub_right h t).trans ht

/-- The request is granted and lies in the closed interval of length `width` from `start` on. -/
def grantedIn (width start : τ) (r : Request τ) : Bool :=
  r.granted && (decide (start ≤ r.time) && decide (r.time ≤ start + width))

/-- Of the requests before one in the interval, those in the interval are recent. -/
lemma length_filter_grantedIn_le {width start now : τ} (hnow : now ≤ start + width)
    (log : List (Request τ)) :
    (log.filter (grantedIn width start)).length ≤
      (recent width now (log.map Request.time)).length := by
  rw [recent, List.filter_map, List.length_map]
  refine List.Sublist.length_le (List.monotone_filter_right log fun r hr => ?_)
  simp only [grantedIn, Bool.and_eq_true, decide_eq_true_eq, Function.comp_apply] at hr ⊢
  calc now - r.time ≤ start + width - start := sub_le_sub hnow hr.2.1
    _ = width := add_sub_cancel_left start width

/-- No interval as long as the window holds more granted requests than the limit. -/
lemma granted_le {limit : ℕ} {width : τ} {log : List (Request τ)}
    (h : ∀ before r after, log = before ++ r :: after → r.granted = true →
      (recent width r.time (before.map Request.time)).length < limit) (start : τ) :
    (log.filter (grantedIn width start)).length ≤ limit := by
  induction log using List.reverseRecOn with
  | nil => exact Nat.zero_le _
  | append_singleton log r ih =>
      have hlog : (log.filter (grantedIn width start)).length ≤ limit := by
        refine ih fun before r' after hsplit => h before r' (after ++ [r]) ?_
        rw [hsplit, List.append_assoc, List.cons_append]
      rw [List.filter_append, List.length_append]
      by_cases hr : grantedIn width start r = true
      · -- the last request is granted and in the interval: the others in it are recent
        rw [List.filter_cons_of_pos hr, List.filter_nil, List.length_singleton]
        simp only [grantedIn, Bool.and_eq_true, decide_eq_true_eq] at hr
        exact (length_filter_grantedIn_le hr.2.2 log).trans_lt (h log r [] rfl hr.1)
      · rwa [List.filter_cons_of_neg hr, List.filter_nil, List.length_nil, Nat.add_zero]

end RateLimit
