import Mathlib.Data.Rat.Floor
import Agner.ActorControl

/-!
The arithmetic of timeouts: `duration_cast`, the deadline of `GenServer::call` and the one that
`schedule_after` stores.

Readings and durations of a clock are signed 64-bit counts of nanoseconds. A sum that leaves their
range has no meaning in the language; here it wraps, as it does on the machines in use.

* `Factor`, `Count`: a duration type against the clock's, and a value of such a type.
* `durationCast`, `tryReceive`, `callDeadline`, `callTimer`: what the code computes.
* `Count.rounded`: the ticks of a timeout, computed without overflow; `Count.exact`: the ticks it is
  meant to have, which the rounding of a floating-point type may miss.
* `deadlines_exact_iff`: the values for which the deadlines are exact.
-/

namespace Agner

namespace Durations

/-- `std::ratio_divide<Period, Clock::period>` of a duration type. -/
structure Factor where
  num : Int64
  den : Int64
  num_pos : 0 < num
  den_pos : 0 < den

/-- The arithmetic of a floating-point type: a result is rounded to a value of the type, and is
`none` if it is not finite. -/
structure Rounding where
  round : ℚ → Option ℚ
  nonneg : ∀ x y, 0 ≤ x → round x = some y → 0 ≤ y

/-- The count of a duration, by the type in which `duration_cast` computes with it. -/
inductive Count where
  /-- `int64_t`, for a signed type or a narrow one. -/
  | signed (count : Int64)
  /-- `uint64_t`. -/
  | unsigned (count : UInt64)
  /-- A floating-point type; the count is `none` if it is not finite. -/
  | floating (count : Option ℚ) (rounding : Rounding)

/-- The conversion of a floating-point value to an integer discards the fraction. -/
def truncate (x : ℚ) : ℤ := if 0 ≤ x then ⌊x⌋ else ⌈x⌉

/-- The product that `duration_cast` forms in a floating-point type, truncated. Both terms of the
factor are converted to the type first, and each operation rounds. -/
def floatingTicks (f : Factor) (count : Option ℚ) (rounding : Rounding) : Option ℤ :=
  count.bind fun c => (rounding.round f.num.toInt).bind fun num =>
    (rounding.round f.den.toInt).bind fun den => (rounding.round (c * num)).bind fun product =>
      (rounding.round (product / den)).map truncate

/-- `std::chrono::duration_cast` to the clock's duration. The conversion of a floating-point value
out of range has no result. -/
def durationCast (f : Factor) : Count → Option Int64
  | .signed count => some (count * f.num / f.den)
  | .unsigned count => some (count * f.num.toUInt64 / f.den.toUInt64).toInt64
  | .floating count rounding =>
      (floatingTicks f count rounding).bind fun ticks =>
        if -2 ^ 63 ≤ ticks ∧ ticks < 2 ^ 63 then some (Int64.ofInt ticks) else none

/-- `schedule_after`: the deadline of the new timer. -/
def scheduleAfter (now delay : Int64) : Int64 := now + delay

/-- `try_receive`: the deadline of its timer. -/
def tryReceive (f : Factor) (timeout : Count) (now : Int64) : Option Int64 :=
  (durationCast f timeout).map fun delay => scheduleAfter now delay

/-- `call`: its deadline. -/
def callDeadline (f : Factor) (timeout : Count) (now : Int64) : Option Int64 :=
  (durationCast f timeout).map fun ticks => now + ticks

/-- One iteration of `call`: the deadline of the timer that `try_receive` arms, or none if
`CallTimeout` is thrown. The clock is read for the time that remains, and once more by
`schedule_after`. -/
def callTimer (deadline now armed : Int64) : Option Int64 :=
  let remaining := deadline - now
  if remaining < 0 then none else some (scheduleAfter armed remaining)

/-! ### What is meant -/

/-- The timeout in ticks of the clock. -/
def Count.exact (f : Factor) : Count → Option ℤ
  | .signed count => some (count.toInt * f.num.toInt / f.den.toInt)
  | .unsigned count => some (count.toNat * f.num.toInt / f.den.toInt)
  | .floating count _ => count.map fun c => ⌊c * (f.num.toInt : ℚ) / (f.den.toInt : ℚ)⌋

/-- The same, with the rounding of a floating-point type. -/
def Count.rounded (f : Factor) : Count → Option ℤ
  | .signed count => some (count.toInt * f.num.toInt / f.den.toInt)
  | .unsigned count => some (count.toNat * f.num.toInt / f.den.toInt)
  | .floating count rounding => floatingTicks f count rounding

/-- The timeout is not negative. -/
def Count.Nonneg : Count → Prop
  | .signed count => 0 ≤ count
  | .unsigned _ => True
  | .floating count _ => ∀ c, count = some c → 0 ≤ c

/-- The product that `duration_cast` forms is in the range of its type. -/
def Count.Fits (f : Factor) : Count → Prop
  | .signed count => count.toInt * f.num.toInt < 2 ^ 63
  | .unsigned count => count.toNat * f.num.toInt < 2 ^ 64
  | .floating count rounding =>
      ∃ ticks, floatingTicks f count rounding = some ticks ∧ ticks < 2 ^ 63

/-- Rounding does not change the ticks of the timeout. Nothing is rounded unless the type is a
floating-point type. -/
def Count.Kept (f : Factor) (timeout : Count) : Prop := timeout.rounded f = timeout.exact f

/-- The deadline of a `try_receive` at the clock reading is the exact sum, and not in the past. -/
def TryReceiveExact (f : Factor) (timeout : Count) (now : Int64) : Prop :=
  ∃ ticks stored, timeout.exact f = some ticks ∧ tryReceive f timeout now = some stored ∧
    stored.toInt = now.toInt + ticks ∧ now ≤ stored

/-- So are the deadline of a `call` and those of the timers of its iterations, which are given by
their two clock readings. -/
def CallExact (f : Factor) (timeout : Count) (now : Int64) (iterations : List (Int64 × Int64)) :
    Prop :=
  ∃ ticks deadline, timeout.exact f = some ticks ∧ callDeadline f timeout now = some deadline ∧
    deadline.toInt = now.toInt + ticks ∧ now ≤ deadline ∧
    ∀ p ∈ iterations, ∀ stored, callTimer deadline p.1 p.2 = some stored →
      stored.toInt = p.2.toInt + (now.toInt + ticks - p.1.toInt) ∧ p.2 ≤ stored

/-! ### Machine integers -/

lemma bmod_eq (x : ℤ) : x.bmod (2 ^ 64) = (x + 2 ^ 63) % 2 ^ 64 - 2 ^ 63 := by
  rw [Int.bmod_def]
  split <;> omega

lemma bmod_of_mem {x : ℤ} (hlo : -2 ^ 63 ≤ x) (hhi : x < 2 ^ 63) : x.bmod (2 ^ 64) = x := by
  rw [bmod_eq]
  omega

/-- A sum with a reading of the clock is the one expected only if the summand is. -/
lemma eq_of_bmod_add {now x ticks : ℤ} (hnow : 0 ≤ now) (hticks : 0 ≤ ticks) (hlo : -2 ^ 63 ≤ x)
    (hhi : x < 2 ^ 63) (h : (now + x).bmod (2 ^ 64) = now + ticks) :
    x = ticks ∧ now + ticks < 2 ^ 63 := by
  rw [bmod_eq] at h
  omega

lemma Factor.num_pos' (f : Factor) : 0 < f.num.toInt := Int64.lt_iff_toInt_lt.mp f.num_pos

lemma Factor.den_pos' (f : Factor) : 0 < f.den.toInt := Int64.lt_iff_toInt_lt.mp f.den_pos

section Cast

variable {f : Factor} {timeout : Count} {ticks : ℤ} {d : Int64}

/-- Division of a product that has wrapped is too small. -/
lemma tdiv_bmod_ne {p q : ℤ} (hp : 2 ^ 63 ≤ p) (hq : 0 < q) (hq' : q < 2 ^ 63) :
    (p.bmod (2 ^ 64)).tdiv q ≠ p / q := by
  have hlt : p.bmod (2 ^ 64) + q ≤ p := by
    rw [bmod_eq]
    omega
  have hone : 1 ≤ p / q := (Int.le_ediv_iff_mul_le hq).mpr (by omega)
  rcases le_or_gt 0 (p.bmod (2 ^ 64)) with hpos | hneg
  · rw [Int.tdiv_eq_ediv_of_nonneg hpos]
    have hstep : (p.bmod (2 ^ 64) + q) / q ≤ p / q := Int.ediv_le_ediv hq hlt
    rw [Int.add_ediv_of_dvd_right (dvd_refl q), Int.ediv_self hq.ne'] at hstep
    omega
  · have hle : 0 ≤ (-p.bmod (2 ^ 64)).tdiv q := Int.tdiv_nonneg (by omega) hq.le
    rw [Int.neg_tdiv] at hle
    omega

lemma toInt_signed (f : Factor) (count : Int64) :
    (count * f.num / f.den).toInt =
      ((count.toInt * f.num.toInt).bmod (2 ^ 64)).tdiv f.den.toInt := by
  have hden : f.den ≠ -1 := by
    intro h
    have := f.den_pos
    rw [h] at this
    exact absurd this (by decide)
  rw [Int64.toInt_div_of_ne_right _ _ hden, Int64.toInt_mul]

lemma toNat_toUInt64 {x : Int64} (hx : 0 < x) : (x.toUInt64.toNat : ℤ) = x.toInt := by
  rw [Int64.toNat_toUInt64_of_le (Int64.le_of_lt hx)]
  have := Int64.lt_iff_toInt_lt.mp hx
  exact Int.toNat_of_nonneg this.le

lemma toInt_unsigned (f : Factor) (count : UInt64) :
    (count * f.num.toUInt64 / f.den.toUInt64).toInt64.toInt =
      ((count.toNat * f.num.toInt % 2 ^ 64) / f.den.toInt).bmod (2 ^ 64) := by
  rw [← toNat_toUInt64 f.num_pos, ← toNat_toUInt64 f.den_pos]
  have hnat : ((count * f.num.toUInt64 / f.den.toUInt64).toNat : ℤ) =
      (count.toNat * f.num.toUInt64.toNat % 2 ^ 64) / f.den.toUInt64.toNat := by
    rw [UInt64.toNat_div, UInt64.toNat_mul]
    push_cast
    rfl
  rw [← hnat]
  exact BitVec.toInt_eq_toNat_bmod _

/-- A count that is not negative has a product that is not negative. -/
lemma floatingTicks_nonneg {count : Option ℚ} {rounding : Rounding}
    (hcount : ∀ c, count = some c → 0 ≤ c) (h : floatingTicks f count rounding = some ticks) :
    0 ≤ ticks := by
  simp only [floatingTicks, Option.bind_eq_some_iff, Option.map_eq_some_iff] at h
  obtain ⟨c, hc, num, hnum, den, hden, product, hproduct, quotient, hquotient, rfl⟩ := h
  have hnum' : (0 : ℚ) ≤ num := rounding.nonneg _ _ (by exact_mod_cast f.num_pos'.le) hnum
  have hden' : (0 : ℚ) ≤ den := rounding.nonneg _ _ (by exact_mod_cast f.den_pos'.le) hden
  have hproduct' := rounding.nonneg _ _ (mul_nonneg (hcount c hc) hnum') hproduct
  have hquotient' := rounding.nonneg _ _ (div_nonneg hproduct' hden') hquotient
  rw [truncate, if_pos hquotient']
  exact Int.floor_nonneg.mpr hquotient'

lemma den_lt (f : Factor) : f.den.toInt < 2 ^ 63 := f.den.toInt_lt

/-- The conversion is right if the product fits. -/
lemma durationCast_of_fits (hnonneg : timeout.Nonneg) (hfits : timeout.Fits f)
    (hexact : timeout.rounded f = some ticks) (hticks : ticks < 2 ^ 63) :
    ∃ d, durationCast f timeout = some d ∧ d.toInt = ticks := by
  have hnum := f.num_pos'
  have hden := f.den_pos'
  cases timeout with
  | signed count =>
      have hcount : 0 ≤ count.toInt := Int64.le_iff_toInt_le.mp hnonneg
      have hproduct : 0 ≤ count.toInt * f.num.toInt := mul_nonneg hcount hnum.le
      obtain rfl : _ = ticks := Option.some.inj hexact
      refine ⟨_, rfl, ?_⟩
      rw [toInt_signed, bmod_of_mem (by omega) hfits, Int.tdiv_eq_ediv_of_nonneg hproduct]
  | unsigned count =>
      have hproduct : 0 ≤ (count.toNat : ℤ) * f.num.toInt := by positivity
      obtain rfl : _ = ticks := Option.some.inj hexact
      refine ⟨_, rfl, ?_⟩
      have hquotient := Int.ediv_nonneg hproduct hden.le
      rw [toInt_unsigned, Int.emod_eq_of_lt hproduct hfits, bmod_of_mem (by omega) hticks]
  | floating count rounding =>
      have hrounded : floatingTicks f count rounding = some ticks := hexact
      have hpos : 0 ≤ ticks := floatingTicks_nonneg hnonneg hrounded
      refine ⟨Int64.ofInt ticks, ?_, Int64.toInt_ofInt_of_le (by omega) hticks⟩
      rw [durationCast, hrounded, Option.bind_some, if_pos ⟨by omega, hticks⟩]

/-- The conversion is wrong if the product does not fit. -/
lemma fits_of_durationCast (hnonneg : timeout.Nonneg)
    (hexact : timeout.rounded f = some ticks) (hticks : ticks < 2 ^ 63)
    (hcast : durationCast f timeout = some d) (hd : d.toInt = ticks) : timeout.Fits f := by
  have hnum := f.num_pos'
  have hden := f.den_pos'
  have hlt := den_lt f
  cases timeout with
  | signed count =>
      obtain rfl : _ = ticks := Option.some.inj hexact
      obtain rfl : _ = d := Option.some.inj hcast
      by_contra hbig
      rw [toInt_signed] at hd
      exact tdiv_bmod_ne (not_lt.mp hbig) hden hlt hd
  | unsigned count =>
      obtain rfl : _ = ticks := Option.some.inj hexact
      obtain rfl : _ = d := Option.some.inj hcast
      by_contra hbig
      have hbig' : (2 : ℤ) ^ 64 ≤ count.toNat * f.num.toInt := not_lt.mp hbig
      rw [toInt_unsigned] at hd
      set p : ℤ := count.toNat * f.num.toInt with hp
      have hsmall : p % 2 ^ 64 + f.den.toInt ≤ p := by omega
      have hstep : (p % 2 ^ 64 + f.den.toInt) / f.den.toInt ≤ p / f.den.toInt :=
        Int.ediv_le_ediv hden hsmall
      rw [Int.add_ediv_of_dvd_right (dvd_refl _), Int.ediv_self hden.ne'] at hstep
      have hpos : 0 ≤ p % 2 ^ 64 / f.den.toInt := Int.ediv_nonneg (by omega) hden.le
      rw [bmod_of_mem (by omega) (by omega)] at hd
      omega
  | floating count rounding => exact ⟨ticks, hexact, hticks⟩

lemma rounded_nonneg (hnonneg : timeout.Nonneg) (hexact : timeout.rounded f = some ticks) :
    0 ≤ ticks := by
  cases timeout with
  | signed count =>
      obtain rfl : _ = ticks := Option.some.inj hexact
      have hcount : 0 ≤ count.toInt := Int64.le_iff_toInt_le.mp hnonneg
      exact Int.ediv_nonneg (mul_nonneg hcount f.num_pos'.le) f.den_pos'.le
  | unsigned count =>
      obtain rfl : _ = ticks := Option.some.inj hexact
      exact Int.ediv_nonneg (mul_nonneg (by positivity) f.num_pos'.le) f.den_pos'.le
  | floating count rounding => exact floatingTicks_nonneg hnonneg hexact

/-- A conversion whose product fits is right up to the range of the result. -/
lemma durationCast_bmod (hnonneg : timeout.Nonneg) (hfits : timeout.Fits f)
    (hexact : timeout.rounded f = some ticks) :
    ∃ d, durationCast f timeout = some d ∧ d.toInt = ticks.bmod (2 ^ 64) := by
  by_cases hticks : ticks < 2 ^ 63
  · obtain ⟨d, hcast, hd⟩ := durationCast_of_fits hnonneg hfits hexact hticks
    have := rounded_nonneg hnonneg hexact
    exact ⟨d, hcast, by rw [hd, bmod_of_mem (by omega) hticks]⟩
  · cases timeout with
    | signed count =>
        obtain rfl : _ = ticks := Option.some.inj hexact
        have hcount : 0 ≤ count.toInt := Int64.le_iff_toInt_le.mp hnonneg
        have hproduct := mul_nonneg hcount f.num_pos'.le
        exact absurd ((Int.ediv_le_self _ hproduct).trans_lt hfits) hticks
    | unsigned count =>
        obtain rfl : _ = ticks := Option.some.inj hexact
        have hproduct : 0 ≤ (count.toNat : ℤ) * f.num.toInt :=
          mul_nonneg (by positivity) f.num_pos'.le
        exact ⟨_, rfl, by rw [toInt_unsigned, Int.emod_eq_of_lt hproduct hfits]⟩
    | floating count rounding =>
        obtain ⟨ticks', hrounded, hlt⟩ := hfits
        obtain rfl : ticks' = ticks := Option.some.inj (hrounded.symm.trans hexact)
        exact absurd hlt hticks

/-- A sum with any clock reading is exact if nothing leaves its range. -/
lemma sum_exact {now : Int64} (hnonneg : timeout.Nonneg) (hfits : timeout.Fits f)
    (hexact : timeout.rounded f = some ticks) (hlt : now.toInt + ticks < 2 ^ 63) :
    ∃ d, durationCast f timeout = some d ∧ (now + d).toInt = now.toInt + ticks ∧
      now ≤ now + d := by
  obtain ⟨d, hcast, hd⟩ := durationCast_bmod hnonneg hfits hexact
  have hticks := rounded_nonneg hnonneg hexact
  have hnow := now.le_toInt
  have hsum : (now + d).toInt = now.toInt + ticks := by
    rw [Int64.toInt_add, hd, Int.add_bmod_bmod, bmod_of_mem (by omega) hlt]
  exact ⟨d, hcast, hsum, Int64.le_iff_toInt_le.mpr (by omega)⟩

/-- A conversion that is right has not been spoilt by rounding. -/
lemma rounded_of_durationCast (hcast : durationCast f timeout = some d)
    (hexact : timeout.exact f = some ticks) (hd : d.toInt = ticks) :
    timeout.rounded f = some ticks := by
  cases timeout with
  | signed count => exact hexact
  | unsigned count => exact hexact
  | floating count rounding =>
      obtain ⟨r, hr, hcast⟩ := Option.bind_eq_some_iff.mp hcast
      rw [Option.ite_none_right_eq_some] at hcast
      obtain ⟨⟨hlo, hhi⟩, hcast⟩ := hcast
      obtain rfl := Option.some.inj hcast
      rw [Int64.toInt_ofInt_of_le (by omega) hhi] at hd
      exact hr.trans (congrArg some hd)

/-- The exact number of ticks is not negative either. -/
lemma Count.exact_nonneg (hnonneg : timeout.Nonneg) (hexact : timeout.exact f = some ticks) :
    0 ≤ ticks := by
  cases timeout with
  | signed count =>
      exact rounded_nonneg hnonneg (show (Count.signed count).rounded f = _ from hexact)
  | unsigned count =>
      exact rounded_nonneg hnonneg (show (Count.unsigned count).rounded f = _ from hexact)
  | floating count rounding =>
      obtain ⟨c, hc, rfl⟩ := Option.map_eq_some_iff.mp hexact
      have hnum : (0 : ℚ) ≤ f.num.toInt := by exact_mod_cast f.num_pos'.le
      have hden : (0 : ℚ) ≤ f.den.toInt := by exact_mod_cast f.den_pos'.le
      exact Int.floor_nonneg.mpr (div_nonneg (mul_nonneg (hnonneg c hc) hnum) hden)

/-- A sum with a clock reading is exact if and only if nothing leaves its range and rounding
changes nothing. -/
lemma deadline_exact_iff {now : Int64} (hnow : 0 ≤ now) (hnonneg : timeout.Nonneg)
    (hexact : timeout.exact f = some ticks) :
    (∃ d, durationCast f timeout = some d ∧ (now + d).toInt = now.toInt + ticks ∧ now ≤ now + d) ↔
      timeout.Fits f ∧ timeout.Kept f ∧ now.toInt + ticks < 2 ^ 63 := by
  have hnow' : 0 ≤ now.toInt := Int64.le_iff_toInt_le.mp hnow
  have hticks := Count.exact_nonneg hnonneg hexact
  constructor
  · rintro ⟨d, hcast, hsum, -⟩
    rw [Int64.toInt_add] at hsum
    obtain ⟨hd, hlt⟩ := eq_of_bmod_add hnow' hticks d.le_toInt d.toInt_lt hsum
    have hrounded := rounded_of_durationCast hcast hexact hd
    exact ⟨fits_of_durationCast hnonneg hrounded (by omega) hcast hd,
      hrounded.trans hexact.symm, hlt⟩
  · rintro ⟨hfits, hkept, hlt⟩
    exact sum_exact hnonneg hfits (hkept.trans hexact) hlt

end Cast

/-! ### The entry points -/

/-- Where an iteration of `call` waits, the second sum stays in range as well. -/
def IterationsFit (now : Int64) (ticks : ℤ) (iterations : List (Int64 × Int64)) : Prop :=
  ∀ p ∈ iterations, p.1.toInt ≤ now.toInt + ticks →
    p.2.toInt + (now.toInt + ticks - p.1.toInt) < 2 ^ 63

/-- The timer of an iteration is due when the call is, if the sums stay in range. -/
lemma callTimer_exact_iff {deadline now armed : Int64} (hdeadline : 0 ≤ deadline) (hnow : 0 ≤ now)
    (harmed : now ≤ armed) :
    (∀ stored, callTimer deadline now armed = some stored →
      stored.toInt = armed.toInt + (deadline.toInt - now.toInt) ∧ armed ≤ stored) ↔
      (now.toInt ≤ deadline.toInt →
        armed.toInt + (deadline.toInt - now.toInt) < 2 ^ 63) := by
  have hd := Int64.le_iff_toInt_le.mp hdeadline
  have hn := Int64.le_iff_toInt_le.mp hnow
  have ha := Int64.le_iff_toInt_le.mp harmed
  rw [Int64.toInt_zero] at hd hn
  have hdlt := deadline.toInt_lt
  have hnlt := now.toInt_lt
  have hremaining : (deadline - now).toInt = deadline.toInt - now.toInt := by
    rw [Int64.toInt_sub, bmod_of_mem (by omega) (by omega)]
  have hneg : deadline - now < 0 ↔ deadline.toInt < now.toInt := by
    rw [Int64.lt_iff_toInt_lt, hremaining, Int64.toInt_zero]
    omega
  rw [callTimer]
  by_cases hlate : deadline.toInt < now.toInt
  · simp only [if_pos (hneg.mpr hlate)]
    constructor
    · intro _ hle
      omega
    · intro _ stored h
      cases h
  · simp only [if_neg (mt hneg.mp hlate), Option.some.injEq, forall_eq', scheduleAfter,
      Int64.le_iff_toInt_le, Int64.toInt_add, hremaining]
    have hpos : 0 ≤ deadline.toInt - now.toInt := by omega
    constructor
    · rintro ⟨hsum, -⟩ -
      rw [bmod_eq] at hsum
      omega
    · intro hfit
      have := hfit (by omega)
      rw [bmod_of_mem (by omega) this]
      omega

/-- For every clock reading that is not negative and every timeout that is not negative, the
deadlines are exact and not in the past if and only if the conversion does not overflow, rounding
does not change its result, and the sums are in the range of the clock. -/
theorem deadlines_exact_iff {f : Factor} {timeout : Count} {now : Int64}
    {iterations : List (Int64 × Int64)} (hnow : 0 ≤ now) (hnonneg : timeout.Nonneg)
    (hmono : ∀ p ∈ iterations, now ≤ p.1 ∧ p.1 ≤ p.2) :
    (TryReceiveExact f timeout now ↔
      timeout.Fits f ∧ timeout.Kept f ∧
        ∃ ticks, timeout.exact f = some ticks ∧ now.toInt + ticks < 2 ^ 63) ∧
    (CallExact f timeout now iterations ↔
      timeout.Fits f ∧ timeout.Kept f ∧
        ∃ ticks, timeout.exact f = some ticks ∧ now.toInt + ticks < 2 ^ 63 ∧
          IterationsFit now ticks iterations) := by
  -- the iterations, once the deadline itself is right
  have hiterations : ∀ (deadline : Int64) (ticks : ℤ), deadline.toInt = now.toInt + ticks →
      now ≤ deadline → ((∀ p ∈ iterations, ∀ stored, callTimer deadline p.1 p.2 = some stored →
        stored.toInt = p.2.toInt + (now.toInt + ticks - p.1.toInt) ∧ p.2 ≤ stored) ↔
          IterationsFit now ticks iterations) := by
    intro deadline ticks hdeadline hle
    refine forall_congr' fun p => forall_congr' fun hp => ?_
    obtain ⟨hfirst, hsecond⟩ := hmono p hp
    rw [← hdeadline]
    exact callTimer_exact_iff (Int64.le_trans hnow hle) (Int64.le_trans hnow hfirst) hsecond
  constructor
  · constructor
    · rintro ⟨ticks, stored, hexact, hstored, hsum, hle⟩
      obtain ⟨d, hcast, rfl⟩ := Option.map_eq_some_iff.mp hstored
      have h := (deadline_exact_iff hnow hnonneg hexact).mp ⟨d, hcast, hsum, hle⟩
      exact ⟨h.1, h.2.1, ticks, hexact, h.2.2⟩
    · rintro ⟨hfits, hkept, ticks, hexact, hlt⟩
      obtain ⟨d, hcast, hsum, hle⟩ :=
        (deadline_exact_iff hnow hnonneg hexact).mpr ⟨hfits, hkept, hlt⟩
      exact ⟨ticks, now + d, hexact, by rw [tryReceive, hcast]; rfl, hsum, hle⟩
  · constructor
    · rintro ⟨ticks, deadline, hexact, hdeadline, hsum, hle, hall⟩
      obtain ⟨d, hcast, rfl⟩ := Option.map_eq_some_iff.mp hdeadline
      have h := (deadline_exact_iff hnow hnonneg hexact).mp ⟨d, hcast, hsum, hle⟩
      exact ⟨h.1, h.2.1, ticks, hexact, h.2.2, (hiterations _ ticks hsum hle).mp hall⟩
    · rintro ⟨hfits, hkept, ticks, hexact, hlt, hall⟩
      obtain ⟨d, hcast, hsum, hle⟩ :=
        (deadline_exact_iff hnow hnonneg hexact).mpr ⟨hfits, hkept, hlt⟩
      exact ⟨ticks, now + d, hexact, by rw [callDeadline, hcast]; rfl, hsum, hle,
        (hiterations _ ticks hsum hle).mpr hall⟩

/-- `std::chrono::milliseconds`. -/
def milliseconds : Factor := ⟨1000000, 1, by decide, by decide⟩

/-- `std::chrono::nanoseconds`. -/
def nanoseconds : Factor := ⟨1, 1, by decide, by decide⟩

/-- A quarter of a second, in milliseconds. -/
theorem deadlines_exact_iff_milliseconds :
    CallExact milliseconds (.signed 250) 5000000000 [(5000000000, 5000000010)] := by
  have hmono : ∀ p ∈ [((5000000000 : Int64), (5000000010 : Int64))],
      (5000000000 : Int64) ≤ p.1 ∧ p.1 ≤ p.2 := List.forall_mem_singleton.mpr (by decide)
  refine ((deadlines_exact_iff (by decide) ?_ hmono).2).mpr ⟨?_, rfl, 250000000, ?_, ?_, ?_⟩
  · show (0 : Int64) ≤ 250
    decide +kernel
  · show (250 : Int64).toInt * (1000000 : Int64).toInt < 2 ^ 63
    decide +kernel
  · show some ((250 : Int64).toInt * (1000000 : Int64).toInt / (1 : Int64).toInt) = _
    decide +kernel
  · decide +kernel
  · exact List.forall_mem_singleton.mpr (by decide)

/-- A call that is to wait for ever, at the clock reading `1`: its deadline wraps, and its timer
is due at once. -/
theorem wait_forever_is_over :
    callDeadline nanoseconds (.signed Int64.maxValue) 1 = some Int64.minValue ∧
    callTimer Int64.minValue 1 1 = some Int64.minValue ∧
    tryReceive nanoseconds (.signed Int64.maxValue) 1 = some Int64.minValue ∧
    ¬ TryReceiveExact nanoseconds (.signed Int64.maxValue) 1 ∧
    ¬ CallExact nanoseconds (.signed Int64.maxValue) 1 [(1, 1)] := by
  have htry : tryReceive nanoseconds (.signed Int64.maxValue) 1 = some Int64.minValue := by decide
  have hcall : callDeadline nanoseconds (.signed Int64.maxValue) 1 = some Int64.minValue := by
    decide +kernel
  have hpast : ¬ (1 : Int64) ≤ Int64.minValue := by decide
  refine ⟨hcall, by decide +kernel, htry, ?_, ?_⟩
  · rintro ⟨ticks, stored, -, hstored, -, hle⟩
    obtain rfl : Int64.minValue = stored := Option.some.inj (htry.symm.trans hstored)
    exact hpast hle
  · rintro ⟨ticks, deadline, -, hdeadline, -, hle, -⟩
    obtain rfl : Int64.minValue = deadline := Option.some.inj (hcall.symm.trans hdeadline)
    exact hpast hle

end Durations

end Agner
