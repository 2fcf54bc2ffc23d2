import Agner.Deque.ListDeque

/-!
The slots of the ring buffer.

* `InRange`: the buffer of a deque has a power of two of slots, room for all elements, and no index
  leads beyond the slots, nor beyond those of the buffer that it would grow into.
* `in_range_iff`: so it is in every state of a deque that is not constructed with capacity 0, which
  the assertion of the constructor accepts.
-/

namespace Agner

namespace Sequential

open Runs

variable {α : Type}

/-- An operation on a deque. -/
inductive DequeOp (α : Type) where
  | push (value : α)
  | pop
  | steal

/-- The deque after the operation. -/
def ChaseLevDeque.step [Inhabited α] (maxSize : ℕ) (q : ChaseLevDeque α) :
    DequeOp α → Option (ChaseLevDeque α)
  | .push value => q.push maxSize value
  | .pop => q.pop.map Prod.fst
  | .steal => q.steal.map Prod.fst

/-- Sizes and indices of the buffer `buf` of a deque are as they should be. -/
structure InRange [Inhabited α] (maxSize : ℕ) (q : ChaseLevDeque α) (buf : CircularBuffer α) :
    Prop where
  isPow : ∃ k, buf.data.length = 2 ^ k
  capacity : buf.data.length = buf.capacity
  mask : buf.capacity = buf.mask + 1
  size : q.bottom - q.top ≤ buf.data.length
  /-- `store` and `load` find a slot for every index. -/
  slot : ∀ i, buf.slot i < buf.data.length
  /-- `grow` finds a slot for every index in the buffer it allocates, which is larger. -/
  growth : ∀ fresh : CircularBuffer α, CircularBuffer.new maxSize (buf.capacity * 2 % 2 ^ 64) =
      some fresh →
    (∀ i, fresh.slot i < fresh.data.length) ∧
      ∃ grown, buf.grow maxSize q.top q.bottom = some grown ∧
        buf.data.length < grown.data.length

section Steps

variable [Inhabited α] {maxSize n cap : ℕ} {q t : ChaseLevDeque α} {l : ListDeque α}
  {buf : CircularBuffer α} {value : α}

omit [Inhabited α] in
lemma Masked.slot_lt (h : Masked buf) (i : ℤ) : buf.slot i < buf.data.length := by
  rw [h.slot]
  exact Circular.pos_lt h.length_pos i

lemma le_of_new (h : CircularBuffer.new maxSize cap = some buf) : cap ≤ maxSize := by
  rw [CircularBuffer.new, Option.ite_none_right_eq_some] at h
  exact h.1.1

lemma length_of_new (h : CircularBuffer.new maxSize cap = some buf) : buf.data.length = cap := by
  rw [CircularBuffer.new, Option.ite_none_right_eq_some] at h
  obtain rfl := Option.some.inj h.2
  exact List.length_replicate

/-- Of the capacities that the assertion accepts, 0 is the only one that is no power of two. -/
lemma isPow_of_new (hmax : maxSize < 2 ^ 63) (h : CircularBuffer.new maxSize cap = some buf)
    (hcap : cap ≠ 0) : ∃ k, cap = 2 ^ k := by
  have hle := le_of_new h
  rw [CircularBuffer.new, Option.ite_none_right_eq_some] at h
  have hmask : toSize (cap - 1) = cap - 1 := by
    rw [toSize, Int.emod_eq_of_lt (by omega) (by omega)]
    omega
  have hand := h.1.2
  rw [hmask] at hand
  exact (Nat.and_sub_one_eq_zero_iff_isPowerOfTwo hcap).mp hand

omit [Inhabited α] in
lemma double_capacity (h : Masked buf) : buf.capacity * 2 % 2 ^ 64 = 2 * buf.data.length := by
  have hlt := h.length_lt
  rw [h.capacity]
  omega

/-- What a deque that stands for a list has for a buffer. -/
lemma Represents.inRange (hmax : maxSize < 2 ^ 63) (h : Represents n q l)
    (hsolid : l.hollow = false) : ∃ buf, q.buffer = some buf ∧ InRange maxSize q buf := by
  obtain ⟨buf, hbuffer, hmask, hholds⟩ := h.solid hsolid
  have hlength := h.length
  have hfits := hholds.fits
  obtain ⟨k, hk, hpow⟩ := hmask.isPow
  refine ⟨buf, hbuffer, ⟨k, hmask.length.trans hpow⟩, hmask.capacity.symm,
    hmask.capacity.trans hmask.length, by omega, hmask.slot_lt, fun fresh hfresh => ?_⟩
  have hdouble : 2 * buf.data.length = 2 ^ (k + 1) := by
    rw [hmask.length, hpow, pow_succ, mul_comm]
  have hle := le_of_new hfresh
  rw [double_capacity hmask] at hle hfresh
  obtain ⟨fresh', hnew, hfresh', -⟩ := masked_new (α := α) hmax (hdouble ▸ hle)
  obtain rfl : fresh' = fresh := Option.some.inj (hnew.symm.trans (hdouble ▸ hfresh))
  obtain ⟨grown, hgrow, -, hlen, -⟩ := grow_holds hmax hmask hholds hle hlength
  have hpos := hmask.length_pos
  exact ⟨hfresh'.slot_lt, grown, hgrow, by omega⟩

omit [Inhabited α] in
/-- The bound on the indices can be the larger one of them. -/
lemma Represents.tight (h : Represents n q l) : Represents q.bottom.toNat q l :=
  { h with bottom_le := Int.self_le_toNat _ }

omit [Inhabited α] in
lemma checked_eq_some {x y : ℤ} (h : checked x = some y) : x < 2 ^ 63 ∧ x = y := by
  rw [checked, Option.ite_none_right_eq_some] at h
  exact ⟨h.1.2, Option.some.inj h.2⟩

/-- A buffer that has been grown has been allocated. -/
lemma le_of_grow {grown : CircularBuffer α} {lo hi : ℤ} (hmask : Masked buf)
    (h : buf.grow maxSize lo hi = some grown) : 2 * buf.data.length ≤ maxSize := by
  rw [CircularBuffer.grow, double_capacity hmask] at h
  obtain ⟨fresh, hfresh, -⟩ := Option.bind_eq_some_iff.mp h
  exact le_of_new hfresh

/-- What a `push` that has a result says about the deque. -/
lemma room_of_push (h : q.push maxSize value = some t) (hbuffer : q.buffer = some buf)
    (hmask : Masked buf) : q.bottom + 1 < 2 ^ 63 ∧
      (q.bottom - q.top < buf.data.length ∨ 2 * buf.data.length ≤ maxSize) := by
  simp only [ChaseLevDeque.push, hbuffer, Option.bind_eq_bind, Option.bind_some,
    Option.bind_eq_some_iff] at h
  obtain ⟨size, hsize, ⟨u, into⟩, hfor, stored, -, bottom, hbottom, -⟩ := h
  have hlt := (checked_eq_some hbottom).1
  obtain rfl := (checked_eq_some hsize).2
  rw [ChaseLevDeque.bufferFor, hmask.toInt64_capacity] at hfor
  split_ifs at hfor with hfull
  · obtain ⟨grown, hgrow, hu⟩ := Option.map_eq_some_iff.mp hfor
    obtain ⟨rfl, rfl⟩ := Prod.mk.inj hu
    exact ⟨hlt, .inr (le_of_grow hmask hgrow)⟩
  · obtain ⟨rfl, rfl⟩ := Prod.mk.inj (Option.some.inj hfor)
    exact ⟨hlt, .inl (not_le.mp hfull)⟩

/-- The deque stands for a list. -/
def StandsForList (q : ChaseLevDeque α) : Prop :=
  ∃ n l, n < 2 ^ 63 ∧ Represents n q l ∧ l.hollow = false

lemma StandsForList.step (hmax : maxSize < 2 ^ 63) (h : StandsForList q) {op : DequeOp α}
    (hstep : q.step maxSize op = some t) : StandsForList t := by
  obtain ⟨n, l, hn, h, hsolid⟩ := h
  cases op with
  | push value =>
      obtain ⟨buf, hbuffer, hmask, -⟩ := h.solid hsolid
      obtain ⟨hbottom, hroom⟩ := room_of_push hstep hbuffer hmask
      have hpush : l.push value = some { l with items := l.items ++ [value] } := by
        rw [ListDeque.push, hsolid]
        rfl
      obtain ⟨t', ht', hr⟩ := represents_push hmax h.tight (by omega) hpush fun buf' hbuf' => by
        obtain rfl := Option.some.inj (hbuffer.symm.trans hbuf')
        exact hroom
      obtain rfl := Option.some.inj (ht'.symm.trans hstep)
      exact ⟨_, _, by omega, hr, hsolid⟩
  | pop =>
      obtain ⟨t', ht', hr⟩ := represents_pop h hn
      rw [ChaseLevDeque.step, ht'] at hstep
      obtain rfl := Option.some.inj hstep
      exact ⟨n, _, hn, hr, hsolid⟩
  | steal =>
      obtain ⟨t', ht', hr⟩ := represents_steal h hn
      rw [ChaseLevDeque.step, ht'] at hstep
      obtain rfl := Option.some.inj hstep
      exact ⟨n, _, hn, hr, hsolid⟩

end Steps

/-- However a deque is used, by one operation after the other, the sizes and indices of its buffer
are as they should be if and only if it has not been constructed with capacity 0. -/
theorem in_range_iff [Inhabited α] {maxSize cap : ℕ} (hmax : maxSize < 2 ^ 63)
    {q : ChaseLevDeque α} (hnew : ChaseLevDeque.new maxSize cap = some q) :
    (∀ ops s, run (ChaseLevDeque.step maxSize) q ops = some s →
      ∃ buf, s.buffer = some buf ∧ InRange maxSize s buf) ↔ cap ≠ 0 := by
  obtain ⟨buf, hbuf, rfl⟩ := Option.map_eq_some_iff.mp hnew
  constructor
  · rintro h rfl
    obtain ⟨buf', hbuffer, hrange⟩ := h [] _ rfl
    obtain rfl : buf = buf' := Option.some.inj hbuffer
    obtain ⟨k, hk⟩ := hrange.isPow
    have hempty : buf.data.length = 0 := length_of_new hbuf
    have hpos := Nat.two_pow_pos k
    omega
  · intro hcap ops s hrun
    obtain ⟨k, rfl⟩ := isPow_of_new hmax hbuf hcap
    obtain ⟨q, hq, hr⟩ := represents_new (α := α) (n := 0) hmax (le_of_new hbuf)
    obtain rfl : q = { buffer := some buf } := Option.some.inj (hq.symm.trans hnew)
    have hstart : StandsForList { buffer := some buf } := ⟨0, {}, by norm_num, hr, rfl⟩
    obtain ⟨n, l, -, h, hsolid⟩ :=
      invariant_of_step (fun _ _ _ h hstep => h.step hmax hstep) hstart hrun
    exact h.inRange hmax hsolid

/-- A deque of one slot is filled twice, with its indices moved on in between. -/
def filled : List (DequeOp ℕ) :=
  [.push 1, .steal, .push 2, .push 3, .push 4, .steal, .pop, .push 5, .push 6, .push 7]

/-- The buffer of that deque. -/
theorem in_range_filled :
    ∃ s buf, run (ChaseLevDeque.step (2 ^ 63 - 1)) { buffer := some ⟨0, [0]⟩ } filled = some s ∧
      s.buffer = some buf ∧ InRange (2 ^ 63 - 1) s buf := by
  have hrun := run_eq_reached (show (run (ChaseLevDeque.step (2 ^ 63 - 1))
    { buffer := some ⟨0, [0]⟩ } filled).isSome = true by decide +kernel)
  obtain ⟨buf, hbuffer, hrange⟩ :=
    (in_range_iff (by norm_num) rfl).mpr one_ne_zero _ _ hrun
  exact ⟨_, buf, hrun, hbuffer, hrange⟩

/-- A deque of capacity 0 is constructed, and stays so when it grows: `push` stores into a slot
that does not exist. -/
theorem capacity_zero_out_of_range :
    ∃ (q : ChaseLevDeque ℕ) (buf : CircularBuffer ℕ),
      ChaseLevDeque.new (2 ^ 63 - 1) 0 = some q ∧ q.buffer = some buf ∧
      buf.grow (2 ^ 63 - 1) q.top q.bottom = some buf ∧ ¬ buf.slot q.bottom < buf.data.length ∧
      q.push (2 ^ 63 - 1) 7 = none ∧ ¬ InRange (2 ^ 63 - 1) q buf := by
  refine ⟨{ buffer := some ⟨2 ^ 64 - 1, []⟩ }, ⟨2 ^ 64 - 1, []⟩, rfl, rfl, rfl, by decide, rfl, ?_⟩
  intro h
  exact absurd (h.slot 0) (by decide)

end Sequential

end Agner
