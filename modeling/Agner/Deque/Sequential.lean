import Agner.Foundations.Circular

/-!
`chase_lev_deque.hpp` used by one thread at a time: the deque with the machine integers it
computes with.

`size_t` is taken modulo `2 ^ 64`. An `int64_t` that would leave its range, an access beyond the
end of `data_` and one through the null pointer that a move leaves behind have no meaning in the
language; `std::vector` throws if it is asked for more than `maxSize` elements. In all these cases
an operation yields `none`.

* `CircularBuffer`: `data_` with `mask_`, and `grow`.
* `ChaseLevDeque`: the members, `push`, `pop`, `steal`, `empty` and the two moves. Nothing happens
  in between the loads of an operation, so that its compare-exchange succeeds.
* `Masked`, `Represents`: what buffers and deques look like in the absence of overflow, and the list
  they stand for; one lemma per operation.
-/

namespace Agner

namespace Sequential

/-- A value of type `int64_t`. -/
def checked (x : ℤ) : Option ℤ := if -2 ^ 63 ≤ x ∧ x < 2 ^ 63 then some x else none

/-- `static_cast<int64_t>` of a `size_t`. -/
def toInt64 (n : ℕ) : ℤ := if n < 2 ^ 63 then n else n - 2 ^ 64

/-- `static_cast<size_t>` of an `int64_t`. -/
def toSize (i : ℤ) : ℕ := (i % 2 ^ 64).toNat

lemma checked_of_mem {x : ℤ} (hlo : -2 ^ 63 ≤ x) (hhi : x < 2 ^ 63) : checked x = some x :=
  if_pos ⟨hlo, hhi⟩

/-- `CircularBuffer`. -/
structure CircularBuffer (α : Type) where
  mask : ℕ
  data : List α

namespace CircularBuffer

variable {α : Type}

/-- The constructor, with its assertion. -/
def new [Inhabited α] (maxSize cap : ℕ) : Option (CircularBuffer α) :=
  let mask := toSize (cap - 1)
  if cap ≤ maxSize ∧ cap &&& mask = 0 then
    some { mask := mask, data := List.replicate cap default }
  else none

/-- `CircularBuffer::capacity`. -/
def capacity (buf : CircularBuffer α) : ℕ := (buf.mask + 1) % 2 ^ 64

/-- The slot of an index in `data_`. -/
def slot (buf : CircularBuffer α) (index : ℤ) : ℕ := toSize index &&& buf.mask

/-- `store`; `none` if the slot is out of bounds. -/
def store (buf : CircularBuffer α) (index : ℤ) (value : α) : Option (CircularBuffer α) :=
  if buf.slot index < buf.data.length then
    some { buf with data := buf.data.set (buf.slot index) value }
  else none

/-- `load`; `none` if the slot is out of bounds. -/
def load (buf : CircularBuffer α) (index : ℤ) : Option α := buf.data[buf.slot index]?

/-- The loop of `grow`, with `n` rounds to go from index `i` on. -/
def copy (buf : CircularBuffer α) : ℕ → ℤ → CircularBuffer α → Option (CircularBuffer α)
  | 0, _, grown => some grown
  | n + 1, i, grown => do
      let value ← buf.load i
      let grown ← grown.store i value
      buf.copy n (i + 1) grown

/-- `grow`. -/
def grow [Inhabited α] (maxSize : ℕ) (buf : CircularBuffer α) (top bottom : ℤ) :
    Option (CircularBuffer α) := do
  let grown ← new maxSize (buf.capacity * 2 % 2 ^ 64)
  buf.copy (bottom - top).toNat top grown

end CircularBuffer

/-- `ChaseLevDeque`; the buffer is absent when `buffer_` is null. -/
structure ChaseLevDeque (α : Type) where
  buffer : Option (CircularBuffer α)
  top : ℤ := 0
  bottom : ℤ := 0
  retired : List (CircularBuffer α) := []

namespace ChaseLevDeque

variable {α : Type}

/-- The constructor. -/
def new [Inhabited α] (maxSize initialCapacity : ℕ) : Option (ChaseLevDeque α) :=
  (CircularBuffer.new maxSize initialCapacity).map fun buf => { buffer := some buf }

/-- `grow`, with the new buffer. -/
def grow [Inhabited α] (maxSize : ℕ) (q : ChaseLevDeque α) (buf : CircularBuffer α) :
    Option (ChaseLevDeque α × CircularBuffer α) :=
  (buf.grow maxSize q.top q.bottom).map fun grown =>
    ({ q with buffer := some grown, retired := q.retired ++ [buf] }, grown)

/-- The buffer that `push` stores into: a larger one if there are as many elements as slots. -/
def bufferFor [Inhabited α] (maxSize : ℕ) (q : ChaseLevDeque α) (buf : CircularBuffer α)
    (size : ℤ) : Option (ChaseLevDeque α × CircularBuffer α) :=
  if size ≥ toInt64 buf.capacity then q.grow maxSize buf else some (q, buf)

/-- `push`. -/
def push [Inhabited α] (maxSize : ℕ) (q : ChaseLevDeque α) (value : α) :
    Option (ChaseLevDeque α) := do
  let buf ← q.buffer
  let size ← checked (q.bottom - q.top)
  let (q, buf) ← q.bufferFor maxSize buf size
  let buf ← buf.store q.bottom value
  let bottom ← checked (q.bottom + 1)
  return { q with buffer := some buf, bottom := bottom }

/-- `pop`, with the element if there is one. -/
def pop (q : ChaseLevDeque α) : Option (ChaseLevDeque α × Option α) := do
  let b ← checked (q.bottom - 1)
  if q.top ≤ b then
    let buf ← q.buffer
    let value ← buf.load b
    if q.top = b then
      let top ← checked (q.top + 1)
      let bottom ← checked (b + 1)
      return ({ q with top := top, bottom := bottom }, some value)
    return ({ q with bottom := b }, some value)
  let bottom ← checked (b + 1)
  return ({ q with bottom := bottom }, none)

/-- `steal`, with the element if there is one. -/
def steal (q : ChaseLevDeque α) : Option (ChaseLevDeque α × Option α) := do
  if q.top < q.bottom then
    let buf ← q.buffer
    let value ← buf.load q.top
    let top ← checked (q.top + 1)
    return ({ q with top := top }, some value)
  return (q, none)

/-- `empty`. -/
def empty (q : ChaseLevDeque α) : Bool := q.bottom ≤ q.top

/-- What a move leaves in the deque it moves from. -/
def movedFrom (other : ChaseLevDeque α) : ChaseLevDeque α :=
  { other with buffer := none, top := 0, bottom := 0 }

/-- The move constructor: the new deque. -/
def moveConstruct (other : ChaseLevDeque α) : ChaseLevDeque α :=
  { buffer := other.buffer, top := other.top, bottom := other.bottom }

/-- Move assignment from another deque. -/
def moveAssign (q other : ChaseLevDeque α) : ChaseLevDeque α :=
  { q with buffer := other.buffer, top := other.top, bottom := other.bottom }

end ChaseLevDeque

/-! ### Buffers without overflow -/

/-- The buffer has a power of two of slots, and its mask is the one for them. -/
structure Masked {α : Type} (buf : CircularBuffer α) : Prop where
  isPow : ∃ k, k ≤ 62 ∧ buf.mask + 1 = 2 ^ k
  length : buf.data.length = buf.mask + 1

section Masked

variable {α : Type} {buf : CircularBuffer α} {lo : ℤ} {items : List α}

lemma Masked.length_pos (h : Masked buf) : 0 < buf.data.length := by
  rw [h.length]
  exact Nat.succ_pos _

lemma Masked.length_lt (h : Masked buf) : buf.data.length < 2 ^ 63 := by
  obtain ⟨k, hk, hpow⟩ := h.isPow
  have hle : 2 ^ k ≤ 2 ^ 62 := Nat.pow_le_pow_right (by norm_num) hk
  rw [h.length, hpow]
  omega

lemma Masked.capacity (h : Masked buf) : buf.capacity = buf.data.length := by
  have hlt := h.length_lt
  rw [CircularBuffer.capacity, ← h.length]
  omega

lemma Masked.toInt64_capacity (h : Masked buf) : toInt64 buf.capacity = buf.data.length := by
  rw [h.capacity]
  exact if_pos h.length_lt

/-- The mask takes the remainder by the number of slots. -/
lemma Masked.slot (h : Masked buf) (i : ℤ) : buf.slot i = Circular.pos buf.data.length i := by
  obtain ⟨k, hk, hpow⟩ := h.isPow
  have hmask : buf.mask = 2 ^ k - 1 := by omega
  have hdvd : (2 : ℤ) ^ k ∣ 2 ^ 64 := pow_dvd_pow 2 (by omega)
  have hnonneg : 0 ≤ i % 2 ^ 64 := Int.emod_nonneg i (by norm_num)
  calc buf.slot i = toSize i &&& (2 ^ k - 1) := by rw [CircularBuffer.slot, hmask]
    _ = (i % 2 ^ 64).toNat % 2 ^ k := Nat.and_two_pow_sub_one_eq_mod _ _
    _ = (i % 2 ^ 64 % 2 ^ k).toNat := by
        rw [Int.toNat_emod hnonneg (by positivity)]
        rfl
    _ = (i % 2 ^ k).toNat := by rw [Int.emod_emod_of_dvd i hdvd]
    _ = Circular.pos buf.data.length i := by rw [Circular.pos, h.length, hpow]; norm_cast

lemma Masked.load_eq (h : Masked buf) (i : ℤ) :
    buf.load i = buf.data[Circular.pos buf.data.length i]? := by
  rw [CircularBuffer.load, h.slot]

lemma Masked.store_eq (h : Masked buf) (i : ℤ) (value : α) :
    buf.store i value =
      some { buf with data := buf.data.set (Circular.pos buf.data.length i) value } := by
  rw [CircularBuffer.store, h.slot, if_pos (Circular.pos_lt h.length_pos i)]

lemma Masked.set (h : Masked buf) (i : ℕ) (value : α) :
    Masked ({ buf with data := buf.data.set i value } : CircularBuffer α) :=
  ⟨h.isPow, (List.length_set).trans h.length⟩

/-- The constructor, for a power of two that a vector can hold. -/
lemma masked_new [Inhabited α] {maxSize k : ℕ} (hmax : maxSize < 2 ^ 63) (hle : 2 ^ k ≤ maxSize) :
    ∃ buf : CircularBuffer α, CircularBuffer.new maxSize (2 ^ k) = some buf ∧ Masked buf ∧
      buf.data.length = 2 ^ k := by
  have hk : k ≤ 62 := by
    by_contra hlt
    have := Nat.pow_le_pow_right (n := 2) (by norm_num) (show 63 ≤ k by omega)
    omega
  have hpos : 0 < 2 ^ k := Nat.two_pow_pos k
  have hmask : toSize ((2 ^ k : ℕ) - 1) = 2 ^ k - 1 := by
    rw [toSize, Int.emod_eq_of_lt (by omega) (by omega)]
    omega
  have hand : 2 ^ k &&& (2 ^ k - 1) = 0 := by
    rw [Nat.and_two_pow_sub_one_eq_mod, Nat.mod_self]
  refine ⟨{ mask := 2 ^ k - 1, data := List.replicate (2 ^ k) default }, ?_, ⟨⟨k, hk, ?_⟩, ?_⟩, ?_⟩
  · rw [CircularBuffer.new, hmask]
    exact if_pos ⟨hle, hand⟩
  · exact Nat.sub_add_cancel hpos
  · rw [List.length_replicate]
    exact (Nat.sub_add_cancel hpos).symm
  · exact List.length_replicate

/-- The loop of `grow` carries what remains of the list over to the new buffer. -/
lemma copy_holds (rest : List α) (hbuf : Masked buf) (done : List α)
    (hold : Circular.Holds buf.data lo (done ++ rest)) {grown : CircularBuffer α}
    (hgrown : Masked grown) (hdone : Circular.Holds grown.data lo done)
    (hroom : (done ++ rest).length ≤ grown.data.length) :
    ∃ t, buf.copy rest.length (lo + done.length) grown = some t ∧ Masked t ∧
      t.data.length = grown.data.length ∧ Circular.Holds t.data lo (done ++ rest) := by
  induction rest generalizing done grown with
  | nil => exact ⟨grown, rfl, hgrown, rfl, by rwa [List.append_nil]⟩
  | cons x rest ih =>
      have hlen : (done ++ x :: rest).length = done.length + rest.length + 1 := by
        simp [Nat.add_assoc]
      have hload : buf.load (lo + done.length) = some x := by
        rw [hbuf.load_eq, hold.get done.length (by omega)]
        simp
      let slot := Circular.pos grown.data.length (lo + done.length)
      let u : CircularBuffer α := { grown with data := grown.data.set slot x }
      have hulen : u.data.length = grown.data.length := List.length_set
      obtain ⟨t, ht, hmasked, htlen, hholds⟩ := ih (done ++ [x])
        (by simpa using hold) (hgrown.set slot x) (hdone.concat (by omega) x)
        (by rw [hulen]; simpa using hroom)
      refine ⟨t, ?_, hmasked, htlen.trans hulen, by simpa using hholds⟩
      rw [List.length_cons, CircularBuffer.copy]
      simp only [hload, hgrown.store_eq, Option.bind_eq_bind, Option.bind_some]
      rw [List.length_append, List.length_singleton, Nat.cast_add, Nat.cast_one,
        ← add_assoc] at ht
      exact ht

/-- `grow`: the new buffer has twice the slots and holds the same list. -/
lemma grow_holds [Inhabited α] {maxSize : ℕ} (hmax : maxSize < 2 ^ 63) (hbuf : Masked buf)
    (hold : Circular.Holds buf.data lo items) (hroom : 2 * buf.data.length ≤ maxSize)
    {hi : ℤ} (hhi : hi - lo = items.length) :
    ∃ t, buf.grow maxSize lo hi = some t ∧ Masked t ∧ t.data.length = 2 * buf.data.length ∧
      Circular.Holds t.data lo items := by
  obtain ⟨k, hk, hpow⟩ := hbuf.isPow
  have hdouble : buf.capacity * 2 % 2 ^ 64 = 2 ^ (k + 1) := by
    have hlt := hbuf.length_lt
    rw [hbuf.capacity, pow_succ 2 k, ← hpow, ← hbuf.length]
    omega
  have hcap : 2 ^ (k + 1) = 2 * buf.data.length := by rw [hbuf.length, hpow, pow_succ, mul_comm]
  obtain ⟨grown, hnew, hgrown, hlen⟩ := masked_new (α := α) hmax (hcap.le.trans hroom)
  obtain ⟨t, ht, hmasked, htlen, hholds⟩ := copy_holds items hbuf [] hold hgrown
    (Circular.Holds.nil _ _) (by have := hold.fits; rw [List.nil_append]; omega)
  refine ⟨t, ?_, hmasked, by omega, hholds⟩
  rw [List.length_nil, Nat.cast_zero, add_zero] at ht
  rw [CircularBuffer.grow, hdouble, hnew, hhi, Int.toNat_natCast]
  exact ht

end Masked

end Sequential

end Agner
