import Agner.Foundations.Runs
import Agner.Foundations.Window

/-!
`chase_lev_deque.hpp`: the work-stealing deque, with one owner that runs `push` and `pop` and
any number of thieves that run `steal`.

Every load, store and compare-exchange of `top_`, `bottom_` and `buffer_`, and every access to a
slot, is one step of the owner or of a thief; what a thread does with its own variables goes
with the access before it. Accesses are sequentially consistent, and the indices, which the
source keeps in `int64_t`, do not wrap.

* `CircularBuffer`: `data_` with its mask. Slots are accessed at indices from `0` on only.
* Buffers are named by numbers; the one in `buffer_` is the newest, and the retired ones stay
  readable.
* `pushed` and `returned` record the elements whose `push` has made them visible and those that
  a `pop` or `steal` has returned.
-/

namespace Agner

/-- `CircularBuffer`; the capacity is a power of two, as its constructor asserts. -/
structure CircularBuffer (α : Type) where
  mask : ℕ
  data : Fin (mask + 1) → α
  isPow : ∃ k, mask + 1 = 2 ^ k

namespace CircularBuffer

variable {α : Type}

/-- A new buffer. -/
def new [Inhabited α] (cap : ℕ) (h : ∃ k, cap = 2 ^ k) : CircularBuffer α where
  mask := cap - 1
  data _ := default
  isPow := by
    obtain ⟨k, rfl⟩ := h
    exact ⟨k, Nat.sub_add_cancel (Nat.one_le_two_pow)⟩

/-- `CircularBuffer::capacity`. -/
def capacity (buf : CircularBuffer α) : ℕ := buf.mask + 1

/-- The position of an index in `data_`. -/
def slot (buf : CircularBuffer α) (index : ℤ) : Fin (buf.mask + 1) :=
  ⟨index.toNat &&& buf.mask, Nat.lt_succ_of_le Nat.and_le_right⟩

/-- `CircularBuffer::load`. -/
def load (buf : CircularBuffer α) (index : ℤ) : α := buf.data (buf.slot index)

/-- `CircularBuffer::store`. -/
def store (buf : CircularBuffer α) (index : ℤ) (value : α) : CircularBuffer α :=
  { buf with data := Function.update buf.data (buf.slot index) value }

/-- The buffer of twice the capacity that `grow` allocates. -/
def doubled [Inhabited α] (buf : CircularBuffer α) : CircularBuffer α :=
  new (buf.capacity * 2) (by
    obtain ⟨k, hk⟩ := buf.isPow
    exact ⟨k + 1, by rw [capacity, hk, pow_succ]⟩)

/-! ### Slots -/

variable (buf : CircularBuffer α) {i j : ℤ} {value : α}

@[simp] lemma capacity_store : (buf.store i value).capacity = buf.capacity := rfl

@[simp] lemma capacity_new [Inhabited α] {cap : ℕ} (h : ∃ k, cap = 2 ^ k) :
    (new cap h : CircularBuffer α).capacity = cap := by
  obtain ⟨k, rfl⟩ := h
  exact Nat.sub_add_cancel Nat.one_le_two_pow

@[simp] lemma capacity_doubled [Inhabited α] : buf.doubled.capacity = buf.capacity * 2 :=
  capacity_new _

lemma capacity_pos : 0 < buf.capacity := Nat.succ_pos _

/-- The mask takes the remainder by the capacity. -/
lemma slot_val : (buf.slot i : ℕ) = i.toNat % buf.capacity := by
  obtain ⟨k, hk⟩ := buf.isPow
  have hmask : buf.mask = 2 ^ k - 1 := by omega
  calc (buf.slot i : ℕ) = i.toNat &&& buf.mask := rfl
    _ = i.toNat % 2 ^ k := by rw [hmask, Nat.and_two_pow_sub_one_eq_mod]
    _ = i.toNat % buf.capacity := by rw [capacity, hk]

/-- Indices less than the capacity apart have slots of their own. -/
lemma slot_ne (hi : 0 ≤ i) (hij : i < j) (hlt : j - i < buf.capacity) :
    buf.slot i ≠ buf.slot j := by
  intro heq
  have hmod : i.toNat % buf.capacity = j.toNat % buf.capacity := by
    rw [← slot_val, ← slot_val, heq]
  have hdvd : buf.capacity ∣ j.toNat - i.toNat :=
    Nat.dvd_of_mod_eq_zero (Nat.sub_mod_eq_zero_of_mod_eq hmod.symm)
  have := Nat.le_of_dvd (by omega) hdvd
  omega

@[simp] lemma load_store_self : (buf.store i value).load i = value :=
  Function.update_self _ _ _

/-- A store leaves the elements at other indices alone that are less than the capacity away. -/
lemma load_store_of_lt (hi : 0 ≤ i) (hij : i < j) (hlt : j - i < buf.capacity) :
    (buf.store j value).load i = buf.load i :=
  Function.update_of_ne (buf.slot_ne hi hij hlt) _ _

end CircularBuffer

/-! ### Threads -/

/-- Where the owner is. -/
inductive Owner (α : Type) where
  | idle
  /-- `push`, before it loads `bottom_`. -/
  | pushing (value : α)
  | pushBottom (value : α) (b : ℤ)
  | pushTop (value : α) (b t : ℤ)
  /-- The loop of `grow`, at index `i`. -/
  | growing (value : α) (b t : ℤ) (buf : ℕ) (i : ℤ) (grown : CircularBuffer α)
  | copying (value : α) (b t : ℤ) (buf : ℕ) (i : ℤ) (x : α) (grown : CircularBuffer α)
  | storing (value : α) (b : ℤ) (buf : ℕ)
  | stored (value : α) (b : ℤ)
  /-- `pop`, before it loads `bottom_`. -/
  | popping
  | popBottom (b : ℤ)
  | lowering (b : ℤ) (buf : ℕ)
  /-- `bottom_` has been lowered. -/
  | lowered (b : ℤ) (buf : ℕ)
  | loading (b t : ℤ) (buf : ℕ)
  | contending (b t : ℤ) (value : α)
  /-- `bottom_` is to be set again before `pop` returns the result. -/
  | restoring (b : ℤ) (result : Option α)

/-- Where a thief is in `steal`. -/
inductive Thief (α : Type) where
  | idle
  | topLoaded (t : ℤ)
  /-- `t` was less than `bottom_`. -/
  | inRange (t : ℤ)
  | bufferLoaded (t : ℤ) (buf : ℕ)
  | valueLoaded (t : ℤ) (value : α)
  deriving DecidableEq

/-- The deque, with the threads that use it. -/
structure ChaseLevDeque (α : Type) where
  buffers : ℕ → CircularBuffer α
  buffer : ℕ := 0
  top : ℤ := 0
  bottom : ℤ := 0
  owner : Owner α := .idle
  thieves : ℕ → Thief α := fun _ => .idle
  pushed : List α := []
  returned : List α := []

namespace ChaseLevDeque

/-- What happens next. -/
inductive Label (α : Type) where
  /-- The owner calls `push`. -/
  | push (value : α)
  /-- The owner calls `pop`. -/
  | pop
  /-- The owner goes on with its call. -/
  | owner
  /-- The thief goes on with its call of `steal`, or begins one. -/
  | thief (k : ℕ)

variable {α : Type}

/-- The constructor. -/
def new [Inhabited α] (initialCapacity : ℕ) (h : ∃ k, initialCapacity = 2 ^ k) :
    ChaseLevDeque α :=
  { buffers := fun _ => .new initialCapacity h }

/-- The buffer in `buffer_`. -/
def current (s : ChaseLevDeque α) : CircularBuffer α := s.buffers s.buffer

/-- The elements at the indices `top` to `bottom - 1` of the current buffer. -/
def contents (s : ChaseLevDeque α) : List α := window s.current.load s.top s.bottom

/-- `pop` or `steal` returns. -/
def return? (s : ChaseLevDeque α) (result : Option α) : ChaseLevDeque α :=
  { s with returned := s.returned ++ result.toList }

/-- The next access of the owner. -/
def ownerStep [Inhabited α] (s : ChaseLevDeque α) : Option (ChaseLevDeque α) :=
  match s.owner with
  | .idle => none
  | .pushing value => some { s with owner := .pushBottom value s.bottom }
  | .pushBottom value b => some { s with owner := .pushTop value b s.top }
  | .pushTop value b t =>
      some { s with
        owner :=
          if b - t ≥ (s.current.capacity : ℤ) then
            .growing value b t s.buffer t s.current.doubled
          else .storing value b s.buffer }
  | .growing value b t buf i grown =>
      if i < b then
        some { s with owner := .copying value b t buf i ((s.buffers buf).load i) grown }
      else
        some { s with
          buffers := Function.update s.buffers (s.buffer + 1) grown
          buffer := s.buffer + 1
          owner := .storing value b (s.buffer + 1) }
  | .copying value b t buf i x grown =>
      some { s with owner := .growing value b t buf (i + 1) (grown.store i x) }
  | .storing value b buf =>
      some { s with
        buffers := Function.update s.buffers buf ((s.buffers buf).store b value)
        owner := .stored value b }
  | .stored value b =>
      some { s with bottom := b + 1, owner := .idle, pushed := s.pushed ++ [value] }
  | .popping => some { s with owner := .popBottom (s.bottom - 1) }
  | .popBottom b => some { s with owner := .lowering b s.buffer }
  | .lowering b buf => some { s with bottom := b, owner := .lowered b buf }
  | .lowered b buf =>
      some { s with owner := if s.top ≤ b then .loading b s.top buf else .restoring b none }
  | .loading b t buf =>
      if t = b then
        some { s with owner := .contending b t ((s.buffers buf).load b) }
      else some ({ s with owner := .idle }.return? (some ((s.buffers buf).load b)))
  | .contending b t value =>
      if s.top = t then
        some { s with top := t + 1, owner := .restoring b (some value) }
      else some { s with owner := .restoring b none }
  | .restoring b result => some ({ s with bottom := b + 1, owner := .idle }.return? result)

/-- The thief moves on. -/
def setThief (s : ChaseLevDeque α) (k : ℕ) (p : Thief α) : ChaseLevDeque α :=
  { s with thieves := Function.update s.thieves k p }

/-- The next access of a thief. -/
def thiefStep (s : ChaseLevDeque α) (k : ℕ) : ChaseLevDeque α :=
  match s.thieves k with
  | .idle => s.setThief k (.topLoaded s.top)
  | .topLoaded t => s.setThief k (if t < s.bottom then .inRange t else .idle)
  | .inRange t => s.setThief k (.bufferLoaded t s.buffer)
  | .bufferLoaded t buf => s.setThief k (.valueLoaded t ((s.buffers buf).load t))
  | .valueLoaded t value =>
      if s.top = t then { s.setThief k .idle with top := t + 1 }.return? (some value)
      else s.setThief k .idle

/-- One step. -/
def step [Inhabited α] (s : ChaseLevDeque α) : Label α → Option (ChaseLevDeque α)
  | .push value =>
      match s.owner with
      | .idle => some { s with owner := .pushing value }
      | _ => none
  | .pop =>
      match s.owner with
      | .idle => some { s with owner := .popping }
      | _ => none
  | .owner => s.ownerStep
  | .thief k => some (s.thiefStep k)

end ChaseLevDeque

end Agner
