import Agner.Deque.Sequential
import Agner.Foundations.Runs

/-!
The deque as a list.

* `ListDeque`: a list with the operations at its two ends, and `Represents`, which ties the
  members of `ChaseLevDeque` to it; one lemma for each operation.
* `DequeOps`, `step`: a program that uses any number of deques, one operation after the other,
  over the ring buffer or over the list.
* `deque_is_list`: the two programs give the same results.
-/

namespace Agner

namespace Sequential

open Runs

/-- A deque as the list of its elements, the leftmost first. -/
structure ListDeque (α : Type) where
  items : List α := []
  /-- It was moved from, or has been given what such a deque had. -/
  hollow : Bool := false

namespace ListDeque

variable {α : Type}

/-- An element is added on the right; not to a hollow deque. -/
def push (l : ListDeque α) (value : α) : Option (ListDeque α) :=
  if l.hollow then none else some { l with items := l.items ++ [value] }

/-- The rightmost element is removed. -/
def pop (l : ListDeque α) : ListDeque α × Option α :=
  ({ l with items := l.items.dropLast }, l.items.getLast?)

/-- The leftmost element is removed. -/
def steal (l : ListDeque α) : ListDeque α × Option α :=
  ({ l with items := l.items.tail }, l.items.head?)

/-- What a move leaves. -/
def movedFrom : ListDeque α := { hollow := true }

end ListDeque

variable {α : Type} {n : ℕ} {q other : ChaseLevDeque α} {l r : ListDeque α}

/-- The deque stands for the list, and its indices are not beyond the number of pushes. -/
structure Represents (n : ℕ) (q : ChaseLevDeque α) (l : ListDeque α) : Prop where
  top_nonneg : 0 ≤ q.top
  bottom_le : q.bottom ≤ n
  length : q.bottom - q.top = l.items.length
  hollow : l.hollow = true → q.buffer = none ∧ l.items = []
  solid : l.hollow = false →
    ∃ buf, q.buffer = some buf ∧ Masked buf ∧ Circular.Holds buf.data q.top l.items

lemma Represents.mono (h : Represents n q l) {m : ℕ} (hle : n ≤ m) : Represents m q l :=
  { h with bottom_le := h.bottom_le.trans (by exact_mod_cast hle) }

/-- The indices are in the range of `int64_t`. -/
lemma Represents.range (h : Represents n q l) (hn : n < 2 ^ 63) :
    0 ≤ q.top ∧ q.top ≤ q.bottom ∧ q.bottom < 2 ^ 63 := by
  have htop := h.top_nonneg
  have hbottom := h.bottom_le
  have hlength := h.length
  omega

lemma represents_new [Inhabited α] {maxSize k : ℕ} (hmax : maxSize < 2 ^ 63)
    (hle : 2 ^ k ≤ maxSize) :
    ∃ q : ChaseLevDeque α, ChaseLevDeque.new maxSize (2 ^ k) = some q ∧ Represents n q {} := by
  obtain ⟨buf, hbuf, hmask, -⟩ := masked_new (α := α) hmax hle
  refine ⟨{ buffer := some buf }, ?_, le_rfl, Nat.cast_nonneg n, rfl, fun h => ?_, fun _ => ?_⟩
  · rw [ChaseLevDeque.new, hbuf, Option.map_some]
  · cases h
  · exact ⟨buf, rfl, hmask, Circular.Holds.nil _ _⟩

/-- The buffer that `push` stores into has room for one element more. -/
lemma represents_room [Inhabited α] {maxSize : ℕ} (hmax : maxSize < 2 ^ 63)
    (h : Represents n q l) {buf : CircularBuffer α} (hmask : Masked buf)
    (hholds : Circular.Holds buf.data q.top l.items)
    (hroom : q.bottom - q.top < buf.data.length ∨ 2 * buf.data.length ≤ maxSize) :
    ∃ t grown, q.bufferFor maxSize buf (q.bottom - q.top) = some (t, grown) ∧
      t.top = q.top ∧ t.bottom = q.bottom ∧ Masked grown ∧
      Circular.Holds grown.data q.top l.items ∧ l.items.length < grown.data.length := by
  have hlength := h.length
  have hfits := hholds.fits
  have hpos := hmask.length_pos
  rw [ChaseLevDeque.bufferFor, hmask.toInt64_capacity]
  by_cases hfull : q.bottom - q.top ≥ buf.data.length
  · obtain ⟨grown, hgrow, hmask', hlen, hholds'⟩ :=
      grow_holds hmax hmask hholds (hroom.resolve_left (by omega)) hlength
    refine ⟨{ q with buffer := some grown, retired := q.retired ++ [buf] }, grown, ?_, rfl, rfl,
      hmask', hholds', by omega⟩
    rw [if_pos hfull, ChaseLevDeque.grow, hgrow, Option.map_some]
  · exact ⟨q, buf, if_neg hfull, rfl, rfl, hmask, hholds, by omega⟩

lemma represents_push [Inhabited α] {maxSize : ℕ} (hmax : maxSize < 2 ^ 63)
    (h : Represents n q l) (hn : n + 1 < 2 ^ 63) {value : α} (hpush : l.push value = some r)
    (hroom : ∀ buf, q.buffer = some buf →
      q.bottom - q.top < buf.data.length ∨ 2 * buf.data.length ≤ maxSize) :
    ∃ t, q.push maxSize value = some t ∧ Represents (n + 1) t r := by
  obtain ⟨htop, hle, hlt⟩ := h.range (by omega)
  have hbottom := h.bottom_le
  rw [ListDeque.push, Option.ite_none_left_eq_some, Bool.not_eq_true] at hpush
  obtain ⟨hsolid, hpush⟩ := hpush
  obtain rfl := Option.some.inj hpush
  obtain ⟨buf, hbuffer, hmask, hholds⟩ := h.solid hsolid
  obtain ⟨t, grown, hgrow, htop', hbottom', hmask', hholds', hroom'⟩ :=
    represents_room hmax h hmask hholds (hroom buf hbuffer)
  have hsize : checked (q.bottom - q.top) = some (q.bottom - q.top) :=
    checked_of_mem (by omega) (by omega)
  have hnext : checked (t.bottom + 1) = some (q.bottom + 1) := by
    rw [hbottom']
    exact checked_of_mem (by omega) (by omega)
  -- the element goes to the index after the last one
  have hindex : t.bottom = q.top + l.items.length := by
    have := h.length
    omega
  have hstore := hmask'.store_eq t.bottom value
  set slot := Circular.pos grown.data.length t.bottom with hslot
  refine ⟨{ t with
    buffer := some { grown with data := grown.data.set slot value }, bottom := q.bottom + 1 },
    ?_, ?_⟩
  · simp only [ChaseLevDeque.push, hbuffer, hsize, hgrow, hstore, hnext, Option.bind_eq_bind,
      Option.bind_some, Option.pure_def]
  · refine ⟨by rw [htop']; exact htop, by push_cast; omega, ?_, fun hh => ?_, fun _ => ?_⟩
    · simp only [htop', List.length_append, List.length_singleton, Nat.cast_add, Nat.cast_one]
      have := h.length
      omega
    · rw [hsolid] at hh
      cases hh
    · refine ⟨_, rfl, hmask'.set slot value, ?_⟩
      simp only [htop', hslot, hindex]
      exact hholds'.concat hroom' value

lemma represents_pop (h : Represents n q l) (hn : n < 2 ^ 63) :
    ∃ t, q.pop = some (t, l.pop.2) ∧ Represents n t l.pop.1 := by
  obtain ⟨htop, hle, hlt⟩ := h.range hn
  have hb : checked (q.bottom - 1) = some (q.bottom - 1) := checked_of_mem (by omega) (by omega)
  have hrestore : checked (q.bottom - 1 + 1) = some q.bottom := by
    rw [sub_add_cancel]
    exact checked_of_mem (by omega) (by omega)
  rcases List.eq_nil_or_concat l.items with hitems | ⟨init, x, hitems⟩
  · -- nothing is removed, and the index is restored
    have hlength := h.length
    rw [hitems, List.length_nil, Nat.cast_zero] at hlength
    have hempty : ¬ q.top ≤ q.bottom - 1 := by omega
    have hpop : l.pop = (l, none) := by
      obtain ⟨items, hollow⟩ := l
      obtain rfl : items = [] := hitems
      rfl
    rw [hpop]
    refine ⟨{ q with bottom := q.bottom }, ?_, h⟩
    simp only [ChaseLevDeque.pop, hb, hrestore, if_neg hempty, Option.bind_eq_bind,
      Option.bind_some, Option.pure_def]
  · have hitems' : l.items = init ++ [x] := by rw [hitems, List.concat_eq_append]
    have hlength := h.length
    rw [hitems', List.length_append, List.length_singleton, Nat.cast_add, Nat.cast_one] at hlength
    have hsolid : l.hollow = false := Bool.eq_false_iff.mpr fun hh => by
      have hnil := (h.hollow hh).2
      simp [hitems'] at hnil
    obtain ⟨buf, hbuffer, hmask, hholds⟩ := h.solid hsolid
    rw [hitems'] at hholds
    have hsome : q.top ≤ q.bottom - 1 := by omega
    have hload : buf.load (q.bottom - 1) = some x := by
      rw [hmask.load_eq, show q.bottom - 1 = q.top + init.length by omega]
      exact hholds.last
    have hpop : l.pop = ({ l with items := init }, some x) := by
      rw [ListDeque.pop, hitems', List.dropLast_concat, List.getLast?_concat]
    rw [hpop]
    by_cases hlast : q.top = q.bottom - 1
    · -- the last item is taken at the other end, as a thief would
      have hnil : init = [] := List.length_eq_zero_iff.mp (by omega)
      have htop' : checked (q.top + 1) = some q.bottom := by
        rw [hlast, sub_add_cancel]
        exact checked_of_mem (by omega) (by omega)
      refine ⟨{ q with top := q.bottom, bottom := q.bottom }, ?_, ?_⟩
      · simp only [ChaseLevDeque.pop, hb, hrestore, htop', if_pos hsome, hbuffer, hload,
          if_pos hlast, Option.bind_eq_bind, Option.bind_some, Option.pure_def]
      · refine ⟨htop.trans hle, h.bottom_le, by simp [hnil], fun hh => ?_, fun _ => ?_⟩
        · exact ⟨(h.hollow hh).1, hnil⟩
        · exact ⟨buf, hbuffer, hmask, by rw [hnil]; exact Circular.Holds.nil _ _⟩
    · refine ⟨{ q with bottom := q.bottom - 1 }, ?_, ?_⟩
      · simp only [ChaseLevDeque.pop, hb, if_pos hsome, hbuffer, hload, if_neg hlast,
          Option.bind_eq_bind, Option.bind_some, Option.pure_def]
      · refine ⟨htop, ?_, ?_, fun hh => ?_, fun _ => ⟨buf, hbuffer, hmask, hholds.init⟩⟩
        · have := h.bottom_le
          simp only
          omega
        · simp only
          omega
        · rw [hsolid] at hh
          cases hh

lemma represents_steal (h : Represents n q l) (hn : n < 2 ^ 63) :
    ∃ t, q.steal = some (t, l.steal.2) ∧ Represents n t l.steal.1 := by
  obtain ⟨htop, hle, hlt⟩ := h.range hn
  obtain ⟨items, hollow⟩ := l
  have hlength := h.length
  cases items with
  | nil =>
      have hempty : ¬ q.top < q.bottom := by
        rw [List.length_nil, Nat.cast_zero] at hlength
        omega
      refine ⟨q, ?_, h⟩
      simp only [ChaseLevDeque.steal, if_neg hempty, Option.pure_def]
      rfl
  | cons x items =>
      rw [List.length_cons, Nat.cast_add, Nat.cast_one] at hlength
      have hsolid : hollow = false := Bool.eq_false_iff.mpr fun hh => by
        have hnil := (h.hollow hh).2
        cases hnil
      obtain ⟨buf, hbuffer, hmask, hholds⟩ := h.solid hsolid
      have hsome : q.top < q.bottom := by omega
      have hload : buf.load q.top = some x := by
        rw [hmask.load_eq]
        exact hholds.head
      have htop' : checked (q.top + 1) = some (q.top + 1) :=
        checked_of_mem (by omega) (by omega)
      refine ⟨{ q with top := q.top + 1 }, ?_, ?_⟩
      · simp only [ChaseLevDeque.steal, if_pos hsome, hbuffer, hload, htop', Option.bind_eq_bind,
          Option.bind_some, Option.pure_def]
        rfl
      · refine ⟨by simp only; omega, h.bottom_le, ?_, fun hh => ?_, fun _ => ?_⟩
        · simp only [ListDeque.steal, List.tail_cons]
          omega
        · change hollow = true at hh
          rw [hsolid] at hh
          cases hh
        · exact ⟨buf, hbuffer, hmask, hholds.tail⟩

lemma represents_empty (h : Represents n q l) : q.empty = l.items.isEmpty := by
  have hlength := h.length
  rw [ChaseLevDeque.empty, Bool.eq_iff_iff, decide_eq_true_eq, List.isEmpty_iff_length_eq_zero]
  omega

/-- The destination of a move takes everything over, whatever it had before. -/
lemma represents_moveAssign (h : Represents n other l) : Represents n (q.moveAssign other) l :=
  ⟨h.top_nonneg, h.bottom_le, h.length, h.hollow, h.solid⟩

lemma represents_moveConstruct (h : Represents n other l) :
    Represents n other.moveConstruct l :=
  ⟨h.top_nonneg, h.bottom_le, h.length, h.hollow, h.solid⟩

lemma represents_movedFrom : Represents n q.movedFrom .movedFrom :=
  ⟨le_rfl, Nat.cast_nonneg n, rfl, fun _ => ⟨rfl, rfl⟩, fun h => by cases h⟩

/-! ### Programs -/

/-- The operations of a deque, in whatever way it is represented. -/
structure DequeOps (α β : Type) where
  new : ℕ → Option β
  push : β → α → Option β
  pop : β → Option (β × Option α)
  steal : β → Option (β × Option α)
  empty : β → Bool
  moveConstruct : β → β
  /-- The destination, then the source. -/
  moveAssign : β → β → β
  movedFrom : β → β

/-- The operations of `chase_lev_deque.hpp`. -/
def ringOps (α : Type) [Inhabited α] (maxSize : ℕ) : DequeOps α (ChaseLevDeque α) where
  new := ChaseLevDeque.new maxSize
  push := ChaseLevDeque.push maxSize
  pop := ChaseLevDeque.pop
  steal := ChaseLevDeque.steal
  empty := ChaseLevDeque.empty
  moveConstruct := ChaseLevDeque.moveConstruct
  moveAssign := ChaseLevDeque.moveAssign
  movedFrom := ChaseLevDeque.movedFrom

/-- The operations of a plain list. -/
def listOps (α : Type) : DequeOps α (ListDeque α) where
  new _ := some {}
  push := ListDeque.push
  pop l := some l.pop
  steal l := some l.steal
  empty l := l.items.isEmpty
  moveConstruct l := l
  moveAssign _ other := other
  movedFrom _ := .movedFrom

/-- An operation of a program; deques are named by numbers. -/
inductive Op (α : Type) where
  | construct (d cap : ℕ)
  | push (d : ℕ) (value : α)
  | pop (d : ℕ)
  | steal (d : ℕ)
  | empty (d : ℕ)
  /-- `d` is constructed from `std::move(e)`. -/
  | moveConstruct (d e : ℕ)
  /-- `d = std::move(e)`. -/
  | moveAssign (d e : ℕ)

/-- The operation is a `push`. -/
def Op.isPush {α : Type} : Op α → Bool
  | .push .. => true
  | _ => false

/-- What an operation returns. -/
inductive Result (α : Type) where
  | done
  | value (v : Option α)
  | flag (b : Bool)
  deriving DecidableEq

/-- The deques of a program, and what its operations have returned. -/
structure Objects (α β : Type) where
  objects : ℕ → Option β := fun _ => none
  results : List (Result α) := []

/-- A deque is constructed or changed. -/
def Objects.set {α β : Type} (s : Objects α β) (d : ℕ) (q : β) (result : Result α) :
    Objects α β where
  objects := Function.update s.objects d (some q)
  results := s.results ++ [result]

@[simp] lemma Objects.set_self {α β : Type} (s : Objects α β) (d : ℕ) (q : β)
    (result : Result α) : (s.set d q result).objects d = some q :=
  Function.update_self _ _ _

/-- One operation. Deques are constructed once, and used after that only. -/
def step {α β : Type} (ops : DequeOps α β) (s : Objects α β) : Op α → Option (Objects α β)
  | .construct d cap =>
      if (s.objects d).isSome then none else (ops.new cap).map fun q => s.set d q .done
  | .push d value => (s.objects d).bind fun q => (ops.push q value).map fun q => s.set d q .done
  | .pop d => (s.objects d).bind fun q => (ops.pop q).map fun (q, v) => s.set d q (.value v)
  | .steal d => (s.objects d).bind fun q => (ops.steal q).map fun (q, v) => s.set d q (.value v)
  | .empty d => (s.objects d).map fun q => s.set d q (.flag (ops.empty q))
  | .moveConstruct d e =>
      if (s.objects d).isSome then none
      else (s.objects e).map fun other =>
        ({ s with objects := Function.update s.objects e (some (ops.movedFrom other)) }).set d
          (ops.moveConstruct other) .done
  | .moveAssign d e =>
      (s.objects d).bind fun q => (s.objects e).map fun other =>
        if d = e then s.set d q .done
        else ({ s with objects := Function.update s.objects e (some (ops.movedFrom other)) }).set d
          (ops.moveAssign q other) .done

/-- The program over the ring buffer and the one over lists are in step. -/
structure InStep (n : ℕ) (s : Objects α (ChaseLevDeque α)) (u : Objects α (ListDeque α)) :
    Prop where
  objects : ∀ d, Option.Rel (Represents n) (s.objects d) (u.objects d)
  results : s.results = u.results

/-- What std::vector can be asked for: a new deque has a power of two of slots that a vector can
hold, and so has the larger buffer that `push` takes when the current one is full. -/
def Allocates (maxSize : ℕ) (s : Objects α (ChaseLevDeque α)) : Op α → Prop
  | .construct _ cap => (∃ k, cap = 2 ^ k) ∧ cap ≤ maxSize
  | .push d _ => ∀ q ∈ s.objects d, ∀ buf ∈ q.buffer,
      q.bottom - q.top < buf.data.length ∨ 2 * buf.data.length ≤ maxSize
  | _ => True

instance decidableTwoPow (cap : ℕ) : Decidable (∃ k, cap = 2 ^ k) :=
  decidable_of_iff (cap = 2 ^ Nat.log2 cap)
    ⟨fun h => ⟨_, h⟩, by rintro ⟨k, rfl⟩; rw [Nat.log2_two_pow]⟩

instance (maxSize : ℕ) (s : Objects α (ChaseLevDeque α)) :
    (op : Op α) → Decidable (Allocates maxSize s op)
  | .construct _ _ => inferInstanceAs (Decidable (_ ∧ _))
  | .push _ _ => inferInstanceAs (Decidable (∀ q ∈ _, ∀ buf ∈ ChaseLevDeque.buffer q, _ ∨ _))
  | .pop _ | .steal _ | .empty _ | .moveConstruct _ _ | .moveAssign _ _ =>
      inferInstanceAs (Decidable True)

variable {s : Objects α (ChaseLevDeque α)} {u v : Objects α (ListDeque α)}

lemma InStep.mono (h : InStep n s u) {m : ℕ} (hle : n ≤ m) : InStep m s u := by
  refine ⟨fun d => ?_, h.results⟩
  have hd := h.objects d
  revert hd
  generalize s.objects d = x
  generalize u.objects d = y
  rintro (hr | _)
  · exact .some (hr.mono hle)
  · exact .none

/-- A deque is changed in both programs. -/
lemma InStep.set (h : InStep n s u) (d : ℕ) (hr : Represents n q l) (result : Result α) :
    InStep n (s.set d q result) (u.set d l result) := by
  refine ⟨fun x => ?_, ?_⟩
  · by_cases hx : x = d
    · simpa [Objects.set, hx] using hr
    · simpa [Objects.set, hx] using h.objects x
  · rw [Objects.set, Objects.set, h.results]

/-- A deque is moved from in both programs. -/
lemma InStep.movedFrom (h : InStep n s u) (e : ℕ) (q : ChaseLevDeque α) :
    InStep n { s with objects := Function.update s.objects e (some q.movedFrom) }
      { u with objects := Function.update u.objects e (some .movedFrom) } := by
  refine ⟨fun x => ?_, h.results⟩
  by_cases hx : x = e
  · simpa [hx] using represents_movedFrom
  · simpa [hx] using h.objects x

/-- The deque of that name in the other program. -/
lemma InStep.some_left (h : InStep n s u) {d : ℕ} (hd : u.objects d = some l) :
    ∃ q, s.objects d = some q ∧ Represents n q l := by
  have hrel := h.objects d
  rw [hd] at hrel
  generalize s.objects d = x at hrel
  cases hrel with
  | some hr => exact ⟨_, rfl, hr⟩

lemma InStep.isSome_eq (h : InStep n s u) (d : ℕ) :
    (s.objects d).isSome = (u.objects d).isSome := by
  have hrel := h.objects d
  revert hrel
  generalize s.objects d = x
  generalize u.objects d = y
  rintro (_ | _) <;> rfl

/-- How many pushes there are after the operation. -/
def Op.count {α : Type} (n : ℕ) (op : Op α) : ℕ := if op.isPush then n + 1 else n

/-- An operation of the list program is one of the program over the ring buffer. -/
lemma InStep.step [Inhabited α] {maxSize : ℕ} (hmax : maxSize < 2 ^ 63) (h : InStep n s u)
    {op : Op α} (hn : op.count n < 2 ^ 63) (hok : Allocates maxSize s op)
    (hstep : step (listOps α) u op = some v) :
    ∃ t, Sequential.step (ringOps α maxSize) s op = some t ∧ InStep (op.count n) t v := by
  cases op with
  | construct d cap =>
      simp only [Sequential.step, Option.ite_none_left_eq_some, listOps, Option.map_some,
        Bool.not_eq_true] at hstep
      obtain ⟨hfree, hstep⟩ := hstep
      obtain rfl := Option.some.inj hstep
      obtain ⟨⟨k, rfl⟩, hle⟩ := hok
      obtain ⟨q, hnew, hr⟩ := represents_new (α := α) (n := n) hmax hle
      refine ⟨s.set d q .done, ?_, h.set d hr .done⟩
      simp [Sequential.step, h.isSome_eq d, hfree, ringOps, hnew]
  | push d value =>
      simp only [Sequential.step, Option.bind_eq_some_iff, Option.map_eq_some_iff] at hstep
      obtain ⟨l, hl, r, hpush, rfl⟩ := hstep
      obtain ⟨q, hq, hr⟩ := h.some_left hl
      obtain ⟨t, ht, hrt⟩ := represents_push hmax hr hn hpush (hok q hq)
      refine ⟨s.set d t .done, ?_, (h.mono (Nat.le_succ n)).set d hrt .done⟩
      simp [Sequential.step, hq, ringOps, ht]
  | pop d =>
      simp only [Sequential.step, Option.bind_eq_some_iff, listOps, Option.map_some] at hstep
      obtain ⟨l, hl, hstep⟩ := hstep
      obtain rfl := Option.some.inj hstep
      obtain ⟨q, hq, hr⟩ := h.some_left hl
      obtain ⟨t, ht, hrt⟩ := represents_pop hr hn
      refine ⟨s.set d t (.value l.pop.2), ?_, h.set d hrt _⟩
      simp [Sequential.step, hq, ringOps, ht]
  | steal d =>
      simp only [Sequential.step, Option.bind_eq_some_iff, listOps, Option.map_some] at hstep
      obtain ⟨l, hl, hstep⟩ := hstep
      obtain rfl := Option.some.inj hstep
      obtain ⟨q, hq, hr⟩ := h.some_left hl
      obtain ⟨t, ht, hrt⟩ := represents_steal hr hn
      refine ⟨s.set d t (.value l.steal.2), ?_, h.set d hrt _⟩
      simp [Sequential.step, hq, ringOps, ht]
  | empty d =>
      simp only [Sequential.step, Option.map_eq_some_iff, listOps] at hstep
      obtain ⟨l, hl, rfl⟩ := hstep
      obtain ⟨q, hq, hr⟩ := h.some_left hl
      refine ⟨s.set d q (.flag q.empty), ?_, ?_⟩
      · simp [Sequential.step, hq, ringOps]
      · rw [represents_empty hr]
        exact h.set d hr _
  | moveConstruct d e =>
      simp only [Sequential.step, Option.ite_none_left_eq_some, Option.map_eq_some_iff,
        Bool.not_eq_true] at hstep
      obtain ⟨hfree, l, hl, rfl⟩ := hstep
      obtain ⟨q, hq, hr⟩ := h.some_left hl
      refine ⟨_, ?_, (h.movedFrom e q).set d (represents_moveConstruct hr) .done⟩
      simp [Sequential.step, h.isSome_eq d, hfree, hq, ringOps]
  | moveAssign d e =>
      simp only [Sequential.step, Option.bind_eq_some_iff, Option.map_eq_some_iff] at hstep
      obtain ⟨l, hl, r, hr, rfl⟩ := hstep
      obtain ⟨q, hq, hrep⟩ := h.some_left hl
      obtain ⟨other, hother, hrep'⟩ := h.some_left hr
      by_cases hde : d = e
      · -- assigned to itself, a deque is left alone
        rw [if_pos hde]
        refine ⟨s.set d q .done, ?_, h.set d hrep .done⟩
        subst hde
        simp [Sequential.step, hq]
      · rw [if_neg hde]
        refine ⟨_, ?_, (h.movedFrom e other).set d (represents_moveAssign (q := q) hrep') .done⟩
        simp [Sequential.step, hq, hother, hde, ringOps]

/-- A run of the list program is one of the program over the ring buffer. -/
lemma InStep.run [Inhabited α] {maxSize : ℕ} (hmax : maxSize < 2 ^ 63) {ops : List (Op α)}
    (h : InStep n s u) (hn : n + ops.countP Op.isPush < 2 ^ 63)
    (hok : AllSteps (Sequential.step (ringOps α maxSize)) (Allocates maxSize) s ops)
    (hrun : Runs.run (Sequential.step (listOps α)) u ops = some v) :
    ∃ t, Runs.run (Sequential.step (ringOps α maxSize)) s ops = some t ∧
      t.results = v.results := by
  induction ops generalizing n s u with
  | nil =>
      obtain rfl := Option.some.inj hrun
      exact ⟨s, rfl, h.results⟩
  | cons op ops ih =>
      rw [run_cons, Option.bind_eq_some_iff] at hrun
      obtain ⟨w, hw, hrun⟩ := hrun
      have hcount : op.count n + ops.countP Op.isPush = n + (op :: ops).countP Op.isPush := by
        rw [List.countP_cons, Op.count]
        split <;> omega
      obtain ⟨t, ht, hin⟩ := h.step hmax (by omega) hok.1 hw
      obtain ⟨z, hz, hres⟩ := ih hin (by omega) (hok.2 t ht) hrun
      exact ⟨z, by rw [run_cons, ht, Option.bind_some, hz], hres⟩

lemma inStep_empty : InStep 0 ({} : Objects α (ChaseLevDeque α)) {} :=
  ⟨fun _ => .none, rfl⟩

/-- A program that pushes to no hollow deque and less than `2 ^ 63` times gets the results of
plain lists from deques whose buffers can be allocated. -/
theorem deque_is_list [Inhabited α] {maxSize : ℕ} (hmax : maxSize < 2 ^ 63) {ops : List (Op α)}
    {v : Objects α (ListDeque α)} (hlist : run (step (listOps α)) {} ops = some v)
    (hpushes : ops.countP Op.isPush < 2 ^ 63)
    (hok : AllSteps (step (ringOps α maxSize)) (Allocates maxSize) {} ops) :
    ∃ s, run (step (ringOps α maxSize)) {} ops = some s ∧ s.results = v.results :=
  inStep_empty.run hmax (by omega) hok hlist

/-- A deque of one slot is filled and emptied at both ends, grows, and is moved. -/
def mixed : List (Op ℕ) :=
  [.construct 0 1, .push 0 1, .push 0 2, .push 0 3, .steal 0, .construct 1 4, .moveAssign 1 0,
    .pop 1, .pop 1, .pop 1, .empty 0]

/-- What the deque of one slot returns. -/
theorem deque_is_list_mixed : ∃ s, run (step (ringOps ℕ (2 ^ 63 - 1))) {} mixed = some s ∧
    s.results = (reached (step (listOps ℕ)) {} mixed).results :=
  deque_is_list (by norm_num)
    (run_eq_reached (show (run (step (listOps ℕ)) {} mixed).isSome = true by decide +kernel))
    (by decide +kernel) (by decide +kernel)

/-! ### Beyond the bounds -/

/-- Lists again, when a deque is hollow only while it has been moved from itself. -/
def namedOps (α : Type) : DequeOps α (ListDeque α) :=
  { listOps α with
    moveConstruct := fun l => { l with hollow := false }
    moveAssign := fun _ other => { other with hollow := false } }

/-- Elements are pushed and stolen in turn. -/
def churn (n : ℕ) : List (Op ℕ) := (List.replicate n [.push 0 7, .steal 0]).flatten

/-- An element is pushed onto an empty deque of one slot. -/
lemma push_one_slot {maxSize : ℕ} (i : ℤ) (x : ℕ) :
    ChaseLevDeque.push maxSize { buffer := some ⟨0, [x]⟩, top := i, bottom := i } 7 =
      (checked (i + 1)).map fun bottom =>
        { buffer := some ⟨0, [7]⟩, top := i, bottom := bottom } := by
  have hzero : checked 0 = some 0 := rfl
  have hfor : (ChaseLevDeque.mk (some (⟨0, [x]⟩ : CircularBuffer ℕ)) i i []).bufferFor maxSize
      ⟨0, [x]⟩ 0 = some (⟨some ⟨0, [x]⟩, i, i, []⟩, ⟨0, [x]⟩) := rfl
  have hstore : (⟨0, [x]⟩ : CircularBuffer ℕ).store i 7 = some ⟨0, [7]⟩ := by
    rw [CircularBuffer.store, CircularBuffer.slot, Nat.and_zero]
    rfl
  simp only [ChaseLevDeque.push, Option.bind_eq_bind, Option.bind_some, sub_self, hzero, hfor,
    hstore]
  cases checked (i + 1) <;> rfl

/-- The indices of a deque of one slot that is empty go up with every element. -/
lemma run_churn (maxSize n : ℕ) {s : Objects ℕ (ChaseLevDeque ℕ)}
    {u : Objects ℕ (ListDeque ℕ)} {i : ℤ} {x : ℕ}
    (hs : s.objects 0 = some { buffer := some ⟨0, [x]⟩, top := i, bottom := i })
    (hu : u.objects 0 = some {}) (hi : 0 ≤ i) (hlt : i + n < 2 ^ 63) :
    ∃ t v y, run (step (ringOps ℕ maxSize)) s (churn n) = some t ∧
      t.objects 0 = some { buffer := some ⟨0, [y]⟩, top := i + n, bottom := i + n } ∧
      run (step (namedOps ℕ)) u (churn n) = some v ∧ v.objects 0 = some {} := by
  induction n generalizing s u i x with
  | zero => exact ⟨s, u, x, rfl, by simpa using hs, rfl, hu⟩
  | succ n ih =>
      have hnext : checked (i + 1) = some (i + 1) := checked_of_mem (by omega) (by omega)
      set q : ChaseLevDeque ℕ := { buffer := some ⟨0, [7]⟩, top := i, bottom := i + 1 } with hq
      have hload : (⟨0, [7]⟩ : CircularBuffer ℕ).load i = some 7 := by
        rw [CircularBuffer.load, CircularBuffer.slot, Nat.and_zero]
        rfl
      have hpush : step (ringOps ℕ maxSize) s (.push 0 7) = some (s.set 0 q .done) := by
        simp [step, hs, ringOps, push_one_slot, hnext, hq]
      have hsteal : step (ringOps ℕ maxSize) (s.set 0 q .done) (.steal 0) =
          some ((s.set 0 q .done).set 0 { q with top := i + 1 } (.value (some 7))) := by
        simp [step, ringOps, ChaseLevDeque.steal, hq, hload, hnext]
      set l : ListDeque ℕ := { items := [7] } with hl
      have hpush' : step (namedOps ℕ) u (.push 0 7) = some (u.set 0 l .done) := by
        simp [step, hu, namedOps, listOps, ListDeque.push, hl]
      have hsteal' : step (namedOps ℕ) (u.set 0 l .done) (.steal 0) =
          some ((u.set 0 l .done).set 0 {} (.value (some 7))) := by
        simp [step, namedOps, listOps, ListDeque.steal, hl]
      obtain ⟨t, v, y, ht, htq, hv, hvl⟩ := ih (x := 7) (i := i + 1)
        (s := (s.set 0 q .done).set 0 { q with top := i + 1 } (.value (some 7)))
        (u := (u.set 0 l .done).set 0 {} (.value (some 7)))
        (Objects.set_self _ _ _ _) (Objects.set_self _ _ _ _) (by omega) (by omega)
      have hchurn : churn (n + 1) = .push 0 7 :: .steal 0 :: churn n := rfl
      refine ⟨t, v, y, ?_, ?_, ?_, hvl⟩
      · rw [hchurn, run_cons, hpush, Option.bind_some, run_cons, hsteal, Option.bind_some, ht]
      · rw [htq, Nat.cast_succ, show i + 1 + (n : ℤ) = i + (n + 1) by ring]
      · rw [hchurn, run_cons, hpush', Option.bind_some, run_cons, hsteal', Option.bind_some, hv]

/-- A deque of one slot, after as many pushes as its index can count, and one more. -/
def counted : List (Op ℕ) := .construct 0 1 :: (churn (2 ^ 63 - 1) ++ [.push 0 7])

/-- The program over lists runs, and the one over the ring buffer comes to an operation that has
no result, whatever a vector can hold. -/
def Leaves (ops : List (Op ℕ)) : Prop :=
  (∃ v, run (step (namedOps ℕ)) {} ops = some v) ∧
    run (step (ringOps ℕ (2 ^ 63 - 1))) {} ops = none

/-- The index of a deque leaves its range. -/
lemma counted_leaves : Leaves counted := by
  set s : Objects ℕ (ChaseLevDeque ℕ) :=
    ({} : Objects ℕ (ChaseLevDeque ℕ)).set 0 { buffer := some ⟨0, [0]⟩ } .done with hs
  set u : Objects ℕ (ListDeque ℕ) := ({} : Objects ℕ (ListDeque ℕ)).set 0 {} .done with hu
  have hnew : step (ringOps ℕ (2 ^ 63 - 1)) {} (.construct 0 1) = some s := rfl
  have hnew' : step (namedOps ℕ) {} (.construct 0 1) = some u := rfl
  obtain ⟨t, v, y, ht, htq, hv, hvl⟩ := run_churn (2 ^ 63 - 1) (2 ^ 63 - 1)
    (s := s) (u := u) (i := 0) (x := 0) (Objects.set_self _ _ _ _) (Objects.set_self _ _ _ _)
    le_rfl (by norm_num)
  constructor
  · refine ⟨v.set 0 { items := [7] } .done, ?_⟩
    rw [counted, run_cons, hnew', Option.bind_some, run_append, hv, Option.bind_some]
    simp [run_cons, step, hvl, namedOps, listOps, ListDeque.push]
  · have hover : checked ((0 : ℤ) + (2 ^ 63 - 1 : ℕ) + 1) = none := by
      rw [checked, if_neg (by norm_num)]
    have hpush : step (ringOps ℕ (2 ^ 63 - 1)) t (.push 0 7) = none := by
      rw [step, htq, Option.bind_some]
      change (ChaseLevDeque.push (2 ^ 63 - 1) _ 7).map _ = none
      rw [push_one_slot, hover]
      rfl
    rw [counted, run_cons, hnew, Option.bind_some, run_append, ht, Option.bind_some, run_cons,
      hpush, Option.bind_none]

/-- A deque that has been moved from is moved again, and an element is pushed onto the deque that
has taken it over. -/
def handedOn : List (Op ℕ) :=
  [.construct 0 1, .moveConstruct 1 0, .moveConstruct 2 0, .push 2 7]

/-- The ring buffer is no list: for a deque that was given a null buffer, for one whose index has
no room for a further push, and for more slots than a vector can hold. -/
theorem ring_leaves_list : Leaves handedOn ∧ Leaves counted ∧ Leaves [.construct 0 (2 ^ 63)] := by
  refine ⟨⟨?_, ?_⟩, counted_leaves, ⟨_, rfl⟩, ?_⟩
  · exact Option.isSome_iff_exists.mp (by decide +kernel)
  · exact Option.isNone_iff_eq_none.mp (by decide +kernel)
  · exact Option.isNone_iff_eq_none.mp (by decide +kernel)

end Sequential

end Agner
