import Agner.Deque.Accounting
import Agner.Foundations.Linearizability

/-!
The work-stealing deque as an atomic object.

However the accesses of the owner and of the thieves interleave, their calls return as if each
operation took effect at one moment between call and return: `push` and `pop` at the back of one
list of elements, `steal` at its front. A `pop` returns nothing only when the list is empty. A
`steal` may do so when at most one element is left, or when one has been taken from the front
since it began.

* `Operation`, `Effect`, `object`: the list and its operations.
* `items`, `progress`, `atomic`: the list that a state stands for, and how far its threads are.
  The element that `pop` is sure to get is no longer in the list.
* `visible`: the calls and returns of a step.
* `follows_step`: every step is at most one effect of the list, with these calls and returns.
* `linearizable`: so is every run.
-/

namespace Agner

open Runs Linearizability

variable {α : Type}

namespace ChaseLevDeque

/-! ### The atomic deque -/

/-- An operation of the deque. -/
inductive Operation (α : Type) where
  | push (value : α)
  | pop
  | steal
  deriving DecidableEq

/-- The owner, or one of the thieves. -/
inductive Thread where
  | owner
  | thief (k : ℕ)
  deriving DecidableEq

/-- The elements, and how many have been taken from the front. -/
structure Contents (α : Type) where
  items : List α := []
  taken : ℤ := 0

/-- What an operation does. -/
inductive Effect : Contents α → Operation α → ℤ → Option α → Contents α → Prop where
  | push (items : List α) (taken mark : ℤ) (value : α) :
      Effect ⟨items, taken⟩ (.push value) mark none ⟨items ++ [value], taken⟩
  | pop (items : List α) (taken mark : ℤ) (value : α) (h : items ≠ []) :
      Effect ⟨items ++ [value], taken⟩ .pop mark (some value) ⟨items, taken⟩
  /-- The last element is taken from the front. -/
  | popLast (taken mark : ℤ) (value : α) :
      Effect ⟨[value], taken⟩ .pop mark (some value) ⟨[], taken + 1⟩
  | popNothing (taken mark : ℤ) : Effect ⟨[], taken⟩ .pop mark none ⟨[], taken⟩
  | steal (items : List α) (taken mark : ℤ) (value : α) :
      Effect ⟨value :: items, taken⟩ .steal mark (some value) ⟨items, taken + 1⟩
  | stealNothing (items : List α) (taken mark : ℤ) (h : items.length ≤ 1 ∨ mark < taken) :
      Effect ⟨items, taken⟩ .steal mark none ⟨items, taken⟩

/-- A thief keeps how many elements had been taken from the front when it began. -/
def mark : Operation α → Contents α → ℤ
  | .steal, c => c.taken
  | _, _ => 0

/-- The atomic deque. -/
def object (α : Type) : SeqObject (Contents α) (Operation α) (Option α) ℤ := ⟨mark, Effect⟩

end ChaseLevDeque

namespace Owner

variable {o : Owner α}

/-- How far the owner is with its operation. It has got its element for sure when it has seen
`top_` below it. -/
def progress (buffers : ℕ → CircularBuffer α) :
    Owner α → Progress (ChaseLevDeque.Operation α) (Option α) ℤ
  | .idle => .idle
  | .pushing value | .pushBottom value _ | .pushTop value _ _ | .growing value _ _ _ _ _
  | .copying value _ _ _ _ _ _ | .storing value _ _ | .stored value _ => .called (.push value) 0
  | .popping | .popBottom _ | .lowering _ _ | .lowered _ _ | .contending _ _ _ => .called .pop 0
  | .loading b t buf => if t = b then .called .pop 0 else .done (some ((buffers buf).load b))
  | .restoring _ result => .done result

/-- One past the last element that the owner has not got for sure. -/
def cut (bottom : ℤ) : Owner α → ℤ
  | .lowered b _ | .contending b _ _ | .restoring b _ => b + 1
  | .loading b t _ => if t = b then b + 1 else b
  | _ => bottom

variable {top bottom : ℤ} {buffer : ℕ} {current : CircularBuffer α}

lemma cut_of_not_lowers (h : o.lowers = false) : o.cut bottom = bottom := by
  cases o <;> first | rfl | exact absurd h (by simp [lowers])

/-- A thief may take an element only if it is in the list. -/
lemma Fits.top_lt_cut (h : o.Fits top bottom buffer current)
    (hclaim : top < bottom ∨ o.Contends top) : top < o.cut bottom := by
  cases o <;> simp only [Fits, Contends, cut, or_false] at h hclaim ⊢
  case loading => split <;> omega
  all_goals omega

/-- At most one element is past what a thief can see. -/
lemma Fits.cut_le (h : o.Fits top bottom buffer current) : o.cut bottom ≤ bottom + 1 := by
  cases o <;> simp only [Fits, cut] at h ⊢
  case loading => split <;> omega
  all_goals omega

end Owner

/-- How far a thief is. -/
def Thief.progress : Thief α → Progress (ChaseLevDeque.Operation α) (Option α) ℤ
  | .idle => .idle
  | .topLoaded t | .inRange t | .bufferLoaded t _ | .valueLoaded t _ => .called .steal t

namespace ChaseLevDeque

/-- The list that the deque stands for. -/
def items (s : ChaseLevDeque α) : List α := window s.current.load s.top (s.owner.cut s.bottom)

/-- How far the threads are. -/
def progress (s : ChaseLevDeque α) : Thread → Progress (Operation α) (Option α) ℤ
  | .owner => s.owner.progress s.buffers
  | .thief k => (s.thieves k).progress

/-- The atomic deque that a state stands for. -/
def atomic (s : ChaseLevDeque α) : Atomic (Contents α) Thread (Operation α) (Option α) ℤ :=
  ⟨⟨s.items, s.top⟩, s.progress⟩

/-- The calls and returns of a step. -/
def visible (s : ChaseLevDeque α) : Label α → List (Event Thread (Operation α) (Option α))
  | .push value => [.call .owner (.push value)]
  | .pop => [.call .owner .pop]
  | .owner =>
      match s.owner with
      | .stored _ _ => [.return .owner none]
      | .loading b t buf => if t = b then [] else [.return .owner (some ((s.buffers buf).load b))]
      | .restoring _ result => [.return .owner result]
      | _ => []
  | .thief k =>
      match s.thieves k with
      | .idle => [.call (.thief k) .steal]
      | .topLoaded t => if t < s.bottom then [] else [.return (.thief k) none]
      | .valueLoaded t value =>
          [.return (.thief k) (if s.top = t then some value else none)]
      | _ => []

/-- The calls and returns of a run. -/
def history [Inhabited α] (s : ChaseLevDeque α) (labels : List (Label α)) :
    List (Event Thread (Operation α) (Option α)) :=
  (observations step visible s labels).flatten

variable {s t : ChaseLevDeque α}

/-! ### Steps of the owner -/

/-- The owner moves on, and the thieves stay where they are. -/
lemma progress_owner {p : Progress (Operation α) (Option α) ℤ} (h : t.thieves = s.thieves)
    (ho : t.owner.progress t.buffers = p) :
    t.progress = Function.update s.progress .owner p := by
  funext k
  cases k with
  | owner =>
      rw [Function.update_self]
      exact ho
  | thief k =>
      rw [Function.update_of_ne (by simp), progress, progress, h]

/-- A step of the owner that is neither seen nor takes effect. -/
lemma follows_silent (hthieves : t.thieves = s.thieves) (htop : t.top = s.top)
    (hitems : t.items = s.items) (ho : t.owner.progress t.buffers = s.owner.progress s.buffers) :
    Follows (object α) s.atomic [] t.atomic := by
  have heq : t.atomic = s.atomic := by
    rw [atomic, atomic, hitems, htop, progress_owner hthieves ho]
    exact congrArg _ (Function.update_eq_self Thread.owner s.progress)
  rw [heq]
  exact .refl _

lemma items_of_not_lowers (h : s.owner.lowers = false) :
    s.items = window s.current.load s.top s.bottom := by
  rw [items, Owner.cut_of_not_lowers h]

/-- The same outside of `pop`, where the elements between `top_` and `bottom_` count. -/
lemma follows_advance (hs : s.owner.lowers = false) (ht : t.owner.lowers = false)
    (hthieves : t.thieves = s.thieves) (htop : t.top = s.top) (hbottom : t.bottom = s.bottom)
    (hload : ∀ i, s.top ≤ i → i < s.bottom → t.current.load i = s.current.load i)
    (ho : t.owner.progress t.buffers = s.owner.progress s.buffers) :
    Follows (object α) s.atomic [] t.atomic := by
  refine follows_silent hthieves htop ?_ ho
  rw [items_of_not_lowers hs, items_of_not_lowers ht, htop, hbottom, window_congr hload]

section Push

variable {value : α} {b x : ℤ} {buf : ℕ} {i : ℤ} {grown : CircularBuffer α}

lemma follows_growing (h : s.Sound) (ho : s.owner = .growing value b x buf i grown)
    (hi : ¬ i < b) :
    Follows (object α) s.atomic []
      ({ s with
        buffers := Function.update s.buffers (s.buffer + 1) grown
        buffer := s.buffer + 1
        owner := .storing value b (s.buffer + 1) } : ChaseLevDeque α).atomic := by
  obtain ⟨hb, -, -, htop, -, -, -, -, hload⟩ := ho ▸ h.owner
  refine follows_advance (by rw [ho]; rfl) rfl rfl rfl rfl (fun j hj hlt => ?_) (by rw [ho]; rfl)
  refine Eq.trans ?_ (hload j (by omega) (by omega))
  exact congrArg (fun c : CircularBuffer α => c.load j) (Function.update_self _ _ _)

lemma follows_storing (h : s.Sound) (ho : s.owner = .storing value b buf) :
    Follows (object α) s.atomic []
      ({ s with
        buffers := Function.update s.buffers buf ((s.buffers buf).store b value)
        owner := .stored value b } : ChaseLevDeque α).atomic := by
  obtain ⟨rfl, rfl, hroom⟩ := ho ▸ h.owner
  have hnonneg := h.top_nonneg
  refine follows_advance (by rw [ho]; rfl) rfl rfl rfl rfl (fun j hj hlt => ?_) (by rw [ho]; rfl)
  refine Eq.trans (congrArg (fun c : CircularBuffer α => c.load j) (Function.update_self _ _ _)) ?_
  exact s.current.load_store_of_lt (by omega) hlt (by omega)

/-- `push` takes effect when it stores `bottom_`. -/
lemma follows_stored (h : s.Sound) (ho : s.owner = .stored value b) :
    Follows (object α) s.atomic [.return .owner none]
      ({ s with
        bottom := b + 1, owner := .idle, pushed := s.pushed ++ [value] } :
          ChaseLevDeque α).atomic := by
  obtain ⟨rfl, -, hvalue⟩ := ho ▸ h.owner
  have hs : s.owner.lowers = false := by rw [ho]; rfl
  have hk : s.atomic.threads .owner = .called (.push value) 0 :=
    congrArg (Owner.progress s.buffers) ho
  have ht : window s.current.load s.top (s.bottom + 1) = s.items ++ [value] := by
    rw [items_of_not_lowers hs, ← hvalue, window_concat (h.top_le_bottom hs)]
  have hpushed : ({ s with
      bottom := s.bottom + 1, owner := .idle, pushed := s.pushed ++ [value] } :
        ChaseLevDeque α).items = s.items ++ [value] := ht
  refine .effect_return hk ?_ (progress_owner rfl rfl)
  rw [atomic, atomic, hpushed]
  exact .push _ _ _ _

end Push

section Pop

variable {b x : ℤ} {buf : ℕ} {value : α}

lemma follows_lowering (h : s.Sound) (ho : s.owner = .lowering b buf) :
    Follows (object α) s.atomic []
      ({ s with bottom := b, owner := .lowered b buf } : ChaseLevDeque α).atomic := by
  obtain ⟨rfl, rfl⟩ := ho ▸ h.owner
  refine follows_silent rfl rfl ?_ (by rw [ho]; rfl)
  have hs : s.items = window s.current.load s.top s.bottom :=
    items_of_not_lowers (by rw [ho]; rfl)
  rw [hs]
  exact congrArg (window s.current.load s.top) (sub_add_cancel _ _)

/-- `pop` takes effect when it sees `top_` below the element it has lowered `bottom_` onto, or
past it. -/
lemma follows_lowered (h : s.Sound) (ho : s.owner = .lowered b buf) :
    Follows (object α) s.atomic []
      ({ s with owner := if s.top ≤ b then .loading b s.top buf else .restoring b none } :
        ChaseLevDeque α).atomic := by
  obtain ⟨rfl, rfl⟩ := ho ▸ h.owner
  have hk : s.atomic.threads .owner = .called .pop 0 := congrArg (Owner.progress s.buffers) ho
  have hs : s.items = window s.current.load s.top (s.bottom + 1) := by rw [items, ho]; rfl
  rcases lt_trichotomy s.top s.bottom with hlt | heq | hgt
  · have hne : window s.current.load s.top s.bottom ≠ [] := by
      rw [window_cons hlt]
      exact List.cons_ne_nil _ _
    have hback : s.items = window s.current.load s.top s.bottom ++ [s.current.load s.bottom] := by
      rw [hs, window_concat hlt.le]
    have ht : ({ s with owner := .loading s.bottom s.top s.buffer } : ChaseLevDeque α).items =
        window s.current.load s.top s.bottom :=
      congrArg (window s.current.load s.top) (if_neg hlt.ne)
    have hdone : (Owner.loading s.bottom s.top s.buffer).progress s.buffers =
        .done (some (s.current.load s.bottom)) := if_neg hlt.ne
    rw [if_pos hlt.le]
    refine .effect hk ?_ (progress_owner rfl hdone)
    rw [atomic, atomic, hback, ht]
    exact .pop _ _ _ _ hne
  · rw [if_pos heq.le]
    refine follows_silent rfl rfl ?_ ?_
    · rw [hs]
      exact congrArg (window s.current.load s.top) (if_pos heq)
    · rw [ho]
      exact if_pos heq
  · have hnil : s.items = [] := by rw [hs, window_eq_nil (Int.add_one_le_iff.mpr hgt)]
    have ht : ({ s with owner := .restoring s.bottom none } : ChaseLevDeque α).items = [] :=
      window_eq_nil (Int.add_one_le_iff.mpr hgt)
    rw [if_neg hgt.not_ge]
    refine .effect hk ?_ (progress_owner rfl rfl)
    rw [atomic, atomic, ht, hnil]
    exact .popNothing _ _

lemma follows_loading (ho : s.owner = .loading b b buf) :
    Follows (object α) s.atomic []
      ({ s with owner := .contending b b ((s.buffers buf).load b) } : ChaseLevDeque α).atomic := by
  refine follows_silent rfl rfl ?_ ?_
  · have hs : s.items = window s.current.load s.top (b + 1) := by
      rw [items, ho]
      exact congrArg (window s.current.load s.top) (if_pos rfl)
    rw [hs]
    rfl
  · rw [ho]
    exact (if_pos rfl).symm

/-- `pop` returns the element it is sure of. -/
lemma follows_take (h : s.Sound) (ho : s.owner = .loading b x buf) (hx : x ≠ b) :
    Follows (object α) s.atomic [.return .owner (some ((s.buffers buf).load b))]
      ({ s with owner := .idle }.return? (some ((s.buffers buf).load b))).atomic := by
  obtain ⟨rfl, -⟩ := ho ▸ h.owner
  have hk : s.atomic.threads .owner = .done (some ((s.buffers buf).load s.bottom)) :=
    (congrArg (Owner.progress s.buffers) ho).trans (if_neg hx)
  have hs : s.items = window s.current.load s.top s.bottom := by
    rw [items, ho]
    exact congrArg (window s.current.load s.top) (if_neg hx)
  refine .return_ hk ?_ (progress_owner rfl rfl)
  rw [atomic, atomic, hs]
  rfl

/-- `pop` takes the last element by its compare-exchange. -/
lemma follows_win (h : s.Sound) (ho : s.owner = .contending b x value) (htop : s.top = x) :
    Follows (object α) s.atomic []
      ({ s with top := x + 1, owner := .restoring b (some value) } : ChaseLevDeque α).atomic := by
  obtain ⟨rfl, rfl, -, rfl⟩ := ho ▸ h.owner
  have hk : s.atomic.threads .owner = .called .pop 0 := congrArg (Owner.progress s.buffers) ho
  have hcut : s.items = window s.current.load s.top (s.bottom + 1) := by rw [items, ho]; rfl
  have hs : s.items = [s.current.load s.bottom] := by
    rw [hcut, htop, window_concat le_rfl, window_eq_nil le_rfl]
    rfl
  have ht : ({ s with
      top := s.bottom + 1, owner := .restoring s.bottom (some (s.current.load s.bottom)) } :
        ChaseLevDeque α).items = [] := window_eq_nil le_rfl
  refine .effect hk ?_ (progress_owner rfl rfl)
  rw [atomic, atomic, ht, hs, htop]
  exact .popLast _ _ _

/-- A thief has taken the last element before. -/
lemma follows_lose (h : s.Sound) (ho : s.owner = .contending b x value) (htop : s.top ≠ x) :
    Follows (object α) s.atomic []
      ({ s with owner := .restoring b none } : ChaseLevDeque α).atomic := by
  obtain ⟨rfl, rfl, hle, -⟩ := ho ▸ h.owner
  have hpast : s.bottom + 1 ≤ s.top := by omega
  have hk : s.atomic.threads .owner = .called .pop 0 := congrArg (Owner.progress s.buffers) ho
  have hcut : s.items = window s.current.load s.top (s.bottom + 1) := by rw [items, ho]; rfl
  have hs : s.items = [] := by rw [hcut, window_eq_nil hpast]
  have ht : ({ s with owner := .restoring s.bottom none } : ChaseLevDeque α).items = [] :=
    window_eq_nil hpast
  refine .effect hk ?_ (progress_owner rfl rfl)
  rw [atomic, atomic, ht, hs]
  exact .popNothing _ _

lemma follows_restoring {result : Option α} (ho : s.owner = .restoring b result) :
    Follows (object α) s.atomic [.return .owner result]
      ({ s with bottom := b + 1, owner := .idle }.return? result).atomic := by
  have hk : s.atomic.threads .owner = .done result := congrArg (Owner.progress s.buffers) ho
  refine .return_ hk ?_ (progress_owner rfl rfl)
  rw [atomic, atomic, items, items, ho]
  rfl

end Pop

lemma follows_ownerStep [Inhabited α] (h : s.Sound) (hstep : s.ownerStep = some t) :
    Follows (object α) s.atomic (s.visible .owner) t.atomic := by
  rw [ChaseLevDeque.ownerStep] at hstep
  have hload : ∀ i, s.top ≤ i → i < s.bottom → s.current.load i = s.current.load i :=
    fun _ _ _ => rfl
  cases ho : s.owner with
  | idle => simp [ho] at hstep
  -- none of these accesses has an effect on the object
  | pushing | pushBottom | copying | popping | popBottom =>
      simp only [ho, Option.some.injEq] at hstep
      simp only [visible, ho]
      exact hstep ▸ follows_advance (by rw [ho]; rfl) rfl rfl rfl rfl hload (by rw [ho]; rfl)
  | pushTop value b x =>
      simp only [ho, Option.some.injEq] at hstep
      simp only [visible, ho]
      subst hstep
      split <;> exact follows_advance (by rw [ho]; rfl) rfl rfl rfl rfl hload (by rw [ho]; rfl)
  | growing value b x buf i grown =>
      simp only [ho] at hstep
      simp only [visible, ho]
      split at hstep
      · exact Option.some.inj hstep ▸
          follows_advance (by rw [ho]; rfl) rfl rfl rfl rfl hload (by rw [ho]; rfl)
      · rename_i hi
        exact Option.some.inj hstep ▸ follows_growing h ho hi
  | storing value b buf =>
      simp only [ho, Option.some.injEq] at hstep
      simp only [visible, ho]
      exact hstep ▸ follows_storing h ho
  | stored value b =>
      simp only [ho, Option.some.injEq] at hstep
      simp only [visible, ho]
      exact hstep ▸ follows_stored h ho
  | lowering b buf =>
      simp only [ho, Option.some.injEq] at hstep
      simp only [visible, ho]
      exact hstep ▸ follows_lowering h ho
  | lowered b buf =>
      simp only [ho, Option.some.injEq] at hstep
      simp only [visible, ho]
      exact hstep ▸ follows_lowered h ho
  | loading b x buf =>
      simp only [ho] at hstep
      simp only [visible, ho]
      split at hstep
      · rename_i hx
        subst hx
        rw [if_pos rfl]
        exact Option.some.inj hstep ▸ follows_loading ho
      · rename_i hx
        rw [if_neg hx]
        exact Option.some.inj hstep ▸ follows_take h ho hx
  | contending b x value =>
      simp only [ho] at hstep
      simp only [visible, ho]
      split at hstep
      · rename_i htop
        exact Option.some.inj hstep ▸ follows_win h ho htop
      · rename_i htop
        exact Option.some.inj hstep ▸ follows_lose h ho htop
  | restoring b result =>
      simp only [ho, Option.some.injEq] at hstep
      simp only [visible, ho]
      exact hstep ▸ follows_restoring ho

/-! ### Steps of a thief -/

/-- A thief moves on. -/
lemma progress_setThief (s : ChaseLevDeque α) (k : ℕ) (p : Thief α) :
    (s.setThief k p).progress = Function.update s.progress (.thief k) p.progress := by
  funext j
  cases j with
  | owner =>
      rw [Function.update_of_ne (by simp)]
      rfl
  | thief j =>
      rcases eq_or_ne j k with rfl | hne
      · rw [Function.update_self]
        exact congrArg Thief.progress (Function.update_self _ _ _)
      · rw [Function.update_of_ne (by simpa using hne)]
        exact congrArg Thief.progress (Function.update_of_ne hne _ _)

/-- A step of a thief that is neither seen nor takes effect. -/
lemma follows_setThief {k : ℕ} {p : Thief α} (hp : p.progress = (s.thieves k).progress) :
    Follows (object α) s.atomic [] (s.setThief k p).atomic := by
  have heq : (s.setThief k p).atomic = s.atomic := by
    rw [atomic, atomic, progress_setThief, hp]
    exact congrArg _ (Function.update_eq_self (Thread.thief k) s.progress)
  rw [heq]
  exact .refl _

/-- `steal` returns nothing. -/
lemma follows_stealNothing {k : ℕ} {x : ℤ} (hk : (s.thieves k).progress = .called .steal x)
    (h : s.items.length ≤ 1 ∨ x < s.top) :
    Follows (object α) s.atomic [.return (.thief k) none] (s.setThief k .idle).atomic :=
  .effect_return (s := s.atomic) hk (.stealNothing s.items s.top x h) (progress_setThief s k .idle)

/-- `steal` takes the element at the front by its compare-exchange. -/
lemma follows_steal (h : s.Sound) {k : ℕ} {x : ℤ} (hk : (s.thieves k).progress = .called .steal x)
    (hclaim : s.Claimable) {value : α} (hvalue : value = s.current.load s.top) :
    Follows (object α) s.atomic [.return (.thief k) (some value)]
      ({ s.setThief k .idle with top := s.top + 1 }.return? (some value)).atomic := by
  have hs : s.items = value :: window s.current.load (s.top + 1) (s.owner.cut s.bottom) := by
    rw [items, window_cons (h.owner.top_lt_cut hclaim), hvalue]
  refine .effect_return (s := s.atomic) hk ?_ (progress_setThief s k .idle)
  rw [atomic, hs]
  exact .steal _ _ _ _

lemma follows_thiefStep (h : s.Sound) (k : ℕ) :
    Follows (object α) s.atomic (s.visible (.thief k)) (s.thiefStep k).atomic := by
  have hfits := h.thieves k
  rw [ChaseLevDeque.thiefStep]
  cases hp : s.thieves k with
  | idle =>
      simp only [visible, hp]
      exact .call (s := s.atomic) .steal (congrArg Thief.progress hp) rfl
        (progress_setThief s k (.topLoaded s.top))
  | topLoaded x =>
      rw [hp] at hfits
      have hx : x ≤ s.top := hfits
      have hk : (s.thieves k).progress = .called .steal x := congrArg Thief.progress hp
      simp only [visible, hp]
      split
      · exact follows_setThief hk.symm
      · rename_i hge
        refine follows_stealNothing hk ?_
        rcases hx.lt_or_eq with hlt | rfl
        · exact .inr hlt
        · have hcut := h.owner.cut_le
          refine .inl ?_
          rw [items, window, List.length_map, List.length_range]
          omega
  | inRange x =>
      simp only [visible, hp]
      exact follows_setThief (congrArg Thief.progress hp).symm
  | bufferLoaded x buf =>
      simp only [visible, hp]
      exact follows_setThief (congrArg Thief.progress hp).symm
  | valueLoaded x value =>
      rw [hp] at hfits
      obtain ⟨hx, hclaim, hvalue⟩ := hfits
      have hk : (s.thieves k).progress = .called .steal x := congrArg Thief.progress hp
      simp only [visible, hp]
      split
      · rename_i htop
        exact htop ▸ follows_steal h hk (hclaim htop.symm) (htop ▸ hvalue htop.symm)
      · rename_i htop
        exact follows_stealNothing hk (.inr (by omega))

/-! ### Runs -/

lemma follows_step [Inhabited α] (h : s.Sound) {l : Label α} (hstep : s.step l = some t) :
    Follows (object α) s.atomic (s.visible l) t.atomic := by
  cases l with
  | push value =>
      cases ho : s.owner <;> simp only [ChaseLevDeque.step, ho, reduceCtorEq,
        Option.some.injEq] at hstep
      have hk : s.atomic.threads .owner = .idle := congrArg (Owner.progress s.buffers) ho
      subst hstep
      have hs : s.items = window s.current.load s.top s.bottom :=
        items_of_not_lowers (by rw [ho]; rfl)
      refine .call (s := s.atomic) (.push value) hk ?_ (progress_owner rfl rfl)
      rw [atomic, atomic, hs]
      rfl
  | pop =>
      cases ho : s.owner <;> simp only [ChaseLevDeque.step, ho, reduceCtorEq,
        Option.some.injEq] at hstep
      have hk : s.atomic.threads .owner = .idle := congrArg (Owner.progress s.buffers) ho
      subst hstep
      have hs : s.items = window s.current.load s.top s.bottom :=
        items_of_not_lowers (by rw [ho]; rfl)
      refine .call (s := s.atomic) .pop hk ?_ (progress_owner rfl rfl)
      rw [atomic, atomic, hs]
      rfl
  | owner => exact follows_ownerStep h hstep
  | thief k =>
      obtain rfl := Option.some.inj hstep
      exact follows_thiefStep h k

lemma atomic_new [Inhabited α] {cap : ℕ} (hcap : ∃ k, cap = 2 ^ k) :
    (new cap hcap : ChaseLevDeque α).atomic = .start {} := by
  have hitems : (new cap hcap : ChaseLevDeque α).items = [] := window_eq_nil le_rfl
  have hprogress : (new cap hcap : ChaseLevDeque α).progress = fun _ => .idle := by
    funext k
    cases k <;> rfl
  rw [atomic, hitems, hprogress]
  rfl

/-- **Linearizability of the deque**: however an owner and any number of thieves interleave, their
calls return as if each operation had been performed at one moment between call and return on one
list, which, between operations, is what the deque holds. -/
theorem linearizable [Inhabited α] (cap : ℕ) (hcap : ∃ k, cap = 2 ^ k) (labels : List (Label α))
    (s : ChaseLevDeque α) (hrun : run step (new cap hcap) labels = some s) :
    Follows (object α) (.start {}) (history (new cap hcap) labels) s.atomic ∧
      (s.Quiescent → s.atomic.state.items = s.contents) := by
  refine ⟨?_, fun hq => items_of_not_lowers (Owner.lowers_of_isIdle hq.1)⟩
  rw [← atomic_new hcap]
  exact follows_of_simulation (P := Sound)
    (fun _ _ _ hs hstep => ⟨follows_step hs hstep, hs.step hstep⟩) (Sound.init hcap) hrun

/-- The only element is stolen while a `pop` has lowered `bottom_` onto it. -/
def racingLabels : List (Label ℕ) :=
  [.push 7, .owner, .owner, .owner, .owner, .owner, .thief 0, .thief 0, .pop, .owner, .owner,
    .owner, .thief 0, .thief 0, .owner, .owner, .thief 0, .owner, .owner]

/-- The thief gets the last element, and the owner nothing. -/
theorem linearizable_racing :
    ∃ s, run step (new 2 ⟨1, rfl⟩) racingLabels = some s ∧
      Follows (object ℕ) (.start {}) (history (new 2 ⟨1, rfl⟩) racingLabels) s.atomic ∧
      history (new 2 ⟨1, rfl⟩) racingLabels =
        [.call .owner (.push 7), .return .owner none, .call (.thief 0) .steal, .call .owner .pop,
          .return (.thief 0) (some 7), .return .owner none] := by
  have hrun : run step (new 2 ⟨1, rfl⟩) racingLabels =
      some (reached step (new 2 ⟨1, rfl⟩) racingLabels) := run_eq_reached (by decide +kernel)
  exact ⟨_, hrun, (linearizable 2 ⟨1, rfl⟩ racingLabels _ hrun).1, by decide +kernel⟩

end ChaseLevDeque

end Agner
