import Agner.Deque.ChaseLev

/-!
The accounts of the work-stealing deque: nothing pushed is lost, and nothing is returned twice.

* `limit`: one past the last element still in the deque. `pop` lowers `bottom_` before it
  knows whether the last element is its own, so until then the limit is one above `bottom_`.
* `Claimable`: a thief may take the element at `top_`. Either it is below `bottom_`, or it is
  the last one and the owner has not taken it without a race.
* `OwnerFits`, `ThiefFits`: what the variables of a thread say about the deque. A thief with an
  old `top_` says nothing: its compare-exchange fails.
* `Sound`: the invariant, with the accounts.
* `deque_accounted`: in every interleaving the returned elements are among the pushed ones,
  each as often as it was pushed at most; between operations the pushed ones are those returned
  and those in the deque; and a `pop` that returns nothing leaves the deque empty.
-/

namespace Agner

open Runs

namespace Owner

variable {α : Type}

/-- No operation of the owner is in progress. -/
def isIdle : Owner α → Bool
  | .idle => true
  | _ => false

/-- `pop` has lowered `bottom_`. -/
def lowers : Owner α → Bool
  | .lowered .. | .loading .. | .contending .. | .restoring .. => true
  | _ => false

/-- One past the last element still in the deque. -/
def limit (bottom : ℤ) : Owner α → ℤ
  | .lowered b _ | .loading b _ _ | .contending b _ _ | .restoring b _ => b + 1
  | _ => bottom

/-- The element that `pop` has won and not yet returned. -/
def inFlight : Owner α → List α
  | .restoring _ result => result.toList
  | _ => []

/-- The owner has lowered `bottom_` onto the element at `top_`, and does not take it but by a
compare-exchange. -/
def Contends (top : ℤ) : Owner α → Prop
  | .lowered b _ => top = b
  | .loading b t _ => t = b ∧ top = b
  | .contending b _ _ => top = b
  | _ => False

/-- What the variables of the owner say about the deque. -/
def Fits (top bottom : ℤ) (buffer : ℕ) (current : CircularBuffer α) : Owner α → Prop
  | .idle | .pushing _ | .popping => True
  | .pushBottom _ b => b = bottom
  | .pushTop _ b t => b = bottom ∧ 0 ≤ t ∧ t ≤ top ∧ b - t ≤ current.capacity
  | .growing _ b t buf i grown =>
      b = bottom ∧ buf = buffer ∧ 0 ≤ t ∧ t ≤ top ∧ b - t ≤ current.capacity ∧
        t ≤ i ∧ i ≤ b ∧ grown.capacity = current.capacity * 2 ∧
        ∀ j, t ≤ j → j < i → grown.load j = current.load j
  | .copying _ b t buf i x grown =>
      b = bottom ∧ buf = buffer ∧ 0 ≤ t ∧ t ≤ top ∧ b - t ≤ current.capacity ∧
        t ≤ i ∧ i < b ∧ grown.capacity = current.capacity * 2 ∧
        (∀ j, t ≤ j → j < i → grown.load j = current.load j) ∧ x = current.load i
  | .storing _ b buf => b = bottom ∧ buf = buffer ∧ b - top < current.capacity
  | .stored value b => b = bottom ∧ b - top < current.capacity ∧ current.load b = value
  | .popBottom b => b = bottom - 1
  | .lowering b buf => b = bottom - 1 ∧ buf = buffer
  | .lowered b buf => b = bottom ∧ buf = buffer
  | .loading b t buf => b = bottom ∧ buf = buffer ∧ t ≤ b ∧ t ≤ top ∧ (t < b → top ≤ b)
  | .contending b t value => b = bottom ∧ t = b ∧ b ≤ top ∧ value = current.load b
  | .restoring b _ => b = bottom ∧ top = b + 1

variable {o : Owner α} {top bottom : ℤ} {buffer : ℕ} {current : CircularBuffer α}

lemma lowers_of_isIdle (h : o.isIdle = true) : o.lowers = false := by
  cases o <;> first | rfl | exact absurd h (by simp [isIdle])

lemma limit_of_not_lowers (h : o.lowers = false) : o.limit bottom = bottom := by
  cases o <;> first | rfl | exact absurd h (by simp [lowers])

lemma inFlight_of_not_lowers (h : o.lowers = false) : o.inFlight = [] := by
  cases o <;> first | rfl | exact absurd h (by simp [lowers])

lemma not_contends_of_not_lowers (h : o.lowers = false) : ¬ o.Contends top := by
  cases o <;> first | exact id | exact absurd h (by simp [lowers])

/-- What a thief may claim is in the deque. -/
lemma Fits.top_lt_limit (h : o.Fits top bottom buffer current)
    (hclaim : top < bottom ∨ o.Contends top) : top < o.limit bottom := by
  cases o <;> simp only [Fits, Contends, limit, or_false] at h hclaim ⊢ <;> omega

/-- A thief takes the element at `top_`. -/
lemma Fits.steal (h : o.Fits top bottom buffer current)
    (hclaim : top < bottom ∨ o.Contends top) : o.Fits (top + 1) bottom buffer current := by
  cases o <;> simp only [Fits, Contends, or_false] at h hclaim ⊢
  case growing =>
    obtain ⟨hb, hbuf, ht, htop, hrest⟩ := h
    exact ⟨hb, hbuf, ht, by omega, hrest⟩
  case copying =>
    obtain ⟨hb, hbuf, ht, htop, hrest⟩ := h
    exact ⟨hb, hbuf, ht, by omega, hrest⟩
  case stored =>
    obtain ⟨hb, hroom, hvalue⟩ := h
    exact ⟨hb, by omega, hvalue⟩
  case contending =>
    obtain ⟨hb, ht, htop, hvalue⟩ := h
    exact ⟨hb, ht, by omega, hvalue⟩
  all_goals omega

end Owner

namespace ChaseLevDeque

variable {α : Type} {s t : ChaseLevDeque α}

/-- A thief may take the element at `top_`. -/
def Claimable (s : ChaseLevDeque α) : Prop := s.top < s.bottom ∨ s.owner.Contends s.top

/-- One past the last element still in the deque. -/
def limit (s : ChaseLevDeque α) : ℤ := s.owner.limit s.bottom

/-- What the variables of a thief say, as long as `top_` is what it was. -/
def ThiefFits (s : ChaseLevDeque α) : Thief α → Prop
  | .idle => True
  | .topLoaded t => t ≤ s.top
  | .inRange t => t ≤ s.top ∧ (t = s.top → s.Claimable)
  | .bufferLoaded t buf =>
      t ≤ s.top ∧ (t = s.top → s.Claimable) ∧ buf ≤ s.buffer ∧
        (t = s.top → (s.buffers buf).load t = s.current.load t)
  | .valueLoaded t value =>
      t ≤ s.top ∧ (t = s.top → s.Claimable) ∧ (t = s.top → value = s.current.load t)

/-- The invariant. -/
structure Sound (s : ChaseLevDeque α) : Prop where
  top_nonneg : 0 ≤ s.top
  top_le : s.top ≤ s.limit
  room : s.limit - s.top ≤ s.current.capacity
  owner : s.owner.Fits s.top s.bottom s.buffer s.current
  thieves : ∀ k, s.ThiefFits (s.thieves k)
  accounted : (s.returned ++ window s.current.load s.top s.limit ++ s.owner.inFlight).Perm
    s.pushed

/-! ### Thieves -/

/-- Once `top_` has moved, a thief under way says nothing. -/
lemma ThiefFits.of_top_lt {p : Thief α} (h : s.ThiefFits p) (htop : s.top < t.top)
    (hbuffer : s.buffer ≤ t.buffer) : t.ThiefFits p := by
  cases p with
  | idle => trivial
  | topLoaded x =>
      have hx : x ≤ s.top := h
      exact hx.trans htop.le
  | inRange x =>
      have hx := h.1
      exact ⟨by omega, fun heq => by omega⟩
  | bufferLoaded x buf =>
      have hx := h.1
      exact ⟨by omega, fun heq => by omega, h.2.2.1.trans hbuffer, fun heq => by omega⟩
  | valueLoaded x value =>
      have hx := h.1
      exact ⟨by omega, fun heq => by omega, fun heq => by omega⟩

/-- Where the element at `top_` can be claimed, it still can be, and it is the same element in
all buffers that a thief may hold. -/
lemma ThiefFits.of_claimable {p : Thief α} (h : s.ThiefFits p) (htop : t.top = s.top)
    (hbuffer : s.buffer ≤ t.buffer) (hclaim : s.Claimable → t.Claimable)
    (hcurrent : s.Claimable → t.current.load s.top = s.current.load s.top)
    (hbuffers : s.Claimable → ∀ buf ≤ s.buffer,
      (s.buffers buf).load s.top = s.current.load s.top →
        (t.buffers buf).load s.top = s.current.load s.top) : t.ThiefFits p := by
  cases p with
  | idle => trivial
  | topLoaded x =>
      have hx : x ≤ s.top := h
      exact hx.trans htop.ge
  | inRange x =>
      obtain ⟨hx, hcl⟩ := h
      exact ⟨hx.trans htop.ge, fun heq => hclaim (hcl (heq.trans htop))⟩
  | bufferLoaded x buf =>
      obtain ⟨hx, hcl, hbuf, hload⟩ := h
      refine ⟨hx.trans htop.ge, fun heq => hclaim (hcl (heq.trans htop)), hbuf.trans hbuffer,
        fun heq => ?_⟩
      obtain rfl : x = s.top := heq.trans htop
      rw [hbuffers (hcl rfl) buf hbuf (hload rfl), hcurrent (hcl rfl)]
  | valueLoaded x value =>
      obtain ⟨hx, hcl, hval⟩ := h
      refine ⟨hx.trans htop.ge, fun heq => hclaim (hcl (heq.trans htop)), fun heq => ?_⟩
      obtain rfl : x = s.top := heq.trans htop
      rw [hval rfl, hcurrent (hcl rfl)]

/-- The buffers and `top_` stay. -/
lemma ThiefFits.of_frame {p : Thief α} (h : s.ThiefFits p) (htop : t.top = s.top)
    (hbuffers : t.buffers = s.buffers) (hbuffer : t.buffer = s.buffer)
    (hclaim : s.Claimable → t.Claimable) : t.ThiefFits p := by
  have hcurrent : t.current = s.current := by rw [current, current, hbuffers, hbuffer]
  refine h.of_claimable htop hbuffer.ge hclaim (fun _ => by rw [hcurrent]) fun _ buf _ heq => ?_
  rw [hbuffers, heq]

/-! ### Thief steps -/

/-- A thief changes its own variables only. -/
lemma Sound.setThief (h : s.Sound) (k : ℕ) {p : Thief α} (hp : s.ThiefFits p) :
    (s.setThief k p).Sound where
  top_nonneg := h.top_nonneg
  top_le := h.top_le
  room := h.room
  owner := h.owner
  thieves x := by
    have hfits : s.ThiefFits ((s.setThief k p).thieves x) := by
      by_cases hx : x = k
      · simpa [ChaseLevDeque.setThief, hx] using hp
      · simpa [ChaseLevDeque.setThief, hx] using h.thieves x
    exact hfits.of_frame rfl rfl rfl id
  accounted := h.accounted

/-- The compare-exchange of a thief takes the first element of the deque. -/
lemma Sound.steal (h : s.Sound) (hclaim : s.Claimable) {value : α}
    (hvalue : value = s.current.load s.top) :
    ({ s with top := s.top + 1 }.return? (some value)).Sound := by
  have hlt : s.top < s.limit := h.owner.top_lt_limit hclaim
  have hroom := h.room
  have hacc := h.accounted
  rw [window_cons hlt, ← hvalue] at hacc
  have hacc' : (s.returned ++ [value] ++ window s.current.load (s.top + 1) s.limit ++
      s.owner.inFlight).Perm s.pushed := by simpa using hacc
  have hroom' : s.limit - (s.top + 1) ≤ s.current.capacity := by omega
  exact ⟨Int.add_nonneg h.top_nonneg zero_le_one, Int.add_one_le_iff.mpr hlt, hroom',
    h.owner.steal hclaim, fun k => (h.thieves k).of_top_lt (Int.lt_succ _) le_rfl, hacc'⟩

lemma Sound.thiefStep (h : s.Sound) (k : ℕ) : (s.thiefStep k).Sound := by
  have hk := h.thieves k
  rw [ChaseLevDeque.thiefStep]
  cases hp : s.thieves k with
  | idle => exact h.setThief k (p := .topLoaded s.top) le_rfl
  | topLoaded x =>
      rw [hp] at hk
      have hx : x ≤ s.top := hk
      dsimp only
      split
      · rename_i hlt
        exact h.setThief k (p := .inRange x) ⟨hx, fun heq => .inl (heq ▸ hlt)⟩
      · exact h.setThief k (p := .idle) trivial
  | inRange x =>
      rw [hp] at hk
      exact h.setThief k (p := .bufferLoaded x s.buffer) ⟨hk.1, hk.2, le_rfl, fun _ => rfl⟩
  | bufferLoaded x buf =>
      rw [hp] at hk
      exact h.setThief k (p := .valueLoaded x ((s.buffers buf).load x)) ⟨hk.1, hk.2.1, hk.2.2.2⟩
  | valueLoaded x value =>
      rw [hp] at hk
      obtain ⟨hx, hclaim, hvalue⟩ := hk
      dsimp only
      split
      · rename_i heq
        subst heq
        exact (h.setThief k (p := .idle) trivial).steal (hclaim rfl) (hvalue rfl)
      · exact h.setThief k (p := .idle) trivial

/-! ### Owner steps -/

/-- The owner changes its own variables only. -/
lemma Sound.setOwner (h : s.Sound) {o : Owner α} (hlimit : o.limit s.bottom = s.limit)
    (hflight : o.inFlight = s.owner.inFlight)
    (hclaim : s.Claimable → s.top < s.bottom ∨ o.Contends s.top)
    (hfits : o.Fits s.top s.bottom s.buffer s.current) : { s with owner := o }.Sound where
  top_nonneg := h.top_nonneg
  top_le := h.top_le.trans hlimit.ge
  room := by
    have hroom := h.room
    rw [← hlimit] at hroom
    exact hroom
  owner := hfits
  thieves k := (h.thieves k).of_frame rfl rfl rfl hclaim
  accounted := by
    have hacc := h.accounted
    rw [← hlimit, ← hflight] at hacc
    exact hacc

/-- So it does before it lowers `bottom_`. -/
lemma Sound.advance (h : s.Sound) {o : Owner α} (hs : s.owner.lowers = false)
    (ho : o.lowers = false) (hfits : o.Fits s.top s.bottom s.buffer s.current) :
    { s with owner := o }.Sound := by
  refine h.setOwner ?_ ?_ (fun hc => ?_) hfits
  · rw [limit, Owner.limit_of_not_lowers hs, Owner.limit_of_not_lowers ho]
  · rw [Owner.inFlight_of_not_lowers hs, Owner.inFlight_of_not_lowers ho]
  · exact .inl (hc.resolve_right (Owner.not_contends_of_not_lowers hs))

lemma Sound.top_le_bottom (h : s.Sound) (hs : s.owner.lowers = false) : s.top ≤ s.bottom := by
  have hle := h.top_le
  rwa [limit, Owner.limit_of_not_lowers hs] at hle

lemma Sound.room_bottom (h : s.Sound) (hs : s.owner.lowers = false) :
    s.bottom - s.top ≤ s.current.capacity := by
  have hroom := h.room
  rwa [limit, Owner.limit_of_not_lowers hs] at hroom

/-- Before the owner lowers `bottom_`, the accounts are those of the contents. -/
lemma Sound.accounted_bottom (h : s.Sound) (hs : s.owner.lowers = false) :
    (s.returned ++ s.contents).Perm s.pushed := by
  have hacc := h.accounted
  rwa [limit, Owner.limit_of_not_lowers hs, Owner.inFlight_of_not_lowers hs,
    List.append_nil] at hacc

/-- A change that leaves the contents alone, outside of `pop`. -/
lemma Sound.of_contents (h : s.Sound) (hs : s.owner.lowers = false) (ht : t.owner.lowers = false)
    (htop : t.top = s.top) (hbottom : t.bottom = s.bottom) (hbuffer : s.buffer ≤ t.buffer)
    (hcap : s.current.capacity ≤ t.current.capacity)
    (hload : ∀ i, s.top ≤ i → i < s.bottom → t.current.load i = s.current.load i)
    (hbuffers : ∀ buf ≤ s.buffer, (s.buffers buf).load s.top = s.current.load s.top →
      (t.buffers buf).load s.top = s.current.load s.top ∨ s.bottom ≤ s.top)
    (hfits : t.owner.Fits t.top t.bottom t.buffer t.current)
    (hthieves : t.thieves = s.thieves) (hpushed : t.pushed = s.pushed)
    (hreturned : t.returned = s.returned) : t.Sound := by
  have hclaim : s.Claimable → s.top < s.bottom := fun hc =>
    hc.resolve_right (Owner.not_contends_of_not_lowers hs)
  have hroom := h.room_bottom hs
  refine ⟨?_, ?_, ?_, hfits, fun k => ?_, ?_⟩
  · rw [htop]
    exact h.top_nonneg
  · rw [limit, Owner.limit_of_not_lowers ht, htop, hbottom]
    exact h.top_le_bottom hs
  · rw [limit, Owner.limit_of_not_lowers ht, htop, hbottom]
    omega
  · rw [hthieves]
    refine (h.thieves k).of_claimable htop hbuffer (fun hc => .inl ?_) (fun hc => ?_)
      fun hc buf hbuf heq => ?_
    · rw [htop, hbottom]
      exact hclaim hc
    · exact hload _ le_rfl (hclaim hc)
    · exact (hbuffers buf hbuf heq).resolve_right (hclaim hc).not_ge
  · rw [limit, Owner.limit_of_not_lowers ht, Owner.inFlight_of_not_lowers ht, List.append_nil,
      hpushed, hreturned, htop, hbottom, window_congr hload]
    exact h.accounted_bottom hs

section Push

variable {value : α} {b x : ℤ}

/-- The test of the capacity. -/
lemma Sound.pushTop [Inhabited α] (h : s.Sound) (ho : s.owner = .pushTop value b x) :
    { s with
      owner :=
        if b - x ≥ (s.current.capacity : ℤ) then
          .growing value b x s.buffer x s.current.doubled
        else .storing value b s.buffer }.Sound := by
  have hs : s.owner.lowers = false := by rw [ho]; rfl
  obtain ⟨hb, hx, htop, hcap⟩ := ho ▸ h.owner
  have hle := h.top_le_bottom hs
  split
  · exact h.advance hs rfl ⟨hb, rfl, hx, htop, hcap, le_rfl, by omega,
      s.current.capacity_doubled, fun j hj hlt => absurd hj (by omega)⟩
  · exact h.advance hs rfl ⟨hb, rfl, by omega⟩

variable {buf : ℕ} {i : ℤ} {grown : CircularBuffer α}

lemma Sound.growing (h : s.Sound) (ho : s.owner = .growing value b x buf i grown) (hi : i < b) :
    { s with owner := .copying value b x buf i ((s.buffers buf).load i) grown }.Sound := by
  have hs : s.owner.lowers = false := by rw [ho]; rfl
  obtain ⟨hb, rfl, hx, htop, hcap, hxi, -, hgrown, hload⟩ := ho ▸ h.owner
  exact h.advance hs rfl ⟨hb, rfl, hx, htop, hcap, hxi, hi, hgrown, hload, rfl⟩

/-- The copied element does not overwrite those copied before. -/
lemma Sound.copying (h : s.Sound) {y : α} (ho : s.owner = .copying value b x buf i y grown) :
    { s with owner := .growing value b x buf (i + 1) (grown.store i y) }.Sound := by
  have hs : s.owner.lowers = false := by rw [ho]; rfl
  obtain ⟨hb, hbuf, hx, htop, hcap, hxi, hi, hgrown, hload, rfl⟩ := ho ▸ h.owner
  refine h.advance hs rfl ⟨hb, hbuf, hx, htop, hcap, by omega, by omega, hgrown, fun j hj hlt => ?_⟩
  by_cases hji : j = i
  · rw [hji, CircularBuffer.load_store_self]
  · rw [grown.load_store_of_lt (by omega) (by omega) (by omega)]
    exact hload j hj (by omega)

/-- The grown buffer holds what is in the deque. -/
lemma Sound.publish (h : s.Sound) (ho : s.owner = .growing value b x buf i grown)
    (hi : ¬ i < b) :
    { s with
      buffers := Function.update s.buffers (s.buffer + 1) grown
      buffer := s.buffer + 1
      owner := .storing value b (s.buffer + 1) }.Sound := by
  have hs : s.owner.lowers = false := by rw [ho]; rfl
  obtain ⟨hb, -, hx, htop, hcap, -, hib, hgrown, hload⟩ := ho ▸ h.owner
  have hcurrent : ({ s with
      buffers := Function.update s.buffers (s.buffer + 1) grown
      buffer := s.buffer + 1
      owner := .storing value b (s.buffer + 1) } : ChaseLevDeque α).current = grown :=
    Function.update_self _ _ _
  have hpos := s.current.capacity_pos
  refine h.of_contents hs rfl rfl rfl (Nat.le_succ _) ?_ ?_ ?_ ⟨hb, rfl, ?_⟩ rfl rfl rfl
  · rw [hcurrent]
    omega
  · intro j hj hlt
    rw [hcurrent]
    exact hload j (by omega) (by omega)
  · intro buf' hbuf' heq
    left
    rw [← heq]
    exact congrArg (fun c : CircularBuffer α => c.load s.top)
      (Function.update_of_ne (Nat.lt_succ_of_le hbuf').ne _ _)
  · change b - s.top < _
    rw [hcurrent]
    omega

/-- The store of `push` does not touch what is in the deque. -/
lemma Sound.storing (h : s.Sound) (ho : s.owner = .storing value b buf) :
    { s with
      buffers := Function.update s.buffers buf ((s.buffers buf).store b value)
      owner := .stored value b }.Sound := by
  have hs : s.owner.lowers = false := by rw [ho]; rfl
  obtain ⟨rfl, rfl, hroom⟩ := ho ▸ h.owner
  have hcurrent : ({ s with
      buffers := Function.update s.buffers s.buffer ((s.buffers s.buffer).store s.bottom value)
      owner := .stored value s.bottom } : ChaseLevDeque α).current =
      s.current.store s.bottom value :=
    Function.update_self _ _ _
  have hkeep : ∀ j, s.top ≤ j → j < s.bottom →
      (s.current.store s.bottom value).load j = s.current.load j := by
    intro j hj hlt
    have hnonneg := h.top_nonneg
    exact s.current.load_store_of_lt (by omega) hlt (by omega)
  refine h.of_contents hs rfl rfl rfl le_rfl ?_ ?_ ?_ ⟨rfl, ?_, ?_⟩ rfl rfl rfl
  · rw [hcurrent, CircularBuffer.capacity_store]
  · intro j hj hlt
    rw [hcurrent]
    exact hkeep j hj hlt
  · intro buf' _ heq
    rcases lt_or_ge s.top s.bottom with hlt | hge
    · left
      by_cases hbuf : buf' = s.buffer
      · subst hbuf
        exact (congrArg (fun c : CircularBuffer α => c.load s.top) hcurrent).trans
          (hkeep s.top le_rfl hlt)
      · rw [← heq]
        exact congrArg (fun c : CircularBuffer α => c.load s.top)
          (Function.update_of_ne hbuf _ _)
    · exact .inr hge
  · rw [hcurrent, CircularBuffer.capacity_store]
    exact hroom
  · rw [hcurrent, CircularBuffer.load_store_self]

/-- The new `bottom_` makes the element visible. -/
lemma Sound.stored (h : s.Sound) (ho : s.owner = .stored value b) :
    { s with bottom := b + 1, owner := .idle, pushed := s.pushed ++ [value] }.Sound := by
  have hs : s.owner.lowers = false := by rw [ho]; rfl
  obtain ⟨rfl, hroom, hvalue⟩ := ho ▸ h.owner
  have hle := h.top_le_bottom hs
  have hacc := h.accounted_bottom hs
  refine ⟨h.top_nonneg, ?_, ?_, trivial, fun k => ?_, ?_⟩
  · exact hle.trans (Int.le_add_one le_rfl)
  · change s.bottom + 1 - s.top ≤ s.current.capacity
    omega
  · refine (h.thieves k).of_frame rfl rfl rfl fun hc => .inl ?_
    exact (hc.resolve_right (Owner.not_contends_of_not_lowers hs)).trans (Int.lt_succ _)
  · change (s.returned ++ window s.current.load s.top (s.bottom + 1) ++ []).Perm _
    rw [window_concat hle, hvalue, List.append_nil, ← List.append_assoc]
    exact hacc.append_right _

end Push

section Pop

variable {b x : ℤ} {buf : ℕ} {value : α}

/-- `bottom_` is lowered: its last element may still be claimed by a thief. -/
lemma Sound.lowering (h : s.Sound) (ho : s.owner = .lowering b buf) :
    { s with bottom := b, owner := .lowered b buf }.Sound := by
  have hs : s.owner.lowers = false := by rw [ho]; rfl
  obtain ⟨rfl, rfl⟩ := ho ▸ h.owner
  have hlimit : s.bottom - 1 + 1 = s.limit := by
    rw [limit, Owner.limit_of_not_lowers hs]
    omega
  refine ⟨h.top_nonneg, ?_, ?_, ⟨rfl, rfl⟩, fun k => ?_, ?_⟩
  · exact h.top_le.trans hlimit.ge
  · have hroom := h.room
    rw [← hlimit] at hroom
    exact hroom
  · refine (h.thieves k).of_frame rfl rfl rfl fun hc => ?_
    have hlt := hc.resolve_right (Owner.not_contends_of_not_lowers hs)
    have hor : s.top < s.bottom - 1 ∨ s.top = s.bottom - 1 := by omega
    exact hor
  · have hacc := h.accounted
    rw [Owner.inFlight_of_not_lowers hs, ← hlimit] at hacc
    exact hacc

/-- `pop` compares `top_` with the lowered `bottom_`. -/
lemma Sound.lowered (h : s.Sound) (ho : s.owner = .lowered b buf) :
    { s with owner := if s.top ≤ b then .loading b s.top buf else .restoring b none }.Sound := by
  obtain ⟨rfl, rfl⟩ := ho ▸ h.owner
  have hle : s.top ≤ s.bottom + 1 := by
    have := h.top_le
    rwa [limit, ho] at this
  split
  · rename_i htop
    refine h.setOwner ?_ ?_ (fun hc => ?_) ⟨rfl, rfl, htop, le_rfl, fun _ => htop⟩
    · rw [limit, ho]
      rfl
    · rw [ho]
      rfl
    · rw [Claimable, ho] at hc
      exact hc.imp_right fun heq => ⟨heq, heq⟩
  · rename_i htop
    refine h.setOwner ?_ ?_ (fun hc => ?_) ⟨rfl, by omega⟩
    · rw [limit, ho]
      rfl
    · rw [ho]
      rfl
    · rw [Claimable, ho] at hc
      have hor : s.top < s.bottom ∨ s.top = s.bottom := hc
      omega

/-- The last element: the owner has to win the compare-exchange. -/
lemma Sound.loading (h : s.Sound) (ho : s.owner = .loading b b buf) :
    { s with owner := .contending b b ((s.buffers buf).load b) }.Sound := by
  obtain ⟨rfl, rfl, -, htop, -⟩ := ho ▸ h.owner
  refine h.setOwner ?_ ?_ (fun hc => ?_) ⟨rfl, rfl, htop, rfl⟩
  · rw [limit, ho]
    rfl
  · rw [ho]
    rfl
  · rw [Claimable, ho] at hc
    exact hc.imp_right And.right

/-- Any other element is the owner's own. -/
lemma Sound.take (h : s.Sound) (ho : s.owner = .loading b x buf) (hx : x ≠ b) :
    ({ s with owner := .idle }.return? (some ((s.buffers buf).load b))).Sound := by
  obtain ⟨rfl, rfl, hxb, -, htop⟩ := ho ▸ h.owner
  have hle : s.top ≤ s.bottom := htop (by omega)
  have hroom := h.room
  have hacc := h.accounted
  rw [limit, ho] at hroom hacc
  have hroom' : s.bottom + 1 - s.top ≤ s.current.capacity := hroom
  have hacc' : (s.returned ++ window s.current.load s.top (s.bottom + 1) ++ []).Perm s.pushed :=
    hacc
  rw [window_concat hle, List.append_nil] at hacc'
  refine ⟨h.top_nonneg, hle, ?_, trivial, fun k => ?_, ?_⟩
  · change s.bottom - s.top ≤ s.current.capacity
    omega
  · refine (h.thieves k).of_frame rfl rfl rfl fun hc => ?_
    rw [Claimable, ho] at hc
    exact .inl (hc.resolve_right fun hcon => hx hcon.1)
  · change (s.returned ++ [s.current.load s.bottom] ++
      window s.current.load s.top s.bottom ++ []).Perm _
    rw [List.append_nil]
    refine List.Perm.trans ?_ hacc'
    rw [List.append_assoc]
    exact List.Perm.append_left _ List.perm_append_comm

/-- The owner wins the last element. -/
lemma Sound.win (h : s.Sound) (ho : s.owner = .contending b x value) (htop : s.top = x) :
    { s with top := x + 1, owner := .restoring b (some value) }.Sound := by
  obtain ⟨rfl, rfl, -, rfl⟩ := ho ▸ h.owner
  have hnonneg := h.top_nonneg
  have hacc := h.accounted
  rw [limit, ho] at hacc
  have hacc' : (s.returned ++ window s.current.load s.top (s.bottom + 1) ++ []).Perm s.pushed :=
    hacc
  refine ⟨?_, le_rfl, ?_, ⟨rfl, rfl⟩, fun k => ?_, ?_⟩
  · change 0 ≤ s.bottom + 1
    omega
  · change s.bottom + 1 - (s.bottom + 1) ≤ (s.current.capacity : ℤ)
    omega
  · exact (h.thieves k).of_top_lt (by rw [htop]; exact Int.lt_succ _) le_rfl
  · change (s.returned ++ window s.current.load (s.bottom + 1) (s.bottom + 1) ++
      [s.current.load s.bottom]).Perm _
    rw [htop, window_concat le_rfl, window_eq_nil le_rfl] at hacc'
    rw [window_eq_nil le_rfl]
    simpa using hacc'

/-- The owner loses the last element to a thief. -/
lemma Sound.lose (h : s.Sound) (ho : s.owner = .contending b x value) (htop : s.top ≠ x) :
    { s with owner := .restoring b none }.Sound := by
  obtain ⟨rfl, rfl, hbtop, -⟩ := ho ▸ h.owner
  have hle : s.top ≤ s.bottom + 1 := by
    have := h.top_le
    rwa [limit, ho] at this
  refine h.setOwner ?_ ?_ (fun hc => ?_) ⟨rfl, by omega⟩
  · rw [limit, ho]
    rfl
  · rw [ho]
    rfl
  · rw [Claimable, ho] at hc
    exact .inl (hc.resolve_right htop)

/-- `bottom_` is set again, and `pop` returns. -/
lemma Sound.restoring (h : s.Sound) {result : Option α} (ho : s.owner = .restoring b result) :
    ({ s with bottom := b + 1, owner := .idle }.return? result).Sound := by
  obtain ⟨rfl, htop⟩ := ho ▸ h.owner
  have hle := h.top_le
  have hroom := h.room
  have hacc := h.accounted
  rw [limit, ho] at hle hroom hacc
  have hacc' : (s.returned ++ window s.current.load s.top (s.bottom + 1) ++
      result.toList).Perm s.pushed := hacc
  refine ⟨h.top_nonneg, hle, hroom, trivial, fun k => ?_, ?_⟩
  · refine (h.thieves k).of_frame rfl rfl rfl fun hc => ?_
    rw [Claimable, ho] at hc
    have hlt : s.top < s.bottom := hc.resolve_right id
    omega
  · change (s.returned ++ result.toList ++
      window s.current.load s.top (s.bottom + 1) ++ []).Perm s.pushed
    rw [window_eq_nil htop.ge] at hacc' ⊢
    simpa using hacc'

end Pop

/-! ### Runs -/

lemma Sound.init [Inhabited α] {cap : ℕ} (hcap : ∃ k, cap = 2 ^ k) :
    (new cap hcap : ChaseLevDeque α).Sound := by
  refine ⟨le_rfl, le_rfl, ?_, trivial, fun _ => trivial, ?_⟩
  · exact Int.natCast_nonneg _
  · exact .refl _

lemma Sound.ownerStep [Inhabited α] (h : s.Sound) (hstep : s.ownerStep = some t) : t.Sound := by
  rw [ChaseLevDeque.ownerStep] at hstep
  cases ho : s.owner with
  | idle => simp [ho] at hstep
  | pushing value =>
      simp only [ho, Option.some.injEq] at hstep
      exact hstep ▸ h.advance (by rw [ho]; rfl) rfl rfl
  | pushBottom value b =>
      simp only [ho, Option.some.injEq] at hstep
      have hs : s.owner.lowers = false := by rw [ho]; rfl
      have hfits := h.owner
      rw [ho] at hfits
      obtain rfl : b = s.bottom := hfits
      exact hstep ▸ h.advance hs rfl ⟨rfl, h.top_nonneg, le_rfl, h.room_bottom hs⟩
  | pushTop value b x =>
      simp only [ho, Option.some.injEq] at hstep
      exact hstep ▸ h.pushTop ho
  | growing value b x buf i grown =>
      simp only [ho] at hstep
      split at hstep
      · rename_i hi
        exact Option.some.inj hstep ▸ h.growing ho hi
      · rename_i hi
        exact Option.some.inj hstep ▸ h.publish ho hi
  | copying value b x buf i y grown =>
      simp only [ho, Option.some.injEq] at hstep
      exact hstep ▸ h.copying ho
  | storing value b buf =>
      simp only [ho, Option.some.injEq] at hstep
      exact hstep ▸ h.storing ho
  | stored value b =>
      simp only [ho, Option.some.injEq] at hstep
      exact hstep ▸ h.stored ho
  | popping =>
      simp only [ho, Option.some.injEq] at hstep
      exact hstep ▸ h.advance (by rw [ho]; rfl) rfl rfl
  | popBottom b =>
      simp only [ho, Option.some.injEq] at hstep
      have hfits := h.owner
      rw [ho] at hfits
      exact hstep ▸ h.advance (by rw [ho]; rfl) rfl ⟨hfits, rfl⟩
  | lowering b buf =>
      simp only [ho, Option.some.injEq] at hstep
      exact hstep ▸ h.lowering ho
  | lowered b buf =>
      simp only [ho, Option.some.injEq] at hstep
      exact hstep ▸ h.lowered ho
  | loading b x buf =>
      simp only [ho] at hstep
      split at hstep
      · -- the last element, for which thieves contend as well
        rename_i hx
        subst hx
        exact Option.some.inj hstep ▸ h.loading ho
      · rename_i hx
        exact Option.some.inj hstep ▸ h.take ho hx
  | contending b x value =>
      simp only [ho] at hstep
      split at hstep
      · rename_i htop
        exact Option.some.inj hstep ▸ h.win ho htop
      · rename_i htop
        exact Option.some.inj hstep ▸ h.lose ho htop
  | restoring b result =>
      simp only [ho, Option.some.injEq] at hstep
      exact hstep ▸ h.restoring ho

/-- Every step keeps the invariant. -/
lemma Sound.step [Inhabited α] (h : s.Sound) {l : Label α} (hstep : s.step l = some t) :
    t.Sound := by
  cases l with
  | push value =>
      cases ho : s.owner <;> simp only [ChaseLevDeque.step, ho, reduceCtorEq,
        Option.some.injEq] at hstep
      exact hstep ▸ h.advance (by rw [ho]; rfl) rfl trivial
  | pop =>
      cases ho : s.owner <;> simp only [ChaseLevDeque.step, ho, reduceCtorEq,
        Option.some.injEq] at hstep
      exact hstep ▸ h.advance (by rw [ho]; rfl) rfl trivial
  | owner => exact h.ownerStep hstep
  | thief k =>
      obtain rfl := Option.some.inj hstep
      exact h.thiefStep k

/-- The returned elements are among the pushed ones. -/
lemma Sound.returned_subperm (h : s.Sound) : s.returned.Subperm s.pushed := by
  have hsub : s.returned.Sublist (s.returned ++
      (window s.current.load s.top s.limit ++ s.owner.inFlight)) :=
    List.sublist_append_left _ _
  rw [← List.append_assoc] at hsub
  exact hsub.subperm.trans h.accounted.subperm

/-- A `pop` that is about to return nothing leaves the deque empty. -/
lemma Sound.empty_of_none [Inhabited α] (h : s.Sound) {b : ℤ}
    (ho : s.owner = .restoring b none) (hstep : s.step .owner = some t) :
    t.owner = .idle ∧ t.top = t.bottom ∧ t.contents = [] := by
  obtain ⟨-, htop⟩ := ho ▸ h.owner
  have ht : s.ownerStep = some t := hstep
  simp only [ChaseLevDeque.ownerStep, ho, Option.some.injEq] at ht
  subst ht
  exact ⟨rfl, htop, window_eq_nil htop.ge⟩

/-- No operation is in progress. -/
def Quiescent (s : ChaseLevDeque α) : Prop :=
  s.owner.isIdle = true ∧ ∀ k, s.thieves k = .idle

/-- **Accounts of the deque**: in every interleaving of an owner and any number of thieves the
returned elements are among the pushed ones, none returned more often than it was pushed;
between operations the pushed elements are those returned and those in the deque; and a `pop`
that returns nothing leaves the deque empty. -/
theorem deque_accounted [Inhabited α] (cap : ℕ) (hcap : ∃ k, cap = 2 ^ k)
    (labels : List (Label α)) (s : ChaseLevDeque α)
    (hrun : run step (new cap hcap) labels = some s) :
    s.returned.Subperm s.pushed ∧ (s.pushed.Nodup → s.returned.Nodup) ∧
      (s.Quiescent → (s.returned ++ s.contents).Perm s.pushed) ∧
      ∀ b t, s.owner = .restoring b none → s.step .owner = some t →
        t.owner = .idle ∧ t.top = t.bottom ∧ t.contents = [] := by
  have h : s.Sound :=
    invariant_of_step (fun _ _ _ hs hst => Sound.step hs hst) (Sound.init hcap) hrun
  refine ⟨h.returned_subperm, fun hnodup => ?_, fun hq => ?_, fun b t ho hst => ?_⟩
  · obtain ⟨l, hperm, hsub⟩ := h.returned_subperm
    exact hperm.nodup_iff.mp (hnodup.sublist hsub)
  · exact h.accounted_bottom (Owner.lowers_of_isIdle hq.1)
  · exact h.empty_of_none ho hst

/-! ### A run -/

/-- The owner does not touch the variables of the thieves. -/
lemma thieves_ownerStep [Inhabited α] (h : s.ownerStep = some t) : t.thieves = s.thieves := by
  rw [ChaseLevDeque.ownerStep] at h
  cases ho : s.owner <;> simp only [ho, reduceCtorEq, Option.some.injEq] at h
  case growing | loading | contending =>
    split at h <;> exact Option.some.inj h ▸ rfl
  all_goals exact h ▸ rfl

/-- A thief that takes no step keeps its variables. -/
lemma thieves_of_run [Inhabited α] {labels : List (Label α)} {k : ℕ}
    (hlabels : labels.all (fun l => match l with | .thief j => j != k | _ => true) = true)
    (hrun : run step s labels = some t) : t.thieves k = s.thieves k := by
  induction labels generalizing s with
  | nil =>
      obtain rfl := Option.some.inj hrun
      rfl
  | cons l labels ih =>
      rw [run_cons, Option.bind_eq_some_iff] at hrun
      obtain ⟨u, hu, hut⟩ := hrun
      rw [List.all_cons, Bool.and_eq_true] at hlabels
      rw [ih hlabels.2 hut]
      cases l with
      | push value | pop =>
          cases ho : s.owner <;> simp only [ChaseLevDeque.step, ho, reduceCtorEq,
            Option.some.injEq] at hu
          exact hu ▸ rfl
      | owner => exact congrFun (thieves_ownerStep hu) k
      | thief j =>
          obtain rfl := Option.some.inj hu
          have hj : k ≠ j := by
            have := hlabels.1
            simp only [bne_iff_ne] at this
            exact this.symm
          rw [ChaseLevDeque.thiefStep]
          cases s.thieves j <;> simp only [ChaseLevDeque.setThief, return?] <;>
            (try split) <;> simp [hj]

/-- Two pushes with a growth, a thief that loses against another one, and a `pop` that finds
the last element stolen. -/
def stealLabels : List (Label ℕ) :=
  [.push 5, .owner, .owner, .owner, .owner, .owner, .thief 0, .push 6, .owner, .owner, .owner,
    .owner, .thief 1, .thief 0, .thief 1, .thief 0, .thief 1, .owner, .owner, .owner, .owner,
    .thief 0, .thief 1, .thief 0, .thief 1, .thief 0, .thief 0, .thief 0, .thief 0, .pop, .owner,
    .owner, .owner, .owner, .owner, .thief 0, .owner, .owner]

/-- Both elements have been returned, and nothing is left. -/
theorem deque_accounted_steals :
    (reached step (new 1 ⟨0, rfl⟩) stealLabels).returned = [5, 6] ∧
      ((reached step (new 1 ⟨0, rfl⟩) stealLabels).returned ++
        (reached step (new 1 ⟨0, rfl⟩) stealLabels).contents).Perm
        (reached step (new 1 ⟨0, rfl⟩) stealLabels).pushed := by
  have hrun : run step (new 1 ⟨0, rfl⟩) stealLabels =
      some (reached step (new 1 ⟨0, rfl⟩) stealLabels) := run_eq_reached (by decide +kernel)
  have hidle : ∀ k, (reached step (new 1 ⟨0, rfl⟩) stealLabels).thieves k = .idle := by
    intro k
    by_cases hk : k < 2
    · interval_cases k <;> decide +kernel
    · have hzero : 0 ≠ k := by omega
      have hone : 1 ≠ k := by omega
      have hkeep := thieves_of_run (k := k)
        (by simp [stealLabels, hzero, hone]) hrun
      rw [hkeep]
      rfl
  have hquiet : (reached step (new 1 ⟨0, rfl⟩) stealLabels).Quiescent :=
    ⟨by decide +kernel, hidle⟩
  exact ⟨by decide +kernel, (deque_accounted 1 ⟨0, rfl⟩ stealLabels _ hrun).2.2.1 hquiet⟩

end ChaseLevDeque

end Agner
