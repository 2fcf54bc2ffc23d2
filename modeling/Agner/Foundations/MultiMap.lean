import Mathlib.Data.List.TakeWhile
import Mathlib.Tactic

/-!
Ordered maps that may hold several values for a key, as sorted lists of entries. Values of one
key stay in the order in which they were inserted.

* `Sorts`: the map holds the entries of a list, those of one key in the same order.
* `Sorts.insert`, `Sorts.eraseFirst`: insertion appends to the list; the first entry of the map is
  the first one in the list among those with the least key.
-/

/-- A map from an ordered type of keys in which a key may occur more than once. -/
structure MultiMap (κ β : Type*) [LinearOrder κ] where
  entries : List (κ × β)
  sorted : entries.Pairwise fun a b => a.1 ≤ b.1

namespace MultiMap

variable {κ β : Type*} [LinearOrder κ]

instance : EmptyCollection (MultiMap κ β) := ⟨⟨[], List.Pairwise.nil⟩⟩

/-- The list with an entry added behind those with the same key. -/
def insertEntry (k : κ) (v : β) : List (κ × β) → List (κ × β)
  | [] => [(k, v)]
  | e :: es => if k < e.1 then (k, v) :: e :: es else e :: insertEntry k v es

lemma mem_insertEntry {k : κ} {v : β} {es : List (κ × β)} {x : κ × β} :
    x ∈ insertEntry k v es ↔ x = (k, v) ∨ x ∈ es := by
  induction es with
  | nil => simp [insertEntry]
  | cons e es ih =>
      rw [insertEntry]
      split
      · simp
      · simp [ih, or_left_comm]

lemma sorted_insertEntry {k : κ} {v : β} {es : List (κ × β)}
    (h : es.Pairwise fun a b => a.1 ≤ b.1) :
    (insertEntry k v es).Pairwise fun a b => a.1 ≤ b.1 := by
  induction es with
  | nil => simp [insertEntry]
  | cons e es ih =>
      rw [List.pairwise_cons] at h
      rw [insertEntry]
      split
      · rename_i hlt
        refine List.pairwise_cons.mpr ⟨fun x hx => ?_, List.pairwise_cons.mpr h⟩
        rcases List.mem_cons.mp hx with rfl | hx
        · exact hlt.le
        · exact hlt.le.trans (h.1 x hx)
      · rename_i hle
        refine List.pairwise_cons.mpr ⟨fun x hx => ?_, ih h.2⟩
        rcases mem_insertEntry.mp hx with rfl | hx
        · exact not_lt.mp hle
        · exact h.1 x hx

/-- A further entry. -/
def insert (m : MultiMap κ β) (k : κ) (v : β) : MultiMap κ β :=
  ⟨insertEntry k v m.entries, sorted_insertEntry m.sorted⟩

/-- The map without its first entry. -/
def eraseFirst (m : MultiMap κ β) : MultiMap κ β := ⟨m.entries.tail, m.sorted.tail⟩

/-- The values of the entries at the front that have the key `k`, and the map without them. -/
def detach (m : MultiMap κ β) (k : κ) : List β × MultiMap κ β :=
  ((m.entries.takeWhile fun e => e.1 = k).map Prod.snd,
    ⟨m.entries.dropWhile fun e => e.1 = k, m.sorted.sublist (List.dropWhile_sublist _)⟩)

@[simp] lemma mem_insert {m : MultiMap κ β} {k : κ} {v : β} {x : κ × β} :
    x ∈ (m.insert k v).entries ↔ x = (k, v) ∨ x ∈ m.entries := mem_insertEntry

lemma perm_insertEntry (k : κ) (v : β) (es : List (κ × β)) :
    (insertEntry k v es).Perm ((k, v) :: es) := by
  induction es with
  | nil => exact .refl _
  | cons e es ih =>
      rw [insertEntry]
      split
      · exact .refl _
      · exact (ih.cons e).trans (.swap _ _ _)

lemma perm_insert (m : MultiMap κ β) (k : κ) (v : β) :
    (m.insert k v).entries.Perm ((k, v) :: m.entries) := perm_insertEntry k v m.entries

/-- Detached values and what is left make up the map. -/
lemma detach_eq (m : MultiMap κ β) (k : κ) :
    m.entries = (m.detach k).1.map (fun v => (k, v)) ++ (m.detach k).2.entries := by
  have hkeys : ((m.detach k).1.map fun v => (k, v)) = m.entries.takeWhile fun e => e.1 = k := by
    rw [detach, List.map_map]
    refine (List.map_congr_left fun e he => ?_).trans (List.map_id _)
    have hk : e.1 = k := by simpa using List.mem_takeWhile_imp he
    exact Prod.ext hk.symm rfl
  rw [hkeys]
  exact List.takeWhile_append_dropWhile.symm

/-- The first key is the least. -/
lemma head_le {m : MultiMap κ β} {e x : κ × β} {es : List (κ × β)} (h : m.entries = e :: es)
    (hx : x ∈ m.entries) : e.1 ≤ x.1 := by
  have hsorted := m.sorted
  rw [h] at hx hsorted
  rcases List.mem_cons.mp hx with rfl | hx
  · exact le_rfl
  · exact (List.pairwise_cons.mp hsorted).1 x hx

/-! ### The order of insertion -/

/-- The map holds the entries of the list, those of one key in the same order. -/
def Sorts (m : MultiMap κ β) (l : List (κ × β)) : Prop :=
  ∀ k, m.entries.filter (fun e => e.1 = k) = l.filter (fun e => e.1 = k)

variable {m : MultiMap κ β} {l : List (κ × β)}

lemma Sorts.mem (h : m.Sorts l) {e : κ × β} : e ∈ l ↔ e ∈ m.entries := by
  have hfilter : ∀ es : List (κ × β), e ∈ es ↔ e ∈ es.filter fun x => x.1 = e.1 := fun es => by simp
  rw [hfilter l, hfilter m.entries, h]

lemma Sorts.eq_nil (h : m.Sorts l) (hm : m.entries = []) : l = [] :=
  List.eq_nil_iff_forall_not_mem.mpr fun e he => by
    have hmem := h.mem.mp he
    rw [hm] at hmem
    cases hmem

lemma filter_insertEntry {k x : κ} {v : β} {es : List (κ × β)}
    (h : es.Pairwise fun a b => a.1 ≤ b.1) :
    (insertEntry k v es).filter (fun e => e.1 = x) =
      es.filter (fun e => e.1 = x) ++ if k = x then [(k, v)] else [] := by
  induction es with
  | nil => by_cases hk : k = x <;> simp [insertEntry, hk]
  | cons e es ih =>
      rw [List.pairwise_cons] at h
      rw [insertEntry]
      split
      · rename_i hlt
        by_cases hk : k = x
        · -- no entry with this key follows
          have hnone : (e :: es).filter (fun e => e.1 = x) = [] := by
            refine List.filter_eq_nil_iff.mpr fun y hy => ?_
            have hle : e.1 ≤ y.1 := by
              rcases List.mem_cons.mp hy with rfl | hy
              · exact le_rfl
              · exact h.1 y hy
            simpa using (hk ▸ hlt.trans_le hle).ne'
          rw [List.filter_cons, hnone]
          simp [hk]
        · rw [List.filter_cons]
          simp [hk]
      · by_cases he : e.1 = x <;> simp [he, ih h.2]

lemma Sorts.insert (h : m.Sorts l) (k : κ) (v : β) : (m.insert k v).Sorts (l ++ [(k, v)]) := by
  intro x
  rw [MultiMap.insert, filter_insertEntry m.sorted, h, List.filter_append]
  by_cases hk : k = x <;> simp [hk]

/-- The first entry is the first one in the list among those with the least key. -/
lemma Sorts.eraseFirst {e : κ × β} {es : List (κ × β)} (h : m.Sorts l)
    (hm : m.entries = e :: es) :
    ∃ before after, l = before ++ e :: after ∧ (∀ x ∈ before, e.1 < x.1) ∧
      (∀ x ∈ after, e.1 ≤ x.1) ∧ m.eraseFirst.Sorts (before ++ after) := by
  have hle : ∀ x ∈ l, e.1 ≤ x.1 := fun x hx => head_le hm (h.mem.mp hx)
  have hfirst : l.filter (fun x => x.1 = e.1) = e :: es.filter fun x => x.1 = e.1 := by
    rw [← h, hm]
    simp
  obtain ⟨before, after, rfl, hbefore, -, hafter⟩ := List.filter_eq_cons_iff.mp hfirst
  have hne : ∀ x ∈ before, x.1 ≠ e.1 := fun x hx heq => hbefore x hx (by simpa using heq)
  refine ⟨before, after, rfl, fun x hx => lt_of_le_of_ne (hle x (by simp [hx])) (hne x hx).symm,
    fun x hx => hle x (by simp [hx]), fun k => ?_⟩
  have htail : m.eraseFirst.entries = es := congrArg List.tail hm
  have hk := h k
  rw [hm, List.filter_append, List.filter_cons, List.filter_cons] at hk
  rw [htail, List.filter_append]
  by_cases hek : e.1 = k
  · have hnone : before.filter (fun x => x.1 = k) = [] :=
      List.filter_eq_nil_iff.mpr fun x hx => by simpa [← hek] using hne x hx
    simpa [hek, hnone] using hk
  · simpa [hek] using hk

end MultiMap
