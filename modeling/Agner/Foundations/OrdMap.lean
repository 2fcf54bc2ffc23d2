import Mathlib.Tactic
import Mathlib.Order.Basic

/-!
Finite maps with ordered iteration, the abstract behaviour of a balanced search tree: a list
of key-value pairs with strictly increasing keys, the order in which a traversal visits
them.

* `OrdMap.find?`, `OrdMap.insert`, `OrdMap.erase`, `OrdMap.modify`, `OrdMap.filter`: lookup,
  assignment at a key, removal of a key, in-place update of a stored value, and removal of
  every entry that fails a test.
* `mem_entries_iff`: an entry is in the map exactly when looking its key up gives its value,
  so that lookups and traversals speak about the same thing.
* `find?_insert`, `find?_erase`, `find?_modify`, `find?_filter`: what a lookup sees after
  each operation.
* `pairwise_entries`, `entries_insert_of_forall_lt`: the order of a traversal.
* `values`: the stored values as a multiset, with what each operation does to it.

`Std.ExtTreeMap` has the same operations, but its lemmas say what `toList` is after a filter or a
map only, and not after an insertion, a removal or an update in place. The statements made with
these maps are about the order in which a loop visits what such operations leave, so the
traversal is the representation here.
-/

/-- A finite map whose entries are kept in strictly increasing order of their keys. -/
structure OrdMap (κ : Type*) (β : Type*) [LinearOrder κ] where
  /-- The entries in traversal order. -/
  entries : List (κ × β)
  sorted : entries.Pairwise fun p q => p.1 < q.1

namespace OrdMap

variable {κ β γ : Type*} [LinearOrder κ]

/-- The empty map. -/
def empty : OrdMap κ β := ⟨[], List.Pairwise.nil⟩

instance : EmptyCollection (OrdMap κ β) := ⟨empty⟩

instance : Inhabited (OrdMap κ β) := ⟨empty⟩

instance [DecidableEq β] : DecidableEq (OrdMap κ β) := fun m n =>
  decidable_of_iff (m.entries = n.entries) (by cases m; cases n; simp)

/-- Lookup of a key. -/
def find? (m : OrdMap κ β) (k : κ) : Option β :=
  (m.entries.find? fun p => decide (p.1 = k)).map Prod.snd

/-- Whether a key is present. -/
def contains (m : OrdMap κ β) (k : κ) : Bool := (m.find? k).isSome

/-- The keys in increasing order. -/
def keys (m : OrdMap κ β) : List κ := m.entries.map Prod.fst

/-- Assignment at a key: an existing value is replaced. -/
def insert (m : OrdMap κ β) (k : κ) (v : β) : OrdMap κ β where
  entries := (m.entries.filter fun p => decide (p.1 < k)) ++
    (k, v) :: m.entries.filter fun p => decide (k < p.1)
  sorted := by
    rw [List.pairwise_append, List.pairwise_cons]
    refine ⟨m.sorted.filter _, ⟨?_, m.sorted.filter _⟩, ?_⟩
    · intro p hp
      simpa using (List.mem_filter.mp hp).2
    · intro p hp q hq
      have hpk : p.1 < k := by simpa using (List.mem_filter.mp hp).2
      rcases List.mem_cons.mp hq with rfl | hq'
      · exact hpk
      · exact hpk.trans (by simpa using (List.mem_filter.mp hq').2)

/-- Removal of every entry that fails a test on its key and value. -/
def filter (m : OrdMap κ β) (f : κ → β → Bool) : OrdMap κ β where
  entries := m.entries.filter fun p => f p.1 p.2
  sorted := m.sorted.filter _

/-- Removal of a key. -/
def erase (m : OrdMap κ β) (k : κ) : OrdMap κ β := m.filter fun k' _ => decide (k' ≠ k)

/-- Replacement of every stored value, the keys staying as they are. -/
def map (m : OrdMap κ β) (f : κ → β → γ) : OrdMap κ γ where
  entries := m.entries.map fun p => (p.1, f p.1 p.2)
  sorted := List.pairwise_map.mpr m.sorted

/-- In-place update of the value stored at a key, if there is one. -/
def modify (m : OrdMap κ β) (k : κ) (f : β → β) : OrdMap κ β :=
  m.map fun k' v => if k' = k then f v else v

/-! ### Lookups and entries -/

@[simp] lemma find?_empty (k : κ) : (∅ : OrdMap κ β).find? k = none := rfl

@[simp] lemma entries_empty : (∅ : OrdMap κ β).entries = [] := rfl

/-- An entry is present exactly when the lookup of its key gives its value. -/
lemma mem_entries_iff {m : OrdMap κ β} {k : κ} {v : β} :
    (k, v) ∈ m.entries ↔ m.find? k = some v := by
  obtain ⟨l, hl⟩ := m
  simp only [find?]
  induction l with
  | nil => simp
  | cons p l ih =>
      obtain ⟨hp, hl'⟩ := List.pairwise_cons.mp hl
      by_cases hk : p.1 = k
      · have hnot : (k, v) ∉ l := fun h => absurd (hp _ h) (by simp [hk])
        subst hk
        simp [hnot, Prod.ext_iff, eq_comm]
      · have hne : (k, v) ≠ p := fun h => hk (by rw [← h])
        simpa [hk, hne] using ih hl'

lemma find?_eq_none_iff {m : OrdMap κ β} {k : κ} :
    m.find? k = none ↔ ∀ v, (k, v) ∉ m.entries := by
  simp only [mem_entries_iff]
  cases m.find? k <;> simp

lemma contains_iff {m : OrdMap κ β} {k : κ} :
    m.contains k = true ↔ ∃ v, m.find? k = some v := by
  simp [contains, Option.isSome_iff_exists]

lemma mem_keys_iff {m : OrdMap κ β} {k : κ} : k ∈ m.keys ↔ ∃ v, m.find? k = some v := by
  simp only [keys, List.mem_map, Prod.exists, exists_and_right, exists_eq_right,
    mem_entries_iff]

lemma nodup_keys (m : OrdMap κ β) : m.keys.Nodup :=
  (List.pairwise_map.mpr m.sorted).imp fun h => ne_of_lt h

/-- A relation that follows the order of the keys holds along a traversal. -/
lemma pairwise_entries {m : OrdMap κ β} {R : κ × β → κ × β → Prop}
    (h : ∀ k k' v v', m.find? k = some v → m.find? k' = some v' → k < k' → R (k, v) (k', v')) :
    m.entries.Pairwise R :=
  m.sorted.imp_of_mem fun hp hq hlt =>
    h _ _ _ _ (mem_entries_iff.mp hp) (mem_entries_iff.mp hq) hlt

/-- Two maps with the same lookups are the same. -/
@[ext] lemma ext {m n : OrdMap κ β} (h : ∀ k, m.find? k = n.find? k) : m = n := by
  have hmem : ∀ p, p ∈ m.entries ↔ p ∈ n.entries := fun p => by
    rw [← Prod.mk.eta (p := p), mem_entries_iff, mem_entries_iff, h]
  have hperm : m.entries.Perm n.entries :=
    (List.perm_ext_iff_of_nodup (m.sorted.imp fun hlt heq => by simp [heq] at hlt)
      (n.sorted.imp fun hlt heq => by simp [heq] at hlt)).mpr hmem
  have heq : m.entries = n.entries :=
    hperm.eq_of_pairwise (fun p q _ _ hpq hqp => absurd (hpq.trans hqp) (lt_irrefl _))
      m.sorted n.sorted
  cases m; cases n; simpa using heq

/-! ### What a lookup sees after each operation -/

lemma find?_insert (m : OrdMap κ β) (k k' : κ) (v : β) :
    (m.insert k v).find? k' = if k' = k then some v else m.find? k' := by
  have key : ∀ w, (m.insert k v).find? k' = some w ↔
      (if k' = k then some v else m.find? k') = some w := by
    intro w
    rw [← mem_entries_iff]
    by_cases hk : k' = k
    · simp [insert, hk, eq_comm]
    · rcases lt_or_gt_of_ne hk with hlt | hlt
      · simp [insert, hk, mem_entries_iff, hlt, hlt.le]
      · simp [insert, hk, mem_entries_iff, hlt, hlt.le]
  exact Option.ext key

@[simp] lemma find?_insert_self (m : OrdMap κ β) (k : κ) (v : β) :
    (m.insert k v).find? k = some v := by simp [find?_insert]

/-- A key larger than all others comes last. -/
lemma entries_insert_of_forall_lt {m : OrdMap κ β} {k : κ} (v : β)
    (h : ∀ p ∈ m.entries, p.1 < k) : (m.insert k v).entries = m.entries ++ [(k, v)] := by
  have hbelow : (m.entries.filter fun p => decide (p.1 < k)) = m.entries :=
    List.filter_eq_self.mpr fun p hp => decide_eq_true (h p hp)
  have habove : (m.entries.filter fun p => decide (k < p.1)) = [] :=
    List.filter_eq_nil_iff.mpr fun p hp => by simpa using (h p hp).le
  show _ ++ (k, v) :: _ = _
  rw [hbelow, habove]

lemma find?_filter (m : OrdMap κ β) (f : κ → β → Bool) (k : κ) :
    (m.filter f).find? k = (m.find? k).filter (f k) := by
  refine Option.ext fun w => ?_
  rw [← mem_entries_iff]
  simp [filter, mem_entries_iff, Option.filter_eq_some_iff]

/-- What a filter leaves was there. -/
lemma find?_of_filter {m : OrdMap κ β} {f : κ → β → Bool} {k : κ} {v : β}
    (h : (m.filter f).find? k = some v) : m.find? k = some v := by
  rw [find?_filter] at h
  exact (Option.filter_eq_some_iff.mp h).1

lemma find?_erase (m : OrdMap κ β) (k k' : κ) :
    (m.erase k).find? k' = if k' = k then none else m.find? k' := by
  rw [erase, find?_filter]
  by_cases hk : k' = k
  · simp [hk]
  · cases m.find? k' <;> simp [hk]

@[simp] lemma find?_erase_self (m : OrdMap κ β) (k : κ) : (m.erase k).find? k = none := by
  simp [find?_erase]

lemma find?_map (m : OrdMap κ β) (f : κ → β → γ) (k : κ) :
    (m.map f).find? k = (m.find? k).map (f k) := by
  refine Option.ext fun w => ?_
  rw [← mem_entries_iff]
  simp only [map, List.mem_map, Prod.mk.injEq, Prod.exists, mem_entries_iff,
    Option.map_eq_some_iff]
  constructor
  · rintro ⟨k', v, hv, rfl, rfl⟩
    exact ⟨v, hv, rfl⟩
  · rintro ⟨v, hv, rfl⟩
    exact ⟨k, v, hv, rfl, rfl⟩

lemma find?_modify (m : OrdMap κ β) (k k' : κ) (f : β → β) :
    (m.modify k f).find? k' = if k' = k then (m.find? k').map f else m.find? k' := by
  rw [modify, find?_map]
  by_cases hk : k' = k <;> simp [hk]

lemma contains_insert (m : OrdMap κ β) (k k' : κ) (v : β) :
    (m.insert k v).contains k' = (decide (k' = k) || m.contains k') := by
  by_cases hk : k' = k <;> simp [contains, find?_insert, hk]

lemma contains_erase (m : OrdMap κ β) (k k' : κ) :
    (m.erase k).contains k' = (decide (k' ≠ k) && m.contains k') := by
  by_cases hk : k' = k <;> simp [contains, find?_erase, hk]

@[simp] lemma contains_map (m : OrdMap κ β) (f : κ → β → γ) (k : κ) :
    (m.map f).contains k = m.contains k := by
  simp [contains, find?_map]

@[simp] lemma contains_modify (m : OrdMap κ β) (k k' : κ) (f : β → β) :
    (m.modify k f).contains k' = m.contains k' := contains_map m _ k'

@[simp] lemma keys_map (m : OrdMap κ β) (f : κ → β → γ) : (m.map f).keys = m.keys := by
  simp [keys, map, Function.comp_def]

/-! ### The values, without their keys -/

/-- The stored values with their multiplicities. -/
def values (m : OrdMap κ β) : Multiset β := (m.entries.map Prod.snd : List β)

lemma mem_values {m : OrdMap κ β} {v : β} : v ∈ m.values ↔ ∃ k, m.find? k = some v := by
  simp [values, mem_entries_iff]

lemma values_map (m : OrdMap κ β) (f : β → γ) :
    (m.map fun _ v => f v).values = m.values.map f := by
  simp [values, map, Function.comp_def]

lemma values_filter (m : OrdMap κ β) (p : β → Bool) :
    (m.filter fun _ v => p v).values = m.values.filter fun v => p v = true := by
  rw [values, values, filter, Multiset.filter_coe, List.filter_map]
  simp [Function.comp_def]

/-- A new key adds one value. -/
lemma values_insert {m : OrdMap κ β} {k : κ} (v : β) (h : m.find? k = none) :
    (m.insert k v).values = v ::ₘ m.values := by
  have hnodup : ∀ n : OrdMap κ β, n.entries.Nodup :=
    fun n => n.sorted.imp fun hlt heq => by simp [heq] at hlt
  have hperm : (m.insert k v).entries.Perm ((k, v) :: m.entries) := by
    refine (List.perm_ext_iff_of_nodup (hnodup _) (List.nodup_cons.mpr
      ⟨find?_eq_none_iff.mp h v, hnodup m⟩)).mpr fun p => ?_
    obtain ⟨k', v'⟩ := p
    rw [mem_entries_iff, find?_insert, List.mem_cons, mem_entries_iff, Prod.mk.injEq]
    by_cases hk : k' = k
    · simp [hk, h, eq_comm]
    · simp [hk]
  rw [values, values, Multiset.cons_coe, Multiset.coe_eq_coe]
  exact hperm.map Prod.snd

/-- Removing a key takes its value away. -/
lemma values_erase {m : OrdMap κ β} {k : κ} {v : β} (h : m.find? k = some v) :
    m.values = v ::ₘ (m.erase k).values := by
  have hm : m = (m.erase k).insert k v := by
    refine ext fun k' => ?_
    rw [find?_insert, find?_erase]
    split
    · rename_i hk
      rw [hk, h]
    · rfl
  rw [← values_insert v (find?_erase_self m k), ← hm]

end OrdMap
