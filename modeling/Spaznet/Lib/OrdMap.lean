import Mathlib.Data.Finset.Card
import Mathlib.Data.List.Basic
import Mathlib.Algebra.Order.Ring.Nat
import Mathlib.Algebra.Order.BigOperators.Group.List

/-!
# Ordered maps with natural-number keys

The functional counterpart of `std::map<uint64_t, T>`: a list of entries with strictly increasing
keys. The order is a field of the structure, so iteration (`entries`) always visits the keys in
ascending order, and `find?`, `insert`, `modify`, `erase`, `filter` and `mapAccum` are specified
through lookups and through the sum of a measure over all entries.
-/

namespace Spaznet

open List

/-- A finite map whose entries are listed by strictly increasing key. -/
structure OrdMap (β : Type u) where
  entries : List (Nat × β)
  sorted : entries.Pairwise (·.1 < ·.1)
  deriving DecidableEq

namespace OrdMap

variable {β : Type u}
variable {l : List (Nat × β)} (g : Nat → β → Nat) {m : OrdMap β} (p : Nat → β → Bool)

/-! ## Operations on sorted entry lists -/

def lookupList (k : Nat) : List (Nat × β) → Option β
  | [] => none
  | e :: t => if e.1 = k then some e.2 else lookupList k t

def insertList (k : Nat) (v : β) : List (Nat × β) → List (Nat × β)
  | [] => [(k, v)]
  | e :: t =>
    if k < e.1 then (k, v) :: e :: t
    else if k = e.1 then (k, v) :: t
    else e :: insertList k v t

def mapAccumList (f : σ → Nat → β → σ × β) : σ → List (Nat × β) → σ × List (Nat × β)
  | s, [] => (s, [])
  | s, e :: t =>
    let (s₁, v) := f s e.1 e.2
    let (s₂, t') := mapAccumList f s₁ t
    (s₂, (e.1, v) :: t')

theorem mem_insertList {e : Nat × β} (h : e ∈ insertList k v l) : e = (k, v) ∨ e ∈ l := by
  induction l with
  | nil => simpa [insertList] using h
  | cons x t ih =>
    unfold insertList at h
    split at h
    · simpa using h
    split at h
    · rcases mem_cons.mp h with h | h
      · exact .inl h
      · exact .inr (mem_cons_of_mem _ h)
    · rcases mem_cons.mp h with h | h
      · exact .inr (h ▸ mem_cons_self)
      · exact (ih h).imp_right (mem_cons_of_mem _)

theorem sorted_insertList (h : l.Pairwise (·.1 < ·.1)) (k : Nat) (v : β) :
    (insertList k v l).Pairwise (·.1 < ·.1) := by
  induction l with
  | nil => simp [insertList]
  | cons x t ih =>
    have hx := pairwise_cons.mp h
    unfold insertList
    split
    · rename_i hlt
      refine pairwise_cons.mpr ⟨fun e he => ?_, h⟩
      rcases mem_cons.mp he with rfl | he
      · exact hlt
      · exact hlt.trans (hx.1 e he)
    · split
      · rename_i heq
        exact pairwise_cons.mpr ⟨fun e he => heq ▸ hx.1 e he, hx.2⟩
      · refine pairwise_cons.mpr ⟨fun e he => ?_, ih hx.2⟩
        rcases mem_insertList he with rfl | he
        · simp only; omega
        · exact hx.1 e he

theorem keys_mapAccumList (f : σ → Nat → β → σ × β) (s : σ) (l : List (Nat × β)) :
    (mapAccumList f s l).2.map (·.1) = l.map (·.1) := by
  induction l generalizing s with
  | nil => rfl
  | cons e t ih => simp [mapAccumList, ih]

theorem sorted_iff_keys :
    l.Pairwise (·.1 < ·.1) ↔ (l.map (·.1)).Pairwise (· < ·) := pairwise_map.symm

theorem lookupList_eq_none : lookupList k l = none ↔ ∀ e ∈ l, e.1 ≠ k := by
  induction l with
  | nil => simp [lookupList]
  | cons x t ih => by_cases h : x.1 = k <;> simp [lookupList, h, ih]

theorem lookupList_eq_some (hl : l.Pairwise (·.1 < ·.1)) :
    lookupList k l = some v ↔ (k, v) ∈ l := by
  induction l with
  | nil => simp [lookupList]
  | cons x t ih =>
    have hx := pairwise_cons.mp hl
    by_cases h : x.1 = k
    · subst h
      simp only [lookupList, if_true, Option.some.injEq, mem_cons]
      refine ⟨fun h => .inl (h ▸ rfl), fun h => ?_⟩
      rcases h with h | h
      · exact h ▸ rfl
      · exact absurd (hx.1 _ h) (Nat.lt_irrefl _)
    · simp only [lookupList, if_neg h, ih hx.2, mem_cons]
      refine ⟨.inr, fun h' => h'.resolve_left ?_⟩
      rintro rfl
      exact h rfl

theorem lookupList_insertList (k : Nat) (v : β) (j : Nat) :
    lookupList j (insertList k v l) = if j = k then some v else lookupList j l := by
  induction l with
  | nil => by_cases h : k = j <;> simp [insertList, lookupList, eq_comm]
  | cons x t ih =>
    by_cases hlt : k < x.1
    · by_cases h : k = j
      · simp [insertList, lookupList, hlt, ← h]
      · simp [insertList, lookupList, hlt, h, Ne.symm h]
    by_cases heq : k = x.1
    · subst heq
      by_cases h : x.1 = j
      · simp [insertList, lookupList, h]
      · simp [insertList, lookupList, h, Ne.symm h]
    · by_cases h : x.1 = j
      · subst h
        simp [insertList, lookupList, hlt, heq, Ne.symm heq]
      · simp [insertList, lookupList, hlt, heq, h, ih]

/-! ## The map operations -/

def empty : OrdMap β := ⟨[], .nil⟩

instance : EmptyCollection (OrdMap β) := ⟨empty⟩

def find? (m : OrdMap β) (k : Nat) : Option β := lookupList k m.entries

/-- `m[k] = v`: a new entry, or a new value for an existing one. -/
def insert (m : OrdMap β) (k : Nat) (v : β) : OrdMap β :=
  ⟨insertList k v m.entries, sorted_insertList m.sorted k v⟩

/-- Insertion that leaves an existing entry alone. -/
def emplace (m : OrdMap β) (k : Nat) (v : β) : OrdMap β :=
  if (m.find? k).isSome then m else m.insert k v

def filter (p : Nat → β → Bool) (m : OrdMap β) : OrdMap β :=
  ⟨m.entries.filter fun e => p e.1 e.2, m.sorted.filter _⟩

def drop (n : Nat) (m : OrdMap β) : OrdMap β :=
  ⟨m.entries.drop n, m.sorted.sublist (drop_sublist _ _)⟩

def erase (m : OrdMap β) (k : Nat) : OrdMap β := m.filter fun j _ => j != k

/-- Visit the entries in key order, threading a state and replacing each value. -/
def mapAccum (f : σ → Nat → β → σ × β) (s : σ) (m : OrdMap β) : σ × OrdMap β :=
  ((mapAccumList f s m.entries).1, ⟨(mapAccumList f s m.entries).2, by
    rw [sorted_iff_keys, keys_mapAccumList]
    exact sorted_iff_keys.mp m.sorted⟩)

def map (f : β → γ) (m : OrdMap β) : OrdMap γ :=
  ⟨m.entries.map fun e => (e.1, f e.2), pairwise_map.2 m.sorted⟩

def modify (m : OrdMap β) (k : Nat) (f : β → β) : OrdMap β :=
  ⟨m.entries.map fun e => if e.1 = k then (e.1, f e.2) else e, by
    rw [pairwise_map]
    refine m.sorted.imp fun {a b} h => ?_
    by_cases ha : a.1 = k <;> by_cases hb : b.1 = k <;> simp [ha, hb] <;> omega⟩

def sum (g : Nat → β → Nat) (m : OrdMap β) : Nat := (m.entries.map fun e => g e.1 e.2).sum

/-! ## Lookups -/

theorem mem_entries :
    (k, v) ∈ m.entries ↔ m.find? k = some v := (lookupList_eq_some m.sorted).symm

theorem find?_eq_none : m.find? k = none ↔ ∀ v, (k, v) ∉ m.entries := by
  rw [find?, lookupList_eq_none]
  exact ⟨fun h v hv => h _ hv rfl, fun h e he hk => h e.2 (hk ▸ he)⟩

section
variable (m : OrdMap β) (k : Nat)

theorem find?_insert (v : β) (j : Nat) :
    (m.insert k v).find? j = if j = k then some v else m.find? j := lookupList_insertList k v j

theorem find?_emplace (v : β) (hk : m.find? k = none) (j : Nat) :
    (m.emplace k v).find? j = if j = k then some v else m.find? j := by
  simp [emplace, hk, find?_insert]

theorem find?_filter : (m.filter p).find? k = (m.find? k).filter (p k) := by
  cases h : m.find? k with
  | none =>
    rw [Option.filter_none, find?_eq_none]
    intro v hv
    exact find?_eq_none.mp h v (mem_of_mem_filter hv)
  | some v =>
    have hv := mem_entries.mpr h
    by_cases hp : p k v
    · rw [Option.filter_some_pos hp, ← mem_entries]
      exact mem_filter.mpr ⟨hv, hp⟩
    rw [Option.filter_some_neg (by simpa using hp), find?_eq_none]
    intro w hw
    obtain ⟨hmem, hpw⟩ := mem_filter.mp hw
    rw [mem_entries, h, Option.some.injEq] at hmem
    exact hp (hmem ▸ hpw)

end

theorem find?_erase (m : OrdMap β) (k j : Nat) :
    (m.erase k).find? j = if j = k then none else m.find? j := by
  rw [erase, find?_filter]
  by_cases h : j = k
  all_goals cases m.find? j <;> simp [h]

theorem mem_insert {e : Nat × β} :
    e ∈ (m.insert k v).entries ↔ e = (k, v) ∨ e ∈ (m.erase k).entries := by
  obtain ⟨j, w⟩ := e
  rw [mem_entries, mem_entries, find?_insert, find?_erase]
  by_cases hj : j = k
  · simp [hj, eq_comm]
  · simp [hj]

theorem find?_modify (m : OrdMap β) (k : Nat) (f : β → β) (j : Nat) :
    (m.modify k f).find? j = if j = k then (m.find? j).map f else m.find? j := by
  obtain ⟨l, hl⟩ := m
  simp only [modify, find?]
  clear hl
  induction l with
  | nil => simp [lookupList]
  | cons e t ih =>
    by_cases hj : e.1 = j
    · by_cases he : e.1 = k
      all_goals simp [lookupList, he, ← hj]
    · by_cases he : e.1 = k
      · simp only [map_cons, lookupList, if_pos he, if_neg hj, ih]
      · simp only [map_cons, lookupList, if_neg he, if_neg hj, ih]

theorem find?_map (f : β → γ) (m : OrdMap β) (k : Nat) :
    (m.map f).find? k = (m.find? k).map f := by
  obtain ⟨l, hl⟩ := m
  simp only [map, find?]
  clear hl
  induction l with
  | nil => rfl
  | cons e t ih => by_cases h : e.1 = k <;> simp [lookupList, h, ih]

theorem nodup_entries (m : OrdMap β) : m.entries.Nodup :=
  m.sorted.imp fun {a b} hlt heq => by simp [heq] at hlt

/-! ## Keys -/

def keysWhere (m : OrdMap β) (p : Nat → β → Bool) : Finset Nat :=
  ((m.filter p).entries.map Prod.fst).toFinset

theorem mem_keysWhere {p : Nat → β → Bool} :
    k ∈ m.keysWhere p ↔ ∃ v, m.find? k = some v ∧ p k v = true := by
  simp only [keysWhere, filter, mem_toFinset, mem_map, mem_filter, Prod.exists,
    exists_and_right, exists_eq_right, mem_entries]

theorem card_keysWhere (m : OrdMap β) (p : Nat → β → Bool) :
    (m.keysWhere p).card = m.entries.countP fun e => p e.1 e.2 := by
  have hnodup : ((m.filter p).entries.map Prod.fst).Nodup :=
    pairwise_map.2 ((m.filter p).sorted.imp Nat.ne_of_lt)
  rw [keysWhere, toFinset_card_of_nodup hnodup, length_map,
    countP_eq_length_filter]
  rfl

theorem length_eq_card (m : OrdMap β) :
    m.entries.length = (m.keysWhere fun _ _ => true).card := by
  rw [card_keysWhere, countP_true]

/-- Maps without a common key whose keys are all in a third one. -/
theorem length_add_length_le {m' : OrdMap γ} {n : OrdMap δ}
    (hdisj : ∀ k v w, m.find? k = some v → m'.find? k = some w → False)
    (hm : ∀ k v, m.find? k = some v → ∃ x, n.find? k = some x)
    (hm' : ∀ k w, m'.find? k = some w → ∃ x, n.find? k = some x) :
    m.entries.length + m'.entries.length ≤ n.entries.length := by
  rw [length_eq_card, length_eq_card, length_eq_card, ← Finset.card_union_of_disjoint]
  · refine Finset.card_le_card fun k hk => ?_
    obtain ⟨x, hx⟩ : ∃ x, n.find? k = some x := by
      obtain hk | hk := Finset.mem_union.mp hk
      · obtain ⟨v, hv, -⟩ := mem_keysWhere.mp hk
        exact hm k v hv
      · obtain ⟨w, hw, -⟩ := mem_keysWhere.mp hk
        exact hm' k w hw
    exact mem_keysWhere.mpr ⟨x, hx, rfl⟩
  · refine Finset.disjoint_left.mpr fun k hk hk' => ?_
    obtain ⟨v, hv, -⟩ := mem_keysWhere.mp hk
    obtain ⟨w, hw, -⟩ := mem_keysWhere.mp hk'
    exact hdisj k v w hv hw

/-! ## Extensionality -/

theorem ext_find? (h : ∀ k, m.find? k = m'.find? k) : m = m' := by
  have hperm : m.entries.Perm m'.entries := by
    refine (perm_ext_iff_of_nodup m.nodup_entries m'.nodup_entries).mpr fun e => ?_
    rw [mem_entries, mem_entries, h]
  have heq : m.entries = m'.entries := hperm.eq_of_pairwise
    (fun a b _ _ hab hba => absurd hab (Nat.not_lt_of_gt hba)) m.sorted m'.sorted
  obtain ⟨l, hl⟩ := m
  subst heq
  rfl

theorem erase_of_find?_none (h : m.find? k = none) : m.erase k = m := by
  refine ext_find? fun j => ?_
  rw [find?_erase]
  split
  next hj => rw [hj, h]
  · rfl

theorem modify_of_find?_none (h : m.find? k = none) (f : β → β) : m.modify k f = m := by
  refine ext_find? fun j => ?_
  rw [find?_modify]
  split
  next hj => rw [hj, h, Option.map_none]
  next => rfl

theorem modify_of_find?_some (h : m.find? k = some v) (f : β → β) :
    (m.modify k fun _ => f v) = m.modify k f := by
  refine ext_find? fun j => ?_
  rw [find?_modify, find?_modify]
  split
  next hj => rw [hj, h, Option.map_some, Option.map_some]
  next => rfl

theorem map_modify_eq_iff (h : m.find? k = some v) :
    (m.modify k fun _ => w).map f = m.map f ↔ f w = f v := by
  constructor
  · intro heq
    have hk := congrArg (find? · k) heq
    simpa [find?_map, find?_modify, h] using hk
  · intro hw
    refine ext_find? fun j => ?_
    rw [find?_map, find?_map, find?_modify]
    split
    next hj => simp [hj, h, hw]
    next => rfl

theorem map_mapAccum {f : σ → Nat → β → σ × β} {g : β → γ} (h : ∀ s k v, g (f s k v).2 = g v)
    (s : σ) (m : OrdMap β) : (m.mapAccum f s).2.map g = m.map g := by
  obtain ⟨l, hl⟩ := m
  simp only [mapAccum, map, mk.injEq]
  clear hl
  induction l generalizing s with
  | nil => rfl
  | cons e t ih =>
    show (e.1, g (f s e.1 e.2).2) :: _ = (e.1, g e.2) :: _
    rw [h, ih]

/-! ## Entries up to order -/

theorem entries_erase_perm {e : Nat × β} (h : e ∈ m.entries) :
    m.entries.Perm (e :: (m.erase e.1).entries) := by
  have hnot : e ∉ (m.erase e.1).entries := fun he => by
    have hne := (mem_filter.mp he).2
    simp at hne
  refine (perm_ext_iff_of_nodup m.nodup_entries
    (nodup_cons.mpr ⟨hnot, (m.erase e.1).nodup_entries⟩)).mpr fun x => ?_
  obtain ⟨k, v⟩ := x
  rw [mem_cons, mem_entries, mem_entries, find?_erase]
  by_cases hk : k = e.1
  · have hfind : m.find? e.1 = some e.2 := mem_entries.mp h
    rw [hk, hfind]
    simp [Prod.ext_iff, eq_comm]
  · rw [if_neg hk]
    simp [Prod.ext_iff, hk]

theorem erase_insert (m : OrdMap β) (k : Nat) (v : β) : (m.insert k v).erase k = m.erase k := by
  refine ext_find? fun j => ?_
  rw [find?_erase, find?_erase, find?_insert]
  split
  · rfl
  · rfl

theorem entries_insert_perm (m : OrdMap β) (k : Nat) (v : β) :
    (m.insert k v).entries.Perm ((k, v) :: (m.erase k).entries) := by
  rw [← erase_insert m k v]
  exact entries_erase_perm (mem_insert.mpr (.inl rfl))

theorem entries_emplace_perm (h : m.find? k = none) (v : β) :
    (m.emplace k v).entries.Perm ((k, v) :: m.entries) := by
  have hperm := m.entries_insert_perm k v
  rw [erase_of_find?_none h] at hperm
  simpa [emplace, h] using hperm

/-! ## Sums -/

theorem sum_insert (m : OrdMap β) (k : Nat) (v : β) :
    sum g (m.insert k v) = g k v + sum g (m.erase k) :=
  ((m.entries_insert_perm k v).map _).sum_nat.trans (sum_cons ..)

theorem sum_erase {e : Nat × β} (h : e ∈ m.entries) : sum g m = g e.1 e.2 + sum g (m.erase e.1) :=
  ((entries_erase_perm h).map _).sum_nat.trans (sum_cons ..)

theorem sum_emplace (h : m.find? k = none) (v : β) : sum g (m.emplace k v) = g k v + sum g m :=
  ((entries_emplace_perm h v).map _).sum_nat.trans (sum_cons ..)

theorem sum_modify (m : OrdMap β) (k : Nat) (f : β → β) (h : m.find? k = some v) :
    sum g (m.modify k f) + g k v = sum g m + g k (f v) := by
  have hmodify : m.modify k f = m.insert k (f v) := ext_find? fun j => by
    rw [find?_modify, find?_insert]
    split
    next hj => rw [hj, h, Option.map_some]
    · rfl
  have herase : sum g m = g k v + sum g (m.erase k) := sum_erase g (mem_entries.mpr h)
  rw [hmodify, sum_insert]
  omega

theorem sum_filter (m : OrdMap β) :
    sum g (m.filter p) + sum g (m.filter fun k v => !p k v) = sum g m := by
  obtain ⟨l, hl⟩ := m
  simp only [sum, filter]
  clear hl
  induction l with
  | nil => rfl
  | cons e t ih => by_cases h : p e.1 e.2 <;> simp [h] <;> omega

theorem sum_le_sum {g g' : Nat → β → Nat} (h : ∀ k v, m.find? k = some v → g k v ≤ g' k v) :
    sum g m ≤ sum g' m := by
  have h' : ∀ e ∈ m.entries, g e.1 e.2 ≤ g' e.1 e.2 := fun e he => h _ _ (mem_entries.mp he)
  exact List.sum_le_sum h'

theorem sum_le_mul {g : Nat → β → Nat} (h : ∀ k v, m.find? k = some v → g k v ≤ n) :
    m.sum g ≤ n * m.entries.length := by
  have h' : ∀ x ∈ m.entries.map (fun e => g e.1 e.2), x ≤ n := by
    intro x hx
    obtain ⟨e, he, rfl⟩ := mem_map.mp hx
    exact h e.1 e.2 (mem_entries.mp he)
  have hsum := sum_le_card_nsmul _ n h'
  rw [length_map] at hsum
  rw [Nat.mul_comm]
  exact hsum

end OrdMap

end Spaznet
