import Mathlib.Algebra.Order.Ring.Nat
import Mathlib.Data.List.TakeWhile
import Mathlib.Data.List.Range

/-!
# Ranges of offsets and slices of a sequence

A range is a pair (offset, length). `Covers` is the union of a list of ranges, `count` how often an
offset occurs in it, and `coveredPrefix` the length of the longest covered initial segment.
`IsSlice xs off ys` says that `ys` stands in `xs` at offset `off`.
-/

namespace Spaznet.Ranges

open List

def Within (r : Nat × Nat) (i : Nat) : Prop := r.1 ≤ i ∧ i < r.1 + r.2
  deriving Decidable

def Covers (rs : List (Nat × Nat)) (i : Nat) : Prop := ∃ r ∈ rs, Within r i
  deriving Decidable

theorem covers_cons : Covers (r :: rs) i ↔ Within r i ∨ Covers rs i := by
  simp [Covers]

def count (rs : List (Nat × Nat)) (i : Nat) : Nat := rs.countP fun r => Within r i

@[simp] theorem count_nil (i : Nat) : count [] i = 0 := rfl

theorem count_cons (r : Nat × Nat) (rs : List (Nat × Nat)) (i : Nat) :
    count (r :: rs) i = (if Within r i then 1 else 0) + count rs i := by
  rw [count, countP_cons, Nat.add_comm]
  simp only [decide_eq_true_eq]
  rfl

theorem count_append (rs rs' : List (Nat × Nat)) (i : Nat) :
    count (rs ++ rs') i = count rs i + count rs' i := countP_append

theorem count_perm (h : rs.Perm rs') (i : Nat) : count rs i = count rs' i := h.countP_eq _

theorem count_pos (h : r ∈ rs) (hi : Within r i) : 0 < count rs i :=
  countP_pos_iff.2 ⟨r, h, decide_eq_true hi⟩

theorem covers_iff_count_pos : Covers rs i ↔ 0 < count rs i := by
  simp [Covers, count]

theorem not_within_zero (off i : Nat) : ¬ Within (off, 0) i := fun h =>
  absurd h.2 (Nat.not_lt_of_ge h.1)

theorem count_cons_zero (off : Nat) (rs : List (Nat × Nat)) (i : Nat) :
    count ((off, 0) :: rs) i = count rs i := by
  rw [count_cons, if_neg (not_within_zero off i), Nat.zero_add]

theorem below_add_within (n k i : Nat) :
    (if i < n then 1 else 0) + (if Within (n, k) i then 1 else 0) = if i < n + k then 1 else 0 := by
  split <;> split <;> split <;> simp only [Within] at * <;> omega

theorem count_split (h : k ≤ n) (rs : List (Nat × Nat)) (i : Nat) :
    count ((off, k) :: (off + k, n - k) :: rs) i = count ((off, n) :: rs) i := by
  rw [count_cons, count_cons, count_cons]
  split <;> split <;> split <;> simp only [Within] at * <;> omega

/-- A range served from the front, the rest kept unless it is empty. -/
theorem count_serve (h : k ≤ n) (rs : List (Nat × Nat)) (i : Nat) :
    count ((off, k) :: if k = n then rs else (off + k, n - k) :: rs) i =
      count ((off, n) :: rs) i := by
  split
  next heq => rw [heq]
  next => exact count_split h rs i

/-- Length of the longest initial segment of `[0, n)` that the ranges cover. -/
def coveredPrefix (n : Nat) (rs : List (Nat × Nat)) : Nat :=
  ((List.range n).takeWhile fun i => Covers rs i).length

theorem takeWhile_range (hk : k ≤ n) (hp : ∀ i < k, p i)
    (hstop : k = n ∨ p k = false) : (List.range n).takeWhile p = List.range k := by
  obtain ⟨m, rfl⟩ := Nat.exists_eq_add_of_le hk
  rw [range_add, takeWhile_append_of_pos (by simpa using hp)]
  cases m with
  | zero => simp
  | succ m =>
    have hpk : p k = false := hstop.resolve_left (by omega)
    simp [hpk]

theorem coveredPrefix_eq (hk : k ≤ n) (hcov : ∀ i < k, Covers rs i)
    (hstop : k = n ∨ ¬ Covers rs k) : coveredPrefix n rs = k := by
  rw [coveredPrefix, takeWhile_range hk (by simpa using hcov) (by simpa using hstop),
    length_range]

theorem coveredPrefix_le (n : Nat) (rs : List (Nat × Nat)) : coveredPrefix n rs ≤ n := by
  have hprefix : ((List.range n).takeWhile fun i => decide (Covers rs i)) <+: List.range n :=
    takeWhile_prefix _
  simpa [coveredPrefix] using hprefix.length_le

theorem lt_coveredPrefix (hk : k < n) (hcov : ∀ i ≤ k, Covers rs i) : k < coveredPrefix n rs := by
  obtain ⟨m, rfl⟩ := Nat.exists_eq_add_of_lt hk
  have hsplit : k + m + 1 = (k + 1) + m := by omega
  rw [coveredPrefix, hsplit, range_add, takeWhile_append_of_pos]
  · rw [length_append, length_range]
    omega
  · intro i hi
    simpa using hcov i (Nat.le_of_lt_succ (mem_range.1 hi))

def IsSlice (xs : List α) (off : Nat) (ys : List α) : Prop :=
  off + ys.length ≤ xs.length ∧ (xs.drop off).take ys.length = ys

instance [DecidableEq α] (xs : List α) (off : Nat) (ys : List α) : Decidable (IsSlice xs off ys) :=
  inferInstanceAs (Decidable (_ ∧ _))

theorem isSlice_iff :
    IsSlice xs off ys ↔ ∃ as bs, xs = as ++ (ys ++ bs) ∧ as.length = off := by
  constructor
  · rintro ⟨hlen, htake⟩
    refine ⟨xs.take off, (xs.drop off).drop ys.length, ?_, ?_⟩
    · have hsplit := take_append_drop ys.length (xs.drop off)
      rw [htake] at hsplit
      rw [hsplit, take_append_drop]
    · rw [length_take]
      omega
  · rintro ⟨as, bs, rfl, rfl⟩
    exact ⟨by simp, by simp⟩

theorem IsSlice.append (h : IsSlice xs off ys) (h' : IsSlice xs (off + ys.length) zs) :
    IsSlice xs off (ys ++ zs) := by
  refine ⟨by simpa [Nat.add_assoc] using h'.1, ?_⟩
  rw [length_append, take_add, h.2, drop_drop, h'.2]

theorem IsSlice.drop (h : IsSlice xs off ys) (hk : k ≤ ys.length) :
    IsSlice xs (off + k) (ys.drop k) := by
  obtain ⟨as, bs, rfl, rfl⟩ := isSlice_iff.1 h
  refine isSlice_iff.2 ⟨as ++ ys.take k, bs, ?_, ?_⟩
  · rw [append_assoc, ← append_assoc (ys.take k), take_append_drop]
  · rw [length_append, length_take, Nat.min_eq_left hk]

theorem IsSlice.take_append (h : IsSlice xs off ys) :
    xs.take off ++ ys = xs.take (off + ys.length) := by
  rw [take_add, h.2]

/-- Chunks that are apart and lie between two offsets hold no more than there is between them. -/
theorem sum_length_le {chunks : List (Nat × List α)} (hle : lo ≤ hi)
    (hapart : chunks.Pairwise (fun c d => c.1 + c.2.length ≤ d.1))
    (hin : ∀ c ∈ chunks, lo ≤ c.1 ∧ c.1 + c.2.length ≤ hi) :
    (chunks.map (·.2.length)).sum ≤ hi - lo := by
  induction chunks generalizing lo with
  | nil => exact Nat.zero_le _
  | cons c rest ih =>
    obtain ⟨hhead, htail⟩ := pairwise_cons.1 hapart
    obtain ⟨hfrom, hto⟩ := hin c mem_cons_self
    have hrest := ih hto htail fun d hd => ⟨hhead d hd, (hin d (mem_cons_of_mem _ hd)).2⟩
    rw [map_cons, sum_cons]
    omega

end Spaznet.Ranges
