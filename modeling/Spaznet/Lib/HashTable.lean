import Mathlib.Data.List.Basic

/-!
# Chained hash tables

The keys of a table are one list, in which those of a bucket stand next to each other. To clear a
table takes its keys and leaves its buckets, so that the order of the next keys depends on how many
the table has held before.
-/

namespace Spaznet

open List

structure HashTable (α : Type u) where
  buckets : Nat := 0
  keys : List α := []

namespace HashTable

variable {α : Type u} (hash : α → Nat) (growth : Nat → Nat)

/-- A key goes in front of its bucket, the first one of a bucket in front of all others. -/
def place (buckets : Nat) (keys : List α) (key : α) : List α :=
  let elsewhere := fun k => decide (hash k % buckets ≠ hash key % buckets)
  if keys.all elsewhere then key :: keys
  else keys.takeWhile elsewhere ++ key :: keys.dropWhile elsewhere

/-- A table that is full is given more buckets, and what it holds is placed anew. -/
def insert (t : HashTable α) (key : α) : HashTable α :=
  if t.keys.length < t.buckets then { t with keys := place hash t.buckets t.keys key }
  else
    let buckets := growth t.buckets
    { buckets, keys := place hash buckets (t.keys.foldl (place hash buckets) []) key }

def fill (buckets : Nat) (keys : List α) : HashTable α :=
  keys.foldl (insert hash growth) { buckets }

theorem place_perm (buckets : Nat) (keys : List α) (key : α) :
    (place hash buckets keys key).Perm (key :: keys) := by
  unfold place
  extract_lets elsewhere
  split
  · exact .refl _
  · refine perm_middle.trans ?_
    rw [takeWhile_append_dropWhile]

theorem foldl_place_perm (buckets : Nat) (keys placed : List α) :
    (keys.foldl (place hash buckets) placed).Perm (placed ++ keys) := by
  induction keys generalizing placed with
  | nil => rw [foldl_nil, append_nil]
  | cons key keys ih =>
    exact (ih _).trans (((place_perm hash buckets placed key).append_right keys).trans
      perm_middle.symm)

theorem insert_perm (t : HashTable α) (key : α) :
    (insert hash growth t key).keys.Perm (key :: t.keys) := by
  unfold insert
  split
  · exact place_perm ..
  · exact (place_perm ..).trans ((foldl_place_perm hash _ t.keys []).cons key)

theorem foldl_insert_perm (keys : List α) (t : HashTable α) :
    (keys.foldl (insert hash growth) t).keys.Perm (t.keys ++ keys) := by
  induction keys generalizing t with
  | nil => rw [foldl_nil, append_nil]
  | cons key keys ih =>
    exact (ih _).trans (((insert_perm hash growth t key).append_right keys).trans perm_middle.symm)

theorem fill_perm (buckets : Nat) (keys : List α) :
    (fill hash growth buckets keys).keys.Perm keys :=
  foldl_insert_perm hash growth keys _

end HashTable

end Spaznet
