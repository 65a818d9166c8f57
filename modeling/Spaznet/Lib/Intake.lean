import Mathlib.Data.List.Basic

/-!
# Incremental readers

A reader takes items off the front of a stream as far as it has arrived. An item that is complete
does not depend on what follows it, so that the items are those of the whole stream, however it was
cut into pieces. A machine that is driven by a reader comes to the same as one that is given the
items.
-/

namespace Spaznet

open List

/-- A reader: `next?` takes an item off what has arrived, and `push` lets more arrive. -/
structure Intake (α : Type u) (ρ : Type v) (ι : Type w) where
  next? : ρ → Option (ι × ρ)
  push : List α → ρ → ρ
  /-- How many items there are at most. -/
  bound : ρ → Nat
  bound_lt : ∀ {r item r'}, next? r = some (item, r') → bound r' < bound r
  push_append : ∀ xs ys r, push (xs ++ ys) r = push ys (push xs r)
  next?_push : ∀ {r item r'} xs, next? r = some (item, r') →
    next? (push xs r) = some (item, push xs r')

namespace Intake

variable {α : Type u} {ρ : Type v} {ι : Type w} (I : Intake α ρ ι)

/-- Up to `fuel` items, and the reader behind them. -/
def takeItems : (fuel : Nat) → ρ → List ι × ρ
  | 0, r => ([], r)
  | fuel + 1, r =>
    match I.next? r with
    | none => ([], r)
    | some (item, r') => (item :: (takeItems fuel r').1, (takeItems fuel r').2)

def items (r : ρ) : List ι := (I.takeItems (I.bound r) r).1

def rest (r : ρ) : ρ := (I.takeItems (I.bound r) r).2

variable {I} {r r' : ρ} {item : ι}

theorem takeItems_of_none (h : I.next? r = none) (fuel : Nat) : I.takeItems fuel r = ([], r) := by
  cases fuel with
  | zero => rfl
  | succ fuel => rw [takeItems, h]

/-- **Induction over the items that have arrived.** -/
theorem induction {motive : ρ → Prop} (r : ρ) (none : ∀ r, I.next? r = none → motive r)
    (some : ∀ r item r', I.next? r = some (item, r') → motive r' → motive r) : motive r := by
  induction hn : I.bound r using Nat.strongRecOn generalizing r with
  | ind n ih =>
    cases hnext : I.next? r with
    | none => exact none r hnext
    | some p => exact some r p.1 p.2 hnext (ih _ (hn ▸ I.bound_lt hnext) p.2 rfl)

/-- Fuel beyond the bound is never used. -/
theorem takeItems_eq (h : I.bound r ≤ fuel) : I.takeItems fuel r = (I.items r, I.rest r) := by
  suffices hany : ∀ fuel fuel', I.bound r ≤ fuel → I.bound r ≤ fuel' →
      I.takeItems fuel r = I.takeItems fuel' r from hany _ _ h (Nat.le_refl _)
  clear h
  induction r using I.induction with
  | none r h =>
    intro fuel fuel' _ _
    rw [takeItems_of_none h, takeItems_of_none h]
  | some r item r' hnext ih =>
    intro fuel fuel' h h'
    have hlt := I.bound_lt hnext
    obtain ⟨fuel, rfl⟩ : ∃ k, fuel = k + 1 := ⟨fuel - 1, by omega⟩
    obtain ⟨fuel', rfl⟩ : ∃ k, fuel' = k + 1 := ⟨fuel' - 1, by omega⟩
    rw [takeItems, takeItems, hnext]
    dsimp only
    rw [ih fuel fuel' (by omega) (by omega)]

theorem items_of_none (h : I.next? r = none) : I.items r = [] := by
  rw [items, takeItems_of_none h]

theorem rest_of_none (h : I.next? r = none) : I.rest r = r := by
  rw [rest, takeItems_of_none h]

section
variable (h : I.next? r = some (item, r'))
include h

theorem takeItems_of_some : I.takeItems (I.bound r) r = (item :: I.items r', I.rest r') := by
  have hlt := I.bound_lt h
  obtain ⟨fuel, hfuel⟩ : ∃ k, I.bound r = k + 1 := ⟨I.bound r - 1, by omega⟩
  rw [hfuel, takeItems, h]
  dsimp only
  rw [takeItems_eq (by omega)]

theorem items_of_some : I.items r = item :: I.items r' := by
  rw [items, takeItems_of_some h]

theorem rest_of_some : I.rest r = I.rest r' := by
  rw [rest, takeItems_of_some h]

end

theorem next?_rest (r : ρ) : I.next? (I.rest r) = none := by
  induction r using I.induction with
  | none r h => rwa [rest_of_none h]
  | some r item r' h ih => rwa [rest_of_some h]

/-- What arrives later is read behind what had arrived before. -/
theorem items_push (xs : List α) (r : ρ) :
    I.items (I.push xs r) = I.items r ++ I.items (I.push xs (I.rest r)) := by
  induction r using I.induction with
  | none r h => rw [items_of_none h, rest_of_none h, nil_append]
  | some r item r' h ih =>
    rw [items_of_some (I.next?_push xs h), items_of_some h, rest_of_some h, ih, cons_append]

theorem rest_push (xs : List α) (r : ρ) : I.rest (I.push xs r) = I.rest (I.push xs (I.rest r)) := by
  induction r using I.induction with
  | none r h => rw [rest_of_none h]
  | some r item r' h ih => rw [rest_of_some (I.next?_push xs h), rest_of_some h, ih]

theorem items_push_append (xs ys : List α) (r : ρ) :
    I.items (I.push (xs ++ ys) r) =
      I.items (I.push xs r) ++ I.items (I.push ys (I.rest (I.push xs r))) := by
  rw [I.push_append, items_push]

theorem rest_push_append (xs ys : List α) (r : ρ) :
    I.rest (I.push (xs ++ ys) r) = I.rest (I.push ys (I.rest (I.push xs r))) := by
  rw [I.push_append, rest_push]

/-! ## Pieces of a stream -/

def itemsOf (I : Intake α ρ ι) : ρ → List (List α) → List ι
  | _, [] => []
  | r, xs :: pieces => I.items (I.push xs r) ++ itemsOf I (I.rest (I.push xs r)) pieces

theorem itemsOf_eq (h : I.next? r = none) (hnil : I.push [] r = r) (pieces : List (List α)) :
    I.itemsOf r pieces = I.items (I.push pieces.flatten r) := by
  suffices hfirst : ∀ (pieces : List (List α)) xs, I.items (I.push xs r) ++
      I.itemsOf (I.rest (I.push xs r)) pieces = I.items (I.push (xs ++ pieces.flatten) r) by
    have hall := hfirst pieces []
    rwa [hnil, items_of_none h, rest_of_none h] at hall
  intro pieces
  induction pieces with
  | nil => intro xs; rw [itemsOf, append_nil, flatten_nil, append_nil]
  | cons ys pieces ih =>
    intro xs
    have hpush : I.push ys (I.push xs r) = I.push (xs ++ ys) r := (I.push_append xs ys r).symm
    have hitems := I.items_push ys (I.push xs r)
    have hrest := I.rest_push ys (I.push xs r)
    rw [hpush] at hitems hrest
    rw [itemsOf, ← append_assoc, ← hitems, ← hrest, ih, flatten_cons, append_assoc]

/-! ## Machines that read -/

/-- A machine with a reader of its own, whose loop takes items until it stops. Where the reader
stands once it has stopped is of no account. -/
structure Driver (I : Intake α ρ ι) (σ : Type x) where
  reader : σ → ρ
  withReader : ρ → σ → σ
  stopped : σ → Bool
  take : σ → ι → σ
  loop : (fuel : Nat) → σ → σ
  reader_withReader : ∀ r s, reader (withReader r s) = r
  withReader_reader : ∀ s, withReader (reader s) s = s
  withReader_withReader : ∀ r r' s, withReader r (withReader r' s) = withReader r s
  stopped_withReader : ∀ r s, stopped (withReader r s) = stopped s
  take_withReader : ∀ r s item, take (withReader r s) item = withReader r (take s item)
  loop_zero : ∀ s, loop 0 s = s
  loop_of_stopped : ∀ fuel {s}, stopped s = true → loop fuel s = s
  loop_of_none : ∀ fuel {s}, I.next? (reader s) = none → loop fuel s = s
  loop_of_some : ∀ fuel {s item r}, stopped s = false → I.next? (reader s) = some (item, r) →
    loop (fuel + 1) s = loop fuel (take (withReader r s) item) ∨
      stopped (take s item) = true ∧ ∃ r', loop (fuel + 1) s = withReader r' (take s item)

namespace Driver

variable {σ : Type x} {I : Intake α ρ ι} (D : Driver I σ)

def give (s : σ) (item : ι) : σ := if D.stopped s then s else D.take s item

/-- The machine has come to `t`, and reads on at `r` unless it has stopped. -/
structure Took (r : ρ) (s t : σ) : Prop where
  like : ∃ r', s = D.withReader r' t
  reads : D.stopped s = false → D.reader s = r

variable {D} {r : ρ} {s t : σ}

theorem Took.stopped_eq (h : D.Took r s t) : D.stopped s = D.stopped t := by
  obtain ⟨r', rfl⟩ := h.like
  exact D.stopped_withReader r' t

theorem Took.refl (s : σ) : D.Took (D.reader s) s s :=
  ⟨⟨D.reader s, (D.withReader_reader s).symm⟩, fun _ => rfl⟩

theorem Took.apply {f : σ → σ} (hf : ∀ r s, f (D.withReader r s) = D.withReader r (f s))
    (hstopped : ∀ s, D.stopped s = true → D.stopped (f s) = true) (h : D.Took r s t) :
    D.Took r (f s) (f t) := by
  obtain ⟨r', rfl⟩ := h.like
  refine ⟨⟨r', hf r' t⟩, fun hgoes => ?_⟩
  have hbefore : D.stopped (D.withReader r' t) = false := by
    cases hwas : D.stopped (D.withReader r' t) with
    | false => rfl
    | true => cases (hstopped _ hwas).symm.trans hgoes
  have hreads := h.reads hbefore
  rw [D.reader_withReader] at hreads
  rw [hf, D.reader_withReader, hreads]

theorem give_withReader (r : ρ) (s : σ) (item : ι) :
    D.give (D.withReader r s) item = D.withReader r (D.give s item) := by
  unfold give
  rw [D.stopped_withReader]
  split
  · rfl
  · exact D.take_withReader r s item

theorem foldl_give_withReader (r : ρ) (s : σ) (items : List ι) :
    items.foldl D.give (D.withReader r s) = D.withReader r (items.foldl D.give s) :=
  foldl_hom (D.withReader r) (give_withReader r)

theorem foldl_give_of_stopped (h : D.stopped s = true) (items : List ι) :
    items.foldl D.give s = s := by
  refine foldl_fixed' (fun item => ?_) items
  rw [give, if_pos h]

/-- The loop takes the items that have arrived. -/
theorem took_loop (h : I.bound (D.reader s) ≤ fuel) :
    D.Took (I.rest (D.reader s)) (D.loop fuel s) ((I.items (D.reader s)).foldl D.give s) := by
  induction fuel generalizing s with
  | zero =>
    have hnone : I.next? (D.reader s) = none := by
      cases hnext : I.next? (D.reader s) with
      | none => rfl
      | some p => exact absurd (I.bound_lt hnext) (by omega)
    rw [D.loop_zero, items_of_none hnone, rest_of_none hnone]
    exact .refl s
  | succ fuel ih =>
    cases hstopped : D.stopped s with
    | true =>
      rw [D.loop_of_stopped _ hstopped, foldl_give_of_stopped hstopped]
      exact ⟨(Took.refl s).like, fun hgoes => nomatch hstopped.symm.trans hgoes⟩
    | false =>
      cases hnext : I.next? (D.reader s) with
      | none =>
        rw [D.loop_of_none _ hnext, items_of_none hnext, rest_of_none hnext]
        exact .refl s
      | some p =>
        obtain ⟨item, r⟩ := p
        have hlt := I.bound_lt hnext
        have hgive : D.give s item = D.take s item := if_neg (Bool.eq_false_iff.mp hstopped)
        rw [items_of_some hnext, rest_of_some hnext, foldl_cons, hgive]
        obtain hround | ⟨hstop, r', hround⟩ := D.loop_of_some fuel hstopped hnext
        · have hih := ih (s := D.withReader r (D.take s item))
            (by rw [D.reader_withReader]; omega)
          rw [D.reader_withReader, foldl_give_withReader] at hih
          rw [hround, D.take_withReader]
          obtain ⟨⟨r', hlike⟩, hreads⟩ := hih
          exact ⟨⟨r', hlike.trans (D.withReader_withReader _ _ _)⟩, hreads⟩
        · rw [hround, foldl_give_of_stopped hstop]
          refine ⟨⟨r', rfl⟩, fun hgoes => ?_⟩
          rw [D.stopped_withReader] at hgoes
          cases hstop.symm.trans hgoes

/-- More has arrived, and the loop runs unless the machine has stopped. -/
theorem Took.feed (h : D.Took r s t) (xs : List α)
    (hstop : D.stopped s = true → ∃ r', s' = D.withReader r' s)
    (hloop : D.stopped s = false → ∃ fuel, I.bound (I.push xs (D.reader s)) ≤ fuel ∧
      s' = D.loop fuel (D.withReader (I.push xs (D.reader s)) s)) :
    D.Took (I.rest (I.push xs r)) s' ((I.items (I.push xs r)).foldl D.give t) := by
  obtain ⟨r', hlike⟩ := h.like
  cases hstopped : D.stopped s with
  | true =>
    obtain ⟨r'', rfl⟩ := hstop hstopped
    rw [foldl_give_of_stopped (h.stopped_eq.symm.trans hstopped)]
    refine ⟨⟨r'', by rw [hlike, D.withReader_withReader]⟩, fun hgoes => ?_⟩
    rw [D.stopped_withReader] at hgoes
    cases hstopped.symm.trans hgoes
  | false =>
    obtain ⟨fuel, hfuel, rfl⟩ := hloop hstopped
    have hreads := h.reads hstopped
    rw [hreads] at hfuel ⊢
    have hbound : I.bound (D.reader (D.withReader (I.push xs r) s)) ≤ fuel := by
      rw [D.reader_withReader]
      exact hfuel
    have hloop := took_loop (D := D) hbound
    rw [D.reader_withReader, foldl_give_withReader] at hloop
    refine ⟨?_, hloop.reads⟩
    obtain ⟨r'', hlike'⟩ := hloop.like
    refine ⟨r'', hlike'.trans ?_⟩
    rw [D.withReader_withReader, hlike, foldl_give_withReader, D.withReader_withReader]

end Driver

end Intake

end Spaznet
