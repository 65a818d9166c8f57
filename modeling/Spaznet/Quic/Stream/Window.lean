import Spaznet.Quic.Stream.Basic

/-!
# The receive window of one stream

The read cursor and every buffered chunk stay at or below the high-water mark, whatever is delivered
and read in whatever order.
-/

namespace Spaznet.Quic.Stream

open List Word64

def EndsBy (high : Nat) (chunks : List (Nat × Bytes)) : Prop :=
  ∀ c ∈ chunks, c.1 + c.2.length ≤ high

theorem EndsBy.cons (hc : c.1 + c.2.length ≤ high) (h : EndsBy high chunks) :
    EndsBy high (c :: chunks) := forall_mem_cons.2 ⟨hc, h⟩

theorem EndsBy.tail (h : EndsBy high (c :: chunks)) : EndsBy high chunks :=
  (forall_mem_cons.1 h).2

theorem EndsBy.append (hlo : EndsBy high lo) (hhi : EndsBy high hi) : EndsBy high (lo ++ hi) :=
  forall_mem_append.2 ⟨hlo, hhi⟩

theorem EndsBy.mono (h : EndsBy high chunks) (hle : high ≤ high') : EndsBy high' chunks :=
  fun c hc => (h c hc).trans hle

theorem EndsBy.sublist (h : EndsBy high chunks) (hs : chunks'.Sublist chunks) :
    EndsBy high chunks' :=
  fun c hc => h c (hs.subset hc)

variable {high : Nat} (hhigh : high < 2 ^ 64)
include hhigh

theorem absorb_endsBy (hd : start + data.length ≤ high) (h : EndsBy high chunks) :
    EndsBy high (absorb start data chunks) := by
  induction chunks generalizing data with
  | nil => exact .cons hd h
  | cons next rest ih =>
    have hnext : next.1 + next.2.length ≤ high := h next (by simp)
    unfold absorb
    dsimp only
    rw [add_eq (by omega), add_eq (by omega)]
    split
    next hle =>
      split
      next hlt =>
        refine ih ?_ h.tail
        rw [length_append, length_drop]
        omega
      next => exact ih hd h.tail
    next => exact .cons hd h

theorem emplaceChunk_endsBy (hd : putOff + putData.length ≤ high) (h : EndsBy high chunks) :
    EndsBy high (emplaceChunk putOff putData chunks) := by
  unfold emplaceChunk
  split
  · exact .cons hd h
  next it rest =>
    split
    · exact absorb_endsBy hhigh (h it (by simp)) h.tail
    · exact absorb_endsBy hhigh hd h

theorem insertChunk_endsBy (hd : putOff + putData.length ≤ high) (h : EndsBy high chunks) :
    EndsBy high (insertChunk chunks putOff putData) := by
  have hlo := h.sublist (takeWhile_sublist (p := (·.1 < putOff)))
  have hhi := h.sublist (dropWhile_sublist (p := (·.1 < putOff)))
  unfold insertChunk
  dsimp only
  split
  · exact emplaceChunk_endsBy hhigh hd hhi
  next prev hprev =>
    have hend := hlo prev (mem_of_getLast? hprev)
    rw [add_eq (by omega)]
    split
    next hreach =>
      split
      · exact h
      refine (hlo.sublist (dropLast_sublist _)).append (absorb_endsBy hhigh ?_ hhi)
      rw [length_append, length_drop]
      omega
    · exact hlo.append (emplaceChunk_endsBy hhigh hd hhi)

omit hhigh

/-- The read cursor and the chunks stay below the high-water mark, which stays in the range of
stream offsets. -/
structure Window (s : Stream) : Prop where
  cursor : s.recvReadOffset ≤ s.recvHighWater
  chunks : EndsBy s.recvHighWater s.recvChunks
  high : s.recvHighWater < 2 ^ 62

theorem deliveredChunks_endsBy {s : Stream} (h : EndsBy high s.recvChunks) (hhigh : high < 2 ^ 64)
    (hd : offset + data.length ≤ high) : EndsBy high (s.deliveredChunks offset data) := by
  unfold deliveredChunks
  dsimp only
  split
  · exact h
  next hne =>
    refine insertChunk_endsBy hhigh ?_ h
    have hlen := length_pos_iff.2 hne
    revert hlen
    unfold trimRead
    split
    next hlt =>
      rw [length_drop]
      omega
    next => exact fun _ => hd

theorem recvHighWater_deliver (s : Stream) (offset : Nat) (data : Bytes) (fin : Bool) :
    s.recvHighWater ≤ (s.deliver offset data fin).2.recvHighWater ∧
      (s.deliver offset data fin).2.recvHighWater ≤
        max s.recvHighWater (offset + data.length) := by
  have h := s.delivering offset data fin
  generalize s.deliver offset data fin = r at h ⊢
  cases h with
  | ignored | refused => exact ⟨Nat.le_refl _, Nat.le_max_left _ _⟩
  | accepted =>
    exact ⟨Nat.le_max_left _ _, max_le_max le_rfl (add_le _ _)⟩

theorem Window.deliver {s : Stream} (h : s.Window) (hd : offset + data.length < 2 ^ 62) :
    (s.deliver offset data fin).2.Window := by
  have hdel := s.delivering offset data fin
  generalize s.deliver offset data fin = r at hdel ⊢
  cases hdel with
  | ignored | refused => exact h
  | accepted =>
    have hend : add offset data.length = offset + data.length := add_eq (by omega)
    have hmax : max s.recvHighWater (add offset data.length) < 2 ^ 62 :=
      Nat.max_lt.2 ⟨h.high, hend ▸ hd⟩
    refine ⟨h.cursor.trans (Nat.le_max_left _ _), ?_, hmax⟩
    refine deliveredChunks_endsBy (h.chunks.mono (Nat.le_max_left _ _))
      (hmax.trans (by decide)) ?_
    exact hend ▸ Nat.le_max_right _ _

theorem recvHighWater_resetRecvd (s : Stream) (finalSize appError : Nat) :
    s.recvHighWater ≤ (s.resetRecvd finalSize appError).2.recvHighWater ∧
      (s.resetRecvd finalSize appError).2.recvHighWater ≤ max s.recvHighWater finalSize := by
  have h := s.resetting finalSize appError
  generalize s.resetRecvd finalSize appError = r at h ⊢
  cases h with
  | refused => exact ⟨le_rfl, le_max_left _ _⟩
  | accepted => exact ⟨le_max_left _ _, le_rfl⟩

theorem Window.resetRecvd {s : Stream} (h : s.Window) (hf : finalSize < 2 ^ 62)
    (appError : Nat) : (s.resetRecvd finalSize appError).2.Window := by
  have hreset := s.resetting finalSize appError
  generalize s.resetRecvd finalSize appError = r at hreset ⊢
  cases hreset with
  | refused => exact h
  | accepted =>
    exact ⟨h.cursor.trans (le_max_left _ _), fun _ hc => absurd hc not_mem_nil,
      max_lt h.high hf⟩

theorem recvHighWater_readContiguous (s : Stream) :
    s.readContiguous.2.recvHighWater = s.recvHighWater := by
  have h := s.reading
  generalize s.readContiguous = r at h ⊢
  cases h with
  | hole | empty => rfl
  | drained _ _ heq => exact heq ▸ rfl

theorem Window.readContiguous {s : Stream} (h : s.Window) : s.readContiguous.2.Window := by
  have hread := s.reading
  generalize s.readContiguous = r at hread ⊢
  cases hread with
  | hole => exact h
  | empty => exact { h with }
  | @drained c rest t hc hat heq =>
    subst heq
    have hends := hc ▸ h.chunks
    refine ⟨?_, hends.tail, h.high⟩
    exact (add_le _ _).trans (hat ▸ hends c mem_cons_self)

end Spaznet.Quic.Stream
