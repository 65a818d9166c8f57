import Spaznet.Quic.Stream.Reassembly

/-!
# A stream that carries a content

The peer sends slices of one content, and the FIN at its end. What is read is an initial segment of
the content, whatever order the frames arrive in, and where the end is reported, it is all of it.
Where a frame is lost at the key of a shorter chunk, bytes are missing, but none is wrong.
-/

namespace Spaznet.Quic.Stream

open Ranges

theorem insertChunk_ok (h : Chunks.Ok S start chunks) (hd : Chunk.Ok S start (putOff, putData)) :
    Chunks.Ok S start (insertChunk chunks putOff putData) := by
  by_cases hkey : ∃ c ∈ chunks, c.1 = putOff
  · obtain ⟨c, hc, rfl⟩ := hkey
    rwa [insertChunk_key h hc]
  · exact (insertChunk_merged h hd fun c hc heq => absurd ⟨c, hc, heq⟩ hkey).ok

theorem deliveredChunks_ok {s : Stream} (h : Chunks.Ok S s.recvReadOffset s.recvChunks)
    (hS : S.length < 2 ^ 64) (hs : IsSlice S offset data) :
    Chunks.Ok S s.recvReadOffset (s.deliveredChunks offset data) := by
  simp only [deliveredChunks, trimRead_eq]
  split
  · exact h
  next hne =>
    rw [List.drop_eq_nil_iff, not_le] at hne
    exact insertChunk_ok h (unread hs hS hne)

theorem finReached_readContiguous {s : Stream} (hfin : s.readContiguous.1.2 = true) :
    s.readContiguous.2.finReached = true := by
  have hread := s.reading
  generalize s.readContiguous = r at hread hfin ⊢
  cases hread with
  | hole => cases hfin
  | empty | drained => exact hfin

/-- The chunks are slices of `S`. The final size is that of `S`, once the FIN has come, unless the
stream was reset before all of it was read. -/
structure Receiving (S : Bytes) (finished : Prop) (s : Stream) : Prop where
  read_le : s.recvReadOffset ≤ S.length
  chunks : Chunks.Ok S s.recvReadOffset s.recvChunks
  final : ∀ n, s.recvFinalSize = some n → n = S.length ∧ finished ∨
    s.recvState = .resetRecvd ∧ s.recvChunks = [] ∧ n ≠ s.recvReadOffset

theorem recvReadOffset_deliver (s : Stream) (offset : Nat) (data : Bytes) (fin : Bool) :
    (s.deliver offset data fin).2.recvReadOffset = s.recvReadOffset := by
  have h := s.delivering offset data fin
  generalize s.deliver offset data fin = r at h ⊢
  cases h <;> rfl

theorem recvReadOffset_resetRecvd (s : Stream) (finalSize appError : Nat) :
    (s.resetRecvd finalSize appError).2.recvReadOffset = s.recvReadOffset := by
  have h := s.resetting finalSize appError
  generalize s.resetRecvd finalSize appError = r at h ⊢
  cases h <;> rfl

namespace Receiving

variable {S : Bytes} {finished finished' : Prop} {s : Stream}

section
variable (h : Receiving S finished s)
include h

theorem mono (himp : finished → finished') : Receiving S finished' s :=
  { h with final := fun n hn => (h.final n hn).imp (fun hl => ⟨hl.1, himp hl.2⟩) fun hr => hr }

theorem deliver (hS : S.length < 2 ^ 64)
    (hs : IsSlice S offset data) (hfin : fin = true → offset + data.length = S.length ∧ finished) :
    Receiving S finished (s.deliver offset data fin).2 := by
  have hdel := s.delivering offset data fin
  generalize s.deliver offset data fin = r at hdel ⊢
  cases hdel with
  | ignored | refused => exact h
  | accepted hreset =>
    refine ⟨h.read_le, deliveredChunks_ok h.chunks hS hs, fun n hn => .inl ?_⟩
    change (if fin then _ else s.recvFinalSize) = some n at hn
    split at hn
    next hfin' =>
      obtain ⟨hend, hfinished⟩ := hfin hfin'
      rw [Word64.add_eq (hend ▸ hS), Option.some.injEq] at hn
      exact ⟨hn ▸ hend, hfinished⟩
    · obtain hleft | ⟨hstate, -⟩ := h.final n hn
      · exact hleft
      · exact absurd (.inl hstate) hreset

/-- A reset at the read cursor comes only when the final size is known. -/
theorem resetRecvd (hknown : finalSize = s.recvReadOffset → s.recvFinalSize ≠ none) :
    Receiving S finished (s.resetRecvd finalSize appError).2 := by
  have hreset := s.resetting finalSize appError
  generalize s.resetRecvd finalSize appError = r at hreset ⊢
  cases hreset with
  | refused => exact h
  | accepted hr =>
    refine ⟨h.read_le, .nil, fun n hn => ?_⟩
    cases hn
    by_cases hcursor : finalSize = s.recvReadOffset
    · obtain ⟨n, hn⟩ := Option.ne_none_iff_exists'.1 (hknown hcursor)
      cases ((not_refuses hr).2 n hn).2 rfl
      obtain hleft | ⟨-, -, hne⟩ := h.final _ hn
      · exact .inl hleft
      · exact absurd hcursor hne
    · exact .inr ⟨rfl, rfl, hcursor⟩

theorem markRead : Receiving S finished s.markRead := by
  refine ⟨h.read_le, h.chunks, fun n hn => ?_⟩
  obtain hleft | ⟨hstate, hnil, hne⟩ := h.final n hn
  · exact .inl hleft
  have hnot : s.finReached = false := by
    unfold finReached
    rw [show s.recvFinalSize = some n from hn]
    simpa using hne
  refine .inr ⟨?_, hnil, hne⟩
  show (if s.finReached then _ else s.recvState) = _
  rw [hnot]
  exact hstate

theorem of_finReached (hfin : s.finReached = true) : s.recvReadOffset = S.length ∧ finished := by
  unfold finReached at hfin
  obtain hleft | ⟨-, -, hne⟩ := h.final _ (by simpa using hfin)
  · exact hleft
  · exact absurd rfl hne

end

structure Reads (S : Bytes) (finished : Prop) (s : Stream) : Prop where
  receiving : Receiving S finished s.readContiguous.2
  bytes : S.take s.recvReadOffset ++ s.readContiguous.1.1 = S.take s.readContiguous.2.recvReadOffset
  ended : s.readContiguous.1.2 = true →
    s.readContiguous.2.recvReadOffset = S.length ∧ finished

/-- **Reading.** -/
theorem readContiguous (h : Receiving S finished s) : Reads S finished s := by
  obtain ⟨hholds, hbytes⟩ := Holds.readContiguous ⟨h.read_le, h.chunks⟩
  have hrec : Receiving S finished s.readContiguous.2 := by
    refine ⟨hholds.read_le, hholds.chunks, ?_⟩
    have hread := s.reading
    generalize s.readContiguous = r at hread ⊢
    cases hread with
    | hole => exact h.final
    | empty => exact h.markRead.final
    | drained hc _ heq =>
      subst heq
      intro n hn
      obtain hleft | ⟨-, hnil, -⟩ := h.final n hn
      · exact .inl hleft
      · cases hc.symm.trans hnil
  exact ⟨hrec, hbytes, fun hfin => hrec.of_finReached (finReached_readContiguous hfin)⟩

end Receiving

end Spaznet.Quic.Stream
