import Spaznet.Http.Parser

/-!
# Growing buffers

The dispatchers parse the bytes they have and parse again when more arrive. No part of the parser
takes back what it said of a shorter buffer: a line, a body or an error that was found in it is
found in every extension, with the same end. What is incomplete in a buffer and found in an
extension ends beyond the buffer.
-/

namespace Spaznet.Http

open Ascii List

def LineResult.extend (more : Bytes) : LineResult → LineResult
  | .line text rest => .line text (rest ++ more)
  | .incomplete => .incomplete
  | .tooLong => .tooLong

inductive ParseResult.Grows (stop : α → Nat) (bound : Nat) (r r' : ParseResult α) : Prop where
  | same (h : r' = r)
  | beyond (h : r = .incomplete) (hlt : ∀ a, r' = .success a → bound < stop a)

theorem ParseResult.Grows.eq (h : Grows stop bound r r') (hr : r ≠ .incomplete) : r' = r := by
  cases h with
  | same h => exact h
  | beyond h => exact absurd h hr

theorem ParseResult.Grows.lt (h : Grows stop bound r r') (hr : r = .incomplete)
    (hr' : r' = .success a) : bound < stop a := by
  cases h with
  | same h => cases hr'.symm.trans (h.trans hr)
  | beyond _ hlt => exact hlt a hr'

theorem ParseResult.Grows.ite [Decidable p] (hpos : p → Grows stop bound r r')
    (hneg : ¬p → Grows stop bound s s') :
    Grows stop bound (if p then r else s) (if p then r' else s') := by
  split
  next hp => exact hpos hp
  next hp => exact hneg hp

theorem length_le_append (buffer more : Bytes) : buffer.length ≤ (buffer ++ more).length := by
  rw [length_append]
  exact Nat.le_add_right ..

/-! ## How much is used -/

theorem skipTrailers_bounds (h : skipTrailers fuel pos buffer = .success stop) :
    pos + 2 ≤ stop ∧ stop ≤ pos + buffer.length := by
  induction fuel generalizing pos buffer with
  | zero => cases h
  | succ fuel ih =>
    match buffer with
    | [] | [_] => cases h
    | b :: b' :: rest =>
      rw [skipTrailers] at h
      split at h
      · cases h
        simp only [length_cons]
        omega
      split at h
      next text tail hline =>
        have hlen := length_takeLine hline
        have hbounds := ih h
        omega
      · cases h
      · cases h

theorem parseChunks_bounds (h : parseChunks fuel pos body buffer = .success (body', stop)) :
    pos + 2 ≤ stop ∧ stop ≤ pos + buffer.length := by
  induction fuel generalizing pos body buffer with
  | zero => cases h
  | succ fuel ih =>
    obtain ⟨text, rest, size, hline, -, hcase⟩ := parseChunks_success h
    have hlen := length_takeLine hline
    obtain ⟨-, -, hskip⟩ | ⟨-, hroom, -, hrest⟩ := hcase
    · have hbounds := skipTrailers_bounds hskip
      omega
    · have hbounds := ih hrest
      rw [length_drop] at hbounds
      omega

theorem scanHeaderEnd_bounds (h : scanHeaderEnd foundCrlf i buffer = some stop) :
    i + 2 ≤ stop ∧ stop ≤ i + buffer.length := by
  fun_induction scanHeaderEnd foundCrlf i buffer with
  | case1 i b b' rest =>
    cases h
    simp only [length_cons]
    omega
  | case2 _ _ _ _ _ _ _ ih | case3 _ _ _ _ _ _ _ ih | case4 _ _ _ _ _ _ _ ih =>
    have hbounds := ih h
    simp only [length_cons] at hbounds ⊢
    omega
  | case5 => cases h

theorem findHeaderEnd_le (h : findHeaderEnd buffer maxBytes = .found stop) :
    stop ≤ buffer.length := by
  unfold findHeaderEnd at h
  split at h
  next hscan =>
    cases h
    have hle := (scanHeaderEnd_bounds hscan).2
    rw [length_take] at hle
    omega
  next hscan =>
    split at h
    · cases h
    · cases h

theorem parseBody_bounds (hstop : stop ≤ buffer.length)
    (h : parseBody buffer stop request = .success (request', consumed)) :
    stop ≤ consumed ∧ consumed ≤ buffer.length := by
  unfold parseBody at h
  split at h
  · split at h
    · cases h
    split at h
    · cases h
    · cases h
      omega
  · split at h
    · split at h
      next body chunkBytes hchunks =>
        cases h
        have hle := (parseChunks_bounds hchunks).2
        rw [length_drop] at hle
        omega
      · cases h
      · cases h
    · cases h
      exact ⟨Nat.le_refl _, hstop⟩

theorem parseRequest_le (h : parseRequest order buffer = .success (request, consumed)) :
    consumed ≤ buffer.length := by
  unfold parseRequest at h
  split at h
  · cases h
  · cases h
  next stop hstop =>
    split at h
    · cases h
    · exact (parseBody_bounds (findHeaderEnd_le hstop) h).2

/-! ## Lines and chunks -/

theorem takeLine_append (scanned : Nat) (buffer more : Bytes) :
    takeLine scanned (buffer ++ more) = (takeLine scanned buffer).extend more ∨
      takeLine scanned buffer = .incomplete ∧ ∀ text rest,
        takeLine scanned (buffer ++ more) = .line text rest → buffer.length < text.length + 2 := by
  induction buffer generalizing scanned with
  | nil => exact .inr ⟨rfl, fun _ _ _ => Nat.succ_pos _⟩
  | cons b tail ih =>
    cases tail with
    | nil => exact .inr ⟨rfl, fun _ _ _ => Nat.succ_lt_succ (Nat.succ_pos _)⟩
    | cons b' tail =>
      rw [cons_append, cons_append, takeLine, takeLine, ← cons_append]
      by_cases hend : b = cr ∧ b' = lf
      · rw [if_pos hend, if_pos hend]
        exact .inl rfl
      rw [if_neg hend, if_neg hend]
      by_cases hlong : scanned > kChunkLineMax
      · rw [if_pos hlong, if_pos hlong]
        exact .inl rfl
      rw [if_neg hlong, if_neg hlong]
      obtain heq | ⟨hinc, hlt⟩ := ih (scanned + 1)
      · rw [heq]
        cases takeLine (scanned + 1) (b' :: tail) with
        | line | incomplete | tooLong => exact .inl rfl
      rw [hinc]
      refine .inr ⟨rfl, fun text rest h => ?_⟩
      split at h
      next hline =>
        cases h
        have hlt := hlt _ _ hline
        simp only [length_cons] at hlt ⊢
        omega
      · cases h
      · cases h

theorem skipTrailers_grows (fuel pos : Nat) (buffer more : Bytes) :
    (skipTrailers fuel pos buffer).Grows id (pos + buffer.length)
      (skipTrailers fuel pos (buffer ++ more)) := by
  induction fuel generalizing pos buffer with
  | zero => exact .same rfl
  | succ fuel ih =>
    have hshort (hlen : buffer.length < 2) (hinc : skipTrailers (fuel + 1) pos buffer = .incomplete) :
        (skipTrailers (fuel + 1) pos buffer).Grows id (pos + buffer.length)
          (skipTrailers (fuel + 1) pos (buffer ++ more)) := by
      refine .beyond hinc fun stop h => ?_
      have hge := (skipTrailers_bounds h).1
      rw [id]
      omega
    obtain _ | ⟨b, _ | ⟨b', rest⟩⟩ := buffer
    · exact hshort Nat.two_pos rfl
    · exact hshort Nat.one_lt_two rfl
    rw [cons_append, cons_append, skipTrailers, skipTrailers, ← cons_append,
      ← cons_append]
    refine .ite (fun _ => .same rfl) fun _ => ?_
    obtain heq | ⟨hinc, hlt⟩ := takeLine_append 0 (b :: b' :: rest) more
    · rw [heq]
      cases hline : takeLine 0 (b :: b' :: rest) with
      | line text tail =>
        have hrest := ih (pos + text.length + 2) tail
        rwa [Nat.add_assoc pos, Nat.add_assoc pos, ← length_takeLine hline] at hrest
      | incomplete | tooLong => exact .same rfl
    · rw [hinc]
      refine .beyond rfl fun stop h => ?_
      split at h
      next hline =>
        have hlt := hlt _ _ hline
        have hge := (skipTrailers_bounds h).1
        rw [id]
        omega
      · cases h
      · cases h

theorem parseChunks_grows (fuel pos : Nat) (body buffer more : Bytes) :
    (parseChunks fuel pos body buffer).Grows Prod.snd (pos + buffer.length)
      (parseChunks fuel pos body (buffer ++ more)) := by
  induction fuel generalizing pos body buffer with
  | zero => exact .same rfl
  | succ fuel ih =>
    obtain heq | ⟨hinc, hlt⟩ := takeLine_append 0 buffer more
    · rw [parseChunks, parseChunks, heq]
      cases hline : takeLine 0 buffer with
      | incomplete | tooLong => exact .same rfl
      | line text rest =>
        have hlen := length_takeLine hline
        dsimp only [LineResult.extend]
        cases parseChunkSize text with
        | none => exact .same rfl
        | some size =>
          dsimp only
          refine .ite (fun _ => .same rfl) fun _ => .ite (fun _ => ?_) fun _ => ?_
          · -- the last chunk
            rw [skipTrailers_fuel le_rfl (length_le_append rest more)]
            obtain heq | ⟨hinc, hlt⟩ := skipTrailers_grows _ (pos + text.length + 2) rest more
            · rw [heq]
              exact .same rfl
            rw [hinc]
            refine .beyond rfl fun x h => ?_
            split at h
            next hskip =>
              cases h
              have hlt := hlt _ hskip
              rw [id] at hlt
              omega
            all_goals cases h
          by_cases hroom : size + 2 > rest.length
          · rw [if_pos hroom]
            refine .beyond rfl fun x h => ?_
            split at h
            · cases h
            split at h
            · cases h
            split at h
            · cases h
            · have hge := (parseChunks_bounds h).1
              omega
          have hle := length_le_append rest more
          have hend : 2 ≤ (rest.drop size).length := by
            rw [length_drop]
            omega
          rw [if_neg hroom, if_neg (show ¬ size + 2 > (rest ++ more).length by omega),
            drop_append_of_le_length (show size ≤ rest.length by omega),
            drop_append_of_le_length (show size + 2 ≤ rest.length by omega),
            take_append_of_le_length (show size ≤ rest.length by omega),
            take_append_of_le_length hend]
          refine .ite (fun _ => .same rfl) fun _ => .ite (fun _ => .same rfl) fun _ => ?_
          have hrest := ih (pos + text.length + 2 + size + 2) (body ++ rest.take size)
            (rest.drop (size + 2))
          rw [length_drop] at hrest
          rwa [show pos + buffer.length =
            pos + text.length + 2 + size + 2 + (rest.length - (size + 2)) by omega]
    · refine .beyond (by rw [parseChunks, hinc]) fun x h => ?_
      obtain ⟨text, rest, size, hline, -, hcase⟩ := parseChunks_success h
      have hlt := hlt _ _ hline
      obtain ⟨-, -, hskip⟩ | ⟨-, -, -, hrest⟩ := hcase
      · have hge := (skipTrailers_bounds hskip).1
        omega
      · have hge := (parseChunks_bounds hrest).1
        omega

theorem parseChunkedBody_grows (buffer more : Bytes) :
    (parseChunkedBody buffer).Grows Prod.snd buffer.length (parseChunkedBody (buffer ++ more)) := by
  have hgrows := parseChunks_grows (buffer ++ more).length 0 [] buffer more
  rwa [Nat.zero_add, ← parseChunks_fuel le_rfl (length_le_append buffer more)] at hgrows

/-! ## The header block -/

theorem scanHeaderEnd_append (foundCrlf : Bool) (i : Nat) (buffer more : Bytes) :
    scanHeaderEnd foundCrlf i (buffer ++ more) = scanHeaderEnd foundCrlf i buffer ∨
      scanHeaderEnd foundCrlf i buffer = none ∧ ∀ stop,
        scanHeaderEnd foundCrlf i (buffer ++ more) = some stop → i + buffer.length < stop := by
  fun_induction scanHeaderEnd foundCrlf i buffer with
  | case1 i b b' rest hcrlf =>
    rw [cons_append, cons_append, scanHeaderEnd, if_pos hcrlf]
    exact .inl rfl
  | case2 foundCrlf i b b' rest hcrlf hfirst ih =>
    rw [cons_append, cons_append, scanHeaderEnd, if_pos hcrlf, if_neg hfirst]
    refine ih.imp_right fun ⟨hnone, hlt⟩ => ⟨hnone, fun stop h => ?_⟩
    have hlt := hlt stop h
    simp only [length_cons]
    omega
  | case3 foundCrlf i b b' rest hmid hother ih =>
    rw [cons_append, cons_append, scanHeaderEnd, if_neg hmid, if_pos hother]
    refine ih.imp_right fun ⟨hnone, hlt⟩ => ⟨hnone, fun stop h => ?_⟩
    have hlt := hlt stop h
    simp only [length_cons] at hlt ⊢
    omega
  | case4 foundCrlf i b b' rest hmid hlone ih =>
    rw [cons_append, cons_append, scanHeaderEnd, if_neg hmid, if_neg hlone]
    refine ih.imp_right fun ⟨hnone, hlt⟩ => ⟨hnone, fun stop h => ?_⟩
    have hlt := hlt stop h
    simp only [length_cons] at hlt ⊢
    omega
  | case5 buffer foundCrlf i hshort =>
    refine .inr ⟨rfl, fun stop h => ?_⟩
    have hge := (scanHeaderEnd_bounds h).1
    obtain _ | ⟨b, _ | ⟨b', rest⟩⟩ := buffer
    · exact Nat.lt_of_lt_of_le (Nat.lt_add_of_pos_right (by decide)) hge
    · exact hge
    · exact absurd rfl (hshort b b' rest)

theorem findHeaderEnd_append (buffer more : Bytes) (maxBytes : Nat) :
    findHeaderEnd (buffer ++ more) maxBytes = findHeaderEnd buffer maxBytes ∨
      findHeaderEnd buffer maxBytes = .incomplete ∧ ∀ stop,
        findHeaderEnd (buffer ++ more) maxBytes = .found stop → buffer.length < stop := by
  have hle := length_le_append buffer more
  unfold findHeaderEnd
  by_cases hlarge : buffer.length ≥ maxBytes
  · -- the scan has reached its limit
    rw [take_append_of_le_length hlarge, if_pos hlarge, if_pos (by omega)]
    exact .inl rfl
  rw [take_append, take_of_length_le (by omega), if_neg hlarge]
  have hscan := scanHeaderEnd_append false 0 buffer (more.take (maxBytes - buffer.length))
  cases hbuffer : scanHeaderEnd false 0 buffer with
  | some stop =>
    rw [(hscan.resolve_right fun h => nomatch h.1.symm.trans hbuffer).trans hbuffer]
    exact .inl rfl
  | none =>
    refine .inr ⟨rfl, fun stop h => ?_⟩
    split at h
    next hfound =>
      cases h
      obtain heq | ⟨-, hlt⟩ := hscan
      · cases hfound.symm.trans (heq.trans hbuffer)
      · rw [← Nat.zero_add buffer.length]
        exact hlt stop hfound
    · split at h
      all_goals cases h

/-! ## The request -/

theorem parseBody_grows (hstop : stop ≤ buffer.length) (request : HTTPRequest) (more : Bytes) :
    (parseBody buffer stop request).Grows Prod.snd buffer.length
      (parseBody (buffer ++ more) stop request) := by
  unfold parseBody
  rw [drop_append_of_le_length hstop]
  cases request.headers.getContentLength with
  | some size =>
    dsimp only
    refine .ite (fun _ => .same rfl) fun _ => ?_
    by_cases hshort : buffer.length < stop + size
    · rw [if_pos hshort]
      refine .beyond rfl fun x h => ?_
      split at h
      · cases h
      · cases h
        exact hshort
    have hle := length_le_append buffer more
    rw [if_neg hshort, if_neg (show ¬ (buffer ++ more).length < stop + size by omega),
      take_append_of_le_length (by rw [length_drop]; omega)]
    exact .same rfl
  | none =>
    dsimp only
    refine .ite (fun _ => ?_) fun _ => .same rfl
    obtain heq | ⟨hinc, hlt⟩ := parseChunkedBody_grows (buffer.drop stop) more
    · rw [heq]
      exact .same rfl
    rw [hinc]
    refine .beyond rfl fun x h => ?_
    split at h
    next hbody =>
      cases h
      have hlt := hlt _ hbody
      rw [length_drop] at hlt
      dsimp only
      omega
    · cases h
    · cases h

theorem parseRequest_grows (order : HashOrder) (buffer more : Bytes) :
    (parseRequest order buffer).Grows Prod.snd buffer.length
      (parseRequest order (buffer ++ more)) := by
  unfold parseRequest
  obtain heq | ⟨hinc, hlt⟩ := findHeaderEnd_append buffer more kMaxHeaderBytes
  · rw [heq]
    cases hend : findHeaderEnd buffer kMaxHeaderBytes with
    | incomplete | tooLarge => exact .same rfl
    | found stop =>
      have hle := findHeaderEnd_le hend
      dsimp only
      rw [take_append_of_le_length hle]
      cases parseHead order (buffer.take stop) with
      | none => exact .same rfl
      | some request => exact parseBody_grows hle request more
  · rw [hinc]
    refine .beyond rfl fun x h => ?_
    split at h
    · cases h
    · cases h
    next stop hend =>
      split at h
      · cases h
      · exact (hlt stop hend).trans_le (parseBody_bounds (findHeaderEnd_le hend) h).1

/-- What was said of a buffer holds of every extension. -/
theorem parseRequest_append (h : parseRequest order buffer ≠ .incomplete) (more : Bytes) :
    parseRequest order (buffer ++ more) = parseRequest order buffer :=
  (parseRequest_grows order buffer more).eq h

theorem parseRequest_incomplete (h : parseRequest order buffer = .incomplete)
    (h' : parseRequest order (buffer ++ more) = .success (request, consumed)) :
    buffer.length < consumed :=
  (parseRequest_grows order buffer more).lt h h'

end Spaznet.Http
