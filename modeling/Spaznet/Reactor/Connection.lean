import Mathlib.Algebra.Order.Ring.Nat

/-!
# The buffered connection

The output side of `BufferedConnection` over a plain socket. What a call of `send` does is a matter
of the socket; `sent` and `written` record what it accepted and what was handed to `write` before
the connection was closed.
-/

namespace Spaznet.Reactor

open List

abbrev Bytes := List UInt8

/-- What the dispatchers count in their context, modulo `2 ^ 64`. -/
structure IOContext where
  activeRequests : Nat := 0
  deriving DecidableEq

namespace IOContext

def incrementActiveRequests (ctx : IOContext) : IOContext :=
  { ctx with activeRequests := (ctx.activeRequests + 1) % 2 ^ 64 }

def decrementActiveRequests (ctx : IOContext) : IOContext :=
  { ctx with activeRequests := (2 ^ 64 - 1 + ctx.activeRequests) % 2 ^ 64 }

end IOContext

def kReadChunk : Nat := 4096

inductive SendResult where
  | accepted (n : Nat)
  | wouldBlock
  | error
  deriving DecidableEq

/-- What the call of `send` with this number does, if so many bytes are offered. -/
abbrev Socket := (call offered : Nat) → SendResult

inductive FlushResult where
  | flushed
  | wouldBlock
  | error
  deriving DecidableEq

structure BufferedConnection where
  closed : Bool := false
  closesAfterFlush : Bool := false
  writeInterestArmed : Bool := false
  pending : Bytes := []
  /-- The balance of what was reported to the context's count of buffered bytes. -/
  reported : Int := 0
  sends : Nat := 0
  sent : Bytes := []
  written : List Bytes := []
  deriving DecidableEq

namespace BufferedConnection

variable (before : Nat) (result : FlushResult × BufferedConnection)

/-- The loop of `try_flush`. Every call takes a byte at least, so that `fuel` for each byte that is
pending is enough. -/
def tryFlushLoop (socket : Socket) : (fuel : Nat) → BufferedConnection →
    FlushResult × BufferedConnection
  | 0, conn => (.flushed, conn)
  | fuel + 1, conn =>
    if conn.pending = [] then (.flushed, conn)
    else
      let called := { conn with sends := conn.sends + 1 }
      match socket conn.sends conn.pending.length with
      | .accepted 0 | .wouldBlock => (.wouldBlock, called)
      | .error => (.error, called)
      | .accepted n =>
        tryFlushLoop socket fuel
          { called with sent := conn.sent ++ conn.pending.take n, pending := conn.pending.drop n }

def tryFlush (socket : Socket) (conn : BufferedConnection) : FlushResult × BufferedConnection :=
  tryFlushLoop socket conn.pending.length conn

def reportBufferedDelta (before : Nat) (conn : BufferedConnection) : BufferedConnection :=
  { conn with reported := conn.reported + (conn.pending.length - before) }

def close (conn : BufferedConnection) : BufferedConnection :=
  if conn.closed then conn
  else { conn with closed := true, reported := conn.reported - conn.pending.length }

def closeAfterFlush (conn : BufferedConnection) : BufferedConnection :=
  if conn.closed then conn
  else if conn.pending = [] then conn.close
  else { conn with closesAfterFlush := true }

/-- What follows the first attempt to flush: bytes that remain wait for a writable event. -/
def afterFlush (before : Nat) : FlushResult × BufferedConnection → BufferedConnection
  | (.error, conn) => (conn.reportBufferedDelta before).close
  | (.flushed, conn) => conn.reportBufferedDelta before
  | (.wouldBlock, conn) => { conn with writeInterestArmed := true }.reportBufferedDelta before

def write (socket : Socket) (data : Bytes) (conn : BufferedConnection) : BufferedConnection :=
  if conn.closed ∨ data = [] then conn
  else
    let before := conn.pending.length
    let queued := { conn with pending := conn.pending ++ data, written := conn.written ++ [data] }
    if conn.pending = [] then afterFlush before (queued.tryFlush socket)
    else { queued with writeInterestArmed := true }.reportBufferedDelta before

def afterWritable (before : Nat) : FlushResult × BufferedConnection → BufferedConnection
  | (.error, conn) => (conn.reportBufferedDelta before).close
  | (.flushed, conn) =>
    let conn := conn.reportBufferedDelta before
    if conn.closesAfterFlush then conn.close else { conn with writeInterestArmed := false }
  | (.wouldBlock, conn) => conn.reportBufferedDelta before

def onWritable (socket : Socket) (conn : BufferedConnection) : BufferedConnection :=
  if conn.closed then conn else afterWritable conn.pending.length (conn.tryFlush socket)

/-! ## Flushing -/

/-- Bytes have moved from the buffer to the socket. -/
structure Flushes (conn conn' : BufferedConnection) : Prop where
  intact : conn'.sent ++ conn'.pending = conn.sent ++ conn.pending
  written : conn'.written = conn.written
  closed : conn'.closed = conn.closed
  closesAfterFlush : conn'.closesAfterFlush = conn.closesAfterFlush

theorem Flushes.refl (conn : BufferedConnection) : Flushes conn conn := ⟨rfl, rfl, rfl, rfl⟩

theorem Flushes.trans (h₁ : Flushes c₁ c₂) (h₂ : Flushes c₂ c₃) :
    Flushes c₁ c₃ :=
  ⟨h₂.intact.trans h₁.intact, h₂.written.trans h₁.written, h₂.closed.trans h₁.closed,
    h₂.closesAfterFlush.trans h₁.closesAfterFlush⟩

variable {conn : BufferedConnection} {socket : Socket}

theorem flushes_tryFlushLoop (socket : Socket) (fuel : Nat) (conn : BufferedConnection) :
    Flushes conn (tryFlushLoop socket fuel conn).2 := by
  induction fuel generalizing conn with
  | zero => exact .refl conn
  | succ fuel ih =>
    unfold tryFlushLoop
    split
    · exact .refl conn
    dsimp only
    split
    · exact ⟨rfl, rfl, rfl, rfl⟩
    · exact ⟨rfl, rfl, rfl, rfl⟩
    · exact ⟨rfl, rfl, rfl, rfl⟩
    next n _ _ =>
      have hmoved : Flushes conn { conn with
          sends := conn.sends + 1
          sent := conn.sent ++ conn.pending.take n
          pending := conn.pending.drop n } := by
        refine ⟨?_, rfl, rfl, rfl⟩
        rw [append_assoc, take_append_drop]
      exact hmoved.trans (ih _)

theorem flushes_tryFlush (socket : Socket) (conn : BufferedConnection) :
    Flushes conn (conn.tryFlush socket).2 :=
  flushes_tryFlushLoop socket _ conn

/-- The loop does not run out of fuel: what is reported as flushed is empty, and nothing else is. -/
theorem tryFlushLoop_eq_flushed (hfuel : conn.pending.length ≤ fuel) :
    (tryFlushLoop socket fuel conn).1 = .flushed ↔
      (tryFlushLoop socket fuel conn).2.pending = [] := by
  induction fuel generalizing conn with
  | zero => exact iff_of_true rfl (length_eq_zero_iff.mp (Nat.le_zero.mp hfuel))
  | succ fuel ih =>
    unfold tryFlushLoop
    split
    next hnil => exact iff_of_true rfl hnil
    next hne =>
      split
      · exact iff_of_false nofun hne
      · exact iff_of_false nofun hne
      · exact iff_of_false nofun hne
      next n hn _ =>
        refine ih ?_
        have hpos : n ≠ 0 := hn
        rw [length_drop]
        omega

def Reliable (socket : Socket) : Prop := ∀ call offered, socket call offered ≠ .error

theorem tryFlushLoop_ne_error (h : Reliable socket) (fuel : Nat) (conn : BufferedConnection) :
    (tryFlushLoop socket fuel conn).1 ≠ .error := by
  induction fuel generalizing conn with
  | zero => nofun
  | succ fuel ih =>
    unfold tryFlushLoop
    split
    · nofun
    dsimp only
    split
    · nofun
    · nofun
    next herror => exact absurd herror (h _ _)
    · exact ih _

theorem tryFlush_ne_error (h : Reliable socket) (conn : BufferedConnection) :
    (conn.tryFlush socket).1 ≠ .error :=
  tryFlushLoop_ne_error h _ conn

/-! ## What is written arrives -/

/-- What the socket accepted and what is pending make up what was written. -/
def Intact (conn : BufferedConnection) : Prop := conn.sent ++ conn.pending = conn.written.flatten

/-- What was written is kept, and so is the wish to close. -/
structure Keeps (conn conn' : BufferedConnection) : Prop where
  intact : conn'.sent ++ conn'.pending = conn.sent ++ conn.pending
  written : conn'.written = conn.written
  closesAfterFlush : conn'.closesAfterFlush = conn.closesAfterFlush

theorem Keeps.intact_iff (h : Keeps conn conn') : conn'.Intact ↔ conn.Intact := by
  unfold Intact
  rw [h.intact, h.written]

theorem Flushes.keeps (h : Flushes conn c₁) (h' : Keeps c₁ c₂) : Keeps conn c₂ :=
  ⟨h'.intact.trans h.intact, h'.written.trans h.written,
    h'.closesAfterFlush.trans h.closesAfterFlush⟩

theorem Keeps.close (h : Keeps conn c₁) : Keeps conn c₁.close := by
  unfold BufferedConnection.close
  split
  · exact h
  · exact ⟨h.intact, h.written, h.closesAfterFlush⟩

theorem keeps_close : Keeps conn conn.close := Keeps.close ⟨rfl, rfl, rfl⟩

@[simp] theorem intact_close : conn.close.Intact ↔ conn.Intact := keeps_close.intact_iff

@[simp] theorem written_close : conn.close.written = conn.written := keeps_close.written

@[simp] theorem closed_close : conn.close.closed = true := by
  unfold close
  split
  next h => exact h
  · rfl

theorem close_of_closed (h : conn.closed = true) : conn.close = conn := if_pos h

@[simp] theorem intact_closeAfterFlush : conn.closeAfterFlush.Intact ↔ conn.Intact := by
  unfold closeAfterFlush
  split
  · rfl
  split
  · exact intact_close
  · rfl

@[simp] theorem written_closeAfterFlush : conn.closeAfterFlush.written = conn.written := by
  unfold closeAfterFlush
  split
  · rfl
  split
  · exact written_close
  · rfl

theorem closeAfterFlush_of_closed (h : conn.closed = true) : conn.closeAfterFlush = conn := if_pos h

theorem keeps_afterFlush : Keeps result.2 (afterFlush before result) := by
  obtain ⟨result, conn⟩ := result
  cases result with
  | error => exact Keeps.close ⟨rfl, rfl, rfl⟩
  | flushed | wouldBlock => exact ⟨rfl, rfl, rfl⟩

theorem keeps_afterWritable : Keeps result.2 (afterWritable before result) := by
  obtain ⟨result, conn⟩ := result
  cases result with
  | error => exact Keeps.close ⟨rfl, rfl, rfl⟩
  | flushed =>
    unfold afterWritable
    dsimp only
    split
    · exact Keeps.close ⟨rfl, rfl, rfl⟩
    · exact ⟨rfl, rfl, rfl⟩
  | wouldBlock => exact ⟨rfl, rfl, rfl⟩

theorem keeps_onWritable : Keeps conn (conn.onWritable socket) := by
  unfold onWritable
  split
  · exact ⟨rfl, rfl, rfl⟩
  · exact (flushes_tryFlush socket conn).keeps (keeps_afterWritable _ _)

theorem write_of_closed (h : conn.closed = true) (data : Bytes) : conn.write socket data = conn :=
  if_pos (.inl h)

theorem onWritable_of_closed (h : conn.closed = true) : conn.onWritable socket = conn := if_pos h

theorem intact_write (h : conn.Intact) (data : Bytes) : (conn.write socket data).Intact := by
  unfold write
  split
  · exact h
  dsimp only
  have hqueued : Intact { conn with
      pending := conn.pending ++ data, written := conn.written ++ [data] } := by
    unfold Intact at h ⊢
    rw [← append_assoc, h, flatten_append, flatten_singleton]
  split
  · exact ((flushes_tryFlush socket _).keeps (keeps_afterFlush _ _)).intact_iff.mpr hqueued
  · exact hqueued

theorem written_write (hopen : conn.closed = false) (hdata : data ≠ []) :
    (conn.write socket data).written = conn.written ++ [data] := by
  unfold write
  rw [if_neg (by simp [hopen, hdata])]
  split
  · exact ((flushes_tryFlush socket _).keeps (keeps_afterFlush _ _)).written
  · rfl

theorem closed_afterFlush (h : result.1 ≠ .error) :
    (afterFlush before result).closed = result.2.closed := by
  obtain ⟨result, conn⟩ := result
  cases result with
  | error => exact absurd rfl h
  | flushed | wouldBlock => rfl

theorem closed_write_of_reliable (hsocket : Reliable socket) (data : Bytes) :
    (conn.write socket data).closed = conn.closed := by
  unfold write
  split
  · rfl
  dsimp only
  split
  · rw [closed_afterFlush _ _ (tryFlush_ne_error hsocket _)]
    exact (flushes_tryFlush socket _).closed
  · rfl

@[simp] theorem written_onWritable : (conn.onWritable socket).written = conn.written :=
  keeps_onWritable.written

/-! ## Closing after the flush -/

/-- The connection is closed, or it will be with the last byte. -/
def Draining (conn : BufferedConnection) : Prop :=
  conn.closed = true ∨ conn.closesAfterFlush = true ∧ conn.pending ≠ []

theorem draining_closeAfterFlush : conn.closeAfterFlush.Draining := by
  unfold closeAfterFlush
  split
  next hclosed => exact .inl hclosed
  split
  · exact .inl closed_close
  next hpending => exact .inr ⟨rfl, hpending⟩

theorem draining_afterWritable {result : FlushResult × BufferedConnection} (before : Nat)
    (hcloses : result.2.closesAfterFlush = true)
    (hflushed : result.1 = .flushed ↔ result.2.pending = []) :
    (afterWritable before result).Draining := by
  obtain ⟨result, conn⟩ := result
  cases result with
  | error => exact .inl closed_close
  | flushed =>
    unfold afterWritable
    dsimp only
    rw [show (conn.reportBufferedDelta before).closesAfterFlush = true from hcloses]
    exact .inl closed_close
  | wouldBlock => exact .inr ⟨hcloses, fun hnil => nomatch hflushed.mpr hnil⟩

theorem draining_onWritable (h : conn.Draining) : (conn.onWritable socket).Draining := by
  unfold onWritable
  split
  · exact h
  next hopen =>
    obtain hclosed | ⟨hcloses, -⟩ := h
    · exact absurd hclosed hopen
    refine draining_afterWritable _ ?_ (tryFlushLoop_eq_flushed (Nat.le_refl _))
    rw [(flushes_tryFlush socket conn).closesAfterFlush]
    exact hcloses

theorem closesAfterFlush_write (data : Bytes) :
    (conn.write socket data).closesAfterFlush = conn.closesAfterFlush := by
  unfold write
  split
  · rfl
  dsimp only
  split
  · exact ((flushes_tryFlush socket _).keeps (keeps_afterFlush _ _)).closesAfterFlush
  · rfl

theorem closesAfterFlush_onWritable :
    (conn.onWritable socket).closesAfterFlush = conn.closesAfterFlush :=
  keeps_onWritable.closesAfterFlush

theorem onWritable_of_reliable (hsocket : Reliable socket) (h : conn.closesAfterFlush = false) :
    (conn.onWritable socket).closed = conn.closed ∧
      (conn.onWritable socket).closesAfterFlush = false := by
  have hafter {result : FlushResult × BufferedConnection} (before : Nat)
      (hresult : result.1 ≠ .error) (hgoes : result.2.closesAfterFlush = false) :
      (afterWritable before result).closed = result.2.closed := by
    obtain ⟨result, conn⟩ := result
    cases result with
    | error => exact absurd rfl hresult
    | flushed =>
      unfold afterWritable
      dsimp only
      rw [show (conn.reportBufferedDelta before).closesAfterFlush = false from hgoes]
      rfl
    | wouldBlock => rfl
  have hflush := flushes_tryFlush socket conn
  refine ⟨?_, closesAfterFlush_onWritable.trans h⟩
  unfold onWritable
  split
  · rfl
  have hclosed := hafter conn.pending.length (tryFlush_ne_error hsocket conn)
    (hflush.closesAfterFlush.trans h)
  exact hclosed.trans hflush.closed

end BufferedConnection

end Spaznet.Reactor
