import Spaznet.Platform.IOContext
import Spaznet.Reactor.Connection

/-!
# The buffered connection with its buffers

`BufferedConnection` over a plain socket or a `TlsStream`: the output buffer with its read position,
the write BIO and the ciphertext that waits for the socket, and the registrations in the context.
What the socket and OpenSSL do is a matter of the environment. One turn of the read loop is given by
what it found: data, with what OpenSSL wrote on the way and what the `on_data` callback did, nothing
more for now, or the end. `Reactor.BufferedConnection` is what the dispatchers see of it.
-/

namespace Spaznet.Reactor.Io

open Platform (Fd Events)

structure OutputBuffer where
  buf : Bytes := []
  readPos : Nat := 0
  deriving DecidableEq

inductive Offered where
  | took (n : Nat)
  | later
  | failed
  deriving DecidableEq

namespace OutputBuffer

def pending (b : OutputBuffer) : Bytes := b.buf.drop b.readPos

def append (bytes : Bytes) (b : OutputBuffer) : OutputBuffer :=
  if bytes = [] then b
  else if b.readPos ≥ b.buf.length then ⟨bytes, 0⟩
  else ⟨b.buf ++ bytes, b.readPos⟩

/-- So many turns of the loop of `try_flush` and of `flush_network`. -/
def drain (offer : Bytes → σ → Offered × σ) :
    (turns : Nat) → OutputBuffer → σ → FlushResult × OutputBuffer × σ
  | 0, b, s => (.wouldBlock, b, s)
  | turns + 1, b, s =>
    if b.pending = [] then (.flushed, {}, s)
    else match offer b.pending s with
      | (.took n, s) => drain offer turns { b with readPos := b.readPos + n } s
      | (.later, s) => (.wouldBlock, b, s)
      | (.failed, s) => (.error, b, s)

/-- The whole loop: every turn but the last takes a byte. -/
def tryFlush (offer : Bytes → σ → Offered × σ) (b : OutputBuffer) (s : σ) :
    FlushResult × OutputBuffer × σ := b.drain offer (b.pending.length + 1) s

end OutputBuffer

structure Wire where
  sends : Nat := 0
  sent : Bytes := []
  deriving DecidableEq

def Wire.offer (socket : Socket) (bytes : Bytes) (w : Wire) : Offered × Wire :=
  let called := { w with sends := w.sends + 1 }
  match socket w.sends bytes.length with
  | .accepted 0 | .wouldBlock => (.later, called)
  | .error => (.failed, called)
  | .accepted n => (.took (min n bytes.length), { called with sent := w.sent ++ bytes.take n })

/-- What `SSL_write` does in a call, and the ciphertext that it leaves in the write BIO. A call that
wants to read is fed from the socket and tried later. -/
structure Env where
  socket : Socket
  sslWrite : (call : Nat) → Bytes → Offered × Bytes := fun _ bytes => (.took bytes.length, bytes)
  closeNotify : Bytes := []

structure TlsStream where
  wbio : Bytes := []
  pendingOut : OutputBuffer := {}
  calls : Nat := 0
  deriving DecidableEq

namespace TlsStream

def wantsWrite (t : TlsStream) : Bool := t.pendingOut.pending ≠ [] || t.wbio ≠ []

def flushNetwork (env : Env) (t : TlsStream) (w : Wire) : FlushResult × TlsStream × Wire :=
  let out := { t.pendingOut with buf := t.pendingOut.buf ++ t.wbio }
  let (result, out, w) := out.tryFlush (Wire.offer env.socket) w
  (result, { t with wbio := [], pendingOut := out }, w)

/-- `SSL_write`, after what is left of the ciphertext before. -/
def write (env : Env) (bytes : Bytes) (x : TlsStream × Wire) : Offered × TlsStream × Wire :=
  match if x.1.wantsWrite then x.1.flushNetwork env x.2 else (.flushed, x) with
  | (.wouldBlock, x) => (.later, x)
  | (.error, x) => (.failed, x)
  | (.flushed, t, w) =>
    let (offered, cipher) := env.sslWrite t.calls bytes
    match { t with wbio := t.wbio ++ cipher, calls := t.calls + 1 }.flushNetwork env w with
    | (.error, x) => (.failed, x)
    | (_, x) => (offered, x)

/-- The attempt of a closing connection to send its alert. -/
def shutdown (env : Env) : Option TlsStream → Wire → Option TlsStream × Wire
  | none, w => (none, w)
  | some t, w =>
    let (_, t, w) := { t with wbio := t.wbio ++ env.closeNotify }.flushNetwork env w
    (some t, w)

end TlsStream

structure BufferedConnection where
  fd : Fd := 0
  io : Platform.IOContext Unit := {}
  tls : Option TlsStream := none
  output : OutputBuffer := {}
  wire : Wire := {}
  closed : Bool := false
  closesAfterFlush : Bool := false
  writeInterestArmed : Bool := false
  /-- The balance of what was reported to the context's gauge. -/
  reported : Int := 0
  written : List Bytes := []

inductive Call where
  | write (data : Bytes)
  | close
  | closeAfterFlush
  deriving DecidableEq

inductive Turn where
  | data (cipher : Bytes) (calls : List Call)
  /-- OpenSSL wanted more bytes, and got some. -/
  | fed (cipher : Bytes)
  | drained (cipher : Bytes)
  | ended
  deriving DecidableEq

namespace BufferedConnection

def setIoHandler (events : Events) (c : BufferedConnection) : BufferedConnection :=
  { c with io := c.io.setIoHandler c.fd events (some ()) }

def flushOutput (env : Env) (c : BufferedConnection) : FlushResult × BufferedConnection :=
  match c.tls with
  | none =>
    let (result, output, wire) := c.output.tryFlush (Wire.offer env.socket) c.wire
    (result, { c with output, wire })
  | some t =>
    match c.output.tryFlush (TlsStream.write env) (t, c.wire) with
    | (.flushed, output, t, wire) =>
      let (result, t, wire) := if t.wantsWrite then t.flushNetwork env wire else (.flushed, t, wire)
      (result, { c with tls := some t, output, wire })
    | (result, output, t, wire) => (result, { c with tls := some t, output, wire })

def reportBufferedDelta (before : Nat) (c : BufferedConnection) : BufferedConnection :=
  { c with reported := c.reported + (c.output.pending.length - before) }

def close (env : Env) (c : BufferedConnection) : BufferedConnection :=
  if c.closed then c
  else
    let (tls, wire) := TlsStream.shutdown env c.tls c.wire
    { c with
      closed := true
      reported := c.reported - c.output.pending.length
      io := c.io.removeIo c.fd
      tls, wire }

def closeAfterFlush (env : Env) (c : BufferedConnection) : BufferedConnection :=
  if c.closed then c
  else if c.output.pending = [] then c.close env
  else { c with closesAfterFlush := true }

def queue (data : Bytes) (c : BufferedConnection) : BufferedConnection :=
  { c with output := c.output.append data, written := c.written ++ [data] }

def afterFlush (env : Env) (before : Nat) : FlushResult × BufferedConnection → BufferedConnection
  | (.error, c) => (c.reportBufferedDelta before).close env
  | (.flushed, c) => c.reportBufferedDelta before
  | (.wouldBlock, c) =>
    if c.writeInterestArmed then c.reportBufferedDelta before
    else ({ c with writeInterestArmed := true }.setIoHandler ⟨true, true⟩).reportBufferedDelta before

def write (env : Env) (data : Bytes) (c : BufferedConnection) : BufferedConnection :=
  if c.closed ∨ data = [] then c
  else afterFlush env c.output.pending.length
    (if c.output.pending = [] then (c.queue data).flushOutput env else (.wouldBlock, c.queue data))

def call (env : Env) (c : BufferedConnection) : Call → BufferedConnection
  | .write data => c.write env data
  | .close => c.close env
  | .closeAfterFlush => c.closeAfterFlush env

/-- The ciphertext of a read goes out; what is left wants a writable event. -/
def flushRead (env : Env) (cipher : Bytes) (c : BufferedConnection) :
    FlushResult × BufferedConnection :=
  match c.tls with
  | none => (.flushed, c)
  | some t =>
    let (result, t, wire) := { t with wbio := t.wbio ++ cipher }.flushNetwork env c.wire
    (result, { c with tls := some t, wire })

def armIfWanted (c : BufferedConnection) : BufferedConnection :=
  { c with writeInterestArmed := c.writeInterestArmed || c.tls.any (·.wantsWrite) }

/-- What OpenSSL wrote while reading goes out before anything else. -/
def afterRead (env : Env) (cipher : Bytes) (c : BufferedConnection)
    (next : BufferedConnection → BufferedConnection) : BufferedConnection :=
  if c.closed then c
  else match c.flushRead env cipher with
    | (.error, c) => c.close env
    | (_, c) => next c

/-- The end of the read loop. -/
def rearm (c : BufferedConnection) : BufferedConnection :=
  let c := c.armIfWanted
  c.setIoHandler ⟨true, c.writeInterestArmed⟩

/-- The read loop; without a further turn there is nothing to read. -/
def onReadable (env : Env) : List Turn → BufferedConnection → BufferedConnection
  | [], c => if c.closed then c else c.rearm
  | .ended :: _, c => c.close env
  | .drained cipher :: _, c => c.afterRead env cipher rearm
  | .fed cipher :: turns, c => c.afterRead env cipher (onReadable env turns)
  | .data cipher calls :: turns, c => c.afterRead env cipher fun c =>
    let c := calls.foldl (call env) c
    if c.closed then c else onReadable env turns c.armIfWanted

def onWritable (env : Env) (turns : List Turn) (c : BufferedConnection) : BufferedConnection :=
  if c.closed then c
  else
    let (result, c') := c.flushOutput env
    let c' := c'.reportBufferedDelta c.output.pending.length
    match result with
    | .error => c'.close env
    | .flushed =>
      if c'.closesAfterFlush then c'.close env
      else
        let c' := { c' with writeInterestArmed := false }
        if c'.tls.isSome then onReadable env turns c' else c'.setIoHandler ⟨true, false⟩
    | .wouldBlock => c'.setIoHandler ⟨true, true⟩

inductive Event where
  | call (call : Call)
  | readable (turns : List Turn)
  | writable (turns : List Turn)
  | error
  /-- Someone else takes the descriptor off the context. -/
  | removeIo
  deriving DecidableEq

def step (env : Env) (c : BufferedConnection) : Event → BufferedConnection
  | .call call => c.call env call
  | .readable turns => c.onReadable env turns
  | .writable turns => c.onWritable env turns
  | .error => c.close env
  | .removeIo => { c with io := c.io.removeIo c.fd }

end BufferedConnection

end Spaznet.Reactor.Io
