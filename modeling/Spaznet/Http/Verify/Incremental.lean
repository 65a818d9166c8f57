import Spaznet.Http.Extension

/-!
# Incremental parsing

A request is parsed anew each time its buffer has grown, into a table that has kept its buckets. It
makes no difference where the stream is cut, as long as the buckets do not change the order in which
the fields are visited.
-/

namespace Spaznet.Http

open Ascii List

/-- Once the header block is there, the fields are those of every extension. -/
theorem storedKeys_append (buffer more : Bytes) :
    storedKeys buffer = [] ∨ storedKeys (buffer ++ more) = storedKeys buffer := by
  unfold storedKeys
  obtain heq | ⟨hinc, -⟩ := findHeaderEnd_append buffer more kMaxHeaderBytes
  · rw [heq]
    split
    next hend =>
      rw [take_append_of_le_length (findHeaderEnd_le hend)]
      exact .inr rfl
    all_goals exact .inl rfl
  · rw [hinc]
    exact .inl rfl

/-- A table with these buckets has taken nothing but the fields of the stream. -/
def Warm (tables : HashTables) (stream : Bytes) (buckets : Nat) : Prop :=
  ∃ n, buckets = (tables.grow · (storedKeys stream))^[n] 0

theorem Warm.new (tables : HashTables) (stream : Bytes) : Warm tables stream 0 := ⟨0, rfl⟩

section
variable {tables : HashTables} (h : Warm tables (buffer ++ more) buckets)
include h

theorem Warm.grow : Warm tables (buffer ++ more) (tables.grow buckets (storedKeys buffer)) := by
  obtain hnil | hkeys := storedKeys_append buffer more
  · rw [hnil, tables.grow_nil]
    exact h
  · obtain ⟨n, rfl⟩ := h
    rw [← hkeys]
    exact ⟨n + 1, by rw [Function.iterate_succ_apply']⟩

theorem Warm.parseRequest_eq (hsteady : tables.Steady (storedKeys (buffer ++ more))) :
    parseRequest (tables.order buckets) buffer = parseRequest (tables.order 0) buffer := by
  obtain ⟨n, rfl⟩ := h
  apply parseRequest_congr
  obtain hnil | hkeys := storedKeys_append buffer more
  · rw [hnil, HashOrder.visit_nil, HashOrder.visit_nil]
  · rw [← hkeys]
    exact hsteady n

end

def shiftMix (v : UInt64) : UInt64 := v ^^^ (v >>> 47)

def kHashMul : UInt64 := 0xc6a4a7935bd1e995

def loadBytes (bytes : Bytes) : UInt64 := bytes.foldr (fun b n => n <<< 8 ||| b.toUInt64) 0

/-- The loop of `_Hash_bytes` over blocks of eight bytes, and what it does with the rest. -/
def hashBlocks (hash : UInt64) : Bytes → UInt64
  | [] => hash
  | b0 :: b1 :: b2 :: b3 :: b4 :: b5 :: b6 :: b7 :: rest =>
    let data := shiftMix (loadBytes [b0, b1, b2, b3, b4, b5, b6, b7] * kHashMul) * kHashMul
    hashBlocks ((hash ^^^ data) * kHashMul) rest
  | tail => (hash ^^^ loadBytes tail) * kHashMul

def hashBytes (bytes : Bytes) : UInt64 :=
  let hash := hashBlocks (0xc70f6907 ^^^ (UInt64.ofNat bytes.length * kHashMul)) bytes
  shiftMix (shiftMix hash * kHashMul)

/-- The tables of libstdc++, up to the number of fields of a request. -/
def HashTables.libstdcxx : HashTables :=
  .chained (fun key => (hashBytes key).toNat) fun
    | 0 => 13
    | 13 => 29
    | 29 => 59
    | _ => 127

example : hashBytes [] = 6142509188972423790 := by decide +kernel

/-- Fourteen fields, of which two have the same length under two spellings. -/
def crowdedHead : Bytes :=
  ascii "POST / HTTP/1.1\r\nContent-length: 5, 5\r\nContent-Length: 5, 5\r\n" ++
    (ascii "abcdefghijkl").flatMap (fun name => [name, colon, cr, lf]) ++ crlf

end Spaznet.Http
