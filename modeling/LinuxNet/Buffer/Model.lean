import LinuxNet.Lib.Window
import Mathlib.Algebra.Group.Nat.Defs

/-!
# `net::Buffer`

The embedding of `buffer.h` and `buffer.cc`: a vector of bytes with a read and a
write index. Pointers into the vector (`Peek()`, `BeginWrite()`, the argument of
`RetrieveUntil`) are offsets from `Begin()`. Indices are naturals: a vector and
the block appended to it are both in memory, so no sum of the source wraps.

A failed `assert` is recorded in `asserts` and execution goes on, as it does in
the build with `NDEBUG`; that no assert fails is then a theorem about `asserts`.
-/

namespace LinuxNet

open LinuxNet.Lib.Window

/-- The `assert` statements of `buffer.h`, by the function they stand in. -/
inductive Buffer.Assert where
  | peekInt | retrieve | retrieveUntil | retrieveAsString | hasWritten | makeSpace
  | ensureWritableBytes
  deriving DecidableEq, Repr

/-- `read_index_`, `write_index_` and `buffer_`. -/
structure Buffer where
  readIndex : Nat
  writeIndex : Nat
  buffer : List UInt8
  asserts : List Buffer.Assert
  deriving DecidableEq, Repr

namespace Buffer

def kInitialSize : Nat := 1024

/-- `sizeof(t_extra_buf)`. -/
def kExtraSize : Nat := 1024 * 32

/-- The constructor `Buffer()`. -/
def new : Buffer := ⟨0, 0, List.replicate kInitialSize 0, []⟩

/-- `assert(ok)`. -/
def check (b : Buffer) (site : Assert) (ok : Bool) : Buffer :=
  if ok then b else { b with asserts := b.asserts ++ [site] }

def readableBytes (b : Buffer) : Nat := b.writeIndex - b.readIndex

def writableBytes (b : Buffer) : Nat := b.buffer.length - b.writeIndex

def peek (b : Buffer) : Nat := b.readIndex

def beginWrite (b : Buffer) : Nat := b.writeIndex

/-- The readable bytes, from `Peek()` up to `BeginWrite()`. -/
def contents (b : Buffer) : List UInt8 := window b.buffer b.readIndex b.writeIndex

def retrieveAll (b : Buffer) : Buffer := { b with readIndex := 0, writeIndex := 0 }

def retrieve (b : Buffer) (len : Nat) : Buffer :=
  let b := b.check .retrieve (len ≤ b.readableBytes)
  if len < b.readableBytes then { b with readIndex := b.readIndex + len } else b.retrieveAll

def retrieveUntil (b : Buffer) (stop : Nat) : Buffer :=
  let b := b.check .retrieveUntil (b.peek ≤ stop)
  let b := b.check .retrieveUntil (stop ≤ b.beginWrite)
  b.retrieve (stop - b.peek)

def retrieveAsString (b : Buffer) (len : Nat) : List UInt8 × Buffer :=
  let b := b.check .retrieveAsString (len ≤ b.readableBytes)
  (window b.buffer b.peek (b.peek + len), b.retrieve len)

def retrieveAllAsString (b : Buffer) : List UInt8 × Buffer := b.retrieveAsString b.readableBytes

def hasWritten (b : Buffer) (len : Nat) : Buffer :=
  let b := b.check .hasWritten (len ≤ b.writableBytes)
  { b with writeIndex := b.writeIndex + len }

/-- `buffer_.resize(n)` for an `n` above the size: new elements are zero. -/
def resize (b : Buffer) (n : Nat) : Buffer :=
  { b with buffer := b.buffer ++ List.replicate (n - b.buffer.length) 0 }

/-- `MakeSpace`, given what `copy_backward(Begin()+first, Begin()+last, Begin()+dLast)`
does to the vector. -/
def makeSpaceWith (copyBackward : List UInt8 → Nat → Nat → Nat → List UInt8)
    (b : Buffer) (len : Nat) : Buffer :=
  if b.writableBytes + b.readIndex < len then
    let b := b.check .makeSpace (b.writeIndex + len > b.buffer.length)
    b.resize (b.writeIndex + len)
  else
    let readable := b.readableBytes
    { b with
      buffer := copyBackward b.buffer b.readIndex b.writeIndex readable
      readIndex := 0
      writeIndex := readable }

/-- The move of a possibly overlapping range, as `memmove` does it. -/
def moveBackward (mem : List UInt8) (first last dLast : Nat) : List UInt8 :=
  overwrite mem (dLast - (last - first)) (window mem first last)

def makeSpace (b : Buffer) (len : Nat) : Buffer := b.makeSpaceWith moveBackward len

def ensureWritableBytes (b : Buffer) (len : Nat) : Buffer :=
  let b := if len > b.writableBytes then b.makeSpace len else b
  b.check .ensureWritableBytes (len ≤ b.writableBytes)

def append (b : Buffer) (dat : List UInt8) : Buffer :=
  let b := b.ensureWritableBytes dat.length
  let b := { b with buffer := overwrite b.buffer b.beginWrite dat }
  b.hasWritten dat.length

/-! ## Integers

`htobe16/32/64` followed by a copy of the object puts the bytes of the value in
the vector, most significant first; a copy out followed by `be16/32/64toh` reads
them back. Values are two's-complement words. -/

def htobe (n : Nat) (v : BitVec (8 * n)) : List UInt8 :=
  (List.range n).map fun i => UInt8.ofNat (v.toNat / 256 ^ (n - 1 - i))

def betoh (n : Nat) (bytes : List UInt8) : BitVec (8 * n) :=
  BitVec.ofNat (8 * n) (bytes.foldl (fun acc x => acc * 256 + x.toNat) 0)

/-- `AppendInt64`, `AppendInt32` and `AppendInt16` differ in the width only. -/
def appendIntOf (n : Nat) (b : Buffer) (v : BitVec (8 * n)) : Buffer := b.append (htobe n v)

def appendInt64 : Buffer → BitVec 64 → Buffer := appendIntOf 8
def appendInt32 : Buffer → BitVec 32 → Buffer := appendIntOf 4
def appendInt16 : Buffer → BitVec 16 → Buffer := appendIntOf 2

/-- One byte has no byte order: the object is appended as it is. -/
def appendInt8 (b : Buffer) (v : BitVec 8) : Buffer := b.append [UInt8.ofBitVec v]

def peekIntOf (n : Nat) (b : Buffer) : BitVec (8 * n) × Buffer :=
  let b := b.check .peekInt (n ≤ b.readableBytes)
  (betoh n (window b.buffer b.peek (b.peek + n)), b)

def peekInt64 : Buffer → BitVec 64 × Buffer := peekIntOf 8
def peekInt32 : Buffer → BitVec 32 × Buffer := peekIntOf 4
def peekInt16 : Buffer → BitVec 16 × Buffer := peekIntOf 2

def peekInt8 (b : Buffer) : BitVec 8 × Buffer :=
  let b := b.check .peekInt (1 ≤ b.readableBytes)
  (((window b.buffer b.peek (b.peek + 1)).headD 0).toBitVec, b)

def retrieveInt64 (b : Buffer) : Buffer := b.retrieve 8
def retrieveInt32 (b : Buffer) : Buffer := b.retrieve 4
def retrieveInt16 (b : Buffer) : Buffer := b.retrieve 2
def retrieveInt8 (b : Buffer) : Buffer := b.retrieve 1

def readInt64 (b : Buffer) : BitVec 64 × Buffer :=
  let (value, b) := b.peekInt64
  (value, b.retrieveInt64)

def readInt32 (b : Buffer) : BitVec 32 × Buffer :=
  let (value, b) := b.peekInt32
  (value, b.retrieveInt32)

def readInt16 (b : Buffer) : BitVec 16 × Buffer :=
  let (value, b) := b.peekInt16
  (value, b.retrieveInt16)

def readInt8 (b : Buffer) : BitVec 8 × Buffer :=
  let (value, b) := b.peekInt8
  (value, b.retrieveInt8)

/-! ## `ReadFd` -/

/-- What `::readv` reports: an error number, or the bytes it delivered (none at
the end of the stream). -/
inductive ReadvResult where
  | error (errno : Nat)
  | bytes (dat : List UInt8)
  deriving DecidableEq, Repr

/-- What `ReadFd` returns: the length and, on an error, `*saved_errno`. -/
structure ReadFdResult where
  rlen : Int
  savedErrno : Option Nat
  deriving DecidableEq, Repr

/-- `ReadFd`: `readv` fills the writable part of the vector first and the extra
buffer after it. Linux caps one transfer below `2^31`, so the cast of the length
to `int` is exact. -/
def readFd (b : Buffer) : ReadvResult → ReadFdResult × Buffer
  | .error errno => (⟨-1, some errno⟩, b)
  | .bytes dat =>
    let writable := b.writableBytes
    let b := { b with buffer := overwrite b.buffer b.writeIndex (dat.take writable) }
    if dat.length ≤ writable then
      (⟨dat.length, none⟩, { b with writeIndex := b.writeIndex + dat.length })
    else
      let b := { b with writeIndex := b.buffer.length }
      (⟨dat.length, none⟩, b.append (dat.drop writable))

/-! ## Sequences of operations -/

/-- The four integer types the framing functions exist for. -/
inductive Width where
  | int8 | int16 | int32 | int64
  deriving DecidableEq, Repr

/-- `sizeof` of the integer type. -/
def Width.bytes : Width → Nat
  | .int8 => 1
  | .int16 => 2
  | .int32 => 4
  | .int64 => 8

def appendInt (b : Buffer) : (w : Width) → BitVec (8 * w.bytes) → Buffer
  | .int8, v => b.appendInt8 v
  | .int16, v => b.appendInt16 v
  | .int32, v => b.appendInt32 v
  | .int64, v => b.appendInt64 v

def peekInt (b : Buffer) : (w : Width) → BitVec (8 * w.bytes) × Buffer
  | .int8 => b.peekInt8
  | .int16 => b.peekInt16
  | .int32 => b.peekInt32
  | .int64 => b.peekInt64

def retrieveInt (b : Buffer) : Width → Buffer
  | .int8 => b.retrieveInt8
  | .int16 => b.retrieveInt16
  | .int32 => b.retrieveInt32
  | .int64 => b.retrieveInt64

def readInt (b : Buffer) : (w : Width) → BitVec (8 * w.bytes) × Buffer
  | .int8 => b.readInt8
  | .int16 => b.readInt16
  | .int32 => b.readInt32
  | .int64 => b.readInt64

/-- A call of a public member function. `retrieveUntil k` is the call with the
pointer `Peek() + k`. -/
inductive Op where
  | append (dat : List UInt8)
  | appendInt (w : Width) (v : BitVec (8 * w.bytes))
  | peekInt (w : Width)
  | retrieve (len : Nat)
  | retrieveUntil (k : Nat)
  | retrieveAsString (len : Nat)
  | retrieveAllAsString
  | retrieveInt (w : Width)
  | retrieveAll
  | readInt (w : Width)
  | readFd (r : ReadvResult)

/-- What a call returns to its caller. -/
inductive Out where
  | none
  | string (s : List UInt8)
  | int (w : Width) (v : BitVec (8 * w.bytes))
  | rlen (n : Int)

/-- The entry precondition of a call. For `ReadFd` it is the kernel's: `readv`
delivers no more than the two areas it is given can hold. -/
def pre (b : Buffer) : Op → Bool
  | .retrieve len => len ≤ b.readableBytes
  | .retrieveUntil k => k ≤ b.readableBytes
  | .retrieveAsString len => len ≤ b.readableBytes
  | .peekInt w | .retrieveInt w | .readInt w => w.bytes ≤ b.readableBytes
  | .readFd (.bytes dat) => dat.length ≤ b.writableBytes + kExtraSize
  | _ => true

def exec (b : Buffer) : Op → Out × Buffer
  | .append dat => (.none, b.append dat)
  | .appendInt w v => (.none, b.appendInt w v)
  | .peekInt w => (.int w (b.peekInt w).1, (b.peekInt w).2)
  | .retrieve len => (.none, b.retrieve len)
  | .retrieveUntil k => (.none, b.retrieveUntil (b.peek + k))
  | .retrieveAsString len => (.string (b.retrieveAsString len).1, (b.retrieveAsString len).2)
  | .retrieveAllAsString => (.string b.retrieveAllAsString.1, b.retrieveAllAsString.2)
  | .retrieveInt w => (.none, b.retrieveInt w)
  | .retrieveAll => (.none, b.retrieveAll)
  | .readInt w => (.int w (b.readInt w).1, (b.readInt w).2)
  | .readFd r => (.rlen (b.readFd r).1.rlen, (b.readFd r).2)

/-- One call whose entry precondition holds, with the results returned so far. -/
def step (s : Buffer × List Out) (op : Op) : Option (Buffer × List Out) :=
  if s.1.pre op then some ((s.1.exec op).2, s.2 ++ [(s.1.exec op).1]) else none

end Buffer

end LinuxNet
