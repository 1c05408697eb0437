import CommandStation.Lib.Ring

/-!
# The ring stream

A `RingStream` holds the messages to the clients of one interface, or those from them. A message is
written between `mark` and `commit`, and stands in the ring as the client, two bytes of length and
the payload. On the AVR boards a text in flash memory is stored as a marker and its address only; it
is expanded when it is read, and the length counts the expanded bytes.

`flash` is the flash memory. `wide` says that pointers have more than two bytes: then the texts are
copied into the ring.
-/

namespace CommandStation

open CommandStation.Lib

/-- `class RingStream`. The buffer is a function of which the first `len` values are used; a null
`flashInsert` is 0. -/
structure RingStream where
  len : Nat
  buffer : Nat → UInt8
  posWrite : Nat
  posRead : Nat
  overflow : Bool
  markPos : Nat
  counter : Nat
  flashInsert : Nat
  ringClient : UInt8

namespace RingStream

/-- `FLASH_INSERT_MARKER` -/
def flashInsertMarker : UInt8 := 0xFF

/-- `NO_CLIENT` -/
def noClient : UInt8 := 255

/-- The constructor. -/
def new (len : Nat) : RingStream where
  len := len
  buffer _ := 0
  posWrite := 0
  posRead := 0
  overflow := false
  markPos := 0
  counter := 0
  flashInsert := 0
  ringClient := noClient

/-! ## Writing -/

/-- `RingStream::write`, and how many bytes it has written. -/
def write (r : RingStream) (b : UInt8) : RingStream × Nat :=
  if r.overflow then (r, 0)
  else
    let r := { r with
      buffer := Function.update r.buffer r.posWrite b, posWrite := nextPos r.len r.posWrite }
    if r.posWrite = r.posRead then ({ r with overflow := true }, 0)
    else ({ r with counter := r.counter + 1 }, 1)

/-- `Print::print` of a text: its bytes are written. -/
def print (r : RingStream) (text : List UInt8) : RingStream :=
  text.foldl (fun r b => (r.write b).1) r

variable (flash : Nat → UInt8) (wide : Bool)

/-- The bytes in flash memory up to the terminating zero. -/
def flashText (fuel : Nat) (p : Nat) : List UInt8 :=
  match fuel with
  | 0 => []
  | n + 1 => if flash p = 0 then [] else flash p :: flashText n (p + 1)

/-- `STRLEN_P` of a pointer of two bytes, with the text that it measures. -/
def textP (p : Nat) : List UInt8 := flashText flash 65536 p

/-- `RingStream::printFlash` -/
def printFlash (r : RingStream) (p : Nat) : RingStream :=
  if wide then r.print (textP flash p)
  else
    let plength := (textP flash p).length
    if plength = 0 then r  -- just ignore empty string
    else
      let prevCount := r.counter
      -- write the marker, then the address bytes LSB first
      let r := r.print [flashInsertMarker, UInt8.ofNat p, UInt8.ofNat (p / 256)]
      -- correct the buffer count to reflect the flash length, not the marker/addr.
      { r with counter := prevCount + plength }

/-! ## Reading -/

/-- `RingStream::readRawByte` -/
def readRawByte (r : RingStream) : UInt8 × RingStream :=
  (r.buffer r.posRead, { r with posRead := nextPos r.len r.posRead, overflow := false })

/-- `RingStream::read`: a byte, or `none` where it returns -1 for an empty ring. It starts again when
it has found an insert; a ring of `len` cells has less than `len` of them. -/
def readFrom (fuel : Nat) (r : RingStream) : Option UInt8 × RingStream :=
  match fuel with
  | 0 => (none, r)
  | n + 1 =>
    let fb := flash r.flashInsert
    if r.flashInsert ≠ 0 ∧ fb ≠ 0 then
      -- we have a byte from the flash
      (some fb, { r with flashInsert := r.flashInsert + 1 })
    else
      -- flash insert complete, clear and drop through to next buffer byte
      let r := { r with flashInsert := 0 }
      if r.posRead = r.posWrite ∧ r.overflow = false then (none, r)  -- empty
      else
        let (b, r) := r.readRawByte
        if b ≠ flashInsertMarker then (some b, r)
        else if wide then (some 63, r)  -- '?'
        else
          -- read address bytes LSB first
          let (low, r) := r.readRawByte
          let (high, r) := r.readRawByte
          readFrom n { r with flashInsert := high.toNat * 256 + low.toNat }

def read (r : RingStream) : Option UInt8 × RingStream := readFrom flash wide r.len r

/-- `RingStream::count` -/
def count (r : RingStream) : Nat × RingStream :=
  let (high, r) := r.readRawByte
  let (low, r) := r.readRawByte
  (high.toNat * 256 + low.toNat, r)

/-- `RingStream::freeSpace`: space is allowed for client flag and length bytes. -/
def freeSpace (r : RingStream) : Int :=
  if r.posWrite < r.posRead then r.posRead - r.posWrite - 3
  else r.len - r.posWrite + r.posRead - 3

/-! ## Messages -/

/-- `RingStream::mark`: the start of a message with its client id. -/
def mark (r : RingStream) (client : UInt8) : RingStream :=
  { ({ r with ringClient := client, markPos := r.posWrite }).print [client, 0, 0] with counter := 0 }

/-- `RingStream::peekTargetMark` -/
def peekTargetMark (r : RingStream) : UInt8 := r.ringClient

/-- `RingStream::commit`, and whether it worked. -/
def commit (r : RingStream) : RingStream × Bool :=
  let r := { r with flashInsert := 0 }  -- prepared for first read
  if r.overflow then
    -- just throw it away
    ({ r with posWrite := r.markPos, overflow := false }, false)
  else if r.counter = 0 then
    -- ignore empty response
    ({ r with posWrite := r.markPos, ringClient := noClient }, true)
  else
    -- Go back to the mark and inject the count 1 byte later
    let high := nextPos r.len r.markPos
    let low := nextPos r.len high
    ({ r with
      buffer := Function.update (Function.update r.buffer high (UInt8.ofNat (r.counter / 256))) low
        (UInt8.ofNat r.counter)
      markPos := low
      ringClient := noClient }, true)

/-- `RingStream::flush` -/
def flush (r : RingStream) : RingStream :=
  { r with
    posWrite := 0, posRead := 0, buffer := Function.update r.buffer 0 0, flashInsert := 0
    ringClient := noClient }

/-! ## Writers and readers -/

/-- What may be written to a message. -/
inductive Item where
  | byte (b : UInt8)
  | text (p : Nat)
  deriving DecidableEq, Repr

/-- An item is written. -/
def put (r : RingStream) : Item → RingStream
  | .byte b => (r.write b).1
  | .text p => r.printFlash flash wide p

/-- A message is written, from `mark` to `commit`. -/
def send (r : RingStream) (client : UInt8) (items : List Item) : RingStream × Bool :=
  (items.foldl (put flash wide) (r.mark client)).commit

/-- Some calls of `read`. -/
def readMany (r : RingStream) : Nat → List (Option UInt8) × RingStream
  | 0 => ([], r)
  | n + 1 =>
    let (b, r) := r.read flash wide
    let (bs, r) := readMany r n
    (b :: bs, r)

/-- Some calls of `readRawByte`. -/
def readRawBytes (r : RingStream) : Nat → List UInt8 × RingStream
  | 0 => ([], r)
  | n + 1 =>
    let (b, r) := r.readRawByte
    let (bs, r) := readRawBytes r n
    (b :: bs, r)

/-- A message as its reader gets it: the client, the count and the bytes. -/
structure Message where
  client : UInt8
  count : Nat
  bytes : List (Option UInt8)
  deriving DecidableEq, Repr

/-- A reader consumes a whole message, if there is one. -/
def receive (r : RingStream) : Option Message × RingStream :=
  match r.read flash wide with
  | (none, r) => (none, r)
  | (some client, r) =>
    let (n, r) := r.count
    let (bytes, r) := r.readMany flash wide n
    (some ⟨client, n, bytes⟩, r)

end RingStream

end CommandStation
