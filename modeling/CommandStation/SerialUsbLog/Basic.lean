import CommandStation.DCCEXParser.Values
import CommandStation.Lib.Rolling
import CommandStation.Lib.Run

/-!
# The log of the USB line

What is written to the USB line is also kept in a rolling buffer. A web page shows it: the page asks for
`/log?from=N&chunk=M` again and again, `N` being the number of the next byte it wants, and the reply has
the number to ask for next in its header and the bytes after the header. Nothing is stored about the page.
A reply that gets lost leaves the page where it was.

The page is that of the scripts in `SerialUsbLog.script1.js.h` and `SerialUsbLog.script2.js.h`. `tick` is an
async function: it asks, waits for the reply, and is called again when it is done, so one request is under
way at most; but bytes can be written and the page be cleared while it is. The text is that of the page's
`buf`; what the page makes visible of it is left out. The command that a page may send with its request is
run before the reply is made, so that what it writes to the line comes as bytes written before that.
-/

namespace CommandStation

open CommandStation.Lib

/-! ## `StringBuffer` -/

/-- `class StringBuffer`, with the text in `_buffer` up to `_pos_write`. -/
structure StringBuffer where
  bufferMax : Nat
  text : List UInt8
  deriving DecidableEq, Repr

namespace StringBuffer

/-- The buffer has room for a zero after its last byte. -/
def new (size : Nat) : StringBuffer := ⟨size - 2, []⟩

def flush (sb : StringBuffer) : StringBuffer := { sb with text := [] }

def write (sb : StringBuffer) (b : UInt8) : StringBuffer :=
  if sb.bufferMax ≤ sb.text.length then sb else { sb with text := sb.text ++ [b] }

def print (sb : StringBuffer) (bytes : List UInt8) : StringBuffer := bytes.foldl write sb

/-- `StringBuffer::getString`, as a string that ends at its first zero. -/
def getString (sb : StringBuffer) : List UInt8 := sb.text.takeWhile (· ≠ 0)

end StringBuffer

/-! ## `SerialUsbLog` -/

/-- `class SerialUsbLog`, and what was written to `_serialPort`. -/
structure SerialUsbLog where
  bufferSize : Nat
  posWrite : Nat
  overflow : Bool
  buffer : Nat → UInt8
  seqWrite : UInt32
  serialPort : List UInt8

namespace SerialUsbLog

def new (len : UInt16) : SerialUsbLog := ⟨len.toNat, 0, false, fun _ => 0, 0, []⟩

def shoveToBuffer (s : SerialUsbLog) (b : UInt8) : SerialUsbLog :=
  let s := if s.bufferSize ≤ s.posWrite then { s with overflow := true, posWrite := 0 } else s
  { s with
    buffer := Function.update s.buffer s.posWrite b
    posWrite := s.posWrite + 1
    seqWrite := s.seqWrite + 1 }

def write (s : SerialUsbLog) (b : UInt8) : SerialUsbLog :=
  { s with serialPort := s.serialPort ++ [b] }.shoveToBuffer b

@[simp] theorem serialPort_write (s : SerialUsbLog) (b : UInt8) :
    (s.write b).serialPort = s.serialPort ++ [b] := by
  unfold write shoveToBuffer
  dsimp only
  split <;> rfl

/-- `SerialUsbLog::streamOut` -/
def streamOut (s : SerialUsbLog) : List UInt8 :=
  if s.overflow then
    ((List.range (s.bufferSize - s.posWrite)).map fun i => s.buffer (s.posWrite + i)) ++
      (List.range s.posWrite).map s.buffer
  else (List.range s.posWrite).map s.buffer

/-- The number of the first byte that is still in the buffer. -/
def earliest (s : SerialUsbLog) : UInt32 :=
  let bufferSize := UInt32.ofNat s.bufferSize
  if bufferSize < s.seqWrite then s.seqWrite - bufferSize else 0

/-- Where to start and how many bytes there are, as `streamOutFrom` and the reply to `/log` both
find it. -/
def span (s : SerialUsbLog) (fromSeq maxBytes : UInt32) : UInt32 × UInt32 :=
  let start := if fromSeq < s.earliest then s.earliest else fromSeq
  let start := if s.seqWrite < start then s.seqWrite else start
  let available := s.seqWrite - start
  (start, if maxBytes < available then maxBytes else available)

/-- `SerialUsbLog::streamOutFrom`: the bytes, and `nextSeq`. -/
def streamOutFrom (s : SerialUsbLog) (fromSeq maxBytes : UInt32) : List UInt8 × UInt32 :=
  let (start, available) := s.span fromSeq maxBytes
  ((List.range available.toNat).map fun k =>
    s.buffer ((start + UInt32.ofNat k) % UInt32.ofNat s.bufferSize).toNat, start + available)

/-! ## The reply to `/log` -/

/-- The length of the global log. -/
def logBuffer : UInt16 := 8192

/-- `LOG_CHUNK_MAX` -/
def logChunkMax : Int32 := 1000

/-- The buffer that a reply is made in. -/
def dummyClient : StringBuffer := .new 2048

/-- `queryParamInt` of a number in the request: `toInt` stops at the ends of its range. -/
def queryParamInt (value : Int) : Int32 := Int32.ofInt (max (-2147483648) (min value 2147483647))

def limitChunk (chunk : Int32) : Int32 :=
  let chunk := if chunk < 64 then 64 else chunk
  if logChunkMax < chunk then logChunkMax else chunk

/-- The reply up to the number: a status line, the type of the text, that it is not to be stored, that the
connection will be closed, and `X-Next-Seq: `. -/
def replyHead : List UInt8 :=
  [72, 84, 84, 80, 47, 49, 46, 49, 32, 50, 48, 48, 32, 79, 75, 13, 10, 67, 111, 110, 116, 101, 110, 116,
   45, 84, 121, 112, 101, 58, 32, 116, 101, 120, 116, 47, 112, 108, 97, 105, 110, 59, 32, 99, 104, 97, 114,
   115, 101, 116, 61, 117, 116, 102, 45, 56, 13, 10, 67, 97, 99, 104, 101, 45, 67, 111, 110, 116, 114, 111,
   108, 58, 32, 110, 111, 45, 115, 116, 111, 114, 101, 13, 10, 67, 111, 110, 110, 101, 99, 116, 105, 111,
   110, 58, 32, 99, 108, 111, 115, 101, 13, 10, 88, 45, 78, 101, 120, 116, 45, 83, 101, 113, 58, 32]

def replyHeader (next : UInt32) : List UInt8 :=
  replyHead ++ DCCEXParser.decimal next.toNat ++ [13, 10, 13, 10]

/-- The `/log` branch of `SerialUsbLog::loop`: the number in the header, and what is sent. -/
def logReply (s : SerialUsbLog) (fromParam chunkParam : Int) : UInt32 × List UInt8 :=
  let fromSeq := (queryParamInt fromParam).toUInt32
  let chunk := (limitChunk (queryParamInt chunkParam)).toUInt32
  let (start, avail) := s.span fromSeq chunk
  let next := start + avail
  let client := dummyClient.flush.print (replyHeader next)
  (next, (client.print (s.streamOutFrom fromSeq chunk).1).getString)

end SerialUsbLog

/-! ## The page -/

/-- `seq` and `buf` of the page, the text as its bytes. -/
structure LogPage where
  seq : Nat
  buf : List UInt8
  deriving DecidableEq, Repr

namespace LogPage

def new : LogPage := ⟨0, []⟩

/-- `clearBtn.onclick` -/
def clear (_ : LogPage) : LogPage := ⟨0, []⟩

/-- The page gets a reply: the number in its header, and the text that comes after the header. -/
def receive (page : LogPage) (reply : UInt32 × List UInt8) : LogPage :=
  let nxt := reply.1.toNat
  let t := reply.2.drop (SerialUsbLog.replyHeader reply.1).length
  ⟨if nxt = 0 then page.seq else nxt, page.buf ++ t⟩

end LogPage

/-- What has become of the request of `tick`: there is none, it was sent with a number, or the reply to it
is on its way, made when so many bytes had been written. -/
inductive Fetch where
  | idle
  | asked (fromSeq : Nat)
  | replied (fromSeq written : Nat) (reply : UInt32 × List UInt8)

/-- The station with a page that shows its log. -/
structure LogView where
  log : SerialUsbLog
  page : LogPage
  fetch : Fetch

namespace LogView

inductive Event where
  | write (b : UInt8)
  /-- `tick` up to the `await`. A page that is paused does not ask. -/
  | ask
  /-- The station answers. -/
  | serve
  /-- The rest of `tick`. -/
  | arrive
  /-- The request or the reply gets lost. -/
  | lose
  | clear
  deriving DecidableEq, Repr

def init (len : UInt16) : LogView := ⟨.new len, .new, .idle⟩

/-- `tick` asks for the text from its number on. -/
def ask (v : LogView) : LogView :=
  match v.fetch with
  | .idle => { v with fetch := .asked v.page.seq }
  | _ => v

def serve (v : LogView) : LogView :=
  match v.fetch with
  | .asked fromSeq =>
    { v with fetch := .replied fromSeq v.log.serialPort.length (v.log.logReply fromSeq 2048) }
  | _ => v

def arrive (v : LogView) : LogView :=
  match v.fetch with
  | .replied _ _ reply => { v with page := v.page.receive reply, fetch := .idle }
  | _ => v

def step (v : LogView) : Event → LogView
  | .write b => { v with log := v.log.write b }
  | .ask => v.ask
  | .serve => v.serve
  | .arrive => v.arrive
  | .lose => { v with fetch := .idle }
  | .clear => { v with page := v.page.clear }

end LogView

end CommandStation
