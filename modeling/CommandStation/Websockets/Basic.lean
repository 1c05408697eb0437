import Mathlib.Data.List.Basic

/-!
# Websocket clients

The output for a websocket client is flagged in the client byte of its message. Whoever transmits it
writes a header first and replaces the newlines, which some browsers do not take.
-/

namespace CommandStation

namespace Websockets

/-- `WEBSOCK_CLIENT_MARKER` -/
def websockClientMarker : UInt8 := 0x80

/-- `client & WEBSOCK_CLIENT_MARKER` of an `int`. It is set in -1. -/
def marked (client : Int) : Bool := decide (128 ≤ client % 256)

/-- `client & ~WEBSOCK_CLIENT_MARKER`, as a byte. -/
def unmarked (client : Int) : UInt8 := UInt8.ofNat (client % 128).toNat

/-- `Websockets::getOutboundHeaderSize` -/
def getOutboundHeaderSize (dataLength : Nat) : Nat := if 126 ≤ dataLength then 4 else 2

/-- `Websockets::fillOutboundHeader`, which `writeOutboundHeader` writes: text opcode, flag (126: use
2 length bytes, no mask bit), length. -/
def outboundHeader (dataLength : Nat) : List UInt8 :=
  if dataLength < 126 then [0x81, UInt8.ofNat dataLength]
  else [0x81, 126, UInt8.ofNat (dataLength / 256), UInt8.ofNat dataLength]

/-- A byte of the payload as it is transmitted. -/
def outByte (websocket : Bool) (b : UInt8) : UInt8 := if websocket ∧ b = 10 then 13 else b

/-- `strstr`: what follows the first occurrence of a word. -/
def strstr (word : List UInt8) : List UInt8 → Option (List UInt8)
  | [] => if word = [] then some [] else none
  | b :: bs =>
    if word.isPrefixOf (b :: bs) then some ((b :: bs).drop word.length) else strstr word bs

/-- `Sec-WebSocket-Key: ` -/
def keyName : List UInt8 :=
  [83, 101, 99, 45, 87, 101, 98, 83, 111, 99, 107, 101, 116, 45, 75, 101, 121, 58, 32]

/-- The key in the request of a client that wants to use websockets, as `checkConnectionString` finds
it. The request is a C string, and the key ends at the next return. -/
def connectionKey (cmd : List UInt8) : Option (List UInt8) :=
  match strstr keyName (cmd.takeWhile (· ≠ 0)) with
  | none => none
  | some rest => if 13 ∈ rest then some (rest.takeWhile (· ≠ 13)) else none

/-- What `unmask` makes of the input of a websocket client. -/
inductive Unmasked where
  /-- A ping or a close: this is sent back. -/
  | reply (bytes : List UInt8)
  | unknown
  | payload (bytes : List UInt8)
  deriving DecidableEq, Repr

/-- The payload length of a frame has two bytes of its own. -/
def extended (buffer : List UInt8) : Bool := 126 ≤ (buffer.getD 1 0 &&& 0x7f)

/-- Where the mask is. -/
def maskAt (buffer : List UInt8) : Nat := if extended buffer then 4 else 2

/-- `int16_t payloadLength` -/
def payloadLength (buffer : List UInt8) : Int16 :=
  if extended buffer then
    ((buffer.getD 2 0).toUInt16 <<< 8 ||| (buffer.getD 3 0).toUInt16).toInt16
  else (buffer.getD 1 0 &&& 0x7f).toUInt16.toInt16

/-- `Websockets::unmask`. The reply to a ping is the ping itself, printed as a C string, and the payload
is what the parser is given, up to the end of the buffer. -/
def unmask (buffer : List UInt8) : Unmasked :=
  let opcode := buffer.getD 0 0
  if opcode = 0x89 then .reply ((0x8a :: buffer.drop 1).takeWhile (· ≠ 0))
  else if opcode = 0x88 then .reply [0x88, 0x00]
  else if opcode ≠ 0x81 then .unknown
  else .payload ((buffer.drop (maskAt buffer + 4)).mapIdx fun i b =>
    if i < (payloadLength buffer).toInt.toNat then b ^^^ buffer.getD (maskAt buffer + i % 4) 0
    else b)

end Websockets

end CommandStation
