import CommandStation.RingStream.Basic
import CommandStation.Websockets.Basic

/-!
# The ESP modem

`WifiInboundHandler` talks to a modem with AT commands. `loop2` takes the bytes of the modem one by
one: messages from clients (`+IPD,c,n:` and `n` bytes) go to the inbound ring, a `>` asks for the
reply that was announced with `AT+CIPSEND`, and `c,CONNECT` and `c,CLOSED` tell about clients. `loop1`
does the rest when no message is half read: it announces the next reply or executes the next message.

`bits` is the width of an `int`: 16 on the AVR boards and 32 on the others.
-/

namespace CommandStation

open RingStream

/-- `enum LOOP_STATE` -/
inductive LoopState where
  /-- ready for +IPD, n CLOSED, n CONNECTED, busy etc. -/
  | anything
  /-- skip to newline -/
  | skipToEnd
  | ipd
  | ipd1
  | ipd2
  | ipd3
  | ipd4Client
  | ipd5
  | ipd6Length
  | ipdData
  | ipdIgnoreData
  | ipdPrescan
  | ipdPostscan
  | gotClientId
  | gotClientId2
  deriving DecidableEq, Repr

/-- The members of `class WifiInboundHandler` and the static variable of `loop2`. -/
structure WifiInboundHandler where
  loopState : LoopState
  prescanPoint : Nat
  runningClientId : Int
  dataLength : Int
  clientPendingCIPSEND : Int
  currentReplySize : Nat
  pendingCipsend : Bool
  lastCIPSEND : UInt32
  inboundRing : RingStream
  outboundRing : RingStream

namespace WifiInboundHandler

/-- What is done outside the handler. -/
inductive Effect where
  /-- Bytes of a reply are written to the modem. -/
  | write (bytes : List UInt8)
  /-- `AT+CIPSEND=client,size` is written. -/
  | cipsend (client : UInt8) (size : Nat)
  /-- `CommandDistributor::forget` -/
  | forget (clientId : UInt8)
  /-- `CommandDistributor::parse` -/
  | parse (clientId : UInt8) (cmd : List UInt8)
  deriving DecidableEq, Repr

/-- The constructor. `inboundSize` and `outboundSize` are `INBOUND_RING` and `OUTBOUND_RING`. -/
def new (inboundSize outboundSize : Nat) : WifiInboundHandler where
  loopState := .anything
  prescanPoint := 0
  runningClientId := 0
  dataLength := 0
  clientPendingCIPSEND := -1
  currentReplySize := 0
  pendingCipsend := false
  lastCIPSEND := 0
  inboundRing := RingStream.new inboundSize
  outboundRing := RingStream.new outboundSize

/-- `WebSocketKeyName`, `Sec-WebSocket-Key: ` -/
def webSocketKeyName : List UInt8 :=
  [83, 101, 99, 45, 87, 101, 98, 83, 111, 99, 107, 101, 116, 45, 75, 101, 121, 58, 32]

def zeroDigit : UInt8 := 48

def newline : UInt8 := 10

/-- The value of an `int` of this width. -/
def int (bits : Nat) (x : Int) : Int := x.bmod (2 ^ bits)

/-- `ch - '0'` -/
def digit (ch : UInt8) : Int := (ch.toNat : Int) - 48

variable (flash : Nat → UInt8) (wide : Bool) (bits : Nat)

/-- `WifiInboundHandler::purgeCurrentCIPSEND` -/
def purgeCurrentCIPSEND (h : WifiInboundHandler) : WifiInboundHandler × List Effect :=
  ({ h with
      outboundRing := (h.outboundRing.readMany flash wide h.currentReplySize).2
      pendingCipsend := false
      clientPendingCIPSEND := -1 },
    [.forget (UInt8.ofInt h.clientPendingCIPSEND)])

/-- The reply is sent to the modem. A -1 of `read` is written as the byte 255. -/
def transmit (h : WifiInboundHandler) : WifiInboundHandler × List Effect :=
  let websocket := Websockets.marked h.clientPendingCIPSEND
  let header := if websocket then Websockets.outboundHeader h.currentReplySize else []
  let (bytes, ring) := h.outboundRing.readMany flash wide h.currentReplySize
  ({ h with
      outboundRing := ring
      clientPendingCIPSEND := -1
      pendingCipsend := false
      loopState := .skipToEnd },
    [.write (header ++ bytes.map (fun b => Websockets.outByte websocket (b.getD 255)))])

/-- The state `ANYTHING` of `loop2`. -/
def anything (now : UInt32) (h : WifiInboundHandler) (ch : UInt8) : WifiInboundHandler × List Effect :=
  if ch = 43 then ({ h with loopState := .ipd }, [])  -- '+'
  else if ch = 62 then h.transmit flash wide  -- '>'
  else if ch = 82 then ({ h with loopState := .skipToEnd }, [])  -- 'R': Received ... bytes
  else if ch = 83 then  -- 'S': SEND OK probably
    ({ h with loopState := .skipToEnd, lastCIPSEND := 0 }, [])
  else if ch = 98 then  -- 'b': a busy indicator, probably must restart a CIPSEND
    if 0 ≤ h.clientPendingCIPSEND then
      ({ h with pendingCipsend := true, lastCIPSEND := now, loopState := .skipToEnd }, [])
    else ({ h with pendingCipsend := false, loopState := .skipToEnd }, [])
  else if 48 ≤ ch ∧ ch ≤ 57 then
    ({ h with runningClientId := digit ch, loopState := .gotClientId }, [])
  else if ch = 69 ∨ ch = 108 then  -- 'E' or 'l': ERROR or "link is not valid"
    if 0 ≤ h.clientPendingCIPSEND then
      -- A CIPSEND was errored... just toss it away
      let (h, effects) := h.purgeCurrentCIPSEND flash wide
      ({ h with loopState := .skipToEnd }, effects)
    else ({ h with loopState := .skipToEnd }, [])
  else (h, [])

/-- The state `IPD6_LENGTH`. -/
def readLength (h : WifiInboundHandler) (ch : UInt8) : WifiInboundHandler :=
  if ch = 58 then  -- ':'
    if h.dataLength = 0 then { h with loopState := .anything }
    else if h.dataLength < 100 ∧ h.inboundRing.freeSpace ≤ h.dataLength + 1 then
      -- This input would overflow the inbound ring, ignore it
      { h with loopState := .ipdIgnoreData }
    else
      { h with
        inboundRing := h.inboundRing.mark (UInt8.ofInt h.runningClientId)
        prescanPoint := 0
        loopState := if 100 < h.dataLength then .ipdPrescan else .ipdData }
  else { h with dataLength := int bits (h.dataLength * 10 + digit ch) }

/-- The state `IPD_DATA`. -/
def readData (h : WifiInboundHandler) (ch : UInt8) : WifiInboundHandler :=
  let ring := (h.inboundRing.write ch).1
  if int bits (h.dataLength - 1) = 0 then
    { h with inboundRing := ring.commit.1, dataLength := int bits (h.dataLength - 1), loopState := .anything }
  else { h with inboundRing := ring, dataLength := int bits (h.dataLength - 1) }

/-- The state `IPD_PRESCAN`: when the last byte comes in, the message is given up before that byte is
compared. -/
def prescan (h : WifiInboundHandler) (ch : UInt8) : WifiInboundHandler :=
  let h := { h with dataLength := int bits (h.dataLength - 1) }
  let h := if h.dataLength = 0 then
      { h with inboundRing := h.inboundRing.commit.1, loopState := .anything }
    else h
  if ch ≠ webSocketKeyName.getD h.prescanPoint 0 then { h with prescanPoint := 0 }
  else
    -- matched the next char of the key
    let h := { h with prescanPoint := h.prescanPoint + 1 }
    if webSocketKeyName.getD h.prescanPoint 0 = 0 then
      -- prescan has detected full key
      { h with inboundRing := h.inboundRing.print webSocketKeyName, loopState := .ipdPostscan }
    else h

/-- The state `IPD_POSTSCAN`. -/
def postscan (h : WifiInboundHandler) (ch : UInt8) : WifiInboundHandler :=
  let ring := (h.inboundRing.write ch).1
  if ch = newline then
    { h with
      inboundRing := ring.commit.1, dataLength := int bits (h.dataLength - 1)
      loopState := .ipdIgnoreData }
  else { h with inboundRing := ring, dataLength := int bits (h.dataLength - 1) }

/-- The state `IPD_IGNORE_DATA`. -/
def ignoreData (h : WifiInboundHandler) : WifiInboundHandler :=
  { h with
    dataLength := int bits (h.dataLength - 1)
    loopState := if int bits (h.dataLength - 1) = 0 then .anything else .ipdIgnoreData }

/-- The loop of `loop2` for one byte of the modem, which comes at the time `now`. -/
def loop2 (now : UInt32) (h : WifiInboundHandler) (ch : UInt8) : WifiInboundHandler × List Effect :=
  match h.loopState with
  | .anything => h.anything flash wide now ch
  | .ipd => ({ h with loopState := if ch = 73 then .ipd1 else .skipToEnd }, [])
  | .ipd1 => ({ h with loopState := if ch = 80 then .ipd2 else .skipToEnd }, [])
  | .ipd2 => ({ h with loopState := if ch = 68 then .ipd3 else .skipToEnd }, [])
  | .ipd3 => ({ h with loopState := if ch = 44 then .ipd4Client else .skipToEnd }, [])
  | .ipd4Client =>
    if 48 ≤ ch ∨ ch ≤ 57 then ({ h with runningClientId := digit ch, loopState := .ipd5 }, [])
    else ({ h with loopState := .skipToEnd }, [])
  | .ipd5 =>
    ({ h with loopState := if ch = 44 then .ipd6Length else .skipToEnd, dataLength := 0 }, [])
  | .ipd6Length => (h.readLength bits ch, [])
  | .ipdData => (h.readData bits ch, [])
  | .ipdPrescan => (h.prescan bits ch, [])
  | .ipdPostscan => (h.postscan bits ch, [])
  | .ipdIgnoreData => (h.ignoreData bits, [])
  | .gotClientId => ({ h with loopState := if ch = 44 then .gotClientId2 else .skipToEnd }, [])
  | .gotClientId2 =>
    if ch = 67 then  -- 'C': CLOSE or CONNECTED, or CONNECT FAILED
      if h.runningClientId = h.clientPendingCIPSEND then
        let (h, effects) := h.purgeCurrentCIPSEND flash wide
        ({ h with loopState := .skipToEnd }, effects)
      else ({ h with loopState := .skipToEnd }, [.forget (UInt8.ofInt h.runningClientId)])
    else ({ h with loopState := .skipToEnd }, [])
  | .skipToEnd => ({ h with loopState := if ch = newline then .anything else .skipToEnd }, [])

/-- The next reply is taken out of the ring if none is pending. -/
def nextReply (h : WifiInboundHandler) : WifiInboundHandler :=
  if h.clientPendingCIPSEND < 0 then
    match h.outboundRing.read flash wide with
    | (none, ring) => { h with outboundRing := ring, clientPendingCIPSEND := -1 }
    | (some client, ring) =>
      { h with
        outboundRing := ring.count.2
        clientPendingCIPSEND := client.toNat
        currentReplySize := ring.count.1
        pendingCipsend := true }
  else h

/-- `CIPSENDgap` -/
def cipsendGap : UInt32 := 100

/-- What `loop1` does when `loop2` is idle. -/
def loop1 (now : UInt32) (h : WifiInboundHandler) : WifiInboundHandler × List Effect :=
  let h := h.nextReply flash wide
  if h.pendingCipsend ∧ cipsendGap < now - h.lastCIPSEND then
    let websocket := Websockets.marked h.clientPendingCIPSEND
    let realSize := if websocket then
        h.currentReplySize + Websockets.getOutboundHeaderSize h.currentReplySize
      else h.currentReplySize
    ({ h with pendingCipsend := false },
      [.cipsend (Websockets.unmarked h.clientPendingCIPSEND) realSize])
  else
    -- if something waiting to execute, we can call it
    match h.inboundRing.read flash wide with
    | (none, ring) => ({ h with inboundRing := ring }, [])
    | (some clientId, ring) =>
      let (cmd, ring) := ring.count.2.readRawBytes ring.count.1
      ({ h with inboundRing := ring }, [.parse clientId cmd])

/-- The handler after some bytes. The time matters to the next `AT+CIPSEND` only. -/
def after (now : UInt32) (h : WifiInboundHandler) (chs : List UInt8) : WifiInboundHandler :=
  chs.foldl (fun h ch => (h.loop2 flash wide bits now ch).1) h

end WifiInboundHandler

end CommandStation
