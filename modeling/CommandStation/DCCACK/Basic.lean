import CommandStation.DCC.Basic
import CommandStation.Lib.Run

/-!
# Programming decoders

A decoder on the programming track answers an instruction with a pulse of current or not at all.
What is done with the answers is written down in ack programs, byte codes that `DCCACK::loop`
interprets. One turn of its `while` is `DCCACK.turn`: an opcode that has to wait leaves everything as
it is and is tried again in a later call of `loop`. An opcode that calls back is repeated as well until
`callback` has gone through its states: the power must be stable for a while after a write and must be
off for a moment before the tracks are joined again.

The resets that the waveform has sent since the last packet, the answer of the decoder and the clock
are inputs of a turn. `Attempt` is a history variable: what was sent and answered since the program was
started, or started again.

Operands stand in the opcode that takes them. None of them has the code of `SKIPTARGET`, which is what a
skip looks for, byte by byte. Diagnostics and the sum of all retries are left out.
-/

namespace CommandStation

open CommandStation.Lib

/-! ## Tracks -/

/-- What programming needs of `class MotorDriver`. -/
structure ProgDriver where
  trackMode : UInt8
  powerMode : PowerMode
  canMeasureCurrent : Bool
  deriving DecidableEq, Repr

/-- What programming needs of `class TrackManager`. `tempProgTrack` is used on the ESP32 only. -/
structure ProgTracks where
  platform : Platform
  track : List ProgDriver
  progTrackSyncMain : Bool
  tempProgTrack : Option Nat
  deriving DecidableEq, Repr

namespace ProgTracks

def isJoined (s : ProgTracks) : Bool := s.progTrackSyncMain

def getProgDriver (s : ProgTracks) : Option Nat :=
  s.track.findIdx? fun driver => TrackMode.has driver.trackMode TrackMode.prog

/-- `track[t]->setPower(mode)` -/
def setPower (s : ProgTracks) (t : Nat) (mode : PowerMode) : ProgTracks :=
  { s with track := s.track.modify t fun driver => { driver with powerMode := mode } }

/-- `track[t]->getPower()` -/
def power (s : ProgTracks) (t : Nat) : Option PowerMode := s.track[t]?.map ProgDriver.powerMode

/-- Only allow 1 track to be prog. -/
def revokeProg (s : ProgTracks) (trackToSet : Nat) : ProgTracks :=
  { s with
    track := s.track.mapIdx fun t driver =>
      if TrackMode.has driver.trackMode TrackMode.prog && t != trackToSet then
        { driver with powerMode := .off, trackMode := TrackMode.none }
      else driver }

/-- `setTrackMode(trackToSet, mode, 0, false)` for the modes `TRACK_MODE_MAIN` and
`TRACK_MODE_PROG`, as `setJoin` uses it. -/
def setTrackMode (s : ProgTracks) (trackToSet : Nat) (mode : UInt8) : ProgTracks :=
  match s.track[trackToSet]? with
  | none => s
  | some driver =>
    let oldmode := driver.trackMode
    let s := if TrackMode.has mode TrackMode.prog then s.revokeProg trackToSet else s
    let s := { s with
      track := s.track.modify trackToSet fun driver => { driver with trackMode := mode } }
    -- if we just take away the prog track, the join should not be active either
    if s.platform = .esp32 ∧ s.tempProgTrack = some trackToSet ∧
        TrackMode.has oldmode TrackMode.main ∧ ¬ TrackMode.has mode TrackMode.prog then
      { s with tempProgTrack := none, progTrackSyncMain := false }
    else s

def setJoin (s : ProgTracks) (joined : Bool) : ProgTracks :=
  if s.platform = .esp32 then
    if joined then
      match s.getProgDriver with
      | none => s  -- no prog track found, can not do more
      | some t =>
        { ({ s with tempProgTrack := some t }).setTrackMode t TrackMode.main with
          progTrackSyncMain := true }
    else
      match s.tempProgTrack with
      | none => { s with progTrackSyncMain := false }
      | some t =>
        { s.setTrackMode t TrackMode.prog with tempProgTrack := none, progTrackSyncMain := false }
  else { s with progTrackSyncMain := joined }

/-- Unjoin if necessary. -/
def unjoined (s : ProgTracks) : ProgTracks := if s.isJoined then s.setJoin false else s

end ProgTracks

/-! ## Programs -/

/-- `enum ackOp` -/
inductive AckOp where
  | baseline          -- ensure enough resets sent before starting and obtain baseline current
  | w0 | w1           -- issue write bit (0..1) packet
  | wb                -- issue write byte packet
  | vb                -- issue validate byte packet
  | v0 | v1           -- issue validate bit packet
  | wack              -- wait for ack (or absence of ack)
  | itc1              -- if true callback(1)
  | itc0              -- if true callback(0)
  | itcb              -- if true callback(byte)
  | itcbv             -- if true callback(byte), end of verify byte
  | itcb7             -- if true callback(byte & 0x7F)
  | nakfail           -- if false callback(-1)
  | callfail          -- callback(-1)
  | biv               -- set ackManagerByte to initial value for verify retry
  | startmerge        -- clear bit and byte settings ready for merge pass
  | merge             -- merge previous wack response with byte value and decrement bit number
  | setbit (bit : UInt8)
  | setcv (cv : UInt8)
  | setbyte (byte : UInt8)
  | setbyteh          -- sets current byte to word high byte
  | setbytel          -- sets current byte to word low byte
  | stashlocoid       -- keeps current byte value for later
  | combinelocoid     -- combines current value with stashed value and returns it
  | itskip            -- skip to SKIPTARGET if ack true
  | nakskip           -- skip to SKIPTARGET if ack false
  | combine1920       -- combine cvs 19 and 20 and callback
  | bad20skip         -- skip to SKIPTARGET if cv20 is >120
  | failIfNonzeroNak  -- fail if writing long address to decoder that cant support it
  | skiptarget
  deriving DecidableEq, Repr

/-- `enum CALLBACK_STATE` -/
inductive CallbackState where
  | afterRead | afterWrite | waiting100 | waiting30 | ready
  deriving DecidableEq, Repr

/-- What the opcodes work on. Of the `int`s `ackManagerCv` and `ackManagerWord` only 16 bits are
looked at. -/
structure AckRegisters where
  ackManagerCv : UInt16
  ackManagerWord : UInt16
  ackManagerByte : UInt8
  ackManagerByteVerify : UInt8
  ackManagerStash : UInt8
  ackManagerBitNum : UInt8
  ackReceived : Bool
  deriving DecidableEq, Repr

/-- The packets sent since the program was started, and the answers it has got. -/
structure Attempt where
  packets : List (List UInt8)
  acks : List Bool
  deriving DecidableEq, Repr

/-- `class DCCACK` and the tracks. The callbacks are of a type `κ`; `calls` are the callbacks made so
far, with their results. -/
structure DCCACK (κ : Type) where
  tracks : ProgTracks
  progDriver : Option Nat
  ackManagerProg : Option (List AckOp)
  ackManagerProgStart : List AckOp
  registers : AckRegisters
  ackManagerRetry : UInt8
  ackRetry : UInt8
  ackManagerRejoin : Bool
  autoPowerOff : Bool
  callbackState : CallbackState
  callbackStart : UInt32
  ackManagerCallback : κ
  attempt : Attempt
  past : List Attempt
  calls : List (κ × Int16)

/-- What a turn of the interpreter may find: the resets since the last packet, what `getAck` says
(`none` while it is still waiting) and the clock. -/
structure AckInput where
  resets : UInt8
  ack : Option Bool
  millis : UInt32
  deriving DecidableEq, Repr

namespace DCC

def cv1 (opcode : UInt8) (cv : UInt16) : UInt8 := (((cv - 1) >>> 8).toUInt8 &&& 0x03) ||| opcode

def cv2 (cv : UInt16) : UInt8 := (cv - 1).toUInt8

/-- `LONG_ADDR_MARKER` -/
def longAddrMarker : UInt16 := 0x4000

end DCC

namespace AckRegisters

/-- The message of `W0` and `W1`. -/
def writeBit (r : AckRegisters) (on : Bool) : List UInt8 :=
  [DCC.cv1 0x78 r.ackManagerCv, DCC.cv2 r.ackManagerCv,
    0xF0 ||| (if on then 0x08 else 0x00) ||| r.ackManagerBitNum]

/-- The message of `WB`. -/
def writeByte (r : AckRegisters) : List UInt8 :=
  [DCC.cv1 0x7C r.ackManagerCv, DCC.cv2 r.ackManagerCv, r.ackManagerByte]

/-- The message of `VB`. -/
def verifyByte (r : AckRegisters) : List UInt8 :=
  [DCC.cv1 0x74 r.ackManagerCv, DCC.cv2 r.ackManagerCv, r.ackManagerByte]

/-- The message of `V0` and `V1`. -/
def verifyBit (r : AckRegisters) (on : Bool) : List UInt8 :=
  [DCC.cv1 0x78 r.ackManagerCv, DCC.cv2 r.ackManagerCv,
    0xE0 ||| (if on then 0x08 else 0x00) ||| r.ackManagerBitNum]

/-- The value of `COMBINELOCOID`. A callback takes 16 bits of it, and no value but -1 has the 16 bits
of -1. -/
def combineLocoId (r : AckRegisters) : Int16 :=
  (DCC.longAddrMarker |||
    (r.ackManagerByte.toUInt16 + ((r.ackManagerStash.toUInt16 - 192) <<< 8))).toInt16

/-- The value of `COMBINE1920`, with the byte as it is then. -/
def combine1920 (r : AckRegisters) : Int16 :=
  (r.ackManagerStash.toUInt16 * 100 + r.ackManagerByte.toUInt16).toInt16

end AckRegisters

namespace DCCACK

variable {κ : Type}

/-- `RESET_MIN`: tuning of reset counter before sending message. -/
def resetMin : UInt8 := 8

def isActive (s : DCCACK κ) : Bool := s.ackManagerProg.isSome

/-- `progDriver->getPower()` -/
def getPower (s : DCCACK κ) : Option PowerMode := s.progDriver.bind s.tracks.power

/-- `progDriver->setPower(mode)` -/
def setPower (s : DCCACK κ) (mode : PowerMode) : DCCACK κ :=
  { s with tracks := s.progDriver.elim s.tracks fun t => s.tracks.setPower t mode }

/-- Auto prog power on, with power off afterwards. -/
def autoPowerOn (s : DCCACK κ) : DCCACK κ :=
  if s.getPower = some .off then { s.setPower .on with autoPowerOff := true }
  else { s with autoPowerOff := false }

/-- The program and what it works on. -/
def load (s : DCCACK κ) (cv : UInt16) (byteValueOrBitnum : UInt8) (program : List AckOp)
    (callback : κ) : DCCACK κ :=
  { s with
    ackManagerProg := some program
    ackManagerProgStart := program
    ackManagerRetry := s.ackRetry
    registers := { s.registers with
      ackManagerCv := cv
      ackManagerByte := byteValueOrBitnum
      ackManagerByteVerify := byteValueOrBitnum
      ackManagerBitNum := byteValueOrBitnum }
    ackManagerCallback := callback
    attempt := ⟨[], []⟩
    past := [] }

/-- `DCCACK::Setup` -/
def setup (s : DCCACK κ) (cv : UInt16) (byteValueOrBitnum : UInt8) (program : List AckOp)
    (callback : κ) : DCCACK κ :=
  let s := { s with
    ackManagerRejoin := s.tracks.isJoined
    tracks := s.tracks.unjoined
    progDriver := s.tracks.unjoined.getProgDriver }
  match s.progDriver with
  | none =>  -- we dont have a prog track!
    { s with
      tracks := if s.ackManagerRejoin then s.tracks.setJoin false else s.tracks
      calls := s.calls ++ [(callback, -3)] }
  | some progDriver =>
    if s.tracks.track[progDriver]?.any ProgDriver.canMeasureCurrent then
      s.autoPowerOn.load cv byteValueOrBitnum program callback
    else  -- our prog track cant measure current
      { s with
        tracks := s.tracks.setJoin s.ackManagerRejoin
        calls := s.calls ++ [(callback, -2)] }

/-- `DCCACK::Setup` with a word. -/
def setupWord (s : DCCACK κ) (wordval : UInt16) (program : List AckOp) (callback : κ) : DCCACK κ :=
  { s with registers := { s.registers with ackManagerWord := wordval } }.setup 0 0 program callback

/-- Rule 2: If we are re-joining the main track we must power off for 30mS. -/
def off30ms (s : DCCACK κ) (millis : UInt32) : DCCACK κ :=
  { s.setPower .off with callbackStart := millis, callbackState := .waiting30 }

/-- The tracks as they are left. -/
def restored (s : DCCACK κ) : ProgTracks :=
  -- power off if we powered it on
  let tracks := if s.autoPowerOff then (s.setPower .off).tracks else s.tracks
  -- restore <1 JOIN> to state before BASELINE
  if s.ackManagerRejoin then tracks.setJoin true else tracks

/-- Ready after read, or write after power delay and off period. -/
def complete (s : DCCACK κ) (value : Int16) : DCCACK κ :=
  { s with
    tracks := s.restored
    ackManagerProg := none  -- no more steps to execute
    calls := s.calls ++ [(s.ackManagerCallback, value)] }

/-- We are about to leave programming mode: the `switch` of `callback`. -/
def leave (s : DCCACK κ) (value : Int16) (millis : UInt32) : DCCACK κ :=
  match s.callbackState with
  | .afterRead =>
    if s.ackManagerRejoin && !s.autoPowerOff then s.off30ms millis
    else { s with callbackState := .ready }
  | .afterWrite =>  -- first attempt to callback after a write operation
    if !s.ackManagerRejoin && !s.autoPowerOff then { s with callbackState := .ready }
    else { s with callbackStart := millis, callbackState := .waiting100 }
  | .waiting100 =>
    if millis - s.callbackStart < 100 then s
    -- stable after power maintained for 100mS
    else if s.autoPowerOff then { s with callbackState := .ready }
    else s.off30ms millis  -- need to cycle power off and on
  | .waiting30 =>
    if millis - s.callbackStart < 30 then s
    else { s.setPower .on with callbackState := .ready }
  | .ready => s.complete value

/-- `DCCACK::callback` -/
def callback (s : DCCACK κ) (value : Int16) (millis : UInt32) : DCCACK κ :=
  if value = -1 ∧ 0 < s.ackManagerRetry then  -- check for automatic retry
    { s with
      ackManagerRetry := s.ackManagerRetry - 1
      ackManagerProg := some s.ackManagerProgStart
      attempt := ⟨[], []⟩
      past := s.past ++ [s.attempt] }
  else s.leave value millis

/-- Step to the next prog entry. -/
def goTo (s : DCCACK κ) (rest : List AckOp) : DCCACK κ := { s with ackManagerProg := some rest }

/-- Schedule the packet and wait for the answer, unless there have not been enough resets. -/
def send (s : DCCACK κ) (i : AckInput) (message : List UInt8) (rest : List AckOp) : DCCACK κ :=
  if i.resets < resetMin then s
  else { s with
    attempt := { s.attempt with packets := s.attempt.packets ++ [message] } }.goTo rest

/-- The same with the state after a write. -/
def sendWrite (s : DCCACK κ) (i : AckInput) (message : List UInt8) (rest : List AckOp) :
    DCCACK κ :=
  if i.resets < resetMin then s
  else { s with
    attempt := { s.attempt with packets := s.attempt.packets ++ [message] }
    callbackState := .afterWrite }.goTo rest

/-- Skip opcodes until SKIPTARGET found, and step over it. -/
def skipped (rest : List AckOp) : List AckOp :=
  (rest.dropWhile fun op => op != .skiptarget).drop 1

/-- Call back if the condition holds. -/
def callbackIf (s : DCCACK κ) (i : AckInput) (condition : Bool) (value : Int16)
    (rest : List AckOp) : DCCACK κ :=
  if condition then s.callback value i.millis else s.goTo rest

/-- The opcode `op`, in front of `rest`. -/
def execute (s : DCCACK κ) (i : AckInput) (op : AckOp) (rest : List AckOp) : DCCACK κ :=
  let r := s.registers
  match op with
  | .baseline =>
    if s.getPower = some .overload then s
    else if i.resets < (if s.autoPowerOff || s.ackManagerRejoin then 20 else 3) then s
    else { s with callbackState := .afterRead }.goTo rest
  | .w0 => s.sendWrite i (r.writeBit false) rest
  | .w1 => s.sendWrite i (r.writeBit true) rest
  | .wb => s.sendWrite i r.writeByte rest
  | .vb => s.send i r.verifyByte rest
  | .v0 => s.send i (r.verifyBit false) rest
  | .v1 => s.send i (r.verifyBit true) rest
  | .wack =>
    match i.ack with
    | none => s  -- keep polling
    | some ack => { s with
        registers := { r with ackReceived := ack }
        attempt := { s.attempt with acks := s.attempt.acks ++ [ack] } }.goTo rest
  | .itc0 => s.callbackIf i r.ackReceived 0 rest
  | .itc1 => s.callbackIf i r.ackReceived 1 rest
  | .itcb => s.callbackIf i r.ackReceived r.ackManagerByte.toUInt16.toInt16 rest
  | .itcbv => s.callbackIf i r.ackReceived r.ackManagerByte.toUInt16.toInt16 rest
  | .itcb7 => s.callbackIf i r.ackReceived (r.ackManagerByte &&& 0x7F).toUInt16.toInt16 rest
  | .nakfail => s.callbackIf i (!r.ackReceived) (-1) rest
  | .callfail => s.callback (-1) i.millis
  | .biv => { s with registers := { r with ackManagerByte := r.ackManagerByteVerify } }.goTo rest
  | .startmerge =>
    { s with registers := { r with ackManagerBitNum := 7, ackManagerByte := 0 } }.goTo rest
  | .merge =>
    { s with registers := { r with
        -- ackReceived means bit is zero
        ackManagerByte := (r.ackManagerByte <<< 1) ||| (if !r.ackReceived then 1 else 0)
        ackManagerBitNum := r.ackManagerBitNum - 1 } }.goTo rest
  | .setbit bit => { s with registers := { r with ackManagerBitNum := bit } }.goTo rest
  | .setcv cv => { s with registers := { r with ackManagerCv := cv.toUInt16 } }.goTo rest
  | .setbyte byte => { s with registers := { r with ackManagerByte := byte } }.goTo rest
  | .setbyteh =>
    { s with registers := { r with
        ackManagerByte := (r.ackManagerWord >>> 8).toUInt8 } }.goTo rest
  | .setbytel =>
    { s with registers := { r with ackManagerByte := r.ackManagerWord.toUInt8 } }.goTo rest
  | .stashlocoid =>
    { s with registers := { r with ackManagerStash := r.ackManagerByte } }.goTo rest
  | .combinelocoid => s.callback r.combineLocoId i.millis
  | .combine1920 =>
    -- ignore direction marker, take last 2 decimal digits
    let r := { r with ackManagerByte := (r.ackManagerByte &&& 0x7F) % 100 }
    { s with registers := r }.callback r.combine1920 i.millis
  | .itskip => if !r.ackReceived then s.goTo rest else s.goTo (skipped rest)
  | .nakskip => if r.ackReceived then s.goTo rest else s.goTo (skipped rest)
  | .bad20skip => if 120 < r.ackManagerByte then s.goTo (skipped rest) else s.goTo rest
  | .failIfNonzeroNak =>
    if r.ackManagerByte = 0 then s.goTo rest else s.callback (-4) i.millis
  | .skiptarget => s.goTo rest

/-- One turn of the `while` in `DCCACK::loop`. No program is left at its end. -/
def turn (s : DCCACK κ) (i : AckInput) : DCCACK κ :=
  match s.ackManagerProg with
  | some (op :: rest) => s.execute i op rest
  | some [] => s
  | none => s

end DCCACK

end CommandStation
