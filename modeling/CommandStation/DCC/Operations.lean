import CommandStation.DCCDecoder.Basic
import CommandStation.WiThrottle.Basic

/-!
# The operations of the station

`Op` are the calls that the rest of the command station (parsers, EXRAIL, the main loop) makes to
the parts modelled here, with their arguments and the clock they read. A history of the station is
a list of them.
-/

namespace CommandStation

open CommandStation.Lib

inductive Op where
  | setThrottle (cab : UInt16) (tSpeed : UInt8) (tDirection : Bool) (now : UInt32)
  | setFn (cab : Int) (functionNumber : Int16) (on : Bool)
  | setDCFreq (cab : Int) (freq : UInt8)
  | setMomentum (locoId : Int) (accelerating decelerating : Int16)
  | estopAll
  | estopLock (lock : Bool)
  | loop (windowOpen : Bool) (pendingAt remindAt forcedAt : UInt32)
  | forgetLoco (cab : Int)
  | forgetAllLocos
  | parseConsist (ps : List Int16)
  | addLocoToConsist (consistId locoId : UInt16) (reversed : Bool)
  | deleteAnyConsist (locoid : Int16)
  | setAccessory (address : Int) (port : UInt8) (gate : Bool) (onoff : UInt8)
  | setTrackMode (track : Nat) (mode : UInt8) (dcAddr : Int16) (offAtChange : Bool)
  | setTrackPower (trackmodeToMatch : UInt8) (powermode : PowerMode)
  | setPowerOfTrack (powermode : PowerMode) (track : Nat)
  | setDCSignal (cab : Int16) (speedbyte : UInt8)
  | decoderOnOff (on : Bool)
  | decode (packet : DCCPacket) (now : UInt32)
  | addThrottleLoco (client : WiThrottle) (throttleChar lengthChar : Char) (locoid : Int)

namespace Op

/-- The call and whether it reports success; calls that return nothing count as successful. -/
def exec : Op → Dcc Bool
  | setThrottle cab tSpeed tDirection now => DCC.setThrottle cab tSpeed tDirection now
  | setFn cab functionNumber on => DCC.setFn cab functionNumber on
  | setDCFreq cab freq => do DCC.setDCFreq cab freq; pure true
  | setMomentum locoId accelerating decelerating =>
    DCC.setMomentum locoId accelerating decelerating
  | estopAll => do DCC.estopAll; pure true
  | estopLock lock => do DCC.estopLock lock; pure true
  | loop windowOpen pendingAt remindAt forcedAt => do
    DCC.loop windowOpen pendingAt remindAt forcedAt
    pure true
  | forgetLoco cab => do DCC.forgetLoco cab; pure true
  | forgetAllLocos => do DCC.forgetAllLocos; pure true
  | parseConsist ps => do
    let r ← onSlots (DCCConsist.parse ps)
    pure r.1
  | addLocoToConsist consistId locoId reversed =>
    onSlots (DCCConsist.addLocoToConsist consistId locoId reversed)
  | deleteAnyConsist locoid => do
    onSlots (DCCConsist.deleteAnyConsist locoid)
    pure true
  | setAccessory address port gate onoff => do
    DCC.setAccessory address port gate onoff
    pure true
  | setTrackMode track mode dcAddr offAtChange =>
    TrackManager.setTrackMode track mode dcAddr offAtChange
  | setTrackPower trackmodeToMatch powermode => do
    TrackManager.setTrackPower trackmodeToMatch powermode
    pure true
  | setPowerOfTrack powermode track => do
    TrackManager.setPowerOfTrack powermode track
    pure true
  | setDCSignal cab speedbyte => do
    TrackManager.setDCSignal cab speedbyte
    pure true
  | decoderOnOff on => do
    modify fun s => { s with decoderActive := on }
    pure true
  | decode packet now => DCCDecoder.parse packet now
  | addThrottleLoco client throttleChar lengthChar locoid => do
    let r ← WiThrottle.addLoco client throttleChar lengthChar locoid
    pure r.2.1

end Op

/-- The station can be in this state: a history leads to it. -/
def Reachable (s : Station) : Prop :=
  ∃ platform maxLocos brakePins ops,
    runProg Op.exec ops (Station.init platform maxLocos brakePins) = .ok ((), s)

end CommandStation
