import CommandStation.DCC.Basic
import CommandStation.DCCEXParser.KeywordHasher

/-!
# Track modes and the join of the prog track

`TrackManager` gives every track of the motor shield a mode. While the prog track is joined it runs
as a main track: on most boards the waveform of the main track is put on it, on the ESP32 its mode
is changed to `MAIN` and `tempProgTrack` remembers which track it was. `DCCACK` takes a join back
before it programs, and renews it afterwards.

The station is a build with programming support (`DISABLE_PROG` is not defined). Not in the model:
pins, the join relay, the High Accuracy waveform, broadcasts.
-/

namespace CommandStation

open CommandStation.Lib

namespace TrackMode

def boost : UInt8 := 32
def modifierInv : UInt8 := 64
def modifierAuto : UInt8 := 128

end TrackMode

/-- The station with the statics the join works on. `boosterInput` says that `BOOSTER_INPUT` is
defined. `tempProgTrack` is `none` for `MAX_TRACKS+1`; `progDriver`, `autoPowerOff` and
`ackManagerRejoin` are those of `DCCACK`. -/
structure JoinStation where
  station : Station
  boosterInput : Bool
  progTrackSyncMain : Bool
  tempProgTrack : Option Nat
  progDriver : Option Nat
  autoPowerOff : Bool
  ackManagerRejoin : Bool

/-- The statics at start-up. -/
def JoinStation.init (station : Station) (boosterInput : Bool) : JoinStation where
  station := station
  boosterInput := boosterInput
  progTrackSyncMain := false
  tempProgTrack := none
  progDriver := none
  autoPowerOff := false
  ackManagerRejoin := false

abbrev Joins (α : Type) : Type := Prog JoinStation Fault α

namespace JoinStation

/-- A program of the station. -/
def onStation {α : Type} (m : Dcc α) : Joins α :=
  zoom JoinStation.station (fun s station => { s with station := station }) m

/-- `MAX_TRACKS` -/
def maxTracks : Int16 := 8

/-- The mode of a track, 0 if there is no such track. -/
def getMode (s : JoinStation) (t : Nat) : UInt8 := (s.station.tracks[t]?).elim 0 MotorDriver.trackMode

/-- `TrackManager::setTrackMode`. The part after the mode has been set, which is compiled for the
ESP32 only, looks at the mode the track had before. -/
def setTrackMode (trackToSet : Nat) (mode : UInt8) (dcAddr : Int16) (offAtChange : Bool) :
    Joins Bool := do
  let s ← get
  let oldmode := s.getMode trackToSet
  let ok ← onStation (TrackManager.setTrackMode trackToSet mode dcAddr offAtChange)
  -- If we just take away the prog track, the join should not be active either.
  when (ok = true ∧ s.station.platform = .esp32 ∧ s.tempProgTrack = some trackToSet ∧
      TrackMode.has oldmode TrackMode.main = true ∧ TrackMode.has mode TrackMode.prog = false)
    (modify fun s => { s with tempProgTrack := none, progTrackSyncMain := false })
  pure ok

/-- `TrackManager::getProgDriver` -/
def getProgDriver (s : JoinStation) : Option Nat :=
  s.station.tracks.findIdx? fun driver => TrackMode.has driver.trackMode TrackMode.prog

/-- `TrackManager::setJoin` -/
def setJoin (joined : Bool) : Joins Unit := do
  let s ← get
  if s.station.platform ≠ .esp32 then
    modify fun s => { s with progTrackSyncMain := joined }
  else if joined then
    match s.getProgDriver with
    | none => pure ()  -- no prog track found, can not do more
    | some t =>
      modify fun s => { s with tempProgTrack := some t }
      let _ ← setTrackMode t TrackMode.main 0 false
      modify fun s => { s with progTrackSyncMain := true }
  else
    match s.tempProgTrack with
    | none => pure ()
    | some t =>
      let _ ← setTrackMode t TrackMode.prog 0 false
      modify fun s => { s with tempProgTrack := none }
    modify fun s => { s with progTrackSyncMain := false }

/-! ## The command `<=>` -/

/-- `track[t]->getMode()` of a track that may be missing. -/
def readMode (t : Nat) : Joins UInt8 := do
  let s ← get
  match s.station.tracks[t]? with
  | none => throw .nullPointer
  | some driver => pure driver.trackMode

/-- `<= id mode>` -/
def parseMode (t : Nat) (mode : Int16) : Joins Bool := do
  let s ← get
  let boosts := s.boosterInput = true ∧ s.station.platform = .esp32
  if mode = hk "MAIN" then setTrackMode t TrackMode.main 0 true
  else if mode = hk "MAIN_INV" then setTrackMode t (TrackMode.main ||| TrackMode.modifierInv) 0 true
  else if mode = hk "MAIN_AUTO" then setTrackMode t (TrackMode.main ||| TrackMode.modifierAuto) 0 true
  else if mode = hk "PROG" then setTrackMode t TrackMode.prog 0 true
  else if mode = hk "OFF" ∨ mode = hk "NONE" then setTrackMode t TrackMode.none 0 true
  else if mode = hk "EXT" then setTrackMode t TrackMode.ext 0 true
  else if boosts ∧ mode = hk "BOOST" then setTrackMode t TrackMode.boost 0 true
  else if boosts ∧ mode = hk "BOOST_INV" then
    setTrackMode t (TrackMode.boost ||| TrackMode.modifierInv) 0 true
  else if boosts ∧ mode = hk "BOOST_AUTO" then
    setTrackMode t (TrackMode.boost ||| TrackMode.modifierAuto) 0 true
  else if mode = hk "AUTO" then do
    let current ← readMode t
    setTrackMode t (current ||| TrackMode.modifierAuto) 0 true
  else if mode = hk "INV" then do
    let current ← readMode t
    setTrackMode t (current ||| TrackMode.modifierInv) 0 true
  else pure false

/-- `<= id mode cab>` -/
def parseModeOfCab (t : Nat) (mode cab : Int16) : Joins Bool :=
  if mode = hk "DC" ∧ 0 < cab then setTrackMode t TrackMode.dc cab true
  else if (mode = hk "DC_INV" ∨ mode = hk "DCX") ∧ 0 < cab then
    setTrackMode t (TrackMode.dc ||| TrackMode.modifierInv) cab true
  else pure false

/-- `TrackManager::parseEqualSign`; the list of assignments it prints without parameters is left
out. -/
def parseEqualSign : List Int16 → Joins Bool
  | [] => pure true
  | [_] => pure false
  | letter :: p =>
    let t := letter - hk "A"  -- convert A... to 0....
    if t < 0 ∨ maxTracks ≤ t then pure false
    else match p with
      | [mode] => parseMode t.toInt.toNat mode
      | [mode, cab] => parseModeOfCab t.toInt.toNat mode cab
      | _ => pure false

/-! ## What `DCCACK` does to the tracks -/

/-- The beginning of `DCCACK::Setup`, up to the point where the program is noted. Whether the prog
track can measure current is known to its driver. -/
def setup (canMeasureCurrent : Bool) : Joins Unit := do
  let s ← get
  modify fun s => { s with ackManagerRejoin := s.progTrackSyncMain }
  when s.progTrackSyncMain (setJoin false)
  modify fun s => { s with progDriver := s.getProgDriver }
  let s ← get
  match s.progDriver with
  | none => when s.ackManagerRejoin (setJoin false)  -- we dont have a prog track!
  | some t =>
    if canMeasureCurrent = false then setJoin s.ackManagerRejoin
    else
      modify fun s => { s with autoPowerOff := false }
      when ((s.station.tracks[t]?).map MotorDriver.powerMode = some .off) do
        modify fun s => { s with autoPowerOff := true }
        onStation (TrackManager.setTrack t fun driver => { driver with powerMode := .on })

/-- `progDriver->setPower(mode)` -/
def setProgDriverPower (mode : PowerMode) : Joins Unit := do
  let s ← get
  match s.progDriver with
  | none => throw .nullPointer
  | some t => onStation (TrackManager.setTrack t fun driver => { driver with powerMode := mode })

/-- The state `READY` of `DCCACK::callback`, before the callback is made. -/
def callback : Joins Unit := do
  let s ← get
  when s.autoPowerOff (setProgDriverPower .off)
  -- Restore <1 JOIN> to state before BASELINE
  when s.ackManagerRejoin (setJoin true)

end JoinStation

/-! ## Histories -/

/-- The calls that change modes, power or the join. Between two of them the throttles may change the
loco table in any way. -/
inductive TrackOp where
  | setTrackMode (track : Nat) (mode : UInt8) (dcAddr : Int16) (offAtChange : Bool)
  | parseEqualSign (p : List Int16)
  | setJoin (joined : Bool)
  | setup (canMeasureCurrent : Bool)
  | setProgDriverPower (mode : PowerMode)
  | callback
  | setTrackPower (trackmodeToMatch : UInt8) (powermode : PowerMode)
  | setPowerOfTrack (powermode : PowerMode) (track : Nat)
  | throttles (locos : LocoTable)

def TrackOp.exec : TrackOp → Joins Unit
  | setTrackMode track mode dcAddr offAtChange => do
    let _ ← JoinStation.setTrackMode track mode dcAddr offAtChange
  | parseEqualSign p => do let _ ← JoinStation.parseEqualSign p
  | setJoin joined => JoinStation.setJoin joined
  | setup canMeasureCurrent => JoinStation.setup canMeasureCurrent
  | setProgDriverPower mode => JoinStation.setProgDriverPower mode
  | callback => JoinStation.callback
  | setTrackPower trackmodeToMatch powermode =>
    JoinStation.onStation (TrackManager.setTrackPower trackmodeToMatch powermode)
  | setPowerOfTrack powermode track =>
    JoinStation.onStation (TrackManager.setPowerOfTrack powermode track)
  | throttles locos => modify fun s => { s with station := { s.station with locos := locos } }

end CommandStation
