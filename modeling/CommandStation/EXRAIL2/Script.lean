import CommandStation.EXRAIL2.Opcode
import CommandStation.TrackManager.Basic
import CommandStation.DCC.Operations
import CommandStation.Turnouts.Basic

/-!
# Scripts

What the macros of `myAutomation.h` compile to. `RouteCode` is a table of bytes made of cells of
three: an opcode and an operand of 16 bits. An opcode that needs more than one operand is followed
by `PAD` cells with the others. The program counter is the offset of a cell.

`Command` are the calls that reach EXRAIL and the station from outside, from the parser, the
throttles and the device drivers. A script can give them too: `PARSE` sends a command.
-/

namespace CommandStation

open CommandStation.Lib

/-! ## Commands -/

inductive Command where
  | slash (paramCount : UInt8) (p : Nat → Int16)          -- </ …>
  | aspect (address value : Int16)                        -- <A address aspect>
  | lcc                                                   -- <L>, the adapter introduces itself
  | lccEvent (eventid : Int16)                            -- <L eventid>
  | block (block loco : Int16) (entering : Bool)          -- a Railcom detector, a block number
  | setClosed (id : UInt16) (closed : Bool)               -- <T id 0|1> and the like
  | setClosedStateOnly (id : UInt16) (closed : Bool)      -- from an LCN layout
  | setTurnouts (turnouts : List Turnout)                 -- definitions and deletions
  | setAccessory (address : Int) (port : UInt8) (gate : Bool) (onoff : UInt8)
  | setPosition (turntable : UInt16) (position : UInt8)
  | changeEvent (vpin : Int16) (change : Bool)            -- a rotary encoder
  | clockEvent (clocktime : Int16) (change : Bool)        -- the fast clock
  | powerEvent (track : Int16) (overload : Bool)
  | railsyncEvent (on : Bool)
  | createNewTask (route : Int16) (cab : UInt16)          -- a route that is started by a throttle
  | sensor (progCounter : Int)                            -- a debounced `EXRAILSensor` has changed
  | readLocoCallback (cv : Int16)
  | station (op : Op)
  | tracks (op : TrackOp)

/-! ## Signals and messages -/

inductive SignalType where
  | virtual | signal | signalH | dcc | dccx | servo | neopixel | continuation
  deriving DecidableEq, Repr

/-- `struct SIGNAL_DEFINITION` -/
structure SignalDefinition where
  type : SignalType
  id : UInt16
  redpin : UInt16
  amberpin : UInt16
  greenpin : UInt16
  deriving DecidableEq, Repr

/-- What `printMessage` does for an id: a text is sent somewhere, a text is parsed as a command, or a
condition on the loco of the task or on pins is evaluated. -/
inductive Message where
  | text
  | parse (command : Command)
  | ifLoco (locolist : List Int16)
  | ifAll (vpinList : List Int16)
  | ifAny (vpinList : List Int16)

/-! ## Lookups -/

/-- `class LookList`: operands and the program counters they were found at. -/
abbrev LookList := List (Int16 × Int16)

namespace LookList

/-- `LookList::find`, without the chain. -/
def find? (list : LookList) (value : Int16) : Option Int16 :=
  (List.find? (fun entry => entry.1 == value) list).map Prod.snd

/-- `LookList::findPosition` -/
def findPosition? (list : LookList) (value : Int16) : Option Nat :=
  list.findIdx? fun entry => entry.1 == value

/-- The results of all entries for an id, in the order of the list. -/
def all (list : LookList) (id : Int16) : List Int16 :=
  (list.filter fun entry => entry.1 == id).map Prod.snd

end LookList

/-! ## The script -/

/-- The tables the macros generate. The last cell of `RouteCode` holds `ENDEXRAIL`. -/
structure Script where
  routeCode : Int → UInt8
  lastCell : Nat
  ends : routeCode (3 * lastCell) = Opcode.endexrail.toByte
  compileFeatures : UInt8
  signalDefinitions : List SignalDefinition
  messages : UInt16 → Message
  countLCCLookup : Nat
  boosterInput : Bool
  dccTurnoutsRCN213 : Bool

namespace Script

/-- The table of a script that consists of these cells and `ENDEXRAIL`, without signals. -/
def ofCells (features : UInt8) (messages : UInt16 → Message) (cells : List (Opcode × UInt16)) :
    Script where
  routeCode progCounter :=
    let cell := cells.getD (progCounter.toNat / 3) (.endexrail, 0)
    match progCounter.toNat % 3 with
    | 0 => cell.1.toByte
    | 1 => cell.2.toUInt8
    | _ => (cell.2 >>> 8).toUInt8
  lastCell := cells.length
  ends := by
    have hend : (3 * (cells.length : Int)).toNat = 3 * cells.length := by omega
    simp [hend]
  compileFeatures := features
  signalDefinitions := []
  messages := messages
  countLCCLookup := 0
  boosterInput := false
  dccTurnoutsRCN213 := false

variable (script : Script)

/-- `compileFeatures & feature` -/
def has (feature : UInt8) : Bool := script.compileFeatures &&& feature != 0

def featureSignal : UInt8 := 0x80
def featureBlink : UInt8 := 0x04
def featureBlock : UInt8 := 0x01

/-- `GET_OPCODE` -/
def getOpcode (progCounter : Int) : UInt8 := script.routeCode progCounter

/-- `RMFT2::getOperand` -/
def getOperand (progCounter : Int) (n : Nat) : UInt16 :=
  let offset := progCounter + 1 + n * 3
  (script.routeCode (offset + 1)).toUInt16 <<< 8 ||| (script.routeCode offset).toUInt16

/-- The cells that a scan from the start meets before it finds `ENDEXRAIL`. -/
def cells : List Int :=
  ((List.range script.lastCell).map fun (k : Nat) => (3 * k : Int)).takeWhile fun progCounter =>
    script.getOpcode progCounter != Opcode.endexrail.toByte

/-- `RMFT2::LookListLoader` -/
def lookListLoader (ops : List Opcode) : LookList :=
  (script.cells.filter fun progCounter =>
      (ops.map Opcode.toByte).contains (script.getOpcode progCounter)).map fun progCounter =>
    ((script.getOperand progCounter 0).toInt16, Int16.ofInt progCounter)

/-- `routeLookup`, without the chain -/
def routeLookup : LookList := script.lookListLoader [.route, .automation]

/-- `routeLookup->find(value)`: the chain leads on to the sequences. -/
def findRoute (value : Int16) : Int :=
  match script.routeLookup.find? value with
  | some progCounter => progCounter.toInt
  | none => (((script.lookListLoader [.sequence]).find? value).getD (-1)).toInt

/-- `signalLookup`: the slots of the signals, continuations left out. -/
def signalLookup : LookList :=
  (script.signalDefinitions.zipIdx.filter fun entry => entry.1.type != .continuation).map fun entry =>
    (entry.1.id.toInt16, Int16.ofNat entry.2)

end Script

end CommandStation
