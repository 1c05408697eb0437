import Mathlib.Data.List.Basic

/-!
# Turnouts

The turnouts of the layout are kept on a list, in the order they were created in. A turnout is a
servo, a DCC accessory, a HAL pin or a turnout of an LCN layout; `TurnoutKind` is the type with the
data of the subclass.
-/

namespace CommandStation

/-- `turnoutType` and the data of the subclass. Addresses of DCC turnouts have 14 bits and
subaddresses 2, the positions of servos 12. -/
inductive TurnoutKind where
  | servo (vpin closedPosition thrownPosition : UInt16) (profile : UInt8)
  | dcc (address : UInt16) (subAddress : UInt8)
  | vpin (vpin : UInt16)
  | lcn
  deriving DecidableEq, Repr

/-- `class Turnout`. `eepromAddress` is 0 for a turnout that has not been read from the EEPROM. -/
structure Turnout where
  id : UInt16
  closed : Bool
  hidden : Bool
  kind : TurnoutKind
  eepromAddress : UInt16
  deriving DecidableEq, Repr

namespace Turnout

/-- `Turnout::get` -/
def get (turnouts : List Turnout) (id : UInt16) : Option Turnout :=
  turnouts.find? fun tt => tt.id == id

/-- `Turnout::isClosed` -/
def isClosed (turnouts : List Turnout) (id : UInt16) : Bool :=
  (get turnouts id).elim false Turnout.closed

/-- `Turnout::isThrown` -/
def isThrown (turnouts : List Turnout) (id : UInt16) : Bool := !isClosed turnouts id

/-- Rewrite the turnout that `get` finds. -/
def modify (turnouts : List Turnout) (id : UInt16) (f : Turnout → Turnout) : List Turnout :=
  match turnouts with
  | [] => []
  | tt :: turnouts => if tt.id = id then f tt :: turnouts else tt :: modify turnouts id f

end Turnout

end CommandStation
