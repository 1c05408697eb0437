import CommandStation.DCC.Basic

/-!
# WiThrottle clients

A WiThrottle client keeps a list of the locos it drives. The model has the add-loco request
`M<t>+<S|L><id>` of `multithrottle` for a station without a roster; what is sent to the client is
part of the result.
-/

namespace CommandStation

open CommandStation.Lib

/-- `struct MYLOCO`; a null character in `throttle` marks a free entry. -/
structure MyLoco where
  throttle : Char
  cab : Int
  broadcastPending : Bool
  functionMap : UInt32
  functionToggles : UInt32
  deriving DecidableEq, Repr

/-- The members of `class WiThrottle` that the request uses. `myLocos` has `MAX_MY_LOCO` entries. -/
structure WiThrottle where
  myLocos : List MyLoco
  mostRecentCab : UInt16
  deriving DecidableEq, Repr

namespace WiThrottle

/-- `MAX_MY_LOCO` -/
def maxMyLoco : Nat := 10

def new : WiThrottle where
  myLocos := List.replicate maxMyLoco ⟨'\x00', 0, false, 0, 0⟩
  mostRecentCab := 0

/-- `WiThrottle::LorS` -/
def lorS (cab : Int) : Char := if cab ≤ DCC.highestShortAddr then 'S' else 'L'

/-- The states of the functions that `sendFunctions` tells the client. -/
def sendFunctions (throttleChar : Char) (locoid : Int) : List Nat → Dcc String
  | [] => pure ""
  | fKey :: rest => do
    let fstate ← DCC.getFn locoid (Int16.ofNat fKey)
    let line := match fstate with
      | some on => "M" ++ toString throttleChar ++ "A" ++ toString (lorS locoid) ++
          toString locoid ++ "<;>F" ++ (if on then "1" else "0") ++ toString fKey ++ "\n"
      | none => ""
    let lines ← sendFunctions throttleChar locoid rest
    pure (line ++ lines)

/-- The `'+'` request of `multithrottle` with its loco id and its third character. `M+*` is left to
the programming track. The answer tells failure apart from success. -/
def addLoco (client : WiThrottle) (throttleChar lengthChar : Char) (locoid : Int) :
    Dcc (WiThrottle × Bool × String) := do
  if 10239 < locoid ∨ locoid < -1 then
    pure (client, false, "No valid DCC loco " ++ toString locoid ++ "\n")
  else if lengthChar = '*' then pure (client, true, "")
  else if locoid = 0 then pure (client, false, "HMAddress '0' not supported!\n")
  else if lengthChar ≠ lorS locoid then
    pure (client, false,
      "HMLength '" ++ toString lengthChar ++ "' not valid for " ++ toString locoid ++ "!\n")
  else
    let slot ← onSlots (LocoSlot.getSlot (UInt16.ofInt locoid) true)
    match slot with
    | none => pure (client, false, "HMUnable to create loco " ++ toString locoid ++ " slot\n")
    | some _ =>
      -- use first empty "slot" on this client's list
      match client.myLocos.findIdx? fun loco => loco.throttle == '\x00' with
      | none =>
        pure (client, false, "HMMax locos (" ++ toString maxMyLoco ++ ") exceeded, " ++
          toString locoid ++ " not added!\n")
      | some i =>
        let functionMap ← DCC.getFunctionMap locoid
        let name := toString lengthChar ++ toString locoid
        let functions ← sendFunctions throttleChar locoid (List.range 32)
        pure ({ client with
            myLocos := client.myLocos.set i ⟨throttleChar, locoid, true, functionMap, 1 <<< (2 : UInt32)⟩
            mostRecentCab := UInt16.ofInt locoid }, true,
          "M" ++ toString throttleChar ++ "+" ++ name ++ "<;>\n" ++ functions ++
            "M" ++ toString throttleChar ++ "A" ++ name ++ "<;>s1\n")

end WiThrottle

end CommandStation
