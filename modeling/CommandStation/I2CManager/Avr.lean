import CommandStation.Lib.Run
import CommandStation.I2CManager.Basic

/-!
# The two-wire interface of the AVR processors

Here the transactions of the manager are carried out: the hardware interrupts with a status, and the handler
puts the next byte into the data register or tells the hardware what to do next. The model has the interface
of the processor as its documentation describes it. It does what the control register says and reports how
that went; whether a device acknowledges, what it sends, and whether another master takes the bus away is
open.
-/

namespace CommandStation.I2C

open CommandStation.Lib

namespace Twi

/-! ## The handler -/

/-- `TWSR & 0xF8`: the status codes that the handler knows. -/
inductive Twsr where
  | start | repStart | arbLost
  | mtxAdrAck | mtxAdrNack | mtxDataAck | mtxDataNack
  | mrxAdrAck | mrxAdrNack | mrxDataAck | mrxDataNack
  | busError | other
  deriving DecidableEq, Repr

/-- The bits of `TWCR` that tell the hardware what to do: send a start (`TWSTA`), send a stop (`TWSTO`),
acknowledge what is received (`TWEA`). -/
structure Twcr where
  sta : Bool
  sto : Bool
  ea : Bool
  deriving DecidableEq, Repr

/-- What the handler works on. The send buffer is that of the transaction, and the receive buffer begins
at 0. -/
structure Driver where
  operation : UInt8
  deviceAddress : UInt8
  sendBuffer : List UInt8
  receiveBuffer : Nat → UInt8
  bytesToSend : UInt8
  bytesToReceive : UInt8
  txCount : UInt8
  rxCount : UInt8
  state : State
  completionStatus : Status
  twdr : UInt8
  twcr : Twcr

namespace Driver

/-- `I2C_sendStart` -/
def sendStart (d : Driver) : Driver :=
  { d with rxCount := 0, txCount := 0, twcr := { d.twcr with sta := true, ea := true } }

/-- A byte is taken from the send buffer. -/
def sendByte (d : Driver) : Driver :=
  { d with
    twdr := d.sendBuffer.getD d.txCount.toNat 0
    txCount := d.txCount + 1
    bytesToSend := d.bytesToSend - 1
    twcr := ⟨false, false, false⟩ }

/-- A byte that has come is put into the receive buffer, if it is wanted. -/
def receiveByte (d : Driver) : Driver :=
  if 0 < d.bytesToReceive then
    { d with
      receiveBuffer := Function.update d.receiveBuffer d.rxCount.toNat d.twdr
      rxCount := d.rxCount + 1
      bytesToReceive := d.bytesToReceive - 1 }
  else d

/-- The last byte is not acknowledged. -/
def receiveNext (d : Driver) : Driver :=
  if d.bytesToReceive ≤ 1 then { d with twcr := ⟨false, false, false⟩ }
  else { d with twcr := ⟨false, false, true⟩ }

/-- A stop is sent and the transaction has ended. -/
def stop (d : Driver) : Driver := { d with twcr := ⟨false, true, true⟩, state := .completed }

/-- The address of the device, for reading or for writing. -/
def address (d : Driver) : UInt8 :=
  if d.operation = Operation.read ∨ (d.operation = Operation.request ∧ d.bytesToSend = 0) then
    d.deviceAddress <<< 1 ||| 1
  else d.deviceAddress <<< 1 ||| 0

/-- `I2C_handleInterrupt` -/
def handleInterrupt (d : Driver) : Twsr → Driver
  | .mtxDataAck | .mtxAdrAck =>
    if d.bytesToSend ≠ 0 then d.sendByte
    else if d.bytesToReceive ≠ 0 then { d with twcr := ⟨true, false, false⟩ }
    else d.stop
  | .mrxDataAck => d.receiveByte.receiveNext
  | .mrxAdrAck => d.receiveNext
  | .mrxDataNack => d.receiveByte.stop
  | .start | .repStart => { d with twdr := d.address, twcr := ⟨false, false, true⟩ }
  | .mtxAdrNack | .mrxAdrNack | .mtxDataNack => { d.stop with completionStatus := .negativeAcknowledge }
  | .arbLost => d.sendStart
  | .busError | .other => { d.stop with twdr := 0xff, completionStatus := .transmitError }

end Driver

/-! ## The hardware -/

/-- What goes over the wires. The flag of a byte is its acknowledgement. -/
inductive Wire where
  | start
  | address (byte : UInt8) (ack : Bool)
  | out (byte : UInt8) (ack : Bool)
  | inn (byte : UInt8) (ack : Bool)
  | stop
  deriving DecidableEq, Repr

def Wire.isOut : Wire → Bool
  | .out _ _ => true
  | _ => false

def Wire.isIn : Wire → Bool
  | .inn _ _ => true
  | _ => false

/-- What the hardware is doing. -/
inductive Doing where
  | start | address | out | inn | nothing
  deriving DecidableEq, Repr

/-- How it goes. -/
inductive Answer where
  /-- A start has been sent, or a byte with this acknowledgement. -/
  | done (ack : Bool)
  /-- A byte has come. -/
  | byte (b : UInt8)
  | arbLost
  | busError
  deriving DecidableEq, Repr

/-- The driver and the wires. `twsr` is the last status, `attempt` what has gone over the wires since the
transaction was begun, and `lost` what did in the attempts that ended as arbitration was lost. -/
structure Bus where
  driver : Driver
  twsr : Twsr
  attempt : List Wire
  lost : List Wire

namespace Bus

/-- What the control register tells the hardware, after the last status. -/
def doing (s : Bus) : Doing :=
  if s.driver.twcr.sta then .start
  else if s.driver.twcr.sto then .nothing
  else match s.twsr with
    | .start | .repStart => .address
    | .mtxAdrAck | .mtxDataAck => .out
    | .mrxAdrAck | .mrxDataAck => .inn
    | _ => .nothing

/-- An interrupt with a status, after something has gone over the wires. -/
def interrupt (s : Bus) (wire : List Wire) (twsr : Twsr) : Bus :=
  let d := s.driver.handleInterrupt twsr
  { s with
    driver := d
    twsr := twsr
    attempt := s.attempt ++ wire ++ if d.twcr.sto then [.stop] else [] }

/-- Another master has the bus. Whatever was sent is to be sent again. -/
def lose (s : Bus) (wire : List Wire) : Bus :=
  { s with
    driver := s.driver.handleInterrupt .arbLost
    twsr := .arbLost
    attempt := []
    lost := s.lost ++ s.attempt ++ wire }

/-- The status for the byte with the address. -/
def addressStatus (byte : UInt8) (ack : Bool) : Twsr :=
  if byte &&& 1 = 1 then if ack then .mrxAdrAck else .mrxAdrNack
  else if ack then .mtxAdrAck else .mtxAdrNack

/-- The hardware goes on. What it cannot report while it does this changes nothing. -/
def step (s : Bus) (a : Answer) : Bus :=
  let byte := s.driver.twdr
  match s.doing, a with
  | .nothing, _ => s
  | _, .busError => s.interrupt [] .busError
  | .start, .done _ => s.interrupt [.start] (if s.attempt = [] then .start else .repStart)
  | .address, .done ack => s.interrupt [.address byte ack] (addressStatus byte ack)
  | .address, .arbLost => s.lose [.address byte false]
  | .out, .done ack => s.interrupt [.out byte ack] (if ack then .mtxDataAck else .mtxDataNack)
  | .out, .arbLost => s.lose [.out byte false]
  | .inn, .byte b =>
    { s with driver.twdr := b }.interrupt [.inn b s.driver.twcr.ea]
      (if s.driver.twcr.ea then .mrxDataAck else .mrxDataNack)
  | .inn, .arbLost => s.lose []
  | _, _ => s

end Bus

end Twi

end CommandStation.I2C
