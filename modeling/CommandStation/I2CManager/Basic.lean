import Mathlib.Logic.Function.Basic

/-!
# The queue of I2C requests

A driver fills in a request block and queues it; the blocks wait in a list linked through them. The
first one is being carried out: the interrupt handler is told by the hardware when a transaction has
ended, and starts the next one. A request behind a multiplexer takes three transactions: the prolog
selects the sub-bus, the payload goes to the device, the epilog deselects the sub-bus. A failed
transaction is retried by starting the request again. `checkForTimeout` gives up a request that
takes too long.

The build has extended addresses (`I2C_EXTENDED_ADDRESS`) and multiplexers that are selected by a
mask. The foreground does its work in atomic blocks, so calls and interrupts do not overlap. A
request block is known by its address. The hardware is seen through the transactions it is given
(`bus`) and what it reports; the clock speed and the pins are left out.
-/

namespace CommandStation.I2C

/-- The completion status of a request, `I2C_STATUS_…`. -/
inductive Status where
  | ok | truncated | negativeAcknowledge | transmitError | otherTwiError | timeout
  | arbitrationLost | busError | unexpectedError | pending
  deriving DecidableEq, Repr

/-- The ways a transaction can fail. -/
inductive Failure where
  | truncated | negativeAcknowledge | transmitError | otherTwiError | timeout | arbitrationLost
  | busError | unexpectedError
  deriving DecidableEq, Repr

def Failure.status : Failure → Status
  | truncated => .truncated
  | negativeAcknowledge => .negativeAcknowledge
  | transmitError => .transmitError
  | otherTwiError => .otherTwiError
  | timeout => .timeout
  | arbitrationLost => .arbitrationLost
  | busError => .busError
  | unexpectedError => .unexpectedError

/-- `I2C_STATE_…` -/
inductive State where
  | active | free | completed
  deriving DecidableEq, Repr

inductive MuxPhase where
  | off | prolog | payload | epilog
  deriving DecidableEq, Repr

namespace Operation

def read : UInt8 := 1
def request : UInt8 := 2
def send : UInt8 := 3
def sendP : UInt8 := 4

/-- OR with operation to suppress retries. -/
def noRetry : UInt8 := 0x80

/-- The mask for extracting the operation code. -/
def mask : UInt8 := 0x7f

end Operation

/-- `MAX_I2C_RETRIES` -/
def maxI2CRetries : UInt8 := 2

/-- `I2C_MUX_BASE_ADDRESS` -/
def muxBaseAddress : UInt8 := 0x70

/-- `I2CMux_None` -/
def muxNone : UInt8 := 255

/-- `struct I2CAddress` -/
structure I2CAddress where
  muxNumber : UInt8
  subBus : UInt8
  deviceAddress : UInt8
  deriving DecidableEq, Repr

/-- What the driver fills in of a request block. -/
structure Params where
  operation : UInt8
  i2cAddress : I2CAddress
  writeBuffer : Nat
  writeLen : UInt8
  readBuffer : Nat
  readLen : UInt8
  deriving DecidableEq, Repr

/-- `class I2CRB` -/
structure I2CRB where
  params : Params
  status : Status
  nBytes : UInt8
  nextRequest : Option Nat
  deriving DecidableEq, Repr

/-- Where the bytes to send are: in `muxData`, or in a buffer of the driver. -/
inductive Source where
  | muxData | buffer (address : Nat)
  deriving DecidableEq, Repr

/-- A transaction that the hardware has been told to start. -/
structure Transaction where
  req : Nat
  phase : MuxPhase
  deviceAddress : UInt8
  operation : UInt8
  sendBuffer : Source
  bytesToSend : UInt8
  bytesToReceive : UInt8
  deriving DecidableEq, Repr

/-- `class I2CManagerClass`. `mem` are the request blocks, `bus` the transactions that have been
started, the last one first. -/
structure I2CManager where
  mem : Nat → I2CRB
  queueHead : Option Nat
  queueTail : Option Nat
  currentRequest : Option Nat
  state : State
  completionStatus : Status
  overallStatus : Status
  retryCounter : UInt8
  muxPhase : MuxPhase
  muxCount : UInt8
  muxData : UInt8
  deviceAddress : UInt8
  operation : UInt8
  sendBuffer : Source
  receiveBuffer : Nat
  bytesToSend : UInt8
  bytesToReceive : UInt8
  rxCount : UInt8
  startTime : UInt32
  timeout : UInt32
  bus : List Transaction

namespace I2CManager

variable (now : UInt32)

/-- `I2C_sendStart`, for the request `p`. -/
def sendStart (p : Nat) (s : I2CManager) : I2CManager :=
  { s with
    rxCount := 0
    bus := ⟨p, s.muxPhase, s.deviceAddress, s.operation, s.sendBuffer, s.bytesToSend,
      s.bytesToReceive⟩ :: s.bus }

/-- The mask that selects a sub-bus. -/
def subBusMask (subBus : UInt8) : UInt8 :=
  if subBus = 255 then 0xff else if subBus = 254 then 0x00 else 1 <<< subBus

/-- One byte for the multiplexer of a request. -/
def toMux (address : I2CAddress) (phase : MuxPhase) (muxData : UInt8) (s : I2CManager) :
    I2CManager :=
  { s with
    muxPhase := phase
    deviceAddress := muxBaseAddress + address.muxNumber
    muxData := muxData
    sendBuffer := .muxData
    bytesToSend := 1
    bytesToReceive := 0
    operation := Operation.send }

/-- The payload of a request, for its device. -/
def toDevice (params : Params) (phase : MuxPhase) (s : I2CManager) : I2CManager :=
  { s with
    muxPhase := phase
    deviceAddress := params.i2cAddress.deviceAddress
    sendBuffer := .buffer params.writeBuffer
    bytesToSend := params.writeLen
    receiveBuffer := params.readBuffer
    bytesToReceive := params.readLen
    operation := params.operation &&& Operation.mask }

/-- `I2CManagerClass::startTransaction` -/
def startTransaction (s : I2CManager) : I2CManager :=
  match s.state, s.queueHead with
  | .free, some p =>
    let params := (s.mem p).params
    let s := { s with
      state := .active
      completionStatus := .ok
      startTime := now
      currentRequest := some p
      rxCount := 0 }
    let s := if params.i2cAddress.muxNumber ≠ muxNone then
        s.toMux params.i2cAddress .prolog (subBusMask params.i2cAddress.subBus)
      else s.toDevice params .off  -- Send/receive payload for device only.
    s.sendStart p
  | _, _ => s

/-- Write a request block. -/
def write (p : Nat) (f : I2CRB → I2CRB) (s : I2CManager) : I2CManager :=
  { s with mem := Function.update s.mem p (f (s.mem p)) }

/-- `setReadParams`, `setRequestParams`, `setWriteParams` and `suppressRetries` of a block. -/
def setParams (p : Nat) (params : Params) : I2CManager → I2CManager :=
  write p fun rb => { rb with params := params, status := .ok }

/-- A read of no bytes. -/
def nullRead (params : Params) : Prop :=
  params.operation &&& Operation.mask = Operation.read ∧ params.readLen = 0

instance (params : Params) : Decidable (nullRead params) := inferInstanceAs (Decidable (_ ∧ _))

/-- The part of `queueRequest` that puts the block on the queue. -/
def enqueue (req : Nat) (s : I2CManager) : I2CManager :=
  let s := s.write req fun rb => { rb with status := .pending, nextRequest := none }
  match s.queueTail with
  | none => { s with queueHead := some req, queueTail := some req }  -- Only item on queue
  | some tail =>  -- Add to end
    { s.write tail fun rb => { rb with nextRequest := some req } with queueTail := some req }

/-- `I2CManagerClass::queueRequest` -/
def queueRequest (req : Nat) (s : I2CManager) : I2CManager :=
  if nullRead (s.mem req).params then s  -- Ignore null read
  else (s.enqueue req).startTransaction now

/-- The head of the queue is removed, with its status. -/
def dequeue (t : Nat) (status : Status) (s : I2CManager) : I2CManager :=
  let next := (s.mem t).nextRequest
  { s.write t fun rb => { rb with status := status } with
    queueHead := next
    queueTail := if next.isNone then none else s.queueTail
    currentRequest := none
    state := .free }

/-- The request that `checkForTimeout` looks at takes too long. -/
def expired (s : I2CManager) : Prop :=
  s.timeout ≠ 0 ∧ (now - s.startTime).toInt32 > s.timeout.toInt32

instance (s : I2CManager) : Decidable (s.expired now) := inferInstanceAs (Decidable (_ ∧ _))

/-- `I2CManagerClass::checkForTimeout` -/
def checkForTimeout (s : I2CManager) : I2CManager :=
  match s.queueHead with
  | none => s
  | some t =>
    if s.state = .active ∧ s.currentRequest = some t ∧ s.expired now then
      -- Excessive time. Dequeue request, and post it as timed out.
      let s := { s with bytesToSend := 0, bytesToReceive := 0 }
      (s.dequeue t .timeout).startTransaction now
    else s

/-- What the hardware reports at an interrupt, with the number of bytes received so far: it is
still at work, or has ended the transaction. -/
inductive Report where
  | working (rxCount : UInt8)
  | completed (rxCount : UInt8)
  | failed (rxCount : UInt8) (failure : Failure)
  deriving DecidableEq, Repr

/-- `I2C_handleInterrupt` -/
def hardware (report : Report) (s : I2CManager) : I2CManager :=
  match report with
  | .working rxCount => { s with rxCount := rxCount }
  | .completed rxCount => { s with rxCount := rxCount, state := .completed }
  | .failed rxCount failure =>
    { s with rxCount := rxCount, completionStatus := failure.status, state := .completed }

/-- `++retryCounter > MAX_I2C_RETRIES`, for a transaction that has failed. -/
def countRetry (s : I2CManager) : I2CManager :=
  if s.completionStatus = .ok then s else { s with retryCounter := s.retryCounter + 1 }

/-- The transaction is OK, or has failed and retry count exceeded, or failed and retries
disabled. -/
def settled (params : Params) (s : I2CManager) : Prop :=
  s.completionStatus = .ok ∨ maxI2CRetries < s.retryCounter ∨
    params.operation &&& Operation.noRetry ≠ 0

instance (params : Params) (s : I2CManager) : Decidable (s.settled params) :=
  inferInstanceAs (Decidable (_ ∨ _))

/-- Remove completed request from head of queue. -/
def finish (p : Nat) (s : I2CManager) : I2CManager :=
  { s.dequeue p s.overallStatus with retryCounter := 0 }

/-- The part of `handleInterrupt` for a transaction of request `p` that is settled: the result, and
whether the next phase of the request has been started. -/
def nextPhase (p : Nat) (s : I2CManager) : I2CManager × Bool :=
  let params := (s.mem p).params
  match s.muxPhase with
  | .prolog =>
    let s := { s with overallStatus := s.completionStatus }
    if s.completionStatus = .ok ∧ params.i2cAddress.deviceAddress ≠ 0 then
      -- Mux request OK, start handling application request.
      ({ s.toDevice params .payload with state := .active }.sendStart p, true)
    else (s.finish p, false)
  | .payload =>
    -- Application request completed, now send epilogue to mux
    let s := { s with overallStatus := s.completionStatus }
    let s := s.write p fun rb => { rb with nBytes := s.rxCount }
    if s.muxCount = (1 : UInt8) then
      -- Only one MUX, don't need to deselect subbus
      ({ s with muxPhase := .off }.finish p, false)
    else
      ({ s.toMux params.i2cAddress .epilog 0x00 with state := .active }.sendStart p, true)
  | .epilog =>
    -- Epilog finished, ignore completionStatus
    ({ s with muxPhase := .off }.finish p, false)
  | .off => ({ s with overallStatus := s.completionStatus }.finish p, false)

/-- The end of `handleInterrupt`: start next request. -/
def startNext (s : I2CManager) : I2CManager :=
  if s.state = .free ∧ s.queueHead ≠ none then s.startTransaction now else s

/-- `I2CManagerClass::handleInterrupt` -/
def handleInterrupt (report : Report) (s : I2CManager) : I2CManager :=
  let s := s.hardware report
  match s.currentRequest with
  | none => s.startNext now
  | some p =>
    if s.state = .completed ∧ s.queueHead = some p then
      let s := s.countRetry
      if s.settled (s.mem p).params then
        match s.nextPhase p with
        | (s, true) => s
        | (s, false) => s.startNext now
      else
        -- Retry previous request.
        { s with state := .free }.startNext now
    else s.startNext now

/-- The manager when it has been initialised, with request blocks that have not been queued. -/
structure New (s : I2CManager) : Prop where
  queueHead : s.queueHead = none
  queueTail : s.queueTail = none
  currentRequest : s.currentRequest = none
  state : s.state = .free
  completionStatus : s.completionStatus = .ok
  overallStatus : s.overallStatus = .ok
  retryCounter : s.retryCounter = 0
  notPending : ∀ p, (s.mem p).status ≠ .pending

end I2CManager

/-- The calls of the foreground, and the interrupts. -/
inductive Op where
  | setParams (req : Nat) (params : Params)
  | queueRequest (req : Nat) (now : UInt32)
  | handleInterrupt (report : I2CManager.Report) (now : UInt32)
  | checkForTimeout (now : UInt32)
  | setTimeout (value : UInt32)
  | setMuxCount (count : UInt8)
  deriving DecidableEq, Repr

namespace I2CManager

def step (s : I2CManager) : Op → I2CManager
  | .setParams req params => s.setParams req params
  | .queueRequest req now => s.queueRequest now req
  | .handleInterrupt report now => s.handleInterrupt now report
  | .checkForTimeout now => s.checkForTimeout now
  | .setTimeout value => { s with timeout := value }
  | .setMuxCount count => { s with muxCount := count }

/-- A driver leaves a block alone while it is pending: it waits for it before it fills it in and
queues it again. A null read is not queued. -/
def Waits (s : I2CManager) : Op → Prop
  | .setParams req _ => (s.mem req).status ≠ .pending
  | .queueRequest req _ => nullRead (s.mem req).params ∨ (s.mem req).status ≠ .pending
  | _ => True

instance (s : I2CManager) : DecidablePred s.Waits := fun op => by
  cases op <;> unfold Waits <;> infer_instance

end I2CManager

end CommandStation.I2C
