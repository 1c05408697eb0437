import CommandStation.RingStream.Spec
import CommandStation.Websockets.Basic

/-!
# The command distributor

`CommandDistributor` knows which protocol each network client speaks, hands what a client sends to the
parser for it and collects all output in the outbound ring. While the message to a client is open, the
parsers may broadcast to other clients; then the message is committed first, and marked again
afterwards.

What a parser does with its input is a list of actions. A programming command stashes the client for
the reply, which comes when the programming track has answered, or at once if that cannot be asked.
-/

namespace CommandStation

open RingStream

/-- `enum clientType` -/
inductive ClientType where
  | none
  | command
  | withrottle
  | websockConnecting
  | websocket
  deriving DecidableEq, Repr

/-- Who waits for a programming callback: `DCCEXParser` or `WiThrottle`. Both keep one client. -/
inductive Stash where
  | parser
  | withrottle
  deriving DecidableEq, Repr

/-- The static members of `CommandDistributor` and what the parsers keep of clients: the stashed clients,
and those that have a `WiThrottle` object. `known` says that the ring is known from the first `parse`. -/
structure CommandDistributor where
  clients : List ClientType
  known : Bool
  ring : RingStream
  virtualLCDClient : UInt8
  stashed : Stash → Option UInt8
  throttles : List UInt8

namespace CommandDistributor

/-- What a parser does while the message to its client is open. -/
inductive Action where
  /-- Output to the client. -/
  | put (item : Item)
  /-- `broadcastReply` -/
  | broadcast (type : ClientType) (text : List UInt8)
  /-- `setVirtualLCDSerial`: the client is to get what is displayed. -/
  | takeDisplay
  /-- Something is displayed. -/
  | display (items : List Item)
  /-- The client of the open message is stashed. -/
  | stash (s : Stash)
  /-- The callback comes while the message is open. -/
  | callback (s : Stash) (items : List Item)
  deriving DecidableEq, Repr

variable (flash : Nat → UInt8) (wide : Bool)

/-! ## Broadcasts -/

/-- Other messages are sent from within an open one: it is completed first, and reinstated in case the
process continues to output to its client. -/
def interject (ring : RingStream) (msgs : List Outgoing) : RingStream :=
  let rememberClient := ring.peekTargetMark
  let ring := if rememberClient ≠ noClient then ring.commit.1 else ring
  let ring := msgs.foldl (fun r m => (r.send flash wide m.client m.items).1) ring
  if rememberClient ≠ noClient then ring.mark rememberClient else ring

/-- The client byte of output for a client of this type. -/
def target (type : ClientType) (clientId : Nat) : UInt8 :=
  if type = .websocket then UInt8.ofNat clientId ||| Websockets.websockClientMarker
  else UInt8.ofNat clientId

/-- The messages of a broadcast to the clients of a type. -/
def targets (cd : CommandDistributor) (type : ClientType) (text : List UInt8) : List Outgoing :=
  ((List.range cd.clients.length).filter (fun clientId => cd.clients[clientId]? = some type)).map
    fun clientId => ⟨target type clientId, text.map Item.byte⟩

/-- `CommandDistributor::broadcastToClients`. The serial ports are left out. -/
def broadcastToClients (cd : CommandDistributor) (type : ClientType) (text : List UInt8) :
    CommandDistributor :=
  if cd.known then { cd with ring := interject flash wide cd.ring (cd.targets type text) } else cd

/-- `CommandDistributor::broadcastReply` -/
def broadcastReply (cd : CommandDistributor) (type : ClientType) (text : List UInt8) :
    CommandDistributor :=
  let cd := cd.broadcastToClients flash wide type text
  if type = .command then cd.broadcastToClients flash wide .websocket text else cd

/-- From `getVirtualLCDSerial` to `commitVirtualLCDSerial`, for a client of the ring. -/
def display (cd : CommandDistributor) (items : List Item) : CommandDistributor :=
  if cd.virtualLCDClient ≠ noClient then
    { cd with ring := interject flash wide cd.ring [⟨cd.virtualLCDClient, items⟩] }
  else cd

/-! ## Programming callbacks -/

/-- `DCCEXParser::stashCallback`, which refuses when it is busy, and the stash of `WiThrottle`. -/
def stash (cd : CommandDistributor) (s : Stash) : CommandDistributor :=
  if s = .parser ∧ (cd.stashed s).isSome then cd
  else { cd with stashed := Function.update cd.stashed s (some cd.ring.peekTargetMark) }

/-- The stash is free again when `DCCEXParser` has replied. -/
def unstash (cd : CommandDistributor) (s : Stash) : CommandDistributor :=
  if s = .parser then { cd with stashed := Function.update cd.stashed s none } else cd

/-! ## Parsing -/

/-- An action while a message is open. -/
def act (cd : CommandDistributor) : Action → CommandDistributor
  | .put item => { cd with ring := cd.ring.put flash wide item }
  | .broadcast type text => cd.broadcastReply flash wide type text
  | .takeDisplay => { cd with virtualLCDClient := cd.ring.peekTargetMark }
  | .display items => cd.display flash wide items
  | .stash s => cd.stash s
  | .callback s items =>
    match cd.stashed s with
    | none => cd
    | some client =>
      { cd with ring := (cd.ring.send flash wide client items).1 }.unstash s

/-- A message is marked for this client and the actions are done. -/
def reply (cd : CommandDistributor) (client : UInt8) (actions : List Action) : CommandDistributor :=
  actions.foldl (act flash wide) { cd with ring := cd.ring.mark client }

/-- The end of `CommandDistributor::parse` -/
def finish (cd : CommandDistributor) : CommandDistributor :=
  if cd.ring.peekTargetMark ≠ noClient then { cd with ring := cd.ring.commit.1 } else cd

/-- What a client is found to be with its first input. -/
def firstType (buffer : List UInt8) : ClientType := if buffer.getD 0 0 = 60 then .command else .withrottle

def setType (cd : CommandDistributor) (clientId : UInt8) (type : ClientType) : CommandDistributor :=
  { cd with clients := cd.clients.set clientId.toNat type }

/-- `WiThrottle::getThrottle` -/
def getThrottle (cd : CommandDistributor) (clientId : UInt8) : CommandDistributor :=
  if clientId ∈ cd.throttles then cd else { cd with throttles := clientId :: cd.throttles }

/-- The input of a client whose type is known. -/
def dispatch (cd : CommandDistributor) (clientId : UInt8) (type : ClientType) (buffer : List UInt8)
    (actions : List Action) : CommandDistributor :=
  if type = .command then (cd.reply flash wide clientId actions).finish
  else if type = .withrottle then ((cd.getThrottle clientId).reply flash wide clientId actions).finish
  else
    match Websockets.unmask buffer with
    | .reply bytes =>
      { cd with ring := (cd.ring.send flash wide (clientId &&& 0x7f) (bytes.map Item.byte)).1 }
    | .unknown => cd
    | .payload _ =>
      (cd.reply flash wide (clientId ||| Websockets.websockClientMarker) actions).finish

/-- `CommandDistributor::parse`. `handshake` is the answer to the request for a websocket with this key,
and the actions are those of the parser for the client's type. -/
def parse (handshake : List UInt8 → List Item) (cd : CommandDistributor) (clientId : UInt8)
    (buffer : List UInt8) (actions : List Action) : CommandDistributor :=
  match cd.clients[clientId.toNat]? with
  | none => cd  -- invalid client
  | some type =>
    let cd := { cd with known := true }
    if type = .none then
      match Websockets.connectionKey buffer with
      | some key =>
        -- websockets will have replied already
        ({ cd with ring := (cd.ring.send flash wide clientId (handshake key)).1 }).setType clientId
          .websockConnecting
      | none =>
        (cd.setType clientId (firstType buffer)).dispatch flash wide clientId (firstType buffer) buffer
          actions
    else if type = .websockConnecting then
      -- after first inbound transmission the websocket is connected
      (cd.setType clientId .websocket).dispatch flash wide clientId .websocket buffer actions
    else cd.dispatch flash wide clientId type buffer actions

/-- `CommandDistributor::forget` -/
def forget (cd : CommandDistributor) (clientId : UInt8) : CommandDistributor :=
  { cd with
    throttles := if cd.clients[clientId.toNat]? = some .withrottle then
      cd.throttles.erase clientId else cd.throttles
    clients := cd.clients.set clientId.toNat .none
    virtualLCDClient := if cd.virtualLCDClient = clientId then noClient else cd.virtualLCDClient }

/-! ## What happens to the ring -/

/-- A programming callback when no message is open. -/
def asyncReply (cd : CommandDistributor) (s : Stash) (actions : List Action) : CommandDistributor :=
  match cd.stashed s with
  | none => cd
  | some client =>
    let cd := cd.reply flash wide client actions
    { cd with ring := cd.ring.commit.1 }.unstash s

/-- The output of `WiThrottle::checkHeartbeat` for the client of a throttle. -/
def throttleReply (cd : CommandDistributor) (clientId : UInt8) (items : List Item) : CommandDistributor :=
  if clientId ∈ cd.throttles then
    { cd with ring := (cd.ring.send flash wide clientId items).1 }
  else cd

inductive Event where
  | parse (clientId : UInt8) (buffer : List UInt8) (actions : List Action)
  /-- One call of `broadcastToClients`. There is a second one for the websocket clients when something is
  broadcast to the command clients. -/
  | broadcast (type : ClientType) (text : List UInt8)
  | display (items : List Item)
  | throttle (clientId : UInt8) (items : List Item)
  /-- A `WiThrottle` object is deleted when its client quits or is silent for too long. -/
  | drop (clientId : UInt8)
  | callback (s : Stash) (actions : List Action)
  | forget (clientId : UInt8)
  /-- The interface takes a message out of the ring. -/
  | receive
  deriving DecidableEq, Repr

variable (handshake : List UInt8 → List Item)

def step (cd : CommandDistributor) : Event → CommandDistributor
  | .parse clientId buffer actions => cd.parse flash wide handshake clientId buffer actions
  | .broadcast type text => cd.broadcastToClients flash wide type text
  | .display items => cd.display flash wide items
  | .throttle clientId items => cd.throttleReply flash wide clientId items
  | .drop clientId => { cd with throttles := cd.throttles.erase clientId }
  | .callback s actions => cd.asyncReply flash wide s actions
  | .forget clientId => cd.forget clientId
  | .receive => { cd with ring := (cd.ring.receive flash wide).2 }

/-- A command station with this number of clients and a ring of this size. -/
def new (maxNumTcpClients len : Nat) : CommandDistributor where
  clients := List.replicate maxNumTcpClients .none
  known := false
  ring := RingStream.new len
  virtualLCDClient := noClient
  stashed _ := none
  throttles := []

end CommandDistributor

end CommandStation
