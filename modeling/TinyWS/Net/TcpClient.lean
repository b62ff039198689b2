import TinyWS.Net.Connector
import TinyWS.Net.TcpServer

/-! # TcpClient

    The client has a `Connector`, whose loop it shares, and at most one
    connection.  `newConnection` makes the `TcpConnection`, sets its
    callbacks and returns: the pointer is not stored in `connection_`, and
    `connectionEstablished` is not called.  So the new connection is
    destroyed on return, while it is still `kConnecting`. -/

namespace TinyWS

/-- `class TcpClient`.  The last four fields are histories: no code reads
    them. -/
structure TcpClient where
  connector_ : Connector
  name_ : String
  retry_ : Bool
  connect_ : Bool
  nextConnectionId_ : Int
  connection_ : Option ConnPtr
  /-- The objects made so far are those below `created`. -/
  conns : ConnPtr → TcpConnection
  created : Nat
  /-- The queued `connectionDestroyed`, each with a `shared_ptr`. -/
  pendingFunctors_ : List ConnPtr
  /-- The connection that was established last, until it is closed. -/
  current : Option ConnPtr
  /-- `connection_ == conntion`, at each `removeConnection`. -/
  removeAsserts : List Bool
  /-- The states of the connections at their destructors. -/
  destroyed : List StateE

namespace TcpClient

/-- The constructor. -/
def new (name : String) : TcpClient where
  connector_ := Connector.new
  name_ := name
  retry_ := false
  connect_ := true
  nextConnectionId_ := 1
  connection_ := none
  conns _ := TcpConnection.new "" 0 0 (-1) false
  created := 0
  pendingFunctors_ := []
  current := none
  removeAsserts := []
  destroyed := []

/-! ## Objects -/

/-- Some `shared_ptr` to the connection exists. -/
def held (t : TcpClient) (c : ConnPtr) : Bool :=
  t.connection_ == some c || t.pendingFunctors_.contains c

/-- A local `shared_ptr` goes out of scope. -/
def release (t : TcpClient) (c : ConnPtr) : TcpClient :=
  if t.held c then t else { t with destroyed := t.destroyed ++ [(t.conns c).state_] }

/-- Run a member function of a connection. -/
def withConn (t : TcpClient) (c : ConnPtr) (f : Endpoint → Endpoint) : TcpClient :=
  let e := f { t.conns c with epoll_ := t.connector_.epoll_, pendingFunctors_ := [] }
  { t with
    conns := fun d => if d = c then e.toTcpConnection else t.conns d
    connector_ := { t.connector_ with epoll_ := e.epoll_ } }

/-! ## Member functions -/

def connect (t : TcpClient) (a : ConnectAttempt) : TcpClient :=
  { t with connect_ := true, connector_ := t.connector_.start a }

def disconnect (t : TcpClient) : TcpClient :=
  let t := { t with connect_ := false }
  match t.connection_ with
  | none => t
  | some c => { t.withConn c fun e => e.shutdown true with current := none }

def stop (t : TcpClient) : TcpClient :=
  { t with connect_ := false, connector_ := t.connector_.stop }

def enableRetry (t : TcpClient) : TcpClient := { t with retry_ := true }

/-- `newConnection`, where the channel of the new connection is at `self`.
    The last thing it does is to drop its pointer. -/
def newConnection (t : TcpClient) (sockfd : Int) (self : ChannelPtr) : TcpClient :=
  let c := t.created
  let connectionName := t.name_ ++ "#" ++ toString t.nextConnectionId_
  let connection := TcpConnection.new connectionName 0 self sockfd false
  { t with
    nextConnectionId_ := t.nextConnectionId_ + 1
    conns := fun d => if d = c then connection else t.conns d
    created := c + 1
    current := some c }.release c

def removeConnection (t : TcpClient) (c : ConnPtr) (a : ConnectAttempt) : TcpClient :=
  let t := { t with
    removeAsserts := t.removeAsserts ++ [t.connection_ == some c]
    connection_ := none
    pendingFunctors_ := t.pendingFunctors_ ++ [c] }
  if t.retry_ && t.connect_ then { t with connector_ := t.connector_.restart a } else t

/-- `TcpConnection::handleClose`, with `removeConnection` as its callback. -/
def handleClose (t : TcpClient) (c : ConnPtr) (a : ConnectAttempt) : TcpClient :=
  let t := t.withConn c Endpoint.handleClose
  { t with current := if t.current = some c then none else t.current }.removeConnection c a

/-- The loop runs the first queued `connectionDestroyed` and drops it. -/
def doPendingFunctor (t : TcpClient) : TcpClient :=
  match t.pendingFunctors_ with
  | [] => t
  | c :: cs =>
      ({ t with pendingFunctors_ := cs }.withConn c Endpoint.connectionDestroyed).release c

/-- A step of the connector; it may end in `newConnectionCallback_`. -/
def connectorStep (t : TcpClient) (l : ConnectorStep) (self : ChannelPtr) : TcpClient :=
  let stepped := { t with connector_ := t.connector_.next l }
  match stepped.connector_.established.drop t.connector_.established.length with
  | [] => stepped
  | sockfd :: _ => stepped.newConnection sockfd self

end TcpClient

/-- The calls of the user, and what the loop does. -/
inductive ClientStep where
  | connect (a : ConnectAttempt)
  | disconnect
  | stop
  | enableRetry
  | retryTimer (i : Nat) (a : ConnectAttempt)
  /-- An event on the connecting socket; `self` is memory for the channel
      of a new connection. -/
  | handleEvent (err out soError selfConnect : Bool) (self : ChannelPtr)
  /-- The next functor of the connector. -/
  | connectorFunctor
  /-- The peer closes a connection. -/
  | handleClose (c : ConnPtr) (a : ConnectAttempt)
  | connectionDestroyed
  deriving DecidableEq, Repr

namespace TcpClient

def next (t : TcpClient) : ClientStep → TcpClient
  | .connect a => t.connect a
  | .disconnect => t.disconnect
  | .stop => t.stop
  | .enableRetry => t.enableRetry
  | .retryTimer i a => t.connectorStep (.retryTimer i a) 0
  | .handleEvent err out soError selfConnect self =>
      t.connectorStep (.handleEvent err out soError selfConnect) self
  | .connectorFunctor => t.connectorStep .doPendingFunctor 0
  | .handleClose c a => t.handleClose c a
  | .connectionDestroyed => t.doPendingFunctor

def guard (t : TcpClient) : ClientStep → Prop
  | .connect a => t.connector_.guard (.start a)
  | .disconnect | .stop | .enableRetry => True
  | .retryTimer i a => t.connector_.guard (.retryTimer i a)
  | .handleEvent err out soError selfConnect _ =>
      t.connector_.guard (.handleEvent err out soError selfConnect)
  | .connectorFunctor => t.connector_.guard .doPendingFunctor
  -- the epoll reports events of channels that are registered, and live
  | .handleClose c a =>
      t.held c = true ∧ (t.conns c).channel_.fd_ ∈ t.connector_.epoll_.interest ∧
        t.connector_.guard (.restart a)
  | .connectionDestroyed => t.pendingFunctors_ ≠ []

instance (t : TcpClient) : DecidablePred t.guard
  | .connect a => inferInstanceAs (Decidable (t.connector_.guard (.start a)))
  | .disconnect | .stop | .enableRetry => isTrue trivial
  | .retryTimer i a => inferInstanceAs (Decidable (t.connector_.guard (.retryTimer i a)))
  | .handleEvent err out soError selfConnect _ =>
      inferInstanceAs (Decidable (t.connector_.guard (.handleEvent err out soError selfConnect)))
  | .connectorFunctor => inferInstanceAs (Decidable (t.connector_.guard .doPendingFunctor))
  | .handleClose c a =>
      inferInstanceAs (Decidable (t.held c = true ∧
        (t.conns c).channel_.fd_ ∈ t.connector_.epoll_.interest ∧
          t.connector_.guard (.restart a)))
  | .connectionDestroyed => inferInstanceAs (Decidable (t.pendingFunctors_ ≠ []))

end TcpClient

/-- Calls and events in the loop thread, in any order. -/
def tcpClient : Machine TcpClient ClientStep where
  guard := TcpClient.guard
  next := TcpClient.next

instance (t : TcpClient) (l : ClientStep) : Decidable (tcpClient.guard t l) :=
  inferInstanceAs (Decidable (t.guard l))

end TinyWS
