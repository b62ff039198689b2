import TinyWS.Framework.Machine
import TinyWS.Net.Registration

/-! # Connector

    A `Connector` makes one connection, and tries again when it fails.
    While a socket is being connected, `channel_` waits for it to become
    writable.  The channel cannot be destroyed inside its own handler, so
    `resetChannel` is queued; `stop` is queued as well, and a retry comes
    from a timer that nobody cancels.

    All of it happens in the loop thread.  The loop runs the queued
    functors in order, between any two handlers.  What the system answers
    is carried by the label. -/

namespace TinyWS

open Std

/-- `Connector::States`. -/
inductive ConnectorState where
  | kDisconnected
  | kConnecting
  | kConnected
  deriving DecidableEq, Repr

/-- `savedErrno` after `::connect`. -/
inductive ConnectErrno where
  /-- `result == 0`. -/
  | none
  | EINPROGRESS | EINTR | EISCONN
  | EAGAIN | EADDRINUSE | EADDRNOTAVAIL | ECONNREFUSED | ENETUNREACH
  | EACCES | EPERM | EAFNOSUPPORT | EALREADY | EBADF | EFAULT | ENOTSOCK
  | other (n : Nat)
  deriving DecidableEq, Repr

/-- The cases of the `switch` that go on to `connecting`. -/
def ConnectErrno.underWay : ConnectErrno → Bool
  | none | EINPROGRESS | EINTR | EISCONN => true
  | _ => false

/-- What one call of `Connector::connect` gets: a socket, the outcome of
    `::connect`, and memory for a channel. -/
structure ConnectAttempt where
  sockfd : Int
  savedErrno : ConnectErrno
  channel : ChannelPtr
  deriving DecidableEq, Repr

/-- The functors a connector queues on its loop. -/
inductive ConnectorFunctor where
  | stopInLoop
  | resetChannel
  deriving DecidableEq, Repr

/-- The asserts of `Connector`, by the functions that have them. -/
inductive ConnectorAssert where
  | startInLoop
  | connecting
  | handleError
  | handleWrite
  deriving DecidableEq, Repr

/-- `class Connector`, with what it has in its loop.  The last three fields
    are histories: no code reads them. -/
structure Connector where
  connect_ : Bool
  state_ : ConnectorState
  channel_ : Option Channel
  retryDelayMs_ : Nat
  epoll_ : Epoll
  pendingFunctors_ : List ConnectorFunctor
  /-- The timers that wait for `startInLoop`, with the delays `runAfter`
      was given. -/
  timers : List Nat
  /-- The asserts that failed. -/
  failed : List ConnectorAssert
  /-- The sockets that are being connected. -/
  sockets : List Int
  /-- The sockets given to `newConnectionCallback_`. -/
  established : List Int

namespace Connector

def kMaxRetryDelayMs : Nat := 30 * 1000

def kInitRetryDelayMs : Nat := 500

/-- The constructor. -/
def new : Connector where
  connect_ := false
  state_ := .kDisconnected
  channel_ := none
  retryDelayMs_ := kInitRetryDelayMs
  epoll_ := Epoll.new
  pendingFunctors_ := []
  timers := []
  failed := []
  sockets := []
  established := []

/-! ## Helpers of the loop and of the system -/

/-- A failed assert is noted, and the function goes on. -/
def assert (name : ConnectorAssert) (holds : Bool) (c : Connector) : Connector :=
  if holds then c else { c with failed := c.failed ++ [name] }

def setState (c : Connector) (state : ConnectorState) : Connector := { c with state_ := state }

def queueInLoop (c : Connector) (f : ConnectorFunctor) : Connector :=
  { c with pendingFunctors_ := c.pendingFunctors_ ++ [f] }

/-- `::close`. -/
def close (c : Connector) (sockfd : Int) : Connector :=
  { c with sockets := c.sockets.erase sockfd }

/-! ## Member functions -/

/-- The delay is computed in `double` and passed as an integer. -/
def retry (c : Connector) (sockfd : Int) : Connector :=
  let c := (c.close sockfd).setState .kDisconnected
  if c.connect_ then
    { c with
      timers := c.timers ++ [c.retryDelayMs_ / 1000]
      retryDelayMs_ := min (c.retryDelayMs_ * 2) kMaxRetryDelayMs }
  else c

/-- `channel_->disableAll(); channel_->remove(); ...`.  The channel stays
    in place until `resetChannel` runs. -/
def removeAndResetChannel (c : Connector) (ch : Channel) : Connector :=
  let disabled := ch.disableAll c.epoll_
  let removed := disabled.2.remove disabled.1
  { c with channel_ := some removed.2, epoll_ := removed.1 }.queueInLoop .resetChannel

def resetChannel (c : Connector) : Connector := { c with channel_ := none }

def connecting (c : Connector) (a : ConnectAttempt) : Connector :=
  let c := c.setState .kConnecting
  -- `channel_.reset(new Channel(...))`: a channel that is there is lost
  let c := c.assert .connecting c.channel_.isNone
  let enabled := (Channel.new a.channel a.sockfd).enableWriting c.epoll_
  { c with
    channel_ := some enabled.2
    epoll_ := enabled.1
    sockets := c.sockets ++ [a.sockfd] }

def connect (c : Connector) (a : ConnectAttempt) : Connector :=
  match a.savedErrno with
  | .none | .EINPROGRESS | .EINTR | .EISCONN => c.connecting a
  | .EAGAIN | .EADDRINUSE | .EADDRNOTAVAIL | .ECONNREFUSED | .ENETUNREACH => c.retry a.sockfd
  | .EACCES | .EPERM | .EAFNOSUPPORT | .EALREADY | .EBADF | .EFAULT | .ENOTSOCK =>
      c.close a.sockfd
  | .other _ => c.close a.sockfd

def startInLoop (c : Connector) (a : ConnectAttempt) : Connector :=
  let c := c.assert .startInLoop (c.state_ = .kDisconnected)
  if c.connect_ then c.connect a else c

/-- In the loop thread `runInLoop` calls at once. -/
def start (c : Connector) (a : ConnectAttempt) : Connector :=
  { c with connect_ := true }.startInLoop a

def restart (c : Connector) (a : ConnectAttempt) : Connector :=
  { c.setState .kDisconnected with
    retryDelayMs_ := kInitRetryDelayMs
    connect_ := true }.startInLoop a

def stop (c : Connector) : Connector := { c with connect_ := false }.queueInLoop .stopInLoop

/-- There is a channel while the state is `kConnecting`, unless the assert
    of `connecting` has failed. -/
def stopInLoop (c : Connector) : Connector :=
  match c.state_, c.channel_ with
  | .kConnecting, some ch =>
      ((c.setState .kDisconnected).removeAndResetChannel ch).retry ch.fd_
  | _, _ => c

/-- `newConnectionCallback_`; what it does comes as later steps. -/
def newConnectionCallback (c : Connector) (sockfd : Int) : Connector :=
  { c with established := c.established ++ [sockfd], sockets := c.sockets.erase sockfd }

/-- `soError` says whether `SO_ERROR` is set, and `selfConnect` whether the
    socket is connected to itself. -/
def handleWrite (c : Connector) (soError selfConnect : Bool) : Connector :=
  match c.state_, c.channel_ with
  | .kConnecting, some ch =>
      let c := c.removeAndResetChannel ch
      if soError then c.retry ch.fd_
      else if selfConnect then c.retry ch.fd_
      else
        let c := c.setState .kConnected
        if c.connect_ then c.newConnectionCallback ch.fd_ else c.close ch.fd_
  | .kConnecting, none => c
  | .kDisconnected, _ | .kConnected, _ =>
      c.assert .handleWrite (c.state_ = .kDisconnected)

def handleError (c : Connector) : Connector :=
  let c := c.assert .handleError (c.state_ = .kConnecting)
  match c.channel_ with
  | some ch => (c.removeAndResetChannel ch).retry ch.fd_
  | none => c

/-- `Channel::handleEvent` with the two callbacks that are set. -/
def handleEvent (c : Connector) (err out soError selfConnect : Bool) : Connector :=
  let c := if err then c.handleError else c
  if out then c.handleWrite soError selfConnect else c

def runFunctor (c : Connector) : ConnectorFunctor → Connector
  | .stopInLoop => c.stopInLoop
  | .resetChannel => c.resetChannel

/-- The loop runs the first queued functor. -/
def doPendingFunctor (c : Connector) : Connector :=
  match c.pendingFunctors_ with
  | [] => c
  | f :: fs => { c with pendingFunctors_ := fs }.runFunctor f

end Connector

/-- The calls of the user and what the loop does. -/
inductive ConnectorStep where
  | start (a : ConnectAttempt)
  | restart (a : ConnectAttempt)
  | stop
  /-- A retry timer expires. -/
  | retryTimer (i : Nat) (a : ConnectAttempt)
  | handleEvent (err out soError selfConnect : Bool)
  | doPendingFunctor
  deriving DecidableEq, Repr

namespace Connector

def next (c : Connector) : ConnectorStep → Connector
  | .start a => c.start a
  | .restart a => c.restart a
  | .stop => c.stop
  | .retryTimer i a => { c with timers := c.timers.eraseIdx i }.startInLoop a
  | .handleEvent err out soError selfConnect => c.handleEvent err out soError selfConnect
  | .doPendingFunctor => c.doPendingFunctor

/-- `::socket` gives a descriptor that is not in use. -/
def Fresh (c : Connector) (a : ConnectAttempt) : Prop :=
  a.sockfd ∉ c.epoll_.interest ∧ a.sockfd ∉ c.sockets

instance (c : Connector) (a : ConnectAttempt) : Decidable (c.Fresh a) :=
  inferInstanceAs (Decidable (_ ∧ _))

/-- The channel is in the kernel's set. -/
def Registered (c : Connector) : Prop := ∃ ch ∈ c.channel_, ch.fd_ ∈ c.epoll_.interest

instance (c : Connector) : Decidable c.Registered :=
  inferInstanceAs (Decidable (∃ ch ∈ c.channel_, _))

def guard (c : Connector) : ConnectorStep → Prop
  | .start a | .restart a => c.Fresh a
  | .stop => True
  | .retryTimer i a => i < c.timers.length ∧ c.Fresh a
  | .handleEvent _ _ _ _ => c.Registered
  | .doPendingFunctor => c.pendingFunctors_ ≠ []

instance (c : Connector) : DecidablePred c.guard
  | .start a | .restart a => inferInstanceAs (Decidable (c.Fresh a))
  | .stop => isTrue trivial
  | .retryTimer i a => inferInstanceAs (Decidable (i < c.timers.length ∧ c.Fresh a))
  | .handleEvent _ _ _ _ => inferInstanceAs (Decidable c.Registered)
  | .doPendingFunctor => inferInstanceAs (Decidable (c.pendingFunctors_ ≠ []))

end Connector

/-- Calls, events, timers and functors in any order. -/
def connector : Machine Connector ConnectorStep where
  guard := Connector.guard
  next := Connector.next

instance (c : Connector) (l : ConnectorStep) : Decidable (connector.guard c l) :=
  inferInstanceAs (Decidable (c.guard l))

end TinyWS
