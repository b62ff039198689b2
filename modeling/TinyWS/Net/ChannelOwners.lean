import TinyWS.Net.Connector
import TinyWS.Net.TcpConnection

/-! # Who Owns a Channel

    A channel belongs to a timer queue, to an event loop, to an acceptor, to
    a connection or to a connector, and is destroyed with its owner, or by
    a connector that resets it.  Until then its owner must have taken it out
    of the loop: `~Channel` asserts it, and `channels_` holds raw pointers.

    `~TimerQueue` does not do this.  It only closes the timerfd, so every
    event loop that is destroyed destroys a channel that is registered.  The
    other owners do it, with two exceptions: a `sendInLoop` that runs after
    `connectionDestroyed` may register the channel again, and a connector
    does not look at the channel it has. -/

namespace TinyWS

open Std

/-! ## State -/

/-- `class TcpConnection`, with the functors it has in its loop.  The last
    field is a history: whether `connectionDestroyed` has run. -/
structure OwnedConnection extends TcpConnection where
  pendingFunctors_ : List ConnFunctor
  removed : Bool

/-- The objects that own a channel. -/
inductive ChannelOwner where
  | timerQueue (timerfdChannel_ : Channel)
  | eventLoop (wakeupChannel_ : Channel)
  | acceptor (acceptChannel_ : Channel)
  | connection (c : OwnedConnection)
  | connector (c : Connector)

def ChannelOwner.channel : ChannelOwner → Option Channel
  | .timerQueue ch | .eventLoop ch | .acceptor ch => some ch
  | .connection c => some c.channel_
  | .connector c => c.channel_

/-- One event loop, and who has a channel in it. -/
structure OwningLoop where
  looping_ : Bool
  epoll_ : Epoll
  /-- The owners, by their addresses. -/
  owners : Nat → Option ChannelOwner
  /-- The next address; none is used twice. -/
  allocated : Nat

/-- What `~Channel` finds. -/
structure ChannelDestroyed where
  addedToLoop_ : Bool
  /-- Whether the channel is a value of `channels_`. -/
  mapped : Bool
  deriving DecidableEq, Repr

/-- `~Channel`. -/
def Channel.destroy (ch : Channel) (ep : Epoll) : ChannelDestroyed where
  addedToLoop_ := ch.addedToLoop_
  mapped := ep.channels_.toList.any (·.2 == ch.self)

/-- `disableAll(); remove();`. -/
def Channel.retire (ch : Channel) (ep : Epoll) : Epoll × Channel :=
  let disabled := ch.disableAll ep
  disabled.2.remove disabled.1

/-- The channel that a step of a connector destroys: `resetChannel` runs, or
    an attempt gets under way over a channel that is still there. -/
def Connector.loses (c : Connector) : ConnectorStep → Option Channel
  | .doPendingFunctor => if c.pendingFunctors_.head? = some .resetChannel then c.channel_ else none
  | .start a | .restart a => if a.savedErrno.underWay then c.channel_ else none
  | .retryTimer _ a => if c.connect_ && a.savedErrno.underWay then c.channel_ else none
  | .stop | .handleEvent _ _ _ _ => none

/-- The memory that a step may ask for. -/
def ConnectorStep.attempt : ConnectorStep → Option ConnectAttempt
  | .start a | .restart a | .retryTimer _ a => some a
  | .stop | .handleEvent _ _ _ _ | .doPendingFunctor => none

namespace OwningLoop

/-- `EventLoop::EventLoop()`, with the `TimerQueue` it makes. -/
def new (timerfd wakeupFd : Int) : OwningLoop :=
  let timerQueue := (Channel.new 0 timerfd).enableReading Epoll.new
  let eventLoop := (Channel.new 1 wakeupFd).enableReading timerQueue.1
  { looping_ := false
    epoll_ := eventLoop.1
    owners := fun
      | 0 => some (.timerQueue timerQueue.2)
      | 1 => some (.eventLoop eventLoop.2)
      | _ => none
    allocated := 2 }

/-! ### Objects -/

def setOwner (s : OwningLoop) (p : Nat) (o : Option ChannelOwner) : OwningLoop :=
  { s with owners := Function.update s.owners p o }

/-- A new object. -/
def allocate (s : OwningLoop) (o : ChannelOwner) : OwningLoop :=
  { s.setOwner s.allocated (some o) with allocated := s.allocated + 1 }

/-- A connection as its member functions find it. -/
def endpoint (s : OwningLoop) (c : OwnedConnection) : Endpoint :=
  { c.toTcpConnection with epoll_ := s.epoll_, pendingFunctors_ := c.pendingFunctors_ }

/-- Run a member function of the connection at `p`. -/
def withConn (s : OwningLoop) (p : Nat) (c : OwnedConnection) (removed : Bool)
    (f : Endpoint → Endpoint) : OwningLoop :=
  let e := f (s.endpoint c)
  { s.setOwner p (some (.connection ⟨e.toTcpConnection, e.pendingFunctors_, removed⟩)) with
    epoll_ := e.epoll_ }

/-- A connector as its member functions find it. -/
def inLoop (s : OwningLoop) (c : Connector) : Connector := { c with epoll_ := s.epoll_ }

def withConnector (s : OwningLoop) (p : Nat) (c : Connector) : OwningLoop :=
  { s.setOwner p (some (.connector c)) with epoll_ := c.epoll_ }

end OwningLoop

/-! ## Steps -/

inductive OwnerStep where
  /-- `addTimer`, `cancel` or `handleRead` of the timer queue. -/
  | timer
  | loop
  | loopReturns
  | newAcceptor (fd : Int)
  | listen (p : Nat)
  | destroyAcceptor (p : Nat)
  | newConnection (name : String) (fd : Int) (writeComplete : Bool)
  | connectionEstablished (p : Nat)
  | connection (p : Nat) (l : ConnStep)
  | destroyConnection (p : Nat)
  | newConnector
  | connector (p : Nat) (l : ConnectorStep)
  | destroyConnector (p : Nat)
  | destroyEventLoop
  deriving DecidableEq, Repr

namespace OwningLoop

/-- The loop after the step, if there is one. -/
def next (s : OwningLoop) : OwnerStep → Option OwningLoop
  -- the timers are kept in sets, and the channel of the timerfd stays as it is
  | .timer => some s
  | .loop => some { s with looping_ := true }
  | .loopReturns => some { s with looping_ := false }
  | .newAcceptor fd => some (s.allocate (.acceptor (Channel.new s.allocated fd)))
  | .listen p =>
      match s.owners p with
      | some (.acceptor ch) =>
          let enabled := ch.enableReading s.epoll_
          some { s.setOwner p (some (.acceptor enabled.2)) with epoll_ := enabled.1 }
      | _ => some s
  | .destroyAcceptor p =>
      match s.owners p with
      | some (.acceptor ch) => some { s.setOwner p none with epoll_ := (ch.retire s.epoll_).1 }
      | _ => some s
  | .newConnection name fd writeComplete =>
      some (s.allocate (.connection
        ⟨TcpConnection.new name 0 s.allocated fd writeComplete, [], false⟩))
  | .connectionEstablished p =>
      match s.owners p with
      | some (.connection c) => some (s.withConn p c c.removed Endpoint.connectionEstablished)
      | _ => some s
  | .connection p l =>
      match s.owners p with
      | some (.connection c) =>
          some (s.withConn p c (c.removed || l = .connectionDestroyed) (·.step l))
      | _ => some s
  | .destroyConnection p => some (s.setOwner p none)
  | .newConnector => some (s.allocate (.connector Connector.new))
  | .connector p l =>
      match s.owners p with
      | some (.connector c) =>
          some { s.withConnector p ((s.inLoop c).next l) with allocated := s.allocated + 1 }
      | _ => some s
  | .destroyConnector p => some (s.setOwner p none)
  | .destroyEventLoop => none

/-- The channels that the step destroys, in the state of the epoll in which
    it does. -/
def destroys (s : OwningLoop) : OwnerStep → List ChannelDestroyed
  | .destroyAcceptor p =>
      match s.owners p with
      | some (.acceptor ch) => [(ch.retire s.epoll_).2.destroy (ch.retire s.epoll_).1]
      | _ => []
  | .destroyConnection p =>
      match s.owners p with
      | some (.connection c) => [c.channel_.destroy s.epoll_]
      | _ => []
  | .connector p l =>
      match s.owners p with
      | some (.connector c) => (c.loses l).toList.map (·.destroy s.epoll_)
      | _ => []
  | .destroyConnector p =>
      match s.owners p with
      | some (.connector c) => c.channel_.toList.map (·.destroy s.epoll_)
      | _ => []
  -- `~EventLoop()` retires `wakeupChannel_`; then the members go, last one first, and
  -- `timerQueue_` stands between `epoll_` and `wakeupChannel_`
  | .destroyEventLoop =>
      match s.owners 1, s.owners 0 with
      | some (.eventLoop wakeupChannel), some (.timerQueue timerfdChannel) =>
          let retired := wakeupChannel.retire s.epoll_
          [retired.2.destroy retired.1, timerfdChannel.destroy retired.1]
      | _, _ => []
  | .timer | .loop | .loopReturns | .newAcceptor _ | .listen _ | .newConnection _ _ _
  | .connectionEstablished _ | .connection _ _ | .newConnector => []

/-- Events are for channels that were not removed. -/
def mayStep (c : OwnedConnection) : ConnStep → Prop
  | .handleRead _ | .handleWrite _ | .handleClose => c.channel_.statusInEpoll_ ≠ .kNew
  | .send _ _ _ | .shutdown _ | .doPendingFunctor _ | .connectionDestroyed => True

instance (c : OwnedConnection) : DecidablePred (mayStep c)
  | .handleRead _ | .handleWrite _ | .handleClose =>
      inferInstanceAs (Decidable (c.channel_.statusInEpoll_ ≠ .kNew))
  | .send _ _ _ | .shutdown _ | .doPendingFunctor _ | .connectionDestroyed => isTrue trivial

def guard (s : OwningLoop) : OwnerStep → Prop
  | .timer | .newAcceptor _ | .newConnection _ _ _ | .newConnector => True
  | .loop => s.looping_ = false
  | .loopReturns => s.looping_ = true
  | .listen p | .destroyAcceptor p =>
      match s.owners p with
      | some (.acceptor _) => True
      | _ => False
  -- it was queued before `connectionDestroyed` could be
  | .connectionEstablished p =>
      match s.owners p with
      | some (.connection c) => c.state_ = .kConnecting ∧ c.removed = false
      | _ => False
  | .connection p l =>
      match s.owners p with
      | some (.connection c) => mayStep c l
      | _ => False
  | .destroyConnection p =>
      match s.owners p with
      | some (.connection c) => c.removed = true
      | _ => False
  | .connector p l =>
      match s.owners p with
      | some (.connector c) =>
          (s.inLoop c).guard l ∧ ∀ a ∈ l.attempt, a.channel = s.allocated
      | _ => False
  | .destroyConnector p =>
      match s.owners p with
      | some (.connector _) => True
      | _ => False
  -- `assert(!looping_)`
  | .destroyEventLoop => s.looping_ = false

instance (s : OwningLoop) : DecidablePred s.guard := fun l => by
  unfold guard
  cases l <;> dsimp only <;> first | infer_instance | (split <;> infer_instance)

end OwningLoop

/-- The event loops of a program, and what `~Channel` has found so far. -/
structure ChannelLibrary where
  loops : LoopId → Option OwningLoop
  destroyed : List ChannelDestroyed

inductive LibraryStep where
  | newEventLoop (l : LoopId) (timerfd wakeupFd : Int)
  | inLoop (l : LoopId) (step : OwnerStep)
  deriving DecidableEq, Repr

namespace ChannelLibrary

def start : ChannelLibrary := ⟨fun _ => none, []⟩

def next (s : ChannelLibrary) : LibraryStep → ChannelLibrary
  | .newEventLoop l timerfd wakeupFd =>
      { s with loops := Function.update s.loops l (some (OwningLoop.new timerfd wakeupFd)) }
  | .inLoop l step =>
      match s.loops l with
      | none => s
      | some loop =>
          { loops := Function.update s.loops l (loop.next step)
            destroyed := s.destroyed ++ loop.destroys step }

def guard (s : ChannelLibrary) : LibraryStep → Prop
  | .newEventLoop l _ _ => (s.loops l).isNone
  | .inLoop l step => ∃ loop ∈ s.loops l, loop.guard step

instance (s : ChannelLibrary) : DecidablePred s.guard
  | .newEventLoop l _ _ => inferInstanceAs (Decidable ((s.loops l).isNone))
  | .inLoop l step => inferInstanceAs (Decidable (∃ loop ∈ s.loops l, loop.guard step))

end ChannelLibrary

/-- Any loops, each with any owners, in any order. -/
def channelLibrary : Machine ChannelLibrary LibraryStep where
  guard := ChannelLibrary.guard
  next := ChannelLibrary.next

instance (s : ChannelLibrary) (l : LibraryStep) : Decidable (channelLibrary.guard s l) :=
  inferInstanceAs (Decidable (s.guard l))

/-! ## The specification -/

/-- The channel was not registered. -/
def ChannelDestroyed.Clean (d : ChannelDestroyed) : Prop :=
  d.addedToLoop_ = false ∧ d.mapped = false

instance (d : ChannelDestroyed) : Decidable d.Clean := inferInstanceAs (Decidable (_ ∧ _))

/-- All channels destroyed so far were deregistered. -/
def ChannelLibrary.Deregistered (s : ChannelLibrary) : Prop := ∀ d ∈ s.destroyed, d.Clean

instance (s : ChannelLibrary) : Decidable s.Deregistered :=
  inferInstanceAs (Decidable (∀ d ∈ s.destroyed, d.Clean))

/-- The functor that runs next is a `sendInLoop` that will not get rid of
    its message. -/
def Endpoint.LeavesRest (e : Endpoint) (w : WriteResult) : Prop :=
  match e.pendingFunctors_ with
  | .sendInLoop message :: _ => e.Idle ∧ (w.accepted message.length).getD 0 < message.length
  | _ => False

instance (e : Endpoint) (w : WriteResult) : Decidable (e.LeavesRest w) := by
  unfold Endpoint.LeavesRest
  split <;> infer_instance

/-- There is no channel, and none is to be reset. -/
def Connector.Vacant (c : Connector) : Prop :=
  c.channel_ = none ∧ ConnectorFunctor.resetChannel ∉ c.pendingFunctors_

instance (c : Connector) : Decidable c.Vacant := inferInstanceAs (Decidable (_ ∧ _))

/-- An attempt gets under way in a vacant connector. -/
def Connector.StartsVacant (c : Connector) : ConnectorStep → Prop
  | .start a | .restart a => a.savedErrno.underWay = true → c.Vacant
  | .retryTimer _ a => c.connect_ = true → a.savedErrno.underWay = true → c.Vacant
  | .stop | .handleEvent _ _ _ _ | .doPendingFunctor => True

instance (c : Connector) : DecidablePred c.StartsVacant
  | .start _ | .restart _ => inferInstanceAs (Decidable (_ → c.Vacant))
  | .retryTimer _ _ => inferInstanceAs (Decidable (_ → _ → c.Vacant))
  | .stop | .handleEvent _ _ _ _ | .doPendingFunctor => isTrue trivial

/-- The condition of the runs: no event loop is destroyed, no `sendInLoop`
    leaves a rest after `connectionDestroyed`, and connectors begin their
    attempts, and are destroyed, without a channel in the loop. -/
def OwningLoop.Tidy (s : OwningLoop) : OwnerStep → Prop
  | .destroyEventLoop => False
  | .connection p (.doPendingFunctor w) =>
      match s.owners p with
      | some (.connection c) => c.removed = true → ¬ (s.endpoint c).LeavesRest w
      | _ => True
  | .connector p l =>
      match s.owners p with
      | some (.connector c) => c.StartsVacant l
      | _ => True
  | .destroyConnector p =>
      match s.owners p with
      | some (.connector c) =>
          c.channel_ = none ∨ ConnectorFunctor.resetChannel ∈ c.pendingFunctors_
      | _ => True
  | _ => True

instance (s : OwningLoop) : DecidablePred s.Tidy := fun l => by
  unfold OwningLoop.Tidy
  split <;> first | infer_instance | (split <;> infer_instance)

def ChannelLibrary.Tidy (s : ChannelLibrary) : LibraryStep → Prop
  | .newEventLoop _ _ _ => True
  | .inLoop l step => ∀ loop ∈ s.loops l, loop.Tidy step

instance (s : ChannelLibrary) : DecidablePred s.Tidy
  | .newEventLoop _ _ _ => isTrue trivial
  | .inLoop l step => inferInstanceAs (Decidable (∀ loop ∈ s.loops l, loop.Tidy step))

end TinyWS
