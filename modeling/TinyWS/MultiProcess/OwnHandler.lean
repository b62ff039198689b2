import TinyWS.MultiProcess.TcpConnection
import TinyWS.Net.ChannelEvents
import TinyWS.Net.LifeCycle

/-! # Closing in One's Own Handler

    In multiProcess2 a connection is torn down in the middle of its own
    event: `handleClose` calls `removeConnection`, which erases the entry of
    `connectionMap_` and calls `connectionDestroyed`, and then
    `handleEventWithGuard` goes on with the next callback.  What keeps the
    object alive meanwhile is the `guard` of `Channel::handleEvent`.

    The machine is one process between two forks: its connections, its
    epoll, and the `handleEvent` that runs.  The callbacks of an event are
    steps of their own, so that the calls of the user come in between. -/

namespace TinyWS

open Std

namespace Process

/-! ## State -/

/-- `class TcpConnection` and the part of `class Channel` that concerns the
    handling of events. -/
structure ServedConnection extends TcpConnection where
  name_ : String
  inputBuffer_ : Buffer
  tied_ : Bool
  eventHandling_ : Bool

/-- A call of `Channel::handleEvent`. -/
structure HandlerFrame where
  channel : ConnPtr
  /-- Whether `guard` is a reference to the connection. -/
  guard : Bool
  /-- The callbacks `handleEventWithGuard` has still to call. -/
  todo : List EventCallback
  deriving DecidableEq

/-- What a destructor finds. -/
structure Destroyed where
  connection : ConnPtr
  /-- Whether `handleEvent` of its channel has not returned. -/
  executing : Bool
  state_ : StateE
  eventHandling_ : Bool
  addedToLoop_ : Bool
  /-- Whether the epoll maps the descriptor. -/
  mapped : Bool
  deriving DecidableEq

/-- The server in one process, with its loop.  The last four fields are
    histories. -/
structure Serving where
  name_ : String
  nextConnectionId_ : Int
  connectionMap_ : ExtTreeMap String ConnPtr compare
  /-- The objects made so far are those below `created`. -/
  conns : ConnPtr → ServedConnection
  created : Nat
  epoll_ : Epoll
  timerfd_ : Int
  acceptChannel_ : Channel
  /-- The channels of connections that the poll has reported, with their
      `revents_`. -/
  activeChannels_ : List (ConnPtr × BitVec 32)
  frame : Option HandlerFrame
  /-- The `TcpConnectionPtr`s that the user keeps. -/
  held : ConnPtr → Nat
  /-- How often `handleClose` was entered. -/
  entered : ConnPtr → Nat
  /-- The `n` of each `removeConnection`. -/
  erased : List Nat
  /-- `isNoneEvent()` at each `Channel::remove`. -/
  removeAsserts : List Bool
  destroyed : List Destroyed

namespace Serving

/-- After the constructor: the timer queue has registered its timerfd, and
    the accept channel is not registered yet. -/
def started (name : String) (timerfd listenfd : Int) : Serving where
  name_ := name
  nextConnectionId_ := 1
  connectionMap_ := ∅
  conns _ :=
    { TcpConnection.new 0 (-1) false Epoll.new with
      name_ := ""
      inputBuffer_ := Buffer.new
      tied_ := false
      eventHandling_ := false }
  created := 0
  epoll_ := (Process.enableReading .process2 (Channel.new 0 timerfd) Epoll.new).1
  timerfd_ := timerfd
  acceptChannel_ := Channel.new 0 listenfd
  activeChannels_ := []
  frame := none
  held _ := 0
  entered _ := 0
  erased := []
  removeAsserts := []
  destroyed := []

/-! ## References -/

/-- Some `shared_ptr` to the connection exists: in `connectionMap_`, where
    connections are under their own names, in `guard`, or with the user. -/
def owned (s : Serving) (c : ConnPtr) : Bool :=
  s.connectionMap_[(s.conns c).name_]? == some c ||
    s.frame.any (fun f => f.guard && f.channel == c) || 0 < s.held c

/-- `Channel::handleEvent` of the connection's channel runs. -/
def executing (s : Serving) (c : ConnPtr) : Bool := s.frame.any (·.channel == c)

/-- A reference was dropped.  If it was the last one, `~TcpConnection` and
    `~Channel` run. -/
def release (s : Serving) (c : ConnPtr) : Serving :=
  if s.owned c then s
  else
    { s with
      destroyed := s.destroyed ++ [{
        connection := c
        executing := s.executing c
        state_ := (s.conns c).state_
        eventHandling_ := (s.conns c).eventHandling_
        addedToLoop_ := (s.conns c).channel_.addedToLoop_
        mapped := s.epoll_.channels_.contains (s.conns c).channel_.fd_ }] }

/-- Run a member function of a connection over the epoll of the loop. -/
def withConn (s : Serving) (c : ConnPtr) (f : TcpConnection → TcpConnection) : Serving :=
  let done := f { (s.conns c).toTcpConnection with epoll_ := s.epoll_ }
  { s with
    conns := Function.update s.conns c { s.conns c with toTcpConnection := done }
    epoll_ := done.epoll_ }

def setEventHandling (s : Serving) (c : ConnPtr) (b : Bool) : Serving :=
  { s with conns := Function.update s.conns c { s.conns c with eventHandling_ := b } }

/-! ## Member functions -/

/-- `channel_->tie(shared_from_this())` stands in front of
    `enableReading`. -/
def connectionEstablished (s : Serving) (c : ConnPtr) : Serving :=
  withConn { s with conns := Function.update s.conns c { s.conns c with tied_ := true } } c
    (·.connectionEstablished .process2)

def connectionDestroyed (s : Serving) (c : ConnPtr) : Serving :=
  let s := s.withConn c (·.disconnect .process2)
  { s with removeAsserts := s.removeAsserts ++ [(s.conns c).channel_.isNoneEvent] }.withConn c
    TcpConnection.remove

/-- The object, and its entry. -/
def enter (s : Serving) (connectionName : String) (fd : Int) (writeComplete : Bool) : Serving :=
  let connection : ServedConnection :=
    { TcpConnection.new s.created fd writeComplete s.epoll_ with
      name_ := connectionName
      inputBuffer_ := Buffer.new
      tied_ := false
      eventHandling_ := false }
  { s with
    nextConnectionId_ := s.nextConnectionId_ + 1
    conns := Function.update s.conns s.created connection
    created := s.created + 1
    connectionMap_ := s.connectionMap_.insert connectionName s.created }

/-- `newConnectionInParent`. -/
def newConnection (s : Serving) (fd : Int) (writeComplete : Bool) : Serving :=
  (s.enter (s.name_ ++ toString s.nextConnectionId_) fd writeComplete).connectionEstablished
    s.created

def removeConnection (s : Serving) (connection : ConnPtr) : Serving :=
  let name := (s.conns connection).name_
  let n := if s.connectionMap_.contains name then 1 else 0
  connectionDestroyed
    { s with connectionMap_ := s.connectionMap_.erase name, erased := s.erased ++ [n] } connection

/-- The argument of `closeCallback_` is a reference too, until it
    returns. -/
def handleClose (s : Serving) (c : ConnPtr) : Serving :=
  let s := { s with entered := Function.update s.entered c (s.entered c + 1) }
  ((s.withConn c (·.handleClose .process2)).removeConnection c).release c

/-- `handleRead`; what `messageCallback_` does comes as later steps. -/
def handleRead (s : Serving) (c : ConnPtr) (r : ReadResult) : Serving :=
  match r with
  | .data bs =>
      { s with
        conns := Function.update s.conns c
          { s.conns c with inputBuffer_ := (s.conns c).inputBuffer_.append bs } }
  | .eof => s.handleClose c
  -- `handleError` does nothing
  | .error => s

/-! ## `Channel::handleEvent` -/

/-- `handleEvent`, up to the first callback. -/
def handleEvent (s : Serving) (c : ConnPtr) (revents : BitVec 32) : Serving :=
  let enter (guard : Bool) : Serving :=
    { s.setEventHandling c true with
      frame := some ⟨c, guard, Channel.handleEventWithGuard revents⟩ }
  if (s.conns c).tied_ then
    if s.owned c then enter true else s
  else enter false

/-- `handleEvent` returns, and `guard` goes out of scope. -/
def handleEventReturns (s : Serving) (c : ConnPtr) : Serving :=
  { s.setEventHandling c false with frame := none }.release c

end Serving

/-! ## The machine -/

inductive ServingStep where
  /-- `Acceptor::handleRead`. -/
  | newConnection (fd : Int) (writeComplete : Bool)
  /-- The hooks of the loop. -/
  | listenInEpoll
  | unlistenInEpoll
  | poll (activeChannels : List (ConnPtr × BitVec 32))
  /-- The next active channel. -/
  | handleEvent
  | closeCallback
  | errorCallback
  | readCallback (r : ReadResult)
  | writeCallback (w : WriteResult)
  | handleEventReturns
  /-- The user calls `send` and `shutdown`, and copies and drops
      references, in a callback or in a timer. -/
  | send (c : ConnPtr) (message : Bytes) (w : WriteResult)
  | shutdown (c : ConnPtr)
  | hold (c : ConnPtr)
  | drop (c : ConnPtr)

namespace Serving

/-- The next callback of the event, called on the channel that is being
    handled. -/
def callback (s : Serving) (body : Serving → ConnPtr → Serving) : Serving :=
  match s.frame with
  | none => s
  | some f => body { s with frame := some { f with todo := f.todo.tail } } f.channel

def next (s : Serving) : ServingStep → Serving
  | .newConnection fd writeComplete => s.newConnection fd writeComplete
  | .listenInEpoll =>
      { s with
        acceptChannel_ := (Process.enableReading .process2 s.acceptChannel_ s.epoll_).2
        epoll_ := (Process.enableReading .process2 s.acceptChannel_ s.epoll_).1 }
  | .unlistenInEpoll =>
      { s with
        acceptChannel_ := (Process.disableReading s.acceptChannel_ s.epoll_).2
        epoll_ := (Process.disableReading s.acceptChannel_ s.epoll_).1 }
  | .poll activeChannels => { s with activeChannels_ := activeChannels }
  | .handleEvent =>
      match s.activeChannels_ with
      | [] => s
      | (c, revents) :: rest => { s with activeChannels_ := rest }.handleEvent c revents
  | .closeCallback => s.callback handleClose
  | .errorCallback => s.callback fun s _ => s
  | .readCallback r => s.callback fun s c => s.handleRead c r
  | .writeCallback w => s.callback fun s c => s.withConn c (·.handleWrite .process2 w)
  | .handleEventReturns =>
      match s.frame with
      | none => s
      | some f => s.handleEventReturns f.channel
  | .send c message w => s.withConn c (·.send .process2 message w)
  | .shutdown c => s.withConn c TcpConnection.shutdown
  | .hold c => { s with held := Function.update s.held c (s.held c + 1) }
  | .drop c => { s with held := Function.update s.held c (s.held c - 1) }.release c

/-- The first callback that is still to be called. -/
def nextCallback (s : Serving) : Option EventCallback := s.frame.bind (·.todo.head?)

/-- The descriptors that are open besides those of the kernel's epoll. -/
def isOpen (s : Serving) (fd : Int) : Prop :=
  fd = s.timerfd_ ∨ fd = s.acceptChannel_.fd_ ∨
    ∃ c, c < s.created ∧ s.owned c = true ∧ (s.conns c).channel_.fd_ = fd

instance (s : Serving) (fd : Int) : Decidable (s.isOpen fd) :=
  inferInstanceAs (Decidable (_ ∨ _ ∨ ∃ c, c < s.created ∧ _))

/-- The kernel reports the channel under its descriptor. -/
def watched (s : Serving) (c : ConnPtr) : Prop :=
  c < s.created ∧ s.epoll_.interest[(s.conns c).channel_.fd_]?.map Prod.snd = some c

instance (s : Serving) (c : ConnPtr) : Decidable (s.watched c) :=
  inferInstanceAs (Decidable (_ ∧ _))

/-- A reference for the user to use or to copy. -/
def reachable (s : Serving) (c : ConnPtr) : Prop := c < s.created ∧ s.owned c = true

instance (s : Serving) (c : ConnPtr) : Decidable (s.reachable c) :=
  inferInstanceAs (Decidable (_ ∧ _))

def guard (s : Serving) : ServingStep → Prop
  -- the kernel gives a new descriptor, and the id is an `int`
  | .newConnection fd _ => s.frame = none ∧ ¬ s.isOpen fd ∧ s.nextConnectionId_ < 2 ^ 31
  | .listenInEpoll | .unlistenInEpoll => s.frame = none
  -- each descriptor is reported once, with whatever events
  | .poll activeChannels =>
      s.frame = none ∧ (activeChannels.map Prod.fst).Nodup ∧ ∀ a ∈ activeChannels, s.watched a.1
  | .handleEvent => s.frame = none ∧ s.activeChannels_ ≠ []
  | .closeCallback => s.nextCallback = some .close
  | .errorCallback => s.nextCallback = some .error
  | .readCallback _ => s.nextCallback = some .read
  | .writeCallback _ => s.nextCallback = some .write
  | .handleEventReturns => s.frame ≠ none ∧ s.nextCallback = none
  | .send c _ _ | .shutdown c | .hold c => s.reachable c
  | .drop c => 0 < s.held c

instance (s : Serving) : DecidablePred s.guard
  | .newConnection fd _ =>
      inferInstanceAs (Decidable (s.frame = none ∧ ¬ s.isOpen fd ∧ s.nextConnectionId_ < 2 ^ 31))
  | .listenInEpoll | .unlistenInEpoll => inferInstanceAs (Decidable (s.frame = none))
  | .poll activeChannels =>
      inferInstanceAs (Decidable (s.frame = none ∧ (activeChannels.map Prod.fst).Nodup ∧
        ∀ a ∈ activeChannels, s.watched a.1))
  | .handleEvent => inferInstanceAs (Decidable (s.frame = none ∧ s.activeChannels_ ≠ []))
  | .closeCallback => inferInstanceAs (Decidable (s.nextCallback = some .close))
  | .errorCallback => inferInstanceAs (Decidable (s.nextCallback = some .error))
  | .readCallback _ => inferInstanceAs (Decidable (s.nextCallback = some .read))
  | .writeCallback _ => inferInstanceAs (Decidable (s.nextCallback = some .write))
  | .handleEventReturns => inferInstanceAs (Decidable (s.frame ≠ none ∧ s.nextCallback = none))
  | .send c _ _ | .shutdown c | .hold c => inferInstanceAs (Decidable (s.reachable c))
  | .drop c => inferInstanceAs (Decidable (0 < s.held c))

end Serving

/-- Any connections, poll results, answers of the socket and calls of the
    user. -/
def serving : Machine Serving ServingStep where
  guard := Serving.guard
  next := Serving.next

instance (s : Serving) (l : ServingStep) : Decidable (serving.guard s l) :=
  inferInstanceAs (Decidable (s.guard l))

namespace Serving

/-! ## The specification -/

/-- The connection was closed, and nothing of it is left in the loop. -/
structure Destroyed.Clean (d : Destroyed) : Prop where
  executing : d.executing = false
  state_ : d.state_ = .kDisconnected
  eventHandling_ : d.eventHandling_ = false
  addedToLoop_ : d.addedToLoop_ = false
  mapped : d.mapped = false

/-- Every `removeConnection` has erased one entry, every assert of `remove`
    held, what is being handled exists, and what was destroyed was clean. -/
structure Safe (s : Serving) : Prop where
  erased : ∀ n ∈ s.erased, n = 1
  removeAsserts : ∀ b ∈ s.removeAsserts, b = true
  alive : ∀ f, s.frame = some f → s.owned f.channel = true
  destroyed : ∀ d ∈ s.destroyed, Destroyed.Clean d

/-- The condition of the runs: `handleClose` is entered at most once per
    connection. -/
def EntersOnce (s : Serving) : ServingStep → Prop
  | .closeCallback | .readCallback .eof => ∀ f ∈ s.frame, s.entered f.channel = 0
  | _ => True

instance (s : Serving) : DecidablePred s.EntersOnce
  | .closeCallback | .readCallback .eof =>
      inferInstanceAs (Decidable (∀ f ∈ s.frame, s.entered f.channel = 0))
  | .readCallback (.data _) | .readCallback .error | .newConnection _ _ | .listenInEpoll
  | .unlistenInEpoll | .poll _ | .handleEvent | .errorCallback | .writeCallback _
  | .handleEventReturns | .send _ _ _ | .shutdown _ | .hold _ | .drop _ => isTrue trivial

end Serving

/-! ## One channel -/

/-- `ep'` has the entries of `ep`, but for those of `ch` under its
    descriptor. -/
structure Reaches (ep ep' : Epoll) (ch : Channel) : Prop where
  elsewhere : ep.SameElsewhere ep' ch.fd_
  interest : ∀ ev p, ep'.interest[ch.fd_]? = some (ev, p) →
    p = ch.self ∨ ep.interest[ch.fd_]? = some (ev, p)

section OneChannel

variable {ep ep' : Epoll} {ch : Channel}

theorem Reaches.refl (ep : Epoll) (ch : Channel) : Reaches ep ep ch :=
  ⟨Epoll.SameElsewhere.refl ep ch.fd_, fun _ _ h => Or.inr h⟩

theorem reaches_epollCtl (ep : Epoll) (op : EpollOp) (ch : Channel) :
    Reaches ep (ep.update op ch) ch := by
  refine ⟨Epoll.sameElsewhere_update ep op ch, fun ev p h => ?_⟩
  by_cases hlegal : ep.Legal ch op
  · rw [Epoll.getElem?_update hlegal] at h
    split at h
    · cases h
    · cases h
      exact Or.inl rfl
  · -- the call fails
    right
    cases op with
    | add =>
      have hmem : ch.fd_ ∈ ep.interest := not_not.mp hlegal
      rw [Epoll.update, if_pos hmem] at h
      exact h
    | mod =>
      have habsent : ch.fd_ ∉ ep.interest := hlegal
      rw [Epoll.update, if_neg habsent] at h
      exact h
    | del =>
      rw [Epoll.update, ExtTreeMap.getElem?_erase_self] at h
      cases h

/-- Where `updateChannel` reaches. -/
theorem updateChannel_reaches (ep : Epoll) (ch : Channel) :
    let done := updateChannel .process2 ep ch
    done.2.fd_ = ch.fd_ ∧ Reaches ep done.1 ch := by
  unfold updateChannel
  cases hstatus : ch.statusInEpoll_ with
  | kNew =>
    have hctl := reaches_epollCtl { ep with channels_ := ep.channels_.insert ch.fd_ ch.self } .add
      { ch with statusInEpoll_ := .kAdded }
    refine ⟨rfl, ⟨fun k hk => ?_, hctl.elsewhere.interest⟩, hctl.interest⟩
    exact (hctl.elsewhere.channels_ k hk).trans (getElem?_insert_elsewhere _ _ hk)
  | kDeleted =>
    have hctl := reaches_epollCtl ep .add { ch with statusInEpoll_ := .kAdded }
    exact ⟨rfl, hctl.elsewhere, hctl.interest⟩
  | kAdded =>
    dsimp only
    split
    · exact ⟨rfl, reaches_epollCtl ep .del ch⟩
    · exact ⟨rfl, reaches_epollCtl ep .mod ch⟩

/-- A channel that has its entry and is enabled again stays as it is. -/
theorem enableReading_again (hevents : ch.events_ = Channel.kReadEvent)
    (hstatus : ch.statusInEpoll_ = .kAdded) (ep : Epoll) :
    let done := enableReading .process2 ch ep
    done.2 = { ch with addedToLoop_ := true } ∧ done.1.channels_ = ep.channels_ ∧
      Reaches ep done.1 ch := by
  have hread : ch.events_ ||| Channel.kReadEvent = Channel.kReadEvent := by
    rw [hevents]
    decide
  have hsome : (Channel.kReadEvent == Channel.kNoneEvent) = false := by decide
  unfold enableReading update updateChannel
  simp only [hread, hstatus, Channel.isNoneEvent, hsome]
  refine ⟨?_, Epoll.update_channels .., ?_⟩
  · rw [← hevents]
    rfl
  · have hctl := reaches_epollCtl ep .mod
      { ch with events_ := Channel.kReadEvent, addedToLoop_ := true }
    exact ⟨hctl.elsewhere, hctl.interest⟩

/-- A new channel gets its entry. -/
theorem enableReading_first (self : ChannelPtr) (fd : Int) (ep : Epoll) :
    let done := enableReading .process2 (Channel.new self fd) ep
    done.2.self = self ∧ done.2.fd_ = fd ∧ done.2.events_ = Channel.kReadEvent ∧
      done.2.statusInEpoll_ = .kAdded ∧ done.1.channels_ = ep.channels_.insert fd self ∧
      Reaches ep done.1 (Channel.new self fd) := by
  have hreaches := (updateChannel_reaches ep
    { Channel.new self fd with
      events_ := Channel.kNoneEvent ||| Channel.kReadEvent
      addedToLoop_ := true }).2
  have hread : Channel.kNoneEvent ||| Channel.kReadEvent = Channel.kReadEvent := by decide
  refine ⟨rfl, rfl, hread, rfl, Epoll.update_channels .., ?_⟩
  exact ⟨hreaches.elsewhere, hreaches.interest⟩

end OneChannel

/-! ## One connection -/

namespace TcpConnection

variable {t : TcpConnection}

/-- `t'` is `t` with what a connection in the loop may do: its channel keeps
    its entry and its events. -/
structure Steady (t t' : TcpConnection) : Prop where
  channel_ : ∃ added, t'.channel_ = { t.channel_ with addedToLoop_ := added }
  channels_ : t'.epoll_.channels_ = t.epoll_.channels_
  reaches : Reaches t.epoll_ t'.epoll_ t.channel_

theorem Steady.refl (t : TcpConnection) : Steady t t :=
  ⟨⟨t.channel_.addedToLoop_, rfl⟩, rfl, Reaches.refl _ _⟩

theorem not_isWriting (hevents : t.channel_.events_ = Channel.kReadEvent ∨
    t.channel_.events_ = Channel.kNoneEvent) : t.channel_.isWriting = false := by
  rw [Channel.isWriting]
  rcases hevents with h | h
  · rw [h]
    decide
  · rw [h]
    decide

/-- Writing is never enabled, so `handleWrite` does nothing. -/
theorem handleWrite_idle (hevents : t.channel_.events_ = Channel.kReadEvent ∨
    t.channel_.events_ = Channel.kNoneEvent) (w : WriteResult) :
    t.handleWrite .process2 w = t := by
  rw [handleWrite, if_neg]
  rw [not_isWriting hevents]
  exact Bool.false_ne_true

/-- A connection that is not connected takes no message. -/
theorem send_idle (hstate : t.state_ ≠ .kConnected) (message : Bytes) (w : WriteResult) :
    t.send .process2 message w = t := if_neg hstate

theorem shutdown_idle (hstate : t.state_ ≠ .kConnected) : t.shutdown = t := if_neg hstate

/-- A message may enable the channel for reading once more. -/
theorem send_steady (hevents : t.channel_.events_ = Channel.kReadEvent)
    (hstatus : t.channel_.statusInEpoll_ = .kAdded) (message : Bytes) (w : WriteResult) :
    (t.send .process2 message w).state_ = t.state_ ∧ Steady t (t.send .process2 message w) := by
  have hagain := enableReading_again hevents hstatus t.epoll_
  unfold send
  split
  · dsimp only
    split
    · -- the connection is idle
      unfold writeComplete call
      dsimp only
      split_ifs
      all_goals first
        | exact ⟨rfl, ⟨t.channel_.addedToLoop_, rfl⟩, rfl, Reaches.refl _ _⟩
        | exact ⟨rfl, ⟨true, hagain.1⟩, hagain.2.1, hagain.2.2⟩
    · exact ⟨rfl, ⟨t.channel_.addedToLoop_, rfl⟩, rfl, Reaches.refl _ _⟩
  · exact ⟨rfl, Steady.refl t⟩

theorem shutdown_steady (t : TcpConnection) :
    (t.shutdown.state_ = t.state_ ∨ t.shutdown.state_ = .kDisconnecting) ∧
      Steady t t.shutdown := by
  unfold shutdown shutdownInSocket
  split
  · split
    · exact ⟨Or.inr rfl, ⟨t.channel_.addedToLoop_, rfl⟩, rfl, Reaches.refl _ _⟩
    · exact ⟨Or.inr rfl, ⟨t.channel_.addedToLoop_, rfl⟩, rfl, Reaches.refl _ _⟩
  · exact ⟨Or.inl rfl, Steady.refl t⟩

/-- `handleClose` of a registered connection. -/
theorem handleClose_eq (hstatus : t.channel_.statusInEpoll_ = .kAdded) :
    t.handleClose .process2 =
      { t with
        state_ := .kDisconnected
        channel_ :=
          { t.channel_ with
            events_ := Channel.kNoneEvent
            statusInEpoll_ := .kDeleted
            addedToLoop_ := true }
        epoll_ := { t.epoll_ with interest := t.epoll_.interest.erase t.channel_.fd_ } } := by
  have hnone : (Channel.kNoneEvent == Channel.kNoneEvent) = true := by decide
  unfold handleClose disableAll setState Process.disableAll update updateChannel
  simp only [hstatus, Channel.isNoneEvent, hnone]
  rfl

/-- `connectionDestroyed` after it: only `remove` is left. -/
theorem remove_eq (hstatus : t.channel_.statusInEpoll_ = .kDeleted) :
    t.remove =
      { t with
        channel_ := { t.channel_ with statusInEpoll_ := .kNew, addedToLoop_ := false }
        epoll_ := { t.epoll_ with channels_ := t.epoll_.channels_.erase t.channel_.fd_ } } := by
  have hne : ¬ t.channel_.statusInEpoll_ = .kAdded := by
    rw [hstatus]
    decide
  unfold remove Process.remove removeChannel
  simp only [if_neg hne]

end TcpConnection

namespace Serving

/-! ## The invariant -/

/-- The name that the connection with this address was given. -/
def connectionName (s : Serving) (c : ConnPtr) : String := s.name_ ++ toString ((c : Int) + 1)

theorem connectionName_injective (s : Serving) {c d : ConnPtr}
    (h : s.connectionName c = s.connectionName d) : c = d := by
  rw [connectionName, connectionName, String.append_right_inj] at h
  have hid : (c : Int) + 1 = d + 1 := Int.repr_inj.mp h
  exact Int.ofNat_inj.mp (add_right_cancel hid)

/-- The connection is in the map and in the epoll. -/
structure Open (s : Serving) (c : ConnPtr) : Prop where
  entered : s.entered c = 0
  entry : s.connectionMap_[(s.conns c).name_]? = some c
  state_ : (s.conns c).state_ = .kConnected ∨ (s.conns c).state_ = .kDisconnecting
  tied_ : (s.conns c).tied_ = true
  events_ : (s.conns c).channel_.events_ = Channel.kReadEvent
  status : (s.conns c).channel_.statusInEpoll_ = .kAdded
  listed : s.epoll_.channels_[(s.conns c).channel_.fd_]? = some c

/-- The connection is in neither.  When it is destroyed, its descriptor may
    come back with another one. -/
structure Closed (s : Serving) (c : ConnPtr) : Prop where
  entered : s.entered c ≠ 0
  entry : s.connectionMap_[(s.conns c).name_]? ≠ some c
  state_ : (s.conns c).state_ = .kDisconnected
  events_ : (s.conns c).channel_.events_ = Channel.kNoneEvent
  addedToLoop_ : (s.conns c).channel_.addedToLoop_ = false
  unwatched : ∀ ev, s.epoll_.interest[(s.conns c).channel_.fd_]? ≠ some (ev, c)
  unlisted : s.owned c = true → s.epoll_.channels_[(s.conns c).channel_.fd_]? = none

/-- The channels that are being handled, or are to be. -/
def busy (s : Serving) : List ConnPtr :=
  (s.frame.map (·.channel)).toList ++ s.activeChannels_.map Prod.fst

/-- **Invariant**: every connection is open or closed, the epoll maps
    nothing else but the two channels of the server, and what is being
    handled is tied. -/
structure Coherent (s : Serving) : Prop where
  counter : s.nextConnectionId_ = s.created + 1
  named : ∀ c, c < s.created → (s.conns c).name_ = s.connectionName c
  self : ∀ c, c < s.created → (s.conns c).channel_.self = c
  fd_ : ∀ c, c < s.created →
    (s.conns c).channel_.fd_ ≠ s.timerfd_ ∧ (s.conns c).channel_.fd_ ≠ s.acceptChannel_.fd_
  cases : ∀ c, c < s.created → s.Open c ∨ s.Closed c
  unborn : ∀ c, s.created ≤ c → s.entered c = 0
  listed : ∀ fd, s.epoll_.channels_[fd]? ≠ none → fd = s.timerfd_ ∨ fd = s.acceptChannel_.fd_ ∨
    ∃ c, c < s.created ∧ s.entered c = 0 ∧ (s.conns c).channel_.fd_ = fd
  frame : ∀ f, s.frame = some f → f.guard = true ∧ f.channel < s.created
  handling : ∀ c, c < s.created → (s.conns c).eventHandling_ = true → s.executing c = true
  busy : s.busy.Nodup
  active : ∀ a ∈ s.activeChannels_, a.1 < s.created ∧ s.entered a.1 = 0
  held : ∀ c, 0 < s.held c → c < s.created
  safe : s.Safe

variable {s s' : Serving} {c : ConnPtr}

/-! ### Who owns a connection -/

theorem owned_iff : s.owned c = true ↔
    s.connectionMap_[(s.conns c).name_]? = some c ∨
      (∃ f, s.frame = some f ∧ f.guard = true ∧ f.channel = c) ∨ 0 < s.held c := by
  simp only [owned, Bool.or_eq_true, beq_iff_eq, Option.any_eq_true, Bool.and_eq_true,
    decide_eq_true_eq, or_assoc]

theorem executing_iff : s.executing c = true ↔ ∃ f, s.frame = some f ∧ f.channel = c := by
  simp only [executing, Option.any_eq_true, beq_iff_eq]

theorem Open.owned (h : s.Open c) : s.owned c = true := owned_iff.mpr (Or.inl h.entry)

/-- A connection that nobody owns has been closed. -/
theorem Coherent.closed_of_not_owned (h : s.Coherent) (hc : c < s.created)
    (howned : s.owned c = false) : s.Closed c := by
  rcases h.cases c hc with hopen | hclosed
  · rw [hopen.owned] at howned
    cases howned
  · exact hclosed

theorem Coherent.open_of_entered (h : s.Coherent) (hc : c < s.created)
    (hentered : s.entered c = 0) : s.Open c := by
  rcases h.cases c hc with hopen | hclosed
  · exact hopen
  · exact absurd hentered hclosed.entered

/-- What is being handled is owned by the guard. -/
theorem Coherent.owned_frame (h : s.Coherent) {f : HandlerFrame} (hframe : s.frame = some f) :
    s.owned f.channel = true :=
  owned_iff.mpr (Or.inr (Or.inl ⟨f, hframe, (h.frame f hframe).1, rfl⟩))

/-! ### Frames of the invariant -/

/-- A step has left the connection as it was, and gave nobody a reference
    to it. -/
structure Untouched (s s' : Serving) (c : ConnPtr) : Prop where
  entered : s'.entered c = s.entered c
  name_ : (s'.conns c).name_ = (s.conns c).name_
  state_ : (s'.conns c).state_ = (s.conns c).state_
  tied_ : (s'.conns c).tied_ = (s.conns c).tied_
  channel_ : (s'.conns c).channel_ = (s.conns c).channel_
  entry : s'.connectionMap_[(s.conns c).name_]? = some c ↔
    s.connectionMap_[(s.conns c).name_]? = some c
  interest : ∀ ev, s'.epoll_.interest[(s.conns c).channel_.fd_]? = some (ev, c) →
    s.epoll_.interest[(s.conns c).channel_.fd_]? = some (ev, c)
  owned : s'.owned c = true → s.owned c = true
  listed : s.owned c = true → s'.epoll_.channels_[(s.conns c).channel_.fd_]? =
    s.epoll_.channels_[(s.conns c).channel_.fd_]?

theorem Untouched.cases (h : Untouched s s' c) (hcases : s.Open c ∨ s.Closed c) :
    s'.Open c ∨ s'.Closed c := by
  rcases hcases with hopen | hclosed
  · left
    refine ⟨h.entered.trans hopen.entered, ?_, ?_, h.tied_.trans hopen.tied_, ?_, ?_, ?_⟩
    · rw [h.name_]
      exact h.entry.mpr hopen.entry
    · rw [h.state_]
      exact hopen.state_
    · rw [h.channel_]
      exact hopen.events_
    · rw [h.channel_]
      exact hopen.status
    · rw [h.channel_, h.listed hopen.owned]
      exact hopen.listed
  · right
    refine ⟨?_, ?_, h.state_.trans hclosed.state_, ?_, ?_, fun ev => ?_, fun howned => ?_⟩
    · rw [h.entered]
      exact hclosed.entered
    · rw [h.name_]
      exact mt h.entry.mp hclosed.entry
    · rw [h.channel_]
      exact hclosed.events_
    · rw [h.channel_]
      exact hclosed.addedToLoop_
    · rw [h.channel_]
      exact mt (h.interest ev) (hclosed.unwatched ev)
    · rw [h.channel_, h.listed (h.owned howned)]
      exact hclosed.unlisted (h.owned howned)

/-- The last reference may go: a connection that nobody owns is clean. -/
theorem coherent_release (h : s.Coherent) (hc : c < s.created)
    (hunlisted : s.owned c = false →
      s.epoll_.channels_[(s.conns c).channel_.fd_]? = none) : (s.release c).Coherent := by
  unfold release
  split
  · exact h
  · next howned =>
    rw [Bool.not_eq_true] at howned
    have hclosed := h.closed_of_not_owned hc howned
    have hexecuting : s.executing c = false := by
      rw [← Bool.not_eq_true]
      intro hexecuting
      obtain ⟨f, hframe, rfl⟩ := executing_iff.mp hexecuting
      rw [h.owned_frame hframe] at howned
      cases howned
    have hhandling : (s.conns c).eventHandling_ = false := by
      rw [← Bool.not_eq_true]
      intro hhandling
      rw [h.handling c hc hhandling] at hexecuting
      cases hexecuting
    have hmapped : s.epoll_.channels_.contains (s.conns c).channel_.fd_ = false := by
      rw [ExtTreeMap.contains_eq_isSome_getElem?, hunlisted howned]
      rfl
    refine ⟨h.counter, h.named, h.self, h.fd_, ?_, h.unborn, h.listed, h.frame, h.handling, h.busy,
      h.active, h.held, ⟨h.safe.erased, h.safe.removeAsserts, h.safe.alive, fun d hd => ?_⟩⟩
    · intro d hd
      refine Untouched.cases (s := s) ?_ (h.cases d hd)
      exact ⟨rfl, rfl, rfl, rfl, rfl, Iff.rfl, fun _ => id, id, fun _ => rfl⟩
    · rcases List.mem_append.mp hd with hd | hd
      · exact h.safe.destroyed d hd
      · rw [List.mem_singleton] at hd
        subst hd
        exact ⟨hexecuting, hclosed.state_, hhandling, hclosed.addedToLoop_, hmapped⟩

/-! ### Member functions of one connection -/

section WithConn

variable {d : ConnPtr} {f : TcpConnection → TcpConnection}

/-- The connection as a member function finds it. -/
def inLoop (s : Serving) (c : ConnPtr) : TcpConnection :=
  { (s.conns c).toTcpConnection with epoll_ := s.epoll_ }

theorem conns_withConn_self : (s.withConn c f).conns c =
    { s.conns c with toTcpConnection := f (s.inLoop c) } := Function.update_self ..

theorem conns_withConn_ne (hd : d ≠ c) : (s.withConn c f).conns d = s.conns d :=
  Function.update_of_ne hd ..

/-- Member functions leave the name, and what belongs to the events. -/
theorem kept_withConn (s : Serving) (c d : ConnPtr) (f : TcpConnection → TcpConnection) :
    ((s.withConn c f).conns d).name_ = (s.conns d).name_ ∧
      ((s.withConn c f).conns d).tied_ = (s.conns d).tied_ ∧
      ((s.withConn c f).conns d).eventHandling_ = (s.conns d).eventHandling_ := by
  by_cases hd : d = c
  · subst hd
    rw [conns_withConn_self]
    exact ⟨rfl, rfl, rfl⟩
  · rw [conns_withConn_ne hd]
    exact ⟨rfl, rfl, rfl⟩

theorem owned_withConn (s : Serving) (c d : ConnPtr) (f : TcpConnection → TcpConnection) :
    (s.withConn c f).owned d = s.owned d := by
  rw [owned, (kept_withConn s c d f).1]
  rfl

/-- The channel keeps its descriptor and its address. -/
theorem channel_withConn (hsteady : TcpConnection.Steady (s.inLoop c) (f (s.inLoop c)))
    (d : ConnPtr) :
    ((s.withConn c f).conns d).channel_.fd_ = (s.conns d).channel_.fd_ ∧
      ((s.withConn c f).conns d).channel_.self = (s.conns d).channel_.self := by
  obtain ⟨added, hchannel⟩ := hsteady.channel_
  by_cases hd : d = c
  · subst hd
    rw [conns_withConn_self]
    show (f (s.inLoop d)).channel_.fd_ = _ ∧ (f (s.inLoop d)).channel_.self = _
    rw [hchannel]
    exact ⟨rfl, rfl⟩
  · rw [conns_withConn_ne hd]
    exact ⟨rfl, rfl⟩

/-- An open connection that does something steady stays open. -/
theorem open_withConn (hopen : s.Open c)
    (hsteady : TcpConnection.Steady (s.inLoop c) (f (s.inLoop c)))
    (hstate : (f (s.inLoop c)).state_ = (s.conns c).state_ ∨
      (f (s.inLoop c)).state_ = .kDisconnecting) : (s.withConn c f).Open c := by
  obtain ⟨added, hchannel⟩ := hsteady.channel_
  refine ⟨hopen.entered, ?_, ?_, ?_, ?_, ?_, ?_⟩
  · rw [(kept_withConn s c c f).1]
    exact hopen.entry
  · rw [conns_withConn_self]
    rcases hstate with hsame | hdisconnecting
    · show (f (s.inLoop c)).state_ = _ ∨ (f (s.inLoop c)).state_ = _
      rw [hsame]
      exact hopen.state_
    · exact Or.inr hdisconnecting
  · rw [(kept_withConn s c c f).2.1]
    exact hopen.tied_
  · rw [conns_withConn_self]
    show (f (s.inLoop c)).channel_.events_ = _
    rw [hchannel]
    exact hopen.events_
  · rw [conns_withConn_self]
    show (f (s.inLoop c)).channel_.statusInEpoll_ = _
    rw [hchannel]
    exact hopen.status
  · have hentries : (s.withConn c f).epoll_.channels_ = s.epoll_.channels_ := hsteady.channels_
    rw [(channel_withConn hsteady c).1, hentries]
    exact hopen.listed

/-- A member function that does nothing. -/
theorem untouched_withConn_self (hsame : f (s.inLoop c) = s.inLoop c) :
    Untouched s (s.withConn c f) c := by
  have hepoll : (s.withConn c f).epoll_ = s.epoll_ := by
    show (f (s.inLoop c)).epoll_ = s.epoll_
    rw [hsame]
    rfl
  have hconn : (s.withConn c f).conns c = { s.conns c with toTcpConnection := s.inLoop c } := by
    rw [conns_withConn_self, hsame]
  refine ⟨rfl, ?_, ?_, ?_, ?_, Iff.rfl, ?_, ?_, ?_⟩
  · rw [hconn]
  · rw [hconn]
    rfl
  · rw [hconn]
  · rw [hconn]
    rfl
  · intro ev hev
    rw [hepoll] at hev
    exact hev
  · intro howned
    rw [owned_withConn] at howned
    exact howned
  · intro _
    rw [hepoll]

/-- What is steady leaves the other connections alone. -/
theorem untouched_withConn_ne (hself : (s.conns c).channel_.self = c)
    (hsteady : TcpConnection.Steady (s.inLoop c) (f (s.inLoop c))) (hd : d ≠ c) :
    Untouched s (s.withConn c f) d := by
  have hconn := conns_withConn_ne (s := s) (f := f) hd
  refine ⟨rfl, ?_, ?_, ?_, ?_, Iff.rfl, fun ev hev => ?_, fun howned => ?_, fun _ => ?_⟩
  · rw [hconn]
  · rw [hconn]
  · rw [hconn]
  · rw [hconn]
  · -- an entry of the kernel's set is of the channel of `c`, or it was there
    have hev' : (f (s.inLoop c)).epoll_.interest[(s.conns d).channel_.fd_]? = some (ev, d) := hev
    by_cases hsame : (s.conns d).channel_.fd_ = (s.inLoop c).channel_.fd_
    · rw [hsame] at hev' ⊢
      rcases hsteady.reaches.interest ev d hev' with hptr | hold
      · exact absurd (hptr.trans hself) hd
      · exact hold
    · exact (hsteady.reaches.elsewhere.interest _ hsame).symm.trans hev'
  · rw [owned_withConn] at howned
    exact howned
  · have hentries : (s.withConn c f).epoll_.channels_ = s.epoll_.channels_ := hsteady.channels_
    rw [hentries]

/-- **Frame**: what is steady keeps the invariant. -/
theorem coherent_withConn (h : s.Coherent) (hc : c < s.created)
    (hsteady : TcpConnection.Steady (s.inLoop c) (f (s.inLoop c)))
    (hstate : (f (s.inLoop c)).state_ = (s.conns c).state_ ∨
      s.Open c ∧ (f (s.inLoop c)).state_ = .kDisconnecting)
    (hclosed : s.Closed c → f (s.inLoop c) = s.inLoop c) : (s.withConn c f).Coherent := by
  have hchannel := channel_withConn hsteady
  refine ⟨h.counter, ?_, ?_, ?_, ?_, h.unborn, ?_, h.frame, ?_, h.busy, h.active, h.held, ?_⟩
  · -- names, addresses and descriptors are what they were
    intro d hd
    rw [(kept_withConn s c d f).1]
    exact h.named d hd
  · intro d hd
    rw [(hchannel d).2]
    exact h.self d hd
  · intro d hd
    rw [(hchannel d).1]
    exact h.fd_ d hd
  · -- open stays open; who is closed does nothing
    intro d hd
    by_cases hdc : d = c
    · subst hdc
      rcases h.cases d hd with hopen | hshut
      · exact Or.inl (open_withConn hopen hsteady (hstate.imp id And.right))
      · exact (untouched_withConn_self (hclosed hshut)).cases (Or.inr hshut)
    · exact (untouched_withConn_ne (h.self c hc) hsteady hdc).cases (h.cases d hd)
  · -- `channels_` is what it was
    intro fd hne
    have hentries : (s.withConn c f).epoll_.channels_ = s.epoll_.channels_ := hsteady.channels_
    rw [hentries] at hne
    rcases h.listed fd hne with htimer | haccept | ⟨d, hd, hentered, hdfd⟩
    · exact Or.inl htimer
    · exact Or.inr (Or.inl haccept)
    · exact Or.inr (Or.inr ⟨d, hd, hentered, (hchannel d).1.trans hdfd⟩)
  · intro d hd hhandling
    rw [(kept_withConn s c d f).2.2] at hhandling
    exact h.handling d hd hhandling
  · refine ⟨h.safe.erased, h.safe.removeAsserts, fun g hg => ?_, h.safe.destroyed⟩
    rw [owned_withConn]
    exact h.safe.alive g hg

end WithConn

/-! ### The calls of the user, and `handleWrite` -/

theorem Closed.idle (h : s.Closed c) : (s.inLoop c).state_ ≠ .kConnected := by
  show (s.conns c).state_ ≠ .kConnected
  rw [h.state_]
  decide

theorem coherent_send (h : s.Coherent) (hc : c < s.created) (message : Bytes) (w : WriteResult) :
    (s.withConn c (·.send .process2 message w)).Coherent := by
  have hidle : s.Closed c → (s.inLoop c).send .process2 message w = s.inLoop c :=
    fun hclosed => TcpConnection.send_idle hclosed.idle message w
  rcases h.cases c hc with hopen | hclosed
  · obtain ⟨hstate, hsteady⟩ :=
      TcpConnection.send_steady (t := s.inLoop c) hopen.events_ hopen.status message w
    exact coherent_withConn h hc hsteady (Or.inl hstate) hidle
  · refine coherent_withConn h hc ?_ ?_ hidle
    · rw [hidle hclosed]
      exact TcpConnection.Steady.refl _
    · rw [hidle hclosed]
      exact Or.inl rfl

theorem coherent_shutdown (h : s.Coherent) (hc : c < s.created) :
    (s.withConn c TcpConnection.shutdown).Coherent := by
  have hidle : s.Closed c → (s.inLoop c).shutdown = s.inLoop c :=
    fun hclosed => TcpConnection.shutdown_idle hclosed.idle
  obtain ⟨hstate, hsteady⟩ := TcpConnection.shutdown_steady (s.inLoop c)
  refine coherent_withConn h hc hsteady ?_ hidle
  rcases h.cases c hc with hopen | hclosed
  · exact hstate.imp id fun hdisconnecting => ⟨hopen, hdisconnecting⟩
  · rw [hidle hclosed]
    exact Or.inl rfl

theorem coherent_handleWrite (h : s.Coherent) (hc : c < s.created) (w : WriteResult) :
    (s.withConn c (·.handleWrite .process2 w)).Coherent := by
  have hidle : (s.inLoop c).handleWrite .process2 w = s.inLoop c := by
    apply TcpConnection.handleWrite_idle
    rcases h.cases c hc with hopen | hclosed
    · exact Or.inl hopen.events_
    · exact Or.inr hclosed.events_
  refine coherent_withConn h hc ?_ ?_ fun _ => hidle
  · rw [hidle]
    exact TcpConnection.Steady.refl _
  · rw [hidle]
    exact Or.inl rfl

/-! ### `handleClose` -/

/-- What `handleClose` leaves of an open connection. -/
def shut (s : Serving) (c : ConnPtr) : Serving :=
  let fd := (s.conns c).channel_.fd_
  let epoll : Epoll := ⟨s.epoll_.channels_.erase fd, s.epoll_.interest.erase fd⟩
  let connection : TcpConnection :=
    { s.inLoop c with
      state_ := .kDisconnected
      channel_ := ⟨(s.conns c).channel_.self, fd, Channel.kNoneEvent, .kNew, false⟩
      epoll_ := epoll }
  { s with
    conns := Function.update s.conns c { s.conns c with toTcpConnection := connection }
    connectionMap_ := s.connectionMap_.erase (s.conns c).name_
    epoll_ := epoll
    entered := Function.update s.entered c (s.entered c + 1)
    erased := s.erased ++ [1]
    removeAsserts := s.removeAsserts ++ [true] }

theorem handleClose_eq (hopen : s.Open c) : s.handleClose c = (s.shut c).release c := by
  have hstatus : (s.inLoop c).channel_.statusInEpoll_ = .kAdded := hopen.status
  have hcontains : s.connectionMap_.contains (s.conns c).name_ = true := by
    rw [ExtTreeMap.contains_eq_isSome_getElem?, hopen.entry]
    rfl
  have hnone : (Channel.kNoneEvent == Channel.kNoneEvent) = true := by decide
  have hclose := TcpConnection.handleClose_eq hstatus
  unfold handleClose removeConnection connectionDestroyed withConn
  unfold inLoop at hclose
  simp only [Function.update_self, Function.update_idem, hcontains, if_true, hclose,
    TcpConnection.disconnect, reduceCtorEq, if_false, TcpConnection.remove_eq, Channel.isNoneEvent,
    hnone]
  rfl

section Shut

variable {d : ConnPtr}

theorem conns_shut_ne (hd : d ≠ c) : (s.shut c).conns d = s.conns d := Function.update_of_ne hd ..

/-- It leaves the name, the descriptor, and what belongs to the events. -/
theorem kept_shut (s : Serving) (c d : ConnPtr) :
    ((s.shut c).conns d).name_ = (s.conns d).name_ ∧
      ((s.shut c).conns d).channel_.self = (s.conns d).channel_.self ∧
      ((s.shut c).conns d).channel_.fd_ = (s.conns d).channel_.fd_ ∧
      ((s.shut c).conns d).eventHandling_ = (s.conns d).eventHandling_ := by
  by_cases hd : d = c
  · subst hd
    have hconn : (s.shut d).conns d = _ := Function.update_self ..
    rw [hconn]
    exact ⟨rfl, rfl, rfl, rfl⟩
  · rw [conns_shut_ne hd]
    exact ⟨rfl, rfl, rfl, rfl⟩

/-- Another connection that exists has another descriptor. -/
theorem Coherent.fd_ne (h : s.Coherent) (hopen : s.Open c) (hd : d < s.created) (hne : d ≠ c)
    (howned : s.owned d = true) : (s.conns d).channel_.fd_ ≠ (s.conns c).channel_.fd_ := by
  intro hfd
  have hlisted := hopen.listed
  rw [← hfd] at hlisted
  rcases h.cases d hd with hother | hother
  · exact hne (Option.some.inj (hother.listed.symm.trans hlisted))
  · cases (hother.unlisted howned).symm.trans hlisted

theorem untouched_shut (h : s.Coherent) (hopen : s.Open c) (hc : c < s.created)
    (hd : d < s.created) (hne : d ≠ c) : Untouched s (s.shut c) d := by
  have hconn := conns_shut_ne (s := s) hne
  have hname : (s.conns d).name_ ≠ (s.conns c).name_ := by
    rw [h.named d hd, h.named c hc]
    exact fun heq => hne (s.connectionName_injective heq)
  have hentry : (s.shut c).connectionMap_[(s.conns d).name_]? =
      s.connectionMap_[(s.conns d).name_]? := by
    show (s.connectionMap_.erase (s.conns c).name_)[(s.conns d).name_]? = _
    rw [ExtTreeMap.getElem?_erase, if_neg]
    exact fun heq => hname (LawfulEqOrd.eq_of_compare heq).symm
  refine ⟨Function.update_of_ne hne .., ?_, ?_, ?_, ?_, ?_, fun ev hev => ?_, fun howned => ?_,
    fun howned => ?_⟩
  · rw [hconn]
  · rw [hconn]
  · rw [hconn]
  · rw [hconn]
  · rw [hentry]
  · -- the kernel's set only loses an entry
    have hev' : (s.epoll_.interest.erase (s.conns c).channel_.fd_)[(s.conns d).channel_.fd_]? =
        some (ev, d) := hev
    rw [ExtTreeMap.getElem?_erase] at hev'
    split at hev'
    · cases hev'
    · exact hev'
  · -- the other references are the same
    rw [owned_iff, (kept_shut s c d).1, hentry] at howned
    exact owned_iff.mpr howned
  · exact getElem?_erase_elsewhere _ (h.fd_ne hopen hd hne howned)

theorem closed_shut (s : Serving) (c : ConnPtr) : (s.shut c).Closed c := by
  have hconn : (s.shut c).conns c = _ := Function.update_self ..
  have hentered : (s.shut c).entered c = s.entered c + 1 := Function.update_self ..
  refine ⟨?_, ?_, ?_, ?_, ?_, fun ev => ?_, fun _ => ?_⟩
  · rw [hentered]
    exact Nat.succ_ne_zero _
  · rw [(kept_shut s c c).1]
    show (s.connectionMap_.erase (s.conns c).name_)[(s.conns c).name_]? ≠ some c
    rw [ExtTreeMap.getElem?_erase_self]
    exact (Option.some_ne_none c).symm
  · rw [hconn]
  · rw [hconn]
  · rw [hconn]
  · rw [(kept_shut s c c).2.2.1]
    show (s.epoll_.interest.erase (s.conns c).channel_.fd_)[(s.conns c).channel_.fd_]? ≠ _
    rw [ExtTreeMap.getElem?_erase_self]
    exact (Option.some_ne_none _).symm
  · rw [(kept_shut s c c).2.2.1]
    exact ExtTreeMap.getElem?_erase_self

/-- What `channels_` maps after the close is mapped for another reason. -/
theorem listed_shut (h : s.Coherent) {fd : Int}
    (hne : (s.shut c).epoll_.channels_[fd]? ≠ none) :
    fd = s.timerfd_ ∨ fd = s.acceptChannel_.fd_ ∨
      ∃ d, d < s.created ∧ (s.shut c).entered d = 0 ∧ ((s.shut c).conns d).channel_.fd_ = fd := by
  have hne' : (s.epoll_.channels_.erase (s.conns c).channel_.fd_)[fd]? ≠ none := hne
  rw [ExtTreeMap.getElem?_erase] at hne'
  split at hne'
  · exact absurd rfl hne'
  · next hfd =>
    rcases h.listed fd hne' with htimer | haccept | ⟨d, hd, hentered, hdfd⟩
    · exact Or.inl htimer
    · exact Or.inr (Or.inl haccept)
    · have hdc : d ≠ c := by
        rintro rfl
        exact hfd (by rw [hdfd]; exact ReflCmp.compare_self)
      have hsame : (s.shut c).entered d = s.entered d := Function.update_of_ne hdc ..
      refine Or.inr (Or.inr ⟨d, hd, hsame.trans hentered, ?_⟩)
      rw [(kept_shut s c d).2.2.1]
      exact hdfd

/-- The channel of the frame is not among the active ones. -/
theorem Coherent.ne_frame (h : s.Coherent) {f : HandlerFrame} (hframe : s.frame = some f)
    {a : ConnPtr × BitVec 32} (ha : a ∈ s.activeChannels_) : a.1 ≠ f.channel := by
  intro heq
  have hnodup := h.busy
  rw [Serving.busy, hframe] at hnodup
  refine (List.nodup_cons.mp hnodup).1 ?_
  show f.channel ∈ s.activeChannels_.map Prod.fst
  rw [← heq]
  exact List.mem_map_of_mem ha

/-- **Closing**: the connection that is being handled goes from open to
    closed, and nothing else changes. -/
theorem coherent_shut (h : s.Coherent) {f : HandlerFrame} (hframe : s.frame = some f)
    (hopen : s.Open f.channel) : (s.shut f.channel).Coherent := by
  have hc := (h.frame f hframe).2
  have hentered : ∀ d, d ≠ f.channel → (s.shut f.channel).entered d = s.entered d :=
    fun d hd => Function.update_of_ne hd ..
  refine ⟨h.counter, ?_, ?_, ?_, ?_, ?_, fun _ => listed_shut h, h.frame, ?_, h.busy, ?_, h.held,
    ?_⟩
  · -- names, addresses and descriptors are what they were
    intro d hd
    rw [(kept_shut s f.channel d).1]
    exact h.named d hd
  · intro d hd
    rw [(kept_shut s f.channel d).2.1]
    exact h.self d hd
  · intro d hd
    rw [(kept_shut s f.channel d).2.2.1]
    exact h.fd_ d hd
  · -- open or closed: the one that is handled changes its side
    intro d hd
    by_cases hne : d = f.channel
    · subst hne
      exact Or.inr (closed_shut s f.channel)
    · exact (untouched_shut h hopen hc hd hne).cases (h.cases d hd)
  · -- who is unborn is not being handled
    intro d hd
    have hne : d ≠ f.channel := by
      rintro rfl
      exact absurd hc (Nat.not_lt.mpr hd)
    rw [hentered d hne]
    exact h.unborn d hd
  · intro d hd hhandling
    rw [(kept_shut s f.channel d).2.2.2] at hhandling
    exact h.handling d hd hhandling
  · intro a ha
    exact ⟨(h.active a ha).1, (hentered a.1 (h.ne_frame hframe ha)).trans (h.active a ha).2⟩
  · -- one entry was erased, and the channel was stopped before it was removed
    refine ⟨fun n hn => ?_, fun b hb => ?_, fun g hg => ?_, h.safe.destroyed⟩
    · rcases List.mem_append.mp hn with hn | hn
      · exact h.safe.erased n hn
      · exact List.mem_singleton.mp hn
    · rcases List.mem_append.mp hb with hb | hb
      · exact h.safe.removeAsserts b hb
      · exact List.mem_singleton.mp hb
    · exact owned_iff.mpr (Or.inr (Or.inl ⟨g, hg, (h.frame g hg).1, rfl⟩))

/-- `handleClose`, entered for the first time: the guard keeps the
    connection. -/
theorem coherent_handleClose (h : s.Coherent) {f : HandlerFrame} (hframe : s.frame = some f)
    (hentered : s.entered f.channel = 0) : (s.handleClose f.channel).Coherent := by
  have hopen := h.open_of_entered (h.frame f hframe).2 hentered
  have hshut := coherent_shut h hframe hopen
  have hframe' : (s.shut f.channel).frame = some f := hframe
  rw [handleClose_eq hopen, release, if_pos (hshut.owned_frame hframe')]
  exact hshut

end Shut

/-! ### New connections, and the listen socket -/

/-- An operation on a channel that is not a connection's. -/
theorem coherent_elsewhere (h : s.Coherent) {ep : Epoll} {ch : Channel}
    (hreaches : Reaches s.epoll_ ep s.acceptChannel_) (hfd : ch.fd_ = s.acceptChannel_.fd_) :
    Coherent { s with acceptChannel_ := ch, epoll_ := ep } := by
  refine ⟨h.counter, h.named, h.self, ?_, ?_, h.unborn, ?_, h.frame, h.handling, h.busy, h.active,
    h.held, ⟨h.safe.erased, h.safe.removeAsserts, h.safe.alive, h.safe.destroyed⟩⟩
  · intro c hc
    rw [hfd]
    exact h.fd_ c hc
  · intro c hc
    have hne := (h.fd_ c hc).2
    refine Untouched.cases (s := s) ?_ (h.cases c hc)
    refine ⟨rfl, rfl, rfl, rfl, rfl, Iff.rfl, fun ev hev => ?_, id, fun _ => ?_⟩
    · exact (hreaches.elsewhere.interest _ hne).symm.trans hev
    · exact hreaches.elsewhere.channels_ _ hne
  · intro fd hne
    by_cases haccept : fd = s.acceptChannel_.fd_
    · exact Or.inr (Or.inl (haccept.trans hfd.symm))
    · have hold : s.epoll_.channels_[fd]? ≠ none := by
        rw [← hreaches.elsewhere.channels_ fd haccept]
        exact hne
      rcases h.listed fd hold with htimer | h' | hconn
      · exact Or.inl htimer
      · exact absurd h' haccept
      · exact Or.inr (Or.inr hconn)

theorem coherent_listenInEpoll (h : s.Coherent) : (s.next .listenInEpoll).Coherent := by
  obtain ⟨hfd, hreaches⟩ := updateChannel_reaches s.epoll_
    { s.acceptChannel_ with
      events_ := s.acceptChannel_.events_ ||| Channel.kReadEvent
      addedToLoop_ := true }
  exact coherent_elsewhere h ⟨hreaches.elsewhere, hreaches.interest⟩ hfd

theorem coherent_unlistenInEpoll (h : s.Coherent) : (s.next .unlistenInEpoll).Coherent := by
  obtain ⟨hfd, hreaches⟩ := updateChannel_reaches s.epoll_
    { s.acceptChannel_ with
      events_ := s.acceptChannel_.events_ &&& ~~~Channel.kReadEvent
      addedToLoop_ := true }
  exact coherent_elsewhere h ⟨hreaches.elsewhere, hreaches.interest⟩ hfd

section NewConnection

variable {d : ConnPtr} (fd : Int) (writeComplete : Bool)

theorem conns_newConnection_ne (s : Serving) (hd : d ≠ s.created) :
    (s.newConnection fd writeComplete).conns d = s.conns d := by
  unfold newConnection connectionEstablished
  rw [conns_withConn_ne hd]
  show Function.update (s.enter _ fd writeComplete).conns s.created _ d = s.conns d
  rw [Function.update_of_ne hd]
  exact Function.update_of_ne hd ..

/-- The new object, registered for reading. -/
theorem conns_newConnection_self (s : Serving) :
    let conn := (s.newConnection fd writeComplete).conns s.created
    conn.name_ = s.name_ ++ toString s.nextConnectionId_ ∧ conn.state_ = .kConnected ∧
      conn.tied_ = true ∧ conn.eventHandling_ = false ∧ conn.channel_.self = s.created ∧
      conn.channel_.fd_ = fd ∧ conn.channel_.events_ = Channel.kReadEvent ∧
      conn.channel_.statusInEpoll_ = .kAdded := by
  obtain ⟨hself, hcfd, hevents, hstatus, -, -⟩ := enableReading_first s.created fd s.epoll_
  unfold newConnection connectionEstablished enter
  simp only [conns_withConn_self, Function.update_self, inLoop]
  exact ⟨trivial, rfl, trivial, trivial, hself, hcfd, hevents, hstatus⟩

/-- The epoll has one entry more. -/
theorem epoll_newConnection (s : Serving) :
    (s.newConnection fd writeComplete).epoll_.channels_ = s.epoll_.channels_.insert fd s.created ∧
      Reaches s.epoll_ (s.newConnection fd writeComplete).epoll_ (Channel.new s.created fd) := by
  obtain ⟨-, -, -, -, hchannels, hreaches⟩ := enableReading_first s.created fd s.epoll_
  unfold newConnection connectionEstablished enter withConn
  simp only [Function.update_self]
  exact ⟨hchannels, hreaches⟩

/-- The kernel gives a new descriptor. -/
theorem untouched_newConnection (h : s.Coherent) (hfd : ¬ s.isOpen fd) (hd : d < s.created) :
    Untouched s (s.newConnection fd writeComplete) d := by
  have hne : d ≠ s.created := Nat.ne_of_lt hd
  have hconn := conns_newConnection_ne fd writeComplete s hne
  obtain ⟨hchannels, hreaches⟩ := epoll_newConnection fd writeComplete s
  have hname : s.name_ ++ toString s.nextConnectionId_ = s.connectionName s.created := by
    rw [h.counter]
    rfl
  have hentry : (s.newConnection fd writeComplete).connectionMap_[(s.conns d).name_]? =
      s.connectionMap_[(s.conns d).name_]? := by
    show (s.connectionMap_.insert (s.name_ ++ toString s.nextConnectionId_) s.created)[
      (s.conns d).name_]? = _
    rw [ExtTreeMap.getElem?_insert, if_neg]
    intro heq
    have hsame := LawfulEqOrd.eq_of_compare heq
    rw [hname, h.named d hd] at hsame
    exact hne (s.connectionName_injective hsame).symm
  refine ⟨rfl, ?_, ?_, ?_, ?_, ?_, fun ev hev => ?_, fun howned => ?_, fun howned => ?_⟩
  · rw [hconn]
  · rw [hconn]
  · rw [hconn]
  · rw [hconn]
  · rw [hentry]
  · by_cases hsame : (s.conns d).channel_.fd_ = fd
    · rw [hsame] at hev ⊢
      rcases hreaches.interest ev d hev with hptr | hold
      · exact absurd hptr hne
      · exact hold
    · exact (hreaches.elsewhere.interest _ hsame).symm.trans hev
  · rw [owned_iff, hconn, hentry] at howned
    exact owned_iff.mpr howned
  · -- who exists has its descriptor open
    have hdfd : (s.conns d).channel_.fd_ ≠ fd :=
      fun hsame => hfd (Or.inr (Or.inr ⟨d, hd, howned, hsame⟩))
    rw [hchannels]
    exact getElem?_insert_elsewhere _ _ hdfd

theorem open_newConnection (h : s.Coherent) :
    (s.newConnection fd writeComplete).Open s.created := by
  obtain ⟨hname, hstate, htied, -, -, hcfd, hevents, hstatus⟩ :=
    conns_newConnection_self fd writeComplete s
  refine ⟨h.unborn s.created (Nat.le_refl _), ?_, Or.inl hstate, htied, hevents, hstatus, ?_⟩
  · rw [hname]
    exact ExtTreeMap.getElem?_insert_self
  · rw [hcfd, (epoll_newConnection fd writeComplete s).1]
    exact ExtTreeMap.getElem?_insert_self

/-- `channels_` maps one descriptor more. -/
theorem listed_newConnection (h : s.Coherent) {k : Int}
    (hne : (s.newConnection fd writeComplete).epoll_.channels_[k]? ≠ none) :
    k = s.timerfd_ ∨ k = s.acceptChannel_.fd_ ∨
      ∃ d, d < s.created + 1 ∧ s.entered d = 0 ∧
        ((s.newConnection fd writeComplete).conns d).channel_.fd_ = k := by
  rw [(epoll_newConnection fd writeComplete s).1, ExtTreeMap.getElem?_insert] at hne
  split at hne
  · next heq =>
    refine Or.inr (Or.inr ⟨s.created, Nat.lt_succ_self _, h.unborn _ (Nat.le_refl _), ?_⟩)
    rw [(conns_newConnection_self fd writeComplete s).2.2.2.2.2.1]
    exact LawfulEqOrd.eq_of_compare heq
  · rcases h.listed k hne with htimer | haccept | ⟨d, hd, hentered, hdfd⟩
    · exact Or.inl htimer
    · exact Or.inr (Or.inl haccept)
    · refine Or.inr (Or.inr ⟨d, Nat.lt_succ_of_lt hd, hentered, ?_⟩)
      rw [conns_newConnection_ne fd writeComplete s (Nat.ne_of_lt hd)]
      exact hdfd

theorem coherent_newConnection (h : s.Coherent) (hframe : s.frame = none) (hfd : ¬ s.isOpen fd) :
    (s.newConnection fd writeComplete).Coherent := by
  obtain ⟨hname, -, -, hhandling, hself, hcfd, -, -⟩ :=
    conns_newConnection_self fd writeComplete s
  -- a connection is an old one or the new one
  have hcases : ∀ {P : ConnPtr → Prop}, (∀ d, d < s.created → P d) → P s.created →
      ∀ d, d < s.created + 1 → P d := by
    intro P hold hnew d hd
    rcases Nat.lt_succ_iff_lt_or_eq.mp hd with hd | rfl
    · exact hold d hd
    · exact hnew
  refine ⟨?_, hcases ?_ ?_, hcases ?_ ?_, hcases ?_ ?_, hcases ?_ ?_, ?_,
    fun _ => listed_newConnection fd writeComplete h, ?_, hcases ?_ ?_, h.busy, ?_, ?_, ?_⟩
  · -- both counters go up
    show s.nextConnectionId_ + 1 = ((s.created + 1 : Nat) : Int) + 1
    rw [h.counter]
    rfl
  · intro d hd
    rw [conns_newConnection_ne fd writeComplete s (Nat.ne_of_lt hd)]
    exact h.named d hd
  · rw [hname, h.counter]
    rfl
  · intro d hd
    rw [conns_newConnection_ne fd writeComplete s (Nat.ne_of_lt hd)]
    exact h.self d hd
  · exact hself
  · intro d hd
    rw [conns_newConnection_ne fd writeComplete s (Nat.ne_of_lt hd)]
    exact h.fd_ d hd
  · -- the kernel gives no descriptor that is in use
    rw [hcfd]
    exact ⟨fun hsame => hfd (Or.inl hsame), fun hsame => hfd (Or.inr (Or.inl hsame))⟩
  · intro d hd
    exact (untouched_newConnection fd writeComplete h hfd hd).cases (h.cases d hd)
  · exact Or.inl (open_newConnection fd writeComplete h)
  · exact fun d hd => h.unborn d (Nat.le_of_succ_le hd)
  · -- no event is being handled
    intro f hf
    cases hframe.symm.trans hf
  · intro d hd hhandling'
    rw [conns_newConnection_ne fd writeComplete s (Nat.ne_of_lt hd)] at hhandling'
    exact h.handling d hd hhandling'
  · intro hhandling'
    rw [hhandling] at hhandling'
    cases hhandling'
  · exact fun a ha => ⟨Nat.lt_succ_of_lt (h.active a ha).1, (h.active a ha).2⟩
  · exact fun d hd => Nat.lt_succ_of_lt (h.held d hd)
  · refine ⟨h.safe.erased, h.safe.removeAsserts, fun f hf => ?_, h.safe.destroyed⟩
    cases hframe.symm.trans hf

end NewConnection

/-! ### Events -/

theorem coherent_poll (h : s.Coherent) (hframe : s.frame = none)
    {activeChannels : List (ConnPtr × BitVec 32)} (hnodup : (activeChannels.map Prod.fst).Nodup)
    (hwatched : ∀ a ∈ activeChannels, s.watched a.1) :
    (s.next (.poll activeChannels)).Coherent := by
  refine ⟨h.counter, h.named, h.self, h.fd_, ?_, h.unborn, h.listed, h.frame, h.handling, ?_, ?_,
    h.held, ⟨h.safe.erased, h.safe.removeAsserts, h.safe.alive, h.safe.destroyed⟩⟩
  · intro d hd
    refine Untouched.cases (s := s) ?_ (h.cases d hd)
    exact ⟨rfl, rfl, rfl, rfl, rfl, Iff.rfl, fun _ => id, id, fun _ => rfl⟩
  · show ((s.frame.map (·.channel)).toList ++ activeChannels.map Prod.fst).Nodup
    rw [hframe]
    exact hnodup
  · -- the kernel watches no closed connection
    intro a ha
    obtain ⟨hcreated, hinterest⟩ := hwatched a ha
    refine ⟨hcreated, ?_⟩
    rcases h.cases a.1 hcreated with hopen | hclosed
    · exact hopen.entered
    · obtain ⟨v, hv, hptr⟩ := Option.map_eq_some_iff.mp hinterest
      have hentry : s.epoll_.interest[(s.conns a.1).channel_.fd_]? = some (v.1, a.1) := by
        rw [hv, ← hptr]
      exact absurd hentry (hclosed.unwatched v.1)

section Handling

variable {d : ConnPtr} {b : Bool} {f : HandlerFrame}

/-- The two differ in what no other part of the server looks at. -/
structure SameRole (k k' : ServedConnection) : Prop where
  name_ : k'.name_ = k.name_
  state_ : k'.state_ = k.state_
  tied_ : k'.tied_ = k.tied_
  channel_ : k'.channel_ = k.channel_

theorem SameRole.refl (k : ServedConnection) : SameRole k k := ⟨rfl, rfl, rfl, rfl⟩

/-- The buffers and the flags of the events change. -/
theorem coherent_conns (h : s.Coherent) {conns : ConnPtr → ServedConnection}
    (hsame : ∀ d, SameRole (s.conns d) (conns d))
    (hhandling : ∀ d, d < s.created → (conns d).eventHandling_ = true → s.executing d = true) :
    Coherent { s with conns := conns } := by
  have howned : ∀ d, ({ s with conns := conns } : Serving).owned d = s.owned d := by
    intro d
    unfold owned
    rw [(hsame d).name_]
  refine ⟨h.counter, ?_, ?_, ?_, ?_, h.unborn, ?_, h.frame, hhandling, h.busy, h.active, h.held,
    ⟨h.safe.erased, h.safe.removeAsserts, ?_, h.safe.destroyed⟩⟩
  · exact fun d hd => (hsame d).name_.trans (h.named d hd)
  · exact fun d hd => (congrArg Channel.self (hsame d).channel_).trans (h.self d hd)
  · intro d hd
    dsimp only
    rw [(hsame d).channel_]
    exact h.fd_ d hd
  · intro d hd
    refine Untouched.cases (s := s) ?_ (h.cases d hd)
    refine ⟨rfl, (hsame d).name_, (hsame d).state_, (hsame d).tied_, (hsame d).channel_, Iff.rfl,
      fun _ => id, fun hd' => ?_, fun _ => rfl⟩
    rw [howned] at hd'
    exact hd'
  · intro fd hne
    rcases h.listed fd hne with htimer | haccept | ⟨d, hd, hentered, hdfd⟩
    · exact Or.inl htimer
    · exact Or.inr (Or.inl haccept)
    · refine Or.inr (Or.inr ⟨d, hd, hentered, ?_⟩)
      exact (congrArg Channel.fd_ (hsame d).channel_).trans hdfd
  · intro g hg
    rw [howned]
    exact h.safe.alive g hg

/-- A call of `handleEvent` begins, goes on or ends. -/
theorem coherent_frame (h : s.Coherent) {frame : Option HandlerFrame}
    {activeChannels : List (ConnPtr × BitVec 32)}
    (hguard : ∀ g, frame = some g →
      g.guard = true ∧ g.channel < s.created ∧ s.owned g.channel = true)
    (hhandling : ∀ d, d < s.created → (s.conns d).eventHandling_ = true →
      ∃ g, frame = some g ∧ g.channel = d)
    (hbusy : ((frame.map (·.channel)).toList ++ activeChannels.map Prod.fst).Nodup)
    (hactive : ∀ a ∈ activeChannels, a ∈ s.activeChannels_) :
    Coherent { s with frame := frame, activeChannels_ := activeChannels } := by
  refine ⟨h.counter, h.named, h.self, h.fd_, ?_, h.unborn, h.listed, ?_, ?_, hbusy, ?_, h.held,
    ⟨h.safe.erased, h.safe.removeAsserts, ?_, h.safe.destroyed⟩⟩
  · intro d hd
    refine Untouched.cases (s := s) ?_ (h.cases d hd)
    refine ⟨rfl, rfl, rfl, rfl, rfl, Iff.rfl, fun _ => id, fun howned => ?_, fun _ => rfl⟩
    -- the guard is of a connection that exists
    rcases owned_iff.mp howned with hmap | ⟨g, hg, -, rfl⟩ | hheld
    · exact owned_iff.mpr (Or.inl hmap)
    · exact (hguard g hg).2.2
    · exact owned_iff.mpr (Or.inr (Or.inr hheld))
  · exact fun g hg => ⟨(hguard g hg).1, (hguard g hg).2.1⟩
  · exact fun d hd hflag => executing_iff.mpr (hhandling d hd hflag)
  · exact fun a ha => h.active a (hactive a ha)
  · exact fun g hg => owned_iff.mpr (Or.inr (Or.inl ⟨g, hg, (hguard g hg).1, rfl⟩))

theorem sameRole_setEventHandling (s : Serving) (c : ConnPtr) (b : Bool) (d : ConnPtr) :
    SameRole (s.conns d) ((s.setEventHandling c b).conns d) := by
  by_cases hd : d = c
  · subst hd
    have hconn : (s.setEventHandling d b).conns d = _ := Function.update_self ..
    rw [hconn]
    exact ⟨rfl, rfl, rfl, rfl⟩
  · have hconn : (s.setEventHandling c b).conns d = _ := Function.update_of_ne hd ..
    rw [hconn]
    exact SameRole.refl _

/-- An active channel is of an open connection, and it is tied. -/
theorem coherent_handleEvent (h : s.Coherent) (hframe : s.frame = none) {revents : BitVec 32}
    {rest : List (ConnPtr × BitVec 32)} (hactive : s.activeChannels_ = (c, revents) :: rest) :
    ({ s with activeChannels_ := rest }.handleEvent c revents).Coherent := by
  obtain ⟨hc, hentered⟩ := h.active (c, revents) (by rw [hactive]; exact List.mem_cons_self ..)
  have hopen := h.open_of_entered hc hentered
  have howned : ({ s with activeChannels_ := rest } : Serving).owned c = true := hopen.owned
  have hbusy := h.busy
  rw [Serving.busy, hframe, hactive] at hbusy
  unfold handleEvent
  dsimp only
  rw [if_pos hopen.tied_, if_pos howned]
  -- the frame comes first
  have hframed : Coherent { s with
      frame := some ⟨c, true, Channel.handleEventWithGuard revents⟩
      activeChannels_ := rest } := by
    refine coherent_frame h ?_ ?_ hbusy ?_
    · rintro g hg
      cases hg
      exact ⟨rfl, hc, hopen.owned⟩
    · -- no flag is set outside of `handleEvent`
      intro d hd hflag
      obtain ⟨g, hg, -⟩ := executing_iff.mp (h.handling d hd hflag)
      cases hframe.symm.trans hg
    · intro a ha
      rw [hactive]
      exact List.mem_cons_of_mem _ ha
  refine coherent_conns hframed (sameRole_setEventHandling s c true) fun d hd hflag => ?_
  by_cases hdc : d = c
  · exact executing_iff.mpr ⟨_, rfl, hdc.symm⟩
  · have hconn : (s.setEventHandling c true).conns d = s.conns d := Function.update_of_ne hdc ..
    exact hframed.handling d hd (by rw [← hconn]; exact hflag)

/-- **Return**: the guard goes, and with it perhaps the connection. -/
theorem coherent_handleEventReturns (h : s.Coherent) (hframe : s.frame = some f) :
    (s.handleEventReturns f.channel).Coherent := by
  have hc := (h.frame f hframe).2
  have hrole := sameRole_setEventHandling s f.channel false f.channel
  have hbusy := h.busy
  rw [Serving.busy, hframe] at hbusy
  -- the flag is cleared first
  have hflags : ∀ d, d < s.created →
      ((s.setEventHandling f.channel false).conns d).eventHandling_ ≠ true := by
    intro d hd hflag
    by_cases hdc : d = f.channel
    · subst hdc
      have hconn : (s.setEventHandling f.channel false).conns f.channel = _ :=
        Function.update_self ..
      rw [hconn] at hflag
      cases hflag
    · have hconn : (s.setEventHandling f.channel false).conns d = s.conns d :=
        Function.update_of_ne hdc ..
      rw [hconn] at hflag
      obtain ⟨g, hg, rfl⟩ := executing_iff.mp (h.handling d hd hflag)
      cases hframe.symm.trans hg
      exact hdc rfl
  have hcleared : (s.setEventHandling f.channel false).Coherent :=
    coherent_conns h (sameRole_setEventHandling s f.channel false)
      fun d hd hflag => absurd hflag (hflags d hd)
  have hreturned : Coherent { s.setEventHandling f.channel false with frame := none } :=
    coherent_frame hcleared (fun g hg => by cases hg)
      (fun d hd hflag => absurd hflag (hflags d hd)) (List.nodup_cons.mp hbusy).2 fun a ha => ha
  refine coherent_release hreturned hc fun hnot => ?_
  show s.epoll_.channels_[((s.setEventHandling f.channel false).conns f.channel).channel_.fd_]? =
    none
  rw [hrole.channel_]
  rcases h.cases f.channel hc with hopen | hclosed
  · -- an open connection is still in the map
    have hentry : ({ s.setEventHandling f.channel false with frame := none } : Serving).owned
        f.channel = true := by
      refine owned_iff.mpr (Or.inl ?_)
      show s.connectionMap_[((s.setEventHandling f.channel false).conns f.channel).name_]? = _
      rw [hrole.name_]
      exact hopen.entry
    cases hnot.symm.trans hentry
  · exact hclosed.unlisted (h.owned_frame hframe)

/-- The next callback is taken. -/
theorem coherent_todo (h : s.Coherent) (hframe : s.frame = some f) (todo : List EventCallback) :
    Coherent { s with frame := some { f with todo := todo } } := by
  have hbusy := h.busy
  have howned := h.owned_frame hframe
  rw [Serving.busy, hframe] at hbusy
  refine coherent_frame h ?_ ?_ hbusy fun a ha => ha
  · rintro g hg
    cases hg
    exact ⟨(h.frame f hframe).1, (h.frame f hframe).2, howned⟩
  · intro d hd hflag
    obtain ⟨g, hg, hgd⟩ := executing_iff.mp (h.handling d hd hflag)
    cases hframe.symm.trans hg
    exact ⟨_, rfl, hgd⟩

/-- `handleRead`, where the end of the stream was not read before. -/
theorem coherent_handleRead (h : s.Coherent) (hframe : s.frame = some f) (r : ReadResult)
    (hentered : r = .eof → s.entered f.channel = 0) : (s.handleRead f.channel r).Coherent := by
  cases r with
  | data bs =>
    have hsame : ∀ d, SameRole (s.conns d) ((s.handleRead f.channel (.data bs)).conns d) ∧
        ((s.handleRead f.channel (.data bs)).conns d).eventHandling_ =
          (s.conns d).eventHandling_ := by
      intro d
      by_cases hd : d = f.channel
      · subst hd
        have hconn : (s.handleRead f.channel (.data bs)).conns f.channel = _ :=
          Function.update_self ..
        rw [hconn]
        exact ⟨⟨rfl, rfl, rfl, rfl⟩, rfl⟩
      · have hconn : (s.handleRead f.channel (.data bs)).conns d = _ :=
          Function.update_of_ne hd ..
        rw [hconn]
        exact ⟨SameRole.refl _, rfl⟩
    refine coherent_conns h (fun d => (hsame d).1) fun d hd hflag => h.handling d hd ?_
    rw [← (hsame d).2]
    exact hflag
  | eof => exact coherent_handleClose h hframe (hentered rfl)
  | error => exact h

end Handling

/-! ### The references of the user -/

/-- The user has one reference more, or less. -/
theorem coherent_held (h : s.Coherent) {held : ConnPtr → Nat}
    (howned : ∀ d, 0 < held d → d < s.created ∧ s.owned d = true) :
    Coherent { s with held := held } := by
  refine ⟨h.counter, h.named, h.self, h.fd_, ?_, h.unborn, h.listed, h.frame, h.handling, h.busy,
    h.active, fun d hd => (howned d hd).1,
    ⟨h.safe.erased, h.safe.removeAsserts, fun g hg => ?_, h.safe.destroyed⟩⟩
  · intro d hd
    refine Untouched.cases (s := s) ?_ (h.cases d hd)
    refine ⟨rfl, rfl, rfl, rfl, rfl, Iff.rfl, fun _ => id, fun hd' => ?_, fun _ => rfl⟩
    rcases owned_iff.mp hd' with hmap | hframe | hheld
    · exact owned_iff.mpr (Or.inl hmap)
    · exact owned_iff.mpr (Or.inr (Or.inl hframe))
    · exact (howned d hheld).2
  · exact owned_iff.mpr (Or.inr (Or.inl ⟨g, hg, (h.frame g hg).1, rfl⟩))

theorem coherent_hold (h : s.Coherent) (hreachable : s.reachable c) :
    (s.next (.hold c)).Coherent := by
  refine coherent_held h fun d hd => ?_
  by_cases hdc : d = c
  · subst hdc
    exact hreachable
  · rw [Function.update_of_ne hdc] at hd
    exact ⟨h.held d hd, owned_iff.mpr (Or.inr (Or.inr hd))⟩

theorem coherent_drop (h : s.Coherent) (hheld : 0 < s.held c) : (s.next (.drop c)).Coherent := by
  have hc := h.held c hheld
  have howned : s.owned c = true := owned_iff.mpr (Or.inr (Or.inr hheld))
  have hdropped : Coherent { s with held := Function.update s.held c (s.held c - 1) } := by
    refine coherent_held h fun d hd => ?_
    by_cases hdc : d = c
    · subst hdc
      exact ⟨hc, howned⟩
    · rw [Function.update_of_ne hdc] at hd
      exact ⟨h.held d hd, owned_iff.mpr (Or.inr (Or.inr hd))⟩
  refine coherent_release hdropped hc fun hnot => ?_
  rcases h.cases c hc with hopen | hclosed
  · -- the map still owns it
    have hentry : ({ s with held := Function.update s.held c (s.held c - 1) } : Serving).owned c =
        true := owned_iff.mpr (Or.inl hopen.entry)
    cases hnot.symm.trans hentry
  · exact hclosed.unlisted howned

/-! ## Runs -/

/-- A callback that is due is called on the channel that is being handled,
    with the rest of the event still to come. -/
theorem callback_eq (h : s.Coherent) {callback : EventCallback}
    (hnext : s.nextCallback = some callback) :
    ∃ f ∈ s.frame, ∃ s', s'.Coherent ∧ s'.frame = some { f with todo := f.todo.tail } ∧
      s'.entered = s.entered ∧ ∀ body, s.callback body = body s' f.channel := by
  obtain ⟨f, hframe, -⟩ := Option.bind_eq_some_iff.mp hnext
  refine ⟨f, hframe, { s with frame := some { f with todo := f.todo.tail } },
    coherent_todo h hframe _, rfl, rfl, fun body => ?_⟩
  rw [Serving.callback, hframe]

/-- **Step**: as long as `handleClose` is entered once per connection, every
    step keeps the invariant. -/
theorem coherent_next (h : s.Coherent) {l : ServingStep} (hguard : s.guard l)
    (honce : s.EntersOnce l) : (s.next l).Coherent := by
  cases l with
  | newConnection fd writeComplete =>
    exact coherent_newConnection fd writeComplete h hguard.1 hguard.2.1
  | listenInEpoll => exact coherent_listenInEpoll h
  | unlistenInEpoll => exact coherent_unlistenInEpoll h
  | poll activeChannels => exact coherent_poll h hguard.1 hguard.2.1 hguard.2.2
  | handleEvent =>
    -- the channel in front of the list is the next one
    cases hactive : s.activeChannels_ with
    | nil => exact absurd hactive hguard.2
    | cons a rest =>
      have hnext : s.next .handleEvent =
          { s with activeChannels_ := rest }.handleEvent a.1 a.2 := by
        rw [next, hactive]
      rw [hnext]
      exact coherent_handleEvent h hguard.1 hactive
  | closeCallback =>
    -- `s'` is the state in front of the body of the callback
    obtain ⟨f, hf, s', hcoherent, hframe, hentered, hbody⟩ := callback_eq h hguard
    have hfirst : s'.entered f.channel = 0 := (congrFun hentered f.channel).trans (honce f hf)
    have hnext : s.next .closeCallback = s'.handleClose f.channel := hbody handleClose
    rw [hnext]
    exact coherent_handleClose (f := { f with todo := f.todo.tail }) hcoherent hframe hfirst
  | errorCallback =>
    obtain ⟨f, -, s', hcoherent, -, -, hbody⟩ := callback_eq h hguard
    have hnext : s.next .errorCallback = s' := hbody fun s _ => s
    rw [hnext]
    exact hcoherent
  | readCallback r =>
    obtain ⟨f, hf, s', hcoherent, hframe, hentered, hbody⟩ := callback_eq h hguard
    have hnext : s.next (.readCallback r) = s'.handleRead f.channel r :=
      hbody fun s c => s.handleRead c r
    rw [hnext]
    refine coherent_handleRead (f := { f with todo := f.todo.tail }) hcoherent hframe r ?_
    -- at the end of the stream it enters `handleClose`
    rintro rfl
    exact (congrFun hentered f.channel).trans (honce f hf)
  | writeCallback w =>
    obtain ⟨f, -, s', hcoherent, hframe, -, hbody⟩ := callback_eq h hguard
    have hnext : s.next (.writeCallback w) = s'.withConn f.channel (·.handleWrite .process2 w) :=
      hbody fun s c => s.withConn c (·.handleWrite .process2 w)
    rw [hnext]
    exact coherent_handleWrite hcoherent (hcoherent.frame _ hframe).2 w
  | handleEventReturns =>
    cases hframe : s.frame with
    | none => exact absurd hframe hguard.1
    | some f =>
      have hnext : s.next .handleEventReturns = s.handleEventReturns f.channel := by
        rw [next, hframe]
      rw [hnext]
      exact coherent_handleEventReturns h hframe
  | send c message w => exact coherent_send h hguard.1 message w
  | shutdown c => exact coherent_shutdown h hguard.1
  | hold c => exact coherent_hold h hguard
  | drop c => exact coherent_drop h hguard

theorem coherent_started (name : String) (timerfd listenfd : Int) :
    (started name timerfd listenfd).Coherent := by
  have hnone : ∀ {c : ConnPtr} {P : Prop}, c < (started name timerfd listenfd).created → P :=
    fun hc => absurd hc (Nat.not_lt_zero _)
  refine ⟨rfl, fun c hc => hnone hc, fun c hc => hnone hc, fun c hc => hnone hc,
    fun c hc => hnone hc, fun _ _ => rfl, fun fd hne => ?_, fun f hf => ?_, fun c hc => hnone hc,
    List.nodup_nil, fun a ha => ?_, fun c hc => ?_,
    ⟨fun n hn => ?_, fun b hb => ?_, fun f hf => ?_, fun d hd => ?_⟩⟩
  · -- the timerfd is registered
    left
    have hchannels := (enableReading_first 0 timerfd Epoll.new).2.2.2.2.1
    have hentry : (started name timerfd listenfd).epoll_.channels_[fd]? =
        (Epoll.new.channels_.insert timerfd 0)[fd]? := congrArg (·[fd]?) hchannels
    rw [hentry] at hne
    by_contra htimer
    have htimer : fd ≠ timerfd := htimer
    rw [getElem?_insert_elsewhere _ _ htimer] at hne
    exact hne ExtTreeMap.getElem?_empty
  · cases hf
  · cases ha
  · exact absurd hc (Nat.lt_irrefl 0)
  · cases hn
  · cases hb
  · cases hf
  · cases hd

/-- One of two connections is hung up on, and its last bytes are read after
    it was closed.  The user holds the other, which reads the end of the
    stream, and its descriptor is used again when he drops it. -/
def twoConnections : List ServingStep :=
  [.newConnection 7 false, .newConnection 8 false, .hold 1,
    .poll [(0, 0x2010), (1, 0x0001)],
    .handleEvent, .closeCallback, .readCallback (.data [72]), .handleEventReturns,
    .handleEvent, .readCallback .eof, .send 1 [72] (.wrote 1), .handleEventReturns,
    .newConnection 7 false, .drop 1, .newConnection 8 false]

/-- Both have been destroyed, in their order. -/
example : (serving.run (started "s" 5 6) twoConnections).destroyed.map (·.connection) = [0, 1] := by
  decide +kernel

end Serving

end Process

end TinyWS
