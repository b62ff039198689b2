import TinyWS.Framework.Machine
import TinyWS.Net.Buffer
import TinyWS.Net.Epoll

/-! # TcpConnection

    One connection of the multi-threaded server.  The member functions
    are written over `Endpoint`: the connection, the `Epoll` of the loop
    it lives in, and the functors it has queued on that loop.

    What a system call returned is an argument, so one function covers
    every behaviour of the socket.  The asserts of the source are kept
    as data (`removeAsserts`), not as aborts: a release build goes on
    after a failed assert and so does the model.

    The machine `connection` takes the calls and events of one connection
    in any order. -/

namespace TinyWS

/-- The event loops of a server: `0` is its base loop. -/
abbrev LoopId : Type := Nat

/-- `TcpConnection::StateE`. -/
inductive StateE where
  | kDisconnected
  | kConnecting
  | kConnected
  | kDisconnecting
  deriving DecidableEq, Repr

/-- What `::write` answers: it takes some of the offered bytes, or fails. -/
inductive WriteResult where
  | wrote (n : Nat)
  | failed (wouldBlock : Bool)
  deriving DecidableEq, Repr

/-- How many of `len` offered bytes were taken; `none` is `-1`. -/
def WriteResult.accepted (w : WriteResult) (len : Nat) : Option Nat :=
  match w with
  | .wrote n => some (min n len)
  | .failed _ => none

/-- What `Buffer::readFd` answers. -/
inductive ReadResult where
  | data (bs : Bytes)
  | eof
  | error
  deriving DecidableEq, Repr

/-- The calls made on the socket, with what decided them: the bytes a
    `::write` took, and the state and the unsent output at a
    `Socket::shutdownWrite`. -/
inductive SocketCall where
  | write (taken : Bytes)
  | shutdownWrite (state : StateE) (unsent : Bytes)
  deriving DecidableEq, Repr

/-- The functors a connection queues on its loop.  `send` binds the raw
    `this`; the other two bind `shared_from_this()`. -/
inductive ConnFunctor where
  | sendInLoop (message : Bytes)
  | shutdownInLoop
  | writeComplete
  deriving DecidableEq, Repr

/-- `class TcpConnection`.  The last five fields are histories: no code
    reads them. -/
structure TcpConnection where
  name_ : String
  loop_ : LoopId
  state_ : StateE
  channel_ : Channel
  inputBuffer_ : Buffer
  outputBuffer_ : Buffer
  /-- Whether `writeCompleteCallback_` is set. -/
  writeCompleteCallback_ : Bool
  /-- The messages `send` was given while connected. -/
  sent : List Bytes
  calls : List SocketCall
  /-- `connected()` at each invocation of `connectionCallback_`. -/
  notified : List Bool
  /-- How often `closeCallback_` was invoked. -/
  closeCalls : Nat
  /-- `isNoneEvent()` at each `Channel::remove`. -/
  removeAsserts : List Bool

/-- A connection together with its loop's `Epoll` and the functors it
    queued there. -/
structure Endpoint extends TcpConnection where
  epoll_ : Epoll
  pendingFunctors_ : List ConnFunctor

/-- The bytes written to the socket so far. -/
def written (calls : List SocketCall) : Bytes :=
  calls.flatMap fun
    | .write taken => taken
    | .shutdownWrite _ _ => []

namespace TcpConnection

/-- The constructor. -/
def new (name : String) (loop : LoopId) (self : ChannelPtr) (fd : Int)
    (writeComplete : Bool) : TcpConnection where
  name_ := name
  loop_ := loop
  state_ := .kConnecting
  channel_ := Channel.new self fd
  inputBuffer_ := Buffer.new
  outputBuffer_ := Buffer.new
  writeCompleteCallback_ := writeComplete
  sent := []
  calls := []
  notified := []
  closeCalls := 0
  removeAsserts := []

def connected (c : TcpConnection) : Bool := c.state_ == .kConnected

end TcpConnection

namespace Endpoint

/-! ## Channel and callbacks -/

def enableReading (e : Endpoint) : Endpoint :=
  { e with
    channel_ := (e.channel_.enableReading e.epoll_).2
    epoll_ := (e.channel_.enableReading e.epoll_).1 }

def enableWriting (e : Endpoint) : Endpoint :=
  { e with
    channel_ := (e.channel_.enableWriting e.epoll_).2
    epoll_ := (e.channel_.enableWriting e.epoll_).1 }

def disableWriting (e : Endpoint) : Endpoint :=
  { e with
    channel_ := (e.channel_.disableWriting e.epoll_).2
    epoll_ := (e.channel_.disableWriting e.epoll_).1 }

def disableAll (e : Endpoint) : Endpoint :=
  { e with
    channel_ := (e.channel_.disableAll e.epoll_).2
    epoll_ := (e.channel_.disableAll e.epoll_).1 }

def remove (e : Endpoint) : Endpoint :=
  { e with
    channel_ := (e.channel_.remove e.epoll_).2
    epoll_ := (e.channel_.remove e.epoll_).1
    removeAsserts := e.removeAsserts ++ [e.channel_.isNoneEvent] }

def setState (e : Endpoint) (s : StateE) : Endpoint := { e with state_ := s }

/-- `connectionCallback_(shared_from_this())`. -/
def notify (e : Endpoint) : Endpoint :=
  { e with notified := e.notified ++ [e.connected] }

def queueInLoop (e : Endpoint) (f : ConnFunctor) : Endpoint :=
  { e with pendingFunctors_ := e.pendingFunctors_ ++ [f] }

/-- `if (writeCompleteCallback_) loop_->queueInLoop(...)`. -/
def queueWriteComplete (e : Endpoint) : Endpoint :=
  if e.writeCompleteCallback_ then e.queueInLoop .writeComplete else e

def call (e : Endpoint) (c : SocketCall) : Endpoint := { e with calls := e.calls ++ [c] }

/-! ## Member functions -/

def shutdownInLoop (e : Endpoint) : Endpoint :=
  if e.channel_.isWriting then e
  else e.call (.shutdownWrite e.state_ e.outputBuffer_.toString)

/-- A message that meets a busy connection falls through: the whole body
    stands under the test for an idle one. -/
def sendInLoop (e : Endpoint) (message : Bytes) (w : WriteResult) : Endpoint :=
  if !e.channel_.isWriting && e.outputBuffer_.readableBytes == 0 then
    let taken := w.accepted message.length
    let n := taken.getD 0
    let e := e.call (.write (message.take n))
    let e := if taken = some message.length then e.queueWriteComplete else e
    if n < message.length then
      let e := { e with outputBuffer_ := e.outputBuffer_.append (message.drop n) }
      if e.channel_.isWriting then e else e.enableWriting
    else e
  else e

/-- `send(message)`, called in the loop thread or in another one. -/
def send (e : Endpoint) (inLoopThread : Bool) (message : Bytes) (w : WriteResult) :
    Endpoint :=
  if e.state_ = .kConnected then
    let e := { e with sent := e.sent ++ [message] }
    if inLoopThread then e.sendInLoop message w
    else e.queueInLoop (.sendInLoop message)
  else e

def shutdown (e : Endpoint) (inLoopThread : Bool) : Endpoint :=
  if e.state_ = .kConnected then
    let e := e.setState .kDisconnecting
    if inLoopThread then e.shutdownInLoop
    else e.queueInLoop .shutdownInLoop
  else e

def handleWrite (e : Endpoint) (w : WriteResult) : Endpoint :=
  if e.channel_.isWriting then
    let n := (w.accepted e.outputBuffer_.readableBytes).getD 0
    let e := e.call (.write (e.outputBuffer_.toString.take n))
    if 0 < n then
      let e := { e with outputBuffer_ := e.outputBuffer_.retrieve n }
      if e.outputBuffer_.readableBytes = 0 then
        let e := e.disableWriting.queueWriteComplete
        if e.state_ = .kDisconnecting then e.shutdownInLoop else e
      else e
    else e
  else e

/-- `handleClose`; the body of `closeCallback_` is the server's. -/
def handleClose (e : Endpoint) : Endpoint :=
  let e := (e.setState .kDisconnected).disableAll
  { e with closeCalls := e.closeCalls + 1 }

/-- `handleRead`; what `messageCallback_` does comes as later steps. -/
def handleRead (e : Endpoint) (r : ReadResult) : Endpoint :=
  match r with
  | .data bs => { e with inputBuffer_ := e.inputBuffer_.append bs }
  | .eof => e.handleClose
  | .error => e

def connectionEstablished (e : Endpoint) : Endpoint :=
  ((e.setState .kConnected).enableReading).notify

def connectionDestroyed (e : Endpoint) : Endpoint :=
  if e.state_ = .kConnected then
    ((e.setState .kDisconnected).disableAll).notify.remove
  else e.remove

/-- Run one functor the connection had queued. -/
def runFunctor (e : Endpoint) (f : ConnFunctor) (w : WriteResult) : Endpoint :=
  match f with
  | .sendInLoop message => e.sendInLoop message w
  | .shutdownInLoop => e.shutdownInLoop
  | .writeComplete => e

/-- Let the loop take the first functor of the connection and run it. -/
def doPendingFunctor (e : Endpoint) (w : WriteResult) : Endpoint :=
  match e.pendingFunctors_ with
  | [] => e
  | f :: fs => ({ e with pendingFunctors_ := fs }).runFunctor f w

/-- A connection whose `connectionEstablished` has just run, in a loop
    with any other channels registered. -/
def established (name : String) (loop : LoopId) (self : ChannelPtr) (fd : Int)
    (writeComplete : Bool) (epoll : Epoll) : Endpoint :=
  connectionEstablished
    { TcpConnection.new name loop self fd writeComplete with
      epoll_ := epoll
      pendingFunctors_ := [] }

end Endpoint

/-! ## The connection as a machine -/

/-- The calls and events of one connection.  `inLoopThread` says whether
    a call was made in the loop thread. -/
inductive ConnStep where
  | send (inLoopThread : Bool) (message : Bytes) (w : WriteResult)
  | shutdown (inLoopThread : Bool)
  | handleRead (r : ReadResult)
  | handleWrite (w : WriteResult)
  /-- `EPOLLHUP` without `EPOLLIN`. -/
  | handleClose
  | doPendingFunctor (w : WriteResult)
  | connectionDestroyed
  deriving DecidableEq, Repr

/-- One call or event. -/
def Endpoint.step (e : Endpoint) : ConnStep → Endpoint
  | .send inLoopThread message w => e.send inLoopThread message w
  | .shutdown inLoopThread => e.shutdown inLoopThread
  | .handleRead r => e.handleRead r
  | .handleWrite w => e.handleWrite w
  | .handleClose => e.handleClose
  | .doPendingFunctor w => e.doPendingFunctor w
  | .connectionDestroyed => e.connectionDestroyed

/-- Calls and events come in any order. -/
def connection : Machine Endpoint ConnStep where
  guard _ _ := True
  next := Endpoint.step

namespace Endpoint

/-! ## What a member function does -/

@[simp] theorem written_append (cs ds : List SocketCall) :
    written (cs ++ ds) = written cs ++ written ds := by
  simp [written]

@[simp] theorem written_write (taken : Bytes) : written [.write taken] = taken := by
  simp [written]

@[simp] theorem written_shutdownWrite (s : StateE) (unsent : Bytes) :
    written [.shutdownWrite s unsent] = [] := rfl

/-- No bytes are waiting and no write event is awaited. -/
def Idle (e : Endpoint) : Prop :=
  e.channel_.isWriting = false ∧ e.outputBuffer_.toString = []

instance (e : Endpoint) : Decidable e.Idle := inferInstanceAs (Decidable (_ ∧ _))

/-- `e'` differs from `e` at most in its channel, output buffer and socket
    calls, and in `writeCompleteCallback_` functors queued behind the rest. -/
structure SameLife (e e' : Endpoint) : Prop where
  name_ : e'.name_ = e.name_
  loop_ : e'.loop_ = e.loop_
  state_ : e'.state_ = e.state_
  sent : e'.sent = e.sent
  notified : e'.notified = e.notified
  inputBuffer_ : e'.inputBuffer_ = e.inputBuffer_
  closeCalls : e'.closeCalls = e.closeCalls
  removeAsserts : e'.removeAsserts = e.removeAsserts
  touches : Channel.Touches e.epoll_ e.channel_ e'.epoll_ e'.channel_
  queued : ∃ extra, (∀ f ∈ extra, f = .writeComplete) ∧
    e'.pendingFunctors_ = e.pendingFunctors_ ++ extra

namespace SameLife

theorem refl (e : Endpoint) : SameLife e e :=
  ⟨rfl, rfl, rfl, rfl, rfl, rfl, rfl, rfl, .refl _ _, [], by simp, by simp⟩

theorem trans {e e' e'' : Endpoint} (h : SameLife e e') (h' : SameLife e' e'') :
    SameLife e e'' := by
  obtain ⟨xs, hxs, hqx⟩ := h.queued
  obtain ⟨ys, hys, hqy⟩ := h'.queued
  refine ⟨h'.name_.trans h.name_, h'.loop_.trans h.loop_, h'.state_.trans h.state_,
    h'.sent.trans h.sent, h'.notified.trans h.notified, h'.inputBuffer_.trans h.inputBuffer_,
    h'.closeCalls.trans h.closeCalls, h'.removeAsserts.trans h.removeAsserts,
    h.touches.trans h'.touches, xs ++ ys, ?_, by rw [hqy, hqx, List.append_assoc]⟩
  intro f hf
  rcases List.mem_append.mp hf with hf | hf
  · exact hxs f hf
  · exact hys f hf

end SameLife

theorem sameLife_call (e : Endpoint) (c : SocketCall) : SameLife e (e.call c) :=
  ⟨rfl, rfl, rfl, rfl, rfl, rfl, rfl, rfl, .refl _ _, [], by simp, by simp [call]⟩

theorem sameLife_setOutput (e : Endpoint) (b : Buffer) :
    SameLife e { e with outputBuffer_ := b } :=
  ⟨rfl, rfl, rfl, rfl, rfl, rfl, rfl, rfl, .refl _ _, [], by simp, by simp⟩

theorem sameLife_queueWriteComplete (e : Endpoint) : SameLife e e.queueWriteComplete := by
  unfold queueWriteComplete
  split
  · exact ⟨rfl, rfl, rfl, rfl, rfl, rfl, rfl, rfl, .refl _ _, [.writeComplete], by simp, rfl⟩
  · exact .refl e

theorem sameLife_enableWriting (e : Endpoint) : SameLife e e.enableWriting :=
  ⟨rfl, rfl, rfl, rfl, rfl, rfl, rfl, rfl, Channel.touches_enableWriting _ _, [], by simp,
    by simp [enableWriting]⟩

theorem sameLife_disableWriting (e : Endpoint) : SameLife e e.disableWriting :=
  ⟨rfl, rfl, rfl, rfl, rfl, rfl, rfl, rfl, Channel.touches_disableWriting _ _, [], by simp,
    by simp [disableWriting]⟩

theorem sameLife_shutdownInLoop (e : Endpoint) : SameLife e e.shutdownInLoop := by
  unfold shutdownInLoop
  split
  · exact .refl e
  · exact sameLife_call e _

theorem sameLife_sendInLoop (e : Endpoint) (message : Bytes) (w : WriteResult) :
    SameLife e (e.sendInLoop message w) := by
  simp only [sendInLoop]
  split_ifs
  · exact ((sameLife_call e _).trans (sameLife_queueWriteComplete _)).trans (sameLife_setOutput _ _)
  · exact ((sameLife_call e _).trans (sameLife_queueWriteComplete _)).trans
      ((sameLife_setOutput _ _).trans (sameLife_enableWriting _))
  · exact (sameLife_call e _).trans (sameLife_setOutput _ _)
  · exact (sameLife_call e _).trans ((sameLife_setOutput _ _).trans (sameLife_enableWriting _))
  · exact (sameLife_call e _).trans (sameLife_queueWriteComplete _)
  · exact sameLife_call e _
  · exact .refl e

theorem sameLife_handleWrite (e : Endpoint) (w : WriteResult) :
    SameLife e (e.handleWrite w) := by
  simp only [handleWrite]
  -- what the drain does before it looks at the state
  have hdrain : ∀ (c : SocketCall) (b : Buffer),
      SameLife e ({ e.call c with outputBuffer_ := b }.disableWriting.queueWriteComplete) := by
    intro c b
    exact ((sameLife_call e c).trans (sameLife_setOutput _ b)).trans
      ((sameLife_disableWriting _).trans (sameLife_queueWriteComplete _))
  split_ifs
  · exact (hdrain _ _).trans (sameLife_shutdownInLoop _)
  · exact hdrain _ _
  · exact (sameLife_call e _).trans (sameLife_setOutput _ _)
  · exact sameLife_call e _
  · exact .refl e

theorem sameLife_runFunctor (e : Endpoint) (f : ConnFunctor) (w : WriteResult) :
    SameLife e (e.runFunctor f w) := by
  cases f with
  | sendInLoop message => exact sameLife_sendInLoop e message w
  | shutdownInLoop => exact sameLife_shutdownInLoop e
  | writeComplete => exact .refl e

/-- What `sendInLoop` does to an idle connection: the kernel takes a
    prefix, the rest is buffered, and a write event is awaited exactly
    when something was buffered. -/
structure Sends (e : Endpoint) (message : Bytes) (n : Nat) (e' : Endpoint) : Prop where
  calls : e'.calls = e.calls ++ [.write (message.take n)]
  output : e'.outputBuffer_.toString = message.drop n
  writing : e'.channel_.isWriting = decide (n < message.length)

/-- A busy connection ignores the message. -/
theorem sendInLoop_busy {e : Endpoint} (h : ¬ e.Idle) (message : Bytes) (w : WriteResult) :
    e.sendInLoop message w = e := by
  unfold sendInLoop
  rw [if_neg]
  simpa [Idle, Buffer.readableBytes_eq_zero] using h

theorem sendInLoop_idle {e : Endpoint} (h : e.Idle) (message : Bytes) (w : WriteResult) :
    ∃ n, e.Sends message n (e.sendInLoop message w) := by
  obtain ⟨hw, ho⟩ := h
  have hidle : (!e.channel_.isWriting && e.outputBuffer_.readableBytes == 0) = true := by
    simp [hw, Buffer.readableBytes_eq_zero, ho]
  refine ⟨(w.accepted message.length).getD 0, ?_⟩
  unfold sendInLoop
  rw [if_pos hidle]
  by_cases hall : w.accepted message.length = some message.length
  · -- everything was taken: only `writeCompleteCallback_` is left to queue
    by_cases hcb : e.writeCompleteCallback_ = true
    · constructor <;>
        simp [hall, hcb, call, queueWriteComplete, queueInLoop, hw, ho]
    · constructor <;>
        simp [hall, hcb, call, queueWriteComplete, hw, ho]
  · by_cases hlt : (w.accepted message.length).getD 0 < message.length
    · constructor <;>
        simp [hall, hlt, call, enableWriting, hw, ho]
    · -- an empty message whose write failed
      have hdrop := List.drop_eq_nil_of_le (Nat.le_of_not_lt hlt)
      constructor <;>
        simp [hall, hlt, call, hw, ho, hdrop]

/-- The write result takes all that is buffered. -/
def TakesAll (e : Endpoint) (w : WriteResult) : Prop :=
  w.accepted e.outputBuffer_.readableBytes = some e.outputBuffer_.readableBytes

instance (e : Endpoint) (w : WriteResult) : Decidable (e.TakesAll w) :=
  inferInstanceAs (Decidable (_ = _))

theorem handleWrite_notWriting {e : Endpoint} (h : e.channel_.isWriting = false)
    (w : WriteResult) : e.handleWrite w = e := by
  simp [handleWrite, h]

/-- A write event that leaves bytes behind: the event stays awaited. -/
theorem handleWrite_partial {e : Endpoint} (hw : e.channel_.isWriting = true)
    (ho : e.outputBuffer_.toString ≠ []) {w : WriteResult} (h : ¬ e.TakesAll w) :
    ∃ n, n < e.outputBuffer_.toString.length ∧
      (e.handleWrite w).calls = e.calls ++ [.write (e.outputBuffer_.toString.take n)] ∧
      (e.handleWrite w).outputBuffer_.toString = e.outputBuffer_.toString.drop n ∧
      (e.handleWrite w).channel_.isWriting = true ∧
      (e.handleWrite w).pendingFunctors_ = e.pendingFunctors_ := by
  have hpos : 0 < e.outputBuffer_.readableBytes := by
    rw [← Buffer.length_toString]; exact List.length_pos_of_ne_nil ho
  have hlt : (w.accepted e.outputBuffer_.readableBytes).getD 0 <
      e.outputBuffer_.readableBytes := by
    cases w with
    | wrote n =>
      simp only [TakesAll, WriteResult.accepted, Option.some.injEq] at h
      simp only [WriteResult.accepted, Option.getD_some]
      omega
    | failed b => simpa [WriteResult.accepted] using hpos
  refine ⟨(w.accepted e.outputBuffer_.readableBytes).getD 0, by simpa using hlt, ?_⟩
  by_cases hn : 0 < (w.accepted e.outputBuffer_.readableBytes).getD 0
  · have hmore : (e.outputBuffer_.retrieve
        ((w.accepted e.outputBuffer_.readableBytes).getD 0)).readableBytes ≠ 0 := by
      rw [← Buffer.length_toString, Buffer.toString_retrieve, List.length_drop]
      rw [Buffer.length_toString]
      omega
    simp [handleWrite, hw, hn, hmore, call]
  · -- nothing was taken, or the write failed
    simp [handleWrite, hw, call, Nat.eq_zero_of_not_pos hn]

/-- A write event that drains the buffer ends the waiting, and carries out
    a shutdown that was waiting for it. -/
theorem handleWrite_drained {e : Endpoint} (hw : e.channel_.isWriting = true)
    (ho : e.outputBuffer_.toString ≠ []) {w : WriteResult} (h : e.TakesAll w) :
    (e.handleWrite w).calls = e.calls ++ .write e.outputBuffer_.toString ::
        (if e.state_ = .kDisconnecting then [.shutdownWrite .kDisconnecting []] else []) ∧
      (e.handleWrite w).outputBuffer_.toString = [] ∧
      (e.handleWrite w).channel_.isWriting = false := by
  have hpos : 0 < e.outputBuffer_.readableBytes := by
    rw [← Buffer.length_toString]; exact List.length_pos_of_ne_nil ho
  have hall : (w.accepted e.outputBuffer_.readableBytes).getD 0 =
      e.outputBuffer_.readableBytes := by rw [h]; rfl
  have hnone : (e.outputBuffer_.retrieve e.outputBuffer_.readableBytes).readableBytes = 0 := by
    rw [Buffer.readableBytes_eq_zero, Buffer.toString_retrieve, List.drop_eq_nil_iff]
    simp
  have htake : e.outputBuffer_.toString.take e.outputBuffer_.readableBytes =
      e.outputBuffer_.toString := by rw [← Buffer.length_toString, List.take_length]
  have hdrop : e.outputBuffer_.toString.drop e.outputBuffer_.readableBytes = [] := by
    simp
  by_cases hs : e.state_ = .kDisconnecting <;> by_cases hcb : e.writeCompleteCallback_ = true <;>
    simp [handleWrite, hw, hall, hpos, hnone, htake, hdrop, hs, hcb, call, disableWriting,
      queueWriteComplete, queueInLoop, shutdownInLoop]

/-- The end of a connection queues nothing. -/
theorem pendingFunctors_connectionDestroyed (e : Endpoint) :
    e.connectionDestroyed.pendingFunctors_ = e.pendingFunctors_ := by
  unfold connectionDestroyed
  split
  · rfl
  · rfl

end Endpoint

end TinyWS
