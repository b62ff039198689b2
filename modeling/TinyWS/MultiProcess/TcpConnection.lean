import TinyWS.MultiProcess.Channel
import TinyWS.Net.TcpConnection

/-! # TcpConnection of the Multi-process Libraries

    The two copies differ from each other only in what they log.  A
    process has one thread, so `send` writes at once and
    `writeCompleteCallback_` is called on the spot.

    What a system call returned is an argument, as in the multi-threaded
    model. -/

namespace TinyWS

namespace Process

/-- `class TcpConnection`, with the epoll of its loop.  The last three
    fields are histories: no code reads them. -/
structure TcpConnection where
  state_ : StateE
  channel_ : Channel
  outputBuffer_ : Buffer
  /-- Whether `writeCompleteCallback_` is set. -/
  writeCompleteCallback_ : Bool
  epoll_ : Epoll
  /-- The messages `send` was given while connected. -/
  sent : List Bytes
  calls : List SocketCall
  /-- How often `writeCompleteCallback_` was called. -/
  completed : Nat

namespace TcpConnection

/-- The constructor. -/
def new (self : ChannelPtr) (fd : Int) (writeComplete : Bool) (epoll : Epoll) :
    TcpConnection where
  state_ := .kConnecting
  channel_ := Channel.new self fd
  outputBuffer_ := Buffer.new
  writeCompleteCallback_ := writeComplete
  epoll_ := epoll
  sent := []
  calls := []
  completed := 0

/-! ## Channel and callbacks -/

def setState (c : TcpConnection) (s : StateE) : TcpConnection := { c with state_ := s }

def enableReading (v : Version) (c : TcpConnection) : TcpConnection :=
  { c with
    channel_ := (Process.enableReading v c.channel_ c.epoll_).2
    epoll_ := (Process.enableReading v c.channel_ c.epoll_).1 }

def disableWriting (v : Version) (c : TcpConnection) : TcpConnection :=
  { c with
    channel_ := (Process.disableWriting v c.channel_ c.epoll_).2
    epoll_ := (Process.disableWriting v c.channel_ c.epoll_).1 }

def disableAll (v : Version) (c : TcpConnection) : TcpConnection :=
  { c with
    channel_ := (Process.disableAll v c.channel_ c.epoll_).2
    epoll_ := (Process.disableAll v c.channel_ c.epoll_).1 }

def remove (c : TcpConnection) : TcpConnection :=
  { c with
    channel_ := (Process.remove c.channel_ c.epoll_).2
    epoll_ := (Process.remove c.channel_ c.epoll_).1 }

def call (c : TcpConnection) (call : SocketCall) : TcpConnection :=
  { c with calls := c.calls ++ [call] }

/-- `if (writeCompleteCallback_) writeCompleteCallback_(...)`. -/
def writeComplete (c : TcpConnection) : TcpConnection :=
  if c.writeCompleteCallback_ then { c with completed := c.completed + 1 } else c

/-! ## Member functions -/

def shutdownInSocket (c : TcpConnection) : TcpConnection :=
  if c.channel_.isWriting then c
  else c.call (.shutdownWrite c.state_ c.outputBuffer_.toString)

/-- A rest is buffered, and then it is *reading* that is enabled. -/
def send (v : Version) (c : TcpConnection) (message : Bytes) (w : WriteResult) : TcpConnection :=
  if c.state_ = .kConnected then
    let c := { c with sent := c.sent ++ [message] }
    if !c.channel_.isWriting && c.outputBuffer_.readableBytes == 0 then
      let taken := w.accepted message.length
      let n := taken.getD 0
      let c := c.call (.write (message.take n))
      let c := if taken = some message.length then c.writeComplete else c
      if n < message.length then
        let c := { c with outputBuffer_ := c.outputBuffer_.append (message.drop n) }
        if c.channel_.isWriting then c else c.enableReading v
      else c
    else c
  else c

/-- What was written is not retrieved from `outputBuffer_`. -/
def handleWrite (v : Version) (c : TcpConnection) (w : WriteResult) : TcpConnection :=
  if c.channel_.isWriting then
    let n := (w.accepted c.outputBuffer_.readableBytes).getD 0
    let c := c.call (.write (c.outputBuffer_.toString.take n))
    if 0 < n then
      if c.outputBuffer_.readableBytes = 0 then
        let c := (c.disableWriting v).writeComplete
        if c.state_ = .kDisconnecting then c.shutdownInSocket else c
      else c
    else c
  else c

def shutdown (c : TcpConnection) : TcpConnection :=
  if c.state_ = .kConnected then (c.setState .kDisconnecting).shutdownInSocket else c

/-- `handleClose`, up to `closeCallback_`. -/
def handleClose (v : Version) (c : TcpConnection) : TcpConnection :=
  (c.setState .kDisconnected).disableAll v

/-- `connectionEstablished`, up to the user's callback. -/
def connectionEstablished (v : Version) (c : TcpConnection) : TcpConnection :=
  (c.setState .kConnected).enableReading v

/-- `connectionDestroyed`, up to `Channel::remove`.  The user's callback is
    called where the state changes. -/
def disconnect (v : Version) (c : TcpConnection) : TcpConnection :=
  if c.state_ = .kConnected then (c.setState .kDisconnected).disableAll v else c

def connectionDestroyed (v : Version) (c : TcpConnection) : TcpConnection :=
  (c.disconnect v).remove

/-- A new connection whose `connectionEstablished` has just run. -/
def established (v : Version) (self : ChannelPtr) (fd : Int) (writeComplete : Bool)
    (epoll : Epoll) : TcpConnection :=
  (new self fd writeComplete epoll).connectionEstablished v

end TcpConnection

end Process

end TinyWS
