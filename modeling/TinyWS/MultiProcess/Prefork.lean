import TinyWS.Framework.Machine
import TinyWS.Framework.Descriptors
import TinyWS.MultiProcess.SocketPair
import Mathlib

/-! # The Server of multiProcess1

    The parent forks its workers, each with a pipe of its own, and then
    accepts for all of them: it sends every socket to the worker that is
    next and closes its own copy.  A worker receives descriptors from its
    pipe and serves the connections.

    The descriptors of all processes are kept, since a socket is closed
    only when nobody has it any more, and a pipe ends only when nobody can
    write to it.  A fork copies the table of the parent, the ends of the
    pipes of the earlier workers with it.

    Everything that two processes have in common is a step of its own: the
    messages, the signals, the exits.  What a process does in between is
    one step. -/

namespace TinyWS

open Std

namespace Prefork

/-! ## Signals -/

inductive Signo where
  | SIGINT
  | SIGTERM
  | SIGQUIT
  | SIGPIPE
  | SIGCHLD
  | SIGUSR1
  | SIGUSR2
  | SIGHUP
  deriving DecidableEq, Repr

/-- `status.h`. -/
structure Status where
  status_quit_softly : Bool
  status_terminate : Bool
  status_restart : Bool
  status_reconfigure : Bool
  status_child_quit : Bool
  deriving DecidableEq, Repr

namespace Status

def new : Status := ⟨false, false, false, false, false⟩

/-- `ProcessPool::parentSignalHandler`. -/
def parentSignalHandler (status : Status) : Signo → Status
  | .SIGINT | .SIGTERM => { status with status_terminate := true }
  | .SIGQUIT => { status with status_quit_softly := true }
  | .SIGPIPE => status
  | .SIGCHLD => { status with status_child_quit := true }
  | .SIGUSR1 => { status with status_restart := true }
  | .SIGUSR2 => { status with status_reconfigure := true }
  | .SIGHUP => status

/-- `Process::childSignalHandler`. -/
def childSignalHandler (status : Status) : Signo → Status
  | .SIGINT | .SIGTERM => { status with status_terminate := true }
  | .SIGQUIT => { status with status_quit_softly := true }
  | .SIGPIPE => status
  | .SIGUSR1 => { status with status_restart := true }
  | .SIGUSR2 => { status with status_reconfigure := true }
  | .SIGCHLD | .SIGHUP => status

/-- The test in `EventLoop::loop`, behind the poll. -/
def leavesLoop (status : Status) : Bool :=
  status.status_quit_softly || status.status_terminate || status.status_child_quit

/-- The test in `Process::start`, behind `loop()`. -/
def endsProcess (status : Status) : Bool :=
  status.status_terminate || status.status_quit_softly || status.status_restart ||
    status.status_reconfigure

end Status

/-! ## Processes -/

/-- What a descriptor refers to.  `none` is the parent, and the sockets of
    the clients are numbered as they were accepted. -/
inductive File where
  | inherited (n : Nat)
  | epoll (process : Option Nat)
  | timer (process : Option Nat)
  | listening
  | parentEnd (worker : Nat)
  | childEnd (worker : Nat)
  | connection (k : Nat)
  deriving DecidableEq, Repr

abbrev Table : Type := DescriptorTable File

/-- A `TcpConnection` of a worker, with the descriptor in its `Socket`. -/
structure Connection where
  name_ : String
  socket_ : Nat
  deriving DecidableEq, Repr

inductive Phase where
  /-- In `createChildProcess`, behind the fork. -/
  | forked
  /-- In `EventLoop::loop`, in front of the test behind the poll. -/
  | polling
  | handling
  | exited
  deriving DecidableEq, Repr

/-- A worker, with what the kernel keeps for it. -/
structure Worker where
  pid : Nat
  /-- The two ends of its pipe. -/
  fds : Nat × Nat
  table : Table
  phase : Phase
  status : Status
  nextConnectionId_ : Nat
  connectionMap_ : ExtTreeMap String Nat compare
  /-- The objects that exist. -/
  connections : List Connection
  /-- The messages in its pipe. -/
  inbox : List Nat
  /-- The signals on their way. -/
  pending : List Signo
  /-- History: the clients whose sockets it received, -/
  adopted : List Nat
  /-- those whose sockets it closed, -/
  closed : List Nat
  /-- and the `n` of each `removeConnection`. -/
  erased : List Nat

inductive ParentPhase where
  /-- In `createChildAndSetParent`. -/
  | creating
  | polling
  | handling
  /-- Behind `killAll`, or by the `exit(1)` in `sendFd`. -/
  | exited (killedAll : Bool)
  deriving DecidableEq, Repr

def ParentPhase.alive : ParentPhase → Bool
  | .exited _ => false
  | .creating | .polling | .handling => true

structure Parent where
  table : Table
  phase : ParentPhase
  status : Status
  epollfd : Nat
  timerfd : Nat
  listenfd : Nat
  processNum_ : Nat
  pids_ : List Nat
  /-- The parent's end of each pipe. -/
  pipes_ : List Nat
  next_ : Nat
  nextConnectionId_ : Nat

end Prefork

/-- The parent and its workers. -/
structure Prefork where
  name_ : String
  parent : Prefork.Parent
  workers : List Prefork.Worker
  /-- The number of sockets the parent has sent. -/
  sent : Nat
  /-- History: a worker took garbage for a descriptor. -/
  misled : Bool

namespace Prefork

/-! ## The parent -/

/-- The descriptors the program is started with: the standard input, and
    any others. -/
def inherited (others : List (Option Nat)) : Table :=
  ⟨some (.inherited 0) :: others.map (Option.map .inherited)⟩

/-- The constructor of the server, and `start()` up to the first fork. -/
def started (name : String) (processNum : Nat) (others : List (Option Nat)) : Prefork :=
  let table := inherited others
  let epollfd := table.lowest
  let table := table.openFile (.epoll none)
  let timerfd := table.lowest
  let table := table.openFile (.timer none)
  let listenfd := table.lowest
  let table := table.openFile .listening
  { name_ := name
    parent :=
      { table := table
        phase := if processNum = 0 then .polling else .creating
        status := .new
        epollfd := epollfd
        timerfd := timerfd
        listenfd := listenfd
        processNum_ := processNum
        pids_ := []
        pipes_ := []
        next_ := 0
        nextConnectionId_ := 1 }
    workers := []
    sent := 0
    misled := false }

/-- Of a pair of sockets, and the fork: the worker has a copy of
    everything. -/
def fork (s : Prefork) (pid : Nat) : Worker :=
  let i := s.workers.length
  let table := s.parent.table.openFile (.parentEnd i)
  { pid := pid
    fds := (s.parent.table.lowest, table.lowest)
    table := table.openFile (.childEnd i)
    phase := .forked
    status := s.parent.status
    nextConnectionId_ := s.parent.nextConnectionId_
    connectionMap_ := ∅
    connections := []
    inbox := []
    pending := []
    adopted := []
    closed := []
    erased := [] }

/-- One turn of the loop in `createChildAndSetParent`. -/
def createChild (s : Prefork) (pid : Nat) : Prefork :=
  let child := s.fork pid
  { s with
    workers := s.workers ++ [child]
    parent :=
      { s.parent with
        -- `addChildInfoToParent`: `setParentSocket` closes the other end
        table := child.table.close child.fds.2
        pids_ := s.parent.pids_ ++ [pid]
        pipes_ := s.parent.pipes_ ++ [child.fds.1]
        phase := if s.workers.length + 1 = s.parent.processNum_ then .polling else .creating } }

/-- The parent is gone, and its descriptors with it. -/
def exitParent (s : Prefork) (killedAll : Bool) : Prefork :=
  { s with parent := { s.parent with table := .empty, phase := .exited killedAll } }

def updateWorker (s : Prefork) (i : Nat) (f : Worker → Worker) : Prefork :=
  { s with workers := s.workers.modify i f }

/-- `sendmsg` in `sendFd`, when it does not fail: the message has a
    reference to the file. -/
def sendFd (s : Prefork) (pipefd sockfd : Nat) : Prefork :=
  match s.parent.table.file pipefd, s.parent.table.file sockfd with
  | some (.parentEnd i), some (.connection k) =>
      s.updateWorker i fun w => { w with inbox := w.inbox ++ [k] }
  | _, _ => s

/-- `ProcessPool::sendToChild(socket)`. -/
def sendToChild (s : Prefork) (sockfd : Nat) : Prefork :=
  let s := s.sendFd (s.parent.pipes_.getD s.parent.next_ 0) sockfd
  { s with parent := { s.parent with next_ := (s.parent.next_ + 1) % s.parent.processNum_ } }

/-- One turn of the loop in `Acceptor::handleRead`, with
    `newConnectionInParent`, when `accept` gives a socket.  The `Socket`
    dies with the turn. -/
def accept (s : Prefork) (sent : Bool) : Prefork :=
  let sockfd := s.parent.table.lowest
  let s := { s with
    parent := { s.parent with
      table := s.parent.table.openFile (.connection s.sent)
      nextConnectionId_ := s.parent.nextConnectionId_ + 1 } }
  if sent then
    let s := s.sendToChild sockfd
    { s with
      sent := s.sent + 1
      parent := { s.parent with table := s.parent.table.close sockfd } }
  else s.exitParent false

/-- `ProcessPool::killAll`. -/
def killAll (s : Prefork) : Prefork :=
  { s with
    workers := s.workers.map fun w =>
      if w.pid ∈ s.parent.pids_ ∧ w.phase ≠ .exited then
        { w with pending := w.pending ++ [.SIGINT] }
      else w
    parent := { s.parent with pids_ := [], pipes_ := [] } }

/-- `poll` returns in the parent, and the status is tested; out of `loop()`
    there is only the way through `killAll`. -/
def parentPoll (s : Prefork) : Prefork :=
  if s.parent.status.leavesLoop then s.killAll.exitParent true
  else { s with parent := { s.parent with phase := .handling } }

/-! ## The workers -/

namespace Worker

def exit (w : Worker) : Worker :=
  { w with
    phase := .exited
    table := .empty
    connectionMap_ := ∅
    connections := []
    inbox := []
    pending := [] }

/-- The child branch of `createChildProcess`, of the worker `i`:
    `clearInSubProcess` and `delete loop_`, the loop of `Process`, and
    `setChildSocket`. -/
def childBranch (w : Worker) (i listenfd timerfd epollfd : Nat) : Worker :=
  let table := ((w.table.close listenfd).close timerfd).close epollfd
  let table := (table.openFile (.epoll (some i))).openFile (.timer (some i))
  { w with table := table.close w.fds.1, phase := .polling }

/-- `poll` returns, and the status is tested.  `Process::start` goes back
    into `loop()` if only `status_child_quit` is set. -/
def poll (w : Worker) : Worker :=
  if w.status.leavesLoop then if w.status.endsProcess then w.exit else w
  else { w with phase := .handling }

def connectionName (w : Worker) (name : String) (id : Nat) : String :=
  name ++ " subprocess" ++ toString w.pid ++ "_connection_" ++ toString id

/-- `TcpServer::newConnectionInChild`. -/
def newConnectionInChild (w : Worker) (name : String) (sockfd : Nat) : Worker :=
  let connectionName := w.connectionName name w.nextConnectionId_
  { w with
    nextConnectionId_ := w.nextConnectionId_ + 1
    connectionMap_ := w.connectionMap_.insert connectionName sockfd
    connections := ⟨connectionName, sockfd⟩ :: w.connections }

/-- The callbacks of the pipe that `setAsChild` has set. -/
def pipe : Process.SocketPair := (Process.Child.createChildProcess false).pipe_

/-- The calls of the pipe. -/
def call (name : String) (w : Worker) : Process.PipeCall → Worker
  | .receiveFdCallback sockfd => w.newConnectionInChild name sockfd.toNat
  | .closeCallback => w

/-- `recvmsg` installs the descriptor of the next message, if there is
    one. -/
def recvmsg (w : Worker) : Worker × Process.Recvmsg :=
  match w.inbox with
  | [] => (w, .endOfStream)
  | k :: inbox =>
      ({ w with
        table := w.table.openFile (.connection k)
        inbox := inbox
        adopted := w.adopted ++ [k] }, .descriptor w.table.lowest)

/-- `SocketPair::handleRead`, with the `int` in the memory of `receiveFd`. -/
def receive (w : Worker) (name : String) (data : Int) : Worker :=
  let received := w.recvmsg
  (pipe.handleRead ⟨data, received.2⟩).foldl (call name) received.1

/-- `removeConnection`, and the end of the connection. -/
def handleClose (w : Worker) (c : Connection) : Worker :=
  { w with
    connectionMap_ := w.connectionMap_.erase c.name_
    erased := w.erased ++ [if w.connectionMap_.contains c.name_ then 1 else 0]
    connections := w.connections.erase c
    table := w.table.close c.socket_
    closed := w.closed ++
      match w.table.file c.socket_ with
      | some (.connection k) => [k]
      | _ => [] }

/-- The handler that a signal finds in the worker `i`.  The first worker is
    forked before the parent has installed any, the others have those of
    the parent until they install their own, and none for `SIGCHLD`. -/
def handleSignal (w : Worker) (i : Nat) (signo : Signo) : Worker :=
  if i = 0 then
    if signo = .SIGCHLD then w
    else if w.phase = .forked then w.exit
    else { w with status := w.status.childSignalHandler signo }
  else if w.phase = .forked ∨ signo = .SIGCHLD then
    { w with status := w.status.parentSignalHandler signo }
  else { w with status := w.status.childSignalHandler signo }

/-- A signal arrives. -/
def deliver (w : Worker) (i : Nat) (signo : Signo) : Worker :=
  { w with pending := w.pending.erase signo }.handleSignal i signo

end Worker

/-! ## The machine -/

inductive Step where
  | createChild (pid : Nat)
  | parentPoll
  /-- Whether `sendmsg` succeeds. -/
  | accept (sent : Bool)
  | parentHandled
  | parentSignal (signo : Signo)
  | childBranch (i : Nat)
  | poll (i : Nat)
  | receive (i : Nat) (data : Int)
  | handleClose (i : Nat) (c : Connection)
  | handled (i : Nat)
  /-- Somebody sends a signal to a worker. -/
  | kill (i : Nat) (signo : Signo)
  | deliver (i : Nat) (signo : Signo)
  /-- A worker crashes. -/
  | die (i : Nat)
  deriving DecidableEq, Repr

/-- The descriptors through which somebody can write to a worker. -/
def writers (s : Prefork) (i : Nat) : Nat :=
  s.parent.table.count (.parentEnd i) +
    (s.workers.map fun w => w.table.count (.parentEnd i)).sum

/-- A worker is there, and meets a condition. -/
def Has (s : Prefork) (i : Nat) (P : Worker → Prop) : Prop := ∃ w ∈ s.workers[i]?, P w

instance (s : Prefork) (i : Nat) (P : Worker → Prop) [DecidablePred P] : Decidable (s.Has i P) :=
  inferInstanceAs (Decidable (∃ w ∈ s.workers[i]?, P w))

/-- The pipe of a worker is at its end. -/
def AtEnd (s : Prefork) (i : Nat) (w : Worker) : Prop := w.inbox = [] ∧ s.writers i = 0

instance (s : Prefork) (i : Nat) (w : Worker) : Decidable (s.AtEnd i w) :=
  inferInstanceAs (Decidable (_ ∧ _))

def guard (s : Prefork) : Step → Prop
  -- a new pid
  | .createChild pid => s.parent.phase = .creating ∧ ∀ w ∈ s.workers, w.pid ≠ pid
  | .parentPoll => s.parent.phase = .polling
  -- nobody is there to read from a worker that has exited
  | .accept sent =>
      s.parent.phase = .handling ∧ s.parent.pipes_ ≠ [] ∧
        (sent = true → s.Has s.parent.next_ fun w => w.phase ≠ .exited)
  | .parentHandled => s.parent.phase = .handling
  -- the handlers are installed behind the first fork
  | .parentSignal _ => s.parent.pids_ ≠ [] ∧ s.parent.phase.alive = true
  | .childBranch i => s.Has i fun w => w.phase = .forked
  | .poll i => s.Has i fun w => w.phase = .polling
  -- the id is an `int`
  | .receive i _ =>
      s.Has i fun w => w.phase = .handling ∧ w.nextConnectionId_ < 2 ^ 31 ∧
        (w.inbox ≠ [] ∨ s.AtEnd i w)
  | .handleClose i c => s.Has i fun w => w.phase = .handling ∧ c ∈ w.connections
  | .handled i => s.Has i fun w => w.phase = .handling
  | .kill i _ => s.Has i fun w => w.phase ≠ .exited
  | .deliver i signo => s.Has i fun w => w.phase ≠ .exited ∧ signo ∈ w.pending
  | .die i => s.Has i fun w => w.phase ≠ .exited

instance (s : Prefork) : DecidablePred s.guard
  | .createChild _ => inferInstanceAs (Decidable (_ ∧ _))
  | .parentPoll => inferInstanceAs (Decidable (_ = _))
  | .accept _ => inferInstanceAs (Decidable (_ ∧ _ ∧ _))
  | .parentHandled => inferInstanceAs (Decidable (_ = _))
  | .parentSignal _ => inferInstanceAs (Decidable (_ ∧ _))
  | .childBranch i => inferInstanceAs (Decidable (s.Has i fun w => w.phase = .forked))
  | .poll i => inferInstanceAs (Decidable (s.Has i fun w => w.phase = .polling))
  | .receive i _ =>
      inferInstanceAs (Decidable (s.Has i fun w => w.phase = .handling ∧
        w.nextConnectionId_ < 2 ^ 31 ∧ (w.inbox ≠ [] ∨ s.AtEnd i w)))
  | .handleClose i c =>
      inferInstanceAs (Decidable (s.Has i fun w => w.phase = .handling ∧ c ∈ w.connections))
  | .handled i => inferInstanceAs (Decidable (s.Has i fun w => w.phase = .handling))
  | .kill i _ | .die i => inferInstanceAs (Decidable (s.Has i fun w => w.phase ≠ .exited))
  | .deliver i signo =>
      inferInstanceAs (Decidable (s.Has i fun w => w.phase ≠ .exited ∧ signo ∈ w.pending))

/-- The worker takes garbage for a descriptor. -/
def Misleads (s : Prefork) (i : Nat) (data : Int) : Prop :=
  0 < data ∧ s.Has i fun w => w.inbox = []

instance (s : Prefork) (i : Nat) (data : Int) : Decidable (s.Misleads i data) :=
  inferInstanceAs (Decidable (_ ∧ _))

def next (s : Prefork) : Step → Prefork
  | .createChild pid => s.createChild pid
  | .parentPoll => s.parentPoll
  | .accept sent => s.accept sent
  | .parentHandled => { s with parent := { s.parent with phase := .polling } }
  | .parentSignal signo =>
      { s with parent := { s.parent with status := s.parent.status.parentSignalHandler signo } }
  | .childBranch i =>
      s.updateWorker i fun w =>
        w.childBranch i s.parent.listenfd s.parent.timerfd s.parent.epollfd
  | .poll i => s.updateWorker i Worker.poll
  | .receive i data =>
      { s.updateWorker i fun w => w.receive s.name_ data with
        misled := s.misled || decide (s.Misleads i data) }
  | .handleClose i c => s.updateWorker i fun w => w.handleClose c
  | .handled i => s.updateWorker i fun w => { w with phase := .polling }
  | .kill i signo => s.updateWorker i fun w => { w with pending := w.pending ++ [signo] }
  | .deliver i signo => s.updateWorker i fun w => w.deliver i signo
  | .die i => s.updateWorker i Worker.exit

end Prefork

/-- Any interleaving of the processes, with any clients, signals and
    crashes. -/
def prefork : Machine Prefork Prefork.Step where
  guard := Prefork.guard
  next := Prefork.next

instance (s : Prefork) (l : Prefork.Step) : Decidable (prefork.guard s l) :=
  inferInstanceAs (Decidable (s.guard l))

end TinyWS
