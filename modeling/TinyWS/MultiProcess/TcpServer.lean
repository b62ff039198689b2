import TinyWS.MultiProcess.Channel
import TinyWS.MultiProcess.ProcessPool

/-! # TcpServer of multiProcess2

    Every process runs `TcpServer::start` over a memory of its own.  The
    processes share the listen socket and a `ProcessMutexLock`: whoever
    holds it watches the socket in its epoll.  The lock is tried before
    each poll and released after an accept, by two hooks of the loop.

    A process goes through one iteration of `EventLoop::loop` in four
    steps, and two more when it accepts; the steps of all processes
    interleave.  Signals are delivered in between. -/

namespace TinyWS

open Std

namespace Process

variable {Pid : Type}

/-! ## The shared lock -/

/-- `ProcessMutexLock`: a default mutex in shared memory. -/
structure ProcessMutexLock (Pid : Type) where
  owner : Option Pid

namespace ProcessMutexLock

/-- `trylock` in the process `p`: it fails when anyone holds the mutex,
    the caller included. -/
def trylock (m : ProcessMutexLock Pid) (p : Pid) : Bool × ProcessMutexLock Pid :=
  match m.owner with
  | none => (true, ⟨some p⟩)
  | some _ => (false, m)

def unlock (_ : ProcessMutexLock Pid) : ProcessMutexLock Pid := ⟨none⟩

end ProcessMutexLock

/-! ## One process -/

/-- The functions a loop can be given. -/
inductive Hook where
  | lockAcceptor
  | unlockAcceptor
  deriving DecidableEq, Repr

/-- `class EventLoop`, with its `Epoll`. -/
structure EventLoop where
  running_ : Bool
  epoll_ : Epoll
  listenSockfd_ : Int
  beforeEachLoopFunction_ : Option Hook
  afterEachAcceptFunction_ : Option Hook

/-- The constructor. -/
def EventLoop.new : EventLoop where
  running_ := false
  epoll_ := Epoll.new
  listenSockfd_ := -1
  beforeEachLoopFunction_ := none
  afterEachAcceptFunction_ := none

/-- `class Acceptor`. -/
structure Acceptor where
  acceptChannel_ : Channel
  isListening_ : Bool

namespace Acceptor

/-- The constructor, over the socket created before the fork. -/
def new (sockfd : Int) : Acceptor where
  acceptChannel_ := Channel.new 0 sockfd
  isListening_ := false

def listen (a : Acceptor) : Acceptor := { a with isListening_ := true }

def getSockfd (a : Acceptor) : Int := a.acceptChannel_.fd_

def resetLoop (a : Acceptor) : Acceptor :=
  { a with acceptChannel_ := Process.resetLoop a.acceptChannel_ }.listen

end Acceptor

/-- Where a process is. -/
inductive Point where
  /-- At `while (running_)` of `EventLoop::loop`. -/
  | loopHead
  /-- About to poll. -/
  | poll
  /-- The channel of `listenSockfd_` is active. -/
  | accept
  /-- It was handled. -/
  | accepted
  /-- Past the listen event, if there was one. -/
  | check
  /-- About to handle the other channels. -/
  | handle
  /-- In `TcpServer::start`, where `loop()` has returned. -/
  | afterLoop
  /-- `TcpServer::start` has returned. -/
  | left
  /-- Killed, or exited. -/
  | dead
  deriving DecidableEq, Repr

/-- `class TcpServer` in one process, with the process's status flags.
    The last three fields are histories: no code reads them. -/
structure TcpServer (Pid : Type) where
  isLock_ : Bool
  processPool_ : ProcessPool Pid
  loop_ : EventLoop
  acceptor_ : Acceptor
  /-- The local variable of `start`. -/
  running : Bool
  status_terminate : Bool
  status_quit_softly : Bool
  status_child_quit : Bool
  /-- Whether the listen channel is still in `activeChannels_`. -/
  listenActive : Bool
  point : Point
  /-- Made by `createNewChildProcess`. -/
  created : Bool
  /-- The calls of `Acceptor::handleRead`. -/
  accepted : Nat
  /-- The iterations begun without the lock and without trying for it. -/
  missed : Nat

namespace TcpServer

/-- The constructor and the beginning of `start`, up to the first call of
    `loop()`. -/
def started (sockfd : Int) (pool : ProcessPool Pid) : TcpServer Pid where
  isLock_ := false
  processPool_ := pool
  loop_ :=
    { EventLoop.new with
      running_ := true
      listenSockfd_ := (Acceptor.new sockfd).getSockfd
      beforeEachLoopFunction_ := some .lockAcceptor
      afterEachAcceptFunction_ := some .unlockAcceptor }
  acceptor_ := (Acceptor.new sockfd).listen
  running := true
  status_terminate := false
  status_quit_softly := false
  status_child_quit := false
  listenActive := false
  point := .loopHead
  created := false
  accepted := 0
  missed := 0

/-! ### The hooks -/

def listenInEpoll (t : TcpServer Pid) : TcpServer Pid :=
  { t with
    acceptor_ :=
      { t.acceptor_ with
        acceptChannel_ := (enableReading .process2 t.acceptor_.acceptChannel_ t.loop_.epoll_).2 }
    loop_ :=
      { t.loop_ with
        epoll_ := (enableReading .process2 t.acceptor_.acceptChannel_ t.loop_.epoll_).1 } }

def unlistenInEpoll (t : TcpServer Pid) : TcpServer Pid :=
  { t with
    acceptor_ :=
      { t.acceptor_ with
        acceptChannel_ := (disableReading t.acceptor_.acceptChannel_ t.loop_.epoll_).2 }
    loop_ :=
      { t.loop_ with
        epoll_ := (disableReading t.acceptor_.acceptChannel_ t.loop_.epoll_).1 } }

def lockAcceptor (p : Pid) (m : ProcessMutexLock Pid) (t : TcpServer Pid) :
    ProcessMutexLock Pid × TcpServer Pid :=
  let locked := m.trylock p
  if locked.1 then (locked.2, { t with isLock_ := true }.listenInEpoll) else (locked.2, t)

def unlockAcceptor (m : ProcessMutexLock Pid) (t : TcpServer Pid) :
    ProcessMutexLock Pid × TcpServer Pid :=
  if t.isLock_ then (m.unlock, { t with isLock_ := false }.unlistenInEpoll) else (m, t)

/-- `if (function) function();`. -/
def call (hook : Option Hook) (p : Pid) (m : ProcessMutexLock Pid) (t : TcpServer Pid) :
    ProcessMutexLock Pid × TcpServer Pid :=
  match hook with
  | none => (m, t)
  | some .lockAcceptor => t.lockAcceptor p m
  | some .unlockAcceptor => t.unlockAcceptor m

/-! ### `EventLoop::loop` -/

/-- The head of the loop, and `beforeEachLoopFunction_`. -/
def loopHead [DecidableEq Pid] (p : Pid) (m : ProcessMutexLock Pid) (t : TcpServer Pid) :
    ProcessMutexLock Pid × TcpServer Pid :=
  if t.loop_.running_ then
    -- the loop of a new child has no hook, and does not try
    let tries := t.loop_.beforeEachLoopFunction_ = some .lockAcceptor
    let missed := if tries ∨ m.owner = some p then t.missed else t.missed + 1
    let done := t.call t.loop_.beforeEachLoopFunction_ p m
    (done.1, { done.2 with point := .poll, missed := missed })
  else (m, { t with point := .afterLoop })

/-- `Acceptor::handleRead`. -/
def handleAccept (t : TcpServer Pid) : TcpServer Pid := { t with accepted := t.accepted + 1 }

/-- The poll, which may report the listen socket, and the search for the
    channel of `listenSockfd_`, which is taken out of `activeChannels_`. -/
def poll (listen : Bool) (t : TcpServer Pid) : TcpServer Pid :=
  if listen ∧ t.acceptor_.getSockfd = t.loop_.listenSockfd_ then
    { t with point := .accept, listenActive := false }
  else { t with point := .check, listenActive := listen }

/-- `listenSockfdChannel->handleEvent(receiveTime)`. -/
def accept (t : TcpServer Pid) : TcpServer Pid := { t.handleAccept with point := .accepted }

/-- `afterEachAcceptFunction_`. -/
def afterAccept (p : Pid) (m : ProcessMutexLock Pid) (t : TcpServer Pid) :
    ProcessMutexLock Pid × TcpServer Pid :=
  let done := t.call t.loop_.afterEachAcceptFunction_ p m
  (done.1, { done.2 with point := .check })

/-- The test of `status_quit_softly` and `status_terminate`. -/
def check (t : TcpServer Pid) : TcpServer Pid :=
  if t.status_quit_softly || t.status_terminate then
    { t with loop_ := { t.loop_ with running_ := false }, point := .afterLoop }
  else { t with point := .handle }

/-- The other channels, among whose handlers one may call `quit()`, and
    the test of `status_child_quit`. -/
def handle (quit : Bool) (t : TcpServer Pid) : TcpServer Pid :=
  -- the listen channel was not found by `listenSockfd_`
  let t := if t.listenActive then t.handleAccept else t
  let running := t.loop_.running_ && !quit && !t.status_child_quit
  { t with
    loop_ := { t.loop_ with running_ := running }
    listenActive := false
    point := .loopHead }

/-! ### `TcpServer::start` -/

/-- `while (running) { loop_->loop(); ...`. -/
def again (t : TcpServer Pid) : TcpServer Pid :=
  if t.running then { t with loop_ := { t.loop_ with running_ := true }, point := .loopHead }
  else { t with point := .left }

/-- A new child: it has left `createNewChildProcess` by `break`, and with
    it the function without a value.  In this machine what is left reads as
    `start` relies on, here as 0; in the one of `SharedEpoll` every step
    has its own value. -/
def child (t : TcpServer Pid) : TcpServer Pid :=
  { t with
    status_child_quit := false
    loop_ := EventLoop.new
    acceptor_ := t.acceptor_.resetLoop
    created := true
    accepted := 0
    missed := 0 }

/-- `if (status_terminate || status_quit_softly) ...`. -/
def terminate (t : TcpServer Pid) : TcpServer Pid :=
  if t.status_terminate || t.status_quit_softly then
    { t with processPool_ := t.processPool_.killAll, running := false }
  else t

/-- The rest of the loop body in `start`.  `fork` is the pid of a new
    child, or `none` if it failed; the new child is the second answer. -/
def afterLoop (fork : Option Pid) (t : TcpServer Pid) : TcpServer Pid × Option (TcpServer Pid) :=
  let t := t.terminate
  if t.status_child_quit then
    -- parent and child both go on from here, each in its own memory
    let created := { t with
      processPool_ := t.processPool_.createNewChildProcess fork, status_child_quit := false }
    (created.again, if t.processPool_.forks then some t.child.again else none)
  else (t.again, none)

/-! ### Signals -/

/-- The signals that end a process. -/
inductive Signo where
  | SIGINT
  | SIGTERM
  | SIGQUIT
  deriving DecidableEq, Repr

/-- `parentSignalHandler`, and `childSignalHandler`, for these signals. -/
def signalHandler (signo : Signo) (t : TcpServer Pid) : TcpServer Pid :=
  match signo with
  | .SIGINT | .SIGTERM => { t with status_terminate := true }
  | .SIGQUIT => { t with status_quit_softly := true }

end TcpServer

/-! ## All processes -/

/-- The lock, and the processes that exist or have existed. -/
structure Server (Pid : Type) where
  mutex : ProcessMutexLock Pid
  process : Pid → Option (TcpServer Pid)

inductive ServerStep (Pid : Type) where
  | loopHead (p : Pid)
  /-- `listen` says whether the listen socket is reported. -/
  | poll (p : Pid) (listen : Bool)
  | accept (p : Pid)
  | afterAccept (p : Pid)
  | check (p : Pid)
  | handle (p : Pid) (quit : Bool)
  | afterLoop (p : Pid) (fork : Option Pid)
  | signal (p : Pid) (signo : TcpServer.Signo)
  /-- `SIGCHLD` for the end of `q`. -/
  | sigchld (p q : Pid)
  | die (p : Pid)
  deriving DecidableEq, Repr

namespace ServerStep

/-- The process that takes the step, or to which the signal goes. -/
def actor : ServerStep Pid → Pid
  | loopHead p | poll p _ | accept p | afterAccept p | check p | handle p _ | afterLoop p _
  | signal p _ | sigchld p _ | die p => p

/-- Whether the actor is where it can take the step.  The poll reports only
    descriptors that are registered. -/
def Ready : ServerStep Pid → TcpServer Pid → Prop
  | loopHead _, t => t.point = .loopHead
  | poll _ listen, t =>
      t.point = .poll ∧ (listen = true → t.acceptor_.getSockfd ∈ t.loop_.epoll_.interest)
  | accept _, t => t.point = .accept
  | afterAccept _, t => t.point = .accepted
  | check _, t => t.point = .check
  | handle _ _, t => t.point = .handle
  | afterLoop _ _, t => t.point = .afterLoop
  | signal _ _, t | sigchld _ _, t => t.point ≠ .left ∧ t.point ≠ .dead
  | die _, t => t.point ≠ .dead

instance : ∀ (l : ServerStep Pid) (t : TcpServer Pid), Decidable (l.Ready t)
  | loopHead _, t => inferInstanceAs (Decidable (t.point = .loopHead))
  | poll _ listen, t => inferInstanceAs (Decidable (t.point = .poll ∧
      (listen = true → t.acceptor_.getSockfd ∈ t.loop_.epoll_.interest)))
  | accept _, t => inferInstanceAs (Decidable (t.point = .accept))
  | afterAccept _, t => inferInstanceAs (Decidable (t.point = .accepted))
  | check _, t => inferInstanceAs (Decidable (t.point = .check))
  | handle _ _, t => inferInstanceAs (Decidable (t.point = .handle))
  | afterLoop _ _, t => inferInstanceAs (Decidable (t.point = .afterLoop))
  | signal _ _, t | sigchld _ _, t =>
      inferInstanceAs (Decidable (t.point ≠ .left ∧ t.point ≠ .dead))
  | die _, t => inferInstanceAs (Decidable (t.point ≠ .dead))

/-- What the actor does, to the lock and to itself. -/
def effect [DecidableEq Pid] : ServerStep Pid → ProcessMutexLock Pid → TcpServer Pid →
    ProcessMutexLock Pid × TcpServer Pid
  | loopHead p, m, t => t.loopHead p m
  | poll _ listen, m, t => (m, t.poll listen)
  | accept _, m, t => (m, t.accept)
  | afterAccept p, m, t => t.afterAccept p m
  | check _, m, t => (m, t.check)
  | handle _ quit, m, t => (m, t.handle quit)
  | afterLoop _ fork, m, t => (m, (t.afterLoop fork).1)
  | signal _ signo, m, t => (m, t.signalHandler signo)
  | sigchld _ _, m, t => (m, { t with status_child_quit := true })
  | die _, m, t => (m, { t with point := .dead })

/-- The process it makes. -/
def child : ServerStep Pid → TcpServer Pid → Option (Pid × TcpServer Pid)
  | afterLoop _ (some q), t => (t.afterLoop (some q)).2.map fun u => (q, u)
  | _, _ => none

end ServerStep

namespace Server

/-- The processes of the pool have started, each with its own copy of it. -/
def started (sockfd : Int) (pools : Pid → Option (ProcessPool Pid)) : Server Pid where
  mutex := ⟨none⟩
  process p := (pools p).map (TcpServer.started sockfd)

/-- `p` has returned from `TcpServer::start`, or was killed. -/
def Terminated (s : Server Pid) (p : Pid) : Prop :=
  ∃ t ∈ s.process p, t.point = .left ∨ t.point = .dead

instance (s : Server Pid) (p : Pid) : Decidable (s.Terminated p) :=
  inferInstanceAs (Decidable (∃ t ∈ s.process p, _))

/-- A new process has a pid of its own, and `SIGCHLD` tells of an end. -/
def Allowed (s : Server Pid) : ServerStep Pid → Prop
  | .afterLoop _ fork => ∀ q ∈ fork, (s.process q).isNone
  | .sigchld _ q => s.Terminated q
  | _ => True

instance (s : Server Pid) : DecidablePred s.Allowed
  | .afterLoop _ fork => inferInstanceAs (Decidable (∀ q ∈ fork, (s.process q).isNone))
  | .sigchld _ q => inferInstanceAs (Decidable (s.Terminated q))
  | .loopHead _ | .poll _ _ | .accept _ | .afterAccept _ | .check _ | .handle _ _ | .signal _ _
  | .die _ => isTrue trivial

def guard (s : Server Pid) (l : ServerStep Pid) : Prop :=
  (∃ t ∈ s.process l.actor, l.Ready t) ∧ s.Allowed l

instance (s : Server Pid) : DecidablePred s.guard := fun l =>
  inferInstanceAs (Decidable ((∃ t ∈ s.process l.actor, _) ∧ s.Allowed l))

variable [DecidableEq Pid]

/-- The child is there, if there is one. -/
def adopt (process : Pid → Option (TcpServer Pid)) :
    Option (Pid × TcpServer Pid) → Pid → Option (TcpServer Pid)
  | none => process
  | some (q, u) => Function.update process q (some u)

def next (s : Server Pid) (l : ServerStep Pid) : Server Pid :=
  match s.process l.actor with
  | none => s
  | some t =>
      { mutex := (l.effect s.mutex t).1
        process :=
          adopt (Function.update s.process l.actor (some (l.effect s.mutex t).2)) (l.child t) }

end Server

/-- Any interleaving of the processes, of signals and of deaths. -/
def server [DecidableEq Pid] : Machine (Server Pid) (ServerStep Pid) where
  guard := Server.guard
  next := Server.next

instance [DecidableEq Pid] (s : Server Pid) (l : ServerStep Pid) : Decidable (server.guard s l) :=
  inferInstanceAs (Decidable (s.guard l))

end Process

end TinyWS
