import TinyWS.Net.TcpConnection
import TinyWS.Net.EventLoop

/-! # TcpServer

    The server with its base loop, any number of I/O loops and all their
    connections.  A loop is here its `Epoll`, its queue and the batch that
    `doPendingFunctors` is working on; a connection is run as the
    `Endpoint` over its own loop.

    Who keeps a `TcpConnection` alive is computed, not stored: an object
    exists as long as some `shared_ptr` to it does, in `connectionMap_`, in
    a functor that has not been released, or in a thread that is inside
    `send`.  `dangling` records the raw functors called without one.

    The wakeup channels, the acceptor and the timers of the loops have no
    part in this and are left out. -/

namespace TinyWS

open Std

/-- The address of a `TcpConnection` object; none is used twice. -/
abbrev ConnPtr : Type := Nat

/-- The functors that pass through the queues of the loops. -/
inductive ServerFunctor where
  | connectionEstablished (c : ConnPtr)
  | removeConnectionInLoop (c : ConnPtr)
  | connectionDestroyed (c : ConnPtr)
  /-- The one of `~TcpServer`, bound to `connection.second.get()`. -/
  | connectionDestroyedRaw (c : ConnPtr)
  /-- One that a connection queued for itself. -/
  | conn (c : ConnPtr) (f : ConnFunctor)
  deriving DecidableEq, Repr

/-- Bound to `this`. -/
def ConnFunctor.raw : ConnFunctor → Bool
  | .sendInLoop _ => true
  | .shutdownInLoop | .writeComplete => false

/-- The `shared_ptr` inside a functor. -/
def ServerFunctor.holds : ServerFunctor → Option ConnPtr
  | .connectionEstablished c | .removeConnectionInLoop c | .connectionDestroyed c => some c
  | .connectionDestroyedRaw _ => none
  | .conn c f => if f.raw then none else some c

/-- The vector of `doPendingFunctors`: what was called, and what was not. -/
structure Batch where
  called : List ServerFunctor
  functors : List ServerFunctor

/-- One `EventLoop`.  There is a batch while `callingPendingFuntors_`. -/
structure IoLoop where
  epoll_ : Epoll
  pendingFunctors_ : List ServerFunctor
  batch : Option Batch

/-- What happens to a connection once, and in which loop. -/
inductive LifeEvent where
  | connectionEstablished (l : LoopId)
  | handleClose
  | connectionDestroyed (l : LoopId)
  deriving DecidableEq, Repr

/-- `class TcpServer` and everything it owns. -/
structure TcpServer where
  name_ : String
  /-- `threadPool_`: `loops_.size()` and `next_`. -/
  numThreads : Nat
  next_ : Nat
  nextConnectionId_ : Int
  connectionMap_ : ExtTreeMap String ConnPtr compare
  /-- The objects made so far are those below `created`. -/
  conns : ConnPtr → TcpConnection
  created : Nat
  loops : LoopId → IoLoop
  /-- Threads in `send`, between the test of `state_` and the push. -/
  sending : List (ThreadId × ConnPtr × Bytes)
  /-- History: the life of each connection. -/
  life : ConnPtr → List LifeEvent
  /-- History: whether the name was taken, at each insertion. -/
  inserted : List Bool
  /-- History: the `n` of each `removeConnectionInLoop`. -/
  erased : List Nat
  /-- History: raw functors that were called on a destroyed object. -/
  dangling : List ServerFunctor

namespace IoLoop

def new : IoLoop where
  epoll_ := Epoll.new
  pendingFunctors_ := []
  batch := none

def callingPendingFuntors_ (io : IoLoop) : Bool := io.batch.isSome

/-- The rest of the batch. -/
def functors (io : IoLoop) : List ServerFunctor :=
  match io.batch with
  | none => []
  | some batch => batch.functors

def called (io : IoLoop) : List ServerFunctor :=
  match io.batch with
  | none => []
  | some batch => batch.called

/-- What the loop will run, in this order. -/
def todo (io : IoLoop) : List ServerFunctor := io.functors ++ io.pendingFunctors_

/-- All functors that exist. -/
def all (io : IoLoop) : List ServerFunctor := io.called ++ io.todo

end IoLoop

namespace TcpServer

/-! ## State -/

/-- After the constructor and `start()`. -/
def new (name : String) (numThreads : Nat) : TcpServer where
  name_ := name
  numThreads := numThreads
  next_ := 0
  nextConnectionId_ := 1
  connectionMap_ := ∅
  conns _ := TcpConnection.new "" 0 0 (-1) false
  created := 0
  loops _ := IoLoop.new
  sending := []
  life _ := []
  inserted := []
  erased := []
  dangling := []

def setConn (s : TcpServer) (c : ConnPtr) (conn : TcpConnection) : TcpServer :=
  { s with conns := fun d => if d = c then conn else s.conns d }

def setLoop (s : TcpServer) (l : LoopId) (io : IoLoop) : TcpServer :=
  { s with loops := fun k => if k = l then io else s.loops k }

/-- The loop of a connection. -/
def getLoop (s : TcpServer) (c : ConnPtr) : LoopId := (s.conns c).loop_

def todo (s : TcpServer) (l : LoopId) : List ServerFunctor := (s.loops l).todo

/-- Some `shared_ptr` to the connection exists. -/
def held (s : TcpServer) (c : ConnPtr) : Bool :=
  s.connectionMap_.toList.any (·.2 == c) ||
    (List.range (s.numThreads + 1)).any (fun l => (s.loops l).all.any (·.holds == some c)) ||
    s.sending.any (·.2.1 == c)

/-- Note an event in the life of a connection. -/
def live (s : TcpServer) (c : ConnPtr) (event : LifeEvent) : TcpServer :=
  { s with life := fun d => if d = c then s.life d ++ [event] else s.life d }

/-- The functor `f` follows its raw pointer. -/
def deref (s : TcpServer) (f : ServerFunctor) (c : ConnPtr) : TcpServer :=
  { s with dangling := if s.held c then s.dangling else s.dangling ++ [f] }

/-! ## Queues and threads -/

def queueInLoop (s : TcpServer) (l : LoopId) (f : ServerFunctor) : TcpServer :=
  s.setLoop l { s.loops l with pendingFunctors_ := (s.loops l).pendingFunctors_ ++ [f] }

/-- `runInLoop(f)` of the loop `l`, called in the thread of the loop
    `caller`; `body` is what `f` does. -/
def runInLoop (s : TcpServer) (caller l : LoopId) (f : ServerFunctor)
    (body : TcpServer → TcpServer) : TcpServer :=
  if caller = l then body s else s.queueInLoop l f

/-- A connection and its loop, as a member function finds them. -/
def endpoint (s : TcpServer) (c : ConnPtr) : Endpoint :=
  { s.conns c with epoll_ := (s.loops (s.getLoop c)).epoll_, pendingFunctors_ := [] }

/-- Run a member function of a connection in its loop; the functors it
    queues go behind the others. -/
def withConn (s : TcpServer) (c : ConnPtr) (f : Endpoint → Endpoint) : TcpServer :=
  let l := s.getLoop c
  let e := f (s.endpoint c)
  (s.setConn c e.toTcpConnection).setLoop l
    { s.loops l with
      epoll_ := e.epoll_
      pendingFunctors_ := (s.loops l).pendingFunctors_ ++ e.pendingFunctors_.map (.conn c) }

/-- `EventLoopThreadPool::getNextLoop`. -/
def getNextLoop (s : TcpServer) : TcpServer × LoopId :=
  if s.numThreads = 0 then (s, 0)
  else
    let next := s.next_ + 1
    ({ s with next_ := if s.numThreads ≤ next then 0 else next }, s.next_ + 1)

/-! ## Member functions -/

def connectionEstablished (s : TcpServer) (l : LoopId) (c : ConnPtr) : TcpServer :=
  (s.withConn c Endpoint.connectionEstablished).live c (.connectionEstablished l)

def connectionDestroyed (s : TcpServer) (l : LoopId) (c : ConnPtr) : TcpServer :=
  (s.withConn c Endpoint.connectionDestroyed).live c (.connectionDestroyed l)

/-- The part of `newConnection` that makes the object and enters it. -/
def enter (s : TcpServer) (connectionName : String) (ioLoop : LoopId) (fd : Int)
    (writeComplete : Bool) : TcpServer :=
  let connection := s.created
  { s.setConn connection (TcpConnection.new connectionName ioLoop connection fd writeComplete) with
    created := s.created + 1
    inserted := s.inserted ++ [s.connectionMap_.contains connectionName]
    connectionMap_ := s.connectionMap_.insert connectionName connection }

/-- `newConnection` in the base loop. -/
def newConnection (s : TcpServer) (fd : Int) (writeComplete : Bool) : TcpServer :=
  let connectionName := s.name_ ++ "#" ++ toString s.nextConnectionId_
  let s := { s with nextConnectionId_ := s.nextConnectionId_ + 1 }
  let connection := s.created
  let ioLoop := s.getNextLoop.2
  (s.getNextLoop.1.enter connectionName ioLoop fd writeComplete).runInLoop 0 ioLoop
    (.connectionEstablished connection) (·.connectionEstablished ioLoop connection)

def removeConnectionInLoop (s : TcpServer) (connection : ConnPtr) : TcpServer :=
  let name := (s.conns connection).name_
  let n := if s.connectionMap_.contains name then 1 else 0
  let s :=
    { s with
      connectionMap_ := s.connectionMap_.erase name
      erased := s.erased ++ [n] }
  s.queueInLoop (s.getLoop connection) (.connectionDestroyed connection)

/-- `removeConnection`, called in the loop `caller`. -/
def removeConnection (s : TcpServer) (caller : LoopId) (connection : ConnPtr) : TcpServer :=
  s.runInLoop caller 0 (.removeConnectionInLoop connection)
    (·.removeConnectionInLoop connection)

/-- The events that end in `handleClose`. -/
def closes : ConnStep → Bool
  | .handleRead r => r = .eof
  | .handleClose => true
  | _ => false

/-- An event of a connection, or a call that its callbacks make. -/
def handleEvent (s : TcpServer) (c : ConnPtr) (event : ConnStep) : TcpServer :=
  let s := s.withConn c (·.step event)
  if closes event then (s.live c .handleClose).removeConnection (s.getLoop c) c else s

/-- Call a functor in the loop `l`. -/
def call (s : TcpServer) (l : LoopId) (f : ServerFunctor) (w : WriteResult) : TcpServer :=
  match f with
  | .connectionEstablished c => s.connectionEstablished l c
  | .removeConnectionInLoop c => s.removeConnectionInLoop c
  | .connectionDestroyed c => s.connectionDestroyed l c
  | .connectionDestroyedRaw c => (s.deref f c).connectionDestroyed l c
  | .conn c g => (if g.raw then s.deref f c else s).withConn c (·.runFunctor g w)

/-! ## `doPendingFunctors` -/

def setBatch (s : TcpServer) (l : LoopId) (batch : Option Batch) : TcpServer :=
  s.setLoop l { s.loops l with batch := batch }

def swapFunctors (s : TcpServer) (l : LoopId) : TcpServer :=
  s.setLoop l
    { s.loops l with
      batch := some ⟨[], (s.loops l).pendingFunctors_⟩
      pendingFunctors_ := [] }

/-- The next functor of the batch is called. -/
def runFunctor (s : TcpServer) (l : LoopId) (w : WriteResult) : TcpServer :=
  match (s.loops l).batch with
  | some ⟨called, f :: fs⟩ =>
      (s.setBatch l (some ⟨called ++ [f], fs⟩)).call l f w
  | _ => s

/-- The call returns, and the vector is released. -/
def batchDone (s : TcpServer) (l : LoopId) : TcpServer := s.setBatch l none

/-! ## `send` in another thread -/

/-- The test of `state_`. -/
def sendCheck (s : TcpServer) (t : ThreadId) (c : ConnPtr) (message : Bytes) : TcpServer :=
  if (s.conns c).state_ = .kConnected then
    { s.setConn c { s.conns c with sent := (s.conns c).sent ++ [message] } with
      sending := (t, c, message) :: s.sending }
  else s

/-- The push into the queue of the loop, and the return from `send`. -/
def sendPush (s : TcpServer) (t : ThreadId) (c : ConnPtr) (message : Bytes) : TcpServer :=
  let s := s.queueInLoop (s.getLoop c) (.conn c (.sendInLoop message))
  { s with sending := s.sending.erase (t, c, message) }

end TcpServer

/-! ## The machine -/

inductive ServerStep where
  | newConnection (fd : Int) (writeComplete : Bool)
  | event (c : ConnPtr) (event : ConnStep)
  | swapFunctors (l : LoopId)
  | runFunctor (l : LoopId) (w : WriteResult)
  | batchDone (l : LoopId)
  | sendCheck (t : ThreadId) (c : ConnPtr) (message : Bytes)
  | sendPush (t : ThreadId) (c : ConnPtr) (message : Bytes)
  deriving DecidableEq, Repr

namespace TcpServer

def next (s : TcpServer) : ServerStep → TcpServer
  | .newConnection fd writeComplete => s.newConnection fd writeComplete
  | .event c event => s.handleEvent c event
  | .swapFunctors l => s.swapFunctors l
  | .runFunctor l w => s.runFunctor l w
  | .batchDone l => s.batchDone l
  | .sendCheck t c message => s.sendCheck t c message
  | .sendPush t c message => s.sendPush t c message

/-- What the loop thread itself can do to a connection. -/
def inLoop : ConnStep → Bool
  | .send inLoopThread _ _ => inLoopThread
  | .shutdown inLoopThread => inLoopThread
  | .handleRead _ | .handleWrite _ | .handleClose => true
  | .doPendingFunctor _ | .connectionDestroyed => false

/-- The channel of the connection was enabled, and no close was seen. -/
def isOpen (s : TcpServer) (c : ConnPtr) : Bool :=
  match s.life c with
  | [.connectionEstablished _] => true
  | _ => false

/-- A loop handles events in front of `doPendingFunctors`, not in it. -/
def guard (s : TcpServer) : ServerStep → Prop
  -- the id is an `int`
  | .newConnection _ _ =>
      s.nextConnectionId_ < 2 ^ 31 ∧ (s.loops 0).callingPendingFuntors_ = false
  | .event c event =>
      s.isOpen c = true ∧ inLoop event = true ∧
        (s.loops (s.getLoop c)).callingPendingFuntors_ = false
  | .swapFunctors l => l ≤ s.numThreads ∧ (s.loops l).callingPendingFuntors_ = false
  | .runFunctor l _ =>
      l ≤ s.numThreads ∧ (s.loops l).callingPendingFuntors_ = true ∧ (s.loops l).functors ≠ []
  | .batchDone l =>
      l ≤ s.numThreads ∧ (s.loops l).callingPendingFuntors_ = true ∧ (s.loops l).functors = []
  -- the caller has got a `shared_ptr` from somewhere
  | .sendCheck t c _ =>
      c < s.created ∧ s.held c = true ∧ ∀ m ∈ s.sending, m.1 ≠ t
  | .sendPush t c message => (t, c, message) ∈ s.sending

instance (s : TcpServer) : DecidablePred s.guard
  | .newConnection _ _ => inferInstanceAs (Decidable (_ ∧ _))
  | .event _ _ => inferInstanceAs (Decidable (_ ∧ _ ∧ _))
  | .swapFunctors _ => inferInstanceAs (Decidable (_ ∧ _))
  | .runFunctor _ _ => inferInstanceAs (Decidable (_ ∧ _ ∧ _))
  | .batchDone _ => inferInstanceAs (Decidable (_ ∧ _ ∧ _))
  | .sendCheck _ _ _ => inferInstanceAs (Decidable (_ ∧ _ ∧ _))
  | .sendPush t c message => inferInstanceAs (Decidable ((t, c, message) ∈ s.sending))

end TcpServer

/-- The server while it exists: any order of new connections, events,
    steps of the loops, and calls of `send` in other threads. -/
def tcpServer : Machine TcpServer ServerStep where
  guard := TcpServer.guard
  next := TcpServer.next

instance (s : TcpServer) (l : ServerStep) : Decidable (tcpServer.guard s l) :=
  inferInstanceAs (Decidable (s.guard l))

namespace TcpServer

/-! ## What the operations leave alone -/

/-- What the new state of a loop has in common with its old one is
    unchanged in every loop. -/
theorem frame_setLoop {α : Type} (part : IoLoop → α) {s : TcpServer} {l : LoopId} {io : IoLoop}
    (hio : part io = part (s.loops l)) (k : LoopId) :
    part ((s.setLoop l io).loops k) = part (s.loops k) := by
  show part (if k = l then io else s.loops k) = _
  split
  · next hk => rw [hk, hio]
  · rfl

theorem todo_setLoop (s : TcpServer) (l k : LoopId) (io : IoLoop) :
    (s.setLoop l io).todo k = if k = l then io.todo else s.todo k := by
  show IoLoop.todo (if k = l then io else s.loops k) = _
  split
  · rfl
  · rfl

@[simp] theorem todo_queueInLoop_self (s : TcpServer) (l : LoopId) (f : ServerFunctor) :
    (s.queueInLoop l f).todo l = s.todo l ++ [f] := by
  rw [queueInLoop, todo_setLoop, if_pos rfl]
  simp [todo, IoLoop.todo, IoLoop.functors]

@[simp] theorem todo_queueInLoop_ne (s : TcpServer) {l k : LoopId} (f : ServerFunctor)
    (hk : k ≠ l) : (s.queueInLoop l f).todo k = s.todo k := by
  rw [queueInLoop, todo_setLoop, if_neg hk]

theorem todo_setBatch_ne (s : TcpServer) {l k : LoopId} (hk : k ≠ l) (batch : Option Batch) :
    (s.setBatch l batch).todo k = s.todo k := by
  rw [setBatch, todo_setLoop, if_neg hk]

theorem epoll_setBatch (s : TcpServer) (l k : LoopId) (batch : Option Batch) :
    ((s.setBatch l batch).loops k).epoll_ = (s.loops k).epoll_ := by
  apply frame_setLoop IoLoop.epoll_
  rfl

theorem epoll_queueInLoop (s : TcpServer) (l k : LoopId) (f : ServerFunctor) :
    ((s.queueInLoop l f).loops k).epoll_ = (s.loops k).epoll_ := by
  apply frame_setLoop IoLoop.epoll_
  rfl

theorem epoll_swapFunctors (s : TcpServer) (l k : LoopId) :
    ((s.swapFunctors l).loops k).epoll_ = (s.loops k).epoll_ := by
  apply frame_setLoop IoLoop.epoll_
  rfl

theorem conns_withConn_ne (s : TcpServer) {c d : ConnPtr} (hd : d ≠ c) (f : Endpoint → Endpoint) :
    (s.withConn c f).conns d = s.conns d := if_neg hd

theorem conns_withConn_self (s : TcpServer) (c : ConnPtr) (f : Endpoint → Endpoint) :
    (s.withConn c f).conns c = (f (s.endpoint c)).toTcpConnection := if_pos rfl

theorem loops_withConn_self (s : TcpServer) (c : ConnPtr) (f : Endpoint → Endpoint) :
    (s.withConn c f).loops (s.getLoop c) =
      { s.loops (s.getLoop c) with
        epoll_ := (f (s.endpoint c)).epoll_
        pendingFunctors_ := (s.loops (s.getLoop c)).pendingFunctors_ ++
          (f (s.endpoint c)).pendingFunctors_.map (.conn c) } := if_pos rfl

theorem loops_withConn_ne (s : TcpServer) {c : ConnPtr} {l : LoopId} (hl : l ≠ s.getLoop c)
    (f : Endpoint → Endpoint) : (s.withConn c f).loops l = s.loops l := if_neg hl

theorem epoll_withConn (s : TcpServer) (c : ConnPtr) (f : Endpoint → Endpoint) (l : LoopId) :
    ((s.withConn c f).loops l).epoll_ =
      if l = s.getLoop c then (f (s.endpoint c)).epoll_ else (s.loops l).epoll_ := by
  show IoLoop.epoll_ (if l = s.getLoop c then _ else s.loops l) = _
  split
  · rfl
  · rfl

theorem todo_withConn (s : TcpServer) (c : ConnPtr) (f : Endpoint → Endpoint) (l : LoopId) :
    (s.withConn c f).todo l =
      if l = s.getLoop c then
        s.todo l ++ (f (s.endpoint c)).pendingFunctors_.map (.conn c)
      else s.todo l := by
  unfold withConn
  rw [todo_setLoop]
  split
  · next hl =>
    subst hl
    simp [todo, IoLoop.todo, IoLoop.functors, ← List.append_assoc]
  · rfl

/-- The functor that is called next is the first of the queue. -/
theorem todo_called {s : TcpServer} {l : LoopId} {called fs : List ServerFunctor}
    {f : ServerFunctor} (hbatch : (s.loops l).batch = some ⟨called, f :: fs⟩) :
    s.todo l = f :: (s.setBatch l (some ⟨called ++ [f], fs⟩)).todo l := by
  rw [setBatch, todo_setLoop, if_pos rfl]
  simp [todo, IoLoop.todo, IoLoop.functors, hbatch]

/-- The queue becomes the batch, in the same order. -/
theorem todo_swapFunctors {s : TcpServer} {l : LoopId}
    (hidle : (s.loops l).callingPendingFuntors_ = false) (k : LoopId) :
    (s.swapFunctors l).todo k = s.todo k := by
  have hnone : (s.loops l).batch = none := by simpa [IoLoop.callingPendingFuntors_] using hidle
  apply frame_setLoop IoLoop.todo
  simp [IoLoop.todo, IoLoop.functors, hnone]

theorem todo_batchDone {s : TcpServer} {l : LoopId} (hdone : (s.loops l).functors = [])
    (k : LoopId) : (s.batchDone l).todo k = s.todo k := by
  apply frame_setLoop IoLoop.todo
  rw [IoLoop.todo, IoLoop.todo, hdone]
  rfl

/-! ## Member functions that keep the identity of a connection -/

/-- A member function that leaves the name and the loop alone. -/
def Keeps (f : Endpoint → Endpoint) : Prop := ∀ e, (f e).name_ = e.name_ ∧ (f e).loop_ = e.loop_

theorem keeps_send (b : Bool) (message : Bytes) (w : WriteResult) :
    Keeps (·.send b message w) := by
  intro e
  dsimp only [Endpoint.send]
  split
  · cases b with
    | true =>
      have h := Endpoint.sameLife_sendInLoop { e with sent := e.sent ++ [message] } message w
      exact ⟨h.name_, h.loop_⟩
    | false => exact ⟨rfl, rfl⟩
  · exact ⟨rfl, rfl⟩

theorem keeps_shutdown (b : Bool) : Keeps (·.shutdown b) := by
  intro e
  dsimp only [Endpoint.shutdown]
  split
  · cases b with
    | true =>
      have h := Endpoint.sameLife_shutdownInLoop (e.setState .kDisconnecting)
      exact ⟨h.name_, h.loop_⟩
    | false => exact ⟨rfl, rfl⟩
  · exact ⟨rfl, rfl⟩

theorem keeps_runFunctor (f : ConnFunctor) (w : WriteResult) : Keeps (·.runFunctor f w) := by
  intro e
  have h := Endpoint.sameLife_runFunctor e f w
  exact ⟨h.name_, h.loop_⟩

theorem keeps_connectionEstablished : Keeps Endpoint.connectionEstablished :=
  fun _ => ⟨rfl, rfl⟩

theorem keeps_connectionDestroyed : Keeps Endpoint.connectionDestroyed := by
  intro e
  unfold Endpoint.connectionDestroyed
  split
  · exact ⟨rfl, rfl⟩
  · exact ⟨rfl, rfl⟩

/-- No call or event of a connection changes its name or its loop. -/
theorem keeps_step (event : ConnStep) : Keeps (·.step event) := by
  cases event with
  | send b message w => exact keeps_send b message w
  | shutdown b => exact keeps_shutdown b
  | handleRead r =>
    intro e
    cases r with
    | data bs => exact ⟨rfl, rfl⟩
    | eof => exact ⟨rfl, rfl⟩
    | error => exact ⟨rfl, rfl⟩
  | handleWrite w =>
    intro e
    have h := Endpoint.sameLife_handleWrite e w
    exact ⟨h.name_, h.loop_⟩
  | handleClose => exact fun _ => ⟨rfl, rfl⟩
  | doPendingFunctor w =>
    intro e
    dsimp only [Endpoint.step, Endpoint.doPendingFunctor]
    split
    · exact ⟨rfl, rfl⟩
    · next g gs _ => exact keeps_runFunctor g w { e with pendingFunctors_ := gs }
  | connectionDestroyed => exact keeps_connectionDestroyed

/-- The object is replaced by one with the same name in the same loop. -/
theorem name_setConn {s : TcpServer} {c : ConnPtr} {conn : TcpConnection}
    (hname : conn.name_ = (s.conns c).name_) (d : ConnPtr) :
    ((s.setConn c conn).conns d).name_ = (s.conns d).name_ := by
  show TcpConnection.name_ (if d = c then conn else s.conns d) = _
  split
  · next hd => rw [hd, hname]
  · rfl

theorem getLoop_setConn {s : TcpServer} {c : ConnPtr} {conn : TcpConnection}
    (hloop : conn.loop_ = s.getLoop c) (d : ConnPtr) :
    (s.setConn c conn).getLoop d = s.getLoop d := by
  show TcpConnection.loop_ (if d = c then conn else s.conns d) = _
  split
  · next hd => rw [hd, hloop]
  · rfl

/-! What `newConnection` has made before the connection is established. -/

section Enter

variable {s : TcpServer} {n : Nat} {name : String} {l : LoopId} {fd : Int} {writeComplete : Bool}

theorem conns_enter_self :
    (enter { s with nextConnectionId_ := s.nextConnectionId_ + 1, next_ := n } name l fd
      writeComplete).conns s.created = TcpConnection.new name l s.created fd writeComplete :=
  if_pos rfl

theorem conns_enter_ne {d : ConnPtr} (hd : d ≠ s.created) :
    (enter { s with nextConnectionId_ := s.nextConnectionId_ + 1, next_ := n } name l fd
      writeComplete).conns d = s.conns d :=
  if_neg hd

theorem getLoop_enter_self :
    (enter { s with nextConnectionId_ := s.nextConnectionId_ + 1, next_ := n } name l fd
      writeComplete).getLoop s.created = l := by
  rw [getLoop, conns_enter_self]
  rfl

theorem getLoop_enter_ne {d : ConnPtr} (hd : d ≠ s.created) :
    (enter { s with nextConnectionId_ := s.nextConnectionId_ + 1, next_ := n } name l fd
      writeComplete).getLoop d = s.getLoop d := by
  rw [getLoop, conns_enter_ne hd]
  rfl

end Enter

theorem getLoop_withConn {f : Endpoint → Endpoint} (hf : Keeps f) (s : TcpServer)
    (c d : ConnPtr) : (s.withConn c f).getLoop d = s.getLoop d :=
  getLoop_setConn (hf _).2 d

end TcpServer

end TinyWS
