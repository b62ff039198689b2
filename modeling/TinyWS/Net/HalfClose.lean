import TinyWS.Net.ChannelEvents
import TinyWS.Net.Shutdown

/-! # Half-Close

    `shutdown` is documented to close the write side of a connection, so
    that the peer can still send what it has to say.  `shutdownWrite`
    passes `SHUT_RD` to the kernel: the receiving side is closed, the
    sending side stays open, and the next read of an empty queue takes
    itself for the end of the stream and destroys the connection.

    A connection is run together with its peer and with what the kernel
    knows of the socket. -/

namespace TinyWS

/-! ## The socket -/

/-- The second argument of `::shutdown`. -/
inductive ShutdownHow where
  | SHUT_RD
  | SHUT_WR
  | SHUT_RDWR
  deriving DecidableEq, Repr

/-- The directions of a socket that are open. -/
structure Directions where
  receiving : Bool
  sending : Bool
  deriving DecidableEq, Repr

/-- `::shutdown(sockfd, how)`. -/
def Directions.shutdown (d : Directions) : ShutdownHow → Directions
  | .SHUT_RD => { d with receiving := false }
  | .SHUT_WR => { d with sending := false }
  | .SHUT_RDWR => ⟨false, false⟩

/-- `Socket::shutdownWrite()`. -/
def Socket.shutdownWrite (d : Directions) : Directions := d.shutdown .SHUT_RD

/-- What the calls made on a socket leave open. -/
def directions (calls : List SocketCall) : Directions :=
  calls.foldl
    (fun d c =>
      match c with
      | .write _ => d
      | .shutdownWrite _ _ => Socket.shutdownWrite d)
    ⟨true, true⟩

/-- A connection, its receive queue in the kernel, and its peer. -/
structure Peered where
  polled : Polled
  queue : Bytes
  peerClosed : Bool
  /-- History: what the peer sent before its close. -/
  peerSent : Bytes
  /-- History: what `messageCallback_` was given. -/
  delivered : Bytes
  /-- History: whether the peer had closed, at each entry of
      `handleClose`. -/
  closes : List Bool

inductive PeeredStep where
  /-- Behind a closed receiving side the kernel may drop the bytes. -/
  | peerSends (bytes : Bytes) (kept : Bool)
  | peerCloses
  | poll (l : PolledStep)
  deriving DecidableEq, Repr

namespace Peered

/-- A new connection with an empty queue. -/
def established (name : String) (loop : LoopId) (self : ChannelPtr) (fd : Int)
    (writeComplete : Bool) (epoll : Epoll) : Peered where
  polled := Polled.established name loop self fd writeComplete epoll
  queue := []
  peerClosed := false
  peerSent := []
  delivered := []
  closes := []

def directions (s : Peered) : Directions := TinyWS.directions s.polled.conn.calls

/-- A read finds the end of the stream. -/
def AtEnd (s : Peered) : Prop :=
  s.queue = [] ∧ (s.peerClosed = true ∨ s.directions.receiving = false)

instance (s : Peered) : Decidable s.AtEnd := inferInstanceAs (Decidable (_ ∧ _))

/-- What `readFd` may return. -/
def mayRead (s : Peered) : ReadResult → Prop
  | .data bs => bs ≠ [] ∧ bs <+: s.queue
  | .eof => s.AtEnd
  | .error => ¬ s.AtEnd

instance (s : Peered) : DecidablePred s.mayRead
  | .data bs => inferInstanceAs (Decidable (bs ≠ [] ∧ bs <+: s.queue))
  | .eof => inferInstanceAs (Decidable s.AtEnd)
  | .error => inferInstanceAs (Decidable (¬ s.AtEnd))

/-- What the kernel may answer to a step of the connection. -/
def mayAnswer (s : Peered) : PolledStep → Prop
  | .handleEvent revents => Channel.HangsUp revents → s.peerClosed = true
  | .readCallback r => s.mayRead r
  | .closeCallback | .errorCallback | .writeCallback _ | .call _ => True

instance (s : Peered) : DecidablePred s.mayAnswer
  | .handleEvent revents =>
      inferInstanceAs (Decidable (Channel.HangsUp revents → s.peerClosed = true))
  | .readCallback r => inferInstanceAs (Decidable (s.mayRead r))
  | .closeCallback | .errorCallback | .writeCallback _ | .call _ => isTrue trivial

def guard (s : Peered) : PeeredStep → Prop
  | .peerSends _ kept => s.peerClosed = false ∧ (s.directions.receiving = true → kept = true)
  | .peerCloses => s.peerClosed = false
  | .poll l => s.polled.guard l ∧ s.mayAnswer l

instance (s : Peered) : DecidablePred s.guard
  | .peerSends _ kept =>
      inferInstanceAs
        (Decidable (s.peerClosed = false ∧ (s.directions.receiving = true → kept = true)))
  | .peerCloses => inferInstanceAs (Decidable (s.peerClosed = false))
  | .poll l => inferInstanceAs (Decidable (s.polled.guard l ∧ s.mayAnswer l))

def next (s : Peered) : PeeredStep → Peered
  | .peerSends bytes kept =>
      { s with
        peerSent := s.peerSent ++ bytes
        queue := if kept then s.queue ++ bytes else s.queue }
  | .peerCloses => { s with peerClosed := true }
  | .poll l =>
      let s := { s with polled := s.polled.next l }
      match l with
      | .readCallback (.data bs) =>
          { s with
            queue := s.queue.drop bs.length
            delivered := s.delivered ++ bs }
      | .readCallback .eof | .closeCallback => { s with closes := s.closes ++ [s.peerClosed] }
      | .readCallback .error | .handleEvent _ | .errorCallback | .writeCallback _ | .call _ => s

end Peered

/-- One connection of the multi-threaded server and its peer. -/
def peered : Machine Peered PeeredStep where
  guard := Peered.guard
  next := Peered.next

instance (s : Peered) (l : PeeredStep) : Decidable (peered.guard s l) :=
  inferInstanceAs (Decidable (s.guard l))

/-! ## Calls on the socket -/

namespace Endpoint

theorem calls_queueWriteComplete (e : Endpoint) : e.queueWriteComplete.calls = e.calls := by
  unfold queueWriteComplete
  split <;> rfl

theorem calls_shutdownInLoop (e : Endpoint) : e.calls <+: e.shutdownInLoop.calls := by
  unfold shutdownInLoop
  split
  · exact List.prefix_refl _
  · exact List.prefix_append _ _

theorem calls_sendInLoop (e : Endpoint) (message : Bytes) (w : WriteResult) :
    e.calls <+: (e.sendInLoop message w).calls := by
  simp only [sendInLoop]
  split_ifs <;>
    simp [enableWriting, calls_queueWriteComplete, call]

theorem calls_handleWrite (e : Endpoint) (w : WriteResult) :
    e.calls <+: (e.handleWrite w).calls := by
  simp only [handleWrite]
  split_ifs
  · refine List.IsPrefix.trans ?_ (calls_shutdownInLoop _)
    simp [disableWriting, calls_queueWriteComplete, call]
  · simp [disableWriting, calls_queueWriteComplete, call]
  · simp [call]
  · simp [call]
  · exact List.prefix_refl _

theorem calls_connectionDestroyed (e : Endpoint) : e.connectionDestroyed.calls = e.calls := by
  unfold connectionDestroyed
  split <;> rfl

/-- No call is taken back. -/
theorem calls_step (e : Endpoint) (l : ConnStep) : e.calls <+: (e.step l).calls := by
  cases l with
  | send inLoopThread message w =>
    show e.calls <+: (e.send inLoopThread message w).calls
    unfold send
    split_ifs
    · exact calls_sendInLoop { e with sent := e.sent ++ [message] } message w
    · exact List.prefix_refl _
    · exact List.prefix_refl _
  | shutdown inLoopThread =>
    show e.calls <+: (e.shutdown inLoopThread).calls
    unfold shutdown
    split_ifs
    · exact calls_shutdownInLoop (e.setState .kDisconnecting)
    · exact List.prefix_refl _
    · exact List.prefix_refl _
  | handleRead r =>
    cases r with
    | data bs => exact List.prefix_refl _
    | eof => exact List.prefix_refl _
    | error => exact List.prefix_refl _
  | handleWrite w => exact calls_handleWrite e w
  | handleClose => exact List.prefix_refl _
  | doPendingFunctor w =>
    show e.calls <+: (e.doPendingFunctor w).calls
    unfold doPendingFunctor
    split
    · exact List.prefix_refl _
    · next f fs _ =>
      cases f with
      | sendInLoop message => exact calls_sendInLoop { e with pendingFunctors_ := fs } message w
      | shutdownInLoop => exact calls_shutdownInLoop { e with pendingFunctors_ := fs }
      | writeComplete => exact List.prefix_refl _
  | connectionDestroyed =>
    rw [step, calls_connectionDestroyed]

end Endpoint

namespace Peered

theorem calls_poll (s : Polled) (l : PolledStep) : s.conn.calls <+: (s.next l).conn.calls := by
  cases l with
  | handleEvent revents => exact List.prefix_refl _
  | closeCallback => exact List.prefix_refl _
  | errorCallback => exact List.prefix_refl _
  | readCallback r =>
    cases r with
    | data bs => exact List.prefix_refl _
    | eof => exact List.prefix_refl _
    | error => exact List.prefix_refl _
  | writeCallback w => exact Endpoint.calls_handleWrite s.conn w
  | call l => exact Endpoint.calls_step s.conn l

theorem polled_next_poll (s : Peered) (l : PolledStep) :
    (s.next (.poll l)).polled = s.polled.next l := by
  simp only [next]
  split <;> rfl

theorem calls_next (s : Peered) (l : PeeredStep) :
    s.polled.conn.calls <+: (s.next l).polled.conn.calls := by
  cases l with
  | peerSends bytes kept => exact List.prefix_refl _
  | peerCloses => exact List.prefix_refl _
  | poll l =>
    rw [polled_next_poll]
    exact calls_poll s.polled l

theorem calls_run (s : Peered) (ls : List PeeredStep) :
    s.polled.conn.calls <+: (peered.run s ls).polled.conn.calls := by
  induction ls generalizing s with
  | nil => exact List.prefix_refl _
  | cons l ls ih => exact (calls_next s l).trans (ih (s.next l))

/-! ## The directions -/

/-- `Socket::shutdownWrite` was invoked. -/
def ShutDown (s : Peered) : Prop := 0 < Endpoint.shutdownWrites s.polled.conn.calls

instance (s : Peered) : Decidable s.ShutDown := inferInstanceAs (Decidable (_ < _))

/-- The sending side is closed, the receiving side is not: nothing the
    peer sent is lost, and the connection is closed only behind the
    peer's close. -/
structure HalfClosed (s : Peered) : Prop where
  sending : s.directions.sending = false
  receiving : s.directions.receiving = true
  delivered : s.delivered ++ s.queue = s.peerSent
  closes : ∀ peerClosed ∈ s.closes, peerClosed = true

/-- **The wrong side is closed**, as soon as `shutdownWrite` was invoked. -/
theorem directions_eq (calls : List SocketCall) :
    TinyWS.directions calls =
      if 0 < Endpoint.shutdownWrites calls then ⟨false, true⟩ else ⟨true, true⟩ := by
  have hfold : ∀ d : Directions, d.sending = true →
      calls.foldl
        (fun d c =>
          match c with
          | .write _ => d
          | .shutdownWrite _ _ => Socket.shutdownWrite d) d =
        if 0 < Endpoint.shutdownWrites calls then ⟨false, true⟩ else d := by
    induction calls with
    | nil => intro d _; rfl
    | cons c cs ih =>
      intro d hd
      cases c with
      | write taken => exact ih d hd
      | shutdownWrite state unsent =>
        rw [List.foldl_cons, ih _ (by simpa [Socket.shutdownWrite, Directions.shutdown] using hd)]
        have hpos : 0 < Endpoint.shutdownWrites (.shutdownWrite state unsent :: cs) := by
          simp [Endpoint.shutdownWrites]
        rw [if_pos hpos]
        split
        · rfl
        · simp [Socket.shutdownWrite, Directions.shutdown, hd]
  exact hfold ⟨true, true⟩ rfl

theorem ShutDown.directions {s : Peered} (h : s.ShutDown) : s.directions = ⟨false, true⟩ := by
  have hpos : 0 < Endpoint.shutdownWrites s.polled.conn.calls := h
  rw [Peered.directions, directions_eq, if_pos hpos]

/-- It stays closed. -/
theorem ShutDown.run {s : Peered} (h : s.ShutDown) (ls : List PeeredStep) :
    (peered.run s ls).ShutDown := by
  obtain ⟨rest, hrest⟩ := calls_run s ls
  rw [ShutDown, ← hrest, Endpoint.shutdownWrites, List.countP_append]
  exact Nat.lt_of_lt_of_le h (Nat.le_add_right _ _)

/-- A read of an empty queue is a spurious end of the stream. -/
theorem ShutDown.readCallback {s : Peered} (h : s.ShutDown) (hqueue : s.queue = [])
    {r : ReadResult} (hguard : s.guard (.poll (.readCallback r))) :
    r = .eof ∧ (s.next (.poll (.readCallback r))).closes = s.closes ++ [s.peerClosed] ∧
      (s.next (.poll (.readCallback r))).polled.conn.state_ = .kDisconnected := by
  have hend : s.AtEnd := ⟨hqueue, Or.inr (by rw [h.directions])⟩
  have hread : s.mayRead r := hguard.2
  cases r with
  | data bs =>
    -- there is nothing to deliver
    obtain ⟨hne, hprefix⟩ := hread
    rw [hqueue, List.prefix_nil] at hprefix
    exact absurd hprefix hne
  | eof => exact ⟨rfl, rfl, rfl⟩
  | error => exact absurd hend hread

/-- **Half-close never keeps receiving**: in every run in which
    `shutdownWrite` has been invoked the sending side is open and the
    receiving side is closed from then on, and whenever the channel reads
    an empty queue `handleClose` is entered, whether or not the peer has
    closed. -/
theorem not_halfClosed (name : String) (loop : LoopId) (self : ChannelPtr) (fd : Int)
    (writeComplete : Bool) (epoll : Epoll) {pre : List PeeredStep} (post : List PeeredStep)
    (hshut : (peered.run (established name loop self fd writeComplete epoll) pre).ShutDown) :
    let s := peered.run (established name loop self fd writeComplete epoll) (pre ++ post)
    ¬ s.HalfClosed ∧ s.directions = ⟨false, true⟩ ∧
      ∀ r, s.queue = [] → peered.guard s (.poll (.readCallback r)) →
        r = .eof ∧ (peered.next s (.poll (.readCallback r))).closes = s.closes ++ [s.peerClosed] ∧
          (peered.next s (.poll (.readCallback r))).polled.conn.state_ = .kDisconnected := by
  intro s
  have h : s.ShutDown := by
    show (peered.run _ (pre ++ post)).ShutDown
    rw [Machine.run_append]
    exact hshut.run post
  refine ⟨fun hhalf => ?_, h.directions, fun r hqueue hguard => h.readCallback hqueue hguard⟩
  have hreceiving := hhalf.receiving
  rw [h.directions] at hreceiving
  cases hreceiving

/-- A shutdown in the loop thread, and bytes of the peer behind it. -/
theorem not_halfClosed_bytes :
    let pre : List PeeredStep := [.poll (.call (.shutdown true))]
    let post : List PeeredStep := [.peerSends (bytes "a") true]
    let s := peered.run (established "c" 0 0 5 false Epoll.new) (pre ++ post)
    ¬ s.HalfClosed ∧ s.directions = ⟨false, true⟩ ∧
      ∀ r, s.queue = [] → peered.guard s (.poll (.readCallback r)) →
        r = .eof ∧ (peered.next s (.poll (.readCallback r))).closes = s.closes ++ [s.peerClosed] ∧
          (peered.next s (.poll (.readCallback r))).polled.conn.state_ = .kDisconnected :=
  not_halfClosed "c" 0 0 5 false Epoll.new _ (by decide +kernel)

/-- A shutdown, and the read event it causes: the connection is closed,
    although the peer has not closed, and what the peer sends is not
    delivered. -/
theorem not_halfClosed_early :
    let ls : List PeeredStep := [.poll (.call (.shutdown true)),
      .poll (.handleEvent (Channel.EPOLLIN ||| Channel.EPOLLRDHUP)), .poll (.readCallback .eof),
      .peerSends (bytes "a") false]
    let s := peered.run (established "c" 0 0 5 false Epoll.new) ls
    peered.Valid (established "c" 0 0 5 false Epoll.new) ls ∧ s.ShutDown ∧
      s.closes = [false] ∧ s.delivered ++ s.queue ≠ s.peerSent ∧ ¬ s.HalfClosed := by
  refine ⟨by decide +kernel, by decide +kernel, by decide +kernel, by decide +kernel, fun h => ?_⟩
  exact absurd h.receiving (by decide +kernel)

end Peered

end TinyWS
