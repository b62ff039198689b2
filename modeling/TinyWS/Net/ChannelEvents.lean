import TinyWS.Net.TcpConnection

/-! # Channel Events

    A poll result is delivered to the channel of a connection, and
    `handleEventWithGuard` invokes one callback after the other: close,
    error, read and write.  The user's calls come in between, functors
    only when the event was handled.

    `handleClose` stops the channel, so it is entered once, with two
    exceptions.  An event with `EPOLLHUP` and without `EPOLLIN` that also
    asks for a read goes on to read after it was closed.  And a
    `sendInLoop` that runs after the close may enable the channel again. -/

namespace TinyWS

/-- The callbacks of a channel. -/
inductive EventCallback where
  | close
  | error
  | read
  | write
  deriving DecidableEq, Repr

namespace EventCallback

/-- Their order in `handleEventWithGuard`. -/
def rank : EventCallback → Nat
  | .close => 0
  | .error => 1
  | .read => 2
  | .write => 3

end EventCallback

namespace Channel

def EPOLLIN : BitVec 32 := 0x001

def EPOLLPRI : BitVec 32 := 0x002

def EPOLLOUT : BitVec 32 := 0x004

def EPOLLERR : BitVec 32 := 0x008

def EPOLLHUP : BitVec 32 := 0x010

def EPOLLRDHUP : BitVec 32 := 0x2000

/-- The peer is gone, and nothing is left to read. -/
def HangsUp (revents_ : BitVec 32) : Prop := revents_ &&& EPOLLHUP ≠ 0 ∧ revents_ &&& EPOLLIN = 0

instance (revents_ : BitVec 32) : Decidable (HangsUp revents_) :=
  inferInstanceAs (Decidable (_ ∧ _))

/-- `handleEventWithGuard`: the callbacks it invokes, in their order. -/
def handleEventWithGuard (revents_ : BitVec 32) : List EventCallback :=
  (if HangsUp revents_ then [.close] else []) ++
    (if revents_ &&& EPOLLERR ≠ 0 then [.error] else []) ++
    (if revents_ &&& (EPOLLIN ||| EPOLLPRI ||| EPOLLRDHUP) ≠ 0 then [.read] else []) ++
    (if revents_ &&& EPOLLOUT ≠ 0 then [.write] else [])

theorem mem_handleEventWithGuard_close {revents_ : BitVec 32} :
    .close ∈ handleEventWithGuard revents_ ↔ HangsUp revents_ := by
  unfold handleEventWithGuard
  split_ifs <;> simp_all

/-- No callback is invoked twice, and none before its turn. -/
theorem pairwise_handleEventWithGuard (revents_ : BitVec 32) :
    (handleEventWithGuard revents_).Pairwise fun a b => a.rank < b.rank := by
  unfold handleEventWithGuard
  split_ifs <;> decide

end Channel

/-- A connection and the poll results delivered to its channel. -/
structure Polled where
  conn : Endpoint
  revents_ : BitVec 32
  /-- The callbacks `handleEventWithGuard` has still to invoke. -/
  todo : List EventCallback
  /-- History: `state_` at each entry of `handleClose`. -/
  entered : List StateE

inductive PolledStep where
  /-- A poll result reaches the channel. -/
  | handleEvent (revents : BitVec 32)
  | closeCallback
  | errorCallback
  | readCallback (r : ReadResult)
  | writeCallback (w : WriteResult)
  /-- A call of the user, or a functor. -/
  | call (l : ConnStep)
  deriving DecidableEq, Repr

namespace Polled

/-- A connection whose `connectionEstablished` has just run. -/
def established (name : String) (loop : LoopId) (self : ChannelPtr) (fd : Int)
    (writeComplete : Bool) (epoll : Epoll) : Polled where
  conn := Endpoint.established name loop self fd writeComplete epoll
  revents_ := 0
  todo := []
  entered := []

def handleClose (s : Polled) : Polled :=
  { s with
    conn := s.conn.handleClose
    entered := s.entered ++ [s.conn.state_] }

/-- `handleRead`, with its `handleClose`. -/
def handleRead (s : Polled) (r : ReadResult) : Polled :=
  match r with
  | .eof => s.handleClose
  | .data _ | .error => { s with conn := s.conn.handleRead r }

def next (s : Polled) : PolledStep → Polled
  | .handleEvent revents =>
      { s with
        revents_ := revents
        todo := Channel.handleEventWithGuard revents }
  | .closeCallback => { s.handleClose with todo := s.todo.tail }
  -- `handleError` only writes to the log
  | .errorCallback => { s with todo := s.todo.tail }
  | .readCallback r => { s.handleRead r with todo := s.todo.tail }
  | .writeCallback w => { s with conn := s.conn.handleWrite w, todo := s.todo.tail }
  | .call l => { s with conn := s.conn.step l }

/-- Functors run between events, and the event callbacks are no calls. -/
def mayCall (s : Polled) : ConnStep → Prop
  | .send _ _ _ | .shutdown _ => True
  | .doPendingFunctor _ | .connectionDestroyed => s.todo = []
  | .handleRead _ | .handleWrite _ | .handleClose => False

instance (s : Polled) : DecidablePred s.mayCall
  | .send _ _ _ | .shutdown _ => isTrue trivial
  | .doPendingFunctor _ | .connectionDestroyed => inferInstanceAs (Decidable (s.todo = []))
  | .handleRead _ | .handleWrite _ | .handleClose => isFalse id

def guard (s : Polled) : PolledStep → Prop
  -- the channel is in the interest set
  | .handleEvent _ => s.todo = [] ∧ s.conn.channel_.statusInEpoll_ = .kAdded
  | .closeCallback => s.todo.head? = some .close
  | .errorCallback => s.todo.head? = some .error
  | .readCallback _ => s.todo.head? = some .read
  | .writeCallback _ => s.todo.head? = some .write
  | .call l => s.mayCall l

instance (s : Polled) : DecidablePred s.guard
  | .handleEvent _ =>
      inferInstanceAs (Decidable (s.todo = [] ∧ s.conn.channel_.statusInEpoll_ = .kAdded))
  | .closeCallback => inferInstanceAs (Decidable (s.todo.head? = some .close))
  | .errorCallback => inferInstanceAs (Decidable (s.todo.head? = some .error))
  | .readCallback _ => inferInstanceAs (Decidable (s.todo.head? = some .read))
  | .writeCallback _ => inferInstanceAs (Decidable (s.todo.head? = some .write))
  | .call l => inferInstanceAs (Decidable (s.mayCall l))

/-- `handleClose` was entered at most once and in a state its assert
    allows, and invoked `closeCallback_` each time. -/
structure ClosesOnce (s : Polled) : Prop where
  once : s.entered.length ≤ 1
  states : ∀ st ∈ s.entered, st = .kConnected ∨ st = .kDisconnecting
  closeCalls : s.conn.closeCalls = s.entered.length

/-- A closed connection waits for write events again. -/
def Reopened (s : Polled) : Prop :=
  s.conn.state_ = .kDisconnected ∧ s.conn.channel_.isWriting = true

instance (s : Polled) : Decidable s.Reopened := inferInstanceAs (Decidable (_ ∧ _))

/-- No close and no end of the stream reaches a reopened channel, and no
    end of the stream is read in an event that hung up. -/
def Orderly (s : Polled) : PolledStep → Prop
  | .closeCallback => ¬ s.Reopened
  | .readCallback .eof => ¬ s.Reopened ∧ ¬ Channel.HangsUp s.revents_
  | _ => True

instance (s : Polled) : DecidablePred s.Orderly
  | .closeCallback => inferInstanceAs (Decidable (¬ s.Reopened))
  | .readCallback .eof =>
      inferInstanceAs (Decidable (¬ s.Reopened ∧ ¬ Channel.HangsUp s.revents_))
  | .readCallback (.data _) | .readCallback .error | .handleEvent _ | .errorCallback
  | .writeCallback _ | .call _ => isTrue trivial

end Polled

/-- Poll results, callbacks, calls and functors of one connection. -/
def polled : Machine Polled PolledStep where
  guard := Polled.guard
  next := Polled.next

instance (s : Polled) (l : PolledStep) : Decidable (polled.guard s l) :=
  inferInstanceAs (Decidable (s.guard l))

/-! ## What the channel waits for -/

namespace Channel

variable (ch : Channel) (ep : Epoll)

theorem status_enableWriting : (ch.enableWriting ep).2.statusInEpoll_ = .kAdded := by
  have hsome : (ch.events_ ||| kWriteEvent == kNoneEvent) = false := by
    rw [beq_eq_false_iff_ne]
    intro h
    have hwriting := ch.isWriting_enableWriting ep
    rw [isWriting, enableWriting, update_events, h] at hwriting
    simp [kNoneEvent] at hwriting
  simp only [enableWriting, update, Epoll.updateChannel]
  split
  · rfl
  · rfl
  · simp only [isNoneEvent, hsome, Bool.false_eq_true, if_false]
    assumption

@[simp] theorem events_enableWriting :
    (ch.enableWriting ep).2.events_ = ch.events_ ||| kWriteEvent := update_events _ ep

@[simp] theorem events_disableWriting :
    (ch.disableWriting ep).2.events_ = ch.events_ &&& ~~~kWriteEvent := update_events _ ep

@[simp] theorem events_disableAll : (ch.disableAll ep).2.events_ = kNoneEvent :=
  update_events _ ep

/-- A channel that waits for nothing leaves the interest set. -/
theorem status_update_none {events : BitVec 32} (hevents : events = kNoneEvent)
    (h : ch.statusInEpoll_ = .kAdded) :
    (update { ch with events_ := events } ep).2.statusInEpoll_ = .kDeleted := by
  subst hevents
  simp [update, Epoll.updateChannel, h, isNoneEvent]

end Channel

namespace Endpoint

/-- An open connection waits for reads; a closed one waits for nothing, or
    was reopened and waits for writes only. -/
def Interest (e : Endpoint) : Prop :=
  if e.state_ = .kDisconnected then
    e.channel_.events_ = Channel.kNoneEvent ∧ e.channel_.statusInEpoll_ ≠ .kAdded ∨
      e.channel_.events_ = Channel.kWriteEvent
  else
    e.channel_.events_ = Channel.kReadEvent ∨
      e.channel_.events_ = Channel.kReadEvent ||| Channel.kWriteEvent

theorem interest_congr {e e' : Endpoint} (hstate : e'.state_ = e.state_)
    (hchannel : e'.channel_ = e.channel_) : e'.Interest ↔ e.Interest := by
  rw [Interest, Interest, hstate, hchannel]

theorem interest_closed {e : Endpoint} (hs : e.state_ = .kDisconnected) :
    e.Interest ↔
      e.channel_.events_ = Channel.kNoneEvent ∧ e.channel_.statusInEpoll_ ≠ .kAdded ∨
        e.channel_.events_ = Channel.kWriteEvent := by
  rw [Interest, if_pos hs]

theorem interest_open {e : Endpoint} (hs : e.state_ ≠ .kDisconnected) :
    e.Interest ↔
      e.channel_.events_ = Channel.kReadEvent ∨
        e.channel_.events_ = Channel.kReadEvent ||| Channel.kWriteEvent := by
  rw [Interest, if_neg hs]

theorem channel_queueWriteComplete (e : Endpoint) : e.queueWriteComplete.channel_ = e.channel_ := by
  unfold queueWriteComplete
  split
  · rfl
  · rfl

theorem channel_shutdownInLoop (e : Endpoint) : e.shutdownInLoop.channel_ = e.channel_ := by
  unfold shutdownInLoop
  split
  · rfl
  · rfl

/-- `sendInLoop` enables writing or leaves the channel alone. -/
theorem channel_sendInLoop (e : Endpoint) (message : Bytes) (w : WriteResult) :
    (e.sendInLoop message w).channel_ = e.channel_ ∨
      e.channel_.isWriting = false ∧
        ∃ ep, (e.sendInLoop message w).channel_ = (e.channel_.enableWriting ep).2 := by
  by_cases hbusy : e.channel_.isWriting = true
  · left
    simp [sendInLoop, hbusy]
  have hw : e.channel_.isWriting = false := Bool.eq_false_iff.mpr hbusy
  simp only [sendInLoop]
  split_ifs
  · -- all was taken, and yet bytes are left: it waits already
    exact Or.inl (channel_queueWriteComplete _)
  · exact Or.inr ⟨hw, _, by rw [enableWriting, channel_queueWriteComplete]; rfl⟩
  · exact Or.inl rfl
  · exact Or.inr ⟨hw, _, rfl⟩
  · exact Or.inl (channel_queueWriteComplete _)
  · exact Or.inl rfl
  · exact Or.inl rfl

/-- `handleWrite` disables writing when it has drained the buffer, or
    leaves the channel alone. -/
theorem channel_handleWrite (e : Endpoint) (w : WriteResult) :
    (e.handleWrite w).channel_ = e.channel_ ∨
      e.channel_.isWriting = true ∧
        ∃ ep, (e.handleWrite w).channel_ = (e.channel_.disableWriting ep).2 := by
  by_cases hw : e.channel_.isWriting = true
  swap
  · rw [handleWrite, if_neg hw]
    exact Or.inl rfl
  simp only [handleWrite, if_pos hw]
  split_ifs
  · exact Or.inr ⟨hw, _, (channel_shutdownInLoop _).trans (channel_queueWriteComplete _)⟩
  · exact Or.inr ⟨hw, _, channel_queueWriteComplete _⟩
  · exact Or.inl rfl
  · exact Or.inl rfl

theorem interest_sendInLoop {e : Endpoint} (h : e.Interest) (message : Bytes) (w : WriteResult) :
    (e.sendInLoop message w).Interest := by
  have hstate := (sameLife_sendInLoop e message w).state_
  rcases channel_sendInLoop e message w with hchannel | ⟨hw, ep, hchannel⟩
  · exact (interest_congr hstate hchannel).mpr h
  by_cases hs : e.state_ = .kDisconnected
  · rw [interest_closed (hstate.trans hs), hchannel]
    right
    rcases (interest_closed hs).mp h with ⟨hev, -⟩ | hev
    · rw [Channel.events_enableWriting, hev]
      decide
    · rw [Channel.events_enableWriting, hev]
      decide
  · rw [interest_open (hstate ▸ hs), hchannel]
    right
    rcases (interest_open hs).mp h with hev | hev
    · rw [Channel.events_enableWriting, hev]
    · rw [Channel.events_enableWriting, hev]
      decide

/-- A closed connection that drains its buffer stops its channel, as it
    stands in the interest set. -/
theorem interest_handleWrite {e : Endpoint} (h : e.Interest)
    (hadded : e.channel_.isWriting = true → e.channel_.statusInEpoll_ = .kAdded)
    (w : WriteResult) : (e.handleWrite w).Interest := by
  have hstate := (sameLife_handleWrite e w).state_
  rcases channel_handleWrite e w with hchannel | ⟨hw, ep, hchannel⟩
  · exact (interest_congr hstate hchannel).mpr h
  by_cases hs : e.state_ = .kDisconnected
  · rw [interest_closed (hstate.trans hs), hchannel]
    rcases (interest_closed hs).mp h with ⟨hev, hnot⟩ | hev
    · exact absurd (hadded hw) hnot
    · have hnone : e.channel_.events_ &&& ~~~Channel.kWriteEvent = Channel.kNoneEvent := by
        rw [hev]
        decide
      left
      refine ⟨by rw [Channel.events_disableWriting, hnone], ?_⟩
      rw [Channel.disableWriting, Channel.status_update_none _ _ hnone (hadded hw)]
      decide
  · rw [interest_open (hstate ▸ hs), hchannel]
    left
    rcases (interest_open hs).mp h with hev | hev
    · rw [Channel.events_disableWriting, hev]
      decide
    · rw [Channel.events_disableWriting, hev]
      decide

/-- A connection that is closed for the first time leaves the interest
    set. -/
theorem interest_handleClose {e : Endpoint} (hadded : e.channel_.statusInEpoll_ = .kAdded) :
    e.handleClose.Interest := by
  refine (interest_closed rfl).mpr (Or.inl ⟨Channel.events_disableAll _ _, ?_⟩)
  have hstatus : e.handleClose.channel_.statusInEpoll_ = .kDeleted :=
    Channel.status_update_none e.channel_ e.epoll_ rfl hadded
  rw [hstatus]
  decide

/-- `connectionDestroyed` may close the connection, without `closeCallback_`. -/
theorem connectionDestroyed_frame (e : Endpoint) :
    (e.connectionDestroyed.state_ = .kDisconnected ∨ e.connectionDestroyed.state_ = e.state_) ∧
      e.connectionDestroyed.closeCalls = e.closeCalls := by
  unfold connectionDestroyed
  split
  · exact ⟨Or.inl rfl, rfl⟩
  · exact ⟨Or.inr rfl, rfl⟩

theorem interest_connectionDestroyed {e : Endpoint} (h : e.Interest) :
    e.connectionDestroyed.Interest := by
  have hremove : ∀ e : Endpoint, e.remove.channel_.events_ = e.channel_.events_ ∧
      e.remove.channel_.statusInEpoll_ = .kNew := fun _ => ⟨rfl, rfl⟩
  unfold connectionDestroyed
  split
  next hs =>
    refine (interest_closed rfl).mpr (Or.inl ⟨?_, ?_⟩)
    · rw [(hremove _).1]
      exact Channel.events_disableAll _ _
    · rw [(hremove _).2]
      decide
  next hs =>
    by_cases hclosed : e.state_ = .kDisconnected
    · refine (interest_closed (e := e.remove) hclosed).mpr ?_
      rw [(hremove e).1, (hremove e).2]
      rcases (interest_closed hclosed).mp h with ⟨hev, -⟩ | hev
      · exact Or.inl ⟨hev, by decide⟩
      · exact Or.inr hev
    · refine (interest_open (e := e.remove) hclosed).mpr ?_
      rw [(hremove e).1]
      exact (interest_open hclosed).mp h

end Endpoint

/-! ## The invariant -/

namespace Polled

/-- Where the event stands, and what that says about the connection. -/
structure Core (s : Polled) : Prop where
  interest : s.conn.Interest
  connected : s.conn.state_ ≠ .kConnecting
  ordered : s.todo.Pairwise fun a b => a.rank < b.rank
  handling : s.todo ≠ [] →
    s.conn.state_ ≠ .kDisconnected ∨ s.conn.channel_.isWriting = true →
      s.conn.channel_.statusInEpoll_ = .kAdded
  /-- The close callback is due: then the event hangs up. -/
  hangsUp : .close ∈ s.todo → Channel.HangsUp s.revents_
  /-- It was invoked: then the connection is closed. -/
  hungUp : Channel.HangsUp s.revents_ → .close ∉ s.todo → s.todo ≠ [] →
    s.conn.state_ = .kDisconnected
  closing : .close ∈ s.todo → s.conn.state_ = .kDisconnected → s.Reopened
  reading : .read ∈ s.todo → s.conn.state_ = .kDisconnected →
    s.Reopened ∨ Channel.HangsUp s.revents_
  entered : s.entered ≠ [] → s.conn.state_ = .kDisconnected
  closesOnce : s.ClosesOnce

theorem todo_ne_nil {s : Polled} {c : EventCallback} {rest : List EventCallback}
    (htodo : s.todo = c :: rest) : s.todo ≠ [] := by
  rw [htodo]
  exact List.cons_ne_nil c rest

theorem rank_lt_of_ordered {s : Polled} (h : s.Core) {c : EventCallback}
    {rest : List EventCallback} (htodo : s.todo = c :: rest) :
    (∀ x ∈ rest, c.rank < x.rank) ∧ rest.Pairwise fun a b => a.rank < b.rank := by
  have hordered := h.ordered
  rw [htodo] at hordered
  exact List.pairwise_cons.mp hordered

/-- After its turn the close callback is not due again. -/
theorem close_notMem {s : Polled} (h : s.Core) {c : EventCallback} {rest : List EventCallback}
    (htodo : s.todo = c :: rest) : .close ∉ rest :=
  fun hmem => absurd ((rank_lt_of_ordered h htodo).1 _ hmem) (Nat.not_lt_zero _)

theorem core_established (name : String) (loop : LoopId) (self : ChannelPtr) (fd : Int)
    (writeComplete : Bool) (epoll : Epoll) :
    (established name loop self fd writeComplete epoll).Core := by
  refine ⟨?_, fun h => ?_, List.Pairwise.nil, fun h => absurd rfl h, fun h => ?_,
    fun _ _ h => absurd rfl h, fun h => ?_, fun h => ?_, fun h => absurd rfl h, ?_⟩
  · have hopen : (established name loop self fd writeComplete epoll).conn.state_ ≠
        .kDisconnected := by
      intro h
      cases h
    refine (Endpoint.interest_open hopen).mpr (Or.inl ?_)
    show ((Channel.new self fd).enableReading epoll).2.events_ = Channel.kReadEvent
    rw [Channel.enableReading, Channel.update_events]
    show Channel.kNoneEvent ||| Channel.kReadEvent = Channel.kReadEvent
    decide
  · cases h
  · cases h
  · cases h
  · cases h
  · refine ⟨Nat.zero_le 1, fun st hst => ?_, rfl⟩
    cases hst

/-- A poll result reaches a channel in the interest set. -/
theorem core_handleEvent {s : Polled} (h : s.Core) {revents : BitVec 32}
    (hguard : s.guard (.handleEvent revents)) : (s.next (.handleEvent revents)).Core := by
  obtain ⟨-, hadded⟩ := hguard
  -- a closed connection is there only if it was reopened
  have hreopened : s.conn.state_ = .kDisconnected → s.Reopened := by
    intro hs
    refine ⟨hs, ?_⟩
    rcases (Endpoint.interest_closed hs).mp h.interest with ⟨-, hnot⟩ | hev
    · exact absurd hadded hnot
    · rw [Channel.isWriting, hev]
      decide
  refine ⟨h.interest, h.connected, Channel.pairwise_handleEventWithGuard revents, fun _ _ => hadded,
    Channel.mem_handleEventWithGuard_close.mp, fun hup hclose _ => ?_, fun _ => hreopened,
    fun _ hs => Or.inl (hreopened hs), h.entered, ?_⟩
  · exact absurd (Channel.mem_handleEventWithGuard_close.mpr hup) hclose
  · exact ⟨h.closesOnce.once, h.closesOnce.states, h.closesOnce.closeCalls⟩

/-- A callback that closes nothing. -/
theorem core_pop {s : Polled} (h : s.Core) {c : EventCallback} {rest : List EventCallback}
    (htodo : s.todo = c :: rest) (hc : c ≠ .close) {conn : Endpoint}
    (hstate : conn.state_ = s.conn.state_) (hchannel : conn.channel_ = s.conn.channel_)
    (hcalls : conn.closeCalls = s.conn.closeCalls) :
    { s with conn := conn, todo := rest }.Core := by
  have hmem : ∀ x ∈ rest, x ∈ s.todo := by
    intro x hx
    rw [htodo]
    exact List.mem_cons_of_mem c hx
  have hne := todo_ne_nil htodo
  have hreopened : s.Reopened → { s with conn := conn, todo := rest }.Reopened := by
    rintro ⟨hs, hw⟩
    exact ⟨hstate.trans hs, by rw [hchannel, hw]⟩
  refine ⟨(Endpoint.interest_congr hstate hchannel).mpr h.interest, ?_,
    (rank_lt_of_ordered h htodo).2, fun _ => ?_, fun hclose => h.hangsUp (hmem _ hclose),
    fun hup _ _ => ?_, fun hclose hs => ?_, fun hread hs => ?_, fun hentered => ?_,
    ⟨h.closesOnce.once, h.closesOnce.states, hcalls.trans h.closesOnce.closeCalls⟩⟩
  · show conn.state_ ≠ _
    rw [hstate]
    exact h.connected
  · show conn.state_ ≠ _ ∨ conn.channel_.isWriting = true → conn.channel_.statusInEpoll_ = _
    rw [hstate, hchannel]
    exact h.handling hne
  · refine hstate.trans (h.hungUp hup (fun hclose => ?_) hne)
    rw [htodo] at hclose
    rcases List.mem_cons.mp hclose with hclose | hclose
    · exact hc hclose.symm
    · exact close_notMem h htodo hclose
  · exact hreopened (h.closing (hmem _ hclose) (hstate ▸ hs))
  · exact (h.reading (hmem _ hread) (hstate ▸ hs)).imp hreopened id
  · exact hstate.trans (h.entered hentered)

/-- The first `handleClose`. -/
theorem core_handleClose {s : Polled} (h : s.Core) {c : EventCallback} {rest : List EventCallback}
    (htodo : s.todo = c :: rest) (hc : c = .close ∨ c = .read)
    (hopen : s.conn.state_ ≠ .kDisconnected) : { s.handleClose with todo := rest }.Core := by
  have hne := todo_ne_nil htodo
  have hclose := close_notMem h htodo
  have hfirst : s.entered = [] := by
    by_contra hentered
    exact hopen (h.entered hentered)
  have hwriting : s.conn.handleClose.channel_.isWriting = false := Channel.isWriting_disableAll _ _
  refine ⟨Endpoint.interest_handleClose (h.handling hne (Or.inl hopen)), ?_,
    (rank_lt_of_ordered h htodo).2, fun _ hor => ?_, fun hmem => absurd hmem hclose,
    fun _ _ _ => rfl, fun hmem => absurd hmem hclose, fun hread _ => ?_, fun _ => rfl, ?_⟩
  · show StateE.kDisconnected ≠ .kConnecting
    decide
  · rcases hor with hs | hw
    · exact absurd rfl hs
    · exact absurd hw (by simp [handleClose, hwriting])
  · right
    rcases hc with rfl | rfl
    · exact h.hangsUp (by simp [htodo])
    · -- the read callback has had its turn
      exact absurd ((rank_lt_of_ordered h htodo).1 _ hread) (Nat.lt_irrefl _)
  · refine ⟨?_, fun st hst => ?_, ?_⟩
    · show (s.entered ++ [s.conn.state_]).length ≤ 1
      rw [hfirst]
      exact Nat.le_refl 1
    · change st ∈ s.entered ++ [s.conn.state_] at hst
      rw [hfirst, List.nil_append, List.mem_singleton] at hst
      rw [hst]
      have hconnected := h.connected
      cases hs : s.conn.state_ with
      | kConnected => exact Or.inl rfl
      | kDisconnecting => exact Or.inr rfl
      | kDisconnected => exact absurd hs hopen
      | kConnecting => exact absurd hs hconnected
    · show s.conn.closeCalls + 1 = (s.entered ++ [s.conn.state_]).length
      rw [h.closesOnce.closeCalls, List.length_append, List.length_singleton]

theorem core_writeCallback {s : Polled} (h : s.Core) {rest : List EventCallback}
    (htodo : s.todo = .write :: rest) (w : WriteResult) :
    { s with conn := s.conn.handleWrite w, todo := rest }.Core := by
  -- nothing comes after it
  have hrest : rest = [] := by
    rw [List.eq_nil_iff_forall_not_mem]
    intro x hx
    have hrank := (rank_lt_of_ordered h htodo).1 x hx
    cases x <;> simp [EventCallback.rank] at hrank
  have hne := todo_ne_nil htodo
  have hlife := Endpoint.sameLife_handleWrite s.conn w
  subst hrest
  refine ⟨Endpoint.interest_handleWrite h.interest (fun hw => h.handling hne (Or.inr hw)) w, ?_,
    List.Pairwise.nil, fun hn => absurd rfl hn, fun hmem => ?_, fun _ _ hn => absurd rfl hn,
    fun hmem => ?_, fun hmem => ?_, fun hentered => ?_,
    ⟨h.closesOnce.once, h.closesOnce.states, hlife.closeCalls.trans h.closesOnce.closeCalls⟩⟩
  · show (s.conn.handleWrite w).state_ ≠ _
    rw [hlife.state_]
    exact h.connected
  · cases hmem
  · cases hmem
  · cases hmem
  · exact hlife.state_.trans (h.entered hentered)

/-- A call that leaves a closed connection alone while an event is handled,
    and does not close an open one then. -/
theorem core_call {s : Polled} (h : s.Core) {conn : Endpoint} (hinterest : conn.Interest)
    (hconnected : conn.state_ ≠ .kConnecting)
    (hclosed : s.conn.state_ = .kDisconnected → conn.state_ = .kDisconnected)
    (hsame : s.todo ≠ [] → s.conn.state_ = .kDisconnected → conn.channel_ = s.conn.channel_)
    (hopen : s.todo ≠ [] → s.conn.state_ ≠ .kDisconnected →
      conn.state_ ≠ .kDisconnected ∧ conn.channel_.statusInEpoll_ = .kAdded)
    (hcalls : conn.closeCalls = s.conn.closeCalls) : { s with conn := conn }.Core := by
  have hreopened : s.todo ≠ [] → s.Reopened → { s with conn := conn }.Reopened := by
    rintro hne ⟨hs, hw⟩
    exact ⟨hclosed hs, by rw [hsame hne hs, hw]⟩
  have hbefore : s.todo ≠ [] → conn.state_ = .kDisconnected → s.conn.state_ = .kDisconnected := by
    intro hne hs
    by_contra hn
    exact (hopen hne hn).1 hs
  refine ⟨hinterest, hconnected, h.ordered, fun hne hor => ?_, h.hangsUp,
    fun hup hclose hne => hclosed (h.hungUp hup hclose hne), fun hclose hs => ?_,
    fun hread hs => ?_, fun hentered => hclosed (h.entered hentered),
    ⟨h.closesOnce.once, h.closesOnce.states, hcalls.trans h.closesOnce.closeCalls⟩⟩
  · by_cases hs : s.conn.state_ = .kDisconnected
    · show conn.channel_.statusInEpoll_ = .kAdded
      rw [hsame hne hs]
      refine h.handling hne (Or.inr ?_)
      rcases hor with hor | hor
      · exact absurd (hclosed hs) hor
      · rw [← hsame hne hs]
        exact hor
    · exact (hopen hne hs).2
  · have hne : s.todo ≠ [] := List.ne_nil_of_mem hclose
    exact hreopened hne (h.closing hclose (hbefore hne hs))
  · have hne : s.todo ≠ [] := List.ne_nil_of_mem hread
    exact (h.reading hread (hbefore hne hs)).imp (hreopened hne) id

/-- `send` does something only while the connection is open. -/
theorem core_send {s : Polled} (h : s.Core) (inLoopThread : Bool) (message : Bytes)
    (w : WriteResult) : { s with conn := s.conn.send inLoopThread message w }.Core := by
  unfold Endpoint.send
  split
  next hs =>
    have hopen : s.conn.state_ ≠ .kDisconnected := by
      rw [hs]
      decide
    cases inLoopThread with
    | false =>
      exact core_call h h.interest h.connected (fun hc => hc) (fun _ _ => rfl)
        (fun hne hn => ⟨hn, h.handling hne (Or.inl hn)⟩) rfl
    | true =>
      have hlife := Endpoint.sameLife_sendInLoop
        { s.conn with sent := s.conn.sent ++ [message] } message w
      have hinterest : Endpoint.Interest { s.conn with sent := s.conn.sent ++ [message] } :=
        h.interest
      refine core_call h (Endpoint.interest_sendInLoop hinterest message w) ?_
        (fun hc => absurd hc hopen) (fun _ hc => absurd hc hopen) (fun hne _ => ⟨?_, ?_⟩)
        hlife.closeCalls
      · rw [if_pos rfl, hlife.state_]
        exact h.connected
      · rw [if_pos rfl, hlife.state_]
        exact hopen
      · rw [if_pos rfl]
        have hadded := h.handling hne (Or.inl hopen)
        rcases Endpoint.channel_sendInLoop { s.conn with sent := s.conn.sent ++ [message] }
          message w with hchannel | ⟨-, ep, hchannel⟩
        · rw [hchannel]
          exact hadded
        · rw [hchannel]
          exact Channel.status_enableWriting _ ep
  next => exact h

theorem core_shutdown {s : Polled} (h : s.Core) (inLoopThread : Bool) :
    { s with conn := s.conn.shutdown inLoopThread }.Core := by
  unfold Endpoint.shutdown
  split
  next hs =>
    have hopen : s.conn.state_ ≠ .kDisconnected := by
      rw [hs]
      decide
    have hsetState : (s.conn.setState .kDisconnecting).state_ ≠ .kDisconnected := by
      intro hs
      cases hs
    have hinterest : (s.conn.setState .kDisconnecting).Interest :=
      (Endpoint.interest_open hsetState).mpr ((Endpoint.interest_open hopen).mp h.interest)
    have hdisconnecting : ∀ conn : Endpoint, conn.state_ = .kDisconnecting →
        conn.channel_ = s.conn.channel_ → conn.closeCalls = s.conn.closeCalls →
        { s with conn := conn }.Core := by
      intro conn hstate hchannel hcalls
      refine core_call h ?_ ?_ (fun hc => absurd hc hopen) (fun _ hc => absurd hc hopen)
        (fun hne _ => ⟨?_, ?_⟩) hcalls
      · exact (Endpoint.interest_congr (e := s.conn.setState .kDisconnecting) hstate hchannel).mpr
          hinterest
      · rw [hstate]
        decide
      · rw [hstate]
        decide
      · rw [hchannel]
        exact h.handling hne (Or.inl hopen)
    cases inLoopThread with
    | false => exact hdisconnecting _ rfl rfl rfl
    | true =>
      have hlife := Endpoint.sameLife_shutdownInLoop (s.conn.setState .kDisconnecting)
      exact hdisconnecting _ hlife.state_ (Endpoint.channel_shutdownInLoop _) hlife.closeCalls
  next => exact h

/-- Functors run when no event is handled. -/
theorem core_functor {s : Polled} (h : s.Core) (hidle : s.todo = []) {conn : Endpoint}
    (hinterest : conn.Interest) (hconnected : conn.state_ ≠ .kConnecting)
    (hclosed : s.conn.state_ = .kDisconnected → conn.state_ = .kDisconnected)
    (hcalls : conn.closeCalls = s.conn.closeCalls) : { s with conn := conn }.Core :=
  core_call h hinterest hconnected hclosed (fun hne => absurd hidle hne)
    (fun hne => absurd hidle hne) hcalls

theorem core_doPendingFunctor {s : Polled} (h : s.Core) (hidle : s.todo = []) (w : WriteResult) :
    { s with conn := s.conn.doPendingFunctor w }.Core := by
  unfold Endpoint.doPendingFunctor
  split
  · exact h
  next f fs hpending =>
    have hinterest : Endpoint.Interest { s.conn with pendingFunctors_ := fs } := h.interest
    have hlife := Endpoint.sameLife_runFunctor { s.conn with pendingFunctors_ := fs } f w
    refine core_functor h hidle ?_ ?_ (fun hs => hlife.state_.trans hs) hlife.closeCalls
    · cases f with
      | sendInLoop message => exact Endpoint.interest_sendInLoop hinterest message w
      | shutdownInLoop =>
        exact (Endpoint.interest_congr hlife.state_ (Endpoint.channel_shutdownInLoop _)).mpr
          hinterest
      | writeComplete => exact hinterest
    · rw [hlife.state_]
      exact h.connected

theorem core_connectionDestroyed {s : Polled} (h : s.Core) (hidle : s.todo = []) :
    { s with conn := s.conn.connectionDestroyed }.Core := by
  obtain ⟨hstate, hcalls⟩ := Endpoint.connectionDestroyed_frame s.conn
  refine core_functor h hidle (Endpoint.interest_connectionDestroyed h.interest) ?_ ?_ hcalls
  · rcases hstate with hs | hs
    · rw [hs]
      decide
    · rw [hs]
      exact h.connected
  · intro hclosed
    rcases hstate with hs | hs
    · exact hs
    · exact hs.trans hclosed

/-! ## Whole runs -/

/-- **Step**: an orderly step keeps the invariant. -/
theorem core_next {s : Polled} (h : s.Core) {l : PolledStep} (hguard : s.guard l)
    (horderly : s.Orderly l) : (s.next l).Core := by
  cases l with
  | handleEvent revents => exact core_handleEvent h hguard
  | closeCallback =>
    obtain ⟨rest, htodo⟩ := List.head?_eq_some_iff.mp hguard
    -- orderly: the connection is not closed yet
    have hopen : s.conn.state_ ≠ .kDisconnected :=
      fun hs => horderly (h.closing (by simp [htodo]) hs)
    show { s.handleClose with todo := s.todo.tail }.Core
    rw [htodo]
    exact core_handleClose h htodo (Or.inl rfl) hopen
  | errorCallback =>
    obtain ⟨rest, htodo⟩ := List.head?_eq_some_iff.mp hguard
    show { s with todo := s.todo.tail }.Core
    rw [htodo]
    exact core_pop h htodo (by decide) rfl rfl rfl
  | readCallback r =>
    obtain ⟨rest, htodo⟩ := List.head?_eq_some_iff.mp hguard
    show { s.handleRead r with todo := s.todo.tail }.Core
    rw [htodo]
    cases r with
    | data bs => exact core_pop h htodo (by decide) rfl rfl rfl
    | error => exact core_pop h htodo (by decide) rfl rfl rfl
    | eof =>
      -- the end of the stream closes the connection, if nothing has before
      have hopen : s.conn.state_ ≠ .kDisconnected := by
        intro hs
        rcases h.reading (by simp [htodo]) hs with hre | hup
        · exact horderly.1 hre
        · exact horderly.2 hup
      exact core_handleClose h htodo (Or.inr rfl) hopen
  | writeCallback w =>
    obtain ⟨rest, htodo⟩ := List.head?_eq_some_iff.mp hguard
    show { s with conn := s.conn.handleWrite w, todo := s.todo.tail }.Core
    rw [htodo]
    exact core_writeCallback h htodo w
  | call l =>
    cases l with
    | send inLoopThread message w => exact core_send h inLoopThread message w
    | shutdown inLoopThread => exact core_shutdown h inLoopThread
    | doPendingFunctor w => exact core_doPendingFunctor h hguard w
    | connectionDestroyed => exact core_connectionDestroyed h hguard
    | handleRead r => exact hguard.elim
    | handleWrite w => exact hguard.elim
    | handleClose => exact hguard.elim

/-- A `handleClose` of a closed connection fails its assert. -/
theorem not_closesOnce_handleClose {s : Polled} (hs : s.conn.state_ = .kDisconnected)
    (rest : List EventCallback) : ¬ { s.handleClose with todo := rest }.ClosesOnce := by
  intro h
  have hmem : StateE.kDisconnected ∈ s.entered ++ [s.conn.state_] := by
    rw [hs]
    simp
  rcases h.states _ hmem with hst | hst
  · cases hst
  · cases hst

/-- A step that is not orderly enters `handleClose` a second time. -/
theorem not_closesOnce_next {s : Polled} (h : s.Core) {l : PolledStep} (hguard : s.guard l)
    (hnot : ¬ s.Orderly l) : ¬ (s.next l).ClosesOnce := by
  cases l with
  | closeCallback =>
    have hre : s.Reopened := by
      by_contra hre
      exact hnot hre
    exact not_closesOnce_handleClose hre.1 _
  | readCallback r =>
    cases r with
    | data bs => exact absurd trivial hnot
    | error => exact absurd trivial hnot
    | eof =>
      obtain ⟨rest, htodo⟩ := List.head?_eq_some_iff.mp hguard
      refine not_closesOnce_handleClose ?_ _
      by_contra hopen
      -- the close callback came before the read callback
      have hclose : .close ∉ s.todo := by
        rw [htodo]
        intro hmem
        rcases List.mem_cons.mp hmem with hmem | hmem
        · cases hmem
        · exact close_notMem h htodo hmem
      exact hnot ⟨fun hre => hopen hre.1,
        fun hup => hopen (h.hungUp hup hclose (todo_ne_nil htodo))⟩
  | handleEvent revents | errorCallback | writeCallback w | call l => exact absurd trivial hnot

/-- **When a connection is closed once**: in every run of an established
    connection, `handleClose` is entered once, in an open state, as long
    as no close and no end of the stream reaches a reopened channel and no
    end of the stream is read in an event that hung up; and no longer. -/
theorem closesOnce_iff (name : String) (loop : LoopId) (self : ChannelPtr) (fd : Int)
    (writeComplete : Bool) (epoll : Epoll) (steps : List PolledStep)
    (hvalid : polled.Valid (established name loop self fd writeComplete epoll) steps) :
    (∀ pre, pre <+: steps →
        (polled.run (established name loop self fd writeComplete epoll) pre).ClosesOnce) ↔
      polled.Along Orderly (established name loop self fd writeComplete epoll) steps := by
  refine polled.always_iff_along (fun s ls => s.Core ∧ polled.Valid s ls) ClosesOnce ?_ ?_ ?_
    ⟨core_established name loop self fd writeComplete epoll, hvalid⟩
  · exact fun s ls h => h.1.closesOnce
  · rintro s l ls ⟨h, hguard, hrest⟩ horderly
    exact ⟨core_next h hguard horderly, hrest⟩
  · rintro s l ls ⟨h, hguard, -⟩ hnot
    exact not_closesOnce_next h hguard hnot

/-- The peer closes while a message of another thread waits in the loop;
    the write takes all of it, and the connection is destroyed. -/
theorem closesOnce_iff_write :
    let steps : List PolledStep :=
      [.call (.send false [1, 2] (.wrote 0)), .handleEvent 0x5, .readCallback (.data [3]),
        .call (.send true [4, 5] (.wrote 1)), .writeCallback (.wrote 1), .handleEvent 0x1,
        .readCallback .eof, .call (.doPendingFunctor (.wrote 2)), .call .connectionDestroyed]
    ∀ pre, pre <+: steps →
      (polled.run (established "c" 0 1 7 false Epoll.new) pre).ClosesOnce :=
  (closesOnce_iff "c" 0 1 7 false Epoll.new _ (by decide +kernel)).mpr (by decide +kernel)

/-- `EPOLLHUP` and `EPOLLPRI` without `EPOLLIN`: the read callback finds the
    end of the stream of a connection that was closed a moment ago. -/
theorem not_closesOnce_hangUp :
    ¬ ∀ (name : String) (loop : LoopId) (self : ChannelPtr) (fd : Int) (writeComplete : Bool)
      (epoll : Epoll) (steps : List PolledStep),
      polled.Valid (established name loop self fd writeComplete epoll) steps →
        (polled.run (established name loop self fd writeComplete epoll) steps).ClosesOnce := by
  intro h
  have hbad := h "c" 0 1 7 false Epoll.new
    [.handleEvent (Channel.EPOLLHUP ||| Channel.EPOLLPRI), .closeCallback, .readCallback .eof]
    (by decide +kernel)
  have honce := hbad.once
  revert honce
  decide +kernel

end Polled

end TinyWS
