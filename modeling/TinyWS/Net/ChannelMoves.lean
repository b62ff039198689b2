import TinyWS.Net.ChannelEvents
import TinyWS.Net.ChannelOwners

/-! # What Owners Do to Their Channels

    An entry of `channels_` always has an owner: the channel it points to
    is owned, is on the descriptor of the entry and knows that it was added
    to the loop.  So a channel that was removed is in no entry, and may be
    destroyed.

    What any member function does to a channel is of one kind (`Moved`),
    and the books of the loop (`Accounted`) are kept by every move, by every
    new channel, and by the end of a channel that was removed. -/

namespace TinyWS

open Std

/-! ## What happens to one channel -/

namespace Channel

/-- The entries that point to the channel are on its descriptor, and are
    there only while the channel is in the loop. -/
def Entered (ep : Epoll) (ch : Channel) : Prop :=
  ∀ fd, ep.channels_[fd]? = some ch.self → fd = ch.fd_ ∧ ch.addedToLoop_ = true

/-- The channel may have been updated and removed, any number of times. -/
structure Moved (ep : Epoll) (ch : Channel) (ep' : Epoll) (ch' : Channel) : Prop where
  touches : Touches ep ch ep' ch'
  entered : Entered ep ch → Entered ep' ch'

theorem Moved.refl (ep : Epoll) (ch : Channel) : Moved ep ch ep ch :=
  ⟨.refl ep ch, fun h => h⟩

theorem Moved.trans {ep ep' ep'' : Epoll} {ch ch' ch'' : Channel}
    (h : Moved ep ch ep' ch') (h' : Moved ep' ch' ep'' ch'') : Moved ep ch ep'' ch'' :=
  ⟨h.touches.trans h'.touches, fun hentered => h'.entered (h.entered hentered)⟩

variable (ch : Channel) (ep : Epoll)

@[simp] theorem addedToLoop_update : (ch.update ep).2.addedToLoop_ = true := by
  simp only [update, Epoll.updateChannel]
  split
  · rfl
  · rfl
  · split
    · rfl
    · rfl

@[simp] theorem addedToLoop_remove : (ch.remove ep).2.addedToLoop_ = false := by
  simp only [remove, Epoll.removeChannel]

@[simp] theorem addedToLoop_retire : (ch.retire ep).2.addedToLoop_ = false :=
  addedToLoop_remove _ _

/-- `Channel::update`, with whatever events. -/
theorem moved_update (events : BitVec 32) :
    Moved ep ch (update { ch with events_ := events } ep).1
      (update { ch with events_ := events } ep).2 := by
  have htouches := touches_update ch ep events
  refine ⟨htouches, ?_⟩
  intro hentered fd hfd
  refine ⟨?_, addedToLoop_update _ _⟩
  rw [htouches.self] at hfd
  rw [htouches.fd]
  rcases htouches.entries fd _ hfd with ⟨hself, -⟩ | hold
  · exact hself
  · exact (hentered fd hold).1

theorem moved_enableReading :
    Moved ep ch (ch.enableReading ep).1 (ch.enableReading ep).2 := moved_update ch ep _

theorem moved_enableWriting :
    Moved ep ch (ch.enableWriting ep).1 (ch.enableWriting ep).2 := moved_update ch ep _

theorem moved_disableWriting :
    Moved ep ch (ch.disableWriting ep).1 (ch.disableWriting ep).2 := moved_update ch ep _

theorem moved_disableAll :
    Moved ep ch (ch.disableAll ep).1 (ch.disableAll ep).2 := moved_update ch ep _

/-- `remove` takes away the one entry that there may be. -/
theorem moved_remove : Moved ep ch (ch.remove ep).1 (ch.remove ep).2 := by
  refine ⟨⟨rfl, rfl, ?_⟩, ?_⟩
  · intro fd p hp
    exact Or.inr (remove_entries ch ep hp).2
  · intro hentered fd hfd
    obtain ⟨hne, hold⟩ := remove_entries ch ep hfd
    exact absurd (hentered fd hold).1 hne

theorem moved_retire : Moved ep ch (ch.retire ep).1 (ch.retire ep).2 :=
  (moved_disableAll ch ep).trans (moved_remove _ _)

end Channel

/-! ## The books of a loop -/

/-- Every entry of `channels_` is the channel of one owner, and the channels
    are distinct objects that were allocated. -/
structure Accounted (ep : Epoll) (owned : Nat → Option Channel) (allocated : Nat) : Prop where
  entries : ∀ fd p, ep.channels_[fd]? = some p →
    ∃ o ch, owned o = some ch ∧ ch.self = p ∧ fd = ch.fd_ ∧ ch.addedToLoop_ = true
  distinct : ∀ o o' ch ch', owned o = some ch → owned o' = some ch' → ch.self = ch'.self → o = o'
  fresh : ∀ o ch, owned o = some ch → ch.self < allocated

namespace Accounted

variable {ep ep' : Epoll} {owned : Nat → Option Channel} {allocated o : Nat} {ch ch' : Channel}

theorem mono (h : Accounted ep owned allocated) {allocated' : Nat}
    (hle : allocated ≤ allocated') : Accounted ep owned allocated' :=
  ⟨h.entries, h.distinct, fun o ch ho => Nat.lt_of_lt_of_le (h.fresh o ch ho) hle⟩

theorem entered (h : Accounted ep owned allocated) (ho : owned o = some ch) : ch.Entered ep := by
  intro fd hfd
  obtain ⟨o', ch', ho', hself, hfd', hadded⟩ := h.entries fd _ hfd
  have heq : o' = o := h.distinct o' o ch' ch ho' ho hself
  subst heq
  obtain rfl : ch' = ch := Option.some.inj (ho'.symm.trans ho)
  exact ⟨hfd', hadded⟩

/-- An owner does something to its channel. -/
theorem move (h : Accounted ep owned allocated) (ho : owned o = some ch)
    (hmoved : Channel.Moved ep ch ep' ch') :
    Accounted ep' (Function.update owned o (some ch')) allocated := by
  have hself := hmoved.touches.self
  refine ⟨?_, ?_, ?_⟩
  · intro fd p hp
    by_cases hmine : p = ch.self
    · subst hmine
      have hentry := hmoved.entered (h.entered ho) fd (by rw [hself]; exact hp)
      exact ⟨o, ch', Function.update_self .., hself, hentry⟩
    · -- the entry points to another channel: it was there before
      rcases hmoved.touches.entries fd p hp with ⟨-, hmine'⟩ | hold
      · exact absurd hmine' hmine
      obtain ⟨o', ch'', ho', hself', hentry⟩ := h.entries fd p hold
      have hne : o' ≠ o := by
        rintro rfl
        obtain rfl : ch'' = ch := Option.some.inj (ho'.symm.trans ho)
        exact hmine hself'.symm
      exact ⟨o', ch'', by rw [Function.update_of_ne hne]; exact ho', hself', hentry⟩
  · -- nobody but `o` has another channel now, and that has its old address
    have hback : ∀ q d, Function.update owned o (some ch') q = some d →
        ∃ d', owned q = some d' ∧ d'.self = d.self := by
      intro q d hq
      by_cases hqo : q = o
      · subst hqo
        rw [Function.update_self] at hq
        obtain rfl := Option.some.inj hq
        exact ⟨ch, ho, hself.symm⟩
      · rw [Function.update_of_ne hqo] at hq
        exact ⟨d, hq, rfl⟩
    intro q q' d d' hq hq' heq
    obtain ⟨x, hx, hxself⟩ := hback q d hq
    obtain ⟨y, hy, hyself⟩ := hback q' d' hq'
    exact h.distinct q q' x y hx hy (by rw [hxself, hyself, heq])
  · -- no address is used up
    intro q d hq
    by_cases hqo : q = o
    · subst hqo
      rw [Function.update_self] at hq
      obtain rfl := Option.some.inj hq
      rw [hself]
      exact h.fresh q ch ho
    · rw [Function.update_of_ne hqo] at hq
      exact h.fresh q d hq

/-- An owner without a channel makes a new one. -/
theorem create (h : Accounted ep owned allocated) (ho : owned o = none) (fd : Int) :
    Accounted ep (Function.update owned o (some (Channel.new allocated fd))) (allocated + 1) := by
  have hold : ∀ q d, q ≠ o → Function.update owned o (some (Channel.new allocated fd)) q = some d →
      owned q = some d := by
    intro q d hqo hq
    rw [Function.update_of_ne hqo] at hq
    exact hq
  have hnew : ∀ d, Function.update owned o (some (Channel.new allocated fd)) o = some d →
      d.self = allocated := by
    intro d hd
    rw [Function.update_self] at hd
    rw [← Option.some.inj hd]
    rfl
  refine ⟨?_, ?_, ?_⟩
  · intro fd p hp
    obtain ⟨o', ch', ho', hentry⟩ := h.entries fd p hp
    have hne : o' ≠ o := by
      rintro rfl
      rw [ho] at ho'
      cases ho'
    exact ⟨o', ch', by rw [Function.update_of_ne hne]; exact ho', hentry⟩
  · -- the new address is above all others
    intro q q' d d' hq hq' heq
    by_cases hqo : q = o
    · subst hqo
      by_contra hne
      have hlt := h.fresh q' d' (hold q' d' (Ne.symm hne) hq')
      rw [← heq, hnew d hq] at hlt
      exact Nat.lt_irrefl _ hlt
    · have hlt := h.fresh q d (hold q d hqo hq)
      by_cases hqo' : q' = o
      · subst hqo'
        rw [heq, hnew d' hq'] at hlt
        exact absurd hlt (Nat.lt_irrefl _)
      · exact h.distinct q q' d d' (hold q d hqo hq) (hold q' d' hqo' hq') heq
  · intro q d hq
    by_cases hqo : q = o
    · subst hqo
      rw [hnew d hq]
      exact Nat.lt_succ_self _
    · exact Nat.lt_succ_of_lt (h.fresh q d (hold q d hqo hq))

/-- An owner gives up a channel that was removed, if it has one at all. -/
theorem destroy (h : Accounted ep owned allocated)
    (hremoved : ∀ ch, owned o = some ch → ch.addedToLoop_ = false) :
    Accounted ep (Function.update owned o none) allocated := by
  have hold : ∀ q d, Function.update owned o none q = some d → owned q = some d := by
    intro q d hq
    by_cases hqo : q = o
    · subst hqo
      rw [Function.update_self] at hq
      cases hq
    · rw [Function.update_of_ne hqo] at hq
      exact hq
  refine ⟨?_, ?_, fun q d hq => h.fresh q d (hold q d hq)⟩
  · intro fd p hp
    obtain ⟨o', ch', ho', hself, hfd, hadded⟩ := h.entries fd p hp
    have hne : o' ≠ o := by
      rintro rfl
      rw [hremoved ch' ho'] at hadded
      cases hadded
    exact ⟨o', ch', by rw [Function.update_of_ne hne]; exact ho', hself, hfd, hadded⟩
  · intro q q' d d' hq hq' heq
    exact h.distinct q q' d d' (hold q d hq) (hold q' d' hq') heq

/-- A channel that was removed is a value of no entry. -/
theorem clean (h : Accounted ep owned allocated) (ho : owned o = some ch)
    (hremoved : ch.addedToLoop_ = false) : (ch.destroy ep).Clean := by
  refine ⟨hremoved, ?_⟩
  show ep.channels_.toList.any (·.2 == ch.self) = false
  rw [List.any_eq_false]
  rintro ⟨fd, p⟩ hmem hp
  have hself : p = ch.self := eq_of_beq hp
  subst hself
  have hentry : ep.channels_[fd]? = some ch.self :=
    ExtTreeMap.mem_toList_iff_getElem?_eq_some.mp hmem
  have hadded := (h.entered ho fd hentry).2
  rw [hremoved] at hadded
  cases hadded

end Accounted

/-! ## Connections -/

namespace Endpoint

/-- The channel of the connection was moved, if anything. -/
def Moves (e e' : Endpoint) : Prop := Channel.Moved e.epoll_ e.channel_ e'.epoll_ e'.channel_

theorem Moves.refl (e : Endpoint) : Moves e e := Channel.Moved.refl _ _

theorem Moves.trans {e e' e'' : Endpoint} (h : Moves e e') (h' : Moves e' e'') : Moves e e'' :=
  Channel.Moved.trans h h'

theorem moves_queueWriteComplete (e : Endpoint) : Moves e e.queueWriteComplete := by
  unfold queueWriteComplete
  split
  · exact .refl e
  · exact .refl e

theorem moves_shutdownInLoop (e : Endpoint) : Moves e e.shutdownInLoop := by
  unfold shutdownInLoop
  split
  · exact .refl e
  · exact .refl e

theorem moves_enableWriting (e : Endpoint) : Moves e e.enableWriting :=
  Channel.moved_enableWriting _ _

theorem moves_disableWriting (e : Endpoint) : Moves e e.disableWriting :=
  Channel.moved_disableWriting _ _

theorem moves_remove (e : Endpoint) : Moves e e.remove := Channel.moved_remove _ _

theorem moves_sendInLoop (e : Endpoint) (message : Bytes) (w : WriteResult) :
    Moves e (e.sendInLoop message w) := by
  -- the buffer and the socket calls are not looked at
  have hqueued : ∀ (c : SocketCall) (b : Buffer),
      Moves e { (e.call c).queueWriteComplete with outputBuffer_ := b } :=
    fun c _ => moves_queueWriteComplete (e.call c)
  simp only [sendInLoop]
  split_ifs
  · exact hqueued _ _
  · exact (hqueued _ _).trans (moves_enableWriting _)
  · exact .refl e
  · exact moves_enableWriting e
  · exact hqueued _ _
  · exact .refl e
  · exact .refl e

theorem moves_handleWrite (e : Endpoint) (w : WriteResult) : Moves e (e.handleWrite w) := by
  have hdrain : ∀ (c : SocketCall) (b : Buffer),
      Moves e ({ e.call c with outputBuffer_ := b }.disableWriting.queueWriteComplete) :=
    fun c b =>
      have hwriting : Moves e ({ e.call c with outputBuffer_ := b }.disableWriting) :=
        moves_disableWriting e
      hwriting.trans (moves_queueWriteComplete _)
  simp only [handleWrite]
  split_ifs
  · exact (hdrain _ _).trans (moves_shutdownInLoop _)
  · exact hdrain _ _
  · exact .refl e
  · exact .refl e
  · exact .refl e

theorem moves_handleClose (e : Endpoint) : Moves e e.handleClose :=
  Channel.moved_disableAll _ _

theorem moves_connectionEstablished (e : Endpoint) : Moves e e.connectionEstablished :=
  Channel.moved_enableReading _ _

theorem moves_connectionDestroyed (e : Endpoint) : Moves e e.connectionDestroyed := by
  unfold connectionDestroyed
  split
  · have hdisabled : Moves e ((e.setState .kDisconnected).disableAll).notify :=
      Channel.moved_disableAll _ _
    exact hdisabled.trans (moves_remove _)
  · exact moves_remove e

theorem moves_doPendingFunctor (e : Endpoint) (w : WriteResult) :
    Moves e (e.doPendingFunctor w) := by
  unfold doPendingFunctor
  split
  · exact .refl e
  · next f fs _ =>
    cases f with
    | sendInLoop message => exact moves_sendInLoop { e with pendingFunctors_ := fs } message w
    | shutdownInLoop => exact moves_shutdownInLoop { e with pendingFunctors_ := fs }
    | writeComplete => exact .refl e

/-- **Step** of a connection: whatever it does, its channel is moved. -/
theorem moves_step (e : Endpoint) (l : ConnStep) : Moves e (e.step l) := by
  cases l with
  | send inLoopThread message w =>
    show Moves e (e.send inLoopThread message w)
    simp only [send]
    split_ifs
    · exact moves_sendInLoop { e with sent := e.sent ++ [message] } message w
    · exact .refl e
    · exact .refl e
  | shutdown inLoopThread =>
    show Moves e (e.shutdown inLoopThread)
    simp only [shutdown]
    split_ifs
    · exact moves_shutdownInLoop (e.setState .kDisconnecting)
    · exact .refl e
    · exact .refl e
  | handleRead r =>
    cases r with
    | data bs => exact .refl e
    | eof => exact moves_handleClose e
    | error => exact .refl e
  | handleWrite w => exact moves_handleWrite e w
  | handleClose => exact moves_handleClose e
  | doPendingFunctor w => exact moves_doPendingFunctor e w
  | connectionDestroyed => exact moves_connectionDestroyed e

end Endpoint

/-! ### After `connectionDestroyed` -/

/-- `connectionDestroyed` has run, and the channel stayed as it left it. -/
structure TcpConnection.Retired (c : TcpConnection) : Prop where
  state_ : c.state_ ≠ .kConnected
  statusInEpoll_ : c.channel_.statusInEpoll_ = .kNew
  addedToLoop_ : c.channel_.addedToLoop_ = false

theorem TcpConnection.Retired.congr {c c' : TcpConnection} (h : c.Retired)
    (hstate : c'.state_ = c.state_) (hchannel : c'.channel_ = c.channel_) : c'.Retired := by
  refine ⟨?_, ?_, ?_⟩
  · rw [hstate]
    exact h.state_
  · rw [hchannel]
    exact h.statusInEpoll_
  · rw [hchannel]
    exact h.addedToLoop_

namespace Endpoint

theorem retired_connectionDestroyed (e : Endpoint) :
    e.connectionDestroyed.toTcpConnection.Retired := by
  unfold connectionDestroyed
  split
  · exact ⟨by simp [remove, notify, disableAll, setState], rfl, rfl⟩
  · next hstate => exact ⟨hstate, rfl, rfl⟩

/-- A `sendInLoop` that leaves no rest does not touch the channel. -/
theorem channel_sendInLoop_all {e : Endpoint} {message : Bytes} {w : WriteResult}
    (h : ¬ (e.Idle ∧ (w.accepted message.length).getD 0 < message.length)) :
    (e.sendInLoop message w).channel_ = e.channel_ := by
  by_cases hidle : e.Idle
  · have hall : ¬ (w.accepted message.length).getD 0 < message.length := fun hlt => h ⟨hidle, hlt⟩
    simp only [sendInLoop, if_neg hall]
    split_ifs
    · exact channel_queueWriteComplete _
    · rfl
    · rfl
  · rw [sendInLoop_busy hidle]

theorem retired_doPendingFunctor {e : Endpoint} (h : e.toTcpConnection.Retired) {w : WriteResult}
    (hrest : ¬ e.LeavesRest w) : (e.doPendingFunctor w).toTcpConnection.Retired := by
  unfold LeavesRest at hrest
  unfold doPendingFunctor
  cases hqueue : e.pendingFunctors_ with
  | nil => exact h
  | cons f fs =>
    rw [hqueue] at hrest
    cases f with
    | sendInLoop message =>
      have hlife := sameLife_sendInLoop { e with pendingFunctors_ := fs } message w
      have hchannel : (sendInLoop { e with pendingFunctors_ := fs } message w).channel_ =
          e.channel_ := channel_sendInLoop_all hrest
      exact h.congr hlife.state_ hchannel
    | shutdownInLoop =>
      have hlife := sameLife_shutdownInLoop { e with pendingFunctors_ := fs }
      exact h.congr hlife.state_ (channel_shutdownInLoop { e with pendingFunctors_ := fs })
    | writeComplete => exact h.congr rfl rfl

/-- **Step** after `connectionDestroyed`: the channel is not touched, but
    by a message that leaves a rest. -/
theorem retired_step {e : Endpoint} (h : e.toTcpConnection.Retired) {l : ConnStep}
    (hmay : OwningLoop.mayStep ⟨e.toTcpConnection, e.pendingFunctors_, true⟩ l)
    (hrest : ∀ w, l = .doPendingFunctor w → ¬ e.LeavesRest w) :
    (e.step l).toTcpConnection.Retired := by
  cases l with
  | send inLoopThread message w =>
    show (e.send inLoopThread message w).toTcpConnection.Retired
    rw [send, if_neg h.state_]
    exact h
  | shutdown inLoopThread =>
    show (e.shutdown inLoopThread).toTcpConnection.Retired
    rw [shutdown, if_neg h.state_]
    exact h
  -- its events are over
  | handleRead r => exact absurd h.statusInEpoll_ hmay
  | handleWrite w => exact absurd h.statusInEpoll_ hmay
  | handleClose => exact absurd h.statusInEpoll_ hmay
  | connectionDestroyed => exact retired_connectionDestroyed e
  | doPendingFunctor w => exact retired_doPendingFunctor h (hrest w rfl)

end Endpoint

/-! ## Connectors -/

namespace Connector

variable {owned : Nat → Option Channel} {p n : Nat} {c : Connector} {ch : Channel}

/-- The books of the loop, in which `c` is the connector at `p`.  A channel
    that waits to be reset was removed. -/
structure Kept (owned : Nat → Option Channel) (p n : Nat) (c : Connector) : Prop where
  accounted : Accounted c.epoll_ (Function.update owned p c.channel_) n
  waits : .resetChannel ∈ c.pendingFunctors_ → ∀ ch ∈ c.channel_, ch.addedToLoop_ = false

theorem kept_assert (h : c.Kept owned p n) (name : ConnectorAssert) (holds : Bool) :
    (c.assert name holds).Kept owned p n := by
  unfold assert
  split
  · exact h
  · exact ⟨h.accounted, h.waits⟩

theorem kept_retry (h : c.Kept owned p n) (sockfd : Int) : (c.retry sockfd).Kept owned p n := by
  simp only [retry]
  split
  · exact ⟨h.accounted, h.waits⟩
  · exact ⟨h.accounted, h.waits⟩

theorem kept_stop (h : c.Kept owned p n) : c.stop.Kept owned p n := by
  refine ⟨h.accounted, ?_⟩
  intro hqueued
  rcases List.mem_append.mp hqueued with hold | hnew
  · exact h.waits hold
  · rw [List.mem_singleton] at hnew
    cases hnew

/-- The channel that is to be reset is out of the loop. -/
theorem kept_removeAndResetChannel (h : c.Kept owned p n) (hch : c.channel_ = some ch) :
    (c.removeAndResetChannel ch).Kept owned p n := by
  refine ⟨?_, ?_⟩
  · have hmove := h.accounted.move (o := p) (by rw [Function.update_self]; exact hch)
      (Channel.moved_retire ch c.epoll_)
    rw [Function.update_idem] at hmove
    exact hmove
  · intro _ ch' hch'
    obtain rfl := Option.some.inj hch'
    exact Channel.addedToLoop_retire ch c.epoll_

theorem kept_stopInLoop (h : c.Kept owned p n) : c.stopInLoop.Kept owned p n := by
  unfold stopInLoop
  split
  · next ch _ hch =>
    have hdisconnected : (c.setState .kDisconnected).Kept owned p n := ⟨h.accounted, h.waits⟩
    exact kept_retry (kept_removeAndResetChannel hdisconnected hch) ch.fd_
  · exact h

theorem kept_handleWrite (h : c.Kept owned p n) (soError selfConnect : Bool) :
    (c.handleWrite soError selfConnect).Kept owned p n := by
  unfold handleWrite
  split
  · next ch _ hch =>
    have hreset := kept_removeAndResetChannel h hch
    dsimp only
    split_ifs
    · exact kept_retry hreset ch.fd_
    · exact kept_retry hreset ch.fd_
    · exact ⟨hreset.accounted, hreset.waits⟩
    · exact ⟨hreset.accounted, hreset.waits⟩
  · exact h
  · exact kept_assert h _ _
  · exact kept_assert h _ _

theorem kept_handleError (h : c.Kept owned p n) : c.handleError.Kept owned p n := by
  have hasserted := kept_assert h .handleError (c.state_ = .kConnecting)
  simp only [handleError]
  split
  · next ch hch => exact kept_retry (kept_removeAndResetChannel hasserted hch) ch.fd_
  · exact hasserted

theorem kept_handleEvent (h : c.Kept owned p n) (err out soError selfConnect : Bool) :
    (c.handleEvent err out soError selfConnect).Kept owned p n := by
  have herr : (if err then c.handleError else c).Kept owned p n := by
    split
    · exact kept_handleError h
    · exact h
  simp only [handleEvent]
  split
  · exact kept_handleWrite herr soError selfConnect
  · exact herr

theorem kept_mono (h : c.Kept owned p n) : c.Kept owned p (n + 1) :=
  ⟨h.accounted.mono (Nat.le_succ n), h.waits⟩

/-- A vacant connector makes a channel, and nothing is queued that would
    reset it. -/
theorem kept_connecting (h : c.Kept owned p n) (hvacant : c.Vacant) {a : ConnectAttempt}
    (ha : a.channel = n) : (c.connecting a).Kept owned p (n + 1) := by
  obtain ⟨hnone, hidle⟩ := hvacant
  subst ha
  have hassert : (c.setState .kConnecting).assert .connecting c.channel_.isNone =
      c.setState .kConnecting := by
    rw [hnone]
    rfl
  simp only [connecting]
  rw [show (c.setState .kConnecting).channel_ = c.channel_ from rfl, hassert]
  refine ⟨?_, ?_⟩
  · have hcreate := h.accounted.create (o := p) (by rw [Function.update_self]; exact hnone) a.sockfd
    rw [Function.update_idem] at hcreate
    have hmove := hcreate.move (o := p) (Function.update_self ..)
      (Channel.moved_enableWriting (Channel.new a.channel a.sockfd) c.epoll_)
    rw [Function.update_idem] at hmove
    exact hmove
  · intro hqueued
    exact absurd hqueued hidle

theorem kept_connect (h : c.Kept owned p n) {a : ConnectAttempt} (ha : a.channel = n)
    (hvacant : a.savedErrno.underWay = true → c.Vacant) : (c.connect a).Kept owned p (n + 1) := by
  have hclose : (c.close a.sockfd).Kept owned p n := ⟨h.accounted, h.waits⟩
  unfold connect
  cases herrno : a.savedErrno with
  | none | EINPROGRESS | EINTR | EISCONN =>
    exact kept_connecting h (hvacant (by rw [herrno]; rfl)) ha
  | EAGAIN | EADDRINUSE | EADDRNOTAVAIL | ECONNREFUSED | ENETUNREACH =>
    exact kept_mono (kept_retry h a.sockfd)
  | EACCES | EPERM | EAFNOSUPPORT | EALREADY | EBADF | EFAULT | ENOTSOCK => exact kept_mono hclose
  | other e => exact kept_mono hclose

theorem kept_startInLoop (h : c.Kept owned p n) {a : ConnectAttempt} (ha : a.channel = n)
    (hvacant : c.connect_ = true → a.savedErrno.underWay = true → c.Vacant) :
    (c.startInLoop a).Kept owned p (n + 1) := by
  have hasserted := kept_assert h .startInLoop (c.state_ = .kDisconnected)
  -- the assert changes nothing that is looked at
  have hsame : (c.assert .startInLoop (c.state_ = .kDisconnected)).connect_ = c.connect_ ∧
      ((c.assert .startInLoop (c.state_ = .kDisconnected)).Vacant ↔ c.Vacant) := by
    unfold assert
    split
    · exact ⟨rfl, Iff.rfl⟩
    · exact ⟨rfl, Iff.rfl⟩
  simp only [startInLoop]
  split
  · next hconnect =>
    rw [hsame.1] at hconnect
    exact kept_connect hasserted ha fun hway => hsame.2.mpr (hvacant hconnect hway)
  · exact kept_mono hasserted

/-- The channel goes; if `resetChannel` was queued, it was removed before. -/
theorem kept_resetChannel (h : c.Kept owned p n)
    (hremoved : ∀ ch ∈ c.channel_, ch.addedToLoop_ = false) : c.resetChannel.Kept owned p n := by
  refine ⟨?_, fun _ ch hch => by cases hch⟩
  have hdestroy := h.accounted.destroy (o := p) fun ch hch =>
    hremoved ch (by rw [Function.update_self] at hch; exact hch)
  rw [Function.update_idem] at hdestroy
  exact hdestroy

theorem kept_doPendingFunctor (h : c.Kept owned p n) : c.doPendingFunctor.Kept owned p n := by
  unfold doPendingFunctor
  split
  · exact h
  · next f fs hqueue =>
    have hpopped : Kept owned p n { c with pendingFunctors_ := fs } :=
      ⟨h.accounted, fun hmem => h.waits (by rw [hqueue]; exact List.mem_cons_of_mem f hmem)⟩
    cases f with
    | stopInLoop => exact kept_stopInLoop hpopped
    | resetChannel =>
      exact kept_resetChannel hpopped (h.waits (by rw [hqueue]; exact List.mem_cons_self))

/-- **Step** of a connector that begins its attempts vacant. -/
theorem kept_next (h : c.Kept owned p n) {l : ConnectorStep} (hstarts : c.StartsVacant l)
    (hfresh : ∀ a ∈ l.attempt, a.channel = n) : (c.next l).Kept owned p (n + 1) := by
  cases l with
  | start a =>
    have hstart : Kept owned p n { c with connect_ := true } := ⟨h.accounted, h.waits⟩
    exact kept_startInLoop hstart (hfresh a rfl) fun _ => hstarts
  | restart a =>
    have hrestart : Kept owned p n { c.setState .kDisconnected with
        retryDelayMs_ := kInitRetryDelayMs, connect_ := true } := ⟨h.accounted, h.waits⟩
    exact kept_startInLoop hrestart (hfresh a rfl) fun _ => hstarts
  | stop => exact kept_mono (kept_stop h)
  | retryTimer i a =>
    have htimer : Kept owned p n { c with timers := c.timers.eraseIdx i } := ⟨h.accounted, h.waits⟩
    exact kept_startInLoop htimer (hfresh a rfl) hstarts
  | handleEvent err out soError selfConnect =>
    exact kept_mono (kept_handleEvent h err out soError selfConnect)
  | doPendingFunctor => exact kept_mono (kept_doPendingFunctor h)

/-- The channel that a step destroys was removed. -/
theorem addedToLoop_loses (h : c.Kept owned p n) {l : ConnectorStep} (hstarts : c.StartsVacant l)
    (hloses : ch ∈ c.loses l) : c.channel_ = some ch ∧ ch.addedToLoop_ = false := by
  -- an attempt in a vacant connector destroys nothing
  have hvacant : ¬ (c.Vacant ∧ c.channel_ = some ch) := by
    rintro ⟨⟨hnone, -⟩, hch⟩
    rw [hnone] at hch
    cases hch
  cases l with
  | start a | restart a =>
    simp only [loses, Option.mem_def, Option.ite_none_right_eq_some] at hloses
    exact absurd ⟨hstarts hloses.1, hloses.2⟩ hvacant
  | retryTimer i a =>
    simp only [loses, Bool.and_eq_true, Option.mem_def, Option.ite_none_right_eq_some] at hloses
    exact absurd ⟨hstarts hloses.1.1 hloses.1.2, hloses.2⟩ hvacant
  | doPendingFunctor =>
    simp only [loses, Option.mem_def, Option.ite_none_right_eq_some] at hloses
    exact ⟨hloses.2, h.waits (List.mem_of_mem_head? hloses.1) ch hloses.2⟩
  | stop => cases hloses
  | handleEvent err out soError selfConnect => cases hloses

end Connector

end TinyWS
