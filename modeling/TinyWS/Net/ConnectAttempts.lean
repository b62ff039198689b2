import TinyWS.Net.Connector

/-! # Connection Attempts

    An attempt begins when `::connect` is under way and ends when its
    channel is taken out of epoll; the memory of the channel is given back
    one functor later.  `Connector` keeps no guard against a call that
    comes in between: `start()` while an attempt is on, `restart()` over an
    attempt, or a timer of an earlier retry that was overtaken. -/

namespace TinyWS

open Std

namespace Connector

/-! ## The specification -/

/-- None of the three asserts has failed, and at most one socket is being
    connected. -/
def Safe (c : Connector) : Prop :=
  (ConnectorAssert.startInLoop ∉ c.failed ∧ ConnectorAssert.connecting ∉ c.failed ∧
    ConnectorAssert.handleError ∉ c.failed) ∧ c.sockets.length ≤ 1

instance (c : Connector) : Decidable c.Safe := inferInstanceAs (Decidable (_ ∧ _))

/-- No socket is being connected, and no channel waits to be destroyed. -/
def Clear (c : Connector) : Prop :=
  c.sockets = [] ∧ ConnectorFunctor.resetChannel ∉ c.pendingFunctors_

instance (c : Connector) : Decidable c.Clear := inferInstanceAs (Decidable (_ ∧ _))

/-- The condition of the runs: `start()` and the timers come to a connector
    that is disconnected, an attempt gets under way when the one before is
    over and its channel destroyed, and an error is reported only for an
    attempt that no `restart()` has given up. -/
def Orderly (c : Connector) : ConnectorStep → Prop
  | .start a => c.state_ = .kDisconnected ∧ (a.savedErrno.underWay = true → c.Clear)
  | .restart a => a.savedErrno.underWay = true → c.Clear
  | .retryTimer _ a =>
      c.state_ = .kDisconnected ∧
        (c.connect_ = true → a.savedErrno.underWay = true → c.Clear)
  | .handleEvent err _ _ _ => err = true → c.state_ = .kConnecting
  | .stop | .doPendingFunctor => True

instance (c : Connector) : DecidablePred c.Orderly
  | .start a =>
      inferInstanceAs (Decidable (c.state_ = .kDisconnected ∧
        (a.savedErrno.underWay = true → c.Clear)))
  | .restart a => inferInstanceAs (Decidable (a.savedErrno.underWay = true → c.Clear))
  | .retryTimer _ a =>
      inferInstanceAs (Decidable (c.state_ = .kDisconnected ∧
        (c.connect_ = true → a.savedErrno.underWay = true → c.Clear)))
  | .handleEvent err _ _ _ => inferInstanceAs (Decidable (err = true → c.state_ = .kConnecting))
  | .stop | .doPendingFunctor => isTrue trivial

/-! ## The phases of an attempt -/

/-- How many channels wait to be destroyed. -/
def resets (c : Connector) : Nat := c.pendingFunctors_.count .resetChannel

structure Idle (c : Connector) : Prop where
  channel_ : c.channel_ = none
  sockets : c.sockets = []
  resets : c.resets = 0
  state_ : c.state_ ≠ .kConnecting

/-- A socket is being connected.  The state is `kDisconnected` when a
    `restart()` has given the attempt up. -/
structure Attempting (c : Connector) (ch : Channel) : Prop where
  channel_ : c.channel_ = some ch
  status : ch.statusInEpoll_ = .kAdded
  interest : ch.fd_ ∈ c.epoll_.interest
  sockets : c.sockets = [ch.fd_]
  resets : c.resets = 0
  state_ : c.state_ ≠ .kConnected

/-- The attempt is over, and its channel waits to be destroyed. -/
structure Removed (c : Connector) (ch : Channel) : Prop where
  channel_ : c.channel_ = some ch
  interest : ch.fd_ ∉ c.epoll_.interest
  sockets : c.sockets = []
  resets : c.resets = 1
  state_ : c.state_ ≠ .kConnecting

/-- **Invariant** of the orderly runs. -/
structure Phased (c : Connector) : Prop where
  phase : c.Idle ∨ (∃ ch, c.Attempting ch) ∨ ∃ ch, c.Removed ch
  failed : c.failed = []

theorem phased_new : new.Phased :=
  ⟨Or.inl ⟨rfl, rfl, rfl, by decide⟩, rfl⟩

theorem Phased.safe {c : Connector} (h : c.Phased) : c.Safe := by
  have hsockets : c.sockets.length ≤ 1 := by
    rcases h.phase with h | ⟨ch, h⟩ | ⟨ch, h⟩
    · simp [h.sockets]
    · simp [h.sockets]
    · simp [h.sockets]
  rw [Safe, h.failed]
  exact ⟨by decide, hsockets⟩

/-- The attempt is the same in `c'`, which may have been set to
    `kDisconnected`. -/
structure SameAttempt (c c' : Connector) : Prop where
  channel_ : c'.channel_ = c.channel_
  epoll_ : c'.epoll_ = c.epoll_
  sockets : c'.sockets = c.sockets
  resets : c'.resets = c.resets
  state_ : c'.state_ = c.state_ ∨ c'.state_ = .kDisconnected
  failed : c'.failed = c.failed

section Phases

variable {c c' : Connector} {ch : Channel} {a : ConnectAttempt}

theorem SameAttempt.attempting (hsame : SameAttempt c c') (h : c.Attempting ch) :
    c'.Attempting ch := by
  refine ⟨hsame.channel_.trans h.channel_, h.status, ?_, hsame.sockets.trans h.sockets,
    hsame.resets.trans h.resets, ?_⟩
  · rw [hsame.epoll_]
    exact h.interest
  · rcases hsame.state_ with hstate | hstate
    · rw [hstate]
      exact h.state_
    · rw [hstate]
      decide

theorem SameAttempt.not_connecting (hsame : SameAttempt c c') (h : c.state_ ≠ .kConnecting) :
    c'.state_ ≠ .kConnecting := by
  rcases hsame.state_ with hstate | hstate
  · rw [hstate]
    exact h
  · rw [hstate]
    decide

theorem SameAttempt.phased (hsame : SameAttempt c c') (h : c.Phased) : c'.Phased := by
  refine ⟨?_, hsame.failed.trans h.failed⟩
  rcases h.phase with h | ⟨ch, h⟩ | ⟨ch, h⟩
  · left
    exact ⟨hsame.channel_.trans h.channel_, hsame.sockets.trans h.sockets,
      hsame.resets.trans h.resets, hsame.not_connecting h.state_⟩
  · right
    left
    exact ⟨ch, hsame.attempting h⟩
  · right
    right
    refine ⟨ch, hsame.channel_.trans h.channel_, ?_, hsame.sockets.trans h.sockets,
      hsame.resets.trans h.resets, hsame.not_connecting h.state_⟩
    rw [hsame.epoll_]
    exact h.interest

/-! ### The beginning of an attempt -/

/-- A channel on a new descriptor gets into the kernel's set. -/
theorem enableWriting_new {ep : Epoll} {fd : Int} (self : ChannelPtr) (h : fd ∉ ep.interest) :
    let enabled := (Channel.new self fd).enableWriting ep
    enabled.2.statusInEpoll_ = .kAdded ∧ fd ∈ enabled.1.interest := by
  refine ⟨rfl, ?_⟩
  have hlegal : Epoll.Legal { ep with channels_ := ep.channels_.insert fd self }
      { Channel.new self fd with
        events_ := Channel.kNoneEvent ||| Channel.kWriteEvent
        statusInEpoll_ := .kAdded
        addedToLoop_ := true } .add := h
  exact mem_of_getElem?_eq_some (Epoll.getElem?_update hlegal)

theorem retry_eq (c : Connector) (sockfd : Int) :
    ∃ timers delay, c.retry sockfd =
      { c with
        sockets := c.sockets.erase sockfd
        state_ := .kDisconnected
        timers := timers
        retryDelayMs_ := delay } := by
  unfold retry
  dsimp only
  split
  · exact ⟨_, _, rfl⟩
  · exact ⟨_, _, rfl⟩

theorem connecting_idle (h : c.Phased) (hclear : c.Clear) (hfresh : c.Fresh a) :
    (c.connecting a).Phased := by
  have hresets : c.resets = 0 := List.count_eq_zero.mpr hclear.2
  have hnone : c.channel_ = none := by
    -- an attempt has a socket, and a removed channel a reset in the queue
    rcases h.phase with h | ⟨ch, h⟩ | ⟨ch, h⟩
    · exact h.channel_
    · cases h.sockets.symm.trans hclear.1
    · cases h.resets.symm.trans hresets
  have hassert : (c.setState .kConnecting).assert .connecting
      (c.setState .kConnecting).channel_.isNone = c.setState .kConnecting := by
    show (if c.channel_.isNone = true then _ else _) = _
    rw [hnone]
    rfl
  obtain ⟨hstatus, hinterest⟩ := enableWriting_new a.channel hfresh.1
  unfold connecting
  dsimp only
  rw [hassert]
  refine ⟨Or.inr (Or.inl ⟨_, rfl, hstatus, ?_, ?_, hresets, ConnectorState.noConfusion⟩), h.failed⟩
  · exact hinterest
  · show c.sockets ++ [a.sockfd] = [a.sockfd]
    rw [hclear.1]
    rfl

/-- When `::connect` fails, nothing of the attempt before is touched. -/
theorem sameAttempt_connect (hfresh : c.Fresh a) (hfails : a.savedErrno.underWay = false) :
    SameAttempt c (c.connect a) := by
  have hsockets : c.sockets.erase a.sockfd = c.sockets := List.erase_of_not_mem hfresh.2
  have hclose : SameAttempt c (c.close a.sockfd) :=
    ⟨rfl, rfl, hsockets, rfl, Or.inl rfl, rfl⟩
  have hretry : SameAttempt c (c.retry a.sockfd) := by
    obtain ⟨timers, delay, hretry⟩ := retry_eq c a.sockfd
    rw [hretry]
    exact ⟨rfl, rfl, hsockets, rfl, Or.inr rfl, rfl⟩
  unfold connect
  cases herrno : a.savedErrno with
  | none | EINPROGRESS | EINTR | EISCONN =>
    rw [herrno] at hfails
    cases hfails
  | EAGAIN | EADDRINUSE | EADDRNOTAVAIL | ECONNREFUSED | ENETUNREACH => exact hretry
  | EACCES | EPERM | EAFNOSUPPORT | EALREADY | EBADF | EFAULT | ENOTSOCK => exact hclose
  | other n => exact hclose

theorem connect_underWay (hon : a.savedErrno.underWay = true) : c.connect a = c.connecting a := by
  unfold connect
  cases herrno : a.savedErrno with
  | none | EINPROGRESS | EINTR | EISCONN => rfl
  | EAGAIN | EADDRINUSE | EADDRNOTAVAIL | ECONNREFUSED | ENETUNREACH | EACCES | EPERM
  | EAFNOSUPPORT | EALREADY | EBADF | EFAULT | ENOTSOCK | other n =>
    rw [herrno] at hon
    cases hon

/-- `startInLoop` comes to a connector that is disconnected, and an attempt
    gets under way in one that is clear. -/
def MayStart (c : Connector) (a : ConnectAttempt) : Prop :=
  c.state_ = .kDisconnected ∧ (c.connect_ = true → a.savedErrno.underWay = true → c.Clear)

theorem startInLoop_phased (h : c.Phased) (hfresh : c.Fresh a) (hmay : c.MayStart a) :
    (c.startInLoop a).Phased := by
  obtain ⟨hstate, hclear⟩ := hmay
  have hassert : c.assert .startInLoop (c.state_ = .kDisconnected) = c := by
    rw [hstate]
    rfl
  unfold startInLoop
  dsimp only
  rw [hassert]
  split
  · next hconnect =>
    cases hon : a.savedErrno.underWay with
    | true =>
      rw [connect_underWay hon]
      exact connecting_idle h (hclear hconnect hon) hfresh
    | false => exact (sameAttempt_connect hfresh hon).phased h
  · exact h

/-! ### Its end -/

theorem removeAndResetChannel_spec (h : c.Attempting ch) :
    ∃ removed, (c.removeAndResetChannel ch).channel_ = some removed ∧ removed.fd_ = ch.fd_ ∧
      ch.fd_ ∉ (c.removeAndResetChannel ch).epoll_.interest ∧
      (c.removeAndResetChannel ch).resets = 1 := by
  have hresets : (c.pendingFunctors_ ++ [ConnectorFunctor.resetChannel]).count .resetChannel = 1 := by
    have hzero : c.pendingFunctors_.count .resetChannel = 0 := h.resets
    rw [List.count_append, hzero]
    rfl
  -- `disableAll` has deleted the descriptor before `remove` comes
  have hdisabled : ch.disableAll c.epoll_ =
      (c.epoll_.update .del ch,
        { ch with
          events_ := Channel.kNoneEvent, statusInEpoll_ := .kDeleted, addedToLoop_ := true }) := by
    simp only [Channel.disableAll, Channel.update, Epoll.updateChannel, h.status]
    rfl
  refine ⟨_, rfl, ?_, ?_, hresets⟩
  · rw [hdisabled]
    rfl
  · show ch.fd_ ∉ ((ch.disableAll c.epoll_).2.remove (ch.disableAll c.epoll_).1).1.interest
    rw [hdisabled]
    exact notMem_of_getElem?_eq_none ExtTreeMap.getElem?_erase_self

/-- The channel is taken out, and the socket closed or handed on. -/
theorem removed_of_attempting (h : c.Attempting ch)
    (hchannel : c'.channel_ = (c.removeAndResetChannel ch).channel_)
    (hepoll : c'.epoll_ = (c.removeAndResetChannel ch).epoll_)
    (hresets : c'.resets = (c.removeAndResetChannel ch).resets)
    (hsockets : c'.sockets = c.sockets.erase ch.fd_) (hstate : c'.state_ ≠ .kConnecting) :
    ∃ removed, c'.Removed removed := by
  obtain ⟨removed, hremoved, hfd, hinterest, hone⟩ := removeAndResetChannel_spec h
  refine ⟨removed, hchannel.trans hremoved, ?_, ?_, hresets.trans hone, hstate⟩
  · rw [hepoll, hfd]
    exact hinterest
  · rw [hsockets, h.sockets]
    exact List.erase_cons_head ..

theorem removed_retry (h : c.Attempting ch) :
    ∃ removed, ((c.removeAndResetChannel ch).retry ch.fd_).Removed removed := by
  obtain ⟨timers, delay, hretry⟩ := retry_eq (c.removeAndResetChannel ch) ch.fd_
  apply removed_of_attempting h
  · rw [hretry]
  · rw [hretry]
  · rw [hretry]
    rfl
  · rw [hretry]
    rfl
  · rw [hretry]
    exact ConnectorState.noConfusion

theorem failed_retry (c : Connector) (sockfd : Int) : (c.retry sockfd).failed = c.failed := by
  obtain ⟨timers, delay, hretry⟩ := retry_eq c sockfd
  rw [hretry]

theorem state_retry (c : Connector) (sockfd : Int) :
    (c.retry sockfd).state_ = .kDisconnected := by
  obtain ⟨timers, delay, hretry⟩ := retry_eq c sockfd
  rw [hretry]

/-- An error ends the attempt. -/
theorem handleError_phased (h : c.Attempting ch) (hfailed : c.failed = [])
    (hstate : c.state_ = .kConnecting) :
    c.handleError.Phased ∧ c.handleError.state_ = .kDisconnected := by
  have hassert : c.assert .handleError (c.state_ = .kConnecting) = c := by
    rw [hstate]
    rfl
  have hremoved := removed_retry h
  unfold handleError
  dsimp only
  rw [hassert, h.channel_]
  refine ⟨⟨Or.inr (Or.inr hremoved), ?_⟩, state_retry _ _⟩
  exact (failed_retry _ _).trans hfailed

/-- A writable socket ends the attempt, one way or another. -/
theorem handleWrite_phased (h : c.Attempting ch) (hfailed : c.failed = [])
    (hstate : c.state_ = .kConnecting) (soError selfConnect : Bool) :
    (c.handleWrite soError selfConnect).Phased := by
  have hretry : ((c.removeAndResetChannel ch).retry ch.fd_).Phased :=
    ⟨Or.inr (Or.inr (removed_retry h)), (failed_retry _ _).trans hfailed⟩
  unfold handleWrite
  rw [hstate, h.channel_]
  dsimp only
  split
  · exact hretry
  · split
    · exact hretry
    · split
      · exact ⟨Or.inr (Or.inr (removed_of_attempting h rfl rfl rfl rfl ConnectorState.noConfusion)),
          hfailed⟩
      · exact ⟨Or.inr (Or.inr (removed_of_attempting h rfl rfl rfl rfl ConnectorState.noConfusion)),
          hfailed⟩

/-- Nothing happens on a socket that was given up. -/
theorem handleWrite_disconnected (hstate : c.state_ = .kDisconnected) (soError selfConnect : Bool) :
    c.handleWrite soError selfConnect = c := by
  unfold handleWrite
  rw [hstate]
  rfl

theorem stopInLoop_phased (h : c.Phased) : c.stopInLoop.Phased := by
  unfold stopInLoop
  split
  · next ch hstate hchannel =>
    rcases h.phase with hphase | ⟨ch', hphase⟩ | ⟨ch', hphase⟩
    · exact absurd hstate hphase.state_
    · cases hchannel.symm.trans hphase.channel_
      -- the state changes before the channel is taken out
      have hsame : SameAttempt c (c.setState .kDisconnected) :=
        ⟨rfl, rfl, rfl, rfl, Or.inr rfl, rfl⟩
      exact ⟨Or.inr (Or.inr (removed_retry (hsame.attempting hphase))),
        (failed_retry _ _).trans h.failed⟩
    · exact absurd hstate hphase.state_
  · exact h

/-! ## The asserts that fail -/

theorem mem_failed_assert {name other : ConnectorAssert} {holds : Bool}
    (h : other ∈ c.failed) : other ∈ (c.assert name holds).failed := by
  unfold assert
  split
  · exact h
  · exact List.mem_append_left _ h

theorem mem_failed_assert_self {name : ConnectorAssert} {holds : Bool} (h : holds = false) :
    name ∈ (c.assert name holds).failed := by
  rw [assert, h]
  exact List.mem_append_right _ (List.mem_singleton_self name)

theorem mem_failed_connect {name : ConnectorAssert} (h : name ∈ c.failed) :
    name ∈ (c.connect a).failed := by
  have hretry : name ∈ (c.retry a.sockfd).failed := by
    rw [failed_retry]
    exact h
  have hconnecting : name ∈ (c.connecting a).failed :=
    mem_failed_assert (c := c.setState .kConnecting) h
  unfold connect
  cases a.savedErrno with
  | none | EINPROGRESS | EINTR | EISCONN => exact hconnecting
  | EAGAIN | EADDRINUSE | EADDRNOTAVAIL | ECONNREFUSED | ENETUNREACH => exact hretry
  | EACCES | EPERM | EAFNOSUPPORT | EALREADY | EBADF | EFAULT | ENOTSOCK => exact h
  | other n => exact h

theorem mem_failed_handleWrite {name : ConnectorAssert} {soError selfConnect : Bool}
    (h : name ∈ c.failed) : name ∈ (c.handleWrite soError selfConnect).failed := by
  unfold handleWrite
  split
  · next ch hstate hchannel =>
    have hretry : name ∈ ((c.removeAndResetChannel ch).retry ch.fd_).failed := by
      rw [failed_retry]
      exact h
    dsimp only
    split
    · exact hretry
    · split
      · exact hretry
      · split
        · exact h
        · exact h
  · exact h
  · exact mem_failed_assert h
  · exact mem_failed_assert h

/-- A connector that is not disconnected is started. -/
theorem startInLoop_fails (hstate : c.state_ ≠ .kDisconnected) :
    ConnectorAssert.startInLoop ∈ (c.startInLoop a).failed := by
  have hassert : ConnectorAssert.startInLoop ∈
      (c.assert .startInLoop (c.state_ = .kDisconnected)).failed :=
    mem_failed_assert_self (decide_eq_false hstate)
  unfold startInLoop
  dsimp only
  split
  · exact mem_failed_connect hassert
  · exact hassert

/-- An attempt gets under way over a channel. -/
theorem connecting_fails (hchannel : c.channel_ ≠ none) :
    ConnectorAssert.connecting ∈ (c.connecting a).failed := by
  apply mem_failed_assert_self (c := c.setState .kConnecting)
  exact Option.isNone_eq_false_iff.mpr (Option.isSome_iff_ne_none.mpr hchannel)

theorem startInLoop_fails_connecting (hstate : c.state_ = .kDisconnected)
    (hconnect : c.connect_ = true) (hon : a.savedErrno.underWay = true)
    (hchannel : c.channel_ ≠ none) :
    ConnectorAssert.connecting ∈ (c.startInLoop a).failed := by
  have hassert : c.assert .startInLoop (c.state_ = .kDisconnected) = c := by
    rw [hstate]
    rfl
  unfold startInLoop
  dsimp only
  rw [hassert, if_pos hconnect, connect_underWay hon]
  exact connecting_fails hchannel

/-- While the connector is not clear there is a channel. -/
theorem channel_of_not_clear (h : c.Phased) (hclear : ¬ c.Clear) : c.channel_ ≠ none := by
  rcases h.phase with h | ⟨ch, h⟩ | ⟨ch, h⟩
  · exact absurd ⟨h.sockets, List.count_eq_zero.mp h.resets⟩ hclear
  · rw [h.channel_]
    exact Option.some_ne_none ch
  · rw [h.channel_]
    exact Option.some_ne_none ch

theorem not_safe_startInLoop (h : c.Phased) (hmay : ¬ c.MayStart a) :
    ¬ (c.startInLoop a).Safe := by
  rintro ⟨⟨hstart, hconnecting, -⟩, -⟩
  by_cases hstate : c.state_ = .kDisconnected
  · -- the first assert holds, and the one of `connecting` fails
    have hclear := fun himp => hmay ⟨hstate, himp⟩
    obtain ⟨hconnect, hclear⟩ := Classical.not_imp.mp hclear
    obtain ⟨hon, hclear⟩ := Classical.not_imp.mp hclear
    have hchannel := channel_of_not_clear h hclear
    exact hconnecting (startInLoop_fails_connecting hstate hconnect hon hchannel)
  · exact hstart (startInLoop_fails hstate)

/-! ### Who calls `startInLoop` -/

theorem Phased.starting (h : c.Phased) : Phased { c with connect_ := true } :=
  SameAttempt.phased (c := c) ⟨rfl, rfl, rfl, rfl, Or.inl rfl, rfl⟩ h

/-- A `restart()` gives the attempt up, and leaves its channel. -/
theorem Phased.restarting (h : c.Phased) :
    Phased { c.setState .kDisconnected with
      retryDelayMs_ := kInitRetryDelayMs, connect_ := true } :=
  SameAttempt.phased (c := c) ⟨rfl, rfl, rfl, rfl, Or.inr rfl, rfl⟩ h

theorem Phased.expiring (h : c.Phased) (i : Nat) :
    Phased { c with timers := c.timers.eraseIdx i } :=
  SameAttempt.phased (c := c) ⟨rfl, rfl, rfl, rfl, Or.inl rfl, rfl⟩ h

end Phases

/-! ## One step -/

section Steps

variable {c : Connector}

/-- Events come for a socket that is being connected. -/
theorem attempting_of_registered (h : c.Phased) (hregistered : c.Registered) :
    ∃ ch, c.Attempting ch := by
  obtain ⟨ch, hch, hmem⟩ := hregistered
  rcases h.phase with hphase | hphase | ⟨ch', hphase⟩
  · cases hch.symm.trans hphase.channel_
  · exact hphase
  · cases hch.symm.trans hphase.channel_
    exact absurd hmem hphase.interest

theorem handleEvent_phased (h : c.Phased) (hregistered : c.Registered) {err : Bool}
    (hcond : err = true → c.state_ = .kConnecting) (out soError selfConnect : Bool) :
    (c.handleEvent err out soError selfConnect).Phased := by
  obtain ⟨ch, hphase⟩ := attempting_of_registered h hregistered
  unfold handleEvent
  cases err with
  | true =>
    -- the error disconnects, so a write event of the same poll does nothing
    obtain ⟨hphased, hstate⟩ := handleError_phased hphase h.failed (hcond rfl)
    dsimp only
    rw [if_pos rfl, handleWrite_disconnected hstate]
    split
    · exact hphased
    · exact hphased
  | false =>
    dsimp only
    rw [if_neg Bool.false_ne_true]
    split
    · cases hstate : c.state_ with
      | kConnecting => exact handleWrite_phased hphase h.failed hstate soError selfConnect
      | kDisconnected =>
        -- a `restart()` has given the attempt up
        rw [handleWrite_disconnected hstate]
        exact h
      | kConnected => exact absurd hstate hphase.state_
    · exact h

theorem doPendingFunctor_phased (h : c.Phased) : c.doPendingFunctor.Phased := by
  unfold doPendingFunctor
  split
  · exact h
  · next f fs hpending =>
    cases f with
    | stopInLoop =>
      have hresets : fs.count .resetChannel = c.resets := by
        rw [resets, hpending]
        rfl
      have hsame : SameAttempt c { c with pendingFunctors_ := fs } :=
        ⟨rfl, rfl, rfl, hresets, Or.inl rfl, rfl⟩
      exact stopInLoop_phased (hsame.phased h)
    | resetChannel =>
      have hresets : c.resets = fs.count .resetChannel + 1 := by
        rw [resets, hpending, List.count_cons_self]
      -- only a removed channel has its reset in the queue
      refine ⟨Or.inl ?_, h.failed⟩
      rcases h.phase with hphase | ⟨ch, hphase⟩ | ⟨ch, hphase⟩
      · cases hphase.resets.symm.trans hresets
      · cases hphase.resets.symm.trans hresets
      · have hzero : fs.count .resetChannel = 0 := by
          have hone := hphase.resets
          omega
        exact ⟨rfl, hphase.sockets, hzero, hphase.state_⟩

/-- **Step**: an orderly step keeps the phases of the attempt. -/
theorem phased_next (h : c.Phased) {l : ConnectorStep} (hguard : c.guard l)
    (hcond : c.Orderly l) : (c.next l).Phased := by
  cases l with
  | start a => exact startInLoop_phased h.starting hguard ⟨hcond.1, fun _ => hcond.2⟩
  | restart a => exact startInLoop_phased h.restarting hguard ⟨rfl, fun _ => hcond⟩
  | stop =>
    have hresets : (c.pendingFunctors_ ++ [ConnectorFunctor.stopInLoop]).count .resetChannel =
        c.resets := by
      rw [List.count_append]
      rfl
    have hsame : SameAttempt c c.stop := ⟨rfl, rfl, rfl, hresets, Or.inl rfl, rfl⟩
    exact hsame.phased h
  | retryTimer i a => exact startInLoop_phased (h.expiring i) hguard.2 hcond
  | handleEvent err out soError selfConnect =>
    exact handleEvent_phased h hguard hcond out soError selfConnect
  | doPendingFunctor => exact doPendingFunctor_phased h

/-- An error of an attempt that was given up. -/
theorem handleEvent_fails (hstate : c.state_ ≠ .kConnecting) (out soError selfConnect : Bool) :
    ConnectorAssert.handleError ∈ (c.handleEvent true out soError selfConnect).failed := by
  have hassert : ConnectorAssert.handleError ∈
      (c.assert .handleError (c.state_ = .kConnecting)).failed :=
    mem_failed_assert_self (decide_eq_false hstate)
  have hhandled : ConnectorAssert.handleError ∈ c.handleError.failed := by
    unfold handleError
    dsimp only
    split
    · rw [failed_retry]
      exact hassert
    · exact hassert
  unfold handleEvent
  dsimp only
  rw [if_pos rfl]
  split
  · exact mem_failed_handleWrite hhandled
  · exact hhandled

/-- A step out of order fails one of the asserts. -/
theorem not_safe_next (h : c.Phased) {l : ConnectorStep} (hcond : ¬ c.Orderly l) :
    ¬ (c.next l).Safe := by
  cases l with
  | start a => exact not_safe_startInLoop h.starting fun hmay => hcond ⟨hmay.1, hmay.2 rfl⟩
  | restart a => exact not_safe_startInLoop h.restarting fun hmay => hcond (hmay.2 rfl)
  | retryTimer i a => exact not_safe_startInLoop (h.expiring i) hcond
  | handleEvent err out soError selfConnect =>
    obtain ⟨rfl, hstate⟩ := Classical.not_imp.mp hcond
    intro hsafe
    exact hsafe.1.2.2 (handleEvent_fails hstate out soError selfConnect)
  | stop | doPendingFunctor => exact absurd trivial hcond

/-- **Connector safety**: over any calls, results, events, timers and
    functors, the asserts hold and one socket at most is being connected
    in every state if and only if every step is orderly. -/
theorem safe_iff_orderly (steps : List ConnectorStep) (hvalid : connector.Valid new steps) :
    (∀ pre, pre <+: steps → (connector.run new pre).Safe) ↔
      connector.Along Orderly new steps := by
  apply connector.always_iff_along (fun c steps => c.Phased ∧ connector.Valid c steps) Safe
  · rintro c steps ⟨h, -⟩
    exact h.safe
  · rintro c l steps ⟨h, hguard, hrest⟩ hcond
    exact ⟨phased_next h hguard hcond, hrest⟩
  · rintro c l steps ⟨h, -, -⟩ hcond
    exact not_safe_next h hcond
  · exact ⟨phased_new, hvalid⟩

/-- A refused attempt, a retry that gets under way, and a connection. -/
theorem safe_retried :
    let steps : List ConnectorStep :=
      [.start ⟨7, .ECONNREFUSED, 70⟩, .retryTimer 0 ⟨7, .EINPROGRESS, 70⟩,
        .handleEvent false true false false, .doPendingFunctor]
    ∀ pre, pre <+: steps → (connector.run new pre).Safe :=
  (safe_iff_orderly _ (by decide +kernel)).mpr (by decide +kernel)

/-- `start()` is called again while the first attempt is on. -/
theorem not_safe_startTwice :
    let steps : List ConnectorStep :=
      [.start ⟨7, .EINPROGRESS, 70⟩, .start ⟨8, .EINPROGRESS, 80⟩]
    connector.Valid new steps ∧ ¬ (connector.run new steps).Safe := by
  decide +kernel

end Steps

end Connector

end TinyWS
