import TinyWS.Net.Connector

/-! # Backing Off

    Each failed attempt doubles the time to the next one, from half a
    second up to half a minute.  `retry` keeps these times right, in
    milliseconds; what it gives to `runAfter` is a number of seconds,
    without its fraction, and `runAfter` takes it for microseconds. -/

namespace TinyWS

/-- The milliseconds to wait after `k` other attempts have failed. -/
def backOffMs (k : Nat) : Nat := min (500 * 2 ^ k) 30000

theorem backOffMs_succ (k : Nat) : min (backOffMs k * 2) 30000 = backOffMs (k + 1) := by
  unfold backOffMs
  rw [Nat.pow_succ]
  omega

theorem backOffMs_bounds (k : Nat) : 500 ≤ backOffMs k ∧ backOffMs k ≤ 30000 := by
  have hpow := Nat.one_le_two_pow (n := k)
  unfold backOffMs
  omega

namespace Connector

/-- Some more attempts have failed after the first `n`: the timers behind
    `kept` are theirs. -/
def BacksOff (kept : List Nat) (n : Nat) (c : Connector) : Prop :=
  ∃ m, c.timers = kept ++ (List.range' n m).map (fun k => backOffMs k / 1000) ∧
    c.retryDelayMs_ = backOffMs (n + m)

namespace BacksOff

variable {kept : List Nat} {n : Nat} {c c' : Connector}

theorem start (h : c.retryDelayMs_ = backOffMs n) : BacksOff c.timers n c :=
  ⟨0, (List.append_nil _).symm, h⟩

/-- What neither schedules nor doubles. -/
theorem same (h : BacksOff kept n c) (htimers : c'.timers = c.timers)
    (hdelay : c'.retryDelayMs_ = c.retryDelayMs_) : BacksOff kept n c' := by
  obtain ⟨m, ht, hd⟩ := h
  exact ⟨m, htimers.trans ht, hdelay.trans hd⟩

/-- One more attempt has failed. -/
theorem retry (h : BacksOff kept n c) (sockfd : Int) : BacksOff kept n (c.retry sockfd) := by
  obtain ⟨m, ht, hd⟩ := h
  unfold Connector.retry
  dsimp only
  split
  · refine ⟨m + 1, ?_, ?_⟩
    · show c.timers ++ [c.retryDelayMs_ / 1000] = _
      rw [ht, hd, List.range'_concat, List.map_append, List.append_assoc, Nat.one_mul]
      rfl
    · show min (c.retryDelayMs_ * 2) kMaxRetryDelayMs = _
      rw [hd]
      exact backOffMs_succ (n + m)
  · exact ⟨m, ht, hd⟩

theorem assert (h : BacksOff kept n c) (name : ConnectorAssert) (holds : Bool) :
    BacksOff kept n (c.assert name holds) := by
  unfold Connector.assert
  split
  · exact h
  · exact h.same rfl rfl

theorem connect (h : BacksOff kept n c) (a : ConnectAttempt) : BacksOff kept n (c.connect a) := by
  have hconnecting : BacksOff kept n (c.connecting a) := by
    have hstate : BacksOff kept n (c.setState .kConnecting) := h.same rfl rfl
    exact (hstate.assert .connecting c.channel_.isNone).same rfl rfl
  unfold Connector.connect
  cases a.savedErrno with
  | none | EINPROGRESS | EINTR | EISCONN => exact hconnecting
  | EAGAIN | EADDRINUSE | EADDRNOTAVAIL | ECONNREFUSED | ENETUNREACH => exact h.retry a.sockfd
  | EACCES | EPERM | EAFNOSUPPORT | EALREADY | EBADF | EFAULT | ENOTSOCK => exact h.same rfl rfl
  | other e => exact h.same rfl rfl

theorem startInLoop (h : BacksOff kept n c) (a : ConnectAttempt) :
    BacksOff kept n (c.startInLoop a) := by
  have hassert := h.assert .startInLoop (c.state_ = .kDisconnected)
  unfold Connector.startInLoop
  dsimp only
  split
  · exact hassert.connect a
  · exact hassert

theorem removeAndResetChannel (h : BacksOff kept n c) (ch : Channel) :
    BacksOff kept n (c.removeAndResetChannel ch) := h.same rfl rfl

theorem stopInLoop (h : BacksOff kept n c) : BacksOff kept n c.stopInLoop := by
  unfold Connector.stopInLoop
  split
  · next ch _ _ =>
    have hstate : BacksOff kept n (c.setState .kDisconnected) := h.same rfl rfl
    exact (hstate.removeAndResetChannel ch).retry ch.fd_
  · exact h

theorem handleWrite (h : BacksOff kept n c) (soError selfConnect : Bool) :
    BacksOff kept n (c.handleWrite soError selfConnect) := by
  unfold Connector.handleWrite
  split
  · next ch _ _ =>
    have hremoved := h.removeAndResetChannel ch
    dsimp only
    split
    · exact hremoved.retry ch.fd_
    · split
      · exact hremoved.retry ch.fd_
      · split
        · exact hremoved.same rfl rfl
        · exact hremoved.same rfl rfl
  · exact h
  · exact h.assert _ _
  · exact h.assert _ _

theorem handleError (h : BacksOff kept n c) : BacksOff kept n c.handleError := by
  have hassert := h.assert .handleError (c.state_ = .kConnecting)
  unfold Connector.handleError
  dsimp only
  split
  · next ch _ => exact (hassert.removeAndResetChannel ch).retry ch.fd_
  · exact hassert

theorem handleEvent (h : BacksOff kept n c) (err out soError selfConnect : Bool) :
    BacksOff kept n (c.handleEvent err out soError selfConnect) := by
  have herror : BacksOff kept n (if err then c.handleError else c) := by
    split
    · exact h.handleError
    · exact h
  unfold Connector.handleEvent
  dsimp only
  split
  · exact herror.handleWrite soError selfConnect
  · exact herror

theorem doPendingFunctor (h : BacksOff kept n c) : BacksOff kept n c.doPendingFunctor := by
  unfold Connector.doPendingFunctor
  split
  · exact h
  · next f fs _ =>
    have hrest : BacksOff kept n { c with pendingFunctors_ := fs } := h.same rfl rfl
    cases f with
    | stopInLoop => exact hrest.stopInLoop
    | resetChannel => exact hrest.same rfl rfl

end BacksOff

end Connector

/-! ## Failed attempts -/

/-- A connector with what its `retry` gave to `runAfter`, in microseconds,
    since it was made or last restarted: one number for each attempt that
    failed. -/
structure Retries where
  connector : Connector
  delays : List Nat

namespace Retries

def new : Retries := ⟨Connector.new, []⟩

/-- The timers that a step begins with: the one that expires is gone. -/
def kept (c : Connector) : ConnectorStep → List Nat
  | .retryTimer i _ => c.timers.eraseIdx i
  | .start _ | .restart _ | .stop | .handleEvent _ _ _ _ | .doPendingFunctor => c.timers

/-- What was counted before a step. -/
def counted (s : Retries) : ConnectorStep → List Nat
  | .restart _ => []
  | .start _ | .stop | .retryTimer _ _ | .handleEvent _ _ _ _ | .doPendingFunctor => s.delays

/-- The timers of a step stand behind those it began with. -/
def next (s : Retries) (l : ConnectorStep) : Retries where
  connector := s.connector.next l
  delays := s.counted l ++ (s.connector.next l).timers.drop (kept s.connector l).length

end Retries

/-- Calls, events, timers and functors in any order. -/
def retries : Machine Retries ConnectorStep where
  guard := fun s => s.connector.guard
  next := Retries.next

instance (s : Retries) (l : ConnectorStep) : Decidable (retries.guard s l) :=
  inferInstanceAs (Decidable (s.connector.guard l))

namespace Retries

/-- The next attempt comes when it should: the times double up to the
    largest one, and `runAfter` is given microseconds. -/
structure Exponential (s : Retries) : Prop where
  scheduled : ∀ k delay, s.delays[k]? = some delay → delay = 1000 * backOffMs k
  bounds : 500 ≤ s.connector.retryDelayMs_ ∧ s.connector.retryDelayMs_ ≤ 30000

/-- What `retry` does instead. -/
structure Counted (s : Retries) : Prop where
  delays : s.delays = (List.range s.delays.length).map fun k => backOffMs k / 1000
  retryDelayMs_ : s.connector.retryDelayMs_ = backOffMs s.delays.length

theorem counted_new : new.Counted := ⟨rfl, rfl⟩

/-- **Step**: the attempts that fail in it are counted on. -/
theorem Counted.next {s : Retries} (h : s.Counted) (l : ConnectorStep) : (s.next l).Counted := by
  have hcounted : s.counted l =
      (List.range (s.counted l).length).map (fun k => backOffMs k / 1000) := by
    cases l with
    | restart a => rfl
    | start | stop | retryTimer | handleEvent | doPendingFunctor => exact h.delays
  have hstep : (s.connector.next l).BacksOff (kept s.connector l) (s.counted l).length := by
    have hstart := Connector.BacksOff.start h.retryDelayMs_
    cases l with
    | start a =>
      have hon : { s.connector with connect_ := true }.BacksOff s.connector.timers
          s.delays.length := hstart.same rfl rfl
      exact hon.startInLoop a
    | restart a =>
      -- the delay is the first one again
      have hon : Connector.BacksOff s.connector.timers 0
          { s.connector.setState .kDisconnected with
            retryDelayMs_ := Connector.kInitRetryDelayMs
            connect_ := true } := ⟨0, (List.append_nil _).symm, rfl⟩
      exact hon.startInLoop a
    | stop => exact hstart.same rfl rfl
    | retryTimer i a =>
      have herased : Connector.BacksOff (s.connector.timers.eraseIdx i) s.delays.length
          { s.connector with timers := s.connector.timers.eraseIdx i } :=
        Connector.BacksOff.start h.retryDelayMs_
      exact herased.startInLoop a
    | handleEvent err out soError selfConnect =>
      exact hstart.handleEvent err out soError selfConnect
    | doPendingFunctor => exact hstart.doPendingFunctor
  obtain ⟨m, htimers, hdelay⟩ := hstep
  have hdelays : (s.next l).delays =
      (List.range ((s.counted l).length + m)).map fun k => backOffMs k / 1000 := by
    show s.counted l ++ (s.connector.next l).timers.drop (kept s.connector l).length = _
    rw [htimers, List.drop_left, List.range_add, List.map_append, ← hcounted,
      List.range'_eq_map_range]
  have hlength : (s.next l).delays.length = (s.counted l).length + m := by
    rw [hdelays, List.length_map, List.length_range]
  exact ⟨by rw [hlength, hdelays], by rw [hlength]; exact hdelay⟩

theorem counted_run {ls : List ConnectorStep} (hvalid : retries.Valid new ls) :
    (retries.run new ls).Counted :=
  retries.invariant_run Counted (fun _ l h _ => h.next l) counted_new hvalid

/-- **The next attempt never comes when it should**: in every run, whatever
    attempt has failed, `runAfter` is given the seconds to wait without
    their fraction, which is not the number of microseconds; so all is well
    only as long as no attempt has failed.  The time that `retry` keeps is
    the right one, within its bounds. -/
theorem never_exponential {ls : List ConnectorStep} (hvalid : retries.Valid new ls) :
    let s := retries.run new ls
    (∀ k delay, s.delays[k]? = some delay →
      delay = backOffMs k / 1000 ∧ delay ≠ 1000 * backOffMs k) ∧
      (s.Exponential ↔ s.delays = []) ∧
      s.connector.retryDelayMs_ = backOffMs s.delays.length ∧
      500 ≤ s.connector.retryDelayMs_ ∧ s.connector.retryDelayMs_ ≤ 30000 := by
  have h := counted_run hvalid
  have hdelay : ∀ k delay, (retries.run new ls).delays[k]? = some delay →
      delay = backOffMs k / 1000 ∧ delay ≠ 1000 * backOffMs k := by
    intro k delay hk
    rw [h.delays, List.getElem?_map, Option.map_eq_some_iff] at hk
    obtain ⟨j, hj, rfl⟩ := hk
    obtain ⟨_, hkj⟩ := List.getElem?_eq_some_iff.mp hj
    rw [List.getElem_range] at hkj
    subst hkj
    have hbounds := backOffMs_bounds k
    omega
  have hbounds := backOffMs_bounds (retries.run new ls).delays.length
  rw [← h.retryDelayMs_] at hbounds
  refine ⟨hdelay, ⟨fun hexp => ?_, fun hnone => ⟨?_, hbounds⟩⟩, h.retryDelayMs_, hbounds⟩
  · -- the first one that failed is enough
    by_contra hne
    obtain ⟨delay, rest, hcons⟩ := List.exists_cons_of_ne_nil hne
    have hfirst : (retries.run new ls).delays[0]? = some delay := by
      rw [hcons]
      rfl
    exact (hdelay 0 delay hfirst).2 (hexp.scheduled 0 delay hfirst)
  · intro k delay hk
    rw [hnone] at hk
    cases hk

/-- Two attempts fail. -/
theorem never_exponential_two :
    let refused (fd : Int) : ConnectAttempt := ⟨fd, .ECONNREFUSED, 0⟩
    let s := retries.run new [.start (refused 5), .retryTimer 0 (refused 5)]
    s.Exponential ↔ s.delays = [] :=
  (@never_exponential [.start ⟨5, .ECONNREFUSED, 0⟩, .retryTimer 0 ⟨5, .ECONNREFUSED, 0⟩]
    (by decide +kernel)).2.1

/-- The first attempt fails, and the next one comes at once instead of half
    a second later. -/
theorem not_exponential :
    ¬ ∀ ls : List ConnectorStep, retries.Valid new ls → (retries.run new ls).Exponential := by
  intro h
  have hexp := h [.start ⟨5, .ECONNREFUSED, 0⟩] (by decide +kernel)
  exact absurd (hexp.scheduled 0 0 (by decide +kernel)) (by decide)

end Retries

end TinyWS
