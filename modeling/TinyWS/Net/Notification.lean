import TinyWS.Net.TcpConnection

/-! # Connection Notifications

    `connectionCallback_` is invoked in two places: when the connection is
    established, and in `connectionDestroyed` if the state is still
    `kConnected`.  Every close path but the server's own teardown, and
    every `shutdown`, has changed the state by then, so the user hears of
    the end of a connection only in the runs without them. -/

namespace TinyWS

namespace Endpoint

/-- The steps that end `kConnected`: the peer closed, the socket hung up,
    or the user shut down. -/
def EndsConnected : ConnStep → Prop
  | .handleRead r => r = .eof
  | .handleClose => True
  | .shutdown _ => True
  | _ => False

instance : DecidablePred EndsConnected
  | .handleRead r => inferInstanceAs (Decidable (r = .eof))
  | .handleClose => isTrue trivial
  | .shutdown _ => isTrue trivial
  | .send _ _ _ => isFalse id
  | .handleWrite _ => isFalse id
  | .doPendingFunctor _ => isFalse id
  | .connectionDestroyed => isFalse id

/-! ## One step -/

theorem sameLife_doPendingFunctor (e : Endpoint) (w : WriteResult) :
    (e.doPendingFunctor w).state_ = e.state_ ∧ (e.doPendingFunctor w).notified = e.notified := by
  unfold doPendingFunctor
  split
  · exact ⟨rfl, rfl⟩
  · next f fs _ =>
    have h := sameLife_runFunctor { e with pendingFunctors_ := fs } f w
    exact ⟨h.state_, h.notified⟩

/-- Between the two ends of its life no step notifies the user, and the
    connection stays `kConnected` through every step that does not end it. -/
theorem step_notified (e : Endpoint) {l : ConnStep} (hl : l ≠ .connectionDestroyed) :
    (e.step l).notified = e.notified ∧
      ((e.step l).state_ = .kConnected ↔ e.state_ = .kConnected ∧ ¬ EndsConnected l) := by
  cases l with
  | send b message w =>
    show (e.send b message w).notified = e.notified ∧
      ((e.send b message w).state_ = .kConnected ↔ e.state_ = .kConnected ∧ ¬ False)
    unfold send
    by_cases hs : e.state_ = .kConnected
    · have h := sameLife_sendInLoop { e with sent := e.sent ++ [message] } message w
      rw [if_pos hs]
      cases b with
      | true =>
        rw [if_pos rfl]
        exact ⟨h.notified, iff_of_true (h.state_.trans hs) ⟨hs, not_false⟩⟩
      | false =>
        -- another thread only queues the functor
        simp [queueInLoop, hs]
    · simp [hs]
  | shutdown b =>
    show (e.shutdown b).notified = e.notified ∧
      ((e.shutdown b).state_ = .kConnected ↔ e.state_ = .kConnected ∧ ¬ True)
    unfold shutdown
    by_cases hs : e.state_ = .kConnected
    · have h := sameLife_shutdownInLoop (e.setState .kDisconnecting)
      rw [if_pos hs]
      cases b with
      | true =>
        rw [if_pos rfl]
        -- the connection is disconnecting, whatever happens in the loop
        refine ⟨h.notified, ?_⟩
        rw [h.state_]
        simp [setState]
      | false => simp [queueInLoop, setState]
    · simp [hs]
  | handleRead r =>
    cases r with
    | data bs => simp [step, handleRead, EndsConnected]
    | eof => simp [step, handleRead, handleClose, setState, disableAll, EndsConnected]
    | error => simp [step, handleRead, EndsConnected]
  | handleWrite w =>
    have h := sameLife_handleWrite e w
    simp [step, h.notified, h.state_, EndsConnected]
  | handleClose => simp [step, handleClose, setState, disableAll, EndsConnected]
  | doPendingFunctor w =>
    have h := sameLife_doPendingFunctor e w
    simp [step, h.1, h.2, EndsConnected]
  | connectionDestroyed => exact absurd rfl hl

/-! ## Whole lives -/

theorem run_notified (e : Endpoint) {steps : List ConnStep}
    (hsteps : .connectionDestroyed ∉ steps) :
    (connection.run e steps).notified = e.notified ∧
      ((connection.run e steps).state_ = .kConnected ↔
        e.state_ = .kConnected ∧ ∀ l ∈ steps, ¬ EndsConnected l) := by
  induction steps generalizing e with
  | nil => simp
  | cons l ls ih =>
    rw [List.mem_cons, not_or] at hsteps
    obtain ⟨hnotified, hstate⟩ := step_notified e (Ne.symm hsteps.1)
    obtain ⟨ihn, ihs⟩ := ih (e.step l) hsteps.2
    refine ⟨ihn.trans hnotified, ?_⟩
    show (connection.run (e.step l) ls).state_ = .kConnected ↔ _
    rw [ihs, hstate, List.forall_mem_cons, and_assoc]

/-- **Paired notifications**: in every run from `connectionEstablished` to
    the end of `connectionDestroyed`, the user is notified of both ends if
    and only if nothing but the final `connectionDestroyed` ended
    `kConnected`: no peer close, no hang-up and no `shutdown`. -/
theorem notified_pair_iff (name : String) (loop : LoopId) (self : ChannelPtr) (fd : Int)
    (writeComplete : Bool) (epoll : Epoll) (steps : List ConnStep)
    (hsteps : .connectionDestroyed ∉ steps) :
    (connection.run (established name loop self fd writeComplete epoll)
        (steps ++ [.connectionDestroyed])).notified = [true, false] ↔
      ∀ l ∈ steps, ¬ EndsConnected l := by
  have hstart : (established name loop self fd writeComplete epoll).notified = [true] ∧
      (established name loop self fd writeComplete epoll).state_ = .kConnected := ⟨rfl, rfl⟩
  obtain ⟨hnotified, hstate⟩ :=
    run_notified (established name loop self fd writeComplete epoll) hsteps
  rw [hstart.1] at hnotified
  rw [hstart.2] at hstate
  rw [connection.run_append]
  generalize connection.run (established name loop self fd writeComplete epoll) steps = e at *
  show e.connectionDestroyed.notified = [true, false] ↔ _
  unfold connectionDestroyed
  by_cases hs : e.state_ = .kConnected
  · -- the second notification sees a state other than `kConnected`
    simpa [hs, remove, notify, disableAll, setState, hnotified, TcpConnection.connected]
      using hstate.mp hs
  · have hno : ¬ ∀ l ∈ steps, ¬ EndsConnected l := fun h => hs (hstate.mpr ⟨rfl, h⟩)
    rw [if_neg hs]
    simp [remove, hnotified, hno]

/-- Data arrives, a message is sent, and the server is torn down. -/
theorem notified_pair_teardown :
    (connection.run (established "c" 0 0 5 false Epoll.new)
        ([.handleRead (.data [1]), .send true [2] (.wrote 1)] ++
          [.connectionDestroyed])).notified = [true, false] ↔
      ∀ l ∈ [ConnStep.handleRead (.data [1]), .send true [2] (.wrote 1)], ¬ EndsConnected l :=
  notified_pair_iff "c" 0 0 5 false Epoll.new _ (by decide)

/-- After a peer close the user hears nothing more. -/
theorem notified_once_peer_close :
    let e := connection.run (established "c" 0 0 5 false Epoll.new)
      [.handleRead .eof, .connectionDestroyed]
    e.notified = [true] ∧ e.notified ≠ [true, false] := by
  decide +kernel

end Endpoint

end TinyWS
