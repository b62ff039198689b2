import TinyWS.Net.TcpClient

/-! # The Life of a Client's Connection

    The connector reports a socket when an attempt is completed, and the
    client makes a connection of it.  That connection is the end of the
    client's guarantees: `connection()` does not have it, and its
    destructor finds it `kConnecting`. -/

namespace TinyWS

/-! ## What the connector reports -/

namespace Connector

variable {c : Connector}

/-- The event that completes an attempt. -/
def Completes (c : Connector) : ConnectorStep → Prop
  | .handleEvent err out soError selfConnect =>
      (err = false ∧ out = true ∧ soError = false ∧ selfConnect = false) ∧
        c.connect_ = true ∧ c.state_ = .kConnecting
  | _ => False

instance (c : Connector) : DecidablePred c.Completes
  | .handleEvent _ _ _ _ => inferInstanceAs (Decidable (_ ∧ _))
  | .start _ | .restart _ | .stop | .retryTimer _ _ | .doPendingFunctor => isFalse id

theorem established_retry (c : Connector) (sockfd : Int) :
    (c.retry sockfd).established = c.established := by
  unfold retry
  dsimp only
  split
  · rfl
  · rfl

theorem established_assert (name : ConnectorAssert) (holds : Bool) (c : Connector) :
    (c.assert name holds).established = c.established := by
  unfold assert
  split
  · rfl
  · rfl

theorem established_connect (c : Connector) (a : ConnectAttempt) :
    (c.connect a).established = c.established := by
  unfold connect
  cases a.savedErrno with
  | none | EINPROGRESS | EINTR | EISCONN =>
    exact established_assert .connecting _ (c.setState .kConnecting)
  | EAGAIN | EADDRINUSE | EADDRNOTAVAIL | ECONNREFUSED | ENETUNREACH =>
    exact established_retry c a.sockfd
  | EACCES | EPERM | EAFNOSUPPORT | EALREADY | EBADF | EFAULT | ENOTSOCK => rfl
  | other n => rfl

theorem established_startInLoop (c : Connector) (a : ConnectAttempt) :
    (c.startInLoop a).established = c.established := by
  unfold startInLoop
  dsimp only
  split
  · exact (established_connect _ a).trans (established_assert _ _ c)
  · exact established_assert _ _ c

theorem established_stopInLoop (c : Connector) : c.stopInLoop.established = c.established := by
  unfold stopInLoop
  split
  · exact established_retry _ _
  · rfl

theorem established_handleError (c : Connector) : c.handleError.established = c.established := by
  unfold handleError
  dsimp only
  split
  · exact (established_retry _ _).trans (established_assert _ _ c)
  · exact established_assert _ _ c

theorem established_doPendingFunctor (c : Connector) :
    c.doPendingFunctor.established = c.established := by
  unfold doPendingFunctor
  split
  · rfl
  · next f fs _ =>
    cases f with
    | stopInLoop => exact established_stopInLoop { c with pendingFunctors_ := fs }
    | resetChannel => rfl

/-- A connector that is no longer connecting reports nothing. -/
theorem established_handleWrite_idle (hstate : c.state_ ≠ .kConnecting)
    (soError selfConnect : Bool) :
    (c.handleWrite soError selfConnect).established = c.established := by
  unfold handleWrite
  split
  · next hconnecting _ => exact absurd hconnecting hstate
  · rfl
  · exact established_assert _ _ c
  · exact established_assert _ _ c

/-- After an error the connector is disconnected. -/
theorem state_handleError (hregistered : c.Registered) :
    c.handleError.state_ ≠ .kConnecting := by
  obtain ⟨ch, hch, -⟩ := hregistered
  have hchannel : (c.assert .handleError (c.state_ = .kConnecting)).channel_ = some ch := by
    rw [assert]
    split
    · exact hch
    · exact hch
  unfold handleError
  dsimp only
  rw [hchannel]
  unfold retry
  dsimp only
  split
  · exact ConnectorState.noConfusion
  · exact ConnectorState.noConfusion

/-- A writable socket is reported unless something is wrong with it. -/
theorem established_handleWrite (hregistered : c.Registered) (hstate : c.state_ = .kConnecting)
    (soError selfConnect : Bool) :
    (soError = false ∧ selfConnect = false ∧ c.connect_ = true ∧
        ∃ sockfd, (c.handleWrite soError selfConnect).established = c.established ++ [sockfd]) ∨
      (¬ (soError = false ∧ selfConnect = false ∧ c.connect_ = true) ∧
        (c.handleWrite soError selfConnect).established = c.established) := by
  obtain ⟨ch, hch, -⟩ := hregistered
  have hchannel : c.channel_ = some ch := hch
  unfold handleWrite
  rw [hstate, hchannel]
  dsimp only
  cases soError with
  | true =>
    right
    refine ⟨fun h => Bool.noConfusion h.1, ?_⟩
    rw [if_pos rfl]
    exact established_retry _ _
  | false =>
    rw [if_neg Bool.false_ne_true]
    cases selfConnect with
    | true =>
      right
      refine ⟨fun h => Bool.noConfusion h.2.1, ?_⟩
      rw [if_pos rfl]
      exact established_retry _ _
    | false =>
      rw [if_neg Bool.false_ne_true]
      split
      · next hconnect => exact Or.inl ⟨rfl, rfl, hconnect, ch.fd_, rfl⟩
      · next hconnect => exact Or.inr ⟨fun h => hconnect h.2.2, rfl⟩

theorem established_handleEvent (hregistered : c.Registered)
    (err out soError selfConnect : Bool) :
    (c.Completes (.handleEvent err out soError selfConnect) ∧
        ∃ sockfd, (c.handleEvent err out soError selfConnect).established =
          c.established ++ [sockfd]) ∨
      (¬ c.Completes (.handleEvent err out soError selfConnect) ∧
        (c.handleEvent err out soError selfConnect).established = c.established) := by
  unfold handleEvent
  dsimp only
  cases err with
  | true =>
    right
    refine ⟨fun h => Bool.noConfusion h.1.1, ?_⟩
    rw [if_pos rfl]
    -- `handleError` leaves `kConnecting` before `handleWrite` is called
    split
    · exact (established_handleWrite_idle (state_handleError hregistered) _ _).trans
        (established_handleError c)
    · exact established_handleError c
  | false =>
    rw [if_neg Bool.false_ne_true]
    cases out with
    | false => exact Or.inr ⟨fun h => Bool.noConfusion h.1.2.1, rfl⟩
    | true =>
      rw [if_pos rfl]
      by_cases hstate : c.state_ = .kConnecting
      · rcases established_handleWrite hregistered hstate soError selfConnect with
          ⟨hso, hself, hconnect, hnew⟩ | ⟨hnot, hsame⟩
        · exact Or.inl ⟨⟨⟨rfl, rfl, hso, hself⟩, hconnect, hstate⟩, hnew⟩
        · exact Or.inr ⟨fun h => hnot ⟨h.1.2.2.1, h.1.2.2.2, h.2.1⟩, hsame⟩
      · exact Or.inr ⟨fun h => hstate h.2.2,
          established_handleWrite_idle hstate soError selfConnect⟩

/-- **What is reported**: a completed attempt and nothing else. -/
theorem established_next {l : ConnectorStep} (hguard : c.guard l) :
    (c.Completes l ∧ ∃ sockfd, (c.next l).established = c.established ++ [sockfd]) ∨
      (¬ c.Completes l ∧ (c.next l).established = c.established) := by
  cases l with
  | start a => exact Or.inr ⟨id, established_startInLoop { c with connect_ := true } a⟩
  | restart a =>
    exact Or.inr ⟨id, established_startInLoop
      { c.setState .kDisconnected with
        retryDelayMs_ := kInitRetryDelayMs, connect_ := true } a⟩
  | stop => exact Or.inr ⟨id, rfl⟩
  | retryTimer i a =>
    exact Or.inr ⟨id, established_startInLoop { c with timers := c.timers.eraseIdx i } a⟩
  | doPendingFunctor => exact Or.inr ⟨id, established_doPendingFunctor c⟩
  | handleEvent err out soError selfConnect =>
    rcases established_handleEvent hguard err out soError selfConnect with ⟨h, hnew⟩ | ⟨h, hsame⟩
    · exact Or.inl ⟨h, hnew⟩
    · exact Or.inr ⟨h, hsame⟩

end Connector

namespace TcpClient

/-! ## The specification -/

/-- The connection established last is `connection()`, and connected, until
    it is closed; `removeConnection` finds the connection that is removed;
    no connection is destroyed before it is disconnected. -/
def LivesRight (t : TcpClient) : Prop :=
  (∀ c ∈ t.current, t.connection_ = some c ∧ (t.conns c).state_ = .kConnected) ∧
    (∀ found ∈ t.removeAsserts, found = true) ∧
      ∀ state ∈ t.destroyed, state = StateE.kDisconnected

instance (t : TcpClient) : Decidable t.LivesRight := inferInstanceAs (Decidable (_ ∧ _))

/-- The condition of the runs: no attempt is completed. -/
def NeverConnects (t : TcpClient) : ClientStep → Prop
  | .handleEvent err out soError selfConnect _ =>
      ¬ t.connector_.Completes (.handleEvent err out soError selfConnect)
  | _ => True

instance (t : TcpClient) : DecidablePred t.NeverConnects
  | .handleEvent err out soError selfConnect _ =>
      inferInstanceAs (Decidable (¬ t.connector_.Completes (.handleEvent err out soError selfConnect)))
  | .connect _ | .disconnect | .stop | .enableRetry | .retryTimer _ _ | .connectorFunctor
  | .handleClose _ _ | .connectionDestroyed => isTrue trivial

/-! ## A new connection -/

section Steps

variable {t : TcpClient}

/-- Nothing has been made, and nothing is held. -/
structure Unconnected (t : TcpClient) : Prop where
  connection_ : t.connection_ = none
  pendingFunctors_ : t.pendingFunctors_ = []
  current : t.current = none
  removeAsserts : t.removeAsserts = []
  destroyed : t.destroyed = []

theorem unconnected_new (name : String) : (new name).Unconnected := ⟨rfl, rfl, rfl, rfl, rfl⟩

theorem Unconnected.livesRight (h : t.Unconnected) : t.LivesRight := by
  rw [LivesRight, h.current, h.removeAsserts, h.destroyed]
  simp

theorem Unconnected.not_held (h : t.Unconnected) (c : ConnPtr) : t.held c = false := by
  rw [held, h.connection_, h.pendingFunctors_]
  rfl

/-- The connection is destroyed by the function that makes it. -/
theorem destroyed_newConnection (h : t.Unconnected) (sockfd : Int) (self : ChannelPtr) :
    (t.newConnection sockfd self).destroyed = [.kConnecting] := by
  -- `connection_` is not set, so only the local variable holds it
  have hfree : t.held t.created = false := h.not_held t.created
  have hconn : (if t.created = t.created then
      TcpConnection.new (t.name_ ++ "#" ++ toString t.nextConnectionId_) 0 self sockfd false
      else t.conns t.created).state_ = .kConnecting := by
    rw [if_pos rfl]
    rfl
  unfold newConnection release
  rw [if_neg]
  · dsimp only
    rw [hconn, h.destroyed]
    rfl
  · show ¬ t.held t.created = true
    rw [hfree]
    exact Bool.false_ne_true

/-- A step of the connector that reports nothing. -/
theorem connectorStep_quiet {l : ConnectorStep}
    (hsame : (t.connector_.next l).established = t.connector_.established) (self : ChannelPtr) :
    t.connectorStep l self = { t with connector_ := t.connector_.next l } := by
  unfold connectorStep
  dsimp only
  rw [hsame, List.drop_length]

/-- One that reports a socket. -/
theorem connectorStep_reports {l : ConnectorStep} {sockfd : Int}
    (hnew : (t.connector_.next l).established = t.connector_.established ++ [sockfd])
    (self : ChannelPtr) :
    t.connectorStep l self =
      { t with connector_ := t.connector_.next l }.newConnection sockfd self := by
  unfold connectorStep
  dsimp only
  rw [hnew, List.drop_left]

/-- The connector goes on, and reports nothing. -/
theorem unconnected_connectorStep (h : t.Unconnected) {l : ConnectorStep}
    (hguard : t.connector_.guard l) (hquiet : ¬ t.connector_.Completes l) (self : ChannelPtr) :
    (t.connectorStep l self).Unconnected := by
  rcases Connector.established_next hguard with ⟨hcompletes, -⟩ | ⟨-, hsame⟩
  · exact absurd hcompletes hquiet
  · rw [connectorStep_quiet hsame]
    exact ⟨h.connection_, h.pendingFunctors_, h.current, h.removeAsserts, h.destroyed⟩

/-- **Step**: without a completed attempt there is no connection. -/
theorem unconnected_next (h : t.Unconnected) {l : ClientStep} (hguard : t.guard l)
    (hcond : t.NeverConnects l) : (t.next l).Unconnected := by
  cases l with
  | connect a | stop | enableRetry =>
    exact ⟨h.connection_, h.pendingFunctors_, h.current, h.removeAsserts, h.destroyed⟩
  | disconnect =>
    have hnone : t.disconnect = { t with connect_ := false } := by
      rw [disconnect, h.connection_]
    show t.disconnect.Unconnected
    rw [hnone]
    exact ⟨h.connection_, h.pendingFunctors_, h.current, h.removeAsserts, h.destroyed⟩
  | retryTimer i a => exact unconnected_connectorStep (l := .retryTimer i a) h hguard id 0
  | handleEvent err out soError selfConnect self =>
    exact unconnected_connectorStep (l := .handleEvent err out soError selfConnect) h hguard
      hcond self
  | connectorFunctor => exact unconnected_connectorStep (l := .doPendingFunctor) h hguard id 0
  | handleClose c a =>
    -- there is no connection to close
    cases (h.not_held c).symm.trans hguard.1
  | connectionDestroyed => exact absurd h.pendingFunctors_ hguard

/-- A completed attempt is lost. -/
theorem not_livesRight_next (h : t.Unconnected) {l : ClientStep} (hguard : t.guard l)
    (hcond : ¬ t.NeverConnects l) : ¬ (t.next l).LivesRight := by
  cases l with
  | handleEvent err out soError selfConnect self =>
    have hcompletes : t.connector_.Completes (.handleEvent err out soError selfConnect) :=
      not_not.mp hcond
    have hevent : t.connector_.guard (.handleEvent err out soError selfConnect) := hguard
    rcases Connector.established_next hevent with ⟨-, sockfd, hnew⟩ | ⟨hquiet, -⟩
    · have hstep : t.next (.handleEvent err out soError selfConnect self) =
          { t with connector_ := t.connector_.next (.handleEvent err out soError selfConnect) }.newConnection
            sockfd self := connectorStep_reports hnew self
      have hstepped : Unconnected
          { t with connector_ := t.connector_.next (.handleEvent err out soError selfConnect) } :=
        ⟨h.connection_, h.pendingFunctors_, h.current, h.removeAsserts, h.destroyed⟩
      rw [hstep]
      intro hlives
      have hstate := hlives.2.2 .kConnecting
      rw [destroyed_newConnection hstepped] at hstate
      cases hstate (List.mem_singleton_self _)
    · exact absurd hcompletes hquiet
  | connect | disconnect | stop | enableRetry | retryTimer | connectorFunctor | handleClose
  | connectionDestroyed => exact absurd trivial hcond

/-- **Client life cycle**: over any calls, events and timers, the client
    keeps its connections right in every state if and only if no attempt
    to connect is ever completed. -/
theorem livesRight_iff_neverConnects (name : String) (steps : List ClientStep)
    (hvalid : tcpClient.Valid (new name) steps) :
    (∀ pre, pre <+: steps → (tcpClient.run (new name) pre).LivesRight) ↔
      tcpClient.Along NeverConnects (new name) steps := by
  apply tcpClient.always_iff_along
    (fun t steps => t.Unconnected ∧ tcpClient.Valid t steps) LivesRight
  · rintro t steps ⟨h, -⟩
    exact h.livesRight
  · rintro t l steps ⟨h, hguard, hrest⟩ hcond
    exact ⟨unconnected_next h hguard hcond, hrest⟩
  · rintro t l steps ⟨h, hguard, -⟩ hcond
    exact not_livesRight_next h hguard hcond
  · exact ⟨unconnected_new name, hvalid⟩

/-- The attempt fails with an error, and the client is stopped. -/
theorem livesRight_refused :
    let steps : List ClientStep :=
      [.enableRetry, .connect ⟨7, .EINPROGRESS, 70⟩, .handleEvent true true true false 0, .stop,
        .connectorFunctor, .connectorFunctor]
    ∀ pre, pre <+: steps → (tcpClient.run (new "client") pre).LivesRight :=
  (livesRight_iff_neverConnects "client" _ (by decide +kernel)).mpr (by decide +kernel)

/-- The first connection is established. -/
theorem not_livesRight_connected :
    let steps : List ClientStep :=
      [.connect ⟨7, .EINPROGRESS, 70⟩, .handleEvent false true false false 71]
    let t := tcpClient.run (new "client") steps
    tcpClient.Valid (new "client") steps ∧ t.connection_ = none ∧
      t.destroyed = [.kConnecting] ∧ ¬ t.LivesRight := by
  decide +kernel

end Steps

end TcpClient

end TinyWS
