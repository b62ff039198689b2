import TinyWS.Net.OutputStream

/-! # Orderly Shutdown of a Connection

    `shutdown` may find the connection in one of three situations, and
    the socket is shut down in a different place in each:

    * called in the loop thread on an idle channel: at once;
    * called while a write event is awaited: by the `handleWrite` that
      drains the buffer;
    * called in another thread: by the functor it queued, or by the drain
      after it.

    `ShutdownPhase` names these situations.  A run stays inside it as
    long as no message is still queued when the socket is shut down. -/

namespace TinyWS

namespace Endpoint

/-- A functor that neither writes a byte nor shuts the socket down. -/
def Quiet : ConnFunctor → Prop
  | .sendInLoop message => message = []
  | .shutdownInLoop => False
  | .writeComplete => True

instance : DecidablePred Quiet
  | .sendInLoop message => inferInstanceAs (Decidable (message = []))
  | .shutdownInLoop => isFalse id
  | .writeComplete => isTrue trivial

/-- Only `::write` calls so far. -/
def NotShut (calls : List SocketCall) : Prop :=
  ∀ s unsent, .shutdownWrite s unsent ∉ calls

/-- How often `Socket::shutdownWrite` was invoked. -/
def shutdownWrites (calls : List SocketCall) : Nat :=
  calls.countP fun
    | .write _ => false
    | .shutdownWrite _ _ => true

/-! ## The specification -/

/-- What is required of a connection between two steps. -/
structure Orderly (e : Endpoint) : Prop where
  at_most_once : shutdownWrites e.calls ≤ 1
  /-- Invoked in `kDisconnecting`, with nothing left to send. -/
  drained : ∀ s unsent, .shutdownWrite s unsent ∈ e.calls →
    s = .kDisconnecting ∧ unsent = []
  /-- No byte is written afterwards. -/
  last : ∀ pre post s unsent, e.calls = pre ++ .shutdownWrite s unsent :: post →
    written post = []
  /-- It is not forgotten. -/
  invoked : e.state_ = .kDisconnecting → e.channel_.isWriting = false →
    .shutdownInLoop ∉ e.pendingFunctors_ → 0 < shutdownWrites e.calls

/-! ## The phases -/

/-- Where a connection stands on its way to the shutdown of its socket. -/
inductive ShutdownPhase (e : Endpoint) : Prop where
  | up (state_ : e.state_ = .kConnected) (calls : NotShut e.calls)
      (queue : .shutdownInLoop ∉ e.pendingFunctors_)
  | queued (state_ : e.state_ = .kDisconnecting) (calls : NotShut e.calls)
      (before after : List ConnFunctor)
      (queue : e.pendingFunctors_ = before ++ .shutdownInLoop :: after)
      (first : .shutdownInLoop ∉ before) (quiet : ∀ f ∈ after, Quiet f)
  | draining (state_ : e.state_ = .kDisconnecting) (calls : NotShut e.calls)
      (queue : .shutdownInLoop ∉ e.pendingFunctors_)
      (writing : e.channel_.isWriting = true)
  | shut (state_ : e.state_ = .kDisconnecting) (before after : List SocketCall)
      (calls : e.calls = before ++ .shutdownWrite .kDisconnecting [] :: after)
      (first : NotShut before) (silent : ∀ c ∈ after, c = .write [])
      (writing : e.channel_.isWriting = false) (quiet : ∀ f ∈ e.pendingFunctors_, Quiet f)

/-- The invariant of the runs. -/
structure ShuttingDown (e : Endpoint) : Prop where
  writing : e.WritingIffBuffered
  phase : e.ShutdownPhase

theorem notShut_append {cs ds : List SocketCall} (hc : NotShut cs) (hd : NotShut ds) :
    NotShut (cs ++ ds) := by
  intro s unsent h
  rcases List.mem_append.mp h with h | h
  · exact hc s unsent h
  · exact hd s unsent h

theorem notShut_write (taken : Bytes) : NotShut [.write taken] := by
  intro s unsent h
  simp at h

theorem shutdownWrites_eq_zero {cs : List SocketCall} (h : NotShut cs) :
    shutdownWrites cs = 0 := by
  rw [shutdownWrites, List.countP_eq_zero]
  intro c hc
  cases c with
  | write taken => simp
  | shutdownWrite s unsent => exact absurd hc (h s unsent)

theorem shutdownInLoop_not_mem {fs : List ConnFunctor} (h : ∀ f ∈ fs, Quiet f) :
    .shutdownInLoop ∉ fs := fun hm => h _ hm

/-- Only a connection that is up is still connected. -/
theorem ShutdownPhase.of_connected {e : Endpoint} (h : e.ShutdownPhase)
    (hs : e.state_ = .kConnected) : NotShut e.calls ∧ .shutdownInLoop ∉ e.pendingFunctors_ := by
  cases h with
  | up _ hc hq => exact ⟨hc, hq⟩
  | queued hst => simp [hst] at hs
  | draining hst => simp [hst] at hs
  | shut hst => simp [hst] at hs

/-- Every phase meets the specification. -/
theorem orderly_of_shuttingDown {e : Endpoint} (h : e.ShuttingDown) : e.Orderly := by
  -- before the socket is shut down there is nothing to check but the last field
  have hnot : NotShut e.calls → (e.state_ = .kDisconnecting → e.channel_.isWriting = false →
      .shutdownInLoop ∉ e.pendingFunctors_ → False) → e.Orderly := by
    intro hc hinv
    refine ⟨by simp [shutdownWrites_eq_zero hc], ?_, ?_, ?_⟩
    · exact fun s unsent hm => absurd hm (hc s unsent)
    · exact fun pre post s unsent heq => absurd (by simp [heq]) (hc s unsent)
    · exact fun hs hw hq => (hinv hs hw hq).elim
  cases h.phase with
  | up hs hc hq => exact hnot hc fun hd => by simp [hs] at hd
  | queued hs hc before after hq => exact hnot hc fun _ _ hno => hno (by simp [hq])
  | draining hs hc hq hw => exact hnot hc fun _ hno => by simp [hw] at hno
  | shut hs before after hc hfirst hsilent hw hq =>
    -- one shutdown, between writes
    have hafter : NotShut after := by
      intro s unsent hm
      have := hsilent _ hm
      simp at this
    have honce : shutdownWrites e.calls = 1 := by
      have h1 := shutdownWrites_eq_zero hfirst
      have h2 := shutdownWrites_eq_zero hafter
      unfold shutdownWrites at h1 h2 ⊢
      simp [hc, List.countP_append, h1, h2]
    refine ⟨by omega, ?_, ?_, fun _ _ _ => by omega⟩
    · intro s unsent hm
      rw [hc] at hm
      rcases List.mem_append.mp hm with hm | hm
      · exact absurd hm (hfirst s unsent)
      · rcases List.mem_cons.mp hm with heq | hm
        · simpa using heq
        · exact absurd hm (hafter s unsent)
    · intro pre post s unsent heq
      -- both splits are at the only shutdown
      rw [hc] at heq
      obtain ⟨-, -, hpost⟩ :=
        (List.append_cons_inj_of_notMem (hfirst s unsent) (hafter s unsent)).mp heq
      rw [written, List.flatMap_eq_nil_iff, ← hpost]
      intro c hm
      rw [hsilent c hm]

/-! ## Steps -/

/-- Queueing `writeCompleteCallback_` adds no message and no shutdown. -/
theorem SameLife.queued_quiet {e e' : Endpoint} (h : SameLife e e') :
    ∃ extra, e'.pendingFunctors_ = e.pendingFunctors_ ++ extra ∧ .shutdownInLoop ∉ extra ∧
      ∀ f ∈ extra, Quiet f := by
  obtain ⟨extra, hextra, hq⟩ := h.queued
  refine ⟨extra, hq, fun hm => ?_, fun f hf => ?_⟩
  · simpa using hextra _ hm
  · rw [hextra f hf]
    trivial

/-- A message may run as long as the socket is open, an empty one always. -/
theorem shuttingDown_sendInLoop {e : Endpoint} (h : e.ShuttingDown) {message : Bytes}
    (hm : NotShut e.calls ∨ message = []) (w : WriteResult) :
    (e.sendInLoop message w).ShuttingDown := by
  refine ⟨writingIffBuffered_sendInLoop h.writing message w, ?_⟩
  by_cases hi : e.Idle
  · obtain ⟨n, hs⟩ := sendInLoop_idle hi message w
    have hsame := sameLife_sendInLoop e message w
    obtain ⟨extra, hextra, hno, hquiet⟩ := hsame.queued_quiet
    cases h.phase with
    | up hst hc hq =>
      refine .up (hsame.state_.trans hst) ?_ ?_
      · rw [hs.calls]; exact notShut_append hc (notShut_write _)
      · rw [hextra]; simp [hq, hno]
    | queued hst hc before after hq hfirst hafter =>
      -- `writeCompleteCallback_` goes behind the queued shutdown
      refine .queued (hsame.state_.trans hst) ?_ before (after ++ extra) ?_ hfirst ?_
      · rw [hs.calls]; exact notShut_append hc (notShut_write _)
      · rw [hextra, hq]; simp
      · intro f hf
        rcases List.mem_append.mp hf with hf | hf
        · exact hafter f hf
        · exact hquiet f hf
    | draining hst hc hq hw => exact absurd hi.1 (by simp [hw])
    | shut hst before after hc hfirst hsilent hw hq =>
      -- only the empty message may come now
      have hnil : message = [] := by
        refine hm.resolve_left fun hopen => ?_
        exact hopen .kDisconnecting [] (by simp [hc])
      subst hnil
      refine .shut (hsame.state_.trans hst) before (after ++ [.write []]) ?_ hfirst ?_
        (by simpa using hs.writing) ?_
      · rw [hs.calls, hc]; simp
      · intro c hm
        rcases List.mem_append.mp hm with hm | hm
        · exact hsilent c hm
        · simpa using hm
      · intro f hf
        rw [hextra] at hf
        rcases List.mem_append.mp hf with hf | hf
        · exact hq f hf
        · exact hquiet f hf
  · -- a busy connection drops the message
    rw [sendInLoop_busy hi]
    exact h.phase

/-- `shutdownInLoop` once the last message has run: it shuts the socket
    down, or leaves that to the drain. -/
theorem shuttingDown_shutdownInLoop {e : Endpoint} (halign : e.WritingIffBuffered)
    (hst : e.state_ = .kDisconnecting) (hc : NotShut e.calls)
    (hq : e.channel_.isWriting = true ∧ .shutdownInLoop ∉ e.pendingFunctors_ ∨
      ∀ f ∈ e.pendingFunctors_, Quiet f) :
    e.shutdownInLoop.ShuttingDown := by
  unfold shutdownInLoop
  by_cases hw : e.channel_.isWriting = true
  · -- bytes are buffered: the drain will do it
    rw [if_pos hw]
    refine ⟨halign, .draining hst hc ?_ hw⟩
    rcases hq with hq | hq
    · exact hq.2
    · exact shutdownInLoop_not_mem hq
  · -- nothing is buffered: `shutdownWrite` is called here
    rw [if_neg hw]
    have ho : e.outputBuffer_.toString = [] := by
      by_contra hne
      exact hw (halign.mpr hne)
    have hq' : ∀ f ∈ e.pendingFunctors_, Quiet f := hq.resolve_left fun h => hw h.1
    refine ⟨halign, .shut hst e.calls [] ?_ hc (by simp) (by simpa [call] using hw) hq'⟩
    simp [call, hst, ho]

/-- The condition of the runs: wherever the socket is shut down before
    the functor queue was consulted, no message is queued; and the drain
    finds no `shutdownInLoop` queued that would shut it down again. -/
def ShutsDownLast (e : Endpoint) : ConnStep → Prop
  | .shutdown inLoopThread =>
      inLoopThread = true ∧ e.state_ = .kConnected ∧ e.channel_.isWriting = false →
        ∀ f ∈ e.pendingFunctors_, Quiet f
  | .handleWrite w =>
      e.state_ = .kDisconnecting ∧ e.channel_.isWriting = true ∧ e.TakesAll w →
        ∀ f ∈ e.pendingFunctors_, Quiet f
  | _ => True

instance (e : Endpoint) : DecidablePred e.ShutsDownLast
  | .shutdown inLoopThread =>
      inferInstanceAs (Decidable (inLoopThread = true ∧ e.state_ = .kConnected ∧
        e.channel_.isWriting = false → ∀ f ∈ e.pendingFunctors_, Quiet f))
  | .handleWrite w =>
      inferInstanceAs (Decidable (e.state_ = .kDisconnecting ∧ e.channel_.isWriting = true ∧
        e.TakesAll w → ∀ f ∈ e.pendingFunctors_, Quiet f))
  | .send _ _ _ => isTrue trivial
  | .handleRead _ => isTrue trivial
  | .handleClose => isTrue trivial
  | .doPendingFunctor _ => isTrue trivial
  | .connectionDestroyed => isTrue trivial

theorem shuttingDown_send {e : Endpoint} (h : e.ShuttingDown) (inLoopThread : Bool)
    (message : Bytes) (w : WriteResult) :
    (e.send inLoopThread message w).ShuttingDown := by
  unfold send
  by_cases hs : e.state_ = .kConnected
  · rw [if_pos hs]
    have hup := h.phase.of_connected hs
    cases inLoopThread with
    | true =>
      -- `sendInLoop` sees the message in the history already
      have h' : { e with sent := e.sent ++ [message] }.ShuttingDown :=
        ⟨h.writing, .up hs hup.1 hup.2⟩
      exact shuttingDown_sendInLoop h' (Or.inl hup.1) w
    | false =>
      refine ⟨h.writing, .up hs hup.1 ?_⟩
      simp [queueInLoop, hup.2]
  · rw [if_neg hs]
    exact h

theorem shuttingDown_shutdown {e : Endpoint} (h : e.ShuttingDown) (inLoopThread : Bool)
    (hlast : ShutsDownLast e (.shutdown inLoopThread)) :
    (e.shutdown inLoopThread).ShuttingDown := by
  unfold shutdown
  by_cases hs : e.state_ = .kConnected
  · rw [if_pos hs]
    have hup := h.phase.of_connected hs
    cases inLoopThread with
    | true =>
      refine @shuttingDown_shutdownInLoop (e.setState .kDisconnecting) h.writing rfl hup.1 ?_
      by_cases hw : e.channel_.isWriting = true
      · exact Or.inl ⟨hw, hup.2⟩
      · -- the socket is shut down now, so the condition applies
        exact Or.inr (hlast ⟨rfl, hs, by simpa using hw⟩)
    | false =>
      exact ⟨h.writing, .queued rfl hup.1 e.pendingFunctors_ [] (by simp [queueInLoop, setState])
        hup.2 (by simp)⟩
  · rw [if_neg hs]
    exact h

theorem shuttingDown_handleWrite {e : Endpoint} (h : e.ShuttingDown) (w : WriteResult)
    (hlast : ShutsDownLast e (.handleWrite w)) : (e.handleWrite w).ShuttingDown := by
  refine ⟨writingIffBuffered_handleWrite h.writing w, ?_⟩
  have hsame := sameLife_handleWrite e w
  by_cases hw : e.channel_.isWriting = true
  · by_cases hall : e.TakesAll w
    · obtain ⟨hc', -, hw'⟩ := handleWrite_drained hw (h.writing.mp hw) hall
      obtain ⟨extra, hextra, hno, hquiet⟩ := hsame.queued_quiet
      cases h.phase with
      | up hst hc hq =>
        refine .up (hsame.state_.trans hst) ?_ ?_
        · rw [hc', if_neg (by simp [hst])]
          exact notShut_append hc (notShut_write _)
        · rw [hextra]; simp [hq, hno]
      | queued hst hc before after hq =>
        -- the condition rules out a drain before the queued functor ran
        exact absurd (hlast ⟨hst, hw, hall⟩ .shutdownInLoop (by simp [hq])) id
      | draining hst hc hq =>
        -- the drain carries out the shutdown that waited for it
        have hquiet' := hlast ⟨hst, hw, hall⟩
        refine .shut (hsame.state_.trans hst) (e.calls ++ [.write e.outputBuffer_.toString]) []
          ?_ (notShut_append hc (notShut_write _)) (by simp) hw' ?_
        · rw [hc', if_pos hst]; simp
        · intro f hf
          rw [hextra] at hf
          rcases List.mem_append.mp hf with hf | hf
          · exact hquiet' f hf
          · exact hquiet f hf
      | shut hst before after hc hfirst hsilent hno => simp [hw] at hno
    · -- some bytes stay behind, and every phase goes on
      obtain ⟨n, -, hc', -, hw', hq'⟩ := handleWrite_partial hw (h.writing.mp hw) hall
      have hopen : NotShut e.calls → NotShut (e.handleWrite w).calls := by
        intro hc
        rw [hc']
        exact notShut_append hc (notShut_write _)
      cases h.phase with
      | up hst hc hq => exact .up (hsame.state_.trans hst) (hopen hc) (by rwa [hq'])
      | queued hst hc before after hq hfirst hquiet =>
        exact .queued (hsame.state_.trans hst) (hopen hc) before after (by rwa [hq']) hfirst hquiet
      | draining hst hc hq => exact .draining (hsame.state_.trans hst) (hopen hc) (by rwa [hq']) hw'
      | shut hst before after hc hfirst hsilent hno => simp [hw] at hno
  · rw [handleWrite_notWriting (by simpa using hw)]
    exact h.phase

theorem shuttingDown_doPendingFunctor {e : Endpoint} (h : e.ShuttingDown) (w : WriteResult) :
    (e.doPendingFunctor w).ShuttingDown := by
  unfold doPendingFunctor
  cases hf : e.pendingFunctors_ with
  | nil => exact h
  | cons f fs =>
    -- the connection after the functor left the queue
    have halign : { e with pendingFunctors_ := fs }.WritingIffBuffered := h.writing
    have hrun : f ≠ .shutdownInLoop → { e with pendingFunctors_ := fs }.ShutdownPhase →
        (NotShut e.calls ∨ Quiet f) →
        ({ e with pendingFunctors_ := fs }.runFunctor f w).ShuttingDown := by
      intro hne hp hquiet
      cases f with
      | sendInLoop message => exact shuttingDown_sendInLoop ⟨halign, hp⟩ hquiet w
      | shutdownInLoop => exact absurd rfl hne
      | writeComplete => exact ⟨halign, hp⟩
    cases h.phase with
    | up hst hc hq =>
      rw [hf, List.mem_cons, not_or] at hq
      exact hrun (Ne.symm hq.1) (.up hst hc hq.2) (Or.inl hc)
    | queued hst hc before after hq hfirst hquiet =>
      rw [hf] at hq
      cases before with
      | nil =>
        -- its turn has come
        obtain ⟨rfl, rfl⟩ : f = .shutdownInLoop ∧ fs = after := by simpa using hq
        exact shuttingDown_shutdownInLoop halign hst hc (Or.inr hquiet)
      | cons g before =>
        obtain ⟨rfl, hfs⟩ : f = g ∧ fs = before ++ .shutdownInLoop :: after := by simpa using hq
        rw [List.mem_cons, not_or] at hfirst
        exact hrun (Ne.symm hfirst.1) (.queued hst hc before after hfs hfirst.2 hquiet) (Or.inl hc)
    | draining hst hc hq hw =>
      rw [hf, List.mem_cons, not_or] at hq
      exact hrun (Ne.symm hq.1) (.draining hst hc hq.2 hw) (Or.inl hc)
    | shut hst before after hc hfirst hsilent hw hq =>
      rw [hf] at hq
      have hquiet := hq f (by simp)
      have hne : f ≠ .shutdownInLoop := by
        rintro rfl
        exact hquiet
      exact hrun hne (.shut hst before after hc hfirst hsilent hw fun g hg => hq g (by simp [hg]))
        (Or.inr hquiet)

/-! ## Runs -/

/-- The steps of a connection that sends and shuts down. -/
def SendsAndShutsDown : ConnStep → Prop
  | .send _ _ _ | .shutdown _ | .handleWrite _ | .doPendingFunctor _ => True
  | _ => False

instance : DecidablePred SendsAndShutsDown
  | .send _ _ _ | .shutdown _ | .handleWrite _ | .doPendingFunctor _ => isTrue trivial
  | .handleRead _ | .handleClose | .connectionDestroyed => isFalse id

theorem shuttingDown_established (name : String) (loop : LoopId) (self : ChannelPtr) (fd : Int)
    (writeComplete : Bool) (epoll : Epoll) :
    (established name loop self fd writeComplete epoll).ShuttingDown := by
  refine ⟨(sending_established name loop self fd writeComplete epoll).writing, ?_⟩
  refine .up rfl ?_ ?_
  · intro s unsent hm
    simp [established, connectionEstablished, setState, enableReading, notify,
      TcpConnection.new] at hm
  · simp [established, connectionEstablished, setState, enableReading, notify]

/-- **Orderly shutdown**: in every run of sends, shutdowns, write events
    and queued functors, from any threads and with any partial writes,
    whose shutdowns of the socket meet no queued message and no second
    request, every state is orderly. -/
theorem orderly_of_shutsDownLast (name : String) (loop : LoopId) (self : ChannelPtr) (fd : Int)
    (writeComplete : Bool) (epoll : Epoll) (steps : List ConnStep)
    (hsteps : ∀ l ∈ steps, SendsAndShutsDown l)
    (hlast : connection.Along ShutsDownLast
      (established name loop self fd writeComplete epoll) steps) :
    (connection.run (established name loop self fd writeComplete epoll) steps).Orderly := by
  refine orderly_of_shuttingDown (connection.invariant_run ShuttingDown ?_
    (shuttingDown_established name loop self fd writeComplete epoll)
    ((connection.along_and _ _).mpr ⟨connection.along_of_forall _ hsteps, hlast⟩))
  intro s l hs hl
  cases l with
  | send b message w => exact shuttingDown_send hs b message w
  | shutdown b => exact shuttingDown_shutdown hs b hl.2
  | handleWrite w => exact shuttingDown_handleWrite hs w hl.2
  | doPendingFunctor w => exact shuttingDown_doPendingFunctor hs w
  | _ => exact absurd hl.1 id

/-- A queued message, a shutdown from another thread behind it, and the
    drain that carries the shutdown out. -/
theorem orderly_queued_shutdown :
    let steps : List ConnStep :=
      [.send false [1, 2] (.wrote 0), .shutdown false, .doPendingFunctor (.wrote 1),
        .doPendingFunctor (.wrote 0), .handleWrite (.wrote 9)]
    (connection.run (established "c" 0 0 5 true Epoll.new) steps).Orderly :=
  orderly_of_shutsDownLast "c" 0 0 5 true Epoll.new _ (by decide) (by decide +kernel)

/-- A message queued before a loop-thread shutdown is written after it,
    and a drain before a queued shutdown shuts the socket down twice. -/
theorem not_orderly_of_queued :
    let late : List ConnStep :=
      [.send false [1] (.wrote 0), .shutdown true, .doPendingFunctor (.wrote 1)]
    let twice : List ConnStep :=
      [.send true [1, 2] (.wrote 1), .shutdown false, .handleWrite (.wrote 9),
        .doPendingFunctor (.wrote 0)]
    let e₀ := established "c" 0 0 5 false Epoll.new
    ((∀ l ∈ late, SendsAndShutsDown l) ∧ ¬ (connection.run e₀ late).Orderly) ∧
      ((∀ l ∈ twice, SendsAndShutsDown l) ∧ ¬ (connection.run e₀ twice).Orderly) := by
  intro late twice e₀
  have hlate : (connection.run e₀ late).calls =
      [] ++ .shutdownWrite .kDisconnecting [] :: [.write [1]] := by decide +kernel
  have htwice : shutdownWrites (connection.run e₀ twice).calls = 2 := by decide +kernel
  refine ⟨⟨by decide, fun h => ?_⟩, ⟨by decide, fun h => ?_⟩⟩
  · have hsilent := h.last _ _ _ _ hlate
    simp at hsilent
  · have honce := h.at_most_once
    omega

end Endpoint

end TinyWS
