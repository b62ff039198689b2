import TinyWS.Net.LifeCycle

/-! # Nothing Acts on a Destroyed Connection

    `send` tests `state_` in the caller's thread and leaves the rest to a
    functor that holds no `shared_ptr`.  The queue of the loop is in order:
    a functor that is pushed while the connection is in `connectionMap_`
    comes before its `connectionDestroyed`, and runs on a connection that
    is still there.  One that is pushed later runs on what is left of it.

    The invariant is about that order, and about who has an entry in
    `Epoll::channels_`. -/

namespace TinyWS

open Std

namespace TcpServer

/-! ## The specification -/

/-- `connectionDestroyed` has run. -/
def IsDestroyed (s : TcpServer) (c : ConnPtr) : Prop :=
  ∃ l, .connectionDestroyed l ∈ s.life c

/-- The step leaves the channels and the sockets of the destroyed
    connections alone. -/
def Untouched (s : TcpServer) (l : ServerStep) : Prop :=
  ∀ c, s.IsDestroyed c →
    ((s.next l).conns c).channel_ = (s.conns c).channel_ ∧
      ((s.next l).conns c).calls = (s.conns c).calls

/-- Destroyed connections are out of `channels_`, and no raw functor ran
    without its object. -/
structure Quiet (s : TcpServer) : Prop where
  status : ∀ c, s.IsDestroyed c → (s.conns c).channel_.statusInEpoll_ = .kNew
  channels : ∀ c, s.IsDestroyed c →
    ∀ (l : LoopId) (fd : Int), (s.loops l).epoll_.channels_[fd]? ≠ some c
  dangling : s.dangling = []

/-- The condition of the runs: `send` pushes its functor while the
    connection is in `connectionMap_`. -/
def PushesInTime (s : TcpServer) : ServerStep → Prop
  | .sendPush _ c _ => s.connectionMap_[(s.conns c).name_]? = some c
  | _ => True

instance (s : TcpServer) : DecidablePred s.PushesInTime
  | .sendPush _ c _ => inferInstanceAs (Decidable (s.connectionMap_[(s.conns c).name_]? = some c))
  | .newConnection _ _ | .event _ _ | .swapFunctors _ | .runFunctor _ _ | .batchDone _
  | .sendCheck _ _ _ => isTrue trivial

/-! ## The invariant -/

/-- A `sendInLoop` does not stand behind the end of its connection. -/
def InTurn (x y : ServerFunctor) : Prop :=
  ∀ c message, x = .connectionDestroyed c → y ≠ .conn c (.sendInLoop message)

structure InOrder (s : TcpServer) : Prop where
  /-- Connections queue in their own loops, and nothing but these. -/
  own : ∀ l c f, .conn c f ∈ s.todo l →
    c < s.created ∧ l = s.getLoop c ∧ (f.raw = true ∨ f = .writeComplete)
  behind : ∀ l, (s.todo l).Pairwise InTurn
  late : ∀ l c message, s.IsDestroyed c → .conn c (.sendInLoop message) ∉ s.todo l
  self : ∀ c, c < s.created → (s.conns c).channel_.self = c
  entries : ∀ (l : LoopId) (fd : Int) c, (s.loops l).epoll_.channels_[fd]? = some c →
    c < s.created ∧ (s.conns c).channel_.fd_ = fd ∧ s.getLoop c = l ∧ ¬ s.IsDestroyed c
  status : ∀ c, s.IsDestroyed c → (s.conns c).channel_.statusInEpoll_ = .kNew
  dangling : s.dangling = []

theorem quiet_of_inOrder {s : TcpServer} (h : s.InOrder) : s.Quiet := by
  refine ⟨h.status, ?_, h.dangling⟩
  intro c hc l fd hentry
  exact (h.entries l fd c hentry).2.2.2 hc

theorem inOrder_new (name : String) (numThreads : Nat) : (new name numThreads).InOrder := by
  refine ⟨?_, fun _ => List.Pairwise.nil, ?_, ?_, ?_, ?_, rfl⟩
  · -- the queues are empty,
    intro l c f hmem
    cases hmem
  · intro l c message _ hmem
    cases hmem
  · intro c hc
    exact absurd hc (Nat.not_lt_zero c)
  · -- and so is every `channels_`
    intro l fd c hentry
    simp [new, IoLoop.new, Epoll.new] at hentry
  · rintro c ⟨l, hl⟩
    cases hl

theorem isDestroyed_iff {s : TcpServer} {stage : ConnPtr → Stage} (h : s.Kept stage)
    (c : ConnPtr) : s.IsDestroyed c ↔ stage c = .gone := by
  rw [IsDestroyed, h.life c]
  cases stage c with
  | unborn => simp [Stage.life]
  | queued => simp [Stage.life]
  | up => simp [Stage.life]
  | removing => simp [Stage.life]
  | destroying => simp [Stage.life]
  | gone => simp [Stage.life]

/-! ## Frames -/

/-- A member function that touches no channel but its own, and queues
    nothing but `writeCompleteCallback_`. -/
def Mild (f : Endpoint → Endpoint) : Prop :=
  ∀ e, Channel.Touches e.epoll_ e.channel_ (f e).epoll_ (f e).channel_ ∧
    ∃ extra, (∀ g ∈ extra, g = .writeComplete) ∧
      (f e).pendingFunctors_ = e.pendingFunctors_ ++ extra

theorem mild_of_sameLife {f : Endpoint → Endpoint} (h : ∀ e, Endpoint.SameLife e (f e)) :
    Mild f := fun e => ⟨(h e).touches, (h e).queued⟩

theorem mild_connectionEstablished : Mild Endpoint.connectionEstablished :=
  fun _ => ⟨Channel.touches_enableReading _ _, [], by simp, by
    simp [Endpoint.connectionEstablished, Endpoint.notify, Endpoint.enableReading,
      Endpoint.setState]⟩

theorem mild_handleClose : Mild Endpoint.handleClose :=
  fun _ => ⟨Channel.touches_disableAll _ _, [], by simp, by
    simp [Endpoint.handleClose, Endpoint.disableAll, Endpoint.setState]⟩

/-- What the loop thread does to a connection before its end. -/
theorem mild_step {event : ConnStep} (hevent : inLoop event = true) : Mild (·.step event) := by
  have hrefl : ∀ e : Endpoint, Channel.Touches e.epoll_ e.channel_ e.epoll_ e.channel_ :=
    fun e => Channel.Touches.refl _ _
  cases event with
  | send b message w =>
    have hb : b = true := hevent
    subst hb
    intro e
    dsimp only [Endpoint.step, Endpoint.send]
    split
    · exact mild_of_sameLife (fun x => Endpoint.sameLife_sendInLoop x message w)
        { e with sent := e.sent ++ [message] }
    · exact ⟨hrefl e, [], by simp, by simp⟩
  | shutdown b =>
    have hb : b = true := hevent
    subst hb
    intro e
    dsimp only [Endpoint.step, Endpoint.shutdown]
    split
    · exact mild_of_sameLife Endpoint.sameLife_shutdownInLoop (e.setState .kDisconnecting)
    · exact ⟨hrefl e, [], by simp, by simp⟩
  | handleRead r =>
    intro e
    cases r with
    | data bs => exact ⟨hrefl e, [], by simp, by simp [Endpoint.step, Endpoint.handleRead]⟩
    | eof => exact mild_handleClose e
    | error => exact ⟨hrefl e, [], by simp, by simp [Endpoint.step, Endpoint.handleRead]⟩
  | handleWrite w => exact mild_of_sameLife fun x => Endpoint.sameLife_handleWrite x w
  | handleClose => exact mild_handleClose
  | doPendingFunctor w => cases hevent
  | connectionDestroyed => cases hevent

/-- The end of a connection: its channel is out of `channels_`. -/
theorem connectionDestroyed_spec (e : Endpoint) :
    e.connectionDestroyed.channel_.statusInEpoll_ = .kNew ∧
      e.connectionDestroyed.channel_.self = e.channel_.self ∧
      e.connectionDestroyed.channel_.fd_ = e.channel_.fd_ ∧
      ∀ fd p, e.connectionDestroyed.epoll_.channels_[fd]? = some p →
        fd ≠ e.channel_.fd_ ∧ e.epoll_.channels_[fd]? = some p := by
  unfold Endpoint.connectionDestroyed
  split
  · -- connected: `disableAll` may register the channel once more, `remove` takes it out
    have htouches := Channel.touches_disableAll e.channel_ e.epoll_
    refine ⟨rfl, htouches.self, htouches.fd, ?_⟩
    intro fd p hentry
    obtain ⟨hfd, hentry⟩ := Channel.remove_entries _ _ hentry
    have hne : fd ≠ e.channel_.fd_ := fun heq => hfd (heq.trans htouches.fd.symm)
    rcases htouches.entries fd p hentry with ⟨heq, -⟩ | hold
    · exact absurd heq hne
    · exact ⟨hne, hold⟩
  · refine ⟨rfl, rfl, rfl, ?_⟩
    intro fd p hentry
    exact Channel.remove_entries _ _ hentry

/-! ## What the steps are made of -/

/-- `writeCompleteCallback_` functors may stand anywhere. -/
theorem pairwise_extra {todo : List ServerFunctor} (h : todo.Pairwise InTurn) (c : ConnPtr)
    {extra : List ConnFunctor} (hextra : ∀ g ∈ extra, g = .writeComplete) :
    (todo ++ extra.map (ServerFunctor.conn c)).Pairwise InTurn := by
  have hany : ∀ x, ∀ y ∈ extra.map (ServerFunctor.conn c), InTurn x y := by
    intro x y hy d message _
    obtain ⟨g, hg, rfl⟩ := List.mem_map.mp hy
    rw [hextra g hg]
    simp
  refine List.pairwise_append.mpr ⟨h, ?_, fun x _ y hy => hany x y hy⟩
  exact List.pairwise_of_forall_mem_list fun x _ y hy => hany x y hy

/-- What a member function leaves of a channel, it leaves of all. -/
theorem channel_withConn {α : Type} (part : Channel → α) (s : TcpServer) {c : ConnPtr}
    {f : Endpoint → Endpoint}
    (h : part (f (s.endpoint c)).channel_ = part (s.conns c).channel_) (d : ConnPtr) :
    part ((s.withConn c f).conns d).channel_ = part (s.conns d).channel_ := by
  by_cases hdc : d = c
  · subst hdc
    rw [conns_withConn_self]
    exact h
  · rw [conns_withConn_ne s hdc]

/-- After a member function the `channels_` hold what they held, and maybe
    the channel of the connection itself. -/
theorem InOrder.entries_withConn {s : TcpServer} (h : s.InOrder) {c : ConnPtr} (hc : c < s.created)
    (halive : ¬ s.IsDestroyed c) {f : Endpoint → Endpoint} (hkeeps : Keeps f) (hmild : Mild f)
    {l : LoopId} {fd : Int} {p : ConnPtr}
    (hentry : ((s.withConn c f).loops l).epoll_.channels_[fd]? = some p) :
    p < s.created ∧ ((s.withConn c f).conns p).channel_.fd_ = fd ∧
      (s.withConn c f).getLoop p = l ∧ ¬ s.IsDestroyed p := by
  obtain ⟨htouches, -⟩ := hmild (s.endpoint c)
  have hfd := channel_withConn Channel.fd_ s htouches.fd p
  have hloop := getLoop_withConn hkeeps s c p
  have hold : (s.loops l).epoll_.channels_[fd]? = some p →
      p < s.created ∧ ((s.withConn c f).conns p).channel_.fd_ = fd ∧
        (s.withConn c f).getLoop p = l ∧ ¬ s.IsDestroyed p := by
    intro hentry
    obtain ⟨hp, hfd', hloop', hdead⟩ := h.entries l fd p hentry
    exact ⟨hp, hfd.trans hfd', hloop.trans hloop', hdead⟩
  rw [epoll_withConn] at hentry
  split at hentry
  · next hl =>
    rcases htouches.entries fd p hentry with ⟨hown, hself⟩ | hentry
    · -- the channel of the connection itself
      have hpc : p = c := hself.trans (h.self c hc)
      subst hpc
      exact ⟨hc, hfd.trans hown.symm, hloop.trans hl.symm, halive⟩
    · subst hl
      exact hold hentry
  · exact hold hentry

theorem InOrder.withConn {s : TcpServer} (h : s.InOrder) {c : ConnPtr} (hc : c < s.created)
    (halive : ¬ s.IsDestroyed c) {f : Endpoint → Endpoint} (hkeeps : Keeps f) (hmild : Mild f) :
    (s.withConn c f).InOrder := by
  obtain ⟨htouches, extra, hextra, hqueued⟩ := hmild (s.endpoint c)
  have hqueued' : (f (s.endpoint c)).pendingFunctors_ = extra := hqueued
  have htodo := s.todo_withConn c f
  rw [hqueued'] at htodo
  refine ⟨?_, ?_, ?_, ?_, ?_, ?_, h.dangling⟩
  · intro l d g hmem
    rw [htodo] at hmem
    rw [getLoop_withConn hkeeps]
    split at hmem
    · next hl =>
      rcases List.mem_append.mp hmem with hmem | hmem
      · exact h.own l d g hmem
      · -- one of the new functors, in the loop of `c`
        obtain ⟨x, hx, heq⟩ := List.mem_map.mp hmem
        cases heq
        exact ⟨hc, hl, Or.inr (hextra g hx)⟩
    · exact h.own l d g hmem
  · intro l
    rw [htodo]
    split
    · exact pairwise_extra (h.behind l) c hextra
    · exact h.behind l
  · -- no `sendInLoop` is among them
    intro l d message hd hmem
    rw [htodo] at hmem
    split at hmem
    · rcases List.mem_append.mp hmem with hmem | hmem
      · exact h.late l d message hd hmem
      · obtain ⟨x, hx, heq⟩ := List.mem_map.mp hmem
        cases heq
        cases hextra _ hx
    · exact h.late l d message hd hmem
  · -- the channel is the same object
    intro d hd
    exact (channel_withConn Channel.self s htouches.self d).trans (h.self d hd)
  · -- only its own entry can change
    intro l fd p hentry
    exact h.entries_withConn hc halive hkeeps hmild hentry
  · -- a destroyed connection is another one
    intro d hd
    have hdc : d ≠ c := fun heq => halive (heq ▸ hd)
    rw [conns_withConn_ne s hdc]
    exact h.status d hd

/-- A functor about a life may be pushed at any time. -/
theorem InOrder.queueInLoop {s : TcpServer} (h : s.InOrder) (l : LoopId) {g : ServerFunctor}
    {c : ConnPtr} (hg : g.lifeOf = some c) : (s.queueInLoop l g).InOrder := by
  -- the functors of the connections themselves are those of before
  have hmem : ∀ k x, x ∈ (s.queueInLoop l g).todo k → x.lifeOf = none → x ∈ s.todo k := by
    intro k x hx hnone
    by_cases hk : k = l
    · subst hk
      rw [todo_queueInLoop_self] at hx
      rcases List.mem_append.mp hx with hx | hx
      · exact hx
      · rw [List.mem_singleton.mp hx, hg] at hnone
        cases hnone
    · rw [todo_queueInLoop_ne s g hk] at hx
      exact hx
  refine ⟨?_, ?_, ?_, h.self, ?_, h.status, h.dangling⟩
  · intro k d f hf
    exact h.own k d f (hmem k _ hf rfl)
  · intro k
    by_cases hk : k = l
    · subst hk
      rw [todo_queueInLoop_self]
      -- the last one is no `sendInLoop`
      refine List.pairwise_append.mpr ⟨h.behind k, List.pairwise_singleton _ _, ?_⟩
      intro x _ y hy d message _ hy'
      rw [List.mem_singleton.mp hy] at hy'
      rw [hy'] at hg
      cases hg
    · rw [todo_queueInLoop_ne s g hk]
      exact h.behind k
  · intro k d message hd hf
    exact h.late k d message hd (hmem k _ hf rfl)
  · intro k fd p hentry
    rw [epoll_queueInLoop] at hentry
    exact h.entries k fd p hentry

/-- The last function of a connection queues nothing. -/
theorem todo_connectionDestroyed (s : TcpServer) (l : LoopId) (c : ConnPtr) (k : LoopId) :
    (s.connectionDestroyed l c).todo k = s.todo k := by
  show (s.withConn c Endpoint.connectionDestroyed).todo k = _
  rw [todo_withConn, Endpoint.pendingFunctors_connectionDestroyed]
  split
  · exact List.append_nil _
  · rfl

theorem isDestroyed_connectionDestroyed (s : TcpServer) (l : LoopId) (c d : ConnPtr) :
    (s.connectionDestroyed l c).IsDestroyed d ↔ d = c ∨ s.IsDestroyed d := by
  show (∃ k, _ ∈ if d = c then _ else s.life d) ↔ _
  by_cases hd : d = c
  · rw [if_pos hd]
    exact iff_of_true ⟨l, by simp⟩ (Or.inl hd)
  · rw [if_neg hd]
    exact ⟨Or.inr, fun hor => hor.resolve_left hd⟩

/-- The entries that are left belong to other connections. -/
theorem InOrder.entries_connectionDestroyed {s : TcpServer} (h : s.InOrder) {c : ConnPtr}
    {l k : LoopId} {fd : Int} {p : ConnPtr}
    (hentry : ((s.connectionDestroyed l c).loops k).epoll_.channels_[fd]? = some p) :
    p ≠ c ∧ (s.loops k).epoll_.channels_[fd]? = some p := by
  have hepoll : ((s.connectionDestroyed l c).loops k).epoll_ = _ :=
    s.epoll_withConn c Endpoint.connectionDestroyed k
  rw [hepoll] at hentry
  -- the entry of the connection is the one under its descriptor
  split at hentry
  · next hk =>
    obtain ⟨-, -, -, hentries⟩ := connectionDestroyed_spec (s.endpoint c)
    obtain ⟨hne, hentry⟩ := hentries fd p hentry
    subst hk
    refine ⟨?_, hentry⟩
    rintro rfl
    exact hne (h.entries _ fd p hentry).2.1.symm
  · next hk =>
    -- and it has none in another loop
    refine ⟨?_, hentry⟩
    rintro rfl
    exact hk (h.entries k fd p hentry).2.2.1.symm

/-- The last function of a connection, with nothing left to send. -/
theorem InOrder.connectionDestroyed {s : TcpServer} (h : s.InOrder) {c : ConnPtr}
    (halive : ¬ s.IsDestroyed c)
    (hnone : ∀ l message, .conn c (.sendInLoop message) ∉ s.todo l) (l : LoopId) :
    (s.connectionDestroyed l c).InOrder := by
  obtain ⟨hstatus, hself, hfd, -⟩ := connectionDestroyed_spec (s.endpoint c)
  -- what the function changes: one channel, its loop's `channels_`, one life
  have htodo := s.todo_connectionDestroyed l c
  have hdead := s.isDestroyed_connectionDestroyed l c
  refine ⟨?_, ?_, ?_, ?_, ?_, ?_, h.dangling⟩
  · intro k d f hmem
    rw [htodo] at hmem
    have hloop : (s.connectionDestroyed l c).getLoop d = s.getLoop d :=
      getLoop_withConn keeps_connectionDestroyed s c d
    rw [hloop]
    exact h.own k d f hmem
  · intro k
    rw [htodo]
    exact h.behind k
  · intro k d message hd hmem
    rw [htodo] at hmem
    rcases (hdead d).mp hd with rfl | hd
    · -- the connection that is destroyed just now
      exact hnone k message hmem
    · exact h.late k d message hd hmem
  · intro d hd
    exact (channel_withConn Channel.self s hself d).trans (h.self d hd)
  · intro k fd p hentry
    have hold := h.entries_connectionDestroyed hentry
    obtain ⟨hp, hfd', hloop, hnot⟩ := h.entries k fd p hold.2
    refine ⟨hp, (channel_withConn Channel.fd_ s hfd p).trans hfd',
      (getLoop_withConn keeps_connectionDestroyed s c p).trans hloop, ?_⟩
    rw [hdead p]
    exact fun hor => hnot (hor.resolve_left hold.1)
  · intro d hd
    by_cases hdc : d = c
    · subst hdc
      have hconns : (s.connectionDestroyed l d).conns d =
          (s.endpoint d).connectionDestroyed.toTcpConnection := s.conns_withConn_self d _
      rw [hconns]
      exact hstatus
    · have hconns : (s.connectionDestroyed l c).conns d = s.conns d := s.conns_withConn_ne hdc _
      rw [hconns]
      exact h.status d (((hdead d).mp hd).resolve_left hdc)

/-- Steps that only take functors away or move them. -/
theorem InOrder.mono {s s' : TcpServer} (h : s.InOrder)
    (htodo : ∀ l, (s'.todo l).Sublist (s.todo l)) (hcreated : s'.created = s.created)
    (hchannel : ∀ c, (s'.conns c).channel_ = (s.conns c).channel_)
    (hloop : ∀ c, s'.getLoop c = s.getLoop c)
    (hepoll : ∀ l, (s'.loops l).epoll_ = (s.loops l).epoll_)
    (hdead : ∀ c, s'.IsDestroyed c ↔ s.IsDestroyed c) (hdangling : s'.dangling = s.dangling) :
    s'.InOrder := by
  refine ⟨?_, ?_, ?_, ?_, ?_, ?_, hdangling.trans h.dangling⟩
  · intro l c f hmem
    rw [hcreated, hloop]
    exact h.own l c f ((htodo l).subset hmem)
  · intro l
    exact (h.behind l).sublist (htodo l)
  · intro l c message hc hmem
    exact h.late l c message ((hdead c).mp hc) ((htodo l).subset hmem)
  · intro c hc
    rw [hchannel]
    exact h.self c (hcreated ▸ hc)
  · intro l fd c hentry
    rw [hepoll] at hentry
    rw [hcreated, hchannel, hloop, hdead]
    exact h.entries l fd c hentry
  · intro c hc
    rw [hchannel]
    exact h.status c ((hdead c).mp hc)

/-- The next functor is taken out of the queue. -/
theorem InOrder.called {s : TcpServer} (h : s.InOrder) {l : LoopId}
    {called fs : List ServerFunctor} {f : ServerFunctor}
    (hbatch : (s.loops l).batch = some ⟨called, f :: fs⟩) :
    (s.setBatch l (some ⟨called ++ [f], fs⟩)).InOrder := by
  refine h.mono ?_ rfl (fun _ => rfl) (fun _ => rfl) (s.epoll_setBatch l · _) (fun _ => Iff.rfl) rfl
  intro k
  by_cases hk : k = l
  · subst hk
    rw [todo_called hbatch]
    exact List.sublist_cons_self _ _
  · rw [s.todo_setBatch_ne hk]

/-- An event other than the last one. -/
theorem InOrder.live {s : TcpServer} (h : s.InOrder) (c : ConnPtr) {event : LifeEvent}
    (hevent : ∀ l, event ≠ .connectionDestroyed l) : (s.live c event).InOrder := by
  refine h.mono (fun _ => List.Sublist.refl _) rfl (fun _ => rfl) (fun _ => rfl) (fun _ => rfl) ?_ rfl
  intro d
  show (∃ l, _ ∈ if d = c then s.life d ++ [event] else s.life d) ↔ _
  split
  · constructor
    · rintro ⟨l, hl⟩
      rcases List.mem_append.mp hl with hl | hl
      · exact ⟨l, hl⟩
      · exact absurd (List.mem_singleton.mp hl).symm (hevent l)
    · rintro ⟨l, hl⟩
      exact ⟨l, List.mem_append_left _ hl⟩
  · exact Iff.rfl

/-- A raw pointer to a living object. -/
theorem InOrder.deref {s : TcpServer} (h : s.InOrder) {c : ConnPtr} (hheld : s.held c = true)
    (f : ServerFunctor) : (s.deref f c).InOrder := by
  refine h.mono (fun _ => List.Sublist.refl _) rfl (fun _ => rfl) (fun _ => rfl) (fun _ => rfl)
    (fun _ => Iff.rfl) ?_
  exact if_pos hheld

theorem InOrder.connectionEstablished {s : TcpServer} (h : s.InOrder) {c : ConnPtr}
    (hc : c < s.created) (halive : ¬ s.IsDestroyed c) (l : LoopId) :
    (s.connectionEstablished l c).InOrder :=
  (h.withConn hc halive keeps_connectionEstablished mild_connectionEstablished).live c
    fun _ heq => by cases heq

theorem InOrder.removeConnectionInLoop {s : TcpServer} (h : s.InOrder) (c : ConnPtr) :
    (s.removeConnectionInLoop c).InOrder := by
  have hmid : InOrder { s with
      connectionMap_ := s.connectionMap_.erase (s.conns c).name_
      erased := s.erased ++ [if s.connectionMap_.contains (s.conns c).name_ then 1 else 0] } :=
    h.mono (fun _ => List.Sublist.refl _) rfl (fun _ => rfl) (fun _ => rfl) (fun _ => rfl)
      (fun _ => Iff.rfl) rfl
  exact hmid.queueInLoop (s.getLoop c) (g := .connectionDestroyed c) rfl

/-- A `sendInLoop` is pushed before the end of its connection is. -/
theorem InOrder.sendPush {s : TcpServer} (h : s.InOrder) {c : ConnPtr} (hc : c < s.created)
    (halive : ¬ s.IsDestroyed c) (hbefore : .connectionDestroyed c ∉ s.todo (s.getLoop c))
    (t : ThreadId) (message : Bytes) : (s.sendPush t c message).InOrder := by
  have htodo : ∀ k, (s.sendPush t c message).todo k =
      if k = s.getLoop c then s.todo k ++ [.conn c (.sendInLoop message)] else s.todo k := by
    intro k
    show (s.queueInLoop (s.getLoop c) (.conn c (.sendInLoop message))).todo k = _
    split
    · next hk => rw [hk, todo_queueInLoop_self]
    · next hk => rw [todo_queueInLoop_ne s _ hk]
  have hepoll : ∀ k, ((s.sendPush t c message).loops k).epoll_ = (s.loops k).epoll_ :=
    fun k => s.epoll_queueInLoop _ k _
  refine ⟨?_, ?_, ?_, h.self, ?_, h.status, h.dangling⟩
  · intro k d f hmem
    rw [htodo] at hmem
    split at hmem
    · next hk =>
      rcases List.mem_append.mp hmem with hmem | hmem
      · exact h.own k d f hmem
      · cases List.mem_singleton.mp hmem
        exact ⟨hc, hk, Or.inl rfl⟩
    · exact h.own k d f hmem
  · intro k
    rw [htodo]
    split
    · next hk =>
      subst hk
      refine List.pairwise_append.mpr ⟨h.behind _, List.pairwise_singleton _ _, ?_⟩
      intro x hx y hy d m hxd hyd
      rw [List.mem_singleton.mp hy] at hyd
      cases hyd
      -- a `connectionDestroyed` in front of it would have been queued already
      exact hbefore (hxd ▸ hx)
    · exact h.behind k
  · intro k d m hd hmem
    rw [htodo] at hmem
    split at hmem
    · rcases List.mem_append.mp hmem with hmem | hmem
      · exact h.late k d m hd hmem
      · cases List.mem_singleton.mp hmem
        exact halive hd
    · exact h.late k d m hd hmem
  · intro k fd p hentry
    rw [hepoll] at hentry
    exact h.entries k fd p hentry

/-- A new object, in no queue and in no `channels_`. -/
theorem InOrder.enter {s : TcpServer} (h : s.InOrder) (halive : ¬ s.IsDestroyed s.created) (n : Nat)
    (name : String) (l : LoopId) (fd : Int) (writeComplete : Bool) :
    (TcpServer.enter { s with nextConnectionId_ := s.nextConnectionId_ + 1, next_ := n } name l fd
      writeComplete).InOrder := by
  refine ⟨?_, h.behind, h.late, ?_, ?_, ?_, h.dangling⟩
  · intro k d f hmem
    obtain ⟨hd, hk, hf⟩ := h.own k d f hmem
    -- whoever has a functor in a queue was made before
    refine ⟨Nat.lt_succ_of_lt hd, ?_, hf⟩
    rw [getLoop_enter_ne (Nat.ne_of_lt hd)]
    exact hk
  · intro d hd
    by_cases hnew : d = s.created
    · rw [hnew, conns_enter_self]
      rfl
    · rw [conns_enter_ne hnew]
      exact h.self d (Nat.lt_of_le_of_ne (Nat.le_of_lt_succ hd) hnew)
  · intro k fd' p hentry
    obtain ⟨hp, hfd, hk, hdead⟩ := h.entries k fd' p hentry
    refine ⟨Nat.lt_succ_of_lt hp, ?_, ?_, hdead⟩
    · rw [conns_enter_ne (Nat.ne_of_lt hp)]
      exact hfd
    · rw [getLoop_enter_ne (Nat.ne_of_lt hp)]
      exact hk
  · intro d hd
    have hne : d ≠ s.created := by
      rintro rfl
      exact halive hd
    rw [conns_enter_ne hne]
    exact h.status d hd

/-! ## Steps -/

/-- What a step does to the destroyed connections: nothing. -/
def Spares (s s' : TcpServer) : Prop := ∀ d, s.IsDestroyed d → s'.conns d = s.conns d

/-- A step that works on one connection, and not on a destroyed one. -/
theorem spares_of_ne {s s' : TcpServer} {c : ConnPtr} (halive : ¬ s.IsDestroyed c)
    (hconns : ∀ d, d ≠ c → s'.conns d = s.conns d) : s.Spares s' := by
  intro d hd
  apply hconns
  rintro rfl
  exact halive hd

theorem inOrder_newConnection {s : TcpServer} {stage : ConnPtr → Stage} (hl : s.Lives stage)
    (h : s.InOrder) (fd : Int) (writeComplete : Bool) :
    (s.newConnection fd writeComplete).InOrder ∧ s.Spares (s.newConnection fd writeComplete) := by
  obtain ⟨n, l, hnext, -, -⟩ := getNextLoop_cases
    { s with nextConnectionId_ := s.nextConnectionId_ + 1 } hl.kept.next
  have halive : ¬ s.IsDestroyed s.created := by
    rw [isDestroyed_iff hl.kept, (hl.kept.unborn _).mpr (Nat.le_refl _)]
    simp
  have hmid := h.enter halive n (s.name_ ++ "#" ++ toString s.nextConnectionId_) l fd writeComplete
  have hconns : ∀ d, d ≠ s.created → (TcpServer.enter
      { s with nextConnectionId_ := s.nextConnectionId_ + 1, next_ := n }
      (s.name_ ++ "#" ++ toString s.nextConnectionId_) l fd writeComplete).conns d = s.conns d :=
    fun _ => conns_enter_ne
  unfold newConnection
  dsimp only
  rw [hnext]
  unfold runInLoop
  split
  · refine ⟨hmid.connectionEstablished (Nat.lt_succ_self _) halive l, spares_of_ne halive ?_⟩
    intro d hd
    exact (conns_withConn_ne _ hd Endpoint.connectionEstablished).trans (hconns d hd)
  · exact ⟨hmid.queueInLoop l (g := .connectionEstablished s.created) rfl,
      spares_of_ne halive hconns⟩

theorem inOrder_handleEvent {s : TcpServer} {stage : ConnPtr → Stage} (hl : s.Lives stage)
    (h : s.InOrder) {c : ConnPtr} (hopen : s.isOpen c = true) {event : ConnStep}
    (hevent : inLoop event = true) :
    (s.handleEvent c event).InOrder ∧ s.Spares (s.handleEvent c event) := by
  have hup := (isOpen_iff hl.kept c).mp hopen
  have halive : ¬ s.IsDestroyed c := by
    rw [isDestroyed_iff hl.kept, hup]
    simp
  have hc : c < s.created := born_of_stage hl.kept (by simp [hup])
  have hmid := h.withConn hc halive (keeps_step event) (mild_step hevent)
  have hspares : s.Spares (s.withConn c (·.step event)) :=
    spares_of_ne halive fun d hd => s.conns_withConn_ne hd _
  unfold handleEvent
  dsimp only
  split
  · have hclosed : ((s.withConn c (·.step event)).live c .handleClose).InOrder :=
      hmid.live c fun _ heq => by cases heq
    unfold removeConnection runInLoop
    split
    · exact ⟨hclosed.removeConnectionInLoop c, hspares⟩
    · exact ⟨hclosed.queueInLoop 0 (g := .removeConnectionInLoop c) rfl, hspares⟩
  · exact ⟨hmid, hspares⟩

/-- `writeCompleteCallback_` is not part of the connection. -/
theorem withConn_id (s : TcpServer) (c : ConnPtr) (f : Endpoint → Endpoint)
    (hf : f (s.endpoint c) = s.endpoint c) : s.withConn c f = s := by
  have hconns : (s.withConn c f).conns = s.conns := by
    funext d
    by_cases hd : d = c
    · rw [hd, conns_withConn_self, hf]
      rfl
    · exact s.conns_withConn_ne hd f
  have hloops : (s.withConn c f).loops = s.loops := by
    funext l
    show (if l = s.getLoop c then _ else s.loops l) = s.loops l
    split
    · next hl =>
      subst hl
      rw [hf]
      simp [endpoint]
    · rfl
  calc s.withConn c f = { s with
        conns := (s.withConn c f).conns
        loops := (s.withConn c f).loops } := rfl
    _ = s := by rw [hconns, hloops]

/-- When `connectionDestroyed` is called, whatever its connection still had
    to send was in front of it. -/
theorem InOrder.nothing_behind {s : TcpServer} (h : s.InOrder) {l : LoopId}
    {called fs : List ServerFunctor} {c : ConnPtr}
    (hbatch : (s.loops l).batch = some ⟨called, .connectionDestroyed c :: fs⟩)
    (hloop : l = s.getLoop c) (k : LoopId) (message : Bytes) :
    .conn c (.sendInLoop message) ∉
      (s.setBatch l (some ⟨called ++ [.connectionDestroyed c], fs⟩)).todo k := by
  intro hmem
  have hk : k = s.getLoop c := ((h.called hbatch).own k c _ hmem).2.1
  rw [hk, ← hloop] at hmem
  have hbehind := h.behind l
  rw [todo_called hbatch] at hbehind
  exact (List.pairwise_cons.mp hbehind).1 _ hmem c message rfl rfl

/-- `sendInLoop` is called with a raw pointer, and its connection is not
    destroyed: somebody holds it. -/
theorem inOrder_sendInLoop {s : TcpServer} {stage : ConnPtr → Stage} (hl : s.Lives stage)
    (h : s.InOrder) {l : LoopId} {called fs : List ServerFunctor} {c : ConnPtr} {message : Bytes}
    (hbatch : (s.loops l).batch = some ⟨called, .conn c (.sendInLoop message) :: fs⟩)
    (w : WriteResult) :
    let mid := s.setBatch l (some ⟨called ++ [.conn c (.sendInLoop message)], fs⟩)
    (mid.call l (.conn c (.sendInLoop message)) w).InOrder ∧
      s.Spares (mid.call l (.conn c (.sendInLoop message)) w) := by
  intro mid
  have hmem : .conn c (.sendInLoop message) ∈ s.todo l := by
    rw [todo_called hbatch]
    exact List.mem_cons_self
  obtain ⟨hc, -, -⟩ := h.own l c _ hmem
  have hgone : ¬ s.IsDestroyed c := fun hd => h.late l c message hd hmem
  have hheld : mid.held c = true := by
    apply held_of_lives (lives_called hl hbatch rfl) hc
    intro hstage
    exact hgone ((isDestroyed_iff hl.kept c).mpr hstage)
  have hmid : (mid.deref (.conn c (.sendInLoop message)) c).InOrder :=
    (h.called hbatch).deref hheld _
  have hmild : Mild (·.runFunctor (.sendInLoop message) w) :=
    mild_of_sameLife fun e => Endpoint.sameLife_runFunctor e _ w
  have hsent : (TcpServer.withConn (mid.deref (.conn c (.sendInLoop message)) c) c
      (·.runFunctor (.sendInLoop message) w)).InOrder :=
    hmid.withConn hc hgone (keeps_runFunctor _ w) hmild
  exact ⟨hsent, spares_of_ne hgone fun d hd => conns_withConn_ne _ hd _⟩

theorem inOrder_runFunctor {s : TcpServer} {stage : ConnPtr → Stage} (hl : s.Lives stage)
    (h : s.InOrder) (l : LoopId) (w : WriteResult) :
    (s.runFunctor l w).InOrder ∧ s.Spares (s.runFunctor l w) := by
  unfold runFunctor
  split
  · next called f fs hbatch =>
    have hmid := h.called hbatch
    have halive : ∀ c, stage c ≠ .gone → ¬ s.IsDestroyed c := by
      intro c hgone
      rwa [isDestroyed_iff hl.kept]
    cases f with
    | connectionEstablished c =>
      obtain ⟨htoken, -⟩ := halfway_called hl hbatch rfl
      obtain ⟨hstage, -⟩ := Stage.of_token_connectionEstablished htoken
      have hc := halive c (by simp [hstage])
      refine ⟨hmid.connectionEstablished (born_of_stage hl.kept (by simp [hstage])) hc l,
        spares_of_ne hc fun d hd => ?_⟩
      exact conns_withConn_ne _ hd Endpoint.connectionEstablished
    | removeConnectionInLoop c => exact ⟨hmid.removeConnectionInLoop c, fun _ _ => rfl⟩
    | connectionDestroyed c =>
      obtain ⟨htoken, -⟩ := halfway_called hl hbatch rfl
      obtain ⟨hstage, hloop⟩ := Stage.of_token_connectionDestroyed htoken
      have hc := halive c (by simp [hstage])
      -- nothing of this connection is behind it in the queue
      exact ⟨hmid.connectionDestroyed hc (h.nothing_behind hbatch hloop) l,
        spares_of_ne hc fun d hd => conns_withConn_ne _ hd Endpoint.connectionDestroyed⟩
    | connectionDestroyedRaw c =>
      -- only `~TcpServer` queues it
      obtain ⟨htoken, -⟩ := halfway_called hl hbatch rfl
      exact absurd htoken Stage.not_token_raw
    | conn c g =>
      have hmem : .conn c g ∈ s.todo l := by
        rw [todo_called hbatch]
        exact List.mem_cons_self
      obtain ⟨-, -, hg⟩ := h.own l c g hmem
      cases g with
      | sendInLoop message => exact inOrder_sendInLoop hl h hbatch w
      | shutdownInLoop =>
        -- no thread queues one here
        rcases hg with hg | hg
        · cases hg
        · cases hg
      | writeComplete =>
        -- the user's callback leaves the connection alone
        have hsame : call (s.setBatch l (some ⟨called ++ [.conn c .writeComplete], fs⟩)) l
            (.conn c .writeComplete) w =
            s.setBatch l (some ⟨called ++ [.conn c .writeComplete], fs⟩) :=
          withConn_id _ c (·.runFunctor .writeComplete w) rfl
        rw [hsame]
        exact ⟨hmid, fun _ _ => rfl⟩
  · exact ⟨h, fun _ _ => rfl⟩

theorem inOrder_swapFunctors {s : TcpServer} (h : s.InOrder) {l : LoopId}
    (hidle : (s.loops l).callingPendingFuntors_ = false) : (s.swapFunctors l).InOrder := by
  refine h.mono ?_ rfl (fun _ => rfl) (fun _ => rfl) (s.epoll_swapFunctors l) (fun _ => Iff.rfl) rfl
  intro k
  rw [todo_swapFunctors hidle]

theorem inOrder_batchDone {s : TcpServer} (h : s.InOrder) {l : LoopId}
    (hdone : (s.loops l).functors = []) : (s.batchDone l).InOrder := by
  refine h.mono ?_ rfl (fun _ => rfl) (fun _ => rfl) (s.epoll_setBatch l · _) (fun _ => Iff.rfl) rfl
  intro k
  rw [todo_batchDone hdone]

theorem inOrder_sendCheck {s : TcpServer} (h : s.InOrder) (t : ThreadId) (c : ConnPtr)
    (message : Bytes) : (s.sendCheck t c message).InOrder ∧
      ∀ d, ((s.sendCheck t c message).conns d).channel_ = (s.conns d).channel_ ∧
        ((s.sendCheck t c message).conns d).calls = (s.conns d).calls := by
  unfold sendCheck
  split
  · -- only the history of the messages changes
    have hconns : ∀ d, ((s.setConn c { s.conns c with sent := (s.conns c).sent ++ [message] }).conns
        d).channel_ = (s.conns d).channel_ ∧
        ((s.setConn c { s.conns c with sent := (s.conns c).sent ++ [message] }).conns d).calls =
          (s.conns d).calls := by
      intro d
      unfold setConn
      dsimp only
      split
      · next hd => exact ⟨by rw [hd], by rw [hd]⟩
      · exact ⟨rfl, rfl⟩
    have hloop : ∀ d, getLoop (s.setConn c
        { s.conns c with sent := (s.conns c).sent ++ [message] }) d = s.getLoop d := by
      intro d
      apply getLoop_setConn
      rfl
    exact ⟨h.mono (fun _ => List.Sublist.refl _) rfl (fun d => (hconns d).1) hloop (fun _ => rfl)
      (fun _ => Iff.rfl) rfl, hconns⟩
  · exact ⟨h, fun _ => ⟨rfl, rfl⟩⟩

/-- In `connectionMap_`: not destroyed, and not about to be. -/
theorem inOrder_sendPush {s : TcpServer} {stage : ConnPtr → Stage} (hl : s.Lives stage)
    (h : s.InOrder) {t : ThreadId} {c : ConnPtr} {message : Bytes}
    (hcond : s.PushesInTime (.sendPush t c message)) : (s.sendPush t c message).InOrder := by
  have hmapped := ((hl.kept.mapped _ c).mp hcond).1
  have hc : c < s.created := by
    apply born_of_stage hl.kept
    intro hstage
    rw [hstage] at hmapped
    cases hmapped
  apply h.sendPush hc
  · rw [isDestroyed_iff hl.kept]
    intro hstage
    rw [hstage] at hmapped
    cases hmapped
  · -- a queued `connectionDestroyed` would be the token of another stage
    intro hmem
    have hpos := List.count_pos_iff.mpr hmem
    rw [hl.tokens c _ _ rfl] at hpos
    split at hpos
    · next htoken =>
      obtain ⟨hstage, -⟩ := Stage.of_token_connectionDestroyed htoken
      rw [hstage] at hmapped
      cases hmapped
    · omega

theorem untouched_of_spares {s : TcpServer} {l : ServerStep} (h : s.Spares (s.next l)) :
    s.Untouched l := by
  intro c hc
  rw [h c hc]
  exact ⟨rfl, rfl⟩

/-- **Step**: every step that meets the condition keeps the queues in
    order and leaves the destroyed connections alone. -/
theorem inOrder_next {s : TcpServer} {stage : ConnPtr → Stage} (hl : s.Lives stage)
    (h : s.InOrder) {l : ServerStep} (hguard : s.guard l) (hcond : s.PushesInTime l) :
    (s.next l).InOrder ∧ s.Untouched l := by
  cases l with
  | newConnection fd writeComplete =>
    obtain ⟨horder, hspares⟩ := inOrder_newConnection hl h fd writeComplete
    exact ⟨horder, untouched_of_spares hspares⟩
  | event c event =>
    obtain ⟨horder, hspares⟩ := inOrder_handleEvent hl h hguard.1 hguard.2.1
    exact ⟨horder, untouched_of_spares hspares⟩
  | swapFunctors l => exact ⟨inOrder_swapFunctors h hguard.2, fun _ _ => ⟨rfl, rfl⟩⟩
  | runFunctor l w =>
    obtain ⟨horder, hspares⟩ := inOrder_runFunctor hl h l w
    exact ⟨horder, untouched_of_spares hspares⟩
  | batchDone l => exact ⟨inOrder_batchDone h hguard.2.2, fun _ _ => ⟨rfl, rfl⟩⟩
  | sendCheck t c message =>
    obtain ⟨horder, hconns⟩ := inOrder_sendCheck h t c message
    exact ⟨horder, fun d _ => hconns d⟩
  | sendPush t c message => exact ⟨inOrder_sendPush hl h hcond, fun _ _ => ⟨rfl, rfl⟩⟩

/-! ## Whole runs -/

/-- **Nothing acts on a destroyed connection** in a run whose `send`s push
    in time: no step touches its channel or its socket, it stays out of
    `channels_`, and no raw functor finds its object gone. -/
theorem quiet_of_pushesInTime (name : String) (numThreads : Nat) (steps : List ServerStep)
    (hvalid : tcpServer.Valid (new name numThreads) steps)
    (hcond : tcpServer.Along PushesInTime (new name numThreads) steps) :
    (tcpServer.run (new name numThreads) steps).Quiet ∧
      tcpServer.Along Untouched (new name numThreads) steps := by
  have hboth := (tcpServer.along_and _ _).mpr ⟨hvalid, hcond⟩
  have hstart : ∃ stage, (new name numThreads).Lives stage ∧ (new name numThreads).InOrder :=
    ⟨fun _ => .unborn, lives_new name numThreads, inOrder_new name numThreads⟩
  have hkeep : ∀ (s : TcpServer) l, (∃ stage, s.Lives stage ∧ s.InOrder) →
      s.guard l ∧ s.PushesInTime l → ∃ stage, (s.next l).Lives stage ∧ (s.next l).InOrder := by
    rintro s l ⟨stage, hlives, horder⟩ ⟨hguard, hpush⟩
    obtain ⟨stage', hlives'⟩ := lives_next hlives hguard
    exact ⟨stage', hlives', (inOrder_next hlives horder hguard hpush).1⟩
  constructor
  · obtain ⟨stage, -, horder⟩ := tcpServer.invariant_run _ hkeep hstart hboth
    exact quiet_of_inOrder horder
  · apply tcpServer.along_of_invariant _ hkeep _ hstart hboth
    rintro s l ⟨stage, hlives, horder⟩ ⟨hguard, hpush⟩
    exact (inOrder_next hlives horder hguard hpush).2

/-- A message that is in time for a connection that is about to close. -/
theorem quiet_send_before_close :
    let steps : List ServerStep :=
      [.newConnection 5 false, .sendCheck 7 0 [1, 2], .sendPush 7 0 [1, 2],
        .event 0 (.handleRead .eof), .swapFunctors 0, .runFunctor 0 (.wrote 2),
        .runFunctor 0 (.wrote 0), .batchDone 0]
    (tcpServer.run (new "s" 0) steps).Quiet ∧ tcpServer.Along Untouched (new "s" 0) steps :=
  quiet_of_pushesInTime "s" 0 _ (by decide +kernel) (by decide +kernel)

/-- The peer closes between the test of `state_` and the push.  In the
    same batch the message registers the channel again; in the next one it
    finds no object. -/
theorem not_quiet_late_push :
    let close : List ServerStep :=
      [.newConnection 5 false, .sendCheck 7 0 [1, 2], .event 0 (.handleRead .eof)]
    let sameBatch : List ServerStep :=
      [.sendPush 7 0 [1, 2], .swapFunctors 0, .runFunctor 0 (.wrote 0), .runFunctor 0 (.wrote 1)]
    let nextBatch : List ServerStep :=
      [.swapFunctors 0, .runFunctor 0 (.wrote 0), .sendPush 7 0 [1, 2], .batchDone 0,
        .swapFunctors 0, .runFunctor 0 (.wrote 1)]
    tcpServer.Valid (new "s" 0) (close ++ sameBatch) ∧
      ¬ (tcpServer.run (new "s" 0) (close ++ sameBatch)).Quiet ∧
      tcpServer.Valid (new "s" 0) (close ++ nextBatch) ∧
      (tcpServer.run (new "s" 0) (close ++ nextBatch)).dangling = [.conn 0 (.sendInLoop [1, 2])] := by
  refine ⟨by decide +kernel, fun h => ?_, by decide +kernel, by decide +kernel⟩
  have hdestroyed : IsDestroyed (tcpServer.run (new "s" 0)
      ([.newConnection 5 false, .sendCheck 7 0 [1, 2], .event 0 (.handleRead .eof)] ++
        [.sendPush 7 0 [1, 2], .swapFunctors 0, .runFunctor 0 (.wrote 0),
          .runFunctor 0 (.wrote 1)])) 0 := ⟨0, by decide +kernel⟩
  have hstatus := h.status 0 hdestroyed
  revert hstatus
  decide +kernel

end TcpServer

end TinyWS
