import TinyWS.MultiProcess.TcpServer

/-! # The Accept Lock

    A process has three records of the lock besides the mutex itself:
    `isLock_`, the events of its accept channel, and what its epoll
    watches.  The hooks change them together, so they agree in every
    process that has the hooks.

    A replacement that makes its loop anew, as all do in this machine, has
    one without the hooks.  Its `isLock_` is whatever the parent's was, but
    its accept channel was reset and never listens again. -/

namespace TinyWS

open Std

namespace Process

variable {Pid : Type}

namespace TcpServer

/-! ## The specification -/

/-- The process has read interest for the listen socket in its own epoll. -/
def Watching (t : TcpServer Pid) : Prop :=
  ∃ v ∈ t.loop_.epoll_.interest[t.acceptor_.getSockfd]?, v.1 &&& Channel.kReadEvent ≠ 0

/-! ## The accept channel -/

/-- The channel is registered, for reading. -/
structure Listening (ch : Channel) (ep : Epoll) : Prop where
  status : ch.statusInEpoll_ = .kAdded
  events : ch.events_ = Channel.kReadEvent
  interest : ep.interest[ch.fd_]? = some (Channel.kReadEvent, ch.self)

/-- The channel is not registered. -/
structure Silent (ch : Channel) (ep : Epoll) : Prop where
  status : ch.statusInEpoll_ ≠ .kAdded
  events : ch.events_ = Channel.kNoneEvent
  interest : ep.interest[ch.fd_]? = none

section AcceptChannel

variable {ch : Channel} {ep : Epoll}

theorem Silent.known (h : Silent ch ep) : ep.Known ch :=
  iff_of_false (notMem_of_getElem?_eq_none h.interest) h.status

theorem Listening.isNoneEvent (h : Listening ch ep) : ch.isNoneEvent = false := by
  rw [Channel.isNoneEvent, h.events]
  decide

theorem Silent.isNoneEvent (h : Silent ch ep) : ch.isNoneEvent = true := by
  rw [Channel.isNoneEvent, h.events]
  decide

/-- `listenInEpoll` on a channel that was not registered. -/
theorem listening_enableReading (h : Silent ch ep) :
    Listening (enableReading .process2 ch ep).2 (enableReading .process2 ch ep).1 := by
  obtain ⟨hself, hfd, hevents, hstatus, hinterest⟩ :=
    enableReading_spec (v := .process2) h.known
  have hread : readEvents ch = Channel.kReadEvent := by
    rw [readEvents, h.events]
    decide
  rw [hread] at hevents hinterest
  refine ⟨hstatus, hevents, ?_⟩
  rw [hfd, hself]
  exact hinterest

/-- `unlistenInEpoll` on a channel that was registered. -/
theorem silent_disableReading (h : Listening ch ep) :
    Silent (disableReading ch ep).2 (disableReading ch ep).1 := by
  obtain ⟨hfd, hevents, hstatus, hinterest⟩ := disableReading_spec ep h.events h.status
  refine ⟨?_, hevents, ?_⟩
  · rw [hstatus]
    decide
  · rw [hfd]
    exact hinterest

theorem silent_resetLoop (ch : Channel) : Silent (Process.resetLoop ch) EventLoop.new.epoll_ :=
  ⟨EpollStatus.noConfusion, rfl, ExtTreeMap.getElem?_empty⟩

end AcceptChannel

/-! ## One process -/

/-- The hooks are set, and the loop knows the listen socket. -/
structure Hooked (loop : EventLoop) (acceptor : Acceptor) : Prop where
  beforeEachLoop : loop.beforeEachLoopFunction_ = some .lockAcceptor
  afterEachAccept : loop.afterEachAcceptFunction_ = some .unlockAcceptor
  listenSockfd : loop.listenSockfd_ = acceptor.getSockfd

/-- The loop is one that `start` has made anew. -/
structure Unhooked (loop : EventLoop) : Prop where
  beforeEachLoop : loop.beforeEachLoopFunction_ = none
  afterEachAccept : loop.afterEachAcceptFunction_ = none
  listenSockfd : loop.listenSockfd_ = -1

/-- The process `p` has the lock, and its records say so. -/
structure Owns (m : ProcessMutexLock Pid) (p : Pid) (t : TcpServer Pid) : Prop where
  owner : m.owner = some p
  isLock_ : t.isLock_ = true
  hooked : Hooked t.loop_ t.acceptor_
  listening : Listening t.acceptor_.acceptChannel_ t.loop_.epoll_

/-- The process `p` has the hooks but not the lock. -/
structure Lacks (m : ProcessMutexLock Pid) (p : Pid) (t : TcpServer Pid) : Prop where
  owner : m.owner ≠ some p
  isLock_ : t.isLock_ = false
  hooked : Hooked t.loop_ t.acceptor_
  silent : Silent t.acceptor_.acceptChannel_ t.loop_.epoll_

/-- The process `p` is a replacement.  Nothing is said of `isLock_`. -/
structure Replaces (m : ProcessMutexLock Pid) (p : Pid) (t : TcpServer Pid) : Prop where
  owner : m.owner ≠ some p
  unhooked : Unhooked t.loop_
  silent : Silent t.acceptor_.acceptChannel_ t.loop_.epoll_
  created : t.created = true

/-- **Invariant of one process.** -/
structure Kept (sockfd : Int) (m : ProcessMutexLock Pid) (p : Pid) (t : TcpServer Pid) :
    Prop where
  role : Owns m p t ∨ Lacks m p t ∨ Replaces m p t
  getSockfd : t.acceptor_.getSockfd = sockfd
  /-- The listen channel is always taken out of `activeChannels_`. -/
  listenActive : t.listenActive = false

section Records

variable {sockfd : Int} {m m' : ProcessMutexLock Pid} {p : Pid} {t t' : TcpServer Pid}

theorem Owns.watching (h : Owns m p t) : t.Watching := by
  refine ⟨_, h.listening.interest, ?_⟩
  show Channel.kReadEvent &&& Channel.kReadEvent ≠ 0
  decide

theorem not_watching (h : Silent t.acceptor_.acceptChannel_ t.loop_.epoll_) : ¬ t.Watching := by
  rintro ⟨v, hv, -⟩
  have hnone : t.loop_.epoll_.interest[t.acceptor_.getSockfd]? = none := h.interest
  rw [hnone] at hv
  cases hv

/-- Whoever watches the listen socket has the lock. -/
theorem Kept.owner_of_watching (h : Kept sockfd m p t) (hwatch : t.Watching) :
    m.owner = some p := by
  rcases h.role with howns | hlacks | hreplaces
  · exact howns.owner
  · exact absurd hwatch (not_watching hlacks.silent)
  · exact absurd hwatch (not_watching hreplaces.silent)

theorem Kept.owns_of_owner (h : Kept sockfd m p t) (howner : m.owner = some p) : Owns m p t := by
  rcases h.role with howns | hlacks | hreplaces
  · exact howns
  · exact absurd howner hlacks.owner
  · exact absurd howner hreplaces.owner

/-- `t'` has the records of `t`. -/
structure SameRecords (t t' : TcpServer Pid) : Prop where
  isLock_ : t'.isLock_ = t.isLock_
  acceptor_ : t'.acceptor_ = t.acceptor_
  loop_ : ∃ running, t'.loop_ = { t.loop_ with running_ := running }
  created : t'.created = t.created

theorem SameRecords.hooked (hsame : SameRecords t t') (h : Hooked t.loop_ t.acceptor_) :
    Hooked t'.loop_ t'.acceptor_ := by
  obtain ⟨running, hloop⟩ := hsame.loop_
  rw [hloop, hsame.acceptor_]
  exact ⟨h.beforeEachLoop, h.afterEachAccept, h.listenSockfd⟩

theorem SameRecords.unhooked (hsame : SameRecords t t') (h : Unhooked t.loop_) :
    Unhooked t'.loop_ := by
  obtain ⟨running, hloop⟩ := hsame.loop_
  rw [hloop]
  exact ⟨h.beforeEachLoop, h.afterEachAccept, h.listenSockfd⟩

theorem SameRecords.epoll_ (hsame : SameRecords t t') : t'.loop_.epoll_ = t.loop_.epoll_ := by
  obtain ⟨running, hloop⟩ := hsame.loop_
  rw [hloop]

/-- The role depends on the records, and on the owner as far as it is `p`. -/
theorem role_frame (h : Owns m p t ∨ Lacks m p t ∨ Replaces m p t) (hsame : SameRecords t t')
    (howner : m'.owner = some p ↔ m.owner = some p) :
    Owns m' p t' ∨ Lacks m' p t' ∨ Replaces m' p t' := by
  rcases h with h | h | h
  · left
    refine ⟨howner.mpr h.owner, hsame.isLock_.trans h.isLock_, hsame.hooked h.hooked, ?_⟩
    rw [hsame.acceptor_, hsame.epoll_]
    exact h.listening
  · right
    left
    refine ⟨mt howner.mp h.owner, hsame.isLock_.trans h.isLock_, hsame.hooked h.hooked, ?_⟩
    rw [hsame.acceptor_, hsame.epoll_]
    exact h.silent
  · right
    right
    refine ⟨mt howner.mp h.owner, hsame.unhooked h.unhooked, ?_, hsame.created.trans h.created⟩
    rw [hsame.acceptor_, hsame.epoll_]
    exact h.silent

theorem Kept.frame (h : Kept sockfd m p t) (hsame : SameRecords t t')
    (howner : m'.owner = some p ↔ m.owner = some p) (hactive : t'.listenActive = false) :
    Kept sockfd m' p t' := by
  refine ⟨role_frame h.role hsame howner, ?_, hactive⟩
  rw [hsame.acceptor_]
  exact h.getSockfd

theorem SameRecords.refl (t : TcpServer Pid) : SameRecords t t := ⟨rfl, rfl, ⟨_, rfl⟩, rfl⟩

/-! ### The hooks -/

/-- The lock was free. -/
theorem owns_listenInEpoll (h : Lacks m p t) :
    Owns ⟨some p⟩ p { t with isLock_ := true }.listenInEpoll ∧
      { t with isLock_ := true }.listenInEpoll.acceptor_.getSockfd = t.acceptor_.getSockfd := by
  have hfd : (enableReading .process2 t.acceptor_.acceptChannel_ t.loop_.epoll_).2.fd_ =
      t.acceptor_.acceptChannel_.fd_ := (enableReading_spec h.silent.known).2.1
  refine ⟨⟨rfl, rfl, ⟨h.hooked.beforeEachLoop, h.hooked.afterEachAccept, ?_⟩,
    listening_enableReading h.silent⟩, hfd⟩
  exact h.hooked.listenSockfd.trans hfd.symm

/-- The lock is given back. -/
theorem lacks_unlistenInEpoll (h : Owns m p t) :
    Lacks m.unlock p { t with isLock_ := false }.unlistenInEpoll ∧
      { t with isLock_ := false }.unlistenInEpoll.acceptor_.getSockfd =
        t.acceptor_.getSockfd := by
  have hfd : (disableReading t.acceptor_.acceptChannel_ t.loop_.epoll_).2.fd_ =
      t.acceptor_.acceptChannel_.fd_ :=
    (disableReading_spec _ h.listening.events h.listening.status).1
  refine ⟨⟨(Option.some_ne_none p).symm, rfl,
    ⟨h.hooked.beforeEachLoop, h.hooked.afterEachAccept, ?_⟩, silent_disableReading h.listening⟩, hfd⟩
  exact h.hooked.listenSockfd.trans hfd.symm

/-- `lockAcceptor` gets the lock when it is free, and does nothing when it
    is not: also when the caller has it. -/
theorem lockAcceptor_cases (p : Pid) (m : ProcessMutexLock Pid) (t : TcpServer Pid) :
    (m.owner = none ∧
        t.lockAcceptor p m = (⟨some p⟩, { t with isLock_ := true }.listenInEpoll)) ∨
      (m.owner ≠ none ∧ t.lockAcceptor p m = (m, t)) := by
  unfold lockAcceptor ProcessMutexLock.trylock
  cases m.owner with
  | none => exact Or.inl ⟨rfl, rfl⟩
  | some q => exact Or.inr ⟨Option.some_ne_none q, rfl⟩

/-- The hooks change the records and nothing else. -/
theorem call_eq (hook : Option Hook) (p : Pid) (m : ProcessMutexLock Pid) (t : TcpServer Pid) :
    ∃ isLock acceptor epoll, (t.call hook p m).2 =
      { t with
        isLock_ := isLock
        acceptor_ := acceptor
        loop_ := { t.loop_ with epoll_ := epoll } } := by
  cases hook with
  | none => exact ⟨_, _, _, rfl⟩
  | some hook =>
    cases hook with
    | lockAcceptor =>
      rcases lockAcceptor_cases p m t with ⟨-, hcall⟩ | ⟨-, hcall⟩
      · simp only [call, hcall]
        exact ⟨_, _, _, rfl⟩
      · simp only [call, hcall]
        exact ⟨_, _, _, rfl⟩
    | unlockAcceptor =>
      simp only [call, unlockAcceptor]
      split
      · exact ⟨_, _, _, rfl⟩
      · exact ⟨_, _, _, rfl⟩

/-- A step of `p` takes the lock from no other process, and gives it to
    none. -/
def OthersKeep (p : Pid) (m m' : ProcessMutexLock Pid) : Prop :=
  ∀ q, q ≠ p → (m'.owner = some q ↔ m.owner = some q)

theorem OthersKeep.refl (p : Pid) (m : ProcessMutexLock Pid) : OthersKeep p m m :=
  fun _ _ => Iff.rfl

/-- The lock passes between `p` and nobody. -/
theorem othersKeep_of (hbefore : m.owner = none ∨ m.owner = some p)
    (hafter : m'.owner = none ∨ m'.owner = some p) : OthersKeep p m m' := by
  have hother : ∀ {k : ProcessMutexLock Pid}, k.owner = none ∨ k.owner = some p →
      ∀ q, q ≠ p → k.owner ≠ some q := by
    intro k hk q hq howner
    rcases hk with hk | hk
    · rw [hk] at howner
      cases howner
    · rw [hk] at howner
      exact hq (Option.some.inj howner).symm
  intro q hq
  exact iff_of_false (hother hafter q hq) (hother hbefore q hq)

/-! ### The steps of a process -/

theorem kept_loopHead [DecidableEq Pid] (h : Kept sockfd m p t) :
    Kept sockfd (t.loopHead p m).1 p (t.loopHead p m).2 ∧
      OthersKeep p m (t.loopHead p m).1 := by
  unfold loopHead
  split
  · -- the hook is called, if there is one
    dsimp only
    rcases h.role with howns | hlacks | hreplaces
    · -- the owner tries again, and fails against itself
      rw [howns.hooked.beforeEachLoop]
      rcases lockAcceptor_cases p m t with ⟨hfree, -⟩ | ⟨-, hcall⟩
      · rw [howns.owner] at hfree
        cases hfree
      · simp only [call, hcall]
        exact ⟨h.frame ⟨rfl, rfl, ⟨_, rfl⟩, rfl⟩ Iff.rfl h.listenActive,
          OthersKeep.refl p m⟩
    · -- the lock is free, or somebody else has it
      rw [hlacks.hooked.beforeEachLoop]
      rcases lockAcceptor_cases p m t with ⟨hfree, hcall⟩ | ⟨-, hcall⟩
      · simp only [call, hcall]
        obtain ⟨howns, hsockfd⟩ := owns_listenInEpoll hlacks
        refine ⟨⟨Or.inl ?_, hsockfd.trans h.getSockfd, h.listenActive⟩,
          othersKeep_of (Or.inl hfree) (Or.inr rfl)⟩
        exact ⟨rfl, rfl, howns.hooked, howns.listening⟩
      · simp only [call, hcall]
        exact ⟨h.frame ⟨rfl, rfl, ⟨_, rfl⟩, rfl⟩ Iff.rfl h.listenActive,
          OthersKeep.refl p m⟩
    · -- a replacement does not try
      rw [hreplaces.unhooked.beforeEachLoop]
      exact ⟨h.frame ⟨rfl, rfl, ⟨_, rfl⟩, rfl⟩ Iff.rfl h.listenActive,
        OthersKeep.refl p m⟩
  · exact ⟨h.frame ⟨rfl, rfl, ⟨_, rfl⟩, rfl⟩ Iff.rfl h.listenActive,
      OthersKeep.refl p m⟩

/-- `unlockAcceptor` in a process with the lock. -/
theorem unlockAcceptor_owns (h : Owns m p t) :
    t.unlockAcceptor m = (m.unlock, { t with isLock_ := false }.unlistenInEpoll) := by
  rw [unlockAcceptor, if_pos h.isLock_]

/-- A reported listen socket is found among the active channels. -/
theorem poll_owns (h : Owns m p t) :
    t.poll true = { t with point := .accept, listenActive := false } := by
  have hcond : true ∧ t.acceptor_.getSockfd = t.loop_.listenSockfd_ :=
    ⟨rfl, h.hooked.listenSockfd.symm⟩
  rw [poll, if_pos hcond]

/-- Nothing is reported for the listen socket. -/
theorem poll_idle (t : TcpServer Pid) :
    t.poll false = { t with point := .check, listenActive := false } := by
  rw [poll, if_neg]
  exact fun h => Bool.false_ne_true h.1

/-- After the accept the lock is given back. -/
theorem afterAccept_owns (h : Owns m p t) :
    t.afterAccept p m =
      (m.unlock, { { t with isLock_ := false }.unlistenInEpoll with point := .check }) := by
  unfold afterAccept
  rw [h.hooked.afterEachAccept]
  simp only [call, unlockAcceptor_owns h]

/-- A socket that the epoll reports is registered, so the process has the
    lock. -/
theorem Kept.owns_of_mem (h : Kept sockfd m p t)
    (hmem : t.acceptor_.getSockfd ∈ t.loop_.epoll_.interest) : Owns m p t := by
  rcases h.role with howns | hlacks | hreplaces
  · exact howns
  · exact absurd hmem (notMem_of_getElem?_eq_none hlacks.silent.interest)
  · exact absurd hmem (notMem_of_getElem?_eq_none hreplaces.silent.interest)

theorem kept_poll (h : Kept sockfd m p t) {listen : Bool}
    (hwatches : listen = true → t.acceptor_.getSockfd ∈ t.loop_.epoll_.interest) :
    Kept sockfd m p (t.poll listen) := by
  cases listen with
  | true =>
    rw [poll_owns (h.owns_of_mem (hwatches rfl))]
    exact h.frame ⟨rfl, rfl, ⟨_, rfl⟩, rfl⟩ Iff.rfl rfl
  | false =>
    rw [poll_idle]
    exact h.frame ⟨rfl, rfl, ⟨_, rfl⟩, rfl⟩ Iff.rfl rfl

theorem kept_accept (h : Kept sockfd m p t) : Kept sockfd m p t.accept :=
  h.frame ⟨rfl, rfl, ⟨_, rfl⟩, rfl⟩ Iff.rfl h.listenActive

/-- The hook gives back what the process has. -/
theorem kept_afterAccept (h : Kept sockfd m p t) :
    Kept sockfd (t.afterAccept p m).1 p (t.afterAccept p m).2 ∧
      OthersKeep p m (t.afterAccept p m).1 := by
  rcases h.role with howns | hlacks | hreplaces
  · obtain ⟨hlacks, hsockfd⟩ := lacks_unlistenInEpoll howns
    rw [afterAccept_owns howns]
    refine ⟨⟨Or.inr (Or.inl ?_), hsockfd.trans h.getSockfd, h.listenActive⟩,
      othersKeep_of (Or.inr howns.owner) (Or.inl rfl)⟩
    exact ⟨hlacks.owner, rfl, hlacks.hooked, hlacks.silent⟩
  · -- `isLock_` is not set
    have hcall : t.afterAccept p m = (m, { t with point := .check }) := by
      unfold afterAccept
      rw [hlacks.hooked.afterEachAccept]
      simp only [call, unlockAcceptor, hlacks.isLock_, if_neg Bool.false_ne_true]
    rw [hcall]
    exact ⟨h.frame ⟨rfl, rfl, ⟨_, rfl⟩, rfl⟩ Iff.rfl h.listenActive, OthersKeep.refl p m⟩
  · -- there is no hook
    have hcall : t.afterAccept p m = (m, { t with point := .check }) := by
      unfold afterAccept
      rw [hreplaces.unhooked.afterEachAccept]
      rfl
    rw [hcall]
    exact ⟨h.frame ⟨rfl, rfl, ⟨_, rfl⟩, rfl⟩ Iff.rfl h.listenActive, OthersKeep.refl p m⟩

theorem kept_check (h : Kept sockfd m p t) :
    Kept sockfd m p t.check := by
  unfold check
  split
  · exact h.frame ⟨rfl, rfl, ⟨false, rfl⟩, rfl⟩ Iff.rfl h.listenActive
  · exact h.frame ⟨rfl, rfl, ⟨_, rfl⟩, rfl⟩ Iff.rfl h.listenActive

theorem kept_handle (h : Kept sockfd m p t) (quit : Bool) :
    Kept sockfd m p (t.handle quit) := by
  unfold handle
  -- the listen channel is not among the others
  rw [if_neg (by rw [h.listenActive]; exact Bool.false_ne_true)]
  exact h.frame ⟨rfl, rfl, ⟨_, rfl⟩, rfl⟩ Iff.rfl rfl

theorem kept_signalHandler (h : Kept sockfd m p t) (signo : Signo) :
    Kept sockfd m p (t.signalHandler signo) := by
  cases signo <;> exact h.frame ⟨rfl, rfl, ⟨_, rfl⟩, rfl⟩ Iff.rfl h.listenActive

/-! ### Back to the loop, or out of `start` -/

theorem kept_again (h : Kept sockfd m p t) : Kept sockfd m p t.again := by
  unfold again
  split
  · exact h.frame ⟨rfl, rfl, ⟨true, rfl⟩, rfl⟩ Iff.rfl h.listenActive
  · exact h.frame ⟨rfl, rfl, ⟨_, rfl⟩, rfl⟩ Iff.rfl h.listenActive

theorem terminate_eq (t : TcpServer Pid) :
    ∃ pool running, t.terminate = { t with processPool_ := pool, running := running } := by
  unfold terminate
  split
  · exact ⟨_, _, rfl⟩
  · exact ⟨_, _, rfl⟩

theorem kept_terminate (h : Kept sockfd m p t) : Kept sockfd m p t.terminate := by
  obtain ⟨pool, running, hterminate⟩ := terminate_eq t
  rw [hterminate]
  exact h.frame ⟨rfl, rfl, ⟨_, rfl⟩, rfl⟩ Iff.rfl h.listenActive

theorem kept_afterLoop (h : Kept sockfd m p t) (fork : Option Pid) :
    Kept sockfd m p (t.afterLoop fork).1 := by
  have hterminate := kept_terminate h
  unfold afterLoop
  dsimp only
  split
  · -- the parent side of the fork: only the pool and the flag change
    apply kept_again
    exact hterminate.frame ⟨rfl, rfl, ⟨_, rfl⟩, rfl⟩ Iff.rfl hterminate.listenActive
  · exact kept_again hterminate

/-- Only a parent that saw a child quit has a child. -/
theorem afterLoop_status {fork : Option Pid} {child : TcpServer Pid}
    (h : (t.afterLoop fork).2 = some child) : t.status_child_quit = true := by
  obtain ⟨pool, running, hterminate⟩ := terminate_eq t
  unfold afterLoop at h
  dsimp only at h
  rw [hterminate] at h
  split at h
  · next hstatus => exact hstatus
  · cases h

theorem afterLoop_child {fork : Option Pid} {child : TcpServer Pid}
    (h : (t.afterLoop fork).2 = some child) : child = t.terminate.child.again := by
  unfold afterLoop at h
  dsimp only at h
  split at h
  · split at h
    · exact (Option.some.inj h).symm
    · cases h
  · cases h

/-- The child does not own the lock, whatever it copied. -/
theorem kept_child (h : Kept sockfd m p t) {q : Pid} (hq : m.owner ≠ some q) :
    Kept sockfd m q t.terminate.child.again := by
  have hterminate := kept_terminate h
  apply kept_again
  refine ⟨Or.inr (Or.inr ?_), hterminate.getSockfd, hterminate.listenActive⟩
  -- its loop is new and its accept channel was reset; `isLock_` may be anything
  exact ⟨hq, ⟨rfl, rfl, rfl⟩, silent_resetLoop _, rfl⟩

/-! ### What most steps leave alone -/

/-- The course of the process through `start` is the same in `t'`. -/
structure SameCourse (t t' : TcpServer Pid) : Prop where
  running : t'.running = t.running
  status_child_quit : t'.status_child_quit = t.status_child_quit
  created : t'.created = t.created

theorem sameCourse_call (hook : Option Hook) (p : Pid) (m : ProcessMutexLock Pid)
    (t : TcpServer Pid) : SameCourse t (t.call hook p m).2 := by
  obtain ⟨isLock, acceptor, epoll, hcall⟩ := call_eq hook p m t
  rw [hcall]
  exact ⟨rfl, rfl, rfl⟩

theorem sameCourse_loopHead [DecidableEq Pid] (p : Pid) (m : ProcessMutexLock Pid)
    (t : TcpServer Pid) : SameCourse t (t.loopHead p m).2 := by
  unfold loopHead
  split
  · have hcall := sameCourse_call t.loop_.beforeEachLoopFunction_ p m t
    exact ⟨hcall.running, hcall.status_child_quit, hcall.created⟩
  · exact ⟨rfl, rfl, rfl⟩

theorem sameCourse_poll (listen : Bool) (t : TcpServer Pid) :
    SameCourse t (t.poll listen) := by
  unfold poll
  split
  · exact ⟨rfl, rfl, rfl⟩
  · exact ⟨rfl, rfl, rfl⟩

theorem sameCourse_afterAccept (p : Pid) (m : ProcessMutexLock Pid) (t : TcpServer Pid) :
    SameCourse t (t.afterAccept p m).2 := by
  have hcall := sameCourse_call t.loop_.afterEachAcceptFunction_ p m t
  exact ⟨hcall.running, hcall.status_child_quit, hcall.created⟩

theorem sameCourse_check (t : TcpServer Pid) : SameCourse t t.check := by
  unfold check
  split
  · exact ⟨rfl, rfl, rfl⟩
  · exact ⟨rfl, rfl, rfl⟩

theorem sameCourse_handle (quit : Bool) (t : TcpServer Pid) : SameCourse t (t.handle quit) := by
  unfold handle
  split
  · exact ⟨rfl, rfl, rfl⟩
  · exact ⟨rfl, rfl, rfl⟩

theorem sameCourse_signalHandler (signo : Signo) (t : TcpServer Pid) :
    SameCourse t (t.signalHandler signo) := by
  cases signo with
  | SIGINT | SIGTERM | SIGQUIT => exact ⟨rfl, rfl, rfl⟩

theorem sameCourse_again (t : TcpServer Pid) : SameCourse t t.again := by
  unfold again
  split
  · exact ⟨rfl, rfl, rfl⟩
  · exact ⟨rfl, rfl, rfl⟩

/-! ### What only a death brings -/

/-- The process was told of a death, or was made because of one. -/
def OfDeath (t : TcpServer Pid) : Prop := t.status_child_quit = true ∨ t.created = true

theorem SameCourse.ofDeath (hsame : SameCourse t t') (h : t'.OfDeath) : t.OfDeath :=
  Or.imp hsame.status_child_quit.symm.trans hsame.created.symm.trans h

theorem ofDeath_afterLoop {fork : Option Pid} (h : (t.afterLoop fork).1.OfDeath) :
    t.OfDeath := by
  obtain ⟨pool, running, hterminate⟩ := terminate_eq t
  unfold afterLoop at h
  dsimp only at h
  rw [hterminate] at h
  split at h
  · next hstatus => exact Or.inl hstatus
  · exact (sameCourse_again { t with processPool_ := pool, running := running }).ofDeath h

end Records

end TcpServer

/-! ## One step -/

namespace ServerStep

variable {sockfd : Int} {m : ProcessMutexLock Pid} {t : TcpServer Pid} {l : ServerStep Pid}

/-- What the actor does keeps its records. -/
theorem kept_effect [DecidableEq Pid] (h : t.Kept sockfd m l.actor) (hready : l.Ready t) :
    (l.effect m t).2.Kept sockfd (l.effect m t).1 l.actor ∧
      TcpServer.OthersKeep l.actor m (l.effect m t).1 := by
  cases l with
  | loopHead p => exact TcpServer.kept_loopHead h
  | poll p listen => exact ⟨TcpServer.kept_poll h hready.2, TcpServer.OthersKeep.refl p m⟩
  | accept p => exact ⟨TcpServer.kept_accept h, TcpServer.OthersKeep.refl p m⟩
  | afterAccept p => exact TcpServer.kept_afterAccept h
  | check p => exact ⟨TcpServer.kept_check h, TcpServer.OthersKeep.refl p m⟩
  | handle p quit => exact ⟨TcpServer.kept_handle h quit, TcpServer.OthersKeep.refl p m⟩
  | afterLoop p fork => exact ⟨TcpServer.kept_afterLoop h fork, TcpServer.OthersKeep.refl p m⟩
  | signal p signo =>
    exact ⟨TcpServer.kept_signalHandler h signo, TcpServer.OthersKeep.refl p m⟩
  | sigchld p q | die p =>
    exact ⟨h.frame ⟨rfl, rfl, ⟨_, rfl⟩, rfl⟩ Iff.rfl h.listenActive,
      TcpServer.OthersKeep.refl p m⟩

/-- Only a parent told of a death makes a process. -/
theorem child_eq {q : Pid} {u : TcpServer Pid} (h : l.child t = some (q, u)) :
    ∃ p, l = .afterLoop p (some q) ∧ t.status_child_quit = true ∧
      u = t.terminate.child.again := by
  cases l with
  | afterLoop p fork =>
    cases fork with
    | none => cases h
    | some k =>
      obtain ⟨u', hu', heq⟩ := Option.map_eq_some_iff.mp h
      cases heq
      exact ⟨p, rfl, TcpServer.afterLoop_status hu', TcpServer.afterLoop_child hu'⟩
  | loopHead | poll | accept | afterAccept | check | handle | signal | sigchld | die => cases h

theorem child_eq_none (hl : ∀ p fork, l ≠ .afterLoop p fork) : l.child t = none := by
  cases l with
  | afterLoop p fork => exact absurd rfl (hl p fork)
  | loopHead | poll | accept | afterAccept | check | handle | signal | sigchld | die => rfl

/-- What has terminated can only die. -/
theorem eq_die_of_ready (hready : l.Ready t) (h : t.point = .left ∨ t.point = .dead) :
    ∃ p, l = .die p := by
  cases l with
  | die p => exact ⟨p, rfl⟩
  | signal p signo | sigchld p q =>
    rcases h with h | h
    · exact absurd h hready.1
    · exact absurd h hready.2
  | poll p listen =>
    have hpoint := hready.1
    rw [hpoint] at h
    rcases h with h | h
    · cases h
    · cases h
  | loopHead p | accept p | afterAccept p | check p | handle p quit | afterLoop p fork =>
    have hpoint : t.point = _ := hready
    rw [hpoint] at h
    rcases h with h | h
    · cases h
    · cases h

/-- Most steps leave the course of the actor alone. -/
theorem sameCourse_effect [DecidableEq Pid] (m : ProcessMutexLock Pid) (t : TcpServer Pid)
    (hafter : ∀ p fork, l ≠ .afterLoop p fork) (hsigchld : ∀ p q, l ≠ .sigchld p q) :
    TcpServer.SameCourse t (l.effect m t).2 := by
  cases l with
  | loopHead p => exact TcpServer.sameCourse_loopHead p m t
  | poll p listen => exact TcpServer.sameCourse_poll listen t
  | accept p => exact ⟨rfl, rfl, rfl⟩
  | afterAccept p => exact TcpServer.sameCourse_afterAccept p m t
  | check p => exact TcpServer.sameCourse_check t
  | handle p quit => exact TcpServer.sameCourse_handle quit t
  | afterLoop p fork => exact absurd rfl (hafter p fork)
  | signal p signo => exact TcpServer.sameCourse_signalHandler signo t
  | sigchld p q => exact absurd rfl (hsigchld p q)
  | die p => exact ⟨rfl, rfl, rfl⟩

/-- Only the rest of `start` touches the pool. -/
theorem processPool_effect [DecidableEq Pid] (m : ProcessMutexLock Pid) (t : TcpServer Pid)
    (hl : ∀ p fork, l ≠ .afterLoop p fork) :
    (l.effect m t).2.processPool_ = t.processPool_ := by
  cases l with
  | loopHead p =>
    simp only [effect, TcpServer.loopHead]
    split
    · obtain ⟨_, _, _, hcall⟩ :=
        TcpServer.call_eq t.loop_.beforeEachLoopFunction_ p m t
      simp only [hcall]
    · rfl
  | poll p listen =>
    simp only [effect, TcpServer.poll]
    split
    · rfl
    · rfl
  | afterAccept p =>
    obtain ⟨_, _, _, hcall⟩ := TcpServer.call_eq t.loop_.afterEachAcceptFunction_ p m t
    simp only [effect, TcpServer.afterAccept, hcall]
  | check p =>
    simp only [effect, TcpServer.check]
    split
    · rfl
    · rfl
  | handle p quit =>
    simp only [effect, TcpServer.handle]
    split
    · rfl
    · rfl
  | afterLoop p fork => exact absurd rfl (hl p fork)
  | signal p signo =>
    cases signo with
    | SIGINT | SIGTERM | SIGQUIT => rfl
  | accept | sigchld | die => rfl

/-- The actor has had news of a death before, or gets them by `SIGCHLD`. -/
theorem ofDeath_effect [DecidableEq Pid] (h : (l.effect m t).2.OfDeath) :
    t.OfDeath ∨ ∃ p q, l = .sigchld p q := by
  by_cases hsigchld : ∃ p q, l = .sigchld p q
  · exact Or.inr hsigchld
  · left
    simp only [not_exists] at hsigchld
    by_cases hafter : ∃ p fork, l = .afterLoop p fork
    · obtain ⟨p, fork, rfl⟩ := hafter
      exact TcpServer.ofDeath_afterLoop h
    · simp only [not_exists] at hafter
      exact (sameCourse_effect m t hafter hsigchld).ofDeath h

end ServerStep

namespace Server

section Process

variable {s : Server Pid} {l : ServerStep Pid} {q : Pid} {t u : TcpServer Pid}

/-- The child has a pid of its own. -/
theorem process_child (hguard : s.guard l) (hchild : l.child t = some (q, u)) :
    s.process q = none := by
  obtain ⟨p, rfl, -, -⟩ := ServerStep.child_eq hchild
  exact Option.isNone_iff_eq_none.mp (hguard.2 q rfl)

variable [DecidableEq Pid]

theorem adopt_of_ne {process : Pid → Option (TcpServer Pid)}
    {child : Option (Pid × TcpServer Pid)} (h : ∀ u, child ≠ some (q, u)) :
    adopt process child q = process q := by
  cases child with
  | none => rfl
  | some c =>
    have hq : q ≠ c.1 := by
      rintro rfl
      exact h c.2 rfl
    exact Function.update_of_ne hq ..

theorem adopt_cases {process : Pid → Option (TcpServer Pid)}
    {child : Option (Pid × TcpServer Pid)} (h : adopt process child q = some u) :
    child = some (q, u) ∨ process q = some u := by
  cases child with
  | none => exact Or.inr h
  | some c =>
    obtain ⟨k, v⟩ := c
    rw [adopt] at h
    by_cases hq : q = k
    · subst hq
      rw [Function.update_self] at h
      cases h
      exact Or.inl rfl
    · rw [Function.update_of_ne hq] at h
      exact Or.inr h

theorem next_eq (ht : s.process l.actor = some t) :
    s.next l =
      { mutex := (l.effect s.mutex t).1
        process :=
          adopt (Function.update s.process l.actor (some (l.effect s.mutex t).2)) (l.child t) } := by
  rw [next, ht]

theorem mutex_next (ht : s.process l.actor = some t) :
    (s.next l).mutex = (l.effect s.mutex t).1 := by
  rw [next_eq ht]

/-- A process that exists is not the child. -/
theorem process_next_of_some (hguard : s.guard l) (ht : s.process l.actor = some t)
    (hu : s.process q ≠ none) :
    (s.next l).process q =
      Function.update s.process l.actor (some (l.effect s.mutex t).2) q := by
  rw [next_eq ht]
  apply adopt_of_ne
  intro u hchild
  exact hu (process_child hguard hchild)

/-- The actor goes on. -/
theorem process_next_actor (hguard : s.guard l) (ht : s.process l.actor = some t) :
    (s.next l).process l.actor = some (l.effect s.mutex t).2 := by
  rw [process_next_of_some hguard ht (by rw [ht]; exact Option.some_ne_none t)]
  exact Function.update_self ..

/-- The others stay. -/
theorem process_next_ne (hguard : s.guard l) (hq : q ≠ l.actor) (hu : s.process q = some u) :
    (s.next l).process q = some u := by
  obtain ⟨t, ht, -⟩ := hguard.1
  rw [process_next_of_some hguard ht (by rw [hu]; exact Option.some_ne_none u),
    Function.update_of_ne hq]
  exact hu

/-- **Inversion**: a process after a step is the actor gone on, one that
    stayed, or a new child. -/
theorem process_next_cases (hguard : s.guard l) (ht : s.process l.actor = some t)
    (hu : (s.next l).process q = some u) :
    (q = l.actor ∧ u = (l.effect s.mutex t).2) ∨ (q ≠ l.actor ∧ s.process q = some u) ∨
      (s.process q = none ∧ l.child t = some (q, u)) := by
  rw [next_eq ht] at hu
  rcases adopt_cases hu with hchild | hold
  · exact Or.inr (Or.inr ⟨process_child hguard hchild, hchild⟩)
  · by_cases hq : q = l.actor
    · subst hq
      rw [Function.update_self] at hold
      exact Or.inl ⟨rfl, (Option.some.inj hold).symm⟩
    · rw [Function.update_of_ne hq] at hold
      exact Or.inr (Or.inl ⟨hq, hold⟩)

end Process

/-! ## All processes -/

/-- **Invariant**: every process keeps its records, and the lock is owned
    by a process that exists or has existed. -/
structure Coherent (sockfd : Int) (s : Server Pid) : Prop where
  kept : ∀ p t, s.process p = some t → t.Kept sockfd s.mutex p
  owner : ∀ p, s.mutex.owner = some p → s.process p ≠ none

theorem coherent_started (sockfd : Int) (pools : Pid → Option (ProcessPool Pid)) :
    (started sockfd pools).Coherent sockfd := by
  refine ⟨fun p t ht => ?_, fun p hp => ?_⟩
  · obtain ⟨pool, -, rfl⟩ := Option.map_eq_some_iff.mp ht
    refine ⟨Or.inr (Or.inl ?_), rfl, rfl⟩
    exact ⟨(Option.some_ne_none p).symm, rfl, ⟨rfl, rfl, rfl⟩,
      ⟨EpollStatus.noConfusion, rfl, ExtTreeMap.getElem?_empty⟩⟩
  · cases hp

variable [DecidableEq Pid] {s : Server Pid} {l : ServerStep Pid}

/-- **Step**: the records agree after every step. -/
theorem coherent_next {sockfd : Int} (h : s.Coherent sockfd) (hguard : s.guard l) :
    (s.next l).Coherent sockfd := by
  obtain ⟨t, ht, hready⟩ := hguard.1
  obtain ⟨hkept, hothers⟩ := ServerStep.kept_effect (h.kept l.actor t ht) hready
  refine ⟨fun q u hu => ?_, fun q hq => ?_⟩
  · rw [mutex_next ht]
    rcases process_next_cases hguard ht hu with ⟨rfl, rfl⟩ | ⟨hq, hu⟩ | ⟨hnone, hchild⟩
    · exact hkept
    · -- the others only see whether they are still the owner
      have hold := h.kept q u hu
      exact hold.frame (TcpServer.SameRecords.refl u) (hothers q hq) hold.listenActive
    · -- the child has a pid that never owned the lock
      obtain ⟨p, rfl, -, rfl⟩ := ServerStep.child_eq hchild
      exact TcpServer.kept_child (h.kept p t ht) fun howner => h.owner q howner hnone
  · -- an owner is the actor, or was the owner before
    rw [mutex_next ht] at hq
    by_cases hqp : q = l.actor
    · subst hqp
      rw [process_next_actor hguard ht]
      exact Option.some_ne_none _
    · obtain ⟨u, hu⟩ := Option.ne_none_iff_exists'.mp (h.owner q ((hothers q hqp).mp hq))
      rw [process_next_ne hguard hqp hu]
      exact Option.some_ne_none u

/-- **Run**: the records agree in every state. -/
theorem coherent_run {sockfd : Int} {steps : List (ServerStep Pid)} (h : s.Coherent sockfd)
    (hvalid : server.Valid s steps) : (server.run s steps).Coherent sockfd :=
  server.invariant_run (Coherent sockfd) (fun _ _ h hguard => coherent_next h hguard) h hvalid

/-! ## Before the first process has terminated -/

/-- What has terminated stays so. -/
theorem terminated_next {q : Pid} (hguard : s.guard l) (h : s.Terminated q) :
    (s.next l).Terminated q := by
  obtain ⟨u, hu, hpoint⟩ := h
  obtain ⟨t, ht, hready⟩ := hguard.1
  by_cases hq : q = l.actor
  · -- it takes no step but to be killed
    subst hq
    cases ht.symm.trans hu
    obtain ⟨p, rfl⟩ := ServerStep.eq_die_of_ready hready hpoint
    exact ⟨_, process_next_actor hguard ht, Or.inr rfl⟩
  · exact ⟨u, process_next_ne hguard hq hu, hpoint⟩

/-- Nobody is told of a death, or made because of one, before there is
    one. -/
def DeathsFirst (s : Server Pid) : Prop :=
  ∀ p t, s.process p = some t → t.OfDeath → ∃ q, s.Terminated q

omit [DecidableEq Pid] in
theorem deathsFirst_started (sockfd : Int) (pools : Pid → Option (ProcessPool Pid)) :
    (started sockfd pools).DeathsFirst := by
  intro p t ht hof
  obtain ⟨pool, -, rfl⟩ := Option.map_eq_some_iff.mp ht
  rcases hof with h | h
  · cases h
  · cases h

theorem deathsFirst_next (h : s.DeathsFirst) (hguard : s.guard l) :
    (s.next l).DeathsFirst := by
  intro p u hu hof
  obtain ⟨t, ht, hready⟩ := hguard.1
  have hterminated : ∃ q, s.Terminated q := by
    rcases process_next_cases hguard ht hu with ⟨rfl, rfl⟩ | ⟨-, hu⟩ | ⟨-, hchild⟩
    · rcases ServerStep.ofDeath_effect hof with hof | ⟨p, q, rfl⟩
      · exact h _ t ht hof
      · -- `SIGCHLD` comes for a process that has terminated
        exact ⟨q, hguard.2⟩
    · exact h p u hu hof
    · -- the parent of the child was told before
      obtain ⟨k, rfl, hstatus, -⟩ := ServerStep.child_eq hchild
      exact h k t ht (Or.inl hstatus)
  obtain ⟨q, hq⟩ := hterminated
  exact ⟨q, terminated_next hguard hq⟩

/-- **Accept mutual exclusion**: as long as no process has terminated, at
    most one process watches the listen socket, and a process watches it
    when its `isLock_` is set, which is when it owns the mutex. -/
theorem accept_exclusive (sockfd : Int) (pools : Pid → Option (ProcessPool Pid))
    (steps : List (ServerStep Pid)) (hvalid : server.Valid (started sockfd pools) steps)
    (hlive : ∀ p, ¬ (server.run (started sockfd pools) steps).Terminated p) :
    let s := server.run (started sockfd pools) steps
    (∀ p q t u, s.process p = some t → s.process q = some u → t.Watching → u.Watching → p = q) ∧
      ∀ p t, s.process p = some t →
        (t.Watching ↔ t.isLock_ = true) ∧ (t.isLock_ = true ↔ s.mutex.owner = some p) := by
  intro s
  have hcoherent : s.Coherent sockfd := coherent_run (coherent_started sockfd pools) hvalid
  have hdeaths : s.DeathsFirst :=
    server.invariant_run DeathsFirst (fun _ _ h hguard => deathsFirst_next h hguard)
      (deathsFirst_started sockfd pools) hvalid
  refine ⟨fun p q t u ht hu htwatch huwatch => ?_, fun p t ht => ?_⟩
  · have hp := (hcoherent.kept p t ht).owner_of_watching htwatch
    have hq := (hcoherent.kept q u hu).owner_of_watching huwatch
    exact Option.some.inj (hp.symm.trans hq)
  · -- nobody has terminated, so there is no replacement
    have hcreated : t.created ≠ true := by
      intro hcreated
      obtain ⟨q, hq⟩ := hdeaths p t ht (Or.inr hcreated)
      exact hlive q hq
    rcases (hcoherent.kept p t ht).role with h | h | h
    · exact ⟨iff_of_true h.watching h.isLock_, iff_of_true h.isLock_ h.owner⟩
    · have hlock : ¬ t.isLock_ = true := by
        rw [h.isLock_]
        exact Bool.false_ne_true
      exact ⟨iff_of_false (TcpServer.not_watching h.silent) hlock, iff_of_false hlock h.owner⟩
    · exact absurd h.created hcreated

/-- Process 0 keeps the lock over an iteration without a connection, and
    gives it back after one with a connection. -/
def twoProcesses : List (ServerStep (Fin 2)) :=
  [.loopHead 0, .loopHead 1, .poll 0 false, .poll 1 false, .check 0, .handle 0 false, .loopHead 0,
    .poll 0 true, .accept 0, .check 1, .handle 1 false, .afterAccept 0, .loopHead 1]

theorem accept_exclusive_twoProcesses :
    let s := server.run (started 5 fun _ => some ⟨1, []⟩) twoProcesses
    (∀ p q t u, s.process p = some t → s.process q = some u → t.Watching → u.Watching → p = q) ∧
      ∀ p t, s.process p = some t →
        (t.Watching ↔ t.isLock_ = true) ∧ (t.isLock_ = true ↔ s.mutex.owner = some p) :=
  accept_exclusive 5 (fun _ => some ⟨1, []⟩) twoProcesses (by decide +kernel) (by decide +kernel)

/-- At the end the lock is with process 1. -/
example : (server.run (started 5 fun _ => some ⟨1, []⟩) twoProcesses).mutex.owner = some 1 := by
  decide +kernel

end Server

end Process

end TinyWS
