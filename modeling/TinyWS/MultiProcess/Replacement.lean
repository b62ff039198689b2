import TinyWS.MultiProcess.SharedEpoll

/-! # Replacement Workers

    The hooks and the listen socket are set on the loop of the constructor,
    and nobody sets them on a loop that `TcpServer::start` makes anew: a
    process with such a loop never tries for the lock.

    A replacement that keeps the loop of its parent has the hooks, and a
    copy of the parent's records of the lock.  As long as no process owns
    the lock when its child makes the copy, or when it makes its own loop
    anew, every process with the hooks behaves as an original one does:
    it may share an epoll instance, but only the owner of the lock has the
    listen socket registered there. -/

namespace TinyWS

open Std

namespace Process

variable {Pid : Type}

/-! ## The specification -/

namespace TcpServer

instance (t : TcpServer Pid) : Decidable t.Watching :=
  inferInstanceAs (Decidable (∃ v ∈ t.loop_.epoll_.interest[t.acceptor_.getSockfd]?, _))

/-- The loop watches the listen socket and knows it, and when it is
    reported the process accepts and gives the lock back. -/
def Serves (p : Pid) (m : ProcessMutexLock Pid) (t : TcpServer Pid) : Prop :=
  t.Watching ∧ t.loop_.listenSockfd_ = t.acceptor_.getSockfd ∧
    (t.poll true).point = .accept ∧ (t.poll true).accept.accepted = t.accepted + 1 ∧
      ((t.poll true).accept.afterAccept p m).1.owner = none

instance [DecidableEq Pid] (p : Pid) (m : ProcessMutexLock Pid) (t : TcpServer Pid) :
    Decidable (t.Serves p m) := inferInstanceAs (Decidable (_ ∧ _))

end TcpServer

/-- Every live process has begun each iteration with a try for the lock or
    as its owner, and serves the listen socket while it owns the lock. -/
def Server.AcceptAlike (s : Server Pid) : Prop :=
  ∀ p, ∀ t ∈ s.process p, t.point ≠ .left → t.point ≠ .dead →
    t.missed = 0 ∧ (s.mutex.owner = some p → t.Serves p s.mutex)

instance [DecidableEq Pid] [Fintype Pid] (s : Server Pid) : Decidable s.AcceptAlike :=
  inferInstanceAs (Decidable (∀ p, ∀ t ∈ s.process p, _ → _ → _))

namespace SharedServer

/-- The first condition of the runs: no process begins an iteration on a
    loop that `start` has made anew. -/
def NoneBegins (s : SharedServer Pid) (l : SharedStep Pid) : Prop :=
  match l.step with
  | .loopHead p =>
      ∀ t ∈ s.server.process p, t.loop_.running_ = true → (s.epollfd_ p).anew = false
  | _ => True

/-- The second: who owns the lock in `start` does not get a child that
    keeps its loop, or lose its own. -/
def OwnersRead (s : SharedServer Pid) (l : SharedStep Pid) : Prop :=
  match l.step with
  | .afterLoop p fork =>
      ∀ t ∈ s.server.process p, t.Misreads fork l.value → s.server.mutex.owner ≠ some p
  | _ => True

instance (s : SharedServer Pid) : DecidablePred s.NoneBegins
  | ⟨.loopHead p, _⟩ => inferInstanceAs (Decidable (∀ t ∈ s.server.process p, _ → _))
  | ⟨.poll _ _, _⟩ | ⟨.accept _, _⟩ | ⟨.afterAccept _, _⟩ | ⟨.check _, _⟩ | ⟨.handle _ _, _⟩
  | ⟨.afterLoop _ _, _⟩ | ⟨.signal _ _, _⟩ | ⟨.sigchld _ _, _⟩ | ⟨.die _, _⟩ => isTrue trivial

instance [DecidableEq Pid] (s : SharedServer Pid) : DecidablePred s.OwnersRead
  | ⟨.afterLoop p _, _⟩ => inferInstanceAs (Decidable (∀ t ∈ s.server.process p, _ → _))
  | ⟨.loopHead _, _⟩ | ⟨.poll _ _, _⟩ | ⟨.accept _, _⟩ | ⟨.afterAccept _, _⟩ | ⟨.check _, _⟩
  | ⟨.handle _ _, _⟩ | ⟨.signal _ _, _⟩ | ⟨.sigchld _ _, _⟩ | ⟨.die _, _⟩ => isTrue trivial

end SharedServer

/-! ## One process -/

namespace TcpServer

variable {m m' : ProcessMutexLock Pid} {p q : Pid} {t t' : TcpServer Pid} {sockfd : Int}
  {fd : EpollFd Pid}

/-- Whoever owns the lock serves the listen socket. -/
theorem Owns.serves (h : Owns m p t) : t.Serves p m := by
  have haccepted : Owns m p (t.poll true).accept := by
    rw [poll_owns h]
    exact ⟨h.owner, h.isLock_, h.hooked, h.listening⟩
  refine ⟨h.watching, h.hooked.listenSockfd, ?_, ?_, ?_⟩
  · rw [poll_owns h]
  · rw [poll_owns h]
    rfl
  · rw [afterAccept_owns haccepted]
    rfl

/-- The process `p` has the hooks but not the lock.  Of its epoll instance
    nothing is said. -/
structure Waits (m : ProcessMutexLock Pid) (p : Pid) (t : TcpServer Pid) : Prop where
  owner : m.owner ≠ some p
  isLock_ : t.isLock_ = false
  hooked : Hooked t.loop_ t.acceptor_
  status : t.acceptor_.acceptChannel_.statusInEpoll_ ≠ .kAdded
  events : t.acceptor_.acceptChannel_.events_ = Channel.kNoneEvent

/-- In front of an iteration, or out of `start`. -/
def Idle (t : TcpServer Pid) : Prop :=
  t.point = .loopHead ∧ t.loop_.running_ = true ∨ t.point = .left ∨ t.point = .dead

/-- The process `p` has a loop made anew, and has not begun an iteration. -/
structure Renewed (m : ProcessMutexLock Pid) (p : Pid) (t : TcpServer Pid) : Prop where
  owner : m.owner ≠ some p
  unhooked : Unhooked t.loop_
  idle : t.Idle

/-- **Invariant of one process**, which holds the epoll instance `fd`. -/
structure Steady (sockfd : Int) (m : ProcessMutexLock Pid) (p : Pid) (fd : EpollFd Pid)
    (t : TcpServer Pid) : Prop where
  role : (Owns m p t ∨ Waits m p t) ∧ fd.anew = false ∨ Renewed m p t ∧ fd.anew = true
  getSockfd : t.acceptor_.getSockfd = sockfd
  listenActive : t.listenActive = false
  missed : t.missed = 0

/-- With the listen socket not registered. -/
theorem Waits.lacks (h : Waits m p t)
    (hnone : t.loop_.epoll_.interest[t.acceptor_.getSockfd]? = none) : Lacks m p t :=
  ⟨h.owner, h.isLock_, h.hooked, ⟨h.status, h.events, hnone⟩⟩

theorem Steady.owns_of_owner (h : Steady sockfd m p fd t) (howner : m.owner = some p) :
    Owns m p t := by
  rcases h.role with ⟨howns | hwaits, -⟩ | ⟨hrenewed, -⟩
  · exact howns
  · exact absurd howner hwaits.owner
  · exact absurd howner hrenewed.owner

/-- In the middle of an iteration there are hooks. -/
theorem Steady.hooked_of_not_idle (h : Steady sockfd m p fd t) (hidle : ¬ t.Idle) :
    (Owns m p t ∨ Waits m p t) ∧ fd.anew = false := by
  rcases h.role with hrole | ⟨hrenewed, -⟩
  · exact hrole
  · exact absurd hrenewed.idle hidle

/-- Without the lock it waits for it. -/
theorem Steady.waits (h : Steady sockfd m p fd t) (hfirst : fd.anew = false)
    (howner : m.owner ≠ some p) : Waits m p t := by
  rcases h.role with ⟨howns | hwaits, -⟩ | ⟨-, hlater⟩
  · exact absurd howns.owner howner
  · exact hwaits
  · cases hfirst.symm.trans hlater

theorem Steady.idle_of_anew (h : Steady sockfd m p fd t) (hlater : fd.anew = true) : t.Idle := by
  rcases h.role with ⟨-, hfirst⟩ | ⟨hrenewed, -⟩
  · cases hfirst.symm.trans hlater
  · exact hrenewed.idle

theorem not_idle (hhead : t.point ≠ .loopHead) (hleft : t.point ≠ .left)
    (hdead : t.point ≠ .dead) : ¬ t.Idle := by
  rintro (⟨hpoint, -⟩ | hpoint | hpoint)
  · exact hhead hpoint
  · exact hleft hpoint
  · exact hdead hpoint

/-- The actor goes on with the records that it has. -/
theorem Steady.frame (h : Steady sockfd m p fd t) (hsame : SameRecords t t')
    (hactive : t'.listenActive = false) (hmissed : t'.missed = t.missed)
    (hidle : fd.anew = true → t'.Idle) : Steady sockfd m p fd t' := by
  refine ⟨?_, ?_, hactive, hmissed.trans h.missed⟩
  · rcases h.role with ⟨howns | hwaits, hfirst⟩ | ⟨hrenewed, hlater⟩
    · refine .inl ⟨.inl ?_, hfirst⟩
      refine ⟨howns.owner, hsame.isLock_.trans howns.isLock_, hsame.hooked howns.hooked, ?_⟩
      rw [hsame.acceptor_, hsame.epoll_]
      exact howns.listening
    · refine .inl ⟨.inr ?_, hfirst⟩
      refine ⟨hwaits.owner, hsame.isLock_.trans hwaits.isLock_, hsame.hooked hwaits.hooked, ?_, ?_⟩
      · rw [hsame.acceptor_]
        exact hwaits.status
      · rw [hsame.acceptor_]
        exact hwaits.events
    · exact .inr ⟨⟨hrenewed.owner, hsame.unhooked hrenewed.unhooked, hidle hlater⟩, hlater⟩
  · rw [hsame.acceptor_]
    exact h.getSockfd

/-- With the hooks every iteration begins with a try. -/
theorem missed_loopHead_hooked [DecidableEq Pid] (h : Hooked t.loop_ t.acceptor_) (p : Pid)
    (m : ProcessMutexLock Pid) : (t.loopHead p m).2.missed = t.missed := by
  unfold loopHead
  split
  · exact if_pos (Or.inl h.beforeEachLoop)
  · rfl

/-- Without the hooks none does. -/
theorem missed_loopHead_unhooked [DecidableEq Pid] (h : Unhooked t.loop_)
    (howner : m.owner ≠ some p) (hrunning : t.loop_.running_ = true) :
    (t.loopHead p m).2.missed = t.missed + 1 ∧ (t.loopHead p m).2.point = .poll := by
  have htries : ¬ (t.loop_.beforeEachLoopFunction_ = some .lockAcceptor ∨ m.owner = some p) := by
    rw [h.beforeEachLoop]
    rintro (htries | hown)
    · cases htries
    · exact howner hown
  rw [loopHead, if_pos hrunning]
  exact ⟨if_neg htries, rfl⟩

/-! ### Back to the loop -/

theorem again_eq (t : TcpServer Pid) :
    ∃ running point,
      t.again = { t with loop_ := { t.loop_ with running_ := running }, point := point } := by
  unfold again
  split
  · exact ⟨_, _, rfl⟩
  · exact ⟨_, _, rfl⟩

theorem epoll_again (t : TcpServer Pid) : t.again.loop_.epoll_ = t.loop_.epoll_ := by
  obtain ⟨running, point, hagain⟩ := again_eq t
  rw [hagain]

theorem sameRecords_terminate (t : TcpServer Pid) :
    SameRecords t t.terminate ∧ t.terminate.listenActive = t.listenActive ∧
      t.terminate.missed = t.missed := by
  obtain ⟨pool, running, hterminate⟩ := terminate_eq t
  rw [hterminate]
  exact ⟨⟨rfl, rfl, ⟨_, rfl⟩, rfl⟩, rfl, rfl⟩

/-- Whoever calls `loop()` again stands in front of an iteration. -/
theorem idle_again (t : TcpServer Pid) : t.again.Idle := by
  unfold again
  split
  · exact .inl ⟨rfl, rfl⟩
  · exact .inr (.inl rfl)

/-- A process with a loop made anew. -/
theorem steady_renewed (hsockfd : t.acceptor_.getSockfd = sockfd) (hactive : t.listenActive = false)
    (hmissed : t.missed = 0) (howner : m.owner ≠ some p) (n : Nat) :
    Steady sockfd m p (.later n) t.renewed.again ∧
      sockfd ∉ t.renewed.again.loop_.epoll_.interest := by
  have hidle := idle_again t.renewed
  obtain ⟨running, point, hagain⟩ := again_eq t.renewed
  rw [hagain] at hidle ⊢
  refine ⟨⟨.inr ⟨⟨howner, ⟨rfl, rfl, rfl⟩, hidle⟩, rfl⟩, hsockfd, hactive, hmissed⟩, ?_⟩
  exact ExtTreeMap.not_mem_empty

theorem sees_of_interest {ep : Epoll} (h : t.loop_.epoll_.interest = ep.interest) :
    t.sees ep = t := by
  rw [sees, ← h]

/-- The others see at most another interest, and that only when they do
    not own the lock. -/
theorem Steady.sees (h : Steady sockfd m q fd t) (ep : Epoll)
    (howner : m'.owner = some q ↔ m.owner = some q)
    (hinterest : m.owner = some q → t.loop_.epoll_.interest = ep.interest) :
    Steady sockfd m' q fd (t.sees ep) := by
  refine ⟨?_, h.getSockfd, h.listenActive, h.missed⟩
  rcases h.role with ⟨howns | hwaits, hfirst⟩ | ⟨hrenewed, hlater⟩
  · rw [sees_of_interest (hinterest howns.owner)]
    exact .inl ⟨.inl ⟨howner.mpr howns.owner, howns.isLock_, howns.hooked, howns.listening⟩, hfirst⟩
  · refine .inl ⟨.inr ?_, hfirst⟩
    exact ⟨mt howner.mp hwaits.owner, hwaits.isLock_,
      ⟨hwaits.hooked.beforeEachLoop, hwaits.hooked.afterEachAccept, hwaits.hooked.listenSockfd⟩,
      hwaits.status, hwaits.events⟩
  · refine .inr ⟨⟨mt howner.mp hrenewed.owner, ?_, hrenewed.idle⟩, hlater⟩
    exact ⟨hrenewed.unhooked.beforeEachLoop, hrenewed.unhooked.afterEachAccept,
      hrenewed.unhooked.listenSockfd⟩

end TcpServer

/-- Most steps leave the records and the lock alone. -/
theorem ServerStep.sameRecords_effect [DecidableEq Pid] {l : ServerStep Pid} {sockfd : Int}
    {m : ProcessMutexLock Pid} {fd : EpollFd Pid} {t : TcpServer Pid}
    (h : t.Steady sockfd m l.actor fd) (hready : l.Ready t) (hhead : ∀ p, l ≠ .loopHead p)
    (haccepted : ∀ p, l ≠ .afterAccept p) (hafter : ∀ p fork, l ≠ .afterLoop p fork) :
    (l.effect m t).1 = m ∧ TcpServer.SameRecords t (l.effect m t).2 ∧
      (l.effect m t).2.listenActive = false ∧ (l.effect m t).2.missed = t.missed ∧
        (fd.anew = true → (l.effect m t).2.Idle) := by
  -- in the middle of an iteration the loop is the one of the constructor
  have hmiddle : t.point ≠ .loopHead → t.point ≠ .left → t.point ≠ .dead →
      TcpServer.Hooked t.loop_ t.acceptor_ ∧ ∀ u : TcpServer Pid, fd.anew = true → u.Idle := by
    intro hhead hleft hdead
    obtain ⟨hrole, hfirst⟩ := h.hooked_of_not_idle (TcpServer.not_idle hhead hleft hdead)
    refine ⟨hrole.elim (·.hooked) (·.hooked), fun u hlater => ?_⟩
    cases hfirst.symm.trans hlater
  cases l with
  | loopHead p => exact absurd rfl (hhead p)
  | afterAccept p => exact absurd rfl (haccepted p)
  | afterLoop p fork => exact absurd rfl (hafter p fork)
  | poll p listen =>
    have hpoint : t.point = .poll := hready.1
    rw [hpoint] at hmiddle
    obtain ⟨hhooked, hidle⟩ := hmiddle Point.noConfusion Point.noConfusion Point.noConfusion
    cases listen with
    | true =>
      have hlisten : t.poll true = { t with point := .accept, listenActive := false } := by
        rw [TcpServer.poll, if_pos ⟨rfl, hhooked.listenSockfd.symm⟩]
      simp only [effect, hlisten]
      exact ⟨trivial, ⟨rfl, rfl, ⟨_, rfl⟩, rfl⟩, trivial, trivial, hidle _⟩
    | false =>
      simp only [effect, TcpServer.poll_idle]
      exact ⟨trivial, ⟨rfl, rfl, ⟨_, rfl⟩, rfl⟩, trivial, trivial, hidle _⟩
  | accept p =>
    have hpoint : t.point = .accept := hready
    rw [hpoint] at hmiddle
    obtain ⟨-, hidle⟩ := hmiddle Point.noConfusion Point.noConfusion Point.noConfusion
    exact ⟨rfl, ⟨rfl, rfl, ⟨_, rfl⟩, rfl⟩, h.listenActive, rfl, hidle _⟩
  | check p =>
    have hpoint : t.point = .check := hready
    rw [hpoint] at hmiddle
    obtain ⟨-, hidle⟩ := hmiddle Point.noConfusion Point.noConfusion Point.noConfusion
    simp only [effect, TcpServer.check]
    split
    · exact ⟨trivial, ⟨rfl, rfl, ⟨false, rfl⟩, rfl⟩, h.listenActive, rfl, hidle _⟩
    · exact ⟨trivial, ⟨rfl, rfl, ⟨_, rfl⟩, rfl⟩, h.listenActive, rfl, hidle _⟩
  | handle p quit =>
    have hpoint : t.point = .handle := hready
    rw [hpoint] at hmiddle
    obtain ⟨-, hidle⟩ := hmiddle Point.noConfusion Point.noConfusion Point.noConfusion
    -- the listen channel is not among the others
    have hinactive : ¬ t.listenActive = true := by
      rw [h.listenActive]
      exact Bool.false_ne_true
    simp only [effect, TcpServer.handle, if_neg hinactive]
    exact ⟨trivial, ⟨rfl, rfl, ⟨_, rfl⟩, rfl⟩, trivial, trivial, hidle _⟩
  | signal p signo =>
    cases signo with
    | SIGINT | SIGTERM | SIGQUIT =>
      exact ⟨rfl, ⟨rfl, rfl, ⟨_, rfl⟩, rfl⟩, h.listenActive, rfl, h.idle_of_anew⟩
  | sigchld p q =>
    exact ⟨rfl, ⟨rfl, rfl, ⟨_, rfl⟩, rfl⟩, h.listenActive, rfl, h.idle_of_anew⟩
  | die p => exact ⟨rfl, ⟨rfl, rfl, ⟨_, rfl⟩, rfl⟩, h.listenActive, rfl, fun _ => .inr (.inr rfl)⟩

/-! ## All processes -/

namespace SharedServer

/-- **Invariant**: whoever has an epoll instance in common sees the same
    interest, and the listen socket is registered only where the owner of
    the lock has registered it. -/
structure Coherent (sockfd : Int) (s : SharedServer Pid) : Prop where
  steady : ∀ p t, s.server.process p = some t →
    t.Steady sockfd s.server.mutex p (s.epollfd_ p)
  owner : ∀ p, s.server.mutex.owner = some p → s.server.process p ≠ none
  alike : ∀ p q t u, s.server.process p = some t → s.server.process q = some u →
    s.epollfd_ p = s.epollfd_ q → t.loop_.epoll_.interest = u.loop_.epoll_.interest
  apart : ∀ p t, s.server.process p = some t → sockfd ∈ t.loop_.epoll_.interest →
    ∃ o, s.server.mutex.owner = some o ∧ s.epollfd_ o = s.epollfd_ p
  numbered : ∀ p n, s.epollfd_ p = .later n → n < s.renewals

theorem coherent_started (sockfd : Int) (pools : Pid → Option (ProcessPool Pid)) :
    (started sockfd pools).Coherent sockfd := by
  have hstarted : ∀ {p t}, (started sockfd pools).server.process p = some t →
      ∃ pool, t = TcpServer.started sockfd pool := by
    intro p t ht
    obtain ⟨pool, -, rfl⟩ := Option.map_eq_some_iff.mp ht
    exact ⟨pool, rfl⟩
  refine ⟨fun p t ht => ?_, fun p hp => ?_, fun p q t u ht hu hfd => ?_, fun p t ht hmem => ?_,
    fun p n hn => ?_⟩
  · obtain ⟨pool, rfl⟩ := hstarted ht
    refine ⟨.inl ⟨.inr ?_, rfl⟩, rfl, rfl, rfl⟩
    exact ⟨(Option.some_ne_none p).symm, rfl, ⟨rfl, rfl, rfl⟩, EpollStatus.noConfusion, rfl⟩
  · cases hp
  · obtain rfl := EpollFd.first.inj hfd
    rw [Option.some.inj (ht.symm.trans hu)]
  · obtain ⟨pool, rfl⟩ := hstarted ht
    exact absurd hmem ExtTreeMap.not_mem_empty
  · cases hn

variable [DecidableEq Pid] {sockfd : Int} {s : SharedServer Pid} {l : SharedStep Pid} {p q : Pid}
  {t t' : TcpServer Pid} {m : ProcessMutexLock Pid}

omit [DecidableEq Pid] in
theorem acceptAlike_of (h : s.Coherent sockfd) : s.server.AcceptAlike := by
  intro p t ht _ _
  have hsteady := h.steady p t ht
  exact ⟨hsteady.missed, fun howner => (hsteady.owns_of_owner howner).serves⟩

/-! ### Processes that come and go on -/

theorem process_put_cases {u : TcpServer Pid} (hu : (s.put p t).server.process q = some u) :
    (q = p ∧ u = t) ∨ (q ≠ p ∧ s.server.process q = some u) := by
  have hu : Function.update s.server.process p (some t) q = some u := hu
  by_cases hq : q = p
  · rw [hq, Function.update_self] at hu
    exact .inl ⟨hq, (Option.some.inj hu).symm⟩
  · rw [Function.update_of_ne hq] at hu
    exact .inr ⟨hq, hu⟩

/-- `p` sees what those see who share its instance. -/
theorem coherent_put (h : s.Coherent sockfd)
    (hsteady : t.Steady sockfd s.server.mutex p (s.epollfd_ p))
    (halike : ∀ q u, q ≠ p → s.server.process q = some u → s.epollfd_ q = s.epollfd_ p →
      u.loop_.epoll_.interest = t.loop_.epoll_.interest)
    (hapart : sockfd ∈ t.loop_.epoll_.interest →
      ∃ o, s.server.mutex.owner = some o ∧ s.epollfd_ o = s.epollfd_ p) :
    (s.put p t).Coherent sockfd := by
  refine ⟨fun q u hu => ?_, fun q hq => ?_, fun q r u v hu hv hfd => ?_, fun q u hu hmem => ?_,
    h.numbered⟩
  · rcases process_put_cases hu with ⟨rfl, rfl⟩ | ⟨-, hu⟩
    · exact hsteady
    · exact h.steady q u hu
  · show Function.update s.server.process p (some t) q ≠ none
    by_cases hqp : q = p
    · rw [hqp, Function.update_self]
      exact Option.some_ne_none t
    · rw [Function.update_of_ne hqp]
      exact h.owner q hq
  · rcases process_put_cases hu with ⟨rfl, rfl⟩ | ⟨hq, hqold⟩
    · rcases process_put_cases hv with ⟨rfl, rfl⟩ | ⟨hr, hrold⟩
      · rfl
      · exact (halike r v hr hrold hfd.symm).symm
    · rcases process_put_cases hv with ⟨rfl, rfl⟩ | ⟨hr, hrold⟩
      · exact halike q u hq hqold hfd
      · exact h.alike q r u v hqold hrold hfd
  · rcases process_put_cases hu with ⟨rfl, rfl⟩ | ⟨-, hu⟩
    · exact hapart hmem
    · exact h.apart q u hu hmem

omit [DecidableEq Pid] in
/-- The new instance is nobody's yet. -/
theorem epollfd_ne (h : s.Coherent sockfd) (q : Pid) : s.epollfd_ q ≠ .later s.renewals :=
  fun hq => absurd (h.numbered q s.renewals hq) (Nat.lt_irrefl _)

/-- A process that makes its loop anew, and does not own the lock. -/
theorem coherent_opens_put (h : s.Coherent sockfd)
    (hsteady : t.Steady sockfd s.server.mutex p (.later s.renewals))
    (howner : s.server.mutex.owner ≠ some p) (hempty : sockfd ∉ t.loop_.epoll_.interest) :
    ((s.opens p).put p t).Coherent sockfd := by
  have hother : ∀ {q}, q ≠ p → (s.opens p).epollfd_ q = s.epollfd_ q := fun hq =>
    Function.update_of_ne hq ..
  have hself : (s.opens p).epollfd_ p = .later s.renewals := Function.update_self ..
  have hfresh : ∀ {q}, q ≠ p → (s.opens p).epollfd_ q ≠ (s.opens p).epollfd_ p := by
    intro q hq hfd
    rw [hother hq, hself] at hfd
    exact epollfd_ne h q hfd
  refine ⟨fun q u hu => ?_, fun q hq => ?_, fun q r u v hu hv hfd => ?_, fun q u hu hmem => ?_,
    fun q n hn => ?_⟩
  · rcases process_put_cases hu with ⟨rfl, rfl⟩ | ⟨hq, hu⟩
    · show u.Steady sockfd s.server.mutex q ((s.opens q).epollfd_ q)
      rw [hself]
      exact hsteady
    · show u.Steady sockfd s.server.mutex q ((s.opens p).epollfd_ q)
      rw [hother hq]
      exact h.steady q u hu
  · show Function.update s.server.process p (some t) q ≠ none
    have hqp : q ≠ p := by
      rintro rfl
      exact howner hq
    rw [Function.update_of_ne hqp]
    exact h.owner q hq
  · rcases process_put_cases hu with ⟨rfl, rfl⟩ | ⟨hq, hqold⟩
    · rcases process_put_cases hv with ⟨rfl, rfl⟩ | ⟨hr, hrold⟩
      · rfl
      · exact absurd hfd.symm (hfresh hr)
    · rcases process_put_cases hv with ⟨rfl, rfl⟩ | ⟨hr, hrold⟩
      · exact absurd hfd (hfresh hq)
      · apply h.alike q r u v hqold hrold
        rw [← hother hq, ← hother hr]
        exact hfd
  · rcases process_put_cases hu with ⟨rfl, rfl⟩ | ⟨hq, hu⟩
    · exact absurd hmem hempty
    · obtain ⟨o, ho, hfd⟩ := h.apart q u hu hmem
      refine ⟨o, ho, ?_⟩
      have hop : o ≠ p := by
        rintro rfl
        exact howner ho
      show (s.opens p).epollfd_ o = (s.opens p).epollfd_ q
      rw [hother hop, hother hq]
      exact hfd
  · show n < s.renewals + 1
    have hn : (s.opens p).epollfd_ q = .later n := hn
    by_cases hq : q = p
    · rw [hq, hself] at hn
      cases hn
      exact Nat.lt_succ_self _
    · rw [hother hq] at hn
      exact Nat.lt_succ_of_lt (h.numbered q n hn)

/-- A new child holds the instance of its parent. -/
theorem coherent_shares (h : s.Coherent sockfd) (hnone : s.server.process q = none) :
    (s.shares q p).Coherent sockfd := by
  have hother : ∀ {r}, s.server.process r ≠ none → (s.shares q p).epollfd_ r = s.epollfd_ r := by
    intro r hr
    have hrq : r ≠ q := by
      rintro rfl
      exact hr hnone
    exact Function.update_of_ne hrq ..
  have hsome : ∀ {r u}, s.server.process r = some u → s.server.process r ≠ none := by
    intro r u hu
    rw [hu]
    exact Option.some_ne_none u
  refine ⟨fun r u hu => ?_, h.owner, fun r k u v hu hv hfd => ?_, fun r u hu hmem => ?_,
    fun r n hn => ?_⟩
  · rw [hother (hsome hu)]
    exact h.steady r u hu
  · rw [hother (hsome hu), hother (hsome hv)] at hfd
    exact h.alike r k u v hu hv hfd
  · obtain ⟨o, ho, hfd⟩ := h.apart r u hu hmem
    refine ⟨o, ho, ?_⟩
    rw [hother (h.owner o ho), hother (hsome hu)]
    exact hfd
  · have hn : Function.update s.epollfd_ q (s.epollfd_ p) r = .later n := hn
    rw [Function.update_apply] at hn
    split at hn
    · exact h.numbered p n hn
    · exact h.numbered r n hn

/-! ### Steps inside the loop -/

theorem process_moves_cases {u : TcpServer Pid} (hu : (s.moves p m t).server.process q = some u) :
    (q = p ∧ u = t) ∨
      (q ≠ p ∧ ∃ v, s.server.process q = some v ∧
        (s.epollfd_ q = s.epollfd_ p ∧ u = v.sees t.loop_.epoll_ ∨
          s.epollfd_ q ≠ s.epollfd_ p ∧ u = v)) := by
  simp only [moves] at hu
  split at hu
  · next hq => exact .inl ⟨hq, (Option.some.inj hu).symm⟩
  · next hq =>
    refine .inr ⟨hq, ?_⟩
    split at hu
    · next hfd =>
      obtain ⟨v, hv, rfl⟩ := Option.map_eq_some_iff.mp hu
      exact ⟨v, hv, .inl ⟨hfd, rfl⟩⟩
    · next hfd => exact ⟨u, hu, .inr ⟨hfd, rfl⟩⟩

/-- What the actor may do to the lock and to its epoll instance. -/
theorem coherent_moves (h : s.Coherent sockfd) (ht : s.server.process p = some t)
    (hsteady : t'.Steady sockfd m p (s.epollfd_ p))
    (hothers : TcpServer.OthersKeep p s.server.mutex m)
    (hinterest : t'.loop_.epoll_.interest = t.loop_.epoll_.interest ∨
      ∀ q, q ≠ p → s.server.mutex.owner ≠ some q)
    (hmem : sockfd ∈ t'.loop_.epoll_.interest →
      ∃ o, m.owner = some o ∧ s.epollfd_ o = s.epollfd_ p) :
    (s.moves p m t').Coherent sockfd := by
  have hsees : ∀ {q u}, (s.moves p m t').server.process q = some u →
      s.epollfd_ q = s.epollfd_ p → u.loop_.epoll_.interest = t'.loop_.epoll_.interest := by
    intro q u hu hfd
    rcases process_moves_cases hu with ⟨-, rfl⟩ | ⟨-, v, -, ⟨-, rfl⟩ | ⟨hne, -⟩⟩
    · rfl
    · rfl
    · exact absurd hfd hne
  refine ⟨fun q u hu => ?_, fun q hq => ?_, fun q r u v hu hv hfd => ?_, fun q u hu hin => ?_,
    h.numbered⟩
  · rcases process_moves_cases hu with ⟨rfl, rfl⟩ | ⟨hq, v, hv, ⟨hfd, rfl⟩ | ⟨hne, rfl⟩⟩
    · exact hsteady
    · apply (h.steady q v hv).sees _ (hothers q hq)
      -- an owner of the lock sees what it saw
      intro howner
      rcases hinterest with hsame | hnobody
      · rw [hsame]
        exact h.alike q p v t hv ht hfd
      · exact absurd howner (hnobody q hq)
    · have hsteady' := (h.steady q u hv).sees u.loop_.epoll_ (hothers q hq) fun _ => rfl
      exact hsteady'
  · show (if q = p then some t' else _) ≠ none
    split
    · exact Option.some_ne_none t'
    · next hqp =>
      have hq := h.owner q ((hothers q hqp).mp hq)
      split
      · rw [Option.map_eq_none_iff.ne]
        exact hq
      · exact hq
  · have hfd : s.epollfd_ q = s.epollfd_ r := hfd
    by_cases hqp : s.epollfd_ q = s.epollfd_ p
    · exact (hsees hu hqp).trans (hsees hv (hfd.symm.trans hqp)).symm
    · -- neither has the instance of the actor
      have hrp : s.epollfd_ r ≠ s.epollfd_ p := fun hr => hqp (hfd.trans hr)
      have hold : ∀ {k w}, (s.moves p m t').server.process k = some w →
          s.epollfd_ k ≠ s.epollfd_ p → s.server.process k = some w := by
        intro k w hw hk
        rcases process_moves_cases hw with ⟨rfl, -⟩ | ⟨-, w', hw', ⟨hfd', -⟩ | ⟨-, rfl⟩⟩
        · exact absurd rfl hk
        · exact absurd hfd' hk
        · exact hw'
      exact h.alike q r u v (hold hu hqp) (hold hv hrp) hfd
  · by_cases hfd : s.epollfd_ q = s.epollfd_ p
    · rw [hsees hu hfd] at hin
      obtain ⟨o, ho, hop⟩ := hmem hin
      exact ⟨o, ho, hop.trans hfd.symm⟩
    · rcases process_moves_cases hu with ⟨rfl, -⟩ | ⟨-, v, hv, ⟨hfd', -⟩ | ⟨-, rfl⟩⟩
      · exact absurd rfl hfd
      · exact absurd hfd' hfd
      · -- the owner has another instance than the actor, so it still is one
        obtain ⟨o, ho, hoq⟩ := h.apart q u hv hin
        have hop : o ≠ p := by
          rintro rfl
          exact hfd hoq.symm
        exact ⟨o, (hothers o hop).mpr ho, hoq⟩

/-- A step that changes neither the lock nor what is registered. -/
theorem coherent_moves_same (h : s.Coherent sockfd) (ht : s.server.process p = some t)
    (hsame : TcpServer.SameRecords t t') (hactive : t'.listenActive = false)
    (hmissed : t'.missed = t.missed) (hidle : (s.epollfd_ p).anew = true → t'.Idle) :
    (s.moves p s.server.mutex t').Coherent sockfd := by
  have hsteady := (h.steady p t ht).frame hsame hactive hmissed hidle
  apply coherent_moves h ht hsteady (TcpServer.OthersKeep.refl p _)
  · left
    rw [hsame.epoll_]
  · rw [hsame.epoll_]
    exact h.apart p t ht

/-- The head of the loop: who waits may get the lock, and registers the
    listen socket in its instance, where nobody had it registered. -/
theorem coherent_loopHead (h : s.Coherent sockfd) (ht : s.server.process p = some t)
    (hpoint : t.point = .loopHead)
    (hbegins : t.loop_.running_ = true → (s.epollfd_ p).anew = false) :
    (s.moves p (t.loopHead p s.server.mutex).1 (t.loopHead p s.server.mutex).2).Coherent
      sockfd := by
  have hsteady := h.steady p t ht
  by_cases hrunning : t.loop_.running_ = true
  · have hrole : TcpServer.Owns s.server.mutex p t ∨ TcpServer.Waits s.server.mutex p t := by
      rcases hsteady.role with ⟨hrole, -⟩ | ⟨-, hlater⟩
      · exact hrole
      · exact absurd ((hbegins hrunning).symm.trans hlater) Bool.false_ne_true
    have hhooked : TcpServer.Hooked t.loop_ t.acceptor_ := hrole.elim (·.hooked) (·.hooked)
    have hmissed := TcpServer.missed_loopHead_hooked hhooked p s.server.mutex
    have hfirst : ¬ (s.epollfd_ p).anew = true := by
      rw [hbegins hrunning]
      exact Bool.false_ne_true
    unfold TcpServer.loopHead at hmissed ⊢
    rw [if_pos hrunning] at hmissed ⊢
    dsimp only at hmissed ⊢
    rw [hhooked.beforeEachLoop] at hmissed ⊢
    rcases TcpServer.lockAcceptor_cases p s.server.mutex t with ⟨hfree, hcall⟩ | ⟨-, hcall⟩
    · simp only [TcpServer.call, hcall] at hmissed ⊢
      have hnotMem : sockfd ∉ t.loop_.epoll_.interest := by
        intro hmem
        obtain ⟨o, ho, -⟩ := h.apart p t ht hmem
        cases hfree.symm.trans ho
      have hwaits : TcpServer.Waits s.server.mutex p t := by
        refine hrole.resolve_left fun howns => ?_
        cases hfree.symm.trans howns.owner
      have hlacks := hwaits.lacks
        (ExtTreeMap.getElem?_eq_none (hsteady.getSockfd.symm ▸ hnotMem))
      obtain ⟨howns, hsockfd⟩ := TcpServer.owns_listenInEpoll hlacks
      apply coherent_moves h ht
      · refine ⟨.inl ⟨.inl ?_, hbegins hrunning⟩, hsockfd.trans hsteady.getSockfd,
          hsteady.listenActive, hmissed.trans hsteady.missed⟩
        exact ⟨rfl, rfl, howns.hooked, howns.listening⟩
      · exact TcpServer.othersKeep_of (.inl hfree) (.inr rfl)
      · right
        intro q _ howner
        cases hfree.symm.trans howner
      · exact fun _ => ⟨p, rfl, rfl⟩
    · simp only [TcpServer.call, hcall] at hmissed ⊢
      exact coherent_moves_same h ht ⟨rfl, rfl, ⟨_, rfl⟩, rfl⟩ hsteady.listenActive hmissed
        fun hlater => absurd hlater hfirst
  · -- out of the loop; a loop made anew is running
    have hout : t.loopHead p s.server.mutex = (s.server.mutex, { t with point := .afterLoop }) := by
      rw [TcpServer.loopHead, if_neg hrunning]
    rw [hout]
    refine coherent_moves_same h ht ⟨rfl, rfl, ⟨_, rfl⟩, rfl⟩ hsteady.listenActive rfl ?_
    intro hlater
    rcases hsteady.role with ⟨-, hfirst⟩ | ⟨hrenewed, -⟩
    · cases hfirst.symm.trans hlater
    · rcases hrenewed.idle with ⟨-, hrun⟩ | hleft | hdead
      · exact absurd hrun hrunning
      · cases hpoint.symm.trans hleft
      · cases hpoint.symm.trans hdead

/-- Behind an accept: the owner gives the lock back, and takes the listen
    socket out of its instance. -/
theorem coherent_afterAccept (h : s.Coherent sockfd) (ht : s.server.process p = some t)
    (hpoint : t.point = .accepted) :
    (s.moves p (t.afterAccept p s.server.mutex).1 (t.afterAccept p s.server.mutex).2).Coherent
      sockfd := by
  have hsteady := h.steady p t ht
  have hidle : ¬ t.Idle := by
    apply TcpServer.not_idle
    all_goals
      rw [hpoint]
      exact Point.noConfusion
  obtain ⟨howns | hwaits, hfirst⟩ := hsteady.hooked_of_not_idle hidle
  · obtain ⟨hlacks, hsockfd⟩ := TcpServer.lacks_unlistenInEpoll howns
    rw [TcpServer.afterAccept_owns howns]
    apply coherent_moves h ht
    · refine ⟨.inl ⟨.inr ?_, hfirst⟩, hsockfd.trans hsteady.getSockfd, hsteady.listenActive,
        hsteady.missed⟩
      exact ⟨hlacks.owner, rfl, hlacks.hooked, hlacks.silent.status, hlacks.silent.events⟩
    · exact TcpServer.othersKeep_of (.inr howns.owner) (.inl rfl)
    · right
      intro q hq howner
      exact hq (Option.some.inj (howner.symm.trans howns.owner))
    · -- nobody has it registered now
      intro hmem
      have hnone := hlacks.silent.interest
      rw [← hsteady.getSockfd, ← hsockfd] at hmem
      exact absurd hmem (notMem_of_getElem?_eq_none hnone)
  · have hcall : t.afterAccept p s.server.mutex = (s.server.mutex, { t with point := .check }) := by
      unfold TcpServer.afterAccept
      rw [hwaits.hooked.afterEachAccept]
      simp only [TcpServer.call, TcpServer.unlockAcceptor, hwaits.isLock_,
        if_neg Bool.false_ne_true]
    rw [hcall]
    refine coherent_moves_same h ht ⟨rfl, rfl, ⟨_, rfl⟩, rfl⟩ hsteady.listenActive rfl ?_
    intro hlater
    cases hfirst.symm.trans hlater

/-! ### Behind the loop -/

/-- The parent, or who has not called, goes on. -/
theorem coherent_goesOn (h : s.Coherent sockfd) (ht : s.server.process p = some t)
    (hfirst : (s.epollfd_ p).anew = false) (hsame : TcpServer.SameRecords t t')
    (hactive : t'.listenActive = false) (hmissed : t'.missed = t.missed) :
    (s.put p t'.again).Coherent sockfd := by
  have hsteady := (h.steady p t ht).frame hsame hactive hmissed
    fun hlater => absurd (hfirst.symm.trans hlater) Bool.false_ne_true
  obtain ⟨running, point, hagain⟩ := TcpServer.again_eq t'
  rw [hagain]
  apply coherent_put h
  · exact hsteady.frame ⟨rfl, rfl, ⟨_, rfl⟩, rfl⟩ hactive rfl
      fun hlater => absurd (hfirst.symm.trans hlater) Bool.false_ne_true
  · intro q u _ hu hfd
    rw [hsame.epoll_]
    exact h.alike q p u t hu ht hfd
  · rw [hsame.epoll_]
    exact h.apart p t ht

/-- A child that keeps the loop of `t`, which does not own the lock.  The
    parent has gone on as `t'`. -/
theorem coherent_shares_put (h : s.Coherent sockfd) (ht' : s.server.process p = some t')
    (hinterest : t'.loop_.epoll_.interest = t.loop_.epoll_.interest)
    (hnone : s.server.process q = none)
    (hsteady : t.Steady sockfd s.server.mutex p (s.epollfd_ p))
    (hfirst : (s.epollfd_ p).anew = false) (howner : s.server.mutex.owner ≠ some p) :
    ((s.shares q p).put q t.forked.again).Coherent sockfd := by
  have hqp : q ≠ p := by
    rintro rfl
    cases hnone.symm.trans ht'
  have hs := coherent_shares (p := p) h hnone
  have hq : (s.shares q p).epollfd_ q = s.epollfd_ p := Function.update_self ..
  have hp : (s.shares q p).epollfd_ p = s.epollfd_ p := Function.update_of_ne hqp.symm ..
  have hwaits := hsteady.waits hfirst howner
  obtain ⟨running, point, hagain⟩ := TcpServer.again_eq t.forked
  rw [hagain]
  apply coherent_put hs
  · rw [hq]
    refine ⟨.inl ⟨.inr ?_, hfirst⟩, hsteady.getSockfd, hsteady.listenActive, rfl⟩
    refine ⟨fun hown => h.owner q hown hnone, hwaits.isLock_, ?_, hwaits.status, hwaits.events⟩
    exact ⟨hwaits.hooked.beforeEachLoop, hwaits.hooked.afterEachAccept,
      hwaits.hooked.listenSockfd⟩
  · -- the child sees what its parent sees
    intro r u _ hu hfd
    exact (hs.alike r p u t' hu ht' (hfd.trans (hq.trans hp.symm))).trans hinterest
  · intro hmem
    obtain ⟨o, ho, hop⟩ := hs.apart p t' ht' (hinterest.symm ▸ hmem)
    exact ⟨o, ho, hop.trans (hp.trans hq.symm)⟩

/-- Out of the loop, and back to it. -/
theorem coherent_start (h : s.Coherent sockfd) (ht : s.server.process p = some t)
    (hpoint : t.point = .afterLoop) {fork : Option Pid} {value : Int}
    (hnew : ∀ q ∈ fork, (s.server.process q).isNone)
    (hreads : t.Misreads fork value → s.server.mutex.owner ≠ some p) :
    (s.start p fork value t).Coherent sockfd := by
  have hidle : ¬ t.Idle := by
    apply TcpServer.not_idle
    all_goals
      rw [hpoint]
      exact Point.noConfusion
  obtain ⟨-, hfirst⟩ := (h.steady p t ht).hooked_of_not_idle hidle
  obtain ⟨hsame, hactive, hmissed⟩ := TcpServer.sameRecords_terminate t
  have hactive := hactive.trans (h.steady p t ht).listenActive
  have hsteady : t.terminate.Steady sockfd s.server.mutex p (s.epollfd_ p) :=
    (h.steady p t ht).frame hsame hactive hmissed
      fun hlater => absurd (hfirst.symm.trans hlater) Bool.false_ne_true
  -- the parent keeps its records
  have hparent : ∀ fork, (s.put p (t.terminate.parent fork).again).Coherent sockfd := fun fork =>
    coherent_goesOn h ht hfirst ⟨hsame.isLock_, hsame.acceptor_, hsame.loop_, hsame.created⟩
      hactive hmissed
  unfold TcpServer.Misreads at hreads
  unfold start
  rcases TcpServer.called_cases fork t with
    hcalled | ⟨q, rfl, hcalled⟩ | ⟨rfl, hcalled⟩ | hcalled
  · rw [hcalled]
    exact coherent_goesOn h ht hfirst hsame hactive hmissed
  · rw [hcalled] at hreads ⊢
    have hnone := Option.isNone_iff_eq_none.mp (hnew q rfl)
    have hqowner : s.server.mutex.owner ≠ some q := fun howner => h.owner q howner hnone
    by_cases hzero : value = 0
    · -- the child makes its loop anew
      simp only [if_pos hzero]
      obtain ⟨hchild, hempty⟩ := TcpServer.steady_renewed (t := t.terminate.forked)
        hsteady.getSockfd hactive rfl hqowner s.renewals
      exact coherent_opens_put (hparent (some q)) hchild hqowner hempty
    · -- the child keeps the loop of its parent, which does not have the lock
      simp only [if_neg hzero]
      have hqp : q ≠ p := by
        rintro rfl
        cases hnone.symm.trans ht
      refine coherent_shares_put (hparent (some q)) (Function.update_self ..) ?_ ?_ hsteady hfirst
        (hreads hzero)
      · rw [TcpServer.epoll_again]
        rfl
      · exact (Function.update_of_ne hqp ..).trans hnone
  · rw [hcalled]
    exact hparent none
  · rw [hcalled] at hreads ⊢
    by_cases hzero : value = 0
    · -- the process makes its own loop anew
      simp only [if_pos hzero]
      obtain ⟨hrenewed, hempty⟩ := TcpServer.steady_renewed (t := t.terminate.parent fork)
        hsteady.getSockfd hactive hsteady.missed (hreads hzero) s.renewals
      exact coherent_opens_put h hrenewed (hreads hzero) hempty
    · simp only [if_neg hzero]
      exact hparent fork

/-- **Step**: one that meets both conditions keeps the invariant. -/
theorem coherent_next (h : s.Coherent sockfd) (hguard : s.guard l) (hbegins : s.NoneBegins l)
    (hreads : s.OwnersRead l) : (s.next l).Coherent sockfd := by
  obtain ⟨t, ht, hready⟩ := hguard.1
  have hallowed := hguard.2
  obtain ⟨step, value⟩ := l
  have hsteady := h.steady _ t ht
  cases step with
  | loopHead p =>
    rw [next_moves ht (by simp)]
    exact coherent_loopHead h ht hready (hbegins t ht)
  | afterAccept p =>
    rw [next_moves ht (by simp)]
    exact coherent_afterAccept h ht hready
  | afterLoop p fork =>
    have ht : s.server.process p = some t := ht
    rw [next_afterLoop ht]
    exact coherent_start h ht hready hallowed (hreads t ht)
  | poll | accept | check | handle | signal | sigchld | die =>
    rw [next_moves ht (by simp)]
    obtain ⟨hmutex, hsame, hactive, hmissed, hidle⟩ :=
      ServerStep.sameRecords_effect hsteady hready (by simp) (by simp) (by simp)
    rw [hmutex]
    exact coherent_moves_same h ht hsame hactive hmissed hidle

theorem missed_next (h : s.Coherent sockfd) (hguard : s.guard l) (hbegins : ¬ s.NoneBegins l) :
    ¬ (s.next l).server.AcceptAlike := by
  obtain ⟨t, ht, hready⟩ := hguard.1
  obtain ⟨step, value⟩ := l
  cases step with
  | loopHead p =>
    have ht : s.server.process p = some t := ht
    have hlater : t.loop_.running_ = true ∧ (s.epollfd_ p).anew = true := by
      by_contra hne
      refine hbegins fun t' ht' hrunning => ?_
      cases ht.symm.trans ht'
      rw [Bool.eq_false_iff]
      exact fun hanew => hne ⟨hrunning, hanew⟩
    rcases (h.steady p t ht).role with ⟨-, hfirst⟩ | ⟨hrenewed, -⟩
    · cases hfirst.symm.trans hlater.2
    · obtain ⟨hmissed, hpoint⟩ := TcpServer.missed_loopHead_unhooked hrenewed.unhooked
        hrenewed.owner hlater.1
      intro halike
      have hself : (s.next ⟨.loopHead p, value⟩).server.process p =
          some (t.loopHead p s.server.mutex).2 := by
        rw [next_moves ht (by simp)]
        exact if_pos rfl
      have hzero := (halike p _ hself (fun hleft => Point.noConfusion (hpoint.symm.trans hleft))
        (fun hdead => Point.noConfusion (hpoint.symm.trans hdead))).1
      exact absurd (hmissed.symm.trans hzero) (Nat.succ_ne_zero _)
  | poll | accept | afterAccept | check | handle | afterLoop | signal | sigchld | die =>
    exact absurd trivial hbegins

/-! ## Runs -/

/-- **Exact condition**: over runs in which no owner of the lock has a copy
    of its loop made, or loses it, the property is lost with the first
    iteration on a loop made anew, and not before. -/
theorem acceptAlike_iff_noneBegins (sockfd : Int) (pools : Pid → Option (ProcessPool Pid))
    (steps : List (SharedStep Pid)) (hvalid : shared.Valid (started sockfd pools) steps)
    (hreads : shared.Along OwnersRead (started sockfd pools) steps) :
    (∀ pre, pre <+: steps → (shared.run (started sockfd pools) pre).server.AcceptAlike) ↔
      shared.Along NoneBegins (started sockfd pools) steps := by
  apply shared.always_iff_along
    (fun s steps => s.Coherent sockfd ∧ shared.Valid s steps ∧ shared.Along OwnersRead s steps)
    (fun s => s.server.AcceptAlike)
  · rintro s steps ⟨hcoherent, -⟩
    exact acceptAlike_of hcoherent
  · rintro s l steps ⟨hcoherent, ⟨hguard, hrest⟩, hread, hreads⟩ hbegins
    exact ⟨coherent_next hcoherent hguard hbegins hread, hrest, hreads⟩
  · rintro s l steps ⟨hcoherent, ⟨hguard, -⟩, -⟩ hbegins
    exact missed_next hcoherent hguard hbegins
  · exact ⟨coherent_started sockfd pools, hvalid, hreads⟩

/-- **Replacement workers**: over any deaths and replacements, and whatever
    `createNewChildProcess` leaves when it falls off its end, every live
    process tries for the lock and serves the listen socket, as long as
    nobody begins an iteration on a loop made anew, and no owner of the
    lock has a child that keeps its loop or loses its own. -/
theorem acceptAlike_run (sockfd : Int) (pools : Pid → Option (ProcessPool Pid))
    (steps : List (SharedStep Pid)) (hvalid : shared.Valid (started sockfd pools) steps)
    (hcond : shared.Along (fun s l => s.NoneBegins l ∧ s.OwnersRead l) (started sockfd pools)
      steps) :
    ∀ pre, pre <+: steps → (shared.run (started sockfd pools) pre).server.AcceptAlike := by
  obtain ⟨hbegins, hreads⟩ := (shared.along_and _ _).mp hcond
  exact (acceptAlike_iff_noneBegins sockfd pools steps hvalid hreads).mpr hbegins

/-- A parent with one worker, which is process 1. -/
def oneWorker : Fin 3 → Option (ProcessPool (Fin 3)) :=
  ![some ⟨1, [1]⟩, some ⟨1, []⟩, none]

/-- The steps with one value for all calls. -/
def reading (value : Int) (steps : List (ServerStep (Fin 3))) : List (SharedStep (Fin 3)) :=
  steps.map fun step => ⟨step, value⟩

/-- The worker dies, and the parent makes another when it has given the
    lock back.  The new worker keeps the loop, takes the lock and accepts. -/
theorem acceptAlike_replaced :
    let steps := reading 1 [.die 1, .sigchld 0 1, .loopHead 0, .poll 0 true, .accept 0,
      .afterAccept 0, .check 0, .handle 0 false, .loopHead 0, .afterLoop 0 (some 2), .loopHead 2,
      .loopHead 0, .poll 2 true, .accept 2, .afterAccept 2]
    ∀ pre, pre <+: steps → (shared.run (started 5 oneWorker) pre).server.AcceptAlike :=
  acceptAlike_run 5 oneWorker _ (by decide +kernel) (by decide +kernel)

/-- The parent makes the new worker while it owns the lock, accepts, and
    gives the lock back.  With 0 the new worker does not try for it; with
    another value it gets it, and modifies a registration that is gone. -/
theorem not_acceptAlike_replaced :
    let steps : List (ServerStep (Fin 3)) := [.loopHead 0, .die 1, .sigchld 0 1, .poll 0 false,
      .check 0, .handle 0 false, .loopHead 0, .afterLoop 0 (some 2), .loopHead 0, .poll 0 true,
      .accept 0, .afterAccept 0, .loopHead 2]
    (shared.Valid (started 5 oneWorker) (reading 0 steps) ∧
      ¬ (shared.run (started 5 oneWorker) (reading 0 steps)).server.AcceptAlike) ∧
    (shared.Valid (started 5 oneWorker) (reading 1 steps) ∧
      ¬ (shared.run (started 5 oneWorker) (reading 1 steps)).server.AcceptAlike) := by
  decide +kernel

end SharedServer

end Process

end TinyWS
