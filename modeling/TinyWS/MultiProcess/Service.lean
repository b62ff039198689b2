import TinyWS.MultiProcess.KillAll
import TinyWS.MultiProcess.SharedEpoll

/-! # Who Can Still Accept

    A connection is accepted by a process that has come to the head of its
    loop with the lock free, or its own.  A process comes there again
    unless it was told to stop; one that was told may have one more try, if
    the signal found it behind the test of the flags.

    The lock passes from one process to another only behind an accept.  So
    the service ends for good when the lock's owner is gone or on its way
    out, whatever the other workers do, and when no worker is left that
    tries.

    All this is up to the point where `createNewChildProcess` first falls
    off its end: from there on the runs depend on what it leaves. -/

namespace TinyWS

open Std

namespace Process

variable {Pid : Type}

/-! ## The specification -/

/-- The process comes to the head of its loop again, to call the hook. -/
def TcpServer.Tries (t : TcpServer Pid) : Prop :=
  match t.point with
  | .loopHead => t.loop_.running_ = true ∨ t.toldToStop = false
  | .handle => t.loop_.running_ = true ∧ t.status_child_quit = false ∨ t.toldToStop = false
  | .poll | .accept | .accepted | .check | .afterLoop => t.toldToStop = false
  | .left | .dead => False

instance (t : TcpServer Pid) : Decidable t.Tries := by
  unfold TcpServer.Tries
  cases t.point <;> infer_instance

/-- Who tries with more flags set tries without them. -/
theorem TcpServer.Tries.mono {t u : TcpServer Pid} (h : u.Tries) (hpoint : u.point = t.point)
    (hloop : u.loop_ = t.loop_)
    (hquit : t.status_child_quit = true → u.status_child_quit = true)
    (htold : u.toldToStop = false → t.toldToStop = false) : t.Tries := by
  unfold TcpServer.Tries at h ⊢
  rw [hpoint, hloop] at h
  revert h
  cases t.point with
  | loopHead => exact Or.imp_right htold
  | handle =>
    have hunset : u.status_child_quit = false → t.status_child_quit = false := by
      intro hu
      rw [Bool.eq_false_iff] at hu ⊢
      exact mt hquit hu
    exact Or.imp (And.imp_right hunset) htold
  | poll | accept | accepted | check | afterLoop => exact htold
  | left | dead => exact id

namespace Server

/-- Some process is about to accept a connection. -/
def Accepting (s : Server Pid) : Prop := ∃ p, ∃ t ∈ s.process p, t.point = .accept

/-- `p` can get the lock: it is free, its own, or about to be given back. -/
def Obtainable (s : Server Pid) (p : Pid) : Prop :=
  s.mutex.owner = none ∨ s.mutex.owner = some p ∨
    ∃ q ∈ s.mutex.owner, ∃ u ∈ s.process q, u.point = .accepted

/-- `p` accepts, is in the poll with the lock, or tries for a lock that it
    can get. -/
def Serves (s : Server Pid) (p : Pid) : Prop :=
  ∃ t ∈ s.process p, t.point = .accept ∨ t.point = .poll ∧ s.mutex.owner = some p ∨
    t.Tries ∧ s.Obtainable p

/-- In this step `createNewChildProcess` is not called, or its `fork` fails
    and it returns -1. -/
def Returns (s : Server Pid) : ServerStep Pid → Prop
  | .afterLoop p fork => ∀ t ∈ s.process p, t.called fork = .not ∨ t.called fork = .failed
  | _ => True

instance [DecidableEq Pid] (s : Server Pid) : DecidablePred s.Returns
  | .afterLoop p fork =>
      inferInstanceAs (Decidable (∀ t ∈ s.process p, t.called fork = .not ∨ t.called fork = .failed))
  | .loopHead _ | .poll _ _ | .accept _ | .afterAccept _ | .check _ | .handle _ _ | .signal _ _
  | .sigchld _ _ | .die _ => isTrue trivial

instance [DecidableEq Pid] (s : Server Pid) (p : Pid) : Decidable (s.Obtainable p) :=
  inferInstanceAs (Decidable (_ ∨ _ ∨ _))

instance [DecidableEq Pid] (s : Server Pid) (p : Pid) : Decidable (s.Serves p) :=
  inferInstanceAs (Decidable (∃ t ∈ s.process p, _))

end Server

/-- The runs of `server` in which `createNewChildProcess` never falls off
    its end. -/
def unreplaced [DecidableEq Pid] : Machine (Server Pid) (ServerStep Pid) where
  guard s l := s.guard l ∧ s.Returns l
  next := Server.next

instance [DecidableEq Pid] (s : Server Pid) (l : ServerStep Pid) :
    Decidable (unreplaced.guard s l) := inferInstanceAs (Decidable (s.guard l ∧ s.Returns l))

/-! ## What a step does to its actor -/

namespace ServerStep

variable [DecidableEq Pid] {sockfd : Int} {m : ProcessMutexLock Pid} {t : TcpServer Pid}
  {l : ServerStep Pid}

/-- Replacements stay replacements, and the others what they are. -/
theorem created_effect (m : ProcessMutexLock Pid) (t : TcpServer Pid) (l : ServerStep Pid) :
    (l.effect m t).2.created = t.created := by
  cases l with
  | afterLoop p fork =>
    obtain ⟨pool, running, hterminate⟩ := TcpServer.terminate_eq t
    simp only [effect, TcpServer.afterLoop, hterminate]
    split
    · exact (TcpServer.sameCourse_again _).created
    · exact (TcpServer.sameCourse_again _).created
  | sigchld p q => rfl
  | loopHead | poll | accept | afterAccept | check | handle | signal | die =>
    exact (sameCourse_effect m t (by simp) (by simp)).created

/-- Nobody is told to go on. -/
theorem toldToStop_effect (m : ProcessMutexLock Pid) (l : ServerStep Pid)
    (h : (l.effect m t).2.toldToStop = false) : t.toldToStop = false := by
  cases l with
  | loopHead p =>
    simp only [effect, TcpServer.loopHead] at h
    split at h
    · obtain ⟨isLock, acceptor, epoll, hcall⟩ :=
        TcpServer.call_eq t.loop_.beforeEachLoopFunction_ p m t
      rw [hcall] at h
      exact h
    · exact h
  | poll p listen =>
    simp only [effect, TcpServer.poll] at h
    split at h
    · exact h
    · exact h
  | accept p => exact h
  | afterAccept p =>
    obtain ⟨isLock, acceptor, epoll, hcall⟩ :=
      TcpServer.call_eq t.loop_.afterEachAcceptFunction_ p m t
    simp only [effect, TcpServer.afterAccept, hcall] at h
    exact h
  | check p =>
    simp only [effect, TcpServer.check] at h
    split at h
    · exact h
    · exact h
  | handle p quit =>
    simp only [effect, TcpServer.handle] at h
    split at h
    · exact h
    · exact h
  | afterLoop p fork =>
    obtain ⟨pool, running, hterminate⟩ := TcpServer.terminate_eq t
    simp only [effect, TcpServer.afterLoop, hterminate] at h
    split at h
    · simp only [TcpServer.again] at h
      split at h
      · exact h
      · exact h
    · simp only [TcpServer.again] at h
      split at h
      · exact h
      · exact h
  | signal p signo =>
    cases signo with
    | SIGINT | SIGTERM => cases h
    | SIGQUIT =>
      have htrue : (t.signalHandler .SIGQUIT).toldToStop = true := Bool.or_true _
      exact absurd (h.symm.trans htrue) (by decide)
  | sigchld p q | die p => exact h

/-- **Tries**: what tries after a step has tried before. -/
theorem tries_effect (hready : l.Ready t) (h : (l.effect m t).2.Tries) : t.Tries := by
  have htold := toldToStop_effect (t := t) m l
  cases l with
  | loopHead p =>
    have hpoint : t.point = .loopHead := hready
    rw [TcpServer.Tries, hpoint]
    by_cases hrunning : t.loop_.running_ = true
    · exact .inl hrunning
    · -- out of the loop
      simp only [effect, TcpServer.loopHead, if_neg hrunning] at h htold
      exact .inr (htold h)
  | poll p listen =>
    rw [TcpServer.Tries, hready.1]
    simp only [effect, TcpServer.poll] at h htold
    split at h
    · next hlisten =>
      rw [if_pos hlisten] at htold
      exact htold h
    · next hlisten =>
      rw [if_neg hlisten] at htold
      exact htold h
  | accept p =>
    have hpoint : t.point = .accept := hready
    rw [TcpServer.Tries, hpoint]
    exact htold h
  | afterAccept p =>
    have hpoint : t.point = .accepted := hready
    rw [TcpServer.Tries, hpoint]
    exact htold h
  | check p =>
    have hpoint : t.point = .check := hready
    rw [TcpServer.Tries, hpoint]
    simp only [effect, TcpServer.check] at h htold
    split at h
    · next hflags =>
      rw [if_pos hflags] at htold
      exact htold h
    · -- without flags the loop goes on
      next hflags =>
      show t.toldToStop = false
      rw [TcpServer.toldToStop, Bool.or_comm]
      simpa using hflags
  | handle p quit =>
    have hpoint : t.point = .handle := hready
    rw [TcpServer.Tries, hpoint]
    -- `quit` stops the loop, and so does `status_child_quit`
    rcases h with hrunning | hgo
    · simp only [effect, TcpServer.handle] at hrunning
      left
      split at hrunning
      · simp at hrunning
        exact ⟨hrunning.1.1, hrunning.2⟩
      · simp at hrunning
        exact ⟨hrunning.1.1, hrunning.2⟩
    · exact .inr (htold hgo)
  | afterLoop p fork =>
    have hpoint : t.point = .afterLoop := hready
    rw [TcpServer.Tries, hpoint]
    -- with a flag set it leaves `start`
    by_contra hflags
    have hleft := TcpServer.point_afterLoop_off (by simpa using hflags) fork
    have hnone : ¬ (t.afterLoop fork).1.Tries := by
      rw [TcpServer.Tries, hleft]
      exact id
    exact hnone h
  | signal p signo =>
    -- a handler sets flags, and nothing else
    cases signo with
    | SIGINT | SIGTERM | SIGQUIT => exact h.mono rfl rfl id htold
  | sigchld p q => exact h.mono rfl rfl (fun _ => rfl) htold
  | die p => exact h.elim

/-- **The lock**: it is taken at the head of the loop, and given back
    behind an accept. -/
theorem owner_effect (hkept : t.Kept sockfd m l.actor) (hready : l.Ready t) :
    (l.effect m t).1 = m ∨
      (m.owner = none ∧ (l.effect m t).1.owner = some l.actor ∧ t.point = .loopHead ∧
        t.loop_.running_ = true) ∨
      (m.owner = some l.actor ∧ (l.effect m t).1.owner = none ∧ t.point = .accepted) := by
  cases l with
  | loopHead p =>
    by_cases hrunning : t.loop_.running_ = true
    · -- only a replacement has no hook
      have hhook : t.loop_.beforeEachLoopFunction_ = some .lockAcceptor ∨
          t.loop_.beforeEachLoopFunction_ = none := by
        rcases hkept.role with howns | hlacks | hreplaces
        · exact .inl howns.hooked.beforeEachLoop
        · exact .inl hlacks.hooked.beforeEachLoop
        · exact .inr hreplaces.unhooked.beforeEachLoop
      simp only [effect, TcpServer.loopHead, if_pos hrunning]
      rcases hhook with hhook | hhook
      · rw [hhook]
        rcases TcpServer.lockAcceptor_cases p m t with ⟨hfree, hcall⟩ | ⟨-, hcall⟩
        · simp only [TcpServer.call, hcall]
          exact .inr (.inl ⟨hfree, rfl, hready, hrunning⟩)
        · simp only [TcpServer.call, hcall]
          exact .inl trivial
      · rw [hhook]
        exact .inl rfl
    · simp only [effect, TcpServer.loopHead, if_neg hrunning]
      exact .inl trivial
  | afterAccept p =>
    rcases hkept.role with howns | hlacks | hreplaces
    · have hafter : ((afterAccept p).effect m t).1 = m.unlock :=
        congrArg Prod.fst (TcpServer.afterAccept_owns howns)
      exact .inr (.inr ⟨howns.owner, by rw [hafter]; rfl, hready⟩)
    · left
      simp only [effect, TcpServer.afterAccept, hlacks.hooked.afterEachAccept, TcpServer.call,
        TcpServer.unlockAcceptor, hlacks.isLock_]
      rfl
    · left
      simp only [effect, TcpServer.afterAccept, hreplaces.unhooked.afterEachAccept, TcpServer.call]
  | poll | accept | check | handle | afterLoop | signal | sigchld | die => exact .inl rfl

/-- **Points**: how an actor comes to the poll, to an accept, and behind
    it. -/
theorem point_effect (m : ProcessMutexLock Pid) (hready : l.Ready t) :
    (l.effect m t).2.point = t.point ∨
      ((l.effect m t).2.point = .poll ∧ t.point = .loopHead ∧ t.loop_.running_ = true) ∨
      ((l.effect m t).2.point = .accept ∧ t.point = .poll ∧
        t.acceptor_.getSockfd ∈ t.loop_.epoll_.interest) ∨
      ((l.effect m t).2.point = .accepted ∧ t.point = .accept) ∨
      ((l.effect m t).2.point ≠ .poll ∧ (l.effect m t).2.point ≠ .accept ∧
        (l.effect m t).2.point ≠ .accepted) := by
  have helse : ∀ {x : Point}, x = .check ∨ x = .handle ∨ x = .loopHead ∨ x = .afterLoop ∨
      x = .left ∨ x = .dead → x ≠ .poll ∧ x ≠ .accept ∧ x ≠ .accepted := by
    intro x hx
    rcases hx with rfl | rfl | rfl | rfl | rfl | rfl
    all_goals decide
  cases l with
  | loopHead p =>
    by_cases hrunning : t.loop_.running_ = true
    · right
      left
      simp only [effect, TcpServer.loopHead, if_pos hrunning]
      exact ⟨trivial, hready, hrunning⟩
    · simp only [effect, TcpServer.loopHead, if_neg hrunning]
      exact .inr (.inr (.inr (.inr (helse (by simp)))))
  | poll p listen =>
    by_cases hlisten : listen ∧ t.acceptor_.getSockfd = t.loop_.listenSockfd_
    · simp only [effect, TcpServer.poll, if_pos hlisten]
      exact .inr (.inr (.inl ⟨trivial, hready.1, hready.2 hlisten.1⟩))
    · simp only [effect, TcpServer.poll, if_neg hlisten]
      exact .inr (.inr (.inr (.inr (helse (by simp)))))
  | accept p => exact .inr (.inr (.inr (.inl ⟨rfl, hready⟩)))
  | check p =>
    right; right; right; right
    apply helse
    simp only [effect, TcpServer.check]
    split
    · simp
    · simp
  | afterLoop p fork =>
    right; right; right; right
    apply helse
    simp only [effect, TcpServer.afterLoop]
    split
    · simp only [TcpServer.again]
      split <;> simp
    · simp only [TcpServer.again]
      split <;> simp
  | signal p signo =>
    left
    cases signo <;> rfl
  | sigchld p q => exact .inl rfl
  | afterAccept | handle | die =>
    right; right; right; right
    apply helse
    simp [effect, TcpServer.afterAccept, TcpServer.handle]

end ServerStep

/-! ## The pool -/

/-- In the pools of the constructor there is room for another pid. -/
theorem ProcessPool.forks_afterForks [DecidableEq Pid] {parent p : Pid}
    {forks : List (Option Pid)} {pool : ProcessPool Pid}
    (h : afterForks parent forks p = some pool) : pool.forks = true := by
  have hlength : ∀ fs : List (Option Pid), (fs.flatMap Option.toList).length ≤ fs.length := by
    intro fs
    induction fs with
    | nil => exact Nat.le_refl 0
    | cons fork fs ih =>
      cases fork with
      | none => exact Nat.le_succ_of_le ih
      | some q => exact Nat.succ_le_succ ih
  unfold afterForks at h
  split at h
  · cases h
    rw [ProcessPool.forks, new, createChildProcess_eq, decide_eq_true_eq, List.nil_append]
    exact hlength forks
  · obtain ⟨i, -, rfl⟩ := Option.map_eq_some_iff.mp h
    rw [ProcessPool.forks, inChild, createChildProcess_eq, decide_eq_true_eq, List.nil_append]
    exact (hlength _).trans (List.length_take_le' i forks)

theorem TcpServer.forks_terminate {t : TcpServer Pid} (h : t.processPool_.forks = true) :
    t.terminate.processPool_.forks = true := by
  unfold terminate
  split
  · exact decide_eq_true (Nat.zero_le _)
  · exact h

/-- With room in the pool `createNewChildProcess` forks. -/
theorem TcpServer.called_ne_full {t : TcpServer Pid} (h : t.processPool_.forks = true)
    (fork : Option Pid) : t.called fork ≠ .full := by
  intro hfull
  unfold called at hfull
  rw [forks_terminate h, if_pos rfl] at hfull
  split at hfull
  · cases fork with
    | none => cases hfull
    | some q => cases hfull
  · cases hfull

/-- A `fork` that fails leaves the room. -/
theorem TcpServer.called_none {t : TcpServer Pid} (h : t.processPool_.forks = true) :
    t.called none = .not ∨ t.called none = .failed := by
  rcases called_cases none t with hcalled | ⟨q, hq, -⟩ | ⟨-, hcalled⟩ | hcalled
  · exact .inl hcalled
  · cases hq
  · exact .inr hcalled
  · exact absurd hcalled (called_ne_full h none)

/-- No step takes the room away, as long as no `fork` succeeds. -/
theorem ServerStep.forks_effect [DecidableEq Pid] {l : ServerStep Pid} {t : TcpServer Pid}
    (m : ProcessMutexLock Pid) (h : t.processPool_.forks = true) (hchild : l.child t = none) :
    (l.effect m t).2.processPool_.forks = true := by
  by_cases hafter : ∃ p fork, l = .afterLoop p fork
  · obtain ⟨p, fork, rfl⟩ := hafter
    have hroom := TcpServer.forks_terminate h
    have hpool : ∀ u : TcpServer Pid, u.again.processPool_ = u.processPool_ := by
      intro u
      unfold TcpServer.again
      split
      · rfl
      · rfl
    have heffect := TcpServer.afterLoop_called fork t
    simp only [ServerStep.effect]
    rcases TcpServer.called_cases fork t with
      hcalled | ⟨q, rfl, hcalled⟩ | ⟨rfl, hcalled⟩ | hcalled
    · rw [hcalled] at heffect
      rw [heffect, hpool]
      exact hroom
    · rw [hcalled] at heffect
      rw [ServerStep.child, heffect] at hchild
      cases hchild
    · rw [hcalled] at heffect
      rw [heffect, hpool]
      have hsame : t.terminate.processPool_.createNewChildProcess none =
          t.terminate.processPool_ := by
        rw [ProcessPool.createNewChildProcess, if_pos hroom, Option.toList_none, List.append_nil]
      exact (congrArg ProcessPool.forks hsame).trans hroom
    · exact absurd hcalled (TcpServer.called_ne_full h fork)
  · simp only [not_exists] at hafter
    rw [ServerStep.processPool_effect m t hafter]
    exact h

namespace Server

variable [DecidableEq Pid] {sockfd : Int} {s : Server Pid} {l : ServerStep Pid} {p q : Pid}
  {t : TcpServer Pid}

/-! ## What holds in these runs -/

/-- Every process keeps its records, goes on until it has left, is an
    original one, and has a pool that lets it fork. -/
structure InOrder (sockfd : Int) (s : Server Pid) : Prop where
  coherent : s.Coherent sockfd
  goes : s.AllGoOn
  original : ∀ p t, s.process p = some t → t.created = false
  forks : ∀ p t, s.process p = some t → t.processPool_.forks = true

omit [DecidableEq Pid] in
/-- Nobody is made. -/
theorem child_eq_none (ht : s.process l.actor = some t) (hreturns : s.Returns l) :
    l.child t = none := by
  cases l with
  | afterLoop p fork =>
    have hcalled := hreturns t ht
    have hafter := TcpServer.afterLoop_called fork t
    rcases TcpServer.called_cases fork t with hnot | ⟨q, rfl, hforked⟩ | ⟨rfl, -⟩ | hfull
    · rw [hnot] at hafter
      cases fork with
      | none => rfl
      | some q => simp only [ServerStep.child, hafter, Option.map_none]
    · rw [hforked] at hcalled
      rcases hcalled with h | h
      · cases h
      · cases h
    · rfl
    · rw [hfull] at hcalled
      rcases hcalled with h | h
      · cases h
      · cases h
  | loopHead | poll | accept | afterAccept | check | handle | signal | sigchld | die => rfl

theorem inOrder_next (h : s.InOrder sockfd) (hguard : unreplaced.guard s l) :
    (s.next l).InOrder sockfd := by
  obtain ⟨hguard, hreturns⟩ := hguard
  obtain ⟨t, ht, -⟩ := hguard.1
  refine ⟨coherent_next h.coherent hguard, allGoOn_next h.goes hguard, fun q u hu => ?_,
    fun q u hu => ?_⟩
  · rcases process_next_cases hguard ht hu with ⟨rfl, rfl⟩ | ⟨-, hu⟩ | ⟨-, hchild⟩
    · rw [ServerStep.created_effect]
      exact h.original _ t ht
    · exact h.original q u hu
    · cases (child_eq_none ht hreturns).symm.trans hchild
  · rcases process_next_cases hguard ht hu with ⟨rfl, rfl⟩ | ⟨-, hu⟩ | ⟨-, hchild⟩
    · exact ServerStep.forks_effect s.mutex (h.forks _ t ht) (child_eq_none ht hreturns)
    · exact h.forks q u hu
    · cases (child_eq_none ht hreturns).symm.trans hchild

/-- The pools of the constructor hold at most as many pids as workers were
    asked for. -/
theorem inOrder_started (sockfd : Int) (parent : Pid) (forks : List (Option Pid)) :
    (started sockfd (ProcessPool.afterForks parent forks)).InOrder sockfd := by
  refine ⟨coherent_started sockfd _, allGoOn_started sockfd _, fun p t ht => ?_, fun p t ht => ?_⟩
  · obtain ⟨pool, -, rfl⟩ := Option.map_eq_some_iff.mp ht
    rfl
  · obtain ⟨pool, hpool, rfl⟩ := Option.map_eq_some_iff.mp ht
    exact ProcessPool.forks_afterForks hpool

/-! ## Nothing is gained by a step -/

/-- A lock that can be had after a step could be had before, or the actor
    accepts. -/
theorem obtainable_of_next (hc : s.Coherent sockfd) (hguard : s.guard l)
    (h : (s.next l).Obtainable q) : s.Obtainable q ∨ s.Serves l.actor := by
  obtain ⟨t, ht, hready⟩ := hguard.1
  rcases ServerStep.owner_effect (hc.kept l.actor t ht) hready with hsame | htaken | hgiven
  · rw [Obtainable, mutex_next ht, hsame] at h
    rcases h with hfree | hown | ⟨r, hr, u, hu, hpoint⟩
    · exact .inl (.inl hfree)
    · exact .inl (.inr (.inl hown))
    · rcases process_next_cases hguard ht hu with ⟨rfl, rfl⟩ | ⟨-, hu⟩ | ⟨hnone, -⟩
      · rcases ServerStep.point_effect s.mutex hready with hstay | hmove | hmove | hmove | hmove
        · exact .inl (.inr (.inr ⟨_, hr, t, ht, hstay ▸ hpoint⟩))
        · exact absurd (hpoint.symm.trans hmove.1) (by decide)
        · exact absurd (hpoint.symm.trans hmove.1) (by decide)
        · exact .inr ⟨t, ht, .inl hmove.2⟩
        · exact absurd hpoint hmove.2.2
      · exact .inl (.inr (.inr ⟨r, hr, u, hu, hpoint⟩))
      · exact absurd hnone (hc.owner r hr)
  · exact .inl (.inl htaken.1)
  · exact .inl (.inr (.inr ⟨_, hgiven.1, t, ht, hgiven.2.2⟩))

/-- Who accepts after its own step did before, or was in the poll with the
    lock. -/
theorem serves_of_accept (hc : s.Coherent sockfd) (ht : s.process l.actor = some t)
    (hready : l.Ready t) (haccept : (l.effect s.mutex t).2.point = .accept) :
    s.Serves l.actor := by
  have hkept := hc.kept l.actor t ht
  rcases ServerStep.point_effect s.mutex hready with hstay | hmove | hmove | hmove | hmove
  · exact ⟨t, ht, .inl (hstay ▸ haccept)⟩
  · exact absurd (haccept.symm.trans hmove.1) (by decide)
  · exact ⟨t, ht, .inr (.inl ⟨hmove.2.1, (hkept.owns_of_mem hmove.2.2).owner⟩)⟩
  · exact absurd (haccept.symm.trans hmove.1) (by decide)
  · exact absurd haccept hmove.2.1

/-- Who is in the poll with the lock after its own step was there, or has
    just got there. -/
theorem serves_of_poll (hc : s.Coherent sockfd) (ht : s.process l.actor = some t)
    (hready : l.Ready t) (hpoll : (l.effect s.mutex t).2.point = .poll)
    (howner : (l.effect s.mutex t).1.owner = some l.actor) : s.Serves l.actor := by
  have howners := ServerStep.owner_effect (hc.kept l.actor t ht) hready
  have hobtain : s.Obtainable l.actor := by
    rcases howners with hsame | htaken | hgiven
    · rw [hsame] at howner
      exact .inr (.inl howner)
    · exact .inl htaken.1
    · exact .inr (.inl hgiven.1)
  rcases ServerStep.point_effect s.mutex hready with hstay | hmove | hmove | hmove | hmove
  · rw [hstay] at hpoll
    rcases howners with hsame | htaken | hgiven
    · rw [hsame] at howner
      exact ⟨t, ht, .inr (.inl ⟨hpoll, howner⟩)⟩
    · exact absurd (hpoll.symm.trans htaken.2.2.1) (by decide)
    · exact absurd (hpoll.symm.trans hgiven.2.2) (by decide)
  · refine ⟨t, ht, .inr (.inr ⟨?_, hobtain⟩)⟩
    rw [TcpServer.Tries, hmove.2.1]
    exact .inl hmove.2.2
  · exact absurd (hpoll.symm.trans hmove.1) (by decide)
  · exact absurd (hpoll.symm.trans hmove.1) (by decide)
  · exact absurd hpoll hmove.1

/-- **Step**: whoever serves after a step, somebody served before. -/
theorem serves_of_next (hc : s.Coherent sockfd) (hguard : unreplaced.guard s l)
    (h : (s.next l).Serves q) : ∃ p, s.Serves p := by
  obtain ⟨hguard, hreturns⟩ := hguard
  obtain ⟨t, ht, hready⟩ := hguard.1
  obtain ⟨u, hu, hcase⟩ := h
  have hkept := hc.kept l.actor t ht
  rcases process_next_cases hguard ht hu with ⟨rfl, rfl⟩ | ⟨hq, hold⟩ | ⟨-, hchild⟩
  · rcases hcase with haccept | ⟨hpoll, howner⟩ | ⟨htries, hobtain⟩
    · exact ⟨_, serves_of_accept hc ht hready haccept⟩
    · rw [mutex_next ht] at howner
      exact ⟨_, serves_of_poll hc ht hready hpoll howner⟩
    · rcases obtainable_of_next hc hguard hobtain with hobtain | hserves
      · exact ⟨_, t, ht, .inr (.inr ⟨ServerStep.tries_effect hready htries, hobtain⟩)⟩
      · exact ⟨_, hserves⟩
  · -- another process has not moved
    rcases hcase with haccept | ⟨hpoll, howner⟩ | ⟨htries, hobtain⟩
    · exact ⟨q, u, hold, .inl haccept⟩
    · rw [mutex_next ht] at howner
      obtain ⟨-, hothers⟩ := ServerStep.kept_effect hkept hready
      exact ⟨q, u, hold, .inr (.inl ⟨hpoll, (hothers q hq).mp howner⟩)⟩
    · rcases obtainable_of_next hc hguard hobtain with hobtain | hserves
      · exact ⟨q, u, hold, .inr (.inr ⟨htries, hobtain⟩)⟩
      · exact ⟨_, hserves⟩
  · cases (child_eq_none ht hreturns).symm.trans hchild

/-! ## The way to an accept -/

/-- Some continuation accepts a connection. -/
def CanAccept (s : Server Pid) : Prop := unreplaced.CanReach Accepting s

/-- A step on the way. -/
theorem canAccept_step (h : s.InOrder sockfd) (ht : s.process l.actor = some t)
    (hready : l.Ready t) (hallowed : s.Allowed l) (hreturns : s.Returns l)
    (hgo : ∀ s' : Server Pid, s'.InOrder sockfd →
      s'.process l.actor = some (l.effect s.mutex t).2 → s'.mutex = (l.effect s.mutex t).1 →
        s'.CanAccept) : s.CanAccept := by
  have hguard : s.guard l := ⟨⟨t, ht, hready⟩, hallowed⟩
  have hvalid : unreplaced.guard s l := ⟨hguard, hreturns⟩
  apply Machine.canReach_step _ hvalid
  exact hgo (s.next l) (inOrder_next h hvalid) (process_next_actor hguard ht) (mutex_next ht)

/-- In the poll with the lock: a connection may come. -/
theorem canAccept_poll (h : s.InOrder sockfd) (ht : s.process p = some t)
    (hpoint : t.point = .poll) (howner : s.mutex.owner = some p) : s.CanAccept := by
  have howns := (h.coherent.kept p t ht).owns_of_owner howner
  have hmem : t.acceptor_.getSockfd ∈ t.loop_.epoll_.interest := by
    rw [ExtTreeMap.mem_iff_isSome_getElem?]
    have hinterest : t.loop_.epoll_.interest[t.acceptor_.getSockfd]? = some _ :=
      howns.listening.interest
    rw [hinterest]
    rfl
  refine canAccept_step (l := .poll p true) h ht ⟨hpoint, fun _ => hmem⟩ trivial trivial ?_
  intro s' _ ht' _
  refine Machine.canReach_now _ ⟨p, _, ht', ?_⟩
  have hpoll : t.poll true = { t with point := .accept, listenActive := false } :=
    TcpServer.poll_owns howns
  show (t.poll true).point = .accept
  rw [hpoll]

/-- At the head of the loop, with a lock that is free or its own. -/
theorem canAccept_head (h : s.InOrder sockfd) (ht : s.process p = some t)
    (hpoint : t.point = .loopHead)
    (hrunning : t.loop_.running_ = true)
    (hfree : s.mutex.owner = none ∨ s.mutex.owner = some p) : s.CanAccept := by
  refine canAccept_step (l := .loopHead p) h ht hpoint trivial trivial ?_
  intro s' h' ht' hm'
  have hpoll : (t.loopHead p s.mutex).2.point = .poll := by
    rw [TcpServer.loopHead, if_pos hrunning]
  have howner : (t.loopHead p s.mutex).1.owner = some p := by
    rw [TcpServer.loopHead, if_pos hrunning]
    rcases (h.coherent.kept p t ht).role with howns | hlacks | hreplaces
    · rw [howns.hooked.beforeEachLoop]
      rcases TcpServer.lockAcceptor_cases p s.mutex t with ⟨hnone, -⟩ | ⟨-, hcall⟩
      · cases hnone.symm.trans howns.owner
      · simp only [TcpServer.call, hcall]
        exact howns.owner
    · rw [hlacks.hooked.beforeEachLoop]
      rcases TcpServer.lockAcceptor_cases p s.mutex t with ⟨-, hcall⟩ | ⟨hheld, -⟩
      · simp only [TcpServer.call, hcall]
      · exact absurd (hfree.resolve_right hlacks.owner) hheld
    · cases (h.original p t ht).symm.trans hreplaces.created
  apply canAccept_poll h' ht' hpoll
  rw [hm']
  exact howner

/-- Out of the loop, and not told to stop: `loop()` is called again. -/
theorem canAccept_afterLoop (h : s.InOrder sockfd) (ht : s.process p = some t)
    (hpoint : t.point = .afterLoop) (hflags : t.toldToStop = false)
    (hfree : s.mutex.owner = none ∨ s.mutex.owner = some p) : s.CanAccept := by
  have hreturns : s.Returns (.afterLoop p none) := by
    intro t' ht'
    cases ht.symm.trans ht'
    exact TcpServer.called_none (h.forks p t ht)
  refine canAccept_step (l := .afterLoop p none) h ht hpoint (fun q hq => (by cases hq)) hreturns ?_
  intro s' h' ht' hm'
  have hgoes : t.running = true := by
    rcases h.goes p t ht with hrunning | hleft | hdead
    · exact hrunning
    · cases hpoint.symm.trans hleft
    · cases hpoint.symm.trans hdead
  have hterminate : t.terminate = t := by
    rw [TcpServer.toldToStop] at hflags
    rw [TcpServer.terminate, hflags]
    rfl
  have hrunning : (t.afterLoop none).1.loop_.running_ = true := by
    simp only [TcpServer.afterLoop, hterminate]
    split
    · simp [TcpServer.again, hgoes]
    · simp [TcpServer.again, hgoes]
  apply canAccept_head h' ht' (TcpServer.point_afterLoop_on hgoes hflags none) hrunning
  rw [hm']
  exact hfree

/-- At the head of the loop, whether `loop()` goes on or returns. -/
theorem canAccept_loopHead (h : s.InOrder sockfd) (ht : s.process p = some t)
    (hpoint : t.point = .loopHead)
    (htries : t.loop_.running_ = true ∨ t.toldToStop = false)
    (hfree : s.mutex.owner = none ∨ s.mutex.owner = some p) : s.CanAccept := by
  by_cases hrunning : t.loop_.running_ = true
  · exact canAccept_head h ht hpoint hrunning hfree
  · refine canAccept_step (l := .loopHead p) h ht hpoint trivial trivial ?_
    intro s' h' ht' hm'
    have hout : t.loopHead p s.mutex = (s.mutex, { t with point := .afterLoop }) := by
      rw [TcpServer.loopHead, if_neg hrunning]
    have hflags := htries.resolve_left hrunning
    have hloop : (ServerStep.loopHead p).effect s.mutex t = _ := hout
    rw [hloop] at ht' hm'
    apply canAccept_afterLoop h' ht' rfl hflags
    rw [hm']
    exact hfree

theorem canAccept_handle (h : s.InOrder sockfd) (ht : s.process p = some t)
    (hpoint : t.point = .handle)
    (htries : t.loop_.running_ = true ∧ t.status_child_quit = false ∨ t.toldToStop = false)
    (hfree : s.mutex.owner = none ∨ s.mutex.owner = some p) : s.CanAccept := by
  refine canAccept_step (l := .handle p false) h ht hpoint trivial trivial ?_
  intro s' h' ht' hm'
  have hlisten := (h.coherent.kept p t ht).listenActive
  have hhandle : t.handle false = { t with
      loop_ := { t.loop_ with running_ := t.loop_.running_ && !false && !t.status_child_quit }
      listenActive := false
      point := .loopHead } := by
    rw [TcpServer.handle, hlisten]
    rfl
  have heffect : ((ServerStep.handle p false).effect s.mutex t).2 = _ := hhandle
  rw [heffect] at ht'
  apply canAccept_loopHead h' ht' rfl _ (hm' ▸ hfree)
  rcases htries with ⟨hrunning, hquit⟩ | hflags
  · left
    simp [hrunning, hquit]
  · exact .inr hflags

theorem canAccept_check (h : s.InOrder sockfd) (ht : s.process p = some t)
    (hpoint : t.point = .check) (hflags : t.toldToStop = false)
    (hfree : s.mutex.owner = none ∨ s.mutex.owner = some p) : s.CanAccept := by
  refine canAccept_step (l := .check p) h ht hpoint trivial trivial ?_
  intro s' h' ht' hm'
  have hcheck : t.check = { t with point := .handle } := by
    have hor : (t.status_quit_softly || t.status_terminate) = false := by
      rw [Bool.or_comm]
      exact hflags
    rw [TcpServer.check, hor]
    rfl
  have heffect : ((ServerStep.check p).effect s.mutex t).2 = _ := hcheck
  rw [heffect] at ht'
  exact canAccept_handle h' ht' rfl (.inr hflags) (hm' ▸ hfree)

/-- Behind an accept the lock is given back. -/
theorem canAccept_accepted (h : s.InOrder sockfd) (ht : s.process p = some t)
    (hpoint : t.point = .accepted) (hflags : t.toldToStop = false)
    (hfree : s.mutex.owner = none ∨ s.mutex.owner = some p) : s.CanAccept := by
  refine canAccept_step (l := .afterAccept p) h ht hpoint trivial trivial ?_
  intro s' h' ht' hm'
  obtain ⟨isLock, acceptor, epoll, hcall⟩ :=
    TcpServer.call_eq t.loop_.afterEachAcceptFunction_ p s.mutex t
  have hafter : (t.afterAccept p s.mutex).2 = { t with
      isLock_ := isLock
      acceptor_ := acceptor
      loop_ := { t.loop_ with epoll_ := epoll }
      point := .check } := by
    rw [TcpServer.afterAccept, hcall]
  have heffect : ((ServerStep.afterAccept p).effect s.mutex t).2 = _ := hafter
  rw [heffect] at ht'
  apply canAccept_check h' ht' rfl hflags
  rw [hm']
  have howners := ServerStep.owner_effect (l := .afterAccept p) (h.coherent.kept p t ht) hpoint
  rcases howners with hsame | htaken | hgiven
  · rw [hsame]
    exact hfree
  · exact .inr htaken.2.1
  · exact .inl hgiven.2.1

/-- **A process that tries** for a lock that is free or its own. -/
theorem canAccept_tries (h : s.InOrder sockfd) (ht : s.process p = some t)
    (htries : t.Tries)
    (hfree : s.mutex.owner = none ∨ s.mutex.owner = some p) : s.CanAccept := by
  unfold TcpServer.Tries at htries
  cases hpoint : t.point with
  | loopHead =>
    rw [hpoint] at htries
    exact canAccept_loopHead h ht hpoint htries hfree
  | poll =>
    rw [hpoint] at htries
    -- nothing is reported, or not to this process
    refine canAccept_step (l := .poll p false) h ht ⟨hpoint, fun hf => (by cases hf)⟩ trivial trivial ?_
    intro s' h' ht' hm'
    have heffect : ((ServerStep.poll p false).effect s.mutex t).2 = _ := TcpServer.poll_idle t
    rw [heffect] at ht'
    exact canAccept_check h' ht' rfl htries (hm' ▸ hfree)
  | accept => exact Machine.canReach_now _ ⟨p, t, ht, hpoint⟩
  | accepted =>
    rw [hpoint] at htries
    exact canAccept_accepted h ht hpoint htries hfree
  | check =>
    rw [hpoint] at htries
    exact canAccept_check h ht hpoint htries hfree
  | handle =>
    rw [hpoint] at htries
    exact canAccept_handle h ht hpoint htries hfree
  | afterLoop =>
    rw [hpoint] at htries
    exact canAccept_afterLoop h ht hpoint htries hfree
  | left | dead =>
    rw [hpoint] at htries
    exact htries.elim

/-- **Whoever serves** comes to an accept. -/
theorem canAccept_of_serves (h : s.InOrder sockfd) (hserves : s.Serves p) : s.CanAccept := by
  obtain ⟨t, ht, haccept | ⟨hpoll, howner⟩ | ⟨htries, hobtain⟩⟩ := hserves
  · exact Machine.canReach_now _ ⟨p, t, ht, haccept⟩
  · exact canAccept_poll h ht hpoll howner
  · rcases hobtain with hfree | hown | ⟨q, hq, u, hu, hpoint⟩
    · exact canAccept_tries h ht htries (.inl hfree)
    · exact canAccept_tries h ht htries (.inr hown)
    · by_cases hqp : q = p
      · exact canAccept_tries h ht htries (.inr (hqp ▸ hq))
      · -- the owner gives the lock back first
        have hguard : s.guard (.afterAccept q) := ⟨⟨u, hu, hpoint⟩, trivial⟩
        have howns := (h.coherent.kept q u hu).owns_of_owner hq
        have hgiven : (s.next (.afterAccept q)).mutex.owner = none := by
          rw [mutex_next (l := .afterAccept q) hu]
          have hafter : ((ServerStep.afterAccept q).effect s.mutex u).1 = s.mutex.unlock :=
            congrArg Prod.fst (TcpServer.afterAccept_owns howns)
          rw [hafter]
          rfl
        have hvalid : unreplaced.guard s (.afterAccept q) := ⟨hguard, trivial⟩
        apply Machine.canReach_step _ hvalid
        exact canAccept_tries (inOrder_next h hvalid)
          (process_next_ne hguard (fun heq => hqp heq.symm) ht) htries (.inl hgiven)

/-- **Who can still accept**: after any run in which
    `createNewChildProcess` has not fallen off its end, over any
    interleaving of the processes, their signals and deaths, some
    continuation of that kind accepts a connection if and only if a process
    accepts already, is in the poll with the lock, or still comes to the
    head of its loop, while the lock is free, its own, or with a process
    that has just accepted.  In particular nobody accepts any more once the
    lock's owner is dead, or on its way out of `start`. -/
theorem canAccept_iff_serves (sockfd : Int) (parent : Pid) (forks : List (Option Pid))
    (steps : List (ServerStep Pid))
    (hvalid : unreplaced.Valid (started sockfd (ProcessPool.afterForks parent forks)) steps) :
    let s := unreplaced.run (started sockfd (ProcessPool.afterForks parent forks)) steps
    unreplaced.CanReach Accepting s ↔ ∃ p, s.Serves p := by
  intro s
  have h : s.InOrder sockfd :=
    unreplaced.invariant_run (InOrder sockfd) (fun _ _ h hguard => inOrder_next h hguard)
      (inOrder_started sockfd parent forks) hvalid
  constructor
  · apply unreplaced.can_of_canReach (InOrder sockfd) (fun s => ∃ p, s.Serves p) _ _ _ h
    · exact fun _ _ h hguard => inOrder_next h hguard
    · rintro s l h hguard ⟨q, hq⟩
      exact serves_of_next h.coherent hguard hq
    · rintro s - ⟨p, t, ht, hpoint⟩
      exact ⟨p, t, ht, .inl hpoint⟩
  · rintro ⟨p, hp⟩
    exact canAccept_of_serves h hp

/-- A worker is told to stop in its poll.  Its lock goes with it, and the
    parent, which is in good health, never accepts. -/
theorem canAccept_iff_serves_never :
    let steps : List (ServerStep (Fin 2)) :=
      [.loopHead 1, .poll 1 false, .signal 1 .SIGTERM, .loopHead 0]
    ¬ unreplaced.CanReach Accepting
      (unreplaced.run (started 5 (ProcessPool.afterForks 0 [some 1])) steps) :=
  fun h => absurd ((canAccept_iff_serves 5 0 [some 1] _ (by decide +kernel)).mp h)
    (by decide +kernel)

end Server

end Process

end TinyWS
