import TinyWS.MultiProcess.AcceptLock

/-! # Leaving with the Accept Lock

    The lock is taken at the head of an iteration and given back after an
    accept; the status flags are tested in between, and nothing on the way
    out of `TcpServer::start` gives the lock back.  So a process that is
    told to terminate while it waits for a connection takes the lock with
    it. -/

namespace TinyWS

namespace Process

variable {Pid : Type}

namespace TcpServer

/-- The local variable of `start` is true until `start` returns. -/
def GoesOn (t : TcpServer Pid) : Prop :=
  t.running = true ∨ t.point = .left ∨ t.point = .dead

/-- One of the flags is set that end `start`. -/
def toldToStop (t : TcpServer Pid) : Bool := t.status_terminate || t.status_quit_softly

variable {t : TcpServer Pid}

theorem goesOn_again (t : TcpServer Pid) : t.again.GoesOn := by
  unfold again
  split
  · next hrunning => exact Or.inl hrunning
  · exact Or.inr (Or.inl rfl)

theorem goesOn_afterLoop (fork : Option Pid) (t : TcpServer Pid) : (t.afterLoop fork).1.GoesOn := by
  unfold afterLoop
  dsimp only
  split
  · exact goesOn_again _
  · exact goesOn_again _

/-- A process that is not told to stop calls `loop()` again. -/
theorem point_afterLoop_on (hrunning : t.running = true) (hflags : t.toldToStop = false)
    (fork : Option Pid) : (t.afterLoop fork).1.point = .loopHead := by
  have hterminate : t.terminate = t := by
    rw [toldToStop] at hflags
    rw [terminate, hflags]
    rfl
  unfold afterLoop
  dsimp only
  rw [hterminate]
  split
  · simp [again, hrunning]
  · simp [again, hrunning]

/-- A process that is told to stop leaves `start`. -/
theorem point_afterLoop_off (hflags : t.toldToStop = true) (fork : Option Pid) :
    (t.afterLoop fork).1.point = .left := by
  have hterminate : t.terminate.running = false := by
    rw [toldToStop] at hflags
    rw [terminate, hflags]
    rfl
  unfold afterLoop
  dsimp only
  split
  · simp [again, hterminate]
  · simp [again, hterminate]

end TcpServer

namespace ServerStep

variable [DecidableEq Pid] {m : ProcessMutexLock Pid} {t : TcpServer Pid} {l : ServerStep Pid}

/-- Only the rest of `start` changes the local variable of `start`. -/
theorem running_effect (m : ProcessMutexLock Pid) (t : TcpServer Pid)
    (hl : ∀ p fork, l ≠ .afterLoop p fork) : (l.effect m t).2.running = t.running := by
  cases l with
  | sigchld p q => rfl
  | loopHead | poll | accept | afterAccept | check | handle | afterLoop | signal | die =>
    exact (sameCourse_effect m t hl (by simp)).running

theorem goesOn_effect (h : t.GoesOn) (hready : l.Ready t) : (l.effect m t).2.GoesOn := by
  by_cases hend : t.point = .left ∨ t.point = .dead
  · -- what has left can only be killed
    obtain ⟨p, rfl⟩ := eq_die_of_ready hready hend
    exact Or.inr (Or.inr rfl)
  · have hrunning : t.running = true := h.resolve_right hend
    by_cases hl : ∀ p fork, l ≠ .afterLoop p fork
    · exact Or.inl ((running_effect m t hl).trans hrunning)
    · simp only [not_forall, not_not] at hl
      obtain ⟨p, fork, rfl⟩ := hl
      exact TcpServer.goesOn_afterLoop fork t

/-- Only the rest of `start` ends in its return. -/
theorem point_effect_ne_left (hready : l.Ready t) (hl : ∀ p fork, l ≠ .afterLoop p fork) :
    (l.effect m t).2.point ≠ .left := by
  cases l with
  | loopHead p =>
    simp only [effect, TcpServer.loopHead]
    split
    · exact Point.noConfusion
    · exact Point.noConfusion
  | poll p listen =>
    simp only [effect, TcpServer.poll]
    split
    · exact Point.noConfusion
    · exact Point.noConfusion
  | accept p => exact Point.noConfusion
  | afterAccept p => exact Point.noConfusion
  | check p =>
    simp only [effect, TcpServer.check]
    split
    · exact Point.noConfusion
    · exact Point.noConfusion
  | handle p quit => exact Point.noConfusion
  | afterLoop p fork => exact absurd rfl (hl p fork)
  | signal p signo =>
    cases signo with
    | SIGINT | SIGTERM | SIGQUIT => exact hready.1
  | sigchld p q => exact hready.1
  | die p => exact Point.noConfusion

end ServerStep

namespace Server

/-! ## The specification -/

variable [DecidableEq Pid]

/-- A process that has left `start` does not own the lock, and a process in
    its loop that has the hooks gets a free lock by its next step. -/
def LeavesLock (s : Server Pid) : Prop :=
  (∀ p, ∀ t ∈ s.process p, t.point = .left → s.mutex.owner ≠ some p) ∧
    ∀ p, ∀ t ∈ s.process p, t.point = .loopHead → t.loop_.running_ = true →
      t.created = false → s.mutex.owner = none → (s.next (.loopHead p)).mutex.owner = some p

instance [Fintype Pid] (s : Server Pid) : Decidable s.LeavesLock :=
  inferInstanceAs (Decidable (_ ∧ _))

/-- The condition of the runs: a process that is told to stop is not
    listening when it comes out of `loop()`. -/
def StopsSilent (s : Server Pid) : ServerStep Pid → Prop
  | .afterLoop p _ =>
      ∀ t ∈ s.process p, t.toldToStop = true → t.acceptor_.acceptChannel_.isNoneEvent = true
  | _ => True

instance (s : Server Pid) : DecidablePred s.StopsSilent
  | .afterLoop p _ => inferInstanceAs (Decidable (∀ t ∈ s.process p, _ → _))
  | .loopHead _ | .poll _ _ | .accept _ | .afterAccept _ | .check _ | .handle _ _ | .signal _ _
  | .sigchld _ _ | .die _ => isTrue trivial

/-! ## One step -/

/-- No process that has left owns the lock. -/
def Freed (s : Server Pid) : Prop :=
  ∀ p t, s.process p = some t → t.point = .left → s.mutex.owner ≠ some p

/-- Every process goes on until it has left. -/
def AllGoOn (s : Server Pid) : Prop := ∀ p t, s.process p = some t → t.GoesOn

variable {s : Server Pid} {l : ServerStep Pid} {sockfd : Int}

/-- A free lock is there for every process with the hooks. -/
theorem leavesLock_of (h : s.Coherent sockfd) (hfreed : s.Freed) : s.LeavesLock := by
  refine ⟨hfreed, fun p t ht hpoint hrunning hcreated hfree => ?_⟩
  have hactor : s.process (ServerStep.loopHead p).actor = some t := ht
  rw [mutex_next hactor]
  rcases (h.kept p t ht).role with howns | hlacks | hreplaces
  · cases hfree.symm.trans howns.owner
  · -- its hook tries the lock, which is free
    simp only [ServerStep.effect, TcpServer.loopHead, if_pos hrunning,
      hlacks.hooked.beforeEachLoop]
    rcases TcpServer.lockAcceptor_cases p s.mutex t with ⟨-, hcall⟩ | ⟨hheld, -⟩
    · simp only [TcpServer.call, hcall]
    · exact absurd hfree hheld
  · cases hcreated.symm.trans hreplaces.created

omit [DecidableEq Pid] in
theorem allGoOn_started (sockfd : Int) (pools : Pid → Option (ProcessPool Pid)) :
    (started sockfd pools).AllGoOn := by
  intro p t ht
  obtain ⟨pool, -, rfl⟩ := Option.map_eq_some_iff.mp ht
  exact Or.inl rfl

omit [DecidableEq Pid] in
theorem freed_started (sockfd : Int) (pools : Pid → Option (ProcessPool Pid)) :
    (started sockfd pools).Freed := by
  intro p t _ _ howner
  cases howner

theorem allGoOn_next (h : s.AllGoOn) (hguard : s.guard l) : (s.next l).AllGoOn := by
  intro p u hu
  obtain ⟨t, ht, hready⟩ := hguard.1
  rcases process_next_cases hguard ht hu with ⟨rfl, rfl⟩ | ⟨-, hu⟩ | ⟨-, hchild⟩
  · exact ServerStep.goesOn_effect (h _ t ht) hready
  · exact h p u hu
  · obtain ⟨k, rfl, -, rfl⟩ := ServerStep.child_eq hchild
    exact TcpServer.goesOn_again _

/-- **Step**: one that meets the condition lets nobody leave with the
    lock. -/
theorem freed_next (hcoherent : s.Coherent sockfd) (hgoes : s.AllGoOn) (h : s.Freed)
    (hguard : s.guard l) (hcond : s.StopsSilent l) : (s.next l).Freed := by
  intro q u hu hleft
  obtain ⟨t, ht, hready⟩ := hguard.1
  obtain ⟨hkept, hothers⟩ := ServerStep.kept_effect (hcoherent.kept l.actor t ht) hready
  rcases process_next_cases hguard ht hu with ⟨rfl, rfl⟩ | ⟨hq, hu⟩ | ⟨-, hchild⟩
  · -- the actor leaves `start`
    have hafter : ∃ p fork, l = .afterLoop p fork := by
      by_contra hne
      simp only [not_exists] at hne
      exact ServerStep.point_effect_ne_left hready hne hleft
    obtain ⟨p, fork, rfl⟩ := hafter
    have hpoint : t.point = .afterLoop := hready
    have hrunning : t.running = true := by
      rcases hgoes p t ht with h | h | h
      · exact h
      · cases hpoint.symm.trans h
      · cases hpoint.symm.trans h
    have hflags : t.toldToStop = true := by
      by_contra hflags
      rw [Bool.not_eq_true] at hflags
      have hon := TcpServer.point_afterLoop_on hrunning hflags fork
      cases hon.symm.trans hleft
    have hsilent := hcond t ht hflags
    rw [mutex_next ht]
    intro howner
    -- an owner listens, and this process is silent
    have howns := (hcoherent.kept p t ht).owns_of_owner howner
    rw [howns.listening.isNoneEvent] at hsilent
    cases hsilent
  · -- one that left before does not get the lock now
    rw [mutex_next ht]
    exact fun howner => h q u hu hleft ((hothers q hq).mp howner)
  · -- a child does not own the lock
    obtain ⟨k, rfl, -, rfl⟩ := ServerStep.child_eq hchild
    have hnone := process_child hguard hchild
    rw [mutex_next ht]
    exact fun howner => hcoherent.owner q howner hnone

/-- A step that misses the condition takes the lock out. -/
theorem not_freed_next (hcoherent : s.Coherent sockfd) (hguard : s.guard l)
    (hcond : ¬ s.StopsSilent l) : ¬ (s.next l).Freed := by
  obtain ⟨t, ht, hready⟩ := hguard.1
  cases l with
  | afterLoop p fork =>
    have hlistens : t.toldToStop = true ∧ t.acceptor_.acceptChannel_.isNoneEvent ≠ true := by
      by_contra hne
      refine hcond fun t' ht' hflags => ?_
      cases ht.symm.trans ht'
      by_contra hlistens
      exact hne ⟨hflags, hlistens⟩
    obtain ⟨hflags, hlistens⟩ := hlistens
    -- only the owner listens
    have howner : s.mutex.owner = some p := by
      rcases (hcoherent.kept p t ht).role with h | h | h
      · exact h.owner
      · exact absurd h.silent.isNoneEvent hlistens
      · exact absurd h.silent.isNoneEvent hlistens
    intro hfreed
    refine hfreed p _ (process_next_actor hguard ht) ?_ ?_
    · exact TcpServer.point_afterLoop_off hflags fork
    · rw [mutex_next ht]
      exact howner
  | loopHead | poll | accept | afterAccept | check | handle | signal | sigchld | die =>
    exact absurd trivial hcond

end Server

end Process

end TinyWS
