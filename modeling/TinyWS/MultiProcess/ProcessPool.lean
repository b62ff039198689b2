import TinyWS.Framework.Machine
import Mathlib.Data.List.Basic

/-! # ProcessPool

    The parent forks its workers, notes their pids, and is to replace a
    worker that died: `SIGCHLD` sets `status_child_quit`, `loop()` returns,
    and `TcpServer::start` calls `createNewChildProcess` and clears the
    flag.

    `pids_` never shrinks when a worker dies, and `createNewChildProcess`
    forks only while `pids_` holds at most `processNum_` pids.  So it forks
    once in the life of the parent: the pool is full whenever the parent is
    back in `loop()` exactly as long as one worker has died. -/

namespace TinyWS

namespace Process

variable {Pid : Type}

/-- `class ProcessPool`, as one process sees it. -/
structure ProcessPool (Pid : Type) where
  processNum_ : Nat
  pids_ : List Pid
  deriving DecidableEq, Repr

namespace ProcessPool

/-- The loop of `createChildProcess` in the parent: `none` is a `fork` that
    failed. -/
def createChildProcess (pool : ProcessPool Pid) (forks : List (Option Pid)) : ProcessPool Pid :=
  forks.foldl (fun pool fork => { pool with pids_ := pool.pids_ ++ fork.toList }) pool

/-- The constructor: `processNum_` forks. -/
def new (forks : List (Option Pid)) : ProcessPool Pid :=
  createChildProcess ⟨forks.length, []⟩ forks

/-- Whether the body of the loop in `createNewChildProcess` is entered:
    `int i = pids_.size(); i <= processNum_`. -/
def forks (pool : ProcessPool Pid) : Bool := pool.pids_.length ≤ pool.processNum_

/-- `createNewChildProcess` in the parent.  The loop ends with its first
    turn, by `return pid`.  Without a turn the function falls off its end;
    the value that `start` reads then decides about its loop, and not about
    the pool. -/
def createNewChildProcess (pool : ProcessPool Pid) (fork : Option Pid) : ProcessPool Pid :=
  if pool.forks then { pool with pids_ := pool.pids_ ++ fork.toList } else pool

/-- `killAll`; the signals it sends are deliveries like any other. -/
def killAll (pool : ProcessPool Pid) : ProcessPool Pid := { pool with pids_ := [] }

theorem createChildProcess_eq (forks : List (Option Pid)) : ∀ pool : ProcessPool Pid,
    pool.createChildProcess forks =
      { pool with pids_ := pool.pids_ ++ forks.flatMap Option.toList } := by
  induction forks with
  | nil =>
    intro pool
    simp [createChildProcess]
  | cons fork forks ih =>
    intro pool
    have hstep : pool.createChildProcess (fork :: forks) =
        createChildProcess { pool with pids_ := pool.pids_ ++ fork.toList } forks := rfl
    rw [hstep, ih]
    simp

/-- Every `fork` of the constructor succeeded. -/
theorem new_map_some (pids : List Pid) : new (pids.map some) = ⟨pids.length, pids⟩ := by
  have hpids : (pids.map some).flatMap Option.toList = pids := by
    induction pids with
    | nil => rfl
    | cons pid pids ih =>
      rw [List.map_cons, List.flatMap_cons, ih]
      rfl
  rw [new, createChildProcess_eq, hpids, List.length_map, List.nil_append]

end ProcessPool

/-! ## The parent -/

/-- Where the parent is in `TcpServer::start`. -/
inductive StartPoint where
  | inLoop
  /-- `loop()` has returned. -/
  | afterLoop
  /-- `status_child_quit` was found set. -/
  | replacing
  /-- `createNewChildProcess` has returned. -/
  | replaced
  deriving DecidableEq, Repr

/-- The parent and its children.  The last two fields are histories. -/
structure Parent (Pid : Type) where
  processPool_ : ProcessPool Pid
  status_child_quit : Bool
  point : StartPoint
  /-- The children that are alive. -/
  live : List Pid
  /-- The children that have died and were not waited for. -/
  zombies : List Pid
  /-- Whether `SIGCHLD` is pending: deaths coalesce. -/
  sigchld : Bool
  deaths : Nat
  failedForks : Nat
  deriving DecidableEq

inductive ParentStep (Pid : Type) where
  /-- A child dies. -/
  | die (pid : Pid)
  /-- `SIGCHLD` is delivered. -/
  | parentSignalHandler
  /-- `loop()` returns. -/
  | leaveLoop
  /-- `if (status_child_quit)`. -/
  | testFlag
  /-- `createNewChildProcess`, where `fork` returned `pid` or failed. -/
  | createNewChildProcess (fork : Option Pid)
  /-- `status_child_quit = 0`, and back to `loop()`. -/
  | clearFlag
  deriving DecidableEq, Repr

namespace Parent

/-- The pool is created and `start()` has called `loop()`. -/
def started (pids : List Pid) : Parent Pid where
  processPool_ := ProcessPool.new (pids.map some)
  status_child_quit := false
  point := .inLoop
  live := pids
  zombies := []
  sigchld := false
  deaths := 0
  failedForks := 0

variable [DecidableEq Pid]

def next (s : Parent Pid) : ParentStep Pid → Parent Pid
  | .die pid =>
      { s with
        live := s.live.erase pid
        zombies := s.zombies ++ [pid]
        sigchld := true
        deaths := s.deaths + 1 }
  -- `waitpid(-1, &status, WNOHANG)` collects one child
  | .parentSignalHandler =>
      { s with status_child_quit := true, zombies := s.zombies.tail, sigchld := false }
  | .leaveLoop => { s with point := .afterLoop }
  | .testFlag => { s with point := if s.status_child_quit then .replacing else .inLoop }
  | .createNewChildProcess fork =>
      if s.processPool_.forks then
        { s with
          processPool_ := s.processPool_.createNewChildProcess fork
          point := .replaced
          live := s.live ++ fork.toList
          failedForks := if fork = none then s.failedForks + 1 else s.failedForks }
      else
        { s with
          processPool_ := s.processPool_.createNewChildProcess fork
          point := .replaced }
  | .clearFlag => { s with status_child_quit := false, point := .inLoop }

def guard (s : Parent Pid) : ParentStep Pid → Prop
  | .die pid => pid ∈ s.live
  | .parentSignalHandler => s.sigchld = true
  | .leaveLoop => s.point = .inLoop
  | .testFlag => s.point = .afterLoop
  -- the kernel gives a pid that no child has
  | .createNewChildProcess fork =>
      s.point = .replacing ∧ ∀ pid ∈ fork, pid ∉ s.live ∧ pid ∉ s.zombies
  | .clearFlag => s.point = .replaced

instance (s : Parent Pid) : DecidablePred s.guard
  | .die pid => inferInstanceAs (Decidable (pid ∈ s.live))
  | .parentSignalHandler => inferInstanceAs (Decidable (s.sigchld = true))
  | .leaveLoop => inferInstanceAs (Decidable (s.point = .inLoop))
  | .testFlag => inferInstanceAs (Decidable (s.point = .afterLoop))
  | .createNewChildProcess fork =>
      inferInstanceAs (Decidable (s.point = .replacing ∧
        ∀ pid ∈ fork, pid ∉ s.live ∧ pid ∉ s.zombies))
  | .clearFlag => inferInstanceAs (Decidable (s.point = .replaced))

end Parent

/-- Deaths and signals at any point of `TcpServer::start`. -/
def parent [DecidableEq Pid] : Machine (Parent Pid) (ParentStep Pid) where
  guard := Parent.guard
  next := Parent.next

instance [DecidableEq Pid] (s : Parent Pid) (l : ParentStep Pid) : Decidable (parent.guard s l) :=
  inferInstanceAs (Decidable (s.guard l))

namespace Parent

/-! ## The specification -/

/-- When every death has been announced and handled, and the parent is in
    `loop()`, all workers are there. -/
def PoolFull (s : Parent Pid) : Prop :=
  s.point = .inLoop → s.status_child_quit = false → s.sigchld = false →
    s.live.length = s.processPool_.processNum_

instance (s : Parent Pid) : Decidable s.PoolFull :=
  inferInstanceAs (Decidable (_ → _ → _ → _))

/-- The condition of the runs: when the last announced death has been
    handled, it was the only one so far, and its `fork` succeeded. -/
def OneDeath (s : Parent Pid) : ParentStep Pid → Prop
  | .clearFlag => s.sigchld = false → s.deaths ≤ 1 ∧ s.failedForks = 0
  | _ => True

instance (s : Parent Pid) : DecidablePred s.OneDeath
  | .clearFlag =>
      inferInstanceAs (Decidable (s.sigchld = false → s.deaths ≤ 1 ∧ s.failedForks = 0))
  | .die _ | .parentSignalHandler | .leaveLoop | .testFlag | .createNewChildProcess _ =>
      isTrue trivial

/-! ## The accounts -/

/-- Deaths that were announced, or are about to be, and for which the
    parent has not called `createNewChildProcess`: at most one is seen. -/
def owed (s : Parent Pid) : Nat :=
  (if s.status_child_quit = true ∧ s.point ≠ .replaced then 1 else 0) + s.sigchld.toNat

/-- What holds in every run of a pool of `n` workers. -/
structure Accounted (n : Nat) (s : Parent Pid) : Prop where
  processNum_ : s.processPool_.processNum_ = n
  ge_pids : n ≤ s.processPool_.pids_.length
  pids_le : s.processPool_.pids_.length ≤ n + 1
  /-- Every child in `pids_` is alive or has died. -/
  living : s.live.length + s.deaths = s.processPool_.pids_.length
  /-- No fork without a death. -/
  caused : s.processPool_.pids_.length + s.failedForks + s.owed ≤ n + s.deaths
  flag : s.point = .replacing ∨ s.point = .replaced → s.status_child_quit = true
  tried : s.point = .replaced → n + 1 ≤ s.processPool_.pids_.length + s.failedForks

/-- The pool is full, also on the way from one call of `loop()` to the
    next. -/
def StaysFull (s : Parent Pid) : Prop :=
  s.point = .inLoop ∨ s.point = .afterLoop → s.status_child_quit = false → s.sigchld = false →
    s.live.length = s.processPool_.processNum_

theorem StaysFull.poolFull {s : Parent Pid} (h : s.StaysFull) : s.PoolFull :=
  fun hpoint => h (Or.inl hpoint)

theorem accounted_started (pids : List Pid) : (started pids).Accounted pids.length := by
  have hpool : (started pids).processPool_ = ⟨pids.length, pids⟩ := ProcessPool.new_map_some pids
  have hlength : (started pids).processPool_.pids_.length = pids.length := by rw [hpool]
  have howed : (started pids).owed = 0 := rfl
  refine ⟨?_, ?_, ?_, hlength.symm, ?_, ?_, ?_⟩
  · rw [hpool]
  · exact Nat.le_of_eq hlength.symm
  · omega
  · have hcaused : (started pids).processPool_.pids_.length + 0 + 0 ≤ pids.length + 0 := by omega
    exact hcaused
  · rintro (h | h)
    · cases h
    · cases h
  · intro h
    cases h

theorem staysFull_started (pids : List Pid) : (started pids).StaysFull := by
  intro _ _ _
  have hpool : (started pids).processPool_ = ⟨pids.length, pids⟩ := ProcessPool.new_map_some pids
  rw [hpool]
  rfl

/-! ## One step -/

variable [DecidableEq Pid]

/-- A death is owed a signal. -/
theorem accounted_die {n : Nat} {s : Parent Pid} (h : s.Accounted n) {pid : Pid}
    (hmem : pid ∈ s.live) : (s.next (.die pid)).Accounted n := by
  have hlength := List.length_erase_add_one hmem
  have howed : (s.next (.die pid)).owed ≤ s.owed + 1 :=
    Nat.add_le_add_right (Nat.le_add_right _ s.sigchld.toNat) 1
  refine ⟨h.processNum_, h.ge_pids, h.pids_le, ?_, ?_, h.flag, h.tried⟩
  · have := h.living
    show (s.live.erase pid).length + (s.deaths + 1) = s.processPool_.pids_.length
    omega
  · have := h.caused
    show s.processPool_.pids_.length + s.failedForks + (s.next (.die pid)).owed ≤
      n + (s.deaths + 1)
    omega

/-- The signal is taken, and the flag stands for it. -/
theorem accounted_parentSignalHandler {n : Nat} {s : Parent Pid} (h : s.Accounted n)
    (hsigchld : s.sigchld = true) : (s.next .parentSignalHandler).Accounted n := by
  have howed : (s.next .parentSignalHandler).owed ≤ s.owed := by
    simp only [owed, next, hsigchld]
    split <;> split <;> simp
  refine ⟨h.processNum_, h.ge_pids, h.pids_le, h.living, ?_, fun _ => rfl, h.tried⟩
  have := h.caused
  show s.processPool_.pids_.length + s.failedForks + (s.next .parentSignalHandler).owed ≤
    n + s.deaths
  omega

/-- What `createNewChildProcess` does to the accounts: while `pids_` has
    its first size it forks, and then never again. -/
theorem createNewChildProcess_cases {n : Nat} {s : Parent Pid} (h : s.Accounted n)
    (fork : Option Pid) :
    let s' := s.next (.createNewChildProcess fork)
    s'.processPool_.processNum_ = n ∧ s'.point = .replaced ∧
      s'.status_child_quit = s.status_child_quit ∧ s'.sigchld = s.sigchld ∧
      s'.deaths = s.deaths ∧
      ((s.processPool_.pids_.length = n ∧
          s'.processPool_.pids_.length + s'.failedForks = n + s.failedForks + 1 ∧
          s'.processPool_.pids_.length ≤ n + 1 ∧ n ≤ s'.processPool_.pids_.length ∧
          s'.live.length + n = s.live.length + s'.processPool_.pids_.length) ∨
        (s.processPool_.pids_.length = n + 1 ∧ s'.processPool_ = s.processPool_ ∧
          s'.failedForks = s.failedForks ∧ s'.live = s.live)) := by
  have hnum := h.processNum_
  have hge := h.ge_pids
  have hle := h.pids_le
  by_cases hforks : s.processPool_.forks = true
  · -- `pids_` still has its first size
    have hlen : s.processPool_.pids_.length = n := by
      rw [ProcessPool.forks, decide_eq_true_eq] at hforks
      omega
    simp only [next, if_pos hforks, ProcessPool.createNewChildProcess]
    refine ⟨hnum, trivial, trivial, trivial, trivial, Or.inl ⟨hlen, ?_⟩⟩
    cases fork with
    | none => simp; omega
    | some pid => simp; omega
  · -- it has forked before
    have hlen : s.processPool_.pids_.length = n + 1 := by
      rw [ProcessPool.forks, decide_eq_true_eq] at hforks
      omega
    simp only [next, if_neg hforks, ProcessPool.createNewChildProcess]
    exact ⟨hnum, trivial, trivial, trivial, trivial, Or.inr ⟨hlen, trivial, trivial, trivial⟩⟩

theorem accounted_createNewChildProcess {n : Nat} {s : Parent Pid} (h : s.Accounted n)
    (hpoint : s.point = .replacing) (fork : Option Pid) :
    (s.next (.createNewChildProcess fork)).Accounted n := by
  obtain ⟨hnum, hpoint', hflag', hsigchld', hdeaths', hcases⟩ := createNewChildProcess_cases h fork
  have hflag := h.flag (Or.inl hpoint)
  -- the death that the flag stands for is no longer owed a call
  have howed : s.owed = (s.next (.createNewChildProcess fork)).owed + 1 := by
    simp only [owed, hpoint', hsigchld', hflag, hpoint]
    simp
    omega
  have hcaused := h.caused
  have hliving := h.living
  rcases hcases with ⟨hlen, htotal, hle, hge, hlive⟩ | ⟨hlen, hpool, hfailed, hlive⟩
  · refine ⟨hnum, hge, hle, ?_, ?_, fun _ => hflag'.trans hflag, fun _ => ?_⟩
    · rw [hdeaths']
      omega
    · rw [hdeaths']
      omega
    · omega
  · refine ⟨hnum, ?_, ?_, ?_, ?_, fun _ => hflag'.trans hflag, fun _ => ?_⟩
    · rw [hpool]
      omega
    · rw [hpool]
      omega
    · rw [hpool, hlive, hdeaths']
      exact hliving
    · rw [hpool, hfailed, hdeaths']
      omega
    · rw [hpool]
      omega

omit [DecidableEq Pid] in
/-- The parent goes on in `start`, and no child comes or goes. -/
theorem Accounted.goesOn {n : Nat} {s s' : Parent Pid} (h : s.Accounted n)
    (hpool : s'.processPool_ = s.processPool_) (hlive : s'.live = s.live)
    (hdeaths : s'.deaths = s.deaths) (hfailed : s'.failedForks = s.failedForks)
    (howed : s'.owed ≤ s.owed) (hpoint : s'.point ≠ .replaced)
    (hflag : s'.point = .replacing → s'.status_child_quit = true) : s'.Accounted n := by
  refine ⟨?_, ?_, ?_, ?_, ?_, fun hp => hflag (hp.resolve_right hpoint), fun hp => absurd hp hpoint⟩
  · rw [hpool]
    exact h.processNum_
  · rw [hpool]
    exact h.ge_pids
  · rw [hpool]
    exact h.pids_le
  · rw [hpool, hlive, hdeaths]
    exact h.living
  · rw [hpool, hfailed, hdeaths]
    exact Nat.le_trans (Nat.add_le_add_left howed _) h.caused

/-- **Step**: the accounts balance after every step. -/
theorem accounted_next {n : Nat} {s : Parent Pid} (h : s.Accounted n) {l : ParentStep Pid}
    (hguard : s.guard l) : (s.next l).Accounted n := by
  cases l with
  | die pid => exact accounted_die h hguard
  | parentSignalHandler => exact accounted_parentSignalHandler h hguard
  | leaveLoop =>
    have hpoint : s.point = .inLoop := hguard
    have howed : (s.next .leaveLoop).owed = s.owed := by simp [owed, next, hpoint]
    refine h.goesOn rfl rfl rfl rfl (Nat.le_of_eq howed) StartPoint.noConfusion fun hp => ?_
    cases hp
  | testFlag =>
    have hpoint : s.point = .afterLoop := hguard
    have hne : (s.next .testFlag).point ≠ .replaced := by
      show (if s.status_child_quit then StartPoint.replacing else .inLoop) ≠ .replaced
      split
      · exact StartPoint.noConfusion
      · exact StartPoint.noConfusion
    have howed : (s.next .testFlag).owed = s.owed := by
      unfold owed
      rw [hpoint]
      simp [hne]
      rfl
    refine h.goesOn rfl rfl rfl rfl (Nat.le_of_eq howed) hne fun hp => ?_
    show s.status_child_quit = true
    by_contra hflag
    have hloop : (s.next .testFlag).point = .inLoop := if_neg hflag
    cases hloop.symm.trans hp
  | createNewChildProcess fork => exact accounted_createNewChildProcess h hguard.1 fork
  | clearFlag =>
    have howed : (s.next .clearFlag).owed ≤ s.owed := by
      simp only [owed, next]
      simp
    refine h.goesOn rfl rfl rfl rfl howed StartPoint.noConfusion fun hp => ?_
    cases hp

omit [DecidableEq Pid] in
/-- When the flag is cleared, the pool is full exactly if one worker has
    died and was replaced. -/
theorem clearFlag_iff {n : Nat} {s : Parent Pid} (h : s.Accounted n) (hpoint : s.point = .replaced) :
    s.live.length = s.processPool_.processNum_ ↔ s.deaths ≤ 1 ∧ s.failedForks = 0 := by
  have hnum := h.processNum_
  have hliving := h.living
  have hcaused := h.caused
  have hle := h.pids_le
  have hge := h.ge_pids
  have htried := h.tried hpoint
  rw [hnum]
  constructor
  · -- `pids_` holds `n + 1` pids at most, and `n` of these live
    intro hlive
    exact ⟨by omega, by omega⟩
  · -- no fork failed, so `createNewChildProcess` has added one
    rintro ⟨hdeaths, hfailed⟩
    omega

/-- **Step**: one that meets the condition keeps the pool full. -/
theorem staysFull_next {n : Nat} {s : Parent Pid} (h : s.Accounted n) (hfull : s.StaysFull)
    {l : ParentStep Pid} (hguard : s.guard l) (hcond : s.OneDeath l) : (s.next l).StaysFull := by
  cases l with
  | die pid =>
    -- the death has not been announced
    intro _ _ hsigchld
    cases hsigchld
  | parentSignalHandler =>
    intro _ hflag
    cases hflag
  | leaveLoop => exact fun _ => hfull (Or.inl hguard)
  | testFlag => exact fun _ => hfull (Or.inr hguard)
  | createNewChildProcess fork =>
    intro hpoint
    rw [(createNewChildProcess_cases h fork).2.1] at hpoint
    rcases hpoint with hp | hp
    · cases hp
    · cases hp
  | clearFlag =>
    intro _ _ hsigchld
    exact (clearFlag_iff h hguard).mpr (hcond hsigchld)

end Parent

end Process

end TinyWS
