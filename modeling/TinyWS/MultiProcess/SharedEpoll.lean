import TinyWS.MultiProcess.AcceptLock

/-! # What createNewChildProcess Leaves

    `createNewChildProcess` falls off its end in a new child, which leaves
    the loop by `break`, and in a process that does not enter the loop.
    `TcpServer::start` reads a value all the same and compares it with 0.
    Which value is there is up to the environment, so a step carries it.

    With 0 a process makes its loop and its epoll anew.  A child that finds
    another value goes on with the loop of its parent, and the epoll
    instance in the kernel is then one for both: what either registers is
    reported to either.

    Where every value is what `start` relies on, this is the machine of
    `TcpServer`. -/

namespace TinyWS

namespace Process

variable {Pid : Type}

namespace TcpServer

/-! ## The call -/

/-- What comes of the test of `status_child_quit`. -/
inductive Called (Pid : Type) where
  /-- There was no call of `createNewChildProcess`. -/
  | not
  /-- It returns the pid to the parent, and falls off its end in `q`. -/
  | forked (q : Pid)
  /-- It returns -1. -/
  | failed
  /-- The loop was not entered: it falls off its end. -/
  | full
  deriving DecidableEq, Repr

/-- `fork` is the pid of a new child, or `none` if `fork` fails. -/
def called (fork : Option Pid) (t : TcpServer Pid) : Called Pid :=
  if t.status_child_quit then
    if t.terminate.processPool_.forks then
      match fork with
      | some q => .forked q
      | none => .failed
    else .full
  else .not

/-- What is left is not what `start` relies on, which is 0 in a new child
    and a pid otherwise. -/
def Called.Misread (value : Int) : Called Pid → Prop
  | forked _ => value ≠ 0
  | full => value = 0
  | not | failed => False

instance (value : Int) : DecidablePred fun called : Called Pid => called.Misread value
  | .forked _ => inferInstanceAs (Decidable (value ≠ 0))
  | .full => inferInstanceAs (Decidable (value = 0))
  | .not | .failed => isFalse id

/-- Somebody reads such a value. -/
def Misreads (fork : Option Pid) (value : Int) (t : TcpServer Pid) : Prop :=
  (t.called fork).Misread value

instance (fork : Option Pid) (value : Int) (t : TcpServer Pid) :
    Decidable (t.Misreads fork value) :=
  inferInstanceAs (Decidable ((t.called fork).Misread value))

/-- The process that called, with `status_child_quit = 0`. -/
def parent (fork : Option Pid) (t : TcpServer Pid) : TcpServer Pid :=
  { t with
    processPool_ := t.processPool_.createNewChildProcess fork
    status_child_quit := false }

/-- The new child, a copy of its parent. -/
def forked (t : TcpServer Pid) : TcpServer Pid :=
  { t with status_child_quit := false, created := true, accepted := 0, missed := 0 }

/-- `delete loop_; loop_ = new EventLoop(); acceptor_->resetLoop(loop_);`. -/
def renewed (t : TcpServer Pid) : TcpServer Pid :=
  { t with loop_ := EventLoop.new, acceptor_ := t.acceptor_.resetLoop }

/-- The interest of an epoll instance that the process shares. -/
def sees (ep : Epoll) (t : TcpServer Pid) : TcpServer Pid :=
  { t with
    loop_ := { t.loop_ with epoll_ := { t.loop_.epoll_ with interest := ep.interest } } }

end TcpServer

/-! ## All processes -/

/-- An epoll instance in the kernel. -/
inductive EpollFd (Pid : Type) where
  /-- Made by the constructor of `TcpServer` in this process. -/
  | first (p : Pid)
  /-- Made by `start`, with the number of those before. -/
  | later (n : Nat)
  deriving DecidableEq, Repr

/-- Whether `start` has made it. -/
def EpollFd.anew : EpollFd Pid → Bool
  | first _ => false
  | later _ => true

/-- The processes with the epoll instances that they hold.  Every process
    has its own `channels_`; the interest is that of the instance. -/
structure SharedServer (Pid : Type) where
  server : Server Pid
  epollfd_ : Pid → EpollFd Pid
  /-- The instances that `start` has made. -/
  renewals : Nat

structure SharedStep (Pid : Type) where
  step : ServerStep Pid
  /-- What is read when `createNewChildProcess` falls off its end. -/
  value : Int
  deriving DecidableEq, Repr

namespace SharedServer

def started (sockfd : Int) (pools : Pid → Option (ProcessPool Pid)) : SharedServer Pid where
  server := Server.started sockfd pools
  epollfd_ := .first
  renewals := 0

def guard (s : SharedServer Pid) (l : SharedStep Pid) : Prop := s.server.guard l.step

variable [DecidableEq Pid]

/-- `p` goes on as `t`. -/
def put (p : Pid) (t : TcpServer Pid) (s : SharedServer Pid) : SharedServer Pid :=
  { s with server := { s.server with process := Function.update s.server.process p (some t) } }

/-- `epoll_create1` in `p`. -/
def opens (p : Pid) (s : SharedServer Pid) : SharedServer Pid :=
  { s with
    epollfd_ := Function.update s.epollfd_ p (.later s.renewals)
    renewals := s.renewals + 1 }

/-- The child `q` has the descriptors of `p`. -/
def shares (q p : Pid) (s : SharedServer Pid) : SharedServer Pid :=
  { s with epollfd_ := Function.update s.epollfd_ q (s.epollfd_ p) }

/-- The rest of the loop body in `start`, from where `loop()` returns. -/
def start (p : Pid) (fork : Option Pid) (value : Int) (t : TcpServer Pid)
    (s : SharedServer Pid) : SharedServer Pid :=
  match t.called fork with
  | .not => s.put p t.terminate.again
  | .failed => s.put p (t.terminate.parent none).again
  | .forked q =>
      let s := s.put p (t.terminate.parent (some q)).again
      if value = 0 then (s.opens q).put q t.terminate.forked.renewed.again
      else (s.shares q p).put q t.terminate.forked.again
  | .full =>
      if value = 0 then (s.opens p).put p (t.terminate.parent fork).renewed.again
      else s.put p (t.terminate.parent fork).again

/-- `p` goes on as `t` with the lock as `m`, and who shares its epoll
    instance sees what it has registered there. -/
def moves (p : Pid) (m : ProcessMutexLock Pid) (t : TcpServer Pid) (s : SharedServer Pid) :
    SharedServer Pid :=
  { s with
    server :=
      { mutex := m
        process q :=
          if q = p then some t
          else if s.epollfd_ q = s.epollfd_ p then
            (s.server.process q).map (TcpServer.sees t.loop_.epoll_)
          else s.server.process q } }

def next (s : SharedServer Pid) (l : SharedStep Pid) : SharedServer Pid :=
  match s.server.process l.step.actor with
  | none => s
  | some t =>
      match l.step with
      | .afterLoop p fork => s.start p fork l.value t
      | step =>
          s.moves step.actor (step.effect s.server.mutex t).1 (step.effect s.server.mutex t).2

end SharedServer

/-- Any interleaving, and any values. -/
def shared [DecidableEq Pid] : Machine (SharedServer Pid) (SharedStep Pid) where
  guard := SharedServer.guard
  next := SharedServer.next

instance [DecidableEq Pid] (s : SharedServer Pid) (l : SharedStep Pid) :
    Decidable (shared.guard s l) := inferInstanceAs (Decidable (s.server.guard l.step))

/-! ## Values that start relies on -/

namespace TcpServer

/-- `afterLoop`, by what comes of the test. -/
theorem afterLoop_called (fork : Option Pid) (t : TcpServer Pid) :
    t.afterLoop fork =
      match t.called fork with
      | .not => (t.terminate.again, none)
      | .forked _ | .failed => ((t.terminate.parent fork).again, some t.terminate.child.again)
      | .full => ((t.terminate.parent fork).again, none) := by
  have hstatus : t.terminate.status_child_quit = t.status_child_quit := by
    obtain ⟨pool, running, hterminate⟩ := terminate_eq t
    rw [hterminate]
  unfold afterLoop called
  dsimp only
  rw [hstatus]
  cases t.status_child_quit with
  | false => rfl
  | true =>
    cases t.terminate.processPool_.forks with
    | false => rfl
    | true =>
      cases fork with
      | none => rfl
      | some q => rfl

/-- A child is there when `fork` has returned its pid. -/
theorem called_cases (fork : Option Pid) (t : TcpServer Pid) :
    t.called fork = .not ∨ (∃ q, fork = some q ∧ t.called fork = .forked q) ∨
      (fork = none ∧ t.called fork = .failed) ∨ t.called fork = .full := by
  unfold called
  split
  · split
    · cases fork with
      | none => exact .inr (.inr (.inl ⟨rfl, rfl⟩))
      | some q => exact .inr (.inl ⟨q, rfl, rfl⟩)
    · exact .inr (.inr (.inr rfl))
  · exact .inl rfl

end TcpServer

/-- What `start` makes of the processes. -/
theorem Server.next_afterLoop [DecidableEq Pid] {s : Server Pid} {p : Pid} {t : TcpServer Pid}
    {fork : Option Pid} (ht : s.process p = some t) :
    s.next (.afterLoop p fork) =
      match t.called fork with
      | .not => { s with process := Function.update s.process p (some t.terminate.again) }
      | .forked q =>
          { s with
            process := Function.update
              (Function.update s.process p (some (t.terminate.parent fork).again)) q
              (some t.terminate.child.again) }
      | .failed | .full =>
          { s with
            process := Function.update s.process p (some (t.terminate.parent fork).again) } := by
  have hafter := TcpServer.afterLoop_called fork t
  rw [next_eq (l := .afterLoop p fork) ht]
  rcases TcpServer.called_cases fork t with
    hcalled | ⟨q, rfl, hcalled⟩ | ⟨rfl, hcalled⟩ | hcalled
  · rw [hcalled] at hafter ⊢
    have hchild : (ServerStep.afterLoop p fork).child t = none := by
      cases fork with
      | none => rfl
      | some q => rw [ServerStep.child, hafter, Option.map_none]
    rw [hchild]
    simp only [ServerStep.effect, hafter]
    rfl
  · rw [hcalled] at hafter ⊢
    simp only [ServerStep.effect, ServerStep.child, hafter]
    rfl
  · rw [hcalled] at hafter ⊢
    simp only [ServerStep.effect, hafter]
    rfl
  · rw [hcalled] at hafter ⊢
    have hchild : (ServerStep.afterLoop p fork).child t = none := by
      cases fork with
      | none => rfl
      | some q => rw [ServerStep.child, hafter, Option.map_none]
    rw [hchild]
    simp only [ServerStep.effect, hafter]
    rfl

namespace SharedServer

variable [DecidableEq Pid] {s : SharedServer Pid} {l : SharedStep Pid} {p : Pid}
  {t : TcpServer Pid} {fork : Option Pid} {value : Int}

theorem next_afterLoop (ht : s.server.process p = some t) :
    s.next ⟨.afterLoop p fork, value⟩ = s.start p fork value t := by
  have hactor : s.server.process (ServerStep.afterLoop p fork).actor = some t := ht
  simp only [next, hactor]

theorem next_moves (ht : s.server.process l.step.actor = some t)
    (hl : ∀ p fork, l.step ≠ .afterLoop p fork) :
    s.next l = s.moves l.step.actor (l.step.effect s.server.mutex t).1
      (l.step.effect s.server.mutex t).2 := by
  obtain ⟨step, value⟩ := l
  cases step with
  | afterLoop p fork => exact absurd rfl (hl p fork)
  | loopHead | poll | accept | afterAccept | check | handle | signal | sigchld | die =>
    simp only [next, ht]

/-- In this step somebody reads another value than `start` relies on. -/
def Misreads (s : SharedServer Pid) (l : SharedStep Pid) : Prop :=
  match l.step with
  | .afterLoop p fork => ∃ t ∈ s.server.process p, t.Misreads fork l.value
  | _ => False

/-- Nobody shares an epoll instance. -/
structure Unshared (s : SharedServer Pid) : Prop where
  own : ∀ p q, s.epollfd_ p = s.epollfd_ q → p = q
  numbered : ∀ p n, s.epollfd_ p = .later n → n < s.renewals

omit [DecidableEq Pid] in
theorem unshared_started (sockfd : Int) (pools : Pid → Option (ProcessPool Pid)) :
    (started sockfd pools).Unshared :=
  ⟨fun _ _ h => EpollFd.first.inj h, fun _ _ h => (by cases h)⟩

theorem unshared_opens (h : s.Unshared) (p : Pid) : (s.opens p).Unshared := by
  -- the new instance is nobody's yet
  have hfresh : ∀ q, s.epollfd_ q ≠ .later s.renewals := fun q hq =>
    absurd (h.numbered q s.renewals hq) (Nat.lt_irrefl _)
  refine ⟨fun q r hqr => ?_, fun q n hq => ?_⟩
  · simp only [opens, Function.update_apply] at hqr
    split at hqr
    · split at hqr
      · next hq hr => exact hq.trans hr.symm
      · exact absurd hqr.symm (hfresh r)
    · split at hqr
      · exact absurd hqr (hfresh q)
      · exact h.own q r hqr
  · simp only [opens, Function.update_apply] at hq ⊢
    split at hq
    · cases hq
      exact Nat.lt_succ_self _
    · exact Nat.lt_succ_of_lt (h.numbered q n hq)

theorem server_moves (h : s.Unshared) (p : Pid) (m : ProcessMutexLock Pid) (t : TcpServer Pid) :
    (s.moves p m t).server =
      { mutex := m, process := Function.update s.server.process p (some t) } := by
  refine congrArg (Server.mk m) (funext fun q => ?_)
  by_cases hq : q = p
  · rw [if_pos hq, hq, Function.update_self]
  · rw [if_neg hq, if_neg (fun heq => hq (h.own q p heq)), Function.update_of_ne hq]

theorem server_start (h : s.Unshared) (ht : s.server.process p = some t)
    (hreads : ¬ t.Misreads fork value) :
    (s.start p fork value t).server = s.server.next (.afterLoop p fork) ∧
      (s.start p fork value t).Unshared := by
  rw [Server.next_afterLoop ht]
  unfold TcpServer.Misreads at hreads
  unfold start
  rcases TcpServer.called_cases fork t with
    hcalled | ⟨q, rfl, hcalled⟩ | ⟨rfl, hcalled⟩ | hcalled
  · rw [hcalled]
    exact ⟨rfl, h.own, h.numbered⟩
  · rw [hcalled] at hreads ⊢
    have hzero : value = 0 := not_not.mp hreads
    simp only [if_pos hzero]
    exact ⟨rfl, (unshared_opens h q).own, (unshared_opens h q).numbered⟩
  · rw [hcalled]
    exact ⟨rfl, h.own, h.numbered⟩
  · rw [hcalled] at hreads ⊢
    have hne : ¬ value = 0 := hreads
    simp only [if_neg hne]
    exact ⟨rfl, h.own, h.numbered⟩

/-- **Step**: where nobody misreads, this machine steps as the one of
    `TcpServer`, and everybody keeps an epoll instance of its own. -/
theorem server_next (h : s.Unshared) (hguard : s.guard l) (hreads : ¬ s.Misreads l) :
    (s.next l).server = s.server.next l.step ∧ (s.next l).Unshared := by
  obtain ⟨t, ht, -⟩ := hguard.1
  by_cases hl : ∀ p fork, l.step ≠ .afterLoop p fork
  · rw [next_moves ht hl, Server.next_eq ht, server_moves h, ServerStep.child_eq_none hl]
    exact ⟨rfl, h.own, h.numbered⟩
  · simp only [not_forall, not_not] at hl
    obtain ⟨p, fork, hstep⟩ := hl
    obtain ⟨step, value⟩ := l
    obtain rfl : step = .afterLoop p fork := hstep
    have ht : s.server.process p = some t := ht
    rw [next_afterLoop ht]
    exact server_start h ht fun hmis => hreads ⟨t, ht, hmis⟩

/-- **Run**: where nobody misreads, a run of this machine is one of
    `server`. -/
theorem server_run {steps : List (SharedStep Pid)} (h : s.Unshared)
    (hvalid : shared.Valid s steps) (hreads : shared.Along (fun s l => ¬ s.Misreads l) s steps) :
    Process.server.Valid s.server (steps.map SharedStep.step) ∧
      (shared.run s steps).server = Process.server.run s.server (steps.map SharedStep.step) := by
  induction steps generalizing s with
  | nil => exact ⟨trivial, rfl⟩
  | cons l steps ih =>
    obtain ⟨hserver, hunshared⟩ := server_next h hvalid.1 hreads.1
    obtain ⟨hrest, hend⟩ := ih hunshared hvalid.2 hreads.2
    rw [hserver] at hrest hend
    exact ⟨⟨hvalid.1, hrest⟩, hend⟩

/-- Such a run from the start. -/
theorem server_run_started (sockfd : Int) (pools : Pid → Option (ProcessPool Pid))
    (steps : List (SharedStep Pid)) (hvalid : shared.Valid (started sockfd pools) steps)
    (hreads : shared.Along (fun s l => ¬ s.Misreads l) (started sockfd pools) steps) :
    Process.server.Valid (Server.started sockfd pools) (steps.map SharedStep.step) ∧
      (shared.run (started sockfd pools) steps).server =
        Process.server.run (Server.started sockfd pools) (steps.map SharedStep.step) :=
  server_run (unshared_started sockfd pools) hvalid hreads

end SharedServer

/-! ## Any values

    Whatever is left, and whoever shares what, the processes differ from
    those of `server` in their loops and acceptors only. -/

namespace TcpServer

/-- `u` is `t` with another loop and another acceptor. -/
def SameStart (t u : TcpServer Pid) : Prop :=
  ∃ loop acceptor, u = { t with loop_ := loop, acceptor_ := acceptor }

theorem SameStart.refl (t : TcpServer Pid) : SameStart t t := ⟨_, _, rfl⟩

theorem sameStart_sees (ep : Epoll) (t : TcpServer Pid) : SameStart t (t.sees ep) := ⟨_, _, rfl⟩

theorem sameStart_renewed (t : TcpServer Pid) : SameStart t t.renewed := ⟨_, _, rfl⟩

theorem SameStart.again {t u : TcpServer Pid} (h : SameStart t u) : SameStart t.again u.again := by
  obtain ⟨loop, acceptor, rfl⟩ := h
  unfold TcpServer.again
  split
  · exact ⟨_, _, rfl⟩
  · exact ⟨_, _, rfl⟩

theorem SameStart.point {t u : TcpServer Pid} (h : SameStart t u) : u.point = t.point := by
  obtain ⟨loop, acceptor, rfl⟩ := h
  rfl

theorem SameStart.processPool_ {t u : TcpServer Pid} (h : SameStart t u) :
    u.processPool_ = t.processPool_ := by
  obtain ⟨loop, acceptor, rfl⟩ := h
  rfl

theorem SameStart.status_child_quit {t u : TcpServer Pid} (h : SameStart t u) :
    u.status_child_quit = t.status_child_quit := by
  obtain ⟨loop, acceptor, rfl⟩ := h
  rfl

theorem SameStart.symm {t u : TcpServer Pid} (h : SameStart t u) : SameStart u t := by
  obtain ⟨loop, acceptor, rfl⟩ := h
  exact ⟨t.loop_, t.acceptor_, rfl⟩

end TcpServer

namespace SharedServer

variable [DecidableEq Pid] {s : SharedServer Pid} {l : SharedStep Pid}

/-- **Step**: the processes are those of `server` but for the loops. -/
theorem sameStart_next (hguard : s.guard l) (q : Pid) :
    Option.Rel TcpServer.SameStart ((s.server.next l.step).process q)
      ((s.next l).server.process q) := by
  obtain ⟨t, ht, -⟩ := hguard.1
  have hrefl : ∀ o : Option (TcpServer Pid), Option.Rel TcpServer.SameStart o o := by
    intro o
    cases o with
    | none => exact .none
    | some u => exact .some (.refl u)
  by_cases hl : ∀ p fork, l.step ≠ .afterLoop p fork
  · rw [next_moves ht hl, Server.next_eq ht, ServerStep.child_eq_none hl]
    show Option.Rel _ (Function.update s.server.process l.step.actor _ q) _
    by_cases hq : q = l.step.actor
    · simp only [moves, if_pos hq]
      rw [hq, Function.update_self]
      exact hrefl _
    · simp only [moves, if_neg hq]
      rw [Function.update_of_ne hq]
      split
      · cases s.server.process q with
        | none => exact .none
        | some u => exact .some (TcpServer.sameStart_sees _ u)
      · exact hrefl _
  · simp only [not_forall, not_not] at hl
    obtain ⟨p, fork, hstep⟩ := hl
    obtain ⟨step, value⟩ := l
    obtain rfl : step = .afterLoop p fork := hstep
    have ht : s.server.process p = some t := ht
    rw [next_afterLoop ht, Server.next_afterLoop ht]
    -- one process is put in the place of another
    have hput : ∀ {f g : Pid → Option (TcpServer Pid)} {t u : TcpServer Pid} (r : Pid),
        Option.Rel TcpServer.SameStart (f q) (g q) → TcpServer.SameStart t u →
          Option.Rel TcpServer.SameStart (Function.update f r (some t) q)
            (Function.update g r (some u) q) := by
      intro f g t u r hfg htu
      rw [Function.update_apply, Function.update_apply]
      split
      · exact .some htu
      · exact hfg
    unfold start
    rcases TcpServer.called_cases fork t with
      hcalled | ⟨k, rfl, hcalled⟩ | ⟨rfl, hcalled⟩ | hcalled
    · rw [hcalled]
      exact hrefl _
    · rw [hcalled]
      have hchild : TcpServer.SameStart t.terminate.child.again t.terminate.forked.again :=
        (TcpServer.sameStart_renewed t.terminate.forked).symm.again
      dsimp only
      split
      · exact hrefl _
      · exact hput k (hput p (hrefl _) (.refl _)) hchild
    · rw [hcalled]
      exact hrefl _
    · rw [hcalled]
      dsimp only
      split
      · exact hput p (hrefl _) (TcpServer.sameStart_renewed _).again
      · exact hrefl _

variable {q : Pid} {t u v : TcpServer Pid}

/-- A process of `server` after the step is one here. -/
theorem process_next_of_some (hguard : s.guard l)
    (hv : (s.server.next l.step).process q = some v) :
    ∃ u, (s.next l).server.process q = some u ∧ TcpServer.SameStart v u := by
  have hrel := sameStart_next hguard q
  rw [hv] at hrel
  cases hu : (s.next l).server.process q with
  | none =>
    rw [hu] at hrel
    cases hrel
  | some u =>
    rw [hu] at hrel
    cases hrel with
    | some hsame => exact ⟨u, rfl, hsame⟩

/-- **Inversion**: a process after a step is the actor gone on, one that
    stayed, or a new child, but for its loop and its acceptor. -/
theorem process_next_cases (hguard : s.guard l) (ht : s.server.process l.step.actor = some t)
    (hu : (s.next l).server.process q = some u) :
    ∃ v, TcpServer.SameStart v u ∧
      ((q = l.step.actor ∧ v = (l.step.effect s.server.mutex t).2) ∨
        (q ≠ l.step.actor ∧ s.server.process q = some v) ∨
        (s.server.process q = none ∧ l.step.child t = some (q, v))) := by
  have hrel := sameStart_next hguard q
  rw [hu] at hrel
  cases hv : (s.server.next l.step).process q with
  | none =>
    rw [hv] at hrel
    cases hrel
  | some v =>
    rw [hv] at hrel
    cases hrel with
    | some hsame => exact ⟨v, hsame, Server.process_next_cases hguard ht hv⟩

end SharedServer

end Process

end TinyWS
