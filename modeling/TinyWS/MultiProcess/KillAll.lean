import TinyWS.MultiProcess.Termination
import TinyWS.MultiProcess.SharedEpoll

/-! # Terminating a Worker

    Parent and children run the same `TcpServer::start`: whoever is told to
    terminate calls `killAll`, which sends `SIGINT` to the pids in `pids_`.
    It is meant for the parent.  A child has the copy of `pids_` that it got
    when it was forked, and nothing adds to it, as only the parent is told
    of deaths.  So it takes with it whoever was forked before it. -/

namespace TinyWS

namespace Process

variable {Pid : Type}

namespace ProcessPool

/-- The pool in a child of the constructor, where `before` are the forks
    before its own. -/
def inChild (processNum : Nat) (before : List (Option Pid)) : ProcessPool Pid :=
  createChildProcess ⟨processNum, []⟩ before

/-- A child of the constructor has the pids of the workers before it. -/
theorem pids_inChild (processNum : Nat) (before : List (Option Pid)) :
    (inChild processNum before).pids_ = before.flatMap Option.toList := by
  rw [inChild, createChildProcess_eq, List.nil_append]

theorem pids_new (forks : List (Option Pid)) : (new forks).pids_ = forks.flatMap Option.toList := by
  rw [new, createChildProcess_eq, List.nil_append]

/-- The pools of the parent and of its workers, each in its own memory. -/
def afterForks [DecidableEq Pid] (parent : Pid) (forks : List (Option Pid)) (p : Pid) :
    Option (ProcessPool Pid) :=
  if p = parent then some (new forks)
  else (forks.idxOf? (some p)).map fun i => inChild forks.length (forks.take i)

end ProcessPool

namespace Server

/-- A signal to `q` finds a process.  No pid is used twice. -/
def Alive (s : Server Pid) (q : Pid) : Prop := ∃ u ∈ s.process q, u.point ≠ .dead

instance (s : Server Pid) (q : Pid) : Decidable (s.Alive q) :=
  inferInstanceAs (Decidable (∃ u ∈ s.process q, _))

end Server

/-! ## Signals -/

/-- The processes, and two histories: the forks that succeeded, with who
    called `fork` and whom it made, and what `killAll` has sent, with the
    sender and the process that the signal found. -/
structure Signalling (Pid : Type) where
  shared : SharedServer Pid
  forked : List (Pid × Pid)
  signals : List (Pid × Pid)

namespace Signalling

variable [DecidableEq Pid]

/-- The pool was made by its constructor in the process `parent`, and all
    processes have called `start`. -/
def started (sockfd : Int) (parent : Pid) (forks : List (Option Pid)) : Signalling Pid where
  shared := SharedServer.started sockfd (ProcessPool.afterForks parent forks)
  forked := (forks.flatMap Option.toList).map fun q => (parent, q)
  signals := []

omit [DecidableEq Pid] in
/-- The children, in the order in which they were forked. -/
def order (s : Signalling Pid) : List Pid := s.forked.map Prod.snd

/-- The children forked before `p`. -/
def elders (s : Signalling Pid) (p : Pid) : List Pid := s.order.take (s.order.idxOf p)

omit [DecidableEq Pid] in
/-- The fork of `createNewChildProcess`. -/
def forks (s : Signalling Pid) (l : SharedStep Pid) : List (Pid × Pid) :=
  match s.shared.server.process l.step.actor with
  | none => []
  | some t => ((l.step.child t).map fun child => (l.step.actor, child.1)).toList

omit [DecidableEq Pid] in
/-- `killAll`, called by `p`: a `::kill` for each pid. -/
def killAll (s : Signalling Pid) (p : Pid) (pool : ProcessPool Pid) : List (Pid × Pid) :=
  (pool.pids_.filter fun q => s.shared.server.Alive q).map fun q => (p, q)

omit [DecidableEq Pid] in
/-- `killAll` is called where `loop()` has returned. -/
def sends (s : Signalling Pid) (l : SharedStep Pid) : List (Pid × Pid) :=
  match l.step with
  | .afterLoop p _ =>
      match s.shared.server.process p with
      | none => []
      | some t => if t.toldToStop then s.killAll p t.processPool_ else []
  | _ => []

def next (s : Signalling Pid) (l : SharedStep Pid) : Signalling Pid where
  shared := s.shared.next l
  forked := s.forked ++ s.forks l
  signals := s.signals ++ s.sends l

omit [DecidableEq Pid] in
/-- The kernel sends `SIGCHLD` to the process that forked the dead one. -/
def Announced (s : Signalling Pid) (l : SharedStep Pid) : Prop :=
  match l.step with
  | .sigchld p q => (p, q) ∈ s.forked
  | _ => True

instance (s : Signalling Pid) : DecidablePred s.Announced
  | ⟨.sigchld p q, _⟩ => inferInstanceAs (Decidable ((p, q) ∈ s.forked))
  | ⟨.loopHead _, _⟩ | ⟨.poll _ _, _⟩ | ⟨.accept _, _⟩ | ⟨.afterAccept _, _⟩ | ⟨.check _, _⟩
  | ⟨.handle _ _, _⟩ | ⟨.afterLoop _ _, _⟩ | ⟨.signal _ _, _⟩ | ⟨.die _, _⟩ => isTrue trivial

end Signalling

/-- The runs of the processes, with the histories. -/
def signalling [DecidableEq Pid] : Machine (Signalling Pid) (SharedStep Pid) where
  guard s l := s.shared.guard l ∧ s.Announced l
  next := Signalling.next

instance [DecidableEq Pid] (s : Signalling Pid) (l : SharedStep Pid) :
    Decidable (signalling.guard s l) :=
  inferInstanceAs (Decidable (s.shared.server.guard l.step ∧ s.Announced l))

namespace Signalling

/-! ## The specification -/

/-- No child has sent a signal to another process. -/
def ChildrenSilent (parent : Pid) (s : Signalling Pid) : Prop :=
  ∀ k ∈ s.signals, k.1 ≠ parent → k.2 = k.1

instance [DecidableEq Pid] (parent : Pid) (s : Signalling Pid) :
    Decidable (s.ChildrenSilent parent) :=
  inferInstanceAs (Decidable (∀ k ∈ s.signals, _ → _))

/-- The condition of the runs: when a child that is told to stop comes out
    of `loop()`, all children that were forked before it have ended. -/
def StopsLast [DecidableEq Pid] (parent : Pid) (s : Signalling Pid) (l : SharedStep Pid) : Prop :=
  match l.step with
  | .afterLoop p _ =>
      p ≠ parent → ∀ t ∈ s.shared.server.process p, t.toldToStop = true →
        ∀ q ∈ s.elders p, ¬ s.shared.server.Alive q
  | _ => True

instance [DecidableEq Pid] (parent : Pid) (s : Signalling Pid) :
    DecidablePred (s.StopsLast parent)
  | ⟨.afterLoop p _, _⟩ =>
      inferInstanceAs (Decidable (p ≠ parent → ∀ t ∈ s.shared.server.process p, _ → ∀ q ∈ _, ¬ _))
  | ⟨.loopHead _, _⟩ | ⟨.poll _ _, _⟩ | ⟨.accept _, _⟩ | ⟨.afterAccept _, _⟩ | ⟨.check _, _⟩
  | ⟨.handle _ _, _⟩ | ⟨.signal _ _, _⟩ | ⟨.sigchld _ _, _⟩ | ⟨.die _, _⟩ => isTrue trivial

/-! ## Whom a process knows -/

/-- The process has had no news of a death, and has the pids `pids` as long
    as it is in `start`. -/
structure Inherits (pids : List Pid) (t : TcpServer Pid) : Prop where
  status_child_quit : t.status_child_quit = false
  pids_ : t.point ≠ .left → t.point ≠ .dead → t.processPool_.pids_ = pids

section Inherited

variable [DecidableEq Pid] {pids : List Pid} {t : TcpServer Pid} {p : Pid}

omit [DecidableEq Pid] in
/-- The rest of `start`: who calls `killAll` leaves. -/
theorem inherits_afterLoop (h : Inherits pids t) (hpoint : t.point = .afterLoop)
    (fork : Option Pid) : Inherits pids (t.afterLoop fork).1 := by
  have hpids : t.processPool_.pids_ = pids := by
    apply h.pids_
    · rw [hpoint]
      exact Point.noConfusion
    · rw [hpoint]
      exact Point.noConfusion
  cases hstop : t.toldToStop with
  -- it leaves, and its pids do not matter any more
  | true =>
    have hleft := TcpServer.point_afterLoop_off hstop fork
    refine ⟨?_, fun hne => absurd hleft hne⟩
    have hquit : t.terminate.status_child_quit = false := by
      unfold TcpServer.terminate
      split
      · exact h.status_child_quit
      · exact h.status_child_quit
    unfold TcpServer.afterLoop
    dsimp only
    rw [if_neg (by rw [hquit]; exact Bool.false_ne_true)]
    exact (TcpServer.sameCourse_again _).status_child_quit.trans hquit
  -- without news of a death it does not fork, and goes round again
  | false =>
    have hterminate : t.terminate = t := by
      rw [TcpServer.toldToStop] at hstop
      rw [TcpServer.terminate, hstop]
      rfl
    unfold TcpServer.afterLoop
    dsimp only
    rw [hterminate, if_neg (by rw [h.status_child_quit]; exact Bool.false_ne_true)]
    refine ⟨(TcpServer.sameCourse_again t).status_child_quit.trans h.status_child_quit, ?_⟩
    intro _ _
    unfold TcpServer.again
    split
    · exact hpids
    · exact hpids

/-- **Step** of one process: without news of a death it keeps its pids. -/
theorem inherits_effect {l : ServerStep Pid} {m : ProcessMutexLock Pid} (h : Inherits pids t)
    (hready : l.Ready t) (hsigchld : ∀ p q, l ≠ .sigchld p q) : Inherits pids (l.effect m t).2 := by
  by_cases hafter : ∃ p fork, l = .afterLoop p fork
  · obtain ⟨p, fork, rfl⟩ := hafter
    exact inherits_afterLoop h hready fork
  · -- nothing else sets `status_child_quit` or touches the pool
    simp only [not_exists] at hafter
    have hstatus := (ServerStep.sameCourse_effect m t hafter hsigchld).status_child_quit
    refine ⟨hstatus.trans h.status_child_quit, fun hleft hdead => ?_⟩
    rw [ServerStep.processPool_effect m t hafter]
    by_cases hend : t.point = .left ∨ t.point = .dead
    · -- it can only be killed
      obtain ⟨p, rfl⟩ := ServerStep.eq_die_of_ready hready hend
      exact absurd rfl hdead
    · exact h.pids_ (fun hp => hend (Or.inl hp)) fun hp => hend (Or.inr hp)

omit [DecidableEq Pid] in
/-- A replacement has the pids that the parent has when it forks it, unless
    it leaves at once. -/
theorem inherits_child (h : t.processPool_.pids_ = pids) :
    Inherits pids t.terminate.child.again := by
  cases hstop : t.toldToStop with
  | true =>
    have hrunning : t.terminate.child.running = false := by
      rw [TcpServer.toldToStop] at hstop
      show t.terminate.running = false
      rw [TcpServer.terminate, hstop]
      rfl
    have hagain : t.terminate.child.again = { t.terminate.child with point := .left } :=
      if_neg (by rw [hrunning]; exact Bool.false_ne_true)
    rw [hagain]
    exact ⟨rfl, fun hleft => absurd rfl hleft⟩
  | false =>
    have hterminate : t.terminate = t := by
      rw [TcpServer.toldToStop] at hstop
      rw [TcpServer.terminate, hstop]
      rfl
    rw [hterminate]
    unfold TcpServer.again
    split
    · exact ⟨rfl, fun _ _ => h⟩
    · exact ⟨rfl, fun _ _ => h⟩

omit [DecidableEq Pid] in
theorem Inherits.sameStart {u : TcpServer Pid} (h : Inherits pids t)
    (hsame : TcpServer.SameStart t u) : Inherits pids u := by
  refine ⟨hsame.status_child_quit.trans h.status_child_quit, ?_⟩
  rw [hsame.point, hsame.processPool_]
  exact h.pids_

end Inherited

/-- **Invariant**: only the parent forks.  It knows its children in the
    order in which it forked them, and each of them knows those that were
    forked before it. -/
structure Ordered [DecidableEq Pid] (parent : Pid) (s : Signalling Pid) : Prop where
  forked : ∀ k ∈ s.forked, k.1 = parent ∧ s.shared.server.process k.2 ≠ none
  knows : ∃ t, s.shared.server.process parent = some t ∧
    (t.point ≠ .left → t.point ≠ .dead → t.processPool_.pids_ = s.order)
  child : ∀ p t, p ≠ parent → s.shared.server.process p = some t →
    p ∈ s.order ∧ Inherits (s.elders p) t

section Ordered

variable [DecidableEq Pid] {s : Signalling Pid} {l : SharedStep Pid} {parent p q : Pid}
  {t : TcpServer Pid}

/-- What stands in front of `p` does not change behind it. -/
theorem take_idxOf_append {l : List Pid} (hp : p ∈ l) (r : List Pid) :
    (l ++ r).take ((l ++ r).idxOf p) = l.take (l.idxOf p) := by
  rw [List.idxOf_append_of_mem hp, List.take_append_of_le_length List.idxOf_le_length]

theorem take_idxOf_concat {l : List Pid} (hp : p ∉ l) (r : List Pid) :
    (l ++ p :: r).take ((l ++ p :: r).idxOf p) = l := by
  rw [List.idxOf_append_of_notMem hp, List.idxOf_cons_self, Nat.add_zero, List.take_left]

/-- Nobody was forked before itself. -/
theorem not_mem_elders (s : Signalling Pid) (p : Pid) : p ∉ s.elders p := by
  intro hmem
  have hp : p ∈ s.order := List.mem_of_mem_take hmem
  exact Nat.lt_irrefl _ ((List.mem_take_iff_idxOf_lt hp).mp hmem)

theorem order_started (sockfd : Int) (parent : Pid) (forks : List (Option Pid)) :
    (started sockfd parent forks).order = forks.flatMap Option.toList := by
  simp [order, started, Function.comp_def]

/-- A worker of the constructor was forked behind those whose pids it has. -/
theorem elders_started {sockfd : Int} {forks : List (Option Pid)} {i : Nat}
    (hfork : forks.idxOf? (some p) = some i) :
    p ∈ (started sockfd parent forks).order ∧
      (started sockfd parent forks).elders p = (forks.take i).flatMap Option.toList := by
  obtain ⟨hi, hself, hbefore⟩ := List.idxOf?_eq_some_iff.mp hfork
  have hsplit : forks.flatMap Option.toList = (forks.take i).flatMap Option.toList ++
      p :: (forks.drop (i + 1)).flatMap Option.toList := by
    conv_lhs => rw [← List.take_append_drop i forks, List.drop_eq_getElem_cons hi, hself]
    rw [List.flatMap_append, List.flatMap_cons]
    rfl
  have hnot : p ∉ (forks.take i).flatMap Option.toList := by
    intro hmem
    obtain ⟨fork, hin, hp⟩ := List.mem_flatMap.mp hmem
    rw [Option.mem_toList] at hp
    obtain ⟨j, hj, hget⟩ := List.mem_iff_getElem.mp hin
    rw [List.length_take] at hj
    rw [List.getElem_take, hp] at hget
    exact hbefore j (by omega) hget
  rw [elders, order_started, hsplit]
  exact ⟨List.mem_append_right _ List.mem_cons_self, take_idxOf_concat hnot _⟩

theorem ordered_started (sockfd : Int) (parent : Pid) (forks : List (Option Pid)) :
    (started sockfd parent forks).Ordered parent := by
  have hprocess : ∀ p, (started sockfd parent forks).shared.server.process p =
      (ProcessPool.afterForks parent forks p).map (TcpServer.started sockfd) := fun p => rfl
  have hparent : ProcessPool.afterForks parent forks parent = some (ProcessPool.new forks) :=
    if_pos rfl
  refine ⟨fun k hk => ?_, ⟨TcpServer.started sockfd (ProcessPool.new forks), ?_, fun _ _ => ?_⟩,
    fun p t hp ht => ?_⟩
  · obtain ⟨q, hq, rfl⟩ := List.mem_map.mp hk
    refine ⟨rfl, ?_⟩
    obtain ⟨fork, hfork, hin⟩ := List.mem_flatMap.mp hq
    rw [Option.mem_toList] at hin
    rw [hprocess, ProcessPool.afterForks]
    split
    · exact Option.some_ne_none _
    · -- it was forked, so it is found
      obtain ⟨i, hi⟩ := Option.isSome_iff_exists.mp (List.isSome_idxOf?.mpr (hin ▸ hfork))
      rw [hi]
      exact Option.some_ne_none _
  · rw [hprocess, hparent]
    rfl
  · rw [order_started, ← ProcessPool.pids_new]
    rfl
  · rw [hprocess, ProcessPool.afterForks, if_neg hp] at ht
    obtain ⟨pool, hpool, rfl⟩ := Option.map_eq_some_iff.mp ht
    obtain ⟨i, hi, rfl⟩ := Option.map_eq_some_iff.mp hpool
    obtain ⟨hmem, helders⟩ : p ∈ (started sockfd parent forks).order ∧
        (started sockfd parent forks).elders p = (forks.take i).flatMap Option.toList :=
      elders_started hi
    rw [helders]
    exact ⟨hmem, rfl, fun _ _ => ProcessPool.pids_inChild _ _⟩

/-- The order grows by the child of the step. -/
theorem order_next (ht : s.shared.server.process l.step.actor = some t) :
    (s.next l).order = s.order ++ ((l.step.child t).map Prod.fst).toList := by
  have hforks : (s.forks l).map Prod.snd = ((l.step.child t).map Prod.fst).toList := by
    rw [forks, ht]
    dsimp only
    cases l.step.child t with
    | none => rfl
    | some child => rfl
  rw [← hforks]
  exact List.map_append

/-- A child is not told of deaths, and does not fork. -/
theorem Ordered.child_eq_none (h : s.Ordered parent) (hactor : l.step.actor ≠ parent)
    (ht : s.shared.server.process l.step.actor = some t) : l.step.child t = none := by
  cases hchild : l.step.child t with
  | none => rfl
  | some child =>
    obtain ⟨p, -, hquit, -⟩ := ServerStep.child_eq (q := child.1) (u := child.2) hchild
    have hno := (h.child _ t hactor ht).2.status_child_quit
    rw [hno] at hquit
    cases hquit

omit [DecidableEq Pid] in
/-- A process that goes on with `start` notes the child it has made. -/
theorem pids_afterLoop (hstop : t.toldToStop = false) (p : Pid) (fork : Option Pid) :
    (t.afterLoop fork).1.processPool_.pids_ = t.processPool_.pids_ ++
      (((ServerStep.afterLoop p fork).child t).map Prod.fst).toList := by
  have hterminate : t.terminate = t := by
    rw [TcpServer.toldToStop] at hstop
    rw [TcpServer.terminate, hstop]
    rfl
  have hagain : ∀ u : TcpServer Pid, u.again.processPool_ = u.processPool_ := by
    intro u
    unfold TcpServer.again
    split
    · rfl
    · rfl
  have hafter : t.afterLoop fork =
      if t.status_child_quit then
        (TcpServer.again { t with
            processPool_ := t.processPool_.createNewChildProcess fork, status_child_quit := false },
          if t.processPool_.forks then some t.child.again else none)
      else (t.again, none) := by
    rw [TcpServer.afterLoop, hterminate]
  cases fork with
  | none =>
    rw [hafter]
    split
    · rw [hagain]
      show (t.processPool_.createNewChildProcess none).pids_ = t.processPool_.pids_ ++ []
      unfold ProcessPool.createNewChildProcess
      split
      · rfl
      · rw [List.append_nil]
    · rw [hagain]
      exact (List.append_nil _).symm
  | some q =>
    rw [ServerStep.child, hafter]
    split
    · rw [hagain]
      show (t.processPool_.createNewChildProcess (some q)).pids_ = _
      unfold ProcessPool.createNewChildProcess
      split
      · rfl
      · exact (List.append_nil _).symm
    · rw [hagain]
      exact (List.append_nil _).symm

/-- **Step** of the parent. -/
theorem Ordered.knows_next (h : s.Ordered parent) (hguard : s.shared.guard l) :
    ∃ u, (s.next l).shared.server.process parent = some u ∧
      (u.point ≠ .left → u.point ≠ .dead → u.processPool_.pids_ = (s.next l).order) := by
  obtain ⟨t, ht, hpids⟩ := h.knows
  obtain ⟨t', ht', hready⟩ := hguard.1
  by_cases hactor : l.step.actor = parent
  · have hsame : t = t' := by
      rw [hactor] at ht'
      exact Option.some.inj (ht.symm.trans ht')
    subst hsame
    obtain ⟨u, hu, hsame⟩ := SharedServer.process_next_of_some hguard
      (Server.process_next_actor hguard ht')
    refine ⟨u, hactor ▸ hu, fun hleft hdead => ?_⟩
    rw [hsame.point] at hleft hdead
    rw [hsame.processPool_, order_next ht']
    by_cases hend : t.point = .left ∨ t.point = .dead
    · -- it can only be killed
      obtain ⟨p, hstep⟩ := ServerStep.eq_die_of_ready hready hend
      rw [hstep] at hdead
      exact absurd rfl hdead
    · rw [← hpids (fun hp => hend (Or.inl hp)) fun hp => hend (Or.inr hp)]
      by_cases hafter : ∃ p fork, l.step = .afterLoop p fork
      · obtain ⟨p, fork, hstep⟩ := hafter
        rw [hstep] at hleft ⊢
        cases hstop : t.toldToStop with
        | true => exact absurd (TcpServer.point_afterLoop_off hstop fork) hleft
        | false => exact pids_afterLoop hstop p fork
      · -- nothing else touches the pool or makes a process
        simp only [not_exists] at hafter
        rw [ServerStep.processPool_effect s.shared.server.mutex t hafter,
          ServerStep.child_eq_none hafter]
        exact (List.append_nil _).symm
  · obtain ⟨u, hu, hsame⟩ := SharedServer.process_next_of_some hguard
      (Server.process_next_ne hguard (Ne.symm hactor) ht)
    refine ⟨u, hu, ?_⟩
    rw [hsame.point, hsame.processPool_, order_next ht', h.child_eq_none hactor ht']
    simpa using hpids

/-- **Step** of a child, and of one that is made. -/
theorem Ordered.child_next (h : s.Ordered parent) (hguard : s.shared.guard l)
    (hannounced : s.Announced l) {u : TcpServer Pid} (hp : p ≠ parent)
    (hu : (s.next l).shared.server.process p = some u) :
    p ∈ (s.next l).order ∧ Inherits ((s.next l).elders p) u := by
  obtain ⟨t, ht, hready⟩ := hguard.1
  have horder := order_next (s := s) ht
  -- who was there knows whom it knew
  have hold : p ∈ s.order → p ∈ (s.next l).order ∧ (s.next l).elders p = s.elders p := by
    intro hmem
    rw [elders, elders, horder]
    exact ⟨List.mem_append_left _ hmem, take_idxOf_append hmem _⟩
  obtain ⟨v, hsame, hcases⟩ := SharedServer.process_next_cases hguard ht hu
  rcases hcases with ⟨rfl, rfl⟩ | ⟨hne, hv⟩ | ⟨hfresh, hchild⟩
  · obtain ⟨hmem, hinherits⟩ := h.child _ t hp ht
    rw [(hold hmem).2]
    refine ⟨(hold hmem).1, (inherits_effect hinherits hready fun r q hstep => ?_).sameStart hsame⟩
    -- only the parent is told of a death
    rw [Announced, hstep] at hannounced
    rw [hstep] at hp
    exact hp (h.forked _ hannounced).1
  · obtain ⟨hmem, hinherits⟩ := h.child p v hp hv
    rw [(hold hmem).2]
    exact ⟨(hold hmem).1, hinherits.sameStart hsame⟩
  · have hnew : p ∉ s.order := by
      intro hmem
      obtain ⟨k, hk, rfl⟩ := List.mem_map.mp hmem
      exact (h.forked k hk).2 hfresh
    have hactor : l.step.actor = parent := by
      by_contra hactor
      rw [h.child_eq_none hactor ht] at hchild
      cases hchild
    obtain ⟨t', ht', hpids⟩ := h.knows
    have htt' : t' = t := by
      rw [← hactor] at ht'
      exact Option.some.inj (ht'.symm.trans ht)
    subst htt'
    rw [hchild] at horder
    obtain ⟨r, hstep, hquit, rfl⟩ := ServerStep.child_eq hchild
    rw [hstep] at hready
    have hpoint : t'.point = .afterLoop := hready
    have hknown : t'.processPool_.pids_ = s.order := by
      apply hpids
      · rw [hpoint]
        exact Point.noConfusion
      · rw [hpoint]
        exact Point.noConfusion
    rw [elders, horder]
    refine ⟨List.mem_append_right _ List.mem_cons_self, ?_⟩
    show Inherits ((s.order ++ [p]).take ((s.order ++ [p]).idxOf p)) _
    rw [take_idxOf_concat hnew]
    exact (inherits_child hknown).sameStart hsame

theorem ordered_next (h : s.Ordered parent) (hguard : signalling.guard s l) :
    (s.next l).Ordered parent := by
  obtain ⟨hguard, hannounced⟩ := hguard
  refine ⟨fun k hk => ?_, h.knows_next hguard,
    fun p u hp hu => h.child_next hguard hannounced hp hu⟩
  obtain ⟨t, ht, -⟩ := hguard.1
  -- who is there after the step is there, whatever its loop
  have hthere : ∀ {q}, (s.shared.server.next l.step).process q ≠ none →
      (s.next l).shared.server.process q ≠ none := by
    intro q hq
    obtain ⟨v, hv⟩ := Option.ne_none_iff_exists'.mp hq
    obtain ⟨u, hu, -⟩ := SharedServer.process_next_of_some hguard hv
    rw [show (s.next l).shared.server.process q = some u from hu]
    exact Option.some_ne_none u
  rcases List.mem_append.mp hk with hk | hk
  · refine ⟨(h.forked k hk).1, hthere ?_⟩
    rw [Server.process_next_of_some hguard ht (h.forked k hk).2]
    by_cases hactor : k.2 = l.step.actor
    · rw [hactor, Function.update_self]
      exact Option.some_ne_none _
    · rw [Function.update_of_ne hactor]
      exact (h.forked k hk).2
  · -- the child of this step
    rw [forks, ht] at hk
    obtain ⟨⟨q, u⟩, hchild, rfl⟩ := Option.map_eq_some_iff.mp (Option.mem_toList.mp hk)
    refine ⟨?_, hthere ?_⟩
    · by_contra hactor
      rw [h.child_eq_none hactor ht] at hchild
      cases hchild
    · rw [Server.next_eq ht, hchild]
      simp [Server.adopt]

end Ordered

/-! ## One step -/

section Step

variable [DecidableEq Pid] {s : Signalling Pid} {l : SharedStep Pid} {parent : Pid}

omit [DecidableEq Pid] in
/-- **Inversion**: who sends a signal in a step has been told to stop, and
    comes out of `loop()`. -/
theorem mem_sends_iff {k : Pid × Pid} :
    k ∈ s.sends l ↔
      ∃ fork t, l.step = .afterLoop k.1 fork ∧ s.shared.server.process k.1 = some t ∧
        t.toldToStop = true ∧ k.2 ∈ t.processPool_.pids_ ∧ s.shared.server.Alive k.2 := by
  obtain ⟨p, q⟩ := k
  obtain ⟨step, value⟩ := l
  cases step with
  | afterLoop r fork =>
    cases ht : s.shared.server.process r with
    | none =>
      simp only [sends, ht, List.not_mem_nil, false_iff]
      rintro ⟨fork', t, heq, ht', -⟩
      cases heq
      cases ht.symm.trans ht'
    | some t =>
      simp only [sends, ht]
      constructor
      · intro hmem
        split at hmem
        · next hstop =>
          simp only [killAll, List.mem_map, List.mem_filter, decide_eq_true_eq,
            Prod.mk.injEq] at hmem
          obtain ⟨q', ⟨hpids, halive⟩, rfl, rfl⟩ := hmem
          exact ⟨fork, t, rfl, ht, hstop, hpids, halive⟩
        · cases hmem
      · rintro ⟨fork', t', heq, ht', hstop, hpids, halive⟩
        cases heq
        cases ht.symm.trans ht'
        rw [if_pos hstop]
        simp only [killAll, List.mem_map, List.mem_filter, decide_eq_true_eq, Prod.mk.injEq]
        exact ⟨q, ⟨hpids, halive⟩, trivial, rfl⟩
  | loopHead | poll | accept | afterAccept | check | handle | signal | sigchld | die =>
    simp [sends]

/-- **Step**: the children stay silent exactly if the step meets the
    condition. -/
theorem childrenSilent_next (hordered : s.Ordered parent) (hguard : signalling.guard s l)
    (h : s.ChildrenSilent parent) :
    (s.next l).ChildrenSilent parent ↔ s.StopsLast parent l := by
  -- a child that comes out of `loop()` has the pids of those before it
  have hpids : ∀ p fork t, l.step = .afterLoop p fork → p ≠ parent →
      s.shared.server.process p = some t → t.processPool_.pids_ = s.elders p := by
    intro p fork t hstep hp ht
    obtain ⟨t', ht', hready⟩ := hguard.1.1
    rw [hstep] at ht' hready
    cases ht.symm.trans ht'
    have hpoint : t.point = .afterLoop := hready
    apply ((hordered.child p t hp ht).2).pids_
    · rw [hpoint]
      exact Point.noConfusion
    · rw [hpoint]
      exact Point.noConfusion
  constructor
  · intro hnext
    unfold StopsLast
    cases hstep : l.step with
    | afterLoop p fork =>
      intro hchild t ht hstop q helder halive
      -- the signal would be in the history
      have hmem := hpids p fork t hstep hchild ht ▸ helder
      have hsame : q = p := by
        refine hnext (p, q) (List.mem_append_right _ ?_) hchild
        exact mem_sends_iff.mpr ⟨fork, t, hstep, ht, hstop, hmem, halive⟩
      rw [hsame] at helder
      exact not_mem_elders s p helder
    | loopHead | poll | accept | afterAccept | check | handle | signal | sigchld | die =>
      exact trivial
  · intro hcond k hk hchild
    rcases List.mem_append.mp hk with hk | hk
    · exact h k hk hchild
    · obtain ⟨fork, t, hstep, ht, hstop, hmem, halive⟩ := mem_sends_iff.mp hk
      rw [hpids k.1 fork t hstep hchild ht] at hmem
      rw [StopsLast, hstep] at hcond
      exact absurd halive (hcond hchild t ht hstop k.2 hmem)

end Step

end Signalling

end Process

end TinyWS
