import TinyWS.MultiProcess.Dispatch

/-! # Orphans

    What becomes of the workers when the parent is gone.

    A worker is forked with the ends of the pipes of the earlier workers,
    and never closes them.  So the pipe of a worker is at its end only when
    the parent and all later workers are gone: as long as one worker lives,
    nobody in front of it can notice that the parent does not.

    The parent ends in two ways.  Behind `killAll` every worker is told, and
    can end as well.  When it cannot send a socket it calls `exit(1)`, and
    nobody is told. -/

namespace TinyWS

namespace Prefork

variable {s s' : Prefork} {i : Nat}

/-! ## Who can write to a worker -/

/-- A worker has the end of an earlier pipe, and of its own behind the
    fork. -/
def Worker.holdsEnd (m : Nat) (w : Worker) (i : Nat) : Prop :=
  w.phase ≠ .exited ∧ (i < m ∨ i = m ∧ w.phase = .forked)

theorem Worker.Sound.count_parentEnd {w : Worker} {m : Nat} (h : w.Sound s m) (i : Nat) :
    w.table.count (.parentEnd i) = 0 ↔ ¬ w.holdsEnd m i := by
  cases h with
  | forked phase _ forked =>
    rw [forked.parentEnds, holdsEnd, phase]
    simp
    omega
  | serving phase _ serving =>
    have hnot : w.phase ≠ .exited ∧ w.phase ≠ .forked := by
      rcases phase with hphase | hphase
      · rw [hphase]
        simp
      · rw [hphase]
        simp
    rw [serving.parentEnds, holdsEnd]
    simp [hnot]
  | gone phase gone =>
    rw [gone.table, holdsEnd, phase]
    simp

/-- **The end of a pipe**: nobody can write to a worker exactly when the
    parent is gone and all later workers are. -/
theorem Sound.writers_eq_zero_iff (h : s.Sound) {w : Worker} (hw : s.workers[i]? = some w)
    (hserving : w.phase = .polling ∨ w.phase = .handling) :
    s.writers i = 0 ↔ s.parent.phase.alive = false ∧
      ∀ m (v : Worker), s.workers[m]? = some v → i < m → v.phase = .exited := by
  have hi : i < s.workers.length := (List.getElem?_eq_some_iff.mp hw).1
  have hparent : s.parent.table.count (.parentEnd i) = 0 ↔ s.parent.phase.alive = false := by
    by_cases halive : s.parent.phase.alive = true
    · rw [(h.parent halive).parentEnds, if_pos hi, halive]
      simp
    · have hexited := (Bool.not_eq_true _).mp halive
      rw [h.exited hexited, hexited]
      simp
  rw [writers, Nat.add_eq_zero_iff, hparent, List.sum_eq_zero_iff]
  refine and_congr_right fun _ => ⟨fun hall m v hv him => ?_, fun hall c hc => ?_⟩
  · have hzero := hall _ (List.mem_map.mpr ⟨v, List.mem_of_getElem? hv, rfl⟩)
    by_contra halive
    exact ((h.worker m v hv).1.count_parentEnd i).mp hzero ⟨halive, Or.inl him⟩
  · obtain ⟨v, hmem, heq⟩ := List.mem_map.mp hc
    obtain ⟨m, hm, hvm⟩ := List.mem_iff_getElem.mp hmem
    have hv := List.getElem?_eq_some_iff.mpr ⟨hm, hvm⟩
    rw [← heq, (h.worker m v hv).1.count_parentEnd i]
    intro hholds
    rcases hholds.2 with hlt | ⟨him, hforked⟩
    · exact hholds.1 (hall m v hv hlt)
    · -- its own end was closed behind the fork
      rw [← him, hw] at hv
      rw [← Option.some.inj hv] at hforked
      rw [hforked] at hserving
      simp at hserving

/-- The parent fails to send a socket, and the last worker crashes. -/
def orphaned : List Step :=
  [.createChild 10, .createChild 11, .childBranch 0, .childBranch 1, .parentPoll,
    .accept true, .accept false, .poll 0, .die 1, .receive 0 0]

/-- A worker that has not exited has the signal in front of it, or has
    seen it. -/
def Worker.Told (w : Worker) : Prop :=
  w.phase ≠ .exited → .SIGINT ∈ w.pending ∨ w.status.status_terminate = true

/-- The parent knows its workers, and behind `killAll` they are told. -/
structure Listed (s : Prefork) : Prop where
  pids_ : s.parent.phase.alive = true → s.parent.pids_ = s.workers.map Worker.pid
  told : s.parent.phase = .exited true → ∀ w ∈ s.workers, w.Told

namespace Worker

/-- What a step of a worker keeps for the parent. -/
structure Follows (v w : Worker) : Prop where
  pid : w.pid = v.pid
  told : v.Told → w.Told

/-- The steps that have nothing to do with signals. -/
structure Deaf (v w : Worker) : Prop where
  pid : w.pid = v.pid
  phase : w.phase = v.phase
  status : w.status = v.status
  pending : w.pending = v.pending

variable {u v w : Worker}

theorem Deaf.trans (h : u.Deaf v) (h' : v.Deaf w) : u.Deaf w :=
  ⟨h'.1.trans h.1, h'.2.trans h.2, h'.3.trans h.3, h'.4.trans h.4⟩

theorem Deaf.follows (h : v.Deaf w) : v.Follows w where
  pid := h.pid
  told htold := by
    unfold Told
    rw [h.phase, h.status, h.pending]
    exact htold

theorem deaf_foldl_call (name : String) (w : Worker) (calls : List Process.PipeCall) :
    w.Deaf (calls.foldl (call name) w) := by
  induction calls generalizing w with
  | nil => exact ⟨rfl, rfl, rfl, rfl⟩
  | cons c calls ih =>
    have hcall : w.Deaf (call name w c) := by
      cases c with
      | receiveFdCallback sockfd => exact ⟨rfl, rfl, rfl, rfl⟩
      | closeCallback => exact ⟨rfl, rfl, rfl, rfl⟩
    exact hcall.trans (ih _)

theorem deaf_receive (w : Worker) (name : String) (data : Int) :
    w.Deaf (w.receive name data) := by
  have hrecvmsg : w.Deaf w.recvmsg.1 := by
    unfold recvmsg
    split
    · exact ⟨rfl, rfl, rfl, rfl⟩
    · exact ⟨rfl, rfl, rfl, rfl⟩
  exact hrecvmsg.trans (deaf_foldl_call name _ _)

theorem follows_exit (w : Worker) : w.Follows w.exit := ⟨rfl, fun _ halive => absurd rfl halive⟩

theorem follows_poll (w : Worker) (hphase : w.phase = .polling) : w.Follows w.poll := by
  unfold poll
  split
  · split
    · exact w.follows_exit
    · exact ⟨rfl, id⟩
  · exact ⟨rfl, fun htold _ => htold (by rw [hphase]; simp)⟩

theorem terminate_parentSignalHandler (status : Status) (signo : Signo)
    (h : status.status_terminate = true ∨ signo = .SIGINT) :
    (status.parentSignalHandler signo).status_terminate = true := by
  rcases h with h | h
  · cases signo <;> first | exact h | rfl
  · rw [h]
    rfl

theorem terminate_childSignalHandler (status : Status) (signo : Signo)
    (h : status.status_terminate = true ∨ signo = .SIGINT) :
    (status.childSignalHandler signo).status_terminate = true := by
  rcases h with h | h
  · cases signo <;> first | exact h | rfl
  · rw [h]
    rfl

/-- **A signal** is taken off the list, and a `SIGINT` is seen. -/
theorem deliver_spec (w : Worker) (i : Nat) (signo : Signo) :
    (w.deliver i signo).pid = w.pid ∧
      ((w.deliver i signo).phase = .exited ∨
        (w.deliver i signo).phase = w.phase ∧
        (w.deliver i signo).pending = w.pending.erase signo ∧
        (w.status.status_terminate = true ∨ signo = .SIGINT →
          (w.deliver i signo).status.status_terminate = true)) := by
  unfold deliver handleSignal
  split
  · split
    · -- `SIGCHLD` of a worker is ignored, and is no `SIGINT`
      next hchld =>
      refine ⟨rfl, Or.inr ⟨rfl, rfl, fun hseen => ?_⟩⟩
      rcases hseen with hseen | hint
      · exact hseen
      · rw [hchld] at hint
        cases hint
    · split
      · exact ⟨rfl, Or.inl rfl⟩
      · exact ⟨rfl, Or.inr ⟨rfl, rfl, terminate_childSignalHandler _ _⟩⟩
  · split
    · exact ⟨rfl, Or.inr ⟨rfl, rfl, terminate_parentSignalHandler _ _⟩⟩
    · exact ⟨rfl, Or.inr ⟨rfl, rfl, terminate_childSignalHandler _ _⟩⟩

theorem follows_deliver (w : Worker) (i : Nat) (signo : Signo) :
    w.Follows (w.deliver i signo) where
  pid := (w.deliver_spec i signo).1
  told htold halive := by
    obtain ⟨hphase, hpending, hseen⟩ := (w.deliver_spec i signo).2.resolve_left halive
    rw [hphase] at halive
    -- a `SIGINT` leaves the list only to be seen; another signal leaves it there
    rcases htold halive with hmem | hterminate
    · by_cases hint : signo = .SIGINT
      · exact Or.inr (hseen (Or.inr hint))
      · rw [hpending]
        exact Or.inl ((List.mem_erase_of_ne (Ne.symm hint)).mpr hmem)
    · exact Or.inr (hseen (Or.inl hterminate))

end Worker

theorem mem_updateWorker {f : Worker → Worker} {w : Worker}
    (hw : w ∈ (s.updateWorker i f).workers) :
    w ∈ s.workers ∨ ∃ v, s.workers[i]? = some v ∧ f v = w := by
  obtain ⟨j, hj, hwj⟩ := List.mem_iff_getElem.mp hw
  have hget := List.getElem?_eq_some_iff.mpr ⟨hj, hwj⟩
  rw [getElem?_updateWorker] at hget
  by_cases hji : j = i
  · rw [if_pos hji, hji] at hget
    obtain ⟨v, hv, hvw⟩ := Option.map_eq_some_iff.mp hget
    exact Or.inr ⟨v, hv, hvw⟩
  · rw [if_neg hji] at hget
    exact Or.inl (List.mem_of_getElem? hget)

theorem pids_updateWorker {f : Worker → Worker}
    (hf : ∀ w, s.workers[i]? = some w → (f w).pid = w.pid) :
    (s.updateWorker i f).workers.map Worker.pid = s.workers.map Worker.pid := by
  apply List.ext_getElem?
  intro j
  rw [List.getElem?_map, List.getElem?_map, getElem?_updateWorker]
  by_cases hji : j = i
  · rw [if_pos hji]
    cases hw : s.workers[j]? with
    | none => rfl
    | some w =>
      rw [hji] at hw
      exact congrArg some (hf w hw)
  · rw [if_neg hji]

theorem Listed.updateWorker (h : s.Listed) {f : Worker → Worker}
    (hf : ∀ w, s.workers[i]? = some w → w.Follows (f w)) : (s.updateWorker i f).Listed where
  pids_ halive := by
    rw [pids_updateWorker fun w hw => (hf w hw).pid]
    exact h.pids_ halive
  told hexited w hw := by
    rcases mem_updateWorker hw with hold | ⟨v, hv, hvw⟩
    · exact h.told hexited w hold
    · rw [← hvw]
      exact (hf v hv).told (h.told hexited v (List.mem_of_getElem? hv))

theorem pids_sendFd (s : Prefork) (pipefd sockfd : Nat) :
    (s.sendFd pipefd sockfd).workers.map Worker.pid = s.workers.map Worker.pid := by
  unfold Prefork.sendFd
  split
  · exact pids_updateWorker fun _ _ => rfl
  · rfl

theorem Listed.accept (h : s.Listed) (hhandling : s.parent.phase = .handling) (sent : Bool) :
    (s.accept sent).Listed := by
  cases sent with
  | false => exact ⟨fun halive => (by cases halive), fun hexited => (by cases hexited)⟩
  | true =>
    have hpids := h.pids_ (by rw [hhandling]; rfl)
    refine ⟨fun _ => ?_, fun hexited => ?_⟩
    · show (Prefork.sendFd _ _ _).parent.pids_ = (Prefork.sendFd _ _ _).workers.map Worker.pid
      rw [(sendFd_same _ _ _).1, pids_sendFd]
      exact hpids
    · have hsame : (Prefork.accept s true).parent.phase = s.parent.phase := by
        show (Prefork.sendFd _ _ _).parent.phase = _
        rw [(sendFd_same _ _ _).1]
      rw [hsame, hhandling] at hexited
      cases hexited

/-- **`killAll`** reaches every worker. -/
theorem Listed.killAll (h : s.Listed) (halive : s.parent.phase.alive = true) :
    (s.killAll.exitParent true).Listed where
  pids_ halive := by cases halive
  told _ w hw := by
    obtain ⟨v, hv, hvw⟩ := List.mem_map.mp hw
    have hlisted : v.pid ∈ s.parent.pids_ := by
      rw [h.pids_ halive]
      exact List.mem_map.mpr ⟨v, hv, rfl⟩
    rw [← hvw]
    split
    · -- it lives, and its pid is in the list
      exact fun _ => Or.inl (List.mem_append.mpr (Or.inr (List.mem_singleton.mpr rfl)))
    · next hnot => exact fun hphase => absurd ⟨hlisted, hphase⟩ hnot

theorem Listed.next (h : s.Listed) {l : Step} (hguard : s.guard l) : (s.next l).Listed := by
  cases l with
  | createChild pid =>
    refine ⟨fun _ => ?_, fun hexited => ?_⟩
    · -- the new pid is noted with the new worker
      have hpids := h.pids_ (by rw [show s.parent.phase = .creating from hguard.1]; rfl)
      show s.parent.pids_ ++ [pid] = (s.workers ++ [s.fork pid]).map Worker.pid
      rw [hpids, List.map_append]
      rfl
    · simp only [Prefork.next, Prefork.createChild] at hexited
      split at hexited
      · cases hexited
      · cases hexited
  | parentPoll =>
    have hpolling : s.parent.phase = .polling := hguard
    show s.parentPoll.Listed
    unfold Prefork.parentPoll
    split
    · exact h.killAll (by rw [hpolling]; rfl)
    · exact ⟨fun _ => h.pids_ (by rw [hpolling]; rfl), fun hexited => (by cases hexited)⟩
  | accept sent => exact h.accept hguard.1 sent
  | parentHandled =>
    have hhandling : s.parent.phase = .handling := hguard
    exact ⟨fun _ => h.pids_ (by rw [hhandling]; rfl), fun hexited => (by cases hexited)⟩
  | parentSignal signo => exact ⟨h.pids_, h.told⟩
  | childBranch i =>
    refine h.updateWorker fun w hw => ⟨rfl, fun htold _ => ?_⟩
    exact htold (by rw [hguard.of_getElem? hw]; simp)
  | poll i => exact h.updateWorker fun w hw => w.follows_poll (hguard.of_getElem? hw)
  | receive i data =>
    have hupdated := h.updateWorker (i := i) (f := fun w => w.receive s.name_ data)
      fun w _ => (w.deaf_receive s.name_ data).follows
    exact ⟨hupdated.1, hupdated.2⟩
  | handleClose i c => exact h.updateWorker fun w _ => ⟨rfl, id⟩
  | handled i =>
    refine h.updateWorker fun w hw => ⟨rfl, fun htold _ => ?_⟩
    exact htold (by rw [hguard.of_getElem? hw]; simp)
  | kill i signo =>
    refine h.updateWorker fun w _ => ⟨rfl, fun htold halive => ?_⟩
    exact (htold halive).imp_left fun hmem => List.mem_append.mpr (Or.inl hmem)
  | deliver i signo => exact h.updateWorker fun w _ => w.follows_deliver i signo
  | die i => exact h.updateWorker fun w _ => w.follows_exit

theorem listed_run (name : String) (n : Nat) (others : List (Option Nat)) {ls : List Step}
    (hrun : prefork.Valid (started name n others) ls) :
    (prefork.run (started name n others) ls).Listed := by
  refine prefork.invariant_run Listed (fun _ _ h hguard => h.next hguard) ⟨fun _ => rfl, ?_⟩ hrun
  intro _ w hw
  cases hw

/-! ### The way out -/

/-- The steps that a worker takes on its own. -/
def Step.OfWorker (i : Nat) (l : Step) : Prop :=
  l = .deliver i .SIGINT ∨ l = .childBranch i ∨ l = .handled i ∨ l = .poll i

instance (i : Nat) : DecidablePred (Step.OfWorker i) :=
  fun l => inferInstanceAs (Decidable (l = .deliver i .SIGINT ∨ l = .childBranch i ∨
    l = .handled i ∨ l = .poll i))

theorem Step.OfWorker.unique {l : Step} {j : Nat} (h : l.OfWorker i) (h' : l.OfWorker j) :
    i = j := by
  rcases h with rfl | rfl | rfl | rfl <;> simpa [OfWorker] using h'

/-- How many steps a worker is away from its exit. -/
def Worker.distance (w : Worker) : Nat :=
  if w.phase = .exited then 0
  else (if w.phase = .polling then 1 else 2) +
    if w.status.status_terminate = true then 0 else 1

/-- **One step out**: a worker that was told can get closer to its exit. -/
theorem Worker.Told.closer {w : Worker} (h : w.Told) (halive : w.phase ≠ .exited)
    (hw : s.workers[i]? = some w) :
    ∃ l f, l.OfWorker i ∧ s.guard l ∧ s.next l = s.updateWorker i f ∧
      (f w).distance < w.distance := by
  by_cases hterminate : w.status.status_terminate = true
  · -- back to the poll, and out
    cases hphase : w.phase with
    | exited => exact absurd hphase halive
    | forked =>
      refine ⟨.childBranch i, _, Or.inr (Or.inl rfl), ⟨w, hw, hphase⟩, rfl, ?_⟩
      simp [distance, Worker.childBranch, hphase, hterminate]
    | handling =>
      refine ⟨.handled i, _, Or.inr (Or.inr (Or.inl rfl)), ⟨w, hw, hphase⟩, rfl, ?_⟩
      simp [distance, hphase, hterminate]
    | polling =>
      refine ⟨.poll i, _, Or.inr (Or.inr (Or.inr rfl)), ⟨w, hw, hphase⟩, rfl, ?_⟩
      have hexit : w.poll = w.exit := by
        simp [Worker.poll, Status.leavesLoop, Status.endsProcess, hterminate]
      rw [hexit]
      simp [distance, Worker.exit, hphase]
  · -- the signal has still to be delivered
    have hmem := (h halive).resolve_right hterminate
    refine ⟨.deliver i .SIGINT, _, Or.inl rfl, ⟨w, hw, halive, hmem⟩, rfl, ?_⟩
    rcases (w.deliver_spec i .SIGINT).2 with hexited | ⟨hphase, -, hseen⟩
    · simp only [distance, hexited, if_neg halive, if_neg hterminate]
      simp
    · simp only [distance, hphase, if_neg halive, if_neg hterminate, if_pos (hseen (Or.inr rfl))]
      omega

theorem distance_le (w : Worker) : w.distance ≤ 3 := by
  unfold Worker.distance
  split
  · omega
  · split <;> split <;> omega

/-- How many steps the worker `i` is away, if there is one. -/
def distanceOf (s : Prefork) (i : Nat) : Nat := (s.workers[i]?.map Worker.distance).getD 0

theorem distanceOf_le (s : Prefork) (i : Nat) : s.distanceOf i ≤ 3 := by
  unfold distanceOf
  cases s.workers[i]? with
  | none => exact Nat.zero_le 3
  | some w => exact distance_le w

/-- A step of the worker `i` leaves the others where they are. -/
theorem count_ofWorker_le {l : Step} {ks : List Step} {w : Worker} {f : Worker → Worker}
    (hown : l.OfWorker i) (hnext : s.next l = s.updateWorker i f) (hw : s.workers[i]? = some w)
    (hcloser : (f w).distance < w.distance)
    (hcount : ∀ j, ks.countP (fun k => k.OfWorker j) ≤ (s.next l).distanceOf j) (j : Nat) :
    (l :: ks).countP (fun k => k.OfWorker j) ≤ s.distanceOf j := by
  have hj := hcount j
  rw [distanceOf, hnext, getElem?_updateWorker] at hj
  rw [List.countP_cons, distanceOf]
  by_cases hji : j = i
  · rw [hji, hw] at hj ⊢
    simp only [if_true, Option.map_some, Option.getD_some, decide_eq_true hown] at hj ⊢
    omega
  · have hother : ¬ l.OfWorker j := fun hown' => hji (hown.unique hown').symm
    rw [if_neg hji] at hj
    rw [if_neg (by simpa using hother)]
    exact hj

theorem sum_map_modify_lt {α : Type} {f : α → α} {g : α → Nat} {l : List α} {i : Nat} {a : α}
    (ha : l[i]? = some a) (hlt : g (f a) < g a) :
    ((l.modify i f).map g).sum < (l.map g).sum := by
  induction l generalizing i with
  | nil => cases ha
  | cons b l ih =>
    cases i with
    | zero =>
      rw [← Option.some.inj ha] at hlt
      rw [List.modify_zero_cons]
      simp only [List.map_cons, List.sum_cons]
      omega
    | succ i =>
      have htail := ih ha
      rw [List.modify_succ_cons]
      simp only [List.map_cons, List.sum_cons]
      omega

/-- **The way out**: behind `killAll` the workers can end, each in three
    steps of its own at most. -/
theorem Listed.wayOut (h : s.Listed) (hexited : s.parent.phase = .exited true) :
    ∃ ks, (∀ k ∈ ks, ∃ i, k.OfWorker i) ∧ ks.length ≤ (s.workers.map Worker.distance).sum ∧
      (∀ i, ks.countP (fun k => k.OfWorker i) ≤ s.distanceOf i) ∧
      prefork.Valid s ks ∧ ∀ w ∈ (prefork.run s ks).workers, w.phase = .exited := by
  -- on the steps that are left for all workers together
  induction hn : (s.workers.map Worker.distance).sum using Nat.strong_induction_on
    generalizing s with
  | _ n ih =>
    by_cases hall : ∀ w ∈ s.workers, w.phase = .exited
    · exact ⟨[], fun k hk => (by cases hk), Nat.zero_le _, fun _ => Nat.zero_le _, trivial, hall⟩
    · obtain ⟨w, hmem, halive⟩ : ∃ w ∈ s.workers, w.phase ≠ .exited := by
        simpa using hall
      obtain ⟨i, hi, hwi⟩ := List.mem_iff_getElem.mp hmem
      have hw := List.getElem?_eq_some_iff.mpr ⟨hi, hwi⟩
      obtain ⟨l, f, hown, hguard, hnext, hcloser⟩ := (h.told hexited w hmem).closer halive hw
      have hless : ((s.next l).workers.map Worker.distance).sum < n := by
        rw [← hn, hnext]
        exact sum_map_modify_lt hw hcloser
      have hstill : (s.next l).parent.phase = .exited true := by
        rw [hnext]
        exact hexited
      obtain ⟨ks, hks, hlen, hcount, hvalid, hend⟩ := ih _ hless (h.next hguard) hstill rfl
      refine ⟨l :: ks, fun k hk => ?_, ?_, count_ofWorker_le hown hnext hw hcloser hcount,
        ⟨hguard, hvalid⟩, hend⟩
      · rcases List.mem_cons.mp hk with hhead | htail
        · rw [hhead]
          exact ⟨i, hown⟩
        · exact hks k htail
      · rw [List.length_cons]
        omega

/-- **`killAll`**: when the parent ended by it, every worker has exited or
    is told, and at most three steps of each are enough for all of them to
    exit. -/
theorem prefork_killAll (name : String) (n : Nat) (others : List (Option Nat))
    (ls : List Step) (hrun : prefork.Valid (started name n others) ls)
    (hexited : (prefork.run (started name n others) ls).parent.phase = .exited true) :
    (∀ w ∈ (prefork.run (started name n others) ls).workers, w.Told) ∧
      ∃ ks, (∀ k ∈ ks, ∃ i, k.OfWorker i) ∧
        ks.length ≤ 3 * (prefork.run (started name n others) ls).workers.length ∧
        (∀ i, ks.countP (fun k => k.OfWorker i) ≤ 3) ∧
        prefork.Valid (started name n others) (ls ++ ks) ∧
        ∀ w ∈ (prefork.run (started name n others) (ls ++ ks)).workers, w.phase = .exited := by
  have h := listed_run name n others hrun
  obtain ⟨ks, hown, hlen, hcount, hvalid, hend⟩ := h.wayOut hexited
  refine ⟨h.told hexited, ks, hown, hlen.trans ?_, fun i => (hcount i).trans (distanceOf_le _ i),
    (prefork.valid_append _ ls ks).mpr ⟨hrun, hvalid⟩, ?_⟩
  · have hsum := List.sum_le_card_nsmul
      ((prefork.run (started name n others) ls).workers.map Worker.distance) 3 fun d hd => by
        obtain ⟨w, -, heq⟩ := List.mem_map.mp hd
        rw [← heq]
        exact distance_le w
    rw [List.length_map, smul_eq_mul, Nat.mul_comm] at hsum
    exact hsum
  · rw [prefork.run_append]
    exact hend

/-- The parent is told to end, while one worker is still in front of its
    loop and the other has a client. -/
def terminated : List Step :=
  [.createChild 10, .createChild 11, .childBranch 1, .parentPoll, .accept true, .accept true,
    .poll 1, .receive 1 0, .parentHandled, .parentSignal .SIGTERM, .parentPoll]

theorem prefork_killAll_terminated :
    (prefork.run (started "web" 2 []) terminated).parent.phase = .exited true ∧
      ∃ ks, ks.length ≤ 6 ∧ prefork.Valid (started "web" 2 []) (terminated ++ ks) ∧
        ∀ w ∈ (prefork.run (started "web" 2 []) (terminated ++ ks)).workers,
          w.phase = .exited := by
  have hexited : (prefork.run (started "web" 2 []) terminated).parent.phase = .exited true := by
    decide +kernel
  obtain ⟨-, ks, -, hlen, -, hvalid, hend⟩ :=
    prefork_killAll "web" 2 [] terminated (by decide +kernel) hexited
  exact ⟨hexited, ks, hlen, hvalid, hend⟩

/-! ## Behind `exit(1)` -/

/-- Somebody sends a signal, or a worker crashes. -/
def Step.Signals : Step → Prop
  | .parentSignal _ | .kill _ _ | .die _ => True
  | .createChild _ | .parentPoll | .accept _ | .parentHandled | .childBranch _ | .poll _ |
    .receive _ _ | .handleClose _ _ | .handled _ | .deliver _ _ => False

instance : DecidablePred Step.Signals
  | .parentSignal _ | .kill _ _ | .die _ => isTrue trivial
  | .createChild _ | .parentPoll | .accept _ | .parentHandled | .childBranch _ | .poll _
  | .receive _ _ | .handleClose _ _ | .handled _ | .deliver _ _ => isFalse id

/-- Nobody has been told anything. -/
structure Worker.Untold (w : Worker) : Prop where
  phase : w.phase ≠ .exited
  status : w.status = .new
  pending : w.pending = []

structure Untold (s : Prefork) : Prop where
  status : s.parent.status = .new
  phase : s.parent.phase ≠ .exited true
  worker : ∀ w ∈ s.workers, w.Untold

theorem Worker.Deaf.untold {v w : Worker} (h : v.Deaf w) (huntold : v.Untold) : w.Untold where
  phase := by rw [h.phase]; exact huntold.phase
  status := h.status.trans huntold.status
  pending := h.pending.trans huntold.pending

theorem Untold.updateWorker (h : s.Untold) {f : Worker → Worker}
    (hf : ∀ w, s.workers[i]? = some w → (f w).Untold) : (s.updateWorker i f).Untold where
  status := h.status
  phase := h.phase
  worker w hw := by
    rcases mem_updateWorker hw with hold | ⟨v, hv, hvw⟩
    · exact h.worker w hold
    · rw [← hvw]
      exact hf v hv

theorem Untold.sendFd (h : s.Untold) (pipefd sockfd : Nat) : (s.sendFd pipefd sockfd).Untold := by
  unfold Prefork.sendFd
  split
  · refine h.updateWorker fun w hw => ?_
    have huntold := h.worker w (List.mem_of_getElem? hw)
    exact ⟨huntold.phase, huntold.status, huntold.pending⟩
  · exact h

theorem Untold.next (h : s.Untold) {l : Step} (hguard : s.guard l) (hquiet : ¬ l.Signals) :
    (s.next l).Untold := by
  have hworker : ∀ {i} {w : Worker}, s.workers[i]? = some w → w.Untold := fun hw =>
    h.worker _ (List.mem_of_getElem? hw)
  cases l with
  | parentSignal signo => exact absurd trivial hquiet
  | kill i signo => exact absurd trivial hquiet
  | die i => exact absurd trivial hquiet
  | createChild pid =>
    refine ⟨h.status, fun hexited => ?_, fun w hw => ?_⟩
    · simp only [Prefork.next, Prefork.createChild] at hexited
      split at hexited
      · cases hexited
      · cases hexited
    · have hmem : w ∈ s.workers ++ [s.fork pid] := hw
      rcases List.mem_append.mp hmem with hold | hnew
      · exact h.worker w hold
      · rw [List.mem_singleton.mp hnew]
        exact ⟨by simp [Prefork.fork], h.status, rfl⟩
  | parentPoll =>
    have hstays : s.parent.status.leavesLoop = false := by
      rw [h.status]
      rfl
    show s.parentPoll.Untold
    rw [Prefork.parentPoll, if_neg (by rw [hstays]; simp)]
    exact ⟨h.status, by simp, h.worker⟩
  | accept sent =>
    cases sent with
    | false =>
      exact ⟨h.status, by simp [Prefork.next, Prefork.accept, Prefork.exitParent], h.worker⟩
    | true =>
      have hsent := Untold.sendFd (s := { s with
        parent := { s.parent with
          table := s.parent.table.openFile (.connection s.sent)
          nextConnectionId_ := s.parent.nextConnectionId_ + 1 } })
        ⟨h.status, h.phase, h.worker⟩
        (s.parent.pipes_.getD s.parent.next_ 0) s.parent.table.lowest
      exact ⟨hsent.status, hsent.phase, hsent.worker⟩
  | parentHandled => exact ⟨h.status, by simp [Prefork.next], h.worker⟩
  | childBranch i =>
    refine h.updateWorker fun w hw => ?_
    exact ⟨by simp [Worker.childBranch], (hworker hw).status, (hworker hw).pending⟩
  | poll i =>
    refine h.updateWorker fun w hw => ?_
    have hstays : w.status.leavesLoop = false := by
      rw [(hworker hw).status]
      rfl
    rw [Worker.poll, if_neg (by rw [hstays]; simp)]
    exact ⟨by simp, (hworker hw).status, (hworker hw).pending⟩
  | receive i data =>
    have hupdated := h.updateWorker (i := i) (f := fun w => w.receive s.name_ data)
      fun w hw => (w.deaf_receive s.name_ data).untold (hworker hw)
    exact ⟨hupdated.1, hupdated.2, hupdated.3⟩
  | handleClose i c =>
    refine h.updateWorker fun w hw => ?_
    exact ⟨(hworker hw).phase, (hworker hw).status, (hworker hw).pending⟩
  | handled i =>
    refine h.updateWorker fun w hw => ?_
    exact ⟨by simp, (hworker hw).status, (hworker hw).pending⟩
  | deliver i signo =>
    obtain ⟨w, hw, -, hmem⟩ := hguard
    rw [(hworker hw).pending] at hmem
    cases hmem

theorem untold_started (name : String) (n : Nat) (others : List (Option Nat)) :
    (started name n others).Untold := by
  refine ⟨rfl, fun hexited => ?_, fun w hw => (by cases hw)⟩
  simp only [started] at hexited
  split at hexited
  · cases hexited
  · cases hexited

theorem untold_run (name : String) (n : Nat) (others : List (Option Nat)) {ls : List Step}
    (hrun : prefork.Valid (started name n others) ls) (hquiet : ∀ l ∈ ls, ¬ l.Signals) :
    (prefork.run (started name n others) ls).Untold := by
  have hboth := (prefork.along_and (started name n others) ls).mpr
    ⟨hrun, prefork.along_of_forall _ hquiet⟩
  exact prefork.invariant_run Untold (fun _ _ h hstep => h.next hstep.1 hstep.2)
    (untold_started name n others) hboth

/-- The parent fails to send the second socket. -/
def unsent : List Step :=
  [.createChild 10, .createChild 11, .childBranch 0, .childBranch 1, .parentPoll,
    .accept true, .accept false, .poll 0, .poll 1, .receive 0 0, .receive 1 0]

end Prefork

end TinyWS
