import TinyWS.MultiProcess.Workers

/-! # Dispatch

    Who has the sockets.  The parent deals them to the workers in turn, and
    a worker adopts them in the order in which they were sent; every socket
    is in one place, a pipe or a table, until its worker closes it.

    All this holds as long as no worker was misled, and no worker is misled
    as long as the parent lives: it keeps its end of every pipe. -/

namespace TinyWS

namespace Prefork

/-! ## One step -/

variable {s s' : Prefork} {i : Nat}

theorem length_updateWorker (s : Prefork) (i : Nat) (f : Worker → Worker) :
    (s.updateWorker i f).workers.length = s.workers.length := List.length_modify _ _ _

theorem Parent.Sound.congr (h : Parent.Sound s) (hparent : s'.parent = s.parent)
    (hworkers : s'.workers.length = s.workers.length) (hsent : s'.sent = s.sent) :
    Parent.Sound s' := by
  constructor
  all_goals rw [hparent]
  · exact h.standardInput
  · exact h.epollfd
  · exact h.timerfd
  · exact h.listenfd
  · rw [hworkers]
    exact h.pipes_length
  · exact h.pipes
  · rw [hworkers]
    exact h.parentEnds
  · exact h.childEnds
  · exact h.connections
  · rw [hsent]
    exact h.next_
  · rw [hworkers, hsent]
    exact h.creating
  · rw [hworkers]
    exact h.created

/-- **A step of a worker** does not touch the others. -/
theorem Sound.updateWorker (h : s.Sound) {f : Worker → Worker}
    (hf : ∀ w, s.workers[i]? = some w → (f w).Sound s i ∧ (f w).Asserted) :
    (s.updateWorker i f).Sound where
  parent halive := (h.parent halive).congr rfl (length_updateWorker s i f) rfl
  exited := h.exited
  room := by
    rw [length_updateWorker]
    exact h.room
  complete := by
    rw [length_updateWorker]
    exact h.complete
  worker j w hw := by
    have hsame : ∀ j, Worker.Deals s (s.updateWorker i f) j [] := fun j =>
      ⟨rfl, rfl, rfl, rfl, (List.append_nil _).symm⟩
    rw [getElem?_updateWorker] at hw
    by_cases hji : j = i
    · rw [if_pos hji, hji] at hw
      obtain ⟨v, hv, hvw⟩ := Option.map_eq_some_iff.mp hw
      rw [hji, ← hvw]
      exact ⟨(hf v hv).1.undealt (hsame i), (hf v hv).2⟩
    · rw [if_neg hji] at hw
      exact ⟨(h.worker j w hw).1.undealt (hsame j), (h.worker j w hw).2⟩

/-- The parent is gone, and the workers do not notice. -/
theorem Sound.exitParent (h : s.Sound) (killedAll : Bool) : (s.exitParent killedAll).Sound where
  parent halive := by cases halive
  exited _ := rfl
  room := h.room
  complete := h.complete
  worker j w hw :=
    ⟨(h.worker j w hw).1.undealt ⟨rfl, rfl, rfl, rfl, (List.append_nil _).symm⟩,
      (h.worker j w hw).2⟩

/-- One end for each worker, and one for the new one. -/
theorem ends_succ (n i : Nat) : ((if i < n then 1 else 0) + if n = i then 1 else 0) =
    if i < n + 1 then 1 else 0 := by
  by_cases hlt : i < n
  · rw [if_pos hlt, if_neg (by omega), if_pos (by omega)]
  · by_cases heq : n = i
    · rw [if_neg hlt, if_pos heq, if_pos (by omega)]
    · rw [if_neg hlt, if_neg heq, if_neg (by omega)]

/-- Behind the old entries there is the new one, and nothing else. -/
theorem getElem?_concat {α : Type} {xs : List α} {x y : α} {i : Nat}
    (h : (xs ++ [x])[i]? = some y) : xs[i]? = some y ∨ i = xs.length ∧ x = y := by
  by_cases hi : i < xs.length
  · rw [List.getElem?_append_left hi] at h
    exact .inl h
  · rw [List.getElem?_append_right (Nat.le_of_not_lt hi), List.getElem?_singleton] at h
    split at h
    · next hzero => exact .inr ⟨by omega, Option.some.inj h⟩
    · cases h

/-- **The fork**: the worker has what the parent has, and the two ends of
    its own pipe. -/
theorem Parent.Sound.fork (h : Parent.Sound s) (hsent : s.sent = 0) (pid : Nat) :
    (s.fork pid).Sound s s.workers.length ∧ (s.fork pid).Asserted := by
  have hnothing : ∀ i, RoundRobin.dealt s.parent.processNum_ i s.sent = [] := by
    intro i
    rw [hsent]
    rfl
  have hkeep : ∀ {fd f}, s.parent.table.file fd = some f → (s.fork pid).table.file fd = some f :=
    fun hfd => DescriptorTable.file_openFile_of_some (DescriptorTable.file_openFile_of_some hfd)
  have hcount : ∀ f, (s.fork pid).table.count f = s.parent.table.count f +
      (if .parentEnd s.workers.length = f then 1 else 0) +
      (if .childEnd s.workers.length = f then 1 else 0) := by
    intro f
    show DescriptorTable.count (DescriptorTable.openFile _ _) f = _
    rw [DescriptorTable.count_openFile, DescriptorTable.count_openFile]
  refine ⟨.forked rfl ⟨hkeep h.standardInput, ?_, fun k => ?_, fun j => ?_⟩
    ⟨hkeep h.epollfd, hkeep h.timerfd, hkeep h.listenfd, ?_, fun j => ?_, fun k => ?_, rfl, rfl⟩, ?_⟩
  · rw [hnothing]
    rfl
  · rw [hnothing, hcount, h.connections]
    simp [Prefork.fork]
  · rw [hcount, h.childEnds]
    simp [eq_comm]
  · exact DescriptorTable.file_openFile_of_some DescriptorTable.file_openFile_lowest
  · rw [hcount, h.parentEnds]
    simp only [File.parentEnd.injEq, reduceCtorEq, if_false, Nat.add_zero]
    rw [ends_succ]
    simp only [Nat.lt_succ_iff]
  · rw [hcount, h.connections]
    simp
  · intro n hn
    cases hn

/-- The child's end, which the parent closes. -/
theorem file_childEnd (s : Prefork) (pid : Nat) :
    (s.fork pid).table.file (s.fork pid).fds.2 = some (.childEnd s.workers.length) :=
  DescriptorTable.file_openFile_lowest

/-- What the parent has more is its own end. -/
theorem sameFor_createChild (s : Prefork) (pid : Nat) {f : File}
    (hf : f ≠ .childEnd s.workers.length) :
    DescriptorTable.SameFor f (s.parent.table.openFile (.parentEnd s.workers.length))
      (s.createChild pid).parent.table :=
  (DescriptorTable.sameFor_openFile _ hf.symm).trans
    (DescriptorTable.sameFor_close (file_childEnd s pid) hf.symm)

theorem count_createChild (s : Prefork) (pid : Nat) {f : File}
    (hf : f ≠ .childEnd s.workers.length) :
    (s.createChild pid).parent.table.count f = s.parent.table.count f +
      if .parentEnd s.workers.length = f then 1 else 0 := by
  rw [(sameFor_createChild s pid hf).count, DescriptorTable.count_openFile]

theorem length_createChild (s : Prefork) (pid : Nat) :
    (s.createChild pid).workers.length = s.workers.length + 1 := by
  simp [Prefork.createChild]

/-- The parent keeps its end. -/
theorem Parent.Sound.createChild (h : Parent.Sound s) (hcreating : s.parent.phase = .creating)
    (pid : Nat) : Parent.Sound (s.createChild pid) := by
  obtain ⟨hroom, hsent⟩ := h.creating hcreating
  have hworkers := length_createChild s pid
  have hkeep : ∀ {fd f}, f ≠ .childEnd s.workers.length → s.parent.table.file fd = some f →
      (s.createChild pid).parent.table.file fd = some f :=
    fun hf hfd => (sameFor_createChild s pid hf).file _
      (DescriptorTable.file_openFile_of_some hfd)
  constructor
  · exact hkeep (by simp) h.standardInput
  · exact hkeep (by simp) h.epollfd
  · exact hkeep (by simp) h.timerfd
  · exact hkeep (by simp) h.listenfd
  · rw [hworkers, ← h.pipes_length]
    simp [Prefork.createChild]
  · intro i fd hfd
    have happend : (s.parent.pipes_ ++ [s.parent.table.lowest])[i]? = some fd := hfd
    rcases getElem?_concat happend with hold | ⟨hi, hnew⟩
    · exact hkeep (by simp) (h.pipes i fd hold)
    · -- the new pipe
      rw [← hnew, hi, h.pipes_length]
      exact (sameFor_createChild s pid (by simp)).file _ DescriptorTable.file_openFile_lowest
  · intro i
    rw [count_createChild s pid (by simp), h.parentEnds, hworkers]
    simp only [File.parentEnd.injEq]
    exact ends_succ s.workers.length i
  · -- the child's end of the new pipe is closed, the earlier ones were
    intro i
    by_cases hi : i = s.workers.length
    · have hself := DescriptorTable.count_close_self (file_childEnd s pid)
      have hone : (s.fork pid).table.count (.childEnd s.workers.length) = 1 := by
        have hlive := ((h.fork hsent pid).1.alive (by simp [Prefork.fork])).childEnds
          s.workers.length
        rw [hlive, if_pos rfl]
      rw [hi]
      show DescriptorTable.count (DescriptorTable.close _ _) _ = 0
      omega
    · rw [count_createChild s pid (by simpa using hi), h.childEnds]
      simp
  · intro k
    rw [count_createChild s pid (by simp), h.connections]
    simp
  · exact h.next_
  · intro hphase
    have hlast : ¬ s.workers.length + 1 = s.parent.processNum_ := by
      intro hlast
      simp [Prefork.createChild, hlast] at hphase
    refine ⟨?_, hsent⟩
    rw [hworkers]
    show s.workers.length + 1 < s.parent.processNum_
    omega
  · intro hphase
    rw [hworkers]
    by_contra hlast
    have hstill : (s.createChild pid).parent.phase = .creating := if_neg hlast
    exact hphase hstill

theorem Sound.createChild (h : s.Sound) (hcreating : s.parent.phase = .creating) (pid : Nat) :
    (s.createChild pid).Sound := by
  have halive : s.parent.phase.alive = true := by
    rw [hcreating]
    rfl
  have hparent := (h.parent halive).createChild hcreating pid
  have hsame : ∀ j, Worker.Deals s (s.createChild pid) j [] := fun j =>
    ⟨rfl, rfl, rfl, rfl, (List.append_nil _).symm⟩
  have hroom := (h.parent halive).creating hcreating
  have hworkers := length_createChild s pid
  refine ⟨fun _ => hparent, fun hexited => ?_, fun j w hw => ?_, ?_, Or.inl hroom.2⟩
  · simp only [Prefork.createChild] at hexited
    split at hexited
    · cases hexited
    · cases hexited
  · have happend : (s.workers ++ [s.fork pid])[j]? = some w := hw
    rcases getElem?_concat happend with hold | ⟨hj, hnew⟩
    · exact ⟨(h.worker j w hold).1.undealt (hsame j), (h.worker j w hold).2⟩
    · obtain ⟨hsound, hasserted⟩ := (h.parent halive).fork hroom.2 pid
      rw [← hnew, hj]
      exact ⟨hsound.undealt (hsame _), hasserted⟩
  · rw [hworkers]
    exact hroom.1

/-- Out of the loop that creates them, every worker has its pipe. -/
theorem Parent.Sound.pipe_next (h : Parent.Sound s) (hpipes : s.parent.pipes_ ≠ []) :
    s.parent.table.file (s.parent.pipes_.getD s.parent.next_ 0) =
        some (.parentEnd s.parent.next_) ∨ s.parent.phase = .creating := by
  by_cases hcreating : s.parent.phase = .creating
  · exact Or.inr hcreating
  · left
    have hlen := h.pipes_length
    have hnum := h.created hcreating
    have hpos : 0 < s.parent.pipes_.length := List.length_pos_iff.mpr hpipes
    have hnext : s.parent.next_ < s.parent.pipes_.length := by
      rw [h.next_, hlen, hnum]
      exact Nat.mod_lt _ (by omega)
    rw [List.getD_eq_getElem?_getD, List.getElem?_eq_getElem hnext]
    exact h.pipes _ _ (List.getElem?_eq_getElem hnext)

/-- **A socket is sent**: the worker that is next has it in its pipe, and
    the parent has closed it. -/
theorem Parent.Sound.accept_true (h : Parent.Sound s) (hhandling : s.parent.phase = .handling)
    (hpipes : s.parent.pipes_ ≠ []) :
    s.accept true = { s.updateWorker s.parent.next_ (fun w =>
        { w with inbox := w.inbox ++ [s.sent] }) with
      sent := s.sent + 1
      parent := { s.parent with
        table := (s.parent.table.openFile (.connection s.sent)).close s.parent.table.lowest
        next_ := (s.parent.next_ + 1) % s.parent.processNum_
        nextConnectionId_ := s.parent.nextConnectionId_ + 1 } } := by
  have hpipe := (h.pipe_next hpipes).resolve_right (by rw [hhandling]; simp)
  have hfile := DescriptorTable.file_openFile_of_some (f := .connection s.sent) hpipe
  have hsocket : (s.parent.table.openFile (.connection s.sent)).file s.parent.table.lowest =
      some (.connection s.sent) := DescriptorTable.file_openFile_lowest
  simp only [Prefork.accept, Prefork.sendToChild, Prefork.sendFd, hfile, hsocket, if_true]
  rfl

/-- The descriptors of the parent are as before. -/
theorem sameFor_sent (s : Prefork) {f : File} (hf : f ≠ .connection s.sent) :
    DescriptorTable.SameFor f s.parent.table
      ((s.parent.table.openFile (.connection s.sent)).close s.parent.table.lowest) :=
  (DescriptorTable.sameFor_openFile _ hf.symm).trans
    (DescriptorTable.sameFor_close DescriptorTable.file_openFile_lowest hf.symm)

theorem Parent.Sound.accept (h : Parent.Sound s) (hhandling : s.parent.phase = .handling)
    (hpipes : s.parent.pipes_ ≠ []) : Parent.Sound (s.accept true) := by
  have hsame := fun {f : File} => s.sameFor_sent (f := f)
  rw [h.accept_true hhandling hpipes]
  constructor
  · exact (hsame (by simp)).file _ h.standardInput
  · exact (hsame (by simp)).file _ h.epollfd
  · exact (hsame (by simp)).file _ h.timerfd
  · exact (hsame (by simp)).file _ h.listenfd
  · exact h.pipes_length.trans (List.length_modify _ _ _).symm
  · exact fun i fd hfd => (hsame (by simp)).file _ (h.pipes i fd hfd)
  · intro i
    rw [(hsame (by simp)).count]
    exact (h.parentEnds i).trans (by rw [Prefork.updateWorker, List.length_modify])
  · intro i
    rw [(hsame (by simp)).count]
    exact h.childEnds i
  · intro k
    by_cases hk : k = s.sent
    · have hself := DescriptorTable.count_close_self (t := s.parent.table.openFile
        (.connection s.sent)) DescriptorTable.file_openFile_lowest
      rw [DescriptorTable.count_openFile_self, h.connections] at hself
      rw [hk]
      exact Nat.succ.inj hself
    · rw [(hsame (by simpa using hk)).count]
      exact h.connections k
  · show (s.parent.next_ + 1) % s.parent.processNum_ = (s.sent + 1) % s.parent.processNum_
    rw [h.next_]
    exact RoundRobin.next_hand
  · intro hcreating
    rw [show s.parent.phase = .creating from hcreating] at hhandling
    cases hhandling
  · intro _
    exact (List.length_modify _ _ _).trans (h.created (by rw [hhandling]; simp))

theorem Sound.accept (h : s.Sound) (hhandling : s.parent.phase = .handling)
    (hpipes : s.parent.pipes_ ≠ []) {sent : Bool}
    (hreader : sent = true → s.Has s.parent.next_ fun w => w.phase ≠ .exited) :
    (s.accept sent).Sound := by
  have halive : s.parent.phase.alive = true := by
    rw [hhandling]
    rfl
  have hparent := h.parent halive
  cases sent with
  | false =>
    -- what the parent had opened is gone with it
    refine ⟨fun halive => (by cases halive), fun _ => rfl, fun j w hw => ?_, h.room, h.complete⟩
    exact ⟨(h.worker j w hw).1.undealt ⟨rfl, rfl, rfl, rfl, (List.append_nil _).symm⟩,
      (h.worker j w hw).2⟩
  | true =>
    have hsent := hparent.accept hhandling hpipes
    rw [hparent.accept_true hhandling hpipes] at hsent ⊢
    have hcreated := hparent.created (by rw [hhandling]; simp)
    have hsame := length_updateWorker s s.parent.next_ fun w =>
      { w with inbox := w.inbox ++ [s.sent] }
    have hsome : 0 < s.workers.length := by
      rw [← hparent.pipes_length]
      exact List.length_pos_iff.mpr hpipes
    refine ⟨fun _ => hsent, fun hexited => ?_, fun j w hw => ?_,
      Nat.le_of_eq (hsame.trans hcreated), Or.inr ⟨?_, hsame.trans hcreated⟩⟩
    · rw [show s.parent.phase.alive = false from hexited] at halive
      cases halive
    · have hget : (s.updateWorker s.parent.next_ fun w =>
          { w with inbox := w.inbox ++ [s.sent] }).workers[j]? = some w := hw
      rw [getElem?_updateWorker] at hget
      by_cases hj : j = s.parent.next_
      · rw [if_pos hj] at hget
        obtain ⟨v, hv, hvw⟩ := Option.map_eq_some_iff.mp hget
        obtain ⟨u, hu, hreads⟩ := hreader rfl
        have huv : u = v := by
          rw [hj] at hv
          exact Option.some.inj (hu.symm.trans hv)
        rw [← hvw]
        refine ⟨(h.worker j v hv).1.dealt ⟨rfl, rfl, rfl, rfl, ?_⟩ fun _ => ?_,
          (h.worker j v hv).2⟩
        · exact RoundRobin.dealt_succ_self (by rw [hj, hparent.next_])
        · rw [← huv]
          exact hreads
      · rw [if_neg hj] at hget
        refine ⟨(h.worker j w hget).1.undealt ⟨rfl, rfl, rfl, rfl, ?_⟩, (h.worker j w hget).2⟩
        rw [List.append_nil]
        exact RoundRobin.dealt_succ_ne (by rw [← hparent.next_]; exact Ne.symm hj)
    · rw [← hsame] at hsome
      exact hsome

/-- The workers have a signal more. -/
theorem Sound.killAll (h : s.Sound) : (s.killAll.exitParent true).Sound := by
  have hworkers : (s.killAll.exitParent true).workers.length = s.workers.length :=
    List.length_map _
  refine ⟨fun halive => (by cases halive), fun _ => rfl, fun j w hw => ?_,
    by rw [hworkers]; exact h.room, by rw [hworkers]; exact h.complete⟩
  have hmap : (s.workers.map fun w =>
      if w.pid ∈ s.parent.pids_ ∧ w.phase ≠ .exited then
        { w with pending := w.pending ++ [.SIGINT] }
      else w)[j]? = some w := hw
  rw [List.getElem?_map] at hmap
  obtain ⟨v, hv, hvw⟩ := Option.map_eq_some_iff.mp hmap
  have hdeals : Worker.Deals s (s.killAll.exitParent true) j [] :=
    ⟨rfl, rfl, rfl, rfl, (List.append_nil _).symm⟩
  rw [← hvw]
  split
  · exact ⟨((h.worker j v hv).1.flags v.status _).undealt hdeals, (h.worker j v hv).2⟩
  · exact ⟨(h.worker j v hv).1.undealt hdeals, (h.worker j v hv).2⟩

/-- What the parent does between two polls. -/
theorem Sound.parentTurn (h : s.Sound) (halive : s.parent.phase.alive = true)
    {phase : ParentPhase} (hphase : phase = s.parent.phase ∨
      (s.parent.phase ≠ .creating ∧ (phase = .polling ∨ phase = .handling)))
    (status : Status) :
    Sound { s with parent := { s.parent with phase := phase, status := status } } := by
  have hparent := h.parent halive
  have hcreating : phase = .creating → s.parent.phase = .creating := by
    intro heq
    rcases hphase with hsame | ⟨-, hnew⟩
    · rw [← hsame, heq]
    · rw [heq] at hnew
      simp at hnew
  have hcreated : phase ≠ .creating → s.parent.phase ≠ .creating := by
    intro hne
    rcases hphase with hsame | hnew
    · rw [← hsame]
      exact hne
    · exact hnew.1
  refine ⟨fun _ => ⟨hparent.1, hparent.2, hparent.3, hparent.4, hparent.5, hparent.6, hparent.7,
    hparent.8, hparent.9, hparent.10, fun heq => hparent.creating (hcreating heq),
    fun hne => hparent.created (hcreated hne)⟩, fun hexited => ?_, fun j w hw => ?_, h.room,
    h.complete⟩
  · have hnot : phase.alive = true := by
      rcases hphase with hsame | ⟨-, hnew | hnew⟩
      · rw [hsame]
        exact halive
      · rw [hnew]
        rfl
      · rw [hnew]
        rfl
    rw [show phase.alive = false from hexited] at hnot
    cases hnot
  · exact ⟨(h.worker j w hw).1.undealt ⟨rfl, rfl, rfl, rfl, (List.append_nil _).symm⟩,
      (h.worker j w hw).2⟩

theorem Sound.parentPoll (h : s.Sound) (hpolling : s.parent.phase = .polling) :
    s.parentPoll.Sound := by
  unfold Prefork.parentPoll
  split
  · exact h.killAll
  · exact h.parentTurn (by rw [hpolling]; rfl) (Or.inr ⟨by rw [hpolling]; simp, Or.inr rfl⟩) _

/-- What a step of the whole machine asks of a worker. -/
theorem Has.of_getElem? {P : Worker → Prop} (h : s.Has i P) {w : Worker}
    (hw : s.workers[i]? = some w) : P w := by
  obtain ⟨v, hv, hP⟩ := h
  rw [← Option.some.inj (hv.symm.trans hw)]
  exact hP

/-- The history does not matter. -/
theorem Sound.history (h : s.Sound) (misled : Bool) : Sound { s with misled := misled } where
  parent halive := (h.parent halive).congr rfl rfl rfl
  exited := h.exited
  room := h.room
  complete := h.complete
  worker j w hw :=
    ⟨(h.worker j w hw).1.undealt ⟨rfl, rfl, rfl, rfl, (List.append_nil _).symm⟩,
      (h.worker j w hw).2⟩

/-- **One step**: as long as nobody is misled, all is well. -/
theorem Sound.next (h : s.Sound) {l : Step} (hguard : s.guard l)
    (hled : (s.next l).misled = false) : (s.next l).Sound := by
  cases l with
  | createChild pid => exact h.createChild hguard.1 pid
  | parentPoll => exact h.parentPoll hguard
  | accept sent => exact h.accept hguard.1 hguard.2.1 hguard.2.2
  | parentHandled =>
    have hhandling : s.parent.phase = .handling := hguard
    exact h.parentTurn (by rw [hhandling]; rfl) (Or.inr ⟨by rw [hhandling]; simp, Or.inl rfl⟩) _
  | parentSignal signo => exact h.parentTurn hguard.2 (Or.inl rfl) _
  | childBranch i =>
    exact h.updateWorker fun w hw =>
      ⟨(h.worker i w hw).1.childBranch (hguard.of_getElem? hw), (h.worker i w hw).2⟩
  | poll i =>
    refine h.updateWorker fun w hw =>
      ⟨(h.worker i w hw).1.poll (hguard.of_getElem? hw), ?_⟩
    have hasserted := (h.worker i w hw).2
    unfold Worker.poll
    split
    · split
      · exact hasserted
      · exact hasserted
    · exact hasserted
  | receive i data =>
    have hneither := Bool.or_eq_false_iff.mp hled
    have hpos : ∀ w, s.workers[i]? = some w → w.inbox = [] → data ≤ 0 := by
      intro w hw hnil
      by_contra hdata
      exact of_decide_eq_false hneither.2 ⟨by omega, w, hw, hnil⟩
    have hupdated := h.updateWorker (i := i) (f := fun w => w.receive s.name_ data) fun w hw => by
      have hphase := (hguard.of_getElem? hw).1
      have hworker := h.worker i w hw
      refine ⟨hworker.1.receive hphase (hpos w hw), ?_⟩
      unfold Worker.Asserted
      rw [(hworker.1.alive (by rw [hphase]; simp)).erased_receive (hpos w hw)]
      exact hworker.2
    exact hupdated.history _
  | handleClose i c =>
    refine h.updateWorker fun w hw => ?_
    have hclose := (h.worker i w hw).1.handleClose (hguard.of_getElem? hw).1
      (hguard.of_getElem? hw).2
    refine ⟨hclose.1, fun n hn => ?_⟩
    rw [hclose.2] at hn
    rcases List.mem_append.mp hn with hold | hnew
    · exact (h.worker i w hw).2 n hold
    · exact List.mem_singleton.mp hnew
  | handled i =>
    exact h.updateWorker fun w hw =>
      ⟨(h.worker i w hw).1.turn (Or.inr (hguard.of_getElem? hw)) (Or.inl rfl),
        (h.worker i w hw).2⟩
  | kill i signo =>
    exact h.updateWorker fun w hw =>
      ⟨(h.worker i w hw).1.flags w.status _, (h.worker i w hw).2⟩
  | deliver i signo =>
    exact h.updateWorker fun w hw =>
      ⟨(h.worker i w hw).1.deliver signo, by
        unfold Worker.Asserted
        rw [Worker.erased_deliver]
        exact (h.worker i w hw).2⟩
  | die i =>
    exact h.updateWorker fun w hw => ⟨(h.worker i w hw).1.exit, (h.worker i w hw).2⟩

/-! ## All runs -/

/-- Nobody is misled while the parent lives, and as long as nobody is
    misled, all is well. -/
structure Led (n : Nat) (s : Prefork) : Prop where
  processNum_ : s.parent.processNum_ = n
  alive : s.parent.phase.alive = true → s.misled = false
  sound : s.misled = false → s.Sound

theorem sound_started (name : String) (n : Nat) (others : List (Option Nat)) :
    (started name n others).Sound := by
  have hcount : ∀ f, (∀ m, f ≠ .inherited m) → (inherited others).count f = 0 := by
    intro f hf
    refine List.count_eq_zero.mpr fun hmem => ?_
    rcases List.mem_cons.mp hmem with heq | hmem
    · exact hf 0 (Option.some.inj heq)
    · obtain ⟨m, -, heq⟩ := List.mem_map.mp hmem
      obtain ⟨k, -, hk⟩ := Option.map_eq_some_iff.mp heq
      exact hf k hk.symm
  have hnone : ∀ f, (∀ m, f ≠ .inherited m) → (∀ p, f ≠ .epoll p) → (∀ p, f ≠ .timer p) →
      f ≠ .listening → (started name n others).parent.table.count f = 0 := by
    intro f hf hepoll htimer hlisten
    show DescriptorTable.count (DescriptorTable.openFile _ _) f = 0
    rw [DescriptorTable.count_openFile_ne _ hlisten.symm,
      DescriptorTable.count_openFile_ne _ (htimer none).symm,
      DescriptorTable.count_openFile_ne _ (hepoll none).symm, hcount f hf]
  have hphase : (started name n others).parent.phase = .creating ↔ n ≠ 0 := by
    by_cases hn : n = 0
    · simp [started, hn]
    · simp [started, hn]
  refine ⟨fun _ => ⟨?_, ?_, ?_, ?_, rfl, fun i fd hfd => (by cases hfd), fun i => ?_, fun i => ?_,
    fun k => ?_, (Nat.zero_mod n).symm, fun hcreating => ?_, fun hcreated => ?_⟩,
    fun hexited => ?_, fun i w hw => (by cases hw), Nat.zero_le _, Or.inl rfl⟩
  · exact DescriptorTable.file_openFile_of_some (DescriptorTable.file_openFile_of_some
      (DescriptorTable.file_openFile_of_some rfl))
  · exact DescriptorTable.file_openFile_of_some (DescriptorTable.file_openFile_of_some
      DescriptorTable.file_openFile_lowest)
  · exact DescriptorTable.file_openFile_of_some DescriptorTable.file_openFile_lowest
  · exact DescriptorTable.file_openFile_lowest
  · exact hnone _ (by simp) (by simp) (by simp) (by simp)
  · exact hnone _ (by simp) (by simp) (by simp) (by simp)
  · exact hnone _ (by simp) (by simp) (by simp) (by simp)
  · exact ⟨Nat.pos_of_ne_zero (hphase.mp hcreating), rfl⟩
  · by_contra hn
    exact hcreated (hphase.mpr fun hzero => hn hzero.symm)
  · simp only [started] at hexited
    split at hexited
    · cases hexited
    · cases hexited

theorem led_started (name : String) (n : Nat) (others : List (Option Nat)) :
    (started name n others).Led n := ⟨rfl, fun _ => rfl, fun _ => sound_started name n others⟩

/-- The parent does not come back, -/
theorem alive_of_next {l : Step} (hguard : s.guard l)
    (halive : (s.next l).parent.phase.alive = true) : s.parent.phase.alive = true := by
  cases l with
  | createChild pid =>
    rw [show s.parent.phase = .creating from hguard.1]
    rfl
  | parentPoll =>
    rw [show s.parent.phase = .polling from hguard]
    rfl
  | accept sent =>
    rw [show s.parent.phase = .handling from hguard.1]
    rfl
  | parentHandled =>
    rw [show s.parent.phase = .handling from hguard]
    rfl
  | parentSignal signo => exact hguard.2
  | childBranch i => exact halive
  | poll i => exact halive
  | receive i data => exact halive
  | handleClose i c => exact halive
  | handled i => exact halive
  | kill i signo => exact halive
  | deliver i signo => exact halive
  | die i => exact halive

theorem sendFd_same (s : Prefork) (pipefd sockfd : Nat) :
    (s.sendFd pipefd sockfd).parent = s.parent ∧ (s.sendFd pipefd sockfd).misled = s.misled := by
  unfold Prefork.sendFd
  split
  · exact ⟨rfl, rfl⟩
  · exact ⟨rfl, rfl⟩

theorem accept_same (s : Prefork) (sent : Bool) :
    (s.accept sent).parent.processNum_ = s.parent.processNum_ ∧
      (s.accept sent).misled = s.misled := by
  cases sent with
  | false => exact ⟨rfl, rfl⟩
  | true =>
    constructor
    · show (Prefork.sendFd _ _ _).parent.processNum_ = _
      rw [(sendFd_same _ _ _).1]
    · exact (sendFd_same _ _ _).2

theorem parentPoll_same (s : Prefork) :
    s.parentPoll.parent.processNum_ = s.parent.processNum_ ∧ s.parentPoll.misled = s.misled := by
  unfold Prefork.parentPoll
  split
  · exact ⟨rfl, rfl⟩
  · exact ⟨rfl, rfl⟩

/-- Only a `receive` misleads. -/
theorem misled_next (s : Prefork) (l : Step) : (s.next l).misled = s.misled ∨
    ∃ i data, l = .receive i data ∧
      (s.next l).misled = (s.misled || decide (s.Misleads i data)) := by
  cases l with
  | receive i data => exact .inr ⟨i, data, rfl, rfl⟩
  | accept sent => exact .inl (accept_same s sent).2
  | parentPoll => exact .inl (parentPoll_same s).2
  | createChild | parentHandled | parentSignal | childBranch | poll | handleClose | handled | kill
  | deliver | die => exact .inl rfl

theorem misled_of_next {l : Step} (hled : (s.next l).misled = false) : s.misled = false := by
  rcases misled_next s l with hsame | ⟨i, data, -, hnow⟩
  · rw [← hsame]
    exact hled
  · rw [hnow] at hled
    exact (Bool.or_eq_false_iff.mp hled).1

/-- Only a worker whose pipe is at its end is misled. -/
theorem atEnd_of_misled {l : Step} (hguard : s.guard l) (hled : s.misled = false)
    (hmisled : (s.next l).misled = true) : ∃ i w, s.workers[i]? = some w ∧ s.AtEnd i w := by
  rcases misled_next s l with hsame | ⟨i, data, rfl, hnow⟩
  · rw [hsame, hled] at hmisled
    cases hmisled
  · rw [hnow, hled, Bool.false_or] at hmisled
    obtain ⟨hdata, w, hw, hnil⟩ := of_decide_eq_true hmisled
    refine ⟨i, w, hw, ?_⟩
    exact (hguard.of_getElem? hw).2.2.resolve_left (by rw [hnil]; simp)

/-- The parent can write to every worker. -/
theorem Parent.Sound.not_atEnd (h : Parent.Sound s) {w : Worker} (hw : s.workers[i]? = some w) :
    ¬ s.AtEnd i w := by
  intro hend
  have hi : i < s.workers.length := (List.getElem?_eq_some_iff.mp hw).1
  have hone := h.parentEnds i
  have hnone := hend.2
  rw [if_pos hi] at hone
  rw [writers] at hnone
  omega

theorem processNum_next (s : Prefork) (l : Step) :
    (s.next l).parent.processNum_ = s.parent.processNum_ := by
  cases l with
  | accept sent => exact (accept_same s sent).1
  | parentPoll => exact (parentPoll_same s).1
  | createChild | parentHandled | parentSignal | childBranch | poll | receive | handleClose
  | handled | kill | deliver | die => rfl

theorem Led.next {n : Nat} (h : s.Led n) {l : Step} (hguard : s.guard l) : (s.next l).Led n where
  processNum_ := (processNum_next s l).trans h.processNum_
  alive halive := by
    have hbefore := alive_of_next hguard halive
    have hled := h.alive hbefore
    by_contra hmisled
    obtain ⟨i, w, hw, hend⟩ := atEnd_of_misled hguard hled ((Bool.not_eq_false _).mp hmisled)
    exact ((h.sound hled).parent hbefore).not_atEnd hw hend
  sound hled := (h.sound (misled_of_next hled)).next hguard hled

theorem led_run (name : String) (n : Nat) (others : List (Option Nat)) {ls : List Step}
    (hrun : prefork.Valid (started name n others) ls) :
    (prefork.run (started name n others) ls).Led n :=
  prefork.invariant_run (Led n) (fun _ _ h hguard => h.next hguard)
    (led_started name n others) hrun

/-- Two workers, and three clients; the first of them is gone again. -/
def threeClients : List Step :=
  [.createChild 10, .createChild 11, .childBranch 1, .childBranch 0, .parentPoll,
    .accept true, .accept true, .poll 0, .receive 0 7, .accept true,
    .handleClose 0 ⟨"web subprocess10_connection_1", 3⟩, .parentHandled]

/-- How many descriptors and messages refer to the socket of a client. -/
def references (s : Prefork) (k : Nat) : Nat :=
  s.parent.table.count (.connection k) +
    (s.workers.map fun w => w.inbox.count k + w.table.count (.connection k)).sum

/-- A worker that has not closed the socket, or not exited, has it. -/
theorem Worker.Sound.references {w : Worker} (h : w.Sound s i) (k : Nat) :
    (w.phase ≠ .exited → w.inbox.count k + w.table.count (.connection k) + w.closed.count k =
        if k < s.sent ∧ k % s.parent.processNum_ = i then 1 else 0) ∧
      (w.phase = .exited → w.inbox.count k + w.table.count (.connection k) = 0) := by
  refine ⟨fun halive => ?_, fun hexited => ?_⟩
  · rw [(h.alive halive).held k, RoundRobin.nodup_dealt.count]
    simp only [RoundRobin.mem_dealt]
  · cases h with
    | forked hforked _ _ => rw [hexited] at hforked; cases hforked
    | serving hserving _ _ => rw [hexited] at hserving; simp at hserving
    | gone _ gone =>
      rw [gone.inbox, gone.table]
      rfl

theorem sum_eq_getElem {l : List Nat} (hi : i < l.length)
    (hother : ∀ j (hj : j < l.length), j ≠ i → l[j] = 0) : l.sum = l[i] := by
  rw [← Fin.sum_univ_getElem]
  exact Finset.sum_eq_single (⟨i, hi⟩ : Fin l.length)
    (fun j _ hj => hother j j.isLt fun heq => hj (Fin.ext heq)) (by simp)

/-- Nobody but the worker it was dealt to refers to a socket. -/
theorem Sound.references_other (h : s.Sound) (k : Nat) {w : Worker}
    (hw : s.workers[i]? = some w) (hother : ¬ (k < s.sent ∧ k % s.parent.processNum_ = i)) :
    w.inbox.count k + w.table.count (.connection k) = 0 := by
  have hrefs := (h.worker i w hw).1.references k
  by_cases hexited : w.phase = .exited
  · exact hrefs.2 hexited
  · have hsum := hrefs.1 hexited
    rw [if_neg hother] at hsum
    omega

theorem Sound.references_parent (h : s.Sound) (k : Nat) :
    s.parent.table.count (.connection k) = 0 := by
  by_cases halive : s.parent.phase.alive = true
  · exact (h.parent halive).connections k
  · rw [h.exited ((Bool.not_eq_true _).mp halive)]
    rfl

theorem Sound.references_eq (h : s.Sound) (k : Nat) {w : Worker}
    (hw : s.workers[k % s.parent.processNum_]? = some w) :
    s.references k = w.inbox.count k + w.table.count (.connection k) := by
  obtain ⟨hi, heq⟩ := List.getElem?_eq_some_iff.mp hw
  have hlen : k % s.parent.processNum_ <
      (s.workers.map fun w => w.inbox.count k + w.table.count (.connection k)).length := by
    rw [List.length_map]
    exact hi
  have hother : ∀ j (hj : j < (s.workers.map fun w =>
      w.inbox.count k + w.table.count (.connection k)).length),
      j ≠ k % s.parent.processNum_ → (s.workers.map fun w =>
        w.inbox.count k + w.table.count (.connection k))[j] = 0 := by
    intro j hj hne
    rw [List.getElem_map]
    exact h.references_other k (List.getElem?_eq_getElem (by simpa using hj))
      fun hmine => hne hmine.2.symm
  rw [Prefork.references, h.references_parent, Nat.zero_add, sum_eq_getElem hlen hother,
    List.getElem_map, heq]

theorem Sound.references_unsent (h : s.Sound) {k : Nat} (hk : s.sent ≤ k) :
    s.references k = 0 := by
  rw [Prefork.references, h.references_parent, Nat.zero_add, List.sum_eq_zero_iff]
  intro n hn
  obtain ⟨w, hmem, heq⟩ := List.mem_map.mp hn
  obtain ⟨j, hj, hwj⟩ := List.mem_iff_getElem.mp hmem
  rw [← heq]
  exact h.references_other k (List.getElem?_eq_some_iff.mpr ⟨hj, hwj⟩) fun hmine => by omega

end Prefork

end TinyWS
