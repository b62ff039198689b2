import TinyWS.MultiProcess.Prefork
import TinyWS.Framework.RoundRobin

/-! # Workers

    What is known of the processes of multiProcess1 as long as nobody was
    misled, and that a worker keeps its part of it: what it closes behind
    the fork, what it takes out of its pipe, and what it gives back when a
    connection ends. -/

namespace TinyWS

open Std

namespace Prefork

/-! ## The invariant -/

/-- What is known of a worker that has not exited. -/
structure Worker.Live (s : Prefork) (i : Nat) (w : Worker) : Prop where
  standardInput : w.table.file 0 = some (.inherited 0)
  /-- It has what it was dealt, or will find it in its pipe. -/
  dispatched : w.adopted ++ w.inbox = RoundRobin.dealt s.parent.processNum_ i s.sent
  /-- Each of these sockets is in its pipe, open, or closed. -/
  held : ∀ k, w.inbox.count k + w.table.count (.connection k) + w.closed.count k =
    (RoundRobin.dealt s.parent.processNum_ i s.sent).count k
  childEnds : ∀ j, w.table.count (.childEnd j) = if j = i then 1 else 0

/-- Behind the fork, all that was open in the parent is open. -/
structure Worker.Forked (s : Prefork) (i : Nat) (w : Worker) : Prop where
  epollfd : w.table.file s.parent.epollfd = some (.epoll none)
  timerfd : w.table.file s.parent.timerfd = some (.timer none)
  listenfd : w.table.file s.parent.listenfd = some .listening
  parentEnd : w.table.file w.fds.1 = some (.parentEnd i)
  parentEnds : ∀ j, w.table.count (.parentEnd j) = if j ≤ i then 1 else 0
  sockets : ∀ k, w.table.count (.connection k) = 0
  connections : w.connections = []
  unmapped : w.connectionMap_ = ∅

/-- A worker that serves its connections. -/
structure Worker.Serving (s : Prefork) (i : Nat) (w : Worker) : Prop where
  /-- The ends of the earlier pipes were inherited, and are never closed. -/
  parentEnds : ∀ j, w.table.count (.parentEnd j) = if j < i then 1 else 0
  mapped : ∀ c ∈ w.connections, w.connectionMap_[c.name_]? = some c.socket_
  /-- The map has nothing else. -/
  listed : ∀ name fd, w.connectionMap_[name]? = some fd → ⟨name, fd⟩ ∈ w.connections
  named : ∀ c ∈ w.connections,
    ∃ id < w.nextConnectionId_, c.name_ = w.connectionName s.name_ id
  distinct : w.connections.Pairwise fun c d => c.name_ ≠ d.name_ ∧ c.socket_ ≠ d.socket_
  sockets : ∀ c ∈ w.connections, ∃ k, w.table.file c.socket_ = some (.connection k)
  /-- No socket is left open without its connection. -/
  owned : ∀ fd k, w.table.file fd = some (.connection k) → ∃ c ∈ w.connections, c.socket_ = fd

/-- A worker that has exited. -/
structure Worker.Gone (s : Prefork) (i : Nat) (w : Worker) : Prop where
  table : w.table = .empty
  inbox : w.inbox = []
  adopted : w.adopted <+: RoundRobin.dealt s.parent.processNum_ i s.sent

inductive Worker.Sound (s : Prefork) (i : Nat) (w : Worker) : Prop where
  | forked (phase : w.phase = .forked) (live : w.Live s i) (forked : w.Forked s i)
  | serving (phase : w.phase = .polling ∨ w.phase = .handling) (live : w.Live s i)
      (serving : w.Serving s i)
  | gone (phase : w.phase = .exited) (gone : w.Gone s i)

/-- The parent, as long as it lives. -/
structure Parent.Sound (s : Prefork) : Prop where
  standardInput : s.parent.table.file 0 = some (.inherited 0)
  epollfd : s.parent.table.file s.parent.epollfd = some (.epoll none)
  timerfd : s.parent.table.file s.parent.timerfd = some (.timer none)
  listenfd : s.parent.table.file s.parent.listenfd = some .listening
  pipes_length : s.parent.pipes_.length = s.workers.length
  pipes : ∀ i fd, s.parent.pipes_[i]? = some fd → s.parent.table.file fd = some (.parentEnd i)
  parentEnds : ∀ i, s.parent.table.count (.parentEnd i) = if i < s.workers.length then 1 else 0
  childEnds : ∀ i, s.parent.table.count (.childEnd i) = 0
  connections : ∀ k, s.parent.table.count (.connection k) = 0
  next_ : s.parent.next_ = s.sent % s.parent.processNum_
  creating : s.parent.phase = .creating → s.workers.length < s.parent.processNum_ ∧ s.sent = 0
  created : s.parent.phase ≠ .creating → s.workers.length = s.parent.processNum_

/-- The assertion of `removeConnection` never failed. -/
def Worker.Asserted (w : Worker) : Prop := ∀ n ∈ w.erased, n = 1

/-- All processes, as long as no worker was misled. -/
structure Sound (s : Prefork) : Prop where
  parent : s.parent.phase.alive = true → Parent.Sound s
  exited : s.parent.phase.alive = false → s.parent.table = .empty
  worker : ∀ i (w : Worker), s.workers[i]? = some w → w.Sound s i ∧ w.Asserted
  /-- There are as many workers as the parent deals to. -/
  room : s.workers.length ≤ s.parent.processNum_
  complete : s.sent = 0 ∨
    0 < s.workers.length ∧ s.workers.length = s.parent.processNum_

/-! ## Worker by worker -/

theorem getElem?_updateWorker (s : Prefork) (i j : Nat) (f : Worker → Worker) :
    (s.updateWorker i f).workers[j]? =
      if j = i then s.workers[j]?.map f else s.workers[j]? := by
  show (s.workers.modify i f)[j]? = _
  rw [List.getElem?_modify]
  by_cases h : i = j
  · simp [h]
  · simp [h, Ne.symm h]

namespace Worker

variable {s : Prefork} {i : Nat} {w : Worker}

/-- Nothing is open but the sockets, and nothing is held twice. -/
theorem Sound.alive (h : w.Sound s i) (halive : w.phase ≠ .exited) : w.Live s i := by
  cases h with
  | forked _ live _ => exact live
  | serving _ live _ => exact live
  | gone phase _ => exact absurd phase halive

theorem Live.adopted (h : w.Live s i) :
    w.adopted <+: RoundRobin.dealt s.parent.processNum_ i s.sent := by
  rw [← h.dispatched]
  exact List.prefix_append _ _

theorem Sound.adopted (h : w.Sound s i) :
    w.adopted <+: RoundRobin.dealt s.parent.processNum_ i s.sent := by
  cases h with
  | forked _ live _ => exact live.adopted
  | serving _ live _ => exact live.adopted
  | gone _ gone => exact gone.adopted

/-- **Exit**: everything is closed. -/
theorem Sound.exit (h : w.Sound s i) : w.exit.Sound s i :=
  .gone rfl ⟨rfl, rfl, h.adopted⟩

/-- Signals and flags do not matter. -/
theorem Sound.flags (h : w.Sound s i) (status : Status) (pending : List Signo) :
    Sound s i { w with status := status, pending := pending } := by
  cases h with
  | forked phase live forked =>
    exact .forked phase ⟨live.1, live.2, live.3, live.4⟩
      ⟨forked.1, forked.2, forked.3, forked.4, forked.5, forked.6, forked.7, forked.8⟩
  | serving phase live serving =>
    exact .serving phase ⟨live.1, live.2, live.3, live.4⟩
      ⟨serving.1, serving.2, serving.3, serving.4, serving.5, serving.6, serving.7⟩
  | gone phase gone => exact .gone phase ⟨gone.1, gone.2, gone.3⟩

/-- Between polling and handling. -/
theorem Sound.turn (h : w.Sound s i) (hphase : w.phase = .polling ∨ w.phase = .handling)
    {phase : Phase} (hnew : phase = .polling ∨ phase = .handling) :
    Sound s i { w with phase := phase } := by
  cases h with
  | forked hforked _ _ => rw [hforked] at hphase; simp at hphase
  | serving _ live serving =>
    exact .serving hnew ⟨live.1, live.2, live.3, live.4⟩
      ⟨serving.1, serving.2, serving.3, serving.4, serving.5, serving.6, serving.7⟩
  | gone hgone _ => rw [hgone] at hphase; simp at hphase

theorem Sound.poll (h : w.Sound s i) (hphase : w.phase = .polling) : w.poll.Sound s i := by
  unfold Worker.poll
  split
  · split
    · exact h.exit
    · exact h
  · exact h.turn (Or.inl hphase) (Or.inr rfl)

theorem Sound.deliver (h : w.Sound s i) (signo : Signo) : (w.deliver i signo).Sound s i := by
  have herased := h.flags w.status (w.pending.erase signo)
  unfold Worker.deliver handleSignal
  split
  · split
    · exact herased
    · split
      · exact herased.exit
      · exact herased.flags _ _
  · split
    · exact herased.flags _ _
    · exact herased.flags _ _

theorem erased_deliver (w : Worker) (i : Nat) (signo : Signo) :
    (w.deliver i signo).erased = w.erased := by
  unfold Worker.deliver handleSignal
  split
  · split
    · rfl
    · split
      · rfl
      · rfl
  · split
    · rfl
    · rfl

/-- A file that a child does not give back. -/
def Lasting : File → Prop
  | .epoll _ | .timer _ | .listening => False
  | .inherited _ | .parentEnd _ | .childEnd _ | .connection _ => True

/-- What the child branch closes and opens in front of `setChildSocket`. -/
theorem sameFor_childBranch (h : w.Forked s i) {f : File} (hf : Lasting f) :
    DescriptorTable.SameFor f w.table
      (((((w.table.close s.parent.listenfd).close s.parent.timerfd).close
        s.parent.epollfd).openFile (.epoll (some i))).openFile (.timer (some i))) := by
  have hlisten : File.listening ≠ f := by intro heq; rw [← heq] at hf; exact hf
  have htimer : ∀ p, File.timer p ≠ f := by intro p heq; rw [← heq] at hf; exact hf
  have hepoll : ∀ p, File.epoll p ≠ f := by intro p heq; rw [← heq] at hf; exact hf
  have hclosed := DescriptorTable.sameFor_close h.listenfd (f := f) hlisten
  have htimerfd := (DescriptorTable.sameFor_close h.listenfd (f := .timer none) (by simp)).file
    _ h.timerfd
  have hepollfd := (DescriptorTable.sameFor_close h.listenfd (f := .epoll none) (by simp)).file
    _ h.epollfd
  have hepollfd' := (DescriptorTable.sameFor_close htimerfd (f := .epoll none) (by simp)).file
    _ hepollfd
  refine hclosed.trans ((DescriptorTable.sameFor_close htimerfd (htimer _)).trans ?_)
  refine (DescriptorTable.sameFor_close hepollfd' (hepoll _)).trans ?_
  exact (DescriptorTable.sameFor_openFile _ (hepoll _)).trans
    (DescriptorTable.sameFor_openFile _ (htimer _))

/-- The child branch closes what belongs to the parent. -/
theorem Sound.childBranch (h : w.Sound s i) (hphase : w.phase = .forked) :
    (w.childBranch i s.parent.listenfd s.parent.timerfd s.parent.epollfd).Sound s i := by
  cases h with
  | serving hserving _ _ => rw [hphase] at hserving; simp at hserving
  | gone hgone _ => rw [hphase] at hgone; cases hgone
  | forked _ live forked =>
    -- first all but the end of the pipe
    have hend := (sameFor_childBranch forked (f := .parentEnd i) trivial).file _ forked.parentEnd
    have hsame : ∀ f, Lasting f → f ≠ .parentEnd i → DescriptorTable.SameFor f w.table
        (w.childBranch i s.parent.listenfd s.parent.timerfd s.parent.epollfd).table :=
      fun f hf hne => (sameFor_childBranch forked hf).trans
        (DescriptorTable.sameFor_close hend hne.symm)
    have hnone : (w.childBranch i s.parent.listenfd s.parent.timerfd
        s.parent.epollfd).connections = [] := forked.connections
    have hempty : (w.childBranch i s.parent.listenfd s.parent.timerfd
        s.parent.epollfd).connectionMap_ = ∅ := forked.unmapped
    have hsocket : ∀ k, DescriptorTable.SameFor (.connection k) w.table
        (w.childBranch i s.parent.listenfd s.parent.timerfd s.parent.epollfd).table :=
      fun k => hsame (.connection k) trivial (by simp)
    refine .serving (Or.inl rfl) ⟨?_, live.dispatched, fun k => ?_, fun j => ?_⟩
      ⟨fun j => ?_, by simp [hnone], by simp [hempty], by simp [hnone], by simp [hnone],
        by simp [hnone], fun fd k hfile => ?_⟩
    · exact (hsame (.inherited 0) trivial (by simp)).file 0 live.standardInput
    · have hk := live.held k
      rw [← (hsocket k).count] at hk
      exact hk
    · rw [(hsame (.childEnd j) trivial (by simp)).count]
      exact live.childEnds j
    · have hj := forked.parentEnds j
      by_cases hji : j = i
      · -- its own pipe: the parent's end was inherited, and is closed here
        have hself := DescriptorTable.count_close_self hend
        rw [(sameFor_childBranch forked (f := .parentEnd i) trivial).count, ← hji, hj,
          if_pos (by omega)] at hself
        rw [if_neg (by omega), hji]
        rw [hji] at hself
        exact Nat.succ.inj hself
      · -- an earlier pipe: the inherited end stays open
        rw [(hsame (.parentEnd j) trivial (by simpa using hji)).count, hj]
        have hiff : j ≤ i ↔ j < i := by omega
        simp only [hiff]
    · -- no socket was open at the fork
      have hzero := forked.sockets k
      rw [← (hsocket k).count] at hzero
      exact absurd hfile (DescriptorTable.file_ne_of_count_eq_zero hzero fd)

/-! ### Messages -/

theorem connectionName_injective (w : Worker) (name : String) {c d : Nat}
    (h : w.connectionName name c = w.connectionName name d) : c = d := by
  rw [connectionName, connectionName, String.append_right_inj] at h
  exact Nat.repr_inj.mp h

/-- With a descriptor from the pipe comes a connection, -/
theorem receive_cons (w : Worker) (name : String) (data : Int) {k : Nat} {inbox : List Nat}
    (hinbox : w.inbox = k :: inbox) (hfd : w.table.lowest ≠ 0) :
    w.receive name data = newConnectionInChild
      { w with
        table := w.table.openFile (.connection k)
        inbox := inbox
        adopted := w.adopted ++ [k] } name w.table.lowest := by
  have hpos : 0 < Process.SocketPair.receiveFd ⟨data, .descriptor w.table.lowest⟩ := by
    rw [Process.SocketPair.receiveFd_descriptor]
    omega
  have hcalls : pipe.handleRead ⟨data, .descriptor w.table.lowest⟩ =
      [.receiveFdCallback w.table.lowest] := Process.SocketPair.handleRead_pos hpos rfl
  simp only [receive, recvmsg, hinbox, hcalls]
  rfl

/-- and at its end nothing, unless the memory looks like a descriptor. -/
theorem receive_nil (w : Worker) (name : String) {data : Int} (hinbox : w.inbox = [])
    (hdata : data ≤ 0) : w.receive name data = w := by
  have hcalls : pipe.handleRead ⟨data, .endOfStream⟩ = [] := by
    by_cases hzero : data = 0
    · exact Process.SocketPair.handleRead_zero hzero
    · exact Process.SocketPair.handleRead_neg (show data < 0 by omega)
  simp only [receive, recvmsg, hinbox, hcalls]
  rfl

/-- The standard input is open. -/
theorem Live.lowest_ne_zero (h : w.Live s i) : w.table.lowest ≠ 0 := by
  have hopen : w.table.file 0 ≠ none := by
    rw [h.standardInput]
    exact Option.some_ne_none _
  exact (DescriptorTable.ne_lowest hopen).symm

/-- **A message** is taken out of the pipe, and its socket is open. -/
theorem Live.receive (h : w.Live s i) (data : Int) {k : Nat} {inbox : List Nat}
    (hinbox : w.inbox = k :: inbox) : (w.receive s.name_ data).Live s i := by
  rw [receive_cons w s.name_ data hinbox h.lowest_ne_zero]
  refine ⟨DescriptorTable.file_openFile_of_some h.standardInput, ?_, fun l => ?_, fun j => ?_⟩
  · have hdealt := h.dispatched
    rw [hinbox] at hdealt
    show (w.adopted ++ [k]) ++ inbox = _
    rw [← hdealt, List.append_assoc]
    rfl
  · have hl := h.held l
    rw [hinbox, List.count_cons] at hl
    show inbox.count l + (w.table.openFile (.connection k)).count (.connection l) +
      w.closed.count l = _
    -- the socket `k` moves from the pipe to the table
    rw [DescriptorTable.count_openFile, ← hl]
    by_cases hkl : k = l
    · simp [hkl]
      omega
    · simp [hkl]
  · rw [← h.childEnds j]
    exact DescriptorTable.count_openFile_ne _ (by simp)

/-- **A new connection** has a name and a descriptor that no other has. -/
theorem Serving.receive (h : w.Serving s i) (live : w.Live s i) (data : Int) {k : Nat}
    {inbox : List Nat} (hinbox : w.inbox = k :: inbox) :
    (w.receive s.name_ data).Serving s i := by
  rw [receive_cons w s.name_ data hinbox live.lowest_ne_zero]
  -- ids grow, so the name is new
  have hname : ∀ c ∈ w.connections, w.connectionName s.name_ w.nextConnectionId_ ≠ c.name_ := by
    intro c hc heq
    obtain ⟨id, hid, hcname⟩ := h.named c hc
    rw [hcname] at heq
    have hsame := connectionName_injective w s.name_ heq
    omega
  -- the kernel gives out a number that is not in use
  have hsocket : ∀ c ∈ w.connections, w.table.lowest ≠ c.socket_ := by
    intro c hc
    obtain ⟨l, hfile⟩ := h.sockets c hc
    have hopen : w.table.file c.socket_ ≠ none := by
      rw [hfile]
      exact Option.some_ne_none _
    exact (DescriptorTable.ne_lowest hopen).symm
  refine ⟨fun j => ?_, fun c hc => ?_, fun name fd hentry => ?_, fun c hc => ?_, ?_,
    fun c hc => ?_, fun fd l hfile => ?_⟩
  · rw [← h.parentEnds j]
    exact DescriptorTable.count_openFile_ne _ (by simp)
  · show (w.connectionMap_.insert (w.connectionName s.name_ w.nextConnectionId_)
      w.table.lowest)[c.name_]? = _
    rw [ExtTreeMap.getElem?_insert]
    rcases List.mem_cons.mp hc with hnew | hold
    · rw [hnew]
      exact if_pos compare_self
    · rw [if_neg (by simpa using hname c hold)]
      exact h.mapped c hold
  · change (w.connectionMap_.insert (w.connectionName s.name_ w.nextConnectionId_)
      w.table.lowest)[name]? = some fd at hentry
    rw [ExtTreeMap.getElem?_insert] at hentry
    by_cases hnew : w.connectionName s.name_ w.nextConnectionId_ = name
    · rw [if_pos (by rw [hnew]; exact compare_self)] at hentry
      rw [← hnew, ← Option.some.inj hentry]
      exact List.mem_cons_self
    · rw [if_neg (by simpa using hnew)] at hentry
      exact List.mem_cons_of_mem _ (h.listed name fd hentry)
  · rcases List.mem_cons.mp hc with hnew | hold
    · rw [hnew]
      exact ⟨w.nextConnectionId_, Nat.lt_succ_self _, rfl⟩
    · obtain ⟨id, hid, hcname⟩ := h.named c hold
      exact ⟨id, Nat.lt_succ_of_lt hid, hcname⟩
  · exact List.Pairwise.cons (fun c hc => ⟨hname c hc, hsocket c hc⟩) h.distinct
  · rcases List.mem_cons.mp hc with hnew | hold
    · rw [hnew]
      exact ⟨k, DescriptorTable.file_openFile_lowest⟩
    · obtain ⟨l, hfile⟩ := h.sockets c hold
      exact ⟨l, DescriptorTable.file_openFile_of_some hfile⟩
  · have hsome : (w.table.openFile (.connection k)).file fd = some (.connection l) := hfile
    rw [DescriptorTable.file_openFile] at hsome
    by_cases hfd : fd = w.table.lowest
    · -- the new descriptor has the new connection
      exact ⟨_, List.mem_cons_self, hfd.symm⟩
    · rw [if_neg hfd] at hsome
      obtain ⟨c, hc, hcfd⟩ := h.owned fd l hsome
      exact ⟨c, List.mem_cons_of_mem _ hc, hcfd⟩

theorem Live.erased_receive (h : w.Live s i) {data : Int} (hled : w.inbox = [] → data ≤ 0) :
    (w.receive s.name_ data).erased = w.erased := by
  cases hinbox : w.inbox with
  | nil => rw [receive_nil w s.name_ hinbox (hled hinbox)]
  | cons k inbox =>
    rw [receive_cons w s.name_ data hinbox h.lowest_ne_zero]
    rfl

theorem Sound.receive (h : w.Sound s i) (hphase : w.phase = .handling) {data : Int}
    (hled : w.inbox = [] → data ≤ 0) : (w.receive s.name_ data).Sound s i := by
  cases hinbox : w.inbox with
  | nil =>
    rw [receive_nil w s.name_ hinbox (hled hinbox)]
    exact h
  | cons k inbox =>
    cases h with
    | forked hforked _ _ => rw [hphase] at hforked; cases hforked
    | gone hgone _ => rw [hphase] at hgone; cases hgone
    | serving _ live serving =>
      refine .serving ?_ (live.receive data hinbox) (serving.receive live data hinbox)
      rw [receive_cons w s.name_ data hinbox live.lowest_ne_zero]
      exact Or.inr hphase

/-! ### The end of a connection -/

/-- The other connections have other names and other descriptors. -/
theorem Serving.of_mem_erase (h : w.Serving s i) {c d : Connection} (hc : c ∈ w.connections)
    (hd : d ∈ w.connections.erase c) :
    d ∈ w.connections ∧ c.name_ ≠ d.name_ ∧ c.socket_ ≠ d.socket_ := by
  have hnodup : w.connections.Nodup := h.distinct.imp fun hne heq => hne.1 (by rw [heq])
  obtain ⟨hne, hmem⟩ := hnodup.mem_erase_iff.mp hd
  have : Std.Symm fun c d : Connection => c.name_ ≠ d.name_ ∧ c.socket_ ≠ d.socket_ :=
    ⟨fun _ _ hab => ⟨hab.1.symm, hab.2.symm⟩⟩
  exact ⟨hmem, h.distinct.forall hc hmem hne.symm⟩

/-- The map has the connection. -/
theorem Serving.erased_handleClose (h : w.Serving s i) {c : Connection}
    (hc : c ∈ w.connections) : (w.handleClose c).erased = w.erased ++ [1] := by
  have hmem : w.connectionMap_.contains c.name_ = true := by
    rw [ExtTreeMap.contains_eq_isSome_getElem?, h.mapped c hc]
    rfl
  show w.erased ++ [if w.connectionMap_.contains c.name_ then 1 else 0] = _
  rw [if_pos hmem]

theorem Live.handleClose (h : w.Live s i) {c : Connection} {k : Nat}
    (hfile : w.table.file c.socket_ = some (.connection k)) : (w.handleClose c).Live s i := by
  have hclosed : (w.handleClose c).closed = w.closed ++ [k] := by
    simp only [Worker.handleClose, hfile]
  refine ⟨?_, h.dispatched, fun l => ?_, fun j => ?_⟩
  · exact DescriptorTable.file_close_of_some h.standardInput (by rw [hfile]; simp)
  · have hl := h.held l
    show w.inbox.count l + (w.table.close c.socket_).count (.connection l) +
      (w.handleClose c).closed.count l = _
    -- the socket `k` moves from the table to the closed ones
    rw [hclosed, List.count_append, List.count_singleton]
    by_cases hkl : k = l
    · rw [hkl] at hfile
      have hself := DescriptorTable.count_close_self hfile
      simp [hkl]
      omega
    · rw [DescriptorTable.count_close_ne (by rw [hfile]; simpa using hkl)]
      simp [hkl]
      omega
  · rw [← h.childEnds j]
    exact DescriptorTable.count_close_ne (by rw [hfile]; simp)

/-- **Closing** a connection leaves the others alone. -/
theorem Serving.handleClose (h : w.Serving s i) {c : Connection} (hc : c ∈ w.connections) :
    (w.handleClose c).Serving s i := by
  obtain ⟨k, hfile⟩ := h.sockets c hc
  refine ⟨fun j => ?_, fun d hd => ?_, fun name fd hentry => ?_, fun d hd => ?_, ?_,
    fun d hd => ?_, fun fd l hl => ?_⟩
  · rw [← h.parentEnds j]
    exact DescriptorTable.count_close_ne (by rw [hfile]; simp)
  · obtain ⟨hmem, hname, -⟩ := h.of_mem_erase hc hd
    show (w.connectionMap_.erase c.name_)[d.name_]? = _
    rw [ExtTreeMap.getElem?_erase, if_neg (by simpa using hname)]
    exact h.mapped d hmem
  · change (w.connectionMap_.erase c.name_)[name]? = some fd at hentry
    rw [ExtTreeMap.getElem?_erase] at hentry
    by_cases hname : c.name_ = name
    · rw [if_pos (by rw [hname]; exact compare_self)] at hentry
      cases hentry
    · rw [if_neg (by simpa using hname)] at hentry
      refine (List.mem_erase_of_ne ?_).mpr (h.listed name fd hentry)
      rintro rfl
      exact hname rfl
  · exact h.named d (h.of_mem_erase hc hd).1
  · exact h.distinct.sublist List.erase_sublist
  · obtain ⟨hmem, -, hsocket⟩ := h.of_mem_erase hc hd
    obtain ⟨l, hl⟩ := h.sockets d hmem
    refine ⟨l, ?_⟩
    show (w.table.close c.socket_).file d.socket_ = _
    rw [DescriptorTable.file_close, if_neg hsocket.symm, hl]
  · have hopen : (w.table.close c.socket_).file fd = some (.connection l) := hl
    rw [DescriptorTable.file_close] at hopen
    by_cases hfd : fd = c.socket_
    · -- the descriptor of `c` is free now
      rw [if_pos hfd] at hopen
      cases hopen
    · rw [if_neg hfd] at hopen
      obtain ⟨d, hd, hdfd⟩ := h.owned fd l hopen
      have hne : d ≠ c := by
        intro heq
        rw [heq] at hdfd
        exact hfd hdfd.symm
      exact ⟨d, (List.mem_erase_of_ne hne).mpr hd, hdfd⟩

theorem Sound.handleClose (h : w.Sound s i) (hphase : w.phase = .handling) {c : Connection}
    (hc : c ∈ w.connections) :
    (w.handleClose c).Sound s i ∧ (w.handleClose c).erased = w.erased ++ [1] := by
  cases h with
  | forked hforked _ _ => rw [hphase] at hforked; cases hforked
  | gone hgone _ => rw [hphase] at hgone; cases hgone
  | serving hserving live serving =>
    obtain ⟨k, hfile⟩ := serving.sockets c hc
    exact ⟨.serving hserving (live.handleClose hfile) (serving.handleClose hc),
      serving.erased_handleClose hc⟩

/-! ### What a worker knows of the server -/

/-- The server is the same for the worker `i`, which was dealt `ks`. -/
structure Deals (s s' : Prefork) (i : Nat) (ks : List Nat) : Prop where
  name_ : s'.name_ = s.name_
  epollfd : s'.parent.epollfd = s.parent.epollfd
  timerfd : s'.parent.timerfd = s.parent.timerfd
  listenfd : s'.parent.listenfd = s.parent.listenfd
  dealt : RoundRobin.dealt s'.parent.processNum_ i s'.sent =
    RoundRobin.dealt s.parent.processNum_ i s.sent ++ ks

variable {s' : Prefork} {ks : List Nat}

theorem Live.dealt (h : w.Live s i) (hdeals : Deals s s' i ks) :
    Live s' i { w with inbox := w.inbox ++ ks } where
  standardInput := h.standardInput
  dispatched := by
    rw [hdeals.dealt, ← h.dispatched, List.append_assoc]
  held k := by
    have hk := h.held k
    show (w.inbox ++ ks).count k + w.table.count (.connection k) + w.closed.count k = _
    rw [hdeals.dealt, List.count_append, List.count_append]
    omega
  childEnds := h.childEnds

/-- The parent sends to a worker. -/
theorem Sound.dealt (h : w.Sound s i) (hdeals : Deals s s' i ks)
    (halive : ks ≠ [] → w.phase ≠ .exited) :
    Sound s' i { w with inbox := w.inbox ++ ks } := by
  cases h with
  | forked phase live forked =>
    refine .forked phase (live.dealt hdeals)
      ⟨?_, ?_, ?_, forked.parentEnd, forked.parentEnds, forked.sockets, forked.connections,
        forked.unmapped⟩
    · rw [hdeals.epollfd]
      exact forked.epollfd
    · rw [hdeals.timerfd]
      exact forked.timerfd
    · rw [hdeals.listenfd]
      exact forked.listenfd
  | serving phase live serving =>
    refine .serving phase (live.dealt hdeals)
      ⟨serving.parentEnds, serving.mapped, serving.listed, ?_, serving.distinct, serving.sockets,
        serving.owned⟩
    rw [hdeals.name_]
    exact serving.named
  | gone phase gone =>
    have hnone : ks = [] := by
      by_contra hks
      exact halive hks phase
    refine .gone phase ⟨gone.table, ?_, ?_⟩
    · rw [gone.inbox, hnone]
      rfl
    · rw [hdeals.dealt]
      exact gone.adopted.trans (List.prefix_append _ _)

/-- The parent does something else. -/
theorem Sound.undealt (h : w.Sound s i) (hdeals : Deals s s' i []) : w.Sound s' i := by
  have hsame := h.dealt hdeals (fun hne => absurd rfl hne)
  rw [List.append_nil] at hsame
  exact hsame

end Worker

end Prefork

end TinyWS
