import TinyWS.MultiProcess.Channel

/-! # Forking in multiProcess1

    A child of the process pool inherits the descriptors of the parent's
    event loop, `epollfd_` among them: both name one interest set in the
    kernel.  The child branch gives back what it inherited.  It only closes
    the listening descriptor, since the authors know that `~Acceptor` would
    take it out of the parent's set; but it deletes the loop, and
    `~TimerQueue` does the same to the timerfd.

    The parent goes on with its own work while its children run their
    branches, in any order. -/

namespace TinyWS

open Std

namespace Process

/-- The kernel's interest set of one epoll instance. -/
abbrev Interest : Type := ExtTreeMap Int (BitVec 32 × ChannelPtr) compare

/-- The part of a process's memory that belongs to the server's loop. -/
structure LoopImage where
  channels_ : ExtTreeMap Int ChannelPtr compare
  timerfdChannel_ : Channel
  acceptChannel_ : Channel

/-- The two descriptors the server opens before it forks. -/
structure Descriptors where
  timerfd : Int
  listenfd : Int
  distinct : timerfd ≠ listenfd

/-! ## The child branch -/

/-- `::close(fd)`, of a descriptor whose file the parent holds open as
    well: no interest set loses it. -/
def closeInherited (_fd : Int) (interest : Interest) : Interest := interest

/-- `TimerQueue::~TimerQueue()`, in a child. -/
def deleteTimerQueue (image : LoopImage) (interest : Interest) : Interest :=
  let ep : Epoll := ⟨image.channels_, interest⟩
  let (ep, ch) := disableAll .process1 image.timerfdChannel_ ep
  let (ep, ch) := remove ch ep
  closeInherited ch.fd_ ep.interest

/-- `delete loop_`: `timerQueue_` goes first, then `epoll_` with its
    descriptor. -/
def deleteLoop (image : LoopImage) (epollfd : Int) (interest : Interest) : Interest :=
  closeInherited epollfd (deleteTimerQueue image interest)

/-- `TcpServer::clearInSubProcess(isParent)`, as far as the parent's set is
    concerned. -/
def clearInSubProcess (isParent : Bool) (image : LoopImage) (epollfd : Int)
    (interest : Interest) : Interest :=
  if isParent then interest
  else deleteLoop image epollfd (closeInherited image.acceptChannel_.fd_ interest)

/-- `EventLoop::EventLoop()`, over a new epoll instance or one that has
    other channels. -/
def newLoop (epoll : Epoll) (self : ChannelPtr) (timerfd : Int) : Epoll × Channel :=
  enableReading .process1 (Channel.new self timerfd) epoll

/-- `SocketPair::setParentSocket` and `setChildSocket`, for the end that is
    kept. -/
def openPipe (epoll : Epoll) (self : ChannelPtr) (fd : Int) : Epoll :=
  (enableReading .process1 (Channel.new self fd) epoll).1

/-- The child branch of `ProcessPool::createChildProcess`: what becomes of
    the inherited set, and the child's own epoll. -/
def childBranch (image : LoopImage) (epollfd timerfd pipefd : Int) (interest : Interest) :
    Interest × Epoll :=
  let interest := clearInSubProcess false image epollfd interest
  -- `Process process(fds)`, and `setAsChild`
  let own := (newLoop Epoll.new 0 timerfd).1
  (interest, openPipe own 1 pipefd)

/-! ## The parent and its children -/

/-- The parent, the set it shares with its children, and the children. -/
structure Forking where
  image : LoopImage
  epollfd : Int
  /-- The descriptors of the pipes to the children. -/
  pipes_ : List Int
  interest : Interest
  /-- What each child inherited, and whether it has run its branch. -/
  children : List (LoopImage × Bool)

/-- The steps of the parent and of its children. -/
inductive ForkStep where
  /-- `acceptor_->listen()`. -/
  | listen
  | fork
  /-- `addChildInfoToParent`, with the parent's end of the pipe. -/
  | addChildInfoToParent (self : ChannelPtr) (fd : Int)
  /-- A child runs its branch, with its own two descriptors. -/
  | childBranch (child : Nat) (timerfd pipefd : Int)
  deriving DecidableEq

namespace Forking

/-- The server was constructed, in a loop with any other channels. -/
def booted (d : Descriptors) (epoll : Epoll) (epollfd : Int) : Forking :=
  let (epoll, timerfdChannel) := newLoop epoll 0 d.timerfd
  { image :=
      { channels_ := epoll.channels_
        timerfdChannel_ := timerfdChannel
        acceptChannel_ := Channel.new 1 d.listenfd }
    epollfd := epollfd
    pipes_ := []
    interest := epoll.interest
    children := [] }

/-- The parent's epoll. -/
def epoll (s : Forking) : Epoll := ⟨s.image.channels_, s.interest⟩

def setEpoll (s : Forking) (epoll : Epoll) : Forking :=
  { s with
    image := { s.image with channels_ := epoll.channels_ }
    interest := epoll.interest }

def listen (s : Forking) : Forking :=
  let done := enableReading .process1 s.image.acceptChannel_ s.epoll
  let s := s.setEpoll done.1
  { s with image := { s.image with acceptChannel_ := done.2 } }

def addChildInfoToParent (s : Forking) (self : ChannelPtr) (fd : Int) : Forking :=
  { s.setEpoll (openPipe s.epoll self fd) with pipes_ := s.pipes_ ++ [fd] }

def runChild (s : Forking) (child : Nat) (timerfd pipefd : Int) : Forking :=
  match s.children[child]? with
  | none => s
  | some (image, _) =>
      { s with
        interest := (Process.childBranch image s.epollfd timerfd pipefd s.interest).1
        children := s.children.set child (image, true) }

def guard (s : Forking) : ForkStep → Prop
  | .listen => s.image.acceptChannel_.statusInEpoll_ = .kNew
  | .fork => True
  -- a new descriptor
  | .addChildInfoToParent _ fd =>
      fd ≠ s.image.timerfdChannel_.fd_ ∧ fd ≠ s.image.acceptChannel_.fd_ ∧ fd ∉ s.pipes_
  | .childBranch child _ _ => (s.children[child]?.map Prod.snd) = some false

instance (s : Forking) : DecidablePred s.guard
  | .listen => inferInstanceAs (Decidable (_ = _))
  | .fork => isTrue trivial
  | .addChildInfoToParent _ fd =>
      inferInstanceAs
        (Decidable (fd ≠ s.image.timerfdChannel_.fd_ ∧ fd ≠ s.image.acceptChannel_.fd_ ∧
          fd ∉ s.pipes_))
  | .childBranch child _ _ =>
      inferInstanceAs (Decidable ((s.children[child]?.map Prod.snd) = some false))

def next (s : Forking) : ForkStep → Forking
  | .listen => s.listen
  -- the child's memory is a copy
  | .fork => { s with children := s.children ++ [(s.image, false)] }
  | .addChildInfoToParent self fd => s.addChildInfoToParent self fd
  | .childBranch child timerfd pipefd => s.runChild child timerfd pipefd

end Forking

/-- The process pool of `multiProcess1` while it forks. -/
def forking : Machine Forking ForkStep where
  guard := Forking.guard
  next := Forking.next

instance (s : Forking) (l : ForkStep) : Decidable (forking.guard s l) :=
  inferInstanceAs (Decidable (s.guard l))

/-! ## Erasing from the set -/

theorem erase_erase (interest : Interest) (fd : Int) :
    (interest.erase fd).erase fd = interest.erase fd := by
  apply ExtTreeMap.ext_getElem?
  intro k
  by_cases hk : compare fd k = .eq
  · simp [hk]
  · simp [ExtTreeMap.getElem?_erase, hk]

/-- Erasing shows exactly when there is something to erase. -/
theorem erase_eq_self_iff (interest : Interest) (fd : Int) :
    interest.erase fd = interest ↔ fd ∉ interest := by
  constructor
  · intro h hmem
    rw [← h] at hmem
    simp at hmem
  · intro h
    apply ExtTreeMap.ext_getElem?
    intro k
    rw [ExtTreeMap.getElem?_erase]
    split
    · next hk =>
      rw [LawfulEqOrd.eq_of_compare hk] at h
      exact (ExtTreeMap.getElem?_eq_none h).symm
    · rfl

/-- The timerfd leaves the set, by `disableAll` and once more by
    `remove`. -/
theorem deleteTimerQueue_eq {image : LoopImage}
    (hadded : image.timerfdChannel_.statusInEpoll_ = .kAdded) (interest : Interest) :
    deleteTimerQueue image interest = interest.erase image.timerfdChannel_.fd_ := by
  unfold deleteTimerQueue disableAll update updateChannel
  simp [hadded, Channel.isNoneEvent, remove, removeChannel, Epoll.update, erase_erase,
    closeInherited]

theorem childBranch_interest {image : LoopImage}
    (hadded : image.timerfdChannel_.statusInEpoll_ = .kAdded) (epollfd timerfd pipefd : Int)
    (interest : Interest) :
    (childBranch image epollfd timerfd pipefd interest).1 =
      interest.erase image.timerfdChannel_.fd_ :=
  deleteTimerQueue_eq hadded interest

/-- Another descriptor does not matter. -/
theorem mem_enableReading {ch : Channel} {ep : Epoll} {fd : Int} (hne : fd ≠ ch.fd_) :
    fd ∈ (enableReading .process1 ch ep).1.interest ↔ fd ∈ ep.interest := by
  have hupdate : ∀ (ep' : Epoll) (op : EpollOp) (ch' : Channel), ch'.fd_ = ch.fd_ →
      (fd ∈ (ep'.update op ch').interest ↔ fd ∈ ep'.interest) := by
    intro ep' op ch' hfd
    have hsame := (Epoll.sameElsewhere_update ep' op ch').interest fd (hfd ▸ hne)
    rw [ExtTreeMap.mem_iff_isSome_getElem?, ExtTreeMap.mem_iff_isSome_getElem?, hsame]
  unfold enableReading update updateChannel
  dsimp only
  split
  · exact hupdate _ _ _ rfl
  · exact hupdate _ _ _ rfl
  · split
    · exact hupdate _ _ _ rfl
    · exact hupdate _ _ _ rfl

namespace Forking

/-! ## The timerfd -/

/-- The timerfd was registered once, every child has inherited its channel
    as it was then, and it is in the set until a child has run. -/
structure Ticking (d : Descriptors) (s : Forking) : Prop where
  timerfd : s.image.timerfdChannel_.fd_ = d.timerfd
  listenfd : s.image.acceptChannel_.fd_ = d.listenfd
  added : s.image.timerfdChannel_.statusInEpoll_ = .kAdded
  inherited : ∀ c ∈ s.children, c.1.timerfdChannel_ = s.image.timerfdChannel_
  watched : d.timerfd ∈ s.interest ↔ ∀ c ∈ s.children, c.2 = false

/-- What the constructor of the timer queue leaves in the set. -/
theorem newLoop_spec (epoll : Epoll) (self : ChannelPtr) (timerfd : Int) :
    (newLoop epoll self timerfd).2.fd_ = timerfd ∧
      (newLoop epoll self timerfd).2.statusInEpoll_ = .kAdded ∧
        timerfd ∈ (newLoop epoll self timerfd).1.interest := by
  refine ⟨rfl, rfl, ?_⟩
  show timerfd ∈ (Epoll.update _ .add _).interest
  rw [Epoll.update]
  split
  · next hmem => exact hmem
  · exact ExtTreeMap.mem_insert_self

theorem ticking_booted (d : Descriptors) (epoll : Epoll) (epollfd : Int) :
    (booted d epoll epollfd).Ticking d := by
  obtain ⟨hfd, hadded, hmem⟩ := newLoop_spec epoll 0 d.timerfd
  refine ⟨hfd, rfl, hadded, ?_, iff_of_true hmem ?_⟩
  · intro c hc
    exact absurd hc List.not_mem_nil
  · intro c hc
    exact absurd hc List.not_mem_nil

/-- The parent enables another channel. -/
theorem Ticking.setEpoll {d : Descriptors} {s : Forking} (h : s.Ticking d) {ch : Channel}
    (hne : ch.fd_ ≠ d.timerfd) :
    (s.setEpoll (enableReading .process1 ch s.epoll).1).Ticking d := by
  refine ⟨h.timerfd, h.listenfd, h.added, h.inherited, ?_⟩
  exact (mem_enableReading hne.symm).trans h.watched

/-- A child that has not run inherits the set as it is; one that runs takes
    the timerfd out. -/
theorem Ticking.runChild {d : Descriptors} {s : Forking} (h : s.Ticking d) {child : Nat}
    {image : LoopImage} {ran : Bool} (hchild : s.children[child]? = some (image, ran))
    (timerfd pipefd : Int) :
    s.runChild child timerfd pipefd =
      { s with
        interest := s.interest.erase d.timerfd
        children := s.children.set child (image, true) } := by
  have hinherited := h.inherited _ (List.mem_of_getElem? hchild)
  have hadded : image.timerfdChannel_.statusInEpoll_ = .kAdded := by
    rw [hinherited]
    exact h.added
  have hinterest := childBranch_interest hadded s.epollfd timerfd pipefd s.interest
  rw [Forking.runChild, hchild]
  dsimp only
  rw [hinterest, hinherited, h.timerfd]

/-- A new child has the parent's channels, and has not run. -/
theorem Ticking.fork {d : Descriptors} {s : Forking} (h : s.Ticking d) :
    Ticking d { s with children := s.children ++ [(s.image, false)] } := by
  refine ⟨h.timerfd, h.listenfd, h.added, ?_, ?_⟩
  · intro c hc
    rcases List.mem_append.mp hc with hc | hc
    · exact h.inherited c hc
    · rw [List.mem_singleton.mp hc]
  · refine h.watched.trans ⟨fun hall c hc => ?_, fun hall c hc => ?_⟩
    · rcases List.mem_append.mp hc with hc | hc
      · exact hall c hc
      · rw [List.mem_singleton.mp hc]
    · exact hall c (List.mem_append_left _ hc)

/-- A child that runs its branch takes the timerfd out for all. -/
theorem Ticking.childBranch {d : Descriptors} {s : Forking} (h : s.Ticking d) {child : Nat}
    {image : LoopImage} {ran : Bool} (hchild : s.children[child]? = some (image, ran)) :
    Ticking d { s with
      interest := s.interest.erase d.timerfd
      children := s.children.set child (image, true) } := by
  have hset : (image, true) ∈ s.children.set child (image, true) := by
    have hlt := (List.getElem?_eq_some_iff.mp hchild).1
    exact List.mem_set hlt _
  refine ⟨h.timerfd, h.listenfd, h.added, ?_, iff_of_false ?_ ?_⟩
  · intro c hc
    rcases List.mem_or_eq_of_mem_set hc with hc | rfl
    · exact h.inherited c hc
    · exact h.inherited (image, ran) (List.mem_of_getElem? hchild)
  · simp
  · intro hall
    exact Bool.noConfusion (hall _ hset)

/-- **Step lemma**. -/
theorem ticking_next {d : Descriptors} {s : Forking} (h : s.Ticking d) {l : ForkStep}
    (hl : s.guard l) : (s.next l).Ticking d := by
  cases l with
  | listen =>
    have hne : s.image.acceptChannel_.fd_ ≠ d.timerfd := by
      rw [h.listenfd]
      exact d.distinct.symm
    have hset := h.setEpoll hne
    have hfd : (enableReading .process1 s.image.acceptChannel_ s.epoll).2.fd_ = d.listenfd := by
      rw [← h.listenfd]
      unfold enableReading update updateChannel
      dsimp only
      split
      · rfl
      · rfl
      · split <;> rfl
    exact ⟨hset.timerfd, hfd, hset.added, hset.inherited, hset.watched⟩
  | fork => exact h.fork
  | addChildInfoToParent self fd =>
    have hne : (Channel.new self fd).fd_ ≠ d.timerfd := by
      intro heq
      exact hl.1 (heq.trans h.timerfd.symm)
    have hset := h.setEpoll hne
    exact ⟨hset.timerfd, hset.listenfd, hset.added, hset.inherited, hset.watched⟩
  | childBranch child timerfd pipefd =>
    obtain ⟨⟨image, ran⟩, hchild, -⟩ := Option.map_eq_some_iff.mp hl
    have hrun := h.runChild hchild timerfd pipefd
    show (s.runChild child timerfd pipefd).Ticking d
    rw [hrun]
    exact h.childBranch hchild

/-! ## Runs -/

/-- Some child has run its branch in the run. -/
def ChildRan (ls : List ForkStep) : Prop :=
  ∃ child timerfd pipefd, .childBranch child timerfd pipefd ∈ ls

theorem childRan_cons {l : ForkStep} {ls : List ForkStep} :
    ChildRan (l :: ls) ↔
      (∃ child timerfd pipefd, l = .childBranch child timerfd pipefd) ∨ ChildRan ls := by
  simp only [ChildRan, List.mem_cons, exists_or]
  constructor
  · rintro (⟨c, t, p, h⟩ | h)
    · exact Or.inl ⟨c, t, p, h.symm⟩
    · exact Or.inr h
  · rintro (⟨c, t, p, h⟩ | h)
    · exact Or.inl ⟨c, t, p, h.symm⟩
    · exact Or.inr h

/-- The flags of the children say which of them have run. -/
theorem childRan_iff {ls : List ForkStep} :
    ∀ {s : Forking}, forking.Valid s ls →
      ((∀ c ∈ (forking.run s ls).children, c.2 = false) ↔
        (∀ c ∈ s.children, c.2 = false) ∧ ¬ ChildRan ls) := by
  induction ls with
  | nil =>
    intro s _
    simp [ChildRan]
  | cons l ls ih =>
    rintro s ⟨hl, hrest⟩
    rw [Machine.run_cons, ih hrest, childRan_cons]
    cases l with
    | listen =>
      have hsame : (forking.next s .listen).children = s.children := rfl
      simp [hsame]
    | fork =>
      have hmore : (forking.next s .fork).children = s.children ++ [(s.image, false)] := rfl
      rw [hmore]
      simp [or_imp, forall_and]
    | addChildInfoToParent self fd =>
      have hsame : (forking.next s (.addChildInfoToParent self fd)).children = s.children := rfl
      simp [hsame]
    | childBranch child timerfd pipefd =>
      -- the child that runs is marked
      obtain ⟨⟨image, ran⟩, hchild, -⟩ := Option.map_eq_some_iff.mp hl
      have hmarked : (image, true) ∈ (s.runChild child timerfd pipefd).children := by
        rw [Forking.runChild, hchild]
        exact List.mem_set (List.getElem?_eq_some_iff.mp hchild).1 _
      refine iff_of_false (fun h => ?_) (fun h => h.2 (Or.inl ⟨child, timerfd, pipefd, rfl⟩))
      exact Bool.noConfusion (h.1 _ hmarked)

/-- **A child leaves the parent's set alone only behind another child**:
    in every run of the parent and its children, whatever channels the loop
    has, a child's branch leaves the shared interest set unchanged if and
    only if some child has run its branch before. -/
theorem childBranch_unchanged_iff (d : Descriptors) (epoll : Epoll) (epollfd : Int)
    {ls : List ForkStep} {child : Nat} {timerfd pipefd : Int}
    (hvalid : forking.Valid (booted d epoll epollfd) (ls ++ [.childBranch child timerfd pipefd])) :
    (forking.run (booted d epoll epollfd) (ls ++ [.childBranch child timerfd pipefd])).interest =
        (forking.run (booted d epoll epollfd) ls).interest ↔
      ChildRan ls := by
  rw [Machine.valid_append] at hvalid
  obtain ⟨hpre, hlast, -⟩ := hvalid
  have h : (forking.run (booted d epoll epollfd) ls).Ticking d :=
    forking.invariant_run (Ticking d) (fun _ _ h hl => ticking_next h hl)
      (ticking_booted d epoll epollfd) hpre
  obtain ⟨⟨image, ran⟩, hchild, -⟩ := Option.map_eq_some_iff.mp hlast
  have hflags := childRan_iff hpre
  have hfresh : ∀ c ∈ (booted d epoll epollfd).children, c.2 = false :=
    fun c hc => absurd hc List.not_mem_nil
  rw [Machine.run_append]
  show ((forking.run (booted d epoll epollfd) ls).runChild child timerfd pipefd).interest = _ ↔ _
  rw [h.runChild hchild]
  calc (forking.run (booted d epoll epollfd) ls).interest.erase d.timerfd =
        (forking.run (booted d epoll epollfd) ls).interest
      ↔ d.timerfd ∉ (forking.run (booted d epoll epollfd) ls).interest := erase_eq_self_iff _ _
    _ ↔ ¬ ∀ c ∈ (forking.run (booted d epoll epollfd) ls).children, c.2 = false :=
        not_congr h.watched
    _ ↔ ChildRan ls := by
        rw [hflags]
        tauto

/-- The second child finds the timerfd gone already. -/
theorem childBranch_unchanged_second :
    let d : Descriptors := ⟨4, 5, by decide⟩
    let ls : List ForkStep := [.listen, .fork, .addChildInfoToParent 2 6, .childBranch 0 4 7, .fork]
    (forking.run (booted d Epoll.new 3) (ls ++ [.childBranch 1 4 8])).interest =
        (forking.run (booted d Epoll.new 3) ls).interest ↔
      ChildRan ls :=
  childBranch_unchanged_iff ⟨4, 5, by decide⟩ Epoll.new 3 (by decide +kernel)

/-- The first child takes the timerfd out of the parent's set. -/
theorem childBranch_changed_first :
    let s := booted ⟨4, 5, by decide⟩ Epoll.new 3
    let ls : List ForkStep := [.listen, .fork]
    forking.Valid s (ls ++ [.childBranch 0 4 7]) ∧ 4 ∈ (forking.run s ls).interest ∧
      4 ∉ (forking.run s (ls ++ [.childBranch 0 4 7])).interest ∧
      (forking.run s (ls ++ [.childBranch 0 4 7])).interest ≠ (forking.run s ls).interest := by
  have hbefore :
      4 ∈ (forking.run (booted ⟨4, 5, by decide⟩ Epoll.new 3) [.listen, .fork]).interest := by
    decide +kernel
  have hafter : 4 ∉ (forking.run (booted ⟨4, 5, by decide⟩ Epoll.new 3)
      ([.listen, .fork] ++ [.childBranch 0 4 7])).interest := by
    decide +kernel
  refine ⟨by decide +kernel, hbefore, hafter, fun heq => ?_⟩
  rw [heq] at hafter
  exact hafter hbefore

end Forking

end Process

end TinyWS
