import TinyWS.Framework.Machine
import Mathlib.Data.List.Basic

/-! # SocketPair

    How a child of `multiProcess1` gets the descriptors of its parent.
    `receiveFd` answers with the `int` in the control message, and with -1
    only when `recvmsg` failed.  At the end of the stream `recvmsg` fills
    nothing in, and the answer is whatever `malloc` found in that place.

    What was received can be told from the answer only if that is 0, and
    no descriptor is. -/

namespace TinyWS

namespace Process

/-- What `recvmsg` finds in the pipe. -/
inductive Recvmsg where
  | failed
  | endOfStream
  /-- One byte, and a descriptor with it. -/
  | descriptor (fd : Nat)
  deriving DecidableEq

/-- One call of `handleRead`, with the `int` that the memory of
    `malloc(cmsgsize)` has at `CMSG_DATA`. -/
structure Readable where
  data : Int
  outcome : Recvmsg
  deriving DecidableEq

/-- A call of one of the two callbacks. -/
inductive PipeCall where
  | receiveFdCallback (sockfd : Int)
  | closeCallback
  deriving DecidableEq

/-- `class SocketPair`: which of its callbacks are set. -/
structure SocketPair where
  receiveFdCallback_ : Bool
  closeCallback_ : Bool
  deriving DecidableEq

/-- `recvmsg`: its result, and the `int` in the control message. -/
def recvmsg (l : Readable) : Int × Int :=
  match l.outcome with
  | .failed => (-1, l.data)
  | .endOfStream => (0, l.data)
  | .descriptor fd => (1, fd)

namespace SocketPair

/-- `receiveFd()`. -/
def receiveFd (l : Readable) : Int :=
  let (result, acceptFd) := recvmsg l
  if result = -1 then -1 else acceptFd

/-- `handleRead()`: the callbacks it calls. -/
def handleRead (pipe : SocketPair) (l : Readable) : List PipeCall :=
  let sockfd := receiveFd l
  if sockfd < 0 then []
  else if sockfd = 0 then
    if pipe.closeCallback_ then [.closeCallback] else []
  else
    if pipe.receiveFdCallback_ then [.receiveFdCallback sockfd] else []

def setReceiveFdCallback (pipe : SocketPair) : SocketPair :=
  { pipe with receiveFdCallback_ := true }

end SocketPair

/-- `class Process` in the child. -/
structure Child where
  pipe_ : SocketPair
  childConnectionCallback_ : Bool
  /-- The calls of each `handleRead`. -/
  handled : List (List PipeCall)
  /-- The sockets given to `childConnectionCallback_`; each of them is
      closed when its connection ends. -/
  sockets : List Int
  deriving DecidableEq

namespace Child

/-- The constructor.  Nothing here sets the close callback of the pipe. -/
def new (closeCallback_ : Bool) : Child where
  pipe_ := ⟨false, closeCallback_⟩
  childConnectionCallback_ := false
  handled := []
  sockets := []

def setAsChild (s : Child) : Child := { s with pipe_ := s.pipe_.setReceiveFdCallback }

def setChildConnectionCallback (s : Child) : Child := { s with childConnectionCallback_ := true }

/-- `createChildProcess` in the child, up to `process.start()`. -/
def createChildProcess (closeCallback_ : Bool) : Child :=
  (new closeCallback_).setAsChild.setChildConnectionCallback

/-- `Process::newConnection`. -/
def newConnection (s : Child) (sockfd : Int) : Child :=
  if s.childConnectionCallback_ then { s with sockets := s.sockets ++ [sockfd] } else s

/-- What a callback of the pipe does. -/
def call (s : Child) : PipeCall → Child
  | .receiveFdCallback sockfd => s.newConnection sockfd
  | .closeCallback => s

/-- The pipe is readable. -/
def next (s : Child) (l : Readable) : Child :=
  let calls := s.pipe_.handleRead l
  let s := calls.foldl call s
  { s with handled := s.handled ++ [calls] }

end Child

/-- A child whose pipe becomes readable again and again. -/
def child : Machine Child Readable where
  guard := fun _ _ => True
  next := Child.next

/-! ## The specification -/

namespace Readable

/-- The calls that belong to what was received. -/
def owed (l : Readable) : List PipeCall :=
  match l.outcome with
  | .failed => []
  | .endOfStream => [.closeCallback]
  | .descriptor fd => [.receiveFdCallback fd]

/-- The descriptor that was received, if any. -/
def received (l : Readable) : List Int :=
  match l.outcome with
  | .failed => []
  | .endOfStream => []
  | .descriptor fd => [(fd : Int)]

/-- The memory happens to say what was received, and somebody is there to
    be told. -/
def Told (closeCallback_ : Bool) (l : Readable) : Prop :=
  match l.outcome with
  | .failed => True
  | .endOfStream => l.data = 0 ∧ closeCallback_ = true
  | .descriptor fd => fd ≠ 0

/-- The memory does not look like a descriptor when there is none. -/
def NoGarbage (l : Readable) : Prop :=
  match l.outcome with
  | .failed => True
  | .endOfStream => l.data ≤ 0
  | .descriptor fd => fd ≠ 0

end Readable

namespace SocketPair

/-! ## One call -/

variable {pipe : SocketPair} {l : Readable}

theorem receiveFd_endOfStream (data : Int) : receiveFd ⟨data, .endOfStream⟩ = data := rfl

theorem receiveFd_descriptor (data : Int) (fd : Nat) : receiveFd ⟨data, .descriptor fd⟩ = fd := rfl

theorem handleRead_neg (h : receiveFd l < 0) : pipe.handleRead l = [] := if_pos h

theorem handleRead_zero (h : receiveFd l = 0) :
    pipe.handleRead l = if pipe.closeCallback_ then [.closeCallback] else [] := by
  rw [handleRead, if_neg (by omega), if_pos h]

theorem handleRead_pos (h : 0 < receiveFd l) (hreceive : pipe.receiveFdCallback_ = true) :
    pipe.handleRead l = [.receiveFdCallback (receiveFd l)] := by
  rw [handleRead, if_neg (by omega), if_neg (by omega), if_pos hreceive]

/-- **One call**: the callbacks are those owed exactly if the memory says
    what was received. -/
theorem handleRead_eq_owed_iff (hreceive : pipe.receiveFdCallback_ = true) :
    pipe.handleRead l = l.owed ↔ l.Told pipe.closeCallback_ := by
  obtain ⟨data, outcome⟩ := l
  cases outcome with
  | failed => exact iff_of_true rfl trivial
  | endOfStream =>
    change pipe.handleRead _ = [.closeCallback] ↔ data = 0 ∧ pipe.closeCallback_ = true
    have hdata := receiveFd_endOfStream data
    rcases Int.lt_trichotomy (receiveFd ⟨data, .endOfStream⟩) 0 with hneg | hzero | hpos
    · have hne : data ≠ 0 := by omega
      rw [handleRead_neg hneg]
      simp [hne]
    · have heq : data = 0 := by omega
      rw [handleRead_zero hzero]
      simp [heq]
    · have hne : data ≠ 0 := by omega
      rw [handleRead_pos hpos hreceive]
      simp [hne]
  | descriptor fd =>
    change pipe.handleRead _ = [.receiveFdCallback fd] ↔ fd ≠ 0
    by_cases hzero : fd = 0
    · -- taken for the end of the stream
      have hfd : receiveFd ⟨data, .descriptor fd⟩ = 0 := by rw [receiveFd_descriptor, hzero]; rfl
      rw [handleRead_zero hfd]
      cases pipe.closeCallback_ <;> simp [hzero]
    · have hfd : 0 < receiveFd ⟨data, .descriptor fd⟩ := by rw [receiveFd_descriptor]; omega
      rw [handleRead_pos hfd hreceive]
      simp [receiveFd_descriptor, hzero]

end SocketPair

namespace Child

/-! ## One step -/

variable {s : Child} {l : Readable} {ls : List Readable}

/-- The sockets that a step gives away. -/
def adopted (l : Readable) : List Int :=
  if 0 < SocketPair.receiveFd l then [SocketPair.receiveFd l] else []

/-- The callbacks that `createChildProcess` sets are set. -/
structure Wired (closeCallback_ : Bool) (s : Child) : Prop where
  receiveFdCallback_ : s.pipe_.receiveFdCallback_ = true
  closeCallback_ : s.pipe_.closeCallback_ = closeCallback_
  childConnectionCallback_ : s.childConnectionCallback_ = true

theorem wired_createChildProcess (closeCallback_ : Bool) :
    (createChildProcess closeCallback_).Wired closeCallback_ := ⟨rfl, rfl, rfl⟩

/-- What a step adds; the callbacks stay. -/
theorem next_eq {closeCallback_ : Bool} (h : s.Wired closeCallback_) :
    s.next l = { s with
      handled := s.handled ++ [s.pipe_.handleRead l]
      sockets := s.sockets ++ adopted l } := by
  have hcall : (s.pipe_.handleRead l).foldl call s =
      { s with sockets := s.sockets ++ adopted l } := by
    rcases Int.lt_trichotomy (SocketPair.receiveFd l) 0 with hneg | hzero | hpos
    · have hnone : adopted l = [] := if_neg (by omega)
      rw [SocketPair.handleRead_neg hneg, hnone, List.append_nil]
      rfl
    · have hnone : adopted l = [] := if_neg (by omega)
      rw [SocketPair.handleRead_zero hzero, hnone, List.append_nil]
      split <;> rfl
    · rw [SocketPair.handleRead_pos hpos h.receiveFdCallback_, adopted, if_pos hpos]
      exact if_pos h.childConnectionCallback_
  rw [next, hcall]

theorem Wired.next {closeCallback_ : Bool} (h : s.Wired closeCallback_) :
    (s.next l).Wired closeCallback_ := by
  rw [next_eq h]
  exact ⟨h.1, h.2, h.3⟩

/-! ## All runs -/

/-- What a run adds. -/
theorem run_eq {closeCallback_ : Bool} (h : s.Wired closeCallback_) :
    child.run s ls = { s with
      handled := s.handled ++ ls.map s.pipe_.handleRead
      sockets := s.sockets ++ ls.flatMap adopted } := by
  induction ls generalizing s with
  | nil => simp
  | cons l ls ih =>
    have hnext : child.next s l = s.next l := rfl
    rw [Machine.run_cons, hnext, ih h.next, next_eq h]
    simp

/-- A step adopts what was received exactly if it takes no garbage for a
    descriptor. -/
theorem adopted_eq_received_iff : adopted l = l.received ↔ l.NoGarbage := by
  obtain ⟨data, outcome⟩ := l
  cases outcome with
  | failed => exact iff_of_true rfl trivial
  | endOfStream =>
    change adopted _ = [] ↔ data ≤ 0
    rw [adopted, SocketPair.receiveFd_endOfStream]
    split
    · next hpos => simp; omega
    · next hneg => simp; omega
  | descriptor fd =>
    change adopted _ = [(fd : Int)] ↔ fd ≠ 0
    rw [adopted, SocketPair.receiveFd_descriptor]
    split
    · next hpos => simp; omega
    · next hneg => simp; omega

theorem pos_of_mem_adopted {sockfd : Int} (h : sockfd ∈ adopted l) : 0 < sockfd := by
  rw [adopted] at h
  split at h
  · next hpos =>
    rw [List.mem_singleton.mp h]
    exact hpos
  · cases h

/-- With no descriptor 0, a step adopts at least as much as it received. -/
theorem length_received_le (h : (0 : Int) ∉ l.received) :
    l.received.length ≤ (adopted l).length := by
  obtain ⟨data, outcome⟩ := l
  cases outcome with
  | failed => exact Nat.zero_le _
  | endOfStream => exact Nat.zero_le _
  | descriptor fd =>
    have hne : fd ≠ 0 := by
      intro hzero
      rw [hzero] at h
      exact h (List.mem_singleton.mpr rfl)
    have hsame : adopted ⟨data, .descriptor fd⟩ = Readable.received ⟨data, .descriptor fd⟩ :=
      adopted_eq_received_iff.mpr hne
    exact Nat.le_of_eq (congrArg List.length hsame).symm

theorem length_flatMap_received_le (h : ∀ l ∈ ls, (0 : Int) ∉ l.received) :
    (ls.flatMap Readable.received).length ≤ (ls.flatMap adopted).length := by
  induction ls with
  | nil => exact Nat.le_refl _
  | cons l ls ih =>
    have hhead := length_received_le (h l List.mem_cons_self)
    have htail := ih fun k hk => h k (List.mem_cons_of_mem _ hk)
    rw [List.flatMap_cons, List.flatMap_cons, List.length_append, List.length_append]
    omega

/-- **All steps**: what is adopted cannot make up for garbage later on. -/
theorem flatMap_adopted_iff :
    ls.flatMap adopted = ls.flatMap Readable.received ↔ ∀ l ∈ ls, l.NoGarbage := by
  constructor
  · intro heq
    -- nothing that is adopted is 0, so 0 was not received
    have hzero : ∀ l ∈ ls, (0 : Int) ∉ l.received := by
      intro l hl hmem
      have hall : (0 : Int) ∈ ls.flatMap adopted := by
        rw [heq]
        exact List.mem_flatMap.mpr ⟨l, hl, hmem⟩
      obtain ⟨k, -, hk⟩ := List.mem_flatMap.mp hall
      exact Int.lt_irrefl 0 (pos_of_mem_adopted hk)
    induction ls with
    | nil => exact fun l hl => absurd hl List.not_mem_nil
    | cons l ls ih =>
      have hzeros : ∀ k ∈ ls, (0 : Int) ∉ k.received := fun k hk =>
        hzero k (List.mem_cons_of_mem _ hk)
      have hhead := length_received_le (hzero l List.mem_cons_self)
      have htail := length_flatMap_received_le hzeros
      have hlen := congrArg List.length heq
      rw [List.flatMap_cons, List.flatMap_cons] at heq hlen
      rw [List.length_append, List.length_append] at hlen
      -- neither part is shorter than it should be, so both are as long
      obtain ⟨hsame, hrest⟩ := List.append_inj heq (by omega)
      intro k hk
      rcases List.mem_cons.mp hk with rfl | hmem
      · exact adopted_eq_received_iff.mp hsame
      · exact ih hrest hzeros k hmem
  · intro h
    induction ls with
    | nil => rfl
    | cons l ls ih =>
      rw [List.flatMap_cons, List.flatMap_cons, ih fun k hk => h k (List.mem_cons_of_mem _ hk),
        adopted_eq_received_iff.mpr (h l List.mem_cons_self)]

theorem map_handleRead_iff {closeCallback_ : Bool} (h : s.Wired closeCallback_) :
    ls.map s.pipe_.handleRead = ls.map Readable.owed ↔ ∀ l ∈ ls, l.Told closeCallback_ := by
  rw [List.map_inj_left]
  constructor
  · intro hall l hl
    rw [← h.closeCallback_]
    exact (SocketPair.handleRead_eq_owed_iff h.receiveFdCallback_).mp (hall l hl)
  · intro hall l hl
    rw [← h.closeCallback_] at hall
    exact (SocketPair.handleRead_eq_owed_iff h.receiveFdCallback_).mpr (hall l hl)

/-- **Descriptor passing**: the callbacks are those owed, one `handleRead`
    after the other, exactly if the memory says 0 at every end of the
    stream, a close callback is set, and no descriptor is 0; the
    connections are the descriptors received exactly if the memory never
    looks like a descriptor. -/
theorem child_handleRead_iff (closeCallback_ : Bool) (ls : List Readable) :
    ((child.run (createChildProcess closeCallback_) ls).handled = ls.map Readable.owed ↔
        ∀ l ∈ ls, l.Told closeCallback_) ∧
      ((child.run (createChildProcess closeCallback_) ls).sockets =
          ls.flatMap Readable.received ↔
        ∀ l ∈ ls, l.NoGarbage) := by
  have hwired := wired_createChildProcess closeCallback_
  rw [run_eq hwired]
  exact ⟨map_handleRead_iff hwired, flatMap_adopted_iff⟩

/-- The parent is gone after one descriptor, and the memory has a 7. -/
def parentGone : List Readable := [⟨0, .descriptor 5⟩, ⟨7, .endOfStream⟩]

theorem child_adopts_garbage :
    parentGone.map Readable.owed = [[.receiveFdCallback 5], [.closeCallback]] ∧
      (child.run (createChildProcess false) parentGone).handled =
        [[.receiveFdCallback 5], [.receiveFdCallback 7]] ∧
      (child.run (createChildProcess false) parentGone).sockets = [5, 7] := by
  decide

end Child

end Process

end TinyWS
