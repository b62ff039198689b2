import Mathlib

/-! # Channel and Epoll

    A `Channel` is the interest of one descriptor; `Epoll` keeps the map
    from descriptors to channels and mirrors it in the kernel.  Every
    change of a channel's events ends in `Epoll::updateChannel`, so a
    channel operation takes the epoll of its loop and returns both. -/

namespace TinyWS

open Std

/-- The address of a `Channel` object. -/
abbrev ChannelPtr : Type := Nat

/-- `statusInEpoll_`. -/
inductive EpollStatus where
  /-- Not in `channels_`. -/
  | kNew
  /-- In `channels_` and in the kernel's interest set. -/
  | kAdded
  /-- In `channels_` only. -/
  | kDeleted
  deriving DecidableEq, Repr

/-- `class Channel`. -/
structure Channel where
  /-- The address of the object itself (`this`). -/
  self : ChannelPtr
  fd_ : Int
  events_ : BitVec 32
  statusInEpoll_ : EpollStatus
  addedToLoop_ : Bool
  deriving DecidableEq, Repr

/-- What `epoll_ctl` is asked to do. -/
inductive EpollOp where
  | add
  | mod
  | del
  deriving DecidableEq, Repr

/-- `class Epoll`: `channels_`, and the interest set the kernel keeps
    for `epollfd_`. -/
structure Epoll where
  channels_ : ExtTreeMap Int ChannelPtr compare
  interest : ExtTreeMap Int (BitVec 32 × ChannelPtr) compare

/-! ## Channel events -/

namespace Channel

def kNoneEvent : BitVec 32 := 0

/-- `EPOLLIN | EPOLLPRI`. -/
def kReadEvent : BitVec 32 := 3

/-- `EPOLLOUT`. -/
def kWriteEvent : BitVec 32 := 4

def new (self : ChannelPtr) (fd : Int) : Channel where
  self := self
  fd_ := fd
  events_ := kNoneEvent
  statusInEpoll_ := .kNew
  addedToLoop_ := false

def isNoneEvent (ch : Channel) : Bool := ch.events_ == kNoneEvent

def isWriting (ch : Channel) : Bool := ch.events_ &&& kWriteEvent != 0

end Channel

/-! ## Epoll -/

namespace Epoll

def new : Epoll where
  channels_ := ∅
  interest := ∅

/-- `epoll_ctl`: adding a present descriptor, and changing or removing an
    absent one, fails and changes nothing. -/
def update (ep : Epoll) (operation : EpollOp) (ch : Channel) : Epoll :=
  match operation with
  | .add =>
      if ch.fd_ ∈ ep.interest then ep
      else { ep with interest := ep.interest.insert ch.fd_ (ch.events_, ch.self) }
  | .mod =>
      if ch.fd_ ∈ ep.interest then
        { ep with interest := ep.interest.insert ch.fd_ (ch.events_, ch.self) }
      else ep
  | .del => { ep with interest := ep.interest.erase ch.fd_ }

def updateChannel (ep : Epoll) (ch : Channel) : Epoll × Channel :=
  match ch.statusInEpoll_ with
  | .kNew =>
      let ep := { ep with channels_ := ep.channels_.insert ch.fd_ ch.self }
      let ch := { ch with statusInEpoll_ := .kAdded }
      (ep.update .add ch, ch)
  | .kDeleted =>
      let ch := { ch with statusInEpoll_ := .kAdded }
      (ep.update .add ch, ch)
  | .kAdded =>
      if ch.isNoneEvent then
        (ep.update .del ch, { ch with statusInEpoll_ := .kDeleted })
      else
        (ep.update .mod ch, ch)

def removeChannel (ep : Epoll) (ch : Channel) : Epoll × Channel :=
  let ep := { ep with channels_ := ep.channels_.erase ch.fd_ }
  let ep := if ch.statusInEpoll_ = .kAdded then ep.update .del ch else ep
  (ep, { ch with statusInEpoll_ := .kNew })

@[simp] theorem update_channels (ep : Epoll) (op : EpollOp) (ch : Channel) :
    (ep.update op ch).channels_ = ep.channels_ := by
  cases op <;> simp only [update] <;> split <;> rfl

end Epoll

/-! ## Channel operations -/

namespace Channel

/-- `Channel::update`, through `EventLoop::updateChannel`. -/
def update (ch : Channel) (ep : Epoll) : Epoll × Channel :=
  ep.updateChannel { ch with addedToLoop_ := true }

def enableReading (ch : Channel) (ep : Epoll) : Epoll × Channel :=
  update { ch with events_ := ch.events_ ||| kReadEvent } ep

def enableWriting (ch : Channel) (ep : Epoll) : Epoll × Channel :=
  update { ch with events_ := ch.events_ ||| kWriteEvent } ep

def disableWriting (ch : Channel) (ep : Epoll) : Epoll × Channel :=
  update { ch with events_ := ch.events_ &&& ~~~kWriteEvent } ep

def disableAll (ch : Channel) (ep : Epoll) : Epoll × Channel :=
  update { ch with events_ := kNoneEvent } ep

/-- `Channel::remove`, whose `assert(isNoneEvent())` is `ch.isNoneEvent`. -/
def remove (ch : Channel) (ep : Epoll) : Epoll × Channel :=
  ep.removeChannel { ch with addedToLoop_ := false }

variable (ch : Channel) (ep : Epoll)

/-! ### Which events an operation leaves enabled -/

@[simp] theorem update_events : (ch.update ep).2.events_ = ch.events_ := by
  simp only [update, Epoll.updateChannel]
  split <;> (try split) <;> rfl

@[simp] theorem isWriting_enableReading :
    (ch.enableReading ep).2.isWriting = ch.isWriting := by
  have hbits : (ch.events_ ||| kReadEvent) &&& kWriteEvent = ch.events_ &&& kWriteEvent := by
    rw [BitVec.and_comm, BitVec.and_or_distrib_left, BitVec.and_comm kWriteEvent ch.events_]
    simp [kReadEvent, kWriteEvent]
  simp [enableReading, isWriting, hbits]

@[simp] theorem isWriting_enableWriting : (ch.enableWriting ep).2.isWriting = true := by
  have hbits : (ch.events_ ||| kWriteEvent) &&& kWriteEvent = kWriteEvent := by
    ext i hi
    simp only [BitVec.getElem_and, BitVec.getElem_or]
    cases kWriteEvent[i] <;> simp
  rw [enableWriting, isWriting, update_events, hbits]
  decide

@[simp] theorem isWriting_disableWriting : (ch.disableWriting ep).2.isWriting = false := by
  have hbits : (ch.events_ &&& ~~~kWriteEvent) &&& kWriteEvent = 0 := by
    ext i hi
    simp only [BitVec.getElem_and, BitVec.getElem_not]
    cases kWriteEvent[i] <;> simp
  simp [disableWriting, isWriting, hbits]

@[simp] theorem isWriting_disableAll : (ch.disableAll ep).2.isWriting = false := by
  simp [disableAll, isWriting, kNoneEvent]

@[simp] theorem isNoneEvent_disableAll : (ch.disableAll ep).2.isNoneEvent = true := by
  simp [disableAll, isNoneEvent]

/-! ### The entries of `channels_` -/

/-- `ch'` is the same object on the same descriptor as `ch`, and `ep'` has
    no entry that `ep` lacks except the one of `ch`. -/
structure Touches (ep : Epoll) (ch : Channel) (ep' : Epoll) (ch' : Channel) : Prop where
  self : ch'.self = ch.self
  fd : ch'.fd_ = ch.fd_
  entries : ∀ fd p, ep'.channels_[fd]? = some p →
    (fd = ch.fd_ ∧ p = ch.self) ∨ ep.channels_[fd]? = some p

theorem Touches.refl (ep : Epoll) (ch : Channel) : Touches ep ch ep ch :=
  ⟨rfl, rfl, fun _ _ h => Or.inr h⟩

theorem Touches.trans {ep ep' ep'' : Epoll} {ch ch' ch'' : Channel}
    (h : Touches ep ch ep' ch') (h' : Touches ep' ch' ep'' ch'') :
    Touches ep ch ep'' ch'' := by
  refine ⟨h'.self.trans h.self, h'.fd.trans h.fd, ?_⟩
  intro fd p hp
  rcases h'.entries fd p hp with ⟨hfd, hself⟩ | hp
  · exact Or.inl ⟨hfd.trans h.fd, hself.trans h.self⟩
  · exact h.entries fd p hp

theorem touches_update (events : BitVec 32) :
    Touches ep ch (update { ch with events_ := events } ep).1
      (update { ch with events_ := events } ep).2 := by
  refine ⟨?_, ?_, ?_⟩
  · simp only [update, Epoll.updateChannel]
    split <;> (try split) <;> rfl
  · simp only [update, Epoll.updateChannel]
    split <;> (try split) <;> rfl
  · intro fd p h
    simp only [update, Epoll.updateChannel] at h
    split at h
    · rw [Epoll.update_channels, ExtTreeMap.getElem?_insert] at h
      split at h
      · next heq =>
        exact Or.inl ⟨(LawfulEqOrd.eq_of_compare heq).symm, (Option.some.inj h).symm⟩
      · exact Or.inr h
    · exact Or.inr (by simpa using h)
    · split at h <;> exact Or.inr (by simpa using h)

theorem touches_enableReading :
    Touches ep ch (ch.enableReading ep).1 (ch.enableReading ep).2 := touches_update ch ep _

theorem touches_enableWriting :
    Touches ep ch (ch.enableWriting ep).1 (ch.enableWriting ep).2 := touches_update ch ep _

theorem touches_disableWriting :
    Touches ep ch (ch.disableWriting ep).1 (ch.disableWriting ep).2 := touches_update ch ep _

theorem touches_disableAll :
    Touches ep ch (ch.disableAll ep).1 (ch.disableAll ep).2 := touches_update ch ep _

/-- After `remove` nothing is registered under the channel's descriptor,
    and every other entry was there before. -/
theorem remove_entries {fd : Int} {p : ChannelPtr}
    (h : (ch.remove ep).1.channels_[fd]? = some p) :
    fd ≠ ch.fd_ ∧ ep.channels_[fd]? = some p := by
  have hch : (ch.remove ep).1.channels_ = ep.channels_.erase ch.fd_ := by
    simp only [remove, Epoll.removeChannel]
    split <;> simp
  rw [hch, ExtTreeMap.getElem?_erase] at h
  split at h
  · cases h
  · next hne => exact ⟨fun he => hne (by rw [he]; exact ReflCmp.compare_self), h⟩

end Channel

end TinyWS
