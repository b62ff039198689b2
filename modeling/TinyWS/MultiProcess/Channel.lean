import TinyWS.Net.Registration

/-! # Channel and Epoll of the Multi-process Libraries

    `multiProcess1` and `multiProcess2` hold a copy each of `Channel` and
    `Epoll`, over the same data as the multi-threaded library.  Where the
    two copies differ, a definition asks for the version.

    In both `enableWriting` changes `events_` and nothing else. -/

namespace TinyWS

open Std

/-- Which of the two multi-process libraries. -/
inductive Version where
  | process1
  | process2
  deriving DecidableEq, Repr

namespace Process

/-! ## Epoll -/

/-- `Epoll::updateChannel`.  Only `multiProcess2` marks a channel without
    events as deleted. -/
def updateChannel (v : Version) (ep : Epoll) (ch : Channel) : Epoll × Channel :=
  match ch.statusInEpoll_ with
  | .kNew =>
      let ep := { ep with channels_ := ep.channels_.insert ch.fd_ ch.self }
      let ch := { ch with statusInEpoll_ := .kAdded }
      (ep.update .add ch, ch)
  | .kDeleted =>
      let ch := { ch with statusInEpoll_ := .kAdded }
      (ep.update .add ch, ch)
  | .kAdded =>
      if ch.isNoneEvent then
        match v with
        | .process1 => (ep.update .del ch, ch)
        | .process2 => (ep.update .del ch, { ch with statusInEpoll_ := .kDeleted })
      else
        (ep.update .mod ch, ch)

def removeChannel (ep : Epoll) (ch : Channel) : Epoll × Channel :=
  let ep := { ep with channels_ := ep.channels_.erase ch.fd_ }
  let ep := if ch.statusInEpoll_ = .kAdded then ep.update .del ch else ep
  (ep, { ch with statusInEpoll_ := .kNew })

/-! ## Channel -/

/-- `Channel::update`, through `EventLoop::updateChannel`. -/
def update (v : Version) (ch : Channel) (ep : Epoll) : Epoll × Channel :=
  match v with
  | .process1 => updateChannel v ep ch
  | .process2 => updateChannel v ep { ch with addedToLoop_ := true }

def enableReading (v : Version) (ch : Channel) (ep : Epoll) : Epoll × Channel :=
  update v { ch with events_ := ch.events_ ||| Channel.kReadEvent } ep

/-- Of `multiProcess2` only. -/
def disableReading (ch : Channel) (ep : Epoll) : Epoll × Channel :=
  update .process2 { ch with events_ := ch.events_ &&& ~~~Channel.kReadEvent } ep

/-- There is no call of `update()` here. -/
def enableWriting (ch : Channel) : Channel :=
  { ch with events_ := ch.events_ ||| Channel.kWriteEvent }

def disableWriting (v : Version) (ch : Channel) (ep : Epoll) : Epoll × Channel :=
  update v { ch with events_ := ch.events_ &&& ~~~Channel.kWriteEvent } ep

def disableAll (v : Version) (ch : Channel) (ep : Epoll) : Epoll × Channel :=
  update v { ch with events_ := Channel.kNoneEvent } ep

/-- `Channel::remove`, whose `assert(isNoneEvent())` is `ch.isNoneEvent`. -/
def remove (ch : Channel) (ep : Epoll) : Epoll × Channel :=
  removeChannel ep { ch with addedToLoop_ := false }

/-- `Channel::resetLoop`, of `multiProcess2` only: the channel forgets what
    it was registered for. -/
def resetLoop (ch : Channel) : Channel :=
  { ch with
    events_ := Channel.kNoneEvent
    statusInEpoll_ := .kNew
    addedToLoop_ := false }

/-! ## Against the multi-threaded library -/

theorem updateChannel_process2 (ep : Epoll) (ch : Channel) :
    updateChannel .process2 ep ch = ep.updateChannel ch := rfl

theorem removeChannel_eq (ep : Epoll) (ch : Channel) :
    removeChannel ep ch = ep.removeChannel ch := rfl

/-! ## Enabling reading -/

section Enabling

variable {v : Version} {ep : Epoll} {ch : Channel}

/-- A channel with events ends up in the kernel's set with these. -/
theorem updateChannel_enabled (hknown : ep.Known ch) (hsome : ch.isNoneEvent = false) :
    (updateChannel v ep ch).2 = { ch with statusInEpoll_ := .kAdded } ∧
      (updateChannel v ep ch).1.interest[ch.fd_]? = some (ch.events_, ch.self) := by
  have hlegal := Epoll.legal_operation hknown
  unfold Epoll.operation at hlegal
  unfold updateChannel
  cases hstatus : ch.statusInEpoll_ with
  | kNew =>
    rw [hstatus] at hlegal
    have hadd : Epoll.Legal { ep with channels_ := ep.channels_.insert ch.fd_ ch.self }
        { ch with statusInEpoll_ := .kAdded } .add := hlegal
    exact ⟨rfl, Epoll.getElem?_update hadd⟩
  | kDeleted =>
    rw [hstatus] at hlegal
    have hadd : Epoll.Legal ep { ch with statusInEpoll_ := .kAdded } .add := hlegal
    exact ⟨rfl, Epoll.getElem?_update hadd⟩
  | kAdded =>
    rw [hstatus] at hlegal
    dsimp only at hlegal ⊢
    rw [hsome] at hlegal ⊢
    refine ⟨?_, Epoll.getElem?_update hlegal⟩
    cases ch
    cases hstatus
    rfl

/-- The events a channel has after `enableReading`. -/
def readEvents (ch : Channel) : BitVec 32 := ch.events_ ||| Channel.kReadEvent

theorem enableReading_eq (v : Version) (ch : Channel) (ep : Epoll) :
    ∃ added, enableReading v ch ep =
      updateChannel v ep { ch with events_ := readEvents ch, addedToLoop_ := added } := by
  cases v with
  | process1 => exact ⟨ch.addedToLoop_, rfl⟩
  | process2 => exact ⟨true, rfl⟩

/-- What `enableReading` leaves, in the channel and in the kernel. -/
theorem enableReading_spec (hknown : ep.Known ch) :
    let done := enableReading v ch ep
    done.2.self = ch.self ∧ done.2.fd_ = ch.fd_ ∧ done.2.events_ = readEvents ch ∧
      done.2.statusInEpoll_ = .kAdded ∧
      done.1.interest[ch.fd_]? = some (readEvents ch, ch.self) := by
  have hne : readEvents ch ≠ Channel.kNoneEvent := by
    intro hnone
    rw [readEvents, Channel.kNoneEvent] at hnone
    exact absurd (BitVec.or_eq_zero_iff.mp hnone).2 (by decide)
  have hsome : (readEvents ch == Channel.kNoneEvent) = false := beq_eq_false_iff_ne.mpr hne
  obtain ⟨added, heq⟩ := enableReading_eq v ch ep
  have hk : ep.Known { ch with events_ := readEvents ch, addedToLoop_ := added } := hknown
  obtain ⟨hch, hkernel⟩ := updateChannel_enabled (v := v) hk hsome
  rw [heq]
  exact ⟨by rw [hch], by rw [hch], by rw [hch], by rw [hch], hkernel⟩

/-- What `disableReading` leaves of a channel that was only read from. -/
theorem disableReading_spec (ep : Epoll) (hevents : ch.events_ = Channel.kReadEvent)
    (hadded : ch.statusInEpoll_ = .kAdded) :
    let done := disableReading ch ep
    done.2.fd_ = ch.fd_ ∧ done.2.events_ = Channel.kNoneEvent ∧
      done.2.statusInEpoll_ = .kDeleted ∧ done.1.interest[ch.fd_]? = none := by
  have hbits : ch.events_ &&& ~~~Channel.kReadEvent = Channel.kNoneEvent := by
    rw [hevents]
    decide
  unfold disableReading update updateChannel
  dsimp only
  rw [hbits, hadded]
  exact ⟨rfl, rfl, rfl, ExtTreeMap.getElem?_erase_self⟩

end Enabling

end Process

end TinyWS
