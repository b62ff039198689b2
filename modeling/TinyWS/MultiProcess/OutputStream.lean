import TinyWS.MultiProcess.TcpConnection
import TinyWS.Net.Registration

/-! # The Output Stream in the Multi-process Libraries

    As long as every `::write` of `send` takes the whole message, nothing
    is ever buffered, and the bytes on the socket are the messages.

    The first short write ends this.  The rest goes to `outputBuffer_`, but
    the channel is registered for reading once more and not for writing:
    no write event comes, and `send` does not write to a connection with
    bytes in its buffer. -/

namespace TinyWS

open Std

namespace Process

/-- What is done to the connection. -/
inductive SendStep where
  | send (message : Bytes) (w : WriteResult)
  | handleWrite (w : WriteResult)
  deriving DecidableEq, Repr

/-- Sends and write events in any order. -/
def sending (v : Version) : Machine TcpConnection SendStep where
  guard _ _ := True
  next
    | c, .send message w => c.send v message w
    | c, .handleWrite w => c.handleWrite v w

namespace TcpConnection

/-! ## The specification -/

/-- The bytes written so far followed by the bytes still buffered. -/
def outputStream (c : TcpConnection) : Bytes := written c.calls ++ c.outputBuffer_.toString

/-- The kernel watches the socket for `EPOLLOUT`. -/
def AwaitsWrite (c : TcpConnection) : Prop :=
  ∃ v ∈ c.epoll_.interest[c.channel_.fd_]?, v.1 &&& Channel.kWriteEvent ≠ 0

instance (c : TcpConnection) : Decidable c.AwaitsWrite :=
  inferInstanceAs (Decidable (∃ v ∈ c.epoll_.interest[c.channel_.fd_]?, _))

/-- Every byte is on its way: none is missing, and none is stuck. -/
def Delivers (c : TcpConnection) : Prop :=
  c.outputStream = c.sent.flatten ∧ (c.outputBuffer_.toString ≠ [] → c.AwaitsWrite)

instance (c : TcpConnection) : Decidable c.Delivers :=
  inferInstanceAs (Decidable (_ ∧ (_ → _)))

/-- The condition of the runs: `::write` takes the whole message. -/
def TakesWhole (_ : TcpConnection) : SendStep → Prop
  | .send message w => (w.accepted message.length).getD 0 = message.length
  | .handleWrite _ => True

instance (c : TcpConnection) : DecidablePred c.TakesWhole
  | .send message w =>
      inferInstanceAs (Decidable ((w.accepted message.length).getD 0 = message.length))
  | .handleWrite _ => isTrue trivial

/-! ## The invariant -/

/-- Connected, registered for reading, and nothing is buffered. -/
structure Flowing (c : TcpConnection) : Prop where
  state_ : c.state_ = .kConnected
  events_ : c.channel_.events_ = Channel.kReadEvent
  added : c.channel_.statusInEpoll_ = .kAdded
  registered : c.epoll_.interest[c.channel_.fd_]? = some (Channel.kReadEvent, c.channel_.self)
  empty : c.outputBuffer_.toString = []
  stream : written c.calls = c.sent.flatten

/-- Reading is enabled on a channel that is new to the loop. -/
theorem flowing_established (v : Version) (self : ChannelPtr) (fd : Int) (writeComplete : Bool)
    {epoll : Epoll} (hnew : fd ∉ epoll.interest) :
    (established v self fd writeComplete epoll).Flowing := by
  have hknown : epoll.Known (Channel.new self fd) := iff_of_false hnew EpollStatus.noConfusion
  obtain ⟨hself, hfd, hevents, hadded, hkernel⟩ := enableReading_spec (v := v) hknown
  have hread : readEvents (Channel.new self fd) = Channel.kReadEvent := by
    show Channel.kNoneEvent ||| Channel.kReadEvent = Channel.kReadEvent
    decide
  rw [hread] at hevents hkernel
  refine ⟨rfl, hevents, hadded, ?_, Buffer.toString_new, rfl⟩
  show (Process.enableReading v (Channel.new self fd) epoll).1.interest[
    (Process.enableReading v (Channel.new self fd) epoll).2.fd_]? =
      some (Channel.kReadEvent, (Process.enableReading v (Channel.new self fd) epoll).2.self)
  rw [hself, hfd]
  exact hkernel

theorem Flowing.notWriting {c : TcpConnection} (h : c.Flowing) : c.channel_.isWriting = false := by
  rw [Channel.isWriting, h.events_]
  decide

theorem Flowing.delivers {c : TcpConnection} (h : c.Flowing) : c.Delivers := by
  refine ⟨?_, fun hne => absurd h.empty hne⟩
  rw [outputStream, h.empty, h.stream, List.append_nil]

/-- Without interest in writing a write event changes nothing. -/
theorem handleWrite_flowing {c : TcpConnection} (h : c.Flowing) (v : Version) (w : WriteResult) :
    c.handleWrite v w = c := by
  rw [handleWrite, if_neg]
  rw [h.notWriting]
  exact Bool.false_ne_true

/-! ## One send -/

/-- The state of `send` after `::write` took `n` bytes. -/
def afterWrite (c : TcpConnection) (message : Bytes) (w : WriteResult) : TcpConnection :=
  let c := { c with sent := c.sent ++ [message] }
  let c := c.call (.write (message.take ((w.accepted message.length).getD 0)))
  if w.accepted message.length = some message.length then c.writeComplete else c

theorem writeComplete_eq (c : TcpConnection) :
    ∃ completed, c.writeComplete = { c with completed := completed } := by
  unfold writeComplete
  split
  · exact ⟨c.completed + 1, rfl⟩
  · exact ⟨c.completed, rfl⟩

/-- `::write` leaves the connection as it was, but for the histories. -/
theorem afterWrite_eq (c : TcpConnection) (message : Bytes) (w : WriteResult) :
    ∃ completed, c.afterWrite message w =
      { c with
        sent := c.sent ++ [message]
        calls := c.calls ++ [.write (message.take ((w.accepted message.length).getD 0))]
        completed := completed } := by
  unfold afterWrite
  dsimp only
  split
  · exact writeComplete_eq _
  · exact ⟨c.completed, rfl⟩

theorem send_flowing {c : TcpConnection} (h : c.Flowing) (v : Version) (message : Bytes)
    (w : WriteResult) :
    c.send v message w =
      if (w.accepted message.length).getD 0 < message.length then
        { c.afterWrite message w with
          outputBuffer_ := (c.afterWrite message w).outputBuffer_.append
            (message.drop ((w.accepted message.length).getD 0)) }.enableReading v
      else c.afterWrite message w := by
  have hidle : (!c.channel_.isWriting && c.outputBuffer_.readableBytes == 0) = true := by
    rw [h.notWriting, (Buffer.readableBytes_eq_zero _).mpr h.empty]
    rfl
  have hwriting : (c.afterWrite message w).channel_.isWriting = false := by
    obtain ⟨completed, heq⟩ := c.afterWrite_eq message w
    rw [heq]
    exact h.notWriting
  rw [send, if_pos h.state_]
  dsimp only
  rw [if_pos hidle]
  split
  · -- the channel is not writing, so reading is enabled
    have hne : ¬ (c.afterWrite message w).channel_.isWriting = true := by
      rw [hwriting]
      exact Bool.false_ne_true
    exact if_neg hne
  · rfl

/-- A message that was taken whole. -/
theorem flowing_send {c : TcpConnection} (h : c.Flowing) (v : Version) {message : Bytes}
    {w : WriteResult} (hwhole : (w.accepted message.length).getD 0 = message.length) :
    (c.send v message w).Flowing := by
  obtain ⟨completed, heq⟩ := c.afterWrite_eq message w
  -- nothing is left to buffer
  rw [send_flowing h, if_neg (by omega), heq, hwhole, List.take_length]
  refine ⟨h.state_, h.events_, h.added, h.registered, h.empty, ?_⟩
  show written (c.calls ++ [.write message]) = (c.sent ++ [message]).flatten
  simp [h.stream]

/-- Enabling reading once more tells the kernel nothing new. -/
theorem not_awaitsWrite_enableReading {c : TcpConnection} (v : Version)
    (hevents : c.channel_.events_ = Channel.kReadEvent)
    (hadded : c.channel_.statusInEpoll_ = .kAdded)
    (hregistered : c.channel_.fd_ ∈ c.epoll_.interest) :
    ¬ (c.enableReading v).AwaitsWrite := by
  have hknown : c.epoll_.Known c.channel_ := iff_of_true hregistered hadded
  obtain ⟨-, hfd, -, -, hkernel⟩ := enableReading_spec (v := v) hknown
  have hread : readEvents c.channel_ = Channel.kReadEvent := by
    rw [readEvents, hevents]
    decide
  rintro ⟨entry, hentry, hout⟩
  change entry ∈ (Process.enableReading v c.channel_ c.epoll_).1.interest[
    (Process.enableReading v c.channel_ c.epoll_).2.fd_]? at hentry
  rw [hfd, hkernel, hread] at hentry
  cases hentry
  exact hout (show Channel.kReadEvent &&& Channel.kWriteEvent = 0 by decide)

/-- A message that was not: its rest is stuck. -/
theorem not_delivers_send {c : TcpConnection} (h : c.Flowing) (v : Version) {message : Bytes}
    {w : WriteResult} (hshort : (w.accepted message.length).getD 0 ≠ message.length) :
    ¬ (c.send v message w).Delivers := by
  obtain ⟨completed, heq⟩ := c.afterWrite_eq message w
  have hle : (w.accepted message.length).getD 0 ≤ message.length := by
    cases w with
    | wrote n => exact Nat.min_le_right n message.length
    | failed b => exact Nat.zero_le _
  have hlt : (w.accepted message.length).getD 0 < message.length := by omega
  rw [send_flowing h, if_pos hlt, heq]
  rintro ⟨-, hstuck⟩
  refine not_awaitsWrite_enableReading v h.events_ h.added (mem_of_getElem?_eq_some h.registered)
    (hstuck ?_)
  -- the rest is in the buffer
  show (c.outputBuffer_.append (message.drop _)).toString ≠ []
  rw [Buffer.toString_append]
  intro hnil
  have hdrop := (List.append_eq_nil_iff.mp hnil).2
  rw [List.drop_eq_nil_iff] at hdrop
  omega

/-! ## Runs -/

/-- **Output stream of a process**: in every state of a run of sends and
    write events, with any partial writes, each byte is written once and
    in order and the kernel watches for the rest, if and only if every
    `::write` in `send` took the whole message. -/
theorem delivers_iff_takesWhole (v : Version) (self : ChannelPtr) (fd : Int)
    (writeComplete : Bool) (epoll : Epoll) (hnew : fd ∉ epoll.interest) (steps : List SendStep) :
    let c₀ := established v self fd writeComplete epoll
    (∀ pre, pre <+: steps → ((sending v).run c₀ pre).Delivers) ↔
      (sending v).Along TakesWhole c₀ steps := by
  intro c₀
  apply (sending v).always_iff_along (fun c _ => c.Flowing) Delivers
  · exact fun c _ h => h.delivers
  · intro c l steps h hcond
    cases l with
    | send message w => exact flowing_send h v hcond
    | handleWrite w =>
      -- such an event cannot come, and does no harm
      show (c.handleWrite v w).Flowing
      rw [handleWrite_flowing h]
      exact h
  · intro c l steps h hcond
    cases l with
    | send message w => exact not_delivers_send h v hcond
    | handleWrite w => exact absurd trivial hcond
  · exact flowing_established v self fd writeComplete hnew

/-- Two messages, each taken whole. -/
theorem delivers_twoMessages :
    let c₀ := established .process2 1 5 false Epoll.new
    let steps : List SendStep := [.send [1, 2] (.wrote 2), .handleWrite (.wrote 0),
      .send [3] (.wrote 9)]
    ∀ pre, pre <+: steps → ((sending .process2).run c₀ pre).Delivers :=
  (delivers_iff_takesWhole .process2 1 5 false Epoll.new (by decide) _).mpr (by decide)

/-- One byte of two is taken, and the kernel does not watch for the other. -/
theorem not_delivers_shortWrite :
    ¬ ((established .process1 1 5 false Epoll.new).send .process1 [1, 2] (.wrote 1)).Delivers ∧
      ¬ ((established .process2 1 5 false Epoll.new).send .process2 [1, 2] (.wrote 1)).Delivers := by
  decide +kernel

end TcpConnection

end Process

end TinyWS
