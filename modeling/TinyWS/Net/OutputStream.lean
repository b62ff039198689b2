import TinyWS.Net.TcpConnection

/-! # The Output Stream of a Connection

    The abstract view of the sending side is one byte stream: what was
    written to the socket, then what waits in `outputBuffer_`.  A write
    event only moves bytes from the second part to the first, and a
    message is appended to the stream if the connection is idle when
    `sendInLoop` runs.

    A busy connection drops the message, so the stream is the
    concatenation of the messages exactly in the runs whose every `send`
    found the connection idle or had nothing to send. -/

namespace TinyWS

namespace Endpoint

/-- The bytes written so far followed by the bytes still buffered. -/
def outputStream (e : Endpoint) : Bytes := written e.calls ++ e.outputBuffer_.toString

/-- The channel awaits a write event exactly while bytes are buffered. -/
def WritingIffBuffered (e : Endpoint) : Prop :=
  e.channel_.isWriting = true ↔ e.outputBuffer_.toString ≠ []

theorem idle_iff {e : Endpoint} (h : e.WritingIffBuffered) :
    e.Idle ↔ e.outputBuffer_.toString = [] := by
  refine ⟨fun hi => hi.2, fun ho => ⟨?_, ho⟩⟩
  rw [← Bool.not_eq_true]
  exact fun hw => h.mp hw ho

/-! ## The stream under the operations -/

theorem writingIffBuffered_sendInLoop {e : Endpoint} (h : e.WritingIffBuffered)
    (message : Bytes) (w : WriteResult) : (e.sendInLoop message w).WritingIffBuffered := by
  by_cases hi : e.Idle
  · -- writing is enabled exactly for what the kernel did not take
    obtain ⟨n, hs⟩ := sendInLoop_idle hi message w
    rw [WritingIffBuffered, hs.writing, hs.output]
    simp [List.drop_eq_nil_iff]
  · rw [sendInLoop_busy hi]
    exact h

/-- An idle connection appends the message to the stream. -/
theorem outputStream_sendInLoop {e : Endpoint} (h : e.Idle) (message : Bytes)
    (w : WriteResult) :
    (e.sendInLoop message w).outputStream = e.outputStream ++ message := by
  obtain ⟨n, hs⟩ := sendInLoop_idle h message w
  simp [outputStream, hs.calls, hs.output, h.2]

theorem writingIffBuffered_handleWrite {e : Endpoint} (h : e.WritingIffBuffered)
    (w : WriteResult) : (e.handleWrite w).WritingIffBuffered := by
  by_cases hw : e.channel_.isWriting = true
  · by_cases hall : e.TakesAll w
    · obtain ⟨-, ho, hw'⟩ := handleWrite_drained hw (h.mp hw) hall
      simp [WritingIffBuffered, ho, hw']
    · -- bytes stay behind, and so does the interest in writing
      obtain ⟨n, hn, -, ho, hw', -⟩ := handleWrite_partial hw (h.mp hw) hall
      simp only [WritingIffBuffered, ho, hw', ne_eq, List.drop_eq_nil_iff, true_iff]
      omega
  · rw [handleWrite_notWriting (by simpa using hw)]
    exact h

/-- A write event moves bytes from the buffer to the socket. -/
theorem outputStream_handleWrite {e : Endpoint} (h : e.WritingIffBuffered) (w : WriteResult) :
    (e.handleWrite w).outputStream = e.outputStream := by
  by_cases hw : e.channel_.isWriting = true
  · by_cases hall : e.TakesAll w
    · obtain ⟨hc, ho, -⟩ := handleWrite_drained hw (h.mp hw) hall
      rw [outputStream, hc, ho]
      split <;> simp [outputStream, written]
    · obtain ⟨n, -, hc, ho, -, -⟩ := handleWrite_partial hw (h.mp hw) hall
      simp [outputStream, hc, ho]
  · rw [handleWrite_notWriting (by simpa using hw)]

/-! ## Runs of sends and write events -/

/-- The steps of a connection that only sends in its loop thread. -/
def SendsInLoop : ConnStep → Prop
  | .send inLoopThread _ _ => inLoopThread = true
  | .handleWrite _ => True
  | _ => False

instance : DecidablePred SendsInLoop
  | .send inLoopThread _ _ => inferInstanceAs (Decidable (inLoopThread = true))
  | .handleWrite _ => isTrue trivial
  | .shutdown _ => isFalse id
  | .handleRead _ => isFalse id
  | .handleClose => isFalse id
  | .doPendingFunctor _ => isFalse id
  | .connectionDestroyed => isFalse id

/-- A `send` meets an empty output buffer, or has nothing to send. -/
def SendFindsRoom (e : Endpoint) : ConnStep → Prop
  | .send _ message _ => message = [] ∨ e.outputBuffer_.toString = []
  | _ => True

/-- What holds along every such run, whether or not messages were lost. -/
structure Sending (e : Endpoint) : Prop where
  state_ : e.state_ = .kConnected
  writing : e.WritingIffBuffered
  /-- Nothing enters the stream that was not sent. -/
  length_le : e.outputStream.length ≤ e.sent.flatten.length

/-- No message is missing from the stream. -/
def StreamComplete (e : Endpoint) : Prop := e.outputStream = e.sent.flatten

theorem sending_established (name : String) (loop : LoopId) (self : ChannelPtr) (fd : Int)
    (writeComplete : Bool) (epoll : Epoll) :
    (established name loop self fd writeComplete epoll).Sending := by
  refine ⟨rfl, ?_, ?_⟩
  · have hw : (Channel.new self fd).isWriting = false := by
      simp [Channel.new, Channel.isWriting, Channel.kNoneEvent]
    simp [WritingIffBuffered, established, connectionEstablished, setState, enableReading,
      notify, TcpConnection.new, hw]
  · simp [outputStream, established, connectionEstablished, setState, enableReading, notify,
      TcpConnection.new, written]

/-- `send` in the loop thread, on an idle connection and on a busy one. -/
theorem send_stream {e : Endpoint} (h : e.Sending) (message : Bytes) (w : WriteResult) :
    (e.send true message w).Sending ∧
      (e.send true message w).sent.flatten = e.sent.flatten ++ message ∧
      (e.send true message w).outputStream =
        if e.outputBuffer_.toString = [] then e.outputStream ++ message
        else e.outputStream := by
  -- the endpoint `sendInLoop` sees: the message is already in the history
  have hsend : e.send true message w =
      { e with sent := e.sent ++ [message] }.sendInLoop message w := by
    simp [send, h.state_]
  have hidle := idle_iff h.writing
  rw [hsend]
  by_cases ho : e.outputBuffer_.toString = []
  · -- room: the message enters the history and the stream
    have hi : { e with sent := e.sent ++ [message] }.Idle := hidle.mpr ho
    have hsame := sameLife_sendInLoop { e with sent := e.sent ++ [message] } message w
    have hstream : ({ e with sent := e.sent ++ [message] }.sendInLoop message w).outputStream =
        e.outputStream ++ message := outputStream_sendInLoop hi message w
    have hflat : ({ e with sent := e.sent ++ [message] }.sendInLoop message w).sent.flatten =
        e.sent.flatten ++ message := by simp [hsame.sent]
    refine ⟨⟨hsame.state_.trans h.state_, ?_, ?_⟩, hflat, by rw [if_pos ho, hstream]⟩
    · have hw : { e with sent := e.sent ++ [message] }.WritingIffBuffered := h.writing
      exact writingIffBuffered_sendInLoop hw message w
    · have := h.length_le
      rw [hstream, hflat, List.length_append, List.length_append]
      omega
  · -- no room: it enters the history only
    have hb : ¬ { e with sent := e.sent ++ [message] }.Idle := fun hi => ho hi.2
    rw [sendInLoop_busy hb, if_neg ho]
    refine ⟨⟨h.state_, h.writing, ?_⟩, by simp, rfl⟩
    have := h.length_le
    show e.outputStream.length ≤ (e.sent ++ [message]).flatten.length
    rw [List.flatten_append, List.length_append]
    omega

theorem handleWrite_sending {e : Endpoint} (h : e.Sending) (w : WriteResult) :
    (e.handleWrite w).Sending := by
  have hsame := sameLife_handleWrite e w
  refine ⟨hsame.state_.trans h.state_, writingIffBuffered_handleWrite h.writing w, ?_⟩
  rw [outputStream_handleWrite h.writing w, hsame.sent]
  exact h.length_le

/-- A message is lost exactly when it is not empty and meets buffered bytes. -/
theorem send_streamComplete {e : Endpoint} (h : e.Sending) (hg : e.StreamComplete)
    (message : Bytes) (w : WriteResult) :
    (e.send true message w).StreamComplete ↔ message = [] ∨ e.outputBuffer_.toString = [] := by
  obtain ⟨-, hsent, hstream⟩ := send_stream h message w
  rw [StreamComplete, hsent, hstream, hg]
  by_cases ho : e.outputBuffer_.toString = []
  · simp [ho]
  · simp [ho]

/-- A message that is missing stays missing. -/
theorem send_not_streamComplete {e : Endpoint} (h : e.Sending) (hg : ¬ e.StreamComplete)
    (message : Bytes) (w : WriteResult) : ¬ (e.send true message w).StreamComplete := by
  obtain ⟨-, hsent, hstream⟩ := send_stream h message w
  rw [StreamComplete, hsent, hstream]
  by_cases ho : e.outputBuffer_.toString = []
  · -- both sides grew by the same message
    rw [if_pos ho]
    exact fun heq => hg (List.append_cancel_right heq)
  · rw [if_neg ho]
    intro heq
    -- the stream would have to be longer than what was sent before
    have hlen := h.length_le
    have hnil : message = [] := by
      rw [heq, List.length_append] at hlen
      exact List.length_eq_zero_iff.mp (by omega)
    exact hg (by rw [StreamComplete, heq, hnil, List.append_nil])

/-- **Output stream**: for every connection and every run of loop-thread
    sends and write events, with any partial writes, the bytes written
    followed by the bytes buffered are the messages in call order if and
    only if every non-empty message met an empty output buffer. -/
theorem outputStream_eq_sent_iff (name : String) (loop : LoopId) (self : ChannelPtr) (fd : Int)
    (writeComplete : Bool) (epoll : Epoll) (steps : List ConnStep)
    (hsteps : ∀ l ∈ steps, SendsInLoop l) :
    let e₀ := established name loop self fd writeComplete epoll
    let e := connection.run e₀ steps
    written e.calls ++ e.outputBuffer_.toString = e.sent.flatten ↔
      connection.Along SendFindsRoom e₀ steps := by
  intro e₀ e
  have hstart : e₀.Sending := sending_established name loop self fd writeComplete epoll
  have hrun := connection.along_of_forall e₀ hsteps
  refine connection.run_iff_along Sending StreamComplete ?_ ?_ ?_ hstart hrun rfl
  · intro s l hs hl
    cases l with
    | send b message w => cases hl; exact (send_stream hs message w).1
    | handleWrite w => exact handleWrite_sending hs w
    | _ => exact absurd hl id
  · -- a complete stream: what one step needs to keep it
    intro s l hs hl hg
    cases l with
    | send b message w => cases hl; exact send_streamComplete hs hg message w
    | handleWrite w =>
      refine ⟨fun _ => trivial, fun _ => ?_⟩
      show (s.handleWrite w).outputStream = (s.handleWrite w).sent.flatten
      rw [outputStream_handleWrite hs.writing w, (sameLife_handleWrite s w).sent]
      exact hg
    | _ => exact absurd hl id
  · -- an incomplete one: no step mends it
    intro s l hs hl hg
    cases l with
    | send b message w => cases hl; exact send_not_streamComplete hs hg message w
    | handleWrite w =>
      show ¬ (s.handleWrite w).outputStream = (s.handleWrite w).sent.flatten
      rw [outputStream_handleWrite hs.writing w, (sameLife_handleWrite s w).sent]
      exact hg
    | _ => exact absurd hl id

/-- A short write, the drain, and a second message: both arrive. -/
theorem outputStream_eq_sent_drained :
    let steps : List ConnStep :=
      [.send true [1, 2] (.wrote 1), .handleWrite (.wrote 9), .send true [3] (.wrote 9)]
    let e₀ := established "c" 0 0 5 false Epoll.new
    let e := connection.run e₀ steps
    written e.calls ++ e.outputBuffer_.toString = e.sent.flatten ↔
      connection.Along SendFindsRoom e₀ steps :=
  outputStream_eq_sent_iff "c" 0 0 5 false Epoll.new _ (by decide)

/-- A short write and a second message without the drain: the second
    message is lost. -/
theorem outputStream_ne_sent_busy :
    let steps : List ConnStep :=
      [.send true [1, 2] (.wrote 1), .send true [3] (.wrote 9), .handleWrite (.wrote 9)]
    let e := connection.run (established "c" 0 0 5 false Epoll.new) steps
    (∀ l ∈ steps, SendsInLoop l) ∧
      ¬ (written e.calls ++ e.outputBuffer_.toString = e.sent.flatten) := by
  decide +kernel

end Endpoint

end TinyWS
