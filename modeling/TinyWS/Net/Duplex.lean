import TinyWS.Net.HalfClose
import TinyWS.Net.OutputStream

/-! # Both Ends of a Connection

    Two connections of this library talk to each other, a client and a
    server for instance, each with its loop and its threads.  The network
    between them cuts the bytes as it likes.

    What one side reads is what the other side wrote, and what a side
    writes are whole messages: `sendInLoop` takes a message as a whole or
    drops it.  The messages of the loop's own thread stay in order, and so
    do those of the other threads, which wait in the queue of functors.

    All calls and events are allowed at all times, those of a connection
    that was closed or destroyed as well. -/

namespace TinyWS

/-- A message, and whether the thread of the loop sends it. -/
abbrev Message : Type := Bool × Bytes

/-- One end of a connection with its user.  All but the connection are
    histories. -/
structure Side where
  conn : Endpoint
  /-- The messages that `send` was given while connected. -/
  given : List Message
  /-- The messages that `sendInLoop` took. -/
  taken : List Message
  /-- What was read from the socket. -/
  received : Bytes
  /-- What the user has retrieved from `inputBuffer_`. -/
  retrieved : Bytes

inductive SideStep where
  | conn (l : ConnStep)
  /-- The user retrieves bytes from `inputBuffer_`. -/
  | retrieve (len : Nat)
  deriving DecidableEq, Repr

namespace Side

/-! ## The model -/

def new (conn : Endpoint) : Side where
  conn := conn
  given := []
  taken := []
  received := []
  retrieved := []

/-- What `send` is given in a step. -/
def gives (e : Endpoint) : ConnStep → List Message
  | .send inLoopThread message _ => if e.state_ = .kConnected then [(inLoopThread, message)] else []
  | _ => []

/-- What `sendInLoop` is called with in a step. -/
def sends (e : Endpoint) : ConnStep → List Message
  | .send true message _ => if e.state_ = .kConnected then [(true, message)] else []
  | .doPendingFunctor _ =>
      match e.pendingFunctors_ with
      | .sendInLoop message :: _ => [(false, message)]
      | _ => []
  | _ => []

def reads : ConnStep → Bytes
  | .handleRead (.data bs) => bs
  | _ => []

def next (s : Side) : SideStep → Side
  | .conn l =>
      { conn := s.conn.step l
        given := s.given ++ gives s.conn l
        taken := if s.conn.Idle then s.taken ++ sends s.conn l else s.taken
        received := s.received ++ reads l
        retrieved := s.retrieved }
  | .retrieve len =>
      { s with
        conn := { s.conn with inputBuffer_ := s.conn.inputBuffer_.retrieve len }
        retrieved := s.retrieved ++ s.conn.inputBuffer_.toString.take len }

end Side

/-- Two ends of one connection. -/
structure Duplex where
  left : Side
  right : Side

inductive DuplexStep where
  | left (l : SideStep)
  | right (l : SideStep)
  deriving DecidableEq, Repr

/-- `y` can read what `x` has written and `y` has not read yet. -/
def Side.MayRead (x y : Side) : SideStep → Prop
  | .conn (.handleRead (.data bs)) => y.received ++ bs <+: written x.conn.calls
  | _ => True

instance (x y : Side) : (l : SideStep) → Decidable (x.MayRead y l)
  | .conn (.handleRead (.data bs)) =>
      inferInstanceAs (Decidable (y.received ++ bs <+: written x.conn.calls))
  | .conn (.handleRead .eof) | .conn (.handleRead .error) | .conn (.send _ _ _)
  | .conn (.shutdown _) | .conn (.handleWrite _) | .conn .handleClose
  | .conn (.doPendingFunctor _) | .conn .connectionDestroyed | .retrieve _ => isTrue trivial

/-- Two sides, and the network between them. -/
def duplex : Machine Duplex DuplexStep where
  guard d
    | .left l => d.right.MayRead d.left l
    | .right l => d.left.MayRead d.right l
  next d
    | .left l => { d with left := d.left.next l }
    | .right l => { d with right := d.right.next l }

instance (d : Duplex) : (l : DuplexStep) → Decidable (duplex.guard d l)
  | .left l => inferInstanceAs (Decidable (d.right.MayRead d.left l))
  | .right l => inferInstanceAs (Decidable (d.left.MayRead d.right l))

namespace Side

/-! ## The specification -/

/-- The messages that wait for the loop. -/
def queued (e : Endpoint) : List Message :=
  e.pendingFunctors_.filterMap fun
    | .sendInLoop message => some (false, message)
    | .shutdownInLoop | .writeComplete => none

/-- Whatever `sendInLoop` is called with finds the connection idle. -/
def FindsIdle (s : Side) : SideStep → Prop
  | .conn l => sends s.conn l = [] ∨ s.conn.Idle
  | .retrieve _ => True

instance (s : Side) : DecidablePred s.FindsIdle
  | .conn l => inferInstanceAs (Decidable (sends s.conn l = [] ∨ s.conn.Idle))
  | .retrieve _ => isTrue trivial

/-- Every message that was given to `send` was taken, or waits. -/
def Complete (s : Side) : Prop := s.taken.length + (queued s.conn).length = s.given.length

/-- The books of one side. -/
structure Keeps (s : Side) : Prop where
  stream : s.conn.outputStream = (s.taken.map Prod.snd).flatten
  writing : s.conn.channel_.isWriting = true → s.conn.outputBuffer_.toString ≠ []
  buffered : s.retrieved ++ s.conn.inputBuffer_.toString = s.received
  fromLoop : (s.taken.filter (·.1)).Sublist (s.given.filter (·.1))
  fromOthers : (s.taken.filter (!·.1) ++ queued s.conn).Sublist (s.given.filter (!·.1))

/-- What `x` sends and `y` reads: `y` has read a part of what was written,
    in front; what was written and what is still buffered are messages, one
    after the other and each as a whole; and the messages of the loop's
    thread are in order, and those of the other threads. -/
structure Carries (x y : Side) : Prop where
  received : y.received <+: written x.conn.calls
  buffered : y.retrieved ++ y.conn.inputBuffer_.toString = y.received
  stream : written x.conn.calls ++ x.conn.outputBuffer_.toString = (x.taken.map Prod.snd).flatten
  fromLoop : (x.taken.filter (·.1)).Sublist (x.given.filter (·.1))
  fromOthers : (x.taken.filter (!·.1) ++ queued x.conn).Sublist (x.given.filter (!·.1))

variable {s x y : Side} {e : Endpoint}

/-! ## The stream under every step -/

/-- What the channel awaits a write event for. -/
def HasReason (e : Endpoint) : Prop :=
  e.channel_.isWriting = true → e.outputBuffer_.toString ≠ []

theorem hasReason_of_notWriting (h : e.channel_.isWriting = false) : HasReason e := by
  intro hw
  rw [h] at hw
  cases hw

theorem stream_sendInLoop (h : HasReason e) (message : Bytes) (w : WriteResult) :
    HasReason (e.sendInLoop message w) ∧ (e.sendInLoop message w).outputStream =
      e.outputStream ++ if e.Idle then message else [] := by
  by_cases hidle : e.Idle
  · obtain ⟨n, hsends⟩ := Endpoint.sendInLoop_idle hidle message w
    rw [if_pos hidle]
    refine ⟨?_, Endpoint.outputStream_sendInLoop hidle message w⟩
    -- what the write did not take is buffered
    intro hw
    rw [hsends.writing, decide_eq_true_eq] at hw
    rw [hsends.output, ne_eq, List.drop_eq_nil_iff]
    omega
  · rw [Endpoint.sendInLoop_busy hidle, if_neg hidle, List.append_nil]
    exact ⟨h, rfl⟩

theorem stream_handleWrite (h : HasReason e) (w : WriteResult) :
    HasReason (e.handleWrite w) ∧ (e.handleWrite w).outputStream = e.outputStream := by
  by_cases hw : e.channel_.isWriting = true
  · have hiff : e.WritingIffBuffered := ⟨h, fun _ => hw⟩
    refine ⟨?_, Endpoint.outputStream_handleWrite hiff w⟩
    exact (Endpoint.writingIffBuffered_handleWrite hiff w).mp
  · rw [Endpoint.handleWrite_notWriting (Bool.eq_false_of_not_eq_true hw)]
    exact ⟨h, rfl⟩

theorem stream_shutdownInLoop (h : HasReason e) :
    HasReason e.shutdownInLoop ∧ e.shutdownInLoop.outputStream = e.outputStream := by
  unfold Endpoint.shutdownInLoop
  split
  · exact ⟨h, rfl⟩
  · refine ⟨h, ?_⟩
    show written (e.calls ++ [.shutdownWrite _ _]) ++ e.outputBuffer_.toString = _
    rw [Endpoint.written_append, Endpoint.written_shutdownWrite, List.append_nil]
    rfl

theorem stream_handleClose : HasReason e.handleClose ∧
    e.handleClose.outputStream = e.outputStream :=
  ⟨hasReason_of_notWriting (Channel.isWriting_disableAll _ _), rfl⟩

theorem stream_connectionDestroyed (h : HasReason e) :
    HasReason e.connectionDestroyed ∧ e.connectionDestroyed.outputStream = e.outputStream := by
  unfold Endpoint.connectionDestroyed
  split
  · refine ⟨?_, rfl⟩
    apply hasReason_of_notWriting
    show ((e.setState .kDisconnected).channel_.disableAll _).2.isWriting = false
    exact Channel.isWriting_disableAll _ _
  · exact ⟨h, rfl⟩

theorem stream_doPendingFunctor (h : HasReason e) (w : WriteResult) :
    HasReason (e.doPendingFunctor w) ∧ (e.doPendingFunctor w).outputStream = e.outputStream ++
      if e.Idle then ((sends e (.doPendingFunctor w)).map Prod.snd).flatten else [] := by
  unfold Endpoint.doPendingFunctor sends
  cases hqueue : e.pendingFunctors_ with
  | nil => exact ⟨h, by simp⟩
  | cons f fs =>
    let rest : Endpoint := { e with pendingFunctors_ := fs }
    have hrest : HasReason rest := h
    cases f with
    | sendInLoop message =>
      obtain ⟨hreason, hstream⟩ := stream_sendInLoop hrest message w
      refine ⟨hreason, hstream.trans ?_⟩
      show e.outputStream ++ (if e.Idle then message else []) = _
      simp
    | shutdownInLoop =>
      obtain ⟨hreason, hstream⟩ := stream_shutdownInLoop hrest
      refine ⟨hreason, hstream.trans ?_⟩
      show e.outputStream = _
      simp
    | writeComplete =>
      refine ⟨h, ?_⟩
      show e.outputStream = _
      simp

/-- **Step**: the stream grows by what `sendInLoop` is called with, if it
    finds the connection idle. -/
theorem stream_step (h : HasReason e) (l : ConnStep) :
    HasReason (e.step l) ∧ (e.step l).outputStream =
      e.outputStream ++ if e.Idle then ((sends e l).map Prod.snd).flatten else [] := by
  -- most steps send nothing
  have hnothing : e.outputStream = e.outputStream ++
      if e.Idle then ((([] : List Message)).map Prod.snd).flatten else [] := by
    simp
  cases l with
  | send inLoopThread message w =>
    show HasReason (e.send inLoopThread message w) ∧
      (e.send inLoopThread message w).outputStream = _
    unfold Endpoint.send
    by_cases hconnected : e.state_ = .kConnected
    · let noted : Endpoint := { e with sent := e.sent ++ [message] }
      have hnoted : HasReason noted := h
      cases inLoopThread with
      | true =>
        obtain ⟨hreason, hstream⟩ := stream_sendInLoop hnoted message w
        simp only [sends, if_pos hconnected, if_true]
        refine ⟨hreason, hstream.trans ?_⟩
        show e.outputStream ++ (if e.Idle then message else []) = _
        simp
      | false =>
        simp only [sends, if_pos hconnected, Bool.false_eq_true, if_false]
        exact ⟨h, hnothing⟩
    · rw [if_neg hconnected]
      refine ⟨h, ?_⟩
      cases inLoopThread with
      | true =>
        rw [sends, if_neg hconnected]
        exact hnothing
      | false => exact hnothing
  | shutdown inLoopThread =>
    show HasReason (e.shutdown inLoopThread) ∧ (e.shutdown inLoopThread).outputStream = _
    unfold Endpoint.shutdown
    split
    · have hleaving : HasReason (e.setState .kDisconnecting) := h
      cases inLoopThread with
      | true =>
        obtain ⟨hreason, hstream⟩ := stream_shutdownInLoop hleaving
        exact ⟨hreason, hstream.trans hnothing⟩
      | false => exact ⟨h, hnothing⟩
    · exact ⟨h, hnothing⟩
  | handleRead r =>
    cases r with
    | data bs => exact ⟨h, hnothing⟩
    | eof => exact ⟨stream_handleClose.1, stream_handleClose.2.trans hnothing⟩
    | error => exact ⟨h, hnothing⟩
  | handleWrite w =>
    obtain ⟨hreason, hstream⟩ := stream_handleWrite h w
    exact ⟨hreason, hstream.trans hnothing⟩
  | handleClose => exact ⟨stream_handleClose.1, stream_handleClose.2.trans hnothing⟩
  | doPendingFunctor w => exact stream_doPendingFunctor h w
  | connectionDestroyed =>
    obtain ⟨hreason, hstream⟩ := stream_connectionDestroyed h
    exact ⟨hreason, hstream.trans hnothing⟩

/-! ## Messages and bytes under every step -/

/-- Functors that are not messages. -/
theorem filterMap_writeComplete {fs : List ConnFunctor} (h : ∀ f ∈ fs, f = .writeComplete) :
    (fs.filterMap fun
      | .sendInLoop message => some ((false, message) : Message)
      | .shutdownInLoop | .writeComplete => none) = [] := by
  rw [List.filterMap_eq_nil_iff]
  intro f hf
  rw [h f hf]

/-- What calls the kernel only queues no message. -/
theorem queued_sameLife {e' : Endpoint} (h : Endpoint.SameLife e e') : queued e' = queued e := by
  obtain ⟨extra, hextra, hqueue⟩ := h.queued
  rw [queued, queued, hqueue, List.filterMap_append, filterMap_writeComplete hextra,
    List.append_nil]

/-- A functor goes to the end of the queue. -/
theorem queued_queueInLoop (e : Endpoint) (f : ConnFunctor) : queued (e.queueInLoop f) =
    queued e ++ match f with
      | .sendInLoop message => [(false, message)]
      | .shutdownInLoop | .writeComplete => [] := by
  rw [queued, queued, Endpoint.queueInLoop, List.filterMap_append]
  cases f with
  | sendInLoop message => rfl
  | shutdownInLoop => rfl
  | writeComplete => rfl

/-- `sendInLoop` only calls the kernel. -/
theorem queued_sendInLoop (e : Endpoint) (message : Bytes) (w : WriteResult) :
    queued (e.sendInLoop message w) = queued e :=
  queued_sameLife (Endpoint.sameLife_sendInLoop e message w)

theorem queued_shutdownInLoop (e : Endpoint) : queued e.shutdownInLoop = queued e :=
  queued_sameLife (Endpoint.sameLife_shutdownInLoop e)

theorem queued_shutdown (e : Endpoint) (inLoopThread : Bool) :
    queued (e.shutdown inLoopThread) = queued e := by
  unfold Endpoint.shutdown
  split
  · cases inLoopThread with
    | true => exact queued_shutdownInLoop (e.setState .kDisconnecting)
    | false => exact (queued_queueInLoop e .shutdownInLoop).trans (List.append_nil _)
  · rfl

/-- The first functor is a message for `sendInLoop`, or no message leaves
    the queue. -/
theorem messages_doPendingFunctor (e : Endpoint) (w : WriteResult) :
    (∃ m, sends e (.doPendingFunctor w) = [(false, m)] ∧
      queued e = (false, m) :: queued (e.doPendingFunctor w)) ∨
    (sends e (.doPendingFunctor w) = [] ∧ queued (e.doPendingFunctor w) = queued e) := by
  cases hqueue : e.pendingFunctors_ with
  | nil =>
    right
    rw [Endpoint.doPendingFunctor, sends, hqueue]
    exact ⟨rfl, rfl⟩
  | cons f fs =>
    let rest : Endpoint := { e with pendingFunctors_ := fs }
    rw [Endpoint.doPendingFunctor, sends, hqueue]
    cases f with
    | sendInLoop message =>
      have hqueued : queued e = (false, message) :: queued rest := by
        rw [queued, hqueue]
        rfl
      have hsame : queued (rest.sendInLoop message w) = queued rest :=
        queued_sendInLoop rest message w
      exact .inl ⟨message, rfl, hqueued.trans (congrArg (List.cons _) hsame.symm)⟩
    | shutdownInLoop =>
      have hqueued : queued e = queued rest := by
        rw [queued, hqueue]
        rfl
      exact .inr ⟨rfl, (queued_shutdownInLoop rest).trans hqueued.symm⟩
    | writeComplete =>
      refine .inr ⟨rfl, ?_⟩
      rw [queued, queued, hqueue]
      rfl

/-- **Step**: a message of the loop's thread goes to `sendInLoop` at once,
    one of another thread is queued, the first in the queue goes to
    `sendInLoop`, or no message moves. -/
theorem messages_step (e : Endpoint) (l : ConnStep) :
    (∃ m, gives e l = [(true, m)] ∧ sends e l = [(true, m)] ∧ queued (e.step l) = queued e) ∨
    (∃ m, gives e l = [(false, m)] ∧ sends e l = [] ∧
      queued (e.step l) = queued e ++ [(false, m)]) ∨
    (∃ m, gives e l = [] ∧ sends e l = [(false, m)] ∧
      queued e = (false, m) :: queued (e.step l)) ∨
    (gives e l = [] ∧ sends e l = [] ∧ queued (e.step l) = queued e) := by
  cases l with
  | send inLoopThread message w =>
    by_cases hconnected : e.state_ = .kConnected
    · cases inLoopThread with
      | true =>
        refine .inl ⟨message, if_pos hconnected, if_pos hconnected, ?_⟩
        show queued (e.send true message w) = _
        rw [Endpoint.send, if_pos hconnected]
        exact queued_sendInLoop { e with sent := e.sent ++ [message] } message w
      | false =>
        refine .inr (.inl ⟨message, if_pos hconnected, rfl, ?_⟩)
        show queued (e.send false message w) = _
        rw [Endpoint.send, if_pos hconnected]
        exact queued_queueInLoop e (.sendInLoop message)
    · -- the send is ignored
      refine .inr (.inr (.inr ⟨if_neg hconnected, ?_, ?_⟩))
      · cases inLoopThread with
        | true => exact if_neg hconnected
        | false => rfl
      · show queued (e.send inLoopThread message w) = _
        rw [Endpoint.send, if_neg hconnected]
  | shutdown inLoopThread => exact .inr (.inr (.inr ⟨rfl, rfl, queued_shutdown e inLoopThread⟩))
  | handleRead r =>
    refine .inr (.inr (.inr ⟨rfl, rfl, ?_⟩))
    cases r with
    | data bs => rfl
    | eof => rfl
    | error => rfl
  | handleWrite w =>
    exact .inr (.inr (.inr ⟨rfl, rfl, queued_sameLife (Endpoint.sameLife_handleWrite e w)⟩))
  | handleClose => exact .inr (.inr (.inr ⟨rfl, rfl, rfl⟩))
  | doPendingFunctor w =>
    rcases messages_doPendingFunctor e w with ⟨m, hsends, hqueued⟩ | ⟨hsends, hqueued⟩
    · exact .inr (.inr (.inl ⟨m, rfl, hsends, hqueued⟩))
    · exact .inr (.inr (.inr ⟨rfl, hsends, hqueued⟩))
  | connectionDestroyed =>
    refine .inr (.inr (.inr ⟨rfl, rfl, ?_⟩))
    show (e.connectionDestroyed.pendingFunctors_).filterMap _ = _
    rw [Endpoint.pendingFunctors_connectionDestroyed]
    rfl

/-- **Step**: what is read goes to the end of `inputBuffer_`. -/
theorem input_step (e : Endpoint) (l : ConnStep) :
    (e.step l).inputBuffer_.toString = e.inputBuffer_.toString ++ reads l := by
  -- most steps read nothing
  have hnothing : ∀ e' : Endpoint, e'.inputBuffer_ = e.inputBuffer_ →
      e'.inputBuffer_.toString = e.inputBuffer_.toString ++ [] := by
    intro e' h
    rw [h, List.append_nil]
  cases l with
  | send inLoopThread message w =>
    apply hnothing
    show (e.send inLoopThread message w).inputBuffer_ = _
    unfold Endpoint.send
    split
    · cases inLoopThread with
      | true => exact (Endpoint.sameLife_sendInLoop _ message w).inputBuffer_
      | false => rfl
    · rfl
  | shutdown inLoopThread =>
    apply hnothing
    show (e.shutdown inLoopThread).inputBuffer_ = _
    unfold Endpoint.shutdown
    split
    · cases inLoopThread with
      | true => exact (Endpoint.sameLife_shutdownInLoop _).inputBuffer_
      | false => rfl
    · rfl
  | handleRead r =>
    cases r with
    | data bs => exact Buffer.toString_append _ _
    | eof => exact hnothing _ rfl
    | error => exact hnothing _ rfl
  | handleWrite w => exact hnothing _ (Endpoint.sameLife_handleWrite e w).inputBuffer_
  | handleClose => exact hnothing _ rfl
  | doPendingFunctor w =>
    apply hnothing
    show (e.doPendingFunctor w).inputBuffer_ = _
    unfold Endpoint.doPendingFunctor
    split
    · rfl
    · exact (Endpoint.sameLife_runFunctor _ _ w).inputBuffer_
  | connectionDestroyed =>
    apply hnothing
    show e.connectionDestroyed.inputBuffer_ = _
    unfold Endpoint.connectionDestroyed
    split
    · rfl
    · rfl

/-! ## The books -/

/-- What a step adds to the messages taken. -/
theorem taken_conn (s : Side) (l : ConnStep) : (s.next (.conn l)).taken =
    s.taken ++ if s.conn.Idle then sends s.conn l else [] := by
  show (if s.conn.Idle then s.taken ++ sends s.conn l else s.taken) = _
  split
  · rfl
  · rw [List.append_nil]

/-- **Step**: no message overtakes another one of its kind. -/
theorem order_conn (h : s.Keeps) (l : ConnStep) :
    ((s.next (.conn l)).taken.filter (·.1)).Sublist ((s.next (.conn l)).given.filter (·.1)) ∧
      ((s.next (.conn l)).taken.filter (!·.1) ++ queued (s.next (.conn l)).conn).Sublist
        ((s.next (.conn l)).given.filter (!·.1)) := by
  have hgiven : (s.next (.conn l)).given = s.given ++ gives s.conn l := rfl
  have hconn : (s.next (.conn l)).conn = s.conn.step l := rfl
  have hloop := h.fromLoop
  have hothers := h.fromOthers
  rw [taken_conn, hgiven, hconn, List.filter_append, List.filter_append, List.filter_append,
    List.filter_append]
  rcases messages_step s.conn l with ⟨m, hgives, hsends, hqueue⟩ | ⟨m, hgives, hsends, hqueue⟩ |
    ⟨m, hgives, hsends, hqueue⟩ | ⟨hgives, hsends, hqueue⟩
  · -- given and taken, or given and lost
    rw [hgives, hsends, hqueue]
    split
    · exact ⟨hloop.append (List.Sublist.refl _), by simpa using hothers⟩
    · refine ⟨?_, by simpa using hothers⟩
      rw [List.filter_nil, List.append_nil]
      exact hloop.trans (List.sublist_append_left _ _)
  · -- given and queued
    rw [hgives, hsends, hqueue, ite_self]
    refine ⟨by simpa using hloop, ?_⟩
    rw [List.filter_nil, List.append_nil, ← List.append_assoc]
    exact hothers.append (List.Sublist.refl _)
  · -- taken from the queue, or lost from there
    rw [hgives, hsends]
    rw [hqueue] at hothers
    split
    · exact ⟨by simpa using hloop, by simpa using hothers⟩
    · refine ⟨by simpa using hloop, ?_⟩
      have hdrop : (s.taken.filter (!·.1) ++ queued (s.conn.step l)).Sublist
          (s.taken.filter (!·.1) ++ (false, m) :: queued (s.conn.step l)) :=
        (List.Sublist.refl _).append (List.sublist_cons_self _ _)
      simpa using hdrop.trans hothers
  · rw [hgives, hsends, hqueue, ite_self]
    exact ⟨by simpa using hloop, by simpa using hothers⟩

theorem keeps_conn (h : s.Keeps) (l : ConnStep) : (s.next (.conn l)).Keeps := by
  obtain ⟨hreason, hstream⟩ := stream_step h.writing l
  obtain ⟨hloop, hothers⟩ := order_conn h l
  refine ⟨?_, hreason, ?_, hloop, hothers⟩
  · show (s.conn.step l).outputStream = ((s.next (.conn l)).taken.map Prod.snd).flatten
    rw [hstream, h.stream, taken_conn, List.map_append, List.flatten_append]
    split
    · rfl
    · rfl
  · show s.retrieved ++ (s.conn.step l).inputBuffer_.toString = s.received ++ reads l
    rw [input_step, ← List.append_assoc, h.buffered]

theorem keeps_retrieve (h : s.Keeps) (len : Nat) : (s.next (.retrieve len)).Keeps where
  stream := h.stream
  writing := h.writing
  buffered := by
    show (s.retrieved ++ s.conn.inputBuffer_.toString.take len) ++
      (s.conn.inputBuffer_.retrieve len).toString = s.received
    rw [Buffer.toString_retrieve, List.append_assoc, List.take_append_drop]
    exact h.buffered
  fromLoop := h.fromLoop
  fromOthers := h.fromOthers

theorem keeps_next (h : s.Keeps) (l : SideStep) : (s.next l).Keeps := by
  cases l with
  | conn l => exact keeps_conn h l
  | retrieve len => exact keeps_retrieve h len

/-- No message is taken that was not given. -/
theorem Keeps.length_le (h : s.Keeps) :
    s.taken.length + (queued s.conn).length ≤ s.given.length := by
  have hloop := h.fromLoop.length_le
  have hothers := h.fromOthers.length_le
  rw [List.length_append] at hothers
  rw [List.length_eq_length_filter_add (·.1) (l := s.taken),
    List.length_eq_length_filter_add (·.1) (l := s.given)]
  omega

/-- **Step**: a message is lost when `sendInLoop` finds the connection
    busy, and then for good. -/
theorem complete_conn (h : s.Keeps) (l : ConnStep) :
    (s.next (.conn l)).Complete ↔ s.Complete ∧ (sends s.conn l = [] ∨ s.conn.Idle) := by
  have hle := h.length_le
  have hgiven : (s.next (.conn l)).given = s.given ++ gives s.conn l := rfl
  have hconn : (s.next (.conn l)).conn = s.conn.step l := rfl
  rw [Complete, Complete, taken_conn, hgiven, hconn, List.length_append, List.length_append]
  rcases messages_step s.conn l with ⟨m, hgives, hsends, hqueue⟩ | ⟨m, hgives, hsends, hqueue⟩ |
    ⟨m, hgives, hsends, hqueue⟩ | ⟨hgives, hsends, hqueue⟩
  · rw [hgives, hsends, hqueue]
    by_cases hidle : s.conn.Idle
    · simp [hidle]
      omega
    · simp [hidle]
      omega
  · rw [hgives, hsends, hqueue, ite_self, List.length_append]
    simp
    omega
  · -- taken from the queue: the counts agree if it is not lost
    rw [hqueue, List.length_cons] at hle ⊢
    rw [hgives, hsends]
    by_cases hidle : s.conn.Idle
    · simp [hidle]
      omega
    · simp [hidle]
      omega
  · rw [hgives, hsends, hqueue, ite_self]
    simp

theorem complete_next (h : s.Keeps) (l : SideStep) :
    (s.next l).Complete ↔ s.Complete ∧ s.FindsIdle l := by
  cases l with
  | conn l => exact complete_conn h l
  | retrieve len => exact ⟨fun hc => ⟨hc, trivial⟩, And.left⟩

/-! ## Both ends -/

/-- A connection whose `connectionEstablished` has just run. -/
def Established (e : Endpoint) : Prop :=
  ∃ name loop self fd writeComplete epoll,
    e = Endpoint.established name loop self fd writeComplete epoll

theorem keeps_new (h : Established e) : (new e).Keeps := by
  obtain ⟨name, loop, self, fd, writeComplete, epoll, rfl⟩ := h
  have hsending := Endpoint.sending_established name loop self fd writeComplete epoll
  refine ⟨?_, hsending.writing.mp, ?_, List.Sublist.refl _, List.Sublist.refl _⟩
  · exact List.eq_nil_of_length_eq_zero (Nat.le_zero.mp hsending.length_le)
  · exact Buffer.toString_new

/-- What was written stays written. -/
theorem written_next (s : Side) (l : SideStep) :
    written s.conn.calls <+: written (s.next l).conn.calls := by
  cases l with
  | conn l =>
    obtain ⟨more, hmore⟩ := Endpoint.calls_step s.conn l
    show written s.conn.calls <+: written (s.conn.step l).calls
    rw [← hmore, Endpoint.written_append]
    exact List.prefix_append _ _
  | retrieve len => exact List.prefix_rfl

/-- What is read next was written. -/
theorem received_next (h : y.received <+: written x.conn.calls) (l : SideStep)
    (hread : x.MayRead y l) : (y.next l).received <+: written x.conn.calls := by
  have hnothing : y.received ++ [] <+: written x.conn.calls := by
    rw [List.append_nil]
    exact h
  cases l with
  | conn l =>
    cases l with
    | handleRead r =>
      cases r with
      | data bs => exact hread
      | eof => exact hnothing
      | error => exact hnothing
    | send | shutdown | handleWrite | handleClose | doPendingFunctor | connectionDestroyed =>
      exact hnothing
  | retrieve len => exact h

end Side

namespace Duplex

def new (a b : Endpoint) : Duplex := ⟨Side.new a, Side.new b⟩

/-- Whatever `sendInLoop` is called with finds its connection idle. -/
def FindsIdle (d : Duplex) : DuplexStep → Prop
  | .left l => d.left.FindsIdle l
  | .right l => d.right.FindsIdle l

instance (d : Duplex) : DecidablePred d.FindsIdle
  | .left l => inferInstanceAs (Decidable (d.left.FindsIdle l))
  | .right l => inferInstanceAs (Decidable (d.right.FindsIdle l))

/-- The books of both sides, and what they have read. -/
structure Sound (d : Duplex) : Prop where
  left : d.left.Keeps
  right : d.right.Keeps
  readsLeft : d.left.received <+: written d.right.conn.calls
  readsRight : d.right.received <+: written d.left.conn.calls

variable {d : Duplex} {a b : Endpoint}

theorem sound_new (ha : Side.Established a) (hb : Side.Established b) : (new a b).Sound where
  left := Side.keeps_new ha
  right := Side.keeps_new hb
  readsLeft := List.nil_prefix
  readsRight := List.nil_prefix

theorem sound_next (h : d.Sound) (l : DuplexStep) (hguard : duplex.guard d l) :
    (duplex.next d l).Sound := by
  cases l with
  | left l =>
    exact ⟨Side.keeps_next h.left l, h.right, Side.received_next h.readsLeft l hguard,
      h.readsRight.trans (Side.written_next d.left l)⟩
  | right l =>
    exact ⟨h.left, Side.keeps_next h.right l, h.readsLeft.trans (Side.written_next d.right l),
      Side.received_next h.readsRight l hguard⟩

/-- What the books say about the bytes between the two sides. -/
theorem Sound.carries (h : d.Sound) : d.left.Carries d.right ∧ d.right.Carries d.left :=
  ⟨⟨h.readsRight, h.right.buffered, h.left.stream, h.left.fromLoop, h.left.fromOthers⟩,
    ⟨h.readsLeft, h.left.buffered, h.right.stream, h.right.fromLoop, h.right.fromOthers⟩⟩

theorem complete_next (h : d.Sound) (l : DuplexStep) :
    ((duplex.next d l).left.Complete ∧ (duplex.next d l).right.Complete) ↔
      (d.left.Complete ∧ d.right.Complete) ∧ d.FindsIdle l := by
  cases l with
  | left l =>
    have hside : (d.left.next l).Complete ↔ d.left.Complete ∧ d.left.FindsIdle l :=
      Side.complete_next h.left l
    show (d.left.next l).Complete ∧ d.right.Complete ↔ _ ∧ d.left.FindsIdle l
    rw [hside]
    exact ⟨fun ⟨⟨hl, hi⟩, hr⟩ => ⟨⟨hl, hr⟩, hi⟩, fun ⟨⟨hl, hr⟩, hi⟩ => ⟨⟨hl, hi⟩, hr⟩⟩
  | right l =>
    have hside : (d.right.next l).Complete ↔ d.right.Complete ∧ d.right.FindsIdle l :=
      Side.complete_next h.right l
    show d.left.Complete ∧ (d.right.next l).Complete ↔ _ ∧ d.right.FindsIdle l
    rw [hside, and_assoc]

/-- **Both ends**: over every run of two connections and the network
    between them, with any cuts, sends from any threads, shutdowns, closes
    and destructions: what one side has read is a part, in front, of what
    the other has written; that is made of whole messages; and the loop's
    messages are in order, and the other threads'.  Messages are missing if
    and only if `sendInLoop` found a connection busy. -/
theorem duplex_run (ha : Side.Established a) (hb : Side.Established b) {ls : List DuplexStep}
    (hls : duplex.Valid (new a b) ls) :
    let d := duplex.run (new a b) ls
    d.left.Carries d.right ∧ d.right.Carries d.left ∧
      (d.left.Complete ∧ d.right.Complete ↔ duplex.Along FindsIdle (new a b) ls) := by
  intro d
  have h : d.Sound :=
    duplex.invariant_run Sound (fun _ l h hguard => sound_next h l hguard) (sound_new ha hb) hls
  refine ⟨h.carries.1, h.carries.2, ?_⟩
  refine duplex.run_iff_along Sound (fun d => d.left.Complete ∧ d.right.Complete) ?_ ?_ ?_
    (sound_new ha hb) hls ?_
  · exact fun _ l h hguard => sound_next h l hguard
  · intro d l h _ hcomplete
    exact (complete_next h l).trans ⟨And.right, fun hidle => ⟨hcomplete, hidle⟩⟩
  · exact fun _ l h _ hmissing hcomplete => hmissing ((complete_next h l).mp hcomplete).1
  · obtain ⟨name, loop, self, fd, writeComplete, epoll, rfl⟩ := ha
    obtain ⟨name', loop', self', fd', writeComplete', epoll', rfl⟩ := hb
    exact ⟨rfl, rfl⟩

/-- A client and a server. -/
def client : Endpoint := Endpoint.established "client" 0 0 5 false Epoll.new

def server : Endpoint := Endpoint.established "server" 0 0 5 false Epoll.new

/-- Another thread's message is written in two parts, and what the loop
    sends between them is lost. -/
def exchange : List DuplexStep :=
  [.left (.conn (.send false [1, 2] (.wrote 0))), .left (.conn (.doPendingFunctor (.wrote 1))),
    .right (.conn (.handleRead (.data [1]))), .left (.conn (.send true [3] (.wrote 1))),
    .left (.conn (.handleWrite (.wrote 9))), .right (.retrieve 1),
    .right (.conn (.handleRead (.data [2])))]

theorem valid_exchange : duplex.Valid (new client server) exchange := by
  decide +kernel

theorem duplex_run_exchange :
    let d := duplex.run (new client server) exchange
    d.right.received = [1, 2] ∧ d.left.Carries d.right ∧
      ¬ duplex.Along FindsIdle (new client server) exchange := by
  intro d
  have hrun := duplex_run ⟨_, _, _, _, _, _, rfl⟩ ⟨_, _, _, _, _, _, rfl⟩ valid_exchange
  exact ⟨by decide +kernel, hrun.1, by decide +kernel⟩

end Duplex

end TinyWS
