import TinyWS.Net.Poll

/-! # The Accept Queue

    The kernel completes connections on its own and queues them.  The
    listening channel is ready as long as one is queued, and
    `Acceptor::hadleRead` takes one at each event.

    So a queue of clients empties by one a poll, apart from the few polls
    of a run that leave the listening channel out.  `accept4` can fail, and
    the client stays or is lost; when the process has no descriptor left it
    fails and the client stays, and every poll comes back at once for
    nothing. -/

namespace TinyWS

/-- `Acceptor::acceptChannel_`. -/
def acceptChannel_ : ChannelPtr := 0

/-- `savedErrno`, as far as `Socket::accept` tells the numbers apart.  It
    writes different texts and returns -1 for all of them. -/
inductive AcceptErrno where
  | EAGAIN
  | ECONNABORTED
  | EINTR
  | EPROTO
  | EPERM
  | EMFILE
  | EBADF
  | EFAULT
  | EINVAL
  | ENFILE
  | ENOBUFS
  | ENOMEM
  | ENOTSOCK
  | EOPNOTSUPP
  | unknown
  deriving DecidableEq, Repr

/-- What `accept4` answers. -/
inductive AcceptAnswer where
  | connection
  /-- It fails.  A client that had reset its connection, say, is lost with
      the error; otherwise the queue stays as it is. -/
  | failure (savedErrno : AcceptErrno) (lost : Bool)
  deriving DecidableEq, Repr

/-- A loop with a listening socket.  Clients are numbered as they connect.
    The last two fields are histories. -/
structure AcceptQueue where
  poller : Poller
  /-- The clients in the queue of the kernel. -/
  backlog : List Nat
  /-- How many descriptors the process may still open. -/
  room : Nat
  /-- The event for the listening channel has still to be handled. -/
  pending : Bool
  /-- The clients that have left the queue, and whether they were given to
      `newConnectionCallback_`. -/
  gone : List (Nat × Bool)
  /-- How `accept4` has failed, and whether a client was lost. -/
  errors : List (AcceptErrno × Bool)

inductive AcceptStep where
  /-- The kernel completes a connection. -/
  | connect
  | poll
  /-- The handler of the listening channel. -/
  | hadleRead (answer : AcceptAnswer)
  /-- Another channel of the loop becomes ready, or ceases to be. -/
  | become (c : ChannelPtr) (events : BitVec 32)
  | cease (c : ChannelPtr)
  /-- The process opens a file, or closes one. -/
  | openFile
  | closeFile
  deriving DecidableEq, Repr

namespace AcceptQueue

/-! ## The model -/

def new (room : Nat) : AcceptQueue where
  poller := Poller.new
  backlog := []
  room := room
  pending := false
  gone := []
  errors := []

/-- The clients given to `newConnectionCallback_`. -/
def accepted (s : AcceptQueue) : List Nat := (s.gone.filter Prod.snd).map Prod.fst

def connect (s : AcceptQueue) : AcceptQueue :=
  { s with
    poller := s.poller.become acceptChannel_ 1
    backlog := s.backlog ++ [s.gone.length + s.backlog.length] }

def poll (s : AcceptQueue) : AcceptQueue :=
  { s with
    poller := s.poller.turn
    pending := acceptChannel_ ∈ s.poller.turn.activeChannels_ }

/-- The client in front leaves the queue. -/
def leave (s : AcceptQueue) (taken : Bool) : AcceptQueue :=
  match s.backlog with
  | [] => s
  | client :: backlog =>
      { s with
        poller := if backlog = [] then s.poller.cease acceptChannel_ else s.poller
        backlog := backlog
        gone := s.gone ++ [(client, taken)] }

/-- `Acceptor::hadleRead`, with the `Socket::accept` in it.  After an error
    it does nothing. -/
def hadleRead (s : AcceptQueue) : AcceptAnswer → AcceptQueue
  | .connection => { s.leave true with room := s.room - 1, pending := false }
  | .failure savedErrno lost =>
      { (if lost then s.leave false else s) with
        pending := false
        errors := s.errors ++ [(savedErrno, lost)] }

/-- The answers the kernel can give: `EAGAIN` for an empty queue, and
    `EMFILE` when the process has no descriptor left. -/
def Answers (s : AcceptQueue) : AcceptAnswer → Prop
  | .connection => s.backlog ≠ [] ∧ 0 < s.room
  | .failure .EAGAIN lost => s.backlog = [] ∧ lost = false
  | .failure .EMFILE lost => s.room = 0 ∧ lost = false
  | .failure _ lost => lost = true → s.backlog ≠ []

def next (s : AcceptQueue) : AcceptStep → AcceptQueue
  | .connect => s.connect
  | .poll => s.poll
  | .hadleRead answer => s.hadleRead answer
  | .become c events => { s with poller := s.poller.become c events }
  | .cease c => { s with poller := s.poller.cease c }
  | .openFile => { s with room := s.room - 1 }
  | .closeFile => { s with room := s.room + 1 }

/-- The kernel bounds the queue, and a loop handles what it was given
    before it polls again. -/
def guard (limit : Nat) (s : AcceptQueue) : AcceptStep → Prop
  | .connect => s.backlog.length ≤ 128 ∧
      (acceptChannel_ ∈ s.poller.ready ∨ s.poller.ready.length < limit)
  | .poll => s.pending = false
  | .hadleRead answer => s.pending = true ∧ s.Answers answer
  | .become c _ => c ≠ acceptChannel_ ∧ (c ∈ s.poller.ready ∨ s.poller.ready.length < limit)
  | .cease c => c ≠ acceptChannel_
  | .openFile => 0 < s.room
  | .closeFile => True

end AcceptQueue

/-- One loop with its listening socket; no more than `limit` descriptors
    are ready at a time. -/
def acceptQueue (limit : Nat) : Machine AcceptQueue AcceptStep where
  guard := AcceptQueue.guard limit
  next := AcceptQueue.next

namespace AcceptQueue

instance (s : AcceptQueue) : DecidablePred s.Answers
  | .connection => inferInstanceAs (Decidable (s.backlog ≠ [] ∧ 0 < s.room))
  | .failure .EAGAIN lost => inferInstanceAs (Decidable (s.backlog = [] ∧ lost = false))
  | .failure .EMFILE lost => inferInstanceAs (Decidable (s.room = 0 ∧ lost = false))
  | .failure .ECONNABORTED lost | .failure .EINTR lost | .failure .EPROTO lost
  | .failure .EPERM lost | .failure .EBADF lost | .failure .EFAULT lost | .failure .EINVAL lost
  | .failure .ENFILE lost | .failure .ENOBUFS lost | .failure .ENOMEM lost
  | .failure .ENOTSOCK lost | .failure .EOPNOTSUPP lost | .failure .unknown lost =>
      inferInstanceAs (Decidable (lost = true → s.backlog ≠ []))

instance (limit : Nat) (s : AcceptQueue) : (l : AcceptStep) →
    Decidable ((acceptQueue limit).guard s l)
  | .connect => inferInstanceAs (Decidable (s.backlog.length ≤ 128 ∧
      (acceptChannel_ ∈ s.poller.ready ∨ s.poller.ready.length < limit)))
  | .poll => inferInstanceAs (Decidable (s.pending = false))
  | .hadleRead answer => inferInstanceAs (Decidable (s.pending = true ∧ s.Answers answer))
  | .become c _ => inferInstanceAs (Decidable (c ≠ acceptChannel_ ∧
      (c ∈ s.poller.ready ∨ s.poller.ready.length < limit)))
  | .cease c => inferInstanceAs (Decidable (c ≠ acceptChannel_))
  | .openFile => inferInstanceAs (Decidable (0 < s.room))
  | .closeFile => isTrue trivial

/-! ## The specification -/

/-- How many clients have connected. -/
def connected (s : AcceptQueue) : Nat := s.gone.length + s.backlog.length

def polls (ls : List AcceptStep) : Nat := ls.count .poll

/-- How often `accept4` has failed and left the queue as it was. -/
def vain (s : AcceptQueue) : Nat := s.errors.countP fun e => !e.2

/-- The listening channel is ready while clients are queued, they leave in
    the order in which they came, an event for the listening channel has a
    client, and so the queue was never found empty. -/
structure Queued (limit : Nat) (s : AcceptQueue) : Prop where
  rotating : s.poller.Rotating limit
  ready : acceptChannel_ ∈ s.poller.ready ↔ s.backlog ≠ []
  order : s.gone.map Prod.fst ++ s.backlog = List.range s.connected
  pending : s.pending = true → s.backlog ≠ []
  errors : ∀ e ∈ s.errors, e.1 ≠ .EAGAIN

/-- The events for the listening channel that were given to the loop, and
    the polls that left something out. -/
def credit (s : AcceptQueue) : Nat :=
  s.gone.length + s.vain + s.pending.toNat + s.poller.turns.countP (Poller.Partial ·)

variable {s : AcceptQueue} {limit : Nat}

theorem queued_new (limit room : Nat) : (new room).Queued limit where
  rotating := Poller.rotating_new limit
  ready := by
    show acceptChannel_ ∈ ([] : List ChannelPtr) ↔ ([] : List Nat) ≠ []
    simp
  order := rfl
  pending h := Bool.noConfusion h
  errors _ h := nomatch h

/-! ## One step -/

/-- What takes nobody out of the queue keeps the books, as long as the
    listening channel stays as it is. -/
theorem Queued.withPoller (h : s.Queued limit) {t : AcceptQueue}
    (hrotating : t.poller.Rotating limit)
    (hready : acceptChannel_ ∈ t.poller.ready ↔ acceptChannel_ ∈ s.poller.ready)
    (hbacklog : t.backlog = s.backlog) (hgone : t.gone = s.gone)
    (hpending : t.pending = true → s.backlog ≠ []) (herrors : ∀ e ∈ t.errors, e.1 ≠ .EAGAIN) :
    t.Queued limit where
  rotating := hrotating
  ready := by
    rw [hready, hbacklog]
    exact h.ready
  order := by
    rw [connected, hgone, hbacklog]
    exact h.order
  pending hp := by
    rw [hbacklog]
    exact hpending hp
  errors := herrors

/-- Who becomes ready is ready, and so is who was. -/
theorem mem_become (p : Poller) (c d : ChannelPtr) (events : BitVec 32) :
    c ∈ (p.become d events).ready ↔ c = d ∨ c ∈ p.ready := by
  unfold Poller.become
  by_cases hd : d ∈ p.ready
  · simp only [if_pos hd]
    constructor
    · exact Or.inr
    · rintro (rfl | hc)
      · exact hd
      · exact hc
  · simp only [if_neg hd, List.mem_append, List.mem_singleton]
    exact or_comm

/-- Somebody leaves a queue that is not empty. -/
theorem leave_eq (hwaits : s.backlog ≠ []) (taken : Bool) :
    ∃ client backlog, s.backlog = client :: backlog ∧
      s.leave taken =
        { s with
          poller := if backlog = [] then s.poller.cease acceptChannel_ else s.poller
          backlog := backlog
          gone := s.gone ++ [(client, taken)] } := by
  obtain ⟨client, backlog, hbacklog⟩ := List.exists_cons_of_ne_nil hwaits
  exact ⟨client, backlog, hbacklog, by rw [leave, hbacklog]⟩

/-- **Inversion**: an event takes the client in front, loses it with an
    error, or leaves it. -/
theorem hadleRead_cases (h : s.Queued limit) {answer : AcceptAnswer}
    (hguard : s.guard limit (.hadleRead answer)) :
    (answer = .connection ∧ 0 < s.room ∧
        s.hadleRead answer = { s.leave true with room := s.room - 1, pending := false }) ∨
      (∃ savedErrno, savedErrno ≠ .EAGAIN ∧ answer = .failure savedErrno true ∧
        s.hadleRead answer =
          { s.leave false with pending := false, errors := s.errors ++ [(savedErrno, true)] }) ∨
      (∃ savedErrno, savedErrno ≠ .EAGAIN ∧ answer = .failure savedErrno false ∧
        s.hadleRead answer =
          { s with pending := false, errors := s.errors ++ [(savedErrno, false)] }) := by
  obtain ⟨hpending, hanswers⟩ := hguard
  cases answer with
  | connection => exact .inl ⟨rfl, hanswers.2, rfl⟩
  | failure savedErrno lost =>
    -- the queue is not empty
    have hnot : savedErrno ≠ .EAGAIN := by
      rintro rfl
      exact h.pending hpending hanswers.1
    cases lost with
    | true => exact .inr (.inl ⟨savedErrno, hnot, rfl, rfl⟩)
    | false => exact .inr (.inr ⟨savedErrno, hnot, rfl, rfl⟩)

/-- The books when somebody leaves. -/
theorem queued_leave (hlimit : limit < 2 ^ 30) (h : s.Queued limit) (hwaits : s.backlog ≠ [])
    (taken : Bool) (room : Nat) {errors : List (AcceptErrno × Bool)}
    (herrors : ∀ e ∈ errors, e.1 ≠ .EAGAIN) :
    ({ s.leave taken with room := room, pending := false, errors := errors } : AcceptQueue).Queued
      limit := by
  obtain ⟨client, backlog, hbacklog, hleave⟩ := leave_eq hwaits taken
  have horder := h.order
  have hready := h.ready
  rw [connected, hbacklog] at horder
  rw [hbacklog] at hready
  rw [hleave]
  refine ⟨?_, ?_, ?_, fun hp => Bool.noConfusion hp, herrors⟩
  · show (if backlog = [] then s.poller.cease acceptChannel_ else s.poller).Rotating limit
    split
    · exact Poller.rotating_next hlimit h.rotating (.cease acceptChannel_) trivial
    · exact h.rotating
  · -- the channel ceases to be ready with the last client
    show acceptChannel_ ∈ (if backlog = [] then s.poller.cease acceptChannel_
      else s.poller).ready ↔ backlog ≠ []
    split
    · next hempty =>
      refine ⟨fun hmem => ?_, fun hne => absurd hempty hne⟩
      exact absurd hmem h.rotating.nodup.not_mem_erase
    · next hmore => exact ⟨fun _ => hmore, fun _ => hready.mpr (List.cons_ne_nil _ _)⟩
  · -- the client moves from the queue to the end of `gone`
    show (s.gone ++ [(client, taken)]).map Prod.fst ++ backlog = List.range _
    rw [List.map_append, List.append_assoc, List.map_singleton, List.singleton_append, horder,
      connected]
    congr 1
    simp only [List.length_append, List.length_cons, List.length_nil]
    omega

/-- One more error. -/
theorem Queued.errors_append (h : s.Queued limit) {savedErrno : AcceptErrno}
    (hnot : savedErrno ≠ .EAGAIN) (lost : Bool) :
    ∀ e ∈ s.errors ++ [(savedErrno, lost)], e.1 ≠ .EAGAIN := by
  intro e he
  rcases List.mem_append.mp he with he | he
  · exact h.errors e he
  · rw [List.mem_singleton] at he
    rw [he]
    exact hnot

theorem queued_hadleRead (hlimit : limit < 2 ^ 30) (h : s.Queued limit) {answer : AcceptAnswer}
    (hguard : s.guard limit (.hadleRead answer)) : (s.hadleRead answer).Queued limit := by
  have hwaits := h.pending hguard.1
  rcases hadleRead_cases h hguard with ⟨-, -, hread⟩ | ⟨savedErrno, hnot, -, hread⟩ |
    ⟨savedErrno, hnot, -, hread⟩
  · have herrors : (s.leave true).errors = s.errors := by
      obtain ⟨_, _, -, hleave⟩ := leave_eq hwaits true
      rw [hleave]
    have hkept : ∀ e ∈ (s.leave true).errors, e.1 ≠ .EAGAIN := herrors ▸ h.errors
    rw [hread]
    exact queued_leave hlimit h hwaits true (s.room - 1) hkept
  · rw [hread]
    exact queued_leave hlimit h hwaits false (s.leave false).room (h.errors_append hnot true)
  · rw [hread]
    exact h.withPoller h.rotating Iff.rfl rfl rfl (fun hp => Bool.noConfusion hp)
      (h.errors_append hnot false)

theorem queued_connect (hlimit : limit < 2 ^ 30) (h : s.Queued limit)
    (hguard : s.guard limit .connect) : s.connect.Queued limit where
  rotating := Poller.rotating_next hlimit h.rotating (.become acceptChannel_ 1) hguard.2
  ready := by
    constructor
    · intro _
      exact List.append_ne_nil_of_right_ne_nil _ (List.cons_ne_nil _ _)
    · intro _
      exact (mem_become s.poller acceptChannel_ acceptChannel_ 1).mpr (.inl rfl)
  order := by
    have hconnected : s.connect.connected = s.connected + 1 := by
      show s.gone.length + (s.backlog ++ [_]).length = _
      rw [List.length_append, List.length_singleton]
      rfl
    rw [hconnected, List.range_succ, ← h.order]
    exact (List.append_assoc ..).symm
  pending _ := List.append_ne_nil_of_right_ne_nil _ (List.cons_ne_nil _ _)
  errors := h.errors

theorem queued_poll (hlimit : limit < 2 ^ 30) (h : s.Queued limit) : s.poll.Queued limit := by
  obtain ⟨hactive, -, hready, -, -⟩ :=
    Poller.turns_turn h.rotating.pos (h.rotating.int hlimit)
  refine h.withPoller (t := s.poll) (Poller.rotating_turn hlimit h.rotating) ?_ rfl rfl ?_
    h.errors
  · show acceptChannel_ ∈ s.poller.turn.ready ↔ _
    rw [hready, List.mem_rotate]
  · intro hp
    have hmem : acceptChannel_ ∈ s.poller.turn.activeChannels_ := of_decide_eq_true hp
    rw [hactive] at hmem
    exact h.ready.mp (List.mem_of_mem_take hmem)

/-- **Step**: the books are kept. -/
theorem queued_next (hlimit : limit < 2 ^ 30) (h : s.Queued limit) (l : AcceptStep)
    (hguard : (acceptQueue limit).guard s l) : (s.next l).Queued limit := by
  cases l with
  | connect => exact queued_connect hlimit h hguard
  | poll => exact queued_poll hlimit h
  | hadleRead answer => exact queued_hadleRead hlimit h hguard
  | become c events =>
    have hrotating := Poller.rotating_next hlimit h.rotating (.become c events) hguard.2
    refine h.withPoller (t := s.next (.become c events)) hrotating ?_ rfl rfl h.pending
      h.errors
    refine (mem_become s.poller acceptChannel_ c events).trans ⟨?_, Or.inr⟩
    rintro (heq | hmem)
    · exact absurd heq.symm hguard.1
    · exact hmem
  | cease c =>
    have hrotating := Poller.rotating_next hlimit h.rotating (.cease c) trivial
    refine h.withPoller (t := s.next (.cease c)) hrotating ?_ rfl rfl h.pending
      h.errors
    exact List.mem_erase_of_ne (Ne.symm hguard)
  | openFile => exact h.withPoller h.rotating Iff.rfl rfl rfl h.pending h.errors
  | closeFile => exact h.withPoller h.rotating Iff.rfl rfl rfl h.pending h.errors

/-! ## Whole runs -/

theorem queued_run (hlimit : limit < 2 ^ 30) (h : s.Queued limit) {ks : List AcceptStep}
    (hks : (acceptQueue limit).Valid s ks) : ((acceptQueue limit).run s ks).Queued limit :=
  (acceptQueue limit).invariant_run (Queued limit)
    (fun _ l h hguard => queued_next hlimit h l hguard) h hks

theorem gone_leave (hwaits : s.backlog ≠ []) (taken : Bool) :
    s.gone <+: (s.leave taken).gone ∧ (s.leave taken).connected = s.connected := by
  obtain ⟨client, backlog, hbacklog, hleave⟩ := leave_eq hwaits taken
  rw [hleave, connected, connected, hbacklog]
  refine ⟨List.prefix_append _ _, ?_⟩
  simp only [List.length_append, List.length_cons, List.length_nil]
  omega

/-- Nobody comes back. -/
theorem gone_next (h : s.Queued limit) (l : AcceptStep)
    (hguard : (acceptQueue limit).guard s l) :
    s.gone <+: (s.next l).gone ∧ s.connected ≤ (s.next l).connected := by
  cases l with
  | connect =>
    refine ⟨List.prefix_rfl, ?_⟩
    show s.gone.length + s.backlog.length ≤ s.gone.length + (s.backlog ++ [_]).length
    rw [List.length_append]
    omega
  | hadleRead answer =>
    have hwaits := h.pending hguard.1
    show s.gone <+: (s.hadleRead answer).gone ∧ s.connected ≤ (s.hadleRead answer).connected
    rcases hadleRead_cases h hguard with ⟨-, -, hread⟩ | ⟨savedErrno, -, -, hread⟩ |
      ⟨savedErrno, -, -, hread⟩
    · rw [hread]
      exact ⟨(gone_leave hwaits true).1, Nat.le_of_eq (gone_leave hwaits true).2.symm⟩
    · rw [hread]
      exact ⟨(gone_leave hwaits false).1, Nat.le_of_eq (gone_leave hwaits false).2.symm⟩
    · rw [hread]
      exact ⟨List.prefix_rfl, Nat.le_refl _⟩
  | poll | become | cease | openFile | closeFile => exact ⟨List.prefix_rfl, Nat.le_refl _⟩

theorem gone_run (hlimit : limit < 2 ^ 30) : ∀ {s : AcceptQueue} {ks : List AcceptStep},
    s.Queued limit → (acceptQueue limit).Valid s ks →
      s.gone <+: ((acceptQueue limit).run s ks).gone := by
  intro s ks
  induction ks generalizing s with
  | nil => exact fun _ _ => List.prefix_rfl
  | cons l ks ih =>
    intro h hks
    have hnext := queued_next hlimit h l hks.1
    exact (gone_next h l hks.1).1.trans (ih (s := s.next l) hnext hks.2)

/-- Who leaves pays for the event that brought it. -/
theorem credit_leave (hwaits : s.backlog ≠ []) (taken : Bool) (room : Nat)
    {errors : List (AcceptErrno × Bool)} (herrors : errors.countP (fun e => !e.2) = s.vain)
    (hpending : s.pending = true) :
    s.credit ≤ ({ s.leave taken with
      room := room
      pending := false
      errors := errors } : AcceptQueue).credit := by
  obtain ⟨client, backlog, -, hleave⟩ := leave_eq hwaits taken
  have hturns : (if backlog = [] then s.poller.cease acceptChannel_ else s.poller).turns =
      s.poller.turns := by
    split
    · rfl
    · rfl
  rw [hleave]
  show s.credit ≤ (s.gone ++ [(client, taken)]).length + errors.countP (fun e => !e.2) +
    Bool.toNat false + (if backlog = [] then s.poller.cease acceptChannel_
      else s.poller).turns.countP (Poller.Partial ·)
  rw [herrors, hturns, credit, hpending]
  simp only [List.length_append, List.length_singleton, Bool.toNat_true, Bool.toNat_false]
  omega

/-- **Step**: every poll with a client in the queue gives the loop an event
    for it, or leaves something out. -/
theorem credit_next (hlimit : limit < 2 ^ 30) (h : s.Queued limit) (l : AcceptStep)
    (hguard : (acceptQueue limit).guard s l) (hwaits : s.backlog ≠ []) :
    s.credit + [l].count .poll ≤ (s.next l).credit := by
  cases l with
  | poll =>
    obtain ⟨-, -, -, -, hturns⟩ := Poller.turns_turn h.rotating.pos (h.rotating.int hlimit)
    have hidle : s.pending = false := hguard
    have hready : acceptChannel_ ∈ s.poller.ready := h.ready.mpr hwaits
    have hcredit : s.poll.credit = s.gone.length + s.vain +
        (decide (acceptChannel_ ∈ s.poller.turn.activeChannels_)).toNat +
          s.poller.turn.turns.countP (Poller.Partial ·) := rfl
    show s.credit + _ ≤ s.poll.credit
    -- with or without an event for the channel, the poll is paid for
    rw [hcredit, hturns, List.countP_append, List.countP_singleton, credit, hidle]
    by_cases hmem : acceptChannel_ ∈ s.poller.turn.activeChannels_
    · simp only [hmem, decide_true, Bool.toNat_true, Bool.toNat_false, List.count_singleton_self]
      omega
    · -- it is ready, and was not given to the loop
      have hnotFull : Poller.Partial ⟨s.poller.ready, s.poller.turn.activeChannels_⟩ := by
        intro heq
        have hsame : s.poller.turn.activeChannels_ = s.poller.ready := heq
        rw [hsame] at hmem
        exact hmem hready
      rw [decide_eq_true hnotFull]
      simp only [hmem, decide_false, Bool.toNat_false, List.count_singleton_self, if_true]
      omega
  | hadleRead answer =>
    -- the event turns into somebody who leaves, or into an error
    have hpending : s.pending = true := hguard.1
    show s.credit + 0 ≤ (s.hadleRead answer).credit
    rcases hadleRead_cases h hguard with ⟨-, -, hread⟩ | ⟨savedErrno, -, -, hread⟩ |
      ⟨savedErrno, -, -, hread⟩
    · have herrors : (s.leave true).errors.countP (fun e => !e.2) = s.vain := by
        obtain ⟨_, _, -, hleave⟩ := leave_eq hwaits true
        rw [hleave]
        rfl
      rw [hread]
      exact credit_leave hwaits true (s.room - 1) herrors hpending
    · rw [hread]
      refine credit_leave hwaits false (s.leave false).room ?_ hpending
      rw [List.countP_append, vain]
      rfl
    · have hvain : ({ s with
          pending := false
          errors := s.errors ++ [(savedErrno, false)] } : AcceptQueue).vain = s.vain + 1 := by
        rw [vain, List.countP_append]
        rfl
      rw [hread, credit, credit, hvain, hpending]
      simp only [Bool.toNat_true, Bool.toNat_false]
      omega
  | connect | become | cease | openFile | closeFile => exact Nat.le_refl _

/-- **Run**: while the client `k` waits, the polls are paid for. -/
theorem credit_run (hlimit : limit < 2 ^ 30) {k : Nat} :
    ∀ {s : AcceptQueue} {ks : List AcceptStep}, s.Queued limit →
      (acceptQueue limit).Valid s ks → k < s.connected →
        ((acceptQueue limit).run s ks).gone.length ≤ k →
          s.credit + polls ks ≤ ((acceptQueue limit).run s ks).credit := by
  intro s ks
  induction ks generalizing s with
  | nil => exact fun _ _ _ _ => Nat.le_refl _
  | cons l ks ih =>
    intro h hks hk hend
    obtain ⟨hguard, htail⟩ := hks
    have hnext := queued_next hlimit h l hguard
    obtain ⟨hserved, hgrows⟩ := gone_next h l hguard
    have hsofar := (gone_run (s := s.next l) hlimit hnext htail).length_le
    -- the client has not left yet, so the queue is not empty
    have hwaits : s.backlog ≠ [] := by
      intro hempty
      have hlength := hserved.length_le
      rw [connected, hempty, List.length_nil] at hk
      change (s.next l).gone.length ≤ ((acceptQueue limit).run (s.next l) ks).gone.length at hsofar
      change ((acceptQueue limit).run (s.next l) ks).gone.length ≤ k at hend
      omega
    have hstep := credit_next hlimit h l hguard hwaits
    have hrest := ih (s := s.next l) hnext htail (Nat.lt_of_lt_of_le hk hgrows) hend
    have hcount : polls (l :: ks) = [l].count .poll + polls ks := by
      rw [polls, polls, ← List.count_append]
      rfl
    rw [hcount]
    exact Nat.le_trans (by omega) hrest

/-- Nobody is accepted without a descriptor. -/
theorem accepted_noRoom (hlimit : limit < 2 ^ 30) :
    ∀ {s : AcceptQueue} {ks : List AcceptStep}, s.Queued limit →
      (acceptQueue limit).Valid s ks → s.room = 0 → (∀ l ∈ ks, l ≠ .closeFile) →
        ((acceptQueue limit).run s ks).accepted = s.accepted := by
  intro s ks
  induction ks generalizing s with
  | nil => exact fun _ _ _ _ => rfl
  | cons l ks ih =>
    intro h hks hroom hopen
    have hnext := queued_next hlimit h l hks.1
    -- only `closeFile` makes room
    have hsame : (s.next l).accepted = s.accepted ∧ (s.next l).room = 0 := by
      cases l with
      | hadleRead answer =>
        have hwaits := h.pending hks.1.1
        show (s.hadleRead answer).accepted = s.accepted ∧ (s.hadleRead answer).room = 0
        rcases hadleRead_cases h hks.1 with ⟨-, hsome, -⟩ | ⟨savedErrno, -, -, hread⟩ |
          ⟨savedErrno, -, -, hread⟩
        · exact absurd hroom (Nat.ne_of_gt hsome)
        · -- a client that is lost is not accepted
          obtain ⟨client, backlog, -, hleave⟩ := leave_eq hwaits false
          rw [hread, hleave]
          refine ⟨?_, hroom⟩
          show ((s.gone ++ [(client, false)]).filter Prod.snd).map Prod.fst = s.accepted
          rw [List.filter_append]
          exact congrArg (List.map Prod.fst) (List.append_nil _)
        · rw [hread]
          exact ⟨rfl, hroom⟩
      | closeFile => exact absurd rfl (hopen _ List.mem_cons_self)
      | openFile => exact absurd hks.1 (Nat.not_lt.mpr (Nat.le_of_eq hroom))
      | connect | poll | become | cease => exact ⟨rfl, hroom⟩
    have hrest := ih (s := s.next l) hnext hks.2 hsame.2
      fun k hk => hopen k (List.mem_cons_of_mem l hk)
    exact hrest.trans hsame.1

/-- Who has not left came later than those who have. -/
theorem Queued.length_le (h : s.Queued limit) {k : Nat} (hk : k ∉ s.gone.map Prod.fst) :
    s.gone.length ≤ k := by
  have hle : s.gone.length ≤ s.connected := Nat.le_add_right _ _
  have hgone : s.gone.map Prod.fst = List.range s.gone.length := by
    rw [← Nat.min_eq_left hle, ← List.take_range, ← h.order]
    exact (List.take_left' (List.length_map _)).symm
  rw [hgone, List.mem_range] at hk
  exact Nat.not_lt.mp hk

/-- **Accepting**: over every run, with other channels ready or not and
    accepts that fail for any reason, the clients leave the queue in the
    order in which they came, each once, accepted or lost.  The client `k`
    stays no longer than a poll for each client in front of it, one for
    each accept that fails and leaves the queue as it was, and
    `log2 (limit / 16)`, rounded up, and one more.  No accept fails because
    the queue is empty.  As long as the process has no descriptor left,
    nobody is accepted. -/
theorem acceptQueue_run (hlimit : limit < 2 ^ 30) {m : Nat}
    (hm : limit ≤ Poller.kInitEventListSize * 2 ^ m) {room : Nat} {ls ks : List AcceptStep}
    (hls : (acceptQueue limit).Valid (new room) (ls ++ ks)) :
    let s := (acceptQueue limit).run (new room) ls
    let t := (acceptQueue limit).run s ks
    t.gone.map Prod.fst ++ t.backlog = List.range t.connected ∧
      (∀ k < s.connected, k ∉ t.gone.map Prod.fst →
        s.gone.length + s.vain + polls ks ≤ k + t.vain + m + 1) ∧
      (∀ e ∈ t.errors, e.1 ≠ .EAGAIN) ∧
      (s.room = 0 → (∀ l ∈ ks, l ≠ .closeFile) → t.accepted = s.accepted) := by
  intro s t
  obtain ⟨hvalid, hks⟩ := ((acceptQueue limit).valid_append (new room) ls ks).mp hls
  have hs : s.Queued limit := queued_run hlimit (queued_new limit room) hvalid
  have ht : t.Queued limit := queued_run hlimit hs hks
  refine ⟨ht.order, ?_, ht.errors, accepted_noRoom hlimit hs hks⟩
  intro k hk hwaits
  have hle : t.gone.length ≤ k := ht.length_le hwaits
  -- the polls in between were paid for by clients, errors and polls that left something out
  have hcredit : s.credit + polls ks ≤ t.credit := credit_run hlimit hs hks hk hle
  have hfew := ht.rotating.few m hm
  have hpending : t.pending.toNat ≤ 1 := Bool.toNat_le t.pending
  rw [credit, credit] at hcredit
  omega

/-- Four clients and one descriptor: the first one is reset, the second one
    gets the descriptor, and the others stay. -/
def busy : List AcceptStep :=
  [.connect, .connect, .connect, .connect, .poll, .hadleRead (.failure .ECONNABORTED true), .poll,
    .hadleRead .connection, .poll, .hadleRead (.failure .EMFILE false)]

theorem valid_busy : (acceptQueue 16).Valid (new 1) (busy ++ [.poll]) := by
  decide +kernel

theorem acceptQueue_run_busy :
    let s := (acceptQueue 16).run (new 1) busy
    let t := (acceptQueue 16).run s [.poll]
    s.accepted = [1] ∧ s.gone = [(0, false), (1, true)] ∧ s.vain = 1 ∧
      t.gone.map Prod.fst ++ t.backlog = List.range t.connected :=
  ⟨by decide +kernel, by decide +kernel, by decide +kernel,
    (acceptQueue_run (by decide) (m := 0) (by decide) valid_busy).1⟩

end AcceptQueue

end TinyWS
