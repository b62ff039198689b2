import TinyWS.Http.Wire
import TinyWS.Net.HalfClose
import TinyWS.WebBench.Served

/-! # A Child of the Benchmark and the Server

    With keep-alive, which is always on, a child of the benchmark writes
    its request, reads once, and writes the request again, on one
    connection, until the alarm.  One read is taken for one response,
    whatever it brought.

    The machine `keepAlive` puts the child and a connection of the HTTP
    server together, with the bytes in flight both ways, which the network
    cuts as it likes.

    * **Progress**: a child whose request is readable never waits in vain.
    * **Counts**: when the numbers it reports are the server's. -/

namespace TinyWS

open HttpConnection

namespace WebBench

/-! ## The model -/

/-- Where a child is in the loop of `benchcore`: at its head, before the
    test of `timerexpired` in front of `read`, in `read`, or behind it. -/
inductive Phase where
  | head
  | test
  | read
  | returned
  deriving DecidableEq, Repr

/-- A child, its connection, and the bytes on their way to the server.
    Those on their way back were written by the server and not yet counted
    in `bytesRead`.  What the child reports are an `int` each, and wrap. -/
structure Bench where
  phase : Phase
  timerexpired : Bool
  speed : Int32
  failed : Int32
  bytes : Int32
  /-- How often `speed` was counted up. -/
  counted : Nat
  /-- How many bytes were read. -/
  bytesRead : Nat
  /-- How often the request was written. -/
  requests : Nat
  toServer : Bytes
  server : HttpConnection
  /-- The server has closed its socket. -/
  closed : Bool

/-- A step of the child, of the network or of the server. -/
inductive BenchStep where
  /-- From the head of the loop to the test, or out of it. -/
  | turn
  | test
  /-- `read` returns so many bytes. -/
  | read (n : Nat)
  /-- `SIGALRM`, which may interrupt `read`. -/
  | alarm (interrupts : Bool)
  | server (l : SocketEvent)
  /-- The server reads the end of a stream that it has shut itself. -/
  | close

namespace Bench

/-- A child that has just connected. -/
def start (server : HttpConnection) : Bench where
  phase := .head
  timerexpired := false
  speed := 0
  failed := 0
  bytes := 0
  counted := 0
  bytesRead := 0
  requests := 0
  toServer := []
  server := server
  closed := false

/-- What the server has written and the child has not read. -/
def unread (s : Bench) : Bytes := (written s.server.calls).drop s.bytesRead

/-- The server has called `shutdownWrite`, which shuts the receiving side. -/
def Shut (s : Bench) : Prop := ∃ state unsent, .shutdownWrite state unsent ∈ s.server.calls

/-- The head of the loop: `failed` takes back the read that the alarm
    interrupted; with `force` the child does not wait for an answer. -/
def turn (req : Bytes) (force : Bool) (s : Bench) : Bench :=
  if s.timerexpired then
    { s with phase := .returned, failed := if 0 < s.failed then s.failed - 1 else s.failed }
  else
    let s := { s with requests := s.requests + 1, toServer := s.toServer ++ req }
    if force then { s with speed := s.speed + 1, counted := s.counted + 1 }
    else { s with phase := .test }

/-- The test in front of `read`: the alarm ends the wait, not the count. -/
def test (s : Bench) : Bench :=
  if s.timerexpired then { s with phase := .head, speed := s.speed + 1, counted := s.counted + 1 }
  else { s with phase := .read }

/-- One `read`, whatever it brought. -/
def read (s : Bench) (n : Nat) : Bench :=
  { s with
    phase := .head
    speed := s.speed + 1
    bytes := s.bytes + Int32.ofNat n
    counted := s.counted + 1
    bytesRead := s.bytesRead + n }

def alarm (s : Bench) (interrupts : Bool) : Bench :=
  if interrupts then { s with phase := .head, timerexpired := true, failed := s.failed + 1 }
  else { s with timerexpired := true }

/-- An event of the server's socket. -/
def serve (httpCallback : HttpCallback) (s : Bench) (l : SocketEvent) : Bench :=
  { s with
    toServer := s.toServer.drop (chunkOf l).length
    server := handleEvent httpCallback s.server l }

def next (httpCallback : HttpCallback) (req : Bytes) (force : Bool) (s : Bench) :
    BenchStep → Bench
  | .turn => s.turn req force
  | .test => s.test
  | .read n => s.read n
  | .alarm interrupts => s.alarm interrupts
  | .server l => s.serve httpCallback l
  | .close => { s with closed := true }

end Bench

/-- What the child, the network and the server can do next. -/
def Bench.Enabled (s : Bench) : BenchStep → Prop
  | .turn => s.phase = .head
  | .test => s.phase = .test
  | .read n => s.phase = .read ∧ 0 < n ∧ n ≤ 1500 ∧ n ≤ s.unread.length
  | .alarm interrupts => s.timerexpired = false ∧ (interrupts = true → s.phase = .read)
  | .server (.read r) => r.chunk ≠ [] ∧ r.chunk <+: s.toServer
  | .server (.write _) => s.server.channel_.isWriting = true
  | .close => s.Shut

/-- The system, as long as the connection lasts: no `write` of the child
    fails, and no `read` but for the alarm. -/
def keepAlive (httpCallback : HttpCallback) (req : Bytes) (force : Bool) :
    Machine Bench BenchStep where
  guard s l := s.closed = false ∧ s.Enabled l
  next := Bench.next httpCallback req force

end WebBench

/-! ## The server under one request after another -/

namespace HttpConnection

/-- Bytes short of the stream leave a request incomplete. -/
theorem length_completeIn_lt {rs : List RequestText} {n : Nat} (h : n < (streamOf rs).length) :
    (completeIn rs n).length < rs.length := by
  induction rs generalizing n with
  | nil => exact absurd h (Nat.not_lt_zero n)
  | cons r rs ih =>
    rw [completeIn]
    split
    · next hle =>
      rw [streamOf_cons, List.length_append] at h
      have hlt := ih (n := n - r.text.length) (by omega)
      simpa using hlt
    · simp

theorem completeIn_stream (rs : List RequestText) : completeIn rs (streamOf rs).length = rs := by
  have hall := completeIn_append rs [] 0
  rw [List.append_nil, Nat.add_zero] at hall
  rw [hall]
  simp [completeIn]

section Behind

variable {httpCallback : HttpCallback} {rs : List RequestText} {h : HttpConnection}
  {ls : List SocketEvent} {answered : Nat}

/-- Another request may follow. -/
theorem Behind.append (hbehind : Behind httpCallback rs h ls answered) (q : RequestText) :
    Behind httpCallback (rs ++ [q]) h ls answered := by
  obtain ⟨done, todo, part, hrs, hlen, hrec, hreading, hhandled⟩ := hbehind.position
  refine ⟨hbehind.fault, hbehind.state_, ⟨done, todo ++ [q], part, ?_, hlen, hrec, hreading,
    hhandled⟩, hbehind.sent, ?_⟩
  · rw [hrs, List.append_assoc]
  · rw [streamOf_append]
    exact hbehind.upcoming.trans (List.prefix_append _ _)

/-- Other events may come. -/
theorem Behind.expect (hbehind : Behind httpCallback rs h ls answered) {ks : List SocketEvent}
    (hks : h.received ++ ks.flatMap chunkOf <+: streamOf rs) :
    Behind httpCallback rs h ks answered :=
  ⟨hbehind.fault, hbehind.state_, hbehind.position, hbehind.sent, hks⟩

/-- No request is answered that is not complete. -/
theorem Behind.answered_le (hbehind : Behind httpCallback rs h ls answered) :
    answered ≤ (completeIn rs h.received.length).length := by
  obtain ⟨done, todo, part, hrs, hlen, hrec, -, -⟩ := hbehind.position
  rw [hrs, hrec, List.length_append, completeIn_append, List.length_append, hlen]
  exact Nat.le_add_right _ _

theorem Behind.length_handled (hbehind : Behind httpCallback rs h ls answered) :
    h.handled.length = answered := by
  obtain ⟨done, todo, part, -, hlen, -, -, hhandled⟩ := hbehind.position
  have hsame := congrArg List.length hhandled
  rw [List.length_map, List.length_map] at hsame
  exact hsame.trans hlen

theorem Behind.length_sent (hbehind : Behind httpCallback rs h ls answered) :
    h.sent.length = answered := by
  rw [hbehind.sent, responses, List.length_mapIdx, List.length_map]
  exact hbehind.length_handled

/-- When all the requests are copies of one, so are those that were
    handled. -/
theorem Behind.copies {q : RequestText} {n : Nat}
    (hbehind : Behind httpCallback (List.replicate n q) h ls answered) :
    ∀ p ∈ h.handled, p.1.untimed = q.toRequest 0 := by
  intro p hp
  obtain ⟨done, todo, part, hrs, -, -, -, hhandled⟩ := hbehind.position
  have hmem : p.1.untimed ∈ done.map (fun r => r.toRequest 0) := by
    rw [← hhandled]
    exact List.mem_map_of_mem hp
  obtain ⟨r, hr, heq⟩ := List.mem_map.mp hmem
  have hcopy : r = q := by
    refine List.eq_of_mem_replicate (n := n) ?_
    rw [hrs]
    exact List.mem_append_left _ hr
  rw [← heq, hcopy]

end Behind

/-- **A read** that finds all the requests of the stream sends an
    answer. -/
theorem Behind.answers {httpCallback : HttpCallback} {rs : List RequestText} {h : HttpConnection}
    {answered : Nat} (hopen : ∀ q ∈ rs, ¬ AsksToClose httpCallback q)
    (hbehind : Behind httpCallback rs h [] answered) {r : Read} (hr : r.chunk ≠ [])
    (hall : h.received ++ r.chunk = streamOf rs) :
    (handleRead httpCallback h r).sent ≠ h.sent := by
  have hnext : Behind httpCallback rs h [.read r] answered :=
    hbehind.expect (by simp [chunkOf, hall])
  have hread := hnext.read hopen
  have hlast : (completeIn rs (h.received.length + r.chunk.length)).length = rs.length := by
    rw [← List.length_append, hall, completeIn_stream]
  have hearlier : answered < rs.length := by
    have hpos := List.length_pos_of_ne_nil hr
    have hshort : h.received.length < (streamOf rs).length := by
      rw [← hall, List.length_append]
      omega
    have hlt := length_completeIn_lt hshort
    have hle := hbehind.answered_le
    omega
  intro heq
  have hlen := hread.2.length_sent
  rw [heq, hbehind.length_sent, hlast] at hlen
  omega

end HttpConnection

/-! ## The shutdown -/

namespace Endpoint

/-- What an operation calls: while the connection stays open it does not
    shut it, and it takes no call back. -/
structure Stays (e e' : Endpoint) : Prop where
  connected : e'.state_ = .kConnected → e.state_ = .kConnected
  open_ : e'.state_ = .kConnected → ∀ state unsent,
    SocketCall.shutdownWrite state unsent ∈ e'.calls →
      SocketCall.shutdownWrite state unsent ∈ e.calls
  calls : e.calls <+: e'.calls

theorem Stays.trans {e e' e'' : Endpoint} (h : e.Stays e') (h' : e'.Stays e'') : e.Stays e'' where
  connected hs := h.connected (h'.connected hs)
  open_ hs state unsent hmem :=
    h.open_ (h'.connected hs) state unsent (h'.open_ hs state unsent hmem)
  calls := h.calls.trans h'.calls

theorem stays_of_eq {e e' : Endpoint} (hstate : e'.state_ = e.state_)
    (hcalls : e'.calls = e.calls) :
    e.Stays e' where
  connected hs := by rwa [hstate] at hs
  open_ _ state unsent hmem := by rwa [hcalls] at hmem
  calls := by rw [hcalls]

/-- A call of `write`. -/
theorem stays_of_write {e e' : Endpoint} (hstate : e'.state_ = e.state_) {taken : Bytes}
    (hcalls : e'.calls = e.calls ++ [.write taken]) : e.Stays e' where
  connected hs := by rwa [hstate] at hs
  open_ _ state unsent hmem := by
    rw [hcalls, List.mem_append, List.mem_singleton] at hmem
    exact hmem.resolve_right fun heq => by cases heq
  calls := by
    rw [hcalls]
    exact List.prefix_append _ _

theorem stays_send (e : Endpoint) (message : Bytes) (w : WriteResult) :
    e.Stays (e.send true message w) := by
  by_cases hs : e.state_ = .kConnected
  · have hsend : e.send true message w =
        { e with sent := e.sent ++ [message] }.sendInLoop message w := by
      simp [send, hs]
    have hsame := sameLife_sendInLoop { e with sent := e.sent ++ [message] } message w
    rw [hsend]
    by_cases hi : { e with sent := e.sent ++ [message] }.Idle
    · obtain ⟨n, hsends⟩ := sendInLoop_idle hi message w
      exact stays_of_write hsame.state_ hsends.calls
    · rw [sendInLoop_busy hi]
      exact stays_of_eq rfl rfl
  · have hsend : e.send true message w = e := by simp [send, hs]
    rw [hsend]
    exact stays_of_eq rfl rfl

/-- `shutdown` ends the state. -/
theorem stays_shutdown (e : Endpoint) : e.Stays (e.shutdown true) := by
  by_cases hs : e.state_ = .kConnected
  · have hshut : e.shutdown true = (e.setState .kDisconnecting).shutdownInLoop := by
      simp [shutdown, hs]
    have hsame := sameLife_shutdownInLoop (e.setState .kDisconnecting)
    have hleft : (e.shutdown true).state_ ≠ .kConnected := by
      rw [hshut, hsame.state_]
      simp [setState]
    refine ⟨fun h => absurd h hleft, fun h => absurd h hleft, ?_⟩
    rw [hshut]
    exact calls_shutdownInLoop (e.setState .kDisconnecting)
  · have hshut : e.shutdown true = e := by simp [shutdown, hs]
    rw [hshut]
    exact stays_of_eq rfl rfl

/-- A write event shuts the socket only behind `shutdown`. -/
theorem stays_handleWrite {e : Endpoint} (hwriting : e.WritingIffBuffered) (w : WriteResult) :
    e.Stays (e.handleWrite w) := by
  have hstate := (sameLife_handleWrite e w).state_
  by_cases hw : e.channel_.isWriting = true
  · by_cases hall : e.TakesAll w
    · obtain ⟨hcalls, -, -⟩ := handleWrite_drained hw (hwriting.mp hw) hall
      refine ⟨fun hs => hstate ▸ hs, fun hs state unsent hmem => ?_, calls_handleWrite e w⟩
      rw [hstate] at hs
      rw [hcalls, hs] at hmem
      simpa using hmem
    · obtain ⟨n, -, hcalls, -, -, -⟩ := handleWrite_partial hw (hwriting.mp hw) hall
      exact stays_of_write hstate hcalls
  · rw [handleWrite_notWriting (by simpa using hw)]
    exact stays_of_eq rfl rfl

end Endpoint

namespace HttpConnection

theorem stays_onRequest (httpCallback : HttpCallback) (h : HttpConnection) (request : HttpRequest)
    (w : WriteResult) : h.toEndpoint.Stays (onRequest httpCallback h request w).toEndpoint := by
  have hsend := Endpoint.stays_send h.toEndpoint
    ((respond httpCallback h.handled.length request).appendToBuffer Buffer.new).toString w
  simp only [onRequest]
  split
  · exact hsend.trans (Endpoint.stays_shutdown _)
  · exact hsend

theorem stays_reject (h : HttpConnection) (isOk : Bool) (w : WriteResult) :
    h.toEndpoint.Stays (if isOk then h else (h.send badRequest w).shutdown).toEndpoint := by
  split
  · exact Endpoint.stays_of_eq rfl rfl
  · exact (Endpoint.stays_send h.toEndpoint badRequest w).trans (Endpoint.stays_shutdown _)

theorem stays_answer (httpCallback : HttpCallback) (h : HttpConnection) (w : WriteResult) :
    h.toEndpoint.Stays (if h.context_.gotAll then
        { onRequest httpCallback h h.context_.request_ w with context_ := HttpContext.new }
      else h).toEndpoint := by
  split
  · exact stays_onRequest httpCallback h h.context_.request_ w
  · exact Endpoint.stays_of_eq rfl rfl

theorem stays_onMessage (httpCallback : HttpCallback) (h : HttpConnection) (t : TimeType)
    (w : WriteResult) : h.toEndpoint.Stays (h.onMessage httpCallback t w).toEndpoint := by
  unfold onMessage
  cases h.context_.parseRequest h.inputBuffer_ t with
  | error fault => exact Endpoint.stays_of_eq rfl rfl
  | ok res =>
    obtain ⟨isOk, context, buffer⟩ := res
    have htook : h.toEndpoint.Stays
        { h with context_ := context, inputBuffer_ := buffer : HttpConnection }.toEndpoint :=
      Endpoint.stays_of_eq rfl rfl
    exact htook.trans ((stays_reject _ isOk w).trans (stays_answer httpCallback _ w))

/-- **An event** shuts the socket only of a connection that has left
    `kConnected`. -/
theorem stays_handleEvent {httpCallback : HttpCallback} {h : HttpConnection}
    (hwriting : h.toEndpoint.WritingIffBuffered) (l : SocketEvent) :
    h.toEndpoint.Stays (handleEvent httpCallback h l).toEndpoint := by
  cases l with
  | read r =>
    show h.toEndpoint.Stays (handleRead httpCallback h r).toEndpoint
    unfold handleRead
    split
    · exact Endpoint.stays_of_eq rfl rfl
    · have hdeliver : h.toEndpoint.Stays (h.deliver r.chunk).toEndpoint :=
        Endpoint.stays_of_eq rfl rfl
      exact hdeliver.trans (stays_onMessage httpCallback _ _ r.w)
  | write w =>
    show h.toEndpoint.Stays (h.handleWrite w).toEndpoint
    unfold handleWrite
    split
    · exact Endpoint.stays_of_eq rfl rfl
    · exact Endpoint.stays_handleWrite hwriting w

end HttpConnection

namespace WebBench

/-! ## The invariant -/

/-- The child's own numbers. -/
structure Bench.Counts (s : Bench) : Prop where
  speed : s.speed = Int32.ofNat s.counted
  bytes : s.bytes = Int32.ofNat s.bytesRead
  /-- Only the alarm makes a read fail, and it comes once. -/
  failed : s.failed = 0 ∨ s.failed = 1
  early : s.timerexpired = false → s.failed = 0
  returned : s.phase = .returned → s.timerexpired = true ∧ s.failed = 0
  /-- Behind an interrupted read comes the head. -/
  interrupted : s.failed ≠ 0 → s.phase = .head

/-- The child and the server agree on what was sent. -/
structure Bench.Sync (httpCallback : HttpCallback) (q : RequestText) (s : Bench) : Prop where
  counts : s.Counts
  stream : s.server.received ++ s.toServer = streamOf (List.replicate s.requests q)
  behind : ∃ answered, Behind httpCallback (List.replicate s.requests q) s.server [] answered
  whole : s.server.Whole
  open_ : ¬ s.Shut
  closed : s.closed = false
  read_le : s.bytesRead ≤ (written s.server.calls).length
  /-- A child that waits has something coming. -/
  moves : s.phase = .test ∨ s.phase = .read →
    s.toServer ≠ [] ∨ s.bytesRead < s.server.toEndpoint.outputStream.length

section Sync

variable {httpCallback : HttpCallback} {q : RequestText} {force : Bool} {s : Bench}

theorem length_written_le {h : HttpConnection} :
    (written h.calls).length ≤ h.toEndpoint.outputStream.length := by
  rw [Endpoint.outputStream, List.length_append]
  exact Nat.le_add_right _ _

/-- The server's bytes only grow. -/
theorem length_written_mono {h h' : HttpConnection} (hcalls : h.calls <+: h'.calls) :
    (written h.calls).length ≤ (written h'.calls).length := by
  obtain ⟨more, hmore⟩ := hcalls
  rw [← hmore, Endpoint.written_append, List.length_append]
  exact Nat.le_add_right _ _

/-- The child leaves its loop. -/
theorem turn_expired (hexp : s.timerexpired = true) (req : Bytes) (force : Bool) :
    s.turn req force = { s with
      phase := .returned
      failed := if 0 < s.failed then s.failed - 1 else s.failed } := by
  rw [Bench.turn, if_pos hexp]

/-- The child writes its request. -/
theorem turn_waiting (hexp : s.timerexpired = false) (req : Bytes) :
    s.turn req false = { s with
      phase := .test
      requests := s.requests + 1
      toServer := s.toServer ++ req } := by
  rw [Bench.turn, if_neg (by rw [hexp]; decide)]
  rfl

/-- The child goes into `read`. -/
theorem test_waiting (hexp : s.timerexpired = false) : s.test = { s with phase := .read } := by
  rw [Bench.test, if_neg (by rw [hexp]; decide)]

/-- One more is counted. -/
theorem ofNat_succ {x : Int32} {n : Nat} (h : x = Int32.ofNat n) : x + 1 = Int32.ofNat (n + 1) := by
  rw [Int32.ofNat_add, h]
  rfl

theorem counts_turn (hcounts : s.Counts) (hphase : s.phase = .head) (req : Bytes) :
    (s.turn req force).Counts := by
  unfold Bench.turn
  by_cases hexp : s.timerexpired = true
  · rw [if_pos hexp]
    -- the alarm counted one failure at most, and it is taken back here
    have hzero : (if 0 < s.failed then s.failed - 1 else s.failed) = 0 := by
      rcases hcounts.failed with h | h
      · rw [h]
        decide
      · rw [h]
        decide
    exact ⟨hcounts.speed, hcounts.bytes, .inl hzero, fun h => by simp [hexp] at h,
      fun _ => ⟨hexp, hzero⟩, fun h => absurd hzero h⟩
  · rw [if_neg hexp]
    have hearly : s.timerexpired = false := by simpa using hexp
    have hzero := hcounts.early hearly
    cases force with
    | true =>
      refine ⟨ofNat_succ hcounts.speed, hcounts.bytes, hcounts.failed, fun _ => hzero,
        fun h => ?_, fun _ => hphase⟩
      exact absurd (hphase.symm.trans h) (by decide)
    | false =>
      exact ⟨hcounts.speed, hcounts.bytes, hcounts.failed, fun _ => hzero, fun h => (by cases h),
        fun h => absurd hzero h⟩

theorem counts_test (hcounts : s.Counts) (hphase : s.phase = .test) : s.test.Counts := by
  -- an interrupted child is at the head of its loop
  have hnot : s.failed = 0 := by
    by_contra hfailed
    rw [hcounts.interrupted hfailed] at hphase
    cases hphase
  unfold Bench.test
  split
  · exact ⟨ofNat_succ hcounts.speed, hcounts.bytes, hcounts.failed, fun h => hcounts.early h,
      fun h => (by cases h), fun _ => rfl⟩
  · exact ⟨hcounts.speed, hcounts.bytes, hcounts.failed, fun h => hcounts.early h,
      fun h => (by cases h), fun h => absurd hnot h⟩

theorem counts_read (hcounts : s.Counts) (n : Nat) : (s.read n).Counts := by
  refine ⟨ofNat_succ hcounts.speed, ?_, hcounts.failed, fun h => hcounts.early h,
    fun h => (by cases h), fun _ => rfl⟩
  show s.bytes + Int32.ofNat n = Int32.ofNat (s.bytesRead + n)
  rw [Int32.ofNat_add, hcounts.bytes]

theorem counts_alarm (hcounts : s.Counts) (hearly : s.timerexpired = false) (interrupts : Bool) :
    (s.alarm interrupts).Counts := by
  have hzero := hcounts.early hearly
  unfold Bench.alarm
  split
  · refine ⟨hcounts.speed, hcounts.bytes, .inr ?_, fun h => (by cases h), fun h => (by cases h),
      fun _ => rfl⟩
    show s.failed + 1 = 1
    rw [hzero]
    rfl
  · refine ⟨hcounts.speed, hcounts.bytes, hcounts.failed, fun h => (by cases h), fun h => ?_,
      fun h => hcounts.interrupted h⟩
    have hexp := (hcounts.returned h).1
    rw [hearly] at hexp
    cases hexp

theorem counts_start (server : HttpConnection) : (Bench.start server).Counts :=
  ⟨rfl, rfl, .inl rfl, fun _ => rfl, fun h => (by cases h), fun h => absurd rfl h⟩

/-- The server has no part in the numbers. -/
theorem Bench.Counts.server (hcounts : s.Counts) (toServer : Bytes) (server : HttpConnection)
    (closed : Bool) :
    ({ s with toServer := toServer, server := server, closed := closed } : Bench).Counts :=
  ⟨hcounts.speed, hcounts.bytes, hcounts.failed, hcounts.early, hcounts.returned,
    hcounts.interrupted⟩

/-- A step of the child that leaves the connection alone. -/
theorem sync_child (hsync : s.Sync httpCallback q) {phase : Phase} {timerexpired : Bool}
    {speed failed : Int32} {counted : Nat} (hcounts : ({ s with
      phase := phase
      timerexpired := timerexpired
      speed := speed
      failed := failed
      counted := counted } : Bench).Counts)
    (hmoves : phase = .test ∨ phase = .read →
      s.toServer ≠ [] ∨ s.bytesRead < s.server.toEndpoint.outputStream.length) :
    ({ s with
      phase := phase
      timerexpired := timerexpired
      speed := speed
      failed := failed
      counted := counted } : Bench).Sync httpCallback q :=
  ⟨hcounts, hsync.stream, hsync.behind, hsync.whole, hsync.open_, hsync.closed, hsync.read_le,
    hmoves⟩

/-- Another request on its way. -/
theorem sync_turn (hsync : s.Sync httpCallback q) (hphase : s.phase = .head) :
    (s.turn q.text force).Sync httpCallback q := by
  have hcounts : (s.turn q.text force).Counts := counts_turn hsync.counts hphase _
  have hne := q.text_ne_nil
  have hidle : ¬ (s.phase = .test ∨ s.phase = .read) := by
    rw [hphase]
    decide
  revert hcounts
  unfold Bench.turn
  by_cases hexp : s.timerexpired = true
  · rw [if_pos hexp]
    intro hcounts
    exact sync_child hsync hcounts fun h => by rcases h with h | h <;> cases h
  · rw [if_neg hexp]
    have hstream : s.server.received ++ (s.toServer ++ q.text) =
        streamOf (List.replicate (s.requests + 1) q) := by
      rw [← List.append_assoc, hsync.stream, List.replicate_succ', streamOf_append]
      simp [streamOf]
    have hbehind : ∃ answered,
        Behind httpCallback (List.replicate (s.requests + 1) q) s.server [] answered := by
      obtain ⟨answered, hbehind⟩ := hsync.behind
      rw [List.replicate_succ']
      exact ⟨answered, hbehind.append q⟩
    cases force with
    | true =>
      intro hcounts
      exact ⟨hcounts, hstream, hbehind, hsync.whole, hsync.open_, hsync.closed, hsync.read_le,
        fun h => absurd h hidle⟩
    | false =>
      intro hcounts
      refine ⟨hcounts, hstream, hbehind, hsync.whole, hsync.open_, hsync.closed, hsync.read_le,
        fun _ => .inl ?_⟩
      show s.toServer ++ q.text ≠ []
      simp [hne]

theorem sync_test (hsync : s.Sync httpCallback q) (hphase : s.phase = .test) :
    s.test.Sync httpCallback q := by
  have hcounts := counts_test hsync.counts hphase
  have hmoves := hsync.moves (.inl hphase)
  revert hcounts
  unfold Bench.test
  split
  · intro hcounts
    exact sync_child hsync hcounts fun h => by rcases h with h | h <;> cases h
  · intro hcounts
    exact sync_child hsync hcounts fun _ => hmoves

theorem sync_read (hsync : s.Sync httpCallback q) {n : Nat} (hn : n ≤ s.unread.length) :
    (s.read n).Sync httpCallback q := by
  refine ⟨counts_read hsync.counts n, hsync.stream, hsync.behind, hsync.whole, hsync.open_,
    hsync.closed, ?_, fun h => by rcases h with h | h <;> cases h⟩
  have hread := hsync.read_le
  rw [Bench.unread, List.length_drop] at hn
  show s.bytesRead + n ≤ (written s.server.calls).length
  omega

theorem sync_alarm (hsync : s.Sync httpCallback q) (hearly : s.timerexpired = false)
    (interrupts : Bool) : (s.alarm interrupts).Sync httpCallback q := by
  have hcounts := counts_alarm hsync.counts hearly interrupts
  revert hcounts
  unfold Bench.alarm
  split
  · intro hcounts
    exact sync_child hsync hcounts fun h => by rcases h with h | h <;> cases h
  · intro hcounts
    exact sync_child hsync hcounts hsync.moves

/-- An event that answers lengthens the stream of the server. -/
theorem length_outputStream_lt {h : HttpConnection} (hwhole : h.Whole) (l : SocketEvent)
    {n : Nat} (hn : n ≤ (written h.calls).length)
    (hsent : (handleEvent httpCallback h l).sent ≠ h.sent) :
    n < (handleEvent httpCallback h l).toEndpoint.outputStream.length := by
  obtain ⟨messages, hnonempty, hadds⟩ : ∃ messages, (∀ m ∈ messages, m ≠ []) ∧
      h.toEndpoint.Adds (handleEvent httpCallback h l).toEndpoint messages :=
    adds_handleEvent hwhole.awaits l
  have hmessages : messages ≠ [] := by
    intro hnil
    rw [hadds.sent, hnil, List.append_nil] at hsent
    exact hsent rfl
  rw [hadds.stream hwhole.writing, List.length_append]
  split
  · -- the whole message goes into the stream
    obtain ⟨m, ms, rfl⟩ := List.exists_cons_of_ne_nil hmessages
    have hm := List.length_pos_of_ne_nil (hnonempty m List.mem_cons_self)
    have hle : m.length ≤ (m :: ms).flatten.length := by
      rw [List.flatten_cons, List.length_append]
      exact Nat.le_add_right _ _
    have hstream := length_written_le (h := h)
    omega
  · -- it is dropped because something else is still in the buffer
    next hbusy =>
    have hpos := List.length_pos_of_ne_nil hbusy
    rw [Endpoint.outputStream, List.length_append]
    omega

/-- What is on its way belongs to the stream of requests. -/
theorem behind_chunk (hsync : s.Sync httpCallback q) {answered : Nat}
    (hbehind : Behind httpCallback (List.replicate s.requests q) s.server [] answered) {r : Read}
    (hchunk : r.chunk <+: s.toServer) :
    Behind httpCallback (List.replicate s.requests q) s.server [.read r] answered := by
  obtain ⟨more, hmore⟩ := hchunk
  refine hbehind.expect ?_
  rw [← hsync.stream, ← hmore]
  simp [chunkOf]

theorem open_replicate (hopen : ¬ AsksToClose httpCallback q) (n : Nat) :
    ∀ r ∈ List.replicate n q, ¬ AsksToClose httpCallback r := by
  intro r hr
  rw [List.eq_of_mem_replicate hr]
  exact hopen

theorem sync_server (hopen : ¬ AsksToClose httpCallback q) (hsync : s.Sync httpCallback q)
    (l : SocketEvent) (hguard : s.Enabled (.server l)) :
    (s.serve httpCallback l).Sync httpCallback q := by
  obtain ⟨answered, hbehind⟩ := hsync.behind
  have hopens := open_replicate hopen s.requests
  have hstays : s.server.toEndpoint.Stays (handleEvent httpCallback s.server l).toEndpoint :=
    stays_handleEvent hsync.whole.writing l
  have hwhole : (handleEvent httpCallback s.server l).Whole := hsync.whole.next l
  have hlate := hsync.read_le.trans (length_written_mono hstays.calls)
  have hclosed : (handleEvent httpCallback s.server l).state_ = .kConnected →
      ¬ (s.serve httpCallback l).Shut := by
    rintro hstate ⟨state, unsent, hmem⟩
    exact hsync.open_ ⟨state, unsent, hstays.open_ hstate state unsent hmem⟩
  cases l with
  | write w =>
    have hnext : Behind httpCallback (List.replicate s.requests q) (s.server.handleWrite w) []
        answered := by
      have hwrite :
          Behind httpCallback (List.replicate s.requests q) s.server [.write w] answered :=
        hbehind.expect hbehind.upcoming
      exact hwrite.write
    refine ⟨hsync.counts.server _ _ _, ?_, ⟨answered, hnext⟩, hwhole, hclosed hnext.state_, hsync.closed,
      hlate, ?_⟩
    · show (s.server.handleWrite w).received ++ s.toServer.drop 0 = _
      rw [received_handleWrite]
      exact hsync.stream
    · intro hwaits
      -- the write moves bytes within the stream of the server
      have hstream := (adds_handleWrite (h := s.server) w).stream hsync.whole.writing
      have hsame : (s.server.handleWrite w).toEndpoint.outputStream =
          s.server.toEndpoint.outputStream := by
        rw [hstream]
        simp
      show s.toServer.drop 0 ≠ [] ∨
        s.bytesRead < (s.server.handleWrite w).toEndpoint.outputStream.length
      rw [hsame]
      exact hsync.moves hwaits
  | read r =>
    have hread := behind_chunk hsync hbehind hguard.2
    obtain ⟨hchunk, more, hmore⟩ := hguard
    have hdrop : s.toServer.drop r.chunk.length = more := by rw [← hmore, List.drop_left]
    have hstream : (s.server.received ++ r.chunk) ++ more =
        streamOf (List.replicate s.requests q) := by
      rw [List.append_assoc, hmore]
      exact hsync.stream
    obtain ⟨hrec, hnext⟩ := hread.read hopens
    refine ⟨hsync.counts.server _ _ _, ?_, ⟨_, hnext⟩, hwhole, hclosed hnext.state_, hsync.closed, hlate,
      fun _ => ?_⟩
    · show (handleRead httpCallback s.server r).received ++ s.toServer.drop r.chunk.length = _
      rw [hrec, hdrop]
      exact hstream
    · show s.toServer.drop r.chunk.length ≠ [] ∨ _
      rw [hdrop]
      by_cases hlast : more = []
      · -- the last byte of the last request: it is answered
        right
        rw [hlast, List.append_nil] at hstream
        exact length_outputStream_lt hsync.whole (.read r) hsync.read_le
          (hbehind.answers hopens hchunk hstream)
      · exact .inl hlast

/-- **Every step** keeps the child and the server in agreement. -/
theorem sync_next (hopen : ¬ AsksToClose httpCallback q) (hsync : s.Sync httpCallback q)
    (l : BenchStep) (hguard : (keepAlive httpCallback q.text force).guard s l) :
    ((keepAlive httpCallback q.text force).next s l).Sync httpCallback q := by
  cases l with
  | turn => exact sync_turn hsync hguard.2
  | test => exact sync_test hsync hguard.2
  | read n => exact sync_read hsync hguard.2.2.2.2
  | alarm interrupts => exact sync_alarm hsync hguard.2.1 interrupts
  | server l => exact sync_server hopen hsync l hguard.2
  | close => exact absurd hguard.2 hsync.open_

/-! ## Progress -/

variable (httpCallback q force) in
/-- One more success can be counted. -/
def GoesOn (s : Bench) : Prop :=
  (keepAlive httpCallback q.text force).CanReach
    (fun s' => s'.counted = s.counted + 1 ∧ s'.speed = s.speed + 1) s

/-- Something has been written for the child. -/
theorem goesOn_unread (hclosed : s.closed = false) (hphase : s.phase = .read)
    (hunread : s.unread ≠ []) : GoesOn httpCallback q force s := by
  have hpos := List.length_pos_of_ne_nil hunread
  have hguard : (keepAlive httpCallback q.text force).guard s (.read 1) :=
    ⟨hclosed, hphase, by omega, by omega, hpos⟩
  exact Machine.canReach_step _ hguard (Machine.canReach_now _ ⟨rfl, rfl⟩)

variable (httpCallback) in
/-- A write event that takes the whole output buffer gives the child
    something to read. -/
theorem unread_flush (hf : s.server.fault = none)
    (hwriting : s.server.toEndpoint.WritingIffBuffered)
    (hread : s.bytesRead ≤ (written s.server.calls).length)
    (hbuffered : s.server.outputBuffer_.toString ≠ []) :
    ∃ w, s.server.channel_.isWriting = true ∧
      (s.serve httpCallback (.write w)).unread ≠ [] := by
  have hw := hwriting.mpr hbuffered
  have hall : s.server.toEndpoint.TakesAll (.wrote s.server.outputBuffer_.readableBytes) := by
    show some (min _ _) = some _
    rw [Nat.min_self]
  obtain ⟨hcalls, -, -⟩ := Endpoint.handleWrite_drained hw hbuffered hall
  refine ⟨.wrote s.server.outputBuffer_.readableBytes, hw, fun hnil => ?_⟩
  have hdrop : (written (s.server.handleWrite
      (.wrote s.server.outputBuffer_.readableBytes)).calls).drop s.bytesRead = [] := hnil
  rw [handleWrite_eq hf] at hdrop
  have hend : (written (s.server.toEndpoint.handleWrite
      (.wrote s.server.outputBuffer_.readableBytes)).calls).drop s.bytesRead = [] := hdrop
  -- what was in the buffer stands behind what had been written
  have hpos := List.length_pos_of_ne_nil hbuffered
  rw [List.drop_eq_nil_iff, hcalls, List.append_cons, Endpoint.written_append,
    Endpoint.written_append, Endpoint.written_write, List.length_append, List.length_append] at hend
  omega

/-- Something is in the output buffer: the write event comes. -/
theorem goesOn_buffered (hsync : s.Sync httpCallback q) (hphase : s.phase = .read)
    (hbuffered : s.server.outputBuffer_.toString ≠ []) : GoesOn httpCallback q force s := by
  obtain ⟨answered, hbehind⟩ := hsync.behind
  obtain ⟨w, hwriting, hunread⟩ :=
    unread_flush httpCallback hbehind.fault hsync.whole.writing hsync.read_le hbuffered
  have hguard : (keepAlive httpCallback q.text force).guard s (.server (.write w)) :=
    ⟨hsync.closed, hwriting⟩
  exact Machine.canReach_step _ hguard
    (goesOn_unread (q := q) (s := s.serve httpCallback (.write w)) hsync.closed hphase hunread)

/-- Something is in the stream of the server. -/
theorem goesOn_stream (hsync : s.Sync httpCallback q) (hphase : s.phase = .read)
    (hstream : s.bytesRead < s.server.toEndpoint.outputStream.length) :
    GoesOn httpCallback q force s := by
  by_cases hbuffered : s.server.outputBuffer_.toString = []
  · -- all of the stream has been written
    refine goesOn_unread hsync.closed hphase ?_
    rw [Endpoint.outputStream, hbuffered, List.append_nil] at hstream
    intro hnil
    rw [Bench.unread, List.drop_eq_nil_iff] at hnil
    omega
  · exact goesOn_buffered hsync hphase hbuffered

/-- **A child in `read`** gets an answer. -/
theorem goesOn_read (hopen : ¬ AsksToClose httpCallback q) (hsync : s.Sync httpCallback q)
    (hphase : s.phase = .read) : GoesOn httpCallback q force s := by
  by_cases hstream : s.bytesRead < s.server.toEndpoint.outputStream.length
  · exact goesOn_stream hsync hphase hstream
  · -- the server takes all that is on its way
    have hcoming := (hsync.moves (.inr hphase)).resolve_right hstream
    let r : Read := ⟨s.toServer, 0, .wrote 0⟩
    have hguard : (keepAlive httpCallback q.text force).guard s (.server (.read r)) :=
      ⟨hsync.closed, hcoming, List.prefix_refl _⟩
    have hnext := sync_server hopen hsync (.read r) hguard.2
    have hempty : (s.serve httpCallback (.read r)).toServer = [] :=
      List.drop_of_length_le (Nat.le_refl _)
    have hmoves := (hnext.moves (.inr hphase)).resolve_left fun hne => hne hempty
    exact Machine.canReach_step _ hguard (goesOn_stream hnext hphase hmoves)

/-- **A child anywhere in its loop**, before the alarm. -/
theorem goesOn (hopen : ¬ AsksToClose httpCallback q) (hsync : s.Sync httpCallback q)
    (hearly : s.timerexpired = false) : GoesOn httpCallback q force s := by
  have hexp : ¬ s.timerexpired = true := by rw [hearly]; decide
  have htest : ∀ {s : Bench}, s.Sync httpCallback q → s.timerexpired = false → s.phase = .test →
      GoesOn httpCallback q force s := by
    intro s hsync hearly hphase
    have hnext := sync_test hsync hphase
    rw [test_waiting hearly] at hnext
    have hguard : (keepAlive httpCallback q.text force).guard s .test := ⟨hsync.closed, hphase⟩
    refine Machine.canReach_step _ hguard ?_
    show (keepAlive httpCallback q.text force).CanReach _ s.test
    rw [test_waiting hearly]
    exact goesOn_read hopen hnext rfl
  cases hphase : s.phase with
  | head =>
    have hnext : (s.turn q.text force).Sync httpCallback q := sync_turn hsync hphase
    have hguard : (keepAlive httpCallback q.text force).guard s .turn := ⟨hsync.closed, hphase⟩
    refine Machine.canReach_step _ hguard ?_
    show (keepAlive httpCallback q.text force).CanReach _ (s.turn q.text force)
    cases force with
    | true =>
      refine Machine.canReach_now _ ?_
      simp [Bench.turn, hexp]
    | false =>
      rw [turn_waiting hearly] at hnext ⊢
      exact htest hnext hearly rfl
  | test => exact htest hsync hearly hphase
  | read => exact goesOn_read hopen hsync hphase
  | returned =>
    have hret := (hsync.counts.returned hphase).1
    rw [hearly] at hret
    cases hret

end Sync

theorem sync_start (httpCallback : HttpCallback) (q : RequestText) (name : String) (loop : LoopId)
    (self : ChannelPtr) (fd : Int) (writeComplete : Bool) (epoll : Epoll) :
    (Bench.start (HttpConnection.established name loop self fd writeComplete epoll)).Sync
      httpCallback q where
  counts := counts_start _
  stream := rfl
  behind := ⟨0, behind_established httpCallback name loop self fd writeComplete epoll
    (List.nil_prefix)⟩
  whole := whole_established name loop self fd writeComplete epoll
  open_ := by
    rintro ⟨state, unsent, hmem⟩
    cases hmem
  closed := rfl
  read_le := Nat.zero_le _
  moves h := by rcases h with h | h <;> cases h

/-- A callback that closes no connection on its own account. -/
def ClosesOnlyIfAsked (httpCallback : HttpCallback) : Prop :=
  ∀ earlier request, request.getHeader (bytes "Connection") ≠ bytes "close" →
    (respond httpCallback earlier request).closeConnection_ = false

theorem closesOnlyIfAsked_main : ClosesOnlyIfAsked Main.httpCallback := by
  intro earlier request hopen
  rw [respond_main]
  exact decide_eq_false hopen

/-- The child asks to be kept alive. -/
theorem not_asksToClose {httpCallback : HttpCallback} (hcloses : ClosesOnlyIfAsked httpCallback)
    {b b' : Globals} {url : Bytes} (hkeep : b.keep_alive = true) {q : RequestText}
    (hfound : ∀ t, b.Found b' url (q.toRequest t)) : ¬ AsksToClose httpCallback q := by
  rintro ⟨earlier, t, hclose⟩
  have hconnection := (hfound t).connection
  rw [hkeep, if_pos rfl] at hconnection
  have hne : (q.toRequest t).getHeader (bytes "Connection") ≠ bytes "close" := by
    rw [hconnection]
    decide
  rw [hcloses earlier _ hne] at hclose
  cases hclose

/-- When a request was read plays no part in what is found in it. -/
theorem Globals.Found.of_untimed {b b' : Globals} {url : Bytes} {request : HttpRequest}
    (h : b.Found b' url request.untimed) : b.Found b' url request :=
  ⟨h.method, h.target, h.path, h.agent, h.connection, h.host⟩

/-- **A readable request keeps the benchmark going**: for every URL and all
    options with which the server can read the request, every callback that
    closes only if asked, and every run of a child against the server,
    however the network cuts the bytes and whatever the socket takes of an
    answer: the server has no error, handles nothing but the child's request
    and never closes; the child reports no failure; and until the alarm it
    can always count one more success, so it never waits for an answer that
    does not come. -/
theorem keepAlive_goesOn {b b' : Globals} {url : Bytes} (hbuild : b.build_request url = .ok b')
    (hcrlf : Lines.findPair cr lf url = none) (hread : b.Readable url) (hkeep : b.keep_alive = true)
    {httpCallback : HttpCallback} (hcloses : ClosesOnlyIfAsked httpCallback) (force : Bool)
    (name : String) (loop : LoopId) (self : ChannelPtr) (fd : Int) (writeComplete : Bool)
    (epoll : Epoll) {ls : List BenchStep}
    (hls : (keepAlive httpCallback b'.request force).Valid
      (Bench.start (HttpConnection.established name loop self fd writeComplete epoll)) ls) :
    let s := (keepAlive httpCallback b'.request force).run
      (Bench.start (HttpConnection.established name loop self fd writeComplete epoll)) ls
    s.server.fault = none ∧ s.server.state_ = .kConnected ∧ s.closed = false ∧
      (∀ p ∈ s.server.handled, b.Found b' url p.1) ∧ s.server.handled.length ≤ s.requests ∧
      (s.phase = .returned → s.failed = 0) ∧
      (s.timerexpired = false → (keepAlive httpCallback b'.request force).CanReach
        (fun s' => s'.counted = s.counted + 1 ∧ s'.speed = s.speed + 1) s) := by
  intro s
  obtain ⟨q, htext, hfound⟩ :=
    Globals.exists_requestText (Globals.built_of_build hbuild) hcrlf hread
  have hopen := not_asksToClose hcloses hkeep hfound
  have hsync : s.Sync httpCallback q := by
    rw [← htext] at hls
    have hrun := (keepAlive httpCallback q.text force).invariant_run (Bench.Sync httpCallback q)
      (fun s l hs hguard => sync_next hopen hs l hguard)
      (sync_start httpCallback q name loop self fd writeComplete epoll) hls
    rw [htext] at hrun
    exact hrun
  obtain ⟨answered, hbehind⟩ := hsync.behind
  refine ⟨hbehind.fault, hbehind.state_, hsync.closed, fun p hp => ?_, ?_,
    fun hret => (hsync.counts.returned hret).2, fun hearly => ?_⟩
  · have hq := hfound 0
    rw [← hbehind.copies p hp] at hq
    exact hq.of_untimed
  · obtain ⟨done, todo, part, hrs, hlen, -, -, -⟩ := hbehind.position
    have hcount := congrArg List.length hrs
    rw [List.length_replicate, List.length_append] at hcount
    rw [hbehind.length_handled]
    omega
  · have hgo : GoesOn httpCallback q force s := goesOn hopen hsync hearly
    rw [GoesOn, htext] at hgo
    exact hgo

/-- `webbench -2`. -/
def http11 : Globals := { Globals.new with http10 := 2 }

/-- What `build_request` makes of `http://h/`. -/
def http11Built : Globals :=
  { http11 with
    host := bytes "h"
    request := bytes
      "GET / HTTP/1.1\r\nUser-Agent: WebBench 1.5\r\nHost: h\r\nConnection: Keep-Alive\r\n\r\n" }

theorem build_http11 : http11.build_request (bytes "http://h/") = .ok http11Built := by
  decide +kernel

theorem readable_http11 : http11.Readable (bytes "http://h/") :=
  ⟨rfl, by decide, by decide +kernel⟩

/-- One request is read, and nine bytes of the answer are taken for the
    whole of it. -/
def http11Run : List BenchStep :=
  [.turn, .test, .server (.read ⟨http11Built.request, 7, .wrote 9⟩), .read 9]

theorem valid_http11Run : (keepAlive Main.httpCallback http11Built.request false).Valid
    (Bench.start (HttpConnection.established "c" 0 0 5 false Epoll.new)) http11Run :=
  ⟨⟨rfl, rfl⟩, ⟨rfl, rfl⟩, ⟨rfl, by decide +kernel, List.prefix_refl _⟩,
    ⟨rfl, rfl, by decide, by decide, by decide +kernel⟩, trivial⟩

theorem keepAlive_goesOn_http11 :
    let m := keepAlive Main.httpCallback http11Built.request false
    let s := m.run (Bench.start (HttpConnection.established "c" 0 0 5 false Epoll.new)) http11Run
    s.server.fault = none ∧ s.server.state_ = .kConnected ∧ s.closed = false ∧
      (∀ p ∈ s.server.handled, http11.Found http11Built (bytes "http://h/") p.1) ∧
      s.server.handled.length ≤ s.requests ∧ (s.phase = .returned → s.failed = 0) ∧
      (s.timerexpired = false →
        m.CanReach (fun s' => s'.counted = s.counted + 1 ∧ s'.speed = s.speed + 1) s) :=
  keepAlive_goesOn build_http11 (by decide +kernel) readable_http11 rfl closesOnlyIfAsked_main false
    "c" 0 0 5 false Epoll.new valid_http11Run

end WebBench

end TinyWS
