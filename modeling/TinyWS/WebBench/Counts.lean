import TinyWS.WebBench.KeepAlive

/-! # What the Benchmark Counts

    A child takes each `read` for one response.  Until the alarm its
    numbers are those of the server, as far as an `int` can hold them, at
    every turn of its loop exactly if each `read` brought everything the
    server had to say: a response that came in parts is counted as many
    times as it had parts, and from then on the child asks before it has
    read.

    The invariant of the good runs (`InStep`) puts one request and at most
    one response on the way. -/

namespace TinyWS

open HttpConnection

namespace WebBench

namespace Bench

/-- Whenever the child is back at the head of its loop, it has counted the
    requests answered, and read all that the server was told to send.  Both
    numbers are kept in an `int`. -/
def Exact (s : Bench) : Prop :=
  s.phase = .head → s.speed = Int32.ofNat s.server.handled.length ∧
    s.bytes = Int32.ofNat s.server.sent.flatten.length

/-- A `read` that brings all there is: nothing is left in the socket or in
    the output buffer. -/
def Drains (s : Bench) : BenchStep → Prop
  | .read n => s.bytesRead + n = s.server.toEndpoint.outputStream.length
  | _ => True

/-- One request is on its way at most, and one answer. -/
structure InStep (httpCallback : HttpCallback) (q : RequestText) (s : Bench) : Prop where
  sync : s.Sync httpCallback q
  undropped : s.server.Undropped
  head : s.phase = .head → s.requests = s.counted ∧ s.server.handled.length = s.counted ∧
    s.bytesRead = s.server.toEndpoint.outputStream.length
  waits : s.phase = .test ∨ s.phase = .read → s.requests = s.counted + 1 ∧
    (s.server.handled.length = s.counted + 1 ∧
        s.server.toEndpoint.outputStream.length < s.bytesRead + 2 ^ 32 ∨
      s.server.handled.length = s.counted ∧
        s.bytesRead = s.server.toEndpoint.outputStream.length)
  running : s.timerexpired = false ∧ s.phase ≠ .returned

end Bench

/-- The lengths of the responses to these requests fit into 32 bits. -/
def ShortResponses (httpCallback : HttpCallback) (requests : HttpRequest → Prop) : Prop :=
  ∀ earlier request, requests request →
    ((respond httpCallback earlier request).appendToBuffer Buffer.new).toString.length < 2 ^ 32

section InStep

variable {httpCallback : HttpCallback} {q : RequestText} {s : Bench}

/-- Nothing is on its way to a server that has answered everything. -/
theorem toServer_eq_nil (hsync : s.Sync httpCallback q)
    (hall : s.server.handled.length = s.requests) : s.toServer = [] := by
  obtain ⟨answered, hbehind⟩ := hsync.behind
  have hle := hbehind.answered_le
  rw [← hbehind.length_handled, hall] at hle
  have hlen := congrArg List.length hsync.stream
  rw [List.length_append] at hlen
  by_contra hne
  have hpos := List.length_pos_of_ne_nil hne
  have hshort : s.server.received.length < (streamOf (List.replicate s.requests q)).length := by
    omega
  have hlt := length_completeIn_lt hshort
  rw [List.length_replicate] at hlt
  omega

theorem Bench.InStep.exact (hin : s.InStep httpCallback q) : s.Exact := by
  intro hphase
  obtain ⟨-, hhandled, hbytes⟩ := hin.head hphase
  constructor
  · rw [hin.sync.counts.speed, hhandled]
  · rw [hin.sync.counts.bytes, hbytes, hin.undropped]

/-- **The next request**, when all the others are answered. -/
theorem inStep_turn (hin : s.InStep httpCallback q) (hphase : s.phase = .head) :
    (s.turn q.text false).InStep httpCallback q := by
  have hsync : (s.turn q.text false).Sync httpCallback q := sync_turn hin.sync hphase
  obtain ⟨hrequests, hhandled, hbytes⟩ := hin.head hphase
  rw [turn_waiting hin.running.1] at hsync ⊢
  refine ⟨hsync, hin.undropped, fun h => (by cases h), fun _ => ⟨?_, .inr ⟨hhandled, hbytes⟩⟩,
    hin.running.1, fun h => (by cases h)⟩
  show s.requests + 1 = s.counted + 1
  omega

theorem inStep_test (hin : s.InStep httpCallback q) (hphase : s.phase = .test) :
    s.test.InStep httpCallback q := by
  have hsync := sync_test hin.sync hphase
  rw [test_waiting hin.running.1] at hsync ⊢
  exact ⟨hsync, hin.undropped, fun h => (by cases h), fun _ => hin.waits (.inl hphase),
    hin.running.1, fun h => (by cases h)⟩

/-- **A read** of all there is: it was the answer. -/
theorem inStep_read (hin : s.InStep httpCallback q) (hphase : s.phase = .read) {n : Nat}
    (hpos : 0 < n) (hn : n ≤ s.unread.length)
    (hall : s.bytesRead + n = s.server.toEndpoint.outputStream.length) :
    (s.read n).InStep httpCallback q := by
  obtain ⟨hrequests, hanswer⟩ := hin.waits (.inr hphase)
  have hhandled : s.server.handled.length = s.counted + 1 := by
    refine (hanswer.resolve_right fun hnone => ?_).1
    have hbytes := hnone.2
    omega
  exact ⟨sync_read hin.sync hn, hin.undropped, fun _ => ⟨hrequests, hhandled, hall⟩,
    fun h => (by rcases h with h | h <;> cases h), hin.running.1, fun h => (by cases h)⟩

/-- A child that has read everything left the output buffer empty. -/
theorem outputBuffer_nil (hsync : s.Sync httpCallback q)
    (hbytes : s.bytesRead = s.server.toEndpoint.outputStream.length) :
    s.server.outputBuffer_.toString = [] := by
  have hread := hsync.read_le
  rw [Endpoint.outputStream, List.length_append] at hbytes
  exact List.length_eq_zero_iff.mp (by omega)

theorem inStep_write (hopen : ¬ AsksToClose httpCallback q) (hin : s.InStep httpCallback q)
    (w : WriteResult)
    (hguard : s.Enabled (.server (.write w))) :
    (s.serve httpCallback (.write w)).InStep httpCallback q := by
  have hsync := sync_server hopen hin.sync (.write w) hguard
  have hadds := adds_handleWrite (h := s.server) w
  have hstream : (s.server.handleWrite w).toEndpoint.outputStream =
      s.server.toEndpoint.outputStream := by
    rw [hadds.stream hin.sync.whole.writing]
    simp
  have hsent : (s.server.handleWrite w).sent = s.server.sent := by
    rw [hadds.sent, List.append_nil]
  have hhandled : (s.server.handleWrite w).handled = s.server.handled := by
    unfold handleWrite
    split <;> rfl
  refine ⟨hsync, ?_, fun h => ?_, fun h => ?_, hin.running⟩
  · show (s.server.handleWrite w).toEndpoint.outputStream = _
    rw [hstream, hin.undropped]
    show _ = (s.server.handleWrite w).sent.flatten
    rw [hsent]
  · show s.requests = s.counted ∧ (s.server.handleWrite w).handled.length = s.counted ∧
      s.bytesRead = (s.server.handleWrite w).toEndpoint.outputStream.length
    rw [hhandled, hstream]
    exact hin.head h
  · show s.requests = s.counted + 1 ∧ ((s.server.handleWrite w).handled.length = s.counted + 1 ∧
        (s.server.handleWrite w).toEndpoint.outputStream.length < s.bytesRead + 2 ^ 32 ∨
      (s.server.handleWrite w).handled.length = s.counted ∧
        s.bytesRead = (s.server.handleWrite w).toEndpoint.outputStream.length)
    rw [hhandled, hstream]
    exact hin.waits h

/-- A message of the server is a response of the callback. -/
theorem length_response_lt
    (hshort : ShortResponses httpCallback fun request => request.untimed = q.toRequest 0)
    {h : HttpConnection} {n answered : Nat} {ls : List SocketEvent}
    (hbehind : Behind httpCallback (List.replicate n q) h ls answered) {message : Bytes}
    (hsent : message ∈ h.sent) : message.length < 2 ^ 32 := by
  rw [hbehind.sent, responses, List.mem_mapIdx] at hsent
  obtain ⟨k, hk, rfl⟩ := hsent
  apply hshort
  obtain ⟨p, hp, heq⟩ := List.mem_map.mp (List.getElem_mem hk)
  rw [← heq]
  exact hbehind.copies p hp

/-- **A read of the server** answers the one request, or none. -/
theorem inStep_serve (hopen : ¬ AsksToClose httpCallback q)
    (hshort : ShortResponses httpCallback fun request => request.untimed = q.toRequest 0)
    (hin : s.InStep httpCallback q) (r : Read) (hguard : s.Enabled (.server (.read r))) :
    (s.serve httpCallback (.read r)).InStep httpCallback q := by
  have hsync := sync_server hopen hin.sync (.read r) hguard
  have hsome : s.toServer ≠ [] := by
    intro hnil
    have hchunk := List.prefix_nil.mp (hnil ▸ hguard.2)
    exact hguard.1 hchunk
  have hphase : s.phase = .test ∨ s.phase = .read := by
    have hrunning := hin.running.2
    cases hp : s.phase with
    | head =>
      obtain ⟨hrequests, hhandled, -⟩ := hin.head hp
      exact absurd (toServer_eq_nil hin.sync (by omega)) hsome
    | test => exact .inl rfl
    | read => exact .inr rfl
    | returned => exact absurd hp hrunning
  obtain ⟨hrequests, hanswer⟩ := hin.waits hphase
  -- the request on its way is not answered yet
  obtain ⟨hhandled, hbytes⟩ := hanswer.resolve_left fun hdone =>
    hsome (toServer_eq_nil hin.sync (hdone.1.trans hrequests.symm))
  have hroom := outputBuffer_nil hin.sync hbytes
  have hfinds : FindsRoom httpCallback s.server (.read r) := .inr hroom
  have hundropped := (hin.sync.whole.undropped_next hin.undropped (.read r)).mpr hfinds
  obtain ⟨answered, hbehind⟩ := hin.sync.behind
  obtain ⟨-, hnext⟩ := (behind_chunk hin.sync hbehind hguard.2).read
    (open_replicate hopen s.requests)
  obtain ⟨messages, hnonempty, hadds⟩ : ∃ messages, (∀ m ∈ messages, m ≠ []) ∧
      s.server.toEndpoint.Adds (handleRead httpCallback s.server r).toEndpoint messages :=
    adds_handleRead hin.sync.whole.awaits r
  have hspeed := hbehind.length_handled.symm.trans hhandled
  have hcount := hnext.length_handled
  refine ⟨hsync, hundropped, fun h => ?_, fun _ => ⟨hrequests, ?_⟩, hin.running⟩
  · have hnot : s.phase ≠ .head := by
      rcases hphase with hp | hp <;> rw [hp] <;> decide
    exact absurd h hnot
  · have hle := (behind_chunk hin.sync hbehind hguard.2).answered_le
    have hmono := length_completeIn_mono (List.replicate s.requests q)
      (Nat.le_add_right s.server.received.length r.chunk.length)
    have hlen := congrArg List.length hadds.sent
    rw [List.length_append, hnext.length_sent, hbehind.length_sent, ← hcount, hspeed] at hlen
    have hstream := hadds.stream hin.sync.whole.writing
    rw [if_pos hroom] at hstream
    show (handleRead httpCallback s.server r).handled.length = s.counted + 1 ∧
        (handleRead httpCallback s.server r).toEndpoint.outputStream.length < s.bytesRead + 2 ^ 32 ∨
      (handleRead httpCallback s.server r).handled.length = s.counted ∧
        s.bytesRead = (handleRead httpCallback s.server r).toEndpoint.outputStream.length
    by_cases hone : (handleRead httpCallback s.server r).handled.length = s.counted + 1
    · -- one answer
      obtain ⟨message, rfl⟩ : ∃ message, messages = [message] :=
        List.length_eq_one_iff.mp (by omega)
      have hsent : message ∈ (handleRead httpCallback s.server r).sent := by
        rw [hadds.sent]
        exact List.mem_append_right _ List.mem_cons_self
      have hfits := length_response_lt hshort hnext hsent
      refine .inl ⟨hone, ?_⟩
      rw [hstream, List.flatten_singleton, List.length_append]
      omega
    · -- no answer, and no message
      have hsame : (handleRead httpCallback s.server r).handled.length = s.counted := by
        omega
      have hnil : messages = [] := List.length_eq_zero_iff.mp (by omega)
      refine .inr ⟨hsame, ?_⟩
      rw [hstream, hnil, List.flatten_nil, List.append_nil]
      exact hbytes

/-- An `int` tells numbers apart that differ by less than 2^32. -/
theorem ofNat_ne {m n : Nat} (hlt : m < n) (hnear : n < m + 2 ^ 32) :
    Int32.ofNat m ≠ Int32.ofNat n := by
  intro heq
  have hmod := congrArg (fun x : Int32 => x.toUInt32.toNat) heq
  change m % 2 ^ 32 = n % 2 ^ 32 at hmod
  omega

/-- **A read that leaves something behind** is counted, but its bytes are
    missing. -/
theorem not_exact_read (hin : s.InStep httpCallback q) (hphase : s.phase = .read) {n : Nat}
    (hn : n ≤ s.unread.length)
    (hleft : s.bytesRead + n ≠ s.server.toEndpoint.outputStream.length) : ¬ (s.read n).Exact := by
  intro hexact
  have hbytes : (s.read n).bytes = Int32.ofNat s.server.sent.flatten.length := (hexact rfl).2
  rw [(counts_read hin.sync.counts n).bytes, ← hin.undropped] at hbytes
  have hread := hin.sync.read_le
  have hwritten := length_written_le (h := s.server)
  rw [Bench.unread, List.length_drop] at hn
  have hnear : s.server.toEndpoint.outputStream.length < s.bytesRead + 2 ^ 32 := by
    rcases (hin.waits (.inr hphase)).2 with ⟨-, hanswer⟩ | ⟨-, hnone⟩
    · exact hanswer
    · omega
  exact ofNat_ne (m := s.bytesRead + n) (by omega) (by omega) hbytes

end InStep

theorem inStep_start (httpCallback : HttpCallback) (q : RequestText) (name : String) (loop : LoopId)
    (self : ChannelPtr) (fd : Int) (writeComplete : Bool) (epoll : Epoll) :
    (Bench.start (HttpConnection.established name loop self fd writeComplete epoll)).InStep
      httpCallback q where
  sync := sync_start httpCallback q name loop self fd writeComplete epoll
  undropped := rfl
  head _ := ⟨rfl, rfl, rfl⟩
  waits h := by rcases h with h | h <;> cases h
  running := ⟨rfl, fun h => by cases h⟩

/-- **When the counts are right**: for every URL and all options with which
    the server can read the request, every callback that closes only if
    asked and whose responses to the child are shorter than 2^32 bytes, and
    every run before the alarm of a child that waits for its answers: at
    every turn of the loop `speed` is the number of requests that the server
    answered, and `bytes` that of the bytes it sent, as far as an `int`
    holds them, if and only if every `read` brought all that the server had
    sent. -/
theorem keepAlive_exact {b b' : Globals} {url : Bytes} (hbuild : b.build_request url = .ok b')
    (hcrlf : Lines.findPair cr lf url = none) (hread : b.Readable url) (hkeep : b.keep_alive = true)
    {httpCallback : HttpCallback} (hcloses : ClosesOnlyIfAsked httpCallback)
    (hshort : ShortResponses httpCallback (b.Found b' url)) (name : String) (loop : LoopId)
    (self : ChannelPtr) (fd : Int) (writeComplete : Bool) (epoll : Epoll) {ls : List BenchStep}
    (hls : (keepAlive httpCallback b'.request false).Valid
      (Bench.start (HttpConnection.established name loop self fd writeComplete epoll)) ls)
    (halarm : ∀ interrupts, BenchStep.alarm interrupts ∉ ls) :
    let m := keepAlive httpCallback b'.request false
    let s₀ := Bench.start (HttpConnection.established name loop self fd writeComplete epoll)
    (∀ pre, pre <+: ls → (m.run s₀ pre).Exact) ↔ m.Along Bench.Drains s₀ ls := by
  intro m s₀
  obtain ⟨q, htext, hfound⟩ :=
    Globals.exists_requestText (Globals.built_of_build hbuild) hcrlf hread
  have hopen := not_asksToClose hcloses hkeep hfound
  have hcopies : ShortResponses httpCallback fun request => request.untimed = q.toRequest 0 := by
    intro earlier request hcopy
    have hq := hfound 0
    rw [← hcopy] at hq
    exact hshort earlier request hq.of_untimed
  have hm : m = keepAlive httpCallback q.text false := by rw [htext]
  rw [hm]
  rw [← htext] at hls
  refine (keepAlive httpCallback q.text false).always_iff_along
    (fun s ls => s.InStep httpCallback q ∧ (keepAlive httpCallback q.text false).Valid s ls ∧
      ∀ interrupts, BenchStep.alarm interrupts ∉ ls) Bench.Exact
    (fun s ls h => h.1.exact) ?_ ?_
    ⟨inStep_start httpCallback q name loop self fd writeComplete epoll, hls, halarm⟩
  · rintro s l ls ⟨hin, ⟨hguard, hvalid⟩, hnone⟩ hcond
    refine ⟨?_, hvalid, fun interrupts hmem => hnone interrupts (List.mem_cons_of_mem _ hmem)⟩
    cases l with
    | turn => exact inStep_turn hin hguard.2
    | test => exact inStep_test hin hguard.2
    | read n => exact inStep_read hin hguard.2.1 hguard.2.2.1 hguard.2.2.2.2 hcond
    | close => exact absurd hguard.2 hin.sync.open_
    | alarm interrupts => exact absurd List.mem_cons_self (hnone interrupts)
    | server l =>
      cases l with
      | read r => exact inStep_serve hopen hcopies hin r hguard.2
      | write w => exact inStep_write hopen hin w hguard.2
  · rintro s l ls ⟨hin, ⟨hguard, -⟩, -⟩ hcond
    cases l with
    | read n => exact not_exact_read hin hguard.2.1 hguard.2.2.2.2 hcond
    | turn | test | alarm interrupts | server l | close => exact absurd trivial hcond

/-- The response of `main.cpp` to the child. -/
theorem shortResponses_http11 :
    ShortResponses Main.httpCallback (http11.Found http11Built (bytes "http://h/")) := by
  intro earlier request hfound
  have hopen : decide (request.getHeader (bytes "Connection") = bytes "close") = false := by
    rw [hfound.connection]
    decide
  have hresponse : respond Main.httpCallback earlier request =
      ((((HttpResponse.new false).setBody (bytes "Hello World!")).setStatusCode .k200OK
        |>.setStatusMessage (bytes "OK")).addHeader (bytes "server") (bytes "tinyWS")).addHeader
          (bytes "User-Agent") (bytes "WebBench 1.5") := by
    rw [respond, hopen, Main.httpCallback, hfound.agent]
  rw [hresponse]
  decide +kernel

/-- The read of nine bytes out of an answer. -/
theorem keepAlive_exact_http11 :
    let m := keepAlive Main.httpCallback http11Built.request false
    let s₀ := Bench.start (HttpConnection.established "c" 0 0 5 false Epoll.new)
    (∀ pre, pre <+: http11Run → (m.run s₀ pre).Exact) ↔ m.Along Bench.Drains s₀ http11Run :=
  keepAlive_exact build_http11 (by decide +kernel) readable_http11 rfl closesOnlyIfAsked_main
    shortResponses_http11 "c" 0 0 5 false Epoll.new valid_http11Run (by
      intro interrupts
      simp [http11Run])

end WebBench

end TinyWS
