import TinyWS.WebBench.KeepAlive

/-! # The Default Benchmark Aborts the Server

    A child that is not told otherwise asks for HTTP/1.0.  The server
    rejects the first line, answers with a 400 and shuts down, and the
    rejected line stays in the buffer with the method in the request.  The
    child counts the 400 as a success and writes its request again on the
    same connection.  Bytes that arrive before the server finds the end of
    the stream it has shut make it parse the line a second time, and
    `setMethod` asserts.

    A connection goes through three stages: the first line is not complete
    (`Quiet`), it was rejected (`Refused`), the server is gone. -/

namespace TinyWS

open HttpConnection

namespace WebBench

/-- The first line of the request is rejected, with the method set. -/
def Refuses (req : Bytes) : Prop :=
  ∃ line lines c, (Lines.splitLines cr lf req).1 = line :: lines ∧
    HttpContext.new.processRequestLine line = .ok (false, c) ∧ ¬ ValidRequestLine line ∧ c.Spoilt

theorem refuses_request {b b' : Globals} {url : Bytes} (hb : Globals.Built b b' url)
    (hcrlf : Lines.findPair cr lf url = none) (hknown : b.Known) (hr : ¬ b.Readable url)
    (hu : ¬ b.Unfinished url) : Refuses b'.request := by
  obtain ⟨hlines, hvalid⟩ := Globals.firstLine_request hb hcrlf
  have hinvalid : ¬ ValidRequestLine (b'.line (b.target url)) := fun hv =>
    (hvalid.mp hv).elim hr hu
  have hnew : HttpContext.new.request_.method_ = .kInvalid := rfl
  obtain ⟨isOk, c, hline, hok⟩ :=
    HttpContext.processRequestLine_isOk hnew (b'.line (b.target url))
  have hbad : isOk = false := by
    rw [← Bool.not_eq_true, hok]
    exact hinvalid
  rw [hbad] at hline
  refine ⟨_, _, c, hlines, hline, hinvalid, ?_⟩
  have hmethod := HttpContext.method_processRequestLine (Globals.space_not_mem_name b'.method) hline
  have hstate := HttpContext.processRequestLine_state hline
  refine ⟨hstate, ?_⟩
  rw [hmethod, hb.method]
  rcases hknown with hm | hm <;> rw [hm] <;> decide

/-- The first line is not complete, and the server has said nothing. -/
structure Quiet (h : HttpConnection) : Prop where
  fault : h.fault = none
  state_ : h.state_ = .kConnected
  context_ : h.context_ = HttpContext.new
  input : h.inputBuffer_.toString = h.received
  incomplete : Lines.findPair cr lf h.received = none
  silent : h.calls = []
  output : h.outputBuffer_.toString = []

/-- The first line was rejected, and the 400 is in the stream. -/
structure Refused (h : HttpConnection) : Prop where
  fault : h.fault = none
  spoilt : h.context_.Spoilt
  line : HttpContext.BlankInFirstLine h.inputBuffer_.toString
  answer : h.toEndpoint.outputStream ≠ []

/-- Requests go in, and none is lost on the way. -/
def Bench.Stream (req : Bytes) (s : Bench) : Prop :=
  s.server.received ++ s.toServer = (List.replicate s.requests req).flatten

/-- Without an answer there is no second request. -/
def Bench.Once (s : Bench) : Prop :=
  s.requests = 0 ∨ s.requests = 1 ∧ (s.phase = .head → s.timerexpired = true)

/-- A run towards the assertion. -/
structure Bench.Doomed (req : Bytes) (s : Bench) : Prop where
  counts : s.Counts
  handled : s.server.handled = []
  waits : s.phase = .test ∨ s.phase = .read → s.requests ≠ 0
  /-- Nothing is read before the first request is answered. -/
  fresh : s.requests = 0 ∨ s.requests = 1 ∧ (s.phase = .test ∨ s.phase = .read) → s.bytesRead = 0
  read_le : s.bytesRead ≤ (written s.server.calls).length
  writing : s.server.toEndpoint.WritingIffBuffered
  stage : (Quiet s.server ∧ s.Once ∨ Refused s.server ∧ s.server.received.length ≤ req.length) ∧
      s.Stream req ∨
    s.server.fault = some .setMethodAssert

/-! ## The server's events -/

section Event

variable {httpCallback : HttpCallback} {req : Bytes} {h : HttpConnection} {r : Read}

/-- The first line of the request is still on its way. -/
theorem quiet_read_more (hquiet : Quiet h)
    (hnone : Lines.findPair cr lf (h.received ++ r.chunk) = none) :
    ∃ buffer : Buffer, buffer.toString = h.received ++ r.chunk ∧
      handleRead httpCallback h r = h.parsed r HttpContext.new buffer := by
  have hpending : h.pending r = h.received ++ r.chunk := by
    rw [pending, hquiet.input]
  have hexpects : h.context_.Expecting := by
    rw [hquiet.context_]
    exact HttpContext.expecting_new
  have hfeed : h.context_.feed r.receiveTime (h.pending r) =
      .ok (true, HttpContext.new, h.received ++ r.chunk) := by
    rw [hpending, hquiet.context_]
    exact HttpContext.feed_of_none hnone
  exact handleRead_more httpCallback r hquiet.fault hexpects hfeed (by decide)

/-- The first line is complete: it is rejected. -/
theorem quiet_read_line (hrefuses : Refuses req) (hquiet : Quiet h)
    (hpart : h.received ++ r.chunk <+: req)
    (hsome : Lines.findPair cr lf (h.received ++ r.chunk) ≠ none) :
    ∃ (c : HttpContext) (buffer : Buffer), c.Spoilt ∧
      buffer.toString = h.received ++ r.chunk ∧
      HttpContext.BlankInFirstLine buffer.toString ∧
      handleRead httpCallback h r =
        ((h.parsed r c buffer).send badRequest r.w).shutdown := by
  obtain ⟨line, lines, c, hlines, hline, hinvalid, hspoilt⟩ := hrefuses
  obtain ⟨more, hmore⟩ := hpart
  -- the first line of what was received is that of the request
  have hfirst : ∃ ks, (Lines.splitLines cr lf (h.received ++ r.chunk)).1 = line :: ks := by
    have happend :=
      congrArg Prod.fst (Lines.splitLines_append cr_ne_lf (h.received ++ r.chunk) more)
    rw [hmore, hlines] at happend
    cases hfound : Lines.findPair cr lf (h.received ++ r.chunk) with
    | none => exact absurd hfound hsome
    | some i =>
      rw [Lines.splitLines_of_some cr_ne_lf hfound] at happend ⊢
      have hhead := List.head_eq_of_cons_eq happend
      exact ⟨_, by rw [hhead]⟩
  obtain ⟨ks, hks⟩ := hfirst
  have hpending : h.pending r = h.received ++ r.chunk := by
    rw [pending, hquiet.input]
  have hexpects : h.context_.Expecting := by
    rw [hquiet.context_]
    exact HttpContext.expecting_new
  obtain ⟨hfeed, hparsed⟩ := HttpContext.feed_rejected rfl rfl hks hline hinvalid r.receiveTime
  rw [← hquiet.context_, ← hpending] at hfeed
  obtain ⟨buffer, hbuffer, heq⟩ := handleRead_rejected httpCallback r hquiet.fault hexpects hfeed (by
    rw [hspoilt.1]
    decide)
  rw [hpending] at hbuffer
  refine ⟨c, buffer, hspoilt, hbuffer, ?_, heq⟩
  rw [hbuffer]
  exact hparsed.rejected hspoilt

/-- **The refusal**: a 400 goes into the stream. -/
theorem refused_of_line {r : Read} (hquiet : Quiet h) (hwriting : h.toEndpoint.WritingIffBuffered)
    {c : HttpContext} (hspoilt : c.Spoilt) {buffer : Buffer}
    (hline : HttpContext.BlankInFirstLine buffer.toString)
    (heq : handleRead httpCallback h r = ((h.parsed r c buffer).send badRequest r.w).shutdown) :
    Refused (handleRead httpCallback h r) ∧
      (handleRead httpCallback h r).toEndpoint.WritingIffBuffered := by
  have hconnected : (h.parsed r c buffer).state_ = .kConnected := hquiet.state_
  have hparsed := (adds_parsed (h := h) r c buffer).writing hwriting
  have hadds : (h.parsed r c buffer).toEndpoint.Adds
      ((h.parsed r c buffer).send badRequest r.w).shutdown.toEndpoint [badRequest] := by
    have hsend := (Endpoint.adds_send (h.parsed r c buffer).toEndpoint badRequest r.w).trans
      (Endpoint.adds_shutdown _)
    rw [if_pos hconnected] at hsend
    exact hsend
  have hstream := hadds.stream hparsed
  have hempty : (h.parsed r c buffer).outputBuffer_.toString = [] := hquiet.output
  rw [if_pos hempty] at hstream
  rw [heq]
  refine ⟨⟨hquiet.fault, hspoilt, ?_, ?_⟩, hadds.writing hparsed⟩
  · rw [inputBuffer_badRequest]
    exact hline
  · intro hnil
    rw [hstream, List.append_eq_nil_iff] at hnil
    exact absurd hnil.2 (by decide +kernel)

variable (httpCallback) in
/-- **The assertion**: the line is parsed again. -/
theorem refused_read (hrefused : Refused h) (r : Read) :
    handleRead httpCallback h r = { h.deliver r.chunk with fault := some .setMethodAssert } := by
  have hfeed := HttpContext.feed_spoilt hrefused.spoilt r.receiveTime
    (HttpContext.blankInFirstLine_append hrefused.line r.chunk)
  exact handleRead_fault httpCallback r hrefused.fault (.inl hrefused.spoilt.1) hfeed

/-- A part of the 400 is written. -/
theorem refused_write (hrefused : Refused h) (hwriting : h.toEndpoint.WritingIffBuffered)
    (w : WriteResult) : Refused (h.handleWrite w) := by
  rw [handleWrite_eq hrefused.fault]
  refine ⟨hrefused.fault, hrefused.spoilt, ?_, ?_⟩
  · show HttpContext.BlankInFirstLine (h.toEndpoint.handleWrite w).inputBuffer_.toString
    rw [(Endpoint.sameLife_handleWrite h.toEndpoint w).inputBuffer_]
    exact hrefused.line
  · show (h.toEndpoint.handleWrite w).outputStream ≠ []
    rw [Endpoint.outputStream_handleWrite hwriting w]
    exact hrefused.answer

end Event

/-! ## The steps -/

section Steps

variable {httpCallback : HttpCallback} {req : Bytes} {s : Bench}

/-- What the server reads is no longer on its way. -/
theorem stream_serve (hstream : s.Stream req) {r : Read} (hcoming : r.chunk <+: s.toServer)
    (hrec : (handleRead httpCallback s.server r).received = s.server.received ++ r.chunk) :
    (s.serve httpCallback (.read r)).Stream req := by
  obtain ⟨more, hmore⟩ := hcoming
  show (handleRead httpCallback s.server r).received ++ s.toServer.drop r.chunk.length = _
  rw [hrec, ← hmore, List.drop_left, List.append_assoc, hmore]
  exact hstream

/-- What the child does alone keeps the stage, if it keeps the books of the
    requests. -/
theorem stage_child (hdoomed : s.Doomed req) {s' : Bench} (hserver : s'.server = s.server)
    (honce : s.Once → s'.Once) (hstream : s.Stream req → s'.Stream req) :
    (Quiet s'.server ∧ s'.Once ∨ Refused s'.server ∧ s'.server.received.length ≤ req.length) ∧
        s'.Stream req ∨
      s'.server.fault = some .setMethodAssert := by
  rw [hserver]
  rcases hdoomed.stage with ⟨⟨hquiet, h⟩ | hrefused, hstreams⟩ | hfault
  · exact .inl ⟨.inl ⟨hquiet, honce h⟩, hstream hstreams⟩
  · exact .inl ⟨.inr hrefused, hstream hstreams⟩
  · exact .inr hfault

/-- With one request on its way, all that comes is a part of it. -/
theorem prefix_of_stream (hstream : s.Stream req) (hone : s.requests = 1) {chunk : Bytes}
    (hcoming : chunk <+: s.toServer) : s.server.received ++ chunk <+: req := by
  have hreq : s.server.received ++ s.toServer = req := by
    rw [Bench.Stream, hone] at hstream
    simpa using hstream
  rw [← hreq]
  exact (List.prefix_append_right_inj _).mpr hcoming

/-- **A read of the server** on the way to the assertion. -/
theorem doomed_serve (hrefuses : Refuses req) (hdoomed : s.Doomed req) {r : Read}
    (hchunk : r.chunk ≠ []) (hcoming : r.chunk <+: s.toServer) :
    (s.serve httpCallback (.read r)).Doomed req := by
  have hcounts : (s.serve httpCallback (.read r)).Counts := hdoomed.counts.server _ _ _
  have hstays :
      s.server.toEndpoint.Stays (handleEvent httpCallback s.server (.read r)).toEndpoint :=
    stays_handleEvent hdoomed.writing (.read r)
  have hlate : s.bytesRead ≤ (written (handleRead httpCallback s.server r).calls).length :=
    hdoomed.read_le.trans (length_written_mono hstays.calls)
  suffices hserver : (handleRead httpCallback s.server r).handled = [] ∧
      (handleRead httpCallback s.server r).toEndpoint.WritingIffBuffered ∧
      ((Quiet (handleRead httpCallback s.server r) ∧ s.Once ∨
          Refused (handleRead httpCallback s.server r) ∧
            (handleRead httpCallback s.server r).received.length ≤ req.length) ∧
          (s.serve httpCallback (.read r)).Stream req ∨
        (handleRead httpCallback s.server r).fault = some .setMethodAssert) from
    ⟨hcounts, hserver.1, hdoomed.waits, hdoomed.fresh, hlate, hserver.2.1, hserver.2.2⟩
  rcases hdoomed.stage with ⟨⟨hquiet, honce⟩ | ⟨hrefused, -⟩, hstream⟩ | hfault
  · -- only the first request can be on its way
    have hone : s.requests = 1 := by
      refine And.left (honce.resolve_left fun hzero => ?_)
      rw [Bench.Stream, hzero, List.replicate_zero, List.flatten_nil,
        List.append_eq_nil_iff] at hstream
      rw [hstream.2, List.prefix_nil] at hcoming
      exact hchunk hcoming
    have hpart : s.server.received ++ r.chunk <+: req := prefix_of_stream hstream hone hcoming
    by_cases hnone : Lines.findPair cr lf (s.server.received ++ r.chunk) = none
    · obtain ⟨buffer, hbuffer, heq⟩ : ∃ buffer : Buffer,
          buffer.toString = s.server.received ++ r.chunk ∧
            handleRead httpCallback s.server r = s.server.parsed r HttpContext.new buffer :=
        quiet_read_more hquiet hnone
      have hnext : (s.serve httpCallback (.read r)).Stream req :=
        stream_serve hstream hcoming (by rw [heq]; rfl)
      rw [heq]
      exact ⟨hdoomed.handled,
        (adds_parsed (h := s.server) r HttpContext.new buffer).writing hdoomed.writing,
        .inl ⟨.inl ⟨⟨hquiet.fault, hquiet.state_, rfl, hbuffer, hnone, hquiet.silent,
          hquiet.output⟩, honce⟩, hnext⟩⟩
    · obtain ⟨c, buffer, hspoilt, -, hline, heq⟩ : ∃ (c : HttpContext) (buffer : Buffer),
          c.Spoilt ∧ buffer.toString = s.server.received ++ r.chunk ∧
            HttpContext.BlankInFirstLine buffer.toString ∧ handleRead httpCallback s.server r =
              ((s.server.parsed r c buffer).send badRequest r.w).shutdown :=
        quiet_read_line hrefuses hquiet hpart hnone
      obtain ⟨hrefused, hwriting⟩ := refused_of_line hquiet hdoomed.writing hspoilt hline heq
      have hrec : (handleRead httpCallback s.server r).received = s.server.received ++ r.chunk := by
        rw [heq]
        rfl
      refine ⟨?_, hwriting, .inl ⟨.inr ⟨hrefused, ?_⟩, stream_serve hstream hcoming hrec⟩⟩
      · rw [heq]
        exact hdoomed.handled
      · rw [hrec]
        exact hpart.length_le
  · rw [refused_read httpCallback hrefused r]
    exact ⟨hdoomed.handled, hdoomed.writing, .inr rfl⟩
  · have hstop : handleRead httpCallback s.server r = s.server :=
      handleRead_of_fault r (by rw [hfault]; simp)
    rw [hstop]
    exact ⟨hdoomed.handled, hdoomed.writing, .inr hfault⟩

/-- **A write of the server**: a part of the 400. -/
theorem doomed_flush (hdoomed : s.Doomed req) (w : WriteResult)
    (hw : s.server.channel_.isWriting = true) :
    (s.serve httpCallback (.write w)).Doomed req := by
  have hstays :
      s.server.toEndpoint.Stays (handleEvent httpCallback s.server (.write w)).toEndpoint :=
    stays_handleEvent hdoomed.writing (.write w)
  have hhandled : (s.server.handleWrite w).handled = s.server.handled := by
    unfold handleWrite
    split <;> rfl
  refine ⟨hdoomed.counts.server _ _ _, hhandled.trans hdoomed.handled, hdoomed.waits, hdoomed.fresh,
    hdoomed.read_le.trans (length_written_mono hstays.calls),
    (adds_handleWrite (h := s.server) w).writing hdoomed.writing, ?_⟩
  rcases hdoomed.stage with ⟨⟨hquiet, -⟩ | ⟨hrefused, hshort⟩, hstream⟩ | hfault
  · exact absurd hquiet.output (hdoomed.writing.mp hw)
  · refine .inl ⟨.inr ⟨refused_write hrefused hdoomed.writing w, ?_⟩, ?_⟩
    · show (s.server.handleWrite w).received.length ≤ req.length
      rw [received_handleWrite]
      exact hshort
    · show (s.server.handleWrite w).received ++ s.toServer.drop 0 = _
      rw [received_handleWrite]
      exact hstream
  · have hstop : s.server.handleWrite w = s.server := by
      rw [handleWrite, if_pos (by rw [hfault]; rfl)]
    refine .inr ?_
    show (s.server.handleWrite w).fault = _
    rw [hstop]
    exact hfault

theorem doomed_turn (hdoomed : s.Doomed req) (hphase : s.phase = .head) :
    (s.turn req false).Doomed req := by
  have hcounts : (s.turn req false).Counts := counts_turn hdoomed.counts hphase req
  by_cases hexp : s.timerexpired = true
  · rw [turn_expired hexp] at hcounts ⊢
    refine ⟨hcounts, hdoomed.handled, fun h => (by rcases h with h | h <;> cases h), ?_,
      hdoomed.read_le, hdoomed.writing, ?_⟩
    · rintro (hzero | ⟨-, h | h⟩)
      · exact hdoomed.fresh (.inl hzero)
      · cases h
      · cases h
    · exact stage_child hdoomed rfl
        (fun honce => honce.imp_right fun h => ⟨h.1, fun hp => by cases hp⟩) id
  · rw [turn_waiting (by simpa using hexp)] at hcounts ⊢
    refine ⟨hcounts, hdoomed.handled, fun _ => Nat.succ_ne_zero _, ?_, hdoomed.read_le,
      hdoomed.writing, ?_⟩
    · intro hfirst
      have hzero : s.requests = 0 := by
        have hsucc : s.requests + 1 = 0 ∨ s.requests + 1 = 1 := hfirst.imp_right And.left
        omega
      exact hdoomed.fresh (.inl hzero)
    · have hnext : s.Stream req → s.server.received ++ (s.toServer ++ req) =
          (List.replicate (s.requests + 1) req).flatten := by
        intro hstream
        rw [← List.append_assoc, hstream, List.replicate_succ', List.flatten_append,
          List.flatten_singleton]
      refine stage_child hdoomed rfl (fun honce => .inr ⟨?_, fun hp => by cases hp⟩) hnext
      -- no request was written before
      have hzero : s.requests = 0 := honce.resolve_right fun h => hexp (h.2 hphase)
      show s.requests + 1 = 1
      rw [hzero]

theorem doomed_test (hdoomed : s.Doomed req) (hphase : s.phase = .test) : s.test.Doomed req := by
  have hcounts := counts_test hdoomed.counts hphase
  have hne := hdoomed.waits (.inl hphase)
  have hfresh : s.requests = 0 ∨ s.requests = 1 → s.bytesRead = 0 := fun h =>
    hdoomed.fresh (h.imp_right fun hone => ⟨hone, .inl hphase⟩)
  revert hcounts
  unfold Bench.test
  split
  · next hexp =>
    intro hcounts
    refine ⟨hcounts, hdoomed.handled, fun _ => hne, fun h => hfresh (h.imp_right And.left),
      hdoomed.read_le, hdoomed.writing, ?_⟩
    exact stage_child hdoomed rfl (fun honce => honce.imp_right fun h => ⟨h.1, fun _ => hexp⟩) id
  · intro hcounts
    refine ⟨hcounts, hdoomed.handled, fun _ => hne, fun h => hfresh (h.imp_right And.left),
      hdoomed.read_le, hdoomed.writing, ?_⟩
    exact stage_child hdoomed rfl
      (fun honce => honce.imp_right fun h => ⟨h.1, fun hp => by cases hp⟩) id

/-- A `read` returns only behind a refusal. -/
theorem doomed_read (hdoomed : s.Doomed req) (hphase : s.phase = .read) {n : Nat} (hpos : 0 < n)
    (hn : n ≤ s.unread.length) : (s.read n).Doomed req := by
  have hloud : ¬ Quiet s.server := by
    intro hquiet
    have hnone : s.unread = [] := by simp [Bench.unread, hquiet.silent, written]
    rw [hnone] at hn
    exact absurd hpos (Nat.not_lt.mpr hn)
  refine ⟨counts_read hdoomed.counts n, hdoomed.handled,
    fun h => (by rcases h with h | h <;> cases h), ?_, ?_, hdoomed.writing, ?_⟩
  · rintro (hzero | ⟨-, h | h⟩)
    · exact absurd hzero (hdoomed.waits (.inr hphase))
    · cases h
    · cases h
  · have hread := hdoomed.read_le
    rw [Bench.unread, List.length_drop] at hn
    show s.bytesRead + n ≤ (written s.server.calls).length
    omega
  · rcases hdoomed.stage with ⟨⟨hquiet, -⟩ | hrefused, hstream⟩ | hfault
    · exact absurd hquiet hloud
    · exact .inl ⟨.inr hrefused, hstream⟩
    · exact .inr hfault

theorem doomed_alarm (hdoomed : s.Doomed req) (hearly : s.timerexpired = false)
    (interrupts : Bool) : (s.alarm interrupts).Doomed req := by
  have hcounts := counts_alarm hdoomed.counts hearly interrupts
  revert hcounts
  unfold Bench.alarm
  split
  · intro hcounts
    refine ⟨hcounts, hdoomed.handled, fun h => (by rcases h with h | h <;> cases h), ?_,
      hdoomed.read_le, hdoomed.writing, ?_⟩
    · rintro (hzero | ⟨-, h | h⟩)
      · exact hdoomed.fresh (.inl hzero)
      · cases h
      · cases h
    · exact stage_child hdoomed rfl
        (fun honce => honce.imp_right fun h => ⟨h.1, fun _ => rfl⟩) id
  · intro hcounts
    refine ⟨hcounts, hdoomed.handled, hdoomed.waits, hdoomed.fresh, hdoomed.read_le,
      hdoomed.writing, ?_⟩
    exact stage_child hdoomed rfl
      (fun honce => honce.imp_right fun h => ⟨h.1, fun _ => rfl⟩) id

/-- **Every step** leads on. -/
theorem doomed_next (hrefuses : Refuses req) (hdoomed : s.Doomed req) (l : BenchStep)
    (hguard : (keepAlive httpCallback req false).guard s l) :
    ((keepAlive httpCallback req false).next s l).Doomed req := by
  cases l with
  | turn => exact doomed_turn hdoomed hguard.2
  | test => exact doomed_test hdoomed hguard.2
  | read n => exact doomed_read hdoomed hguard.2.1 hguard.2.2.1 hguard.2.2.2.2
  | alarm interrupts => exact doomed_alarm hdoomed hguard.2.1 interrupts
  | server l =>
    cases l with
    | read r => exact doomed_serve hrefuses hdoomed hguard.2.1 hguard.2.2
    | write w => exact doomed_flush hdoomed w hguard.2
  | close =>
    exact ⟨hdoomed.counts.server _ _ _, hdoomed.handled, hdoomed.waits, hdoomed.fresh, hdoomed.read_le,
      hdoomed.writing, hdoomed.stage⟩

end Steps

theorem doomed_start (req : Bytes) (name : String) (loop : LoopId) (self : ChannelPtr) (fd : Int)
    (writeComplete : Bool) (epoll : Epoll) :
    (Bench.start
      (HttpConnection.established name loop self fd writeComplete epoll)).Doomed req where
  counts := counts_start _
  handled := rfl
  waits h := by rcases h with h | h <;> cases h
  fresh _ := rfl
  read_le := Nat.zero_le _
  writing := (whole_established name loop self fd writeComplete epoll).writing
  stage := by
    refine .inl ⟨.inl ⟨⟨rfl, rfl, rfl, ?_, rfl, rfl, ?_⟩, .inl rfl⟩, rfl⟩
    · simp [Bench.start, HttpConnection.established, Endpoint.established,
        Endpoint.connectionEstablished, Endpoint.setState, Endpoint.enableReading, Endpoint.notify,
        TcpConnection.new]
    · simp [Bench.start, HttpConnection.established, Endpoint.established,
        Endpoint.connectionEstablished, Endpoint.setState, Endpoint.enableReading, Endpoint.notify,
        TcpConnection.new]

/-! ## The way to the assertion -/

section Reach

variable {httpCallback : HttpCallback} {req : Bytes} {s : Bench}

variable (httpCallback req) in
/-- The server can still be brought down. -/
def CanAbort (s : Bench) : Prop :=
  (keepAlive httpCallback req false).CanReach
    (fun s' => s'.server.fault = some .setMethodAssert) s

/-- Any byte that is on its way. -/
theorem canAbort_coming (hclosed : s.closed = false) (hrefused : Refused s.server)
    (hcoming : s.toServer ≠ []) : CanAbort httpCallback req s := by
  let r : Read := ⟨s.toServer, 0, .wrote 0⟩
  have hguard : (keepAlive httpCallback req false).guard s (.server (.read r)) :=
    ⟨hclosed, hcoming, List.prefix_refl _⟩
  refine Machine.canReach_step _ hguard (Machine.canReach_now _ ?_)
  show (handleRead httpCallback s.server r).fault = _
  rw [refused_read httpCallback hrefused r]

/-- The child writes its request again. -/
theorem canAbort_head (hreq : req ≠ []) (hclosed : s.closed = false) (hrefused : Refused s.server)
    (hearly : s.timerexpired = false) (hphase : s.phase = .head) : CanAbort httpCallback req s := by
  have hguard : (keepAlive httpCallback req false).guard s .turn := ⟨hclosed, hphase⟩
  refine Machine.canReach_step _ hguard ?_
  show CanAbort httpCallback req (s.turn req false)
  rw [turn_waiting hearly]
  refine canAbort_coming hclosed hrefused ?_
  show s.toServer ++ req ≠ []
  simp [hreq]

/-- A part of the 400, counted as a success. -/
theorem canAbort_unread (hreq : req ≠ []) (hclosed : s.closed = false) (hrefused : Refused s.server)
    (hearly : s.timerexpired = false) (hphase : s.phase = .read) (hunread : s.unread ≠ []) :
    CanAbort httpCallback req s := by
  have hpos := List.length_pos_of_ne_nil hunread
  have hguard : (keepAlive httpCallback req false).guard s (.read 1) :=
    ⟨hclosed, hphase, by omega, by omega, hpos⟩
  exact Machine.canReach_step _ hguard
    (canAbort_head (s := s.read 1) hreq hclosed hrefused hearly rfl)

/-- Nothing is on its way to a server that has refused: the child waits for
    the first byte of the 400. -/
theorem bytesRead_eq_zero (hreq : req ≠ []) (hdoomed : s.Doomed req) (hstream : s.Stream req)
    (hshort : s.server.received.length ≤ req.length) (hnone : s.toServer = [])
    (hphase : s.phase = .read) : s.bytesRead = 0 := by
  have hpos := List.length_pos_of_ne_nil hreq
  have hlen := congrArg List.length hstream
  rw [hnone, List.append_nil, List.length_flatten, List.map_replicate, List.sum_replicate,
    smul_eq_mul] at hlen
  have hle : s.requests ≤ 1 := by
    by_contra hmany
    have htwice : 2 * req.length ≤ s.requests * req.length := Nat.mul_le_mul_right _ (by omega)
    omega
  have hne := hdoomed.waits (.inr hphase)
  exact hdoomed.fresh (.inr ⟨by omega, .inr hphase⟩)

/-- **A child in `read`** gets a part of the 400 and goes on. -/
theorem canAbort_read (hreq : req ≠ []) (hclosed : s.closed = false) (hdoomed : s.Doomed req)
    (hstream : s.Stream req) (hrefused : Refused s.server)
    (hshort : s.server.received.length ≤ req.length) (hearly : s.timerexpired = false)
    (hphase : s.phase = .read) : CanAbort httpCallback req s := by
  by_cases hnone : s.toServer = []
  · have hfirst := bytesRead_eq_zero hreq hdoomed hstream hshort hnone hphase
    by_cases hbuffered : s.server.outputBuffer_.toString = []
    · refine canAbort_unread hreq hclosed hrefused hearly hphase ?_
      have hanswer := hrefused.answer
      rw [Endpoint.outputStream, hbuffered, List.append_nil] at hanswer
      rw [Bench.unread, hfirst, List.drop_zero]
      exact hanswer
    · -- the rest of the 400 is written first
      obtain ⟨w, hwriting, hmore⟩ :=
        unread_flush httpCallback hrefused.fault hdoomed.writing hdoomed.read_le hbuffered
      have hguard : (keepAlive httpCallback req false).guard s (.server (.write w)) :=
        ⟨hclosed, hwriting⟩
      exact Machine.canReach_step _ hguard
        (canAbort_unread (s := s.serve httpCallback (.write w)) hreq hclosed
          (refused_write hrefused hdoomed.writing w) hearly hphase hmore)
  · exact canAbort_coming hclosed hrefused hnone

/-- A refused child anywhere in its loop. -/
theorem canAbort_refused (hreq : req ≠ []) (hclosed : s.closed = false) (hdoomed : s.Doomed req)
    (hstream : s.Stream req) (hrefused : Refused s.server)
    (hshort : s.server.received.length ≤ req.length) (hearly : s.timerexpired = false) :
    CanAbort httpCallback req s := by
  cases hphase : s.phase with
  | head => exact canAbort_head hreq hclosed hrefused hearly hphase
  | test =>
    have hnext := doomed_test hdoomed hphase
    rw [test_waiting hearly] at hnext
    have hguard : (keepAlive httpCallback req false).guard s .test := ⟨hclosed, hphase⟩
    refine Machine.canReach_step _ hguard ?_
    show CanAbort httpCallback req s.test
    rw [test_waiting hearly]
    exact canAbort_read hreq hclosed hnext hstream hrefused hshort hearly rfl
  | read => exact canAbort_read hreq hclosed hdoomed hstream hrefused hshort hearly hphase
  | returned =>
    have hret := (hdoomed.counts.returned hphase).1
    rw [hearly] at hret
    cases hret

/-- **The first request on its way**: the server reads it to its end. -/
theorem canAbort_first (hrefuses : Refuses req) (hclosed : s.closed = false)
    (hdoomed : s.Doomed req) (hquiet : Quiet s.server) (hstream : s.Stream req)
    (hearly : s.timerexpired = false) (hone : s.requests = 1) : CanAbort httpCallback req s := by
  have hall : s.server.received ++ s.toServer = req := by
    rw [Bench.Stream, hone] at hstream
    simpa using hstream
  obtain ⟨line, lines, c, hlines, -⟩ := id hrefuses
  have hcomplete : Lines.findPair cr lf req ≠ none := by
    intro hnone
    rw [Lines.splitLines_of_none hnone] at hlines
    cases hlines
  have hcoming : s.toServer ≠ [] := by
    intro hnil
    rw [hnil, List.append_nil] at hall
    rw [← hall] at hcomplete
    exact hcomplete hquiet.incomplete
  have hreq : req ≠ [] := by
    rintro rfl
    cases hlines
  let r : Read := ⟨s.toServer, 0, .wrote 0⟩
  have hguard : (keepAlive httpCallback req false).guard s (.server (.read r)) :=
    ⟨hclosed, hcoming, List.prefix_refl _⟩
  have hnext : (s.serve httpCallback (.read r)).Doomed req :=
    doomed_serve hrefuses hdoomed hcoming (List.prefix_refl _)
  refine Machine.canReach_step _ hguard ?_
  show CanAbort httpCallback req (s.serve httpCallback (.read r))
  rcases hnext.stage with ⟨⟨hstill, -⟩ | ⟨hrefused, hshort⟩, hlater⟩ | hfault
  · -- the first line would be complete
    have hempty : (s.serve httpCallback (.read r)).toServer = [] :=
      List.drop_of_length_le (Nat.le_refl _)
    have hsame : (s.serve httpCallback (.read r)).requests = 1 := hone
    rw [Bench.Stream, hempty, hsame, List.append_nil] at hlater
    have hreceived : (s.serve httpCallback (.read r)).server.received = req := by
      simpa using hlater
    have hnone := hstill.incomplete
    rw [hreceived] at hnone
    exact absurd hnone hcomplete
  · exact canAbort_refused hreq hclosed hnext hlater hrefused hshort hearly
  · exact Machine.canReach_now _ hfault

/-- **Every run** before the alarm can be brought to the assertion. -/
theorem canAbort (hrefuses : Refuses req) (hdoomed : s.Doomed req) (hclosed : s.closed = false)
    (hearly : s.timerexpired = false) : CanAbort httpCallback req s := by
  have hreq : req ≠ [] := by
    obtain ⟨line, lines, c, hlines, -⟩ := hrefuses
    rintro rfl
    cases hlines
  rcases hdoomed.stage with ⟨⟨hquiet, honce⟩ | ⟨hrefused, hshort⟩, hstream⟩ | hfault
  · rcases honce with hzero | hone
    · -- the child has still to write its request
      have hphase : s.phase = .head := by
        cases hp : s.phase with
        | head => rfl
        | test => exact absurd hzero (hdoomed.waits (.inl hp))
        | read => exact absurd hzero (hdoomed.waits (.inr hp))
        | returned =>
          have hret := (hdoomed.counts.returned hp).1
          rw [hearly] at hret
          cases hret
      have hnext := doomed_turn hdoomed hphase
      have hguard : (keepAlive httpCallback req false).guard s .turn := ⟨hclosed, hphase⟩
      refine Machine.canReach_step _ hguard ?_
      show CanAbort httpCallback req (s.turn req false)
      rw [turn_waiting hearly] at hnext ⊢
      rcases hnext.stage with ⟨⟨hstill, -⟩ | ⟨hrefused, hshort⟩, hlater⟩ | hfault
      · refine canAbort_first hrefuses hclosed hnext hstill hlater hearly ?_
        show s.requests + 1 = 1
        rw [hzero]
      · exact canAbort_refused hreq hclosed hnext hlater hrefused hshort hearly
      · exact Machine.canReach_now _ hfault
    · exact canAbort_first hrefuses hclosed hdoomed hquiet hstream hearly hone.1
  · exact canAbort_refused hreq hclosed hdoomed hstream hrefused hshort hearly
  · exact Machine.canReach_now _ hfault

end Reach

/-- **A request that is not readable brings the server down**: for every URL
    and all options with a GET or a HEAD that the server cannot read, in
    particular for HTTP/1.0, which is the default, and every run of a child
    that waits for its answers: the server handles nothing; it has aborted
    as soon as it has read more than one request; and until the alarm, or
    until it has closed the connection, the run can always go on to the
    point where it aborts. -/
theorem keepAlive_aborts {b b' : Globals} {url : Bytes} (hbuild : b.build_request url = .ok b')
    (hcrlf : Lines.findPair cr lf url = none) (hknown : b.Known) (hread : ¬ b.Readable url)
    (hunfinished : ¬ b.Unfinished url) (httpCallback : HttpCallback)
    (name : String) (loop : LoopId) (self : ChannelPtr) (fd : Int) (writeComplete : Bool)
    (epoll : Epoll) {ls : List BenchStep}
    (hls : (keepAlive httpCallback b'.request false).Valid
      (Bench.start (HttpConnection.established name loop self fd writeComplete epoll)) ls) :
    let s := (keepAlive httpCallback b'.request false).run
      (Bench.start (HttpConnection.established name loop self fd writeComplete epoll)) ls
    s.server.handled = [] ∧
      (s.server.fault = none ∨ s.server.fault = some .setMethodAssert) ∧
      (b'.request.length < s.server.received.length → s.server.fault = some .setMethodAssert) ∧
      (s.closed = false → s.timerexpired = false →
        (keepAlive httpCallback b'.request false).CanReach
          (fun s' => s'.server.fault = some .setMethodAssert) s) := by
  intro s
  have hrefuses := refuses_request (Globals.built_of_build hbuild) hcrlf hknown hread hunfinished
  have hdoomed : s.Doomed b'.request :=
    (keepAlive httpCallback b'.request false).invariant_run (Bench.Doomed b'.request)
      (fun s l hs hguard => doomed_next hrefuses hs l hguard)
      (doomed_start b'.request name loop self fd writeComplete epoll) hls
  refine ⟨hdoomed.handled, ?_, fun hlong => ?_, canAbort hrefuses hdoomed⟩
  · rcases hdoomed.stage with ⟨⟨hquiet, -⟩ | ⟨hrefused, -⟩, -⟩ | hfault
    · exact .inl hquiet.fault
    · exact .inl hrefused.fault
    · exact .inr hfault
  · rcases hdoomed.stage with ⟨⟨-, honce⟩ | ⟨-, hshort⟩, hstream⟩ | hfault
    · -- one request was written at most
      exfalso
      have hlen := congrArg List.length hstream
      rcases honce with hzero | hone
      · rw [hzero, List.length_append, List.replicate_zero, List.flatten_nil,
          List.length_nil] at hlen
        omega
      · rw [hone.1, List.length_append, List.replicate_one, List.flatten_singleton] at hlen
        omega
    · exact absurd hlong (Nat.not_lt.mpr hshort)
    · exact hfault

/-- What `build_request` makes of `http://h/` by default. -/
def defaultBuilt : Globals :=
  { Globals.new with
    host := bytes "h"
    request := bytes "GET / HTTP/1.0\r\nUser-Agent: WebBench 1.5\r\nHost: h\r\n\r\n" }

/-- The 400 comes in one piece, and half of the request follows it. -/
def defaultRun : List BenchStep :=
  [.turn, .test, .server (.read ⟨defaultBuilt.request, 7, .wrote 99⟩), .read 28, .turn, .test,
    .server (.read ⟨bytes "GET /", 8, .wrote 99⟩)]

theorem valid_defaultRun : (keepAlive Main.httpCallback defaultBuilt.request false).Valid
    (Bench.start (HttpConnection.established "c" 0 0 5 false Epoll.new)) defaultRun :=
  ⟨⟨rfl, rfl⟩, ⟨rfl, rfl⟩, ⟨rfl, by decide +kernel, List.prefix_refl _⟩,
    ⟨rfl, rfl, by decide, by decide, by decide +kernel⟩, ⟨rfl, rfl⟩, ⟨rfl, rfl⟩,
    ⟨rfl, by decide +kernel, by decide +kernel⟩, trivial⟩

theorem keepAlive_aborts_default :
    let m := keepAlive Main.httpCallback defaultBuilt.request false
    let s := m.run (Bench.start (HttpConnection.established "c" 0 0 5 false Epoll.new)) defaultRun
    s.server.handled = [] ∧
      (s.server.fault = none ∨ s.server.fault = some .setMethodAssert) ∧
      (defaultBuilt.request.length < s.server.received.length →
        s.server.fault = some .setMethodAssert) ∧
      (s.closed = false → s.timerexpired = false →
        m.CanReach (fun s' => s'.server.fault = some .setMethodAssert) s) :=
  keepAlive_aborts
    (show Globals.new.build_request (bytes "http://h/") = .ok defaultBuilt by decide +kernel)
    (by decide +kernel) (.inl rfl) (fun h => absurd h.1 (by decide)) (fun h => absurd h.1 (by decide))
    Main.httpCallback "c" 0 0 5 false Epoll.new valid_defaultRun

end WebBench

end TinyWS
