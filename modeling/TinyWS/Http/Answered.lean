import TinyWS.Http.HttpServer
import TinyWS.Http.RequestText

/-! # Every Request Is Answered

    The specification of a server on one connection is a function of the
    bytes received: the complete requests among them, in order
    (`completeIn`).  `onMessage` answers at most one request per read
    event, so it keeps up with the specification exactly as long as no
    chunk completes two requests; a second one stays in the buffer until
    more bytes arrive.

    The proof carries the part of the stream behind the last answered
    request: the parser is reading that part, whatever the cuts were. -/

namespace TinyWS

namespace HttpConnection

/-! ## The specification -/

/-- The requests that lie completely in the first `n` bytes of the stream. -/
def completeIn : List RequestText → Nat → List RequestText
  | [], _ => []
  | r :: rs, n => if r.text.length ≤ n then r :: completeIn rs (n - r.text.length) else []

/-- The stream of the requests. -/
def streamOf (rs : List RequestText) : Bytes := rs.flatMap RequestText.text

/-- A request asks to close when some answer to it would close. -/
def AsksToClose (httpCallback : HttpCallback) (r : RequestText) : Prop :=
  ∃ earlier t, (respond httpCallback earlier (r.toRequest t)).closeConnection_ = true

/-- The bytes of the responses to a list of requests. -/
def responses (httpCallback : HttpCallback) (requests : List HttpRequest) : List Bytes :=
  requests.mapIdx fun k request =>
    ((respond httpCallback k request).appendToBuffer Buffer.new).toString

/-- The callback has seen, and the socket was sent an answer to, exactly
    the complete requests received so far. -/
def Answered (httpCallback : HttpCallback) (rs : List RequestText) (h : HttpConnection) : Prop :=
  h.handled.map (fun p => p.1.untimed) =
      (completeIn rs h.received.length).map (fun r => r.toRequest 0) ∧
    h.sent = responses httpCallback (h.handled.map Prod.fst)

/-- The event completes at most one request. -/
def CompletesAtMostOne (rs : List RequestText) (h : HttpConnection) (r : Read) : Prop :=
  (completeIn rs (h.received ++ r.chunk).length).length ≤
    (completeIn rs h.received.length).length + 1

/-! ## Counting complete requests -/

@[simp] theorem streamOf_append (rs ss : List RequestText) :
    streamOf (rs ++ ss) = streamOf rs ++ streamOf ss := by
  simp [streamOf]

@[simp] theorem streamOf_cons (r : RequestText) (rs : List RequestText) :
    streamOf (r :: rs) = r.text ++ streamOf rs := by
  simp [streamOf]

theorem completeIn_append (done todo : List RequestText) (n : Nat) :
    completeIn (done ++ todo) ((streamOf done).length + n) = done ++ completeIn todo n := by
  induction done with
  | nil => simp [streamOf]
  | cons r done ih =>
    have hle : r.text.length ≤ (streamOf (r :: done)).length + n := by
      rw [streamOf_cons, List.length_append]; omega
    have hsub : (streamOf (r :: done)).length + n - r.text.length =
        (streamOf done).length + n := by
      rw [streamOf_cons, List.length_append]; omega
    rw [List.cons_append, completeIn, if_pos hle, hsub, ih, List.cons_append]

/-- Nothing is complete yet: the next request does not fit. -/
theorem completeIn_eq_nil {todo : List RequestText} {n : Nat} :
    completeIn todo n = [] ↔ ∀ r ∈ todo.head?, n < r.text.length := by
  cases todo with
  | nil => simp [completeIn]
  | cons r todo =>
    rw [completeIn]
    by_cases hle : r.text.length ≤ n
    · simp [hle]
    · simp [hle, Nat.lt_of_not_le hle]

/-- A first part of the stream that holds no complete request makes the
    parser ask for more. -/
theorem feed_incomplete {todo : List RequestText} {text : Bytes}
    (hpre : text <+: streamOf todo) (hnone : completeIn todo text.length = [])
    (t : TimeType) :
    ∃ ctx rest, HttpContext.new.feed t text = .ok (true, ctx, rest) ∧ ctx.state_ ≠ .kGotAll := by
  cases todo with
  | nil =>
    have hnil : text = [] := by simpa [streamOf] using hpre
    subst hnil
    exact ⟨HttpContext.new, [], HttpContext.feed_of_none rfl, by simp [HttpContext.new]⟩
  | cons r todo =>
    have hlt : text.length < r.text.length := completeIn_eq_nil.mp hnone r (by simp)
    -- `text` ends inside `r.text`
    have htext : text <+: r.text :=
      List.prefix_of_prefix_length_le hpre (by simp) (Nat.le_of_lt hlt)
    obtain ⟨more, hmore⟩ := htext
    refine HttpContext.feed_prefix r t hmore.symm fun hnil => ?_
    rw [← hmore, hnil, List.append_nil] at hlt
    exact Nat.lt_irrefl _ hlt

/-! ## One read event -/

theorem responses_append (httpCallback : HttpCallback) (requests : List HttpRequest)
    (request : HttpRequest) :
    responses httpCallback (requests ++ [request]) = responses httpCallback requests ++
      [((respond httpCallback requests.length request).appendToBuffer Buffer.new).toString] := by
  simp [responses, List.mapIdx_append]

/-- The answer to a request that lets the connection live. -/
theorem onRequest_open {httpCallback : HttpCallback} {h : HttpConnection}
    {request : HttpRequest} (hs : h.state_ = .kConnected)
    (hopen : (respond httpCallback h.handled.length request).closeConnection_ = false)
    (w : WriteResult) :
    (onRequest httpCallback h request w).state_ = .kConnected ∧
      (onRequest httpCallback h request w).sent = h.sent ++
        [((respond httpCallback h.handled.length request).appendToBuffer Buffer.new).toString] ∧
      (onRequest httpCallback h request w).inputBuffer_ = h.inputBuffer_ ∧
      (onRequest httpCallback h request w).handled = h.handled ++ [(request, .kConnected)] := by
  have hsend := @send_connected { h with handled := h.handled ++ [(request, h.state_)] } hs
    ((respond httpCallback h.handled.length request).appendToBuffer Buffer.new).toString w
  simp only [onRequest, hopen, Bool.false_eq_true, if_false]
  refine ⟨hsend.1, hsend.2.1, hsend.2.2, ?_⟩
  rw [← hs]
  rfl

/-- A read event that completes a request answers it and starts afresh
    with the bytes behind it. -/
theorem handleRead_answers {httpCallback : HttpCallback} {h : HttpConnection} (r : Read)
    (hf : h.fault = none) (hs : h.state_ = .kConnected) (hc : h.context_.Expecting)
    {context : HttpContext} {rest : Bytes}
    (hfeed : h.context_.feed r.receiveTime (h.pending r) = .ok (true, context, rest))
    (hgot : context.state_ = .kGotAll)
    (hopen : (respond httpCallback h.handled.length context.request_).closeConnection_ = false) :
    ∃ h', handleRead httpCallback h r = h' ∧ h'.fault = none ∧ h'.state_ = .kConnected ∧
      h'.context_ = HttpContext.new ∧ h'.inputBuffer_.toString = rest ∧
      h'.received = h.received ++ r.chunk ∧
      h'.handled = h.handled ++ [(context.request_, .kConnected)] ∧
      h'.sent = h.sent ++ [((respond httpCallback h.handled.length
        context.request_).appendToBuffer Buffer.new).toString] := by
  obtain ⟨buffer, hrest, heq⟩ := handleRead_complete httpCallback r hf hc hfeed hgot
  obtain ⟨hstate, hsent, hbuf, hhand⟩ :=
    @onRequest_open httpCallback (h.parsed r context buffer) context.request_ hs hopen r.w
  refine ⟨_, heq, ?_, hstate, rfl, ?_, ?_, hhand, hsent⟩
  · exact (onRequest_frame _ _ _ _).1.trans hf
  · rw [← hrest]
    exact congrArg Buffer.toString hbuf
  · exact (onRequest_frame _ _ _ _).2

/-- In step with the specification: all complete requests were answered,
    and the parser is reading the part of the stream behind them. -/
structure InStep (httpCallback : HttpCallback) (rs : List RequestText) (h : HttpConnection)
    (reads : List Read) : Prop where
  fault : h.fault = none
  state_ : h.state_ = .kConnected
  position : ∃ done todo part, rs = done ++ todo ∧ h.received = streamOf done ++ part ∧
    completeIn todo part.length = [] ∧ h.context_.Reading h.inputBuffer_.toString part ∧
    h.handled.map (fun p => p.1.untimed) = done.map (fun r => r.toRequest 0)
  sent : h.sent = responses httpCallback (h.handled.map Prod.fst)
  /-- What is still to come belongs to the stream. -/
  upcoming : h.received ++ reads.flatMap Read.chunk <+: streamOf rs

theorem InStep.answered {httpCallback : HttpCallback} {rs : List RequestText}
    {h : HttpConnection} {reads : List Read} (hin : InStep httpCallback rs h reads) :
    Answered httpCallback rs h := by
  obtain ⟨done, todo, part, hrs, hrec, hnone, -, hhandled⟩ := hin.position
  refine ⟨?_, hin.sent⟩
  rw [hhandled, hrs, hrec, List.length_append, completeIn_append, hnone, List.append_nil]

/-- Bytes of the stream that hold a complete request begin with the first
    one. -/
theorem exists_complete {todo : List RequestText} {bs : Bytes} (hpre : bs <+: streamOf todo)
    (hmore : completeIn todo bs.length ≠ []) :
    ∃ q todo' rest, todo = q :: todo' ∧ q.text ++ rest = bs ∧
      completeIn todo bs.length = q :: completeIn todo' rest.length := by
  cases todo with
  | nil => exact absurd rfl hmore
  | cons q todo' =>
    have hle : q.text.length ≤ bs.length := by
      by_contra hlt
      exact hmore (completeIn_eq_nil.mpr fun _ hq => by
        cases hq
        exact Nat.lt_of_not_le hlt)
    obtain ⟨rest, hrest⟩ : q.text <+: bs :=
      List.prefix_of_prefix_length_le (List.prefix_append _ _) (by simpa using hpre) hle
    refine ⟨q, todo', rest, rfl, hrest, ?_⟩
    rw [completeIn, if_pos hle, ← hrest, List.length_append, Nat.add_sub_cancel_left]

/-- How many requests are complete, before the next chunk and with it. -/
theorem completeIn_position (done : List RequestText) {todo : List RequestText} {part : Bytes}
    (hnone : completeIn todo part.length = []) (chunk : Bytes) :
    completeIn (done ++ todo) (streamOf done ++ part).length = done ∧
      completeIn (done ++ todo) (streamOf done ++ part ++ chunk).length =
        done ++ completeIn todo (part ++ chunk).length := by
  constructor
  · rw [List.length_append, completeIn_append, hnone, List.append_nil]
  · rw [List.append_assoc, List.length_append, completeIn_append]

section Event

variable {httpCallback : HttpCallback} {done todo : List RequestText} {part : Bytes}
  {h : HttpConnection} {r : Read} {reads : List Read}

theorem InStep.upcoming_chunk {rs : List RequestText}
    (hin : InStep httpCallback rs h (r :: reads)) :
    (h.received ++ r.chunk) ++ reads.flatMap Read.chunk <+: streamOf rs := by
  simpa [List.append_assoc] using hin.upcoming

/-- The new part of the stream, seen from the end of the answered
    requests. -/
theorem part_upcoming (hin : InStep httpCallback (done ++ todo) h (r :: reads))
    (hrec : h.received = streamOf done ++ part) : part ++ r.chunk <+: streamOf todo := by
  have hpre := (List.prefix_append _ _).trans hin.upcoming_chunk
  rw [streamOf_append, hrec, List.append_assoc] at hpre
  exact (List.prefix_append_right_inj _).mp hpre

/-- No request is completed: the parser waits for more. -/
theorem handleRead_waits (hin : InStep httpCallback (done ++ todo) h (r :: reads))
    (hrec : h.received = streamOf done ++ part)
    (hreading : h.context_.Reading h.inputBuffer_.toString part)
    (hhandled : h.handled.map (fun p => p.1.untimed) = done.map (fun r => r.toRequest 0))
    (hmore : completeIn todo (part ++ r.chunk).length = []) :
    InStep httpCallback (done ++ todo) (handleRead httpCallback h r) reads := by
  obtain ⟨t, hfeed⟩ := hreading.feed_append r.receiveTime r.chunk
  change h.context_.feed r.receiveTime (h.pending r) = _ at hfeed
  obtain ⟨ctx, rest, hctx, hgot⟩ := feed_incomplete (part_upcoming hin hrec) hmore t
  rw [hctx] at hfeed
  obtain ⟨buffer, hrest, heq⟩ :=
    handleRead_more httpCallback r hin.fault hreading.expecting hfeed hgot
  rw [heq]
  refine ⟨hin.fault, hin.state_, ⟨done, todo, part ++ r.chunk, rfl, ?_, hmore, ?_, hhandled⟩,
    hin.sent, hin.upcoming_chunk⟩
  · show h.received ++ r.chunk = _
    rw [hrec, List.append_assoc]
  · show ctx.Reading buffer.toString _
    rw [hrest]
    exact HttpContext.reading_of_feed hctx hgot

/-- The next request is completed and answered, and the parser starts
    afresh with the bytes behind it. -/
theorem handleRead_answersNext {q : RequestText} {rest : Bytes}
    (hq : ¬ AsksToClose httpCallback q)
    (hin : InStep httpCallback (done ++ q :: todo) h (r :: reads))
    (hrec : h.received = streamOf done ++ part)
    (hreading : h.context_.Reading h.inputBuffer_.toString part)
    (hhandled : h.handled.map (fun p => p.1.untimed) = done.map (fun r => r.toRequest 0))
    (hrest : q.text ++ rest = part ++ r.chunk) :
    (handleRead httpCallback h r).received = streamOf (done ++ [q]) ++ rest ∧
      (handleRead httpCallback h r).handled.map (fun p => p.1.untimed) =
        (done ++ [q]).map (fun r => r.toRequest 0) ∧
      (completeIn todo rest.length = [] →
        InStep httpCallback (done ++ q :: todo) (handleRead httpCallback h r) reads) := by
  obtain ⟨t, hfeed⟩ := hreading.feed_append r.receiveTime r.chunk
  change h.context_.feed r.receiveTime (h.pending r) = _ at hfeed
  rw [← hrest, HttpContext.feed_request] at hfeed
  have hclose : (respond httpCallback h.handled.length (q.toRequest t)).closeConnection_ =
      false := by
    by_contra hc
    exact hq ⟨_, t, by simpa using hc⟩
  obtain ⟨h', heq, hf', hs', hc', hb', hrec', hhand', hsent'⟩ :=
    handleRead_answers r hin.fault hin.state_ hreading.expecting hfeed rfl hclose
  have hreceived : h'.received = streamOf (done ++ [q]) ++ rest := by
    rw [hrec', hrec, List.append_assoc, ← hrest]
    simp [streamOf]
  have hhandled' : h'.handled.map (fun p => p.1.untimed) =
      (done ++ [q]).map (fun r => r.toRequest 0) := by
    rw [hhand', List.map_append, List.map_append, hhandled]
    rfl
  rw [heq]
  refine ⟨hreceived, hhandled', fun hnone => ?_⟩
  refine ⟨hf', hs', ⟨done ++ [q], todo, rest, by simp, hreceived, hnone, ?_, hhandled'⟩, ?_, ?_⟩
  · rw [hc', hb']
    exact HttpContext.reading_new rest
  · rw [hsent', hin.sent, hhand', List.map_append, List.map_singleton, responses_append,
      List.length_map]
  · rw [hrec']
    exact hin.upcoming_chunk

end Event

/-- **One event**: what it does to a connection in step, from the part of
    the stream behind the answered requests. -/
theorem handleRead_inStep {httpCallback : HttpCallback} {rs : List RequestText}
    (hopen : ∀ r ∈ rs, ¬ AsksToClose httpCallback r) {h : HttpConnection} {r : Read}
    {reads : List Read} (hin : InStep httpCallback rs h (r :: reads)) :
    (CompletesAtMostOne rs h r → InStep httpCallback rs (handleRead httpCallback h r) reads) ∧
      (¬ CompletesAtMostOne rs h r → ¬ Answered httpCallback rs (handleRead httpCallback h r)) := by
  obtain ⟨done, todo, part, rfl, hrec, hnone, hreading, hhandled⟩ := hin.position
  obtain ⟨hcount, hcount'⟩ := completeIn_position done hnone r.chunk
  by_cases hmore : completeIn todo (part ++ r.chunk).length = []
  · refine ⟨fun _ => handleRead_waits hin hrec hreading hhandled hmore, fun hne => absurd ?_ hne⟩
    rw [CompletesAtMostOne, hrec, hcount', hmore, List.append_nil, hcount]
    omega
  · obtain ⟨q, todo, rest, rfl, hrest, hcomplete⟩ :=
      exists_complete (part_upcoming hin hrec) hmore
    rw [hcomplete] at hcount'
    obtain ⟨hrec', hhandled', hkeeps⟩ := handleRead_answersNext (hopen q (by simp)) hin hrec
      hreading hhandled hrest
    refine ⟨fun hone => hkeeps ?_, fun hmany hans => ?_⟩
    · -- at most one: the rest of the chunk holds no complete request
      rw [CompletesAtMostOne, hrec, hcount', hcount, List.length_append, List.length_cons] at hone
      exact List.length_eq_zero_iff.mp (by omega)
    · -- a second request is complete, but only one was answered
      have hstream : streamOf (done ++ [q]) ++ rest = streamOf done ++ part ++ r.chunk := by
        rw [List.append_assoc, ← hrest]
        simp [streamOf]
      have hlen := congrArg List.length hans.1
      rw [hhandled', hrec', hstream, hcount'] at hlen
      apply hmany
      rw [CompletesAtMostOne, hrec, hcount', hcount]
      simp only [List.length_map, List.length_append, List.length_cons, List.length_nil] at hlen ⊢
      omega

/-! ## Runs -/

theorem inStep_established (httpCallback : HttpCallback) {rs : List RequestText}
    (name : String) (loop : LoopId) (self : ChannelPtr) (fd : Int) (writeComplete : Bool)
    (epoll : Epoll) {reads : List Read} (hreads : reads.flatMap Read.chunk <+: streamOf rs) :
    InStep httpCallback rs (established name loop self fd writeComplete epoll) reads := by
  have hbuf : (established name loop self fd writeComplete epoll).inputBuffer_.toString = [] := by
    simp [established, Endpoint.established, Endpoint.connectionEstablished, Endpoint.setState,
      Endpoint.enableReading, Endpoint.notify, TcpConnection.new]
  refine ⟨rfl, rfl, ⟨[], rs, [], rfl, rfl, ?_, ?_, rfl⟩, rfl, hreads⟩
  · refine completeIn_eq_nil.mpr fun r _ => ?_
    exact List.length_pos_of_ne_nil r.text_ne_nil
  · rw [hbuf]
    exact HttpContext.reading_new []

/-- **Every request is answered**: for every callback and every stream of
    well-formed requests none of which asks to close, cut into chunks in
    any way, all complete requests were answered after every read event
    if and only if no chunk completes more than one request. -/
theorem answered_iff_completesAtMostOne (httpCallback : HttpCallback) (rs : List RequestText)
    (hopen : ∀ r ∈ rs, ¬ AsksToClose httpCallback r)
    (name : String) (loop : LoopId) (self : ChannelPtr) (fd : Int) (writeComplete : Bool)
    (epoll : Epoll) (reads : List Read) (hreads : reads.flatMap Read.chunk <+: streamOf rs) :
    let h₀ := established name loop self fd writeComplete epoll
    (∀ pre, pre <+: reads → Answered httpCallback rs ((httpServer httpCallback).run h₀ pre)) ↔
      (httpServer httpCallback).Along (CompletesAtMostOne rs) h₀ reads := by
  intro h₀
  refine (httpServer httpCallback).always_iff_along (InStep httpCallback rs)
    (Answered httpCallback rs) ?_ ?_ ?_
    (inStep_established httpCallback name loop self fd writeComplete epoll hreads)
  · exact fun h ls hin => hin.answered
  · exact fun h r ls hin => (handleRead_inStep hopen hin).1
  · exact fun h r ls hin => (handleRead_inStep hopen hin).2

/-- `GET / HTTP/1.1` without headers. -/
def plainGet : RequestText where
  method := .kGet
  target := bytes "/"
  headers := []
  method_valid := by decide
  target_blank := by decide
  field_colon := by decide
  requestLine_crlf := by decide
  headerLine_crlf := by decide

theorem plainGet_open : ¬ AsksToClose Main.httpCallback plainGet := by
  rintro ⟨earlier, t, hclose⟩
  rw [respond_main] at hclose
  have hheader : (plainGet.toRequest t).getHeader (bytes "Connection") = [] := by
    show (plainGet.toRequest 0).getHeader (bytes "Connection") = []
    decide
  rw [hheader] at hclose
  exact absurd hclose (by decide)

/-- Two requests, cut in the middle of the first one's line. -/
theorem answered_iff_cut :
    let rs := [plainGet, plainGet]
    let reads : List Read := [⟨bytes "GET / HT", 7, .wrote 0⟩,
      ⟨bytes "TP/1.1\r\n\r\n", 8, .wrote 999⟩, ⟨plainGet.text, 9, .wrote 999⟩]
    let h₀ := established "c" 0 0 5 false Epoll.new
    (∀ pre, pre <+: reads →
        Answered Main.httpCallback rs ((httpServer Main.httpCallback).run h₀ pre)) ↔
      (httpServer Main.httpCallback).Along (CompletesAtMostOne rs) h₀ reads :=
  answered_iff_completesAtMostOne Main.httpCallback [plainGet, plainGet]
    (by simp [plainGet_open]) "c" 0 0 5 false Epoll.new _ (by decide)

/-- Two requests in one chunk: the second one is not answered. -/
theorem not_answered_pipelined :
    let rs := [plainGet, plainGet]
    let reads : List Read := [⟨plainGet.text ++ plainGet.text, 7, .wrote 999⟩]
    let h₀ := established "c" 0 0 5 false Epoll.new
    (∀ r ∈ rs, ¬ AsksToClose Main.httpCallback r) ∧
      reads.flatMap Read.chunk <+: streamOf rs ∧
      ¬ ∀ pre, pre <+: reads →
        Answered Main.httpCallback rs ((httpServer Main.httpCallback).run h₀ pre) := by
  refine ⟨by simp [plainGet_open], by decide, fun hall => ?_⟩
  have hlast := (hall _ (List.prefix_refl _)).1
  revert hlast
  decide +kernel

end HttpConnection

end TinyWS
