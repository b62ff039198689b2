import TinyWS.Http.Session
import TinyWS.Http.Responses

/-! # What the Client Gets

    The bytes a connection has written, and those it still has to write,
    are whole messages in the order in which they were sent.  A message is
    in the stream exactly when the event that sent it found the output
    buffer empty.

    With the callback of `main.cpp` the client can tell: what it decodes
    are answers to some of its requests, in order, and to all of them if
    and only if every event that answered found room. -/

namespace TinyWS

namespace Endpoint

/-- What an event adds to the messages, and to the stream. -/
structure Adds (e e' : Endpoint) (messages : List Bytes) : Prop where
  writing : e.WritingIffBuffered → e'.WritingIffBuffered
  sent : e'.sent = e.sent ++ messages
  stream : e.WritingIffBuffered → e'.outputStream =
    e.outputStream ++ if e.outputBuffer_.toString = [] then messages.flatten else []

variable {e e' : Endpoint} {messages : List Bytes}

theorem adds_nothing (hchannel : e'.channel_ = e.channel_)
    (houtput : e'.outputBuffer_ = e.outputBuffer_) (hcalls : written e'.calls = written e.calls)
    (hsent : e'.sent = e.sent) : e.Adds e' [] where
  writing h := by
    rw [WritingIffBuffered, hchannel, houtput]
    exact h
  sent := by rw [hsent, List.append_nil]
  stream _ := by
    rw [outputStream, outputStream, hcalls, houtput]
    simp

/-- `send` adds its message while connected. -/
theorem adds_send (e : Endpoint) (message : Bytes) (w : WriteResult) :
    e.Adds (e.send true message w) (if e.state_ = .kConnected then [message] else []) := by
  by_cases hs : e.state_ = .kConnected
  · have hsend : e.send true message w =
        { e with sent := e.sent ++ [message] }.sendInLoop message w := by
      simp [send, hs]
    have hsame := sameLife_sendInLoop { e with sent := e.sent ++ [message] } message w
    rw [hsend, if_pos hs]
    refine ⟨fun h => writingIffBuffered_sendInLoop (e := { e with sent := e.sent ++ [message] })
      h message w, hsame.sent, fun h => ?_⟩
    by_cases ho : e.outputBuffer_.toString = []
    · have hidle : { e with sent := e.sent ++ [message] }.Idle := (idle_iff h).mpr ho
      rw [outputStream_sendInLoop hidle, if_pos ho]
      simp [outputStream]
    · have hbusy : ¬ { e with sent := e.sent ++ [message] }.Idle := fun hi => ho hi.2
      rw [sendInLoop_busy hbusy, if_neg ho, List.append_nil]
      rfl
  · have hsend : e.send true message w = e := by simp [send, hs]
    rw [hsend, if_neg hs]
    exact adds_nothing rfl rfl rfl rfl

theorem adds_shutdown (e : Endpoint) : e.Adds (e.shutdown true) [] := by
  unfold shutdown
  split
  · rw [if_pos rfl]
    unfold shutdownInLoop
    split
    · exact adds_nothing rfl rfl rfl rfl
    · exact adds_nothing rfl rfl (by simp [call, setState]) rfl
  · exact adds_nothing rfl rfl rfl rfl

/-- Nothing is sent in between. -/
theorem Adds.trans {e'' : Endpoint} (h : e.Adds e' messages) (h' : e'.Adds e'' []) :
    e.Adds e'' messages where
  writing hw := h'.writing (h.writing hw)
  sent := by rw [h'.sent, h.sent, List.append_nil]
  stream hw := by
    rw [h'.stream (h.writing hw), h.stream hw]
    simp

theorem Adds.after {e'' : Endpoint} (h : e.Adds e' [])
    (houtput : e'.outputBuffer_ = e.outputBuffer_) (h' : e'.Adds e'' messages) :
    e.Adds e'' messages where
  writing hw := h'.writing (h.writing hw)
  sent := by rw [h'.sent, h.sent, List.append_nil]
  stream hw := by
    rw [h'.stream (h.writing hw), h.stream hw, houtput]
    simp

end Endpoint

namespace HttpConnection

open Endpoint

/-! ## One event -/

section Event

variable {httpCallback : HttpCallback} {h : HttpConnection}

theorem response_ne_nil (response : HttpResponse) :
    (response.appendToBuffer Buffer.new).toString ≠ [] := by
  intro hnil
  have hcrlf : bytes "\r\n" = [] := by
    simp only [HttpResponse.appendToBuffer, Buffer.toString_append] at hnil
    exact (List.append_eq_nil_iff.mp (List.append_eq_nil_iff.mp hnil).1).2
  revert hcrlf
  decide +kernel

/-- The bytes are read, and the parser takes some of them. -/
theorem adds_parsed (r : Read) (context : HttpContext) (buffer : Buffer) :
    h.toEndpoint.Adds (h.parsed r context buffer).toEndpoint [] :=
  adds_nothing rfl rfl rfl rfl

theorem adds_onRequest (httpCallback : HttpCallback) (h : HttpConnection)
    (request : HttpRequest) (w : WriteResult) :
    h.toEndpoint.Adds (onRequest httpCallback h request w).toEndpoint
      (if h.state_ = .kConnected then
        [((respond httpCallback h.handled.length request).appendToBuffer Buffer.new).toString]
      else []) := by
  have hsend := adds_send h.toEndpoint
    ((respond httpCallback h.handled.length request).appendToBuffer Buffer.new).toString w
  simp only [onRequest]
  split
  · exact hsend.trans (adds_shutdown _)
  · exact hsend

/-- A line is rejected only where a request line is expected. -/
theorem open_of_rejected {ctx ctx' : HttpContext} (hctx : ctx.Expecting) {t : TimeType}
    {text rest : Bytes} (hfeed : ctx.feed t text = .ok (false, ctx', rest)) :
    ctx'.state_ ≠ .kGotAll := by
  unfold HttpContext.feed at hfeed
  cases hf : ctx.feedLines t (Lines.splitLines cr lf text).1 with
  | error fault =>
    rw [hf] at hfeed
    cases hfeed
  | ok res =>
    obtain ⟨isOk, c, lines⟩ := res
    rw [hf] at hfeed
    cases hfeed
    rcases HttpContext.feedLines_expecting hctx hf with hexpecting | hgot
    · rcases hexpecting with hs | hs
      · simp [hs]
      · simp [hs]
    · exact absurd hgot.1 (by simp)

/-- **A read** sends no empty message. -/
theorem adds_handleRead (hawaits : h.Awaits false) (r : Read) :
    ∃ messages, (∀ m ∈ messages, m ≠ []) ∧
      h.toEndpoint.Adds (handleRead httpCallback h r).toEndpoint messages := by
  have hmessage : ∀ {p : Prop} [Decidable p] {m : Bytes}, m ≠ [] →
      ∀ m' ∈ if p then [m] else [], m' ≠ [] := by
    intro p _ m hm m' hm'
    split at hm'
    · rw [List.mem_singleton.mp hm']
      exact hm
    · cases hm'
  by_cases hf : h.fault = none
  · have hc := hawaits.expecting hf
    cases hfeed : h.context_.feed r.receiveTime (h.pending r) with
    | error fault =>
      rw [handleRead_fault httpCallback r hf hc hfeed]
      exact ⟨[], fun m hm => (by cases hm), adds_nothing rfl rfl rfl rfl⟩
    | ok res =>
      obtain ⟨isOk, context, rest⟩ := res
      cases isOk with
      | false =>
        obtain ⟨buffer, -, heq⟩ := handleRead_rejected httpCallback r hf hc hfeed
          (open_of_rejected hc hfeed)
        rw [heq]
        have hone := hmessage (p := h.state_ = .kConnected) (m := badRequest) (by decide +kernel)
        refine ⟨_, hone, (adds_parsed r context buffer).after rfl ?_⟩
        exact (adds_send _ badRequest r.w).trans (adds_shutdown _)
      | true =>
        by_cases hgot : context.state_ = .kGotAll
        · obtain ⟨buffer, -, heq⟩ := handleRead_complete httpCallback r hf hc hfeed hgot
          rw [heq]
          have hone := hmessage (p := h.state_ = .kConnected)
            (response_ne_nil (respond httpCallback h.handled.length context.request_))
          exact ⟨_, hone, (adds_parsed r context buffer).after rfl
            (adds_onRequest httpCallback _ context.request_ r.w)⟩
        · obtain ⟨buffer, -, heq⟩ := handleRead_more httpCallback r hf hc hfeed hgot
          rw [heq]
          exact ⟨[], fun m hm => (by cases hm), adds_parsed r context buffer⟩
  · -- behind a fault nothing is read
    have hstop : handleRead httpCallback h r = h := by
      rw [handleRead, if_pos]
      rwa [Option.isSome_iff_ne_none]
    rw [hstop]
    exact ⟨[], fun m hm => (by cases hm), adds_nothing rfl rfl rfl rfl⟩

/-- **A write** moves bytes within the stream. -/
theorem adds_handleWrite (w : WriteResult) :
    h.toEndpoint.Adds (h.handleWrite w).toEndpoint [] := by
  unfold handleWrite
  split
  · exact adds_nothing rfl rfl rfl rfl
  · refine ⟨fun hw => writingIffBuffered_handleWrite hw w, ?_, fun hw => ?_⟩
    · rw [List.append_nil]
      exact (sameLife_handleWrite h.toEndpoint w).sent
    · show (h.toEndpoint.handleWrite w).outputStream = _
      rw [outputStream_handleWrite hw w]
      simp

end Event

/-! ## All runs -/

/-- The output buffer is empty, or the event sends nothing. -/
def FindsRoom (httpCallback : HttpCallback) (h : HttpConnection) (l : SocketEvent) : Prop :=
  (handleEvent httpCallback h l).sent = h.sent ∨ h.outputBuffer_.toString = []

/-- The stream is made of whole messages. -/
structure Whole (h : HttpConnection) : Prop where
  awaits : h.Awaits false
  writing : h.toEndpoint.WritingIffBuffered
  nonempty : ∀ m ∈ h.sent, m ≠ []
  kept : ∃ kept : List Bytes, kept.Sublist h.sent ∧ h.toEndpoint.outputStream = kept.flatten

/-- All messages are in the stream. -/
def Undropped (h : HttpConnection) : Prop := h.toEndpoint.outputStream = h.sent.flatten

section Run

variable {httpCallback : HttpCallback} {h : HttpConnection}

theorem awaits_handleEvent (hawaits : h.Awaits false) (l : SocketEvent) :
    (handleEvent httpCallback h l).Awaits false := by
  cases l with
  | read r =>
    have hnext := awaits_handleReadIn false httpCallback hawaits r
    rw [handleReadIn_asserts] at hnext
    exact hnext
  | write w =>
    show (h.handleWrite w).Awaits false
    unfold handleWrite
    split
    · exact hawaits
    · exact ⟨hawaits.fault, hawaits.expecting⟩

/-- What an event adds. -/
theorem adds_handleEvent (hawaits : h.Awaits false) (l : SocketEvent) :
    ∃ messages, (∀ m ∈ messages, m ≠ []) ∧
      h.toEndpoint.Adds (handleEvent httpCallback h l).toEndpoint messages := by
  cases l with
  | read r => exact adds_handleRead hawaits r
  | write w =>
    exact ⟨[], fun m hm => (by cases hm), adds_handleWrite w⟩

/-- **One event**: a message goes into the stream as a whole or not at
    all. -/
theorem Whole.next (hwhole : h.Whole) (l : SocketEvent) :
    (handleEvent httpCallback h l).Whole := by
  obtain ⟨messages, hnonempty, hadds⟩ := adds_handleEvent hwhole.awaits l
  obtain ⟨kept, hkept, hstream⟩ := hwhole.kept
  refine ⟨awaits_handleEvent hwhole.awaits l, hadds.writing hwhole.writing, fun m hm => ?_, ?_⟩
  · rw [hadds.sent] at hm
    rcases List.mem_append.mp hm with hold | hnew
    · exact hwhole.nonempty m hold
    · exact hnonempty m hnew
  · rw [hadds.sent, hadds.stream hwhole.writing, hstream]
    split
    · exact ⟨kept ++ messages, hkept.append (List.Sublist.refl _), List.flatten_append.symm⟩
    · exact ⟨kept, hkept.trans (List.sublist_append_left _ _), List.append_nil _⟩

/-- Nothing is in the stream that was not sent. -/
theorem Whole.length_le (hwhole : h.Whole) :
    h.toEndpoint.outputStream.length ≤ h.sent.flatten.length := by
  obtain ⟨kept, hkept, hstream⟩ := hwhole.kept
  rw [hstream]
  exact (List.Sublist.flatten hkept).length_le

theorem Whole.undropped_next (hwhole : h.Whole) (hgood : h.Undropped) (l : SocketEvent) :
    (handleEvent httpCallback h l).Undropped ↔ FindsRoom httpCallback h l := by
  obtain ⟨messages, hnonempty, hadds⟩ := adds_handleEvent hwhole.awaits l
  rw [Undropped, FindsRoom, hadds.stream hwhole.writing, hadds.sent, hgood, List.flatten_append,
    List.append_right_inj, List.append_right_eq_self]
  split
  · next ho => simp [ho]
  · next ho =>
    constructor
    · -- no message is empty, so nothing was sent
      intro heq
      left
      cases messages with
      | nil => rfl
      | cons m messages =>
        rw [List.flatten_cons] at heq
        have hm := (List.append_eq_nil_iff.mp heq.symm).1
        exact absurd hm (hnonempty m List.mem_cons_self)
    · intro hroom
      rw [hroom.resolve_right ho]
      rfl

/-- A message that is missing stays missing. -/
theorem Whole.dropped_next (hwhole : h.Whole) (hbad : ¬ h.Undropped) (l : SocketEvent) :
    ¬ (handleEvent httpCallback h l).Undropped := by
  obtain ⟨messages, -, hadds⟩ := adds_handleEvent hwhole.awaits l
  rw [Undropped, hadds.stream hwhole.writing, hadds.sent, List.flatten_append]
  split
  · exact fun heq => hbad (List.append_cancel_right heq)
  · -- what was dropped cannot be made up for: the stream is too short
    intro heq
    rw [List.append_nil] at heq
    have hle := hwhole.length_le
    rw [heq, List.length_append] at hle
    have hnil : messages.flatten = [] := List.length_eq_zero_iff.mp (by omega)
    rw [hnil, List.append_nil] at heq
    exact hbad heq

end Run

theorem whole_established (name : String) (loop : LoopId) (self : ChannelPtr) (fd : Int)
    (writeComplete : Bool) (epoll : Epoll) :
    (established name loop self fd writeComplete epoll).Whole where
  awaits := awaits_established false name loop self fd writeComplete epoll
  writing := (sending_established name loop self fd writeComplete epoll).writing
  nonempty m hm := by cases hm
  kept := ⟨[], List.Sublist.refl _, List.length_eq_zero_iff.mp (Nat.le_zero.mp
    (sending_established name loop self fd writeComplete epoll).length_le)⟩

/-- **The wire**: for every callback, any bytes in any chunks and any write
    events, the bytes written and those still to be written are whole
    messages in the order in which they were sent; and no message is
    missing if and only if every event that sent one found the output
    buffer empty. -/
theorem httpSession_wire (httpCallback : HttpCallback) (name : String) (loop : LoopId)
    (self : ChannelPtr) (fd : Int) (writeComplete : Bool) (epoll : Epoll)
    (ls : List SocketEvent) :
    let h₀ := established name loop self fd writeComplete epoll
    let h := (httpSession httpCallback).run h₀ ls
    (∃ kept : List Bytes, kept.Sublist h.sent ∧
        written h.calls ++ h.outputBuffer_.toString = kept.flatten) ∧
      (written h.calls ++ h.outputBuffer_.toString = h.sent.flatten ↔
        (httpSession httpCallback).Along (FindsRoom httpCallback) h₀ ls) := by
  intro h₀ h
  have hstart := whole_established name loop self fd writeComplete epoll
  have hrun := (httpSession httpCallback).along_true h₀ ls
  constructor
  · have hwhole : h.Whole := (httpSession httpCallback).invariant_run Whole
      (fun s l hs _ => hs.next l) hstart hrun
    exact hwhole.kept
  · refine (httpSession httpCallback).run_iff_along Whole Undropped (fun s l hs _ => hs.next l)
      (fun s l hs _ hgood => hs.undropped_next hgood l)
      (fun s l hs _ hbad => hs.dropped_next hbad l) hstart hrun ?_
    rfl

/-! ## The client of `main.cpp` -/

/-- The callback of `main.cpp` remembers nothing, and does not look at the
    clock. -/
theorem respond_untimed (earlier : Nat) (request : HttpRequest) :
    respond Main.httpCallback earlier request = respond Main.httpCallback 0 request.untimed := rfl

theorem responses_main (requests : List HttpRequest) :
    responses Main.httpCallback requests =
      (requests.map HttpRequest.untimed).map responseText := by
  apply List.ext_getElem
  · simp [responses]
  · intro i hi hj
    simp only [responses, List.getElem_mapIdx, List.getElem_map, responseText]
    rw [respond_untimed]

/-- A request that does not ask to close is kept alive. -/
theorem keepsAlive_of_open {q : RequestText} (hq : ¬ AsksToClose Main.httpCallback q) :
    KeepsAlive (q.toRequest 0) = true := by
  by_contra hnot
  refine hq ⟨0, 0, ?_⟩
  rw [respond_main]
  simpa [KeepsAlive] using hnot

theorem decodeAll_qs {qs : List RequestText} (hopen : ∀ q ∈ qs, ¬ AsksToClose Main.httpCallback q) :
    Decoded.decodeAll (qs.map fun q => responseText (q.toRequest 0)).flatten.length
        (qs.map fun q => responseText (q.toRequest 0)).flatten =
      some (qs.map fun q => keptAlive (q.toRequest 0)) := by
  have hgood : ∀ request ∈ qs.map fun q => q.toRequest 0,
      HttpContext.Produced request ∧ KeepsAlive request = true := by
    intro request hrequest
    obtain ⟨q, hq, heq⟩ := List.mem_map.mp hrequest
    rw [← heq]
    exact ⟨HttpContext.produced_toRequest q 0, keepsAlive_of_open (hopen q hq)⟩
  have hall := decodeAll_responses hgood _ (length_le_responses _)
  simp only [List.map_map, Function.comp_def] at hall
  rw [hall]
  refine congrArg some (List.map_congr_left fun q hq => ?_)
  exact expected_keptAlive (keepsAlive_of_open (hopen q hq))

/-- **The client's view**: whatever the cuts and the write events, a client
    that sends well-formed requests, none of which asks to close, decodes
    the answers to some of those that the server has handled, in order and
    each once, and to all of them if and only if every event that answered
    found the output buffer empty. -/
theorem httpSession_decode (rs : List RequestText)
    (hopen : ∀ r ∈ rs, ¬ AsksToClose Main.httpCallback r)
    (name : String) (loop : LoopId) (self : ChannelPtr) (fd : Int) (writeComplete : Bool)
    (epoll : Epoll) (ls : List SocketEvent) (hls : ls.flatMap chunkOf <+: streamOf rs) :
    let h₀ := established name loop self fd writeComplete epoll
    let h := (httpSession Main.httpCallback).run h₀ ls
    let stream := written h.calls ++ h.outputBuffer_.toString
    ∃ qs : List RequestText, qs.Sublist (rs.take h.handled.length) ∧
      Decoded.decodeAll stream.length stream =
        some (qs.map fun q => keptAlive (q.toRequest 0)) ∧
      (qs = rs.take h.handled.length ↔
        (httpSession Main.httpCallback).Along (FindsRoom Main.httpCallback) h₀ ls) := by
  intro h₀ h stream
  obtain ⟨⟨kept, hkept, hstream⟩, hall⟩ :=
    httpSession_wire Main.httpCallback name loop self fd writeComplete epoll ls
  obtain ⟨-, hhandled, hsent, -⟩ :=
    httpSession_answers Main.httpCallback rs hopen name loop self fd writeComplete epoll ls hls
  have hmessages : h.sent =
      (rs.take h.handled.length).map fun q => responseText (q.toRequest 0) := by
    have hsame : (h.handled.map Prod.fst).map HttpRequest.untimed =
        (rs.take h.handled.length).map fun r => r.toRequest 0 := by
      rw [List.map_map]
      exact hhandled
    rw [hsent, responses_main, hsame, List.map_map, Function.comp_def]
  have htaken : ∀ {qs : List RequestText}, qs.Sublist (rs.take h.handled.length) →
      ∀ q ∈ qs, ¬ AsksToClose Main.httpCallback q :=
    fun hqs q hq => hopen q (List.mem_of_mem_take (hqs.subset hq))
  by_cases hroom : (httpSession Main.httpCallback).Along (FindsRoom Main.httpCallback) h₀ ls
  · -- nothing was dropped
    refine ⟨rs.take h.handled.length, List.Sublist.refl _, ?_, iff_of_true rfl hroom⟩
    have hcomplete : stream = h.sent.flatten := hall.mpr hroom
    rw [hcomplete, hmessages]
    exact decodeAll_qs (htaken (List.Sublist.refl _))
  · have hsub : kept.Sublist h.sent := hkept
    rw [hmessages] at hsub
    obtain ⟨qs, hqs, heq⟩ := List.sublist_map_iff.mp hsub
    refine ⟨qs, hqs, ?_, iff_of_false (fun hsame => hroom (hall.mp ?_)) hroom⟩
    · have hsome : stream = kept.flatten := hstream
      rw [hsome, heq]
      exact decodeAll_qs (htaken hqs)
    · rw [hstream, heq, hsame, ← hmessages]

/-- Three requests, and a socket that takes the first response in two
    pieces. -/
theorem httpSession_decode_short :
    let ls : List SocketEvent := [.read ⟨plainGet.text ++ plainGet.text, 7, .wrote 9⟩,
      .read ⟨plainGet.text, 8, .wrote 999⟩, .write (.wrote 999)]
    let h₀ := established "c" 0 0 5 false Epoll.new
    let h := (httpSession Main.httpCallback).run h₀ ls
    let stream := written h.calls ++ h.outputBuffer_.toString
    ∃ qs : List RequestText,
      qs.Sublist ([plainGet, plainGet, plainGet].take h.handled.length) ∧
      Decoded.decodeAll stream.length stream =
        some (qs.map fun q => keptAlive (q.toRequest 0)) ∧
      (qs = [plainGet, plainGet, plainGet].take h.handled.length ↔
        (httpSession Main.httpCallback).Along (FindsRoom Main.httpCallback) h₀ ls) :=
  httpSession_decode [plainGet, plainGet, plainGet] (by simp [plainGet_open])
    "c" 0 0 5 false Epoll.new _ (by decide +kernel)

end HttpConnection

end TinyWS
