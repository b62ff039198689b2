import TinyWS.Http.HttpServer
import TinyWS.Http.RequestText

/-! # After the Server Decided to Close

    `onMessage` never looks at the state of the connection, and a rejected
    request line stays in the buffer together with the half-filled
    request.  Two things can go wrong in a later read event:

    * the rejected line named a method: it is parsed again and
      `setMethod` finds the method set;
    * a closing response was sent: the parser was reset, and the next
      request is handed to the callback.

    Both are decided by the state before the event and the bytes it
    brings; the runs without them are exactly the good ones. -/

namespace TinyWS

namespace HttpContext

/-- The text completes a request for a parser in this state. -/
def Completes (ctx : HttpContext) (text : Bytes) : Prop :=
  match ctx.state_, (Lines.splitLines cr lf text).1 with
  | .kExpectRequestLine, line :: lines => ValidRequestLine line ∧ ∃ l ∈ lines, colon ∉ l
  | .kExpectHeader, lines => ∃ l ∈ lines, colon ∉ l
  | _, _ => False

/-- A request line is awaited, but the request has a method. -/
def Spoilt (ctx : HttpContext) : Prop :=
  ctx.state_ = .kExpectRequestLine ∧ ctx.request_.method_ ≠ .kInvalid

instance (ctx : HttpContext) : Decidable ctx.Spoilt := inferInstanceAs (Decidable (_ ∧ _))

/-- The first complete line of the text contains a blank. -/
def BlankInFirstLine (text : Bytes) : Prop :=
  ∃ line lines, (Lines.splitLines cr lf text).1 = line :: lines ∧ space ∈ line

/-! ## One parse -/

/-- More bytes never change the first complete line. -/
theorem blankInFirstLine_append {text : Bytes} (h : BlankInFirstLine text)
    (more : Bytes) : BlankInFirstLine (text ++ more) := by
  obtain ⟨line, lines, hlines, hspace⟩ := h
  have happend := Lines.splitLines_append cr_ne_lf text more
  refine ⟨line, lines ++ (Lines.splitLines cr lf ((Lines.splitLines cr lf text).2 ++ more)).1,
    ?_, hspace⟩
  rw [happend, hlines, List.cons_append]

/-- Behind the request line only the lines without a colon matter. -/
theorem feedLines_header {ctx : HttpContext} (hctx : ctx.state_ = .kExpectHeader)
    (t : TimeType) (lines : List Bytes) :
    ∃ ctx' rest, ctx.feedLines t lines = .ok (true, ctx', rest) ∧
      (ctx'.state_ = .kGotAll ↔ ∃ l ∈ lines, colon ∉ l) := by
  induction lines generalizing ctx with
  | nil => exact ⟨ctx, [], rfl, by simp [hctx]⟩
  | cons l ls ih =>
    by_cases hcolon : colon ∈ l
    · -- a header: the next line decides
      obtain ⟨r, hline⟩ := takeLine_header hctx t hcolon
      obtain ⟨c, rest, hfeed, hiff⟩ := @ih { ctx with request_ := r } hctx
      refine ⟨c, rest, by rw [feedLines, hline]; exact hfeed, hiff.trans ?_⟩
      simp [hcolon]
    · -- the first line without a colon ends the request
      refine ⟨ctx.setState .kGotAll, ls, ?_, ?_⟩
      · rw [feedLines, takeLine_colonless hctx t hcolon]
      · exact iff_of_true rfl ⟨l, by simp, hcolon⟩

/-- A spoilt parser runs into the assertion. -/
theorem feed_spoilt {ctx : HttpContext} (h : ctx.Spoilt) (t : TimeType) {text : Bytes}
    (hblank : BlankInFirstLine text) : ctx.feed t text = .error .setMethodAssert := by
  obtain ⟨line, lines, hlines, hspace⟩ := hblank
  have htake : ctx.takeLine t line = .error .setMethodAssert := by
    simp only [takeLine, h.1, processRequestLine_assert h.2 hspace]
  simp [feed, hlines, feedLines, htake]

theorem parseRequest_spoilt {ctx : HttpContext} (h : ctx.Spoilt) (t : TimeType)
    {buffer : Buffer} (hblank : BlankInFirstLine buffer.toString) :
    ctx.parseRequest buffer t = .error .setMethodAssert := by
  have hparse := parseRequest_eq (Or.inl h.1) buffer t
  rw [feed_spoilt h t hblank] at hparse
  cases hp : ctx.parseRequest buffer t with
  | error fault =>
    rw [hp] at hparse
    exact congrArg Except.error (Except.error.inj hparse)
  | ok result =>
    rw [hp] at hparse
    cases hparse

/-- A parse that returns has completed a request exactly when the grammar
    says so, and a line it rejected stays first in the text. -/
structure ParsedAs (ctx : HttpContext) (text : Bytes) (isOk : Bool) (ctx' : HttpContext)
    (rest : Bytes) : Prop where
  completes : isOk = true ∧ ctx'.state_ = .kGotAll ↔ ctx.Completes text
  expecting : ¬ ctx.Completes text → ctx'.Expecting
  rejected : ctx'.Spoilt → BlankInFirstLine rest

/-- Among the header lines nothing can be rejected. -/
theorem parsedAs_headers {ctx ctx' : HttpContext} {text : Bytes}
    (hgot : ctx.Completes text ↔ ctx'.state_ = .kGotAll)
    (hor : ctx'.state_ = .kExpectHeader ∨ ctx'.state_ = .kGotAll) (rest : Bytes) :
    ctx.ParsedAs text true ctx' rest := by
  refine ⟨?_, fun hno => ?_, fun hsp => ?_⟩
  · rw [hgot]
    exact and_iff_right rfl
  · exact Or.inr (hor.resolve_right fun hg => hno (hgot.mpr hg))
  · rcases hor with hh | hh <;> simp [Spoilt, hh] at hsp

theorem completes_requestLine {ctx : HttpContext} (hs : ctx.state_ = .kExpectRequestLine)
    {text line : Bytes} {lines : List Bytes}
    (hlines : (Lines.splitLines cr lf text).1 = line :: lines) :
    ctx.Completes text ↔ ValidRequestLine line ∧ ∃ l ∈ lines, colon ∉ l := by
  simp [Completes, hs, hlines]

/-- A request line is awaited, and the first line is one. -/
theorem feed_accepted {ctx c : HttpContext} (hs : ctx.state_ = .kExpectRequestLine)
    {text line : Bytes} {lines : List Bytes}
    (hlines : (Lines.splitLines cr lf text).1 = line :: lines)
    (hline : ctx.processRequestLine line = .ok (true, c)) (hvalid : ValidRequestLine line)
    (t : TimeType) :
    ∃ ctx' rest, ctx.feed t text = .ok (true, ctx', rest) ∧ ctx.ParsedAs text true ctx' rest := by
  -- the rest are header lines
  obtain ⟨c', rest, hfeed, hiff⟩ := @feedLines_header
    ({ c with request_ := c.request_.setReceiveTime t }.setState .kExpectHeader) rfl t lines
  have hall : ctx.feedLines t (line :: lines) = .ok (true, c', rest) := by
    rw [feedLines, takeLine_requestLine hs hline]
    exact hfeed
  have hor := feedLines_state hall (Or.inr (by simp))
  have hgot : ctx.Completes text ↔ c'.state_ = .kGotAll := by
    rw [completes_requestLine hs hlines, hiff]
    exact and_iff_right hvalid
  exact ⟨c', _, by simp [feed, hlines, hall]; rfl, parsedAs_headers hgot hor _⟩

/-- A request line is awaited, and the first line is none: it stays in
    front. -/
theorem feed_rejected {ctx c : HttpContext} (hs : ctx.state_ = .kExpectRequestLine)
    (hm : ctx.request_.method_ = .kInvalid) {text line : Bytes} {lines : List Bytes}
    (hlines : (Lines.splitLines cr lf text).1 = line :: lines)
    (hline : ctx.processRequestLine line = .ok (false, c)) (hinvalid : ¬ ValidRequestLine line)
    (t : TimeType) : ctx.feed t text = .ok (false, c, text) ∧ ctx.ParsedAs text false c text := by
  obtain ⟨hback, -, -⟩ := Lines.splitLines_spec cr_ne_lf text
  have htake : ctx.takeLine t line = .ok (.rejected c) := by
    simp only [takeLine, hs, hline]
  have hc : c.state_ = .kExpectRequestLine := (processRequestLine_state hline).trans hs
  refine ⟨?_, ?_, fun _ => Or.inl hc, fun hsp => ?_⟩
  · rw [feed, hlines, feedLines, htake]
    rw [hlines] at hback
    simp only [← hback]
  · rw [completes_requestLine hs hlines]
    exact iff_of_false (by simp) fun hv => hinvalid hv.1
  · exact ⟨line, lines, hlines, space_mem_of_method hline hm hsp.2⟩

/-- Every parser that is not spoilt returns. -/
theorem feed_unspoilt {ctx : HttpContext} (hctx : ctx.Expecting) (h : ¬ ctx.Spoilt)
    (t : TimeType) (text : Bytes) :
    ∃ isOk ctx' rest, ctx.feed t text = .ok (isOk, ctx', rest) ∧
      ctx.ParsedAs text isOk ctx' rest := by
  rcases hctx with hs | hs
  · -- a request line first
    have hm : ctx.request_.method_ = .kInvalid := by
      by_contra hne
      exact h ⟨hs, hne⟩
    cases hlines : (Lines.splitLines cr lf text).1 with
    | nil =>
      refine ⟨true, ctx, _, by simp [feed, hlines, feedLines]; rfl, ?_, fun _ => Or.inl hs, ?_⟩
      · simp [Completes, hs, hlines]
      · exact fun hsp => absurd hm hsp.2
    | cons line lines =>
      obtain ⟨isOk, c, hline, hvalid⟩ := processRequestLine_isOk hm line
      cases isOk with
      | true =>
        obtain ⟨c', rest, hfeed, hparsed⟩ := feed_accepted hs hlines hline (hvalid.mp rfl) t
        exact ⟨true, c', rest, hfeed, hparsed⟩
      | false =>
        have hinvalid : ¬ ValidRequestLine line := fun hv => by simpa using hvalid.mpr hv
        obtain ⟨hfeed, hparsed⟩ := feed_rejected hs hm hlines hline hinvalid t
        exact ⟨false, c, text, hfeed, hparsed⟩
  · -- header lines only
    obtain ⟨c, rest, hfeed, hiff⟩ := feedLines_header hs t (Lines.splitLines cr lf text).1
    have hor := feedLines_state hfeed (Or.inl hs)
    have hgot : ctx.Completes text ↔ c.state_ = .kGotAll := by
      rw [hiff]
      simp [Completes, hs]
    exact ⟨true, c, _, by simp only [feed, hfeed]; rfl, parsedAs_headers hgot hor _⟩

end HttpContext

namespace HttpConnection

/-! ## The specification -/

/-- Nothing was handed to the callback after the server decided to close,
    and the assertion of `setMethod` never failed. -/
def ClosesCleanly (h : HttpConnection) : Prop :=
  h.fault ≠ some .setMethodAssert ∧ ∀ p ∈ h.handled, p.2 = .kConnected

/-- The event does not parse a rejected line again, and completes no
    request once the connection is closing. -/
def BringsNothingLate (h : HttpConnection) (r : Read) : Prop :=
  ¬ h.context_.Spoilt ∧ (h.state_ = .kConnected ∨ ¬ h.context_.Completes (h.pending r))

/-- What holds along every run: the parser expects something, and a
    rejected line is still in front of the buffer. -/
structure Served (h : HttpConnection) : Prop where
  fault : h.fault = none ∨ h.fault = some .setMethodAssert
  expecting : h.fault = none → h.context_.Expecting
  rejected : h.fault = none → h.context_.Spoilt →
    HttpContext.BlankInFirstLine h.inputBuffer_.toString

/-! ## One read event -/

theorem handleRead_of_fault {httpCallback : HttpCallback} {h : HttpConnection} (r : Read)
    (hf : h.fault ≠ none) : handleRead httpCallback h r = h := by
  rw [handleRead, if_pos]
  rwa [Option.isSome_iff_ne_none]

section Event

variable {httpCallback : HttpCallback} {h : HttpConnection} {r : Read} {c : HttpContext}
  {rest : Bytes}

/-- The rejected line is parsed again. -/
theorem handleRead_spoilt (hin : h.Served) (hf : h.fault = none) (hsp : h.context_.Spoilt) :
    (handleRead httpCallback h r).Served ∧
      (handleRead httpCallback h r).fault = some .setMethodAssert ∧
      (handleRead httpCallback h r).handled = h.handled := by
  have hfeed := HttpContext.feed_spoilt hsp r.receiveTime
    (HttpContext.blankInFirstLine_append (hin.rejected hf hsp) r.chunk)
  rw [handleRead_fault httpCallback r hf (hin.expecting hf) hfeed]
  exact ⟨⟨Or.inr rfl, by simp, by simp⟩, rfl, rfl⟩

/-- A request is handed to the callback, and the context is reset. -/
theorem handleRead_handled (hin : h.Served) (hf : h.fault = none)
    (hfeed : h.context_.feed r.receiveTime (h.pending r) = .ok (true, c, rest))
    (hgot : c.state_ = .kGotAll) :
    (handleRead httpCallback h r).Served ∧ (handleRead httpCallback h r).fault = none ∧
      (handleRead httpCallback h r).handled = h.handled ++ [(c.request_, h.state_)] := by
  obtain ⟨buffer, -, heq⟩ :=
    handleRead_complete httpCallback r hf (hin.expecting hf) hfeed hgot
  have hframe := onRequest_frame httpCallback (h.parsed r c buffer) c.request_ r.w
  have hhand : (onRequest httpCallback (h.parsed r c buffer) c.request_ r.w).handled =
      h.handled ++ [(c.request_, h.state_)] := by
    simp only [onRequest]
    split <;> rfl
  rw [heq]
  refine ⟨⟨Or.inl (hframe.1.trans hf), fun _ => HttpContext.expecting_new, fun _ hsp => ?_⟩,
    hframe.1.trans hf, hhand⟩
  exact absurd rfl hsp.2

/-- The 400 and the shutdown leave the parser and the buffer alone. -/
theorem inputBuffer_badRequest (h : HttpConnection) (w : WriteResult) :
    ((h.send badRequest w).shutdown).inputBuffer_ = h.inputBuffer_ := by
  rw [(shutdown_fields _).2.2]
  by_cases hs : h.state_ = .kConnected
  · exact (send_connected hs badRequest w).2.2
  · rw [send_closed hs]

/-- No request: more bytes are needed, or the line is rejected. -/
theorem handleRead_unhandled (hin : h.Served) (hf : h.fault = none) {isOk : Bool}
    (hfeed : h.context_.feed r.receiveTime (h.pending r) = .ok (isOk, c, rest))
    (hc : c.Expecting) (hrejected : c.Spoilt → HttpContext.BlankInFirstLine rest) :
    (handleRead httpCallback h r).Served ∧ (handleRead httpCallback h r).fault = none ∧
      (handleRead httpCallback h r).handled = h.handled := by
  have hopen : c.state_ ≠ .kGotAll := by rcases hc with hs | hs <;> simp [hs]
  cases isOk with
  | true =>
    obtain ⟨buffer, hrest, heq⟩ :=
      handleRead_more httpCallback r hf (hin.expecting hf) hfeed hopen
    rw [heq]
    refine ⟨⟨Or.inl hf, fun _ => hc, fun _ hsp => ?_⟩, hf, rfl⟩
    show HttpContext.BlankInFirstLine buffer.toString
    rw [hrest]
    exact hrejected hsp
  | false =>
    obtain ⟨buffer, hrest, heq⟩ :=
      handleRead_rejected httpCallback r hf (hin.expecting hf) hfeed hopen
    rw [heq]
    refine ⟨⟨Or.inl hf, fun _ => hc, fun _ hsp => ?_⟩, hf, rfl⟩
    have hbuf : (((h.parsed r c buffer).send badRequest r.w).shutdown).inputBuffer_ = buffer :=
      inputBuffer_badRequest _ _
    rw [hbuf, hrest]
    exact hrejected hsp

end Event

/-- What one event does to a connection that still runs. -/
theorem handleRead_cases (httpCallback : HttpCallback) {h : HttpConnection} (hin : h.Served)
    (hf : h.fault = none) (r : Read) :
    (handleRead httpCallback h r).Served ∧
      ((h.context_.Spoilt ∧ (handleRead httpCallback h r).fault = some .setMethodAssert ∧
          (handleRead httpCallback h r).handled = h.handled) ∨
        (¬ h.context_.Spoilt ∧ (handleRead httpCallback h r).fault = none ∧
          ((h.context_.Completes (h.pending r) ∧ ∃ request,
              (handleRead httpCallback h r).handled = h.handled ++ [(request, h.state_)]) ∨
            (¬ h.context_.Completes (h.pending r) ∧
              (handleRead httpCallback h r).handled = h.handled)))) := by
  by_cases hsp : h.context_.Spoilt
  · obtain ⟨hserved, hfault, hhand⟩ := @handleRead_spoilt httpCallback h r hin hf hsp
    exact ⟨hserved, Or.inl ⟨hsp, hfault, hhand⟩⟩
  · obtain ⟨isOk, c, rest, hfeed, hparsed⟩ :=
      HttpContext.feed_unspoilt (hin.expecting hf) hsp r.receiveTime (h.pending r)
    by_cases hcomp : h.context_.Completes (h.pending r)
    · obtain ⟨rfl, hgot⟩ := hparsed.completes.mpr hcomp
      obtain ⟨hserved, hfault, hhand⟩ := @handleRead_handled httpCallback h r c rest hin hf hfeed hgot
      exact ⟨hserved, Or.inr ⟨hsp, hfault, Or.inl ⟨hcomp, c.request_, hhand⟩⟩⟩
    · obtain ⟨hserved, hfault, hhand⟩ := @handleRead_unhandled httpCallback h r c rest hin hf isOk
        hfeed (hparsed.expecting hcomp) hparsed.rejected
      exact ⟨hserved, Or.inr ⟨hsp, hfault, Or.inr ⟨hcomp, hhand⟩⟩⟩

/-- **Step**: a clean connection stays clean exactly when the event brings
    nothing late. -/
theorem closesCleanly_handleRead (httpCallback : HttpCallback) {h : HttpConnection}
    (hin : h.Served) (hgood : h.ClosesCleanly) (r : Read) :
    (handleRead httpCallback h r).ClosesCleanly ↔ h.BringsNothingLate r := by
  have hf : h.fault = none := hin.fault.resolve_right hgood.1
  rcases (handleRead_cases httpCallback hin hf r).2 with
    ⟨hsp, hfault, -⟩ | ⟨hsp, hfault, ⟨hcomp, request, hhand⟩ | ⟨hcomp, hhand⟩⟩
  · exact iff_of_false (fun hg => hg.1 hfault) fun hc => hc.1 hsp
  · -- the callback is invoked now: in the state the connection has now
    have hiff : (handleRead httpCallback h r).ClosesCleanly ↔ h.state_ = .kConnected := by
      constructor
      · exact fun hg => hg.2 (request, h.state_) (by rw [hhand]; simp)
      · intro hs
        refine ⟨by simp [hfault], fun p hp => ?_⟩
        rw [hhand] at hp
        rcases List.mem_append.mp hp with hp | hp
        · exact hgood.2 p hp
        · rw [List.mem_singleton.mp hp]
          exact hs
    refine hiff.trans ⟨fun hs => ⟨hsp, Or.inl hs⟩, fun hc => ?_⟩
    exact hc.2.resolve_right fun hno => hno hcomp
  · -- nothing is handled
    refine iff_of_true ⟨by simp [hfault], ?_⟩ ⟨hsp, Or.inr hcomp⟩
    rw [hhand]
    exact hgood.2

/-- What was handled stays handled, and an aborted program does nothing
    any more. -/
theorem not_closesCleanly_handleRead (httpCallback : HttpCallback) {h : HttpConnection}
    (hin : h.Served) (hbad : ¬ h.ClosesCleanly) (r : Read) :
    ¬ (handleRead httpCallback h r).ClosesCleanly := by
  intro hgood
  by_cases hf : h.fault = none
  · apply hbad
    refine ⟨by simp [hf], fun p hp => hgood.2 p ?_⟩
    rcases (handleRead_cases httpCallback hin hf r).2 with
      ⟨-, -, hhand⟩ | ⟨-, -, ⟨-, request, hhand⟩ | ⟨-, hhand⟩⟩ <;> rw [hhand]
    · exact hp
    · exact List.mem_append_left _ hp
    · exact hp
  · rw [handleRead_of_fault r hf] at hgood
    exact hbad hgood

/-! ## Runs -/

theorem served_established (name : String) (loop : LoopId) (self : ChannelPtr) (fd : Int)
    (writeComplete : Bool) (epoll : Epoll) :
    (established name loop self fd writeComplete epoll).Served :=
  ⟨Or.inl rfl, fun _ => HttpContext.expecting_new, fun _ hsp => absurd rfl hsp.2⟩

/-- **A closing connection**: for every callback and every sequence of
    chunks, the callback sees nothing after the server decided to close
    and the assertion never fails if and only if no chunk arrives after a
    rejected line with a method, and no chunk completes a request once
    the connection is closing. -/
theorem closesCleanly_iff (httpCallback : HttpCallback) (name : String) (loop : LoopId)
    (self : ChannelPtr) (fd : Int) (writeComplete : Bool) (epoll : Epoll) (reads : List Read) :
    let h₀ := established name loop self fd writeComplete epoll
    ((httpServer httpCallback).run h₀ reads).ClosesCleanly ↔
      (httpServer httpCallback).Along BringsNothingLate h₀ reads := by
  intro h₀
  refine (httpServer httpCallback).run_iff_along Served ClosesCleanly ?_ ?_ ?_
    (served_established name loop self fd writeComplete epoll)
    ((httpServer httpCallback).along_true h₀ reads) ?_
  · -- the invariant
    intro h r hin _
    by_cases hf : h.fault = none
    · exact (handleRead_cases httpCallback hin hf r).1
    · show (handleRead httpCallback h r).Served
      rw [handleRead_of_fault r hf]
      exact hin
  · intro h r hin _ hgood
    exact closesCleanly_handleRead httpCallback hin hgood r
  · intro h r hin _ hbad
    exact not_closesCleanly_handleRead httpCallback hin hbad r
  · exact ⟨by simp [h₀, established], by simp [h₀, established]⟩

/-- A rejected `HTTP/1.0` line and one more byte abort the server; a
    request behind a closing response still reaches the callback. -/
theorem not_closesCleanly_late :
    let aborting : List Read :=
      [⟨bytes "GET / HTTP/1.0\r\n", 7, .wrote 999⟩, ⟨bytes "x", 8, .wrote 999⟩]
    let late : List Read :=
      [⟨bytes "GET / HTTP/1.1\r\nConnection: close\r\n\r\n", 7, .wrote 999⟩,
        ⟨bytes "GET / HTTP/1.1\r\n\r\n", 8, .wrote 999⟩]
    let h₀ := established "c" 0 0 5 false Epoll.new
    ((httpServer Main.httpCallback).run h₀ aborting).fault = some .setMethodAssert ∧
      ¬ ((httpServer Main.httpCallback).run h₀ aborting).ClosesCleanly ∧
      ((httpServer Main.httpCallback).run h₀ late).handled.map Prod.snd =
        [.kConnected, .kDisconnecting] ∧
      ¬ ((httpServer Main.httpCallback).run h₀ late).ClosesCleanly := by
  unfold ClosesCleanly
  decide +kernel

end HttpConnection

end TinyWS
