import TinyWS.Http.HttpRequest

/-! # HttpContext

    The incremental parser of one connection: a request line, then header
    lines up to the first line without a colon.

    `parseRequest` is translated with its loop, which looks for the next
    line end in the buffer and consumes one line a turn.  Its meaning is
    `feedLines`, which consumes the complete lines of the buffer one by
    one; `parseRequest_eq` says that the loop computes it and stops. -/

namespace TinyWS

/-- `HttpContext::HttpRequestParseState`. -/
inductive HttpRequestParseState where
  | kExpectRequestLine
  | kExpectHeader
  | kExpectBody
  | kGotAll
  deriving DecidableEq, Repr

/-- `class HttpContext`. -/
structure HttpContext where
  state_ : HttpRequestParseState
  request_ : HttpRequest
  deriving DecidableEq

namespace HttpContext

/-- The constructor, and `reset()`. -/
def new : HttpContext where
  state_ := .kExpectRequestLine
  request_ := HttpRequest.new

def gotAll (ctx : HttpContext) : Bool := ctx.state_ == .kGotAll

def setState (ctx : HttpContext) (s : HttpRequestParseState) : HttpContext :=
  { ctx with state_ := s }

/-- `processRequestLine(start, end)`.  `List.idxOf` is `std::find`: the
    length of the list where the byte is missing. -/
def processRequestLine (ctx : HttpContext) (line : Bytes) :
    Except ParseFault (Bool × HttpContext) :=
  let blank := line.idxOf space
  if blank ≠ line.length then
    match ctx.request_.setMethod (line.take blank) with
    | .error fault => .error fault
    | .ok (false, r) => .ok (false, { ctx with request_ := r })
    | .ok (true, r) =>
        let start := line.drop (blank + 1)
        let blank := start.idxOf space
        let r :=
          if blank ≠ start.length then
            let target := start.take blank
            let mark := target.idxOf question
            if mark ≠ target.length then
              (r.setPath (target.take mark)).setQuery (target.drop mark)
            else
              r.setPath target
          else
            r
        -- without a second blank `start` ends up behind `end`, and the test fails
        .ok (start.drop (blank + 1) = bytes "HTTP/1.1", { ctx with request_ := r })
  else
    .ok (false, ctx)

/-- What one turn of the loop in `parseRequest` leaves behind. -/
inductive Turn where
  | more (ctx : HttpContext) (buffer : Buffer)
  | done (isOk : Bool) (ctx : HttpContext) (buffer : Buffer)

/-- One turn of the loop. -/
def turn (ctx : HttpContext) (buffer : Buffer) (receiveTime : TimeType) :
    Except ParseFault Turn :=
  match ctx.state_ with
  | .kExpectRequestLine =>
      match buffer.findCRLF with
      | some crlf =>
          match ctx.processRequestLine (buffer.toString.take crlf) with
          | .error fault => .error fault
          | .ok (true, ctx) =>
              let ctx := { ctx with request_ := ctx.request_.setReceiveTime receiveTime }
              .ok (.more (ctx.setState .kExpectHeader) (buffer.retrieveUntil (crlf + 2)))
          | .ok (false, ctx) => .ok (.done false ctx buffer)
      | none => .ok (.done true ctx buffer)
  | .kExpectHeader =>
      match buffer.findCRLF with
      | some crlf =>
          let line := buffer.toString.take crlf
          let mark := line.idxOf colon
          if mark ≠ line.length then
            let r := ctx.request_.addHeader (line.take mark) (line.drop (mark + 1))
            .ok (.more { ctx with request_ := r } (buffer.retrieveUntil (crlf + 2)))
          else
            .ok (.done true (ctx.setState .kGotAll) (buffer.retrieveUntil (crlf + 2)))
      | none => .ok (.done true ctx buffer)
  | .kExpectBody | .kGotAll => .ok (.more ctx buffer)

/-- The loop, for at most so many turns. -/
def parseLoop : Nat → HttpContext → Buffer → TimeType →
    Except ParseFault (Bool × HttpContext × Buffer)
  | 0, _, _, _ => .error .spins
  | turns + 1, ctx, buffer, receiveTime =>
      match ctx.turn buffer receiveTime with
      | .error fault => .error fault
      | .ok (.more ctx buffer) => parseLoop turns ctx buffer receiveTime
      | .ok (.done isOk ctx buffer) => .ok (isOk, ctx, buffer)

/-- `parseRequest(buffer, receiveTime)`.  Every turn but the last consumes
    a line end, so a loop that outlives the buffer is endless. -/
def parseRequest (ctx : HttpContext) (buffer : Buffer) (receiveTime : TimeType) :
    Except ParseFault (Bool × HttpContext × Buffer) :=
  parseLoop (buffer.readableBytes + 1) ctx buffer receiveTime

/-! ## The parser on lines -/

/-- What the parser does with one complete line. -/
inductive LineResult where
  | next (ctx : HttpContext)
  | complete (ctx : HttpContext)
  | rejected (ctx : HttpContext)

def takeLine (ctx : HttpContext) (receiveTime : TimeType) (line : Bytes) :
    Except ParseFault LineResult :=
  match ctx.state_ with
  | .kExpectRequestLine =>
      match ctx.processRequestLine line with
      | .error fault => .error fault
      | .ok (true, ctx) =>
          let ctx := { ctx with request_ := ctx.request_.setReceiveTime receiveTime }
          .ok (.next (ctx.setState .kExpectHeader))
      | .ok (false, ctx) => .ok (.rejected ctx)
  | .kExpectHeader =>
      let mark := line.idxOf colon
      if mark ≠ line.length then
        let r := ctx.request_.addHeader (line.take mark) (line.drop (mark + 1))
        .ok (.next { ctx with request_ := r })
      else
        .ok (.complete (ctx.setState .kGotAll))
  | .kExpectBody | .kGotAll => .error .spins

/-- Take complete lines until one completes or spoils the request.  A
    rejected line stays where it is. -/
def feedLines (ctx : HttpContext) (receiveTime : TimeType) :
    List Bytes → Except ParseFault (Bool × HttpContext × List Bytes)
  | [] => .ok (true, ctx, [])
  | line :: lines =>
      match ctx.takeLine receiveTime line with
      | .error fault => .error fault
      | .ok (.next ctx) => feedLines ctx receiveTime lines
      | .ok (.complete ctx) => .ok (true, ctx, lines)
      | .ok (.rejected ctx) => .ok (false, ctx, line :: lines)

/-- The states `parseRequest` is entered in. -/
def Expecting (ctx : HttpContext) : Prop :=
  ctx.state_ = .kExpectRequestLine ∨ ctx.state_ = .kExpectHeader

theorem expecting_new : new.Expecting := Or.inl rfl

/-- The request line does not touch the state. -/
theorem processRequestLine_state {ctx ctx' : HttpContext} {line : Bytes} {isOk : Bool}
    (h : ctx.processRequestLine line = .ok (isOk, ctx')) : ctx'.state_ = ctx.state_ := by
  unfold processRequestLine at h
  dsimp only at h
  split at h
  · -- a blank: whether or not the method is known, only the request changes
    split at h
    · cases h
    · cases h
      rfl
    · cases h
      rfl
  · cases h
    rfl

/-- A line that asks for more leaves the parser expecting headers. -/
theorem takeLine_next {ctx ctx' : HttpContext} {t : TimeType} {line : Bytes}
    (h : ctx.takeLine t line = .ok (.next ctx')) : ctx'.state_ = .kExpectHeader := by
  unfold takeLine at h
  split at h
  · split at h <;> cases h
    rfl
  · next hs =>
    dsimp only at h
    split at h <;> cases h
    exact hs
  · cases h
  · cases h

/-- A turn of the loop takes the first complete line of the buffer. -/
theorem turn_eq {ctx : HttpContext} (hctx : ctx.Expecting) (buffer : Buffer) (t : TimeType) :
    ctx.turn buffer t =
      match buffer.findCRLF with
      | none => .ok (.done true ctx buffer)
      | some crlf =>
          match ctx.takeLine t (buffer.toString.take crlf) with
          | .error fault => .error fault
          | .ok (.next ctx) => .ok (.more ctx (buffer.retrieveUntil (crlf + 2)))
          | .ok (.complete ctx) => .ok (.done true ctx (buffer.retrieveUntil (crlf + 2)))
          | .ok (.rejected ctx) => .ok (.done false ctx buffer) := by
  unfold turn takeLine
  rcases hctx with hs | hs
  · -- the request line
    rw [hs]
    cases buffer.findCRLF with
    | none => rfl
    | some crlf =>
      dsimp only
      cases ctx.processRequestLine (buffer.toString.take crlf) with
      | error fault => rfl
      | ok r => obtain ⟨isOk, ctx'⟩ := r; cases isOk <;> rfl
  · -- a header line, with or without its colon
    rw [hs]
    cases buffer.findCRLF with
    | none => rfl
    | some crlf =>
      dsimp only
      split <;> rfl

/-! ## The loop computes `feedLines` -/

/-- A parse seen from outside: the indices of the buffer are hidden. -/
def view : Except ParseFault (Bool × HttpContext × Buffer) →
    Except ParseFault (Bool × HttpContext × Bytes)
  | .error fault => .error fault
  | .ok (isOk, ctx, buffer) => .ok (isOk, ctx, buffer.toString)

/-- What feeding the complete lines of a text leaves: the untouched lines
    are still in front of the unfinished one. -/
def feed (ctx : HttpContext) (t : TimeType) (text : Bytes) :
    Except ParseFault (Bool × HttpContext × Bytes) :=
  match ctx.feedLines t (Lines.splitLines cr lf text).1 with
  | .error fault => .error fault
  | .ok (isOk, ctx, lines) =>
      .ok (isOk, ctx, Lines.unlines cr lf lines ++ (Lines.splitLines cr lf text).2)

theorem feed_of_none {ctx : HttpContext} {t : TimeType} {text : Bytes}
    (h : Lines.findPair cr lf text = none) : ctx.feed t text = .ok (true, ctx, text) := by
  simp [feed, Lines.splitLines_of_none h, feedLines]

/-- Feeding a text takes its first complete line and goes on behind it. -/
theorem feed_of_some {ctx : HttpContext} {t : TimeType} {text : Bytes} {i : Nat}
    (h : Lines.findPair cr lf text = some i) :
    ctx.feed t text =
      match ctx.takeLine t (text.take i) with
      | .error fault => .error fault
      | .ok (.next ctx) => ctx.feed t (text.drop (i + 2))
      | .ok (.complete ctx) => .ok (true, ctx, text.drop (i + 2))
      | .ok (.rejected ctx) => .ok (false, ctx, text) := by
  have hback := (Lines.splitLines_spec cr_ne_lf text).1
  have hrest := (Lines.splitLines_spec cr_ne_lf (text.drop (i + 2))).1
  rw [feed, Lines.splitLines_of_some cr_ne_lf h]
  rw [Lines.splitLines_of_some cr_ne_lf h] at hback
  simp only [feedLines]
  cases ctx.takeLine t (text.take i) with
  | error fault => rfl
  | ok r =>
    cases r with
    | next ctx' => rfl
    | complete ctx' =>
      -- the lines behind it, written back
      simp only [← hrest]
    | rejected ctx' =>
      -- nothing was taken
      simp only [← hback]

/-- **The loop**: entered in an expecting state and allowed more turns
    than there are bytes, it stops with what `feed` computes. -/
theorem parseLoop_eq {turns : Nat} {ctx : HttpContext} (hctx : ctx.Expecting)
    {buffer : Buffer} (t : TimeType) (hturns : buffer.readableBytes < turns) :
    view (parseLoop turns ctx buffer t) = ctx.feed t buffer.toString := by
  -- induction on the turns: there are always more of them than bytes
  induction turns generalizing ctx buffer with
  | zero => omega
  | succ turns ih =>
    rw [parseLoop, turn_eq hctx]
    cases hcrlf : buffer.findCRLF with
    | none => rw [feed_of_none hcrlf]; rfl
    | some crlf =>
      rw [feed_of_some hcrlf]
      dsimp only
      cases hline : ctx.takeLine t (buffer.toString.take crlf) with
      | error fault => rfl
      | ok r =>
        cases r with
        | next ctx' =>
          -- the line and its end are gone, so one turn less will do
          have hle := buffer.findCRLF_le hcrlf
          have hshort : (buffer.retrieveUntil (crlf + 2)).readableBytes < turns := by
            rw [← Buffer.length_toString, Buffer.toString_retrieveUntil, List.length_drop,
              Buffer.length_toString]
            omega
          have hnext := ih (Or.inr (takeLine_next hline)) hshort
          rw [Buffer.toString_retrieveUntil] at hnext
          exact hnext
        | complete ctx' => simp [view]
        | rejected ctx' => simp [view]

theorem parseRequest_eq {ctx : HttpContext} (hctx : ctx.Expecting) (buffer : Buffer)
    (t : TimeType) : view (ctx.parseRequest buffer t) = ctx.feed t buffer.toString :=
  parseLoop_eq hctx t (Nat.lt_succ_self _)

/-- A parse returns when `feed` does, with the same in its buffer. -/
theorem parseRequest_of_feed {ctx ctx' : HttpContext} (hctx : ctx.Expecting) {buffer : Buffer}
    {t : TimeType} {isOk : Bool} {rest : Bytes}
    (h : ctx.feed t buffer.toString = .ok (isOk, ctx', rest)) :
    ∃ buffer', ctx.parseRequest buffer t = .ok (isOk, ctx', buffer') ∧
      buffer'.toString = rest := by
  have hparse := parseRequest_eq hctx buffer t
  rw [h] at hparse
  cases hp : ctx.parseRequest buffer t with
  | error fault => rw [hp] at hparse; cases hparse
  | ok res =>
    obtain ⟨isOk', c, buffer'⟩ := res
    rw [hp] at hparse
    obtain ⟨rfl, rfl, hrest⟩ : isOk' = isOk ∧ c = ctx' ∧ buffer'.toString = rest := by
      simpa [view] using hparse
    exact ⟨buffer', rfl, hrest⟩

/-! ## Resuming -/

/-- A line that completes a request leaves the parser in `kGotAll`. -/
theorem takeLine_complete {ctx ctx' : HttpContext} {t : TimeType} {line : Bytes}
    (h : ctx.takeLine t line = .ok (.complete ctx')) : ctx'.state_ = .kGotAll := by
  unfold takeLine at h
  split at h
  · split at h <;> cases h
  · dsimp only at h
    split at h <;> cases h
    rfl
  · cases h
  · cases h

/-- Behind a valid request line headers are expected. -/
theorem takeLine_requestLine {ctx c : HttpContext} (hctx : ctx.state_ = .kExpectRequestLine)
    {line : Bytes} (hline : ctx.processRequestLine line = .ok (true, c)) (t : TimeType) :
    ctx.takeLine t line = .ok (.next
      ({ c with request_ := c.request_.setReceiveTime t }.setState .kExpectHeader)) := by
  simp only [takeLine, hctx, hline]

/-- A line with a colon is a header, and more of them are expected. -/
theorem takeLine_header {ctx : HttpContext} (hctx : ctx.state_ = .kExpectHeader) (t : TimeType)
    {line : Bytes} (hcolon : colon ∈ line) :
    ∃ r, ctx.takeLine t line = .ok (.next { ctx with request_ := r }) := by
  have hmark : line.idxOf colon ≠ line.length :=
    Nat.ne_of_lt (List.idxOf_lt_length_iff.mpr hcolon)
  simp only [takeLine, hctx]
  rw [if_pos hmark]
  exact ⟨_, rfl⟩

/-- Any other line completes the request, empty or not. -/
theorem takeLine_colonless {ctx : HttpContext} (hctx : ctx.state_ = .kExpectHeader)
    (t : TimeType) {line : Bytes} (hcolon : colon ∉ line) :
    ctx.takeLine t line = .ok (.complete (ctx.setState .kGotAll)) := by
  have hmark : line.idxOf colon = line.length := List.idxOf_eq_length hcolon
  simp [takeLine, hctx, hmark]

/-- Lines that were all consumed may be taken out of a feed. -/
theorem feedLines_append {ctx ctx' : HttpContext} {t : TimeType} {ls : List Bytes}
    (h : ctx.feedLines t ls = .ok (true, ctx', [])) (hopen : ctx'.state_ ≠ .kGotAll)
    (ks : List Bytes) : ctx.feedLines t (ls ++ ks) = ctx'.feedLines t ks := by
  induction ls generalizing ctx with
  | nil => cases h; rfl
  | cons l ls ih =>
    rw [List.cons_append, feedLines]
    rw [feedLines] at h
    cases hl : ctx.takeLine t l with
    | error fault => rw [hl] at h; cases h
    | ok r =>
      rw [hl] at h
      cases r with
      | next c => exact ih h
      | complete c =>
        -- the request would have been complete
        cases h
        exact absurd (takeLine_complete hl) hopen
      | rejected c => cases h

/-- Once a line was consumed the parser is behind the request line. -/
theorem feedLines_state {ctx ctx' : HttpContext} {t : TimeType} {ls rest : List Bytes}
    (h : ctx.feedLines t ls = .ok (true, ctx', rest))
    (hstart : ctx.state_ = .kExpectHeader ∨ ls ≠ []) :
    ctx'.state_ = .kExpectHeader ∨ ctx'.state_ = .kGotAll := by
  induction ls generalizing ctx with
  | nil =>
    cases h
    exact Or.inl (hstart.resolve_right fun hne => hne rfl)
  | cons l ls ih =>
    rw [feedLines] at h
    cases hl : ctx.takeLine t l with
    | error fault => rw [hl] at h; cases h
    | ok r =>
      rw [hl] at h
      cases r with
      | next c => exact ih h (Or.inl (takeLine_next hl))
      | complete c => cases h; exact Or.inr (takeLine_complete hl)
      | rejected c => cases h

/-- Behind the request line the receive time is no longer looked at. -/
theorem feedLines_time {ctx : HttpContext} (hctx : ctx.state_ = .kExpectHeader)
    (t t' : TimeType) (ls : List Bytes) : ctx.feedLines t ls = ctx.feedLines t' ls := by
  induction ls generalizing ctx with
  | nil => rfl
  | cons l ls ih =>
    have htake : ctx.takeLine t l = ctx.takeLine t' l := by simp [takeLine, hctx]
    rw [feedLines, feedLines, htake]
    cases hl : ctx.takeLine t' l with
    | error fault => rfl
    | ok r =>
      cases r with
      | next c => exact ih (takeLine_next hl)
      | complete c => rfl
      | rejected c => rfl

/-- A parser in the middle of a request: some complete lines are in it,
    the rest of the text is still in the buffer. -/
structure Reading (ctx : HttpContext) (buffered text : Bytes) : Prop where
  expecting : ctx.Expecting
  consumed : ∃ t lines, text = Lines.unlines cr lf lines ++ buffered ∧
    (∀ l ∈ lines, Lines.findPair cr lf l = none) ∧ new.feedLines t lines = .ok (true, ctx, [])

theorem reading_new (text : Bytes) : new.Reading text text :=
  ⟨expecting_new, 0, [], by simp, by simp, rfl⟩

/-- **Resuming**: feeding more bytes to a parser in the middle of a request
    is feeding the whole text to a fresh one, received at some time. -/
theorem Reading.feed_append {ctx : HttpContext} {buffered text : Bytes}
    (h : ctx.Reading buffered text) (t : TimeType) (more : Bytes) :
    ∃ t', ctx.feed t (buffered ++ more) = new.feed t' (text ++ more) := by
  obtain ⟨t₀, lines, htext, hlines, hfeed⟩ := h.consumed
  have hopen : ctx.state_ ≠ .kGotAll := by
    rcases h.expecting with hs | hs <;> simp [hs]
  -- the lines of the whole text are the consumed ones and those of the rest
  have hsplit : Lines.splitLines cr lf (text ++ more) =
      (lines ++ (Lines.splitLines cr lf (buffered ++ more)).1,
        (Lines.splitLines cr lf (buffered ++ more)).2) := by
    rw [htext, List.append_assoc]
    exact Lines.splitLines_unlines cr_ne_lf hlines
  by_cases hnil : lines = []
  · subst hnil
    cases hfeed
    refine ⟨t, ?_⟩
    simp only [feed, hsplit, List.nil_append]
  · -- the request line is among the consumed lines, and with it its time
    have hheader : ctx.state_ = .kExpectHeader := by
      exact (feedLines_state hfeed (Or.inr hnil)).resolve_right hopen
    refine ⟨t₀, ?_⟩
    simp only [feed, hsplit]
    rw [feedLines_append hfeed hopen, feedLines_time hheader t t₀]

/-- Lines are left over only behind a request that is complete. -/
theorem feedLines_rest {ctx ctx' : HttpContext} {t : TimeType} {ls rest : List Bytes}
    (h : ctx.feedLines t ls = .ok (true, ctx', rest)) (hopen : ctx'.state_ ≠ .kGotAll) :
    rest = [] := by
  induction ls generalizing ctx with
  | nil => cases h; rfl
  | cons l ls ih =>
    rw [feedLines] at h
    cases hl : ctx.takeLine t l with
    | error fault => rw [hl] at h; cases h
    | ok r =>
      rw [hl] at h
      cases r with
      | next c => exact ih h
      | complete c => cases h; exact absurd (takeLine_complete hl) hopen
      | rejected c => cases h

theorem takeLine_expecting {ctx : HttpContext} (hctx : ctx.Expecting) {t : TimeType}
    {l : Bytes} {c : HttpContext}
    (h : ctx.takeLine t l = .ok (.next c) ∨ ctx.takeLine t l = .ok (.rejected c)) :
    c.Expecting := by
  rcases h with h | h
  · exact Or.inr (takeLine_next h)
  · -- only a request line is rejected, and it leaves the state alone
    unfold takeLine at h
    rcases hctx with hs | hs
    · rw [hs] at h
      dsimp only at h
      cases hp : ctx.processRequestLine l with
      | error fault => rw [hp] at h; cases h
      | ok r =>
        obtain ⟨isOk, c'⟩ := r
        rw [hp] at h
        cases isOk with
        | true => cases h
        | false =>
          cases h
          exact Or.inl ((processRequestLine_state hp).trans hs)
    · rw [hs] at h
      dsimp only at h
      split at h <;> cases h

/-- A parse leaves the parser expecting more, or with a complete request. -/
theorem feedLines_expecting {ctx ctx' : HttpContext} (hctx : ctx.Expecting) {t : TimeType}
    {ls rest : List Bytes} {isOk : Bool} (h : ctx.feedLines t ls = .ok (isOk, ctx', rest)) :
    ctx'.Expecting ∨ isOk = true ∧ ctx'.state_ = .kGotAll := by
  induction ls generalizing ctx with
  | nil => cases h; exact Or.inl hctx
  | cons l ls ih =>
    rw [feedLines] at h
    cases hl : ctx.takeLine t l with
    | error fault => rw [hl] at h; cases h
    | ok r =>
      rw [hl] at h
      cases r with
      | next c => exact ih (takeLine_expecting hctx (Or.inl hl)) h
      | complete c => cases h; exact Or.inr ⟨rfl, takeLine_complete hl⟩
      | rejected c => cases h; exact Or.inl (takeLine_expecting hctx (Or.inr hl))

/-- A parse that wants more is in the middle of the text it was fed. -/
theorem reading_of_feed {ctx : HttpContext} {t : TimeType} {text rest : Bytes}
    (h : new.feed t text = .ok (true, ctx, rest)) (hopen : ctx.state_ ≠ .kGotAll) :
    ctx.Reading rest text := by
  unfold feed at h
  cases hf : new.feedLines t (Lines.splitLines cr lf text).1 with
  | error fault => rw [hf] at h; cases h
  | ok r =>
    obtain ⟨isOk, c, ls⟩ := r
    rw [hf] at h
    cases h
    -- all complete lines were consumed, so the unfinished one is the rest
    have hls := feedLines_rest hf hopen
    subst hls
    obtain ⟨hback, hlines, -⟩ := Lines.splitLines_spec cr_ne_lf text
    refine ⟨?_, t, _, by simpa using hback, hlines, hf⟩
    exact (feedLines_expecting expecting_new hf).resolve_right fun hg => hopen hg.2

end HttpContext

end TinyWS
