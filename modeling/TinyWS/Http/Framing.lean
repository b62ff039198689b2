import TinyWS.Http.RequestText

/-! # Where the Header Section Ends

    A header section ends at its first empty line.  `parseRequest` ends it
    at the first line without a colon and takes that for the empty one,
    as the comment at that place says: the bytes behind a garbled header
    line become the beginning of the next request.

    The two agree exactly on the texts whose first line without a colon,
    if there is one, is empty. -/

namespace TinyWS

namespace HttpContext

/-! ## The specification -/

/-- The complete lines behind the request line. -/
def laterLines (text : Bytes) : List Bytes := (Lines.splitLines cr lf text).1.tail

/-- The bytes behind the last complete line. -/
def unfinished (text : Bytes) : Bytes := (Lines.splitLines cr lf text).2

/-- The line `l` has only header lines between the request line and
    itself. -/
def EndsHeaders (text : Bytes) (headers : List Bytes) (l : Bytes) (behind : List Bytes) : Prop :=
  laterLines text = headers ++ l :: behind ∧ ∀ header ∈ headers, colon ∈ header

/-- What the parser of `text` should end with: it is complete when the
    section is closed by an empty line, has then consumed the bytes up to
    and with that line, and never ends a section at any other line. -/
structure Framed (text : Bytes) (ctx : HttpContext) (rest : Bytes) : Prop where
  complete : ctx.gotAll = true ↔ ∃ headers behind, EndsHeaders text headers [] behind
  consumed : ∀ headers behind, EndsHeaders text headers [] behind →
    rest = Lines.unlines cr lf behind ++ unfinished text
  never : ∀ headers l behind, laterLines text = headers ++ l :: behind → l ≠ [] → colon ∉ l →
    ctx.gotAll = true → rest ≠ Lines.unlines cr lf behind ++ unfinished text

/-- A fresh parser frames the headers of the text in the buffer. -/
def FramesHeaders (buffer : Buffer) (receiveTime : TimeType) : Prop :=
  ∃ isOk ctx rest, new.parseRequest buffer receiveTime = .ok (isOk, ctx, rest) ∧
    Framed buffer.toString ctx rest.toString

/-- The text starts with a valid request line. -/
def StartsValid (text : Bytes) : Prop :=
  ∃ line rest, text = line ++ cr :: lf :: rest ∧ Lines.findPair cr lf line = none ∧
    ValidRequestLine line

/-- The first later line without a colon. -/
def firstColonless (text : Bytes) : Option Bytes :=
  (laterLines text).find? fun line => decide (colon ∉ line)

/-- The condition: that line is empty, if there is one. -/
def FirstColonlessEmpty (text : Bytes) : Prop := (firstColonless text).getD [] = []

instance (text : Bytes) : Decidable (FirstColonlessEmpty text) :=
  inferInstanceAs (Decidable ((firstColonless text).getD [] = []))

/-! ## What the parser does -/

/-- Header lines are consumed, and the parser expects more of them. -/
theorem feedLines_allHeaders {ctx : HttpContext} (hctx : ctx.state_ = .kExpectHeader)
    (t : TimeType) {headers : List Bytes} (hh : ∀ header ∈ headers, colon ∈ header) :
    ∃ ctx', ctx.feedLines t headers = .ok (true, ctx', []) ∧ ctx'.state_ = .kExpectHeader := by
  induction headers generalizing ctx with
  | nil => exact ⟨ctx, rfl, hctx⟩
  | cons header headers ih =>
    obtain ⟨r, hline⟩ := takeLine_header hctx t (hh header (by simp))
    obtain ⟨ctx', hfeed, hstate⟩ :=
      @ih { ctx with request_ := r } hctx fun h hmem => hh h (by simp [hmem])
    refine ⟨ctx', ?_, hstate⟩
    rw [feedLines, hline]
    exact hfeed

/-- The first line without a colon completes the request, whatever is in
    it. -/
theorem feedLines_colonless {ctx : HttpContext} (hctx : ctx.state_ = .kExpectHeader)
    (t : TimeType) {headers : List Bytes} (hh : ∀ header ∈ headers, colon ∈ header) {l : Bytes}
    (hl : colon ∉ l) (behind : List Bytes) :
    ∃ ctx', ctx.feedLines t (headers ++ l :: behind) = .ok (true, ctx', behind) ∧
      ctx'.gotAll = true := by
  obtain ⟨c, hfeed, hstate⟩ := feedLines_allHeaders hctx t hh
  refine ⟨c.setState .kGotAll, ?_, rfl⟩
  rw [feedLines_append hfeed (by simp [hstate]), feedLines, takeLine_colonless hstate t hl]

/-- Behind a valid request line come the headers. -/
theorem feed_startsValid {text : Bytes} (h : StartsValid text) (t : TimeType) :
    ∃ c : HttpContext, c.state_ = .kExpectHeader ∧
      ∀ isOk ctx lines, c.feedLines t (laterLines text) = .ok (isOk, ctx, lines) →
        new.feed t text = .ok (isOk, ctx, Lines.unlines cr lf lines ++ unfinished text) := by
  obtain ⟨line, rest, rfl, hcrlf, hvalid⟩ := h
  have hfresh : (new : HttpContext).request_.method_ = .kInvalid := rfl
  obtain ⟨isOk, c, hline, hisOk⟩ := processRequestLine_isOk hfresh line
  rw [hisOk.mpr hvalid] at hline
  have hstate : (new : HttpContext).state_ = .kExpectRequestLine := rfl
  have htake := takeLine_requestLine hstate hline t
  refine ⟨{ c with request_ := c.request_.setReceiveTime t }.setState .kExpectHeader, rfl, ?_⟩
  intro isOk' ctx lines hlines
  rw [laterLines, Lines.splitLines_line cr_ne_lf hcrlf, List.tail_cons] at hlines
  simp only [feed, unfinished, Lines.splitLines_line cr_ne_lf hcrlf, feedLines, htake, hlines]

/-! ## The exact condition -/

/-- An empty line has no colon. -/
theorem not_mem_of_endsHeaders {text : Bytes} {headers behind : List Bytes}
    (h : EndsHeaders text headers [] behind) : ∃ l ∈ laterLines text, colon ∉ l := by
  refine ⟨[], ?_, List.not_mem_nil⟩
  rw [h.1]
  simp

/-- The line in front of which all lines are headers is determined. -/
theorem endsHeaders_unique {text : Bytes} {headers headers' behind behind' : List Bytes}
    {l l' : Bytes} (h : EndsHeaders text headers l behind) (hl : colon ∉ l)
    (h' : EndsHeaders text headers' l' behind') (hl' : colon ∉ l') :
    headers = headers' ∧ l = l' ∧ behind = behind' := by
  have heq : headers ++ l :: behind = headers' ++ l' :: behind' := h.1.symm.trans h'.1
  obtain ⟨-, hheaders⟩ := h
  obtain ⟨-, hheaders'⟩ := h'
  induction headers generalizing headers' with
  | nil =>
    cases headers' with
    | nil => simpa using heq
    | cons header' headers' =>
      -- `l` would be a header line of the other cut
      rw [List.nil_append, List.cons_append, List.cons.injEq] at heq
      rw [heq.1] at hl
      exact absurd (hheaders' header' (by simp)) hl
  | cons header headers ih =>
    cases headers' with
    | nil =>
      rw [List.nil_append, List.cons_append, List.cons.injEq] at heq
      rw [← heq.1] at hl'
      exact absurd (hheaders header (by simp)) hl'
    | cons header' headers' =>
      rw [List.cons_append, List.cons_append, List.cons.injEq] at heq
      obtain ⟨rfl, hrest, hbehind⟩ := ih heq.2 (fun x hx => hheaders x (by simp [hx]))
        fun x hx => hheaders' x (by simp [hx])
      exact ⟨by rw [heq.1], hrest, hbehind⟩

/-- A line without a colon and not the empty one comes behind it. -/
theorem behind_of_first {text : Bytes} {headers headers' behind behind' : List Bytes} {l : Bytes}
    (h : EndsHeaders text headers [] behind) (hcut : laterLines text = headers' ++ l :: behind')
    (hne : l ≠ []) (hl : colon ∉ l) : ∃ lines, behind = lines ++ l :: behind' := by
  have heq : headers ++ [] :: behind = headers' ++ l :: behind' := h.1.symm.trans hcut
  rcases List.append_eq_append_iff.mp heq with ⟨as, -, hright⟩ | ⟨bs, hleft, hright⟩
  · cases as with
    | nil =>
      rw [List.nil_append, List.cons.injEq] at hright
      exact absurd hright.1.symm hne
    | cons a as =>
      rw [List.cons_append, List.cons.injEq] at hright
      exact ⟨as, hright.2⟩
  · cases bs with
    | nil =>
      rw [List.nil_append, List.cons.injEq] at hright
      exact absurd hright.1 hne
    | cons b bs =>
      -- it would be one of the headers
      rw [List.cons_append, List.cons.injEq] at hright
      refine absurd (h.2 l ?_) hl
      rw [hleft, hright.1]
      simp

/-- The first line without a colon, with what stands around it. -/
theorem exists_endsHeaders {text : Bytes} {l : Bytes}
    (h : firstColonless text = some l) :
    colon ∉ l ∧ ∃ headers behind, EndsHeaders text headers l behind := by
  obtain ⟨hl, headers, behind, hcut, hheaders⟩ := List.find?_eq_some_iff_append.mp h
  refine ⟨by simpa using hl, headers, behind, hcut, fun header hmem => ?_⟩
  simpa using hheaders header hmem

/-- What ends the section, if anything does. -/
theorem parse_cases {text : Bytes} (h : StartsValid text) (t : TimeType) :
    (∃ ctx rest, new.feed t text = .ok (true, ctx, rest) ∧ ctx.gotAll = false ∧
        ∀ l ∈ laterLines text, colon ∈ l) ∨
      ∃ ctx headers l behind, new.feed t text =
          .ok (true, ctx, Lines.unlines cr lf behind ++ unfinished text) ∧
        ctx.gotAll = true ∧ colon ∉ l ∧ EndsHeaders text headers l behind ∧
        (FirstColonlessEmpty text ↔ l = []) := by
  obtain ⟨c, hstate, hfeed⟩ := feed_startsValid h t
  cases hfind : firstColonless text with
  | none =>
    have hall : ∀ l ∈ laterLines text, colon ∈ l := by
      intro l hl
      simpa using List.find?_eq_none.mp hfind l hl
    obtain ⟨ctx, hlines, hopen⟩ := feedLines_allHeaders hstate t hall
    refine Or.inl ⟨ctx, _, hfeed _ _ _ hlines, ?_, hall⟩
    rw [gotAll, hopen]
    rfl
  | some l =>
    obtain ⟨hl, headers, behind, hends⟩ := exists_endsHeaders hfind
    obtain ⟨ctx, hlines, hgot⟩ := feedLines_colonless hstate t hends.2 hl behind
    rw [← hends.1] at hlines
    refine Or.inr ⟨ctx, headers, l, behind, hfeed _ _ _ hlines, hgot, hl, hends, ?_⟩
    simp [FirstColonlessEmpty, hfind]

/-- When the first line without a colon is the empty one, all is well. -/
theorem framesHeaders_of_empty {buffer : Buffer} (t : TimeType)
    (hstart : StartsValid buffer.toString) (hcond : FirstColonlessEmpty buffer.toString) :
    FramesHeaders buffer t := by
  rcases parse_cases hstart t with
    ⟨ctx, rest, hfeed, hopen, hall⟩ | ⟨ctx, headers, l, behind, hfeed, hgot, hl, hends, hiff⟩
  · -- every later line is a header: more is asked for, as it should be
    obtain ⟨buffer', hparse, -⟩ := parseRequest_of_feed expecting_new hfeed
    have hnone : ∀ headers behind, ¬ EndsHeaders buffer.toString headers [] behind := by
      intro headers behind h
      obtain ⟨l, hmem, hl⟩ := not_mem_of_endsHeaders h
      exact hl (hall l hmem)
    refine ⟨true, ctx, buffer', hparse, ?_, ?_, ?_⟩
    · rw [hopen]
      refine iff_of_false (by simp) ?_
      rintro ⟨headers, behind, h⟩
      exact hnone headers behind h
    · intro headers behind h
      exact absurd h (hnone headers behind)
    · intro headers l behind hcut _ hl
      exact absurd (hall l (by rw [hcut]; simp)) hl
  · obtain ⟨buffer', hparse, hrest⟩ := parseRequest_of_feed expecting_new hfeed
    have hempty := hiff.mp hcond
    subst hempty
    refine ⟨true, ctx, buffer', hparse, ?_, ?_, ?_⟩
    · exact iff_of_true hgot ⟨headers, behind, hends⟩
    · intro headers' behind' h'
      obtain ⟨-, -, rfl⟩ := endsHeaders_unique hends hl h' hl
      exact hrest
    · -- fewer bytes are left behind any later line
      intro headers' l' behind' hcut hne hl' _ heq
      obtain ⟨lines, hbehind⟩ := behind_of_first hends hcut hne hl'
      rw [hrest, hbehind] at heq
      have hlength := congrArg List.length heq
      simp at hlength
      omega

/-- Otherwise the section ends at a line that is no empty line. -/
theorem not_framesHeaders {buffer : Buffer} (t : TimeType)
    (hstart : StartsValid buffer.toString) (hcond : ¬ FirstColonlessEmpty buffer.toString) :
    ¬ FramesHeaders buffer t := by
  rintro ⟨isOk, ctx', rest', hparse', hframed⟩
  rcases parse_cases hstart t with
    ⟨ctx, rest, -, -, hall⟩ | ⟨ctx, headers, l, behind, hfeed, hgot, hl, hends, hiff⟩
  · apply hcond
    have hnone : firstColonless buffer.toString = none :=
      List.find?_eq_none.mpr fun l hl => by simpa using hall l hl
    rw [FirstColonlessEmpty, hnone]
    rfl
  · obtain ⟨buffer', hparse, hrest⟩ := parseRequest_of_feed expecting_new hfeed
    rw [hparse] at hparse'
    cases hparse'
    have hne : l ≠ [] := fun hempty => hcond (hiff.mpr hempty)
    exact hframed.never headers l behind hends.1 hne hl hgot hrest

/-- **Header framing**: a fresh parser ends the header section of a text
    with a valid request line where it should, if and only if the first
    later line without a colon is empty. -/
theorem framesHeaders_iff (buffer : Buffer) (receiveTime : TimeType)
    (hstart : StartsValid buffer.toString) :
    FramesHeaders buffer receiveTime ↔ FirstColonlessEmpty buffer.toString := by
  constructor
  · intro h
    by_contra hcond
    exact not_framesHeaders receiveTime hstart hcond h
  · exact framesHeaders_of_empty receiveTime hstart

/-- A request with one header, and the beginning of the next. -/
theorem framesHeaders_host :
    FramesHeaders (Buffer.new.append (bytes "GET / HTTP/1.1\r\nHost: a\r\n\r\nGET")) 7 :=
  (framesHeaders_iff _ 7 ⟨bytes "GET / HTTP/1.1", bytes "Host: a\r\n\r\nGET",
    by rw [Buffer.toString_append, Buffer.toString_new]; decide +kernel, by decide +kernel,
    .kGet, bytes "/", by decide, by decide +kernel, by decide +kernel⟩).mpr
    (by rw [Buffer.toString_append, Buffer.toString_new]; decide +kernel)

/-- A header line that lost its colon ends the section, and the next
    header becomes a request line. -/
theorem not_framesHeaders_garbled :
    let text := bytes "GET / HTTP/1.1\r\nHost a\r\nX: GET / HTTP/1.1\r\n\r\n"
    StartsValid text ∧ ¬ FramesHeaders (Buffer.new.append text) 7 := by
  intro text
  have hstart : StartsValid text := ⟨bytes "GET / HTTP/1.1", bytes "Host a\r\nX: GET / HTTP/1.1\r\n\r\n",
    by decide +kernel, by decide +kernel, .kGet, bytes "/", by decide, by decide +kernel,
    by decide +kernel⟩
  refine ⟨hstart, not_framesHeaders 7 ?_ ?_⟩
  · rw [Buffer.toString_append, Buffer.toString_new]
    exact hstart
  · rw [Buffer.toString_append, Buffer.toString_new]
    decide +kernel

end HttpContext

end TinyWS
