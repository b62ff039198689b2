import TinyWS.Http.RequestText

/-! # Request Round Trip

    A client writes a request line, header lines with any amount of blanks
    behind the colon, and an empty line.  The parser gets back every field,
    whatever the bytes are: question marks in the query, colons in values,
    a lone CR or LF anywhere, empty fields.  What follows the request stays
    in the buffer. -/

namespace TinyWS

open Std

/-! ## What the client writes -/

/-- The blanks that may stand behind the colon. -/
def isBlank (c : UInt8) : Bool := c == 32 || c == 9

/-- A header line: a name, blanks behind the colon, and a value without
    white space around it. -/
structure HeaderText where
  name : Bytes
  blanks : Bytes
  value : Bytes
  name_colon : colon ∉ name
  name_crlf : Lines.findPair cr lf name = none
  blanks_blank : ∀ c ∈ blanks, isBlank c = true
  value_crlf : Lines.findPair cr lf value = none
  value_head : ∀ c ∈ value.head?, isspace c = false
  value_last : ∀ c ∈ value.getLast?, isspace c = false

namespace HeaderText

def line (h : HeaderText) : Bytes := h.name ++ colon :: (h.blanks ++ h.value)

/-- The value a list of headers gives a name: the last one wins. -/
def lastValue (headers : List HeaderText) (name : Bytes) : Option Bytes :=
  ((headers.filter fun h => h.name = name).getLast?).map HeaderText.value

end HeaderText

/-- A request on the wire: the request line, the header lines and the empty
    line, each with its CRLF. -/
def serialise (method : Method) (target : Bytes) (headers : List HeaderText) : Bytes :=
  Lines.unlines cr lf (requestLine method target :: (headers.map HeaderText.line ++ [[]]))

/-! ## No line end inside a line -/

theorem requestLine_crlf (method : Method) {target : Bytes}
    (htarget : Lines.findPair cr lf target = none) :
    Lines.findPair cr lf (requestLine method target) = none := by
  have hname : Lines.findPair cr lf method.name = none := by
    cases method with
    | kInvalid | kGet | kPost | kHead | kPut | kDelete => decide
  have hversion : Lines.findPair cr lf (bytes "HTTP/1.1") = none := by decide
  -- the blanks keep a CR and an LF on their two sides apart
  have hspace : space ≠ cr ∧ space ≠ lf := by decide
  have hrest := Lines.findPair_append_cons hspace.1 hspace.2 htarget hversion
  exact Lines.findPair_append_cons hspace.1 hspace.2 hname hrest

/-- Blanks in front of a value. -/
theorem blanks_crlf {blanks value : Bytes} (hblanks : ∀ c ∈ blanks, isBlank c = true)
    (hvalue : Lines.findPair cr lf value = none) :
    Lines.findPair cr lf (blanks ++ value) = none := by
  induction blanks with
  | nil => exact hvalue
  | cons c cs ih =>
    have hc := hblanks c List.mem_cons_self
    have hcr : c ≠ cr := by
      rintro rfl
      exact absurd hc (by decide)
    have hlf : c ≠ lf := by
      rintro rfl
      exact absurd hc (by decide)
    have hrest := ih fun d hd => hblanks d (List.mem_cons_of_mem c hd)
    exact Lines.findPair_append_cons hcr hlf Lines.findPair_nil hrest

theorem HeaderText.line_crlf (h : HeaderText) : Lines.findPair cr lf h.line = none :=
  Lines.findPair_append_cons (by decide) (by decide) h.name_crlf
    (blanks_crlf h.blanks_blank h.value_crlf)

/-! ## Trimming -/

theorem isspace_of_isBlank {c : UInt8} (h : isBlank c = true) : isspace c = true := by
  rw [isBlank, Bool.or_eq_true, beq_iff_eq, beq_iff_eq] at h
  rcases h with rfl | rfl
  · decide
  · decide

/-- Nothing is dropped from a list whose first element stays. -/
theorem dropWhile_of_head {p : UInt8 → Bool} {xs : Bytes} (h : ∀ c ∈ xs.head?, p c = false) :
    xs.dropWhile p = xs := by
  cases xs with
  | nil => rfl
  | cons c cs => rw [List.dropWhile_cons, if_neg (by rw [h c rfl]; exact Bool.false_ne_true)]

/-- The blanks go, and the value stays. -/
theorem trim_value (h : HeaderText) : HttpRequest.trim (h.blanks ++ h.value) = h.value := by
  have hblanks : ∀ c ∈ h.blanks, isspace c = true :=
    fun c hc => isspace_of_isBlank (h.blanks_blank c hc)
  -- from the front the blanks go, from the back nothing
  have hfront : (h.blanks ++ h.value).dropWhile isspace = h.value := by
    rw [List.dropWhile_append_of_pos hblanks]
    exact dropWhile_of_head h.value_head
  have hback : h.value.reverse.dropWhile isspace = h.value.reverse := by
    apply dropWhile_of_head
    rw [List.head?_reverse]
    exact h.value_last
  rw [HttpRequest.trim, hfront, hback, List.reverse_reverse]

/-! ## The map of the headers -/

/-- What a name is mapped to after a list of insertions. -/
theorem getElem?_foldl_insert (headers : List HeaderText) (name : Bytes) :
    ∀ map : ExtTreeMap Bytes Bytes compare,
      (headers.foldl (fun m h => m.insert h.name h.value) map)[name]? =
        (HeaderText.lastValue headers name).or map[name]? := by
  induction headers with
  | nil => exact fun map => rfl
  | cons h hs ih =>
    intro map
    rw [List.foldl_cons, ih]
    by_cases hname : h.name = name
    · -- the value of `h`, unless a later header has the name
      have hlast : HeaderText.lastValue (h :: hs) name =
          (HeaderText.lastValue hs name).or (some h.value) := by
        rw [HeaderText.lastValue, List.filter_cons_of_pos (by simp [hname]), List.getLast?_cons]
        cases hlater : (hs.filter fun h => h.name = name).getLast? with
        | none => simp [HeaderText.lastValue, hlater]
        | some later => simp [HeaderText.lastValue, hlater]
      rw [hlast, hname, ExtTreeMap.getElem?_insert_self, Option.or_assoc]
      rfl
    · -- another name
      have hlast : HeaderText.lastValue (h :: hs) name = HeaderText.lastValue hs name := by
        rw [HeaderText.lastValue, List.filter_cons_of_neg (by simp [hname]), HeaderText.lastValue]
      rw [hlast, ExtTreeMap.getElem?_insert, if_neg]
      intro heq
      exact hname (LawfulEqOrd.eq_of_compare heq)

/-! ## The round trip -/

/-- What the client writes, as a well-formed request. -/
def requestText (method : Method) (target : Bytes) (headers : List HeaderText)
    (hmethod : method ≠ .kInvalid) (hblank : space ∉ target)
    (hcrlf : Lines.findPair cr lf target = none) : RequestText where
  method := method
  target := target
  headers := headers.map fun h => (h.name, h.blanks ++ h.value)
  method_valid := hmethod
  target_blank := hblank
  field_colon := by
    intro header hheader
    obtain ⟨h, -, rfl⟩ := List.mem_map.mp hheader
    exact h.name_colon
  requestLine_crlf := requestLine_crlf method hcrlf
  headerLine_crlf := by
    intro header hheader
    obtain ⟨h, -, rfl⟩ := List.mem_map.mp hheader
    exact h.line_crlf

section RoundTrip

variable {method : Method} {target : Bytes} {headers : List HeaderText}
  (hmethod : method ≠ .kInvalid) (hblank : space ∉ target)
  (hcrlf : Lines.findPair cr lf target = none)

theorem text_requestText :
    (requestText method target headers hmethod hblank hcrlf).text =
      serialise method target headers := by
  have hlines : (requestText method target headers hmethod hblank hcrlf).headers.map headerLine =
      headers.map HeaderText.line := by
    rw [requestText, List.map_map]
    rfl
  rw [RequestText.text, RequestText.lines, hlines]
  rfl

theorem headers_toRequest (t : TimeType) (name : Bytes) :
    ((requestText method target headers hmethod hblank hcrlf).toRequest t).headers_[name]? =
      HeaderText.lastValue headers name := by
  have hfold : ((requestText method target headers hmethod hblank hcrlf).toRequest t).headers_ =
      headers.foldl (fun m h => m.insert h.name h.value) ∅ := by
    rw [RequestText.toRequest, requestText, List.foldl_map]
    simp only [trim_value]
  rw [hfold, getElem?_foldl_insert]
  simp

end RoundTrip

/-- The part in front of the first question mark. -/
theorem take_idxOf_question (target : Bytes) :
    target.take (target.idxOf question) = target.takeWhile (· ≠ question) := by
  induction target with
  | nil => rfl
  | cons c cs ih =>
    by_cases hc : c = question
    · simp [hc]
    · rw [List.idxOf_cons_ne cs hc, List.take_succ_cons, ih]
      simp [hc]

/-- **Request round trip**: a fresh parser that finds a serialised request
    in its buffer, with anything behind it, completes exactly this request
    and leaves the rest. -/
theorem parseRequest_serialise {method : Method} (hmethod : method ≠ .kInvalid)
    {target : Bytes} (hblank : space ∉ target) (hcrlf : Lines.findPair cr lf target = none)
    (headers : List HeaderText) (rest : Bytes) (t : TimeType) {buffer : Buffer}
    (hbuffer : buffer.toString = serialise method target headers ++ rest) :
    ∃ ctx buffer', HttpContext.new.parseRequest buffer t = .ok (true, ctx, buffer') ∧
      ctx.gotAll = true ∧ buffer'.toString = rest ∧
        ctx.request_.method_ = method ∧
          ctx.request_.path_ ++ ctx.request_.query_ = target ∧
            ctx.request_.path_ = target.takeWhile (· ≠ question) ∧
              ∀ name, ctx.request_.headers_[name]? = HeaderText.lastValue headers name := by
  have hfeed := HttpContext.feed_request (requestText method target headers hmethod hblank hcrlf)
    t rest
  -- the parser takes the buffer line by line, as the text was fed
  rw [text_requestText, ← hbuffer] at hfeed
  obtain ⟨buffer', hparse, hrest⟩ :=
    HttpContext.parseRequest_of_feed HttpContext.expecting_new hfeed
  refine ⟨_, buffer', hparse, rfl, hrest, rfl, ?_, ?_, ?_⟩
  · exact List.take_append_drop (target.idxOf question) target
  · exact take_idxOf_question target
  · exact headers_toRequest hmethod hblank hcrlf t

/-- Two headers of one name, a query, and the beginning of another
    request. -/
theorem parseRequest_serialise_get :
    ∃ ctx buffer', HttpContext.new.parseRequest
        (Buffer.new.append (bytes "GET /a?b?c HTTP/1.1\r\nX: 1\r\nX:2:3\r\n\r\nGET")) 0 =
          .ok (true, ctx, buffer') ∧
      ctx.gotAll = true ∧ buffer'.toString = bytes "GET" ∧
        ctx.request_.method_ = .kGet ∧
          ctx.request_.path_ ++ ctx.request_.query_ = bytes "/a?b?c" ∧
            ctx.request_.path_ = (bytes "/a?b?c").takeWhile (· ≠ question) ∧
              ∀ name, ctx.request_.headers_[name]? =
                HeaderText.lastValue
                  [⟨bytes "X", bytes " ", bytes "1", by decide +kernel, by decide +kernel,
                      by decide +kernel, by decide +kernel, by decide +kernel, by decide +kernel⟩,
                    ⟨bytes "X", [], bytes "2:3", by decide +kernel, by decide +kernel,
                      by decide +kernel, by decide +kernel, by decide +kernel,
                      by decide +kernel⟩] name :=
  parseRequest_serialise (by decide +kernel) (by decide +kernel) (by decide +kernel) _ _ 0
    (by decide +kernel)

end TinyWS
