import TinyWS.Http.Answered
import TinyWS.Http.RoundTrip

/-! # Responses Delimit Themselves

    The callback of `main.cpp` echoes a header of the request, and
    `appendToBuffer` writes it without escaping.  A client that reads the
    responses of a connection one after the other still gets one response
    per request: a value that went through the parser lies inside one line
    and has no white space around it, so that neither it nor its
    neighbourhood holds a line end. -/

namespace TinyWS

open Std

/-! ## The reference decoder -/

/-- A response as a client sees it. -/
structure Decoded where
  statusLine : Bytes
  headers : List (Bytes × Bytes)
  body : Bytes
  deriving DecidableEq

namespace Decoded

/-- A value without the blanks around it. -/
def strip (value : Bytes) : Bytes :=
  ((value.dropWhile isBlank).reverse.dropWhile isBlank).reverse

/-- A header line is cut at its first colon. -/
def field (line : Bytes) : Bytes × Bytes :=
  (line.take (line.idxOf colon), strip (line.drop (line.idxOf colon + 1)))

/-- The status line, the header lines up to the first empty line, and what
    follows it. -/
def head (text : Bytes) : Option (Bytes × List (Bytes × Bytes) × Bytes) :=
  match Lines.splitLines cr lf text with
  | ([], _) => none
  | (statusLine :: lines, unfinished) =>
      match lines.dropWhile (· ≠ []) with
      | [] => none
      | _ :: behind =>
          some (statusLine, (lines.takeWhile (· ≠ [])).map field,
            Lines.unlines cr lf behind ++ unfinished)

/-- The number a text of digits stands for. -/
def decimal (text : Bytes) : Option Nat :=
  if text = [] then none
  else text.foldlM (fun n d => if 48 ≤ d ∧ d ≤ 57 then some (10 * n + (d.toNat - 48)) else none) 0

/-- What the header section says about the body. -/
def contentLength (headers : List (Bytes × Bytes)) : Option Nat :=
  match headers.find? (fun header => header.1 = bytes "Content-Length") with
  | some header => decimal header.2
  | none => none

/-- One response, and what follows it. -/
def decode (text : Bytes) : Option (Decoded × Bytes) :=
  match head text with
  | none => none
  | some (statusLine, headers, behind) =>
      match contentLength headers with
      | none => none
      | some n =>
          if n ≤ behind.length then some (⟨statusLine, headers, behind.take n⟩, behind.drop n)
          else none

/-- Response after response, at most so many, up to the end of the text. -/
def decodeAll : Nat → Bytes → Option (List Decoded)
  | _, [] => some []
  | 0, _ => none
  | most + 1, text =>
      match decode text with
      | none => none
      | some (response, behind) => (decodeAll most behind).map (response :: ·)

theorem decodeAll_of_decode {text behind : Bytes} {response : Decoded}
    (h : decode text = some (response, behind)) (most : Nat) :
    decodeAll (most + 1) text = (decodeAll most behind).map (response :: ·) := by
  cases text with
  | nil => cases h
  | cons c cs => simp only [decodeAll, h]

/-- Lines are found where they were written. -/
theorem head_unlines {statusLine : Bytes} {lines : List Bytes}
    (hstatus : Lines.findPair cr lf statusLine = none)
    (hlines : ∀ l ∈ lines, Lines.findPair cr lf l = none ∧ l ≠ []) (behind : Bytes) :
    head (Lines.unlines cr lf (statusLine :: (lines ++ [[]])) ++ behind) =
      some (statusLine, lines.map field, behind) := by
  have hcrlf : ∀ l ∈ statusLine :: (lines ++ [[]]), Lines.findPair cr lf l = none := by
    intro l hl
    rcases List.mem_cons.mp hl with rfl | hl
    · exact hstatus
    · rcases List.mem_append.mp hl with hl | hl
      · exact (hlines l hl).1
      · rw [List.mem_singleton.mp hl]
        rfl
  have hline : ∀ l ∈ lines, decide (l ≠ []) = true := fun l hl => decide_eq_true (hlines l hl).2
  have hback := (Lines.splitLines_spec cr_ne_lf behind).1
  rw [head, Lines.splitLines_unlines cr_ne_lf hcrlf]
  simp only [List.cons_append, List.append_assoc, List.takeWhile_append_of_pos hline,
    List.dropWhile_append_of_pos hline]
  simp [← hback]

end Decoded

/-! ## What the parser produces -/

/-- A value that stays in its line, without white space around it. -/
structure Plain (value : Bytes) : Prop where
  crlf : Lines.findPair cr lf value = none
  head : ∀ c ∈ value.head?, isspace c = false
  last : ∀ c ∈ value.getLast?, isspace c = false

theorem plain_nil : Plain [] := ⟨rfl, by simp, by simp⟩

theorem head_dropWhile (p : UInt8 → Bool) (xs : Bytes) :
    ∀ c ∈ (xs.dropWhile p).head?, p c = false := by
  intro c hc
  have hnot := List.head?_dropWhile_not p xs
  rw [Option.mem_def.mp hc] at hnot
  simpa using hnot

/-- A list is the part that is dropped from its end, behind the rest. -/
theorem append_of_dropWhile_reverse (p : UInt8 → Bool) (xs : Bytes) :
    xs = (xs.reverse.dropWhile p).reverse ++ (xs.reverse.takeWhile p).reverse := by
  rw [← List.reverse_append, List.takeWhile_append_dropWhile, List.reverse_reverse]

/-- A trimmed part of a line is plain. -/
theorem plain_trim {text : Bytes} (htext : Lines.findPair cr lf text = none) :
    Plain (HttpRequest.trim text) := by
  have hfront : Lines.findPair cr lf (text.dropWhile isspace) = none := by
    rw [← List.takeWhile_append_dropWhile (p := isspace) (l := text)] at htext
    exact (Lines.findPair_append htext).2
  have hback := append_of_dropWhile_reverse isspace (text.dropWhile isspace)
  refine ⟨?_, ?_, ?_⟩
  · rw [hback] at hfront
    exact (Lines.findPair_append hfront).1
  · -- the first byte was already the first one before the end was trimmed
    intro c hc
    rw [HttpRequest.trim, Option.mem_def] at hc
    apply head_dropWhile isspace text
    rw [hback, Option.mem_def, List.head?_append, hc]
    rfl
  · intro c hc
    rw [HttpRequest.trim, List.getLast?_reverse] at hc
    exact head_dropWhile isspace _ c hc

namespace HttpContext

/-- The contexts a parser goes through: fresh ones, after the constructor
    or `reset()`, and what `parseRequest` makes of them, whatever is in the
    buffer at each call. -/
inductive Parses : HttpContext → Prop where
  | fresh : Parses new
  | parse {ctx ctx' : HttpContext} {buffer buffer' : Buffer} {t : TimeType} {isOk : Bool} :
      Parses ctx → ctx.parseRequest buffer t = .ok (isOk, ctx', buffer') → Parses ctx'

/-- The requests a parser completes. -/
def Produced (request : HttpRequest) : Prop :=
  ∃ ctx : HttpContext, ctx.Parses ∧ ctx.gotAll = true ∧ ctx.request_ = request

/-- Every well-formed request is produced. -/
theorem produced_toRequest (r : RequestText) (t : TimeType) : Produced (r.toRequest t) := by
  have hfeed := feed_request r t []
  have htext : (Buffer.new.append r.text).toString = r.text ++ [] := by simp
  rw [← htext] at hfeed
  obtain ⟨buffer', hparse, -⟩ := parseRequest_of_feed expecting_new hfeed
  exact ⟨_, .parse .fresh hparse, rfl, rfl⟩

/-- All values of the headers are plain. -/
def HeadersPlain (ctx : HttpContext) : Prop :=
  ∀ name value : Bytes, ctx.request_.headers_[name]? = some value → Plain value

theorem headersPlain_new : new.HeadersPlain := by
  intro name value h
  exact absurd h (by simp [new, HttpRequest.new])

theorem processRequestLine_headers {ctx ctx' : HttpContext} {line : Bytes} {isOk : Bool}
    (h : ctx.processRequestLine line = .ok (isOk, ctx')) :
    ctx'.request_.headers_ = ctx.request_.headers_ := by
  have hset : ∀ {m : Bytes} {b : Bool} {r : HttpRequest},
      ctx.request_.setMethod m = .ok (b, r) → r.headers_ = ctx.request_.headers_ := by
    intro m b r hr
    unfold HttpRequest.setMethod at hr
    split at hr <;> cases hr
    rfl
  unfold processRequestLine at h
  dsimp only at h
  split at h
  · split at h
    · cases h
    · next hr =>
      cases h
      exact hset hr
    · next hr =>
      -- the target goes to the path and the query
      cases h
      have hheaders := hset hr
      dsimp only
      split_ifs <;> exact hheaders
  · cases h
    rfl

/-- One turn of the loop: a new header comes from within one line. -/
theorem turn_headersPlain {ctx : HttpContext} (hplain : ctx.HeadersPlain) {buffer : Buffer}
    {t : TimeType} {r : Turn} (h : ctx.turn buffer t = .ok r) :
    match r with
    | .more ctx' _ => ctx'.HeadersPlain
    | .done _ ctx' _ => ctx'.HeadersPlain := by
  unfold turn at h
  split at h
  · split at h
    · split at h
      · cases h
      · -- a request line brings no header, accepted or not
        next hline =>
        cases h
        intro name value hv
        exact hplain name value (processRequestLine_headers hline ▸ hv)
      · next hline =>
        cases h
        intro name value hv
        exact hplain name value (processRequestLine_headers hline ▸ hv)
    · cases h
      exact hplain
  · split at h
    · next crlf hcrlf =>
      have hline := (Lines.findPair_eq_some hcrlf).2
      dsimp only at h
      split at h
      · cases h
        intro name value hv
        simp only [HttpRequest.addHeader, ExtTreeMap.getElem?_insert] at hv
        split at hv
        · -- the header of this line
          cases hv
          rw [← List.take_append_drop (_ + 1) (buffer.toString.take crlf)] at hline
          exact plain_trim (Lines.findPair_append hline).2
        · exact hplain name value hv
      · cases h
        exact hplain
    · cases h
      exact hplain
  · cases h
    exact hplain
  · cases h
    exact hplain

theorem parseLoop_headersPlain {turns : Nat} :
    ∀ {ctx ctx' : HttpContext} {buffer buffer' : Buffer} {t : TimeType} {isOk : Bool},
      ctx.HeadersPlain → parseLoop turns ctx buffer t = .ok (isOk, ctx', buffer') →
        ctx'.HeadersPlain := by
  induction turns with
  | zero =>
    intro ctx ctx' buffer buffer' t isOk hplain h
    cases h
  | succ turns ih =>
    intro ctx ctx' buffer buffer' t isOk hplain h
    rw [parseLoop] at h
    cases hturn : ctx.turn buffer t with
    | error fault => rw [hturn] at h; cases h
    | ok r =>
      have hstep := turn_headersPlain hplain hturn
      rw [hturn] at h
      cases r with
      | more c b => exact ih hstep h
      | done ok c b => cases h; exact hstep

/-- **Every value a parser holds is plain**, whatever bytes it was fed. -/
theorem Parses.headersPlain {ctx : HttpContext} (h : ctx.Parses) : ctx.HeadersPlain := by
  induction h with
  | fresh => exact headersPlain_new
  | parse _ hparse ih => exact parseLoop_headersPlain ih hparse

theorem Produced.plain {request : HttpRequest} (h : Produced request) (name : Bytes) :
    Plain (request.getHeader name) := by
  obtain ⟨ctx, hparses, -, rfl⟩ := h
  unfold HttpRequest.getHeader
  cases hv : ctx.request_.headers_[name]? with
  | none => exact plain_nil
  | some value => exact hparses.headersPlain name value hv

end HttpContext

/-! ## What the server writes -/

namespace HttpConnection

/-- A request that does not ask to close is answered with a response that
    keeps the connection. -/
def KeepsAlive (request : HttpRequest) : Bool :=
  request.getHeader (bytes "Connection") ≠ bytes "close"

/-- `onRequest` for one request after the other, each with the result of
    the socket's write. -/
def answer (h : HttpConnection) (requests : List (HttpRequest × WriteResult)) : HttpConnection :=
  requests.foldl (fun h r => onRequest Main.httpCallback h r.1 r.2) h

/-- The headers of a response to a request, with their values. -/
def responseHeaders (request : HttpRequest) : List (Bytes × Bytes) :=
  (if KeepsAlive request then
    [(bytes "Content-Length", bytes "12"), (bytes "Connection", bytes "Keep-Alive")]
  else [(bytes "Connection", bytes "close")]) ++
    [(bytes "User-Agent", request.getHeader (bytes "User-Agent")),
      (bytes "server", bytes "tinyWS")]

/-- What a client should see for a request. -/
def expected (request : HttpRequest) : Decoded where
  statusLine := bytes "HTTP/1.1 200 OK"
  headers := responseHeaders request
  body := bytes "Hello World!"

/-- A header on a line. -/
def fieldLine (header : Bytes × Bytes) : Bytes := header.1 ++ colon :: space :: header.2

/-- The bytes of the response to a request; the callback remembers
    nothing. -/
def responseText (request : HttpRequest) : Bytes :=
  ((respond Main.httpCallback 0 request).appendToBuffer Buffer.new).toString

/-- A response is its lines, an empty line and the body. -/
theorem responseText_eq (request : HttpRequest) :
    responseText request =
      Lines.unlines cr lf ((expected request).statusLine ::
        ((responseHeaders request).map fieldLine ++ [[]])) ++ (expected request).body := by
  have hclose : (respond Main.httpCallback 0 request).closeConnection_ =
      !KeepsAlive request := by
    simp [respond_main, KeepsAlive]
  -- the two headers of the callback, in the order of the map
  have hheaders : (respond Main.httpCallback 0 request).headers_.toList =
      [(bytes "User-Agent", request.getHeader (bytes "User-Agent")),
        (bytes "server", bytes "tinyWS")] := rfl
  have hcode : (respond Main.httpCallback 0 request).statusCode_ = .k200OK := rfl
  have hversion : snprintf32 (bytes ("HTTP/1.1 " ++ toString HttpStatusCode.k200OK.value ++ " ")) =
      bytes "HTTP/1.1 200 " := rfl
  have hmessage : (respond Main.httpCallback 0 request).statusMessage_ = bytes "OK" := rfl
  have hstatus : (expected request).statusLine = bytes "HTTP/1.1 200 " ++ bytes "OK" := rfl
  have hbody : (respond Main.httpCallback 0 request).body_ = bytes "Hello World!" := rfl
  have hlength : snprintf32 (bytes ("Content-Length: " ++
      toString (bytes "Hello World!").length ++ "\r\n")) =
        fieldLine (bytes "Content-Length", bytes "12") ++ [cr, lf] := by decide +kernel
  have hkeepAlive : bytes "Connection: Keep-Alive\r\n" =
      fieldLine (bytes "Connection", bytes "Keep-Alive") ++ [cr, lf] := rfl
  have hcloses : bytes "Connection: close\r\n" =
      fieldLine (bytes "Connection", bytes "close") ++ [cr, lf] := rfl
  have hcolon : bytes ": " = [colon, space] := rfl
  have hcrlf : bytes "\r\n" = [cr, lf] := rfl
  have hend : (expected request).body = bytes "Hello World!" := rfl
  rw [responseText, HttpResponse.appendToBuffer, hclose, hheaders, hcode, hversion, hmessage, hbody,
    hlength, responseHeaders]
  cases KeepsAlive request with
  | true =>
    simp [hstatus, hkeepAlive, hcolon, hcrlf, hend, fieldLine]
  | false =>
    simp [hstatus, hcloses, hcolon, hcrlf, hend, fieldLine]

/-! ## What a client reads -/

/-- A header that is read back from its line. -/
structure Readable (header : Bytes × Bytes) : Prop where
  name_colon : colon ∉ header.1
  name_crlf : Lines.findPair cr lf header.1 = none
  value_plain : Plain header.2

theorem Readable.fieldLine_crlf {header : Bytes × Bytes} (h : Readable header) :
    Lines.findPair cr lf (fieldLine header) = none := by
  have hcolon : colon ≠ cr ∧ colon ≠ lf := by decide
  have hspace : space ≠ cr ∧ space ≠ lf := by decide
  have hvalue := Lines.findPair_append_cons hspace.1 hspace.2
    (Lines.findPair_nil (a := cr) (b := lf)) h.value_plain.crlf
  exact Lines.findPair_append_cons hcolon.1 hcolon.2 h.name_crlf hvalue

/-- The blank behind the colon is all that `strip` takes off. -/
theorem strip_plain {value : Bytes} (h : Plain value) : Decoded.strip (space :: value) = value := by
  have hspace : isBlank space = true := rfl
  have hblank : ∀ {c : UInt8}, isspace c = false → isBlank c = false := by
    intro c hc
    rw [Bool.eq_false_iff] at hc ⊢
    exact fun hb => hc (isspace_of_isBlank hb)
  have hfront : value.dropWhile isBlank = value :=
    dropWhile_of_head fun c hc => hblank (h.head c hc)
  have hback : value.reverse.dropWhile isBlank = value.reverse := by
    apply dropWhile_of_head
    rw [List.head?_reverse]
    exact fun c hc => hblank (h.last c hc)
  rw [Decoded.strip, List.dropWhile_cons_of_pos hspace, hfront, hback, List.reverse_reverse]

theorem Readable.field_fieldLine {header : Bytes × Bytes} (h : Readable header) :
    Decoded.field (fieldLine header) = header := by
  have hmark : (fieldLine header).idxOf colon = header.1.length := by
    rw [fieldLine, List.idxOf_append_of_notMem h.name_colon, List.idxOf_cons_self, Nat.add_zero]
  have hname : (fieldLine header).take header.1.length = header.1 := List.take_left' rfl
  have hvalue : (fieldLine header).drop (header.1.length + 1) = space :: header.2 := by
    rw [fieldLine, ← List.drop_drop, List.drop_left' rfl]
    rfl
  rw [Decoded.field, hmark, hname, hvalue, strip_plain h.value_plain]

theorem responseHeaders_readable {request : HttpRequest} (h : HttpContext.Produced request) :
    ∀ header ∈ responseHeaders request, Readable header := by
  have hfixed : ∀ {name value : Bytes}, colon ∉ name → Lines.findPair cr lf name = none →
      HttpRequest.trim value = value → Lines.findPair cr lf value = none →
        Readable (name, value) := by
    intro name value hcolon hname htrim hvalue
    refine ⟨hcolon, hname, ?_⟩
    have hplain := plain_trim hvalue
    rwa [htrim] at hplain
  intro header hheader
  rcases List.mem_append.mp hheader with hheader | hheader
  · -- what `appendToBuffer` says about the connection
    cases hkeep : KeepsAlive request with
    | true =>
      simp only [hkeep, if_true, List.mem_cons, List.not_mem_nil, or_false] at hheader
      rcases hheader with rfl | rfl
      · exact hfixed (by decide +kernel) (by decide +kernel) (by decide +kernel) (by decide +kernel)
      · exact hfixed (by decide +kernel) (by decide +kernel) (by decide +kernel) (by decide +kernel)
    | false =>
      simp only [hkeep, Bool.false_eq_true, if_false, List.mem_singleton] at hheader
      subst hheader
      exact hfixed (by decide +kernel) (by decide +kernel) (by decide +kernel) (by decide +kernel)
  · simp only [List.mem_cons, List.not_mem_nil, or_false] at hheader
    rcases hheader with rfl | rfl
    · -- the echo
      have hname : colon ∉ bytes "User-Agent" ∧
          Lines.findPair cr lf (bytes "User-Agent") = none := by decide +kernel
      exact ⟨hname.1, hname.2, h.plain _⟩
    · exact hfixed (by decide +kernel) (by decide +kernel) (by decide +kernel) (by decide +kernel)

/-- The header section of a response, whatever the request was. -/
theorem head_responseText {request : HttpRequest} (h : HttpContext.Produced request)
    (behind : Bytes) :
    Decoded.head (responseText request ++ behind) =
      some ((expected request).statusLine, responseHeaders request,
        (expected request).body ++ behind) := by
  have hreadable := responseHeaders_readable h
  have hlines : ∀ l ∈ (responseHeaders request).map fieldLine,
      Lines.findPair cr lf l = none ∧ l ≠ [] := by
    intro l hl
    obtain ⟨header, hheader, rfl⟩ := List.mem_map.mp hl
    refine ⟨(hreadable header hheader).fieldLine_crlf, ?_⟩
    simp [fieldLine]
  have hfields : ((responseHeaders request).map fieldLine).map Decoded.field =
      responseHeaders request := by
    rw [List.map_map]
    calc (responseHeaders request).map (Decoded.field ∘ fieldLine)
        = (responseHeaders request).map id :=
          List.map_congr_left fun header hheader => (hreadable header hheader).field_fieldLine
      _ = responseHeaders request := List.map_id _
  have hstatus : Lines.findPair cr lf (expected request).statusLine = none := by
    show Lines.findPair cr lf (bytes "HTTP/1.1 200 OK") = none
    decide +kernel
  rw [responseText_eq, List.append_assoc, Decoded.head_unlines hstatus hlines, hfields]

/-- A response that keeps the connection says how long its body is. -/
theorem decode_responseText {request : HttpRequest} (h : HttpContext.Produced request)
    (hkeep : KeepsAlive request = true) (behind : Bytes) :
    Decoded.decode (responseText request ++ behind) = some (expected request, behind) := by
  have hlength : Decoded.contentLength (responseHeaders request) =
      some (expected request).body.length := by
    have hdecimal : Decoded.decimal (bytes "12") = some 12 := by decide +kernel
    rw [responseHeaders, if_pos hkeep]
    exact hdecimal
  rw [Decoded.decode, head_responseText h]
  simp only [hlength, List.length_append, Nat.le_add_right, if_true, List.take_left',
    List.drop_left']
  rfl

theorem decodeAll_responses {requests : List HttpRequest}
    (h : ∀ request ∈ requests, HttpContext.Produced request ∧ KeepsAlive request = true) :
    ∀ most, requests.length ≤ most →
      Decoded.decodeAll most (requests.map responseText).flatten =
        some (requests.map expected) := by
  induction requests with
  | nil =>
    intro most _
    cases most <;> rfl
  | cons request requests ih =>
    intro most hmost
    obtain ⟨hproduced, hkeep⟩ := h request List.mem_cons_self
    have hdecode := decode_responseText hproduced hkeep (requests.map responseText).flatten
    cases most with
    | zero => exact absurd hmost (Nat.not_succ_le_zero _)
    | succ most =>
      have hrest := ih (fun r hr => h r (List.mem_cons_of_mem request hr)) most
        (Nat.le_of_succ_le_succ hmost)
      rw [List.map_cons, List.flatten_cons, Decoded.decodeAll_of_decode hdecode, hrest]
      rfl

/-- Every response has bytes. -/
theorem responseText_pos (request : HttpRequest) : 0 < (responseText request).length := by
  rw [responseText_eq, Lines.unlines_cons]
  simp

theorem length_le_responses (requests : List HttpRequest) :
    requests.length ≤ (requests.map responseText).flatten.length := by
  induction requests with
  | nil => exact Nat.le_refl _
  | cons request requests ih =>
    have hpos := responseText_pos request
    simp only [List.map_cons, List.flatten_cons, List.length_append, List.length_cons]
    omega

/-! ## Answering -/

/-- On an established connection a response is sent at once; the
    connection stays as it was unless the request asked to close. -/
theorem onRequest_main {h : HttpConnection} (hs : h.state_ = .kConnected) (request : HttpRequest)
    (w : WriteResult) :
    (onRequest Main.httpCallback h request w).sent = h.sent ++ [responseText request] ∧
      (KeepsAlive request = true →
        (onRequest Main.httpCallback h request w).state_ = .kConnected) := by
  have hsend := send_connected
    (h := { h with handled := h.handled ++ [(request, h.state_)] }) hs (responseText request) w
  obtain ⟨hconnected, hsent, -⟩ := hsend
  cases hkeep : KeepsAlive request with
  | true =>
    have hstay : onRequest Main.httpCallback h request w =
        { h with handled := h.handled ++ [(request, h.state_)] }.send (responseText request) w := by
      have hclose :
          (respond Main.httpCallback h.handled.length request).closeConnection_ = false := by
        simpa [respond_main, KeepsAlive] using hkeep
      simp only [onRequest, hclose, Bool.false_eq_true, if_false]
      rfl
    rw [hstay]
    exact ⟨hsent, fun _ => hconnected⟩
  | false =>
    have hshut : onRequest Main.httpCallback h request w =
        ({ h with handled := h.handled ++ [(request, h.state_)] }.send
          (responseText request) w).shutdown := by
      have hclose :
          (respond Main.httpCallback h.handled.length request).closeConnection_ = true := by
        simpa [respond_main, KeepsAlive] using hkeep
      simp only [onRequest, hclose, if_true]
      rfl
    rw [hshut, (shutdown_fields _).2.1]
    exact ⟨hsent, fun hfalse => Bool.noConfusion hfalse⟩

theorem answer_sent {requests : List (HttpRequest × WriteResult)}
    (hkeep : ∀ r ∈ requests, KeepsAlive r.1 = true) :
    ∀ {h : HttpConnection}, h.state_ = .kConnected →
      (answer h requests).sent = h.sent ++ requests.map fun r => responseText r.1 := by
  induction requests with
  | nil =>
    intro h hs
    simp [answer]
  | cons r requests ih =>
    intro h hs
    obtain ⟨hsent, hopen⟩ := onRequest_main hs r.1 r.2
    have hrest := ih (fun r' hr' => hkeep r' (List.mem_cons_of_mem r hr'))
      (hopen (hkeep r List.mem_cons_self))
    rw [hsent] at hrest
    rw [List.map_cons, List.append_cons]
    exact hrest

/-- The response to a request that keeps the connection. -/
def keptAlive (request : HttpRequest) : Decoded where
  statusLine := bytes "HTTP/1.1 200 OK"
  headers := [(bytes "Content-Length", bytes "12"), (bytes "Connection", bytes "Keep-Alive"),
    (bytes "User-Agent", request.getHeader (bytes "User-Agent")), (bytes "server", bytes "tinyWS")]
  body := bytes "Hello World!"

theorem expected_keptAlive {request : HttpRequest} (h : KeepsAlive request = true) :
    expected request = keptAlive request := by
  rw [expected, responseHeaders, if_pos h]
  rfl

/-- **Responses cannot be split**: for every list of requests that parsers
    completed, from any bytes, the responses to those that keep the
    connection are read back one by one, each with the echo as its only
    part that depends on the request; and the header section of any
    response ends where the server ended it, whatever follows. -/
theorem decodeAll_answer (requests : List (HttpRequest × WriteResult))
    (hproduced : ∀ r ∈ requests, HttpContext.Produced r.1) (h : HttpConnection)
    (hs : h.state_ = .kConnected) :
    (∃ texts, (answer h (requests.filter fun r => KeepsAlive r.1)).sent = h.sent ++ texts ∧
      Decoded.decodeAll texts.flatten.length texts.flatten =
        some ((requests.filter fun r => KeepsAlive r.1).map fun r => keptAlive r.1)) ∧
      ∀ r ∈ requests, ∃ text,
        (onRequest Main.httpCallback h r.1 r.2).sent = h.sent ++ [text] ∧
          ∀ behind, Decoded.head (text ++ behind) =
            some (bytes "HTTP/1.1 200 OK", responseHeaders r.1,
              bytes "Hello World!" ++ behind) := by
  constructor
  · have hkept : ∀ r ∈ requests.filter fun r => KeepsAlive r.1, KeepsAlive r.1 = true :=
      fun r hr => (List.mem_filter.mp hr).2
    refine ⟨_, answer_sent hkept hs, ?_⟩
    have hgood : ∀ request ∈ (requests.filter fun r => KeepsAlive r.1).map Prod.fst,
        HttpContext.Produced request ∧ KeepsAlive request = true := by
      intro request hrequest
      obtain ⟨r, hr, rfl⟩ := List.mem_map.mp hrequest
      exact ⟨hproduced r (List.mem_filter.mp hr).1, hkept r hr⟩
    have hall := decodeAll_responses hgood _ (length_le_responses _)
    simp only [List.map_map, Function.comp_def] at hall
    rw [hall]
    refine congrArg some (List.map_congr_left fun r hr => ?_)
    exact expected_keptAlive (hkept r hr)
  · intro r hr
    exact ⟨responseText r.1, (onRequest_main hs r.1 r.2).1,
      fun behind => head_responseText (hproduced r hr) behind⟩

/-- A request with a header to echo. -/
def greeting : RequestText where
  method := .kGet
  target := bytes "/"
  headers := [(bytes "User-Agent", bytes " a: b\n")]
  method_valid := plainGet.method_valid
  target_blank := plainGet.target_blank
  field_colon := by decide +kernel
  requestLine_crlf := plainGet.requestLine_crlf
  headerLine_crlf := by decide +kernel

/-- Twice the same request on a new connection, and one without headers. -/
theorem decodeAll_answer_greeting :
    let h := established "c" 0 0 5 false Epoll.new
    let requests := [(greeting.toRequest 7, WriteResult.wrote 999),
      (plainGet.toRequest 8, WriteResult.wrote 0), (greeting.toRequest 9, WriteResult.wrote 999)]
    (∃ texts, (answer h (requests.filter fun r => KeepsAlive r.1)).sent = h.sent ++ texts ∧
      Decoded.decodeAll texts.flatten.length texts.flatten =
        some ((requests.filter fun r => KeepsAlive r.1).map fun r => keptAlive r.1)) ∧
      ∀ r ∈ requests, ∃ text,
        (onRequest Main.httpCallback h r.1 r.2).sent = h.sent ++ [text] ∧
          ∀ behind, Decoded.head (text ++ behind) =
            some (bytes "HTTP/1.1 200 OK", responseHeaders r.1,
              bytes "Hello World!" ++ behind) := by
  refine decodeAll_answer _ ?_ _ rfl
  intro r hr
  simp only [List.mem_cons, List.not_mem_nil, or_false] at hr
  rcases hr with rfl | rfl | rfl
  · exact HttpContext.produced_toRequest greeting 7
  · exact HttpContext.produced_toRequest plainGet 8
  · exact HttpContext.produced_toRequest greeting 9

end HttpConnection

end TinyWS
