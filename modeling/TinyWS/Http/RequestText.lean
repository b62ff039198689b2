import TinyWS.Http.HttpContext

/-! # Well-Formed Requests

    What a client means to send: a method, a target and headers.  Its
    `text` is a request line, the header lines and an empty line, and its
    `toRequest` is what a server should make of it.

    A fresh parser fed the text followed by anything completes exactly
    this request and leaves the rest; fed a proper prefix it asks for
    more. -/

namespace TinyWS

open Std

/-- The line of a header. -/
def headerLine (header : Bytes × Bytes) : Bytes := header.1 ++ colon :: header.2

/-- The line in front of the headers. -/
def requestLine (method : Method) (target : Bytes) : Bytes :=
  method.name ++ space :: (target ++ space :: bytes "HTTP/1.1")

/-- A request without a body.  A header is its name and all that follows
    the colon. -/
structure RequestText where
  method : Method
  target : Bytes
  headers : List (Bytes × Bytes)
  method_valid : method ≠ .kInvalid
  target_blank : space ∉ target
  field_colon : ∀ h ∈ headers, colon ∉ h.1
  /-- No line end inside a line. -/
  requestLine_crlf : Lines.findPair cr lf (requestLine method target) = none
  headerLine_crlf : ∀ h ∈ headers, Lines.findPair cr lf (headerLine h) = none

namespace RequestText

def lines (r : RequestText) : List Bytes :=
  requestLine r.method r.target :: (r.headers.map headerLine ++ [[]])

/-- The bytes on the wire. -/
def text (r : RequestText) : Bytes := Lines.unlines cr lf r.lines

/-- The request the text stands for, received at `t`. -/
def toRequest (r : RequestText) (t : TimeType) : HttpRequest where
  method_ := r.method
  path_ := r.target.take (r.target.idxOf question)
  query_ := r.target.drop (r.target.idxOf question)
  receiveTime_ := t
  headers_ := r.headers.foldl (fun m h => m.insert h.1 (HttpRequest.trim h.2)) ∅

theorem lines_crlf (r : RequestText) : ∀ l ∈ r.lines, Lines.findPair cr lf l = none := by
  intro l hl
  simp only [lines, List.mem_cons, List.mem_append, List.mem_map, List.not_mem_nil,
    or_false] at hl
  rcases hl with rfl | ⟨h, hh, rfl⟩ | rfl
  · exact r.requestLine_crlf
  · exact r.headerLine_crlf h hh
  · rfl

theorem text_ne_nil (r : RequestText) : r.text ≠ [] := by
  simp [text, lines]

end RequestText

/-! ## `std::find` on a line -/

section Find

variable {c : UInt8} {xs : Bytes}

theorem idxOf_append_cons (h : c ∉ xs) (ys : Bytes) :
    (xs ++ c :: ys).idxOf c = xs.length := by
  rw [List.idxOf_append_of_notMem h]
  simp

theorem take_idxOf (h : c ∉ xs) (ys : Bytes) :
    (xs ++ c :: ys).take ((xs ++ c :: ys).idxOf c) = xs := by
  rw [idxOf_append_cons h, List.take_left]

theorem drop_idxOf (h : c ∉ xs) (ys : Bytes) :
    (xs ++ c :: ys).drop ((xs ++ c :: ys).idxOf c + 1) = ys := by
  rw [idxOf_append_cons h, ← List.drop_drop, List.drop_left]
  rfl

theorem idxOf_ne_length (h : c ∉ xs) (ys : Bytes) :
    (xs ++ c :: ys).idxOf c ≠ (xs ++ c :: ys).length := by
  rw [idxOf_append_cons h]
  simp

end Find

theorem space_not_mem_name (m : Method) : space ∉ m.name := by cases m <;> decide

theorem methodOf_name {m : Method} (h : m ≠ .kInvalid) : HttpRequest.methodOf m.name = m := by
  cases m with
  | kInvalid => exact absurd rfl h
  | _ => decide

/-! ## Parsing a well-formed request -/

namespace HttpContext

/-- A line of the grammar is accepted; without a question mark the query
    stays what it was. -/
theorem processRequestLine_accepts {ctx : HttpContext} (hinvalid : ctx.request_.method_ = .kInvalid)
    {method : Method} {target : Bytes} (hm : method ≠ .kInvalid) (ht : space ∉ target) :
    ctx.processRequestLine (requestLine method target) = .ok (true,
      { ctx with request_ := { ctx.request_ with
          method_ := method
          path_ := target.take (target.idxOf question)
          query_ :=
            if target.idxOf question ≠ target.length then target.drop (target.idxOf question)
            else ctx.request_.query_ } }) := by
  -- where the first blank of the line is, and what stands around it
  have hname := space_not_mem_name method
  have hblank := idxOf_ne_length hname (target ++ space :: bytes "HTTP/1.1")
  have htake := take_idxOf hname (target ++ space :: bytes "HTTP/1.1")
  have hdrop := drop_idxOf hname (target ++ space :: bytes "HTTP/1.1")
  change (requestLine method target).idxOf space ≠ (requestLine method target).length at hblank
  change (requestLine method target).take ((requestLine method target).idxOf space) = _ at htake
  change (requestLine method target).drop ((requestLine method target).idxOf space + 1) = _ at hdrop
  generalize requestLine method target = line at hblank htake hdrop ⊢
  have hset : ctx.request_.setMethod method.name =
      .ok (true, { ctx.request_ with method_ := method }) := by
    simp [HttpRequest.setMethod, hinvalid, methodOf_name hm, hm]
  simp only [processRequestLine]
  rw [if_pos hblank, htake, hset]
  dsimp only
  rw [hdrop, if_pos (idxOf_ne_length ht _), take_idxOf ht, drop_idxOf ht]
  by_cases hq : target.idxOf question = target.length
  · -- no query: the path is the whole target
    rw [if_neg (not_not.mpr hq), if_neg (not_not.mpr hq), hq]
    simp [HttpRequest.setPath]
  · rw [if_pos hq, if_pos hq]
    simp [HttpRequest.setPath, HttpRequest.setQuery]

theorem processRequestLine_requestLine {method : Method} {target : Bytes}
    (hm : method ≠ .kInvalid) (ht : space ∉ target) :
    new.processRequestLine (requestLine method target) = .ok (true,
      { new with request_ := { HttpRequest.new with
          method_ := method
          path_ := target.take (target.idxOf question)
          query_ := target.drop (target.idxOf question) } }) := by
  have hquery : (if target.idxOf question ≠ target.length then
      target.drop (target.idxOf question) else new.request_.query_) =
        target.drop (target.idxOf question) := by
    split
    · rfl
    · next hq =>
      rw [not_not.mp hq, List.drop_length]
      rfl
  rw [processRequestLine_accepts rfl hm ht, hquery]
  rfl

/-- Header lines and the empty line behind them. -/
theorem feedLines_headers {ctx : HttpContext} (hctx : ctx.state_ = .kExpectHeader)
    (t : TimeType) {headers : List (Bytes × Bytes)} (hh : ∀ h ∈ headers, colon ∉ h.1)
    (rest : List Bytes) :
    ctx.feedLines t (headers.map headerLine ++ [] :: rest) = .ok (true,
      { state_ := .kGotAll
        request_ := { ctx.request_ with
          headers_ := headers.foldl (fun m h => m.insert h.1 (HttpRequest.trim h.2))
            ctx.request_.headers_ } }, rest) := by
  induction headers generalizing ctx with
  | nil => simp [feedLines, takeLine, hctx, setState]
  | cons h hs ih =>
    have hfield := hh h (by simp)
    have hline : ctx.takeLine t (headerLine h) = .ok (.next
        { ctx with request_ := ctx.request_.addHeader h.1 h.2 }) := by
      simp only [takeLine, hctx, headerLine]
      rw [if_pos (idxOf_ne_length hfield _), take_idxOf hfield, drop_idxOf hfield]
    rw [List.map_cons, List.cons_append, feedLines, hline]
    exact @ih { ctx with request_ := ctx.request_.addHeader h.1 h.2 } hctx
      fun k hk => hh k (by simp [hk])

/-- A fresh parser takes the lines of a request and leaves those behind. -/
theorem feedLines_request (r : RequestText) (t : TimeType) (rest : List Bytes) :
    new.feedLines t (r.lines ++ rest) =
      .ok (true, { state_ := .kGotAll, request_ := r.toRequest t }, rest) := by
  have hline : new.takeLine t (requestLine r.method r.target) = .ok (.next
      { state_ := .kExpectHeader
        request_ := { HttpRequest.new with
          method_ := r.method
          path_ := r.target.take (r.target.idxOf question)
          query_ := r.target.drop (r.target.idxOf question)
          receiveTime_ := t } }) := by
    simp only [takeLine, new]
    rw [show (⟨.kExpectRequestLine, HttpRequest.new⟩ : HttpContext) = new from rfl,
      processRequestLine_requestLine r.method_valid r.target_blank]
    rfl
  rw [RequestText.lines, List.cons_append, List.append_assoc, feedLines, hline]
  exact feedLines_headers rfl t r.field_colon rest

/-- **A complete request**: it is parsed, and what follows it is left. -/
theorem feed_request (r : RequestText) (t : TimeType) (rest : Bytes) :
    new.feed t (r.text ++ rest) =
      .ok (true, { state_ := .kGotAll, request_ := r.toRequest t }, rest) := by
  simp only [feed, RequestText.text, Lines.splitLines_unlines cr_ne_lf r.lines_crlf,
    feedLines_request]
  rw [← (Lines.splitLines_spec cr_ne_lf rest).1]

/-- Lines in front of the one that completes a request are all consumed. -/
theorem feedLines_before {ctx ctx' : HttpContext} {t : TimeType} {ls ks : List Bytes}
    {k : Bytes} (h : ctx.feedLines t (ls ++ k :: ks) = .ok (true, ctx', [])) :
    ∃ c, ctx.feedLines t ls = .ok (true, c, []) ∧ c.state_ ≠ .kGotAll := by
  induction ls generalizing ctx with
  | nil =>
    -- in `kGotAll` the parser would not have taken `k`
    refine ⟨ctx, rfl, fun hs => ?_⟩
    simp [feedLines, takeLine, hs] at h
  | cons l ls ih =>
    rw [List.cons_append, feedLines] at h
    rw [feedLines]
    cases hl : ctx.takeLine t l with
    | error fault => rw [hl] at h; cases h
    | ok r =>
      rw [hl] at h
      cases r with
      | next c => exact ih h
      | complete c => simp at h
      | rejected c => cases h

/-- **An incomplete request**: the parser takes what is there and asks for
    more. -/
theorem feed_prefix (r : RequestText) (t : TimeType) {text more : Bytes}
    (htext : r.text = text ++ more) (hmore : more ≠ []) :
    ∃ ctx rest, new.feed t text = .ok (true, ctx, rest) ∧ ctx.state_ ≠ .kGotAll := by
  have hsplit : Lines.splitLines cr lf r.text = (r.lines, []) := by
    have := Lines.splitLines_unlines cr_ne_lf (r := []) r.lines_crlf
    simpa [RequestText.text, Lines.splitLines] using this
  rw [htext, Lines.splitLines_append cr_ne_lf, Prod.mk.injEq] at hsplit
  obtain ⟨hlines, hrest⟩ := hsplit
  -- the bytes still to come contain at least one of the lines
  cases hlast : (Lines.splitLines cr lf ((Lines.splitLines cr lf text).2 ++ more)).1 with
  | nil =>
    have hspec := (Lines.splitLines_spec cr_ne_lf ((Lines.splitLines cr lf text).2 ++ more)).1
    rw [hlast, hrest] at hspec
    simp [hmore] at hspec
  | cons k ks =>
    have hall := feedLines_request r t []
    rw [List.append_nil, ← hlines, hlast] at hall
    obtain ⟨c, hc, hopen⟩ := feedLines_before hall
    exact ⟨c, _, by simp only [feed, hc]; rfl, hopen⟩

end HttpContext

/-! ## The grammar of request lines -/

/-- A method, a blank, a target, a blank and the version. -/
def ValidRequestLine (line : Bytes) : Prop :=
  ∃ method target, method ≠ Method.kInvalid ∧ space ∉ target ∧ line = requestLine method target

theorem name_methodOf {m : Bytes} (h : HttpRequest.methodOf m ≠ .kInvalid) :
    (HttpRequest.methodOf m).name = m := by
  unfold HttpRequest.methodOf at h ⊢
  split_ifs at h ⊢ with h1 h2 h3 h4 h5
  · exact h1.symm
  · exact h2.symm
  · exact h3.symm
  · exact h4.symm
  · exact h5.symm
  · exact absurd rfl h

/-- What stands around the byte `std::find` found. -/
theorem eq_of_idxOf {c : UInt8} {xs : Bytes} (h : xs.idxOf c ≠ xs.length) :
    xs = xs.take (xs.idxOf c) ++ c :: xs.drop (xs.idxOf c + 1) ∧ c ∉ xs.take (xs.idxOf c) := by
  have hlt : xs.idxOf c < xs.length := Nat.lt_of_le_of_ne List.idxOf_le_length h
  refine ⟨?_, fun hmem => ?_⟩
  · -- the list is cut at the index, and the byte stands there
    conv_lhs => rw [← List.take_append_drop (xs.idxOf c) xs, List.drop_eq_getElem_cons hlt]
    simp
  · -- an earlier one would have been found
    obtain ⟨i, hi, hc⟩ := List.getElem_of_mem hmem
    have hi' : i < xs.idxOf c := by
      rw [List.length_take] at hi; omega
    rw [List.getElem_take] at hc
    have hne := List.not_of_lt_findIdx hi'
    simp [hc] at hne

namespace HttpContext

/-- A line that leaves its mark on the request contains a blank. -/
theorem space_mem_of_method {ctx ctx' : HttpContext} {line : Bytes} {isOk : Bool}
    (h : ctx.processRequestLine line = .ok (isOk, ctx')) (hm : ctx.request_.method_ = .kInvalid)
    (hm' : ctx'.request_.method_ ≠ .kInvalid) : space ∈ line := by
  by_contra hno
  have hblank : ¬ line.idxOf space ≠ line.length := by
    rw [not_not]
    exact List.idxOf_eq_length hno
  simp only [processRequestLine] at h
  rw [if_neg hblank] at h
  cases h
  exact hm' hm

/-- `setMethod` asserts on a request that has a method already. -/
theorem processRequestLine_assert {ctx : HttpContext} {line : Bytes}
    (hm : ctx.request_.method_ ≠ .kInvalid) (hline : space ∈ line) :
    ctx.processRequestLine line = .error .setMethodAssert := by
  have hblank : line.idxOf space ≠ line.length :=
    Nat.ne_of_lt (List.idxOf_lt_length_iff.mpr hline)
  simp only [processRequestLine]
  rw [if_pos hblank]
  simp [HttpRequest.setMethod, hm]

/-- A request line is accepted exactly when the grammar has it. -/
theorem processRequestLine_isOk {ctx : HttpContext} (hm : ctx.request_.method_ = .kInvalid)
    (line : Bytes) :
    ∃ isOk ctx', ctx.processRequestLine line = .ok (isOk, ctx') ∧
      (isOk = true ↔ ValidRequestLine line) := by
  have hset : ∀ m, ctx.request_.setMethod m = .ok (decide (HttpRequest.methodOf m ≠ .kInvalid),
      { ctx.request_ with method_ := HttpRequest.methodOf m }) := by
    intro m
    simp [HttpRequest.setMethod, hm]
  simp only [processRequestLine, hset]
  by_cases hblank : line.idxOf space = line.length
  · -- no blank at all
    rw [if_neg (not_not.mpr hblank)]
    refine ⟨_, _, rfl, iff_of_false (by simp) ?_⟩
    rintro ⟨m, target, -, -, rfl⟩
    exact idxOf_ne_length (space_not_mem_name m) _ hblank
  · rw [if_pos hblank]
    obtain ⟨hsplit, hfirst⟩ := eq_of_idxOf hblank
    by_cases hmethod : HttpRequest.methodOf (line.take (line.idxOf space)) = .kInvalid
    · -- the first word is no method
      simp only [hmethod, ne_eq, not_true, decide_false]
      refine ⟨_, _, rfl, iff_of_false (by simp) ?_⟩
      rintro ⟨m, target, hm', -, rfl⟩
      have hname := take_idxOf (space_not_mem_name m) (target ++ space :: bytes "HTTP/1.1")
      change (requestLine m target).take ((requestLine m target).idxOf space) = m.name at hname
      rw [hname, methodOf_name hm'] at hmethod
      exact hm' hmethod
    · simp only [hmethod, ne_eq, not_false_eq_true, decide_true]
      refine ⟨_, _, rfl, ?_⟩
      rw [decide_eq_true_iff]
      constructor
      · intro hversion
        generalize hstart : line.drop (line.idxOf space + 1) = start at hversion
        -- the version is not empty, so the second blank was found
        have hsecond : start.idxOf space ≠ start.length := by
          intro heq
          rw [heq, List.drop_eq_nil_of_le (Nat.le_succ _)] at hversion
          exact absurd hversion (by decide)
        obtain ⟨hstart', htarget⟩ := eq_of_idxOf hsecond
        refine ⟨_, start.take (start.idxOf space), hmethod, htarget, ?_⟩
        rw [requestLine, name_methodOf hmethod, ← hversion, ← hstart', ← hstart]
        exact hsplit
      · -- in a line of the grammar the blanks are where they should be
        rintro ⟨m, target, hm', htarget, rfl⟩
        have hrest := drop_idxOf (space_not_mem_name m) (target ++ space :: bytes "HTTP/1.1")
        change (requestLine m target).drop ((requestLine m target).idxOf space + 1) = _ at hrest
        rw [hrest]
        exact drop_idxOf htarget _

end HttpContext

end TinyWS
