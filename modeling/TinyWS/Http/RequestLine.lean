import TinyWS.Http.RequestText

/-! # Request Lines

    `processRequestLine` accepts exactly the lines of the grammar.  What it
    stores is the target, cut at the first question mark; a target without
    one leaves the query alone, so the query is right where a parser
    whose request has no method yet has stored no query. -/

namespace TinyWS

/-- One of five methods, a single blank, a target without blanks, a single
    blank and the version. -/
def RequestLineGrammar (line : Bytes) : Prop :=
  ∃ name ∈ [bytes "GET", bytes "POST", bytes "HEAD", bytes "PUT", bytes "DELETE"],
    ∃ target, space ∉ target ∧ line = name ++ [space] ++ target ++ [space] ++ bytes "HTTP/1.1"

theorem requestLine_eq (method : Method) (target : Bytes) : requestLine method target =
    method.name ++ [space] ++ target ++ [space] ++ bytes "HTTP/1.1" := by
  simp [requestLine]

theorem validRequestLine_iff {line : Bytes} : ValidRequestLine line ↔ RequestLineGrammar line := by
  constructor
  · rintro ⟨method, target, hmethod, htarget, rfl⟩
    refine ⟨method.name, ?_, target, htarget, requestLine_eq method target⟩
    cases method with
    | kInvalid => exact absurd rfl hmethod
    | kGet | kPost | kHead | kPut | kDelete => decide
  · rintro ⟨name, hname, target, htarget, rfl⟩
    obtain ⟨method, hmethod, rfl⟩ : ∃ method : Method, method ≠ .kInvalid ∧ method.name = name := by
      simp only [List.mem_cons, List.not_mem_nil, or_false] at hname
      rcases hname with rfl | rfl | rfl | rfl | rfl
      · exact ⟨.kGet, by decide, rfl⟩
      · exact ⟨.kPost, by decide, rfl⟩
      · exact ⟨.kHead, by decide, rfl⟩
      · exact ⟨.kPut, by decide, rfl⟩
      · exact ⟨.kDelete, by decide, rfl⟩
    exact ⟨method, target, hmethod, htarget, (requestLine_eq method target).symm⟩

/-- A target cut at its first question mark. -/
theorem question_cut (target : Bytes) :
    target.take (target.idxOf question) ++ target.drop (target.idxOf question) = target ∧
      question ∉ target.take (target.idxOf question) ∧
      (target.drop (target.idxOf question) = [] ∨
        (target.drop (target.idxOf question)).head? = some question) := by
  refine ⟨List.take_append_drop _ _, ?_, ?_⟩
  · by_cases hq : target.idxOf question = target.length
    · rw [hq, List.take_length]
      exact fun hmem => Nat.ne_of_lt (List.idxOf_lt_length_iff.mpr hmem) hq
    · exact (eq_of_idxOf hq).2
  · by_cases hq : target.idxOf question = target.length
    · exact .inl (by rw [hq, List.drop_length])
    · refine .inr ?_
      obtain ⟨hsplit, -⟩ := eq_of_idxOf hq
      have hlen : (target.take (target.idxOf question)).length = target.idxOf question := by
        rw [List.length_take]
        exact Nat.min_eq_left List.idxOf_le_length
      have hdrop := congrArg (List.drop (target.idxOf question)) hsplit
      rw [List.drop_left' hlen] at hdrop
      rw [hdrop]
      rfl

namespace HttpContext

/-! ## The requests of a parser -/

/-- What the member functions of a parser make of it; `reset` starts over
    with `new`. -/
inductive Reached : HttpContext → Prop where
  | new : Reached new
  | processRequestLine {ctx ctx' : HttpContext} {line : Bytes} {isOk : Bool} :
      Reached ctx → ctx.processRequestLine line = .ok (isOk, ctx') → Reached ctx'
  | setReceiveTime {ctx : HttpContext} (t : TimeType) :
      Reached ctx → Reached { ctx with request_ := ctx.request_.setReceiveTime t }
  | addHeader {ctx : HttpContext} (field rest : Bytes) :
      Reached ctx → Reached { ctx with request_ := ctx.request_.addHeader field rest }
  | setState {ctx : HttpContext} (s : HttpRequestParseState) :
      Reached ctx → Reached (ctx.setState s)

/-- The request of a parser that has no method has no target either. -/
def Untargeted (ctx : HttpContext) : Prop :=
  ctx.request_.method_ = .kInvalid → ctx.request_.path_ = [] ∧ ctx.request_.query_ = []

theorem untargeted_processRequestLine {ctx ctx' : HttpContext} (h : ctx.Untargeted) {line : Bytes}
    {isOk : Bool} (hline : ctx.processRequestLine line = .ok (isOk, ctx')) : ctx'.Untargeted := by
  unfold processRequestLine at hline
  dsimp only at hline
  split at hline
  · by_cases hinvalid : ctx.request_.method_ = .kInvalid
    · by_cases hmethod : HttpRequest.methodOf (line.take (line.idxOf space)) = .kInvalid
      · -- an unknown method changes nothing
        simp only [HttpRequest.setMethod, if_pos hinvalid, hmethod, ne_eq, not_true,
          decide_false] at hline
        cases hline
        exact fun _ => h hinvalid
      · -- a target comes with its method
        simp only [HttpRequest.setMethod, if_pos hinvalid, hmethod, ne_eq, not_false_eq_true,
          decide_true] at hline
        cases hline
        intro hnone
        refine absurd ?_ hmethod
        dsimp only at hnone
        split at hnone
        · split at hnone
          · exact hnone
          · exact hnone
        · exact hnone
    · simp only [HttpRequest.setMethod, if_neg hinvalid] at hline
      cases hline
  · cases hline
    exact h

theorem Reached.untargeted {ctx : HttpContext} (h : ctx.Reached) : ctx.Untargeted := by
  induction h with
  | new => exact fun _ => ⟨rfl, rfl⟩
  | processRequestLine _ hline ih => exact untargeted_processRequestLine ih hline
  | setReceiveTime t _ ih => exact ih
  | addHeader field rest _ ih => exact ih
  | setState s _ ih => exact ih

/-- A parse calls the member functions and nothing else. -/
theorem Reached.takeLine {ctx ctx' : HttpContext} (h : ctx.Reached) {t : TimeType} {line : Bytes}
    (hline : ctx.takeLine t line = .ok (.next ctx') ∨ ctx.takeLine t line = .ok (.complete ctx') ∨
      ctx.takeLine t line = .ok (.rejected ctx')) : ctx'.Reached := by
  unfold HttpContext.takeLine at hline
  cases hs : ctx.state_ with
  | kExpectRequestLine =>
    simp only [hs] at hline
    cases hp : ctx.processRequestLine line with
    | error fault =>
      rw [hp] at hline
      rcases hline with hline | hline | hline <;> cases hline
    | ok r =>
      obtain ⟨isOk, c⟩ := r
      have hc : c.Reached := .processRequestLine h hp
      rw [hp] at hline
      cases isOk with
      | true =>
        rcases hline with hline | hline | hline <;> cases hline
        exact .setState _ (.setReceiveTime t hc)
      | false =>
        rcases hline with hline | hline | hline <;> cases hline
        exact hc
  | kExpectHeader =>
    simp only [hs] at hline
    split at hline
    · rcases hline with hline | hline | hline <;> cases hline
      rw [← hs]
      exact .addHeader _ _ h
    · rcases hline with hline | hline | hline <;> cases hline
      exact .setState _ h
  | kExpectBody | kGotAll =>
    simp only [hs] at hline
    rcases hline with hline | hline | hline <;> cases hline

theorem Reached.feedLines {ctx ctx' : HttpContext} (h : ctx.Reached) {t : TimeType}
    {lines rest : List Bytes} {isOk : Bool}
    (hfeed : ctx.feedLines t lines = .ok (isOk, ctx', rest)) : ctx'.Reached := by
  induction lines generalizing ctx with
  | nil =>
    cases hfeed
    exact h
  | cons line lines ih =>
    rw [HttpContext.feedLines] at hfeed
    cases hl : ctx.takeLine t line with
    | error fault =>
      rw [hl] at hfeed
      cases hfeed
    | ok r =>
      rw [hl] at hfeed
      cases r with
      | next c => exact ih (h.takeLine (.inl hl)) hfeed
      | complete c =>
        cases hfeed
        exact h.takeLine (.inr (.inl hl))
      | rejected c =>
        cases hfeed
        exact h.takeLine (.inr (.inr hl))

/-! ## The grammar -/

/-- **Request lines are accepted exactly by the grammar**: on a request
    without a method every line is accepted if and only if it has a method,
    a blank, a target, a blank and the version.  The path is then the target
    up to its first question mark; path and query make up the target exactly
    when it has a question mark or the request held no query before, and a
    parser that was used through its member functions only held none. -/
theorem processRequestLine_grammar (ctx : HttpContext) (hm : ctx.request_.method_ = .kInvalid)
    (line : Bytes) :
    (ctx.Reached → ctx.request_.query_ = []) ∧
      ∃ isOk ctx', ctx.processRequestLine line = .ok (isOk, ctx') ∧
        (isOk = true ↔ RequestLineGrammar line) ∧
        ∀ method target, method ≠ Method.kInvalid → space ∉ target →
          line = method.name ++ [space] ++ target ++ [space] ++ bytes "HTTP/1.1" →
          ctx'.request_.method_ = method ∧ question ∉ ctx'.request_.path_ ∧
            ((ctx'.request_.path_ ++ ctx'.request_.query_ = target ∧
                (ctx'.request_.query_ = [] ∨ ctx'.request_.query_.head? = some question)) ↔
              (question ∈ target ∨ ctx.request_.query_ = [])) := by
  obtain ⟨isOk, ctx', hline, hvalid⟩ := processRequestLine_isOk hm line
  refine ⟨fun h => (h.untargeted hm).2, isOk, ctx', hline,
    hvalid.trans validRequestLine_iff, ?_⟩
  rintro method target hmethod htarget rfl
  rw [← requestLine_eq, processRequestLine_accepts hm hmethod htarget] at hline
  obtain ⟨happend, hpath, hquery⟩ := question_cut target
  cases hline
  refine ⟨rfl, hpath, ?_⟩
  by_cases hq : target.idxOf question = target.length
  · -- the query is the one from before
    have hnone : question ∉ target := fun hmem =>
      Nat.ne_of_lt (List.idxOf_lt_length_iff.mpr hmem) hq
    simp only [hq, ne_eq, not_true, if_false, List.take_length, List.append_right_eq_self,
      hnone, false_or]
    exact ⟨fun h => h.1, fun h => ⟨h, .inl h⟩⟩
  · have hmem : question ∈ target := List.idxOf_lt_length_iff.mp
      (Nat.lt_of_le_of_ne List.idxOf_le_length hq)
    simp only [ne_eq, hq, not_false_eq_true, if_true, hmem, true_or, iff_true]
    exact ⟨happend, hquery⟩

/-- Two question marks: the second one belongs to the query. -/
theorem processRequestLine_grammar_query :
    ∃ isOk ctx', new.processRequestLine (bytes "GET /a?b?c HTTP/1.1") = .ok (isOk, ctx') ∧
      ctx'.request_.path_ ++ ctx'.request_.query_ = bytes "/a?b?c" := by
  obtain ⟨hnew, isOk, ctx', hline, -, htarget⟩ :=
    processRequestLine_grammar new rfl (bytes "GET /a?b?c HTTP/1.1")
  obtain ⟨-, -, hsplit⟩ := htarget .kGet (bytes "/a?b?c") (by decide) (by decide) (by decide)
  exact ⟨isOk, ctx', hline, (hsplit.mpr (.inr (hnew .new))).1⟩

/-- A request whose query was set beforehand keeps it behind a target that
    has none. -/
theorem not_processRequestLine_splits :
    ∃ (ctx ctx' : HttpContext), ctx.request_ = HttpRequest.new.setQuery (bytes "?x") ∧
      ctx.request_.method_ = .kInvalid ∧
      ctx.processRequestLine (bytes "GET /a HTTP/1.1") = .ok (true, ctx') ∧
      ctx'.request_.path_ ++ ctx'.request_.query_ ≠ bytes "/a" :=
  ⟨{ new with request_ := HttpRequest.new.setQuery (bytes "?x") },
    { new with request_ :=
        { HttpRequest.new with method_ := .kGet, path_ := bytes "/a", query_ := bytes "?x" } },
    rfl, rfl, rfl, by decide⟩

end HttpContext

end TinyWS
