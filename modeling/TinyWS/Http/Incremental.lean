import TinyWS.Http.Rejected

/-! # Incremental Parsing

    The bytes of a connection arrive in chunks, cut anywhere: inside the
    request line, between CR and LF, in front of the empty line.  A parser
    that is fed the chunks one by one, up to the first call that fails or
    completes a request, ends like one that is handed all bytes at once.

    Two facts carry the proof: a parse that wants more can be taken up
    where it stopped, and one that is done does not look at what follows. -/

namespace TinyWS

namespace HttpContext

/-! ## Feeding in pieces -/

/-- A parse that wants more goes on as if it had waited. -/
theorem feed_append_open {start ctx : HttpContext} {t : TimeType} {text rest : Bytes}
    (h : start.feed t text = .ok (true, ctx, rest)) (hopen : ctx.state_ ≠ .kGotAll)
    (more : Bytes) : ctx.feed t (rest ++ more) = start.feed t (text ++ more) := by
  unfold feed at h
  cases hf : start.feedLines t (Lines.splitLines cr lf text).1 with
  | error fault => rw [hf] at h; cases h
  | ok r =>
    obtain ⟨isOk, c, ls⟩ := r
    rw [hf] at h
    cases h
    -- only the unfinished line is left, and it continues
    have hls := feedLines_rest hf hopen
    subst hls
    simp only [feed, Lines.unlines_nil, List.nil_append]
    rw [Lines.splitLines_append cr_ne_lf text more, feedLines_append hf hopen]

/-- Lines behind the one that ended a parse are left alone. -/
theorem feedLines_append_done {start ctx : HttpContext} {t : TimeType} {ls rest : List Bytes}
    {isOk : Bool} (hstart : start.Expecting)
    (h : start.feedLines t ls = .ok (isOk, ctx, rest))
    (hdone : isOk = false ∨ ctx.state_ = .kGotAll) (ks : List Bytes) :
    start.feedLines t (ls ++ ks) = .ok (isOk, ctx, rest ++ ks) := by
  induction ls generalizing start with
  | nil =>
    -- no line was taken, and the parser is not done
    cases h
    rcases hdone with hdone | hdone
    · cases hdone
    · rcases hstart with hs | hs <;> simp [hs] at hdone
  | cons l ls ih =>
    rw [feedLines] at h
    rw [List.cons_append, feedLines]
    cases hl : start.takeLine t l with
    | error fault => rw [hl] at h; cases h
    | ok r =>
      rw [hl] at h
      cases r with
      | next c => exact ih (Or.inr (takeLine_next hl)) h
      | complete c => cases h; rfl
      | rejected c => cases h; rfl

/-- A parse that is done stays done. -/
theorem feed_append_done {start ctx : HttpContext} {t : TimeType} {text rest : Bytes}
    {isOk : Bool} (hstart : start.Expecting) (h : start.feed t text = .ok (isOk, ctx, rest))
    (hdone : isOk = false ∨ ctx.state_ = .kGotAll) (more : Bytes) :
    start.feed t (text ++ more) = .ok (isOk, ctx, rest ++ more) := by
  unfold feed at h
  cases hf : start.feedLines t (Lines.splitLines cr lf text).1 with
  | error fault => rw [hf] at h; cases h
  | ok r =>
    obtain ⟨isOk', c, ls⟩ := r
    rw [hf] at h
    cases h
    have hback := (Lines.splitLines_spec cr_ne_lf ((Lines.splitLines cr lf text).2 ++ more)).1
    simp only [feed, Lines.splitLines_append cr_ne_lf text more]
    rw [feedLines_append_done hstart hf hdone]
    simp only [Lines.unlines_append, List.append_assoc]
    rw [← hback]

/-- What is left is the end of what was there. -/
theorem feed_length_le {start ctx : HttpContext} {t : TimeType} {text rest : Bytes} {isOk : Bool}
    (h : start.feed t text = .ok (isOk, ctx, rest)) : rest.length ≤ text.length := by
  induction hn : text.length using Nat.strongRecOn generalizing start text with
  | ind n ih =>
    cases hcrlf : Lines.findPair cr lf text with
    | none =>
      rw [feed_of_none hcrlf] at h
      cases h
      exact Nat.le_of_eq hn
    | some i =>
      have hlt := Lines.findPair_lt hcrlf
      have hdrop : (text.drop (i + 2)).length = n - (i + 2) := by rw [List.length_drop, hn]
      rw [feed_of_some hcrlf] at h
      cases hl : start.takeLine t (text.take i) with
      | error fault => rw [hl] at h; cases h
      | ok r =>
        rw [hl] at h
        cases r with
        | next c =>
          have hle := ih (n - (i + 2)) (by omega) h hdrop
          omega
        | complete c =>
          cases h
          omega
        | rejected c =>
          cases h
          exact Nat.le_of_eq hn

/-- A fresh parser returns, whatever it is fed. -/
theorem feed_new_ok (t : TimeType) (text : Bytes) :
    ∃ isOk ctx rest, new.feed t text = .ok (isOk, ctx, rest) ∧
      (isOk = true → ctx.state_ ≠ .kGotAll → ctx.Expecting) := by
  obtain ⟨isOk, ctx, rest, hfeed, hcomplete, hexpecting, -⟩ :=
    feed_unspoilt expecting_new (fun h => h.2 rfl) t text
  refine ⟨isOk, ctx, rest, hfeed, fun _ hopen => hexpecting fun hc => ?_⟩
  exact hopen (hcomplete.mpr hc).2

end HttpContext

/-! ## The calls -/

/-- A parser with its buffer, and what came of the calls so far. -/
structure ParseRun where
  isOk : Bool
  context : HttpContext
  buffer : Buffer
  consumed : Nat

namespace ParseRun

/-- Before the first call. -/
def new : ParseRun where
  isOk := true
  context := HttpContext.new
  buffer := Buffer.new
  consumed := 0

/-- Append a chunk and call `parseRequest`. -/
def receive (receiveTime : TimeType) (p : ParseRun) (chunk : Bytes) :
    Except ParseFault ParseRun :=
  let buffer := p.buffer.append chunk
  match p.context.parseRequest buffer receiveTime with
  | .error fault => .error fault
  | .ok (isOk, context, rest) =>
      .ok
        { isOk := isOk
          context := context
          buffer := rest
          consumed := p.consumed + (buffer.readableBytes - rest.readableBytes) }

/-- Chunk by chunk, up to the first call that returns false or sets
    `gotAll()`. -/
def receiveAll (receiveTime : TimeType) : ParseRun → List Bytes → Except ParseFault ParseRun
  | p, [] => .ok p
  | p, chunk :: chunks =>
      match p.receive receiveTime chunk with
      | .error fault => .error fault
      | .ok p => if p.isOk && !p.context.gotAll then receiveAll receiveTime p chunks else .ok p

/-- A run that wants more, after `text` came in. -/
structure Waiting (t : TimeType) (p : ParseRun) (text : Bytes) : Prop where
  isOk : p.isOk = true
  expecting : p.context.Expecting
  fed : HttpContext.new.feed t text = .ok (true, p.context, p.buffer.toString)
  consumed : p.consumed + p.buffer.readableBytes = text.length

theorem waiting_new (t : TimeType) : Waiting t new [] := by
  have hempty : Buffer.new.toString = [] := Buffer.toString_new
  refine ⟨rfl, HttpContext.expecting_new, ?_, ?_⟩
  · show HttpContext.new.feed t [] = .ok (true, HttpContext.new, Buffer.new.toString)
    rw [hempty, HttpContext.feed_of_none rfl]
  · rw [← Buffer.length_toString]
    simp [new]

/-- One call does to the parser what a single parse of the whole text
    would have done. -/
theorem receive_eq {t : TimeType} {p : ParseRun} {text : Bytes} (h : p.Waiting t text)
    {chunk rest : Bytes} {isOk : Bool} {ctx : HttpContext}
    (hfeed : HttpContext.new.feed t (text ++ chunk) = .ok (isOk, ctx, rest)) :
    ∃ p', p.receive t chunk = .ok p' ∧ p'.isOk = isOk ∧ p'.context = ctx ∧
      p'.buffer.toString = rest ∧ p'.consumed + rest.length = (text ++ chunk).length := by
  have hopen : p.context.state_ ≠ .kGotAll := by
    rcases h.expecting with hs | hs <;> simp [hs]
  have hparse : p.context.feed t (p.buffer.append chunk).toString = .ok (isOk, ctx, rest) := by
    rw [Buffer.toString_append, HttpContext.feed_append_open h.fed hopen, hfeed]
  obtain ⟨buffer, hcall, hrest⟩ := HttpContext.parseRequest_of_feed h.expecting hparse
  have hle := HttpContext.feed_length_le hparse
  refine ⟨_, by simp only [receive, hcall]; rfl, rfl, rfl, hrest, ?_⟩
  have hconsumed := h.consumed
  rw [← hrest, Buffer.toString_append] at hle
  simp only [List.length_append, Buffer.length_toString] at hle
  simp only [← Buffer.length_toString (p.buffer.append chunk), Buffer.toString_append, ← hrest,
    List.length_append, Buffer.length_toString]
  omega

/-- The chunks one by one, from any point of the text. -/
theorem receiveAll_eq {t : TimeType} (chunks : List Bytes) :
    ∀ {p : ParseRun} {text : Bytes}, p.Waiting t text →
      ∃ p' isOk rest, p.receiveAll t chunks = .ok p' ∧ p'.isOk = isOk ∧
        HttpContext.new.feed t (text ++ chunks.flatten) = .ok (isOk, p'.context, rest) ∧
        p'.consumed + rest.length = (text ++ chunks.flatten).length := by
  induction chunks with
  | nil =>
    intro p text h
    refine ⟨p, true, p.buffer.toString, rfl, h.isOk, ?_, ?_⟩
    · rw [List.flatten_nil, List.append_nil, h.fed]
    · rw [List.flatten_nil, List.append_nil, Buffer.length_toString, h.consumed]
  | cons chunk chunks ih =>
    intro p text h
    obtain ⟨isOk, ctx, rest, hfeed, hexpecting⟩ := HttpContext.feed_new_ok t (text ++ chunk)
    obtain ⟨p₁, hcall, hisOk, rfl, hrest, hconsumed⟩ := receive_eq h hfeed
    rw [List.flatten_cons, ← List.append_assoc]
    by_cases hdone : isOk = false ∨ p₁.context.state_ = .kGotAll
    · -- the driver stops here, and the single parse stops at the same byte
      have hstop : (p₁.isOk && !p₁.context.gotAll) = false := by
        rw [hisOk, HttpContext.gotAll]
        rcases hdone with hdone | hdone
        · rw [hdone]
          rfl
        · rw [hdone]
          simp
      refine ⟨p₁, isOk, rest ++ chunks.flatten, ?_, hisOk,
        HttpContext.feed_append_done HttpContext.expecting_new hfeed hdone _, ?_⟩
      · simp [receiveAll, hcall, hstop]
      · rw [List.length_append, List.length_append, ← hconsumed]
        omega
    · -- more is needed, and the next chunk is parsed behind this one
      obtain ⟨htrue, hopen⟩ := not_or.mp hdone
      have hok : isOk = true := by simpa using htrue
      have hgo : (p₁.isOk && !p₁.context.gotAll) = true := by
        rw [hisOk, hok, HttpContext.gotAll]
        simpa using hopen
      have hwaiting : p₁.Waiting t (text ++ chunk) := by
        refine ⟨hisOk.trans hok, hexpecting hok hopen, ?_, ?_⟩
        · rw [hfeed, hok, hrest]
        · rw [← Buffer.length_toString, hrest, hconsumed]
      obtain ⟨p', isOk', rest', hall, hresult⟩ := ih hwaiting
      refine ⟨p', isOk', rest', ?_, hresult⟩
      simp [receiveAll, hcall, hgo, hall]

/-- **Incremental parsing is one-shot parsing**: for every cut of a byte
    string into chunks, feeding them one by one and parsing the whole at
    once both return, with the same value, state, request and number of
    consumed bytes. -/
theorem receiveAll_eq_receive (receiveTime : TimeType) (chunks : List Bytes) :
    ∃ p p', new.receiveAll receiveTime chunks = .ok p ∧
      new.receive receiveTime chunks.flatten = .ok p' ∧
      p.isOk = p'.isOk ∧ p.context.state_ = p'.context.state_ ∧
      p.context.request_ = p'.context.request_ ∧ p.consumed = p'.consumed := by
  obtain ⟨p, isOk, rest, hall, hisOk, hfeed, hconsumed⟩ :=
    receiveAll_eq chunks (waiting_new receiveTime)
  obtain ⟨p', honce, hisOk', hcontext, -, hconsumed'⟩ :=
    receive_eq (waiting_new receiveTime) hfeed
  refine ⟨p, p', hall, honce, hisOk.trans hisOk'.symm, by rw [hcontext], by rw [hcontext], ?_⟩
  omega

end ParseRun

end TinyWS
