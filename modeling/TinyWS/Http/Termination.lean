import TinyWS.Http.Rejected

/-! # The Parser Returns

    The loop of `parseRequest` makes no progress in `kExpectBody` and in
    `kGotAll`; that it is never entered there is up to `onMessage`, which
    resets the parser behind every complete request.

    The build does not define `NDEBUG`.  The parser is also read with the
    assertion of `setMethod` compiled out, where a rejected line that named
    a method is parsed again by the next read event. -/

namespace TinyWS

namespace HttpContext

/-- Without its assertion `setMethod` writes over the method it finds, so
    a line with a blank is processed as in a request without a method. -/
def overwritten (ctx : HttpContext) (line : Bytes) : HttpContext :=
  if space ∈ line then
    { ctx with request_ := { ctx.request_ with method_ := .kInvalid } }
  else ctx

/-- The parser one turn starts from; `ndebug` compiles the assertion out. -/
def beforeTurn (ndebug : Bool) (ctx : HttpContext) (buffer : Buffer) : HttpContext :=
  match ndebug, ctx.state_, buffer.findCRLF with
  | true, .kExpectRequestLine, some crlf => ctx.overwritten (buffer.toString.take crlf)
  | _, _, _ => ctx

/-- One turn of the loop. -/
def turnIn (ndebug : Bool) (ctx : HttpContext) (buffer : Buffer) (receiveTime : TimeType) :
    Except ParseFault Turn :=
  (ctx.beforeTurn ndebug buffer).turn buffer receiveTime

/-- The loop, for at most so many turns. -/
def parseLoopIn (ndebug : Bool) : Nat → HttpContext → Buffer → TimeType →
    Except ParseFault (Bool × HttpContext × Buffer)
  | 0, _, _, _ => .error .spins
  | turns + 1, ctx, buffer, receiveTime =>
      match ctx.turnIn ndebug buffer receiveTime with
      | .error fault => .error fault
      | .ok (.more ctx buffer) => parseLoopIn ndebug turns ctx buffer receiveTime
      | .ok (.done isOk ctx buffer) => .ok (isOk, ctx, buffer)

/-- `parseRequest(buffer, receiveTime)` in either build. -/
def parseRequestIn (ndebug : Bool) (ctx : HttpContext) (buffer : Buffer)
    (receiveTime : TimeType) : Except ParseFault (Bool × HttpContext × Buffer) :=
  parseLoopIn ndebug (buffer.readableBytes + 1) ctx buffer receiveTime

/-- Where the loop of one call stands before each of its turns. -/
inductive Loops (ndebug : Bool) (ctx : HttpContext) (buffer : Buffer) (t : TimeType) :
    HttpContext → Buffer → Prop where
  | enter : Loops ndebug ctx buffer t ctx buffer
  | again {c c' : HttpContext} {b b' : Buffer} : Loops ndebug ctx buffer t c b →
      c.turnIn ndebug b t = .ok (.more c' b') → Loops ndebug ctx buffer t c' b'

/-- A call of `parseRequest` that comes to an end. -/
structure Terminates (ndebug : Bool) (ctx : HttpContext) (buffer : Buffer) (t : TimeType) :
    Prop where
  /-- The state it is entered in. -/
  entered : ctx.Expecting
  /-- Every turn is the last, or consumes a line end. -/
  progress : ∀ {c c' : HttpContext} {b b' : Buffer}, Loops ndebug ctx buffer t c b →
    c.turnIn ndebug b t = .ok (.more c' b') → b'.readableBytes + 2 ≤ b.readableBytes
  /-- The result does not depend on how many turns the loop may take. -/
  bounded : ∀ turns, buffer.readableBytes / 2 < turns →
    parseLoopIn ndebug turns ctx buffer t = ctx.parseRequestIn ndebug buffer t
  /-- It returns, or an assertion finds the method set. -/
  returns : (∃ res, ctx.parseRequestIn ndebug buffer t = .ok res) ∨
    ndebug = false ∧ ctx.Spoilt ∧ ctx.parseRequestIn ndebug buffer t = .error .setMethodAssert
  /-- 解析失败 跟 解析完成 互斥 -/
  exclusive : ∀ {isOk : Bool} {c : HttpContext} {b : Buffer},
    ctx.parseRequestIn ndebug buffer t = .ok (isOk, c, b) → ¬ (isOk = false ∧ c.gotAll = true)

/-! ## One turn -/

@[simp] theorem overwritten_state (ctx : HttpContext) (line : Bytes) :
    (ctx.overwritten line).state_ = ctx.state_ := by
  unfold overwritten
  split <;> rfl

theorem beforeTurn_state (ndebug : Bool) (ctx : HttpContext) (buffer : Buffer) :
    (ctx.beforeTurn ndebug buffer).state_ = ctx.state_ := by
  unfold beforeTurn
  split
  · exact overwritten_state _ _
  · rfl

/-- With the assertion in place nothing happens before a turn. -/
@[simp] theorem beforeTurn_asserts (ctx : HttpContext) (buffer : Buffer) :
    ctx.beforeTurn false buffer = ctx := rfl

theorem Expecting.beforeTurn {ctx : HttpContext} (h : ctx.Expecting) (ndebug : Bool)
    (buffer : Buffer) : (ctx.beforeTurn ndebug buffer).Expecting := by
  unfold Expecting
  rw [beforeTurn_state]
  exact h

/-- Only the assertion can stop the processing of a request line. -/
theorem processRequestLine_error {ctx : HttpContext} {line : Bytes} {fault : ParseFault}
    (h : ctx.processRequestLine line = .error fault) :
    fault = .setMethodAssert ∧ ctx.request_.method_ ≠ .kInvalid ∧ space ∈ line := by
  have hm : ctx.request_.method_ ≠ .kInvalid := by
    intro hm
    obtain ⟨isOk, ctx', hok, -⟩ := processRequestLine_isOk hm line
    rw [hok] at h
    cases h
  have hspace : space ∈ line := by
    by_contra hno
    have hblank : line.idxOf space = line.length := List.idxOf_eq_length hno
    simp [processRequestLine, hblank] at h
  rw [processRequestLine_assert hm hspace] at h
  cases h
  exact ⟨rfl, hm, hspace⟩

/-- A line ends the program only where a second request line is met. -/
theorem takeLine_error {ctx : HttpContext} (hctx : ctx.Expecting) {t : TimeType} {line : Bytes}
    {fault : ParseFault} (h : ctx.takeLine t line = .error fault) :
    fault = .setMethodAssert ∧ ctx.Spoilt ∧ space ∈ line := by
  rcases hctx with hs | hs
  · simp only [takeLine, hs] at h
    cases hp : ctx.processRequestLine line with
    | error fault' =>
      rw [hp] at h
      cases h
      obtain ⟨hfault, hm, hspace⟩ := processRequestLine_error hp
      exact ⟨hfault, ⟨hs, hm⟩, hspace⟩
    | ok r =>
      obtain ⟨isOk, c⟩ := r
      rw [hp] at h
      cases isOk <;> cases h
  · -- header lines have no way out
    simp only [takeLine, hs] at h
    split at h <;> cases h

/-- What one turn can do to a parser that expects something. -/
inductive TurnsTo (ndebug : Bool) (ctx : HttpContext) (buffer : Buffer) :
    Except ParseFault Turn → Prop where
  | more {c : HttpContext} {b : Buffer} (header : c.state_ = .kExpectHeader)
      (consumed : b.readableBytes + 2 ≤ buffer.readableBytes) :
      TurnsTo ndebug ctx buffer (.ok (.more c b))
  | waits {isOk : Bool} {c : HttpContext} {b : Buffer} (expecting : c.Expecting) :
      TurnsTo ndebug ctx buffer (.ok (.done isOk c b))
  | complete {c : HttpContext} {b : Buffer} (gotAll : c.state_ = .kGotAll) :
      TurnsTo ndebug ctx buffer (.ok (.done true c b))
  | asserts (build : ndebug = false) (spoilt : ctx.Spoilt) :
      TurnsTo ndebug ctx buffer (.error .setMethodAssert)

/-- A request line that is parsed without the assertion finds no method. -/
theorem not_spoilt_beforeTurn {ctx : HttpContext} {buffer : Buffer} {crlf : Nat}
    (hcrlf : buffer.findCRLF = some crlf) (hspace : space ∈ buffer.toString.take crlf) :
    ¬ (ctx.beforeTurn true buffer).Spoilt := by
  rintro ⟨hs, hm⟩
  rw [beforeTurn_state] at hs
  apply hm
  simp [beforeTurn, hs, hcrlf, overwritten, hspace]

/-- **Turn**: a line end is consumed, or this is the last turn. -/
theorem turnsTo (ndebug : Bool) {ctx : HttpContext} (hctx : ctx.Expecting) (buffer : Buffer)
    (t : TimeType) : TurnsTo ndebug ctx buffer (ctx.turnIn ndebug buffer t) := by
  have hbefore := hctx.beforeTurn ndebug buffer
  rw [turnIn, turn_eq hbefore]
  cases hcrlf : buffer.findCRLF with
  | none => exact .waits hbefore
  | some crlf =>
    dsimp only
    cases hline : (ctx.beforeTurn ndebug buffer).takeLine t (buffer.toString.take crlf) with
    | error fault =>
      obtain ⟨rfl, hspoilt, hspace⟩ := takeLine_error hbefore hline
      cases ndebug with
      | true => exact absurd hspoilt (not_spoilt_beforeTurn hcrlf hspace)
      | false => exact .asserts rfl hspoilt
    | ok r =>
      cases r with
      | next c =>
        have hle := buffer.findCRLF_le hcrlf
        have hlen : (buffer.retrieveUntil (crlf + 2)).readableBytes =
            buffer.readableBytes - (crlf + 2) := by
          rw [← Buffer.length_toString, Buffer.toString_retrieveUntil, List.length_drop,
            Buffer.length_toString]
        exact .more (takeLine_next hline) (by omega)
      | complete c => exact .complete (takeLine_complete hline)
      | rejected c => exact .waits (takeLine_expecting hbefore (Or.inr hline))

/-- A turn that asks for another one. -/
theorem turnIn_more {ndebug : Bool} {ctx c : HttpContext} (hctx : ctx.Expecting)
    {buffer b : Buffer} {t : TimeType} (h : ctx.turnIn ndebug buffer t = .ok (.more c b)) :
    c.state_ = .kExpectHeader ∧ b.readableBytes + 2 ≤ buffer.readableBytes := by
  have hturn := turnsTo ndebug hctx buffer t
  rw [h] at hturn
  cases hturn with
  | more header consumed => exact ⟨header, consumed⟩

/-! ## The loop -/

/-- What one call leaves behind. -/
inductive Ends (ndebug : Bool) (ctx : HttpContext) :
    Except ParseFault (Bool × HttpContext × Buffer) → Prop where
  | waits {isOk : Bool} {c : HttpContext} {b : Buffer} (expecting : c.Expecting) :
      Ends ndebug ctx (.ok (isOk, c, b))
  | complete {c : HttpContext} {b : Buffer} (gotAll : c.state_ = .kGotAll) :
      Ends ndebug ctx (.ok (true, c, b))
  | asserts (build : ndebug = false) (spoilt : ctx.Spoilt) :
      Ends ndebug ctx (.error .setMethodAssert)

/-- **Loop**: half as many turns as there are bytes are enough. -/
theorem parseLoopIn_ends {ndebug : Bool} {turns : Nat} {ctx : HttpContext}
    (hctx : ctx.Expecting) {buffer : Buffer} (t : TimeType)
    (hturns : buffer.readableBytes / 2 < turns) :
    Ends ndebug ctx (parseLoopIn ndebug turns ctx buffer t) := by
  -- induction on the turns: each pays for two bytes of the buffer
  induction turns generalizing ctx buffer with
  | zero => omega
  | succ turns ih =>
    rw [parseLoopIn]
    have hturn := turnsTo ndebug hctx buffer t
    cases hto : ctx.turnIn ndebug buffer t with
    | error fault =>
      rw [hto] at hturn
      cases hturn with
      | asserts build spoilt => exact .asserts build spoilt
    | ok next =>
      rw [hto] at hturn
      cases hturn with
      | @more c b header consumed =>
        -- behind the request line no assertion is left
        have hnext := @ih c (Or.inr header) b (by omega)
        dsimp only
        generalize parseLoopIn ndebug turns c b t = res at hnext ⊢
        cases hnext with
        | waits expecting => exact .waits expecting
        | complete gotAll => exact .complete gotAll
        | asserts build spoilt => simp [Spoilt, header] at spoilt
      | waits expecting => exact .waits expecting
      | complete gotAll => exact .complete gotAll

/-- More turns than that change nothing. -/
theorem parseLoopIn_turns {ndebug : Bool} {turns turns' : Nat} {ctx : HttpContext}
    (hctx : ctx.Expecting) {buffer : Buffer} (t : TimeType)
    (hturns : buffer.readableBytes / 2 < turns) (hturns' : buffer.readableBytes / 2 < turns') :
    parseLoopIn ndebug turns ctx buffer t = parseLoopIn ndebug turns' ctx buffer t := by
  induction turns generalizing ctx buffer turns' with
  | zero => omega
  | succ turns ih =>
    cases turns' with
    | zero => omega
    | succ turns' =>
      rw [parseLoopIn, parseLoopIn]
      cases hto : ctx.turnIn ndebug buffer t with
      | error fault => rfl
      | ok next =>
        cases next with
        | done isOk c b => rfl
        | more c b =>
          obtain ⟨header, consumed⟩ := turnIn_more hctx hto
          exact ih (Or.inr header) (by omega) (by omega)

/-- Every turn is taken in an expecting state. -/
theorem Loops.expecting {ndebug : Bool} {ctx c : HttpContext} {buffer b : Buffer} {t : TimeType}
    (hctx : ctx.Expecting) (h : Loops ndebug ctx buffer t c b) : c.Expecting := by
  induction h with
  | enter => exact hctx
  | again _ hmore ih => exact Or.inr (turnIn_more ih hmore).1

theorem parseRequestIn_ends (ndebug : Bool) {ctx : HttpContext} (hctx : ctx.Expecting)
    (buffer : Buffer) (t : TimeType) :
    Ends ndebug ctx (ctx.parseRequestIn ndebug buffer t) :=
  parseLoopIn_ends hctx t (by omega)

/-- **Call**: entered in an expecting state the parser terminates. -/
theorem terminates_of_expecting (ndebug : Bool) {ctx : HttpContext} (hctx : ctx.Expecting)
    (buffer : Buffer) (t : TimeType) : Terminates ndebug ctx buffer t := by
  have hends := parseRequestIn_ends ndebug hctx buffer t
  refine ⟨hctx, ?_, ?_, ?_, ?_⟩
  · intro c c' b b' hloops hmore
    exact (turnIn_more (hloops.expecting hctx) hmore).2
  · intro turns hturns
    exact parseLoopIn_turns hctx t hturns (by omega)
  · generalize hres : ctx.parseRequestIn ndebug buffer t = res at hends
    cases hends with
    | waits expecting => exact Or.inl ⟨_, rfl⟩
    | complete gotAll => exact Or.inl ⟨_, rfl⟩
    | asserts build spoilt => exact Or.inr ⟨build, spoilt, rfl⟩
  · intro isOk c b hres hboth
    rw [hres] at hends
    cases hends with
    | waits expecting => rcases expecting with hs | hs <;> simp [gotAll, hs] at hboth
    | complete gotAll => exact absurd hboth.1 (by simp)

/-- The build with assertions is the parser of the other modules. -/
theorem parseRequestIn_asserts (ctx : HttpContext) (buffer : Buffer) (t : TimeType) :
    ctx.parseRequestIn false buffer t = ctx.parseRequest buffer t := by
  have hloop : ∀ turns (c : HttpContext) (b : Buffer),
      parseLoopIn false turns c b t = parseLoop turns c b t := by
    intro turns
    induction turns with
    | zero => exact fun _ _ => rfl
    | succ turns ih =>
      intro c b
      rw [parseLoopIn, parseLoop, turnIn, beforeTurn_asserts]
      cases c.turn b t with
      | error fault => rfl
      | ok next =>
        cases next with
        | more c' b' => exact ih c' b'
        | done isOk c' b' => rfl
  exact hloop _ ctx buffer

end HttpContext

namespace HttpConnection

/-! ## The server -/

/-- `onMessage` in either build. -/
def onMessageIn (ndebug : Bool) (httpCallback : HttpCallback) (h : HttpConnection)
    (receiveTime : TimeType) (w : WriteResult) : HttpConnection :=
  match h.context_.parseRequestIn ndebug h.inputBuffer_ receiveTime with
  | .error fault => { h with fault := some fault }
  | .ok (isOk, context, buffer) =>
      let h := { h with context_ := context, inputBuffer_ := buffer }
      let h := if isOk then h else (h.send badRequest w).shutdown
      if h.context_.gotAll then
        { onRequest httpCallback h h.context_.request_ w with context_ := HttpContext.new }
      else
        h

/-- `handleRead` in either build. -/
def handleReadIn (ndebug : Bool) (httpCallback : HttpCallback) (h : HttpConnection) (r : Read) :
    HttpConnection :=
  if h.fault.isSome then h
  else (h.deliver r.chunk).onMessageIn ndebug httpCallback r.receiveTime r.w

theorem onMessageIn_asserts (httpCallback : HttpCallback) (h : HttpConnection) (t : TimeType)
    (w : WriteResult) : h.onMessageIn false httpCallback t w = h.onMessage httpCallback t w := by
  cases hres : h.context_.parseRequest h.inputBuffer_ t with
  | error fault => simp only [onMessageIn, onMessage, HttpContext.parseRequestIn_asserts, hres]
  | ok res => simp only [onMessageIn, onMessage, HttpContext.parseRequestIn_asserts, hres]

theorem handleReadIn_asserts (httpCallback : HttpCallback) (h : HttpConnection) (r : Read) :
    handleReadIn false httpCallback h r = handleRead httpCallback h r := by
  simp only [handleReadIn, handleRead, onMessageIn_asserts]

/-- The next call of `parseRequest` terminates, and so did those before. -/
structure CallsTerminate (ndebug : Bool) (h : HttpConnection) : Prop where
  earlier : h.fault = none ∨ ndebug = false ∧ h.fault = some .setMethodAssert
  next : h.fault = none → ∀ r : Read,
    HttpContext.Terminates ndebug (h.deliver r.chunk).context_ (h.deliver r.chunk).inputBuffer_
      r.receiveTime

end HttpConnection

/-- The read events of one connection, in either build. -/
def httpServerIn (ndebug : Bool) (httpCallback : HttpCallback) : Machine HttpConnection Read where
  guard _ _ := True
  next := HttpConnection.handleReadIn ndebug httpCallback

namespace HttpConnection

/-- Where assertions are compiled in, this is the server of the other
    modules. -/
theorem run_httpServerIn_asserts (httpCallback : HttpCallback) (h : HttpConnection)
    (reads : List Read) :
    (httpServerIn false httpCallback).run h reads = (httpServer httpCallback).run h reads := by
  induction reads generalizing h with
  | nil => rfl
  | cons r reads ih =>
    have hstep : (httpServerIn false httpCallback).next h r = (httpServer httpCallback).next h r :=
      handleReadIn_asserts httpCallback h r
    rw [Machine.run_cons, Machine.run_cons, hstep]
    exact ih _

/-- What `onMessage` keeps: the parser expects something. -/
structure Awaits (ndebug : Bool) (h : HttpConnection) : Prop where
  fault : h.fault = none ∨ ndebug = false ∧ h.fault = some .setMethodAssert
  expecting : h.fault = none → h.context_.Expecting

section OnMessage

variable (ndebug : Bool) (httpCallback : HttpCallback) {h : HttpConnection} (t : TimeType)
  (w : WriteResult) {c : HttpContext} {b : Buffer}

theorem onMessageIn_fault {fault : ParseFault}
    (hres : h.context_.parseRequestIn ndebug h.inputBuffer_ t = .error fault) :
    (h.onMessageIn ndebug httpCallback t w).fault = some fault := by
  simp only [onMessageIn, hres]

/-- A complete request is answered, and the parser is reset. -/
theorem onMessageIn_complete
    (hres : h.context_.parseRequestIn ndebug h.inputBuffer_ t = .ok (true, c, b))
    (hgot : c.gotAll = true) :
    (h.onMessageIn ndebug httpCallback t w).context_ = HttpContext.new ∧
      (h.onMessageIn ndebug httpCallback t w).fault = h.fault := by
  have hstep : h.onMessageIn ndebug httpCallback t w =
      { onRequest httpCallback { h with context_ := c, inputBuffer_ := b } c.request_ w with
        context_ := HttpContext.new } := by
    simp only [onMessageIn, hres, if_true, hgot]
  rw [hstep]
  exact ⟨rfl, (onRequest_frame httpCallback _ c.request_ w).1⟩

/-- Otherwise the parser stays as the parse left it, answered with a 400
    or not. -/
theorem onMessageIn_waits {isOk : Bool}
    (hres : h.context_.parseRequestIn ndebug h.inputBuffer_ t = .ok (isOk, c, b))
    (hopen : c.gotAll = false) :
    (h.onMessageIn ndebug httpCallback t w).context_ = c ∧
      (h.onMessageIn ndebug httpCallback t w).fault = h.fault := by
  have hstep : h.onMessageIn ndebug httpCallback t w =
      if isOk then { h with context_ := c, inputBuffer_ := b }
      else ({ h with context_ := c, inputBuffer_ := b }.send badRequest w).shutdown := by
    cases isOk <;> simp [onMessageIn, hres, send, shutdown, hopen]
  rw [hstep]
  cases isOk <;> exact ⟨rfl, rfl⟩

end OnMessage

/-- **Step**: the reset behind a complete request keeps the parser
    expecting, and a rejected line leaves it where it was. -/
theorem awaits_handleReadIn (ndebug : Bool) (httpCallback : HttpCallback) {h : HttpConnection}
    (hin : h.Awaits ndebug) (r : Read) : (handleReadIn ndebug httpCallback h r).Awaits ndebug := by
  by_cases hf : h.fault = none
  · have hstep : handleReadIn ndebug httpCallback h r =
        (h.deliver r.chunk).onMessageIn ndebug httpCallback r.receiveTime r.w := by
      simp [handleReadIn, hf]
    have hends := HttpContext.parseRequestIn_ends ndebug (hin.expecting hf)
      (h.deliver r.chunk).inputBuffer_ r.receiveTime
    rw [hstep]
    generalize hres : h.context_.parseRequestIn ndebug (h.deliver r.chunk).inputBuffer_
      r.receiveTime = res at hends
    cases hends with
    | asserts build spoilt =>
      have hfault := onMessageIn_fault (h := h.deliver r.chunk) ndebug httpCallback
        r.receiveTime r.w hres
      refine ⟨Or.inr ⟨build, hfault⟩, fun hnone => ?_⟩
      simp [hfault] at hnone
    | @complete c b gotAll =>
      -- answered, and the parser is a new one
      obtain ⟨hctx, hfault⟩ := onMessageIn_complete (h := h.deliver r.chunk) ndebug httpCallback
        r.receiveTime r.w hres (by simp [HttpContext.gotAll, gotAll])
      refine ⟨Or.inl (hfault.trans hf), fun _ => ?_⟩
      rw [hctx]
      exact HttpContext.expecting_new
    | @waits isOk c b expecting =>
      -- more bytes are needed, or the line was rejected
      have hopen : c.gotAll = false := by
        rcases expecting with hs | hs <;> simp [HttpContext.gotAll, hs]
      obtain ⟨hctx, hfault⟩ := onMessageIn_waits (h := h.deliver r.chunk) ndebug httpCallback
        r.receiveTime r.w hres hopen
      refine ⟨Or.inl (hfault.trans hf), fun _ => ?_⟩
      rw [hctx]
      exact expecting
  · -- the program was aborted
    have hstep : handleReadIn ndebug httpCallback h r = h := by
      rw [handleReadIn, if_pos]
      rwa [Option.isSome_iff_ne_none]
    rw [hstep]
    exact hin

theorem awaits_established (ndebug : Bool) (name : String) (loop : LoopId) (self : ChannelPtr)
    (fd : Int) (writeComplete : Bool) (epoll : Epoll) :
    (established name loop self fd writeComplete epoll).Awaits ndebug :=
  ⟨Or.inl rfl, fun _ => HttpContext.expecting_new⟩

/-- **The parser returns**: in either build, for every callback and every
    sequence of chunks, each call of `parseRequest` terminates. -/
theorem parseRequest_terminates (ndebug : Bool) (httpCallback : HttpCallback) (name : String)
    (loop : LoopId) (self : ChannelPtr) (fd : Int) (writeComplete : Bool) (epoll : Epoll)
    (reads : List Read) :
    let h₀ := established name loop self fd writeComplete epoll
    ((httpServerIn ndebug httpCallback).run h₀ reads).CallsTerminate ndebug := by
  intro h₀
  have hinv : ((httpServerIn ndebug httpCallback).run h₀ reads).Awaits ndebug := by
    refine (httpServerIn ndebug httpCallback).invariant_run (Awaits ndebug) ?_
      (awaits_established ndebug name loop self fd writeComplete epoll)
      ((httpServerIn ndebug httpCallback).along_true h₀ reads)
    intro h r hin _
    exact awaits_handleReadIn ndebug httpCallback hin r
  refine ⟨hinv.fault, fun hf r => ?_⟩
  exact HttpContext.terminates_of_expecting ndebug (hinv.expecting hf) _ r.receiveTime

end HttpConnection

end TinyWS
