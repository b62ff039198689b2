import TinyWS.Http.Rejected
import TinyWS.Http.RoundTrip
import TinyWS.WebBench.Request

/-! # The Benchmark's Request at the Server

    What the parser of the server makes of a request that `build_request`
    put together.  There are three outcomes: the request is complete, or
    its first line is none of the server's, or the parser waits for header
    lines that never come.  The second one is the common one: a client
    that is not told otherwise asks for HTTP/1.0, and the server knows
    HTTP/1.1 only. -/

namespace TinyWS

open Std

/-! ## Headers -/

theorem foldl_insert_of_ne {headers : List (Bytes × Bytes)} {name : Bytes}
    (h : ∀ k ∈ headers, k.1 ≠ name) (map : ExtTreeMap Bytes Bytes compare) :
    (headers.foldl (fun m k => m.insert k.1 (HttpRequest.trim k.2)) map)[name]? = map[name]? := by
  induction headers generalizing map with
  | nil => rfl
  | cons k ks ih =>
    have hk := h k List.mem_cons_self
    rw [List.foldl_cons, ih fun k' hk' => h k' (List.mem_cons_of_mem _ hk'),
      ExtTreeMap.getElem?_insert, if_neg]
    intro heq
    exact hk (LawfulEqOrd.eq_of_compare heq)

/-- The last header of a name is the one the server finds. -/
theorem RequestText.getHeader_toRequest {r : RequestText} {before behind : List (Bytes × Bytes)}
    {h : Bytes × Bytes} (hheaders : r.headers = before ++ h :: behind)
    (hlast : ∀ k ∈ behind, k.1 ≠ h.1) (t : TimeType) :
    (r.toRequest t).getHeader h.1 = HttpRequest.trim h.2 := by
  have hmap : (r.toRequest t).headers_[h.1]? = some (HttpRequest.trim h.2) := by
    rw [toRequest, hheaders, List.foldl_append, List.foldl_cons, foldl_insert_of_ne hlast,
      ExtTreeMap.getElem?_insert_self]
  rw [HttpRequest.getHeader, hmap]
  rfl

/-- Whatever becomes of the line, its first word is taken for the method. -/
theorem HttpContext.method_processRequestLine {name more : Bytes} (hname : space ∉ name)
    {isOk : Bool} {ctx : HttpContext}
    (h : HttpContext.new.processRequestLine (name ++ space :: more) = .ok (isOk, ctx)) :
    ctx.request_.method_ = HttpRequest.methodOf name := by
  have hset : HttpContext.new.request_.setMethod name =
      .ok (decide (HttpRequest.methodOf name ≠ .kInvalid),
        { HttpContext.new.request_ with method_ := HttpRequest.methodOf name }) := rfl
  simp only [HttpContext.processRequestLine] at h
  rw [if_pos (idxOf_ne_length hname more), take_idxOf hname, hset] at h
  by_cases hm : HttpRequest.methodOf name = .kInvalid
  · simp only [hm, ne_eq, not_true, decide_false] at h
    cases h
    exact hm.symm
  · simp only [ne_eq, hm, not_false_eq_true, decide_true] at h
    cases h
    -- the setters of the path and the query leave the method alone
    dsimp only
    split_ifs <;> rfl

namespace WebBench

/-- The method as the server calls it. -/
def MethodOption.toMethod : MethodOption → Method
  | .METHOD_GET => .kGet
  | .METHOD_HEAD => .kHead
  | .METHOD_OPTIONS | .METHOD_TRACE => .kInvalid

namespace Globals

/-! ## The specification -/

/-- What stands behind the method. -/
def target (b : Globals) (url : Bytes) : Bytes :=
  match b.proxyhost with
  | none => (url.drop 7).drop ((url.drop 7).idxOf slash)
  | some _ => url

/-- The server knows the method. -/
def Known (b : Globals) : Prop := b.method = .METHOD_GET ∨ b.method = .METHOD_HEAD

instance (b : Globals) : Decidable b.Known := inferInstanceAs (Decidable (_ ∨ _))

/-- The server can read the request. -/
def Readable (b : Globals) (url : Bytes) : Prop :=
  b.http10 = 2 ∧ b.Known ∧ space ∉ b.target url

/-- What the server finds in a request. -/
structure Found (b b' : Globals) (url : Bytes) (request : HttpRequest) : Prop where
  method : request.methodString = b.method.name
  target : request.path_ ++ request.query_ = b.target url
  path : request.path_ = (b.target url).takeWhile (· ≠ question)
  agent : request.getHeader (bytes "User-Agent") = bytes "WebBench 1.5"
  connection : request.getHeader (bytes "Connection") =
    if b.keep_alive then bytes "Keep-Alive" else bytes "close"
  host : b.proxyhost = none → request.getHeader (bytes "Host") = HttpRequest.trim b'.host

/-- An HTTP/0.9 request whose target ends like a request line: the server
    waits for the headers. -/
def Unfinished (b : Globals) (url : Bytes) : Prop :=
  b.version = 0 ∧ b.Known ∧ ∃ path, space ∉ path ∧ b.target url = path ++ bytes " HTTP/1.1"

/-! ## The request, line by line -/

/-- The first line. -/
def line (b : Globals) (target : Bytes) : Bytes :=
  b.method.name ++ space :: (target ++ b.versionText)

/-- The headers of an HTTP/1.1 request. -/
def headers (b : Globals) : List (Bytes × Bytes) :=
  [(bytes "User-Agent", bytes " WebBench 1.5")] ++
    (if b.proxyhost = none then [(bytes "Host", space :: b.host)] else []) ++
    (if b.force_reload ∧ b.proxyhost ≠ none then [(bytes "Pragma", bytes " no-cache")] else []) ++
    [(bytes "Connection", if b.keep_alive then bytes " Keep-Alive" else bytes " close")]

theorem compose_eq (b : Globals) (target : Bytes) :
    b.compose target = b.line target ++ cr :: lf :: b.fields := by
  have hblank : bytes " " = [space] := by decide
  have hcrlf : bytes "\r\n" = [cr, lf] := by decide
  rw [compose, line, hblank, hcrlf]
  simp

/-- The fields of an HTTP/1.1 request are lines. -/
theorem fields_eq {b : Globals} (hversion : b.http10 = 2) :
    b.fields = Lines.unlines cr lf (b.headers.map headerLine ++ [[]]) := by
  have hpos : (2 : Fin 3) > 0 ∧ (2 : Fin 3) > 1 := by decide
  have hcrlf : bytes "\r\n" = [cr, lf] := by decide
  have hagent : bytes "User-Agent: WebBench 1.5\r\n" =
      headerLine (bytes "User-Agent", bytes " WebBench 1.5") ++ [cr, lf] := by decide
  have hhost : bytes "Host: " ++ b.host ++ [cr, lf] =
      headerLine (bytes "Host", space :: b.host) ++ [cr, lf] := by
    have hname : bytes "Host: " = bytes "Host" ++ [colon, space] := by decide
    rw [hname]
    simp [headerLine]
  have hpragma : bytes "Pragma: no-cache\r\n" =
      headerLine (bytes "Pragma", bytes " no-cache") ++ [cr, lf] := by decide
  have hclose : bytes "Connection: close\r\n" =
      headerLine (bytes "Connection", bytes " close") ++ [cr, lf] := by decide
  have hkeep : bytes "Connection: Keep-Alive\r\n" =
      headerLine (bytes "Connection", bytes " Keep-Alive") ++ [cr, lf] := by decide
  simp only [fields, headers, hversion, hpos.1, hpos.2, hagent, hpragma, hclose, hkeep, hcrlf, hhost,
    if_true, and_true]
  by_cases hproxy : b.proxyhost = none
  · by_cases hk : b.keep_alive = true <;> simp [hproxy, hk]
  · by_cases hk : b.keep_alive = true <;> by_cases hr : b.force_reload = true <;>
      simp [hproxy, hk, hr]

/-! ## What was built -/

/-- What stands in the globals afterwards. -/
structure Built (b b' : Globals) (url : Bytes) : Prop where
  http10 : b'.http10 = b.version
  method : b'.method = b.method
  proxyhost : b'.proxyhost = b.proxyhost
  force_reload : b'.force_reload = b.force_reload
  keep_alive : b'.keep_alive = b.keep_alive
  request : b'.request = b'.compose (b.target url)
  host_crlf : Lines.findPair cr lf url = none → Lines.findPair cr lf b'.host = none
  target_crlf : Lines.findPair cr lf url = none → Lines.findPair cr lf (b.target url) = none

theorem built_of_build {b b' : Globals} {url : Bytes} (h : b.build_request url = .ok b') :
    Built b b' url := by
  have hurl : ∃ u : Url, u.text = url := by
    by_contra hnone
    obtain ⟨message, hexit⟩ := build_request_exit (b := b) hnone
    rw [hexit] at h
    cases h
  obtain ⟨u, rfl⟩ := hurl
  cases hproxy : b.proxyhost with
  | some proxy =>
    have htarget : b.target u.text = u.text := by simp [target, hproxy]
    rw [build_request_proxy hproxy u rfl] at h
    cases h
    refine ⟨rfl, rfl, rfl, rfl, rfl, ?_, fun _ => rfl, fun hcrlf => ?_⟩
    · rw [htarget]
      rfl
    · rw [htarget]
      exact hcrlf
  | none =>
    have htarget : b.target u.text = u.target := by
      simp only [target, hproxy]
      rw [u.drop_text, u.idxOf_rest]
    obtain ⟨-, rfl⟩ := fits_of_build_request hproxy h
    -- the host and the target are parts of the URL
    have hparts : ∀ hcrlf : Lines.findPair cr lf u.text = none,
        Lines.findPair cr lf u.host = none ∧ Lines.findPair cr lf u.target = none := by
      intro hcrlf
      obtain ⟨-, hrest⟩ := Lines.findPair_append hcrlf
      obtain ⟨hhost, hbehind⟩ := Lines.findPair_append hrest
      exact ⟨hhost, (Lines.findPair_append hbehind).2⟩
    refine ⟨rfl, rfl, rfl, rfl, rfl, ?_, fun hcrlf => (hparts hcrlf).1, fun hcrlf => ?_⟩
    · rw [htarget]
      rfl
    · rw [htarget]
      exact (hparts hcrlf).2

/-- A GET or a HEAD stays what it is. -/
theorem version_eq_two {b : Globals} (hknown : b.Known) : b.version = 2 ↔ b.http10 = 2 := by
  have hcases : b.http10 = 0 ∨ b.http10 = 1 ∨ b.http10 = 2 := by
    generalize b.http10 = v
    revert v
    decide
  rcases hknown with hm | hm
  · by_cases hf : b.force_reload = true ∧ b.proxyhost ≠ none <;>
      rcases hcases with hv | hv | hv <;> simp [version, hm, hv, hf]
  · by_cases hf : b.force_reload = true ∧ b.proxyhost ≠ none <;>
      rcases hcases with hv | hv | hv <;> simp [version, hm, hv, hf]

/-! ## A readable request -/

theorem eq_of_mem_ite {p : Prop} [Decidable p] {h k : Bytes × Bytes}
    (hk : h ∈ if p then [k] else []) : h = k := by
  split at hk
  · exact List.mem_singleton.mp hk
  · cases hk

theorem headers_crlf {b : Globals} (hhost : Lines.findPair cr lf b.host = none) :
    ∀ h ∈ b.headers, colon ∉ h.1 ∧ Lines.findPair cr lf (headerLine h) = none := by
  intro h hh
  simp only [headers, List.mem_append, List.mem_singleton] at hh
  rcases hh with ((hagent | hh) | hh) | hconnection
  · rw [hagent]
    decide
  · rw [eq_of_mem_ite hh]
    have hname : colon ∉ bytes "Host" := by decide
    refine ⟨hname, ?_⟩
    have hnil : Lines.findPair cr lf ([] : Bytes) = none := rfl
    have hspace : Lines.findPair cr lf (space :: b.host) = none :=
      Lines.findPair_append_cons (by decide) (by decide) hnil hhost
    have hfield : Lines.findPair cr lf (bytes "Host") = none := by decide
    exact Lines.findPair_append_cons (by decide) (by decide) hfield hspace
  · rw [eq_of_mem_ite hh]
    decide
  · rw [hconnection]
    cases b.keep_alive <;> decide

/-- The request as the server means one. -/
def requestText (b : Globals) (target : Bytes) (hknown : b.Known) (hblank : space ∉ target)
    (htarget : Lines.findPair cr lf target = none) (hhost : Lines.findPair cr lf b.host = none) :
    RequestText where
  method := b.method.toMethod
  target := target
  headers := b.headers
  method_valid := by
    rcases hknown with hm | hm <;> rw [hm] <;> decide
  target_blank := hblank
  field_colon h hh := (headers_crlf hhost h hh).1
  requestLine_crlf := requestLine_crlf _ htarget
  headerLine_crlf h hh := (headers_crlf hhost h hh).2

section Readable

variable {b : Globals} {target : Bytes} (hknown : b.Known) (hblank : space ∉ target)
  (htarget : Lines.findPair cr lf target = none) (hhost : Lines.findPair cr lf b.host = none)

theorem name_toMethod {m : MethodOption} (h : m = .METHOD_GET ∨ m = .METHOD_HEAD) :
    m.toMethod.name = m.name := by
  rcases h with rfl | rfl <;> rfl

theorem line_eq {b : Globals} (hversion : b.http10 = 2) (hknown : b.Known) (target : Bytes) :
    b.line target = requestLine b.method.toMethod target := by
  have hbytes : bytes " HTTP/1.1" = space :: bytes "HTTP/1.1" := by decide
  rw [line, requestLine, name_toMethod hknown, versionText, hversion, hbytes]
  rfl

theorem text_requestText (hversion : b.http10 = 2) :
    (b.requestText target hknown hblank htarget hhost).text = b.compose target := by
  rw [compose_eq, fields_eq hversion, line_eq hversion hknown, RequestText.text, RequestText.lines,
    Lines.unlines_cons]
  rfl

/-- The headers the server finds. -/
theorem getHeader_requestText (t : TimeType) :
    let request := (b.requestText target hknown hblank htarget hhost).toRequest t
    request.getHeader (bytes "User-Agent") = bytes "WebBench 1.5" ∧
      request.getHeader (bytes "Connection") =
        (if b.keep_alive then bytes "Keep-Alive" else bytes "close") ∧
      (b.proxyhost = none → request.getHeader (bytes "Host") = HttpRequest.trim b.host) := by
  intro request
  -- the headers of other names
  have hostName : ∀ k ∈ (if b.proxyhost = none then [(bytes "Host", space :: b.host)] else []),
      k.1 = bytes "Host" := fun k hk => by rw [eq_of_mem_ite hk]
  have pragmaName : ∀ k ∈ (if b.force_reload ∧ b.proxyhost ≠ none then
      [(bytes "Pragma", bytes " no-cache")] else []), k.1 = bytes "Pragma" :=
    fun k hk => by rw [eq_of_mem_ite hk]
  have connectionName : ∀ k ∈ [(bytes "Connection",
      if b.keep_alive then bytes " Keep-Alive" else bytes " close")], k.1 = bytes "Connection" :=
    fun k hk => by rw [List.mem_singleton.mp hk]
  have hne : bytes "Host" ≠ bytes "User-Agent" ∧ bytes "Pragma" ≠ bytes "User-Agent" ∧
      bytes "Connection" ≠ bytes "User-Agent" ∧ bytes "Pragma" ≠ bytes "Host" ∧
        bytes "Connection" ≠ bytes "Host" := by decide
  have hheaders : (b.requestText target hknown hblank htarget hhost).headers = b.headers := rfl
  refine ⟨?_, ?_, fun hproxy => ?_⟩
  · have hagent : b.headers = [] ++ (bytes "User-Agent", bytes " WebBench 1.5") ::
        ((if b.proxyhost = none then [(bytes "Host", space :: b.host)] else []) ++
          (if b.force_reload ∧ b.proxyhost ≠ none then [(bytes "Pragma", bytes " no-cache")] else []) ++
          [(bytes "Connection", if b.keep_alive then bytes " Keep-Alive" else bytes " close")]) := by
      simp [headers]
    refine (RequestText.getHeader_toRequest (hheaders.trans hagent) (fun k hk => ?_) t).trans ?_
    · rcases List.mem_append.mp hk with hk | hk
      · rcases List.mem_append.mp hk with hk | hk
        · rw [hostName k hk]
          exact hne.1
        · rw [pragmaName k hk]
          exact hne.2.1
      · rw [connectionName k hk]
        exact hne.2.2.1
    · decide
  · have hlast : ∀ k ∈ ([] : List (Bytes × Bytes)), k.1 ≠ bytes "Connection" :=
      fun k hk => by cases hk
    have hconnection := RequestText.getHeader_toRequest
      (hheaders.trans (show b.headers = _ ++ (bytes "Connection", _) :: [] from rfl)) hlast t
    refine hconnection.trans ?_
    cases b.keep_alive <;> decide
  · have hsplit : b.headers = [(bytes "User-Agent", bytes " WebBench 1.5")] ++
        (bytes "Host", space :: b.host) ::
          ((if b.force_reload ∧ b.proxyhost ≠ none then [(bytes "Pragma", bytes " no-cache")] else []) ++
            [(bytes "Connection", if b.keep_alive then bytes " Keep-Alive" else bytes " close")]) := by
      simp [headers, hproxy]
    refine (RequestText.getHeader_toRequest (hheaders.trans hsplit) (fun k hk => ?_) t).trans ?_
    · rcases List.mem_append.mp hk with hk | hk
      · rw [pragmaName k hk]
        exact hne.2.2.2.1
      · rw [connectionName k hk]
        exact hne.2.2.2.2
    · show HttpRequest.trim (space :: b.host) = _
      rw [HttpRequest.trim, List.dropWhile_cons_of_pos (by decide), HttpRequest.trim]

end Readable

/-! ## The first line -/

theorem space_not_mem_name (m : MethodOption) : space ∉ m.name := by cases m <;> decide

theorem fin_three (v : Fin 3) : v = 0 ∨ v = 1 ∨ v = 2 := by
  revert v
  decide

/-- The lines the server accepts. -/
theorem validRequestLine_line {b : Globals} {target : Bytes} :
    ValidRequestLine (b.line target) ↔ b.Known ∧ ∃ path, space ∉ path ∧
      (b.http10 = 2 ∧ target = path ∨ b.http10 = 0 ∧ target = path ++ bytes " HTTP/1.1") := by
  have hbytes : bytes " HTTP/1.1" = space :: bytes "HTTP/1.1" := by decide
  constructor
  · rintro ⟨method, path, hmethod, hpath, hline⟩
    -- the first blank ends the method, and the rest is the rest
    have hname := congrArg (fun l : Bytes => l.take (l.idxOf space)) hline
    have hrest := congrArg (fun l : Bytes => l.drop (l.idxOf space + 1)) hline
    simp only [line, requestLine] at hname hrest
    rw [take_idxOf (space_not_mem_name _), take_idxOf (TinyWS.space_not_mem_name _)] at hname
    rw [drop_idxOf (space_not_mem_name _), drop_idxOf (TinyWS.space_not_mem_name _)] at hrest
    have hknown : b.Known := by
      have hof : HttpRequest.methodOf b.method.name ≠ .kInvalid := by
        rw [hname, methodOf_name hmethod]
        exact hmethod
      unfold Known
      generalize b.method = m at hof
      cases m with
      | METHOD_GET => exact .inl rfl
      | METHOD_HEAD => exact .inr rfl
      | METHOD_OPTIONS | METHOD_TRACE => exact absurd (by decide) hof
    refine ⟨hknown, path, hpath, ?_⟩
    rcases fin_three b.http10 with hv | hv | hv
    · refine .inr ⟨hv, ?_⟩
      rw [versionText, hv] at hrest
      simpa [hbytes] using hrest
    · -- the last byte of the version is another
      exfalso
      rw [versionText, hv, if_pos rfl] at hrest
      have hlast := congrArg List.getLast? hrest
      rw [List.getLast?_append_of_ne_nil _ (by decide), ← hbytes,
        List.getLast?_append_of_ne_nil _ (by decide)] at hlast
      exact absurd hlast (by decide)
    · refine .inl ⟨hv, ?_⟩
      rw [versionText, hv, ← hbytes] at hrest
      exact List.append_cancel_right hrest
  · rintro ⟨hknown, path, hpath, hv | hv⟩
    · rw [hv.2, line_eq hv.1 hknown]
      refine ⟨_, path, ?_, hpath, rfl⟩
      rcases hknown with hm | hm <;> rw [hm] <;> decide
    · refine ⟨b.method.toMethod, path, ?_, hpath, ?_⟩
      · rcases hknown with hm | hm <;> rw [hm] <;> decide
      · rw [line, requestLine, name_toMethod hknown, versionText, hv.1, hv.2, hbytes]
        simp

theorem line_crlf {b : Globals} {target : Bytes} (htarget : Lines.findPair cr lf target = none) :
    Lines.findPair cr lf (b.line target) = none := by
  have hname : Lines.findPair cr lf b.method.name = none := by
    cases b.method with
    | METHOD_GET | METHOD_HEAD | METHOD_OPTIONS | METHOD_TRACE => decide
  have hblank : space ≠ cr ∧ space ≠ lf := by decide
  have hrest : Lines.findPair cr lf (target ++ b.versionText) = none := by
    have hversion : Lines.findPair cr lf (bytes "HTTP/1.0") = none ∧
        Lines.findPair cr lf (bytes "HTTP/1.1") = none := by decide
    have hbytes : bytes " HTTP/1.0" = space :: bytes "HTTP/1.0" ∧
        bytes " HTTP/1.1" = space :: bytes "HTTP/1.1" := by decide
    rw [versionText, hbytes.1, hbytes.2]
    split
    · exact Lines.findPair_append_cons hblank.1 hblank.2 htarget hversion.1
    · split
      · exact Lines.findPair_append_cons hblank.1 hblank.2 htarget hversion.2
      · rw [List.append_nil]
        exact htarget
  exact Lines.findPair_append_cons hblank.1 hblank.2 hname hrest

/-! ## The verdict -/

/-- The parser on the lines of a request. -/
theorem firstLine_request {b b' : Globals} {url : Bytes} (hb : Built b b' url)
    (hcrlf : Lines.findPair cr lf url = none) :
    (Lines.splitLines cr lf b'.request).1 =
        b'.line (b.target url) :: (Lines.splitLines cr lf b'.fields).1 ∧
      (ValidRequestLine (b'.line (b.target url)) ↔ b.Readable url ∨ b.Unfinished url) := by
  constructor
  · rw [hb.request, compose_eq, Lines.splitLines_line cr_ne_lf (line_crlf (hb.target_crlf hcrlf))]
  · have hknown : b'.Known ↔ b.Known := by rw [Known, hb.method, Known]
    rw [validRequestLine_line, hknown, hb.http10]
    constructor
    · rintro ⟨hk, path, hpath, hv | hv⟩
      · refine .inl ⟨(version_eq_two hk).mp hv.1, hk, ?_⟩
        rw [hv.2]
        exact hpath
      · exact .inr ⟨hv.1, hk, path, hpath, hv.2⟩
    · rintro (⟨hv, hk, hblank⟩ | ⟨hv, hk, path, hpath, htarget⟩)
      · exact ⟨hk, _, hblank, .inl ⟨(version_eq_two hk).mpr hv, rfl⟩⟩
      · exact ⟨hk, path, hpath, .inr ⟨hv, htarget⟩⟩

/-- A version that stayed 0 was not corrected. -/
theorem fields_nil {b b' : Globals} {url : Bytes} (hb : Built b b' url) (hversion : b.version = 0) :
    b'.fields = [] := by
  have hplain : ¬ (b.force_reload = true ∧ b.proxyhost ≠ none) := by
    intro hreload
    rcases fin_three b.http10 with hv | hv | hv <;> cases hm : b.method <;>
      simp [version, hreload, hv, hm] at hversion
  have hzero : ¬ (0 : Fin 3) > 0 ∧ ¬ (0 : Fin 3) > 1 := by decide
  rw [fields, hb.force_reload, hb.proxyhost, hb.http10, hversion]
  simp [hplain, hzero]

/-- A readable request is one of the server's. -/
theorem exists_requestText {b b' : Globals} {url : Bytes} (hb : Built b b' url)
    (hcrlf : Lines.findPair cr lf url = none) (hr : b.Readable url) :
    ∃ q : RequestText, q.text = b'.request ∧ ∀ t, b.Found b' url (q.toRequest t) := by
  have hk : b'.Known := by
    rw [Known, hb.method]
    exact hr.2.1
  have htwo : b'.http10 = 2 := hb.http10.trans ((version_eq_two hr.2.1).mpr hr.1)
  refine ⟨b'.requestText (b.target url) hk hr.2.2 (hb.target_crlf hcrlf) (hb.host_crlf hcrlf), ?_,
    fun t => ?_⟩
  · rw [text_requestText _ _ _ _ htwo, ← hb.request]
  · obtain ⟨hagent, hconnection, hhost⟩ := getHeader_requestText hk hr.2.2
      (hb.target_crlf hcrlf) (hb.host_crlf hcrlf) t
    refine ⟨?_, ?_, ?_, hagent, ?_, fun hproxy => hhost (hb.proxyhost.trans hproxy)⟩
    · show (b'.method.toMethod).name = _
      rw [name_toMethod hk, hb.method]
    · exact List.take_append_drop _ _
    · exact take_idxOf_question _
    · rw [hconnection, hb.keep_alive]

section Verdict

variable {b b' : Globals} {url : Bytes} {buffer : Buffer}

/-- A readable request is complete, and the server finds what the client
    meant. -/
theorem parseRequest_readable (hb : Built b b' url) (hcrlf : Lines.findPair cr lf url = none)
    (hr : b.Readable url) (t : TimeType) (hbuffer : buffer.toString = b'.request) :
    ∃ ctx buffer', HttpContext.new.parseRequest buffer t = .ok (true, ctx, buffer') ∧
      ctx.gotAll = true ∧ buffer'.toString = [] ∧ b.Found b' url ctx.request_ := by
  obtain ⟨q, htext, hfound⟩ := exists_requestText hb hcrlf hr
  have hfeed := HttpContext.feed_request q t []
  rw [htext, List.append_nil, ← hbuffer] at hfeed
  obtain ⟨buffer', hparse, hrest⟩ :=
    HttpContext.parseRequest_of_feed HttpContext.expecting_new hfeed
  exact ⟨_, buffer', hparse, rfl, hrest, hfound t⟩

/-- The line of an unfinished request is accepted, and no other line is
    there. -/
theorem parseRequest_unfinished (hb : Built b b' url) (hcrlf : Lines.findPair cr lf url = none)
    (hu : b.Unfinished url) (t : TimeType) (hbuffer : buffer.toString = b'.request) :
    ∃ ctx buffer', HttpContext.new.parseRequest buffer t = .ok (true, ctx, buffer') ∧
      ctx.gotAll = false := by
  obtain ⟨hlines, hvalid⟩ := firstLine_request hb hcrlf
  have hnew : HttpContext.new.request_.method_ = .kInvalid := rfl
  obtain ⟨isOk, c, hline, hok⟩ := HttpContext.processRequestLine_isOk hnew (b'.line (b.target url))
  have hgood : isOk = true := by
    rw [hok, hvalid]
    exact .inr hu
  rw [hgood] at hline
  rw [fields_nil hb hu.1] at hlines
  obtain ⟨ctx, rest, hfeed, hparsed⟩ :=
    HttpContext.feed_accepted rfl hlines hline (hvalid.mpr (.inr hu)) t
  rw [← hbuffer] at hfeed hparsed
  obtain ⟨buffer', hparse, -⟩ := HttpContext.parseRequest_of_feed HttpContext.expecting_new hfeed
  refine ⟨ctx, buffer', hparse, ?_⟩
  have hopen : ¬ HttpContext.new.Completes buffer.toString := by
    rw [hbuffer, HttpContext.completes_requestLine rfl hlines]
    rintro ⟨-, l, hl, -⟩
    cases hl
  rw [← hparsed.completes] at hopen
  simpa [HttpContext.gotAll] using hopen

/-- The line of any other request is rejected, whatever follows.  A GET or
    a HEAD has set the method by then, and the next byte of the client
    makes the server parse the line again. -/
theorem parseRequest_rejected (hb : Built b b' url) (hcrlf : Lines.findPair cr lf url = none)
    (hr : ¬ b.Readable url) (hu : ¬ b.Unfinished url) (t : TimeType)
    (hbuffer : buffer.toString = b'.request) :
    ∃ ctx buffer', HttpContext.new.parseRequest buffer t = .ok (false, ctx, buffer') ∧
      buffer'.toString = b'.request ∧ (ctx.Spoilt ↔ b.Known) ∧
      (b.Known → ∀ (more : Bytes) (t' : TimeType),
        ctx.parseRequest (buffer'.append more) t' = .error .setMethodAssert) := by
  obtain ⟨hlines, hvalid⟩ := firstLine_request hb hcrlf
  have hinvalid : ¬ ValidRequestLine (b'.line (b.target url)) := by
    rw [hvalid]
    exact not_or.mpr ⟨hr, hu⟩
  have hnew : HttpContext.new.request_.method_ = .kInvalid := rfl
  obtain ⟨isOk, c, hline, hok⟩ := HttpContext.processRequestLine_isOk hnew (b'.line (b.target url))
  have hbad : isOk = false := by
    rw [← Bool.not_eq_true, hok]
    exact hinvalid
  rw [hbad] at hline
  obtain ⟨hfeed, hparsed⟩ := HttpContext.feed_rejected rfl rfl hlines hline hinvalid t
  rw [← hbuffer] at hfeed
  obtain ⟨buffer', hparse, hrest⟩ :=
    HttpContext.parseRequest_of_feed HttpContext.expecting_new hfeed
  have hmethod := HttpContext.method_processRequestLine (space_not_mem_name b'.method) hline
  have hstate := HttpContext.processRequestLine_state hline
  have hstart : HttpContext.new.state_ = .kExpectRequestLine := rfl
  have hspoilt : c.Spoilt ↔ b.Known := by
    rw [HttpContext.Spoilt, hmethod, hstate, hstart, and_iff_right rfl, hb.method, Known]
    cases b.method <;> decide
  refine ⟨c, buffer', hparse, hrest.trans hbuffer, hspoilt, fun hknown more t' => ?_⟩
  -- the line is still in front
  have hblank := hparsed.rejected (hspoilt.mpr hknown)
  rw [← hbuffer, ← hrest] at hblank
  apply HttpContext.parseRequest_spoilt (hspoilt.mpr hknown)
  rw [Buffer.toString_append]
  exact HttpContext.blankInFirstLine_append hblank more

end Verdict

/-- **The verdict of the server** on the request built from any URL without
    a line end in it, with any options: a readable request is complete, and
    the server finds what the client meant; an unfinished one leaves the
    parser waiting; any other is rejected and stays in the buffer, and a GET
    or a HEAD leaves the parser so that any further bytes make `setMethod`
    assert. -/
theorem parseRequest_request {b b' : Globals} {url : Bytes}
    (hbuild : b.build_request url = .ok b') (hcrlf : Lines.findPair cr lf url = none)
    (t : TimeType) {buffer : Buffer} (hbuffer : buffer.toString = b'.request) :
    ∃ isOk ctx buffer', HttpContext.new.parseRequest buffer t = .ok (isOk, ctx, buffer') ∧
      (b.Readable url → isOk = true ∧ ctx.gotAll = true ∧ buffer'.toString = [] ∧
        b.Found b' url ctx.request_) ∧
      (b.Unfinished url → isOk = true ∧ ctx.gotAll = false) ∧
      (¬ b.Readable url → ¬ b.Unfinished url → isOk = false ∧ buffer'.toString = b'.request ∧
        (ctx.Spoilt ↔ b.Known) ∧
        (b.Known → ∀ (more : Bytes) (t' : TimeType),
          ctx.parseRequest (buffer'.append more) t' = .error .setMethodAssert)) := by
  have hb := built_of_build hbuild
  have hother : b.Readable url → ¬ b.Unfinished url := by
    intro hr hu
    have htwo := (version_eq_two hr.2.1).mpr hr.1
    rw [hu.1] at htwo
    exact absurd htwo (by decide)
  by_cases hr : b.Readable url
  · obtain ⟨ctx, buffer', hparse, hgot, hrest, hfound⟩ :=
      parseRequest_readable hb hcrlf hr t hbuffer
    exact ⟨true, ctx, buffer', hparse, fun _ => ⟨rfl, hgot, hrest, hfound⟩,
      fun hu => absurd hu (hother hr), fun hn => absurd hr hn⟩
  · by_cases hu : b.Unfinished url
    · obtain ⟨ctx, buffer', hparse, hgot⟩ := parseRequest_unfinished hb hcrlf hu t hbuffer
      exact ⟨true, ctx, buffer', hparse, fun h => absurd h hr, fun _ => ⟨rfl, hgot⟩,
        fun _ hn => absurd hu hn⟩
    · obtain ⟨ctx, buffer', hparse, hrest, hspoilt⟩ :=
        parseRequest_rejected hb hcrlf hr hu t hbuffer
      exact ⟨false, ctx, buffer', hparse, fun h => absurd h hr, fun h => absurd h hu,
        fun _ _ => ⟨rfl, hrest, hspoilt⟩⟩

/-- The default options: HTTP/1.0 is rejected. -/
theorem parseRequest_request_new :
    ∃ isOk ctx buffer', HttpContext.new.parseRequest (Buffer.new.append (bytes
        "GET /a HTTP/1.0\r\nUser-Agent: WebBench 1.5\r\nHost: localhost\r\n\r\n")) 7 =
          .ok (isOk, ctx, buffer') ∧
      (Globals.new.Readable (bytes "http://localhost:8080/a") → isOk = true ∧ ctx.gotAll = true ∧
        buffer'.toString = [] ∧ Globals.new.Found
          { Globals.new with
            host := bytes "localhost"
            proxyport := 8080
            request := bytes
              "GET /a HTTP/1.0\r\nUser-Agent: WebBench 1.5\r\nHost: localhost\r\n\r\n" }
          (bytes "http://localhost:8080/a") ctx.request_) ∧
      (Globals.new.Unfinished (bytes "http://localhost:8080/a") →
        isOk = true ∧ ctx.gotAll = false) ∧
      (¬ Globals.new.Readable (bytes "http://localhost:8080/a") →
        ¬ Globals.new.Unfinished (bytes "http://localhost:8080/a") →
          isOk = false ∧ buffer'.toString = bytes
            "GET /a HTTP/1.0\r\nUser-Agent: WebBench 1.5\r\nHost: localhost\r\n\r\n" ∧
            (ctx.Spoilt ↔ Globals.new.Known) ∧
            (Globals.new.Known → ∀ (more : Bytes) (t' : TimeType),
              ctx.parseRequest (buffer'.append more) t' = .error .setMethodAssert)) :=
  parseRequest_request
    (show Globals.new.build_request (bytes "http://localhost:8080/a") = .ok _ by decide +kernel)
    (by decide +kernel) 7 (by decide +kernel)

end Globals

end WebBench

end TinyWS
