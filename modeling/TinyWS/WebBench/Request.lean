import TinyWS.Framework.Decimal
import TinyWS.Http.RequestText

/-! # The Request of the Benchmark

    `build_request` of the benchmark client takes a URL apart and puts one
    request together, which every child then sends over and over.

    * **Model**: the options, the tests a URL has to pass, the host and the
      port, and the text of the request.  `host` and `tmp` are arrays of a
      fixed length that a URL can overrun, or fill to the last byte.
    * **Grammar**: without a proxy the URLs that pass are those of a
      grammar (`Url`), and the request is made of its parts.
    * **Room**: no URL overruns `request`. -/

namespace TinyWS

/-! ## The C library -/

/-- `/` in ASCII. -/
def slash : UInt8 := 47

/-- `tolower` in the C locale. -/
def tolower (c : UInt8) : UInt8 := if 65 ≤ c ∧ c ≤ 90 then c + 32 else c

/-- `strstr(text, needle)`: the index of the first occurrence. -/
def strstr (needle : Bytes) : Bytes → Option Nat
  | [] => if needle = [] then some 0 else none
  | c :: cs => if needle.isPrefixOf (c :: cs) then some 0 else (strstr needle cs).map (· + 1)

/-- `isdigit`. -/
def isdigit (c : UInt8) : Bool := 48 ≤ c && c ≤ 57

/-- `atoi`, for texts too short to overflow. -/
def atoi (text : Bytes) : Int :=
  match text.dropWhile isspace with
  | [] => 0
  | c :: digits =>
      if c = 45 then -(Decimal.natValue (digits.takeWhile isdigit) : Int)
      else if c = 43 then Decimal.natValue (digits.takeWhile isdigit)
      else Decimal.natValue ((c :: digits).takeWhile isdigit)

namespace WebBench

/-! ## The model -/

/-- `METHOD_GET` and its siblings. -/
inductive MethodOption where
  | METHOD_GET
  | METHOD_HEAD
  | METHOD_OPTIONS
  | METHOD_TRACE
  deriving DecidableEq, Repr

def MethodOption.name : MethodOption → Bytes
  | .METHOD_GET => bytes "GET"
  | .METHOD_HEAD => bytes "HEAD"
  | .METHOD_OPTIONS => bytes "OPTIONS"
  | .METHOD_TRACE => bytes "TRACE"

/-- `MAXHOSTNAMELEN` of the system headers, the length of `host`. -/
def MAXHOSTNAMELEN : Nat := 64

/-- The length of `request`. -/
def REQUEST_SIZE : Nat := 2048

/-- The length of `tmp`, for the text of the port. -/
def tmpSize : Nat := 10

/-- The versions are named by the numerals `0`, `1` and `2`. -/
instance instNeZeroVersions : NeZero (3 : Nat) := ⟨by decide⟩

/-- The globals that `build_request` reads and writes. -/
structure Globals where
  /-- 0 for HTTP/0.9, 1 for HTTP/1.0, 2 for HTTP/1.1. -/
  http10 : Fin 3
  method : MethodOption
  force_reload : Bool
  proxyport : Int
  proxyhost : Option Bytes
  keep_alive : Bool
  host : Bytes
  request : Bytes
  deriving DecidableEq

/-- The initial values. -/
def Globals.new : Globals where
  http10 := 1
  method := .METHOD_GET
  force_reload := false
  proxyport := 80
  proxyhost := none
  keep_alive := true
  host := []
  request := []

/-- How `build_request` can fail. -/
inductive Failure where
  /-- `exit(2)` after a message. -/
  | exit (message : Bytes)
  /-- Something is written behind the end of an array. -/
  | overrun
  /-- An array is full, without a null byte behind its string.  The program
      goes on, and reads behind the end of the array. -/
  | unterminated
  deriving DecidableEq

namespace Globals

/-- The version after the four corrections. -/
def version (b : Globals) : Fin 3 :=
  let http10 := if b.force_reload ∧ b.proxyhost ≠ none ∧ b.http10 < 1 then 1 else b.http10
  let http10 := if b.method = .METHOD_HEAD ∧ http10 < 1 then 1 else http10
  let http10 := if b.method = .METHOD_OPTIONS ∧ http10 < 2 then 2 else http10
  if b.method = .METHOD_TRACE ∧ http10 < 2 then 2 else http10

/-- The four tests of a URL; where the part behind `://` begins. -/
def checkUrl (url : Bytes) : Except Failure Nat :=
  match strstr (bytes "://") url with
  | none => .error (.exit (bytes "\n" ++ url ++ bytes ": is not a valid URL.\n"))
  | some delimiter =>
      if url.length > 1500 then
        .error (.exit (bytes "URL is too long.\n"))
      else if (url.take 7).map tolower ≠ bytes "http://" then
        .error (.exit
          (bytes "\nOnly HTTP protocol is directly supported, set --proxy for others.\n"))
      else if slash ∉ url.drop (delimiter + 3) then
        .error (.exit (bytes "\nInvalid URL syntax - hostname don't ends with '/'.\n"))
      else
        .ok (delimiter + 3)

/-- What is copied to `host`, and the port; `rest` begins behind `://`.
    `strncpy` writes as many bytes as it is told, and the null byte behind
    them is one that `memset` has left. -/
def hostPort (proxyport : Int) (rest : Bytes) : Except Failure (Bytes × Int) :=
  let colonAt := rest.idxOf colon
  let slashAt := rest.idxOf slash
  if colonAt ≠ rest.length ∧ colonAt < slashAt then
    let tmp := (rest.drop (colonAt + 1)).take (slashAt - colonAt - 1)
    if MAXHOSTNAMELEN < colonAt ∨ tmpSize < tmp.length then .error .overrun
    else if colonAt = MAXHOSTNAMELEN ∨ tmp.length = tmpSize then .error .unterminated
    else .ok (rest.take colonAt, if atoi tmp = 0 then 80 else atoi tmp)
  else if MAXHOSTNAMELEN < slashAt then .error .overrun
  else if slashAt = MAXHOSTNAMELEN then .error .unterminated
  else .ok (rest.take slashAt, proxyport)

/-- ` HTTP/1.0`, ` HTTP/1.1` or nothing. -/
def versionText (b : Globals) : Bytes :=
  if b.http10 = 1 then bytes " HTTP/1.0" else if b.http10 = 2 then bytes " HTTP/1.1" else []

/-- What `build_request` appends behind the first line. -/
def fields (b : Globals) : Bytes :=
  (if b.http10 > 0 then bytes "User-Agent: WebBench 1.5\r\n" else []) ++
    ((if b.proxyhost = none ∧ b.http10 > 0 then bytes "Host: " ++ b.host ++ bytes "\r\n" else []) ++
      ((if b.force_reload ∧ b.proxyhost ≠ none then bytes "Pragma: no-cache\r\n" else []) ++
        ((if b.http10 > 1 then
            if ¬ b.keep_alive then bytes "Connection: close\r\n"
            else bytes "Connection: Keep-Alive\r\n"
          else []) ++
          if b.http10 > 0 then bytes "\r\n" else [])))

/-- The text of the request, from the first `strcpy` to the last `strcat`. -/
def compose (b : Globals) (target : Bytes) : Bytes :=
  b.method.name ++ (bytes " " ++ (target ++ (b.versionText ++ (bytes "\r\n" ++ b.fields))))

def build_request (b : Globals) (url : Bytes) : Except Failure Globals :=
  match checkUrl url with
  | .error failure => .error failure
  | .ok i =>
      let b := { b with http10 := b.version, host := [] }
      let rest := url.drop i
      match b.proxyhost with
      | none =>
          match hostPort b.proxyport rest with
          | .error failure => .error failure
          | .ok (host, proxyport) =>
              let b := { b with host := host, proxyport := proxyport }
              .ok { b with request := b.compose (rest.drop (rest.idxOf slash)) }
      | some _ => .ok { b with request := b.compose url }

end Globals

/-! ## The grammar -/

/-- The URLs that pass the four tests, in parts.  `port` is what stands
    behind the first colon of the authority. -/
structure Url where
  scheme : Bytes
  host : Bytes
  port : Option Bytes
  target : Bytes
  scheme_http : scheme.map tolower = bytes "http://"
  host_slash : slash ∉ host
  host_colon : colon ∉ host
  port_slash : ∀ p ∈ port, slash ∉ p
  /-- The target begins with the slash behind the host. -/
  target_slash : target.head? = some slash
  length_le : (scheme ++ (host ++ (port.elim [] (colon :: ·) ++ target))).length ≤ 1500

namespace Url

/-- What stands behind the scheme. -/
def rest (u : Url) : Bytes := u.host ++ (u.port.elim [] (colon :: ·) ++ u.target)

def text (u : Url) : Bytes := u.scheme ++ u.rest

/-- The host fits into `host` with its null byte, and the port into `tmp`. -/
def Fits (u : Url) : Prop :=
  u.host.length < MAXHOSTNAMELEN ∧ ∀ p ∈ u.port, p.length < tmpSize

instance (u : Url) : Decidable u.Fits := inferInstanceAs (Decidable (_ ∧ _))

/-- The host is too long for `host`, or the port for `tmp`, even without
    the null byte. -/
def Overruns (u : Url) : Prop :=
  MAXHOSTNAMELEN < u.host.length ∨ ∃ p ∈ u.port, tmpSize < p.length

instance (u : Url) : Decidable u.Overruns := inferInstanceAs (Decidable (_ ∨ _))

/-- The port a client connects to; 80 for a port that is 0 or no number. -/
def portNumber (u : Url) (proxyport : Int) : Int :=
  u.port.elim proxyport fun p => if atoi p = 0 then 80 else atoi p

end Url

/-- What `build_request` makes of the parts of a URL. -/
def Globals.built (b : Globals) (u : Url) : Globals :=
  let b := { b with http10 := b.version, host := u.host, proxyport := u.portNumber b.proxyport }
  { b with request := b.compose u.target }

/-! ## Taking a URL apart -/

/-- Only letters are changed, and only to letters. -/
theorem eq_of_tolower {c d : UInt8} (h : tolower c = d) (hd : ¬ (97 ≤ d ∧ d ≤ 122)) : c = d := by
  unfold tolower at h
  split at h
  · next hupper =>
    have hle : 65 ≤ c.toNat ∧ c.toNat ≤ 90 := hupper
    have hlower : (c + 32).toNat = c.toNat + 32 := by
      rw [UInt8.toNat_add]
      exact Nat.mod_eq_of_lt (by show c.toNat + 32 < 256; omega)
    refine absurd ?_ hd
    rw [← h]
    show 97 ≤ (c + 32).toNat ∧ (c + 32).toNat ≤ 122
    omega
  · exact h

/-- In front of the delimiter of the scheme there is no other. -/
theorem strstr_scheme {scheme : Bytes} (h : scheme.map tolower = bytes "http://")
    (rest : Bytes) : strstr (bytes "://") (scheme ++ rest) = some 4 := by
  have hlen : scheme.length = 7 := by
    have := congrArg List.length h
    rw [List.length_map] at this
    exact this
  match scheme, hlen with
  | [c0, c1, c2, c3, c4, c5, c6], _ =>
    have hbytes : bytes "http://" = [104, 116, 116, 112, 58, 47, 47] := by decide
    rw [hbytes] at h
    simp only [List.map_cons, List.map_nil, List.cons.injEq, and_true] at h
    obtain ⟨h0, h1, h2, h3, h4, h5, h6⟩ := h
    -- the colon and the slashes are themselves, and a letter is no colon
    have hcolon := eq_of_tolower h4 (by decide)
    have hslash := eq_of_tolower h5 (by decide)
    have hslash' := eq_of_tolower h6 (by decide)
    have hletter : ∀ {c d : UInt8}, tolower c = d → d ≠ tolower 58 → ¬ 58 = c := by
      intro c d hc hd heq
      rw [← hc, ← heq] at hd
      exact hd rfl
    have hneedle : bytes "://" = [58, 47, 47] := by decide
    simp [strstr, hneedle, List.isPrefixOf, hcolon, hslash, hslash', hletter h0 (by decide),
      hletter h1 (by decide)]

/-- The four tests together. -/
theorem checkUrl_eq_ok {url : Bytes} {i : Nat} :
    Globals.checkUrl url = .ok i ↔ i = 7 ∧ url.length ≤ 1500 ∧
      (url.take 7).map tolower = bytes "http://" ∧ slash ∈ url.drop 7 := by
  by_cases hscheme : (url.take 7).map tolower = bytes "http://"
  · have hfind := strstr_scheme hscheme (url.drop 7)
    rw [List.take_append_drop] at hfind
    simp only [Globals.checkUrl, hfind, hscheme, ne_eq, not_true, if_false]
    split_ifs with hlong hslash
    · exact iff_of_false (by simp) fun h => absurd h.2.1 (by omega)
    · constructor
      · intro h
        cases h
        exact ⟨rfl, by omega, trivial, hslash⟩
      · intro h
        rw [h.1]
    · exact iff_of_false (by simp) fun h => hslash h.2.2.2
  · refine iff_of_false ?_ fun h => hscheme h.2.2.1
    unfold Globals.checkUrl
    split
    · simp
    · split_ifs
      · simp
      · simp

/-! ## Host and port -/

section HostPort

variable {host target : Bytes}

theorem idxOf_target (hslash : slash ∉ host) (htarget : target.head? = some slash) :
    (host ++ target).idxOf slash = host.length := by
  obtain ⟨ts, rfl⟩ := List.head?_eq_some_iff.mp htarget
  exact idxOf_append_cons hslash ts

/-- No port: the first colon, if there is one, stands in the target. -/
theorem hostPort_host (proxyport : Int) (hslash : slash ∉ host) (hcolon : colon ∉ host)
    (htarget : target.head? = some slash) :
    Globals.hostPort proxyport (host ++ target) =
      if MAXHOSTNAMELEN < host.length then .error .overrun
      else if host.length = MAXHOSTNAMELEN then .error .unterminated
      else .ok (host, proxyport) := by
  have hat := idxOf_target hslash htarget
  have hlate : ¬ (host ++ target).idxOf colon < host.length := by
    rw [List.idxOf_append_of_notMem hcolon]
    omega
  simp only [Globals.hostPort, hat]
  rw [if_neg fun h => hlate h.2, List.take_left]

/-- A port: it lies between the first colon and the first slash. -/
theorem hostPort_port (proxyport : Int) {port : Bytes} (hslash : slash ∉ host)
    (hcolon : colon ∉ host) (hport : slash ∉ port) (htarget : target.head? = some slash) :
    Globals.hostPort proxyport (host ++ colon :: (port ++ target)) =
      if MAXHOSTNAMELEN < host.length ∨ tmpSize < port.length then .error .overrun
      else if host.length = MAXHOSTNAMELEN ∨ port.length = tmpSize then .error .unterminated
      else .ok (host, if atoi port = 0 then 80 else atoi port) := by
  have hcolonAt := idxOf_append_cons hcolon (port ++ target)
  have hslashAt : (host ++ colon :: (port ++ target)).idxOf slash =
      host.length + 1 + port.length := by
    have hnone : slash ∉ host ++ colon :: port := by
      simp [hslash, hport, show slash ≠ colon from by decide]
    have := idxOf_target hnone htarget
    simp only [List.append_assoc, List.cons_append, List.length_append, List.length_cons] at this
    omega
  have hlt : host.length ≠ (host ++ colon :: (port ++ target)).length := by simp
  have htmp : ((host ++ colon :: (port ++ target)).drop (host.length + 1)).take
      (host.length + 1 + port.length - host.length - 1) = port := by
    rw [show host.length + 1 + port.length - host.length - 1 = port.length from by omega,
      ← List.drop_drop, List.drop_left]
    simp
  simp only [Globals.hostPort, hcolonAt, hslashAt, htmp, List.take_left]
  rw [if_pos ⟨hlt, by omega⟩]

end HostPort

/-- The copies of a URL. -/
theorem hostPort_rest (proxyport : Int) (u : Url) :
    Globals.hostPort proxyport u.rest =
      if u.Overruns then .error .overrun
      else if u.Fits then .ok (u.host, u.portNumber proxyport)
      else .error .unterminated := by
  obtain ⟨scheme, host, port, target, hhttp, hslash, hcolon, hport, htarget, hlen⟩ := u
  cases port with
  | none =>
    have hcopy := hostPort_host proxyport hslash hcolon htarget
    have hoverruns : Url.Overruns
        ⟨scheme, host, none, target, hhttp, hslash, hcolon, hport, htarget, hlen⟩ ↔
        MAXHOSTNAMELEN < host.length := by simp [Url.Overruns]
    have hfits : Url.Fits ⟨scheme, host, none, target, hhttp, hslash, hcolon, hport, htarget, hlen⟩ ↔
        host.length < MAXHOSTNAMELEN := by simp [Url.Fits]
    rw [if_congr hoverruns rfl rfl, if_congr hfits rfl rfl]
    refine hcopy.trans ?_
    rcases Nat.lt_trichotomy host.length MAXHOSTNAMELEN with hlt | heq | hgt
    · rw [if_neg (by omega), if_neg (by omega), if_neg (by omega), if_pos hlt]
      rfl
    · rw [if_neg (by omega), if_pos heq, if_neg (by omega), if_neg (by omega)]
    · rw [if_pos hgt, if_pos hgt]
  | some p =>
    have hcopy := hostPort_port proxyport hslash hcolon (hport p rfl) htarget
    have hoverruns : Url.Overruns
        ⟨scheme, host, some p, target, hhttp, hslash, hcolon, hport, htarget, hlen⟩ ↔
        MAXHOSTNAMELEN < host.length ∨ tmpSize < p.length := by simp [Url.Overruns]
    have hfits : Url.Fits
        ⟨scheme, host, some p, target, hhttp, hslash, hcolon, hport, htarget, hlen⟩ ↔
        host.length < MAXHOSTNAMELEN ∧ p.length < tmpSize := by simp [Url.Fits]
    rw [if_congr hoverruns rfl rfl, if_congr hfits rfl rfl]
    refine hcopy.trans ?_
    by_cases hlong : MAXHOSTNAMELEN < host.length ∨ tmpSize < p.length
    · rw [if_pos hlong, if_pos hlong]
    · rw [if_neg hlong, if_neg hlong]
      by_cases hfull : host.length = MAXHOSTNAMELEN ∨ p.length = tmpSize
      · rw [if_pos hfull, if_neg (by omega)]
      · have hfit : host.length < MAXHOSTNAMELEN ∧ p.length < tmpSize := by omega
        rw [if_neg hfull, if_pos hfit]
        rfl

/-- What fits overruns nothing. -/
theorem Url.Fits.not_overruns {u : Url} (h : u.Fits) : ¬ u.Overruns := by
  rintro (hhost | ⟨p, hp, hport⟩)
  · exact Nat.lt_asymm h.1 hhost
  · exact Nat.lt_asymm (h.2 p hp) hport

/-! ## The whole URL -/

theorem Url.length_scheme (u : Url) : u.scheme.length = 7 := by
  have hlen := congrArg List.length u.scheme_http
  rw [List.length_map] at hlen
  exact hlen

theorem Url.drop_text (u : Url) : u.text.drop 7 = u.rest := List.drop_left' u.length_scheme

theorem Url.idxOf_rest (u : Url) : u.rest.drop (u.rest.idxOf slash) = u.target := by
  have hnone : slash ∉ u.host ++ u.port.elim [] (colon :: ·) := by
    intro hmem
    rcases List.mem_append.mp hmem with hhost | hport
    · exact u.host_slash hhost
    · cases hp : u.port with
      | none =>
        rw [hp] at hport
        cases hport
      | some p =>
        rw [hp] at hport
        rcases List.mem_cons.mp hport with heq | hmem
        · exact absurd heq (by decide)
        · exact u.port_slash p hp hmem
  have hrest : u.rest = (u.host ++ u.port.elim [] (colon :: ·)) ++ u.target := by
    rw [Url.rest, List.append_assoc]
  rw [hrest, idxOf_target hnone u.target_slash, List.drop_left]

theorem Url.slash_mem_rest (u : Url) : slash ∈ u.rest := by
  have hmem := List.mem_of_mem_head? (Option.mem_def.mpr u.target_slash)
  exact List.mem_append_right _ (List.mem_append_right _ hmem)

theorem Url.checkUrl_text (u : Url) : Globals.checkUrl u.text = .ok 7 := by
  refine checkUrl_eq_ok.mpr ⟨rfl, u.length_le, ?_, ?_⟩
  · rw [Url.text, List.take_left' u.length_scheme]
    exact u.scheme_http
  · rw [u.drop_text]
    exact u.slash_mem_rest

/-- Every URL that passes has such parts. -/
theorem exists_url {url : Bytes} {i : Nat} (h : Globals.checkUrl url = .ok i) :
    ∃ u : Url, u.text = url := by
  obtain ⟨-, hlen, hscheme, hslash⟩ := checkUrl_eq_ok.mp h
  have hfound : (url.drop 7).idxOf slash ≠ (url.drop 7).length :=
    Nat.ne_of_lt (List.idxOf_lt_length_iff.mpr hslash)
  obtain ⟨hsplit, hnone⟩ := eq_of_idxOf hfound
  generalize (url.drop 7).take ((url.drop 7).idxOf slash) = authority at hsplit hnone
  generalize (url.drop 7).drop ((url.drop 7).idxOf slash + 1) = path at hsplit
  have hurl : url = url.take 7 ++ (authority ++ slash :: path) := by
    rw [← hsplit, List.take_append_drop]
  by_cases hcolon : colon ∈ authority
  · -- the first colon of the authority ends the host
    have hmark : authority.idxOf colon ≠ authority.length :=
      Nat.ne_of_lt (List.idxOf_lt_length_iff.mpr hcolon)
    obtain ⟨hauthority, hhost⟩ := eq_of_idxOf hmark
    generalize authority.take (authority.idxOf colon) = host at hauthority hhost
    generalize authority.drop (authority.idxOf colon + 1) = port at hauthority
    rw [hauthority] at hnone hurl
    have hparts : url = url.take 7 ++
        (host ++ ((some port).elim [] (colon :: ·) ++ slash :: path)) := by
      simpa using hurl
    refine ⟨⟨url.take 7, host, some port, slash :: path, hscheme, ?_, hhost, ?_, rfl, ?_⟩, ?_⟩
    · exact fun hmem => hnone (List.mem_append_left _ hmem)
    · intro p hp hmem
      cases hp
      exact hnone (List.mem_append_right _ (List.mem_cons_of_mem _ hmem))
    · rw [← hparts]
      exact hlen
    · exact hparts.symm
  · refine ⟨⟨url.take 7, authority, none, slash :: path, hscheme, hnone, hcolon, ?_, rfl, ?_⟩, ?_⟩
    · intro p hp
      cases hp
    · show (url.take 7 ++ (authority ++ slash :: path)).length ≤ 1500
      rw [← hurl]
      exact hlen
    · exact hurl.symm

namespace Globals

/-- A URL that does not pass ends the program. -/
theorem build_request_exit {b : Globals} {url : Bytes} (h : ¬ ∃ u : Url, u.text = url) :
    ∃ message, b.build_request url = .error (.exit message) := by
  have hcheck : ∃ message, checkUrl url = .error (.exit message) := by
    cases hc : checkUrl url with
    | ok i => exact absurd (exists_url hc) h
    | error failure =>
      -- the tests write to no array
      cases failure with
      | exit message => exact ⟨message, rfl⟩
      | overrun | unterminated =>
        unfold checkUrl at hc
        split at hc
        · simp at hc
        · split_ifs at hc
          all_goals simp at hc
  obtain ⟨message, hmessage⟩ := hcheck
  exact ⟨message, by rw [build_request, hmessage]⟩

/-- A URL that passes, with no proxy. -/
theorem build_request_url {b : Globals} (hproxy : b.proxyhost = none) (u : Url) :
    b.build_request u.text =
      if u.Overruns then .error .overrun
      else if u.Fits then .ok (b.built u)
      else .error .unterminated := by
  simp only [build_request, u.checkUrl_text, u.drop_text, hproxy, hostPort_rest]
  by_cases hlong : u.Overruns
  · rw [if_pos hlong, if_pos hlong]
  · rw [if_neg hlong, if_neg hlong]
    by_cases hfits : u.Fits
    · simp only [if_pos hfits, u.idxOf_rest]
      simp [built, hproxy]
    · simp only [if_neg hfits]

/-- The request is made if the parts fit. -/
theorem build_request_fits {b : Globals} (hproxy : b.proxyhost = none) {u : Url} (h : u.Fits) :
    b.build_request u.text = .ok (b.built u) := by
  rw [build_request_url hproxy, if_neg h.not_overruns, if_pos h]

/-- And only then. -/
theorem fits_of_build_request {b b' : Globals} (hproxy : b.proxyhost = none) {u : Url}
    (h : b.build_request u.text = .ok b') : u.Fits ∧ b' = b.built u := by
  rw [build_request_url hproxy] at h
  split at h
  · cases h
  · split at h
    · next hfits => exact ⟨hfits, (Except.ok.inj h).symm⟩
    · cases h

/-! ## Room for the request -/

theorem length_ite_le {p : Prop} [Decidable p] {xs ys : Bytes} {n : Nat} (hx : xs.length ≤ n)
    (hy : ys.length ≤ n) : (if p then xs else ys).length ≤ n := by
  split
  · exact hx
  · exact hy

theorem length_fields_le (b : Globals) : b.fields.length ≤ b.host.length + 78 := by
  have hagent : (if b.http10 > 0 then bytes "User-Agent: WebBench 1.5\r\n" else []).length ≤ 26 :=
    length_ite_le (by decide) (by decide)
  have hhost : (if b.proxyhost = none ∧ b.http10 > 0 then
      bytes "Host: " ++ b.host ++ bytes "\r\n" else []).length ≤ b.host.length + 8 := by
    refine length_ite_le ?_ (Nat.zero_le _)
    rw [List.length_append, List.length_append]
    show 6 + b.host.length + 2 ≤ _
    omega
  have hpragma : (if b.force_reload ∧ b.proxyhost ≠ none then
      bytes "Pragma: no-cache\r\n" else []).length ≤ 18 := length_ite_le (by decide) (by decide)
  have hconnection : (if b.http10 > 1 then
      if ¬ b.keep_alive then bytes "Connection: close\r\n" else bytes "Connection: Keep-Alive\r\n"
      else []).length ≤ 24 :=
    length_ite_le (length_ite_le (by decide) (by decide)) (by decide)
  have hend : (if b.http10 > 0 then bytes "\r\n" else []).length ≤ 2 :=
    length_ite_le (by decide) (by decide)
  rw [fields]
  simp only [List.length_append] at *
  omega

/-- The pieces around the target and the host have a bound of their own. -/
theorem length_compose_le (b : Globals) (target : Bytes) :
    (b.compose target).length ≤ target.length + b.host.length + 97 := by
  have hname : b.method.name.length ≤ 7 := by
    cases b.method with
    | METHOD_GET | METHOD_HEAD | METHOD_OPTIONS | METHOD_TRACE => decide
  have hversion : b.versionText.length ≤ 9 :=
    length_ite_le (by decide) (length_ite_le (by decide) (by decide))
  have hblank : (bytes " ").length = 1 := by decide
  have hcrlf : (bytes "\r\n").length = 2 := by decide
  have hfields := b.length_fields_le
  rw [compose]
  simp only [List.length_append]
  omega

/-- With a proxy the whole URL is the target. -/
theorem build_request_proxy {b : Globals} {proxy : Bytes} (hproxy : b.proxyhost = some proxy)
    {url : Bytes} (u : Url) (hurl : u.text = url) :
    b.build_request url = .ok
      { b with
        http10 := b.version
        host := []
        request := { b with http10 := b.version, host := [] }.compose url } := by
  rw [← hurl]
  simp only [build_request, u.checkUrl_text, hproxy]

/-- Nothing is written behind the end of `request`. -/
theorem length_request_lt {b b' : Globals} {url : Bytes} (h : b.build_request url = .ok b') :
    b'.request.length < REQUEST_SIZE := by
  have hsize : REQUEST_SIZE = 2048 := rfl
  have hurl : ∃ u : Url, u.text = url := by
    by_contra hnone
    obtain ⟨message, hexit⟩ := build_request_exit (b := b) hnone
    rw [hexit] at h
    cases h
  obtain ⟨u, hu⟩ := hurl
  have hlen : u.text.length ≤ 1500 := u.length_le
  cases hproxy : b.proxyhost with
  | some proxy =>
    rw [build_request_proxy hproxy u hu] at h
    cases h
    have hle := length_compose_le { b with http10 := b.version, host := [] } url
    rw [← hu] at hle ⊢
    simp only [List.length_nil] at hle ⊢
    omega
  | none =>
    rw [← hu] at h
    obtain ⟨hfits, rfl⟩ := fits_of_build_request hproxy h
    have htext : u.text.length = u.scheme.length + (u.host.length +
        ((u.port.elim [] (colon :: ·)).length + u.target.length)) := by
      rw [Url.text, Url.rest, List.length_append, List.length_append, List.length_append]
    have hhost : u.host.length < 64 := hfits.1
    have hle := length_compose_le
      { b with http10 := b.version, host := u.host, proxyport := u.portNumber b.proxyport }
      u.target
    show (compose _ u.target).length < _
    simp only at hle
    omega

example : (Globals.new.build_request (bytes "HTTP://localhost:8080/a")).toOption.map
    (fun b => (b.host, b.proxyport, b.request)) =
      some (bytes "localhost", 8080,
        bytes "GET /a HTTP/1.0\r\nUser-Agent: WebBench 1.5\r\nHost: localhost\r\n\r\n") := by
  decide +kernel

/-- A host of 64 bytes fills its array. -/
example : Globals.new.build_request (bytes "http://" ++ (List.replicate 64 97 ++ [slash])) =
    .error .unterminated := by
  decide +kernel

end Globals

/-! ## The port in digits -/

theorem isdigit_iff {c : UInt8} : isdigit c = true ↔ 48 ≤ c.toNat ∧ c.toNat ≤ 57 := by
  rw [isdigit, Bool.and_eq_true, decide_eq_true_iff, decide_eq_true_iff]
  rfl

/-- A digit is neither a blank nor a sign. -/
theorem other_of_isdigit {c : UInt8} (h : isdigit c = true) :
    isspace c = false ∧ c ≠ 45 ∧ c ≠ 43 := by
  rw [isdigit_iff] at h
  have hne : ∀ d : UInt8, ¬ (48 ≤ d.toNat ∧ d.toNat ≤ 57) → c ≠ d := by
    intro d hd heq
    rw [heq] at h
    exact hd h
  have hlate : ¬ c ≤ 13 := by
    show ¬ c.toNat ≤ 13
    omega
  refine ⟨?_, hne 45 (by decide), hne 43 (by decide)⟩
  simp [isspace, hne 32 (by decide), hlate]

theorem isdigit_natText {n : Nat} {c : UInt8} (hc : c ∈ Decimal.natText n) : isdigit c = true :=
  isdigit_iff.mpr ((Decimal.isNat_natText n).digits c hc)

/-- `atoi` reads back a number that was written in decimal. -/
theorem atoi_natText (n : Nat) : atoi (Decimal.natText n) = n := by
  have hnat := Decimal.isNat_natText n
  obtain ⟨c, cs, hcs⟩ := List.exists_cons_of_ne_nil hnat.nonempty
  obtain ⟨hspace, hminus, hplus⟩ :=
    other_of_isdigit (isdigit_natText (n := n) (c := c) (by rw [hcs]; exact List.mem_cons_self))
  have hstart : (Decimal.natText n).dropWhile isspace = c :: cs := by
    rw [hcs, List.dropWhile_cons_of_neg (by simp [hspace])]
  simp only [atoi, hstart, if_neg hminus, if_neg hplus]
  rw [← hcs, List.takeWhile_eq_self_iff.mpr fun c hc => isdigit_natText hc, hnat.value]

/-- **URL round trip**: the host, the port and the target of a URL that
    was written down are read back. -/
theorem Globals.build_request_written {b : Globals} (hproxy : b.proxyhost = none)
    {host target : Bytes} (hslash : slash ∉ host) (hcolon : colon ∉ host)
    (hhost : host.length < MAXHOSTNAMELEN) {n : Nat} (hn : 0 < n ∧ n < 10 ^ 9)
    (htarget : target.head? = some slash)
    (hlen : (bytes "http://" ++ (host ++ (colon :: Decimal.natText n ++ target))).length ≤ 1500) :
    ∃ b', b.build_request (bytes "http://" ++ (host ++ (colon :: Decimal.natText n ++ target))) =
        .ok b' ∧ b'.host = host ∧ b'.proxyport = n ∧ b'.http10 = b.version ∧
          b'.request = { b with http10 := b.version, host := host }.compose target := by
  have hport : ∀ p ∈ some (Decimal.natText n), slash ∉ p := by
    intro p hp hmem
    cases hp
    exact absurd ((Decimal.isNat_natText n).digits slash hmem) (by decide)
  let u : Url := ⟨bytes "http://", host, some (Decimal.natText n), target, by decide, hslash,
    hcolon, hport, htarget, hlen⟩
  have hfits : u.Fits := by
    refine ⟨hhost, fun p hp => ?_⟩
    cases hp
    exact Nat.lt_succ_of_le ((Decimal.length_natText_le_iff (by decide)).mpr hn.2)
  have hnumber : u.portNumber b.proxyport = n := by
    have hne : atoi (Decimal.natText n) ≠ 0 := by
      rw [atoi_natText]
      omega
    show (if atoi (Decimal.natText n) = 0 then 80 else atoi (Decimal.natText n)) = _
    rw [if_neg hne, atoi_natText]
  refine ⟨b.built u, ?_, rfl, hnumber, rfl, rfl⟩
  exact build_request_fits hproxy hfits

theorem Globals.build_request_written_local :
    ∃ b', Globals.new.build_request
        (bytes "http://" ++ (bytes "localhost" ++ (colon :: Decimal.natText 8080 ++ bytes "/a?b"))) =
          .ok b' ∧ b'.host = bytes "localhost" ∧ b'.proxyport = (8080 : Nat) ∧
        b'.http10 = Globals.new.version ∧
          b'.request = { Globals.new with
            http10 := Globals.new.version
            host := bytes "localhost" }.compose (bytes "/a?b") :=
  build_request_written rfl (by decide) (by decide) (by decide) (by decide) (by decide)
    (by decide +kernel)

end WebBench

end TinyWS
