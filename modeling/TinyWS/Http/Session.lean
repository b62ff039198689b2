import TinyWS.Framework.Backlog
import TinyWS.Http.Answered
import TinyWS.Http.Termination
import TinyWS.Net.OutputStream

/-! # A Session

    A connection of the HTTP server from both ends: the chunks that arrive
    and the write events in between.

    Requests that arrive together are answered one a read event, so the
    server is a counter with one clerk: which requests are answered after
    any run depends only on how many were complete after each read.  What
    the client gets is another matter: a response that finds the output
    buffer in use is dropped as a whole. -/

namespace TinyWS

/-- An event of the socket. -/
inductive SocketEvent where
  | read (r : Read)
  | write (w : WriteResult)

namespace HttpConnection

/-- `TcpConnection::handleWrite`. -/
def handleWrite (h : HttpConnection) (w : WriteResult) : HttpConnection :=
  if h.fault.isSome then h else { h with toEndpoint := h.toEndpoint.handleWrite w }

/-- One event. -/
def handleEvent (httpCallback : HttpCallback) (h : HttpConnection) :
    SocketEvent → HttpConnection
  | .read r => handleRead httpCallback h r
  | .write w => h.handleWrite w

end HttpConnection

/-- The events of one connection; `readFd` returned `n > 0`. -/
def httpSession (httpCallback : HttpCallback) : Machine HttpConnection SocketEvent where
  guard _
    | .read r => r.chunk ≠ []
    | .write _ => True
  next := HttpConnection.handleEvent httpCallback

namespace HttpConnection

/-- The bytes that arrive with an event. -/
def chunkOf : SocketEvent → Bytes
  | .read r => r.chunk
  | .write _ => []

/-- How many requests are complete after each read, when `n` bytes were
    there before. -/
def arrivals (rs : List RequestText) : Nat → List SocketEvent → List Nat
  | _, [] => []
  | n, .read r :: ls =>
      (completeIn rs (n + r.chunk.length)).length :: arrivals rs (n + r.chunk.length) ls
  | n, .write _ :: ls => arrivals rs n ls

/-! ## The clerk -/

/-- Some requests were answered, and the parser is reading what comes
    behind them; more complete requests may lie there. -/
structure Behind (httpCallback : HttpCallback) (rs : List RequestText) (h : HttpConnection)
    (ls : List SocketEvent) (answered : Nat) : Prop where
  fault : h.fault = none
  state_ : h.state_ = .kConnected
  position : ∃ done todo part, rs = done ++ todo ∧ done.length = answered ∧
    h.received = streamOf done ++ part ∧ h.context_.Reading h.inputBuffer_.toString part ∧
    h.handled.map (fun p => p.1.untimed) = done.map (fun r => r.toRequest 0)
  sent : h.sent = responses httpCallback (h.handled.map Prod.fst)
  /-- What is still to come belongs to the stream. -/
  upcoming : h.received ++ ls.flatMap chunkOf <+: streamOf rs

section Event

variable {httpCallback : HttpCallback} {rs : List RequestText} {h : HttpConnection} {r : Read}
  {ls : List SocketEvent} {answered : Nat}

/-- **A read** answers one more request, if one more is complete. -/
theorem Behind.read (hopen : ∀ q ∈ rs, ¬ AsksToClose httpCallback q)
    (hbehind : Behind httpCallback rs h (.read r :: ls) answered) :
    (handleRead httpCallback h r).received = h.received ++ r.chunk ∧
      Behind httpCallback rs (handleRead httpCallback h r) ls
        (min (answered + 1) (completeIn rs (h.received.length + r.chunk.length)).length) := by
  obtain ⟨done, todo, part, hrs, hlen, hrec, hreading, hhandled⟩ := hbehind.position
  have hupcoming : (h.received ++ r.chunk) ++ ls.flatMap chunkOf <+: streamOf rs := by
    simpa [chunkOf, List.append_assoc] using hbehind.upcoming
  have hpart : part ++ r.chunk <+: streamOf todo := by
    have hpre := (List.prefix_append _ _).trans hupcoming
    rw [hrs, streamOf_append, hrec, List.append_assoc] at hpre
    exact (List.prefix_append_right_inj _).mp hpre
  have hcount : completeIn rs (h.received.length + r.chunk.length) =
      done ++ completeIn todo (part ++ r.chunk).length := by
    rw [hrs, hrec, List.length_append, Nat.add_assoc, ← List.length_append, completeIn_append]
  obtain ⟨t, hfeed⟩ := hreading.feed_append r.receiveTime r.chunk
  change h.context_.feed r.receiveTime (h.pending r) = _ at hfeed
  rw [hcount, List.length_append, hlen]
  by_cases hmore : completeIn todo (part ++ r.chunk).length = []
  · -- the parser waits for more
    obtain ⟨ctx, rest, hctx, hgot⟩ := feed_incomplete hpart hmore t
    rw [hctx] at hfeed
    obtain ⟨buffer, hrest, heq⟩ :=
      handleRead_more httpCallback r hbehind.fault hreading.expecting hfeed hgot
    have hsame : min (answered + 1) (answered + (completeIn todo (part ++ r.chunk).length).length) =
        answered := by
      rw [hmore, List.length_nil]
      omega
    rw [heq, hsame]
    refine ⟨rfl, hbehind.fault, hbehind.state_,
      ⟨done, todo, part ++ r.chunk, hrs, hlen, ?_, ?_, hhandled⟩, hbehind.sent, hupcoming⟩
    · show h.received ++ r.chunk = _
      rw [hrec, List.append_assoc]
    · show ctx.Reading buffer.toString _
      rw [hrest]
      exact HttpContext.reading_of_feed hctx hgot
  · -- the next request is answered, whatever lies behind it
    obtain ⟨q, todo', rest, htodo, hrest, hcomplete⟩ := exists_complete hpart hmore
    rw [← hrest, HttpContext.feed_request] at hfeed
    have hclose : (respond httpCallback h.handled.length (q.toRequest t)).closeConnection_ =
        false := by
      by_contra hc
      exact hopen q (by rw [hrs, htodo]; simp) ⟨_, t, by simpa using hc⟩
    obtain ⟨h', heq, hf', hs', hc', hb', hrec', hhand', hsent'⟩ :=
      handleRead_answers r hbehind.fault hbehind.state_ hreading.expecting hfeed rfl hclose
    have hone : min (answered + 1) (answered + (completeIn todo (part ++ r.chunk).length).length) =
        answered + 1 := by
      rw [hcomplete, List.length_cons]
      omega
    rw [heq, hone]
    refine ⟨hrec', hf', hs', ⟨done ++ [q], todo', rest, ?_, ?_, ?_, ?_, ?_⟩, ?_, ?_⟩
    · rw [hrs, htodo, List.append_assoc]
      rfl
    · rw [List.length_append, hlen, List.length_singleton]
    · rw [hrec', hrec, List.append_assoc, ← hrest]
      simp [streamOf]
    · rw [hc', hb']
      exact HttpContext.reading_new rest
    · rw [hhand', List.map_append, List.map_append, hhandled]
      rfl
    · rw [hsent', hbehind.sent, hhand', List.map_append, List.map_singleton, responses_append,
        List.length_map]
    · rw [hrec']
      exact hupcoming

theorem handleWrite_eq (hf : h.fault = none) (w : WriteResult) :
    h.handleWrite w = { h with toEndpoint := h.toEndpoint.handleWrite w } := by
  simp [handleWrite, hf]

theorem received_handleWrite (h : HttpConnection) (w : WriteResult) :
    (h.handleWrite w).received = h.received := by
  unfold handleWrite
  split
  · rfl
  · rfl

/-- **A write** changes nothing of this. -/
theorem Behind.write {w : WriteResult}
    (hbehind : Behind httpCallback rs h (.write w :: ls) answered) :
    Behind httpCallback rs (h.handleWrite w) ls answered := by
  have hsame := Endpoint.sameLife_handleWrite h.toEndpoint w
  rw [handleWrite_eq hbehind.fault]
  obtain ⟨done, todo, part, hrs, hlen, hrec, hreading, hhandled⟩ := hbehind.position
  refine ⟨hbehind.fault, hsame.state_.trans hbehind.state_,
    ⟨done, todo, part, hrs, hlen, hrec, ?_, hhandled⟩, hsame.sent.trans hbehind.sent,
    hbehind.upcoming⟩
  show h.context_.Reading (h.toEndpoint.handleWrite w).inputBuffer_.toString part
  rw [hsame.inputBuffer_]
  exact hreading

/-- **A run** is a day of the clerk. -/
theorem Behind.run (hopen : ∀ q ∈ rs, ¬ AsksToClose httpCallback q)
    (hbehind : Behind httpCallback rs h ls answered) :
    Behind httpCallback rs ((httpSession httpCallback).run h ls) []
      ((arrivals rs h.received.length ls).foldl (fun served come => min (served + 1) come)
        answered) := by
  induction ls generalizing h answered with
  | nil => exact hbehind
  | cons l ls ih =>
    cases l with
    -- the clerk serves once a read, whatever arrived with it
    | read r =>
      obtain ⟨hrec, hread⟩ := hbehind.read hopen
      have hnext := ih hread
      rw [hrec, List.length_append] at hnext
      exact hnext
    | write w =>
      have hnext := ih hbehind.write
      rw [received_handleWrite] at hnext
      exact hnext

end Event

theorem behind_established (httpCallback : HttpCallback) {rs : List RequestText}
    (name : String) (loop : LoopId) (self : ChannelPtr) (fd : Int) (writeComplete : Bool)
    (epoll : Epoll) {ls : List SocketEvent} (hls : ls.flatMap chunkOf <+: streamOf rs) :
    Behind httpCallback rs (established name loop self fd writeComplete epoll) ls 0 := by
  have hbuf : (established name loop self fd writeComplete epoll).inputBuffer_.toString = [] := by
    simp [established, Endpoint.established, Endpoint.connectionEstablished, Endpoint.setState,
      Endpoint.enableReading, Endpoint.notify, TcpConnection.new]
  refine ⟨rfl, rfl, ⟨[], rs, [], rfl, rfl, rfl, ?_, rfl⟩, rfl, hls⟩
  rw [hbuf]
  exact HttpContext.reading_new []

theorem length_handled (httpCallback : HttpCallback) (rs : List RequestText)
    (hopen : ∀ r ∈ rs, ¬ AsksToClose httpCallback r)
    (name : String) (loop : LoopId) (self : ChannelPtr) (fd : Int) (writeComplete : Bool)
    (epoll : Epoll) (ls : List SocketEvent) (hls : ls.flatMap chunkOf <+: streamOf rs) :
    ((httpSession httpCallback).run (established name loop self fd writeComplete epoll)
      ls).handled.length = Backlog.served (arrivals rs 0 ls) := by
  have hrun := (behind_established httpCallback name loop self fd writeComplete epoll hls).run hopen
  obtain ⟨done, todo, part, -, hlen, -, -, hhandled⟩ := hrun.position
  have hsame := congrArg List.length hhandled
  rw [List.length_map, List.length_map, hlen] at hsame
  exact hsame

/-- **Pipelining**: for every callback and every stream of well-formed
    requests none of which asks to close, cut into chunks in any way and
    with any write events in between, the requests answered are the first
    ones of the stream, in order; and the `n`th is among them exactly when
    there were `n` reads, and after every one of them enough requests were
    complete for one to be answered in each read that followed. -/
theorem httpSession_answers (httpCallback : HttpCallback) (rs : List RequestText)
    (hopen : ∀ r ∈ rs, ¬ AsksToClose httpCallback r)
    (name : String) (loop : LoopId) (self : ChannelPtr) (fd : Int) (writeComplete : Bool)
    (epoll : Epoll) (ls : List SocketEvent) (hls : ls.flatMap chunkOf <+: streamOf rs) :
    let h := (httpSession httpCallback).run
      (established name loop self fd writeComplete epoll) ls
    h.fault = none ∧
      h.handled.map (fun p => p.1.untimed) =
        (rs.take h.handled.length).map (fun r => r.toRequest 0) ∧
      h.sent = responses httpCallback (h.handled.map Prod.fst) ∧
      ∀ n, n ≤ h.handled.length ↔ n ≤ (arrivals rs 0 ls).length ∧
        ∀ i c, (arrivals rs 0 ls)[i]? = some c →
          n ≤ c + ((arrivals rs 0 ls).length - (i + 1)) := by
  intro h
  have hrun := (behind_established httpCallback name loop self fd writeComplete epoll hls).run hopen
  obtain ⟨done, todo, part, hrs, -, -, -, hhandled⟩ := hrun.position
  have hdone : h.handled.length = done.length := by
    have hsame := congrArg List.length hhandled
    rw [List.length_map, List.length_map] at hsame
    exact hsame
  refine ⟨hrun.fault, ?_, hrun.sent, fun n => ?_⟩
  · have htake : rs.take h.handled.length = done := by
      rw [hrs]
      exact List.take_left' hdone.symm
    rw [htake]
    exact hhandled
  · rw [length_handled httpCallback rs hopen name loop self fd writeComplete epoll ls hls]
    exact Backlog.le_served_iff _ n

/-- Two requests and a half arrive together, and then the rest. -/
theorem httpSession_answers_pipelined :
    let rs := [plainGet, plainGet, plainGet]
    let ls : List SocketEvent :=
      [.read ⟨plainGet.text ++ plainGet.text ++ bytes "GET / HT", 7, .wrote 9⟩, .write (.wrote 999),
        .read ⟨bytes "TP/1.1\r\n\r\n", 8, .wrote 999⟩]
    let h := (httpSession Main.httpCallback).run (established "c" 0 0 5 false Epoll.new) ls
    h.handled.map (fun p => p.1.untimed) =
        (rs.take h.handled.length).map (fun r => r.toRequest 0) ∧
      (2 ≤ h.handled.length ↔ 2 ≤ (arrivals rs 0 ls).length ∧
        ∀ i c, (arrivals rs 0 ls)[i]? = some c →
          2 ≤ c + ((arrivals rs 0 ls).length - (i + 1))) := by
  intro rs ls h
  have hall := httpSession_answers Main.httpCallback rs (by simp [rs, plainGet_open])
    "c" 0 0 5 false Epoll.new ls (by decide +kernel)
  exact ⟨hall.2.1, hall.2.2.2 2⟩

/-! ## Catching up -/

/-- How many reads there are. -/
def reads (ls : List SocketEvent) : Nat :=
  ls.countP fun
    | .read _ => true
    | .write _ => false

theorem length_completeIn_mono (rs : List RequestText) {n m : Nat} (h : n ≤ m) :
    (completeIn rs n).length ≤ (completeIn rs m).length := by
  induction rs generalizing n m with
  | nil => exact Nat.le_refl _
  | cons r rs ih =>
    simp only [completeIn]
    split
    · rw [if_pos (by omega), List.length_cons, List.length_cons]
      exact Nat.succ_le_succ (ih (by omega))
    · exact Nat.zero_le _

theorem length_read_cons (n : Nat) (r : Read) (ls : List SocketEvent) :
    n + ((SocketEvent.read r :: ls).flatMap chunkOf).length =
      n + r.chunk.length + (ls.flatMap chunkOf).length := by
  rw [List.flatMap_cons, List.length_append, Nat.add_assoc]
  rfl

theorem arrivals_append (rs : List RequestText) (n : Nat) (ls ks : List SocketEvent) :
    arrivals rs n (ls ++ ks) =
      arrivals rs n ls ++ arrivals rs (n + (ls.flatMap chunkOf).length) ks := by
  induction ls generalizing n with
  | nil => rfl
  | cons l ls ih =>
    cases l with
    | read r =>
      rw [length_read_cons]
      exact congrArg _ (ih _)
    | write w => exact ih n

/-- The counts lie between the first and the last. -/
theorem le_of_mem_arrivals (rs : List RequestText) {n c : Nat} {ls : List SocketEvent}
    (h : c ∈ arrivals rs n ls) :
    (completeIn rs n).length ≤ c ∧
      c ≤ (completeIn rs (n + (ls.flatMap chunkOf).length)).length := by
  induction ls generalizing n with
  | nil => cases h
  | cons l ls ih =>
    cases l with
    | read r =>
      rw [length_read_cons]
      rcases List.mem_cons.mp h with hhead | htail
      · rw [hhead]
        exact ⟨length_completeIn_mono rs (Nat.le_add_right _ _),
          length_completeIn_mono rs (Nat.le_add_right _ _)⟩
      · have hbounds := ih htail
        exact ⟨(length_completeIn_mono rs (Nat.le_add_right _ _)).trans hbounds.1, hbounds.2⟩
    | write w => exact ih h

theorem length_arrivals (rs : List RequestText) (n : Nat) (ls : List SocketEvent) :
    (arrivals rs n ls).length = reads ls := by
  induction ls generalizing n with
  | nil => rfl
  | cons l ls ih =>
    cases l with
    | read r =>
      rw [reads, List.countP_cons_of_pos rfl]
      exact congrArg (· + 1) (ih _)
    | write w =>
      rw [reads, List.countP_cons_of_neg (by simp)]
      exact ih n

/-- **Catching up**: while no further request is completed, every read
    answers one of those left behind, until none is. -/
theorem httpSession_catchesUp (httpCallback : HttpCallback) (rs : List RequestText)
    (hopen : ∀ r ∈ rs, ¬ AsksToClose httpCallback r)
    (name : String) (loop : LoopId) (self : ChannelPtr) (fd : Int) (writeComplete : Bool)
    (epoll : Epoll) (ls ks : List SocketEvent)
    (hls : (ls ++ ks).flatMap chunkOf <+: streamOf rs)
    (hnone : (completeIn rs ((ls ++ ks).flatMap chunkOf).length).length =
      (completeIn rs (ls.flatMap chunkOf).length).length) :
    let h₀ := established name loop self fd writeComplete epoll
    ((httpSession httpCallback).run h₀ (ls ++ ks)).handled.length =
      min (((httpSession httpCallback).run h₀ ls).handled.length + reads ks)
        (completeIn rs (ls.flatMap chunkOf).length).length := by
  intro h₀
  have hserved := length_handled httpCallback rs hopen name loop self fd writeComplete epoll
  have hpre : ls.flatMap chunkOf <+: streamOf rs := by
    rw [List.flatMap_append] at hls
    exact (List.prefix_append _ _).trans hls
  have hsame : arrivals rs (0 + (ls.flatMap chunkOf).length) ks =
      List.replicate (reads ks) (completeIn rs (ls.flatMap chunkOf).length).length := by
    -- no count can rise between the two equal ones
    rw [List.eq_replicate_iff]
    refine ⟨length_arrivals rs _ ks, fun c hc => ?_⟩
    have hbounds := le_of_mem_arrivals rs hc
    rw [Nat.zero_add, ← List.length_append, ← List.flatMap_append, hnone] at hbounds
    omega
  have hearlier : ∀ c ∈ arrivals rs 0 ls,
      c ≤ (completeIn rs (ls.flatMap chunkOf).length).length := by
    intro c hc
    have hbounds := (le_of_mem_arrivals rs hc).2
    rw [Nat.zero_add] at hbounds
    exact hbounds
  rw [hserved _ hls, hserved _ hpre, arrivals_append, hsame, Backlog.served_replicate hearlier]

/-- Two requests arrive together; the second one is answered when the
    client begins a third. -/
theorem httpSession_catchesUp_third :
    let ls : List SocketEvent := [.read ⟨plainGet.text ++ plainGet.text, 7, .wrote 999⟩]
    let ks : List SocketEvent := [.read ⟨bytes "GET", 8, .wrote 999⟩]
    let h₀ := established "c" 0 0 5 false Epoll.new
    ((httpSession Main.httpCallback).run h₀ (ls ++ ks)).handled.length =
      min (((httpSession Main.httpCallback).run h₀ ls).handled.length + reads ks)
        (completeIn [plainGet, plainGet, plainGet] (ls.flatMap chunkOf).length).length :=
  httpSession_catchesUp Main.httpCallback [plainGet, plainGet, plainGet] (by simp [plainGet_open])
    "c" 0 0 5 false Epoll.new _ _ (by decide +kernel) (by decide +kernel)

end HttpConnection

end TinyWS
