import TinyWS.Http.HttpContext
import TinyWS.Http.HttpResponse
import TinyWS.Net.TcpConnection

/-! # HttpServer

    The HTTP layer of one connection: `onMessage` parses what has arrived,
    answers at most one request, and rejects a bad one with a 400 and a
    shutdown.  It runs inside `TcpConnection::handleRead`, so a step of
    the machine `httpServer` is one read event. -/

namespace TinyWS

/-- `httpCallback_`.  The number of calls before this one stands for
    whatever the callback remembers. -/
abbrev HttpCallback : Type := Nat → HttpRequest → HttpResponse → HttpResponse

/-- `httpCallback` of `main.cpp`. -/
def Main.httpCallback : HttpCallback := fun _ request response =>
  let response := response.setBody (bytes "Hello World!")
  let response := response.setStatusCode .k200OK
  let response := response.setStatusMessage (bytes "OK")
  let response := response.addHeader (bytes "server") (bytes "tinyWS")
  response.addHeader (bytes "User-Agent") (request.getHeader (bytes "User-Agent"))

/-- A connection with the `HttpContext` that `onConnection` gave it. -/
structure HttpConnection extends Endpoint where
  context_ : HttpContext
  /-- The requests handed to `httpCallback_`, each with the state of the
      connection at the call. -/
  handled : List (HttpRequest × StateE)
  /-- Everything read so far. -/
  received : Bytes
  /-- How the program left the rails, if it did. -/
  fault : Option ParseFault

/-- One read event: what `readFd` delivers, when, and how the socket will
    answer a write made during the event. -/
structure Read where
  chunk : Bytes
  receiveTime : TimeType
  w : WriteResult

namespace HttpConnection

/-- A new connection after `onConnection`. -/
def established (name : String) (loop : LoopId) (self : ChannelPtr) (fd : Int)
    (writeComplete : Bool) (epoll : Epoll) : HttpConnection where
  toEndpoint := Endpoint.established name loop self fd writeComplete epoll
  context_ := HttpContext.new
  handled := []
  received := []
  fault := none

/-- `connection->send(message)`, in the loop thread. -/
def send (h : HttpConnection) (message : Bytes) (w : WriteResult) : HttpConnection :=
  { h with toEndpoint := h.toEndpoint.send true message w }

/-- `connection->shutdown()`, in the loop thread. -/
def shutdown (h : HttpConnection) : HttpConnection :=
  { h with toEndpoint := h.toEndpoint.shutdown true }

/-- The response to a request: `httpCallback_` works on one that already
    says whether the request asked to close. -/
def respond (httpCallback : HttpCallback) (earlier : Nat) (request : HttpRequest) :
    HttpResponse :=
  httpCallback earlier request
    (HttpResponse.new (request.getHeader (bytes "Connection") = bytes "close"))

def onRequest (httpCallback : HttpCallback) (h : HttpConnection) (request : HttpRequest)
    (w : WriteResult) : HttpConnection :=
  let response := respond httpCallback h.handled.length request
  let h := { h with handled := h.handled ++ [(request, h.state_)] }
  let h := h.send (response.appendToBuffer Buffer.new).toString w
  if response.closeConnection_ then h.shutdown else h

def badRequest : Bytes := bytes "HTTP/1.1 400 Bad Request\r\n\r\n"

def onMessage (httpCallback : HttpCallback) (h : HttpConnection) (receiveTime : TimeType)
    (w : WriteResult) : HttpConnection :=
  match h.context_.parseRequest h.inputBuffer_ receiveTime with
  | .error fault => { h with fault := some fault }
  | .ok (isOk, context, buffer) =>
      let h := { h with context_ := context, inputBuffer_ := buffer }
      let h := if isOk then h else (h.send badRequest w).shutdown
      if h.context_.gotAll then
        { onRequest httpCallback h h.context_.request_ w with context_ := HttpContext.new }
      else
        h

/-- The bytes `readFd` appended. -/
def deliver (h : HttpConnection) (chunk : Bytes) : HttpConnection :=
  { h with
    toEndpoint := h.toEndpoint.handleRead (.data chunk)
    received := h.received ++ chunk }

/-- `TcpConnection::handleRead` with `onMessage` as its message callback.
    A program that was aborted, or spins, reads nothing more. -/
def handleRead (httpCallback : HttpCallback) (h : HttpConnection) (r : Read) :
    HttpConnection :=
  if h.fault.isSome then h
  else (h.deliver r.chunk).onMessage httpCallback r.receiveTime r.w

end HttpConnection

/-- The read events of one connection; `readFd` returned `n > 0`. -/
def httpServer (httpCallback : HttpCallback) : Machine HttpConnection Read where
  guard _ r := r.chunk ≠ []
  next := HttpConnection.handleRead httpCallback

namespace HttpConnection

/-- `main.cpp` closes exactly when the request asked for it. -/
theorem respond_main (earlier : Nat) (request : HttpRequest) :
    (respond Main.httpCallback earlier request).closeConnection_ =
      decide (request.getHeader (bytes "Connection") = bytes "close") := rfl

/-! ## Sending from a callback -/

theorem send_connected {h : HttpConnection} (hs : h.state_ = .kConnected) (message : Bytes)
    (w : WriteResult) :
    (h.send message w).state_ = .kConnected ∧
      (h.send message w).sent = h.sent ++ [message] ∧
      (h.send message w).inputBuffer_ = h.inputBuffer_ := by
  have hsame := Endpoint.sameLife_sendInLoop
    { h.toEndpoint with sent := h.sent ++ [message] } message w
  have hsend : h.toEndpoint.send true message w =
      { h.toEndpoint with sent := h.sent ++ [message] }.sendInLoop message w := by
    simp [Endpoint.send, hs]
  simp only [send, hsend]
  exact ⟨hsame.state_.trans hs, hsame.sent, hsame.inputBuffer_⟩

theorem send_closed {h : HttpConnection} (hs : h.state_ ≠ .kConnected) (message : Bytes)
    (w : WriteResult) : h.send message w = h := by
  simp [send, Endpoint.send, hs]

theorem shutdown_fields (h : HttpConnection) :
    h.shutdown.state_ ≠ .kConnected ∧ h.shutdown.sent = h.sent ∧
      h.shutdown.inputBuffer_ = h.inputBuffer_ := by
  by_cases hs : h.state_ = .kConnected
  · -- `kDisconnecting`, whatever `shutdownInLoop` does
    have hsame := Endpoint.sameLife_shutdownInLoop (h.toEndpoint.setState .kDisconnecting)
    have hshut : h.toEndpoint.shutdown true =
        (h.toEndpoint.setState .kDisconnecting).shutdownInLoop := by
      simp [Endpoint.shutdown, hs]
    simp only [shutdown, hshut]
    refine ⟨?_, hsame.sent, hsame.inputBuffer_⟩
    rw [hsame.state_]
    simp [Endpoint.setState]
  · have hshut : h.toEndpoint.shutdown true = h.toEndpoint := by simp [Endpoint.shutdown, hs]
    simp [shutdown, hshut, hs]

theorem onRequest_frame (httpCallback : HttpCallback) (h : HttpConnection)
    (request : HttpRequest) (w : WriteResult) :
    (onRequest httpCallback h request w).fault = h.fault ∧
      (onRequest httpCallback h request w).received = h.received := by
  simp only [onRequest]
  split <;> exact ⟨rfl, rfl⟩

/-! ## What a read event does -/

section Read

variable (httpCallback : HttpCallback) {h : HttpConnection} (r : Read)

/-- Where the parser stands after the event, and what it left in the
    buffer. -/
def parsed (h : HttpConnection) (r : Read) (context : HttpContext) (buffer : Buffer) :
    HttpConnection :=
  { h.deliver r.chunk with context_ := context, inputBuffer_ := buffer }

/-- The text `onMessage` parses. -/
def pending (h : HttpConnection) (r : Read) : Bytes := h.inputBuffer_.toString ++ r.chunk

theorem deliver_toString : (h.deliver r.chunk).inputBuffer_.toString = h.pending r := by
  simp [deliver, Endpoint.handleRead, pending]

/-- The four outcomes of `parseRequest`, from what the parser makes of the
    text. -/
theorem handleRead_fault (hf : h.fault = none) (hc : h.context_.Expecting) {fault : ParseFault}
    (hfeed : h.context_.feed r.receiveTime (h.pending r) = .error fault) :
    handleRead httpCallback h r = { h.deliver r.chunk with fault := some fault } := by
  have hparse := HttpContext.parseRequest_eq hc (h.deliver r.chunk).inputBuffer_ r.receiveTime
  rw [deliver_toString, hfeed] at hparse
  simp only [handleRead, hf, onMessage]
  cases hp : (h.deliver r.chunk).context_.parseRequest (h.deliver r.chunk).inputBuffer_
      r.receiveTime with
  | error fault' =>
    have heq : h.context_.parseRequest (h.deliver r.chunk).inputBuffer_ r.receiveTime =
      .error fault' := hp
    rw [heq] at hparse
    cases hparse
    rfl
  | ok res =>
    have heq : h.context_.parseRequest (h.deliver r.chunk).inputBuffer_ r.receiveTime =
      .ok res := hp
    rw [heq] at hparse
    cases hparse

/-- A parse that returned, with what it left in the buffer. -/
theorem handleRead_ok (hf : h.fault = none) (hc : h.context_.Expecting) {isOk : Bool}
    {context : HttpContext} {rest : Bytes}
    (hfeed : h.context_.feed r.receiveTime (h.pending r) = .ok (isOk, context, rest)) :
    ∃ buffer : Buffer, buffer.toString = rest ∧
      handleRead httpCallback h r =
        (let h := parsed h r context buffer
         let h := if isOk then h else (h.send badRequest r.w).shutdown
         if h.context_.gotAll then
           { onRequest httpCallback h h.context_.request_ r.w with context_ := HttpContext.new }
         else h) := by
  rw [← deliver_toString] at hfeed
  obtain ⟨buffer, hparse, hrest⟩ := HttpContext.parseRequest_of_feed hc hfeed
  refine ⟨buffer, hrest, ?_⟩
  have hparse' : (h.deliver r.chunk).context_.parseRequest (h.deliver r.chunk).inputBuffer_
      r.receiveTime = .ok (isOk, context, buffer) := hparse
  simp only [handleRead, hf, onMessage, hparse']
  rfl

/-- More bytes are needed. -/
theorem handleRead_more (hf : h.fault = none) (hc : h.context_.Expecting)
    {context : HttpContext} {rest : Bytes}
    (hfeed : h.context_.feed r.receiveTime (h.pending r) = .ok (true, context, rest))
    (hopen : context.state_ ≠ .kGotAll) :
    ∃ buffer : Buffer, buffer.toString = rest ∧
      handleRead httpCallback h r = parsed h r context buffer := by
  obtain ⟨buffer, hrest, heq⟩ := handleRead_ok httpCallback r hf hc hfeed
  refine ⟨buffer, hrest, heq.trans ?_⟩
  simp [parsed, HttpContext.gotAll, hopen]

/-- A request is complete. -/
theorem handleRead_complete (hf : h.fault = none) (hc : h.context_.Expecting)
    {context : HttpContext} {rest : Bytes}
    (hfeed : h.context_.feed r.receiveTime (h.pending r) = .ok (true, context, rest))
    (hgot : context.state_ = .kGotAll) :
    ∃ buffer : Buffer, buffer.toString = rest ∧
      handleRead httpCallback h r =
        { onRequest httpCallback (parsed h r context buffer) context.request_ r.w with
          context_ := HttpContext.new } := by
  obtain ⟨buffer, hrest, heq⟩ := handleRead_ok httpCallback r hf hc hfeed
  refine ⟨buffer, hrest, heq.trans ?_⟩
  simp [parsed, HttpContext.gotAll, hgot]

/-- The request line is bad. -/
theorem handleRead_rejected (hf : h.fault = none) (hc : h.context_.Expecting)
    {context : HttpContext} {rest : Bytes}
    (hfeed : h.context_.feed r.receiveTime (h.pending r) = .ok (false, context, rest))
    (hopen : context.state_ ≠ .kGotAll) :
    ∃ buffer : Buffer, buffer.toString = rest ∧
      handleRead httpCallback h r = ((parsed h r context buffer).send badRequest r.w).shutdown := by
  obtain ⟨buffer, hrest, heq⟩ := handleRead_ok httpCallback r hf hc hfeed
  refine ⟨buffer, hrest, heq.trans ?_⟩
  simp [parsed, send, shutdown, HttpContext.gotAll, hopen]

end Read

end HttpConnection

end TinyWS
