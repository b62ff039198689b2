import TinyWS.Http.HttpRequest

/-! # HttpResponse

    The response a callback fills in, and its serialisation. -/

namespace TinyWS

open Std

/-- `HttpResponse::HttpStatusCode`. -/
inductive HttpStatusCode where
  | kUnknown
  | k200OK
  | k301MovedPermanently
  | k400BadRequest
  | k404NotFound
  deriving DecidableEq, Repr

/-- The value of the enumerator. -/
def HttpStatusCode.value : HttpStatusCode → Nat
  | .kUnknown => 0
  | .k200OK => 200
  | .k301MovedPermanently => 301
  | .k400BadRequest => 400
  | .k404NotFound => 404

/-- `class HttpResponse`. -/
structure HttpResponse where
  headers_ : ExtTreeMap Bytes Bytes compare
  statusCode_ : HttpStatusCode
  statusMessage_ : Bytes
  closeConnection_ : Bool
  body_ : Bytes

/-- `snprintf` into `char buf[32]` keeps 31 bytes. -/
def snprintf32 (text : Bytes) : Bytes := text.take 31

namespace HttpResponse

/-- The constructor. -/
def new (close : Bool) : HttpResponse where
  headers_ := ∅
  statusCode_ := .kUnknown
  statusMessage_ := []
  closeConnection_ := close
  body_ := []

def setStatusCode (r : HttpResponse) (code : HttpStatusCode) : HttpResponse :=
  { r with statusCode_ := code }

def setStatusMessage (r : HttpResponse) (message : Bytes) : HttpResponse :=
  { r with statusMessage_ := message }

def setCloseConnection (r : HttpResponse) (on : Bool) : HttpResponse :=
  { r with closeConnection_ := on }

def addHeader (r : HttpResponse) (key value : Bytes) : HttpResponse :=
  { r with headers_ := r.headers_.insert key value }

def setContentType (r : HttpResponse) (contentType : Bytes) : HttpResponse :=
  r.addHeader (bytes "Content-Type") contentType

def setBody (r : HttpResponse) (body : Bytes) : HttpResponse := { r with body_ := body }

def appendToBuffer (r : HttpResponse) (output : Buffer) : Buffer :=
  let output := output.append (snprintf32 (bytes ("HTTP/1.1 " ++ toString r.statusCode_.value ++ " ")))
  let output := output.append r.statusMessage_
  let output := output.append (bytes "\r\n")
  let output :=
    if r.closeConnection_ then
      output.append (bytes "Connection: close\r\n")
    else
      let output :=
        output.append (snprintf32 (bytes ("Content-Length: " ++ toString r.body_.length ++ "\r\n")))
      output.append (bytes "Connection: Keep-Alive\r\n")
  let output := r.headers_.toList.foldl (fun output header =>
    (((output.append header.1).append (bytes ": ")).append header.2).append (bytes "\r\n")) output
  let output := output.append (bytes "\r\n")
  output.append r.body_

end HttpResponse

end TinyWS
