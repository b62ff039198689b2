import TinyWS.Net.Buffer
import Mathlib

/-! # HttpRequest

    The request a parser fills in, and its setters.  A header is looked
    up by its exact bytes; a header that comes twice keeps the last
    value. -/

namespace TinyWS

open Std

/-- `Timer::TimeType`, in microseconds. -/
abbrev TimeType : Type := Int

/-- The blank of a request line. -/
def space : UInt8 := 32

/-- Between a header's name and its value. -/
def colon : UInt8 := 58

/-- Between the path and the query of a target. -/
def question : UInt8 := 63

/-- `isspace` in the C locale. -/
def isspace (c : UInt8) : Bool := c == 32 || (9 ≤ c && c ≤ 13)

/-- `HttpRequest::Method`. -/
inductive Method where
  | kInvalid
  | kGet
  | kPost
  | kHead
  | kPut
  | kDelete
  deriving DecidableEq, Repr

/-- The name of a method. -/
def Method.name : Method → Bytes
  | .kGet => bytes "GET"
  | .kPost => bytes "POST"
  | .kHead => bytes "HEAD"
  | .kPut => bytes "PUT"
  | .kDelete => bytes "DELETE"
  | .kInvalid => bytes "UNKNOWN"

/-- How a parse can leave the program: the assertion of `setMethod`, or a
    loop without end. -/
inductive ParseFault where
  | setMethodAssert
  | spins
  deriving DecidableEq, Repr

/-- `class HttpRequest`. -/
structure HttpRequest where
  method_ : Method
  path_ : Bytes
  query_ : Bytes
  receiveTime_ : TimeType
  headers_ : ExtTreeMap Bytes Bytes compare
  deriving DecidableEq

namespace HttpRequest

/-- The constructor. -/
def new : HttpRequest where
  method_ := .kInvalid
  path_ := []
  query_ := []
  receiveTime_ := 0
  headers_ := ∅

/-- The method a name stands for. -/
def methodOf (m : Bytes) : Method :=
  if m = bytes "GET" then .kGet
  else if m = bytes "POST" then .kPost
  else if m = bytes "HEAD" then .kHead
  else if m = bytes "PUT" then .kPut
  else if m = bytes "DELETE" then .kDelete
  else .kInvalid

/-- `setMethod(start, end)`: whether the name is a method. -/
def setMethod (r : HttpRequest) (m : Bytes) : Except ParseFault (Bool × HttpRequest) :=
  if r.method_ = .kInvalid then
    .ok (methodOf m ≠ .kInvalid, { r with method_ := methodOf m })
  else
    .error .setMethodAssert

def methodString (r : HttpRequest) : Bytes := r.method_.name

def setPath (r : HttpRequest) (path : Bytes) : HttpRequest := { r with path_ := path }

def setQuery (r : HttpRequest) (query : Bytes) : HttpRequest := { r with query_ := query }

def setReceiveTime (r : HttpRequest) (time : TimeType) : HttpRequest :=
  { r with receiveTime_ := time }

/-- A header's value without the white space around it. -/
def trim (value : Bytes) : Bytes :=
  ((value.dropWhile isspace).reverse.dropWhile isspace).reverse

/-- `addHeader(start, colon, end)`: the name, and what follows the colon. -/
def addHeader (r : HttpRequest) (field rest : Bytes) : HttpRequest :=
  { r with headers_ := r.headers_.insert field (trim rest) }

/-- The empty string when there is no such header. -/
def getHeader (r : HttpRequest) (field : Bytes) : Bytes := (r.headers_[field]?).getD []

/-- The request without the time it came at. -/
def untimed (r : HttpRequest) : HttpRequest := r.setReceiveTime 0

end HttpRequest

end TinyWS
