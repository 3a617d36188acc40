import CallTrace.Endpoint
import CallTrace.Text.Utf8

/-!
# Request

A batch is posted as the body of one request, whose head says how long the body is and that the
connection closes after it.
-/

namespace CallTrace.Request

/-- How a line of the head ends. -/
def lineEnd : List Char := ['\r', '\n']

/-- The name and version by which requests introduce their sender. -/
def userAgent : String := "cgtrace/0.1.0"

/-- The lines of the head, for a body of the given length. -/
def headLines (endpoint : Endpoint) (length : Nat) : List (List Char) :=
  ["POST ".toList ++ endpoint.target.toList ++ " HTTP/1.1".toList,
    "Host: ".toList ++ endpoint.hostHeader.toList,
    "User-Agent: ".toList ++ userAgent.toList,
    "Content-Type: text/plain".toList,
    "Content-Length: ".toList ++ Decimal.ofNat length,
    "Connection: close".toList]

/-- The head with the empty line that ends it. -/
def head (endpoint : Endpoint) (length : Nat) : List Char :=
  (headLines endpoint length).flatMap (· ++ lineEnd) ++ lineEnd

/-- The request that posts a body. -/
def post (endpoint : Endpoint) (body : Bytes) : Bytes :=
  Utf8.encode (head endpoint body.length) ++ body

end CallTrace.Request
