import CallTrace.Text.Blank
import CallTrace.Text.Cut
import CallTrace.Text.Decimal
import CallTrace.Text.Quoted

/-!
# Endpoint

The place on the network to which batches are posted. Reading one from a URL is permissive: the
scheme may be missing, and a port that is missing or no number becomes the default. Only the host
is needed.
-/

namespace CallTrace

open Text

/-- The port of an endpoint that names none. -/
def defaultPort : UInt16 := 80

/-- A host, a port, and the target of the requests sent there. -/
structure Endpoint where
  host : String
  port : UInt16
  /-- Starts with a slash, and holds the query if there is one. -/
  target : String
deriving DecidableEq, Repr

/-- Why a URL names no endpoint. -/
inductive EndpointError where
  | emptyHost (url : String)
deriving DecidableEq, Repr

/-- The wording of a refusal. -/
def EndpointError.message : EndpointError → String
  | emptyHost url => "Endpoint has no host: " ++ quoted url

namespace Endpoint

/-- What separates a scheme from the rest of a URL. -/
def schemeMark : List Char := [':', '/', '/']

/-- A URL without its scheme. -/
def dropScheme (url : List Char) : List Char :=
  match cutAt? schemeMark url with
  | some (_, rest) => rest
  | none => url

/-- The authority and the target of what follows the scheme. -/
def splitTarget (rest : List Char) : List Char × List Char :=
  let authority := rest.takeWhile (· != '/')
  let target := rest.dropWhile (· != '/')
  (authority, if target.isEmpty then ['/'] else target)

/-- The host and the text of the port, if there is one. A host with colons stands in brackets. -/
def splitAuthority (authority : List Char) : List Char × Option (List Char) :=
  match (afterHead? ['['] authority).bind (cutAt? [']']) with
  | some (host, after) => (host, afterHead? [':'] after)
  | none =>
    match cutAtLast? ':' authority with
    | some (host, port) => (host, some port)
    | none => (authority, none)

/-- The port that a text names, or else the default. -/
def readPort (text : Option (List Char)) : UInt16 :=
  match text.bind (Decimal.readBelow? 65536) with
  | some port => UInt16.ofNat port
  | none => defaultPort

/-- Reads a URL. -/
def ofUrl (url : String) : Except EndpointError Endpoint :=
  let url := trim url.toList
  let (authority, target) := splitTarget (dropScheme url)
  let (host, port) := splitAuthority authority
  if host.isEmpty then .error (.emptyHost (String.ofList url))
  else .ok ⟨String.ofList host, readPort port, String.ofList target⟩

/-- The host as it stands in a URL, in brackets if it has a colon. -/
def hostText (endpoint : Endpoint) : String :=
  if endpoint.host.toList.contains ':' then "[" ++ endpoint.host ++ "]" else endpoint.host

/-- The decimal text of the port. -/
def portText (endpoint : Endpoint) : String :=
  String.ofList (Decimal.ofNat endpoint.port.toNat)

/-- Host and port, as the system writes an address. -/
def address (endpoint : Endpoint) : String :=
  endpoint.hostText ++ ":" ++ endpoint.portText

/-- The value of the `Host` header, which leaves out the default port. -/
def hostHeader (endpoint : Endpoint) : String :=
  if endpoint.port = defaultPort then endpoint.hostText else endpoint.address

/-- The URL of the endpoint. -/
def toUrl (endpoint : Endpoint) : String :=
  "http://" ++ endpoint.address ++ endpoint.target

end Endpoint

end CallTrace
