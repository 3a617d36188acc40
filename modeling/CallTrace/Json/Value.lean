import CallTrace.Json.Token

/-!
# JSON values

A value is read from its tokens with a stack of the arrays and objects that are still open, so
there is no bound on how deep they lie in one another. Only the outer layer reads values, for the
manifests of packages.
-/

namespace CallTrace

/-- A value. Of numbers it is only known that they are numbers, and a string or a key has a text
only if it makes up one. -/
inductive Json where
  | null
  | bool (value : Bool)
  | number
  | string (text : Option String)
  | array (items : List Json)
  | object (members : List (Option String × Json))

namespace Json

/-- An array or object that is still open, with what it holds so far, the last item first. -/
inductive Frame where
  | array (items : List Json)
  | object (members : List (Option String × Json))
  /-- An object after a key and a colon. -/
  | member (members : List (Option String × Json)) (key : Option String)

/-- What is read next. -/
inductive Mode where
  | value
  /-- A first item, or the end of the array. -/
  | firstItem
  /-- A first key, or the end of the object. -/
  | firstKey
  | key
  | colon (key : Option String)
  /-- A comma or an end, after a value. -/
  | after (value : Json)

/-- Where reading goes on after a token that starts a value. -/
def startValue (stack : List Frame) : Token → Option (Mode × List Frame)
  | .null => some (.after .null, stack)
  | .bool value => some (.after (.bool value), stack)
  | .number => some (.after .number, stack)
  | .string text => some (.after (.string text), stack)
  | .openBracket => some (.firstItem, .array [] :: stack)
  | .openBrace => some (.firstKey, .object [] :: stack)
  | _ => none

/-- Where reading goes on after a token. -/
def advance : Mode → List Frame → Token → Option (Mode × List Frame)
  | .value, stack, token => startValue stack token
  | .firstItem, .array [] :: stack, .closeBracket => some (.after (.array []), stack)
  | .firstItem, stack, token => startValue stack token
  | .firstKey, .object [] :: stack, .closeBrace => some (.after (.object []), stack)
  | .firstKey, stack, .string key => some (.colon key, stack)
  | .key, stack, .string key => some (.colon key, stack)
  | .colon key, .object members :: stack, .colon => some (.value, .member members key :: stack)
  | .after value, .array items :: stack, .comma => some (.value, .array (value :: items) :: stack)
  | .after value, .array items :: stack, .closeBracket =>
    some (.after (.array (value :: items).reverse), stack)
  | .after value, .member members key :: stack, .comma =>
    some (.key, .object ((key, value) :: members) :: stack)
  | .after value, .member members key :: stack, .closeBrace =>
    some (.after (.object ((key, value) :: members).reverse), stack)
  | _, _, _ => none

/-- Reads tokens to their end, where one value has to be complete. -/
def run : Mode → List Frame → List Token → Option Json
  | .after value, [], [] => some value
  | _, _, [] => none
  | mode, stack, token :: rest =>
    match advance mode stack token with
    | some (mode, stack) => run mode stack rest
    | none => none

/-- The value that a text denotes. -/
def ofText? (text : List Char) : Option Json :=
  (tokens? text).bind (run .value [])

end Json

end CallTrace
