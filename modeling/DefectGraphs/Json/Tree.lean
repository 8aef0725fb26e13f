import DefectGraphs.Json.Token

/-!
JSON texts as trees. The reader goes over the tokens once, with the arrays and objects that are
still open on a stack, so its recursion is on the tokens whatever the nesting.
-/

namespace DefectGraphs

/-- A JSON value. Members of an object stand in the order of the text, repeated keys included. -/
inductive Json where
  | null
  | bool (value : Bool)
  | number (value : Json.Number)
  | text (content : Option String)
  | array (items : List Json)
  | object (members : List (Option String × Json))

namespace Json

abbrev Member := Option String × Json

/-- An array or object that is still open, with what was read of it, the last first. -/
private inductive Frame where
  | array (before : List Json)
  | object (before : List Member) (key : Option String)

private inductive State where
  | value (stack : List Frame)
  | firstItem (stack : List Frame)
  | firstKey (stack : List Frame)
  | key (before : List Member) (stack : List Frame)
  | colon (before : List Member) (key : Option String) (stack : List Frame)
  | complete (value : Json) (stack : List Frame)

private def start (stack : List Frame) : Token → Option State
  | .null => some (.complete .null stack)
  | .bool value => some (.complete (.bool value) stack)
  | .number value => some (.complete (.number value) stack)
  | .text content => some (.complete (.text content) stack)
  | .openArray => some (.firstItem stack)
  | .openObject => some (.firstKey stack)
  | _ => none

private def step : State → Token → Option State
  | .value stack, token => start stack token
  | .firstItem stack, .closeArray => some (.complete (.array []) stack)
  | .firstItem stack, token => start (.array [] :: stack) token
  | .firstKey stack, .closeObject => some (.complete (.object []) stack)
  | .firstKey stack, .text key => some (.colon [] key stack)
  | .key before stack, .text key => some (.colon before key stack)
  | .colon before key stack, .colon => some (.value (.object before key :: stack))
  | .complete value (.array before :: stack), .comma =>
    some (.value (.array (value :: before) :: stack))
  | .complete value (.array before :: stack), .closeArray =>
    some (.complete (.array (value :: before).reverse) stack)
  | .complete value (.object before key :: stack), .comma =>
    some (.key ((key, value) :: before) stack)
  | .complete value (.object before key :: stack), .closeObject =>
    some (.complete (.object ((key, value) :: before).reverse) stack)
  | _, _ => none

private def run : State → List Token → Option State
  | state, [] => some state
  | state, token :: rest => (step state token).bind fun next => run next rest

def ofTokens? (tokens : List Token) : Option Json :=
  match run (.value []) tokens with
  | some (.complete value []) => some value
  | _ => none

/-- Reads one value with nothing but space around it. Unread parts may hold strings without a text
and numbers of any size. -/
def parse? (text : String) : Option Json :=
  (Token.scan text).bind ofTokens?

private def isStrict : Token → Bool
  | .text none => false
  | .number value => !value.overflows
  | _ => true

/-- As `parse?`, but every string must have a text and every number must fit a double, and fewer
than 128 arrays and objects may be open at once. -/
def parseStrict? (text : String) : Option Json :=
  (Token.scan text).bind fun tokens =>
    if tokens.all isStrict && Token.nesting tokens < 128 then ofTokens? tokens else none

end Json

end DefectGraphs
