import DefectGraphs.Text.Blank

/-!
The text that a node is embedded by: its kind and its source text, up to blanks.
-/

namespace DefectGraphs.Token

/-- A colon stands between the kind without its blank ends and the words of the text, which one
space divides from each other. -/
def descriptor (kind text : String) : String :=
  Text.trim kind ++ ":" ++ " ".intercalate (Text.words text)

/-- Reads a kind and a text off a looked-up text, at its first colon. -/
def splitLookup (lookup : String) : String × String :=
  let kind := lookup.toList.takeWhile (· != ':')
  (String.ofList kind, String.ofList (lookup.toList.drop (kind.length + 1)))

end DefectGraphs.Token
