import DefectGraphs.Text.Numeral

/-!
The texts in TOML: spaces and comments between the values, strings in their four forms, and keys.
-/

namespace DefectGraphs.Toml

/-- A tab, or a character that is not a control character of ASCII. -/
def isPlain (c : Char) : Bool :=
  c = '\t' || (' ' ≤ c && c ≠ '\x7f')

def isSpace (c : Char) : Bool :=
  c = ' ' || c = '\t'

def skipSpace (chars : List Char) : List Char :=
  chars.dropWhile isSpace

/-- What follows a line end. -/
def afterLineEnd? : List Char → Option (List Char)
  | '\n' :: rest => some rest
  | '\r' :: '\n' :: rest => some rest
  | _ => none

def skipComment : List Char → List Char
  | '#' :: rest => rest.dropWhile isPlain
  | chars => chars

/-- What follows the rest of a line, which must be blank up to a comment. -/
def afterLine? (chars : List Char) : Option (List Char) :=
  match skipComment (skipSpace chars) with
  | [] => some []
  | rest => afterLineEnd? rest

/-- Skips blank lines, comments and spaces; there are at most `lines` lines. -/
def skipLines : Nat → List Char → List Char
  | 0, chars => skipSpace chars
  | lines + 1, chars =>
    match afterLineEnd? (skipComment (skipSpace chars)) with
    | some rest => skipLines lines rest
    | none => skipSpace chars

section Strings

private def escaped? : Char → Option Char
  | 'b' => some '\x08'
  | 't' => some '\t'
  | 'n' => some '\n'
  | 'f' => some '\x0c'
  | 'r' => some '\r'
  | '"' => some '"'
  | '\\' => some '\\'
  | _ => none

private def ofHex? (digits : List Char) : Option Char :=
  (Text.readHex 0 digits).bind fun code =>
    if code.isValidChar then some (Char.ofNat code) else none

private def finish (before rest : List Char) : String × List Char :=
  (String.ofList before.reverse, rest)

private def scanBasic (before : List Char) : List Char → Option (String × List Char)
  | [] => none
  | '"' :: rest => some (finish before rest)
  | '\\' :: 'u' :: a :: b :: c :: d :: rest =>
    (ofHex? [a, b, c, d]).bind fun char => scanBasic (char :: before) rest
  | '\\' :: 'U' :: a :: b :: c :: d :: e :: f :: g :: h :: rest =>
    (ofHex? [a, b, c, d, e, f, g, h]).bind fun char => scanBasic (char :: before) rest
  | '\\' :: c :: rest => (escaped? c).bind fun char => scanBasic (char :: before) rest
  | c :: rest => if isPlain c then scanBasic (c :: before) rest else none

private def scanLiteral (before : List Char) : List Char → Option (String × List Char)
  | [] => none
  | '\'' :: rest => some (finish before rest)
  | c :: rest => if isPlain c then scanLiteral (c :: before) rest else none

/-- Ends a string of several lines after three quotes; up to two more belong to the string. -/
private def finishLines (quote : Char) (before rest : List Char) : String × List Char :=
  let more := (rest.take 2).takeWhile (· = quote)
  finish (more ++ before) (rest.drop more.length)

/-- Whether a backslash before these characters hides a line end. -/
private def hidesLineEnd (chars : List Char) : Bool :=
  (afterLineEnd? (skipSpace chars)).isSome

/-- Reads a string of several lines; while `skipping`, blank characters are left out. -/
private def scanBasicLines (skipping : Bool) (before : List Char) :
    List Char → Option (String × List Char)
  | [] => none
  | '\r' :: '\n' :: rest =>
    scanBasicLines skipping (if skipping then before else '\n' :: before) rest
  | '\n' :: rest => scanBasicLines skipping (if skipping then before else '\n' :: before) rest
  | '"' :: '"' :: '"' :: rest => some (finishLines '"' before rest)
  | '\\' :: 'u' :: a :: b :: c :: d :: rest =>
    (ofHex? [a, b, c, d]).bind fun char => scanBasicLines false (char :: before) rest
  | '\\' :: 'U' :: a :: b :: c :: d :: e :: f :: g :: h :: rest =>
    (ofHex? [a, b, c, d, e, f, g, h]).bind fun char => scanBasicLines false (char :: before) rest
  | '\\' :: c :: rest =>
    match escaped? c with
    | some char => scanBasicLines false (char :: before) rest
    | none => if hidesLineEnd (c :: rest) then scanBasicLines true before (c :: rest) else none
  | c :: rest =>
    if skipping && isSpace c then scanBasicLines true before rest
    else if isPlain c then scanBasicLines false (c :: before) rest
    else none
  termination_by chars => chars.length

private def scanLiteralLines (before : List Char) : List Char → Option (String × List Char)
  | [] => none
  | '\r' :: '\n' :: rest => scanLiteralLines ('\n' :: before) rest
  | '\n' :: rest => scanLiteralLines ('\n' :: before) rest
  | '\'' :: '\'' :: '\'' :: rest => some (finishLines '\'' before rest)
  | c :: rest => if isPlain c then scanLiteralLines (c :: before) rest else none

/-- A line end right after the opening quotes is not part of the string. -/
private def dropLineEnd (chars : List Char) : List Char :=
  (afterLineEnd? chars).getD chars

def scanText : List Char → Option (String × List Char)
  | '"' :: '"' :: '"' :: rest => scanBasicLines false [] (dropLineEnd rest)
  | '\'' :: '\'' :: '\'' :: rest => scanLiteralLines [] (dropLineEnd rest)
  | '"' :: rest => scanBasic [] rest
  | '\'' :: rest => scanLiteral [] rest
  | _ => none

end Strings

section Keys

def isBare (c : Char) : Bool :=
  c.isAlphanum || c = '-' || c = '_'

private def scanPart : List Char → Option (String × List Char)
  | '"' :: rest => scanBasic [] rest
  | '\'' :: rest => scanLiteral [] rest
  | chars =>
    let (bare, rest) := chars.span isBare
    if bare.isEmpty then none else some (String.ofList bare, rest)

/-- Reads a key of at most `parts` parts, with a dot between any two of them. -/
private def scanParts : Nat → List Char → Option (List String × List Char)
  | 0, _ => none
  | parts + 1, chars => do
    let (part, rest) ← scanPart (skipSpace chars)
    match skipSpace rest with
    | '.' :: rest =>
      let (others, rest) ← scanParts parts rest
      return (part :: others, rest)
    | rest => return ([part], rest)

/-- A bound for the nesting of values, and for the parts of a key. -/
def depthLimit : Nat := 79

def scanKey (chars : List Char) : Option (List String × List Char) :=
  scanParts depthLimit chars

end Keys

end DefectGraphs.Toml
