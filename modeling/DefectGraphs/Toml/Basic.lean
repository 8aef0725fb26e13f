/-!
TOML values, and the rules by which keys and headers fill a table. A key or a header may add to what
is there, but it may neither replace anything nor reopen a table that is complete.
-/

namespace DefectGraphs

namespace Toml

/-- How a table came to be. -/
inductive Origin where
  /-- It has a header of its own. -/
  | header
  /-- A header of a table below it passed through it. -/
  | passage
  /-- It is a part of a dotted key. -/
  | dotted
  /-- It is written in braces, and complete. -/
  | inline
  deriving DecidableEq, Repr

end Toml

/-- A TOML value. Numbers that are not whole, dates and times are told apart no further. -/
inductive Toml where
  | text (content : String)
  | integer (value : Int)
  | bool (value : Bool)
  | other
  | array (items : List Toml)
  | table (origin : Toml.Origin) (entries : List (String × Toml))
  /-- The tables of an array that is made by headers. -/
  | tables (elements : List (List (String × Toml)))

namespace Toml

abbrev Entries := List (String × Toml)

/-- Entries with one of them replaced, or added when there is none with its key. -/
def setEntry (key : String) (value : Toml) : Entries → Entries
  | [] => [(key, value)]
  | (name, old) :: rest =>
    if name = key then (name, value) :: rest else (name, old) :: setEntry key value rest

/-- Whether a dotted key may lead through a table to its last part or, when more parts follow, to a
table below. -/
private def mayAdd (origin : Origin) (isLast : Bool) : Bool :=
  origin = .dotted || (origin = .passage && !isLast)

/-- Adds a value under a dotted key. -/
def assign (value : Toml) (entries : Entries) : List String → Option Entries
  | [] => none
  | [key] => if (entries.lookup key).isSome then none else some (entries ++ [(key, value)])
  | key :: next :: rest =>
    match entries.lookup key with
    | none =>
      (assign value [] (next :: rest)).map fun below => setEntry key (.table .dotted below) entries
    | some (.table origin below) =>
      if mayAdd origin rest.isEmpty then
        (assign value below (next :: rest)).map fun below =>
          setEntry key (.table origin below) entries
      else none
    | some (.tables elements) =>
      if rest.isEmpty then none
      else
        (assign value (elements.getLast?.getD []) (next :: rest)).map fun below =>
          setEntry key (.tables (elements.dropLast ++ [below])) entries
    | some _ => none

/-- Changes the entries of the table at a path. Tables that are missing on the way are made; of an
array of tables the last one is meant. -/
def within (change : Entries → Option Entries) (entries : Entries) :
    List String → Option Entries
  | [] => change entries
  | key :: rest =>
    match entries.lookup key with
    | none => (within change [] rest).map fun below => setEntry key (.table .passage below) entries
    | some (.table .inline _) => none
    | some (.table origin below) =>
      (within change below rest).map fun below => setEntry key (.table origin below) entries
    | some (.tables elements) =>
      (within change (elements.getLast?.getD []) rest).map fun below =>
        setEntry key (.tables (elements.dropLast ++ [below])) entries
    | some _ => none

def openTable (key : String) (entries : Entries) : Option Entries :=
  match entries.lookup key with
  | none => some (setEntry key (.table .header []) entries)
  | some (.table .passage below) => some (setEntry key (.table .header below) entries)
  | some _ => none

def openElement (key : String) (entries : Entries) : Option Entries :=
  match entries.lookup key with
  | none => some (setEntry key (.tables [[]]) entries)
  | some (.tables elements) => some (setEntry key (.tables (elements ++ [[]])) entries)
  | some _ => none

end Toml

end DefectGraphs
