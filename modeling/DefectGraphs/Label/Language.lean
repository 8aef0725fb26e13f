import DefectGraphs.Failure

/-!
The source languages that graphs are exported from, told apart by the extension of the source file.
-/

namespace DefectGraphs.Label

inductive Language where
  | php
  | cSharp
  | java
  | c
  | cpp
  deriving DecidableEq, Repr, Hashable

namespace Language

def all : List Language := [.php, .cSharp, .java, .c, .cpp]

def extension : Language → String
  | .php => "php"
  | .cSharp => "cs"
  | .java => "java"
  | .c => "c"
  | .cpp => "cpp"

def ofExtension? (extension : String) : Option Language :=
  all.find? fun language => language.extension == extension

theorem ofExtension?_extension (language : Language) :
    ofExtension? language.extension = some language := by
  cases language <;> decide

def name : Language → String
  | .php => "PHP"
  | .cSharp => "C#"
  | .java => "Java"
  | .c => "C"
  | .cpp => "C++"

def ofPath (path : Files.Path) : Except Failure Language :=
  match path.extension.bind ofExtension? with
  | some language => .ok language
  | none => .error (.unknownLanguage path)

end Language

end DefectGraphs.Label
