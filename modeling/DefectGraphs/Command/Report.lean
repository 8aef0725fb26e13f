import DefectGraphs.Workspace

/-!
What commands print, and the complaint with which they fail.
-/

namespace DefectGraphs.Command

inductive Line where
  | text (content : String)
  | elapsed
  deriving DecidableEq, Repr

def Line.render (time : String) : Line → String
  | .text content => content
  | .elapsed => "  Time: " ++ time

def blankLine : Line := .text ""

/-- What a command was about when it failed, the widest first, and the failure, if it is one that
the library knows. -/
structure Complaint where
  contexts : List String
  failure : Option Failure
  deriving DecidableEq, Repr

def Complaint.message (complaint : Complaint) : String :=
  ": ".intercalate (complaint.contexts ++ (complaint.failure.map Failure.message).toList)

abbrev Job (α : Type) := ExceptT Complaint (StateM Workspace) α

namespace Job

def complain (contexts : List String) : Job α :=
  throw ⟨contexts, none⟩

/-- Work whose failure is reported within a context. -/
def within (context : String) (work : Work α) : Job α :=
  ExceptT.adapt (fun failure => ⟨[context], some failure⟩) work

def plain (work : Work α) : Job α :=
  ExceptT.adapt (fun failure => ⟨[], some failure⟩) work

def tree : Job Files.Tree := do
  return (← get).tree

end Job

end DefectGraphs.Command
