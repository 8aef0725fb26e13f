import DefectGraphs.Files.Path
import DefectGraphs.Files.Fault
import DefectGraphs.Text.Quoted

/-!
What can go wrong while graphs are read, embedded, split and batched. A failure is its cause; the
wording is given by `Failure.message` alone.
-/

namespace DefectGraphs

open Files

inductive SettingsError where
  | overrideSyntax
  | overrideNotObject
  | unknownParameter (name : String)
  | overrideValues
  | fileValues (path : Path)
  | notPositive (name : String)
  | tieOutOfRange (index relations : Nat)
  | tooFewSplits (splits : Nat)
  deriving DecidableEq, Repr

/-- Fewest splits for which the validation share of the files outside the test fold is not all. -/
def minSplits : Nat := 3

def SettingsError.message : SettingsError → String
  | .overrideSyntax => "override is not valid JSON"
  | .overrideNotObject => "override must be a JSON object"
  | .unknownParameter name => "unknown parameter `" ++ name ++ "`"
  | .overrideValues => "override has a value of the wrong kind"
  | .fileValues path => path ++ ": not a table of known values"
  | .notPositive name => name ++ " must be at least 1"
  | .tieOutOfRange index relations =>
    s!"tied edge type {index} out of range for {relations} forward edge types"
  | .tooFewSplits splits =>
    s!"a k-fold split with validation needs at least {minSplits} splits, got {splits}"

inductive Failure where
  | io (path : Path) (fault : Fault)
  | listing (directory : Path) (fault : Fault)
  | malformedGraph (path : Path)
  | missingEdgeList (path : Path) (key : String)
  | missingManifest (path : Path)
  | malformedLine (number : Nat) (content : String)
  | unknownFold (name : String)
  | foldNotLoaded (name : String)
  | missingCorpus (path : Path)
  | emptyCorpus (path : Path)
  | emptyVocabulary (minCount : Nat)
  | unknownLanguage (path : Path)
  | unknownCategory (cwe : Nat) (path : Path)
  | missingCategory (path : Path)
  | unreadableModel (path : Path)
  | settings (error : SettingsError)
  deriving DecidableEq, Repr

def Failure.message : Failure → String
  | .io path fault => s!"I/O error on {path}: {fault.message}"
  | .listing directory fault =>
    s!"I/O error on {directory}: IO error for operation on {directory}: {fault.message}"
  | .malformedGraph path => s!"Malformed graph description {path}"
  | .missingEdgeList path key => "Graph " ++ path ++ " has no `" ++ key ++ "` edge list"
  | .missingManifest path => s!"Split manifest not found at {path}"
  | .malformedLine number content =>
    "Malformed split manifest line " ++ toString number ++ ": " ++ Text.quote content
  | .unknownFold name => s!"Unknown fold name: {name}"
  | .foldNotLoaded name => s!"Fold {name} has not been loaded"
  | .missingCorpus path => s!"Corpus directory not found: {path}"
  | .emptyCorpus path => s!"Corpus at {path} contains no usable node descriptors"
  | .emptyVocabulary minCount =>
    s!"No descriptor occurs at least {minCount} times; vocabulary is empty"
  | .unknownLanguage path => s!"Unknown source language extension in {path}"
  | .unknownCategory cwe path => s!"CWE-{cwe} in {path} is not a known defect category"
  | .missingCategory path => s!"Unsafe sample {path} has no CWE"
  | .unreadableModel path => s!"Failed to read or write token model {path}"
  | .settings error => "Invalid configuration: " ++ error.message

end DefectGraphs
