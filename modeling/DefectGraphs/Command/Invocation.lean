import DefectGraphs.Command.Arguments
import DefectGraphs.Dataset

/-!
The commands and their flags, and the invocation that a command line stands for.
-/

namespace DefectGraphs.Command

open Files

inductive Display where
  | text
  | json
  deriving DecidableEq, Repr

inductive Action where
  | split (corpus manifest : Path) (splits seed : Nat)
  | embed (corpus : Path) (vocabulary : Option Path) (lookups : List String)
  | batches (corpus : Path) (vocabulary : Option Path) (manifest : Path) (split : Nat)
      (fold : String) (isShuffled : Bool) (display : Display)
  | inspect (file : Path) (vocabulary : Option Path)
  deriving DecidableEq, Repr

structure Invocation where
  logLevel : LogLevel
  settingsFile : Option Path
  overrides : Option String
  cache : Path
  action : Action
  deriving DecidableEq, Repr

def programName : String := "glice"

def programVersion : String := "0.3.0"

def cacheVariable : String := "GLICE_CACHE_DIR"

/-- The directory for caches of all programs, and the home directory. -/
def cachesVariable : String := "XDG_CACHE_HOME"

def homeVariable : String := "HOME"

/-- The cache directory where none is named: in the directory for caches, which is in the home
directory unless a variable says otherwise. -/
def defaultCache (environment : String → Option String) : Path :=
  let home := (environment homeVariable).filter (!·.isEmpty)
  let caches := (environment cachesVariable).filter Path.isAbsolute
  match caches.or (home.map (Path.join · ".cache")) with
  | some caches => caches.join programName
  | none => ".glice-cache"

def defaultSplits : Nat := 10

def defaultSeed : Nat := 42

section Levels

private def helpFlag : Flag where
  name := "help"
  short := some 'h'
  form := .help

def sharedFlags : List Flag :=
  [{ name := "log-level", form := .value (.choice (LogLevel.all.map LogLevel.name)) },
    { name := "config", form := .value .path },
    { name := "data-params-override", form := .value .text },
    { name := "cache-dir", form := .value .path, variableName := some cacheVariable }]

private def vocabularyFlag : Flag where
  name := "vocab-dir"
  form := .value .path

private def manifestFlag : Flag where
  name := "manifest"
  short := some 'm'
  form := .value .path

def operandName : String := "operand"

def commandNames : List String := ["split", "embed", "batches", "inspect"]

def ownFlags : String → List Flag
  | "split" =>
    [manifestFlag, { name := "n-splits", form := .value .word64 },
      { name := "seed", form := .value .word64 }]
  | "embed" => [vocabularyFlag, { name := "lookup", form := .values .text }]
  | "batches" =>
    [vocabularyFlag, manifestFlag,
      { name := "split-index", short := some 's', form := .value .word64 },
      { name := "fold", form := .value .text },
      { name := "shuffle", form := .switch },
      { name := "format", short := some 'f', form := .value (.choice ["text", "json"]) }]
  | "inspect" => [vocabularyFlag]
  | _ => []

def topLevel : Level where
  flags := sharedFlags ++ [helpFlag, { name := "version", short := some 'V', form := .version }]
  operand := none
  commands := commandNames ++ ["help"]

def commandLevel (command : String) : Level where
  flags := ownFlags command ++ sharedFlags ++ [helpFlag]
  operand := some { name := operandName, form := .value .path }
  commands := []

end Levels

/-- What the help command answers: it knows the commands and itself, but nothing below them. -/
def helpRejection : List String → Rejection
  | [] => .helpAsked
  | [topic] => if topLevel.commands.contains topic then .helpAsked else .commandUnknown
  | _ => .commandUnknown

section Build

def valueOf (reading : Reading) (name : String) : Option String :=
  (reading.given.filter (·.1 == name)).getLast?.map Prod.snd

private def numberOf (reading : Reading) (name : String) (otherwise : Nat) : Nat :=
  ((valueOf reading name).bind Text.word64?).getD otherwise

private def manifestOf (reading : Reading) : Path :=
  (valueOf reading manifestFlag.name).getD defaultManifest

def actionOf (command : String) (reading : Reading) : Action :=
  let operand := (valueOf reading operandName).getD ""
  let vocabulary := valueOf reading vocabularyFlag.name
  match command with
  | "split" =>
    .split operand (manifestOf reading) (numberOf reading "n-splits" defaultSplits)
      (numberOf reading "seed" defaultSeed)
  | "embed" =>
    .embed operand vocabulary ((reading.given.filter (·.1 == "lookup")).map Prod.snd)
  | "batches" =>
    .batches operand vocabulary (manifestOf reading) (numberOf reading "split-index" 0)
      ((valueOf reading "fold").getD "train") (reading.isGiven "shuffle")
      (if valueOf reading "format" = some "json" then .json else .text)
  | _ => .inspect operand vocabulary

end Build

def logLevelOf (name : Option String) : LogLevel :=
  (name.bind fun name => LogLevel.all.find? (·.name == name)).getD .info

/-- The value of a shared flag: one after the command's name counts more than one before it, and
both count more than the environment. -/
def sharedValue (top own : Reading) (name : String) : Option String :=
  ((valueOf own name).or (valueOf top name)).or (own.inherited.lookup name)

def Invocation.parse (environment : String → Option String) (arguments : List String) :
    Except Rejection Invocation := do
  let (top, command?) ← topLevel.read .empty arguments
  match command? with
  | none =>
    let top ← topLevel.finish environment top
    throw (if top.given.isEmpty && top.inherited.isEmpty then .nothingGiven else .commandMissing)
  | some (command, rest) =>
    if command = "help" then
      throw (helpRejection rest)
    let (own, _) ← (commandLevel command).read .empty rest
    let own ← (commandLevel command).finish environment own
    let top ← topLevel.finish environment top
    return {
      logLevel := logLevelOf (sharedValue top own "log-level")
      settingsFile := sharedValue top own "config"
      overrides := sharedValue top own "data-params-override"
      cache := (sharedValue top own "cache-dir").getD (defaultCache environment)
      action := actionOf command own }

end DefectGraphs.Command
