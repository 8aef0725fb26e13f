import DefectGraphs.Text.Numeral

/-!
What a command line may hold: flags, the values that they take, and what can be wrong with a line.
-/

namespace DefectGraphs.Command

/-- Why a command line is not carried out: help was asked for, or something is wrong with it. -/
inductive Rejection where
  | helpAsked
  | versionAsked
  | nothingGiven
  | commandMissing
  | commandUnknown
  | argumentUnknown
  | argumentMissing
  | argumentRepeated
  | valueRefused
  | valueUnreadable
  | valueNotTaken
  deriving DecidableEq, Repr

inductive Domain where
  | text
  /-- A path may not be empty. -/
  | path
  | word64
  | choice (choices : List String)
  deriving DecidableEq, Repr

def Domain.check : Domain → String → Except Rejection Unit
  | .text, _ => .ok ()
  | .path, value => if value.isEmpty then .error .valueRefused else .ok ()
  | .word64, value => if (Text.word64? value).isNone then .error .valueUnreadable else .ok ()
  | .choice choices, value =>
    if choices.contains value then .ok () else .error .valueRefused

inductive Form where
  | help
  | version
  | switch
  | value (domain : Domain)
  /-- A flag that may be given again, for one more value each time. -/
  | values (domain : Domain)
  deriving DecidableEq, Repr

namespace Form

def domain? : Form → Option Domain
  | .value domain | .values domain => some domain
  | _ => none

def isRepeatable : Form → Bool
  | .values _ => true
  | _ => false

end Form

structure Flag where
  name : String
  short : Option Char := none
  form : Form
  /-- The environment variable that is read when the flag is not given. -/
  variableName : Option String := none
  deriving DecidableEq, Repr

/-- What may stand at one level of a command line: on the line itself, or after the name of a
command. -/
structure Level where
  flags : List Flag
  /-- The one argument without a flag, which must be given. -/
  operand : Option Flag
  commands : List String

end DefectGraphs.Command
