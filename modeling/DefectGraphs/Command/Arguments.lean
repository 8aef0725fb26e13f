import DefectGraphs.Command.Flag

/-!
Command lines read level by level. A value is checked only when the next argument of its level is
met, or at the end of the level, so an argument that is wrong in itself is found first.
-/

namespace DefectGraphs.Command

structure Reading where
  /-- Names with their checked values, the first one first; a switch has an empty value. -/
  given : List (String × String)
  /-- Names with their checked values from the environment. -/
  inherited : List (String × String)
  /-- The last flag or operand, until it is checked; its value may still have to follow. -/
  pending : Option (Flag × Option String)
  hasOperand : Bool

namespace Reading

def empty : Reading := ⟨[], [], none, false⟩

def isGiven (reading : Reading) (name : String) : Bool :=
  reading.given.any (·.1 == name)

def accept (reading : Reading) (flag : Flag) (value : String) : Except Rejection Reading := do
  if reading.isGiven flag.name && !flag.form.isRepeatable then
    throw .argumentRepeated
  match flag.form.domain? with
  | some domain => domain.check value
  | none => pure ()
  return { reading with given := reading.given ++ [(flag.name, value)] }

def inherit (reading : Reading) (flag : Flag) (value : String) : Except Rejection Reading := do
  match flag.form.domain? with
  | some domain => domain.check value
  | none => pure ()
  return { reading with inherited := reading.inherited ++ [(flag.name, value)] }

def settle (reading : Reading) : Except Rejection Reading :=
  match reading.pending with
  | none => .ok reading
  | some (_, none) => .error .valueRefused
  | some (flag, some value) => { reading with pending := none }.accept flag value

def awaited (reading : Reading) : Option Flag :=
  match reading.pending with
  | some (flag, none) => some flag
  | _ => none

def acceptBare (reading : Reading) (flag : Flag) : Except Rejection Reading := do
  let reading ← reading.settle
  match flag.form with
  | .help => throw .helpAsked
  | .version => throw .versionAsked
  | _ => reading.accept flag ""

/-- Takes in a flag that has a value, if `attached` to it, or else waits for the value. -/
def acceptValued (reading : Reading) (flag : Flag) (attached : Option String) :
    Except Rejection Reading := do
  let reading ← reading.settle
  match attached with
  | some value => reading.accept flag value
  | none => return { reading with pending := some (flag, none) }

end Reading

namespace Level

/-- Reads what follows two dashes: a name, or a name and a value with an equals sign between them.
-/
def readLong (level : Level) (reading : Reading) (chars : List Char) :
    Except Rejection Reading :=
  let name := chars.takeWhile (· ≠ '=')
  let attached :=
    if name.length < chars.length then some (String.ofList (chars.drop (name.length + 1))) else none
  match level.flags.find? (·.name == String.ofList name) with
  | none => .error .argumentUnknown
  | some flag =>
    if flag.form.domain?.isSome then reading.acceptValued flag attached
    else if attached.isSome then .error .valueNotTaken
    else reading.acceptBare flag

/-- The value in the characters that follow a short flag, with or without an equals sign. -/
private def attachedShort : List Char → Option String
  | [] => none
  | '=' :: rest => some (String.ofList rest)
  | chars => some (String.ofList chars)

/-- Reads what follows one dash: short flags, of which the last may have a value. -/
def readShort (level : Level) (reading : Reading) : List Char → Except Rejection Reading
  | [] => .ok reading
  | c :: rest =>
    match level.flags.find? (·.short == some c) with
    | none => .error .argumentUnknown
    | some flag =>
      if flag.form.domain?.isSome then reading.acceptValued flag (attachedShort rest)
      else do level.readShort (← reading.acceptBare flag) rest

def readOperand (level : Level) (reading : Reading) (argument : String) :
    Except Rejection Reading :=
  match level.operand with
  | some flag =>
    if reading.hasOperand then .error .argumentUnknown
    else do
      let reading ← reading.settle
      return { reading with pending := some (flag, some argument), hasOperand := true }
  | none => .error (if level.commands.isEmpty then .argumentUnknown else .commandUnknown)

/-- Reads arguments after a double dash, where dashes mean nothing. -/
def readOperands (level : Level) (reading : Reading) : List String → Except Rejection Reading
  | [] => .ok reading
  | argument :: rest =>
    if level.commands.contains argument then .error .argumentUnknown
    else do level.readOperands (← level.readOperand reading argument) rest

/-- Reads arguments up to the name of a command, which is given with the arguments after it. -/
def read (level : Level) (reading : Reading) :
    List String → Except Rejection (Reading × Option (String × List String))
  | [] => .ok (reading, none)
  | argument :: rest =>
    if reading.awaited.isNone && level.commands.contains argument then
      .ok (reading, some (argument, rest))
    else
      match argument.toList with
      | ['-', '-'] => do return (← level.readOperands reading rest, none)
      | '-' :: '-' :: chars => do level.read (← level.readLong reading chars) rest
      | '-' :: c :: chars => do level.read (← level.readShort reading (c :: chars)) rest
      | _ =>
        match reading.awaited with
        | some flag => level.read { reading with pending := some (flag, some argument) } rest
        | none => do level.read (← level.readOperand reading argument) rest

def readVariables (environment : String → Option String) (reading : Reading) :
    List Flag → Except Rejection Reading
  | [] => .ok reading
  | flag :: rest =>
    match flag.variableName.bind environment with
    | none => readVariables environment reading rest
    | some value =>
      if reading.isGiven flag.name then readVariables environment reading rest
      else do readVariables environment (← reading.inherit flag value) rest

def finish (level : Level) (environment : String → Option String) (reading : Reading) :
    Except Rejection Reading := do
  let reading ← readVariables environment (← reading.settle) level.flags
  if level.operand.any fun flag => !reading.isGiven flag.name then
    throw .argumentMissing
  return reading

end Level

end DefectGraphs.Command
