import CallTrace.Command.Basic
import CallTrace.Text.Cut

/-!
# Arguments

The command line, read in two levels: what stands before the name of a command, and what follows
it. Options come in a long and a short form, and after `--` nothing is an option any more.

The value of an option or of a directory is looked at only when the next part of the line is
understood, so of two faults the one that is noticed first is reported.

Command lines belong to the outer layer. The rules here are the usual ones of a library for options,
without its texts for help. What a command does is said without them (`Command.run`), and no result
rests on them.
-/

namespace CallTrace

open Text

/-- An understood command line. -/
structure Invocation where
  debug : Bool
  command : Command
deriving DecidableEq, Repr

/-- Why a command line leads to no command. Help and version are asked for; the rest are faults. -/
inductive UsageError where
  | displayHelp
  | displayVersion
  | helpOnMissingCommand
  | missingCommand
  | missingDirectory
  | unknownArgument
  | unknownCommand
  | invalidValue
  | unneededValue
  | repeatedArgument
deriving DecidableEq, Repr

namespace UsageError

/-- Whether the program answers what it was asked. -/
def isAnswer : UsageError → Bool
  | displayHelp | displayVersion => true
  | _ => false

/-- The exit code. -/
def exitCode (error : UsageError) : Nat :=
  if error.isAnswer then 0 else 2

end UsageError

namespace Arguments

/-! ## Shapes -/

/-- What an argument looks like. -/
inductive Shape where
  /-- The mark after which nothing is an option. -/
  | separator
  | long (name : List Char) (value : Option (List Char))
  /-- One or more short options; the first may take the rest as its value. -/
  | short (first : Char) (rest : List Char)
  | plain
deriving DecidableEq, Repr

/-- The name and the value of a long option. -/
def splitValue (text : List Char) : List Char × Option (List Char) :=
  match cutAt? ['='] text with
  | some (name, value) => (name, some value)
  | none => (text, none)

/-- The shape of an argument. A single hyphen is plain. -/
def shapeOf (argument : String) : Shape :=
  match argument.toList with
  | ['-', '-'] => .separator
  | '-' :: '-' :: text => .long (splitValue text).1 (splitValue text).2
  | '-' :: c :: rest => .short c rest
  | _ => .plain

/-! ## After a command -/

/-- What is given but not looked at yet. -/
inductive Pending where
  | nothing
  | directory (value : String)
  | output (value : Option String)
deriving DecidableEq, Repr

/-- What was understood after the name of a command. -/
structure Given where
  takesOutput : Bool
  debug : Bool
  /-- Whether a directory was given, looked at or not. -/
  hasDirectory : Bool
  directory : Option String
  output : Option String
  pending : Pending
deriving DecidableEq, Repr

namespace Given

/-- Nothing given, for a command that takes an output file or does not. -/
def none (takesOutput : Bool) : Given :=
  ⟨takesOutput, false, false, .none, .none, .nothing⟩

/-- Takes an output file; there is at most one, and its name is not empty. -/
def setOutput (given : Given) (value : String) : Except UsageError Given :=
  if given.output.isSome then .error .repeatedArgument
  else if value.isEmpty then .error .invalidValue
  else .ok { given with output := some value }

/-- Looks at what is pending. -/
def settle (given : Given) : Except UsageError Given :=
  let settled := { given with pending := .nothing }
  match given.pending with
  | .nothing => .ok given
  | .directory value =>
    if value.isEmpty then .error .invalidValue else .ok { settled with directory := some value }
  | .output (some value) => settled.setOutput value
  | .output .none => .error .invalidValue

/-- Takes the switch for debugging, at most once. -/
def setDebug (given : Given) : Except UsageError Given :=
  if given.debug then .error .repeatedArgument else .ok { given with debug := true }

/-- Takes a directory, of which there is one. -/
def takePlain (given : Given) (argument : String) : Except UsageError Given :=
  if given.hasDirectory then .error .unknownArgument
  else do
    let given ← given.settle
    return { given with hasDirectory := true, pending := .directory argument }

/-- Takes an output option, with a value in the same argument or in the next one. -/
def takeOutput (given : Given) (value : Option (List Char)) : Except UsageError Given := do
  let given ← given.settle
  match value with
  | some value => given.setOutput (String.ofList value)
  | .none => return { given with pending := .output .none }

/-- Takes a long option. -/
def takeLong (given : Given) (name : List Char) (value : Option (List Char)) :
    Except UsageError Given :=
  if name = "output".toList ∧ given.takesOutput then given.takeOutput value
  else if name = "debug".toList then
    if value.isSome then .error .unneededValue else do (← given.settle).setDebug
  else if name = "help".toList then
    if value.isSome then .error .unneededValue else do
      let _ ← given.settle
      .error .displayHelp
  else .error .unknownArgument

/-- The value that follows a short option in the same argument. -/
def attachedValue (rest : List Char) : Option (List Char) :=
  match rest with
  | [] => .none
  | '=' :: value => some value
  | value => some value

/-- Takes short options. -/
def takeShort (given : Given) (first : Char) (rest : List Char) : Except UsageError Given :=
  if first = 'o' ∧ given.takesOutput then given.takeOutput (attachedValue rest)
  else if first = 'h' then do
    let _ ← given.settle
    .error .displayHelp
  else .error .unknownArgument

/-- Takes an argument that has no special shape: the value that an option waits for, or a
directory. -/
def takeValue (given : Given) (argument : String) : Except UsageError Given :=
  if given.pending = .output .none then .ok { given with pending := .output (some argument) }
  else given.takePlain argument

/-- Takes all arguments; after the separator they are plain. -/
def takeAll (given : Given) (separated : Bool) : List String → Except UsageError Given
  | [] => .ok given
  | argument :: rest => do
    if separated then (← given.takePlain argument).takeAll true rest
    else match shapeOf argument with
      | .separator => given.takeAll true rest
      | .long name value => (← given.takeLong name value).takeAll false rest
      | .short first tail => (← given.takeShort first tail).takeAll false rest
      | .plain => (← given.takeValue argument).takeAll false rest

end Given

/-! ## Commands -/

/-- The names of commands, besides that of help. -/
inductive CommandName where
  | merge | summary
deriving DecidableEq, Repr

/-- The command of a name. -/
def CommandName.ofText? (text : String) : Option CommandName :=
  if text = "merge" then some merge
  else if text = "summary" then some summary
  else none

/-- The name of the command for help. -/
def helpCommand : String := "help"

/-- Reads what follows the name of a command. -/
def readCommand (name : CommandName) (arguments : List String) :
    Except UsageError (Bool × Command) := do
  let given ← (Given.none (name = .merge)).takeAll false arguments
  let given ← given.settle
  match given.directory with
  | none => .error .missingDirectory
  | some dir =>
    match name with
    | .merge => return (given.debug, .merge dir given.output)
    | .summary => return (given.debug, .summary dir)

/-- What is asked for behind the command for help: help with everything, or with one command. -/
def readHelp : List String → UsageError
  | [] => .displayHelp
  | [name] =>
    if (CommandName.ofText? name).isSome || name = helpCommand then .displayHelp
    else .unknownCommand
  | _ => .unknownCommand

/-- Whether a text names a command. -/
def isCommand (text : String) : Bool :=
  (CommandName.ofText? text).isSome || text = helpCommand

/-- Reads what stands before the name of a command, and goes on after it. -/
def readFrom (debug : Bool) (separated : Bool) : List String → Except UsageError Invocation
  | [] => .error (if debug then .missingCommand else .helpOnMissingCommand)
  | argument :: rest =>
    if separated then .error (if isCommand argument then .unknownArgument else .unknownCommand)
    else match shapeOf argument with
      | .separator => readFrom debug true rest
      | .long name value =>
        if name = "debug".toList then
          if value.isSome then .error .unneededValue
          else if debug then .error .repeatedArgument
          else readFrom true false rest
        else if name = "help".toList then
          .error (if value.isSome then .unneededValue else .displayHelp)
        else if name = "version".toList then
          .error (if value.isSome then .unneededValue else .displayVersion)
        else .error .unknownArgument
      | .short first _ =>
        .error (if first = 'h' then .displayHelp
          else if first = 'V' then .displayVersion
          else .unknownArgument)
      | .plain =>
        if argument = helpCommand then .error (readHelp rest)
        else match CommandName.ofText? argument with
          | some name => do
            let (debugAfter, command) ← readCommand name rest
            return ⟨debug || debugAfter, command⟩
          | none => .error .unknownCommand

/-- Reads a command line, without the name of the program. -/
def read (arguments : List String) : Except UsageError Invocation :=
  readFrom false false arguments

end Arguments

end CallTrace
