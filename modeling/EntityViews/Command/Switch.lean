/-!
This module contains the switches of the command line and how they are read from its arguments.
-/

namespace EntityViews

structure Switch where
  letter : Option Char := none
  word : String
  takesValue : Bool := false
  isRepeatable : Bool := false
deriving DecidableEq, Repr

namespace Switch

def version : Switch := { letter := some 'V', word := "version" }

-- nothing is logged, so this has no effect
def verbose : Switch := { letter := some 'v', word := "verbose", isRepeatable := true }

def quiet : Switch := { letter := some 'q', word := "quiet" }

def manifest : Switch := { letter := some 'm', word := "manifest", takesValue := true }

def output : Switch := { letter := some 'o', word := "output", takesValue := true }

def dryRun : Switch := { word := "dry-run" }

def json : Switch := { word := "json" }

end Switch

inductive UsageError where
  | unknownSwitch (text : String)
  | unexpectedArgument (text : String)
  | missingValue (switch : Switch)
  | unexpectedValue (switch : Switch)
  | repeated (switch : Switch)
  | conflict (first second : Switch)
  | missingCommand
  | unknownCommand (name : String)
deriving DecidableEq, Repr

def UsageError.message : UsageError → String
  | .unknownSwitch text => s!"unknown switch '{text}'"
  | .unexpectedArgument text => s!"unexpected argument '{text}'"
  | .missingValue switch => s!"'--{switch.word}' needs a value"
  | .unexpectedValue switch => s!"'--{switch.word}' takes no value"
  | .repeated switch => s!"'--{switch.word}' is given more than once"
  | .conflict first second => s!"'--{first.word}' and '--{second.word}' exclude each other"
  | .missingCommand => "no command is given"
  | .unknownCommand name => s!"unknown command '{name}'"

inductive Interruption where
  | version
  | usage (error : UsageError)
deriving DecidableEq, Repr

structure Switches where
  given : List (Switch × Option String) := []
  pending : Option Switch := none

namespace Switches

def has (switches : Switches) (switch : Switch) : Bool :=
  switches.given.any (·.1 = switch)

def value (switches : Switches) (switch : Switch) (missing : String) : String :=
  ((switches.given.lookup switch).bind id).getD missing

def add (switches : Switches) (switch : Switch) (value : Option String) :
    Except Interruption Switches :=
  if switch = .version then
    .error .version
  else if !switch.isRepeatable && switches.has switch then
    .error (.usage (.repeated switch))
  else if value = some "" then
    .error (.usage (.missingValue switch))
  else
    .ok { given := switches.given ++ [(switch, value)], pending := none }

def readLetters (allowed : List Switch) (switches : Switches) :
    List Char → Except Interruption Switches
  | [] => .ok switches
  | letter :: letters =>
    match allowed.find? (·.letter = some letter) with
    | none => .error (.usage (.unknownSwitch (String.ofList ['-', letter])))
    | some switch =>
      if switch.takesValue then
        match letters with
        | [] => .ok { switches with pending := some switch }
        | '=' :: value => switches.add switch (some (String.ofList value))
        | value => switches.add switch (some (String.ofList value))
      else do
        readLetters allowed (← switches.add switch none) letters

def readWord (allowed : List Switch) (switches : Switches) (text : List Char) :
    Except Interruption Switches :=
  let word := String.ofList (text.takeWhile (· != '='))
  match allowed.find? (·.word = word), text.dropWhile (· != '=') with
  | none, _ => .error (.usage (.unknownSwitch s!"--{word}"))
  | some switch, [] =>
    if switch.takesValue then
      .ok { switches with pending := some switch }
    else
      switches.add switch none
  | some switch, _ :: value =>
    if switch.takesValue then
      switches.add switch (some (String.ofList value))
    else
      .error (.usage (.unexpectedValue switch))

def finish (switches : Switches) : Except Interruption Switches :=
  match switches.pending with
  | some switch => .error (.usage (.missingValue switch))
  | none =>
    if switches.has .quiet && switches.has .verbose then
      .error (.usage (.conflict .quiet .verbose))
    else
      .ok switches

def read (allowed : List Switch) (switches : Switches) :
    List String → Except Interruption (Switches × List String)
  | [] => do return (← switches.finish, [])
  | argument :: arguments =>
    match argument.toList, switches.pending with
    | '-' :: _ :: _, some switch => .error (.usage (.missingValue switch))
    | ['-', '-'], none =>
      match arguments with
      | [] => do return (← switches.finish, [])
      | text :: _ => .error (.usage (.unexpectedArgument text))
    | '-' :: '-' :: word, none => do
      read allowed (← switches.readWord allowed word) arguments
    | '-' :: letter :: letters, none => do
      read allowed (← switches.readLetters allowed (letter :: letters)) arguments
    | _, some switch => do read allowed (← switches.add switch (some argument)) arguments
    | _, none => do return (← switches.finish, argument :: arguments)

end Switches

end EntityViews
