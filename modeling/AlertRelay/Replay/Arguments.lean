/-! The command line of a replay: `-f` names the settings, `-i` the input. -/

namespace AlertRelay

structure Arguments where
  settings : String
  input : Option String
  verbose : Bool
deriving DecidableEq, Repr

inductive CommandLine
  | run (arguments : Arguments)
  | help
  | refused
deriving DecidableEq, Repr

/-- An option with a value. -/
inductive ValueOption
  | settings
  | input
deriving DecidableEq, Repr

/-- What has been given so far, and the option that waits for its value. -/
structure GivenOptions where
  settings : Option String := none
  input : Option String := none
  verbose : Bool := false
  awaited : Option ValueOption := none
deriving DecidableEq, Repr

/-- Gives an option its value; no option may be given twice. -/
def GivenOptions.give (g : GivenOptions) (o : ValueOption) (value : String) : Option GivenOptions :=
  match o with
  | .settings =>
    if g.settings.isSome then none else some { g with settings := some value, awaited := none }
  | .input => if g.input.isSome then none else some { g with input := some value, awaited := none }

/-- At the end no value may be missing, and settings have to be given. -/
def GivenOptions.finish (g : GivenOptions) : CommandLine :=
  match g.awaited, g.settings with
  | none, some settings => .run ⟨settings, g.input, g.verbose⟩
  | _, _ => .refused

def valueOption? (c : Char) : Option ValueOption :=
  if c = 'f' then some .settings else if c = 'i' then some .input else none

/-- The value written directly after the letter of an option, behind an equals sign or not. -/
def attachedValue (cs : List Char) : String :=
  match cs with
  | '=' :: rest => String.ofList rest
  | cs => String.ofList cs

/-- Reads the arguments from left to right. -/
def GivenOptions.read (g : GivenOptions) : List String → CommandLine
  | [] => g.finish
  | a :: rest =>
    match a.toList with
    | ['-', '-'] => if g.awaited.isNone && rest.isEmpty then g.finish else .refused
    | '-' :: '-' :: name =>
      if g.awaited.isSome then .refused
      else if name = "verbose".toList then
        if g.verbose then .refused else { g with verbose := true }.read rest
      else if name = "help".toList then .help
      else .refused
    | '-' :: letter :: more =>
      if g.awaited.isSome then .refused
      else if letter = 'h' then .help
      else
        match valueOption? letter with
        | none => .refused
        | some o =>
          if more.isEmpty then
            { g with awaited := some o }.read rest
          else
            match g.give o (attachedValue more) with
            | some g => g.read rest
            | none => .refused
    | _ =>
      match g.awaited with
      | none => .refused
      | some o =>
        match g.give o a with
        | some g => g.read rest
        | none => .refused

/-- Reads the arguments of a command line. -/
def CommandLine.ofArguments (arguments : List String) : CommandLine :=
  ({} : GivenOptions).read arguments

/-- The files that a command line names. -/
def CommandLine.paths : CommandLine → List String
  | .run a => a.settings :: a.input.toList
  | .help | .refused => []

end AlertRelay
