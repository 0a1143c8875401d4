/-!
# Options as they are written

Options may stand anywhere before a double dash. Long ones take their value
behind an equals sign or from the next argument; short ones may share a dash,
and one that takes a value takes the rest of its argument or the next one. Of an
option that is given twice the first place and the last value count.
-/

namespace Exemplar.CommandLine

/-- An option with a value. -/
inductive Setting where
  | config
  | format
  | indent
deriving DecidableEq

/-- An option without a value. -/
inductive Flag where
  | force
  | verbose
deriving DecidableEq

/-- An option. -/
inductive Switch where
  | setting (setting : Setting)
  | flag (flag : Flag)
deriving DecidableEq

/-- The option of a long name. -/
def Switch.ofLong? : String → Option Switch
  | "--config" => some (.setting .config)
  | "--format" => some (.setting .format)
  | "--indent" => some (.setting .indent)
  | "--force" => some (.flag .force)
  | "--verbose" => some (.flag .verbose)
  | _ => none

/-- The option of a letter. -/
def Switch.ofLetter? : Char → Option Switch
  | 'c' => some (.setting .config)
  | 'f' => some (.setting .format)
  | 'v' => some (.flag .verbose)
  | _ => none

/-- What the arguments of a command say, with values as they are written. -/
structure Options where
  /-- The options with values in the order of their first places. -/
  settings : List (Setting × String) := []
  force : Bool := false
  verbose : Bool := false
  /-- The arguments that are no options, in order. -/
  operands : List String := []
deriving DecidableEq

namespace Options

/-- Settings with one more value: in place if its option has one, otherwise at the end. -/
def setIn (setting : Setting) (value : String) :
    List (Setting × String) → List (Setting × String)
  | [] => [(setting, value)]
  | (other, old) :: rest =>
      if other = setting then (setting, value) :: rest
      else (other, old) :: setIn setting value rest

/-- Gives an option a value. -/
def set (options : Options) (value : String) (setting : Setting) : Options :=
  { options with settings := setIn setting value options.settings }

/-- Turns an option on. -/
def turnOn (options : Options) : Flag → Options
  | .force => { options with force := true }
  | .verbose => { options with verbose := true }

/-- Reads letters that share a dash; gives the option that still needs a value, if there is one. -/
def readLetters (options : Options) : List Char → Option (Options × Option Setting)
  | [] => some (options, none)
  | letter :: rest =>
      match Switch.ofLetter? letter with
      | none => none
      | some (.flag flag) => (options.turnOn flag).readLetters rest
      | some (.setting setting) =>
          if rest.isEmpty then some (options, some setting)
          else some (options.set (String.ofList rest) setting, none)

/-- The name and the value of a long option whose value is written behind an equals sign. -/
def splitValue (argument : String) : String × Option String :=
  let name := argument.toList.takeWhile (· != '=')
  match argument.toList.drop name.length with
  | _ :: value => (String.ofList name, some (String.ofList value))
  | [] => (argument, none)

/-- Reads one argument that starts with a dash; gives the option that still needs a value, if there
is one. -/
def readSwitch (options : Options) (argument : String) : Option (Options × Option Setting) :=
  let (name, value) := splitValue argument
  match Switch.ofLong? name, value with
  | some (.setting setting), some value => some (options.set value setting, none)
  | some (.setting setting), none => some (options, some setting)
  | some (.flag flag), none => some (options.turnOn flag, none)
  | some (.flag _), some _ => none
  | none, _ =>
      match argument.toList with
      | '-' :: '-' :: _ => none
      | _ :: letters => options.readLetters letters
      | [] => none

/-- Whether an argument is read as an option. A single dash is an operand. -/
def isSwitch (argument : String) : Bool :=
  match argument.toList with
  | '-' :: _ :: _ => true
  | _ => false

/-- Reads arguments in order, unless they are not used correctly. -/
def readFrom (options : Options) : List String → Option Options
  | [] => some options
  | argument :: rest =>
      if argument = "--" then some { options with operands := options.operands ++ rest }
      else if isSwitch argument then
        match options.readSwitch argument with
        | none => none
        | some (options, none) => options.readFrom rest
        | some (options, some setting) =>
            match rest with
            | value :: rest => (options.set value setting).readFrom rest
            | [] => none
      else { options with operands := options.operands ++ [argument] }.readFrom rest

/-- The options that arguments give, unless they are not used correctly. -/
def read (arguments : List String) : Option Options := ({} : Options).readFrom arguments

end Options

end Exemplar.CommandLine
