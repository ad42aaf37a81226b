import GridKernel.Command.Demo

namespace GridKernel

inductive UsageFault where
  | noCommand
  | unknownCommand (name : String)
  | unexpected (argument : String)
  | missingValue (option : String)
  | badValue (name value : String)
  | repeated (option : String)
  | noValueAllowed (option : String)
  | missingDemo
deriving DecidableEq

def UsageFault.message : UsageFault → String
  | .noCommand => "a command is required"
  | .unknownCommand name => s!"unrecognized subcommand '{name}'"
  | .unexpected argument => s!"unexpected argument '{argument}' found"
  | .missingValue option => s!"a value is required for '{option}' but none was supplied"
  | .badValue name value => s!"invalid value '{value}' for '{name}'"
  | .repeated option => s!"the argument '{option}' cannot be used multiple times"
  | .noValueAllowed option => s!"unexpected value for '{option}'"
  | .missingDemo => "the following required arguments were not provided: <DEMO>"

inductive RunOption where
  | mode
  | dimensions
  | config
  | software
  | showShader
  | verbose
  | help
deriving DecidableEq

namespace RunOption

def all : List RunOption := [.mode, .dimensions, .config, .software, .showShader, .verbose, .help]

def long : RunOption → String
  | .mode => "mode"
  | .dimensions => "dimensions"
  | .config => "config"
  | .software => "software"
  | .showShader => "show-shader"
  | .verbose => "verbose"
  | .help => "help"

def short? : RunOption → Option Char
  | .mode => some 'm'
  | .dimensions => some 'd'
  | .verbose => some 'v'
  | .help => some 'h'
  | _ => none

def takesValue : RunOption → Bool
  | .mode | .dimensions | .config => true
  | _ => false

def shown (o : RunOption) : String := "--" ++ o.long

def ofLong? (name : String) : Option RunOption := all.find? (·.long = name)
def ofShort? (c : Char) : Option RunOption := all.find? (·.short? = some c)

end RunOption

structure Choices where
  demo : Option Demo := none
  mode : Option Mode := none
  dimensions : Option (List Nat) := none
  config : Option String := none
  software : Bool := false
  showShader : Bool := false
  verbose : Bool := false

-- An unsigned 32-bit number with an optional sign.
def axisValue? (text : String) : Option Nat :=
  let (negative, digits) := match text.toList with
    | '-' :: digits => (true, digits)
    | '+' :: digits => (false, digits)
    | digits => (false, digits)
  if digits.isEmpty ∨ !digits.all Char.isDigit then none
  else
    let value := digits.foldl (fun n c => n * 10 + (c.toNat - 48)) 0
    if value < 0x100000000 ∧ (!negative ∨ value = 0) then some value else none

namespace Choices

def setValue (c : Choices) (o : RunOption) (value : String) : Except UsageFault Choices :=
  match o with
  | .mode =>
    if c.mode.isSome then .error (.repeated o.shown)
    else
      match Mode.parse value with
      | .ok mode => .ok { c with mode := some mode }
      | .error _ => .error (.badValue o.shown value)
  | .dimensions =>
    match (value.splitOn ",").mapM axisValue? with
    | some axes => .ok { c with dimensions := some (c.dimensions.getD [] ++ axes) }
    | none => .error (.badValue o.shown value)
  | .config =>
    if c.config.isSome then .error (.repeated o.shown)
    else if value.isEmpty then .error (.badValue o.shown value)
    else .ok { c with config := some value }
  | _ => .error (.noValueAllowed o.shown)

def setSwitch (c : Choices) (o : RunOption) : Except UsageFault Choices :=
  match o with
  | .software =>
    if c.software then .error (.repeated o.shown) else .ok { c with software := true }
  | .showShader =>
    if c.showShader then .error (.repeated o.shown) else .ok { c with showShader := true }
  | .verbose =>
    if c.verbose then .error (.repeated o.shown) else .ok { c with verbose := true }
  | _ => .error (.missingValue o.shown)

def setDemo (c : Choices) (text : String) : Except UsageFault Choices :=
  if c.demo.isSome then .error (.unexpected text)
  else
    match Demo.ofName? text with
    | some demo => .ok { c with demo := some demo }
    | none => .error (.badValue "<DEMO>" text)

end Choices

inductive Reading where
  | done (c : Choices)
  | waiting (c : Choices) (o : RunOption)
  | help (full : Bool)

def readShorts : List Char → Choices → Except UsageFault Reading
  | [], c => .ok (.done c)
  | letter :: rest, c =>
    match RunOption.ofShort? letter with
    | none => .error (.unexpected ("-" ++ letter.toString))
    | some o =>
      if o = .help then .ok (.help false)
      else if o.takesValue then
        match rest with
        | [] => .ok (.waiting c o)
        | '=' :: value => (c.setValue o (String.ofList value)).map .done
        | value => (c.setValue o (String.ofList value)).map .done
      else
        match c.setSwitch o with
        | .ok after => readShorts rest after
        | .error e => .error e

def readLong (text : List Char) (c : Choices) : Except UsageFault Reading :=
  let name := String.ofList (text.takeWhile (· ≠ '='))
  match RunOption.ofLong? name, text.dropWhile (· ≠ '=') with
  | none, _ => .error (.unexpected ("--" ++ name))
  | some o, [] =>
    if o = .help then .ok (.help true)
    else if o.takesValue then .ok (.waiting c o)
    else (c.setSwitch o).map .done
  | some o, _ :: value =>
    if o.takesValue then (c.setValue o (String.ofList value)).map .done
    else .error (.noValueAllowed o.shown)

def readArgument (text : String) (c : Choices) : Except UsageFault Reading :=
  match text.toList with
  | '-' :: '-' :: long => readLong long c
  | '-' :: letter :: letters => readShorts (letter :: letters) c
  | _ => (c.setDemo text).map .done

-- An argument that is not a value: a dash and something behind it.
def startsOption (text : String) : Bool :=
  match text.toList with
  | '-' :: _ :: _ => true
  | _ => false

structure RunOptions where
  demo : Demo
  mode : Option Mode
  dimensions : Option (List Nat)
  config : Option String
  software : Bool
  showShader : Bool
  verbose : Bool

inductive HelpTopic where
  | program
  | run (full : Bool)
  | info
  | help
deriving DecidableEq

inductive Command where
  | run (options : RunOptions)
  | info
  | help (topic : HelpTopic)
  | version

namespace Command

def ofChoices (c : Choices) : Except UsageFault Command :=
  match c.demo with
  | some demo =>
    .ok (.run ⟨demo, c.mode, c.dimensions, c.config, c.software, c.showShader, c.verbose⟩)
  | none => .error .missingDemo

def readPlain (arguments : List String) (c : Choices) : Except UsageFault Command := do
  let c ← arguments.foldlM Choices.setDemo c
  ofChoices c

def readRun : List String → Choices → Except UsageFault Command
  | [], c => ofChoices c
  | "--" :: rest, c => readPlain rest c
  | argument :: rest, c =>
    match readArgument argument c, rest with
    | .error e, _ => .error e
    | .ok (.done after), rest => readRun rest after
    | .ok (.help full), _ => .ok (.help (.run full))
    | .ok (.waiting _ o), [] => .error (.missingValue o.shown)
    | .ok (.waiting c o), value :: rest =>
      if startsOption value then .error (.missingValue o.shown)
      else
        match c.setValue o value with
        | .ok after => readRun rest after
        | .error e => .error e

def asksHelp (argument : String) : Bool :=
  match argument.toList with
  | '-' :: 'h' :: _ => true
  | _ => argument = "--help"

def asksVersion (argument : String) : Bool :=
  match argument.toList with
  | '-' :: 'V' :: _ => true
  | _ => argument = "--version"

def readInfo : List String → Except UsageFault Command
  | [] => .ok .info
  | ["--"] => .ok .info
  | argument :: _ =>
    if asksHelp argument then .ok (.help .info) else .error (.unexpected argument)

def readHelp : List String → Except UsageFault Command
  | [] => .ok (.help .program)
  | ["run"] => .ok (.help (.run true))
  | ["info"] => .ok (.help .info)
  | ["help"] => .ok (.help .help)
  | arguments => .error (.unknownCommand (arguments.getLastD ""))

def parse : List String → Except UsageFault Command
  | [] => .error .noCommand
  | "run" :: rest => readRun rest {}
  | "info" :: rest => readInfo rest
  | "help" :: rest => readHelp rest
  | argument :: _ =>
    if asksHelp argument then .ok (.help .program)
    else if asksVersion argument then .ok .version
    else if startsOption argument then .error (.unexpected argument)
    else .error (.unknownCommand argument)

end Command
end GridKernel
