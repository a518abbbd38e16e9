/-
Module: ComponentTemplates.Command.Arguments
Purpose: The arguments of the program. Options in front of the name of a command are the program's own,
  those behind it the command's. They are read from left to right, and the first that asks for help
  or the version, or that is not allowed where it stands, ends the reading.
Main exports: Opt, Item, items, Stop, Given, Command, CommandLine, parse
-/
import ComponentTemplates.Command.Render

namespace ComponentTemplates.Arguments

/-- The options. -/
inductive Opt where
  | verbose
  | version
  | help
  | root
  | config
  | properties
deriving DecidableEq, Repr, Inhabited

/-- The option has a value. -/
def Opt.hasValue : Opt → Bool
  | .verbose | .version | .help => false
  | .root | .config | .properties => true

/-- The long name of an option, behind two dashes. -/
def Opt.long : Opt → String
  | .verbose => "verbose"
  | .version => "version"
  | .help => "help"
  | .root => "root"
  | .config => "config"
  | .properties => "props"

/-- The short name of an option, behind one dash. -/
def Opt.short : Opt → Char
  | .verbose => 'v'
  | .version => 'V'
  | .help => 'h'
  | .root => 'r'
  | .config => 'c'
  | .properties => 'p'

/-- The options of the program itself. -/
def programOptions : List Opt := [.verbose, .version, .help]

/-- The options of the command that compiles. -/
def compileOptions : List Opt := [.verbose, .help]

/-- The options of the command that renders. -/
def renderOptions : List Opt := [.verbose, .help, .root, .config, .properties]

/-- What arguments stand for. -/
inductive Item where
  | operand (text : String)
  | flag (opt : Opt)
  | value (opt : Opt) (text : String)
  /-- An option that is not known, lacks its value or has one too many. -/
  | fault
deriving DecidableEq, Repr, Inhabited

/-- The argument is options and no operand. A lone dash is an operand. -/
def isDashed (argument : String) : Bool :=
  argument.startsWith "-" && argument ≠ "-"

/-- Reads short options behind their dash, with the option that still needs a value. A value may follow
its option at once, with or without `=`. -/
def readCluster (known : List Opt) : List Char → List Item × Option Opt
  | [] => ([], none)
  | c :: rest =>
      match known.find? fun opt => opt.short = c with
      | none => ([.fault], none)
      | some opt =>
          if opt.hasValue then
            match rest with
            | [] => ([], some opt)
            | '=' :: text => ([.value opt (String.ofList text)], none)
            | text => ([.value opt (String.ofList text)], none)
          else
            let (others, waiting) := readCluster known rest
            (.flag opt :: others, waiting)

/-- Reads a long option behind its dashes, with the option that still needs a value. -/
def readLong (known : List Opt) (cs : List Char) : List Item × Option Opt :=
  let (name, text) :=
    match Text.cut? ['='] cs with
    | some (name, text) => (name, some (String.ofList text))
    | none => (cs, none)
  match known.find? fun opt => opt.long = String.ofList name, text with
  | none, _ => ([.fault], none)
  | some opt, none => if opt.hasValue then ([], some opt) else ([.flag opt], none)
  | some opt, some text => if opt.hasValue then ([.value opt text], none) else ([.fault], none)

/-- Reads an argument, with the option that still needs a value. -/
def readArgument (known : List Opt) (argument : String) : List Item × Option Opt :=
  if isDashed argument then
    match argument.toList with
    | '-' :: '-' :: name => readLong known name
    | '-' :: cluster => readCluster known cluster
    | _ => ([.fault], none)
  else ([.operand argument], none)

/-- Reads arguments. Behind two dashes alone there are only operands. The value of an option may be the
next argument, unless that is options itself. -/
def items (known : List Opt) : List String → List Item
  | [] => []
  | argument :: rest =>
      if argument = "--" then rest.map .operand
      else
        match readArgument known argument, rest with
        | (found, none), rest => found ++ items known rest
        | (found, some _), [] => found ++ [.fault]
        | (found, some opt), text :: rest =>
            if isDashed text then found ++ [.fault]
            else found ++ .value opt text :: items known rest

/-- Why the reading ends early. -/
inductive Stop where
  | version
  | help
  /-- The arguments break the rules. -/
  | misuse
deriving DecidableEq, Repr, Inhabited

/-- What the arguments have given so far. -/
structure Given where
  verbose : Bool := false
  root : Option String := none
  config : Option String := none
  properties : Option String := none
  operands : List String := []
deriving DecidableEq, Repr, Inhabited

namespace Given

/-- Takes the value of an option, which must not have one already. -/
def takeValue (given : Given) (opt : Opt) (text : String) : Except Stop Given :=
  match opt, given with
  | .root, { root := none, .. } => .ok { given with root := some text }
  | .config, { config := none, .. } => .ok { given with config := some text }
  | .properties, { properties := none, .. } => .ok { given with properties := some text }
  | _, _ => .error .misuse

/-- Takes an option that has no value. -/
def takeFlag (given : Given) : Opt → Except Stop Given
  | .verbose => if given.verbose then .error .misuse else .ok { given with verbose := true }
  | .version => .error .version
  | .help => .error .help
  | _ => .error .misuse

/-- Takes an operand, if no more than the given number of them are allowed. -/
def takeOperand (limit : Option Nat) (given : Given) (text : String) : Except Stop Given :=
  let operands := given.operands ++ [text]
  match limit with
  | some limit =>
      if limit < operands.length then .error .misuse else .ok { given with operands }
  | none => .ok { given with operands }

/-- Takes what an argument stands for. -/
def take (limit : Option Nat) (given : Given) : Item → Except Stop Given
  | .operand text => given.takeOperand limit text
  | .flag opt => given.takeFlag opt
  | .value opt text => given.takeValue opt text
  | .fault => .error .misuse

/-- Takes what arguments stand for, from left to right. -/
def ofItems (limit : Option Nat) (items : List Item) : Except Stop Given :=
  items.foldlM (take limit) {}

end Given

/-- The commands. Properties are given by an argument that is their text or names their file. -/
inductive Command where
  | compile (patterns : List String)
  | render (request : RenderRequest)
deriving DecidableEq, Repr, Inhabited

/-- A command, and whether all is to be logged. -/
structure CommandLine where
  verbose : Bool
  command : Command
deriving DecidableEq, Repr, Inhabited

/-- The arguments of the command that compiles: at least one pattern. -/
def parseCompile (arguments : List String) : Except Stop CommandLine := do
  let given ← Given.ofItems none (items compileOptions arguments)
  if given.operands.isEmpty then throw .misuse
  return { verbose := given.verbose, command := .compile given.operands }

/-- The arguments of the command that renders: one component. -/
def parseRender (arguments : List String) : Except Stop CommandLine := do
  let given ← Given.ofItems (some 1) (items renderOptions arguments)
  match given.operands with
  | [component] =>
      let plain : RenderRequest := { component }
      let folder := (given.root.map TemplateFolder.mk).getD plain.folder
      return {
        verbose := given.verbose
        command := .render
          { plain with folder, config := given.config, properties := given.properties } }
  | _ => throw .misuse

/-- The names of the commands. -/
def commandNames : List String := ["compile", "render", "help"]

/-- The arguments behind the name of a command. -/
def parseCommand (name : String) (arguments : List String) : Except Stop CommandLine :=
  match name with
  | "compile" => parseCompile arguments
  | "render" => parseRender arguments
  | "help" =>
      match arguments with
      | [] => .error .help
      | [name] => .error (if commandNames.contains name then .help else .misuse)
      | _ => .error .misuse
  | _ => .error .misuse

/-- All arguments of the program. The program's own options take no values, so that its command is the
first argument that is no option. -/
def parse (arguments : List String) : Except Stop CommandLine := do
  let isOwn (argument : String) : Bool := isDashed argument && argument ≠ "--"
  let own ← Given.ofItems (some 0) (items programOptions (arguments.takeWhile isOwn))
  match arguments.dropWhile isOwn with
  | [] => throw .misuse
  | name :: rest =>
      let line ← parseCommand name rest
      return { line with verbose := own.verbose || line.verbose }

end ComponentTemplates.Arguments
