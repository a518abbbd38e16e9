/-
Module: ComponentTemplates.Command.Run
Purpose: The program as a function of its arguments and files. It answers with an exit code and with
  what it prints: results and the log's information go to the standard output, the rest of the log to
  the error output.
Main exports: Output, Output.stream, Output.text, Ending, run
-/
import ComponentTemplates.Command.Arguments
import ComponentTemplates.Command.Compile

namespace ComponentTemplates

/-- What the program prints. -/
inductive Output where
  | result (text : String)
  | log (line : Log.Line)
  | diagnostic (found : Diagnostic)
  | failure (error : CommandError)
  /-- How the program is used, which is asked for or follows from misuse. -/
  | usage (asked : Bool)
deriving DecidableEq, Repr, Inhabited

/-- Where something is printed. -/
inductive Stream where
  | standard
  | error
deriving DecidableEq, Repr, Inhabited

/-- The version of the program. -/
def versionText : String := "compc 0.1.0"

/-- How the program is used. -/
def usageText : String :=
  "\n".intercalate
    ["Component tag compiler and renderer",
      "",
      "Usage: compc [OPTIONS] <COMMAND>",
      "",
      "Commands:",
      "  compile <GLOB>...  Compile tag-production JSON files and print the generated code",
      "  render <NAME>      Render a component from a template directory",
      "  help [COMMAND]     Print this message",
      "",
      "Options:",
      "  -v, --verbose        Print debug output",
      "  -r, --root <DIR>     Template directory for render, . by default",
      "  -c, --config <PATH>  JSON file with componentPaths for render",
      "  -p, --props <JSON>   Properties for render as a JSON object, or @file.json",
      "  -h, --help           Print help",
      "  -V, --version        Print version"]

namespace Output

/-- The line of the log that something is, if it belongs to the log. -/
def line? : Output → Option Log.Line
  | .log line => some line
  | .diagnostic found => some { level := .error, message := found.message }
  | .failure error => some { level := .error, message := error.message }
  | .result _ | .usage _ => none

/-- Where something is printed. -/
def stream (output : Output) : Stream :=
  match output with
  | .result _ | .usage true => .standard
  | .usage false => .error
  | _ => if output.line?.any fun line => line.level = .info then .standard else .error

/-- The text that is printed. -/
def text (output : Output) : String :=
  match output with
  | .result text => text
  | .usage _ => usageText
  | _ => (output.line?.map Log.Line.text).getD ""

end Output

/-- What the program prints, and the code that it exits with. -/
structure Ending where
  code : Nat
  outputs : List Output
deriving DecidableEq, Repr, Inhabited

/-- The ending of compiled files: their code, and then the diagnostics. -/
def CompileReport.ending (logger : Logger) (report : CompileReport) : Ending :=
  let printed := report.files.flatMap fun file =>
    (logger.log .debug ("// " ++ file.path)).map Output.log ++ [.result file.source]
  { code := if report.hasErrors then 1 else 0
    outputs := report.log.map .log ++ printed ++ report.diagnostics.map .diagnostic }

/-- The ending of a command that logs and then yields a text or fails. -/
def Ending.ofResult (result : Except CommandError String) (log : List Log.Line) : Ending :=
  match result with
  | .ok text => { code := 0, outputs := log.map .log ++ [.result text] }
  | .error error => { code := 1, outputs := log.map .log ++ [.failure error] }

/-- The ending of arguments that name no command to run. -/
def Arguments.Stop.ending : Arguments.Stop → Ending
  | .version => { code := 0, outputs := [.result versionText] }
  | .help => { code := 0, outputs := [.usage true] }
  | .misuse => { code := 2, outputs := [.usage false] }

section

variable {m : Type → Type} [Monad m] (files : FileSystem m)

/-- Runs the command that renders. Its properties are read before anything else. -/
def runRender (logger : Logger) (request : RenderRequest) : m Ending := do
  let properties : Except CommandError (Option String) ←
    match request.properties with
    | none => pure (.ok none)
    | some argument => do pure ((← readPropertiesArgument files argument).map some)
  match properties with
  | .error error => return Ending.ofResult (.error error) []
  | .ok properties =>
      let (result, log) ← renderFromFolder files logger { request with properties }
      return Ending.ofResult result log

/-- Runs the program. -/
def run (arguments : List String) : m Ending := do
  match Arguments.parse arguments with
  | .error stop => return stop.ending
  | .ok line =>
      let logger : Logger := { level := Log.Level.ofVerbose line.verbose }
      match line.command with
      | .compile patterns => return (← compileFiles files logger patterns).ending logger
      | .render request => runRender files logger request

end

end ComponentTemplates
