/-
Module: ComponentTemplates.Command.Compile
Purpose: Files of tags found by patterns of their paths and compiled. Whatever fails becomes a
  diagnostic, and everything else is compiled nevertheless.
Main exports: discover, CompiledFile, Diagnostic, CompileReport, compileFile, compileFiles
-/
import ComponentTemplates.Command.Input
import ComponentTemplates.Files.Glob.Expand
import ComponentTemplates.Invocation.Basic
import ComponentTemplates.Log

namespace ComponentTemplates

/-- The code of the tags in one file. -/
structure CompiledFile where
  path : String
  source : String
deriving DecidableEq, Repr, Inhabited

/-- Why a file or a tag is not compiled. -/
inductive Diagnostic where
  | unloadable (error : CommandError)
  /-- A tag is refused, with the line to blame if it is known. -/
  | rejected (path : String) (line : Option Nat) (error : CompileError)
deriving DecidableEq, Repr, Inhabited

/-- The reasons that a diagnostic gives, the outermost first. -/
def Diagnostic.chain : Diagnostic → List Reason
  | .unloadable error => error.chain
  | .rejected path (some line) error => [.text (path ++ ":" ++ toString line), .text error.message]
  | .rejected path none error => [.text path, .text error.message]

/-- The text of a diagnostic. -/
def Diagnostic.message (diagnostic : Diagnostic) : String :=
  chainText diagnostic.chain

/-- What has been compiled, what has not, and what has been logged on the way. -/
structure CompileReport where
  files : List CompiledFile := []
  diagnostics : List Diagnostic := []
  log : List Log.Line := []
deriving DecidableEq, Repr, Inhabited

namespace CompileReport

/-- Something could not be compiled. -/
def hasErrors (report : CompileReport) : Bool :=
  !report.diagnostics.isEmpty

/-- One report behind another. -/
def append (first second : CompileReport) : CompileReport where
  files := first.files ++ second.files
  diagnostics := first.diagnostics ++ second.diagnostics
  log := first.log ++ second.log

instance : Append CompileReport := ⟨append⟩

end CompileReport

/-- Compiles the tags of a file. The code of each stands on lines of its own, and tags that are refused
are left out. -/
def compileFile (logger : Logger) (path : String) (productions : List Production) :
    CompileReport :=
  let results := productions.zip (compileAll productions)
  let sources := results.filterMap fun
    | (_, .ok invocation) => some invocation.toSource
    | (_, .error _) => none
  let diagnostics := results.filterMap fun
    | (_, .ok _) => none
    | (production, .error error) =>
        some (.rejected path (error.line?.or production.line) error)
  { files := [{ path, source := "\n".intercalate sources }]
    diagnostics
    log := logger.log .debug (path ++ ": " ++ toString sources.length ++ " tag(s) compiled") }

section

variable {m : Type → Type} [Monad m] (files : FileSystem m)

/-- The regular files that fit a pattern. A pattern that is none is logged. -/
def discoverOne (logger : Logger) (pattern : String) : m (List String × List Log.Line) := do
  match ← Glob.expand files pattern with
  | .ok paths =>
      let found ← paths.filterM fun path => return (← files.kind? path) = some .file
      return (found, [])
  | .error error =>
      return ([], logger.log .warn
        ("Invalid glob pattern '" ++ pattern ++ "': " ++ error.message))

/-- The regular files that fit one of the patterns, in order and each once, with what is logged. -/
def discover (logger : Logger) (patterns : List String) : m (List String × List Log.Line) := do
  let found ← patterns.mapM (discoverOne files logger)
  return (Path.sortUnique (found.flatMap (·.1)), found.flatMap (·.2))

/-- Loads a file and compiles its tags. -/
def loadAndCompile (logger : Logger) (path : String) : m CompileReport := do
  match ← loadProductions files path with
  | .ok productions => return compileFile logger path productions
  | .error error => return { diagnostics := [.unloadable error] }

/-- Compiles the tags of all files that fit one of the patterns. -/
def compileFiles (logger : Logger) (patterns : List String) : m CompileReport := do
  let (paths, log) ← discover files logger patterns
  let opening : CompileReport :=
    { log := log ++ logger.log .debug ("Compiling " ++ toString paths.length ++ " file(s)") }
  let reports ← paths.mapM (loadAndCompile files logger)
  return reports.foldl (· ++ ·) opening

end

end ComponentTemplates
