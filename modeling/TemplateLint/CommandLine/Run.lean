import TemplateLint.CommandLine.Arguments
import TemplateLint.Config.Files
import TemplateLint.Discovery
import TemplateLint.Render.Data
import TemplateLint.Render.RuleTable
import TemplateLint.Render.WorkflowCommands
import TemplateLint.Rules.Builtin

/-!
# The program

What the program does with its arguments in a file tree: it checks files or lists the rules. The
result is what it writes and the code with which it exits: 0 if all is well, 1 if there are errors
in the files that were checked, and 2 if it could not do what was asked.
-/

namespace TemplateLint

structure Environment where
  noColor : Bool
  forceColor : Option Text
  terminal : Bool

namespace Environment

/-- Whether colours are wished for: `true` and the empty text are a wish, `false` is none, and a
number is one if it is not zero. -/
def forces (e : Environment) : Bool :=
  e.forceColor.any fun wish =>
    if wish = "true".toList || wish = [] then true
    else if wish = "false".toList then false
    else (index? wish).getD 1 > 0

def usesColor (e : Environment) : Bool := !e.noColor && (e.forces || e.terminal)

end Environment

structure Outcome where
  exitCode : Nat
  stdout : Text := []
  stderr : List Text := []

namespace Outcome

def after (lines : List Text) (o : Outcome) : Outcome := { o with stderr := lines ++ o.stderr }

def ofError (e : LintError) (useColor : Bool) : Outcome where
  exitCode := 2
  stderr := [Style.red.paint useColor e.code, "  × ".toList ++ e.message] ++
    (e.help?.map fun help => "  help: ".toList ++ help).toList

end Outcome

namespace Arguments

def root (a : Arguments) (t : FileTree) : Text := (a.sharedValue? .path).getD t.workingPath

def configPath? (a : Arguments) (t : FileTree) : Option Text :=
  a.sharedValue? .config <|> Config.resolvePath t (a.root t)

def loadConfig (a : Arguments) (t : FileTree) : Except LintError Config :=
  match a.configPath? t with
  | some path => Config.ofPath t path
  | none => .ok {}

def configNote (a : Arguments) (t : FileTree) : List Text :=
  if a.hasShared .verbose then
    (a.configPath? t).toList.map fun path => "Using config ".toList ++ path
  else []

end Arguments

def commaList (values : List Text) : List Text := values.flatMap (·.splitOn ',')

def Config.override (c : Config) (g : Given) : Config :=
  let c :=
    { c with
      extensions :=
        if g.has .extensions then commaList (g.values .extensions) else c.extensions
      leftDelimiter := (g.value? .leftDelimiter).getD c.leftDelimiter
      rightDelimiter := (g.value? .rightDelimiter).getD c.rightDelimiter
      autoLiteral := c.autoLiteral && !g.has .noAutoLiteral }
  let c := c.addIgnoreRules (((commaList (g.values .ignoreRules)).map trim).filter (· != []))
  (g.values .ignore).foldl (fun c pattern => c.addIgnorePattern globalScope pattern) c

/-- Read a file of a tree. Bytes that are not UTF-8 are replaced. -/
def SourceFile.read (t : FileTree) (path : Text) : SourceFile where
  path := path
  contents := (t.read path).toOption.map Utf8.decodeLossy

def shownPath (root path : Text) : Text := (Path.relativeTo? root path).getD path

def Report.render (r : Report) (format : Text) (useColor : Bool) : Outcome :=
  let exitCode := if r.hasErrors then 1 else 0
  if format = "json".toList then { exitCode, stdout := lineOfText r.renderJson }
  else if format = "github".toList then
    { exitCode, stdout := r.renderWorkflowCommands, stderr := [r.totals] }
  else { exitCode, stdout := r.renderText useColor }

def checkFiles (t : FileTree) (config : Config) (root : Text) (paths : List Text)
    (compiles : Text → Bool := fun _ => true) : Except LintError (List Text × Report) := do
  let extensions ← ExtensionSet.ofExtensions config.extensions
  let linter ← Linter.withBuiltinRules config compiles
  let files ← t.discover extensions (if paths = [] then [root] else paths)
  let sources := files.map fun path =>
    { SourceFile.read t path with path := shownPath root path }
  return (files, (linter.run sources).1)

def runCheck (t : FileTree) (a : Arguments) (g : Given) (useColor : Bool)
    (compiles : Text → Bool := fun _ => true) : Outcome :=
  match a.loadConfig t with
  | .error e => .ofError e useColor
  | .ok config =>
      match checkFiles t (config.override g) (a.root t) g.paths compiles with
      | .error e => (Outcome.ofError e useColor).after (a.configNote t)
      | .ok (files, report) =>
          let note :=
            if a.hasShared .verbose then
              ["Checking ".toList ++ decimal files.length ++ " file(s)".toList]
            else []
          (report.render ((g.value? .format).getD []) useColor).after (a.configNote t ++ note)

def runRules (t : FileTree) (a : Arguments) (useColor : Bool)
    (compiles : Text → Bool := fun _ => true) : Outcome :=
  match a.loadConfig t with
  | .error e => .ofError e useColor
  | .ok config =>
      let registry : Except LintError (Registry Unit) := do
        Registry.ofRules builtinRules (← Context.ofConfig config compiles)
      match registry with
      | .error e => (Outcome.ofError e useColor).after (a.configNote t)
      | .ok registry =>
          Outcome.after (a.configNote t) { exitCode := 0, stdout := registry.renderTable useColor }

namespace Arguments

def ignorePathsAbove (names : List Text) : List Text :=
  (List.range names.length).flatMap fun n =>
    [".ignore", ".gitignore", ".git/info/exclude", ".git"].map fun file =>
      Path.join (Path.absolute (names.take n)) file.toList

def targets (a : Arguments) (t : FileTree) : List Text :=
  let paths := a.command.elim [] fun (_, g) => g.paths
  if a.level != .check then [] else if paths = [] then [a.root t] else paths

/-- The files that have to be known besides what is at and below the paths that are checked: the
configuration, and the ignore files above those paths. -/
def neededFiles (a : Arguments) (t : FileTree) : List Text :=
  Config.fileNames.map (Path.join (a.root t)) ++ (a.sharedValue? .config).toList ++
    (a.targets t).flatMap fun path => ignorePathsAbove (t.absoluteNames path)

end Arguments

def versionText : Text := "smartylint_cli 0.1.0".toList

def helpText : Text :=
  ("Lint Smarty templates for whitespace, comment and line-ending problems.\n\n" ++
    "Usage: smartylint [OPTIONS] check [CHECK OPTIONS] [PATHS]...\n" ++
    "       smartylint [OPTIONS] rules\n\n" ++
    "Options: --path <PATH>, --config <CONFIG>, --verbose, --no-color, --help, --version\n" ++
    "Check options: --extensions <LIST>, --left-delimiter <TEXT>, --right-delimiter <TEXT>,\n" ++
    "  --no-auto-literal, --ignore-rules <LIST>, --ignore <PATTERN>,\n" ++
    "  --format <text|json|github>").toList

def runProgram (t : FileTree) (e : Environment) (args : List Text)
    (compiles : Text → Bool := fun _ => true) : Outcome :=
  match Arguments.ofList args with
  | .error .version => { exitCode := 0, stdout := lineOfText versionText }
  | .error .help => { exitCode := 0, stdout := lineOfText helpText }
  | .error (.usage error) => { exitCode := 2, stderr := ["error: ".toList ++ error.message] }
  | .ok a =>
      let useColor := !a.hasShared .noColor && e.usesColor
      match a.command with
      | some (.check, g) => runCheck t a g useColor compiles
      | some (_, _) => runRules t a useColor compiles
      | none =>
          { exitCode := 1
            stderr := ["No subcommand specified. Run `smartylint --help` for usage.".toList] }

end TemplateLint
