import TemplateLint.Report

/-!
# Linter

A linter checks files one after another and keeps them until they are reported. A rule that fails
on a file replaces that file's diagnostics by one error and does no harm to other files.
-/

namespace TemplateLint

/-- A file that is given to the linter. The contents are missing if it could not be read. -/
structure SourceFile where
  path : Text
  contents : Option Text
  deriving DecidableEq, Repr

inductive FileOutcome where
  | skipped
  | checked (errors warnings : Nat)
  deriving DecidableEq, Repr

structure Linter (σ : Type) where
  context : Context
  registry : Registry σ
  world : σ
  files : List CheckedFile
  failures : List RuleFailure

namespace Linter

variable {σ : Type}

/-- A linter with the given rules. The configuration is looked at before the rules. -/
def ofRules (config : Config) (rules : List (RuleInstance σ)) (world : σ)
    (compiles : Text → Bool := fun _ => true) : Except LintError (Linter σ) := do
  let context ← Context.ofConfig config compiles
  let registry ← Registry.ofRules rules context
  return { context, registry, world, files := [], failures := [] }

def checkContents (l : Linter σ) (file : CheckedFile) (contents : Text) : σ × CheckedFile :=
  let eol := (detectLineBreak contents).text
  let file := (file.setEol eol).setTokens (l.context.markup.tokenize contents)
  let file :=
    if hasMixedLineBreaks contents eol then
      file.add .error "File has mixed line endings; this may cause incorrect results".toList
        (.token 0) "Internal.LineEndings.Mixed".toList []
    else file
  let result := l.registry.dispatch l.world file
  let file :=
    match result.ending.failure? with
    | none => result.file
    | some message => (result.file.setActiveRule none).recordAbort message
  (result.world, if l.registry.hasMultiFileRules then file else file.releaseTokens)

def keep (l : Linter σ) (world : σ) (file : CheckedFile) : FileOutcome × Linter σ :=
  (.checked file.errorCount file.warningCount, { l with world, files := l.files ++ [file] })

def processFile (l : Linter σ) (source : SourceFile) : FileOutcome × Linter σ :=
  if l.context.patterns.isGloballyIgnored source.path then (.skipped, l)
  else
    let file := CheckedFile.new source.path l.context
    match source.contents with
    | none =>
        l.keep l.world
          (file.add .error "Error opening file; could not auto-detect line endings".toList
            .wholeFile "Internal.DetectLineEndings".toList [])
    | some contents =>
        if optsOut contents then (.skipped, l)
        else
          let (world, file) := l.checkContents file contents
          l.keep world file

def processMultiFileRules (l : Linter σ) : Linter σ :=
  let d := l.registry.dispatchMulti l.world l.files
  { l with
    world := d.world
    files := d.files.map CheckedFile.releaseTokens
    failures := l.failures ++ d.failures }

def report (l : Linter σ) : Report × Linter σ :=
  ({ files := l.files.map FileReport.ofFile, failures := l.failures },
    { l with files := [], failures := [] })

/-- Check files and report them. Rules about all files are called if more than one was given. -/
def run (l : Linter σ) (sources : List SourceFile) : Report × Linter σ :=
  let l := sources.foldl (fun l source => (l.processFile source).2) l
  let l := if sources.length > 1 then l.processMultiFileRules else l
  l.report

end Linter

end TemplateLint
