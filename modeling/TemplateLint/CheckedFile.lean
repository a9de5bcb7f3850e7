import TemplateLint.Context
import TemplateLint.Diagnostic
import TemplateLint.Message
import TemplateLint.RuleId
import TemplateLint.Token.Scan

/-!
# Files under inspection

A file that is being checked: its tokens while they are kept, the rule that is at work, and the
diagnostics reported so far. What can be done to it is `FileOp`; a diagnostic is attributed to the
rule that is at work, and dropped if the configuration suppresses its source.
-/

namespace TemplateLint

structure CheckedFile where
  path : Text
  context : Context
  eol : Text
  tokens : Option TokenStream
  errors : LineMap
  warnings : LineMap
  errorCount : Nat
  warningCount : Nat
  activeRule : Option RuleId
  deriving DecidableEq, Repr

/-- Codes that start with this are sources by themselves: the linter reports under them. -/
def internalStart : Text := "Internal.".toList

def unknownSource : Text := "unknownRule".toList

def abortSource : Text := "Internal.Exception".toList

namespace CheckedFile

def new (path : Text) (context : Context) : CheckedFile where
  path := path
  context := context
  eol := LineBreak.lf.text
  tokens := none
  errors := []
  warnings := []
  errorCount := 0
  warningCount := 0
  activeRule := none

def setEol (f : CheckedFile) (eol : Text) : CheckedFile := { f with eol }

def setTokens (f : CheckedFile) (tokens : TokenStream) : CheckedFile :=
  { f with tokens := some tokens }

def releaseTokens (f : CheckedFile) : CheckedFile := { f with tokens := none }

def setActiveRule (f : CheckedFile) (rule : Option RuleId) : CheckedFile :=
  { f with activeRule := rule }

def hasTokens (f : CheckedFile) : Bool := f.tokens.isSome

def requireTokens (f : CheckedFile) : Except LintError TokenStream :=
  match f.tokens with
  | some tokens => .ok tokens
  | none => .error (.tokensReleased f.path)

def sourceFor (f : CheckedFile) (code : Text) : Text :=
  if internalStart.isPrefixOf code then code
  else
    match f.activeRule with
    | some rule => rule.sourceFor code
    | none => unknownSource

/-- The line of a position. A token that is not there counts as line 1. Line numbers are natural
numbers, here and in tokens, so that they are right in a text of any length. They fit in 64 bits if
the text has fewer than `2 ^ 64` lines and the position is inside it. -/
def lineOf (f : CheckedFile) : Position → Nat
  | .wholeFile => 1
  | .token index => ((f.tokens.bind (·[index]?)).map Token.line).getD 1
  | .line base offset => base + offset

def insert (f : CheckedFile) (line column : Nat) (e : Entry) : CheckedFile :=
  match e.severity with
  | .error =>
      { f with errors := f.errors.add line column e, errorCount := f.errorCount + 1 }
  | .warning =>
      { f with warnings := f.warnings.add line column e, warningCount := f.warningCount + 1 }

def suppresses (f : CheckedFile) (code : Text) : Bool :=
  f.context.isSuppressed f.path (f.sourceFor code)

def tryAdd (f : CheckedFile) (severity : Severity) (template : Text) (position : Position)
    (code : Text) (args : List Text) : Bool × CheckedFile :=
  if f.suppresses code then (false, f)
  else
    (true, f.insert (f.lineOf position) 1
      { message := formatMessage template args, source := f.sourceFor code, severity })

def add (f : CheckedFile) (severity : Severity) (template : Text) (position : Position)
    (code : Text) (args : List Text) : CheckedFile :=
  (f.tryAdd severity template position code args).2

def clearDiagnostics (f : CheckedFile) : CheckedFile :=
  { f with errors := [], warnings := [], errorCount := 0, warningCount := 0 }

/-- Replace the diagnostics by the one error that checking was aborted. -/
def recordAbort (f : CheckedFile) (reason : Text) : CheckedFile :=
  f.clearDiagnostics.insert 1 1
    { message :=
        ("An error occurred during processing; checking has been aborted. The error " ++
          "message was: ").toList ++ reason
      source := abortSource
      severity := .error }

def linesAffected (f : CheckedFile) : Nat := (sortedSet (f.errors.lines ++ f.warnings.lines)).length

def diagnostics (f : CheckedFile) : List Diagnostic :=
  (f.errors.diagnostics ++ f.warnings.diagnostics).mergeSort Diagnostic.notAfter

end CheckedFile

inductive FileOp where
  | setTokens (tokens : TokenStream)
  | releaseTokens
  | setEol (eol : Text)
  | setActiveRule (rule : Option RuleId)
  | add (severity : Severity) (template : Text) (position : Position) (code : Text)
      (args : List Text)
  | clearDiagnostics
  | recordAbort (reason : Text)
  deriving DecidableEq, Repr

namespace FileOp

def apply (f : CheckedFile) : FileOp → CheckedFile
  | setTokens tokens => f.setTokens tokens
  | releaseTokens => f.releaseTokens
  | setEol eol => f.setEol eol
  | setActiveRule rule => f.setActiveRule rule
  | add severity template position code args => f.add severity template position code args
  | clearDiagnostics => f.clearDiagnostics
  | recordAbort reason => f.recordAbort reason

def applyAll (f : CheckedFile) (ops : List FileOp) : CheckedFile := ops.foldl apply f

theorem apply_frame (f : CheckedFile) (op : FileOp) :
    (op.apply f).path = f.path ∧ (op.apply f).context = f.context := by
  have hinsert (g : CheckedFile) (line column : Nat) (e : Entry) :
      (g.insert line column e).path = g.path ∧ (g.insert line column e).context = g.context := by
    rw [CheckedFile.insert]
    cases e.severity <;> exact ⟨rfl, rfl⟩
  cases op with
  | add severity template position code args =>
      rw [apply, CheckedFile.add, CheckedFile.tryAdd]
      split
      · exact ⟨rfl, rfl⟩
      · exact hinsert f _ _ _
  | recordAbort reason => exact hinsert f.clearDiagnostics _ _ _
  | _ => exact ⟨rfl, rfl⟩

theorem applyAll_frame (f : CheckedFile) (ops : List FileOp) :
    (applyAll f ops).path = f.path ∧ (applyAll f ops).context = f.context := by
  induction ops generalizing f with
  | nil => exact ⟨rfl, rfl⟩
  | cons op ops ih =>
      have hrest := ih (op.apply f)
      have hstep := apply_frame f op
      exact ⟨hrest.1.trans hstep.1, hrest.2.trans hstep.2⟩

end FileOp

end TemplateLint
