import TemplateLint.SortedMap
import TemplateLint.Text.Basic

/-!
# Diagnostics

What rules report about a file. Diagnostics are kept by line and column, errors apart from
warnings; at one place they stay in the order in which they were reported.
-/

namespace TemplateLint

inductive Severity where
  | error
  | warning
  deriving DecidableEq, Repr

namespace Severity

def label : Severity → Text
  | error => "ERROR".toList
  | warning => "WARNING".toList

def name : Severity → Text
  | error => "error".toList
  | warning => "warning".toList

def rank : Severity → Nat
  | error => 0
  | warning => 1

end Severity

inductive Position where
  | wholeFile
  /-- The line on which the token with this index ends. -/
  | token (index : Nat)
  | line (base offset : Nat)
  deriving DecidableEq, Repr

structure Entry where
  message : Text
  source : Text
  severity : Severity
  deriving DecidableEq, Repr

structure Diagnostic where
  line : Nat
  column : Nat
  severity : Severity
  message : Text
  source : Text
  deriving DecidableEq, Repr

def Entry.at (line column : Nat) (e : Entry) : Diagnostic :=
  { line, column, severity := e.severity, message := e.message, source := e.source }

/-- The order of a report: by line, then by column, errors before warnings. -/
def Diagnostic.notAfter (a b : Diagnostic) : Bool :=
  a.line < b.line ||
    (a.line == b.line &&
      (a.column < b.column || (a.column == b.column && a.severity.rank ≤ b.severity.rank)))

abbrev LineMap := SortedMap Nat (SortedMap Nat (List Entry))

namespace LineMap

def add (m : LineMap) (line column : Nat) (e : Entry) : LineMap :=
  m.alter line fun columns =>
    SortedMap.alter column (fun entries => entries.getD [] ++ [e]) (columns.getD [])

def diagnostics (m : LineMap) : List Diagnostic :=
  m.flatMap fun (line, columns) => columns.flatMap fun (column, entries) =>
    entries.map (Entry.at line column)

def lines (m : LineMap) : List Nat := m.map Prod.fst

end LineMap

end TemplateLint
