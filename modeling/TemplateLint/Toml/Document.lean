import TemplateLint.Toml.Parser

/-!
# TOML documents

A document is the table of its statements. A key is assigned once and a table defined once;
what came about on the way to something else can still be defined.
-/

namespace TemplateLint.Toml

/-- Change the table at a path of headers. Tables that are missing on the way are made; the way
through an array of tables leads through its last element. -/
def alterAt (f : Entries → Option Entries) : List Text → Entries → Option Entries
  | [], entries => f entries
  | part :: path, entries =>
      match entries.lookup part with
      | none => (alterAt f path []).map fun inner => entries ++ [(part, .table .implied inner)]
      | some (.table .inline _) => none
      | some (.table kind inner) =>
          (alterAt f path inner).map fun inner => replaceEntry entries part (.table kind inner)
      | some (.tables elements) =>
          match elements.getLast? with
          | some (.table kind inner) =>
              (alterAt f path inner).map fun inner =>
                replaceEntry entries part (.tables (elements.dropLast ++ [.table kind inner]))
          | _ => none
      | some _ => none

def leadingAssignments : List Statement → List (List Text × Value) × List Statement
  | .assign parts value :: rest =>
      let (more, rest) := leadingAssignments rest
      ((parts, value) :: more, rest)
  | rest => ([], rest)

def assignAll (entries : Entries) (assignments : List (List Text × Value)) : Option Entries :=
  assignments.foldlM (fun entries (parts, value) => addEntry entries parts value) entries

def defineTable (key : Text) (assignments : List (List Text × Value)) (entries : Entries) :
    Option Entries :=
  match entries.lookup key with
  | none =>
      (assignAll [] assignments).map fun inner => entries ++ [(key, .table .explicit inner)]
  | some (.table .implied inner) =>
      (assignAll inner assignments).map fun inner =>
        replaceEntry entries key (.table .explicit inner)
  | some _ => none

def addElement (key : Text) (assignments : List (List Text × Value)) (entries : Entries) :
    Option Entries :=
  match entries.lookup key with
  | none =>
      (assignAll [] assignments).map fun inner =>
        entries ++ [(key, .tables [.table .explicit inner])]
  | some (.tables elements) =>
      (assignAll [] assignments).map fun inner =>
        replaceEntry entries key (.tables (elements ++ [.table .explicit inner]))
  | some _ => none

def applyHeader (document : Entries) (statement : Statement)
    (assignments : List (List Text × Value)) : Option Entries :=
  match statement with
  | .header path =>
      path.getLast?.bind fun key => alterAt (defineTable key assignments) path.dropLast document
  | .arrayHeader path =>
      path.getLast?.bind fun key => alterAt (addElement key assignments) path.dropLast document
  | .assign _ _ => none

theorem length_leadingAssignments_le (statements : List Statement) :
    (leadingAssignments statements).2.length ≤ statements.length := by
  fun_induction leadingAssignments statements with
  | case1 parts value rest more rest' h ih =>
      rw [h] at ih
      exact Nat.le_succ_of_le ih
  | case2 => simp

def applySections (document : Entries) : List Statement → Option Entries
  | [] => some document
  | statement :: rest =>
      (applyHeader document statement (leadingAssignments rest).1).bind fun document =>
        applySections document (leadingAssignments rest).2
termination_by statements => statements.length
decreasing_by exact Nat.lt_succ_of_le (length_leadingAssignments_le rest)

/-- The table of a document. A byte order mark at its start is skipped. -/
def parse? (source : Text) : Option Entries :=
  let source := if source.head? = some (Char.ofNat 0xFEFF) then source.tail else source
  (statements? (source.length + 1) source).bind fun statements =>
    let (assignments, rest) := leadingAssignments statements
    (assignAll [] assignments).bind fun document => applySections document rest

end TemplateLint.Toml
