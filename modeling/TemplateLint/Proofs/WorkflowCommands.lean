import TemplateLint.Proofs.Decimals
import TemplateLint.Proofs.DottedNames
import TemplateLint.Render.WorkflowCommands

/-!
# Reading workflow commands

Commands are written without any escapes, so what can be read back depends on the texts in them. An
entry takes one line exactly if there is no line feed in its texts. On such a line the severity, the
path and the position can be told apart if the path does not itself hold what looks like a position;
if it does, other diagnostics have the same command.
-/

namespace TemplateLint

/-- What a command says apart from its message. -/
structure Notice where
  severity : Severity
  path : Text
  line : Nat
  column : Nat
  deriving DecidableEq, Repr

def Notice.ofDiagnostic (path : Text) (d : Diagnostic) : Notice :=
  { severity := d.severity, path, line := d.line, column := d.column }

/-- What stands between the path and the message of a command. -/
def positionMark (line column : Nat) : Text :=
  ',' :: ("line=".toList ++ decimal line ++
    ',' :: ("col=".toList ++ decimal column ++ "::".toList))

/-- Whether a path holds what looks like the position behind a path. -/
def HoldsMark (path : Text) : Prop := ∃ line column, positionMark line column <:+: path

section Reading

def readMark? (s : Text) : Option (Nat × Nat) := do
  let s ← dropLeading? ",line=".toList s
  let (line, s) ← readDecimal? s
  let s ← dropLeading? ",col=".toList s
  let (column, s) ← readDecimal? s
  let _ ← dropLeading? "::".toList s
  return (line, column)

/-- The text before the first mark, and the line and the column of that mark. -/
def readPath? : Text → Option (Text × Nat × Nat)
  | [] => none
  | c :: s =>
      match readMark? (c :: s) with
      | some position => some ([], position)
      | none => (readPath? s).map fun (path, position) => (c :: path, position)

def commandStart (severity : Severity) : Text :=
  ':' :: ':' :: (severity.name ++ " file=".toList)

def Notice.readAs? (line : Text) (severity : Severity) : Option Notice := do
  let s ← dropLeading? (commandStart severity) line
  let (path, line, column) ← readPath? s
  return { severity, path, line, column }

/-- What a line of output says, if the line is a command about a file. -/
def Notice.read? (line : Text) : Option Notice :=
  [Severity.error, .warning].findSome? (readAs? line)

end Reading

section Marks

theorem comma_not_mem_line (line : Nat) : ',' ∉ "line=".toList ++ decimal line := by
  simp [not_mem_decimal]

theorem comma_not_mem_column (column : Nat) :
    ',' ∉ "col=".toList ++ decimal column ++ "::".toList := by
  simp [not_mem_decimal]

theorem readMark?_eq_some_iff {s : Text} {line column : Nat} :
    readMark? s = some (line, column) ↔ positionMark line column <+: s := by
  constructor
  · intro h
    simp only [readMark?, Option.bind_eq_bind, Option.bind_eq_some_iff, Option.pure_def,
      Option.some.injEq, Prod.mk.injEq, Prod.exists] at h
    obtain ⟨s₁, h₁, l, s₂, h₂, s₃, h₃, c, s₄, h₄, s₅, h₅, rfl, rfl⟩ := h
    have hs : s = ",line=".toList ++ (decimal l ++ (",col=".toList ++ (decimal c ++
        ("::".toList ++ s₅)))) := by
      rw [eq_append_of_dropLeading? h₁, (readDecimal?_eq_some_iff.1 h₂).1,
        eq_append_of_dropLeading? h₃, (readDecimal?_eq_some_iff.1 h₄).1,
        eq_append_of_dropLeading? h₅]
    exact ⟨s₅, by simp [hs, positionMark]⟩
  · rintro ⟨rest, rfl⟩
    have hmark : positionMark line column ++ rest = ",line=".toList ++ (decimal line ++
        (",col=".toList ++ (decimal column ++ ("::".toList ++ rest)))) := by
      simp [positionMark]
    simp only [hmark, readMark?, dropLeading?_self_append, Option.bind_eq_bind, Option.bind_some]
    rw [readDecimal?_decimal_append line (by simp [startsWithDigit])]
    simp only [dropLeading?_self_append, Option.bind_some]
    rw [readDecimal?_decimal_append column (by simp [startsWithDigit])]
    simp only [dropLeading?_self_append, Option.bind_some, Option.pure_def]

/-- A mark that starts in front of another one ends in front of it, too. -/
theorem prefix_of_prefix_mark {path rest : Text} {line column l c : Nat} (hne : path ≠ [])
    (h : positionMark l c <+: path ++ (positionMark line column ++ rest)) :
    positionMark l c <+: path := by
  obtain ⟨t, ht⟩ := h
  rcases List.append_eq_append_iff.1 ht with ⟨p, hpath, -⟩ | ⟨q, hmark, hq⟩
  · exact ⟨p, hpath.symm⟩
  · obtain ⟨x, path, rfl⟩ := List.exists_cons_of_ne_nil hne
    cases q with
    | nil => exact ⟨[], by simpa using hmark⟩
    | cons y q =>
      -- The comma inside the mark is the only one that can be the first comma of the other.
      exfalso
      obtain ⟨rfl, hq⟩ := List.cons.inj hq
      obtain ⟨-, hmark⟩ := List.cons.inj hmark
      obtain ⟨-, -, rfl⟩ := (List.append_cons_inj_of_notMem (comma_not_mem_line l)
        (comma_not_mem_column c)).1 hmark
      simp [positionMark] at hq

theorem readPath?_append {path : Text} (h : ¬ HoldsMark path) (line column : Nat) (rest : Text) :
    readPath? (path ++ (positionMark line column ++ rest)) = some (path, line, column) := by
  induction path with
  | nil =>
    have hmark : readMark? (positionMark line column ++ rest) = some (line, column) :=
      readMark?_eq_some_iff.2 (List.prefix_append _ _)
    rw [positionMark, List.cons_append] at hmark ⊢
    rw [List.nil_append, readPath?, hmark]
  | cons c path ih =>
    have hrest : ¬ HoldsMark path := by
      rintro ⟨l, c', hholds⟩
      exact h ⟨l, c', List.infix_cons hholds⟩
    have hnone : readMark? (c :: (path ++ (positionMark line column ++ rest))) = none := by
      rw [Option.eq_none_iff_forall_ne_some]
      rintro ⟨l, c'⟩ hread
      have hprefix : positionMark l c' <+: c :: path :=
        prefix_of_prefix_mark (by simp) (readMark?_eq_some_iff.1 hread)
      exact h ⟨l, c', hprefix.isInfix⟩
    rw [List.cons_append, readPath?, hnone, ih hrest]
    rfl

theorem isSome_readPath?_iff {path : Text} : (readPath? path).isSome ↔ HoldsMark path := by
  induction path with
  | nil => simp [readPath?, HoldsMark, positionMark]
  | cons c path ih =>
    have hholds : HoldsMark (c :: path) ↔ (readMark? (c :: path)).isSome ∨ HoldsMark path := by
      simp only [HoldsMark, List.infix_cons_iff, exists_or, Option.isSome_iff_exists, Prod.exists,
        readMark?_eq_some_iff]
    rw [hholds, ← ih, readPath?]
    cases readMark? (c :: path) <;> simp

instance : DecidablePred HoldsMark := fun _ => decidable_of_iff _ isSome_readPath?_iff

end Marks

section Commands

theorem workflowCommand_eq (path : Text) (d : Diagnostic) :
    d.workflowCommand path = commandStart d.severity ++ (path ++ (positionMark d.line d.column ++
      (d.message ++ ' ' :: '(' :: (d.source ++ [')'])))) := by
  change "::".toList ++ d.severity.name ++ " file=".toList ++ path ++ ",line=".toList ++
    decimal d.line ++ ",col=".toList ++ decimal d.column ++ "::".toList ++ d.message ++
    " (".toList ++ d.source ++ ")".toList = _
  simp [commandStart, positionMark]

theorem workflowCommand_failure_eq (f : RuleFailure) :
    f.workflowCommand = ':' :: ':' :: ("warning::multi-file rule `".toList ++
      (f.rule ++ ("` failed: ".toList ++ f.message))) := by
  change "::warning::".toList ++ ("multi-file rule `".toList ++ f.rule ++ "` failed: ".toList ++
    f.message) = _
  simp

theorem lf_mem_workflowCommand_iff (path : Text) (d : Diagnostic) :
    '\n' ∈ d.workflowCommand path ↔ '\n' ∈ path ∨ '\n' ∈ d.message ∨ '\n' ∈ d.source := by
  have hstart : '\n' ∉ commandStart d.severity := by cases d.severity <;> decide
  have hmark : '\n' ∉ positionMark d.line d.column := by simp [positionMark, not_mem_decimal]
  simp [workflowCommand_eq, hstart, hmark]

theorem lf_mem_workflowCommand_failure_iff (f : RuleFailure) :
    '\n' ∈ f.workflowCommand ↔ '\n' ∈ f.rule ∨ '\n' ∈ f.message := by
  simp [workflowCommand_failure_eq]

theorem dropLeading?_commandStart_of_ne {a b : Severity} (h : a ≠ b) (s : Text) :
    dropLeading? (commandStart a) (commandStart b ++ s) = none := by
  cases a with
  | error =>
    cases b with
    | error => exact absurd rfl h
    | warning => rfl
  | warning =>
    cases b with
    | error => rfl
    | warning => exact absurd rfl h

theorem read?_workflowCommand {path : Text} (h : ¬ HoldsMark path) (d : Diagnostic) :
    Notice.read? (d.workflowCommand path) = some (.ofDiagnostic path d) := by
  have hsame : Notice.readAs? (d.workflowCommand path) d.severity =
      some (.ofDiagnostic path d) := by
    simp only [Notice.readAs?, Notice.ofDiagnostic, workflowCommand_eq, dropLeading?_self_append,
      readPath?_append h, Option.bind_eq_bind, Option.bind_some, Option.pure_def]
  have hother (severity : Severity) (hne : severity ≠ d.severity) :
      Notice.readAs? (d.workflowCommand path) severity = none := by
    simp only [Notice.readAs?, workflowCommand_eq, dropLeading?_commandStart_of_ne hne,
      Option.bind_eq_bind, Option.bind_none]
  rw [Notice.read?, List.findSome?_cons, List.findSome?_cons]
  cases hd : d.severity with
  | error => rw [← hd, hsame]
  | warning =>
    rw [hother .error (by simp [hd]), ← hd, hsame]

theorem read?_workflowCommand_failure (f : RuleFailure) :
    Notice.read? f.workflowCommand = none := by
  rw [workflowCommand_failure_eq]
  rfl

end Commands

section Lines

theorem splitOn_flatMap_lineOfText (ss : List Text) :
    (ss.flatMap lineOfText).splitOn '\n' = ss.flatMap (·.splitOn '\n') ++ [[]] := by
  induction ss with
  | nil => rfl
  | cons s ss ih =>
    rw [List.flatMap_cons, lineOfText, List.append_assoc, List.singleton_append,
      List.splitOn_append_cons_self, ih, List.flatMap_cons, List.append_assoc]

theorem splitOn_flatMap_lineOfText_iff (ss : List Text) :
    (ss.flatMap lineOfText).splitOn '\n' = ss ++ [[]] ↔ ∀ s ∈ ss, '\n' ∉ s := by
  rw [splitOn_flatMap_lineOfText, List.append_left_inj]
  constructor
  · intro h s hs
    rw [← h] at hs
    obtain ⟨t, -, hs⟩ := List.mem_flatMap.1 hs
    rw [List.splitOn_eq_splitOnP] at hs
    intro hlf
    simpa using forall_not_of_mem_splitOnP hs '\n' hlf
  · intro h
    have hsplit : ∀ s ∈ ss, s.splitOn '\n' = [s] := fun s hs => List.splitOn_eq_singleton (h s hs)
    rw [List.flatMap_congr hsplit, List.flatMap_singleton']

end Lines

namespace Report

def commands (r : Report) : List Text :=
  r.files.flatMap (fun f => f.diagnostics.map (·.workflowCommand f.path)) ++
    r.failures.map RuleFailure.workflowCommand

/-- What the commands of a report are to be read as. -/
def notices (r : Report) : List Notice :=
  r.files.flatMap fun f => f.diagnostics.map (.ofDiagnostic f.path)

/-- Whether no text that is shown with an entry has a line feed. -/
def HasPlainTexts (r : Report) : Prop :=
  (∀ f ∈ r.files, ∀ d ∈ f.diagnostics, '\n' ∉ f.path ∧ '\n' ∉ d.message ∧ '\n' ∉ d.source) ∧
    ∀ f ∈ r.failures, '\n' ∉ f.rule ∧ '\n' ∉ f.message

instance (r : Report) : Decidable r.HasPlainTexts := inferInstanceAs (Decidable (_ ∧ _))

theorem renderWorkflowCommands_eq (r : Report) :
    r.renderWorkflowCommands = r.commands.flatMap lineOfText := by
  simp [renderWorkflowCommands, commands, List.flatMap_assoc, List.flatMap_map]

theorem hasPlainTexts_iff (r : Report) :
    r.HasPlainTexts ↔ ∀ command ∈ r.commands, '\n' ∉ command := by
  simp only [HasPlainTexts, commands, List.mem_append, List.mem_flatMap, List.mem_map]
  grind [lf_mem_workflowCommand_iff, lf_mem_workflowCommand_failure_iff]

theorem filterMap_read?_commands (r : Report) (h : ∀ n ∈ r.notices, ¬ HoldsMark n.path) :
    r.commands.filterMap Notice.read? = r.notices := by
  have hfile : ∀ f ∈ r.files,
      (f.diagnostics.map (·.workflowCommand f.path)).filterMap Notice.read? =
        f.diagnostics.map (.ofDiagnostic f.path) := by
    intro f hf
    rw [List.filterMap_map, ← List.filterMap_eq_map]
    apply List.filterMap_congr
    intro d hd
    apply read?_workflowCommand
    exact h (.ofDiagnostic f.path d)
      (List.mem_flatMap.2 ⟨f, hf, List.mem_map.2 ⟨d, hd, rfl⟩⟩)
  have hfailures :
      (r.failures.map RuleFailure.workflowCommand).filterMap Notice.read? = [] := by
    simp [List.filterMap_map, read?_workflowCommand_failure]
  rw [commands, List.filterMap_append, hfailures, List.append_nil, List.filterMap_flatMap,
    List.flatMap_congr hfile, notices]

end Report

/-- A path that holds a mark cannot be told from the part before the mark. -/
theorem exists_workflowCommand_eq_of_holdsMark {path : Text} (h : HoldsMark path)
    (d : Diagnostic) : ∃ (path' : Text) (d' : Diagnostic), path' ≠ path ∧
      d'.workflowCommand path' = d.workflowCommand path := by
  obtain ⟨line, column, front, back, rfl⟩ := h
  refine ⟨front, { d with line, column
                          message := back ++ (positionMark d.line d.column ++ d.message) }, ?_, ?_⟩
  · intro heq
    have hlength := congrArg List.length heq
    simp [positionMark] at hlength
  · simp [workflowCommand_eq]

/-- Every entry of a report is written as the lines of its command, so it has one line exactly if no
text in it has a line feed. Then severity, path, line and column of all diagnostics can be read back
in order if no path holds a mark. A path that holds one has its commands in common with others. -/
theorem renderWorkflowCommands_lines (r : Report) :
    r.renderWorkflowCommands.splitOn '\n' = r.commands.flatMap (·.splitOn '\n') ++ [[]] ∧
    (r.renderWorkflowCommands.splitOn '\n' = r.commands ++ [[]] ↔ r.HasPlainTexts) ∧
    (r.HasPlainTexts → (∀ n ∈ r.notices, ¬ HoldsMark n.path) →
      (r.renderWorkflowCommands.splitOn '\n').filterMap Notice.read? = r.notices) ∧
    ∀ path, HoldsMark path → ∀ d : Diagnostic, ∃ (path' : Text) (d' : Diagnostic),
      path' ≠ path ∧ d'.workflowCommand path' = d.workflowCommand path := by
  have hlines : r.renderWorkflowCommands.splitOn '\n' = r.commands ++ [[]] ↔ r.HasPlainTexts := by
    rw [r.renderWorkflowCommands_eq, splitOn_flatMap_lineOfText_iff, r.hasPlainTexts_iff]
  refine ⟨?_, hlines, fun hplain hmarks => ?_, fun path h d => ?_⟩
  · rw [r.renderWorkflowCommands_eq, splitOn_flatMap_lineOfText]
  · rw [hlines.2 hplain, List.filterMap_append, r.filterMap_read?_commands hmarks]
    exact List.append_nil _
  · exact exists_workflowCommand_eq_of_holdsMark h d

theorem renderWorkflowCommands_lines_half_a_mark :
    let d : Diagnostic :=
      { line := 12, column := 3, severity := .warning, source := "A.B.C".toList
        message := "x,line=4,col=5::y".toList }
    let r : Report :=
      ⟨[⟨"a,line=4,col=5.tpl".toList, 0, 1, 1, [d]⟩], [⟨"M.N".toList, "no".toList⟩]⟩
    r.HasPlainTexts ∧ (∀ n ∈ r.notices, ¬ HoldsMark n.path) ∧
      (r.renderWorkflowCommands.splitOn '\n').filterMap Notice.read? =
        [⟨.warning, "a,line=4,col=5.tpl".toList, 12, 3⟩] := by
  intro d r
  have hplain : r.HasPlainTexts := by decide +kernel
  have hmarks : ∀ n ∈ r.notices, ¬ HoldsMark n.path := by decide +kernel
  exact ⟨hplain, hmarks, (renderWorkflowCommands_lines r).2.2.1 hplain hmarks⟩

/-- The message of one diagnostic spans two lines, of which the second is a command, too. -/
theorem workflowCommand_in_message :
    let d : Diagnostic :=
      { line := 1, column := 1, severity := .error, source := "Internal.Exception".toList
        message := "a\n::error file=b.tpl,line=7,col=1::b".toList }
    let r : Report := ⟨[⟨"a.tpl".toList, 1, 0, 1, [d]⟩], []⟩
    r.renderWorkflowCommands.splitOn '\n' = ["::error file=a.tpl,line=1,col=1::a".toList,
        "::error file=b.tpl,line=7,col=1::b (Internal.Exception)".toList, []] ∧
      (r.renderWorkflowCommands.splitOn '\n').filterMap Notice.read? =
        [⟨.error, "a.tpl".toList, 1, 1⟩, ⟨.error, "b.tpl".toList, 7, 1⟩] ∧
      r.notices = [⟨.error, "a.tpl".toList, 1, 1⟩] := by
  decide +kernel

end TemplateLint
