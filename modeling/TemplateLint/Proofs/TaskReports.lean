import Mathlib.Data.List.Forall2
import TemplateLint.Proofs.RuleReports
import TemplateLint.Proofs.TaskPattern

/-!
# Which lines have a task, and what it says

A plain account of the reports on tasks, without a search: where a keyword is mentioned in a line,
which mention is the first, and what is left of the text behind it after trimming.
-/

namespace TemplateLint

/-- Whether a keyword, in upper or lower case, stands between two texts and no letter is next to
it. -/
structure IsMention (keyword before word after : Text) : Prop where
  word_eq : asciiLower word = keyword
  no_letter_before : ∃ c ∈ before.getLast?, isCaselessLetter c = false
  no_letter_after : ∃ c ∈ after.head?, isCaselessLetter c = false

/-- Whether a line mentions a keyword, and not earlier than between the given texts. -/
structure IsFirstMention (keyword line before word after : Text) : Prop where
  line_eq : line = before ++ word ++ after
  mention : IsMention keyword before word after
  first : ∀ before' word' after', line = before' ++ word' ++ after' →
    IsMention keyword before' word' after' → before.length ≤ before'.length

/-- The characters that do not belong to a task at its two ends. -/
def IsTaskMargin (right : Text) (c : Char) : Prop :=
  isBlank c ∨ c ∈ "[]().*".toList ∨ c ∈ right

/-- Whether `task` is the task that a mention with `after` behind it is about: the text from the
next letter on, up to the end of the line and without margins. -/
def IsTaskText (right after task : Text) : Prop :=
  ∃ skipped text rest lead trail, after = skipped ++ text ++ rest ∧
    (∀ c ∈ skipped, isCaselessLetter c = false) ∧
    (∀ c ∈ (text ++ rest).head?, isCaselessLetter c) ∧
    '\n' ∉ text ∧ (∀ c ∈ rest.head?, c = '\n') ∧
    text = lead ++ task ++ trail ∧ (∀ c ∈ lead ++ trail, IsTaskMargin right c) ∧
    (∀ c ∈ task.head?, ¬ IsTaskMargin right c) ∧ ∀ c ∈ task.getLast?, ¬ IsTaskMargin right c

/-- The report on a line with a task. -/
def taskReport (f : CheckedFile) (severity : Severity) (label task : Text) (line : Nat) :
    Diagnostic :=
  if task = [] then
    ⟨line, 1, severity, "Comment refers to a ".toList ++ label ++ " task".toList,
      f.sourceFor "CommentFound".toList⟩
  else
    ⟨line, 1, severity, "Comment refers to a ".toList ++ label ++ " task \"".toList ++ task ++
      "\"".toList, f.sourceFor "TaskFound".toList⟩

/-- Whether `reports` are the reports on one line of a comment: none if the line does not mention
the keyword, and else one on the task behind the first mention. -/
def IsLineReport (f : CheckedFile) (severity : Severity) (keyword label line : Text)
    (number : Nat) (reports : List Diagnostic) : Prop :=
  (reports = [] ∧ ∀ before word after, line = before ++ word ++ after →
    ¬ IsMention keyword before word after) ∨
  ∃ before word after task, IsFirstMention keyword line before word after ∧
    IsTaskText f.context.markup.right after task ∧
    reports = [taskReport f severity label task number]

section Mentions

variable {keyword before word after s rest : Text} {previous : Option Char}

theorem keywordHere?_eq_some_iff : Rules.keywordHere? keyword s = some rest ↔
    ∃ word, s = word ++ rest ∧ asciiLower word = keyword ∧
      ∃ c ∈ rest.head?, isCaselessLetter c = false := by
  have hany (t : Text) : t.head?.any (!Rules.isTaskLetter ·) ↔
      ∃ c ∈ t.head?, isCaselessLetter c = false := by
    rw [isCaselessLetter_eq]
    cases t <;> simp
  simp only [Rules.keywordHere?, Option.ite_none_right_eq_some, Bool.and_eq_true, beq_iff_eq, hany,
    Option.some.injEq]
  constructor
  · rintro ⟨⟨hword, hnext⟩, rfl⟩
    exact ⟨s.take keyword.length, (List.take_append_drop _ s).symm, hword, hnext⟩
  · rintro ⟨word, rfl, rfl, hnext⟩
    have hlength : (asciiLower word).length = word.length := List.length_map ..
    rw [hlength, List.take_left, List.drop_left]
    exact ⟨⟨rfl, hnext⟩, rfl⟩

theorem here_eq_some_iff :
    (if previous.any (!Rules.isTaskLetter ·) then Rules.keywordHere? keyword s else none) =
        some rest ↔
      ∃ word, s = word ++ rest ∧ IsMention keyword previous.toList word rest := by
  have hprevious : previous.any (!Rules.isTaskLetter ·) ↔
      ∃ c ∈ previous.toList.getLast?, isCaselessLetter c = false := by
    rw [isCaselessLetter_eq]
    cases previous <;> simp
  rw [Option.ite_none_right_eq_some, hprevious, keywordHere?_eq_some_iff]
  constructor
  · rintro ⟨hbefore, word, hs, hword, hafter⟩
    exact ⟨word, hs, hword, hbefore, hafter⟩
  · rintro ⟨word, hs, hword, hbefore, hafter⟩
    exact ⟨hbefore, word, hs, hword, hafter⟩

/-- A mention at the very start would have been found there. -/
theorem not_isMention_of_here
    (h : (if previous.any (!Rules.isTaskLetter ·) then Rules.keywordHere? keyword s else none) =
      none) (hs : s = word ++ after) : ¬ IsMention keyword previous.toList word after := by
  intro hmention
  have hsome := here_eq_some_iff.2 ⟨word, hs, hmention⟩
  rw [h] at hsome
  simp at hsome

/-- Of the text before a mention its last character counts. -/
theorem isMention_cons_iff {c : Char} (front : Text) :
    IsMention keyword (front ++ c :: before) word after ↔
      IsMention keyword ((some c).toList ++ before) word after := by
  have hlast : (front ++ c :: before).getLast? = ((some c).toList ++ before).getLast? :=
    List.getLast?_append_of_ne_nil _ (by simp)
  constructor
  · rintro ⟨hword, hbefore, hafter⟩
    exact ⟨hword, hlast ▸ hbefore, hafter⟩
  · rintro ⟨hword, hbefore, hafter⟩
    exact ⟨hword, hlast ▸ hbefore, hafter⟩

/-- A search that finds nothing has passed every mention. -/
theorem not_isMention_of_afterKeyword? (h : Rules.afterKeyword? keyword previous s = none)
    (hs : s = before ++ word ++ after) :
    ¬ IsMention keyword (previous.toList ++ before) word after := by
  induction s generalizing previous before with
  | nil =>
      rintro ⟨-, -, hafter⟩
      have hnil : after = [] := by simp_all
      simp [hnil] at hafter
  | cons c s ih =>
      rw [afterKeyword?_cons, Option.or_eq_none_iff] at h
      obtain ⟨hhere, hlater⟩ := h
      cases before with
      | nil =>
          rw [List.append_nil]
          exact not_isMention_of_here hhere hs
      | cons b before =>
          obtain ⟨rfl, hrest⟩ := List.cons.inj hs
          rw [isMention_cons_iff]
          exact ih hlater hrest

theorem isMention_of_afterKeyword? (h : Rules.afterKeyword? keyword previous s = some rest) :
    ∃ before word, s = before ++ word ++ rest ∧
      IsMention keyword (previous.toList ++ before) word rest ∧
      ∀ before' word' after', s = before' ++ word' ++ after' →
        IsMention keyword (previous.toList ++ before') word' after' →
          before.length ≤ before'.length := by
  induction s generalizing previous with
  | nil => simp [Rules.afterKeyword?] at h
  | cons c s ih =>
      rw [afterKeyword?_cons, Option.or_eq_some_iff] at h
      rcases h with hhere | ⟨hhere, hlater⟩
      · obtain ⟨word, hs, hmention⟩ := here_eq_some_iff.1 hhere
        refine ⟨[], word, hs, by rwa [List.append_nil], fun _ _ _ _ _ => Nat.zero_le _⟩
      · obtain ⟨before, word, rfl, hmention, hfirst⟩ := ih hlater
        refine ⟨c :: before, word, rfl, (isMention_cons_iff _).2 hmention, ?_⟩
        intro before' word' after' hs hmention'
        cases before' with
        | nil =>
            rw [List.append_nil] at hmention'
            exact absurd hmention' (not_isMention_of_here hhere hs)
        | cons b before' =>
            obtain ⟨rfl, hrest⟩ := List.cons.inj hs
            exact Nat.succ_le_succ (hfirst _ _ _ hrest ((isMention_cons_iff _).1 hmention'))

end Mentions

section Texts

theorem isTaskMargin_iff (right : Text) (c : Char) :
    Rules.isTaskTrim right c ↔ IsTaskMargin right c := by
  simp [Rules.isTaskTrim, IsTaskMargin, or_assoc]

theorem not_of_mem_head?_dropWhile {p : Char → Bool} {s : Text} {c : Char}
    (h : c ∈ (s.dropWhile p).head?) : p c = false := by
  have hnot := List.head?_dropWhile_not p s
  rwa [Option.mem_def.1 h] at hnot

/-- What trimming takes off and what it leaves. -/
theorem exists_of_trimWhile (p : Char → Bool) (s : Text) :
    ∃ lead trail, s = lead ++ trimWhile p s ++ trail ∧ (∀ c ∈ lead ++ trail, p c) ∧
      (∀ c ∈ (trimWhile p s).head?, p c = false) ∧
      ∀ c ∈ (trimWhile p s).getLast?, p c = false := by
  have hend : s.dropWhile p =
      trimWhile p s ++ ((s.dropWhile p).reverse.takeWhile p).reverse := by
    rw [trimWhile, dropWhileEnd, ← List.reverse_append, List.takeWhile_append_dropWhile,
      List.reverse_reverse]
  refine ⟨s.takeWhile p, ((s.dropWhile p).reverse.takeWhile p).reverse, ?_, ?_, ?_, ?_⟩
  · rw [List.append_assoc, ← hend, List.takeWhile_append_dropWhile]
  · intro c hc
    rcases List.mem_append.1 hc with hc | hc
    · exact List.mem_takeWhile_imp hc
    · exact List.mem_takeWhile_imp (List.mem_reverse.1 hc)
  · intro c hc
    apply not_of_mem_head?_dropWhile
    rw [hend]
    exact List.mem_head?_append_of_mem_head? hc
  · intro c hc
    rw [trimWhile, dropWhileEnd, List.getLast?_reverse] at hc
    exact not_of_mem_head?_dropWhile hc

/-- The text of a task is what is left of the text behind a mention. -/
theorem isTaskText_trimWhile (right after : Text) :
    IsTaskText right after (trimWhile (Rules.isTaskTrim right)
      ((after.dropWhile (!Rules.isTaskLetter ·)).takeWhile (· != '\n'))) := by
  let text := (after.dropWhile (!Rules.isTaskLetter ·)).takeWhile (· != '\n')
  let rest := (after.dropWhile (!Rules.isTaskLetter ·)).dropWhile (· != '\n')
  have htext : text ++ rest = after.dropWhile (!Rules.isTaskLetter ·) :=
    List.takeWhile_append_dropWhile
  obtain ⟨lead, trail, htrim, hmargin, hhead, hlast⟩ :=
    exists_of_trimWhile (Rules.isTaskTrim right) text
  have hnot {c : Char} (hc : Rules.isTaskTrim right c = false) : ¬ IsTaskMargin right c := by
    rw [← isTaskMargin_iff, hc]
    exact Bool.false_ne_true
  refine ⟨after.takeWhile (!Rules.isTaskLetter ·), text, rest, lead, trail, ?_, ?_, ?_, ?_, ?_,
    htrim, fun c hc => (isTaskMargin_iff right c).1 (hmargin c hc), fun c hc => hnot (hhead c hc),
    fun c hc => hnot (hlast c hc)⟩
  · rw [List.append_assoc, htext, List.takeWhile_append_dropWhile]
  · intro c hc
    rw [isCaselessLetter_eq]
    simpa using List.mem_takeWhile_imp hc
  · intro c hc
    rw [htext] at hc
    rw [isCaselessLetter_eq]
    simpa using not_of_mem_head?_dropWhile hc
  · intro hmem
    simpa using List.mem_takeWhile_imp hmem
  · intro c hc
    simpa using not_of_mem_head?_dropWhile hc

end Texts

section Reports

variable {f : CheckedFile} {severity : Severity} {keyword label : Text}

/-- The text of a task is put into the message as it is. -/
theorem diagnostic?_reportTask (hlabel : '\x7b' ∉ label) (task : Text) (base offset : Nat) :
    (Rules.reportTask severity label task (.line base offset)).diagnostic? f =
      some (taskReport f severity label task (base + offset)) := by
  have hstart : '\x7b' ∉ "Comment refers to a ".toList ++ label ++ " task".toList := by
    simp [hlabel]
  rw [Rules.reportTask, taskReport]
  by_cases htask : task = []
  · rw [if_pos htask, if_pos htask, FileOp.diagnostic?, CheckedFile.diagnosticFor,
      formatMessage_of_not_mem _ hstart]
    rfl
  · have hsplit : " \"\x7b\x7d\"".toList =
        " \"".toList ++ '\x7b' :: '\x7d' :: "\"".toList := by decide
    have hmore : '\x7b' ∉ "Comment refers to a ".toList ++ label ++ " task".toList ++
        " \"".toList := by
      simp [hlabel]
    rw [if_neg htask, if_neg htask, FileOp.diagnostic?, CheckedFile.diagnosticFor, hsplit,
      ← List.append_assoc, formatMessage_placeholder hmore (by decide)]
    simp [CheckedFile.lineOf]

theorem isLineReport_taskOf? (line : Text) (number : Nat) :
    IsLineReport f severity keyword label line number
      ((Rules.taskOf? keyword f.context.markup.right line).map fun task =>
        taskReport f severity label task number).toList := by
  rw [Rules.taskOf?]
  cases hafter : Rules.afterKeyword? keyword none line with
  | none =>
      left
      refine ⟨rfl, fun before word after hline => ?_⟩
      exact not_isMention_of_afterKeyword? hafter hline
  | some after =>
      right
      obtain ⟨before, word, hline, hmention, hfirst⟩ := isMention_of_afterKeyword? hafter
      exact ⟨before, word, after, _, ⟨hline, hmention, hfirst⟩, isTaskText_trimWhile _ after, rfl⟩

theorem kept_taskReports (hnothing : ∀ code, f.suppresses code = false) {ds : List Diagnostic}
    (hds : ∀ d ∈ ds, ∃ task number, d = taskReport f severity label task number) :
    f.kept ds = ds := by
  rw [CheckedFile.kept, Context.kept, List.filter_eq_self]
  intro d hd
  obtain ⟨task, number, rfl⟩ := hds d hd
  rw [taskReport]
  split
  · simpa [CheckedFile.suppresses] using hnothing "CommentFound".toList
  · simpa [CheckedFile.suppresses] using hnothing "TaskFound".toList

theorem filterMap_reportTasks (hlabel : '\x7b' ∉ label) {tokens : TokenStream} {position : Nat}
    {token : Token} (htoken : tokens[position]? = some token) :
    (Rules.reportTasks severity keyword label f tokens position).filterMap
        (FileOp.diagnostic? f) =
      (token.physicalLines f.eol).zipIdx.filterMap fun a =>
        (Rules.taskOf? keyword f.context.markup.right a.1).map fun task =>
          taskReport f severity label task (token.firstLine + a.2) := by
  rw [Rules.reportTasks, htoken]
  dsimp only
  rw [List.filterMap_filterMap]
  apply List.filterMap_congr
  rintro ⟨line, offset⟩ -
  cases Rules.taskOf? keyword f.context.markup.right line with
  | none => simp
  | some task => simp [diagnostic?_reportTask hlabel]

end Reports

/-- A comment gets one report for each of its lines that mentions the keyword and no other report.
The report is on the task behind the first mention, which is put into the message as it is. The task
is also what the pattern for tasks finds. -/
theorem reportTasks_plainly {severity : Severity} {keyword label : Text}
    (htask : (severity, keyword, label) ∈ [(Severity.error, "fixme".toList, "FIXME".toList),
      (Severity.warning, "todo".toList, "TODO".toList)])
    (f : CheckedFile) (log : List Diagnostic) {tokens : TokenStream} {position : Nat}
    {token : Token} (htoken : tokens[position]? = some token)
    (hnothing : ∀ code, f.suppresses code = false) :
    (∃ found : List (List Diagnostic),
      FileOp.applyAll (f.withLog log)
          (Rules.reportTasks severity keyword label (f.withLog log) tokens position) =
        f.withLog (log ++ found.flatten) ∧
      List.Forall₂ (fun a reports => IsLineReport f severity keyword label a.1
        (token.firstLine + a.2) reports) (token.physicalLines f.eol).zipIdx found) ∧
    ∀ line, Rules.taskOf? keyword f.context.markup.right line =
      ((taskPattern keyword).search line).map fun rest =>
        trimWhile (Rules.isTaskTrim f.context.markup.right) (rest.takeWhile (· != '\n')) := by
  have hwords : keyword.all isPlainLetter ∧ keyword ≠ [] ∧ '\x7b' ∉ label := by
    simp only [List.mem_cons, List.not_mem_nil, or_false, Prod.mk.injEq] at htask
    rcases htask with ⟨-, rfl, rfl⟩ | ⟨-, rfl, rfl⟩ <;> decide
  obtain ⟨hletters, hne, hlabel⟩ := hwords
  constructor
  · let report := fun a : Text × Nat =>
      (Rules.taskOf? keyword f.context.markup.right a.1).map fun task =>
        taskReport f severity label task (token.firstLine + a.2)
    refine ⟨(token.physicalLines f.eol).zipIdx.map fun a => (report a).toList, ?_, ?_⟩
    · have hops : Rules.reportTasks severity keyword label (f.withLog log) tokens position =
          Rules.reportTasks severity keyword label f tokens position := rfl
      have hkept : f.kept ((token.physicalLines f.eol).zipIdx.filterMap report) =
          (token.physicalLines f.eol).zipIdx.filterMap report := by
        apply kept_taskReports hnothing
        intro d hd
        obtain ⟨a, -, hreport⟩ := List.mem_filterMap.1 hd
        obtain ⟨task, -, rfl⟩ := Option.map_eq_some_iff.1 hreport
        exact ⟨task, _, rfl⟩
      rw [hops, FileOp.applyAll_withLog _ _ _ fun _ => Rules.isReport_of_mem_reportTasks,
        filterMap_reportTasks hlabel htoken, hkept, List.filterMap_eq_flatMap_toList]
      rfl
    · rw [List.forall₂_map_right_iff, List.forall₂_same]
      intro a _
      exact isLineReport_taskOf? a.1 _
  · intro line
    rw [(search_taskPattern_step hletters hne line).1, Option.map_map]
    rfl

/-- Two keywords with one space between them, braces in the task, and a longer word on the last
line. -/
theorem reportTasks_plainly_shared_space :
    let f := (CheckedFile.new [] ⟨{}, .standard, []⟩).setActiveRule
      (some ⟨"Commenting".toList, "Todo".toList⟩)
    let token : Token :=
      ⟨.comment, "\x7b*\n ToDo todo: [x\x7b0\x7d ] .\n todos *\x7d".toList, 5, some 3⟩
    let file := FileOp.applyAll (f.withLog [])
      (Rules.reportTasks .warning "todo".toList "TODO".toList (f.withLog []) [token] 0)
    (∀ code, f.suppresses code = false) ∧
    (∃ found : List (List Diagnostic), file = f.withLog ([] ++ found.flatten) ∧
      List.Forall₂ (fun a reports => IsLineReport f .warning "todo".toList "TODO".toList a.1
        (token.firstLine + a.2) reports) (token.physicalLines f.eol).zipIdx found) ∧
    file.diagnostics = [⟨4, 1, .warning,
      "Comment refers to a TODO task \"todo: [x\x7b0\"".toList,
      "Commenting.Todo.TaskFound".toList⟩] := by
  intro f token file
  have hnothing : ∀ code, f.suppresses code = false := fun _ => rfl
  have htoken : ([token] : TokenStream)[0]? = some token := rfl
  exact ⟨hnothing, (reportTasks_plainly (by decide) f [] htoken hnothing).1, by decide +kernel⟩

end TemplateLint
