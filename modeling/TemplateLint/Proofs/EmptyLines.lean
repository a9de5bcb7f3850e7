import Mathlib.Data.List.SplitBy
import TemplateLint.Proofs.TrailingBlanks

/-!
# Empty lines in a row

At every line break the rule about empty lines counts back to the start of the run and points at the
token before it. Over a whole run this comes to one report for each line break from the fourth on,
all on the line of the first one.
-/

namespace TemplateLint

def Token.isNewLine (t : Token) : Bool := t.type == .newLine

namespace TokenStream

/-- The parts of a token sequence that consist of line breaks and those that have none, in turn. -/
def parts (ts : TokenStream) : List TokenStream :=
  ts.splitBy fun t u => t.isNewLine == u.isNewLine

/-- The runs of line breaks that are as long as possible, in order. -/
def newLineRuns (ts : TokenStream) : List TokenStream := ts.parts.filter (·.all Token.isNewLine)

/-- Whether `run` is a run of line breaks that stands between `before` and `after` and cannot be
made longer on either side. -/
structure IsNewLineRun (before run after : TokenStream) : Prop where
  ne_nil : run ≠ []
  newLine : ∀ t ∈ run, t.isNewLine
  starts : ∀ t ∈ before.getLast?, t.isNewLine = false
  ends : ∀ t ∈ after.head?, t.isNewLine = false

variable {before run after ts part : TokenStream}

theorem all_or_none_of_mem_parts (h : part ∈ ts.parts) :
    (∀ t ∈ part, t.isNewLine) ∨ ∀ t ∈ part, t.isNewLine = false := by
  have hchain := List.isChain_of_mem_splitBy h
  clear h
  induction part with
  | nil => simp
  | cons t part ih =>
      cases part with
      | nil => simp
      | cons u part =>
          obtain ⟨hsame, htail⟩ := List.isChain_cons_cons.1 hchain
          rw [beq_iff_eq] at hsame
          rcases ih htail with hall | hnone
          · left
            intro v hv
            rcases List.mem_cons.1 hv with rfl | hv
            · rw [hsame, hall u List.mem_cons_self]
            · exact hall v hv
          · right
            intro v hv
            rcases List.mem_cons.1 hv with rfl | hv
            · rw [hsame, hnone u List.mem_cons_self]
            · exact hnone v hv

theorem all_eq_false_of_mem_parts (h : part ∈ ts.parts) (hnone : ∀ t ∈ part, t.isNewLine = false) :
    part.all Token.isNewLine = false := by
  have hne := List.ne_nil_of_mem_splitBy h
  rw [List.all_eq_false]
  exact ⟨part.head hne, List.head_mem hne, by simp [hnone _ (List.head_mem hne)]⟩

theorem flatten_parts (ts : TokenStream) : ts.parts.flatten = ts := List.flatten_splitBy _ ts

/-- A part of line breaks among the parts cannot be made longer. -/
theorem isNewLineRun_of_parts {front back : List TokenStream}
    (h : ts.parts = front ++ run :: back) (hrun : ∀ t ∈ run, t.isNewLine) :
    IsNewLineRun front.flatten run back.flatten := by
  have hchain := List.isChain_getLast_head_splitBy (fun t u => t.isNewLine == u.isNewLine) ts
  have hmem {part : TokenStream} (hpart : part ∈ front ++ run :: back) : part ≠ [] := by
    rw [← h] at hpart
    exact List.ne_nil_of_mem_splitBy hpart
  have hne : run ≠ [] := hmem (by simp)
  rw [show ts.splitBy _ = front ++ run :: back from h] at hchain
  obtain ⟨-, hrunBack, hfrontRun⟩ := List.isChain_append.1 hchain
  refine ⟨hne, hrun, ?_, ?_⟩
  · rcases List.eq_nil_or_concat front with rfl | ⟨front, part, rfl⟩
    · simp
    · obtain ⟨hpart, hhead, hdiffer⟩ := hfrontRun part (by simp) run (by simp)
      rw [hrun _ (List.head_mem hhead)] at hdiffer
      intro t ht
      rw [List.concat_eq_append, List.flatten_append, List.flatten_singleton,
        List.getLast?_append_of_ne_nil _ hpart, List.getLast?_eq_some_getLast hpart] at ht
      rw [← Option.some.inj ht]
      simpa using hdiffer
  · cases back with
    | nil => simp
    | cons part back =>
        obtain ⟨hlast, hpart, hdiffer⟩ := (List.isChain_cons_cons.1 hrunBack).1
        rw [hrun _ (List.getLast_mem hlast)] at hdiffer
        intro t ht
        rw [List.flatten_cons, List.head?_append_of_ne_nil _ hpart, List.head?_eq_some_head hpart]
          at ht
        rw [← Option.some.inj ht]
        simpa using hdiffer

theorem mem_newLineRuns_iff : run ∈ ts.newLineRuns ↔
    ∃ before after, ts = before ++ run ++ after ∧ IsNewLineRun before run after := by
  rw [newLineRuns, List.mem_filter]
  constructor
  · rintro ⟨hpart, hall⟩
    obtain ⟨front, back, hparts⟩ := List.append_of_mem hpart
    refine ⟨front.flatten, back.flatten, ?_, isNewLineRun_of_parts hparts (by simpa using hall)⟩
    rw [← flatten_parts ts, hparts]
    simp
  · rintro ⟨before, after, rfl, hrun⟩
    have hafter : (run ++ after).parts = run :: after.parts := by
      rw [parts, List.splitBy_append, List.splitBy_of_isChain hrun.ne_nil]
      · rfl
      · apply List.Pairwise.isChain
        apply List.pairwise_of_forall_mem_list
        intro t ht u hu
        simp [hrun.newLine t ht, hrun.newLine u hu]
      · intro t ht u hu
        simp [hrun.newLine t (List.mem_of_getLast? ht), hrun.ends u hu]
    have hbefore : (before ++ run ++ after).parts = before.parts ++ run :: after.parts := by
      rw [List.append_assoc, parts, List.splitBy_append]
      · exact congrArg (before.parts ++ ·) hafter
      · intro t ht u hu
        rw [List.head?_append_of_ne_nil _ hrun.ne_nil] at hu
        simp [hrun.newLine u (List.mem_of_head? hu), hrun.starts t ht]
    rw [hbefore]
    exact ⟨by simp, by simpa using hrun.newLine⟩

theorem flatten_newLineRuns (ts : TokenStream) :
    ts.newLineRuns.flatten = ts.filter Token.isNewLine := by
  have hparts (gs : List TokenStream) (hgs : gs ⊆ ts.parts) :
      (gs.filter (·.all Token.isNewLine)).flatten = gs.flatten.filter Token.isNewLine := by
    induction gs with
    | nil => rfl
    | cons part gs ih =>
        obtain ⟨hpart, hrest⟩ := List.cons_subset.1 hgs
        rw [List.flatten_cons, List.filter_append, ← ih hrest]
        rcases all_or_none_of_mem_parts hpart with hall | hnone
        · rw [List.filter_cons_of_pos (by simpa using hall), List.filter_eq_self.2 hall,
            List.flatten_cons]
        · have hnil : part.filter Token.isNewLine = [] := by simpa using hnone
          rw [List.filter_cons_of_neg (by simp [all_eq_false_of_mem_parts hpart hnone]), hnil,
            List.nil_append]
  rw [newLineRuns, hparts _ (List.Subset.refl _), flatten_parts]

/-- What is found at single line breaks, put together run by run. -/
theorem flatMap_newLineRuns {β : Type} {act : Nat → List β} {out : TokenStream → List β}
    (hrun : ∀ before run after, ts = before ++ run ++ after → IsNewLineRun before run after →
      ((run.zipIdx before.length).flatMap fun a => act a.2) = out run) :
    (ts.zipIdx.flatMap fun a => if a.1.isNewLine then act a.2 else []) =
      ts.newLineRuns.flatMap out := by
  have hparts (front back : List TokenStream) (hsplit : ts.parts = front ++ back) :
      ((back.flatten.zipIdx front.flatten.length).flatMap fun a =>
        if a.1.isNewLine then act a.2 else []) =
          (back.filter (·.all Token.isNewLine)).flatMap out := by
    induction back generalizing front with
    | nil => rfl
    | cons part back ih =>
        have hpart : part ∈ ts.parts := by simp [hsplit]
        have hrest := ih (front ++ [part]) (by simp [hsplit])
        rw [List.flatten_append, List.flatten_singleton, List.length_append] at hrest
        rw [List.flatten_cons, List.zipIdx_append, List.flatMap_append, hrest]
        rcases all_or_none_of_mem_parts hpart with hall | hnone
        · have hts : ts = front.flatten ++ part ++ back.flatten := by
            rw [← flatten_parts ts, hsplit]
            simp
          rw [List.filter_cons_of_pos (by simpa using hall), List.flatMap_cons,
            ← hrun _ _ _ hts (isNewLineRun_of_parts hsplit hall)]
          refine congrArg (· ++ _) (List.flatMap_congr fun a ha => ?_)
          rw [if_pos (hall _ (List.fst_mem_of_mem_zipIdx ha))]
        · rw [List.filter_cons_of_neg (by simp [all_eq_false_of_mem_parts hpart hnone]),
            List.flatMap_eq_nil_iff.2, List.nil_append]
          intro a ha
          simp [hnone _ (List.fst_mem_of_mem_zipIdx ha)]
  have hall := hparts [] ts.parts rfl
  rwa [flatten_parts] at hall

end TokenStream

section OneRun

open TokenStream

variable {m : Markup} {s : Text} {before run after : TokenStream}

theorem Rules.newLinesUpTo_of_isNewLineRun (h : IsNewLineRun before run after) {k : Nat}
    (hk : k < run.length) :
    newLinesUpTo (before ++ run ++ after) (before.length + k) = k + 1 := by
  have htake : (before ++ run ++ after).take (before.length + k) = before ++ run.take k := by
    rw [List.append_assoc, List.take_length_add_append, List.take_append_of_le_length hk.le]
  have hback : before.reverse.takeWhile Token.isNewLine = [] := by
    cases hreverse : before.reverse with
    | nil => rfl
    | cons t rest =>
        have ht := h.starts t (by rw [← List.head?_reverse, hreverse]; rfl)
        rw [List.takeWhile_cons_of_neg (by simp [ht])]
  change 1 + (((before ++ run ++ after).take _).reverse.takeWhile Token.isNewLine).length = k + 1
  rw [htake, List.reverse_append, List.takeWhile_append_of_pos, hback, List.append_nil,
    List.length_reverse, List.length_take_of_le hk.le, Nat.add_comm]
  intro t ht
  exact h.newLine t (List.mem_of_mem_take (List.mem_reverse.1 ht))

/-- The token before a run ends on the line of the first line break of the run, which is the first
line if there is no such token. -/
theorem lineOf_before_run {f : CheckedFile} (hf : f.tokens = some (m.tokenize s)) {first : Token}
    {rest : TokenStream} (htokens : m.tokenize s = before ++ first :: rest)
    (hfirst : first.isNewLine) (hbefore : ∀ t ∈ before.getLast?, t.isNewLine = false) (k : Nat) :
    f.lineOf (if k + 1 ≤ before.length + k then .token (before.length + k - (k + 1))
      else .wholeFile) = first.line := by
  have hat : (m.tokenize s)[before.length]? = some first := by simp [htokens]
  have hline := (Markup.startsOn_of_getElem? hat).last
  rw [if_pos (by simpa [Token.isNewLine] using hfirst), breaksBefore] at hline
  rcases List.eq_nil_or_concat before with rfl | ⟨front, t, rfl⟩
  · rw [if_neg (by simp), hline]
    rfl
  · rw [List.concat_eq_append] at *
    have ht : (m.tokenize s)[front.length]? = some t := by simp [htokens]
    have hnot : t.type ≠ .newLine := by simpa [Token.isNewLine] using hbefore t (by simp)
    have hindex : (front ++ [t]).length + k - (k + 1) = front.length := by
      rw [List.length_append, List.length_singleton]
      omega
    have htline := (Markup.startsOn_of_getElem? ht).last
    rw [if_neg hnot, breaksBefore, htokens, List.append_assoc, List.take_left] at htline
    rw [if_pos (by rw [List.length_append, List.length_singleton]; omega), hindex,
      CheckedFile.lineOf_token hf ht, htline, hline, htokens, List.take_left]
    simp [Nat.add_assoc]

theorem flatMap_range_ite {β : Type} (R : Nat → β) (n : Nat) :
    ((List.range n).flatMap fun k => if Rules.maxNewLines < k + 1 then [R (k + 1)] else []) =
      (List.range' 4 (n - 3)).map R := by
  induction n with
  | zero => rfl
  | succ n ih =>
      rw [List.range_succ, List.flatMap_append, ih, List.flatMap_singleton]
      change _ ++ (if 3 < n + 1 then _ else _) = _
      by_cases hn : 3 < n + 1
      · rw [if_pos hn, show n + 1 - 3 = n - 3 + 1 by omega, List.range'_1_concat,
          List.map_append, show 4 + (n - 3) = n + 1 by omega]
        rfl
      · rw [if_neg hn, show n + 1 - 3 = n - 3 by omega, List.append_nil]

/-- The reports over one run. -/
theorem flatMap_emptyLinesAt {f : CheckedFile} (hf : f.tokens = some (m.tokenize s)) {first : Token}
    {rest : TokenStream} (htokens : m.tokenize s = before ++ first :: rest ++ after)
    (hrun : IsNewLineRun before (first :: rest) after) :
    (((first :: rest).zipIdx before.length).flatMap fun a =>
      emptyLinesAt f (m.tokenize s) a.2) =
        (List.range' 4 ((first :: rest).length - 3)).map (emptyLinesReport first.line) := by
  have hat {k : Nat} (hk : k < (first :: rest).length) :
      emptyLinesAt f (m.tokenize s) (before.length + k) =
        if Rules.maxNewLines < k + 1 then [emptyLinesReport first.line (k + 1)] else [] := by
    have hcount := Rules.newLinesUpTo_of_isNewLineRun hrun hk
    rw [← htokens] at hcount
    have hline := lineOf_before_run hf (htokens.trans (List.append_assoc _ _ _))
      (hrun.newLine first List.mem_cons_self) hrun.starts k
    rw [emptyLinesAt, hcount, hline]
  calc ((first :: rest).zipIdx before.length).flatMap (fun a => emptyLinesAt f (m.tokenize s) a.2)
    _ = (((first :: rest).zipIdx before.length).map Prod.snd).flatMap
          (emptyLinesAt f (m.tokenize s)) := by rw [List.flatMap_map]
    _ = (List.range (first :: rest).length).flatMap
          fun k => emptyLinesAt f (m.tokenize s) (before.length + k) := by
        rw [List.zipIdx_map_snd, List.range'_eq_map_range, List.flatMap_map]
    _ = (List.range (first :: rest).length).flatMap fun k =>
          if Rules.maxNewLines < k + 1 then [emptyLinesReport first.line (k + 1)] else [] :=
        List.flatMap_congr fun k hk => hat (List.mem_range.1 hk)
    _ = _ := flatMap_range_ite _ _

end OneRun

/-- The reports on a run of line breaks: its fourth line break and each one behind it is counted, on
the line of the first one. -/
def runReports : TokenStream → List Diagnostic
  | [] => []
  | first :: rest => (List.range' 4 ((first :: rest).length - 3)).map (emptyLinesReport first.line)

theorem length_runReports (run : TokenStream) : (runReports run).length = run.length - 3 := by
  cases run <;> simp [runReports]

theorem place_of_mem_runReports {run : TokenStream} {d : Diagnostic} (h : d ∈ runReports run) :
    d.column = 1 ∧ d.severity = .error ∧ ∃ t ∈ run, d.line = t.line := by
  cases run with
  | nil => simp [runReports] at h
  | cons first rest =>
      obtain ⟨count, -, rfl⟩ := List.mem_map.1 h
      exact ⟨rfl, rfl, first, List.mem_cons_self, rfl⟩

theorem Context.filter_emptyLines_eq {c : Context} {path s : Text}
    (h : c.builtinLinter.Unhindered whitespaceId path s) :
    (c.builtinLinter.diagnosticsOf path s).filter
        (fun d => d.source == "Whitespace.SuperfluousWhitespace.EmptyLines".toList) =
      (c.markup.tokenize s).newLineRuns.flatMap runReports := by
  have hfound : ((c.markup.tokenize s).zipIdx.flatMap fun a =>
      if a.1.isNewLine then
        emptyLinesAt (c.builtinLinter.opened path s) (c.markup.tokenize s) a.2
      else []) = (c.markup.tokenize s).newLineRuns.flatMap runReports := by
    apply TokenStream.flatMap_newLineRuns
    intro before run after htokens hrun
    cases run with
    | nil => exact absurd rfl hrun.ne_nil
    | cons first rest => exact flatMap_emptyLinesAt rfl htokens hrun
  have hlines : (c.markup.tokenize s).newLineRuns.flatten.Pairwise fun t u => t.line ≤ u.line := by
    rw [TokenStream.flatten_newLineRuns]
    exact (Lexeme.pairwise_line_place 1 _).filter _
  simp only [Token.isNewLine, beq_iff_eq] at hfound
  rw [filter_emptyLines h, hfound]
  apply inReportOrder_of_lines .error
  · intro d hd
    obtain ⟨run, -, hd⟩ := List.mem_flatMap.1 hd
    obtain ⟨hcolumn, hseverity, -⟩ := place_of_mem_runReports hd
    exact ⟨hcolumn, hseverity⟩
  · rw [List.pairwise_flatMap]
    constructor
    · intro run _
      cases run with
      | nil => exact List.Pairwise.nil
      | cons first rest =>
          rw [runReports, List.pairwise_map]
          exact List.pairwise_of_forall fun _ _ => Nat.le_refl _
    · apply (List.pairwise_flatten.1 hlines).2.imp
      intro run run' hruns d hd d' hd'
      obtain ⟨-, -, t, ht, hline⟩ := place_of_mem_runReports hd
      obtain ⟨-, -, t', ht', hline'⟩ := place_of_mem_runReports hd'
      rw [hline, hline']
      exact hruns t ht t' ht'

/-- The reports on empty lines, run by run: a run of `n` line breaks that cannot be made longer has
`n - 3` reports, which count from 4 up to `n`, all on the line of its first line break. That is the
first line for a run at the start of the file. The reports on a file are those on its runs. -/
theorem emptyLines_reports {config : Config} {l : Linter Unit}
    (h : Linter.withBuiltinRules config = .ok l) {path s : Text}
    (hrule : l.Unhindered whitespaceId path s) :
    let tokens := l.context.markup.tokenize s
    let reports := (l.diagnosticsOf path s).filter fun d =>
      d.source == "Whitespace.SuperfluousWhitespace.EmptyLines".toList
    reports = tokens.newLineRuns.flatMap runReports ∧
    reports.length = (tokens.newLineRuns.map fun run => run.length - 3).sum ∧
    (∀ run, run ∈ tokens.newLineRuns ↔
      ∃ before after, tokens = before ++ run ++ after ∧ before.IsNewLineRun run after) ∧
    tokens.newLineRuns.flatten = tokens.filter Token.isNewLine ∧
    ∀ first rest, tokens = first :: rest → first.isNewLine → first.line = 1 := by
  obtain ⟨c, -, rfl⟩ := exists_context_of_withBuiltinRules h
  intro tokens reports
  have hreports : reports = tokens.newLineRuns.flatMap runReports :=
    Context.filter_emptyLines_eq hrule
  refine ⟨hreports, ?_, fun run => TokenStream.mem_newLineRuns_iff,
    tokens.flatten_newLineRuns, ?_⟩
  · simp only [hreports, List.length_flatMap, length_runReports]
  · intro first rest htokens hfirst
    have hat : (c.markup.tokenize s)[0]? = some first := by
      change tokens[0]? = some first
      rw [htokens]
      rfl
    have hline := (Markup.startsOn_of_getElem? hat).last
    rw [if_pos (by simpa [Token.isNewLine] using hfirst)] at hline
    exact hline

/-- Five line breaks at the start of a file, and four behind a comment over two lines. -/
theorem emptyLines_reports_two_runs :
    let s := "\n\n\n\n\n\x7b*\n*\x7d\n\n\n\na".toList
    ∃ l, Linter.withBuiltinRules {} = .ok l ∧ l.Unhindered whitespaceId [] s ∧
      (l.diagnosticsOf [] s).filter
          (fun d => d.source == "Whitespace.SuperfluousWhitespace.EmptyLines".toList) =
        [emptyLinesReport 1 4, emptyLinesReport 1 5, emptyLinesReport 7 4] := by
  intro s
  let c : Context := ⟨{}, .standard, []⟩
  have hl : Linter.withBuiltinRules {} = .ok c.builtinLinter := by
    rw [withBuiltinRules_eq]
    rfl
  have hrule : c.builtinLinter.Unhindered whitespaceId [] s := ⟨by decide +kernel, fun _ => rfl⟩
  refine ⟨c.builtinLinter, hl, hrule, (emptyLines_reports hl hrule).1.trans ?_⟩
  decide +kernel

end TemplateLint
