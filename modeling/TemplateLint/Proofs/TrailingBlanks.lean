import TemplateLint.Proofs.RuleReports
import TemplateLint.Proofs.TokenShapes

/-!
# White space at the end of lines

The rule about white space looks at the type of the token before a line break only. That this is as
good as looking at the character before it takes the grammar of tokens: text holds no white space, a
closed comment ends in `>`, an open one is followed by no line break, and a tag ends in the right
delimiter.
-/

namespace TemplateLint

section Findings

/-- The rule about white space at the end of lines and empty lines. -/
def whitespaceId : RuleId := ⟨"Whitespace".toList, "SuperfluousWhitespace".toList⟩

def endLineReport (line : Nat) : Diagnostic :=
  ⟨line, 1, .error, "Whitespace found at end of line".toList,
    "Whitespace.SuperfluousWhitespace.EndLine".toList⟩

def emptyLinesReport (line count : Nat) : Diagnostic :=
  ⟨line, 1, .error, "Found ".toList ++ decimal count ++ " empty lines in a row.".toList,
    "Whitespace.SuperfluousWhitespace.EmptyLines".toList⟩

variable {ts : TokenStream} {f : CheckedFile} {i : Nat} {t : Token}

namespace Rules

theorem filterMap_reportTrailing (hid : f.activeRule = some whitespaceId)
    (hf : f.tokens = some ts) (ht : ts[i]? = some t) :
    (reportTrailing ts i).filterMap (FileOp.diagnostic? f) =
      if (ts.take i).getLast?.any fun u => u.type == .tab || u.type == .space then
        [endLineReport t.line]
      else [] := by
  have hprevious : (if i = 0 then none else ts[i - 1]?) = (ts.take i).getLast? := by
    obtain ⟨hlt, -⟩ := List.getElem?_eq_some_iff.1 ht
    have hlt' : i - 1 < ts.length := by omega
    rw [List.getLast?_take, List.getElem?_eq_getElem hlt']
    rfl
  have hdiagnostic : (reportError "Whitespace found at end of line" (.token i)
      "EndLine").diagnostic? f = some (endLineReport t.line) := by
    rw [diagnostic?_reportError hid _ _ (by decide), CheckedFile.lineOf_token hf ht,
      formatMessage_of_not_mem _ (by decide)]
    rfl
  rw [reportTrailing, hprevious]
  split
  · rw [List.filterMap_cons_some hdiagnostic, List.filterMap_nil]
  · rfl

theorem filterMap_reportEmptyLines (hid : f.activeRule = some whitespaceId) (i count : Nat) :
    (reportEmptyLines i count).filterMap (FileOp.diagnostic? f) =
      if maxNewLines < count then
        [emptyLinesReport (f.lineOf (if count ≤ i then .token (i - count) else .wholeFile)) count]
      else [] := by
  have hsplit : "Found \x7b\x7d empty lines in a row.".toList =
      "Found ".toList ++ '\x7b' :: '\x7d' :: " empty lines in a row.".toList := by decide
  have hdiagnostic (position : Position) : (reportError "Found \x7b\x7d empty lines in a row."
      position "EmptyLines" [decimal count]).diagnostic? f =
        some (emptyLinesReport (f.lineOf position) count) := by
    rw [diagnostic?_reportError hid _ _ (by decide), hsplit,
      formatMessage_placeholder (by decide) (by decide)]
    rfl
  rw [reportEmptyLines]
  split
  · rw [List.filterMap_cons_some (hdiagnostic _), List.filterMap_nil]
  · rfl

end Rules

variable {c : Context} {path s : Text}

theorem Context.filter_whitespace (h : c.builtinLinter.Unhindered whitespaceId path s)
    {p : Diagnostic → Bool} (hp : ∀ d, p d → scopeCovers whitespaceId.text d.source) :
    (c.builtinLinter.diagnosticsOf path s).filter p =
      inReportOrder ((c.markup.tokenize s).zipIdx.flatMap fun a =>
        if a.1.type = .newLine then
          ((Rules.reportTrailing (c.markup.tokenize s) a.2 ++ Rules.reportEmptyLines a.2
            (Rules.newLinesUpTo (c.markup.tokenize s) a.2)).filterMap (FileOp.diagnostic?
              ((c.builtinLinter.opened path s).setActiveRule (some whitespaceId)))).filter p
        else []) := by
  have he : ⟨whitespaceId, [.newLine], Rules.superfluousWhitespace⟩ ∈
      (TemplateLint.builtinEntries : List (RegisteredRule Unit)) := by
    unfold whitespaceId
    simp [TemplateLint.builtinEntries]
  have hrule : (Rules.superfluousWhitespace : FileRule Unit) =
      .ofTokens "Rules.Whitespace.SuperfluousWhitespaceRule".toList [.newLine]
        fun _ tokens position =>
          if position ≤ tokens.length then
            (Rules.reportTrailing tokens position ++
              Rules.reportEmptyLines position (Rules.newLinesUpTo tokens position), .done)
          else
            (Rules.reportTrailing tokens position, .crashed (some ("range end index ".toList ++
              decimal position ++ " out of range for slice of length ".toList ++
                decimal tokens.length))) := rfl
  have hopened : (c.builtinLinter.opened path s).tokens = some (c.markup.tokenize s) := rfl
  rw [filter_diagnosticsOf he h hp]
  refine congrArg inReportOrder (List.flatMap_congr fun a ha => ?_)
  obtain ⟨hlt, -⟩ := List.getElem?_eq_some_iff.1 (List.mem_zipIdx_iff_getElem?.1 ha)
  rw [RegisteredRule.findings_ofTokens hrule hopened, if_pos hlt.le]
  by_cases htype : a.1.type = .newLine <;> simp [htype]

/-- The two kinds of report have different sources, so each can be looked at by itself. -/
theorem Context.filter_endLine (h : c.builtinLinter.Unhindered whitespaceId path s) :
    (c.builtinLinter.diagnosticsOf path s).filter
        (fun d => d.source == "Whitespace.SuperfluousWhitespace.EndLine".toList) =
      inReportOrder ((c.markup.tokenize s).zipIdx.flatMap fun a =>
        if a.1.type = .newLine ∧ ((c.markup.tokenize s).take a.2).getLast?.any
            fun u => u.type == .tab || u.type == .space then
          [endLineReport a.1.line]
        else []) := by
  rw [filter_whitespace h]
  · refine congrArg inReportOrder (List.flatMap_congr fun a ha => ?_)
    have hat := List.mem_zipIdx_iff_getElem?.1 ha
    rw [List.filterMap_append, Rules.filterMap_reportTrailing rfl rfl hat,
      Rules.filterMap_reportEmptyLines rfl]
    split_ifs <;> simp_all [endLineReport, emptyLinesReport]
  · intro d hd
    rw [beq_iff_eq.1 hd]
    decide

/-- What is said about empty lines at the line break with index `i`. -/
def emptyLinesAt (f : CheckedFile) (ts : TokenStream) (i : Nat) : List Diagnostic :=
  let count := Rules.newLinesUpTo ts i
  if Rules.maxNewLines < count then
    [emptyLinesReport (f.lineOf (if count ≤ i then .token (i - count) else .wholeFile)) count]
  else []

theorem Context.filter_emptyLines (h : c.builtinLinter.Unhindered whitespaceId path s) :
    (c.builtinLinter.diagnosticsOf path s).filter
        (fun d => d.source == "Whitespace.SuperfluousWhitespace.EmptyLines".toList) =
      inReportOrder ((c.markup.tokenize s).zipIdx.flatMap fun a =>
        if a.1.type = .newLine then
          emptyLinesAt (c.builtinLinter.opened path s) (c.markup.tokenize s) a.2
        else []) := by
  rw [filter_whitespace h]
  · refine congrArg inReportOrder (List.flatMap_congr fun a ha => ?_)
    have hat := List.mem_zipIdx_iff_getElem?.1 ha
    have hline (position : Position) : ((c.builtinLinter.opened path s).setActiveRule
        (some whitespaceId)).lineOf position =
          (c.builtinLinter.opened path s).lineOf position := by cases position <;> rfl
    rw [List.filterMap_append, Rules.filterMap_reportTrailing rfl rfl hat,
      Rules.filterMap_reportEmptyLines rfl, hline, emptyLinesAt]
    split_ifs <;> simp_all [endLineReport, emptyLinesReport]
  · intro d hd
    rw [beq_iff_eq.1 hd]
    decide

end Findings

section LastCharacters

def endsInBlank (s : Text) : Bool := s.getLast?.any fun c => c == ' ' || c == '\t'

theorem endsInBlank_append {t : Text} (s : Text) (h : t ≠ []) :
    endsInBlank (s ++ t) = endsInBlank t := by
  rw [endsInBlank, endsInBlank, List.getLast?_append_of_ne_nil s h]

theorem not_endsInBlank {s : Text} (h : ∀ c ∈ s, c ≠ ' ' ∧ c ≠ '\t') : endsInBlank s = false := by
  rw [endsInBlank, Option.any_eq_false]
  intro c hc
  simp [h c (List.mem_of_getLast? hc)]

/-- Of the lexemes that something may follow, runs of spaces and tabs end in a blank. -/
theorem Lexeme.WellFormed.endsInBlank_iff {l : Lexeme} (h : l.WellFormed)
    (hclosed : ¬ (l.type = .htmlComment ∧ NeverCloses l.content)) :
    endsInBlank l.content ↔ l.type = .tab ∨ l.type = .space := by
  cases h with
  | newLine b => cases b <;> simp [endsInBlank, LineBreak.text]
  | tab => simp [endsInBlank]
  | @space s hne hspace =>
      have hlast : s.getLast? = some ' ' := by
        rw [List.getLast?_eq_some_getLast hne, hspace _ (List.getLast_mem hne)]
      simp [endsInBlank, hlast]
  | htmlText _ hplain _ =>
      have hnot := not_endsInBlank fun c hc => ⟨(hplain c hc).1, (hplain c hc).2.1⟩
      simp [hnot]
  | htmlComment _ hclose =>
      rcases hclose with ⟨u, -, rfl, -⟩ | hnever
      · rw [endsInBlank_append u (by decide)]
        simp [endsInBlank, commentCloser]
      · exact absurd ⟨rfl, hnever⟩ hclosed

variable {m : Markup} {s : Text} {i : Nat} {t u : Token}

theorem Markup.endsInBlank_iff (hright : endsInBlank m.right = false)
    (ht : (m.tokenize s)[i]? = some t) (hu : (m.tokenize s)[i + 1]? = some u)
    (hnew : u.type = .newLine) : endsInBlank t.content ↔ t.type = .tab ∨ t.type = .space := by
  have hmem := List.mem_of_getElem? ht
  by_cases htag : t.type.isTagType
  · obtain ⟨body, hcontent, -, -⟩ := exists_tagBody_of_mem_tokenize hmem htag
    rw [hcontent, endsInBlank_append _ m.right_ne_nil, hright]
    revert htag
    cases t.type <;> simp [TokenType.isTagType, TokenType.isTemplateComment]
  · have hnext : ¬ u.type.isTagType := by
      simp [hnew, TokenType.isTagType, TokenType.isTemplateComment]
    rcases mayPrecede_of_getElem? ht hu with h | h | h
    · exact absurd h htag
    · exact absurd h hnext
    · exact (wellFormed_of_mem_tokenize hmem (by simpa using htag)).endsInBlank_iff h.comment_closed

/-- The type of the token before a line break tells what the character before it is. -/
theorem Markup.any_getLast?_take (hright : endsInBlank m.right = false)
    (hu : (m.tokenize s)[i]? = some u) (hnew : u.type = .newLine) :
    (((m.tokenize s).take i).getLast?.any fun t => t.type == .tab || t.type == .space) =
      endsInBlank (s.take ((m.tokenize s).offset i)) := by
  cases i with
  | zero => simp [TokenStream.offset, TokenStream.source, endsInBlank]
  | succ i =>
      have hlt : i < (m.tokenize s).length := by
        have := (List.getElem?_eq_some_iff.1 hu).1
        omega
      have ht := List.getElem?_eq_getElem hlt
      have hblank := endsInBlank_iff hright ht hu hnew
      rw [← source_take_tokenize, List.take_add_one, ht, Option.toList_some, List.getLast?_concat,
        TokenStream.source, List.flatMap_append, List.flatMap_singleton,
        endsInBlank_append _ (m.content_ne_nil_of_mem_tokenize s (List.mem_of_getElem? ht)),
        Bool.eq_iff_iff, hblank]
      simp

end LastCharacters

theorem flatMap_ite_singleton {α β : Type} (p : α → Bool) (g : α → β) (l : List α) :
    (l.flatMap fun a => if p a then [g a] else []) = (l.filter p).map g := by
  induction l with
  | nil => rfl
  | cons a l ih => by_cases hp : p a <;> simp [hp, ih]

theorem Context.filter_endLine_eq {c : Context} {path s : Text}
    (hright : endsInBlank c.markup.right = false)
    (h : c.builtinLinter.Unhindered whitespaceId path s) :
    (c.builtinLinter.diagnosticsOf path s).filter
        (fun d => d.source == "Whitespace.SuperfluousWhitespace.EndLine".toList) =
      ((c.markup.tokenize s).zipIdx.filter fun a =>
        a.1.type == .newLine && endsInBlank (s.take ((c.markup.tokenize s).offset a.2))).map
          fun a => endLineReport a.1.line := by
  have hfound : ((c.markup.tokenize s).zipIdx.flatMap fun a =>
      if a.1.type = .newLine ∧ ((c.markup.tokenize s).take a.2).getLast?.any
        fun u => u.type == .tab || u.type == .space then [endLineReport a.1.line] else []) =
      ((c.markup.tokenize s).zipIdx.filter fun a =>
        a.1.type == .newLine && endsInBlank (s.take ((c.markup.tokenize s).offset a.2))).map
          fun a => endLineReport a.1.line := by
    rw [← flatMap_ite_singleton]
    refine List.flatMap_congr fun a ha => ?_
    by_cases hnew : a.1.type = .newLine
    · rw [Markup.any_getLast?_take hright (List.mem_zipIdx_iff_getElem?.1 ha) hnew]
      simp [hnew]
    · simp [hnew]
  have hlines : ((c.markup.tokenize s).zipIdx.map Prod.fst).Pairwise fun t u =>
      t.line ≤ u.line := by
    rw [List.zipIdx_map_fst]
    exact Lexeme.pairwise_line_place 1 _
  rw [filter_endLine h, hfound]
  apply inReportOrder_of_lines .error
  · intro d hd
    obtain ⟨a, -, rfl⟩ := List.mem_map.1 hd
    exact ⟨rfl, rfl⟩
  · rw [List.pairwise_map] at hlines ⊢
    exact hlines.filter _

/-- Where the right delimiter does not end in a space or a tab, the reports on white space at the
end of lines are those on the line breaks behind a space or a tab, one for each and in their order.
The line breaks outside tags and HTML comments are the tokens that are line breaks. -/
theorem endLine_reports {config : Config} {l : Linter Unit}
    (h : Linter.withBuiltinRules config = .ok l)
    (hright : ∀ c ∈ config.rightDelimiter.getLast?, c ≠ ' ' ∧ c ≠ '\t') {path s : Text}
    (hrule : l.Unhindered whitespaceId path s) :
    let tokens := l.context.markup.tokenize s
    (l.diagnosticsOf path s).filter
        (fun d => d.source == "Whitespace.SuperfluousWhitespace.EndLine".toList) =
      (tokens.zipIdx.filter fun a =>
        a.1.type == .newLine && endsInBlank (s.take (tokens.offset a.2))).map
          (fun a => endLineReport a.1.line) ∧
    ∀ t ∈ tokens, t.type.isTagType = false → t.type ≠ .htmlComment →
      (t.type = .newLine ∧ ∃ b : LineBreak, t.content = b.text) ∨
        (t.type ≠ .newLine ∧ Unbroken t.content) := by
  obtain ⟨c, hc, rfl⟩ := exists_context_of_withBuiltinRules h
  have hlast : endsInBlank c.markup.right = false := by
    rw [(Config.delimiters_of_markup (Context.ofConfig_eq_ok hc).1).2, endsInBlank,
      Option.any_eq_false]
    intro d hd
    simpa using hright d hd
  exact ⟨Context.filter_endLine_eq hlast hrule,
    fun t ht htag hcomment => Markup.exists_lineBreak_or_unbroken ht htag hcomment⟩

/-- Blanks behind text and behind a tag, but none at the end of a comment or inside a tag. -/
theorem endLine_reports_behind_tag :
    let s := "a \t\n\x7bb \n\x7d \r\n<!-- \n-->\n".toList
    (∀ c ∈ ({} : Config).rightDelimiter.getLast?, c ≠ ' ' ∧ c ≠ '\t') ∧
    ∃ l, Linter.withBuiltinRules {} = .ok l ∧ l.Unhindered whitespaceId [] s ∧
      (l.diagnosticsOf [] s).filter
          (fun d => d.source == "Whitespace.SuperfluousWhitespace.EndLine".toList) =
        [endLineReport 1, endLineReport 3] := by
  intro s
  let c : Context := ⟨{}, .standard, []⟩
  have hl : Linter.withBuiltinRules {} = .ok c.builtinLinter := by
    rw [withBuiltinRules_eq]
    rfl
  have hright : ∀ c ∈ ({} : Config).rightDelimiter.getLast?, c ≠ ' ' ∧ c ≠ '\t' := by
    intro c hc
    obtain rfl : '\x7d' = c := Option.some.inj hc
    decide
  have hrule : c.builtinLinter.Unhindered whitespaceId [] s := ⟨by decide +kernel, fun _ => rfl⟩
  refine ⟨hright, c.builtinLinter, hl, hrule, (endLine_reports hl hright hrule).1.trans ?_⟩
  decide +kernel

end TemplateLint
