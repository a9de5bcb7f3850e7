import TemplateLint.Proofs.RuleReports
import TemplateLint.Proofs.TagSegments

/-!
# Files that no comment documents

The rule about missing comments looks for the token that documents a file, and acts at the first
line break. There is such a token exactly if some tag of the template is a comment. A comment that
opts out of being checked is one, so ending the walk there hides no report.
-/

namespace TemplateLint

/-- Whether some tag of a template is a comment: its body starts with a star behind blanks. -/
def Markup.HasComment (m : Markup) (s : Text) : Prop :=
  ∃ body, .tag (m.left ++ body ++ m.right) ∈ m.split s ∧
    (body.dropWhile isBlank).head? = some '*'

namespace Markup

variable {m : Markup} {s : Text}

theorem isTagType_of_isTemplateComment {type : TokenType} (h : type.isTemplateComment) :
    type.isTagType := by
  simp [TokenType.isTagType, h]

theorem tag_mem_split_of_mem_tokenize {t : Token} (ht : t ∈ m.tokenize s)
    (htag : t.type.isTagType) : .tag t.content ∈ m.split s := by
  have hmem : t.content ∈ (m.split s).filterMap Segment.tag? := by
    rw [← filter_isTagType_tokenize]
    exact List.mem_map_of_mem (List.mem_filter.2 ⟨ht, htag⟩)
  obtain ⟨g, hg, hcontent⟩ := List.mem_filterMap.1 hmem
  cases g with
  | text u => simp [Segment.tag?] at hcontent
  | tag u =>
      obtain rfl : u = t.content := Option.some.inj hcontent
      exact hg

theorem exists_token_of_tag_mem_split {u : Text} (h : .tag u ∈ m.split s) :
    ∃ t ∈ m.tokenize s, t.type.isTagType ∧ t.content = u := by
  have hmem : u ∈ (m.split s).filterMap Segment.tag? := List.mem_filterMap.2 ⟨.tag u, h, rfl⟩
  rw [← filter_isTagType_tokenize] at hmem
  obtain ⟨t, ht, rfl⟩ := List.mem_map.1 hmem
  obtain ⟨ht, htag⟩ := List.mem_filter.1 ht
  exact ⟨t, ht, htag, rfl⟩

theorem hasComment_iff_exists_token :
    m.HasComment s ↔ ∃ t ∈ m.tokenize s, t.type.isTemplateComment := by
  constructor
  · rintro ⟨body, htag, hstar⟩
    obtain ⟨t, ht, htype, hcontent⟩ := exists_token_of_tag_mem_split htag
    obtain ⟨body', hcontent', hcomment⟩ := exists_body_of_mem_tokenize ht htype
    obtain rfl : body = body' := by simpa using hcontent.symm.trans hcontent'
    exact ⟨t, ht, hcomment.2 hstar⟩
  · rintro ⟨t, ht, hcomment⟩
    have htag := isTagType_of_isTemplateComment hcomment
    obtain ⟨body, hcontent, hstar⟩ := exists_body_of_mem_tokenize ht htag
    exact ⟨body, hcontent ▸ tag_mem_split_of_mem_tokenize ht htag, hstar.1 hcomment⟩

/-- The first comment of a template is the one that documents it. -/
theorem hasType_docComment_iff : (m.tokenize s).hasType .docComment ↔ m.HasComment s := by
  rw [TokenStream.hasType, List.any_eq_true, hasComment_iff_exists_token]
  constructor
  · rintro ⟨t, ht, htype⟩
    exact ⟨t, ht, by simp [beq_iff_eq.1 htype, TokenType.isTemplateComment]⟩
  · intro h
    have hsome : ((m.tokenize s).find? fun t => t.type.isTemplateComment).isSome := by
      simpa [List.find?_isSome] using h
    obtain ⟨first, hfirst⟩ := Option.isSome_iff_exists.1 hsome
    obtain ⟨hcomment, front, back, htokens, hfront⟩ := List.find?_eq_some_iff_append.1 hfirst
    have hat : (m.tokenize s)[front.length]? = some first := by simp [htokens]
    refine ⟨first, List.mem_of_getElem? hat, beq_iff_eq.2 ?_⟩
    rw [docComment_iff_first_comment hat, htokens, List.take_left]
    exact ⟨hcomment, fun u hu => by simpa using hfront u hu⟩

end Markup

section Reports

/-- The rule about files that no comment documents. -/
def docCommentId : RuleId := ⟨"Commenting".toList, "FileNoComment".toList⟩

def missingCommentReport (line : Nat) : Diagnostic :=
  ⟨line, 1, .error, "Missing file doc comment".toList,
    "Commenting.FileNoComment.Missing".toList⟩

variable {c : Context} {path s : Text}

theorem mem_builtinEntries_fileNoComment : ⟨docCommentId, [.newLine], Rules.fileNoComment⟩ ∈
    (TemplateLint.builtinEntries : List (RegisteredRule Unit)) := by
  unfold docCommentId
  simp [TemplateLint.builtinEntries]

theorem Linter.diagnosticsOf_of_optsOut {l : Linter Unit} (hl : l.OnlyReports)
    (h : (l.context.markup.tokenize s).any Token.optsOut) : l.diagnosticsOf path s = [] := by
  rw [diagnosticsOf_eq hl, findings, if_pos h]
  exact inReportOrder_nil

namespace Context

theorem filter_docComment_of_none (h : c.builtinLinter.Unhindered docCommentId path s)
    (hnone : (c.markup.tokenize s).find? (fun t => t.type == .newLine) = none) :
    (c.builtinLinter.diagnosticsOf path s).filter
        (fun d => scopeCovers docCommentId.text d.source) = [] := by
  have hflat : ((c.markup.tokenize s).zipIdx.flatMap fun a =>
      if [TokenType.newLine].contains a.1.type then
        RegisteredRule.findings ⟨docCommentId, [.newLine], Rules.fileNoComment⟩ ()
          (c.builtinLinter.opened path s) a.2
      else []) = [] := by
    rw [List.flatMap_eq_nil_iff]
    intro a ha
    have hnot := List.find?_eq_none.1 hnone a.1 (List.fst_mem_of_mem_zipIdx ha)
    simp_all
  have hreports := filter_scopeCovers_diagnosticsOf mem_builtinEntries_fileNoComment h
  rw [hflat, inReportOrder_nil] at hreports
  exact hreports

theorem filter_docComment_of_some (h : c.builtinLinter.Unhindered docCommentId path s)
    {first : Token}
    (hsome : (c.markup.tokenize s).find? (fun t => t.type == .newLine) = some first) :
    (c.builtinLinter.diagnosticsOf path s).filter
        (fun d => scopeCovers docCommentId.text d.source) =
      if (c.markup.tokenize s).hasType .docComment then []
      else [missingCommentReport first.line] := by
  obtain ⟨htype, front, back, htokens, hfront⟩ := List.find?_eq_some_iff_append.1 hsome
  have hrule : (Rules.fileNoComment : FileRule Unit) =
      .ofTokens "Rules.Commenting.FileNoCommentRule".toList [.newLine] fun _ tokens position =>
        if isFirstNewLine tokens position && !TokenStream.hasType tokens .docComment then
          ([reportError "Missing file doc comment" (.token position) "Missing"], .done)
        else ([], .done) := rfl
  have hreports := filter_wholeFile mem_builtinEntries_fileNoComment h rfl hrule htokens
    (by simpa using hfront) (by simpa using htype)
  have hat : (c.markup.tokenize s)[front.length]? = some first := by simp [htokens]
  rw [hreports]
  by_cases hdoc : (c.markup.tokenize s).hasType .docComment
  · simp [hdoc]
  · rw [if_neg hdoc, if_pos (by simpa using hdoc), inReportOrder_reportError rfl rfl hat _
      (by decide), formatMessage_of_not_mem [] (by decide)]
    rfl

/-- A token that opts out is a comment, so without comments the walk goes to the end. -/
theorem unhindered_of_not_hasComment
    (h : ∀ code, c.isSuppressed path (docCommentId.sourceFor code) = false)
    (hcomment : ¬ c.markup.HasComment s) : c.builtinLinter.Unhindered docCommentId path s := by
  refine ⟨fun t ht => ?_, h⟩
  have hnot : ¬ t.type.isTemplateComment := fun htype =>
    hcomment (Markup.hasComment_iff_exists_token.2 ⟨t, ht, htype⟩)
  simp [Token.optsOut, hnot]

/-- With a comment or without a line break nothing is reported, whether or not the walk ends
early. -/
theorem filter_docComment_eq_nil
    (h : ∀ code, c.isSuppressed path (docCommentId.sourceFor code) = false)
    (hnone : c.markup.HasComment s ∨
      (c.markup.tokenize s).find? (fun t => t.type == .newLine) = none) :
    (c.builtinLinter.diagnosticsOf path s).filter
        (fun d => scopeCovers docCommentId.text d.source) = [] := by
  by_cases hopts : (c.markup.tokenize s).any Token.optsOut
  · rw [Linter.diagnosticsOf_of_optsOut (onlyReports_builtinLinter c) hopts, List.filter_nil]
  · have hrule : c.builtinLinter.Unhindered docCommentId path s := by
      have hmarked : ∀ t ∈ c.markup.tokenize s, t.optsOut = false := by simpa using hopts
      exact ⟨hmarked, h⟩
    cases hfind : (c.markup.tokenize s).find? (fun t => t.type == .newLine) with
    | none => exact filter_docComment_of_none hrule hfind
    | some first =>
        have hcomment : c.markup.HasComment s := hnone.resolve_right (by simp [hfind])
        have hdoc := Markup.hasType_docComment_iff.2 hcomment
        rw [filter_docComment_of_some hrule hfind, if_pos hdoc]

end Context

theorem Linter.diagnostics_of_fileReport? {l : Linter Unit} (hl : l.OnlyReports)
    {r : FileReport} (h : l.fileReport? ⟨path, some s⟩ = some r) :
    r.diagnostics = l.diagnosticsOf path s := by
  obtain ⟨ds, hfound, rfl⟩ := Option.map_eq_some_iff.1 h
  rw [found?] at hfound
  split at hfound
  · simp at hfound
  · simp only [Option.ite_none_left_eq_some, Option.some.injEq] at hfound
    rw [diagnosticsOf_eq hl, hfound.2]
    rfl

end Reports

/-- With the rules that come with the linter, a run reports on the files that are not skipped, each
in its place. If nothing in the name of the rule is suppressed, a missing comment is reported once,
on the line of the first line break, where there is a line break and no tag is a comment, and never
otherwise. -/
theorem missingComment_reports {config : Config} {l : Linter Unit}
    (h : Linter.withBuiltinRules config = .ok l) (sources : List SourceFile) :
    List.Forall₂ (fun source r => r.path = source.path ∧ ∀ s, source.contents = some s →
        (∀ code, l.context.isSuppressed source.path (docCommentId.sourceFor code) = false) →
        let firstBreak := (l.context.markup.tokenize s).find? fun t => t.type == .newLine
        let reports := r.diagnostics.filter fun d =>
          d.source == "Commenting.FileNoComment.Missing".toList
        (∀ first, firstBreak = some first → ¬ l.context.markup.HasComment s →
          reports = [missingCommentReport first.line]) ∧
        (firstBreak = none ∨ l.context.markup.HasComment s → reports = []))
      (sources.filter fun source => !l.skips source) (l.run sources).1.files := by
  obtain ⟨c, -, rfl⟩ := exists_context_of_withBuiltinRules h
  have hl := onlyReports_builtinLinter c
  refine (Linter.forall₂_run_fileReport? hl rfl sources).imp fun source r hreport => ?_
  refine ⟨Linter.path_of_fileReport? hreport, fun s hs hadmitted => ?_⟩
  have hsource : source = ⟨source.path, some s⟩ := by rw [← hs]
  rw [hsource] at hreport
  have hfilter : r.diagnostics.filter
      (fun d => d.source == "Commenting.FileNoComment.Missing".toList) =
        ((c.builtinLinter.diagnosticsOf source.path s).filter
          fun d => scopeCovers docCommentId.text d.source).filter
            fun d => d.source == "Commenting.FileNoComment.Missing".toList := by
    rw [Linter.diagnostics_of_fileReport? hl hreport, List.filter_filter]
    apply List.filter_congr
    intro d _
    by_cases hd : d.source = "Commenting.FileNoComment.Missing".toList
    · rw [hd]
      decide
    · rw [beq_eq_false_iff_ne.2 hd, Bool.false_and]
  constructor
  · intro first hfirst hcomment
    have hreports := Context.filter_docComment_of_some (c := c)
      (Context.unhindered_of_not_hasComment hadmitted hcomment) hfirst
    have hdoc : ¬ (c.markup.tokenize s).hasType .docComment :=
      fun hdoc => hcomment (Markup.hasType_docComment_iff.1 hdoc)
    rw [hfilter, hreports, if_neg hdoc]
    rfl
  · intro hnone
    have hreports := Context.filter_docComment_eq_nil (c := c) hadmitted hnone.symm
    rw [hfilter, hreports]
    rfl

theorem missingComment_reports_break_in_tag :
    let bare := "\x7ba\nb\x7d\r\nc\n".toList
    let marked := "a\nb\n\x7b* @noSmartyLint *\x7d\n".toList
    ∃ l, Linter.withBuiltinRules {} = .ok l ∧
      ∃ r r', (l.run [⟨"a".toList, some bare⟩, ⟨"b".toList, some marked⟩]).1.files = [r, r'] ∧
        (r.diagnostics.filter fun d => d.source == "Commenting.FileNoComment.Missing".toList) =
          [missingCommentReport 2] ∧
        (r'.diagnostics.filter fun d =>
          d.source == "Commenting.FileNoComment.Missing".toList) = [] := by
  intro bare marked
  let c : Context := ⟨{}, .standard, []⟩
  have hl : Linter.withBuiltinRules {} = .ok c.builtinLinter := by
    rw [withBuiltinRules_eq]
    rfl
  let sources : List SourceFile := [⟨"a".toList, some bare⟩, ⟨"b".toList, some marked⟩]
  have hrun := missingComment_reports hl sources
  have hkept : sources.filter (fun source => !c.builtinLinter.skips source) = sources := by
    decide +kernel
  rw [hkept, List.forall₂_cons_left_iff] at hrun
  obtain ⟨r, rest, ⟨-, hbare⟩, hrest, hfiles⟩ := hrun
  rw [List.forall₂_cons_left_iff] at hrest
  obtain ⟨r', rest, ⟨-, hmarked⟩, hrest, rfl⟩ := hrest
  rw [List.forall₂_nil_left_iff.1 hrest] at hfiles
  have hadmitted : ∀ path source, c.isSuppressed path source = false := fun _ _ => rfl
  have hfirst : ((c.markup.tokenize bare).find? fun t => t.type == .newLine) =
      some ⟨.newLine, "\r\n".toList, 2, none⟩ := by decide +kernel
  have hno : ¬ c.markup.HasComment bare := by
    rw [← Markup.hasType_docComment_iff]
    decide +kernel
  have hcomment : c.markup.HasComment marked := by
    rw [← Markup.hasType_docComment_iff]
    decide +kernel
  exact ⟨c.builtinLinter, hl, r, r', hfiles,
    (hbare bare rfl fun _ => hadmitted _ _).1 _ hfirst hno,
    (hmarked marked rfl fun _ => hadmitted _ _).2 (Or.inr hcomment)⟩

end TemplateLint
