import TemplateLint.Proofs.RuleReports
import TemplateLint.Proofs.TokenShapes

/-!
# The end of a file

The rule about the end of a file counts nothing: it subtracts the line of the last token that is not
white from the line of the last token. Because every token starts where the breaks before it lead,
the difference is the number of line breaks behind that token, less one.
-/

namespace TemplateLint

/-- Whether `content` is the last token that is not white, and `count` line breaks follow it. -/
def TokenStream.EndsAfter (ts : TokenStream) (content : Token) (count : Nat) : Prop :=
  ∃ front back, ts = front ++ content :: back ∧ content.type.isWhite = false ∧
    (∀ t ∈ back, t.type.isWhite) ∧ (back.countP fun t => t.type == .newLine) = count

namespace TokenStream

variable {ts : TokenStream} {content content' final : Token} {count count' : Nat}

theorem white_or_exists_endsAfter (ts : TokenStream) :
    (∀ t ∈ ts, t.type.isWhite) ∨ ∃ content count, ts.EndsAfter content count := by
  induction ts using List.reverseRecOn with
  | nil => simp
  | append_singleton ts t ih =>
      by_cases ht : t.type.isWhite
      · rcases ih with hwhite | ⟨content, -, front, back, rfl, hcontent, hback, -⟩
        · left
          simpa [or_imp, forall_and, ht] using hwhite
        · right
          refine ⟨content, _, front, back ++ [t], by simp, hcontent, ?_, rfl⟩
          simpa [or_imp, forall_and, ht] using hback
      · right
        exact ⟨t, _, ts, [], rfl, by simpa using ht, by simp, rfl⟩

namespace EndsAfter

theorem not_white (h : ts.EndsAfter content count) : ¬ ∀ t ∈ ts, t.type.isWhite := by
  obtain ⟨front, back, rfl, hcontent, -, -⟩ := h
  intro hwhite
  simp [hwhite content (by simp)] at hcontent

/-- The line breaks are those between the content and the last token, and that one. -/
theorem exists_between (h : ts.EndsAfter content count) (hlast : ts.getLast? = some final)
    (hfinal : final.type = .newLine) :
    ∃ front between, ts = front ++ content :: (between ++ [final]) ∧
      (∀ t ∈ between, t.type.isWhite) ∧
      (between.countP fun t => t.type == .newLine) + 1 = count := by
  obtain ⟨front, back, rfl, hcontent, hback, rfl⟩ := h
  rcases List.eq_nil_or_concat back with rfl | ⟨between, t, rfl⟩
  · obtain rfl : content = final := by simpa using hlast
    simp [hfinal, TokenType.isWhite] at hcontent
  · rw [List.concat_eq_append, ← List.cons_append, ← List.append_assoc, List.getLast?_concat]
      at hlast
    obtain rfl := Option.some.inj hlast
    refine ⟨front, between, by simp, fun u hu => hback u (by simp [hu]), by simp [hfinal]⟩

/-- The last line break is as many lines below the content as there are line breaks in between. -/
theorem line_add_one {m : Markup} {s : Text} (h : (m.tokenize s).EndsAfter content count)
    (hlast : (m.tokenize s).getLast? = some final) (hfinal : final.type = .newLine) :
    final.line + 1 = content.line + count := by
  have hnew : content.type ≠ .newLine := by
    obtain ⟨-, -, -, hcontent, -, -⟩ := h
    intro hnew
    simp [hnew, TokenType.isWhite] at hcontent
  obtain ⟨front, between, htokens, hbetween, rfl⟩ := h.exists_between hlast hfinal
  have hat : (m.tokenize s)[front.length]? = some content := by simp [htokens]
  have hend : (m.tokenize s)[(front ++ content :: between).length]? = some final := by
    rw [htokens, ← List.cons_append, ← List.append_assoc, List.getElem?_concat_length]
  have hcontentLine := (Markup.startsOn_of_getElem? hat).last
  have hfinalLine := (Markup.startsOn_of_getElem? hend).last
  have hsum := Markup.sum_countLineBreaks_of_isWhite
    (fun t ht => show t ∈ m.tokenize s by simp [htokens, ht]) hbetween
  rw [if_neg hnew, breaksBefore, htokens, List.take_left] at hcontentLine
  rw [if_pos hfinal, breaksBefore, htokens, ← List.cons_append, ← List.append_assoc,
    List.take_left, List.map_append, List.sum_append, List.map_cons, List.sum_cons, hsum]
    at hfinalLine
  omega

end EndsAfter

end TokenStream

namespace Rules

variable {ts : TokenStream} {content content' final : Token} {count count' : Nat}

theorem accepts_lastContent (t : Token) :
    TokenQuery.accepts { types := [.newLine, .space, .tab], exclude := true } t =
      !t.type.isWhite := by
  cases htype : t.type <;> simp [TokenQuery.accepts, TokenType.isWhite, htype]

theorem lastContent?_of_white (h : ∀ t ∈ ts, t.type.isWhite) (last : Nat) :
    lastContent? ts last = none := by
  rw [lastContent?, TokenStream.findPrevious?_eq_none_iff]
  intro i _ _
  rw [TokenQuery.acceptsAt, Option.any_eq_false]
  intro t ht
  simp [accepts_lastContent, h t (List.mem_of_getElem? ht)]

theorem lastContent?_append {front back : TokenStream} (hcontent : content.type.isWhite = false)
    (hback : ∀ t ∈ back, t.type.isWhite) :
    lastContent? (front ++ content :: back) ((front ++ content :: back).length - 1) =
      some front.length := by
  rw [lastContent?, TokenStream.findPrevious?_eq_some_iff]
  refine ⟨⟨Nat.zero_le _, by simp, ?_⟩, ?_⟩
  · simp [TokenQuery.acceptsAt, accepts_lastContent, hcontent]
  · intro i hi _
    rw [TokenQuery.acceptsAt, Option.any_eq_false]
    intro t ht
    obtain ⟨k, rfl⟩ : ∃ k, i = front.length + (k + 1) := ⟨i - front.length - 1, by omega⟩
    rw [List.getElem?_append_right (by omega), Nat.add_sub_cancel_left, List.getElem?_cons_succ]
      at ht
    simp [accepts_lastContent, hback t (List.mem_of_getElem? ht)]

theorem endsAfter_iff_eq (h : ts.EndsAfter content count) :
    ts.EndsAfter content' count' ↔ content' = content ∧ count' = count := by
  constructor
  · intro h'
    obtain ⟨front, back, rfl, hcontent, hback, rfl⟩ := h
    obtain ⟨front', back', htokens, hcontent', hback', rfl⟩ := h'
    have hindex : lastContent? (front ++ content :: back) _ = some front.length :=
      lastContent?_append hcontent hback
    rw [htokens, lastContent?_append hcontent' hback'] at hindex
    obtain ⟨-, htail⟩ := List.append_inj htokens (Option.some.inj hindex).symm
    obtain ⟨rfl, rfl⟩ := List.cons.inj htail
    exact ⟨rfl, rfl⟩
  · rintro ⟨rfl, rfl⟩
    exact h

theorem checkEnding_of_ne (hlast : ts.getLast? = some final) (hfinal : final.type ≠ .newLine) :
    (checkEnding ts (ts.length - 1)).1 =
      [reportError "Expected 1 newline at end of file; 0 found" (.token (ts.length - 1))
        "NoneFound"] := by
  rw [List.getLast?_eq_getElem?] at hlast
  simp [checkEnding, hlast, hfinal]

theorem checkEnding_of_white (hwhite : ∀ t ∈ ts, t.type.isWhite) (hlast : ts.getLast? = some final)
    (hfinal : final.type = .newLine) : (checkEnding ts (ts.length - 1)).1 = [] := by
  rw [List.getLast?_eq_getElem?] at hlast
  simp [checkEnding, hlast, hfinal, lastContent?_of_white hwhite]

theorem checkEnding_of_endsAfter {m : Markup} {s : Text}
    (h : (m.tokenize s).EndsAfter content count)
    (hlast : (m.tokenize s).getLast? = some final) (hfinal : final.type = .newLine) :
    ∃ i, (m.tokenize s)[i]? = some content ∧
      (checkEnding (m.tokenize s) ((m.tokenize s).length - 1)).1 =
        if 2 ≤ count then
          [reportError "Expected 1 blank line at end of file; \x7b\x7d found" (.token i) "TooMany"
            [decimal count]]
        else [] := by
  have hline := h.line_add_one hlast hfinal
  have hpos : 1 ≤ count := by
    obtain ⟨-, -, -, -, rfl⟩ := h.exists_between hlast hfinal
    omega
  rw [List.getLast?_eq_getElem?] at hlast
  obtain ⟨front, back, htokens, hcontent, hback, -⟩ := h
  have hfound : lastContent? (m.tokenize s) ((m.tokenize s).length - 1) = some front.length := by
    rw [htokens]
    exact lastContent?_append hcontent hback
  have hat : (m.tokenize s)[front.length]? = some content := by simp [htokens]
  refine ⟨front.length, hat, ?_⟩
  unfold checkEnding
  rw [hlast]
  dsimp only
  rw [if_neg (not_not.2 hfinal), hfound, Option.bind_some, hat]
  dsimp only [Option.map_some]
  rw [if_neg (by omega)]
  by_cases hone : final.line = content.line
  · rw [if_pos hone, if_neg (by omega)]
  · rw [if_neg hone, if_pos (by omega), show final.line - content.line + 1 = count by omega]

end Rules

section Reports

variable {c : Context} {path s : Text}

/-- The rule about the end of a file acts once, whichever line break is the first. -/
theorem Context.filter_endFileNewline
    (h : c.builtinLinter.Unhindered ⟨"Files".toList, "EndFileNewline".toList⟩ path s)
    (hnew : ∃ t ∈ c.markup.tokenize s, t.type = .newLine) :
    (c.builtinLinter.diagnosticsOf path s).filter
        (fun d => scopeCovers "Files.EndFileNewline".toList d.source) =
      inReportOrder ((Rules.checkEnding (c.markup.tokenize s)
        ((c.markup.tokenize s).length - 1)).1.filterMap (FileOp.diagnostic?
          ((c.builtinLinter.opened path s).setActiveRule
            (some ⟨"Files".toList, "EndFileNewline".toList⟩)))) := by
  generalize hid : (⟨"Files".toList, "EndFileNewline".toList⟩ : RuleId) = id at h ⊢
  have htext : "Files.EndFileNewline".toList = id.text := by
    rw [← hid]
    decide
  have he : ⟨id, [.newLine], Rules.endFileNewline⟩ ∈
      (TemplateLint.builtinEntries : List (RegisteredRule Unit)) := by
    rw [← hid]
    simp [TemplateLint.builtinEntries]
  have hne : c.markup.tokenize s ≠ [] := List.ne_nil_of_mem hnew.choose_spec.1
  obtain ⟨front, first, back, htokens, hfirst, hfront⟩ := exists_first_newLine hnew
  have hrule : (Rules.endFileNewline : FileRule Unit) =
      .ofTokens "Rules.Files.EndFileNewlineRule".toList [.newLine] fun _ tokens position =>
        if isFirstNewLine tokens position && tokens != [] then
          Rules.checkEnding tokens (tokens.length - 1)
        else ([], .done) := rfl
  rw [htext, filter_wholeFile he h rfl hrule htokens hfront hfirst, if_pos (by simpa using hne)]

theorem formatMessage_blankLines (count : Nat) :
    formatMessage "Expected 1 blank line at end of file; \x7b\x7d found".toList [decimal count] =
      "Expected 1 blank line at end of file; ".toList ++ decimal count ++ " found".toList := by
  have hsplit : "Expected 1 blank line at end of file; \x7b\x7d found".toList =
      "Expected 1 blank line at end of file; ".toList ++ '\x7b' :: '\x7d' :: " found".toList := by
    decide
  rw [hsplit, formatMessage_placeholder (by decide) (by decide)]

end Reports

/-- A file with a line break has at most one report about its end. It says that no line break is
there, on the line of the last token, if that is no line break; and else how many line breaks follow
the last token that is not white, on the line on which that token ends, if they are at least two. -/
theorem endFileNewline_reports {config : Config} {l : Linter Unit}
    (h : Linter.withBuiltinRules config = .ok l) {path s : Text}
    (hrule : l.Unhindered ⟨"Files".toList, "EndFileNewline".toList⟩ path s)
    (hnew : ∃ t ∈ l.context.markup.tokenize s, t.type = .newLine) :
    let tokens := l.context.markup.tokenize s
    let reports := (l.diagnosticsOf path s).filter fun d =>
      scopeCovers "Files.EndFileNewline".toList d.source
    reports.length ≤ 1 ∧ ∀ d, d ∈ reports ↔
      ∃ final, tokens.getLast? = some final ∧
        ((final.type ≠ .newLine ∧
          d = ⟨final.line, 1, .error, "Expected 1 newline at end of file; 0 found".toList,
            "Files.EndFileNewline.NoneFound".toList⟩) ∨
        (final.type = .newLine ∧ ∃ content count, tokens.EndsAfter content count ∧ 2 ≤ count ∧
          d = ⟨content.line, 1, .error, "Expected 1 blank line at end of file; ".toList ++
            decimal count ++ " found".toList, "Files.EndFileNewline.TooMany".toList⟩)) := by
  obtain ⟨c, -, rfl⟩ := exists_context_of_withBuiltinRules h
  intro tokens reports
  let f := (c.builtinLinter.opened path s).setActiveRule
    (some ⟨"Files".toList, "EndFileNewline".toList⟩)
  have hid : f.activeRule = some ⟨"Files".toList, "EndFileNewline".toList⟩ := rfl
  have hf : f.tokens = some tokens := rfl
  have hreports : reports = inReportOrder
      ((Rules.checkEnding tokens (tokens.length - 1)).1.filterMap (FileOp.diagnostic? f)) :=
    Context.filter_endFileNewline hrule hnew
  obtain ⟨final, hlast⟩ : ∃ final, tokens.getLast? = some final :=
    Option.isSome_iff_exists.1 (by simpa using List.ne_nil_of_mem hnew.choose_spec.1)
  by_cases hfinal : final.type = .newLine
  · rcases tokens.white_or_exists_endsAfter with hwhite | ⟨content, count, hends⟩
    · have hnothing (content : Token) (count : Nat) : ¬ tokens.EndsAfter content count :=
        fun hends => hends.not_white hwhite
      rw [Rules.checkEnding_of_white hwhite hlast hfinal, List.filterMap_nil] at hreports
      simp [hreports, hlast, hfinal, hnothing, inReportOrder]
    · have hsource : RuleId.sourceFor ⟨"Files".toList, "EndFileNewline".toList⟩ "TooMany".toList =
          "Files.EndFileNewline.TooMany".toList := by decide
      obtain ⟨i, hi, hops⟩ := Rules.checkEnding_of_endsAfter hends hlast hfinal
      rw [hops] at hreports
      by_cases hmany : 2 ≤ count
      · rw [if_pos hmany, inReportOrder_reportError hid hf hi _ (by decide),
          formatMessage_blankLines, hsource] at hreports
        simp [hreports, hlast, hfinal, Rules.endsAfter_iff_eq hends, hmany]
      · rw [if_neg hmany, List.filterMap_nil] at hreports
        simp [hreports, hlast, hfinal, Rules.endsAfter_iff_eq hends, hmany, inReportOrder]
  · have hsource : RuleId.sourceFor ⟨"Files".toList, "EndFileNewline".toList⟩ "NoneFound".toList =
        "Files.EndFileNewline.NoneFound".toList := by decide
    rw [Rules.checkEnding_of_ne hlast hfinal,
      inReportOrder_reportError hid hf (List.getLast?_eq_getElem? ▸ hlast) _ (by decide),
      formatMessage_of_not_mem [] (by decide), hsource] at hreports
    simp [hreports, hlast, hfinal]

/-- Three line breaks, one of them behind spaces, after a comment over two lines. -/
theorem endFileNewline_reports_spanning_comment :
    let s := "a\n\x7b*\n*\x7d\n  \n\n".toList
    ∃ l, Linter.withBuiltinRules {} = .ok l ∧
      l.Unhindered ⟨"Files".toList, "EndFileNewline".toList⟩ [] s ∧
      (∃ t ∈ l.context.markup.tokenize s, t.type = .newLine) ∧
      (⟨3, 1, .error, "Expected 1 blank line at end of file; 3 found".toList,
        "Files.EndFileNewline.TooMany".toList⟩ : Diagnostic) ∈ l.diagnosticsOf [] s := by
  intro s
  let c : Context := ⟨{}, .standard, []⟩
  have hl : Linter.withBuiltinRules {} = .ok c.builtinLinter := by
    rw [withBuiltinRules_eq]
    rfl
  have hrule : c.builtinLinter.Unhindered ⟨"Files".toList, "EndFileNewline".toList⟩ [] s :=
    ⟨by decide +kernel, fun _ => rfl⟩
  have hnew : ∃ t ∈ c.builtinLinter.context.markup.tokenize s, t.type = .newLine := by
    decide +kernel
  refine ⟨c.builtinLinter, hl, hrule, hnew, ?_⟩
  let comment : Token := ⟨.docComment, "\x7b*\n*\x7d".toList, 3, some 2⟩
  have hends : (c.builtinLinter.context.markup.tokenize s).EndsAfter comment 3 := by
    refine ⟨(c.markup.tokenize s).take 2, (c.markup.tokenize s).drop 3, ?_⟩
    decide +kernel
  have hreport := ((endFileNewline_reports hl hrule hnew).2 _).2
    ⟨⟨.newLine, ['\n'], 5, none⟩, by decide +kernel,
      Or.inr ⟨rfl, comment, 3, hends, by decide, rfl⟩⟩
  exact List.mem_of_mem_filter hreport

end TemplateLint
