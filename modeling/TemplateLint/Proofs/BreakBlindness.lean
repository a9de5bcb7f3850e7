import TemplateLint.Proofs.Reporters
import TemplateLint.Proofs.RewrittenTokens

/-!
# Rules that do not look at how breaks are written

Of the rules that come with the linter only the one about line endings does. Most of the others look
at the types and lines of tokens; those about tasks look at a comment line by line, and the one
about tags looks at tags on one line, which have no breaks.
-/

namespace TemplateLint

variable {σ : Type}

/-- What is known of a token in a template without CR: it has line feeds only if it is a line break
or runs over several lines. -/
structure Token.FeedsOnly (t : Token) : Prop where
  cr_not_mem : '\r' ∉ t.content
  lf_not_mem : t.type ≠ .newLine → t.isMultiLine = false → '\n' ∉ t.content

theorem Markup.feedsOnly_of_mem_tokenize {m : Markup} {s : Text} (h : '\r' ∉ s) {t : Token}
    (ht : t ∈ m.tokenize s) : t.FeedsOnly := by
  have hcr : '\r' ∉ t.content := by
    intro hm
    apply h
    rw [← m.source_tokenize s]
    exact List.mem_flatMap_of_mem ht hm
  refine ⟨hcr, ?_⟩
  intro htype hsingle
  obtain ⟨i, hi⟩ := List.mem_iff_getElem?.1 ht
  have hspans := (Lexeme.startsOn_of_getElem?_place hi).spans
  apply lf_not_mem_of_countLineBreaks hcr
  by_contra hpos
  have hsome := hspans.2 ⟨htype, Nat.pos_of_ne_zero hpos⟩
  rw [Token.isMultiLine, hsome] at hsingle
  exact Bool.noConfusion hsingle

section Tokens

variable (b : LineBreak)

theorem Token.FeedsOnly.content_rewrite {t : Token} (h : t.FeedsOnly) (htype : t.type ≠ .newLine)
    (hsingle : t.isMultiLine = false) : (t.rewrite b).content = t.content :=
  b.rewrite_of_lf_not_mem (h.lf_not_mem htype hsingle)

/-- The lines of a token do not depend on how its breaks are written. -/
theorem Token.FeedsOnly.physicalLines_rewrite {t : Token} (h : t.FeedsOnly)
    (htype : t.type ≠ .newLine) :
    (t.rewrite b).physicalLines b.text = t.physicalLines LineBreak.lf.text := by
  rw [Token.physicalLines, Token.physicalLines]
  by_cases hmulti : t.isMultiLine
  · rw [if_pos hmulti, if_pos (show (t.rewrite b).isMultiLine from hmulti)]
    exact splitAtSlices_rewrite b h.cr_not_mem
  · have hsingle := Bool.eq_false_iff.2 hmulti
    rw [if_neg hmulti, if_neg (show ¬ (t.rewrite b).isMultiLine from hmulti),
      h.content_rewrite b htype hsingle]

theorem unbroken_optOutMarker : Unbroken optOutMarker := by decide

theorem Token.optsOut_rewrite (t : Token) : (t.rewrite b).optsOut = t.optsOut := by
  rw [Token.optsOut, Token.optsOut, hasOptOutMarker, hasOptOutMarker]
  change (t.type.isTemplateComment && hasSlice optOutMarker (b.rewrite t.content)) = _
  rw [hasSlice_rewrite b unbroken_optOutMarker (by decide)]

variable (ts : TokenStream)

theorem acceptsAt_map_rewrite {q : TokenQuery} (hq : q.value = none) (i : Nat) :
    q.acceptsAt (ts.map (Token.rewrite b)) i = q.acceptsAt ts i := by
  rw [TokenQuery.acceptsAt, TokenQuery.acceptsAt, List.getElem?_map]
  cases ts[i]? with
  | none => rfl
  | some t =>
      rw [Option.map_some, Option.any_some, Option.any_some, TokenQuery.accepts,
        TokenQuery.accepts, hq]
      rfl

theorem findPrevious?_map_rewrite {q : TokenQuery} (hq : q.value = none) (start : Nat) :
    TokenStream.findPrevious? (ts.map (Token.rewrite b)) q start =
      TokenStream.findPrevious? ts q start := by
  have haccepts : q.acceptsAt (ts.map (Token.rewrite b)) = q.acceptsAt ts := by
    funext i
    exact acceptsAt_map_rewrite b ts hq i
  rw [TokenStream.findPrevious?, TokenStream.findPrevious?, haccepts, List.length_map]
  simp only [List.map_eq_nil_iff]

theorem isFirstNewLine_map_rewrite (position : Nat) :
    isFirstNewLine (ts.map (Token.rewrite b)) position = isFirstNewLine ts position := by
  rw [isFirstNewLine, isFirstNewLine, findPrevious?_map_rewrite b ts rfl]

theorem hasType_map_rewrite (type : TokenType) :
    TokenStream.hasType (ts.map (Token.rewrite b)) type = TokenStream.hasType ts type := by
  rw [TokenStream.hasType, TokenStream.hasType, List.any_map]
  rfl

end Tokens

/-- Whether `g` is the file `f` with every line feed written as `b`. -/
structure CheckedFile.RewrittenAs (f : CheckedFile) (b : LineBreak) (g : CheckedFile)
    (tokens : TokenStream) : Prop where
  context : g.context = f.context
  activeRule : g.activeRule = f.activeRule
  eol : f.eol = LineBreak.lf.text
  eol_rewrite : g.eol = b.text
  tokens_eq : f.tokens = some tokens
  tokens_rewrite : g.tokens = some (tokens.map (Token.rewrite b))
  feedsOnly : ∀ t ∈ tokens, t.FeedsOnly

variable {b : LineBreak} {f g : CheckedFile} {tokens : TokenStream}

theorem CheckedFile.RewrittenAs.setActiveRule (h : f.RewrittenAs b g tokens)
    (rule : Option RuleId) : (f.setActiveRule rule).RewrittenAs b (g.setActiveRule rule) tokens :=
  ⟨h.context, rfl, h.eol, h.eol_rewrite, h.tokens_eq, h.tokens_rewrite, h.feedsOnly⟩

theorem FileOp.diagnostic?_rewrite (h : f.RewrittenAs b g tokens) (op : FileOp) :
    op.diagnostic? g = op.diagnostic? f := by
  cases op with
  | add severity template position code args =>
      have hline : g.lineOf position = f.lineOf position := by
        cases position with
        | token index =>
            rw [CheckedFile.lineOf, CheckedFile.lineOf, h.tokens_eq, h.tokens_rewrite,
              Option.bind_some, Option.bind_some, List.getElem?_map, Option.map_map]
            rfl
        | _ => rfl
      have hsource : g.sourceFor code = f.sourceFor code := by
        rw [CheckedFile.sourceFor, CheckedFile.sourceFor, h.activeRule]
      rw [diagnostic?, diagnostic?, CheckedFile.diagnosticFor, CheckedFile.diagnosticFor, hline,
        hsource]
  | _ => rfl

theorem FileChange.diagnostic?_rewrite (h : f.RewrittenAs b g tokens) (change : FileChange) :
    change.diagnostic? g = change.diagnostic? f := by
  cases change with
  | edit op => exact FileOp.diagnostic?_rewrite h op
  | replace path context => rfl

/-- Whether a rule, at tokens of the given types, does the same however breaks are written. -/
def FileRule.BlindToBreaks (r : FileRule σ) (types : List TokenType) : Prop :=
  ∀ world f b g tokens position t, f.RewrittenAs b g tokens → tokens[position]? = some t →
    t.type ∈ types →
      (r.process world g position).changes = (r.process world f position).changes

theorem FileRule.blindToBreaks_ofTokens {name : Text} {types : List TokenType}
    {check : CheckedFile → TokenStream → Nat → List FileOp × Ending}
    (h : ∀ f b g tokens position t, f.RewrittenAs b g tokens → tokens[position]? = some t →
      t.type ∈ types →
        check g (tokens.map (Token.rewrite b)) position = check f tokens position) :
    (FileRule.ofTokens name types check : FileRule σ).BlindToBreaks types := by
  intro world f b g tokens position t hfg ht htype
  simp only [ofTokens, CheckedFile.requireTokens, hfg.tokens_eq, hfg.tokens_rewrite]
  rw [h f b g tokens position t hfg ht htype]

namespace Rules

theorem blindToBreaks_fileNoComment :
    (fileNoComment : FileRule σ).BlindToBreaks [.newLine] := by
  apply FileRule.blindToBreaks_ofTokens
  intro f b g tokens position t _ _ _
  rw [isFirstNewLine_map_rewrite, hasType_map_rewrite]

theorem reportTasks_rewrite (severity : Severity) (keyword label : Text)
    (h : f.RewrittenAs b g tokens) {position : Nat} {t : Token} (ht : tokens[position]? = some t)
    (htype : t.type ≠ .newLine) :
    reportTasks severity keyword label g (tokens.map (Token.rewrite b)) position =
      reportTasks severity keyword label f tokens position := by
  have hlines := (h.feedsOnly t (List.mem_of_getElem? ht)).physicalLines_rewrite b htype
  rw [reportTasks, reportTasks, List.getElem?_map, ht, Option.map_some]
  dsimp only
  rw [h.eol, h.eol_rewrite, h.context, hlines]
  rfl

theorem blindToBreaks_fixme :
    (fixme : FileRule σ).BlindToBreaks [.comment, .docComment, .htmlComment] := by
  apply FileRule.blindToBreaks_ofTokens
  intro f b g tokens position t h ht htype
  have hne : t.type ≠ .newLine := ne_of_mem_of_not_mem htype (by decide)
  rw [reportTasks_rewrite _ _ _ h ht hne]

theorem blindToBreaks_todo : (todo : FileRule σ).BlindToBreaks [.comment, .docComment] := by
  apply FileRule.blindToBreaks_ofTokens
  intro f b g tokens position t h ht htype
  have hne : t.type ≠ .newLine := ne_of_mem_of_not_mem htype (by decide)
  rw [reportTasks_rewrite _ _ _ h ht hne]

theorem blindToBreaks_noHtmlComment :
    (noHtmlComment : FileRule σ).BlindToBreaks [.htmlComment] := by
  apply FileRule.blindToBreaks_ofTokens
  intro f b g tokens position t h ht _
  rw [List.getElem?_map, ht, h.context]
  rfl

theorem checkEnding_map_rewrite (b : LineBreak) (tokens : TokenStream) (last : Nat) :
    checkEnding (tokens.map (Token.rewrite b)) last = checkEnding tokens last := by
  have hcontent : (lastContent? (tokens.map (Token.rewrite b)) last).bind (fun i =>
      ((tokens.map (Token.rewrite b))[i]?).map fun t => (i, t)) =
        ((lastContent? tokens last).bind fun i => (tokens[i]?).map fun t => (i, t)).map
          fun p => (p.1, p.2.rewrite b) := by
    rw [lastContent?, lastContent?, findPrevious?_map_rewrite b tokens rfl]
    cases TokenStream.findPrevious? tokens ⟨[.newLine, .space, .tab], true, none⟩ last with
    | none => rfl
    | some i =>
        rw [Option.bind_some, Option.bind_some, List.getElem?_map, Option.map_map, Option.map_map]
        rfl
  rw [checkEnding, checkEnding, hcontent, List.getElem?_map]
  cases tokens[last]? with
  | none => rfl
  | some final =>
      rw [Option.map_some]
      change (if final.type ≠ .newLine then _ else _) = (if final.type ≠ .newLine then _ else _)
      congr 1
      cases (lastContent? tokens last).bind fun i => (tokens[i]?).map fun t => (i, t) with
      | none => rfl
      | some p => rfl

theorem blindToBreaks_endFileNewline :
    (endFileNewline : FileRule σ).BlindToBreaks [.newLine] := by
  apply FileRule.blindToBreaks_ofTokens
  intro f b g tokens position t _ ht _
  have hne : tokens ≠ [] := List.ne_nil_of_mem (List.mem_of_getElem? ht)
  have hne' : tokens.map (Token.rewrite b) ≠ [] := fun h => hne (List.map_eq_nil_iff.1 h)
  rw [isFirstNewLine_map_rewrite, bne_iff_ne.2 hne, bne_iff_ne.2 hne', List.length_map,
    checkEnding_map_rewrite]

theorem blindToBreaks_disallowTabIndent :
    (disallowTabIndent : FileRule σ).BlindToBreaks [.tab] := by
  have htab (s : Text) (b : LineBreak) : (b.rewrite s).contains '\t' = s.contains '\t' := by
    induction s with
    | nil => rfl
    | cons c s ih =>
        by_cases hc : c = '\n'
        · rw [hc, b.rewrite_lf]
          cases b <;> simpa [LineBreak.text] using ih
        · rw [b.rewrite_cons hc, List.contains_cons, List.contains_cons, ih]
  apply FileRule.blindToBreaks_ofTokens
  intro f b g tokens position t _ ht _
  rw [List.getElem?_map, ht, Option.map_some, Option.any_some, Option.any_some]
  change (if (b.rewrite t.content).contains '\t' then _ else _) = _
  rw [htab]

theorem blindToBreaks_superfluousWhitespace :
    (superfluousWhitespace : FileRule σ).BlindToBreaks [.newLine] := by
  apply FileRule.blindToBreaks_ofTokens
  intro f b g tokens position t _ _ _
  have htrailing : reportTrailing (tokens.map (Token.rewrite b)) position =
      reportTrailing tokens position := by
    rw [reportTrailing, reportTrailing, List.getElem?_map]
    by_cases hzero : position = 0
    · rw [if_pos hzero, if_pos hzero]
    · rw [if_neg hzero, if_neg hzero, Option.any_map]
      rfl
  have hrun : newLinesUpTo (tokens.map (Token.rewrite b)) position =
      newLinesUpTo tokens position := by
    rw [newLinesUpTo, newLinesUpTo, ← List.map_take, ← List.map_reverse, List.takeWhile_map,
      List.length_map]
    rfl
  dsimp only
  rw [htrailing, hrun, List.length_map]

theorem blindToBreaks_tagsWhitespace : (tagsWhitespace : FileRule σ).BlindToBreaks [.tag] := by
  apply FileRule.blindToBreaks_ofTokens
  intro f b g tokens position t h ht htype
  have hne : t.type ≠ .newLine := ne_of_mem_of_not_mem htype (by decide)
  rw [List.getElem?_map, ht, Option.map_some, Option.any_some, Option.any_some, h.context]
  change (if (!t.isMultiLine && _) then _ else _) = _
  cases hmulti : t.isMultiLine with
  | true => rfl
  | false => rw [(h.feedsOnly t (List.mem_of_getElem? ht)).content_rewrite b hne hmulti]

end Rules

end TemplateLint
