import TemplateLint.Proofs.LineNumbers
import TemplateLint.Proofs.Lines

/-!
# Tokens and lines of the template

If the delimiters have no breaks, every token stands in the template between two cuts that part no
CR from its LF. So it ends on a line of the template, and the lines of its text are parts of lines
of the template. If the template has one line ending, cutting the token at that ending gives these
lines.
-/

namespace TemplateLint

/-- Line `k` of a template, counted from 1, where the template is cut at its own line ending. -/
def lineAt? (s : Text) : Nat → Option Text
  | 0 => none
  | k + 1 => (splitAtSlices (detectLineBreak s).text s)[k]?

/-- Whether a token stands between two texts in a template, on the lines to which the breaks before
it lead. -/
structure Token.StandsBetween (t : Token) (before after : Text) : Prop where
  cut_before : ¬ CutsBreak before (t.content ++ after)
  cut_after : ¬ CutsBreak t.content after
  startsOn : t.StartsOn (1 + countLineBreaks before)

theorem Unbroken.head?_ne {s : Text} (h : Unbroken s) : s.head? ≠ some '\n' :=
  fun hs => (h _ (List.mem_of_mem_head? hs)).2 rfl

theorem Unbroken.getLast?_ne {s : Text} (h : Unbroken s) : s.getLast? ≠ some '\r' :=
  fun hs => (h _ (List.mem_of_getLast? hs)).1 rfl

theorem Markup.exists_standsBetween {m : Markup} (hl : Unbroken m.left) (hr : Unbroken m.right)
    {s : Text} {t : Token} (ht : t ∈ m.tokenize s) :
    ∃ before after, s = before ++ t.content ++ after ∧ t.StandsBetween before after := by
  obtain ⟨front, back, htokens⟩ := List.append_of_mem ht
  have hkeeps := keepsBreaks_tokenize hl.head?_ne hr.getLast?_ne s
  rw [htokens, List.map_append, keepsBreaks_append] at hkeeps
  obtain ⟨hfront, hcut, -⟩ := hkeeps
  have hsource := m.source_tokenize s
  have hbreaks : (m.tokenize s).breaksBefore front.length =
      countLineBreaks (front.map Token.content).flatten := by
    rw [countLineBreaks_flatten hfront, TokenStream.breaksBefore, htokens, List.take_left,
      List.map_map]
    rfl
  have hi : (m.tokenize s)[front.length]? = some t := by simp [htokens]
  have hstarts := Lexeme.startsOn_of_getElem?_place hi
  refine ⟨(front.map Token.content).flatten, (back.map Token.content).flatten, ?_, ?_, ?_, ?_⟩
  · simpa [htokens, TokenStream.source, List.flatMap_def] using hsource.symm
  · simpa using not_cutsBreak_flatten hfront
  · simpa using hcut
  · rw [← hbreaks]
    exact hstarts

namespace Token.StandsBetween

variable {t : Token} {before after : Text}

theorem countLineBreaks_eq (h : t.StandsBetween before after) :
    countLineBreaks (before ++ t.content ++ after) =
      countLineBreaks before + countLineBreaks t.content + countLineBreaks after := by
  rw [List.append_assoc, countLineBreaks_append h.cut_before, countLineBreaks_append h.cut_after,
    Nat.add_assoc]

theorem firstLine_pos (h : t.StandsBetween before after) : 1 ≤ t.firstLine := by
  rw [h.startsOn.first]
  omega

/-- The lines to which the breaks of a token lead are lines of the template. -/
theorem firstLine_add_le (h : t.StandsBetween before after) :
    t.firstLine + countLineBreaks t.content ≤
      1 + countLineBreaks (before ++ t.content ++ after) := by
  rw [h.startsOn.first, h.countLineBreaks_eq]
  omega

theorem lineBreaks_subset (h : t.StandsBetween before after) :
    lineBreaks t.content ⊆ lineBreaks (before ++ t.content ++ after) := by
  rw [List.append_assoc, lineBreaks_append h.cut_before, lineBreaks_append h.cut_after]
  intro b hb
  simp [hb]

end Token.StandsBetween

theorem Token.length_physicalLines_le (t : Token) (b : LineBreak) :
    (t.physicalLines b.text).length ≤ countLineBreaks t.content + 1 := by
  rw [Token.physicalLines]
  split
  · exact length_splitAtSlices_le b t.content
  · simp

/-- For a token that is no line break, cutting at the line ending gives its lines if every break in
it is written that way. -/
theorem Token.StartsOn.physicalLines_eq {t : Token} {line : Nat} (h : t.StartsOn line)
    (htype : t.type ≠ .newLine) {b : LineBreak} (hb : ∀ x ∈ lineBreaks t.content, x = b) :
    t.physicalLines b.text = linesOf t.content := by
  rw [Token.physicalLines]
  split
  · exact splitAtSlices_eq_linesOf hb
  next hsingle =>
    have hzero : countLineBreaks t.content = 0 := by
      by_contra hpos
      exact hsingle (h.spans.2 ⟨htype, Nat.pos_of_ne_zero hpos⟩)
    rw [linesOf_of_countLineBreaks hzero]

section OneEnding

variable {m : Markup} {s : Text} {t : Token}

theorem eq_detectLineBreak_of_not_mixed
    (h : hasMixedLineBreaks s (detectLineBreak s).text = false) :
    ∀ x ∈ lineBreaks s, x = detectLineBreak s := by
  intro x hx
  have htext : x.text = (detectLineBreak s).text := by
    simpa using List.any_eq_false.1 h x hx
  generalize detectLineBreak s = b at htext
  cases x <;> cases b <;> first | rfl | exact absurd htext (by decide)

theorem lineAt?_succ (h : hasMixedLineBreaks s (detectLineBreak s).text = false) (k : Nat) :
    lineAt? s (k + 1) = (linesOf s)[k]? := by
  rw [lineAt?, splitAtSlices_eq_linesOf (eq_detectLineBreak_of_not_mixed h)]

namespace Markup

theorem physicalLines_of_mem_tokenize (hl : Unbroken m.left) (hr : Unbroken m.right)
    (hmixed : hasMixedLineBreaks s (detectLineBreak s).text = false) (ht : t ∈ m.tokenize s)
    (htype : t.type ≠ .newLine) :
    t.physicalLines (detectLineBreak s).text = linesOf t.content := by
  obtain ⟨before, after, hs, hstands⟩ := exists_standsBetween hl hr ht
  apply hstands.startsOn.physicalLines_eq htype
  intro x hx
  apply eq_detectLineBreak_of_not_mixed hmixed
  rw [hs]
  exact hstands.lineBreaks_subset hx

/-- A token that is no line break has as many pieces as lines. -/
theorem firstLine_add_length_physicalLines (hl : Unbroken m.left) (hr : Unbroken m.right)
    (hmixed : hasMixedLineBreaks s (detectLineBreak s).text = false) (ht : t ∈ m.tokenize s)
    (htype : t.type ≠ .newLine) :
    t.firstLine + (t.physicalLines (detectLineBreak s).text).length = t.line + 1 := by
  obtain ⟨before, after, -, hstands⟩ := exists_standsBetween hl hr ht
  rw [physicalLines_of_mem_tokenize hl hr hmixed ht htype, length_linesOf, hstands.startsOn.first,
    hstands.startsOn.last, if_neg htype]
  omega

/-- A piece of a token that is no line break is a part of the line of the template on which it
stands. -/
theorem exists_lineAt?_of_piece (hl : Unbroken m.left) (hr : Unbroken m.right)
    (hmixed : hasMixedLineBreaks s (detectLineBreak s).text = false) (ht : t ∈ m.tokenize s)
    (htype : t.type ≠ .newLine) {j : Nat} {piece : Text}
    (hpiece : (t.physicalLines (detectLineBreak s).text)[j]? = some piece) :
    Unbroken piece ∧ ∃ line, lineAt? s (t.firstLine + j) = some line ∧ piece <:+: line := by
  rw [physicalLines_of_mem_tokenize hl hr hmixed ht htype] at hpiece
  refine ⟨unbroken_of_mem_linesOf (List.mem_of_getElem? hpiece), ?_⟩
  obtain ⟨before, after, hs, hstands⟩ := exists_standsBetween hl hr ht
  obtain ⟨line, hline, hinfix⟩ :=
    exists_line_of_slice hstands.cut_before hstands.cut_after hpiece
  refine ⟨line, ?_, hinfix⟩
  rw [hstands.startsOn.first, Nat.add_comm 1, Nat.add_right_comm, lineAt?_succ hmixed, hs]
  exact hline

/-- A token of several lines has as many pieces as lines, and they are parts of these lines of the
template. -/
theorem pieces_of_isMultiLine (hl : Unbroken m.left) (hr : Unbroken m.right)
    (hmixed : hasMixedLineBreaks s (detectLineBreak s).text = false) (ht : t ∈ m.tokenize s)
    (hmulti : t.isMultiLine) :
    t.firstLine ≤ t.line ∧
    (t.physicalLines (detectLineBreak s).text).length = t.line - t.firstLine + 1 ∧
    ∀ j piece, (t.physicalLines (detectLineBreak s).text)[j]? = some piece →
      Unbroken piece ∧ ∃ line, lineAt? s (t.firstLine + j) = some line ∧ piece <:+: line := by
  obtain ⟨before, after, -, hstands⟩ := exists_standsBetween hl hr ht
  have htype := (hstands.startsOn.spans.1 hmulti).1
  have hlow : t.firstLine ≤ t.line := by
    rw [hstands.startsOn.first]
    exact hstands.startsOn.le_line
  have hlength := firstLine_add_length_physicalLines hl hr hmixed ht htype
  refine ⟨hlow, by omega, ?_⟩
  intro j piece hpiece
  exact exists_lineAt?_of_piece hl hr hmixed ht htype hpiece

end Markup

end OneEnding

end TemplateLint
