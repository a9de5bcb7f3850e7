import Mathlib.Data.List.Basic
import Mathlib.Data.List.TakeWhile
import TemplateLint.Proofs.LineBreaks
import TemplateLint.Proofs.RoundTrip

/-!
# Line numbers

Every token starts on the line that the breaks inside the tokens before it lead to. These numbers
are the lines of the template, because no token ends between a CR and its LF.
-/

namespace TemplateLint

/-- The line breaks inside the tokens before the one at index `i`. -/
def TokenStream.breaksBefore (ts : TokenStream) (i : Nat) : Nat :=
  ((ts.take i).map fun t => countLineBreaks t.content).sum

/-- How much text the tokens before the one at index `i` cover. -/
def TokenStream.offset (ts : TokenStream) (i : Nat) : Nat :=
  (TokenStream.source (ts.take i)).length

/-- What the line numbers of a token that starts on `line` are. -/
structure Token.StartsOn (t : Token) (line : Nat) : Prop where
  first : t.firstLine = line
  last : t.line = if t.type = .newLine then line else line + countLineBreaks t.content
  spans : t.start.isSome ↔ t.type ≠ .newLine ∧ 0 < countLineBreaks t.content

theorem Token.StartsOn.le_line {t : Token} {line : Nat} (h : t.StartsOn line) : line ≤ t.line := by
  rw [h.last]
  split <;> omega

theorem Token.StartsOn.line_le {t : Token} {line : Nat} (h : t.StartsOn line) :
    t.line ≤ line + countLineBreaks t.content := by
  rw [h.last]
  split <;> omega

namespace Lexeme

/-- One step of numbering: the first token starts on the given line, and the next one where the
breaks of the first lead. -/
theorem place_cons (line : Nat) (l : Lexeme) (ls : List Lexeme) :
    ∃ t : Token, place line (l :: ls) = t :: place (line + countLineBreaks l.content) ls ∧
      t.type = l.type ∧ t.content = l.content ∧ t.StartsOn line := by
  by_cases hnew : l.type = .newLine
  · refine ⟨⟨l.type, l.content, line, none⟩, ?_, rfl, rfl, ?_⟩
    · rw [place, if_pos hnew]
    · constructor <;> simp [Token.firstLine, hnew]
  · by_cases hzero : countLineBreaks l.content = 0
    · refine ⟨⟨l.type, l.content, line, none⟩, ?_, rfl, rfl, ?_⟩
      · rw [place, if_neg hnew, if_pos hzero, hzero, Nat.add_zero]
      · constructor <;> simp [Token.firstLine, hzero]
    · refine ⟨⟨l.type, l.content, line + countLineBreaks l.content, some line⟩, ?_, rfl, rfl, ?_⟩
      · rw [place, if_neg hnew, if_neg hzero]
      · constructor
        · rfl
        · simp [hnew]
        · simp [hnew, Nat.pos_of_ne_zero hzero]

theorem startsOn_of_getElem?_place {line i : Nat} {ls : List Lexeme} {t : Token}
    (h : (place line ls)[i]? = some t) :
    t.StartsOn (line + TokenStream.breaksBefore (place line ls) i) := by
  induction ls generalizing line i with
  | nil => simp [place] at h
  | cons l ls ih =>
      obtain ⟨u, hplace, -, hcontent, hu⟩ := place_cons line l ls
      rw [hplace] at h ⊢
      cases i with
      | zero =>
          have hut : u = t := by simpa using h
          simpa [TokenStream.breaksBefore, ← hut] using hu
      | succ i =>
          have ht := ih (by simpa using h)
          simpa [TokenStream.breaksBefore, hcontent, Nat.add_assoc] using ht

theorem le_line_of_mem_place {line : Nat} {ls : List Lexeme} {t : Token} (h : t ∈ place line ls) :
    line ≤ t.line := by
  obtain ⟨i, hi⟩ := List.mem_iff_getElem?.1 h
  have hline := (startsOn_of_getElem?_place hi).le_line
  omega

theorem pairwise_line_place (line : Nat) (ls : List Lexeme) :
    (place line ls).Pairwise fun t u => t.line ≤ u.line := by
  induction ls generalizing line with
  | nil => simp [place]
  | cons l ls ih =>
      obtain ⟨t, hplace, -, hcontent, ht⟩ := place_cons line l ls
      rw [hplace, List.pairwise_cons]
      refine ⟨?_, ih _⟩
      intro u hu
      have hlow := le_line_of_mem_place hu
      have hhigh := ht.line_le
      rw [hcontent] at hhigh
      exact Nat.le_trans hhigh hlow

theorem ne_of_mem_textRun {s : Text} {c : Char} (h : c ∈ (textRun s).1) :
    c ≠ ' ' ∧ c ≠ '\t' ∧ c ≠ '\r' ∧ c ≠ '\n' := by
  induction s with
  | nil => simp [textRun] at h
  | cons d s ih =>
      rw [textRun] at h
      split at h
      · simp at h
      next hd =>
        rcases List.mem_cons.1 h with rfl | h
        · simp only [endsTextRun, Bool.or_eq_true, not_or, beq_iff_eq] at hd
          exact ⟨hd.1.1.1.1, hd.1.1.1.2, hd.1.1.2, hd.1.2⟩
        · exact ih h

theorem htmlComment_ends (s : Text) :
    (htmlComment s).1.getLast? = some '>' ∨ (htmlComment s).2 = [] := by
  rw [htmlComment]
  split
  next inner after _ =>
    left
    rw [List.getLast?_append]
    rfl
  next => exact Or.inr rfl

/-- No lexeme ends between a CR and its LF: a CR that is read takes its LF along, and the others
end in something else or with the text. -/
theorem not_cutsBreak_next (c : Char) (s : Text) :
    ¬ CutsBreak (next c s).1.content (next c s).2 := by
  intro hcut
  unfold next at hcut
  split at hcut
  · split at hcut
    · simp [CutsBreak] at hcut
    next hs =>
      obtain ⟨-, hhead⟩ := hcut
      cases s with
      | nil => simp at hhead
      | cons d s =>
          have hd : d = '\n' := by simpa using hhead
          exact hs s (by rw [hd])
  next hr =>
    split at hcut
    · simp [CutsBreak] at hcut
    next hn =>
      split at hcut
      · simp [CutsBreak] at hcut
      · split at hcut
        · have hmem := List.mem_of_getLast? hcut.1
          rcases List.mem_cons.1 hmem with h | h
          · simp at h
          · have hall := List.mem_takeWhile_imp h
            simp at hall
        · split at hcut
          · rcases htmlComment_ends (c :: s) with h | h
            · rw [CutsBreak, h] at hcut
              simp at hcut
            · rw [CutsBreak, h] at hcut
              simp at hcut
          · have hmem := List.mem_of_getLast? hcut.1
            rcases List.mem_cons.1 hmem with h | h
            · exact hr h.symm
            · exact (ne_of_mem_textRun h).2.2.1 rfl

theorem keepsBreaks_ofText {s rest : Text} (h : ¬ CutsBreak s rest) :
    KeepsBreaks ((ofText s).map Lexeme.content) rest := by
  fun_induction ofText s with
  | case1 => trivial
  | case2 c s ih =>
      have hflat : ((ofText (next c s).2).map Lexeme.content).flatten = (next c s).2 := by
        rw [← List.flatMap_def, flatMap_content_ofText]
      rw [← next_append c s] at h
      refine ⟨?_, ?_⟩
      · rw [hflat]
        -- The lexeme is followed by the rest of this text, or by `rest` if it is the last one.
        cases hnext : (next c s).2 with
        | nil => simpa [hnext] using h
        | cons d ds =>
            have hcut := not_cutsBreak_next c s
            rw [hnext] at hcut
            exact hcut
      · exact ih (not_cutsBreak_of_suffix h)

end Lexeme

namespace Markup

variable {m : Markup}

/-- A text that starts with the left delimiter starts with no LF if the delimiter does not. -/
theorem not_cutsBreak_left (hl : m.left.head? ≠ some '\n') (s t : Text) :
    ¬ CutsBreak s (m.left ++ t) := by
  intro hcut
  rw [CutsBreak, List.head?_append_of_ne_nil _ m.left_ne_nil] at hcut
  exact hl hcut.2

theorem not_cutsBreak_right (hr : m.right.getLast? ≠ some '\r') (s t : Text) :
    ¬ CutsBreak (s ++ m.right) t := by
  intro hcut
  rw [CutsBreak, List.getLast?_append_of_ne_nil _ m.right_ne_nil] at hcut
  exact hr hcut.1

theorem keepsBreaks_segmentsAfter (hl : m.left.head? ≠ some '\n')
    (hr : m.right.getLast? ≠ some '\r') (pending s : Text) :
    KeepsBreaks ((m.segmentsAfter pending s).map Segment.content) [] := by
  have hlast (s : Text) : KeepsBreaks ((Segment.ofText s).map Segment.content) [] := by
    by_cases hs : s = []
    · simp [Segment.ofText, hs, KeepsBreaks]
    · simp [Segment.ofText, hs, KeepsBreaks, CutsBreak]
  fun_induction segmentsAfter m pending s with
  | case1 | case3 => exact hlast _
  | case2 _ _ _ _ _ _ ih => exact ih
  | case4 _ _ _ _ _ _ _ _ _ _ ih => exact ih
  | case5 pending s before inside _ _ body after _ _ ih =>
      rw [List.map_append, keepsBreaks_append]
      refine ⟨?_, ?_, ih⟩
      · by_cases hs : pending ++ before = []
        · simp [Segment.ofText, hs, KeepsBreaks]
        · simp only [Segment.ofText, if_neg hs, List.map_cons, List.map_nil, KeepsBreaks,
            List.flatten_cons, List.flatten_nil, Segment.content, List.nil_append, and_true,
            List.append_assoc]
          exact not_cutsBreak_left hl _ _
      · exact not_cutsBreak_right hr _ _

theorem keepsBreaks_lexemes {gs : List Segment} {rest : Text} (seen : Bool)
    (h : KeepsBreaks (gs.map Segment.content) rest) :
    KeepsBreaks ((m.lexemes seen gs).map Lexeme.content) rest := by
  have hflat (seen : Bool) (gs : List Segment) :
      ((m.lexemes seen gs).map Lexeme.content).flatten = (gs.map Segment.content).flatten := by
    rw [← List.flatMap_def, flatMap_content_lexemes, List.flatMap_def]
  fun_induction lexemes m seen gs with
  | case1 => trivial
  | case2 seen s gs ih =>
      rw [List.map_append, keepsBreaks_append, hflat]
      exact ⟨Lexeme.keepsBreaks_ofText h.1, ih h.2⟩
  | case3 seen s gs _ ih | case4 seen s gs _ ih =>
      refine ⟨?_, ih h.2⟩
      rw [hflat]
      exact h.1

theorem keepsBreaks_tokenize (hl : m.left.head? ≠ some '\n') (hr : m.right.getLast? ≠ some '\r')
    (s : Text) : KeepsBreaks ((m.tokenize s).map Token.content) [] := by
  rw [tokenize, Lexeme.map_content_place]
  exact keepsBreaks_lexemes false (keepsBreaks_segmentsAfter hl hr [] s)

theorem source_take_tokenize (s : Text) (i : Nat) :
    TokenStream.source ((m.tokenize s).take i) = s.take ((m.tokenize s).offset i) := by
  have happend : TokenStream.source ((m.tokenize s).take i) ++
      TokenStream.source ((m.tokenize s).drop i) = s := by
    rw [TokenStream.source, TokenStream.source, ← List.flatMap_append, List.take_append_drop]
    exact m.source_tokenize s
  have htake := congrArg (List.take ((m.tokenize s).offset i)) happend
  rw [TokenStream.offset, List.take_left] at htake
  exact htake

theorem breaksBefore_tokenize (hl : m.left.head? ≠ some '\n') (hr : m.right.getLast? ≠ some '\r')
    (s : Text) (i : Nat) :
    (m.tokenize s).breaksBefore i = countLineBreaks (s.take ((m.tokenize s).offset i)) := by
  have hkeeps := keepsBreaks_tokenize hl hr s
  rw [← List.take_append_drop i (m.tokenize s), List.map_append, keepsBreaks_append] at hkeeps
  rw [← source_take_tokenize, TokenStream.source, List.flatMap_def,
    countLineBreaks_flatten hkeeps.1, TokenStream.breaksBefore, List.map_map]
  rfl

/-- Every token starts on the line that the breaks inside the tokens before it lead to and ends on
the line that its own breaks lead to, where a line break ends on its own line. So lines never
descend. If no delimiter can part a CR from an LF, these are the lines of the template. -/
theorem tokenize_lines (m : Markup) (s : Text) :
    (∀ i t, (m.tokenize s)[i]? = some t →
      t.firstLine = 1 + (m.tokenize s).breaksBefore i ∧
      t.line = (if t.type = .newLine then t.firstLine
        else t.firstLine + countLineBreaks t.content) ∧
      (t.start.isSome ↔ t.type ≠ .newLine ∧ 0 < countLineBreaks t.content)) ∧
    (m.tokenize s).Pairwise (fun t u => t.line ≤ u.line) ∧
    (m.left.head? ≠ some '\n' → m.right.getLast? ≠ some '\r' → ∀ i,
      (m.tokenize s).breaksBefore i = countLineBreaks (s.take ((m.tokenize s).offset i))) := by
  refine ⟨?_, Lexeme.pairwise_line_place 1 _, fun hl hr => breaksBefore_tokenize hl hr s⟩
  intro i t ht
  have hstarts := Lexeme.startsOn_of_getElem?_place ht
  refine ⟨hstarts.first, ?_, hstarts.spans⟩
  rw [hstarts.first]
  exact hstarts.last

/-- A tag over two lines, after a CRLF and before a CR. -/
theorem tokenize_lines_spanning_tag :
    (Markup.standard.tokenize "a\r\n\x7bx\r\ny\x7d\r".toList)[2]? =
        some ⟨.tag, "\x7bx\r\ny\x7d".toList, 3, some 2⟩ ∧
      2 = 1 + (Markup.standard.tokenize "a\r\n\x7bx\r\ny\x7d\r".toList).breaksBefore 2 ∧
      (Markup.standard.tokenize "a\r\n\x7bx\r\ny\x7d\r".toList).breaksBefore 3 =
        countLineBreaks "a\r\n\x7bx\r\ny\x7d".toList := by
  have htoken : (Markup.standard.tokenize "a\r\n\x7bx\r\ny\x7d\r".toList)[2]? =
      some ⟨.tag, "\x7bx\r\ny\x7d".toList, 3, some 2⟩ := by decide +kernel
  have hlines := tokenize_lines Markup.standard "a\r\n\x7bx\r\ny\x7d\r".toList
  have hoffset : (Markup.standard.tokenize "a\r\n\x7bx\r\ny\x7d\r".toList).offset 3 = 9 := by
    decide +kernel
  have hprefix := hlines.2.2 (by decide) (by decide) 3
  rw [hoffset] at hprefix
  exact ⟨htoken, (hlines.1 2 _ htoken).1, hprefix⟩

end Markup

end TemplateLint
