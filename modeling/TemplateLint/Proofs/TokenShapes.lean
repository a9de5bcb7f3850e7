import TemplateLint.Proofs.BreakRewriting
import TemplateLint.Proofs.TagSegments
import TemplateLint.Proofs.TextGrammar

/-!
# The shapes of tokens

The grammar of the text between tags, carried over to whole templates: a token that is no tag has
the shape of a lexeme of its type, and of two tokens side by side one is a tag, or they may stand
next to each other in a text. From this follows how many lines a token spans and in which character
it ends.
-/

namespace TemplateLint

namespace Markup

variable {m : Markup} {s : Text} {t : Token}

theorem wellFormed_of_mem_lexemes {seen : Bool} {gs : List Segment} {l : Lexeme}
    (h : l ∈ m.lexemes seen gs) (htype : l.type.isTagType = false) : l.WellFormed := by
  fun_induction lexemes m seen gs with
  | case1 => simp at h
  | case2 seen s gs ih =>
      rcases List.mem_append.1 h with h | h
      · exact (Lexeme.isReading_ofText s).wellFormed l h
      · exact ih h
  | case3 seen s gs _ ih =>
      rcases List.mem_cons.1 h with rfl | h
      · cases seen <;> simp [TokenType.isTagType, TokenType.isTemplateComment] at htype
      · exact ih h
  | case4 seen s gs _ ih =>
      rcases List.mem_cons.1 h with rfl | h
      · simp [TokenType.isTagType] at htype
      · exact ih h

theorem wellFormed_of_mem_tokenize (h : t ∈ m.tokenize s) (htype : t.type.isTagType = false) :
    (⟨t.type, t.content⟩ : Lexeme).WellFormed := by
  have hmem : (⟨t.type, t.content⟩ : Lexeme) ∈ m.lexemes false (m.split s) := by
    rw [← map_lexeme_tokenize]
    exact List.mem_map_of_mem h
  exact wellFormed_of_mem_lexemes hmem htype

theorem startsOn_of_getElem? {i : Nat} (h : (m.tokenize s)[i]? = some t) :
    t.StartsOn (1 + (m.tokenize s).breaksBefore i) :=
  Lexeme.startsOn_of_getElem?_place h

theorem isChain_lexemes {seen : Bool} {gs : List Segment}
    (h : gs.IsChain fun g h => g.tag?.isSome ∨ h.tag?.isSome) :
    (m.lexemes seen gs).IsChain fun a b =>
      a.type.isTagType ∨ b.type.isTagType ∨ Lexeme.MayPrecede a b := by
  fun_induction lexemes m seen gs with
  | case1 => exact List.isChain_nil
  | case2 seen s gs ih =>
      have htext := (Lexeme.isReading_ofText s).neighbours
      rw [List.isChain_append]
      refine ⟨htext.imp fun _ _ hab => Or.inr (Or.inr hab), ih h.tail, ?_⟩
      intro a _ b hb
      -- Behind a text there is nothing or a tag.
      cases gs with
      | nil => simp [lexemes] at hb
      | cons g gs =>
          have hg : g.tag?.isSome := by simpa [Segment.tag?] using (List.isChain_cons_cons.1 h).1
          cases g with
          | text u => simp [Segment.tag?] at hg
          | tag u =>
              refine Or.inr (Or.inl ?_)
              rw [lexemes] at hb
              split at hb
              · obtain rfl := Option.some.inj hb
                cases seen <;> rfl
              · obtain rfl := Option.some.inj hb
                rfl
  | case3 seen s gs _ ih =>
      rw [List.isChain_cons]
      refine ⟨fun b _ => Or.inl ?_, ih h.tail⟩
      cases seen <;> rfl
  | case4 seen s gs _ ih =>
      rw [List.isChain_cons]
      exact ⟨fun b _ => Or.inl rfl, ih h.tail⟩

/-- Of two tokens side by side one is a tag, or they may stand next to each other in a text. -/
theorem mayPrecede_of_getElem? {i : Nat} {u : Token} (ht : (m.tokenize s)[i]? = some t)
    (hu : (m.tokenize s)[i + 1]? = some u) :
    t.type.isTagType ∨ u.type.isTagType ∨
      Lexeme.MayPrecede ⟨t.type, t.content⟩ ⟨u.type, u.content⟩ := by
  have hchain : ((m.tokenize s).map fun t => (⟨t.type, t.content⟩ : Lexeme)).IsChain fun a b =>
      a.type.isTagType ∨ b.type.isTagType ∨ Lexeme.MayPrecede a b := by
    rw [map_lexeme_tokenize]
    exact isChain_lexemes (m.isChain_segmentsAfter [] s)
  rw [List.isChain_map] at hchain
  obtain ⟨hlt, rfl⟩ := List.getElem?_eq_some_iff.1 hu
  obtain ⟨-, rfl⟩ := List.getElem?_eq_some_iff.1 ht
  exact List.isChain_iff_getElem.1 hchain i hlt

end Markup

section Shapes

variable {m : Markup} {s : Text} {t : Token}

theorem countLineBreaks_of_unbroken (h : Unbroken s) : countLineBreaks s = 0 := by
  induction s with
  | nil => rfl
  | cons c s ih =>
      have hc := h c List.mem_cons_self
      rw [countLineBreaks, lineBreaks_cons s hc.1 hc.2]
      exact ih h.tail

/-- A line break is one break, and text and white space on a line have none. -/
theorem Lexeme.WellFormed.exists_lineBreak_or_unbroken {l : Lexeme} (h : l.WellFormed)
    (htype : l.type ≠ .htmlComment) :
    (l.type = .newLine ∧ ∃ b : LineBreak, l.content = b.text) ∨
      (l.type ≠ .newLine ∧ Unbroken l.content) := by
  cases h with
  | newLine b => exact Or.inl ⟨rfl, b, rfl⟩
  | tab => exact Or.inr ⟨by simp, by decide⟩
  | space _ hspace =>
      refine Or.inr ⟨by simp, fun c hc => ?_⟩
      rw [hspace c hc]
      decide
  | htmlText _ hplain _ => exact Or.inr ⟨by simp, fun c hc => (hplain c hc).2.2⟩
  | htmlComment => exact absurd rfl htype

theorem Markup.exists_lineBreak_or_unbroken (h : t ∈ m.tokenize s)
    (htag : t.type.isTagType = false) (hcomment : t.type ≠ .htmlComment) :
    (t.type = .newLine ∧ ∃ b : LineBreak, t.content = b.text) ∨
      (t.type ≠ .newLine ∧ Unbroken t.content) :=
  (wellFormed_of_mem_tokenize h htag).exists_lineBreak_or_unbroken hcomment

/-- The kinds of token that show nothing on a page: line breaks, spaces and tabs. -/
def TokenType.isWhite (t : TokenType) : Bool := t == .newLine || t == .space || t == .tab

theorem Markup.countLineBreaks_of_isWhite (h : t ∈ m.tokenize s) (htype : t.type.isWhite) :
    countLineBreaks t.content = if t.type = .newLine then 1 else 0 := by
  have htag : t.type.isTagType = false ∧ t.type ≠ .htmlComment := by
    revert htype
    cases t.type <;> simp [TokenType.isWhite, TokenType.isTagType, TokenType.isTemplateComment]
  rcases exists_lineBreak_or_unbroken h htag.1 htag.2 with ⟨hnew, b, hb⟩ | ⟨hnew, hunbroken⟩
  · rw [if_pos hnew, hb]
    cases b <;> rfl
  · rw [if_neg hnew, countLineBreaks_of_unbroken hunbroken]

theorem Markup.sum_countLineBreaks_of_isWhite {ts : TokenStream}
    (hmem : ∀ t ∈ ts, t ∈ m.tokenize s) (hwhite : ∀ t ∈ ts, t.type.isWhite) :
    (ts.map fun t => countLineBreaks t.content).sum = ts.countP fun t => t.type == .newLine := by
  induction ts with
  | nil => rfl
  | cons t ts ih =>
      have ht := countLineBreaks_of_isWhite (hmem t List.mem_cons_self)
        (hwhite t List.mem_cons_self)
      have hrest := ih (fun u hu => hmem u (List.mem_cons_of_mem _ hu))
        fun u hu => hwhite u (List.mem_cons_of_mem _ hu)
      rw [List.map_cons, List.sum_cons, hrest, ht, List.countP_cons, Nat.add_comm]
      simp

end Shapes

end TemplateLint
