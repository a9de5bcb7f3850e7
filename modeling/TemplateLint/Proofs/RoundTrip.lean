import TemplateLint.Token.Scan

/-!
# Nothing is lost in scanning

Segments, lexemes and tokens each cover the whole template, in order and without empty pieces.
-/

namespace TemplateLint

@[simp]
theorem Segment.flatMap_content_ofText (s : Text) :
    (Segment.ofText s).flatMap Segment.content = s := by
  by_cases h : s = []
  · simp [Segment.ofText, h]
  · simp [Segment.ofText, h, Segment.content]

theorem Segment.content_ne_nil_of_mem_ofText {s : Text} {g : Segment}
    (h : g ∈ Segment.ofText s) : g.content ≠ [] := by
  by_cases hs : s = []
  · simp [Segment.ofText, hs] at h
  · have hg : g = .text s := by simpa [Segment.ofText, hs] using h
    simpa [hg, Segment.content] using hs

namespace Markup

/-- Text that belongs to no tag is not forgotten, whichever way a left delimiter turns out. -/
theorem flatMap_content_segmentsAfter (m : Markup) (pending s : Text) :
    (m.segmentsAfter pending s).flatMap Segment.content = pending ++ s := by
  fun_induction segmentsAfter m pending s with
  | case1 pending s _ => exact Segment.flatMap_content_ofText _
  | case2 pending s before inside ho _ ih =>
      rw [ih, eq_of_breakAt ho]
      simp
  | case3 pending s before inside ho _ _ => exact Segment.flatMap_content_ofText _
  | case4 pending s before inside ho _ body after hc _ ih =>
      rw [ih, eq_of_breakAt ho, eq_of_closeTag hc]
      simp
  | case5 pending s before inside ho _ body after hc _ ih =>
      rw [List.flatMap_append, List.flatMap_cons, ih, Segment.flatMap_content_ofText,
        eq_of_breakAt ho, eq_of_closeTag hc]
      simp [Segment.content]

theorem flatMap_content_split (m : Markup) (s : Text) :
    (m.split s).flatMap Segment.content = s := by
  simp [split, flatMap_content_segmentsAfter]

theorem content_ne_nil_of_mem_segmentsAfter (m : Markup) (pending s : Text) {g : Segment}
    (h : g ∈ m.segmentsAfter pending s) : g.content ≠ [] := by
  fun_induction segmentsAfter m pending s with
  | case1 | case3 => exact Segment.content_ne_nil_of_mem_ofText h
  | case2 _ _ _ _ _ _ ih => exact ih h
  | case4 _ _ _ _ _ _ _ _ _ _ ih => exact ih h
  | case5 _ _ _ _ _ _ body _ _ _ ih =>
      rcases List.mem_append.1 h with h | h
      · exact Segment.content_ne_nil_of_mem_ofText h
      · rcases List.mem_cons.1 h with rfl | h
        · simp [Segment.content, m.left_ne_nil]
        · exact ih h

theorem content_ne_nil_of_mem_split (m : Markup) (s : Text) {g : Segment} (h : g ∈ m.split s) :
    g.content ≠ [] :=
  m.content_ne_nil_of_mem_segmentsAfter [] s h

end Markup

namespace Lexeme

theorem flatMap_content_ofText (s : Text) : (ofText s).flatMap Lexeme.content = s := by
  fun_induction ofText s with
  | case1 => rfl
  | case2 c s ih => rw [List.flatMap_cons, ih, next_append]

theorem content_ne_nil_of_mem_ofText (s : Text) {l : Lexeme} (h : l ∈ ofText s) :
    l.content ≠ [] := by
  fun_induction ofText s with
  | case1 => simp at h
  | case2 c s ih =>
      rcases List.mem_cons.1 h with rfl | h
      · exact next_content_ne_nil c s
      · exact ih h

/-- Numbering lines leaves types and contents as they are. -/
theorem map_lexeme_place (line : Nat) (ls : List Lexeme) :
    (place line ls).map (fun t => (⟨t.type, t.content⟩ : Lexeme)) = ls := by
  induction ls generalizing line with
  | nil => rfl
  | cons l ls ih =>
      rw [place]
      split
      · simp [ih]
      · split <;> simp [ih]

theorem map_content_place (line : Nat) (ls : List Lexeme) :
    (place line ls).map Token.content = ls.map Lexeme.content := by
  have h := congrArg (List.map Lexeme.content) (map_lexeme_place line ls)
  rw [← h, List.map_map]
  rfl

end Lexeme

namespace Markup

theorem flatMap_content_lexemes (m : Markup) (seen : Bool) (gs : List Segment) :
    (m.lexemes seen gs).flatMap Lexeme.content = gs.flatMap Segment.content := by
  fun_induction lexemes m seen gs with
  | case1 => rfl
  | case2 seen s gs ih =>
      rw [List.flatMap_append, ih, Lexeme.flatMap_content_ofText, List.flatMap_cons]
      rfl
  | case3 seen s gs _ ih | case4 seen s gs _ ih =>
      rw [List.flatMap_cons, List.flatMap_cons, ih]
      rfl

theorem content_ne_nil_of_mem_lexemes (m : Markup) (seen : Bool) (gs : List Segment)
    (hg : ∀ g ∈ gs, g.content ≠ []) {l : Lexeme} (h : l ∈ m.lexemes seen gs) :
    l.content ≠ [] := by
  fun_induction lexemes m seen gs with
  | case1 => simp at h
  | case2 seen s gs ih =>
      rcases List.mem_append.1 h with h | h
      · exact Lexeme.content_ne_nil_of_mem_ofText s h
      · exact ih (fun g hm => hg g (List.mem_cons_of_mem _ hm)) h
  | case3 seen s gs _ ih | case4 seen s gs _ ih =>
      rcases List.mem_cons.1 h with rfl | h
      · exact hg (.tag s) List.mem_cons_self
      · exact ih (fun g hm => hg g (List.mem_cons_of_mem _ hm)) h

theorem source_tokenize (m : Markup) (s : Text) : TokenStream.source (m.tokenize s) = s := by
  calc
    TokenStream.source (m.tokenize s)
        = ((m.tokenize s).map Token.content).flatten := by
          rw [TokenStream.source, List.flatMap_def]
    _ = (m.lexemes false (m.split s)).flatMap Lexeme.content := by
          rw [tokenize, Lexeme.map_content_place, ← List.flatMap_def]
    _ = s := by rw [flatMap_content_lexemes, flatMap_content_split]

theorem content_ne_nil_of_mem_tokenize (m : Markup) (s : Text) {t : Token}
    (h : t ∈ m.tokenize s) : t.content ≠ [] := by
  have hc : t.content ∈ (m.tokenize s).map Token.content := List.mem_map_of_mem h
  rw [tokenize, Lexeme.map_content_place] at hc
  obtain ⟨l, hl, he⟩ := List.mem_map.1 hc
  rw [← he]
  exact m.content_ne_nil_of_mem_lexemes false _ (fun _ => m.content_ne_nil_of_mem_split s) hl

/-- The tokens of a template, put one after another, are the template, and each of them covers
some of it. -/
theorem tokenize_roundTrip (m : Markup) (s : Text) :
    TokenStream.source (m.tokenize s) = s ∧ ∀ t ∈ m.tokenize s, t.content ≠ [] :=
  ⟨m.source_tokenize s, fun _ => m.content_ne_nil_of_mem_tokenize s⟩

/-- One text as both delimiters, and a tag that is never closed. -/
theorem tokenize_roundTrip_equal_delimiters :
    let m : Markup := ⟨⟨['%'], ['%'], by decide, by decide⟩, true⟩
    TokenStream.source (m.tokenize "x%a% %".toList) = "x%a% %".toList ∧
      ⟨.tag, "%a%".toList, 1, none⟩ ∈ m.tokenize "x%a% %".toList ∧ "%a%".toList ≠ [] := by
  intro m
  have hmem : ⟨.tag, "%a%".toList, 1, none⟩ ∈ m.tokenize "x%a% %".toList := by decide +kernel
  have h := m.tokenize_roundTrip "x%a% %".toList
  exact ⟨h.1, hmem, h.2 _ hmem⟩

end Markup

end TemplateLint
