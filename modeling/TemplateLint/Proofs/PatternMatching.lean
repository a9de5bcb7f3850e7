import Mathlib.Data.List.Forall2
import TemplateLint.Proofs.PatternRegex
import TemplateLint.Proofs.TaskPattern

/-!
# Where a pattern occurs

A pattern is looked for from the end of a path to its start, with one bit for each of its tails. The
bits say which tails a match starts with, so the pattern is found exactly if some slice of the path
comes from it by putting texts without line feeds for the stars and equal characters, up to case,
for the rest.
-/

namespace TemplateLint

namespace PatternPart

/-- Whether a text comes from parts of a pattern, with upper and lower case apart. -/
def Matches : List PatternPart → Text → Prop
  | [], m => m = []
  | .literal c :: parts, m => ∃ rest, m = c :: rest ∧ Matches parts rest
  | .wildcard :: parts, m => ∃ w rest, m = w ++ rest ∧ '\n' ∉ w ∧ Matches parts rest

/-- Whether a text starts with one that comes from parts of a pattern. -/
def MatchesStart (parts : List PatternPart) (s : Text) : Prop :=
  ∃ m after, s = m ++ after ∧ Matches parts m

section Start

variable {c d : Char} {parts : List PatternPart} {s : Text}

theorem matchesStart_nil (s : Text) : MatchesStart [] s := ⟨[], s, rfl, rfl⟩

theorem not_matchesStart_literal_nil : ¬ MatchesStart (.literal d :: parts) [] := by
  rintro ⟨_, after, hs, m, rfl, -⟩
  simp at hs

theorem matchesStart_literal_cons :
    MatchesStart (.literal d :: parts) (c :: s) ↔ c = d ∧ MatchesStart parts s := by
  constructor
  · rintro ⟨_, after, hs, m, rfl, hm⟩
    obtain ⟨rfl, rfl⟩ := List.cons.inj hs
    exact ⟨rfl, m, after, rfl, hm⟩
  · rintro ⟨rfl, m, after, rfl, hm⟩
    exact ⟨c :: m, after, rfl, m, rfl, hm⟩

theorem MatchesStart.wildcard (h : MatchesStart parts s) : MatchesStart (.wildcard :: parts) s := by
  obtain ⟨m, after, hs, hm⟩ := h
  exact ⟨m, after, hs, [], m, rfl, List.not_mem_nil, hm⟩

theorem matchesStart_wildcard_nil :
    MatchesStart (.wildcard :: parts) [] ↔ MatchesStart parts [] := by
  constructor
  · rintro ⟨_, after, hs, w, m, rfl, -, hm⟩
    obtain ⟨hwm, rfl⟩ := List.append_eq_nil_iff.1 hs.symm
    obtain ⟨-, rfl⟩ := List.append_eq_nil_iff.1 hwm
    exact ⟨[], [], rfl, hm⟩
  · exact MatchesStart.wildcard

/-- A star stands for nothing here, or for this character and what a star stands for behind it. -/
theorem matchesStart_wildcard_cons :
    MatchesStart (.wildcard :: parts) (c :: s) ↔
      MatchesStart parts (c :: s) ∨ (c ≠ '\n' ∧ MatchesStart (.wildcard :: parts) s) := by
  constructor
  · rintro ⟨_, after, hs, w, m, rfl, hw, hm⟩
    cases w with
    | nil => exact Or.inl ⟨m, after, hs, hm⟩
    | cons a w =>
        obtain ⟨rfl, rfl⟩ := List.cons.inj hs
        rw [List.mem_cons, not_or] at hw
        exact Or.inr ⟨Ne.symm hw.1, w ++ m, after, rfl, w, m, rfl, hw.2, hm⟩
  · rintro (h | ⟨hc, _, after, rfl, w, m, rfl, hw, hm⟩)
    · exact h.wildcard
    · exact ⟨c :: (w ++ m), after, rfl, c :: w, m, rfl, by simp [hc.symm, hw], hm⟩

end Start

/-- Whether the bits of a row say for each tail of a pattern if a match of it starts the text. -/
def RowFor (parts : List PatternPart) (s : Text) (row : List Bool) : Prop :=
  List.Forall₂ (fun tail here => here = true ↔ MatchesStart tail s) parts.tails row

section Rows

variable {c : Char} {part : PatternPart} {parts : List PatternPart} {s : Text} {here : Bool}
  {row later : List Bool}

theorem rowFor_nil_iff : RowFor [] s row ↔ row = [true] := by
  simp [RowFor, matchesStart_nil, List.forall₂_cons_left_iff]

theorem rowFor_cons_iff :
    RowFor (part :: parts) s row ↔
      ∃ here later, (here = true ↔ MatchesStart (part :: parts) s) ∧ RowFor parts s later ∧
        row = here :: later := by
  simp [RowFor, List.forall₂_cons_left_iff]

theorem RowFor.headD (h : RowFor parts s row) : row.headD false = true ↔ MatchesStart parts s := by
  cases parts with
  | nil => simp [rowFor_nil_iff.1 h, matchesStart_nil]
  | cons part parts =>
      obtain ⟨here, later, hhere, -, rfl⟩ := rowFor_cons_iff.1 h
      exact hhere

theorem rowFor_atEnd (parts : List PatternPart) : RowFor parts [] (atEnd parts) := by
  induction parts with
  | nil => exact rowFor_nil_iff.2 rfl
  | cons part parts ih =>
      refine rowFor_cons_iff.2 ?_
      cases part with
      | literal d => exact ⟨false, atEnd parts, by simp [not_matchesStart_literal_nil], ih, rfl⟩
      | wildcard => exact ⟨_, atEnd parts, ih.headD.trans matchesStart_wildcard_nil.symm, ih, rfl⟩

/-- One character further to the left, the row for the rest of the text gives the next row. -/
theorem RowFor.stepBack (c : Char) (h : RowFor parts s row) :
    RowFor parts (c :: s) (stepBack c parts row) := by
  induction parts generalizing row with
  | nil => exact rowFor_nil_iff.2 rfl
  | cons part parts ih =>
      obtain ⟨here, later, hhere, hlater, rfl⟩ := rowFor_cons_iff.1 h
      have hrest := ih hlater
      rw [rowFor_cons_iff]
      cases part with
      | literal d =>
          refine ⟨c == d && later.headD false, _, ?_, hrest, rfl⟩
          rw [Bool.and_eq_true, beq_iff_eq, hlater.headD, matchesStart_literal_cons]
      | wildcard =>
          refine ⟨(PatternPart.stepBack c parts later).headD false || (c != '\n' && here), _, ?_,
            hrest, rfl⟩
          rw [Bool.or_eq_true, Bool.and_eq_true, bne_iff_ne, hrest.headD, hhere,
            matchesStart_wildcard_cons]

theorem rowFor_matchRow (parts : List PatternPart) (s : Text) :
    RowFor parts s (matchRow parts s).1 := by
  induction s with
  | nil => exact rowFor_atEnd parts
  | cons c s ih => exact ih.stepBack c

theorem matchRow_snd_iff (parts : List PatternPart) (s : Text) :
    (matchRow parts s).2 = true ↔ ∃ before rest, s = before ++ rest ∧ MatchesStart parts rest := by
  induction s with
  | nil =>
      refine (rowFor_atEnd parts).headD.trans ⟨fun h => ⟨[], [], rfl, h⟩, ?_⟩
      rintro ⟨before, rest, hs, h⟩
      obtain ⟨rfl, rfl⟩ := List.append_eq_nil_iff.1 hs.symm
      exact h
  | cons c s ih =>
      have hhere := (rowFor_matchRow parts (c :: s)).headD
      change ((matchRow parts s).2 || (matchRow parts (c :: s)).1.headD false) = true ↔ _
      rw [Bool.or_eq_true, ih, hhere]
      constructor
      · rintro (⟨before, rest, rfl, h⟩ | h)
        · exact ⟨c :: before, rest, rfl, h⟩
        · exact ⟨[], c :: s, rfl, h⟩
      · rintro ⟨before, rest, hs, h⟩
        cases before with
        | nil =>
            obtain rfl : c :: s = rest := hs
            exact Or.inr h
        | cons a before =>
            obtain ⟨rfl, rfl⟩ := List.cons.inj hs
            exact Or.inl ⟨before, rest, rfl, h⟩

end Rows

end PatternPart

section Case

theorem CaseFold.fold_eq_lf_iff (c : Char) : CaseFold.fold c = '\n' ↔ c = '\n' := by
  have hranges : ∀ r ∈ CaseFold.ranges, 0x0A < r.first ∧ 0x0A < r.image := by decide +kernel
  cases himage : CaseFold.ranges.findSome? (·.image? c.toNat) with
  | none => simp [CaseFold.fold, himage]
  | some n =>
      obtain ⟨r, hr, hn⟩ := List.exists_of_findSome?_eq_some himage
      simp only [CaseFold.Range.image?, Option.ite_none_right_eq_some, Option.some.injEq] at hn
      have hbounds := hranges r hr
      have hof := toNat_ofNat_eq_or n
      refine iff_of_false (fun hfold => ?_) (fun hc => ?_)
      · have hcode := congrArg Char.toNat hfold
        simp only [CaseFold.fold, himage, Option.map_some, Option.getD_some] at hcode
        change _ = 0x0A at hcode
        omega
      · have hcode : c.toNat = 0x0A := congrArg Char.toNat hc
        omega

/-- Whether a text may be put for a character of a pattern: any without a line feed for a star, and
one character that is equal up to case for any other. -/
def StandsFor (c : Char) (piece : Text) : Prop :=
  if c = '*' then '\n' ∉ piece else ∃ d, piece = [d] ∧ CaseFold.fold d = CaseFold.fold c

theorem standsFor_star_iff {piece : Text} : StandsFor '*' piece ↔ '\n' ∉ piece := by
  simp [StandsFor]

theorem standsFor_iff {c : Char} (hc : c ≠ '*') {piece : Text} :
    StandsFor c piece ↔ ∃ d, piece = [d] ∧ CaseFold.fold d = CaseFold.fold c := by
  simp [StandsFor, hc]

/-- Folding the pattern and the text comes to comparing their characters up to case. -/
theorem matches_map_fold_iff (pattern m : Text) :
    PatternPart.Matches (pattern.map fun c => (PatternPart.ofChar c).folded)
        (m.map CaseFold.fold) ↔
      ∃ pieces, m = pieces.flatten ∧ List.Forall₂ StandsFor pattern pieces := by
  induction pattern generalizing m with
  | nil => simp [PatternPart.Matches]
  | cons c pattern ih =>
      simp only [List.map_cons, List.forall₂_cons_left_iff]
      by_cases hc : c = '*'
      · have hpart : (PatternPart.ofChar c).folded = .wildcard := by
          simp [PatternPart.ofChar, PatternPart.folded, hc]
        have hlf (w : Text) : '\n' ∉ w.map CaseFold.fold ↔ '\n' ∉ w := by
          simp [CaseFold.fold_eq_lf_iff]
        rw [hpart]
        constructor
        · rintro ⟨_, _, hm, hw, hrest⟩
          obtain ⟨w, rest, rfl, rfl, rfl⟩ := List.map_eq_append_iff.1 hm
          rw [hlf, ← standsFor_star_iff, ← hc] at hw
          obtain ⟨pieces, rfl, hpieces⟩ := (ih rest).1 hrest
          exact ⟨w :: pieces, rfl, w, pieces, hw, hpieces, rfl⟩
        · rintro ⟨_, rfl, w, pieces, hw, hpieces, rfl⟩
          rw [hc, standsFor_star_iff, ← hlf w] at hw
          exact ⟨_, _, List.map_append, hw, (ih _).2 ⟨pieces, rfl, hpieces⟩⟩
      · have hpart : (PatternPart.ofChar c).folded = .literal (CaseFold.fold c) := by
          simp [PatternPart.ofChar, PatternPart.folded, hc]
        rw [hpart]
        constructor
        · rintro ⟨_, hm, hrest⟩
          obtain ⟨d, rest, rfl, hd, rfl⟩ := List.map_eq_cons_iff.1 hm
          obtain ⟨pieces, rfl, hpieces⟩ := (ih rest).1 hrest
          exact ⟨[d] :: pieces, rfl, [d], pieces, (standsFor_iff hc).2 ⟨d, rfl, hd⟩, hpieces, rfl⟩
        · rintro ⟨_, rfl, piece, pieces, hpiece, hpieces, rfl⟩
          obtain ⟨d, rfl, hd⟩ := (standsFor_iff hc).1 hpiece
          exact ⟨pieces.flatten.map CaseFold.fold, by simp [hd], (ih _).2 ⟨pieces, rfl, hpieces⟩⟩

end Case

theorem IgnorePattern.pattern_of_ofText {scope pattern : Text} {compiles : Text → Bool}
    {p : IgnorePattern} (h : ofText scope pattern compiles = .ok p) : p.pattern = pattern := by
  rw [ofText] at h
  split at h
  · rw [← Except.ok.inj h]
  · simp at h

/-- A pattern, whichever are refused, matches a path exactly if some slice of the path comes from it
by putting a text without line feeds for each star and a character that is equal up to case for each
other character, where a backslash and a comma are one comma. -/
theorem isMatch_iff_occurs {pattern : Text} {p : IgnorePattern} (h : p.pattern = pattern)
    (path : Text) :
    p.isMatch path ↔ ∃ before pieces after, path = before ++ pieces.flatten ++ after ∧
      List.Forall₂ StandsFor (readCommas pattern) pieces := by
  have hparts : (PatternPart.ofText p.pattern).map PatternPart.folded =
      (readCommas pattern).map fun c => (PatternPart.ofChar c).folded := by
    rw [h, PatternPart.ofText_eq, List.map_map]
    rfl
  rw [IgnorePattern.isMatch, hparts, PatternPart.matchRow_snd_iff]
  constructor
  · rintro ⟨_, _, hpath, _, _, rfl, hm⟩
    obtain ⟨before, rest, rfl, rfl, hrest⟩ := List.map_eq_append_iff.1 hpath
    obtain ⟨m, after, rfl, rfl, rfl⟩ := List.map_eq_append_iff.1 hrest
    obtain ⟨pieces, rfl, hpieces⟩ := (matches_map_fold_iff _ m).1 hm
    exact ⟨before, pieces, after, (List.append_assoc ..).symm, hpieces⟩
  · rintro ⟨before, pieces, after, rfl, hpieces⟩
    refine ⟨before.map CaseFold.fold, (pieces.flatten ++ after).map CaseFold.fold, by simp, ?_⟩
    exact ⟨_, _, List.map_append, (matches_map_fold_iff _ _).2 ⟨pieces, rfl, hpieces⟩⟩

/-- A comma behind a backslash, a star behind another one, and a long s that folds to the letter;
the star does not go over a line feed. -/
theorem isMatch_iff_occurs_long_s :
    let pattern := "B\\,\\*\u017F".toList
    let path := "a\nb,\\xyS!".toList
    let broken := "b,\\x\nyS".toList
    ∃ p, IgnorePattern.ofText globalScope pattern = .ok p ∧
      p.isMatch path ∧
      (∃ before pieces after, path = before ++ pieces.flatten ++ after ∧
        List.Forall₂ StandsFor (readCommas pattern) pieces) ∧
      ∀ before pieces after, broken = before ++ pieces.flatten ++ after →
        ¬ List.Forall₂ StandsFor (readCommas pattern) pieces := by
  intro pattern path broken
  let p : IgnorePattern := ⟨globalScope, pattern⟩
  have hp : IgnorePattern.ofText globalScope pattern = .ok p := by rfl
  have hpattern := IgnorePattern.pattern_of_ofText hp
  have hpath : p.isMatch path := by decide +kernel
  have hbroken : ¬ p.isMatch broken := by decide +kernel
  refine ⟨p, hp, hpath, (isMatch_iff_occurs hpattern path).1 hpath, ?_⟩
  intro before pieces after heq hpieces
  exact hbroken ((isMatch_iff_occurs hpattern broken).2 ⟨before, pieces, after, heq, hpieces⟩)

end TemplateLint
