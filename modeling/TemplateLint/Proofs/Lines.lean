import TemplateLint.Proofs.BreakRewriting

/-!
# Lines

The lines of a text are what its breaks part, however they are written. Where a text is cut without
parting a CR from its LF, the lines of a piece are parts of the lines of the whole. Cutting at one
line ending gives these lines if all breaks are written that way, and in any case no more of them.
-/

namespace TemplateLint

section Cutting

variable {α : Type} [DecidableEq α] {sep : List α}

theorem splitAtSlices_eq (hne : sep ≠ []) (s : List α) :
    splitAtSlices sep s =
      match breakAt sep s with
      | none => [s]
      | some (before, after) => before :: splitAtSlices sep after := by
  rw [splitAtSlices, dif_neg hne, cutEvery]
  split
  next h => rw [h]
  next before after h => simp [h, splitAtSlices, hne]

theorem splitAtSlices_nil (hne : sep ≠ []) : splitAtSlices sep [] = [[]] := by
  simp [splitAtSlices_eq hne, breakAt, hne]

theorem splitAtSlices_self_append (hne : sep ≠ []) (s : List α) :
    splitAtSlices sep (sep ++ s) = [] :: splitAtSlices sep s := by
  have hbreak : breakAt sep (sep ++ s) = some ([], s) := by
    rw [breakAt_eq_some_iff]
    simp
  rw [splitAtSlices_eq hne, hbreak]

theorem splitAtSlices_cons (hne : sep ≠ []) {a : α} {s : List α}
    (h : dropLeading? sep (a :: s) = none) :
    splitAtSlices sep (a :: s) = (splitAtSlices sep s).modifyHead (a :: ·) := by
  rw [splitAtSlices_eq hne, breakAt, h, splitAtSlices_eq hne s]
  cases breakAt sep s <;> rfl

end Cutting

/-- The lines of a text. Every break ends one. -/
def linesOf : Text → List Text
  | [] => [[]]
  | '\r' :: '\n' :: s => [] :: linesOf s
  | '\r' :: s => [] :: linesOf s
  | '\n' :: s => [] :: linesOf s
  | c :: s => (linesOf s).modifyHead (c :: ·)

section Lines

variable {s t : Text}

theorem linesOf_crlf (s : Text) : linesOf ('\r' :: '\n' :: s) = [] :: linesOf s := by
  rw [linesOf]

theorem linesOf_lf (s : Text) : linesOf ('\n' :: s) = [] :: linesOf s := by
  rw [linesOf]

theorem linesOf_cr (h : s.head? ≠ some '\n') : linesOf ('\r' :: s) = [] :: linesOf s := by
  cases s with
  | nil => rfl
  | cons c s =>
      have hc : c ≠ '\n' := by simpa using h
      rw [linesOf]
      simpa using hc

theorem linesOf_cons {c : Char} (s : Text) (hr : c ≠ '\r') (hn : c ≠ '\n') :
    linesOf (c :: s) = (linesOf s).modifyHead (c :: ·) := by
  rw [linesOf] <;> simp_all

theorem length_linesOf (s : Text) : (linesOf s).length = countLineBreaks s + 1 := by
  rw [countLineBreaks]
  fun_induction lineBreaks s with
  | case1 => rfl
  | case2 s ih => simp [linesOf_crlf, ih]
  | case3 s hn ih => simp [linesOf_cr (head?_ne_lf hn), ih]
  | case4 s ih => simp [linesOf_lf, ih]
  | case5 c s hr hcr hn ih => simp [linesOf_cons _ hcr hn, ih]

theorem linesOf_of_countLineBreaks (h : countLineBreaks s = 0) : linesOf s = [s] := by
  rw [countLineBreaks] at h
  fun_induction lineBreaks s with
  | case1 => rfl
  | case2 | case3 | case4 => simp at h
  | case5 c s _ hcr hn ih => simp [linesOf_cons _ hcr hn, ih h]

theorem unbroken_of_mem_linesOf {p : Text} (h : p ∈ linesOf s) : Unbroken p := by
  have hnil : Unbroken [] := by simp [Unbroken]
  fun_induction linesOf s generalizing p with
  | case1 => simpa [List.mem_singleton.1 h] using hnil
  | case2 s ih | case3 s _ ih | case4 s ih =>
      rcases List.mem_cons.1 h with rfl | h
      · exact hnil
      · exact ih h
  | case5 c s _ hcr hn ih =>
      cases hlines : linesOf s with
      | nil => simp [hlines] at h
      | cons q qs =>
          rw [hlines] at h ih
          rcases List.mem_cons.1 h with rfl | h
          · have hq := ih List.mem_cons_self
            intro d hd
            rcases List.mem_cons.1 hd with rfl | hd
            · exact ⟨hcr, hn⟩
            · exact hq d hd
          · exact ih (List.mem_cons_of_mem _ h)

/-- The lines of what stands before a cut are starts of lines of the whole. -/
theorem exists_line_of_left (hcut : ¬ CutsBreak s t) {j : Nat} {p : Text}
    (hp : (linesOf s)[j]? = some p) : ∃ q, (linesOf (s ++ t))[j]? = some q ∧ p <+: q := by
  fun_induction linesOf s generalizing j p with
  | case1 =>
      obtain ⟨rfl, rfl⟩ : j = 0 ∧ p = [] := by
        cases j <;> simp_all
      have hlt : 0 < (linesOf t).length := by simp [length_linesOf]
      exact ⟨_, List.getElem?_eq_getElem hlt, List.nil_prefix⟩
  | case2 s ih =>
      rw [List.cons_append, List.cons_append, linesOf_crlf]
      cases j with
      | zero => exact ⟨[], rfl, by simpa using hp⟩
      | succ j => exact ih (not_cutsBreak_of_suffix (s := ['\r', '\n']) hcut) hp
  | case3 s hn ih =>
      rw [List.cons_append, linesOf_cr (head?_append_ne_lf hcut (head?_ne_lf hn))]
      cases j with
      | zero => exact ⟨[], rfl, by simpa using hp⟩
      | succ j => exact ih (not_cutsBreak_of_suffix (s := ['\r']) hcut) hp
  | case4 s ih =>
      rw [List.cons_append, linesOf_lf]
      cases j with
      | zero => exact ⟨[], rfl, by simpa using hp⟩
      | succ j => exact ih (not_cutsBreak_of_suffix (s := ['\n']) hcut) hp
  | case5 c s _ hcr hn ih =>
      have hs : ¬ CutsBreak s t := not_cutsBreak_of_suffix (s := [c]) hcut
      rw [List.cons_append, linesOf_cons _ hcr hn, List.getElem?_modifyHead]
      rw [List.getElem?_modifyHead] at hp
      split at hp
      next hj =>
        obtain ⟨p', hp', rfl⟩ := Option.map_eq_some_iff.1 hp
        obtain ⟨q, hq, hprefix⟩ := ih hs hp'
        exact ⟨c :: q, by simp [hj, ← hq], by simpa using hprefix⟩
      next hj =>
        obtain ⟨q, hq, hprefix⟩ := ih hs hp
        exact ⟨q, by simp [hj, hq], hprefix⟩

/-- The lines of what stands behind a cut are ends of lines of the whole, numbered on from those
before the cut. -/
theorem exists_line_of_right (hcut : ¬ CutsBreak s t) {j : Nat} {p : Text}
    (hp : (linesOf t)[j]? = some p) :
    ∃ q, (linesOf (s ++ t))[countLineBreaks s + j]? = some q ∧ p <:+ q := by
  rw [countLineBreaks]
  fun_induction lineBreaks s with
  | case1 => exact ⟨p, by simpa using hp, List.suffix_rfl⟩
  | case2 s ih =>
      rw [List.cons_append, List.cons_append, linesOf_crlf, List.length_cons, Nat.add_right_comm]
      exact ih (not_cutsBreak_of_suffix (s := ['\r', '\n']) hcut)
  | case3 s hn ih =>
      rw [List.cons_append, linesOf_cr (head?_append_ne_lf hcut (head?_ne_lf hn)),
        List.length_cons, Nat.add_right_comm]
      exact ih (not_cutsBreak_of_suffix (s := ['\r']) hcut)
  | case4 s ih =>
      rw [List.cons_append, linesOf_lf, List.length_cons, Nat.add_right_comm]
      exact ih (not_cutsBreak_of_suffix (s := ['\n']) hcut)
  | case5 c s _ hcr hn ih =>
      obtain ⟨q, hq, hsuffix⟩ := ih (not_cutsBreak_of_suffix (s := [c]) hcut)
      rw [List.cons_append, linesOf_cons _ hcr hn, List.getElem?_modifyHead, hq]
      split
      · exact ⟨c :: q, rfl, hsuffix.trans (List.suffix_cons c q)⟩
      · exact ⟨q, rfl, hsuffix⟩

/-- The lines of a slice are parts of lines of the whole. -/
theorem exists_line_of_slice {before after : Text} (hbefore : ¬ CutsBreak before (s ++ after))
    (hafter : ¬ CutsBreak s after) {j : Nat} {p : Text} (hp : (linesOf s)[j]? = some p) :
    ∃ q, (linesOf (before ++ s ++ after))[countLineBreaks before + j]? = some q ∧ p <:+: q := by
  obtain ⟨q, hq, hprefix⟩ := exists_line_of_left hafter hp
  obtain ⟨r, hr, hsuffix⟩ := exists_line_of_right hbefore hq
  rw [← List.append_assoc] at hr
  exact ⟨r, hr, hprefix.isInfix.trans hsuffix.isInfix⟩

end Lines

section OneEnding

variable {b : LineBreak} {s : Text}

/-- Cutting at a line ending gives the lines if every break is written as that ending. -/
theorem splitAtSlices_eq_linesOf (h : ∀ x ∈ lineBreaks s, x = b) :
    splitAtSlices b.text s = linesOf s := by
  fun_induction linesOf s with
  | case1 => exact splitAtSlices_nil b.text_ne_nil
  | case2 s ih =>
      rw [lineBreaks_crlf] at h
      obtain ⟨rfl, hs⟩ := List.forall_mem_cons.1 h
      rw [← ih hs]
      exact splitAtSlices_self_append LineBreak.crlf.text_ne_nil s
  | case3 s hn ih =>
      rw [lineBreaks_cr (head?_ne_lf hn)] at h
      obtain ⟨rfl, hs⟩ := List.forall_mem_cons.1 h
      rw [← ih hs]
      exact splitAtSlices_self_append LineBreak.cr.text_ne_nil s
  | case4 s ih =>
      rw [lineBreaks_lf] at h
      obtain ⟨rfl, hs⟩ := List.forall_mem_cons.1 h
      rw [← ih hs]
      exact splitAtSlices_self_append LineBreak.lf.text_ne_nil s
  | case5 c s _ hcr hn ih =>
      rw [lineBreaks_cons _ hcr hn] at h
      rw [← ih h]
      exact splitAtSlices_cons b.text_ne_nil (dropLeading?_text_cons b hcr hn s)

theorem length_splitAtSlices_of_not_leading {c : Char} (h : dropLeading? b.text (c :: s) = none) :
    (splitAtSlices b.text (c :: s)).length = (splitAtSlices b.text s).length := by
  rw [splitAtSlices_cons b.text_ne_nil h, List.length_modifyHead]

/-- One character more in front is at most one piece more. -/
theorem length_splitAtSlices_cons_le (b : LineBreak) (c : Char) (s : Text) :
    (splitAtSlices b.text (c :: s)).length ≤ (splitAtSlices b.text s).length + 1 := by
  cases hdrop : dropLeading? b.text (c :: s) with
  | none =>
      rw [length_splitAtSlices_of_not_leading hdrop]
      exact Nat.le_succ _
  | some rest =>
      have heq := eq_append_of_dropLeading? hdrop
      rw [heq, splitAtSlices_self_append b.text_ne_nil, List.length_cons]
      cases b with
      | lf | cr =>
          obtain ⟨-, rfl⟩ := List.cons.inj heq
          exact Nat.le_refl _
      | crlf =>
          -- What follows the CR is the LF of the ending, where the ending does not occur.
          obtain ⟨-, rfl⟩ := List.cons.inj heq
          exact Nat.succ_le_succ (length_splitAtSlices_of_not_leading rfl).ge

/-- Cutting at a line ending never gives more pieces than there are lines, whichever breaks the text
has. -/
theorem length_splitAtSlices_le (b : LineBreak) (s : Text) :
    (splitAtSlices b.text s).length ≤ countLineBreaks s + 1 := by
  rw [countLineBreaks]
  fun_induction lineBreaks s with
  | case1 => simp [splitAtSlices_nil b.text_ne_nil]
  | case2 s ih =>
      refine Nat.le_trans ?_ (Nat.succ_le_succ ih)
      cases b with
      | lf =>
          rw [length_splitAtSlices_of_not_leading rfl]
          exact length_splitAtSlices_cons_le .lf '\n' s
      | cr =>
          have hlf := length_splitAtSlices_of_not_leading (b := .cr) (c := '\n') (s := s) rfl
          rw [← hlf]
          exact length_splitAtSlices_cons_le .cr '\r' _
      | crlf =>
          have hself := splitAtSlices_self_append LineBreak.crlf.text_ne_nil s
          exact (congrArg List.length hself).le
  | case3 s _ ih =>
      exact Nat.le_trans (length_splitAtSlices_cons_le b '\r' s) (Nat.succ_le_succ ih)
  | case4 s ih =>
      exact Nat.le_trans (length_splitAtSlices_cons_le b '\n' s) (Nat.succ_le_succ ih)
  | case5 c s _ hcr hn ih =>
      rw [length_splitAtSlices_of_not_leading (dropLeading?_text_cons b hcr hn s)]
      exact ih

end OneEnding

end TemplateLint
