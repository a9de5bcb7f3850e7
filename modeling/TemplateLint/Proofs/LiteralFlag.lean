import TemplateLint.Proofs.SplitSteps
import TemplateLint.Token.Scan

/-!
# When it does not matter that delimiters can be literal

A template in which no left delimiter has white space behind it is scanned the same whether or not
delimiters next to white space are literal. Such a left delimiter would be the first literal one;
without it none is ever pending, so no right delimiter is taken for literal either.
-/

namespace TemplateLint

/-- Whether no occurrence of `left` in a text has a space, a tab, CR or LF behind it. -/
def NoSpaceBehind (left s : Text) : Prop :=
  ∀ before c after, s = before ++ left ++ c :: after → c ∉ [' ', '\t', '\r', '\n']

namespace NoSpaceBehind

variable {left s t : Text}

theorem of_append (h : NoSpaceBehind left (s ++ t)) : NoSpaceBehind left t := by
  intro before c after ht
  apply h (s ++ before) c after
  simp [ht]

theorem of_dropLeading? {head : Text} (h : NoSpaceBehind left s)
    (hs : dropLeading? head s = some t) : NoSpaceBehind left t := by
  rw [eq_append_of_dropLeading? hs] at h
  exact h.of_append

theorem of_breakAt {before : Text} (h : NoSpaceBehind left s)
    (hs : breakAt left s = some (before, t)) : NoSpaceBehind left (left ++ t) := by
  rw [eq_of_breakAt hs, List.append_assoc] at h
  exact h.of_append

theorem not_literal (h : NoSpaceBehind left (left ++ t)) (m : Markup) :
    m.isLiteralBeside t.head? = false := by
  cases t with
  | nil => simp [Markup.isLiteralBeside]
  | cons c t =>
      have hc := h [] c t (by simp)
      simp only [List.mem_cons, List.not_mem_nil, or_false, not_or] at hc
      simp [Markup.isLiteralBeside, Markup.isLiteralSpace, hc]

end NoSpaceBehind

namespace Markup

variable {d : Delimiters} {s : Text} (a b : Bool)

/-- While no literal left delimiter is pending, none becomes pending. -/
theorem closeNested_flag {previous : Option Char} {depth literal : Nat} (hzero : literal = 0)
    (h : NoSpaceBehind d.left s) :
    (Markup.mk d a).closeNested previous depth literal s =
      (Markup.mk d b).closeNested previous depth literal s := by
  fun_induction closeNested (Markup.mk d a) previous depth literal s with
  | case1 previous depth literal s rest hr hpending _ => simp [hzero] at hpending
  | case2 previous literal s rest hr _ => simp [closeNested_right (m := ⟨d, b⟩) hr, hzero]
  | case3 previous literal s rest hr _ depth ih =>
      rw [closeNested_right (m := ⟨d, b⟩) hr, ih hzero (h.of_dropLeading? hr)]
      simp [hzero, right]
  | case4 previous depth literal s hr rest hl hliteral _ =>
      rw [eq_append_of_dropLeading? hl] at h
      rw [h.not_literal] at hliteral
      exact absurd hliteral Bool.false_ne_true
  | case5 previous depth literal s hr rest hl _ ih =>
      have hnot : (Markup.mk d b).isLiteralBeside rest.head? = false := by
        rw [eq_append_of_dropLeading? hl] at h
        exact h.not_literal _
      rw [closeNested_left (m := ⟨d, b⟩) hr hl, hnot, ih hzero (h.of_dropLeading? hl)]
      rfl
  | case6 previous depth literal _ _ => rw [closeNested_nil]
  | case7 previous depth literal c rest hr hl ih =>
      rw [closeNested_cons (m := ⟨d, b⟩) hr hl, ih hzero (h.of_append (s := [c]))]

theorem closeTag_flag (h : NoSpaceBehind d.left s) :
    (Markup.mk d a).closeTag s = (Markup.mk d b).closeTag s := by
  rw [closeTag, closeTag, closeNested_flag a b rfl h]
  rfl

/-- What the tokens of a tag are called does not depend on the flag. -/
theorem lexemes_flag (seen : Bool) (gs : List Segment) :
    (Markup.mk d a).lexemes seen gs = (Markup.mk d b).lexemes seen gs := by
  fun_induction lexemes (Markup.mk d a) seen gs with
  | case1 => rfl
  | case2 seen s gs ih => rw [lexemes, ih]
  | case3 seen s gs hcomment ih =>
      rw [lexemes, if_pos (show (mk d b).isCommentTag s from hcomment), ih]
  | case4 seen s gs hcomment ih =>
      rw [lexemes, if_neg (show ¬ (mk d b).isCommentTag s from hcomment), ih]

/-- A step of the splitter under one flag, said with the tag that is found under the other. -/
theorem segmentsAfter_flag_step {before inside : Text} (h : NoSpaceBehind d.left s)
    (ho : breakAt d.left s = some (before, inside)) (pending : Text) :
    (Markup.mk d b).segmentsAfter pending s =
      match (Markup.mk d a).closeTag inside with
      | none => Segment.ofText (pending ++ s)
      | some (body, after) =>
          if (trim body).isEmpty then
            (Markup.mk d b).segmentsAfter (pending ++ before ++ d.left ++ body ++ d.right) after
          else
            Segment.ofText (pending ++ before) ++
              .tag (d.left ++ body ++ d.right) :: (Markup.mk d b).segmentsAfter [] after := by
  have hbehind := h.of_breakAt ho
  rw [segmentsAfter_eq, show breakAt (Markup.mk d b).left s = _ from ho]
  dsimp only
  rw [hbehind.not_literal, closeTag_flag b a hbehind.of_append]
  rfl

theorem segmentsAfter_flag (pending : Text) (h : NoSpaceBehind d.left s) :
    (Markup.mk d a).segmentsAfter pending s = (Markup.mk d b).segmentsAfter pending s := by
  have hrest {s before inside body after : Text} (h : NoSpaceBehind d.left s)
      (ho : breakAt d.left s = some (before, inside))
      (hc : (Markup.mk d a).closeTag inside = some (body, after)) : NoSpaceBehind d.left after := by
    have hinside := (h.of_breakAt ho).of_append
    rw [eq_of_closeTag hc] at hinside
    exact hinside.of_append
  fun_induction segmentsAfter (Markup.mk d a) pending s with
  | case1 pending s ho =>
      rw [segmentsAfter_eq, show breakAt (Markup.mk d b).left s = none from ho]
  | case2 pending s before inside ho hliteral _ =>
      rw [(h.of_breakAt ho).not_literal] at hliteral
      exact absurd hliteral Bool.false_ne_true
  | case3 pending s before inside ho _ hc => rw [segmentsAfter_flag_step a b h ho, hc]
  | case4 pending s before inside ho _ body after hc hblank ih =>
      rw [ih (hrest h ho hc), segmentsAfter_flag_step a b h ho, hc]
      exact (if_pos hblank).symm
  | case5 pending s before inside ho _ body after hc hblank ih =>
      rw [ih (hrest h ho hc), segmentsAfter_flag_step a b h ho, hc]
      exact (if_neg hblank).symm

/-- A template without white space behind any left delimiter has the same segments and the same
tokens whether or not delimiters next to white space are literal. -/
theorem split_tokenize_eq_of_noSpaceBehind (d : Delimiters) (s : Text)
    (h : NoSpaceBehind d.left s) :
    (Markup.mk d true).split s = (Markup.mk d false).split s ∧
      (Markup.mk d true).tokenize s = (Markup.mk d false).tokenize s := by
  have hsplit : (Markup.mk d true).split s = (Markup.mk d false).split s :=
    segmentsAfter_flag true false [] h
  refine ⟨hsplit, ?_⟩
  rw [tokenize, tokenize, hsplit, lexemes_flag true false]

/-- White space before right delimiters only, inside a tag and outside. -/
theorem split_tokenize_eq_of_noSpaceBehind_spaced_right :
    let s := "\x7ba\x7bb \x7d \x7d \x7d".toList
    NoSpaceBehind Delimiters.braces.left s ∧
      (Markup.mk .braces true).split s =
        [.tag "\x7ba\x7bb \x7d \x7d".toList, .text " \x7d".toList] ∧
      (Markup.mk .braces true).split s = (Markup.mk .braces false).split s ∧
      (Markup.mk .braces true).tokenize s = (Markup.mk .braces false).tokenize s := by
  intro s
  have hs : NoSpaceBehind Delimiters.braces.left s := by
    intro before c after heq
    have hall : ∀ i < s.length, s[i]? = some '\x7b' →
        s[i + 1]?.all fun c => c ∉ [' ', '\t', '\r', '\n'] := by decide
    have hlen : before.length < s.length := by
      simp only [heq, List.length_append, List.length_cons]
      omega
    have hbehind := hall before.length hlen (by simp [heq, Delimiters.braces])
    simpa [heq, Delimiters.braces] using hbehind
  exact ⟨hs, by decide +kernel, split_tokenize_eq_of_noSpaceBehind .braces s hs⟩

end Markup

end TemplateLint
