import Mathlib.Data.List.TakeWhile
import TemplateLint.Proofs.Occurrences
import TemplateLint.Segment

/-!
# Steps of the splitter

What one step of looking for delimiters does, one equation for each way it can turn out.
-/

namespace TemplateLint

section Slices

theorem dropLeading?_cons_of_not_mem {head : Text} (hne : head ≠ []) {c : Char} (hc : c ∉ head)
    (s : Text) : dropLeading? head (c :: s) = none := by
  cases head with
  | nil => exact absurd rfl hne
  | cons a head =>
      have hac : a ≠ c := fun h => hc (by simp [h])
      rw [dropLeading?, if_neg hac]

/-- No occurrence starts in a text that shares no character with the needle. -/
theorem breakAt_append_of_disjoint {needle : Text} (hne : needle ≠ []) {text : Text}
    (h : ∀ c ∈ text, c ∉ needle) (s : Text) :
    breakAt needle (text ++ (needle ++ s)) = some (text, s) := by
  induction text with
  | nil =>
      cases needle with
      | nil => exact absurd rfl hne
      | cons a needle =>
          have hdrop := dropLeading?_self_append (a :: needle) s
          rw [List.nil_append, List.cons_append, breakAt, ← List.cons_append, hdrop]
  | cons c text ih =>
      have hc := dropLeading?_cons_of_not_mem hne (h c List.mem_cons_self) (text ++ (needle ++ s))
      rw [List.cons_append, breakAt, hc, ih fun d hd => h d (List.mem_cons_of_mem _ hd)]
      rfl

theorem trim_eq_nil_iff (s : Text) : trim s = [] ↔ ∀ c ∈ s, isBlank c := by
  rw [trim, trimWhile, dropWhileEnd, List.reverse_eq_nil_iff, List.dropWhile_eq_nil_iff]
  constructor
  · intro h c hc
    -- Were something left after dropping blanks in front, its head would not be blank.
    have hnil : s.dropWhile isBlank = [] := by
      by_contra hne
      have hhead := List.head_dropWhile_not isBlank hne
      have hblank := h _ (List.mem_reverse.2 (List.head_mem hne))
      rw [hblank] at hhead
      exact Bool.noConfusion hhead
    exact List.dropWhile_eq_nil_iff.1 hnil c hc
  · intro h c hc
    exact h c ((List.dropWhile_sublist _).subset (List.mem_reverse.1 hc))

end Slices

namespace Markup

section CloseNested

variable {m : Markup} {previous : Option Char} {depth literal : Nat} {s rest : Text}

theorem closeNested_right (h : dropLeading? m.right s = some rest) :
    m.closeNested previous depth literal s =
      if literal > 0 && m.isLiteralBeside previous then
        (m.closeNested m.right.getLast? depth (literal - 1) rest).map fun p => (m.right ++ p.1, p.2)
      else
        match depth with
        | 0 => some ([], rest)
        | depth + 1 =>
            (m.closeNested m.right.getLast? depth literal rest).map fun p =>
              (m.right ++ p.1, p.2) := by
  rw [closeNested]
  split
  next rest' h' =>
    obtain rfl : rest' = rest := Option.some.inj (h'.symm.trans h)
    rfl
  next h' => exact absurd (h'.symm.trans h) (by simp)

theorem closeNested_left (hr : dropLeading? m.right s = none)
    (hl : dropLeading? m.left s = some rest) :
    m.closeNested previous depth literal s =
      if m.isLiteralBeside rest.head? then
        (m.closeNested m.left.getLast? depth (literal + 1) rest).map fun p => (m.left ++ p.1, p.2)
      else
        (m.closeNested m.left.getLast? (depth + 1) literal rest).map fun p =>
          (m.left ++ p.1, p.2) := by
  rw [closeNested]
  split
  next h' => exact absurd (h'.symm.trans hr) (by simp)
  next =>
    split
    next rest' h' =>
      obtain rfl : rest' = rest := Option.some.inj (h'.symm.trans hl)
      rfl
    next h' => exact absurd (h'.symm.trans hl) (by simp)

theorem closeNested_cons {c : Char} (hr : dropLeading? m.right (c :: s) = none)
    (hl : dropLeading? m.left (c :: s) = none) :
    m.closeNested previous depth literal (c :: s) =
      (m.closeNested (some c) depth literal s).map fun p => (c :: p.1, p.2) := by
  rw [closeNested]
  split
  next h' => exact absurd (h'.symm.trans hr) (by simp)
  next =>
    split
    next h' => exact absurd (h'.symm.trans hl) (by simp)
    next => rfl

theorem closeNested_nil (m : Markup) (previous : Option Char) (depth literal : Nat) :
    m.closeNested previous depth literal [] = none := by
  by_contra hsome
  obtain ⟨⟨body, after⟩, h⟩ := Option.ne_none_iff_exists'.1 hsome
  simpa [m.right_ne_nil] using eq_of_closeNested h

end CloseNested

theorem segmentsAfter_eq (m : Markup) (pending s : Text) :
    m.segmentsAfter pending s =
      match breakAt m.left s with
      | none => Segment.ofText (pending ++ s)
      | some (before, inside) =>
          if m.isLiteralBeside inside.head? then
            m.segmentsAfter (pending ++ before ++ m.left) inside
          else
            match m.closeTag inside with
            | none => Segment.ofText (pending ++ s)
            | some (body, after) =>
                if (trim body).isEmpty then
                  m.segmentsAfter (pending ++ before ++ m.left ++ body ++ m.right) after
                else
                  Segment.ofText (pending ++ before) ++
                    .tag (m.left ++ body ++ m.right) :: m.segmentsAfter [] after := by
  rw [segmentsAfter]
  split
  next ho => rw [ho]
  next before inside ho =>
    rw [ho]
    dsimp only
    congr 1
    split
    next hc => rw [hc]
    next body after hc => rw [hc]

end Markup

end TemplateLint
