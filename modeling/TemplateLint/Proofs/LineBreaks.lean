import Mathlib.Algebra.GroupWithZero.Nat
import Mathlib.Data.List.Basic
import TemplateLint.Text.LineBreak

/-!
# Counting line breaks piece by piece

Line breaks are counted in the pieces of a text as in the text itself, unless some cut parts a CR
from its LF.
-/

namespace TemplateLint

theorem lineBreaks_crlf (s : Text) : lineBreaks ('\r' :: '\n' :: s) = .crlf :: lineBreaks s := by
  rw [lineBreaks]

theorem lineBreaks_lf (s : Text) : lineBreaks ('\n' :: s) = .lf :: lineBreaks s := by
  rw [lineBreaks]

theorem lineBreaks_cr {s : Text} (h : s.head? ≠ some '\n') :
    lineBreaks ('\r' :: s) = .cr :: lineBreaks s := by
  cases s with
  | nil => rfl
  | cons c s =>
      have hc : c ≠ '\n' := by simpa using h
      rw [lineBreaks]
      simpa using hc

theorem lineBreaks_cons {c : Char} (s : Text) (hr : c ≠ '\r') (hn : c ≠ '\n') :
    lineBreaks (c :: s) = lineBreaks s := by
  rw [lineBreaks] <;> simp_all

/-- Whether a cut between two texts parts a CR from the LF after it. -/
def CutsBreak (s t : Text) : Prop := s.getLast? = some '\r' ∧ t.head? = some '\n'

theorem not_cutsBreak_of_append {s t rest : Text} (h : ¬ CutsBreak s (t ++ rest)) :
    ¬ CutsBreak s t := by
  intro hc
  apply h
  refine ⟨hc.1, ?_⟩
  rw [List.head?_append, hc.2]
  rfl

/-- The condition on a cut is about the last character before it only. -/
theorem not_cutsBreak_of_suffix {s u t : Text} (h : ¬ CutsBreak (s ++ u) t) :
    ¬ CutsBreak u t := by
  intro hc
  apply h
  refine ⟨?_, hc.2⟩
  rw [List.getLast?_append, hc.1]
  rfl

theorem head?_ne_lf {s : Text} (h : ∀ rest, s = '\n' :: rest → False) : s.head? ≠ some '\n' := by
  intro hhead
  obtain ⟨rest, rfl⟩ := List.head?_eq_some_iff.1 hhead
  exact h rest rfl

/-- A CR before a cut that no LF follows is followed by none behind the cut either. -/
theorem head?_append_ne_lf {s t : Text} (h : ¬ CutsBreak ('\r' :: s) t)
    (hs : s.head? ≠ some '\n') : (s ++ t).head? ≠ some '\n' := by
  cases s with
  | nil => exact fun ht => h ⟨rfl, ht⟩
  | cons c s => exact hs

theorem lineBreaks_append {s t : Text} (h : ¬ CutsBreak s t) :
    lineBreaks (s ++ t) = lineBreaks s ++ lineBreaks t := by
  fun_induction lineBreaks s with
  | case1 => rfl
  | case2 s ih =>
      have hs : ¬ CutsBreak s t := not_cutsBreak_of_suffix (s := ['\r', '\n']) h
      rw [List.cons_append, List.cons_append, lineBreaks_crlf, ih hs, List.cons_append]
  | case3 s hn ih =>
      have hhead := head?_append_ne_lf h (head?_ne_lf hn)
      have hs : ¬ CutsBreak s t := not_cutsBreak_of_suffix (s := ['\r']) h
      rw [List.cons_append, lineBreaks_cr hhead, ih hs, List.cons_append]
  | case4 s ih =>
      have hs : ¬ CutsBreak s t := not_cutsBreak_of_suffix (s := ['\n']) h
      rw [List.cons_append, lineBreaks_lf, ih hs, List.cons_append]
  | case5 c s hr hcr hn ih =>
      have hs : ¬ CutsBreak s t := not_cutsBreak_of_suffix (s := [c]) h
      rw [List.cons_append, lineBreaks_cons _ hcr hn, ih hs]

theorem countLineBreaks_append {s t : Text} (h : ¬ CutsBreak s t) :
    countLineBreaks (s ++ t) = countLineBreaks s + countLineBreaks t := by
  rw [countLineBreaks, lineBreaks_append h, List.length_append]
  rfl

/-- Texts one after another, with `rest` after the last of them, none of which ends between a CR
and its LF. -/
def KeepsBreaks : List Text → Text → Prop
  | [], _ => True
  | s :: ss, rest => ¬ CutsBreak s (ss.flatten ++ rest) ∧ KeepsBreaks ss rest

theorem keepsBreaks_append (ss ts : List Text) (rest : Text) :
    KeepsBreaks (ss ++ ts) rest ↔ KeepsBreaks ss (ts.flatten ++ rest) ∧ KeepsBreaks ts rest := by
  induction ss with
  | nil => simp [KeepsBreaks]
  | cons s ss ih =>
      simp only [List.cons_append, KeepsBreaks, ih, List.flatten_append, List.append_assoc,
        and_assoc]

theorem countLineBreaks_flatten {ss : List Text} {rest : Text} (h : KeepsBreaks ss rest) :
    countLineBreaks ss.flatten = (ss.map countLineBreaks).sum := by
  induction ss with
  | nil => rfl
  | cons s ss ih =>
      have hcut := not_cutsBreak_of_append h.1
      rw [List.flatten_cons, countLineBreaks_append hcut, ih h.2, List.map_cons, List.sum_cons]

theorem not_cutsBreak_flatten {ss : List Text} {rest : Text} (h : KeepsBreaks ss rest) :
    ¬ CutsBreak ss.flatten rest := by
  induction ss with
  | nil => simp [CutsBreak]
  | cons s ss ih =>
      intro hcut
      by_cases hnil : ss.flatten = []
      · apply h.1
        simpa [hnil] using hcut
      · apply ih h.2
        rw [CutsBreak, List.flatten_cons, List.getLast?_append_of_ne_nil _ hnil] at hcut
        exact hcut

end TemplateLint
