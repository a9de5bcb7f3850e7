import Mathlib.Data.Char
import Mathlib.Data.List.Destutter
import Mathlib.Data.List.Lex
import Mathlib.Data.Prod.Lex
import TemplateLint.Discovery

/-!
# Paths in order

Paths are compared by their parts from left to right, and two paths are one exactly when neither
comes before the other. So after sorting, paths with the same parts stand side by side, and dropping
those that repeat the one before them leaves a strictly ascending list. Up to the spelling of paths,
that list depends only on which paths there are.
-/

namespace TemplateLint

namespace PathPart

/-- What parts are ordered by: their rank, and for names the name. -/
def key : PathPart → Nat ×ₗ Text
  | normal name => toLex (3, name)
  | part => toLex (part.rank, [])

theorem key_injective : Function.Injective key := by
  intro a b h
  cases a <;> cases b <;> simp_all [key, rank]

instance : LinearOrder PathPart := LinearOrder.lift' key key_injective

theorem before_iff_lt {a b : PathPart} : a.before b ↔ a < b := by
  change _ ↔ a.key < b.key
  cases a <;> cases b <;> simp [before, key, rank, Prod.Lex.toLex_lt_toLex]

end PathPart

namespace Path

variable {a b : Text}

theorem partsNotAfter_iff {as bs : List PathPart} : partsNotAfter as bs ↔ as ≤ bs := by
  rw [le_iff_lt_or_eq]
  induction as generalizing bs with
  | nil => cases bs <;> simp [partsNotAfter]
  | cons a as ih =>
    cases bs with
    | nil => simp [partsNotAfter]
    | cons b bs =>
      rw [partsNotAfter, Bool.or_eq_true, Bool.and_eq_true, beq_iff_eq, ih, PathPart.before_iff_lt,
        List.cons_lt_cons_iff, List.cons.injEq, or_assoc, ← and_or_left]

theorem notAfter_iff : notAfter a b ↔ parts a ≤ parts b := partsNotAfter_iff

theorem same_iff : same a b ↔ parts a = parts b := beq_iff_eq

theorem pairwise_mergeSort_notAfter (l : List Text) :
    (l.mergeSort notAfter).Pairwise fun a b => parts a ≤ parts b := by
  have htrans (a b c : Text) (hab : notAfter a b) (hbc : notAfter b c) : notAfter a c := by
    rw [notAfter_iff] at hab hbc ⊢
    exact hab.trans hbc
  have htotal (a b : Text) : notAfter a b || notAfter b a := by
    rw [Bool.or_eq_true, notAfter_iff, notAfter_iff]
    exact le_total _ _
  simpa only [notAfter_iff] using List.pairwise_mergeSort htrans htotal l

end Path

namespace FileTree

open TemplateLint.Path

variable {l l' : List Text} {f : Text}

theorem dropRepeated_eq_destutter (l : List Text) :
    dropRepeated l = l.destutter fun a b => parts a ≠ parts b := by
  fun_induction dropRepeated l with
  | case1 a b rest hsame ih =>
    rw [ih, List.destutter_cons', List.destutter_cons_cons, if_neg (not_not.2 (same_iff.1 hsame))]
  | case2 a b rest hsame ih =>
    rw [ih, List.destutter_cons', List.destutter_cons_cons, if_pos (mt same_iff.2 hsame)]
  | case3 rest hshort =>
    match rest with
    | [] => rfl
    | [_] => rfl
    | a :: b :: rest => exact absurd rfl (hshort a b rest)

/-- Paths in ascending order, of those with the same parts the first one only. -/
def inPathOrder (l : List Text) : List Text := dropRepeated (l.mergeSort notAfter)

theorem map_parts_inPathOrder (l : List Text) :
    (inPathOrder l).map parts = ((l.mergeSort notAfter).map parts).dedup := by
  -- Only neighbours are compared; in a sorted list there are no other repetitions.
  have hsorted : ((l.mergeSort notAfter).map parts).Pairwise (· ≤ ·) :=
    List.pairwise_map.2 (pairwise_mergeSort_notAfter l)
  rw [inPathOrder, dropRepeated_eq_destutter, ← hsorted.destutter_eq_dedup]
  exact List.map_destutter fun a _ b _ => Iff.rfl

theorem pairwise_inPathOrder (l : List Text) :
    (inPathOrder l).Pairwise fun a b => parts a < parts b := by
  rw [← List.pairwise_map (f := parts) (R := (· < ·)), map_parts_inPathOrder]
  have hsorted : ((l.mergeSort notAfter).map parts).dedup.Pairwise (· ≤ ·) :=
    (List.pairwise_map.2 (pairwise_mergeSort_notAfter l)).sublist (List.dedup_sublist _)
  exact (hsorted.and (List.nodup_dedup _)).imp fun h => lt_of_le_of_ne h.1 h.2

theorem mem_of_mem_inPathOrder (h : f ∈ inPathOrder l) : f ∈ l := by
  rw [inPathOrder, dropRepeated_eq_destutter] at h
  exact List.mem_mergeSort.1 ((List.destutter_sublist _ _).subset h)

theorem mem_map_parts_inPathOrder {p : List PathPart} :
    p ∈ (inPathOrder l).map parts ↔ p ∈ l.map parts := by
  rw [map_parts_inPathOrder, List.mem_dedup, List.mem_map, List.mem_map]
  simp only [List.mem_mergeSort]

theorem exists_same_mem_inPathOrder (h : f ∈ l) : ∃ g ∈ inPathOrder l, same g f := by
  have hparts : parts f ∈ (inPathOrder l).map parts :=
    mem_map_parts_inPathOrder.2 (List.mem_map_of_mem h)
  obtain ⟨g, hg, hsame⟩ := List.mem_map.1 hparts
  exact ⟨g, hg, same_iff.2 hsame⟩

theorem map_parts_inPathOrder_eq (h : ∀ f, f ∈ l ↔ f ∈ l') :
    (inPathOrder l).map parts = (inPathOrder l').map parts := by
  have hlt (l : List Text) : ((inPathOrder l).map parts).Pairwise (· < ·) :=
    List.pairwise_map.2 (pairwise_inPathOrder l)
  have hnodup (l : List Text) : ((inPathOrder l).map parts).Nodup := (hlt l).imp ne_of_lt
  have hperm : ((inPathOrder l).map parts).Perm ((inPathOrder l').map parts) := by
    refine (List.perm_ext_iff_of_nodup (hnodup l) (hnodup l')).2 fun p => ?_
    rw [mem_map_parts_inPathOrder, mem_map_parts_inPathOrder, List.mem_map, List.mem_map]
    simp only [h]
  exact hperm.eq_of_pairwise (fun a b _ _ hab hba => absurd hba hab.asymm) (hlt l) (hlt l')

end FileTree

end TemplateLint
