import Mathlib.Data.List.Infix
import TemplateLint.Text.Basic

/-!
# First occurrences

Cutting a list at a slice, said without the search: the first occurrence is the one with the least
in front of it, and it stays the first one when the list is cut somewhere behind it.
-/

namespace TemplateLint

variable {α : Type} [DecidableEq α] {head needle s before after tail : List α}

theorem dropLeading?_self_append (head s : List α) : dropLeading? head (head ++ s) = some s := by
  induction head with
  | nil => rfl
  | cons a head ih => simp [dropLeading?, ih]

theorem dropLeading?_eq_some_iff {rest : List α} :
    dropLeading? head s = some rest ↔ s = head ++ rest := by
  constructor
  · exact eq_append_of_dropLeading?
  · rintro rfl
    exact dropLeading?_self_append head rest

theorem dropLeading?_eq_none_iff : dropLeading? head s = none ↔ ¬ head <+: s := by
  rw [Option.eq_none_iff_forall_ne_some]
  constructor
  · rintro h ⟨rest, rfl⟩
    exact h rest (dropLeading?_self_append head rest)
  · intro h rest hrest
    exact h ⟨rest, (eq_append_of_dropLeading? hrest).symm⟩

theorem breakAt_eq_none_iff : breakAt needle s = none ↔ ¬ needle <:+: s := by
  induction s with
  | nil => simp [breakAt, List.infix_nil]
  | cons a s ih =>
      rw [breakAt, List.infix_cons_iff]
      split
      next after h =>
        have hpre : needle <+: a :: s := ⟨after, (eq_append_of_dropLeading? h).symm⟩
        simp [hpre]
      next h => simp [dropLeading?_eq_none_iff.1 h, ih]

/-- No occurrence has less in front of it than the one at which the list is cut. -/
theorem length_le_of_breakAt (h : breakAt needle s = some (before, after)) {u v : List α}
    (hs : s = u ++ needle ++ v) : before.length ≤ u.length := by
  induction s generalizing before u with
  | nil =>
      simp only [breakAt, Option.ite_none_right_eq_some, Option.some.injEq, Prod.mk.injEq] at h
      simp [← h.2.1]
  | cons a s ih =>
      rw [breakAt] at h
      split at h
      next rest hrest =>
        simp only [Option.some.injEq, Prod.mk.injEq] at h
        simp [← h.1]
      next hnone =>
        obtain ⟨⟨b, r⟩, hb, heq⟩ := Option.map_eq_some_iff.1 h
        simp only [Prod.mk.injEq] at heq
        obtain ⟨rfl, rfl⟩ := heq
        cases u with
        | nil =>
            rw [List.nil_append] at hs
            exact absurd ⟨v, hs.symm⟩ (dropLeading?_eq_none_iff.1 hnone)
        | cons c u =>
            rw [List.cons_append, List.cons_append, List.cons.injEq] at hs
            simpa using ih hb hs.2

/-- What stands before the first occurrence is the start of what stands before any other. -/
theorem prefix_of_breakAt (h : breakAt needle s = some (before, after)) {u v : List α}
    (hs : s = u ++ needle ++ v) : before <+: u := by
  have hbefore : before <+: s := by
    rw [eq_of_breakAt h, List.append_assoc]
    exact List.prefix_append _ _
  have hu : u <+: s := by
    rw [hs, List.append_assoc]
    exact List.prefix_append _ _
  exact List.prefix_of_prefix_length_le hbefore hu (length_le_of_breakAt h hs)

theorem breakAt_eq_some_iff : breakAt needle s = some (before, after) ↔
    s = before ++ needle ++ after ∧ ∀ u v, s = u ++ needle ++ v → before.length ≤ u.length := by
  constructor
  · intro h
    exact ⟨eq_of_breakAt h, fun u v hs => length_le_of_breakAt h hs⟩
  · rintro ⟨hs, hmin⟩
    have hsome : breakAt needle s ≠ none := fun h =>
      breakAt_eq_none_iff.1 h ⟨before, after, hs.symm⟩
    obtain ⟨⟨b, r⟩, hb⟩ := Option.ne_none_iff_exists'.1 hsome
    have hle := length_le_of_breakAt hb hs
    have hge := hmin b r (eq_of_breakAt hb)
    have heq : b ++ (needle ++ r) = before ++ (needle ++ after) := by
      rw [← List.append_assoc, ← List.append_assoc, ← eq_of_breakAt hb, hs]
    obtain ⟨rfl, hrest⟩ := List.append_inj heq (by omega)
    rw [hb, List.append_cancel_left hrest]

/-- Behind a list that starts with `head` nothing decides whether it does. -/
theorem dropLeading?_eq_none_of_append (h : dropLeading? head (s ++ tail) = none) :
    dropLeading? head s = none := by
  rw [dropLeading?_eq_none_iff] at h ⊢
  exact fun hpre => h (hpre.trans (List.prefix_append s tail))

/-- The first occurrence is still found, and found first, when the list is cut behind it. -/
theorem breakAt_of_append (h : breakAt needle s = some (before, after ++ tail)) :
    breakAt needle (before ++ needle ++ after) = some (before, after) := by
  rw [breakAt_eq_some_iff]
  refine ⟨rfl, fun u v huv => length_le_of_breakAt h (v := v ++ tail) ?_⟩
  rw [eq_of_breakAt h, ← List.append_assoc, huv, List.append_assoc]

/-- Nothing occurs in what stands before the first occurrence. -/
theorem breakAt_before_eq_none (hne : needle ≠ []) (h : breakAt needle s = some (before, after)) :
    breakAt needle before = none := by
  rw [breakAt_eq_none_iff]
  rintro ⟨u, v, huv⟩
  have hpos := List.length_pos_iff.2 hne
  have hs : s = u ++ needle ++ (v ++ (needle ++ after)) := by
    rw [eq_of_breakAt h, ← huv]
    simp
  have hle := length_le_of_breakAt h hs
  rw [← huv, List.length_append, List.length_append] at hle
  omega

theorem breakAt_singleton_eq_none_iff {a : α} : breakAt [a] s = none ↔ a ∉ s := by
  rw [breakAt_eq_none_iff, List.singleton_infix_iff]

theorem breakAt_singleton_eq_some_iff {a : α} :
    breakAt [a] s = some (before, after) ↔ s = before ++ a :: after ∧ a ∉ before := by
  constructor
  · intro h
    have hbefore := breakAt_before_eq_none (by simp) h
    exact ⟨by simpa using eq_of_breakAt h, breakAt_singleton_eq_none_iff.1 hbefore⟩
  · rintro ⟨rfl, hnot⟩
    induction before with
    | nil => simp [breakAt, dropLeading?]
    | cons b before ih =>
        rw [List.mem_cons, not_or] at hnot
        simp [breakAt, dropLeading?, hnot.1, ih hnot.2]

end TemplateLint
