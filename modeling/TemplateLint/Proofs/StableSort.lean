import TemplateLint.Diagnostic

/-!
# The order of a report

A stable sort is determined by the order of the elements inside each class of ties. So filtering
may be done before or after it, and what happens between elements that are no ties does not count.
-/

namespace TemplateLint

section Ties

variable {α : Type} {le : α → α → Bool}

/-- Whether neither of two elements has to come before the other. -/
def tied (le : α → α → Bool) (a b : α) : Bool := le a b && le b a

theorem tied_self (total : ∀ a b, le a b || le b a) (a : α) : tied le a a := by
  have h := total a a
  simp only [Bool.or_self] at h
  simp [tied, h]

theorem pairwise_filter_tied (trans : ∀ a b c, le a b → le b c → le a c) (a : α) (l : List α) :
    (l.filter (tied le a)).Pairwise fun b c => le b c := by
  apply List.pairwise_of_forall_mem_list
  intro b hb c hc
  have hb' := (List.mem_filter.1 hb).2
  have hc' := (List.mem_filter.1 hc).2
  simp only [tied, Bool.and_eq_true] at hb' hc'
  exact trans b a c hb'.2 hc'.1

/-- Sorting keeps every class of ties as it is. -/
theorem filter_tied_mergeSort (trans : ∀ a b c, le a b → le b c → le a c)
    (total : ∀ a b, le a b || le b a) (a : α) (l : List α) :
    (l.mergeSort le).filter (tied le a) = l.filter (tied le a) := by
  have hsub : (l.filter (tied le a)).Sublist (l.mergeSort le) :=
    List.sublist_mergeSort trans total (pairwise_filter_tied trans a l) List.filter_sublist
  have hsub' : (l.filter (tied le a)).Sublist ((l.mergeSort le).filter (tied le a)) := by
    simpa [List.filter_filter] using hsub.filter (tied le a)
  have hlen : (l.filter (tied le a)).length = ((l.mergeSort le).filter (tied le a)).length :=
    ((List.mergeSort_perm l le).filter _).length_eq.symm
  exact (hsub'.eq_of_length hlen).symm

/-- The head of a sorted list comes before everything in it. -/
theorem le_of_mem_sorted (total : ∀ a b, le a b || le b a) {x y : α} {l : List α}
    (h : (x :: l).Pairwise fun a b => le a b) (hy : y ∈ x :: l) : le x y := by
  rcases List.mem_cons.1 hy with rfl | hy
  · simpa using total y y
  · exact (List.pairwise_cons.1 h).1 y hy

theorem mem_of_filter_tied_eq (total : ∀ a b, le a b || le b a) {l₁ l₂ : List α}
    (h : ∀ a, l₁.filter (tied le a) = l₂.filter (tied le a)) {x : α} (hx : x ∈ l₁) : x ∈ l₂ := by
  have hmem : x ∈ l₁.filter (tied le x) := List.mem_filter.2 ⟨hx, tied_self total x⟩
  rw [h x] at hmem
  exact (List.mem_filter.1 hmem).1

/-- Two sorted lists that have the same ties in the same order are equal. -/
theorem eq_of_filter_tied_eq (total : ∀ a b, le a b || le b a) {l₁ l₂ : List α}
    (h₁ : l₁.Pairwise fun a b => le a b) (h₂ : l₂.Pairwise fun a b => le a b)
    (h : ∀ a, l₁.filter (tied le a) = l₂.filter (tied le a)) : l₁ = l₂ := by
  induction l₁ generalizing l₂ with
  | nil =>
      cases l₂ with
      | nil => rfl
      | cons y l₂ =>
          have hy := mem_of_filter_tied_eq total (fun a => (h a).symm) (List.mem_cons_self (a := y))
          simp at hy
  | cons x l₁ ih =>
      cases l₂ with
      | nil =>
          have hx := mem_of_filter_tied_eq total h (List.mem_cons_self (a := x))
          simp at hx
      | cons y l₂ =>
          -- Each head is in the other list, so the two are ties and open the same class.
          have hyx : le y x :=
            le_of_mem_sorted total h₂ (mem_of_filter_tied_eq total h List.mem_cons_self)
          have hxy : le x y :=
            le_of_mem_sorted total h₁
              (mem_of_filter_tied_eq total (fun a => (h a).symm) List.mem_cons_self)
          have hclass := h x
          rw [List.filter_cons_of_pos (tied_self total x),
            List.filter_cons_of_pos (by simp [tied, hxy, hyx])] at hclass
          obtain ⟨rfl, -⟩ := List.cons.inj hclass
          congr 1
          apply ih (List.pairwise_cons.1 h₁).2 (List.pairwise_cons.1 h₂).2
          intro a
          have ha := h a
          by_cases hax : tied le a x
          · rw [List.filter_cons_of_pos hax, List.filter_cons_of_pos hax] at ha
            exact (List.cons.inj ha).2
          · rw [List.filter_cons_of_neg hax, List.filter_cons_of_neg hax] at ha
            exact ha

variable (trans : ∀ a b c, le a b → le b c → le a c) (total : ∀ a b, le a b || le b a)
include trans total

theorem mergeSort_eq_of_filter_tied_eq {l₁ l₂ : List α}
    (h : ∀ a, l₁.filter (tied le a) = l₂.filter (tied le a)) :
    l₁.mergeSort le = l₂.mergeSort le := by
  apply eq_of_filter_tied_eq total (List.pairwise_mergeSort trans total l₁)
    (List.pairwise_mergeSort trans total l₂)
  intro a
  rw [filter_tied_mergeSort trans total, filter_tied_mergeSort trans total, h a]

theorem filter_mergeSort (p : α → Bool) (l : List α) :
    (l.mergeSort le).filter p = (l.filter p).mergeSort le := by
  apply eq_of_filter_tied_eq total ((List.pairwise_mergeSort trans total l).filter p)
    (List.pairwise_mergeSort trans total _)
  intro a
  rw [filter_tied_mergeSort trans total, List.filter_filter, List.filter_filter]
  have hswap : ∀ l : List α, l.filter (fun b => tied le a b && p b) =
      (l.filter (tied le a)).filter p := by
    intro l
    rw [List.filter_filter]
    congr 1
    funext b
    exact Bool.and_comm _ _
  rw [hswap, filter_tied_mergeSort trans total, ← hswap]

/-- Whether `s` is `l` in ascending order, with ties in the order in which `l` has them. -/
structure IsStableSort (le : α → α → Bool) (l s : List α) : Prop where
  perm : s.Perm l
  sorted : s.Pairwise fun a b => le a b
  ties : ∀ a, s.filter (tied le a) = l.filter (tied le a)

theorem isStableSort_mergeSort (l : List α) : IsStableSort le l (l.mergeSort le) where
  perm := List.mergeSort_perm l le
  sorted := List.pairwise_mergeSort trans total l
  ties a := filter_tied_mergeSort trans total a l

end Ties

namespace Diagnostic

theorem notAfter_trans (a b c : Diagnostic) (hab : a.notAfter b) (hbc : b.notAfter c) :
    a.notAfter c := by
  simp only [notAfter, Bool.or_eq_true, Bool.and_eq_true, decide_eq_true_eq, beq_iff_eq] at *
  omega

theorem notAfter_total (a b : Diagnostic) : a.notAfter b || b.notAfter a := by
  simp only [notAfter, Bool.or_eq_true, Bool.and_eq_true, decide_eq_true_eq, beq_iff_eq]
  omega

/-- Ties are the diagnostics of one severity at one place. -/
theorem tied_notAfter_iff (a b : Diagnostic) :
    tied notAfter a b ↔ a.line = b.line ∧ a.column = b.column ∧ a.severity = b.severity := by
  have hrank : a.severity.rank = b.severity.rank ↔ a.severity = b.severity := by
    cases a.severity <;> cases b.severity <;> simp [Severity.rank]
  simp only [tied, notAfter, Bool.or_eq_true, Bool.and_eq_true, decide_eq_true_eq, beq_iff_eq,
    ← hrank]
  omega

end Diagnostic

/-- Diagnostics in the order of a report. -/
def inReportOrder (ds : List Diagnostic) : List Diagnostic := ds.mergeSort Diagnostic.notAfter

theorem filter_inReportOrder (p : Diagnostic → Bool) (ds : List Diagnostic) :
    (inReportOrder ds).filter p = inReportOrder (ds.filter p) :=
  filter_mergeSort Diagnostic.notAfter_trans Diagnostic.notAfter_total p ds

end TemplateLint
