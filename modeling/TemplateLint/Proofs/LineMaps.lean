import Mathlib.Data.List.Induction
import TemplateLint.Diagnostic

/-!
# Line maps

A line map is known by the entries at each place. Adding an entry appends it at its place and
leaves every other place alone, so a map that was filled from a log holds, place by place, what the
log holds.
-/

namespace TemplateLint

namespace SortedMap

variable {β γ : Type}

/-- Whether the keys ascend. -/
def Ascending (m : SortedMap Nat β) : Prop := m.Pairwise fun a b => a.1 < b.1

theorem get?_cons (k k' : Nat) (b : β) (m : SortedMap Nat β) :
    get? ((k, b) :: m) k' = if k' = k then some b else get? m k' := by
  by_cases h : k' = k
  · simp [get?, h]
  · have hbeq : (k' == k) = false := beq_false_of_ne h
    rw [if_neg h, get?, get?, List.lookup_cons, hbeq]

theorem get?_eq_none {m : SortedMap Nat β} {k : Nat} (h : ∀ a ∈ m, k < a.1) :
    get? m k = none := by
  rw [get?, List.lookup_eq_none_iff]
  intro a ha
  have hlt := h a ha
  simp only [bne_iff_ne, ne_eq]
  omega

theorem mem_keys_alter (m : SortedMap Nat β) (k k' : Nat) (f : Option β → β) :
    k' ∈ (m.alter k f).map Prod.fst ↔ k' = k ∨ k' ∈ m.map Prod.fst := by
  induction m with
  | nil => simp [alter]
  | cons a m ih =>
      obtain ⟨key, b⟩ := a
      rw [alter]
      split
      · simp
      · split
        next h => simp [h]
        next =>
          rw [List.map_cons, List.mem_cons, ih, List.map_cons, List.mem_cons]
          exact or_left_comm

theorem ascending_alter {m : SortedMap Nat β} (h : m.Ascending) (k : Nat) (f : Option β → β) :
    (m.alter k f).Ascending := by
  induction m with
  | nil => simp [alter, Ascending]
  | cons a m ih =>
      obtain ⟨key, b⟩ := a
      obtain ⟨hhead, htail⟩ := List.pairwise_cons.1 h
      rw [alter]
      split
      next hlt =>
        apply List.pairwise_cons.2
        refine ⟨?_, h⟩
        intro a ha
        rcases List.mem_cons.1 ha with rfl | ha
        · exact hlt
        · exact Nat.lt_trans hlt (hhead a ha)
      next hlt =>
        split
        · exact List.pairwise_cons.2 ⟨hhead, htail⟩
        next hne =>
          apply List.pairwise_cons.2
          refine ⟨?_, ih htail⟩
          intro a ha
          have hkey := (mem_keys_alter m k a.1 f).1 (List.mem_map_of_mem ha)
          rcases hkey with hk | hk
          · rw [hk]
            dsimp only
            omega
          · obtain ⟨a', ha', heq⟩ := List.mem_map.1 hk
            rw [← heq]
            exact hhead a' ha'

theorem get?_alter {m : SortedMap Nat β} (h : m.Ascending) (k k' : Nat) (f : Option β → β) :
    (m.alter k f).get? k' = if k' = k then some (f (m.get? k)) else m.get? k' := by
  induction m with
  | nil =>
      rw [alter, get?_cons]
      rfl
  | cons a m ih =>
      obtain ⟨key, b⟩ := a
      obtain ⟨hhead, htail⟩ := List.pairwise_cons.1 h
      rw [alter]
      split
      next hlt =>
        have hnone : get? ((key, b) :: m) k = none := by
          apply get?_eq_none
          intro a ha
          rcases List.mem_cons.1 ha with rfl | ha
          · exact hlt
          · exact Nat.lt_trans hlt (hhead a ha)
        rw [get?_cons, hnone]
      next =>
        split
        next heq =>
          subst heq
          rw [get?_cons, get?_cons, if_pos rfl, get?_cons]
          by_cases hk : k' = k
          · rw [if_pos hk, if_pos hk]
          · rw [if_neg hk, if_neg hk, if_neg hk]
        next hne =>
          rw [get?_cons, ih htail, get?_cons, get?_cons, if_neg hne]
          by_cases hk : k' = k
          · have hkey : k' ≠ key := fun he => hne (hk.symm.trans he)
            rw [if_neg hkey, if_pos hk, if_pos hk]
          · rw [if_neg hk, if_neg hk]

/-- The sum of what `count` gives for the values. -/
def total (count : β → Nat) : SortedMap Nat β → Nat
  | [] => 0
  | a :: m => count a.2 + total count m

theorem total_alter (count : β → Nat) (f : Option β → β)
    (hf : ∀ b, count (f b) = b.elim 0 count + 1) (m : SortedMap Nat β) (k : Nat) :
    total count (m.alter k f) = total count m + 1 := by
  induction m with
  | nil => simp [total, alter, hf]
  | cons a m ih =>
      obtain ⟨key, b⟩ := a
      rw [alter]
      split
      · simp [total, hf]
        omega
      · split
        · simp [total, hf]
          omega
        · simp [total, ih]
          omega

/-- What a predicate picks from a map, when it can hold at one key only. -/
theorem filter_flatMap_key {m : SortedMap Nat β} (h : m.Ascending) (key : Nat)
    (g : Nat → β → List γ) (p : γ → Bool) (hp : ∀ k b, k ≠ key → (g k b).filter p = []) :
    (m.flatMap fun a => g a.1 a.2).filter p = (((m.get? key).map (g key)).getD []).filter p := by
  induction m with
  | nil => rfl
  | cons a m ih =>
      obtain ⟨k, b⟩ := a
      obtain ⟨hhead, htail⟩ := List.pairwise_cons.1 h
      rw [List.flatMap_cons, List.filter_append, ih htail, get?_cons]
      by_cases hk : key = k
      · subst hk
        rw [if_pos rfl, get?_eq_none hhead]
        simp
      · rw [if_neg hk, hp k b (Ne.symm hk), List.nil_append]

end SortedMap

section SortedSet

theorem mem_insertSorted (a b : Nat) (l : List Nat) :
    b ∈ insertSorted a l ↔ b = a ∨ b ∈ l := by
  induction l with
  | nil => simp [insertSorted]
  | cons c l ih =>
      rw [insertSorted]
      split
      · simp
      · split
        next h => simp [h]
        next =>
          rw [List.mem_cons, ih, List.mem_cons]
          exact or_left_comm

theorem pairwise_insertSorted {l : List Nat} (h : l.Pairwise (· < ·)) (a : Nat) :
    (insertSorted a l).Pairwise (· < ·) := by
  induction l with
  | nil => simp [insertSorted]
  | cons c l ih =>
      obtain ⟨hhead, htail⟩ := List.pairwise_cons.1 h
      rw [insertSorted]
      split
      next hlt =>
        apply List.pairwise_cons.2
        refine ⟨?_, h⟩
        intro b hb
        rcases List.mem_cons.1 hb with rfl | hb
        · exact hlt
        · exact Nat.lt_trans hlt (hhead b hb)
      next hlt =>
        split
        · exact h
        next hne =>
          apply List.pairwise_cons.2
          refine ⟨?_, ih htail⟩
          intro b hb
          rcases (mem_insertSorted a b l).1 hb with rfl | hb
          · omega
          · exact hhead b hb

theorem mem_sortedSet (b : Nat) (l : List Nat) : b ∈ sortedSet l ↔ b ∈ l := by
  induction l using List.reverseRecOn with
  | nil => rfl
  | append_singleton l a ih =>
      rw [sortedSet, List.foldl_append, List.foldl_cons, List.foldl_nil, mem_insertSorted,
        ← sortedSet, ih, List.mem_append, List.mem_singleton]
      exact or_comm

theorem nodup_sortedSet (l : List Nat) : (sortedSet l).Nodup := by
  have hsorted : (sortedSet l).Pairwise (· < ·) := by
    induction l using List.reverseRecOn with
    | nil => exact List.Pairwise.nil
    | append_singleton l a ih =>
        rw [sortedSet, List.foldl_append, List.foldl_cons, List.foldl_nil, ← sortedSet]
        exact pairwise_insertSorted ih a
  exact hsorted.imp Nat.ne_of_lt

end SortedSet

/-- What is stored of a diagnostic besides its place. -/
def Diagnostic.entry (d : Diagnostic) : Entry :=
  { message := d.message, source := d.source, severity := d.severity }

/-- Whether a diagnostic is at the given place. -/
def Diagnostic.isAt (line column : Nat) (d : Diagnostic) : Bool :=
  d.line == line && d.column == column

namespace LineMap

/-- The entries at one place. -/
def entries (m : LineMap) (line column : Nat) : List Entry :=
  ((m.get? line).bind fun columns => SortedMap.get? columns column).getD []

/-- How many entries a map has, over all places. -/
def size (m : LineMap) : Nat := SortedMap.total (SortedMap.total List.length) m

theorem size_add (m : LineMap) (line column : Nat) (e : Entry) :
    (m.add line column e).size = m.size + 1 := by
  have hentries (entries : Option (List Entry)) :
      (entries.getD [] ++ [e]).length = entries.elim 0 List.length + 1 := by
    cases entries <;> simp
  apply SortedMap.total_alter
  intro columns
  rw [SortedMap.total_alter List.length _ hentries]
  cases columns <;> rfl

/-- Whether lines ascend, and columns in every line. -/
def Ordered (m : LineMap) : Prop :=
  SortedMap.Ascending m ∧ ∀ line columns, m.get? line = some columns → SortedMap.Ascending columns

theorem ascending_getD {m : LineMap} (h : m.Ordered) (line : Nat) :
    SortedMap.Ascending ((m.get? line).getD []) := by
  cases hline : m.get? line with
  | none => exact List.Pairwise.nil
  | some columns => exact h.2 line columns hline

theorem ordered_add {m : LineMap} (h : m.Ordered) (line column : Nat) (e : Entry) :
    (m.add line column e).Ordered := by
  refine ⟨SortedMap.ascending_alter h.1 _ _, ?_⟩
  intro line' columns hget
  rw [add, SortedMap.get?_alter h.1] at hget
  by_cases hline : line' = line
  · rw [if_pos hline, Option.some.injEq] at hget
    rw [← hget]
    exact SortedMap.ascending_alter (ascending_getD h line) _ _
  · rw [if_neg hline] at hget
    exact h.2 line' columns hget

theorem entries_add {m : LineMap} (h : m.Ordered) (line column line' column' : Nat) (e : Entry) :
    (m.add line column e).entries line' column' =
      if line' = line ∧ column' = column then m.entries line' column' ++ [e]
      else m.entries line' column' := by
  rw [entries, add, SortedMap.get?_alter h.1]
  by_cases hline : line' = line
  · subst hline
    have hasc := ascending_getD h line'
    rw [if_pos rfl, Option.bind_some, SortedMap.get?_alter hasc]
    have hcolumns : ∀ c, SortedMap.get? ((m.get? line').getD []) c =
        (m.get? line').bind fun columns => SortedMap.get? columns c := by
      intro c
      cases m.get? line' <;> rfl
    by_cases hcol : column' = column
    · subst hcol
      rw [if_pos rfl, if_pos ⟨rfl, rfl⟩, hcolumns]
      rfl
    · rw [if_neg hcol, if_neg (fun hc => hcol hc.2), hcolumns]
      rfl
  · rw [if_neg hline, if_neg (fun hc => hline hc.1)]
    rfl

theorem filter_isAt_diagnostics {m : LineMap} (h : m.Ordered) (line column : Nat) :
    m.diagnostics.filter (Diagnostic.isAt line column) =
      (m.entries line column).map (Entry.at line column) := by
  have hcolumns (columns : SortedMap Nat (List Entry)) (hasc : columns.Ascending) :
      (columns.flatMap fun a => a.2.map (Entry.at line a.1)).filter
          (Diagnostic.isAt line column) =
        ((columns.get? column).getD []).map (Entry.at line column) := by
    rw [SortedMap.filter_flatMap_key hasc column fun c es => es.map (Entry.at line c)]
    · cases columns.get? column with
      | none => rfl
      | some es =>
          rw [Option.map_some, Option.getD_some, Option.getD_some, List.filter_eq_self]
          intro d hd
          obtain ⟨e, -, rfl⟩ := List.mem_map.1 hd
          simp [Diagnostic.isAt, Entry.at]
    · intro c es hc
      rw [List.filter_eq_nil_iff]
      intro d hd
      obtain ⟨e, -, rfl⟩ := List.mem_map.1 hd
      simp [Diagnostic.isAt, Entry.at, hc]
  rw [diagnostics, SortedMap.filter_flatMap_key h.1 line fun l columns =>
    columns.flatMap fun a => a.2.map (Entry.at l a.1)]
  · rw [entries]
    cases hline : m.get? line with
    | none => rfl
    | some columns => exact hcolumns columns (h.2 line columns hline)
  · intro l columns hl
    rw [List.filter_eq_nil_iff]
    intro d hd
    obtain ⟨a, -, hd⟩ := List.mem_flatMap.1 hd
    obtain ⟨e, -, rfl⟩ := List.mem_map.1 hd
    simp [Diagnostic.isAt, Entry.at, hl]

/-- The map that is filled from a log. -/
def ofLog (log : List Diagnostic) : LineMap :=
  log.foldl (fun m d => m.add d.line d.column d.entry) []

theorem ofLog_append_singleton (log : List Diagnostic) (d : Diagnostic) :
    ofLog (log ++ [d]) = (ofLog log).add d.line d.column d.entry := by
  rw [ofLog, List.foldl_append]
  rfl

theorem ordered_ofLog (log : List Diagnostic) : (ofLog log).Ordered := by
  induction log using List.reverseRecOn with
  | nil => exact ⟨List.Pairwise.nil, by simp [ofLog, SortedMap.get?]⟩
  | append_singleton log d ih =>
      rw [ofLog_append_singleton]
      exact ordered_add ih _ _ _

theorem entries_ofLog (log : List Diagnostic) (line column : Nat) :
    (ofLog log).entries line column =
      (log.filter (Diagnostic.isAt line column)).map Diagnostic.entry := by
  induction log using List.reverseRecOn with
  | nil => rfl
  | append_singleton log d ih =>
      rw [ofLog_append_singleton, entries_add (ordered_ofLog log), ih, List.filter_append,
        List.map_append]
      by_cases hat : line = d.line ∧ column = d.column
      · rw [if_pos hat, List.filter_cons_of_pos (by simp [Diagnostic.isAt, hat])]
        rfl
      · have hnot : ¬ Diagnostic.isAt line column d := by
          simp only [Diagnostic.isAt, Bool.and_eq_true, beq_iff_eq]
          exact fun hc => hat ⟨hc.1.symm, hc.2.symm⟩
        rw [if_neg hat, List.filter_cons_of_neg hnot]
        simp

/-- A map that was filled from a log has the diagnostics of the log at every place, in the order of
the log. -/
theorem filter_isAt_diagnostics_ofLog (log : List Diagnostic) (line column : Nat) :
    (ofLog log).diagnostics.filter (Diagnostic.isAt line column) =
      log.filter (Diagnostic.isAt line column) := by
  rw [filter_isAt_diagnostics (ordered_ofLog log), entries_ofLog, List.map_map]
  nth_rewrite 2 [← List.map_id (log.filter (Diagnostic.isAt line column))]
  apply List.map_congr_left
  intro d hd
  have hat := (List.mem_filter.1 hd).2
  simp only [Diagnostic.isAt, Bool.and_eq_true, beq_iff_eq] at hat
  obtain ⟨rfl, rfl⟩ := hat
  rfl

theorem mem_lines_ofLog (log : List Diagnostic) (line : Nat) :
    line ∈ (ofLog log).lines ↔ line ∈ log.map Diagnostic.line := by
  induction log using List.reverseRecOn with
  | nil => rfl
  | append_singleton log d ih =>
      rw [ofLog_append_singleton, lines, add, SortedMap.mem_keys_alter, ← lines, ih,
        List.map_append, List.mem_append, List.map_singleton, List.mem_singleton]
      exact or_comm

end LineMap

end TemplateLint
