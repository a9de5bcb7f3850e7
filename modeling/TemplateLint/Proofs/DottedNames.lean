import Mathlib.Data.List.Infix
import TemplateLint.CheckedFile
import TemplateLint.Proofs.Occurrences

/-!
# Dotted names

A scope covers a source if its dotted parts are the first parts of the source, so covering is a
partial order. The identifier of a rule has exactly two parts, which no code can add to: a scope
that is the identifier of one rule never covers what another rule reports.
-/

namespace TemplateLint

section Parts

/-- The parts of a name between its dots. They may be empty. -/
def dottedParts (name : Text) : List Text := name.splitOn '.'

theorem dottedParts_append_dot (front back : Text) :
    dottedParts (front ++ '.' :: back) = dottedParts front ++ dottedParts back :=
  List.splitOn_append_cons_self front back

theorem intercalate_dottedParts (name : Text) : ['.'].intercalate (dottedParts name) = name :=
  List.intercalate_splitOn '.'

theorem dottedParts_injective : Function.Injective dottedParts :=
  Function.LeftInverse.injective intercalate_dottedParts

private theorem intercalate_append_cons (sep : Text) {front : List Text} (hne : front ≠ [])
    (part : Text) (back : List Text) :
    sep.intercalate (front ++ part :: back) =
      sep.intercalate front ++ sep ++ sep.intercalate (part :: back) := by
  induction front with
  | nil => exact absurd rfl hne
  | cons first front ih =>
      cases front with
      | nil => simp
      | cons second front =>
          have hrest := ih (by simp)
          rw [List.cons_append] at hrest
          simp [List.intercalate_cons_cons, hrest]

end Parts

section Covering

variable {scope source : Text}

theorem scopeCovers_iff_eq_or_append :
    scopeCovers scope source ↔ source = scope ∨ ∃ rest, source = scope ++ '.' :: rest := by
  constructor
  · intro h
    rw [scopeCovers] at h
    split at h
    next hdrop => exact Or.inl (by simpa using eq_append_of_dropLeading? hdrop)
    next c rest hdrop =>
      obtain rfl : c = '.' := by simpa using h
      exact Or.inr ⟨rest, eq_append_of_dropLeading? hdrop⟩
    next => simp at h
  · rintro (rfl | ⟨rest, rfl⟩)
    · have hdrop := dropLeading?_self_append source []
      rw [List.append_nil] at hdrop
      simp [scopeCovers, hdrop]
    · simp [scopeCovers, dropLeading?_self_append]

theorem scopeCovers_iff_dottedParts :
    scopeCovers scope source ↔ dottedParts scope <+: dottedParts source := by
  rw [scopeCovers_iff_eq_or_append]
  constructor
  · rintro (rfl | ⟨rest, rfl⟩)
    · exact List.prefix_refl _
    · rw [dottedParts_append_dot]
      exact List.prefix_append _ _
  · rintro ⟨tail, htail⟩
    cases tail with
    | nil => exact Or.inl (dottedParts_injective (by simpa using htail.symm))
    | cons part tail =>
        -- Joining the parts again puts a dot behind those of the scope.
        right
        refine ⟨['.'].intercalate (part :: tail), ?_⟩
        have hne : dottedParts scope ≠ [] := List.splitOn_ne_nil '.' scope
        rw [← intercalate_dottedParts source, ← htail, intercalate_append_cons _ hne,
          intercalate_dottedParts]
        simp

/-- A scope covers a source exactly if its parts between dots are a prefix of the parts of the
source. So every name covers itself, what covers a scope covers all that the scope covers, and
names that cover each other are the same. -/
theorem scopeCovers_dotted_prefix_order :
    (∀ scope source, scopeCovers scope source ↔ scope.splitOn '.' <+: source.splitOn '.') ∧
      (∀ scope, scopeCovers scope scope) ∧
      (∀ a b c, scopeCovers a b → scopeCovers b c → scopeCovers a c) ∧
      ∀ a b, scopeCovers a b → scopeCovers b a → a = b := by
  refine ⟨fun scope source => scopeCovers_iff_dottedParts, ?_, ?_, ?_⟩
  · intro scope
    exact scopeCovers_iff_dottedParts.2 (List.prefix_refl _)
  · intro a b c hab hbc
    rw [scopeCovers_iff_dottedParts] at *
    exact hab.trans hbc
  · intro a b hab hba
    rw [scopeCovers_iff_dottedParts] at *
    exact dottedParts_injective (hab.eq_of_length_le hba.length_le)

example : scopeCovers "a.".toList "a..b".toList ∧ ¬ scopeCovers "a.".toList "a.b".toList ∧
    scopeCovers [] ".a".toList ∧ ¬ scopeCovers [] "a".toList := by
  decide

end Covering

/-- Whether a text can be a part of an identifier. -/
def IsNamePart (part : Text) : Prop :=
  part ≠ [] ∧ ∀ c ∈ part, c ≠ '.' ∧ c ≠ '_' ∧ c ≠ '\\' ∧ c ≠ ':'

theorem IsNamePart.dottedParts_eq {part : Text} (h : IsNamePart part) :
    dottedParts part = [part] :=
  List.splitOn_eq_singleton fun hdot => (h.2 '.' hdot).1 rfl

theorem forall_not_of_mem_splitOnP {p : Char → Bool} {s part : Text} (h : part ∈ s.splitOnP p) :
    ∀ c ∈ part, p c = false := by
  induction s generalizing part with
  | nil => simp_all
  | cons a s ih =>
      rw [List.splitOnP_cons_eq_if_modifyHead] at h
      split at h
      next =>
        rcases List.mem_cons.1 h with rfl | h
        · simp
        · exact ih h
      next ha =>
        cases hs : s.splitOnP p with
        | nil => exact absurd hs (List.splitOnP_ne_nil p s)
        | cons first rest =>
            simp only [hs, List.modifyHead_cons, List.mem_cons] at h ih
            rcases h with rfl | h
            · simpa [ha] using ih (Or.inl rfl)
            · exact ih (Or.inr h)

theorem eq_append_of_dropTrailing? {tail s front : Text} (h : dropTrailing? tail s = some front) :
    s = front ++ tail := by
  obtain ⟨rest, hrest, rfl⟩ := Option.map_eq_some_iff.1 h
  have hs := congrArg List.reverse (eq_append_of_dropLeading? hrest)
  simpa using hs

namespace RuleId

variable {qualified : Text} {id i j : RuleId}

theorem isNamePart_of_mem_nameParts {part : Text} (h : part ∈ nameParts qualified) :
    IsNamePart part := by
  simp only [nameParts, List.mem_filter, bne_iff_ne] at h
  refine ⟨h.2, fun c hc => ?_⟩
  simpa [isSeparator, and_assoc] using forall_not_of_mem_splitOnP h.1 c hc

/-- The category of an accepted name is one of its parts, and so is what the rule's name is the
start of. -/
theorem parts_of_ofQualifiedName (h : ofQualifiedName qualified = .ok id) :
    id.category ∈ nameParts qualified ∧ id.name ≠ [] ∧
      ∃ rule ∈ nameParts qualified, id.name <+: rule := by
  rw [ofQualifiedName] at h
  split at h
  next vendor category rule rest hparts =>
    dsimp only at h
    split at h
    next => simp at h
    next hname =>
      rw [← Except.ok.inj h]
      refine ⟨by simp [hparts], hname, rule, by simp [hparts], ?_⟩
      cases hdrop : dropTrailing? nameEnding rule with
      | none => exact List.prefix_refl _
      | some front => exact ⟨nameEnding, (eq_append_of_dropTrailing? hdrop).symm⟩
  next => simp at h

theorem eq_of_ofQualifiedName_error {e : LintError}
    (h : ofQualifiedName qualified = .error e) : e = .invalidRuleName qualified := by
  rw [ofQualifiedName] at h
  split at h
  next =>
    dsimp only at h
    split at h
    next => exact (Except.error.inj h).symm
    next => simp at h
  next => exact (Except.error.inj h).symm

theorem isNamePart_of_ofQualifiedName (h : ofQualifiedName qualified = .ok id) :
    IsNamePart id.category ∧ IsNamePart id.name := by
  obtain ⟨hcategory, hne, rule, hrule, hpre⟩ := parts_of_ofQualifiedName h
  refine ⟨isNamePart_of_mem_nameParts hcategory, hne, fun c hc => ?_⟩
  exact (isNamePart_of_mem_nameParts hrule).2 c (hpre.subset hc)

theorem dottedParts_text (h : ofQualifiedName qualified = .ok id) :
    dottedParts id.text = [id.category, id.name] := by
  obtain ⟨hcategory, hname⟩ := isNamePart_of_ofQualifiedName h
  rw [text, dottedParts_append_dot, hcategory.dottedParts_eq, hname.dottedParts_eq]
  rfl

/-- A code only adds parts behind those of the identifier. -/
theorem dottedParts_sourceFor (id : RuleId) (code : Text) :
    dottedParts (id.sourceFor code) =
      dottedParts id.text ++ if code = [] then [] else dottedParts code := by
  rw [sourceFor]
  split
  next => simp
  next => exact dottedParts_append_dot _ _

theorem scopeCovers_text_sourceFor (id : RuleId) (code : Text) :
    scopeCovers id.text (id.sourceFor code) := by
  rw [scopeCovers_iff_dottedParts, dottedParts_sourceFor]
  exact List.prefix_append _ _

theorem scopeCovers_sourceFor_iff {first second : Text} (hi : ofQualifiedName first = .ok i)
    (hj : ofQualifiedName second = .ok j) (code : Text) :
    scopeCovers i.text (j.sourceFor code) ↔ i = j := by
  constructor
  · intro h
    rw [scopeCovers_iff_dottedParts, dottedParts_sourceFor, dottedParts_text hi,
      dottedParts_text hj] at h
    obtain ⟨hcategory, hname⟩ : i.category = j.category ∧ i.name = j.name := by
      simpa [List.cons_prefix_cons] using h
    cases i
    cases j
    simp_all
  · rintro rfl
    exact scopeCovers_text_sourceFor i code

theorem text_eq_text_iff {first second : Text} (hi : ofQualifiedName first = .ok i)
    (hj : ofQualifiedName second = .ok j) : i.text = j.text ↔ i = j := by
  constructor
  · intro h
    have hcovers := scopeCovers_text_sourceFor j []
    rw [← h] at hcovers
    exact (scopeCovers_sourceFor_iff hi hj []).1 hcovers
  · exact congrArg text

end RuleId

theorem CheckedFile.sourceFor_of_activeRule {file : CheckedFile} {id : RuleId} {code : Text}
    (hactive : file.activeRule = some id) (hcode : ¬ internalStart <+: code) :
    file.sourceFor code = id.sourceFor code := by
  rw [sourceFor, if_neg (mt List.isPrefixOf_iff_prefix.1 hcode), hactive]

/-- With one scope ignored and no patterns, what is refused is what the scope covers. -/
theorem CheckedFile.tryAdd_fst_of_ignoreRules {file : CheckedFile} {scope : Text}
    (hrules : file.context.config.ignoreRules = [scope]) (hpatterns : file.context.patterns = [])
    (severity : Severity) (template : Text) (position : Position) (code : Text)
    (args : List Text) :
    (file.tryAdd severity template position code args).1 = false ↔
      scopeCovers scope (file.sourceFor code) := by
  have hsup : file.suppresses code = scopeCovers scope (file.sourceFor code) := by
    simp [suppresses, Context.isSuppressed, Context.isRuleIgnored, IgnorePatterns.suppresses,
      hrules, hpatterns]
  rw [tryAdd, hsup]
  split <;> simp_all

/-- Identifiers of rules have two parts, so a scope that is one of them covers all that its own rule
reports and nothing that another rule reports. If it is the only thing ignored, the reports that are
refused are those of its rule. -/
theorem scopes_isolate_rules {first second : Text} {i j : RuleId}
    (hi : RuleId.ofQualifiedName first = .ok i) (hj : RuleId.ofQualifiedName second = .ok j) :
    (∀ id ∈ [i, j], ∃ category name, id.text.splitOn '.' = [category, name] ∧
      IsNamePart category ∧ IsNamePart name) ∧
      (i.text = j.text ↔ i = j) ∧
      (∀ code, scopeCovers i.text (i.sourceFor code)) ∧
      (i ≠ j → ∀ code, scopeCovers i.text (j.sourceFor code) = false) ∧
      ∀ file : CheckedFile, file.context.config.ignoreRules = [i.text] →
        file.context.patterns = [] → file.activeRule = some j →
        ∀ severity template position code args, ¬ internalStart <+: code →
          ((file.tryAdd severity template position code args).1 = false ↔ j = i) := by
  have hparts {qualified : Text} {id : RuleId} (h : RuleId.ofQualifiedName qualified = .ok id) :
      ∃ category name, id.text.splitOn '.' = [category, name] ∧
        IsNamePart category ∧ IsNamePart name :=
    ⟨id.category, id.name, RuleId.dottedParts_text h, RuleId.isNamePart_of_ofQualifiedName h⟩
  refine ⟨by simp [hparts hi, hparts hj], RuleId.text_eq_text_iff hi hj,
    i.scopeCovers_text_sourceFor, ?_, ?_⟩
  · intro hne code
    rw [← Bool.not_eq_true, RuleId.scopeCovers_sourceFor_iff hi hj]
    exact hne
  · intro file hrules hpatterns hactive severity template position code args hcode
    rw [CheckedFile.tryAdd_fst_of_ignoreRules hrules hpatterns,
      CheckedFile.sourceFor_of_activeRule hactive hcode, RuleId.scopeCovers_sourceFor_iff hi hj]
    exact eq_comm

/-- Two rules, the identifier of one of which is how that of the other starts, and a code that looks
like an identifier. -/
theorem scopes_isolate_rules_shared_start :
    let i : RuleId := ⟨"Commenting".toList, "Fixme".toList⟩
    let j : RuleId := ⟨"Commenting".toList, "FixmeStrict".toList⟩
    let code := "Commenting.Fixme".toList
    let file := CheckedFile.new "a.tpl".toList ⟨{ ignoreRules := [i.text] }, .standard, []⟩
    RuleId.ofQualifiedName "Rules.Commenting.FixmeRule".toList = .ok i ∧
      RuleId.ofQualifiedName "Vendor::Commenting::FixmeStrict".toList = .ok j ∧
      i.text.isPrefixOf j.text ∧ scopeCovers i.text (i.sourceFor code) ∧
      scopeCovers i.text (j.sourceFor code) = false ∧
      ((file.setActiveRule (some j)).tryAdd .error "x".toList .wholeFile code []).1 = true ∧
      ((file.setActiveRule (some i)).tryAdd .warning "x".toList .wholeFile code []).1 = false := by
  intro i j code file
  have hi : RuleId.ofQualifiedName "Rules.Commenting.FixmeRule".toList = .ok i := by cbv
  have hj : RuleId.ofQualifiedName "Vendor::Commenting::FixmeStrict".toList = .ok j := by cbv
  have hcode : ¬ internalStart <+: code := by decide
  have hne : i ≠ j := by decide
  obtain ⟨-, -, hown, hother, hrefused⟩ := scopes_isolate_rules hi hj
  obtain ⟨-, -, -, -, hsame⟩ := scopes_isolate_rules hi hi
  refine ⟨hi, hj, by decide, hown code, hother hne code, ?_, ?_⟩
  · rw [← Bool.not_eq_false, hrefused (file.setActiveRule (some j)) rfl rfl rfl _ _ _ _ _ hcode]
    exact hne.symm
  · exact (hsame (file.setActiveRule (some i)) rfl rfl rfl _ _ _ _ _ hcode).2 rfl

end TemplateLint
