import TemplateLint.Proofs.Runs

/-!
# Files are checked independently

A linter whose rules are reporters is the same after a run as before it. So nothing of one file, and
nothing of an earlier run, shows in the report about another file.
-/

namespace TemplateLint

variable {σ : Type}

namespace Linter

/-- Runs one after another, of which only the linter is kept. -/
def runAll (l : Linter σ) (batches : List (List SourceFile)) : Linter σ :=
  batches.foldl (fun l sources => (l.run sources).2) l

theorem run_snd {l : Linter σ} (hl : l.OnlyReports) (hfiles : l.files = [])
    (hfailures : l.failures = []) (sources : List SourceFile) : (l.run sources).2 = l := by
  have hcleared (files : List CheckedFile) :
      ({ l with files := files } : Linter σ).report.2 = l := by
    obtain ⟨context, registry, world, files, failures⟩ := l
    subst hfiles hfailures
    rfl
  have hmulti : (l.withMoreFiles (sources.filterMap l.checkedFile?)).registry.multiFileRules = [] :=
    hl.multiFileRules
  rw [run, foldl_processFile hl]
  split
  · rw [processMultiFileRules_of_nil hmulti]
    exact hcleared _
  · exact hcleared _

theorem run_append {l : Linter σ} (hl : l.OnlyReports) (hfiles : l.files = [])
    (xs ys : List SourceFile) :
    (l.run (xs ++ ys)).1.files = (l.run xs).1.files ++ (l.run ys).1.files := by
  rw [run_eq hl hfiles, run_eq hl hfiles, run_eq hl hfiles, List.filterMap_append]

theorem runAll_eq {l : Linter σ} (hl : l.OnlyReports) (hfiles : l.files = [])
    (hfailures : l.failures = []) (batches : List (List SourceFile)) : l.runAll batches = l := by
  induction batches with
  | nil => rfl
  | cons sources batches ih =>
      rw [runAll, List.foldl_cons, run_snd hl hfiles hfailures]
      exact ih

end Linter

/-- With the rules that come with the linter, a run on two lists of files reports what a run on each
of them reports, without failures, and a linter that was used before reports what a fresh one
does. -/
theorem run_file_independence {config : Config} {l : Linter Unit}
    (h : Linter.withBuiltinRules config = .ok l) (xs ys : List SourceFile)
    (earlier : List (List SourceFile)) :
    (l.run (xs ++ ys)).1 =
        { files := (l.run xs).1.files ++ (l.run ys).1.files, failures := [] } ∧
      ((l.runAll earlier).run ys).1 = (l.run ys).1 := by
  obtain ⟨c, -, rfl⟩ := exists_context_of_withBuiltinRules h
  have hl := onlyReports_builtinLinter c
  have hfailures : (c.builtinLinter.run (xs ++ ys)).1.failures = [] := by
    rw [Linter.run_eq hl rfl]
    rfl
  constructor
  · rw [← Linter.run_append hl rfl, ← hfailures]
  · rw [Linter.runAll_eq hl rfl rfl]

/-- A file with mixed line endings and one that cannot be read, before a file with a tab. -/
theorem run_file_independence_after_mixed_endings :
    let xs : List SourceFile :=
      [⟨"a.tpl".toList, some "x\r\ny\n".toList⟩, ⟨"b.tpl".toList, none⟩]
    let ys : List SourceFile := [⟨"c.tpl".toList, some "\tz".toList⟩]
    ∃ l, Linter.withBuiltinRules {} = .ok l ∧
      (l.run (xs ++ ys)).1 =
        { files := (l.run xs).1.files ++ (l.run ys).1.files, failures := [] } ∧
      (l.run xs).1.files.map FileReport.errors = [3, 1] ∧
      ((l.runAll [xs, ys]).run ys).1.files.map FileReport.errors = [1] := by
  intro xs ys
  let c : Context := ⟨{}, .standard, []⟩
  have hl : Linter.withBuiltinRules {} = .ok c.builtinLinter := by
    rw [withBuiltinRules_eq]
    rfl
  obtain ⟨happend, hagain⟩ := run_file_independence hl xs ys [xs, ys]
  refine ⟨c.builtinLinter, hl, happend, by decide +kernel, ?_⟩
  rw [hagain]
  decide +kernel

end TemplateLint
