import TemplateLint.Proofs.DiagnosticLog
import TemplateLint.Proofs.RunOrder

/-!
# What a failure costs

A call that fails on a file costs that file its diagnostics: one error that says why takes their
place, and nothing suppresses it. Files that were kept before stay as they are, and files that come
later are checked as ever. A file that opts out while no call fails is kept without diagnostics.
-/

namespace TemplateLint

variable {σ : Type}

namespace Follows

variable {file : CheckedFile} {plan : List (Nat × Callee)} {calls : List FileCall} {ending : Ending}

/-- A call that fails is the last one. -/
theorem ending_of_mem (h : Follows file plan calls ending) {c : FileCall} (hc : c ∈ calls)
    (hfail : c.ending ≠ .done) : ending = c.ending := by
  induction h with
  | finished => exact absurd hc List.not_mem_nil
  | passedOver _ _ _ ih => exact ih hc
  | failed => rw [List.mem_singleton.1 hc]
  | next _ hdone _ ih =>
      rcases List.mem_cons.1 hc with rfl | hc
      · exact absurd hdone hfail
      · exact ih hc

theorem ending_of_forall (h : Follows file plan calls ending)
    (hdone : ∀ c ∈ calls, c.ending = .done) : ending = .done := by
  induction h with
  | finished => rfl
  | passedOver _ _ _ ih => exact ih hdone
  | failed _ _ hfail => exact absurd (hdone _ List.mem_cons_self) hfail
  | next _ _ _ ih => exact ih fun c hc => hdone c (List.mem_cons_of_mem _ hc)

end Follows

/-- A walk that comes to a token that opts out leaves no diagnostics behind. -/
theorem Registry.walk_cleared (r : Registry σ) (position : Nat) {tokens : TokenStream}
    (hout : tokens.any Token.optsOut) (world : σ) (file : CheckedFile)
    (hdone : (r.walk position tokens world file).ending = .done) :
    ∃ f, (r.walk position tokens world file).file = CheckedFile.clearDiagnostics f := by
  rw [walk_eq_callEach] at hdone ⊢
  dsimp only at hdone ⊢
  by_cases hcalls : (Due.callEach (r.due position tokens) world file).ending = .done
  · rw [if_pos ⟨hcalls, hout⟩]
    exact ⟨_, rfl⟩
  · rw [if_neg fun h => hcalls h.1] at hdone
    exact absurd hdone hcalls

theorem Registry.dispatch_cleared (r : Registry σ) {file : CheckedFile} {tokens : TokenStream}
    (htokens : file.tokens = some tokens) (hout : tokens.any Token.optsOut) (world : σ)
    (hdone : (r.dispatch world file).ending = .done) :
    ∃ f, (r.dispatch world file).file = CheckedFile.clearDiagnostics f := by
  have hrequire : file.requireTokens = .ok tokens := by simp [CheckedFile.requireTokens, htokens]
  rw [dispatch, hrequire] at hdone ⊢
  exact r.walk_cleared 0 hout world file hdone

namespace Linter

theorem settled_of_failure (l : Linter σ) {d : Dispatched σ} {message : Text}
    (h : d.ending.failure? = some message) :
    ∃ f, l.settled d = CheckedFile.withLog f [.aborted message] := by
  rw [settled, h]
  dsimp only
  rw [CheckedFile.recordAbort_eq_withLog]
  split
  · exact ⟨_, rfl⟩
  · exact ⟨(d.file.setActiveRule none).releaseTokens, rfl⟩

theorem settled_of_cleared (l : Linter σ) {d : Dispatched σ} (h : d.ending = .done)
    {f : CheckedFile} (hf : d.file = f.clearDiagnostics) :
    ∃ g, l.settled d = CheckedFile.withLog g [] := by
  rw [settled, h, hf]
  dsimp only [Ending.failure?]
  split
  · exact ⟨f, rfl⟩
  · exact ⟨f.releaseTokens, rfl⟩

/-- What is kept of a file that is read is decided by the calls that were made on it. -/
theorem processFile_kept {l : Linter σ} {path contents : Text}
    (h : l.skips ⟨path, some contents⟩ = false) :
    ∃ (calls : List FileCall) (world : σ) (file : CheckedFile),
      (l.recorded []).processFile ⟨path, some contents⟩ =
          ((l.processFile ⟨path, some contents⟩).1,
            (l.processFile ⟨path, some contents⟩).2.recorded (calls.map .file)) ∧
        l.processFile ⟨path, some contents⟩ = l.keep world file ∧
        ((∀ c ∈ calls, c.OnlyEdits) → file.path = path) ∧
        (∀ c ∈ calls, ∀ message, c.ending.failure? = some message →
          ∃ f, file = CheckedFile.withLog f [.aborted message]) ∧
        ((∀ c ∈ calls, c.ending.failure? = none) →
          (l.context.markup.tokenize contents).any Token.optsOut →
            ∃ f, file = CheckedFile.withLog f []) := by
  obtain ⟨plan, d', calls, htraced, hrecorded⟩ := traced_processFile h []
  refine ⟨calls, _, _, hrecorded, processFile_readable h, ?_, ?_, ?_⟩
  · intro hedits
    rw [path_settled, htraced.path hedits, path_prepared]
  · intro c hc message hmessage
    have hfail : c.ending ≠ .done := by
      intro hdone
      rw [hdone] at hmessage
      exact absurd hmessage (by simp [Ending.failure?])
    rw [← htraced.follows.ending_of_mem hc hfail] at hmessage
    exact l.settled_of_failure hmessage
  · intro hnone hout
    have hdone := htraced.follows.ending_of_forall fun c hc =>
      (Ending.failure?_eq_none_iff c.ending).1 (hnone c hc)
    obtain ⟨f, hcleared⟩ :=
      l.registry.dispatch_cleared (l.tokens_prepared path contents) hout l.world hdone
    exact l.settled_of_cleared hdone hcleared

end Linter

/-- While files are checked one after another, a file of which a call fails is kept with that one
error, a file that opts out while no call fails is kept without diagnostics, the files kept before
stay as they are, and those that come later are checked and kept in their turn. Files keep their
paths unless a rule puts others in their places. -/
theorem processFile_isolation (l : Linter σ) (before after : List SourceFile) {path contents : Text}
    (hglobal : l.context.patterns.isGloballyIgnored path = false)
    (hskip : optsOut contents = false) :
    let source : SourceFile := ⟨path, some contents⟩
    let reached := l.processAll before
    let outcome := (reached.processFile source).1
    let next := (reached.processFile source).2
    let remaining := after.filter fun source => !l.skips source
    ∃ (calls laterCalls : List FileCall) (file : CheckedFile) (later : List CheckedFile),
      (reached.recorded []).processFile source = (outcome, next.recorded (calls.map .file)) ∧
        next.files = reached.files ++ [file] ∧ ((∀ c ∈ calls, c.OnlyEdits) → file.path = path) ∧
        (∀ c ∈ calls, ∀ message, c.ending.failure? = some message →
          outcome = .checked 1 0 ∧ file.diagnostics = [.aborted message]) ∧
        ((∀ c ∈ calls, c.ending.failure? = none) →
          (l.context.markup.tokenize contents).any Token.optsOut →
            outcome = .checked 0 0 ∧ file.diagnostics = []) ∧
        (next.recorded []).processAll after =
          (next.processAll after).recorded (laterCalls.map .file) ∧
        (next.processAll after).files = reached.files ++ [file] ++ later ∧
        List.Forall₂ l.Leaves remaining later ∧
        ((∀ c ∈ laterCalls, c.OnlyEdits) →
          later.map CheckedFile.path = remaining.map SourceFile.path) := by
  intro source reached outcome next remaining
  obtain ⟨_, _, hreached, -⟩ := l.processAll_eq before
  have hcontext : reached.context = l.context := by simp only [reached, hreached]
  have hkept : reached.skips source = false := by
    simp [Linter.skips, hcontext, source, hglobal, hskip]
  obtain ⟨calls, world, file, hrecorded, hprocess, hpath, hfail, hout⟩ :=
    Linter.processFile_kept hkept
  have houtcome : outcome = .checked file.errorCount file.warningCount :=
    congrArg Prod.fst hprocess
  have hnext : next = (reached.keep world file).2 := congrArg Prod.snd hprocess
  have hkeeps : next.files = reached.files ++ [file] := by
    rw [hnext]
    rfl
  have hskips : next.skips = l.skips := by
    funext s
    simp only [hnext, Linter.keep, Linter.skips, hcontext]
  have hleaves : next.Leaves = l.Leaves := by
    funext s f
    simp only [hnext, Linter.keep, Linter.Leaves, reached, hreached]
  obtain ⟨_, later, hlater, hadded⟩ := next.processAll_eq after
  obtain ⟨laterCalls, hlaterRecorded, hpaths⟩ := next.processAll_recorded after []
  have hfiles : (next.processAll after).files = reached.files ++ [file] ++ later := by
    rw [hlater, hkeeps]
  rw [hskips, hleaves] at hadded
  refine ⟨calls, laterCalls, file, later, hrecorded, hkeeps, hpath, ?_, ?_, hlaterRecorded, hfiles,
    hadded, ?_⟩
  · intro c hc message hmessage
    obtain ⟨f, hfile⟩ := hfail c hc message hmessage
    rw [houtcome, hfile, CheckedFile.diagnostics_withLog]
    exact ⟨rfl, List.mergeSort_singleton _⟩
  · intro hnone hmarker
    rw [← hcontext] at hmarker
    obtain ⟨f, hfile⟩ := hout hnone hmarker
    rw [houtcome, hfile, CheckedFile.diagnostics_withLog]
    exact ⟨rfl, List.mergeSort_nil⟩
  · intro hedits
    have hall := hpaths hedits
    rw [hfiles, ← hkeeps, List.map_append, hskips] at hall
    exact List.append_cancel_left hall

/-- A rule that puts a file of another path in place, reports and then fails, in a linter that is
set never to report its own errors. -/
theorem processFile_isolation_ignored_source :
    let reporting : RegisteredRule Nat :=
      ⟨⟨"A".toList, "First".toList⟩, [.tag],
        { name := "Rules.A.FirstRule".toList
          listens := [.tag]
          process := fun n file _ =>
            ⟨n + 1, [.replace "c.tpl".toList file.context,
                .edit (.add .warning "found".toList .wholeFile [] [])],
              .failed (.tokensReleased file.path)⟩ }⟩
    let l : Linter Nat :=
      { context := ⟨{ ignoreRules := ["Internal".toList] }, .standard, []⟩
        registry := .ofEntries [reporting]
        world := 0
        files := []
        failures := [] }
    let path := "b.tpl".toList
    let contents := "\x7ba\x7d".toList
    let reached := l.processAll [⟨"a.tpl".toList, some "x".toList⟩]
    l.context.patterns.isGloballyIgnored path = false ∧ optsOut contents = false ∧
      reached.files.map CheckedFile.path = ["a.tpl".toList] ∧
      (reached.processFile ⟨path, some contents⟩).1 = .checked 1 0 ∧
      ∃ file, (reached.processFile ⟨path, some contents⟩).2.files = reached.files ++ [file] ∧
        file.diagnostics = [.aborted (LintError.tokensReleased path).message] := by
  intro reporting l path contents reached
  have hglobal : l.context.patterns.isGloballyIgnored path = false := rfl
  have hskip : optsOut contents = false := by decide +kernel
  obtain ⟨calls, -, file, -, hrecorded, hfiles, -, hfail, -⟩ :=
    processFile_isolation l [⟨"a.tpl".toList, some "x".toList⟩] [] hglobal hskip
  have htrace : ((reached.recorded []).processFile ⟨path, some contents⟩).2.world.2 =
      calls.map .file := congrArg (fun result => result.2.world.2) hrecorded
  have hmade : (LintError.tokensReleased path).message ∈
      (calls.map Call.file).filterMap (·.ending.failure?) := by
    rw [← htrace]
    decide +kernel
  rw [List.filterMap_map] at hmade
  obtain ⟨c, hc, hmessage⟩ := List.mem_filterMap.1 hmade
  obtain ⟨houtcome, hdiagnostics⟩ := hfail c hc _ hmessage
  exact ⟨hglobal, hskip, by decide +kernel, houtcome, file, hfiles, hdiagnostics⟩

end TemplateLint
