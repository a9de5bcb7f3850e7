import TemplateLint.Proofs.LinterStates
import TemplateLint.Proofs.Runs

/-!
# No file is aborted

On the tokens that scanning gives, the rules that come with the linter always end well: they are
called with the tokens of the file at hand and at a position in them, and no token is on a later
line than the last one. So no report says that checking was aborted.
-/

namespace TemplateLint

variable {σ : Type}

section Sources

theorem RuleId.sourceFor_ne {id : RuleId} {source : Text} {n : Nat} (hn : n ≤ id.text.length)
    (h : id.text.take n ≠ source.take n) (code : Text) : id.sourceFor code ≠ source := by
  rintro rfl
  apply h
  rw [sourceFor]
  split
  · rfl
  · rw [List.take_append_of_le_length hn]

theorem sourceFor_ne_abortSource {e : RegisteredRule σ} (h : e ∈ builtinEntries) (code : Text) :
    e.id.sourceFor code ≠ abortSource := by
  -- The first three letters tell every category from the one of the linter itself.
  simp only [builtinEntries, List.mem_cons, List.not_mem_nil, or_false] at h
  rcases h with rfl | rfl | rfl | rfl | rfl | rfl | rfl | rfl | rfl <;> dsimp only <;>
    exact RuleId.sourceFor_ne (n := 3) (by decide) (by decide) code

namespace Context

theorem source_ne_of_mem_findings (c : Context) {path contents : Text} {d : Diagnostic}
    (h : d ∈ c.builtinLinter.findings path contents) : d.source ≠ abortSource := by
  rcases Linter.mem_findings_cases h with h | ⟨i, t, -, e, he, hd⟩
  · rw [Linter.mixedFindings] at h
    rw [eq_of_mem_ite h]
    change "Internal.LineEndings.Mixed".toList ≠ abortSource
    decide
  · have hbuiltin := (mem_of_mem_listening he).1
    obtain ⟨code, hsource⟩ :=
      RegisteredRule.source_of_mem_findings (isReporter_of_mem_builtinEntries hbuiltin) hd
    rw [hsource]
    exact sourceFor_ne_abortSource hbuiltin code

theorem source_ne_of_mem_found? (c : Context) {source : SourceFile} {ds : List Diagnostic}
    (hfound : c.builtinLinter.found? source = some ds) {d : Diagnostic} (h : d ∈ ds) :
    d.source ≠ abortSource := by
  rw [Linter.found?] at hfound
  split at hfound
  · simp at hfound
  · split at hfound
    · rw [← Option.some.inj hfound, List.mem_singleton] at h
      rw [h]
      change "Internal.DetectLineEndings".toList ≠ abortSource
      decide
    · split at hfound
      · simp at hfound
      · rw [← Option.some.inj hfound] at h
        exact c.source_ne_of_mem_findings h

theorem source_ne_of_mem_run (c : Context) {sources : List SourceFile} {r : FileReport}
    (hr : r ∈ (c.builtinLinter.run sources).1.files) {d : Diagnostic} (h : d ∈ r.diagnostics) :
    d.source ≠ abortSource := by
  rw [Linter.run_eq (onlyReports_builtinLinter c) rfl] at hr
  obtain ⟨source, -, hreport⟩ := List.mem_filterMap.1 hr
  obtain ⟨ds, hfound, rfl⟩ := Option.map_eq_some_iff.1 hreport
  have hkept : d ∈ c.kept source.path ds := List.mem_mergeSort.1 h
  exact c.source_ne_of_mem_found? hfound (List.mem_of_mem_filter hkept)

end Context

end Sources

section Tokens

theorem TokenStream.exists_of_findPrevious? {ts : TokenStream} {q : TokenQuery} {start stop i : Nat}
    (h : ts.findPrevious? q start stop = some i) : ∃ t, ts[i]? = some t ∧ q.accepts t := by
  rw [findPrevious?] at h
  split at h
  · simp at h
  · have haccepts : q.acceptsAt ts i := List.find?_some h
    rw [TokenQuery.acceptsAt] at haccepts
    cases ht : ts[i]? with
    | none => simp [ht] at haccepts
    | some t => exact ⟨t, rfl, by simpa [ht] using haccepts⟩

/-- The last token with content is among the tokens, and on no later line than the last token. -/
theorem Markup.lastContent?_tokenize (m : Markup) (s : Text) {i : Nat}
    (h : Rules.lastContent? (m.tokenize s) ((m.tokenize s).length - 1) = some i) :
    ∃ content final, (m.tokenize s)[i]? = some content ∧
      (m.tokenize s)[(m.tokenize s).length - 1]? = some final ∧ content.line ≤ final.line := by
  obtain ⟨content, hcontent, -⟩ := TokenStream.exists_of_findPrevious? h
  have hlt := (List.getElem?_eq_some_iff.1 hcontent).1
  obtain ⟨final, hfinal⟩ : ∃ final, (m.tokenize s)[(m.tokenize s).length - 1]? = some final :=
    ⟨_, List.getElem?_eq_getElem (by omega)⟩
  exact ⟨content, final, hcontent, hfinal,
    Rules.line_le_last (Lexeme.pairwise_line_place 1 _) hcontent hfinal⟩

end Tokens

section Calls

/-- Whether a call ended well and was given the tokens, and a position in them. -/
structure FileCall.Served (tokens : TokenStream) (c : FileCall) : Prop where
  ending : c.ending = .done
  tokens_eq : c.file.tokens = some tokens
  position_lt : c.position < tokens.length

variable {f : CheckedFile} {tokens : TokenStream} {position : Nat}

/-- A call of a reporter is given the file as it was opened, apart from what was reported. -/
theorem RegisteredRule.served_callMade {e : RegisteredRule σ} (he : e.rule.IsReporter)
    (hf : f.Ready tokens) (hposition : position < tokens.length) (index : Nat) (world : σ)
    (log : List Diagnostic) : (e.callMade index position world (f.withLog log)).Served tokens where
  ending := by rw [callMade, call_withLog he hf hposition]
  tokens_eq := hf.tokens_eq
  position_lt := hposition

theorem served_callAll {es : List (Nat × RegisteredRule σ)}
    (hes : ∀ a ∈ es, a.2.rule.IsReporter) (hf : f.Ready tokens)
    (hposition : position < tokens.length) (world : σ) (trace : List Call)
    (log : List Diagnostic) :
    ∃ calls : List FileCall,
      callAll position (es.map fun a => a.2.recorded a.1) (world, trace) (f.withLog log) =
        (callAll position (es.map Prod.snd) world (f.withLog log)).recording
          (trace ++ calls.map .file) ∧
      ∀ c ∈ calls, c.file.path = f.path ∧ c.Served tokens := by
  induction es generalizing trace log with
  | nil => exact ⟨[], by simp [callAll, Dispatched.recording], by simp⟩
  | cons a es ih =>
      obtain ⟨index, e⟩ := a
      have he : e.rule.IsReporter := hes (index, e) List.mem_cons_self
      have htail := ih fun a ha => hes a (List.mem_cons_of_mem _ ha)
      rw [List.map_cons, List.map_cons]
      by_cases hsup : (f.withLog log).context.patterns.suppresses (f.withLog log).path e.id.text
      · rw [callAll_cons_of_suppressed hsup,
          callAll_cons_of_suppressed (e := e.recorded index) hsup]
        exact htail trace log
      · let call := e.callMade index position world (f.withLog log)
        have hcall := RegisteredRule.call_withLog he hf hposition world log
        obtain ⟨calls, hcalls, hserved⟩ := htail (trace ++ [.file call])
          (log ++ f.kept (e.findings world f position))
        refine ⟨call :: calls, ?_, ?_⟩
        · rw [callAll_cons_of_called hsup, callAll_cons_of_called (e := e.recorded index) hsup,
            e.call_recorded, hcall]
          simp only [Dispatched.recording, if_true] at hcalls ⊢
          rw [hcalls, List.map_cons, List.append_assoc, List.singleton_append]
        · intro c hc
          rcases List.mem_cons.1 hc with rfl | hc
          · exact ⟨rfl, e.served_callMade he hf hposition index world log⟩
          · exact hserved c hc

theorem Registry.served_walk {r : Registry σ} (hr : ∀ t, ∀ e ∈ r.listening t, e.rule.IsReporter)
    (hf : f.Ready tokens) (world : σ) (trace : List Call) (rest : TokenStream)
    (log : List Diagnostic) (hrest : tokens.drop position = rest) :
    ∃ calls : List FileCall,
      r.recorded.walk position rest (world, trace) (f.withLog log) =
        (r.walk position rest world (f.withLog log)).recording (trace ++ calls.map .file) ∧
      ∀ c ∈ calls, c.file.path = f.path ∧ c.Served tokens := by
  induction rest generalizing position trace log with
  | nil => exact ⟨[], by simp [walk, Dispatched.recording], by simp⟩
  | cons t rest ih =>
      have hposition : position < tokens.length := by
        have hlen := congrArg List.length hrest
        simp only [List.length_drop, List.length_cons] at hlen
        omega
      have hdrop : tokens.drop (position + 1) = rest := by
        rw [← List.drop_drop, hrest]
        rfl
      rw [walk_cons, walk_cons, listening_recorded]
      by_cases ht : t.optsOut
      · rw [if_pos ht, if_pos ht]
        exact ⟨[], by simp [Dispatched.recording], by simp⟩
      · have hes : ∀ a ∈ r.listeningAt t.type, a.2.rule.IsReporter := by
          intro a ha
          apply hr t.type
          rw [listening_eq_map]
          exact List.mem_map_of_mem ha
        obtain ⟨calls, hcalls, hserved⟩ := served_callAll hes hf hposition world trace log
        have hdone := callAll_withLog (hr t.type) hf hposition world log
        rw [← listening_eq_map, hdone] at hcalls
        obtain ⟨calls', hwalk, hserved'⟩ := ih (trace ++ calls.map .file) _ hdrop
        refine ⟨calls ++ calls', ?_, ?_⟩
        · rw [if_neg ht, if_neg ht, hcalls, hdone]
          simp only [Dispatched.recording, if_true] at hwalk ⊢
          rw [hwalk, List.map_append, List.append_assoc]
        · intro c hc
          rcases List.mem_append.1 hc with hc | hc
          · exact hserved c hc
          · exact hserved' c hc

namespace Linter

variable {l : Linter σ}

theorem served_dispatch (hl : l.OnlyReports) (path contents : Text) (trace : List Call) :
    ∃ calls : List FileCall,
      l.registry.recorded.dispatch (l.world, trace) (l.prepared path contents) =
        (l.registry.dispatch l.world (l.prepared path contents)).recording
          (trace ++ calls.map .file) ∧
      ∀ c ∈ calls, c.file.path = path ∧ c.Served (l.context.markup.tokenize contents) := by
  have hprepared : l.prepared path contents = (l.opened path contents).withLog
      ((l.opened path contents).kept (l.mixedFindings path contents)) :=
    l.opened_mixed path contents
  have hrequire : (l.prepared path contents).requireTokens =
      .ok (l.context.markup.tokenize contents) := by
    simp [CheckedFile.requireTokens, tokens_prepared]
  rw [Registry.dispatch, Registry.dispatch, hrequire, hprepared]
  exact Registry.served_walk hl.isReporter (l.ready_opened path contents) l.world trace _ _ rfl

theorem served_processFile (hl : l.OnlyReports) (source : SourceFile) (trace : List Call) :
    ∃ calls : List FileCall,
      (l.recorded trace).processFile source =
        ((l.processFile source).1, (l.processFile source).2.recorded (trace ++ calls.map .file)) ∧
      ∀ c ∈ calls, ∃ contents, source = ⟨c.file.path, some contents⟩ ∧
        c.Served (l.context.markup.tokenize contents) := by
  by_cases hunread : l.skips source ∨ source.contents = none
  · exact ⟨[], by simpa using processFile_recorded_of_unread hunread trace, by simp⟩
  · obtain ⟨hskip, hread⟩ := not_or.1 hunread
    obtain ⟨path, contents⟩ := source
    obtain ⟨contents, rfl⟩ := Option.ne_none_iff_exists'.1 hread
    obtain ⟨calls, hdispatch, hserved⟩ := served_dispatch hl path contents trace
    refine ⟨calls, processFile_recorded_of_dispatch (Bool.eq_false_iff.2 hskip) hdispatch, ?_⟩
    intro c hc
    obtain ⟨hpath, hc⟩ := hserved c hc
    exact ⟨contents, by rw [hpath], hc⟩

theorem served_processAll (hl : l.OnlyReports) (sources : List SourceFile) (trace : List Call) :
    ∃ calls : List FileCall,
      (l.recorded trace).processAll sources =
        (l.processAll sources).recorded (trace ++ calls.map .file) ∧
      ∀ c ∈ calls, ∃ contents, ⟨c.file.path, some contents⟩ ∈ sources ∧
        c.Served (l.context.markup.tokenize contents) := by
  induction sources generalizing l trace with
  | nil => exact ⟨[], by simp [processAll], by simp⟩
  | cons source sources ih =>
      obtain ⟨calls, hfirst, hserved⟩ := served_processFile hl source trace
      obtain ⟨world, added, hnext, -⟩ := l.processAll_eq [source]
      change (l.processFile source).2 = _ at hnext
      have hcontext : (l.processFile source).2.context = l.context := by rw [hnext]
      have hnextReports : (l.processFile source).2.OnlyReports := by
        rw [hnext]
        exact ⟨hl.isReporter, hl.multiFileRules⟩
      obtain ⟨calls', hrest, hserved'⟩ := ih hnextReports (trace ++ calls.map .file)
      rw [hcontext] at hserved'
      refine ⟨calls ++ calls', ?_, ?_⟩
      · rw [processAll, List.foldl_cons, hfirst, List.map_append, ← List.append_assoc]
        exact hrest
      · intro c hc
        rcases List.mem_append.1 hc with hc | hc
        · obtain ⟨contents, hsource, hc⟩ := hserved c hc
          exact ⟨contents, by simp [hsource], hc⟩
        · obtain ⟨contents, hsource, hc⟩ := hserved' c hc
          exact ⟨contents, List.mem_cons_of_mem _ hsource, hc⟩

theorem served_run (hl : l.OnlyReports) (sources : List SourceFile) :
    ∃ calls : List FileCall,
      (l.recorded []).run sources =
        ((l.run sources).1, (l.run sources).2.recorded (calls.map .file)) ∧
      ∀ c ∈ calls, ∃ contents, ⟨c.file.path, some contents⟩ ∈ sources ∧
        c.Served (l.context.markup.tokenize contents) := by
  obtain ⟨calls, hrecorded, hserved⟩ := served_processAll hl sources []
  refine ⟨calls, ?_, hserved⟩
  obtain ⟨world, added, hprocessed, -⟩ := l.processAll_eq sources
  have hmulti : (l.processAll sources).registry.multiFileRules = [] := by
    rw [hprocessed]
    exact hl.multiFileRules
  have hmulti' :
      ((l.processAll sources).recorded (calls.map .file)).registry.multiFileRules = [] := by
    simp [recorded, Registry.recorded, hmulti]
  rw [List.nil_append] at hrecorded
  rw [run_eq_report, run_eq_report, hrecorded]
  split
  · rw [processMultiFileRules_of_nil hmulti, processMultiFileRules_of_nil hmulti']
    rfl
  · rfl

end Linter

end Calls

/-- With the rules that come with the linter, no report says that checking was aborted. Every call
of a rule ends well, with the tokens of one of the files at hand and at a position in them. In
every token sequence that scanning gives, the line of the last token with content can be subtracted
from the line of the last token. -/
theorem run_never_aborts {config : Config} {l : Linter Unit}
    (h : Linter.withBuiltinRules config = .ok l) (sources : List SourceFile) :
    (∀ r ∈ (l.run sources).1.files, ∀ d ∈ r.diagnostics, d.source ≠ abortSource) ∧
      (∃ calls : List FileCall,
        (l.recorded []).run sources =
          ((l.run sources).1, (l.run sources).2.recorded (calls.map .file)) ∧
        ∀ c ∈ calls, ∃ contents, ⟨c.file.path, some contents⟩ ∈ sources ∧
          c.Served (l.context.markup.tokenize contents)) ∧
      ∀ (m : Markup) (s : Text) (i : Nat),
        let tokens := m.tokenize s
        Rules.lastContent? tokens (tokens.length - 1) = some i →
          ∃ content final, tokens[i]? = some content ∧ tokens[tokens.length - 1]? = some final ∧
            content.line ≤ final.line := by
  obtain ⟨c, -, rfl⟩ := exists_context_of_withBuiltinRules h
  refine ⟨fun r hr d hd => c.source_ne_of_mem_run hr hd,
    Linter.served_run (onlyReports_builtinLinter c) sources, ?_⟩
  intro m s i tokens hi
  exact m.lastContent?_tokenize s hi

/-- Two line breaks after a comment over two lines. -/
theorem run_never_aborts_spanning_comment :
    let sources : List SourceFile := [⟨"a.tpl".toList, some "\x7b*\n*\x7d\n\n".toList⟩]
    let tokens := Markup.standard.tokenize "\x7b*\n*\x7d\n\n".toList
    ∃ l, Linter.withBuiltinRules {} = .ok l ∧
      ((l.run sources).1.files.map fun r => r.diagnostics.map Diagnostic.source) =
        [["Files.EndFileNewline.TooMany".toList]] ∧
      (∀ r ∈ (l.run sources).1.files, ∀ d ∈ r.diagnostics, d.source ≠ abortSource) ∧
      (∃ calls : List FileCall, calls.length = 10 ∧ ∀ c ∈ calls, c.Served tokens) ∧
      ∃ content final, tokens[0]? = some content ∧ tokens[tokens.length - 1]? = some final ∧
        content.line ≤ final.line := by
  intro sources tokens
  let c : Context := ⟨{}, .standard, []⟩
  have hl : Linter.withBuiltinRules {} = .ok c.builtinLinter := by
    rw [withBuiltinRules_eq]
    rfl
  obtain ⟨hsources, ⟨calls, hrecorded, hserved⟩, hlines⟩ := run_never_aborts hl sources
  refine ⟨c.builtinLinter, hl, by decide +kernel, hsources, ⟨calls, ?_, ?_⟩, ?_⟩
  · have hlength := congrArg (fun result => result.2.world.2.length) hrecorded
    rw [← List.length_map (f := Call.file)]
    exact hlength.symm.trans (by decide +kernel)
  · intro call hcall
    obtain ⟨contents, hmem, hc⟩ := hserved call hcall
    have hcontents := (SourceFile.mk.inj (List.mem_singleton.1 hmem)).2
    rw [Option.some.inj hcontents] at hc
    exact hc
  · exact hlines Markup.standard _ 0 (by decide +kernel)

end TemplateLint
