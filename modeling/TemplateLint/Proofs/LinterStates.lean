import TemplateLint.Proofs.LineMaps
import TemplateLint.Proofs.RunOrder

/-!
# States of a linter

Whatever rules do, a file that is kept was made from a new one by operations on files, be it the one
that was to be checked or one that a rule put in its place. So what every operation keeps holds of
it, and what the linter itself sees to holds besides: between two calls of the linter no rule is at
work, and tokens are held only for rules about all files.
-/

namespace TemplateLint

variable {σ : Type}

namespace CheckedFile

/-- Whether changes lead from one file to the other. -/
def LeadsTo (f g : CheckedFile) : Prop := ∃ changes, FileChange.applyAll f changes = g

theorem LeadsTo.refl (f : CheckedFile) : f.LeadsTo f := ⟨[], rfl⟩

theorem LeadsTo.trans {f g h : CheckedFile} (hfg : f.LeadsTo g) (hgh : g.LeadsTo h) :
    f.LeadsTo h := by
  obtain ⟨changes, rfl⟩ := hfg
  obtain ⟨changes', rfl⟩ := hgh
  exact ⟨changes ++ changes', by rw [FileChange.applyAll, List.foldl_append]; rfl⟩

theorem leadsTo_change (f : CheckedFile) (change : FileChange) : f.LeadsTo (change.apply f) :=
  ⟨[change], rfl⟩

theorem leadsTo_apply (f : CheckedFile) (op : FileOp) : f.LeadsTo (op.apply f) :=
  f.leadsTo_change (.edit op)

theorem leadsTo_setActiveRule (f : CheckedFile) (rule : Option RuleId) :
    f.LeadsTo (f.setActiveRule rule) := f.leadsTo_apply (.setActiveRule rule)

/-- Whether the two counts of a file are those of its maps. -/
structure Counted (f : CheckedFile) : Prop where
  errors : f.errorCount = f.errors.size
  warnings : f.warningCount = f.warnings.size

theorem counted_new (path : Text) (context : Context) : (new path context).Counted := ⟨rfl, rfl⟩

theorem Counted.insert {f : CheckedFile} (h : f.Counted) (line column : Nat) (e : Entry) :
    (f.insert line column e).Counted := by
  rw [CheckedFile.insert]
  cases e.severity with
  | error => exact ⟨by rw [LineMap.size_add, h.errors], h.warnings⟩
  | warning => exact ⟨h.errors, by rw [LineMap.size_add, h.warnings]⟩

theorem Counted.apply {f : CheckedFile} (h : f.Counted) (op : FileOp) : (op.apply f).Counted := by
  cases op with
  | add severity template position code args =>
      rw [FileOp.apply, add, tryAdd]
      split
      · exact h
      · exact h.insert _ _ _
  | clearDiagnostics => exact ⟨rfl, rfl⟩
  | recordAbort reason =>
      have hcleared : f.clearDiagnostics.Counted := ⟨rfl, rfl⟩
      rw [FileOp.apply, recordAbort]
      exact hcleared.insert _ _ _
  | _ => exact ⟨h.errors, h.warnings⟩

theorem Counted.change {f : CheckedFile} (h : f.Counted) (change : FileChange) :
    (change.apply f).Counted := by
  cases change with
  | edit op => exact h.apply op
  | replace path context => exact counted_new path context

theorem Counted.of_leadsTo {f g : CheckedFile} (h : f.Counted) (hg : f.LeadsTo g) : g.Counted := by
  obtain ⟨changes, rfl⟩ := hg
  induction changes generalizing f with
  | nil => exact h
  | cons change changes ih => exact ih (h.change change)

end CheckedFile

section Dispatch

theorem RegisteredRule.leadsTo_call (e : RegisteredRule σ) (position : Nat) (world : σ)
    (file : CheckedFile) : file.LeadsTo (e.call position world file).file := by
  have hleft : file.LeadsTo (FileChange.applyAll (file.setActiveRule (some e.id))
      (e.rule.process world (file.setActiveRule (some e.id)) position).changes) :=
    (file.leadsTo_setActiveRule _).trans ⟨_, rfl⟩
  unfold call
  dsimp only
  cases (e.rule.process world (file.setActiveRule (some e.id)) position).ending with
  | crashed reason => exact hleft
  | _ => exact hleft.trans (CheckedFile.leadsTo_setActiveRule _ _)

theorem leadsTo_callAll (position : Nat) (es : List (RegisteredRule σ)) (world : σ)
    (file : CheckedFile) : file.LeadsTo (callAll position es world file).file := by
  induction es generalizing world file with
  | nil => exact .refl file
  | cons e es ih =>
      by_cases hsup : file.context.patterns.suppresses file.path e.id.text
      · rw [callAll_cons_of_suppressed hsup]
        exact ih world file
      · have hcall := e.leadsTo_call position world file
        rw [callAll_cons_of_called hsup]
        dsimp only
        split
        · exact hcall.trans (ih _ _)
        · exact hcall

namespace Registry

theorem leadsTo_walk (r : Registry σ) (position : Nat) (tokens : TokenStream) (world : σ)
    (file : CheckedFile) : file.LeadsTo (r.walk position tokens world file).file := by
  induction tokens generalizing position world file with
  | nil => exact .refl file
  | cons t rest ih =>
      have hcalls := leadsTo_callAll position (r.listening t.type) world file
      rw [walk_cons]
      split
      · exact file.leadsTo_apply .clearDiagnostics
      · dsimp only
        split
        · exact hcalls.trans (ih _ _ _)
        · exact hcalls

theorem leadsTo_dispatch (r : Registry σ) (world : σ) (file : CheckedFile) :
    file.LeadsTo (r.dispatch world file).file := by
  rw [dispatch]
  split
  · exact .refl file
  · exact r.leadsTo_walk 0 _ world file

end Registry

namespace RegisteredMultiFileRule

theorem exists_leadsTo_of_mem_apply {files : List CheckedFile} {change : FilesChange}
    {g : CheckedFile} (hg : g ∈ change.apply files) : ∃ f ∈ files, f.LeadsTo g := by
  cases change with
  | slot index change =>
      obtain ⟨i, hi⟩ := List.mem_iff_getElem?.1 hg
      rw [FilesChange.apply, List.getElem?_modify] at hi
      obtain ⟨f, hf, rfl⟩ := Option.map_eq_some_iff.1 hi
      refine ⟨f, List.mem_iff_getElem?.2 ⟨i, hf⟩, ?_⟩
      split
      · exact f.leadsTo_change change
      · exact .refl f
  | swap i j => exact ⟨g, (FilesChange.perm_swap files i j).mem_iff.1 hg, .refl g⟩

theorem exists_leadsTo_of_mem_applyAll {changes : List FilesChange} {files : List CheckedFile}
    {g : CheckedFile} (hg : g ∈ FilesChange.applyAll files changes) :
    ∃ f ∈ files, f.LeadsTo g := by
  induction changes generalizing files with
  | nil => exact ⟨g, hg, .refl g⟩
  | cons change changes ih =>
      obtain ⟨f, hf, hfg⟩ := ih hg
      obtain ⟨f₀, hf₀, hstep⟩ := exists_leadsTo_of_mem_apply hf
      exact ⟨f₀, hf₀, hstep.trans hfg⟩

/-- A call about all files leads each of them on, and no rule is at work on it afterwards. -/
theorem exists_leadsTo_of_mem_call (e : RegisteredMultiFileRule σ) (d : MultiDispatched σ)
    {g : CheckedFile} (hg : g ∈ (e.call d).files) :
    (∃ f ∈ d.files, f.LeadsTo g) ∧ g.activeRule = none := by
  obtain ⟨left, hleft, rfl⟩ := List.mem_map.1 hg
  obtain ⟨entered, hentered, hchanges⟩ := exists_leadsTo_of_mem_applyAll hleft
  obtain ⟨f, hf, rfl⟩ := List.mem_map.1 hentered
  refine ⟨⟨f, hf, ?_⟩, rfl⟩
  exact ((f.leadsTo_setActiveRule _).trans hchanges).trans (left.leadsTo_setActiveRule none)

end RegisteredMultiFileRule

/-- Rules about all files lead each of them on and leave no rule at work. -/
theorem Registry.exists_leadsTo_of_mem_dispatchMulti (r : Registry σ) (world : σ)
    (files : List CheckedFile) {g : CheckedFile} (hg : g ∈ (r.dispatchMulti world files).files) :
    ∃ f ∈ files, f.LeadsTo g ∧ (f.activeRule = none → g.activeRule = none) := by
  have hfold (es : List (RegisteredMultiFileRule σ)) (d : MultiDispatched σ)
      (hg : g ∈ (es.foldl (fun d e => e.call d) d).files) :
      ∃ f ∈ d.files, f.LeadsTo g ∧ (f.activeRule = none → g.activeRule = none) := by
    induction es generalizing d with
    | nil => exact ⟨g, hg, .refl g, id⟩
    | cons e es ih =>
        obtain ⟨f, hf, hfg, hactive⟩ := ih (e.call d) hg
        obtain ⟨⟨f₀, hf₀, hcall⟩, hnone⟩ := e.exists_leadsTo_of_mem_call d hf
        exact ⟨f₀, hf₀, hcall.trans hfg, fun _ => hactive hnone⟩
  exact hfold r.multiFileRules ⟨world, files, []⟩ hg

end Dispatch

/-- What holds of a file that is kept, where `held` says whether its tokens may be. -/
structure CheckedFile.AtRest (held : Bool) (f : CheckedFile) : Prop where
  activeRule : f.activeRule = none
  counted : f.Counted
  tokens : held = false → f.tokens = none

namespace Linter

theorem leadsTo_prepared (l : Linter σ) (path contents : Text) :
    (CheckedFile.new path l.context).LeadsTo (l.prepared path contents) := by
  have hopened : (CheckedFile.new path l.context).LeadsTo
      (((CheckedFile.new path l.context).setEol (detectLineBreak contents).text).setTokens
        (l.context.markup.tokenize contents)) :=
    ⟨[.edit (.setEol _), .edit (.setTokens _)], rfl⟩
  rw [prepared]
  split
  · exact hopened.trans (CheckedFile.leadsTo_apply _ (.add _ _ _ _ _))
  · exact hopened

theorem leadsTo_settled (l : Linter σ) (d : Dispatched σ) : d.file.LeadsTo (l.settled d) := by
  have hrelease {g : CheckedFile} (hg : d.file.LeadsTo g) :
      d.file.LeadsTo (if l.registry.hasMultiFileRules then g else g.releaseTokens) := by
    split
    · exact hg
    · exact hg.trans (g.leadsTo_apply .releaseTokens)
  rw [settled]
  cases d.ending.failure? with
  | none => exact hrelease (.refl _)
  | some message =>
      have habort := (d.file.setActiveRule none).leadsTo_apply (.recordAbort message)
      exact hrelease ((d.file.leadsTo_setActiveRule none).trans habort)

theorem activeRule_prepared (l : Linter σ) (path contents : Text) :
    (l.prepared path contents).activeRule = none := by
  rw [prepared]
  split
  · exact (CheckedFile.add_frame _ _ _ _ _ _).2
  · rfl

/-- After a walk that returned the walk has seen to it, after one that crashed the linter does. -/
theorem activeRule_settled (l : Linter σ) {d : Dispatched σ}
    (h : d.ending.returns → d.file.activeRule = none) : (l.settled d).activeRule = none := by
  rw [settled]
  cases hfailure : d.ending.failure? with
  | none =>
      have hdone := (Ending.failure?_eq_none_iff _).1 hfailure
      have hnone := h (by rw [hdone]; rfl)
      split <;> exact hnone
  | some message => split <;> rfl

theorem tokens_settled (l : Linter σ) (d : Dispatched σ)
    (h : l.registry.hasMultiFileRules = false) : (l.settled d).tokens = none := by
  rw [settled, h]
  rfl

theorem atRest_unreadable (l : Linter σ) (path : Text) (held : Bool) :
    (l.unreadable path).AtRest held where
  activeRule := (CheckedFile.add_frame _ _ _ _ _ _).2
  counted := (CheckedFile.counted_new path l.context).apply (.add _ _ _ _ _)
  tokens _ := (CheckedFile.add_frame _ _ _ _ _ _).1

theorem atRest_settled (l : Linter σ) (path contents : Text) :
    (l.settled (l.registry.dispatch l.world (l.prepared path contents))).AtRest
      l.registry.hasMultiFileRules where
  activeRule := by
    obtain ⟨calls, htraced⟩ :=
      l.registry.traced_dispatch (l.tokens_prepared path contents) l.world []
    exact l.activeRule_settled (htraced.left (Or.inr (l.activeRule_prepared path contents)))
  counted := by
    have hprepared := (CheckedFile.counted_new path l.context).of_leadsTo
      (l.leadsTo_prepared path contents)
    have hwalked := hprepared.of_leadsTo (l.registry.leadsTo_dispatch l.world _)
    exact hwalked.of_leadsTo (l.leadsTo_settled _)
  tokens := l.tokens_settled _

/-- Whether every file that is kept is at rest. -/
def AtRest (l : Linter σ) : Prop := ∀ f ∈ l.files, f.AtRest l.registry.hasMultiFileRules

theorem AtRest.keep {l : Linter σ} (h : l.AtRest) (world : σ) {file : CheckedFile}
    (hfile : file.AtRest l.registry.hasMultiFileRules) : (l.keep world file).2.AtRest := by
  intro f hf
  rcases List.mem_append.1 hf with hf | hf
  · exact h f hf
  · rw [List.mem_singleton.1 hf]
    exact hfile

theorem AtRest.processFile {l : Linter σ} (h : l.AtRest) (source : SourceFile) :
    (l.processFile source).2.AtRest := by
  by_cases hskip : l.skips source
  · rw [processFile_of_skips hskip]
    exact h
  · have hkept : l.skips source = false := by simpa using hskip
    obtain ⟨path, contents⟩ := source
    cases contents with
    | none =>
        rw [processFile_unreadable hkept]
        exact h.keep _ (l.atRest_unreadable path _)
    | some contents =>
        rw [processFile_readable hkept]
        exact h.keep _ (l.atRest_settled path contents)

theorem atRest_of_mem_processMultiFileRules {l : Linter σ} (h : l.AtRest) {g : CheckedFile}
    (hg : g ∈ l.processMultiFileRules.files) : g.AtRest false := by
  obtain ⟨left, hleft, rfl⟩ := List.mem_map.1 hg
  obtain ⟨f, hf, hleads, hactive⟩ := l.registry.exists_leadsTo_of_mem_dispatchMulti _ _ hleft
  have hcounted := (h f hf).counted.of_leadsTo hleads
  exact ⟨hactive (h f hf).activeRule, hcounted.apply .releaseTokens, fun _ => rfl⟩

theorem AtRest.processMultiFileRules {l : Linter σ} (h : l.AtRest) :
    l.processMultiFileRules.AtRest := by
  intro g hg
  obtain ⟨hactive, hcounted, htokens⟩ := atRest_of_mem_processMultiFileRules h hg
  exact ⟨hactive, hcounted, fun _ => htokens rfl⟩

theorem AtRest.report {l : Linter σ} : l.report.2.AtRest := by
  intro f hf
  exact absurd hf List.not_mem_nil

end Linter

/-- What can be asked of a linter. -/
inductive LinterOp where
  | processFile (source : SourceFile)
  | processMultiFileRules
  | report
  | run (sources : List SourceFile)
  deriving DecidableEq, Repr

namespace LinterOp

def apply (l : Linter σ) : LinterOp → Linter σ
  | processFile source => (l.processFile source).2
  | processMultiFileRules => l.processMultiFileRules
  | report => l.report.2
  | run sources => (l.run sources).2

def applyAll (l : Linter σ) (ops : List LinterOp) : Linter σ := ops.foldl apply l

theorem atRest_apply {l : Linter σ} (h : l.AtRest) (op : LinterOp) : (op.apply l).AtRest := by
  cases op with
  | processFile source => exact h.processFile source
  | processMultiFileRules => exact h.processMultiFileRules
  | report => exact Linter.AtRest.report
  | run sources => exact Linter.AtRest.report

theorem registry_apply (l : Linter σ) (op : LinterOp) : (op.apply l).registry = l.registry := by
  have hprocessAll (sources : List SourceFile) : (l.processAll sources).registry = l.registry := by
    obtain ⟨world, added, hprocessed, -⟩ := l.processAll_eq sources
    rw [hprocessed]
  cases op with
  | processFile source => exact hprocessAll [source]
  | run sources =>
      change (l.run sources).2.registry = _
      rw [Linter.run_eq_report]
      split <;> exact hprocessAll sources
  | _ => rfl

theorem atRest_applyAll {l : Linter σ} (h : l.AtRest) (ops : List LinterOp) :
    (applyAll l ops).AtRest ∧ (applyAll l ops).registry = l.registry := by
  induction ops generalizing l with
  | nil => exact ⟨h, rfl⟩
  | cons op ops ih =>
      obtain ⟨hrest, hregistry⟩ := ih (atRest_apply h op)
      exact ⟨hrest, hregistry.trans (registry_apply l op)⟩

end LinterOp

/-- Whatever was asked of a linter with the given rules so far, and whatever the rules did, no rule
is at work on a file that is kept and its counts are those of its maps. Without rules about all
files its tokens are not held, and right after such rules were called they are not held in any case.
A report or a run leaves neither files nor failures behind. -/
theorem reachable_linter_atRest {config : Config} {rules : List (RuleInstance σ)} {world : σ}
    {l₀ : Linter σ} (h : Linter.ofRules config rules world = .ok l₀) (ops : List LinterOp) :
    let l := LinterOp.applyAll l₀ ops
    (∀ f ∈ l.files, f.activeRule = none ∧ f.errorCount = f.errors.size ∧
        f.warningCount = f.warnings.size) ∧
      (l₀.registry.multiFileRules = [] → ∀ f ∈ l.files, f.tokens = none) ∧
      (∀ f ∈ l.processMultiFileRules.files, f.tokens = none) ∧
      (l.report.2.files = [] ∧ l.report.2.failures = []) ∧
      ∀ sources, (l.run sources).2.files = [] ∧ (l.run sources).2.failures = [] := by
  intro l
  have hstart : l₀.AtRest := by
    intro f hf
    rw [(Linter.ofRules_eq_ok h).2.1] at hf
    exact absurd hf List.not_mem_nil
  obtain ⟨hrest, hregistry⟩ := LinterOp.atRest_applyAll hstart ops
  refine ⟨?_, ?_, ?_, ⟨rfl, rfl⟩, fun _ => ⟨rfl, rfl⟩⟩
  · intro f hf
    have hkept := hrest f hf
    exact ⟨hkept.activeRule, hkept.counted.errors, hkept.counted.warnings⟩
  · intro hnone f hf
    apply (hrest f hf).tokens
    rw [hregistry, Registry.hasMultiFileRules, hnone]
    rfl
  · intro f hf
    exact (Linter.atRest_of_mem_processMultiFileRules hrest hf).tokens rfl

/-- A rule that takes another rule's place and crashes, and a rule about all files that gives one of
them tokens again and moves them. -/
theorem reachable_linter_atRest_tampering_rules :
    let first : FileRule Unit :=
      { name := "Rules.A.FirstRule".toList
        listens := [.tag]
        process := fun _ _ _ =>
          ⟨(), [.edit (.add .warning "found".toList .wholeFile [] []),
            .edit (.setActiveRule (some ⟨"C".toList, "Third".toList⟩))], .crashed none⟩ }
    let second : MultiFileRule Unit :=
      { name := "Rules.B.SecondRule".toList
        process := fun _ _ =>
          ⟨(), [.slot 1 (.edit (.setTokens [])), .slot 0 (.edit .clearDiagnostics), .swap 0 1],
            .crashed none⟩ }
    let ops : List LinterOp :=
      [.processFile ⟨"a.tpl".toList, some "\x7ba\x7d".toList⟩, .processFile ⟨"b.tpl".toList, none⟩]
    ∃ l₀ : Linter Unit,
      Linter.ofRules {} [.file first, .multiFile second] () = .ok l₀ ∧
        (LinterOp.applyAll l₀ ops).files.map (fun f => (f.errorCount, f.hasTokens)) =
          [(1, true), (1, false)] ∧
        (∀ f ∈ (LinterOp.applyAll l₀ ops).files, f.activeRule = none ∧
          f.errorCount = f.errors.size ∧ f.warningCount = f.warnings.size) ∧
        ∀ f ∈ (LinterOp.applyAll l₀ ops).processMultiFileRules.files, f.tokens = none := by
  intro first second ops
  let l₀ : Linter Unit :=
    { context := ⟨{}, .standard, []⟩
      registry :=
        { fileRules := [⟨⟨"A".toList, "First".toList⟩, [.tag], first⟩]
          multiFileRules := [⟨⟨"B".toList, "Second".toList⟩, second⟩]
          listeners := fun t => if [TokenType.tag].contains t then [0] else [] }
      world := ()
      files := []
      failures := [] }
  have hrules : Linter.ofRules {} [.file first, .multiFile second] () = .ok l₀ := by rfl
  obtain ⟨hkept, -, hreleased, -⟩ := reachable_linter_atRest hrules ops
  exact ⟨l₀, hrules, by decide +kernel, hkept, hreleased⟩

end TemplateLint
