import Mathlib.Data.List.Forall2
import TemplateLint.Proofs.DispatchOrder

/-!
# The order of a run

A run checks its files one after another and calls the rules about all files at the end. Whatever
rules do, every file that is not skipped has its place in the report, every rule about all files is
called once, and the failures are those of these calls. What such a rule is given is what the one
before it left, which may have put other files in their places or moved them about; the report shows
what the last one left.
-/

namespace TemplateLint

variable {σ : Type}

theorem CheckedFile.add_frame (f : CheckedFile) (severity : Severity) (template : Text)
    (position : Position) (code : Text) (args : List Text) :
    (f.add severity template position code args).tokens = f.tokens ∧
      (f.add severity template position code args).activeRule = f.activeRule := by
  rw [add, tryAdd]
  split
  · exact ⟨rfl, rfl⟩
  · cases severity <;> exact ⟨rfl, rfl⟩

namespace Linter

/-- Check files one after another. -/
def processAll (l : Linter σ) (sources : List SourceFile) : Linter σ :=
  sources.foldl (fun l source => (l.processFile source).2) l

/-- Whether a file is ignored as a whole or, if it can be read, opts out in its first lines. -/
def skips (l : Linter σ) (source : SourceFile) : Bool :=
  l.context.patterns.isGloballyIgnored source.path || source.contents.any optsOut

/-- A file as the walk over its tokens finds it. -/
def prepared (l : Linter σ) (path contents : Text) : CheckedFile :=
  let eol := (detectLineBreak contents).text
  let file := ((CheckedFile.new path l.context).setEol eol).setTokens
    (l.context.markup.tokenize contents)
  if hasMixedLineBreaks contents eol then
    file.add .error "File has mixed line endings; this may cause incorrect results".toList
      (.token 0) "Internal.LineEndings.Mixed".toList []
  else file

/-- A file as it is kept after the walk: a failure has taken the place of its diagnostics. -/
def settled (l : Linter σ) (d : Dispatched σ) : CheckedFile :=
  let file :=
    match d.ending.failure? with
    | none => d.file
    | some message => (d.file.setActiveRule none).recordAbort message
  if l.registry.hasMultiFileRules then file else file.releaseTokens

/-- A file that could not be read as it is kept. -/
def unreadable (l : Linter σ) (path : Text) : CheckedFile :=
  (CheckedFile.new path l.context).add .error
    "Error opening file; could not auto-detect line endings".toList .wholeFile
    "Internal.DetectLineEndings".toList []

/-- Whether a file is what checking a source leaves in some state of the rules. -/
def Leaves (l : Linter σ) (source : SourceFile) (file : CheckedFile) : Prop :=
  ∃ world, ({ l with world, files := [], failures := [] }.processFile source).2.files = [file]

theorem processFile_of_skips {l : Linter σ} {source : SourceFile} (h : l.skips source) :
    l.processFile source = (.skipped, l) := by
  obtain ⟨path, contents⟩ := source
  rw [skips, Bool.or_eq_true] at h
  rw [processFile]
  by_cases hglobal : l.context.patterns.isGloballyIgnored path
  · rw [if_pos hglobal]
  · rw [if_neg hglobal]
    cases contents with
    | none => simp [hglobal] at h
    | some contents =>
        have hskip : optsOut contents := by simpa [hglobal] using h
        dsimp only
        rw [if_pos hskip]

theorem processFile_unreadable {l : Linter σ} {path : Text} (h : l.skips ⟨path, none⟩ = false) :
    l.processFile ⟨path, none⟩ = l.keep l.world (l.unreadable path) := by
  have hglobal : l.context.patterns.isGloballyIgnored path = false := by simpa [skips] using h
  rw [processFile, hglobal]
  rfl

theorem processFile_readable {l : Linter σ} {path contents : Text}
    (h : l.skips ⟨path, some contents⟩ = false) :
    l.processFile ⟨path, some contents⟩ =
      let d := l.registry.dispatch l.world (l.prepared path contents)
      l.keep d.world (l.settled d) := by
  have hboth : l.context.patterns.isGloballyIgnored path = false ∧ optsOut contents = false := by
    simpa [skips] using h
  rw [processFile, hboth.1]
  dsimp only
  rw [if_neg Bool.false_ne_true, hboth.2]
  rfl

theorem tokens_prepared (l : Linter σ) (path contents : Text) :
    (l.prepared path contents).tokens = some (l.context.markup.tokenize contents) := by
  rw [prepared]
  split
  · exact (CheckedFile.add_frame _ _ _ _ _ _).1
  · rfl

theorem path_prepared (l : Linter σ) (path contents : Text) :
    (l.prepared path contents).path = path := by
  rw [prepared]
  split
  · exact (FileOp.apply_frame _ (.add _ _ _ _ _)).1
  · rfl

theorem path_settled (l : Linter σ) (d : Dispatched σ) : (l.settled d).path = d.file.path := by
  rw [settled]
  cases d.ending.failure? with
  | none => dsimp only; split <;> rfl
  | some message =>
      have hframe := FileOp.apply_frame (d.file.setActiveRule none) (.recordAbort message)
      dsimp only
      split <;> exact hframe.1

theorem settled_recorded (l : Linter σ) (d : Dispatched σ) (trace trace' : List Call) :
    (l.recorded trace).settled (d.recording trace') = l.settled d := by
  have hmulti : (l.recorded trace).registry.hasMultiFileRules = l.registry.hasMultiFileRules := by
    rw [Registry.hasMultiFileRules, Registry.hasMultiFileRules, recorded, Registry.recorded]
    cases l.registry.multiFileRules <;> simp
  rw [settled, settled, hmulti]
  rfl

/-- What recorders see while a file is read is what they see of the walk over it. -/
theorem processFile_recorded_of_dispatch {l : Linter σ} {path contents : Text}
    (h : l.skips ⟨path, some contents⟩ = false) {trace : List Call} {calls : List FileCall}
    (hdispatch : l.registry.recorded.dispatch (l.world, trace) (l.prepared path contents) =
      (l.registry.dispatch l.world (l.prepared path contents)).recording
        (trace ++ calls.map .file)) :
    (l.recorded trace).processFile ⟨path, some contents⟩ =
      ((l.processFile ⟨path, some contents⟩).1,
        (l.processFile ⟨path, some contents⟩).2.recorded (trace ++ calls.map .file)) := by
  rw [processFile_readable h, processFile_readable (l := l.recorded trace) h]
  change (l.recorded trace).keep
    (l.registry.recorded.dispatch (l.world, trace) (l.prepared path contents)).world
    ((l.recorded trace).settled
      (l.registry.recorded.dispatch (l.world, trace) (l.prepared path contents))) = _
  rw [hdispatch, settled_recorded]
  rfl

/-- A file that is read is walked over; its calls are all that recorders see. -/
theorem traced_processFile {l : Linter σ} {path contents : Text}
    (h : l.skips ⟨path, some contents⟩ = false) (trace : List Call) :
    ∃ plan d' calls, Traced plan (l.prepared path contents) trace
        (l.registry.dispatch l.world (l.prepared path contents)) d' calls ∧
      (l.recorded trace).processFile ⟨path, some contents⟩ =
        ((l.processFile ⟨path, some contents⟩).1,
          (l.processFile ⟨path, some contents⟩).2.recorded (trace ++ calls.map .file)) := by
  obtain ⟨calls, htraced⟩ :=
    l.registry.traced_dispatch (l.tokens_prepared path contents) l.world trace
  exact ⟨_, _, calls, htraced, processFile_recorded_of_dispatch h htraced.recorded⟩

/-- Checking one file keeps a file, unless it is skipped, and what it keeps depends on the rules and
their state only. -/
theorem processFile_keeps {l : Linter σ} {source : SourceFile} (h : l.skips source = false) :
    ∃ world file, l.processFile source = l.keep world file ∧ l.Leaves source file := by
  obtain ⟨path, contents⟩ := source
  let l₀ : Linter σ := { l with files := [], failures := [] }
  cases contents with
  | none =>
      refine ⟨_, _, processFile_unreadable h, l.world, ?_⟩
      have hfresh := processFile_unreadable (l := l₀) h
      exact congrArg (fun result => result.2.files) hfresh
  | some contents =>
      refine ⟨_, _, processFile_readable h, l.world, ?_⟩
      have hfresh := processFile_readable (l := l₀) h
      exact congrArg (fun result => result.2.files) hfresh

/-- Files that are checked are added to those that are kept, in order, and change nothing else. -/
theorem processAll_eq (l : Linter σ) (sources : List SourceFile) :
    ∃ world added, l.processAll sources = { l with world, files := l.files ++ added } ∧
      List.Forall₂ l.Leaves (sources.filter fun source => !l.skips source) added := by
  induction sources generalizing l with
  | nil => exact ⟨l.world, [], by simp [processAll], .nil⟩
  | cons source sources ih =>
      rw [processAll, List.foldl_cons]
      by_cases hskip : l.skips source
      · rw [processFile_of_skips hskip, List.filter_cons_of_neg (by simp [hskip])]
        exact ih l
      · have hkept : l.skips source = false := by simpa using hskip
        obtain ⟨world, file, hprocess, hleaves⟩ := processFile_keeps hkept
        obtain ⟨world', added, hrest, hadded⟩ := ih (l.keep world file).2
        refine ⟨world', file :: added, ?_, ?_⟩
        · rw [hprocess, ← processAll, hrest]
          simp [keep]
        · rw [List.filter_cons_of_pos (by simp [hkept])]
          exact .cons hleaves hadded

/-- Recorders see nothing of a file that is not walked over. -/
theorem processFile_recorded_of_unread {l : Linter σ} {source : SourceFile}
    (h : l.skips source ∨ source.contents = none) (trace : List Call) :
    (l.recorded trace).processFile source =
      ((l.processFile source).1, (l.processFile source).2.recorded trace) := by
  by_cases hskip : l.skips source
  · rw [processFile_of_skips hskip, processFile_of_skips (l := l.recorded trace) hskip]
  · have hkept : l.skips source = false := by simpa using hskip
    obtain ⟨path, contents⟩ := source
    obtain rfl : contents = none := h.resolve_left hskip
    rw [processFile_unreadable hkept, processFile_unreadable (l := l.recorded trace) hkept]
    simp [keep, recorded, unreadable]

theorem path_unreadable (l : Linter σ) (path : Text) : (l.unreadable path).path = path :=
  (FileOp.apply_frame (.new path l.context) (.add _ _ _ _ _)).1

/-- Recorders see calls at tokens. If these only work on the file, it is kept under its path. -/
theorem processFile_recorded (l : Linter σ) (source : SourceFile) (trace : List Call) :
    ∃ calls : List FileCall,
      (l.recorded trace).processFile source =
        ((l.processFile source).1, (l.processFile source).2.recorded (trace ++ calls.map .file)) ∧
      ((∀ c ∈ calls, c.OnlyEdits) → (l.processFile source).2.files.map CheckedFile.path =
        l.files.map CheckedFile.path ++ if l.skips source then [] else [source.path]) := by
  by_cases hskip : l.skips source
  · refine ⟨[], by simpa using processFile_recorded_of_unread (Or.inl hskip) trace, fun _ => ?_⟩
    rw [processFile_of_skips hskip, if_pos hskip, List.append_nil]
  · have hkept : l.skips source = false := by simpa using hskip
    rw [if_neg hskip]
    obtain ⟨path, contents⟩ := source
    cases contents with
    | none =>
        refine ⟨[], by simpa using processFile_recorded_of_unread (Or.inr rfl) trace, fun _ => ?_⟩
        rw [processFile_unreadable hkept, keep, List.map_append, List.map_singleton,
          path_unreadable]
    | some contents =>
        obtain ⟨plan, d', calls, htraced, hprocess⟩ := traced_processFile hkept trace
        refine ⟨calls, hprocess, fun hedits => ?_⟩
        rw [processFile_readable hkept]
        dsimp only
        rw [keep, List.map_append, List.map_singleton, path_settled, htraced.path hedits,
          path_prepared]

theorem processAll_recorded (l : Linter σ) (sources : List SourceFile) (trace : List Call) :
    ∃ calls : List FileCall,
      (l.recorded trace).processAll sources =
        (l.processAll sources).recorded (trace ++ calls.map .file) ∧
      ((∀ c ∈ calls, c.OnlyEdits) → (l.processAll sources).files.map CheckedFile.path =
        l.files.map CheckedFile.path ++
          (sources.filter fun source => !l.skips source).map SourceFile.path) := by
  induction sources generalizing l trace with
  | nil => exact ⟨[], by simp [processAll], by simp [processAll]⟩
  | cons source sources ih =>
      obtain ⟨calls, hfirst, hpath⟩ := l.processFile_recorded source trace
      obtain ⟨calls', hrest, hpaths⟩ := ih (l.processFile source).2 (trace ++ calls.map .file)
      have hskips : (l.processFile source).2.skips = l.skips := by
        obtain ⟨world, added, hnext, -⟩ := l.processAll_eq [source]
        change (l.processFile source).2 = _ at hnext
        rw [hnext]
        rfl
      refine ⟨calls ++ calls', ?_, ?_⟩
      · rw [processAll, List.foldl_cons, hfirst, List.map_append, ← List.append_assoc]
        exact hrest
      · intro hedits
        obtain ⟨hedits, hedits'⟩ := List.forall_mem_append.1 hedits
        rw [processAll, List.foldl_cons, ← processAll, hpaths hedits', hpath hedits, hskips,
          List.append_assoc]
        by_cases hskip : l.skips source <;> simp [hskip]

end Linter

section MultiFileRules

/-- The failure that a call about all files leaves in the report, if it fails. -/
def MultiFileCall.failure? (c : MultiFileCall) : Option RuleFailure :=
  c.ending.failure?.map (⟨c.callee.id.text, ·⟩)

namespace FilesChange

def isEdit : FilesChange → Bool
  | slot _ change => change.isEdit
  | swap _ _ => false

theorem length_applyAll (files : List CheckedFile) (changes : List FilesChange) :
    (applyAll files changes).length = files.length := by
  induction changes generalizing files with
  | nil => rfl
  | cons change changes ih =>
      rw [applyAll_cons, ih]
      cases change with
      | slot index change => exact List.length_modify _ _ _
      | swap i j => simp [apply]

theorem perm_swap (files : List CheckedFile) (i j : Nat) :
    (apply files (.swap i j)).Perm files := by
  rw [apply, Array.swapIfInBounds]
  split
  · split
    · exact (Array.swap_perm _ _).toList
    · exact .refl _
  · exact .refl _

end FilesChange

namespace MultiFileCall

/-- The files as the rule left them. -/
def left (c : MultiFileCall) : List CheckedFile := FilesChange.applyAll c.files c.changes

/-- Whether the rule put no file in the place of another and moved none. -/
def OnlyEdits (c : MultiFileCall) : Prop := ∀ change ∈ c.changes, change.isEdit

end MultiFileCall

/-- Whether each call finds its rule at work on the files that the call before left, of which the
first are given, and the last call leaves the last ones. -/
inductive HandedOn : List CheckedFile → List MultiFileCall → List CheckedFile → Prop where
  | nil (files : List CheckedFile) : HandedOn files [] files
  | cons {files last : List CheckedFile} {call : MultiFileCall} {calls : List MultiFileCall}
      (h : call.files = files.map (·.setActiveRule (some call.callee.id)))
      (tail : HandedOn (call.left.map (·.setActiveRule none)) calls last) :
      HandedOn files (call :: calls) last

namespace HandedOn

variable {files last : List CheckedFile} {calls : List MultiFileCall}

theorem length_eq (h : HandedOn files calls last) : last.length = files.length := by
  induction h with
  | nil => rfl
  | cons hgiven _ ih =>
      rw [ih, List.length_map, MultiFileCall.left, FilesChange.length_applyAll, hgiven,
        List.length_map]

end HandedOn

end MultiFileRules

namespace Linter

theorem run_eq_report (l : Linter σ) (sources : List SourceFile) :
    l.run sources =
      (if sources.length > 1 then (l.processAll sources).processMultiFileRules
        else l.processAll sources).report := rfl

end Linter

end TemplateLint
