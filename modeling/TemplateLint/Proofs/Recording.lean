import TemplateLint.Linter

/-!
# Recorders

The calls of rules are seen by the rules themselves. A recorder does what its rule does, and writes
every call into a trace that is kept beside the state of the rules: which rule was called, what it
was given, what it changed, and how the call ended. Apart from the trace, recording changes nothing.
-/

namespace TemplateLint

variable {σ : Type}

/-- A rule by its place among the registered rules of its kind, and its identifier. -/
structure Callee where
  index : Nat
  id : RuleId
  deriving DecidableEq, Repr

/-- A call at a token, with the file as the rule was given it. -/
structure FileCall where
  callee : Callee
  position : Nat
  file : CheckedFile
  changes : List FileChange
  ending : Ending
  deriving DecidableEq, Repr

/-- A call about all files, with the files as the rule was given them. -/
structure MultiFileCall where
  callee : Callee
  files : List CheckedFile
  changes : List FilesChange
  ending : Ending
  deriving DecidableEq, Repr

inductive Call where
  | file (call : FileCall)
  | multiFile (call : MultiFileCall)
  deriving DecidableEq, Repr

namespace Call

def ending : Call → Ending
  | file c => c.ending
  | multiFile c => c.ending

def file? : Call → Option FileCall
  | file c => some c
  | multiFile _ => none

@[simp]
theorem filterMap_file? (calls : List FileCall) :
    (calls.map file).filterMap file? = calls := by
  rw [List.filterMap_map]
  exact List.filterMap_some

end Call

def Dispatched.recording (d : Dispatched σ) (trace : List Call) : Dispatched (σ × List Call) where
  world := (d.world, trace)
  file := d.file
  ending := d.ending

def MultiDispatched.recording (d : MultiDispatched σ) (trace : List Call) :
    MultiDispatched (σ × List Call) where
  world := (d.world, trace)
  files := d.files
  failures := d.failures

namespace RegisteredRule

/-- The rule with a recorder, which writes down that the rule at `index` was called. -/
def recorded (e : RegisteredRule σ) (index : Nat) : RegisteredRule (σ × List Call) where
  id := e.id
  tokenTypes := e.tokenTypes
  rule :=
    { name := e.rule.name
      listens := e.rule.listens
      process := fun world file position =>
        let reaction := e.rule.process world.1 file position
        { world :=
            (reaction.world, world.2 ++
              [.file ⟨⟨index, e.id⟩, position, file, reaction.changes, reaction.ending⟩])
          changes := reaction.changes
          ending := reaction.ending } }

/-- The call of a rule as it is written down. -/
def callMade (e : RegisteredRule σ) (index position : Nat) (world : σ) (file : CheckedFile) :
    FileCall where
  callee := ⟨index, e.id⟩
  position := position
  file := file.setActiveRule (some e.id)
  changes := (e.rule.process world (file.setActiveRule (some e.id)) position).changes
  ending := (e.call position world file).ending

theorem call_recorded (e : RegisteredRule σ) (index position : Nat) (world : σ)
    (trace : List Call) (file : CheckedFile) :
    (e.recorded index).call position (world, trace) file =
      (e.call position world file).recording
        (trace ++ [.file (e.callMade index position world file)]) := by
  have hending : (e.call position world file).ending =
      (e.rule.process world (file.setActiveRule (some e.id)) position).ending := by
    unfold call
    dsimp only
    cases (e.rule.process world (file.setActiveRule (some e.id)) position).ending <;> rfl
  rw [callMade, hending]
  unfold call recorded
  dsimp only
  cases (e.rule.process world (file.setActiveRule (some e.id)) position).ending <;> rfl

end RegisteredRule

namespace RegisteredMultiFileRule

def recorded (e : RegisteredMultiFileRule σ) (index : Nat) :
    RegisteredMultiFileRule (σ × List Call) where
  id := e.id
  rule :=
    { name := e.rule.name
      process := fun world files =>
        let reaction := e.rule.process world.1 files
        { world :=
            (reaction.world, world.2 ++
              [.multiFile ⟨⟨index, e.id⟩, files, reaction.changes, reaction.ending⟩])
          changes := reaction.changes
          ending := reaction.ending } }

def callMade (e : RegisteredMultiFileRule σ) (index : Nat) (d : MultiDispatched σ) :
    MultiFileCall where
  callee := ⟨index, e.id⟩
  files := d.files.map (·.setActiveRule (some e.id))
  changes := (e.rule.process d.world (d.files.map (·.setActiveRule (some e.id)))).changes
  ending := (e.rule.process d.world (d.files.map (·.setActiveRule (some e.id)))).ending

theorem call_recorded (e : RegisteredMultiFileRule σ) (index : Nat) (d : MultiDispatched σ)
    (trace : List Call) :
    (e.recorded index).call (d.recording trace) =
      (e.call d).recording (trace ++ [.multiFile (e.callMade index d)]) := rfl

end RegisteredMultiFileRule

/-- The registry with a recorder for every rule. -/
def Registry.recorded (r : Registry σ) : Registry (σ × List Call) where
  fileRules := r.fileRules.mapIdx fun index e => e.recorded index
  multiFileRules := r.multiFileRules.mapIdx fun index e => e.recorded index
  listeners := r.listeners

/-- The linter with a recorder for every rule, and a trace to go on with. -/
def Linter.recorded (l : Linter σ) (trace : List Call) : Linter (σ × List Call) where
  context := l.context
  registry := l.registry.recorded
  world := (l.world, trace)
  files := l.files
  failures := l.failures

end TemplateLint
