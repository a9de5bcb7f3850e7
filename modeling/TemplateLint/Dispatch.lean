import TemplateLint.Registry

/-!
# Dispatch

The tokens of a file are walked once. At each token the rules that listen for its type are called
in the order in which they were registered. A comment with the opt-out marker drops all diagnostics
and ends the walk, and so does the first call that fails, which keeps them. The walk is over the
tokens that the file has at the start, whatever rules do to it; what a rule is suppressed for is the
file that it would be given.
-/

namespace TemplateLint

variable {σ : Type}

structure Dispatched (σ : Type) where
  world : σ
  file : CheckedFile
  ending : Ending

namespace RegisteredRule

/-- Call a rule at a position. It is at work during the call, and still is after a crash. -/
def call (r : RegisteredRule σ) (position : Nat) (world : σ) (file : CheckedFile) :
    Dispatched σ :=
  let entered := file.setActiveRule (some r.id)
  let reaction := r.rule.process world entered position
  let left := FileChange.applyAll entered reaction.changes
  match reaction.ending with
  | .crashed reason => ⟨reaction.world, left, .crashed reason⟩
  | ending => ⟨reaction.world, left.setActiveRule none, ending⟩

end RegisteredRule

/-- Call rules at a position, one after another, until one fails. Rules whose identifier is
suppressed for the file are passed over. -/
def callAll (position : Nat) : List (RegisteredRule σ) → σ → CheckedFile → Dispatched σ
  | [], world, file => ⟨world, file, .done⟩
  | r :: rest, world, file =>
      if file.context.patterns.suppresses file.path r.id.text then callAll position rest world file
      else
        match r.call position world file with
        | ⟨world, file, .done⟩ => callAll position rest world file
        | failed => failed

def Token.optsOut (t : Token) : Bool := t.type.isTemplateComment && hasOptOutMarker t.content

namespace Registry

def walk (r : Registry σ) (position : Nat) : TokenStream → σ → CheckedFile → Dispatched σ
  | [], world, file => ⟨world, file, .done⟩
  | t :: rest, world, file =>
      if t.optsOut then ⟨world, file.clearDiagnostics, .done⟩
      else
        match callAll position (r.listening t.type) world file with
        | ⟨world, file, .done⟩ => r.walk (position + 1) rest world file
        | failed => failed

def dispatch (r : Registry σ) (world : σ) (file : CheckedFile) : Dispatched σ :=
  match file.requireTokens with
  | .error e => ⟨world, file, .failed e⟩
  | .ok tokens => r.walk 0 tokens world file

end Registry

structure RuleFailure where
  rule : Text
  message : Text
  deriving DecidableEq, Repr

structure MultiDispatched (σ : Type) where
  world : σ
  files : List CheckedFile
  failures : List RuleFailure

namespace RegisteredMultiFileRule

/-- Call a rule about all files. It is at work on every file during the call and on none after. -/
def call (r : RegisteredMultiFileRule σ) (d : MultiDispatched σ) : MultiDispatched σ :=
  let entered := d.files.map (·.setActiveRule (some r.id))
  let reaction := r.rule.process d.world entered
  let left := FilesChange.applyAll entered reaction.changes
  { world := reaction.world
    files := left.map (·.setActiveRule none)
    failures := d.failures ++ (reaction.ending.failure?.map (⟨r.id.text, ·⟩)).toList }

end RegisteredMultiFileRule

namespace Registry

/-- Call every rule about all files once. One that fails does not stop the others. -/
def dispatchMulti (r : Registry σ) (world : σ) (files : List CheckedFile) : MultiDispatched σ :=
  r.multiFileRules.foldl (fun d rule => rule.call d) ⟨world, files, []⟩

end Registry

end TemplateLint
