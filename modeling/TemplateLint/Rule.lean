import TemplateLint.CheckedFile
import TemplateLint.Text.Quoted

/-!
# Rules

A rule is given a file, or all files of a run, to do with as it likes: it may work on a file, put
another one in its place, and move files about. What it does is its answer, a list of changes.
Rules may remember things between calls: they share one state, of any type `σ`, which a call is
given and hands back. A call can also fail, with an error or by a crash.
-/

namespace TemplateLint

/-- What can be done to a file that one has hold of. Every file that a rule can put in its place is
a new one that was worked on. -/
inductive FileChange where
  | edit (op : FileOp)
  | replace (path : Text) (context : Context)
  deriving DecidableEq, Repr

namespace FileChange

def apply (f : CheckedFile) : FileChange → CheckedFile
  | edit op => op.apply f
  | replace path context => .new path context

def applyAll (f : CheckedFile) (changes : List FileChange) : CheckedFile := changes.foldl apply f

@[simp]
theorem applyAll_map_edit (f : CheckedFile) (ops : List FileOp) :
    applyAll f (ops.map edit) = FileOp.applyAll f ops := by
  rw [applyAll, List.foldl_map]
  rfl

end FileChange

/-- What can be done to a row of files without making it longer or shorter. Nothing is done at
places that are not there. -/
inductive FilesChange where
  | slot (index : Nat) (change : FileChange)
  | swap (i j : Nat)
  deriving DecidableEq, Repr

namespace FilesChange

def apply (files : List CheckedFile) : FilesChange → List CheckedFile
  | slot index change => files.modify index (change.apply ·)
  | swap i j => (files.toArray.swapIfInBounds i j).toList

def applyAll (files : List CheckedFile) (changes : List FilesChange) : List CheckedFile :=
  changes.foldl apply files

theorem applyAll_cons (files : List CheckedFile) (change : FilesChange)
    (changes : List FilesChange) :
    applyAll files (change :: changes) = applyAll (apply files change) changes := rfl

end FilesChange

inductive Ending where
  | done
  | failed (error : LintError)
  | crashed (reason : Option Text)
  deriving DecidableEq, Repr

namespace Ending

def failure? : Ending → Option Text
  | done => none
  | failed error => some error.message
  | crashed reason => some (reason.getD "rule panicked".toList)

end Ending

/-- What a call of a rule comes to: changes of type `γ` that are made in order, the state
afterwards, and how the call ends. -/
structure Reaction (σ γ : Type) where
  world : σ
  changes : List γ
  ending : Ending

structure FileRule (σ : Type) where
  name : Text
  listens : List TokenType
  process : σ → CheckedFile → Nat → Reaction σ FileChange

structure MultiFileRule (σ : Type) where
  name : Text
  process : σ → List CheckedFile → Reaction σ FilesChange

inductive RuleInstance (σ : Type) where
  | file (rule : FileRule σ)
  | multiFile (rule : MultiFileRule σ)

namespace RuleInstance

variable {σ : Type}

def name : RuleInstance σ → Text
  | file rule => rule.name
  | multiFile rule => rule.name

def describe : RuleInstance σ → Text
  | file rule => "File(".toList ++ quoted rule.name ++ ")".toList
  | multiFile rule => "MultiFile(".toList ++ quoted rule.name ++ ")".toList

end RuleInstance

namespace FileRule

variable {σ : Type}

def ofTokens (name : Text) (listens : List TokenType)
    (check : CheckedFile → TokenStream → Nat → List FileOp × Ending) : FileRule σ where
  name := name
  listens := listens
  process world file position :=
    match file.requireTokens with
    | .error e => { world, changes := [], ending := .failed e }
    | .ok tokens =>
        let (ops, ending) := check file tokens position
        { world, changes := ops.map .edit, ending }

end FileRule

end TemplateLint
