import TemplateLint.Extensions
import TemplateLint.IgnoreLevel

/-!
# Finding the files to check

Files that are named are checked in any case. In directories that are named, at any depth, the
files with an allowed extension are checked, unless they are hidden or ignored.

The walk is one through a `FileTree`. It says nothing about symbolic links and special files or
about names that are not UTF-8, none of which such a tree can have.
-/

namespace TemplateLint

structure Walk where
  tree : FileTree
  start : Text
  home : Text
  /-- The directories above it, the nearest first. They see entries by their absolute paths. -/
  above : List IgnoreLevel

namespace Walk

def ofPlace (tree : FileTree) (start : Text) (p : Place) : Walk where
  tree := tree
  start := start
  home := Path.absolute p.names
  above := p.ancestors.map fun (directory, names) =>
    IgnoreLevel.ofDirectory tree (Path.absolute names) directory

def absolute (w : Walk) (path : Text) : Text :=
  Path.join w.home (Path.below (Path.dropDot w.start) (Path.dropDot path))

/-- Whether an entry is left out. Hidden entries are, unless an ignore file brings them back. The
levels are those of the walk, the nearest first. -/
def leavesOut (w : Walk) (levels : List IgnoreLevel) (path name : Text) (isDirectory : Bool) :
    Bool :=
  let views := levels.map (fun l => (l, Path.dropDot path)) ++
    w.above.map fun l => (l, w.absolute path)
  match IgnoreLevel.verdict? views isDirectory with
  | some .ignored => true
  | some .wanted => false
  | none => name.head? = some '.'

mutual

def files (w : Walk) (levels : List IgnoreLevel) (path : Text) : Node → List Text
  | .file _ => [path]
  | .directory entries =>
      filesOfEntries w (IgnoreLevel.ofDirectory w.tree path (.directory entries) :: levels) path
        entries

def filesOfEntries (w : Walk) (levels : List IgnoreLevel) (path : Text) :
    List (Text × Node) → List Text
  | [] => []
  | (name, node) :: rest =>
      (if w.leavesOut levels (Path.join path name) name !node.isFile then []
        else files w levels (Path.join path name) node) ++
        filesOfEntries w levels path rest

end

end Walk

namespace FileTree

/-- The files that one given path stands for. A directory named by a dash has none: the dash stands
for the standard input. -/
def filesAt (t : FileTree) (extensions : ExtensionSet) (path : Text) :
    Except LintError (List Text) :=
  match t.place path with
  | .error _ => .error (.io ("path not found: ".toList ++ path))
  | .ok p =>
      if p.node.isFile then .ok [path]
      else if Path.same path ['-'] then .ok []
      else .ok (((Walk.ofPlace t path p).files [] path p.node).filter extensions.allows)

def dropRepeated : List Text → List Text
  | a :: b :: rest =>
      if Path.same a b then dropRepeated (a :: rest) else a :: dropRepeated (b :: rest)
  | rest => rest
termination_by l => l.length

/-- The files that given paths stand for, in ascending order and without repetitions. The first
path that leads nowhere is an error. -/
def discover (t : FileTree) (extensions : ExtensionSet) (paths : List Text) :
    Except LintError (List Text) := do
  let files ← paths.mapM (t.filesAt extensions)
  return dropRepeated (files.flatten.mergeSort Path.notAfter)

end FileTree

end TemplateLint
