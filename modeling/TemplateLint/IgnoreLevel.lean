import TemplateLint.FileTree
import TemplateLint.IgnoreFile

/-!
# The ignore files of directories

Every directory from the top down to an entry can have ignore files of three kinds. The nearest
file that says something decides among those of one kind. Files know entries by the text of their
paths: a path counts from a directory on only where it starts with the text of the path of that
directory.
-/

namespace TemplateLint

def linkedRepository? (link : Bytes) : Option Text :=
  (Utf8.firstLine? link).bind (dropLeading? "gitdir: ".toList)

def sharedLinkOf (repository : Text) : Text := Path.join repository "commondir".toList

/-- The path of the shared directory of the repository that a file in place of `.git` leads to.
Paths count from the working directory, but a shared path that starts with a dot counts from the
directory that names it. -/
def sharedRepository? (t : FileTree) (link : Bytes) : Option Text := do
  let repository ← linkedRepository? link
  let bytes ← (t.read (sharedLinkOf repository)).toOption
  let shared ← Utf8.firstLine? bytes
  return if shared.head? = some '.' then Path.join repository shared else shared

def exclusionsOf (repository : Text) : Text := Path.join repository "info/exclude".toList

structure IgnoreLevel where
  root : Text
  own : IgnoreFile
  git : IgnoreFile
  exclude : IgnoreFile

namespace IgnoreLevel

def fileAt (names : List String) (directory : Node) : IgnoreFile :=
  match directory.at? (names.map String.toList) with
  | some (.file bytes) => IgnoreFile.ofBytes bytes
  | _ => []

def exclusions (t : FileTree) (directory : Node) : IgnoreFile :=
  match directory.at? [".git".toList] with
  | some (.file link) =>
      match (sharedRepository? t link).map fun shared => t.read (exclusionsOf shared) with
      | some (.ok bytes) => IgnoreFile.ofBytes bytes
      | _ => []
  | _ => fileAt [".git", "info", "exclude"] directory

def ofDirectory (t : FileTree) (path : Text) (directory : Node) : IgnoreLevel where
  root := Path.dropDot path
  own := fileAt [".ignore"] directory
  git := fileAt [".gitignore"] directory
  exclude := exclusions t directory

/-- How the files of a level know the entry at a path. A path without a slash stays as it is. -/
def known (l : IgnoreLevel) (path : Text) : Text :=
  let path := Path.dropDot path
  if path.contains '/' then Path.below l.root path else path

/-- What levels, the nearest first and each with the path of an entry as it sees it, say about the
entry. What the files of one kind say goes before all that files of the next kind say. -/
def verdict? (views : List (IgnoreLevel × Text)) (isDirectory : Bool) : Option Verdict :=
  let ask (file : IgnoreLevel → IgnoreFile) : Option Verdict :=
    views.findSome? fun (l, path) => (file l).verdict? (l.known path) isDirectory
  ask own <|> ask git <|> ask exclude

end IgnoreLevel

def FileTree.linkedFiles (t : FileTree) : List Text :=
  (t.top.filesNamed ".git".toList).flatMap fun link =>
    ((linkedRepository? link).map sharedLinkOf).toList ++
      ((sharedRepository? t link).map exclusionsOf).toList

end TemplateLint
