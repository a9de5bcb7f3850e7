import TemplateLint.Path
import TemplateLint.Text.Utf8

/-!
# File trees

A tree of directories and files, and the working directory in it. Paths are looked up as an
operating system does: every name but the last must lead to a directory.

There is nothing but directories and files in a tree, and names are texts. Symbolic links, pipes,
sockets and devices cannot be represented, nor can names that are not UTF-8.
-/

namespace TemplateLint

inductive Node where
  | file (bytes : Bytes)
  | directory (entries : List (Text × Node))

namespace Node

def entries? : Node → Option (List (Text × Node))
  | file _ => none
  | directory entries => some entries

def bytes? : Node → Option Bytes
  | file bytes => some bytes
  | directory _ => none

def isFile : Node → Bool
  | file _ => true
  | directory _ => false

def at? : List Text → Node → Option Node
  | [], node => some node
  | name :: names, directory entries => (entries.lookup name).bind (at? names)
  | _ :: _, file _ => none

mutual

def filesNamed (name : Text) : Node → List Bytes
  | file _ => []
  | directory entries => filesNamedAmong name entries

def filesNamedAmong (name : Text) : List (Text × Node) → List Bytes
  | [] => []
  | (n, node) :: rest =>
      (if n = name then node.bytes?.toList else []) ++ filesNamed name node ++
        filesNamedAmong name rest

end

def insert (node : Node) : List Text → Node → Node
  | [], _ => node
  | name :: names, parent =>
      let entries := (entries? parent).getD []
      let child := insert node names ((entries.lookup name).getD (directory []))
      if (entries.lookup name).isSome then
        directory (entries.map fun (n, c) => if n = name then (n, child) else (n, c))
      else directory (entries ++ [(name, child)])

end Node

inductive LookupError where
  | missing
  | notDirectory
  | isDirectory
  deriving DecidableEq, Repr

def LookupError.message : LookupError → Text
  | missing => "No such file or directory (os error 2)".toList
  | notDirectory => "Not a directory (os error 20)".toList
  | isDirectory => "Is a directory (os error 21)".toList

structure FileTree where
  top : Node
  workingDirectory : List Text

/-- A node with the names that lead to it from the top, and the directories on the way, the nearest
first, with the names that lead to them. -/
structure Place where
  node : Node
  names : List Text
  ancestors : List (Node × List Text)

namespace Place

def enter (p : Place) (name : Text) : Except LookupError Place :=
  match p.node with
  | .file _ => .error .notDirectory
  | .directory entries =>
      match entries.lookup name with
      | none => .error .missing
      | some node =>
          .ok { node, names := p.names ++ [name], ancestors := (p.node, p.names) :: p.ancestors }

def leave (p : Place) : Place :=
  match p.ancestors with
  | [] => p
  | (node, names) :: ancestors => { node, names, ancestors }

def follow (p : Place) (piece : Text) : Except LookupError Place :=
  match p.node with
  | .file _ => .error .notDirectory
  | .directory _ =>
      if !Path.isPart piece then .ok p
      else if piece = Path.dots then .ok p.leave
      else p.enter piece

end Place

namespace FileTree

def topPlace (t : FileTree) : Place := { node := t.top, names := [], ancestors := [] }

/-- The place that a path leads to. The empty path leads nowhere. -/
def place (t : FileTree) (path : Text) : Except LookupError Place :=
  if path = [] then .error .missing
  else do
    let start ←
      if path.head? = some '/' then pure t.topPlace
      else t.workingDirectory.foldlM Place.enter t.topPlace
    (Path.pieces path).foldlM Place.follow start

def isFile (t : FileTree) (path : Text) : Bool :=
  match t.place path with
  | .ok p => p.node.isFile
  | .error _ => false

def read (t : FileTree) (path : Text) : Except LookupError Bytes := do
  let p ← t.place path
  match p.node with
  | .file bytes => return bytes
  | .directory _ => throw .isDirectory

/-- The names from the top to where a path leads, whether or not there is anything. -/
def absoluteNames (t : FileTree) (path : Text) : List Text :=
  let start := if path.head? = some '/' then [] else t.workingDirectory
  ((Path.pieces path).filter Path.isPart).foldl
    (fun names piece => if piece = Path.dots then names.dropLast else names ++ [piece]) start

def workingPath (t : FileTree) : Text := Path.absolute t.workingDirectory

end FileTree

end TemplateLint
