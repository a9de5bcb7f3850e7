import TemplateLint.Config.FromToml
import TemplateLint.FileTree

/-!
# Finding the configuration

The configuration of a project is the first of two files in its root directory.
-/

namespace TemplateLint.Config

/-- The names of configuration files; the first that exists counts. -/
def fileNames : List Text := ["smartylint.toml".toList, ".smartylint.toml".toList]

def resolvePath (t : FileTree) (root : Text) : Option Text :=
  (fileNames.map (Path.join root)).find? t.isFile

def ofBytes (bytes : Bytes) : Except LintError Config :=
  match Utf8.decode? bytes with
  | none => .error (.io "stream did not contain valid UTF-8".toList)
  | some source => ofToml source

def ofPath (t : FileTree) (path : Text) : Except LintError Config :=
  match t.read path with
  | .error e => .error (.io e.message)
  | .ok bytes => ofBytes bytes

def load (t : FileTree) (root : Text) : Except LintError (Option Config) :=
  match resolvePath t root with
  | none => .ok none
  | some path => (ofPath t path).map some

end TemplateLint.Config
