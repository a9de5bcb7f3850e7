import TemplateLint.Linter
import TemplateLint.Rules.Commenting
import TemplateLint.Rules.Files
import TemplateLint.Rules.Indent
import TemplateLint.Rules.Whitespace

/-!
# The rules that come with the linter

All of them are about single files and none has a memory.
-/

namespace TemplateLint

def builtinRules {σ : Type} : List (RuleInstance σ) :=
  [.file Rules.fileNoComment, .file Rules.fixme, .file Rules.noHtmlComment, .file Rules.todo,
    .file Rules.endFileNewline, .file Rules.lineEndings, .file Rules.disallowTabIndent,
    .file Rules.superfluousWhitespace, .file Rules.tagsWhitespace]

def Linter.withBuiltinRules (config : Config) (compiles : Text → Bool := fun _ => true) :
    Except LintError (Linter Unit) :=
  Linter.ofRules config builtinRules () compiles

end TemplateLint
