import TemplateLint.Rules.FirstLine

/-!
# Rules about indentation

Lines are indented with spaces.
-/

namespace TemplateLint.Rules

variable {σ : Type}

def disallowTabIndent : FileRule σ :=
  .ofTokens "Rules.Indent.DisallowTabIndentRule".toList [.tab]
    fun _ tokens position =>
      if (tokens[position]?).any fun t => t.content.contains '\t' then
        ([reportError "Spaces must be used to indent lines; tabs are not allowed"
            (.token position) "TabsUsed"], .done)
      else ([], .done)

end TemplateLint.Rules
