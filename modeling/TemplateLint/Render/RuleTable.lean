import TemplateLint.Registry
import TemplateLint.Render.Listing

/-!
# The table of rules

One line per registered rule, with the token types that it listens for.
-/

namespace TemplateLint.Registry

variable {σ : Type}

def rows (r : Registry σ) : List (Text × Text) :=
  (r.fileRules.map fun rule =>
      (rule.id.text, joinWith ", ".toList (rule.tokenTypes.map TokenType.name))) ++
    r.multiFileRules.map fun rule => (rule.id.text, "(multi-file)".toList)

/-- The table of the rules. Identifiers are padded before they are coloured. -/
def renderTable (r : Registry σ) (useColor : Bool) : Text :=
  r.rows.flatMap fun (id, detail) =>
    lineOfText (Style.bold.paint useColor (padRight 36 id) ++ ' ' :: detail)

end TemplateLint.Registry
