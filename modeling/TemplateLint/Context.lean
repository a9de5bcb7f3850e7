import TemplateLint.Config

/-!
# Run context

A configuration that was found valid, with what is derived from it once for a whole run.
-/

namespace TemplateLint

structure Context where
  config : Config
  markup : Markup
  patterns : IgnorePatterns
  deriving DecidableEq, Repr

namespace Context

/-- The context of a configuration. Delimiters are looked at before patterns. -/
def ofConfig (config : Config) (compiles : Text → Bool := fun _ => true) :
    Except LintError Context := do
  let markup ← config.markup
  let patterns ← IgnorePatterns.ofScopes config.ignorePatterns compiles
  return { config, markup, patterns }

def isRuleIgnored (c : Context) (source : Text) : Bool :=
  c.config.ignoreRules.any fun scope => scopeCovers scope source

def isSuppressed (c : Context) (path source : Text) : Bool :=
  c.isRuleIgnored source || c.patterns.suppresses path source

end Context

end TemplateLint
