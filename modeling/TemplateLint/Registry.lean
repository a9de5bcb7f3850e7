import TemplateLint.Rule

/-!
# Registry

The rules of a run with their identifiers, and an index from token types to the rules that listen
for them. Rules that the configuration ignores are left out.
-/

namespace TemplateLint

structure RegisteredRule (σ : Type) where
  id : RuleId
  tokenTypes : List TokenType
  rule : FileRule σ

structure RegisteredMultiFileRule (σ : Type) where
  id : RuleId
  rule : MultiFileRule σ

structure Registry (σ : Type) where
  fileRules : List (RegisteredRule σ)
  multiFileRules : List (RegisteredMultiFileRule σ)
  /-- For each token type, the indices in `fileRules` of the rules that listen for it. -/
  listeners : TokenType → List Nat

namespace Registry

variable {σ : Type}

def empty : Registry σ where
  fileRules := []
  multiFileRules := []
  listeners := fun _ => []

def distinct (types : List TokenType) : List TokenType :=
  types.foldl (fun seen t => if seen.contains t then seen else seen ++ [t]) []

def addFileRule (r : Registry σ) (id : RuleId) (rule : FileRule σ) :
    Except LintError (Registry σ) :=
  let tokenTypes := distinct rule.listens
  if tokenTypes = [] then .error (.emptyRegistration id.text)
  else
    let index := r.fileRules.length
    .ok { r with
      fileRules := r.fileRules ++ [{ id, tokenTypes, rule }]
      listeners := fun t =>
        if tokenTypes.contains t then r.listeners t ++ [index] else r.listeners t }

/-- Add a rule, unless it is ignored. Its name must be valid in any case. -/
def add (context : Context) (r : Registry σ) (given : RuleInstance σ) :
    Except LintError (Registry σ) := do
  let id ← RuleId.ofQualifiedName given.name
  if context.isRuleIgnored id.text then return r
  match given with
  | .file rule => r.addFileRule id rule
  | .multiFile rule => return { r with multiFileRules := r.multiFileRules ++ [{ id, rule }] }

def ofRules (rules : List (RuleInstance σ)) (context : Context) : Except LintError (Registry σ) :=
  rules.foldlM (add context) empty

def hasMultiFileRules (r : Registry σ) : Bool := !r.multiFileRules.isEmpty

def ruleIds (r : Registry σ) : List RuleId :=
  r.fileRules.map RegisteredRule.id ++ r.multiFileRules.map RegisteredMultiFileRule.id

def listening (r : Registry σ) (t : TokenType) : List (RegisteredRule σ) :=
  (r.listeners t).filterMap (r.fileRules[·]?)

def describe (r : Registry σ) : Text :=
  let shown := r.ruleIds.map fun id => "RuleId(".toList ++ quoted id.text ++ ")".toList
  "RuleRegistry \x7b rules: [".toList ++ joinWith ", ".toList shown ++ "], .. \x7d".toList

end Registry

end TemplateLint
