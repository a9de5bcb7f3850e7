import TemplateLint.Text.Basic

/-!
# Errors

What can go wrong before or while files are checked, with the text, the code and the advice that
are shown for each cause.
-/

namespace TemplateLint

inductive Side where
  | left
  | right
  deriving DecidableEq, Repr

def Side.text : Side → Text
  | left => "left".toList
  | right => "right".toList

inductive LintError where
  | io (message : Text)
  | configParse (detail : Text)
  | invalidDelimiter (side : Side)
  | invalidRuleName (name : Text)
  | emptyRegistration (id : Text)
  | invalidIgnorePattern (pattern reason : Text)
  | tokensReleased (path : Text)
  | ruleFailure (rule message : Text)
  deriving DecidableEq, Repr

namespace LintError

def message : LintError → Text
  | io message => message
  | configParse detail => "failed to parse config file: ".toList ++ detail
  | invalidDelimiter side =>
      "invalid ".toList ++ side.text ++ " delimiter: delimiters must not be empty".toList
  | invalidRuleName name => "invalid rule name `".toList ++ name ++ "`".toList
  | emptyRegistration id =>
      "rule `".toList ++ id ++ "` does not listen for any token type".toList
  | invalidIgnorePattern pattern reason =>
      "invalid ignore pattern `".toList ++ pattern ++ "`: ".toList ++ reason
  | tokensReleased path =>
      "the token stream for `".toList ++ path ++ "` has already been released".toList
  | ruleFailure rule message => "rule `".toList ++ rule ++ "` failed: ".toList ++ message

def code : LintError → Text
  | io _ => "smartylint::io_error".toList
  | configParse _ => "smartylint::config_parse".toList
  | invalidDelimiter _ => "smartylint::invalid_delimiter".toList
  | invalidRuleName _ => "smartylint::invalid_rule_name".toList
  | emptyRegistration _ => "smartylint::empty_registration".toList
  | invalidIgnorePattern _ _ => "smartylint::invalid_ignore_pattern".toList
  | tokensReleased _ => "smartylint::tokens_released".toList
  | ruleFailure _ _ => "smartylint::rule_failure".toList

def help? : LintError → Option Text
  | io _ => none
  | configParse _ => some "check that smartylint.toml is valid TOML".toList
  | invalidDelimiter _ =>
      some ("set `left_delimiter` and `right_delimiter` to the values configured in " ++
        "Smarty").toList
  | invalidRuleName _ => some "rule names must look like `Rules.<Category>.<Name>Rule`".toList
  | emptyRegistration _ => some "`Rule::register` must return at least one token type".toList
  | invalidIgnorePattern _ _ => none
  | tokensReleased _ =>
      some ("token streams are only retained after dispatch when multi-file rules are " ++
        "registered").toList
  | ruleFailure _ _ => none

end LintError

end TemplateLint
