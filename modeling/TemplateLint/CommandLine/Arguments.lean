import TemplateLint.Text.Basic

/-!
# Arguments

The arguments of the program: options that hold for every command, a command, and the options and
paths of that command. Arguments are read from left to right and the first that is wrong decides.
-/

namespace TemplateLint

inductive OptionName where
  | path
  | config
  | verbose
  | noColor
  | version
  | help
  | extensions
  | leftDelimiter
  | rightDelimiter
  | noAutoLiteral
  | ignoreRules
  | ignore
  | format
  deriving DecidableEq, Repr

inductive ArgumentLevel where
  | program
  | check
  | rules
  deriving DecidableEq, Repr

namespace OptionName

def all : List OptionName :=
  [path, config, verbose, noColor, version, help, extensions, leftDelimiter, rightDelimiter,
    noAutoLiteral, ignoreRules, ignore, format]

def long : OptionName → Text
  | path => "path".toList
  | config => "config".toList
  | verbose => "verbose".toList
  | noColor => "no-color".toList
  | version => "version".toList
  | help => "help".toList
  | extensions => "extensions".toList
  | leftDelimiter => "left-delimiter".toList
  | rightDelimiter => "right-delimiter".toList
  | noAutoLiteral => "no-auto-literal".toList
  | ignoreRules => "ignore-rules".toList
  | ignore => "ignore".toList
  | format => "format".toList

def short? : OptionName → Option Char
  | path => some 'p'
  | verbose => some 'v'
  | version => some 'V'
  | help => some 'h'
  | _ => none

def allowedAt (level : ArgumentLevel) : OptionName → Bool
  | path | config | verbose | noColor | help => true
  | version => level == .program
  | _ => level == .check

def takesValue : OptionName → Bool
  | verbose | noColor | version | help | noAutoLiteral => false
  | _ => true

def isRepeatable : OptionName → Bool
  | extensions | ignoreRules | ignore => true
  | _ => false

def acceptsValue : OptionName → Text → Bool
  | path, value => value != []
  | config, value => value != []
  | format, value => ["text".toList, "json".toList, "github".toList].contains value
  | _, _ => true

end OptionName

inductive UsageError where
  | unexpected (argument : Text)
  | missingValue (name : OptionName)
  | unexpectedValue (name : OptionName)
  | invalidValue (name : OptionName) (value : Text)
  | repeated (name : OptionName)
  | emptyPath
  deriving DecidableEq, Repr

def UsageError.message : UsageError → Text
  | unexpected argument => "unexpected argument `".toList ++ argument ++ "`".toList
  | missingValue name => "a value is required for `--".toList ++ name.long ++ "`".toList
  | unexpectedValue name => "no value is allowed for `--".toList ++ name.long ++ "`".toList
  | invalidValue name value =>
      "invalid value `".toList ++ value ++ "` for `--".toList ++ name.long ++ "`".toList
  | repeated name => "`--".toList ++ name.long ++ "` cannot be used multiple times".toList
  | emptyPath => "a path must not be empty".toList

structure Given where
  options : List (OptionName × Text) := []
  paths : List Text := []
  deriving DecidableEq, Repr

namespace Given

def has (g : Given) (name : OptionName) : Bool := g.options.any fun (n, _) => n == name

def values (g : Given) (name : OptionName) : List Text :=
  g.options.filterMap fun (n, value) => if n = name then some value else none

def value? (g : Given) (name : OptionName) : Option Text := (g.values name).head?

end Given

inductive EarlyEnd where
  | version
  | help
  | usage (error : UsageError)
  deriving DecidableEq, Repr

namespace Given

def takeValue (g : Given) (name : OptionName) (value : Text) : Except EarlyEnd Given :=
  if g.has name && !name.isRepeatable then .error (.usage (.repeated name))
  else if !name.acceptsValue value then .error (.usage (.invalidValue name value))
  else .ok { g with options := g.options ++ [(name, value)] }

/-- Take an option without a value. Two of them end the reading. -/
def takeFlag (g : Given) (name : OptionName) : Except EarlyEnd Given :=
  match name with
  | .version => .error .version
  | .help => .error .help
  | _ =>
      if g.has name then .error (.usage (.repeated name))
      else .ok { g with options := g.options ++ [(name, [])] }

/-- Take a long option, written without its dashes. The answer names the option that still needs a
value from the next argument. -/
def takeLong (g : Given) (level : ArgumentLevel) (s : Text) :
    Except EarlyEnd (Given × Option OptionName) :=
  let name := s.takeWhile (· != '=')
  let value? := if s.contains '=' then some ((s.dropWhile (· != '=')).tail) else none
  match OptionName.all.find? fun n => n.long == name && n.allowedAt level with
  | none => .error (.usage (.unexpected ('-' :: '-' :: s)))
  | some option =>
      match option.takesValue, value? with
      | true, some value => do return (← g.takeValue option value, none)
      | true, none => .ok (g, some option)
      | false, some _ => .error (.usage (.unexpectedValue option))
      | false, none => do return (← g.takeFlag option, none)

/-- Take short options, written without their dash. The rest of the letters after an option with a
value is its value, with or without an equals sign before it. -/
def takeShorts (g : Given) (level : ArgumentLevel) :
    Text → Except EarlyEnd (Given × Option OptionName)
  | [] => .ok (g, none)
  | c :: s =>
      match OptionName.all.find? fun n => n.short? == some c && n.allowedAt level with
      | none => .error (.usage (.unexpected ['-', c]))
      | some option =>
          if option.takesValue then
            match s with
            | [] => .ok (g, some option)
            | '=' :: value => do return (← g.takeValue option value, none)
            | value => do return (← g.takeValue option value, none)
          else
            match g.takeFlag option with
            | .error e => .error e
            | .ok g => takeShorts g level s

end Given

structure Arguments where
  outer : Given := {}
  command : Option (ArgumentLevel × Given) := none
  deriving DecidableEq, Repr

namespace Arguments

def level (a : Arguments) : ArgumentLevel :=
  match a.command with
  | none => .program
  | some (level, _) => level

def given (a : Arguments) : Given :=
  match a.command with
  | none => a.outer
  | some (_, g) => g

def withGiven (a : Arguments) (g : Given) : Arguments :=
  match a.command with
  | none => { a with outer := g }
  | some (level, _) => { a with command := some (level, g) }

def takePlain (a : Arguments) (optionsEnded : Bool) (s : Text) : Except EarlyEnd Arguments :=
  match a.level with
  | .program =>
      if optionsEnded then .error (.usage (.unexpected s))
      else if s = "check".toList then .ok { a with command := some (.check, {}) }
      else if s = "rules".toList then .ok { a with command := some (.rules, {}) }
      else if s = "help".toList then .error .help
      else .error (.usage (.unexpected s))
  | .check =>
      if s = [] then .error (.usage .emptyPath)
      else .ok (a.withGiven { a.given with paths := a.given.paths ++ [s] })
  | .rules => .error (.usage (.unexpected s))

/-- Whether an argument is an option and can be no value of one. -/
def isHyphenated (s : Text) : Bool := s.head? = some '-' && s != ['-']

/-- Read arguments; `pending` is the option that needs the next one as its value. -/
def read (a : Arguments) (pending : Option OptionName) (optionsEnded : Bool) :
    List Text → Except EarlyEnd Arguments
  | [] =>
      match pending with
      | some name => .error (.usage (.missingValue name))
      | none => .ok a
  | s :: rest =>
      match pending with
      | some name =>
          if isHyphenated s then .error (.usage (.missingValue name))
          else
            match a.given.takeValue name s with
            | .error e => .error e
            | .ok g => (a.withGiven g).read none false rest
      | none =>
          if optionsEnded || !isHyphenated s then
            match a.takePlain optionsEnded s with
            | .error e => .error e
            | .ok a => a.read none optionsEnded rest
          else
            match s with
            | ['-', '-'] => a.read none true rest
            | '-' :: '-' :: long =>
                match a.given.takeLong a.level long with
                | .error e => .error e
                | .ok (g, pending) => (a.withGiven g).read pending false rest
            | _ =>
                match a.given.takeShorts a.level s.tail with
                | .error e => .error e
                | .ok (g, pending) => (a.withGiven g).read pending false rest

def ofList (args : List Text) : Except EarlyEnd Arguments := ({} : Arguments).read none false args

/-- The value of an option that holds for every command. After the command it counts more than
before it. -/
def sharedValue? (a : Arguments) (name : OptionName) : Option Text :=
  (a.command.bind fun (_, g) => g.value? name) <|> a.outer.value? name

def hasShared (a : Arguments) (name : OptionName) : Bool :=
  a.outer.has name || a.command.any fun (_, g) => g.has name

end Arguments

end TemplateLint
