import TapeMips.Numeral.Integer
import TapeMips.Text.Quoted

/-!
# Options of a command line

A command line is described by a grammar: options that take a value, at most one
argument without a name, and the two spellings of the request for help, which
every grammar has. What an option does is to change a record of settings, or to
refuse its value.

Arguments are sorted first and carried out second. Sorting decides which of them
are options, and fails only where the beginning of an option's name could mean
several. Carrying out goes from left to right, so the first refusal or the first
request for help wins. Arguments that nobody asked for are collected and
reported last, after the missing argument.

An argument that begins with a dash is an option, unless it is a dash alone,
looks like a negative number or holds a space; two dashes end the options. The
beginning of a long option's name stands for it where only one begins so. Two
dashes behind the equals sign of an option are no value: they clear it.
-/

namespace TapeMips.CommandLine

/-- An option that takes a value, such as `--port`. -/
structure ValueOption (Settings : Type) where
  /-- The name with its two dashes. -/
  name : String
  /-- Stores a value, or says why it is refused. -/
  store : String → Settings → Except String Settings
  /-- Leaves the option without a value. -/
  clear : Settings → Settings

/-- The argument that is given without a name. -/
structure Argument (Settings : Type) where
  name : String
  store : String → Settings → Settings

/-- What a command line may hold. -/
structure Grammar (Settings : Type) where
  options : List (ValueOption Settings) := []
  argument : Option (Argument Settings) := none

/-- What is wrong with a command line. -/
inductive UsageError where
  | ambiguous (option : String) (candidates : List String)
  | missingValue (option : String)
  | refusedValue (option : String) (reason : String)
  /-- A value was given to the request for help. -/
  | helpWithValue (value : String)
  | missingArgument (name : String)
  | unrecognized (arguments : List String)
  deriving DecidableEq, Repr

def UsageError.message : UsageError → String
  | .ambiguous option candidates =>
    "ambiguous option: " ++ option ++ " could match " ++ ", ".intercalate candidates
  | .missingValue option => "argument " ++ option ++ ": expected one argument"
  | .refusedValue option reason => "argument " ++ option ++ ": " ++ reason
  | .helpWithValue value =>
    "argument -h/--help: ignored explicit argument " ++ Text.quoted value
  | .missingArgument name => "the following arguments are required: " ++ name
  | .unrecognized arguments => "unrecognized arguments: " ++ " ".intercalate arguments

/-- What an option is for. -/
inductive Purpose (Settings : Type) where
  | help
  | value (option : ValueOption Settings)

/-- An argument after sorting. -/
inductive Sorted (Settings : Type) where
  | word (text : String)
  /-- The two dashes that end the options. -/
  | endOfOptions
  /-- A long option, possibly with a value behind an equals sign. -/
  | long (purpose : Purpose Settings) (value : Option String)
  /-- The short request for help, with the text behind it. -/
  | shortHelp (tail : Option String)
  | unknown (text : String)

/-- The text begins with another. -/
def beginsWith (text start : String) : Bool := start.toList.isPrefixOf text.toList

/-- The long options, help first. -/
def Grammar.longOptions {Settings : Type} (g : Grammar Settings) :
    List (String × Purpose Settings) :=
  ("--help", .help) :: g.options.map fun o => (o.name, .value o)

/-- Looks like a negative number: a dash, digits, and at most one point with
digits behind it. A line feed at the end does no harm. -/
def looksNegative (text : String) : Bool :=
  let cs := text.toList
  let cs := if cs.getLast? = some '\n' then cs.dropLast else cs
  match cs with
  | '-' :: number =>
    match number.dropWhile Numeral.isDigit with
    | [] => !number.isEmpty
    | '.' :: decimals => !decimals.isEmpty && decimals.all Numeral.isDigit
    | _ => false
  | _ => false

/-- A text cut at its first equals sign. -/
def cutAtEquals (text : String) : String × Option String :=
  let cs := text.toList
  match cs.dropWhile (· ≠ '=') with
  | [] => (text, none)
  | _ :: value => (String.ofList (cs.takeWhile (· ≠ '=')), some (String.ofList value))

/-- Sorts an argument before the end of the options. -/
def Grammar.sort {Settings : Type} (g : Grammar Settings) (text : String) :
    Except UsageError (Sorted Settings) :=
  let (name, value) := cutAtEquals text
  if !beginsWith text "-" || text = "-" then .ok (.word text)
  else
    match g.longOptions.lookup text, g.longOptions.lookup name with
    | some purpose, _ => .ok (.long purpose none)
    | none, some purpose => .ok (.long purpose value)
    | none, none =>
      if text = "-h" then .ok (.shortHelp none)
      else if name = "-h" then .ok (.shortHelp value)
      else if beginsWith text "--" then
        match g.longOptions.filter fun o => beginsWith o.1 name with
        | [(_, purpose)] => .ok (.long purpose value)
        | [] => .ok (if text.toList.contains ' ' then .word text else .unknown text)
        | candidates => .error (.ambiguous text (candidates.map (·.1)))
      else if beginsWith text "-h" then
        .ok (.shortHelp (some (String.ofList (text.toList.drop 2))))
      else if looksNegative text || text.toList.contains ' ' then .ok (.word text)
      else .ok (.unknown text)

/-- Sorts all arguments. -/
def Grammar.sortAll {Settings : Type} (g : Grammar Settings) :
    List String → Except UsageError (List (Sorted Settings))
  | [] => .ok []
  | "--" :: rest => .ok (.endOfOptions :: rest.map .word)
  | text :: rest => do
    let first ← g.sort text
    return first :: (← g.sortAll rest)

/-- What a command line asks for. -/
inductive Request (Settings : Type) where
  | help
  | run (settings : Settings)

/-- What has been carried out so far. -/
structure Progress (Settings : Type) where
  settings : Settings
  /-- The argument without a name that is still missing. -/
  wanted : Option (Argument Settings)
  /-- Arguments that nobody asked for, last first. -/
  extras : List String := []

/-- The end of a command line. -/
def Progress.finish {Settings : Type} (p : Progress Settings) :
    Except UsageError (Request Settings) :=
  match p.wanted, p.extras with
  | some a, _ => .error (.missingArgument a.name)
  | none, [] => .ok (.run p.settings)
  | none, extras => .error (.unrecognized extras.reverse)

/-- What follows a short request for help in the same argument: more requests for
help, or a value, which is refused. -/
def helpTail : List Char → Except UsageError Unit
  | ['h'] => .ok ()
  | 'h' :: rest => helpTail rest
  | value => .error (.helpWithValue (String.ofList value))

/-- Carries out sorted arguments. -/
def Progress.carryOut {Settings : Type} (p : Progress Settings) :
    List (Sorted Settings) → Except UsageError (Request Settings)
  | [] => p.finish
  | .unknown text :: rest => carryOut { p with extras := text :: p.extras } rest
  | .shortHelp none :: _ => .ok .help
  | .shortHelp (some tail) :: _ => (helpTail tail.toList).map fun _ => .help
  | .long .help none :: _ => .ok .help
  | .long .help (some value) :: _ => .error (.helpWithValue value)
  | .long (.value o) (some value) :: rest =>
    if value = "--" then carryOut { p with settings := o.clear p.settings } rest
    else
      match o.store value p.settings with
      | .ok settings => carryOut { p with settings } rest
      | .error reason => .error (.refusedValue o.name reason)
  | .long (.value o) none :: .word value :: rest =>
    match o.store value p.settings with
    | .ok settings => carryOut { p with settings } rest
    | .error reason => .error (.refusedValue o.name reason)
  | .long (.value o) none :: _ => .error (.missingValue o.name)
  | .word text :: .endOfOptions :: rest =>
    match p.wanted with
    | some a =>
      carryOut { p with settings := a.store text p.settings, wanted := none } rest
    | none => carryOut { p with extras := "--" :: text :: p.extras } rest
  | .word text :: rest =>
    match p.wanted with
    | some a =>
      carryOut { p with settings := a.store text p.settings, wanted := none } rest
    | none => carryOut { p with extras := text :: p.extras } rest
  | .endOfOptions :: .word text :: rest =>
    match p.wanted with
    | some a =>
      carryOut { p with settings := a.store text p.settings, wanted := none } rest
    | none => carryOut { p with extras := text :: "--" :: p.extras } rest
  | .endOfOptions :: rest => carryOut { p with extras := "--" :: p.extras } rest

/-- Reads a command line, starting from the settings that hold where it says
nothing. -/
def Grammar.read {Settings : Type} (g : Grammar Settings) (defaults : Settings)
    (arguments : List String) : Except UsageError (Request Settings) := do
  let sorted ← g.sortAll arguments
  Progress.carryOut { settings := defaults, wanted := g.argument } sorted

end TapeMips.CommandLine
