import TapeMips.CommandLine.Options
import TapeMips.Numeral.Integer

/-!
# Launching the service

The launcher reads where to listen, how long a source may be and how much to
log, and starts the service with it. Only the length is checked beyond its
form: a service that accepts no source at all is refused. Where to listen is
handed on even if it has been cleared; without a length or a level there is
nothing to start.
-/

namespace TapeMips.CommandLine

/-- How much is logged. -/
inductive LogLevel where
  | critical
  | error
  | warning
  | info
  | debug
  deriving DecidableEq, Repr

namespace LogLevel

def name : LogLevel → String
  | .critical => "critical"
  | .error => "error"
  | .warning => "warning"
  | .info => "info"
  | .debug => "debug"

/-- The name as it stands in a log. -/
def label (l : LogLevel) : String := l.name.toUpper

/-- All levels, the most urgent first. -/
def all : List LogLevel := [.critical, .error, .warning, .info, .debug]

def ofName? (name : String) : Option LogLevel := all.find? (·.name == name)

end LogLevel

/-- The largest number of characters in a source, unless the launcher is told
otherwise. -/
def defaultMaxSourceLength : Nat := 1024 * 1024

/-- What the command line says; an option that has been cleared has no value. -/
structure LaunchOptions where
  host : Option String := some "127.0.0.1"
  port : Option Int := some 8000
  maxSourceLength : Option Int := some defaultMaxSourceLength
  logLevel : Option LogLevel := some .info
  deriving DecidableEq, Repr

/-- What the service is started with. -/
structure ServiceSettings where
  host : Option String
  port : Option Int
  maxSourceLength : Int
  logLevel : LogLevel
  deriving DecidableEq, Repr

/-- How a line of the log is laid out. -/
def logFormat : String := "%(asctime)s %(levelname)s %(name)s: %(message)s"

/-- An option whose value is an integer. -/
def integerOption (name : String) (set : Option Int → LaunchOptions → LaunchOptions) :
    ValueOption LaunchOptions where
  name := name
  store := fun text options =>
    match Numeral.integer? text with
    | some n => .ok (set (some n) options)
    | none => .error ("invalid int value: " ++ Text.quoted text)
  clear := set none

def launchGrammar : Grammar LaunchOptions where
  options := [
    { name := "--host"
      store := fun text options => .ok { options with host := some text }
      clear := fun options => { options with host := none } },
    integerOption "--port" fun n options => { options with port := n },
    integerOption "--max-source-length" fun n options =>
      { options with maxSourceLength := n },
    { name := "--log-level"
      store := fun text options =>
        match LogLevel.ofName? text with
        | some level => .ok { options with logLevel := some level }
        | none =>
          let choices :=
            ", ".intercalate (LogLevel.all.map fun l => Text.quoted l.name)
          .error ("invalid choice: " ++ Text.quoted text ++
            " (choose from " ++ choices ++ ")")
      clear := fun options => { options with logLevel := none } }]

/-- A setting without which the service cannot be started. -/
inductive ClearedSetting where
  | maxSourceLength
  | logLevel
  deriving DecidableEq, Repr

def ClearedSetting.message : ClearedSetting → String
  | .maxSourceLength => "'<' not supported between instances of 'list' and 'int'"
  | .logLevel => "'list' object has no attribute 'upper'"

/-- What comes of launching. -/
inductive Launch where
  | help
  | usage (error : UsageError)
  /-- The service would accept no source. -/
  | lengthTooSmall
  | serve (settings : ServiceSettings)
  deriving DecidableEq, Repr

/-- What the service is started with, unless a setting that it needs has been
cleared. -/
def LaunchOptions.launch (options : LaunchOptions) : Except ClearedSetting Launch :=
  match options.maxSourceLength, options.logLevel with
  | none, _ => .error .maxSourceLength
  | some length, level? =>
    if length < 1 then .ok .lengthTooSmall
    else
      match level? with
      | none => .error .logLevel
      | some level => .ok (.serve ⟨options.host, options.port, length, level⟩)

namespace Launch

/-- The launcher ended while the command line was being read. -/
def isEarly : Launch → Bool
  | .help | .usage _ => true
  | _ => false

def exitCode : Launch → Nat
  | .help | .serve _ => 0
  | .usage _ => 2
  | .lengthTooSmall => 1

def levelChoice : String :=
  "\x7b" ++ ",".intercalate (LogLevel.all.map (·.name)) ++ "\x7d"

def usageText : String :=
  "usage: bfmips-server [-h] [--host HOST] [--port PORT]\n" ++
    "                     [--max-source-length MAX_SOURCE_LENGTH]\n" ++
    "                     [--log-level " ++ levelChoice ++ "]\n"

def helpText : String :=
  usageText ++ "\n" ++
    "Serve the Brainfuck to MIPS compiler over HTTP\n" ++ "\n" ++
    "options:\n" ++
    "  -h, --help            show this help message and exit\n" ++
    "  --host HOST           Bind address (default: 127.0.0.1)\n" ++
    "  --port PORT           Port to listen on (default: 8000)\n" ++
    "  --max-source-length MAX_SOURCE_LENGTH\n" ++
    "                        Reject sources longer than this many characters\n" ++
    s!"                        (default: {defaultMaxSourceLength})\n" ++
    "  --log-level " ++ levelChoice ++ "\n" ++
    "                        Log level for the compiler and the server (default:\n" ++
    "                        info)\n"

/-- What is printed for the user. -/
def output : Launch → String
  | .help => helpText
  | _ => ""

/-- What is printed as an error. -/
def errors : Launch → String
  | .usage e => usageText ++ "bfmips-server: error: " ++ e.message ++ "\n"
  | .lengthTooSmall => "--max-source-length must be at least 1\n"
  | _ => ""

/-- What a command line of the launcher comes to. -/
def ofArguments (arguments : List String) : Except ClearedSetting Launch :=
  match launchGrammar.read {} arguments with
  | .error e => .ok (.usage e)
  | .ok .help => .ok .help
  | .ok (.run options) => options.launch

end Launch

end TapeMips.CommandLine
