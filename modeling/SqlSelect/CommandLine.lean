/-
The command line: what is asked for, and what is answered.

Everything here is a function of the arguments, the environment and the
text that is read; only the reading and the writing are left to the
program around it.
-/
import SqlSelect.FileTree
import SqlSelect.Report
import SqlSelect.Session
import SqlSelect.Statement.Json
import SqlSelect.Statement.Outline

namespace SqlSelect.CommandLine

-- ========================================================= requests

/-- How a statement is written. -/
inductive Format where
  | pretty
  | compact
  | debug
  deriving DecidableEq

namespace Format

/-- The format with the given name. -/
def ofName? : String → Option Format
  | "pretty" => some .pretty
  | "compact" => some .compact
  | "debug" => some .debug
  | _ => none

/-- The format as reports name it. -/
def label : Format → String
  | .pretty => "Pretty"
  | .compact => "Compact"
  | .debug => "Debug"

/-- Writes a statement. -/
def render : Format → Select → String
  | .pretty, statement => statement.toJson.pretty
  | .compact, statement => statement.toJson.compact
  | .debug, statement => statement.outline.text

end Format

/-- A place outside the program from which text can be read. -/
inductive Place where
  | file (path : String)
  | stdin
  deriving DecidableEq

/-- Where the text comes from. -/
inductive Input where
  | given (sql : String)
  | read (place : Place)
  deriving DecidableEq

/-- A text to parse and how to answer. -/
structure Job where
  input : Input
  format : Format
  verbose : Bool
  deriving DecidableEq

/-- What is asked for. -/
inductive Request where
  | version
  | parse (job : Job)
  deriving DecidableEq

/-- Why arguments make no request. -/
inductive UsageError where
  | unknownArgument (argument : String)
  | missingValue (option : String)
  | unneededValue (option : String)
  | invalidValue (option value : String)
  | repeated (option : String)
  | conflict
  deriving DecidableEq

/-- The wording of a usage error. -/
def UsageError.message : UsageError → String
  | .unknownArgument argument => "unexpected argument '" ++ argument ++ "'"
  | .missingValue option => "a value is required for '" ++ option ++ "'"
  | .unneededValue option => "'" ++ option ++ "' takes no value"
  | .invalidValue option value => "invalid value '" ++ value ++ "' for '" ++ option ++ "'"
  | .repeated option => "'" ++ option ++ "' cannot be used multiple times"
  | .conflict => "the SQL text cannot be used with '--file'"

-- ======================================================== arguments

/-- What the arguments have said so far. -/
structure Options where
  sql : Option String
  file : Option String
  format : Option Format
  verbose : Bool
  deriving DecidableEq

namespace Options

/-- Nothing said. -/
def none : Options := ⟨.none, .none, .none, false⟩

/-- Takes the text to parse, of which there is one. -/
def setSql (o : Options) (text : String) : Except UsageError Options :=
  if o.sql.isSome then .error (.unknownArgument text) else .ok { o with sql := some text }

/-- Takes the path of a file. -/
def setFile (o : Options) (path : String) : Except UsageError Options :=
  if o.file.isSome then .error (.repeated "--file")
  else if path.isEmpty then .error (.missingValue "--file")
  else .ok { o with file := some path }

/-- Takes the name of a format. -/
def setFormat (o : Options) (name : String) : Except UsageError Options :=
  if o.format.isSome then .error (.repeated "--format")
  else match Format.ofName? name with
    | some format => .ok { o with format := some format }
    | .none => .error (.invalidValue "--format" name)

/-- Asks for reports. -/
def setVerbose (o : Options) : Except UsageError Options :=
  if o.verbose then .error (.repeated "--verbose") else .ok { o with verbose := true }

/-- The request that the options make, with the format that the environment
names where they name none. -/
def request (o : Options) (environment : Option String) : Except UsageError Request := do
  let format ← match o.format, environment with
    | some format, _ => pure format
    | .none, .none => pure .pretty
    | .none, some name =>
      match Format.ofName? name with
      | some format => pure format
      | .none => throw (.invalidValue "--format" name)
  let input ← match o.sql, o.file with
    | some _, some _ => throw .conflict
    | some sql, .none => pure (.given sql)
    | .none, some path => pure (.read (.file path))
    | .none, .none => pure (.read .stdin)
  return .parse ⟨input, format, o.verbose⟩

end Options

/-- What has been read: the options, unless the version is asked for, which
answers at once. -/
inductive Progress where
  | version
  | options (o : Options)

/-- How a cluster of one-letter options ends: with all letters read, with
the version asked for, or with a file whose path is the next argument. -/
inductive ClusterEnd where
  | done
  | version
  | file

/-- Reads one-letter options behind a single dash. The letter of an option
with a value takes the rest of the cluster, without an equals sign before
it. -/
def readCluster : List Char → Options → Except UsageError (ClusterEnd × Options)
  | [], o => .ok (.done, o)
  | 'v' :: later, o => do readCluster later (← o.setVerbose)
  | 'V' :: _, o => .ok (.version, o)
  | ['f'], o => .ok (.file, o)
  | 'f' :: '=' :: path, o => do return (.done, ← o.setFile (String.ofList path))
  | 'f' :: path, o => do return (.done, ← o.setFile (String.ofList path))
  | c :: _, _ => .error (.unknownArgument (String.ofList ['-', c]))

/-- A single argument, by its shape. -/
inductive Argument where
  /-- Two dashes, behind which no argument is an option. -/
  | terminator
  /-- A name behind two dashes, with the value behind an equals sign. -/
  | long (name : String) (value : Option String)
  /-- Letters behind one dash. -/
  | cluster (letters : List Char)
  | plain (text : String)

/-- The shape of an argument. A single dash is no option. -/
def Argument.ofString (text : String) : Argument :=
  match text.toList with
  | ['-', '-'] => .terminator
  | '-' :: '-' :: later =>
    let name := String.ofList (later.takeWhile (· ≠ '='))
    match later.dropWhile (· ≠ '=') with
    | _ :: value => .long name (some (String.ofList value))
    | [] => .long name none
  | '-' :: c :: later => .cluster (c :: later)
  | _ => .plain text

/-- The argument as the value of the option before it, unless it looks like
an option itself. -/
def valueOf (option text : String) : Except UsageError String :=
  match Argument.ofString text with
  | .plain value => .ok value
  | _ => .error (.missingValue option)

/-- Takes arguments none of which is an option. -/
def readPlain : List String → Options → Except UsageError Options
  | [], o => .ok o
  | text :: later, o => do readPlain later (← o.setSql text)

/-- Reads the arguments from left to right. -/
def readArguments : List String → Options → Except UsageError Progress
  | [], o => .ok (.options o)
  | text :: later, o =>
    match Argument.ofString text with
    | .terminator => do return .options (← readPlain later o)
    | .plain sql => do readArguments later (← o.setSql sql)
    | .cluster letters => do
      match ← readCluster letters o with
      | (.done, o) => readArguments later o
      | (.version, _) => return .version
      | (.file, o) =>
        match later with
        | [] => throw (.missingValue "--file")
        | path :: later => readArguments later (← o.setFile (← valueOf "--file" path))
    | .long "file" (some path) => do readArguments later (← o.setFile path)
    | .long "format" (some name) => do readArguments later (← o.setFormat name)
    | .long "file" none =>
      match later with
      | [] => .error (.missingValue "--file")
      | path :: later => do readArguments later (← o.setFile (← valueOf "--file" path))
    | .long "format" none =>
      match later with
      | [] => .error (.missingValue "--format")
      | name :: later => do readArguments later (← o.setFormat (← valueOf "--format" name))
    | .long "verbose" none => do readArguments later (← o.setVerbose)
    | .long "version" none => .ok .version
    | .long "verbose" (some _) => .error (.unneededValue "--verbose")
    | .long "version" (some _) => .error (.unneededValue "--version")
    | .long _ _ => .error (.unknownArgument text)

/-- The request that the arguments make. The format may also come from the
environment. -/
def request (arguments : List String) (environment : Option String) :
    Except UsageError Request := do
  match ← readArguments arguments .none with
  | .version => return .version
  | .options o => o.request environment

-- ========================================================== answers

/-- The text that bytes spell. -/
def decode (bytes : ByteArray) : Except ReadFault String :=
  match String.fromUTF8? bytes with
  | some text => .ok text
  | none => .error .notText

/-- What failed when a place could not be read. -/
def Place.failure : Place → String
  | .file path => "failed to read " ++ path
  | .stdin => "failed to read SQL from stdin"

/-- The text of an input, given how to read a place. -/
def Input.text {m : Type → Type} [Monad m]
    (read : Place → m (Except ReadFault ByteArray)) :
    Input → m (Except (Place × ReadFault) String)
  | .given sql => return .ok sql
  | .read place => do
    return ((← read place).bind decode).mapError fun fault => (place, fault)

/-- What the program writes and how it exits. -/
structure Answer where
  code : UInt32
  stdout : String
  stderr : String
  deriving DecidableEq

/-- The answer to a request for the version. -/
def versionAnswer : Answer := ⟨0, "pgselect 0.1.0\n", ""⟩

/-- The reports of a parse, for a reader who asked for them. Those that
trace single steps are left out. -/
def logText (job : Job) (sql : String) (events : List (Event Span)) : String :=
  if job.verbose then
    let opening := Level.debug.text ++ " parsing input bytes=" ++ toString sql.utf8ByteSize
      ++ " format=" ++ job.format.label
    let lines := (events.filter fun e => e.level == .debug).map Event.line
    String.join ((opening :: lines).map (· ++ "\n"))
  else ""

/-- The answer to a job, given its text or why there is none. -/
def Job.answer (job : Job) (text : Except (Place × ReadFault) String) : Answer :=
  match text with
  | .error (place, fault) =>
    ⟨1, "", "Error: " ++ place.failure ++ "\n\nCaused by:\n    " ++ fault.message ++ "\n"⟩
  | .ok sql =>
    let outcome := parseReporting sql
    let log := logText job sql outcome.events
    match outcome.result with
    | .ok statement => ⟨0, job.format.render statement ++ "\n", log⟩
    | .error error => ⟨1, "", log ++ Report.render error sql⟩

-- ============================================================= runs

/-- What a run of the program finds around it. -/
structure Surroundings where
  stdin : ByteArray
  site : Site
  format : Option String

/-- The bytes of a place. -/
def Surroundings.read (s : Surroundings) : Place → Id (Except ReadFault ByteArray)
  | .stdin => .ok s.stdin
  | .file path => s.site.read path

/-- A run of the program: what it answers to the arguments. -/
def run (s : Surroundings) (arguments : List String) : Except UsageError Answer := do
  match ← request arguments s.format with
  | .version => return versionAnswer
  | .parse job => return job.answer (job.input.text s.read).run

end SqlSelect.CommandLine
