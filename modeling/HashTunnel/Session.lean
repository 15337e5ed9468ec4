import HashTunnel.CommandLine.Parse
import HashTunnel.Config.Sample
import HashTunnel.Host.Program

/-! # Sessions

A session is one run of the whole program on a host: it reads its arguments, its settings and its
text, sends the text through the tunnel and writes what comes out. It writes to one place only, and
only when everything before has gone well.
-/

namespace HashTunnel

/-- What a session needs of the system around it. -/
structure Host (m : Type → Type) extends Files m where
  /-- The whole standard input. -/
  stdin : m (Except SystemError Bytes)
  /-- Writes to the standard output and flushes it. -/
  stdout : Bytes → m (Except SystemError Unit)
  /-- Prints on the standard output. It comes back only if that went well; the program ends otherwise. -/
  print : Text → m Unit
  /-- The home directory, if there is one. -/
  home : m (Option Text)
  run : Runner m

/-- What a session leaves besides files. -/
structure Report where
  code : Nat := 0
  /-- The text that has gone to the standard output. -/
  stdout : Text := []
  stderr : Text := []
  warnings : List Text := []

namespace Session

def settingsName : Text := ".ppshimrc".toList

/-- What is printed when the version is asked for. -/
def versionText : Text := "ppshim 0.1.0\n".toList

def usageText : Text := "Usage: ppshim [OPTIONS] [INPUT]\n".toList

def helpText : Text :=
  ["Run source text through a C preprocessor, expanding only '///#' comment directives",
   "",
   "Usage: ppshim [OPTIONS] [INPUT]",
   "",
   "Arguments:",
   "  [INPUT]  Input file (leave blank or set to '-' to read from stdin)",
   "",
   "Options:",
   "  -o, --out <OUTPUT>      Output file ('-' or unset writes to stdout)",
   "  -n, --name <NAME>       File name reported to the preprocessor",
   "  -D, --define <MACRO>    Define a macro",
   "  -I <PATH>               Add an include search path",
   "  -e, --engine <PROGRAM>  Preprocessor program to run",
   "      --engine-arg <ARG>  Argument for the preprocessor",
   "      --stage <STAGE>     Which part of the round trip to run: full, input or output",
   "      --allow-reserved    Pass input containing U+FFFE or U+FFFF through",
   "      --print-rc          Print a sample .ppshimrc and exit",
   "  -h, --help              Print help",
   "  -V, --version           Print version"].flatMap fun line => line.toList ++ ['\n']

/-- What is said about a command line that is misused. -/
def misuseText : CommandLine.Misuse → Text
  | .unknownArgument => "unexpected argument".toList
  | .invalidValue => "invalid or missing value".toList
  | .argumentConflict => "an argument cannot be used multiple times".toList
  | .tooManyValues => "unexpected value".toList

/-- The report on a command line that asks for no session. -/
def reportStop : CommandLine.Stop → Report
  | .help => { stdout := helpText }
  | .version => { stdout := versionText }
  | .misuse misuse =>
    { code := 2, stderr := "error: ".toList ++ misuseText misuse ++ "\n\n".toList ++ usageText }

def reportFailure (message : Text) (warnings : List Text) : Report :=
  { code := 1, stderr := "error: ".toList ++ message ++ ['\n'], warnings }

inductive Source where
  | workingDirectory
  | home
  deriving DecidableEq, Repr

/-- The path of the settings file in a home directory. -/
def homeSettings (home : Text) : Text :=
  if home.getLast? = some '/' || home.isEmpty then home ++ settingsName
  else home ++ '/' :: settingsName

/-- The configuration that the content of a settings file gives. A file that cannot be read, or that
    is no text, gives none. -/
def configOf (content : Except SystemError Bytes) : Config :=
  match content with
  | .error _ => Config.default
  | .ok octets =>
    match Utf8.decode? octets with
    | none => Config.default
    | some text => Rc.load Config.default text

variable {m : Type → Type} [Monad m]

/-- The settings file in force and its content. The working directory comes before the home
    directory, even with a file that cannot be read. -/
def findSettings (host : Host m) : m (Option (Source × Except SystemError Bytes)) := do
  let here ← host.read settingsName
  if isPresent here then pure (some (.workingDirectory, here))
  else
    match ← host.home with
    | none => pure none
    | some home =>
      let there ← host.read (homeSettings home)
      pure (if isPresent there then some (.home, there) else none)

/-- The configuration that the settings in force give. -/
def loadConfig (host : Host m) : m Config := do
  match ← findSettings host with
  | none => pure Config.default
  | some (_, content) => pure (configOf content)

/-- What is said about a text that is no text. -/
def notText : Text := "stream did not contain valid UTF-8".toList

/-- The octets of a file, or of the standard input. -/
def readOctets (host : Host m) (input : Option Text) : m (Except SystemError Bytes) :=
  match Request.file? input with
  | some path => host.read path
  | none => host.stdin

/-- The text that octets are, or what is wrong with them. -/
def textOf : Except SystemError Bytes → Except Text Text
  | .error error => .error error.message
  | .ok octets => (Utf8.decode? octets).elim (.error notText) .ok

/-- The text of a session, or what is wrong with it. -/
def readText (host : Host m) (input : Option Text) : m (Except Text Text) := do
  pure (textOf (← readOctets host input))

/-- Writes the text that came out, to a file or to the standard output. -/
def writeText (host : Host m) (output : Option Text) (text : Text) (warnings : List Text) :
    m Report := do
  match Request.file? output with
  | none =>
    match ← host.stdout (Utf8.encode text) with
    | .ok () => pure { stdout := text, warnings }
    | .error error => pure (reportFailure error.message warnings)
  | some path =>
    match ← host.write path (Utf8.encode text) with
    | .ok () => pure { warnings }
    | .error error => pure (reportFailure error.message warnings)

/-- Sends the text of a request through the tunnel. -/
def perform (host : Host m) (request : Request) : m Report := do
  if request.printSample then
    host.print Rc.sample
    pure { stdout := Rc.sample }
  else
    let config := request.configure (← loadConfig host)
    match ← readText host request.input with
    | .error message => pure (reportFailure message [])
    | .ok text =>
      let tunnel : Tunnel m := ⟨(request.command config).engine host.run, config.strict⟩
      let expansion ← tunnel.run request.stage text
      match expansion.result with
      | .error failure => pure (reportFailure failure.message expansion.warnings)
      | .ok text => writeText host request.output text expansion.warnings

/-- Answers a command line that asks for no session. It is no failure if nobody takes the answer. -/
def answer (host : Host m) (stop : CommandLine.Stop) : m Report := do
  let report := reportStop stop
  if report.stdout.isEmpty then pure report
  else
    match ← host.stdout (Utf8.encode report.stdout) with
    | .ok () => pure report
    | .error _ => pure { report with stdout := [] }

/-- Runs the program on its arguments, given without its own name. -/
def run (host : Host m) (args : List Text) : m Report :=
  match CommandLine.parse args with
  | .error stop => answer host stop
  | .ok request => perform host request

end Session
end HashTunnel
