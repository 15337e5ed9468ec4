import HashTunnel.Config.Basic
import HashTunnel.Host.Path
import HashTunnel.Tunnel

/-! # Requests

What a command line asks for, and how it combines with the configuration: the engine and its
arguments are replaced, macros and include paths are added.
-/

namespace HashTunnel

structure Request where
  /-- The file to read; the standard input if there is none. -/
  input : Option Text := none
  /-- The file to write; the standard output if there is none. -/
  output : Option Text := none
  /-- The name to announce for the text. -/
  name : Option Text := none
  defines : List Text := []
  includePaths : List Text := []
  engine : Option Text := none
  engineArgs : List Text := []
  stage? : Option Stage := none
  /-- Let reserved points through. -/
  allowReserved : Bool := false
  /-- Print a sample settings file and do nothing else. -/
  printSample : Bool := false
  deriving DecidableEq, Repr

namespace Request

/-- The stage that is asked for, or the whole way. -/
def stage (request : Request) : Stage :=
  request.stage?.getD default

/-- The file that is meant by a path, if it does not stand for a standard stream. -/
def file? (path : Option Text) : Option Text :=
  path.filter (!Path.isStandardStream ·)

/-- The name of the text: the one given, or else the path of the file it is read from. -/
def sourceName (request : Request) : Option Text :=
  request.name <|> file? request.input

/-- A configuration under a request. Configured arguments belong to the configured engine, so
    another engine starts without them. -/
def configure (request : Request) (config : Config) : Config where
  engine := request.engine.getD config.engine
  engineArgs :=
    if request.engine.isSome || !request.engineArgs.isEmpty then request.engineArgs
    else config.engineArgs
  defines := config.defines ++ request.defines
  includePaths := config.includePaths ++ request.includePaths
  strict := config.strict && !request.allowReserved
  lineMarkers := config.lineMarkers

/-- The command that runs the configured engine on the text of a request. -/
def command (request : Request) (config : Config) : Command :=
  match request.sourceName with
  | some name =>
    if config.lineMarkers then (Command.ofConfig config).named name else Command.ofConfig config
  | none => Command.ofConfig config

end Request
end HashTunnel
