import HashTunnel.Engine.Command

/-! # Configuration

A configuration says which engine is run and how, whether texts with reserved points are refused,
and whether the engine is told the name of its text. A setting changes one part of it.
-/

namespace HashTunnel

/-- What a run needs to know besides its text. -/
structure Config where
  /-- The engine's program. -/
  engine : Text
  engineArgs : List Text
  defines : List Text
  includePaths : List Text
  /-- Refuse texts with reserved points. -/
  strict : Bool
  /-- Announce the name of the text with a linemarker. -/
  lineMarkers : Bool
  deriving DecidableEq, Repr

/-- The arguments that keep comments and the host's identifiers: no linemarkers in the output, no
    predefined macros and no standard headers. -/
def defaultEngineArgs : List Text :=
  ["-P".toList, "-C".toList, "-undef".toList, "-nostdinc".toList]

/-- The configuration that holds where nothing is set. -/
def Config.default : Config where
  engine := "cpp".toList
  engineArgs := defaultEngineArgs
  defines := []
  includePaths := []
  strict := true
  lineMarkers := true

instance : Inhabited Config := ⟨Config.default⟩

/-- The command that a configuration asks for, for a text without a name. -/
def Command.ofConfig (config : Config) : Command where
  program := config.engine
  args := config.engineArgs
  defines := config.defines
  includePaths := config.includePaths

inductive Setting where
  | engine (program : Text)
  | engineArgs (args : List Text)
  | define (definition : Text)
  | includePath (path : Text)
  | strict (on : Bool)
  | lineMarkers (on : Bool)
  /-- A name that no setting has; it changes nothing. -/
  | unknown (name : Text)
  deriving DecidableEq, Repr

/-- A configuration after a setting. Macros and include paths add up; of all else the last one
    holds. -/
def Config.set (config : Config) : Setting → Config
  | .engine program => { config with engine := program }
  | .engineArgs args => { config with engineArgs := args }
  | .define definition => { config with defines := config.defines ++ [definition] }
  | .includePath path => { config with includePaths := config.includePaths ++ [path] }
  | .strict on => { config with strict := on }
  | .lineMarkers on => { config with lineMarkers := on }
  | .unknown _ => config

/-- A configuration after several settings, one after the other. -/
def Config.setAll (config : Config) (settings : List Setting) : Config :=
  settings.foldl Config.set config

end HashTunnel
