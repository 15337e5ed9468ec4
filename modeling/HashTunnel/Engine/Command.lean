import HashTunnel.Engine.Basic
import HashTunnel.Engine.Linemarker
import HashTunnel.Text.Blank
import HashTunnel.Text.Utf8

/-! # Engines that are programs

A command names a program and what it is told: arguments, macros, include paths and the name of
the file that the text comes from. The program reads the text from its standard input. A code of
zero makes its standard output the expansion and its standard error the warnings.
-/

namespace HashTunnel

structure Command where
  program : Text
  args : List Text := []
  /-- Macros, each as a name, as name and value, or with parameters. -/
  defines : List Text := []
  includePaths : List Text := []
  /-- The name announced to the program for the text. -/
  fileName : Option Text := none
  deriving DecidableEq, Repr

/-- The lines of a standard error that say something, without the blanks at their ends. -/
def diagnostics (stderr : Bytes) : List Text :=
  ((Text.lines (Utf8.decodeLossy stderr)).map Text.trimEnd).filter (!·.isEmpty)

/-- What a run of the program `program` means as an expansion. -/
def Expansion.ofLaunch (program : Text) : Launch → Expansion
  | .refused error => .fail (.notStarted program error)
  | .exited exit =>
    if exit.code = 0 then
      ⟨match Utf8.decode? exit.stdout with
        | some text => .ok text
        | none => .error .notUtf8,
       (diagnostics exit.stderr).map (program ++ ": ".toList ++ ·)⟩
    else .fail (.failed program (.code exit.code) (Text.trim (Utf8.decodeLossy exit.stderr)))
  | .killed signal coreDumped _ stderr =>
    .fail (.failed program (.signal signal coreDumped) (Text.trim (Utf8.decodeLossy stderr)))
  | .lost error => .fail (.unreadable error.message)

namespace Command

def arg (command : Command) (value : Text) : Command :=
  { command with args := command.args ++ [value] }

def define (command : Command) (definition : Text) : Command :=
  { command with defines := command.defines ++ [definition] }

def includePath (command : Command) (path : Text) : Command :=
  { command with includePaths := command.includePaths ++ [path] }

def named (command : Command) (name : Text) : Command :=
  { command with fileName := some name }

/-- The arguments that the program gets: its own, then the macros, then the include paths. -/
def commandLine (command : Command) : List Text :=
  command.args ++ command.defines.map ('-' :: 'D' :: ·) ++
    command.includePaths.map ('-' :: 'I' :: ·)

/-- What the program reads for a text: the linemarker, if the text has a name, and the text. -/
def feed (command : Command) (text : Text) : Text :=
  match command.fileName with
  | some name => Linemarker.announce name ++ '\n' :: text
  | none => text

variable {m : Type → Type} [Monad m]

def engine (run : Runner m) (command : Command) : Engine m :=
  fun text => do
    let launch ← run command.program command.commandLine (Utf8.encode (command.feed text))
    pure (.ofLaunch command.program launch)

end Command
end HashTunnel
