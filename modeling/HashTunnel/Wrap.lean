import HashTunnel.Continuation
import HashTunnel.Directive
import HashTunnel.Text.Blank

/-! # Wrapping

`wrap` prepares a host text for an engine: the host's own directive lines are guarded by a marker,
and every comment directive is split into a marker line and a line that the engine may act on.
-/

namespace HashTunnel

/-- One change of a text on its way to the engine. -/
inductive WrapStep where
  /-- Hide the line continuations, so that the lines below are logical lines. -/
  | hideContinuations
  /-- Put a marker before each directive line of the host. -/
  | guardDirectives
  /-- Split each comment directive into a marker line and its directive. -/
  | splitComments
  /-- Put the line continuations back. -/
  | showContinuations
  /-- End the text with a line feed of its own, for engines that mishandle an open last line. -/
  | appendNewline
  deriving DecidableEq, Repr

/-- A directive line behind its marker, and any other line as it is. -/
def guardLine (line : Text) : Text :=
  if isDirective line then Marker.guarded.text ++ line else line

/-- A comment directive on two lines, the marker in place of its slashes, and any other line as it
    is. -/
def splitLine (line : Text) : Text :=
  match commentDirective? line with
  | some (indent, directive) => indent ++ Marker.split.text ++ '\n' :: directive
  | none => line

namespace WrapStep

/-- The steps in their order. Guarding comes before splitting, so the directives that splitting
    exposes stay open to the engine. -/
def all : List WrapStep :=
  [hideContinuations, guardDirectives, splitComments, showContinuations, appendNewline]

/-- What a step does to a text. -/
def apply : WrapStep → Text → Text
  | hideContinuations, text => HashTunnel.hideContinuations text
  | guardDirectives, text => Text.mapLines guardLine text
  | splitComments, text => Text.mapLines splitLine text
  | showContinuations, text => HashTunnel.showContinuations text
  | appendNewline, text => text ++ ['\n']

end WrapStep

/-- The text that an engine is given for a host text. -/
def wrap (text : Text) : Text :=
  WrapStep.all.foldl (fun text step => step.apply text) text

end HashTunnel
