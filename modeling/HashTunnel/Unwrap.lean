import HashTunnel.Directive
import HashTunnel.Marker

/-! # Unwrapping

`unwrap` removes from an engine's output what `wrap` put in. A comment directive that the engine
left alone becomes a comment again; one that it acted on leaves nothing behind.
-/

namespace HashTunnel

/-- One change of a text on its way back from the engine. -/
inductive UnwrapStep where
  /-- Make comments again of the split comment directives that are still directives. -/
  | rejoinComments
  /-- Drop the marker lines of the comment directives that were acted on. -/
  | dropSplits
  /-- Remove the markers of the host's own directive lines. -/
  | unguardDirectives
  /-- Remove the line feed that wrapping appended. -/
  | trimNewline
  deriving DecidableEq, Repr

/-- Puts three slashes in place of every split marker and its line break where a directive
    follows. -/
def rejoinComments : Text → Text
  | '\uFFFF' :: '9' :: '1' :: ';' :: '\n' :: rest =>
    (if isDirective rest then ['/', '/', '/'] else Marker.split.text ++ ['\n']) ++
      rejoinComments rest
  | '\uFFFF' :: '9' :: '1' :: ';' :: '\r' :: '\n' :: rest =>
    (if isDirective rest then ['/', '/', '/'] else Marker.split.text ++ ['\r', '\n']) ++
      rejoinComments rest
  | c :: rest => c :: rejoinComments rest
  | [] => []

/-- Removes every split marker together with its line break. A marker without one stays. -/
def dropSplits : Text → Text
  | '\uFFFF' :: '9' :: '1' :: ';' :: '\n' :: rest => dropSplits rest
  | '\uFFFF' :: '9' :: '1' :: ';' :: '\r' :: '\n' :: rest => dropSplits rest
  | c :: rest => c :: dropSplits rest
  | [] => []

/-- Removes every marker of a guarded line. -/
def unguardDirectives : Text → Text
  | '\uFFFF' :: '1' :: '7' :: ';' :: rest => unguardDirectives rest
  | c :: rest => c :: unguardDirectives rest
  | [] => []

/-- Removes the last of two line feeds at the end of a text. -/
def trimNewline (text : Text) : Text :=
  if ['\n', '\n'].isSuffixOf text then text.dropLast else text

namespace UnwrapStep

/-- The steps in their order. Split markers go first: a line that has lost its guard looks like a
    directive that the engine left alone, and a split marker right above it would be made a comment
    of it. -/
def all : List UnwrapStep :=
  [rejoinComments, dropSplits, unguardDirectives, trimNewline]

/-- What a step does to a text. -/
def apply : UnwrapStep → Text → Text
  | rejoinComments, text => HashTunnel.rejoinComments text
  | dropSplits, text => HashTunnel.dropSplits text
  | unguardDirectives, text => HashTunnel.unguardDirectives text
  | trimNewline, text => HashTunnel.trimNewline text

end UnwrapStep

/-- The host text for an engine's output. -/
def unwrap (text : Text) : Text :=
  UnwrapStep.all.foldl (fun text step => step.apply text) text

end HashTunnel
