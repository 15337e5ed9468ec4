import HashTunnel.Text.Basic

/-! # Markers

A marker stands in a wrapped text for something that an engine must not see, or must hand back.
It is a reserved point, a numeric tag and a semicolon. Unicode makes the reserved points
noncharacters, so no ordinary text holds one and a marker can be found again after expansion.
-/

namespace HashTunnel

/-- The reserved point that begins the markers of line continuations. -/
def continuationPoint : Char := '\uFFFE'

/-- The reserved point that begins the markers of directive lines. -/
def directivePoint : Char := '\uFFFF'

/-- The characters that a text must not hold if it is to come through unharmed. -/
def reservedPoints : List Char :=
  [continuationPoint, directivePoint]

/-- Holds of the reserved points. -/
def isReserved (c : Char) : Bool :=
  reservedPoints.contains c

/-- What a marker stands for. -/
inductive Marker where
  /-- A backslash and the line feed after it. -/
  | continuedLf
  /-- A backslash and the carriage return and line feed after it. -/
  | continuedCrlf
  /-- The start of a line of the host text that looks like a directive. -/
  | guarded
  /-- The three slashes of a comment directive, whose directive is on the next line. -/
  | split
  deriving DecidableEq, Repr

namespace Marker

/-- Every marker, in the order of its tags within its reserved point. -/
def all : List Marker :=
  [continuedLf, continuedCrlf, guarded, split]

/-- The spelling of a marker. -/
def text : Marker → Text
  | continuedLf => ['\uFFFE', '0', ';']
  | continuedCrlf => ['\uFFFE', '1', ';']
  | guarded => ['\uFFFF', '1', '7', ';']
  | split => ['\uFFFF', '9', '1', ';']

/-- The characters that mean something in a regular expression. -/
def patternSpecials : List Char :=
  "\\.+*?()|[]\x7b\x7d^$#&-~".toList

/-- The regular expression that matches the spelling of a marker and nothing else. -/
def pattern (marker : Marker) : Text :=
  marker.text.flatMap fun c => if patternSpecials.contains c then ['\\', c] else [c]

end Marker
end HashTunnel
