import HashTunnel.Marker

/-! # Line continuations

A backslash right before a line break continues the line. While continuations are hidden behind
their markers, the lines of a text are its logical lines, so a hash sign on a continued line is
not at the start of a line.
-/

namespace HashTunnel

/-- Puts `lf` in place of every backslash with the line feed after it, and `crlf` in place of every
    backslash with the carriage return and line feed after it. -/
def replaceContinuations (lf crlf : Text) : Text → Text
  | '\\' :: '\n' :: rest => lf ++ replaceContinuations lf crlf rest
  | '\\' :: '\r' :: '\n' :: rest => crlf ++ replaceContinuations lf crlf rest
  | c :: rest => c :: replaceContinuations lf crlf rest
  | [] => []

/-- Puts a marker in place of every backslash with the line break after it. -/
def hideContinuations : Text → Text :=
  replaceContinuations Marker.continuedLf.text Marker.continuedCrlf.text

/-- Puts the backslash and its line break back in place of every marker of a continuation. -/
def showContinuations : Text → Text
  | '\uFFFE' :: '0' :: ';' :: rest => '\\' :: '\n' :: showContinuations rest
  | '\uFFFE' :: '1' :: ';' :: rest => '\\' :: '\r' :: '\n' :: showContinuations rest
  | c :: rest => c :: showContinuations rest
  | [] => []

end HashTunnel
