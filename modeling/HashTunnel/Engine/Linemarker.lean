import HashTunnel.Text.Basic

/-! # Linemarkers

A linemarker tells an engine which file the next line comes from. The file's name stands in
quotes and is escaped as a C string.
-/

namespace HashTunnel.Linemarker

/-- Holds of the characters that a quoted name spells with a backslash before them. -/
def needsEscape (c : Char) : Bool :=
  c == '\\' || c == '"'

def escape (name : Text) : Text :=
  name.flatMap fun c => if needsEscape c then ['\\', c] else [c]

/-- The linemarker that announces line one of the file `name`, without its line feed. -/
def announce (name : Text) : Text :=
  "# 1 \"".toList ++ escape name ++ ['"']

end HashTunnel.Linemarker
