import HashTunnel.Text.Basic

/-! # Paths

A path is a text whose components stand between slashes. An empty component, and a dot that is
not the first one, name the directory reached so far.
-/

namespace HashTunnel.Path

/-- The components of a path as they are written, empty ones included. -/
def parts (path : Text) : List Text :=
  Text.splitWhere (· == '/') path

/-- Holds of the components that stay where they are. -/
def isStill (part : Text) : Bool :=
  part.isEmpty || part == ['.']

/-- Holds of a path whose only component is a hyphen. It stands for a standard stream. -/
def isStandardStream (path : Text) : Bool :=
  match parts path with
  | ['-'] :: rest => rest.all isStill
  | _ => false

example : isStandardStream ['-', '/', '.'] = true := rfl

-- A hyphen below another directory is a file.
example : isStandardStream ['.', '/', '-'] = false := rfl

end HashTunnel.Path
