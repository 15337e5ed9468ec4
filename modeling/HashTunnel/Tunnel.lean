import HashTunnel.Engine.Basic
import HashTunnel.Unwrap
import HashTunnel.Wrap

/-! # The tunnel

A tunnel carries a host text through an engine: it wraps the text, lets the engine expand it and
unwraps what comes out. Before wrapping, the text is examined for reserved points.
-/

namespace HashTunnel

/-- How much of the way a text goes. -/
inductive Stage where
  /-- Wrap, expand and unwrap. -/
  | full
  /-- Only wrap; the caller drives the engine. -/
  | wrapping
  /-- Only unwrap what an engine gave. -/
  | unwrapping
  deriving DecidableEq, Repr

instance : Inhabited Stage := ⟨.full⟩

/-- An engine, and whether texts with reserved points are refused. -/
structure Tunnel (m : Type → Type) where
  engine : Engine m
  strict : Bool := true

/-- The warning for a text that is let through in spite of a reserved point. -/
def Occurrence.warning (occurrence : Occurrence) : Text :=
  "reserved ".toList ++ occurrence.describe ++ " may corrupt the output".toList

/-- The warnings that a text enters with. A strict examination refuses a reserved point. -/
def examine (strict : Bool) (text : Text) : Except Failure (List Text) :=
  match firstReserved text with
  | none => .ok []
  | some occurrence =>
    if strict then .error (.reserved occurrence) else .ok [occurrence.warning]

namespace Tunnel

variable {m : Type → Type} [Monad m]

/-- Carries a text through the given stage. -/
def run (tunnel : Tunnel m) (stage : Stage) (text : Text) : m Expansion :=
  match stage with
  | .unwrapping => pure (.ok (unwrap text))
  | .wrapping =>
    match examine tunnel.strict text with
    | .error failure => pure (.fail failure)
    | .ok warnings => pure ⟨.ok (wrap text), warnings⟩
  | .full =>
    match examine tunnel.strict text with
    | .error failure => pure (.fail failure)
    | .ok warnings => do
      let expansion ← tunnel.engine (wrap text)
      pure ((expansion.map unwrap).warnedBy warnings)

end Tunnel
end HashTunnel
