import HashTunnel.Host.Program
import HashTunnel.Reserved

/-! # Engines

An engine expands a text. It may fail, and it may have warnings whether it fails or not. What it
does besides is up to the monad `m` that it runs in.
-/

namespace HashTunnel

/-- Why a text could not be carried through an engine. -/
inductive Failure where
  /-- The text holds a reserved point. -/
  | reserved (occurrence : Occurrence)
  /-- The engine's program could not be started. -/
  | notStarted (program : Text) (error : StartError)
  /-- The engine's program did not end with the code zero, and `complaint` is what it wrote to its
      standard error. -/
  | failed (program : Text) (status : Status) (complaint : Text)
  /-- The engine's output is not UTF-8. -/
  | notUtf8
  /-- The engine could not read or write. -/
  | unreadable (reason : Text)
  deriving DecidableEq, Repr

def decimal (n : Nat) : Text :=
  Nat.toDigits 10 n

/-- Where a reserved point stands, in words. The point is spelled by its code. -/
def Occurrence.describe (occurrence : Occurrence) : Text :=
  "character '\\u\x7b".toList ++ Nat.toDigits 16 occurrence.point.toNat ++
    "\x7d' at line ".toList ++ decimal occurrence.position.line ++
    ", column ".toList ++ decimal occurrence.position.column

def Failure.message : Failure → Text
  | reserved occurrence => "unsupported ".toList ++ occurrence.describe
  | notStarted program error =>
    "failed to start preprocessor `".toList ++ program ++ "`: ".toList ++ error.message
  | failed program status complaint =>
    "preprocessor `".toList ++ program ++ "` failed (".toList ++ status.describe ++ "): ".toList ++ complaint
  | notUtf8 => "preprocessor output is not valid UTF-8".toList
  | unreadable reason => reason

structure Expansion where
  result : Except Failure Text
  warnings : List Text

namespace Expansion

/-- An expansion that went well and has no warnings. -/
def ok (text : Text) : Expansion := ⟨.ok text, []⟩

/-- An expansion that failed and has no warnings. -/
def fail (failure : Failure) : Expansion := ⟨.error failure, []⟩

/-- An expansion with another one's text after `f`. -/
def map (f : Text → Text) (expansion : Expansion) : Expansion :=
  ⟨expansion.result.map f, expansion.warnings⟩

/-- An expansion with `warnings` before its own. -/
def warnedBy (warnings : List Text) (expansion : Expansion) : Expansion :=
  ⟨expansion.result, warnings ++ expansion.warnings⟩

end Expansion

abbrev Engine (m : Type → Type) := Text → m Expansion

namespace Engine

variable {m : Type → Type} [Monad m]

/-- The engine that computes a text, or fails, and does nothing else. -/
def ofFunction (expand : Text → Except Failure Text) : Engine m :=
  fun text => pure ⟨expand text, []⟩

/-- The engine that leaves every text as it is. -/
def identity : Engine m :=
  ofFunction .ok

/-- An engine that also keeps every text that it is given, in order. -/
def recorded (engine : Engine m) : Engine (StateT (List Text) m) :=
  fun text => do
    modify (· ++ [text])
    engine text

end Engine
end HashTunnel
