import HashTunnel.Marker

/-! # Where a reserved point stands

A text that holds a reserved point may not come back as it was. `firstReserved` finds the first
one and tells its line and column, both counted from one and columns in characters.
-/

namespace HashTunnel

/-- A place in a text, counted from one. -/
structure Position where
  line : Nat
  column : Nat
  deriving DecidableEq, Repr

namespace Position

/-- The place of the first character of a text. -/
def start : Position := ⟨1, 1⟩

/-- The place after a character. -/
def after (position : Position) (c : Char) : Position :=
  if c = '\n' then ⟨position.line + 1, 1⟩ else ⟨position.line, position.column + 1⟩

end Position

/-- A reserved point and where it stands. -/
structure Occurrence where
  point : Char
  position : Position
  deriving DecidableEq, Repr

/-- The first reserved point of a text that begins at `position`. -/
def firstReservedFrom (position : Position) : Text → Option Occurrence
  | [] => none
  | c :: rest =>
    if isReserved c then some ⟨c, position⟩
    else firstReservedFrom (position.after c) rest

/-- The first reserved point of a text. -/
def firstReserved (text : Text) : Option Occurrence :=
  firstReservedFrom Position.start text

/-- A text has a first reserved point exactly when it has one at all. -/
theorem firstReservedFrom_isSome_iff (position : Position) (text : Text) :
    (firstReservedFrom position text).isSome ↔ ∃ c ∈ text, isReserved c = true := by
  induction text generalizing position with
  | nil => simp [firstReservedFrom]
  | cons c rest ih =>
    unfold firstReservedFrom
    split <;> simp_all

end HashTunnel
