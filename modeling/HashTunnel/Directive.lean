import HashTunnel.Text.Blank

/-! # Directive lines

A *directive line* is one that an engine acts on: blanks and then a hash sign. A *comment
directive* hides such a line from everybody but this library: blanks, exactly three slashes, and
then what a directive line has.
-/

namespace HashTunnel

/-- Holds of what begins with blanks of one line and then a hash sign. -/
def isDirective (line : Text) : Bool :=
  (line.dropWhile Text.isLineBlank).head? == some '#'

/-- The indentation and the directive of a comment directive. Nothing if the line is none. -/
def commentDirective? (line : Text) : Option (Text × Text) :=
  match line.dropWhile Text.isLineBlank with
  | '/' :: '/' :: '/' :: directive =>
    if isDirective directive then some (line.takeWhile Text.isLineBlank, directive) else none
  | _ => none

/-- The two parts of a comment directive make the line, with the slashes between them. -/
theorem eq_of_commentDirective? {line indent directive : Text}
    (h : commentDirective? line = some (indent, directive)) :
    line = indent ++ '/' :: '/' :: '/' :: directive ∧ isDirective directive = true := by
  unfold commentDirective? at h
  split at h
  · rename_i rest behind
    split at h
    · rename_i found
      obtain ⟨rfl, rfl⟩ := Prod.mk.inj (Option.some.inj h)
      refine ⟨?_, found⟩
      rw [← behind, List.takeWhile_append_dropWhile]
    · simp at h
  · simp at h

end HashTunnel
