/-! # Texts

A text is the list of its scalar values, so every rule on texts is a recursion on that list.
Here are the operations that know nothing about what a text says: cutting it at separators,
putting it together again and replacing one text by another inside it.
-/

namespace HashTunnel

/-- A text: the list of its Unicode scalar values. -/
abbrev Text := List Char

/-- Octets, as files and standard streams hold them. -/
abbrev Bytes := List UInt8

namespace Text

/-- The pieces of a list between the elements that `sep` holds of, empty pieces included. -/
def splitWhere {α : Type} (sep : α → Bool) : List α → List (List α)
  | [] => [[]]
  | c :: rest =>
    if sep c then [] :: splitWhere sep rest
    else
      match splitWhere sep rest with
      | [] => [[c]]
      | piece :: pieces => (c :: piece) :: pieces

/-- The pieces of a list with `sep` between each two of them. -/
def joinWith {α : Type} (sep : α) : List (List α) → List α
  | [] => []
  | [piece] => piece
  | piece :: pieces => piece ++ sep :: joinWith sep pieces

/-- The lines of a text, without their line feeds. A text that ends in a line feed has an
    empty last line. -/
def lines (text : Text) : List Text :=
  splitWhere (· == '\n') text

/-- Changes every line of a text by `f` and keeps the line feeds between them. -/
def mapLines (f : Text → Text) (text : Text) : Text :=
  joinWith '\n' ((lines text).map f)

theorem splitWhere_ne_nil {α : Type} (sep : α → Bool) (text : List α) :
    splitWhere sep text ≠ [] := by
  cases text with
  | nil => simp [splitWhere]
  | cons c rest =>
    unfold splitWhere
    split
    · simp
    · split <;> simp

/-- Cutting at a separator and joining with it changes nothing. -/
theorem joinWith_splitWhere {α : Type} [BEq α] [LawfulBEq α] (sep : α) (text : List α) :
    joinWith sep (splitWhere (· == sep) text) = text := by
  induction text with
  | nil => rfl
  | cons c rest ih =>
    have inhabited := splitWhere_ne_nil (· == sep) rest
    unfold splitWhere
    split
    · rename_i same
      cases pieces : splitWhere (· == sep) rest with
      | nil => exact absurd pieces inhabited
      | cons piece more => rw [pieces] at ih; simp [joinWith, ih, eq_of_beq same]
    · split
      · rename_i pieces; exact absurd pieces inhabited
      · rename_i piece more pieces
        rw [pieces] at ih
        cases more <;> simp_all [joinWith]

/-- Reads `text` from left to right, passing over its first `skip` characters. -/
def replaceFrom (old new : Text) : Nat → Text → Text
  | _, [] => []
  | skip + 1, _ :: rest => replaceFrom old new skip rest
  | 0, c :: rest =>
    if old.isPrefixOf (c :: rest) then new ++ replaceFrom old new (old.length - 1) rest
    else c :: replaceFrom old new 0 rest

/-- Puts `new` in place of every occurrence of the non-empty text `old`, from left to right; the
    occurrences do not overlap. -/
def replace (old new text : Text) : Text :=
  replaceFrom old new 0 text

end Text
end HashTunnel
