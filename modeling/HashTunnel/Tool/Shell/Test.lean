import HashTunnel.Tool.Pattern
import HashTunnel.Tool.Shell.Arithmetic

/-! # Conditions and wildcards of the shell

`Condition.read` reads the operands of `test`; a condition about a file asks `Files`. `Wildcard`
matches the patterns of `case` and of the expansions that cut values.
-/

namespace HashTunnel.Tool.Shell

namespace Wildcard

/-- Holds of a text that a pattern with wildcards matches as a whole. -/
def fits : Nat → Text → Text → Bool
  | 0, _, _ => false
  | fuel + 1, pattern, text =>
    match pattern, text with
    | [], text => text.isEmpty
    | '*' :: rest, text =>
      fits fuel rest text ||
        match text with
        | [] => false
        | _ :: more => fits fuel pattern more
    | '?' :: rest, _ :: more => fits fuel rest more
    | '[' :: rest, c :: more =>
      let (negated, body) := match rest with
        | '!' :: body => (true, body)
        | body => (false, body)
      match Pattern.readBracket (body.length + 1) true [] body with
      | .ok (ranges, rest) =>
        (ranges.any fun range => range.1 ≤ c && c ≤ range.2) != negated && fits fuel rest more
      | .error _ => c == '[' && fits fuel rest more
    | '\\' :: p :: rest, c :: more => p == c && fits fuel rest more
    | p :: rest, c :: more => p == c && fits fuel rest more
    | _ :: _, [] => false

/-- Holds of a text that a pattern with wildcards matches as a whole. -/
def isMatch (pattern text : Text) : Bool :=
  fits (pattern.length + text.length + 1) pattern text

/-- A text without the shortest or longest beginning that a pattern matches. -/
def dropFront (pattern : Text) (longest : Bool) (text : Text) : Text :=
  let sizes := List.range (text.length + 1)
  match (if longest then sizes.reverse else sizes).find? fun n => isMatch pattern (text.take n) with
  | some n => text.drop n
  | none => text

/-- A text without the shortest or longest ending that a pattern matches. -/
def dropBack (pattern : Text) (longest : Bool) (text : Text) : Text :=
  let sizes := List.range (text.length + 1)
  match (if longest then sizes else sizes.reverse).find? fun n => isMatch pattern (text.drop n) with
  | some n => text.take n
  | none => text

end Wildcard

inductive Condition where
  | value (holds : Bool)
  /-- The path names something. -/
  | present (path : Text)
  | file (path : Text)
  | directory (path : Text)
  /-- The path names a file that is not empty. -/
  | filled (path : Text)
  | negated (condition : Condition)
  | both (first second : Condition)
  | either (first second : Condition)
  deriving Repr

namespace Condition

def unary? (operator : String) (operand : Text) : Option Condition :=
  match operator with
  | "-n" => some (.value (!operand.isEmpty))
  | "-z" => some (.value operand.isEmpty)
  | "-e" | "-r" | "-w" => some (.present operand)
  | "-f" => some (.file operand)
  | "-d" => some (.directory operand)
  | "-s" => some (.filled operand)
  | _ => none

def integer (operand : Text) : Except Text Int :=
  let digits := if operand.head? = some '-' then operand.drop 1 else operand
  if (number? digits).isSome then .ok (Arithmetic.ofText operand)
  else .error ("Illegal number: ".toList ++ operand)

def comparisons : List (String × (Int → Int → Bool)) :=
  [("-eq", (· == ·)), ("-ne", (· != ·)), ("-lt", (· < ·)), ("-le", (· ≤ ·)), ("-gt", (· > ·)),
   ("-ge", (· ≥ ·))]

def binary? (operator : String) (a b : Text) : Option (Except Text Condition) :=
  match operator with
  | "=" => some (.ok (.value (a == b)))
  | "!=" => some (.ok (.value (a != b)))
  | operator =>
    (comparisons.lookup operator).map fun holds => do
      pure (.value (holds (← integer a) (← integer b)))

/-- The complaint about an operand that no operator follows. -/
def misplaced {α : Type} (operand : Text) : Except Text α :=
  .error (operand ++ ": unexpected operator".toList)

def readOne : Nat → List Text → Except Text (Condition × List Text)
  | 0, _ => .error []
  | fuel + 1, operands => do
    let alone : Except Text (Condition × List Text) := match operands with
      | a :: rest => .ok (.value (!a.isEmpty), rest)
      | [] => .error "argument expected".toList
    let ofFirst (a : Text) (rest : List Text) : Except Text (Condition × List Text) := do
      if a = ['!'] then
        let (condition, rest) ← readOne fuel rest
        pure (.negated condition, rest)
      else
        match rest with
        | operand :: rest =>
          match unary? (String.ofList a) operand with
          | some condition => pure (condition, rest)
          | none => alone
        | [] => alone
    match operands with
    | a :: operator :: b :: rest =>
      match binary? (String.ofList operator) a b with
      | some condition => pure (← condition, rest)
      | none => ofFirst a (operator :: b :: rest)
    | [a, b] => ofFirst a [b]
    | _ => alone

/-- The condition that the operands of `test` write. -/
def read : Nat → List Text → Except Text Condition
  | 0, _ => .error []
  | _, [] => .ok (.value false)
  | fuel + 1, operands => do
    let (first, rest) ← readOne operands.length operands
    match rest with
    | [] => pure first
    | operator :: rest =>
      match String.ofList operator, rest.isEmpty with
      | "-a", false => pure (.both first (← read fuel rest))
      | "-o", false => pure (.either first (← read fuel rest))
      | _, _ => misplaced (operands.head?.getD [])

def holds {m : Type → Type} [Monad m] (files : Files m) : Condition → m Bool
  | value holds => pure holds
  | present path => do pure (isPresent (← files.read (Octets.toText path)))
  | file path => do
    match ← files.read (Octets.toText path) with
    | .ok _ => pure true
    | .error _ => pure false
  | directory path => do
    match ← files.read (Octets.toText path) with
    | .error .isDirectory => pure true
    | _ => pure false
  | filled path => do
    match ← files.read (Octets.toText path) with
    | .ok content => pure !content.isEmpty
    | .error _ => pure false
  | negated condition => do pure !(← condition.holds files)
  | both first second => do
    let holds ← first.holds files
    if holds then second.holds files else pure false
  | either first second => do
    let holds ← first.holds files
    if holds then pure true else second.holds files

end Condition
end HashTunnel.Tool.Shell
