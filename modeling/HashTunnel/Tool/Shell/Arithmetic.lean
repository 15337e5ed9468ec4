import HashTunnel.Tool.Shell.Word

/-! # Arithmetic of the shell

Integer expressions with the operators of C, over the values of variables.
-/

namespace HashTunnel.Tool.Shell.Arithmetic

inductive Token where
  | number (value : Int)
  | name (name : Text)
  | operator (spelling : String)
  deriving Repr, DecidableEq

/-- The number that digits write: octal behind a zero, hexadecimal behind a zero and an x. -/
def literal (digits : Text) : Int :=
  match digits with
  | '0' :: 'x' :: rest | '0' :: 'X' :: rest => ofDigits 16 rest
  | '0' :: rest => ofDigits 8 rest
  | digits => ofDigits 10 digits

def operators : List String :=
  ["<<", ">>", "<=", ">=", "==", "!=", "&&", "||", "+", "-", "*", "/", "%", "<", ">", "!", "~", "&",
   "|", "^", "(", ")"]

def tokens? : Nat → Text → Option (List Token)
  | 0, _ => some []
  | fuel + 1, text =>
    match text with
    | [] => some []
    | c :: rest =>
      if c = ' ' || c = '\t' || c = '\n' then tokens? fuel rest
      else if c.isDigit then do
        let digits := text.takeWhile Char.isAlphanum
        pure (.number (literal digits) :: (← tokens? fuel (text.drop digits.length)))
      else if isNameStart c then do
        let name := text.takeWhile isNameChar
        pure (.name name :: (← tokens? fuel (text.drop name.length)))
      else do
        let operator ← operators.find? (·.toList.isPrefixOf text)
        pure (.operator operator :: (← tokens? fuel (text.drop operator.length)))

/-- The binary operators, those that bind loosely first. -/
def levels : List (List String) :=
  [["||"], ["&&"], ["|"], ["^"], ["&"], ["==", "!="], ["<=", ">=", "<", ">"], ["<<", ">>"],
   ["+", "-"], ["*", "/", "%"]]

def truth (holds : Bool) : Int :=
  if holds then 1 else 0

def apply (operator : String) (a b : Int) : Except SyntaxError Int :=
  match operator with
  | "||" => .ok (truth (a != 0 || b != 0))
  | "&&" => .ok (truth (a != 0 && b != 0))
  | "|" => .ok ((a.toInt64 ||| b.toInt64).toInt)
  | "^" => .ok ((a.toInt64 ^^^ b.toInt64).toInt)
  | "&" => .ok ((a.toInt64 &&& b.toInt64).toInt)
  | "==" => .ok (truth (a == b))
  | "!=" => .ok (truth (a != b))
  | "<=" => .ok (truth (a ≤ b))
  | ">=" => .ok (truth (b ≤ a))
  | "<" => .ok (truth (a < b))
  | ">" => .ok (truth (b < a))
  | "<<" => .ok ((a.toInt64 <<< b.toInt64).toInt)
  | ">>" => .ok ((a.toInt64 >>> b.toInt64).toInt)
  | "+" => .ok (a + b)
  | "-" => .ok (a - b)
  | "*" => .ok (a * b)
  | _ =>
    if b = 0 then .error "arithmetic expression: division by zero"
    else .ok (if operator = "/" then a.tdiv b else a.tmod b)

/-- The complaint about an expression that is none. -/
def malformed {α : Type} : Except SyntaxError α :=
  .error "arithmetic expression: expecting primary"

mutual

/-- The value of an expression whose operators are those of the given levels. -/
def level (value : Text → Int) : Nat → List (List String) → List Token →
    Except SyntaxError (Int × List Token)
  | 0, _, _ => malformed
  | fuel + 1, [], tokens => unary value fuel tokens
  | fuel + 1, spellings :: tighter, tokens => do
    let (first, tokens) ← level value fuel tighter tokens
    operands value fuel spellings tighter first tokens

/-- The value behind `first` and the operators that follow it on one level. -/
def operands (value : Text → Int) : Nat → List String → List (List String) → Int → List Token →
    Except SyntaxError (Int × List Token)
  | 0, _, _, _, _ => malformed
  | fuel + 1, spellings, tighter, first, tokens =>
    match tokens with
    | .operator spelling :: rest =>
      if spellings.contains spelling then do
        let (second, rest) ← level value fuel tighter rest
        operands value fuel spellings tighter (← apply spelling first second) rest
      else .ok (first, tokens)
    | tokens => .ok (first, tokens)

/-- The value of a number, a variable, an expression in parentheses or one with a sign. -/
def unary (value : Text → Int) : Nat → List Token → Except SyntaxError (Int × List Token)
  | 0, _ => malformed
  | fuel + 1, tokens =>
    match tokens with
    | .number n :: rest => .ok (n, rest)
    | .name name :: rest => .ok (value name, rest)
    | .operator "(" :: rest => do
      match ← level value fuel levels rest with
      | (n, .operator ")" :: rest) => pure (n, rest)
      | _ => malformed
    | .operator "-" :: rest => do
      let (n, rest) ← unary value fuel rest
      pure (-n, rest)
    | .operator "+" :: rest => unary value fuel rest
    | .operator "!" :: rest => do
      let (n, rest) ← unary value fuel rest
      pure (truth (n == 0), rest)
    | .operator "~" :: rest => do
      let (n, rest) ← unary value fuel rest
      pure (-n - 1, rest)
    | _ => malformed

end

def evaluate (value : Text → Int) (expression : Text) : Except SyntaxError Int :=
  match tokens? (expression.length + 1) expression with
  | none => malformed
  | some [] => .ok 0
  | some tokens =>
    match level value (16 * tokens.length + 16) levels tokens with
    | .ok (n, []) => .ok n
    | .ok (_, _ :: _) => .error "arithmetic expression: expecting EOF"
    | .error complaint => .error complaint

/-- An integer in digits, with a sign if it is negative. -/
def print (n : Int) : Text :=
  if n < 0 then '-' :: Nat.toDigits 10 n.natAbs else Nat.toDigits 10 n.natAbs

/-- The integer that a value writes; zero if it writes none. -/
def ofText (text : Text) : Int :=
  match text with
  | '-' :: digits => -literal digits
  | digits => if digits.head?.any Char.isDigit then literal digits else 0

end HashTunnel.Tool.Shell.Arithmetic
