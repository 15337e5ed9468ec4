import HashTunnel.Tool.Basic

/-! # Escapes, and the program `echo`

A backslash and a letter or octal digits spell a character. `Escape.one` reads one such spelling;
`echo` prints its arguments and reads spellings in them where it is asked to.
-/

namespace HashTunnel.Tool

namespace Escape

def isOctal (c : Char) : Bool :=
  '0' ≤ c && c ≤ '7'

/-- The characters that a letter after a backslash stands for. -/
def letters : List (Char × Char) :=
  [('\\', '\\'), ('a', '\x07'), ('b', '\x08'), ('f', '\x0c'), ('n', '\n'), ('r', '\r'), ('t', '\t'),
   ('v', '\x0b')]

/-- The octet of a number, which counts modulo 256. -/
def octet (n : Nat) : Char :=
  Char.ofNat (n % 256)

/-- The character that is spelled after a backslash, and how many characters spell it. A letter
    that spells nothing leaves the backslash as it is. -/
def one (after : Text) : Char × Nat :=
  match after with
  | [] => ('\\', 0)
  | c :: _ =>
    if isOctal c then
      let digits := (after.take 3).takeWhile isOctal
      (octet (ofDigits 8 digits), digits.length)
    else
      match letters.lookup c with
      | some spelled => (spelled, 1)
      | none => ('\\', 0)

/-- Reads every escape of an argument, where a zero may stand before octal digits. The second part
    is false if the text ends early, at a backslash and the letter c. -/
def allFrom : Nat → Text → Text × Bool
  | _, [] => ([], true)
  | skip + 1, _ :: rest => allFrom skip rest
  | 0, '\\' :: rest =>
    match rest with
    | 'c' :: _ => ([], false)
    | '0' :: digit :: _ =>
      let leading := if isOctal digit then 1 else 0
      let (c, used) := one (rest.drop leading)
      let (more, whole) := allFrom (used + leading) rest
      (c :: more, whole)
    | _ =>
      let (c, used) := one rest
      let (more, whole) := allFrom used rest
      (c :: more, whole)
  | 0, c :: rest =>
    let (more, whole) := allFrom 0 rest
    (c :: more, whole)

def all (text : Text) : Text × Bool :=
  allFrom 0 text

end Escape

/-- The arguments with a space between each two of them. -/
def spaced (args : List Text) : Text :=
  Text.joinWith ' ' args

/-- Prints arguments, reading escapes if asked to, and ends the line unless told not to. -/
def printArguments (escapes newline : Bool) (args : List Text) : Output :=
  let (text, whole) := if escapes then Escape.all (spaced args) else (spaced args, true)
  { out := text ++ if newline && whole then ['\n'] else [] }

/-- Holds of an argument that sets options of `echo`. -/
def isEchoOption (arg : Text) : Bool :=
  match arg with
  | '-' :: letter :: letters => (letter :: letters).all (['n', 'e', 'E'].contains ·)
  | _ => false

/-- The program `echo`: `n` leaves the line open, `e` reads escapes and `E` does not. -/
def echo (args : List Text) : Output :=
  let letters := (args.takeWhile isEchoOption).flatMap (·.drop 1)
  let escapes := (letters.filter (· != 'n')).getLast? == some 'e'
  printArguments escapes (!letters.contains 'n') (args.dropWhile isEchoOption)

end HashTunnel.Tool
