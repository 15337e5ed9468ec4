import HashTunnel.Tool.Basic

/-! # The program `cat`

Prints the files it is given, or its standard input, one after the other.
-/

namespace HashTunnel.Tool

/-- What is shown of the lines, besides their text. -/
structure CatOptions where
  numbers : Bool := false
  /-- Number only lines that are not empty. -/
  numbersText : Bool := false
  /-- Show at most one empty line in a row. -/
  squeeze : Bool := false
  ends : Bool := false
  tabs : Bool := false
  controls : Bool := false

/-- The options with one more letter, if it is an option. -/
def CatOptions.add? (options : CatOptions) : Char → Option CatOptions
  | 'A' => some { options with controls := true, ends := true, tabs := true }
  | 'b' => some { options with numbersText := true }
  | 'e' => some { options with controls := true, ends := true }
  | 'E' => some { options with ends := true }
  | 'n' => some { options with numbers := true }
  | 's' => some { options with squeeze := true }
  | 't' => some { options with controls := true, tabs := true }
  | 'T' => some { options with tabs := true }
  | 'u' => some options
  | 'v' => some { options with controls := true }
  | _ => none

/-- An octet below 128 as it is shown where control characters are. -/
def showControl (c : Char) : Text :=
  if c.toNat < 32 then ['^', Char.ofNat (c.toNat + 64)]
  else if c.toNat = 127 then ['^', '?']
  else [c]

def CatOptions.showOctet (options : CatOptions) (c : Char) : Text :=
  if c = '\t' then if options.tabs then ['^', 'I'] else [c]
  else if c = '\n' then if options.ends then ['$', '\n'] else [c]
  else if !options.controls then [c]
  else if 128 ≤ c.toNat then 'M' :: '-' :: showControl (Char.ofNat (c.toNat - 128))
  else showControl c

def lineNumber (n : Nat) : Text :=
  let digits := Nat.toDigits 10 n
  List.replicate (6 - digits.length) ' ' ++ digits ++ ['\t']

/-- The lines as they are shown, from the line after `count` numbered ones on. -/
def CatOptions.showLines (options : CatOptions) : Nat → Bool → List Text → Text
  | _, _, [] => []
  | count, afterEmpty, line :: rest =>
    let empty := line == ['\n']
    if options.squeeze && empty && afterEmpty then options.showLines count true rest
    else
      let counted := if options.numbersText then !empty else options.numbers
      let count := if counted then count + 1 else count
      (if counted then lineNumber count else []) ++ line.flatMap options.showOctet ++
        options.showLines count empty rest

/-- The options and the operands among the arguments, or the complaint about them. -/
def catArguments : CatOptions → List Text → List Text → Except Output (CatOptions × List Text)
  | options, operands, [] => .ok (options, operands)
  | options, operands, arg :: rest =>
    match arg with
    | ['-', '-'] => .ok (options, operands ++ rest)
    | '-' :: '-' :: _ => .error (.unrecognizedOption "cat" arg)
    | '-' :: letter :: letters =>
      let add (options : CatOptions) (c : Char) : Except Output CatOptions :=
        match options.add? c with
        | some options => .ok options
        | none => .error (.invalidOption "cat" c)
      match (letter :: letters).foldlM add options with
      | .ok options => catArguments options operands rest
      | .error complaint => .error complaint
    | _ => catArguments options (operands ++ [arg]) rest

def cat {m : Type → Type} [Monad m] (files : Files m) (args : List Text) (stdin : Text) :
    m Output :=
  match catArguments {} [] args with
  | .error complaint => pure complaint
  | .ok (options, operands) => do
    let operands := if operands.isEmpty then [['-']] else operands
    let output ← operands.foldlM (fun (output : Output) path => do
      match ← readOperand files stdin path with
      | .ok content => pure (output.append { out := content })
      | .error error =>
        pure (output.append (.complain "cat" 1 (path ++ ": ".toList ++ error.reason)))) {}
    pure { output with out := options.showLines 0 false (fullLines output.out) }

end HashTunnel.Tool
