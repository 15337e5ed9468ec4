import HashTunnel.Tool.Basic

/-! # The program `head`

Prints the first lines or octets of the files it is given, or of its standard input.
-/

namespace HashTunnel.Tool

structure HeadOptions where
  /-- Count octets, not lines. -/
  octets : Bool := false
  count : Nat := 10
  /-- Leave out the last `count` and print what comes before. -/
  allBut : Bool := false
  /-- Whether each file's name is printed; if nothing is said, only of several files. -/
  names : Option Bool := none

def HeadOptions.cut (options : HeadOptions) (content : Text) : Text :=
  let keep (size : Nat) : Nat := if options.allBut then size - options.count else options.count
  if options.octets then content.take (keep content.length)
  else
    let lines := fullLines content
    (lines.take (keep lines.length)).flatten

/-- The options with the count that `value` writes, which a hyphen turns around. -/
def HeadOptions.counting (options : HeadOptions) (octets : Bool) (value : Text) :
    Except Output HeadOptions :=
  let (allBut, digits) := match value with
    | '-' :: digits => (true, digits)
    | '+' :: digits => (false, digits)
    | digits => (false, digits)
  match number? digits with
  | some count => .ok { options with octets, count, allBut }
  | none =>
    let unit := if octets then "bytes" else "lines"
    .error (.complain "head" 1
      ("invalid number of ".toList ++ unit.toList ++ ": '".toList ++ value ++ ['\x27']))

/-- Reads letters after one hyphen; a letter that takes a count takes what follows it, or the next
    argument. The number is that of the arguments used besides. -/
def headLetters (options : HeadOptions) (next : Option Text) :
    Text → Except Output (HeadOptions × Nat)
  | [] => .ok (options, 0)
  | letter :: rest =>
    if letter = 'n' || letter = 'c' then
      let octets := letter == 'c'
      match rest, next with
      | [], some value => do pure (← options.counting octets value, 1)
      | [], none =>
        .error (.complain "head" 1 ("option requires an argument -- '".toList ++ letter ::
          "'\nTry 'head --help' for more information.".toList))
      | value, _ => do pure (← options.counting octets value, 0)
    else if letter = 'q' then headLetters { options with names := some false } next rest
    else if letter = 'v' then headLetters { options with names := some true } next rest
    else .error (.invalidOption "head" letter)

def headWord (options : HeadOptions) (word : Text) : Except Output HeadOptions :=
  let value := (word.dropWhile (· != '=')).drop 1
  match String.ofList (word.takeWhile (· != '=')) with
  | "--lines" => options.counting false value
  | "--bytes" => options.counting true value
  | "--quiet" | "--silent" => .ok { options with names := some false }
  | "--verbose" => .ok { options with names := some true }
  | _ => .error (.unrecognizedOption "head" word)

/-- The options and the operands among the arguments, where the first `skip` are used up. -/
def headArguments : Nat → HeadOptions → List Text → List Text →
    Except Output (HeadOptions × List Text)
  | _, options, operands, [] => .ok (options, operands)
  | skip + 1, options, operands, _ :: rest => headArguments skip options operands rest
  | 0, options, operands, arg :: rest =>
    match arg with
    | ['-', '-'] => .ok (options, operands ++ rest)
    | '-' :: '-' :: _ => do headArguments 0 (← headWord options arg) operands rest
    | '-' :: letter :: letters =>
      if letter.isDigit then do
        headArguments 0 (← options.counting false (letter :: letters)) operands rest
      else do
        let (options, used) ← headLetters options rest.head? (letter :: letters)
        headArguments used options operands rest
    | _ => headArguments 0 options (operands ++ [arg]) rest

def head {m : Type → Type} [Monad m] (files : Files m) (args : List Text) (stdin : Text) :
    m Output :=
  match headArguments 0 {} [] args with
  | .error complaint => pure complaint
  | .ok (options, operands) => do
    let operands := if operands.isEmpty then [['-']] else operands
    let named := options.names.getD (1 < operands.length)
    operands.foldlM (fun (output : Output) path => do
      match ← readOperand files stdin path with
      | .ok content =>
        let name := if path = ['-'] then "standard input".toList else path
        let title := if !named then []
          else (if output.out.isEmpty then [] else ['\n']) ++ "==> ".toList ++ name ++
            " <==\n".toList
        pure (output.append { out := title ++ options.cut content })
      | .error .isDirectory =>
        pure (output.append (.complain "head" 1
          ("error reading '".toList ++ path ++ "': Is a directory".toList)))
      | .error error =>
        pure (output.append (.complain "head" 1
          ("cannot open '".toList ++ path ++ "' for reading: ".toList ++ error.reason)))) {}

end HashTunnel.Tool
