import HashTunnel.Tool.Echo
import HashTunnel.Tool.Shell.Arithmetic

/-! # Formatted printing

`printf` prints its format as often as its arguments need. `Printf.run` is the command.
-/

namespace HashTunnel.Tool.Shell.Printf

structure Layout where
  left : Bool := false
  zeros : Bool := false
  plus : Bool := false
  space : Bool := false
  alternate : Bool := false
  width : Nat := 0
  places : Option Nat := none

def Layout.flag? (layout : Layout) : Char → Option Layout
  | '-' => some { layout with left := true }
  | '0' => some { layout with zeros := true }
  | '+' => some { layout with plus := true }
  | ' ' => some { layout with space := true }
  | '#' => some { layout with alternate := true }
  | _ => none

def Layout.pad (layout : Layout) (text : Text) : Text :=
  let missing := List.replicate (layout.width - text.length) ' '
  if layout.left then text ++ missing else missing ++ text

def Layout.text (layout : Layout) (text : Text) : Text :=
  layout.pad (match layout.places with | some n => text.take n | none => text)

/-- A number, whose sign stands before the zeros that fill it up. -/
def Layout.number (layout : Layout) (sign digits : Text) : Text :=
  let digits := match layout.places with
    | some n => List.replicate (n - digits.length) '0' ++ digits
    | none =>
      if layout.zeros && !layout.left then
        List.replicate (layout.width - sign.length - digits.length) '0' ++ digits
      else digits
  layout.pad (sign ++ digits)

/-- The integer of an argument; a quote before a character means its number. -/
def argument (text : Text) : Int :=
  match text with
  | '"' :: c :: _ | '\x27' :: c :: _ => c.toNat
  | text => Arithmetic.ofText (text.dropWhile (· == ' '))

def Layout.signed (layout : Layout) (n : Int) : Text :=
  let sign :=
    if n < 0 then ['-'] else if layout.plus then ['+'] else if layout.space then [' '] else []
  layout.number sign (Nat.toDigits 10 n.natAbs)

/-- A number without a sign as it is laid out, in the given base. -/
def Layout.unsigned (layout : Layout) (base : Nat) (upper : Bool) (n : Int) : Text :=
  let digits := Nat.toDigits base (if n < 0 then (n + 0x10000000000000000).toNat else n.toNat)
  let lead := if !layout.alternate || n = 0 then [] else if base = 8 then ['0']
    else if base = 16 then ['0', 'x'] else []
  let all := layout.number lead digits
  if upper then all.map Char.toUpper else all

structure State where
  /-- The arguments that have not been used. -/
  args : List Text
  written : Text := []
  /-- The format ended early. -/
  stopped : Bool := false
  code : Nat := 0
  complaints : Text := []

/-- The next argument, or an empty one, and the state without it. -/
def State.take (state : State) : Text × State :=
  (state.args.head?.getD [], { state with args := state.args.drop 1 })

def State.print (state : State) (text : Text) : State :=
  { state with written := state.written ++ text }

/-- The state after a complaint, with the exit code that it means. -/
def State.complain (state : State) (code : Nat) (complaint : Text) : State :=
  { state with code, complaints := state.complaints ++ "printf: ".toList ++ complaint ++ ['\n'] }

def isInteger (text : Text) : Bool :=
  match text with
  | [] | '"' :: _ | '\x27' :: _ => true
  | '-' :: rest | '+' :: rest => rest.head?.any Char.isDigit && rest.all Char.isAlphanum
  | text => text.head?.any Char.isDigit && text.all Char.isAlphanum

/-- The state after a complaint about an argument that is no integer. -/
def State.checked (state : State) (arg : Text) : State :=
  if isInteger arg then state else state.complain 1 (arg ++ ": expected numeric value".toList)

def readFlags (layout : Layout) : Text → Layout × Text
  | [] => (layout, [])
  | c :: rest =>
    match layout.flag? c with
    | some layout => readFlags layout rest
    | none => (layout, c :: rest)

/-- Reads a number, or takes it from the arguments at a star. -/
def readCount (state : State) (format : Text) : Option Nat × State × Text :=
  match format with
  | '*' :: rest =>
    let (arg, state) := state.take
    (some (argument arg).toNat, state, rest)
  | format =>
    (number? (format.takeWhile Char.isDigit), state, format.dropWhile Char.isDigit)

/-- Prints one conversion, from behind its percent sign on. Gives the format that is left. -/
def convert (state : State) (format : Text) : State × Text :=
  let (layout, format) := readFlags {} format
  let (width, state, format) := readCount state format
  let layout := { layout with width := width.getD 0 }
  let (layout, state, format) := match format with
    | '.' :: rest =>
      let (places, state, rest) := readCount state rest
      ({ layout with places := some (places.getD 0) }, state, rest)
    | format => (layout, state, format)
  match format with
  | [] => ({ state with stopped := true }, [])
  | c :: rest =>
    let (arg, after) := state.take
    match c with
    | 's' => (after.print (layout.text arg), rest)
    | 'b' =>
      let (text, whole) := Escape.all arg
      ({ after.print (layout.text text) with stopped := !whole }, rest)
    | 'c' => (after.print (layout.text (arg.take 1)), rest)
    | 'd' | 'i' => ((after.checked arg).print (layout.signed (argument arg)), rest)
    | 'u' => ((after.checked arg).print (layout.unsigned 10 false (argument arg)), rest)
    | 'o' => ((after.checked arg).print (layout.unsigned 8 false (argument arg)), rest)
    | 'x' => ((after.checked arg).print (layout.unsigned 16 false (argument arg)), rest)
    | 'X' => ((after.checked arg).print (layout.unsigned 16 true (argument arg)), rest)
    | _ =>
      let refused := state.complain 2 ('%' :: (format.take 1) ++ ": invalid directive".toList)
      ({ refused with stopped := true }, [])

def once : Nat → State → Text → State
  | 0, state, _ => state
  | fuel + 1, state, format =>
    if state.stopped then state
    else
      match format with
      | [] => state
      | '\\' :: rest =>
        let (c, used) := Escape.one rest
        once fuel (state.print [c]) (rest.drop used)
      | '%' :: '%' :: rest => once fuel (state.print ['%']) rest
      | '%' :: rest =>
        let (state, rest) := convert state rest
        once fuel state rest
      | c :: rest => once fuel (state.print [c]) rest

/-- Prints a format, and again as long as it uses arguments and there are more. -/
def repeatedly (format : Text) : Nat → State → State
  | 0, state => state
  | fuel + 1, state =>
    let next := once (format.length + 1) state format
    if next.stopped || next.args.isEmpty || next.args.length = state.args.length then next
    else repeatedly format fuel next

def run (args : List Text) : Output :=
  match if args.head? = some ['-', '-'] then args.drop 1 else args with
  | [] => { code := 2, err := "printf: usage: printf format [arg ...]\n".toList }
  | format :: args =>
    let state := repeatedly format (args.length + 1) { args }
    { code := state.code, out := state.written, err := state.complaints }

end HashTunnel.Tool.Shell.Printf
