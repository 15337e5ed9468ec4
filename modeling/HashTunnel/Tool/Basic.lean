import HashTunnel.Host.Program
import HashTunnel.Text.Utf8

/-! # Built-in programs: what they share

The modules below `Tool` are an outer layer around the library. Their programs stand in for `cat`, `sed`, `sh` and
other programs of a system, so that sessions can be run and compared with sessions on a real system where no program
can be started. Only `Host.Enclosure` and `Main` import them, and no result depends on them: what is proved about a
session or an engine holds for every `Runner`.

Built-in programs read and write octets. Inside them an octet is the character of its number, so
the operations on texts serve for octets too. `Octets` goes between the two, `Output` is what a
program leaves and `Operand` is how a program reads its options.
-/

namespace HashTunnel

namespace Octets

def ofBytes (bytes : Bytes) : Text :=
  bytes.map fun octet => Char.ofNat octet.toNat

/-- The octets that characters below U+0100 stand for. -/
def toBytes (octets : Text) : Bytes :=
  octets.map fun c => UInt8.ofNat c.toNat

def ofText (text : Text) : Text :=
  ofBytes (Utf8.encode text)

def toText (octets : Text) : Text :=
  Utf8.decodeLossy (toBytes octets)

end Octets

namespace Tool

/-- An exit code and what was written to the two output streams. -/
structure Output where
  code : Nat := 0
  out : Text := []
  err : Text := []

namespace Output

/-- Everything that one run wrote and then another one. The worse code counts. -/
def append (first second : Output) : Output :=
  ⟨max first.code second.code, first.out ++ second.out, first.err ++ second.err⟩

/-- A complaint of the program `program`, which ends with the given code. -/
def complain (program : String) (code : Nat) (complaint : Text) : Output :=
  { code, err := program.toList ++ ": ".toList ++ complaint ++ ['\n'] }

/-- The complaint about a letter that is no option. -/
def invalidOption (program : String) (letter : Char) : Output :=
  complain program 1 ("invalid option -- '".toList ++ letter :: "'\nTry '".toList ++
    program.toList ++ " --help' for more information.".toList)

def unrecognizedOption (program : String) (word : Text) : Output :=
  complain program 1 ("unrecognized option '".toList ++ word ++ "'\nTry '".toList ++
    program.toList ++ " --help' for more information.".toList)

def toExit (output : Output) : Exit :=
  ⟨output.code, Octets.toBytes output.out, Octets.toBytes output.err⟩

end Output

/-- What a path names, or the standard input for a hyphen. -/
def readOperand {m : Type → Type} [Monad m] (files : Files m) (stdin path : Text) :
    m (Except SystemError Text) :=
  if path = ['-'] then pure (.ok stdin)
  else do pure ((← files.read (Octets.toText path)).map Octets.ofBytes)

def number? (digits : Text) : Option Nat :=
  if digits.isEmpty || !digits.all Char.isDigit then none
  else some (digits.foldl (fun n d => n * 10 + (d.toNat - 48)) 0)

def ofDigits (base : Nat) (digits : Text) : Nat :=
  digits.foldl (fun n d =>
    n * base + (if d.isDigit then d.toNat - 48 else (d.toNat ||| 32) - 87)) 0

/-- The lines of a text, each with the line feed that ends it if it has one. -/
def fullLines (text : Text) : List Text :=
  let pieces := Text.lines text
  (pieces.dropLast.map (· ++ ['\n'])) ++
    match pieces.getLast? with
    | some [] | none => []
    | some last => [last]

end Tool
end HashTunnel
