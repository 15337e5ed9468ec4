import HashTunnel.Tool.Cat
import HashTunnel.Tool.Head
import HashTunnel.Tool.Sed.Machine
import HashTunnel.Tool.Shell.Run

/-! # The built-in programs

The programs of the outer layer and how they are found by their names. `Tool.runner` starts them for a host that
has no other programs.
-/

namespace HashTunnel.Tool

inductive Program where
  | cat
  | echo
  | fail
  | head
  | sed
  | sh
  | succeed
  deriving DecidableEq, Repr

namespace Program

def names : List (Text × Program) :=
  [("cat".toList, cat), ("echo".toList, echo), ("false".toList, fail), ("head".toList, head),
   ("sed".toList, sed), ("sh".toList, sh), ("true".toList, succeed)]

/-- The directories that hold the built-in programs. -/
def directories : List Text :=
  ["/bin/".toList, "/usr/bin/".toList]

/-- The program of a name, or of a path into a directory of programs. -/
def find? (name : Text) : Option Program :=
  match directories.find? (·.isPrefixOf name) with
  | some directory => names.lookup (name.drop directory.length)
  | none => names.lookup name

/-- Whether a program reads its standard input, given its arguments. -/
def readsInput (program : Program) (args : List Text) : Bool :=
  let fromOperands (operands : List Text) := operands.isEmpty || operands.contains ['-']
  match program with
  | cat =>
    match catArguments {} [] args with
    | .ok (_, operands) => fromOperands operands
    | .error _ => false
  | head =>
    match headArguments 0 {} [] args with
    | .ok (_, operands) => fromOperands operands
    | .error _ => false
  | sed =>
    match Sed.readArguments 0 {} args with
    | .ok options =>
      fromOperands (if options.scripts.isEmpty then options.operands.drop 1 else options.operands)
    | .error _ => false
  | sh => true
  | echo | fail | succeed => false

variable {m : Type → Type} [Monad m]

def perform (files : Files m) (program : Program) (args : List Text) (stdin : Text) : m Output :=
  match program with
  | cat => Tool.cat files args stdin
  | echo => pure (Tool.echo args)
  | head => Tool.head files args stdin
  | sed => Tool.sed files args stdin
  | fail => pure { code := 1 }
  | sh | succeed => pure {}

def callable (files : Files m) (name : Text) :
    Option ((args : List Text) → (stdin : Text) → m Output × Bool) :=
  (find? name).map fun program args stdin =>
    (program.perform files args stdin, program.readsInput args)

def run (files : Files m) (program : Program) (args : List Text) (stdin : Bytes) : m Exit := do
  let args := args.map Octets.ofText
  let stdin := Octets.ofBytes stdin
  let output ← match program with
    | sh => Tool.sh files (callable files) args stdin
    | program => program.perform files args stdin
  pure output.toExit

end Program

/-- Runs a built-in program that is found by its name. Where U+0000 ends a text, neither a name nor
    an argument can hold it. -/
def runner {m : Type → Type} [Monad m] (files : Files m) : Runner m :=
  fun name args stdin =>
    if name.contains '\x00' || args.any (·.contains '\x00') then pure (.refused .nulByte)
    else
      match Program.find? name with
      | some program => do pure (.exited (← program.run files args stdin))
      | none => pure (.refused (.system .notFound))

end HashTunnel.Tool
