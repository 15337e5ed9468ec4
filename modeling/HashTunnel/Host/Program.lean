import HashTunnel.Text.Basic

/-! # Programs and files of a host

What a run needs from the system around it: how files are read and written and how a program is
started, each with the errors that a system gives.
-/

namespace HashTunnel

/-- Why a system refuses an operation on a path. -/
inductive SystemError where
  | notFound
  | denied
  | notDirectory
  | isDirectory
  | nameTooLong
  /-- Any other refusal, in the system's own words. -/
  | other (reason : Text)
  deriving DecidableEq, Repr

/-- What a program says about an error of the system. -/
def SystemError.reason : SystemError → Text
  | notFound => "No such file or directory".toList
  | denied => "Permission denied".toList
  | notDirectory => "Not a directory".toList
  | isDirectory => "Is a directory".toList
  | nameTooLong => "File name too long".toList
  | other reason => reason

/-- The number that the system gives to an error. -/
def SystemError.number? : SystemError → Option Nat
  | notFound => some 2
  | denied => some 13
  | notDirectory => some 20
  | isDirectory => some 21
  | nameTooLong => some 36
  | other _ => none

/-- The wording of an error of the system, with its number. -/
def SystemError.message (error : SystemError) : Text :=
  match error.number? with
  | some number => error.reason ++ " (os error ".toList ++ Nat.toDigits 10 number ++ [')']
  | none => error.reason

inductive StartError where
  | system (error : SystemError)
  /-- The program's name or an argument holds U+0000, which ends a text for the system. -/
  | nulByte
  deriving DecidableEq, Repr

/-- The wording of an error at the start of a program. -/
def StartError.message : StartError → Text
  | system error => error.message
  | nulByte => "nul byte found in provided data".toList

/-- How a program ended: with a code, or by a signal. -/
inductive Status where
  | code (number : Nat)
  | signal (number : Nat) (coreDumped : Bool)
  deriving DecidableEq, Repr

/-- The number that the system gives to a status. -/
def Status.number : Status → Nat
  | code number | signal number _ => number

instance : Coe Status Nat := ⟨Status.number⟩

/-- The names of the signals, which are numbered from one on. -/
def signalNames : List String :=
  ["SIGHUP", "SIGINT", "SIGQUIT", "SIGILL", "SIGTRAP", "SIGABRT", "SIGBUS", "SIGFPE", "SIGKILL", "SIGUSR1",
   "SIGSEGV", "SIGUSR2", "SIGPIPE", "SIGALRM", "SIGTERM", "SIGSTKFLT", "SIGCHLD", "SIGCONT", "SIGSTOP", "SIGTSTP",
   "SIGTTIN", "SIGTTOU", "SIGURG", "SIGXCPU", "SIGXFSZ", "SIGVTALRM", "SIGPROF", "SIGWINCH", "SIGIO", "SIGPWR",
   "SIGSYS"]

/-- The name of a signal in brackets, if it has one. -/
def signalName : Nat → Text
  | 0 => []
  | n + 1 => (signalNames[n]?).elim [] fun name => " (".toList ++ name.toList ++ [')']

def Status.describe (status : Status) : Text :=
  match status with
  | code _ => "exit status: ".toList ++ Nat.toDigits 10 status
  | signal number coreDumped =>
    "signal: ".toList ++ Nat.toDigits 10 status ++ signalName number ++
      if coreDumped then " (core dumped)".toList else []

/-- What a program that ran to its end leaves. -/
structure Exit where
  code : Nat
  stdout : Bytes
  stderr : Bytes
  deriving DecidableEq, Repr

/-- What came of the attempt to run a program. -/
inductive Launch where
  | refused (error : StartError)
  | exited (exit : Exit)
  | killed (signal : Nat) (coreDumped : Bool) (stdout stderr : Bytes)
  /-- The program was started, but the system did not tell how it ended. -/
  | lost (error : SystemError)
  deriving DecidableEq, Repr

/-- Runs a program, found by its name, on arguments and an input. -/
abbrev Runner (m : Type → Type) :=
  (program : Text) → (args : List Text) → (stdin : Bytes) → m Launch

/-- How files are read and written, each named by a path. A write makes the file or replaces what
    it held. -/
structure Files (m : Type → Type) where
  read : Text → m (Except SystemError Bytes)
  write : Text → Bytes → m (Except SystemError Unit)

/-- Holds of an answer to a read that shows that the path names something. -/
def isPresent : Except SystemError Bytes → Bool
  | .error .notFound | .error .notDirectory | .error .nameTooLong => false
  | _ => true

end HashTunnel
