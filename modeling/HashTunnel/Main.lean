import HashTunnel.Session
import HashTunnel.Tool.Program

/-! # The command line program

Lends the files and streams of the real system to a session. The programs that it starts are those of the outer
layer.
-/

namespace HashTunnel.Main

/-- The error of the system behind an exception. -/
def systemError : IO.Error → SystemError
  | .noFileOrDirectory .. | .noSuchThing .. => .notFound
  | .permissionDenied .. => .denied
  | .inappropriateType _ 20 _ => .notDirectory
  | .inappropriateType .. => .isDirectory
  | error => .other error.toString.toList

/-- What an action gives, or the error of the system that ends it. -/
def attempt {α : Type} (action : IO α) : IO (Except SystemError α) := do
  try pure (.ok (← action))
  catch error => pure (.error (systemError error))

def files : Files IO where
  read path := attempt do pure (← IO.FS.readBinFile (String.ofList path)).toList
  write path content := attempt (IO.FS.writeBinFile (String.ofList path) ⟨content.toArray⟩)

/-- The whole of a stream. -/
partial def readAll (stream : IO.FS.Stream) (read : ByteArray) : IO ByteArray := do
  let more ← stream.read 65536
  if more.isEmpty then pure read else readAll stream (read ++ more)

/-- The system as a host. Engines are the built-in programs. -/
def host : Host IO where
  toFiles := files
  stdin := attempt do pure (← readAll (← IO.getStdin) .empty).toList
  stdout octets := attempt do
    let stdout ← IO.getStdout
    stdout.write ⟨octets.toArray⟩
    stdout.flush
  print text := do
    let stdout ← IO.getStdout
    stdout.putStr (String.ofList text)
    stdout.flush
  home := do pure ((← IO.getEnv "HOME").map String.toList)
  run := Tool.runner files

end HashTunnel.Main

/-- Runs a session and prints what its report has for the standard error. -/
def main (args : List String) : IO UInt32 := do
  let report ← HashTunnel.Session.run HashTunnel.Main.host (args.map String.toList)
  let stderr ← IO.getStderr
  for warning in report.warnings do
    stderr.putStrLn ("warning: " ++ String.ofList warning)
  stderr.putStr (String.ofList report.stderr)
  pure report.code.toUInt32
