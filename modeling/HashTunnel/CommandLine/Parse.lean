import HashTunnel.CommandLine.Request

/-! # Reading a command line

Arguments are read from left to right. The value of an option, and the path of the input, are
examined only when the next option, switch or path has been understood, or at the end (`settle`).
So an argument that means nothing is reported before a bad value in front of it, and a bad value
before whatever an understood argument after it would do.
-/

namespace HashTunnel.CommandLine

inductive Parameter where
  | output
  | name
  | define
  | includePath
  | engine
  | engineArg
  | stage
  deriving DecidableEq, Repr

inductive Switch where
  | allowReserved
  | printSample
  | help
  | version
  deriving DecidableEq, Repr

inductive Flag where
  | parameter (parameter : Parameter)
  | switch (switch : Switch)
  deriving DecidableEq, Repr

/-- The options that are spelled as words, after two hyphens. -/
def longOptions : List (Text × Flag) :=
  [("out".toList, .parameter .output), ("name".toList, .parameter .name),
   ("define".toList, .parameter .define), ("engine".toList, .parameter .engine),
   ("engine-arg".toList, .parameter .engineArg), ("stage".toList, .parameter .stage),
   ("allow-reserved".toList, .switch .allowReserved), ("print-rc".toList, .switch .printSample),
   ("help".toList, .switch .help), ("version".toList, .switch .version)]

/-- The options that are spelled as letters, after one hyphen. -/
def shortOptions : List (Char × Flag) :=
  [('o', .parameter .output), ('n', .parameter .name), ('D', .parameter .define),
   ('I', .parameter .includePath), ('e', .parameter .engine), ('h', .switch .help),
   ('V', .switch .version)]

def stageWords : List (Text × Stage) :=
  [("full".toList, .full), ("input".toList, .wrapping), ("output".toList, .unwrapping)]

inductive Misuse where
  /-- An argument that means nothing here. -/
  | unknownArgument
  /-- A value that its parameter does not take, or none at all. -/
  | invalidValue
  /-- A second value, or a second switch, where one may stand. -/
  | argumentConflict
  /-- A value for a switch. -/
  | tooManyValues
  deriving DecidableEq, Repr

/-- Why reading ends before the arguments do. -/
inductive Stop where
  | misuse (misuse : Misuse)
  | help
  | version
  deriving DecidableEq, Repr

/-- What has been read and not yet been examined. -/
inductive Pending where
  | nothing
  /-- A parameter whose value has not come. -/
  | waiting (parameter : Parameter)
  /-- A parameter and its value. -/
  | valued (parameter : Parameter) (value : Text)
  /-- The path of the input. -/
  | input (path : Text)
  deriving DecidableEq, Repr

structure Reading where
  request : Request := {}
  pending : Pending := .nothing
  /-- A path has been given for the input. -/
  hasInput : Bool := false
  /-- Two hyphens have come, so all that follows are paths. -/
  onlyPaths : Bool := false
  deriving DecidableEq, Repr

/-- A part of a request that may be given once. -/
def once {α : Type} (current : Option α) (value : α) : Except Stop (Option α) :=
  if current.isSome then .error (.misuse .argumentConflict) else .ok (some value)

def nonEmpty (path : Text) : Except Stop Text :=
  if path.isEmpty then .error (.misuse .invalidValue) else .ok path

/-- A request with one more value. That a parameter is given twice is noticed before the value is
    looked at. -/
def accept (request : Request) (parameter : Parameter) (value : Text) : Except Stop Request :=
  match parameter with
  | .output => do
    let output ← once request.output value
    discard (nonEmpty value)
    pure { request with output }
  | .name => do pure { request with name := ← once request.name value }
  | .define => .ok { request with defines := request.defines ++ [value] }
  | .includePath => do
    pure { request with includePaths := request.includePaths ++ [← nonEmpty value] }
  | .engine => do pure { request with engine := ← once request.engine value }
  | .engineArg => .ok { request with engineArgs := request.engineArgs ++ [value] }
  | .stage =>
    if request.stage?.isSome then .error (.misuse .argumentConflict)
    else
      match stageWords.lookup value with
      | some stage => .ok { request with stage? := some stage }
      | none => .error (.misuse .invalidValue)

def settle (reading : Reading) : Except Stop Reading :=
  match reading.pending with
  | .nothing => .ok reading
  | .waiting _ => .error (.misuse .invalidValue)
  | .valued parameter value => do
    let request ← accept reading.request parameter value
    pure { reading with request, pending := .nothing }
  | .input path => do
    let request := { reading.request with input := some (← nonEmpty path) }
    pure { reading with request, pending := .nothing }

/-- Reads a parameter that has its value with it. -/
def takeValue (reading : Reading) (parameter : Parameter) (value : Text) : Except Stop Reading := do
  let reading ← settle reading
  let request ← accept reading.request parameter value
  pure { reading with request }

/-- Reads a parameter whose value is the next argument. -/
def awaitValue (reading : Reading) (parameter : Parameter) : Except Stop Reading := do
  let reading ← settle reading
  pure { reading with pending := .waiting parameter }

def turnOn (reading : Reading) (switch : Switch) : Except Stop Reading := do
  let reading ← settle reading
  let request := reading.request
  match switch with
  | .help => throw .help
  | .version => throw .version
  | .allowReserved =>
    if request.allowReserved then throw (.misuse .argumentConflict)
    pure { reading with request := { request with allowReserved := true } }
  | .printSample =>
    if request.printSample then throw (.misuse .argumentConflict)
    pure { reading with request := { request with printSample := true } }

/-- Reads an option that is spelled as a word, with the value after its equals sign if it has
    one. -/
def readLong (reading : Reading) (body : Text) : Except Stop Reading :=
  let word := body.takeWhile (· != '=')
  let attached := (body.dropWhile (· != '=')).tail?
  match longOptions.lookup word, attached with
  | none, _ => .error (.misuse .unknownArgument)
  | some (.switch _), some _ => .error (.misuse .tooManyValues)
  | some (.switch switch), none => turnOn reading switch
  | some (.parameter parameter), some value => takeValue reading parameter value
  | some (.parameter parameter), none => awaitValue reading parameter

/-- Reads options that are spelled as letters. The first parameter among them takes the rest as
    its value, less one equals sign in front. -/
def readShort (reading : Reading) : Text → Except Stop Reading
  | [] => .ok reading
  | letter :: rest =>
    match shortOptions.lookup letter with
    | none => .error (.misuse .unknownArgument)
    | some (.switch switch) => do readShort (← turnOn reading switch) rest
    | some (.parameter parameter) =>
      match rest with
      | [] => awaitValue reading parameter
      | '=' :: value => takeValue reading parameter value
      | value => takeValue reading parameter value

def readPath (reading : Reading) (path : Text) : Except Stop Reading := do
  if reading.hasInput then throw (.misuse .unknownArgument)
  let reading ← settle reading
  pure { reading with pending := .input path, hasInput := true }

/-- Reads one argument. Only an argument for the engine may begin with a hyphen where a value is
    awaited. -/
def readArgument (reading : Reading) (arg : Text) : Except Stop Reading :=
  if reading.onlyPaths then readPath reading arg
  else
    match reading.pending, arg with
    | .waiting .engineArg, _ => .ok { reading with pending := .valued .engineArg arg }
    | _, ['-', '-'] => .ok { reading with onlyPaths := true }
    | _, '-' :: '-' :: body => readLong reading body
    | _, '-' :: letter :: letters => readShort reading (letter :: letters)
    | .waiting parameter, _ => .ok { reading with pending := .valued parameter arg }
    | _, _ => readPath reading arg

/-- The request of a command line, given without the name of the program. -/
def parse (args : List Text) : Except Stop Request := do
  let reading ← args.foldlM readArgument {}
  pure (← settle reading).request

end HashTunnel.CommandLine
