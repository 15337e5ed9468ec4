import HashTunnel.Text.Blank
import HashTunnel.Tool.Shell.Grammar
import HashTunnel.Tool.Shell.Printf
import HashTunnel.Tool.Shell.Test

/-! # Running shell scripts

A script runs on a state: variables, arguments, what is left of the input and what has been
written where. `Shell.run` runs a command; `sh` is the program.
-/

namespace HashTunnel.Tool.Shell

inductive Sink where
  | out
  | err
  | nowhere
  | file (path : Text)
  /-- What is being collected, for a pipe or for an expansion. -/
  | collected (depth : Nat)
  deriving Repr, DecidableEq

structure State where
  name : Text
  args : List Text
  values : List (Text × Text) := []
  /-- The exit code of the last command. -/
  status : Nat := 0
  input : Text
  /-- What was written and where, the latest first. -/
  written : List (Sink × Text) := []
  /-- A failing command ends the script. -/
  strict : Bool := false

structure Setting (m : Type → Type) where
  files : Files m
  /-- The programs that can be called: what they do, and whether they read their input. -/
  program? : Text → Option ((args : List Text) → (stdin : Text) → m Output × Bool)
  sinks : List (Nat × Sink) := [(1, .out), (2, .err)]
  depth : Nat := 0
  /-- A failing command is one whose failing is asked for. -/
  tested : Bool := false

inductive Flow where
  | next
  | exit
  | leave (loops : Nat)
  | again (loops : Nat)
  deriving Repr, DecidableEq

inductive Expanded where
  /-- One part of a field. -/
  | whole (text : Text)
  /-- Parts of fields with blanks between them. -/
  | loose (text : Text)
  /-- Fields of their own. -/
  | fields (fields : List Text)
  deriving Repr

namespace State

/-- The value of a variable; an empty one if it is not set. -/
def valueOf? (state : State) (name : Text) : Option Text :=
  state.values.lookup name

def assign (state : State) (name value : Text) : State :=
  { state with values := (name, value) :: state.values.filter (·.1 != name) }

/-- The state after a command with the given exit code. -/
def ended (state : State) (status : Nat) : State :=
  { state with status }

def writtenTo (state : State) (sink : Sink) : Text :=
  (state.written.reverse.filter (·.1 == sink)).flatMap (·.2)

def parameter? (state : State) (name : Text) : Option Text :=
  match name with
  | ['?'] => some (Nat.toDigits 10 state.status)
  | ['#'] => some (Nat.toDigits 10 state.args.length)
  | ['$'] => some ['1']
  | ['-'] => some []
  | ['!'] => none
  | ['@'] | ['*'] => if state.args.isEmpty then none else some (spaced state.args)
  | ['0'] => some state.name
  | name =>
    match number? name with
    | some n => state.args[n - 1]?
    | none => state.valueOf? name

end State

/-- Holds of the characters that cut expansions into fields. -/
def isFieldBlank (c : Char) : Bool :=
  c == ' ' || c == '\t' || c == '\n'

/-- Fields that are being put together: those that are ready, last one first, and the one that has
    begun. -/
structure Fields where
  ready : List Text := []
  current : Option Text := none

def Fields.close (fields : Fields) : Fields :=
  match fields.current with
  | some text => ⟨text :: fields.ready, none⟩
  | none => fields

/-- The fields with more text in the one that has begun. -/
def Fields.extend (fields : Fields) (text : Text) : Fields :=
  { fields with current := some (fields.current.getD [] ++ text) }

def Fields.add (fields : Fields) : Expanded → Fields
  | .whole text => fields.extend text
  | .loose text =>
    let pieces := Text.splitWhere isFieldBlank text
    pieces.zipIdx.foldl (fun fields (piece, i) =>
      let fields := if i = 0 then fields else fields.close
      if piece.isEmpty then fields else fields.extend piece) fields
  | .fields [] => fields
  | .fields (first :: rest) =>
    rest.foldl (fun fields text => fields.close.extend text) (fields.extend first)

def fieldsOf (pieces : List Expanded) : List Text :=
  (pieces.foldl Fields.add {}).close.ready.reverse

/-- The text that pieces make up where no fields are cut. -/
def textOf (pieces : List Expanded) : Text :=
  pieces.flatMap fun
    | .whole text | .loose text => text
    | .fields fields => spaced fields

variable {m : Type → Type} [Monad m]

def write (setting : Setting m) (descriptor : Nat) (text : Text) (state : State) : m State := do
  if text.isEmpty then pure state
  else
    match setting.sinks.lookup descriptor with
    | none | some .nowhere => pure state
    | some (.file path) =>
      let path := Octets.toText path
      let before := match ← setting.files.read path with
        | .ok content => content
        | .error _ => []
      discard (setting.files.write path (before ++ Octets.toBytes text))
      pure state
    | some sink => pure { state with written := (sink, text) :: state.written }

def complain (setting : Setting m) (complaint : Text) (state : State) : m State :=
  write setting 2 (state.name ++ ": 1: ".toList ++ complaint ++ ['\n']) state

/-- Writes what a program left and takes over its exit code. -/
def report (setting : Setting m) (output : Output) (state : State) : m State := do
  let state ← write setting 1 output.out state
  let state ← write setting 2 output.err state
  pure (state.ended output.code)

/-- The setting and the state behind a redirection whose target has been expanded. The state alone
    if the redirection cannot be made. -/
def redirect (setting : Setting m) (state : State) (redirect : Redirect) (target : Text) :
    m (Option (Setting m) × State) := do
  let path := Octets.toText target
  let onto (sink : Sink) : Setting m :=
    { setting with sinks := (redirect.descriptor, sink) :: setting.sinks }
  match redirect.redirection with
  | .fromFile =>
    match ← setting.files.read path with
    | .ok content => pure (some setting, { state with input := Octets.ofBytes content })
    | .error error =>
      let reason := if error = .notFound then "No such file".toList else error.reason
      let state ← complain setting ("cannot open ".toList ++ target ++ ": ".toList ++ reason) state
      pure (none, state.ended 2)
  | .toFile | .behindFile =>
    let before ← if redirect.redirection = .behindFile then setting.files.read path
      else pure (.ok [])
    let content := match before with
      | .ok content => content
      | .error _ => []
    match ← setting.files.write path content with
    | .ok _ => pure (some (onto (.file target)), state)
    | .error error =>
      let reason :=
        if error = .notFound || error = .notDirectory then "Directory nonexistent".toList
        else error.reason
      let complaint := "cannot create ".toList ++ target ++ ": ".toList ++ reason
      let state ← complain setting complaint state
      pure (none, state.ended 2)
  | .duplicate =>
    match number? target with
    | some n => pure (some (onto ((setting.sinks.lookup n).getD .nowhere)), state)
    | none => pure (some (onto .nowhere), state)

/-- What `read` puts into the variables: a field for each one, and the rest for the last. -/
def readFields : List Text → Text → List (Text × Text)
  | [], _ => []
  | [name], text => [(name, (text.reverse.dropWhile isFieldBlank).reverse)]
  | name :: names, text =>
    let rest := text.dropWhile (!isFieldBlank ·)
    (name, text.takeWhile (!isFieldBlank ·)) :: readFields names (rest.dropWhile isFieldBlank)

def readLine (names : List Text) (state : State) : State :=
  let names := names.filter (· != "-r".toList)
  let names := if names.isEmpty then ["REPLY".toList] else names
  let line := state.input.takeWhile (· != '\n')
  let rest := state.input.drop line.length
  let assigned := (readFields names (line.dropWhile isFieldBlank)).foldl
    (fun state (name, value) => state.assign name value) state
  { assigned with input := rest.drop 1, status := if rest.isEmpty then 1 else 0 }

/-- Ends the script with the exit code of an argument, or of the last command. -/
def leave (setting : Setting m) (name : Text) (args : List Text) (state : State) :
    m (Flow × State) := do
  match args.head? with
  | none => pure (.exit, state)
  | some arg =>
    match number? arg with
    | some n => pure (.exit, state.ended (n % 256))
    | none =>
      let state ← complain setting (name ++ ": Illegal number: ".toList ++ arg) state
      pure (.exit, state.ended 2)

/-- The name and value that an argument of `export` or `local` assigns. -/
def assigned? (arg : Text) : Option (Text × Text) :=
  match arg.dropWhile (· != '=') with
  | _ :: value => some (arg.takeWhile (· != '='), value)
  | [] => none

/-- Runs a command that the shell knows by itself; nothing if it knows none of this name. -/
def builtin? (setting : Setting m) (name : Text) (args : List Text) (state : State) :
    Option (m (Flow × State)) :=
  let done (state : State) : m (Flow × State) := pure (.next, state)
  let loops : Nat := ((args.head?.bind number?).getD 1) - 1
  match String.ofList name with
  | ":" | "true" => some (done (state.ended 0))
  | "false" => some (done (state.ended 1))
  | "exit" | "return" => some (leave setting name args state)
  | "wait" | "umask" | "trap" | "cd" => some (done (state.ended 0))
  | "break" => some (pure (.leave loops, state.ended 0))
  | "continue" => some (pure (.again loops, state.ended 0))
  | "echo" =>
    let isOpen := args.head? == some "-n".toList
    let output := printArguments true (!isOpen) (if isOpen then args.drop 1 else args)
    some do done (← report setting output state)
  | "printf" =>
    let output := Printf.run args
    some do
      let err := (fullLines output.err).flatMap fun line => state.name ++ ": 1: ".toList ++ line
      done (← report setting { output with err } state)
  | "shift" =>
    let n := (args.head?.bind number?).getD 1
    if n ≤ state.args.length then some (done { state with args := state.args.drop n, status := 0 })
    else
      some do
        let state ← complain setting "shift: can't shift that many".toList state
        pure (.exit, state.ended 2)
  | "read" => some (done (readLine args state))
  | "export" | "local" | "readonly" =>
    let assigned := args.filterMap assigned?
    some (done (assigned.foldl (fun state (name, value) => state.assign name value) (state.ended 0)))
  | "unset" =>
    some (done { state with values := state.values.filter (!args.contains ·.1), status := 0 })
  | "test" | "[" =>
    let refuse (complaint : Text) : m (Flow × State) := do
      done ((← complain setting (name ++ ": ".toList ++ complaint) state).ended 2)
    let operands := if name = ['['] then args.dropLast else args
    some do
      if name = ['['] && args.getLast? != some [']'] then refuse "missing ]".toList
      else
        match Condition.read (operands.length + 1) operands with
        | .error complaint => refuse complaint
        | .ok condition => done (state.ended (if ← condition.holds setting.files then 0 else 1))
  | _ => none

/-- The parts of what stands between the braces of a parameter: its name, the operator behind it
    and the operator's word. -/
def splitParameter (body : Text) : Text × Text × Text :=
  let name := match body with
    | c :: _ =>
      if isNameStart c then body.takeWhile isNameChar
      else if c.isDigit then body.takeWhile Char.isDigit
      else [c]
    | [] => []
  let rest := body.drop name.length
  let operators :=
    [":-", ":=", ":+", ":?", "##", "%%", "-", "=", "+", "?", "#", "%"].map String.toList
  match operators.find? (·.isPrefixOf rest) with
  | some operator => (name, operator, rest.drop operator.length)
  | none => (name, [], rest)

structure Options where
  /-- The first operand is a script. -/
  command : Bool := false
  strict : Bool := false

/-- Reads the options of the program. Gives the operands behind them. -/
def readOptions : Options → List Text → Except Text (Options × List Text)
  | options, [] => .ok (options, [])
  | options, arg :: rest =>
    match arg with
    | ['-'] | ['-', '-'] => .ok (options, rest)
    | '-' :: letters =>
      let add (options : Options) (c : Char) : Except Text Options :=
        if c = 'c' then .ok { options with command := true }
        else if c = 'e' then .ok { options with strict := true }
        else if "abCEfhiIlmnsuvVx".toList.contains c then .ok options
        else .error ("Illegal option -".toList ++ [c])
      match letters.foldlM add options with
      | .ok options => readOptions options rest
      | .error complaint => .error complaint
    | _ => .ok (options, arg :: rest)

mutual

def expand : Nat → Setting m → Word → State → m (Except SyntaxError (List Expanded) × State)
  | 0, _, _, state => pure (.error unterminated, state)
  | _ + 1, _, [], state => pure (.ok [], state)
  | fuel + 1, setting, piece :: rest, state => do
    let mark (quoted : Bool) (text : Text) : Expanded := if quoted then .whole text else .loose text
    let (first, state) : Except SyntaxError Expanded × State ← match piece with
      | .text text _ => pure (.ok (.whole text), state)
      | .parameter body quoted =>
        if body = ['@'] && quoted then pure (.ok (.fields state.args), state)
        else do
          let (text, state) ← parameter fuel setting body state
          pure (text.map (mark quoted), state)
      | .output script quoted => do
        let depth := setting.depth + 1
        let inner := { setting with depth, sinks := (1, .collected depth) :: setting.sinks }
        let (_, after) ← script? fuel inner script state
        let sink := Sink.collected inner.depth
        let text := ((after.writtenTo sink).reverse.dropWhile (· == '\n')).reverse
        pure (.ok (mark quoted text),
          { state with
            input := after.input, status := after.status,
            written := after.written.filter (·.1 != sink) })
      | .arithmetic expression quoted =>
        match quotedWord expression with
        | .error complaint => pure (.error complaint, state)
        | .ok word => do
          let (pieces, state) ← expand fuel setting word state
          let value (name : Text) : Int := Arithmetic.ofText ((state.valueOf? name).getD [])
          pure (pieces.bind fun pieces =>
            (Arithmetic.evaluate value (textOf pieces)).map fun n =>
              mark quoted (Arithmetic.print n),
            state)
    match first with
    | .error complaint => pure (.error complaint, state)
    | .ok first => do
      let (more, state) ← expand fuel setting rest state
      pure (more.map (first :: ·), state)

/-- The value of a parameter with the operator behind it. -/
def parameter : Nat → Setting m → Text → State → m (Except SyntaxError Text × State)
  | 0, _, _, state => pure (.error unterminated, state)
  | fuel + 1, setting, body, state => do
    match body with
    | '#' :: c :: rest =>
      pure (.ok (Nat.toDigits 10 ((state.parameter? (c :: rest)).getD []).length), state)
    | body =>
      let (name, operator, argument) := splitParameter body
      let value := state.parameter? name
      let given := match operator with
        | ':' :: _ => value.filter fun text : Text => !text.isEmpty
        | _ => value
      match quotedWord argument with
      | .error complaint => pure (.error complaint, state)
      | .ok word =>
        let expanded : m (Except SyntaxError Text × State) := do
          let (pieces, state) ← expand fuel setting word state
          pure (pieces.map textOf, state)
        match String.ofList operator, given with
        | "", _ =>
          if argument.isEmpty then pure (.ok (value.getD []), state)
          else pure (.error "Bad substitution", state)
        | ":-", none | "-", none => expanded
        | ":+", some _ | "+", some _ => expanded
        | ":+", none | "+", none => pure (.ok [], state)
        | ":=", none | "=", none => do
          match ← expanded with
          | (.ok text, state) => pure (.ok text, state.assign name text)
          | (.error complaint, state) => pure (.error complaint, state)
        | ":?", none | "?", none => do
          match ← expanded with
          | (.ok text, state) =>
            let reason := if !text.isEmpty then text
              else if operator == ['?'] then "parameter not set".toList
              else "parameter not set or null".toList
            pure (.error (String.ofList (name ++ ": ".toList ++ reason)), state)
          | (.error complaint, state) => pure (.error complaint, state)
        | "#", _ | "##", _ => do
          let (pattern, state) ← expanded
          let longest : Bool := operator == ['#', '#']
          pure (pattern.map fun p => Wildcard.dropFront p longest (value.getD []), state)
        | "%", _ | "%%", _ => do
          let (pattern, state) ← expanded
          let longest : Bool := operator == ['%', '%']
          pure (pattern.map fun p => Wildcard.dropBack p longest (value.getD []), state)
        | _, _ => pure (.ok (value.getD []), state)

/-- Runs a script. A script that cannot be read ends with the code 2. -/
def script? : Nat → Setting m → Text → State → m (Flow × State)
  | 0, _, _, state => pure (.exit, state.ended 2)
  | fuel + 1, setting, script, state =>
    match parse script with
    | .ok command => run fuel setting command state
    | .error complaint => do
      let state ← complain setting ("Syntax error: ".toList ++ complaint.toList) state
      pure (.exit, state.ended 2)

/-- Expands words to fields, one word after the other. -/
def expandAll : Nat → Setting m → List Word → State → m (Except SyntaxError (List Text) × State)
  | 0, _, _, state => pure (.error unterminated, state)
  | _ + 1, _, [], state => pure (.ok [], state)
  | fuel + 1, setting, word :: rest, state => do
    let (pieces, state) ← expand fuel setting word state
    match pieces with
    | .error complaint => pure (.error complaint, state)
    | .ok pieces => do
      let (more, state) ← expandAll fuel setting rest state
      pure (more.map (fieldsOf pieces ++ ·), state)

/-- Makes redirections one after the other. The setting is missing if one cannot be made. -/
def redirectAll : Nat → Setting m → List Redirect → State → m (Option (Setting m) × State)
  | 0, _, _, state => pure (none, state)
  | _ + 1, setting, [], state => pure (some setting, state)
  | fuel + 1, setting, r :: rest, state => do
    let (pieces, state) ← expand fuel setting r.target state
    match pieces with
    | .error complaint => do
      let state ← complain setting complaint.toList state
      pure (none, state.ended 2)
    | .ok pieces => do
      let (setting, state) ← redirect setting state r (textOf pieces)
      match setting with
      | none => pure (none, state)
      | some setting => redirectAll fuel setting rest state

def assignAll : Nat → Setting m → List (Text × Word) → State → m (Except SyntaxError Unit × State)
  | 0, _, _, state => pure (.error unterminated, state)
  | _ + 1, _, [], state => pure (.ok (), state)
  | fuel + 1, setting, (name, word) :: rest, state => do
    let (pieces, state) ← expand fuel setting word state
    match pieces with
    | .error complaint => pure (.error complaint, state)
    | .ok pieces => assignAll fuel setting rest (state.assign name (textOf pieces))

/-- Runs a loop while its condition holds, or until it does. `last` is the exit code of the body. -/
def runLoop : Nat → Setting m → Command → Command → Bool → Nat → State → m (Flow × State)
  | 0, _, _, _, _, _, state => pure (.exit, state.ended 124)
  | fuel + 1, setting, condition, body, untilTrue, last, state => do
    let (flow, state) ← run fuel { setting with tested := true } condition state
    match flow with
    | .next =>
      if (state.status == 0) == untilTrue then pure (.next, state.ended last)
      else do
        let (flow, state) ← run fuel setting body state
        match flow with
        | .next | .again 0 => runLoop fuel setting condition body untilTrue state.status state
        | .leave 0 => pure (.next, state)
        | .leave (n + 1) => pure (.leave n, state)
        | .again (n + 1) => pure (.again n, state)
        | .exit => pure (.exit, state)
    | flow => pure (flow, state)

def runEach : Nat → Setting m → Text → List Text → Command → State → m (Flow × State)
  | 0, _, _, _, _, state => pure (.exit, state.ended 124)
  | _ + 1, _, _, [], _, state => pure (.next, state)
  | fuel + 1, setting, name, field :: rest, body, state => do
    let (flow, state) ← run fuel setting body (state.assign name field)
    match flow with
    | .next | .again 0 => runEach fuel setting name rest body state
    | .leave 0 => pure (.next, state)
    | .leave (n + 1) => pure (.leave n, state)
    | .again (n + 1) => pure (.again n, state)
    | .exit => pure (.exit, state)

/-- Runs the first branch one of whose patterns matches. -/
def runChoice : Nat → Setting m → Text → List (List Word × Command) → State → m (Flow × State)
  | 0, _, _, _, state => pure (.exit, state.ended 124)
  | _ + 1, _, _, [], state => pure (.next, state.ended 0)
  | fuel + 1, setting, subject, (patterns, body) :: rest, state => do
    let (fields, state) ← expandAll fuel setting patterns state
    match fields with
    | .error complaint => do
      let state ← complain setting complaint.toList state
      pure (.exit, state.ended 2)
    | .ok fields =>
      if fields.any (Wildcard.isMatch · subject) then run fuel setting body state
      else runChoice fuel setting subject rest state

def call : Nat → Setting m → List Text → State → m (Flow × State)
  | 0, _, _, state => pure (.exit, state.ended 124)
  | _ + 1, _, [], state => pure (.next, state)
  | fuel + 1, setting, name :: args, state => do
    match String.ofList name with
    | "eval" => script? fuel setting (spaced args) (state.ended 0)
    | "exec" =>
      if args.isEmpty then pure (.next, state)
      else do
        let (_, state) ← call fuel setting args state
        pure (.exit, state)
    | "set" =>
      match args with
      | ['-', '-'] :: rest => pure (.next, { state with args := rest, status := 0 })
      | option :: rest =>
        let strict := match option with
          | '-' :: letters => state.strict || letters.contains 'e'
          | '+' :: letters => state.strict && !letters.contains 'e'
          | _ => state.strict
        let isOption := option.head?.any ['-', '+'].contains
        let args := if isOption then rest else option :: rest
        pure (.next,
          { state with strict, status := 0, args := if args.isEmpty then state.args else args })
      | [] => pure (.next, state.ended 0)
    | "command" => call fuel setting args state
    | "sh" => do
      let (output, consumed) ← start fuel setting.files setting.program? args state.input
      let state ← report setting output state
      pure (.next, if consumed then { state with input := [] } else state)
    | _ =>
      match builtin? setting name args state with
      | some action => action
      | none =>
        match setting.program? name with
        | some program => do
          let (action, consumes) := program args state.input
          let state ← report setting (← action) state
          pure (.next, if consumes then { state with input := [] } else state)
        | none => do
          let state ← complain setting (name ++ ": not found".toList) state
          pure (.next, state.ended 127)

/-- Runs a command in redirections. What is read from a file does not touch the input. -/
def runRedirected : Nat → Setting m → List Redirect → (Setting m → State → m (Flow × State)) →
    State → m (Flow × State)
  | 0, _, _, _, state => pure (.exit, state.ended 124)
  | fuel + 1, setting, redirects, action, state => do
    let (inner, redirected) ← redirectAll fuel setting redirects state
    match inner with
    | none => pure (.next, { redirected with input := state.input })
    | some inner => do
      let (flow, after) ← action inner redirected
      let reads := redirects.any (·.redirection == .fromFile)
      pure (flow, if reads then { after with input := state.input } else after)

def run : Nat → Setting m → Command → State → m (Flow × State)
  | 0, _, _, state => pure (.exit, state.ended 124)
  | fuel + 1, setting, command, state => do
    let relaxed := { setting with tested := true }
    let checked (result : Flow × State) : Flow × State :=
      if result.2.strict && !setting.tested && result.1 = .next && result.2.status != 0 then
        (.exit, result.2)
      else result
    match command with
    | .nothing => pure (.next, state)
    | .simple assignments words redirects => do
      let (fields, state) ← expandAll fuel setting words state
      match fields with
      | .error complaint => do
        let state ← complain setting complaint.toList state
        pure (.exit, state.ended 2)
      | .ok fields => do
        let action (inner : Setting m) (before : State) : m (Flow × State) := do
          let (assigned, after) ← assignAll fuel inner assignments before
          match assigned with
          | .error complaint => do
            let state ← complain setting complaint.toList after
            pure (.exit, state.ended 2)
          | .ok () =>
            if fields.isEmpty then
              let prints := assignments.any fun (_, word) => word.any fun
                | .output _ _ => true
                | _ => false
              pure (.next, if prints then after else after.ended 0)
            else do
              let (flow, state) ← call fuel inner fields after
              pure (flow,
                if assignments.isEmpty then state
                else { state with values := before.values })
        pure (checked (← runRedirected fuel setting redirects action state))
    | .pipe left right => do
      let depth := setting.depth + 1
      let sink := Sink.collected depth
      let inner := { relaxed with depth, sinks := (1, sink) :: setting.sinks }
      let (_, after) ← run fuel inner left state
      let piped := { state with
        input := after.writtenTo sink, status := 0, written := after.written.filter (·.1 != sink) }
      let (_, last) ← run fuel setting right piped
      pure (checked (.next,
        { state with input := after.input, status := last.status, written := last.written }))
    | .negated body => do
      let (flow, state) ← run fuel relaxed body state
      pure (flow, if flow = .next then state.ended (if state.status = 0 then 1 else 0) else state)
    | .both first second => do
      let (flow, state) ← run fuel relaxed first state
      if flow = .next && state.status = 0 then run fuel setting second state else pure (flow, state)
    | .either first second => do
      let (flow, state) ← run fuel relaxed first state
      if flow = .next && state.status != 0 then run fuel setting second state
      else pure (flow, state)
    | .sequence first second => do
      let (flow, state) ← run fuel setting first state
      if flow = .next then run fuel setting second state else pure (flow, state)
    | .subshell body => do
      let (_, after) ← run fuel setting body state
      pure (checked (.next, { after with values := state.values, args := state.args }))
    | .redirected body redirects =>
      runRedirected fuel setting redirects (fun inner state => run fuel inner body state) state
    | .conditional condition consequent alternative => do
      let (flow, state) ← run fuel relaxed condition state
      if flow != .next then pure (flow, state)
      else if state.status = 0 then run fuel setting consequent state
      else run fuel setting alternative (state.ended 0)
    | .loop condition body untilTrue => runLoop fuel setting condition body untilTrue 0 state
    | .forEach name words body => do
      let (fields, state) ← match words with
        | some words => expandAll fuel setting words state
        | none => pure (.ok state.args, state)
      match fields with
      | .error complaint => do
        let state ← complain setting complaint.toList state
        pure (.exit, state.ended 2)
      | .ok fields => runEach fuel setting name fields body (state.ended 0)
    | .choice subject branches => do
      let (pieces, state) ← expand fuel setting subject state
      match pieces with
      | .error complaint => do
        let state ← complain setting complaint.toList state
        pure (.exit, state.ended 2)
      | .ok pieces => runChoice fuel setting (textOf pieces) branches state

/-- Runs the program itself on its arguments. Tells also whether it may have read its input. -/
def start : Nat → Files m →
    (Text → Option ((args : List Text) → (stdin : Text) → m Output × Bool)) →
    List Text → Text → m (Output × Bool)
  | 0, _, _, _, _ => pure ({ code := 124 }, false)
  | fuel + 1, files, program?, args, stdin => do
    let refuse (complaint : Text) : m (Output × Bool) :=
      pure (.complain "sh: 0" 2 complaint, false)
    match readOptions {} args with
    | .error complaint => refuse complaint
    | .ok (options, operands) => do
      let setting : Setting m := { files, program? }
      let go (script name : Text) (args : List Text) (input : Text) : m (Output × Bool) := do
        let (_, state) ← script? fuel setting script { name, args, input, strict := options.strict }
        pure (⟨state.status, state.writtenTo .out, state.writtenTo .err⟩, input != state.input)
      match options.command, operands with
      | true, [] => refuse "-c requires an argument".toList
      | true, script :: rest => go script (rest.head?.getD "sh".toList) (rest.drop 1) stdin
      | false, [] => do
        let (output, _) ← go stdin "sh".toList [] []
        pure (output, true)
      | false, path :: rest =>
        match ← files.read (Octets.toText path) with
        | .ok content => go (Octets.ofBytes content) path rest stdin
        | .error error =>
          let reason := if error = .notFound then "No such file".toList else error.reason
          refuse ("cannot open ".toList ++ path ++ ": ".toList ++ reason)

end

def depthLimit : Nat := 1000000

end Shell

/-- The program `sh`, which can call other programs. -/
def sh {m : Type → Type} [Monad m] (files : Files m)
    (program? : Text → Option ((args : List Text) → (stdin : Text) → m Output × Bool))
    (args : List Text) (stdin : Text) : m Output := do
  pure (← Shell.start Shell.depthLimit files program? args stdin).1

end HashTunnel.Tool
