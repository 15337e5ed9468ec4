import HashTunnel.Tool.Sed.Script

/-! # The stream editor

The editor reads one line after the other into its pattern space, runs its script on it and prints
it. `Machine` is what it keeps between commands, `Sed.run` runs a script and `sed` is the program.
-/

namespace HashTunnel.Tool.Sed

/-- A line without its line feed. It is open if it is the last one and has none. -/
structure Line where
  text : Text := []
  isOpen : Bool := false

/-- A line with another one behind it, which decides whether the whole is open. -/
def Line.append (first second : Line) : Line :=
  ⟨first.text ++ '\n' :: second.text, second.isOpen⟩

inductive Until where
  | line (number : Nat)
  /-- The first line from a number on that the command sees. -/
  | lineFrom (number : Nat)
  | address (address : Address)
  /-- It has ended, and no other one begins. -/
  | ended

structure Machine where
  line : Line := {}
  hold : Line := {}
  number : Nat := 0
  /-- The lines to be read. -/
  rest : List Line
  /-- What has been written, the latest first. -/
  written : List Text := []
  /-- The last line written is open. -/
  writtenOpen : Bool := false
  /-- What to write before the next line is read. -/
  queue : List Text := []
  substituted : Bool := false
  lastPattern : Option Pattern := none
  /-- The ranges that have begun, by the commands that they select lines for. -/
  ranges : List (Nat × Until) := []

def linesOf (text : Text) : List Line :=
  (fullLines text).map fun line =>
    if line.getLast? = some '\n' then ⟨line.dropLast, false⟩ else ⟨line, true⟩

namespace Machine

/-- Writes a line. An open line before it is ended first. -/
def write (machine : Machine) (line : Line) : Machine :=
  { machine with
    written := ((if machine.writtenOpen then ['\n'] else []) ++ line.text ++
      (if line.isOpen then [] else ['\n'])) :: machine.written,
    writtenOpen := line.isOpen }

def endLine (machine : Machine) : Machine :=
  if machine.writtenOpen then
    { machine with written := ['\n'] :: machine.written, writtenOpen := false }
  else machine

def writeText (machine : Machine) (text : Text) : Machine :=
  if text.isEmpty then machine.endLine else machine.write ⟨text.dropLast, false⟩

def flush (machine : Machine) : Machine :=
  machine.queue.foldl writeText { machine with queue := [] }

def output (machine : Machine) : Text :=
  machine.written.reverse.flatten

/-- Reads the next line behind what `before` makes of the present one. -/
def read? (machine : Machine) (before : Text) : Option Machine :=
  match machine.rest with
  | [] => none
  | line :: rest =>
    some { machine with
      line := ⟨before ++ line.text, line.isOpen⟩, number := machine.number + 1, rest }

def patternOf (machine : Machine) (search : Search) : Pattern :=
  (search.pattern <|> machine.lastPattern).getD .empty

def matchesAddress (machine : Machine) : Address → Bool × Machine
  | .line number => (machine.number == number, machine)
  | .last => (machine.rest.isEmpty, machine)
  | .every first step =>
    (if step = 0 then machine.number == first
      else first ≤ machine.number && (machine.number - first) % step == 0, machine)
  | .found search =>
    let pattern := machine.patternOf search
    (pattern.occursIn search.ignoreCase machine.line.text,
      { machine with lastPattern := some pattern })

/-- The editor without the range of a command. A range that begins at a line's number does not
    begin again. -/
def endRange (machine : Machine) (command : Command) : Machine :=
  let others := machine.ranges.filter (·.1 != command.index)
  match command.selection.first with
  | some (.line _) => { machine with ranges := (command.index, .ended) :: others }
  | _ => { machine with ranges := others }

/-- The last line of a range that begins now, or what it ends at. -/
def limitOf (machine : Machine) : RangeEnd → Until
  | .after count => .lineFrom (machine.number + count)
  | .multiple step => .lineFrom (if step = 0 then 0 else (machine.number + step - 1) / step * step)
  | .address (.line number) => .line number
  | .address address => .address address

/-- The editor in a range that begins, unless the range has one line only. -/
def beginRange (machine : Machine) (command : Command) (bound : RangeEnd) : Machine :=
  let limit := machine.limitOf bound
  let isShort : Bool := match limit with
    | .line number | .lineFrom number => number ≤ machine.number
    | .address .last => machine.rest.isEmpty
    | .address _ | .ended => false
  if isShort then machine.endRange command
  else { machine with ranges := (command.index, limit) :: machine.ranges }

/-- Whether the line is one that a command is for, before a negation. A range from a line's number
    on begins with the first line from there that the command sees. -/
def selects (machine : Machine) (command : Command) : Bool × Machine :=
  match command.selection.first, command.selection.second with
  | none, _ => (true, machine)
  | some first, none => machine.matchesAddress first
  | some first, some bound =>
    match machine.ranges.lookup command.index, first with
    | some .ended, _ => (false, machine)
    | some (.line number), _ =>
      (machine.number ≤ number,
        if number ≤ machine.number then machine.endRange command else machine)
    | some (.lineFrom number), _ =>
      (true, if number ≤ machine.number then machine.endRange command else machine)
    | some (.address address), _ =>
      let (ends, machine) := machine.matchesAddress address
      (true, if ends then machine.endRange command else machine)
    | none, .line number =>
      if machine.number < number then (false, machine)
      else
        let within : Bool := match machine.limitOf bound with
          | .line last => machine.number ≤ last
          | _ => true
        (within || machine.number == number, machine.beginRange command bound)
    | none, first =>
      let (begins, machine) := machine.matchesAddress first
      (begins, if begins then machine.beginRange command bound else machine)

/-- Holds while a range of a command's lines goes on. -/
def isInRange (machine : Machine) (command : Command) : Bool :=
  match machine.ranges.lookup command.index with
  | none | some .ended => false
  | some _ => true

end Machine

/-- A text with its case changed, where `next` changes the first character only. -/
def changeCase (lasting next : Casing) (text : Text) : Text :=
  let change (casing : Casing) (c : Char) : Char := match casing with
    | .upper | .upperNext => c.toUpper
    | .lower | .lowerNext => c.toLower
    | .plain => c
  match text.map (change lasting), text with
  | first :: rest, plain :: _ => (if next = .plain then first else change next plain) :: rest
  | changed, _ => changed

/-- What pieces of a replacement put in for a match. -/
def expandPieces (groups : List (Nat × Text)) : Casing → Casing → List Piece → Text
  | _, _, [] => []
  | lasting, next, piece :: rest =>
    let put (text : Text) : Text :=
      changeCase lasting next text ++
        expandPieces groups lasting (if text.isEmpty then next else .plain) rest
    match piece with
    | .text plain => put plain
    | .group number => put ((groups.lookup number).getD [])
    | .casing casing =>
      if casing = .upperNext || casing = .lowerNext then expandPieces groups lasting casing rest
      else expandPieces groups casing .plain rest

/-- The text behind a place after a substitution, and whether anything was replaced. `count`
    matches have been passed, and the last one ended at `last`. -/
def substituteFrom (substitution : Substitution) (pattern : Pattern) :
    Nat → Nat → Option Nat → Pattern.Place → Text × Bool
  | 0, _, _, place => (place.ahead, false)
  | fuel + 1, count, last, place =>
    match pattern.find substitution.search.ignoreCase place with
    | none => (place.ahead, false)
    | some (start, stop) =>
      let before := place.ahead.take (start.position - place.position)
      let isEmpty := start.position == stop.position
      let onward (count : Nat) (put : Text) (replaced : Bool) : Text × Bool :=
        if isEmpty then
          match stop.ahead with
          | [] => (before ++ put, replaced)
          | c :: _ =>
            let (more, again) := substituteFrom substitution pattern fuel count last stop.advance
            (before ++ put ++ c :: more, replaced || again)
        else
          let last := some stop.position
          let (more, again) := substituteFrom substitution pattern fuel count last stop
          (before ++ put ++ more, replaced || again)
      if isEmpty && last == some start.position then onward count [] false
      else
        let matched := start.ahead.take (stop.position - start.position)
        let put := expandPieces ((0, matched) :: stop.groups) .plain .plain substitution.replacement
        if count + 1 < substitution.occurrence then onward (count + 1) matched false
        else if substitution.global then onward (count + 1) put true
        else (before ++ put ++ stop.ahead, true)

def Machine.substitute (machine : Machine) (substitution : Substitution) : Machine :=
  let pattern := machine.patternOf substitution.search
  let text := machine.line.text
  let machine := { machine with lastPattern := some pattern }
  match substituteFrom substitution pattern (2 * text.length + 2) 0 none ⟨0, none, text, []⟩ with
  | (_, false) => machine
  | (text, true) =>
    let machine := { machine with line := { machine.line with text }, substituted := true }
    if substitution.print then machine.write machine.line else machine

/-- The commands behind the end of a block that has begun. -/
def afterBlock : Nat → List Command → List Command
  | _, [] => []
  | depth, command :: rest =>
    match command.action with
    | .openBlock => afterBlock (depth + 1) rest
    | .closeBlock => if depth = 0 then rest else afterBlock (depth - 1) rest
    | _ => afterBlock depth rest

/-- The commands behind a label, or none for the end of the script. -/
def fromLabel (program : List Command) (name : Text) : List Command :=
  if name.isEmpty then []
  else
    (program.dropWhile fun command =>
      match command.action with
      | .label label => label != name
      | _ => true).drop 1

inductive Next where
  | go (commands : List Command)
  /-- The end of the script: print the line and read the next one. -/
  | endCycle
  /-- Read the next line and print nothing. -/
  | newCycle
  /-- Run the script again on what is left of the line. -/
  | sameLine
  /-- End as at the end of the input. -/
  | stop
  /-- End at once. -/
  | leave (code : Nat)

def perform (program : List Command) (quiet : Bool) (command : Command) (rest : List Command)
    (machine : Machine) : Next × Machine :=
  let line := machine.line
  let firstLine := line.text.takeWhile (· != '\n')
  match command.action with
  | .openBlock | .closeBlock | .label _ => (.go rest, machine)
  | .printNumber => (.go rest, machine.write ⟨Nat.toDigits 10 machine.number, false⟩)
  | .appendText text => (.go rest, { machine with queue := machine.queue ++ [text] })
  | .insertText text => (.go rest, machine.writeText text)
  | .changeText text =>
    (.newCycle, if machine.isInRange command then machine else machine.writeText text)
  | .branch label => (.go (fromLabel program label), machine)
  | .branchIfSubstituted label =>
    if machine.substituted then
      (.go (fromLabel program label), { machine with substituted := false })
    else (.go rest, machine)
  | .branchUnlessSubstituted label =>
    if machine.substituted then (.go rest, { machine with substituted := false })
    else (.go (fromLabel program label), machine)
  | .delete => (.newCycle, machine)
  | .deleteFirstLine =>
    if line.text.contains '\n' then
      let text := line.text.drop (firstLine.length + 1)
      (.sameLine, { machine with line := { line with text } })
    else (.newCycle, machine)
  | .copyFromHold => (.go rest, { machine with line := machine.hold })
  | .appendFromHold =>
    (.go rest, { machine with line := line.append machine.hold })
  | .copyToHold => (.go rest, { machine with hold := line })
  | .appendToHold =>
    (.go rest, { machine with hold := machine.hold.append line })
  | .exchange => (.go rest, { machine with line := machine.hold, hold := line })
  | .next =>
    if machine.rest.isEmpty then (.stop, machine)
    else
      let machine := (if quiet then machine else machine.write line).flush
      (.go rest, (machine.read? []).getD machine)
  | .appendNext =>
    if machine.rest.isEmpty then (.stop, machine)
    else
      let machine := machine.flush
      (.go rest, (machine.read? (line.text ++ ['\n'])).getD machine)
  | .print => (.go rest, machine.write line)
  | .printFirstLine => (.go rest, machine.write ⟨firstLine, line.isOpen && firstLine == line.text⟩)
  | .printFileName => (.go rest, machine.write ⟨['-'], false⟩)
  | .empty => (.go rest, { machine with line := { line with text := [] } })
  | .quit code true => (.leave code, machine)
  | .quit code false =>
    (.leave code, ((if quiet then machine else machine.write line).flush).endLine)
  | .substitute substitution => (.go rest, machine.substitute substitution)
  | .transliterate pairs =>
    (.go rest,
      { machine with line := { line with text := line.text.map fun c => (pairs.lookup c).getD c } })

def Machine.finish (machine : Machine) (quiet : Bool) : Machine :=
  (if quiet then machine else machine.write machine.line).flush

/-- The editor with the next line, or none if there is none. -/
def Machine.advance? (machine : Machine) : Option Machine :=
  ({ machine with substituted := false }).read? []

/-- Runs the commands, and then the whole script on every further line. Gives the exit code. -/
def runFrom (program : List Command) (quiet : Bool) : Nat → List Command → Machine → Nat × Machine
  | 0, _, machine => (4, machine)
  | fuel + 1, commands, machine =>
    let onward (machine : Machine) : Nat × Machine :=
      match machine.advance? with
      | none => (0, machine)
      | some machine => runFrom program quiet fuel program machine
    match commands with
    | [] => onward (machine.finish quiet)
    | command :: rest =>
      let (selected, machine) := machine.selects command
      if selected == command.selection.negated then
        match command.action with
        | .openBlock => runFrom program quiet fuel (afterBlock 0 rest) machine
        | _ => runFrom program quiet fuel rest machine
      else
        match perform program quiet command rest machine with
        | (.go rest, machine) => runFrom program quiet fuel rest machine
        | (.endCycle, machine) => onward (machine.finish quiet)
        | (.newCycle, machine) => onward machine.flush
        | (.sameLine, machine) => runFrom program quiet fuel program machine.flush
        | (.stop, machine) => (0, machine.finish quiet)
        | (.leave code, machine) => (code, machine)

def rangesAtStart (program : List Command) : List (Nat × Until) :=
  program.filterMap fun command =>
    match command.selection.first, command.selection.second with
    | some (.line 0), some (.address address) => some (command.index, .address address)
    | _, _ => none

def commandLimit : Nat := 100000000

def run (program : List Command) (quiet : Bool) (text : Text) : Output :=
  let machine : Machine := { rest := linesOf text, ranges := rangesAtStart program }
  match machine.advance? with
  | none => {}
  | some machine =>
    let (code, machine) := runFrom program quiet commandLimit program machine
    { code, out := machine.output }

structure Options where
  quiet : Bool := false
  extended : Bool := false
  scripts : List Text := []
  operands : List Text := []

/-- The complaint about a letter that is no option. -/
def usage (complaint : Text) : Output :=
  { code := 1,
    err := complaint ++
      "Usage: sed [OPTION]... \x7bscript-only-if-no-other-script\x7d [input-file]...\n".toList }

/-- Reads letters after one hyphen. The number is that of the arguments used besides. -/
def readLetters (options : Options) (next : Option Text) : Text → Except Output (Options × Nat)
  | [] => .ok (options, 0)
  | letter :: rest =>
    match letter with
    | 'n' => readLetters { options with quiet := true } next rest
    | 'E' | 'r' => readLetters { options with extended := true } next rest
    | 's' | 'u' => readLetters options next rest
    | 'e' =>
      match rest, next with
      | [], some script => .ok ({ options with scripts := options.scripts ++ [script] }, 1)
      | [], none => .error (usage "sed: option requires an argument -- 'e'\n".toList)
      | script, _ => .ok ({ options with scripts := options.scripts ++ [script] }, 0)
    | _ => .error (usage ("sed: invalid option -- '".toList ++ letter :: "'\n".toList))

def readWord (options : Options) (word : Text) : Except Output Options :=
  let value := (word.dropWhile (· != '=')).drop 1
  match String.ofList (word.takeWhile (· != '=')) with
  | "--quiet" | "--silent" => .ok { options with quiet := true }
  | "--regexp-extended" => .ok { options with extended := true }
  | "--expression" => .ok { options with scripts := options.scripts ++ [value] }
  | "--separate" | "--unbuffered" | "--posix" => .ok options
  | _ => .error (usage ("sed: unrecognized option '".toList ++ word ++ "'\n".toList))

/-- Reads the arguments, of which the first `skip` are used up. -/
def readArguments : Nat → Options → List Text → Except Output Options
  | _, options, [] => .ok options
  | skip + 1, options, _ :: rest => readArguments skip options rest
  | 0, options, arg :: rest =>
    match arg with
    | ['-', '-'] => .ok { options with operands := options.operands ++ rest }
    | '-' :: '-' :: _ => do readArguments 0 (← readWord options arg) rest
    | '-' :: letter :: letters => do
      let (options, used) ← readLetters options rest.head? (letter :: letters)
      readArguments used options rest
    | _ => readArguments 0 { options with operands := options.operands ++ [arg] } rest

/-- The complaint about a fault: in which script it is, and after how many characters it shows. -/
def refuse (scripts : List Text) (fault : Fault) : Output :=
  let place (position : Nat) : Nat × Nat :=
    scripts.foldl (fun (found, left) script =>
      if left ≤ script.length || found = scripts.length then (found, left)
      else (found + 1, left - (script.length + 1))) (1, position)
  let (expression, position) := match fault.flaw with
    | .openBlock => (1, 0)
    | _ => place ((Text.joinWith '\n' scripts).length - fault.rest.length)
  .complain "sed" 1 ("-e expression #".toList ++ Nat.toDigits 10 expression ++ ", char ".toList ++
    Nat.toDigits 10 position ++ ": ".toList ++ fault.flaw.message)

/-- The content of the operands one after the other, and the complaints about those that cannot be
    read. -/
def readInput {m : Type → Type} [Monad m] (files : Files m) (stdin : Text) (operands : List Text) :
    m Output :=
  operands.foldlM (fun (output : Output) path => do
    match ← readOperand files stdin path with
    | .ok content =>
      let gap := if output.out.isEmpty || output.out.getLast? = some '\n' then [] else ['\n']
      pure { output with out := output.out ++ gap ++ content }
    | .error .isDirectory =>
      pure (output.append (.complain "sed" 4
        ("read error on ".toList ++ path ++ ": Is a directory".toList)))
    | .error error =>
      pure (output.append (.complain "sed" 2
        ("can't read ".toList ++ path ++ ": ".toList ++ error.reason)))) {}

end Sed

/-- The program `sed`. Without a script among its options, its first operand is the script. -/
def sed {m : Type → Type} [Monad m] (files : Files m) (args : List Text) (stdin : Text) :
    m Output :=
  match Sed.readArguments 0 {} args with
  | .error complaint => pure complaint
  | .ok options =>
    let (scripts, operands) := match options.scripts, options.operands with
      | [], script :: operands => ([script], operands)
      | scripts, operands => (scripts, operands)
    if scripts.isEmpty then pure (Sed.usage [])
    else
      let script := Text.joinWith '\n' scripts
      match Sed.parse options.extended script with
      | .error fault => pure (Sed.refuse scripts fault)
      | .ok program => do
        if let some name := Sed.missingLabel? program then
          return .complain "sed" 4 ("can't find label for jump to `".toList ++ name ++ ['\x27'])
        let input ← Sed.readInput files stdin (if operands.isEmpty then [['-']] else operands)
        let output := Sed.run program (options.quiet || Sed.isQuiet script) input.out
        pure { output with code := max output.code input.code, err := input.err ++ output.err }

end HashTunnel.Tool
