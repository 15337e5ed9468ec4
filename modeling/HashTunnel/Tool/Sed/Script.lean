import HashTunnel.Text.Blank
import HashTunnel.Tool.Echo
import HashTunnel.Tool.Pattern

/-! # Scripts of the stream editor

A script is a list of commands, each with the lines that it is for. `Sed.parse` reads one, or tells
what is wrong with it and where.
-/

namespace HashTunnel.Tool.Sed

/-- A pattern as a script gives it. Without a pattern, the last one used is meant. -/
structure Search where
  pattern : Option Pattern
  ignoreCase : Bool := false
  deriving Repr

inductive Address where
  | line (number : Nat)
  | last
  | every (first step : Nat)
  | found (search : Search)
  deriving Repr

inductive RangeEnd where
  | address (address : Address)
  /-- So many lines after the first one. -/
  | after (count : Nat)
  /-- At the next line whose number is a multiple. -/
  | multiple (step : Nat)
  deriving Repr

/-- The lines that a command is for; all lines if nothing is said. -/
structure Selection where
  first : Option Address := none
  second : Option RangeEnd := none
  negated : Bool := false
  deriving Repr

/-- How the case of what a substitution puts in is changed. -/
inductive Casing where
  | upper
  | lower
  | upperNext
  | lowerNext
  | plain
  deriving Repr, DecidableEq

inductive Piece where
  | text (text : Text)
  /-- What a group matched; group zero is the whole match. -/
  | group (number : Nat)
  /-- From here on the case is changed. -/
  | casing (casing : Casing)
  deriving Repr

structure Substitution where
  search : Search
  replacement : List Piece
  /-- Replace the matches from this one on. -/
  occurrence : Nat := 1
  global : Bool := false
  print : Bool := false
  deriving Repr

inductive Action where
  | openBlock
  | closeBlock
  | label (name : Text)
  | printNumber
  | appendText (text : Text)
  | insertText (text : Text)
  | changeText (text : Text)
  /-- Go to a label, or to the end of the script. -/
  | branch (label : Text)
  /-- Go to a label if a substitution was made since the line was read. -/
  | branchIfSubstituted (label : Text)
  /-- Go to a label if no substitution was made. -/
  | branchUnlessSubstituted (label : Text)
  | delete
  | deleteFirstLine
  | copyFromHold
  | appendFromHold
  | copyToHold
  | appendToHold
  | exchange
  | next
  | appendNext
  | print
  | printFirstLine
  | printFileName
  | empty
  | quit (code : Nat) (silent : Bool)
  | substitute (substitution : Substitution)
  | transliterate (pairs : List (Char × Char))
  deriving Repr

structure Command where
  /-- Where it stands in its script. -/
  index : Nat
  selection : Selection
  action : Action
  deriving Repr

inductive Flaw where
  | unknownCommand (letter : Char)
  | missingCommand
  | openSubstitution
  | openTransliteration
  | openAddress
  | unequalLengths
  | unknownFlag
  | extraCharacters
  | unexpectedComma
  | oneAddress
  | noAddress
  | closedBlock
  | openBlock
  | missingText
  | twiceNegated
  | missingLabel
  | lineZero
  | misplacedCount
  | zeroth
  | groupNumber (number : Nat)
  | pattern (flaw : Pattern.Flaw)
  deriving Repr, DecidableEq

def Flaw.message : Flaw → Text
  | unknownCommand letter => "unknown command: `".toList ++ [letter, '\x27']
  | missingCommand => "missing command".toList
  | openSubstitution => "unterminated `s' command".toList
  | openTransliteration => "unterminated `y' command".toList
  | openAddress => "unterminated address regex".toList
  | unequalLengths => "strings for `y' command are different lengths".toList
  | unknownFlag => "unknown option to `s'".toList
  | extraCharacters => "extra characters after command".toList
  | unexpectedComma => "unexpected `,'".toList
  | oneAddress => "command only uses one address".toList
  | noAddress => ": doesn't want any addresses".toList
  | closedBlock => "unexpected `\x7d'".toList
  | openBlock => "unmatched `\x7b'".toList
  | missingText => "expected \\ after `a', `c' or `i'".toList
  | twiceNegated => "multiple `!'s".toList
  | missingLabel => "\":\" lacks a label".toList
  | lineZero => "invalid usage of line address 0".toList
  | misplacedCount => "invalid usage of +N or ~N as first address".toList
  | zeroth => "number option to `s' command may not be zero".toList
  | groupNumber number =>
    "invalid reference \\".toList ++ Nat.toDigits 10 number ++ " on `s' command's RHS".toList
  | pattern .openBracket => "unterminated `s' command".toList
  | pattern flaw => flaw.message.toList

/-- What is wrong with a script, and the text behind the place where it shows. -/
structure Fault where
  flaw : Flaw
  rest : Text
  deriving Repr, DecidableEq

def fault {α : Type} (flaw : Flaw) (rest : Text) : Except Fault α :=
  .error ⟨flaw, rest⟩

/-- The text up to a delimiter that no backslash stands before, and what follows it. A backslash
    before the delimiter or a line feed goes, and in a pattern one before the letter n makes a line
    feed. A delimiter in a bracket expression of a pattern ends nothing; a line feed by itself ends
    the text too early. -/
def readDelimited (flaw : Flaw) (delimiter : Char) (inPattern inBracket : Bool) (acc : Text) :
    Text → Except Fault (Text × Text)
  | [] => fault flaw []
  | '\\' :: c :: rest =>
    if !inBracket && c = delimiter && (inPattern || c != '&') || c = '\n' then
      readDelimited flaw delimiter inPattern inBracket (c :: acc) rest
    else if inPattern && c = 'n' then
      readDelimited flaw delimiter inPattern inBracket ('\n' :: acc) rest
    else readDelimited flaw delimiter inPattern inBracket (c :: '\\' :: acc) rest
  | c :: rest =>
    if c = delimiter && !inBracket then .ok (acc.reverse, rest)
    else if c = '\n' then fault flaw (c :: rest)
    else
      let isFirst := acc.head? == some '[' || (acc.head? == some '^' && acc[1]? == some '[')
      let inBracket :=
        if inBracket then c != ']' || isFirst else inPattern && c == '['
      readDelimited flaw delimiter inPattern inBracket (c :: acc) rest

/-- A pattern from its text, and how many groups it has; no pattern if the text is empty. -/
def searchOf (extended ignoreCase : Bool) (text rest : Text) : Except Fault (Search × Option Nat) :=
  if text.isEmpty then .ok (⟨none, ignoreCase⟩, none)
  else
    match Pattern.parse extended text with
    | .ok (pattern, groups) => .ok (⟨some pattern, ignoreCase⟩, some groups)
    | .error flaw => fault (.pattern flaw) rest

def leadingNumber (text : Text) : Nat × Text :=
  (ofDigits 10 (text.takeWhile Char.isDigit), text.dropWhile Char.isDigit)

/-- An address that a text begins with; no address if there is none. -/
def readAddress (extended : Bool) (text : Text) : Except Fault (Option Address × Text) :=
  let pattern (delimiter : Char) (rest : Text) : Except Fault (Option Address × Text) := do
    let (body, rest) ← readDelimited .openAddress delimiter true false [] rest
    let ignoreCase := rest.head? == some 'I'
    let rest := if ignoreCase then rest.drop 1 else rest
    let (search, _) ← searchOf extended ignoreCase body rest
    pure (some (.found search), rest)
  match text with
  | '$' :: rest => .ok (some .last, rest)
  | '/' :: rest => pattern '/' rest
  | '\\' :: delimiter :: rest => pattern delimiter rest
  | c :: _ =>
    if c.isDigit then
      match leadingNumber text with
      | (first, '~' :: rest) =>
        let (step, rest) := leadingNumber rest
        .ok (some (.every first step), rest)
      | (number, rest) => .ok (some (.line number), rest)
    else .ok (none, text)
  | [] => .ok (none, text)

/-- A text without the blanks it begins with, line feeds apart. -/
def skipBlanks (text : Text) : Text :=
  text.dropWhile fun c => c == ' ' || c == '\t'

def readRangeEnd (extended : Bool) (text : Text) : Except Fault (RangeEnd × Text) :=
  match text with
  | '+' :: rest =>
    let (count, rest) := leadingNumber (skipBlanks rest)
    .ok (.after count, rest)
  | '~' :: rest =>
    let (step, rest) := leadingNumber (skipBlanks rest)
    .ok (.multiple step, rest)
  | text => do
    match ← readAddress extended text with
    | (some address, rest) => pure (.address address, rest)
    | (none, rest) => fault .unexpectedComma (rest.drop 1)

/-- The address that a range begins at. A count of lines has nothing to count from there. -/
def readFirstAddress (extended : Bool) (text : Text) : Except Fault (Option Address × Text) :=
  match text with
  | '+' :: rest | '~' :: rest =>
    match skipBlanks rest with
    | c :: rest =>
      if c.isDigit then fault .misplacedCount (rest.dropWhile Char.isDigit)
      else .ok (none, c :: rest)
    | [] => .ok (none, [])
  | text => readAddress extended text

def readSelection (extended : Bool) (text : Text) : Except Fault (Selection × Text) := do
  let (first, rest) ← readFirstAddress extended text
  let (second, rest) ← match first, skipBlanks rest with
    | some _, ',' :: rest => do
      let (bound, rest) ← readRangeEnd extended (skipBlanks rest)
      pure (some bound, rest)
    | _, rest => pure (none, rest)
  let fromZero : Bool := match first, second with
    | some (.line 0), some (.address (.found _)) => false
    | some (.line 0), _ => true
    | _, _ => false
  match skipBlanks rest with
  | '!' :: rest =>
    match skipBlanks rest with
    | '!' :: rest => fault .twiceNegated rest
    | rest => pure (⟨first, second, true⟩, rest)
  | rest => if fromZero then fault .lineZero (rest.drop 1) else pure (⟨first, second, false⟩, rest)

/-- The letters that change the case, after a backslash. -/
def casings : List (Char × Casing) :=
  [('U', .upper), ('L', .lower), ('u', .upperNext), ('l', .lowerNext), ('E', .plain)]

/-- The pieces of a replacement: an ampersand and digits after backslashes stand for what was
    matched. -/
def readReplacement (plain : Text) : Text → List Piece
  | [] => if plain.isEmpty then [] else [.text plain.reverse]
  | '&' :: rest => .text plain.reverse :: .group 0 :: readReplacement [] rest
  | '\\' :: c :: rest =>
    if c.isDigit then .text plain.reverse :: .group (c.toNat - 48) :: readReplacement [] rest
    else
      match casings.lookup c, Escape.letters.lookup c with
      | some casing, _ => .text plain.reverse :: .casing casing :: readReplacement [] rest
      | none, some spelled => readReplacement ((if c = 'b' then c else spelled) :: plain) rest
      | none, none => readReplacement (c :: plain) rest
  | c :: rest => readReplacement (c :: plain) rest

/-- The highest number of a group in a replacement. -/
def highestGroup (replacement : List Piece) : Nat :=
  replacement.foldl (fun highest piece =>
    match piece with
    | .group number => max highest number
    | _ => highest) 0

/-- The flags of a substitution, and whether it ignores case. -/
def readFlags (substitution : Substitution) (ignoreCase : Bool) : Nat → Text →
    Except Fault ((Substitution × Bool) × Text)
  | 0, text => .ok ((substitution, ignoreCase), text)
  | fuel + 1, text =>
    match text with
    | [] => .ok ((substitution, ignoreCase), [])
    | c :: rest =>
      if c = 'g' then readFlags { substitution with global := true } ignoreCase fuel rest
      else if c = 'p' then readFlags { substitution with print := true } ignoreCase fuel rest
      else if c = 'i' || c = 'I' then readFlags substitution true fuel rest
      else if c.isDigit then
        let (occurrence, rest) := leadingNumber text
        if occurrence = 0 then fault .zeroth rest
        else readFlags { substitution with occurrence } ignoreCase fuel rest
      else if [' ', '\t', '\n', ';', '#', '\x7d'].contains c then
        .ok ((substitution, ignoreCase), text)
      else fault .unknownFlag rest

def readSubstitution (extended : Bool) : Text → Except Fault (Action × Text)
  | [] => fault .openSubstitution []
  | delimiter :: rest => do
    let (pattern, rest) ← readDelimited .openSubstitution delimiter true false [] rest
    let (replacement, rest) ← readDelimited .openSubstitution delimiter false false [] rest
    let pieces := readReplacement [] replacement
    let plain : Substitution := { search := ⟨none, false⟩, replacement := pieces }
    let ((substitution, ignoreCase), rest) ← readFlags plain false (rest.length + 1) rest
    let behind := if rest.head?.any [';', '\n'].contains then rest.drop 1 else rest
    let (search, groups) ← searchOf extended ignoreCase pattern behind
    let highest := highestGroup substitution.replacement
    if groups.any (· < highest) then fault (.groupNumber highest) behind
    else pure (.substitute { substitution with search }, rest)

/-- The characters of one side of a transliteration. -/
def plainChars : Text → Text
  | '\\' :: 'n' :: rest => '\n' :: plainChars rest
  | '\\' :: '\\' :: rest => '\\' :: plainChars rest
  | c :: rest => c :: plainChars rest
  | [] => []

def readTransliteration : Text → Except Fault (Action × Text)
  | [] => fault .openTransliteration []
  | delimiter :: rest => do
    let (source, rest) ← readDelimited .openTransliteration delimiter false false [] rest
    let (target, rest) ← readDelimited .openTransliteration delimiter false false [] rest
    let source := plainChars source
    let target := plainChars target
    if source.length = target.length then pure (.transliterate (source.zip target), rest)
    else fault .unequalLengths rest

/-- The text of a command that puts lines in, up to a line feed without a backslash before it. -/
def readLines (acc : Text) : Text → Text × Text
  | [] => (acc.reverse, [])
  | '\\' :: c :: rest => readLines (c :: acc) rest
  | '\n' :: rest => (acc.reverse, rest)
  | c :: rest => readLines (c :: acc) rest

/-- The text that a command puts in, from behind the command's letter on. -/
def readText (text : Text) : Except Fault (Text × Text) :=
  match skipBlanks text with
  | [] => fault .missingText []
  | ['\\'] => .ok ([], [])
  | first =>
    let body := match first with
      | '\\' :: rest =>
        match skipBlanks rest with
        | '\n' :: rest => rest
        | rest => rest
      | rest => rest
    let (lines, rest) := readLines [] body
    .ok (lines ++ ['\n'], '\n' :: rest)

def readLabel (text : Text) : Text × Text :=
  let body := skipBlanks text
  let isEnd (c : Char) := c == '\n' || c == ';'
  (Text.trimEnd (body.takeWhile (!isEnd ·)), body.dropWhile (!isEnd ·))

/-- The commands that are a letter and nothing more. -/
def plainActions : List (Char × Action) :=
  [('=', .printNumber), ('d', .delete), ('D', .deleteFirstLine), ('g', .copyFromHold),
   ('G', .appendFromHold), ('h', .copyToHold), ('H', .appendToHold), ('x', .exchange), ('n', .next),
   ('N', .appendNext), ('p', .print), ('P', .printFirstLine),
   ('F', .printFileName), ('z', .empty), ('\x7d', .closeBlock)]

def readAction (extended : Bool) (selection : Selection) : Text → Except Fault (Action × Text)
  | [] => fault .missingCommand []
  | c :: rest =>
    let labelled (make : Text → Action) : Except Fault (Action × Text) :=
      let (name, rest) := readLabel rest
      .ok (make name, rest)
    let withText (make : Text → Action) : Except Fault (Action × Text) := do
      let (text, rest) ← readText rest
      pure (make text, rest)
    let coded (silent : Bool) : Except Fault (Action × Text) :=
      if selection.second.isSome then fault .oneAddress rest
      else
        let (code, rest) := leadingNumber (skipBlanks rest)
        .ok (.quit code silent, rest)
    match c with
    | '\x7b' => .ok (.openBlock, ';' :: rest)
    | ':' =>
      if selection.first.isSome then fault .noAddress rest
      else if (readLabel rest).1.isEmpty then fault .missingLabel rest
      else labelled .label
    | 'a' => withText .appendText
    | 'i' => withText .insertText
    | 'c' => withText .changeText
    | 'b' => labelled .branch
    | 't' => labelled .branchIfSubstituted
    | 'T' => labelled .branchUnlessSubstituted
    | 'q' => coded false
    | 'Q' => coded true
    | 's' => readSubstitution extended rest
    | 'y' => readTransliteration rest
    | '\n' | ';' => fault .missingCommand (c :: rest)
    | _ =>
      match plainActions.lookup c with
      | some action => .ok (action, rest)
      | none => fault (.unknownCommand c) rest

def isSeparator (c : Char) : Bool :=
  c == ' ' || c == '\t' || c == '\n' || c == ';'

def checkEnd (text : Text) : Except Fault Unit :=
  match skipBlanks text with
  | [] => .ok ()
  | c :: rest =>
    if c = '\n' || c = ';' || c = '\x7d' || c = '#' then .ok () else fault .extraCharacters rest

/-- Reads commands, of which `index` have been read and `depth` blocks are open. -/
def readCommands (extended : Bool) : Nat → Nat → Nat → Text → Except Fault (List Command)
  | 0, _, _, _ => fault .openBlock []
  | fuel + 1, index, depth, text =>
    match text.dropWhile isSeparator with
    | [] => if depth = 0 then .ok [] else fault .openBlock []
    | '#' :: rest => readCommands extended fuel index depth (rest.dropWhile (· != '\n'))
    | text => do
      let (selection, rest) ← readSelection extended text
      let (action, rest) ← readAction extended selection rest
      let depth ← match action with
        | .openBlock => pure (depth + 1)
        | .closeBlock => if depth = 0 then fault .closedBlock rest else pure (depth - 1)
        | _ => pure depth
      checkEnd rest
      let more ← readCommands extended fuel (index + 1) depth rest
      pure (⟨index, selection, action⟩ :: more)

def parse (extended : Bool) (script : Text) : Except Fault (List Command) :=
  readCommands extended (script.length + 2) 0 0 script

/-- Holds of a script whose first line asks not to print lines by themselves. -/
def isQuiet (script : Text) : Bool :=
  script.takeWhile (· != '\n') == ['#', 'n']

def missingLabel? (program : List Command) : Option Text :=
  let labels := program.filterMap fun command =>
    match command.action with
    | .label name => some name
    | _ => none
  let goals := program.filterMap fun command =>
    match command.action with
    | .branch name | .branchIfSubstituted name | .branchUnlessSubstituted name => some name
    | _ => none
  goals.find? fun name => !name.isEmpty && !labels.contains name

end HashTunnel.Tool.Sed
