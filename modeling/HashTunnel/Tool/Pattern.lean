import HashTunnel.Tool.Basic

/-! # Regular expressions

Basic and extended regular expressions, as `sed` reads them. Of all the ways to match at a place
the longest is taken, and of all places the first. `Pattern.parse` reads an expression,
`Pattern.find` looks for a match.
-/

namespace HashTunnel.Tool

inductive Pattern where
  | empty
  /-- One character in one of the ranges, or in none of them. -/
  | oneOf (negated : Bool) (ranges : List (Char × Char))
  | any
  | lineStart
  | lineEnd
  | wordBoundary
  | both (first second : Pattern)
  | either (first second : Pattern)
  /-- Repeated `low` times and at most `high` times. -/
  | repeated (body : Pattern) (low : Nat) (high : Option Nat)
  | group (number : Nat) (body : Pattern)
  /-- What a group matched. -/
  | again (number : Nat)
  deriving Repr

namespace Pattern

structure Place where
  position : Nat
  before : Option Char
  ahead : Text
  /-- What the groups matched, the latest first. -/
  groups : List (Nat × Text) := []

def Place.advance (place : Place) : Place :=
  match place.ahead with
  | [] => place
  | c :: rest => { place with position := place.position + 1, before := some c, ahead := rest }

def Place.skip (place : Place) : Nat → Place
  | 0 => place
  | n + 1 => place.advance.skip n

/-- Holds of the characters that words are made of. -/
def isWordChar (c : Char) : Bool :=
  c.isAlphanum || c == '_'

def Place.atBoundary (place : Place) : Bool :=
  place.before.any isWordChar != place.ahead.head?.any isWordChar

def fold (ignoreCase : Bool) (c : Char) : Char :=
  if ignoreCase then c.toLower else c

/-- Every place reached by repeating `step`, those of more repetitions first. A repetition that
    matches nothing is made only while `low` asks for it. -/
def repeatFrom (step : Place → List Place) (low : Nat) (high : Option Nat) :
    Nat → Nat → Place → List Place
  | 0, _, _ => []
  | fuel + 1, count, place =>
    let more :=
      if high.any (· ≤ count) then []
      else (step place).flatMap fun next =>
        if next.position = place.position && low ≤ count then []
        else repeatFrom step low high fuel (count + 1) next
    more ++ if low ≤ count then [place] else []

/-- Every place where a match that begins at a place can end. -/
def ends (ignoreCase : Bool) : Pattern → Place → List Place
  | empty, place => [place]
  | oneOf negated ranges, place =>
    match place.ahead with
    | [] => []
    | c :: _ =>
      let within (c : Char) := ranges.any fun range => range.1 ≤ c && c ≤ range.2
      let found := within c || (ignoreCase && (within c.toLower || within c.toUpper))
      if found != negated then [place.advance] else []
  | any, place => if place.ahead.isEmpty then [] else [place.advance]
  | lineStart, place => if place.position = 0 then [place] else []
  | lineEnd, place => if place.ahead.isEmpty then [place] else []
  | wordBoundary, place => if place.atBoundary then [place] else []
  | both first second, place => (ends ignoreCase first place).flatMap (ends ignoreCase second)
  | either first second, place => ends ignoreCase first place ++ ends ignoreCase second place
  | repeated body low high, place =>
    repeatFrom (ends ignoreCase body) low high (low + place.ahead.length + 2) 0 place
  | group number body, place =>
    (ends ignoreCase body place).map fun next =>
      { next with
        groups := (number, place.ahead.take (next.position - place.position)) :: next.groups }
  | again number, place =>
    let wanted := (place.groups.lookup number).getD []
    let got := place.ahead.take wanted.length
    if got.map (fold ignoreCase) = wanted.map (fold ignoreCase) then [place.skip wanted.length]
    else []

/-- The farther of two places; the first one if neither is. -/
def farther (best : Option Place) (next : Place) : Option Place :=
  match best with
  | none => some next
  | some place => if place.position < next.position then some next else some place

/-- Where the first and longest match begins and ends, from a place on. -/
def findFrom (pattern : Pattern) (ignoreCase : Bool) : Nat → Place → Option (Place × Place)
  | 0, _ => none
  | fuel + 1, place =>
    match (pattern.ends ignoreCase place).foldl farther none with
    | some last => some (place, last)
    | none => if place.ahead.isEmpty then none else pattern.findFrom ignoreCase fuel place.advance

/-- Where the first and longest match begins and ends. -/
def find (pattern : Pattern) (ignoreCase : Bool) (place : Place) : Option (Place × Place) :=
  pattern.findFrom ignoreCase (place.ahead.length + 1) { place with groups := [] }

/-- Holds of a text that the pattern matches somewhere. -/
def occursIn (pattern : Pattern) (ignoreCase : Bool) (text : Text) : Bool :=
  (pattern.find ignoreCase ⟨0, none, text, []⟩).isSome

def classes : List (String × List (Char × Char)) :=
  [("alpha", [('a', 'z'), ('A', 'Z')]), ("digit", [('0', '9')]),
   ("alnum", [('a', 'z'), ('A', 'Z'), ('0', '9')]), ("upper", [('A', 'Z')]),
   ("lower", [('a', 'z')]),
   ("space", [('\t', '\r'), (' ', ' ')]), ("blank", [('\t', '\t'), (' ', ' ')]),
   ("punct", [('!', '/'), (':', '@'), ('[', '\x60'), ('\x7b', '~')]), ("print", [(' ', '~')]),
   ("graph", [('!', '~')]), ("cntrl", [('\x00', '\x1f'), ('\x7f', '\x7f')]),
   ("xdigit", [('0', '9'), ('a', 'f'), ('A', 'F')])]

/-- The characters that words are made of, as ranges. -/
def wordRanges : List (Char × Char) :=
  [('a', 'z'), ('A', 'Z'), ('0', '9'), ('_', '_')]

def spaceRanges : List (Char × Char) :=
  [('\t', '\r'), (' ', ' ')]

inductive Flaw where
  | openBracket
  | className
  | rangeEnd
  | openGroup
  | closedGroup
  | openBrace
  | braceContent
  | trailingBackslash
  | repetition
  | reference
  deriving Repr, DecidableEq

/-- The wording of what is wrong with an expression. -/
def Flaw.message : Flaw → String
  | openBracket => "unterminated address regex"
  | className => "Invalid character class name"
  | rangeEnd => "Invalid range end"
  | openGroup => "Unmatched ( or \\("
  | closedGroup => "Unmatched ) or \\)"
  | openBrace => "Unmatched \\\x7b"
  | braceContent => "Invalid content of \\\x7b\\\x7d"
  | trailingBackslash => "Trailing backslash"
  | repetition => "Invalid preceding regular expression"
  | reference => "Invalid back reference"

/-- The ranges of a bracket expression and what follows its closing bracket. A closing bracket
    that comes first is a member. -/
def readBracket : Nat → Bool → List (Char × Char) → Text →
    Except Flaw (List (Char × Char) × Text)
  | 0, _, _, _ => .error .openBracket
  | fuel + 1, first, ranges, text =>
    match text with
    | [] => .error .openBracket
    | '[' :: ':' :: rest =>
      let name := rest.takeWhile (· != ':')
      match rest.drop name.length with
      | ':' :: ']' :: rest =>
        match classes.lookup (String.ofList name) with
        | some members => readBracket fuel false (ranges ++ members) rest
        | none => .error .className
      | _ => .error .openBracket
    | '\\' :: 'n' :: rest => readBracket fuel false (ranges ++ [('\n', '\n')]) rest
    | '\\' :: 't' :: rest => readBracket fuel false (ranges ++ [('\t', '\t')]) rest
    | c :: rest =>
      if c = ']' && !first then .ok (ranges, rest)
      else
        match rest with
        | '-' :: high :: rest =>
          if high = ']' then readBracket fuel false (ranges ++ [(c, c), ('-', '-')]) (']' :: rest)
          else if high < c then .error .rangeEnd
          else readBracket fuel false (ranges ++ [(c, high)]) rest
        | rest => readBracket fuel false (ranges ++ [(c, c)]) rest

/-- The bounds of a repetition, without the braces around them. -/
def bounds? (body : Text) : Option (Nat × Option Nat) :=
  match Text.splitWhere (· == ',') body with
  | [exact] => (number? exact).map fun n => (n, some n)
  | [low, []] => (if low.isEmpty then some 0 else number? low).map (·, none)
  | [low, high] => do
    let low ← if low.isEmpty then some 0 else number? low
    pure (low, some (← number? high))
  | _ => none

/-- What a repetition's operator leaves to read. In basic expressions a backslash stands before the
    braces, the plus sign and the question mark. -/
def operator? (extended : Bool) (text : Text) : Option (Char × Text) :=
  match extended, text with
  | _, '*' :: rest => some ('*', rest)
  | false, '\\' :: c :: rest => if ['+', '?', '\x7b'].contains c then some (c, rest) else none
  | true, c :: rest => if ['+', '?', '\x7b'].contains c then some (c, rest) else none
  | _, _ => none

/-- The bounds between braces, from behind the opening one on. -/
def readBounds (extended : Bool) (text : Text) : Except Flaw ((Nat × Option Nat) × Text) :=
  let body := text.takeWhile fun c => c.isDigit || c == ','
  let behind := match extended, text.drop body.length with
    | true, '\x7d' :: rest => some rest
    | false, '\\' :: '\x7d' :: rest => some rest
    | _, _ => none
  match behind, bounds? body with
  | some rest, some limits => .ok (limits, rest)
  | some _, none => .error .braceContent
  | none, _ => .error (if text.length = body.length then .openBrace else .braceContent)

/-- A pattern with the repetitions that stand behind it. In basic expressions neither a star nor
    bounds may stand behind another repetition. -/
def withRepetitions (extended : Bool) : Nat → Bool → Pattern → Text → Except Flaw (Pattern × Text)
  | 0, _, pattern, text => .ok (pattern, text)
  | fuel + 1, behindAnother, pattern, text =>
    match operator? extended text with
    | none => .ok (pattern, text)
    | some (c, rest) =>
      if behindAnother && !extended && (c = '*' || c = '\x7b') then .error .repetition
      else if c = '*' then withRepetitions extended fuel true (.repeated pattern 0 none) rest
      else if c = '+' then withRepetitions extended fuel true (.repeated pattern 1 none) rest
      else if c = '?' then withRepetitions extended fuel true (.repeated pattern 0 (some 1)) rest
      else
        match readBounds extended rest with
        | .ok ((low, high), rest) =>
          withRepetitions extended fuel true (.repeated pattern low high) rest
        | .error flaw => .error flaw

structure Reading where
  pattern : Pattern
  rest : Text
  /-- How many groups have begun. -/
  groups : Nat

/-- Holds where a branch ends: at an alternative, at the end of a group and at the end. -/
def atBranchEnd (extended : Bool) (text : Text) : Bool :=
  match text with
  | [] => true
  | '\\' :: c :: _ => !extended && (c == '|' || c == ')')
  | c :: _ => extended && (c == '|' || c == ')')

/-- The pattern of a character after a backslash, if it has a meaning in both kinds of
    expression. -/
def escaped (c : Char) : Pattern :=
  match c with
  | 'n' => .oneOf false [('\n', '\n')]
  | 't' => .oneOf false [('\t', '\t')]
  | 'r' => .oneOf false [('\r', '\r')]
  | 'w' => .oneOf false wordRanges
  | 'W' => .oneOf true wordRanges
  | 's' => .oneOf false spaceRanges
  | 'S' => .oneOf true spaceRanges
  | 'b' => .wordBoundary
  | _ => if c.isDigit && c != '0' then .again (c.toNat - 48) else .oneOf false [(c, c)]

/-- The pattern of a bracket expression, from behind its opening bracket on. -/
def readSet (negated : Bool) (groups : Nat) (text : Text) : Except Flaw Reading :=
  match readBracket (text.length + 1) true [] text with
  | .ok (ranges, rest) => .ok ⟨.oneOf negated ranges, rest, groups⟩
  | .error flaw => .error flaw

/-- One character of an expression, a bracket expression or an anchor. -/
def readPlain (extended atStart : Bool) (groups : Nat) : Text → Except Flaw Reading
  | '[' :: '^' :: rest => readSet true groups rest
  | '[' :: rest => readSet false groups rest
  | '.' :: rest => .ok ⟨.any, rest, groups⟩
  | '^' :: rest =>
    let pattern := if extended || atStart then .lineStart else .oneOf false [('^', '^')]
    .ok ⟨pattern, rest, groups⟩
  | '$' :: rest =>
    let pattern :=
      if extended || atBranchEnd extended rest then .lineEnd else .oneOf false [('$', '$')]
    .ok ⟨pattern, rest, groups⟩
  | '\\' :: c :: rest =>
    if c.isDigit && c != '0' && groups < c.toNat - 48 then .error .reference
    else .ok ⟨escaped c, rest, groups⟩
  | ['\\'] => .error .trailingBackslash
  | c :: rest =>
    if extended && atStart && ['+', '?', '*', '\x7b'].contains c then .error .repetition
    else .ok ⟨.oneOf false [(c, c)], rest, groups⟩
  | [] => .ok ⟨.empty, [], groups⟩

/-- What a group's opening parenthesis leaves to read. -/
def groupBody? (extended : Bool) : Text → Option Text
  | '(' :: rest => if extended then some rest else none
  | '\\' :: '(' :: rest => if extended then none else some rest
  | _ => none

/-- What a group's closing parenthesis leaves to read. -/
def afterGroup? (extended : Bool) : Text → Option Text
  | ')' :: rest => if extended then some rest else none
  | '\\' :: ')' :: rest => if extended then none else some rest
  | _ => none

def afterBar? (extended : Bool) : Text → Option Text
  | '|' :: rest => if extended then some rest else none
  | '\\' :: '|' :: rest => if extended then none else some rest
  | _ => none

mutual

/-- Reads alternatives up to the end of a group or of the text. -/
def readAlternatives (extended : Bool) : Nat → Nat → Text → Except Flaw Reading
  | 0, _, _ => .error .openGroup
  | fuel + 1, groups, text => do
    let first ← readBranch extended fuel true .empty groups text
    match afterBar? extended first.rest with
    | some rest =>
      let others ← readAlternatives extended fuel first.groups rest
      pure { others with pattern := .either first.pattern others.pattern }
    | none => pure first

/-- Reads what stands one after the other, behind `sofar`. -/
def readBranch (extended : Bool) : Nat → Bool → Pattern → Nat → Text → Except Flaw Reading
  | 0, _, _, _, _ => .error .openGroup
  | fuel + 1, atStart, sofar, groups, text =>
    if atBranchEnd extended text then .ok ⟨sofar, text, groups⟩
    else do
      let item ← match groupBody? extended text with
        | some body => do
          let inner ← readAlternatives extended fuel (groups + 1) body
          match afterGroup? extended inner.rest with
          | some rest => pure { inner with pattern := .group (groups + 1) inner.pattern, rest }
          | none => throw .openGroup
        | none => readPlain extended atStart groups text
      let isAnchor := match item.pattern with | .lineStart => true | _ => false
      let (pattern, rest) ←
        if isAnchor && !extended then pure (item.pattern, item.rest)
        else withRepetitions extended item.rest.length false item.pattern item.rest
      readBranch extended fuel (isAnchor && !extended) (.both sofar pattern) item.groups rest

end

/-- The pattern that a text writes, and how many groups it has. -/
def parse (extended : Bool) (text : Text) : Except Flaw (Pattern × Nat) := do
  let reading ← readAlternatives extended (3 * text.length + 3) 0 text
  if reading.rest.isEmpty then pure (reading.pattern, reading.groups) else throw .closedGroup

end Pattern
end HashTunnel.Tool
