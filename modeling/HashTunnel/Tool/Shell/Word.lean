import HashTunnel.Tool.Basic

/-! # Words and tokens of the shell

A shell script is a sequence of words and operators. A word is a list of pieces, each of them plain
text or something that is replaced when the word is expanded. `Shell.tokens` cuts a script into
its tokens.
-/

namespace HashTunnel.Tool.Shell

/-- A piece of a word. A quoted piece is never cut into fields. -/
inductive Piece where
  | text (text : Text) (quoted : Bool)
  /-- A parameter, by what stands between its braces. -/
  | parameter (body : Text) (quoted : Bool)
  /-- What a script prints. -/
  | output (script : Text) (quoted : Bool)
  /-- The value of an arithmetic expression. -/
  | arithmetic (expression : Text) (quoted : Bool)
  deriving Repr, DecidableEq

abbrev Word := List Piece

/-- The text of a word that is written without quotes and expansions. -/
def plainText? : Word → Option Text
  | [.text text false] => some text
  | _ => none

inductive Token where
  | word (word : Word)
  | operator (spelling : Text)
  /-- The digits right before a redirection. -/
  | descriptor (number : Nat)
  deriving Repr, DecidableEq

abbrev SyntaxError := String

def unterminated : SyntaxError := "Unterminated quoted string"

/-- The character with the code 96, around an old form of command substitution. -/
def backquote : Char := '\x60'

def isNameStart (c : Char) : Bool :=
  c.isAlpha || c == '_'

def isNameChar (c : Char) : Bool :=
  c.isAlphanum || c == '_'

/-- The text up to the character that closes it at the given depth, and what follows. Quoted
    characters neither open nor close. -/
def enclosed (opening closing : Char) : Nat → Option Char → Text → Text → Option (Text × Text)
  | _, _, _, [] => none
  | depth, quote, acc, '\\' :: c :: rest =>
    if quote = some '\x27' then
      if c = '\x27' then enclosed opening closing depth none (c :: '\\' :: acc) rest
      else enclosed opening closing depth quote (c :: '\\' :: acc) rest
    else enclosed opening closing depth quote (c :: '\\' :: acc) rest
  | depth, quote, acc, c :: rest =>
    match quote with
    | some q => enclosed opening closing depth (if c = q then none else quote) (c :: acc) rest
    | none =>
      if c = '\x27' || c = '"' then enclosed opening closing depth (some c) (c :: acc) rest
      else if c = closing then
        if depth = 0 then some (acc.reverse, rest)
        else enclosed opening closing (depth - 1) none (c :: acc) rest
      else enclosed opening closing (if c = opening then depth + 1 else depth) none (c :: acc) rest

/-- The piece that a dollar sign begins, from behind the sign on. -/
def readDollar (quoted : Bool) (text : Text) : Except SyntaxError (Piece × Text) :=
  match text with
  | '\x7b' :: rest =>
    match enclosed '\x7b' '\x7d' 0 none [] rest with
    | some (body, rest) => .ok (.parameter body quoted, rest)
    | none => .error "Missing '\x7d'"
  | '(' :: rest =>
    let command : Except SyntaxError (Piece × Text) :=
      match enclosed '(' ')' 0 none [] rest with
      | some (script, rest) => .ok (.output script quoted, rest)
      | none => .error "end of file unexpected (expecting \")\")"
    match rest with
    | '(' :: inner =>
      match enclosed '(' ')' 0 none [] inner with
      | some (expression, ')' :: rest) => .ok (.arithmetic expression quoted, rest)
      | _ => command
    | _ => command
  | c :: rest =>
    if isNameStart c then
      .ok (.parameter (text.takeWhile isNameChar) quoted, text.dropWhile isNameChar)
    else if c.isDigit || ['@', '*', '#', '?', '-', '$', '!'].contains c then
      .ok (.parameter [c] quoted, rest)
    else .ok (.text ['$'] quoted, text)
  | [] => .ok (.text ['$'] quoted, [])

/-- The script between two backquotes, where a backslash may stand before a backquote, a dollar
    sign or another backslash. -/
def readBackquoted (acc : Text) : Text → Option (Text × Text)
  | [] => none
  | '\\' :: c :: rest =>
    if c = backquote || c = '\\' || c = '$' then readBackquoted (c :: acc) rest
    else readBackquoted (c :: '\\' :: acc) rest
  | c :: rest => if c = backquote then some (acc.reverse, rest) else readBackquoted (c :: acc) rest

/-- The pieces with one more character at the end. The pieces are kept last one first. -/
def addChar (quoted : Bool) (c : Char) : List Piece → List Piece
  | .text text q :: more =>
    if q = quoted then .text (text ++ [c]) q :: more else .text [c] quoted :: .text text q :: more
  | pieces => .text [c] quoted :: pieces

/-- Reads text in double quotes, up to its closing quote or, without one, to the end. The pieces
    are kept last one first. -/
def readDouble (untilEnd : Bool) : Nat → List Piece → Text → Except SyntaxError (List Piece × Text)
  | 0, _, _ => .error unterminated
  | fuel + 1, pieces, text =>
    match text with
    | [] => if untilEnd then .ok (pieces, []) else .error unterminated
    | '\\' :: '\n' :: rest => readDouble untilEnd fuel pieces rest
    | '\\' :: c :: rest =>
      if ['$', backquote, '"', '\\'].contains c then
        readDouble untilEnd fuel (addChar true c pieces) rest
      else readDouble untilEnd fuel (addChar true c (addChar true '\\' pieces)) rest
    | '$' :: rest => do
      let (piece, rest) ← readDollar true rest
      readDouble untilEnd fuel (piece :: pieces) rest
    | c :: rest =>
      if c = '"' && !untilEnd then .ok (pieces, rest)
      else if c = backquote then
        match readBackquoted [] rest with
        | some (script, rest) => readDouble untilEnd fuel (.output script true :: pieces) rest
        | none => .error "EOF in backquote substitution"
      else readDouble untilEnd fuel (addChar true c pieces) rest

/-- A text whose expansions are read as in double quotes. -/
def quotedWord (text : Text) : Except SyntaxError Word := do
  pure (← readDouble true (text.length + 1) [] text).1.reverse

def endsWord (c : Char) : Bool :=
  [' ', '\t', '\n', ';', '&', '|', '<', '>', '(', ')'].contains c

/-- Reads a word. The pieces are kept last one first. -/
def readWord : Nat → List Piece → Text → Except SyntaxError (Word × Text)
  | 0, _, _ => .error unterminated
  | fuel + 1, pieces, text =>
    match text with
    | [] => .ok (pieces.reverse, [])
    | '\\' :: '\n' :: rest => readWord fuel pieces rest
    | '\\' :: c :: rest => readWord fuel (addChar true c pieces) rest
    | '$' :: rest => do
      let (piece, rest) ← readDollar false rest
      readWord fuel (piece :: pieces) rest
    | '"' :: rest => do
      let (inner, rest) ← readDouble false (rest.length + 1) [] rest
      readWord fuel ((if inner.isEmpty then [.text [] true] else inner) ++ pieces) rest
    | '\x27' :: rest =>
      match rest.dropWhile (· != '\x27') with
      | [] => .error unterminated
      | _ :: after => readWord fuel (.text (rest.takeWhile (· != '\x27')) true :: pieces) after
    | c :: rest =>
      if endsWord c then .ok (pieces.reverse, text)
      else if c = backquote then
        match readBackquoted [] rest with
        | some (script, rest) => readWord fuel (.output script false :: pieces) rest
        | none => .error "EOF in backquote substitution"
      else readWord fuel (addChar false c pieces) rest

def operators : List Text :=
  [";;", "&&", "||", ">>", ">&", "<&", ">|", ";", "&", "|", "(", ")", "<", ">", "\n"].map
    String.toList

def tokensFrom : Nat → Text → Except SyntaxError (List Token)
  | 0, _ => .ok []
  | fuel + 1, text =>
    match text with
    | [] => .ok []
    | '\\' :: '\n' :: rest => tokensFrom fuel rest
    | c :: rest =>
      if c = ' ' || c = '\t' then tokensFrom fuel rest
      else if c = '#' then tokensFrom fuel (rest.dropWhile (· != '\n'))
      else
        match operators.find? (·.isPrefixOf text) with
        | some operator => do
          pure (.operator operator :: (← tokensFrom fuel (text.drop operator.length)))
        | none =>
          let digits := text.takeWhile Char.isDigit
          match number? digits, text.drop digits.length with
          | some n, next :: after =>
            if next = '<' || next = '>' then do
              pure (.descriptor n :: (← tokensFrom fuel (next :: after)))
            else do
              let (word, rest) ← readWord (text.length + 1) [] text
              pure (.word word :: (← tokensFrom fuel rest))
          | _, _ => do
            let (word, rest) ← readWord (text.length + 1) [] text
            pure (.word word :: (← tokensFrom fuel rest))

def tokens (script : Text) : Except SyntaxError (List Token) :=
  tokensFrom (script.length + 1) script

end HashTunnel.Tool.Shell
