import HashTunnel.Tool.Shell.Word

/-! # Commands of the shell

The commands that the tokens of a script make up: simple commands, pipelines, lists and the
compound commands. `Shell.parse` reads a script.
-/

namespace HashTunnel.Tool.Shell

inductive Redirection where
  | fromFile
  | toFile
  | behindFile
  /-- Use another descriptor; a hyphen closes the one at hand. -/
  | duplicate
  deriving Repr, DecidableEq

structure Redirect where
  descriptor : Nat
  redirection : Redirection
  target : Word
  deriving Repr, DecidableEq

inductive Command where
  | nothing
  | simple (assignments : List (Text × Word)) (words : List Word) (redirects : List Redirect)
  | pipe (left right : Command)
  | negated (body : Command)
  | both (first second : Command)
  | either (first second : Command)
  | sequence (first second : Command)
  | subshell (body : Command)
  | redirected (body : Command) (redirects : List Redirect)
  | conditional (condition consequent alternative : Command)
  | loop (condition body : Command) (untilTrue : Bool)
  | forEach (name : Text) (words : Option (List Word)) (body : Command)
  | choice (subject : Word) (branches : List (List Word × Command))
  deriving Repr

def closers : List Text :=
  ["then", "do", "done", "fi", "else", "elif", "esac", "\x7d"].map String.toList

/-- What the tokens begin with, if it is a word without quotes. -/
def keyword? : List Token → Option Text
  | .word word :: _ => plainText? word
  | _ => none

def atListEnd (tokens : List Token) : Bool :=
  match tokens with
  | [] => true
  | .operator spelling :: _ => spelling == [')'] || spelling == [';', ';']
  | _ => (keyword? tokens).any closers.contains

/-- What tokens begin with, as a complaint names it. -/
def nameOf (tokens : List Token) : String :=
  match tokens with
  | [] => "end of file"
  | .operator ['\n'] :: _ => "newline"
  | .operator spelling :: _ => "\"" ++ String.ofList spelling ++ "\""
  | .word word :: _ =>
    match plainText? word with
    | some text => if closers.contains text then "\"" ++ String.ofList text ++ "\"" else "word"
    | none => "word"
  | .descriptor _ :: _ => "redirection"

/-- The complaint about tokens that cannot go on here. -/
def unexpected {α : Type} (tokens : List Token) : Except SyntaxError α :=
  .error (nameOf tokens ++ " unexpected")

/-- The complaint about tokens that do not go on with a certain word. -/
def expected {α : Type} (spelling : String) (tokens : List Token) : Except SyntaxError α :=
  .error (nameOf tokens ++ " unexpected (expecting \"" ++ spelling ++ "\")")

/-- The tokens behind a word that has to come here. -/
def expectWord (spelling : String) (tokens : List Token) : Except SyntaxError (List Token) :=
  if keyword? tokens = some spelling.toList then .ok (tokens.drop 1) else expected spelling tokens

def skipNewlines (tokens : List Token) : List Token :=
  tokens.dropWhile (· == .operator ['\n'])

def assignment? : Word → Option (Text × Word)
  | .text text false :: rest =>
    let name := text.takeWhile isNameChar
    match text.drop name.length with
    | '=' :: value =>
      if name.head?.any isNameStart then
        some (name, (if value.isEmpty then [] else [.text value false]) ++ rest)
      else none
    | _ => none
  | _ => none

def redirect? (tokens : List Token) : Option (Except SyntaxError (Redirect × List Token)) :=
  let (descriptor, tokens) := match tokens with
    | .descriptor n :: rest => (some n, rest)
    | tokens => (none, tokens)
  match tokens with
  | .operator spelling :: rest =>
    let kind : Option (Nat × Redirection) := match spelling with
      | ['<'] => some (0, .fromFile)
      | ['>'] | ['>', '|'] => some (1, .toFile)
      | ['>', '>'] => some (1, .behindFile)
      | ['>', '&'] => some (1, .duplicate)
      | ['<', '&'] => some (0, .duplicate)
      | _ => none
    kind.map fun (usual, redirection) =>
      match rest with
      | .word target :: rest => .ok (⟨descriptor.getD usual, redirection, target⟩, rest)
      | rest => unexpected rest
  | _ => none

/-- Reads the redirections that stand behind a compound command. -/
def readRedirects : Nat → List Token → Except SyntaxError (List Redirect × List Token)
  | 0, tokens => .ok ([], tokens)
  | fuel + 1, tokens =>
    match redirect? tokens with
    | none => .ok ([], tokens)
    | some read => do
      let (redirect, tokens) ← read
      let (more, tokens) ← readRedirects fuel tokens
      pure (redirect :: more, tokens)

/-- Reads a simple command; what it is made of is kept last one first. -/
def readSimple : Nat → List (Text × Word) → List Word → List Redirect → List Token →
    Except SyntaxError (Command × List Token)
  | 0, _, _, _, tokens => unexpected tokens
  | fuel + 1, assignments, words, redirects, tokens =>
    match redirect? tokens with
    | some read => do
      let (redirect, tokens) ← read
      readSimple fuel assignments words (redirect :: redirects) tokens
    | none =>
      match tokens with
      | .word word :: rest =>
        match words, assignment? word with
        | [], some assignment => readSimple fuel (assignment :: assignments) words redirects rest
        | _, _ => readSimple fuel assignments (word :: words) redirects rest
      | _ =>
        if assignments.isEmpty && words.isEmpty && redirects.isEmpty then unexpected tokens
        else .ok (.simple assignments.reverse words.reverse redirects.reverse, tokens)

def readWords : List Token → List Word × List Token
  | .word word :: rest =>
    let (more, rest) := readWords rest
    (word :: more, rest)
  | tokens => ([], tokens)

/-- The tokens behind the semicolon or line feed that ends a clause. -/
def skipTerminator : List Token → List Token
  | .operator [';'] :: rest => skipNewlines rest
  | tokens => skipNewlines tokens

/-- Reads the patterns of a branch, up to their closing parenthesis. -/
def readPatterns : List Token → Except SyntaxError (List Word × List Token)
  | .word word :: .operator ['|'] :: rest => do
    let (more, rest) ← readPatterns rest
    pure (word :: more, rest)
  | .word word :: .operator [')'] :: rest => .ok ([word], rest)
  | tokens => unexpected tokens

mutual

def readList : Nat → List Token → Except SyntaxError (Command × List Token)
  | 0, tokens => unexpected tokens
  | fuel + 1, tokens => do
    let tokens := skipNewlines tokens
    if atListEnd tokens then pure (.nothing, tokens)
    else
      let (first, tokens) ← readAndOr fuel tokens
      match tokens with
      | .operator [c] :: rest =>
        if c = ';' || c = '&' || c = '\n' then
          let (second, tokens) ← readList fuel rest
          pure (match second with | .nothing => first | _ => .sequence first second, tokens)
        else if c = ')' then pure (first, tokens)
        else unexpected tokens
      | tokens => if atListEnd tokens then pure (first, tokens) else unexpected tokens

def readAndOr : Nat → List Token → Except SyntaxError (Command × List Token)
  | 0, tokens => unexpected tokens
  | fuel + 1, tokens => do
    let (first, tokens) ← readPipeline fuel tokens
    readConditions fuel first tokens

def readConditions : Nat → Command → List Token → Except SyntaxError (Command × List Token)
  | 0, _, tokens => unexpected tokens
  | fuel + 1, first, tokens =>
    match tokens with
    | .operator ['&', '&'] :: rest => do
      let (second, tokens) ← readPipeline fuel (skipNewlines rest)
      readConditions fuel (.both first second) tokens
    | .operator ['|', '|'] :: rest => do
      let (second, tokens) ← readPipeline fuel (skipNewlines rest)
      readConditions fuel (.either first second) tokens
    | tokens => .ok (first, tokens)

def readPipeline : Nat → List Token → Except SyntaxError (Command × List Token)
  | 0, tokens => unexpected tokens
  | fuel + 1, tokens => do
    if keyword? tokens = some ['!'] then
      let (body, tokens) ← readPipeline fuel (tokens.drop 1)
      pure (.negated body, tokens)
    else
      let (first, tokens) ← readCommand fuel tokens
      match tokens with
      | .operator ['|'] :: rest =>
        let (second, tokens) ← readPipeline fuel (skipNewlines rest)
        pure (.pipe first second, tokens)
      | tokens => pure (first, tokens)

def readCommand : Nat → List Token → Except SyntaxError (Command × List Token)
  | 0, tokens => unexpected tokens
  | fuel + 1, tokens => do
    let compound (body : Command) (tokens : List Token) :
        Except SyntaxError (Command × List Token) := do
      let (redirects, tokens) ← readRedirects tokens.length tokens
      pure (if redirects.isEmpty then body else .redirected body redirects, tokens)
    match tokens with
    | .operator ['('] :: rest =>
      let (body, tokens) ← readList fuel rest
      match tokens with
      | .operator [')'] :: rest => compound (.subshell body) rest
      | tokens => expected ")" tokens
    | _ =>
      match (keyword? tokens).map String.ofList with
      | some "\x7b" =>
        let (body, tokens) ← readList fuel (tokens.drop 1)
        compound body (← expectWord "\x7d" tokens)
      | some "if" =>
        let (body, tokens) ← readIf fuel (tokens.drop 1)
        compound body tokens
      | some "while" | some "until" =>
        let (condition, rest) ← readList fuel (tokens.drop 1)
        let (body, rest) ← readList fuel (← expectWord "do" rest)
        let untilHolds : Bool := keyword? tokens = some "until".toList
        compound (.loop condition body untilHolds) (← expectWord "done" rest)
      | some "for" =>
        match tokens.drop 1 with
        | .word word :: rest =>
          let name := (plainText? word).getD []
          let rest := skipNewlines rest
          let (words, rest) := if keyword? rest = some "in".toList then
              let (words, rest) := readWords (rest.drop 1)
              (some words, rest)
            else (none, rest)
          let (body, rest) ← readList fuel (← expectWord "do" (skipTerminator rest))
          compound (.forEach name words body) (← expectWord "done" rest)
        | rest => unexpected rest
      | some "case" =>
        match tokens.drop 1 with
        | .word subject :: rest =>
          let rest ← expectWord "in" (skipNewlines rest)
          let (branches, rest) ← readBranches fuel (skipNewlines rest)
          compound (.choice subject branches) rest
        | rest => unexpected rest
      | some spelling =>
        if closers.contains spelling.toList then unexpected tokens
        else readSimple (tokens.length + 1) [] [] [] tokens
      | none => readSimple (tokens.length + 1) [] [] [] tokens

/-- Reads a conditional command behind its first word. -/
def readIf : Nat → List Token → Except SyntaxError (Command × List Token)
  | 0, tokens => unexpected tokens
  | fuel + 1, tokens => do
    let (condition, tokens) ← readList fuel tokens
    let (consequent, tokens) ← readList fuel (← expectWord "then" tokens)
    match (keyword? tokens).map String.ofList with
    | some "elif" =>
      let (alternative, tokens) ← readIf fuel (tokens.drop 1)
      pure (.conditional condition consequent alternative, tokens)
    | some "else" =>
      let (alternative, tokens) ← readList fuel (tokens.drop 1)
      pure (.conditional condition consequent alternative, ← expectWord "fi" tokens)
    | _ => pure (.conditional condition consequent .nothing, ← expectWord "fi" tokens)

/-- Reads the branches of a choice and the word that ends it. -/
def readBranches : Nat → List Token → Except SyntaxError (List (List Word × Command) × List Token)
  | 0, tokens => unexpected tokens
  | fuel + 1, tokens => do
    if keyword? tokens = some "esac".toList then pure ([], tokens.drop 1)
    else
      let tokens := match tokens with
        | .operator ['('] :: rest => rest
        | tokens => tokens
      let (patterns, tokens) ← readPatterns tokens
      let (body, tokens) ← readList fuel tokens
      match tokens with
      | .operator [';', ';'] :: rest =>
        let (more, tokens) ← readBranches fuel (skipNewlines rest)
        pure ((patterns, body) :: more, tokens)
      | tokens => pure ([(patterns, body)], ← expectWord "esac" tokens)

end

def parse (script : Text) : Except SyntaxError Command := do
  let tokens ← tokens script
  let (command, rest) ← readList (8 * tokens.length + 8) tokens
  if rest.isEmpty then pure command else unexpected rest

end HashTunnel.Tool.Shell
