import HashTunnel.Config.Basic
import HashTunnel.Text.Blank

/-! # Settings files

A settings file has one instruction on a line: a switch (`set strict`) or a key and its value
(`engine = cpp`). Lines that are blank, or that begin with a hash sign or a double quote, say
nothing, and neither does what follows a hash sign after a blank. `Rc.settings` reads the
instructions of a file in order.
-/

namespace HashTunnel.Rc

/-- The words that `set` takes, with their settings. -/
def switches : List (Text × Setting) :=
  [("strict".toList, .strict true), ("nostrict".toList, .strict false),
   ("linemarkers".toList, .lineMarkers true), ("nolinemarkers".toList, .lineMarkers false)]

inductive Key where
  | engine
  | engineArgs
  | define
  | includePath
  | strict
  | lineMarkers
  deriving DecidableEq, Repr

def keys : List (Text × Key) :=
  [("engine".toList, .engine), ("engine_args".toList, .engineArgs), ("args".toList, .engineArgs),
   ("define".toList, .define), ("include".toList, .includePath),
   ("include_path".toList, .includePath), ("strict".toList, .strict),
   ("line_markers".toList, .lineMarkers), ("linemarkers".toList, .lineMarkers)]

/-- The values that mean yes; any other one means no. -/
def affirmatives : List Text :=
  ["true".toList, "1".toList, "yes".toList]

/-- The setting of a key and its value, both trimmed. An empty value names no program, macro or
    path and sets nothing. -/
def Key.setting? (key : Key) (value : Text) : Option Setting :=
  match key with
  | .engine => if value.isEmpty then none else some (.engine value)
  | .engineArgs => some (.engineArgs (Text.words value))
  | .define => if value.isEmpty then none else some (.define value)
  | .includePath => if value.isEmpty then none else some (.includePath value)
  | .strict => some (.strict (affirmatives.contains value))
  | .lineMarkers => some (.lineMarkers (affirmatives.contains value))

/-- A line up to the first hash sign that directly follows a blank. A hash sign elsewhere is part
    of a macro's body. -/
def dropComment : Text → Text
  | [] => []
  | c :: rest =>
    if Text.isBlank c && rest.head? == some '#' then [] else c :: dropComment rest

/-- Holds of a trimmed line that says nothing. -/
def isSilent (line : Text) : Bool :=
  match line.head? with
  | none => true
  | some c => c == '#' || c == '"'

/-- What a line says, without blanks around it and without its comment. -/
def body? (line : Text) : Option Text :=
  let trimmed := Text.trim line
  if isSilent trimmed then none else some (Text.trim (dropComment trimmed))

def splitPair? (body : Text) : Option (Text × Text) :=
  match body.dropWhile (· != '=') with
  | _ :: value => some (body.takeWhile (· != '='), value)
  | [] => none

/-- The setting that the body of a line asks for. -/
def settingOfBody? (body : Text) : Option Setting :=
  if "set ".toList.isPrefixOf body then
    let word := Text.trim (body.drop 4)
    some ((switches.lookup word).getD (.unknown word))
  else
    match splitPair? body with
    | none => none
    | some (left, right) =>
      let name := Text.trim left
      match keys.lookup name with
      | some key => key.setting? (Text.trim right)
      | none => some (.unknown name)

def setting? (line : Text) : Option Setting :=
  (body? line).bind settingOfBody?

def settings (content : Text) : List Setting :=
  (Text.lines content).filterMap setting?

/-- A configuration after the settings of a file. -/
def load (config : Config) (content : Text) : Config :=
  config.setAll (settings content)

/-- The remark on a setting that does not exist. -/
def remark? : Setting → Option Text
  | .unknown name => some ("unknown setting `".toList ++ name ++ "`".toList)
  | _ => none

def remarks (content : Text) : List Text :=
  (settings content).filterMap remark?

end HashTunnel.Rc
