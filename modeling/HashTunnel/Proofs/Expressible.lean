import HashTunnel.Proofs.Settings
import HashTunnel.Proofs.Trimming

/-! # What a settings file can say

A settings file gives the program, the macros and the include paths as trimmed values in which no hash
sign follows a blank, and the arguments as words. These are the only bounds: every configuration within
them has a file that gives it (`exists_load_eq_iff`).
-/

namespace HashTunnel

/-- Holds of a text in which no hash sign directly follows a blank. -/
def Uncommented (text : Text) : Prop :=
  ∀ before c after, text = before ++ c :: '#' :: after → Text.isBlank c = false

theorem uncommented_nil : Uncommented [] := by
  intro before c after shape
  simp at shape

theorem uncommented_cons {c : Char} {rest : Text} :
    Uncommented (c :: rest) ↔ (rest.head? = some '#' → Text.isBlank c = false) ∧ Uncommented rest := by
  constructor
  · intro uncommented
    constructor
    · intro hash
      obtain ⟨after, rfl⟩ := List.head?_eq_some_iff.mp hash
      exact uncommented [] c after rfl
    · rintro before d after rfl
      exact uncommented (c :: before) d after rfl
  · rintro ⟨first, uncommented⟩ before d after shape
    rcases before with _ | ⟨e, before⟩
    · obtain ⟨rfl, rfl⟩ := List.cons.inj shape
      exact first rfl
    · obtain ⟨rfl, rfl⟩ := List.cons.inj shape
      exact uncommented before d after rfl

theorem Uncommented.of_infix {part text : Text} (uncommented : Uncommented text) (inside : part <:+: text) :
    Uncommented part := by
  obtain ⟨front, back, rfl⟩ := inside
  rintro before c after rfl
  exact uncommented (front ++ before) c (after ++ back) (by simp)

/-- A text without blanks comments nothing out. -/
theorem uncommented_append_of_solid {start rest : Text} (solid : ∀ c ∈ start, Text.isBlank c = false) :
    Uncommented (start ++ rest) ↔ Uncommented rest := by
  induction start with
  | nil => rfl
  | cons c start ih =>
    rw [List.forall_mem_cons] at solid
    rw [List.cons_append, uncommented_cons, ih solid.2]
    simp [solid.1]

theorem uncommented_of_solid {text : Text} (solid : ∀ c ∈ text, Text.isBlank c = false) : Uncommented text :=
  List.append_nil text ▸ (uncommented_append_of_solid solid).mpr uncommented_nil

namespace Rc

theorem head?_dropComment {text : Text} {c : Char} (first : (dropComment text).head? = some c) : text.head? = some c := by
  cases text with
  | nil => exact first
  | cons d text =>
    rw [dropComment] at first
    split at first
    · simp at first
    · exact first

theorem uncommented_dropComment (text : Text) : Uncommented (dropComment text) := by
  induction text with
  | nil => exact uncommented_nil
  | cons c text ih =>
    rw [dropComment]
    split
    · exact uncommented_nil
    · rename_i kept
      refine uncommented_cons.mpr ⟨fun hash => ?_, ih⟩
      simpa [head?_dropComment hash] using kept

theorem dropComment_of_uncommented {text : Text} (uncommented : Uncommented text) : dropComment text = text := by
  induction text with
  | nil => rfl
  | cons c text ih =>
    rw [uncommented_cons] at uncommented
    have kept : ¬ (Text.isBlank c && text.head? == some '#') = true := by
      simp only [Bool.and_eq_true, beq_iff_eq, not_and]
      intro blank hash
      rw [uncommented.1 hash] at blank
      contradiction
    rw [dropComment, if_neg kept, ih uncommented.2]

theorem dropComment_isPrefix (text : Text) : dropComment text <+: text := by
  induction text with
  | nil => exact List.prefix_rfl
  | cons c text ih =>
    rw [dropComment]
    split
    · exact List.nil_prefix
    · exact List.cons_prefix_cons.mpr ⟨rfl, ih⟩

end Rc

/-- Holds of what can be given as a program, a macro or an include path. -/
structure IsValue (value : Text) : Prop where
  inhabited : value ≠ []
  trimmed : Text.Trimmed value
  whole : '\n' ∉ value
  uncommented : Uncommented value

theorem isValue_of_isWord {word : Text} (single : Text.IsWord word) : IsValue word where
  inhabited := single.1
  trimmed := single.trimmed
  whole := single.newline_not_mem
  uncommented := uncommented_of_solid single.2

/-- Holds of what can be given as arguments: words, of which the first one only may begin with a hash
    sign. -/
structure AreArguments (args : List Text) : Prop where
  words : ∀ arg ∈ args, Text.IsWord arg
  uncommented : ∀ arg ∈ args.tail, arg.head? ≠ some '#'

theorem AreArguments.tail {arg : Text} {args : List Text} (arguments : AreArguments (arg :: args)) : AreArguments args :=
  ⟨fun other member => arguments.words other (List.mem_cons_of_mem arg member),
    fun other member => arguments.uncommented other (List.mem_of_mem_tail member)⟩

theorem AreArguments.uncommented_joinWith {args : List Text} (arguments : AreArguments args) :
    Uncommented (Text.joinWith ' ' args) := by
  induction args with
  | nil => exact uncommented_nil
  | cons arg args ih =>
    have solid := (arguments.words arg List.mem_cons_self).2
    cases args with
    | nil => exact uncommented_of_solid solid
    | cons next args =>
      have inhabited := (arguments.words next (by simp)).1
      rw [Text.joinWith_cons_cons, uncommented_append_of_solid solid, uncommented_cons, Text.head?_joinWith inhabited]
      exact ⟨fun hash => absurd hash (arguments.uncommented next List.mem_cons_self), ih arguments.tail⟩

/-- Holds of the configurations that a settings file can give. -/
structure Config.Expressible (config : Config) : Prop where
  engine : IsValue config.engine
  engineArgs : AreArguments config.engineArgs
  defines : ∀ definition ∈ config.defines, IsValue definition
  includePaths : ∀ path ∈ config.includePaths, IsValue path

/-- Holds of the settings that a line can ask for. -/
def Setting.Valid : Setting → Prop
  | .engine program => IsValue program
  | .engineArgs args => AreArguments args
  | .define definition => IsValue definition
  | .includePath path => IsValue path
  | .strict _ | .lineMarkers _ | .unknown _ => True

theorem Config.Expressible.set {config : Config} (expressible : config.Expressible) {setting : Setting}
    (valid : setting.Valid) : (config.set setting).Expressible := by
  obtain ⟨engine, engineArgs, defines, includePaths⟩ := expressible
  cases setting with
  | engine program => exact ⟨valid, engineArgs, defines, includePaths⟩
  | engineArgs args => exact ⟨engine, valid, defines, includePaths⟩
  | define definition =>
    exact ⟨engine, engineArgs, List.forall_mem_append.mpr ⟨defines, List.forall_mem_singleton.mpr valid⟩, includePaths⟩
  | includePath path =>
    exact ⟨engine, engineArgs, defines, List.forall_mem_append.mpr ⟨includePaths, List.forall_mem_singleton.mpr valid⟩⟩
  | strict on => exact ⟨engine, engineArgs, defines, includePaths⟩
  | lineMarkers on => exact ⟨engine, engineArgs, defines, includePaths⟩
  | unknown name => exact ⟨engine, engineArgs, defines, includePaths⟩

theorem Config.Expressible.setAll {config : Config} (expressible : config.Expressible) {settings : List Setting}
    (valid : ∀ setting ∈ settings, setting.Valid) : (config.setAll settings).Expressible := by
  induction settings generalizing config with
  | nil => exact expressible
  | cons setting settings ih =>
    rw [List.forall_mem_cons] at valid
    exact ih (expressible.set valid.1) valid.2

namespace Rc

theorem eq_of_splitPair? {body left right : Text} (found : splitPair? body = some (left, right)) :
    body = left ++ '=' :: right := by
  unfold splitPair? at found
  split at found
  · rename_i sign value behind
    obtain ⟨rfl, rfl⟩ := Prod.mk.inj (Option.some.inj found)
    have equals : sign = '=' := by
      have first := List.head?_dropWhile_not (· != '=') body
      rw [behind] at first
      simpa using first
    calc body = body.takeWhile (· != '=') ++ body.dropWhile (· != '=') := List.takeWhile_append_dropWhile.symm
      _ = body.takeWhile (· != '=') ++ '=' :: value := by rw [behind, equals]
  · simp at found

/-- Only a word with a blank right before it could begin with a hash sign that comments it out. -/
theorem areArguments_words {value : Text} (uncommented : Uncommented value) : AreArguments (Text.words value) := by
  refine ⟨fun arg member => Text.isWord_of_mem_words member, fun arg member hash => ?_⟩
  obtain ⟨before, c, after, blank, rfl⟩ := Text.exists_blank_of_mem_tail_words member
  obtain ⟨rest, rfl⟩ := List.head?_eq_some_iff.mp hash
  rw [uncommented before c (rest ++ after) rfl] at blank
  contradiction

/-- A switch turns something on or off and gives nothing. -/
theorem valid_of_mem_switches : ∀ switch ∈ switches, switch.2.Valid := by
  simp [switches, Setting.Valid]

theorem Key.setting?_valid {key : Key} {value : Text} (trimmed : Text.Trimmed value) (whole : '\n' ∉ value)
    (uncommented : Uncommented value) {setting : Setting} (asked : key.setting? value = some setting) :
    setting.Valid := by
  cases key with
  | engine | define | includePath =>
    rw [setting?] at asked
    split at asked
    · simp at asked
    · rename_i inhabited
      obtain rfl := Option.some.inj asked
      exact ⟨by simpa using inhabited, trimmed, whole, uncommented⟩
  | engineArgs =>
    obtain rfl := Option.some.inj asked
    exact areArguments_words uncommented
  | strict | lineMarkers =>
    obtain rfl := Option.some.inj asked
    trivial

theorem settingOfBody?_valid {body : Text} (whole : '\n' ∉ body) (uncommented : Uncommented body) {setting : Setting}
    (asked : settingOfBody? body = some setting) : setting.Valid := by
  unfold settingOfBody? at asked
  split at asked
  · obtain rfl := Option.some.inj asked
    cases found : switches.lookup (Text.trim (body.drop 4)) with
    | none => trivial
    | some setting =>
      obtain ⟨front, back, shape, -⟩ := List.lookup_eq_some_iff.mp found
      exact valid_of_mem_switches _ (shape ▸ List.mem_append_right front List.mem_cons_self)
  · split at asked
    · simp at asked
    · rename_i left right pair
      have shape := eq_of_splitPair? pair
      have inside : Text.trim right <:+: body := by
        refine (Text.trim_isInfix right).trans ?_
        rw [shape]
        exact ⟨left ++ ['='], [], by simp⟩
      simp only at asked
      split at asked
      · exact Key.setting?_valid (Text.trimmed_trim right) (fun feed => whole (inside.subset feed))
          (uncommented.of_infix inside) asked
      · obtain rfl := Option.some.inj asked
        trivial

theorem setting?_valid {line : Text} (whole : '\n' ∉ line) {setting : Setting} (asked : setting? line = some setting) :
    setting.Valid := by
  obtain ⟨body, said, asked⟩ := Option.bind_eq_some_iff.mp asked
  simp only [body?] at said
  split at said
  · simp at said
  · obtain rfl := Option.some.inj said
    have kept := uncommented_dropComment (Text.trim line)
    have cut := Text.trim_isInfix (dropComment (Text.trim line))
    have inside := cut.trans ((dropComment_isPrefix _).isInfix.trans (Text.trim_isInfix line))
    exact settingOfBody?_valid (fun feed => whole (inside.subset feed)) (kept.of_infix cut) asked

theorem settings_valid (content : Text) : ∀ setting ∈ settings content, setting.Valid := by
  intro setting member
  obtain ⟨line, inside, asked⟩ := List.mem_filterMap.mp member
  exact setting?_valid (Text.not_mem_of_mem_lines inside) asked

end Rc

theorem Config.expressible_default : Config.default.Expressible where
  engine := isValue_of_isWord (by decide)
  engineArgs := ⟨by simp only [Config.default, defaultEngineArgs, List.forall_mem_cons]; decide, by decide⟩
  defines := by simp [Config.default]
  includePaths := by simp [Config.default]

namespace Rc

/-- Holds of the spelling of a key: a word without what a line means something by. -/
def IsName (name : Text) : Prop :=
  Text.IsWord name ∧ '=' ∉ name ∧ '#' ∉ name ∧ '"' ∉ name

instance : DecidablePred IsName := fun name =>
  inferInstanceAs (Decidable (Text.IsWord name ∧ '=' ∉ name ∧ '#' ∉ name ∧ '"' ∉ name))

section Pairs

variable {name value : Text}

theorem splitPair?_pair (plain : '=' ∉ name) : splitPair? (name ++ '=' :: value) = some (name, value) := by
  have others : ∀ c ∈ name, (c != '=') = true := by
    intro c member
    rw [bne_iff_ne]
    rintro rfl
    exact plain member
  have behind : (name ++ '=' :: value).dropWhile (· != '=') = '=' :: value := by
    rw [List.dropWhile_append_of_pos others, List.dropWhile_cons_of_neg (by decide)]
  have front : (name ++ '=' :: value).takeWhile (· != '=') = name := by
    rw [List.takeWhile_append_of_pos others, List.takeWhile_cons_of_neg (by decide), List.append_nil]
  rw [splitPair?, behind, front]

theorem trimmed_pair (single : Text.IsWord name) (trimmed : Text.Trimmed value) :
    Text.Trimmed (name ++ '=' :: value) := by
  refine Text.trimmed_append single.1 single.trimmed.1 (List.cons_ne_nil '=' value) fun c last => ?_
  cases value with
  | nil =>
    obtain rfl := Option.some.inj last
    rfl
  | cons d value =>
    rw [List.getLast?_cons_cons] at last
    exact trimmed.2 c last

theorem body?_pair (named : IsName name) (trimmed : Text.Trimmed value) (uncommented : Uncommented value) :
    body? (name ++ '=' :: value) = some (name ++ '=' :: value) := by
  obtain ⟨single, -, noHash, noQuote⟩ := named
  have line := trimmed_pair single trimmed
  have whole : Uncommented (name ++ '=' :: value) :=
    (uncommented_append_of_solid single.2).mpr (uncommented_cons.mpr ⟨fun _ => rfl, uncommented⟩)
  have speaks : isSilent (name ++ '=' :: value) = false := by
    obtain ⟨c, rest, rfl⟩ := List.exists_cons_of_ne_nil single.1
    have noHash : c ≠ '#' := fun same => noHash (same ▸ List.mem_cons_self)
    have noQuote : c ≠ '"' := fun same => noQuote (same ▸ List.mem_cons_self)
    simp [isSilent, noHash, noQuote]
  simp [body?, line.trim_eq, speaks, dropComment_of_uncommented whole]

/-- A key, an equals sign and a trimmed value ask for the setting of the key. -/
theorem setting?_pair (named : IsName name) {key : Key} (known : keys.lookup name = some key)
    (trimmed : Text.Trimmed value) (uncommented : Uncommented value) :
    setting? (name ++ '=' :: value) = key.setting? value := by
  -- There is no blank in a name, so the line does not begin as that of a switch does.
  have noSwitch : ¬ "set ".toList.isPrefixOf (name ++ '=' :: value) = true := by
    rw [List.isPrefixOf_iff_prefix]
    rintro ⟨rest, shape⟩
    obtain ⟨behind, rfl⟩ := Text.eq_append_of_append_cons "set ".toList (by decide) shape.symm
    have blank := named.1.2 ' ' (by simp)
    contradiction
  rw [setting?, body?_pair named trimmed uncommented, Option.bind_some, settingOfBody?, if_neg noSwitch,
    splitPair?_pair named.2.1]
  simp [named.1.trimmed.trim_eq, known, trimmed.trim_eq]

/-- What takes any value at all takes a valid one. -/
theorem setting?_value (key : Key) (named : IsName name) (known : keys.lookup name = some key) {give : Text → Setting}
    (takes : ∀ text, ¬ text.isEmpty = true → key.setting? text = some (give text)) (valid : IsValue value) :
    setting? (name ++ '=' :: value) = some (give value) := by
  rw [setting?_pair named known valid.trimmed valid.uncommented]
  exact takes value (by simpa using valid.inhabited)

theorem newline_not_mem_pair (named : IsName name) (whole : '\n' ∉ value) : '\n' ∉ name ++ '=' :: value := by
  rw [List.mem_append, List.mem_cons]
  rintro (feed | feed | feed)
  · exact named.1.newline_not_mem feed
  · exact absurd feed (by decide)
  · exact whole feed

end Pairs

/-- The line that gives a value for a key. -/
def pairLine (name : String) (value : Text) : Text :=
  name.toList ++ '=' :: value

/-- The line that turns something on or off. -/
def switchLine (name : String) (on : Bool) : Text :=
  "set ".toList ++ (if on then [] else "no".toList) ++ name.toList

/-- The lines of a settings file that gives a configuration. -/
def linesFor (config : Config) : List Text :=
  [pairLine "engine" config.engine, pairLine "args" (Text.joinWith ' ' config.engineArgs)] ++
    config.defines.map (pairLine "define") ++ config.includePaths.map (pairLine "include") ++
    [switchLine "strict" config.strict, switchLine "linemarkers" config.lineMarkers]

/-- The settings of such a file. -/
def settingsFor (config : Config) : List Setting :=
  [Setting.engine config.engine, Setting.engineArgs config.engineArgs] ++ config.defines.map Setting.define ++
    config.includePaths.map Setting.includePath ++
    [Setting.strict config.strict, Setting.lineMarkers config.lineMarkers]

theorem setting?_args {args : List Text} (arguments : AreArguments args) :
    setting? (pairLine "args" (Text.joinWith ' ' args)) = some (.engineArgs args) := by
  have asked := setting?_pair (by decide : IsName "args".toList) (by decide : keys.lookup "args".toList = some .engineArgs)
    (Text.trimmed_joinWith arguments.words) arguments.uncommented_joinWith
  rwa [Key.setting?, Text.words_joinWith arguments.words] at asked

theorem filterMap_setting?_map {items : List Text} {line : Text → Text} {setting : Text → Setting}
    (asks : ∀ item ∈ items, setting? (line item) = some (setting item)) :
    (items.map line).filterMap setting? = items.map setting := by
  induction items with
  | nil => rfl
  | cons item items ih =>
    rw [List.forall_mem_cons] at asks
    rw [List.map_cons, List.filterMap_cons_some asks.1, ih asks.2]
    rfl

theorem filterMap_setting?_linesFor {config : Config} (expressible : config.Expressible) :
    (linesFor config).filterMap setting? = settingsFor config := by
  have engine : setting? (pairLine "engine" config.engine) = some (.engine config.engine) :=
    setting?_value .engine (by decide) (by decide) (fun _ some => if_neg some) expressible.engine
  have defines : ∀ definition ∈ config.defines, setting? (pairLine "define" definition) = some (.define definition) :=
    fun definition member =>
      setting?_value .define (by decide) (by decide) (fun _ some => if_neg some) (expressible.defines definition member)
  have includePaths : ∀ path ∈ config.includePaths, setting? (pairLine "include" path) = some (.includePath path) :=
    fun path member =>
      setting?_value .includePath (by decide) (by decide) (fun _ some => if_neg some) (expressible.includePaths path member)
  have strict : setting? (switchLine "strict" config.strict) = some (.strict config.strict) := by
    cases config.strict <;> decide
  have lineMarkers : setting? (switchLine "linemarkers" config.lineMarkers) = some (.lineMarkers config.lineMarkers) := by
    cases config.lineMarkers <;> decide
  rw [linesFor, settingsFor, List.filterMap_append, List.filterMap_append, List.filterMap_append,
    filterMap_setting?_map defines, filterMap_setting?_map includePaths, List.filterMap_cons_some engine,
    List.filterMap_cons_some (setting?_args expressible.engineArgs), List.filterMap_cons_some strict,
    List.filterMap_cons_some lineMarkers]
  rfl

theorem newline_not_mem_linesFor {config : Config} (expressible : config.Expressible) :
    ∀ line ∈ linesFor config, '\n' ∉ line := by
  have switches : ∀ on, '\n' ∉ switchLine "strict" on ∧ '\n' ∉ switchLine "linemarkers" on := by decide
  simp only [linesFor, List.forall_mem_append, List.forall_mem_cons, List.forall_mem_map]
  refine ⟨⟨⟨⟨?_, ?_, List.forall_mem_nil _⟩, fun definition member => ?_⟩, fun path member => ?_⟩, ?_, ?_,
    List.forall_mem_nil _⟩
  · exact newline_not_mem_pair (by decide) expressible.engine.whole
  · exact newline_not_mem_pair (by decide) (Text.newline_not_mem_joinWith expressible.engineArgs.words)
  · exact newline_not_mem_pair (by decide) (expressible.defines definition member).whole
  · exact newline_not_mem_pair (by decide) (expressible.includePaths path member).whole
  · exact (switches config.strict).1
  · exact (switches config.lineMarkers).2

end Rc

theorem Rc.load_linesFor {config : Config} (expressible : config.Expressible) :
    Rc.load Config.default (Text.joinWith '\n' (Rc.linesFor config)) = config := by
  have inhabited : Rc.linesFor config ≠ [] := List.append_ne_nil_of_right_ne_nil _ (List.cons_ne_nil _ _)
  rw [Rc.load, Rc.settings, Text.lines_joinWith inhabited (Rc.newline_not_mem_linesFor expressible),
    Rc.filterMap_setting?_linesFor expressible, Rc.settingsFor]
  rw [Config.setAll_eq]
  simp only [lastGiven, List.filterMap_append, List.filterMap_map, List.filterMap_cons, List.filterMap_nil,
    Function.comp_def, Setting.program?, Setting.arguments?, Setting.definition?, Setting.path?, Setting.strictness?,
    Setting.announcement?]
  simp [Config.default]

/-- The configurations that a settings file gives are those with trimmed values without comments in them
    and with words for arguments, and each of these has a file. -/
theorem exists_load_eq_iff (config : Config) :
    (∃ content, Rc.load Config.default content = config) ↔ config.Expressible := by
  constructor
  · rintro ⟨content, rfl⟩
    exact Config.expressible_default.setAll (Rc.settings_valid content)
  · intro expressible
    exact ⟨_, Rc.load_linesFor expressible⟩

/-- A macro whose body has a hash sign behind a blank cannot be given. -/
example : ¬ IsValue "ASSERT(c)=assert(c, #c)".toList := by
  intro value
  exact absurd (value.uncommented "ASSERT(c)=assert(c,".toList ' ' "c)".toList rfl) (by decide)

end HashTunnel
