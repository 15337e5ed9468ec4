import HashTunnel.Proofs.NoiseLines

/-! # What a settings file means

A line of a settings file states a command or a value for a name, or nothing (`statement?_eq_some_iff`). Each part of a
configuration depends on the statements about it and on nothing else in the file, so lines about different parts can
change places, and a file can be read in two halves (`load_by_parts`).
-/

namespace HashTunnel.Rc

/-- What a line of a settings file states: a command, or a value for a name. -/
inductive Statement where
  | command (word : Text)
  | pair (name value : Text)
  deriving DecidableEq, Repr

/-- A text without the blanks at its ends. -/
def bare (text : Text) : Text :=
  (text.dropWhile Text.isBlank).rdropWhile Text.isBlank

/-- Holds of a text and the comment that follows it: nothing, or what begins with a hash sign right behind a blank. -/
def OpensComment (kept comment : Text) : Prop :=
  comment = [] ∨ (∃ c, kept.getLast? = some c ∧ Text.isBlank c = true) ∧ comment.head? = some '#'

/-- Holds of a line and its body. The line has more in it than blanks and begins neither with a hash sign nor with a
    double quote. Its body stands before the first hash sign that directly follows a blank. -/
def Says (line body : Text) : Prop :=
  (∃ c, (bare line).head? = some c ∧ c ≠ '#' ∧ c ≠ '"') ∧
    ∃ kept comment, bare line = kept ++ comment ∧ Uncommented kept ∧ OpensComment kept comment ∧ body = bare kept

/-- Holds of a body and what it states: the word of a `set` command, or else both sides of the first equals sign. -/
def States (body : Text) : Statement → Prop
  | .command word => ∃ rest, body = "set ".toList ++ rest ∧ word = bare rest
  | .pair name value => ¬ "set ".toList <+: body ∧
      ∃ left right, body = left ++ '=' :: right ∧ '=' ∉ left ∧ name = bare left ∧ value = bare right

def statementOf? (body : Text) : Option Statement :=
  if "set ".toList.isPrefixOf body then some (.command (Text.trim (body.drop 4)))
  else (splitPair? body).map fun sides => .pair (Text.trim sides.1) (Text.trim sides.2)

def statement? (line : Text) : Option Statement :=
  (body? line).bind statementOf?

/-- What the lines of a file state, in order. -/
def statements (content : Text) : List Statement :=
  (content.splitOn '\n').filterMap statement?

theorem trim_eq_bare (text : Text) : Text.trim text = bare text := rfl

theorem lines_eq_splitOn (content : Text) : Text.lines content = content.splitOn '\n' :=
  Text.splitWhere_eq_splitOnP _ content

section Lines

variable {line body kept comment : Text}

theorem dropComment_append_hash {b : Char} (blank : Text.isBlank b = true) (uncommented : Uncommented kept) (rest : Text) :
    dropComment (kept ++ b :: '#' :: rest) = kept := by
  have solid : b ≠ '#' := by
    rintro rfl
    exact absurd blank (by decide)
  -- Inside `kept` no hash sign follows a blank, so the cut is not made before `b`.
  induction kept with
  | nil => simp [dropComment, blank]
  | cons c kept ih =>
    rw [uncommented_cons] at uncommented
    rw [List.cons_append, dropComment, if_neg, ih uncommented.2]
    cases kept with
    | nil => simp [solid]
    | cons d kept => simpa [imp_not_comm] using uncommented.1

/-- A line is cut where its comment begins, and then trimmed. -/
theorem trim_dropComment_append (uncommented : Uncommented kept) (opens : OpensComment kept comment) :
    Text.trim (dropComment (kept ++ comment)) = Text.trim kept := by
  rcases opens with rfl | ⟨⟨b, last, blank⟩, hash⟩
  · rw [List.append_nil, dropComment_of_uncommented uncommented]
  · obtain ⟨before, rfl⟩ := List.getLast?_eq_some_iff.mp last
    obtain ⟨rest, rfl⟩ := List.head?_eq_some_iff.mp hash
    have start : Uncommented before := uncommented.of_infix (List.prefix_append before [b]).isInfix
    rw [List.append_assoc, List.singleton_append, dropComment_append_hash blank start, Text.trim_append_blank blank]

theorem exists_opensComment (text : Text) :
    ∃ kept comment, text = kept ++ comment ∧ Uncommented kept ∧ OpensComment kept comment := by
  induction text with
  | nil => exact ⟨[], [], rfl, uncommented_nil, .inl rfl⟩
  | cons c text ih =>
    obtain ⟨kept, comment, rfl, uncommented, opens⟩ := ih
    by_cases cut : (kept ++ comment).head? = some '#' ∧ Text.isBlank c = true
    · obtain ⟨hash, blank⟩ := cut
      refine ⟨[c], kept ++ comment, rfl, ?_, .inr ⟨⟨c, rfl, blank⟩, hash⟩⟩
      exact uncommented_cons.mpr ⟨fun none => by simp at none, uncommented_nil⟩
    · refine ⟨c :: kept, comment, rfl, uncommented_cons.mpr ⟨fun hash => ?_, uncommented⟩, ?_⟩
      · obtain ⟨rest, rfl⟩ := List.head?_eq_some_iff.mp hash
        simpa using cut
      · rcases opens with none | ⟨⟨b, last, blank⟩, hash⟩
        · exact .inl none
        · refine .inr ⟨⟨b, ?_, blank⟩, hash⟩
          rw [List.getLast?_cons, last]
          rfl

theorem isSilent_eq_false_iff {text : Text} : isSilent text = false ↔ ∃ c, text.head? = some c ∧ c ≠ '#' ∧ c ≠ '"' := by
  cases text with
  | nil => simp [isSilent]
  | cons c text => simp [isSilent]

theorem body?_eq_some_iff : body? line = some body ↔ Says line body := by
  obtain ⟨kept, comment, shape, uncommented, opens⟩ := exists_opensComment (Text.trim line)
  simp only [Says, ← trim_eq_bare]
  rw [← isSilent_eq_false_iff, body?]
  cases silent : isSilent (Text.trim line) with
  | true => simp
  | false =>
    simp only [Bool.false_eq_true, if_false, Option.some.injEq, true_and]
    constructor
    · rintro rfl
      refine ⟨kept, comment, shape, uncommented, opens, ?_⟩
      rw [shape, trim_dropComment_append uncommented opens]
    · rintro ⟨kept, comment, shape, uncommented, opens, rfl⟩
      rw [shape, trim_dropComment_append uncommented opens]

theorem statementOf?_eq_some_iff {statement : Statement} : statementOf? body = some statement ↔ States body statement := by
  unfold statementOf?
  by_cases switch : "set ".toList.isPrefixOf body = true
  · rw [if_pos switch]
    obtain ⟨rest, rfl⟩ := List.isPrefixOf_iff_prefix.mp switch
    cases statement with
    | command word => simp [States, trim_eq_bare, eq_comm]
    | pair name value => simp [States]
  · rw [if_neg switch, Option.map_eq_some_iff]
    rw [List.isPrefixOf_iff_prefix] at switch
    cases statement with
    | command word =>
      simp only [States, reduceCtorEq, and_false, exists_false, false_iff]
      rintro ⟨rest, rfl, -⟩
      exact switch ⟨rest, rfl⟩
    | pair name value =>
      rw [States, and_iff_right switch, Prod.exists]
      refine exists_congr fun left => exists_congr fun right => ?_
      rw [splitPair?_eq_some_iff, and_assoc, Statement.pair.injEq, eq_comm (b := name), eq_comm (b := value),
        trim_eq_bare, trim_eq_bare]

theorem statement?_eq_some_iff {statement : Statement} :
    statement? line = some statement ↔ ∃ body, Says line body ∧ States body statement := by
  rw [statement?, Option.bind_eq_some_iff]
  exact exists_congr fun body => and_congr body?_eq_some_iff statementOf?_eq_some_iff

end Lines

/-- The value that a statement gives for a key. -/
def Key.value? (key : Key) : Statement → Option Text
  | .command _ => none
  | .pair name value => if name ∈ key.names then some value else none

/-- What the word of a command says about a key. -/
def Key.switch? (key : Key) (word : Text) : Option Bool :=
  match key with
  | strict => if word = "strict".toList then some true else if word = "nostrict".toList then some false else none
  | lineMarkers =>
    if word = "linemarkers".toList then some true else if word = "nolinemarkers".toList then some false else none
  | _ => none

/-- Holds of the values that mean yes. Any other one means no. -/
def MeansYes (value : Text) : Prop :=
  value = "true".toList ∨ value = "1".toList ∨ value = "yes".toList

instance : DecidablePred MeansYes := fun value =>
  inferInstanceAs (Decidable (value = "true".toList ∨ value = "1".toList ∨ value = "yes".toList))

/-- What a statement says about a key that is on or off. -/
def Key.answer? (key : Key) : Statement → Option Bool
  | .command word => key.switch? word
  | .pair name value => if name ∈ key.names then some (decide (MeansYes value)) else none

/-- Holds of the statements about a key. -/
def Key.concerns (key : Key) : Statement → Bool
  | .command word => (key.switch? word).isSome
  | .pair name _ => decide (name ∈ key.names)

/-- The lines about a key, in order. -/
def linesAbout (key : Key) (content : Text) : List Text :=
  (content.splitOn '\n').filter fun line => (statement? line).any key.concerns

/-- The values that statements give for a key, in order, but for the empty ones. -/
def Key.valuesIn (key : Key) (statements : List Statement) : List Text :=
  (statements.filterMap key.value?).filter (· ≠ [])

/-- The words of the last value that statements give for the arguments. -/
def lastArguments? (statements : List Statement) : Option (List Text) :=
  (statements.filterMap Key.engineArgs.value?).getLast?.map fun value =>
    (value.splitOnP Text.isBlank).filter (· ≠ [])

/-- The last answer that statements give for a key that is on or off. -/
def Key.lastAnswer? (key : Key) (statements : List Statement) : Option Bool :=
  (statements.filterMap key.answer?).getLast?

/-- The configuration that statements make of another one. The last program that is not empty, the last arguments and
    the last answers hold; macros and include paths that are not empty are added in order. -/
def stated (config : Config) (statements : List Statement) : Config where
  engine := (Key.engine.valuesIn statements).getLast?.getD config.engine
  engineArgs := (lastArguments? statements).getD config.engineArgs
  defines := config.defines ++ Key.define.valuesIn statements
  includePaths := config.includePaths ++ Key.includePath.valuesIn statements
  strict := (Key.strict.lastAnswer? statements).getD config.strict
  lineMarkers := (Key.lineMarkers.lastAnswer? statements).getD config.lineMarkers

def Statement.setting? : Statement → Option Setting
  | .command word => some ((switches.lookup word).getD (.unknown word))
  | .pair name value => (keys.lookup name).elim (some (.unknown name)) (·.setting? value)

theorem settingOfBody?_eq (body : Text) : settingOfBody? body = (statementOf? body).bind Statement.setting? := by
  unfold settingOfBody? statementOf?
  split
  · rfl
  · cases splitPair? body with
    | none => rfl
    | some sides =>
      obtain ⟨left, right⟩ := sides
      simp only [Option.map_some, Option.bind_some, Statement.setting?]
      cases keys.lookup (Text.trim left) with
      | none => rfl
      | some key => rfl

theorem settings_eq_filterMap (content : Text) :
    settings content = (statements content).filterMap Statement.setting? := by
  rw [settings, lines_eq_splitOn, statements, List.filterMap_filterMap]
  refine List.filterMap_congr fun line _ => ?_
  rw [setting?, statement?, Option.bind_assoc]
  exact Option.bind_congr fun body _ => settingOfBody?_eq body

/-- A command is a switch of one of two keys, or means nothing. -/
theorem switch_cases (word : Text) :
    (∃ on, Key.strict.switch? word = some on ∧ Key.lineMarkers.switch? word = none ∧
      switches.lookup word = some (.strict on)) ∨
    (∃ on, Key.strict.switch? word = none ∧ Key.lineMarkers.switch? word = some on ∧
      switches.lookup word = some (.lineMarkers on)) ∨
    Key.strict.switch? word = none ∧ Key.lineMarkers.switch? word = none ∧ switches.lookup word = none := by
  by_cases known : word ∈ switchWords
  · simp only [switchWords, List.mem_cons, List.not_mem_nil, or_false] at known
    rcases known with rfl | rfl | rfl | rfl
    · exact .inl ⟨true, by decide, by decide, by decide⟩
    · exact .inl ⟨false, by decide, by decide, by decide⟩
    · exact .inr (.inl ⟨true, by decide, by decide, by decide⟩)
    · exact .inr (.inl ⟨false, by decide, by decide, by decide⟩)
  · have others := lookup_switches_eq_none known
    simp only [switchWords, List.mem_cons, not_or] at known
    obtain ⟨strict, nostrict, linemarkers, nolinemarkers, -⟩ := known
    refine .inr (.inr ⟨?_, ?_, others⟩)
    · rw [Key.switch?, if_neg strict, if_neg nostrict]
    · rw [Key.switch?, if_neg linemarkers, if_neg nolinemarkers]

section Parts

variable {α : Type} {give : Setting → Option α} {read : Statement → Option α} {key : Key}

/-- What settings give of one key is read off the statements, if it is off each command and each value for the key. -/
theorem filterMap_settings (own : ∀ setting, keyOf? setting ≠ some key → give setting = none)
    (commands : ∀ word, give ((switches.lookup word).getD (.unknown word)) = read (.command word))
    (values : ∀ name value, (if name ∈ key.names then (key.setting? value).bind give else none) = read (.pair name value))
    (content : Text) : (settings content).filterMap give = (statements content).filterMap read := by
  rw [settings_eq_filterMap, List.filterMap_filterMap]
  refine List.filterMap_congr fun statement _ => ?_
  cases statement with
  | command word => exact commands word
  | pair name value =>
    rw [← values, Statement.setting?]
    cases found : keys.lookup name with
    | none =>
      have other : name ∉ key.names := fun named => by simp [lookup_keys_iff.mpr named] at found
      rw [if_neg other]
      exact own _ (by simp [keyOf?])
    | some known =>
      rw [Option.elim_some]
      by_cases same : known = key
      · subst same
        rw [if_pos (lookup_keys_iff.mp found)]
      · -- The setting is of the key that is named, so nothing is read of it.
        have other : name ∉ key.names := fun named =>
          same (Option.some.inj (found.symm.trans (lookup_keys_iff.mpr named)))
        rw [if_neg other, Option.bind_eq_none_iff]
        intro setting asked
        refine own setting fun own => same (Option.some.inj ?_)
        rw [← keyOf?_setting? asked, own]

/-- Only the statements about a key matter for what is read of it. -/
theorem filterMap_linesAbout (silent : ∀ statement, key.concerns statement = false → read statement = none) (content : Text) :
    ((linesAbout key content).filterMap statement?).filterMap read = (statements content).filterMap read := by
  rw [linesAbout, statements, List.filterMap_filterMap, List.filterMap_filterMap]
  refine filterMap_filter_of_silent (fun line other => ?_) (content.splitOn '\n')
  rw [Option.bind_eq_none_iff]
  intro statement said
  exact silent statement (by simpa [said] using other)

theorem give_command (own : ∀ setting, keyOf? setting ≠ some key → give setting = none) {word : Text}
    (silent : key.switch? word = none) : give ((switches.lookup word).getD (.unknown word)) = none := by
  refine own _ fun same => ?_
  rcases switch_cases word with ⟨on, said, -, found⟩ | ⟨on, -, said, found⟩ | ⟨-, -, found⟩
  · rw [found] at same
    obtain rfl := Option.some.inj same
    simp [silent] at said
  · rw [found] at same
    obtain rfl := Option.some.inj same
    simp [silent] at said
  · rw [found] at same
    simp [keyOf?] at same

end Parts

/-- Of a key that takes any value but the empty one, settings give the values that are not empty. -/
theorem filterMap_values (key : Key) (give : Setting → Option Text) {make : Text → Setting}
    (asks : ∀ value, key.setting? value = if value.isEmpty then none else some (make value))
    (gives : ∀ value, give (make value) = some value) (own : ∀ setting, keyOf? setting ≠ some key → give setting = none)
    (silent : ∀ word, key.switch? word = none) (content : Text) :
    (settings content).filterMap give = key.valuesIn (statements content) := by
  rw [Key.valuesIn, List.filter_filterMap]
  refine filterMap_settings own (fun word => give_command own (silent word)) (fun name value => ?_) content
  by_cases named : name ∈ key.names
  · cases value with
    | nil => simp [named, Key.value?, asks, Option.filter]
    | cons c value => simp [named, Key.value?, asks, gives, Option.filter]
  · simp [named, Key.value?]

theorem filterMap_arguments (content : Text) : (settings content).filterMap Setting.arguments? =
    ((statements content).filterMap Key.engineArgs.value?).map Text.words := by
  have own : ∀ setting, keyOf? setting ≠ some .engineArgs → Setting.arguments? setting = none := by
    rintro (_ | _) <;> simp [keyOf?, Setting.arguments?]
  rw [List.map_filterMap]
  refine filterMap_settings own (fun word => give_command own rfl) (fun name value => ?_) content
  by_cases named : name ∈ Key.engineArgs.names
  · simp [named, Key.value?, Key.setting?, Setting.arguments?]
  · simp [named, Key.value?]

theorem mem_affirmatives_iff {value : Text} : value ∈ affirmatives ↔ MeansYes value := by
  simp [affirmatives, MeansYes]

/-- Of a key that is on or off, settings give what the statements say. -/
theorem filterMap_answers (key : Key) (give : Setting → Option Bool) {make : Bool → Setting}
    (asks : ∀ value, key.setting? value = some (make (affirmatives.contains value)))
    (gives : ∀ on, give (make on) = some on) (own : ∀ setting, keyOf? setting ≠ some key → give setting = none)
    (switch : ∀ word on, key.switch? word = some on → switches.lookup word = some (make on)) (content : Text) :
    (settings content).filterMap give = (statements content).filterMap key.answer? := by
  refine filterMap_settings own (fun word => ?_) (fun name value => ?_) content
  · cases said : key.switch? word with
    | none => rw [give_command own said, Key.answer?, said]
    | some on => rw [switch word on said, Option.getD_some, gives, Key.answer?, said]
  · by_cases named : name ∈ key.names
    · simp [named, Key.answer?, asks, gives, mem_affirmatives_iff]
    · simp [named, Key.answer?]

theorem lookup_of_switch (word : Text) :
    (∀ on, Key.strict.switch? word = some on → switches.lookup word = some (.strict on)) ∧
      ∀ on, Key.lineMarkers.switch? word = some on → switches.lookup word = some (.lineMarkers on) := by
  rcases switch_cases word with ⟨on, strict, lineMarkers, found⟩ | ⟨on, strict, lineMarkers, found⟩ |
    ⟨strict, lineMarkers, -⟩
  · simp [strict, lineMarkers, found]
  · simp [strict, lineMarkers, found]
  · simp [strict, lineMarkers]

theorem words_eq_filter : Text.words = fun value => (value.splitOnP Text.isBlank).filter (· ≠ []) := by
  funext value
  rw [Text.words, Text.splitWhere_eq_splitOnP]
  refine List.filter_congr fun word _ => ?_
  cases word <;> rfl

theorem load_eq_stated (config : Config) (content : Text) : load config content = stated config (statements content) := by
  have engine := filterMap_values .engine Setting.program? (fun _ => rfl) (fun _ => rfl)
    (by rintro (_ | _) <;> simp [keyOf?, Setting.program?]) (fun _ => rfl) content
  have defines := filterMap_values .define Setting.definition? (fun _ => rfl) (fun _ => rfl)
    (by rintro (_ | _) <;> simp [keyOf?, Setting.definition?]) (fun _ => rfl) content
  have includePaths := filterMap_values .includePath Setting.path? (fun _ => rfl) (fun _ => rfl)
    (by rintro (_ | _) <;> simp [keyOf?, Setting.path?]) (fun _ => rfl) content
  have strict := filterMap_answers .strict Setting.strictness? (fun _ => rfl) (fun _ => rfl)
    (by rintro (_ | _) <;> simp [keyOf?, Setting.strictness?]) (fun word => (lookup_of_switch word).1) content
  have lineMarkers := filterMap_answers .lineMarkers Setting.announcement? (fun _ => rfl) (fun _ => rfl)
    (by rintro (_ | _) <;> simp [keyOf?, Setting.announcement?]) (fun word => (lookup_of_switch word).2) content
  rw [load, Config.setAll_eq]
  simp only [stated, lastGiven, engine, filterMap_arguments, defines, includePaths, strict, lineMarkers, List.getLast?_map,
    lastArguments?, Key.lastAnswer?, words_eq_filter]

theorem value?_of_not_concerns {key : Key} {statement : Statement} (other : key.concerns statement = false) :
    key.value? statement = none := by
  cases statement with
  | command word => rfl
  | pair name value => exact if_neg (of_decide_eq_false other)

theorem answer?_of_not_concerns {key : Key} {statement : Statement} (other : key.concerns statement = false) :
    key.answer? statement = none := by
  cases statement with
  | command word =>
    rw [Key.answer?]
    simpa [Key.concerns] using other
  | pair name value => exact if_neg (of_decide_eq_false other)

/-- A configuration depends on the lines about each key, and not on where they stand among the others. -/
theorem load_congr (config : Config) {first second : Text} (same : ∀ key, linesAbout key first = linesAbout key second) :
    load config first = load config second := by
  have values : ∀ key : Key, (statements first).filterMap key.value? = (statements second).filterMap key.value? := by
    intro key
    rw [← filterMap_linesAbout (fun _ => value?_of_not_concerns) first, same,
      filterMap_linesAbout (fun _ => value?_of_not_concerns) second]
  have answers : ∀ key : Key, (statements first).filterMap key.answer? = (statements second).filterMap key.answer? := by
    intro key
    rw [← filterMap_linesAbout (fun _ => answer?_of_not_concerns) first, same,
      filterMap_linesAbout (fun _ => answer?_of_not_concerns) second]
  rw [load_eq_stated, load_eq_stated]
  simp only [stated, Key.valuesIn, lastArguments?, Key.lastAnswer?, values, answers]

/-- A carriage return at the end of the last line is a blank and does not count. -/
theorem load_append_return (config : Config) (content : Text) : load config (content ++ ['\r']) = load config content := by
  obtain ⟨before, last, lines, longer⟩ := Text.exists_lines_append_singleton (by decide : '\r' ≠ '\n') content
  have line : setting? (last ++ ['\r']) = setting? last := by
    rw [setting?, setting?, body?, body?, Text.trim_append_blank (by decide)]
  rw [load, load, settings, settings, lines, longer, List.filterMap_append, List.filterMap_append]
  simp only [List.filterMap_cons, line]

theorem load_append_newline (config : Config) (content : Text) : load config (content ++ ['\n']) = load config content :=
  load_append config content []

/-- What a line states is the word of a `set` command or else the sides of an equals sign, in what is left of the line
    without blanks around it and without its comment. A file makes a configuration of another one part by part: the last
    program that is not empty, the last arguments and the last answers hold, and macros and include paths add up in
    order. Lines about different parts can change places, and a file of two halves does what they do one after the
    other, whatever line break is between them. -/
theorem load_by_parts (config : Config) (content : Text) :
    (∀ line statement, statement? line = some statement ↔ ∃ body, Says line body ∧ States body statement) ∧
    load config content = stated config (statements content) ∧
    (∀ other, (∀ key, linesAbout key content = linesAbout key other) → load config content = load config other) ∧
    ∀ later,
      load (load config content) later = load config (content ++ '\n' :: later) ∧
      load (load config content) later = load config (content ++ '\r' :: '\n' :: later) ∧
      (content = [] ∨ content.getLast? = some '\n' → load (load config content) later = load config (content ++ later)) := by
  refine ⟨fun _ _ => statement?_eq_some_iff, load_eq_stated config content, fun other => load_congr config,
    fun later => ⟨?_, ?_, ?_⟩⟩
  · rw [load_append]
  · have shape : content ++ '\r' :: '\n' :: later = (content ++ ['\r']) ++ '\n' :: later := by simp
    rw [shape, load_append, load_append_return]
  · rintro (rfl | ends)
    · rfl
    · obtain ⟨front, rfl⟩ := List.getLast?_eq_some_iff.mp ends
      rw [load_append_newline, ← load_append, List.append_assoc, List.singleton_append]

theorem load_by_parts_reordered :
    load Config.default "define = A\nset nostrict # now\ndefine = B=1\r\n".toList =
        load Config.default "set nostrict # now\n\ndefine = A\ndefine = B=1\r".toList ∧
      load (load Config.default "args = -P\r\nset nostrict\n".toList) "args =\nstrict = yes".toList =
        load Config.default "args = -P\r\nset nostrict\nargs =\nstrict = yes".toList ∧
      load Config.default "set nostrict\nargs = -P  -C\nstrict = yes\nlinemarkers = Yes".toList =
        { Config.default with engineArgs := ["-P".toList, "-C".toList], lineMarkers := false } := by
  refine ⟨?_, ?_, ?_⟩
  · refine (load_by_parts _ _).2.2.1 _ fun key => ?_
    cases key <;> decide +kernel
  · exact ((load_by_parts _ _).2.2.2 _).2.2 (.inr (by decide))
  · rw [(load_by_parts _ _).2.1]
    decide +kernel

end HashTunnel.Rc
