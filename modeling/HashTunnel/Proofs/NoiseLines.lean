import HashTunnel.Proofs.Expressible

/-! # Lines that mean nothing

A line of a settings file means something if it is a known switch, or gives a known key a value that the key takes. All
other lines are noise. They have no effect, with one exception: a value that is no word for yes or no, given for a
key that asks for one, is read as no (`load_noise_iff`).
-/

namespace HashTunnel.Rc

/-- The words that a switch is made of. -/
def switchWords : List Text :=
  ["strict".toList, "nostrict".toList, "linemarkers".toList, "nolinemarkers".toList]

/-- The names of a key. -/
def Key.names : Key → List Text
  | engine => ["engine".toList]
  | engineArgs => ["engine_args".toList, "args".toList]
  | define => ["define".toList]
  | includePath => ["include".toList, "include_path".toList]
  | strict => ["strict".toList]
  | lineMarkers => ["line_markers".toList, "linemarkers".toList]

/-- The words for yes and for no. -/
def answers : List Text :=
  ["true".toList, "1".toList, "yes".toList, "false".toList, "0".toList, "no".toList]

/-- The values that are valid for a key. -/
def Key.Takes : Key → Text → Prop
  | engine, value | define, value | includePath, value => value ≠ []
  | engineArgs, _ => True
  | strict, value | lineMarkers, value => value ∈ answers

/-- Holds of what a line says if it means something: a switch, or a key and a valid value for it. -/
def Meaningful (body : Text) : Prop :=
  (∃ word, body = "set ".toList ++ word ∧ Text.trim word ∈ switchWords) ∨
    ∃ key : Key, ∃ left right, body = left ++ '=' :: right ∧ '=' ∉ left ∧ Text.trim left ∈ key.names ∧
      key.Takes (Text.trim right)

/-- Holds of the lines that say nothing, or nothing that means something. -/
def Noise (line : Text) : Prop :=
  ∀ body, body? line = some body → ¬ Meaningful body

/-- The line gives the key a value that is no word for yes or no. -/
def Misspells (key : Key) (line : Text) : Prop :=
  ∃ left right, body? line = some (left ++ '=' :: right) ∧ '=' ∉ left ∧ Text.trim left ∈ key.names ∧
    Text.trim right ∉ answers

theorem lookup_keys_iff {name : Text} {key : Key} : keys.lookup name = some key ↔ name ∈ key.names := by
  constructor
  · intro found
    obtain ⟨front, back, shape, -⟩ := List.lookup_eq_some_iff.mp found
    have known : ∀ entry ∈ keys, entry.1 ∈ entry.2.names := by simp only [keys, List.forall_mem_cons]; decide
    exact known (name, key) (shape ▸ List.mem_append_right front List.mem_cons_self)
  · intro named
    have known : ∀ name ∈ key.names, keys.lookup name = some key := by cases key <;> decide
    exact known name named

theorem lookup_switches_eq_none {word : Text} (other : word ∉ switchWords) : switches.lookup word = none := by
  rw [List.lookup_eq_none_iff]
  intro switch member
  have known : ∀ switch ∈ switches, switch.1 ∈ switchWords := by simp only [switches, List.forall_mem_cons]; decide
  rw [bne_iff_ne]
  rintro rfl
  exact other (known switch member)

theorem splitPair?_eq_some_iff {body left right : Text} :
    splitPair? body = some (left, right) ↔ body = left ++ '=' :: right ∧ '=' ∉ left := by
  constructor
  · intro found
    refine ⟨eq_of_splitPair? found, fun equals => ?_⟩
    unfold splitPair? at found
    split at found
    · obtain ⟨rfl, -⟩ := Prod.mk.inj (Option.some.inj found)
      exact absurd (List.mem_takeWhile_imp equals) (by decide)
    · simp at found
  · rintro ⟨rfl, plain⟩
    exact splitPair?_pair plain

/-- No key has a name that begins like a switch. -/
theorem not_isPrefixOf_set {key : Key} {left : Text} (plain : '=' ∉ left) (named : Text.trim left ∈ key.names)
    (right : Text) : ¬ "set ".toList.isPrefixOf (left ++ '=' :: right) = true := by
  rw [List.isPrefixOf_iff_prefix]
  rintro ⟨rest, shape⟩
  obtain ⟨behind, rfl⟩ := Text.eq_append_of_append_cons "set ".toList (by decide) shape.symm
  have inside : Text.trim ("set ".toList ++ behind) <+: "set ".toList ++ behind := Text.trimEnd_isPrefix _
  have others : ∀ name ∈ key.names, 2 ≤ name.length ∧ name.take 2 ≠ ['s', 'e'] := by cases key <;> decide
  obtain ⟨long, other⟩ := others _ named
  have begun := (inside.take 2).eq_of_length (by rw [List.length_take_of_le long]; rfl)
  exact other begun

theorem settingOfBody?_pair {key : Key} {left : Text} (plain : '=' ∉ left) (named : Text.trim left ∈ key.names)
    (right : Text) : settingOfBody? (left ++ '=' :: right) = key.setting? (Text.trim right) := by
  rw [settingOfBody?, if_neg (not_isPrefixOf_set plain named right), splitPair?_pair plain]
  simp only [lookup_keys_iff.mpr named]

theorem Misspells.setting? {line : Text} {key : Key} (misspells : Misspells key line) :
    ∃ value, value ∉ answers ∧ Rc.setting? line = key.setting? value := by
  obtain ⟨left, right, said, plain, named, wrong⟩ := misspells
  refine ⟨Text.trim right, wrong, ?_⟩
  rw [Rc.setting?, said, Option.bind_some, settingOfBody?_pair plain named]

theorem affirmatives_contains_eq_false {value : Text} (wrong : value ∉ answers) : affirmatives.contains value = false := by
  have known : ∀ word ∈ affirmatives, word ∈ answers := by simp only [affirmatives, List.forall_mem_cons]; decide
  rw [List.contains_eq_mem, decide_eq_false_iff_not]
  exact fun member => wrong (known value member)

/-- A wrong word is read as no. -/
theorem setting?_of_misspells_strict {line : Text} (misspells : Misspells .strict line) :
    Rc.setting? line = some (.strict false) := by
  obtain ⟨value, wrong, asked⟩ := misspells.setting?
  rw [asked, Key.setting?, affirmatives_contains_eq_false wrong]

theorem setting?_of_misspells_lineMarkers {line : Text} (misspells : Misspells .lineMarkers line) :
    Rc.setting? line = some (.lineMarkers false) := by
  obtain ⟨value, wrong, asked⟩ := misspells.setting?
  rw [asked, Key.setting?, affirmatives_contains_eq_false wrong]

/-- A pair that means nothing gives a value that is not valid for its key, which asks for nothing or is read as no. -/
theorem setting?_of_not_takes {key : Key} {value : Text} (invalid : ¬ key.Takes value) {setting : Setting}
    (asked : key.setting? value = some setting) :
    (key = .strict ∧ setting = .strict false) ∨ (key = .lineMarkers ∧ setting = .lineMarkers false) := by
  cases key with
  | engine | define | includePath =>
    obtain rfl : value = [] := not_not.mp invalid
    simp [Key.setting?] at asked
  | engineArgs => exact absurd trivial invalid
  | strict =>
    rw [Key.setting?, affirmatives_contains_eq_false invalid] at asked
    exact .inl ⟨rfl, (Option.some.inj asked).symm⟩
  | lineMarkers =>
    rw [Key.setting?, affirmatives_contains_eq_false invalid] at asked
    exact .inr ⟨rfl, (Option.some.inj asked).symm⟩

/-- Noise asks for something only if it misspells a word for yes or no. -/
theorem setting?_of_noise {line : Text} (noise : Noise line) {setting : Setting} (asked : Rc.setting? line = some setting) :
    (∃ name, setting = .unknown name) ∨ (Misspells .strict line ∧ setting = .strict false) ∨
      (Misspells .lineMarkers line ∧ setting = .lineMarkers false) := by
  obtain ⟨body, said, asked⟩ := Option.bind_eq_some_iff.mp asked
  have meaningless := noise body said
  unfold settingOfBody? at asked
  split at asked
  · rename_i switch
    obtain ⟨word, rfl⟩ := List.isPrefixOf_iff_prefix.mp switch
    have other : Text.trim word ∉ switchWords := fun known => meaningless (.inl ⟨word, rfl, known⟩)
    have behind : ("set ".toList ++ word).drop 4 = word := rfl
    simp only [behind, lookup_switches_eq_none other] at asked
    exact .inl ⟨_, (Option.some.inj asked).symm⟩
  · split at asked
    · simp at asked
    · rename_i left right pair
      simp only at asked
      split at asked
      · rename_i key known
        obtain ⟨rfl, plain⟩ := splitPair?_eq_some_iff.mp pair
        have named := lookup_keys_iff.mp known
        have invalid : ¬ key.Takes (Text.trim right) :=
          fun takes => meaningless (.inr ⟨key, left, right, rfl, plain, named, takes⟩)
        rcases setting?_of_not_takes invalid asked with ⟨rfl, rfl⟩ | ⟨rfl, rfl⟩
        · exact .inr (.inl ⟨⟨left, right, said, plain, named, invalid⟩, rfl⟩)
        · exact .inr (.inr ⟨⟨left, right, said, plain, named, invalid⟩, rfl⟩)
      · exact .inl ⟨_, (Option.some.inj asked).symm⟩

theorem noise_of_misspells {key : Key} (asks : key = .strict ∨ key = .lineMarkers) {line : Text}
    (misspells : Misspells key line) : Noise line := by
  obtain ⟨left, right, said, plain, named, wrong⟩ := misspells
  intro body same
  obtain rfl := Option.some.inj (said.symm.trans same)
  rintro (⟨word, switch, -⟩ | ⟨other, start, value, pair, start_plain, known, takes⟩)
  · refine not_isPrefixOf_set plain named right (List.isPrefixOf_iff_prefix.mpr ?_)
    exact ⟨word, switch.symm⟩
  -- A pair is cut at its first equals sign, so it has no other key for which the value could be valid.
  · have split := splitPair?_eq_some_iff.mpr ⟨pair, start_plain⟩
    rw [splitPair?_pair plain] at split
    obtain ⟨rfl, rfl⟩ := Prod.mk.inj (Option.some.inj split)
    have key_eq := lookup_keys_iff.mpr known
    rw [lookup_keys_iff.mpr named] at key_eq
    obtain rfl := Option.some.inj key_eq
    rcases asks with rfl | rfl
    · exact wrong takes
    · exact wrong takes

theorem settings_append (first second : Text) :
    settings (first ++ '\n' :: second) = settings first ++ settings second := by
  rw [settings, Text.lines_append, List.filterMap_append]
  rfl

theorem load_append (config : Config) (first second : Text) :
    load config (first ++ '\n' :: second) = load (load config first) second := by
  rw [load, settings_append, Config.setAll, List.foldl_append]
  rfl

theorem load_line (config : Config) {line : Text} (whole : '\n' ∉ line) :
    load config line = (setting? line).elim config config.set := by
  rw [load, settings, Text.lines_whole whole]
  cases asked : setting? line with
  | none => simp [asked, Config.setAll]
  | some setting => simp [asked, Config.setAll]

/-- A line has its effect on what the lines before it have set, and before the lines after it. -/
theorem load_between (config : Config) (before : Text) {line : Text} (whole : '\n' ∉ line) (after : Text) :
    load config (before ++ '\n' :: (line ++ '\n' :: after)) =
      load ((setting? line).elim (load config before) (load config before).set) after := by
  rw [load_append, load_append, load_line _ whole]

theorem lastGiven_eq_iff {α : Type} {give : Setting → Option α} {settings : List Setting} {first second : α} :
    lastGiven give settings first = lastGiven give settings second ↔
      (first ≠ second → settings.filterMap give ≠ []) := by
  unfold lastGiven
  cases last : (settings.filterMap give).getLast? with
  | none => simp [List.getLast?_eq_none_iff.mp last]
  | some value =>
    have inhabited : settings.filterMap give ≠ [] := by
      intro none
      simp [none] at last
    simp [inhabited]

theorem load_strict_eq_iff (config : Config) (content : Text) :
    load (config.set (.strict false)) content = load config content ↔
      (config.strict = true → (settings content).filterMap Setting.strictness? ≠ []) := by
  rw [load, load, Config.setAll_eq, Config.setAll_eq]
  simp only [Config.set, Config.mk.injEq, true_and, and_true, lastGiven_eq_iff]
  cases config.strict with
  | true => simp
  | false => simp

theorem load_lineMarkers_eq_iff (config : Config) (content : Text) :
    load (config.set (.lineMarkers false)) content = load config content ↔
      (config.lineMarkers = true → (settings content).filterMap Setting.announcement? ≠ []) := by
  rw [load, load, Config.setAll_eq, Config.setAll_eq]
  simp only [Config.set, Config.mk.injEq, true_and, lastGiven_eq_iff]
  cases config.lineMarkers with
  | true => simp
  | false => simp

/-- A noise line has no effect unless it gives `strict` or `line_markers` a value that is no word for yes or no. Such a
    line is read as if it said no: it turns off what the lines before it have left on, unless a line after it says
    something about it too. -/
theorem load_noise_iff {line : Text} (noise : Noise line) (whole : '\n' ∉ line) (config : Config) (before after : Text) :
    (load config (before ++ '\n' :: (line ++ '\n' :: after)) = load config (before ++ '\n' :: after) ↔
      (Misspells .strict line → (load config before).strict = true →
        (settings after).filterMap Setting.strictness? ≠ []) ∧
      (Misspells .lineMarkers line → (load config before).lineMarkers = true →
        (settings after).filterMap Setting.announcement? ≠ [])) ∧
    (Misspells .strict line → load config (before ++ '\n' :: (line ++ '\n' :: after)) =
      load config (before ++ '\n' :: ("strict = no".toList ++ '\n' :: after))) ∧
    (Misspells .lineMarkers line → load config (before ++ '\n' :: (line ++ '\n' :: after)) =
      load config (before ++ '\n' :: ("line_markers = no".toList ++ '\n' :: after))) := by
  refine ⟨?_, fun misspells => ?_, fun misspells => ?_⟩
  · have silent : setting? line ≠ some (.strict false) → ¬ Misspells .strict line := mt setting?_of_misspells_strict
    have unannounced : setting? line ≠ some (.lineMarkers false) → ¬ Misspells .lineMarkers line :=
      mt setting?_of_misspells_lineMarkers
    rw [load_between config before whole, load_append]
    cases asked : setting? line with
    | none =>
      rw [asked] at silent unannounced
      simp [silent, unannounced]
    | some setting =>
      rw [asked] at silent unannounced
      rcases setting?_of_noise noise asked with ⟨name, rfl⟩ | ⟨misspells, rfl⟩ | ⟨misspells, rfl⟩
      · simp [silent, unannounced, Config.set]
      · rw [Option.elim_some, load_strict_eq_iff]
        simp [misspells, unannounced]
      · rw [Option.elim_some, load_lineMarkers_eq_iff]
        simp [misspells, silent]
  · have no : setting? "strict = no".toList = some (.strict false) := by decide
    rw [load_between config before whole, load_between config before (by decide), setting?_of_misspells_strict misspells, no]
  · have no : setting? "line_markers = no".toList = some (.lineMarkers false) := by decide
    rw [load_between config before whole, load_between config before (by decide),
      setting?_of_misspells_lineMarkers misspells, no]

theorem load_noise_already_off :
    load Config.default "set nostrict\nstrict = True # please\nset bogus".toList =
      load Config.default "set nostrict\nset bogus".toList := by
  have misspells : Misspells .strict "strict = True # please".toList :=
    ⟨"strict ".toList, " True".toList, by decide, by decide, by decide, by decide⟩
  have unannounced : ¬ Misspells .lineMarkers "strict = True # please".toList := by
    intro other
    have asked := setting?_of_misspells_lineMarkers other
    rw [setting?_of_misspells_strict misspells] at asked
    contradiction
  refine (load_noise_iff (noise_of_misspells (.inl rfl) misspells) (by decide) Config.default "set nostrict".toList
    "set bogus".toList).1.mpr ⟨fun _ on => ?_, fun other => absurd other unannounced⟩
  exact absurd on (by decide)

/-- A capital letter in the word for yes turns strictness off. -/
theorem not_load_noise_capitalised :
    ¬ ∀ line, Noise line → '\n' ∉ line → ∀ config before after,
      load config (before ++ '\n' :: (line ++ '\n' :: after)) = load config (before ++ '\n' :: after) := by
  intro idle
  have misspells : Misspells .strict "strict = True".toList :=
    ⟨"strict ".toList, " True".toList, by decide, by decide, by decide, by decide⟩
  have same := idle "strict = True".toList (noise_of_misspells (.inl rfl) misspells) (by decide) Config.default [] []
  exact absurd same (by decide)

end HashTunnel.Rc
