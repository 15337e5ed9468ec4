import HashTunnel.Engine.Command
import HashTunnel.Proofs.Pieces

/-! # Announced names

A program that is told the name of its text reads it in quotes before the text. The name can always be read back, up to
the quote that ends it (`readQuoted_feed_named`). But a line feed in a name stands as it is, where a C string does not
take it: the announcement is one line exactly if the name has none (`announces_iff`).
-/

namespace HashTunnel

theorem Text.replace_singleton (c : Char) (new text : Text) :
    replace [c] new text = text.flatMap fun d => if d = c then new else [d] := by
  unfold replace
  induction text with
  | nil => rfl
  | cons d text ih =>
    rw [replaceFrom, List.flatMap_cons, ← ih]
    by_cases same : d = c
    · simp [same]
    · simp [same, Ne.symm same]

namespace Linemarker

/-- Reads a name up to the first double quote that has no backslash before it. A backslash makes the next character
    one of the name. -/
def readQuoted : Text → Option (Text × Text)
  | '"' :: behind => some ([], behind)
  | '\\' :: c :: rest => (readQuoted rest).map fun read => (c :: read.1, read.2)
  | c :: rest => if c = '\\' then none else (readQuoted rest).map fun read => (c :: read.1, read.2)
  | [] => none

/-- What the escapes of one character stand for in a C string. Those that give an octet by its number are left out. -/
def escapes : List (Char × Char) :=
  [('"', '"'), ('\\', '\\'), ('\x27', '\x27'), ('?', '?'), ('a', '\x07'), ('b', '\x08'), ('f', '\x0C'), ('n', '\n'),
   ('r', '\r'), ('t', '\t'), ('v', '\x0B')]

/-- The text that the inside of a C string stands for. Line feeds and double quotes are escaped there. -/
def cString? : Text → Option Text
  | '\\' :: c :: rest => (escapes.lookup c).bind fun d => (cString? rest).map (d :: ·)
  | c :: rest => if c = '\\' ∨ c = '"' ∨ c = '\n' then none else (cString? rest).map (c :: ·)
  | [] => some []

/-- Holds of a line that announces line one of the file `name`. -/
def Announces (line name : Text) : Prop :=
  ∃ quoted, line = "# 1 \"".toList ++ quoted ++ ['"'] ∧ cString? quoted = some name

theorem escape_cons (c : Char) (name : Text) :
    escape (c :: name) = (if c = '\\' ∨ c = '"' then ['\\', c] else [c]) ++ escape name := by
  simp [escape, needsEscape]

/-- The source of an escaped name: first every backslash is doubled, and then every double quote gets its own. -/
theorem replace_replace_eq_escape (name : Text) :
    Text.replace ['"'] ['\\', '"'] (Text.replace ['\\'] ['\\', '\\'] name) = escape name := by
  rw [Text.replace_singleton, Text.replace_singleton, List.flatMap_assoc]
  refine List.flatMap_congr fun c _ => ?_
  by_cases slash : c = '\\'
  · subst slash
    rfl
  · by_cases quote : c = '"'
    · subst quote
      rfl
    · simp [slash, quote, needsEscape]

theorem readQuoted_escape (name behind : Text) : readQuoted (escape name ++ '"' :: behind) = some (name, behind) := by
  induction name with
  | nil => rfl
  | cons c name ih =>
    rw [escape_cons]
    by_cases special : c = '\\' ∨ c = '"'
    · simp [special, readQuoted, ih]
    · rw [not_or] at special
      simp [special, readQuoted, ih]

theorem cString?_special {c : Char} (special : c = '\\' ∨ c = '"') (rest : Text) :
    cString? ('\\' :: c :: rest) = (cString? rest).map (c :: ·) := by
  rcases special with rfl | rfl
  · rfl
  · rfl

theorem cString?_escape {name : Text} (whole : '\n' ∉ name) : cString? (escape name) = some name := by
  induction name with
  | nil => rfl
  | cons c name ih =>
    rw [List.mem_cons, not_or] at whole
    rw [escape_cons]
    by_cases special : c = '\\' ∨ c = '"'
    · rw [if_pos special, List.cons_append, List.singleton_append, cString?_special special, ih whole.2, Option.map_some]
    · rw [not_or] at special
      simp [special, cString?, ih whole.2, Ne.symm whole.1]

/-- A double quote at the end of an escaped name is one of the name, so what stands before it is no C string. -/
theorem cString?_eq_none {name quoted : Text} (ends : escape name = quoted ++ ['"']) : cString? quoted = none := by
  induction name generalizing quoted with
  | nil => simp [escape] at ends
  | cons c name ih =>
    rw [escape_cons] at ends
    by_cases special : c = '\\' ∨ c = '"'
    · rw [if_pos special] at ends
      rcases quoted with _ | ⟨d, _ | ⟨e, quoted⟩⟩
      · simp at ends
      · obtain ⟨rfl, -⟩ := List.cons.inj ends
        rfl
      · simp only [List.cons_append, List.nil_append, List.cons.injEq] at ends
        obtain ⟨rfl, rfl, later⟩ := ends
        rw [cString?_special special, ih later, Option.map_none]
    · rw [if_neg special] at ends
      rw [not_or] at special
      cases quoted with
      | nil =>
        obtain ⟨rfl, -⟩ := List.cons.inj ends
        exact absurd rfl special.2
      | cons d quoted =>
        simp only [List.cons_append, List.nil_append, List.cons.injEq] at ends
        obtain ⟨rfl, later⟩ := ends
        simp [cString?, special, ih later]

theorem count_escape (name : Text) : (escape name).count '\n' = name.count '\n' := by
  induction name with
  | nil => rfl
  | cons c name ih =>
    rw [escape_cons, List.count_append, ih, List.count_cons]
    by_cases special : c = '\\' ∨ c = '"'
    · rcases special with rfl | rfl <;> simp
    · rw [if_neg special, List.count_singleton, Nat.add_comm]

end Linemarker

open Linemarker

section Named

variable (command : Command) (name text : Text)

theorem feed_named : (command.named name).feed text = "# 1 \"".toList ++ escape name ++ '"' :: '\n' :: text := by
  simp [Command.named, Command.feed, announce]

theorem feed_named_eq_iff (other : Command) (otherName otherText : Text) :
    (command.named name).feed text = (other.named otherName).feed otherText ↔ name = otherName ∧ text = otherText := by
  constructor
  · intro same
    rw [feed_named, feed_named, List.append_assoc, List.append_assoc, List.append_cancel_left_eq] at same
    have read := congrArg readQuoted same
    rw [readQuoted_escape, readQuoted_escape] at read
    obtain ⟨rfl, behind⟩ := Prod.mk.inj (Option.some.inj read)
    exact ⟨rfl, (List.cons.inj behind).2⟩
  · rintro ⟨rfl, rfl⟩
    rfl

/-- Behind the quote that opens it, the name of a text is read back as it is, and a line feed and the text follow. So no
    two names or texts look the same to a program. The name is spelled by two replacements, which put one backslash
    before each backslash and each double quote of the name and change nothing else. -/
theorem readQuoted_feed_named :
    (∃ quoted, (command.named name).feed text = "# 1 \"".toList ++ quoted ∧
      readQuoted quoted = some (name, '\n' :: text)) ∧
    (∀ other otherName otherText, (command.named name).feed text = (Command.named other otherName).feed otherText ↔
      name = otherName ∧ text = otherText) ∧
    (command.named name).feed text = "# 1 \"".toList ++
      Text.replace ['"'] ['\\', '"'] (Text.replace ['\\'] ['\\', '\\'] name) ++ '"' :: '\n' :: text ∧
    Text.replace ['"'] ['\\', '"'] (Text.replace ['\\'] ['\\', '\\'] name) =
      name.flatMap fun c => if c = '\\' ∨ c = '"' then ['\\', c] else [c] := by
  refine ⟨⟨escape name ++ '"' :: '\n' :: text, ?_, readQuoted_escape name _⟩,
    fun other otherName otherText => feed_named_eq_iff command name text other otherName otherText, ?_, ?_⟩
  · rw [feed_named, List.append_assoc]
  · rw [replace_replace_eq_escape, feed_named]
  · rw [replace_replace_eq_escape, escape]
    simp [needsEscape]

theorem lines_feed_named : Text.lines ((command.named name).feed text) = Text.lines (announce name) ++ Text.lines text := by
  rw [feed_named, ← Text.lines_append]
  simp [announce]

/-- Of a name with a line feed, the first line of what a program reads has only the beginning, and no quote ends it. -/
theorem not_announces_of_mem {line rest other : Text} (feed : '\n' ∈ name)
    (shape : (command.named name).feed text = line ++ '\n' :: rest) (whole : '\n' ∉ line) : ¬ Announces line other := by
  rintro ⟨quoted, rfl, read⟩
  obtain ⟨start, later, rfl, start_whole⟩ := List.eq_append_cons_of_mem feed
  have first : '\n' ∉ "# 1 \"".toList ++ escape start := by
    rw [List.mem_append, not_or, ← List.count_eq_zero (l := escape start), count_escape, List.count_eq_zero]
    exact ⟨by decide, start_whole⟩
  -- Line one ends before the name's first line feed. Were a quote its last character, it would be one of the name.
  have cut : (command.named (start ++ '\n' :: later)).feed text =
      ("# 1 \"".toList ++ escape start) ++ '\n' :: (escape later ++ '"' :: '\n' :: text) := by
    rw [feed_named]
    simp [escape, needsEscape]
  have lines := congrArg Text.lines (cut.symm.trans shape)
  rw [Text.lines_append_newline first, Text.lines_append_newline whole] at lines
  obtain ⟨same, -⟩ := List.cons.inj lines
  rw [List.append_assoc, List.append_cancel_left_eq] at same
  rw [cString?_eq_none same] at read
  contradiction

/-- What a program reads begins with one line that announces the name as a C string, with the text right behind it,
    exactly if there is no line feed in the name. With one, the first line announces nothing, and the text begins as many
    lines further down as the name has line feeds. -/
theorem announces_iff :
    ((∃ line, (command.named name).feed text = line ++ '\n' :: text ∧ '\n' ∉ line ∧ Announces line name) ↔ '\n' ∉ name) ∧
    ((∃ line rest other, (command.named name).feed text = line ++ '\n' :: rest ∧ '\n' ∉ line ∧ Announces line other) ↔
      '\n' ∉ name) ∧
    ∃ above, Text.lines ((command.named name).feed text) = above ++ Text.lines text ∧
      above.length = name.count '\n' + 1 := by
  have announced : '\n' ∉ name → (command.named name).feed text = announce name ++ '\n' :: text ∧
      '\n' ∉ announce name ∧ Announces (announce name) name := by
    intro whole
    refine ⟨rfl, ?_, escape name, rfl, cString?_escape whole⟩
    rw [announce, List.mem_append, List.mem_append, not_or, not_or, ← List.count_eq_zero (l := escape name),
      count_escape, List.count_eq_zero]
    exact ⟨⟨by decide, whole⟩, by decide⟩
  refine ⟨⟨?_, fun whole => ⟨_, announced whole⟩⟩, ⟨?_, fun whole => ⟨_, _, _, announced whole⟩⟩,
    Text.lines (announce name), lines_feed_named command name text, ?_⟩
  · rintro ⟨line, shape, whole, announces⟩ feed
    exact not_announces_of_mem command name text feed shape whole announces
  · rintro ⟨line, rest, other, shape, whole, announces⟩ feed
    exact not_announces_of_mem command name text feed shape whole announces
  · rw [Text.length_lines, announce, List.count_append, List.count_append, count_escape]
    simp

end Named

/-- A name of three lines, the second one a directive. The program gets the directive on a line of its own. -/
theorem not_announces_directive :
    ¬ (∃ line, (Command.named { program := "cpp".toList } "a\n#define X 1\n#".toList).feed "x\n".toList =
        line ++ '\n' :: "x\n".toList ∧ '\n' ∉ line ∧ Announces line "a\n#define X 1\n#".toList) ∧
      Text.lines ((Command.named { program := "cpp".toList } "a\n#define X 1\n#".toList).feed "x\n".toList) =
        ["# 1 \"a".toList, "#define X 1".toList, "#\"".toList, "x".toList, []] := by
  refine ⟨?_, by decide⟩
  rintro ⟨line, shape, whole, -⟩
  have same : line = announce "a\n#define X 1\n#".toList := (List.append_cancel_right shape).symm
  rw [same] at whole
  exact whole (by decide)

end HashTunnel
