import HashTunnel.Proofs.Pieces
import HashTunnel.Text.Blank

/-! # Trimmed texts and words

Trimming gives a text without blanks at its ends and changes no such text (`trimmed_trim`,
`Trimmed.trim_eq`). The words of a text have no blanks in them, and words with single spaces between them
are the words of that text (`words_joinWith`).
-/

namespace HashTunnel.Text

/-- Holds of a text that neither begins nor ends with a blank. -/
def Trimmed (text : Text) : Prop :=
  (∀ c, text.head? = some c → isBlank c = false) ∧ ∀ c, text.getLast? = some c → isBlank c = false

theorem trimEnd_eq_rdropWhile (text : Text) : trimEnd text = text.rdropWhile isBlank := rfl

theorem trimStart_isSuffix (text : Text) : trimStart text <:+ text :=
  List.dropWhile_suffix isBlank

theorem trimEnd_isPrefix (text : Text) : trimEnd text <+: text :=
  List.rdropWhile_prefix isBlank text

theorem trim_isInfix (text : Text) : trim text <:+: text :=
  (trimEnd_isPrefix (trimStart text)).isInfix.trans (trimStart_isSuffix text).isInfix

theorem head?_trimStart {text : Text} {c : Char} (first : (trimStart text).head? = some c) : isBlank c = false := by
  have solid := List.head?_dropWhile_not isBlank text
  rw [trimStart] at first
  rw [first] at solid
  simpa using solid

theorem getLast?_trimEnd {text : Text} {c : Char} (last : (trimEnd text).getLast? = some c) : isBlank c = false := by
  rw [trimEnd, List.getLast?_reverse] at last
  exact head?_trimStart last

theorem trimmed_trim (text : Text) : Trimmed (trim text) := by
  constructor
  · intro c first
    obtain ⟨rest, shape⟩ := List.head?_eq_some_iff.mp first
    obtain ⟨behind, whole⟩ := trimEnd_isPrefix (trimStart text)
    have begun : (trimStart text).head? = some c := by
      rw [trim] at shape
      rw [← whole, shape]
      rfl
    exact head?_trimStart begun
  · exact fun c last => getLast?_trimEnd last

theorem Trimmed.trim_eq {text : Text} (trimmed : Trimmed text) : trim text = text := by
  have start : trimStart text = text := by
    cases text with
    | nil => rfl
    | cons c text =>
      have solid := trimmed.1 c rfl
      rw [trimStart, List.dropWhile_cons_of_neg (by simp [solid])]
  rw [trim, start, trimEnd_eq_rdropWhile, List.rdropWhile_eq_self_iff]
  intro inhabited
  have solid := trimmed.2 _ (List.getLast?_eq_some_getLast inhabited)
  simp [solid]

theorem trim_append_blank {c : Char} (blank : isBlank c = true) (text : Text) : trim (text ++ [c]) = trim text := by
  have start : trimStart (text ++ [c]) = trimStart text ++ [c] ∨ trimStart (text ++ [c]) = trimStart text := by
    unfold trimStart
    rw [List.dropWhile_append]
    split
    · rename_i none
      exact .inr (by simp [blank, List.isEmpty_iff.mp none])
    · exact .inl rfl
  rcases start with same | same
  · rw [trim, same, trimEnd_eq_rdropWhile, List.rdropWhile_concat_pos _ _ _ blank]
    rfl
  · rw [trim, same]
    rfl

/-- Only the first of a text's parts and the last one are trimmed. -/
theorem trimmed_append {start rest : Text} (startSome : start ≠ []) (first : ∀ c, start.head? = some c → isBlank c = false)
    (restSome : rest ≠ []) (last : ∀ c, rest.getLast? = some c → isBlank c = false) : Trimmed (start ++ rest) := by
  constructor
  · intro c begins
    rw [List.head?_append_of_ne_nil _ startSome] at begins
    exact first c begins
  · intro c ends
    rw [List.getLast?_append_of_ne_nil _ restSome] at ends
    exact last c ends

/-- Holds of a text that is a single word. -/
def IsWord (word : Text) : Prop :=
  word ≠ [] ∧ ∀ c ∈ word, isBlank c = false

instance : DecidablePred IsWord := fun word =>
  decidable_of_iff (!word.isEmpty && word.all fun c => !isBlank c) (by simp [IsWord])

theorem IsWord.trimmed {word : Text} (single : IsWord word) : Trimmed word :=
  ⟨fun c first => single.2 c (List.mem_of_mem_head? first), fun c last => single.2 c (List.mem_of_mem_getLast? last)⟩

theorem IsWord.newline_not_mem {word : Text} (single : IsWord word) : '\n' ∉ word := by
  intro feed
  exact absurd (single.2 _ feed) (by decide)

theorem words_append_blank {c : Char} (blank : isBlank c = true) (start rest : Text) :
    words (start ++ c :: rest) = words start ++ words rest := by
  rw [words, splitWhere_append blank, List.filter_append]
  rfl

theorem isWord_of_mem_words {text word : Text} (member : word ∈ words text) : IsWord word := by
  obtain ⟨piece, inhabited⟩ := List.mem_filter.mp member
  exact ⟨by simpa using inhabited, not_sep_of_mem_splitWhere piece⟩

theorem mem_tail_of_mem_tail_filter {α : Type} {keep : α → Bool} {list : List α} {x : α}
    (member : x ∈ (list.filter keep).tail) : x ∈ list.tail := by
  cases list with
  | nil => exact absurd member List.not_mem_nil
  | cons first list =>
    rw [List.filter_cons] at member
    split at member
    · exact (List.mem_filter.mp member).1
    · exact (List.mem_filter.mp (List.mem_of_mem_tail member)).1

/-- Right before every word but the first one stands a blank. -/
theorem exists_blank_of_mem_tail_words {text word : Text} (member : word ∈ (words text).tail) :
    ∃ before c after, isBlank c = true ∧ text = before ++ c :: (word ++ after) :=
  exists_sep_of_mem_tail (mem_tail_of_mem_tail_filter member)

theorem IsWord.words_eq {word : Text} (single : IsWord word) : words word = [word] := by
  rw [words, splitWhere_whole single.2]
  simp [single.1]

theorem words_joinWith {list : List Text} (single : ∀ word ∈ list, IsWord word) : words (joinWith ' ' list) = list := by
  induction list with
  | nil => rfl
  | cons word list ih =>
    rw [List.forall_mem_cons] at single
    cases list with
    | nil => exact single.1.words_eq
    | cons next list =>
      rw [joinWith_cons_cons, words_append_blank (by decide), single.1.words_eq, ih single.2]
      rfl

theorem head?_joinWith {word : Text} (inhabited : word ≠ []) (others : List Text) :
    (joinWith ' ' (word :: others)).head? = word.head? := by
  cases others with
  | nil => rfl
  | cons next others => rw [joinWith_cons_cons, List.head?_append_of_ne_nil _ inhabited]

theorem joinWith_ne_nil {word : Text} (inhabited : word ≠ []) (others : List Text) :
    joinWith ' ' (word :: others) ≠ [] := by
  intro none
  have first := head?_joinWith inhabited others
  rw [none] at first
  exact inhabited (List.head?_eq_none_iff.mp first.symm)

theorem trimmed_joinWith {list : List Text} (single : ∀ word ∈ list, IsWord word) : Trimmed (joinWith ' ' list) := by
  induction list with
  | nil => exact ⟨fun c first => by simp [joinWith] at first, fun c last => by simp [joinWith] at last⟩
  | cons word list ih =>
    rw [List.forall_mem_cons] at single
    cases list with
    | nil => exact single.1.trimmed
    | cons next list =>
      refine trimmed_append single.1.1 single.1.trimmed.1 (List.cons_ne_nil ' ' _) fun c last => ?_
      obtain ⟨d, rest, shape⟩ := List.exists_cons_of_ne_nil (joinWith_ne_nil (single.2 next List.mem_cons_self).1 list)
      rw [shape, List.getLast?_cons_cons, ← shape] at last
      exact (ih single.2).2 c last

theorem newline_not_mem_joinWith {list : List Text} (single : ∀ word ∈ list, IsWord word) :
    '\n' ∉ joinWith ' ' list := by
  have others : ∀ c ∈ joinWith ' ' list, c ≠ '\n' := by
    refine forall_mem_joinWith (by decide) fun word member c inside => ?_
    rintro rfl
    exact (single word member).newline_not_mem inside
  exact fun feed => others '\n' feed rfl

end HashTunnel.Text
