import HashTunnel.Text.Basic
import Mathlib

/-! # Pieces

Cutting and joining are `List.splitOnP` and `List.intercalate`, so what the standard library knows of
these is known of a text's pieces. Its lines are the pieces between its line feeds.
-/

namespace HashTunnel.Text

section Cutting

variable {α : Type} {sep : α → Bool}

theorem splitWhere_eq_splitOnP (sep : α → Bool) (text : List α) : splitWhere sep text = text.splitOnP sep := by
  induction text with
  | nil => rfl
  | cons c text ih =>
    rw [splitWhere, List.splitOnP_cons_eq_if_modifyHead, ← ih]
    split
    · rfl
    · cases pieces : splitWhere sep text with
      | nil => exact absurd pieces (splitWhere_ne_nil sep text)
      | cons piece more => rfl

/-- A separator cuts a text in two, and each of them has its pieces. -/
theorem splitWhere_append {c : α} (cuts : sep c = true) (start rest : List α) :
    splitWhere sep (start ++ c :: rest) = splitWhere sep start ++ splitWhere sep rest := by
  simp only [splitWhere_eq_splitOnP, List.splitOnP_append_cons start rest cuts]

theorem splitWhere_whole {piece : List α} (whole : ∀ c ∈ piece, sep c = false) : splitWhere sep piece = [piece] := by
  rw [splitWhere_eq_splitOnP, List.splitOnP_eq_singleton whole]

theorem splitWhere_of_not_mem [BEq α] [LawfulBEq α] {c : α} {piece : List α} (absent : c ∉ piece) :
    splitWhere (· == c) piece = [piece] := by
  refine splitWhere_whole fun d member => ?_
  rw [beq_eq_false_iff_ne]
  rintro rfl
  exact absent member

theorem not_sep_of_mem_splitWhere {text piece : List α} (member : piece ∈ splitWhere sep text) :
    ∀ c ∈ piece, sep c = false := by
  induction text generalizing piece with
  | nil =>
    obtain rfl := List.mem_singleton.mp member
    simp
  | cons d text ih =>
    unfold splitWhere at member
    split at member
    · rcases List.mem_cons.mp member with rfl | later
      · simp
      · exact ih later
    · rename_i solid
      split at member
      · rename_i none
        exact absurd none (splitWhere_ne_nil sep text)
      · rename_i first more pieces
        rcases List.mem_cons.mp member with rfl | later
        · exact List.forall_mem_cons.mpr ⟨by simpa using solid, ih (pieces ▸ List.mem_cons_self)⟩
        · exact ih (pieces ▸ List.mem_cons_of_mem first later)

theorem isPrefix_of_splitWhere {text first : List α} {more : List (List α)}
    (pieces : splitWhere sep text = first :: more) : first <+: text := by
  induction text generalizing first more with
  | nil =>
    obtain ⟨rfl, -⟩ := List.cons.inj pieces
    exact List.prefix_rfl
  | cons c text ih =>
    rw [splitWhere] at pieces
    split at pieces
    · obtain ⟨rfl, -⟩ := List.cons.inj pieces
      exact List.nil_prefix
    · split at pieces
      · rename_i none
        exact absurd none (splitWhere_ne_nil sep text)
      · rename_i piece later inner
        obtain ⟨rfl, -⟩ := List.cons.inj pieces
        exact List.cons_prefix_cons.mpr ⟨rfl, ih inner⟩

/-- Right before every piece but the first one stands a separator. -/
theorem exists_sep_of_mem_tail {text piece : List α} (member : piece ∈ (splitWhere sep text).tail) :
    ∃ before c after, sep c = true ∧ text = before ++ c :: (piece ++ after) := by
  induction text with
  | nil => exact absurd member List.not_mem_nil
  | cons d text ih =>
    obtain ⟨first, more, pieces⟩ := List.exists_cons_of_ne_nil (splitWhere_ne_nil sep text)
    rw [pieces, List.tail_cons] at ih
    have earlier : piece ∈ more → ∃ before c after, sep c = true ∧ d :: text = before ++ c :: (piece ++ after) := by
      intro later
      obtain ⟨before, c, after, cuts, rfl⟩ := ih later
      exact ⟨d :: before, c, after, cuts, rfl⟩
    rw [splitWhere, pieces] at member
    split at member
    · rename_i cuts
      rcases List.mem_cons.mp member with rfl | later
      · obtain ⟨after, rfl⟩ := isPrefix_of_splitWhere pieces
        exact ⟨[], d, after, cuts, rfl⟩
      · exact earlier later
    · exact earlier member

end Cutting

section Joining

variable {α : Type} {sep : α} {pieces : List (List α)}

theorem joinWith_eq_intercalate (sep : α) (pieces : List (List α)) : joinWith sep pieces = [sep].intercalate pieces := by
  induction pieces with
  | nil => rfl
  | cons first pieces ih =>
    cases pieces with
    | nil => exact List.intercalate_singleton.symm
    | cons second pieces =>
      rw [List.intercalate_cons_cons, ← ih]
      simp [joinWith]

theorem joinWith_cons_cons (sep : α) (first second : List α) (pieces : List (List α)) :
    joinWith sep (first :: second :: pieces) = first ++ sep :: joinWith sep (second :: pieces) := rfl

theorem joinWith_append {first second : List (List α)} (firstSome : first ≠ []) (secondSome : second ≠ []) :
    joinWith sep (first ++ second) = joinWith sep first ++ sep :: joinWith sep second := by
  induction first with
  | nil => exact absurd rfl firstSome
  | cons piece first ih =>
    cases first with
    | nil =>
      obtain ⟨next, second, rfl⟩ := List.exists_cons_of_ne_nil secondSome
      rfl
    | cons next first =>
      have later := ih (List.cons_ne_nil next first)
      rw [List.cons_append] at later ⊢
      rw [List.cons_append, joinWith_cons_cons, joinWith_cons_cons, later, List.append_assoc, List.cons_append]

theorem infix_joinWith {piece : List α} (member : piece ∈ pieces) : piece <:+: joinWith sep pieces := by
  induction pieces with
  | nil => exact absurd member List.not_mem_nil
  | cons first pieces ih =>
    cases pieces with
    | nil =>
      obtain rfl := List.mem_singleton.mp member
      exact List.infix_rfl
    | cons next pieces =>
      rw [joinWith_cons_cons]
      rcases List.mem_cons.mp member with rfl | later
      · exact (List.prefix_append _ _).isInfix
      · exact (ih later).trans ⟨first ++ [sep], [], by simp⟩

theorem mem_joinWith {c : α} {piece : List α} (member : piece ∈ pieces) (inside : c ∈ piece) :
    c ∈ joinWith sep pieces :=
  (infix_joinWith member).subset inside

/-- What holds of the separator and in every piece holds in the text that they make up. -/
theorem forall_mem_joinWith {p : α → Prop} (between : p sep) (each : ∀ piece ∈ pieces, ∀ c ∈ piece, p c) :
    ∀ c ∈ joinWith sep pieces, p c := by
  induction pieces with
  | nil => exact List.forall_mem_nil p
  | cons first pieces ih =>
    rw [List.forall_mem_cons] at each
    cases pieces with
    | nil => exact each.1
    | cons next pieces =>
      rw [joinWith_cons_cons, List.forall_mem_append, List.forall_mem_cons]
      exact ⟨each.1, between, ih each.2⟩

theorem exists_joinWith_eq_append (sep : α) {last : List α} (ends : pieces.getLast? = some last) :
    ∃ front, joinWith sep pieces = front ++ last := by
  induction pieces with
  | nil => simp at ends
  | cons piece pieces ih =>
    cases pieces with
    | nil =>
      obtain rfl : piece = last := by simpa using ends
      exact ⟨[], rfl⟩
    | cons next pieces =>
      rw [List.getLast?_cons_cons] at ends
      obtain ⟨front, shape⟩ := ih ends
      refine ⟨piece ++ sep :: front, ?_⟩
      rw [joinWith_cons_cons, shape]
      simp

/-- Induction on the pieces of a text: it is a piece, or a piece with a separator behind it and what follows. -/
@[elab_as_elim]
theorem piece_induction [BEq α] [LawfulBEq α] (sep : α) {property : List α → Prop}
    (last : ∀ piece, sep ∉ piece → property piece)
    (more : ∀ piece rest, sep ∉ piece → property rest → property (piece ++ sep :: rest)) (text : List α) :
    property text := by
  have whole : ∀ piece ∈ splitWhere (· == sep) text, sep ∉ piece := by
    intro piece member inside
    simpa using not_sep_of_mem_splitWhere member sep inside
  have inhabited := splitWhere_ne_nil (· == sep) text
  rw [← joinWith_splitWhere sep text]
  generalize splitWhere (· == sep) text = pieces at whole inhabited
  induction pieces with
  | nil => exact absurd rfl inhabited
  | cons piece pieces ih =>
    rw [List.forall_mem_cons] at whole
    cases pieces with
    | nil => exact last piece whole.1
    | cons next pieces => exact more piece _ whole.1 (ih whole.2 (List.cons_ne_nil next pieces))

end Joining

theorem lines_ne_nil (text : Text) : lines text ≠ [] :=
  splitWhere_ne_nil (· == '\n') text

theorem lines_whole {line : Text} (whole : '\n' ∉ line) : lines line = [line] :=
  splitWhere_of_not_mem whole

theorem not_mem_of_mem_lines {text line : Text} (member : line ∈ lines text) : '\n' ∉ line := by
  intro feed
  exact absurd (not_sep_of_mem_splitWhere member '\n' feed) (by decide)

theorem lines_append (start rest : Text) : lines (start ++ '\n' :: rest) = lines start ++ lines rest := by
  unfold lines
  exact splitWhere_append rfl start rest

theorem lines_append_newline {line : Text} (whole : '\n' ∉ line) (rest : Text) :
    lines (line ++ '\n' :: rest) = line :: lines rest := by
  rw [lines_append, lines_whole whole, List.singleton_append]

theorem lines_append_of_not_mem {start text line : Text} {later : List Text} (whole : '\n' ∉ start)
    (lined : lines text = line :: later) : lines (start ++ text) = (start ++ line) :: later := by
  induction start with
  | nil => exact lined
  | cons c start ih =>
    rw [List.mem_cons, not_or] at whole
    obtain ⟨other, whole⟩ := whole
    have tail : splitWhere (· == '\n') (start ++ text) = (start ++ line) :: later := ih whole
    simp [lines, splitWhere, tail, Ne.symm other]

/-- The last line of a text goes on with what is added to the text, if that is no line feed. -/
theorem exists_lines_append_singleton {c : Char} (other : c ≠ '\n') (text : Text) :
    ∃ before last, lines text = before ++ [last] ∧ lines (text ++ [c]) = before ++ [last ++ [c]] := by
  unfold lines
  induction text with
  | nil => exact ⟨[], [], rfl, by simp [splitWhere, other]⟩
  | cons d text ih =>
    obtain ⟨before, last, pieces, longer⟩ := ih
    by_cases feed : d = '\n'
    · exact ⟨[] :: before, last, by simp [splitWhere, feed, pieces], by simp [splitWhere, feed, longer]⟩
    · cases before with
      | nil => exact ⟨[], d :: last, by simp [splitWhere, feed, pieces], by simp [splitWhere, feed, longer]⟩
      | cons line before =>
        exact ⟨(d :: line) :: before, last, by simp [splitWhere, feed, pieces], by simp [splitWhere, feed, longer]⟩

theorem length_lines (text : Text) : (lines text).length = text.count '\n' + 1 := by
  unfold lines
  induction text with
  | nil => rfl
  | cons c text ih =>
    by_cases feed : c = '\n'
    · simp [splitWhere, feed, ih]
    · cases pieces : splitWhere (· == '\n') text with
      | nil => exact absurd pieces (splitWhere_ne_nil _ text)
      | cons line later =>
        rw [pieces] at ih
        simpa [splitWhere, feed, pieces] using ih

theorem joinWith_lines (text : Text) : joinWith '\n' (lines text) = text :=
  joinWith_splitWhere '\n' text

theorem lines_joinWith {pieces : List Text} (inhabited : pieces ≠ []) (whole : ∀ piece ∈ pieces, '\n' ∉ piece) :
    lines (joinWith '\n' pieces) = pieces := by
  rw [lines, splitWhere_eq_splitOnP, joinWith_eq_intercalate]
  exact List.splitOn_intercalate '\n' whole inhabited

theorem joinWith_append_newline {pieces : List Text} (inhabited : pieces ≠ []) :
    joinWith '\n' pieces ++ ['\n'] = pieces.flatMap (· ++ ['\n']) := by
  induction pieces with
  | nil => exact absurd rfl inhabited
  | cons piece pieces ih =>
    cases pieces with
    | nil => simp [joinWith]
    | cons next pieces => simpa [joinWith] using ih (by simp)

theorem lines_flatMap_newline (pieces : List Text) :
    lines (pieces.flatMap (· ++ ['\n'])) = pieces.flatMap lines ++ [[]] := by
  induction pieces with
  | nil => rfl
  | cons piece pieces ih =>
    rw [List.flatMap_cons, List.append_assoc, List.singleton_append, lines_append, ih, List.flatMap_cons,
      List.append_assoc]

section Changing

variable {f : Text → Text}

theorem mapLines_whole {line : Text} (whole : '\n' ∉ line) : mapLines f line = f line := by
  rw [mapLines, lines_whole whole]
  rfl

theorem mapLines_append (start rest : Text) :
    mapLines f (start ++ '\n' :: rest) = mapLines f start ++ '\n' :: mapLines f rest := by
  rw [mapLines, lines_append, List.map_append, joinWith_append]
  · rfl
  · simpa using lines_ne_nil start
  · simpa using lines_ne_nil rest

theorem mapLines_append_newline {line : Text} (whole : '\n' ∉ line) (rest : Text) :
    mapLines f (line ++ '\n' :: rest) = f line ++ '\n' :: mapLines f rest := by
  rw [mapLines_append, mapLines_whole whole]

/-- Changing the lines a second time does nothing if it does nothing to what a line has become. -/
theorem mapLines_mapLines (fixed : ∀ line, '\n' ∉ line → mapLines f (f line) = f line) (text : Text) :
    mapLines f (mapLines f text) = mapLines f text := by
  induction text using piece_induction '\n' with
  | last line whole => rw [mapLines_whole whole, fixed line whole]
  | more line rest whole ih => rw [mapLines_append_newline whole, mapLines_append, fixed line whole, ih]

end Changing

/-- What stands before a separator holds every text without separators that the whole begins with. -/
theorem eq_append_of_append_cons {sep : Char} {start rest later : Text} (mark : Text) (whole : sep ∉ mark)
    (shape : start ++ sep :: rest = mark ++ later) : ∃ behind, start = mark ++ behind := by
  rcases List.append_eq_append_iff.mp shape with ⟨middle, rfl, inside⟩ | ⟨behind, same, -⟩
  · cases middle with
    | nil => exact ⟨[], by simp⟩
    | cons c middle =>
      obtain ⟨rfl, -⟩ := List.cons.inj inside
      simp at whole
  · exact ⟨behind, same⟩

theorem eq_or_eq_append_cons {sep : Char} {start rest later : Text} (mark : Text) (whole : sep ∉ mark)
    (shape : start ++ sep :: rest = mark ++ sep :: later) :
    start = mark ∨ ∃ behind, start = mark ++ sep :: behind := by
  obtain ⟨behind, rfl⟩ := eq_append_of_append_cons mark whole shape
  rw [List.append_assoc, List.append_cancel_left_eq] at shape
  cases behind with
  | nil => exact .inl (List.append_nil mark)
  | cons c behind =>
    obtain ⟨rfl, -⟩ := List.cons.inj shape
    exact .inr ⟨behind, rfl⟩

end HashTunnel.Text
