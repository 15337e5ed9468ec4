import HashTunnel.Directive
import HashTunnel.Proofs.LogicalLines

/-! # Directives behind markers

Whether a line is a directive line or a comment directive does not depend on whether its
continuations are shown (`isDirective_showContinuations`, `commentDirective?_showContinuations`),
and showing them keeps the line feeds between lines apart from those inside them.
-/

namespace HashTunnel

theorem isDirective_cons (c : Char) (rest : Text) :
    isDirective (c :: rest) = if Text.isLineBlank c then isDirective rest else c == '#' := by
  unfold isDirective
  rw [List.dropWhile_cons]
  split
  · rfl
  · simp

theorem isDirective_hash (rest : Text) : isDirective ('#' :: rest) = true := rfl

theorem isDirective_slash (rest : Text) : isDirective ('/' :: rest) = false := rfl

/-- What follows a character that is neither blank nor a hash sign does not matter. -/
theorem isDirective_append_cons {c : Char} (solid : Text.isLineBlank c = false) (other : c ≠ '#')
    (line rest : Text) : isDirective (line ++ c :: rest) = isDirective line := by
  induction line with
  | nil => simp [solid, other, isDirective]
  | cons d line ih => simp [isDirective_cons, ih]

theorem isDirective_append_newline (line rest : Text) :
    isDirective (line ++ '\n' :: rest) = isDirective line :=
  isDirective_append_cons rfl (by decide) line rest

theorem not_mem_of_blank {c : Char} (solid : Text.isLineBlank c = false) {indent : Text}
    (blank : ∀ d ∈ indent, Text.isLineBlank d = true) : c ∉ indent := by
  intro member
  rw [blank c member] at solid
  contradiction

theorem isDirective_blank_append {indent : Text} (blank : ∀ c ∈ indent, Text.isLineBlank c = true)
    (rest : Text) : isDirective (indent ++ rest) = isDirective rest := by
  unfold isDirective
  rw [List.dropWhile_append_of_pos blank]

theorem commentDirective?_blank_append {indent directive : Text}
    (blank : ∀ c ∈ indent, Text.isLineBlank c = true) (exposed : isDirective directive = true) :
    commentDirective? (indent ++ '/' :: '/' :: '/' :: directive) = some (indent, directive) := by
  have behind : (indent ++ '/' :: '/' :: '/' :: directive).dropWhile Text.isLineBlank =
      '/' :: '/' :: '/' :: directive := by
    rw [List.dropWhile_append_of_pos blank, List.dropWhile_cons_of_neg (by decide)]
  have front : (indent ++ '/' :: '/' :: '/' :: directive).takeWhile Text.isLineBlank = indent := by
    rw [List.takeWhile_append_of_pos blank, List.takeWhile_cons_of_neg (by decide), List.append_nil]
  unfold commentDirective?
  rw [behind]
  simp [exposed, front]

theorem blank_of_commentDirective? {line indent directive : Text}
    (found : commentDirective? line = some (indent, directive)) :
    ∀ c ∈ indent, Text.isLineBlank c = true := by
  unfold commentDirective? at found
  split at found
  · split at found
    · obtain ⟨rfl, -⟩ := Prod.mk.inj (Option.some.inj found)
      intro c member
      exact List.mem_takeWhile_imp member
    · simp at found
  · simp at found

theorem showContinuations_cons_of_ne {c : Char} (other : c ≠ '\uFFFE') (rest : Text) :
    showContinuations (c :: rest) = c :: showContinuations rest := by
  rw [showContinuations]
  · exact fun _ same => absurd same other
  · exact fun _ same => absurd same other

/-- A character that no continuation begins or ends with comes from the same one in the text. -/
theorem eq_cons_of_showContinuations {c : Char} (noSlash : c ≠ '\\') {text shown : Text}
    (shape : showContinuations text = c :: shown) :
    ∃ rest, text = c :: rest ∧ showContinuations rest = shown := by
  revert shape
  fun_cases showContinuations text with
  | case1 rest => intro shape; exact absurd (List.cons.inj shape).1.symm noSlash
  | case2 rest => intro shape; exact absurd (List.cons.inj shape).1.symm noSlash
  | case3 d rest =>
    intro shape
    obtain ⟨rfl, tail⟩ := List.cons.inj shape
    exact ⟨rest, rfl, tail⟩
  | case4 => intro shape; simp at shape

theorem eq_cons_of_hideContinuations {c : Char} (noPoint : c ≠ '\uFFFE') {text hidden : Text}
    (shape : hideContinuations text = c :: hidden) :
    ∃ rest, text = c :: rest ∧ hideContinuations rest = hidden := by
  revert shape
  unfold hideContinuations
  fun_cases replaceContinuations Marker.continuedLf.text Marker.continuedCrlf.text text with
  | case1 rest => intro shape; exact absurd (List.cons.inj shape).1.symm noPoint
  | case2 rest => intro shape; exact absurd (List.cons.inj shape).1.symm noPoint
  | case3 d rest =>
    intro shape
    obtain ⟨rfl, tail⟩ := List.cons.inj shape
    exact ⟨rest, rfl, tail⟩
  | case4 => intro shape; simp at shape

theorem isDirective_showContinuations (text : Text) :
    isDirective (showContinuations text) = isDirective text := by
  fun_induction showContinuations text with
  | case1 rest ih => rfl
  | case2 rest ih => rfl
  | case3 c rest _ _ ih => rw [isDirective_cons, isDirective_cons, ih]
  | case4 => rfl

/-- A pass that stops only at `point` goes over a text without it. -/
theorem pass_append_of_not_mem {point : Char} {pass : Text → Text}
    (keeps : ∀ c rest, c ≠ point → pass (c :: rest) = c :: pass rest) {start : Text}
    (absent : point ∉ start) (rest : Text) : pass (start ++ rest) = start ++ pass rest := by
  induction start with
  | nil => rfl
  | cons c start ih =>
    rw [List.mem_cons, not_or] at absent
    rw [List.cons_append, keeps c _ (Ne.symm absent.1), ih absent.2]
    rfl

theorem showContinuations_append_of_solid {start : Text} (solid : '\uFFFE' ∉ start) (rest : Text) :
    showContinuations (start ++ rest) = start ++ showContinuations rest :=
  pass_append_of_not_mem (fun _ rest other => showContinuations_cons_of_ne other rest) solid rest

/-- No continuation marker goes over a line feed. -/
theorem showContinuations_append_newline (line rest : Text) :
    showContinuations (line ++ '\n' :: rest) =
      showContinuations line ++ '\n' :: showContinuations rest := by
  fun_induction showContinuations line with
  | case1 line ih => simp [showContinuations, ih]
  | case2 line ih => simp [showContinuations, ih]
  | case3 c line notLf notCrlf ih =>
    rw [List.cons_append, showContinuations, ih]
    · rfl
    · rintro after rfl shape
      obtain ⟨behind, rfl⟩ := Text.eq_append_of_append_cons ['0', ';'] (by decide) shape
      exact notLf behind rfl rfl
    · rintro after rfl shape
      obtain ⟨behind, rfl⟩ := Text.eq_append_of_append_cons ['1', ';'] (by decide) shape
      exact notCrlf behind rfl rfl
  | case4 => simp [showContinuations]

/-- What makes a continuation marker of the reserved point before it. -/
private def Tagged (text : Text) : Prop :=
  ∃ tag rest, (tag = '0' ∨ tag = '1') ∧ text = tag :: ';' :: rest

private theorem showContinuations_point {tail : Text} (bare : ¬ Tagged tail) :
    showContinuations ('\uFFFE' :: tail) = '\uFFFE' :: showContinuations tail := by
  rw [showContinuations]
  · exact fun rest _ shape => bare ⟨'0', rest, .inl rfl, shape⟩
  · exact fun rest _ shape => bare ⟨'1', rest, .inr rfl, shape⟩

private theorem tagged_of_hideContinuations {text : Text} (tagged : Tagged (hideContinuations text)) :
    Tagged text := by
  obtain ⟨tag, tail, digit, shape⟩ := tagged
  have noPoint : tag ≠ '\uFFFE' := by rcases digit with rfl | rfl <;> decide
  obtain ⟨text, rfl, behind⟩ := eq_cons_of_hideContinuations noPoint shape
  obtain ⟨rest, rfl, -⟩ := eq_cons_of_hideContinuations (by decide) behind
  exact ⟨tag, rest, digit, rfl⟩

/-- Showing puts back every continuation that was hidden. -/
theorem showContinuations_hideContinuations (text : Text) :
    showContinuations (hideContinuations text) = showContinuations text := by
  unfold hideContinuations
  fun_induction replaceContinuations Marker.continuedLf.text Marker.continuedCrlf.text text with
  | case1 rest ih => simpa [Marker.text, showContinuations] using ih
  | case2 rest ih => simpa [Marker.text, showContinuations] using ih
  | case3 c rest notLf notCrlf ih =>
    by_cases point : c = '\uFFFE'
    · subst point
      by_cases tagged : Tagged rest
      · obtain ⟨tag, rest, rfl | rfl, rfl⟩ := tagged
        · simpa [replaceContinuations, showContinuations] using ih
        · simpa [replaceContinuations, showContinuations] using ih
      · rw [showContinuations_point tagged, showContinuations_point, ih]
        exact fun hidden => tagged (tagged_of_hideContinuations hidden)
    · rw [showContinuations_cons_of_ne point, showContinuations_cons_of_ne point, ih]
  | case4 => rfl

private theorem eq_append_of_showContinuations {start : Text} (solid : '\\' ∉ start) {text shown : Text}
    (shape : showContinuations text = start ++ shown) :
    ∃ rest, text = start ++ rest ∧ showContinuations rest = shown := by
  induction start generalizing text with
  | nil => exact ⟨text, rfl, shape⟩
  | cons c start ih =>
    rw [List.mem_cons, not_or] at solid
    obtain ⟨text, rfl, behind⟩ := eq_cons_of_showContinuations (Ne.symm solid.1) shape
    obtain ⟨rest, rfl, tail⟩ := ih solid.2 behind
    exact ⟨rest, rfl, tail⟩

private theorem not_mem_indent {c : Char} (solid : Text.isLineBlank c = false) (other : c ≠ '/')
    {indent : Text} (blank : ∀ d ∈ indent, Text.isLineBlank d = true) :
    c ∉ indent ++ ['/', '/', '/'] := by
  rw [List.mem_append, not_or]
  exact ⟨not_mem_of_blank solid blank, by simp [other]⟩

theorem commentDirective?_showContinuations (text : Text) :
    commentDirective? (showContinuations text) =
      (commentDirective? text).map fun found => (found.1, showContinuations found.2) := by
  cases found : commentDirective? text with
  | some parts =>
    obtain ⟨indent, directive⟩ := parts
    obtain ⟨rfl, exposed⟩ := eq_of_commentDirective? found
    have blank := blank_of_commentDirective? found
    have shown := showContinuations_append_of_solid (not_mem_indent (c := '\uFFFE') (by decide) (by decide) blank)
      directive
    simp only [List.append_assoc, List.cons_append, List.nil_append] at shown
    rw [shown, commentDirective?_blank_append blank]
    · rfl
    · rwa [isDirective_showContinuations]
  | none =>
    cases later : commentDirective? (showContinuations text) with
    | none => rfl
    | some parts =>
      obtain ⟨indent, directive⟩ := parts
      obtain ⟨shape, exposed⟩ := eq_of_commentDirective? later
      have blank := blank_of_commentDirective? later
      have slashed : showContinuations text = (indent ++ ['/', '/', '/']) ++ directive := by simpa using shape
      obtain ⟨rest, rfl, tail⟩ := eq_append_of_showContinuations
        (not_mem_indent (c := '\\') (by decide) (by decide) blank) slashed
      rw [← tail, isDirective_showContinuations] at exposed
      simp [commentDirective?_blank_append blank exposed] at found

end HashTunnel
