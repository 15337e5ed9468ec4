import HashTunnel.Proofs.StepOrder
import HashTunnel.Proofs.WrappedTexts

/-! # Steps that undo steps

Three steps of wrapping put markers in, and each has a step that takes its markers out again. Whatever a text holds,
the second step does to the marked text what it does to the text itself: no marker hides a mark that was there before,
and none completes one. So a text comes back exactly if it holds nothing that the second step would change
(`undone_iff`).
-/

namespace HashTunnel

/-- The backslashes that continue a line, with their line breaks. -/
def continuedBreaks : List Text :=
  [['\\', '\n'], ['\\', '\r', '\n']]

theorem lacks_continuedBreaks_append {start rest : Text} (absent : '\\' ∉ start) (lacks : Lacks continuedBreaks rest) :
    Lacks continuedBreaks (start ++ rest) := by
  induction start with
  | nil => exact lacks
  | cons c start ih =>
    rw [List.mem_cons, not_or] at absent
    refine (ih absent.2).cons ?_
    rintro mark member ⟨after, shape⟩
    simp only [continuedBreaks, List.mem_cons, List.not_mem_nil, or_false] at member
    rcases member with rfl | rfl
    · exact absent.1 (List.cons.inj shape).1
    · exact absent.1 (List.cons.inj shape).1

/-- Hiding leaves no continuation and makes none of the characters around those that it hides. -/
theorem lacks_continuedBreaks_hideContinuations (text : Text) : Lacks continuedBreaks (hideContinuations text) := by
  unfold hideContinuations
  fun_induction replaceContinuations Marker.continuedLf.text Marker.continuedCrlf.text text with
  | case1 rest ih => exact lacks_continuedBreaks_append (by decide) ih
  | case2 rest ih => exact lacks_continuedBreaks_append (by decide) ih
  | case3 c rest notLf notCrlf ih =>
    refine ih.cons ?_
    rintro mark member ⟨after, shape⟩
    simp only [continuedBreaks, List.mem_cons, List.not_mem_nil, or_false] at member
    -- What stands behind the backslash once continuations are hidden stood there before.
    rcases member with rfl | rfl
    · obtain ⟨rfl, behind⟩ := List.cons.inj shape
      obtain ⟨later, rfl, -⟩ := eq_cons_of_hideContinuations (by decide) behind.symm
      exact notLf later rfl rfl
    · obtain ⟨rfl, behind⟩ := List.cons.inj shape
      obtain ⟨feed, rfl, tail⟩ := eq_cons_of_hideContinuations (by decide) behind.symm
      obtain ⟨later, rfl, -⟩ := eq_cons_of_hideContinuations (by decide) tail
      exact notCrlf later rfl rfl
  | case4 => simp [Lacks, continuedBreaks]

theorem guardLine_guardLine (line : Text) : guardLine (guardLine line) = guardLine line := by
  cases directive : isDirective line with
  | true =>
    have hidden : isDirective (Marker.guarded.text ++ line) = false := rfl
    simp [guardLine, directive, hidden]
  | false => simp [guardLine, directive]

theorem unguardDirectives_guardLine (line : Text) : unguardDirectives (guardLine line) = unguardDirectives line := by
  unfold guardLine
  split
  · exact unguardDirectives_guarded line
  · rfl

/-- No guard goes over a line feed. -/
theorem unguardDirectives_append_newline (start rest : Text) :
    unguardDirectives (start ++ '\n' :: rest) = unguardDirectives start ++ '\n' :: unguardDirectives rest := by
  rw [unguardDirectives_append start, unguardDirectives_cons_of_ne (by decide)]
  rintro c tail shape
  obtain ⟨rfl, -⟩ := List.cons.inj shape
  decide

theorem unguardDirectives_mapLines_guardLine (text : Text) :
    unguardDirectives (Text.mapLines guardLine text) = unguardDirectives text := by
  induction text using Text.piece_induction '\n' with
  | last line whole => rw [Text.mapLines_whole whole, unguardDirectives_guardLine]
  | more line rest whole ih =>
    rw [Text.mapLines_append_newline whole, unguardDirectives_append_newline, unguardDirectives_guardLine, ih,
      unguardDirectives_append_newline]

theorem splitLine_of_directive {line : Text} (directive : isDirective line = true) : splitLine line = line := by
  have ordinary : ¬ (commentDirective? line).isSome := by
    rw [isSome_commentDirective?_iff_begins]
    exact fun comment => comment.not_beginsDirective (isDirective_iff_begins.mp directive)
  rw [splitLine, Option.not_isSome_iff_eq_none.mp ordinary]

theorem splitLine_marker {indent : Text} (blank : ∀ c ∈ indent, Text.isLineBlank c = true) :
    splitLine (indent ++ Marker.split.text) = indent ++ Marker.split.text := by
  have none : commentDirective? (indent ++ Marker.split.text) = none := by
    rw [commentDirective?, List.dropWhile_append_of_pos blank]
    rfl
  rw [splitLine, none]

theorem splitLine_cases (line : Text) :
    splitLine line = line ∨
      ∃ indent directive, (∀ c ∈ indent, Text.isLineBlank c = true) ∧ isDirective directive = true ∧
        line = indent ++ '/' :: '/' :: '/' :: directive ∧
        splitLine line = indent ++ Marker.split.text ++ '\n' :: directive := by
  unfold splitLine
  cases found : commentDirective? line with
  | none => exact .inl rfl
  | some parts =>
    obtain ⟨shape, exposed⟩ := eq_of_commentDirective? found
    exact .inr ⟨parts.1, parts.2, blank_of_commentDirective? found, exposed, shape, rfl⟩

/-- Neither the marker line of a comment directive nor its directive is a comment directive. -/
theorem mapLines_splitLine_splitLine {line : Text} (whole : '\n' ∉ line) :
    Text.mapLines splitLine (splitLine line) = splitLine line := by
  rcases splitLine_cases line with same | ⟨indent, directive, blank, exposed, rfl, split⟩
  · rw [same, Text.mapLines_whole whole, same]
  · have marker : '\n' ∉ indent ++ Marker.split.text := by
      simp [Marker.text, not_mem_of_blank Text.not_isLineBlank_newline blank]
    have below : '\n' ∉ directive := fun feed => whole (by simp [feed])
    rw [split, Text.mapLines_append_newline marker, Text.mapLines_whole below, splitLine_marker blank,
      splitLine_of_directive exposed]

theorem isDirective_splitLine (line : Text) : isDirective (splitLine line) = isDirective line := by
  rcases splitLine_cases line with same | ⟨indent, directive, blank, -, rfl, split⟩
  · rw [same]
  · rw [split, List.append_assoc, isDirective_blank_append blank, isDirective_blank_append blank]
    rfl

theorem isDirective_mapLines_splitLine (text : Text) : isDirective (Text.mapLines splitLine text) = isDirective text := by
  induction text using Text.piece_induction '\n' with
  | last line whole => rw [Text.mapLines_whole whole, isDirective_splitLine]
  | more line rest whole _ =>
    rw [Text.mapLines_append_newline whole, isDirective_append_newline, isDirective_splitLine, isDirective_append_newline]

theorem isDirective_append_of_isDirective {line : Text} (directive : isDirective line = true) (rest : Text) :
    isDirective (line ++ rest) = true := by
  obtain ⟨indent, after, blank, rfl⟩ := isDirective_iff_begins.mp directive
  exact isDirective_iff_begins.mpr ⟨indent, after ++ rest, blank, by simp⟩

theorem rejoinComments_splitLine_append (line rest : Text) :
    rejoinComments (splitLine line ++ rest) = rejoinComments (line ++ rest) := by
  rcases splitLine_cases line with same | ⟨indent, directive, blank, exposed, rfl, split⟩
  · rw [same]
  · have solid : '\uFFFF' ∉ indent := not_mem_of_blank rfl blank
    have slashed : '\uFFFF' ∉ indent ++ ['/', '/', '/'] := by simp [solid]
    have still := isDirective_append_of_isDirective exposed rest
    have opened : splitLine (indent ++ '/' :: '/' :: '/' :: directive) ++ rest =
        indent ++ (Marker.split.text ++ ['\n'] ++ (directive ++ rest)) := by simp [split]
    have closed : indent ++ '/' :: '/' :: '/' :: directive ++ rest =
        (indent ++ ['/', '/', '/']) ++ (directive ++ rest) := by simp
    rw [opened, closed, rejoinComments_append_of_not_mem solid, rejoinComments_append_of_not_mem slashed,
      rejoinComments_split (.inl rfl), if_pos still, List.append_assoc]

theorem rejoinComments_mapLines_splitLine (text : Text) :
    rejoinComments (Text.mapLines splitLine text) = rejoinComments text := by
  induction text using Text.piece_induction '\n' with
  | last line whole =>
    have same := rejoinComments_splitLine_append line []
    rwa [List.append_nil, List.append_nil, ← Text.mapLines_whole (f := splitLine) whole] at same
  | more line rest whole ih =>
    -- A split marker at the end of this line is read together with the start of the next one, which splitting may
    -- have changed.
    obtain ⟨joined, closes⟩ := exists_rejoinComments_append_newline (unbroken_of_not_mem whole).lacks_splitMarks
    rw [Text.mapLines_append_newline whole, rejoinComments_splitLine_append, closes, closes,
      isDirective_mapLines_splitLine, ih]

private theorem rejoined_split_eq_self_iff {ending rest : Text} (lineBreak : IsLineBreak ending)
    (ih : rejoinComments rest = rest ↔ ∀ after, BehindSplit rest after → ¬ BeginsDirective after) :
    (if isDirective rest then ['/', '/', '/'] else Marker.split.text ++ ending) ++ rejoinComments rest =
        Marker.split.text ++ ending ++ rest ↔
      ∀ after, BehindSplit (Marker.split.text ++ ending ++ rest) after → ¬ BeginsDirective after := by
  simp only [behindSplit_split lineBreak, forall_eq_or_imp]
  rw [← ih, ← isDirective_iff_begins]
  cases directive : isDirective rest with
  | true => simp [Marker.text]
  | false => simp

/-- Rejoining leaves a text alone exactly if no directive stands behind any of its split markers. -/
theorem rejoinComments_eq_self_iff (text : Text) :
    rejoinComments text = text ↔ ∀ rest, BehindSplit text rest → ¬ BeginsDirective rest := by
  fun_induction rejoinComments text with
  | case1 rest ih => exact rejoined_split_eq_self_iff (.inl rfl) ih
  | case2 rest ih => exact rejoined_split_eq_self_iff (.inr rfl) ih
  | case3 c rest notLf notCrlf ih => simp only [List.cons_inj_right, ih, behindSplit_cons_of_ne notLf notCrlf]
  | case4 => exact iff_of_true rfl fun rest behind => absurd behind (not_behindSplit_nil rest)

/-- Showing continuations gives back a text whose continuations were hidden exactly if the text had no markers of
    continuations itself, unguarding one whose directive lines were guarded exactly if it had no guards, and rejoining
    one whose comment directives were split exactly if no directive stood behind a split marker and its line break.
    Hiding hides every continuation, and guarding and splitting find nothing more to do in what they have done. -/
theorem undone_iff (text : Text) :
    (WrapStep.showContinuations.apply (WrapStep.hideContinuations.apply text) = text ↔ Lacks continuationMarks text) ∧
      (UnwrapStep.unguardDirectives.apply (WrapStep.guardDirectives.apply text) = text ↔ Lacks guardMarks text) ∧
      (UnwrapStep.rejoinComments.apply (WrapStep.splitComments.apply text) = text ↔
        ∀ rest, BehindSplit text rest → ¬ BeginsDirective rest) ∧
      Lacks continuedBreaks (WrapStep.hideContinuations.apply text) ∧
      WrapStep.guardDirectives.apply (WrapStep.guardDirectives.apply text) = WrapStep.guardDirectives.apply text ∧
      WrapStep.splitComments.apply (WrapStep.splitComments.apply text) = WrapStep.splitComments.apply text := by
  refine ⟨?continuations, ?guards, ?splits, lacks_continuedBreaks_hideContinuations text, ?guarded, ?split⟩
  case continuations =>
    change showContinuations (hideContinuations text) = text ↔ _
    rw [showContinuations_hideContinuations, (erased_showContinuations text).eq_self_iff]
  case guards =>
    change unguardDirectives (Text.mapLines guardLine text) = text ↔ _
    rw [unguardDirectives_mapLines_guardLine, (erased_unguardDirectives text).eq_self_iff]
  case splits =>
    change rejoinComments (Text.mapLines splitLine text) = text ↔ _
    rw [rejoinComments_mapLines_splitLine, rejoinComments_eq_self_iff]
  case guarded =>
    refine Text.mapLines_mapLines (fun line whole => ?_) text
    rw [Text.mapLines_whole (not_mem_guardLine whole), guardLine_guardLine]
  case split => exact Text.mapLines_mapLines (fun _ whole => mapLines_splitLine_splitLine whole) text

end HashTunnel
