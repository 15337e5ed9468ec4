import HashTunnel.Proofs.RoundTrip

/-! # Consumed directives

An engine that acts on comment directives removes them from below their markers. The marker goes with
its line feed, but the indentation before it stays and is put before the next line; and the line feed
that wrapping has appended goes with a directive on the last line, so that unwrapping trims one of the
host's own. What comes back is the host text without the consumed lines exactly if neither happens
(`unwrap_consume_iff`).
-/

namespace HashTunnel

/-- The blanks that a line begins with. -/
def indentation (line : Text) : Text :=
  line.takeWhile Text.isLineBlank

/-- A wrapped text, of which the lines are given, without what the marked lines have below their
    markers. -/
def consume (marks : List (Text × Bool)) : Text :=
  marks.flatMap fun mark => (partOf mark.1).rewritten (if mark.2 then [] else (partOf mark.1).own)

/-- The text that the lines make up, without the marked lines and their line feeds. -/
def remaining : List (Text × Bool) → Text
  | [] => []
  | [(line, consumed)] => if consumed then [] else line
  | (line, consumed) :: later => (if consumed then [] else line ++ ['\n']) ++ remaining later

/-- The unmarked lines, the last one with a line feed too. -/
def kept (marks : List (Text × Bool)) : Text :=
  marks.flatMap fun mark => if mark.2 then [] else mark.1 ++ ['\n']

/-- The unmarked lines and the indentation of the marked ones. -/
def leftovers (marks : List (Text × Bool)) : Text :=
  marks.flatMap fun mark => if mark.2 then indentation mark.1 else mark.1 ++ ['\n']

section Equations

variable (line : Text) (marks : List (Text × Bool))

theorem kept_marked : kept ((line, true) :: marks) = kept marks := rfl

theorem kept_unmarked : kept ((line, false) :: marks) = line ++ ['\n'] ++ kept marks := rfl

theorem leftovers_marked : leftovers ((line, true) :: marks) = indentation line ++ leftovers marks := rfl

theorem leftovers_unmarked : leftovers ((line, false) :: marks) = line ++ ['\n'] ++ leftovers marks := rfl

end Equations

theorem indentation_of_commentDirective? {line indent directive : Text}
    (found : commentDirective? line = some (indent, directive)) : indentation line = indent := by
  unfold commentDirective? at found
  split at found
  · split at found
    · exact (Prod.mk.inj (Option.some.inj found)).1
    · simp at found
  · simp at found

/-- Of a consumed comment directive the indentation comes back. -/
theorem restored_consumed {line : Text} (comment : (commentDirective? line).isSome) :
    (partOf line).restored [] = indentation line := by
  obtain ⟨⟨indent, directive⟩, found⟩ := Option.isSome_iff_exists.mp comment
  have hidden : ¬ isDirective line = true := by
    rw [(eq_of_commentDirective? found).1, isDirective_blank_append (blank_of_commentDirective? found), isDirective_slash]
    exact Bool.false_ne_true
  unfold partOf
  rw [dif_neg hidden, indentation_of_commentDirective? found]
  split
  · rename_i same
    obtain rfl := Option.some.inj (same.symm.trans found)
    simp [Part.restored, isDirective]
  · rename_i none
    rw [none] at found
    contradiction

section Marks

variable {marks : List (Text × Bool)}

/-- The tunnel leaves of the consumed lines their indentation, and the other lines as they were. -/
theorem strip_consume (free : ∀ mark ∈ marks, ReservedFree mark.1)
    (directives : ∀ mark ∈ marks, mark.2 = true → (commentDirective? mark.1).isSome) :
    strip (consume marks) = leftovers marks := by
  have admitted : ∀ edit ∈ marks.map fun mark => (partOf mark.1, if mark.2 then [] else (partOf mark.1).own),
      edit.1.Admits edit.2 := by
    intro edit member
    obtain ⟨⟨line, consumed⟩, inside, rfl⟩ := List.mem_map.mp member
    cases consumed with
    | true => exact ⟨by simp [ReservedFree], (partOf line).fits_nil⟩
    | false =>
      refine ⟨Part.reservedFree_own ?_, (partOf line).fits_own⟩
      rw [line_partOf]
      exact free _ inside
  have stripped := strip_edits admitted
  rw [List.flatMap_map, List.flatMap_map] at stripped
  rw [consume, stripped, leftovers]
  refine List.flatMap_congr fun mark member => ?_
  obtain ⟨line, consumed⟩ := mark
  cases consumed with
  | true => exact restored_consumed (directives _ member rfl)
  | false => simp [Part.restored_own, line_partOf]

private theorem remaining_concat (line : Text) (consumed : Bool) :
    remaining (marks ++ [(line, consumed)]) = kept marks ++ if consumed then [] else line := by
  induction marks with
  | nil => rfl
  | cons mark marks ih =>
    obtain ⟨first, gone⟩ := mark
    rw [List.cons_append, remaining, ih]
    · simp [kept]
    · simp

/-- The line feed that the last line does not have is missing unless that line is consumed. -/
theorem remaining_cases (inhabited : marks ≠ []) :
    ((∃ line, marks.getLast? = some (line, true)) ∧ remaining marks = kept marks) ∨
      ((∀ line, marks.getLast? ≠ some (line, true)) ∧ kept marks = remaining marks ++ ['\n']) := by
  obtain rfl | ⟨earlier, ⟨line, consumed⟩, rfl⟩ := List.eq_nil_or_concat marks
  · exact absurd rfl inhabited
  rw [List.concat_eq_append, List.getLast?_concat, remaining_concat]
  cases consumed with
  | true =>
    left
    exact ⟨⟨line, rfl⟩, by simp [kept]⟩
  | false =>
    right
    exact ⟨fun other last => by simp at last, by simp [kept]⟩

theorem closed_kept (marks : List (Text × Bool)) : Closed (kept marks) := by
  induction marks with
  | nil => exact .inl rfl
  | cons mark marks ih =>
    obtain ⟨line, consumed⟩ := mark
    cases consumed with
    | true => exact ih
    | false =>
      rw [kept_unmarked]
      rcases ih with none | ends
      · rw [none, List.append_nil]
        exact .inr (List.suffix_append line ['\n'])
      · exact .inr (ends.trans (List.suffix_append _ _))

private theorem reservedFree_kept (free : ∀ mark ∈ marks, ReservedFree mark.1) : ReservedFree (kept marks) := by
  intro c member
  obtain ⟨⟨line, consumed⟩, inside, here⟩ := List.mem_flatMap.mp member
  cases consumed with
  | true => simp at here
  | false => exact (reservedFree_append.mpr ⟨free _ inside, by decide⟩) c here

theorem reservedFree_remaining (inhabited : marks ≠ []) (free : ∀ mark ∈ marks, ReservedFree mark.1) :
    ReservedFree (remaining marks) := by
  have whole := reservedFree_kept free
  rcases remaining_cases inhabited with ⟨-, same⟩ | ⟨-, fed⟩
  · rwa [same]
  · rw [fed] at whole
    exact (reservedFree_append.mp whole).1

/-- Nothing is missing where nothing is consumed. -/
theorem remaining_unmarked (marks : List (Text × Bool)) :
    remaining (marks.map fun mark => (mark.1, false)) = Text.joinWith '\n' (marks.map Prod.fst) := by
  induction marks with
  | nil => rfl
  | cons mark marks ih =>
    cases marks with
    | nil => rfl
    | cons next marks =>
      simpa [remaining, Text.joinWith] using ih

/-- Trimming does no more to whole lines than to put a line feed at their end, unless there are none or
    the last one is blank. -/
theorem trimNewline_eq_ended_iff {text : Text} (closed : Closed text) :
    trimNewline text = ended text ↔ text ≠ [] ∧ ¬ ['\n', '\n'] <:+ text := by
  rcases closed with rfl | ends
  · exact ⟨fun same => absurd same (by decide), fun some => absurd rfl some.1⟩
  · have inhabited : text ≠ [] := by
      rintro rfl
      simp at ends
    rw [ended, if_pos ends, and_iff_right inhabited]
    constructor
    · intro same two
      have shorter := congrArg List.length same
      rw [trimNewline, if_pos (List.isSuffixOf_iff_suffix.mpr two), List.length_dropLast] at shorter
      have positive := List.length_pos_of_ne_nil inhabited
      omega
    · intro one
      rw [trimNewline, if_neg fun two => one (List.isSuffixOf_iff_suffix.mp two)]

private theorem trimNewline_kept_iff (inhabited : marks ≠ []) :
    trimNewline (kept marks) = ended (remaining marks) ↔
      ∀ line, marks.getLast? = some (line, true) →
        remaining marks ≠ [] ∧ ¬ ['\n', '\n'] <:+ remaining marks := by
  rcases remaining_cases inhabited with ⟨⟨line, last⟩, same⟩ | ⟨other, fed⟩
  · rw [same, trimNewline_eq_ended_iff (closed_kept marks)]
    exact ⟨fun ends _ _ => ends, fun ends => ends line last⟩
  · rw [fed, trimNewline_append_newline]
    exact ⟨fun _ line last => absurd last (other line), fun _ => rfl⟩

/-- How many characters other than line feeds a text holds. -/
def solidCount (text : Text) : Nat :=
  text.countP (· != '\n')

theorem solidCount_append (start rest : Text) : solidCount (start ++ rest) = solidCount start + solidCount rest := by
  simp [solidCount]

theorem solidCount_trimNewline (text : Text) : solidCount (trimNewline text) = solidCount text :=
  countP_trimNewline (by decide) text

theorem solidCount_ended (text : Text) : solidCount (ended text) = solidCount text :=
  countP_ended (by decide) text

theorem solidCount_indentation (line : Text) : solidCount (indentation line) = (indentation line).length := by
  refine List.countP_eq_length.mpr fun c member => ?_
  have blank : Text.isLineBlank c = true := List.mem_takeWhile_imp member
  rw [bne_iff_ne]
  rintro rfl
  exact absurd blank (by decide)

private theorem solidCount_remaining (inhabited : marks ≠ []) :
    solidCount (remaining marks) = solidCount (kept marks) := by
  rcases remaining_cases inhabited with ⟨-, same⟩ | ⟨-, fed⟩
  · rw [same]
  · rw [fed, solidCount_append]
    rfl

private theorem solidCount_kept_le (marks : List (Text × Bool)) :
    solidCount (kept marks) ≤ solidCount (leftovers marks) := by
  induction marks with
  | nil => exact le_rfl
  | cons mark marks ih =>
    obtain ⟨line, consumed⟩ := mark
    cases consumed with
    | true =>
      rw [kept_marked, leftovers_marked, solidCount_append]
      omega
    | false =>
      rw [kept_unmarked, leftovers_unmarked, solidCount_append, solidCount_append _ (leftovers marks)]
      omega

/-- Indentation that is left over is missed in what remains, and no line feed makes up for it. -/
private theorem indentation_eq_nil (same : solidCount (leftovers marks) = solidCount (kept marks)) :
    ∀ mark ∈ marks, mark.2 = true → indentation mark.1 = [] := by
  induction marks with
  | nil => simp
  | cons mark marks ih =>
    obtain ⟨line, consumed⟩ := mark
    have bound := solidCount_kept_le marks
    rw [List.forall_mem_cons]
    cases consumed with
    | true =>
      rw [kept_marked, leftovers_marked, solidCount_append, solidCount_indentation] at same
      have none : (indentation line).length = 0 := by omega
      exact ⟨fun _ => List.eq_nil_of_length_eq_zero none, ih (by omega)⟩
    | false =>
      rw [kept_unmarked, leftovers_unmarked, solidCount_append, solidCount_append _ (kept marks)] at same
      exact ⟨fun gone => by simp at gone, ih (by omega)⟩

private theorem leftovers_eq_kept (flush : ∀ mark ∈ marks, mark.2 = true → indentation mark.1 = []) :
    leftovers marks = kept marks := by
  refine List.flatMap_congr fun mark member => ?_
  obtain ⟨line, consumed⟩ := mark
  cases consumed with
  | true => exact flush _ member rfl
  | false => rfl

private theorem trimNewline_leftovers_iff (inhabited : marks ≠ []) :
    trimNewline (leftovers marks) = ended (remaining marks) ↔
      (∀ mark ∈ marks, mark.2 = true → indentation mark.1 = []) ∧
      ∀ line, marks.getLast? = some (line, true) →
        remaining marks ≠ [] ∧ ¬ ['\n', '\n'] <:+ remaining marks := by
  rw [← trimNewline_kept_iff inhabited]
  constructor
  · intro same
    have counted := congrArg solidCount same
    rw [solidCount_trimNewline, solidCount_ended, solidCount_remaining inhabited] at counted
    have flush := indentation_eq_nil counted
    rw [leftovers_eq_kept flush] at same
    exact ⟨flush, same⟩
  · rintro ⟨flush, same⟩
    rwa [leftovers_eq_kept flush]

/-- Where an engine consumes comment directives, what comes back is what comes back of the host text
    without their lines, exactly if none of these is indented and, where the host text ends with one of
    them, something remains and it does not end in a blank line. -/
theorem unwrap_consume_iff {host : Text} (free : ReservedFree host) (engine : Text → Text)
    (lines : marks.map Prod.fst = logicalLines host)
    (directives : ∀ mark ∈ marks, mark.2 = true → (commentDirective? mark.1).isSome)
    (consumes : engine (wrap host) = consume marks) :
    wrap host = consume (marks.map fun mark => (mark.1, false)) ∧
      host = remaining (marks.map fun mark => (mark.1, false)) ∧
      (unwrap (engine (wrap host)) = unwrap (wrap (remaining marks)) ↔
        (∀ mark ∈ marks, mark.2 = true → indentation mark.1 = []) ∧
        ∀ line, marks.getLast? = some (line, true) →
          remaining marks ≠ [] ∧ ¬ ['\n', '\n'] <:+ remaining marks) := by
  have inhabited : marks ≠ [] := by
    rintro rfl
    exact logicalLines_ne_nil host lines.symm
  have lineFree : ∀ mark ∈ marks, ReservedFree mark.1 := by
    intro mark member
    refine free.logicalLine mark.1 ?_
    rw [← lines]
    exact List.mem_map_of_mem member
  refine ⟨?_, ?_, ?_⟩
  · rw [wrap_of_free free, ← lines, List.flatMap_map, List.flatMap_map, consume, List.flatMap_map]
    rfl
  · rw [remaining_unmarked, lines, joinWith_logicalLines]
  · rw [consumes, unwrap_eq, strip_consume lineFree directives,
      unwrap_wrap_of_free (reservedFree_remaining inhabited lineFree), trimNewline_leftovers_iff inhabited]

theorem unwrap_consume_flush :
    unwrap (Text.replace "#define X 1\n".toList [] (wrap "let a;\n///#define X 1\nlet b;\n".toList)) =
      unwrap (wrap "let a;\nlet b;\n".toList) := by
  have lines : [("let a;".toList, false), ("///#define X 1".toList, true), ("let b;".toList, false),
      ([], false)].map Prod.fst = logicalLines "let a;\n///#define X 1\nlet b;\n".toList := by decide
  have carried := unwrap_consume_iff (by decide) (Text.replace "#define X 1\n".toList []) lines
    (by decide) (by decide)
  exact carried.2.2.mpr ⟨by decide, by simp⟩

/-- The indentation of a consumed directive stays behind as a line of blanks. -/
theorem unwrap_consume_indented :
    ¬ ∀ (host : Text) (engine : Text → Text) (marks : List (Text × Bool)), ReservedFree host →
      marks.map Prod.fst = logicalLines host →
      (∀ mark ∈ marks, mark.2 = true → (commentDirective? mark.1).isSome) →
      engine (wrap host) = consume marks →
      unwrap (engine (wrap host)) = unwrap (wrap (remaining marks)) := by
  intro always
  have same := always "foo\n  ///#define X 1\n".toList (Text.replace "#define X 1\n".toList [])
    [("foo".toList, false), ("  ///#define X 1".toList, true), ([], false)]
    (by decide) (by decide) (by decide) (by decide)
  exact absurd same (by decide)

end Marks

end HashTunnel
