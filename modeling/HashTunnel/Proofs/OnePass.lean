import HashTunnel.Proofs.RoundTrip

/-! # Wrapping in one pass

The five steps of wrapping do what one pass over the logical lines does: `Written` says what each of them
becomes, and `wrap_iff_written` that a wrapped text is what they become and nothing else. Seen line by
line as an editor counts them, a line moves down by the comment directives above it, because each of
these takes one line more than before.
-/

namespace HashTunnel

/-- Blanks, and then a hash sign. -/
def BeginsDirective (line : Text) : Prop :=
  ∃ indent rest, (∀ c ∈ indent, Text.isLineBlank c = true) ∧ line = indent ++ '#' :: rest

/-- Blanks, three slashes, and then what a directive line begins with. -/
def BeginsComment (line : Text) : Prop :=
  ∃ indent directive, (∀ c ∈ indent, Text.isLineBlank c = true) ∧ BeginsDirective directive ∧
    line = indent ++ '/' :: '/' :: '/' :: directive

theorem isDirective_iff_begins {line : Text} : isDirective line = true ↔ BeginsDirective line := by
  constructor
  · intro directive
    have first : (line.dropWhile Text.isLineBlank).head? = some '#' := by simpa [isDirective] using directive
    obtain ⟨rest, behind⟩ := List.head?_eq_some_iff.mp first
    refine ⟨line.takeWhile Text.isLineBlank, rest, fun c member => List.mem_takeWhile_imp member, ?_⟩
    rw [← behind, List.takeWhile_append_dropWhile]
  · rintro ⟨indent, rest, blank, rfl⟩
    rw [isDirective_blank_append blank]
    rfl

theorem commentDirective?_eq_some_iff {line indent directive : Text} :
    commentDirective? line = some (indent, directive) ↔
      (∀ c ∈ indent, Text.isLineBlank c = true) ∧ BeginsDirective directive ∧
        line = indent ++ '/' :: '/' :: '/' :: directive := by
  constructor
  · intro found
    obtain ⟨shape, exposed⟩ := eq_of_commentDirective? found
    exact ⟨blank_of_commentDirective? found, isDirective_iff_begins.mp exposed, shape⟩
  · rintro ⟨blank, exposed, rfl⟩
    exact commentDirective?_blank_append blank (isDirective_iff_begins.mpr exposed)

theorem isSome_commentDirective?_iff_begins {line : Text} : (commentDirective? line).isSome ↔ BeginsComment line := by
  simp only [Option.isSome_iff_exists, Prod.exists, commentDirective?_eq_some_iff]
  rfl

instance : DecidablePred BeginsDirective := fun line =>
  decidable_of_iff (isDirective line = true) isDirective_iff_begins

instance : DecidablePred BeginsComment := fun line =>
  decidable_of_iff ((commentDirective? line).isSome = true) isSome_commentDirective?_iff_begins

/-- The slashes of a comment directive stand before anything that could make a directive line of it. -/
theorem BeginsComment.not_beginsDirective {line : Text} (comment : BeginsComment line) : ¬ BeginsDirective line := by
  obtain ⟨indent, directive, blank, -, rfl⟩ := comment
  rw [← isDirective_iff_begins, isDirective_blank_append blank, isDirective_slash]
  exact Bool.false_ne_true

/-- What a logical line becomes in one pass. -/
inductive Written : Text → Text → Prop where
  | guarded {line : Text} : BeginsDirective line → Written line (Marker.guarded.text ++ line)
  | split {indent directive : Text} : (∀ c ∈ indent, Text.isLineBlank c = true) → BeginsDirective directive →
      Written (indent ++ '/' :: '/' :: '/' :: directive) (indent ++ Marker.split.text ++ '\n' :: directive)
  | plain {line : Text} : ¬ BeginsDirective line → ¬ BeginsComment line → Written line line

theorem wrapLine_of_directive {line : Text} (directive : BeginsDirective line) :
    wrapLine line = Marker.guarded.text ++ line := by
  rw [wrapLine, guardLine, if_pos (isDirective_iff_begins.mpr directive), splitLine_guarded]

theorem wrapLine_of_ordinary {line : Text} (ordinary : ¬ BeginsDirective line) : wrapLine line = splitLine line := by
  rw [wrapLine, guardLine, if_neg (mt isDirective_iff_begins.mp ordinary)]

/-- One pass makes of each line what guarding and splitting make of it. -/
theorem written_iff {line piece : Text} : Written line piece ↔ wrapLine line = piece := by
  constructor
  · intro written
    cases written with
    | guarded directive => exact wrapLine_of_directive directive
    | split blank exposed =>
      have found := commentDirective?_eq_some_iff.mpr ⟨blank, exposed, rfl⟩
      rw [wrapLine_of_ordinary (BeginsComment.not_beginsDirective ⟨_, _, blank, exposed, rfl⟩), splitLine, found]
    | plain ordinary whole =>
      rw [← isSome_commentDirective?_iff_begins, Option.not_isSome_iff_eq_none] at whole
      rw [wrapLine_of_ordinary ordinary, splitLine, whole]
  · rintro rfl
    by_cases directive : BeginsDirective line
    · rw [wrapLine_of_directive directive]
      exact .guarded directive
    · rw [wrapLine_of_ordinary directive, splitLine]
      cases found : commentDirective? line with
      | some parts =>
        obtain ⟨blank, exposed, rfl⟩ := commentDirective?_eq_some_iff.mp found
        exact .split blank exposed
      | none =>
        refine .plain directive ?_
        rw [← isSome_commentDirective?_iff_begins, found]
        simp

theorem written_wrapLine (line : Text) : Written line (wrapLine line) :=
  written_iff.mpr rfl

theorem beginsDirective_append_newline {line rest : Text} :
    BeginsDirective (line ++ '\n' :: rest) ↔ BeginsDirective line := by
  rw [← isDirective_iff_begins, ← isDirective_iff_begins, isDirective_append_newline]

theorem beginsComment_append_newline {line rest : Text} :
    BeginsComment (line ++ '\n' :: rest) ↔ BeginsComment line := by
  constructor
  · rintro ⟨indent, directive, blank, exposed, shape⟩
    have whole : '\n' ∉ indent ++ ['/', '/', '/'] := by
      simp [not_mem_of_blank Text.not_isLineBlank_newline blank]
    have slashed : line ++ '\n' :: rest = (indent ++ ['/', '/', '/']) ++ directive := by simpa using shape
    obtain ⟨behind, rfl⟩ := Text.eq_append_of_append_cons _ whole slashed
    rw [List.append_assoc, List.append_cancel_left_eq] at slashed
    rw [← slashed, beginsDirective_append_newline] at exposed
    exact ⟨indent, behind, blank, exposed, by simp⟩
  · rintro ⟨indent, directive, blank, exposed, rfl⟩
    exact ⟨indent, directive ++ '\n' :: rest, blank, beginsDirective_append_newline.mpr exposed, by simp⟩

/-- What follows the first line feed of a logical line stays as it is. -/
theorem Written.append_newline {line piece : Text} (written : Written line piece) (rest : Text) :
    Written (line ++ '\n' :: rest) (piece ++ '\n' :: rest) := by
  cases written with
  | guarded directive =>
    rw [List.append_assoc]
    exact .guarded (beginsDirective_append_newline.mpr directive)
  | @split indent directive blank exposed =>
    simp only [List.append_assoc, List.cons_append]
    rw [← List.append_assoc]
    exact .split blank (beginsDirective_append_newline.mpr exposed)
  | plain ordinary whole =>
    exact .plain (mt beginsDirective_append_newline.mp ordinary) (mt beginsComment_append_newline.mp whole)

/-- Four slashes are no comment directive. -/
theorem not_beginsComment_four_slashes {indent : Text} (blank : ∀ c ∈ indent, Text.isLineBlank c = true) (rest : Text) :
    ¬ BeginsDirective (indent ++ '/' :: '/' :: '/' :: '/' :: rest) ∧
      ¬ BeginsComment (indent ++ '/' :: '/' :: '/' :: '/' :: rest) := by
  constructor
  · rw [← isDirective_iff_begins, isDirective_blank_append blank, isDirective_slash]
    exact Bool.false_ne_true
  · have behind : (indent ++ '/' :: '/' :: '/' :: '/' :: rest).dropWhile Text.isLineBlank =
        '/' :: '/' :: '/' :: '/' :: rest := by
      rw [List.dropWhile_append_of_pos blank, List.dropWhile_cons_of_neg (by decide)]
    rw [← isSome_commentDirective?_iff_begins, commentDirective?, behind]
    simp [isDirective_slash]

theorem forall₂_written_iff {lines pieces : List Text} :
    List.Forall₂ Written lines pieces ↔ lines.map wrapLine = pieces := by
  have same : Written = fun line piece => wrapLine line = piece := by
    funext line piece
    exact propext written_iff
  rw [same, ← List.forall₂_map_left_iff, List.forall₂_eq_eq_eq]

/-- Where a text has no markers of continuations, showing its continuations changes none of its lines. -/
theorem wrap_of_lacks {text : Text} (lacks : Lacks continuationMarks text) :
    wrap text = ((logicalLines text).map wrapLine).flatMap (· ++ ['\n']) := by
  rw [wrap_eq, List.flatMap_map]
  refine List.flatMap_congr fun line member => ?_
  have inside : line <:+: text := by
    rw [← joinWith_logicalLines text]
    exact Text.infix_joinWith member
  rw [(erased_showContinuations line).eq_of_lacks (lacks.of_infix inside)]

/-- Lines, each with the one above it; `above` is above the first. -/
def stackedBelow (above : Text) (lines : List Text) : List (Text × Text) :=
  lines.zip (above :: lines)

/-- The lines of a text, each with the one above it; an empty one is above the first. -/
def stacked (text : Text) : List (Text × Text) :=
  stackedBelow [] (Text.lines text)

/-- Holds of a line that begins a comment directive, and not one that goes on from the line above. -/
def isExposed (stack : Text × Text) : Bool :=
  !decide (Continues stack.2) && decide (BeginsComment stack.1)

/-- How many of the first lines of a text begin comment directives. -/
def commentsAbove (text : Text) (n : Nat) : Nat :=
  ((stacked text).take n).countP isExposed

/-- What a line becomes in a wrapped text: nothing is done to one that goes on from the line above. -/
def placed (stack : Text × Text) : List Text :=
  if Continues stack.2 then [stack.1] else Text.lines (wrapLine stack.1)

theorem stackedBelow_cons (above line : Text) (lines : List Text) :
    stackedBelow above (line :: lines) = (line, above) :: stackedBelow line lines := rfl

theorem stackedBelow_append {above last : Text} {first second : List Text} (ends : first.getLast? = some last) :
    stackedBelow above (first ++ second) = stackedBelow above first ++ stackedBelow last second := by
  induction first generalizing above with
  | nil => simp at ends
  | cons line first ih =>
    rw [List.cons_append, stackedBelow_cons, stackedBelow_cons, List.cons_append]
    cases first with
    | nil =>
      obtain rfl : line = last := by simpa using ends
      rfl
    | cons next first =>
      rw [List.getLast?_cons_cons] at ends
      rw [ih ends]

/-- Of the lines of a logical line, all but the last go on below. -/
theorem continues_of_mem_dropLast {lines : List Text} (unbroken : Unbroken (Text.joinWith '\n' lines)) :
    ∀ line ∈ lines.dropLast, Continues line := by
  induction lines with
  | nil => simp
  | cons line lines ih =>
    cases lines with
    | nil => simp
    | cons next lines =>
      rw [Text.joinWith_cons_cons] at unbroken
      rw [List.dropLast_cons_cons, List.forall_mem_cons]
      exact ⟨unbroken line _ rfl, ih (unbroken.of_append_cons (by decide) (by decide))⟩

theorem flatMap_placed_of_continues {above : Text} {lines : List Text} (goesOn : Continues above)
    (below : ∀ line ∈ lines.dropLast, Continues line) : (stackedBelow above lines).flatMap placed = lines := by
  induction lines generalizing above with
  | nil => rfl
  | cons line lines ih =>
    rw [stackedBelow_cons, List.flatMap_cons, placed, if_pos goesOn, List.singleton_append]
    cases lines with
    | nil => rfl
    | cons next lines =>
      rw [List.dropLast_cons_cons, List.forall_mem_cons] at below
      rw [ih below.1 below.2]

/-- A logical line becomes what its first line does, with its other lines below. -/
theorem flatMap_placed_logicalLine {above line : Text} (ends : ¬ Continues above) (unbroken : Unbroken line) :
    (stackedBelow above (Text.lines line)).flatMap placed = Text.lines (wrapLine line) := by
  obtain ⟨first, later, lined⟩ := List.exists_cons_of_ne_nil (Text.lines_ne_nil line)
  have joined := Text.joinWith_lines line
  rw [lined] at joined
  have head : placed (first, above) = Text.lines (wrapLine first) := if_neg ends
  rw [lined, stackedBelow_cons, List.flatMap_cons, head]
  cases later with
  | nil =>
    obtain rfl : first = line := joined
    exact List.append_nil _
  | cons next later =>
    have goesOn := continues_of_mem_dropLast (joined.symm ▸ unbroken)
    rw [List.dropLast_cons_cons, List.forall_mem_cons] at goesOn
    rw [Text.joinWith_cons_cons] at joined
    have below : Text.lines (Text.joinWith '\n' (next :: later)) = next :: later := by
      refine Text.lines_joinWith (List.cons_ne_nil next later) fun piece member => ?_
      have inside : piece ∈ Text.lines line := lined ▸ List.mem_cons_of_mem first member
      exact Text.not_mem_of_mem_lines inside
    have written := (written_wrapLine first).append_newline (Text.joinWith '\n' (next :: later))
    rw [flatMap_placed_of_continues goesOn.1 goesOn.2, ← joined, written_iff.mp written, Text.lines_append, below]

private theorem flatMap_placed_joinWith {pieces : List Text} (separated : Separated pieces) {above : Text}
    (ends : ¬ Continues above) :
    (stackedBelow above (Text.lines (Text.joinWith '\n' pieces))).flatMap placed =
      (pieces.map wrapLine).flatMap Text.lines := by
  induction separated generalizing above with
  | @last line unbroken =>
    simpa [Text.joinWith] using flatMap_placed_logicalLine ends unbroken
  | @more line pieces unbroken stops separated ih =>
    cases pieces with
    | nil => cases separated
    | cons next pieces =>
      -- Above the next logical line stands the last line of this one, after which nothing goes on.
      obtain ⟨last, lastLine⟩ := Option.isSome_iff_exists.mp (List.getLast?_isSome.mpr (Text.lines_ne_nil line))
      have lastStops : ¬ Continues last := by
        obtain ⟨front, shape⟩ := Text.exists_joinWith_eq_append '\n' lastLine
        rw [Text.joinWith_lines] at shape
        rw [shape] at stops
        exact fun goesOn => stops (goesOn.prepend front)
      rw [Text.joinWith_cons_cons, Text.lines_append, stackedBelow_append lastLine, List.flatMap_append,
        flatMap_placed_logicalLine ends unbroken, ih lastStops]
      rfl

/-- Line by line, a wrapped text is what is placed for the lines of the text. -/
theorem lines_wrap {text : Text} (lacks : Lacks continuationMarks text) :
    Text.lines (wrap text) = (stacked text).flatMap placed ++ [[]] := by
  have lined := flatMap_placed_joinWith (separated_logicalLines text) not_continues_nil
  rw [joinWith_logicalLines] at lined
  rw [wrap_of_lacks lacks, Text.lines_flatMap_newline, stacked, lined]

theorem length_lines_wrapLine {line : Text} (whole : '\n' ∉ line) :
    (Text.lines (wrapLine line)).length = 1 + if BeginsComment line then 1 else 0 := by
  have written := written_wrapLine line
  generalize wrapLine line = piece at written
  cases written with
  | guarded directive =>
    have marked : '\n' ∉ Marker.guarded.text ++ line := by simp [Marker.text, whole]
    rw [Text.lines_whole marked, if_neg fun comment => comment.not_beginsDirective directive]
    rfl
  | @split indent directive blank exposed =>
    have marked : '\n' ∉ indent ++ Marker.split.text := by
      simp [Marker.text, not_mem_of_blank Text.not_isLineBlank_newline blank]
    have behind : '\n' ∉ directive := fun member => whole (by simp [member])
    rw [Text.lines_append_newline marked, Text.lines_whole behind, if_pos ⟨indent, directive, blank, exposed, rfl⟩]
    rfl
  | plain ordinary uncommented =>
    rw [Text.lines_whole whole, if_neg uncommented]
    rfl

theorem length_placed {stack : Text × Text} (whole : '\n' ∉ stack.1) :
    (placed stack).length = 1 + if isExposed stack then 1 else 0 := by
  unfold placed isExposed
  by_cases goesOn : Continues stack.2
  · simp [goesOn]
  · simp [goesOn, length_lines_wrapLine whole]

/-- Where every item gives one element, or two if it is counted, an item's elements stand as far down as
    the item itself and the counted items before it. -/
theorem prefix_drop_flatMap {α β : Type} {f : α → List β} {counted : α → Bool} {items : List α}
    (size : ∀ item ∈ items, (f item).length = 1 + if counted item then 1 else 0) (rest : List β) {n : Nat}
    {item : α} (found : items[n]? = some item) :
    f item <+: (items.flatMap f ++ rest).drop (n + (items.take n).countP counted) := by
  induction items generalizing n with
  | nil => simp at found
  | cons first items ih =>
    rw [List.forall_mem_cons] at size
    rw [List.flatMap_cons, List.append_assoc]
    cases n with
    | zero =>
      obtain rfl : first = item := by simpa using found
      exact List.prefix_append _ _
    | succ n =>
      have below := ih size.2 (by simpa using found)
      have place : n + 1 + ((first :: items).take (n + 1)).countP counted =
          (f first).length + (n + (items.take n).countP counted) := by
        rw [List.take_succ_cons, List.countP_cons, size.1]
        omega
      rwa [place, List.drop_length_add_append]

/-- The lines that stand below `n` others, and the comments among them, in a wrapped text. -/
theorem placed_prefix_lines_wrap {text : Text} (lacks : Lacks continuationMarks text) {n : Nat} {stack : Text × Text}
    (found : (stacked text)[n]? = some stack) :
    placed stack <+: (Text.lines (wrap text)).drop (n + commentsAbove text n) := by
  have size : ∀ item ∈ stacked text, (placed item).length = 1 + if isExposed item then 1 else 0 := by
    intro item member
    have inside : item.1 ∈ Text.lines text := (List.of_mem_zip member).1
    exact length_placed (Text.not_mem_of_mem_lines inside)
  rw [lines_wrap lacks]
  exact prefix_drop_flatMap size [[]] found

/-- Wrapping is one pass over the logical lines of a text that has no markers of continuations in it.
    A line goes down by the comment directives above it; one that goes on from the line above is not
    changed, be it ever so like a directive, and neither are four slashes. -/
theorem wrap_iff_written {text : Text} (lacks : Lacks continuationMarks text) :
    (∀ wrapped, wrap text = wrapped ↔
      ∃ pieces, List.Forall₂ Written (logicalLines text) pieces ∧ wrapped = pieces.flatMap (· ++ ['\n'])) ∧
    (∀ n line above, (stacked text)[n]? = some (line, above) →
      (Continues above → (Text.lines (wrap text))[n + commentsAbove text n]? = some line) ∧
      (¬ Continues above → ∀ piece, Written line piece →
        Text.lines piece <+: (Text.lines (wrap text)).drop (n + commentsAbove text n))) ∧
    (∀ indent rest piece, (∀ c ∈ indent, Text.isLineBlank c = true) →
      Written (indent ++ '/' :: '/' :: '/' :: '/' :: rest) piece → piece = indent ++ '/' :: '/' :: '/' :: '/' :: rest) := by
  refine ⟨fun wrapped => ?_, fun n line above found => ?_, fun indent rest piece blank written => ?_⟩
  · simp only [forall₂_written_iff, exists_eq_left', wrap_of_lacks lacks]
    exact eq_comm
  · have stands := placed_prefix_lines_wrap lacks found
    constructor
    · intro goesOn
      rw [placed, if_pos goesOn] at stands
      obtain ⟨rest, shape⟩ := stands
      have first := congrArg (·[0]?) shape
      simpa [List.getElem?_drop] using first.symm
    · intro ends piece written
      rwa [placed, if_neg ends, written_iff.mp written] at stands
  · obtain ⟨ordinary, whole⟩ := not_beginsComment_four_slashes blank rest
    have plain := written_iff.mp (.plain ordinary whole)
    exact (written_iff.mp written).symm.trans plain

theorem wrap_iff_written_stray_marker :
    wrap "x \uFFFF91;\n\t///\u00A0#if A \\\r\n///#b\n////#c\n#d".toList =
      "x \uFFFF91;\n\t\uFFFF91;\n\u00A0#if A \\\r\n///#b\n////#c\n\uFFFF17;#d\n".toList ∧
    (Text.lines (wrap "x \uFFFF91;\n\t///\u00A0#if A \\\r\n///#b\n////#c\n#d".toList))[3]? =
      some "///#b".toList := by
  have lacks : Lacks continuationMarks "x \uFFFF91;\n\t///\u00A0#if A \\\r\n///#b\n////#c\n#d".toList := by
    unfold Lacks
    decide
  obtain ⟨pass, moves, -⟩ := wrap_iff_written lacks
  constructor
  · refine (pass _).mpr ⟨["x \uFFFF91;".toList, "\t\uFFFF91;\n\u00A0#if A \\\r\n///#b".toList,
      "////#c".toList, "\uFFFF17;#d".toList], forall₂_written_iff.mpr ?_, ?_⟩
    · decide
    · decide
  · have moved := moves 2 "///#b".toList "\t///\u00A0#if A \\\r".toList (by decide)
    exact moved.1 (by decide)

end HashTunnel
