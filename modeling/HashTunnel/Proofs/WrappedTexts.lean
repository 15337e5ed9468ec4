import HashTunnel.Proofs.OnePass

/-! # What wrapped texts look like

A wrapped text is one that wrapping can give. `wrap_eq_iff_wrappedLines` tells which texts these are from
their logical lines alone: directive lines behind guards, marker lines with the directives they expose,
and lines in which there is nothing to mark. Only one text without reserved points gives each of them,
and unwrapping finds it where its end has not been trimmed away.
-/

namespace HashTunnel

theorem continues_append_cons {start line : Text} {c : Char} (noSlash : c ≠ '\\') (noReturn : c ≠ '\r') :
    Continues (start ++ c :: line) ↔ Continues line := by
  constructor
  · exact fun goesOn => goesOn.of_append_cons noSlash noReturn
  · intro goesOn
    have later := goesOn.prepend (start ++ [c])
    rwa [List.append_assoc, List.singleton_append] at later

theorem unbroken_of_not_mem {line : Text} (whole : '\n' ∉ line) : Unbroken line := by
  rintro before after rfl
  simp at whole

/-- In front of a line there may be a text without line feeds that cannot begin a continuation. -/
theorem unbroken_append_cons {start line : Text} {c : Char} (noSlash : c ≠ '\\') (noReturn : c ≠ '\r')
    (whole : '\n' ∉ start ++ [c]) : Unbroken (start ++ c :: line) ↔ Unbroken line := by
  constructor
  · exact fun unbroken => unbroken.of_append_cons noSlash noReturn
  · intro unbroken
    have joined := (unbroken_of_not_mem whole).append unbroken
    rwa [List.append_assoc, List.singleton_append] at joined

theorem separated_cons {line : Text} {lines : List Text} :
    Separated (line :: lines) ↔ Unbroken line ∧ (lines = [] ∨ ¬ Continues line ∧ Separated lines) := by
  constructor
  · intro separated
    cases separated with
    | last unbroken => exact ⟨unbroken, .inl rfl⟩
    | more unbroken ends separated => exact ⟨unbroken, .inr ⟨ends, separated⟩⟩
  · rintro ⟨unbroken, rfl | ⟨ends, separated⟩⟩
    · exact .last unbroken
    · exact .more unbroken ends separated

private theorem logicalLinesFrom_whole {start line : Text} (unbroken : Unbroken (start ++ line)) :
    logicalLinesFrom start line = [start ++ line] := by
  induction line generalizing start with
  | nil => simp [logicalLinesFrom]
  | cons c line ih =>
    rw [logicalLinesFrom, if_neg, ih]
    · simp
    · simpa using unbroken
    · rintro ⟨rfl, ends⟩
      exact ends (unbroken start line rfl)

private theorem logicalLinesFrom_append_newline {start line : Text} (unbroken : Unbroken (start ++ line))
    (ends : ¬ Continues (start ++ line)) (rest : Text) :
    logicalLinesFrom start (line ++ '\n' :: rest) = (start ++ line) :: logicalLines rest := by
  induction line generalizing start with
  | nil =>
    rw [List.append_nil] at ends ⊢
    exact if_pos ⟨rfl, ends⟩
  | cons c line ih =>
    rw [List.cons_append, logicalLinesFrom, if_neg, ih]
    · simp
    · simpa using unbroken
    · simpa using ends
    · rintro ⟨rfl, stops⟩
      exact stops (unbroken start line rfl)

theorem logicalLines_append_newline {line : Text} (unbroken : Unbroken line) (ends : ¬ Continues line) (rest : Text) :
    logicalLines (line ++ '\n' :: rest) = line :: logicalLines rest := by
  rw [← List.nil_append line] at unbroken ends
  exact logicalLinesFrom_append_newline unbroken ends rest

/-- Lines that are separated are the logical lines of the text that they make up. -/
theorem Separated.logicalLines_joinWith {lines : List Text} (separated : Separated lines) :
    logicalLines (Text.joinWith '\n' lines) = lines := by
  induction separated with
  | last unbroken => exact logicalLinesFrom_whole unbroken
  | @more line lines unbroken ends separated ih =>
    cases lines with
    | nil => cases separated
    | cons next lines =>
      rw [Text.joinWith_cons_cons, logicalLines_append_newline unbroken ends, ih]

/-- The logical lines of the texts that wrapping gives. -/
inductive WrappedLines : List Text → Prop where
  | nil : WrappedLines []
  | guarded {line : Text} {later : List Text} : ReservedFree line → BeginsDirective line → WrappedLines later →
      WrappedLines ((Marker.guarded.text ++ line) :: later)
  | split {indent directive : Text} {later : List Text} : (∀ c ∈ indent, Text.isLineBlank c = true) →
      ReservedFree directive → BeginsDirective directive → WrappedLines later →
      WrappedLines ((indent ++ Marker.split.text) :: directive :: later)
  | plain {line : Text} {later : List Text} : ReservedFree line → ¬ BeginsDirective line → ¬ BeginsComment line →
      WrappedLines later → WrappedLines (line :: later)

/-- Logical lines without reserved points, and those of the text that wrapping makes of theirs. -/
inductive Wrapping : List Text → List Text → Prop where
  | nil : Wrapping [] []
  | guarded {line : Text} {lines wrapped : List Text} : ReservedFree line → BeginsDirective line →
      Wrapping lines wrapped → Wrapping (line :: lines) ((Marker.guarded.text ++ line) :: wrapped)
  | split {indent directive : Text} {lines wrapped : List Text} : (∀ c ∈ indent, Text.isLineBlank c = true) →
      ReservedFree directive → BeginsDirective directive → Wrapping lines wrapped →
      Wrapping ((indent ++ '/' :: '/' :: '/' :: directive) :: lines)
        ((indent ++ Marker.split.text) :: directive :: wrapped)
  | plain {line : Text} {lines wrapped : List Text} : ReservedFree line → ¬ BeginsDirective line →
      ¬ BeginsComment line → Wrapping lines wrapped → Wrapping (line :: lines) (line :: wrapped)

theorem wrappedLines_iff {wrapped : List Text} : WrappedLines wrapped ↔ ∃ lines, Wrapping lines wrapped := by
  constructor
  · intro items
    induction items with
    | nil => exact ⟨[], .nil⟩
    | guarded free directive _ ih =>
      obtain ⟨lines, wrapping⟩ := ih
      exact ⟨_, .guarded free directive wrapping⟩
    | split blank free exposed _ ih =>
      obtain ⟨lines, wrapping⟩ := ih
      exact ⟨_, .split blank free exposed wrapping⟩
    | plain free ordinary whole _ ih =>
      obtain ⟨lines, wrapping⟩ := ih
      exact ⟨_, .plain free ordinary whole wrapping⟩
  · rintro ⟨lines, wrapping⟩
    induction wrapping with
    | nil => exact .nil
    | guarded free directive _ ih => exact .guarded free directive ih
    | split blank free exposed _ ih => exact .split blank free exposed ih
    | plain free ordinary whole _ ih => exact .plain free ordinary whole ih

theorem exists_wrapping {lines : List Text} (free : ∀ line ∈ lines, ReservedFree line) :
    ∃ wrapped, Wrapping lines wrapped := by
  induction lines with
  | nil => exact ⟨[], .nil⟩
  | cons line lines ih =>
    rw [List.forall_mem_cons] at free
    obtain ⟨wrapped, wrapping⟩ := ih free.2
    by_cases directive : BeginsDirective line
    · exact ⟨_, .guarded free.1 directive wrapping⟩
    · by_cases comment : BeginsComment line
      · obtain ⟨indent, exposed, blank, begins, rfl⟩ := comment
        have behind : ReservedFree exposed := fun c member => free.1 c (by simp [member])
        exact ⟨_, .split blank behind begins wrapping⟩
      · exact ⟨_, .plain free.1 directive comment wrapping⟩

theorem reservedFree_of_blank {indent : Text} (blank : ∀ c ∈ indent, Text.isLineBlank c = true) : ReservedFree indent := by
  intro c member
  by_contra reserved
  rcases isReserved_iff.mp (by simpa using reserved) with rfl | rfl
  · exact absurd member (not_mem_of_blank (by decide) blank)
  · exact absurd member (not_mem_of_blank (by decide) blank)

section Wrapping

variable {lines wrapped : List Text}

theorem Wrapping.reservedFree (wrapping : Wrapping lines wrapped) : ∀ line ∈ lines, ReservedFree line := by
  induction wrapping with
  | nil => simp
  | guarded free _ _ ih => exact List.forall_mem_cons.mpr ⟨free, ih⟩
  | @split indent directive _ _ blank free _ _ ih =>
    have slashed : ReservedFree (['/', '/', '/'] ++ directive) := reservedFree_append.mpr ⟨by decide, free⟩
    exact List.forall_mem_cons.mpr ⟨reservedFree_append.mpr ⟨reservedFree_of_blank blank, slashed⟩, ih⟩
  | plain free _ _ _ ih => exact List.forall_mem_cons.mpr ⟨free, ih⟩

theorem Wrapping.eq_nil_iff (wrapping : Wrapping lines wrapped) : lines = [] ↔ wrapped = [] := by
  cases wrapping <;> simp

/-- Wrapping cuts no logical line but where it puts a marker line. -/
theorem Wrapping.separated_iff (wrapping : Wrapping lines wrapped) : Separated lines ↔ Separated wrapped := by
  induction wrapping with
  | nil => rfl
  | @guarded line lines wrapped _ _ wrapping ih =>
    have guard : Marker.guarded.text ++ line = ['\uFFFF', '1', '7'] ++ ';' :: line := rfl
    rw [separated_cons, separated_cons, ih, wrapping.eq_nil_iff, guard,
      unbroken_append_cons (by decide) (by decide) (by decide), continues_append_cons (by decide) (by decide)]
  | @split indent directive lines wrapped blank _ _ wrapping ih =>
    -- The marker line ends in a semicolon, so it is a logical line by itself whatever follows; and where
    -- the directive is cut, the line with the slashes in front of it is cut too.
    have noFeed : '\n' ∉ indent := not_mem_of_blank Text.not_isLineBlank_newline blank
    have slashed : indent ++ '/' :: '/' :: '/' :: directive = (indent ++ ['/', '/']) ++ '/' :: directive := by simp
    have marked : Unbroken (indent ++ Marker.split.text) := unbroken_of_not_mem (by simp [Marker.text, noFeed])
    have stops : ¬ Continues (indent ++ Marker.split.text) := by
      have tagged : indent ++ Marker.split.text = (indent ++ ['\uFFFF', '9', '1']) ++ [';'] := by simp [Marker.text]
      rw [tagged, continues_append_cons (by decide) (by decide)]
      exact not_continues_nil
    have below : Separated ((indent ++ Marker.split.text) :: directive :: wrapped) ↔ Separated (directive :: wrapped) := by
      rw [separated_cons]
      simp [marked, stops]
    rw [below, separated_cons, separated_cons, ih, wrapping.eq_nil_iff, slashed,
      unbroken_append_cons (by decide) (by decide) (by simp [noFeed]), continues_append_cons (by decide) (by decide)]
  | plain _ _ _ wrapping ih => rw [separated_cons, separated_cons, ih, wrapping.eq_nil_iff]

theorem Wrapping.flatMap_eq (wrapping : Wrapping lines wrapped) :
    wrapped.flatMap (· ++ ['\n']) = (lines.map wrapLine).flatMap (· ++ ['\n']) := by
  induction wrapping with
  | nil => rfl
  | guarded _ directive _ ih =>
    rw [List.map_cons, List.flatMap_cons, List.flatMap_cons, ih, written_iff.mp (.guarded directive)]
  | split blank _ exposed _ ih =>
    rw [List.map_cons, List.flatMap_cons, List.flatMap_cons, List.flatMap_cons, ih,
      written_iff.mp (.split blank exposed)]
    simp
  | plain _ ordinary whole _ ih =>
    rw [List.map_cons, List.flatMap_cons, List.flatMap_cons, ih, written_iff.mp (.plain ordinary whole)]

end Wrapping

theorem BeginsDirective.ne_nil {line : Text} (directive : BeginsDirective line) : line ≠ [] := by
  rintro rfl
  exact absurd directive (by decide)

theorem getLast?_wrapLine (line : Text) : (wrapLine line).getLast? = line.getLast? := by
  have written := written_wrapLine line
  generalize wrapLine line = piece at written
  cases written with
  | guarded directive => exact List.getLast?_append_of_ne_nil _ directive.ne_nil
  | @split indent directive _ exposed =>
    have slashed : indent ++ '/' :: '/' :: '/' :: directive = (indent ++ ['/', '/', '/']) ++ directive := by simp
    have marked : indent ++ Marker.split.text ++ '\n' :: directive = (indent ++ Marker.split.text ++ ['\n']) ++ directive := by
      simp
    rw [slashed, marked, List.getLast?_append_of_ne_nil _ exposed.ne_nil, List.getLast?_append_of_ne_nil _ exposed.ne_nil]
  | plain _ _ => rfl

theorem newline_suffix_iff {text : Text} : ['\n'] <:+ text ↔ text.getLast? = some '\n' := by
  rw [List.getLast?_eq_some_iff]
  exact exists_congr fun _ => eq_comm

theorem getLast?_joinWith_map {sep : Char} {f : Text → Text} (same : ∀ piece, (f piece).getLast? = piece.getLast?)
    (pieces : List Text) : (Text.joinWith sep (pieces.map f)).getLast? = (Text.joinWith sep pieces).getLast? := by
  induction pieces with
  | nil => rfl
  | cons piece pieces ih =>
    cases pieces with
    | nil => exact same piece
    | cons next pieces =>
      rw [List.map_cons] at ih
      rw [List.map_cons, List.map_cons, Text.joinWith_cons_cons, Text.joinWith_cons_cons,
        List.getLast?_append_of_ne_nil _ (List.cons_ne_nil _ _), List.getLast?_append_of_ne_nil _ (List.cons_ne_nil _ _),
        List.getLast?_cons, List.getLast?_cons, ih]

theorem wrap_eq_joinWith {text : Text} (lacks : Lacks continuationMarks text) :
    wrap text = Text.joinWith '\n' ((logicalLines text).map wrapLine) ++ ['\n'] := by
  rw [wrap_of_lacks lacks, Text.joinWith_append_newline]
  simpa using logicalLines_ne_nil text

theorem ReservedFree.lacks_continuationMarks {text : Text} (free : ReservedFree text) : Lacks continuationMarks text :=
  (lacks_append.mp (lacks_append.mp free.lacks).1).1

theorem reservedFree_joinWith {lines : List Text} (free : ∀ line ∈ lines, ReservedFree line) :
    ReservedFree (Text.joinWith '\n' lines) :=
  Text.forall_mem_joinWith rfl free

/-- A wrapped text is its lines, each with a line feed, the last one with that of the text's own end. -/
theorem exists_wrapping_logicalLines {host : Text} (free : ReservedFree host) :
    ∃ wrapped, Wrapping (logicalLines host) wrapped ∧ wrap host = wrapped.flatMap (· ++ ['\n']) := by
  obtain ⟨wrapped, wrapping⟩ := exists_wrapping free.logicalLine
  refine ⟨wrapped, wrapping, ?_⟩
  rw [wrap_of_lacks free.lacks_continuationMarks, ← wrapping.flatMap_eq]

/-- The logical lines before the line feed that wrapping appends are those of a wrapped text. -/
theorem wrappedLines_of_wrap {host : Text} (free : ReservedFree host) :
    ∃ body, wrap host = body ++ ['\n'] ∧ WrappedLines (logicalLines body) := by
  obtain ⟨wrapped, wrapping, shape⟩ := exists_wrapping_logicalLines free
  have inhabited : wrapped ≠ [] := mt wrapping.eq_nil_iff.mpr (logicalLines_ne_nil host)
  have separated := wrapping.separated_iff.mp (separated_logicalLines host)
  refine ⟨Text.joinWith '\n' wrapped, ?_, ?_⟩
  · rw [shape, Text.joinWith_append_newline inhabited]
  · rw [separated.logicalLines_joinWith]
    exact wrappedLines_iff.mpr ⟨_, wrapping⟩

/-- The text that the lines make up without their markers is wrapped to them. -/
theorem exists_wrap_of_wrappedLines {body : Text} (items : WrappedLines (logicalLines body)) :
    ∃ host, ReservedFree host ∧ wrap host = body ++ ['\n'] := by
  obtain ⟨lines, wrapping⟩ := wrappedLines_iff.mp items
  have separated := wrapping.separated_iff.mpr (separated_logicalLines body)
  have free : ReservedFree (Text.joinWith '\n' lines) := reservedFree_joinWith wrapping.reservedFree
  refine ⟨_, free, ?_⟩
  rw [wrap_of_lacks free.lacks_continuationMarks, separated.logicalLines_joinWith, ← wrapping.flatMap_eq,
    ← Text.joinWith_append_newline (logicalLines_ne_nil body), joinWith_logicalLines]

theorem wrap_injective_of_free {host other : Text} (free : ReservedFree host) (otherFree : ReservedFree other)
    (same : wrap host = wrap other) : host = other := by
  have stripped := congrArg strip same
  rw [strip_wrap_of_free free, strip_wrap_of_free otherFree] at stripped
  exact List.append_cancel_right stripped

/-- A wrapped text ends in two line feeds only if the host text ends in one. -/
theorem wrap_unwrap_wrap {host : Text} (free : ReservedFree host) (two : ['\n', '\n'] <:+ wrap host) :
    wrap (unwrap (wrap host)) = wrap host := by
  have split : ['\n', '\n'] = ['\n'] ++ ['\n'] := rfl
  rw [wrap_eq_joinWith free.lacks_continuationMarks, split, List.suffix_append_self_iff, newline_suffix_iff,
    getLast?_joinWith_map getLast?_wrapLine, joinWith_logicalLines, ← newline_suffix_iff] at two
  rw [unwrap_wrap_of_free free, ended, if_pos two]

/-- A text is what wrapping makes of a text without reserved points exactly if it ends in a line feed and
    the logical lines before that are those of a wrapped text. No two texts without reserved points are
    wrapped to it, and it comes back from being unwrapped and wrapped again if it ends in two line feeds. -/
theorem wrap_eq_iff_wrappedLines (text : Text) :
    ((∃ host, ReservedFree host ∧ wrap host = text) ↔
      ∃ body, text = body ++ ['\n'] ∧ WrappedLines (logicalLines body)) ∧
    (∀ host other, ReservedFree host → ReservedFree other → wrap host = text → wrap other = text → host = other) ∧
    ((∃ body, text = body ++ ['\n'] ∧ WrappedLines (logicalLines body)) → ['\n', '\n'] <:+ text →
      wrap (unwrap text) = text) := by
  refine ⟨⟨?_, ?_⟩, ?_, ?_⟩
  · rintro ⟨host, free, rfl⟩
    exact wrappedLines_of_wrap free
  · rintro ⟨body, rfl, items⟩
    exact exists_wrap_of_wrappedLines items
  · rintro host other free otherFree rfl same
    exact wrap_injective_of_free free otherFree same.symm
  · rintro ⟨body, rfl, items⟩ two
    obtain ⟨host, free, wrapped⟩ := exists_wrap_of_wrappedLines items
    rw [← wrapped] at two ⊢
    exact wrap_unwrap_wrap free two

theorem wrap_eq_iff_wrappedLines_three_kinds :
    wrap (unwrap " \uFFFF91;\n\t#if A \\\n///#b\n\uFFFF17;#c\n\n\n".toList) =
      " \uFFFF91;\n\t#if A \\\n///#b\n\uFFFF17;#c\n\n\n".toList := by
  have lines : logicalLines " \uFFFF91;\n\t#if A \\\n///#b\n\uFFFF17;#c\n\n".toList =
      ([' '] ++ Marker.split.text) :: "\t#if A \\\n///#b".toList ::
        (Marker.guarded.text ++ "#c".toList) :: [[], []] := by decide
  have plain : WrappedLines [[], []] :=
    .plain (by decide) (by decide) (by decide) (.plain (by decide) (by decide) (by decide) .nil)
  have guarded : WrappedLines ((Marker.guarded.text ++ "#c".toList) :: [[], []]) :=
    .guarded (by decide) (by decide) plain
  have items : WrappedLines (([' '] ++ Marker.split.text) :: "\t#if A \\\n///#b".toList ::
      (Marker.guarded.text ++ "#c".toList) :: [[], []]) :=
    .split (List.forall_mem_singleton.mpr (by decide)) (by decide) (by decide) guarded
  refine (wrap_eq_iff_wrappedLines _).2.2 ⟨_, ?_, lines.symm ▸ items⟩ ?_
  · decide
  · decide

end HashTunnel
