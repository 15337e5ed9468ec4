import HashTunnel.Proofs.Parts

/-! # What an engine sees

An engine that joins continued lines looks for directives only afterwards. Every directive line that
it then finds in a wrapped text is to stand right below the marker line of a split comment directive.
This is so exactly if joining makes no directive line of a logical line that was none
(`onlyExposed_iff`): guards are put before logical lines as they are written, and one that begins with
an empty continued line does not look like a directive yet.
-/

namespace HashTunnel

/-- A text without the backslashes and line breaks that continue its lines. -/
def joinContinuations : Text → Text :=
  replaceContinuations [] []

/-- A line of blanks and a split marker. -/
def IsSplitLine (line : Text) : Prop :=
  ∃ indent, (∀ c ∈ indent, Text.isLineBlank c = true) ∧ line = indent ++ Marker.split.text

/-- Every directive line has the marker line of a split comment directive right above it. -/
def OnlyExposed (lines : List Text) : Prop :=
  ∀ above line below, lines = above ++ line :: below → isDirective line = true →
    ∃ marker, above.getLast? = some marker ∧ IsSplitLine marker

/-- Lines that do not end in a marker line expose nothing of what is put below them. -/
theorem onlyExposed_append {first second : List Text}
    (ends : ∀ line, first.getLast? = some line → ¬ IsSplitLine line) :
    OnlyExposed (first ++ second) ↔ OnlyExposed first ∧ OnlyExposed second := by
  constructor
  · intro exposed
    constructor
    · rintro above line below rfl directive
      exact exposed above line (below ++ second) (by simp) directive
    · rintro above line below rfl directive
      obtain ⟨marker, last, split⟩ := exposed (first ++ above) line below (by simp) directive
      cases above with
      | nil =>
        rw [List.append_nil] at last
        exact absurd split (ends marker last)
      | cons next above => exact ⟨marker, by simpa using last, split⟩
  · rintro ⟨firstExposed, secondExposed⟩ above line below shape directive
    rcases List.append_eq_append_iff.mp shape with ⟨middle, rfl, later⟩ | ⟨middle, inside, later⟩
    · obtain ⟨marker, last, split⟩ := secondExposed middle line below later directive
      cases middle with
      | nil => simp at last
      | cons next middle => exact ⟨marker, by simpa using last, split⟩
    · cases middle with
      | nil =>
        obtain ⟨marker, last, -⟩ := secondExposed [] line below later.symm directive
        simp at last
      | cons next middle =>
        obtain ⟨rfl, -⟩ := List.cons.inj later
        exact firstExposed above line middle inside directive

theorem onlyExposed_nil : OnlyExposed [] := by
  intro above line below shape
  simp at shape

theorem onlyExposed_singleton {line : Text} : OnlyExposed [line] ↔ isDirective line = false := by
  constructor
  · intro exposed
    by_contra directive
    obtain ⟨marker, last, -⟩ := exposed [] line [] rfl (by simpa using directive)
    simp at last
  · intro ordinary above other below shape directive
    rcases above with _ | ⟨next, above⟩
    · obtain ⟨rfl, -⟩ := List.cons.inj shape
      rw [ordinary] at directive
      contradiction
    · simp at shape

theorem onlyExposed_split {marker line : Text} (split : IsSplitLine marker) : OnlyExposed [marker, line] := by
  intro above other below shape directive
  rcases above with _ | ⟨first, _ | ⟨second, above⟩⟩
  · obtain ⟨indent, blank, rfl⟩ := split
    obtain ⟨rfl, -⟩ := List.cons.inj shape
    rw [isDirective_blank_append blank] at directive
    contradiction
  · obtain ⟨rfl, -⟩ := List.cons.inj shape
    exact ⟨marker, rfl, split⟩
  · simp at shape

theorem mem_of_isSplitLine {line : Text} (split : IsSplitLine line) : '\uFFFF' ∈ line := by
  obtain ⟨indent, -, rfl⟩ := split
  simp [Marker.text]

theorem not_isSplitLine_guarded (rest : Text) : ¬ IsSplitLine (Marker.guarded.text ++ rest) := by
  rintro ⟨indent, blank, shape⟩
  cases indent with
  | nil => simp [Marker.text] at shape
  | cons c indent =>
    obtain ⟨rfl, -⟩ := List.cons.inj shape
    exact absurd (blank _ List.mem_cons_self) (by decide)

theorem joinContinuations_append_of_not_mem {start : Text} (solid : '\\' ∉ start) (rest : Text) :
    joinContinuations (start ++ rest) = start ++ joinContinuations rest :=
  pass_append_of_not_mem (fun _ rest other => replaceContinuations_cons_of_ne other rest) solid rest

/-- A continuation begins at its backslash and not before. -/
theorem joinContinuations_append_slash (start rest : Text) :
    joinContinuations (start ++ '\\' :: rest) = joinContinuations start ++ joinContinuations ('\\' :: rest) := by
  unfold joinContinuations
  fun_induction replaceContinuations [] [] start with
  | case1 start ih => simpa [replaceContinuations] using ih
  | case2 start ih => simpa [replaceContinuations] using ih
  | case3 c start notLf notCrlf ih =>
    rw [List.cons_append, replaceContinuations, ih]
    · rfl
    · rintro after rfl shape
      obtain ⟨behind, rfl⟩ := Text.eq_append_of_append_cons ['\n'] (by decide) shape
      exact notLf behind rfl rfl
    · rintro after rfl shape
      obtain ⟨behind, rfl⟩ := Text.eq_append_of_append_cons ['\r', '\n'] (by decide) shape
      exact notCrlf behind rfl rfl
  | case4 => rfl

theorem mem_of_mem_joinContinuations {c : Char} {text : Text} (member : c ∈ joinContinuations text) : c ∈ text := by
  unfold joinContinuations at member
  fun_induction replaceContinuations [] [] text with
  | case1 text ih => exact List.mem_cons_of_mem _ (List.mem_cons_of_mem _ (ih member))
  | case2 text ih =>
    exact List.mem_cons_of_mem _ (List.mem_cons_of_mem _ (List.mem_cons_of_mem _ (ih member)))
  | case3 d text notLf notCrlf ih =>
    rcases List.mem_cons.mp member with rfl | inside
    · exact List.mem_cons_self
    · exact List.mem_cons_of_mem _ (ih inside)
  | case4 => simp at member

/-- Where a line goes on at its end, the end is not what makes it a directive line. -/
theorem isDirective_join_append_newline {line : Text} (goesOn : Continues line) :
    isDirective (joinContinuations (line ++ ['\n'])) = isDirective (joinContinuations line) := by
  rcases goesOn with ⟨start, rfl⟩ | ⟨start, rfl⟩
  · have cut : joinContinuations (start ++ ['\\']) = joinContinuations start ++ ['\\'] :=
      joinContinuations_append_slash start []
    have joined : joinContinuations (start ++ ['\\', '\n']) = joinContinuations start ++ [] :=
      joinContinuations_append_slash start ['\n']
    rw [cut, List.append_assoc, List.cons_append, List.nil_append, joined, List.append_nil,
      isDirective_append_cons rfl (by decide)]
  · have cut : joinContinuations (start ++ ['\\', '\r']) = joinContinuations start ++ ['\\', '\r'] :=
      joinContinuations_append_slash start ['\r']
    have joined : joinContinuations (start ++ ['\\', '\r', '\n']) = joinContinuations start ++ [] :=
      joinContinuations_append_slash start ['\r', '\n']
    rw [cut, List.append_assoc, List.cons_append, List.cons_append, List.nil_append, joined, List.append_nil,
      isDirective_append_cons rfl (by decide)]

/-- An engine sees the joined line, and below it what it sees of the rest; a line that goes on at the
    end of the text takes in its line feed. -/
theorem lines_join_append_newline {line rest : Text} (unbroken : Unbroken line)
    (ends : ¬ Continues line ∨ rest = []) :
    ∃ seen below, Text.lines (joinContinuations (line ++ '\n' :: rest)) = seen :: below ∧
      isDirective seen = isDirective (joinContinuations line) ∧ ('\uFFFF' ∉ line → '\uFFFF' ∉ seen) ∧
      (OnlyExposed below ↔ OnlyExposed (Text.lines (joinContinuations rest))) := by
  by_cases goesOn : Continues line
  · obtain rfl : rest = [] := ends.resolve_left (not_not_intro goesOn)
    have closed : Unbroken (line ++ ['\n']) := unbroken.append_singleton fun _ => goesOn
    have whole : '\n' ∉ joinContinuations (line ++ ['\n']) :=
      not_mem_replaceContinuations (by simp) (by simp) closed
    refine ⟨_, [], Text.lines_whole whole, isDirective_join_append_newline goesOn, ?_, ?_⟩
    · intro absent member
      simpa [absent] using mem_of_mem_joinContinuations member
    · exact ⟨fun _ => onlyExposed_singleton.mpr rfl, fun _ => onlyExposed_nil⟩
  · have whole : '\n' ∉ joinContinuations line :=
      not_mem_replaceContinuations (by simp) (by simp) unbroken
    have cut : joinContinuations (line ++ '\n' :: rest) = joinContinuations line ++ '\n' :: joinContinuations rest :=
      replaceContinuations_append_newline goesOn rest
    refine ⟨joinContinuations line, Text.lines (joinContinuations rest), ?_, rfl, ?_, Iff.rfl⟩
    · rw [cut, Text.lines_append_newline whole]
    · exact fun absent member => absent (mem_of_mem_joinContinuations member)

/-- What an engine sees of one part exposes only what it is to expose, unless joining has made a
    directive line of a plain one. -/
theorem lines_join_part {part : Part} (free : ReservedFree part.line) (unbroken : Unbroken part.line)
    {rest : Text} (ends : ¬ Continues part.line ∨ rest = []) :
    ∃ seen below, Text.lines (joinContinuations (part.rewritten part.own ++ rest)) = seen ++ below ∧
      (OnlyExposed seen ↔ (isDirective (joinContinuations part.line) = true → isDirective part.line = true)) ∧
      (∀ line, seen.getLast? = some line → ¬ IsSplitLine line) ∧
      (OnlyExposed below ↔ OnlyExposed (Text.lines (joinContinuations rest))) := by
  have absent : '\uFFFF' ∉ part.line := free.not_mem (by decide)
  cases part with
  | guarded line directive =>
    obtain ⟨seen, below, lined, same, -, later⟩ := lines_join_append_newline unbroken ends
    refine ⟨[Marker.guarded.text ++ seen], below, ?_, ?_, ?_, later⟩
    · simp only [Part.rewritten, Part.own, Part.line, List.append_assoc, List.cons_append,
        List.nil_append] at lined ⊢
      rw [joinContinuations_append_of_not_mem (by decide)]
      exact Text.lines_append_of_not_mem (by decide) lined
    · exact ⟨fun _ _ => directive, fun _ => onlyExposed_singleton.mpr rfl⟩
    · intro other last
      obtain rfl := Option.some.inj last
      exact not_isSplitLine_guarded seen
  | split indent directive blank exposed =>
    have shape : Part.line (.split indent directive blank exposed) = indent ++ ['/', '/', '/'] ++ directive := by
      simp [Part.line]
    have noSlash : '\\' ∉ indent := not_mem_of_blank rfl blank
    have noFeed : '\n' ∉ indent := not_mem_of_blank rfl blank
    have behind : Unbroken directive := by
      have split : Unbroken (indent ++ ['/', '/'] ++ '/' :: directive) := by simpa [shape] using unbroken
      exact split.of_append_cons (by decide) (by decide)
    have stops : ¬ Continues directive ∨ rest = [] := by
      refine ends.imp_left fun stops goesOn => stops ?_
      rw [shape]
      exact goesOn.prepend (indent ++ ['/', '/', '/'])
    obtain ⟨seen, below, lined, same, apart, later⟩ := lines_join_append_newline behind stops
    refine ⟨[indent ++ Marker.split.text, seen], below, ?_, ?_, ?_, later⟩
    · have solid : '\\' ∉ indent ++ Marker.split.text ++ ['\n'] := by simp [Marker.text, noSlash]
      have whole : '\n' ∉ indent ++ Marker.split.text := by simp [Marker.text, noFeed]
      have passed := joinContinuations_append_of_not_mem solid (directive ++ '\n' :: rest)
      simp only [Part.rewritten, Part.own, List.append_assoc, List.cons_append, List.nil_append] at passed ⊢
      rw [passed, ← List.append_assoc, Text.lines_append_newline whole, lined]
    · refine ⟨fun _ joined => ?_, fun _ => onlyExposed_split ⟨indent, blank, rfl⟩⟩
      have solid : '\\' ∉ indent ++ ['/', '/', '/'] := by simp [noSlash]
      rw [shape, joinContinuations_append_of_not_mem solid, List.append_assoc, isDirective_blank_append blank] at joined
      contradiction
    · intro other last split
      obtain rfl := Option.some.inj last
      rw [shape, List.mem_append, not_or] at absent
      exact apart absent.2 (mem_of_isSplitLine split)
  | plain line ordinary whole =>
    obtain ⟨seen, below, lined, same, apart, later⟩ := lines_join_append_newline unbroken ends
    refine ⟨[seen], below, ?_, ?_, ?_, later⟩
    · simpa [Part.rewritten, Part.own, Part.line] using lined
    · rw [onlyExposed_singleton, same]
      simp [Part.line, ordinary]
    · intro other last split
      obtain rfl := Option.some.inj last
      exact apart absent (mem_of_isSplitLine split)

private theorem onlyExposed_parts {lines : List Text} (separated : Separated lines)
    (free : ∀ line ∈ lines, ReservedFree line) :
    OnlyExposed (Text.lines (joinContinuations
        ((lines.map partOf).flatMap fun part => part.rewritten part.own))) ↔
      ∀ line ∈ lines, isDirective (joinContinuations line) = true → isDirective line = true := by
  induction separated with
  | @last line unbroken =>
    have first := free line List.mem_cons_self
    rw [← line_partOf line] at first unbroken
    obtain ⟨seen, below, lined, exposed, ends, later⟩ := lines_join_part first unbroken (.inr rfl)
    have nothing : OnlyExposed (Text.lines (joinContinuations [])) := onlyExposed_singleton.mpr rfl
    rw [line_partOf] at exposed
    simp only [List.map_cons, List.map_nil, List.flatMap_cons, List.flatMap_nil, List.forall_mem_singleton]
    rw [lined, onlyExposed_append ends, exposed]
    exact and_iff_left (later.mpr nothing)
  | @more line lines unbroken stops separated ih =>
    have first := free line List.mem_cons_self
    have others := ih fun other member => free other (List.mem_cons_of_mem _ member)
    rw [← line_partOf line] at first unbroken stops
    obtain ⟨seen, below, lined, exposed, ends, later⟩ := lines_join_part first unbroken (.inl stops)
    rw [line_partOf] at exposed
    simp only [List.map_cons, List.flatMap_cons, List.forall_mem_cons]
    rw [lined, onlyExposed_append ends, exposed, later, others]

/-- The directive lines that an engine finds in a wrapped text, once it has joined continued lines, are
    those that comment directives expose and no others, exactly if joining makes a directive line of no
    logical line that was none. -/
theorem onlyExposed_iff {text : Text} (free : ReservedFree text) :
    OnlyExposed (Text.lines (joinContinuations (wrap text))) ↔
      ∀ line ∈ logicalLines text, isDirective (joinContinuations line) = true → isDirective line = true := by
  rw [wrap_of_free free]
  exact onlyExposed_parts (separated_logicalLines text) free.logicalLine

theorem onlyExposed_continued_directives :
    OnlyExposed (Text.lines (joinContinuations (wrap "#a \\\n#b\n ///#c \\\n#d\n".toList))) :=
  (onlyExposed_iff (by decide)).mpr (by decide)

/-- A directive line of the host behind an empty continued line is taken for one of the engine's. -/
theorem not_onlyExposed_empty_continued :
    ¬ ∀ text, ReservedFree text → OnlyExposed (Text.lines (joinContinuations (wrap text))) := by
  intro always
  have exposed := always "\\\n#define X 1\n".toList (by decide)
  obtain ⟨marker, last, -⟩ := exposed [] "#define X 1".toList [[], []] (by decide) (by decide)
  simp at last

end HashTunnel
