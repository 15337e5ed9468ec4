import HashTunnel.Proofs.Rewriting

/-! # The round trip

Through an engine that changes nothing, a host text loses the markers that it holds itself, and
nothing else happens to it (`unwrap_wrap`). So it comes back exactly when it holds none
(`unwrap_wrap_iff`).
-/

namespace HashTunnel

/-- Holds of the texts in which none of the marks occurs. -/
def Lacks (marks : List Text) (text : Text) : Prop :=
  ∀ mark ∈ marks, ¬ mark <:+: text

/-- How many reserved points a text holds. -/
def reservedCount (text : Text) : Nat :=
  text.countP isReserved

/-- The result of a pass that erases the marks: the text itself if it has none of them, otherwise one
    with fewer reserved points. -/
def Erased (marks : List Text) (text result : Text) : Prop :=
  (Lacks marks text ∧ result = text) ∨ (¬ Lacks marks text ∧ reservedCount result < reservedCount text)

theorem reservedCount_append (start rest : Text) :
    reservedCount (start ++ rest) = reservedCount start + reservedCount rest := by
  simp [reservedCount]

theorem lacks_append {first second : List Text} {text : Text} :
    Lacks (first ++ second) text ↔ Lacks first text ∧ Lacks second text :=
  List.forall_mem_append

theorem Lacks.of_infix {marks : List Text} {part text : Text} (lacks : Lacks marks text) (inside : part <:+: text) :
    Lacks marks part :=
  fun mark member occurs => lacks mark member (occurs.trans inside)

theorem Lacks.cons {marks : List Text} {c : Char} {rest : Text} (lacks : Lacks marks rest)
    (apart : ∀ mark ∈ marks, ¬ mark <+: c :: rest) : Lacks marks (c :: rest) := by
  intro mark member occurs
  rcases List.infix_cons_iff.mp occurs with begun | later
  · exact apart mark member begun
  · exact lacks mark member later

theorem Erased.le {marks : List Text} {text result : Text} (erased : Erased marks text result) :
    reservedCount result ≤ reservedCount text := by
  rcases erased with ⟨-, rfl⟩ | ⟨-, fewer⟩
  · exact le_rfl
  · exact fewer.le

theorem Erased.eq_of_lacks {marks : List Text} {text result : Text} (erased : Erased marks text result)
    (lacks : Lacks marks text) : result = text := by
  rcases erased with ⟨-, same⟩ | ⟨holds, -⟩
  · exact same
  · exact absurd lacks holds

theorem Erased.lacks_of_le {marks : List Text} {text result : Text} (erased : Erased marks text result)
    (kept : reservedCount text ≤ reservedCount result) : Lacks marks text ∧ result = text := by
  rcases erased with same | ⟨-, fewer⟩
  · exact same
  · omega

theorem Erased.eq_self_iff {marks : List Text} {text result : Text} (erased : Erased marks text result) :
    result = text ↔ Lacks marks text := by
  constructor
  · rintro rfl
    exact (erased.lacks_of_le le_rfl).1
  · exact erased.eq_of_lacks

/-- A pass that steps over a character does to the text what it does to the rest. -/
private theorem Erased.keep {marks : List Text} {c : Char} {rest result : Text}
    (erased : Erased marks rest result) (apart : ∀ mark ∈ marks, ¬ mark <+: c :: rest) :
    Erased marks (c :: rest) (c :: result) := by
  have counted : ∀ tail, reservedCount (c :: tail) = reservedCount [c] + reservedCount tail :=
    fun tail => reservedCount_append [c] tail
  rcases erased with ⟨lacks, rfl⟩ | ⟨holds, fewer⟩
  · exact .inl ⟨lacks.cons apart, rfl⟩
  · refine .inr ⟨fun lacks => holds (lacks.of_infix (List.suffix_cons c rest).isInfix), ?_⟩
    rw [counted, counted rest]
    omega

/-- A pass that puts a text without reserved points in place of a mark has erased something. -/
private theorem Erased.erase {marks : List Text} {rest result : Text} (mark kept : Text)
    (erased : Erased marks rest result) (member : mark ∈ marks)
    (fewer : reservedCount kept < reservedCount mark) : Erased marks (mark ++ rest) (kept ++ result) := by
  refine .inr ⟨fun lacks => lacks mark member (List.prefix_append mark rest).isInfix, ?_⟩
  have bound := erased.le
  rw [reservedCount_append, reservedCount_append]
  omega

/-- The marks that showing continuations erases. -/
def continuationMarks : List Text :=
  [Marker.continuedLf.text, Marker.continuedCrlf.text]

/-- The marks that dropping splits erases. -/
def splitMarks : List Text :=
  [Marker.split.text ++ ['\n'], Marker.split.text ++ ['\r', '\n']]

/-- The marks that unguarding erases. -/
def guardMarks : List Text :=
  [Marker.guarded.text]

theorem erased_showContinuations (text : Text) : Erased continuationMarks text (showContinuations text) := by
  fun_induction showContinuations text with
  | case1 rest ih => exact ih.erase Marker.continuedLf.text ['\\', '\n'] (by simp [continuationMarks]) (by decide)
  | case2 rest ih =>
    exact ih.erase Marker.continuedCrlf.text ['\\', '\r', '\n'] (by simp [continuationMarks]) (by decide)
  | case3 c rest notLf notCrlf ih =>
    refine ih.keep ?_
    rintro mark member ⟨tail, shape⟩
    simp only [continuationMarks, List.mem_cons, List.not_mem_nil, or_false] at member
    rcases member with rfl | rfl
    · obtain ⟨rfl, rfl⟩ := List.cons.inj shape
      exact notLf tail rfl rfl
    · obtain ⟨rfl, rfl⟩ := List.cons.inj shape
      exact notCrlf tail rfl rfl
  | case4 => exact .inl ⟨by simp [Lacks, continuationMarks, Marker.text], rfl⟩

theorem erased_dropSplits (text : Text) : Erased splitMarks text (dropSplits text) := by
  fun_induction dropSplits text with
  | case1 rest ih => exact ih.erase (Marker.split.text ++ ['\n']) [] (by simp [splitMarks]) (by decide)
  | case2 rest ih => exact ih.erase (Marker.split.text ++ ['\r', '\n']) [] (by simp [splitMarks]) (by decide)
  | case3 c rest notLf notCrlf ih =>
    refine ih.keep ?_
    rintro mark member ⟨tail, shape⟩
    simp only [splitMarks, List.mem_cons, List.not_mem_nil, or_false] at member
    rcases member with rfl | rfl
    · obtain ⟨rfl, rfl⟩ := List.cons.inj shape
      exact notLf tail rfl rfl
    · obtain ⟨rfl, rfl⟩ := List.cons.inj shape
      exact notCrlf tail rfl rfl
  | case4 => exact .inl ⟨by simp [Lacks, splitMarks, Marker.text], rfl⟩

theorem erased_unguardDirectives (text : Text) : Erased guardMarks text (unguardDirectives text) := by
  fun_induction unguardDirectives text with
  | case1 rest ih => exact ih.erase Marker.guarded.text [] (by simp [guardMarks]) (by decide)
  | case2 c rest notGuard ih =>
    refine ih.keep ?_
    rintro mark member ⟨tail, shape⟩
    obtain rfl := List.mem_singleton.mp member
    obtain ⟨rfl, rfl⟩ := List.cons.inj shape
    exact notGuard tail rfl rfl
  | case3 => exact .inl ⟨by simp [Lacks, guardMarks, Marker.text], rfl⟩

/-- Shown, a line has line feeds only where it goes on. -/
theorem unbroken_showContinuations {line : Text} (whole : '\n' ∉ line) : Unbroken (showContinuations line) := by
  have slash : Unbroken ['\\'] := unbroken_nil.append_singleton (by simp)
  fun_induction showContinuations line with
  | case1 rest ih =>
    have lf : Unbroken ['\\', '\n'] := slash.append_singleton fun _ => .inl (List.suffix_refl _)
    exact lf.append (ih (by simpa using whole))
  | case2 rest ih =>
    have cr : Unbroken ['\\', '\r'] := slash.append_singleton (by simp)
    have crlf : Unbroken ['\\', '\r', '\n'] := cr.append_singleton fun _ => .inr (List.suffix_refl _)
    exact crlf.append (ih (by simpa using whole))
  | case3 c rest _ _ ih =>
    rw [List.mem_cons, not_or] at whole
    have single : Unbroken [c] := unbroken_nil.append_singleton fun feed => absurd feed.symm whole.1
    exact single.append (ih whole.2)
  | case4 => exact unbroken_nil

/-- A line feed after a split marker continues no line, so no logical line holds both. -/
theorem Unbroken.lacks_splitMarks {line : Text} (unbroken : Unbroken line) : Lacks splitMarks line := by
  rintro mark member ⟨start, rest, rfl⟩
  simp only [splitMarks, List.mem_cons, List.not_mem_nil, or_false] at member
  rcases member with rfl | rfl
  · have goesOn := unbroken (start ++ Marker.split.text) rest (by simp)
    rcases goesOn with ⟨before, shape⟩ | ⟨before, shape⟩
    · have last := congrArg List.getLast? shape
      simp [Marker.text] at last
    · have last := congrArg List.getLast? shape
      simp [Marker.text] at last
  · have goesOn := unbroken (start ++ Marker.split.text ++ ['\r']) rest (by simp)
    rcases goesOn with ⟨before, shape⟩ | ⟨before, shape⟩
    · have last := congrArg List.getLast? shape
      simp at last
    · have last := congrArg (fun text => text.dropLast.getLast?) shape
      simp [Marker.text] at last

/-- Of what follows a line without split markers before its end, only whether it is a directive counts for what
    becomes of the line. -/
theorem exists_rejoinComments_append_newline {line : Text} (lacks : Lacks splitMarks line) :
    ∃ joined, ∀ rest, rejoinComments (line ++ '\n' :: rest) =
      (if isDirective rest then joined else line ++ ['\n']) ++ rejoinComments rest := by
  induction line with
  | nil =>
    refine ⟨['\n'], fun rest => ?_⟩
    rw [List.nil_append, List.nil_append, ite_self]
    exact rejoinComments_cons_of_ne (by decide) rest
  | cons c line ih =>
    obtain ⟨joined, tail⟩ := ih (lacks.of_infix (List.suffix_cons c line).isInfix)
    by_cases ends : c :: line = Marker.split.text ∨ c :: line = Marker.split.text ++ ['\r']
    · rcases ends with same | same
      · rw [same]
        exact ⟨['/', '/', '/'], fun rest => rejoinComments_split (.inl rfl) rest⟩
      · rw [same]
        exact ⟨['/', '/', '/'], fun rest => rejoinComments_split (.inr rfl) rest⟩
    · rw [not_or] at ends
      have noLf : ¬ (Marker.split.text ++ ['\n']) <:+: c :: line := lacks _ (by simp [splitMarks])
      have noCrlf : ¬ (Marker.split.text ++ ['\r', '\n']) <:+: c :: line := lacks _ (by simp [splitMarks])
      refine ⟨c :: joined, fun rest => ?_⟩
      rw [List.cons_append, rejoinComments, tail]
      · split <;> rfl
      · rintro later rfl shape
        rcases Text.eq_or_eq_append_cons ['9', '1', ';'] (by decide) shape with rfl | ⟨behind, rfl⟩
        · exact ends.1 rfl
        · exact noLf ⟨[], behind, rfl⟩
      · rintro later rfl shape
        rcases Text.eq_or_eq_append_cons ['9', '1', ';', '\r'] (by decide) shape with rfl | ⟨behind, rfl⟩
        · exact ends.2 rfl
        · exact noCrlf ⟨[], behind, rfl⟩

theorem rejoinComments_append_newline {line rest : Text} (lacks : Lacks splitMarks line)
    (after : isDirective rest = false) :
    rejoinComments (line ++ '\n' :: rest) = line ++ '\n' :: rejoinComments rest := by
  obtain ⟨joined, closes⟩ := exists_rejoinComments_append_newline lacks
  rw [closes, after]
  simp

/-- Where the engine has changed nothing, the slashes of a comment directive come back. -/
theorem rejoinComments_own {part : Part} (lacks : Lacks splitMarks part.line) {rest : Text}
    (after : isDirective rest = false) :
    rejoinComments (part.rewritten part.own ++ rest) =
      guardLine part.line ++ '\n' :: rejoinComments rest := by
  cases part with
  | guarded line directive =>
    have inner := rejoinComments_append_newline lacks after
    simp [Part.rewritten, Part.own, Part.line, guardLine, directive, Marker.text, rejoinComments] at inner ⊢
    exact inner
  | split indent directive blank exposed =>
    have absent : '\uFFFF' ∉ indent := not_mem_of_blank rfl blank
    have behind : directive <:+: Part.line (.split indent directive blank exposed) :=
      (List.suffix_append (indent ++ ['/', '/', '/']) directive).isInfix.trans (by simp [Part.line])
    have inner := rejoinComments_append_newline (lacks.of_infix behind) after
    have hidden : isDirective (indent ++ '/' :: '/' :: '/' :: directive) = false := by
      rw [isDirective_blank_append blank]
      rfl
    simp only [Part.rewritten, Part.own, Part.line, guardLine, hidden, List.append_assoc, List.cons_append,
      List.nil_append]
    rw [rejoinComments_append_of_not_mem absent]
    simp [Marker.text, rejoinComments, isDirective_append_newline, exposed, inner]
  | plain line ordinary whole =>
    have inner := rejoinComments_append_newline lacks after
    simpa [Part.rewritten, Part.own, Part.line, guardLine, ordinary] using inner

private theorem rejoinComments_lines {lines : List Text} (lacks : ∀ line ∈ lines, Lacks splitMarks line) :
    isDirective (lines.flatMap fun line => wrapLine line ++ ['\n']) = false ∧
      rejoinComments (lines.flatMap fun line => wrapLine line ++ ['\n']) =
        lines.flatMap fun line => guardLine line ++ ['\n'] := by
  induction lines with
  | nil => exact ⟨rfl, rfl⟩
  | cons line lines ih =>
    obtain ⟨after, later⟩ := ih fun other member => lacks other (List.mem_cons_of_mem _ member)
    have first : Lacks splitMarks (partOf line).line := by
      rw [line_partOf]
      exact lacks line List.mem_cons_self
    simp only [List.flatMap_cons, wrapLine_append_newline line]
    refine ⟨isDirective_rewritten (partOf line).fits_own after, ?_⟩
    rw [rejoinComments_own first after, later, line_partOf]
    simp

/-- Rejoining puts back every comment directive that wrapping has split, and no other slashes. -/
theorem rejoinComments_wrap (text : Text) :
    rejoinComments (wrap text) =
      ((logicalLines text).map showContinuations).flatMap fun line => guardLine line ++ ['\n'] := by
  have lacks : ∀ line ∈ (logicalLines text).map showContinuations, Lacks splitMarks line := by
    intro line member
    obtain ⟨logical, inside, rfl⟩ := List.mem_map.mp member
    have unbroken := (separated_logicalLines text).unbroken logical inside
    have whole : '\n' ∉ hideContinuations logical :=
      not_mem_replaceContinuations (by decide) (by decide) unbroken
    rw [← showContinuations_hideContinuations]
    exact (unbroken_showContinuations whole).lacks_splitMarks
  rw [wrap_eq, ← (rejoinComments_lines lacks).2, List.flatMap_map]

/-- No split mark goes on after its line feed, so whole lines are read apart from what follows. -/
theorem dropSplits_closed_append {lines : Text} (closed : Closed lines) (rest : Text) :
    dropSplits (lines ++ rest) = dropSplits lines ++ dropSplits rest := by
  fun_induction dropSplits lines with
  | case1 lines ih => simpa [dropSplits] using ih (closed.of_append (Marker.split.text ++ ['\n']))
  | case2 lines ih => simpa [dropSplits] using ih (closed.of_append (Marker.split.text ++ ['\r', '\n']))
  | case3 c lines notLf notCrlf ih =>
    rw [List.cons_append, dropSplits, ih (closed.of_append [c])]
    · rfl
    · rintro later rfl shape
      rcases closed.of_append ['\uFFFF'] with rfl | ⟨lines, rfl⟩
      · exact absurd closed (by decide)
      · rw [List.append_assoc] at shape
        rcases Text.eq_or_eq_append_cons ['9', '1', ';'] (by decide) shape with rfl | ⟨behind, rfl⟩
        · exact notLf [] rfl rfl
        · exact notLf (behind ++ ['\n']) rfl (by simp)
    · rintro later rfl shape
      rcases closed.of_append ['\uFFFF'] with rfl | ⟨lines, rfl⟩
      · exact absurd closed (by decide)
      · rw [List.append_assoc] at shape
        rcases Text.eq_or_eq_append_cons ['9', '1', ';', '\r'] (by decide) shape with rfl | ⟨behind, rfl⟩
        · exact notCrlf [] rfl rfl
        · exact notCrlf (behind ++ ['\n']) rfl (by simp)
  | case4 => rfl

/-- A guard is not completed by a text that does not begin with a part of its tag. -/
theorem unguardDirectives_append (start : Text) {rest : Text}
    (apart : ∀ c tail, rest = c :: tail → c ≠ '1' ∧ c ≠ '7' ∧ c ≠ ';') :
    unguardDirectives (start ++ rest) = unguardDirectives start ++ unguardDirectives rest := by
  fun_induction unguardDirectives start with
  | case1 start ih => simp [unguardDirectives, ih]
  | case2 c start notGuard ih =>
    rw [List.cons_append, unguardDirectives, ih]
    · rfl
    · rintro later rfl shape
      rcases start with _ | ⟨d, _ | ⟨e, _ | ⟨f, start⟩⟩⟩
      · exact (apart _ _ shape).1 rfl
      · simp only [List.cons_append, List.nil_append, List.cons.injEq] at shape
        exact (apart _ _ shape.2).2.1 rfl
      · simp only [List.cons_append, List.nil_append, List.cons.injEq] at shape
        exact (apart _ _ shape.2.2).2.2 rfl
      · simp only [List.cons_append, List.cons.injEq] at shape
        obtain ⟨rfl, rfl, rfl, -⟩ := shape
        exact notGuard start rfl rfl
  | case3 => rfl

private theorem dropSplits_line (line rest : Text) :
    dropSplits (line ++ ['\n'] ++ rest) = dropSplits (line ++ ['\n']) ++ dropSplits rest :=
  dropSplits_closed_append (.inr (List.suffix_append line ['\n'])) rest

/-- A directive line begins with a character that no guard goes on with. -/
private theorem dropSplits_directive {line : Text} (directive : isDirective line = true) (rest : Text) :
    ∀ c tail, dropSplits (line ++ rest) = c :: tail → c ≠ '1' ∧ c ≠ '7' ∧ c ≠ ';' := by
  rcases line with _ | ⟨d, line⟩
  · contradiction
  · intro c tail shape
    have first : Text.isLineBlank d = true ∨ d = '#' := by
      rw [isDirective_cons] at directive
      split at directive
      · rename_i blank; exact .inl blank
      · exact .inr (by simpa using directive)
    have solid : d ≠ '\uFFFF' := by
      rintro rfl
      exact absurd first (by decide)
    rw [List.cons_append, dropSplits_cons_of_ne solid] at shape
    obtain ⟨rfl, -⟩ := List.cons.inj shape
    refine ⟨?_, ?_, ?_⟩ <;> rintro rfl <;> exact absurd first (by decide)

/-- Unguarding removes the guards that wrapping has put before the lines. Splits are dropped first, so
    what is left of a line before a guard is not whole; `start` stands for it. -/
private theorem unguard_lines (lines : List Text) (start : Text) :
    unguardDirectives (start ++ dropSplits (lines.flatMap fun line => guardLine line ++ ['\n'])) =
      unguardDirectives (start ++ dropSplits (lines.flatMap fun line => line ++ ['\n'])) := by
  induction lines generalizing start with
  | nil => rfl
  | cons line lines ih =>
    simp only [List.flatMap_cons]
    rw [dropSplits_line (guardLine line)]
    cases directive : isDirective line with
    | true =>
      have guarded : dropSplits (guardLine line ++ ['\n']) =
          Marker.guarded.text ++ dropSplits (line ++ ['\n']) := by
        simp [guardLine, directive, Marker.text, dropSplits]
      have unguarded : ∀ rest, unguardDirectives (Marker.guarded.text ++ rest) = unguardDirectives rest := by
        intro rest
        simp [Marker.text, unguardDirectives]
      have behind := dropSplits_directive directive (['\n'] ++ lines.flatMap fun line => line ++ ['\n'])
      rw [← List.append_assoc] at behind
      rw [guarded, List.append_assoc, unguardDirectives_append start (by simp [Marker.text]), unguarded, ih,
        ← dropSplits_line, unguardDirectives_append start behind]
    | false =>
      have whole : guardLine line = line := by simp [guardLine, directive]
      rw [whole, dropSplits_line, ← List.append_assoc, ih, List.append_assoc]

/-- Stripping takes the markers of a wrapped text away, and with them those that the text held before. -/
theorem strip_wrap (text : Text) :
    strip (wrap text) = unguardDirectives (dropSplits (showContinuations (text ++ ['\n']))) := by
  have inhabited : (logicalLines text).map showContinuations ≠ [] := by
    simpa using logicalLines_ne_nil text
  have shown : ((logicalLines text).map showContinuations).flatMap (fun line => line ++ ['\n']) =
      showContinuations (text ++ ['\n']) := by
    rw [← Text.joinWith_append_newline inhabited, ← showContinuations_joinWith, joinWith_logicalLines,
      showContinuations_append_newline]
    rfl
  have unguarded := unguard_lines ((logicalLines text).map showContinuations) []
  rw [List.nil_append, List.nil_append, shown] at unguarded
  rw [strip, rejoinComments_wrap, unguarded]

/-- What a round trip does to a text, whatever the text holds: the continuation markers, split markers
    and guards that were there before are taken for those of the wrapping and removed. -/
theorem unwrap_wrap (text : Text) :
    unwrap (wrap text) =
      trimNewline (unguardDirectives (dropSplits (showContinuations (text ++ ['\n'])))) := by
  rw [unwrap_eq, strip_wrap]

/-- The texts that a host text, with a line feed after it, must not hold if it is to come back. -/
def fragileMarks : List Text :=
  continuationMarks ++ guardMarks ++ splitMarks

example : fragileMarks = ["\uFFFE0;".toList, "\uFFFE1;".toList, "\uFFFF17;".toList, "\uFFFF91;\n".toList,
    "\uFFFF91;\r\n".toList] := by
  decide

/-- A text with a line feed at its end. -/
def ended (text : Text) : Text :=
  if ['\n'] <:+ text then text else text ++ ['\n']

theorem trimNewline_append_newline (text : Text) : trimNewline (text ++ ['\n']) = ended text := by
  have ends : ['\n', '\n'].isSuffixOf (text ++ ['\n']) = true ↔ ['\n'] <:+ text := by
    have two : ['\n', '\n'] = ['\n'] ++ ['\n'] := rfl
    rw [List.isSuffixOf_iff_suffix, two, List.suffix_append_self_iff]
  unfold trimNewline ended
  by_cases closed : ['\n'] <:+ text
  · rw [if_pos (ends.mpr closed), if_pos closed, List.dropLast_concat]
  · rw [if_neg fun two => closed (ends.mp two), if_neg closed]

private theorem countP_append_newline {p : Char → Bool} (feed : p '\n' = false) (text : Text) :
    (text ++ ['\n']).countP p = text.countP p := by
  simp [List.countP_append, feed]

/-- Characters other than line feeds are neither lost nor added at the end. -/
theorem countP_trimNewline {p : Char → Bool} (feed : p '\n' = false) (text : Text) :
    (trimNewline text).countP p = text.countP p := by
  unfold trimNewline
  split
  · rename_i two
    obtain ⟨start, rfl⟩ := List.isSuffixOf_iff_suffix.mp two
    have shape : start ++ ['\n', '\n'] = (start ++ ['\n']) ++ ['\n'] := by simp
    rw [shape, List.dropLast_concat, countP_append_newline feed (start ++ ['\n'])]
  · rfl

theorem countP_ended {p : Char → Bool} (feed : p '\n' = false) (text : Text) :
    (ended text).countP p = text.countP p := by
  rw [← trimNewline_append_newline, countP_trimNewline feed, countP_append_newline feed]

theorem ReservedFree.lacks {text : Text} (free : ReservedFree text) : Lacks fragileMarks text := by
  intro mark member occurs
  have reserved : ∃ c ∈ mark, isReserved c = true := by
    simp only [fragileMarks, continuationMarks, guardMarks, splitMarks, List.mem_append, List.mem_cons,
      List.not_mem_nil, or_false] at member
    rcases member with ((rfl | rfl) | rfl) | rfl | rfl
    · exact ⟨'\uFFFE', by decide, rfl⟩
    · exact ⟨'\uFFFE', by decide, rfl⟩
    · exact ⟨'\uFFFF', by decide, rfl⟩
    · exact ⟨'\uFFFF', by decide, rfl⟩
    · exact ⟨'\uFFFF', by decide, rfl⟩
  obtain ⟨c, inside, point⟩ := reserved
  exact free.not_mem point (occurs.subset inside)

/-- Nothing happens to a text that holds none of the fragile marks. -/
theorem strip_wrap_of_lacks {text : Text} (none : Lacks fragileMarks (text ++ ['\n'])) :
    strip (wrap text) = text ++ ['\n'] := by
  obtain ⟨others, noSplit⟩ := lacks_append.mp none
  obtain ⟨noContinuation, noGuard⟩ := lacks_append.mp others
  have shown := (erased_showContinuations (text ++ ['\n'])).eq_of_lacks noContinuation
  have dropped := (erased_dropSplits (text ++ ['\n'])).eq_of_lacks noSplit
  have unguarded := (erased_unguardDirectives (text ++ ['\n'])).eq_of_lacks noGuard
  rw [strip_wrap, shown, dropped, unguarded]

theorem unwrap_wrap_of_lacks {text : Text} (none : Lacks fragileMarks (text ++ ['\n'])) :
    unwrap (wrap text) = ended text := by
  rw [unwrap_eq, strip_wrap_of_lacks none, trimNewline_append_newline]

theorem strip_wrap_of_free {text : Text} (free : ReservedFree text) : strip (wrap text) = text ++ ['\n'] :=
  strip_wrap_of_lacks (reservedFree_append.mpr ⟨free, by decide⟩).lacks

theorem unwrap_wrap_of_free {text : Text} (free : ReservedFree text) : unwrap (wrap text) = ended text :=
  unwrap_wrap_of_lacks (reservedFree_append.mpr ⟨free, by decide⟩).lacks

/-- A text of which nothing is lost holds none of the fragile marks: each pass erases reserved points or
    nothing, and none is missing at the end. -/
theorem lacks_of_unwrap_wrap {text : Text} (same : unwrap (wrap text) = ended text) :
    Lacks fragileMarks (text ++ ['\n']) := by
  have shown := erased_showContinuations (text ++ ['\n'])
  have dropped := erased_dropSplits (showContinuations (text ++ ['\n']))
  have unguarded := erased_unguardDirectives (dropSplits (showContinuations (text ++ ['\n'])))
  have kept : reservedCount (text ++ ['\n']) =
      reservedCount (unguardDirectives (dropSplits (showContinuations (text ++ ['\n'])))) := by
    have counted := congrArg reservedCount same
    rw [unwrap_wrap, reservedCount, reservedCount, countP_trimNewline (by decide), countP_ended (by decide)]
      at counted
    rw [reservedCount, countP_append_newline (by decide)]
    exact counted.symm
  have first := shown.le
  have second := dropped.le
  have third := unguarded.le
  obtain ⟨noContinuation, sameShown⟩ := shown.lacks_of_le (by omega)
  obtain ⟨noSplit, sameDropped⟩ := dropped.lacks_of_le (by omega)
  obtain ⟨noGuard, -⟩ := unguarded.lacks_of_le (by omega)
  rw [sameDropped, sameShown] at noGuard
  rw [sameShown] at noSplit
  exact lacks_append.mpr ⟨lacks_append.mpr ⟨noContinuation, noGuard⟩, noSplit⟩

/-- A text comes back through an engine that changes nothing, with a line feed at its end, exactly if
    it holds none of the fragile marks. A text without reserved points always does. -/
theorem unwrap_wrap_iff (text : Text) :
    (unwrap (wrap text) = ended text ↔ Lacks fragileMarks (text ++ ['\n'])) ∧
      (ReservedFree text → unwrap (wrap text) = ended text) := by
  constructor
  · constructor
    · exact lacks_of_unwrap_wrap
    · exact unwrap_wrap_of_lacks
  · exact unwrap_wrap_of_free

theorem unwrap_wrap_mixed_endings :
    unwrap (wrap "\t#a \\\r\n#b\r\n\u2003///#c \\\n#d".toList) =
      "\t#a \\\r\n#b\r\n\u2003///#c \\\n#d\n".toList :=
  ((unwrap_wrap_iff _).2 (by decide)).trans (by decide)

end HashTunnel
