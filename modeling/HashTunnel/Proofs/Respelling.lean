import HashTunnel.Proofs.Joining
import HashTunnel.Proofs.LineEdits
import HashTunnel.Proofs.WrappedTexts

/-! # Engines that respell line breaks

An engine may join continued lines, or end its lines with a carriage return and a line feed. Both change
line breaks and backslashes only and look at one logical line at a time (`Respells`), and of such an
engine stripping gives what it would have made of the host text with a line feed behind it
(`strip_respell_wrap`). What is left is the end: joined lines are trimmed as the host text itself would be
(`unwrap_joinContinuations_wrap`), but a carriage return keeps the appended line feed from being trimmed
(`unwrap_withReturns_wrap_iff`).
-/

namespace HashTunnel

/-- The function changes nothing but backslashes and line breaks, puts `ending` in place of a line feed
    with nothing before it, and changes each logical line by itself. -/
structure Respells (respell : Text → Text) (ending : Text) : Prop where
  lineBreak : IsLineBreak ending
  nil : respell [] = []
  feed : ∀ rest, respell ('\n' :: rest) = ending ++ respell rest
  solid : ∀ {c}, c ∉ ['\\', '\r', '\n'] → ∀ rest, respell (c :: rest) = c :: respell rest
  blank : ∀ {indent}, (∀ c ∈ indent, Text.isLineBlank c = true) → ∀ {c}, c ≠ '\n' → ∀ rest,
    respell (indent ++ c :: rest) = indent ++ respell (c :: rest)
  line : ∀ {line}, ¬ Continues line → ∀ rest, respell (line ++ '\n' :: rest) = respell (line ++ ['\n']) ++ respell rest
  free : ∀ {text}, ReservedFree text → ReservedFree (respell text)

namespace Respells

variable {respell : Text → Text} {ending : Text}

theorem append (law : Respells respell ending) (start : Text) (solid : ∀ c ∈ start, c ∉ ['\\', '\r', '\n'])
    (rest : Text) : respell (start ++ rest) = start ++ respell rest := by
  induction start with
  | nil => rfl
  | cons c start ih =>
    rw [List.forall_mem_cons] at solid
    rw [List.cons_append, law.solid solid.1, ih solid.2, List.cons_append]

/-- What a line begins with decides whether it is a directive line, and that is not changed. -/
theorem isDirective (law : Respells respell ending) {line : Text} (directive : BeginsDirective line) (rest : Text) :
    HashTunnel.isDirective (respell (line ++ ['\n']) ++ rest) = true := by
  obtain ⟨indent, behind, blank, rfl⟩ := directive
  have shape : indent ++ '#' :: behind ++ ['\n'] = indent ++ '#' :: (behind ++ ['\n']) := by simp
  rw [shape, law.blank blank (by decide), law.solid (by decide), List.append_assoc, isDirective_blank_append blank]
  rfl

theorem flatMap (law : Respells respell ending) {pieces : List Text} (separated : Separated pieces) :
    respell (pieces.flatMap (· ++ ['\n'])) = pieces.flatMap fun piece => respell (piece ++ ['\n']) := by
  induction separated with
  | last unbroken => simp
  | @more line pieces unbroken ends separated ih =>
    rw [List.flatMap_cons, List.flatMap_cons, List.append_assoc, List.singleton_append, law.line ends, ih]

variable {lines wrapped : List Text}

/-- Stripping finds every marker where the engine has respelled the lines around it. -/
theorem strip_wrapping (law : Respells respell ending) (wrapping : Wrapping lines wrapped) :
    strip (wrapped.flatMap fun piece => respell (piece ++ ['\n'])) =
      lines.flatMap fun line => respell (line ++ ['\n']) := by
  have passed : ∀ {line : Text}, ReservedFree line → ∀ rest,
      strip (respell (line ++ ['\n']) ++ rest) = respell (line ++ ['\n']) ++ strip rest := by
    intro line free rest
    have kept := law.free (reservedFree_append.mpr ⟨free, (by decide : ReservedFree ['\n'])⟩)
    exact strip_append_of_not_mem (kept.not_mem (by decide)) rest
  induction wrapping with
  | nil => rfl
  | @guarded line lines wrapped free directive wrapping ih =>
    have guard := law.append Marker.guarded.text (by simp [Marker.text]) (line ++ ['\n'])
    rw [List.flatMap_cons, List.flatMap_cons, List.append_assoc, guard, List.append_assoc, strip_guarded,
      passed free, ih]
  | @split indent directive lines wrapped blank free exposed wrapping ih =>
    have absent : '\uFFFF' ∉ indent := not_mem_of_blank rfl blank
    have marker : respell (indent ++ Marker.split.text ++ ['\n']) = indent ++ (Marker.split.text ++ ending) := by
      have solid := law.append Marker.split.text (by simp [Marker.text]) ['\n']
      have behind := law.blank blank (c := '\uFFFF') (by decide) ['9', '1', ';', '\n']
      rw [law.feed, law.nil, List.append_nil] at solid
      rw [← solid, List.append_assoc]
      exact behind
    have slashes : respell (indent ++ '/' :: '/' :: '/' :: directive ++ ['\n']) =
        indent ++ '/' :: '/' :: '/' :: respell (directive ++ ['\n']) := by
      have solid := law.append ['/', '/', '/'] (by simp) (directive ++ ['\n'])
      have behind := law.blank blank (c := '/') (by decide) ('/' :: '/' :: (directive ++ ['\n']))
      simpa using behind.trans (congrArg (indent ++ ·) solid)
    rw [List.flatMap_cons, List.flatMap_cons, List.flatMap_cons, marker, slashes, List.append_assoc,
      strip_append_of_not_mem absent, strip_split law.lineBreak, if_pos (law.isDirective exposed _), passed free, ih]
    simp
  | plain free ordinary whole wrapping ih =>
    rw [List.flatMap_cons, List.flatMap_cons, passed free, ih]

end Respells

/-- But for the end of the text, such an engine does to a host text in the tunnel what it does outside. -/
theorem strip_respell_wrap {respell : Text → Text} {ending : Text} (law : Respells respell ending) {host : Text}
    (free : ReservedFree host) : strip (respell (wrap host)) = respell (host ++ ['\n']) := by
  obtain ⟨wrapped, wrapping, shape⟩ := exists_wrapping_logicalLines free
  have separated := separated_logicalLines host
  have fed : host ++ ['\n'] = (logicalLines host).flatMap (· ++ ['\n']) := by
    rw [← Text.joinWith_append_newline (logicalLines_ne_nil host), joinWith_logicalLines]
  rw [shape, fed, law.flatMap separated, law.flatMap (wrapping.separated_iff.mp separated), law.strip_wrapping wrapping]

theorem respells_joinContinuations : Respells joinContinuations ['\n'] where
  lineBreak := .inl rfl
  nil := rfl
  feed rest := replaceContinuations_cons_of_ne (by decide) rest
  solid plain rest := by
    refine replaceContinuations_cons_of_ne ?_ rest
    rintro rfl
    exact plain List.mem_cons_self
  blank blank _ _ rest := joinContinuations_append_of_not_mem (not_mem_of_blank rfl blank) _
  line ends rest := by
    unfold joinContinuations
    rw [replaceContinuations_append_newline ends, replaceContinuations_append_newline ends]
    simp [replaceContinuations]
  free free c member := free c (mem_of_mem_joinContinuations member)

/-- An engine that joins continued lines gives of a host text what joining its own lines gives, with the
    line feed at its end that unwrapping leaves of two. -/
theorem unwrap_joinContinuations_wrap {host : Text} (free : ReservedFree host) :
    unwrap (joinContinuations (wrap host)) = trimNewline (joinContinuations (host ++ ['\n'])) := by
  rw [unwrap_eq, strip_respell_wrap respells_joinContinuations free]

theorem unwrap_joinContinuations_wrap_directives :
    unwrap (joinContinuations (wrap " ///#if \\\r\nA\n\\\n#b\\\n\\\\\n\n///#c\\\n\n".toList)) =
      " ///#if A\n#b\\\n///#c\n".toList :=
  (unwrap_joinContinuations_wrap (by decide)).trans (by decide)

/-- A text with a carriage return before every line feed that has none before it. -/
def withReturns : Text → Text
  | '\r' :: '\n' :: rest => '\r' :: '\n' :: withReturns rest
  | '\n' :: rest => '\r' :: '\n' :: withReturns rest
  | c :: rest => c :: withReturns rest
  | [] => []

theorem withReturns_cons_of_ne {c : Char} (feed : c ≠ '\n') {rest : Text}
    (apart : c = '\r' → rest.head? ≠ some '\n') : withReturns (c :: rest) = c :: withReturns rest := by
  rw [withReturns]
  · rintro after rfl rfl
    exact apart rfl rfl
  · exact feed

theorem mem_withReturns {c : Char} {text : Text} (member : c ∈ withReturns text) : c ∈ text ∨ c = '\r' := by
  fun_induction withReturns text with
  | case1 rest ih => simp only [List.mem_cons] at member ⊢; tauto
  | case2 rest ih => simp only [List.mem_cons] at member ⊢; tauto
  | case3 d rest _ _ ih => simp only [List.mem_cons] at member ⊢; tauto
  | case4 => simp at member

/-- A line feed ends its line, so what is around it is changed apart. -/
theorem withReturns_append_newline (line rest : Text) :
    withReturns (line ++ '\n' :: rest) = withReturns (line ++ ['\n']) ++ withReturns rest := by
  fun_induction withReturns line with
  | case1 line ih => simp [withReturns, ih]
  | case2 line ih => simp [withReturns, ih]
  | case3 c line pair feed ih =>
    by_cases back : c = '\r' ∧ line = []
    · obtain ⟨rfl, rfl⟩ := back
      simp [withReturns]
    · have apart : ∀ later, c = '\r' → (line ++ '\n' :: later).head? ≠ some '\n' := by
        rintro later rfl first
        cases line with
        | nil => exact back ⟨rfl, rfl⟩
        | cons d line =>
          obtain rfl : d = '\n' := by simpa using first
          exact pair line rfl rfl
      rw [List.cons_append, List.cons_append, withReturns_cons_of_ne feed (apart rest),
        withReturns_cons_of_ne feed (apart []), ih, List.cons_append]
  | case4 => simp [withReturns]

theorem respells_withReturns : Respells withReturns ['\r', '\n'] where
  lineBreak := .inr rfl
  nil := rfl
  feed rest := rfl
  solid plain rest := by
    simp only [List.mem_cons, List.not_mem_nil, or_false, not_or] at plain
    exact withReturns_cons_of_ne plain.2.2 fun back => absurd back plain.2.1
  blank := by
    intro indent blank c solid rest
    induction indent with
    | nil => rfl
    | cons d indent ih =>
      rw [List.forall_mem_cons] at blank
      have line : d ≠ '\n' := by
        rintro rfl
        exact absurd blank.1 (by decide)
      have next : (indent ++ c :: rest).head? ≠ some '\n' := by
        cases indent with
        | nil => simpa using solid
        | cons e indent =>
          have other := blank.2 e List.mem_cons_self
          simp only [List.cons_append, List.head?_cons, ne_eq, Option.some.injEq]
          rintro rfl
          exact absurd other (by decide)
      rw [List.cons_append, withReturns_cons_of_ne line (fun _ => next), ih blank.2, List.cons_append]
  line _ rest := withReturns_append_newline _ rest
  free free c member := by
    rcases mem_withReturns member with inside | rfl
    · exact free c inside
    · rfl

/-- There is a carriage return between any two line feeds. -/
theorem not_infix_withReturns (text : Text) :
    (withReturns text).head? ≠ some '\n' ∧ ¬ ['\n', '\n'] <:+: withReturns text := by
  have returned : ∀ {rest : Text}, rest.head? ≠ some '\n' ∧ ¬ ['\n', '\n'] <:+: rest →
      ('\r' :: '\n' :: rest).head? ≠ some '\n' ∧ ¬ ['\n', '\n'] <:+: '\r' :: '\n' :: rest := by
    rintro rest ⟨head, whole⟩
    refine ⟨by simp, fun occurs => ?_⟩
    rcases List.infix_cons_iff.mp occurs with ⟨after, shape⟩ | later
    · simp at shape
    rcases List.infix_cons_iff.mp later with ⟨after, shape⟩ | later
    · obtain ⟨-, rfl⟩ := List.cons.inj shape
      exact head rfl
    · exact whole later
  fun_induction withReturns text with
  | case1 rest ih => exact returned ih
  | case2 rest ih => exact returned ih
  | case3 c rest pair feed ih =>
    refine ⟨by simpa using feed, fun occurs => ?_⟩
    rcases List.infix_cons_iff.mp occurs with ⟨after, shape⟩ | later
    · exact feed (List.cons.inj shape).1.symm
    · exact ih.2 later
  | case4 => simp

/-- Trimming takes nothing from a text whose line feeds have carriage returns. -/
theorem trimNewline_withReturns (text : Text) : trimNewline (withReturns text) = withReturns text := by
  rw [trimNewline, if_neg]
  intro two
  exact (not_infix_withReturns text).2 (List.isSuffixOf_iff_suffix.mp two).isInfix

/-- An engine that ends its lines with a carriage return and a line feed leaves the appended line feed in
    the text. So it gives what it would give of the text that comes back otherwise exactly if that text
    has kept the appended line feed too, which is if the host text ends in none. -/
theorem unwrap_withReturns_wrap_iff {host : Text} (free : ReservedFree host) :
    unwrap (withReturns (wrap host)) = withReturns (host ++ ['\n']) ∧
      (unwrap (withReturns (wrap host)) = withReturns (unwrap (wrap host)) ↔ ¬ ['\n'] <:+ host) := by
  have given : unwrap (withReturns (wrap host)) = withReturns (host ++ ['\n']) := by
    rw [unwrap_eq, strip_respell_wrap respells_withReturns free, trimNewline_withReturns]
  refine ⟨given, ?_⟩
  rw [given, unwrap_wrap_of_free free, ended]
  by_cases ends : ['\n'] <:+ host
  · obtain ⟨line, rfl⟩ := ends
    have longer := withReturns_append_newline line ['\n']
    rw [if_pos (List.suffix_append line ['\n']), List.append_assoc, List.singleton_append, longer]
    simp [withReturns]
  · simp [ends]

theorem unwrap_withReturns_wrap_open_end :
    unwrap (withReturns (wrap "#a\r\n\r///#b\n\n///#c".toList)) =
      withReturns (unwrap (wrap "#a\r\n\r///#b\n\n///#c".toList)) :=
  (unwrap_withReturns_wrap_iff (by decide)).2.mpr (by decide)

/-- The line feed that wrapping appends stays behind as a blank line. -/
theorem not_unwrap_withReturns_wrap_closed :
    ¬ ∀ host, ReservedFree host → unwrap (withReturns (wrap host)) = withReturns (unwrap (wrap host)) := by
  intro always
  have same := always "a\n".toList (by decide)
  exact absurd same (by decide)

end HashTunnel
