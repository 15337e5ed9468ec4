import HashTunnel.Proofs.RoundTrip

/-! # One scan

Unwrapping passes three times over a text that changes on the way. Where every directive point of an engine's
output begins a guard or a split marker, one scan of the output does the same (`unwrap_eq_trimNewline_scan`):
no pass forms a mark for the next one or takes one apart, so what becomes of a split marker is decided by
what stands behind it in the output itself.
-/

namespace HashTunnel

/-- Every directive point of the text begins one of the marks. -/
def WellMarked (marks : List Text) (text : Text) : Prop :=
  ∀ rest, rest <:+ text → rest.head? = some directivePoint → ∃ mark ∈ marks, mark <+: rest

instance (marks : List Text) : DecidablePred (WellMarked marks) := fun text =>
  decidable_of_iff (∀ rest ∈ text.tails, rest.head? = some directivePoint → ∃ mark ∈ marks, mark <+: rest)
    (by simp [WellMarked])

/-- The markers that unwrapping looks for, with or without a line break behind them. -/
def bareMarks : List Text :=
  [Marker.guarded.text, Marker.split.text]

section Marks

variable {marks : List Text} {text : Text}

theorem WellMarked.of_suffix (marked : WellMarked marks text) {rest : Text} (behind : rest <:+ text) :
    WellMarked marks rest :=
  fun after inside => marked after (inside.trans behind)

theorem WellMarked.of_append (start : Text) (marked : WellMarked marks (start ++ text)) : WellMarked marks text :=
  marked.of_suffix (List.suffix_append start text)

theorem WellMarked.exists_mark (marked : WellMarked marks ('\uFFFF' :: text)) : ∃ mark ∈ marks, mark <+: '\uFFFF' :: text :=
  marked _ (List.suffix_refl _) rfl

theorem WellMarked.mono {shorter : List Text} (marked : WellMarked marks text)
    (begun : ∀ mark ∈ marks, ∃ short ∈ shorter, short <+: mark) : WellMarked shorter text := by
  intro rest behind point
  obtain ⟨mark, member, starts⟩ := marked rest behind point
  obtain ⟨short, known, inside⟩ := begun mark member
  exact ⟨short, known, inside.trans starts⟩

end Marks

/-- A text without its guards, and with three slashes in place of each split marker and its line break if
    `exposed` holds of what follows them, and with nothing in their place otherwise. A split marker without a
    line break stays. -/
def scanBy (exposed : Text → Bool) : Text → Text
  | '\uFFFF' :: '1' :: '7' :: ';' :: rest => scanBy exposed rest
  | '\uFFFF' :: '9' :: '1' :: ';' :: '\n' :: rest =>
    (if exposed rest then ['/', '/', '/'] else []) ++ scanBy exposed rest
  | '\uFFFF' :: '9' :: '1' :: ';' :: '\r' :: '\n' :: rest =>
    (if exposed rest then ['/', '/', '/'] else []) ++ scanBy exposed rest
  | c :: rest => c :: scanBy exposed rest
  | [] => []

/-- The scan that makes comments again of the splits before a directive. -/
def scan (text : Text) : Text :=
  scanBy isDirective text

/-- Holds of what does not begin with a line break. -/
def StaysOnLine (rest : Text) : Prop :=
  ∀ ending, IsLineBreak ending → ¬ ending <+: rest

theorem staysOnLine_iff {rest : Text} :
    StaysOnLine rest ↔ (∀ after, rest ≠ '\n' :: after) ∧ ∀ after, rest ≠ '\r' :: '\n' :: after := by
  constructor
  · intro stays
    constructor
    · rintro after rfl
      exact stays ['\n'] (.inl rfl) ⟨after, rfl⟩
    · rintro after rfl
      exact stays ['\r', '\n'] (.inr rfl) ⟨after, rfl⟩
  · rintro ⟨noLf, noCrlf⟩ ending (rfl | rfl) ⟨after, rfl⟩
    · exact noLf after rfl
    · exact noCrlf after rfl

/-- A pass that stops only at directive points, and at none of these without a line break behind a split marker. -/
private theorem pass_split_open {pass : Text → Text} (keeps : ∀ c rest, c ≠ '\uFFFF' → pass (c :: rest) = c :: pass rest)
    (passes : ∀ rest, (∀ after, rest ≠ '9' :: '1' :: ';' :: '\n' :: after) →
      (∀ after, rest ≠ '9' :: '1' :: ';' :: '\r' :: '\n' :: after) → pass ('\uFFFF' :: rest) = '\uFFFF' :: pass rest)
    {rest : Text} (stays : StaysOnLine rest) : pass (Marker.split.text ++ rest) = Marker.split.text ++ pass rest := by
  obtain ⟨noLf, noCrlf⟩ := staysOnLine_iff.mp stays
  have tag : pass (['9', '1', ';'] ++ rest) = ['9', '1', ';'] ++ pass rest := pass_append_of_not_mem keeps (by decide) rest
  have point : pass ('\uFFFF' :: (['9', '1', ';'] ++ rest)) = '\uFFFF' :: pass (['9', '1', ';'] ++ rest) := by
    apply passes
    · intro after shape
      exact noLf after (by simpa using shape)
    · intro after shape
      exact noCrlf after (by simpa using shape)
  rw [tag] at point
  exact point

theorem rejoinComments_split_open {rest : Text} (stays : StaysOnLine rest) :
    rejoinComments (Marker.split.text ++ rest) = Marker.split.text ++ rejoinComments rest := by
  refine pass_split_open (fun _ rest other => rejoinComments_cons_of_ne other rest) (fun rest noLf noCrlf => ?_) stays
  rw [rejoinComments]
  · exact fun after _ => noLf after
  · exact fun after _ => noCrlf after

theorem dropSplits_split_open {rest : Text} (stays : StaysOnLine rest) :
    dropSplits (Marker.split.text ++ rest) = Marker.split.text ++ dropSplits rest := by
  refine pass_split_open (fun _ rest other => dropSplits_cons_of_ne other rest) (fun rest noLf noCrlf => ?_) stays
  rw [dropSplits]
  · exact fun after _ => noLf after
  · exact fun after _ => noCrlf after

/-- Rejoining begins a text with nothing new but slashes. -/
theorem eq_cons_of_rejoinComments {c : Char} (noPoint : c ≠ '\uFFFF') (noSlash : c ≠ '/') {text result : Text}
    (shape : rejoinComments text = c :: result) : ∃ rest, text = c :: rest ∧ rejoinComments rest = result := by
  have begun : ∀ {ending rest : Text}, (if isDirective rest then ['/', '/', '/'] else Marker.split.text ++ ending) ++
      rejoinComments rest ≠ c :: result := by
    intro ending rest same
    split at same
    · exact noSlash (List.cons.inj same).1.symm
    · exact noPoint (List.cons.inj same).1.symm
  revert shape
  fun_cases rejoinComments text with
  | case1 rest => exact fun shape => absurd shape begun
  | case2 rest => exact fun shape => absurd shape begun
  | case3 d rest =>
    intro shape
    obtain ⟨rfl, tail⟩ := List.cons.inj shape
    exact ⟨rest, rfl, tail⟩
  | case4 => exact fun shape => absurd shape (by simp)

theorem StaysOnLine.rejoinComments {rest : Text} (stays : StaysOnLine rest) : StaysOnLine (rejoinComments rest) := by
  obtain ⟨noLf, noCrlf⟩ := staysOnLine_iff.mp stays
  refine staysOnLine_iff.mpr ⟨fun after shape => ?_, fun after shape => ?_⟩
  · obtain ⟨behind, rfl, -⟩ := eq_cons_of_rejoinComments (by decide) (by decide) shape
    exact noLf behind rfl
  · obtain ⟨behind, rfl, tail⟩ := eq_cons_of_rejoinComments (by decide) (by decide) shape
    obtain ⟨later, rfl, -⟩ := eq_cons_of_rejoinComments (by decide) (by decide) tail
    exact noCrlf later rfl

theorem strip_split_open {rest : Text} (stays : StaysOnLine rest) :
    strip (Marker.split.text ++ rest) = Marker.split.text ++ strip rest := by
  rw [strip, rejoinComments_split_open stays, dropSplits_split_open stays.rejoinComments]
  simp [strip, Marker.text, unguardDirectives]

theorem strip_split_append {ending : Text} (lineBreak : IsLineBreak ending) (rest : Text) :
    strip (Marker.split.text ++ ending ++ rest) = (if isDirective rest then ['/', '/', '/'] else []) ++ strip rest := by
  rw [strip_split lineBreak]
  split
  · rfl
  · rfl

/-- Each mark is read by the passes as the scan reads it, whatever the marks around it become. -/
theorem strip_eq_scan {text : Text} (marked : WellMarked bareMarks text) : strip text = scan text := by
  unfold scan
  fun_induction scanBy isDirective text with
  | case1 rest ih =>
    rw [← ih (marked.of_append Marker.guarded.text)]
    exact strip_guarded rest
  | case2 rest ih =>
    rw [← ih (marked.of_append (Marker.split.text ++ ['\n']))]
    exact strip_split_append (.inl rfl) rest
  | case3 rest ih =>
    rw [← ih (marked.of_append (Marker.split.text ++ ['\r', '\n']))]
    exact strip_split_append (.inr rfl) rest
  | case4 c rest notGuard notLf notCrlf ih =>
    have tail := ih (marked.of_append [c])
    by_cases point : c = '\uFFFF'
    -- The scan steps over this point, so what it begins is a split marker that ends no line.
    · subst point
      obtain ⟨mark, member, after, shape⟩ := marked.exists_mark
      simp only [bareMarks, List.mem_cons, List.not_mem_nil, or_false] at member
      rcases member with rfl | rfl
      · exact (notGuard after rfl (List.cons.inj shape).2.symm).elim
      · obtain rfl := (List.cons.inj shape).2
        have stays : StaysOnLine after := by
          refine staysOnLine_iff.mpr ⟨?_, ?_⟩
          · rintro later rfl
            exact notLf later rfl rfl
          · rintro later rfl
            exact notCrlf later rfl rfl
        have tag : strip (['9', '1', ';'] ++ after) = ['9', '1', ';'] ++ strip after :=
          strip_append_of_not_mem (by decide) after
        exact (strip_split_open stays).trans (congrArg ('\uFFFF' :: ·) (tag.symm.trans tail))
    · have single : '\uFFFF' ∉ [c] := by simpa using Ne.symm point
      rw [← tail]
      exact strip_append_of_not_mem single rest
  | case5 => rfl

/-- Unwrapping reads a text once, from left to right: it drops the guards, puts three slashes in place of each
    split marker and its line break if a directive follows and nothing otherwise, leaves everything else as
    it is, a split marker without a line break included, and trims the end. -/
theorem unwrap_eq_trimNewline_scan {text : Text} (marked : WellMarked bareMarks text) :
    unwrap text = trimNewline (scan text) := by
  rw [unwrap_eq, strip_eq_scan marked]

theorem unwrap_eq_trimNewline_scan_adjacent :
    unwrap "\uFFFF91;\uFFFF91;\n\uFFFF17;#a\uFFFF91;\r\n\r#b\uFFFF91;\uFFFF17;\n\uFFFE0;\uFFFF91;\n\n\n".toList =
      "\uFFFF91;#a///\r#b\uFFFF91;\n\uFFFE0;\n".toList :=
  (unwrap_eq_trimNewline_scan (by decide)).trans (by decide)

end HashTunnel
