import HashTunnel.Continuation
import HashTunnel.Proofs.Pieces

/-! # Logical lines

A line feed right after a backslash, or after a backslash and a carriage return, continues its
line; the pieces of a text between the other line feeds are its logical lines. They are what the
lines of the text become when the continuations are replaced by texts without line feeds
(`lines_replaceContinuations`), be these markers or nothing at all.
-/

namespace HashTunnel

/-- Holds of a text after which a line feed continues the line. -/
def Continues (before : Text) : Prop :=
  ['\\'] <:+ before ∨ ['\\', '\r'] <:+ before

instance : DecidablePred Continues := fun before =>
  inferInstanceAs (Decidable (['\\'] <:+ before ∨ ['\\', '\r'] <:+ before))

/-- The logical lines of what follows `line`, which has been read of the first one. -/
def logicalLinesFrom (line : Text) : Text → List Text
  | [] => [line]
  | c :: rest =>
    if c = '\n' ∧ ¬ Continues line then line :: logicalLinesFrom [] rest
    else logicalLinesFrom (line ++ [c]) rest

/-- The pieces of a text between the line feeds that continue no line. -/
def logicalLines (text : Text) : List Text :=
  logicalLinesFrom [] text

example : logicalLines "a\\\n#b\n\\\r\nc\n".toList = ["a\\\n#b".toList, "\\\r\nc".toList, []] := by
  decide

/-- Every line feed of the line continues it. -/
def Unbroken (line : Text) : Prop :=
  ∀ before after, line = before ++ '\n' :: after → Continues before

/-- The lines are the logical lines of the text that they make up. -/
inductive Separated : List Text → Prop where
  | last {line : Text} : Unbroken line → Separated [line]
  | more {line : Text} {lines : List Text} : Unbroken line → ¬ Continues line → Separated lines →
      Separated (line :: lines)

theorem not_continues_nil : ¬ Continues [] := by
  simp [Continues]

theorem Continues.prepend {before : Text} (goesOn : Continues before) (start : Text) :
    Continues (start ++ before) := by
  rcases goesOn with slash | slash
  · exact .inl (slash.trans (List.suffix_append start before))
  · exact .inr (slash.trans (List.suffix_append start before))

/-- A character that does not itself complete the end of a line can be left out before it. -/
theorem Continues.of_cons {c : Char} {before : Text} (goesOn : Continues (c :: before))
    (inhabited : before ≠ []) (other : c = '\\' → before ≠ ['\r']) : Continues before := by
  rcases goesOn with slash | slash
  · rcases List.suffix_cons_iff.mp slash with same | inside
    · exact absurd (List.cons.inj same).2.symm inhabited
    · exact .inl inside
  · rcases List.suffix_cons_iff.mp slash with same | inside
    · obtain ⟨first, rest⟩ := List.cons.inj same
      exact absurd rest.symm (other first.symm)
    · exact .inr inside

/-- How a text begins before another character than those of a continuation does not matter. -/
theorem Continues.of_append_cons {start before : Text} {c : Char} (noSlash : c ≠ '\\') (noReturn : c ≠ '\r')
    (goesOn : Continues (start ++ c :: before)) : Continues before := by
  induction start with
  | nil =>
    refine goesOn.of_cons ?_ fun same => absurd same noSlash
    rintro rfl
    simp [Continues, List.suffix_cons_iff, Ne.symm noSlash] at goesOn
  | cons d start ih =>
    refine ih (goesOn.of_cons (by simp) fun _ same => ?_)
    cases start with
    | nil => exact noReturn (List.cons.inj same).1
    | cons e start => simp at same

theorem unbroken_nil : Unbroken [] := by
  intro before after shape
  simp at shape

theorem Unbroken.append_singleton {line : Text} {c : Char} (unbroken : Unbroken line)
    (goesOn : c = '\n' → Continues line) : Unbroken (line ++ [c]) := by
  intro before after shape
  rcases List.eq_nil_or_concat after with rfl | ⟨start, last, rfl⟩
  · obtain ⟨rfl, same⟩ := List.append_inj' shape rfl
    exact goesOn (List.cons.inj same).1
  · have same : line ++ [c] = (before ++ '\n' :: start) ++ [last] := by simpa using shape
    exact unbroken before start (List.append_inj' same rfl).1

theorem Unbroken.append {start line : Text} (first : Unbroken start) (second : Unbroken line) :
    Unbroken (start ++ line) := by
  intro before after shape
  rcases List.append_eq_append_iff.mp shape with ⟨middle, rfl, later⟩ | ⟨middle, rfl, inside⟩
  · exact (second middle after later).prepend start
  · cases middle with
    | nil => exact absurd (second [] after inside.symm) not_continues_nil
    | cons c middle =>
      obtain ⟨rfl, -⟩ := List.cons.inj inside
      exact first before middle rfl

theorem Unbroken.of_append_cons {start line : Text} {c : Char} (noSlash : c ≠ '\\') (noReturn : c ≠ '\r')
    (unbroken : Unbroken (start ++ c :: line)) : Unbroken line := by
  rintro before after rfl
  exact (unbroken (start ++ c :: before) after (by simp)).of_append_cons noSlash noReturn

private theorem separated_logicalLinesFrom {line : Text} (unbroken : Unbroken line) (text : Text) :
    Separated (logicalLinesFrom line text) := by
  induction text generalizing line with
  | nil => exact .last unbroken
  | cons c rest ih =>
    unfold logicalLinesFrom
    split
    · rename_i cut
      exact .more unbroken cut.2 (ih unbroken_nil)
    · rename_i kept
      refine ih (unbroken.append_singleton fun feed => ?_)
      by_contra broken
      exact kept ⟨feed, broken⟩

private theorem logicalLinesFrom_ne_nil (line text : Text) : logicalLinesFrom line text ≠ [] := by
  induction text generalizing line with
  | nil => simp [logicalLinesFrom]
  | cons c rest ih =>
    unfold logicalLinesFrom
    split
    · simp
    · exact ih _

private theorem joinWith_logicalLinesFrom (line text : Text) :
    Text.joinWith '\n' (logicalLinesFrom line text) = line ++ text := by
  induction text generalizing line with
  | nil => simp [logicalLinesFrom, Text.joinWith]
  | cons c rest ih =>
    unfold logicalLinesFrom
    split
    · rename_i cut
      obtain ⟨next, more, pieces⟩ := List.exists_cons_of_ne_nil (logicalLinesFrom_ne_nil [] rest)
      have joined := ih []
      rw [pieces] at joined ⊢
      simp [Text.joinWith, joined, cut.1]
    · simp [ih]

theorem separated_logicalLines (text : Text) : Separated (logicalLines text) :=
  separated_logicalLinesFrom unbroken_nil text

theorem logicalLines_ne_nil (text : Text) : logicalLines text ≠ [] :=
  logicalLinesFrom_ne_nil [] text

/-- The logical lines with the line feeds between them are the text. -/
theorem joinWith_logicalLines (text : Text) : Text.joinWith '\n' (logicalLines text) = text :=
  joinWith_logicalLinesFrom [] text

theorem Separated.unbroken {lines : List Text} (separated : Separated lines) :
    ∀ line ∈ lines, Unbroken line := by
  induction separated with
  | last unbroken => simpa using unbroken
  | more unbroken _ _ ih => simpa using ⟨unbroken, ih⟩

section Replacing

variable {lf crlf : Text}

theorem replaceContinuations_cons_of_ne {c : Char} (other : c ≠ '\\') (rest : Text) :
    replaceContinuations lf crlf (c :: rest) = c :: replaceContinuations lf crlf rest := by
  rw [replaceContinuations]
  · exact fun _ same => absurd same other
  · exact fun _ same => absurd same other

/-- A line feed that continues no line stays, and what is around it is replaced apart. -/
theorem replaceContinuations_append_newline {line : Text} (ends : ¬ Continues line) (rest : Text) :
    replaceContinuations lf crlf (line ++ '\n' :: rest) =
      replaceContinuations lf crlf line ++ '\n' :: replaceContinuations lf crlf rest := by
  fun_induction replaceContinuations lf crlf line with
  | case1 line ih =>
    have tail := ih fun goesOn => ends (goesOn.prepend ['\\', '\n'])
    simp [replaceContinuations, tail]
  | case2 line ih =>
    have tail := ih fun goesOn => ends (goesOn.prepend ['\\', '\r', '\n'])
    simp [replaceContinuations, tail]
  | case3 c line notLf notCrlf ih =>
    have tail := ih fun goesOn => ends (goesOn.prepend [c])
    rw [List.cons_append, replaceContinuations, tail]
    · rfl
    · rintro after rfl shape
      rcases Text.eq_or_eq_append_cons [] (by simp) shape with rfl | ⟨behind, rfl⟩
      · exact ends (.inl (List.suffix_refl _))
      · exact notLf behind rfl rfl
    · rintro after rfl shape
      rcases Text.eq_or_eq_append_cons ['\r'] (by decide) shape with rfl | ⟨behind, rfl⟩
      · exact ends (.inr (List.suffix_refl _))
      · exact notCrlf behind rfl rfl
  | case4 => simp [replaceContinuations]

/-- A logical line has no line feed left once its continuations are replaced. -/
theorem not_mem_replaceContinuations (lfWhole : '\n' ∉ lf) (crlfWhole : '\n' ∉ crlf) {line : Text}
    (unbroken : Unbroken line) : '\n' ∉ replaceContinuations lf crlf line := by
  fun_induction replaceContinuations lf crlf line with
  | case1 line ih =>
    have first : Unbroken (['\\'] ++ '\n' :: line) := unbroken
    have tail := first.of_append_cons (by decide) (by decide)
    simp [lfWhole, ih tail]
  | case2 line ih =>
    have first : Unbroken (['\\', '\r'] ++ '\n' :: line) := unbroken
    have tail := first.of_append_cons (by decide) (by decide)
    simp [crlfWhole, ih tail]
  | case3 c line notLf notCrlf ih =>
    have other : '\n' ≠ c := by
      rintro rfl
      exact not_continues_nil (unbroken [] line rfl)
    have tail : Unbroken line := by
      rintro before after rfl
      refine (unbroken (c :: before) after rfl).of_cons ?_ ?_
      · rintro rfl
        have goesOn := unbroken [c] after rfl
        have slash : '\\' = c := by simpa [Continues, List.suffix_cons_iff] using goesOn
        exact notLf after slash.symm rfl
      · rintro rfl rfl
        exact notCrlf after rfl rfl
    rw [List.mem_cons, not_or]
    exact ⟨other, ih tail⟩
  | case4 => simp

private theorem lines_replaceContinuations_joinWith (lfWhole : '\n' ∉ lf) (crlfWhole : '\n' ∉ crlf)
    {pieces : List Text} (separated : Separated pieces) :
    Text.lines (replaceContinuations lf crlf (Text.joinWith '\n' pieces)) =
      pieces.map (replaceContinuations lf crlf) := by
  induction separated with
  | last unbroken =>
    exact Text.lines_whole (not_mem_replaceContinuations lfWhole crlfWhole unbroken)
  | @more line pieces unbroken ends separated ih =>
    have whole := not_mem_replaceContinuations lfWhole crlfWhole unbroken
    cases pieces with
    | nil => cases separated
    | cons next pieces =>
      rw [Text.joinWith, replaceContinuations_append_newline ends, Text.lines_append_newline whole, ih]
      · rfl
      · simp

/-- The lines of a text whose continuations are replaced are its logical lines with theirs
    replaced. -/
theorem lines_replaceContinuations (lfWhole : '\n' ∉ lf) (crlfWhole : '\n' ∉ crlf) (text : Text) :
    Text.lines (replaceContinuations lf crlf text) =
      (logicalLines text).map (replaceContinuations lf crlf) := by
  have lined := lines_replaceContinuations_joinWith lfWhole crlfWhole (separated_logicalLines text)
  rwa [joinWith_logicalLines] at lined

end Replacing

theorem lines_hideContinuations (text : Text) :
    Text.lines (hideContinuations text) = (logicalLines text).map hideContinuations :=
  lines_replaceContinuations (by decide) (by decide) text

end HashTunnel
