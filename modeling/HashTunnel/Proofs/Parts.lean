import HashTunnel.Proofs.Directives
import HashTunnel.Wrap

/-! # Parts

A logical line of a host text is a directive line of the host, a comment directive or a plain line,
and `Part` says which. Wrapping changes each logical line by itself (`wrap_eq`): once the
continuations are back, nothing has moved across a line feed.
-/

namespace HashTunnel

/-- A logical line of a host text, by what wrapping makes of it. -/
inductive Part where
  /-- A directive line of the host, which is guarded. -/
  | guarded (line : Text) (directive : isDirective line = true)
  /-- A comment directive, which is split before its directive. -/
  | split (indent directive : Text) (blank : ∀ c ∈ indent, Text.isLineBlank c = true)
      (exposed : isDirective directive = true)
  /-- Any other line, which stays as it is. -/
  | plain (line : Text) (ordinary : isDirective line = false) (whole : commentDirective? line = none)
  deriving DecidableEq

/-- What wrapping makes of a logical line. -/
def partOf (line : Text) : Part :=
  if directive : isDirective line = true then .guarded line directive
  else
    match found : commentDirective? line with
    | some parts =>
      .split parts.1 parts.2 (blank_of_commentDirective? found) (eq_of_commentDirective? found).2
    | none => .plain line (by simpa using directive) found

namespace Part

/-- The logical line. -/
def line : Part → Text
  | guarded line _ => line
  | split indent directive _ _ => indent ++ '/' :: '/' :: '/' :: directive
  | plain line _ _ => line

/-- What an engine reads in the place that it may fill: the line with its line feed, or the exposed
    directive with its. -/
def own : Part → Text
  | guarded line _ => line ++ ['\n']
  | split _ directive _ _ => directive ++ ['\n']
  | plain line _ _ => line ++ ['\n']

/-- The part with its marker in place and `put` where the engine may put something. -/
def rewritten : Part → Text → Text
  | guarded _ _, put => Marker.guarded.text ++ put
  | split indent _ _ _, put => indent ++ Marker.split.text ++ '\n' :: put
  | plain _ _ _, put => put

end Part

theorem line_partOf (line : Text) : (partOf line).line = line := by
  unfold partOf
  split
  · rfl
  · split
    · rename_i found
      exact (eq_of_commentDirective? found).1.symm
    · rfl

/-- A logical line as wrapping leaves it. -/
def wrapLine (line : Text) : Text :=
  splitLine (guardLine line)

theorem splitLine_guarded (line : Text) :
    splitLine (Marker.guarded.text ++ line) = Marker.guarded.text ++ line := by
  have none : commentDirective? (Marker.guarded.text ++ line) = none := rfl
  simp [splitLine, none]

theorem wrapLine_append_newline (line : Text) :
    wrapLine line ++ ['\n'] = (partOf line).rewritten (partOf line).own := by
  unfold partOf wrapLine guardLine
  split
  · rw [splitLine_guarded]
    simp [Part.rewritten, Part.own]
  · split
    · rename_i found
      simp [splitLine, found, Part.rewritten, Part.own]
    · rename_i found
      simp [splitLine, found, Part.rewritten, Part.own]

private theorem guardLine_showContinuations (line : Text) :
    guardLine (showContinuations line) = showContinuations (guardLine line) := by
  unfold guardLine
  rw [isDirective_showContinuations]
  split
  · exact (showContinuations_append_of_solid (by decide) line).symm
  · rfl

private theorem splitLine_showContinuations (line : Text) :
    splitLine (showContinuations line) = showContinuations (splitLine line) := by
  unfold splitLine
  rw [commentDirective?_showContinuations]
  cases found : commentDirective? line with
  | none => rfl
  | some parts =>
    obtain ⟨indent, directive⟩ := parts
    have blank := blank_of_commentDirective? found
    have solid : '\uFFFE' ∉ indent ++ Marker.split.text ++ ['\n'] := by
      rw [List.append_assoc, List.mem_append, not_or]
      exact ⟨not_mem_of_blank rfl blank, by decide⟩
    have shown := showContinuations_append_of_solid solid directive
    simpa using shown.symm

theorem showContinuations_joinWith (pieces : List Text) :
    showContinuations (Text.joinWith '\n' pieces) = Text.joinWith '\n' (pieces.map showContinuations) := by
  induction pieces with
  | nil => rfl
  | cons piece pieces ih =>
    cases pieces with
    | nil => rfl
    | cons next pieces =>
      rw [Text.joinWith, showContinuations_append_newline, ih]
      · rfl
      · simp

theorem not_mem_guardLine {line : Text} (whole : '\n' ∉ line) : '\n' ∉ guardLine line := by
  unfold guardLine
  split
  · simp [Marker.text, whole]
  · exact whole

/-- Guarding and splitting change every line by itself. -/
private theorem mapLines_splitLine_guardLine (text : Text) :
    Text.mapLines splitLine (Text.mapLines guardLine text) =
      Text.joinWith '\n' ((Text.lines text).map wrapLine) := by
  have whole : ∀ piece ∈ (Text.lines text).map guardLine, '\n' ∉ piece := by
    intro piece member
    obtain ⟨line, inside, rfl⟩ := List.mem_map.mp member
    exact not_mem_guardLine (Text.not_mem_of_mem_lines inside)
  have inhabited : (Text.lines text).map guardLine ≠ [] := by
    simpa using Text.lines_ne_nil text
  simp only [Text.mapLines, Text.lines_joinWith inhabited whole, List.map_map]
  rfl

/-- A text is wrapped logical line by logical line, and each line gets its line feed back, the last
    one that of the text's own end. -/
theorem wrap_eq (text : Text) :
    wrap text = (logicalLines text).flatMap fun line => wrapLine (showContinuations line) ++ ['\n'] := by
  have steps : wrap text = showContinuations
      (Text.mapLines splitLine (Text.mapLines guardLine (hideContinuations text))) ++ ['\n'] := rfl
  have shown : ∀ line, showContinuations (wrapLine (hideContinuations line)) =
      wrapLine (showContinuations line) := by
    intro line
    rw [wrapLine, ← splitLine_showContinuations, ← guardLine_showContinuations,
      showContinuations_hideContinuations, wrapLine]
  have inhabited : (logicalLines text).map (fun line => wrapLine (showContinuations line)) ≠ [] := by
    simpa using logicalLines_ne_nil text
  rw [steps, mapLines_splitLine_guardLine, lines_hideContinuations, showContinuations_joinWith]
  simp only [List.map_map, Function.comp_def, shown]
  rw [Text.joinWith_append_newline inhabited, List.flatMap_map]

theorem isReserved_iff {c : Char} : isReserved c = true ↔ c = '\uFFFE' ∨ c = '\uFFFF' := by
  simp [isReserved, reservedPoints, continuationPoint, directivePoint]

/-- Holds of the texts without reserved points. -/
def ReservedFree (text : Text) : Prop :=
  ∀ c ∈ text, isReserved c = false

instance : DecidablePred ReservedFree := fun text =>
  decidable_of_iff (text.all fun c => !isReserved c) (by simp [ReservedFree])

theorem reservedFree_append {start rest : Text} :
    ReservedFree (start ++ rest) ↔ ReservedFree start ∧ ReservedFree rest := by
  simp [ReservedFree, or_imp, forall_and]

theorem ReservedFree.not_mem {text : Text} (free : ReservedFree text) {c : Char} (reserved : isReserved c = true) :
    c ∉ text := by
  intro member
  rw [free c member] at reserved
  contradiction

theorem ReservedFree.logicalLine {text : Text} (free : ReservedFree text) :
    ∀ line ∈ logicalLines text, ReservedFree line := by
  intro line member c inside
  refine free c ?_
  rw [← joinWith_logicalLines text]
  exact Text.mem_joinWith member inside

theorem showContinuations_of_free {text : Text} (free : ReservedFree text) : showContinuations text = text := by
  simpa [showContinuations] using showContinuations_append_of_solid (free.not_mem (by decide)) []

/-- Wrapping a text without reserved points puts a marker into its parts and does nothing else. -/
theorem wrap_of_free {text : Text} (free : ReservedFree text) :
    wrap text = ((logicalLines text).map partOf).flatMap fun part => part.rewritten part.own := by
  rw [wrap_eq, List.flatMap_map]
  refine List.flatMap_congr fun line member => ?_
  rw [showContinuations_of_free (free.logicalLine line member), wrapLine_append_newline]

end HashTunnel
