import HashTunnel.Proofs.Parts
import HashTunnel.Unwrap

/-! # Rewritten parts

An engine that keeps the markers of a wrapped text may put other texts in the places between them.
Unwrapping then leaves these texts where they are, with the slashes of a comment directive put back
where the engine still has a directive behind its marker (`unwrap_of_edits`). A marker whose text has
become empty stands right before the next part; no part begins like a directive, so the marker is
never taken for that of a neighbour.
-/

namespace HashTunnel

/-- An engine's output without its markers, before the end is trimmed. -/
def strip (text : Text) : Text :=
  unguardDirectives (dropSplits (rejoinComments text))

theorem unwrap_eq (text : Text) : unwrap text = trimNewline (strip text) := rfl

theorem rejoinComments_cons_of_ne {c : Char} (other : c ≠ '\uFFFF') (rest : Text) :
    rejoinComments (c :: rest) = c :: rejoinComments rest := by
  rw [rejoinComments]
  · exact fun _ same => absurd same other
  · exact fun _ same => absurd same other

theorem rejoinComments_append_of_not_mem {start : Text} (absent : '\uFFFF' ∉ start) (rest : Text) :
    rejoinComments (start ++ rest) = start ++ rejoinComments rest :=
  pass_append_of_not_mem (fun _ rest other => rejoinComments_cons_of_ne other rest) absent rest

theorem dropSplits_cons_of_ne {c : Char} (other : c ≠ '\uFFFF') (rest : Text) :
    dropSplits (c :: rest) = c :: dropSplits rest := by
  rw [dropSplits]
  · exact fun _ same => absurd same other
  · exact fun _ same => absurd same other

theorem unguardDirectives_cons_of_ne {c : Char} (other : c ≠ '\uFFFF') (rest : Text) :
    unguardDirectives (c :: rest) = c :: unguardDirectives rest := by
  rw [unguardDirectives]
  exact fun _ same => absurd same other

theorem strip_append_of_not_mem {start : Text} (absent : '\uFFFF' ∉ start) (rest : Text) :
    strip (start ++ rest) = start ++ strip rest := by
  refine pass_append_of_not_mem (fun c rest other => ?_) absent rest
  rw [strip, rejoinComments_cons_of_ne other, dropSplits_cons_of_ne other, unguardDirectives_cons_of_ne other]
  rfl

theorem strip_guarded (rest : Text) : strip (Marker.guarded.text ++ rest) = strip rest := by
  simp [strip, Marker.text, rejoinComments, dropSplits, unguardDirectives]

/-- A line feed, or a carriage return and a line feed. -/
def IsLineBreak (ending : Text) : Prop :=
  ending = ['\n'] ∨ ending = ['\r', '\n']

instance : DecidablePred IsLineBreak := fun ending =>
  inferInstanceAs (Decidable (ending = ['\n'] ∨ ending = ['\r', '\n']))

theorem rejoinComments_split {ending : Text} (lineBreak : IsLineBreak ending) (rest : Text) :
    rejoinComments (Marker.split.text ++ ending ++ rest) =
      (if isDirective rest then ['/', '/', '/'] else Marker.split.text ++ ending) ++ rejoinComments rest := by
  rcases lineBreak with rfl | rfl
  · simp [Marker.text, rejoinComments]
  · simp [Marker.text, rejoinComments]

theorem dropSplits_split {ending : Text} (lineBreak : IsLineBreak ending) (rest : Text) :
    dropSplits (Marker.split.text ++ ending ++ rest) = dropSplits rest := by
  rcases lineBreak with rfl | rfl
  · simp [Marker.text, dropSplits]
  · simp [Marker.text, dropSplits]

/-- Of a split marker and its line break nothing is left but the slashes, if a directive follows. -/
theorem strip_split {ending : Text} (lineBreak : IsLineBreak ending) (rest : Text) :
    strip (Marker.split.text ++ ending ++ rest) =
      if isDirective rest then '/' :: '/' :: '/' :: strip rest else strip rest := by
  rw [strip, rejoinComments_split lineBreak]
  cases exposed : isDirective rest with
  | true => simp [strip, dropSplits, unguardDirectives]
  | false =>
    simp only [Bool.false_eq_true, if_false]
    rw [dropSplits_split lineBreak]
    rfl

/-- Holds of the empty text and of the texts that end in a line feed. -/
def Closed (text : Text) : Prop :=
  text = [] ∨ ['\n'] <:+ text

instance : DecidablePred Closed := fun text =>
  inferInstanceAs (Decidable (text = [] ∨ ['\n'] <:+ text))

theorem Closed.of_append (start : Text) {rest : Text} (closed : Closed (start ++ rest)) : Closed rest := by
  rcases closed with none | ends
  · exact .inl (List.append_eq_nil_iff.mp none).2
  · cases rest with
    | nil => exact .inl rfl
    | cons c rest =>
      exact .inr (List.suffix_of_suffix_length_le ends (List.suffix_append start (c :: rest)) (by simp))

namespace Part

/-- A text that leaves the markers around it legible: anything behind a guard, otherwise whole lines, of
    which the first does not look like a directive unless a split marker is right before it. -/
def Fits : Part → Text → Prop
  | guarded _ _, _ => True
  | split _ _ _ _, put => Closed put
  | plain _ _ _, put => Closed put ∧ isDirective put = false

/-- What an engine may put into a part. -/
def Admits (part : Part) (put : Text) : Prop :=
  ReservedFree put ∧ part.Fits put

instance (part : Part) : DecidablePred part.Fits := fun put =>
  match part with
  | guarded _ _ => inferInstanceAs (Decidable True)
  | split _ _ _ _ => inferInstanceAs (Decidable (Closed put))
  | plain _ _ _ => inferInstanceAs (Decidable (Closed put ∧ isDirective put = false))

instance (part : Part) : DecidablePred part.Admits := fun put =>
  inferInstanceAs (Decidable (ReservedFree put ∧ part.Fits put))

/-- What comes back of a part into which an engine has put `put`. -/
def restored : Part → Text → Text
  | guarded _ _, put => put
  | split indent _ _ _, put => indent ++ if isDirective put then '/' :: '/' :: '/' :: put else put
  | plain _ _ _, put => put

/-- What stands in a part already fits. -/
theorem fits_own (part : Part) : part.Fits part.own := by
  cases part with
  | guarded line directive => trivial
  | split indent directive blank exposed => exact .inr (List.suffix_append directive ['\n'])
  | plain line ordinary whole =>
    refine ⟨.inr (List.suffix_append line ['\n']), ?_⟩
    rw [own, isDirective_append_newline, ordinary]

theorem fits_nil (part : Part) : part.Fits [] := by
  cases part with
  | guarded line directive => trivial
  | split indent directive blank exposed => exact .inl rfl
  | plain line ordinary whole => exact ⟨.inl rfl, rfl⟩

theorem reservedFree_own {part : Part} (free : ReservedFree part.line) : ReservedFree part.own := by
  cases part with
  | guarded line directive => exact reservedFree_append.mpr ⟨free, by decide⟩
  | split indent directive blank exposed =>
    intro c member
    simp only [own, List.mem_append, List.mem_singleton] at member
    rcases member with inside | rfl
    · exact free c (by simp [line, inside])
    · rfl
  | plain line ordinary whole => exact reservedFree_append.mpr ⟨free, by decide⟩

/-- A part in which nothing has been changed comes back as its line. -/
theorem restored_own (part : Part) : part.restored part.own = part.line ++ ['\n'] := by
  cases part with
  | guarded line directive => rfl
  | split indent directive blank exposed =>
    simp [restored, own, line, isDirective_append_newline, exposed]
  | plain line ordinary whole => rfl

end Part

/-- What follows whole lines decides nothing about them, unless there are none. -/
theorem isDirective_closed_append {put : Text} (closed : Closed put) {rest : Text}
    (after : isDirective rest = false) : isDirective (put ++ rest) = isDirective put := by
  rcases closed with rfl | ⟨lines, rfl⟩
  · exact after
  · rw [List.append_assoc, List.singleton_append, isDirective_append_newline, isDirective_append_newline]

/-- No part begins like a directive, whatever is put into it. -/
theorem isDirective_rewritten {part : Part} {put : Text} (fits : part.Fits put) {rest : Text}
    (after : isDirective rest = false) : isDirective (part.rewritten put ++ rest) = false := by
  cases part with
  | guarded line directive => rfl
  | split indent directive blank exposed =>
    simp only [Part.rewritten, List.append_assoc]
    rw [isDirective_blank_append blank]
    rfl
  | plain line ordinary whole =>
    obtain ⟨closed, ordinary⟩ := fits
    rw [Part.rewritten, isDirective_closed_append closed after, ordinary]

/-- One part is stripped apart from what follows, which must not begin like a directive itself. -/
theorem strip_rewritten {part : Part} {put : Text} (admitted : part.Admits put) {rest : Text}
    (after : isDirective rest = false) :
    strip (part.rewritten put ++ rest) = part.restored put ++ strip rest := by
  obtain ⟨free, fits⟩ := admitted
  have inner : strip (put ++ rest) = put ++ strip rest :=
    strip_append_of_not_mem (free.not_mem (by decide)) rest
  cases part with
  | guarded line directive =>
    rw [Part.rewritten, List.append_assoc, strip_guarded, inner]
    rfl
  | split indent directive blank exposed =>
    have absent : '\uFFFF' ∉ indent := not_mem_of_blank rfl blank
    have shape : (Part.split indent directive blank exposed).rewritten put ++ rest =
        indent ++ (Marker.split.text ++ ['\n'] ++ (put ++ rest)) := by
      simp [Part.rewritten]
    rw [shape, strip_append_of_not_mem absent, strip_split (.inl rfl), isDirective_closed_append fits after, inner]
    cases still : isDirective put <;> simp [Part.restored, still]
  | plain line ordinary whole => exact inner

theorem isDirective_edits {edits : List (Part × Text)} (admitted : ∀ edit ∈ edits, edit.1.Admits edit.2) :
    isDirective (edits.flatMap fun edit => edit.1.rewritten edit.2) = false := by
  induction edits with
  | nil => rfl
  | cons edit edits ih =>
    have later := ih fun other member => admitted other (List.mem_cons_of_mem _ member)
    exact isDirective_rewritten (admitted edit List.mem_cons_self).2 later

theorem strip_edits {edits : List (Part × Text)} (admitted : ∀ edit ∈ edits, edit.1.Admits edit.2) :
    strip (edits.flatMap fun edit => edit.1.rewritten edit.2) =
      edits.flatMap fun edit => edit.1.restored edit.2 := by
  induction edits with
  | nil => rfl
  | cons edit edits ih =>
    have others : ∀ other ∈ edits, other.1.Admits other.2 :=
      fun other member => admitted other (List.mem_cons_of_mem _ member)
    rw [List.flatMap_cons, strip_rewritten (admitted edit List.mem_cons_self) (isDirective_edits others),
      ih others]
    rfl

/-- Any engine that keeps the markers and fills the places between them with admitted texts gets
    exactly these texts through the tunnel, in order and with nothing of the markers left. -/
theorem unwrap_of_edits {host : Text} (free : ReservedFree host) (engine : Text → Text)
    {edits : List (Part × Text)} (parts : edits.map Prod.fst = (logicalLines host).map partOf)
    (admitted : ∀ edit ∈ edits, edit.1.Admits edit.2)
    (answers : engine (wrap host) = edits.flatMap fun edit => edit.1.rewritten edit.2) :
    (wrap host = edits.flatMap fun edit => edit.1.rewritten edit.1.own) ∧
      unwrap (engine (wrap host)) = trimNewline (edits.flatMap fun edit => edit.1.restored edit.2) := by
  constructor
  · rw [wrap_of_free free, ← parts, List.flatMap_map]
  · rw [unwrap_eq, answers, strip_edits admitted]

theorem unwrap_of_edits_replacing :
    wrap "#b\n ///#if A\nb\n ///#b\n".toList = "\uFFFF17;#b\n \uFFFF91;\n#if A\nb\n \uFFFF91;\n#b\n\n".toList ∧
      unwrap (Text.replace "#if A\n".toList [] (Text.replace "b".toList "c d".toList
        (wrap "#b\n ///#if A\nb\n ///#b\n".toList))) = "#c d\n c d\n ///#c d\n".toList := by
  have parts : [(partOf "#b".toList, "#c d\n".toList), (partOf " ///#if A".toList, []),
      (partOf "b".toList, "c d\n".toList), (partOf " ///#b".toList, "#c d\n".toList),
      (partOf [], "\n".toList)].map Prod.fst = (logicalLines "#b\n ///#if A\nb\n ///#b\n".toList).map partOf := by decide
  have carried := unwrap_of_edits (by decide)
    (fun wrapped => Text.replace "#if A\n".toList [] (Text.replace "b".toList "c d".toList wrapped))
    parts (by simp only [List.forall_mem_cons]; decide) (by decide)
  -- The host text ends in a line feed, so the result ends in two of them before the last one is removed.
  exact ⟨carried.1.trans (by decide), carried.2.trans (by decide)⟩

end HashTunnel
