import HashTunnel.Proofs.RoundTrip
import HashTunnel.Tunnel

/-! # Engines that edit lines

An engine may delete, repeat, reorder and insert whole lines, and end them as it likes. Its output is
then no wrapped text, but every reserved point in it still begins a guard or a split marker with a line
break behind it (`LineEdited.marked`). Each pass of unwrapping keeps such a text in order and leaves out
its own marks, so nothing reserved is left at the end (`reservedFree_of_lineEdited`).
-/

namespace HashTunnel

/-- Every reserved point of the text begins one of the marks. -/
inductive Marked (marks : List Text) : Text → Prop where
  | nil : Marked marks []
  | char {c : Char} {rest : Text} : isReserved c = false → Marked marks rest → Marked marks (c :: rest)
  | mark {mark rest : Text} : mark ∈ marks → Marked marks rest → Marked marks (mark ++ rest)

/-- The marks that unwrapping looks for. -/
def directiveMarks : List Text :=
  guardMarks ++ splitMarks

theorem mem_splitMarks {mark : Text} :
    mark ∈ splitMarks ↔ ∃ ending, IsLineBreak ending ∧ mark = Marker.split.text ++ ending := by
  simp [splitMarks, IsLineBreak]

section Marks

variable {marks : List Text} {text : Text}

theorem ReservedFree.marked (free : ReservedFree text) : Marked marks text := by
  induction text with
  | nil => exact .nil
  | cons c text ih =>
    exact .char (free c List.mem_cons_self) (ih fun d member => free d (List.mem_cons_of_mem c member))

theorem Marked.append {start rest : Text} (first : Marked marks start) (second : Marked marks rest) :
    Marked marks (start ++ rest) := by
  induction first with
  | nil => exact second
  | char plain _ ih => exact .char plain ih
  | mark member _ ih =>
    rw [List.append_assoc]
    exact .mark member ih

theorem Marked.mono {more : List Text} (marked : Marked marks text) (included : marks ⊆ more) : Marked more text := by
  induction marked with
  | nil => exact .nil
  | char plain _ ih => exact .char plain ih
  | mark member _ ih => exact .mark (included member) ih

theorem marked_flatMap {α : Type} {items : List α} {f : α → Text} (each : ∀ item ∈ items, Marked marks (f item)) :
    Marked marks (items.flatMap f) := by
  induction items with
  | nil => exact .nil
  | cons item items ih =>
    rw [List.flatMap_cons]
    exact (each item List.mem_cons_self).append (ih fun other member => each other (List.mem_cons_of_mem item member))

end Marks

private theorem ne_of_not_reserved {c : Char} (plain : isReserved c = false) : c ≠ '\uFFFF' := by
  rintro rfl
  contradiction

/-- Rejoining takes split marks away and forms none. -/
theorem Marked.rejoinComments {text : Text} (marked : Marked directiveMarks text) :
    Marked directiveMarks (rejoinComments text) := by
  induction marked with
  | nil => exact .nil
  | char plain _ ih =>
    rw [rejoinComments_cons_of_ne (ne_of_not_reserved plain)]
    exact .char plain ih
  | @mark mark rest member _ ih =>
    rcases List.mem_append.mp member with guard | split
    · obtain rfl := List.mem_singleton.mp guard
      have guarded : Marked directiveMarks (Marker.guarded.text ++ HashTunnel.rejoinComments rest) :=
        .mark member ih
      simpa [Marker.text, HashTunnel.rejoinComments] using guarded
    · obtain ⟨ending, lineBreak, rfl⟩ := mem_splitMarks.mp split
      rw [rejoinComments_split lineBreak]
      split
      · exact Marked.append (ReservedFree.marked (by decide)) ih
      · exact .mark member ih

/-- Only guards are left when the split marks are dropped. -/
theorem Marked.dropSplits {text : Text} (marked : Marked directiveMarks text) :
    Marked guardMarks (dropSplits text) := by
  induction marked with
  | nil => exact .nil
  | char plain _ ih =>
    rw [dropSplits_cons_of_ne (ne_of_not_reserved plain)]
    exact .char plain ih
  | @mark mark rest member _ ih =>
    rcases List.mem_append.mp member with guard | split
    · obtain rfl := List.mem_singleton.mp guard
      have guarded : Marked guardMarks (Marker.guarded.text ++ HashTunnel.dropSplits rest) := .mark guard ih
      simpa [Marker.text, HashTunnel.dropSplits] using guarded
    · obtain ⟨ending, lineBreak, rfl⟩ := mem_splitMarks.mp split
      rw [dropSplits_split lineBreak]
      exact ih

theorem Marked.unguardDirectives {text : Text} (marked : Marked guardMarks text) :
    ReservedFree (unguardDirectives text) := by
  induction marked with
  | nil => exact fun c member => absurd member List.not_mem_nil
  | @char c rest plain _ ih =>
    rw [unguardDirectives_cons_of_ne (ne_of_not_reserved plain)]
    exact List.forall_mem_cons.mpr ⟨plain, ih⟩
  | @mark mark rest member _ ih =>
    obtain rfl := List.mem_singleton.mp member
    simpa [Marker.text, HashTunnel.unguardDirectives] using ih

theorem ReservedFree.trimNewline {text : Text} (free : ReservedFree text) : ReservedFree (trimNewline text) := by
  unfold HashTunnel.trimNewline
  split
  · exact fun c member => free c (List.dropLast_subset text member)
  · exact free

theorem Marked.unwrap {text : Text} (marked : Marked directiveMarks text) : ReservedFree (unwrap text) :=
  marked.rejoinComments.dropSplits.unguardDirectives.trimNewline

/-- Reserved points begin guards in the line, or the split marker at its end. -/
def Legible (line : Text) : Prop :=
  Marked guardMarks line ∨ ∃ start, Marked guardMarks start ∧ line = start ++ Marker.split.text

/-- The marks of a wrapped text. -/
def wrapMarks : List Text :=
  guardMarks ++ [Marker.split.text ++ ['\n']]

/-- Wrapping a text without reserved points puts guards and split markers with a line feed in it. -/
theorem marked_wrap {host : Text} (free : ReservedFree host) : Marked wrapMarks (wrap host) := by
  rw [wrap_of_free free, List.flatMap_map]
  refine marked_flatMap fun line member => ?_
  have lineFree : ReservedFree (partOf line).line := by
    rw [line_partOf]
    exact free.logicalLine line member
  have own : Marked wrapMarks (partOf line).own := (Part.reservedFree_own lineFree).marked
  cases part : partOf line with
  | guarded line directive =>
    rw [part] at own
    exact .mark (by simp [wrapMarks, guardMarks]) own
  | split indent directive blank exposed =>
    rw [part] at own lineFree
    have front : Marked wrapMarks indent := (reservedFree_append.mp lineFree).1.marked
    have marker : Marker.split.text ++ ['\n'] ∈ wrapMarks := by simp [wrapMarks]
    simpa [Part.rewritten] using front.append (.mark marker own)
  | plain line ordinary whole =>
    rw [part] at own
    exact own

theorem Legible.prepend {start line : Text} (first : Marked guardMarks start) (legible : Legible line) :
    Legible (start ++ line) := by
  rcases legible with marked | ⟨more, marked, rfl⟩
  · exact .inl (first.append marked)
  · exact .inr ⟨start ++ more, first.append marked, (List.append_assoc start more _).symm⟩

/-- Where split markers end their lines, no mark is cut when the text is cut into lines. -/
theorem Marked.legible {text : Text} (marked : Marked wrapMarks text) : ∀ line ∈ Text.lines text, Legible line := by
  induction marked with
  | nil => exact List.forall_mem_singleton.mpr (.inl .nil)
  | @char c rest plain _ ih =>
    by_cases feed : c = '\n'
    · subst feed
      rw [← List.nil_append ('\n' :: rest), Text.lines_append_newline List.not_mem_nil]
      exact List.forall_mem_cons.mpr ⟨.inl .nil, ih⟩
    · obtain ⟨line, later, lined⟩ := List.exists_cons_of_ne_nil (Text.lines_ne_nil rest)
      have single : '\n' ∉ [c] := by simpa using Ne.symm feed
      have cut : Text.lines ([c] ++ rest) = ([c] ++ line) :: later := Text.lines_append_of_not_mem single lined
      rw [lined, List.forall_mem_cons] at ih
      rw [← List.singleton_append, cut, List.forall_mem_cons]
      exact ⟨ih.1.prepend (.char plain .nil), ih.2⟩
  | @mark mark rest member _ ih =>
    rcases List.mem_append.mp member with guard | split
    · obtain rfl := List.mem_singleton.mp guard
      obtain ⟨line, later, lined⟩ := List.exists_cons_of_ne_nil (Text.lines_ne_nil rest)
      have guarded : Marked guardMarks Marker.guarded.text :=
        List.append_nil Marker.guarded.text ▸ .mark guard .nil
      rw [lined, List.forall_mem_cons] at ih
      rw [Text.lines_append_of_not_mem (by decide) lined, List.forall_mem_cons]
      exact ⟨ih.1.prepend guarded, ih.2⟩
    -- The text is cut right behind the marker, by the line feed that belongs to the mark.
    · obtain rfl := List.mem_singleton.mp split
      rw [List.append_assoc, List.singleton_append, Text.lines_append_newline (by decide), List.forall_mem_cons]
      exact ⟨.inr ⟨[], .nil, rfl⟩, ih⟩

theorem Legible.append_lineBreak {line ending : Text} (legible : Legible line) (lineBreak : IsLineBreak ending) :
    Marked directiveMarks (line ++ ending) := by
  have free : ReservedFree ending := by
    rcases lineBreak with rfl | rfl
    · decide
    · decide
  rcases legible with marked | ⟨start, marked, rfl⟩
  · exact (marked.mono (List.subset_append_left _ _)).append free.marked
  · have split : Marker.split.text ++ ending ∈ directiveMarks :=
      List.mem_append_right guardMarks (mem_splitMarks.mpr ⟨ending, lineBreak, rfl⟩)
    have ended : Marked directiveMarks (Marker.split.text ++ ending ++ []) := .mark split .nil
    rw [List.append_nil] at ended
    rw [List.append_assoc]
    exact (marked.mono (List.subset_append_left _ _)).append ended

/-- No guard ends in a carriage return, so one at the end of a line can be left out. -/
private theorem Marked.of_append_return {line : Text} (marked : Marked guardMarks (line ++ ['\r'])) :
    Marked guardMarks line := by
  generalize shape : line ++ ['\r'] = whole at marked
  induction marked generalizing line with
  | nil => simp at shape
  | @char c rest plain _ ih =>
    cases line with
    | nil => exact .nil
    | cons d line =>
      obtain ⟨rfl, same⟩ := List.cons.inj shape
      exact .char plain (ih same)
  | @mark mark rest member _ ih =>
    rcases List.eq_nil_or_concat rest with rfl | ⟨start, last, rfl⟩
    -- A guard at the very end has its semicolon where the carriage return should be.
    · obtain rfl := List.mem_singleton.mp member
      have ends := congrArg List.getLast? shape
      simp [Marker.text] at ends
    · rw [List.concat_eq_append, ← List.append_assoc] at shape
      obtain ⟨rfl, same⟩ := List.append_inj' shape rfl
      exact .mark member (ih (by rw [same, List.concat_eq_append]))

theorem Legible.of_append_return {line : Text} (legible : Legible (line ++ ['\r'])) : Legible line := by
  rcases legible with marked | ⟨start, -, shape⟩
  · exact .inl marked.of_append_return
  · have last := congrArg List.getLast? shape
    simp [Marker.text] at last

/-- Whole lines, each with a line break of its own: lines of the source, with or without the carriage
    return at their ends, and lines without reserved points. -/
def LineEdited (source output : Text) : Prop :=
  ∃ lines : List (Text × Text),
    (∀ line ∈ lines, IsLineBreak line.2 ∧
      (line.1 ∈ Text.lines source ∨ line.1 ++ ['\r'] ∈ Text.lines source ∨ ReservedFree line.1)) ∧
    output = lines.flatMap fun line => line.1 ++ line.2

/-- However the lines of a wrapped text are edited, unwrapping finds every mark whole. -/
theorem LineEdited.marked {host output : Text} (free : ReservedFree host) (edited : LineEdited (wrap host) output) :
    Marked directiveMarks output := by
  obtain ⟨lines, known, rfl⟩ := edited
  refine marked_flatMap fun line member => ?_
  obtain ⟨lineBreak, source⟩ := known line member
  have legible : Legible line.1 := by
    rcases source with whole | returned | inserted
    · exact (marked_wrap free).legible line.1 whole
    · exact ((marked_wrap free).legible _ returned).of_append_return
    · exact .inl inserted.marked
  exact legible.append_lineBreak lineBreak

/-- Every result of the action has the property. -/
def Yields {m : Type → Type} [Functor m] {α : Type} (property : α → Prop) (action : m α) : Prop :=
  ∃ checked : m {result : α // property result}, Subtype.val <$> checked = action

section Actions

variable {m : Type → Type} [Monad m] [LawfulMonad m] {α β : Type} {p : α → Prop} {q : β → Prop}

theorem yields_pure {result : α} (holds : p result) : Yields p (pure result : m α) :=
  ⟨pure ⟨result, holds⟩, map_pure _ _⟩

theorem Yields.bind_pure {action : m α} (yields : Yields p action) {f : α → β} (keeps : ∀ result, p result → q (f result)) :
    Yields q (action >>= fun result => pure (f result)) := by
  obtain ⟨checked, rfl⟩ := yields
  refine ⟨(fun result => ⟨f result.1, keeps result.1 result.2⟩) <$> checked, ?_⟩
  simp

end Actions

theorem firstReserved_eq_none_iff {text : Text} : firstReserved text = none ↔ ReservedFree text := by
  have found := firstReservedFrom_isSome_iff Position.start text
  rw [← not_iff_not, ← ne_eq, Option.ne_none_iff_isSome, firstReserved, found]
  simp [ReservedFree]

/-- An engine that edits whole lines leaks no reserved point: none is left in what unwrapping gives, nor
    in what a strict run through such an engine gives if it gives a text at all. -/
theorem reservedFree_of_lineEdited (host : Text) :
    (ReservedFree host → ∀ output, LineEdited (wrap host) output → ReservedFree (unwrap output)) ∧
      ∀ {m : Type → Type} [Monad m] [LawfulMonad m] (tunnel : Tunnel m), tunnel.strict = true →
        Yields (fun expansion => ∀ output, expansion.result = .ok output → LineEdited (wrap host) output)
          (tunnel.engine (wrap host)) →
        Yields (fun expansion => ∀ output, expansion.result = .ok output → ReservedFree output)
          (tunnel.run .full host) := by
  constructor
  · intro free output edited
    exact (edited.marked free).unwrap
  · intro m _ _ tunnel strict edits
    unfold Tunnel.run examine
    rw [strict]
    cases found : firstReserved host with
    | some occurrence =>
      refine yields_pure fun output given => ?_
      simp [Expansion.fail] at given
    | none =>
      have free := firstReserved_eq_none_iff.mp found
      refine edits.bind_pure fun expansion edited output given => ?_
      obtain ⟨⟨failure⟩ | ⟨text⟩, warnings⟩ := expansion
      · simp [Expansion.map, Expansion.warnedBy, Except.map] at given
      · simp only [Expansion.map, Expansion.warnedBy, Except.map, Except.ok.injEq] at given
        rw [← given]
        exact ((edited text rfl).marked free).unwrap

theorem reservedFree_of_lineEdited_reversed :
    ReservedFree (unwrap "\uFFFF17;#b\r\n#if A\r\nx\n \uFFFF91;\r\n \uFFFF91;\n".toList) ∧
      Yields (fun expansion => ∀ output, expansion.result = .ok output → ReservedFree output)
        (Tunnel.run (m := Id) ⟨.ofFunction fun wrapped =>
          .ok ((Text.lines wrapped).reverse.flatMap (· ++ ['\r', '\n'])), true⟩ .full " ///#if A\r\n#b".toList) := by
  have leaks := reservedFree_of_lineEdited " ///#if A\r\n#b".toList
  constructor
  · refine leaks.1 (by decide) _ ⟨[("\uFFFF17;#b".toList, "\r\n".toList), ("#if A".toList, "\r\n".toList),
      ("x".toList, "\n".toList), (" \uFFFF91;".toList, "\r\n".toList), (" \uFFFF91;".toList, "\n".toList)], ?_, ?_⟩
    · decide
    · decide
  · refine leaks.2 _ rfl ⟨⟨_, ?_⟩, rfl⟩
    intro output given
    refine ⟨(Text.lines (wrap " ///#if A\r\n#b".toList)).reverse.map fun line => (line, "\r\n".toList), ?_, ?_⟩
    · decide
    · rw [List.flatMap_map]
      exact (Except.ok.inj given).symm

end HashTunnel
