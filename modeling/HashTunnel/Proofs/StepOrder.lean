import HashTunnel.Proofs.LineEdits
import HashTunnel.Proofs.Scanning

/-! # The order of unwrapping

Unwrapping resolves the split markers before it removes the guards. With the guards removed first, a text is
scanned in the same way but for the question that is asked behind a split marker: whether a directive follows
there once its guards are gone (`stripUnguarded_eq_scanBy`). The two orders give the same text unless that
makes a difference, which is where a split marker is followed by a line that a guard has hidden
(`unguardFirst_eq_unwrap_iff`).
-/

namespace HashTunnel

namespace UnwrapStep

/-- What the steps make of a text, one after the other. -/
def applyAll (steps : List UnwrapStep) (text : Text) : Text :=
  steps.foldl (fun text step => step.apply text) text

/-- The steps in the order that removes the guards first. -/
def unguardFirst : List UnwrapStep :=
  [unguardDirectives, rejoinComments, dropSplits, trimNewline]

end UnwrapStep

/-- An engine's output without its markers when the guards go first, before the end is trimmed. -/
def stripUnguarded (text : Text) : Text :=
  dropSplits (rejoinComments (unguardDirectives text))

theorem applyAll_unguardFirst (text : Text) :
    UnwrapStep.applyAll UnwrapStep.unguardFirst text = trimNewline (stripUnguarded text) := rfl

/-- Blanks of one line and guards, in any order. -/
def GuardedRun (run : List Text) : Prop :=
  ∀ piece ∈ run, piece = Marker.guarded.text ∨ ∃ c, Text.isLineBlank c = true ∧ piece = [c]

/-- Holds of what begins with blanks and at least one guard right before a hash sign. -/
def Screened (text : Text) : Prop :=
  ∃ run after, GuardedRun run ∧ Marker.guarded.text ∈ run ∧ text = run.flatten ++ '#' :: after

theorem ne_point_of_isLineBlank {c : Char} (blank : Text.isLineBlank c = true) : c ≠ '\uFFFF' := by
  rintro rfl
  contradiction

theorem unguardDirectives_guarded (rest : Text) :
    unguardDirectives (Marker.guarded.text ++ rest) = unguardDirectives rest := by
  simp [Marker.text, unguardDirectives]

theorem isDirective_unguardDirectives_iff {text : Text} :
    isDirective (unguardDirectives text) = true ↔ ∃ run after, GuardedRun run ∧ text = run.flatten ++ '#' :: after := by
  constructor
  · intro directive
    fun_induction unguardDirectives text with
    | case1 rest ih =>
      obtain ⟨run, after, pieces, rfl⟩ := ih directive
      exact ⟨Marker.guarded.text :: run, after, List.forall_mem_cons.mpr ⟨.inl rfl, pieces⟩, rfl⟩
    | case2 c rest notGuard ih =>
      rw [isDirective_cons] at directive
      split at directive
      · rename_i blank
        obtain ⟨run, after, pieces, rfl⟩ := ih directive
        exact ⟨[c] :: run, after, List.forall_mem_cons.mpr ⟨.inr ⟨c, blank, rfl⟩, pieces⟩, rfl⟩
      · obtain rfl : c = '#' := by simpa using directive
        exact ⟨[], rest, List.forall_mem_nil _, rfl⟩
    | case3 => simp [isDirective] at directive
  · rintro ⟨run, after, pieces, rfl⟩
    induction run with
    | nil => rw [List.flatten_nil, List.nil_append, unguardDirectives_cons_of_ne (by decide)]; rfl
    | cons piece run ih =>
      obtain ⟨first, later⟩ := List.forall_mem_cons.mp pieces
      rw [List.flatten_cons, List.append_assoc]
      rcases first with rfl | ⟨c, blank, rfl⟩
      · rw [unguardDirectives_guarded]
        exact ih later
      · rw [List.singleton_append, unguardDirectives_cons_of_ne (ne_point_of_isLineBlank blank), isDirective_cons,
          if_pos blank]
        exact ih later

theorem isDirective_run {run : List Text} (pieces : GuardedRun run) (after : Text) :
    isDirective (run.flatten ++ '#' :: after) = true ↔ Marker.guarded.text ∉ run := by
  induction run with
  | nil => simp [isDirective_hash]
  | cons piece run ih =>
    obtain ⟨first, later⟩ := List.forall_mem_cons.mp pieces
    rw [List.flatten_cons, List.append_assoc, List.mem_cons, not_or]
    rcases first with rfl | ⟨c, blank, rfl⟩
    · have hidden : isDirective (Marker.guarded.text ++ (run.flatten ++ '#' :: after)) = false := rfl
      simp [hidden]
    · rw [List.singleton_append, isDirective_cons, if_pos blank, ih later]
      simp [Marker.text]

theorem screened_iff {text : Text} :
    Screened text ↔ isDirective text = false ∧ isDirective (unguardDirectives text) = true := by
  rw [isDirective_unguardDirectives_iff]
  constructor
  · rintro ⟨run, after, pieces, guard, rfl⟩
    refine ⟨?_, run, after, pieces, rfl⟩
    rw [Bool.eq_false_iff, ne_eq, isDirective_run pieces]
    exact not_not_intro guard
  · rintro ⟨hidden, run, after, pieces, rfl⟩
    rw [Bool.eq_false_iff, ne_eq, isDirective_run pieces, not_not] at hidden
    exact ⟨run, after, pieces, hidden, rfl⟩

theorem isDirective_unguardDirectives_of_isDirective {text : Text} (directive : isDirective text = true) :
    isDirective (unguardDirectives text) = true := by
  induction text with
  | nil => simp [isDirective] at directive
  | cons c rest ih =>
    rw [isDirective_cons] at directive
    split at directive
    · rename_i blank
      rw [unguardDirectives_cons_of_ne (ne_point_of_isLineBlank blank), isDirective_cons, if_pos blank]
      exact ih directive
    · obtain rfl : c = '#' := by simpa using directive
      rw [unguardDirectives_cons_of_ne (by decide)]
      rfl

theorem WellMarked.bare {text : Text} (marked : WellMarked directiveMarks text) : WellMarked bareMarks text := by
  refine marked.mono fun mark member => ?_
  rcases List.mem_append.mp member with guard | split
  · exact ⟨mark, List.mem_append_left [Marker.split.text] guard, List.prefix_rfl⟩
  · obtain ⟨ending, -, rfl⟩ := mem_splitMarks.mp split
    exact ⟨Marker.split.text, by simp [bareMarks], List.prefix_append _ ending⟩

theorem stripUnguarded_cons_of_ne {c : Char} (other : c ≠ '\uFFFF') (rest : Text) :
    stripUnguarded (c :: rest) = c :: stripUnguarded rest := by
  rw [stripUnguarded, unguardDirectives_cons_of_ne other, rejoinComments_cons_of_ne other, dropSplits_cons_of_ne other]
  rfl

theorem stripUnguarded_split {ending : Text} (lineBreak : IsLineBreak ending) (rest : Text) :
    stripUnguarded (Marker.split.text ++ ending ++ rest) =
      (if isDirective (unguardDirectives rest) then ['/', '/', '/'] else []) ++ stripUnguarded rest := by
  have passed : unguardDirectives (Marker.split.text ++ ending ++ rest) =
      Marker.split.text ++ ending ++ unguardDirectives rest := by
    rcases lineBreak with rfl | rfl
    · simp [Marker.text, unguardDirectives]
    · simp [Marker.text, unguardDirectives]
  rw [stripUnguarded, passed, rejoinComments_split lineBreak]
  split
  · rfl
  · rw [dropSplits_split lineBreak]
    rfl

/-- With the guards gone first, a split marker is made a comment if a directive follows without its guards. -/
theorem stripUnguarded_eq_scanBy {text : Text} (marked : WellMarked directiveMarks text) :
    stripUnguarded text = scanBy (fun rest => isDirective (unguardDirectives rest)) text := by
  fun_induction scanBy (fun rest => isDirective (unguardDirectives rest)) text with
  | case1 rest ih =>
    rw [← ih (marked.of_append Marker.guarded.text)]
    exact congrArg (dropSplits <| rejoinComments ·) (unguardDirectives_guarded rest)
  | case2 rest ih =>
    rw [← ih (marked.of_append (Marker.split.text ++ ['\n']))]
    exact stripUnguarded_split (.inl rfl) rest
  | case3 rest ih =>
    rw [← ih (marked.of_append (Marker.split.text ++ ['\r', '\n']))]
    exact stripUnguarded_split (.inr rfl) rest
  | case4 c rest notGuard notLf notCrlf ih =>
    have other : c ≠ '\uFFFF' := by
      rintro rfl
      obtain ⟨mark, member, after, shape⟩ := marked.exists_mark
      simp only [directiveMarks, guardMarks, splitMarks, List.mem_append, List.mem_cons, List.not_mem_nil, or_false]
        at member
      rcases member with rfl | rfl | rfl
      · exact notGuard after rfl (List.cons.inj shape).2.symm
      · exact notLf after rfl (List.cons.inj shape).2.symm
      · exact notCrlf after rfl (List.cons.inj shape).2.symm
    rw [stripUnguarded_cons_of_ne other, ih (marked.of_append [c])]
  | case5 => rfl

/-- What follows a split marker and its line break somewhere in the text. -/
def BehindSplit (text rest : Text) : Prop :=
  ∃ ending, IsLineBreak ending ∧ Marker.split.text ++ ending ++ rest <:+ text

theorem behindSplit_cons {c : Char} {text : Text}
    (apart : ∀ ending, IsLineBreak ending → ¬ Marker.split.text ++ ending <+: c :: text) (rest : Text) :
    BehindSplit (c :: text) rest ↔ BehindSplit text rest := by
  refine exists_congr fun ending => and_congr_right fun lineBreak => ?_
  rw [List.suffix_cons_iff]
  refine or_iff_right fun same => apart ending lineBreak ?_
  exact ⟨rest, same⟩

/-- A character that begins no split marker with a line break is no part of one. -/
theorem behindSplit_cons_of_ne {c : Char} {text : Text}
    (notLf : ∀ after, c = '\uFFFF' → text = '9' :: '1' :: ';' :: '\n' :: after → False)
    (notCrlf : ∀ after, c = '\uFFFF' → text = '9' :: '1' :: ';' :: '\r' :: '\n' :: after → False) (rest : Text) :
    BehindSplit (c :: text) rest ↔ BehindSplit text rest := by
  refine behindSplit_cons ?_ rest
  rintro ending (rfl | rfl) ⟨later, shape⟩
  · obtain ⟨rfl, rfl⟩ := List.cons.inj shape
    exact notLf later rfl rfl
  · obtain ⟨rfl, rfl⟩ := List.cons.inj shape
    exact notCrlf later rfl rfl

theorem not_behindSplit_nil (rest : Text) : ¬ BehindSplit [] rest := by
  rintro ⟨ending, -, suffix⟩
  have none := List.suffix_nil.mp suffix
  simp [Marker.text] at none

theorem behindSplit_append_of_not_mem {start : Text} (absent : '\uFFFF' ∉ start) (text rest : Text) :
    BehindSplit (start ++ text) rest ↔ BehindSplit text rest := by
  induction start with
  | nil => rfl
  | cons c start ih =>
    rw [List.mem_cons, not_or] at absent
    rw [List.cons_append, behindSplit_cons, ih absent.2]
    rintro ending - ⟨after, shape⟩
    exact absent.1 (List.cons.inj shape).1

theorem behindSplit_guarded (text rest : Text) :
    BehindSplit (Marker.guarded.text ++ text) rest ↔ BehindSplit text rest := by
  have tag := behindSplit_append_of_not_mem (by decide : '\uFFFF' ∉ ['1', '7', ';']) text rest
  rw [← tag]
  refine behindSplit_cons ?_ rest
  rintro ending - ⟨after, shape⟩
  have second := (List.cons.inj (List.cons.inj shape).2).1
  exact absurd second (by decide)

theorem behindSplit_split {ending : Text} (lineBreak : IsLineBreak ending) (text rest : Text) :
    BehindSplit (Marker.split.text ++ ending ++ text) rest ↔ rest = text ∨ BehindSplit text rest := by
  have absent : '\uFFFF' ∉ ['9', '1', ';'] ++ ending := by
    rcases lineBreak with rfl | rfl
    · decide
    · decide
  have later := behindSplit_append_of_not_mem absent text rest
  constructor
  · rintro ⟨other, otherBreak, suffix⟩
    rcases List.suffix_cons_iff.mp suffix with same | inside
    · left
      rcases lineBreak with rfl | rfl
      · rcases otherBreak with rfl | rfl
        · simpa [Marker.text] using same
        · simp [Marker.text] at same
      · rcases otherBreak with rfl | rfl
        · simp [Marker.text] at same
        · simpa [Marker.text] using same
    · exact .inr (later.mp ⟨other, otherBreak, inside⟩)
  · rintro (rfl | ⟨other, otherBreak, suffix⟩)
    · exact ⟨ending, lineBreak, List.suffix_refl _⟩
    · exact ⟨other, otherBreak, suffix.trans (List.suffix_append _ text)⟩

/-- Both questions have the same answer behind every split marker of the text. -/
def Agree (p q : Text → Bool) (text : Text) : Prop :=
  ∀ rest, BehindSplit text rest → p rest = q rest

section Questions

variable {p q : Text → Bool}

theorem agree_split {ending : Text} (lineBreak : IsLineBreak ending) (text : Text) :
    Agree p q (Marker.split.text ++ ending ++ text) ↔ p text = q text ∧ Agree p q text := by
  simp only [Agree, behindSplit_split lineBreak, forall_eq_or_imp]

theorem scanBy_split {ending : Text} (lineBreak : IsLineBreak ending) (text : Text) :
    scanBy p (Marker.split.text ++ ending ++ text) = (if p text then ['/', '/', '/'] else []) ++ scanBy p text := by
  rcases lineBreak with rfl | rfl
  · simp [Marker.text, scanBy]
  · simp [Marker.text, scanBy]

/-- Two scans that give the same, or of which the first gives fewer slashes. -/
private def AgreeOrFewer (p q : Text → Bool) (text : Text) : Prop :=
  (Agree p q text ∧ scanBy p text = scanBy q text) ∨
    (¬ Agree p q text ∧ (scanBy p text).count '/' < (scanBy q text).count '/')

private theorem AgreeOrFewer.le {text : Text} (compared : AgreeOrFewer p q text) :
    (scanBy p text).count '/' ≤ (scanBy q text).count '/' := by
  rcases compared with ⟨-, same⟩ | ⟨-, fewer⟩
  · rw [same]
  · exact fewer.le

private theorem AgreeOrFewer.split {ending text : Text} (lineBreak : IsLineBreak ending)
    (implied : p text = true → q text = true) (compared : AgreeOrFewer p q text) :
    AgreeOrFewer p q (Marker.split.text ++ ending ++ text) := by
  have bound := compared.le
  unfold AgreeOrFewer
  rw [agree_split lineBreak, scanBy_split lineBreak, scanBy_split lineBreak, List.count_append, List.count_append]
  cases first : p text with
  | true =>
    rw [implied first]
    rcases compared with ⟨agree, same⟩ | ⟨differ, fewer⟩
    · exact .inl ⟨⟨rfl, agree⟩, by rw [same]⟩
    · exact .inr ⟨fun both => differ both.2, by omega⟩
  | false =>
    cases second : q text with
    | true =>
      refine .inr ⟨fun both => absurd both.1 (by decide), ?_⟩
      simp only [Bool.false_eq_true, if_false, if_true, List.count_nil]
      have slashes : List.count '/' ['/', '/', '/'] = 3 := rfl
      omega
    | false =>
      rcases compared with ⟨agree, same⟩ | ⟨differ, fewer⟩
      · exact .inl ⟨⟨rfl, agree⟩, by rw [same]⟩
      · exact .inr ⟨fun both => differ both.2, by omega⟩

private theorem AgreeOrFewer.cons {c : Char} {text : Text} (agree : Agree p q (c :: text) ↔ Agree p q text)
    (first : scanBy p (c :: text) = c :: scanBy p text) (second : scanBy q (c :: text) = c :: scanBy q text)
    (compared : AgreeOrFewer p q text) : AgreeOrFewer p q (c :: text) := by
  unfold AgreeOrFewer
  rw [agree, first, second, List.count_cons, List.count_cons, List.cons_inj_right, Nat.add_lt_add_iff_right]
  exact compared

/-- Where the second question has the answer yes whenever the first one has, each split marker at which they differ
    makes three slashes more in the second scan. -/
private theorem agreeOrFewer (implied : ∀ rest, p rest = true → q rest = true) (text : Text) :
    AgreeOrFewer p q text := by
  fun_induction scanBy p text with
  | case1 rest ih =>
    have agree : Agree p q (Marker.guarded.text ++ rest) ↔ Agree p q rest := by
      simp only [Agree, behindSplit_guarded]
    have scanned : ∀ question, scanBy question (Marker.guarded.text ++ rest) = scanBy question rest := by
      intro question
      simp [Marker.text, scanBy]
    have whole : AgreeOrFewer p q (Marker.guarded.text ++ rest) := by
      rw [AgreeOrFewer, agree, scanned, scanned]
      exact ih
    exact whole
  | case2 rest ih => exact ih.split (.inl rfl) (implied rest)
  | case3 rest ih => exact ih.split (.inr rfl) (implied rest)
  | case4 c rest notGuard notLf notCrlf ih =>
    have kept : ∀ question, scanBy question (c :: rest) = c :: scanBy question rest := by
      intro question
      rw [scanBy]
      · exact notGuard
      · exact notLf
      · exact notCrlf
    have agree : Agree p q (c :: rest) ↔ Agree p q rest := by
      simp only [Agree, behindSplit_cons_of_ne notLf notCrlf]
    exact ih.cons agree (kept p) (kept q)
  | case5 => exact .inl ⟨fun rest behind => absurd behind (not_behindSplit_nil rest), rfl⟩

end Questions

theorem agree_iff {text : Text} :
    Agree isDirective (fun rest => isDirective (unguardDirectives rest)) text ↔
      ∀ rest, BehindSplit text rest → ¬ Screened rest := by
  refine forall_congr' fun rest => imp_congr_right fun _ => ?_
  rw [screened_iff]
  cases shown : isDirective rest with
  | true => simp [isDirective_unguardDirectives_of_isDirective shown]
  | false => simp

/-- Removing the guards before the split markers are resolved gives another text exactly if somewhere in the output
    a split marker and its line break are followed by blanks and guards, at least one of them a guard, and these by a
    hash sign: a directive line of the host right below a comment directive that the engine acted on. -/
theorem unguardFirst_eq_unwrap_iff {text : Text} (marked : WellMarked directiveMarks text) :
    UnwrapStep.applyAll UnwrapStep.all text = UnwrapStep.applyAll UnwrapStep.unguardFirst text ↔
      ∀ rest, BehindSplit text rest → ¬ Screened rest := by
  have splitsFirst : UnwrapStep.applyAll UnwrapStep.all text = trimNewline (scanBy isDirective text) :=
    congrArg trimNewline (strip_eq_scan marked.bare)
  have guardsFirst := congrArg trimNewline (stripUnguarded_eq_scanBy marked)
  have implied : ∀ rest, isDirective rest = true → isDirective (unguardDirectives rest) = true :=
    fun _ directive => isDirective_unguardDirectives_of_isDirective directive
  rw [splitsFirst, applyAll_unguardFirst, guardsFirst, ← agree_iff]
  rcases agreeOrFewer implied text with ⟨agree, same⟩ | ⟨differ, fewer⟩
  · rw [same]
    exact iff_of_true rfl agree
  · refine iff_of_false (fun trimmed => ?_) differ
    -- Trimming takes line feeds only, so the slashes of both scans can still be counted.
    have counted := congrArg (List.countP (· == '/')) trimmed
    rw [countP_trimNewline (by decide), countP_trimNewline (by decide)] at counted
    exact absurd counted fewer.ne

theorem unguardFirst_ne_unwrap_private_line :
    UnwrapStep.applyAll UnwrapStep.all "\uFFFF91;\r\n \uFFFF17;\t#private = 1;\uFFFE\n\n".toList ≠
      UnwrapStep.applyAll UnwrapStep.unguardFirst "\uFFFF91;\r\n \uFFFF17;\t#private = 1;\uFFFE\n\n".toList := by
  intro same
  have behind : BehindSplit "\uFFFF91;\r\n \uFFFF17;\t#private = 1;\uFFFE\n\n".toList
      " \uFFFF17;\t#private = 1;\uFFFE\n\n".toList := ⟨['\r', '\n'], .inr rfl, by decide⟩
  have screened : Screened " \uFFFF17;\t#private = 1;\uFFFE\n\n".toList := screened_iff.mpr (by decide)
  exact (unguardFirst_eq_unwrap_iff (by decide)).mp same _ behind screened

end HashTunnel
