import HashTunnel.Engine.Command
import HashTunnel.Proofs.IllFormed
import HashTunnel.Proofs.Trimming

/-! # Reports line by line

Each line of a standard error is reported by itself: what one line holds, be it well-formed or not, decides nothing about
another (`diagnostics_line_by_line`).
-/

namespace HashTunnel

/-- What is reported of a line of octets: what it reads as, without the blanks at its end, unless that is nothing. -/
def report? (octets : Bytes) : Option Text :=
  let line := Text.trimEnd (Utf8.decodeLossy octets)
  if line.isEmpty then none else some line

theorem decodeLossy_append_newline (first second : Bytes) :
    Utf8.decodeLossy (first ++ 0x0A :: second) = Utf8.decodeLossy first ++ '\n' :: Utf8.decodeLossy second :=
  Utf8.decodeLossy_append (by decide) first second

theorem newline_not_mem_decodeLossy {octets : Bytes} (whole : 0x0A ∉ octets) : '\n' ∉ Utf8.decodeLossy octets := by
  intro feed
  have reads : Utf8.ReadsAs octets (Utf8.decodeLossy octets) := Utf8.decodeLossy_eq_iff.mp rfl
  exact whole (reads.mem_of_mem (by decide) feed (by decide))

theorem diagnostics_append_newline (first second : Bytes) :
    diagnostics (first ++ 0x0A :: second) = diagnostics first ++ diagnostics second := by
  rw [diagnostics, decodeLossy_append_newline, Text.lines_append, List.map_append, List.filter_append]
  rfl

theorem diagnostics_of_not_mem {octets : Bytes} (whole : 0x0A ∉ octets) :
    diagnostics octets = [octets].filterMap report? := by
  rw [diagnostics, Text.lines_whole (newline_not_mem_decodeLossy whole), List.map_singleton, List.filter_singleton,
    List.filterMap_cons, report?]
  cases (Text.trimEnd (Utf8.decodeLossy octets)).isEmpty with
  | true => rfl
  | false => rfl

/-- Of each line between line feeds, what it says is reported and nothing else. -/
theorem diagnostics_eq_filterMap (stderr : Bytes) :
    diagnostics stderr = (Text.splitWhere (· == 0x0A) stderr).filterMap report? := by
  induction stderr using Text.piece_induction (0x0A : UInt8) with
  | last octets whole => rw [diagnostics_of_not_mem whole, Text.splitWhere_of_not_mem whole]
  | more octets rest whole ih =>
    rw [diagnostics_append_newline, diagnostics_of_not_mem whole, ih, Text.splitWhere_append rfl,
      Text.splitWhere_of_not_mem whole, List.filterMap_append]

theorem of_mem_diagnostics {stderr : Bytes} {line : Text} (reported : line ∈ diagnostics stderr) :
    (∃ c ∈ line, Text.isBlank c = false) ∧ (∀ c, line.getLast? = some c → Text.isBlank c = false) ∧ '\n' ∉ line := by
  obtain ⟨trimmed, inhabited⟩ := List.mem_filter.mp reported
  obtain ⟨whole, member, rfl⟩ := List.mem_map.mp trimmed
  have solid : ∀ c, (Text.trimEnd whole).getLast? = some c → Text.isBlank c = false := fun _ => Text.getLast?_trimEnd
  refine ⟨?_, solid, fun feed => ?_⟩
  · have last := List.getLast?_eq_some_getLast (by simpa using inhabited : Text.trimEnd whole ≠ [])
    exact ⟨_, List.mem_of_getLast? last, solid _ last⟩
  · exact Text.not_mem_of_mem_lines member ((Text.trimEnd_isPrefix whole).subset feed)

/-- What stands before a line feed of a standard error and what stands behind it are reported apart, so that every line
    between line feeds has its own report or none. A report says something, ends in no blank and is one line. What is
    not UTF-8 in a line is read as U+FFFD, once for each longest ill-formed run. -/
theorem diagnostics_line_by_line :
    (∀ first second, diagnostics (first ++ 0x0A :: second) = diagnostics first ++ diagnostics second) ∧
      (∀ stderr, ∀ line ∈ diagnostics stderr, (∃ c ∈ line, Text.isBlank c = false) ∧
        (∀ c, line.getLast? = some c → Text.isBlank c = false) ∧ '\n' ∉ line) ∧
      (∀ stderr, diagnostics stderr = (Text.splitWhere (· == 0x0A) stderr).filterMap report?) ∧
      ∀ octets text, Utf8.decodeLossy octets = text ↔ Utf8.ReadsAs octets text :=
  ⟨diagnostics_append_newline, fun _ _ => of_mem_diagnostics, diagnostics_eq_filterMap, fun _ _ => Utf8.decodeLossy_eq_iff⟩

/-- A scalar value that a line feed cuts off, and an octet that begins none. -/
theorem diagnostics_line_by_line_cut_off :
    diagnostics [0x77, 0xE2, 0x82, 0x0A, 0xFF, 0x6E, 0x20] = ["w\uFFFD".toList, "\uFFFDn".toList] ∧
      '\n' ∉ "w\uFFFD".toList := by
  obtain ⟨apart, lines, -, -⟩ := diagnostics_line_by_line
  have reported : diagnostics [0x77, 0xE2, 0x82, 0x0A, 0xFF, 0x6E, 0x20] = ["w\uFFFD".toList, "\uFFFDn".toList] :=
    (apart [0x77, 0xE2, 0x82] [0xFF, 0x6E, 0x20]).trans (by decide)
  exact ⟨reported, (lines _ _ (reported ▸ List.mem_cons_self)).2.2⟩

end HashTunnel
