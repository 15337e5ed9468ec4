import HashTunnel.Host.Tree
import Mathlib

/-! # Writing in a tree

A write that succeeds puts the whole content where its path leads and changes nothing else
(`wrote_of_write`): the path leads to the same place afterwards, because no component of it went through what
has been replaced.
-/

namespace HashTunnel.Tree

theorem node?_put_of_ne {place other : Place} (apart : other ≠ place) (tree : Tree) (node : Node) :
    (tree.put place node).node? other = tree.node? other := by
  have noMatch : (other == place) = false := beq_false_of_ne apart
  have later : (tree.nodes.filter (·.1 != place)).lookup other = tree.nodes.lookup other := by
    induction tree.nodes with
    | nil => rfl
    | cons entry nodes ih =>
      obtain ⟨name, found⟩ := entry
      by_cases replaced : name = place
      · subst replaced
        rw [List.filter_cons_of_neg (by simp), ih, List.lookup_cons, noMatch]
      · rw [List.filter_cons_of_pos (by simpa using replaced), List.lookup_cons, List.lookup_cons, ih]
  simp [put, node?, List.lookup_cons, noMatch, later]

/-- Where components lead does not change when something else than a directory is replaced there: they go
    through directories only, and so not through that place. -/
theorem follow_put {tree : Tree} {here place : Place} {parts : List Text} {node : Node}
    (noDirectory : tree.node? place ≠ some .directory) (leads : tree.follow here parts = .ok place) :
    (tree.put place node).follow here parts = .ok place := by
  induction parts generalizing here with
  | nil => exact leads
  | cons part parts ih =>
    rw [follow] at leads ⊢
    cases found : tree.node? here with
    | none => simp [found] at leads
    | some stands =>
      cases stands with
      | file _ | sink | program _ => simp [found] at leads
      | directory =>
        have apart : here ≠ place := by
          rintro rfl
          exact noDirectory found
        rw [node?_put_of_ne apart, found]
        simp only [found] at leads ⊢
        split_ifs at leads ⊢ with still up long
        · exact ih leads
        · exact ih leads
        · exact ih leads

theorem locate_put {tree : Tree} {here place : Place} {path : Text} {node : Node}
    (noDirectory : tree.node? place ≠ some .directory) (leads : tree.locate here path = .ok place) :
    (tree.put place node).locate here path = .ok place := by
  unfold locate at leads ⊢
  split at leads
  · simp at leads
  · exact follow_put noDirectory leads
  · exact follow_put noDirectory leads

/-- Only a path that does not end in a slash can be written to. -/
theorem write_eq_ok {here : Place} {path : Text} {content : Bytes} {before after : Tree}
    (written : before.write here path content = .ok after) :
    ∃ place, before.locate here path = .ok place ∧ before.node? place ≠ some .directory ∧
      (after = before.put place (.file content) ∨ before.node? place = some .sink ∧ after = before) := by
  by_cases slash : path.getLast? = some '/'
  · -- Both refusals of such a path are the same, and nothing succeeds after them.
    have refused : ∀ {α : Type} (later : Unit → Except SystemError α),
        (throw SystemError.isDirectory >>= later) = .error .isDirectory := fun _ => rfl
    rw [write, slash] at written
    simp only [refused] at written
    cases located : before.locate here (path.reverse.dropWhile (· == '/')).reverse with
    | error error =>
      simp [located, bind, Except.bind] at written
      split_ifs at written
    | ok place => simp [located, bind, Except.bind] at written
  · have named : (path.reverse.dropWhile (· == '/')).reverse = path := by
      refine List.rdropWhile_eq_self_iff.mpr fun inhabited last => slash ?_
      rw [List.getLast?_eq_some_getLast inhabited, eq_of_beq last]
    simp only [write, slash, named] at written
    cases located : before.locate here path with
    | error error => simp [located, bind, Except.bind] at written
    | ok place =>
      simp only [located, bind, Except.bind] at written
      refine ⟨place, rfl, ?_⟩
      cases stands : before.node? place with
      | none => exact ⟨by simp, .inl (by simpa [stands, eq_comm] using written)⟩
      | some node =>
        cases node with
        | directory => simp [stands] at written
        | sink => exact ⟨by simp, .inr ⟨rfl, by simpa [stands, eq_comm] using written⟩⟩
        | file _ | program _ => exact ⟨by simp, .inl (by simpa [stands, eq_comm] using written)⟩

/-- The content has gone in full where the path leads, into a file that holds nothing else or into a sink, and
    at every other place stands what stood there. -/
def Wrote (here : Place) (path : Text) (content : Bytes) (before after : Tree) : Prop :=
  ∃ place, before.locate here path = .ok place ∧
    (after.read here path = .ok content ∨ before.node? place = some .sink ∧ after = before) ∧
    ∀ other, other ≠ place → after.node? other = before.node? other

theorem wrote_of_write {here : Place} {path : Text} {content : Bytes} {before after : Tree}
    (written : before.write here path content = .ok after) : Wrote here path content before after := by
  obtain ⟨place, leads, noDirectory, rfl | ⟨sink, rfl⟩⟩ := write_eq_ok written
  · have below : place ≠ [] := by
      rintro rfl
      exact noDirectory rfl
    have contained : (before.put place (.file content)).contentAt place = .ok content := by
      rw [contentAt, node?_put below]
    refine ⟨place, leads, .inl ?_, fun other apart => node?_put_of_ne apart before _⟩
    rw [read, locate_put noDirectory leads]
    exact contained
  · exact ⟨place, leads, .inr ⟨sink, rfl⟩, fun other _ => rfl⟩

end HashTunnel.Tree
