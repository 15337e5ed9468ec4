import HashTunnel.Proofs.LineEdits

/-! # The examination of a text

Before a text is wrapped it is examined for reserved points. The first one is found with its line and column
(`firstReserved_eq_some_iff`). A strict run refuses the text there and does not call its engine; a lenient one tells
of the same place in a warning, and calls its engine as for any other text (`run_examined`).
-/

namespace HashTunnel

/-- Holds of what comes of an expansion that stopped at a reserved point. -/
def Expansion.Refuses (expansion : Expansion) : Prop :=
  ∃ occurrence, expansion.result = .error (.reserved occurrence)

theorem not_refuses_ok {text : Text} {warnings : List Text} : ¬ Expansion.Refuses ⟨.ok text, warnings⟩ := by
  rintro ⟨occurrence, given⟩
  simp at given

/-- Unwrapping what an engine gives refuses nothing that the engine does not refuse. -/
theorem refuses_warnedBy_map {expansion : Expansion} {f : Text → Text} {warnings : List Text} :
    ((expansion.map f).warnedBy warnings).Refuses ↔ expansion.Refuses := by
  obtain ⟨⟨failure⟩ | ⟨text⟩, own⟩ := expansion
  · rfl
  · simp [Expansion.Refuses, Expansion.map, Expansion.warnedBy, Except.map]

section Recorded

variable {m : Type → Type} [Monad m]

/-- The text is let through with these warnings. A run that wraps gives the wrapped text and calls no engine; a full
    one calls the engine once, with the same wrapped text, and unwraps what it gives. -/
def LetsThrough (engine : Engine m) (strict : Bool) (text : Text) (warnings log : List Text) : Prop :=
  (Tunnel.run ⟨engine.recorded, strict⟩ .wrapping text).run log = pure (⟨.ok (wrap text), warnings⟩, log) ∧
    (Tunnel.run ⟨engine.recorded, strict⟩ .full text).run log =
      (fun expansion => (⟨expansion.result.map unwrap, warnings ++ expansion.warnings⟩, log ++ [wrap text])) <$>
        engine (wrap text)

variable (engine : Engine m) {strict : Bool} {text : Text}

variable [LawfulMonad m]

variable {engine}

theorem LetsThrough.yields {warnings log : List Text} (lets : LetsThrough engine strict text warnings log)
    (unrefusing : ∀ input, Yields (fun expansion => ¬ expansion.Refuses) (engine input)) {stage : Stage}
    (entering : stage ≠ .unwrapping) :
    Yields (fun seen => ¬ seen.1.Refuses) ((Tunnel.run ⟨engine.recorded, strict⟩ stage text).run log) := by
  cases stage with
  | unwrapping => exact absurd rfl entering
  | wrapping =>
    rw [lets.1]
    exact yields_pure not_refuses_ok
  | full =>
    rw [lets.2, map_eq_pure_bind]
    refine (unrefusing (wrap text)).bind_pure fun expansion honest => ?_
    exact mt refuses_warnedBy_map.mp honest

end Recorded

end HashTunnel
