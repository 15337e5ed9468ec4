import HashTunnel.Config.Rc
import Mathlib

/-! # What settings add up to

After several settings each part of a configuration is known from the settings that name it
(`Config.setAll_eq`): the last one holds, or all of them in their order.
-/

namespace HashTunnel

namespace Setting

/-- The program that a setting gives. -/
def program? : Setting → Option Text
  | .engine program => some program
  | _ => none

/-- The arguments that a setting gives. -/
def arguments? : Setting → Option (List Text)
  | .engineArgs args => some args
  | _ => none

/-- The macro that a setting adds. -/
def definition? : Setting → Option Text
  | .define definition => some definition
  | _ => none

/-- The include path that a setting adds. -/
def path? : Setting → Option Text
  | .includePath path => some path
  | _ => none

/-- Whether texts with reserved points are refused, if a setting says so. -/
def strictness? : Setting → Option Bool
  | .strict on => some on
  | _ => none

/-- Whether texts are announced, if a setting says so. -/
def announcement? : Setting → Option Bool
  | .lineMarkers on => some on
  | _ => none

end Setting

/-- The last value that the settings give, or the one that holds without them. -/
def lastGiven {α : Type} (give : Setting → Option α) (settings : List Setting) (otherwise : α) : α :=
  (settings.filterMap give).getLast?.getD otherwise

section Parts

variable {α : Type} {give : Setting → Option α}

theorem lastGiven_nil (otherwise : α) : lastGiven give [] otherwise = otherwise := rfl

theorem lastGiven_cons (setting : Setting) (settings : List Setting) (otherwise : α) :
    lastGiven give (setting :: settings) otherwise = lastGiven give settings ((give setting).getD otherwise) := by
  cases given : give setting with
  | none => simp [lastGiven, given]
  | some value =>
    rw [lastGiven, List.filterMap_cons_some given, List.getLast?_cons]
    cases later : (settings.filterMap give).getLast? with
    | none => simp [lastGiven, later]
    | some last => simp [lastGiven, later]

end Parts

theorem Config.setAll_eq (config : Config) (settings : List Setting) :
    config.setAll settings =
      { engine := lastGiven Setting.program? settings config.engine
        engineArgs := lastGiven Setting.arguments? settings config.engineArgs
        defines := config.defines ++ settings.filterMap Setting.definition?
        includePaths := config.includePaths ++ settings.filterMap Setting.path?
        strict := lastGiven Setting.strictness? settings config.strict
        lineMarkers := lastGiven Setting.announcement? settings config.lineMarkers } := by
  induction settings generalizing config with
  | nil => simp [setAll, lastGiven_nil]
  | cons setting settings ih =>
    have step : config.setAll (setting :: settings) = (config.set setting).setAll settings := rfl
    rw [step, ih]
    cases setting <;>
      simp [set, lastGiven_cons, List.filterMap_cons, Setting.program?, Setting.arguments?, Setting.definition?,
        Setting.path?, Setting.strictness?, Setting.announcement?]

theorem filterMap_filter_of_silent {α β : Type} {keep : α → Bool} {give : α → Option β}
    (silent : ∀ x, keep x = false → give x = none) (list : List α) :
    (list.filter keep).filterMap give = list.filterMap give := by
  rw [List.filterMap_filter]
  refine List.filterMap_congr fun x _ => ?_
  cases kept : keep x with
  | true => rfl
  | false => exact (silent x kept).symm

namespace Rc

/-- The key that a setting is of. -/
def keyOf? : Setting → Option Key
  | .engine _ => some .engine
  | .engineArgs _ => some .engineArgs
  | .define _ => some .define
  | .includePath _ => some .includePath
  | .strict _ => some .strict
  | .lineMarkers _ => some .lineMarkers
  | .unknown _ => none

theorem keyOf?_setting? {key : Key} {value : Text} {setting : Setting} (asked : key.setting? value = some setting) :
    keyOf? setting = some key := by
  cases key with
  | engine | define | includePath =>
    rw [Key.setting?] at asked
    split at asked
    · simp at asked
    · obtain rfl := Option.some.inj asked
      rfl
  | engineArgs | strict | lineMarkers =>
    obtain rfl := Option.some.inj asked
    rfl

end Rc
end HashTunnel
