import Dashboards.Json.Value

/-!
# Legends

The legend of a chart is an object with a position.  Earlier documents have a word, a number or a
truth value in its place.
-/

namespace Dashboards

open Json (Members Value)

/-- The position of a legend that says nothing else. -/
def defaultLegendPosition : String := "right"

/-- The positions that earlier documents give by number. -/
def numberedLegendPositions : List String := ["none", "right", "left", "top", "bottom", "in"]

/-- The position that an earlier legend means. -/
def legendPosition : Value → String
  | .string s => if s = "" then defaultLegendPosition else s
  | .number n => ((n.toNat?).bind (numberedLegendPositions[·]?)).getD defaultLegendPosition
  | .bool false => "none"
  | _ => defaultLegendPosition

/-- The legend as an object with a position.  An object keeps all its members. -/
def normalizeLegend : Value → Value
  | .object ms =>
    if Members.contains ms "position" then .object ms
    else .object (Members.insert "position" (.string defaultLegendPosition) ms)
  | v => .object [("position", .string (legendPosition v))]

/-- Whether the legend is an object with a position. -/
def hasLegendPosition : Value → Bool
  | .object ms => Members.contains ms "position"
  | _ => false

/-- A member that is put in is there. -/
theorem contains_insert (key : String) (value : Value) (ms : Members) :
    Members.contains (Members.insert key value ms) key = true := by
  induction ms with
  | nil => simp [Members.insert, Members.contains]
  | cons m ms ih =>
    obtain ⟨k, v⟩ := m
    rw [Members.insert]
    split
    · simp [Members.contains]
    · split
      · simp [Members.contains]
      · rw [Members.contains, List.any_cons]
        exact Bool.or_eq_true_iff.2 (.inr ih)

theorem hasLegendPosition_normalizeLegend (v : Value) :
    hasLegendPosition (normalizeLegend v) = true := by
  cases v with
  | object ms =>
    rw [normalizeLegend]
    split
    next h => exact h
    next => exact contains_insert "position" (.string defaultLegendPosition) ms
  | _ => rfl

/-- A legend that has a position is left as it is. -/
theorem normalizeLegend_of_hasLegendPosition {v : Value} (h : hasLegendPosition v = true) :
    normalizeLegend v = v := by
  cases v with
  | object ms => simp only [hasLegendPosition] at h; simp [normalizeLegend, h]
  | _ => exact nomatch h

end Dashboards
