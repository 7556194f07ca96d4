import Dashboards.Proofs.Statement.Delimited
import Dashboards.Schema.Walk

/-!
# Places of parts

Containers and widgets are numbered in the order of the document, and a path names a part by these
numbers.  A field of a part is named by the path of the part with the field after it.

## Key results

- `Place.fieldPath_inj`: such a path tells the part and the field
-/

namespace Dashboards

/-- The place of a part: the number of its container and, for a widget, its number in there. -/
inductive Place where
  | container (i : Nat)
  | widget (i j : Nat)
deriving DecidableEq, Repr

namespace Place

/-- The path of a part from the dashboard. -/
def path : Place → String
  | container i => containerPath i
  | widget i j => widgetPath i j

/-- The path of a field of the part in a place. -/
def fieldPath (p : Place) (field : String) : String := p.path ++ "." ++ field

/-- The number of the container. -/
def containerIndex : Place → Nat
  | container i | widget i _ => i

/-- What stands after the number of the container. -/
def ending : Place → List Char
  | container _ => []
  | widget _ j => '.' :: ("container.children".toList ++ '[' :: (Decimal.digits j ++ [']']))

/-- The path of a field of a part: the number of the container, what leads to the part, the
field. -/
theorem toList_fieldPath (p : Place) (field : String) :
    (p.fieldPath field).toList = "children[".toList ++
      (Decimal.digits p.containerIndex ++ ']' :: (p.ending ++ '.' :: field.toList)) := by
  have hcontainer : ".container.children".toList = '.' :: "container.children".toList := rfl
  cases p <;>
    simp only [fieldPath, path, widgetPath, widgetsPath, containerPath, containerIndex, ending,
      String.toList_append, Decimal.natText_toList, hcontainer, List.append_assoc, List.nil_append,
      List.cons_append] <;> rfl

/-- Numbers in brackets are the same if the texts are, and so is what follows them. -/
theorem digits_bracket_inj {n m : Nat} {r s : List Char}
    (h : Decimal.digits n ++ ']' :: r = Decimal.digits m ++ ']' :: s) : n = m ∧ r = s := by
  have hbracket : ∀ r, BeginsOutside Char.isDigit (']' :: r) := fun _ =>
    beginsOutside_cons.2 rfl
  obtain ⟨hnumber, hrest⟩ := delimited_digits trivial trivial (hbracket r) (hbracket s) h
  exact ⟨hnumber, (List.cons.inj hrest).2⟩

/-- Only the path of a widget has a second bracket. -/
theorem bracket_mem_of_ending_eq {i i' j : Nat} {field field' : List Char}
    (h : (widget i j).ending ++ '.' :: field' = (container i').ending ++ '.' :: field) :
    '[' ∈ field := by
  have hmem : '[' ∈ (container i').ending ++ '.' :: field := by
    rw [← h, ending, List.cons_append, List.append_assoc]
    exact List.mem_cons_of_mem _ (List.mem_append_right _ List.mem_cons_self)
  exact (List.mem_cons.1 hmem).resolve_left (by decide)

/-- The path of a field without brackets of its own tells the part and the field. -/
theorem fieldPath_inj {p q : Place} {field field' : String} (hp : '[' ∉ field.toList)
    (hq : '[' ∉ field'.toList) (h : p.fieldPath field = q.fieldPath field') :
    p = q ∧ field = field' := by
  have heq := congrArg String.toList h
  rw [toList_fieldPath, toList_fieldPath] at heq
  -- the number of the container ends at its bracket
  obtain ⟨hi, hrest⟩ := digits_bracket_inj (List.append_cancel_left heq)
  cases p with
  | container i =>
    cases q with
    | container i' =>
      obtain rfl : i = i' := hi
      exact ⟨rfl, String.toList_inj.1 (List.cons.inj hrest).2⟩
    -- the path of a widget has another bracket, which no field has
    | widget i' j' => exact absurd (bracket_mem_of_ending_eq hrest.symm) hp
  | widget i j =>
    cases q with
    | container i' => exact absurd (bracket_mem_of_ending_eq hrest) hq
    | widget i' j' =>
      obtain rfl : i = i' := hi
      simp only [ending, List.append_assoc, List.cons_append, List.nil_append] at hrest
      have hnumber := List.append_cancel_left (List.cons.inj hrest).2
      obtain ⟨rfl, hfield⟩ := digits_bracket_inj (List.cons.inj hnumber).2
      exact ⟨rfl, String.toList_inj.1 (List.cons.inj hfield).2⟩

end Place

end Dashboards
