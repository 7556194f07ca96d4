import Dashboards.Proofs.Document.RoundTrip
import Dashboards.Schema.Walk

/-!
# Following paths

A path is a text of names with points between them; a name may be followed by a number in brackets.
Following it into the value of a document, each name leads to a member of an object and each number
to an item of a list.

The value of a record that was read from a document has under each name of its table what the record
has in that field, and nothing if the field is absent.

## Key results

- `follow?_append`, `pathSteps_dot`: a path that goes on in a part is followed in that part
- `Shape.HasOwnOthers.get?_toValue`: what is found under the names of a table
- `Dashboard.follow?_containerPath`, `Dashboard.follow?_widgetPath`: the paths of parts
-/

namespace Dashboards

open Json (Members Value)

/-! ## Paths -/

/-- One step from a value to a part of it. -/
inductive PathStep where
  | member (name : String)
  | item (i : Nat)
deriving DecidableEq, Repr

/-- What a step leads to. -/
def PathStep.part? : PathStep → Value → Option Value
  | member name, v => v.get? name
  | item i, .array items => items[i]?
  | item _, _ => none

/-- What steps lead to, one after the other. -/
def follow? : List PathStep → Value → Option Value
  | [], v => some v
  | step :: steps, v => (step.part? v).bind (follow? steps)

/-- The steps of one name, maybe with a number in brackets. -/
def nameSteps (cs : List Char) : List PathStep :=
  .member (String.ofList (cs.takeWhile (· != '['))) ::
    match cs.dropWhile (· != '[') with
    | [] => []
    | _ :: index => [.item (Decimal.valueOf 10 (index.takeWhile Char.isDigit))]

/-- The steps of a path. -/
def pathSteps (path : String) : List PathStep := (path.toList.splitOn '.').flatMap nameSteps

example : pathSteps "children[12].container" =
    [.member "children", .item 12, .member "container"] := by decide +kernel

/-- Steps after others are followed in the part that those lead to. -/
theorem follow?_append (first second : List PathStep) (v : Value) :
    follow? (first ++ second) v = (follow? first v).bind (follow? second) := by
  -- induction on the steps before, each of which leads to another value
  induction first generalizing v with
  | nil => rfl
  | cons step first ih =>
    rw [List.cons_append, follow?, follow?, Option.bind_assoc]
    exact congrArg _ (funext ih)

/-- A path that goes on after a point. -/
theorem pathSteps_dot (path rest : String) :
    pathSteps (path ++ "." ++ rest) = pathSteps path ++ pathSteps rest := by
  have hdot : (path ++ "." ++ rest).toList = path.toList ++ '.' :: rest.toList := by
    rw [String.toList_append, String.toList_append, List.append_assoc]
    rfl
  rw [pathSteps, hdot, List.splitOn_append_cons_self, List.flatMap_append]
  rfl

/-- A name with a number in brackets. -/
theorem pathSteps_index (name : String) (hbracket : '[' ∉ name.toList) (hdot : '.' ∉ name.toList)
    (i : Nat) : pathSteps (name ++ "[" ++ Decimal.natText i ++ "]") =
      [.member name, .item i] := by
  have htext : (name ++ "[" ++ Decimal.natText i ++ "]").toList =
      name.toList ++ '[' :: (Decimal.digits i ++ [']']) := by
    simp only [String.toList_append, Decimal.natText, String.toList_ofList, List.append_assoc]
    rfl
  -- the name ends at the bracket, and the digits at the one that closes it
  have hname : ∀ c ∈ name.toList, (c != '[') = true := fun c hc =>
    bne_iff_ne.2 fun he => hbracket (he ▸ hc)
  have hdigits : ∀ c ∈ Decimal.digits i, c.isDigit = true := fun c hc =>
    Decimal.isDigit_of_mem_digits hc
  -- there is only one segment
  have hnodot : '.' ∉ name.toList ++ '[' :: (Decimal.digits i ++ [']']) := by
    simp only [List.mem_append, List.mem_cons, List.not_mem_nil, or_false]
    rintro (h | h | h | h)
    · exact hdot h
    · exact absurd h (by decide)
    · exact absurd (hdigits _ h) (by decide)
    · exact absurd h (by decide)
  rw [pathSteps, htext, List.splitOn_eq_singleton hnodot, List.flatMap_singleton, nameSteps,
    List.takeWhile_append_of_pos hname, List.dropWhile_append_of_pos hname]
  simp [List.takeWhile_append_of_pos hdigits]

/-! ## Records -/

namespace Shape.HasOwnOthers

variable {α β γ : Type} {s : Shape α} {a : α} {key : String} {c : Codec β} {get : α → Option β}
variable {set : Option β → α → α}

/-- The value of a record has under each name of its table what is in that field. -/
theorem get?_toValue (ha : s.HasOwnOthers a) (hs : s.Lawful)
    (hm : Member.optional key c get set ∈ s.members) :
    (s.codec.toValue a).get? key = (get a).map c.toValue := by
  -- the other members have names that the table does not know
  obtain ⟨ms, hms, hget, -⟩ :=
    hs.separate.get?_toValue (Value.isSorted_object_iff.1 ha.1).1.nodup_keys ha.2
  rw [hms]
  exact (hget _ hm).trans (Option.map_map _ _ _)

/-- A path goes through a field of a record if there is something in it. -/
theorem follow?_toValue (ha : s.HasOwnOthers a) (hs : s.Lawful)
    (hm : Member.optional key c get set ∈ s.members) (steps : List PathStep) :
    follow? (.member key :: steps) (s.codec.toValue a) =
      (get a).bind fun b => follow? steps (c.toValue b) := by
  rw [follow?, PathStep.part?, ha.get?_toValue hs hm, Option.bind_map]
  rfl

/-- A path to a field of a record. -/
theorem follow?_field (ha : s.HasOwnOthers a) (hs : s.Lawful)
    (hm : Member.optional key c get set ∈ s.members) :
    follow? [.member key] (s.codec.toValue a) = (get a).map c.toValue := by
  rw [ha.follow?_toValue hs hm]
  exact Option.map_eq_bind.symm

/-- A path to a field of a record in a field of a record. -/
theorem follow?_inner {t : Shape β} {key' : String} {c' : Codec γ} {get' : β → Option γ}
    {set' : Option γ → β → β} (ha : s.HasOwnOthers a) (hs : s.Lawful)
    (hm : Member.optional key t.codec get set ∈ s.members) (ht : t.Lawful)
    (hinner : ∀ b, get a = some b → t.HasOwnOthers b)
    (hm' : Member.optional key' c' get' set' ∈ t.members) :
    follow? [.member key, .member key'] (s.codec.toValue a) =
      ((get a).bind get').map c'.toValue := by
  rw [ha.follow?_toValue hs hm, Option.map_bind]
  exact Option.bind_congr fun b hb => (hinner b hb).follow?_field ht hm'

end Shape.HasOwnOthers

/-- An item of a list. -/
theorem follow?_list {β : Type} (c : Codec β) (bs : List β) (i : Nat) (steps : List PathStep) :
    follow? (.item i :: steps) ((Codec.list c).toValue bs) =
      bs[i]?.bind fun b => follow? steps (c.toValue b) := by
  rw [follow?, Codec.toValue_list, PathStep.part?, List.getElem?_map, Option.bind_map]
  rfl

/-- A part that may be absent is returned if it is there. -/
theorem Codec.returns_of_optional {β : Type} {c : Codec β} (hc : c.RefusesNull) {x : Option β}
    (hx : (optional c).Returns x) {b : β} (hb : x = some b) : c.Returns b :=
  (optional_returns_iff hc).1 hx b hb

open Codec (returns_of_optional)

/-! ## Fields of widgets -/

namespace Widget

variable {w : Widget} {γ : Type} {key : String} {c : Codec γ}

/-- The layout of a widget that is returned is returned. -/
theorem returns_of_layout (hw : Widget.codec.Returns w) {l : WidgetLayout}
    (hl : w.layout = some l) : WidgetLayout.shape.codec.Returns l :=
  returns_of_optional (Shape.codec_refusesNull _) (returns_iff.1 hw).2.1 hl

/-- The chart of a widget that is returned is returned. -/
theorem returns_of_chart (hw : Widget.codec.Returns w) {b : Chart} (hb : w.chart = some b) :
    Chart.shape.codec.Returns b :=
  returns_of_optional (Shape.codec_refusesNull _) (returns_iff.1 hw).2.2.1 hb

/-- The options of the chart of a widget that is returned are returned. -/
theorem returns_of_chartOptions (hw : Widget.codec.Returns w) {o : ChartOptions}
    (ho : w.chartOptions = some o) : ChartOptions.shape.codec.Returns o := by
  obtain ⟨b, hb, hbo⟩ := Option.bind_eq_some_iff.1 ho
  exact returns_of_optional (Shape.codec_refusesNull _)
    (Chart.returns_iff.1 (returns_of_chart hw hb)).2 hbo

/-- The source of data of a widget that is returned is returned. -/
theorem returns_of_datasource (hw : Widget.codec.Returns w) {s : Datasource}
    (hs : w.datasource = some s) : Datasource.shape.codec.Returns s :=
  returns_of_optional (Shape.codec_refusesNull _) (returns_iff.1 hw).2.2.2 hs

/-- The description of data of a widget that is returned is returned. -/
theorem returns_of_config (hw : Widget.codec.Returns w) {b : SourceConfig}
    (hb : w.config = some b) : SourceConfig.shape.codec.Returns b := by
  obtain ⟨s, hs, hsb⟩ := Option.bind_eq_some_iff.1 hb
  exact returns_of_optional (Shape.codec_refusesNull _)
    (Datasource.returns_iff.1 (returns_of_datasource hw hs)).2 hsb

/-- A path to a field of a widget. -/
theorem follow?_field (hw : Widget.codec.Returns w) {get : Widget → Option γ}
    {set : Option γ → Widget → Widget} (hm : Member.optional key c get set ∈ shape.members) :
    follow? [.member key] (Widget.codec.toValue w) = (get w).map c.toValue :=
  (returns_iff.1 hw).1.follow?_field lawful_shape hm

/-- A path to a field of the layout. -/
theorem follow?_layout (hw : Widget.codec.Returns w) {get : WidgetLayout → Option γ}
    {set : Option γ → WidgetLayout → WidgetLayout}
    (hm : Member.optional key c get set ∈ WidgetLayout.shape.members) :
    follow? [.member "layout", .member key] (Widget.codec.toValue w) =
      (w.layout.bind get).map c.toValue :=
  (returns_iff.1 hw).1.follow?_inner lawful_shape (.tail _ (.tail _ (.head _)))
    WidgetLayout.lawful_shape (fun _ hl => WidgetLayout.returns_iff.1 (returns_of_layout hw hl)) hm

/-- A path to a field of the source of data. -/
theorem follow?_datasource (hw : Widget.codec.Returns w) {get : Datasource → Option γ}
    {set : Option γ → Datasource → Datasource}
    (hm : Member.optional key c get set ∈ Datasource.shape.members) :
    follow? [.member "datasource", .member key] (Widget.codec.toValue w) =
      (w.datasource.bind get).map c.toValue :=
  (returns_iff.1 hw).1.follow?_inner lawful_shape
    (.tail _ (.tail _ (.tail _ (.tail _ (.head _))))) Datasource.lawful_shape
    (fun _ hs => (Datasource.returns_iff.1 (returns_of_datasource hw hs)).1) hm

/-- A path goes through the options of the chart if there are any. -/
theorem follow?_chartOptions (hw : Widget.codec.Returns w) (steps : List PathStep) :
    follow? (.member "chart" :: .member "options" :: steps) (Widget.codec.toValue w) =
      w.chartOptions.bind fun o => follow? steps (ChartOptions.shape.codec.toValue o) := by
  have hchart := (returns_iff.1 hw).1.follow?_toValue lawful_shape
    (.tail _ (.tail _ (.tail _ (.head _)))) (.member "options" :: steps)
  refine hchart.trans ?_
  rw [chartOptions, Option.bind_assoc]
  refine Option.bind_congr fun b hb => ?_
  exact (Chart.returns_iff.1 (returns_of_chart hw hb)).1.follow?_toValue Chart.lawful_shape
    (.tail _ (.head _)) steps

/-- A path goes through the description of data if there is one. -/
theorem follow?_config (hw : Widget.codec.Returns w) (steps : List PathStep) :
    follow? (.member "datasource" :: .member "config" :: steps) (Widget.codec.toValue w) =
      w.config.bind fun b => follow? steps (SourceConfig.shape.codec.toValue b) := by
  have hdatasource := (returns_iff.1 hw).1.follow?_toValue lawful_shape
    (.tail _ (.tail _ (.tail _ (.tail _ (.head _))))) (.member "config" :: steps)
  refine hdatasource.trans ?_
  rw [config, Option.bind_assoc]
  refine Option.bind_congr fun s hs => ?_
  exact (Datasource.returns_iff.1 (returns_of_datasource hw hs)).1.follow?_toValue
    Datasource.lawful_shape (.tail _ (.tail _ (.tail _ (.head _)))) steps

/-- A path to a field of the options of the chart. -/
theorem follow?_chartOptions_field (hw : Widget.codec.Returns w) {get : ChartOptions → Option γ}
    {set : Option γ → ChartOptions → ChartOptions}
    (hm : Member.optional key c get set ∈ ChartOptions.shape.members) :
    follow? [.member "chart", .member "options", .member key] (Widget.codec.toValue w) =
      (w.chartOptions.bind get).map c.toValue := by
  rw [follow?_chartOptions hw, Option.map_bind]
  refine Option.bind_congr fun o ho => ?_
  exact (ChartOptions.returns_iff.1 (returns_of_chartOptions hw ho)).1.follow?_field
    ChartOptions.lawful_shape hm

/-- A path to a field of the description of data. -/
theorem follow?_config_field (hw : Widget.codec.Returns w) {get : SourceConfig → Option γ}
    {set : Option γ → SourceConfig → SourceConfig}
    (hm : Member.optional key c get set ∈ SourceConfig.shape.members) :
    follow? [.member "datasource", .member "config", .member key] (Widget.codec.toValue w) =
      (w.config.bind get).map c.toValue := by
  rw [follow?_config hw, Option.map_bind]
  refine Option.bind_congr fun b hb => ?_
  exact (SourceConfig.returns_iff.1 (returns_of_config hw hb)).1.follow?_field
    SourceConfig.lawful_shape hm

end Widget

/-! ## Parts of dashboards -/

namespace Container

variable {c : Container}

/-- The grid of a container that is returned is returned. -/
theorem returns_of_grid (hc : Container.codec.Returns c) {g : Grid} (hg : c.grid = some g) :
    Grid.shape.codec.Returns g :=
  returns_of_optional (Shape.codec_refusesNull _) (returns_iff.1 hc).2 hg

/-- The widgets of a container that is returned are returned. -/
theorem returns_of_mem_widgets (hc : Container.codec.Returns c) {w : Widget}
    (hw : w ∈ c.widgets) : Widget.codec.Returns w := by
  rw [widgets] at hw
  -- only a list that is there has widgets in it
  cases hws : c.grid.bind (·.children) with
  | none => rw [hws] at hw; exact nomatch hw
  | some ws =>
    obtain ⟨g, hg, hgws⟩ := Option.bind_eq_some_iff.1 hws
    have hlist := returns_of_optional (Codec.list_refusesNull _)
      (Grid.returns_iff.1 (returns_of_grid hc hg)).2 hgws
    rw [hws] at hw
    exact Codec.list_returns_iff.1 hlist w hw

/-- A path to a field of a container. -/
theorem follow?_field (hc : Container.codec.Returns c) {γ : Type} {key : String} {k : Codec γ}
    {get : Container → Option γ} {set : Option γ → Container → Container}
    (hm : Member.optional key k get set ∈ shape.members) :
    follow? [.member key] (Container.codec.toValue c) = (get c).map k.toValue :=
  (returns_iff.1 hc).1.follow?_field lawful_shape hm

/-- A path to a field of the grid. -/
theorem follow?_grid (hc : Container.codec.Returns c) {γ : Type} {key : String} {k : Codec γ}
    {get : Grid → Option γ} {set : Option γ → Grid → Grid}
    (hm : Member.optional key k get set ∈ Grid.shape.members) :
    follow? [.member "container", .member key] (Container.codec.toValue c) =
      (c.grid.bind get).map k.toValue :=
  (returns_iff.1 hc).1.follow?_inner lawful_shape (.tail _ (.tail _ (.head _)))
    Grid.lawful_shape (fun _ hg => (Grid.returns_iff.1 (returns_of_grid hc hg)).1) hm

/-- A path to a widget. -/
theorem follow?_widget (hc : Container.codec.Returns c) (j : Nat) :
    follow? [.member "container", .member "children", .item j] (Container.codec.toValue c) =
      c.widgets[j]?.map Widget.codec.toValue := by
  have hlist := follow?_append [.member "container", .member "children"] [.item j]
    (Container.codec.toValue c)
  rw [follow?_grid hc (.tail _ (.tail _ (.tail _ (.head _))))] at hlist
  refine hlist.trans ?_
  rw [widgets]
  cases c.grid.bind (·.children) with
  | none => rfl
  | some ws => exact (follow?_list _ ws j []).trans Option.map_eq_bind.symm

end Container

namespace Dashboard

variable {d : Dashboard}

/-- The containers of a dashboard that is returned are returned. -/
theorem returns_of_mem_containers (hd : Dashboard.codec.Returns d) {c : Container}
    (hc : c ∈ d.containers) : Container.codec.Returns c := by
  rw [containers] at hc
  cases hcs : d.children with
  | none => rw [hcs] at hc; exact nomatch hc
  | some cs =>
    have hlist := returns_of_optional (Codec.list_refusesNull _) (returns_iff.1 hd).2.2 hcs
    rw [hcs] at hc
    exact Codec.list_returns_iff.1 hlist c hc

/-- A path to a field of a dashboard. -/
theorem follow?_field (hd : Dashboard.codec.Returns d) {γ : Type} {key : String} {k : Codec γ}
    {get : Dashboard → Option γ} {set : Option γ → Dashboard → Dashboard}
    (hm : Member.optional key k get set ∈ shape.members) :
    follow? [.member key] (Dashboard.codec.toValue d) = (get d).map k.toValue :=
  (returns_iff.1 hd).1.follow?_field lawful_shape hm

/-- The path of a container leads to it. -/
theorem follow?_containerPath (hd : Dashboard.codec.Returns d) (i : Nat) :
    follow? (pathSteps (containerPath i)) (Dashboard.codec.toValue d) =
      d.containers[i]?.map Container.codec.toValue := by
  have hname : "children[" = "children" ++ "[" := by decide +kernel
  have hsteps := pathSteps_index "children" (by decide +kernel) (by decide +kernel) i
  rw [containerPath, hname, hsteps, ← List.singleton_append, follow?_append,
    follow?_field hd (.tail _ (.tail _ (.tail _ (.tail _ (.head _))))), containers]
  cases d.children with
  | none => rfl
  | some cs => exact (follow?_list _ cs i []).trans Option.map_eq_bind.symm

/-- The path of a widget leads to it. -/
theorem follow?_widgetPath (hd : Dashboard.codec.Returns d) (i j : Nat) :
    follow? (pathSteps (widgetPath i j)) (Dashboard.codec.toValue d) =
      (d.containers[i]?.bind (·.widgets[j]?)).map Widget.codec.toValue := by
  -- the path goes on from the container through its grid
  have hpath : widgetPath i j = containerPath i ++ "." ++
      ("container" ++ "." ++ ("children" ++ "[" ++ Decimal.natText j ++ "]")) := by
    have hdots : ".container.children" = "." ++ ("container" ++ ("." ++ "children")) := by
      decide +kernel
    simp only [widgetPath, widgetsPath, hdots, String.append_assoc]
  have hname : pathSteps "container" = [.member "container"] := by decide +kernel
  have hindex := pathSteps_index "children" (by decide +kernel) (by decide +kernel) j
  rw [hpath, pathSteps_dot, pathSteps_dot, hname, hindex, follow?_append,
    follow?_containerPath hd, Option.bind_map, Option.map_bind]
  refine Option.bind_congr fun c hc => ?_
  exact Container.follow?_widget (returns_of_mem_containers hd (List.mem_of_getElem? hc)) j

end Dashboard

end Dashboards
