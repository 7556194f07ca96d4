import Dashboards.Proofs.Document.Paths
import Dashboards.Proofs.Schema.Outcome
import Dashboards.Proofs.Schema.Tour

/-!
# Missing fields

The path that a version of the schema reports is followed into the value of the document.  It leads
nowhere, or to the empty id that the version objects to.  It is the first such path, too: the
versions before are satisfied, and so is all that the version has looked at before.

## Key results

- `Scope.lacksAt_of_firstMissing`: a check of the history reports what is not there
- `Catalogue.verify_reports_first`: so does a catalogue of versions of the history
-/

namespace Dashboards

open Json (Members Value)

/-- A path leads nowhere, or to an id that is empty. -/
def LacksAt (v : Value) (path : String) : Prop :=
  follow? (pathSteps path) v = none ∨
    (pathSteps path).getLast? = some (.member "id") ∧
      follow? (pathSteps path) v = some (.string "")

/-! ## Outcomes of checks -/

/-- A requirement that is not met reports its own field. -/
theorem Verification.require_eq_missing_iff {condition : Bool} {field path : String} :
    require condition field = .missing path ↔ condition = false ∧ field = path := by
  cases condition <;> simp [require]

/-- What is missing is reported by the first check, or by the second if the first is satisfied. -/
theorem Verification.andThen_eq_missing_iff {v : Verification} {next : Unit → Verification}
    {path : String} : v.andThen next = .missing path ↔
      v = .missing path ∨ v = .satisfied ∧ next () = .missing path := by
  cases v <;> simp [andThen]

/-- The steps of a path lead to a field iff it is there. -/
theorem isSome_follow? {γ : Type} (path : String) {steps : List PathStep} {v : Value}
    {x : Option γ} {f : γ → Value} (hsteps : pathSteps path = steps)
    (hfollow : follow? steps v = x.map f) : (follow? (pathSteps path) v).isSome = x.isSome := by
  rw [hsteps, hfollow, Option.isSome_map]

/-- A path that leads to no field leads nowhere. -/
theorem LacksAt.of_isSome {v : Value} {path : String} {there : Bool}
    (h : (follow? (pathSteps path) v).isSome = there) (hnot : there = false) :
    LacksAt v path :=
  .inl (Option.isNone_iff_eq_none.1 (Option.isSome_eq_false_iff.1 (h.trans hnot)))

/-- A path that goes on in a part leads nowhere if it does so there. -/
theorem LacksAt.inside {v part : Value} {path field : String}
    (hpart : follow? (pathSteps path) v = some part) (h : LacksAt part field) :
    LacksAt v (path ++ "." ++ field) := by
  -- an empty id is the last step of the inner path, so it is of the whole one
  rw [LacksAt, pathSteps_dot, follow?_append, hpart, Option.bind_some]
  refine h.imp_right fun ⟨hlast, hempty⟩ => ⟨?_, hempty⟩
  rw [List.getLast?_append, hlast, Option.some_or]

/-- A check reports only what is not there, of anything that is read back from its value. -/
def Truthful {α : Type} (c : Codec α) (check : α → Verification) : Prop :=
  ∀ a field, c.Returns a → check a = .missing field → LacksAt (c.toValue a) field

/-- A field is required, and its path leads there. -/
theorem lacksAt_of_require {v : Value} {path field : String} {there : Bool}
    (h : (follow? (pathSteps path) v).isSome = there)
    (hrequire : Verification.require there path = .missing field) : LacksAt v field := by
  obtain ⟨hnot, rfl⟩ := Verification.require_eq_missing_iff.1 hrequire
  exact .of_isSome h hnot

/-- An id is required. -/
theorem lacksAt_of_require_id {v : Value} {id : Option String} {field : String}
    (h : follow? [.member "id"] v = id.map Codec.string.toValue)
    (hrequire : Verification.require (hasId id) "id" = .missing field) : LacksAt v field := by
  obtain ⟨hnot, rfl⟩ := Verification.require_eq_missing_iff.1 hrequire
  have hsteps : pathSteps "id" = [.member "id"] := by decide +kernel
  rw [LacksAt, hsteps, h]
  -- without an id the path leads nowhere; an id that is there and refused is empty
  cases id with
  | none => exact .inl rfl
  | some s =>
    have hempty : s = "" := by simpa [hasId] using hnot
    exact .inr ⟨rfl, by rw [hempty]; rfl⟩

/-! ## Checks of widgets -/

namespace Widget

/-- The paths that checks of widgets report, and when they lead anywhere. -/
structure Leads (v : Value) (w : Widget) : Prop where
  layout : (follow? (pathSteps "layout") v).isSome = w.layout.isSome
  columnSpan : (follow? (pathSteps "layout.columnspan") v).isSome =
    (w.layout.bind (·.columnSpan)).isSome
  rowSpan : (follow? (pathSteps "layout.rowspan") v).isSome = (w.layout.bind (·.rowSpan)).isSome
  chart : (follow? (pathSteps "chart") v).isSome = w.chart.isSome
  chartOptions : (follow? (pathSteps "chart.options") v).isSome = w.chartOptions.isSome
  tooltip : (follow? (pathSteps "chart.options.tooltip") v).isSome =
    (w.chartOptions.bind (·.tooltip)).isSome
  datasource : (follow? (pathSteps "datasource") v).isSome = w.datasource.isSome
  kind : (follow? (pathSteps "datasource.type") v).isSome = (w.datasource.bind (·.kind)).isSome
  customQuery : (follow? (pathSteps "datasource.custom_query") v).isSome =
    (w.datasource.bind (·.customQuery)).isSome
  config : (follow? (pathSteps "datasource.config") v).isSome = w.config.isSome
  aggregations : (follow? (pathSteps "datasource.config.aggregations") v).isSome =
    (w.config.bind (·.aggregations)).isSome
  fieldFilters : (follow? (pathSteps "datasource.config.fieldFilters") v).isSome =
    (w.config.bind (·.fieldFilters)).isSome
  metadataFilters : (follow? (pathSteps "datasource.config.metadataFilters") v).isSome =
    (w.config.bind (·.metadataFilters)).isSome
  results : (follow? (pathSteps "datasource.config.results") v).isSome =
    (w.config.bind (·.results)).isSome
  filters : (follow? (pathSteps "datasource.config.filters") v).isSome =
    (w.config.bind (·.filters)).isSome

/-- The paths of the checks lead to the fields of a widget that is read back from its value. -/
theorem leads_toValue {w : Widget} (hw : codec.Returns w) : Leads (codec.toValue w) w where
  layout := isSome_follow? _ (by decide +kernel) (follow?_field hw (.tail _ (.tail _ (.head _))))
  columnSpan := isSome_follow? _ (by decide +kernel) (follow?_layout hw (.head _))
  rowSpan := isSome_follow? _ (by decide +kernel) (follow?_layout hw (.tail _ (.head _)))
  chart := isSome_follow? _ (by decide +kernel)
    (follow?_field hw (.tail _ (.tail _ (.tail _ (.head _)))))
  chartOptions := isSome_follow? _ (by decide +kernel)
    ((follow?_chartOptions hw []).trans Option.map_eq_bind.symm)
  tooltip := isSome_follow? _ (by decide +kernel) (follow?_chartOptions_field hw (.head _))
  datasource := isSome_follow? _ (by decide +kernel)
    (follow?_field hw (.tail _ (.tail _ (.tail _ (.tail _ (.head _))))))
  kind := isSome_follow? _ (by decide +kernel)
    (follow?_datasource hw (.tail _ (.tail _ (.head _))))
  customQuery := isSome_follow? _ (by decide +kernel) (follow?_datasource hw (.tail _ (.head _)))
  config := isSome_follow? _ (by decide +kernel)
    ((follow?_config hw []).trans Option.map_eq_bind.symm)
  aggregations := isSome_follow? _ (by decide +kernel) (follow?_config_field hw (.head _))
  fieldFilters := isSome_follow? _ (by decide +kernel) (follow?_config_field hw (.tail _ (.head _)))
  metadataFilters := isSome_follow? _ (by decide +kernel)
    (follow?_config_field hw (.tail _ (.tail _ (.head _))))
  results := isSome_follow? _ (by decide +kernel)
    (follow?_config_field hw (.tail _ (.tail _ (.tail _ (.head _)))))
  filters := isSome_follow? _ (by decide +kernel)
    (follow?_config_field hw (.tail _ (.tail _ (.tail _ (.tail _ (.head _))))))

/-- The description of data is reported only where there is none. -/
theorem truthful_verifyConfig : Truthful codec verifyConfig := fun _ _ hw h =>
  lacksAt_of_require (leads_toValue hw).config h

/-- The layout is reported where there is none, and else the first span that it lacks. -/
theorem truthful_verifySpans : Truthful codec verifySpans := by
  intro w field hw h
  have hleads := leads_toValue hw
  obtain ⟨hlayout, hcolumn, hrow⟩ := And.intro hleads.layout (And.intro hleads.columnSpan
    hleads.rowSpan)
  rw [verifySpans] at h
  -- without a layout the check names the layout, not its spans
  cases hl : w.layout with
  | none =>
    rw [hl] at h hlayout
    exact Verification.missing.inj h ▸ .of_isSome hlayout rfl
  | some l =>
    rw [hl] at h hcolumn hrow
    rcases Verification.andThen_eq_missing_iff.1 h with h | ⟨-, h⟩
    · exact lacksAt_of_require hcolumn h
    · exact lacksAt_of_require hrow h

/-- The chart is reported where there is none, and else its options if it lacks them. -/
theorem truthful_verifyChartOptions : Truthful codec verifyChartOptions := by
  intro w field hw h
  have hchart := (leads_toValue hw).chart
  have hoptions := (leads_toValue hw).chartOptions
  rw [verifyChartOptions] at h
  rw [chartOptions] at hoptions
  cases hc : w.chart with
  | none =>
    rw [hc] at h hchart
    exact Verification.missing.inj h ▸ .of_isSome hchart rfl
  | some c =>
    rw [hc] at h hoptions
    exact lacksAt_of_require hoptions h

/-- Something is there in a field of a part. -/
theorem any_isSome_eq {β γ : Type} (x : Option β) (get : β → Option γ) :
    x.any (fun b => (get b).isSome) = (x.bind get).isSome := by cases x <;> rfl

/-- The tooltip is reported only where there is none, whatever part around it is absent. -/
theorem truthful_verifyTooltip : Truthful codec verifyTooltip := by
  intro w field hw h
  rw [verifyTooltip, any_isSome_eq] at h
  exact lacksAt_of_require (leads_toValue hw).tooltip h

/-- Options of results are reported only where there are none. -/
theorem truthful_verifyResults : Truthful codec verifyResults := by
  intro w field hw h
  rw [verifyResults, any_isSome_eq] at h
  exact lacksAt_of_require (leads_toValue hw).results h

/-- The filters of a description are reported only where there are none. -/
theorem truthful_verifyFilters : Truthful codec verifyFilters := by
  intro w field hw h
  rw [verifyFilters, any_isSome_eq] at h
  exact lacksAt_of_require (leads_toValue hw).filters h

/-- A legend without a position, whatever else it is, has nothing under that name. -/
theorem get?_position_eq_none {v : Value} (h : hasLegendPosition v = false) :
    v.get? "position" = none := by
  cases v with
  | object ms =>
    refine Members.get?_eq_none fun hmem => ?_
    obtain ⟨m, hm, hkey⟩ := List.mem_map.1 hmem
    have hcontains : Members.contains ms "position" = true :=
      List.any_eq_true.2 ⟨m, hm, beq_iff_eq.2 hkey⟩
    exact absurd (hcontains.symm.trans h) (by decide)
  | null | bool _ | number _ | string _ | array _ => rfl

/-- The position of the legend is reported where the legend is absent, or no object, or lacks it. -/
theorem truthful_verifyLegend : Truthful codec verifyLegend := by
  intro w field hw h
  obtain ⟨hnot, rfl⟩ := Verification.require_eq_missing_iff.1 h
  have hsteps : pathSteps "chart.options.legend.position" =
      [.member "chart", .member "options", .member "legend"] ++ [.member "position"] := by
    decide +kernel
  refine .inl ?_
  rw [hsteps, follow?_append, follow?_chartOptions_field hw (.tail _ (.head _))]
  cases hl : w.chartOptions.bind (·.legend) with
  | none => rfl
  | some v =>
    -- a legend that was read from a document is sorted already
    obtain ⟨o, ho, hov⟩ := Option.bind_eq_some_iff.1 hl
    have hlegend := (ChartOptions.returns_iff.1 (returns_of_chartOptions hw ho)).2.2
    rw [hov, Codec.optional_raw_returns_some_iff] at hlegend
    have hvalue : Codec.raw.toValue v = v := hlegend.1
    rw [hl] at hnot
    show ((Codec.raw.toValue v).get? "position").bind (follow? []) = none
    rw [hvalue, get?_position_eq_none hnot]
    rfl

/-- The source of data is reported where there is none, and else the first field that it lacks. -/
theorem truthful_verifyDatasource : Truthful codec verifyDatasource := by
  intro w field hw h
  have hdatasource := (leads_toValue hw).datasource
  have hkind := (leads_toValue hw).kind
  have hcustom := (leads_toValue hw).customQuery
  rw [verifyDatasource] at h
  cases hs : w.datasource with
  | none =>
    rw [hs] at h hdatasource
    exact Verification.missing.inj h ▸ .of_isSome hdatasource rfl
  | some s =>
    rw [hs] at h hkind hcustom
    rcases Verification.andThen_eq_missing_iff.1 h with h | ⟨-, h⟩
    · exact lacksAt_of_require hkind h
    · exact lacksAt_of_require hcustom h

/-- The description is reported where there is none, and else the first list that it lacks. -/
theorem truthful_verifyQueryLists : Truthful codec verifyQueryLists := by
  intro w field hw h
  have hconfig := (leads_toValue hw).config
  have haggregations := (leads_toValue hw).aggregations
  have hfields := (leads_toValue hw).fieldFilters
  have hmetadata := (leads_toValue hw).metadataFilters
  rw [verifyQueryLists] at h
  cases hc : w.config with
  | none =>
    rw [hc] at h hconfig
    exact Verification.missing.inj h ▸ .of_isSome hconfig rfl
  | some c =>
    rw [hc] at h haggregations hfields hmetadata
    -- the three lists are asked for in turn
    rcases Verification.andThen_eq_missing_iff.1 h with h | ⟨-, h⟩
    · rcases Verification.andThen_eq_missing_iff.1 h with h | ⟨-, h⟩
      · exact lacksAt_of_require haggregations h
      · exact lacksAt_of_require hfields h
    · exact lacksAt_of_require hmetadata h

/-- The id of a widget is reported where it is absent or empty. -/
theorem truthful_verifyId : Truthful codec verifyId := fun _ _ hw h =>
  lacksAt_of_require_id (follow?_field hw (.head _)) h

end Widget

/-! ## Checks of containers and of the dashboard -/

namespace Container

/-- The id of a container is reported where it is absent or empty. -/
theorem truthful_verifyId : Truthful codec verifyId := fun _ _ hc h =>
  lacksAt_of_require_id (follow?_field hc (.head _)) h

/-- The grid is reported where there is none, and else the first field that it lacks. -/
theorem truthful_verifyLayout : Truthful codec verifyLayout := by
  intro c field hc h
  have hgrid := isSome_follow? "container" (by decide +kernel)
    (follow?_field hc (.tail _ (.tail _ (.head _))))
  have hflow := isSome_follow? "container.flow" (by decide +kernel)
    (follow?_grid hc (.head _))
  have hcolumns := isSome_follow? "container.columns" (by decide +kernel)
    (follow?_grid hc (.tail _ (.head _)))
  have hheight := isSome_follow? "container.height" (by decide +kernel)
    (follow?_grid hc (.tail _ (.tail _ (.head _))))
  rw [verifyLayout] at h
  cases hg : c.grid with
  | none =>
    rw [hg] at h hgrid
    exact Verification.missing.inj h ▸ .of_isSome hgrid rfl
  | some g =>
    rw [hg] at h hflow hcolumns hheight
    rcases Verification.andThen_eq_missing_iff.1 h with h | ⟨-, h⟩
    · rcases Verification.andThen_eq_missing_iff.1 h with h | ⟨-, h⟩
      · exact lacksAt_of_require hflow h
      · exact lacksAt_of_require hcolumns h
    · exact lacksAt_of_require hheight h

end Container

/-- The parameters are reported only where there are none. -/
theorem Dashboard.truthful_verifyParams : Truthful codec verifyParams := fun _ _ hd h =>
  lacksAt_of_require (isSome_follow? _ (by decide +kernel)
    (follow?_field hd (.tail _ (.tail _ (.tail _ (.head _)))))) h

/-! ## What is visited -/

/-- What the path of a place leads to. -/
def Visited.value : Visited → Value
  | container c => Container.codec.toValue c
  | widget w => Widget.codec.toValue w

/-- The path of a place on the tour leads to the part that is visited there. -/
theorem follow?_path_of_mem_tour {d : Dashboard} (hd : Dashboard.codec.Returns d)
    {toContainers toWidgets : Bool} {v : Visit} (hv : .visit v ∈ d.tour toContainers toWidgets) :
    follow? (pathSteps v.place.path) (Dashboard.codec.toValue d) = some v.visited.value := by
  -- only containers and widgets are visited; the other stops of a tour are holes
  rcases Dashboard.mem_tour hv with
    ⟨-, he⟩ | ⟨i, c, hc, ⟨-, he⟩ | ⟨-, place, -, he⟩ | ⟨-, j, w, hw, he⟩⟩
  · exact nomatch he
  · obtain rfl := Stop.visit.inj he
    exact (Dashboard.follow?_containerPath hd i).trans (by rw [hc]; rfl)
  · exact nomatch he
  · obtain rfl := Stop.visit.inj he
    exact (Dashboard.follow?_widgetPath hd i j).trans (by rw [hc, Option.bind_some, hw]; rfl)

/-- A visited part is read back from its own value. -/
theorem returns_of_mem_tour {d : Dashboard} (hd : Dashboard.codec.Returns d)
    {toContainers toWidgets : Bool} {v : Visit} (hv : .visit v ∈ d.tour toContainers toWidgets) :
    match v.visited with
    | .container c => Container.codec.Returns c
    | .widget w => Widget.codec.Returns w := by
  rcases Dashboard.mem_tour hv with
    ⟨-, he⟩ | ⟨i, c, hc, ⟨-, he⟩ | ⟨-, place, -, he⟩ | ⟨-, j, w, hw, he⟩⟩
  · exact nomatch he
  · obtain rfl := Stop.visit.inj he
    exact Dashboard.returns_of_mem_containers hd (List.mem_of_getElem? hc)
  · exact nomatch he
  · obtain rfl := Stop.visit.inj he
    have hcontainer := Dashboard.returns_of_mem_containers hd (List.mem_of_getElem? hc)
    exact Container.returns_of_mem_widgets hcontainer (List.mem_of_getElem? hw)

/-- What a container lacks on the way to its widgets is not in its value. -/
theorem Container.Hole.follow?_eq_none {c : Container} {place : String} (h : c.Hole place)
    (hc : Container.codec.Returns c) : ∃ rest, place = "." ++ rest ∧
      follow? (pathSteps rest) (Container.codec.toValue c) = none := by
  cases h with
  | grid hg =>
    have hsteps : pathSteps "container" = [.member "container"] := by decide +kernel
    refine ⟨"container", rfl, ?_⟩
    rw [hsteps, Container.follow?_field hc (.tail _ (.tail _ (.head _))), hg]
    rfl
  | widgets hg hw =>
    have hsteps : pathSteps "container.children" =
        [.member "container", .member "children"] := by decide +kernel
    refine ⟨"container.children", rfl, ?_⟩
    rw [hsteps, Container.follow?_grid hc (.tail _ (.tail _ (.tail _ (.head _)))), hg,
      Option.bind_some, hw]
    rfl

/-- The path of a hole on the tour leads nowhere. -/
theorem follow?_hole_of_mem_tour {d : Dashboard} (hd : Dashboard.codec.Returns d)
    {toContainers toWidgets : Bool} {path : String}
    (hpath : .hole path ∈ d.tour toContainers toWidgets) :
    follow? (pathSteps path) (Dashboard.codec.toValue d) = none := by
  rcases Dashboard.mem_tour hpath with
    ⟨hcs, he⟩ | ⟨i, c, hc, ⟨-, he⟩ | ⟨-, place, hhole, he⟩ | ⟨-, j, w, -, he⟩⟩
  · obtain rfl := Stop.hole.inj he
    have hsteps : pathSteps "children" = [.member "children"] := by decide +kernel
    rw [hsteps, Dashboard.follow?_field hd (.tail _ (.tail _ (.tail _ (.tail _ (.head _))))), hcs]
    rfl
  · exact nomatch he
  · obtain rfl := Stop.hole.inj he
    have hreturns := Dashboard.returns_of_mem_containers hd (List.mem_of_getElem? hc)
    obtain ⟨rest, rfl, hnone⟩ := hhole.follow?_eq_none hreturns
    -- the path of the container leads to its value, where the rest of the path ends
    rw [← String.append_assoc, pathSteps_dot, follow?_append, Dashboard.follow?_containerPath hd,
      hc]
    exact hnone
  · exact nomatch he

/-! ## Checks of dashboards -/

/-- What a version of the schema looks at: the dashboard itself, or its containers and widgets. -/
inductive Scope where
  | root (check : Dashboard → Verification)
  | parts (onContainer : Option (Container → Verification))
      (onWidget : Option (Widget → Verification))

namespace Scope

/-- The check of a scope. -/
def verify : Scope → Dashboard → Except MigrationError Verification
  | root check, d => .ok (check d)
  | parts onContainer onWidget, d => Id.run (d.verifyParts (m := Id) onContainer onWidget)

/-- The check of one part. -/
def checkPart (onContainer : Option (Container → Verification))
    (onWidget : Option (Widget → Verification)) (v : Visited) : Verification :=
  Id.run (v.checkWith (m := Id) onContainer onWidget)

/-- A path is the first that is missing: it is the path of a field in a part that is not satisfied,
and every part before it on the tour is satisfied. -/
inductive FirstMissing (d : Dashboard) : Scope → String → Prop
  | root {check : Dashboard → Verification} {path : String} : check d = .missing path →
      FirstMissing d (.root check) path
  | parts {onContainer : Option (Container → Verification)}
      {onWidget : Option (Widget → Verification)} {passed : List Visit} {v : Visit}
      {rest : List Stop} {field : String} :
      d.tour onContainer.isSome onWidget.isSome = passed.map .visit ++ .visit v :: rest →
      (∀ u ∈ passed, checkPart onContainer onWidget u.visited = .satisfied) →
      checkPart onContainer onWidget v.visited = .missing field →
      FirstMissing d (.parts onContainer onWidget) (v.place.fieldPath field)

/-- A scope reports the first path that is missing. -/
theorem firstMissing_of_verify {scope : Scope} {d : Dashboard} {path : String}
    (h : scope.verify d = .ok (.missing path)) : scope.FirstMissing d path := by
  cases scope with
  | root check => exact .root (Except.ok.inj h)
  | parts onContainer onWidget =>
    rw [verify, verifyParts_eq_scan] at h
    obtain ⟨passed, v, rest, field, htour, hpassed, hv, rfl⟩ := exists_split_of_scan_missing h
    exact .parts htour hpassed hv

/-- The checks of a scope report only what is not there. -/
def IsTruthful : Scope → Prop
  | root check => Truthful Dashboard.codec check
  | parts onContainer onWidget =>
    (∀ check ∈ onContainer, Truthful Container.codec check) ∧
      ∀ check ∈ onWidget, Truthful Widget.codec check

/-- The check of one part reports only what is not there. -/
theorem lacksAt_of_checkPart {onContainer : Option (Container → Verification)}
    {onWidget : Option (Widget → Verification)} (h : (parts onContainer onWidget).IsTruthful)
    {d : Dashboard} (hd : Dashboard.codec.Returns d) {v : Visit} {field : String}
    (hv : .visit v ∈ d.tour onContainer.isSome onWidget.isSome)
    (hfield : checkPart onContainer onWidget v.visited = .missing field) :
    LacksAt v.visited.value field := by
  have hreturns := returns_of_mem_tour hd hv
  -- a part of a kind that is not checked is satisfied, and reports nothing
  cases hvisited : v.visited with
  | container c =>
    rw [hvisited] at hfield hreturns
    cases onContainer with
    | none => exact nomatch hfield
    | some check => exact h.1 check rfl c field hreturns hfield
  | widget w =>
    rw [hvisited] at hfield hreturns
    cases onWidget with
    | none => exact nomatch hfield
    | some check => exact h.2 check rfl w field hreturns hfield

/-- A truthful scope reports what is not in the value of the dashboard. -/
theorem lacksAt_of_firstMissing {scope : Scope} (h : scope.IsTruthful) {d : Dashboard}
    (hd : Dashboard.codec.Returns d) {path : String} (hpath : scope.FirstMissing d path) :
    LacksAt (Dashboard.codec.toValue d) path := by
  cases hpath with
  | root hcheck => exact h d path hd hcheck
  | @parts onContainer onWidget passed v rest field htour hpassed hfield =>
    have hv : .visit v ∈ d.tour onContainer.isSome onWidget.isSome := by
      rw [htour]
      exact List.mem_append_right _ List.mem_cons_self
    exact .inside (follow?_path_of_mem_tour hd hv) (lacksAt_of_checkPart h hd hv hfield)

/-- A scope that cannot be checked gives the path of something that is not there. -/
theorem verify_error {scope : Scope} {d : Dashboard} (hd : Dashboard.codec.Returns d)
    {e : MigrationError} (h : scope.verify d = .error e) : ∃ path, e = .malformed path ∧
      follow? (pathSteps path) (Dashboard.codec.toValue d) = none := by
  cases scope with
  | root check => exact nomatch h
  | parts onContainer onWidget =>
    rw [verify, verifyParts_eq_scan] at h
    obtain ⟨passed, path, rest, htour, -, rfl⟩ := exists_split_of_scan_error h
    have hmem : .hole path ∈ d.tour onContainer.isSome onWidget.isSome := by
      rw [htour]
      exact List.mem_append_right _ List.mem_cons_self
    exact ⟨path, rfl, follow?_hole_of_mem_tour hd hmem⟩

end Scope

/-! ## The history -/

/-- What the versions of the history look at, in order. -/
def schemaScopes : List Scope := [
  .parts none (some Widget.verifyConfig),
  .parts none (some Widget.verifySpans),
  .parts none (some Widget.verifyChartOptions),
  .parts none (some Widget.verifyTooltip),
  .parts none (some Widget.verifyLegend),
  .parts none (some Widget.verifyResults),
  .root Dashboard.verifyParams,
  .parts (some Container.verifyLayout) none,
  .parts none (some Widget.verifyDatasource),
  .parts none (some Widget.verifyQueryLists),
  .parts (some Container.verifyId) (some Widget.verifyId),
  .parts none (some Widget.verifyFilters)]

/-- Each version of the history checks its scope. -/
theorem map_verify_schemaScopes : schemaScopes.map Scope.verify = schemaHistory.map (·.verify) :=
  rfl

/-- No version of the history reports what is there. -/
theorem isTruthful_of_mem_schemaScopes {scope : Scope} (h : scope ∈ schemaScopes) :
    scope.IsTruthful := by
  have hwidget {check : Widget → Verification} (hcheck : Truthful Widget.codec check) :
      (Scope.parts none (some check)).IsTruthful :=
    ⟨fun _ h => (nomatch h), fun _ h => Option.some.inj h ▸ hcheck⟩
  simp only [schemaScopes, List.mem_cons, List.not_mem_nil, or_false] at h
  rcases h with rfl | rfl | rfl | rfl | rfl | rfl | rfl | rfl | rfl | rfl | rfl | rfl
  · exact hwidget Widget.truthful_verifyConfig
  · exact hwidget Widget.truthful_verifySpans
  · exact hwidget Widget.truthful_verifyChartOptions
  · exact hwidget Widget.truthful_verifyTooltip
  · exact hwidget Widget.truthful_verifyLegend
  · exact hwidget Widget.truthful_verifyResults
  · exact Dashboard.truthful_verifyParams
  · exact ⟨fun _ h => Option.some.inj h ▸ Container.truthful_verifyLayout, fun _ h => (nomatch h)⟩
  · exact hwidget Widget.truthful_verifyDatasource
  · exact hwidget Widget.truthful_verifyQueryLists
  · exact ⟨fun _ h => Option.some.inj h ▸ Container.truthful_verifyId,
      fun _ h => Option.some.inj h ▸ Widget.truthful_verifyId⟩
  · exact hwidget Widget.truthful_verifyFilters

/-- A step of the history checks one of the scopes. -/
theorem Step.IsBuiltin.exists_scope {s : Step} (hs : s.IsBuiltin) :
    ∃ scope ∈ schemaScopes, s.verify = scope.verify := by
  obtain ⟨t, ht, hverify, -⟩ := hs
  have hmem : t.verify ∈ schemaScopes.map Scope.verify :=
    map_verify_schemaScopes ▸ List.mem_map_of_mem ht
  obtain ⟨scope, hscope, he⟩ := List.mem_map.1 hmem
  exact ⟨scope, hscope, hverify.trans he.symm⟩

/-- A catalogue of versions of the history reports, for a dashboard that was read from a document,
a path that leads nowhere in its value, or to an empty id.  The versions before the one that reports
it are satisfied, and so are all parts that this one has visited before.  If the dashboard cannot be
checked, then the path that is given leads nowhere. -/
theorem Catalogue.verify_reports_first (c : Catalogue) (hc : ∀ s ∈ c.steps, s.IsBuiltin)
    {v : Value} {d : Dashboard} (hd : Dashboard.codec.ofValue v = .ok d) :
    (∀ path, c.verify d = .ok (.missing path) →
      LacksAt (Dashboard.codec.toValue d) path ∧
      ∃ before s after, c.steps = before ++ s :: after ∧
        (∀ t ∈ before, t.verify d = .ok .satisfied) ∧
        ∃ scope ∈ schemaScopes, s.verify = scope.verify ∧ scope.FirstMissing d path) ∧
    ∀ e, c.verify d = .error e → ∃ path, e = .malformed path ∧
      follow? (pathSteps path) (Dashboard.codec.toValue d) = none := by
  have hreturns : Dashboard.codec.Returns d :=
    Dashboard.faithful_shape.codec v.sorted d v.isSorted_sorted hd
  constructor
  · intro path h
    -- the steps are asked in order, and the first that is not satisfied ends the search
    obtain ⟨before, s, after, hsteps, hbefore, hs⟩ := exists_split_of_verifySteps h nofun
    have hmem : s ∈ c.steps := hsteps ▸ List.mem_append_right _ List.mem_cons_self
    -- the step that reports the path checks as a version of the history does
    obtain ⟨scope, hscope, hverify⟩ := (hc s hmem).exists_scope
    have hfirst := Scope.firstMissing_of_verify (hverify ▸ hs)
    exact ⟨Scope.lacksAt_of_firstMissing (isTruthful_of_mem_schemaScopes hscope) hreturns hfirst,
      before, s, after, hsteps, hbefore, scope, hscope, hverify, hfirst⟩
  · intro e h
    obtain ⟨before, s, after, hsteps, -, hs⟩ := exists_split_of_verifySteps h nofun
    have hmem : s ∈ c.steps := hsteps ▸ List.mem_append_right _ List.mem_cons_self
    obtain ⟨scope, -, hverify⟩ := (hc s hmem).exists_scope
    exact Scope.verify_error hreturns (hverify ▸ hs)

/-- A legend that is a word has no position; the container before has no widgets. -/
theorem Catalogue.verify_reports_first_legend :
    let legend : Value := .object [("legend", .string "none"), ("tooltip", .object [])]
    let widget : Value := .object [("chart", .object [("options", legend)]),
      ("datasource", .object [("config", .object [])]),
      ("layout", .object [("columnspan", .ofNat 1), ("rowspan", .ofNat 2)])]
    let container (ws : List Value) : Value := .object [("container", .object [("children",
      .array ws)])]
    let v : Value := .object [("children", .array [container [], container [widget]])]
    let d : Dashboard := (Dashboard.mk none none none none (some [.ofWidgets [], .ofWidgets [
      Widget.mk none none (some ⟨some 1, some 2, []⟩)
        (some ⟨none, some ⟨some {}, some (.string "none"), []⟩, []⟩)
        (some ⟨none, none, none, some {}, []⟩) []]]) [])
    let path := "children[1].container.children[0].chart.options.legend.position"
    Dashboard.codec.ofValue v = .ok d ∧ (∀ s ∈ Catalogue.builtin.steps, s.IsBuiltin) ∧
      Catalogue.builtin.verify d = .ok (.missing path) ∧
      LacksAt (Dashboard.codec.toValue d) path := by
  intro legend widget container v d path
  have hd : Dashboard.codec.ofValue v = .ok d := by decide +kernel
  have hpath : Catalogue.builtin.verify d = .ok (.missing path) := by decide +kernel
  have hbuiltin : ∀ s ∈ Catalogue.builtin.steps, s.IsBuiltin := isBuiltin_of_mem_builtin
  exact ⟨hd, hbuiltin, hpath, ((Catalogue.builtin.verify_reports_first hbuiltin hd).1 path hpath).1⟩

end Dashboards
