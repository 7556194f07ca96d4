import Dashboards.Proofs.Document.Shapes
import Dashboards.Proofs.Record.Passthrough
import Dashboards.Proofs.Schema.Outcome

/-!
# What migrations of raw documents keep

A raw document is decoded, migrated and encoded again.  Nothing gets lost on the way: every object
that is decoded as a record has the same unknown members after as before, and of the known members
only ids that are empty, the version and legends have other values, and the lists of a query are
written in their canonical form.

What may become of a record is said by a relation for each kind of record (`Widget.passage` and so
on), and that the completion of the record obeys it is shown member by member, from the innermost
records outwards.

## Key results

- `Dashboard.passes_complete`: a dashboard that is decoded, completed and encoded
- `migrateValue_builtin_passage`: what a migration of a raw document keeps
-/

namespace Dashboards

open Json (Members Value)

/-! ## Values that change -/

namespace Passage

/-- An id that is not empty stays. -/
def id : Passage := fun v v' => v ≠ .string "" → v' = v

/-- A legend is made an object with a position. -/
def legend : Passage := fun v v' => v' = normalizeLegend v

/-- The version becomes the later one of the stored version and the last. -/
def version : Passage := fun v v' =>
  ∃ stored, Version.codec.ofValue v = .ok stored ∧ v' = .string (max stored ⟨12⟩).text

/-- What the value means is written in its canonical form. -/
def canonical {β : Type} (c : Codec β) : Passage := fun v v' =>
  ∃ b, c.ofValue v = .ok b ∧ v' = c.toValue b

end Passage

namespace Codec

/-- An id may be replaced if it is empty. -/
theorem string_passes_id {s s' : String} (h : s ≠ "" → s' = s) : string.Passes s s' .id := by
  intro v hv hread hne
  -- the value is the id that was read, so it is empty exactly if the id is
  obtain rfl : s' = s := h fun hs => by
    have hsame : string.toValue s = v := string_passes s v hv hread
    rw [← hsame, hs] at hne
    exact hne rfl
  exact string_passes s' v hv hread

/-- The later version is written as a numeral. -/
theorem version_passes (stored : Version) :
    Version.codec.Passes stored (max stored ⟨12⟩) .version := by
  intro v hv hread
  refine ⟨stored, ?_, rfl⟩
  rw [ofValue, hv]
  exact hread

/-- What is kept is written in its canonical form. -/
theorem passes_canonical {β : Type} (c : Codec β) (b : β) : c.Passes b b (.canonical c) := by
  intro v hv hread
  refine ⟨b, ?_, rfl⟩
  rw [ofValue, hv]
  exact hread

end Codec

/-- A legend that is normalized is sorted if it was sorted before. -/
theorem isSorted_normalizeLegend (v : Value) (hv : v.IsSorted) : (normalizeLegend v).IsSorted := by
  have hword : ∀ s, (Value.object [("position", .string s)]).IsSorted := fun s =>
    Value.isSorted_object_iff.2 ⟨List.pairwise_singleton _ _, List.forall_mem_singleton.2 rfl⟩
  -- an object without a position gets one among its members; anything else becomes a new object
  cases v with
  | object ms =>
    rw [normalizeLegend]
    split
    · exact hv
    · obtain ⟨hms, hvs⟩ := Value.isSorted_object_iff.1 hv
      refine Value.isSorted_object_iff.2 ⟨Members.ascending_insert _ _ hms, fun m hm => ?_⟩
      rcases Members.mem_insert hm with rfl | hm
      · rfl
      · exact hvs m hm
  | null | bool _ | number _ | string _ | array _ => exact hword _

/-! ## Charts -/

/-- What may become of a tooltip. -/
def Tooltip.passage : Passage := .record [("isHtml", .same), ("trigger", .same)]

/-- What may become of the options of a chart. -/
def ChartOptions.passage : Passage := .record [("tooltip", Tooltip.passage), ("legend", .legend)]

/-- What may become of a chart. -/
def Chart.passage : Passage := .record [("chartType", .same), ("options", ChartOptions.passage)]

/-- A tooltip is kept as it is. -/
theorem Tooltip.passes (t : Tooltip) : Tooltip.shape.codec.Passes t t Tooltip.passage := by
  refine lawful_shape.passes rfl (.cons ⟨rfl, ?isHtml⟩ (.cons ⟨rfl, ?trigger⟩ .nil))
  case isHtml => exact Member.optional_keeps (fun _ _ => rfl) Codec.bool_passes rfl
  case trigger => exact Member.optional_keeps (fun _ _ => rfl) Codec.string_passes rfl

/-- Options of a chart get a tooltip if they have none, and a legend with a position. -/
theorem ChartOptions.passes_complete (o : ChartOptions) :
    ChartOptions.shape.codec.Passes o o.complete ChartOptions.passage := by
  refine lawful_shape.passes rfl (.cons ⟨rfl, ?tooltip⟩ (.cons ⟨rfl, ?legend⟩ .nil))
  case tooltip => exact Member.optional_fills (fun _ _ => rfl) Tooltip.passes rfl
  case legend =>
    have hlegend := Codec.raw_passes isSorted_normalizeLegend
    exact Member.optional_fills (fun _ _ => rfl) hlegend rfl

/-- A chart keeps its kind and gets options if it has none. -/
theorem Chart.passes_complete (c : Chart) :
    Chart.shape.codec.Passes c c.complete Chart.passage := by
  refine lawful_shape.passes rfl (.cons ⟨rfl, ?kind⟩ (.cons ⟨rfl, ?options⟩ .nil))
  case kind => exact Member.optional_keeps (fun _ _ => rfl) Codec.string_passes rfl
  case options => exact Member.optional_fills (fun _ _ => rfl) ChartOptions.passes_complete rfl

/-! ## Sources of data -/

/-- What may become of the options of results. -/
def ResultOptions.passage : Passage :=
  .record [("pivot", .same), ("show_date", .same), ("row_limit", .same)]

/-- What may become of a description of data. -/
def SourceConfig.passage : Passage := .record [
  ("aggregations", .canonical (.list Aggregation.codec)),
  ("fieldFilters", .canonical (.list Filter.shape.codec)),
  ("metadataFilters", .canonical (.list Filter.shape.codec)),
  ("results", ResultOptions.passage),
  ("filters", .same)]

/-- What may become of a datasource. -/
def Datasource.passage : Passage := .record [
  ("query", .same), ("custom_query", .same), ("type", .same), ("config", SourceConfig.passage)]

/-- Options of results are kept as they are. -/
theorem ResultOptions.passes (r : ResultOptions) :
    ResultOptions.shape.codec.Passes r r ResultOptions.passage := by
  refine lawful_shape.passes rfl
    (.cons ⟨rfl, ?pivot⟩ (.cons ⟨rfl, ?showDate⟩ (.cons ⟨rfl, ?rowLimit⟩ .nil)))
  case pivot => exact Member.optional_keeps (fun _ _ => rfl) Codec.bool_passes rfl
  case showDate => exact Member.optional_keeps (fun _ _ => rfl) Codec.bool_passes rfl
  case rowLimit => exact Member.optional_keeps (fun _ _ => rfl) Codec.uint64_passes rfl

/-- A description of data gets the lists, the results and the filters that it lacks. -/
theorem SourceConfig.passes_complete (c : SourceConfig) :
    SourceConfig.shape.codec.Passes c c.complete SourceConfig.passage := by
  refine lawful_shape.passes rfl
    (.cons ⟨rfl, ?aggregations⟩ (.cons ⟨rfl, ?fieldFilters⟩ (.cons ⟨rfl, ?metadataFilters⟩
      (.cons ⟨rfl, ?results⟩ (.cons ⟨rfl, ?filters⟩ .nil)))))
  -- completion only fills in what is absent
  case aggregations => exact Member.optional_fills (fun _ _ => rfl) (Codec.passes_canonical _) rfl
  case fieldFilters => exact Member.optional_fills (fun _ _ => rfl) (Codec.passes_canonical _) rfl
  case metadataFilters =>
    exact Member.optional_fills (fun _ _ => rfl) (Codec.passes_canonical _) rfl
  case results => exact Member.optional_fills (fun _ _ => rfl) ResultOptions.passes rfl
  case filters => exact Member.optional_fills (fun _ _ => rfl) Codec.rawObject_passes rfl

/-- A source of data keeps its query and gets what else it lacks. -/
theorem Datasource.passes_complete (s : Datasource) :
    Datasource.shape.codec.Passes s s.complete Datasource.passage := by
  refine lawful_shape.passes rfl
    (.cons ⟨rfl, ?query⟩ (.cons ⟨rfl, ?customQuery⟩ (.cons ⟨rfl, ?kind⟩
      (.cons ⟨rfl, ?config⟩ .nil))))
  case query => exact Member.optional_keeps (fun _ _ => rfl) Codec.string_passes rfl
  case customQuery => exact Member.optional_fills (fun _ _ => rfl) Codec.bool_passes rfl
  case kind => exact Member.optional_fills (fun _ _ => rfl) Codec.string_passes rfl
  case config => exact Member.optional_fills (fun _ _ => rfl) SourceConfig.passes_complete rfl

/-! ## Widgets -/

/-- What may become of a widget's layout. -/
def WidgetLayout.passage : Passage := .record [("columnspan", .same), ("rowspan", .same)]

/-- What may become of a widget. -/
def Widget.passage : Passage := .record [
  ("id", .id),
  ("title", .same),
  ("layout", WidgetLayout.passage),
  ("chart", Chart.passage),
  ("datasource", Datasource.passage)]

/-- A layout gets the spans that it lacks. -/
theorem WidgetLayout.passes_complete (l : WidgetLayout) :
    WidgetLayout.shape.codec.Passes l l.complete WidgetLayout.passage := by
  refine lawful_shape.passes rfl (.cons ⟨rfl, ?columnSpan⟩ (.cons ⟨rfl, ?rowSpan⟩ .nil))
  case columnSpan => exact Member.optional_fills (fun _ _ => rfl) Codec.uint32_passes rfl
  case rowSpan => exact Member.optional_fills (fun _ _ => rfl) Codec.uint32_passes rfl

/-- An id that is not empty is not replaced. -/
theorem exists_run_assignId (s : String) (ids : IdSupply) :
    ∃ s', ((assignId (some s)).run ids).1 = some s' ∧ (s ≠ "" → s' = s) := by
  by_cases hs : s = ""
  · exact ⟨ids 0, by rw [hs]; rfl, fun h => absurd hs h⟩
  · have hid : hasId (some s) := bne_iff_ne.2 hs
    exact ⟨s, by rw [assignId, if_pos hid]; rfl, fun _ => rfl⟩

/-- Ids that are given out pass. -/
theorem assignId_passes {α : Type} {key : String} {get : α → Option String}
    {set : Option String → α → α} (hset : ∀ x a, get (set x a) = x) {a a' : α} {ids : IdSupply}
    (h : get a' = ((assignId (get a)).run ids).1) :
    (Member.optional key .string get set).Passes a a' .id := by
  refine Member.optional_passes hset fun s hs => ?_
  obtain ⟨s', hs', hsame⟩ := exists_run_assignId s ids
  exact ⟨s', by rw [h, hs, hs'], Codec.string_passes_id hsame⟩

/-- A widget gets the parts that it lacks, and an id if its own is absent or empty. -/
theorem Widget.passes_complete (w : Widget) (ids : IdSupply) :
    Widget.shape.codec.Passes w (w.complete.run ids).1 Widget.passage := by
  -- the id is the only part of a widget that comes from the supply
  have hrun : (w.complete.run ids).1 =
      { w.completeParts with id := ((assignId w.id).run ids).1 } := rfl
  rw [hrun]
  refine lawful_shape.passes rfl
    (.cons ⟨rfl, ?id⟩ (.cons ⟨rfl, ?title⟩ (.cons ⟨rfl, ?layout⟩
      (.cons ⟨rfl, ?chart⟩ (.cons ⟨rfl, ?datasource⟩ .nil)))))
  case id => exact assignId_passes (fun _ _ => rfl) rfl
  case title => exact Member.optional_keeps (fun _ _ => rfl) Codec.string_passes rfl
  case layout => exact Member.optional_fills (fun _ _ => rfl) WidgetLayout.passes_complete rfl
  case chart => exact Member.optional_fills (fun _ _ => rfl) Chart.passes_complete rfl
  case datasource => exact Member.optional_fills (fun _ _ => rfl) Datasource.passes_complete rfl

/-! ## Containers -/

/-- What may become of a container's grid. -/
def Grid.passage : Passage := .record [
  ("flow", .same), ("columns", .same), ("height", .same), ("children", .list Widget.passage)]

/-- What may become of a container. -/
def Container.passage : Passage :=
  .record [("id", .id), ("title", .same), ("container", Grid.passage)]

/-- Items of a list that are changed one after the other pass in their places. -/
theorem list_passes_run_mapM {α : Type} {c : Codec α} {R : Passage} {f : α → StateM IdSupply α}
    (h : ∀ a ids, c.Passes a ((f a).run ids).1 R) (as : List α) (ids : IdSupply) :
    (Codec.list c).Passes as ((as.mapM f).run ids).1 (.list R) := by
  refine Codec.list_passes ?_
  -- each item goes on with the supply that those before it have left
  induction as generalizing ids with
  | nil => exact .nil
  | cons a as ih =>
    simp only [List.mapM_cons, StateT.run_bind, StateT.run_pure]
    exact .cons (h a ids) (ih _)

/-- A grid gets what it lacks but for its widgets, which are completed in their places. -/
theorem Grid.passes_complete (g : Grid) (ids : IdSupply) :
    Grid.shape.codec.Passes g (g.complete.run ids).1 Grid.passage := by
  have hrun : (g.complete.run ids).1 =
      { g.completeLayout with
        children := ((g.children.mapM (List.mapM Widget.complete)).run ids).1 } := rfl
  rw [hrun]
  refine lawful_shape.passes rfl
    (.cons ⟨rfl, ?flow⟩ (.cons ⟨rfl, ?columns⟩ (.cons ⟨rfl, ?height⟩
      (.cons ⟨rfl, ?children⟩ .nil))))
  case flow => exact Member.optional_fills (fun _ _ => rfl) Codec.string_passes rfl
  case columns => exact Member.optional_fills (fun _ _ => rfl) Codec.uint32_passes rfl
  case height => exact Member.optional_fills (fun _ _ => rfl) Codec.uint32_passes rfl
  case children =>
    refine Member.optional_passes (fun _ _ => rfl) fun ws hws =>
      ⟨((ws.mapM Widget.complete).run ids).1, ?_,
        list_passes_run_mapM Widget.passes_complete ws ids⟩
    rw [hws]
    rfl

/-- A container gets an id if its own is absent or empty, and its grid is completed. -/
theorem Container.passes_complete (c : Container) (ids : IdSupply) :
    Container.shape.codec.Passes c (c.complete.run ids).1 Container.passage := by
  have hrun : (c.complete.run ids).1 =
      { c with
        id := ((assignId c.id).run ids).1
        grid := ((c.grid.mapM Grid.complete).run ((assignId c.id).run ids).2).1 } := rfl
  rw [hrun]
  refine lawful_shape.passes rfl
    (.cons ⟨rfl, ?id⟩ (.cons ⟨rfl, ?title⟩ (.cons ⟨rfl, ?grid⟩ .nil)))
  case id => exact assignId_passes (fun _ _ => rfl) rfl
  case title => exact Member.optional_keeps (fun _ _ => rfl) Codec.string_passes rfl
  case grid =>
    -- the widgets get their ids after the container
    refine Member.optional_passes (fun _ _ => rfl) fun g hg =>
      ⟨(g.complete.run ((assignId c.id).run ids).2).1, ?_, g.passes_complete _⟩
    rw [hg]
    rfl

/-! ## Dashboards -/

/-- What may become of a parameter. -/
def Parameter.passage : Passage := .record [("name", .same), ("value", .same)]

/-- What may become of a dashboard. -/
def Dashboard.passage : Passage := .record [
  ("id", .same),
  ("title", .same),
  ("version", .version),
  ("params", .list Parameter.passage),
  ("children", .list Container.passage)]

/-- A parameter is kept as it is. -/
theorem Parameter.passes (p : Parameter) :
    Parameter.shape.codec.Passes p p Parameter.passage := by
  refine lawful_shape.passes rfl (.cons ⟨rfl, ?name⟩ (.cons ⟨rfl, ?value⟩ .nil))
  case name => exact Member.required_passes (fun _ _ => rfl) (Codec.string_passes _)
  case value => exact Member.defaulted_passes (fun _ _ => rfl) (Codec.string_passes _)

/-- What becomes of a dashboard that is decoded, completed and encoded. -/
theorem Dashboard.passes_complete (d : Dashboard) (ids : IdSupply) :
    Dashboard.codec.Passes d
      { (d.complete.run ids).1 with version := max d.version (some ⟨12⟩) } Dashboard.passage := by
  have hrun : (d.complete.run ids).1 =
      { d with
        params := some (d.params.getD [])
        children := ((d.children.mapM (List.mapM Container.complete)).run ids).1 } := rfl
  rw [hrun]
  -- one passage for each member of the table, in the order of the table
  refine lawful_shape.passes rfl
    (.cons ⟨rfl, ?id⟩ (.cons ⟨rfl, ?title⟩ (.cons ⟨rfl, ?version⟩ (.cons ⟨rfl, ?params⟩
      (.cons ⟨rfl, ?children⟩ .nil)))))
  case id => exact Member.optional_keeps (fun _ _ => rfl) Codec.string_passes rfl
  case title => exact Member.optional_keeps (fun _ _ => rfl) Codec.string_passes rfl
  case version =>
    refine Member.optional_passes (fun _ _ => rfl) fun stored hstored =>
      ⟨max stored ⟨12⟩, ?_, Codec.version_passes stored⟩
    rw [hstored, Option.max_some_some]
  case params =>
    have hparams : ∀ ps,
        (Codec.list Parameter.shape.codec).Passes ps ps (.list Parameter.passage) :=
      fun ps => Codec.list_passes (List.forall₂_same.2 fun p _ => p.passes)
    exact Member.optional_fills (fun _ _ => rfl) hparams rfl
  case children =>
    refine Member.optional_passes (fun _ _ => rfl) fun cs hcs =>
      ⟨((cs.mapM Container.complete).run ids).1, ?_,
        list_passes_run_mapM Container.passes_complete cs ids⟩
    rw [hcs]
    rfl

/-! ## Raw documents -/

/-- A migration of a raw document that succeeds has decoded a structurally complete dashboard, and
encodes its completion. -/
theorem migrateValue_builtin_eq_ok {v w : Value} {report : MigrationReport} {ids : IdSupply}
    (hids : ids.NonEmpty) (h : Catalogue.builtin.migrateValue ids v = .ok (w, report)) :
    ∃ d, Dashboard.codec.ofValue v = .ok d ∧ d.StructurallyComplete ∧
      w = Dashboard.codec.toValue
        { (d.complete.run ids).1 with version := max d.version (some ⟨12⟩) } := by
  rw [Catalogue.migrateValue] at h
  cases hd : Dashboard.codec.ofValue v with
  | error p => rw [hd] at h; exact nomatch h
  | ok d =>
    rw [hd] at h
    have hrun : Catalogue.builtin.migrate.run.run ⟨d, ids⟩ =
        Work.runOn Catalogue.builtin.migrate ⟨d, ids⟩ := rfl
    simp only [hrun] at h
    -- a hole would have ended the migration
    by_cases hcomplete : d.StructurallyComplete
    · obtain ⟨report', ws, hok, _, hver, hdash, _⟩ := runOn_migrate_builtin hcomplete hids
      rw [hok] at h
      refine ⟨d, rfl, hcomplete, ?_⟩
      rw [← hver, ← hdash]
      exact (Prod.mk.inj (Except.ok.inj h)).1.symm
    · obtain ⟨path, hpath⟩ := Dashboard.exists_firstHole hcomplete
      rw [runOn_migrate_builtin_of_firstHole ⟨d, ids⟩ hpath] at h
      exact nomatch h

/-- A migration of a raw document, its objects taken as maps, loses nothing.  Every object that is
decoded as a record keeps its unknown members, lists keep their length and order, and known members
keep their values but for empty ids of containers and widgets, legends, which are normalized, lists
of a query, which are written in canonical form, and the version, which is the later one of the
stored version and the last. -/
theorem migrateValue_builtin_passage (v w : Value) (report : MigrationReport) (ids : IdSupply)
    (hids : ids.NonEmpty) (h : Catalogue.builtin.migrateValue ids v = .ok (w, report)) :
    Dashboard.passage v.sorted w ∧
      ∃ d version, Dashboard.codec.ofValue v = .ok d ∧
        some version = max d.version (some ⟨12⟩) ∧
        w.get? "version" = some (.string version.text) := by
  obtain ⟨d, hd, _, hw⟩ := migrateValue_builtin_eq_ok hids h
  have hfinal := Catalogue.builtin.some_finalVersion d.version
  -- what is found under `version`, whether or not the document had a version
  obtain ⟨hnodup, hown⟩ := Dashboard.lawful_shape.own_keys_of_read v.isSorted_sorted hd
  obtain ⟨ms, hms, hwritten, _⟩ := Dashboard.lawful_shape.separate.get?_toValue
    (a := { (d.complete.run ids).1 with version := max d.version (some ⟨12⟩) }) hnodup hown
  have hversion : ms.get? "version" =
      ((max d.version (some ⟨12⟩)).map Version.codec.write).map Value.sorted :=
    hwritten _ (.tail _ (.tail _ (.head _)))
  have hwms : w = .object ms := hw.trans hms
  refine ⟨?_, d, Catalogue.builtin.finalVersion d.version, hd, hfinal, ?_⟩
  · rw [hw]
    exact d.passes_complete ids v.sorted v.isSorted_sorted hd
  · rw [hwms, Value.get?, hversion]
    exact congrArg (fun version => (version.map Version.codec.write).map Value.sorted) hfinal.symm

/-- A raw document as early schemas have it, with members of its own at three levels. -/
def rawEarly : Value := .object [
  ("theme", .string "dark"),
  ("version", .string "3"),
  ("children", .array [.object [("container", .object [("children", .array [.object [
    ("id", .string ""),
    ("note", .array [.null]),
    ("chart", .object [("options", .object [("legend", .string "top"), ("zoom", .bool true)])]),
    ("datasource", .object [
      ("config", .object [("aggregations", .array [.string "MAX"])])])]])])]])]

/-- The early document is migrated, and keeps its theme. -/
theorem migrateValue_builtin_passage_early :
    sampleIds.NonEmpty ∧ ∃ w report,
      Catalogue.builtin.migrateValue sampleIds rawEarly = .ok (w, report) ∧
      Dashboard.passage rawEarly.sorted w ∧ w.get? "theme" = some (.string "dark") := by
  have hok : (Catalogue.builtin.migrateValue sampleIds rawEarly).isOk = true := by decide +kernel
  cases h : Catalogue.builtin.migrateValue sampleIds rawEarly with
  | error e => rw [h] at hok; exact nomatch hok
  | ok r =>
    obtain ⟨w, report⟩ := r
    obtain ⟨hpassage, _⟩ :=
      migrateValue_builtin_passage rawEarly w report sampleIds sampleIds_nonEmpty h
    refine ⟨sampleIds_nonEmpty, w, report, rfl, hpassage, ?_⟩
    -- the theme is none of the known members, so it is found as before
    obtain ⟨ms, ms', hms, rfl, hunknown, _⟩ := hpassage
    rw [Value.get?, hunknown "theme" (by decide), ← Value.object.inj hms]
    decide +kernel

end Dashboards
