import Dashboards.Proofs.Document.Saving
import Dashboards.Proofs.Schema.Idempotence

/-!
# Saving migrated dashboards

A dashboard that was loaded from a text can be saved and loaded again, and so can what a migration
makes of it.  A migration puts in parts of its own, but none of them are deep, and it puts in no
doubles.

## Key results

- `Dashboard.prints_run_complete`: the completion of what can be printed can be printed
- `Dashboard.ofText_toText_of_ofText`: what was loaded is loaded again, before and after a migration
-/

namespace Dashboards

open Codec (optional_prints_fill optional_prints_iff optional_prints_update)
open Json (Members Rereads Value)

/-! ## Records -/

section

variable {room : Nat}

/-- The spans that are put in can be printed. -/
theorem WidgetLayout.prints_complete {l : WidgetLayout} (h : shape.codec.Prints (room + 1) l) :
    shape.codec.Prints (room + 1) l.complete := by
  refine Shape.prints_of_others_eq h rfl ?_
  simp [shape, optional_prints_iff]

/-- A normalized legend has a word more than before. -/
theorem printable_normalizeLegend {v : Value} (hv : v.Printable (room + 1)) :
    (normalizeLegend v).Printable (room + 1) := by
  have hword : ∀ s, (Value.object [("position", .string s)]).Printable (room + 1) := by simp
  cases v with
  | object ms =>
    rw [normalizeLegend]
    split
    · exact hv
    · rw [Value.printable_object_iff] at hv ⊢
      intro m hm
      rcases Members.mem_insert hm with rfl | hm
      · exact Value.printable_string room _
      · exact hv m hm
  | null | bool _ | number _ | string _ | array _ => exact hword _

/-- The tooltip and the legend that are put in need one level of their own. -/
theorem ChartOptions.prints_complete {o : ChartOptions} (h : shape.codec.Prints (room + 2) o) :
    shape.codec.Prints (room + 2) o.complete := by
  refine Shape.prints_of_others_eq h rfl ?_
  -- the room is that of the options themselves, so their parts have one level less
  have htooltip : Tooltip.shape.codec.Prints (room + 1) { isHtml := some true } :=
    Shape.prints_of_others_eq_nil rfl (by simp [Tooltip.shape, optional_prints_iff])
  have hlegend : Codec.raw.Prints (room + 1) .null := Value.printable_null _
  simp only [shape, List.forall_mem_cons, Member.optional_prints_iff]
  rintro ⟨ht, hl, -⟩
  exact ⟨optional_prints_fill ht htooltip,
    optional_prints_update hl hlegend fun _ => printable_normalizeLegend, List.forall_mem_nil _⟩

/-- The options that are put into a chart need two levels of their own. -/
theorem Chart.prints_complete {c : Chart} (h : shape.codec.Prints (room + 3) c) :
    shape.codec.Prints (room + 3) c.complete := by
  refine Shape.prints_of_others_eq h rfl ?_
  -- options that were absent are put in blank and completed like any others
  have hblank : ChartOptions.shape.codec.Prints (room + 2) {} :=
    Shape.prints_of_others_eq_nil rfl (by simp [ChartOptions.shape, optional_prints_iff])
  simp only [shape, List.forall_mem_cons, Member.optional_prints_iff]
  rintro ⟨hkind, hoptions, -⟩
  exact ⟨hkind, optional_prints_update hoptions hblank fun _ => ChartOptions.prints_complete,
    List.forall_mem_nil _⟩

/-- Lists, results and filters that are put in need one level of their own. -/
theorem SourceConfig.prints_complete {c : SourceConfig} (h : shape.codec.Prints (room + 2) c) :
    shape.codec.Prints (room + 2) c.complete := by
  refine Shape.prints_of_others_eq h rfl ?_
  have hlist : ∀ {α : Type} (c : Codec α), (Codec.list c).Prints (room + 1) [] := fun c => by simp
  have hresults :
      ResultOptions.shape.codec.Prints (room + 1) { pivot := some false, showDate := some false } :=
    Shape.prints_of_others_eq_nil rfl (by simp [ResultOptions.shape, optional_prints_iff])
  have hfilters : Codec.rawObject.Prints (room + 1) [] :=
    Value.printable_object_iff.2 (List.forall_mem_nil _)
  simp only [shape, List.forall_mem_cons, Member.optional_prints_iff]
  rintro ⟨h₁, h₂, h₃, h₄, h₅, -⟩
  exact ⟨optional_prints_fill h₁ (hlist _), optional_prints_fill h₂ (hlist _),
    optional_prints_fill h₃ (hlist _), optional_prints_fill h₄ hresults,
    optional_prints_fill h₅ hfilters, List.forall_mem_nil _⟩

/-- The description that is put into a source of data needs two levels of its own. -/
theorem Datasource.prints_complete {s : Datasource} (h : shape.codec.Prints (room + 3) s) :
    shape.codec.Prints (room + 3) s.complete := by
  refine Shape.prints_of_others_eq h rfl ?_
  have hblank : SourceConfig.shape.codec.Prints (room + 2) {} :=
    Shape.prints_of_others_eq_nil rfl (by simp [SourceConfig.shape, optional_prints_iff])
  simp only [shape, List.forall_mem_cons, Member.optional_prints_iff]
  rintro ⟨hquery, hcustom, hkind, hconfig, -⟩
  exact ⟨hquery, optional_prints_fill hcustom (Codec.bool_prints _ _),
    optional_prints_fill hkind (Codec.string_prints _ _),
    optional_prints_update hconfig hblank fun _ => SourceConfig.prints_complete,
    List.forall_mem_nil _⟩

/-- The chart and the source of data that are put into a widget need three levels of their own. -/
theorem Widget.prints_completeParts {w : Widget} (h : shape.codec.Prints (room + 4) w) :
    shape.codec.Prints (room + 4) w.completeParts := by
  refine Shape.prints_of_others_eq h rfl ?_
  have hlayout : WidgetLayout.shape.codec.Prints (room + 3) {} :=
    Shape.prints_of_others_eq_nil rfl (by simp [WidgetLayout.shape, optional_prints_iff])
  have hchart : Chart.shape.codec.Prints (room + 3) {} :=
    Shape.prints_of_others_eq_nil rfl (by simp [Chart.shape, optional_prints_iff])
  have hsource : Datasource.shape.codec.Prints (room + 3) {} :=
    Shape.prints_of_others_eq_nil rfl (by simp [Datasource.shape, optional_prints_iff])
  -- every part either was there and could be printed, or is put in
  simp only [shape, List.forall_mem_cons, Member.optional_prints_iff]
  rintro ⟨hid, htitle, hl, hc, hs, -⟩
  exact ⟨hid, htitle, optional_prints_update hl hlayout fun _ => WidgetLayout.prints_complete,
    optional_prints_update hc hchart fun _ => Chart.prints_complete,
    optional_prints_update hs hsource fun _ => Datasource.prints_complete, List.forall_mem_nil _⟩

/-! ## Changes with new ids -/

/-- A part that may be absent, and is changed where it is there. -/
theorem optional_prints_run_mapM {α : Type} {c : Codec α} {f : α → StateM IdSupply α}
    (hf : ∀ a, c.Prints room a → ∀ ids, c.Prints room ((f a).run ids).1) {x : Option α}
    (hx : (Codec.optional c).Prints room x) (ids : IdSupply) :
    (Codec.optional c).Prints room ((x.mapM f).run ids).1 := by
  cases x with
  | none => exact hx
  | some a => exact hf a hx ids

/-- A list whose items are changed one after the other. -/
theorem list_prints_run_mapM {α : Type} {c : Codec α} {f : α → StateM IdSupply α}
    (hf : ∀ a, c.Prints room a → ∀ ids, c.Prints room ((f a).run ids).1) {as : List α}
    (has : (Codec.list c).Prints (room + 1) as) (ids : IdSupply) :
    (Codec.list c).Prints (room + 1) ((as.mapM f).run ids).1 := by
  rw [Codec.list_prints_iff] at has ⊢
  exact (forall_mem_run_mapM (fun _ => True) (c.Prints room) as
    (fun a ha ids _ => ⟨hf a (has a ha) ids, trivial⟩) trivial).1

/-- Ids are words. -/
theorem prints_run_assignId (id : Option String) (ids : IdSupply) :
    (Codec.optional .string).Prints room ((assignId id).run ids).1 :=
  optional_prints_iff.2 fun _ _ => Codec.string_prints room _

/-- A completed widget can be printed, with its new id. -/
theorem Widget.prints_run_complete {w : Widget} (h : shape.codec.Prints (room + 4) w)
    (ids : IdSupply) : shape.codec.Prints (room + 4) (w.complete.run ids).1 := by
  refine Shape.prints_of_others_eq (prints_completeParts h) rfl ?_
  -- only the id is different from the completion of the parts
  simp only [shape, List.forall_mem_cons, Member.optional_prints_iff]
  rintro ⟨-, htitle, hlayout, hchart, hsource, -⟩
  exact ⟨prints_run_assignId w.id ids, htitle, hlayout, hchart, hsource, List.forall_mem_nil _⟩

/-- A completed grid can be printed, with its completed widgets. -/
theorem Grid.prints_run_complete {g : Grid} (h : shape.codec.Prints (room + 6) g)
    (ids : IdSupply) : shape.codec.Prints (room + 6) (g.complete.run ids).1 := by
  refine Shape.prints_of_others_eq h rfl ?_
  simp only [shape, List.forall_mem_cons, Member.optional_prints_iff]
  rintro ⟨hflow, hcolumns, hheight, hchildren, -⟩
  refine ⟨optional_prints_fill hflow (Codec.string_prints _ _),
    optional_prints_fill hcolumns (Codec.uint32_prints _ _),
    optional_prints_fill hheight (Codec.uint32_prints _ _), ?_, List.forall_mem_nil _⟩
  exact optional_prints_run_mapM
    (fun _ => list_prints_run_mapM fun _ => Widget.prints_run_complete) hchildren ids

/-- A completed container can be printed. -/
theorem Container.prints_run_complete {c : Container} (h : shape.codec.Prints (room + 7) c)
    (ids : IdSupply) : shape.codec.Prints (room + 7) (c.complete.run ids).1 := by
  refine Shape.prints_of_others_eq h rfl ?_
  simp only [shape, List.forall_mem_cons, Member.optional_prints_iff]
  rintro ⟨-, htitle, hgrid, -⟩
  -- the widgets get their ids after the container
  have hgrid' := optional_prints_run_mapM (fun _ => Grid.prints_run_complete) hgrid
    ((assignId c.id).run ids).2
  exact ⟨prints_run_assignId c.id ids, htitle, hgrid', List.forall_mem_nil _⟩

/-- The completion of a dashboard that can be printed can be printed, whatever its version. -/
theorem Dashboard.prints_run_complete {d : Dashboard} (h : codec.Prints (room + 9) d)
    (ids : IdSupply) (version : Option Version) :
    codec.Prints (room + 9) { (d.complete.run ids).1 with version } := by
  refine Shape.prints_of_others_eq h rfl ?_
  simp only [shape, List.forall_mem_cons, Member.optional_prints_iff]
  rintro ⟨hid, htitle, -, hparams, hchildren, -⟩
  have hversion : (Codec.optional Version.codec).Prints (room + 8) version :=
    optional_prints_iff.2 fun v _ => Value.printable_string _ v.text
  have hnone : (Codec.list Parameter.shape.codec).Prints (room + 8) [] :=
    Codec.list_prints_iff.2 (List.forall_mem_nil _)
  exact ⟨hid, htitle, hversion, optional_prints_fill hparams hnone,
    optional_prints_run_mapM (fun _ => list_prints_run_mapM fun _ => Container.prints_run_complete)
      hchildren ids, List.forall_mem_nil _⟩

end

/-! ## Texts -/

/-- A dashboard that is read back and can be printed is loaded again when it is saved. -/
theorem Dashboard.ofText_toText {d : Dashboard} (hreturns : codec.Returns d)
    (hprints : codec.Prints 127 d) : ofText d.toText = .ok d :=
  ofText_eq_ok_iff.2
    (Codec.ofText_toText codec_readsAlike saves_shape.writesDistinct hreturns hprints)

/-- Only a structurally complete dashboard is migrated. -/
theorem structurallyComplete_of_runOn_migrate {d : Dashboard} {ids : IdSupply} {ws : Workspace}
    {report : MigrationReport}
    (h : Work.runOn Catalogue.builtin.migrate ⟨d, ids⟩ = (.ok report, ws)) :
    d.StructurallyComplete := by
  by_contra hd
  -- a hole would have been the error of the first version
  obtain ⟨path, hpath⟩ := Dashboard.exists_firstHole hd
  rw [runOn_migrate_builtin_of_firstHole ⟨d, ids⟩ hpath] at h
  exact nomatch (Prod.mk.inj h).1

/-- What a migration leaves can be printed if that was so before. -/
theorem Dashboard.prints_of_runOn_migrate {d : Dashboard} (hd : codec.Prints 127 d)
    {ids : IdSupply} (hids : ids.NonEmpty) {ws : Workspace} {report : MigrationReport}
    (h : Work.runOn Catalogue.builtin.migrate ⟨d, ids⟩ = (.ok report, ws)) :
    codec.Prints 127 ws.dashboard := by
  have hcomplete := structurallyComplete_of_runOn_migrate h
  obtain ⟨_, ws', hrun, -, -, hdash, -⟩ := runOn_migrate_builtin hcomplete hids
  rw [h] at hrun
  obtain rfl := (Prod.mk.inj hrun).2
  rw [hdash]
  exact prints_run_complete hd ids _

/-- A dashboard that was loaded is loaded again when it is saved, and so is what a migration makes
of it, which satisfies all versions then.  Doubles are the only part of a document that need not be
read back from their text, so this is asked of those that the dashboard has. -/
theorem Dashboard.ofText_toText_of_ofText {text : String} {d : Dashboard}
    (h : ofText text = .ok d) (hdoubles : ∀ x ∈ (codec.write d).doubles, Rereads x) :
    ofText d.toText = .ok d ∧
    ∀ ids report ws, IdSupply.NonEmpty ids →
      Work.runOn Catalogue.builtin.migrate ⟨d, ids⟩ = (.ok report, ws) →
      ∃ d', ofText ws.dashboard.toText = .ok d' ∧ d' = ws.dashboard ∧
        Catalogue.builtin.isCurrent d' = .ok true := by
  obtain ⟨hreturns, hdepth⟩ := saves_shape.of_ofText (by decide) (ofText_eq_ok_iff.1 h)
  have hprints : codec.Prints 127 d := ⟨hdepth, hdoubles⟩
  refine ⟨ofText_toText hreturns hprints, fun ids report ws hids hrun => ?_⟩
  obtain ⟨ws₁, hdev, hdash, hsat⟩ := runOn_migrate_eq_ok isBuiltin_of_mem_builtin hids hrun
  have hreturns' : codec.Returns ws.dashboard := by
    rw [hdash]
    exact returns_withVersion (hdev.returns hreturns) _
  -- the last check of the migration has found every version satisfied
  have hverify : Catalogue.builtin.verify ws.dashboard = .ok .satisfied :=
    verifySteps_of_satisfied hsat
  refine ⟨ws.dashboard,
    ofText_toText hreturns' (prints_of_runOn_migrate hprints hids hrun), rfl, ?_⟩
  rw [Catalogue.isCurrent, hverify]
  rfl

/-- A dashboard with a version as a number, a double, an escaped word, and a filter as a list. -/
def handwrittenText : String :=
  "\x7b\"version\": 3, \"ratio\": 1.50, \"children\": [\x7b\"container\": \x7b\"children\": [\x7b
    \"title\": \"a\\u0009b\",
    \"datasource\": \x7b\"config\": \x7b\"fieldFilters\": [[\"host\"]]\x7d\x7d\x7d]\x7d\x7d]\x7d"

/-- One and a half. -/
def oneAndAHalf : Decimal.Binary64 := ⟨false, 0x18000000000000, -52, by decide⟩

/-- The dashboard of the text. -/
def handwrittenDashboard : Dashboard where
  version := some ⟨3⟩
  children := some [{ grid := some { children := some [{
    title := some "a\tb"
    datasource := some { config := some { fieldFilters := some [.column "host"] } } }] } }]
  extra := [("ratio", .number (.double oneAndAHalf))]

/-- The text that the dashboard is saved as says more, and is loaded as the same dashboard; so is
what a migration leaves. -/
theorem Dashboard.ofText_toText_of_ofText_handwritten :
    ofText handwrittenText = .ok handwrittenDashboard ∧
      (∀ x ∈ (codec.write handwrittenDashboard).doubles, Rereads x) ∧
      ofText handwrittenDashboard.toText = .ok handwrittenDashboard ∧
      ∃ report ws, Work.runOn Catalogue.builtin.migrate ⟨handwrittenDashboard, sampleIds⟩ =
        (.ok report, ws) ∧ ofText ws.dashboard.toText = .ok ws.dashboard := by
  have hload : ofText handwrittenText = .ok handwrittenDashboard := by decide +kernel
  have hdoubles : ∀ x ∈ (codec.write handwrittenDashboard).doubles, Rereads x := by
    have hall : (codec.write handwrittenDashboard).doubles = [oneAndAHalf] := rfl
    rw [hall, List.forall_mem_singleton]
    unfold Rereads
    decide +kernel
  have hcomplete : handwrittenDashboard.StructurallyComplete :=
    (checkStructure_eq_ok_iff true _).1 rfl
  obtain ⟨report, ws, hrun, -⟩ := runOn_migrate_builtin hcomplete sampleIds_nonEmpty
  obtain ⟨hsaved, hmigrated⟩ := ofText_toText_of_ofText hload hdoubles
  obtain ⟨_, hagain, rfl, -⟩ := hmigrated sampleIds report ws sampleIds_nonEmpty hrun
  exact ⟨hload, hdoubles, hsaved, report, ws, hrun, hagain⟩

end Dashboards
