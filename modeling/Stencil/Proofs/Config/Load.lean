import Stencil.Config.Load
import Stencil.Proofs.Config.Layer
import Stencil.Proofs.Logged

/-!
# Settings and the layers that decide them

Every layer that is loaded has one entry for each name, whatever the texts were that it was read
from; for YAML its reader has to see to that, as the standard one does.  So the last layer that
touches a path decides what the settings say of it.
-/

namespace Stencil.Config

open Stencil.Data Stencil.Files Stencil.Text

/-! ## Layers that are loaded -/

/-- What is read of a YAML file has one entry for each name. -/
def Readers.Distinct (readers : Readers) : Prop :=
  ∀ text value, readers.yaml text = .ok value → value.Distinct

theorem Readers.distinct_standard : Readers.standard.Distinct :=
  fun _ _ hread => Yaml.distinct_of_read hread

theorem distinct_of_read
    {readers : Readers} (hreaders : readers.Distinct) {kind : Notation} {path text : List Char}
    {value : Value} (hread : kind.read readers path text = .ok value) : value.Distinct := by
  cases kind with
  | json => exact Json.distinct_of_read (mapError_eq_ok_iff.mp hread)
  | yaml => exact hreaders text value (mapError_eq_ok_iff.mp hread)

theorem proper_of_dataLayer
    {path : List Char} {data : Value} {layer : Layer} (hdata : data.Distinct)
    (hlayer : dataLayer path data = .ok layer) : layer.Proper := by
  cases data with
  | null =>
      cases hlayer
      trivial
  | map entries =>
      cases hlayer
      exact hdata
  | _ => contradiction

theorem proper_of_fileLayer
    {readers : Readers} (hreaders : readers.Distinct) {tree : Tree} {path : Path}
    {log later : List Warning} {layer : Layer}
    (hlayer : Logged.after log (fileLayer readers tree path) = (.ok (some layer), later)) :
    layer.Proper := by
  unfold fileLayer at hlayer
  split at hlayer
  next =>
    obtain ⟨_, _, _, hnone⟩ := Logged.after_bind_eq_ok_iff.mp hlayer
    cases hnone
  next kind _ =>
    rw [Logged.after_ofExcept] at hlayer
    obtain ⟨text, _, hlayer⟩ := bind_eq_ok_iff.mp (Prod.mk.inj hlayer).1
    obtain ⟨data, hdata, hlayer⟩ := bind_eq_ok_iff.mp hlayer
    obtain ⟨found, hfound, hlayer⟩ := bind_eq_ok_iff.mp hlayer
    cases hlayer
    exact proper_of_dataLayer (distinct_of_read hreaders hdata) hfound

theorem proper_of_patternLayers
    {readers : Readers} (hreaders : readers.Distinct) {tree : Tree} {pattern : List Char}
    {log later : List Warning} {layers : List Layer}
    (hlayers : Logged.after log (patternLayers readers tree pattern) = (.ok layers, later)) :
    ∀ layer ∈ layers, layer.Proper := by
  unfold patternLayers at hlayers
  obtain ⟨paths, _, _, hlayers⟩ := Logged.after_bind_eq_ok_iff.mp hlayers
  split at hlayers
  next => exact absurd hlayers Logged.after_throw_ne_ok
  obtain ⟨read, _, hread, hlayers⟩ := Logged.after_bind_eq_ok_iff.mp hlayers
  cases hlayers
  intro layer hlayer
  rw [List.mem_filterMap] at hlayer
  obtain ⟨found, hfound, rfl⟩ := hlayer
  obtain ⟨_, _, _, _, hfile⟩ := Logged.exists_of_mem_mapM hread hfound
  exact proper_of_fileLayer hreaders hfile

theorem settingPath_ne_nil (name : List Char) : settingPath name ≠ [] :=
  splitAll_ne_nil _ _

theorem proper_of_variableLayers
    {marker : List Char} {bindings : Bindings} {layers : List Layer}
    (hlayers : variableLayers marker bindings = .ok layers) : ∀ layer ∈ layers, layer.Proper := by
  intro layer hlayer
  obtain ⟨⟨name, text⟩, _, hlayer⟩ := exists_of_mem_mapM hlayers hlayer
  obtain ⟨value, _, hlayer⟩ := bind_eq_ok_iff.mp hlayer
  cases hlayer
  exact settingPath_ne_nil name

theorem proper_of_layers
    {sources : Sources} {tree : Tree} {layers : List Layer} {warnings : List Warning}
    (hreaders : sources.readers.Distinct) (hoverrides : DistinctEntries sources.overrides)
    (hlayers : (sources.layers tree).outcome = (.ok layers, warnings)) :
    ∀ layer ∈ layers, layer.Proper := by
  rw [Logged.outcome_eq_after] at hlayers
  obtain ⟨files, _, hfiles, hlayers⟩ := Logged.after_bind_eq_ok_iff.mp hlayers
  obtain ⟨bindings, _, _, hlayers⟩ := Logged.after_bind_eq_ok_iff.mp hlayers
  obtain ⟨filed, _, hfiled, hlayers⟩ := Logged.after_bind_eq_ok_iff.mp hlayers
  obtain ⟨environment, _, henvironment, hlayers⟩ := Logged.after_bind_eq_ok_iff.mp hlayers
  rw [Logged.after_ofExcept] at hfiled henvironment
  cases hlayers
  intro layer hlayer
  simp only [List.mem_append, List.mem_flatten, List.mem_singleton] at hlayer
  rcases hlayer with ((⟨found, hfound, hlayer⟩ | hlayer) | hlayer) | rfl
  · obtain ⟨_, _, _, _, hpattern⟩ := Logged.exists_of_mem_mapM hfiles hfound
    exact proper_of_patternLayers hreaders hpattern layer hlayer
  · exact proper_of_variableLayers (Prod.mk.inj hfiled).1 layer hlayer
  · exact proper_of_variableLayers (Prod.mk.inj henvironment).1 layer hlayer
  · exact hoverrides

/-! ## Failures to load -/

/-- What is wrong with a file is not that a section is no mapping. -/
theorem read_ne_sectionNotMapping (readers : Readers) (kind : Notation) (path text : List Char) :
    kind.read readers path text ≠ .error (.problem .sectionNotMapping) := by
  intro hfailure
  cases kind with
  | json =>
      obtain ⟨cause, -, hcause⟩ := mapError_eq_error_iff.mp hfailure
      cases cause <;> simp at hcause
  | yaml =>
      obtain ⟨cause, -, hcause⟩ := mapError_eq_error_iff.mp hfailure
      cases cause <;> simp at hcause

theorem avoids_fileLayer (readers : Readers) (tree : Tree) (path : Path) :
    (fileLayer readers tree path).Avoids (.problem .sectionNotMapping) := by
  unfold fileLayer
  split
  next => exact (Logged.avoids_warn _ _).bind fun _ => Logged.avoids_pure none _
  next kind _ =>
    refine Logged.avoids_ofExcept fun hfailure => ?_
    rcases bind_eq_error_iff.mp hfailure with htext | ⟨text, -, hfailure⟩
    · obtain ⟨cause, -, hcause⟩ := mapError_eq_error_iff.mp htext
      contradiction
    · rcases bind_eq_error_iff.mp hfailure with hdata | ⟨data, -, hfailure⟩
      · exact read_ne_sectionNotMapping readers kind _ _ hdata
      · rcases bind_eq_error_iff.mp hfailure with hlayer | ⟨layer, -, hlayer⟩
        · rw [dataLayer.eq_def] at hlayer
          split at hlayer <;> simp at hlayer
        · contradiction

theorem avoids_patternLayers (readers : Readers) (tree : Tree) (pattern : List Char) :
    (patternLayers readers tree pattern).Avoids (.problem .sectionNotMapping) := by
  unfold patternLayers
  have hselect : (Logged.ofExcept ((tree.select pattern).mapError Failure.file)).Avoids
      (.problem .sectionNotMapping) := by
    refine Logged.avoids_ofExcept fun hfailure => ?_
    obtain ⟨cause, -, hcause⟩ := mapError_eq_error_iff.mp hfailure
    contradiction
  have hlayers := Logged.Avoids.mapM fun path => avoids_fileLayer readers tree (Path.ofText path)
  refine hselect.bind fun paths => ?_
  split
  next => exact (Logged.avoids_throw (by simp)).bind fun _ =>
    (hlayers _).bind fun layers => Logged.avoids_pure _ _
  next => exact (hlayers _).bind fun layers => Logged.avoids_pure _ _

theorem avoids_variableLayers (marker : List Char) (bindings : Bindings) :
    (Logged.ofExcept (variableLayers marker bindings)).Avoids (.problem .sectionNotMapping) := by
  refine Logged.avoids_ofExcept fun hfailure => ?_
  obtain ⟨⟨name, text⟩, -, hvalue⟩ := exists_of_mapM_eq_error hfailure
  rcases bind_eq_error_iff.mp hvalue with hread | ⟨value, -, hlayer⟩
  · obtain ⟨cause, -, hcause⟩ := mapError_eq_error_iff.mp hread
    contradiction
  · contradiction

/-- Loading does not ask what kind of thing a section is. -/
theorem avoids_load (sources : Sources) (tree : Tree) :
    (sources.load tree).Avoids (.problem .sectionNotMapping) := by
  have hvariables :
      (Logged.ofExcept (fileVariables sources.readers tree sources.variableFile)).Avoids
        (.problem .sectionNotMapping) := by
    refine Logged.avoids_ofExcept fun hfailure => ?_
    rw [fileVariables] at hfailure
    split_ifs at hfailure
    obtain ⟨cause, -, hcause⟩ := mapError_eq_error_iff.mp hfailure
    contradiction
  refine Logged.Avoids.bind ?_ fun layers => Logged.avoids_pure _ _
  refine (Logged.Avoids.mapM (avoids_patternLayers sources.readers tree) _).bind fun files => ?_
  refine hvariables.bind fun bindings => ?_
  refine (avoids_variableLayers _ _).bind fun filed => ?_
  exact (avoids_variableLayers _ _).bind fun environment => Logged.avoids_pure _ _

/-! ## What the settings say of a path -/

def dotted (path : List (List Char)) : List Char :=
  List.intercalate ['.'] path

section

variable {layers before after : List Layer} {layer : Layer} {path : List (List Char)}

theorem get_dotted
    (hpath : path ≠ []) (hdots : ∀ name ∈ path, '.' ∉ name) (settings : Settings)
    (fallback : Value) :
    settings.get (dotted path) fallback = (Settings.find? (.map settings) path).getD fallback := by
  rw [Settings.get, dotted, splitAll_intercalate hpath hdots]

theorem get_ofLayers
    (hproper : ∀ layer ∈ layers, layer.Proper) (hpath : path ≠ [])
    (hdots : ∀ name ∈ path, '.' ∉ name) (fallback : Value) :
    (Settings.ofLayers layers).get (dotted path) fallback =
      (layers.foldl (fun below layer => layer.effect path below) none).getD fallback := by
  have hempty : Settings.find? (.map []) path = none := by
    cases path with
    | nil => contradiction
    | cons name rest => rfl
  rw [get_dotted hpath hdots, find?_ofLayers hproper, hempty]

theorem touches_nil (layer : Layer) : layer.touches [] = true := by
  cases layer with
  | mapping entries => rfl
  | assignment own value => simp [Layer.touches]

theorem not_sets_nil (hproper : layer.Proper) (value : Value) : ¬ layer.Sets [] value := by
  cases layer with
  | mapping entries =>
      rintro ⟨hfound, hplain⟩
      cases hfound
      contradiction
  | assignment own assigned =>
      rintro ⟨rest, hnil, _⟩
      exact hproper (List.append_eq_nil_iff.mp hnil.symm).1

theorem not_bars_nil (hproper : layer.Proper) : ¬ layer.Bars [] := by
  cases layer with
  | mapping entries => exact Bool.false_ne_true
  | assignment own assigned =>
      rintro ⟨rest, hnil, _⟩
      exact hproper (List.append_eq_nil_iff.mp hnil.symm).1

theorem get_ofLayers_of_sets
    (hproper : ∀ other ∈ before ++ layer :: after, other.Proper)
    (hdots : ∀ name ∈ path, '.' ∉ name)
    (hafter : ∀ later ∈ after, later.touches path = false) {value : Value}
    (hsets : layer.Sets path value) (fallback : Value) :
    (Settings.ofLayers (before ++ layer :: after)).get (dotted path) fallback = value := by
  have hpath : path ≠ [] := by
    rintro rfl
    exact not_sets_nil (hproper layer (by simp)) value hsets
  rw [get_ofLayers hproper hpath hdots, List.foldl_append, List.foldl_cons,
    foldl_effect_of_touches hafter, effect_of_sets hsets, Option.getD_some]

theorem get_ofLayers_of_bars
    (hproper : ∀ other ∈ before ++ layer :: after, other.Proper)
    (hdots : ∀ name ∈ path, '.' ∉ name)
    (hafter : ∀ later ∈ after, later.touches path = false) (hbars : layer.Bars path)
    (fallback : Value) :
    (Settings.ofLayers (before ++ layer :: after)).get (dotted path) fallback = fallback := by
  have hpath : path ≠ [] := by
    rintro rfl
    exact not_bars_nil (hproper layer (by simp)) hbars
  rw [get_ofLayers hproper hpath hdots, List.foldl_append, List.foldl_cons,
    foldl_effect_of_touches hafter, effect_of_bars hbars, Option.getD_none]

theorem get_ofLayers_of_touches
    (hproper : ∀ layer ∈ layers, layer.Proper) (hdots : ∀ name ∈ path, '.' ∉ name)
    (hlayers : ∀ layer ∈ layers, layer.touches path = false) (fallback : Value) :
    (Settings.ofLayers layers).get (dotted path) fallback = fallback := by
  by_cases hpath : path = []
  · subst hpath
    cases layers with
    | nil => rfl
    | cons layer rest =>
        have htouches := hlayers layer List.mem_cons_self
        rw [touches_nil] at htouches
        contradiction
  · rw [get_ofLayers hproper hpath hdots, foldl_effect_of_touches hlayers, Option.getD_none]

/-- A layer that does not touch a path can be left out. -/
theorem get_ofLayers_append
    (hproper : ∀ other ∈ before ++ layer :: after, other.Proper)
    (hdots : ∀ name ∈ path, '.' ∉ name) (htouches : layer.touches path = false)
    (fallback : Value) :
    (Settings.ofLayers (before ++ after)).get (dotted path) fallback =
      (Settings.ofLayers (before ++ layer :: after)).get (dotted path) fallback := by
  have hpath : path ≠ [] := by
    rintro rfl
    rw [touches_nil] at htouches
    contradiction
  have hothers : ∀ other ∈ before ++ after, other.Proper := by
    intro other hother
    apply hproper
    rcases List.mem_append.mp hother with hbefore | hafter
    · exact List.mem_append_left _ hbefore
    · exact List.mem_append_right _ (List.mem_cons_of_mem _ hafter)
  rw [get_ofLayers hothers hpath hdots, get_ofLayers hproper hpath hdots, List.foldl_append,
    List.foldl_append, List.foldl_cons, effect_of_touches htouches]

end

/-- The last layer that touches a path decides what is loaded for it: the value that it puts there,
or nothing, if it puts a value that is no mapping above the path or if no layer touches the path.
The layers that do not touch the path might as well be left out. -/
theorem get_load_of_last_touch
    {sources : Sources} {tree : Tree} {layers : List Layer} {warnings : List Warning}
    (hlayers : (sources.layers tree).outcome = (.ok layers, warnings))
    (hreaders : sources.readers.Distinct) (hoverrides : DistinctEntries sources.overrides) :
    ∃ settings, (sources.load tree).outcome = (.ok settings, warnings) ∧
      ∀ path : List (List Char), (∀ name ∈ path, '.' ∉ name) → ∀ fallback,
        (∀ before layer after, layers = before ++ layer :: after →
          (∀ later ∈ after, later.touches path = false) →
            (∀ value, layer.Sets path value → settings.get (dotted path) fallback = value) ∧
              (layer.Bars path → settings.get (dotted path) fallback = fallback)) ∧
        ((∀ layer ∈ layers, layer.touches path = false) →
          settings.get (dotted path) fallback = fallback) ∧
        ∀ before layer after, layers = before ++ layer :: after → layer.touches path = false →
          (Settings.ofLayers (before ++ after)).get (dotted path) fallback =
            settings.get (dotted path) fallback := by
  have hproper := proper_of_layers hreaders hoverrides hlayers
  refine ⟨.ofLayers layers, Logged.after_bind_of_ok hlayers _, ?_⟩
  intro path hdots fallback
  refine ⟨?_, fun huntouched => get_ofLayers_of_touches hproper hdots huntouched fallback, ?_⟩
  · rintro before layer after rfl hafter
    exact ⟨fun value hsets => get_ofLayers_of_sets hproper hdots hafter hsets fallback,
      fun hbars => get_ofLayers_of_bars hproper hdots hafter hbars fallback⟩
  · rintro before layer after rfl htouches
    exact get_ofLayers_append hproper hdots htouches fallback

/-- The second variable takes away what the first one set, and what is given directly does not bring
it back. -/
theorem get_load_of_last_touch_barred :
    let sources : Sources :=
      { environment := [("DV_A__B".toList, "on".toList), ("DV_A".toList, "off".toList)]
        overrides := [(.text "a", .map [(.text "c", .null)])] }
    (sources.layers .empty).outcome =
        (.ok [.assignment [['a'], ['b']] (.bool true), .assignment [['a']] (.bool false),
          .mapping sources.overrides], []) ∧
      sources.readers.Distinct ∧ DistinctEntries sources.overrides ∧
      ∃ settings, (sources.load .empty).outcome = (.ok settings, []) ∧
        settings.get "a.b".toList (.text "none") = .text "none" := by
  intro sources
  have hinner : settingPath "A__B".toList = [['a'], ['b']] := by decide +kernel
  have houter : settingPath "A".toList = [['a']] := by decide +kernel
  have hon : readValue "on".toList = .ok (.bool true) := rfl
  have hoff : readValue "off".toList = .ok (.bool false) := rfl
  have hfirst : after? sources.marker "DV_A__B".toList = some "A__B".toList := by decide
  have hsecond : after? sources.marker "DV_A".toList = some "A".toList := by decide
  have hvariables : variableLayers sources.marker sources.environment =
      .ok [.assignment [['a'], ['b']] (.bool true), .assignment [['a']] (.bool false)] := by
    simp only [variableLayers, sources, List.filterMap_cons, List.filterMap_nil] at hfirst hsecond ⊢
    simp only [hfirst, hsecond, Option.map_some, List.mapM_cons, List.mapM_nil, hon, hoff, hinner,
      houter]
    rfl
  have hlayers : (sources.layers .empty).outcome =
      (.ok [.assignment [['a'], ['b']] (.bool true), .assignment [['a']] (.bool false),
        .mapping sources.overrides], []) := by
    rw [Sources.layers, hvariables]
    rfl
  have hdistinct : DistinctEntries sources.overrides := by
    simp [sources, DistinctEntries, Value.Distinct, Table.get?]
  have hreaders : sources.readers.Distinct := Readers.distinct_standard
  obtain ⟨settings, hsettings, hpaths⟩ := get_load_of_last_touch hlayers hreaders hdistinct
  obtain ⟨hlast, -, -⟩ := hpaths [['a'], ['b']] (by decide) (.text "none")
  refine ⟨hlayers, hreaders, hdistinct, settings, hsettings, ?_⟩
  have hafter : ∀ later ∈ [Layer.mapping sources.overrides],
      later.touches [['a'], ['b']] = false := by
    intro later hlater
    obtain rfl := List.mem_singleton.mp hlater
    rfl
  exact (hlast [_] (.assignment [['a']] (.bool false)) _ rfl hafter).2 ⟨[['b']], rfl, rfl⟩

end Stencil.Config
