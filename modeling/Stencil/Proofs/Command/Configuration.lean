import Stencil.Command.Run
import Stencil.Proofs.Config.Load

/-!
# The configuration of a rendering

What is given on the command line is a layer of its own over the files and the environment.  It sets
the options that it names and leaves the others as they are.  But the layer is a mapping even if it
names none, so it also takes the place of a section that is no mapping.
-/

namespace Stencil

open Stencil.Data Stencil.Text

namespace Config

/-! ## What is laid over everything else -/

/-- What is given directly is laid over the settings that are loaded without it. -/
theorem load_eq_merge (sources : Sources) (tree : Files.Tree) :
    sources.load tree =
      (fun settings => merge settings sources.overrides) <$>
        { sources with overrides := [] }.load tree := by
  simp [Sources.load, Sources.layers, Settings.ofLayers_append, Layer.over, merge,
    -List.append_assoc]

def checked (config : TemplateConfig) : Except Problem TemplateConfig := do
  checkPositive .layoutDepth config.maxLayoutDepth
  checkPositive .cacheSize config.cacheSize
  .ok config

theorem checked_ne_sectionNotMapping (config : TemplateConfig) :
    checked config ≠ .error .sectionNotMapping := by
  rw [checked, checkPositive, checkPositive]
  cases isPositive config.maxLayoutDepth <;> cases isPositive config.cacheSize <;>
    exact fun hsection => nomatch hsection

def templates? (settings : Settings) : Option Value :=
  Table.get? settings (nameKey "templates".toList)

theorem get_templates (settings : Settings) (fallback : Value) :
    settings.get "templates".toList fallback = (templates? settings).getD fallback := by
  have hdots : '.' ∉ "templates".toList := by decide
  rw [Settings.get, splitAll_of_notMem hdots, Settings.find?, templates?]
  cases Table.get? settings (nameKey "templates".toList) <;> rfl

theorem entriesOf_of_not_isMap
    {below : Option Value} (hbelow : ¬ (below.getD (.map [])).isMap) : entriesOf below = [] := by
  rcases below with _ | (_ | _ | _ | _ | _ | _ | _)
  case some.map => exact absurd rfl hbelow
  all_goals rfl

theorem templateConfig_eq (settings : Settings) :
    settings.templateConfig =
      if ((templates? settings).getD (.map [])).isMap then
        checked (.ofSection (.map (entriesOf (templates? settings))))
      else .error .sectionNotMapping := by
  rw [Settings.templateConfig, get_templates]
  rcases templates? settings with _ | (_ | _ | _ | _ | _ | _ | _) <;> rfl

theorem templates?_merge (settings : Settings) (options : Settings) :
    templates? (merge settings [(.text "templates", .map options)]) =
      some (lay (templates? settings) (.map options)) := by
  have hkey : Key.text "templates" = nameKey "templates".toList :=
    congrArg Key.text String.ofList_toList.symm
  rw [merge, merge, templates?, hkey, get?_put_name, if_pos (nameKey_beq_iff.mpr rfl), templates?]

/-- An option comes from what is laid over the section, if it is set there to something plain. -/
theorem field?_lay
    {options : Settings} (hoptions : DistinctEntries options) (below : Option Value) {name : String}
    (hplain : ∀ value, Table.get? options (.text name) = some value → value.isMap = false) :
    (lay below (.map options)).field? name =
      (Table.get? options (.text name)).or (Value.field? (.map (entriesOf below)) name) := by
  have hlaid := get?_lay hoptions below name.toList
  rw [nameKey, String.ofList_toList] at hlaid
  have hfield : (lay below (.map options)).field? name =
      Table.get? (entriesOf (some (lay below (.map options)))) (.text name) := by
    rcases below with _ | (_ | _ | _ | _ | _ | _ | _) <;> rfl
  rw [hfield, hlaid]
  cases hvalue : Table.get? options (.text name) with
  | none => rfl
  | some value =>
      have hmap := hplain value hvalue
      cases value with
      | map entries => contradiction
      | _ => rfl

end Config

namespace Command

open Stencil.Config

section

variable (readers : Readers) (given : Surroundings) (options : RenderOptions)

/-- The configuration that the file and the environment make up by themselves. -/
def ownConfiguration (file : Option (List Char)) : Logged Config.Failure TemplateConfig := do
  let sources : Sources :=
    { patterns := file.toList
      environment := given.environment
      readers := readers }
  let settings ← sources.load given.tree
  Logged.ofExcept (settings.templateConfig.mapError .problem)

/-- The options that are given take the place of those of a configuration. -/
def adjusted (config : TemplateConfig) : TemplateConfig :=
  { config with
    viewsDirectory :=
      match options.viewsDirectory with
      | some directory => .text (String.ofList (Files.Path.ofText directory).text)
      | none => config.viewsDirectory
    minifyOutput := if options.minify then .bool true else config.minifyOutput }

theorem get?_engineOptions (name : String) :
    Table.get? (engineOptions options) (.text name) =
      if name = "views_dir" then
        (options.viewsDirectory).map fun directory =>
          .text (String.ofList (Files.Path.ofText directory).text)
      else if name = "minify_output" then
        if options.minify then some (.bool true) else none
      else none := by
  have hbeq (own : String) : (Key.text own == Key.text name) = (name == own) := by
    rw [Bool.eq_iff_iff, Key.beq_text_iff, Key.text.injEq, beq_iff_eq]
    exact eq_comm
  unfold engineOptions
  cases options.viewsDirectory <;> cases options.minify <;>
    simp only [List.nil_append, List.cons_append, Table.get?_cons, Table.get?_nil, hbeq,
      beq_iff_eq, Bool.false_eq_true, if_true, if_false, Option.map_none, Option.map_some,
      ite_self]
  by_cases hname : name = "minify_output"
  · subst hname
    simp
  · simp [hname]

theorem distinctEntries_engineOptions : DistinctEntries (engineOptions options) := by
  unfold engineOptions
  cases options.viewsDirectory <;> cases options.minify <;>
    simp [DistinctEntries, Value.Distinct, Table.get?_cons, Table.get?_nil, Key.text_beq_iff]

theorem isMap_of_engineOptions {name : String} {value : Value}
    (hvalue : Table.get? (engineOptions options) (.text name) = some value) :
    value.isMap = false := by
  rw [get?_engineOptions] at hvalue
  split_ifs at hvalue
  · obtain ⟨directory, -, rfl⟩ := Option.map_eq_some_iff.mp hvalue
    rfl
  · obtain rfl := Option.some.inj hvalue
    rfl

theorem ofSection_lay (below : Option Value) :
    TemplateConfig.ofSection (lay below (.map (engineOptions options))) =
      adjusted options (.ofSection (.map (entriesOf below))) := by
  have hfield (name : String) : (lay below (.map (engineOptions options))).field? name =
      (Table.get? (engineOptions options) (.text name)).or
        (Value.field? (.map (entriesOf below)) name) :=
    field?_lay (distinctEntries_engineOptions options) below
      fun _ => isMap_of_engineOptions options
  simp only [TemplateConfig.ofSection, adjusted, hfield, get?_engineOptions]
  cases options.viewsDirectory <;> cases options.minify <;> simp

/-- The limits are not among the options that the arguments give. -/
theorem checked_adjusted (config : TemplateConfig) :
    checked (adjusted options config) = (checked config).map (adjusted options) := by
  rw [checked, checked, adjusted]
  dsimp only
  cases checkPositive .layoutDepth config.maxLayoutDepth with
  | error problem => rfl
  | ok _ => cases checkPositive .cacheSize config.cacheSize <;> rfl

theorem templateConfig_merge (settings : Settings) :
    (merge settings [(.text "templates", .map (engineOptions options))]).templateConfig =
      (checked (.ofSection (.map (entriesOf (templates? settings))))).map (adjusted options) := by
  have hmap (below : Option Value) (options : Settings) :
      (lay below (.map options)).isMap = true ∧
        .map (entriesOf (some (lay below (.map options)))) = lay below (.map options) := by
    rcases below with _ | (_ | _ | _ | _ | _ | _ | _) <;> exact ⟨rfl, rfl⟩
  rw [templateConfig_eq, templates?_merge, Option.getD_some, if_pos (hmap _ _).1, (hmap _ _).2,
    ofSection_lay, checked_adjusted]

/-- What the options make of the configuration of the file and the environment: they adjust it, but
a section that is no mapping is the same to them as none. -/
def overruled (own : Except Config.Failure TemplateConfig) :
    Except Config.Failure TemplateConfig :=
  match own with
  | .error (.problem .sectionNotMapping) => .ok (adjusted options {})
  | own => own.map (adjusted options)

theorem overruled_of_ne {own : Except Config.Failure TemplateConfig}
    (hown : own ≠ .error (.problem .sectionNotMapping)) :
    overruled options own = own.map (adjusted options) := by
  rw [overruled]
  exact fun hsection => hown hsection

theorem mapError_templateConfig_merge (settings : Settings) :
    (merge settings [(.text "templates", .map (engineOptions options))]).templateConfig.mapError
        Config.Failure.problem =
      overruled options (settings.templateConfig.mapError .problem) := by
  rw [templateConfig_merge, templateConfig_eq]
  by_cases hmap : ((templates? settings).getD (.map [])).isMap
  · rw [if_pos hmap]
    cases hchecked : checked (.ofSection (.map (entriesOf (templates? settings)))) with
    | ok config => rfl
    | error problem =>
        have hproblem : problem ≠ .sectionNotMapping := by
          rintro rfl
          exact checked_ne_sectionNotMapping _ hchecked
        rw [overruled_of_ne]
        · rfl
        · simpa [Except.mapError] using hproblem
  · -- The options take the place of the section, and the defaults pass the check.
    have hentries := entriesOf_of_not_isMap hmap
    have hstandard : checked (.ofSection (.map [])) = .ok {} := rfl
    rw [if_neg hmap, hentries, hstandard]
    rfl

theorem outcome_configuration :
    (configuration readers given options).outcome =
      (overruled options (ownConfiguration readers given options.config).outcome.1,
        (ownConfiguration readers given options.config).outcome.2) := by
  simp only [configuration, ownConfiguration]
  rw [load_eq_merge, bind_map_left]
  simp only [mapError_templateConfig_merge, Logged.outcome_eq_after]
  generalize hloaded : Logged.after [] (Sources.load _ given.tree) = loaded
  obtain ⟨failure | settings, warnings⟩ := loaded
  · rw [Logged.after_bind_of_error hloaded, Logged.after_bind_of_error hloaded]
    have hfailure : failure ≠ .problem .sectionNotMapping := by
      rintro rfl
      exact avoids_load _ given.tree [] warnings hloaded
    rw [overruled_of_ne]
    · rfl
    · simpa using hfailure
  · rw [Logged.after_bind_of_ok hloaded, Logged.after_bind_of_ok hloaded, Logged.after_ofExcept,
      Logged.after_ofExcept]

theorem adjusted_of_none (hviews : options.viewsDirectory = none)
    (hminify : options.minify = false) (config : TemplateConfig) :
    adjusted options config = config := by
  rw [adjusted, hviews, hminify]
  rfl

end

/-- A rendering works by the configuration that the file and the environment make up, or fails as
that does, but for the directory of views and the minifying, if the options give these.  The one
exception is a section that is no mapping, which is passed over. -/
theorem render_by_ownConfiguration
    (packages : Packages) (given : Surroundings) (options : RenderOptions) :
    let own := (ownConfiguration packages.readers given options.config).outcome
    let outcome := (configuration packages.readers given options).outcome
    (outcome.2 = own.2 ∧
      (own.1 ≠ .error (.problem .sectionNotMapping) →
        outcome.1 = own.1.map (adjusted options)) ∧
      (own.1 = .error (.problem .sectionNotMapping) → outcome.1 = .ok (adjusted options {})) ∧
      (options.viewsDirectory = none → options.minify = false →
        ∀ config, adjusted options config = config)) ∧
      ∀ verbose, renderable given options →
        (∀ config, own.1 = .ok config →
          let report := renderBy packages given verbose options (adjusted options config)
          render packages given verbose options =
            { report with warnings := own.2 ++ report.warnings }) ∧
        ∀ problem, own.1 = .error (.problem problem) → problem ≠ .sectionNotMapping →
          render packages given verbose options =
            ⟨.ok ⟨1, failureLine problem.message⟩, given.tree, own.2⟩ := by
  intro own outcome
  have houtcome : outcome = (overruled options own.1, own.2) :=
    outcome_configuration packages.readers given options
  refine ⟨⟨?_, ?_, ?_, adjusted_of_none options⟩, ?_⟩
  · rw [houtcome]
  · intro hown
    rw [houtcome, overruled_of_ne options hown]
  · intro hown
    rw [houtcome, hown]
    rfl
  · intro verbose hrenderable
    have hrender : (configuration packages.readers given options).outcome =
        (overruled options own.1, own.2) := houtcome
    rw [render]
    simp only [hrenderable, hrender, Bool.not_true, Bool.false_eq_true, if_false]
    refine ⟨fun config hown => ?_, fun problem hown hproblem => ?_⟩
    · rw [hown]
      rfl
    · rw [overruled_of_ne, hown]
      · simp [Except.map, Surroundings.report]
      · rw [hown]
        simpa using hproblem

/-- A site with a file of settings of a kind that is passed over. -/
def noteSite : Files.Tree :=
  ⟨[(["home".toList, "site".toList, "notes".toList], .file (some []))],
    ["home".toList, "site".toList]⟩

theorem layers_noteSite (readers : Readers) (environment : Bindings) :
    (Sources.layers { patterns := ["notes".toList], environment := environment, readers := readers }
        noteSite).outcome =
      ((variableLayers "DV_".toList environment).map (· ++ [.mapping []]),
        [.unknownConfigType "notes".toList]) := by
  have hpaths : noteSite.describedPaths ("notes".toList.length + 1) "notes".toList false =
      .ok ["notes".toList] := rfl
  have hselect : noteSite.select "notes".toList = .ok ["notes".toList] := by
    rw [Files.Tree.select, hpaths, Except.map, TemplateFault.sortTexts, List.mergeSort_singleton]
  have hlayers : Logged.after [] (["notes".toList].mapM (patternLayers readers noteSite)) =
      (.ok [[]], [.unknownConfigType "notes".toList]) := by
    rw [List.mapM_cons, List.mapM_nil, patternLayers, hselect]
    rfl
  rw [Sources.layers, Logged.outcome_eq_after, Logged.after_bind_of_ok hlayers]
  cases variableLayers "DV_".toList environment <;> rfl

theorem outcome_noteSite
    (readers : Readers) {environment : Bindings} {layers : List Layer}
    (hlayers : variableLayers "DV_".toList environment = .ok layers) :
    (ownConfiguration readers ⟨environment, noteSite⟩ (some "notes".toList)).outcome =
      ((Settings.ofLayers (layers ++ [.mapping []])).templateConfig.mapError .problem,
        [.unknownConfigType "notes".toList]) := by
  have hsources := layers_noteSite readers environment
  rw [hlayers] at hsources
  have hload : Logged.after [] (Sources.load
        { patterns := ["notes".toList], environment := environment, readers := readers } noteSite) =
      (.ok (.ofLayers (layers ++ [.mapping []])), [.unknownConfigType "notes".toList]) :=
    Logged.after_bind_of_ok hsources _
  simp only [ownConfiguration, Option.toList_some]
  rw [Logged.outcome_eq_after, Logged.after_bind_of_ok hload, Logged.after_ofExcept]

/-- The file brings nothing, the environment brings an option, and another one is given. -/
theorem render_by_ownConfiguration_notes :
    let given : Surroundings :=
      ⟨[("DV_TEMPLATES__ESCAPE".toList, "off".toList)], noteSite⟩
    let options : RenderOptions :=
      { view := "page".toList, minify := true, config := some "notes".toList }
    (ownConfiguration .standard given options.config).outcome =
        (.ok { escape := .bool false }, [.unknownConfigType "notes".toList]) ∧
      (configuration .standard given options).outcome =
        (.ok { escape := .bool false, minifyOutput := .bool true },
          [.unknownConfigType "notes".toList]) := by
  intro given options
  have hpath : settingPath "TEMPLATES__ESCAPE".toList =
      ["templates".toList, "escape".toList] := by decide +kernel
  have hoff : readValue "off".toList = .ok (.bool false) := rfl
  have hmarked : after? "DV_".toList "DV_TEMPLATES__ESCAPE".toList =
      some "TEMPLATES__ESCAPE".toList := by decide
  have hlayers : variableLayers "DV_".toList given.environment =
      .ok [.assignment ["templates".toList, "escape".toList] (.bool false)] := by
    simp only [variableLayers, given, List.filterMap_cons, List.filterMap_nil, hmarked,
      Option.map_some, List.mapM_cons, List.mapM_nil, hoff, hpath]
    rfl
  have hown : (ownConfiguration .standard given options.config).outcome =
      (.ok { escape := .bool false }, [.unknownConfigType "notes".toList]) :=
    outcome_noteSite .standard hlayers
  obtain ⟨⟨hwarnings, hadjusted, -⟩, -⟩ := render_by_ownConfiguration {} given options
  refine ⟨hown, Prod.ext ?_ ?_⟩
  · rw [hadjusted, hown]
    · rfl
    · rw [hown]
      simp
  · rw [hwarnings, hown]

/-- A section that is no mapping is a problem by itself, and none for a rendering. -/
theorem not_render_by_ownConfiguration :
    ¬ ∀ (given : Surroundings) (options : RenderOptions),
      options.viewsDirectory = none → options.minify = false →
        (configuration .standard given options).outcome =
          (ownConfiguration .standard given options.config).outcome := by
  intro hall
  have hpath : settingPath "TEMPLATES".toList = ["templates".toList] := by decide +kernel
  have hoff : readValue "off".toList = .ok (.bool false) := rfl
  have hmarked : after? "DV_".toList "DV_TEMPLATES".toList = some "TEMPLATES".toList := by decide
  have hlayers : variableLayers "DV_".toList [("DV_TEMPLATES".toList, "off".toList)] =
      .ok [.assignment ["templates".toList] (.bool false)] := by
    simp only [variableLayers, List.filterMap_cons, List.filterMap_nil, hmarked, Option.map_some,
      List.mapM_cons, List.mapM_nil, hoff, hpath]
    rfl
  have hsame := hall ⟨[("DV_TEMPLATES".toList, "off".toList)], noteSite⟩
    { view := "page".toList, config := some "notes".toList } rfl rfl
  have hproblem : (Settings.ofLayers [.assignment ["templates".toList] (.bool false),
      .mapping []]).templateConfig = .error .sectionNotMapping := rfl
  rw [outcome_configuration, outcome_noteSite .standard hlayers, List.singleton_append,
    hproblem] at hsame
  simp [Except.mapError, overruled] at hsame

end Command

end Stencil
