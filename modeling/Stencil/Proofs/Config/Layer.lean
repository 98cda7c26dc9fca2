import Stencil.Config.Layer
import Stencil.Proofs.Data.Distinct
import Stencil.Proofs.Text.Split

/-!
# What a layer does to a path

Of all that was set before, a layer looks only at what stands at the path itself.  If the layer has
a value there, that value is laid over what was there; if a value that is no mapping bars the way,
there is nothing at the path; and otherwise the layer leaves the path alone.
-/

namespace Stencil.Config

open Stencil.Data Stencil.Text

namespace Settings

/-- A value that is no mapping stands before the end of the path. -/
def bars : Value → List (List Char) → Bool
  | _, [] => false
  | .map entries, name :: rest => (Table.get? entries (nameKey name)).any (bars · rest)
  | _, _ :: _ => true

end Settings

open Settings

/-- What is at a path when a layer is over what was there below. -/
def Layer.effect (layer : Layer) (path : List (List Char)) (below : Option Value) :
    Option Value :=
  match layer with
  | .mapping entries =>
    if bars (.map entries) path then none
    else
      match find? (.map entries) path with
      | some value => some (lay below value)
      | none => below
  | .assignment own value =>
    if own.isPrefixOf path then find? value (path.drop own.length)
    else if path.isPrefixOf own then
      some (.map (assign (entriesOf below) value (own.drop path.length)))
    else below

/-! ## Following a path -/

theorem nameKey_beq_iff {name other : List Char} :
    (nameKey name == nameKey other) = true ↔ name = other := by
  rw [nameKey, nameKey, Key.beq_text_iff, Key.text.injEq, String.ofList_inj]

theorem bind_find?_nil (below : Option Value) : (below.bind fun value => find? value []) = below := by
  cases below <;> rfl

theorem bind_find?_cons (below : Option Value) (name : List Char) (rest : List (List Char)) :
    (below.bind fun value => find? value (name :: rest)) =
      (Table.get? (entriesOf below) (nameKey name)).bind fun value => find? value rest := by
  cases below with
  | none => rfl
  | some value => cases value <;> rfl

theorem find?_eq_none_of_bars
    {value : Value} {path : List (List Char)} (hbars : bars value path) :
    find? value path = none := by
  induction path generalizing value with
  | nil => contradiction
  | cons name rest ih =>
      cases value with
      | map entries =>
          rw [bars, Option.any_eq_true] at hbars
          obtain ⟨inner, hinner, hbars⟩ := hbars
          rw [find?, hinner]
          exact ih hbars
      | _ => rfl

/-! ## Merging -/

theorem get?_put_name (settings : Settings) (key : Key) (value : Value) (name : List Char) :
    Table.get? (Table.put settings key value) (nameKey name) =
      if key == nameKey name then some value else Table.get? settings (nameKey name) :=
  get?_put_text settings key value (String.ofList name)

theorem get?_merge
    {entries : List (Key × Value)} (hentries : DistinctEntries entries) (settings : Settings)
    (name : List Char) :
    Table.get? (merge settings entries) (nameKey name) =
      match Table.get? entries (nameKey name) with
      | some value => some (lay (Table.get? settings (nameKey name)) value)
      | none => Table.get? settings (nameKey name) := by
  induction entries generalizing settings with
  | nil => rfl
  | cons entry rest ih =>
      obtain ⟨key, value⟩ := entry
      obtain ⟨hkey, -, hrest⟩ := hentries
      rw [merge, ih hrest, get?_put_name, Table.get?_cons]
      by_cases hname : key == nameKey name
      · obtain rfl := (Key.beq_text_iff key _).mp hname
        have hlater : Table.get? rest (nameKey name) = none := hkey _ rfl
        rw [hlater, if_pos hname, if_pos hname]
        rfl
      · rw [if_neg hname, if_neg hname]

theorem lay_none (value : Value) : lay none value = value := by
  cases value <;> rfl

theorem get?_lay
    {entries : List (Key × Value)} (hentries : DistinctEntries entries) (below : Option Value)
    (name : List Char) :
    Table.get? (entriesOf (some (lay below (.map entries)))) (nameKey name) =
      match Table.get? entries (nameKey name) with
      | some value => some (lay (Table.get? (entriesOf below) (nameKey name)) value)
      | none => Table.get? (entriesOf below) (nameKey name) := by
  have halone : Table.get? entries (nameKey name) =
      match Table.get? entries (nameKey name) with
      | some value => some (lay (Table.get? ([] : Settings) (nameKey name)) value)
      | none => Table.get? ([] : Settings) (nameKey name) := by
    cases Table.get? entries (nameKey name) with
    | none => rfl
    | some value => exact congrArg some (lay_none value).symm
  cases below with
  | none => exact halone
  | some value =>
      cases value with
      | map settings => exact get?_merge hentries settings name
      | _ => exact halone

/-- The value is laid over what was at the same path, unless the way is barred. -/
theorem find?_lay
    {value : Value} (hvalue : value.Distinct) (below : Option Value) (path : List (List Char)) :
    find? (lay below value) path =
      if bars value path then none
      else
        match find? value path with
        | some found => some (lay (below.bind fun value => find? value path) found)
        | none => below.bind fun value => find? value path := by
  induction path generalizing value below with
  | nil =>
      rw [bind_find?_nil]
      rfl
  | cons name rest ih =>
      cases value with
      | map entries =>
          have hlaid := bind_find?_cons (some (lay below (.map entries))) name rest
          rw [get?_lay hvalue] at hlaid
          rw [Option.bind_some] at hlaid
          rw [hlaid, bind_find?_cons, bars, find?]
          cases hfound : Table.get? entries (nameKey name) with
          | none => rfl
          | some inner => exact ih (hvalue.distinct_of_get? hfound) _
      | _ => rfl

/-! ## Assigning -/

theorem get?_assign_self (settings : Settings) (value : Value) (name : List Char)
    (more : List (List Char)) :
    Table.get? (assign settings value (name :: more)) (nameKey name) =
      some (match more with
        | [] => value
        | next :: more =>
            .map (assign (entriesOf (Table.get? settings (nameKey name))) value (next :: more))) := by
  have hname : (nameKey name == nameKey name) = true := nameKey_beq_iff.mpr rfl
  cases more with
  | nil => rw [assign, get?_put_name, if_pos hname]
  | cons next more =>
      rw [assign, get?_put_name, if_pos hname]
      exact List.cons_ne_nil _ _

theorem get?_assign_of_ne
    {first name : List Char} (hfirst : first ≠ name) (settings : Settings) (value : Value)
    (more : List (List Char)) :
    Table.get? (assign settings value (first :: more)) (nameKey name) =
      Table.get? settings (nameKey name) := by
  have hkey : ¬ (nameKey first == nameKey name) = true := fun hsame =>
    hfirst (nameKey_beq_iff.mp hsame)
  cases more with
  | nil => rw [assign, get?_put_name, if_neg hkey]
  | cons next more =>
      rw [assign, get?_put_name, if_neg hkey]
      exact List.cons_ne_nil _ _

theorem find?_assign
    {own : List (List Char)} (hown : own ≠ []) (value : Value) (below : Option Value)
    (path : List (List Char)) :
    find? (.map (assign (entriesOf below) value own)) path =
      (Layer.assignment own value).effect path (below.bind fun value => find? value path) := by
  obtain ⟨first, more, rfl⟩ := List.exists_cons_of_ne_nil hown
  induction path generalizing first more below with
  | nil =>
      rw [bind_find?_nil]
      rfl
  | cons name rest ih =>
      rw [bind_find?_cons, find?]
      by_cases hfirst : first = name
      · subst hfirst
        rw [get?_assign_self]
        cases more with
        | nil => simp [Layer.effect]
        | cons next more =>
            rw [Option.bind_some, ih _ next more (List.cons_ne_nil _ _)]
            simp [Layer.effect]
      · rw [get?_assign_of_ne hfirst]
        simp [Layer.effect, hfirst, Ne.symm hfirst]

/-! ## One layer and many -/

/-- A mapping has one entry for each name, and an assignment leads somewhere. -/
def Layer.Proper : Layer → Prop
  | .mapping entries => DistinctEntries entries
  | .assignment path _ => path ≠ []

theorem find?_over
    {layer : Layer} (hproper : layer.Proper) (settings : Settings) (path : List (List Char)) :
    find? (.map (layer.over settings)) path =
      layer.effect path (find? (.map settings) path) := by
  cases layer with
  | mapping entries =>
      have hdistinct : (Value.map entries).Distinct := hproper
      exact find?_lay hdistinct (some (.map settings)) path
  | assignment own value => exact find?_assign hproper value (some (.map settings)) path

theorem find?_foldl_over
    {layers : List Layer} (hproper : ∀ layer ∈ layers, layer.Proper) (settings : Settings)
    (path : List (List Char)) :
    find? (.map (layers.foldl (fun settings layer => layer.over settings) settings)) path =
      layers.foldl (fun below layer => layer.effect path below) (find? (.map settings) path) := by
  induction layers generalizing settings with
  | nil => rfl
  | cons layer rest ih =>
      rw [List.forall_mem_cons] at hproper
      rw [List.foldl_cons, List.foldl_cons, ih hproper.2, find?_over hproper.1]

/-- What is at a path is made layer by layer from what is there at first. -/
theorem find?_ofLayers
    {layers : List Layer} (hproper : ∀ layer ∈ layers, layer.Proper) (path : List (List Char)) :
    find? (.map (ofLayers layers)) path =
      layers.foldl (fun below layer => layer.effect path below) (find? (.map []) path) :=
  find?_foldl_over hproper [] path

/-! ## Layers that decide -/

/-- The layer has something to say about the path: a mapping has a value there or bars the way, and
an assignment goes to the path, to something above it or to something below it. -/
def Layer.touches (layer : Layer) (path : List (List Char)) : Bool :=
  match layer with
  | .mapping entries => bars (.map entries) path || (find? (.map entries) path).isSome
  | .assignment own _ => own.isPrefixOf path || path.isPrefixOf own

/-- The layer puts the value at the path: a mapping holds it there and it is no mapping itself, or
it is what an assignment brings there. -/
def Layer.Sets (layer : Layer) (path : List (List Char)) (value : Value) : Prop :=
  match layer with
  | .mapping entries => find? (.map entries) path = some value ∧ value.isMap = false
  | .assignment own assigned => ∃ rest, path = own ++ rest ∧ find? assigned rest = some value

/-- The layer puts a value that is no mapping above the path. -/
def Layer.Bars (layer : Layer) (path : List (List Char)) : Prop :=
  match layer with
  | .mapping entries => bars (.map entries) path
  | .assignment own assigned => ∃ rest, path = own ++ rest ∧ bars assigned rest

theorem effect_of_touches
    {layer : Layer} {path : List (List Char)} (htouches : layer.touches path = false)
    (below : Option Value) : layer.effect path below = below := by
  cases layer with
  | mapping entries =>
      obtain ⟨hbars, hfound⟩ := Bool.or_eq_false_iff.mp htouches
      rw [Option.isSome_eq_false_iff, Option.isNone_iff_eq_none] at hfound
      simp [Layer.effect, hbars, hfound]
  | assignment own value =>
      obtain ⟨habove, hbelow⟩ := Bool.or_eq_false_iff.mp htouches
      simp [Layer.effect, habove, hbelow]

theorem effect_of_sets
    {layer : Layer} {path : List (List Char)} {value : Value} (hsets : layer.Sets path value)
    (below : Option Value) : layer.effect path below = some value := by
  cases layer with
  | mapping entries =>
      obtain ⟨hfound, hplain⟩ := hsets
      have hbars : bars (.map entries) path = false := by
        rw [Bool.eq_false_iff]
        intro hbars
        rw [find?_eq_none_of_bars hbars] at hfound
        contradiction
      have hlaid : lay below value = value := by
        cases value with
        | map entries => contradiction
        | _ => rfl
      simp [Layer.effect, hbars, hfound, hlaid]
  | assignment own assigned =>
      obtain ⟨rest, rfl, hfound⟩ := hsets
      have hprefix : own.isPrefixOf (own ++ rest) := by simp
      rw [Layer.effect, if_pos hprefix, List.drop_left, hfound]

theorem effect_of_bars
    {layer : Layer} {path : List (List Char)} (hbars : layer.Bars path) (below : Option Value) :
    layer.effect path below = none := by
  cases layer with
  | mapping entries =>
      change bars (.map entries) path = true at hbars
      rw [Layer.effect, if_pos hbars]
  | assignment own assigned =>
      obtain ⟨rest, rfl, hbars⟩ := hbars
      have hprefix : own.isPrefixOf (own ++ rest) := by simp
      rw [Layer.effect, if_pos hprefix, List.drop_left, find?_eq_none_of_bars hbars]

theorem foldl_effect_of_touches
    {layers : List Layer} {path : List (List Char)}
    (hlayers : ∀ layer ∈ layers, layer.touches path = false) (below : Option Value) :
    layers.foldl (fun below layer => layer.effect path below) below = below := by
  induction layers generalizing below with
  | nil => rfl
  | cons layer rest ih =>
      rw [List.forall_mem_cons] at hlayers
      rw [List.foldl_cons, effect_of_touches hlayers.1, ih hlayers.2]

end Stencil.Config
