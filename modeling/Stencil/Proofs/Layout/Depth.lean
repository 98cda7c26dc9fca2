import Stencil.Layout.Compose
import Stencil.Proofs.Logged

/-!
# The depth of a composition

Whatever includes what, composing comes to an end, since it leaves out what lies too deep.  The depth
at which it does so matters only where something is left out: a composition without a warning
is the same with every greater depth.
-/

namespace Stencil.Layout

open Stencil.Text

variable {α β : Type} {composer : Composer}

/-! ## The end of a composition -/

/-- The text that a composition begins with. -/
def Composer.givenText (composer : Composer) (layout source : List Char) (base : Bool) :
    Except Failure (List Char) :=
  if source.isEmpty then composer.places.layoutSource composer.tree layout base else .ok source

/-- How a composition ends: with a text or a failure, and with warnings. -/
abbrev Outcome :=
  Except Failure (List Char) × List Warning

mutual

/-- Composing at a depth comes to an end.  The depth grows with every inclusion, and nothing else
bounds how many there are. -/
inductive Ends (composer : Composer) :
    Int → List Char → List Char → Bool → Outcome → Prop where
  | deep {depth : Int} {layout source : List Char} {base : Bool}
      (hdepth : composer.limit ≤ depth) :
      Ends composer depth layout source base (.ok [], [.layoutDepth composer.limit layout])
  | unreadable {depth : Int} {layout source : List Char} {base : Bool} {failure : Failure}
      (hdepth : depth < composer.limit)
      (hgiven : composer.givenText layout source base = .error failure) :
      Ends composer depth layout source base (.error failure, [])
  | failed {depth : Int} {layout source given : List Char} {base : Bool} {failure : Failure}
      {warnings : List Warning} (hdepth : depth < composer.limit)
      (hgiven : composer.givenText layout source base = .ok given)
      (hcurrent : FillEnds composer (depth + 1) base
        (cut (inclusion? "layout".toList) given) (.error failure, warnings)) :
      Ends composer depth layout source base (.error failure, warnings)
  | composed {depth : Int} {layout source given filled : List Char} {base : Bool}
      {result : Except Failure (List Char)} {warnings later : List Warning}
      (hdepth : depth < composer.limit)
      (hgiven : composer.givenText layout source base = .ok given)
      (hcurrent : FillEnds composer (depth + 1) base
        (cut (inclusion? "layout".toList) given) (.ok filled, warnings))
      (hbase : FillEnds composer (depth + 1) true
        (cut (inclusion? "baselayout".toList) filled) (result, later)) :
      Ends composer depth layout source base (result, warnings ++ later)

/-- Putting compositions in the places of inclusions comes to an end. -/
inductive FillEnds (composer : Composer) :
    Int → Bool → List (Piece (List Char)) → Outcome → Prop where
  | done {depth : Int} {base : Bool} : FillEnds composer depth base [] (.ok [], [])
  | plain {depth : Int} {base : Bool} {text : List Char} {rest : List (Piece (List Char))}
      {result : Except Failure (List Char)} {warnings : List Warning}
      (hrest : FillEnds composer depth base rest (result, warnings)) :
      FillEnds composer depth base (.plain text :: rest) (result.map (text ++ ·), warnings)
  | failed {depth : Int} {base : Bool} {found name : List Char} {rest : List (Piece (List Char))}
      {failure : Failure} {warnings : List Warning}
      (hname : Ends composer depth name [] base (.error failure, warnings)) :
      FillEnds composer depth base (.hit found name :: rest) (.error failure, warnings)
  | hit {depth : Int} {base : Bool} {found name replacement : List Char}
      {rest : List (Piece (List Char))} {result : Except Failure (List Char)}
      {warnings later : List Warning}
      (hname : Ends composer depth name [] base (.ok replacement, warnings))
      (hrest : FillEnds composer depth base rest (result, later)) :
      FillEnds composer depth base (.hit found name :: rest)
        (result.map (replacement ++ ·), warnings ++ later)

end

/-- Put compositions in the places of the inclusions of a text: first of those that look in the
current directory, then of those that look in the base directory. -/
def Composer.includeAll (composer : Composer) (remaining : Nat) (base : Bool)
    (given : List Char) : Logged Failure (List Char) := do
  let filled ← fill (fun name => composer.composeWithin remaining name [] base)
    (cut (inclusion? "layout".toList) given)
  fill (fun name => composer.composeWithin remaining name [] true)
    (cut (inclusion? "baselayout".toList) filled)

theorem composeWithin_succ
    (composer : Composer) (remaining : Nat) (layout source : List Char) (base : Bool) :
    composer.composeWithin (remaining + 1) layout source base =
      Logged.ofExcept (composer.givenText layout source base) >>=
        composer.includeAll remaining base := by
  rw [Composer.composeWithin, Composer.givenText]
  cases source with
  | nil => rfl
  | cons c rest => rfl

theorem exists_fillEnds
    {depth : Int} {base : Bool} {replace : List Char → Logged Failure (List Char)}
    (hreplace : ∀ name, ∃ ending, (replace name).HasOutcome ending ∧
      Ends composer depth name [] base ending)
    (pieces : List (Piece (List Char))) :
    ∃ ending, (fill replace pieces).HasOutcome ending ∧
      FillEnds composer depth base pieces ending := by
  induction pieces with
  | nil => exact ⟨_, Logged.hasOutcome_pure [], .done⟩
  | cons piece rest ih =>
      obtain ⟨⟨result, later⟩, hrest, hends⟩ := ih
      cases piece with
      | plain text => exact ⟨_, hrest.bind_pure (text ++ ·), .plain hends⟩
      | hit found name =>
          obtain ⟨⟨replaced, warnings⟩, hname, hnameEnds⟩ := hreplace name
          cases replaced with
          | error failure => exact ⟨_, hname.bind_error _, .failed hnameEnds⟩
          | ok replacement =>
              exact ⟨_, hname.bind (hrest.bind_pure (replacement ++ ·)), .hit hnameEnds hends⟩

/-- Every composition comes to an end, because the depth only grows. -/
theorem exists_ends
    (composer : Composer) {remaining : Nat} {depth : Int}
    (hremaining : (composer.limit - depth).toNat = remaining)
    (layout source : List Char) (base : Bool) :
    ∃ ending, (composer.composeWithin remaining layout source base).HasOutcome ending ∧
      Ends composer depth layout source base ending := by
  induction remaining generalizing depth layout source base with
  | zero =>
      have hdepth : composer.limit ≤ depth := by omega
      exact ⟨_, (Logged.hasOutcome_warn _).bind_pure fun _ => [], .deep hdepth⟩
  | succ remaining ih =>
      have hdepth : depth < composer.limit := by omega
      have hlater : (composer.limit - (depth + 1)).toNat = remaining := by omega
      rw [composeWithin_succ]
      cases hgiven : composer.givenText layout source base with
      | error failure =>
          exact ⟨_, (Logged.hasOutcome_ofExcept _).bind_error _, .unreadable hdepth hgiven⟩
      | ok given =>
          obtain ⟨⟨result, warnings⟩, hcurrent, hcurrentEnds⟩ :=
            exists_fillEnds (fun name => ih hlater name [] base)
              (cut (inclusion? "layout".toList) given)
          cases result with
          | error failure =>
              exact ⟨_, (Logged.hasOutcome_ofExcept _).bind (hcurrent.bind_error _),
                .failed hdepth hgiven hcurrentEnds⟩
          | ok filled =>
              obtain ⟨⟨result, later⟩, hbase, hbaseEnds⟩ :=
                exists_fillEnds (fun name => ih hlater name [] true)
                  (cut (inclusion? "baselayout".toList) filled)
              exact ⟨(result, warnings ++ later),
                (Logged.hasOutcome_ofExcept _).bind (hcurrent.bind hbase),
                .composed hdepth hgiven hcurrentEnds hbaseEnds⟩

/-! ## Greater depths -/

def LeftOut (warnings : List Warning) : Prop :=
  ∃ limit layout, Warning.layoutDepth limit layout ∈ warnings

theorem leftOut_append_iff {warnings later : List Warning} :
    LeftOut (warnings ++ later) ↔ LeftOut warnings ∨ LeftOut later := by
  simp only [LeftOut, List.mem_append, exists_or]

/-- The second computation ends as the first one does, unless that one leaves something out. -/
def GoesAs (first second : Logged Failure α) : Prop :=
  ∃ ending, first.HasOutcome ending ∧ (¬ LeftOut ending.2 → second.HasOutcome ending)

theorem GoesAs.bind
    {first second : Logged Failure α} {next next' : α → Logged Failure β}
    (hfirst : GoesAs first second) (hnext : ∀ value, GoesAs (next value) (next' value)) :
    GoesAs (first >>= next) (second >>= next') := by
  obtain ⟨⟨result, warnings⟩, hends, hsecond⟩ := hfirst
  cases result with
  | error failure =>
      exact ⟨_, hends.bind_error next, fun hkept => (hsecond hkept).bind_error next'⟩
  | ok value =>
      obtain ⟨⟨result, later⟩, hnextEnds, hnextSecond⟩ := hnext value
      refine ⟨_, hends.bind hnextEnds, fun hkept => ?_⟩
      rw [leftOut_append_iff, not_or] at hkept
      exact (hsecond hkept.1).bind (hnextSecond hkept.2)

theorem goesAs_ofExcept (result : Except Failure α) :
    GoesAs (Logged.ofExcept result) (Logged.ofExcept result) :=
  ⟨_, Logged.hasOutcome_ofExcept result, fun _ => Logged.hasOutcome_ofExcept result⟩

theorem goesAs_pure (value : α) : GoesAs (pure value) (pure value) :=
  ⟨_, Logged.hasOutcome_pure value, fun _ => Logged.hasOutcome_pure value⟩

theorem goesAs_fill
    {replace replace' : List Char → Logged Failure (List Char)}
    (hreplace : ∀ name, GoesAs (replace name) (replace' name))
    (pieces : List (Piece (List Char))) : GoesAs (fill replace pieces) (fill replace' pieces) := by
  induction pieces with
  | nil => exact goesAs_pure []
  | cons piece rest ih =>
      cases piece with
      | plain text => exact ih.bind fun _ => goesAs_pure _
      | hit found name => exact (hreplace name).bind fun _ => ih.bind fun _ => goesAs_pure _

theorem goesAs_composeWithin
    (composer : Composer) (limit : Int) {remaining remaining' : Nat}
    (hle : remaining ≤ remaining') (layout source : List Char) (base : Bool) :
    GoesAs (composer.composeWithin remaining layout source base)
      ({ composer with limit := limit }.composeWithin remaining' layout source base) := by
  induction remaining generalizing remaining' layout source base with
  | zero =>
      refine ⟨_, (Logged.hasOutcome_warn _).bind_pure fun _ => [], fun hkept => ?_⟩
      exact absurd ⟨composer.limit, layout, List.mem_singleton_self _⟩ hkept
  | succ remaining ih =>
      obtain ⟨remaining', rfl⟩ : ∃ later, remaining' = later + 1 := ⟨remaining' - 1, by omega⟩
      have hlater (base : Bool) (name : List Char) := ih (Nat.le_of_succ_le_succ hle) name [] base
      rw [composeWithin_succ, composeWithin_succ]
      refine (goesAs_ofExcept _).bind fun given => ?_
      exact (goesAs_fill (hlater base) _).bind fun filled => goesAs_fill (hlater true) _

/-- Composing a layout or a source comes to an end, and if nothing was left out for its depth, it
ends in the same way with every greater depth. -/
theorem outcome_compose_of_limit_le
    (composer : Composer) (layout source : List Char) (base : Bool) :
    Ends composer 0 layout source base (composer.compose layout source 0 base).outcome ∧
      (¬ LeftOut (composer.compose layout source 0 base).outcome.2 →
        ∀ limit ≥ composer.limit,
          ({ composer with limit := limit }.compose layout source 0 base).outcome =
            (composer.compose layout source 0 base).outcome) := by
  constructor
  · obtain ⟨ending, houtcome, hends⟩ := exists_ends composer rfl layout source base
    rwa [Composer.compose, houtcome.outcome_eq]
  · intro hkept limit hlimit
    have hle : (composer.limit - 0).toNat ≤ (limit - 0).toNat := by omega
    obtain ⟨ending, hfirst, hsecond⟩ := goesAs_composeWithin composer limit hle layout source base
    have hending : (composer.compose layout source 0 base).outcome = ending := hfirst.outcome_eq
    rw [hending] at hkept ⊢
    exact (hsecond hkept).outcome_eq

/-- A layout of a module includes a layout of the module and one of the base.  That another layout
includes itself is of no concern. -/
theorem outcome_compose_of_limit_le_module :
    let places := (Places.ofBase "v".toList none [] ".v".toList ".l".toList).selectModule ['m']
    let layouts := ["modules".toList, ['m'], "views".toList, "layouts".toList]
    let tree : Files.Tree :=
      ⟨[(layouts ++ ["page.l".toList],
          .file (some "\x7b\x7b layout:part \x7d\x7d\x7b\x7b baselayout:part \x7d\x7d".toList)),
        (layouts ++ ["part.l".toList], .file (some ['a'])),
        (layouts ++ ["ring.l".toList], .file (some "\x7b\x7blayout:ring\x7d\x7d".toList)),
        ([['v'], "layouts".toList, "part.l".toList], .file (some ['b']))], []⟩
    let composer : Composer := ⟨places, tree, 2⟩
    let page := "page".toList
    ¬ LeftOut (composer.compose page [] 0 false).outcome.2 ∧ 9 ≥ composer.limit ∧
      (composer.compose page [] 0 false).outcome.1.toOption = some ['a', 'b'] ∧
      ({ composer with limit := 9 }.compose page [] 0 false).outcome =
        (composer.compose page [] 0 false).outcome := by
  intro places layouts tree composer page
  have hsilent : (composer.compose page [] 0 false).outcome.2.isEmpty = true := by decide +kernel
  have hkept : ¬ LeftOut (composer.compose page [] 0 false).outcome.2 := by
    rw [List.isEmpty_iff.mp hsilent]
    rintro ⟨_, _, hmem⟩
    contradiction
  have hlimit : 9 ≥ composer.limit := by decide
  exact ⟨hkept, hlimit, by decide +kernel,
    (outcome_compose_of_limit_le composer page [] false).2 hkept 9 hlimit⟩

end Stencil.Layout
