import Stencil.Proofs.Block.Nesting

/-!
# What blocks resolve to

A text whose tags pair up resolves to the value of its forest: what stands outside of pairs is kept,
and each pair gives way to what its handler makes of the value of its inside.  The handlers are
called once for each pair, in the order of the closing tags.

The calls are noted beside the result.  Noting them changes neither the result nor the warnings, so
what is said of the noted calls holds of the resolving itself.
-/

namespace Stencil.Block

open Stencil.Data Stencil.Directive

def resultText : Value → List Char
  | .null => []
  | value => value.shown

/-- The call of a handler, with the closing tag at which it was made. -/
structure Call where
  closer : Token
  name : List Char
  inner : List Char
  attributes : Attributes
  deriving DecidableEq

namespace Resolver

variable (resolver : Resolver)

/-- Every handler has a result, whatever it is called with. -/
def Total : Prop :=
  ∀ name handler, resolver.handlers.get? name = some handler →
    ∀ inner attributes context, ∃ value, handler inner attributes context = .ok value

/-- A strict resolver has a handler for every pair. -/
def Admits (forest : Forest) : Prop :=
  resolver.strict = true → ∀ name ∈ forest.names, (resolver.handlers.get? name).isSome

def calledAt (token : Token) : Bool :=
  match token.meaning with
  | .blockClose name => (resolver.handlers.get? name).isSome
  | _ => false

/-- The call that a pair of tags brings about, if it has a handler. -/
def call? (opening : Opening) (inner : List Char) (closer : Token) : Option Call :=
  (resolver.handlers.get? opening.name).map fun _ =>
    ⟨closer, opening.name, inner, Block.attributes opening.attributes⟩

/-- Apply the handler of a pair and note the call. -/
def applyNoted (opening : Opening) (inner : List Char) (closer : Token) :
    StateT (List Call) (Logged Failure) (List Char) := do
  modify (· ++ (resolver.call? opening inner closer).toList)
  resolver.apply opening inner closer

def resolveNoted (text : List Char) : StateT (List Call) (Logged Failure) (List Char) :=
  resolveBy resolver.applyNoted text

end Resolver

/-- The value of a forest, the calls that lead to it and the warnings on the way. -/
inductive Resolves (resolver : Resolver) :
    Forest → List Char → List Call → List Warning → Prop where
  | empty : Resolves resolver .empty [] [] []
  | leaf {token : Token} {rest : Forest} {later : List Char} {calls : List Call}
      {warnings : List Warning} (htoken : token.isBlockTag = false)
      (hrest : Resolves resolver rest later calls warnings) :
      Resolves resolver (.leaf token htoken rest) (token.text ++ later) calls warnings
  | handled {opening : Opening} {closer : Token} {inner rest : Forest} {handler : Handler}
      {value : Value} {between later : List Char} {innerCalls laterCalls : List Call}
      {innerWarnings laterWarnings : List Warning}
      (hopening : opening.token.meaning = .blockOpen opening.name opening.attributes)
      (hcloser : closer.meaning = .blockClose opening.name)
      (hinner : Resolves resolver inner between innerCalls innerWarnings)
      (hhandler : resolver.handlers.get? opening.name = some handler)
      (hvalue : handler between (attributes opening.attributes) resolver.context = .ok value)
      (hrest : Resolves resolver rest later laterCalls laterWarnings) :
      Resolves resolver (.pair opening closer hopening hcloser inner rest)
        (resultText value ++ later)
        (innerCalls ++
          ⟨closer, opening.name, between, attributes opening.attributes⟩ :: laterCalls)
        (innerWarnings ++ laterWarnings)
  | verbatim {opening : Opening} {closer : Token} {inner rest : Forest}
      {between later : List Char} {innerCalls laterCalls : List Call}
      {innerWarnings laterWarnings : List Warning}
      (hopening : opening.token.meaning = .blockOpen opening.name opening.attributes)
      (hcloser : closer.meaning = .blockClose opening.name)
      (hinner : Resolves resolver inner between innerCalls innerWarnings)
      (hhandler : resolver.handlers.get? opening.name = none) (hlenient : resolver.strict = false)
      (hrest : Resolves resolver rest later laterCalls laterWarnings) :
      Resolves resolver (.pair opening closer hopening hcloser inner rest)
        (opening.token.text ++ between ++ closer.text ++ later)
        (innerCalls ++ laterCalls)
        (innerWarnings ++ .unhandledBlock opening.name :: laterWarnings)

/-! ## One pair of tags -/

section

variable {resolver : Resolver} {opening : Opening} {inner : List Char} {closer : Token}
variable {log : List Warning}

theorem after_apply_handled
    {handler : Handler} {value : Value}
    (hhandler : resolver.handlers.get? opening.name = some handler)
    (hvalue : handler inner (attributes opening.attributes) resolver.context = .ok value) :
    Logged.after log (resolver.apply opening inner closer) = (.ok (resultText value), log) := by
  simp only [Resolver.apply, hhandler, hvalue]
  cases value <;> rfl

theorem after_apply_verbatim
    (hhandler : resolver.handlers.get? opening.name = none) (hlenient : resolver.strict = false) :
    Logged.after log (resolver.apply opening inner closer) =
      (.ok (opening.token.text ++ inner ++ closer.text),
        log ++ [.unhandledBlock opening.name]) := by
  simp only [Resolver.apply, hhandler, hlenient]
  rfl

theorem isSome_handler_of_apply
    {result : List Char} {later : List Warning} (hstrict : resolver.strict = true)
    (hresult : Logged.after log (resolver.apply opening inner closer) = (.ok result, later)) :
    (resolver.handlers.get? opening.name).isSome := by
  cases hhandler : resolver.handlers.get? opening.name with
  | some handler => rfl
  | none =>
      simp only [Resolver.apply, hhandler, hstrict, if_true] at hresult
      exact absurd hresult Logged.after_throw_ne_ok

end

/-! ## Noting the calls -/

theorem run_applyNoted
    (resolver : Resolver) (opening : Opening) (inner : List Char) (closer : Token)
    (notes : List Call) :
    (resolver.applyNoted opening inner closer).run notes =
      resolver.apply opening inner closer >>= fun result =>
        pure (result, notes ++ (resolver.call? opening inner closer).toList) := by
  simp [Resolver.applyNoted]

theorem after_applyNoted
    {resolver : Resolver} {opening : Opening} {inner result : List Char} {closer : Token}
    {log later : List Warning}
    (hresult : Logged.after log (resolver.apply opening inner closer) = (.ok result, later))
    (notes : List Call) :
    Logged.after log ((resolver.applyNoted opening inner closer).run notes) =
      (.ok (result, notes ++ (resolver.call? opening inner closer).toList), later) := by
  rw [run_applyNoted, Logged.after_bind_of_ok hresult, Logged.after_pure]

/-- Noting the calls changes nothing else. -/
theorem fst_resolveFrom_applyNoted
    (resolver : Resolver) (frames : List Frame) (written : List (List Char)) (found : List Token)
    (notes : List Call) :
    Prod.fst <$> (resolveFrom resolver.applyNoted frames written found).run notes =
      resolveFrom resolver.apply frames written found := by
  induction frames, found using frame_induction generalizing written notes with
  | finished => simp [resolveFrom]
  | unclosed frame outer => simp [resolveFrom_unclosed]
  | leaf frames token rest htoken ih =>
      rw [resolveFrom_leaf _ frames written rest htoken,
        resolveFrom_leaf _ frames written rest htoken, ih]
  | opening frames token rest name attributes hmeaning ih =>
      rw [resolveFrom_open _ frames written rest hmeaning,
        resolveFrom_open _ frames written rest hmeaning, ih]
  | closing frame outer token rest hmeaning ih =>
      rw [resolveFrom_close _ outer written rest frame hmeaning,
        resolveFrom_close _ outer written rest frame hmeaning]
      simp [run_applyNoted, ih]
  | unmatched token rest name hmeaning =>
      rw [resolveFrom_unmatched _ written rest hmeaning,
        resolveFrom_unmatched _ written rest hmeaning]
      simp
  | crossed frame outer token rest name hmeaning hname =>
      rw [resolveFrom_crossed _ outer written rest hmeaning hname,
        resolveFrom_crossed _ outer written rest hmeaning hname]
      simp

theorem fst_resolveNoted (resolver : Resolver) (text : List Char) :
    Prod.fst <$> (resolver.resolveNoted text).run [] = resolver.resolve text := by
  unfold Resolver.resolveNoted Resolver.resolve
  cases htext : Directive.tokens text with
  | error fault => simp [resolveBy, htext]
  | ok found =>
      rw [resolveBy_of_tokens _ htext, resolveBy_of_tokens _ htext, fst_resolveFrom_applyNoted]

/-! ## Whole forests -/

theorem after_resolve_pair
    {resolver : Resolver} {opening : Opening} {closer : Token} {inner rest : Forest}
    {hopening : opening.token.meaning = .blockOpen opening.name opening.attributes}
    {hcloser : closer.meaning = .blockClose opening.name}
    {innerPieces laterPieces : List (List Char)}
    {result : List Char} {notes innerNotes laterNotes : List Call}
    {log innerLog applyLog laterLog : List Warning}
    (hinner : Logged.after log ((inner.resolve resolver.applyNoted).run notes) =
      (.ok (innerPieces, innerNotes), innerLog))
    (hresult : Logged.after innerLog (resolver.apply opening innerPieces.flatten closer) =
      (.ok result, applyLog))
    (hlater : Logged.after applyLog ((rest.resolve resolver.applyNoted).run
        (innerNotes ++ (resolver.call? opening innerPieces.flatten closer).toList)) =
      (.ok (laterPieces, laterNotes), laterLog)) :
    Logged.after log (((Forest.pair opening closer hopening hcloser inner rest).resolve
        resolver.applyNoted).run notes) =
      (.ok (result :: laterPieces, laterNotes), laterLog) := by
  simp only [Forest.resolve, StateT.run_bind, StateT.run_pure]
  rw [Logged.after_bind_of_ok hinner, Logged.after_bind_of_ok (after_applyNoted hresult innerNotes),
    Logged.after_bind_of_ok hlater, Logged.after_pure]

theorem Resolves.after_resolve
    {resolver : Resolver} {forest : Forest} {result : List Char} {calls : List Call}
    {warnings : List Warning} (hresolves : Resolves resolver forest result calls warnings)
    (notes : List Call) (log : List Warning) :
    ∃ pieces, pieces.flatten = result ∧
      Logged.after log ((forest.resolve resolver.applyNoted).run notes) =
        (.ok (pieces, notes ++ calls), log ++ warnings) := by
  induction hresolves generalizing notes log with
  | empty => exact ⟨[], rfl, by simp [Forest.resolve]⟩
  | @leaf token rest later calls warnings htoken hrest ih =>
      obtain ⟨pieces, rfl, hpieces⟩ := ih notes log
      refine ⟨token.text :: pieces, rfl, ?_⟩
      simp only [Forest.resolve, StateT.run_bind, StateT.run_pure]
      rw [Logged.after_bind_of_ok hpieces, Logged.after_pure]
  | @handled opening closer inner rest handler value between later innerCalls laterCalls
      innerWarnings laterWarnings hopening hcloser hinner hhandler hvalue hrest ihInner ihRest =>
      obtain ⟨innerPieces, rfl, hinnerPieces⟩ := ihInner notes log
      have hresult : Logged.after (log ++ innerWarnings)
          (resolver.apply opening innerPieces.flatten closer) =
            (.ok (resultText value), log ++ innerWarnings) :=
        after_apply_handled hhandler hvalue
      have hcall : (resolver.call? opening innerPieces.flatten closer).toList =
          [⟨closer, opening.name, innerPieces.flatten, attributes opening.attributes⟩] := by
        simp [Resolver.call?, hhandler]
      obtain ⟨laterPieces, rfl, hlater⟩ := ihRest
        (notes ++ innerCalls ++ (resolver.call? opening innerPieces.flatten closer).toList)
        (log ++ innerWarnings)
      refine ⟨resultText value :: laterPieces, rfl, ?_⟩
      rw [after_resolve_pair hinnerPieces hresult hlater, hcall]
      simp only [List.append_assoc, List.singleton_append]
  | @verbatim opening closer inner rest between later innerCalls laterCalls innerWarnings
      laterWarnings hopening hcloser hinner hhandler hlenient hrest ihInner ihRest =>
      obtain ⟨innerPieces, rfl, hinnerPieces⟩ := ihInner notes log
      have hresult : Logged.after (log ++ innerWarnings)
          (resolver.apply opening innerPieces.flatten closer) =
            (.ok (opening.token.text ++ innerPieces.flatten ++ closer.text),
              log ++ innerWarnings ++ [.unhandledBlock opening.name]) :=
        after_apply_verbatim hhandler hlenient
      have hcall : (resolver.call? opening innerPieces.flatten closer).toList = [] := by
        simp [Resolver.call?, hhandler]
      obtain ⟨laterPieces, rfl, hlater⟩ := ihRest
        (notes ++ innerCalls ++ (resolver.call? opening innerPieces.flatten closer).toList)
        (log ++ innerWarnings ++ [.unhandledBlock opening.name])
      refine ⟨(opening.token.text ++ innerPieces.flatten ++ closer.text) :: laterPieces, rfl, ?_⟩
      rw [after_resolve_pair hinnerPieces hresult hlater, hcall]
      simp only [List.append_assoc, List.singleton_append, List.nil_append]

theorem exists_resolves
    {resolver : Resolver} (htotal : resolver.Total) {forest : Forest}
    (hforest : resolver.Admits forest) :
    ∃ result calls warnings, Resolves resolver forest result calls warnings := by
  induction forest with
  | empty => exact ⟨_, _, _, .empty⟩
  | leaf token htoken rest ih =>
      obtain ⟨later, calls, warnings, hrest⟩ := ih hforest
      exact ⟨_, _, _, .leaf htoken hrest⟩
  | pair opening closer hopening hcloser inner rest ihInner ihRest =>
      have hnames : resolver.strict = true →
          (resolver.handlers.get? opening.name).isSome ∧
            (∀ name ∈ inner.names, (resolver.handlers.get? name).isSome) ∧
            ∀ name ∈ rest.names, (resolver.handlers.get? name).isSome := by
        intro hstrict
        simpa [Forest.names, or_imp, forall_and] using hforest hstrict
      obtain ⟨between, innerCalls, innerWarnings, hinner⟩ := ihInner fun hstrict =>
        (hnames hstrict).2.1
      obtain ⟨later, laterCalls, laterWarnings, hrest⟩ := ihRest fun hstrict =>
        (hnames hstrict).2.2
      cases hhandler : resolver.handlers.get? opening.name with
      | some handler =>
          obtain ⟨value, hvalue⟩ := htotal opening.name handler hhandler between
            (attributes opening.attributes) resolver.context
          exact ⟨_, _, _, .handled hopening hcloser hinner hhandler hvalue hrest⟩
      | none =>
          have hlenient : resolver.strict = false := by
            rw [Bool.eq_false_iff]
            intro hstrict
            have hsome := (hnames hstrict).1
            rw [hhandler] at hsome
            contradiction
          exact ⟨_, _, _, .verbatim hopening hcloser hinner hhandler hlenient hrest⟩

theorem Resolves.map_closer
    {resolver : Resolver} {forest : Forest} {result : List Char} {calls : List Call}
    {warnings : List Warning} (hresolves : Resolves resolver forest result calls warnings) :
    calls.map Call.closer = forest.tokens.filter resolver.calledAt := by
  induction hresolves with
  | empty => rfl
  | @leaf token rest later calls warnings htoken hrest ih =>
      have htoken : resolver.calledAt token = false := by
        unfold Token.isBlockTag at htoken
        unfold Resolver.calledAt
        split <;> simp_all
      simp [Forest.tokens, htoken, ih]
  | @handled opening closer inner rest handler value between later innerCalls laterCalls
      innerWarnings laterWarnings hopening hcloser hinner hhandler hvalue hrest ihInner ihRest =>
      simp [Forest.tokens, Resolver.calledAt, hopening, hcloser, hhandler, ihInner, ihRest]
  | @verbatim opening closer inner rest between later innerCalls laterCalls innerWarnings
      laterWarnings hopening hcloser hinner hhandler hlenient hrest ihInner ihRest =>
      simp [Forest.tokens, Resolver.calledAt, hopening, hcloser, hhandler, ihInner, ihRest]

/-- Without handlers a forest is kept as it is. -/
theorem Resolves.eq_flatMap_text
    {resolver : Resolver} {forest : Forest} {result : List Char} {calls : List Call}
    {warnings : List Warning} (hresolves : Resolves resolver forest result calls warnings)
    (hnone : resolver.handlers = []) : result = forest.tokens.flatMap Token.text := by
  induction hresolves with
  | empty => rfl
  | leaf htoken hrest ih => simp [Forest.tokens, ih]
  | handled hopening hcloser hinner hhandler hvalue hrest ihInner ihRest =>
      rw [hnone] at hhandler
      contradiction
  | verbatim hopening hcloser hinner hhandler hlenient hrest ihInner ihRest =>
      simp [Forest.tokens, ihInner, ihRest]

theorem Resolves.outcome_resolveNoted
    {resolver : Resolver} {forest : Forest} {result text : List Char} {calls : List Call}
    {warnings : List Warning} (hresolves : Resolves resolver forest result calls warnings)
    (htext : Directive.tokens text = .ok forest.tokens) :
    ((resolver.resolveNoted text).run []).outcome = (.ok (result, calls), warnings) := by
  obtain ⟨pieces, rfl, hpieces⟩ := hresolves.after_resolve [] []
  rw [Resolver.resolveNoted, resolveBy_of_forest _ htext, Logged.outcome_eq_after, StateT.run_bind,
    Logged.after_bind_of_ok hpieces]
  rfl

theorem Resolves.outcome_resolve
    {resolver : Resolver} {forest : Forest} {result text : List Char} {calls : List Call}
    {warnings : List Warning} (hresolves : Resolves resolver forest result calls warnings)
    (htext : Directive.tokens text = .ok forest.tokens) :
    (resolver.resolve text).outcome = (.ok result, warnings) := by
  have hnoted := hresolves.outcome_resolveNoted htext
  rw [Logged.outcome_eq_after] at hnoted
  rw [← fst_resolveNoted, Logged.outcome_eq_after, map_eq_pure_bind,
    Logged.after_bind_of_ok hnoted, Logged.after_pure]

theorem admits_of_resolve
    {resolver : Resolver} {forest : Forest} {pieces : List (List Char)}
    {log later : List Warning}
    (hpieces : Logged.after log (forest.resolve resolver.apply) = (.ok pieces, later)) :
    resolver.Admits forest := by
  intro hstrict
  induction forest generalizing pieces log later with
  | empty => simp [Forest.names]
  | leaf token htoken rest ih =>
      obtain ⟨_, _, hrest, _⟩ := Logged.after_bind_eq_ok_iff.mp hpieces
      exact ih hrest
  | pair opening closer hopening hcloser inner rest ihInner ihRest =>
      obtain ⟨_, _, hinner, hpieces⟩ := Logged.after_bind_eq_ok_iff.mp hpieces
      obtain ⟨_, _, hresult, hpieces⟩ := Logged.after_bind_eq_ok_iff.mp hpieces
      obtain ⟨_, _, hrest, _⟩ := Logged.after_bind_eq_ok_iff.mp hpieces
      have hhere := isSome_handler_of_apply hstrict hresult
      have hinnerNames := ihInner hinner
      have hrestNames := ihRest hrest
      simp only [Forest.names, List.mem_cons, List.mem_append, or_imp, forall_and, forall_eq]
      exact ⟨hhere, hinnerNames, hrestNames⟩

/-! ## Texts -/

theorem isOk_resolve_iff {resolver : Resolver} (htotal : resolver.Total) {text : List Char} :
    (∃ result, (resolver.resolve text).outcome.1 = .ok result) ↔
      ∃ forest : Forest, Directive.tokens text = .ok forest.tokens ∧ resolver.Admits forest := by
  constructor
  · rintro ⟨result, hresult⟩
    have hafter : Logged.after [] (resolver.resolve text) =
        (.ok result, (resolver.resolve text).outcome.2) := Prod.ext hresult rfl
    cases htext : Directive.tokens text with
    | error fault =>
        simp only [Resolver.resolve, resolveBy, htext] at hafter
        exact absurd hafter Logged.after_throw_ne_ok
    | ok found =>
        rw [Resolver.resolve, resolveBy_of_tokens _ htext] at hafter
        obtain ⟨forest, rfl⟩ := completes_of_resolveFrom hafter
        rw [← resolveBy_of_tokens _ htext, resolveBy_of_forest _ htext] at hafter
        obtain ⟨pieces, between, hpieces, _⟩ := Logged.after_bind_eq_ok_iff.mp hafter
        exact ⟨forest, rfl, admits_of_resolve hpieces⟩
  · rintro ⟨forest, htext, hforest⟩
    obtain ⟨result, calls, warnings, hresolves⟩ := exists_resolves htotal hforest
    exact ⟨result, congrArg Prod.fst (hresolves.outcome_resolve htext)⟩

/-- With handlers that always have a result, exactly those texts resolve whose tags pair up, and, if
the resolver is strict, have handlers.  The result is the value of the pairing, and each closing tag
of a pair that has a handler brings about one call, in the order of the tags. -/
theorem resolve_eq_value_of_pairing
    (resolver : Resolver) (htotal : resolver.Total) (text : List Char) :
    ((∃ result, (resolver.resolve text).outcome.1 = .ok result) ↔
        ∃ forest : Forest, Directive.tokens text = .ok forest.tokens ∧ resolver.Admits forest) ∧
      (∀ forest : Forest, Directive.tokens text = .ok forest.tokens → resolver.Admits forest →
        ∃ result calls warnings, Resolves resolver forest result calls warnings ∧
          (resolver.resolve text).outcome = (.ok result, warnings) ∧
          ((resolver.resolveNoted text).run []).outcome = (.ok (result, calls), warnings) ∧
          calls.map Call.closer = forest.tokens.filter resolver.calledAt) ∧
      Prod.fst <$> (resolver.resolveNoted text).run [] = resolver.resolve text ∧
      (resolver.handlers = [] → resolver.strict = false →
        ∀ forest : Forest, Directive.tokens text = .ok forest.tokens →
          (resolver.resolve text).outcome.1 = .ok text) := by
  refine ⟨isOk_resolve_iff htotal, ?_, fst_resolveNoted resolver text, ?_⟩
  · intro forest htext hforest
    obtain ⟨result, calls, warnings, hresolves⟩ := exists_resolves htotal hforest
    exact ⟨result, calls, warnings, hresolves, hresolves.outcome_resolve htext,
      hresolves.outcome_resolveNoted htext, hresolves.map_closer⟩
  · intro hnone hlenient forest htext
    have hforest : resolver.Admits forest := by
      intro hstrict
      rw [hlenient] at hstrict
      contradiction
    obtain ⟨result, calls, warnings, hresolves⟩ := exists_resolves htotal hforest
    have hresult : result = text := by
      rw [hresolves.eq_flatMap_text hnone, (scanned_of_tokensFrom htext).flatMap_text]
    subst hresult
    exact congrArg Prod.fst (hresolves.outcome_resolve htext)

def nestedBlocks : Forest :=
  .pair ⟨⟨0, marked " block:b ", .blockOpen ['b'] none⟩, ['b'], none⟩
    ⟨43, marked " /block:b ", .blockClose ['b']⟩ rfl rfl
    (.leaf ⟨13, ['x'], .text⟩ rfl
      (.pair ⟨⟨14, marked "block:b", .blockOpen ['b'] none⟩, ['b'], none⟩
        ⟨30, marked "/block:b ", .blockClose ['b']⟩ rfl rfl
        (.leaf ⟨25, ['-', 'y', '-', ' ', ' '], .text⟩ rfl .empty) .empty))
    .empty

/-- The only handler puts what lies between the tags into brackets. -/
def bracketing : Resolver :=
  ⟨[(['b'], fun inner _ _ => .ok (.text (String.ofList ('[' :: inner ++ [']']))))], true, none⟩

/-- The inner pair is resolved first, and the handler of the outer one gets its result. -/
theorem resolve_eq_value_of_pairing_nested :
    bracketing.Total ∧
      Directive.tokens (nestedBlocks.tokens.flatMap Token.text) = .ok nestedBlocks.tokens ∧
      bracketing.Admits nestedBlocks ∧
      ∃ calls warnings, Resolves bracketing nestedBlocks "[x[-y-  ]]".toList calls warnings ∧
        (bracketing.resolve (nestedBlocks.tokens.flatMap Token.text)).outcome =
          (.ok "[x[-y-  ]]".toList, warnings) ∧
        calls.map Call.closer = nestedBlocks.tokens.filter bracketing.calledAt := by
  have htotal : bracketing.Total := by
    intro name handler hhandler inner attributes context
    obtain ⟨entry, hentry, rfl⟩ := Option.map_eq_some_iff.mp hhandler
    have honly : entry = _ := List.mem_singleton.mp (List.mem_of_find?_eq_some hentry)
    subst honly
    exact ⟨_, rfl⟩
  have htext : Directive.tokens (nestedBlocks.tokens.flatMap Token.text) =
      .ok nestedBlocks.tokens := by decide +kernel
  have hforest : bracketing.Admits nestedBlocks := fun _ => by decide
  obtain ⟨result, calls, warnings, hresolves, hresult, _, hcalls⟩ :=
    (resolve_eq_value_of_pairing bracketing htotal _).2.1 nestedBlocks htext hforest
  have hvalue : (bracketing.resolve (nestedBlocks.tokens.flatMap Token.text)).outcome.1 =
      .ok "[x[-y-  ]]".toList := by decide +kernel
  rw [hresult, Except.ok.injEq] at hvalue
  subst hvalue
  exact ⟨htotal, htext, hforest, calls, warnings, hresolves, hresult, hcalls⟩

end Stencil.Block
