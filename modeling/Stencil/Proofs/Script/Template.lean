import Stencil.Proofs.Script.Scan

/-!
# Template literals inside each other

What is opened last is closed first, so a template literal and its substitutions can be followed one
inside the other: a template literal goes on behind the end of a substitution, and a substitution
behind the end of a string, of a template literal or of braces in it.  That is how a template
literal is followed to its own mark, however deep the others lie in it.
-/

namespace Stencil.Script

/-! ## One inside the other -/

theorem Nest.step_append (nest : Nest) (inner outer : List Nest) (c : Char) :
    nest.step (inner ++ outer) c = nest.step inner c ++ outer := by
  cases nest <;> simp only [step] <;> repeat' split
  all_goals rfl

theorem closeWidth_of_nil (nests : List Nest) : closeWidth nests [] = 0 := by
  cases nests <;> rw [closeWidth]

/-- The inner constructs are closed first, and the outer ones behind them. -/
theorem closeWidth_append_nests (inner outer : List Nest) (text : List Char) :
    closeWidth (inner ++ outer) text =
      closeWidth inner text + closeWidth outer (text.drop (closeWidth inner text)) := by
  fun_induction closeWidth inner text with
  | case1 text => simp
  | case2 nest inner => simp [closeWidth_of_nil]
  | case3 nest inner c => simp [closeWidth, closeWidth_of_nil]
  | case4 nest inner c d rest hescape ih =>
      rw [List.cons_append, closeWidth_escape hescape, ← List.cons_append, ih]
      simp only [List.drop_succ_cons]
      omega
  | case5 nest inner c d rest hescape hopens ih =>
      rw [List.cons_append, closeWidth_opens hescape hopens, ← List.cons_append,
        ← List.cons_append, ih]
      simp only [List.drop_succ_cons]
      omega
  | case6 nest inner c d rest hescape hopens ih =>
      rw [List.cons_append, closeWidth_step hescape hopens, Nest.step_append, ih,
        List.drop_succ_cons]
      omega

theorem closeWidth_cons
    {nest : Nest} {outer : List Nest} {c : Char} {rest : List Char}
    (hescape : c = '\\' → nest.escapes = false)
    (hopens : c = '$' → rest.head? = some '{' → nest ≠ .template) :
    closeWidth (nest :: outer) (c :: rest) = closeWidth (nest.step outer c) rest + 1 := by
  cases rest with
  | nil => rw [closeWidth_of_nil, closeWidth]
  | cons d rest =>
      have hplain : ¬ (c == '\\' && nest.escapes) = true := by simpa using hescape
      have hclosed : ¬ (c == '$' && d == '{' && decide (nest = .template)) = true := by
        simpa using hopens
      rw [closeWidth_step hplain hclosed]

theorem templateWidth_mark (rest : List Char) : templateWidth ('\x60' :: rest) = 1 := by
  rw [templateWidth, closeWidth_cons (by simp) (by simp)]
  simp [Nest.step, closeWidth_nil]

theorem templateWidth_escape (c : Char) (rest : List Char) :
    templateWidth ('\\' :: c :: rest) = templateWidth rest + 2 := by
  rw [templateWidth, closeWidth]
  rfl

theorem templateWidth_plain {c : Char} {rest : List Char}
    (hmark : c ≠ '\x60') (hescape : c ≠ '\\') (hopens : c = '$' → rest.head? ≠ some '{') :
    templateWidth (c :: rest) = templateWidth rest + 1 := by
  rw [templateWidth, closeWidth_cons (by simp [hescape]) (by simpa using hopens), Nest.step,
    if_neg (by simpa using hmark), templateWidth]

theorem templateWidth_substitution (rest : List Char) :
    templateWidth ('$' :: '{' :: rest) =
      2 + substitutionWidth rest + templateWidth (rest.drop (substitutionWidth rest)) := by
  rw [templateWidth, closeWidth_opens (by decide) (by decide),
    ← List.singleton_append, closeWidth_append_nests, substitutionWidth, templateWidth]
  omega

/-- A construct that opens inside a substitution is closed before the substitution goes on. -/
theorem substitutionWidth_cons
    {c : Char} {inner : List Nest} {rest : List Char}
    (hstep : Nest.step .braces [] c = inner ++ [.braces]) :
    substitutionWidth (c :: rest) =
      1 + closeWidth inner rest + substitutionWidth (rest.drop (closeWidth inner rest)) := by
  rw [substitutionWidth, closeWidth_cons (by simp [Nest.escapes]) (by simp), hstep,
    closeWidth_append_nests, substitutionWidth]
  omega

theorem substitutionWidth_close (rest : List Char) : substitutionWidth ('}' :: rest) = 1 := by
  rw [substitutionWidth, closeWidth_cons (by simp [Nest.escapes]) (by simp)]
  simp [Nest.step, closeWidth_nil]

theorem substitutionWidth_template (rest : List Char) :
    substitutionWidth ('\x60' :: rest) =
      1 + templateWidth rest + substitutionWidth (rest.drop (templateWidth rest)) :=
  substitutionWidth_cons rfl

theorem substitutionWidth_braces (rest : List Char) :
    substitutionWidth ('{' :: rest) =
      1 + substitutionWidth rest + substitutionWidth (rest.drop (substitutionWidth rest)) :=
  substitutionWidth_cons rfl

theorem substitutionWidth_plain {c : Char}
    (hquote : c ≠ '"' ∧ c ≠ '\'') (hmark : c ≠ '\x60') (hbraces : c ≠ '{' ∧ c ≠ '}')
    (rest : List Char) : substitutionWidth (c :: rest) = 1 + substitutionWidth rest := by
  have hstep : Nest.step .braces [] c = [.braces] := by
    simp [Nest.step, hquote, hmark, hbraces]
  rw [substitutionWidth_cons (List.nil_append [Nest.braces] ▸ hstep)]
  simp [closeWidth_nil]

/-- A string in a substitution ends with its quote, or with its line. -/
theorem closeWidth_quoted (quote : Char) (rest : List Char) :
    closeWidth [.quoted quote, .braces] rest =
      quotedWidth quote rest + substitutionWidth (rest.drop (quotedWidth quote rest)) := by
  have hstep {c : Char} {rest : List Char} (hescape : c = '\\' → False) :
      closeWidth [.quoted quote, .braces] (c :: rest) =
        closeWidth (Nest.step (.quoted quote) [.braces] c) rest + 1 :=
    closeWidth_cons (fun hc => (hescape hc).elim) (by simp)
  fun_induction quotedWidth quote rest with
  | case1 => simp [substitutionWidth, closeWidth_of_nil]
  | case2 => simp [substitutionWidth, closeWidth, closeWidth_of_nil]
  | case3 c rest ih =>
      rw [closeWidth, if_pos (by rfl), ih, List.drop_succ_cons, List.drop_succ_cons]
      omega
  | case4 c rest hescape hquote =>
      rw [hstep hescape, Nest.step, if_pos (by simp [hquote]), List.drop_succ_cons, List.drop_zero,
        substitutionWidth]
      omega
  | case5 c rest hescape hquote hbreak =>
      obtain rfl : c = '\n' := by simpa using hbreak
      rw [hstep hescape, Nest.step, if_pos (by simp), List.drop_zero,
        substitutionWidth_plain (by decide) (by decide) (by decide), substitutionWidth]
      omega
  | case6 c rest hescape hquote hbreak ih =>
      rw [hstep hescape, Nest.step, if_neg (by simp [hquote, hbreak]), ih, List.drop_succ_cons]
      omega

theorem substitutionWidth_quoted {quote : Char} (hquote : quote = '"' ∨ quote = '\'')
    (rest : List Char) :
    substitutionWidth (quote :: rest) =
      1 + quotedWidth quote rest + substitutionWidth (rest.drop (quotedWidth quote rest)) := by
  have hstep : Nest.step .braces [] quote = [.quoted quote, .braces] := by
    rcases hquote with rfl | rfl <;> rfl
  rw [substitutionWidth, closeWidth_cons (by simp [Nest.escapes]) (by simp), hstep,
    closeWidth_quoted]
  omega

/-! ## Literals that are complete -/

/-- The text between the quotes of a string on one line. -/
inductive QuotedBody (quote : Char) : List Char → Prop
  | nil : QuotedBody quote []
  | plain {c : Char} {rest : List Char} (hquote : c ≠ quote) (hescape : c ≠ '\\')
      (hbreak : c ≠ '\n') (hrest : QuotedBody quote rest) : QuotedBody quote (c :: rest)
  | escape {c : Char} {rest : List Char} (hrest : QuotedBody quote rest) :
      QuotedBody quote ('\\' :: c :: rest)

mutual

/-- The text between the marks of a template literal. -/
inductive TemplateBody : List Char → Prop
  | nil : TemplateBody []
  | plain {c : Char} {rest : List Char} (hmark : c ≠ '\x60') (hescape : c ≠ '\\')
      (hopens : c = '$' → rest.head? ≠ some '{') (hrest : TemplateBody rest) :
      TemplateBody (c :: rest)
  | escape {c : Char} {rest : List Char} (hrest : TemplateBody rest) :
      TemplateBody ('\\' :: c :: rest)
  | substitution {inner rest : List Char} (hinner : SubstitutionBody inner)
      (hrest : TemplateBody rest) : TemplateBody ('$' :: '{' :: (inner ++ '}' :: rest))

/-- The text between the braces of a substitution. -/
inductive SubstitutionBody : List Char → Prop
  | nil : SubstitutionBody []
  | plain {c : Char} {rest : List Char} (hquote : c ≠ '"' ∧ c ≠ '\'') (hmark : c ≠ '\x60')
      (hbraces : c ≠ '{' ∧ c ≠ '}') (hrest : SubstitutionBody rest) : SubstitutionBody (c :: rest)
  | quoted {quote : Char} {body rest : List Char} (hquote : quote = '"' ∨ quote = '\'')
      (hbody : QuotedBody quote body) (hrest : SubstitutionBody rest) :
      SubstitutionBody (quote :: (body ++ quote :: rest))
  | template {body rest : List Char} (hbody : TemplateBody body)
      (hrest : SubstitutionBody rest) : SubstitutionBody ('\x60' :: (body ++ '\x60' :: rest))
  | braces {inner rest : List Char} (hinner : SubstitutionBody inner)
      (hrest : SubstitutionBody rest) : SubstitutionBody ('{' :: (inner ++ '}' :: rest))

end

theorem quotedWidth_body {quote : Char} {body : List Char} (hbody : QuotedBody quote body)
    (hquote : quote ≠ '\\') (behind : List Char) :
    quotedWidth quote (body ++ quote :: behind) = body.length + 1 := by
  induction hbody with
  | nil =>
      rw [List.nil_append, quotedWidth_cons fun hescape => hquote hescape, if_pos (by simp)]
      rfl
  | plain hplain hescape hbreak _ ih =>
      rw [List.cons_append, quotedWidth_cons fun hc => hescape hc, if_neg (by simpa using hplain),
        if_neg (by simpa using hbreak), ih]
      rfl
  | escape _ ih =>
      rw [List.cons_append, List.cons_append, quotedWidth, ih]
      rfl

theorem drop_passed (part : List Char) (mark : Char) (rest : List Char) :
    (part ++ mark :: rest).drop (part.length + 1) = rest := by
  simp

mutual

theorem templateWidth_body {body : List Char} (hbody : TemplateBody body) (behind : List Char) :
    templateWidth (body ++ '\x60' :: behind) = body.length + 1 := by
  match body, hbody with
  | _, .nil => exact templateWidth_mark behind
  | c :: rest, .plain hmark hescape hopens hrest =>
      have hhead : c = '$' → (rest ++ '\x60' :: behind).head? ≠ some '{' := by
        intro hc
        cases rest with
        | nil => simp
        | cons d rest => simpa using hopens hc
      rw [List.cons_append, templateWidth_plain hmark hescape hhead,
        templateWidth_body hrest behind]
      rfl
  | _ :: _ :: rest, .escape hrest =>
      rw [List.cons_append, List.cons_append, templateWidth_escape,
        templateWidth_body hrest behind]
      rfl
  | _, .substitution hinner hrest =>
      simp only [List.cons_append, List.append_assoc]
      rw [templateWidth_substitution, substitutionWidth_body hinner, drop_passed,
        templateWidth_body hrest behind]
      simp only [List.length_cons, List.length_append]
      omega

theorem substitutionWidth_body {inner : List Char} (hinner : SubstitutionBody inner)
    (behind : List Char) : substitutionWidth (inner ++ '}' :: behind) = inner.length + 1 := by
  match inner, hinner with
  | _, .nil => exact substitutionWidth_close behind
  | _ :: rest, .plain hquote hmark hbraces hrest =>
      rw [List.cons_append, substitutionWidth_plain hquote hmark hbraces,
        substitutionWidth_body hrest behind, List.length_cons]
      omega
  | _, .quoted hquote hbody hrest =>
      simp only [List.cons_append, List.append_assoc]
      rw [substitutionWidth_quoted hquote, quotedWidth_body hbody, drop_passed,
        substitutionWidth_body hrest behind]
      · simp only [List.length_cons, List.length_append]
        omega
      · rcases hquote with rfl | rfl <;> decide
  | _, .template hbody hrest =>
      simp only [List.cons_append, List.append_assoc]
      rw [substitutionWidth_template, templateWidth_body hbody, drop_passed,
        substitutionWidth_body hrest behind]
      simp only [List.length_cons, List.length_append]
      omega
  | _, .braces hinner hrest =>
      simp only [List.cons_append, List.append_assoc]
      rw [substitutionWidth_braces, substitutionWidth_body hinner, drop_passed,
        substitutionWidth_body hrest behind]
      simp only [List.length_cons, List.length_append]
      omega

end

/-! ## Positions in a script -/

/-- Where the template literal ends whose mark is at the position. -/
def templateEnd (script : List Char) (start : Nat) : Nat :=
  start + 1 + templateWidth (script.drop (start + 1))

/-- Where the substitution ends whose text begins at the position. -/
def substitutionEnd (script : List Char) (start : Nat) : Nat :=
  start + substitutionWidth (script.drop start)

def IsTemplate (literal : List Char) : Prop :=
  ∃ body, TemplateBody body ∧ literal = '\x60' :: (body ++ ['\x60'])

theorem templateEnd_of_isTemplate {literal : List Char} (hliteral : IsTemplate literal)
    (before after : List Char) :
    templateEnd (before ++ (literal ++ after)) before.length = before.length + literal.length := by
  obtain ⟨body, hbody, rfl⟩ := hliteral
  have hdrop : (before ++ ('\x60' :: (body ++ ['\x60']) ++ after)).drop (before.length + 1) =
      body ++ '\x60' :: after := by
    simp [List.drop_append]
  rw [templateEnd, hdrop, templateWidth_body hbody]
  simp only [List.length_cons, List.length_append, List.length_nil]
  omega

/-- A template literal ends behind its own mark, whatever stands before it, behind it and inside it.
In any script, a template literal reaches beyond its beginning, a substitution does not end before
its own, and neither reaches beyond the script. -/
theorem ends_of_templates :
    (∀ before literal after, IsTemplate literal →
      templateEnd (before ++ (literal ++ after)) before.length =
        before.length + literal.length) ∧
      (∀ (script : List Char) start, start < script.length →
        start < templateEnd script start ∧ templateEnd script start ≤ script.length) ∧
      ∀ (script : List Char) start, start ≤ script.length →
        start ≤ substitutionEnd script start ∧ substitutionEnd script start ≤ script.length := by
  refine ⟨fun before literal after hliteral => templateEnd_of_isTemplate hliteral before after,
    fun script start hstart => ?_, fun script start hstart => ?_⟩
  · have hwidth := closeWidth_le [.template] (script.drop (start + 1))
    rw [List.length_drop] at hwidth
    rw [templateEnd, templateWidth]
    omega
  · have hwidth := closeWidth_le [.braces] (script.drop start)
    rw [List.length_drop] at hwidth
    rw [substitutionEnd, substitutionWidth]
    omega

/-- In the substitution there are braces, with a string that holds a brace and a template literal;
an escaped mark comes last. -/
theorem ends_of_templates_nested :
    let literal := ['\x60', 'a', '$', '{', '{', '\'', '}', '\'', '\x60', 'b', '\x60', '}', '}',
      '\\', '\x60', '\x60']
    IsTemplate literal ∧ templateEnd (['x', '='] ++ (literal ++ [';'])) 2 = 18 ∧
      (2 < ['x', '$', '{', '}'].length ∧ templateEnd ['x', '$', '{', '}'] 2 ≤ 4) ∧
      substitutionEnd ['x', '$', '{', '}'] 3 ≤ 4 := by
  intro literal
  have hstring : QuotedBody '\'' ['}'] := .plain (by decide) (by decide) (by decide) .nil
  have hinner : TemplateBody ['b'] := .plain (by decide) (by decide) (by decide) .nil
  have hbraces : SubstitutionBody ['{', '\'', '}', '\'', '\x60', 'b', '\x60', '}'] :=
    .braces (.quoted (.inr rfl) hstring (.template hinner .nil)) .nil
  have hbody : TemplateBody ['a', '$', '{', '{', '\'', '}', '\'', '\x60', 'b', '\x60', '}', '}',
      '\\', '\x60'] :=
    .plain (by decide) (by decide) (by decide) (.substitution hbraces (.escape .nil))
  have hliteral : IsTemplate literal := ⟨_, hbody, rfl⟩
  obtain ⟨hends, htemplate, hsubstitution⟩ := ends_of_templates
  exact ⟨hliteral, hends ['x', '='] literal [';'] hliteral,
    ⟨by decide, (htemplate ['x', '$', '{', '}'] 2 (by decide)).2⟩,
    (hsubstitution ['x', '$', '{', '}'] 3 (by decide)).2⟩

end Stencil.Script
