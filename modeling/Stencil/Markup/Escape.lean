/-!
# Escaping markup

The characters that mean something in markup are written as character references.  Two ways of
writing quotes are in use: by number, and as an attribute value would have them.
-/

namespace Stencil.Markup

structure QuoteStyle where
  single : List Char
  double : List Char

/-- Both quotes by their decimal numbers. -/
def numbered : QuoteStyle :=
  ⟨"&#39;".toList, "&#34;".toList⟩

/-- The single quote by its hexadecimal number and the double one by its name. -/
def named : QuoteStyle :=
  ⟨"&#x27;".toList, "&quot;".toList⟩

def bareQuotes : QuoteStyle :=
  ⟨['\''], ['"']⟩

def escapeChar (style : QuoteStyle) (c : Char) : List Char :=
  if c == '&' then "&amp;".toList
  else if c == '<' then "&lt;".toList
  else if c == '>' then "&gt;".toList
  else if c == '\'' then style.single
  else if c == '"' then style.double
  else [c]

def escape (style : QuoteStyle) (text : List Char) : List Char :=
  text.flatMap (escapeChar style)

end Stencil.Markup
