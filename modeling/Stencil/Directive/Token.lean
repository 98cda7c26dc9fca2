/-!
# Directive tokens

Template text is a sequence of tokens: directives, each a span between double braces, and the text
around them.  A span that is no known directive keeps its place as an unknown one.
-/

namespace Stencil.Directive

def openMark : List Char := ['{', '{']

def closeMark : List Char := ['}', '}']

/-- What a token means, with the expression, literal or name that it carries. -/
inductive Meaning where
  | text
  | unknown
  | variable (expression : List Char)
  | translated (literal : List Char)
  | translatedVariable (expression : List Char)
  | branch (condition : List Char)
  | elseBranch (condition : List Char)
  | otherwise
  | endBranch
  | loop (clause : List Char)
  | endLoop
  | blockOpen (name : List Char) (attributes : Option (List Char))
  | blockClose (name : List Char)
  deriving DecidableEq

structure Token where
  start : Nat
  text : List Char
  meaning : Meaning
  deriving DecidableEq

namespace Token

def stop (token : Token) : Nat :=
  token.start + token.text.length

def isDirective (token : Token) : Bool :=
  token.meaning != .text

def isBlockTag (token : Token) : Bool :=
  match token.meaning with
  | .blockOpen .. | .blockClose .. => true
  | _ => false

end Token

def Meaning.kind : Meaning → String
  | .text => "text"
  | .unknown => "unknown"
  | .variable _ => "var"
  | .translated _ => "translate"
  | .translatedVariable _ => "translate_var"
  | .branch _ => "if"
  | .elseBranch _ => "elseif"
  | .otherwise => "else"
  | .endBranch => "endif"
  | .loop _ => "foreach"
  | .endLoop => "endforeach"
  | .blockOpen .. => "block_open"
  | .blockClose _ => "block_close"

/-- The expression, literal or name that a token carries. -/
def Meaning.argument : Meaning → List Char
  | .text | .unknown | .otherwise | .endBranch | .endLoop => []
  | .variable argument | .translated argument | .translatedVariable argument
  | .branch argument | .elseBranch argument | .loop argument
  | .blockOpen argument _ | .blockClose argument => argument

def Meaning.attributes? : Meaning → Option (List Char)
  | .blockOpen _ attributes => attributes
  | _ => none

end Stencil.Directive
