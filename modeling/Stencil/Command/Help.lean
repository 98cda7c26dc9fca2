/-!
# The words of the command line
-/

namespace Stencil.Command

def version : String :=
  "dv, version 0.1.0\n"

def help : String :=
  "Usage: dv [OPTIONS] COMMAND [ARGS]...\n\n" ++
  "  Compile, render and minify directive templates.\n\n" ++
  "  Quick start:\n" ++
  "    dv compile views/home.view.html\n" ++
  "    dv render home --views-dir views --var user=Ada\n" ++
  "    dv minify css static/site.css\n\n" ++
  "Options:\n" ++
  "  --version      Show the version and exit.\n" ++
  "  -v, --verbose  Verbose output\n" ++
  "  --help         Show this message and exit.\n\n" ++
  "Commands:\n" ++
  "  compile   Print compiled view code for FILE.\n" ++
  "  minify    Print minified FILE.\n" ++
  "  render    Render VIEW and print the output.\n"

def commandHelp (use purpose : String) : String :=
  "Usage: dv " ++ use ++ "\n\n  " ++ purpose ++ "\n"

def failureLine (message : List Char) : List Char :=
  "  ✗ ".toList ++ message ++ ['\n']

/-- A line that gives the value of something, aligned with others of its kind. -/
def detailLine (name value : List Char) : List Char :=
  ' ' :: ' ' :: name ++ ':' :: List.replicate (max 1 (19 - name.length)) ' ' ++ value ++ ['\n']

end Stencil.Command
