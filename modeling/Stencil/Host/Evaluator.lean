import Stencil.Host.Evaluate

/-!
# Evaluators

An evaluator reads templates and renders them.  What a source is read to depends on the settings and
on the names of the filters and tests; global values are looked up when a template is rendered.
-/

namespace Stencil.Host

structure Evaluator (σ ε : Type) where
  read : Settings → List (List Char) → List (List Char) → List Char → Except Problem Template
  render : Environment σ ε → Template → List (List Char × Value) → σ →
    Except (Halt ε) (List Char) × σ

namespace Evaluator

variable {σ ε : Type}

def standard : Evaluator σ ε where
  read _ := readTemplate
  render := Environment.render

def template (evaluator : Evaluator σ ε) (environment : Environment σ ε) :
    List Char → Except Problem Template :=
  evaluator.read environment.settings (Table.keys environment.filters) environment.tests

end Evaluator

end Stencil.Host
