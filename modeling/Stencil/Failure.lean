import Stencil.Catalogue
import Stencil.Files.Tree
import Stencil.Host.Problem

/-!
# Failures

All the ways in which rendering can fail.
-/

namespace Stencil

inductive Failure where
  | fault (fault : TemplateFault)
  | registration (failure : RegistrationFailure)
  | call (failure : CallFailure)
  | host (problem : Host.Problem)
  | file (problem : Files.Problem)
  /-- A sheet refers to an import that it does not have. -/
  | unknownImport
  deriving DecidableEq

end Stencil
