/-
The containment check of `capabilities/path-scope.ts` and the registry guard of
`capabilities/postgres.ts`: which paths lie in the authorised roots. `realpath`
answers `none` where it throws.
-/
import OperatorRuntime.Errors
import OperatorRuntime.Lib.Paths

namespace OperatorRuntime.Scope

open Lib

variable {ρ : Type}

-- ===== PathScope

def lexicalInside (paths : PathOps) (candidate root : String) : Bool :=
  paths.isWithin candidate root

-- === the PostgreSQL registry

/-- `isWithin(candidate, root)` of `capabilities/postgres.ts`. -/
def isWithin (paths : PathOps) (candidate root : String) : Bool :=
  paths.isWithin (paths.resolve candidate) (paths.resolve root)

/-- The loop of `#readRegistry` over one authorised root. -/
def checkRoot (paths : PathOps) (realpath : String → Option String) (registryPath realRegistry : String)
    (root : String) : Result Unit :=
  rejectIf (isWithin paths registryPath root = true
      ∨ isWithin paths realRegistry ((realpath root).getD root) = true)
    .postgresRegistryInsideProjectDenied
    "Trusted PostgreSQL profile registry must live outside all authorized project roots."

/-- `#readRegistry`; `load` reads and validates the file. `failure` is what
`realpath` throws on the registry, nothing where it is `ENOENT`. -/
def readRegistry (paths : PathOps) (realpath : String → Option String)
    (failure : Option OperatorError) (allowedRoots : List String) (registryPath : String)
    (load : Result ρ) : Result (Option ρ) :=
  match realpath registryPath with
  | none =>
    match failure with
    | none => .ok none
    | some error => .error error
  | some realRegistry => do
    allowedRoots.forM (checkRoot paths realpath registryPath realRegistry)
    let registry ← load
    return some registry

end OperatorRuntime.Scope
