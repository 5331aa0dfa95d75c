import Concordance.Source.Basic
import Concordance.Specification.Basic
import Concordance.Text.Blank

set_option autoImplicit false

/-!
# Pairing specifications with modules

A module realises a concept if its file or its exposed type is named for it. Specifications are
served in order, and each takes the first such module that no earlier one has taken.
-/

namespace Concordance

/-- Whether a module realises the concept of a key. -/
def SourceModule.realises (m : SourceModule) (key : Text) : Bool :=
  conceptKey m.name = key || m.exposedType.any fun type => conceptKey type = key

/-- Who implements what, by positions in the lists of specifications and modules. -/
structure Pairing where
  /-- The module of each specification, in order. -/
  assigned : List (Option Nat)
  /-- The modules that no specification took, in order. -/
  unclaimed : List Nat
deriving DecidableEq

namespace Pairing

/-- The first module that realises the concept of a key and is not taken. -/
def choose? (modules : List SourceModule) (taken : List Nat) (key : Text) : Option Nat :=
  ((Text.numberFrom 0 modules).find? fun m =>
    !decide (m.1 ∈ taken) && m.2.realises key).map Prod.fst

/-- The modules that the specifications take, in order. -/
def assign (modules : List SourceModule) :
    (taken : List Nat) → List Specification → List (Option Nat)
  | _, [] => []
  | taken, s :: rest =>
    let chosen := choose? modules taken (conceptKey s.name)
    chosen :: assign modules (taken ++ chosen.toList) rest

/-- The pairing of specifications with modules. -/
def ofLists (specs : List Specification) (modules : List SourceModule) : Pairing :=
  let assigned := assign modules [] specs
  { assigned := assigned
    unclaimed := (List.range modules.length).filter fun i => !decide (some i ∈ assigned) }

end Pairing

end Concordance
