import ScrapeRelay.Config
import ScrapeRelay.Failure
import ScrapeRelay.Target
import ScrapeRelay.Text.Decimal

/-!
# Building providers

The static targets of a job make one provider, and each configured provider is
built by the builder that is registered for its kind. A job has all its providers
or none.
-/

namespace ScrapeRelay.Discovery

open ScrapeRelay.Text

/-- What a provider does on its own once it runs. -/
structure Discoverer where
  /-- A name under which groups are reported through it from outside. -/
  handle : Option String
  /-- The groups it reports when it starts. -/
  opening : Option (List TargetGroup)
  /-- Why it ends at once, if it does. -/
  failure : Option Cause
deriving DecidableEq

def Discoverer.fixed (groups : List TargetGroup) : Discoverer := ⟨none, some groups, none⟩

abbrev Builder := String → Config.Provider → Except Cause Discoverer

/-- Builds the providers of a job, each with a name. -/
abbrev Factory := String → Config.Discovery → Except Failure (List (String × Discoverer))

abbrev Registry := String → Option Builder

def Registry.bare : Registry := fun _ => none

def staticName : String := "static"

/-- The name of a configured provider: its kind and its place. -/
def providerName (kind : String) (place : Nat) : String := kind ++ "/" ++ decimal place

def staticGroups (place : Nat) : List Config.StaticTargets → List TargetGroup
  | [] => []
  | first :: rest =>
      .ofAddresses (decimal place) first.targets first.labels :: staticGroups (place + 1) rest

def buildStatic (groups : List Config.StaticTargets) : List (String × Discoverer) :=
  if groups.isEmpty then [] else [(staticName, .fixed (staticGroups 0 groups))]

def Registry.buildOne (registry : Registry) (job : String) (provider : Config.Provider) :
    Except Failure Discoverer :=
  match registry provider.kind with
  | none =>
      .error (.discovery job
        (.plain ("unknown discovery provider kind " ++ quote provider.kind)))
  | some builder =>
      match builder job provider with
      | .ok discoverer => .ok discoverer
      | .error cause => .error (.discovery job cause)

def Registry.buildFrom (registry : Registry) (job : String) (place : Nat) :
    List Config.Provider → Except Failure (List (String × Discoverer))
  | [] => .ok []
  | provider :: rest =>
      match registry.buildOne job provider with
      | .error failure => .error failure
      | .ok discoverer =>
          match registry.buildFrom job (place + 1) rest with
          | .error failure => .error failure
          | .ok others => .ok ((providerName provider.kind place, discoverer) :: others)

def Registry.build (registry : Registry) (job : String) (discovery : Config.Discovery) :
    Except Failure (List (String × Discoverer)) :=
  match registry.buildFrom job 0 discovery.providers with
  | .error failure => .error failure
  | .ok configured => .ok (buildStatic discovery.staticTargets ++ configured)

end ScrapeRelay.Discovery
