import ScrapeRelay.Target

/-!
# Merging target groups

Providers report the groups of a job independently of each other. The latest
report of each provider counts, and the groups of a job are those of its
providers in the order of the providers' names. A reconfiguration opens a new
generation and forgets all reports; reports of other generations are dropped.
-/

namespace ScrapeRelay.Discovery

/-- Which provider of which generation a report comes from. -/
structure Origin where
  generation : Nat
  job : String
  provider : String
deriving DecidableEq

inductive Update where
  | reconfigured (generation : Nat) (jobs : List String)
  | reported (origin : Origin) (groups : List TargetGroup)
deriving DecidableEq

/-- The latest reports of a generation, by job and by provider. -/
structure Merge where
  generation : Nat
  reports : SortedMap (SortedMap (List TargetGroup))
deriving DecidableEq

namespace Merge

def new : Merge := ⟨0, .empty⟩

/-- Take an update in. An update of another generation has no result. -/
def accept? (merge : Merge) : Update → Option Merge
  | .reconfigured generation jobs =>
      some ⟨generation, .ofList (jobs.map (fun job => (job, .empty)))⟩
  | .reported origin groups =>
      if origin.generation = merge.generation then
        some { merge with
          reports := merge.reports.update origin.job
            (fun held => (held.getD .empty).insert origin.provider groups) }
      else none

def sets (merge : Merge) : TargetSets :=
  merge.reports.map (fun _ providers => providers.values.flatten)

end Merge

end ScrapeRelay.Discovery
