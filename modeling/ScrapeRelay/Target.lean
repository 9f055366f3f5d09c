import ScrapeRelay.Sample

/-!
# Targets

Discovery reports groups of targets; a job's groups are flattened into the
distinct targets that are scraped.
-/

namespace ScrapeRelay

def addressLabel : String := "__address__"

/-- Targets that share labels. The source names the group within its provider. -/
structure TargetGroup where
  source : String
  targets : List Labels
  labels : Labels
deriving DecidableEq

def TargetGroup.ofAddresses (source : String) (addresses : List String) (labels : Labels) :
    TargetGroup :=
  ⟨source, addresses.map (fun address => SortedMap.empty.insert addressLabel address), labels⟩

abbrev TargetSets := SortedMap (List TargetGroup)

structure Target where
  job : String
  address : String
  labels : Labels
deriving DecidableEq

namespace Target

/-- Labels whose name starts with two underscores are for discovery only. -/
def isInternal (name : String) : Bool := ['_', '_'].isPrefixOf name.toList

/-- The labels of a target: those of the group, overridden by those of the
entry, without the internal ones, and with the job and the address. -/
def labelsOf (job address : String) (group entry : Labels) : Labels :=
  let shown := (group.union entry).filter (fun name _ => !isInternal name)
  (shown.insert jobLabel job).insert instanceLabel address

/-- The target that an entry of a group stands for, if it has an address. -/
def ofListed? (job : String) (group entry : Labels) : Option Target :=
  match entry.get? addressLabel with
  | none => none
  | some address => some ⟨job, address, labelsOf job address group entry⟩

/-- The targets of all entries of all groups, in order and with repetitions. -/
def listed (job : String) (groups : List TargetGroup) : List Target :=
  groups.flatMap (fun group => group.targets.filterMap (ofListed? job group.labels))

def addNew (seen : List Target) (target : Target) : List Target :=
  if seen.contains target then seen else seen ++ [target]

/-- The distinct targets of a job's groups, in order of first occurrence. -/
def ofGroups (job : String) (groups : List TargetGroup) : List Target :=
  (listed job groups).foldl addNew []

def display (target : Target) : String := target.job ++ "/" ++ target.address

/-- Attach one label of a target to a sample. A label of the same name and
another value stays if the sample's labels are honored; otherwise its value
moves to a label with `exported_` in front. -/
def attachLabel (honor : Bool) (labels : Labels) (label : String × String) : Labels :=
  match labels.get? label.1 with
  | none => labels.insert label.1 label.2
  | some value =>
      if value = label.2 then labels
      else if honor then labels
      else (labels.insert ("exported_" ++ label.1) value).insert label.1 label.2

/-- Attach the labels of a target to a sample, in the order of their names. -/
def attachLabels (target : Target) (honor : Bool) (sample : Sample) : Sample :=
  { sample with labels := target.labels.entries.foldl (attachLabel honor) sample.labels }

end Target

end ScrapeRelay
