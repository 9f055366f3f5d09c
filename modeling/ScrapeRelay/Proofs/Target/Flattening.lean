import Mathlib.Data.List.Induction
import ScrapeRelay.Proofs.SortedMap
import ScrapeRelay.Proofs.Target

/-!
# How groups are flattened into targets

Every entry of a group that has an address stands for one target, and the entry alone, with the
labels of its group, says which one. A job's targets are these in the order in which each first
occurs, so that what groups come later only adds targets at the end (`ofGroups_flattens`).
-/

namespace ScrapeRelay.Target

variable {job name : String} {groups others : List TargetGroup} {target : Target}
  {targets more seen : List Target}

theorem addNew_of_mem (present : target ∈ seen) : addNew seen target = seen := by
  rw [addNew, if_pos (by simpa using present)]

theorem addNew_of_not_mem (absent : target ∉ seen) : addNew seen target = seen ++ [target] := by
  rw [addNew, if_neg (by simpa using absent)]

/-- Targets that are added come in the order of their first occurrences. -/
theorem foldl_addNew_ordered (targets : List Target) :
    (targets.foldl addNew []).Pairwise
      (fun left right => targets.idxOf left < targets.idxOf right) := by
  induction targets using List.reverseRecOn with
  | nil => exact .nil
  | append_singleton front last ih =>
      have early {target : Target} (member : target ∈ front.foldl addNew []) :
          target ∈ front := by
        simpa [mem_foldl_addNew] using member
      have kept : (front.foldl addNew []).Pairwise
          (fun left right => (front ++ [last]).idxOf left < (front ++ [last]).idxOf right) := by
        refine ih.imp_of_mem ?_
        intro left right member member' before
        rwa [List.idxOf_append_of_mem (early member), List.idxOf_append_of_mem (early member')]
      rw [List.foldl_append, List.foldl_cons, List.foldl_nil]
      by_cases present : last ∈ front.foldl addNew []
      · rwa [addNew_of_mem present]
      · rw [addNew_of_not_mem present]
        refine List.pairwise_append.mpr ⟨kept, List.pairwise_singleton .., ?_⟩
        intro left member right same
        obtain rfl := List.mem_singleton.mp same
        have fresh : right ∉ front := by simpa [mem_foldl_addNew] using present
        rw [List.idxOf_append_of_mem (early member), List.idxOf_append_of_notMem fresh]
        have place : front.idxOf left < front.length := List.idxOf_lt_length_of_mem (early member)
        omega

/-- What is there already does not change which of the other targets are added, and in which
order. -/
theorem foldl_addNew_eq (seen targets : List Target) :
    targets.foldl addNew seen =
      seen ++ (targets.foldl addNew []).filter (fun target => target ∉ seen) := by
  induction targets using List.reverseRecOn with
  | nil => simp
  | append_singleton front last ih =>
      simp only [List.foldl_append, List.foldl_cons, List.foldl_nil]
      by_cases early : last ∈ front.foldl addNew []
      · have there : last ∈ front.foldl addNew seen := by
          rw [mem_foldl_addNew] at early ⊢
          exact .inr (early.resolve_left List.not_mem_nil)
        rw [addNew_of_mem early, addNew_of_mem there, ih]
      · rw [addNew_of_not_mem early, List.filter_append]
        by_cases old : last ∈ seen
        · have there : last ∈ front.foldl addNew seen := mem_foldl_addNew.mpr (.inl old)
          rw [addNew_of_mem there, ih]
          simp [old]
        · have absent : last ∉ front.foldl addNew seen := by
            rw [mem_foldl_addNew] at early ⊢
            simpa [old] using early
          rw [addNew_of_not_mem absent, ih]
          simp [old]

/-- An entry, with the labels of its group, stands for a target of a job. -/
structure StandsFor (job : String) (group entry : Labels) (target : Target) : Prop where
  owner : target.job = job
  address : entry.get? addressLabel = some target.address
  labels : ∀ name, target.labels.get? name =
    if name = instanceLabel then some target.address
    else if name = jobLabel then some job
    else if ['_', '_'] <+: name.toList then none
    else (entry.get? name).or (group.get? name)

theorem get?_labelsOf (job address : String) (group entry : Labels) (name : String) :
    (labelsOf job address group entry).get? name =
      if name = instanceLabel then some address
      else if name = jobLabel then some job
      else if ['_', '_'] <+: name.toList then none
      else (entry.get? name).or (group.get? name) := by
  have shown : ((group.union entry).filter (fun name _ => !isInternal name)).get? name =
      if ['_', '_'] <+: name.toList then none else (entry.get? name).or (group.get? name) := by
    rw [SortedMap.get?_filter, SortedMap.get?_union]
    by_cases internal : ['_', '_'] <+: name.toList
    · have hidden : isInternal name = true := List.isPrefixOf_iff_prefix.mpr internal
      rw [if_pos internal, hidden]
      simp
    · have visible : isInternal name = false :=
        Bool.eq_false_iff.mpr fun hidden => internal (List.isPrefixOf_iff_prefix.mp hidden)
      rw [if_neg internal, visible]
      cases (entry.get? name).or (group.get? name) <;> rfl
  simp only [labelsOf, SortedMap.get?_insert, shown]

theorem ofListed?_eq_some_iff {group entry : Labels} :
    ofListed? job group entry = some target ↔ StandsFor job group entry target := by
  constructor
  · intro made
    unfold ofListed? at made
    split at made
    · cases made
    · rename_i address found
      obtain rfl := Option.some.inj made
      exact ⟨rfl, found, get?_labelsOf job address group entry⟩
  · rintro ⟨rfl, found, labels⟩
    have same : labelsOf target.job target.address group entry = target.labels :=
      SortedMap.ext_get? fun name => by rw [labels, get?_labelsOf]
    simp only [ofListed?, found, same]

/-- The entries of groups in order, each with the labels of its group. -/
def entriesOf (groups : List TargetGroup) : List (Labels × Labels) :=
  groups.flatMap fun group => group.targets.map fun entry => (group.labels, entry)

theorem mem_entriesOf_iff {group entry : Labels} :
    (group, entry) ∈ entriesOf groups ↔
      ∃ source ∈ groups, source.labels = group ∧ entry ∈ source.targets := by
  simp only [entriesOf, List.mem_flatMap, List.mem_map, Prod.mk.injEq]
  constructor
  · rintro ⟨source, member, entry, there, rfl, rfl⟩
    exact ⟨source, member, rfl, there⟩
  · rintro ⟨source, member, rfl, there⟩
    exact ⟨source, member, entry, there, rfl, rfl⟩

theorem listed_eq (job : String) (groups : List TargetGroup) :
    listed job groups =
      (entriesOf groups).filterMap (fun entry => ofListed? job entry.1 entry.2) := by
  rw [listed, entriesOf, List.filterMap_flatMap]
  simp only [List.filterMap_map, Function.comp_def]

/-- The entries with an address stand for the targets that are listed, one by one. -/
theorem listed_standFor (job : String) (groups : List TargetGroup) :
    List.Forall₂ (fun entry target => StandsFor job entry.1 entry.2 target)
      ((entriesOf groups).filter fun entry => entry.2.contains addressLabel)
      (listed job groups) := by
  rw [listed_eq]
  induction entriesOf groups with
  | nil => exact .nil
  | cons entry rest ih =>
      cases made : ofListed? job entry.1 entry.2 with
      | some target =>
          have stands := ofListed?_eq_some_iff.mp made
          have addressed : entry.2.contains addressLabel = true := by
            rw [SortedMap.contains, stands.address]
            rfl
          simp only [List.filter_cons, if_pos addressed, List.filterMap_cons, made]
          exact .cons stands ih
      | none =>
          have unaddressed : ¬ entry.2.contains addressLabel = true := by
            intro addressed
            obtain ⟨address, found⟩ := Option.isSome_iff_exists.mp addressed
            simp [ofListed?, found] at made
          simp only [List.filter_cons, if_neg unaddressed, List.filterMap_cons, made]
          exact ih

theorem mem_ofGroups_iff_entry :
    target ∈ ofGroups job groups ↔
      ∃ group entry, (group, entry) ∈ entriesOf groups ∧ StandsFor job group entry target := by
  rw [mem_ofGroups_iff, listed_eq, List.mem_filterMap, Prod.exists]
  simp only [ofListed?_eq_some_iff]

/-- The targets of a job are those that the entries with an address stand for, each once, in the
order in which they first occur. So they depend, up to this order, only on which entries there are
under which labels of a group, and groups that follow others add, behind the targets of these, the
targets that are new. -/
theorem ofGroups_flattens (job : String) :
    (∀ groups, ∃ occurrences,
      List.Forall₂ (fun entry target => StandsFor job entry.1 entry.2 target)
        ((entriesOf groups).filter fun entry => entry.2.contains addressLabel) occurrences ∧
      (∀ target, target ∈ ofGroups job groups ↔ target ∈ occurrences) ∧
      (ofGroups job groups).Nodup ∧
      (ofGroups job groups).Pairwise
        (fun left right => occurrences.idxOf left < occurrences.idxOf right)) ∧
    (∀ groups others : List TargetGroup,
      (∀ labels entry,
        (∃ group ∈ groups, group.labels = labels ∧ entry ∈ group.targets) ↔
          ∃ group ∈ others, group.labels = labels ∧ entry ∈ group.targets) →
      ∀ target, target ∈ ofGroups job groups ↔ target ∈ ofGroups job others) ∧
    ∀ groups more, ofGroups job (groups ++ more) =
      ofGroups job groups ++
        (ofGroups job more).filter (fun target => target ∉ ofGroups job groups) := by
  refine ⟨?_, ?_, ?_⟩
  · intro groups
    exact ⟨listed job groups, listed_standFor job groups, fun _ => mem_ofGroups_iff,
      nodup_ofGroups job groups, foldl_addNew_ordered _⟩
  · intro groups others same target
    have entries (group entry : Labels) :
        (group, entry) ∈ entriesOf groups ↔ (group, entry) ∈ entriesOf others := by
      rw [mem_entriesOf_iff, mem_entriesOf_iff]
      exact same group entry
    simp only [mem_ofGroups_iff_entry, entries]
  · intro groups more
    have split : listed job (groups ++ more) = listed job groups ++ listed job more :=
      List.flatMap_append
    rw [ofGroups, split, List.foldl_append, foldl_addNew_eq]
    rfl

end ScrapeRelay.Target
