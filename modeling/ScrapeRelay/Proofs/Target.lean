import ScrapeRelay.Target

namespace ScrapeRelay.Target

variable {job : String} {groups : List TargetGroup} {target : Target} {seen targets : List Target}

theorem mem_addNew {other : Target} :
    other ∈ addNew seen target ↔ other ∈ seen ∨ other = target := by
  unfold addNew
  split
  · rename_i present
    have member : target ∈ seen := by simpa using present
    constructor
    · exact .inl
    · rintro (old | rfl)
      · exact old
      · exact member
  · simp

theorem nodup_addNew (distinct : seen.Nodup) : (addNew seen target).Nodup := by
  unfold addNew
  split
  · exact distinct
  · rename_i absent
    have fresh : target ∉ seen := by simpa using absent
    refine List.nodup_append.mpr ⟨distinct, by simp, ?_⟩
    intro old member new same equal
    obtain rfl := List.mem_singleton.mp same
    exact fresh (equal ▸ member)

theorem mem_foldl_addNew :
    target ∈ targets.foldl addNew seen ↔ target ∈ seen ∨ target ∈ targets := by
  induction targets generalizing seen with
  | nil => simp
  | cons first rest ih =>
      rw [List.foldl_cons, ih, mem_addNew, List.mem_cons, or_assoc]

theorem nodup_foldl_addNew (distinct : seen.Nodup) : (targets.foldl addNew seen).Nodup := by
  induction targets generalizing seen with
  | nil => exact distinct
  | cons first rest ih => exact ih (nodup_addNew distinct)

theorem mem_ofGroups_iff : target ∈ ofGroups job groups ↔ target ∈ listed job groups := by
  simp [ofGroups, mem_foldl_addNew]

theorem nodup_ofGroups (job : String) (groups : List TargetGroup) :
    (ofGroups job groups).Nodup :=
  nodup_foldl_addNew .nil

theorem job_of_mem_ofGroups (member : target ∈ ofGroups job groups) : target.job = job := by
  obtain ⟨group, _, listed⟩ := List.mem_flatMap.mp (mem_ofGroups_iff.mp member)
  obtain ⟨entry, _, made⟩ := List.mem_filterMap.mp listed
  unfold ofListed? at made
  split at made
  · simp at made
  · exact (congrArg Target.job (Option.some.inj made)).symm

end ScrapeRelay.Target
