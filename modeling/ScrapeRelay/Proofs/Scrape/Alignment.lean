import Mathlib.Data.List.Nodup
import ScrapeRelay.Proofs.Config.Validation
import ScrapeRelay.Proofs.Scrape.Loop
import ScrapeRelay.Proofs.SortedMap
import ScrapeRelay.Proofs.Target
import ScrapeRelay.Scrape.Supervisor

/-!
# Keeping loops in line with targets

Slots and loops of a supervisor stand for each other: `Coherent` says how. Bringing
the loops in line with target sets keeps them coherent, leaves a slot for exactly
what is wanted, and does not touch the loop of a slot that is still wanted.
-/

namespace ScrapeRelay.Scrape.Supervisor

variable {κ σ τ π : Type} {supervisor : Supervisor π} {sets : TargetSets}
  {target : Target} {definition : Installed} {slot : Slot} {keep : Slot → Bool}
  {entry : Target × Installed} {entries : List (Target × Installed)}

theorem get?_definitions_iff {edition : Nat} {config : Config.Scrape} {name : String}
    (valid : config.validate = .ok ()) :
    (definitions edition config).get? name = some definition ↔
      ∃ job ∈ config.jobs, job.name = name ∧ definition = .ofJob edition config.global job := by
  have distinct : ((config.jobs.map (fun job =>
      (job.name, Installed.ofJob edition config.global job))).map Prod.fst).Nodup := by
    simpa [List.map_map, Function.comp_def] using config.validate_names valid
  rw [definitions, SortedMap.get?_ofList_eq_some_iff distinct, List.mem_map]
  constructor
  · rintro ⟨job, member, same⟩
    obtain ⟨rfl, rfl⟩ := Prod.mk.inj same
    exact ⟨job, member, rfl, rfl⟩
  · rintro ⟨job, member, rfl, rfl⟩
    exact ⟨job, member, rfl⟩

theorem mem_wanted_iff :
    (target, definition) ∈ supervisor.wanted sets ↔
      ∃ job groups, (job, groups) ∈ sets.entries ∧
        supervisor.installed.get? job = some definition ∧
        target ∈ Target.ofGroups job groups := by
  simp only [wanted, List.mem_flatMap]
  constructor
  · rintro ⟨⟨job, groups⟩, listed, member⟩
    cases found : supervisor.installed.get? job with
    | none => simp [wantedOf, found] at member
    | some held =>
        simp only [wantedOf, found, List.mem_map] at member
        obtain ⟨_, made, same⟩ := member
        obtain ⟨rfl, rfl⟩ := Prod.mk.inj same
        exact ⟨job, groups, listed, found, made⟩
  · rintro ⟨job, groups, listed, found, made⟩
    refine ⟨(job, groups), listed, ?_⟩
    simp only [wantedOf, found, List.mem_map]
    exact ⟨target, made, rfl⟩

/-- What is wanted carries the definition that is installed for the target's job. -/
theorem installed_of_mem_wanted (member : (target, definition) ∈ supervisor.wanted sets) :
    supervisor.installed.get? target.job = some definition := by
  obtain ⟨job, groups, _, found, made⟩ := mem_wanted_iff.mp member
  rw [Target.job_of_mem_ofGroups made]
  exact found

theorem nodup_wantedOf (installed : SortedMap Installed) (job : String × List TargetGroup) :
    ((wantedOf installed job).map Prod.fst).Nodup := by
  unfold wantedOf
  split
  · simpa [List.map_map, Function.comp_def] using Target.nodup_ofGroups job.1 job.2
  · simp

theorem job_of_mem_wantedOf {installed : SortedMap Installed} {job : String × List TargetGroup}
    (member : target ∈ (wantedOf installed job).map Prod.fst) : target.job = job.1 := by
  unfold wantedOf at member
  split at member
  · exact Target.job_of_mem_ofGroups
      (by simpa [List.map_map, Function.comp_def] using member)
  · simp at member

theorem nodup_wanted (supervisor : Supervisor π) (sets : TargetSets) :
    ((supervisor.wanted sets).map Prod.fst).Nodup := by
  rw [wanted, List.map_flatMap]
  refine List.nodup_flatMap.mpr ⟨fun job _ => nodup_wantedOf _ job, ?_⟩
  refine (List.pairwise_map.mp sets.nodup_keys).imp ?_
  intro left right different shared member other
  exact different ((job_of_mem_wantedOf member).symm.trans (job_of_mem_wantedOf other))

theorem isWanted_iff :
    isWanted entries slot = true ↔
      ∃ entry ∈ entries, entry.1 = slot.target ∧ entry.2.edition = slot.edition := by
  simp [isWanted]

/-- Every slot has a loop of its own that is not cancelled, and every such loop has a
slot. A loop that is not cancelled has not ended, and no loop has a definition that is
newer than the installed ones. -/
structure Coherent (supervisor : Supervisor π) : Prop where
  numbered : ∀ place (loop : ScrapeLoop π), supervisor.loops[place]? = some loop →
    loop.number = place
  distinct : (supervisor.slots.map Slot.target).Nodup
  backed : ∀ slot ∈ supervisor.slots, ∃ loop : ScrapeLoop π,
    supervisor.loops[slot.number]? = some loop ∧ loop.target = slot.target ∧
      loop.installed.edition = slot.edition ∧ loop.isCancelled = false
  held : ∀ place (loop : ScrapeLoop π), supervisor.loops[place]? = some loop →
    loop.isCancelled = false → ∃ slot ∈ supervisor.slots, slot.number = place
  lively : ∀ loop ∈ supervisor.loops, loop.isCancelled = false → loop.phase ≠ .finished
  current : ∀ job definition, supervisor.installed.get? job = some definition →
    definition.edition = supervisor.edition
  authentic : ∀ loop ∈ supervisor.loops, loop.installed.edition ≤ supervisor.edition ∧
    (loop.installed.edition = supervisor.edition →
      supervisor.installed.get? loop.target.job = some loop.installed)

theorem coherent_new : (new : Supervisor π).Coherent := by
  constructor <;> simp [new]

namespace Coherent

theorem slot_unique (coherent : supervisor.Coherent) {left right : Slot}
    (leftMember : left ∈ supervisor.slots) (rightMember : right ∈ supervisor.slots)
    (same : left.number = right.number) : left = right := by
  obtain ⟨leftLoop, leftFound, leftTarget, _⟩ := coherent.backed left leftMember
  obtain ⟨rightLoop, rightFound, rightTarget, _⟩ := coherent.backed right rightMember
  rw [same, rightFound] at leftFound
  obtain rfl := Option.some.inj leftFound
  exact List.inj_on_of_nodup_map coherent.distinct leftMember rightMember
    (leftTarget.symm.trans rightTarget)

/-- Coherence is about slots, loops and definitions only. -/
theorem managed (coherent : supervisor.Coherent) (new : Bool) (managing : Managing) :
    { supervisor with hasNewDefinitions := new, managing := managing }.Coherent :=
  ⟨coherent.numbered, coherent.distinct, coherent.backed, coherent.held, coherent.lively,
    coherent.current, coherent.authentic⟩

end Coherent

theorem getElem?_cancelLoops {dropped : List Slot} {loops : List (ScrapeLoop π)} {place : Nat}
    {loop : ScrapeLoop π} (found : (cancelLoops dropped loops)[place]? = some loop) :
    ∃ before, loops[place]? = some before ∧ loop.number = before.number ∧
      loop.target = before.target ∧ loop.installed = before.installed ∧
      (loop.isCancelled = false → loop = before ∧ ∀ slot ∈ dropped, slot.number ≠ loop.number) := by
  simp only [cancelLoops, List.getElem?_map, Option.map_eq_some_iff] at found
  obtain ⟨before, found, rfl⟩ := found
  refine ⟨before, found, ?_⟩
  split
  · simp
  · rename_i kept
    refine ⟨rfl, rfl, rfl, fun _ => ⟨rfl, ?_⟩⟩
    simpa using kept

/-- A loop whose slot is kept stays as it is. -/
theorem keepOnly_loop (coherent : supervisor.Coherent) (member : slot ∈ supervisor.slots)
    (kept : keep slot = true) :
    (supervisor.keepOnly keep).loops[slot.number]? = supervisor.loops[slot.number]? := by
  obtain ⟨loop, found, _⟩ := coherent.backed slot member
  have number : loop.number = slot.number := coherent.numbered _ loop found
  simp only [keepOnly, cancelLoops, List.getElem?_map, found, Option.map_some, Option.some.injEq]
  rw [if_neg]
  rw [List.any_eq_true]
  rintro ⟨other, dropped, same⟩
  obtain ⟨otherMember, notKept⟩ := List.mem_filter.mp dropped
  have equal : other = slot :=
    coherent.slot_unique otherMember member ((of_decide_eq_true same).trans number)
  simp [equal, kept] at notKept

theorem keepOnly_coherent (coherent : supervisor.Coherent) :
    (supervisor.keepOnly keep).Coherent where
  numbered place loop found := by
    obtain ⟨before, found, number, _⟩ := getElem?_cancelLoops found
    exact number.trans (coherent.numbered place before found)
  distinct := coherent.distinct.sublist (List.filter_sublist.map Slot.target)
  backed slot member := by
    obtain ⟨member, kept⟩ := List.mem_filter.mp member
    rw [keepOnly_loop coherent member kept]
    exact coherent.backed slot member
  held place loop found active := by
    obtain ⟨before, found, _, _, _, untouched⟩ := getElem?_cancelLoops found
    obtain ⟨rfl, notDropped⟩ := untouched active
    obtain ⟨slot, member, number⟩ := coherent.held place loop found active
    refine ⟨slot, List.mem_filter.mpr ⟨member, ?_⟩, number⟩
    by_contra dropped
    refine notDropped slot (List.mem_filter.mpr ⟨member, by simpa using dropped⟩) ?_
    exact number.trans (coherent.numbered place loop found).symm
  lively loop member active := by
    obtain ⟨place, found⟩ := List.mem_iff_getElem?.mp member
    obtain ⟨before, found, _, _, _, untouched⟩ := getElem?_cancelLoops found
    obtain ⟨rfl, _⟩ := untouched active
    exact coherent.lively loop (List.mem_of_getElem? found) active
  current := coherent.current
  authentic loop member := by
    obtain ⟨place, found⟩ := List.mem_iff_getElem?.mp member
    obtain ⟨before, found, _, target, installed, _⟩ := getElem?_cancelLoops found
    rw [target, installed]
    exact coherent.authentic before (List.mem_of_getElem? found)

theorem getElem?_append_last {α : Type} {front : List α} {last item : α} {place : Nat}
    (found : (front ++ [last])[place]? = some item) :
    front[place]? = some item ∨ place = front.length ∧ item = last := by
  rw [List.getElem?_append] at found
  split at found
  · exact .inl found
  · obtain ⟨bound, rfl⟩ := List.getElem?_eq_some_iff.mp found
    have bound : place - front.length < 1 := bound
    exact .inr ⟨by omega, by simp⟩

theorem launch_frame (supervisor : Supervisor π) (entry : Target × Installed) :
    (supervisor.launch entry).edition = supervisor.edition ∧
      (supervisor.launch entry).installed = supervisor.installed ∧
      (supervisor.launch entry).hasNewDefinitions = supervisor.hasNewDefinitions ∧
      (supervisor.launch entry).managing = supervisor.managing := by
  unfold launch
  split <;> simp

/-- A launch adds a slot with its loop for a target that has none, or nothing. -/
theorem launch_cases (supervisor : Supervisor π) (entry : Target × Installed) :
    ((∃ slot ∈ supervisor.slots, slot.target = entry.1) ∧ supervisor.launch entry = supervisor) ∨
      ((∀ slot ∈ supervisor.slots, slot.target ≠ entry.1) ∧
        (supervisor.launch entry).slots =
          supervisor.slots ++ [⟨entry.1, entry.2.edition, supervisor.loops.length⟩] ∧
        (supervisor.launch entry).loops =
          supervisor.loops ++ [⟨supervisor.loops.length, entry.1, entry.2, false, .launched⟩]) := by
  by_cases present : ∃ slot ∈ supervisor.slots, slot.target = entry.1
  · exact .inl ⟨present, by simp [launch, present]⟩
  · refine .inr ⟨by simpa using present, ?_⟩
    simp [launch, present]

theorem launch_coherent (coherent : supervisor.Coherent)
    (installed : supervisor.installed.get? entry.1.job = some entry.2) :
    (supervisor.launch entry).Coherent := by
  obtain ⟨edition, definitions, _, _⟩ := supervisor.launch_frame entry
  obtain ⟨_, same⟩ | ⟨fresh, slots, loops⟩ := supervisor.launch_cases entry
  · rw [same]
    exact coherent
  · constructor
    · intro place loop found
      rw [loops] at found
      obtain found | ⟨rfl, rfl⟩ := getElem?_append_last found
      · exact coherent.numbered place loop found
      · rfl
    · rw [slots, List.map_append]
      refine List.nodup_append.mpr ⟨coherent.distinct, by simp, ?_⟩
      intro old member new same equal
      obtain ⟨slot, present, rfl⟩ := List.mem_map.mp member
      exact fresh slot present (equal.trans (by simpa using same))
    · intro slot member
      rw [slots, List.mem_append, List.mem_singleton] at member
      rw [loops]
      obtain member | rfl := member
      · obtain ⟨loop, found, rest⟩ := coherent.backed slot member
        have bound := (List.getElem?_eq_some_iff.mp found).1
        exact ⟨loop, (List.getElem?_append_left bound).trans found, rest⟩
      · exact ⟨_, List.getElem?_concat_length, rfl, rfl, rfl⟩
    · intro place loop found active
      rw [loops] at found
      rw [slots]
      obtain found | ⟨rfl, rfl⟩ := getElem?_append_last found
      · obtain ⟨slot, member, number⟩ := coherent.held place loop found active
        exact ⟨slot, List.mem_append_left _ member, number⟩
      · exact ⟨_, List.mem_append_right _ List.mem_cons_self, rfl⟩
    · intro loop member active
      rw [loops, List.mem_append, List.mem_singleton] at member
      obtain member | rfl := member
      · exact coherent.lively loop member active
      · simp
    · rw [edition, definitions]
      exact coherent.current
    · intro loop member
      rw [loops, List.mem_append, List.mem_singleton] at member
      rw [edition, definitions]
      obtain member | rfl := member
      · exact coherent.authentic loop member
      · exact ⟨Nat.le_of_eq (coherent.current _ _ installed), fun _ => installed⟩

theorem foldl_launch_frame (supervisor : Supervisor π) (entries : List (Target × Installed)) :
    (entries.foldl launch supervisor).edition = supervisor.edition ∧
      (entries.foldl launch supervisor).installed = supervisor.installed ∧
      (entries.foldl launch supervisor).hasNewDefinitions = supervisor.hasNewDefinitions ∧
      (entries.foldl launch supervisor).managing = supervisor.managing := by
  induction entries generalizing supervisor with
  | nil => simp
  | cons first rest ih =>
      obtain ⟨edition, installed, new, managing⟩ := ih (supervisor.launch first)
      obtain ⟨edition', installed', new', managing'⟩ := supervisor.launch_frame first
      exact ⟨edition.trans edition', installed.trans installed', new.trans new',
        managing.trans managing'⟩

theorem foldl_launch_coherent (coherent : supervisor.Coherent)
    (installed : ∀ entry ∈ entries, supervisor.installed.get? entry.1.job = some entry.2) :
    (entries.foldl launch supervisor).Coherent := by
  induction entries generalizing supervisor with
  | nil => exact coherent
  | cons first rest ih =>
      refine ih (launch_coherent coherent (installed first List.mem_cons_self)) ?_
      intro entry member
      rw [(supervisor.launch_frame first).2.1]
      exact installed entry (List.mem_cons_of_mem first member)

/-- Slots and loops are only added: slots for given entries, loops for targets without
a slot. -/
theorem foldl_launch_extends (supervisor : Supervisor π) (entries : List (Target × Installed)) :
    ∃ (slots : List Slot) (loops : List (ScrapeLoop π)),
      (entries.foldl launch supervisor).slots = supervisor.slots ++ slots ∧
      (entries.foldl launch supervisor).loops = supervisor.loops ++ loops ∧
      (∀ slot ∈ slots, ∃ entry ∈ entries,
        entry.1 = slot.target ∧ entry.2.edition = slot.edition) ∧
      ∀ loop ∈ loops, ∀ slot ∈ supervisor.slots, slot.target ≠ loop.target := by
  induction entries generalizing supervisor with
  | nil => exact ⟨[], [], by simp⟩
  | cons first rest ih =>
      obtain ⟨slots, loops, slotsEq, loopsEq, origin, fresh⟩ := ih (supervisor.launch first)
      have later : ∀ slot ∈ slots, ∃ entry ∈ first :: rest,
          entry.1 = slot.target ∧ entry.2.edition = slot.edition := by
        intro slot member
        obtain ⟨entry, listed, same⟩ := origin slot member
        exact ⟨entry, List.mem_cons_of_mem first listed, same⟩
      rw [List.foldl_cons, slotsEq, loopsEq]
      obtain ⟨_, same⟩ | ⟨absent, newSlots, newLoops⟩ := supervisor.launch_cases first
      · rw [same] at fresh ⊢
        exact ⟨slots, loops, rfl, rfl, later, fresh⟩
      · rw [newSlots] at fresh ⊢
        rw [newLoops]
        refine ⟨_ :: slots, _ :: loops, List.append_assoc .., List.append_assoc .., ?_, ?_⟩
        · intro slot member
          obtain rfl | member := List.mem_cons.mp member
          · exact ⟨first, List.mem_cons_self, rfl, rfl⟩
          · exact later slot member
        · intro loop member slot old
          obtain rfl | member := List.mem_cons.mp member
          · exact absent slot old
          · exact fresh loop member slot (List.mem_append_left _ old)

theorem foldl_launch_covers (supervisor : Supervisor π) (member : entry ∈ entries) :
    ∃ slot ∈ (entries.foldl launch supervisor).slots, slot.target = entry.1 := by
  induction entries generalizing supervisor with
  | nil => simp at member
  | cons first rest ih =>
      rw [List.foldl_cons]
      obtain rfl | member := List.mem_cons.mp member
      · obtain ⟨slots, _, slotsEq, _⟩ := foldl_launch_extends (supervisor.launch entry) rest
        rw [slotsEq]
        obtain ⟨⟨slot, old, same⟩, unchanged⟩ | ⟨_, newSlots, _⟩ :=
          supervisor.launch_cases entry
        · rw [unchanged]
          exact ⟨slot, List.mem_append_left _ old, same⟩
        · rw [newSlots]
          exact ⟨_, List.mem_append_left _ (List.mem_append_right _ List.mem_cons_self), rfl⟩
      · exact ih (supervisor.launch first) member

theorem align_frame (supervisor : Supervisor π) (sets : TargetSets) :
    (supervisor.align sets).edition = supervisor.edition ∧
      (supervisor.align sets).installed = supervisor.installed ∧
      (supervisor.align sets).hasNewDefinitions = supervisor.hasNewDefinitions ∧
      (supervisor.align sets).managing = supervisor.managing :=
  foldl_launch_frame (supervisor.keepOnly (isWanted (supervisor.wanted sets))) _

theorem align_coherent (coherent : supervisor.Coherent) (sets : TargetSets) :
    (supervisor.align sets).Coherent :=
  foldl_launch_coherent (keepOnly_coherent coherent)
    (fun _ member => installed_of_mem_wanted member)

/-- A supervisor has a slot for exactly what it wants for target sets. -/
def IsInLine (sets : TargetSets) (supervisor : Supervisor π) : Prop :=
  (∀ slot ∈ supervisor.slots, ∃ definition, (slot.target, definition) ∈ supervisor.wanted sets ∧
    definition.edition = slot.edition) ∧
  ∀ target definition, (target, definition) ∈ supervisor.wanted sets →
    ∃ slot ∈ supervisor.slots, slot.target = target ∧ slot.edition = definition.edition

theorem IsInLine.mem_activeTargets_iff (inLine : supervisor.IsInLine sets) :
    target ∈ supervisor.activeTargets ↔
      ∃ definition, (target, definition) ∈ supervisor.wanted sets := by
  simp only [activeTargets, List.mem_map]
  constructor
  · rintro ⟨slot, member, rfl⟩
    obtain ⟨definition, listed, _⟩ := inLine.1 slot member
    exact ⟨definition, listed⟩
  · rintro ⟨definition, listed⟩
    obtain ⟨slot, member, same, _⟩ := inLine.2 target definition listed
    exact ⟨slot, member, same⟩

theorem wanted_congr {other : Supervisor π} (same : other.installed = supervisor.installed) :
    other.wanted sets = supervisor.wanted sets := by
  rw [wanted, wanted, same]

theorem align_isInLine (supervisor : Supervisor π) (sets : TargetSets) :
    (supervisor.align sets).IsInLine sets := by
  have sameWanted : (supervisor.align sets).wanted sets = supervisor.wanted sets :=
    wanted_congr (supervisor.align_frame sets).2.1
  have sound : ∀ slot ∈ (supervisor.align sets).slots, ∃ definition,
      (slot.target, definition) ∈ supervisor.wanted sets ∧ definition.edition = slot.edition := by
    intro slot member
    obtain ⟨slots, _, slotsEq, _, origin, _⟩ := foldl_launch_extends
      (supervisor.keepOnly (isWanted (supervisor.wanted sets))) (supervisor.wanted sets)
    rw [align, slotsEq] at member
    have entry : ∃ entry ∈ supervisor.wanted sets,
        entry.1 = slot.target ∧ entry.2.edition = slot.edition := by
      rcases List.mem_append.mp member with old | new
      · exact isWanted_iff.mp (List.mem_filter.mp old).2
      · exact origin slot new
    obtain ⟨⟨target, definition⟩, listed, rfl, edition⟩ := entry
    exact ⟨definition, listed, edition⟩
  rw [IsInLine, sameWanted]
  refine ⟨sound, fun target definition listed => ?_⟩
  obtain ⟨slot, member, rfl⟩ := foldl_launch_covers
    (supervisor.keepOnly (isWanted (supervisor.wanted sets))) listed
  obtain ⟨held, listed', edition⟩ := sound slot member
  have same : (slot.target, held) = (slot.target, definition) :=
    List.inj_on_of_nodup_map (supervisor.nodup_wanted sets) listed' listed rfl
  obtain rfl := (Prod.mk.inj same).2
  exact ⟨slot, member, rfl, edition.symm⟩

theorem foldl_launch_managing (supervisor : Supervisor π) (managing : Managing)
    (entries : List (Target × Installed)) :
    entries.foldl launch { supervisor with managing := managing } =
      { entries.foldl launch supervisor with managing := managing } := by
  induction entries generalizing supervisor with
  | nil => rfl
  | cons first rest ih =>
      have launched : launch { supervisor with managing := managing } first =
          { supervisor.launch first with managing := managing } := by
        unfold launch
        dsimp only
        split <;> rfl
      rw [List.foldl_cons, launched, ih, List.foldl_cons]

/-- How far the managing task is does not matter for the loops. -/
theorem align_managing (supervisor : Supervisor π) (managing : Managing) (sets : TargetSets) :
    align sets { supervisor with managing := managing } =
      { supervisor.align sets with managing := managing } :=
  foldl_launch_managing (supervisor.keepOnly (isWanted (supervisor.wanted sets))) managing _

/-- The loop of a slot that is still wanted goes on, and its target gets no other. -/
theorem align_keeps (coherent : supervisor.Coherent) (member : slot ∈ supervisor.slots)
    (wanted : isWanted (supervisor.wanted sets) slot = true) :
    slot ∈ (supervisor.align sets).slots ∧
      (supervisor.align sets).loops[slot.number]? = supervisor.loops[slot.number]? ∧
      (supervisor.align sets).loops.countP (fun loop => loop.target = slot.target) =
        supervisor.loops.countP (fun loop => loop.target = slot.target) := by
  obtain ⟨slots, loops, slotsEq, loopsEq, _, fresh⟩ := foldl_launch_extends
    (supervisor.keepOnly (isWanted (supervisor.wanted sets))) (supervisor.wanted sets)
  have kept : slot ∈ (supervisor.keepOnly (isWanted (supervisor.wanted sets))).slots :=
    List.mem_filter.mpr ⟨member, wanted⟩
  have untouched := keepOnly_loop coherent member wanted
  obtain ⟨loop, found, _⟩ := coherent.backed slot member
  rw [align, slotsEq, loopsEq]
  refine ⟨List.mem_append_left _ kept, ?_, ?_⟩
  · have bound := (List.getElem?_eq_some_iff.mp (untouched.trans found)).1
    exact (List.getElem?_append_left bound).trans untouched
  · have none : loops.countP (fun loop => loop.target = slot.target) = 0 := by
      refine List.countP_eq_zero.mpr fun loop added => ?_
      simpa using fun same => fresh loop added slot kept same.symm
    rw [List.countP_append, none, Nat.add_zero]
    simp only [keepOnly, cancelLoops, List.countP_map]
    refine List.countP_congr fun loop _ => ?_
    simp only [Function.comp_apply]
    split <;> rfl

theorem install_coherent {config : Config.Scrape} (coherent : supervisor.Coherent) :
    (supervisor.install config).1.Coherent := by
  unfold install
  split
  · exact coherent
  · rename_i valid
    refine ⟨coherent.numbered, coherent.distinct, coherent.backed, coherent.held,
      coherent.lively, ?_, ?_⟩
    · intro name definition found
      obtain ⟨job, _, _, rfl⟩ := (get?_definitions_iff valid).mp found
      rfl
    · intro loop member
      -- The new definitions are newer than those of any loop.
      have older := (coherent.authentic loop member).1
      exact ⟨by simp only; omega, fun same => by simp only at same; omega⟩

def setPhase (supervisor : Supervisor π) (place : Nat) (loop : ScrapeLoop π)
    (phase : LoopPhase π) : Supervisor π :=
  { supervisor with loops := supervisor.loops.set place { loop with phase := phase } }

/-- The turn of a loop changes its phase, if there is such a loop. -/
theorem loopStep_cases (equipment : Equipment κ σ τ π) (cancelled : Bool) (now place : Nat)
    (shared : Shared κ σ) (supervisor : Supervisor π) :
    (supervisor.loopStep equipment cancelled now shared place).1 = supervisor ∨
      ∃ loop, supervisor.loops[place]? = some loop ∧
        (supervisor.loopStep equipment cancelled now shared place).1 =
          supervisor.setPhase place loop (loop.step equipment cancelled now shared).phase := by
  unfold loopStep
  split
  · exact .inl rfl
  · rename_i loop found
    exact .inr ⟨loop, found, rfl⟩

theorem loopStep_frame (equipment : Equipment κ σ τ π) (cancelled : Bool) (now place : Nat)
    (shared : Shared κ σ) (supervisor : Supervisor π) :
    ∃ loops, (supervisor.loopStep equipment cancelled now shared place).1 =
      { supervisor with loops := loops } := by
  unfold loopStep
  split
  · exact ⟨supervisor.loops, rfl⟩
  · exact ⟨_, rfl⟩

theorem setPhase_loop {place index : Nat} {loop before : ScrapeLoop π} (phase : LoopPhase π)
    (found : supervisor.loops[place]? = some loop)
    (foundBefore : supervisor.loops[index]? = some before) :
    ∃ other, (supervisor.setPhase place loop phase).loops[index]? =
        some { before with phase := other } ∧
      (other = before.phase ∨ before = loop ∧ other = phase) := by
  by_cases same : place = index
  · subst same
    rw [found] at foundBefore
    obtain rfl := Option.some.inj foundBefore
    have bound := (List.getElem?_eq_some_iff.mp found).1
    exact ⟨phase, by simp [setPhase, bound], .inr ⟨rfl, rfl⟩⟩
  · exact ⟨before.phase, by simpa [setPhase, List.getElem?_set_ne same] using foundBefore, .inl rfl⟩

theorem setPhase_before {place index : Nat} {loop after : ScrapeLoop π} {phase : LoopPhase π}
    (foundAfter : (supervisor.setPhase place loop phase).loops[index]? = some after) :
    ∃ before, supervisor.loops[index]? = some before := by
  have bound := (List.getElem?_eq_some_iff.mp foundAfter).1
  rw [setPhase, List.length_set] at bound
  exact ⟨_, List.getElem?_eq_getElem bound⟩

theorem setPhase_coherent {place : Nat} {loop : ScrapeLoop π} {phase : LoopPhase π}
    (coherent : supervisor.Coherent) (found : supervisor.loops[place]? = some loop)
    (alive : loop.isCancelled = false → phase ≠ .finished) :
    (supervisor.setPhase place loop phase).Coherent := by
  have trace {index : Nat} {after : ScrapeLoop π}
      (foundAfter : (supervisor.setPhase place loop phase).loops[index]? = some after) :
      ∃ before, supervisor.loops[index]? = some before ∧ ∃ other,
        after = { before with phase := other } ∧
        (other = before.phase ∨ before = loop ∧ other = phase) := by
    obtain ⟨before, foundBefore⟩ := setPhase_before foundAfter
    obtain ⟨other, foundOther, origin⟩ := setPhase_loop phase found foundBefore
    rw [foundAfter] at foundOther
    exact ⟨before, foundBefore, other, Option.some.inj foundOther, origin⟩
  constructor
  · intro index after foundAfter
    obtain ⟨before, foundBefore, _, rfl, _⟩ := trace foundAfter
    exact coherent.numbered index before foundBefore
  · exact coherent.distinct
  · intro slot member
    obtain ⟨before, foundBefore, target, edition, active⟩ := coherent.backed slot member
    obtain ⟨other, foundOther, _⟩ := setPhase_loop phase found foundBefore
    exact ⟨_, foundOther, target, edition, active⟩
  · intro index after foundAfter active
    obtain ⟨before, foundBefore, _, rfl, _⟩ := trace foundAfter
    exact coherent.held index before foundBefore active
  · intro after member active
    obtain ⟨index, foundAfter⟩ := List.mem_iff_getElem?.mp member
    obtain ⟨before, foundBefore, _, rfl, rfl | ⟨rfl, rfl⟩⟩ := trace foundAfter
    · exact coherent.lively before (List.mem_of_getElem? foundBefore) active
    · exact alive active
  · exact coherent.current
  · intro after member
    obtain ⟨index, foundAfter⟩ := List.mem_iff_getElem?.mp member
    obtain ⟨before, foundBefore, _, rfl, _⟩ := trace foundAfter
    exact coherent.authentic before (List.mem_of_getElem? foundBefore)

/-- While the supervisor is not cancelled, turns of loops leave it coherent. -/
theorem loopStep_coherent (equipment : Equipment κ σ τ π) (now place : Nat) (shared : Shared κ σ)
    (coherent : supervisor.Coherent) :
    (supervisor.loopStep equipment false now shared place).1.Coherent := by
  obtain same | ⟨loop, found, turned⟩ :=
    loopStep_cases equipment false now place shared supervisor
  · rw [same]
    exact coherent
  · rw [turned]
    refine setPhase_coherent coherent found fun active => ?_
    exact loop.step_goes_on (by simp [active])
      (coherent.lively loop (List.mem_of_getElem? found) active)

theorem loopStep_managing (equipment : Equipment κ σ τ π) (cancelled : Bool) (now place : Nat)
    (shared : Shared κ σ) (supervisor : Supervisor π) (managing : Managing) :
    loopStep equipment cancelled now shared { supervisor with managing := managing } place =
      ({ (supervisor.loopStep equipment cancelled now shared place).1 with managing := managing },
        (supervisor.loopStep equipment cancelled now shared place).2) := by
  unfold loopStep
  dsimp only
  split <;> rfl

theorem loopStep_targets (equipment : Equipment κ σ τ π) (cancelled : Bool) (now place : Nat)
    (shared : Shared κ σ) (supervisor : Supervisor π) :
    (supervisor.loopStep equipment cancelled now shared place).1.loops.map ScrapeLoop.target =
      supervisor.loops.map ScrapeLoop.target := by
  obtain same | ⟨loop, found, turned⟩ :=
    loopStep_cases equipment cancelled now place shared supervisor
  · rw [same]
  · obtain ⟨bound, rfl⟩ := List.getElem?_eq_some_iff.mp found
    have inside : place < (supervisor.loops.map ScrapeLoop.target).length := by simpa using bound
    have unchanged : supervisor.loops[place].target =
        (supervisor.loops.map ScrapeLoop.target)[place] := by simp
    rw [turned, setPhase, List.map_set]
    simp only [unchanged, List.set_getElem_self]

end ScrapeRelay.Scrape.Supervisor
