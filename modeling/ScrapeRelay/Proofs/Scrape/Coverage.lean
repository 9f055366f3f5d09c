import ScrapeRelay.Proofs.Scrape.Station

/-!
# Loops follow the board and the definitions

Whatever happens at a station in whatever order, once its managing task has nothing to
react to there is one loop for each target that is due (`run_covers_targets`). What
was replaced on the board before anybody looked leaves no trace, and a loop that stays
due is left alone.
-/

namespace ScrapeRelay.Scrape

variable {κ σ τ π : Type}

/-- A target is due when it is one of the targets posted last of a job accepted last. -/
def IsDue (initial : TargetSets) (events : List Event) (target : Target)
    (definition : Installed) : Prop :=
  ∃ config job groups, latestConfig events = some config ∧ job ∈ config.jobs ∧
    (job.name, groups) ∈ (latestSets initial events).entries ∧
    target ∈ Target.ofGroups job.name groups ∧
    definition = .ofJob (acceptances events) config.global job

namespace Supervisor

/-- The loops for a target that are not cancelled. -/
def loopsOf (target : Target) (supervisor : Supervisor π) : List (ScrapeLoop π) :=
  supervisor.loops.filter (fun loop => loop.target = target && !loop.isCancelled)

end Supervisor

theorem filter_eq_singleton {α : Type} {items : List α} {item : α} {place : Nat} {keep : α → Bool}
    (found : items[place]? = some item) (kept : keep item = true)
    (only : ∀ other present, items[other]? = some present → keep present = true → other = place) :
    items.filter keep = [item] := by
  obtain ⟨bound, rfl⟩ := List.getElem?_eq_some_iff.mp found
  have front : (items.take place).filter keep = [] := by
    refine List.filter_eq_nil_iff.mpr fun present member kept => ?_
    obtain ⟨other, foundOther⟩ := List.mem_iff_getElem?.mp member
    have inside : other < place := by
      have := (List.getElem?_eq_some_iff.mp foundOther).1
      simp only [List.length_take] at this
      omega
    rw [List.getElem?_take_of_lt inside] at foundOther
    have := only other present foundOther kept
    omega
  have back : (items.drop (place + 1)).filter keep = [] := by
    refine List.filter_eq_nil_iff.mpr fun present member kept => ?_
    obtain ⟨other, foundOther⟩ := List.mem_iff_getElem?.mp member
    rw [List.getElem?_drop] at foundOther
    have := only _ present foundOther kept
    omega
  calc items.filter keep
    _ = (items.take place ++ items[place] :: items.drop (place + 1)).filter keep := by
        rw [List.getElem_cons_drop, List.take_append_drop]
    _ = [items[place]] := by
        rw [List.filter_append, List.filter_cons_of_pos kept, front, back, List.nil_append]

namespace Supervisor.Coherent

variable {supervisor : Supervisor π} {target : Target} {slot : Slot}

theorem place_unique (coherent : supervisor.Coherent) {left right : Nat}
    {leftLoop rightLoop : ScrapeLoop π} (leftFound : supervisor.loops[left]? = some leftLoop)
    (rightFound : supervisor.loops[right]? = some rightLoop)
    (leftActive : leftLoop.isCancelled = false) (rightActive : rightLoop.isCancelled = false)
    (same : leftLoop.target = rightLoop.target) : left = right := by
  obtain ⟨leftSlot, leftMember, rfl⟩ := coherent.held left leftLoop leftFound leftActive
  obtain ⟨rightSlot, rightMember, rfl⟩ := coherent.held right rightLoop rightFound rightActive
  obtain ⟨_, found, leftTarget, _⟩ := coherent.backed leftSlot leftMember
  obtain rfl := Option.some.inj (found.symm.trans leftFound)
  obtain ⟨_, found, rightTarget, _⟩ := coherent.backed rightSlot rightMember
  obtain rfl := Option.some.inj (found.symm.trans rightFound)
  have equal := List.inj_on_of_nodup_map coherent.distinct leftMember rightMember
    (leftTarget.symm.trans (same.trans rightTarget))
  rw [equal]

theorem loopsOf_eq (coherent : supervisor.Coherent) {place : Nat} {loop : ScrapeLoop π}
    (found : supervisor.loops[place]? = some loop) (active : loop.isCancelled = false) :
    supervisor.loopsOf loop.target = [loop] := by
  refine filter_eq_singleton found (by simp [active]) ?_
  intro other present foundOther kept
  simp only [Bool.and_eq_true, decide_eq_true_eq, Bool.not_eq_true'] at kept
  exact coherent.place_unique foundOther found kept.2 active kept.1

theorem loopsOf_eq_nil (coherent : supervisor.Coherent)
    (absent : target ∉ supervisor.activeTargets) : supervisor.loopsOf target = [] := by
  refine List.filter_eq_nil_iff.mpr fun loop member kept => absent ?_
  simp only [Bool.and_eq_true, decide_eq_true_eq, Bool.not_eq_true'] at kept
  obtain ⟨rfl, active⟩ := kept
  obtain ⟨place, found⟩ := List.mem_iff_getElem?.mp member
  obtain ⟨slot, held, rfl⟩ := coherent.held place loop found active
  obtain ⟨_, backed, same, _⟩ := coherent.backed slot held
  obtain rfl := Option.some.inj (backed.symm.trans found)
  rw [same]
  exact List.mem_map_of_mem held

end Supervisor.Coherent

namespace Station

variable {equipment : Equipment κ σ τ π} {initial : TargetSets} {events : List Event}
  {station : Station κ σ π} {target : Target} {definition : Installed}

theorem Recalls.isDue_iff (recalls : station.Recalls initial events) :
    IsDue initial events target definition ↔
      (target, definition) ∈ station.supervisor.wanted station.board.value := by
  rw [Supervisor.mem_wanted_iff, recalls.value, recalls.installed]
  cases accepted : latestConfig events with
  | none => simp [IsDue, accepted]
  | some config =>
      have valid := recalls.valid config accepted
      simp only [Option.map_some, Option.getD_some, Supervisor.get?_definitions_iff valid]
      constructor
      · rintro ⟨_, job, groups, same, listed, posted, made, rfl⟩
        obtain rfl := Option.some.inj (accepted.symm.trans same)
        exact ⟨job.name, groups, posted, ⟨job, listed, rfl, rfl⟩, made⟩
      · rintro ⟨_, groups, posted, ⟨job, listed, rfl, rfl⟩, made⟩
        exact ⟨config, job, groups, accepted, listed, posted, made, rfl⟩

theorem mem_activeTargets_iff (recalls : station.Recalls initial events)
    (inLine : station.supervisor.IsInLine station.board.value) :
    target ∈ station.supervisor.activeTargets ↔
      ∃ definition, IsDue initial events target definition := by
  simp only [recalls.isDue_iff]
  exact inLine.mem_activeTargets_iff

theorem loopsOf_due (recalls : station.Recalls initial events) (attentive : station.Attentive)
    (inLine : station.supervisor.IsInLine station.board.value)
    (due : IsDue initial events target definition) :
    ∃ loop, station.supervisor.loopsOf target = [loop] ∧ loop.installed = definition ∧
      loop.phase ≠ .finished := by
  have coherent := attentive.coherent
  have listed := recalls.isDue_iff.mp due
  obtain ⟨slot, member, rfl, edition⟩ := inLine.2 target definition listed
  obtain ⟨loop, found, same, loopEdition, active⟩ := coherent.backed slot member
  have installed := Supervisor.installed_of_mem_wanted listed
  have current := coherent.current slot.target.job definition installed
  have authentic := (coherent.authentic loop (List.mem_of_getElem? found)).2
    (loopEdition.trans (edition.trans current))
  rw [same, installed] at authentic
  rw [← same]
  exact ⟨loop, coherent.loopsOf_eq found active, (Option.some.inj authentic).symm,
    coherent.lively loop (List.mem_of_getElem? found) active⟩

/-- How far two managing tasks are, when it is the same but for the numbers by which
they tell what is new on their boards. -/
def SameProgress (leftVersion rightVersion : Nat) : Managing → Managing → Prop
  | .idle, .idle => True
  | .active leftSeen leftSets, .active rightSeen rightSets =>
      leftSets = rightSets ∧ leftSeen ≤ leftVersion ∧ rightSeen ≤ rightVersion ∧
        (leftVersion = leftSeen ↔ rightVersion = rightSeen)
  | .ended, .ended => True
  | _, _ => False

/-- Stations that differ at most in how often something was put on their boards. -/
structure Alike (left right : Station κ σ π) : Prop where
  shared : right.shared = left.shared
  supervisor : right.supervisor =
    { left.supervisor with managing := right.supervisor.managing }
  value : right.board.value = left.board.value
  leftOpen : left.board.isClosed = false
  rightOpen : right.board.isClosed = false
  progress : SameProgress left.board.version right.board.version left.supervisor.managing
    right.supervisor.managing

namespace Alike

variable {left right : Station κ σ π}

theorem isAtRest_eq (alike : Alike left right) : right.isAtRest = left.isAtRest := by
  have new : right.supervisor.hasNewDefinitions = left.supervisor.hasNewDefinitions := by
    rw [alike.supervisor]
  have progress := alike.progress
  simp only [isAtRest, Supervisor.mustManage, alike.leftOpen, alike.rightOpen, new]
  cases leftManaging : left.supervisor.managing <;>
    cases rightManaging : right.supervisor.managing <;>
    simp only [leftManaging, rightManaging, SameProgress] at progress <;>
    simp [Managing.isActive, progress]

theorem align (alike : Alike left right) (new : Bool) (sets : TargetSets) :
    Alike
      { left with supervisor := Supervisor.align sets { left.supervisor with
          hasNewDefinitions := new, managing := .active left.board.version sets } }
      { right with supervisor := Supervisor.align sets { right.supervisor with
          hasNewDefinitions := new, managing := .active right.board.version sets } } := by
  have same : Supervisor.align sets { right.supervisor with
        hasNewDefinitions := new, managing := .active right.board.version sets } =
      { Supervisor.align sets { left.supervisor with
          hasNewDefinitions := new, managing := .active left.board.version sets } with
        managing := .active right.board.version sets } := by
    rw [alike.supervisor, ← Supervisor.align_managing]
  have managing := (Supervisor.align_frame { left.supervisor with
    hasNewDefinitions := new, managing := .active left.board.version sets } sets).2.2.2
  refine ⟨alike.shared, ?_, alike.value, alike.leftOpen, alike.rightOpen, ?_⟩
  · rw [same]
  · rw [same, managing]
    exact ⟨rfl, Nat.le_refl _, Nat.le_refl _, by simp⟩

theorem enter (alike : Alike left right) :
    Alike (perform equipment left .enter) (perform equipment right .enter) := by
  have progress := alike.progress
  have new : right.supervisor.hasNewDefinitions = left.supervisor.hasNewDefinitions := by
    rw [alike.supervisor]
  cases leftManaging : left.supervisor.managing <;>
    cases rightManaging : right.supervisor.managing <;>
    simp only [leftManaging, rightManaging, SameProgress] at progress <;>
    simp only [perform, Supervisor.enter, leftManaging, rightManaging]
  · rw [alike.value, new]
    exact alike.align left.supervisor.hasNewDefinitions left.board.value
  · exact alike
  · exact alike

theorem manage (alike : Alike left right) :
    Alike (perform equipment left .manage) (perform equipment right .manage) := by
  have progress := alike.progress
  have new : right.supervisor.hasNewDefinitions = left.supervisor.hasNewDefinitions := by
    rw [alike.supervisor]
  cases leftManaging : left.supervisor.managing <;>
    cases rightManaging : right.supervisor.managing <;>
    simp only [leftManaging, rightManaging, SameProgress] at progress <;>
    simp only [perform, Supervisor.manageStep, leftManaging, rightManaging, Bool.false_eq_true,
      if_false, alike.leftOpen, alike.rightOpen]
  · exact alike
  · rename_i leftSeen leftSets rightSeen rightSets
    obtain ⟨rfl, _, _, current⟩ := progress
    by_cases seen : left.board.version = leftSeen
    · have rightCurrent := current.mp seen
      rw [if_neg (not_not.mpr seen), if_neg (not_not.mpr rightCurrent), new]
      by_cases changed : left.supervisor.hasNewDefinitions = true
      · rw [if_pos changed, if_pos changed]
        have aligned := alike.align false leftSets
        rw [seen, rightCurrent] at aligned
        exact aligned
      · rw [if_neg changed, if_neg changed]
        exact alike
    · have rightSeen := mt current.mpr seen
      rw [if_pos seen, if_pos rightSeen, alike.value, new]
      exact alike.align left.supervisor.hasNewDefinitions left.board.value
  · exact alike

theorem perform (alike : Alike left right) (event : Event) :
    Alike (perform equipment left event) (perform equipment right event) := by
  cases event with
  | post sets =>
      have progress := alike.progress
      have leftOpen := alike.leftOpen
      have rightOpen := alike.rightOpen
      simp only [Station.perform, Board.post, leftOpen, rightOpen, Bool.false_eq_true, if_false]
      refine ⟨alike.shared, alike.supervisor, rfl, rfl, rfl, ?_⟩
      cases leftManaging : left.supervisor.managing <;>
        cases rightManaging : right.supervisor.managing <;>
        simp only [leftManaging, rightManaging, SameProgress] at progress ⊢
      obtain ⟨same, leftSeen, rightSeen, _⟩ := progress
      exact ⟨same, by omega, by omega, by omega⟩
  | install config =>
      cases validated : config.validate with
      | error failure =>
          rw [perform_install_invalid validated, perform_install_invalid validated]
          exact alike
      | ok _ =>
          rw [perform_install validated, perform_install validated]
          refine ⟨alike.shared, ?_, alike.value, alike.leftOpen, alike.rightOpen, alike.progress⟩
          rw [alike.supervisor]
  | enter => exact alike.enter
  | manage => exact alike.manage
  | loop now place =>
      have turned := Supervisor.loopStep_managing equipment false now place left.shared
        left.supervisor right.supervisor.managing
      rw [← alike.supervisor] at turned
      obtain ⟨loops, same⟩ := Supervisor.loopStep_frame equipment false now place left.shared
        left.supervisor
      simp only [Station.perform, alike.shared, turned, same]
      exact ⟨rfl, rfl, alike.value, alike.leftOpen, alike.rightOpen, alike.progress⟩

theorem run (alike : Alike left right) (events : List Event) :
    Alike (run equipment left events) (run equipment right events) := by
  induction events generalizing left right with
  | nil => exact alike
  | cons event rest ih => exact ih (alike.perform event)

end Alike

/-- Until somebody looks at the board, it does not matter what is on it. -/
theorem run_unlooked (equipment : Equipment κ σ τ π) {left right : Station κ σ π}
    {events : List Event}
    (unlooked : ∀ event ∈ events, event ≠ .enter ∧ event ≠ .manage)
    (supervisor : right.supervisor = left.supervisor) (shared : right.shared = left.shared) :
    (run equipment right events).supervisor = (run equipment left events).supervisor ∧
      (run equipment right events).shared = (run equipment left events).shared := by
  induction events generalizing left right with
  | nil => exact ⟨supervisor, shared⟩
  | cons event rest ih =>
      have later := fun other member => unlooked other (List.mem_cons_of_mem event member)
      cases event with
      | post sets => exact ih later supervisor shared
      | install config => exact ih later (by simp only [perform, supervisor]) shared
      | enter => exact absurd rfl (unlooked .enter List.mem_cons_self).1
      | manage => exact absurd rfl (unlooked .manage List.mem_cons_self).2
      | loop now place =>
          exact ih later (by simp only [perform, supervisor, shared])
            (by simp only [perform, supervisor, shared])

/-- With the same posted on their boards, stations are alike if their supervisors are
the same. -/
theorem posted_alike {left right : Station κ σ π} (leftAttentive : left.Attentive)
    (rightAttentive : right.Attentive) (supervisor : right.supervisor = left.supervisor)
    (shared : right.shared = left.shared) (sets : TargetSets) :
    Alike (perform equipment left (.post sets)) (perform equipment right (.post sets)) := by
  have leftSeen := leftAttentive.seen
  have rightSeen := rightAttentive.seen
  rw [supervisor] at rightSeen
  simp only [perform, Board.post, leftAttentive.isOpen, rightAttentive.isOpen,
    Bool.false_eq_true, if_false]
  refine ⟨shared, ?_, rfl, rfl, rfl, ?_⟩ <;> simp only [supervisor]
  cases managing : left.supervisor.managing with
  | idle => trivial
  | active seen held =>
      have leftOlder := (leftSeen seen held managing).1
      have rightOlder := (rightSeen seen held managing).1
      simp only [SameProgress]
      exact ⟨trivial, by omega, by omega, by omega⟩
  | ended => trivial

/-- What is replaced on the board before anybody looks might as well not have been
posted. -/
theorem overwritten_alike {overwritten newer : TargetSets} {between after : List Event}
    (attentive : station.Attentive)
    (unlooked : ∀ event ∈ between, event ≠ .enter ∧ event ≠ .manage) :
    Alike (run equipment station (between ++ .post newer :: after))
      (run equipment station (.post overwritten :: between ++ .post newer :: after)) := by
  have left := attentive.run equipment between
  have right := (attentive.perform equipment (.post overwritten)).run equipment between
  have same : (perform equipment station (.post overwritten)).supervisor =
      station.supervisor := rfl
  obtain ⟨supervisor, shared⟩ := run_unlooked equipment unlooked same rfl
  rw [run_append, run_cons, List.cons_append, run_cons, run_append, run_cons]
  exact (posted_alike left right supervisor shared newer).run after

/-- Whenever the loops are brought in line during a run, the target of a loop is listed
and its definition is the installed one. -/
def StaysDue (equipment : Equipment κ σ τ π) (station : Station κ σ π) (loop : ScrapeLoop π)
    (events : List Event) : Prop :=
  ∀ before event after sets, events = before ++ event :: after →
    (run equipment station before).observed? event = some sets →
    (∃ groups, (loop.target.job, groups) ∈ sets.entries ∧
      loop.target ∈ Target.ofGroups loop.target.job groups) ∧
    (run equipment station before).supervisor.installed.get? loop.target.job = some loop.installed

/-- How many loops a target ever had. -/
def launches (station : Station κ σ π) (target : Target) : Nat :=
  station.supervisor.loops.countP (fun loop => loop.target = target)

theorem perform_steady (equipment : Equipment κ σ τ π) {place : Nat} {loop : ScrapeLoop π}
    {event : Event}
    (attentive : station.Attentive) (found : station.supervisor.loops[place]? = some loop)
    (active : loop.isCancelled = false)
    (due : ∀ sets, station.observed? event = some sets →
      (∃ groups, (loop.target.job, groups) ∈ sets.entries ∧
        loop.target ∈ Target.ofGroups loop.target.job groups) ∧
      station.supervisor.installed.get? loop.target.job = some loop.installed) :
    (∃ phase, (perform equipment station event).supervisor.loops[place]? =
      some { loop with phase := phase }) ∧
    (perform equipment station event).launches loop.target = station.launches loop.target := by
  have reacting (managing : event = .enter ∨ event = .manage) :
      (perform equipment station event).supervisor.loops[place]? = some loop ∧
      (perform equipment station event).launches loop.target = station.launches loop.target := by
    cases observed : station.observed? event with
    | none =>
        rw [perform_unobserved attentive.isOpen managing observed]
        exact ⟨found, rfl⟩
    | some sets =>
        obtain ⟨new, performed⟩ := perform_observed equipment observed
        obtain ⟨⟨groups, listed, made⟩, installed⟩ := due sets observed
        have coherent := attentive.coherent
        obtain ⟨slot, member, rfl⟩ := coherent.held place loop found active
        obtain ⟨_, backed, target, edition, _⟩ := coherent.backed slot member
        obtain rfl := Option.some.inj (backed.symm.trans found)
        have wanted : Supervisor.isWanted (station.supervisor.wanted sets) slot = true :=
          Supervisor.isWanted_iff.mpr ⟨(_, _),
            Supervisor.mem_wanted_iff.mpr ⟨_, groups, listed, installed, made⟩, target, edition⟩
        obtain ⟨_, kept, count⟩ := Supervisor.align_keeps
          (coherent.managed new (.active station.board.version sets)) member wanted
        rw [performed, launches, launches, target]
        exact ⟨kept.trans found, count⟩
  cases event with
  | post sets => exact ⟨⟨loop.phase, found⟩, rfl⟩
  | install config =>
      cases validated : config.validate with
      | error failure =>
          rw [perform_install_invalid validated]
          exact ⟨⟨loop.phase, found⟩, rfl⟩
      | ok _ =>
          rw [perform_install validated]
          exact ⟨⟨loop.phase, found⟩, rfl⟩
  | enter => exact (reacting (.inl rfl)).imp (fun kept => ⟨loop.phase, kept⟩) id
  | manage => exact (reacting (.inr rfl)).imp (fun kept => ⟨loop.phase, kept⟩) id
  | loop now turned =>
      refine ⟨?_, ?_⟩
      · obtain same | ⟨other, foundOther, changed⟩ := Supervisor.loopStep_cases equipment false now
          turned station.shared station.supervisor
        · exact ⟨loop.phase, (congrArg (fun after => after.loops[place]?) same).trans found⟩
        · obtain ⟨phase, foundAfter, _⟩ := Supervisor.setPhase_loop
            (other.step equipment false now station.shared).phase foundOther found
          exact ⟨phase, (congrArg (fun after => after.loops[place]?) changed).trans foundAfter⟩
      · have targets := Supervisor.loopStep_targets equipment false now turned station.shared
          station.supervisor
        have count (loops : List (ScrapeLoop π)) :
            loops.countP (fun other => other.target = loop.target) =
              (loops.map ScrapeLoop.target).countP (fun target => target = loop.target) := by
          rw [List.countP_map]
          rfl
        rw [launches, launches, count, count]
        exact congrArg _ targets

/-- A loop that stays due goes on, and its target gets no other. -/
theorem run_steady {place : Nat} {loop : ScrapeLoop π} {later : List Event}
    (attentive : station.Attentive) (found : station.supervisor.loops[place]? = some loop)
    (active : loop.isCancelled = false) (due : StaysDue equipment station loop later) :
    (∃ phase, (run equipment station later).supervisor.loops[place]? =
      some { loop with phase := phase }) ∧
    (run equipment station later).launches loop.target = station.launches loop.target := by
  induction later generalizing station loop with
  | nil => exact ⟨⟨loop.phase, found⟩, rfl⟩
  | cons event rest ih =>
      obtain ⟨⟨phase, foundNext⟩, count⟩ := perform_steady equipment attentive found
        active (fun sets observed => due [] event rest sets rfl observed)
      obtain ⟨stays, countRest⟩ := ih (attentive.perform equipment event) foundNext active
        (fun before next after sets split observed =>
          due (event :: before) next after sets (congrArg (event :: ·) split) observed)
      exact ⟨stays, countRest.trans count⟩

/-- Whatever happens at a station in whatever order: once its managing task has nothing
to react to, there is one loop for each target that is due, with the definition that
was accepted last, and none for any other target. What was replaced on the board before
anybody looked makes no difference. A loop that stays due is never cancelled or
replaced. -/
theorem run_covers_targets (equipment : Equipment κ σ τ π) (shared : Shared κ σ)
    (initial : TargetSets) (events : List Event) :
    let station := run equipment (new shared initial) events
    (station.isAtRest = true →
      station.supervisor.activeTargets.Nodup ∧
      (∀ target, target ∈ station.supervisor.activeTargets ↔
        ∃ definition, IsDue initial events target definition) ∧
      (∀ target definition, IsDue initial events target definition →
        ∃ loop, station.supervisor.loopsOf target = [loop] ∧ loop.installed = definition ∧
          loop.phase ≠ .finished) ∧
      ∀ target, target ∉ station.supervisor.activeTargets →
        station.supervisor.loopsOf target = []) ∧
    (∀ overwritten newer between after,
      (∀ event ∈ between, event ≠ Event.enter ∧ event ≠ Event.manage) →
      let without := run equipment station (between ++ .post newer :: after)
      let posted := run equipment station (.post overwritten :: between ++ .post newer :: after)
      posted.isAtRest = without.isAtRest ∧
        posted.supervisor.activeTargets = without.supervisor.activeTargets ∧
        posted.supervisor.loops = without.supervisor.loops) ∧
    (∀ later (place : Nat) loop, station.supervisor.loops[place]? = some loop →
      loop.isCancelled = false → StaysDue equipment station loop later →
      ∃ phase, phase ≠ .finished ∧
        (run equipment station later).supervisor.loops[place]? =
          some { loop with phase := phase } ∧
        (run equipment station later).launches loop.target = station.launches loop.target) := by
  intro station
  have recalls : station.Recalls initial events := run_recalls equipment shared initial events
  have attentive : station.Attentive := run_attentive equipment shared initial events
  refine ⟨fun rest => ?_, ?_, ?_⟩
  · have inLine := attentive.rest rest
    exact ⟨attentive.coherent.distinct, fun _ => mem_activeTargets_iff recalls inLine,
      fun _ _ => loopsOf_due recalls attentive inLine,
      fun _ => attentive.coherent.loopsOf_eq_nil⟩
  · intro overwritten newer between after unlooked without posted
    have alike : Alike without posted := overwritten_alike attentive unlooked
    refine ⟨alike.isAtRest_eq, ?_, ?_⟩
    · rw [alike.supervisor]
      rfl
    · rw [alike.supervisor]
  · intro later place loop found active due
    obtain ⟨⟨phase, foundLater⟩, count⟩ := run_steady attentive found active due
    have coherent := (attentive.run equipment later).coherent
    exact ⟨phase, coherent.lively _ (List.mem_of_getElem? foundLater) active, foundLater,
      count⟩

/-- A scraper without answers and a sink that takes everything. -/
def idleEquipment : Equipment Unit Unit Unit Unit where
  scraper _ state _ _ := (state, ⟨none, .ok []⟩)
  sink := {
    begin := ()
    append _ state transaction _ _ _ := (state, .ok transaction)
    rollback _ state _ := state
    commit _ state _ := (state, ())
    isBlocked _ _ _ := false
    resume _ state _ := ⟨state, [], (), some (.ok ())⟩
    due _ _ := none }
  wallTime _ := 0

def soleSets (job address : String) : TargetSets :=
  SortedMap.empty.insert job [.ofAddresses job [address] .empty]

/-- A station of a job with one address. The job becomes known after the board was looked
at first, and its address changes twice before the next look. -/
theorem run_covers_targets_web :
    let station := run idleEquipment (new ⟨(), ()⟩ (soleSets "web" "a:1"))
      [.enter, .post (soleSets "web" "a:2"), .install ⟨.default, [.named "web"]⟩,
        .post (soleSets "web" "a:3"), .manage, .manage]
    station.isAtRest = true ∧
      station.supervisor.activeTargets.map Target.address = ["a:3"] ∧
      station.supervisor.activeTargets.Nodup ∧
      ∀ target ∈ station.supervisor.activeTargets, ∃ loop,
        station.supervisor.loopsOf target = [loop] := by
  have rest : (run idleEquipment (new ⟨(), ()⟩ (soleSets "web" "a:1"))
      [.enter, .post (soleSets "web" "a:2"), .install ⟨.default, [.named "web"]⟩,
        .post (soleSets "web" "a:3"), .manage, .manage]).isAtRest = true := by
    decide +kernel
  obtain ⟨distinct, active, due, _⟩ := (run_covers_targets idleEquipment ⟨(), ()⟩
    (soleSets "web" "a:1") _).1 rest
  refine ⟨rest, by decide +kernel, distinct, fun target member => ?_⟩
  obtain ⟨definition, targetDue⟩ := (active target).mp member
  obtain ⟨loop, only, _⟩ := due target definition targetDue
  exact ⟨loop, only⟩

end Station

end ScrapeRelay.Scrape
