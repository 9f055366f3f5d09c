import ScrapeRelay.Proofs.Scrape.Reapplication
import ScrapeRelay.Proofs.Scrape.Tracing

/-!
# A supervisor in its surroundings

A workshop is a supervisor with all that it meets: a board that may be closed, a scraper and a
sink that others may use as well, a token that may be cancelled, and the time. A run is any
sequence of incidents. The managing task may take a turn at any time, a loop only if it is ready.

All that an incident can do to the supervisor is said once (`perform_move`). What holds in every
workshop and what becomes of a loop is derived from it.
-/

namespace ScrapeRelay.Scrape

variable {κ σ τ π : Type}

structure Workshop (κ σ π : Type) where
  supervisor : Supervisor π
  board : Board TargetSets
  shared : Shared κ σ
  isCancelled : Bool
  now : Nat

inductive Incident (κ σ : Type) where
  | post (sets : TargetSets)
  | close
  | install (config : Config.Scrape)
  | enter
  | manage
  | turn (place : Nat)
  | cancel
  | wait (nanos : Nat)
  | outside (change : Shared κ σ → Shared κ σ)

def Incident.nanos : Incident κ σ → Nat
  | .wait nanos => nanos
  | _ => 0

def Equipment.traced (equipment : Equipment κ σ τ π) :
    Equipment (Traced Target κ) (Traced SinkDeed σ) τ π :=
  ⟨equipment.scraper.traced, equipment.sink.traced, equipment.wallTime⟩

def Shared.untouched (shared : Shared κ σ) : Shared (Traced Target κ) (Traced SinkDeed σ) :=
  ⟨.untouched shared.scraper, .untouched shared.sink⟩

/-- The targets that a scraper was asked for, and what a sink was given to do. -/
structure LoopDeeds where
  scrapes : List Target
  sink : List SinkDeed

/-- A loop as it would be had it only been launched. -/
def ScrapeLoop.afresh (loop : ScrapeLoop π) : ScrapeLoop π := { loop with phase := .launched }

namespace Supervisor

variable {supervisor : Supervisor π} {place : Nat} {loop : ScrapeLoop π}

/-- A supervisor as it would be had none of its loops taken a turn. Its slots and its loops stand
for each other even if loops have ended because all were cancelled. -/
def afresh (supervisor : Supervisor π) : Supervisor π :=
  { supervisor with loops := supervisor.loops.map ScrapeLoop.afresh }

theorem afresh_keepOnly (keep : Slot → Bool) (supervisor : Supervisor π) :
    (supervisor.keepOnly keep).afresh = supervisor.afresh.keepOnly keep := by
  simp only [afresh, keepOnly, cancelLoops, List.map_map]
  congr 1
  apply List.map_congr_left
  intro loop _
  exact apply_ite ScrapeLoop.afresh _ _ _

theorem afresh_launch (entry : Target × Installed) (supervisor : Supervisor π) :
    (supervisor.launch entry).afresh = supervisor.afresh.launch entry := by
  simp only [launch, afresh, List.length_map]
  split
  · rfl
  · simp [ScrapeLoop.afresh]

theorem afresh_foldl_launch (entries : List (Target × Installed)) (supervisor : Supervisor π) :
    (entries.foldl launch supervisor).afresh = entries.foldl launch supervisor.afresh := by
  induction entries generalizing supervisor with
  | nil => rfl
  | cons first rest ih => rw [List.foldl_cons, ih, afresh_launch, List.foldl_cons]

theorem afresh_align (sets : TargetSets) (supervisor : Supervisor π) :
    (supervisor.align sets).afresh = supervisor.afresh.align sets := by
  rw [align, afresh_foldl_launch, afresh_keepOnly]
  rfl

theorem install_frame (config : Config.Scrape) (supervisor : Supervisor π) :
    (supervisor.install config).1.managing = supervisor.managing ∧
      (supervisor.install config).1.slots = supervisor.slots ∧
      (supervisor.install config).1.loops = supervisor.loops := by
  simp only [install]
  split <;> simp

theorem afresh_install (config : Config.Scrape) (supervisor : Supervisor π) :
    (supervisor.install config).1.afresh = (supervisor.afresh.install config).1 := by
  simp only [install]
  split <;> rfl

theorem afresh_setPhase (phase : LoopPhase π) (found : supervisor.loops[place]? = some loop) :
    (supervisor.setPhase place loop phase).afresh = supervisor.afresh := by
  obtain ⟨bound, rfl⟩ := List.getElem?_eq_some_iff.mp found
  have inside : place < (supervisor.loops.map ScrapeLoop.afresh).length := by simpa using bound
  have same : (supervisor.loops.map ScrapeLoop.afresh)[place] =
      supervisor.loops[place].afresh := List.getElem_map ..
  simp only [afresh, setPhase, List.map_set]
  congr 1
  apply Eq.trans _ (List.set_getElem_self inside)
  rw [same]
  rfl

theorem getElem?_afresh (found : supervisor.loops[place]? = some loop) :
    supervisor.afresh.loops[place]? = some loop.afresh := by
  simp [afresh, found]

theorem keepOnly_getElem? (keep : Slot → Bool) (found : supervisor.loops[place]? = some loop) :
    ∃ cancelled, (supervisor.keepOnly keep).loops[place]? =
        some { loop with isCancelled := cancelled } ∧
      (loop.isCancelled = true → cancelled = true) := by
  simp only [keepOnly, cancelLoops, List.getElem?_map, found, Option.map_some]
  split
  · exact ⟨true, rfl, fun _ => rfl⟩
  · exact ⟨loop.isCancelled, rfl, id⟩

theorem align_loop (sets : TargetSets) (found : supervisor.loops[place]? = some loop) :
    ∃ cancelled, (supervisor.align sets).loops[place]? =
        some { loop with isCancelled := cancelled } ∧
      (loop.isCancelled = true → cancelled = true) := by
  obtain ⟨cancelled, kept, remains⟩ :=
    keepOnly_getElem? (isWanted (supervisor.wanted sets)) found
  obtain ⟨_, added, _, loops, _, _⟩ := foldl_launch_extends
    (supervisor.keepOnly (isWanted (supervisor.wanted sets))) (supervisor.wanted sets)
  have bound := (List.getElem?_eq_some_iff.mp kept).1
  rw [align, loops]
  exact ⟨cancelled, (List.getElem?_append_left bound).trans kept, remains⟩

theorem foldl_launch_launched (entries : List (Target × Installed))
    (absent : supervisor.loops[place]? = none)
    (found : (entries.foldl launch supervisor).loops[place]? = some loop) :
    loop.phase = .launched ∧ (loop.target, loop.installed) ∈ entries := by
  induction entries generalizing supervisor with
  | nil => cases absent.symm.trans found
  | cons first rest ih =>
      cases next : (supervisor.launch first).loops[place]? with
      | none =>
          obtain ⟨launched, member⟩ := ih next found
          exact ⟨launched, List.mem_cons_of_mem first member⟩
      | some launched =>
          obtain ⟨_, added, _, loops, _, _⟩ :=
            foldl_launch_extends (supervisor.launch first) rest
          have bound := (List.getElem?_eq_some_iff.mp next).1
          rw [List.foldl_cons, loops, List.getElem?_append_left bound, next] at found
          obtain rfl := Option.some.inj found
          obtain ⟨_, same⟩ | ⟨_, _, same⟩ := supervisor.launch_cases first
          · rw [same, absent] at next
            cases next
          · rw [same] at next
            obtain before | ⟨_, rfl⟩ := getElem?_append_last next
            · cases absent.symm.trans before
            · exact ⟨rfl, List.mem_cons_self⟩

/-- A loop that bringing loops in line has added. -/
theorem align_launched (supervisor : Supervisor π) (sets : TargetSets)
    (absent : supervisor.loops[place]? = none)
    (found : (supervisor.align sets).loops[place]? = some loop) :
    loop.phase = .launched ∧ supervisor.installed.get? loop.target.job = some loop.installed := by
  have absent : (supervisor.keepOnly (isWanted (supervisor.wanted sets))).loops[place]? = none := by
    simp only [keepOnly, cancelLoops, List.getElem?_map, absent, Option.map_none]
  obtain ⟨launched, member⟩ := foldl_launch_launched (supervisor.wanted sets) absent found
  exact ⟨launched, installed_of_mem_wanted member⟩

end Supervisor

namespace Workshop

def new (shared : Shared κ σ) (initial : TargetSets) (now : Nat) : Workshop κ σ π :=
  ⟨.new, .new initial, shared, false, now⟩

def turn (equipment : Equipment κ σ τ π) (workshop : Workshop κ σ π) (place : Nat) :
    Workshop κ σ π × List Notice :=
  if place ∈ workshop.supervisor.readyLoops equipment workshop.isCancelled workshop.now
      workshop.shared then
    let (supervisor, shared, notices) := workshop.supervisor.loopStep equipment
      workshop.isCancelled workshop.now workshop.shared place
    ({ workshop with supervisor := supervisor, shared := shared }, notices)
  else (workshop, [])

/-- What a loop would do in a turn. -/
def deeds (equipment : Equipment κ σ τ π) (workshop : Workshop κ σ π) (place : Nat) : LoopDeeds :=
  let shared := (turn equipment.traced
    { workshop with shared := workshop.shared.untouched } place).1.shared
  ⟨shared.scraper.deeds, shared.sink.deeds⟩

def perform (equipment : Equipment κ σ τ π) (workshop : Workshop κ σ π) :
    Incident κ σ → Workshop κ σ π
  | .post sets => { workshop with board := workshop.board.post sets }
  | .close => { workshop with board := workshop.board.close }
  | .install config => { workshop with supervisor := (workshop.supervisor.install config).1 }
  | .enter =>
      match workshop.supervisor.enter workshop.board with
      | .ok supervisor => { workshop with supervisor := supervisor }
      | .error _ => workshop
  | .manage =>
      { workshop with
        supervisor := (workshop.supervisor.manageStep workshop.isCancelled workshop.board).1 }
  | .turn place => (workshop.turn equipment place).1
  | .cancel => { workshop with isCancelled := true }
  | .wait nanos => { workshop with now := workshop.now + nanos }
  | .outside change => { workshop with shared := change workshop.shared }

def run (equipment : Equipment κ σ τ π) (workshop : Workshop κ σ π)
    (incidents : List (Incident κ σ)) : Workshop κ σ π :=
  incidents.foldl (perform equipment) workshop

/-- The target sets with which an incident brings the loops in line, if it does. -/
def reaction? (workshop : Workshop κ σ π) : Incident κ σ → Option TargetSets
  | .enter =>
      match workshop.supervisor.managing with
      | .idle => some workshop.board.value
      | _ => none
  | .manage =>
      match workshop.supervisor.managing with
      | .active seen sets =>
          if workshop.isCancelled then none
          else if workshop.board.version ≠ seen then some workshop.board.value
          else if workshop.board.isClosed then none
          else if workshop.supervisor.hasNewDefinitions then some sets
          else none
      | _ => none
  | _ => none

/-- The result with which the managing task ends in an incident, if it does. -/
def returned? (workshop : Workshop κ σ π) : Incident κ σ → Option (Except Failure Unit)
  | .manage => (workshop.supervisor.manageStep workshop.isCancelled workshop.board).2
  | _ => none

/-- Whether a loop is cancelled, by its own token or by that of the supervisor. -/
def stops (workshop : Workshop κ σ π) (loop : ScrapeLoop π) : Bool :=
  workshop.isCancelled || loop.isCancelled

variable {equipment : Equipment κ σ τ π} {workshop : Workshop κ σ π} {incident : Incident κ σ}
  {place : Nat} {loop : ScrapeLoop π} {sets : TargetSets}

theorem run_append (before after : List (Incident κ σ)) :
    run equipment workshop (before ++ after) =
      run equipment (run equipment workshop before) after :=
  List.foldl_append

theorem run_concat (incidents : List (Incident κ σ)) (incident : Incident κ σ) :
    run equipment workshop (incidents ++ [incident]) =
      perform equipment (run equipment workshop incidents) incident :=
  run_append incidents [incident]

theorem mem_readyLoops_iff (equipment : Equipment κ σ τ π) (cancelled : Bool) (now : Nat)
    (shared : Shared κ σ) (supervisor : Supervisor π) (place : Nat) :
    place ∈ supervisor.readyLoops equipment cancelled now shared ↔
      ∃ loop, supervisor.loops[place]? = some loop ∧
        loop.isReady equipment cancelled now shared = true := by
  simp only [Supervisor.readyLoops, List.mem_filter, List.mem_range, Option.any_eq_true]
  constructor
  · intro member
    exact member.2
  · intro member
    obtain ⟨loop, found, ready⟩ := member
    exact ⟨(List.getElem?_eq_some_iff.mp found).1, loop, found, ready⟩

theorem turn_of_ready (found : workshop.supervisor.loops[place]? = some loop)
    (ready : loop.isReady equipment workshop.isCancelled workshop.now workshop.shared = true) :
    workshop.turn equipment place =
      ({ workshop with
          supervisor := workshop.supervisor.setPhase place loop
            (loop.step equipment workshop.isCancelled workshop.now workshop.shared).phase
          shared := (loop.step equipment workshop.isCancelled workshop.now
            workshop.shared).shared },
        (loop.step equipment workshop.isCancelled workshop.now workshop.shared).notices) := by
  have member := (mem_readyLoops_iff equipment workshop.isCancelled workshop.now workshop.shared
    workshop.supervisor place).mpr ⟨loop, found, ready⟩
  simp only [turn, if_pos member, Supervisor.loopStep, found, Supervisor.setPhase]

theorem turn_of_not_ready (idle : ∀ loop, workshop.supervisor.loops[place]? = some loop →
      loop.isReady equipment workshop.isCancelled workshop.now workshop.shared = false) :
    workshop.turn equipment place = (workshop, []) := by
  apply if_neg
  intro member
  obtain ⟨loop, found, ready⟩ := (mem_readyLoops_iff ..).mp member
  simp [idle loop found] at ready

theorem perform_now (equipment : Equipment κ σ τ π) (workshop : Workshop κ σ π)
    (incident : Incident κ σ) :
    (perform equipment workshop incident).now = workshop.now + incident.nanos := by
  cases incident with
  | enter => simp only [perform]; split <;> rfl
  | turn place => simp only [perform, turn]; split <;> rfl
  | _ => rfl

theorem perform_isCancelled (equipment : Equipment κ σ τ π) (workshop : Workshop κ σ π)
    (incident : Incident κ σ) (cancelled : workshop.isCancelled = true) :
    (perform equipment workshop incident).isCancelled = true := by
  cases incident with
  | enter => simp only [perform]; split <;> exact cancelled
  | turn place => simp only [perform, turn]; split <;> exact cancelled
  | cancel => rfl
  | _ => exact cancelled

/-- The managing task reacts, ends or does nothing. -/
theorem manageStep_cases (workshop : Workshop κ σ π) :
    let after := (workshop.supervisor.manageStep workshop.isCancelled workshop.board).1
    (∃ sets new, workshop.reaction? (.manage : Incident κ σ) = some sets ∧
      workshop.returned? (.manage : Incident κ σ) = none ∧
      after = Supervisor.align sets { workshop.supervisor with
        hasNewDefinitions := new
        managing := .active workshop.board.version sets }) ∨
    (∃ result, workshop.reaction? (.manage : Incident κ σ) = none ∧
      workshop.returned? (.manage : Incident κ σ) = some result ∧
      (result = .ok () ∨ result = .error .notificationsClosed) ∧
      after = workshop.supervisor.finish) ∨
    workshop.reaction? (.manage : Incident κ σ) = none ∧
      workshop.returned? (.manage : Incident κ σ) = none ∧ after = workshop.supervisor := by
  intro after
  cases managing : workshop.supervisor.managing with
  | idle => simp [after, reaction?, returned?, Supervisor.manageStep, managing]
  | ended => simp [after, reaction?, returned?, Supervisor.manageStep, managing]
  | active seen sets =>
      by_cases cancelled : workshop.isCancelled = true
      · simp [after, reaction?, returned?, Supervisor.manageStep, managing, cancelled]
      by_cases newer : workshop.board.version = seen
      · by_cases closed : workshop.board.isClosed = true
        · simp [after, reaction?, returned?, Supervisor.manageStep, managing, cancelled, newer,
            closed]
        by_cases changed : workshop.supervisor.hasNewDefinitions = true
        · apply Or.inl
          exact ⟨sets, false, by simp [reaction?, managing, cancelled, newer, closed, changed],
            by simp [returned?, Supervisor.manageStep, managing, cancelled, newer, closed, changed],
            by simp [after, Supervisor.manageStep, managing, cancelled, newer, closed, changed]⟩
        · simp [after, reaction?, returned?, Supervisor.manageStep, managing, cancelled, newer,
            closed, changed]
      · apply Or.inl
        exact ⟨workshop.board.value, workshop.supervisor.hasNewDefinitions,
          by simp [reaction?, managing, cancelled, newer],
          by simp [returned?, Supervisor.manageStep, managing, cancelled, newer],
          by simp [after, Supervisor.manageStep, managing, cancelled, newer]⟩

/-- A reaction brings the loops in line with the definitions as they are. -/
theorem perform_of_reaction (equipment : Equipment κ σ τ π)
    (reaction : workshop.reaction? incident = some sets) :
    ∃ new, perform equipment workshop incident =
      { workshop with supervisor := Supervisor.align sets { workshop.supervisor with
        hasNewDefinitions := new
        managing := .active workshop.board.version sets } } := by
  cases incident with
  | enter =>
      cases managing : workshop.supervisor.managing with
      | idle =>
          simp only [reaction?, managing, Option.some.injEq] at reaction
          subst reaction
          exact ⟨workshop.supervisor.hasNewDefinitions, by
            simp only [perform, Supervisor.enter, managing]⟩
      | _ => simp [reaction?, managing] at reaction
  | manage =>
      obtain ⟨held, new, reacts, _, after⟩ | ⟨_, none, _⟩ | ⟨none, _⟩ := workshop.manageStep_cases
      · obtain rfl := Option.some.inj (reacts.symm.trans reaction)
        exact ⟨new, by rw [perform, after]⟩
      · cases none.symm.trans reaction
      · cases none.symm.trans reaction
  | _ => simp [reaction?] at reaction

theorem perform_of_returned (equipment : Equipment κ σ τ π) {result : Except Failure Unit}
    (returned : workshop.returned? incident = some result) :
    (result = .ok () ∨ result = .error .notificationsClosed) ∧
      perform equipment workshop incident =
        { workshop with supervisor := workshop.supervisor.finish } := by
  cases incident with
  | manage =>
      obtain ⟨_, _, _, none, _⟩ | ⟨_, _, ends, results, after⟩ | ⟨_, none, _⟩ :=
        workshop.manageStep_cases
      · cases none.symm.trans returned
      · obtain rfl := Option.some.inj (ends.symm.trans returned)
        exact ⟨results, by rw [perform, after]⟩
      · cases none.symm.trans returned
  | _ => simp [returned?] at returned

/-- What an incident does to the supervisor. -/
inductive Move (equipment : Equipment κ σ τ π) (workshop : Workshop κ σ π) :
    Incident κ σ → Supervisor π → Prop where
  | install (config : Config.Scrape) :
      Move equipment workshop (.install config) (workshop.supervisor.install config).1
  | align (incident : Incident κ σ) (sets : TargetSets) (new : Bool)
      (reaction : workshop.reaction? incident = some sets) :
      Move equipment workshop incident (Supervisor.align sets { workshop.supervisor with
        hasNewDefinitions := new
        managing := .active workshop.board.version sets })
  | finish (incident : Incident κ σ) (result : Except Failure Unit)
      (returned : workshop.returned? incident = some result) :
      Move equipment workshop incident workshop.supervisor.finish
  | turn (place : Nat) (loop : ScrapeLoop π)
      (found : workshop.supervisor.loops[place]? = some loop)
      (ready : loop.isReady equipment workshop.isCancelled workshop.now workshop.shared = true) :
      Move equipment workshop (.turn place) (workshop.supervisor.setPhase place loop
        (loop.step equipment workshop.isCancelled workshop.now workshop.shared).phase)
  | still (incident : Incident κ σ) : Move equipment workshop incident workshop.supervisor

theorem perform_move (equipment : Equipment κ σ τ π) (workshop : Workshop κ σ π)
    (incident : Incident κ σ) :
    Move equipment workshop incident (perform equipment workshop incident).supervisor := by
  cases incident with
  | install config => exact .install config
  | enter =>
      cases managing : workshop.supervisor.managing with
      | idle =>
          have reaction : workshop.reaction? .enter = some workshop.board.value := by
            simp [reaction?, managing]
          have align : Move equipment workshop .enter _ :=
            .align .enter _ workshop.supervisor.hasNewDefinitions reaction
          simpa only [perform, Supervisor.enter, managing] using align
      | active seen sets => simpa only [perform, Supervisor.enter, managing] using .still .enter
      | ended => simpa only [perform, Supervisor.enter, managing] using .still .enter
  | manage =>
      rw [perform]
      obtain ⟨sets, new, reaction, _, after⟩ | ⟨result, _, returned, _, after⟩ |
        ⟨_, _, after⟩ := workshop.manageStep_cases
      · rw [after]
        exact .align .manage sets new reaction
      · rw [after]
        exact .finish .manage result returned
      · rw [after]
        exact .still .manage
  | turn place =>
      by_cases ready : place ∈ workshop.supervisor.readyLoops equipment workshop.isCancelled
          workshop.now workshop.shared
      · obtain ⟨loop, found, ready⟩ := (mem_readyLoops_iff ..).mp ready
        rw [perform, turn_of_ready found ready]
        exact .turn place loop found ready
      · rw [perform, turn, if_neg ready]
        exact .still (.turn place)
  | _ => exact .still _

/-- Slots and loops stand for each other, and there are none left once the managing task has
ended. -/
structure Orderly (workshop : Workshop κ σ π) : Prop where
  coherent : workshop.supervisor.afresh.Coherent
  ended : workshop.supervisor.managing = .ended → workshop.supervisor.slots = []

namespace Orderly

theorem new (shared : Shared κ σ) (initial : TargetSets) (now : Nat) :
    (new shared initial now : Workshop κ σ π).Orderly := by
  constructor
  · exact Supervisor.coherent_new
  · simp [Workshop.new, Supervisor.new]

theorem perform (equipment : Equipment κ σ τ π) (orderly : workshop.Orderly)
    (incident : Incident κ σ) : (perform equipment workshop incident).Orderly := by
  have move := perform_move equipment workshop incident
  suffices ∀ after : Supervisor π, Move equipment workshop incident after →
      after.afresh.Coherent ∧ (after.managing = .ended → after.slots = []) by
    obtain ⟨coherent, ended⟩ := this _ move
    exact ⟨coherent, ended⟩
  intro after move
  cases move with
  | install config =>
      constructor
      · rw [Supervisor.afresh_install]
        exact Supervisor.install_coherent orderly.coherent
      · obtain ⟨managing, slots, _⟩ := Supervisor.install_frame config workshop.supervisor
        rw [managing, slots]
        exact orderly.ended
  | align incident sets new reaction =>
      constructor
      · rw [Supervisor.afresh_align]
        exact Supervisor.align_coherent (orderly.coherent.managed _ _) sets
      · intro ended
        have active := (Supervisor.align_frame { workshop.supervisor with
          hasNewDefinitions := new
          managing := .active workshop.board.version sets } sets).2.2.2
        cases active.symm.trans ended
  | finish incident result returned =>
      constructor
      · have coherent : (workshop.supervisor.afresh.keepOnly fun _ => false).Coherent :=
          Supervisor.keepOnly_coherent orderly.coherent
        rw [← Supervisor.afresh_keepOnly] at coherent
        exact coherent.managed workshop.supervisor.hasNewDefinitions .ended
      · intro _
        exact List.filter_false _
  | turn place loop found ready =>
      constructor
      · rw [Supervisor.afresh_setPhase _ found]
        exact orderly.coherent
      · exact orderly.ended
  | still incident => exact ⟨orderly.coherent, orderly.ended⟩

theorem run (equipment : Equipment κ σ τ π) (orderly : workshop.Orderly)
    (incidents : List (Incident κ σ)) : (run equipment workshop incidents).Orderly := by
  induction incidents generalizing workshop with
  | nil => exact orderly
  | cons incident rest ih => exact ih (orderly.perform equipment incident)

/-- The slot of a loop whose own token is not cancelled. -/
theorem slot_of_loop (orderly : workshop.Orderly) (found : workshop.supervisor.loops[place]? = some loop)
    (active : loop.isCancelled = false) :
    ∃ slot ∈ workshop.supervisor.slots, slot.number = place ∧ slot.target = loop.target ∧
      slot.edition = loop.installed.edition := by
  have foundAfresh := Supervisor.getElem?_afresh found
  obtain ⟨slot, member, number⟩ := orderly.coherent.held place loop.afresh foundAfresh active
  obtain ⟨backing, backed, target, edition, _⟩ := orderly.coherent.backed slot member
  rw [number, foundAfresh] at backed
  obtain rfl := Option.some.inj backed
  exact ⟨slot, member, number, target.symm, edition.symm⟩

/-- The loop of a slot. -/
theorem loop_of_slot (orderly : workshop.Orderly) {slot : Slot}
    (member : slot ∈ workshop.supervisor.slots) :
    ∃ loop, workshop.supervisor.loops[slot.number]? = some loop ∧ loop.target = slot.target ∧
      loop.isCancelled = false := by
  obtain ⟨backing, backed, target, _, active⟩ := orderly.coherent.backed slot member
  simp only [Supervisor.afresh, List.getElem?_map, Option.map_eq_some_iff] at backed
  obtain ⟨loop, found, rfl⟩ := backed
  exact ⟨loop, found, target, active⟩

theorem place_unique (orderly : workshop.Orderly) {left right : Nat}
    {leftLoop rightLoop : ScrapeLoop π}
    (leftFound : workshop.supervisor.loops[left]? = some leftLoop)
    (rightFound : workshop.supervisor.loops[right]? = some rightLoop)
    (leftActive : leftLoop.isCancelled = false) (rightActive : rightLoop.isCancelled = false)
    (same : leftLoop.target = rightLoop.target) : left = right :=
  orderly.coherent.place_unique (Supervisor.getElem?_afresh leftFound)
    (Supervisor.getElem?_afresh rightFound) leftActive rightActive same

end Orderly

/-- Other incidents may cancel a loop, and do nothing else to it. -/
theorem Move.keeps {after : Supervisor π} (move : Move equipment workshop incident after)
    (elsewhere : incident ≠ .turn place)
    (found : workshop.supervisor.loops[place]? = some loop) :
    ∃ cancelled, after.loops[place]? = some { loop with isCancelled := cancelled } ∧
      (loop.isCancelled = true → cancelled = true) := by
  cases move with
  | install config =>
      rw [(Supervisor.install_frame config workshop.supervisor).2.2]
      exact ⟨loop.isCancelled, found, id⟩
  | align incident sets new reaction => exact Supervisor.align_loop sets found
  | finish incident result returned => exact Supervisor.keepOnly_getElem? _ found
  | turn turned other foundOther ready =>
      have different : turned ≠ place := fun same => elsewhere (congrArg Incident.turn same)
      exact ⟨loop.isCancelled, (List.getElem?_set_ne different).trans found, id⟩
  | still incident => exact ⟨loop.isCancelled, found, id⟩

theorem turn_loop (found : workshop.supervisor.loops[place]? = some loop)
    (ready : loop.isReady equipment workshop.isCancelled workshop.now workshop.shared = true) :
    (perform equipment workshop (.turn place)).supervisor.loops[place]? =
      some { loop with
        phase := (loop.step equipment workshop.isCancelled workshop.now workshop.shared).phase } := by
  have bound := (List.getElem?_eq_some_iff.mp found).1
  rw [perform, turn_of_ready found ready]
  simp [Supervisor.setPhase, bound]

/-- A loop keeps its place and its assignment, and a cancellation is for good. -/
theorem perform_follows (equipment : Equipment κ σ τ π) (incident : Incident κ σ)
    (found : workshop.supervisor.loops[place]? = some loop) :
    ∃ later, (perform equipment workshop incident).supervisor.loops[place]? = some later ∧
      later.assignment = loop.assignment ∧
      (loop.isCancelled = true → later.isCancelled = true) := by
  by_cases own : incident = .turn place
  · subst own
    by_cases ready : loop.isReady equipment workshop.isCancelled workshop.now workshop.shared = true
    · exact ⟨_, turn_loop found ready, rfl, id⟩
    · have idle : ∀ other, workshop.supervisor.loops[place]? = some other →
          other.isReady equipment workshop.isCancelled workshop.now workshop.shared = false := by
        intro other foundOther
        obtain rfl := Option.some.inj (found.symm.trans foundOther)
        simpa using ready
      rw [perform, turn_of_not_ready idle]
      exact ⟨loop, found, rfl, id⟩
  · have move := perform_move equipment workshop incident
    obtain ⟨cancelled, kept, remains⟩ := move.keeps own found
    exact ⟨_, kept, rfl, remains⟩

theorem run_follows (equipment : Equipment κ σ τ π) (incidents : List (Incident κ σ))
    (found : workshop.supervisor.loops[place]? = some loop) :
    ∃ later, (run equipment workshop incidents).supervisor.loops[place]? = some later ∧
      later.assignment = loop.assignment ∧
      (loop.isCancelled = true → later.isCancelled = true) := by
  induction incidents generalizing workshop loop with
  | nil => exact ⟨loop, found, rfl, id⟩
  | cons incident rest ih =>
      obtain ⟨next, foundNext, assignment, cancelled⟩ := perform_follows equipment incident found
      obtain ⟨later, foundLater, same, remains⟩ := ih foundNext
      exact ⟨later, foundLater, same.trans assignment, fun stopped => remains (cancelled stopped)⟩

/-- A loop that was not there before is launched for a definition that is installed. -/
theorem Move.launched {after : Supervisor π} (move : Move equipment workshop incident after)
    (absent : workshop.supervisor.loops[place]? = none) (found : after.loops[place]? = some loop) :
    loop.phase = .launched ∧
      workshop.supervisor.installed.get? loop.target.job = some loop.installed := by
  cases move with
  | install config =>
      rw [(Supervisor.install_frame config workshop.supervisor).2.2] at found
      cases absent.symm.trans found
  | align incident sets new reaction =>
      exact Supervisor.align_launched { workshop.supervisor with
        hasNewDefinitions := new
        managing := .active workshop.board.version sets } sets absent found
  | finish incident result returned =>
      obtain ⟨before, foundBefore, _⟩ := Supervisor.getElem?_cancelLoops found
      cases absent.symm.trans foundBefore
  | turn turned other foundOther ready =>
      obtain ⟨before, foundBefore⟩ := Supervisor.setPhase_before found
      cases absent.symm.trans foundBefore
  | still incident => cases absent.symm.trans found

end Workshop

end ScrapeRelay.Scrape
