import Mathlib.Tactic.ByContra
import ScrapeRelay.Proofs.Scrape.Alignment

/-!
# The beat of a scrape loop

A loop takes a tick, scrapes, commits and waits for the next tick. Its deadlines stay on the grid
of the first one, whatever the scrapes and commits take (`Regular`), and it keeps to every deadline
of the grid if its scrapes end within the interval and its commits at once (`Prompt`).
-/

namespace ScrapeRelay.Scrape

variable {κ σ τ π : Type}

/-- The next deadline is on the grid of the one before. -/
theorem nextDeadline_eq {interval : Duration} (positive : 0 < interval.nanos) {deadline now : Nat}
    (reached : deadline ≤ now) :
    ∃ skipped, nextDeadline interval deadline now =
      deadline + (skipped + 1) * interval.nanos := by
  by_cases punctual : now ≤ deadline + tickTolerance.nanos
  · exact ⟨0, by rw [nextDeadline, if_pos punctual]; omega⟩
  · have parts := Nat.div_add_mod (now - deadline) interval.nanos
    have remainder := Nat.mod_lt (now - deadline) positive
    have whole : ((now - deadline) / interval.nanos + 1) * interval.nanos =
        interval.nanos * ((now - deadline) / interval.nanos) + interval.nanos := by
      rw [Nat.add_mul, Nat.one_mul, Nat.mul_comm]
    rw [nextDeadline, if_neg punctual]
    exact ⟨(now - deadline) / interval.nanos, by omega⟩

/-- A tick that is taken at its deadline skips none. -/
theorem nextDeadline_self (interval : Duration) (deadline : Nat) :
    nextDeadline interval deadline deadline = deadline + interval.nanos :=
  if_pos (Nat.le_add_right _ _)

theorem grid_succ (origin count interval : Nat) :
    origin + count * interval + interval = origin + (count + 1) * interval := by
  rw [Nat.add_mul, Nat.one_mul, Nat.add_assoc]

/-- A scrape that was begun, with the deadline that it was begun for. -/
structure Beginning where
  deadline : Nat
  instant : Nat
deriving DecidableEq

inductive Milestone where
  | begins (beginning : Beginning)
  /-- A scrape and its commit are over. -/
  | settles
deriving DecidableEq

namespace Milestone

def beginning? : Milestone → Option Beginning
  | .begins beginning => some beginning
  | .settles => none

def beginnings (log : List Milestone) : List Beginning := log.filterMap beginning?

/-- Scrapes begin and settle in turns. -/
def Alternate (log : List Milestone) : Prop :=
  ∀ place milestone, log[place]? = some milestone →
    (milestone.beginning?.isSome = true ↔ place % 2 = 0)

@[simp] theorem beginnings_nil : beginnings [] = [] := rfl

@[simp] theorem beginnings_begins (log : List Milestone) (beginning : Beginning) :
    beginnings (log ++ [.begins beginning]) = beginnings log ++ [beginning] := by
  simp [beginnings, beginning?]

@[simp] theorem beginnings_settles (log : List Milestone) :
    beginnings (log ++ [.settles]) = beginnings log := by
  simp [beginnings, beginning?]

theorem Alternate.concat {log : List Milestone} (alternate : Alternate log) {milestone : Milestone}
    (turn : milestone.beginning?.isSome = true ↔ log.length % 2 = 0) :
    Alternate (log ++ [milestone]) := by
  intro place other found
  obtain earlier | ⟨rfl, rfl⟩ := Supervisor.getElem?_append_last found
  · exact alternate place other earlier
  · exact turn

end Milestone

namespace LoopPhase

/-- The deadline after a scrape that is in progress, or whose commit is. -/
def next? : LoopPhase π → Option Nat
  | .scraping next _ _ => some next
  | .committing next _ => some next
  | _ => none

def isBusy (phase : LoopPhase π) : Bool := phase.next?.isSome

/-- The deadline that a loop has yet to keep. -/
def planned? : LoopPhase π → Option Nat
  | .waiting deadline => some deadline
  | phase => phase.next?

theorem isBusy_of_next? {phase : LoopPhase π} {next : Nat} (busy : phase.next? = some next) :
    phase.isBusy = true := by
  rw [isBusy, busy]
  rfl

theorem planned?_of_next? {phase : LoopPhase π} {next : Nat} (busy : phase.next? = some next) :
    phase.planned? = some next := by
  cases phase with
  | waiting deadline => cases busy
  | _ => exact busy

/-- The deadline for which a loop begins a scrape. -/
def deadline (now : Nat) : LoopPhase π → Nat
  | .waiting deadline => deadline
  | _ => now

end LoopPhase

/-- What a turn makes of the phase of a loop, and which milestone it is. -/
inductive Beat (interval : Duration) (now : Nat) :
    Bool → LoopPhase π → LoopPhase π → Option Milestone → Prop where
  | rest (stopped : Bool) (phase : LoopPhase π) : Beat interval now stopped phase phase none
  | stop (phase : LoopPhase π) :
      Beat interval now true phase .finished (if phase.isBusy then some .settles else none)
  | launch (response : Response) :
      Beat interval now false .launched (.scraping (nextDeadline interval now now) now response)
        (some (.begins ⟨now, now⟩))
  | tick (deadline : Nat) (response : Response) (reached : deadline ≤ now) :
      Beat interval now false (.waiting deadline)
        (.scraping (nextDeadline interval deadline now) now response)
        (some (.begins ⟨deadline, now⟩))
  | commit (phase : LoopPhase π) (next : Nat) (commit : π) (busy : phase.next? = some next) :
      Beat interval now false phase (.committing next commit) none
  | settle (phase : LoopPhase π) (next : Nat) (busy : phase.next? = some next) :
      Beat interval now false phase (.waiting next) (some .settles)

open Milestone (beginnings Alternate)

/-- The scrapes of a log were begun for deadlines a whole number of intervals after the first one,
and fewer than a count. -/
structure OnGrid (origin interval count : Nat) (log : List Milestone) : Prop where
  deadlines : ∃ counts : List Nat, counts.Pairwise (· < ·) ∧ (∀ earlier ∈ counts, earlier < count) ∧
    (beginnings log).map Beginning.deadline = counts.map (fun count => origin + count * interval)
  first : (beginnings log).head? = some ⟨origin, origin⟩

namespace OnGrid

variable {origin interval count : Nat} {log : List Milestone}

theorem launched (origin interval skipped : Nat) :
    OnGrid origin interval (skipped + 1) [.begins ⟨origin, origin⟩] := by
  constructor
  · exact ⟨[0], by simp, by simp, by simp [beginnings, Milestone.beginning?]⟩
  · rfl

theorem begins (grid : OnGrid origin interval count log) (now skipped : Nat) :
    OnGrid origin interval (count + skipped + 1)
      (log ++ [.begins ⟨origin + count * interval, now⟩]) := by
  obtain ⟨counts, increasing, earlier, deadlines⟩ := grid.deadlines
  constructor
  · refine ⟨counts ++ [count], ?_, ?_, ?_⟩
    · rw [List.pairwise_append]
      exact ⟨increasing, List.pairwise_singleton _ _, by simpa using earlier⟩
    · intro other member
      obtain before | last := List.mem_append.mp member
      · have := earlier other before
        omega
      · obtain rfl := List.mem_singleton.mp last
        omega
    · rw [Milestone.beginnings_begins, List.map_append, List.map_append, deadlines]
      rfl
  · rw [Milestone.beginnings_begins, List.head?_append, grid.first]
    rfl

theorem settles (grid : OnGrid origin interval count log) :
    OnGrid origin interval count (log ++ [.settles]) := by
  constructor
  · rw [Milestone.beginnings_settles]
    exact grid.deadlines
  · rw [Milestone.beginnings_settles]
    exact grid.first

end OnGrid

/-- What the log of a loop says in the phase that the loop is in. -/
structure Regular (interval : Nat) (log : List Milestone) (phase : LoopPhase π) : Prop where
  launched : phase = .launched → log = []
  grid : log = [] ∨ ∃ origin count, OnGrid origin interval count log
  planned : ∀ deadline, phase.planned? = some deadline →
    ∃ origin count, OnGrid origin interval count log ∧ deadline = origin + count * interval
  reached : ∀ beginning ∈ beginnings log, beginning.deadline ≤ beginning.instant
  alternate : Alternate log
  busy : phase.isBusy = true ↔ log.length % 2 = 1

namespace Regular

variable {interval : Duration} {now : Nat} {log : List Milestone} {before after : LoopPhase π}
  {milestone : Option Milestone}

theorem new (interval : Nat) : Regular interval [] (.launched : LoopPhase π) := by
  constructor <;> simp [LoopPhase.planned?, LoopPhase.isBusy, LoopPhase.next?, Alternate]

/-- A scrape that begins for a deadline on the grid. -/
theorem begins {origin count next : Nat} {beginning : Beginning} {response : Response}
    (regular : Regular interval.nanos log before) (free : before.isBusy = false)
    (reached : beginning.deadline ≤ beginning.instant)
    (grid : OnGrid origin interval.nanos count (log ++ [.begins beginning]))
    (planned : next = origin + count * interval.nanos) :
    Regular interval.nanos (log ++ [.begins beginning])
      (.scraping next now response : LoopPhase π) := by
  have even : log.length % 2 = 0 := by
    have := regular.busy
    simp only [free, Bool.false_eq_true, false_iff] at this
    omega
  constructor
  · simp
  · exact .inr ⟨origin, count, grid⟩
  · intro deadline same
    obtain rfl := Option.some.inj same
    exact ⟨origin, count, grid, planned⟩
  · intro other member
    rw [Milestone.beginnings_begins, List.mem_append, List.mem_singleton] at member
    obtain earlier | rfl := member
    · exact regular.reached other earlier
    · exact reached
  · apply regular.alternate.concat
    simpa [Milestone.beginning?] using even
  · simp only [LoopPhase.isBusy, LoopPhase.next?, Option.isSome_some, true_iff,
      List.length_append, List.length_singleton]
    omega

theorem settles (regular : Regular interval.nanos log before) (busy : before.isBusy = true)
    (free : after.isBusy = false) (unlaunched : after ≠ .launched)
    (planned : ∀ deadline, after.planned? = some deadline → before.planned? = some deadline) :
    Regular interval.nanos (log ++ [.settles]) after := by
  have odd := regular.busy.mp busy
  constructor
  · intro launched
    exact absurd launched unlaunched
  · obtain rfl | ⟨origin, count, grid⟩ := regular.grid
    · simp at odd
    · exact .inr ⟨origin, count, grid.settles⟩
  · intro deadline same
    obtain ⟨origin, count, grid, on⟩ := regular.planned deadline (planned deadline same)
    exact ⟨origin, count, grid.settles, on⟩
  · rw [Milestone.beginnings_settles]
    exact regular.reached
  · apply regular.alternate.concat
    simpa [Milestone.beginning?] using odd
  · simp only [free, Bool.false_eq_true, false_iff, List.length_append, List.length_singleton]
    omega

/-- A loop goes on to a phase of the same kind. -/
theorem goesOn (regular : Regular interval.nanos log before) (busy : after.isBusy = before.isBusy)
    (unlaunched : after = .launched → before = .launched)
    (planned : ∀ deadline, after.planned? = some deadline → before.planned? = some deadline) :
    Regular interval.nanos log after := by
  constructor
  · intro launched
    exact regular.launched (unlaunched launched)
  · exact regular.grid
  · intro deadline same
    exact regular.planned deadline (planned deadline same)
  · exact regular.reached
  · exact regular.alternate
  · rw [busy]
    exact regular.busy

theorem beat {stopped : Bool} (regular : Regular interval.nanos log before)
    (positive : 0 < interval.nanos) (beat : Beat interval now stopped before after milestone) :
    Regular interval.nanos (log ++ milestone.toList) after := by
  cases beat with
  | rest => simpa using regular
  | stop =>
      cases busy : before.isBusy with
      | true => exact regular.settles busy rfl (by simp) (by simp [LoopPhase.planned?, LoopPhase.next?])
      | false =>
          rw [if_neg Bool.false_ne_true, Option.toList_none, List.append_nil]
          exact regular.goesOn busy.symm (by simp) (by simp [LoopPhase.planned?, LoopPhase.next?])
  | launch response =>
      obtain rfl := regular.launched rfl
      obtain ⟨skipped, next⟩ := nextDeadline_eq positive (Nat.le_refl now)
      exact regular.begins rfl (Nat.le_refl now) (.launched now interval.nanos skipped) next
  | tick deadline response reached =>
      obtain ⟨origin, count, grid, rfl⟩ := regular.planned deadline rfl
      obtain ⟨skipped, next⟩ := nextDeadline_eq positive reached
      apply regular.begins rfl reached (grid.begins now skipped)
      rw [next, Nat.add_assoc, ← Nat.add_mul, Nat.add_assoc]
  | commit _ next commit busy =>
      rw [Option.toList_none, List.append_nil]
      have both : LoopPhase.isBusy (.committing next commit) = before.isBusy :=
        (LoopPhase.isBusy_of_next? busy).symm
      apply regular.goesOn both (by simp)
      intro deadline same
      obtain rfl := Option.some.inj same
      exact LoopPhase.planned?_of_next? busy
  | settle _ next busy =>
      apply regular.settles (LoopPhase.isBusy_of_next? busy) rfl (by simp)
      intro deadline same
      obtain rfl := Option.some.inj same
      exact LoopPhase.planned?_of_next? busy

end Regular

/-- Scrapes that were begun at so many deadlines in a row, each of them on time. -/
def onTime (origin interval count : Nat) : List Beginning :=
  (List.range count).map (fun count => ⟨origin + count * interval, origin + count * interval⟩)

theorem onTime_succ (origin interval count : Nat) :
    onTime origin interval (count + 1) =
      onTime origin interval count ++
        [⟨origin + count * interval, origin + count * interval⟩] := by
  simp [onTime, List.range_succ]

/-- How a loop keeps to every deadline: it has begun a scrape at all that have come, and the scrape
in progress is not older than its timeout. -/
inductive Prompt (interval timeout now : Nat) : List Beginning → LoopPhase π → Prop where
  | launched : Prompt interval timeout now [] .launched
  | waiting (origin count : Nat) (begun : 0 < count) (ahead : now ≤ origin + count * interval) :
      Prompt interval timeout now (onTime origin interval count)
        (.waiting (origin + count * interval))
  | scraping (origin count : Nat) (response : Response)
      (recent : now ≤ origin + count * interval + timeout) :
      Prompt interval timeout now (onTime origin interval (count + 1))
        (.scraping (origin + (count + 1) * interval) (origin + count * interval) response)

namespace Prompt

variable {interval : Duration} {timeout now : Nat} {log : List Milestone}
  {before after : LoopPhase π} {milestone : Option Milestone}

theorem beat (prompt : Prompt interval.nanos timeout now (beginnings log) before)
    (fits : timeout ≤ interval.nanos)
    (beat : Beat interval now false before after milestone)
    (uncommitted : ∀ next commit, after ≠ .committing next commit) :
    Prompt interval.nanos timeout now (beginnings (log ++ milestone.toList)) after := by
  cases beat with
  | rest => simpa using prompt
  | launch response =>
      generalize begun : beginnings log = earlier at prompt
      cases prompt
      have first : Prompt interval.nanos timeout now (onTime now interval.nanos 1)
          (.scraping (now + (0 + 1) * interval.nanos) (now + 0 * interval.nanos) response :
            LoopPhase π) := .scraping now 0 response (by omega)
      rw [Option.toList_some, Milestone.beginnings_begins, begun, nextDeadline_self]
      simpa [onTime] using first
  | tick deadline response reached =>
      generalize begun : beginnings log = earlier at prompt
      cases prompt with
      | waiting origin count _ ahead =>
          obtain rfl : now = origin + count * interval.nanos := Nat.le_antisymm ahead reached
          rw [Option.toList_some, Milestone.beginnings_begins, begun, nextDeadline_self,
            grid_succ, ← onTime_succ]
          exact .scraping origin count response (Nat.le_add_right _ _)
  | commit _ next commit busy => exact absurd rfl (uncommitted next commit)
  | settle _ next busy =>
      rw [Option.toList_some, Milestone.beginnings_settles]
      generalize beginnings log = earlier at prompt
      cases prompt with
      | launched => cases busy
      | waiting origin count begun ahead => cases busy
      | scraping origin count response recent =>
          obtain rfl := Option.some.inj busy
          have next := grid_succ origin count interval.nanos
          exact .waiting origin (count + 1) (Nat.succ_pos count) (by omega)

theorem uncommitted {log : List Beginning} {interval : Nat} {phase : LoopPhase π}
    (prompt : Prompt interval timeout now log phase) :
    ∀ next commit, phase ≠ .committing next commit := by
  intro next commit
  cases prompt <;> simp

/-- Time passes until a loop has something to do. -/
theorem wait {log : List Beginning} {cancelled : Bool} {nanos : Nat} {shared : Shared κ σ}
    {equipment : Equipment κ σ τ π} {loop : ScrapeLoop π}
    (prompt : Prompt interval.nanos loop.installed.timeout.nanos now log loop.phase)
    (idle : loop.isReady equipment cancelled now shared = false)
    (before : ∀ due, loop.due equipment shared = some due → now + nanos ≤ due) :
    Prompt interval.nanos loop.installed.timeout.nanos (now + nanos) log loop.phase := by
  rw [ScrapeLoop.isReady] at idle
  rw [ScrapeLoop.due] at before
  generalize loop.phase = phase at prompt idle before
  cases prompt with
  | launched => simp at idle
  | waiting origin count begun ahead => exact .waiting origin count begun (before _ rfl)
  | scraping origin count response recent =>
      apply Prompt.scraping origin count response
      simp only at before
      split at before
      · have := before _ rfl
        omega
      · exact before _ rfl

/-- Every deadline that has passed was kept, and one that has just come unless the loop still has
something to do. -/
theorem kept {log : List Beginning} {loop : ScrapeLoop π} (equipment : Equipment κ σ τ π)
    (cancelled : Bool) (shared : Shared κ σ)
    (prompt : Prompt interval.nanos loop.installed.timeout.nanos now log loop.phase)
    (fits : loop.installed.timeout.nanos ≤ interval.nanos) :
    ∃ origin count, log = onTime origin interval.nanos count ∧
      (0 < count → ∀ other, origin + other * interval.nanos < now → other < count) ∧
      (loop.isReady equipment cancelled now shared = false →
        0 < count ∧ ∀ other, origin + other * interval.nanos ≤ now → other < count) := by
  have before {origin count other instant : Nat} (past : origin + other * interval.nanos < instant)
      (ahead : instant ≤ origin + count * interval.nanos) : other < count := by
    by_contra later
    have := Nat.mul_le_mul_right interval.nanos (Nat.le_of_not_lt later)
    omega
  rw [ScrapeLoop.isReady]
  generalize loop.phase = phase at prompt
  cases prompt with
  | launched => exact ⟨0, 0, rfl, by simp, by simp⟩
  | waiting origin count begun ahead =>
      refine ⟨origin, count, rfl, fun _ other past => before past ahead, fun idle => ⟨begun, ?_⟩⟩
      intro other come
      have : now < origin + count * interval.nanos := by
        simp only [Bool.or_eq_false_iff, decide_eq_false_iff_not] at idle
        omega
      exact before (Nat.lt_succ_of_le come) this
  | scraping origin count response recent =>
      have next := grid_succ origin count interval.nanos
      refine ⟨origin, count + 1, rfl, fun _ other past => before past (by omega),
        fun idle => ⟨Nat.succ_pos count, ?_⟩⟩
      intro other come
      have : now < origin + count * interval.nanos + loop.installed.timeout.nanos := by
        by_contra expired
        have unsettled := (Bool.or_eq_false_iff.mp idle).2
        simp only [ScrapeLoop.outcome?, if_pos (Nat.le_of_not_lt expired)] at unsettled
        split at unsettled <;> cases unsettled
      exact before (Nat.lt_succ_of_le come) (by omega)

end Prompt

end ScrapeRelay.Scrape
