import Mathlib.Data.List.DropRight
import ScrapeRelay.Proofs.Sink.Outbox

/-!
# Transactions that are rolled back

A transaction that is rolled back has marked its targets when their first samples were accepted,
and that is all that is left of it (`rolled_back_as_marks`): with these marks in its place, every
other transaction makes and delivers the same batches, and the ledger ends up the same.
-/

namespace ScrapeRelay

namespace Ledger

variable {before after : Ledger}

/-- A ledger was not swept, and no series is another one than it was, unless its job was stale and
has entered a new generation. -/
structure OnlyOpens (before after : Ledger) : Prop where
  window : after.window = before.window
  lastSweep : after.lastSweep = before.lastSweep
  record : ∀ key,
    (after.records.get? key).map (fun record => (record.generation, record.series)) =
        (before.records.get? key).map (fun record => (record.generation, record.series)) ∨
      ∃ now, before.isStale key now before.window = true ∧
        after.records.get? key = some ⟨now, before.nextGeneration, .empty⟩

namespace OnlyOpens

theorem refl (ledger : Ledger) : OnlyOpens ledger ledger := ⟨rfl, rfl, fun _ => .inl rfl⟩

theorem of_mark (ledger : Ledger) (job : String) (now : Nat) :
    OnlyOpens ledger (ledger.mark job now).1 := by
  obtain ⟨window, lastSweep, records⟩ := ledger.mark_frame job now
  refine ⟨window, lastSweep, fun key => ?_⟩
  by_cases own : key = job
  · subst own
    obtain ⟨stale, marked⟩ | ⟨record, _, known, marked⟩ := ledger.mark_cases key now
    · exact .inr ⟨now, stale, by rw [marked]; exact SortedMap.get?_insert_self⟩
    · refine .inl ?_
      rw [marked, keeping, SortedMap.get?_insert_self, known]
      rfl
  · exact .inl (by rw [records key own])

end OnlyOpens

end Ledger

open Ledger (OnlyOpens)

variable {γ : Type}

namespace OutboxEvent

def closes (slot : Nat) : OutboxEvent γ → Bool
  | .commit closed _ => closed = slot
  | .rollback closed => closed = slot
  | _ => false

/-- Whether an event belongs to a transaction in the slot. -/
def uses (slot : Nat) : OutboxEvent γ → Bool
  | .append used _ _ _ _ => used = slot
  | event => event.closes slot

/-- Events with marks in place of the samples that are appended in a slot: one for the first
accepted sample of each target that has none yet. -/
def marksOnly (settings : IntakeSettings γ) (slot : Nat) :
    List Node → List (OutboxEvent γ) → List (OutboxEvent γ)
  | _, [] => []
  | marked, .append used now address job sample :: rest =>
      if used = slot then
        if settings.filter.admits job address sample.name ∧ ⟨job, address⟩ ∉ marked then
          .ledger (.mark (Transaction.ledgerKey job address) (settings.ledgerTime now)) ::
            marksOnly settings slot (⟨job, address⟩ :: marked) rest
        else marksOnly settings slot marked rest
      else .append used now address job sample :: marksOnly settings slot marked rest
  | marked, event :: rest => event :: marksOnly settings slot marked rest

variable {settings : IntakeSettings γ} {slot : Nat} {event : OutboxEvent γ}

theorem marksOnly_of_not_uses (elsewhere : event.uses slot = false) (marked : List Node)
    (rest : List (OutboxEvent γ)) :
    marksOnly settings slot marked (event :: rest) =
      event :: marksOnly settings slot marked rest := by
  cases event with
  | append used now address job sample =>
      have other : used ≠ slot := by simpa [uses] using elsewhere
      rw [marksOnly, if_neg other]
  | _ => rfl

theorem marksOnly_of_fresh {now : Nat} {address job : String} {sample : Sample}
    {marked : List Node} (admitted : settings.filter.admits job address sample.name = true)
    (fresh : (⟨job, address⟩ : Node) ∉ marked) (rest : List (OutboxEvent γ)) :
    marksOnly settings slot marked (.append slot now address job sample :: rest) =
      .ledger (.mark (Transaction.ledgerKey job address) (settings.ledgerTime now)) ::
        marksOnly settings slot (⟨job, address⟩ :: marked) rest := by
  rw [marksOnly, if_pos rfl, if_pos ⟨admitted, fresh⟩]

theorem marksOnly_of_dropped {now : Nat} {address job : String} {sample : Sample}
    {marked : List Node}
    (dropped : ¬ (settings.filter.admits job address sample.name = true ∧
      (⟨job, address⟩ : Node) ∉ marked)) (rest : List (OutboxEvent γ)) :
    marksOnly settings slot marked (.append slot now address job sample :: rest) =
      marksOnly settings slot marked rest := by
  rw [marksOnly, if_pos rfl, if_neg dropped]

/-- An event of an open transaction is an append to it. -/
theorem uses_cases (opened : event.closes slot = false) :
    event.uses slot = false ∨
      ∃ now address job sample, event = .append slot now address job sample := by
  cases event with
  | append used now address job sample =>
      by_cases own : used = slot
      · exact .inr ⟨now, address, job, sample, by rw [own]⟩
      · exact .inl (by simpa [uses] using own)
  | _ => exact .inl opened

/-- Nothing is left of the transaction in the slot but marks. -/
theorem not_uses_of_mem_marksOnly {events : List (OutboxEvent γ)}
    (opened : ∀ event ∈ events, event.closes slot = false) (marked : List Node) :
    ∀ event ∈ marksOnly settings slot marked events, event.uses slot = false := by
  induction events generalizing marked with
  | nil => exact List.forall_mem_nil _
  | cons event rest ih =>
      have later := ih fun other member => opened other (List.mem_cons_of_mem _ member)
      obtain elsewhere | ⟨now, address, job, sample, rfl⟩ :=
        uses_cases (opened event List.mem_cons_self)
      · rw [marksOnly_of_not_uses elsewhere]
        exact List.forall_mem_cons.mpr ⟨elsewhere, later marked⟩
      · by_cases fresh : settings.filter.admits job address sample.name = true ∧
          (⟨job, address⟩ : Node) ∉ marked
        · rw [marksOnly_of_fresh fresh.1 fresh.2]
          exact List.forall_mem_cons.mpr ⟨rfl, later _⟩
        · rw [marksOnly_of_dropped fresh]
          exact later marked

end OutboxEvent

namespace Transaction

/-- A transaction holds samples of the given targets, and of no others. -/
def Holds (transaction : Transaction) (marked : List Node) : Prop :=
  ∀ node : Node, (transaction.get? node.job node.address).isSome = true ↔ node ∈ marked

variable {transaction : Transaction} {marked : List Node} {filter : AllowList} {now : Nat}
  {ledger : Ledger} {job address : String} {sample : Sample}

theorem new_holds : Transaction.new.Holds [] := by
  intro node
  simp [Transaction.new, get?]

theorem Holds.set (holds : transaction.Holds marked) (pending : PendingTarget) :
    (transaction.set job address pending).Holds (⟨job, address⟩ :: marked) := by
  intro node
  rw [List.mem_cons]
  by_cases own : node = ⟨job, address⟩
  · subst own
    simp [get?_set_self]
  · rw [get?_set_of_ne own, holds node]
    simp [own]

/-- The first accepted sample of a target is a mark for the ledger. -/
theorem Holds.append_fresh (holds : transaction.Holds marked)
    (admitted : filter.admits job address sample.name = true)
    (fresh : (⟨job, address⟩ : Node) ∉ marked) :
    (transaction.append filter now ledger address job sample).1 =
        (ledger.mark (ledgerKey job address) now).1 ∧
      (transaction.append filter now ledger address job sample).2.Holds
        (⟨job, address⟩ :: marked) := by
  have missing : transaction.get? job address = none := by
    rw [← Option.not_isSome_iff_eq_none, holds ⟨job, address⟩]
    exact fresh
  rw [append_of_fresh admitted missing]
  exact ⟨rfl, holds.set _⟩

/-- Any other sample is nothing to the ledger. -/
theorem Holds.append_dropped (holds : transaction.Holds marked)
    (dropped : ¬ (filter.admits job address sample.name = true ∧
      (⟨job, address⟩ : Node) ∉ marked)) :
    (transaction.append filter now ledger address job sample).1 = ledger ∧
      (transaction.append filter now ledger address job sample).2.Holds marked := by
  cases admitted : filter.admits job address sample.name with
  | false =>
      rw [append_of_rejected admitted]
      exact ⟨rfl, holds⟩
  | true =>
      have known : (⟨job, address⟩ : Node) ∈ marked := by
        by_contra fresh
        exact dropped ⟨admitted, fresh⟩
      obtain ⟨pending, held⟩ := Option.isSome_iff_exists.mp ((holds ⟨job, address⟩).mpr known)
      rw [append_of_pending admitted held]
      refine ⟨rfl, fun node => ?_⟩
      rw [holds.set _ node, List.mem_cons]
      exact or_iff_right_of_imp fun own => own ▸ known

end Transaction

namespace Outbox

variable {settings : IntakeSettings γ} {outbox : Outbox γ} {event : OutboxEvent γ} {slot : Nat}
  {events : List (OutboxEvent γ)} {transaction : Transaction} {marked : List Node}

/-- The outbox with a transaction in a slot. -/
def opening (outbox : Outbox γ) (slot : Nat) (transaction : Transaction) : Outbox γ :=
  { outbox with slots := Function.update outbox.slots slot transaction }

theorem opening_self (outbox : Outbox γ) (slot : Nat) :
    outbox.opening slot (outbox.slots slot) = outbox := by
  rw [opening, Function.update_eq_self]

theorem opening_opening (outbox : Outbox γ) (slot : Nat) (first second : Transaction) :
    (outbox.opening slot first).opening slot second = outbox.opening slot second := by
  rw [opening, opening, Function.update_idem]
  rfl

/-- What is done elsewhere goes on as if the slot held something else. -/
theorem perform_opening (settings : IntakeSettings γ) (elsewhere : event.uses slot = false)
    (outbox : Outbox γ) (transaction : Transaction) :
    (outbox.opening slot transaction).perform settings event =
      (outbox.perform settings event).opening slot transaction := by
  cases event with
  | append used now address job sample =>
      have other : used ≠ slot := by simpa [OutboxEvent.uses] using elsewhere
      simp only [perform, opening, Function.update_of_ne other,
        Function.update_comm other.symm]
  | commit closed now =>
      have other : closed ≠ slot := by
        simpa [OutboxEvent.uses, OutboxEvent.closes] using elsewhere
      simp only [perform, opening, Function.update_of_ne other,
        Function.update_comm other.symm]
  | rollback closed =>
      have other : closed ≠ slot := by
        simpa [OutboxEvent.uses, OutboxEvent.closes] using elsewhere
      simp only [perform, opening, Function.update_comm other.symm]
  | resume number now =>
      cases found : outbox.dispatches[number]? <;> simp [perform, opening, found]
  | ledger event => rfl
  | consumer change => rfl

theorem run_opening (settings : IntakeSettings γ)
    (elsewhere : ∀ event ∈ events, event.uses slot = false) (outbox : Outbox γ)
    (transaction : Transaction) :
    run settings (outbox.opening slot transaction) events =
      (run settings outbox events).opening slot transaction := by
  induction events generalizing outbox with
  | nil => rfl
  | cons event rest ih =>
      rw [run, List.foldl_cons, perform_opening settings (elsewhere event List.mem_cons_self)]
      exact ih (fun other member => elsewhere other (List.mem_cons_of_mem _ member)) _

/-- A sample for the slot changes its transaction, and nothing else but the ledger. -/
theorem perform_append (outbox : Outbox γ) (transaction : Transaction) (now : Nat)
    (address job : String) (sample : Sample) :
    let appended := transaction.append settings.filter (settings.ledgerTime now)
      outbox.intake.ledger address job sample
    (outbox.opening slot transaction).perform settings (.append slot now address job sample) =
      opening { outbox with intake := { outbox.intake with ledger := appended.1 } } slot
        appended.2 := by
  simp only [perform, opening, Intake.append, Function.update_self, Function.update_idem]

/-- An open transaction makes no difference to anything outside its slot, but for its marks. -/
theorem run_marksOnly (settings : IntakeSettings γ)
    (opened : ∀ event ∈ events, event.closes slot = false)
    (holds : transaction.Holds marked) (outbox : Outbox γ) :
    ∃ filled, run settings (outbox.opening slot transaction) events =
      (run settings outbox (OutboxEvent.marksOnly settings slot marked events)).opening slot
        filled := by
  induction events generalizing outbox transaction marked with
  | nil => exact ⟨transaction, rfl⟩
  | cons event rest ih =>
      have openedLater : ∀ event ∈ rest, event.closes slot = false :=
        fun other member => opened other (List.mem_cons_of_mem _ member)
      obtain elsewhere | ⟨now, address, job, sample, rfl⟩ :=
        OutboxEvent.uses_cases (opened event List.mem_cons_self)
      · rw [OutboxEvent.marksOnly_of_not_uses elsewhere, run, List.foldl_cons,
          perform_opening settings elsewhere]
        exact ih openedLater holds _
      · rw [run, List.foldl_cons, perform_append]
        by_cases fresh : settings.filter.admits job address sample.name = true ∧
          (⟨job, address⟩ : Node) ∉ marked
        · obtain ⟨ledger, after⟩ := holds.append_fresh fresh.1 fresh.2
          rw [OutboxEvent.marksOnly_of_fresh fresh.1 fresh.2, ledger]
          exact ih openedLater after _
        · obtain ⟨ledger, after⟩ := holds.append_dropped fresh
          rw [OutboxEvent.marksOnly_of_dropped fresh, ledger]
          exact ih openedLater after _

/-- Rolled back, a transaction is its marks. -/
theorem run_rollback (settings : IntakeSettings γ) (free : outbox.slots slot = .new)
    (opened : ∀ event ∈ events, event.closes slot = false) :
    (run settings outbox events).perform settings (.rollback slot) =
      run settings outbox (OutboxEvent.marksOnly settings slot [] events) := by
  have empty : outbox.opening slot .new = outbox := free ▸ outbox.opening_self slot
  obtain ⟨filled, ran⟩ := run_marksOnly settings opened Transaction.new_holds outbox
  rw [empty] at ran
  calc (run settings outbox events).perform settings (.rollback slot)
      _ = (run settings outbox events).opening slot .new := rfl
      _ = (run settings outbox (OutboxEvent.marksOnly settings slot [] events)).opening slot
            .new := by rw [ran, opening_opening]
      _ = run settings outbox (OutboxEvent.marksOnly settings slot [] events) := by
        rw [← run_opening settings (OutboxEvent.not_uses_of_mem_marksOnly opened []), empty]

/-- A slot is free where its transaction was closed last. -/
theorem slots_of_closed (settings : IntakeSettings γ) (ledger : Ledger) (consumer : γ)
    (events : List (OutboxEvent γ)) :
    (run settings (new ledger consumer)
      (events.rdropWhile (fun event => !event.closes slot))).slots slot = .new := by
  induction events using List.reverseRecOn with
  | nil => rfl
  | append_singleton events event ih =>
      rw [List.rdropWhile_concat]
      cases closes : event.closes slot with
      | false => simpa using ih
      | true =>
          rw [if_neg (by simp), run_append]
          cases event with
          | commit closed now =>
              obtain rfl : closed = slot := by simpa [OutboxEvent.closes] using closes
              exact Function.update_self ..
          | rollback closed =>
              obtain rfl : closed = slot := by simpa [OutboxEvent.closes] using closes
              exact Function.update_self ..
          | _ => cases closes

theorem perform_onlyOpens (uses : event.uses slot = true)
    (rolled : event.closes slot = true → event = .rollback slot) (outbox : Outbox γ) :
    (outbox.perform settings event).dispatches = outbox.dispatches ∧
      (outbox.perform settings event).intake.consumer = outbox.intake.consumer ∧
      OnlyOpens outbox.intake.ledger (outbox.perform settings event).intake.ledger := by
  cases event with
  | append used now address job sample =>
      refine ⟨rfl, rfl, ?_⟩
      simp only [perform, Intake.append, Transaction.append]
      split
      · split
        · exact .refl _
        · exact .of_mark _ _ _
      · exact .refl _
  | rollback closed => exact ⟨rfl, rfl, .refl _⟩
  | commit closed now => cases rolled uses
  | _ => cases uses

/-- Rolling a transaction back leaves nothing of it but marks. Put in its place a mark of each of
its targets at the instant at which the first sample of the target was accepted: then the whole
outbox ends up the same, the ledger and all batches that were made and offered included. Nothing
that happens to the transaction itself hands a batch to the consumer, sweeps the ledger, or
changes a series otherwise than by opening a new generation of a stale job. -/
theorem rolled_back_as_marks (settings : IntakeSettings γ) (ledger : Ledger) (consumer : γ)
    (events after : List (OutboxEvent γ)) (slot : Nat) :
    let before := events.rdropWhile (fun event => !event.closes slot)
    let during := events.rtakeWhile (fun event => !event.closes slot)
    run settings (new ledger consumer) (events ++ .rollback slot :: after) =
        run settings (new ledger consumer)
          (before ++ OutboxEvent.marksOnly settings slot [] during ++ after) ∧
      ∀ event ∈ during ++ [.rollback slot], event.uses slot = true →
        ∀ outbox : Outbox γ,
          let next := outbox.perform settings event
          next.dispatches = outbox.dispatches ∧
            next.intake.consumer = outbox.intake.consumer ∧
            OnlyOpens outbox.intake.ledger next.intake.ledger := by
  intro before during
  have opened : ∀ event ∈ during, event.closes slot = false := by
    intro event member
    simpa using List.mem_rtakeWhile_imp member
  constructor
  · have split : events = before ++ during := List.rdropWhile_append_rtakeWhile.symm
    have closed := run_rollback settings (slots_of_closed settings ledger consumer events) opened
    rw [split, List.append_cons, run_append, run_append, run_append, run_append, run_append]
    exact congrArg (run settings · after) closed
  · intro event member uses outbox
    refine perform_onlyOpens uses (fun closes => ?_) outbox
    obtain inside | last := List.mem_append.mp member
    · rw [opened event inside] at closes
      cases closes
    · exact List.mem_singleton.mp last

end Outbox

end ScrapeRelay
