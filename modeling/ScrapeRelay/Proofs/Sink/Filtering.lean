import ScrapeRelay.Proofs.Sink.Desk

/-!
# Samples that are filtered out

A sample that the allow lists do not let through is as if it had never been scraped: its append
changes neither the ledger nor any transaction, so it may be left out of a run wherever it
stands (`run_of_rejected`). A record is touched only by a sample that passes, and by marks from
outside (`run_leavesUntouched`).
-/

namespace ScrapeRelay

namespace AllowList

variable {list : AllowList} {job address name : String}

/-- A name passes for a target if it is in the list of the address, where the address has one,
and else if it is in the list of the job, where the job has one. -/
def Permits (list : AllowList) (job address name : String) : Prop :=
  (∀ allowed, list.names.get? address = some allowed → name ∈ allowed) ∧
    (list.names.get? address = none →
      ∀ allowed, list.names.get? job = some allowed → name ∈ allowed)

theorem allows_of_entry {endpoint : String} {allowed : List String}
    (entry : list.names.get? endpoint = some allowed) :
    list.allows endpoint name = allowed.contains name := by
  simp only [allows, entry]

theorem admits_of_address {allowed : List String}
    (entry : list.names.get? address = some allowed) :
    list.admits job address name = allowed.contains name := by
  have restricted : list.restricts address = true := by
    rw [restricts, SortedMap.contains, entry]
    rfl
  rw [admits, if_pos restricted, allows_of_entry entry]

theorem admits_of_no_address (missing : list.names.get? address = none) :
    list.admits job address name = list.allows job name := by
  have free : list.restricts address = false := by
    rw [restricts, SortedMap.contains, missing]
    rfl
  rw [admits, if_neg (by simp [free])]

theorem admits_iff : list.admits job address name = true ↔ list.Permits job address name := by
  cases address? : list.names.get? address with
  | some allowed => simp [admits_of_address address?, Permits, address?]
  | none =>
      rw [admits_of_no_address address?]
      cases job? : list.names.get? job with
      | some allowed => simp [allows_of_entry job?, Permits, address?, job?]
      | none => simp [allows, Permits, address?, job?]

instance : Decidable (list.Permits job address name) := decidable_of_iff _ admits_iff

example : ¬AllowList.Permits ⟨SortedMap.empty.insert "web" []⟩ "web" "10.0.0.1:80" "up" := by decide

end AllowList

namespace Transaction

theorem batchesOf_leavesUntouched (key receiver : String) (ledger : Ledger)
    (targets : List (Node × PendingTarget)) :
    Ledger.LeavesUntouched key ledger (batchesOf receiver ledger targets).1 := by
  induction targets generalizing ledger with
  | nil => exact .refl key ledger
  | cons target rest ih =>
      have translated := Translation.metricsOf_keeps
        (fun before kept series value time =>
          Ledger.LeavesUntouched.trans kept (.of_observe key before
            (ledgerKey target.1.job target.1.address) series value time))
        (.refl key ledger) target.2.samples
      exact translated.trans (ih _)

/-- A commit keeps no target alive. -/
theorem commit_leavesUntouched (key receiver : String) (now : Nat) (ledger : Ledger)
    (transaction : Transaction) :
    Ledger.LeavesUntouched key ledger (transaction.commit receiver now ledger).1 :=
  (batchesOf_leavesUntouched key receiver ledger _).trans (.of_sweepIfDue key _ now)

end Transaction

namespace DeskEvent

/-- A sample that the allow lists do not let through. -/
def IsRejected (filter : AllowList) : DeskEvent → Prop
  | .append _ _ address job sample => ¬filter.Permits job address sample.name
  | _ => False

/-- What an event would add to the transaction of a slot if there were no allow lists. -/
def appended? (slot : Nat) : DeskEvent → Option (Node × Sample)
  | .append used _ address job sample =>
      if used = slot then some (⟨job, address⟩, sample) else none
  | _ => none

/-- Whether an event may touch the record of a key: a sample that passes, or a mark. -/
def Touches (filter : AllowList) (key : String) : DeskEvent → Prop
  | .append _ _ address job sample =>
      Transaction.ledgerKey job address = key ∧ filter.Permits job address sample.name
  | .ledger (.mark job _) => job = key
  | _ => False

theorem accepted?_eq (filter : AllowList) (slot : Nat) (event : DeskEvent) :
    event.accepted? filter slot = (event.appended? slot).filter (fun entry =>
      filter.Permits entry.1.job entry.1.address entry.2.name) := by
  cases event with
  | append used now address job sample =>
      by_cases own : used = slot <;>
        simp [accepted?, appended?, own, Option.filter, ← AllowList.admits_iff]
  | commit _ _ => rfl
  | rollback _ => rfl
  | ledger _ => rfl

end DeskEvent

namespace Desk

variable {receiver : String} {filter : AllowList} {desk : Desk} {event : DeskEvent}

/-- What was appended to the open transaction of a slot, whether it passed or not. -/
def appended (slot : Nat) (events : List DeskEvent) : List (Node × Sample) :=
  (events.rtakeWhile (fun event => !event.closes slot)).filterMap (·.appended? slot)

theorem accepted_eq (filter : AllowList) (slot : Nat) (events : List DeskEvent) :
    accepted filter slot events = (appended slot events).filter (fun entry =>
      filter.Permits entry.1.job entry.1.address entry.2.name) := by
  rw [accepted, appended, List.filter_filterMap]
  exact congrArg (List.filterMap · _) (funext fun event => event.accepted?_eq filter slot)

theorem perform_of_rejected (rejected : event.IsRejected filter) :
    desk.perform receiver filter event = desk := by
  cases event with
  | append slot now address job sample =>
      have refused : filter.admits job address sample.name = false := by
        simpa [DeskEvent.IsRejected, ← AllowList.admits_iff] using rejected
      simp only [perform, Transaction.append_of_rejected refused, Function.update_eq_self]
  | commit _ _ => exact rejected.elim
  | rollback _ => exact rejected.elim
  | ledger _ => exact rejected.elim

theorem made?_of_rejected (rejected : event.IsRejected filter) :
    desk.made? receiver event = none := by
  cases event with
  | commit _ _ => exact rejected.elim
  | append _ _ _ _ _ => rfl
  | rollback _ => rfl
  | ledger _ => rfl

/-- Rejected samples may be left out of a run. -/
theorem run_of_rejected {dropped : DeskEvent → Bool} {events : List DeskEvent}
    (rejected : ∀ event ∈ events, dropped event = true → event.IsRejected filter) (desk : Desk) :
    let kept := events.filter (fun event => !dropped event)
    run receiver filter desk kept = run receiver filter desk events ∧
      committed receiver filter desk kept = committed receiver filter desk events := by
  induction events generalizing desk with
  | nil => exact ⟨rfl, rfl⟩
  | cons event rest ih =>
      have later := ih (fun other member => rejected other (List.mem_cons_of_mem _ member))
      cases drop : dropped event with
      | true =>
          have refused := rejected event List.mem_cons_self drop
          obtain ⟨state, batches⟩ := later desk
          simp only [List.filter_cons, drop, Bool.not_true, Bool.false_eq_true, if_false, run,
            List.foldl_cons, committed, perform_of_rejected refused, made?_of_rejected refused]
          exact ⟨state, batches⟩
      | false =>
          obtain ⟨state, batches⟩ := later (desk.perform receiver filter event)
          simp only [List.filter_cons, drop, Bool.not_false, if_true, run, List.foldl_cons,
            committed]
          exact ⟨state, congrArg _ batches⟩

theorem perform_leavesUntouched {key : String} (spared : ¬event.Touches filter key)
    (receiver : String) (desk : Desk) :
    Ledger.LeavesUntouched key desk.ledger (desk.perform receiver filter event).ledger := by
  cases event with
  | append slot now address job sample =>
      simp only [perform, Transaction.append]
      split
      · rename_i admitted
        have apart : key ≠ Transaction.ledgerKey job address := by
          rintro rfl
          exact spared ⟨rfl, AllowList.admits_iff.mp admitted⟩
        split
        · exact .refl key desk.ledger
        · exact .of_mark apart desk.ledger now
      · exact .refl key desk.ledger
  | commit slot now =>
      exact Transaction.commit_leavesUntouched key receiver now desk.ledger (desk.slots slot)
  | rollback slot => exact .refl key desk.ledger
  | ledger event =>
      cases event with
      | mark job now => exact .of_mark (fun same => spared same.symm) desk.ledger now
      | observe job series value time => exact .of_observe key desk.ledger job series value time
      | sweep now window => exact .of_sweep key desk.ledger now window
      | sweepIfDue now => exact .of_sweepIfDue key desk.ledger now

theorem run_leavesUntouched {key : String} {events : List DeskEvent}
    (spared : ∀ event ∈ events, ¬event.Touches filter key) (receiver : String) (desk : Desk) :
    Ledger.LeavesUntouched key desk.ledger (run receiver filter desk events).ledger := by
  induction events generalizing desk with
  | nil => exact .refl key desk.ledger
  | cons event rest ih =>
      have now := perform_leavesUntouched (spared event List.mem_cons_self) receiver desk
      exact now.trans (ih (fun other member => spared other (List.mem_cons_of_mem _ member)) _)

/-- A commit forwards the appended samples that the allow lists permit, and no others. Leaving
rejected samples out of a run, all of them or those of some targets only, makes no difference
to the ledger, to the open transactions or to the batches of any commit; and the record of a key
for which no sample passes is neither opened nor kept alive. -/
theorem rejected_as_if_never_scraped (receiver : String) (filter : AllowList) (ledger : Ledger)
    (events : List DeskEvent) (slot now : Nat) :
    let permitted := (appended slot events).filter (fun entry =>
      filter.Permits entry.1.job entry.1.address entry.2.name)
    let desk := run receiver filter (new ledger) events
    let batches := ((desk.slots slot).commit receiver now desk.ledger).2
    (∀ node, node ∈ batches.map Batch.node ↔ ∃ sample, (node, sample) ∈ permitted) ∧
      (∀ batch ∈ batches, Renders batch.metrics (batch.node.samplesIn permitted)) ∧
      (∀ dropped : DeskEvent → Bool,
        (∀ event ∈ events, dropped event = true → event.IsRejected filter) →
          let kept := events.filter (fun event => !dropped event)
          run receiver filter (new ledger) kept = desk ∧
            committed receiver filter (new ledger) kept =
              committed receiver filter (new ledger) events) ∧
      ∀ key, (∀ event ∈ events, ¬event.Touches filter key) →
        Ledger.LeavesUntouched key ledger desk.ledger := by
  intro permitted desk batches
  have collects : (desk.slots slot).Collects permitted := by
    have held := run_collects receiver filter ledger events slot
    rwa [accepted_eq] at held
  refine ⟨?_, ?_, ?_, ?_⟩
  · intro node
    exact collects.mem_batches_iff
  · intro batch member
    exact collects.batch_renders member
  · intro dropped rejected
    exact run_of_rejected rejected (new ledger)
  · intro key spared
    exact run_leavesUntouched spared receiver (new ledger)

end Desk

end ScrapeRelay
