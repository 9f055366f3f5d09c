import Mathlib.Data.List.DropRight
import Mathlib.Logic.Function.Basic
import ScrapeRelay.Proofs.Ledger.Operations
import ScrapeRelay.Proofs.Sink.Translation
import ScrapeRelay.Transaction

/-!
# Transactions side by side

A desk is a ledger with any number of open transactions, each in a slot of its own, and a
run is any sequence of events at a desk: samples are appended to any of the transactions,
transactions are committed or rolled back, and the ledger is used from outside. A slot
whose transaction was closed is free for the next one.

What a transaction holds is what was accepted for it since its slot was free
(`run_collects`), whatever goes on in other slots, and its batches hold exactly that
(`commit_renders`).
-/

namespace ScrapeRelay

/-- The order of jobs, and within a job of addresses. -/
def Node.Before (left right : Node) : Prop :=
  left.job < right.job ∨ (left.job = right.job ∧ left.address < right.address)

/-- The samples of one target among samples of any. -/
def Node.samplesIn (node : Node) (accepted : List (Node × Sample)) : List Sample :=
  (accepted.filter (fun entry => entry.1 = node)).map Prod.snd

theorem Node.samplesIn_concat (node : Node) (accepted : List (Node × Sample))
    (entry : Node × Sample) :
    node.samplesIn (accepted ++ [entry]) =
      node.samplesIn accepted ++ if entry.1 = node then [entry.2] else [] := by
  by_cases own : entry.1 = node <;> simp [Node.samplesIn, List.filter_append, own]

theorem Node.mem_samplesIn {node : Node} {accepted : List (Node × Sample)} {sample : Sample} :
    sample ∈ node.samplesIn accepted ↔ (node, sample) ∈ accepted := by
  simp only [Node.samplesIn, List.mem_map, List.mem_filter, decide_eq_true_eq]
  constructor
  · rintro ⟨entry, ⟨member, rfl⟩, rfl⟩
    exact member
  · intro member
    exact ⟨(node, sample), ⟨member, rfl⟩, rfl⟩

namespace Transaction

variable {transaction : Transaction} {job other address place : String} {pending : PendingTarget}
  {filter : AllowList} {now : Nat} {ledger : Ledger} {sample : Sample}
  {accepted : List (Node × Sample)}

theorem get?_set_self : (transaction.set job address pending).get? job address = some pending := by
  simp [get?, set, SortedMap.update]

theorem get?_set_of_ne (different : (⟨other, place⟩ : Node) ≠ ⟨job, address⟩) :
    (transaction.set job address pending).get? other place = transaction.get? other place := by
  by_cases sameJob : other = job
  · subst sameJob
    have apart : place ≠ address := by
      rintro rfl
      exact different rfl
    cases held : transaction.pending.get? other <;>
      simp [get?, set, SortedMap.update, held, SortedMap.get?_insert_of_ne apart]
  · simp [get?, set, SortedMap.update, SortedMap.get?_insert_of_ne sameJob]

theorem mem_targets_iff {node : Node} :
    (node, pending) ∈ transaction.targets ↔
      transaction.get? node.job node.address = some pending := by
  simp only [targets, List.mem_flatMap, List.mem_map, get?]
  constructor
  · rintro ⟨entry, member, target, inside, same⟩
    obtain ⟨rfl, rfl⟩ := Prod.mk.inj same
    simp only [SortedMap.get?_eq_some_iff.mpr member]
    exact SortedMap.get?_eq_some_iff.mpr inside
  · intro found
    cases held : transaction.pending.get? node.job with
    | none => simp [held] at found
    | some targets =>
        simp only [held] at found
        exact ⟨(node.job, targets), SortedMap.get?_eq_some_iff.mp held, (node.address, pending),
          SortedMap.get?_eq_some_iff.mp found, rfl⟩

theorem targets_ascending (transaction : Transaction) :
    (transaction.targets.map Prod.fst).Pairwise Node.Before := by
  refine List.pairwise_map.mpr (List.pairwise_flatMap.mpr ⟨?_, ?_⟩)
  · intro entry _
    refine List.pairwise_map.mpr (entry.2.ascending.imp ?_)
    intro left right before
    exact .inr ⟨rfl, before⟩
  · refine transaction.pending.ascending.imp ?_
    intro left right before first firstMember second secondMember
    obtain ⟨_, _, rfl⟩ := List.mem_map.mp firstMember
    obtain ⟨_, _, rfl⟩ := List.mem_map.mp secondMember
    exact .inl before

/-- A transaction holds, for each target, what was accepted for it, and no target without a
sample. -/
def Collects (transaction : Transaction) (accepted : List (Node × Sample)) : Prop :=
  ∀ node : Node, (transaction.get? node.job node.address).map PendingTarget.samples =
    if node.samplesIn accepted = [] then none else some (node.samplesIn accepted)

theorem new_collects : Transaction.new.Collects [] := by
  intro node
  rfl

theorem append_of_rejected (rejected : filter.admits job address sample.name = false) :
    transaction.append filter now ledger address job sample = (ledger, transaction) := by
  simp [append, rejected]

theorem append_of_pending (admitted : filter.admits job address sample.name = true)
    (held : transaction.get? job address = some pending) :
    transaction.append filter now ledger address job sample =
      (ledger, transaction.set job address
        { pending with samples := pending.samples ++ [sample] }) := by
  simp [append, admitted, held]

theorem append_of_fresh (admitted : filter.admits job address sample.name = true)
    (fresh : transaction.get? job address = none) :
    transaction.append filter now ledger address job sample =
      ((ledger.mark (ledgerKey job address) now).1, transaction.set job address
        ⟨(ledger.mark (ledgerKey job address) now).2.generation, [sample]⟩) := by
  simp [append, admitted, fresh]

theorem Collects.append (collects : transaction.Collects accepted)
    (admitted : filter.admits job address sample.name = true) (now : Nat) (ledger : Ledger) :
    (transaction.append filter now ledger address job sample).2.Collects
      (accepted ++ [(⟨job, address⟩, sample)]) := by
  -- In either case the target's samples grow by the new one, and the others stay.
  have grown {pending : PendingTarget}
      (samples : pending.samples = Node.samplesIn ⟨job, address⟩ accepted ++ [sample]) :
      (transaction.set job address pending).Collects
        (accepted ++ [(⟨job, address⟩, sample)]) := by
    intro node
    rw [Node.samplesIn_concat]
    by_cases own : (⟨job, address⟩ : Node) = node
    · subst own
      rw [get?_set_self, Option.map_some, samples, if_pos rfl, if_neg (by simp)]
    · rw [get?_set_of_ne (fun same => own same.symm), collects node, if_neg own, List.append_nil]
  have before := collects ⟨job, address⟩
  unfold Transaction.append
  rw [if_pos admitted]
  cases held : transaction.get? job address with
  | some pending =>
      refine grown ?_
      rw [held, Option.map_some] at before
      split at before
      · cases before
      · rw [Option.some.inj before]
  | none =>
      refine grown ?_
      rw [held, Option.map_none] at before
      split at before
      · rename_i empty
        rw [empty]
        rfl
      · cases before

theorem Collects.present_iff (collects : transaction.Collects accepted) {node : Node} :
    node ∈ transaction.targets.map Prod.fst ↔ ∃ sample, (node, sample) ∈ accepted := by
  have held := collects node
  constructor
  · intro member
    obtain ⟨⟨_, pending⟩, listed, rfl⟩ := List.mem_map.mp member
    rw [mem_targets_iff.mp listed, Option.map_some] at held
    split at held
    · cases held
    · rename_i filled
      obtain ⟨sample, inside⟩ := List.exists_mem_of_ne_nil _ filled
      exact ⟨sample, Node.mem_samplesIn.mp inside⟩
  · rintro ⟨sample, member⟩
    have filled : node.samplesIn accepted ≠ [] := List.ne_nil_of_mem (Node.mem_samplesIn.mpr member)
    rw [if_neg filled] at held
    obtain ⟨pending, found, _⟩ := Option.map_eq_some_iff.mp held
    exact List.mem_map.mpr ⟨(node, pending), mem_targets_iff.mpr found, rfl⟩

theorem Collects.samples (collects : transaction.Collects accepted) {node : Node}
    (member : (node, pending) ∈ transaction.targets) :
    pending.samples = node.samplesIn accepted := by
  have held := collects node
  rw [mem_targets_iff.mp member, Option.map_some] at held
  split at held
  · cases held
  · exact Option.some.inj held

theorem batchesOf_nodes (receiver : String) (ledger : Ledger)
    (targets : List (Node × PendingTarget)) :
    (batchesOf receiver ledger targets).2.map Batch.node = targets.map Prod.fst := by
  induction targets generalizing ledger with
  | nil => rfl
  | cons target rest ih => simp only [batchesOf, List.map_cons, ih]

theorem mem_batchesOf {receiver : String} {targets : List (Node × PendingTarget)} {batch : Batch}
    (member : batch ∈ (batchesOf receiver ledger targets).2) :
    ∃ pending, (batch.node, pending) ∈ targets ∧ ∃ before : Ledger, batch.metrics =
      (Translation.metricsOf before (ledgerKey batch.node.job batch.node.address)
        pending.samples).2 := by
  induction targets generalizing ledger with
  | nil => simp [batchesOf] at member
  | cons target rest ih =>
      simp only [batchesOf] at member
      rcases List.mem_cons.mp member with rfl | later
      · exact ⟨target.2, List.mem_cons_self, ledger, rfl⟩
      · obtain ⟨pending, listed, made⟩ := ih later
        exact ⟨pending, List.mem_cons_of_mem _ listed, made⟩

/-- The batch of a target is made with the ledger as the targets before it have left it. -/
theorem batchesOf_getElem? (receiver : String) (ledger : Ledger)
    (targets : List (Node × PendingTarget)) (place : Fin targets.length) :
    (batchesOf receiver ledger targets).2[place.val]? =
      some ⟨receiver, targets[place].1, targets[place].2.generation,
        (Translation.metricsOf (batchesOf receiver ledger (targets.take place)).1
          (ledgerKey targets[place].1.job targets[place].1.address)
          targets[place].2.samples).2⟩ := by
  induction targets generalizing ledger with
  | nil => exact place.elim0
  | cons target rest ih =>
      cases place using Fin.cases with
      | zero => rfl
      | succ place => exact ih _ place

/-- A transaction is closed with one batch for each target that has samples. -/
theorem Collects.mem_batches_iff (collects : transaction.Collects accepted) {receiver : String}
    {node : Node} :
    node ∈ (transaction.commit receiver now ledger).2.map Batch.node ↔
      ∃ sample, (node, sample) ∈ accepted := by
  have nodes : (transaction.commit receiver now ledger).2.map Batch.node =
      transaction.targets.map Prod.fst := batchesOf_nodes receiver ledger _
  rw [nodes]
  exact collects.present_iff

/-- The batch of a target holds its samples. -/
theorem Collects.batch_renders (collects : transaction.Collects accepted) {receiver : String}
    {batch : Batch} (member : batch ∈ (transaction.commit receiver now ledger).2) :
    Renders batch.metrics (batch.node.samplesIn accepted) := by
  obtain ⟨pending, listed, before, made⟩ := mem_batchesOf member
  rw [made, ← collects.samples listed]
  exact Translation.metricsOf_renders before _ _

end Transaction

inductive DeskEvent where
  | append (slot now : Nat) (address job : String) (sample : Sample)
  | commit (slot now : Nat)
  | rollback (slot : Nat)
  /-- The ledger is used from outside. -/
  | ledger (event : LedgerEvent)

namespace DeskEvent

def closes (slot : Nat) : DeskEvent → Bool
  | .commit closed _ => closed = slot
  | .rollback closed => closed = slot
  | _ => false

/-- What an event adds to the transaction of a slot, if the allow lists let it through. -/
def accepted? (filter : AllowList) (slot : Nat) : DeskEvent → Option (Node × Sample)
  | .append used _ address job sample =>
      if used = slot && filter.admits job address sample.name then some (⟨job, address⟩, sample)
      else none
  | _ => none

end DeskEvent

structure Desk where
  ledger : Ledger
  slots : Nat → Transaction

namespace Desk

variable {receiver : String} {filter : AllowList}

/-- What was accepted for the open transaction of a slot, in the order of the appends. -/
def accepted (filter : AllowList) (slot : Nat) (events : List DeskEvent) : List (Node × Sample) :=
  (events.rtakeWhile (fun event => !event.closes slot)).filterMap (·.accepted? filter slot)

def new (ledger : Ledger) : Desk := ⟨ledger, fun _ => .new⟩

def perform (receiver : String) (filter : AllowList) (desk : Desk) : DeskEvent → Desk
  | .append slot now address job sample =>
      let (ledger, transaction) :=
        (desk.slots slot).append filter now desk.ledger address job sample
      ⟨ledger, Function.update desk.slots slot transaction⟩
  | .commit slot now =>
      ⟨((desk.slots slot).commit receiver now desk.ledger).1,
        Function.update desk.slots slot .new⟩
  | .rollback slot => { desk with slots := Function.update desk.slots slot .new }
  | .ledger event => { desk with ledger := desk.ledger.perform event }

def run (receiver : String) (filter : AllowList) (desk : Desk) (events : List DeskEvent) : Desk :=
  events.foldl (perform receiver filter) desk

/-- The batches that an event makes, if it is a commit. -/
def made? (receiver : String) (desk : Desk) : DeskEvent → Option (List Batch)
  | .commit slot now => some ((desk.slots slot).commit receiver now desk.ledger).2
  | _ => none

/-- The batches that the commits of a run make, commit by commit. -/
def committed (receiver : String) (filter : AllowList) (desk : Desk) :
    List DeskEvent → List (List Batch)
  | [] => []
  | event :: rest =>
      (desk.made? receiver event).toList ++
        committed receiver filter (desk.perform receiver filter event) rest

theorem accepted_concat (slot : Nat) (events : List DeskEvent) (event : DeskEvent) :
    accepted filter slot (events ++ [event]) =
      if event.closes slot then []
      else accepted filter slot events ++ (event.accepted? filter slot).toList := by
  unfold accepted
  rw [List.rtakeWhile_concat]
  cases event.closes slot with
  | true => simp
  | false => cases found : event.accepted? filter slot <;> simp [found]

/-- A slot whose transaction was closed holds nothing, and the others what they held. -/
theorem closed_collects {slots : Nat → Transaction} {events : List DeskEvent} {slot : Nat}
    (collects : (slots slot).Collects (accepted filter slot events)) (closed : Nat) :
    (Function.update slots closed .new slot).Collects
      (if closed = slot then [] else accepted filter slot events) := by
  by_cases own : closed = slot
  · subst own
    rw [Function.update_self, if_pos rfl]
    exact Transaction.new_collects
  · rw [Function.update_of_ne (Ne.symm own), if_neg own]
    exact collects

theorem perform_collects {desk : Desk} {events : List DeskEvent}
    (collects : ∀ slot, (desk.slots slot).Collects (accepted filter slot events))
    (event : DeskEvent) (slot : Nat) :
    ((desk.perform receiver filter event).slots slot).Collects
      (accepted filter slot (events ++ [event])) := by
  rw [accepted_concat]
  cases event with
  | append used now address job sample =>
      simp only [DeskEvent.closes, Bool.false_eq_true, if_false, perform]
      by_cases own : slot = used
      · subst own
        rw [Function.update_self]
        cases admitted : filter.admits job address sample.name with
        | true =>
            simpa [DeskEvent.accepted?, admitted] using
              (collects slot).append admitted now desk.ledger
        | false =>
            rw [Transaction.append_of_rejected admitted]
            simpa [DeskEvent.accepted?, admitted] using collects slot
      · rw [Function.update_of_ne own]
        simpa [DeskEvent.accepted?, Ne.symm own] using collects slot
  | commit closed now =>
      simpa [perform, DeskEvent.closes, DeskEvent.accepted?]
        using closed_collects (collects slot) closed
  | rollback closed =>
      simpa [perform, DeskEvent.closes, DeskEvent.accepted?]
        using closed_collects (collects slot) closed
  | ledger event => simpa [perform, DeskEvent.closes, DeskEvent.accepted?] using collects slot

theorem run_collects (receiver : String) (filter : AllowList) (ledger : Ledger)
    (events : List DeskEvent) (slot : Nat) :
    ((run receiver filter (new ledger) events).slots slot).Collects
      (accepted filter slot events) := by
  induction events using List.reverseRecOn generalizing slot with
  | nil => exact Transaction.new_collects
  | append_singleton events event ih =>
      rw [run, List.foldl_append, List.foldl_cons, List.foldl_nil]
      exact perform_collects ih event slot

/-- Committing a transaction makes one batch for each target with accepted samples, in the
order of jobs and then of addresses, and each holds exactly the samples of its target. -/
theorem commit_renders (receiver : String) (filter : AllowList) (ledger : Ledger)
    (events : List DeskEvent) (slot now : Nat) :
    let desk := run receiver filter (new ledger) events
    let batches := ((desk.slots slot).commit receiver now desk.ledger).2
    (batches.map Batch.node).Pairwise Node.Before ∧
      (∀ node, node ∈ batches.map Batch.node ↔
        ∃ sample, (node, sample) ∈ accepted filter slot events) ∧
      ∀ batch ∈ batches,
        Renders batch.metrics (batch.node.samplesIn (accepted filter slot events)) := by
  intro desk batches
  have collects : (desk.slots slot).Collects (accepted filter slot events) :=
    run_collects receiver filter ledger events slot
  have nodes : batches.map Batch.node = (desk.slots slot).targets.map Prod.fst :=
    Transaction.batchesOf_nodes receiver desk.ledger _
  refine ⟨?_, ?_, ?_⟩
  · rw [nodes]
    exact Transaction.targets_ascending _
  · intro node
    rw [nodes]
    exact collects.present_iff
  · intro batch member
    obtain ⟨pending, listed, before, made⟩ := Transaction.mem_batchesOf member
    rw [made, ← collects.samples listed]
    exact Translation.metricsOf_renders before _ _

end Desk

end ScrapeRelay
