import ScrapeRelay.Proofs.Sink.Filtering
import ScrapeRelay.Proofs.Sink.Isolation

/-!
# A target among others

A target is visited time and again. The samples of a visit are appended to a transaction in a
slot that the target has for itself, and the visit ends with its commit. Around and between
these appends other targets do what they like in other slots, and the ledger is swept.

All that the target notices of the others is whether its record was dropped when it was stale
(`Ledger.Endures`). So a visit comes to one mark of the target and one batch, with what is
observed for it (`Desk.run_visit`).
-/

namespace ScrapeRelay

namespace Ledger

variable {key : String} {now time : Nat} {before middle after ledger : Ledger}

/-- A ledger was used up to an instant, but not for one key. The record of the key is as it
was, unless it was stale and was dropped. -/
structure Endures (key : String) (now : Nat) (before after : Ledger) : Prop where
  window : after.window = before.window
  nextGeneration : before.nextGeneration ≤ after.nextGeneration
  record : after.records.get? key = before.records.get? key ∨
    (after.records.get? key = none ∧ before.isStale key now before.window = true)

namespace Endures

theorem refl (key : String) (now : Nat) (ledger : Ledger) : Endures key now ledger ledger :=
  ⟨rfl, le_rfl, .inl rfl⟩

theorem trans (first : Endures key now before middle) (second : Endures key now middle after) :
    Endures key now before after := by
  refine ⟨second.window.trans first.window,
    first.nextGeneration.trans second.nextGeneration, ?_⟩
  rcases second.record with same | ⟨dropped, stale⟩
  · rw [same]
    exact first.record
  · refine .inr ⟨dropped, ?_⟩
    rcases first.record with same | ⟨_, stale'⟩
    · rw [← isStale_congr same, ← first.window]
      exact stale
    · exact stale'

theorem of_spares (now : Nat) (spares : Spares key before after) :
    Endures key now before after :=
  ⟨spares.window, spares.nextGeneration, .inl spares.record⟩

theorem of_sweep (order : time ≤ now) (key : String) (ledger : Ledger) :
    Endures key now ledger (ledger.sweep time ledger.window).1 := by
  refine ⟨rfl, le_rfl, ?_⟩
  rw [sweep_get?]
  cases known : ledger.records.get? key with
  | none => exact .inl rfl
  | some record =>
      cases quiet : record.isQuiet time ledger.window with
      | false => exact .inl (by simp [Option.filter, quiet])
      | true =>
          refine .inr ⟨by simp [Option.filter, quiet], ?_⟩
          rw [isStale_of_known known]
          exact record.isQuiet_later order quiet

theorem of_sweepIfDue (order : time ≤ now) (key : String) (ledger : Ledger) :
    Endures key now ledger (ledger.sweepIfDue time).1 := by
  rcases ledger.sweepIfDue_cases time with swept | same
  · rw [swept]
    exact of_sweep order key ledger
  · rw [same]
    exact refl key now ledger

end Endures

end Ledger

open Ledger (Endures)

theorem Translation.metricsOf_window (ledger : Ledger) (job : String) (samples : List Sample) :
    (metricsOf ledger job samples).1.window = ledger.window := by
  have step (before : Ledger) (same : before.window = ledger.window) (key : String)
      (value : Binary64) (time : Int64) :
      (before.observe job key value time).1.window = ledger.window :=
    (before.observe_frame job key value time).1.trans same
  exact metricsOf_keeps step rfl samples

namespace Transaction

variable {key : String} {now time : Nat} {node : Node} {pending : PendingTarget}
  {transaction : Transaction}

theorem batchesOf_spares {targets : List (Node × PendingTarget)}
    (apart : ∀ target ∈ targets, target.1.key ≠ key) (receiver : String) (ledger : Ledger) :
    Ledger.Spares key ledger (batchesOf receiver ledger targets).1 := by
  induction targets generalizing ledger with
  | nil => exact .refl key ledger
  | cons target rest ih =>
      have own := metricsOf_spares (apart target List.mem_cons_self).symm ledger target.2.samples
      exact own.trans (ih (fun other member => apart other (List.mem_cons_of_mem _ member)) _)

theorem commit_endures (apart : ∀ target ∈ transaction.targets, target.1.key ≠ key)
    (order : time ≤ now) (receiver : String) (ledger : Ledger) :
    Endures key now ledger (transaction.commit receiver time ledger).1 :=
  (Endures.of_spares now (batchesOf_spares apart receiver ledger)).trans
    (.of_sweepIfDue order key _)

/-- A transaction that holds samples of one target only. -/
theorem targets_of_lone
    (lone : ∀ other : Node, transaction.get? other.job other.address =
      if other = node then some pending else none) : transaction.targets = [(node, pending)] := by
  have member : (node, pending) ∈ transaction.targets :=
    mem_targets_iff.mpr ((lone node).trans (if_pos rfl))
  have only (target : Node × PendingTarget) (inside : target ∈ transaction.targets) :
      target = (node, pending) := by
    have found := mem_targets_iff.mp inside
    rw [lone] at found
    split at found
    · rename_i own
      exact Prod.ext own (Option.some.inj found).symm
    · cases found
  have ascending := transaction.targets_ascending
  generalize transaction.targets = targets at member only ascending
  match targets with
  | [] => simp at member
  | [first] => rw [only first List.mem_cons_self]
  | first :: second :: rest =>
      have before := (List.pairwise_cons.mp ascending).1 second.1 (by simp)
      rw [only first (by simp), only second (by simp)] at before
      exact absurd before node.before_irrefl

end Transaction

namespace DeskEvent

/-- The instant that an event gives to the ledger. -/
def now? : DeskEvent → Option Nat
  | .append _ now _ _ _ => some now
  | .commit _ now => some now
  | .rollback _ => none
  | .ledger (.mark _ now) => some now
  | .ledger (.observe _ _ _ _) => none
  | .ledger (.sweep now _) => some now
  | .ledger (.sweepIfDue now) => some now

/-- An event that is of no use to a slot and a key: the samples that pass are for other keys
and in other slots, and the ledger is swept with its own window. -/
def IsElsewhere (filter : AllowList) (slot : Nat) (key : String) (window : Duration) :
    DeskEvent → Prop
  | .append used _ address job sample =>
      filter.Permits job address sample.name →
        used ≠ slot ∧ Transaction.ledgerKey job address ≠ key
  | .commit closed _ => closed ≠ slot
  | .rollback closed => closed ≠ slot
  | .ledger (.mark job _) => job ≠ key
  | .ledger (.observe job _ _ _) => job ≠ key
  | .ledger (.sweep _ limit) => limit = window
  | .ledger (.sweepIfDue _) => True

theorem accepted?_elsewhere {filter : AllowList} {slot : Nat} {key : String}
    {window : Duration} {event : DeskEvent}
    (elsewhere : event.IsElsewhere filter slot key window) :
    event.accepted? filter slot = none := by
  rw [accepted?_eq]
  cases event with
  | append used now address job sample =>
      by_cases own : used = slot
      · have refused : ¬filter.Permits job address sample.name :=
          fun passes => (elsewhere passes).1 own
        simp [appended?, own, Option.filter, refused]
      · simp [appended?, own]
  | commit _ _ => rfl
  | rollback _ => rfl
  | ledger _ => rfl

end DeskEvent

namespace Desk

variable {receiver : String} {filter : AllowList} {node : Node} {slot now : Nat}
  {held : Option PendingTarget} {desk : Desk} {event : DeskEvent}

/-- The batches that an event makes for a target. -/
def madeFor (receiver : String) (node : Node) (desk : Desk) (event : DeskEvent) : List Batch :=
  ((desk.made? receiver event).getD []).filter (fun batch => batch.node = node)

/-- The batches that the commits of a run make for a target. -/
def batchesFor (receiver : String) (filter : AllowList) (node : Node) (desk : Desk)
    (events : List DeskEvent) : List Batch :=
  (node.batchesIn (desk.committed receiver filter events)).flatten

theorem batchesFor_cons (event : DeskEvent) (rest : List DeskEvent) :
    desk.batchesFor receiver filter node (event :: rest) =
      desk.madeFor receiver node event ++
        (desk.perform receiver filter event).batchesFor receiver filter node rest := by
  simp only [batchesFor, committed, madeFor, Node.batchesIn, List.map_append, List.flatten_append]
  cases desk.made? receiver event <;> simp

theorem run_cons (event : DeskEvent) (rest : List DeskEvent) :
    desk.run receiver filter (event :: rest) =
      (desk.perform receiver filter event).run receiver filter rest := rfl

theorem run_append (first second : List DeskEvent) :
    desk.run receiver filter (first ++ second) =
      (desk.run receiver filter first).run receiver filter second :=
  List.foldl_append

theorem batchesFor_append (first second : List DeskEvent) :
    desk.batchesFor receiver filter node (first ++ second) =
      desk.batchesFor receiver filter node first ++
        (desk.run receiver filter first).batchesFor receiver filter node second := by
  induction first generalizing desk with
  | nil => rfl
  | cons event rest ih =>
      rw [List.cons_append, batchesFor_cons, batchesFor_cons, ih, List.append_assoc]
      rfl

/-- A slot holds samples of one target, if of any, and no other slot has its key. -/
structure Reserved (node : Node) (slot : Nat) (held : Option PendingTarget) (desk : Desk) :
    Prop where
  own : ∀ other : Node,
    (desk.slots slot).get? other.job other.address = if other = node then held else none
  others : ∀ used, used ≠ slot → ∀ other : Node, other.key = node.key →
    (desk.slots used).get? other.job other.address = none

namespace Reserved

theorem new (node : Node) (slot : Nat) (ledger : Ledger) :
    (Desk.new ledger).Reserved node slot none := by
  refine ⟨?_, fun _ _ _ _ => rfl⟩
  intro other
  rw [ite_self]
  rfl

/-- The ledger changes, and another slot gets a transaction without the key. -/
theorem update (reserved : desk.Reserved node slot held) (ledger : Ledger) {used : Nat}
    (apart : used ≠ slot) {transaction : Transaction}
    (lacks : ∀ other : Node, other.key = node.key →
      transaction.get? other.job other.address = none) :
    Reserved node slot held ⟨ledger, Function.update desk.slots used transaction⟩ := by
  refine ⟨?_, ?_⟩
  · intro other
    dsimp only
    rw [Function.update_of_ne apart.symm]
    exact reserved.own other
  · intro place different other same
    dsimp only
    by_cases own : place = used
    · subst own
      rw [Function.update_self]
      exact lacks other same
    · rw [Function.update_of_ne own]
      exact reserved.others place different other same

/-- The target's own slot gets a transaction. -/
theorem fill (reserved : desk.Reserved node slot held) (ledger : Ledger)
    {transaction : Transaction} {pending : Option PendingTarget}
    (lone : ∀ other : Node, transaction.get? other.job other.address =
      if other = node then pending else none) :
    Reserved node slot pending ⟨ledger, Function.update desk.slots slot transaction⟩ := by
  refine ⟨?_, ?_⟩
  · intro other
    dsimp only
    rw [Function.update_self]
    exact lone other
  · intro place different other same
    dsimp only
    rw [Function.update_of_ne different]
    exact reserved.others place different other same

theorem targets_apart (reserved : desk.Reserved node slot held) {used : Nat}
    (apart : used ≠ slot) : ∀ target ∈ (desk.slots used).targets, target.1.key ≠ node.key := by
  intro target member same
  have found := Transaction.mem_targets_iff.mp member
  rw [reserved.others used apart target.1 same] at found
  cases found

/-- A sample of another key goes to another slot. -/
theorem append_elsewhere (reserved : desk.Reserved node slot held) {used time : Nat}
    {address job : String} {sample : Sample} (apart : used ≠ slot)
    (other : Transaction.ledgerKey job address ≠ node.key)
    (admitted : filter.admits job address sample.name = true) (receiver : String) :
    let event := DeskEvent.append used time address job sample
    (desk.perform receiver filter event).Reserved node slot held ∧
      Endures node.key now desk.ledger (desk.perform receiver filter event).ledger := by
  intro event
  have lacks (pending : PendingTarget) (place : Node) (same : place.key = node.key) :
      ((desk.slots used).set job address pending).get? place.job place.address = none := by
    have different : place ≠ ⟨job, address⟩ := by
      rintro rfl
      exact other same
    rw [Transaction.get?_set_of_ne different]
    exact reserved.others used apart place same
  cases pending : (desk.slots used).get? job address with
  | some pending' =>
      simp only [event, perform, Transaction.append_of_pending admitted pending]
      exact ⟨reserved.update _ apart (lacks _), .refl _ _ _⟩
  | none =>
      simp only [event, perform, Transaction.append_of_fresh admitted pending]
      exact ⟨reserved.update _ apart (lacks _),
        .of_spares now (.of_mark (Ne.symm other) desk.ledger time)⟩

/-- What happens elsewhere makes nothing for the target, and its slot stays as it is. -/
theorem elsewhere (reserved : desk.Reserved node slot held)
    (elsewhere : event.IsElsewhere filter slot node.key desk.ledger.window)
    (early : ∀ time ∈ event.now?, time ≤ now) (receiver : String) :
    (desk.perform receiver filter event).Reserved node slot held ∧
      Endures node.key now desk.ledger (desk.perform receiver filter event).ledger ∧
      desk.madeFor receiver node event = [] := by
  cases event with
  | append used time address job sample =>
      by_cases passes : filter.Permits job address sample.name
      · obtain ⟨apart, other⟩ := elsewhere passes
        obtain ⟨kept, endures⟩ :=
          reserved.append_elsewhere apart other (AllowList.admits_iff.mpr passes) receiver
        exact ⟨kept, endures, rfl⟩
      · have refused : DeskEvent.IsRejected filter (.append used time address job sample) := passes
        rw [perform_of_rejected refused]
        exact ⟨reserved, .refl _ _ _, rfl⟩
  | commit closed time =>
      have others := reserved.targets_apart elsewhere
      refine ⟨reserved.update _ elsewhere (fun _ _ => rfl),
        Transaction.commit_endures others (early time rfl) receiver desk.ledger, ?_⟩
      refine List.filter_eq_nil_iff.mpr ?_
      intro batch made
      have listed : batch.node ∈ (desk.slots closed).targets.map Prod.fst := by
        rw [← Transaction.batchesOf_nodes receiver desk.ledger]
        exact List.mem_map_of_mem made
      obtain ⟨target, member, same⟩ := List.mem_map.mp listed
      have apart := others target member
      rw [same] at apart
      simpa using fun own => apart (congrArg Node.key own)
  | rollback closed =>
      exact ⟨reserved.update _ elsewhere (fun _ _ => rfl), .refl _ _ _, rfl⟩
  | ledger event =>
      refine ⟨⟨reserved.own, reserved.others⟩, ?_, rfl⟩
      cases event with
      | mark job time => exact .of_spares now (.of_mark (Ne.symm elsewhere) desk.ledger time)
      | observe job series value time =>
          exact .of_spares now (.of_observe (Ne.symm elsewhere) desk.ledger series value time)
      | sweep time limit =>
          obtain rfl : limit = desk.ledger.window := elsewhere
          exact .of_sweep (early time rfl) node.key desk.ledger
      | sweepIfDue time => exact .of_sweepIfDue (early time rfl) node.key desk.ledger

end Reserved

theorem run_elsewhere {events : List DeskEvent} (reserved : desk.Reserved node slot held)
    (elsewhere : ∀ event ∈ events, event.IsElsewhere filter slot node.key desk.ledger.window)
    (early : ∀ event ∈ events, ∀ time ∈ event.now?, time ≤ now) (receiver : String) :
    (desk.run receiver filter events).Reserved node slot held ∧
      Endures node.key now desk.ledger (desk.run receiver filter events).ledger ∧
      desk.batchesFor receiver filter node events = [] := by
  induction events generalizing desk with
  | nil => exact ⟨reserved, .refl _ _ _, rfl⟩
  | cons event rest ih =>
      obtain ⟨kept, endures, nothing⟩ := reserved.elsewhere
        (elsewhere event List.mem_cons_self) (early event List.mem_cons_self) receiver
      have later : ∀ other ∈ rest, other.IsElsewhere filter slot node.key
          (desk.perform receiver filter event).ledger.window := by
        rw [endures.window]
        exact fun other member => elsewhere other (List.mem_cons_of_mem _ member)
      obtain ⟨last, enduresOn, none⟩ :=
        ih kept later (fun other member => early other (List.mem_cons_of_mem _ member))
      refine ⟨last, endures.trans enduresOn, ?_⟩
      rw [batchesFor_cons, nothing, none, List.nil_append]

end Desk

/-- From the commit of one visit to a target to that of the next: when its first sample is
accepted and when it is committed, and what else happens before and in between. -/
structure Visit where
  before : List DeskEvent
  opening : Nat
  first : Sample
  during : List DeskEvent
  closing : Nat

namespace Visit

def events (visit : Visit) (node : Node) (slot : Nat) : List DeskEvent :=
  visit.before ++ .append slot visit.opening node.address node.job visit.first ::
    (visit.during ++ [.commit slot visit.closing])

/-- The samples of the target that pass. -/
def samples (visit : Visit) (filter : AllowList) (slot : Nat) : List Sample :=
  visit.first :: (visit.during.filterMap (·.accepted? filter slot)).map Prod.snd

/-- The slot of a visit is used for the target only, and its key in no other slot. -/
structure IsOf (filter : AllowList) (node : Node) (slot : Nat) (window : Duration)
    (visit : Visit) : Prop where
  before : ∀ event ∈ visit.before, event.IsElsewhere filter slot node.key window
  admitted : filter.Permits node.job node.address visit.first.name
  during : ∀ event ∈ visit.during, event.IsElsewhere filter slot node.key window ∨
    ∃ now sample, event = .append slot now node.address node.job sample

/-- The instants before the first sample, and those before the commit, do not lie behind them. -/
structure InOrder (visit : Visit) : Prop where
  before : ∀ event ∈ visit.before, ∀ time ∈ event.now?, time ≤ visit.opening
  during : ∀ event ∈ visit.during, ∀ time ∈ event.now?, time ≤ visit.closing
  opening : visit.opening ≤ visit.closing

/-- The instants that visits give to the ledger, one after the other. -/
def instants (node : Node) (slot : Nat) (visits : List Visit) : List Nat :=
  (visits.flatMap (·.events node slot)).filterMap DeskEvent.now?

variable {node : Node} {slot now : Nat} {visit : Visit} {rest visits : List Visit}

theorem instants_cons : instants node slot (visit :: rest) =
    (visit.before.filterMap DeskEvent.now? ++
      visit.opening :: (visit.during.filterMap DeskEvent.now? ++ [visit.closing])) ++
        instants node slot rest := by
  simp [instants, events, DeskEvent.now?]

/-- Where instants do not decrease, the next visit begins when the last one is over. -/
theorem inOrder_of_instants
    (ordered : (instants node slot (visit :: rest)).Pairwise (· ≤ ·))
    (later : ∀ time ∈ instants node slot (visit :: rest), now ≤ time) :
    visit.InOrder ∧ now ≤ visit.opening ∧ (instants node slot rest).Pairwise (· ≤ ·) ∧
      ∀ time ∈ instants node slot rest, visit.closing ≤ time := by
  rw [instants_cons] at ordered later
  obtain ⟨own, others, after⟩ := List.pairwise_append.mp ordered
  obtain ⟨_, opened, before⟩ := List.pairwise_append.mp own
  obtain ⟨first, during⟩ := List.pairwise_cons.mp opened
  obtain ⟨_, _, last⟩ := List.pairwise_append.mp during
  refine ⟨⟨?_, ?_, first _ (by simp)⟩, later _ (by simp), others, ?_⟩
  · intro event member time given
    exact before time (List.mem_filterMap.mpr ⟨event, member, given⟩) _ List.mem_cons_self
  · intro event member time given
    exact last time (List.mem_filterMap.mpr ⟨event, member, given⟩) _ List.mem_cons_self
  · exact after _ (by simp)

theorem openings_ordered (ordered : (instants node slot visits).Pairwise (· ≤ ·)) :
    (visits.map opening).Pairwise (· ≤ ·) := by
  refine ordered.sublist ?_
  clear ordered
  induction visits with
  | nil => exact .slnil
  | cons visit rest ih =>
      rw [instants_cons]
      have own : [visit.opening].Sublist (visit.before.filterMap DeskEvent.now? ++
          visit.opening :: (visit.during.filterMap DeskEvent.now? ++ [visit.closing])) :=
        List.singleton_sublist.mpr (by simp)
      exact own.append ih

end Visit

namespace Desk

variable {receiver : String} {filter : AllowList} {node : Node} {slot now : Nat}
  {pending : PendingTarget} {desk : Desk} {visit : Visit}

namespace Reserved

/-- The first sample of a visit marks the target. -/
theorem first (reserved : desk.Reserved node slot none) {sample : Sample}
    (admitted : filter.Permits node.job node.address sample.name) (receiver : String)
    (now : Nat) :
    let marked := desk.ledger.mark node.key now
    let opened := desk.perform receiver filter (.append slot now node.address node.job sample)
    opened.ledger = marked.1 ∧
      opened.Reserved node slot (some ⟨marked.2.generation, [sample]⟩) := by
  have empty : (desk.slots slot).get? node.job node.address = none :=
    (reserved.own node).trans (if_pos rfl)
  simp only [perform, Transaction.append_of_fresh (AllowList.admits_iff.mpr admitted) empty]
  refine ⟨rfl, reserved.fill _ ?_⟩
  intro other
  by_cases own : other = node
  · subst own
    rw [Transaction.get?_set_self, if_pos rfl]
    rfl
  · rw [Transaction.get?_set_of_ne own, reserved.own, if_neg own, if_neg own]

/-- Further samples are put to the first. -/
theorem next (reserved : desk.Reserved node slot (some pending)) (receiver : String)
    (filter : AllowList) (now : Nat) (sample : Sample) :
    let event := DeskEvent.append slot now node.address node.job sample
    let grown := desk.perform receiver filter event
    grown.ledger = desk.ledger ∧ grown.Reserved node slot (some ⟨pending.generation,
      pending.samples ++ (event.accepted? filter slot).toList.map Prod.snd⟩) := by
  intro event grown
  have held : (desk.slots slot).get? node.job node.address = some pending :=
    (reserved.own node).trans (if_pos rfl)
  cases admitted : filter.admits node.job node.address sample.name with
  | false =>
      have same : grown = desk := by
        refine perform_of_rejected ?_
        simpa [event, DeskEvent.IsRejected, ← AllowList.admits_iff] using admitted
      rw [same]
      refine ⟨rfl, ?_⟩
      simpa [event, DeskEvent.accepted?, admitted] using reserved
  | true =>
      have performed : grown = ⟨desk.ledger, Function.update desk.slots slot
          ((desk.slots slot).set node.job node.address
            { pending with samples := pending.samples ++ [sample] })⟩ := by
        simp only [grown, event, perform, Transaction.append_of_pending admitted held]
      rw [performed]
      refine ⟨rfl, reserved.fill _ ?_⟩
      intro other
      by_cases own : other = node
      · subst own
        rw [Transaction.get?_set_self, if_pos rfl]
        simp [event, DeskEvent.accepted?, admitted]
      · rw [Transaction.get?_set_of_ne own, reserved.own, if_neg own, if_neg own]

/-- The commit makes one batch, and the slot is free again. -/
theorem commit (reserved : desk.Reserved node slot (some pending)) (receiver : String)
    (filter : AllowList) (now : Nat) :
    let made := Translation.metricsOf desk.ledger node.key pending.samples
    let closed := desk.perform receiver filter (.commit slot now)
    closed.ledger = (made.1.sweepIfDue now).1 ∧ closed.Reserved node slot none ∧
      desk.madeFor receiver node (.commit slot now) =
        [⟨receiver, node, pending.generation, made.2⟩] := by
  intro made closed
  have committed : (desk.slots slot).commit receiver now desk.ledger =
      ((made.1.sweepIfDue now).1, [⟨receiver, node, pending.generation, made.2⟩]) := by
    rw [Transaction.commit, Transaction.targets_of_lone reserved.own]
    rfl
  refine ⟨congrArg Prod.fst committed, reserved.fill _ ?_, ?_⟩
  · intro other
    rw [ite_self]
    rfl
  · rw [madeFor, made?, committed]
    simp

end Reserved

/-- While its transaction is open a target gathers samples, whatever goes on elsewhere. -/
theorem run_during {events : List DeskEvent} (reserved : desk.Reserved node slot (some pending))
    (known : ∀ event ∈ events,
      event.IsElsewhere filter slot node.key desk.ledger.window ∨
        ∃ now sample, event = .append slot now node.address node.job sample)
    (early : ∀ event ∈ events, ∀ time ∈ event.now?, time ≤ now) (receiver : String) :
    (desk.run receiver filter events).Reserved node slot (some ⟨pending.generation,
        pending.samples ++ (events.filterMap (·.accepted? filter slot)).map Prod.snd⟩) ∧
      Endures node.key now desk.ledger (desk.run receiver filter events).ledger ∧
      desk.batchesFor receiver filter node events = [] := by
  induction events generalizing desk pending with
  | nil =>
      refine ⟨?_, .refl _ _ _, rfl⟩
      simpa [run] using reserved
  | cons event rest ih =>
      -- Either event leaves the slot reserved, with what was accepted from it.
      obtain ⟨grown, endures, nothing⟩ :
          (desk.perform receiver filter event).Reserved node slot (some ⟨pending.generation,
            pending.samples ++ (event.accepted? filter slot).toList.map Prod.snd⟩) ∧
          Endures node.key now desk.ledger (desk.perform receiver filter event).ledger ∧
          desk.madeFor receiver node event = [] := by
        rcases known event List.mem_cons_self with elsewhere | ⟨time, sample, rfl⟩
        · have step := reserved.elsewhere elsewhere (early event List.mem_cons_self) receiver
          simpa [event.accepted?_elsewhere elsewhere] using step
        · obtain ⟨same, grown⟩ := reserved.next receiver filter time sample
          refine ⟨grown, ?_, rfl⟩
          rw [same]
          exact .refl _ _ _
      have later : ∀ other ∈ rest, other.IsElsewhere filter slot node.key
          (desk.perform receiver filter event).ledger.window ∨
            ∃ now sample, other = .append slot now node.address node.job sample := by
        rw [endures.window]
        exact fun other member => known other (List.mem_cons_of_mem _ member)
      obtain ⟨last, enduresOn, none⟩ :=
        ih grown later fun other member => early other (List.mem_cons_of_mem _ member)
      refine ⟨?_, endures.trans enduresOn, ?_⟩
      · rw [run_cons]
        cases accepted : event.accepted? filter slot with
        | none => simpa [accepted] using last
        | some entry => simpa [accepted] using last
      · rw [batchesFor_cons, nothing, none, List.nil_append]

/-- A visit marks the target once and makes one batch for it, of the samples that pass. -/
theorem run_visit (reserved : desk.Reserved node slot none)
    (own : visit.IsOf filter node slot desk.ledger.window) (inOrder : visit.InOrder)
    (receiver : String) :
    let samples := visit.samples filter slot
    let visited := desk.run receiver filter (visit.events node slot)
    visited.Reserved node slot none ∧ visited.ledger.window = desk.ledger.window ∧
      ∃ reached filled : Ledger,
        Endures node.key visit.opening desk.ledger reached ∧
        Endures node.key visit.closing (reached.mark node.key visit.opening).1 filled ∧
        desk.batchesFor receiver filter node (visit.events node slot) =
          [⟨receiver, node, (reached.mark node.key visit.opening).2.generation,
            (Translation.metricsOf filled node.key samples).2⟩] ∧
        visited.ledger =
          ((Translation.metricsOf filled node.key samples).1.sweepIfDue visit.closing).1 := by
  intro samples visited
  obtain ⟨waiting, reached, nothing⟩ :=
    run_elsewhere reserved own.before inOrder.before receiver
  let early := desk.run receiver filter visit.before
  obtain ⟨marked, started⟩ := waiting.first own.admitted receiver visit.opening
  let opened := early.perform receiver filter
    (.append slot visit.opening node.address node.job visit.first)
  have window : opened.ledger.window = desk.ledger.window := by
    rw [marked, (early.ledger.mark_frame node.key visit.opening).1, reached.window]
  obtain ⟨filled, endures, nothing'⟩ := run_during started
    (fun event member => window ▸ own.during event member) inOrder.during receiver
  let full := opened.run receiver filter visit.during
  obtain ⟨ledger, free, batch⟩ := filled.commit receiver filter visit.closing
  have split : visited = full.perform receiver filter (.commit slot visit.closing) := by
    simp only [visited, Visit.events, run_append, run_cons]
    rfl
  rw [split]
  refine ⟨free, ?_, early.ledger, full.ledger, reached, marked ▸ endures, ?_, ledger⟩
  · have swept := Endures.of_sweepIfDue (Nat.le_refl visit.closing) node.key
      (Translation.metricsOf full.ledger node.key samples).1
    exact (congrArg Ledger.window ledger).trans (swept.window.trans
      ((Translation.metricsOf_window _ _ _).trans (endures.window.trans window)))
  · rw [Visit.events, batchesFor_append, nothing, batchesFor_cons, batchesFor_append, nothing',
      batchesFor_cons, batch]
    rfl

end Desk

end ScrapeRelay
