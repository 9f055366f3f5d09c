import Mathlib.Data.List.Forall2
import Mathlib.Data.List.Sort
import ScrapeRelay.Proofs.Joined
import ScrapeRelay.Proofs.Ledger.Generations
import ScrapeRelay.Proofs.Sink.Sweeps

/-!
# Targets beside each other

All targets share one ledger, which knows a target by its job and its address joined with a
slash. Targets with different keys do not meet there: what one of them delivers is the same
whether the samples of the other are appended or not, up to the numbers of its generations,
and no generation belongs to both (`Isolated`). The join does not tell all targets apart, and
two targets with one key are one to the ledger. So targets are isolated from each other
exactly if their keys differ (`isolated_iff`), as they do when no job name has a slash in it.
-/

namespace ScrapeRelay

/-- The name under which the ledger knows a target. -/
def Node.key (node : Node) : String := Transaction.ledgerKey node.job node.address

/-- Batches that differ in their generations only, which are paired. -/
structure Batch.Matches (paired : Nat → Nat → Prop) (left right : Batch) : Prop where
  receiver : left.receiver = right.receiver
  node : left.node = right.node
  generation : paired left.generation right.generation
  metrics : left.metrics = right.metrics

structure PendingTarget.Matches (paired : Nat → Nat → Prop) (left right : PendingTarget) :
    Prop where
  generation : paired left.generation right.generation
  samples : left.samples = right.samples

theorem Batch.Matches.mono {paired wider : Nat → Nat → Prop} {left right : Batch}
    (same : left.Matches paired right) (grows : paired ≤ wider) : left.Matches wider right :=
  ⟨same.receiver, same.node, grows _ _ same.generation, same.metrics⟩

theorem PendingTarget.Matches.mono {paired wider : Nat → Nat → Prop} {left right : PendingTarget}
    (same : left.Matches paired right) (grows : paired ≤ wider) : left.Matches wider right :=
  ⟨grows _ _ same.generation, same.samples⟩

namespace Node

theorem before_irrefl (node : Node) : ¬ node.Before node := by
  rintro (less | ⟨_, less⟩)
  · exact String.lt_irrefl _ less
  · exact String.lt_irrefl _ less

theorem before_asymm {left right : Node} (before : left.Before right) : ¬ right.Before left := by
  rcases before with less | ⟨same, less⟩
  · rintro (less' | ⟨same, _⟩)
    · exact String.lt_irrefl _ (String.lt_trans less less')
    · rw [same] at less
      exact String.lt_irrefl _ less
  · rintro (less' | ⟨_, less'⟩)
    · rw [same] at less'
      exact String.lt_irrefl _ less'
    · exact String.lt_irrefl _ (String.lt_trans less less')

instance : Std.Irrefl Node.Before := ⟨before_irrefl⟩

instance : Std.Antisymm Node.Before :=
  ⟨fun _ _ before after => absurd after (before_asymm before)⟩

end Node

/-! ## Owners of generations -/

namespace Transaction

variable {owner : Nat → String → Prop} {ledger : Ledger} {transaction : Transaction}

/-- The generation of each pending target belongs to the target. -/
def Owned (owner : Nat → String → Prop) (transaction : Transaction) : Prop :=
  ∀ (node : Node) (pending : PendingTarget),
    transaction.get? node.job node.address = some pending → owner pending.generation node.key

theorem Owned.set (owned : transaction.Owned owner) {node : Node} {pending : PendingTarget}
    (own : owner pending.generation node.key) :
    (transaction.set node.job node.address pending).Owned owner := by
  intro other held found
  by_cases same : other = node
  · subst same
    rw [get?_set_self] at found
    obtain rfl := Option.some.inj found
    exact own
  · rw [get?_set_of_ne same] at found
    exact owned other held found

theorem append_owned (ledgerOwned : ledger.Owned owner) (owned : transaction.Owned owner)
    (filter : AllowList) (now : Nat) (node : Node) (sample : Sample) :
    ∃ wider, owner ≤ wider ∧
      (transaction.append filter now ledger node.address node.job sample).1.Owned wider ∧
      (transaction.append filter now ledger node.address node.job sample).2.Owned wider := by
  cases admitted : filter.admits node.job node.address sample.name with
  | false =>
      rw [append_of_rejected admitted]
      exact ⟨owner, le_rfl, ledgerOwned, owned⟩
  | true =>
      cases held : transaction.get? node.job node.address with
      | some pending =>
          rw [append_of_pending admitted held]
          exact ⟨owner, le_rfl, ledgerOwned, owned.set (owned node pending held)⟩
      | none =>
          rw [append_of_fresh admitted held]
          obtain ⟨wider, grows, own, after⟩ := ledgerOwned.mark node.key now
          have kept : transaction.Owned wider := fun other pending found =>
            grows _ _ (owned other pending found)
          exact ⟨wider, grows, after, kept.set own⟩

theorem appendAll_owned (ledgerOwned : ledger.Owned owner) (owned : transaction.Owned owner)
    (filter : AllowList) (now : Nat) (samples : List (Node × Sample)) :
    ∃ wider, owner ≤ wider ∧
      (transaction.appendAll filter now ledger samples).1.Owned wider ∧
      (transaction.appendAll filter now ledger samples).2.Owned wider := by
  induction samples generalizing owner ledger transaction with
  | nil => exact ⟨owner, le_rfl, ledgerOwned, owned⟩
  | cons entry rest ih =>
      obtain ⟨middle, grows, ledgerAfter, after⟩ :=
        append_owned ledgerOwned owned filter now entry.1 entry.2
      obtain ⟨wider, growsOn, last⟩ := ih ledgerAfter after
      exact ⟨wider, grows.trans growsOn, last⟩

theorem batchesOf_owned (owned : ledger.Owned owner) (receiver : String)
    {targets : List (Node × PendingTarget)}
    (own : ∀ target ∈ targets, owner target.2.generation target.1.key) :
    (batchesOf receiver ledger targets).1.Owned owner ∧
      ∀ batch ∈ (batchesOf receiver ledger targets).2, owner batch.generation batch.node.key := by
  induction targets generalizing ledger with
  | nil => exact ⟨owned, by simp [batchesOf]⟩
  | cons target rest ih =>
      have after : (Translation.metricsOf ledger target.1.key target.2.samples).1.Owned owner :=
        Translation.metricsOf_keeps (fun _ kept => kept.observe target.1.key) owned _
      obtain ⟨last, others⟩ := ih after fun other member => own other (List.mem_cons_of_mem _ member)
      refine ⟨last, ?_⟩
      intro batch member
      rcases List.mem_cons.mp member with rfl | later
      · exact own target List.mem_cons_self
      · exact others batch later

end Transaction

namespace Ledger

variable {owner : Nat → String → Prop} {ledger : Ledger}

theorem round_owned (owned : ledger.Owned owner) (receiver : String) (filter : AllowList)
    (round : Round) (sweeps : Bool) :
    ∃ wider, owner ≤ wider ∧ (ledger.round receiver filter round sweeps).1.Owned wider ∧
      ∀ batch ∈ (ledger.round receiver filter round sweeps).2,
        wider batch.generation batch.node.key := by
  obtain ⟨now, samples, commits⟩ := round
  have nothing : Transaction.new.Owned owner := nofun
  obtain ⟨wider, grows, appended, pending⟩ :=
    Transaction.appendAll_owned owned nothing filter now samples
  obtain ⟨after, batches⟩ := Transaction.batchesOf_owned appended receiver
    fun target member => pending target.1 target.2 (Transaction.mem_targets_iff.mp member)
  cases commits with
  | false => exact ⟨wider, grows, appended, nofun⟩
  | true =>
      cases sweeps with
      | false => exact ⟨wider, grows, after, batches⟩
      | true => exact ⟨wider, grows, after.sweepIfDue now, batches⟩

/-- Every generation in what is offered belongs to one key. -/
theorem offered_owned (owned : ledger.Owned owner) (receiver : String) (filter : AllowList)
    (events : List RoundEvent) :
    ∃ wider : Nat → String → Prop, owner ≤ wider ∧
      (∀ {generation first second}, wider generation first → wider generation second →
        first = second) ∧
      ∀ offer ∈ ledger.offered receiver filter events, ∀ batch ∈ offer,
        wider batch.generation batch.node.key := by
  induction events generalizing ledger owner with
  | nil => exact ⟨owner, le_rfl, owned.unique, nofun⟩
  | cons event rest ih =>
      cases event with
      | transact round sweeps =>
          obtain ⟨middle, grows, after, batches⟩ := round_owned owned receiver filter round sweeps
          obtain ⟨wider, growsOn, unique, others⟩ := ih after
          refine ⟨wider, grows.trans growsOn, unique, ?_⟩
          intro offer member batch inside
          rcases List.mem_cons.mp member with rfl | later
          · exact growsOn _ _ (batches batch inside)
          · exact others offer later batch inside
      | sweepIfDue now => exact ih (owned.sweepIfDue now)
      | sweep now => exact ih (owned.sweep now _)

end Ledger

/-! ## A run with and without a target -/

def Round.without (round : Round) (node : Node) : Round :=
  { round with samples := round.samples.filter (fun entry => entry.1 ≠ node) }

namespace Transaction

/-- Two transactions hold alike what is pending for targets of one key, and of the others the
right one lacks exactly one target. -/
structure Mirrors (key : String) (other : Node) (paired : Nat → Nat → Prop)
    (left right : Transaction) : Prop where
  absent : right.get? other.job other.address = none
  pending : ∀ node, node ≠ other →
    Option.Rel (fun held held' => node.key = key → held.Matches paired held')
      (left.get? node.job node.address) (right.get? node.job node.address)

variable {key : String} {other node : Node} {paired wider : Nat → Nat → Prop}
  {left right : Ledger} {first second : Transaction} {filter : AllowList}

namespace Mirrors

theorem new (key : String) (other : Node) (paired : Nat → Nat → Prop) :
    Mirrors key other paired .new .new :=
  ⟨rfl, fun _ _ => .none⟩

theorem mono (mirrors : Mirrors key other paired first second) (grows : paired ≤ wider) :
    Mirrors key other wider first second := by
  refine ⟨mirrors.absent, ?_⟩
  intro node different
  have rel := mirrors.pending node different
  generalize first.get? node.job node.address = held, second.get? node.job node.address = held'
    at rel ⊢
  cases rel with
  | some same => exact .some fun own => (same own).mono grows
  | none => exact .none

theorem set (mirrors : Mirrors key other paired first second) (different : node ≠ other)
    {held held' : PendingTarget} (same : node.key = key → held.Matches paired held') :
    Mirrors key other paired (first.set node.job node.address held)
      (second.set node.job node.address held') := by
  refine ⟨?_, ?_⟩
  · rw [get?_set_of_ne (Ne.symm different)]
    exact mirrors.absent
  · intro place apart
    by_cases own : place = node
    · subst own
      rw [get?_set_self, get?_set_self]
      exact .some same
    · rw [get?_set_of_ne own, get?_set_of_ne own]
      exact mirrors.pending place apart

theorem set_left (mirrors : Mirrors key other paired first second) (held : PendingTarget) :
    Mirrors key other paired (first.set other.job other.address held) second := by
  refine ⟨mirrors.absent, ?_⟩
  intro node different
  rw [get?_set_of_ne different]
  exact mirrors.pending node different

/-- A sample of the target that the right transaction lacks. -/
theorem append_left (mirrors : Mirrors key other paired first second)
    (ledgers : left.Mirrors key paired right) (apart : key ≠ other.key) (filter : AllowList)
    (now : Nat) (sample : Sample) :
    (first.append filter now left other.address other.job sample).1.Mirrors key paired right ∧
      Mirrors key other paired
        (first.append filter now left other.address other.job sample).2 second := by
  cases admitted : filter.admits other.job other.address sample.name with
  | false =>
      rw [append_of_rejected admitted]
      exact ⟨ledgers, mirrors⟩
  | true =>
      cases held : first.get? other.job other.address with
      | some pending =>
          rw [append_of_pending admitted held]
          exact ⟨ledgers, mirrors.set_left _⟩
      | none =>
          rw [append_of_fresh admitted held]
          exact ⟨ledgers.spared (.of_mark apart left now) (.refl key right), mirrors.set_left _⟩

/-- A sample of any other target. -/
theorem append (mirrors : Mirrors key other paired first second)
    (ledgers : left.Mirrors key paired right) (different : node ≠ other) (filter : AllowList)
    (now : Nat) (sample : Sample) :
    ∃ wider, paired ≤ wider ∧
      (first.append filter now left node.address node.job sample).1.Mirrors key wider
        (second.append filter now right node.address node.job sample).1 ∧
      Mirrors key other wider
        (first.append filter now left node.address node.job sample).2
        (second.append filter now right node.address node.job sample).2 := by
  cases admitted : filter.admits node.job node.address sample.name with
  | false =>
      rw [append_of_rejected admitted, append_of_rejected admitted]
      exact ⟨paired, le_rfl, ledgers, mirrors⟩
  | true =>
      have rel := mirrors.pending node different
      cases held : first.get? node.job node.address with
      | some pending =>
          cases held' : second.get? node.job node.address with
          | none => simp [held, held'] at rel
          | some pending' =>
              rw [append_of_pending admitted held, append_of_pending admitted held']
              simp only [held, held', Option.rel_some_some] at rel
              refine ⟨paired, le_rfl, ledgers, mirrors.set different fun own => ?_⟩
              exact ⟨(rel own).generation, by rw [(rel own).samples]⟩
      | none =>
          cases held' : second.get? node.job node.address with
          | some pending' => simp [held, held'] at rel
          | none =>
              rw [append_of_fresh admitted held, append_of_fresh admitted held']
              by_cases own : node.key = key
              · subst own
                obtain ⟨wider, grows, pair, after⟩ := ledgers.mark now
                exact ⟨wider, grows, after,
                  (mirrors.mono grows).set different fun _ => ⟨pair, rfl⟩⟩
              · have apart : key ≠ ledgerKey node.job node.address := Ne.symm own
                exact ⟨paired, le_rfl,
                  ledgers.spared (.of_mark apart left now) (.of_mark apart right now),
                  mirrors.set different fun same => absurd same own⟩

theorem appendAll (mirrors : Mirrors key other paired first second)
    (ledgers : left.Mirrors key paired right) (apart : key ≠ other.key) (filter : AllowList)
    (now : Nat) (samples : List (Node × Sample)) :
    ∃ wider, paired ≤ wider ∧
      (first.appendAll filter now left samples).1.Mirrors key wider
        (second.appendAll filter now right (samples.filter (fun entry => entry.1 ≠ other))).1 ∧
      Mirrors key other wider (first.appendAll filter now left samples).2
        (second.appendAll filter now right (samples.filter (fun entry => entry.1 ≠ other))).2 := by
  induction samples generalizing paired left right first second with
  | nil => exact ⟨paired, le_rfl, ledgers, mirrors⟩
  | cons entry rest ih =>
      by_cases own : entry.1 = other
      · subst own
        rw [List.filter_cons_of_neg (by simp)]
        obtain ⟨ledgersAfter, after⟩ := mirrors.append_left ledgers apart filter now entry.2
        exact ih after ledgersAfter
      · rw [List.filter_cons_of_pos (by simpa using own)]
        obtain ⟨middle, grows, ledgersAfter, after⟩ :=
          mirrors.append ledgers own filter now entry.2
        obtain ⟨wider, growsOn, last⟩ := ih after ledgersAfter
        exact ⟨wider, grows.trans growsOn, last⟩

theorem nodes_eq (mirrors : Mirrors key other paired first second) :
    (first.targets.filter (fun target => target.1 ≠ other)).map Prod.fst =
      second.targets.map Prod.fst := by
  have ascending : ((first.targets.filter (fun target => target.1 ≠ other)).map
      Prod.fst).Pairwise Node.Before :=
    first.targets_ascending.sublist (List.filter_sublist.map _)
  refine ascending.eq_of_mem_iff second.targets_ascending ?_
  intro node
  have present (transaction : Transaction) : node ∈ transaction.targets.map Prod.fst ↔
      (transaction.get? node.job node.address).isSome = true := by
    simp [mem_targets_iff, Option.isSome_iff_exists]
  have left : node ∈ (first.targets.filter (fun target => target.1 ≠ other)).map Prod.fst ↔
      node ≠ other ∧ node ∈ first.targets.map Prod.fst := by
    simp only [List.mem_map, List.mem_filter, decide_eq_true_eq]
    constructor
    · rintro ⟨target, ⟨member, apart⟩, rfl⟩
      exact ⟨apart, target, member, rfl⟩
    · rintro ⟨apart, target, member, rfl⟩
      exact ⟨target, ⟨member, apart⟩, rfl⟩
  rw [left, present, present]
  by_cases own : node = other
  · subst own
    simp [mirrors.absent]
  · have rel := mirrors.pending node own
    generalize first.get? node.job node.address = held, second.get? node.job node.address = held'
      at rel
    cases rel <;> simp [own]

/-- The right transaction has the targets of the left one without the target it lacks. -/
theorem targets (mirrors : Mirrors key other paired first second) :
    List.Forall₂ (fun target target' => target.1 = target'.1 ∧
        (target.1.key = key → target.2.Matches paired target'.2))
      (first.targets.filter (fun target => target.1 ≠ other)) second.targets := by
  have nodes := mirrors.nodes_eq
  have length := congrArg List.length nodes
  rw [List.length_map, List.length_map] at length
  refine List.forall₂_iff_get.mpr ⟨length, ?_⟩
  intro place inside inside'
  have same := congrArg (·[place]?) nodes
  simp only [List.getElem?_map, List.getElem?_eq_getElem inside,
    List.getElem?_eq_getElem inside', Option.map_some] at same
  have member := List.getElem_mem inside
  have member' := List.getElem_mem inside'
  simp only [List.get_eq_getElem]
  generalize (first.targets.filter (fun target => target.1 ≠ other))[place] = target at *
  generalize second.targets[place] = target' at *
  obtain ⟨listed, apart⟩ := List.mem_filter.mp member
  have rel := mirrors.pending target.1 (by simpa using apart)
  obtain sameNode := Option.some.inj same
  rw [mem_targets_iff.mp listed, sameNode, mem_targets_iff.mp member'] at rel
  rw [sameNode]
  exact ⟨rfl, Option.rel_some_some.mp rel⟩

end Mirrors

/-! ## Batches with and without a target -/

/-- Batches of one target, which match if the target has a certain key. -/
def BatchesAgree (key : String) (paired : Nat → Nat → Prop) (left right : Batch) : Prop :=
  left.node = right.node ∧ (left.node.key = key → left.Matches paired right)

theorem metricsOf_spares {job : String} (apart : key ≠ job) (ledger : Ledger)
    (samples : List Sample) :
    Ledger.Spares key ledger (Translation.metricsOf ledger job samples).1 :=
  Translation.metricsOf_keeps
    (fun before kept series value time => kept.trans (.of_observe apart before series value time))
    (.refl key ledger) samples

theorem batchesOf_mirrors (ledgers : left.Mirrors key paired right) (apart : key ≠ other.key)
    (receiver : String) {targets targets' : List (Node × PendingTarget)}
    (same : List.Forall₂ (fun target target' => target.1 = target'.1 ∧
        (target.1.key = key → target.2.Matches paired target'.2))
      (targets.filter (fun target => target.1 ≠ other)) targets') :
    (batchesOf receiver left targets).1.Mirrors key paired
        (batchesOf receiver right targets').1 ∧
      List.Forall₂ (BatchesAgree key paired)
        ((batchesOf receiver left targets).2.filter (fun batch => batch.node ≠ other))
        (batchesOf receiver right targets').2 := by
  induction targets generalizing left right targets' with
  | nil =>
      obtain rfl : targets' = [] := by simpa using same
      exact ⟨ledgers, .nil⟩
  | cons target rest ih =>
      by_cases own : target.1 = other
      · rw [List.filter_cons_of_neg (by simpa using own)] at same
        have spared := metricsOf_spares (own ▸ apart) left target.2.samples
        obtain ⟨after, batches⟩ := ih (ledgers.spared spared (.refl key right)) same
        simp only [batchesOf]
        rw [List.filter_cons_of_neg (by simpa using own)]
        exact ⟨after, batches⟩
      · rw [List.filter_cons_of_pos (by simpa using own)] at same
        obtain ⟨target', rest', ⟨node, pending⟩, others, rfl⟩ := List.forall₂_cons_left_iff.mp same
        simp only [batchesOf]
        rw [List.filter_cons_of_pos (by simpa using own), ← node]
        by_cases keyed : target.1.key = key
        · subst keyed
          obtain ⟨metrics, spared⟩ := Translation.metricsOf_alike
            (fun _ _ mirrors => mirrors.observe) ledgers target.2.samples
          rw [← (pending rfl).samples]
          obtain ⟨after, batches⟩ := ih spared others
          exact ⟨after, .cons ⟨rfl, fun _ => ⟨rfl, rfl, (pending rfl).generation, metrics⟩⟩ batches⟩
        · obtain ⟨after, batches⟩ := ih (ledgers.spared
            (metricsOf_spares (Ne.symm keyed) left target.2.samples)
            (metricsOf_spares (Ne.symm keyed) right target'.2.samples)) others
          exact ⟨after, .cons ⟨rfl, fun same => absurd same keyed⟩ batches⟩

end Transaction

open Transaction (BatchesAgree)

namespace Ledger

variable {key : String} {other : Node} {paired : Nat → Nat → Prop} {left right : Ledger}

theorem round_mirrors (ledgers : left.Mirrors key paired right) (apart : key ≠ other.key)
    (receiver : String) (filter : AllowList) (round : Round) (sweeps : Bool) :
    ∃ wider, paired ≤ wider ∧
      (left.round receiver filter round sweeps).1.Mirrors key wider
        (right.round receiver filter (round.without other) sweeps).1 ∧
      List.Forall₂ (BatchesAgree key wider)
        ((left.round receiver filter round sweeps).2.filter (fun batch => batch.node ≠ other))
        (right.round receiver filter (round.without other) sweeps).2 := by
  obtain ⟨now, samples, commits⟩ := round
  obtain ⟨wider, grows, appended, transactions⟩ :=
    (Transaction.Mirrors.new key other paired).appendAll ledgers apart filter now samples
  obtain ⟨after, batches⟩ :=
    Transaction.batchesOf_mirrors appended apart receiver transactions.targets
  cases commits with
  | false => exact ⟨wider, grows, appended, .nil⟩
  | true =>
      cases sweeps with
      | false => exact ⟨wider, grows, after, batches⟩
      | true => exact ⟨wider, grows, after.sweepIfDue now, batches⟩

/-- What the rounds of a run offer to the consumer, if each commit sweeps when that is due. -/
def offeredBy (receiver : String) (filter : AllowList) (ledger : Ledger) (rounds : List Round) :
    List (List Batch) :=
  ledger.offered receiver filter (rounds.map (RoundEvent.transact · true))

theorem offeredBy_mirrors (ledgers : left.Mirrors key paired right) (apart : key ≠ other.key)
    (receiver : String) (filter : AllowList) (rounds : List Round) :
    ∃ wider, paired ≤ wider ∧ KeepsOrder wider ∧
      List.Forall₂
        (fun offer offer' => List.Forall₂ (BatchesAgree key wider)
          (offer.filter (fun batch => batch.node ≠ other)) offer')
        (left.offeredBy receiver filter rounds)
        (right.offeredBy receiver filter (rounds.map (·.without other))) := by
  induction rounds generalizing left right paired with
  | nil => exact ⟨paired, le_rfl, ledgers.ordered, .nil⟩
  | cons round rest ih =>
      obtain ⟨middle, grows, after, batches⟩ :=
        round_mirrors ledgers apart receiver filter round true
      obtain ⟨wider, growsOn, ordered, others⟩ := ih after
      refine ⟨wider, grows.trans growsOn, ordered, .cons ?_ others⟩
      refine batches.imp ?_
      rintro batch batch' ⟨node, same⟩
      exact ⟨node, fun own => (same own).mono growsOn⟩

end Ledger

/-! ## Isolation -/

/-- The batches of a target among what the rounds of a run offer. -/
def Node.batchesIn (node : Node) (offers : List (List Batch)) : List (List Batch) :=
  offers.map (fun offer => offer.filter (fun batch => batch.node = node))

/-- What is delivered for one target does not depend on another: without the samples of the
other, every round offers the same batches of the target, with generations in the same order,
and no generation is used for both. -/
def Isolated (target other : Node) : Prop :=
  ∀ (window : Duration) (receiver : String) (filter : AllowList) (rounds : List Round),
    let offered := (Ledger.new window).offeredBy receiver filter
    (∃ paired, KeepsOrder paired ∧
      List.Forall₂ (List.Forall₂ (Batch.Matches paired)) (target.batchesIn (offered rounds))
        (target.batchesIn (offered (rounds.map (·.without other))))) ∧
    ∀ batch ∈ (target.batchesIn (offered rounds)).flatten,
      ∀ batch' ∈ (other.batchesIn (offered rounds)).flatten,
        batch.generation ≠ batch'.generation

variable {target other : Node}

theorem Node.mem_batchesIn {node : Node} {offers : List (List Batch)} {batch : Batch} :
    batch ∈ (node.batchesIn offers).flatten ↔
      batch.node = node ∧ ∃ offer ∈ offers, batch ∈ offer := by
  simp only [Node.batchesIn, List.mem_flatten, List.mem_map]
  constructor
  · rintro ⟨_, ⟨offer, member, rfl⟩, inside⟩
    obtain ⟨held, own⟩ := List.mem_filter.mp inside
    exact ⟨by simpa using own, offer, member, held⟩
  · rintro ⟨own, offer, member, held⟩
    exact ⟨_, ⟨offer, member, rfl⟩, List.mem_filter.mpr ⟨held, by simpa using own⟩⟩

theorem batchesIn_match {paired : Nat → Nat → Prop} {offers offers' : List (List Batch)}
    (different : target ≠ other)
    (agree : List.Forall₂
      (fun offer offer' => List.Forall₂ (BatchesAgree target.key paired)
        (offer.filter (fun batch => batch.node ≠ other)) offer') offers offers') :
    List.Forall₂ (List.Forall₂ (Batch.Matches paired)) (target.batchesIn offers)
      (target.batchesIn offers') := by
  refine List.forall₂_map_left_iff.mpr (List.forall₂_map_right_iff.mpr (agree.imp ?_))
  intro offer offer' batches
  have own (batch : Batch) (kept : batch.node = target) : batch.node ≠ other := kept ▸ different
  have twice : offer.filter (fun batch => batch.node = target) =
      (offer.filter (fun batch => batch.node ≠ other)).filter
        (fun batch => batch.node = target) := by
    rw [List.filter_filter]
    refine List.filter_congr ?_
    intro batch _
    by_cases kept : batch.node = target <;> simp [kept, different]
  rw [twice]
  generalize offer.filter (fun batch => batch.node ≠ other) = rest at batches
  induction batches with
  | nil => exact .nil
  | @cons batch batch' rest rest' agree _ ih =>
      obtain ⟨node, same⟩ := agree
      by_cases kept : batch.node = target
      · rw [List.filter_cons_of_pos (by simpa using kept),
          List.filter_cons_of_pos (by simpa [← node] using kept)]
        exact .cons (same (congrArg Node.key kept)) ih
      · rw [List.filter_cons_of_neg (by simpa using kept),
          List.filter_cons_of_neg (by simpa [← node] using kept)]
        exact ih

theorem isolated_of_keys (apart : target.key ≠ other.key) : Isolated target other := by
  intro window receiver filter rounds offered
  have different : target ≠ other := fun same => apart (congrArg Node.key same)
  refine ⟨?_, ?_⟩
  · obtain ⟨paired, _, ordered, agree⟩ :=
      Ledger.offeredBy_mirrors (.new target.key window) apart receiver filter rounds
    exact ⟨paired, ordered, batchesIn_match different agree⟩
  · obtain ⟨owner, _, unique, owned⟩ :=
      Ledger.offered_owned (.new window) receiver filter (rounds.map (RoundEvent.transact · true))
    intro batch member batch' member' same
    obtain ⟨rfl, offer, listed, held⟩ := Node.mem_batchesIn.mp member
    obtain ⟨rfl, offer', listed', held'⟩ := Node.mem_batchesIn.mp member'
    have own := owned offer listed batch held
    have own' := owned offer' listed' batch' held'
    rw [same] at own
    exact apart (unique own own')

/-! ## Targets with one key -/

/-- A round in which one target delivers one gauge. -/
def Node.loneRound (node : Node) : Round := ⟨0, [(node, .gauge "up" .one)], true⟩

/-- The batch of a lone round has the generation that the mark of its target falls into. -/
theorem Ledger.round_lone (receiver : String) (ledger : Ledger) (node : Node) :
    let marked := ledger.mark node.key 0
    ∃ metrics, ledger.round receiver .unrestricted node.loneRound true =
      ((marked.1.sweepIfDue 0).1, [⟨receiver, node, marked.2.generation, metrics⟩]) :=
  ⟨_, rfl⟩

/-- Targets of one key that deliver at one instant are given one generation. -/
theorem not_isolated_of_key (same : target.key = other.key) : ¬ Isolated target other := by
  intro isolated
  have apart := (isolated ⟨1⟩ "relay" .unrestricted [target.loneRound, other.loneRound]).2
  let marked := ((Ledger.new ⟨1⟩).mark target.key 0).1
  let swept := (marked.sweepIfDue 0).1
  have known : swept.records.get? other.key = some ⟨0, 1, .empty⟩ := by
    have kept : swept.records.get? other.key =
        (marked.records.get? other.key).filter (fun record => !record.isQuiet 0 ⟨1⟩) :=
      marked.sweep_get? 0 ⟨1⟩ other.key
    have opened : marked = (Ledger.new ⟨1⟩).renewed target.key 0 :=
      congrArg Prod.fst (Ledger.mark_of_stale (Ledger.isStale_of_unknown rfl))
    rw [kept, opened, ← same]
    simp [Ledger.renewed, Ledger.new, LedgerRecord.isQuiet, Option.filter]
  have again : (swept.mark other.key 0).2.generation = 1 :=
    congrArg (·.2.generation) (Ledger.mark_of_active known rfl)
  obtain ⟨metrics, first⟩ := Ledger.round_lone "relay" (.new ⟨1⟩) target
  obtain ⟨metrics', second⟩ := Ledger.round_lone "relay" swept other
  have offered : (Ledger.new ⟨1⟩).offeredBy "relay" .unrestricted
      [target.loneRound, other.loneRound] =
        [[⟨"relay", target, 1, metrics⟩],
          [⟨"relay", other, (swept.mark other.key 0).2.generation, metrics'⟩]] := by
    simp only [Ledger.offeredBy, List.map_cons, List.map_nil, Ledger.offered, first]
    rw [show (marked.sweepIfDue 0).1 = swept from rfl, second]
    rfl
  rw [offered] at apart
  refine apart _ (Node.mem_batchesIn.mpr ⟨rfl, _, List.mem_cons_self, List.mem_cons_self⟩) _
    (Node.mem_batchesIn.mpr
      ⟨rfl, _, List.mem_cons_of_mem _ List.mem_cons_self, List.mem_cons_self⟩) again.symm

/-- Where job names have no slash in them, the key of a target tells its job and address. -/
theorem Node.eq_of_key (plain : '/' ∉ target.job.toList) (plain' : '/' ∉ other.job.toList)
    (same : target.key = other.key) : target = other := by
  obtain ⟨job, address⟩ := joined_inj plain plain' same
  exact (Node.mk.injEq ..).mpr ⟨job, address⟩

/-- Two targets are isolated from each other exactly if the ledger tells them apart, which it does
if neither job has a slash in its name. -/
theorem isolated_iff (target other : Node) :
    (Isolated target other ↔ target.key ≠ other.key) ∧
      ('/' ∉ target.job.toList → '/' ∉ other.job.toList → target ≠ other →
        Isolated target other) :=
  ⟨⟨fun isolated same => not_isolated_of_key same isolated, isolated_of_keys⟩,
    fun plain plain' different => isolated_of_keys (mt (Node.eq_of_key plain plain') different)⟩

/-- A target with a slash in its job, and one with the same slash in its address. -/
def slashedJob : Node := ⟨"a/b", "c"⟩

def slashedAddress : Node := ⟨"a", "b/c"⟩

/-- Both targets deliver a counter of one name, at different times. -/
def slashedRound : Round :=
  ⟨0, [(slashedJob, ⟨"hits", .empty, .one, 2000, .counter⟩),
    (slashedAddress, ⟨"hits", .empty, .one, 1000, .counter⟩)], true⟩

/-- Where a batch belongs, its generation, and the starts of its series. -/
def Batch.origin (batch : Batch) : Node × Nat × List (Option Int64) :=
  (batch.node, batch.generation, batch.metrics.flatMap (·.series.map TimeSeries.start))

/-- Both targets are in one generation, and the series of the one start with the other's. -/
theorem not_isolated_of_slash :
    slashedJob ≠ slashedAddress ∧ ¬ Isolated slashedJob slashedAddress ∧
      ((Ledger.new defaultStaleness).offeredBy "relay" .unrestricted [slashedRound]).map
          (List.map Batch.origin) =
        [[(slashedAddress, 1, [some 1000]), (slashedJob, 1, [some 1000])]] ∧
      ((Ledger.new defaultStaleness).offeredBy "relay" .unrestricted
          [slashedRound.without slashedAddress]).map (List.map Batch.origin) =
        [[(slashedJob, 1, [some 2000])]] :=
  ⟨by decide, not_isolated_of_key rfl, by decide +kernel, by decide +kernel⟩

end ScrapeRelay
