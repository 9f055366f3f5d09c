import ScrapeRelay.Intake
import ScrapeRelay.Proofs.Sink.Delivery
import ScrapeRelay.Proofs.Sink.Desk

/-!
# Commits under way

An outbox is an intake with its open transactions and with the commits that were made, however
far each of them got. A run is any sequence of events: transactions are filled and closed in
any order, commits are resumed one beside the other, and the ledger and the consumer may change
from outside. A commit that is given up is one that is not resumed any more.

What a consumer answers decides how far commits get and how they end, and nothing else: the
ledger and the batches that are made are the same for all consumers (`run_desk`, `run_made`).
-/

namespace ScrapeRelay

/-- A commit: the batches it made, those it offered so far, what is left of it, and its result
once it has one. -/
structure Dispatch where
  batches : List Batch
  offers : List Offer
  rest : Delivery
  result : Option (Except Failure Unit)

inductive OutboxEvent (γ : Type) where
  | append (slot now : Nat) (address job : String) (sample : Sample)
  | commit (slot now : Nat)
  | rollback (slot : Nat)
  /-- A commit goes on until a batch is not answered. -/
  | resume (number now : Nat)
  /-- The ledger is used from outside. -/
  | ledger (event : LedgerEvent)
  /-- The consumer changes by itself, as a channel does that is drained. -/
  | consumer (change : γ → γ)

structure Outbox (γ : Type) where
  intake : Intake γ
  slots : Nat → Transaction
  dispatches : List Dispatch

variable {γ : Type}

namespace OutboxEvent

def resumes (number : Nat) : OutboxEvent γ → Bool
  | .resume resumed _ => resumed = number
  | _ => false

/-- What an event does to the ledger and the open transactions, if anything. -/
def desk? (settings : IntakeSettings γ) : OutboxEvent γ → Option DeskEvent
  | .append slot now address job sample =>
      some (.append slot (settings.ledgerTime now) address job sample)
  | .commit slot now => some (.commit slot (settings.ledgerTime now))
  | .rollback slot => some (.rollback slot)
  | .ledger event => some (.ledger event)
  | .resume _ _ => none
  | .consumer _ => none

end OutboxEvent

namespace Dispatch

/-- Nothing was offered yet, and the commit has not even looked whether there is anything. -/
def IsUntouched (dispatch : Dispatch) : Prop := dispatch.offers = [] ∧ dispatch.result = none

/-- The commit waits for the answer to the batch that it offered last, and has all others. -/
def IsHeld (dispatch : Dispatch) : Prop :=
  ∃ answered batch, dispatch.offers = answered ++ [⟨batch, .blocked⟩] ∧
    (∀ offer ∈ answered, offer.isAnswered = true) ∧ dispatch.result = none

/-- Every batch was offered and answered, and the result is that of the answers. -/
def HasEnded (dispatch : Dispatch) : Prop :=
  dispatch.offers.map Offer.batch = dispatch.batches ∧
    (∀ offer ∈ dispatch.offers, offer.isAnswered = true) ∧
    dispatch.result = some (Offer.outcome dispatch.offers)

/-- What was offered, and what is left, are the batches of the commit in their order. -/
structure Proceeds (answered pending : List Offer) (dispatch : Dispatch) : Prop where
  complete : ∀ offer ∈ answered, offer.isAnswered = true
  offers : dispatch.offers = answered ++ pending
  split : dispatch.batches = answered.map Offer.batch ++ dispatch.rest.batches
  rejection : dispatch.rest.rejection = (answered.filterMap Offer.cause?).getLast?
  held : Delivery.IsHeldAt pending dispatch.rest.batches
  stage : dispatch.IsUntouched ∨
    ((pending = [] → dispatch.rest.batches = []) ∧ dispatch.result = dispatch.rest.result?)

variable {dispatch : Dispatch} {answered pending : List Offer}

def new (now : Nat) (batches : List Batch) : Dispatch := ⟨batches, [], .new now batches, none⟩

theorem new_proceeds (now : Nat) (batches : List Batch) : (new now batches).Proceeds [] [] :=
  ⟨nofun, rfl, rfl, rfl, .inl rfl, .inl ⟨rfl, rfl⟩⟩

namespace Proceeds

theorem offers_prefix (proceeds : dispatch.Proceeds answered pending) :
    dispatch.offers.map Offer.batch <+: dispatch.batches := by
  rw [proceeds.offers, proceeds.split, List.map_append]
  refine (List.prefix_append_right_inj _).mpr ?_
  rcases proceeds.held with rfl | ⟨batch, rest, rfl, same⟩
  · exact List.nil_prefix
  · rw [same]
    exact ⟨rest, rfl⟩

/-- Once it was resumed, a commit has ended or waits for an answer. -/
theorem resumed (proceeds : dispatch.Proceeds answered pending)
    (ends : pending = [] → dispatch.rest.batches = [])
    (result : dispatch.result = dispatch.rest.result?) :
    dispatch.IsHeld ∨ dispatch.HasEnded := by
  rcases proceeds.held with rfl | ⟨batch, rest, rfl, same⟩
  · refine .inr ⟨?_, ?_, ?_⟩
    · rw [proceeds.offers, proceeds.split, ends rfl, List.append_nil, List.append_nil]
    · rw [proceeds.offers, List.append_nil]
      exact proceeds.complete
    · rw [result, Delivery.result?, ends rfl, proceeds.rejection, proceeds.offers,
        List.append_nil, Offer.outcome]
      cases (answered.filterMap Offer.cause?).getLast? <;> rfl
  · refine .inl ⟨answered, batch, proceeds.offers, proceeds.complete, ?_⟩
    rw [result, Delivery.result?, same]
    rfl

theorem stages (proceeds : dispatch.Proceeds answered pending) :
    dispatch.IsUntouched ∨ dispatch.IsHeld ∨ dispatch.HasEnded := by
  rcases proceeds.stage with untouched | ⟨ends, result⟩
  · exact .inl untouched
  · exact .inr (proceeds.resumed ends result)

end Proceeds

/-- A commit that goes on with a consumer: it notes what it offers. -/
def resume (settings : IntakeSettings γ) (now : Nat) (intake : Intake γ) (dispatch : Dispatch) :
    Dispatch :=
  let resumption := intake.resume settings now dispatch.rest
  let noted := dispatch.rest.run settings.consumer.noting now (intake.consumer, dispatch.offers)
  { dispatch with
    offers := noted.consumer.2
    rest := resumption.rest
    result := resumption.result }

theorem resume_proceeds (proceeds : dispatch.Proceeds answered pending)
    (settings : IntakeSettings γ) (now : Nat) (intake : Intake γ) :
    let resumed := dispatch.resume settings now intake
    (∃ answered pending, resumed.Proceeds answered pending) ∧
      (resumed.IsHeld ∨ resumed.HasEnded) := by
  intro resumed
  obtain ⟨more, waiting, goesOn⟩ := Delivery.offerAll_goesOn settings.consumer now
    dispatch.rest.offered intake.consumer dispatch.rest.rejection proceeds.complete proceeds.held
  have plain := (Delivery.offerAll_noting settings.consumer now dispatch.rest.offered
    intake.consumer (answered ++ pending) dispatch.rest.rejection dispatch.rest.batches).2.2
  rw [plain] at goesOn
  have after : resumed.Proceeds (answered ++ more) waiting := by
    refine ⟨?_, ?_, ?_, ?_, goesOn.held, .inr ⟨goesOn.ends, rfl⟩⟩
    · intro offer member
      rcases List.mem_append.mp member with old | new
      · exact proceeds.complete offer old
      · exact goesOn.complete offer new
    · rw [← goesOn.offers, ← proceeds.offers]
      rfl
    · have split := proceeds.split
      rw [goesOn.split] at split
      rw [List.map_append, List.append_assoc]
      exact split
    · refine goesOn.rejection.trans ?_
      rw [proceeds.rejection, List.filterMap_append, List.getLast?_append]
  exact ⟨⟨_, _, after⟩, after.resumed goesOn.ends rfl⟩

end Dispatch

namespace Outbox

variable {settings : IntakeSettings γ} {outbox : Outbox γ}

def new (ledger : Ledger) (consumer : γ) : Outbox γ := ⟨⟨ledger, consumer⟩, fun _ => .new, []⟩

def perform (settings : IntakeSettings γ) (outbox : Outbox γ) : OutboxEvent γ → Outbox γ
  | .append slot now address job sample =>
      let (intake, transaction) :=
        outbox.intake.append settings now (outbox.slots slot) address job sample
      { outbox with intake := intake, slots := Function.update outbox.slots slot transaction }
  | .commit slot now =>
      let (intake, delivery) := outbox.intake.commit settings now (outbox.slots slot)
      { intake := intake
        slots := Function.update outbox.slots slot .new
        dispatches := outbox.dispatches ++ [⟨delivery.batches, [], delivery, none⟩] }
  | .rollback slot => { outbox with slots := Function.update outbox.slots slot .new }
  | .resume number now =>
      match outbox.dispatches[number]? with
      | none => outbox
      | some dispatch =>
          { outbox with
            intake := (outbox.intake.resume settings now dispatch.rest).state
            dispatches :=
              outbox.dispatches.set number (dispatch.resume settings now outbox.intake) }
  | .ledger event =>
      { outbox with intake := { outbox.intake with ledger := outbox.intake.ledger.perform event } }
  | .consumer change =>
      { outbox with intake := { outbox.intake with consumer := change outbox.intake.consumer } }

def run (settings : IntakeSettings γ) (outbox : Outbox γ) (events : List (OutboxEvent γ)) :
    Outbox γ :=
  events.foldl (perform settings) outbox

theorem run_append (before after : List (OutboxEvent γ)) :
    run settings outbox (before ++ after) = run settings (run settings outbox before) after :=
  List.foldl_append

/-- The ledger with the open transactions. -/
def desk (outbox : Outbox γ) : Desk := ⟨outbox.intake.ledger, outbox.slots⟩

theorem perform_desk (settings : IntakeSettings γ) (outbox : Outbox γ) (event : OutboxEvent γ) :
    (outbox.perform settings event).desk =
      (event.desk? settings).elim outbox.desk
        (outbox.desk.perform settings.receiver settings.filter) := by
  cases event with
  | resume number now =>
      cases found : outbox.dispatches[number]? with
      | none => simp [perform, found, OutboxEvent.desk?]
      | some dispatch =>
          simp only [perform, found, OutboxEvent.desk?, Option.elim_none]
          rfl
  | append slot now address job sample => rfl
  | commit slot now => rfl
  | rollback slot => rfl
  | ledger event => rfl
  | consumer change => rfl

theorem run_desk (settings : IntakeSettings γ) (outbox : Outbox γ)
    (events : List (OutboxEvent γ)) :
    (run settings outbox events).desk =
      Desk.run settings.receiver settings.filter outbox.desk
        (events.filterMap (·.desk? settings)) := by
  induction events generalizing outbox with
  | nil => rfl
  | cons event rest ih =>
      have step := outbox.perform_desk settings event
      have later := ih (outbox.perform settings event)
      rw [run, List.foldl_cons]
      refine later.trans ?_
      cases kind : event.desk? settings with
      | none =>
          rw [kind, Option.elim_none] at step
          rw [List.filterMap_cons_none kind, step]
      | some performed =>
          rw [kind, Option.elim_some] at step
          rw [List.filterMap_cons_some kind, step]
          rfl

theorem map_batches_set {dispatches : List Dispatch} {number : Nat} {dispatch changed : Dispatch}
    (found : dispatches[number]? = some dispatch) (same : changed.batches = dispatch.batches) :
    (dispatches.set number changed).map Dispatch.batches = dispatches.map Dispatch.batches := by
  obtain ⟨bound, rfl⟩ := List.getElem?_eq_some_iff.mp found
  have inside : number < (dispatches.map Dispatch.batches).length := by simpa using bound
  have unchanged : changed.batches = (dispatches.map Dispatch.batches)[number] := by
    rw [same, List.getElem_map]
  rw [List.map_set, unchanged, List.set_getElem_self]

theorem perform_made (settings : IntakeSettings γ) (outbox : Outbox γ) (event : OutboxEvent γ) :
    (outbox.perform settings event).dispatches.map Dispatch.batches =
      outbox.dispatches.map Dispatch.batches ++
        ((event.desk? settings).bind (outbox.desk.made? settings.receiver)).toList := by
  cases event with
  | commit slot now =>
      simp [perform, OutboxEvent.desk?, Desk.made?, Intake.commit, Delivery.new, desk]
  | resume number now =>
      cases found : outbox.dispatches[number]? with
      | none => simp [perform, found, OutboxEvent.desk?]
      | some dispatch =>
          have kept := map_batches_set found
            (rfl : (dispatch.resume settings now outbox.intake).batches = dispatch.batches)
          simp [perform, found, OutboxEvent.desk?, kept]
  | append slot now address job sample => simp [perform, OutboxEvent.desk?, Desk.made?]
  | rollback slot => simp [perform, OutboxEvent.desk?, Desk.made?]
  | ledger event => simp [perform, OutboxEvent.desk?, Desk.made?]
  | consumer change => simp [perform, OutboxEvent.desk?]

theorem run_made (settings : IntakeSettings γ) (outbox : Outbox γ)
    (events : List (OutboxEvent γ)) :
    (run settings outbox events).dispatches.map Dispatch.batches =
      outbox.dispatches.map Dispatch.batches ++
        Desk.committed settings.receiver settings.filter outbox.desk
          (events.filterMap (·.desk? settings)) := by
  induction events generalizing outbox with
  | nil => simp [run, Desk.committed]
  | cons event rest ih =>
      have desk := outbox.perform_desk settings event
      have made := outbox.perform_made settings event
      have later := ih (outbox.perform settings event)
      rw [run, List.foldl_cons]
      refine later.trans ?_
      cases kind : event.desk? settings with
      | none =>
          rw [kind, Option.elim_none] at desk
          rw [kind, Option.bind_none, Option.toList_none, List.append_nil] at made
          rw [List.filterMap_cons_none kind, desk, made]
      | some performed =>
          rw [kind, Option.elim_some] at desk
          rw [kind, Option.bind_some] at made
          rw [List.filterMap_cons_some kind, desk, made, Desk.committed, List.append_assoc]

variable {number : Nat} {dispatch : Dispatch}

theorem perform_resume (found : outbox.dispatches[number]? = some dispatch) (now : Nat) :
    (outbox.perform settings (.resume number now)).dispatches[number]? =
      some (dispatch.resume settings now outbox.intake) := by
  have bound := (List.getElem?_eq_some_iff.mp found).1
  simp only [perform, found]
  rw [List.getElem?_set_self bound]

/-- Only resuming it changes a commit. -/
theorem perform_kept (found : outbox.dispatches[number]? = some dispatch)
    {event : OutboxEvent γ} (apart : event.resumes number = false) :
    (outbox.perform settings event).dispatches[number]? = some dispatch := by
  cases event with
  | commit slot now =>
      have bound := (List.getElem?_eq_some_iff.mp found).1
      exact (List.getElem?_append_left bound).trans found
  | resume resumed now =>
      have different : resumed ≠ number := by simpa [OutboxEvent.resumes] using apart
      cases other : outbox.dispatches[resumed]? with
      | none => simpa [perform, other] using found
      | some _ => simpa [perform, other, List.getElem?_set_ne different] using found
  | append slot now address job sample => exact found
  | rollback slot => exact found
  | ledger event => exact found
  | consumer change => exact found

theorem run_kept (found : outbox.dispatches[number]? = some dispatch)
    {events : List (OutboxEvent γ)} (apart : ∀ event ∈ events, event.resumes number = false) :
    (run settings outbox events).dispatches[number]? = some dispatch := by
  induction events generalizing outbox with
  | nil => exact found
  | cons event rest ih =>
      exact ih (perform_kept found (apart event List.mem_cons_self))
        fun other member => apart other (List.mem_cons_of_mem _ member)

/-- Every commit offers its batches in order. -/
def Proceeds (outbox : Outbox γ) : Prop :=
  ∀ dispatch ∈ outbox.dispatches, ∃ answered pending, dispatch.Proceeds answered pending

theorem new_proceeds {ledger : Ledger} {consumer : γ} : (new ledger consumer).Proceeds :=
  List.forall_mem_nil _

theorem perform_proceeds (proceeds : outbox.Proceeds) (event : OutboxEvent γ) :
    (outbox.perform settings event).Proceeds := by
  cases event with
  | commit slot now =>
      intro dispatch member
      rcases List.mem_append.mp member with old | new
      · exact proceeds dispatch old
      · rw [List.mem_singleton.mp new]
        exact ⟨[], [], Dispatch.new_proceeds now _⟩
  | resume number now =>
      cases found : outbox.dispatches[number]? with
      | none => simpa [perform, found] using proceeds
      | some resumed =>
          simp only [perform, found]
          intro dispatch member
          rcases List.mem_or_eq_of_mem_set member with old | rfl
          · exact proceeds dispatch old
          · obtain ⟨_, _, before⟩ := proceeds resumed (List.mem_of_getElem? found)
            exact (Dispatch.resume_proceeds before settings now outbox.intake).1
  | append slot now address job sample => exact proceeds
  | rollback slot => exact proceeds
  | ledger event => exact proceeds
  | consumer change => exact proceeds

theorem run_proceeds (proceeds : outbox.Proceeds) (events : List (OutboxEvent γ)) :
    (run settings outbox events).Proceeds := by
  induction events generalizing outbox with
  | nil => exact proceeds
  | cons event rest ih => exact ih (perform_proceeds proceeds event)

end Outbox

def Consumer.accepting : Consumer Unit where
  offer _ _ state _ := (state, .accepted)
  due _ _ _ := none

def IntakeSettings.accepting (settings : IntakeSettings γ) : IntakeSettings Unit :=
  ⟨settings.receiver, settings.filter, .accepting, settings.ledgerTime⟩

/-- The same event, had the consumer been one that takes everything. -/
def OutboxEvent.accepting : OutboxEvent γ → OutboxEvent Unit
  | .append slot now address job sample => .append slot now address job sample
  | .commit slot now => .commit slot now
  | .rollback slot => .rollback slot
  | .resume number now => .resume number now
  | .ledger event => .ledger event
  | .consumer _ => .consumer id

theorem OutboxEvent.accepting_desk? (settings : IntakeSettings γ) (event : OutboxEvent γ) :
    event.accepting.desk? settings.accepting = event.desk? settings := by
  cases event <;> rfl

/-- Everything that was offered was taken. -/
def Dispatch.IsTaken (dispatch : Dispatch) : Prop :=
  ∀ offer ∈ dispatch.offers, offer.answer = .accepted

theorem Dispatch.IsTaken.not_held {dispatch : Dispatch} (taken : dispatch.IsTaken) :
    ¬dispatch.IsHeld := by
  rintro ⟨answered, batch, offers, -, -⟩
  have last : (⟨batch, .blocked⟩ : Offer) ∈ dispatch.offers := by simp [offers]
  cases taken _ last

namespace Outbox

theorem perform_taken {settings : IntakeSettings γ} {outbox : Outbox γ}
    (takes : ∀ offered now state batch,
      (settings.consumer.offer offered now state batch).2 = .accepted)
    (taken : ∀ dispatch ∈ outbox.dispatches, dispatch.IsTaken) (event : OutboxEvent γ) :
    ∀ dispatch ∈ (outbox.perform settings event).dispatches, dispatch.IsTaken := by
  cases event with
  | commit slot now =>
      intro dispatch member
      rcases List.mem_append.mp member with old | new
      · exact taken dispatch old
      · rw [List.mem_singleton.mp new]
        exact List.forall_mem_nil _
  | resume number now =>
      cases found : outbox.dispatches[number]? with
      | none => simpa [perform, found] using taken
      | some resumed =>
          simp only [perform, found]
          intro dispatch member
          rcases List.mem_or_eq_of_mem_set member with old | rfl
          · exact taken dispatch old
          · exact Delivery.offerAll_of_taking takes (taken resumed (List.mem_of_getElem? found))
  | append slot now address job sample => exact taken
  | rollback slot => exact taken
  | ledger event => exact taken
  | consumer change => exact taken

theorem run_taken {settings : IntakeSettings γ} {outbox : Outbox γ}
    (takes : ∀ offered now state batch,
      (settings.consumer.offer offered now state batch).2 = .accepted)
    (taken : ∀ dispatch ∈ outbox.dispatches, dispatch.IsTaken) (events : List (OutboxEvent γ)) :
    ∀ dispatch ∈ (run settings outbox events).dispatches, dispatch.IsTaken := by
  induction events generalizing outbox with
  | nil => exact taken
  | cons event rest ih => exact ih (perform_taken takes taken event)

/-- With a consumer that takes everything, a commit has offered nothing or all there was. -/
theorem run_accepting (settings : IntakeSettings γ) (ledger : Ledger)
    (events : List (OutboxEvent Unit)) :
    ∀ dispatch ∈ (run settings.accepting (new ledger ()) events).dispatches,
      dispatch.IsUntouched ∨ (dispatch.HasEnded ∧ dispatch.IsTaken) := by
  intro dispatch member
  have taken : dispatch.IsTaken :=
    run_taken (fun _ _ _ _ => rfl) (List.forall_mem_nil _) events dispatch member
  obtain ⟨answered, pending, proceeds⟩ := run_proceeds new_proceeds events dispatch member
  rcases proceeds.stages with untouched | held | ended
  · exact .inl untouched
  · exact absurd held taken.not_held
  · exact .inr ⟨ended, taken⟩

/-- What consumers answer leaves no trace in the ledger, in open transactions, or in the batches
that any commit makes. -/
theorem run_as_accepting (settings : IntakeSettings γ) (ledger : Ledger) (consumer : γ)
    (events : List (OutboxEvent γ)) :
    let outbox := run settings (new ledger consumer) events
    let smooth := run settings.accepting (new ledger ()) (events.map OutboxEvent.accepting)
    outbox.desk = smooth.desk ∧
      outbox.dispatches.map Dispatch.batches = smooth.dispatches.map Dispatch.batches := by
  have same : (events.map OutboxEvent.accepting).filterMap (·.desk? settings.accepting) =
      events.filterMap (·.desk? settings) := by
    rw [List.filterMap_map]
    exact congrArg (List.filterMap · events) (funext fun event => event.accepting_desk? settings)
  refine ⟨?_, ?_⟩
  · rw [run_desk, run_desk, same]
    rfl
  · rw [run_made, run_made, same]
    rfl

end Outbox

/-- What can be said of a commit at any time after it was made of the accepted samples. -/
structure Dispatch.Delivers (accepted : List (Node × Sample)) (dispatch : Dispatch) : Prop where
  ascending : (dispatch.batches.map Batch.node).Pairwise Node.Before
  nodes : ∀ node, node ∈ dispatch.batches.map Batch.node ↔ ∃ sample, (node, sample) ∈ accepted
  inOrder : dispatch.offers.map Offer.batch <+: dispatch.batches
  stage : dispatch.IsUntouched ∨ dispatch.IsHeld ∨ dispatch.HasEnded
  succeeds : dispatch.result = some (.ok ()) ↔
    dispatch.HasEnded ∧ ∀ offer ∈ dispatch.offers, ∀ cause, offer.answer ≠ .rejected cause
  silent : accepted = [] → dispatch.offers = []

namespace Dispatch

variable {dispatch : Dispatch}

theorem result_isOk_iff (stage : dispatch.IsUntouched ∨ dispatch.IsHeld ∨ dispatch.HasEnded) :
    dispatch.result = some (.ok ()) ↔
      dispatch.HasEnded ∧ ∀ offer ∈ dispatch.offers, ∀ cause, offer.answer ≠ .rejected cause := by
  rw [← Offer.outcome_isOk_iff]
  constructor
  · intro succeeded
    rcases stage with untouched | ⟨_, _, _, _, missing⟩ | ended
    · cases untouched.2.symm.trans succeeded
    · cases missing.symm.trans succeeded
    · exact ⟨ended, Option.some.inj (ended.2.2.symm.trans succeeded)⟩
  · rintro ⟨ended, outcome⟩
    rw [ended.2.2, outcome]

/-- A commit that proceeds with the batches of a transaction delivers what it holds. -/
theorem Delivers.of_batches {transaction : Transaction} {accepted : List (Node × Sample)}
    {answered pending : List Offer} (proceeds : dispatch.Proceeds answered pending)
    (collects : transaction.Collects accepted) (receiver : String) (now : Nat) (ledger : Ledger)
    (batches : dispatch.batches = (transaction.commit receiver now ledger).2) :
    dispatch.Delivers accepted := by
  have present (node : Node) :
      node ∈ dispatch.batches.map Batch.node ↔ ∃ sample, (node, sample) ∈ accepted := by
    rw [batches]
    exact collects.mem_batches_iff
  refine ⟨?_, present, proceeds.offers_prefix, proceeds.stages, result_isOk_iff proceeds.stages, ?_⟩
  · rw [batches]
    exact (Transaction.batchesOf_nodes receiver ledger _).symm ▸ transaction.targets_ascending
  · rintro rfl
    have empty : dispatch.batches = [] :=
      List.map_eq_nil_iff.mp (List.eq_nil_iff_forall_not_mem.mpr fun node member => by
        obtain ⟨sample, nothing⟩ := (present node).mp member
        cases nothing)
    have offers := proceeds.offers_prefix
    rw [empty] at offers
    exact List.map_eq_nil_iff.mp (List.prefix_nil.mp offers)

end Dispatch

namespace Outbox

variable {settings : IntakeSettings γ}

/-- The batches of a commit stay what they are. -/
theorem run_batches (settings : IntakeSettings γ) {outbox : Outbox γ} {number : Nat}
    {dispatch : Dispatch} (found : outbox.dispatches[number]? = some dispatch)
    (events : List (OutboxEvent γ)) :
    ∃ later, (run settings outbox events).dispatches[number]? = some later ∧
      later.batches = dispatch.batches := by
  have bound : number < (outbox.dispatches.map Dispatch.batches).length := by
    simpa using (List.getElem?_eq_some_iff.mp found).1
  have made := congrArg (·[number]?) (run_made settings outbox events)
  simp only [List.getElem?_append_left bound, List.getElem?_map, found, Option.map_some] at made
  exact Option.map_eq_some_iff.mp made

/-- A commit offers its batches in the order of jobs and then of addresses, each at most once,
and a rejected batch does not keep the later ones back. The commit ends once all are answered,
well if none was rejected and else with the last rejection; given up while a batch is not
answered, it leaves it at the batches before that one. None of this shows in the ledger, nor in
any batch: both are as if the consumer took everything. -/
theorem commit_delivers (settings : IntakeSettings γ) (ledger : Ledger) (consumer : γ)
    (before after : List (OutboxEvent γ)) (slot now : Nat) :
    let accepted := Desk.accepted settings.filter slot (before.filterMap (·.desk? settings))
    let number := (run settings (new ledger consumer) before).dispatches.length
    let events := before ++ .commit slot now :: after
    let outbox := run settings (new ledger consumer) events
    let smooth := run settings.accepting (new ledger ()) (events.map OutboxEvent.accepting)
    (∃ dispatch, outbox.dispatches[number]? = some dispatch ∧ dispatch.Delivers accepted ∧
        (∀ now, ∃ resumed,
          (outbox.perform settings (.resume number now)).dispatches[number]? = some resumed ∧
            resumed.batches = dispatch.batches ∧ (resumed.IsHeld ∨ resumed.HasEnded)) ∧
        ∀ others : List (OutboxEvent γ), (∀ event ∈ others, event.resumes number = false) →
          (run settings outbox others).dispatches[number]? = some dispatch) ∧
      outbox.desk = smooth.desk ∧
      outbox.dispatches.map Dispatch.batches = smooth.dispatches.map Dispatch.batches ∧
      ∀ dispatch ∈ smooth.dispatches,
        dispatch.IsUntouched ∨ (dispatch.HasEnded ∧ dispatch.IsTaken) := by
  intro accepted number events outbox smooth
  refine ⟨?_, (run_as_accepting settings ledger consumer events).1,
    (run_as_accepting settings ledger consumer events).2, run_accepting settings ledger _⟩
  have collects :
      ((run settings (new ledger consumer) before).slots slot).Collects accepted := by
    have slots := congrArg Desk.slots (run_desk settings (new ledger consumer) before)
    exact (congrArg (·.Collects accepted) (congrFun slots slot)).mpr
      (Desk.run_collects settings.receiver settings.filter ledger _ slot)
  have made : ((run settings (new ledger consumer) before).perform settings
      (.commit slot now)).dispatches[number]? = some (.new now _) := List.getElem?_concat_length
  obtain ⟨dispatch, found, batches⟩ := run_batches settings made after
  have reached : outbox.dispatches[number]? = some dispatch := by
    rw [← found]
    exact congrArg (fun outbox => outbox.dispatches[number]?) (run_append before _)
  obtain ⟨answered, pending, proceeds⟩ :=
    run_proceeds new_proceeds events dispatch (List.mem_of_getElem? reached)
  refine ⟨dispatch, reached, ?_, ?_, ?_⟩
  · exact .of_batches proceeds collects settings.receiver (settings.ledgerTime now) _ batches
  · intro now
    exact ⟨_, perform_resume reached now, rfl,
      (Dispatch.resume_proceeds proceeds settings now outbox.intake).2⟩
  · intro others apart
    exact run_kept reached apart

end Outbox

end ScrapeRelay
