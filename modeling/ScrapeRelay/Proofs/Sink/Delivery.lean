import ScrapeRelay.Delivery

/-!
# Offers

What a consumer is offered can be noted without changing what it answers. The notes of a
delivery follow its batches from the first one on: all offers but the last are answered, and
the last one is not exactly if the delivery has to wait there (`offerAll_goesOn`). Whether a
batch was accepted or rejected makes no difference to what is offered next.
-/

namespace ScrapeRelay

/-- A batch that a consumer was offered, and its answer so far. -/
structure Offer where
  batch : Batch
  answer : Answer
deriving DecidableEq

namespace Offer

def isAnswered (offer : Offer) : Bool := offer.answer ≠ .blocked

/-- Why a batch was rejected, if it was. -/
def cause? (offer : Offer) : Option Cause :=
  match offer.answer with
  | .rejected cause => some cause
  | _ => none

/-- Note an answer. Asking again for the answer to a batch is no new offer. -/
def note (offers : List Offer) (offer : Offer) : List Offer :=
  if offers.getLast? = some ⟨offer.batch, .blocked⟩ then offers.dropLast ++ [offer]
  else offers ++ [offer]

theorem forall_note {holds : Offer → Prop} {offers : List Offer} {offer : Offer}
    (old : ∀ earlier ∈ offers, holds earlier) (new : holds offer) :
    ∀ noted ∈ note offers offer, holds noted := by
  intro noted member
  unfold note at member
  split at member
  · rcases List.mem_append.mp member with earlier | last
    · exact old noted (List.dropLast_subset _ earlier)
    · rwa [List.mem_singleton.mp last]
  · rcases List.mem_append.mp member with earlier | last
    · exact old noted earlier
    · rwa [List.mem_singleton.mp last]

/-- The result of a commit whose batches were all answered. -/
def outcome (offers : List Offer) : Except Failure Unit :=
  match (offers.filterMap cause?).getLast? with
  | some cause => .error (.consumer cause)
  | none => .ok ()

theorem outcome_isOk_iff (offers : List Offer) :
    outcome offers = .ok () ↔ ∀ offer ∈ offers, ∀ cause, offer.answer ≠ .rejected cause := by
  have causes : outcome offers = .ok () ↔ offers.filterMap cause? = [] := by
    unfold outcome
    cases last : (offers.filterMap cause?).getLast? with
    | none => simpa using List.getLast?_eq_none_iff.mp last
    | some cause =>
        have filled := List.ne_nil_of_mem (List.mem_of_getLast? last)
        simp [filled]
  rw [causes, List.filterMap_eq_nil_iff]
  refine forall_congr' fun offer => imp_congr_right fun _ => ?_
  unfold cause?
  cases offer.answer <;> simp

end Offer

variable {γ : Type}

/-- A consumer with notes of what it is offered. -/
def Consumer.noting (taker : Consumer γ) : Consumer (γ × List Offer) where
  offer offered now state batch :=
    let (consumer, answer) := taker.offer offered now state.1 batch
    ((consumer, Offer.note state.2 ⟨batch, answer⟩), answer)
  due offered state batch := taker.due offered state.1 batch

theorem Consumer.noting_offer {taker : Consumer γ} {offered now : Nat} {consumer after : γ}
    {batch : Batch} {answer : Answer}
    (asked : taker.offer offered now consumer batch = (after, answer))
    (offers : List Offer) :
    taker.noting.offer offered now (consumer, offers) batch =
      ((after, Offer.note offers ⟨batch, answer⟩), answer) := by
  simp only [noting, asked]

namespace Delivery

variable {taker : Consumer γ} {now offered : Nat} {consumer after : γ} {batch : Batch}
  {batches rest : List Batch} {cause : Cause} {rejection : Option Cause}
  {answered pending : List Offer}

theorem offerAll_of_accepted (asked : taker.offer offered now consumer batch = (after, .accepted)) :
    offerAll taker now offered consumer rejection (batch :: rest) =
      offerAll taker now now after rejection rest := by
  simp only [offerAll, asked]

theorem offerAll_of_rejected
    (asked : taker.offer offered now consumer batch = (after, .rejected cause)) :
    offerAll taker now offered consumer rejection (batch :: rest) =
      { offerAll taker now now after (some cause) rest with
        rejections := ⟨batch.node, cause⟩ ::
          (offerAll taker now now after (some cause) rest).rejections } := by
  simp only [offerAll, asked]

theorem offerAll_of_blocked (asked : taker.offer offered now consumer batch = (after, .blocked)) :
    offerAll taker now offered consumer rejection (batch :: rest) =
      ⟨after, [], ⟨batch :: rest, offered, rejection⟩⟩ := by
  simp only [offerAll, asked]

/-- Notes do not change how a delivery goes. -/
theorem offerAll_noting (taker : Consumer γ) (now offered : Nat) (consumer : γ)
    (offers : List Offer) (rejection : Option Cause) (batches : List Batch) :
    let noted := offerAll taker.noting now offered (consumer, offers) rejection batches
    let plain := offerAll taker now offered consumer rejection batches
    noted.consumer.1 = plain.consumer ∧ noted.rejections = plain.rejections ∧
      noted.rest = plain.rest := by
  induction batches generalizing offered consumer offers rejection with
  | nil => exact ⟨rfl, rfl, rfl⟩
  | cons batch rest ih =>
      rcases asked : taker.offer offered now consumer batch with ⟨after, answer⟩
      have noted := Consumer.noting_offer asked offers
      cases answer with
      | accepted =>
          rw [offerAll_of_accepted asked, offerAll_of_accepted noted]
          exact ih ..
      | rejected cause =>
          rw [offerAll_of_rejected asked, offerAll_of_rejected noted]
          obtain ⟨state, rejections, left⟩ := ih now after
            (Offer.note offers ⟨batch, .rejected cause⟩) (some cause)
          exact ⟨state, congrArg _ rejections, left⟩
      | blocked =>
          rw [offerAll_of_blocked asked, offerAll_of_blocked noted]
          exact ⟨rfl, rfl, rfl⟩

/-- What a delivery waits for: the answer to its first batch, unless that was not offered. -/
def IsHeldAt (pending : List Offer) (batches : List Batch) : Prop :=
  pending = [] ∨ ∃ batch rest, pending = [⟨batch, .blocked⟩] ∧ batches = batch :: rest

theorem note_pending (complete : ∀ offer ∈ answered, offer.isAnswered = true)
    (held : IsHeldAt pending (batch :: rest)) (answer : Answer) :
    Offer.note (answered ++ pending) ⟨batch, answer⟩ = answered ++ [⟨batch, answer⟩] := by
  rcases held with rfl | ⟨_, _, rfl, same⟩
  · rw [List.append_nil, Offer.note, if_neg]
    intro last
    have waits := complete _ (List.mem_of_getLast? last)
    simp [Offer.isAnswered] at waits
  · obtain ⟨rfl, rfl⟩ := List.cons.inj same
    simp [Offer.note]

/-- A delivery that had some answers goes on with the given batches: it gets more answers, and
then all batches are answered or the first of the others is pending. -/
structure GoesOn (answered more pending : List Offer) (rejection : Option Cause)
    (batches : List Batch) (offers : List Offer) (left : Delivery) : Prop where
  complete : ∀ offer ∈ more, offer.isAnswered = true
  split : batches = more.map Offer.batch ++ left.batches
  rejection : left.rejection = ((more.filterMap Offer.cause?).getLast?).or rejection
  offers : offers = answered ++ more ++ pending
  held : IsHeldAt pending left.batches
  ends : pending = [] → left.batches = []

/-- An answered batch is one of those that were answered before the rest. -/
theorem GoesOn.answer {more offers : List Offer} {offer : Offer} {left : Delivery}
    (goesOn : GoesOn (answered ++ [offer]) more pending (offer.cause?.or rejection) rest offers
      left)
    (isAnswered : offer.isAnswered = true) :
    GoesOn answered (offer :: more) pending rejection (offer.batch :: rest) offers left where
  complete := by simpa [isAnswered] using goesOn.complete
  split := by rw [List.map_cons, List.cons_append, ← goesOn.split]
  rejection := by
    rw [goesOn.rejection, List.filterMap_cons]
    cases offer.cause? with
    | none => rfl
    | some cause =>
        cases found : (more.filterMap Offer.cause?).getLast? <;> simp [List.getLast?_cons, found]
  offers := by rw [goesOn.offers, List.append_assoc answered, List.singleton_append]
  held := goesOn.held
  ends := goesOn.ends

/-- A delivery offers its batches one after the other, until one is not answered. -/
theorem offerAll_goesOn (taker : Consumer γ) (now offered : Nat) (consumer : γ)
    (rejection : Option Cause) (complete : ∀ offer ∈ answered, offer.isAnswered = true)
    (held : IsHeldAt pending batches) :
    let progress :=
      offerAll taker.noting now offered (consumer, answered ++ pending) rejection batches
    ∃ more waiting,
      GoesOn answered more waiting rejection batches progress.consumer.2 progress.rest := by
  induction batches generalizing answered pending offered consumer rejection with
  | nil =>
      have empty : pending = [] := by
        rcases held with empty | ⟨_, _, _, nothing⟩
        · exact empty
        · cases nothing
      subst empty
      exact ⟨[], [], by simp, rfl, rfl, by simp [offerAll], .inl rfl, fun _ => rfl⟩
  | cons batch rest ih =>
      rcases asked : taker.offer offered now consumer batch with ⟨after, answer⟩
      have noted := Consumer.noting_offer asked (answered ++ pending)
      rw [note_pending complete held] at noted
      have completes (isAnswered : Offer.isAnswered ⟨batch, answer⟩ = true) :
          ∀ offer ∈ answered ++ [⟨batch, answer⟩], offer.isAnswered = true := by
        intro offer member
        rcases List.mem_append.mp member with old | new
        · exact complete offer old
        · rw [List.mem_singleton.mp new]
          exact isAnswered
      cases answer with
      | accepted =>
          obtain ⟨more, waiting, later⟩ := ih now after rejection (completes rfl) (.inl rfl)
          rw [List.append_nil] at later
          rw [offerAll_of_accepted noted]
          exact ⟨_ :: more, waiting, later.answer rfl⟩
      | rejected cause =>
          obtain ⟨more, waiting, later⟩ := ih now after (some cause) (completes rfl) (.inl rfl)
          rw [List.append_nil] at later
          rw [offerAll_of_rejected noted]
          exact ⟨_ :: more, waiting, later.answer rfl⟩
      | blocked =>
          rw [offerAll_of_blocked noted]
          exact ⟨[], [⟨batch, .blocked⟩], by simp, rfl, rfl, by simp,
            .inr ⟨batch, rest, rfl, rfl⟩, nofun⟩

/-- A consumer that takes every batch is known to have taken all it was offered. -/
theorem offerAll_of_taking
    (takes : ∀ offered now state batch, (taker.offer offered now state batch).2 = .accepted)
    {offers : List Offer} (taken : ∀ offer ∈ offers, offer.answer = .accepted) :
    ∀ offer ∈ (offerAll taker.noting now offered (consumer, offers) rejection batches).consumer.2,
      offer.answer = .accepted := by
  induction batches generalizing offered consumer offers with
  | nil => exact taken
  | cons batch rest ih =>
      rcases asked : taker.offer offered now consumer batch with ⟨after, answer⟩
      have answered := takes offered now consumer batch
      rw [asked] at answered
      obtain rfl : answer = .accepted := answered
      rw [offerAll_of_accepted (Consumer.noting_offer asked offers)]
      exact ih (Offer.forall_note taken rfl)

end Delivery

end ScrapeRelay
