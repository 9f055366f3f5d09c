import ScrapeRelay.Proofs.Lifecycle.Session

/-!
# A session on one thread

On a single thread a request is carried out as a whole, and a task keeps the turn from
one wait to the next. A history is any sequence of requests, turns of tasks, and what
happens outside; which task takes its turn, and when, is left open.
-/

namespace ScrapeRelay.Lifecycle

inductive Event (ε α : Type) where
  | start
  | stop
  | cancelHost
  | wait (nanos : Nat)
  | turn (task : SessionTask α)
  | outside (change : ε → ε)

namespace Session

variable {ε α : Type} {engines : Engines ε α} {session : Session ε}

def perform (engines : Engines ε α) (session : Session ε) : Event ε α → Session ε
  | .start => session.start.1
  | .stop => session.stop
  | .cancelHost => session.cancelHost
  | .wait nanos => { session with now := session.now + nanos }
  | .turn task => session.turn engines task
  | .outside change => { session with engines := change session.engines }

def run (engines : Engines ε α) (session : Session ε) (events : List (Event ε α)) : Session ε :=
  events.foldl (perform engines) session

@[simp] theorem run_nil : run engines session [] = session := rfl

@[simp] theorem run_cons (event : Event ε α) (events : List (Event ε α)) :
    run engines session (event :: events) = run engines (perform engines session event) events :=
  rfl

theorem run_append (before after : List (Event ε α)) :
    run engines session (before ++ after) = run engines (run engines session before) after :=
  List.foldl_append

theorem run_keeps (holds : Session ε → Prop) {events : List (Event ε α)}
    (kept : ∀ session, ∀ event ∈ events, holds session → holds (perform engines session event))
    (first : holds session) : holds (run engines session events) := by
  induction events generalizing session with
  | nil => exact first
  | cons event rest ih =>
      exact ih (fun session event member => kept session event (List.mem_cons_of_mem _ member))
        (kept session event List.mem_cons_self first)

/-- What the steps of a task keep is kept by its turns. -/
theorem turn_keeps (engines : Engines ε α) (task : SessionTask α) (holds : Session ε → Prop)
    (kept : ∀ session, holds session → holds (session.step engines task))
    (first : holds session) : holds (session.turn engines task) := by
  cases task with
  | startup =>
      have repeated (steps : Nat) : holds (Nat.repeat (startupStep engines) steps session) := by
        induction steps with
        | zero => exact first
        | succ steps ih => exact kept _ ih
      exact repeated stepsPerTurn
  | scraping =>
      rw [turn, scrapingTurn]
      split
      · exact kept _ (kept _ first)
      · exact kept _ first
  | _ => exact kept _ first

/-- The scrape engine is called by the time the gate is open, and before the settings are
applied. -/
structure BegunFirst (session : Session ε) : Prop where
  gate : session.gateIsOpen = true → ∃ start, (start, Call.runScraping) ∈ session.calls
  ordered : ∀ place time : Nat, session.calls[place]? = some (time, .applyDiscovery) →
    ∃ earlier start : Nat, earlier < place ∧ session.calls[earlier]? = some (start, .runScraping)

namespace BegunFirst

theorem new (engines : Engines ε α) (receiver : Config.Receiver) :
    (new engines receiver).BegunFirst := by
  constructor <;> simp [Session.new]

theorem append (begun : session.BegunFirst) {after : Session ε} {added : List (Nat × Call)}
    (calls : after.calls = session.calls ++ added)
    (waits : ∀ time, (time, Call.applyDiscovery) ∈ added → session.gateIsOpen = true)
    (gate : after.gateIsOpen = true →
      session.gateIsOpen = true ∨ ∃ start, (start, Call.runScraping) ∈ added) :
    after.BegunFirst := by
  constructor
  · intro isOpen
    rw [calls]
    obtain before | ⟨start, member⟩ := gate isOpen
    · obtain ⟨start, member⟩ := begun.gate before
      exact ⟨start, List.mem_append_left _ member⟩
    · exact ⟨start, List.mem_append_right _ member⟩
  · intro place time applied
    rw [calls, List.getElem?_append] at applied
    split at applied
    · rename_i inside
      obtain ⟨earlier, start, before, called⟩ := begun.ordered place time applied
      refine ⟨earlier, start, before, ?_⟩
      rw [calls, List.getElem?_append_left (Nat.lt_trans before inside)]
      exact called
    · rename_i outside
      obtain ⟨start, member⟩ := begun.gate (waits time (List.mem_of_getElem? applied))
      obtain ⟨earlier, called⟩ := List.mem_iff_getElem?.mp member
      have bound := (List.getElem?_eq_some_iff.mp called).1
      refine ⟨earlier, start, by omega, ?_⟩
      rw [calls, List.getElem?_append_left bound]
      exact called

theorem frame (begun : session.BegunFirst) {after : Session ε}
    (calls : after.calls = session.calls) (gate : after.gateIsOpen = session.gateIsOpen) :
    after.BegunFirst :=
  begun.append (calls.trans (List.append_nil _).symm) (by simp)
    (fun isOpen => .inl (gate.symm.trans isOpen))

theorem startupStep (engines : Engines ε α) (begun : session.BegunFirst) :
    (session.startupStep engines).BegunFirst := by
  obtain ⟨added, calls, waits⟩ := session.step_calls engines .startup
  have gate := (session.startupStep_frame engines).2.2.1
  exact begun.append calls (fun time member => (waits time member).2)
    (fun isOpen => .inl (gate.symm.trans isOpen))

theorem scrapingTurn (engines : Engines ε α) (begun : session.BegunFirst) :
    (session.scrapingTurn engines).BegunFirst := by
  -- A step that does not open the gate adds to the calls only.
  have stepped {before : Session ε} (begun : before.BegunFirst)
      (gate : (before.scrapingStep engines).gateIsOpen = before.gateIsOpen) :
      (before.scrapingStep engines).BegunFirst := by
    obtain ⟨added, calls, waits⟩ := before.step_calls engines .scraping
    exact begun.append calls (fun time member => (waits time member).2)
      (fun isOpen => .inl (gate.symm.trans isOpen))
  unfold Session.scrapingTurn
  split
  · rename_i wake asleep
    obtain ⟨same, _⟩ | ⟨_, _, _, opened⟩ | ⟨woken, _⟩ := session.scrapingStep_calls engines
    · rw [same]
      exact stepped begun (by rw [same])
    · obtain ⟨_, notAwake⟩ | ⟨_, awake, _⟩ | ⟨_, _, _, ended, only, calls⟩ :=
        (session.scrapingStep engines).scrapingStep_calls engines
      · simp [opened] at notAwake
      · simp [opened] at awake
      · have added : ((session.scrapingStep engines).scrapingStep engines).calls =
            session.calls ++ ((session.now, .runScraping) :: ended) := by
          rw [calls, opened]
          rfl
        refine begun.append added ?_ fun _ => .inr ⟨session.now, List.mem_cons_self⟩
        intro time member
        obtain same | member := List.mem_cons.mp member
        · simp at same
        · simpa using only _ member
    · simp [asleep, RunPhase.hasWoken] at woken
  · rename_i notAsleep
    refine stepped begun ?_
    obtain ⟨same, _⟩ | ⟨wake, asleep, _⟩ | ⟨_, _, gate, _⟩ := session.scrapingStep_calls engines
    · rw [same]
    · exact absurd asleep (notAsleep wake)
    · exact gate

theorem perform (engines : Engines ε α) (begun : session.BegunFirst) (event : Event ε α) :
    (perform engines session event).BegunFirst := by
  cases event with
  | start =>
      rw [Session.perform, start_eq]
      split
      · exact begun.frame rfl rfl
      · exact begun
  | stop => exact begun.frame rfl rfl
  | cancelHost => exact begun.frame rfl rfl
  | wait nanos => exact begun.frame rfl rfl
  | turn task =>
      cases task with
      | startup =>
          exact turn_keeps engines .startup BegunFirst
            (fun _ begun => begun.startupStep engines) begun
      | discovery =>
          obtain ⟨added, calls, waits⟩ := session.step_calls engines .discovery
          obtain ⟨_, _, _, _, _, stepped⟩ := session.discoveryTurn_frame engines
          have gate : (session.step engines .discovery).gateIsOpen = session.gateIsOpen := by
            rw [step, stepped]
          exact begun.append calls (fun time member => (waits time member).2)
            (fun isOpen => .inl (gate.symm.trans isOpen))
      | scraping => exact begun.scrapingTurn engines
      | logging =>
          obtain ⟨_, _, stepped⟩ := session.loggingTurn_frame
          have logged : session.loggingTurn.BegunFirst :=
            begun.frame (by rw [stepped]) (by rw [stepped])
          exact logged
      | engine task => exact begun.frame rfl rfl
  | outside change => exact begun.frame rfl rfl

theorem run (engines : Engines ε α) (begun : session.BegunFirst) (events : List (Event ε α)) :
    (run engines session events).BegunFirst :=
  run_keeps BegunFirst (fun _ event _ begun => begun.perform engines event) begun

end BegunFirst

end Session

end ScrapeRelay.Lifecycle
