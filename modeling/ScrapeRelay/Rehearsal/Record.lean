import ScrapeRelay.Discovery.Registry
import ScrapeRelay.Intake
import ScrapeRelay.Scrape.Loop

/-!
# Stand-ins that keep records

For rehearsals on a virtual clock: a scraper and provider builders that follow a
script, and a sink and a consumer that record what reaches them. Each keeps its
records with the instants in its own state.
-/

namespace ScrapeRelay.Rehearsal

open ScrapeRelay.Discovery (Builder Discoverer Registry)
open ScrapeRelay.Scrape (Response Resumption Scraper Shared Sink)

inductive Event where
  /-- A target was asked for its samples. -/
  | scraped (target : Target) (path scheme : String)
  | commitStarted (node : Node) (samples : List Sample)
  | rolledBack (node : Node) (samples : List Sample)
  | committed (node : Node)
  /-- A batch was taken. Its generation is counted among those of its node. -/
  | batch (batch : Batch)

abbrev Records := List (Nat × Event)

/-- The answers of each address in order, of which the last one repeats. -/
abbrev Scripts := SortedMap (List Response)

structure ScraperState where
  asked : SortedMap Nat
  records : Records

def ScraperState.new : ScraperState := ⟨.empty, []⟩

def refusal : Response := ⟨some ⟨0⟩, .error (.plain "connection refused")⟩

def answerAt (responses : List Response) (place : Nat) : Response :=
  (responses[min place (responses.length - 1)]?).getD refusal

def scriptedScraper (scripts : Scripts) : Scraper ScraperState :=
  fun now state target job =>
    let place := (state.asked.get? target.address).getD 0
    let event := Event.scraped target job.metricsPath job.scheme
    (⟨state.asked.insert target.address (place + 1), (now, event) :: state.records⟩,
      answerAt ((scripts.get? target.address).getD []) place)

def textOption (options : Toml.Entries) (key : String) : String :=
  match Toml.find? key options with
  | some (.text value) => value
  | _ => ""

/-- The texts of an option that is a list, if the option is there. -/
def textsOption? (options : Toml.Entries) (key : String) : Option (List String) :=
  match Toml.find? key options with
  | some (.array elements) =>
      some (elements.filterMap (fun element =>
        match element with
        | .text value => some value
        | _ => none))
  | some _ => some []
  | none => none

def zoneGroup (source : String) (addresses : List String) : TargetGroup :=
  .ofAddresses source addresses (SortedMap.empty.insert "zone" "eu-1")

def manualBuilder : Builder := fun _ provider =>
  .ok ⟨some (textOption provider.options "id"), none, none⟩

def fixedBuilder : Builder := fun _ provider =>
  match textsOption? provider.options "addresses" with
  | some addresses => .ok (.fixed [zoneGroup "fixed" addresses])
  | none => .error (.plain "missing addresses")

def crashingBuilder : Builder := fun _ provider =>
  let opening := (textsOption? provider.options "addresses").map
    (fun addresses => [zoneGroup "fail_run" addresses])
  .ok ⟨none, opening,
    some (.plain ("resolver " ++ textOption provider.options "id" ++ " crashed"))⟩

/-- A provider that cannot be built. A context is told with the reason unless it is
empty. -/
def failingBuilder : Builder := fun job provider =>
  let text := "cannot build " ++ textOption provider.options "id" ++ " for " ++ job
  let context := textOption provider.options "context"
  .error ⟨text, if context = "" then [] else [context]⟩

def registry : Registry := fun kind =>
  if kind = "manual" then some manualBuilder
  else if kind = "fixed" then some fixedBuilder
  else if kind = "fail_run" then some crashingBuilder
  else if kind = "fail_build" then some failingBuilder
  else none

structure SinkScript where
  /-- The names of the samples that are refused. -/
  refused : List String
  delay : Duration
  failure : Option String

/-- Samples that were appended, with the target of the first one. -/
structure Appended where
  node : Node
  samples : List Sample

def Appended.new : Appended := ⟨⟨"", ""⟩, []⟩

def Appended.add (appended : Appended) (node : Node) (sample : Sample) : Appended :=
  ⟨if appended.samples.isEmpty then node else appended.node, appended.samples ++ [sample]⟩

/-- A sink that records its commits. A commit in progress is its target and the
instant at which it is complete. -/
def recordingSink (script : SinkScript) : Sink Records Appended (Node × Nat) where
  begin := .new
  append _ records appended address job sample :=
    if script.refused.contains sample.name then
      (records, .error (.badJob job (.stated ("rejected " ++ sample.name))))
    else (records, .ok (appended.add ⟨job, address⟩ sample))
  rollback now records appended :=
    (now, .rolledBack appended.node appended.samples) :: records
  commit now records appended :=
    ((now, .commitStarted appended.node appended.samples) :: records,
      (appended.node, now + script.delay.nanos))
  isBlocked now _ commit := now < commit.2
  resume now records commit :=
    if now < commit.2 then ⟨records, [], commit, none⟩
    else
      match script.failure with
      | some text => ⟨records, [], commit, some (.error (.consumer (.plain text)))⟩
      | none => ⟨(now, .committed commit.1) :: records, [], commit, some (.ok ())⟩
  due _ commit := some commit.2

/-- How a recording consumer behaves, by the address of a batch. -/
structure ConsumerScript where
  failures : SortedMap String
  delays : SortedMap Duration

structure ConsumerState where
  /-- The generations of each target that were offered, in order of first appearance. -/
  seen : List (Node × Nat)
  records : Records

def ConsumerState.new : ConsumerState := ⟨[], []⟩

/-- The place of a generation among those seen of a target, counted from one. -/
def ordinal (seen : List (Node × Nat)) (node : Node) (generation : Nat) : Nat :=
  (seen.filter (fun entry => entry.1 = node)).idxOf (node, generation) + 1

def ConsumerState.see (state : ConsumerState) (batch : Batch) : ConsumerState :=
  let entry := (batch.node, batch.generation)
  if state.seen.contains entry then state else { state with seen := state.seen ++ [entry] }

/-- Take a batch that was seen, with its generation counted among those of its target. -/
def ConsumerState.take (now : Nat) (state : ConsumerState) (batch : Batch) : ConsumerState :=
  let place := ordinal state.seen batch.node batch.generation
  { state with records := (now, .batch { batch with generation := place }) :: state.records }

def ConsumerScript.delay (script : ConsumerScript) (batch : Batch) : Duration :=
  (script.delays.get? batch.node.address).getD ⟨0⟩

def recordingConsumer (script : ConsumerScript) : Consumer ConsumerState where
  offer offered now state batch :=
    let state := state.see batch
    if now < offered + (script.delay batch).nanos then (state, .blocked)
    else
      match script.failures.get? batch.node.address with
      | some text => (state, .rejected (.plain text))
      | none => (state.take now batch, .accepted)
  due offered _ batch := some (offered + (script.delay batch).nanos)

def ScraperState.drain (state : ScraperState) : ScraperState × Records :=
  ({ state with records := [] }, state.records)

def ConsumerState.drain (state : ConsumerState) : ConsumerState × Records :=
  ({ state with records := [] }, state.records)

def drainSink (records : Records) : Records × Records := ([], records)

def drainIntake (intake : Intake ConsumerState) : Intake ConsumerState × Records :=
  let (consumer, records) := intake.consumer.drain
  ({ intake with consumer := consumer }, records)

def drainShared {σ : Type} (drain : σ → σ × Records) (shared : Shared ScraperState σ) :
    Shared ScraperState σ × Records :=
  let (scraper, asked) := shared.scraper.drain
  let (sink, taken) := drain shared.sink
  (⟨scraper, sink⟩, asked ++ taken)

/-- The time at which rehearsals start, in milliseconds. It is far from the times that
samples have of their own. -/
def epoch : Int64 := 4611686421357924671

/-- How long a rehearsal waits for anything at most: thirty years. -/
def longestWait : Duration := .ofSeconds (30 * 365 * 86400)

def span : Int64 := 1099511627776

def wallTime (now : Nat) : Int64 := epoch + Int64.ofNat (now / 1000000)

def isStamped (time : Int64) : Bool := epoch ≤ time && time < epoch + span

end ScrapeRelay.Rehearsal
