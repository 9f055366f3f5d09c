import ScrapeRelay.Binary64
import ScrapeRelay.Duration
import ScrapeRelay.SortedMap

/-!
# The activity ledger

A record for each target that has delivered samples: when it was last heard of,
which generation it is in, and where each of its cumulative series started. A
target that was quiet for the whole staleness window counts as a new process when
it is heard of again: it enters a new generation and its series start afresh.

Instants are nanoseconds from a fixed origin. They need not be given in order;
an instant before the last one counts as no time passed.
-/

namespace ScrapeRelay

/-- Where a cumulative series started and the value it had last. -/
structure SeriesStart where
  start : Int64
  last : Binary64
deriving DecidableEq

structure LedgerRecord where
  lastSeen : Nat
  generation : Nat
  series : SortedMap SeriesStart
deriving DecidableEq

def LedgerRecord.isQuiet (record : LedgerRecord) (now : Nat) (window : Duration) : Bool :=
  window.nanos ≤ now - record.lastSeen

structure Ledger where
  records : SortedMap LedgerRecord
  /-- Generations are handed out in order and never twice. -/
  nextGeneration : Nat
  lastSweep : Option Nat
  window : Duration
deriving DecidableEq

/-- The generation that a mark falls into, and whether the mark opened it. -/
structure Mark where
  generation : Nat
  opened : Bool
deriving DecidableEq

def defaultStaleness : Duration := .ofSeconds 120

namespace Ledger

def new (window : Duration) : Ledger := ⟨.empty, 1, none, window⟩

def size (ledger : Ledger) : Nat := ledger.records.size

def isEmpty (ledger : Ledger) : Bool := ledger.records.isEmpty

/-- Record activity of a job. A job that is unknown, or was quiet for the window,
opens a new generation without series. -/
def mark (ledger : Ledger) (job : String) (now : Nat) : Ledger × Mark :=
  let keep (record : LedgerRecord) : Ledger :=
    { ledger with records := ledger.records.insert job { record with lastSeen := now } }
  let renew : Ledger × Mark :=
    ({ ledger with
        records := ledger.records.insert job ⟨now, ledger.nextGeneration, .empty⟩
        nextGeneration := ledger.nextGeneration + 1 },
      ⟨ledger.nextGeneration, true⟩)
  match ledger.records.get? job with
  | some record =>
      if record.isQuiet now ledger.window then renew
      else (keep record, ⟨record.generation, false⟩)
  | none => renew

/-- Whether a job has been quiet for a window. An unknown job has. -/
def isStale (ledger : Ledger) (job : String) (now : Nat) (window : Duration) : Bool :=
  match ledger.records.get? job with
  | some record => record.isQuiet now window
  | none => true

def sweep (ledger : Ledger) (now : Nat) (window : Duration) : Ledger × Nat :=
  let kept := ledger.records.filter (fun _ record => !record.isQuiet now window)
  ({ ledger with records := kept, lastSweep := some now }, ledger.size - kept.size)

def sweepIsDue (ledger : Ledger) (now : Nat) : Bool :=
  match ledger.lastSweep with
  | some last => ledger.window.half.nanos ≤ now - last
  | none => true

def sweepIfDue (ledger : Ledger) (now : Nat) : Ledger × Nat :=
  if ledger.sweepIsDue now then ledger.sweep now ledger.window else (ledger, 0)

def isReset (last value : Binary64) : Bool :=
  value.isFinite && last.isFinite && value.less last

/-- Record a value of a cumulative series and return the start time of the series.
A series that is new or was reset starts at the given time. NaN marks a gap and
changes nothing. Without a record of the job nothing is kept. -/
def observe (ledger : Ledger) (job key : String) (value : Binary64) (time : Int64) :
    Ledger × Int64 :=
  match ledger.records.get? job with
  | none => (ledger, time)
  | some record =>
      let held := record.series.get? key
      let store (entry : SeriesStart) : Ledger :=
        { ledger with
          records := ledger.records.insert job
            { record with series := record.series.insert key entry } }
      if value.isNaN then
        (ledger, match held with
          | some entry => entry.start
          | none => time)
      else
        match held with
        | none => (store ⟨time, value⟩, time)
        | some entry =>
            if isReset entry.last value then (store ⟨time, value⟩, time)
            else (store ⟨entry.start, value⟩, entry.start)

end Ledger

end ScrapeRelay
