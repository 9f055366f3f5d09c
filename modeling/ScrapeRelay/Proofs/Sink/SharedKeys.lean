import ScrapeRelay.Proofs.Ledger.History
import ScrapeRelay.Proofs.Sink.SeriesIdentity

/-!
# Series that share a key

The ledger keeps one start and one last value under each key. Where the separators of a key stand
only between its parts, a key belongs to one series, and what is sampled of other series changes
nothing of what the ledger tells of it (`plain_series_apart`). A separator inside a name or a label
lets two series share a key, and then each of them is told the start of the other
(`separator_joins_series`).
-/

namespace ScrapeRelay

/-- The samples have the same name and the same labels. -/
def Sample.IsOfSeries (sample other : Sample) : Prop :=
  sample.name = other.name ∧ sample.labels = other.labels

instance (sample other : Sample) : Decidable (sample.IsOfSeries other) :=
  inferInstanceAs (Decidable (_ ∧ _))

/-- What happens to a ledger: a sample of a job is observed under its key, or anything else. -/
inductive SeriesEvent where
  | sampled (job : String) (sample : Sample)
  | aside (event : LedgerEvent)

namespace SeriesEvent

def event : SeriesEvent → LedgerEvent
  | .sampled job sample => .observe job sample.seriesKey sample.value sample.timestamp
  | .aside event => event

/-- Whether a sample of the job is observed that belongs to another series than the given one. -/
def isOfOtherSeries (job : String) (sample : Sample) : SeriesEvent → Bool
  | .sampled owner other => owner = job && !decide (other.IsOfSeries sample)
  | .aside _ => false

/-- A sample of another series is observed under another key. -/
theorem concerns_of_otherSeries {job : String} {sample : Sample} {happening : SeriesEvent}
    (plain : sample.Plain) (others : ∀ other, happening = .sampled job other → other.Plain)
    (foreign : happening.isOfOtherSeries job sample = true) :
    happening.event.concerns job sample.seriesKey = false := by
  cases happening with
  | aside event => cases foreign
  | sampled owner other =>
      obtain ⟨own, different⟩ := Bool.and_eq_true_iff.mp foreign
      obtain rfl : owner = job := of_decide_eq_true own
      have apart : other.seriesKey ≠ sample.seriesKey := by
        intro same
        have series : other.IsOfSeries sample :=
          (Sample.seriesKey_inj (others other rfl) plain).mp same
        simp [series] at different
      simp [event, LedgerEvent.concerns, apart]

end SeriesEvent

namespace Ledger

/-- Two samples without stray separators have the same key exactly if they have the same name and
the same labels. In every run of a ledger, whatever else happens in it, such a sample is told the
same start as in the run without the samples of other series of its job. -/
theorem plain_series_apart (ledger : Ledger) (job : String) (events : List SeriesEvent) :
    (∀ sample other : Sample, sample.Plain → other.Plain →
      (sample.seriesKey = other.seriesKey ↔
        sample.name = other.name ∧ sample.labels = other.labels)) ∧
    ∀ sample : Sample, sample.Plain → (∀ other, .sampled job other ∈ events → other.Plain) →
      ((ledger.run (events.map SeriesEvent.event)).observe job sample.seriesKey sample.value
          sample.timestamp).2 =
        ((ledger.run ((events.filter
            (fun happening => !happening.isOfOtherSeries job sample)).map
              SeriesEvent.event)).observe job sample.seriesKey sample.value sample.timestamp).2 := by
  refine ⟨fun sample other => Sample.seriesKey_inj, ?_⟩
  intro sample plain others
  have kept : ((events.filter (fun happening => !happening.isOfOtherSeries job sample)).map
        SeriesEvent.event).filter (fun event => event.concerns job sample.seriesKey) =
      (events.map SeriesEvent.event).filter (fun event => event.concerns job sample.seriesKey) := by
    rw [List.filter_map, List.filter_map, List.filter_filter]
    refine congrArg (List.map SeriesEvent.event) (List.filter_congr ?_)
    intro happening member
    cases foreign : happening.isOfOtherSeries job sample with
    | false => simp
    | true =>
        have apart := SeriesEvent.concerns_of_otherSeries plain
          (fun other same => others other (same ▸ member)) foreign
        simp [apart]
  have whole := run_concerned job sample.seriesKey ledger (events.map SeriesEvent.event)
  have rest := run_concerned job sample.seriesKey ledger
    ((events.filter (fun happening => !happening.isOfOtherSeries job sample)).map SeriesEvent.event)
  rw [kept] at rest
  exact (whole.trans rest.symm).answer sample.value sample.timestamp

/-- The start that a sample is told after another one of a new job. -/
def toldAfter (first second : Sample) : Int64 :=
  let marked := ((new defaultStaleness).mark "web" 0).1
  let seen := (marked.observe "web" first.seriesKey first.value first.timestamp).1
  (seen.observe "web" second.seriesKey second.value second.timestamp).2

/-- A counter of the given name and labels. -/
def counterAt (time : Int64) (name : String) (labels : List (String × String)) : Sample :=
  ⟨name, .ofList labels, .one, time, .counter⟩

/-- A separator in a label's value, in a metric's name or in a label's name gives a sample the key
of a series with other labels, which is then told the start of that sample. -/
theorem separator_joins_series :
    let inValue := (counterAt 1000 "hits" [("zone", "a\x00zoo=b")],
      counterAt 2000 "hits" [("zone", "a"), ("zoo", "b")])
    let inName := (counterAt 1000 "hits\x00zone=a" [], counterAt 2000 "hits" [("zone", "a")])
    let inLabelName := (counterAt 1000 "hits" [("zone=a", "b")],
      counterAt 2000 "hits" [("zone", "a=b")])
    ∀ pair ∈ [inValue, inName, inLabelName],
      ¬ (pair.1.name = pair.2.name ∧ pair.1.labels = pair.2.labels) ∧
        pair.1.seriesKey = pair.2.seriesKey ∧ toldAfter pair.1 pair.2 = 1000 := by
  decide +kernel

end Ledger

end ScrapeRelay
