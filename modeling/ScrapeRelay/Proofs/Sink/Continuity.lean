import Mathlib.Data.List.Chain
import ScrapeRelay.Config.Validation
import ScrapeRelay.Proofs.Sink.StartTimes
import ScrapeRelay.Proofs.Sink.Visits

/-!
# Continuity of a target

A target that is visited time and again stays in its generation exactly as long as no two
visits to it are a staleness window apart, whatever other targets do meanwhile. The interval of
its job is not compared with the window when a configuration is accepted, so a schedule alone
does not keep a target in its generation; what does is an interval that is shorter than the
window by more than one scrape takes longer than the one before it. A counter that never falls
then has one start in all batches.
-/

namespace ScrapeRelay

/-- When a target was marked, and the generation that the mark fell into. -/
structure Touch where
  instant : Nat
  generation : Nat

/-- Within the window after the last touch the next one goes on with its generation; later it
opens another. -/
def Touch.Precedes (window : Duration) (last next : Touch) : Prop :=
  if next.instant - last.instant < window.nanos then next.generation = last.generation
  else last.generation < next.generation

theorem Touch.precedes_iff_of_generation {window : Duration} {last next : Touch}
    (precedes : last.Precedes window next) :
    next.generation = last.generation ↔ next.instant - last.instant < window.nanos := by
  unfold Precedes at precedes
  split at precedes
  · exact iff_of_true precedes ‹_›
  · exact iff_of_false precedes.ne' ‹_›

/-- Touches are all in one generation exactly if none comes a window after the one before. -/
theorem Touch.one_generation_iff {window : Duration} {touches : List Touch}
    (chain : touches.IsChain (Touch.Precedes window)) :
    (∃ generation, ∀ touch ∈ touches, touch.generation = generation) ↔
      (touches.map Touch.instant).IsChain
        (fun before after => after - before < window.nanos) := by
  rw [List.isChain_map Touch.instant]
  constructor
  · rintro ⟨generation, same⟩
    refine List.isChain_iff_getElem.mpr ?_
    intro place inside
    refine (precedes_iff_of_generation (List.isChain_iff_getElem.mp chain place inside)).mp ?_
    rw [same _ (List.getElem_mem _), same _ (List.getElem_mem _)]
  · intro recent
    induction touches with
    | nil => exact ⟨0, nofun⟩
    | cons first rest ih =>
        cases rest with
        | nil => exact ⟨first.generation, by simp⟩
        | cons second rest =>
            obtain ⟨precedes, chain⟩ := List.isChain_cons_cons.mp chain
            obtain ⟨near, recent⟩ := List.isChain_cons_cons.mp recent
            obtain ⟨generation, same⟩ := ih chain recent
            refine ⟨generation, List.forall_mem_cons.mpr ⟨?_, same⟩⟩
            rw [← (precedes_iff_of_generation precedes).mpr near]
            exact same second List.mem_cons_self

/-! ## The record of a target from touch to touch -/

namespace Ledger

variable {key : String} {now later : Nat} {kept : SortedMap SeriesStart → Prop}
  {ledger before after : Ledger} {touch : Touch} {last : Option Touch}

/-- The record of a key has series of some kind, and stands as it was left by a touch. -/
def Keeps (key : String) (touch : Touch) (kept : SortedMap SeriesStart → Prop)
    (ledger : Ledger) : Prop :=
  touch.generation < ledger.nextGeneration ∧
    ∃ series, kept series ∧
      ledger.records.get? key = some ⟨touch.instant, touch.generation, series⟩

/-- What is left of a key since its last touch: its record, or nothing if that may have been
dropped as stale. There was no record before the first touch. -/
def Stands (key : String) (now : Nat) (kept : SortedMap SeriesStart → Prop) (ledger : Ledger) :
    Option Touch → Prop
  | none => ledger.records.get? key = none
  | some touch => ledger.Keeps key touch kept ∨
      (touch.generation < ledger.nextGeneration ∧ ledger.records.get? key = none ∧
        ledger.window.nanos ≤ now - touch.instant)

theorem Keeps.isStale (keeps : ledger.Keeps key touch kept) (window : Duration) :
    ledger.isStale key now window = decide (window.nanos ≤ now - touch.instant) := by
  obtain ⟨_, series, _, known⟩ := keeps
  rw [isStale_of_known known]
  rfl

theorem Keeps.stands (keeps : ledger.Keeps key touch kept) (now : Nat) :
    ledger.Stands key now kept (some touch) :=
  .inl keeps

namespace Stands

theorem new (key : String) (now : Nat) (kept : SortedMap SeriesStart → Prop)
    (window : Duration) : (Ledger.new window).Stands key now kept none := rfl

theorem issued (stands : ledger.Stands key now kept (some touch)) :
    touch.generation < ledger.nextGeneration := by
  rcases stands with keeps | ⟨issued, _⟩
  · exact keeps.1
  · exact issued

theorem keeps (stands : ledger.Stands key now kept (some touch))
    (recent : now - touch.instant < ledger.window.nanos) : ledger.Keeps key touch kept := by
  rcases stands with keeps | ⟨_, _, lapsed⟩
  · exact keeps
  · omega

/-- Others use the ledger until later. -/
theorem endure (stands : before.Stands key now kept last) (order : now ≤ later)
    (endures : Endures key later before after) : after.Stands key later kept last := by
  cases last with
  | none =>
      rcases endures.record with same | ⟨dropped, _⟩
      · exact same.trans stands
      · exact dropped
  | some touch =>
      have issued := Nat.lt_of_lt_of_le stands.issued endures.nextGeneration
      rcases stands with keeps | ⟨_, missing, lapsed⟩
      · rcases endures.record with same | ⟨dropped, stale⟩
        · obtain ⟨_, series, fits, known⟩ := keeps
          exact .inl ⟨issued, series, fits, same.trans known⟩
        · rw [keeps.isStale, decide_eq_true_eq] at stale
          exact .inr ⟨issued, dropped, by rwa [endures.window]⟩
      · refine .inr ⟨issued, ?_, ?_⟩
        · rcases endures.record with same | ⟨dropped, _⟩
          · exact same.trans missing
          · exact dropped
        · rw [endures.window]
          omega

/-- A touch within the window of the last one keeps the series. -/
theorem mark_recent (stands : ledger.Stands key now kept (some touch))
    (recent : now - touch.instant < ledger.window.nanos) :
    (ledger.mark key now).2.generation = touch.generation ∧
      (ledger.mark key now).1.Keeps key ⟨now, (ledger.mark key now).2.generation⟩ kept := by
  obtain ⟨issued, series, fits, known⟩ := stands.keeps recent
  have active : LedgerRecord.isQuiet ⟨touch.instant, touch.generation, series⟩ now
      ledger.window = false := by
    rw [LedgerRecord.isQuiet, decide_eq_false_iff_not]
    exact Nat.not_le.mpr recent
  rw [mark_of_active known active]
  exact ⟨rfl, issued, series, fits, SortedMap.get?_insert_self⟩

/-- Any other touch opens a generation without series. -/
theorem mark_lapsed (stands : ledger.Stands key now kept last)
    (lapsed : ∀ touch ∈ last, ledger.window.nanos ≤ now - touch.instant) :
    (∀ touch ∈ last, touch.generation < (ledger.mark key now).2.generation) ∧
      (ledger.mark key now).1.Keeps key ⟨now, (ledger.mark key now).2.generation⟩
        (· = .empty) := by
  have stale : ledger.isStale key now ledger.window = true := by
    cases last with
    | none => exact isStale_of_unknown stands
    | some touch =>
        rcases stands with keeps | ⟨_, missing, _⟩
        · rw [keeps.isStale, decide_eq_true_eq]
          exact lapsed touch rfl
        · exact isStale_of_unknown missing
  rw [mark_of_stale stale]
  refine ⟨?_, Nat.lt_succ_self _, .empty, rfl, SortedMap.get?_insert_self⟩
  rintro touch rfl
  exact stands.issued

end Stands

/-- Any series will do. -/
abbrev anySeries (_ : SortedMap SeriesStart) : Prop := True

theorem Keeps.any (keeps : ledger.Keeps key touch kept) : ledger.Keeps key touch anySeries := by
  obtain ⟨issued, series, _, known⟩ := keeps
  exact ⟨issued, series, trivial, known⟩

theorem Stands.precedes (stands : ledger.Stands key now kept last) :
    (∀ touch ∈ last, touch.Precedes ledger.window ⟨now, (ledger.mark key now).2.generation⟩) ∧
      (ledger.mark key now).1.Keeps key ⟨now, (ledger.mark key now).2.generation⟩ anySeries := by
  by_cases lapsed : ∀ touch ∈ last, ledger.window.nanos ≤ now - touch.instant
  · obtain ⟨later, keeps⟩ := stands.mark_lapsed lapsed
    refine ⟨?_, keeps.any⟩
    intro touch member
    rw [Touch.Precedes, if_neg (Nat.not_lt.mpr (lapsed touch member))]
    exact later touch member
  · cases last with
    | none => exact absurd nofun lapsed
    | some touch =>
        have recent : now - touch.instant < ledger.window.nanos := by simpa using lapsed
        obtain ⟨same, keeps⟩ := stands.mark_recent recent
        refine ⟨?_, keeps.any⟩
        intro other member
        obtain rfl := Option.mem_some_iff.mp member
        rw [Touch.Precedes, if_pos recent]
        exact same

theorem Stands.observe (stands : ledger.Stands key now anySeries last) (series : String)
    (value : Binary64) (time : Int64) :
    (ledger.observe key series value time).1.Stands key now anySeries last := by
  obtain same | ⟨record, known, observed⟩ := ledger.observe_cases key series value time
  · rw [same]
    exact stands
  · rw [observed]
    cases last with
    | none => exact absurd (known.symm.trans stands) (by simp)
    | some touch =>
        rcases stands with ⟨issued, held, _, found⟩ | ⟨_, missing, _⟩
        · obtain rfl := Option.some.inj (known.symm.trans found)
          exact .inl ⟨issued, _, trivial, SortedMap.get?_insert_self⟩
        · exact absurd (known.symm.trans missing) (by simp)

end Ledger

/-! ## Counters that never fall -/

/-- The samples of a series among others. -/
def readingsOf (series : String) (samples : List Sample) : List Sample :=
  samples.filter (fun sample => sample.seriesKey = series)

/-- The key of a series goes with one name only, and that is always said to accumulate. -/
structure IsCumulative (name series : String) (samples : List Sample) : Prop where
  named : ∀ sample ∈ samples, sample.seriesKey = series → sample.name = name
  accumulates : ∀ sample ∈ samples, sample.name = name →
    sample.kind.metricKind.accumulates = true

theorem IsCumulative.mono {name series : String} {samples some : List Sample}
    (cumulative : IsCumulative name series samples) (included : some ⊆ samples) :
    IsCumulative name series some :=
  ⟨fun sample member => cumulative.named sample (included member),
    fun sample member => cumulative.accumulates sample (included member)⟩

/-- A counter begins with a value, and no value of it is less than one before. -/
structure IsCounter (name series : String) (samples : List Sample) : Prop extends
    IsCumulative name series samples where
  begins : ∀ first ∈ (readingsOf series samples).head?, first.value.isNaN = false
  rises : (readingsOf series samples).Pairwise
    (fun earlier later => later.value.less earlier.value = false)

/-- The samples of a series that are still to come do not let it fall. If none has come yet,
it starts with the first of them. -/
structure Poised (start : Int64) (readings : List Sample) (held : Option SeriesStart) : Prop where
  rises : readings.Pairwise (fun earlier later => later.value.less earlier.value = false)
  opens : held = none → ∀ first ∈ readings.head?,
    first.value.isNaN = false ∧ first.timestamp = start
  goesOn : ∀ entry ∈ held, entry.start = start ∧
    ∀ reading ∈ readings, reading.value.less entry.last = false

theorem Poised.of_held {start : Int64} {readings : List Sample} {entry : SeriesStart}
    (rises : readings.Pairwise (fun earlier later => later.value.less earlier.value = false))
    (same : entry.start = start)
    (steady : ∀ reading ∈ readings, reading.value.less entry.last = false) :
    Poised start readings (some entry) := by
  refine ⟨rises, fun missing => absurd missing (Option.some_ne_none entry), ?_⟩
  intro held member
  obtain rfl := Option.mem_some_iff.mp member
  exact ⟨same, steady⟩

namespace Ledger

variable {key series other : String} {touch : Touch} {start : Int64} {ledger : Ledger}
  {reading : Sample} {readings rest : List Sample}

/-- The record of a key is poised for what is still to come of a series. -/
def Awaits (key series : String) (touch : Touch) (start : Int64) (readings : List Sample)
    (ledger : Ledger) : Prop :=
  ledger.Keeps key touch (fun held => Poised start readings (held.get? series))

namespace Awaits

theorem observe_of_ne (awaits : ledger.Awaits key series touch start readings)
    (apart : series ≠ other) (value : Binary64) (time : Int64) :
    (ledger.observe key other value time).1.Awaits key series touch start readings := by
  obtain ⟨issued, held, poised, known⟩ := awaits
  cases gap : value.isNaN with
  | true =>
      rw [observe_of_nan known gap]
      exact ⟨issued, held, poised, known⟩
  | false =>
      rw [observe_of_known known gap]
      refine ⟨issued, _, ?_, SortedMap.get?_insert_self⟩
      dsimp only
      rw [SortedMap.get?_insert_of_ne apart]
      exact poised

/-- The next sample of the series is told the start. -/
theorem observe (awaits : ledger.Awaits key reading.seriesKey touch start (reading :: rest)) :
    let answer := ledger.observe key reading.seriesKey reading.value reading.timestamp
    answer.2 = start ∧ answer.1.Awaits key reading.seriesKey touch start rest := by
  obtain ⟨issued, held, ⟨rises, opens, goesOn⟩, known⟩ := awaits
  obtain ⟨above, rises⟩ := List.pairwise_cons.mp rises
  cases gap : reading.value.isNaN with
  | true =>
      rw [observe_of_nan known gap]
      dsimp only
      cases entry : held.get? reading.seriesKey with
      | none =>
          have valued := (opens entry reading rfl).1
          simp [gap] at valued
      | some entry' =>
          obtain ⟨same, steady⟩ := goesOn entry' entry
          refine ⟨same, issued, held, ?_, known⟩
          dsimp only
          rw [entry]
          exact .of_held rises same fun later member =>
            steady later (List.mem_cons_of_mem _ member)
  | false =>
      have after : SeriesStart.after (held.get? reading.seriesKey) reading.value
          reading.timestamp = ⟨start, reading.value⟩ := by
        cases entry : held.get? reading.seriesKey with
        | none => rw [SeriesStart.after, (opens entry reading rfl).2]
        | some entry' =>
            obtain ⟨same, steady⟩ := goesOn entry' entry
            simp [SeriesStart.after, isReset, steady reading List.mem_cons_self, same]
      rw [observe_of_known known gap, after]
      refine ⟨rfl, issued, _, ?_, SortedMap.get?_insert_self⟩
      dsimp only
      rw [SortedMap.get?_insert_self]
      exact .of_held rises rfl above

end Awaits

/-- The first touch finds no series, and any other within the window those of the last one. -/
theorem Stands.mark_awaits {now : Nat} {last : Option Touch}
    (stands : ledger.Stands key now (fun held => Poised start readings (held.get? series)) last)
    (recent : ∀ touch ∈ last, now - touch.instant < ledger.window.nanos)
    (fresh : last = none → Poised start readings none) :
    (ledger.mark key now).1.Awaits key series ⟨now, (ledger.mark key now).2.generation⟩ start
      readings := by
  cases last with
  | none =>
      have none_lapsed : ∀ touch ∈ (none : Option Touch),
          ledger.window.nanos ≤ now - touch.instant := by simp
      obtain ⟨issued, held, rfl, known⟩ := (stands.mark_lapsed none_lapsed).2
      exact ⟨issued, .empty, fresh rfl, known⟩
  | some touch => exact (stands.mark_recent (recent touch rfl)).2

end Ledger

namespace Translation

variable {key series name : String} {touch : Touch} {start : Int64} {ledger : Ledger}
  {samples later : List Sample} {kind : MetricKind} {keys : List String}

theorem readingsOf_cons (sample : Sample) (rest : List Sample) :
    readingsOf series (sample :: rest) =
      if sample.seriesKey = series then sample :: readingsOf series rest
      else readingsOf series rest := by
  by_cases own : sample.seriesKey = series <;> simp [readingsOf, own]

/-- A metric that accumulates uses up the samples that it has of a series. -/
theorem foldl_addSample_awaits {state : Ledger × List TimeSeries}
    (counts : readingsOf series samples ≠ [] → kind.accumulates = true)
    (awaits : state.1.Awaits key series touch start (readingsOf series samples ++ later)) :
    (samples.foldl (addSample key kind keys) state).1.Awaits key series touch start later := by
  induction samples generalizing state with
  | nil => exact awaits
  | cons sample rest ih =>
      rw [readingsOf_cons] at counts awaits
      rw [List.foldl_cons]
      by_cases own : sample.seriesKey = series
      · subst own
        rw [if_pos rfl] at counts awaits
        have accumulates := counts (List.cons_ne_nil _ _)
        refine ih (fun _ => accumulates) ?_
        rw [addSample_ledger accumulates]
        exact awaits.observe.2
      · rw [if_neg own] at counts awaits
        refine ih counts ?_
        cases accumulates : kind.accumulates with
        | true =>
            rw [addSample_ledger accumulates]
            exact awaits.observe_of_ne (Ne.symm own) _ _
        | false => simpa [addSample, accumulates] using awaits

theorem metric_awaits (name : String)
    (counts : readingsOf series samples ≠ [] →
      ∀ sample ∈ samples, sample.kind.metricKind.accumulates = true)
    (awaits : ledger.Awaits key series touch start (readingsOf series samples ++ later)) :
    (metric ledger key name samples).1.Awaits key series touch start later := by
  cases samples with
  | nil => exact awaits
  | cons first rest =>
      have folded (keys : List String) :
          ((first :: rest).foldl (addSample key first.kind.metricKind keys) (ledger, [])).1.Awaits
            key series touch start later :=
        foldl_addSample_awaits (fun some => counts some first List.mem_cons_self) awaits
      exact folded _

/-- Samples of other names have other keys than a cumulative. -/
theorem readingsOf_named (cumulative : IsCumulative name series samples) (other : String) :
    readingsOf series (samples.filter (fun sample => sample.name = other)) =
      if other = name then readingsOf series samples else [] := by
  rw [readingsOf, List.filter_filter]
  by_cases own : other = name
  · rw [if_pos own]
    refine List.filter_congr ?_
    intro sample member
    by_cases reading : sample.seriesKey = series
    · simp [reading, own, cumulative.named sample member reading]
    · simp [reading]
  · rw [if_neg own, List.filter_eq_nil_iff]
    intro sample member both
    simp only [Bool.and_eq_true, decide_eq_true_eq] at both
    exact own (both.2.symm.trans (cumulative.named sample member both.1))

theorem metrics_awaits (cumulative : IsCumulative name series samples) {names : List String}
    (distinct : names.Nodup)
    (awaits : ledger.Awaits key series touch start
      ((if name ∈ names then readingsOf series samples else []) ++ later)) :
    (metrics ledger key samples names).1.Awaits key series touch start later := by
  induction names generalizing ledger with
  | nil => exact awaits
  | cons other rest ih =>
      obtain ⟨fresh, distinct⟩ := List.nodup_cons.mp distinct
      have counts : readingsOf series (samples.filter (fun sample => sample.name = other)) ≠ [] →
          ∀ sample ∈ samples.filter (fun sample => sample.name = other),
            sample.kind.metricKind.accumulates = true := by
        intro some sample member
        rw [readingsOf_named cumulative] at some
        obtain ⟨inside, named⟩ := List.mem_filter.mp member
        split at some
        · rename_i own
          exact cumulative.accumulates sample inside (own ▸ of_decide_eq_true named)
        · exact absurd rfl some
      have share : (if name ∈ other :: rest then readingsOf series samples else []) ++ later =
          readingsOf series (samples.filter (fun sample => sample.name = other)) ++
            ((if name ∈ rest then readingsOf series samples else []) ++ later) := by
        rw [readingsOf_named cumulative]
        by_cases own : other = name
        · subst own
          rw [if_pos List.mem_cons_self, if_pos rfl, if_neg fresh, List.nil_append]
        · rw [if_neg own, List.nil_append]
          simp [Ne.symm own]
      rw [share] at awaits
      exact ih distinct (metric_awaits other counts awaits)

theorem metricsOf_accumulates {metric : Metric}
    (cumulative : IsCumulative metric.descriptor.name series samples)
    (member : metric ∈ (metricsOf ledger key samples).2) :
    metric.descriptor.kind.accumulates = true := by
  obtain ⟨sample, found, same⟩ := Option.map_eq_some_iff.mp (metricsOf_describes member).kind
  rw [← same]
  refine cumulative.accumulates sample (List.mem_of_find?_eq_some found) ?_
  simpa using List.find?_some found

/-- The sample that opens a time series is the first that belongs to it. -/
theorem Opens.find?_belongs {metric : Metric} {held : TimeSeries} {early rest : List Sample}
    {first : Sample} (opens : Opens ledger key metric held early first)
    (split : samples.filter (fun sample => sample.name = metric.descriptor.name) =
      early ++ first :: rest) : samples.find? (belongs metric held) = some first := by
  have joined : samples.find? (belongs metric held) =
      (samples.filter (fun sample => sample.name = metric.descriptor.name)).find?
        (fun sample => labelValues metric.descriptor.labelKeys sample = held.labelValues) := by
    rw [List.find?_filter]
    exact congrArg (List.find? · samples) (funext fun sample => by simp [belongs])
  rw [joined, split, List.find?_append, List.find?_eq_none.mpr, Option.none_or,
    List.find?_cons_of_pos]
  · simpa using opens.values
  · simpa using opens.fresh

/-- The first sample of a time series is told the start, if it is one of the series. -/
theorem told_awaits {metric : Metric} {early rest : List Sample} {first : Sample}
    (cumulative : IsCumulative metric.descriptor.name first.seriesKey samples)
    (accumulates : kind.accumulates = true)
    (split : samples.filter (fun sample => sample.name = metric.descriptor.name) =
      early ++ first :: rest)
    (awaits : ledger.Awaits key first.seriesKey touch start
      (readingsOf first.seriesKey samples ++ later)) :
    told (met ledger key samples metric.descriptor.name) key kind keys early first = start := by
  have before : (met ledger key samples metric.descriptor.name).Awaits key first.seriesKey
      touch start (readingsOf first.seriesKey samples ++ later) := by
    refine metrics_awaits cumulative ((nodup_distinct _).sublist (List.takeWhile_sublist _)) ?_
    rw [if_neg]
    · exact awaits
    · intro inside
      simpa using List.mem_takeWhile_imp inside
  have own := readingsOf_named cumulative metric.descriptor.name
  rw [if_pos rfl, split, readingsOf, List.filter_append,
    List.filter_cons_of_pos (by simp)] at own
  rw [← own, List.append_assoc] at before
  have reached : (early.foldl (addSample key kind keys)
      (met ledger key samples metric.descriptor.name, [])).1.Awaits key first.seriesKey touch
        start (first :: (readingsOf first.seriesKey rest ++ later)) :=
    foldl_addSample_awaits (fun _ => accumulates) before
  exact reached.observe.1

/-- A batch uses up the samples that it has of a cumulative series, and the time series that
begin with one of them have its start. -/
theorem metricsOf_awaits (cumulative : IsCumulative name series samples)
    (awaits : ledger.Awaits key series touch start (readingsOf series samples ++ later)) :
    (metricsOf ledger key samples).1.Awaits key series touch start later ∧
      ∀ metric ∈ (metricsOf ledger key samples).2, metric.descriptor.name = name →
        ∀ held ∈ metric.series, ∀ first ∈ samples.find? (belongs metric held),
          first.seriesKey = series → held.start = some start := by
  constructor
  · refine metrics_awaits cumulative (nodup_distinct _) ?_
    by_cases present : name ∈ distinct (samples.map Sample.name)
    · rw [if_pos present]
      exact awaits
    · have missing : readingsOf series samples = [] := by
        refine List.filter_eq_nil_iff.mpr ?_
        intro sample member own
        refine present (mem_distinct.mpr ?_)
        exact List.mem_map.mpr
          ⟨sample, member, cumulative.named sample member (of_decide_eq_true own)⟩
      rw [if_neg present]
      rwa [missing] at awaits
  · rintro metric member rfl held inside first begins rfl
    obtain ⟨early, opening, rest, split, opens⟩ := metricsOf_opens member inside
    obtain rfl : opening = first :=
      Option.some.inj ((opens.find?_belongs split).symm.trans begins)
    have accumulates := metricsOf_accumulates cumulative member
    rw [opens.start, if_pos accumulates, told_awaits cumulative accumulates split awaits]

end Translation

/-! ## Runs of visits -/

namespace Desk

open Ledger (Stands Awaits anySeries)

variable {filter : AllowList} {node : Node} {slot now : Nat} {desk : Desk} {last : Option Touch}
  {visits : List Visit}

/-- Every visit touches the target when its first sample is accepted, and its batch carries
the generation of the touch. -/
theorem run_touches (reserved : desk.Reserved node slot none)
    (stands : desk.ledger.Stands node.key now anySeries last)
    (own : ∀ visit ∈ visits, visit.IsOf filter node slot desk.ledger.window)
    (ordered : (Visit.instants node slot visits).Pairwise (· ≤ ·))
    (later : ∀ time ∈ Visit.instants node slot visits, now ≤ time) (receiver : String) :
    ∃ touches : List Touch,
      touches.map Touch.instant = visits.map Visit.opening ∧
      touches.map Touch.generation =
        (desk.batchesFor receiver filter node (visits.flatMap (·.events node slot))).map
          Batch.generation ∧
      (last.toList ++ touches).IsChain (Touch.Precedes desk.ledger.window) := by
  induction visits generalizing desk now last with
  | nil => exact ⟨[], rfl, rfl, by cases last <;> simp⟩
  | cons visit rest ih =>
      obtain ⟨inOrder, order, ordered, after⟩ := Visit.inOrder_of_instants ordered later
      obtain ⟨free, window, reached, filled, endures, enduresOn, batch, ledger⟩ :=
        run_visit reserved (own visit List.mem_cons_self) inOrder receiver
      obtain ⟨precedes, keeps⟩ := (stands.endure order endures).precedes
      let touch : Touch := ⟨visit.opening, (reached.mark node.key visit.opening).2.generation⟩
      have held : filled.Stands node.key visit.closing anySeries (some touch) :=
        (keeps.stands visit.opening).endure inOrder.opening enduresOn
      have step (before : Ledger)
          (stands : before.Stands node.key visit.closing anySeries (some touch)) :=
        stands.observe
      have observed := Translation.metricsOf_keeps step held (visit.samples filter slot)
      have swept := observed.endure (Nat.le_refl _) (.of_sweepIfDue (Nat.le_refl _) node.key _)
      rw [← ledger] at swept
      obtain ⟨touches, instants, generations, chain⟩ := ih free swept
        (fun other member => window ▸ own other (List.mem_cons_of_mem _ member)) ordered after
      refine ⟨touch :: touches, ?_, ?_, ?_⟩
      · rw [List.map_cons, List.map_cons, instants]
      · rw [List.flatMap_cons, batchesFor_append, batch, List.map_append, ← generations]
        rfl
      · rw [window] at chain
        cases last with
        | none => exact chain
        | some before =>
            refine List.isChain_cons_cons.mpr ⟨?_, chain⟩
            rw [← endures.window]
            exact precedes before rfl

/-- A batch has the start of a counter in all time series that begin with a sample of it. -/
def StartsWith (filter : AllowList) (slot : Nat) (name series : String) (start : Int64)
    (visit : Visit) (batch : Batch) : Prop :=
  ∀ metric ∈ batch.metrics, metric.descriptor.name = name → ∀ held ∈ metric.series,
    ∀ first ∈ (visit.samples filter slot).find? (Translation.belongs metric held),
      first.seriesKey = series → held.start = some start

/-- As long as every visit comes within the window of the last one, and is committed within the
window, all of them go on with a series from its start. -/
theorem run_starts {name series : String} {start : Int64} (reserved : desk.Reserved node slot none)
    (stands : desk.ledger.Stands node.key now
      (fun held => Poised start (readingsOf series (visits.flatMap (·.samples filter slot)))
        (held.get? series)) last)
    (own : ∀ visit ∈ visits, visit.IsOf filter node slot desk.ledger.window)
    (ordered : (Visit.instants node slot visits).Pairwise (· ≤ ·))
    (later : ∀ time ∈ Visit.instants node slot visits, now ≤ time)
    (recent : ((last.map Touch.instant).toList ++ visits.map Visit.opening).IsChain
      (fun before after => after - before < desk.ledger.window.nanos))
    (prompt : ∀ visit ∈ visits, visit.closing < visit.opening + desk.ledger.window.nanos)
    (cumulative : IsCumulative name series (visits.flatMap (·.samples filter slot)))
    (fresh : last = none →
      Poised start (readingsOf series (visits.flatMap (·.samples filter slot))) none)
    (receiver : String) :
    List.Forall₂ (StartsWith filter slot name series start) visits
      (desk.batchesFor receiver filter node (visits.flatMap (·.events node slot))) := by
  induction visits generalizing desk now last with
  | nil => exact .nil
  | cons visit rest ih =>
      obtain ⟨inOrder, order, ordered, after⟩ := Visit.inOrder_of_instants ordered later
      obtain ⟨free, window, reached, filled, endures, enduresOn, batch, ledger⟩ :=
        run_visit reserved (own visit List.mem_cons_self) inOrder receiver
      have split : readingsOf series ((visit :: rest).flatMap (·.samples filter slot)) =
          readingsOf series (visit.samples filter slot) ++
            readingsOf series (rest.flatMap (·.samples filter slot)) := by
        rw [readingsOf, List.flatMap_cons, List.filter_append]
        rfl
      rw [split] at fresh stands
      let touch : Touch := ⟨visit.opening, (reached.mark node.key visit.opening).2.generation⟩
      have waiting := stands.endure order endures
      have near : ∀ touch ∈ last, visit.opening - touch.instant < reached.window.nanos := by
        intro touch member
        obtain rfl := member
        rw [endures.window]
        exact (List.isChain_cons_cons.mp recent).1
      have marked := waiting.mark_awaits near fresh
      have chain : (visit.opening :: rest.map Visit.opening).IsChain
          (fun before after => after - before < desk.ledger.window.nanos) := by
        cases last with
        | none => exact recent
        | some before => exact (List.isChain_cons_cons.mp recent).2
      have held : filled.Awaits node.key series touch start
          (readingsOf series (visit.samples filter slot) ++
            readingsOf series (rest.flatMap (·.samples filter slot))) := by
        refine ((marked.stands visit.opening).endure inOrder.opening enduresOn).keeps ?_
        rw [enduresOn.window, (reached.mark_frame node.key visit.opening).1, endures.window]
        exact Nat.sub_lt_left_of_lt_add inOrder.opening (prompt visit List.mem_cons_self)
      obtain ⟨observed, starts⟩ := Translation.metricsOf_awaits
        (cumulative.mono (by simp [List.flatMap_cons])) held
      have swept := (observed.stands visit.closing).endure (Nat.le_refl _)
        (.of_sweepIfDue (Nat.le_refl _) node.key _)
      rw [← ledger] at swept
      rw [List.flatMap_cons, batchesFor_append, batch]
      refine .cons starts (ih free swept ?_ ordered after ?_ ?_ ?_ nofun)
      · exact fun other member => window ▸ own other (List.mem_cons_of_mem _ member)
      · rw [window]
        exact chain
      · exact fun other member => window ▸ prompt other (List.mem_cons_of_mem _ member)
      · exact cumulative.mono (by simp [List.flatMap_cons])

end Desk

/-! ## Schedules -/

/-- Visits by a loop that ticks with an interval: the first sample of each is accepted when its
cycle has begun and the scrape has taken its time. There may be cycles without a visit, of which
no sample passes. -/
structure Visit.OnSchedule (start : Nat) (interval : Duration) (cycle delay : Nat → Nat)
    (visits : List Visit) : Prop where
  ascending : ∀ place, cycle place < cycle (place + 1)
  openings : ∀ (place : Nat) (inside : place < visits.length),
    visits[place].opening = start + cycle place * interval.nanos + delay place

/-- Two visits in consecutive cycles, both without delay. -/
theorem Visit.OnSchedule.pair {start : Nat} {interval : Duration} {first second : Visit}
    (early : first.opening = start) (late : second.opening = start + interval.nanos) :
    OnSchedule start interval id (fun _ => 0) [first, second] := by
  refine ⟨fun place => Nat.lt_succ_self place, ?_⟩
  intro place inside
  obtain rfl | rfl : place = 0 ∨ place = 1 := by
    rw [List.length_cons, List.length_singleton] at inside
    omega
  · simpa using early
  · simpa using late

/-- Each visit on a schedule comes less than a window after the one before it. -/
def Visit.InTime (window interval : Duration) (cycle delay : Nat → Nat) (visits : List Visit) :
    Prop :=
  ∀ place, place + 1 < visits.length →
    (cycle (place + 1) - cycle place) * interval.nanos + delay (place + 1) <
      window.nanos + delay place

theorem Visit.OnSchedule.inTime_iff {start : Nat} {interval window : Duration}
    {cycle delay : Nat → Nat} {visits : List Visit} {node : Node} {slot : Nat}
    (scheduled : OnSchedule start interval cycle delay visits)
    (ordered : (instants node slot visits).Pairwise (· ≤ ·)) :
    (visits.map opening).IsChain (fun before after => after - before < window.nanos) ↔
      InTime window interval cycle delay visits := by
  have rising := List.pairwise_iff_getElem.mp (openings_ordered ordered)
  have near (place : Nat) (inside : place + 1 < visits.length) :
      visits[place + 1].opening - visits[place].opening < window.nanos ↔
        (cycle (place + 1) - cycle place) * interval.nanos + delay (place + 1) <
          window.nanos + delay place := by
    have order := rising place (place + 1) (by rw [List.length_map]; omega)
      (by rw [List.length_map]; exact inside) (Nat.lt_succ_self place)
    rw [List.getElem_map, List.getElem_map] at order
    have ticks := Nat.sub_mul (cycle (place + 1)) (cycle place) interval.nanos
    have ascending := Nat.mul_le_mul_right interval.nanos (scheduled.ascending place).le
    rw [scheduled.openings place (by omega), scheduled.openings (place + 1) inside] at order ⊢
    omega
  rw [List.isChain_map opening, List.isChain_iff_getElem]
  exact forall₂_congr near

namespace Desk

open Ledger (anySeries)

/-- The batches of a target that is visited on the schedule of its job carry one generation
exactly if no visit comes a staleness window after the one before it, whatever happens
elsewhere. All time series of a counter that never falls then start with its first sample, if
each visit is committed within the window. -/
theorem keeps_generation_iff (receiver : Config.Receiver) (job : Config.Job) (node : Node)
    (slot start : Nat) (cycle delay : Nat → Nat) (visits : List Visit)
    (own : ∀ visit ∈ visits,
      visit.IsOf ⟨receiver.includeFilter⟩ node slot receiver.staleness)
    (ordered : (Visit.instants node slot visits).Pairwise (· ≤ ·))
    (scheduled :
      Visit.OnSchedule start (job.interval receiver.scrape.global) cycle delay visits) :
    let inTime := Visit.InTime receiver.staleness (job.interval receiver.scrape.global) cycle
      delay visits
    let samples := visits.flatMap (·.samples ⟨receiver.includeFilter⟩ slot)
    let batches := (new (.new receiver.staleness)).batchesFor receiver.name
      ⟨receiver.includeFilter⟩ node (visits.flatMap (·.events node slot))
    batches.length = visits.length ∧
      ((∃ generation, ∀ batch ∈ batches, batch.generation = generation) ↔ inTime) ∧
      (inTime → (∀ visit ∈ visits, visit.closing < visit.opening + receiver.staleness.nanos) →
        ∀ name series, IsCounter name series samples →
          ∀ first ∈ (readingsOf series samples).head?,
            List.Forall₂ (StartsWith ⟨receiver.includeFilter⟩ slot name series first.timestamp)
              visits batches) := by
  intro inTime samples batches
  have reserved := Reserved.new node slot (.new receiver.staleness)
  have later (time : Nat) (_ : time ∈ Visit.instants node slot visits) : 0 ≤ time := Nat.zero_le _
  have near : _ ↔ inTime := scheduled.inTime_iff ordered
  obtain ⟨touches, instants, generations, chain⟩ := run_touches reserved
    (.new node.key 0 anySeries receiver.staleness) own ordered later receiver.name
  have consecutive : touches.IsChain (Touch.Precedes receiver.staleness) := chain
  refine ⟨?_, ?_, ?_⟩
  · have lengths := congrArg List.length instants
    have lengths' := congrArg List.length generations
    simp only [List.length_map] at lengths lengths'
    exact lengths'.symm.trans lengths
  · have alike (generation : Nat) : (∀ touch ∈ touches, touch.generation = generation) ↔
        ∀ batch ∈ batches, batch.generation = generation := by
      have same := congrArg (fun given => ∀ other ∈ given, other = generation) generations
      simpa using iff_of_eq same
    rw [← near, ← instants, ← Touch.one_generation_iff consecutive]
    exact exists_congr fun generation => (alike generation).symm
  · intro recent prompt name series counter first begins
    obtain ⟨cumulative, valued, rises⟩ := counter
    have fresh : Poised first.timestamp (readingsOf series samples) none := by
      refine ⟨rises, ?_, nofun⟩
      intro _ other head
      obtain rfl := Option.some.inj (begins.symm.trans head)
      exact ⟨valued first begins, rfl⟩
    exact run_starts reserved (.new node.key 0 _ receiver.staleness) own ordered later
      (near.mpr recent) prompt cumulative (fun _ => fresh) receiver.name

def periodicJob (interval : Duration) : Config.Job :=
  { Config.Job.named "web" with scrapeInterval := some interval }

/-- A receiver of one job, with an interval and a staleness window of its own. -/
def periodic (staleness interval : Duration) : Config.Receiver :=
  { Config.Receiver.named "relay" with
    scrape := ⟨.default, [periodicJob interval]⟩
    staleness := staleness }

def webNode : Node := ⟨"web", "10.0.0.1:80"⟩

/-- A visit that delivers one counter, which stands still. -/
def lonelyVisit (instant : Nat) (time : Int64) : Visit :=
  ⟨[], instant, ⟨"hits", .empty, .one, time, .counter⟩, [], instant⟩

/-- Two visits on the schedule, among which another target is heard of and committed. -/
def steadyVisits : List Visit :=
  [lonelyVisit 0 1000,
    { lonelyVisit 60000000000 2000 with
      before := [.append 1 30000000000 "10.0.0.2:80" "web" (.gauge "up" .one),
        .ledger (.sweepIfDue 59000000000)]
      during := [.commit 1 60000000000] }]

theorem keeps_generation_steady :
    let receiver := periodic defaultStaleness (.ofSeconds 60)
    let batches := (new (.new receiver.staleness)).batchesFor receiver.name
      ⟨receiver.includeFilter⟩ webNode (steadyVisits.flatMap (·.events webNode 0))
    batches.length = 2 ∧ (∃ generation, ∀ batch ∈ batches, batch.generation = generation) ∧
      List.Forall₂ (StartsWith ⟨receiver.includeFilter⟩ 0 "hits" "hits" 1000) steadyVisits
        batches := by
  have own : ∀ visit ∈ steadyVisits,
      visit.IsOf ⟨.empty⟩ webNode 0 defaultStaleness := by
    refine List.forall_mem_cons.mpr ⟨⟨nofun, by decide, nofun⟩,
      List.forall_mem_cons.mpr ⟨⟨?_, by decide, ?_⟩, nofun⟩⟩
    · refine List.forall_mem_cons.mpr ⟨fun _ => by decide, List.forall_mem_cons.mpr ⟨?_, nofun⟩⟩
      exact trivial
    · exact List.forall_mem_cons.mpr ⟨.inl Nat.one_ne_zero, nofun⟩
  have scheduled : Visit.OnSchedule 0 (.ofSeconds 60) id (fun _ => 0) steadyVisits :=
    .pair rfl rfl
  obtain ⟨lengths, generations, starts⟩ := keeps_generation_iff
    (periodic defaultStaleness (.ofSeconds 60)) (periodicJob (.ofSeconds 60)) webNode 0 0 id
    (fun _ => 0) steadyVisits own (by decide) scheduled
  have inTime : Visit.InTime defaultStaleness (.ofSeconds 60) id (fun _ => 0) steadyVisits := by
    intro place _
    simp [defaultStaleness, Duration.ofSeconds]
  have counter : IsCounter "hits" "hits" (steadyVisits.flatMap (·.samples ⟨.empty⟩ 0)) :=
    ⟨⟨by decide, by decide⟩, by decide, by decide⟩
  exact ⟨lengths, generations.mpr inTime,
    starts inTime (by decide) "hits" "hits" counter _ rfl⟩

/-- A configuration is accepted and a target is visited on schedule, and yet its second batch
has another generation, and the counter in it another start. -/
def Lapses (staleness interval : Duration) : Prop :=
  let receiver := periodic staleness interval
  let visits := [lonelyVisit 0 1000, lonelyVisit interval.nanos 2000]
  let batches := (new (.new receiver.staleness)).batchesFor receiver.name
    ⟨receiver.includeFilter⟩ webNode (visits.flatMap (·.events webNode 0))
  receiver.scrape.validate = .ok () ∧ periodicJob interval ∈ receiver.scrape.jobs ∧
    (∀ visit ∈ visits, visit.IsOf ⟨receiver.includeFilter⟩ webNode 0 receiver.staleness) ∧
    (Visit.instants webNode 0 visits).Pairwise (· ≤ ·) ∧
    Visit.OnSchedule 0 ((periodicJob interval).interval receiver.scrape.global) id
      (fun _ => 0) visits ∧
    IsCounter "hits" "hits" (visits.flatMap (·.samples ⟨receiver.includeFilter⟩ 0)) ∧
    batches.map Batch.origin = [(webNode, 1, [some 1000]), (webNode, 2, [some 2000])]

theorem lapses_of_batches {staleness interval : Duration}
    (valid : (periodic staleness interval).scrape.validate = .ok ())
    (batches : ((new (.new staleness)).batchesFor "relay" .unrestricted webNode
      ([lonelyVisit 0 1000, lonelyVisit interval.nanos 2000].flatMap
        (·.events webNode 0))).map Batch.origin =
      [(webNode, 1, [some 1000]), (webNode, 2, [some 2000])]) : Lapses staleness interval := by
  have own (instant : Nat) (time : Int64) :
      (lonelyVisit instant time).IsOf .unrestricted webNode 0 staleness := by
    have admitted : AllowList.unrestricted.Permits webNode.job webNode.address "hits" := by decide
    exact ⟨nofun, admitted, nofun⟩
  have counter : IsCounter "hits" "hits"
      ([lonelyVisit 0 1000, lonelyVisit 0 2000].flatMap (·.samples .unrestricted 0)) :=
    ⟨⟨by decide, by decide⟩, by decide, by decide⟩
  refine ⟨valid, List.mem_singleton_self _, ?_, ?_, .pair rfl (Nat.zero_add _).symm, counter,
    batches⟩
  · exact List.forall_mem_cons.mpr ⟨own _ _, List.forall_mem_singleton.mpr (own _ _)⟩
  · simp [Visit.instants, Visit.events, lonelyVisit, DeskEvent.now?]

/-- Nothing relates the interval of a job to the staleness window. With an interval of five
minutes the second batch is beyond the default window, and so is every batch without a window. -/
theorem generation_lost :
    Lapses defaultStaleness (.ofSeconds 300) ∧ Lapses ⟨0⟩ (.ofMillis 50) := by
  constructor
  · exact lapses_of_batches rfl (by decide +kernel)
  · exact lapses_of_batches rfl (by decide +kernel)

end Desk

end ScrapeRelay
