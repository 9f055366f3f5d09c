import ScrapeRelay.Proofs.Joined
import ScrapeRelay.Proofs.Sink.Sweeps

/-!
# Which samples are one series

The samples of a metric are told apart twice. Time series are made by label values, without
the labels of the job and the instance, and a missing label counts as empty
(`merged_iff`). The ledger goes by a key that is joined from the name and all labels, and
from which these can be read off where the separators do not occur in them
(`seriesKey_inj`). Neither division is finer than the other in general; `commit_merges` says
how far they agree.
-/

namespace ScrapeRelay

namespace Sample

/-- The separators of a series key stand only between the parts of the key. -/
structure Plain (sample : Sample) : Prop where
  name : '\x00' ∉ sample.name.toList
  labelNames : ∀ label ∈ sample.labels.entries, '=' ∉ label.1.toList
  labelValues : ∀ label ∈ sample.labels.entries, '\x00' ∉ label.2.toList

/-- The characters of some labels in a series key. The separator in front of each label is
counted to what stands before it. -/
def labelCharacters (labels : List (String × String)) : List Char :=
  labels.flatMap fun label => label.1.toList ++ '=' :: (label.2.toList ++ ['\x00'])

theorem foldl_labelCharacters (name : String) (labels : List (String × String)) :
    (labels.foldl (fun key label => key ++ "\x00" ++ label.1 ++ "=" ++ label.2) name).toList ++
        ['\x00'] =
      name.toList ++ '\x00' :: labelCharacters labels := by
  induction labels generalizing name with
  | nil => rfl
  | cons label rest ih =>
      rw [List.foldl_cons, ih]
      simp [labelCharacters]

theorem seriesKey_characters (sample : Sample) :
    sample.seriesKey.toList ++ ['\x00'] =
      sample.name.toList ++ '\x00' :: labelCharacters sample.labels.entries :=
  foldl_labelCharacters sample.name sample.labels.entries

theorem labelCharacters_inj {labels others : List (String × String)}
    (names : ∀ label ∈ labels, '=' ∉ label.1.toList)
    (names' : ∀ label ∈ others, '=' ∉ label.1.toList)
    (values : ∀ label ∈ labels, '\x00' ∉ label.2.toList)
    (values' : ∀ label ∈ others, '\x00' ∉ label.2.toList)
    (same : labelCharacters labels = labelCharacters others) : labels = others := by
  induction labels generalizing others with
  | nil =>
      cases others with
      | nil => rfl
      | cons other others => simp [labelCharacters] at same
  | cons label labels ih =>
      cases others with
      | nil => simp [labelCharacters] at same
      | cons other others =>
          simp only [List.forall_mem_cons] at names names' values values'
          simp only [labelCharacters, List.flatMap_cons, List.append_assoc,
            List.cons_append, List.nil_append] at same
          obtain ⟨name, rest⟩ := append_separator_inj names.1 names'.1 same
          obtain ⟨value, rest⟩ := append_separator_inj values.1 values'.1 rest
          have first : label = other :=
            Prod.ext (String.toList_inj.mp name) (String.toList_inj.mp value)
          rw [first, ih names.2 names'.2 values.2 values'.2 rest]

/-- Where the separators stand only between its parts, a series key tells all of them. -/
theorem seriesKey_inj {sample other : Sample} (plain : sample.Plain) (plain' : other.Plain) :
    sample.seriesKey = other.seriesKey ↔
      sample.name = other.name ∧ sample.labels = other.labels := by
  constructor
  · intro same
    have characters := sample.seriesKey_characters
    rw [same, other.seriesKey_characters] at characters
    obtain ⟨name, labels⟩ := append_separator_inj plain'.name plain.name characters
    have entries := labelCharacters_inj plain'.labelNames plain.labelNames plain'.labelValues
      plain.labelValues labels
    exact ⟨(String.toList_inj.mp name).symm, SortedMap.ext_entries entries.symm⟩
  · rintro ⟨name, labels⟩
    rw [seriesKey, seriesKey, name, labels]

end Sample

namespace Translation

variable {ledger : Ledger} {job : String} {samples : List Sample}
  {index other : Fin samples.length}

/-- The points of two samples stand in one time series. -/
def Merged (metrics : List Metric) (samples : List Sample) (index other : Fin samples.length) :
    Prop :=
  ∃ place place', StandsAt metrics samples index place ∧ StandsAt metrics samples other place' ∧
    place.metric = place'.metric ∧ place.series = place'.series

/-- Samples have the same labels besides those of the job and the instance, if missing labels
count as empty. -/
def SameLabels (sample other : Sample) : Prop :=
  ∀ key, key ≠ jobLabel → key ≠ instanceLabel →
    (sample.labels.get? key).getD "" = (other.labels.get? key).getD ""

theorem merged_iff :
    Merged (metricsOf ledger job samples).2 samples index other ↔
      (samples.get index).name = (samples.get other).name ∧
        SameLabels (samples.get index) (samples.get other) := by
  constructor
  · rintro ⟨place, place', ⟨made, held, found, reached, own, _⟩,
      ⟨made', held', found', reached', own', _⟩, sameMetric, sameSeries⟩
    rw [sameMetric, found'] at found
    obtain rfl := Option.some.inj found
    rw [sameSeries, reached'] at reached
    obtain rfl := Option.some.inj reached
    obtain ⟨name, values⟩ := belongs_iff.mp own
    obtain ⟨name', values'⟩ := belongs_iff.mp own'
    refine ⟨name.trans name'.symm, ?_⟩
    intro key notJob notInstance
    have described := metricsOf_describes (List.mem_of_getElem? found')
    by_cases listed : key ∈ made'.descriptor.labelKeys
    · exact List.map_inj_left.mp (values.trans values'.symm) key listed
    · -- A label that is not among the metric's is missing from both samples.
      have missing (place : Fin samples.length)
          (named : (samples.get place).name = made'.descriptor.name) :
          (samples.get place).labels.get? key = none := by
        by_contra present
        refine listed ((described.keys key).mpr ⟨⟨notJob, notInstance⟩, samples.get place,
          List.getElem_mem place.isLt, named, ?_⟩)
        exact SortedMap.mem_keys_iff.mpr (Option.isSome_iff_ne_none.mpr present)
      rw [missing index name, missing other name']
  · rintro ⟨name, labels⟩
    obtain ⟨place, stands⟩ := exists_standsAt ledger job index
    obtain ⟨made, held, found, reached, own, rank⟩ := stands
    obtain ⟨named, values⟩ := belongs_iff.mp own
    have described := metricsOf_describes (List.mem_of_getElem? found)
    have same : labelValues made.descriptor.labelKeys (samples.get other) =
        labelValues made.descriptor.labelKeys (samples.get index) := by
      refine List.map_congr_left ?_
      intro key listed
      obtain ⟨notJob, notInstance⟩ := ((described.keys key).mp listed).1
      exact (labels key notJob notInstance).symm
    have own' : belongs made held (samples.get other) = true :=
      belongs_iff.mpr ⟨name.symm.trans named, same.trans values⟩
    exact ⟨place, ⟨place.metric, place.series, (samples.take other).countP (belongs made held)⟩,
      ⟨made, held, found, reached, own, rank⟩, ⟨made, held, found, reached, own', rfl⟩, rfl, rfl⟩

theorem merged_of_seriesKey (plain : (samples.get index).Plain)
    (plain' : (samples.get other).Plain)
    (same : (samples.get index).seriesKey = (samples.get other).seriesKey) :
    Merged (metricsOf ledger job samples).2 samples index other := by
  obtain ⟨name, labels⟩ := (Sample.seriesKey_inj plain plain').mp same
  refine merged_iff.mpr ⟨name, ?_⟩
  intro key _ _
  rw [labels]

/-- Labels that agree up to missing ones are the same if none is empty. -/
theorem SameLabels.labels_eq {sample other : Sample} (same : SameLabels sample other)
    (ownJob : sample.labels.get? jobLabel = other.labels.get? jobLabel)
    (ownInstance : sample.labels.get? instanceLabel = other.labels.get? instanceLabel)
    (filled : ∀ label ∈ sample.labels.entries, label.2 ≠ "")
    (filled' : ∀ label ∈ other.labels.entries, label.2 ≠ "") :
    sample.labels = other.labels := by
  refine SortedMap.ext_get? fun key => ?_
  by_cases isJob : key = jobLabel
  · rw [isJob, ownJob]
  by_cases isInstance : key = instanceLabel
  · rw [isInstance, ownInstance]
  have agree := same key isJob isInstance
  cases held : sample.labels.get? key with
  | none =>
      cases held' : other.labels.get? key with
      | none => rfl
      | some value =>
          rw [held, held'] at agree
          exact absurd agree.symm (filled' _ (SortedMap.get?_eq_some_iff.mp held'))
  | some value =>
      cases held' : other.labels.get? key with
      | none =>
          rw [held, held'] at agree
          exact absurd agree (filled _ (SortedMap.get?_eq_some_iff.mp held))
      | some value' =>
          rw [held, held'] at agree
          exact congrArg some agree

end Translation

namespace Transaction

open Translation

/-- A commit merges the points of two samples of a target exactly if the samples have the same
name and the same labels, those of the job and the instance apart and a missing label being
empty. Samples that the ledger keeps under one key are merged if the separators of the key do
not occur in them, and merged samples are kept under one key if they have the same job and
instance labels and no label is empty. -/
theorem commit_merges (receiver : String) (now : Nat) (ledger : Ledger)
    (transaction : Transaction) (place : Fin transaction.targets.length) :
    let node := (transaction.targets.get place).1
    let pending := (transaction.targets.get place).2
    let before := (batchesOf receiver ledger (transaction.targets.take place)).1
    let metrics := (metricsOf before (ledgerKey node.job node.address) pending.samples).2
    (transaction.commit receiver now ledger).2[place.val]? =
        some ⟨receiver, node, pending.generation, metrics⟩ ∧
      ∀ index other : Fin pending.samples.length,
        let sample := pending.samples.get index
        let twin := pending.samples.get other
        (Merged metrics pending.samples index other ↔
          sample.name = twin.name ∧ SameLabels sample twin) ∧
        (sample.Plain → twin.Plain → sample.seriesKey = twin.seriesKey →
          Merged metrics pending.samples index other) ∧
        (Merged metrics pending.samples index other →
          sample.labels.get? jobLabel = twin.labels.get? jobLabel →
          sample.labels.get? instanceLabel = twin.labels.get? instanceLabel →
          (∀ label ∈ sample.labels.entries, label.2 ≠ "") →
          (∀ label ∈ twin.labels.entries, label.2 ≠ "") →
          sample.seriesKey = twin.seriesKey) := by
  intro node pending before metrics
  refine ⟨batchesOf_getElem? receiver ledger transaction.targets place, ?_⟩
  intro index other sample twin
  refine ⟨merged_iff, merged_of_seriesKey, ?_⟩
  intro merged ownJob ownInstance filled filled'
  obtain ⟨name, labels⟩ := merged_iff.mp merged
  rw [Sample.seriesKey, Sample.seriesKey, name,
    labels.labels_eq ownJob ownInstance filled filled']

/-- Two counters of one name with the given labels. -/
def labelledPair (labels others : List (String × String)) : List (Node × Sample) :=
  [(⟨"web", "10.0.0.1:80"⟩, ⟨"hits", .ofList labels, .one, 1000, .counter⟩),
    (⟨"web", "10.0.0.1:80"⟩, ⟨"hits", .ofList others, .one, 2000, .counter⟩)]

/-- The times of the points in each time series that is made of a pair. -/
def pairSeries (samples : List (Node × Sample)) : List (List Int64) :=
  let filled := new.appendAll .unrestricted 0 (.new defaultStaleness) samples
  (filled.2.commit "relay" 0 filled.1).2.flatMap fun batch =>
    batch.metrics.flatMap fun metric =>
      metric.series.map fun series => series.points.map Point.timestamp

/-- Samples of different jobs, as honoured labels may have it, are merged though the ledger
keeps them apart, and so are a sample with an empty label and one without it. Two series that
are not merged are one to the ledger if the separators stand in a label. -/
theorem merged_apart_from_key :
    let ofJobs := labelledPair [("job", "east")] [("job", "west")]
    let ofEmpty := labelledPair [("zone", "")] []
    let ofSeparators := labelledPair [("zone", "a"), ("zoo", "b")] [("zone", "a\x00zoo=b")]
    pairSeries ofJobs = [[1000, 2000]] ∧ ¬ (ofJobs.map (·.2.seriesKey)).Pairwise (· = ·) ∧
      pairSeries ofEmpty = [[1000, 2000]] ∧ ¬ (ofEmpty.map (·.2.seriesKey)).Pairwise (· = ·) ∧
      pairSeries ofSeparators = [[1000], [2000]] ∧
      (ofSeparators.map (·.2.seriesKey)).Pairwise (· = ·) := by
  decide +kernel

end Transaction

end ScrapeRelay
