import ScrapeRelay.Proofs.Wire.Forms

/-!
# Samples and batches survive JSON

Samples, target groups, time series, metrics and batches are read back from their JSON texts as they
were, unless a floating-point value in one is infinite or NaN: that is written as null, and then
nothing is read. No text is read as something that would not be read back (`survives_json`).

How finite values are printed is left open. Only those count that are printed and read again without
loss.
-/

namespace ScrapeRelay

def Sample.reals (sample : Sample) : List Binary64 := [sample.value]

def Point.reals (point : Point) : List Binary64 := [point.value]

def TimeSeries.reals (series : TimeSeries) : List Binary64 := series.points.flatMap Point.reals

def Metric.reals (metric : Metric) : List Binary64 := metric.series.flatMap TimeSeries.reals

def Batch.reals (batch : Batch) : List Binary64 := batch.metrics.flatMap Metric.reals

namespace Wire

theorem ofSample_faithful : Faithful ofSample sample? Sample.reals (fun _ => True) where
  restores {sample} _ := by
    have value := ofValue_faithful.restores (x := sample.value) trivial
    rw [sample?, ofSample, fields?_record (by rfl) (by simp)]
    simp only [List.map_cons, List.map_nil, required?, Option.bind_some,
      text?, ofLabels_faithful.restored, value,
      ofTime_faithful.restored, ofSampleKind_faithful.restored, Sample.reals]
    by_cases finite : [sample.value].all Binary64.isFinite = true <;>
      simp only [finite, if_true] <;> rfl
  legible {sample} _ exact := by
    have value := ofValue_faithful.legible (x := sample.value) trivial exact
    refine legible_record ?_
    simp only [List.forall_mem_cons]
    exact ⟨.text _, ofLabels_faithful.written _, value, ofTime_faithful.written _,
      ofSampleKind_faithful.written _, List.forall_mem_nil _⟩
  sound {json sample} narrow read := by
    refine ⟨trivial, ?_⟩
    unfold sample? at read
    split at read
    · rename_i fields
      have inside := narrow_of_fields? narrow fields
      simp only [required?, Option.bind_eq_bind, Option.bind_eq_some_iff] at read
      obtain ⟨_, _, _, _, value, ⟨field, rfl, valueRead⟩, _, _, _, _, same⟩ := read
      cases same
      exact (ofValue_faithful.sound (inside field (by simp)) valueRead).2
    · cases read

theorem ofTargetGroup_faithful :
    Faithful ofTargetGroup targetGroup? (fun _ => []) (fun _ => True) := by
  refine .of_restores (fun group => ?_) fun group => legible_record ?_
  · rw [targetGroup?, ofTargetGroup, fields?_record (by rfl) (by simp)]
    simp only [List.map_cons, List.map_nil, required?, Option.bind_some,
      text?, ofLabels_faithful.plainList.restored,
      ofLabels_faithful.restored]
    rfl
  · simp only [List.forall_mem_cons]
    exact ⟨.text _, ofLabels_faithful.plainList.written _, ofLabels_faithful.written _,
      List.forall_mem_nil _⟩

theorem ofPoint_faithful : Faithful ofPoint point? Point.reals (fun _ => True) where
  restores {point} _ := by
    have value := ofValue_faithful.restores (x := point.value) trivial
    rw [point?, ofPoint, fields?_record (by rfl) (by simp)]
    simp only [List.map_cons, List.map_nil, required?, Option.bind_some,
      value, ofTime_faithful.restored, Point.reals]
    by_cases finite : [point.value].all Binary64.isFinite = true <;>
      simp only [finite, if_true] <;> rfl
  legible {point} _ exact := by
    have value := ofValue_faithful.legible (x := point.value) trivial exact
    refine legible_record ?_
    simp only [List.forall_mem_cons]
    exact ⟨ofTime_faithful.written _, value, List.forall_mem_nil _⟩
  sound {json point} narrow read := by
    refine ⟨trivial, ?_⟩
    unfold point? at read
    split at read
    · rename_i fields
      have inside := narrow_of_fields? narrow fields
      simp only [required?, Option.bind_eq_bind, Option.bind_eq_some_iff] at read
      obtain ⟨_, _, value, ⟨field, rfl, valueRead⟩, same⟩ := read
      cases same
      exact (ofValue_faithful.sound (inside field (by simp)) valueRead).2
    · cases read

theorem optional?_ofTime (start : Option Int64) :
    optional? time? (some ((start.map ofTime).getD .null)) = some start := by
  cases start with
  | none => rfl
  | some time => exact congrArg (Option.map some) (ofTime_faithful.restored time)

theorem ofTimeSeries_faithful :
    Faithful ofTimeSeries timeSeries? TimeSeries.reals (fun _ => True) where
  restores {series} _ := by
    have points := ofPoint_faithful.list.restores (x := series.points) fun _ _ => trivial
    rw [timeSeries?, ofTimeSeries, fields?_record (by rfl) (by simp)]
    simp only [List.map_cons, List.map_nil, required?, Option.bind_some,
      optional?_ofTime, ofTexts,
      text_faithful.plainList.restored, points, TimeSeries.reals]
    by_cases finite : (series.points.flatMap Point.reals).all Binary64.isFinite = true <;>
      simp only [finite, if_true] <;> rfl
  legible {series} _ exact := by
    have points := ofPoint_faithful.list.legible (x := series.points) (fun _ _ => trivial) exact
    refine legible_record ?_
    simp only [List.forall_mem_cons]
    refine ⟨?_, text_faithful.plainList.written _, points, List.forall_mem_nil _⟩
    cases series.start with
    | none => exact .null
    | some time => exact ofTime_faithful.written time
  sound {json series} narrow read := by
    refine ⟨trivial, ?_⟩
    unfold timeSeries? at read
    split at read
    · rename_i fields
      have inside := narrow_of_fields? narrow fields
      simp only [required?, Option.bind_eq_bind, Option.bind_eq_some_iff] at read
      obtain ⟨_, _, _, _, points, ⟨field, rfl, pointsRead⟩, same⟩ := read
      cases same
      exact (ofPoint_faithful.list.sound (inside field (by simp)) pointsRead).2
    · cases read

theorem ofDescriptor_faithful :
    Faithful ofDescriptor descriptor? (fun _ => []) (fun _ => True) := by
  refine .of_restores (fun descriptor => ?_) fun descriptor => legible_record ?_
  · rw [descriptor?, ofDescriptor, fields?_record (by rfl) (by simp)]
    simp only [List.map_cons, List.map_nil, required?, Option.bind_some,
      text?, ofMetricKind_faithful.restored, ofTexts,
      text_faithful.plainList.restored]
    rfl
  · simp only [List.forall_mem_cons]
    exact ⟨.text _, ofMetricKind_faithful.written _, text_faithful.plainList.written _,
      List.forall_mem_nil _⟩

theorem ofMetric_faithful : Faithful ofMetric metric? Metric.reals (fun _ => True) where
  restores {metric} _ := by
    have series := ofTimeSeries_faithful.list.restores (x := metric.series) fun _ _ => trivial
    rw [metric?, ofMetric, fields?_record (by rfl) (by simp)]
    simp only [List.map_cons, List.map_nil, required?, Option.bind_some,
      ofDescriptor_faithful.restored, series, Metric.reals]
    by_cases finite : (metric.series.flatMap TimeSeries.reals).all Binary64.isFinite = true <;>
      simp only [finite, if_true] <;> rfl
  legible {metric} _ exact := by
    have series :=
      ofTimeSeries_faithful.list.legible (x := metric.series) (fun _ _ => trivial) exact
    refine legible_record ?_
    simp only [List.forall_mem_cons]
    exact ⟨ofDescriptor_faithful.written _, series, List.forall_mem_nil _⟩
  sound {json metric} narrow read := by
    refine ⟨trivial, ?_⟩
    unfold metric? at read
    split at read
    · rename_i fields
      have inside := narrow_of_fields? narrow fields
      simp only [required?, Option.bind_eq_bind, Option.bind_eq_some_iff] at read
      obtain ⟨_, _, series, ⟨field, rfl, seriesRead⟩, same⟩ := read
      cases same
      exact (ofTimeSeries_faithful.list.sound (inside field (by simp)) seriesRead).2
    · cases read

theorem ofNode_faithful : Faithful ofNode node? (fun _ => []) (fun _ => True) := by
  refine .of_restores (fun node => ?_) fun node => legible_record ?_
  · rw [node?, ofNode, fields?_record (by rfl) (by simp)]
    rfl
  · simp only [List.forall_mem_cons]
    exact ⟨.text _, .text _, List.forall_mem_nil _⟩

theorem ofBatch_faithful :
    Faithful ofBatch batch? Batch.reals (fun batch => batch.generation < UInt64.size) where
  restores {batch} fits := by
    have generation := ofNat_faithful.restores (x := batch.generation) fits
    have metrics := ofMetric_faithful.list.restores (x := batch.metrics) fun _ _ => trivial
    rw [batch?, ofBatch, fields?_record (by rfl) (by simp)]
    simp only [List.map_cons, List.map_nil, required?, Option.bind_some,
      text?, ofNode_faithful.restored, generation,
      List.all_nil, if_true, metrics, Batch.reals]
    by_cases finite : (batch.metrics.flatMap Metric.reals).all Binary64.isFinite = true <;>
      simp only [finite, if_true] <;> rfl
  legible {batch} fits exact := by
    have generation := ofNat_faithful.legible (x := batch.generation) fits (List.forall_mem_nil _)
    have metrics := ofMetric_faithful.list.legible (x := batch.metrics) (fun _ _ => trivial) exact
    refine legible_record ?_
    simp only [List.forall_mem_cons]
    exact ⟨.text _, ofNode_faithful.written _, generation, metrics, List.forall_mem_nil _⟩
  sound {json batch} narrow read := by
    unfold batch? at read
    split at read
    · rename_i fields
      have inside := narrow_of_fields? narrow fields
      simp only [required?, Option.bind_eq_bind, Option.bind_eq_some_iff] at read
      obtain ⟨_, _, _, _, generation, ⟨count, rfl, generationRead⟩, metrics,
        ⟨field, rfl, metricsRead⟩, same⟩ := read
      cases same
      exact ⟨(ofNat_faithful.sound (inside count (by simp)) generationRead).1,
        (ofMetric_faithful.list.sound (inside field (by simp)) metricsRead).2⟩
    · cases read

variable {α : Type} {write : α → Json} {read : Json → Option α} {reals : α → List Binary64}
  {Fits : α → Prop}

/-- The text of a value. -/
def store (write : α → Json) (x : α) : String := (write x).render

/-- The value of a text, unless it is refused. -/
def load (read : Json → Option α) (text : String) : Option α := (Json.parse? text).bind read

/-- Which values survive writing and reading, given the floating-point values in each and which
values there are. -/
structure Survives (write : α → Json) (read : Json → Option α) (reals : α → List Binary64)
    (Fits : α → Prop) : Prop where
  /-- As JSON values, however numbers are printed. -/
  value : ∀ x, Fits x → read (write x) = if (reals x).all Binary64.isFinite then some x else none
  written : ∀ x, Fits x → (∀ real ∈ reals x, real.isFinite = true → Json.PrintsExactly real) →
    load read (store write x) = if (reals x).all Binary64.isFinite then some x else none
  finite : ∀ text x, load read text = some x → Fits x ∧ ∀ real ∈ reals x, real.isFinite = true
  accepted : ∀ text x, load read text = some x → (∀ real ∈ reals x, Json.PrintsExactly real) →
    load read (store write x) = some x

theorem Faithful.load_store (faithful : Faithful write read reals Fits) {x : α} (fits : Fits x)
    (exact : ∀ real ∈ reals x, real.isFinite = true → Json.PrintsExactly real) :
    load read (store write x) = if (reals x).all Binary64.isFinite then some x else none := by
  rw [load, store, Json.parse?_render (faithful.legible fits exact), Option.bind_some]
  exact faithful.restores fits

theorem Faithful.sound_load (faithful : Faithful write read reals Fits) {text : String} {x : α}
    (loaded : load read text = some x) : Fits x ∧ (reals x).all Binary64.isFinite = true := by
  obtain ⟨json, parsed, accepted⟩ := Option.bind_eq_some_iff.mp loaded
  exact faithful.sound (Json.narrow_of_parse? parsed) accepted

theorem Faithful.survives (faithful : Faithful write read reals Fits) :
    Survives write read reals Fits where
  value _ fits := faithful.restores fits
  written _ fits exact := faithful.load_store fits exact
  finite _ _ loaded := (faithful.sound_load loaded).imp_right List.all_eq_true.mp
  accepted _ x loaded exact := by
    obtain ⟨fits, finite⟩ := faithful.sound_load loaded
    rw [faithful.load_store fits fun real member _ => exact real member, if_pos finite]

/-- Batches and all that they are made from are read back from their texts exactly if every
floating-point value in them is finite, and what is read from any text is read back from its own.
An infinity or NaN is written as null, which is refused. -/
theorem survives_json :
    Survives ofBatch batch? Batch.reals (fun batch => batch.generation < UInt64.size) ∧
    Survives ofMetric metric? Metric.reals (fun _ => True) ∧
    Survives ofTimeSeries timeSeries? TimeSeries.reals (fun _ => True) ∧
    Survives ofSample sample? Sample.reals (fun _ => True) ∧
    Survives ofTargetGroup targetGroup? (fun _ => []) (fun _ => True) ∧
    ∀ value : Binary64, value.isFinite = false →
      store ofValue value = "null" ∧ load Json.real? "null" = none := by
  refine ⟨ofBatch_faithful.survives, ofMetric_faithful.survives, ofTimeSeries_faithful.survives,
    ofSample_faithful.survives, ofTargetGroup_faithful.survives, fun value notFinite => ⟨?_, rfl⟩⟩
  rw [store, ofValue, if_neg (Bool.eq_false_iff.mp notFinite)]
  rfl

/-- A batch with the values 0.1 and 1 is read back, and one with a staleness marker is refused. -/
theorem survives_json_marker :
    let batch (last : Binary64) : Batch := ⟨"push", ⟨"api", "10.0.0.1:80"⟩, 7,
      [⟨⟨"up", .gauge, ["zone"]⟩, [⟨none, ["a"], [⟨1000, ⟨0x3FB999999999999A⟩⟩, ⟨2000, last⟩]⟩]⟩]⟩
    let marker : Binary64 := ⟨0x7FF0000000000002⟩
    load batch? (store ofBatch (batch .one)) = some (batch .one) ∧
    load batch? (store ofBatch (batch marker)) = none := by
  intro batch marker
  have tenth : Json.PrintsExactly ⟨0x3FB999999999999A⟩ := rfl
  have one : Json.PrintsExactly .one := rfl
  refine ⟨(survives_json.1.written (batch .one) (by decide) ?_).trans (if_pos (by decide)),
    (survives_json.1.written (batch marker) (by decide) ?_).trans (if_neg (by decide))⟩
  · exact List.forall_mem_cons.mpr ⟨fun _ => tenth, List.forall_mem_singleton.mpr fun _ => one⟩
  · exact List.forall_mem_cons.mpr ⟨fun _ => tenth,
      List.forall_mem_singleton.mpr fun finite => absurd finite (by decide)⟩

end Wire

end ScrapeRelay
