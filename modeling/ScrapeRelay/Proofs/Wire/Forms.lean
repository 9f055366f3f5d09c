import ScrapeRelay.Proofs.Json.Narrow
import ScrapeRelay.Proofs.Json.Text
import ScrapeRelay.Proofs.SortedMap
import ScrapeRelay.Wire

/-!
# Forms that keep their values

What is written of a value is read back as that value, or refused if a floating-point value in it is
not finite, and nothing that is read holds such a value (`Faithful`). Single values are written so,
and lists of what is.
-/

namespace ScrapeRelay.Wire

open ScrapeRelay.Text

variable {α : Type} {write : α → Json} {read : Json → Option α} {reals : α → List Binary64}
  {Fits : α → Prop}

/-- A form of values, given the floating-point values in each and which values there are. -/
structure Faithful (write : α → Json) (read : Json → Option α) (reals : α → List Binary64)
    (Fits : α → Prop) : Prop where
  restores {x : α} : Fits x →
    read (write x) = if (reals x).all Binary64.isFinite then some x else none
  legible {x : α} : Fits x →
    (∀ real ∈ reals x, real.isFinite = true → Json.PrintsExactly real) → (write x).Legible
  sound {json : Json} {x : α} : json.Narrow → read json = some x →
    Fits x ∧ (reals x).all Binary64.isFinite = true

/-- A form of values without floating-point values in them. -/
theorem Faithful.of_restores (restores : ∀ x, read (write x) = some x)
    (legible : ∀ x, (write x).Legible) : Faithful write read (fun _ => []) (fun _ => True) where
  restores _ := restores _
  legible _ _ := legible _
  sound _ _ := ⟨trivial, rfl⟩

theorem Faithful.restored (faithful : Faithful write read (fun _ => []) fun _ => True) (x : α) :
    read (write x) = some x :=
  faithful.restores trivial

theorem Faithful.written (faithful : Faithful write read (fun _ => []) fun _ => True) (x : α) :
    (write x).Legible :=
  faithful.legible trivial (List.forall_mem_nil _)

section Lists

variable {β : Type} {values : List α} {results : List β} {readOne : α → Option β}

theorem mapM_of_forall (result : α → β) (reads : ∀ x ∈ values, readOne x = some (result x)) :
    values.mapM readOne = some (values.map result) := by
  induction values with
  | nil => rfl
  | cons x values ih =>
      obtain ⟨first, others⟩ := List.forall_mem_cons.mp reads
      rw [List.mapM_cons, first, ih others]
      rfl

theorem exists_of_mem_mapM (read : values.mapM readOne = some results) :
    ∀ y ∈ results, ∃ x ∈ values, readOne x = some y := by
  induction values generalizing results with
  | nil =>
      cases read
      simp
  | cons x values ih =>
      rw [List.mapM_cons] at read
      obtain ⟨first, firstRead, rest⟩ := Option.bind_eq_some_iff.mp read
      obtain ⟨others, othersRead, same⟩ := Option.bind_eq_some_iff.mp rest
      cases same
      refine List.forall_mem_cons.mpr ⟨⟨x, List.mem_cons_self, firstRead⟩, fun y member => ?_⟩
      obtain ⟨source, inside, sourceRead⟩ := ih othersRead y member
      exact ⟨source, List.mem_cons_of_mem _ inside, sourceRead⟩

end Lists

theorem Faithful.list (faithful : Faithful write read reals Fits) :
    Faithful (fun values => .array (values.map write)) (list? read)
      (fun values => values.flatMap reals) (fun values => ∀ x ∈ values, Fits x) where
  restores {values} fit := by
    simp only [list?]
    induction values with
    | nil => rfl
    | cons x values ih =>
        obtain ⟨first, others⟩ := List.forall_mem_cons.mp fit
        rw [List.map_cons, List.mapM_cons, faithful.restores first, ih others, List.flatMap_cons,
          List.all_append]
        cases (reals x).all Binary64.isFinite <;>
          cases (values.flatMap reals).all Binary64.isFinite <;> rfl
  legible {values} fit exact := by
    refine .array ?_
    simp only [List.mem_map, forall_exists_index, and_imp]
    rintro _ x inside rfl
    exact faithful.legible (fit x inside) fun real member =>
      exact real (List.mem_flatMap.mpr ⟨x, inside, member⟩)
  sound {json values} narrow read := by
    cases narrow with
    | array narrow =>
        have each : ∀ x ∈ values, Fits x ∧ (reals x).all Binary64.isFinite = true := by
          intro x inside
          obtain ⟨element, member, elementRead⟩ := exists_of_mem_mapM read x inside
          exact faithful.sound (narrow element member) elementRead
        refine ⟨fun x inside => (each x inside).1, ?_⟩
        simp only [List.all_flatMap, List.all_eq_true (p := fun x => (reals x).all _)]
        exact fun x inside => (each x inside).2
    | _ => cases read

/-- A list of values without floating-point values in them. -/
theorem Faithful.plainList (faithful : Faithful write read (fun _ => []) fun _ => True) :
    Faithful (fun values => .array (values.map write)) (list? read) (fun _ => [])
      (fun _ => True) := by
  refine .of_restores (fun values => ?_) fun values => ?_
  · rw [list?, List.mapM_map]
    exact (mapM_of_forall id fun x _ => faithful.restored x).trans (by simp)
  · exact faithful.list.legible (fun _ _ => trivial) (by simp)

variable {names : List String} {members : List (String × Json)} {json : Json}

theorem membersNamed_absent {name : String} (absent : name ∉ members.map Prod.fst) :
    Json.membersNamed name (members.map fun member => (some member.1, member.2)) = [] := by
  induction members with
  | nil => rfl
  | cons member members ih =>
      rw [List.map_cons, List.mem_cons, not_or] at absent
      have other : some member.1 ≠ some name := fun same => absent.1 (Option.some.inj same).symm
      rw [List.map_cons, Json.membersNamed, if_neg other, ih absent.2]

theorem membersNamed_record {name : String} {value : Json}
    (distinct : (members.map Prod.fst).Nodup) (member : (name, value) ∈ members) :
    Json.membersNamed name (members.map fun member => (some member.1, member.2)) = [value] := by
  induction members with
  | nil => cases member
  | cons first members ih =>
      rw [List.map_cons, List.nodup_cons] at distinct
      rw [List.map_cons, Json.membersNamed]
      obtain rfl | inside := List.mem_cons.mp member
      · rw [if_pos rfl, membersNamed_absent distinct.1]
      · have other : some first.1 ≠ some name := by
          rintro same
          exact distinct.1 (Option.some.inj same ▸ List.mem_map_of_mem (f := Prod.fst) inside)
        rw [if_neg other, ih distinct.2 inside]

theorem fields?_record (known : members.map Prod.fst = names) (distinct : names.Nodup) :
    fields? names (Json.record members) = some (members.map fun member => some member.2) := by
  subst known
  have whole : ((members.map fun member => (some member.1, member.2)).any
      fun member => member.1.isNone) = false := by simp
  simp only [fields?, Json.record, whole, Bool.false_eq_true, if_false, List.mapM_map]
  refine mapM_of_forall _ fun member inside => ?_
  rw [Function.comp_apply, membersNamed_record distinct inside]
  rfl

theorem legible_record (legible : ∀ member ∈ members, member.2.Legible) :
    (Json.record members).Legible := by
  refine .object ?_ ?_ <;> simp only [List.mem_map, forall_exists_index, and_imp]
  · rintro _ member _ rfl
    exact ⟨member.1, rfl⟩
  · rintro _ member inside rfl
    exact legible member inside

theorem narrow_of_fields? {fields : List (Option Json)} (narrow : json.Narrow)
    (read : fields? names json = some fields) : ∀ value, some value ∈ fields → value.Narrow := by
  intro value inside
  cases narrow with
  | array narrow =>
      simp only [fields?] at read
      split_ifs at read
      cases read
      obtain ⟨element, member, same⟩ := List.mem_map.mp inside
      exact narrow value (Option.some.inj same ▸ member)
  | object narrow =>
      simp only [fields?] at read
      split_ifs at read
      obtain ⟨name, _, found⟩ := exists_of_mem_mapM read _ inside
      unfold single? at found
      split at found
      · cases found
      · rename_i named
        cases found
        exact .of_mem_membersNamed narrow (named ▸ List.mem_singleton_self _)
      · cases found
  | _ => cases read

theorem text_faithful : Faithful Json.text text? (fun _ => []) (fun _ => True) :=
  .of_restores (fun _ => rfl) .text

theorem ofLabels_faithful : Faithful ofLabels labels? (fun _ => []) (fun _ => True) := by
  refine .of_restores (fun labels => ?_) fun labels => ?_
  · have read : (labels.entries.map fun label => (some label.1, Json.text label.2)).mapM label? =
        some labels.entries := by
      rw [List.mapM_map]
      exact (mapM_of_forall id fun _ _ => rfl).trans (by simp)
    simp only [ofLabels, Json.record, List.map_map, Function.comp_def, labels?, read]
    exact congrArg some (SortedMap.ofList_entries labels)
  · refine legible_record ?_
    simp only [List.mem_map, forall_exists_index, and_imp]
    rintro _ label _ rfl
    exact .text _

theorem ofTime_faithful : Faithful ofTime time? (fun _ => []) (fun _ => True) := by
  refine .of_restores (fun time => ?_) fun time => ?_
  · have range : (Int64.minValue.toInt ≤ time.toInt && time.toInt ≤ Int64.maxValue.toInt) = true :=
      Bool.and_eq_true_iff.mpr
        ⟨decide_eq_true time.minValue_le_toInt, decide_eq_true time.toInt_le⟩
    simp only [ofTime, Json.ofInt, time?, Json.int?, if_pos range, Int64.ofInt_toInt]
  · exact .integer time.minValue_le_toInt (Int.lt_trans time.toInt_lt (by decide))

theorem ofNat_faithful :
    Faithful Json.ofNat word? (fun _ => []) (fun word => word < UInt64.size) where
  restores {word} fits := by simp [Json.ofNat, word?, Json.int?, fits]
  legible {word} fits _ := .integer (Int.le_trans (by decide) (Int.natCast_nonneg word))
    (Int.ofNat_lt.mpr fits)
  sound {json word} _ read := by
    refine ⟨?_, rfl⟩
    unfold word? at read
    split at read
    · split_ifs at read with fits
      cases read
      exact of_decide_eq_true (Bool.and_eq_true_iff.mp fits).2
    · cases read

theorem ofValue_faithful :
    Faithful ofValue Json.real? (fun value => [value]) (fun _ => True) where
  restores {value} _ := by
    cases finite : value.isFinite <;> simp [ofValue, finite, Json.real?]
  legible {value} _ exact := by
    unfold ofValue
    split
    · rename_i finite
      exact .real finite (exact value List.mem_cons_self finite)
    · exact .null
  sound narrow read := ⟨trivial, by simp [Json.isFinite_of_real? narrow read]⟩

theorem ofSampleKind_faithful :
    Faithful ofSampleKind sampleKind? (fun _ => []) (fun _ => True) :=
  .of_restores (by intro kind; cases kind <;> rfl) fun _ => .text _

theorem ofMetricKind_faithful :
    Faithful ofMetricKind metricKind? (fun _ => []) (fun _ => True) :=
  .of_restores (by intro kind; cases kind <;> rfl) fun _ => .text _

end ScrapeRelay.Wire
