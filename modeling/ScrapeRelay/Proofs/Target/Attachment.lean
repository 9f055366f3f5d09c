import Mathlib.Data.List.Induction
import Mathlib.Logic.Function.Iterate
import ScrapeRelay.Proofs.SortedMap
import ScrapeRelay.Proofs.Target

/-!
# What attaching labels does to the labels of both sides

The labels of a target are attached to a sample one after the other, in the order of their
names. A value of the sample that gives way moves to a name with `exported_` in front, and
what stands under that name before or after the move decides what is kept: a label of the
target is lost exactly if a value moves over it after its turn (`own_label_kept_iff`), and a
label of the sample exactly if a value moves over it before its own turn or without a move of
its own (`sample_labels_kept`).
-/

namespace ScrapeRelay.Target

variable {own labels : Labels} {key value name other moved wanted : String}

/-! ## Names with a prefix -/

/-- The name that a value moves to. -/
def exported (name : String) : String := "exported_" ++ name

theorem exported_injective : Function.Injective exported :=
  fun _ _ same => (String.append_right_inj _).mp same

theorem exported_lt_iff : exported name < exported other ↔ name < other := by
  change (exported name).toList < (exported other).toList ↔ name.toList < other.toList
  simp [exported]

theorem length_exported (name : String) : (exported name).length = name.length + 9 := by
  rw [exported, String.length_append, Nat.add_comm]
  rfl

theorem exported_ne (name : String) : exported name ≠ name := by
  intro same
  have longer := length_exported name
  rw [same] at longer
  omega

/-! ## One label -/

theorem attachLabel_self (labels : Labels) (key value : String) :
    (attachLabel false labels (key, value)).get? key = some value := by
  unfold attachLabel
  split
  · exact SortedMap.get?_insert_self
  · rename_i held there
    split
    · rename_i same
      rw [there, same]
    · exact SortedMap.get?_insert_self

theorem attachLabel_moved (there : labels.get? key = some moved) (different : moved ≠ value) :
    (attachLabel false labels (key, value)).get? (exported key) = some moved := by
  simp only [attachLabel, there, if_neg different, Bool.false_eq_true, if_false]
  rw [SortedMap.get?_insert_of_ne (exported_ne key)]
  exact SortedMap.get?_insert_self

/-- Attaching a label leaves a name alone unless it is its own or a value moves to it. -/
theorem attachLabel_other (apart : name ≠ key)
    (still : name = exported key → ∀ moved, labels.get? key = some moved → moved = value) :
    (attachLabel false labels (key, value)).get? name = labels.get? name := by
  cases there : labels.get? key with
  | none =>
      simp only [attachLabel, there]
      exact SortedMap.get?_insert_of_ne apart
  | some held =>
      simp only [attachLabel, there, Bool.false_eq_true, if_false]
      split
      · rfl
      · rename_i different
        have elsewhere : name ≠ exported key := fun same => different (still same held there)
        rw [SortedMap.get?_insert_of_ne apart]
        exact SortedMap.get?_insert_of_ne elsewhere

theorem attachLabel_honored (label : String × String) (there : labels.get? name = some value) :
    (attachLabel true labels label).get? name = some value := by
  cases held : labels.get? label.1 with
  | none =>
      have apart : name ≠ label.1 := by
        rintro rfl
        rw [held] at there
        cases there
      simp only [attachLabel, held]
      rw [SortedMap.get?_insert_of_ne apart]
      exact there
  | some _ =>
      simp only [attachLabel, held, if_true, ite_self]
      exact there

/-! ## Turns -/

/-- Labels with all labels of a target attached. -/
def attached (own labels : Labels) : Labels := own.entries.foldl (attachLabel false) labels

/-- Labels when it is the turn of a name: what the target has under smaller names is attached. -/
def atTurn (own labels : Labels) (name : String) : Labels :=
  attached (own.filter fun other _ => other < name) labels

/-- A value gives way to the target's value of a name, and moves. -/
def Moves (own labels : Labels) (name moved : String) : Prop :=
  ∃ wanted, own.get? name = some wanted ∧
    (atTurn own labels name).get? name = some moved ∧ moved ≠ wanted

theorem attached_eq (target : Target) (sample : Sample) :
    (target.attachLabels false sample).labels = attached target.labels sample.labels := rfl

/-- The turn of an entry comes after those of the entries in front of it. -/
theorem atTurn_eq {front rest : List (String × String)}
    (entries : own.entries = front ++ (key, value) :: rest) :
    atTurn own labels key = front.foldl (attachLabel false) labels := by
  have ascending := own.ascending
  rw [entries] at ascending
  obtain ⟨_, tail, across⟩ := List.pairwise_append.mp ascending
  have smaller : ∀ entry ∈ front, decide (entry.1 < key) = true := fun entry member =>
    decide_eq_true (across entry member (key, value) List.mem_cons_self)
  have notSmaller : ∀ entry ∈ (key, value) :: rest, ¬ decide (entry.1 < key) = true := by
    intro entry member less
    rcases List.mem_cons.mp member with rfl | member
    · exact String.lt_irrefl _ (of_decide_eq_true less)
    · exact String.lt_irrefl _
        (String.lt_trans (of_decide_eq_true less) ((List.pairwise_cons.mp tail).1 entry member))
  have filtered : own.entries.filter (fun entry => decide (entry.1 < key)) = front := by
    rw [entries, List.filter_append, List.filter_eq_self.mpr smaller,
      List.filter_eq_nil_iff.mpr notSmaller, List.append_nil]
  exact congrArg (List.foldl (attachLabel false) labels) filtered

/-- What the target has under a name splits its entries into those of smaller and those of
greater names. -/
theorem exists_turn (held : own.get? name = some value) :
    ∃ front rest, own.entries = front ++ (name, value) :: rest ∧
      ∀ entry ∈ rest, name < entry.1 := by
  obtain ⟨front, rest, entries⟩ := List.append_of_mem (SortedMap.get?_eq_some_iff.mp held)
  refine ⟨front, rest, entries, ?_⟩
  have ascending := own.ascending
  rw [entries] at ascending
  exact (List.pairwise_cons.mp (List.pairwise_append.mp ascending).2.1).1

theorem get?_smaller (own : Labels) (name other : String) :
    (own.filter fun key _ => key < name).get? other =
      if other < name then own.get? other else none := by
  rw [SortedMap.get?_filter]
  cases own.get? other <;> simp [Option.filter]

theorem atTurn_smaller (less : other < name) :
    atTurn (own.filter fun key _ => key < name) labels other = atTurn own labels other := by
  have same : (own.filter fun key _ => key < name).filter (fun key _ => key < other) =
      own.filter fun key _ => key < other := by
    refine SortedMap.ext_get? fun key => ?_
    rw [get?_smaller, get?_smaller, get?_smaller]
    split
    · rename_i before
      rw [if_pos (String.lt_trans before less)]
    · rfl
  rw [atTurn, same, atTurn]

/-- Until the turn of a name the values move that move from smaller names. -/
theorem moves_smaller :
    Moves (own.filter fun key _ => key < name) labels other moved ↔
      other < name ∧ Moves own labels other moved := by
  unfold Moves
  rw [get?_smaller]
  split
  · rename_i less
    rw [atTurn_smaller less]
    exact (and_iff_right less).symm
  · rename_i notLess
    constructor
    · rintro ⟨_, held, _⟩
      cases held
    · exact fun moves => absurd moves.1 notLess

/-! ## Look-ups -/

/-- A name keeps its value over some turns if it has none of its own and no value moves to it. -/
theorem get?_foldl_of_still {entries : List (String × String)}
    (absent : ∀ entry ∈ entries, entry.1 ≠ name)
    (still : ∀ front key value rest, entries = front ++ (key, value) :: rest →
      name = exported key → ∀ moved,
        (front.foldl (attachLabel false) labels).get? key = some moved → moved = value) :
    (entries.foldl (attachLabel false) labels).get? name = labels.get? name := by
  induction entries using List.reverseRecOn with
  | nil => rfl
  | append_singleton front last ih =>
      obtain ⟨key, value⟩ := last
      rw [List.foldl_append, List.foldl_cons, List.foldl_nil]
      have apart : name ≠ key := (absent (key, value) (by simp)).symm
      rw [attachLabel_other apart (still front key value [] rfl)]
      refine ih (fun entry member => absent entry (List.mem_append_left _ member)) ?_
      rintro before key' value' rest rfl
      exact still before key' value' (rest ++ [(key, value)]) (by simp)

/-- What stands under a name after one turn stands there in the end if the name has no later
turn of its own and no value moves to it any more. -/
theorem get?_attached_after (held : own.get? key = some value)
    (past : own.get? name = none ∨ name = key ∨ name < key)
    (still : ∀ later moved, name = exported later → key < later →
      ¬ Moves own labels later moved) :
    (attached own labels).get? name =
      (attachLabel false (atTurn own labels key) (key, value)).get? name := by
  obtain ⟨front, rest, entries, after⟩ := exists_turn held
  rw [attached, entries, List.foldl_append, List.foldl_cons, ← atTurn_eq entries]
  refine get?_foldl_of_still ?_ ?_
  · rintro entry member rfl
    have less := after entry member
    have there : own.get? entry.1 = some entry.2 := by
      rw [SortedMap.get?_eq_some_iff, entries]
      exact List.mem_append_right _ (List.mem_cons_of_mem _ member)
    rcases past with none | same | before
    · rw [none] at there
      cases there
    · exact String.lt_irrefl _ (same ▸ less)
    · exact String.lt_irrefl _ (String.lt_trans before less)
  · rintro between later wanted beyond rfl same moved found
    by_contra different
    have split : own.entries =
        (front ++ (key, value) :: between) ++ (later, wanted) :: beyond := by simp [entries]
    have there : own.get? later = some wanted := by
      rw [SortedMap.get?_eq_some_iff, split]
      simp
    refine still later moved same (after (later, wanted) (by simp)) ⟨wanted, there, ?_, different⟩
    rw [atTurn_eq split, List.foldl_append, List.foldl_cons, ← atTurn_eq entries]
    exact found

/-- A value that has moved stays unless the name it moved to has its turn later. -/
theorem get?_attached_of_moves (moves : Moves own labels name moved)
    (past : own.get? (exported name) = none ∨ exported name < name) :
    (attached own labels).get? (exported name) = some moved := by
  obtain ⟨wanted, held, there, different⟩ := moves
  rw [get?_attached_after held (past.imp_right .inr)]
  · exact attachLabel_moved there different
  · intro later _ same less _
    rw [exported_injective same] at less
    exact String.lt_irrefl _ less

/-- The target's value of a name stays unless a value moves there later. -/
theorem get?_attached_of_own (held : own.get? name = some value)
    (still : ∀ later moved, name = exported later → name < later →
      ¬ Moves own labels later moved) :
    (attached own labels).get? name = some value := by
  rw [get?_attached_after held (.inr (.inl rfl)) still]
  exact attachLabel_self _ name value

theorem get?_attached_of_foreign (foreign : own.get? name = none)
    (still : ∀ from' moved, name = exported from' → ¬ Moves own labels from' moved) :
    (attached own labels).get? name = labels.get? name := by
  refine get?_foldl_of_still ?_ ?_
  · rintro ⟨key, value⟩ member rfl
    rw [SortedMap.get?_eq_some_iff.mpr member] at foreign
    cases foreign
  · intro front key value rest entries same moved found
    by_contra different
    refine still key moved same ⟨value, ?_, ?_, different⟩
    · rw [SortedMap.get?_eq_some_iff, entries]
      simp
    · rw [atTurn_eq entries]
      exact found

/-- At the turn of a name the sample's own value is there unless one has moved there. -/
theorem get?_atTurn_of_still (still : ∀ earlier moved, name = exported earlier →
      earlier < name → ¬ Moves own labels earlier moved) :
    (atTurn own labels name).get? name = labels.get? name := by
  refine get?_attached_of_foreign ?_ ?_
  · rw [get?_smaller, if_neg (String.lt_irrefl name)]
  · intro earlier moved same moves
    obtain ⟨less, moves⟩ := moves_smaller.mp moves
    exact still earlier moved same less moves

theorem get?_atTurn_of_moves (moves : Moves own labels name moved)
    (less : name < exported name) :
    (atTurn own labels (exported name)).get? (exported name) = some moved := by
  refine get?_attached_of_moves (moves_smaller.mpr ⟨less, moves⟩) (.inl ?_)
  rw [get?_smaller, if_neg (String.lt_irrefl _)]

/-! ## Labels of the target -/

/-- A value that moves to a smaller name is the sample's own: nothing has moved there before. -/
theorem moves_iff_of_descending (less : exported name < name) :
    Moves own labels name moved ↔
      ∃ wanted, own.get? name = some wanted ∧ labels.get? name = some moved ∧ moved ≠ wanted := by
  unfold Moves
  rw [get?_atTurn_of_still]
  rintro earlier _ rfl before _
  exact String.lt_irrefl _ (String.lt_trans before (exported_lt_iff.mp less))

/-- A label of the target is on the sample in the end unless the target also names one that
moves to it and sorts behind it, for which the sample has a third value. -/
theorem own_label_kept_iff (target : Target) (sample : Sample)
    (held : target.labels.get? name = some value) :
    (target.attachLabels false sample).labels.get? name = some value ↔
      ∀ later wanted moved, name = exported later → name < later →
        target.labels.get? later = some wanted → sample.labels.get? later = some moved →
          moved = wanted ∨ moved = value := by
  rw [attached_eq]
  constructor
  · rintro kept later wanted moved rfl less names there
    by_contra neither
    obtain ⟨different, third⟩ := not_or.mp neither
    have moves : Moves target.labels sample.labels later moved :=
      (moves_iff_of_descending less).mpr ⟨wanted, names, there, different⟩
    rw [get?_attached_of_moves moves (.inr less)] at kept
    exact third (Option.some.inj kept)
  · intro agrees
    by_cases still : ∀ later moved, name = exported later → name < later →
        ¬ Moves target.labels sample.labels later moved
    · exact get?_attached_of_own held still
    · push Not at still
      obtain ⟨later, moved, rfl, less, moves⟩ := still
      obtain ⟨wanted, names, there, different⟩ := (moves_iff_of_descending less).mp moves
      have same : moved = value :=
        (agrees later wanted moved rfl less names there).resolve_left different
      rw [get?_attached_of_moves moves (.inr less), same]

/-- The targets of a job whose only group has one address and some labels. -/
def webTargets (group : List (String × String)) : List Target :=
  ofGroups "web" [.ofAddresses "0" ["a:1"] (.ofList group)]

def labelled (labels : List (String × String)) : Sample :=
  { Sample.gauge "hits" .one with labels := .ofList labels }

theorem own_label_kept_over_exported :
    ∃ target ∈ webTargets [("exported_job", "east")],
      target.labels.get? "exported_job" = some "east" ∧
        (target.attachLabels false (labelled [("exported_job", "west")])).labels.get?
          "exported_job" = some "east" := by
  let target : Target :=
    ⟨"web", "a:1", labelsOf "web" "a:1" (.ofList [("exported_job", "east")])
      (SortedMap.empty.insert addressLabel "a:1")⟩
  have held : target.labels.get? "exported_job" = some "east" := by decide +kernel
  refine ⟨target, by decide +kernel, held, (own_label_kept_iff target _ held).mpr ?_⟩
  intro later wanted moved same _ _ there
  obtain rfl : later = "job" := exported_injective same.symm
  have absent : (labelled [("exported_job", "west")]).labels.get? "job" = none := by
    decide +kernel
  rw [absent] at there
  cases there

/-- A sample with a job of its own takes the label `exported_job` away from the target. -/
theorem own_label_displaced :
    ∃ target ∈ webTargets [("exported_job", "east")],
      target.labels.get? "exported_job" = some "east" ∧
        (target.attachLabels false (labelled [("job", "pushed")])).labels.get? "exported_job" =
          some "pushed" := by
  decide +kernel

/-! ## Labels of the sample -/

/-- A value that moves takes the place of what the sample has under a name: the target does
not name it, or only later, or has what the sample has. -/
def RunOver (own labels : Labels) (name : String) : Prop :=
  ∃ origin moved, name = exported origin ∧ Moves own labels origin moved ∧
    (own.get? name = none ∨ origin < name ∨ own.get? name = labels.get? name)

/-- Where a value of the sample ends: so many moves away from the name it had. -/
structure EndsAfter (own labels : Labels) (name value : String) (hops : Nat) : Prop where
  found : (attached own labels).get? (exported^[hops] name) = some value
  moves : ∀ hop < hops, Moves own labels (exported^[hop] name) value
  /-- What moves to a smaller name has passed its turn, and moves no further. -/
  ascends : 1 < hops → name < exported name

theorem lt_of_not_lt (different : name ≠ other) (notLess : ¬ other < name) : name < other :=
  Classical.byContradiction fun notGreater =>
    different (String.le_antisymm (String.not_lt.mp notLess) (String.not_lt.mp notGreater))

/-- A value that moves comes to rest: the target has only so many names. -/
theorem exists_endsAfter (moves : Moves own labels name value) :
    ∃ hops, 0 < hops ∧ EndsAfter own labels name value hops := by
  obtain ⟨bound, short⟩ : ∃ bound, ∀ key held, own.get? key = some held →
      key.length < name.length + bound := by
    refine ⟨(own.keys.map String.length).max?.getD 0 + 1, fun key held there => ?_⟩
    have member : key.length ∈ own.keys.map String.length :=
      List.mem_map_of_mem (SortedMap.mem_keys_iff.mpr (by rw [there]; rfl))
    have small := List.le_max?_getD_of_mem (k := 0) member
    omega
  induction bound generalizing name with
  | zero =>
      obtain ⟨_, held, _⟩ := moves
      exact absurd (short name _ held) (Nat.lt_irrefl _)
  | succ bound ih =>
      have one (found : (attached own labels).get? (exported name) = some value) :
          EndsAfter own labels name value 1 := by
        refine ⟨found, fun hop less => ?_, by omega⟩
        obtain rfl : hop = 0 := by omega
        exact moves
      by_cases past : own.get? (exported name) = none ∨ exported name < name
      · exact ⟨1, Nat.one_pos, one (get?_attached_of_moves moves past)⟩
      · obtain ⟨present, notLess⟩ := not_or.mp past
        have less : name < exported name := lt_of_not_lt (exported_ne name).symm notLess
        obtain ⟨wanted, held⟩ := Option.ne_none_iff_exists'.mp present
        have arrives := get?_atTurn_of_moves moves less
        by_cases same : value = wanted
        · refine ⟨1, Nat.one_pos, one ?_⟩
          rw [same]
          refine get?_attached_of_own held ?_
          intro later _ equal before _
          obtain rfl := exported_injective equal
          exact String.lt_irrefl _ (String.lt_trans less before)
        · obtain ⟨hops, _, rest⟩ := ih ⟨wanted, held, arrives, same⟩ <| by
            intro key held there
            have shorter := short key held there
            rw [length_exported]
            omega
          refine ⟨hops + 1, Nat.succ_pos hops, ⟨rest.found, ?_, fun _ => less⟩⟩
          rintro (_ | hop) before
          · exact moves
          · exact rest.moves hop (Nat.lt_of_succ_lt_succ before)

/-- A value of the sample that is not run over is found in the end, under its own name exactly
if the target does not name it or agrees. -/
theorem exists_endsAfter_of_not_runOver (there : labels.get? name = some value)
    (safe : ¬ RunOver own labels name) :
    ∃ hops, EndsAfter own labels name value hops ∧
      (hops = 0 ↔ own.get? name = none ∨ own.get? name = some value) := by
  have atHome (found : (attached own labels).get? name = some value) :
      EndsAfter own labels name value 0 :=
    ⟨found, fun hop less => absurd less (Nat.not_lt_zero hop), by omega⟩
  cases held : own.get? name with
  | none =>
      refine ⟨0, atHome ?_, by simp⟩
      rw [get?_attached_of_foreign held, there]
      exact fun origin moved same moves => safe ⟨origin, moved, same, moves, .inl held⟩
  | some wanted =>
      by_cases same : value = wanted
      · subst same
        refine ⟨0, atHome (get?_attached_of_own held ?_), by simp⟩
        intro later moved equal _ moves
        exact safe ⟨later, moved, equal, moves, .inr (.inr (held.trans there.symm))⟩
      · have arrives : (atTurn own labels name).get? name = some value := by
          rw [get?_atTurn_of_still, there]
          exact fun earlier moved equal less moves =>
            safe ⟨earlier, moved, equal, moves, .inr (.inl less)⟩
        obtain ⟨hops, positive, ends⟩ := exists_endsAfter ⟨wanted, held, arrives, same⟩
        refine ⟨hops, ends, ?_⟩
        have notHome : hops ≠ 0 := Nat.ne_of_gt positive
        simpa [notHome] using Ne.symm same

theorem iterate_lt (less : name < other) (hops : Nat) :
    exported^[hops] name < exported^[hops] other := by
  induction hops generalizing name other with
  | zero => exact less
  | succ hops ih => exact ih (exported_lt_iff.mpr less)

/-- Values of different names that are not run over end under different names. -/
theorem ends_apart {value' : String} {hops hops' : Nat} (apart : name ≠ other)
    (there : labels.get? name = some value) (safe : ¬ RunOver own labels name)
    (home : hops = 0 ↔ own.get? name = none ∨ own.get? name = some value)
    (ends : EndsAfter own labels other value' hops') (fewer : hops ≤ hops') :
    exported^[hops] name ≠ exported^[hops'] other := by
  intro meets
  obtain ⟨more, rfl⟩ := Nat.exists_eq_add_of_le fewer
  rw [Function.iterate_add_apply] at meets
  have passes : name = exported^[more] other := exported_injective.iterate hops meets
  cases more with
  | zero => exact apart passes
  | succ more =>
      rw [Function.iterate_succ_apply'] at passes
      -- the other value arrives at this name by a move, so the name has had its turn
      have arrives := ends.moves more (by omega)
      have kept := fun lost => safe ⟨_, _, passes, arrives, lost⟩
      have present : own.get? name ≠ none := fun absent => kept (.inl absent)
      have differs : own.get? name ≠ some value := fun same =>
        kept (.inr (.inr (same.trans there.symm)))
      have moved : hops ≠ 0 := fun zero => (home.mp zero).elim present differs
      have ascends := iterate_lt (ends.ascends (by omega)) more
      rw [← Function.iterate_succ_apply, Function.iterate_succ_apply', ← passes] at ascends
      exact kept (.inr (.inl ascends))

/-! ## Labels that leave no trace -/

/-- Labels that agree on all names but one. -/
def AgreeBut (name : String) (left right : Labels) : Prop :=
  ∀ other, other ≠ name → left.get? other = right.get? other

namespace AgreeBut

variable {left right : Labels}

theorem eq (agree : AgreeBut name left right) (same : left.get? name = right.get? name) :
    left = right := by
  refine SortedMap.ext_get? fun other => ?_
  by_cases this : other = name
  · rw [this, same]
  · exact agree other this

theorem insert (agree : AgreeBut name left right) (key value : String) :
    AgreeBut name (left.insert key value) (right.insert key value) := by
  intro other apart
  by_cases same : other = key
  · rw [same, SortedMap.get?_insert_self, SortedMap.get?_insert_self]
  · rw [SortedMap.get?_insert_of_ne same, SortedMap.get?_insert_of_ne same]
    exact agree other apart

theorem attachLabel (agree : AgreeBut name left right) (apart : key ≠ name) :
    AgreeBut name (Target.attachLabel false left (key, value))
      (Target.attachLabel false right (key, value)) := by
  unfold Target.attachLabel
  rw [agree key apart]
  cases right.get? key with
  | none => exact agree.insert key value
  | some held =>
      simp only [Bool.false_eq_true, if_false]
      split
      · exact agree
      · exact (agree.insert _ held).insert key value

theorem attached (agree : AgreeBut name left right) (absent : own.get? name = none) :
    AgreeBut name (Target.attached own left) (Target.attached own right) := by
  have apart : ∀ entry ∈ own.entries, entry.1 ≠ name := by
    rintro ⟨key, value⟩ member rfl
    rw [SortedMap.get?_eq_some_iff.mpr member] at absent
    cases absent
  unfold Target.attached
  generalize own.entries = entries at apart ⊢
  induction entries generalizing left right with
  | nil => exact agree
  | cons entry rest ih =>
      obtain ⟨first, others⟩ := List.forall_mem_cons.mp apart
      exact ih (agree.attachLabel first) others

/-- What the sample has under a name makes no difference to others until its turn. -/
theorem atTurn (agree : AgreeBut name left right)
    (before : own.get? name = none ∨ ¬ name < other) :
    AgreeBut name (Target.atTurn own left other) (Target.atTurn own right other) := by
  refine agree.attached ?_
  rw [get?_smaller]
  split
  · rename_i less
    exact before.resolve_right (not_not_intro less)
  · rfl

theorem moves (agree : AgreeBut name left right) (apart : other ≠ name)
    (before : own.get? name = none ∨ ¬ name < other) (moves : Moves own right other moved) :
    Moves own left other moved := by
  obtain ⟨wanted, held, there, different⟩ := moves
  exact ⟨wanted, held, (agree.atTurn before other apart).trans there, different⟩

end AgreeBut

theorem agreeBut_erase (labels : Labels) (name : String) :
    AgreeBut name (labels.erase name) labels := by
  intro other apart
  rw [SortedMap.erase, SortedMap.get?_filter]
  cases labels.get? other <;> simp [Option.filter, apart]

theorem get?_erase_self (labels : Labels) (name : String) :
    (labels.erase name).get? name = none := by
  rw [SortedMap.erase, SortedMap.get?_filter]
  cases labels.get? name <;> simp [Option.filter]

/-- Labels that are the same after the turn of a name are the same in the end. -/
theorem attached_congr {left right : Labels} (held : own.get? name = some value)
    (same : attachLabel false (atTurn own left name) (name, value) =
      attachLabel false (atTurn own right name) (name, value)) :
    attached own left = attached own right := by
  obtain ⟨front, rest, entries, _⟩ := exists_turn held
  rw [atTurn_eq entries, atTurn_eq entries] at same
  rw [attached, attached, entries, List.foldl_append, List.foldl_append, List.foldl_cons,
    List.foldl_cons, same]

/-- What is run over might as well not be there. -/
theorem attached_erase (lost : RunOver own labels name) :
    attached own (labels.erase name) = attached own labels := by
  obtain ⟨origin, moved, rfl, moves, how⟩ := lost
  have agree := agreeBut_erase labels (exported origin)
  have apart : origin ≠ exported origin := (exported_ne origin).symm
  cases held : own.get? (exported origin) with
  | none =>
      refine (agree.attached held).eq ?_
      rw [get?_attached_of_moves moves (.inl held),
        get?_attached_of_moves (agree.moves apart (.inl held) moves) (.inl held)]
  | some wanted =>
      refine attached_congr held ?_
      by_cases less : origin < exported origin
      · have notLess : ¬ exported origin < origin := fun greater =>
          String.lt_irrefl _ (String.lt_trans less greater)
        have same : atTurn own (labels.erase (exported origin)) (exported origin) =
            atTurn own labels (exported origin) := by
          refine (agree.atTurn (.inr (String.lt_irrefl _))).eq ?_
          rw [get?_atTurn_of_moves moves less,
            get?_atTurn_of_moves (agree.moves apart (.inr notLess) moves) less]
        rw [same]
      · have there : labels.get? (exported origin) = some wanted := by
          rw [held] at how
          exact ((how.resolve_left (by simp)).resolve_left less).symm
        have still (labels : Labels) : ∀ earlier moved, exported origin = exported earlier →
            earlier < exported origin → ¬ Moves own labels earlier moved := by
          intro earlier _ same before _
          rw [← exported_injective same] at before
          exact less before
        have erased := (get?_atTurn_of_still (still _)).trans (get?_erase_self labels _)
        have kept := (get?_atTurn_of_still (still labels)).trans there
        refine (?_ : AgreeBut (exported origin) _ _).eq ?_
        · intro other different
          rw [attachLabel_other different, attachLabel_other different]
          · exact agree.atTurn (.inr (String.lt_irrefl _)) other different
          · intro _ moved found
            rw [kept] at found
            exact (Option.some.inj found).symm
          · intro _ moved found
            rw [erased] at found
            cases found
        · rw [attachLabel_self, attachLabel_self]

theorem get?_attachLabels_honored (target : Target) (sample : Sample)
    (there : sample.labels.get? name = some value) :
    (target.attachLabels true sample).labels.get? name = some value := by
  unfold attachLabels
  induction target.labels.entries generalizing sample with
  | nil => exact there
  | cons label rest ih =>
      exact ih { sample with labels := attachLabel true sample.labels label }
        (attachLabel_honored label there)

/-- Labels that are honored all stay. Otherwise a label of the sample is found under its name
with as many prefixes as it has moved, none if the target does not name it or agrees, and
different ones are found under different names; that is so for all labels but those that are
run over, and without these the sample would end with the same labels. -/
theorem sample_labels_kept (target : Target) (sample : Sample) :
    (∀ name value, sample.labels.get? name = some value →
      (target.attachLabels true sample).labels.get? name = some value) ∧
    (∃ hops : String → Nat,
      (∀ name value, sample.labels.get? name = some value →
        ¬ RunOver target.labels sample.labels name →
          (target.attachLabels false sample).labels.get? (exported^[hops name] name) =
              some value ∧
            (hops name = 0 ↔
              target.labels.get? name = none ∨ target.labels.get? name = some value)) ∧
      (∀ name other, name ∈ sample.labels.keys → other ∈ sample.labels.keys → name ≠ other →
        ¬ RunOver target.labels sample.labels name →
          ¬ RunOver target.labels sample.labels other →
            exported^[hops name] name ≠ exported^[hops other] other)) ∧
    (∀ name, RunOver target.labels sample.labels name →
      target.attachLabels false { sample with labels := sample.labels.erase name } =
        target.attachLabels false sample) := by
  refine ⟨fun name value there => get?_attachLabels_honored target sample there, ?_,
    fun name lost => congrArg (fun labels => { sample with labels }) (attached_erase lost)⟩
  have placed : ∀ name, ∃ hops, ∀ value, sample.labels.get? name = some value →
      ¬ RunOver target.labels sample.labels name →
        EndsAfter target.labels sample.labels name value hops ∧
          (hops = 0 ↔ target.labels.get? name = none ∨ target.labels.get? name = some value) := by
    intro name
    by_cases known : ∃ value, sample.labels.get? name = some value ∧
        ¬ RunOver target.labels sample.labels name
    · obtain ⟨value, there, safe⟩ := known
      obtain ⟨hops, ends, home⟩ := exists_endsAfter_of_not_runOver there safe
      refine ⟨hops, fun value' there' _ => ?_⟩
      rw [there] at there'
      obtain rfl := Option.some.inj there'
      exact ⟨ends, home⟩
    · exact ⟨0, fun value there safe => absurd ⟨value, there, safe⟩ known⟩
  choose hops ends using placed
  refine ⟨hops, fun name value there safe => ?_, ?_⟩
  · obtain ⟨ended, home⟩ := ends name value there safe
    exact ⟨ended.found, home⟩
  · intro name other member member' apart safe safe'
    obtain ⟨value, there⟩ := Option.isSome_iff_exists.mp (SortedMap.mem_keys_iff.mp member)
    obtain ⟨value', there'⟩ := Option.isSome_iff_exists.mp (SortedMap.mem_keys_iff.mp member')
    obtain ⟨ended, home⟩ := ends name value there safe
    obtain ⟨ended', home'⟩ := ends other value' there' safe'
    rcases Nat.le_total (hops name) (hops other) with fewer | fewer
    · exact ends_apart apart there safe home ended' fewer
    · exact (ends_apart apart.symm there' safe' home' ended fewer).symm

/-- A sample that went through another scrape before loses the job that it came from. -/
theorem sample_label_overwritten :
    ∃ target ∈ webTargets [],
      (labelled [("exported_job", "east"), ("job", "pushed")]).labels.get? "exported_job" =
          some "east" ∧
        ∀ label ∈ (target.attachLabels false
          (labelled [("exported_job", "east"), ("job", "pushed")])).labels.entries,
            label.2 ≠ "east" := by
  decide +kernel

end ScrapeRelay.Target
