import ScrapeRelay.Config.Validation

/-!
# The rules for a job definition

What a sound job definition is like, and which faults one can have. Checking a definition finds
none exactly if it is sound, and finds the fault of the first rule in the order of the rules that
the definition breaks.
-/

namespace ScrapeRelay

open ScrapeRelay.Text

/-- The place of a rule in the order in which the rules are checked. -/
def JobFault.rank : JobFault → Nat
  | .blankName => 0
  | .zeroInterval => 1
  | .zeroTimeout => 2
  | .timeoutExceeds _ _ => 3
  | .relativePath => 4
  | .unsupportedScheme _ => 5
  | .blankTarget => 6
  | .blankKind => 7
  | .duplicateName => 8
  | .stated _ => 9

namespace Config

variable {global : Global} {job : Job} {fault : JobFault}

/-- A text with a character that is no blank. -/
def HasContent (text : String) : Prop := ∃ c ∈ text.toList, isBlank c = false

theorem isBlankText_iff {text : String} : isBlankText text = true ↔ ¬ HasContent text := by
  simp [isBlankText, HasContent]

/-- What a job definition has to be like, whatever the others are. -/
structure Job.IsSound (global : Global) (job : Job) : Prop where
  named : HasContent job.name
  recurs : 0 < (job.interval global).nanos
  waits : 0 < (job.timeout global).nanos
  ordered : (job.timeout global).nanos ≤ (job.interval global).nanos
  absolute : ∃ rest, job.metricsPath.toList = '/' :: rest
  scheme : job.scheme = "http" ∨ job.scheme = "https"
  targets : ∀ group ∈ job.discovery.staticTargets, ∀ target ∈ group.targets, HasContent target
  kinds : ∀ provider ∈ job.discovery.providers, HasContent provider.kind

/-- Which faults a job definition has of its own. -/
inductive Job.Breaks (global : Global) (job : Job) : JobFault → Prop where
  | blankName (blank : ¬ HasContent job.name) : Breaks global job .blankName
  | zeroInterval (zero : (job.interval global).nanos = 0) : Breaks global job .zeroInterval
  | zeroTimeout (zero : (job.timeout global).nanos = 0) : Breaks global job .zeroTimeout
  | timeoutExceeds (longer : (job.interval global).nanos < (job.timeout global).nanos) :
      Breaks global job (.timeoutExceeds (job.timeout global) (job.interval global))
  | relativePath (relative : ∀ rest, job.metricsPath.toList ≠ '/' :: rest) :
      Breaks global job .relativePath
  | unsupportedScheme (http : job.scheme ≠ "http") (https : job.scheme ≠ "https") :
      Breaks global job (.unsupportedScheme job.scheme)
  | blankTarget (group : StaticTargets) (target : String)
      (listed : group ∈ job.discovery.staticTargets) (member : target ∈ group.targets)
      (blank : ¬ HasContent target) : Breaks global job .blankTarget
  | blankKind (provider : Provider) (member : provider ∈ job.discovery.providers)
      (blank : ¬ HasContent provider.kind) : Breaks global job .blankKind

/-- The fault of a job that breaks the first of the rules it breaks. -/
structure Job.HasFirst (global : Global) (job : Job) (fault : JobFault) : Prop where
  broken : job.Breaks global fault
  first : ∀ other, job.Breaks global other → fault.rank ≤ other.rank

/-- The checks of a job in their order: whether a rule is broken, and which. -/
def Job.checks (global : Global) (job : Job) : List (Bool × JobFault) :=
  [(isBlankText job.name, .blankName),
    ((job.interval global).isZero, .zeroInterval),
    ((job.timeout global).isZero, .zeroTimeout),
    ((job.interval global).nanos < (job.timeout global).nanos,
      .timeoutExceeds (job.timeout global) (job.interval global)),
    (!isAbsolute job.metricsPath, .relativePath),
    (job.scheme ≠ "http" && job.scheme ≠ "https", .unsupportedScheme job.scheme),
    (job.discovery.staticTargets.any (fun group => group.targets.any isBlankText), .blankTarget),
    (job.discovery.providers.any (fun provider => isBlankText provider.kind), .blankKind)]

/-- The fault of the first check that finds a rule broken. -/
def firstBroken (checks : List (Bool × JobFault)) : Option JobFault :=
  checks.findSome? (fun check => if check.1 then some check.2 else none)

theorem firstBroken_cons (broken : Bool) (fault : JobFault) (checks : List (Bool × JobFault)) :
    firstBroken ((broken, fault) :: checks) =
      if broken then some fault else firstBroken checks := by
  cases broken <;> rfl

theorem Job.fault?_eq_firstBroken : job.fault? global = firstBroken (job.checks global) := by
  simp only [Job.fault?, Job.checks, firstBroken_cons, decide_eq_true_eq]
  rfl

theorem Job.breaks_iff : job.Breaks global fault ↔ (true, fault) ∈ job.checks global := by
  constructor
  · intro broken
    cases broken with
    | blankName blank => simp [checks, isBlankText_iff.mpr blank]
    | zeroInterval zero => simp [checks, Duration.isZero, zero]
    | zeroTimeout zero => simp [checks, Duration.isZero, zero]
    | timeoutExceeds longer => simp [checks, longer]
    | relativePath relative =>
        have other : isAbsolute job.metricsPath = false := by
          cases shape : job.metricsPath.toList with
          | nil => simp [isAbsolute, shape]
          | cons c rest =>
              have apart : c ≠ '/' := by
                rintro rfl
                exact relative rest shape
              simp [isAbsolute, shape, apart]
        simp [checks, other]
    | unsupportedScheme http https => simp [checks, http, https]
    | blankTarget group target listed member blank =>
        have found : job.discovery.staticTargets.any
            (fun group => group.targets.any isBlankText) = true :=
          List.any_eq_true.mpr ⟨group, listed, List.any_eq_true.mpr
            ⟨target, member, isBlankText_iff.mpr blank⟩⟩
        simp [checks, found]
    | blankKind provider member blank =>
        have found : job.discovery.providers.any
            (fun provider => isBlankText provider.kind) = true :=
          List.any_eq_true.mpr ⟨provider, member, isBlankText_iff.mpr blank⟩
        simp [checks, found]
  · intro member
    simp only [checks, List.mem_cons, Prod.mk.injEq, List.not_mem_nil, or_false] at member
    obtain ⟨blank, rfl⟩ | ⟨zero, rfl⟩ | ⟨zero, rfl⟩ | ⟨longer, rfl⟩ | ⟨relative, rfl⟩ |
      ⟨other, rfl⟩ | ⟨blank, rfl⟩ | ⟨blank, rfl⟩ := member
    · exact .blankName (isBlankText_iff.mp blank.symm)
    · exact .zeroInterval (of_decide_eq_true zero.symm)
    · exact .zeroTimeout (of_decide_eq_true zero.symm)
    · exact .timeoutExceeds (of_decide_eq_true longer.symm)
    · apply Breaks.relativePath
      intro rest shape
      simp [isAbsolute, shape] at relative
    · have neither : job.scheme ≠ "http" ∧ job.scheme ≠ "https" := by simpa using other.symm
      exact .unsupportedScheme neither.1 neither.2
    · obtain ⟨group, listed, found⟩ := List.any_eq_true.mp blank.symm
      obtain ⟨target, member, blank⟩ := List.any_eq_true.mp found
      exact .blankTarget group target listed member (isBlankText_iff.mp blank)
    · obtain ⟨provider, member, blank⟩ := List.any_eq_true.mp blank.symm
      exact .blankKind provider member (isBlankText_iff.mp blank)

theorem Job.isSound_iff : job.IsSound global ↔ ∀ fault, ¬ job.Breaks global fault := by
  constructor
  · intro sound fault broken
    cases broken with
    | blankName blank => exact blank sound.named
    | zeroInterval zero => exact Nat.ne_of_gt sound.recurs zero
    | zeroTimeout zero => exact Nat.ne_of_gt sound.waits zero
    | timeoutExceeds longer => exact Nat.not_lt.mpr sound.ordered longer
    | relativePath relative =>
        obtain ⟨rest, shape⟩ := sound.absolute
        exact relative rest shape
    | unsupportedScheme http https => exact sound.scheme.elim http https
    | blankTarget group target listed member blank =>
        exact blank (sound.targets group listed target member)
    | blankKind provider member blank => exact blank (sound.kinds provider member)
  · intro faultless
    constructor
    · exact Classical.byContradiction fun blank => faultless _ (.blankName blank)
    · exact Nat.pos_of_ne_zero fun zero => faultless _ (.zeroInterval zero)
    · exact Nat.pos_of_ne_zero fun zero => faultless _ (.zeroTimeout zero)
    · exact Nat.not_lt.mp fun longer => faultless _ (.timeoutExceeds longer)
    · exact Classical.byContradiction fun relative =>
        faultless _ (.relativePath (not_exists.mp relative))
    · exact Classical.byContradiction fun other =>
        faultless _ (.unsupportedScheme (not_or.mp other).1 (not_or.mp other).2)
    · intro group listed target member
      exact Classical.byContradiction fun blank =>
        faultless _ (.blankTarget group target listed member blank)
    · intro provider member
      exact Classical.byContradiction fun blank => faultless _ (.blankKind provider member blank)

/-- The checks are made in the order of the rules. -/
theorem Job.checks_ordered (job : Job) (global : Global) :
    (job.checks global).Pairwise (fun left right => left.2.rank < right.2.rank) := by
  simp [checks, JobFault.rank]

theorem Job.fault?_eq_none_iff : job.fault? global = none ↔ job.IsSound global := by
  simp only [fault?_eq_firstBroken, firstBroken, List.findSome?_eq_none_iff, isSound_iff,
    breaks_iff]
  constructor
  · intro passed fault member
    simpa using passed _ member
  · rintro passed ⟨broken, fault⟩ member
    cases broken with
    | true => exact absurd member (passed fault)
    | false => rfl

theorem Job.hasFirst_of_fault? (found : job.fault? global = some fault) :
    job.HasFirst global fault := by
  rw [fault?_eq_firstBroken, firstBroken, List.findSome?_eq_some_iff] at found
  obtain ⟨passed, ⟨broken, reported⟩, rest, split, same, clear⟩ := found
  cases broken with
  | false => cases same
  | true =>
      obtain rfl := Option.some.inj same
      have ordered := job.checks_ordered global
      rw [split] at ordered
      constructor
      · rw [breaks_iff, split]
        simp
      · intro other broken
        rw [breaks_iff, split, List.mem_append, List.mem_cons] at broken
        obtain earlier | same | later := broken
        · cases clear _ earlier
        · exact Nat.le_of_eq (congrArg JobFault.rank (Prod.mk.inj same).2.symm)
        · have after := (List.pairwise_cons.mp (List.pairwise_append.mp ordered).2.1).1 _ later
          exact Nat.le_of_lt after

end Config

end ScrapeRelay
