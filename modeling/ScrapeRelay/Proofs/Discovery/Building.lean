import Mathlib.Data.List.Forall2
import ScrapeRelay.Discovery.Registry

/-!
# Which jobs have providers

A configured provider can be built if a builder is registered for its kind and makes something of
it. A job has the provider of its static targets and one for each that is configured
(`build_eq_ok_iff`), or none at all because of the first one that cannot be built
(`build_eq_error_iff`).
-/

namespace ScrapeRelay.Discovery.Registry

open ScrapeRelay.Text

variable {registry : Registry} {job : String} {provider : Config.Provider}
  {providers : List Config.Provider} {discovery : Config.Discovery} {discoverer : Discoverer}
  {built : List (String × Discoverer)} {place : Nat} {cause : Cause} {failure : Failure}

/-- What the builder of a configured provider makes of it. -/
def Makes (registry : Registry) (job : String) (provider : Config.Provider)
    (discoverer : Discoverer) : Prop :=
  ∃ builder, registry provider.kind = some builder ∧ builder job provider = .ok discoverer

/-- Why a configured provider cannot be built. -/
inductive Unbuildable (registry : Registry) (job : String) (provider : Config.Provider) :
    Cause → Prop where
  | unknownKind (unknown : registry provider.kind = none) : Unbuildable registry job provider
      (.plain ("unknown discovery provider kind " ++ quote provider.kind))
  | refused {builder : Builder} {cause : Cause} (known : registry provider.kind = some builder)
      (failed : builder job provider = .error cause) : Unbuildable registry job provider cause

/-- A job fails because of the first of its providers that cannot be built. -/
def FailsWith (registry : Registry) (job : String) (providers : List Config.Provider)
    (cause : Cause) : Prop :=
  ∃ before provider after, providers = before ++ provider :: after ∧
    (∀ earlier ∈ before, ∃ discoverer, registry.Makes job earlier discoverer) ∧
    registry.Unbuildable job provider cause

/-- A configured provider and its place, and what it is built as. -/
def Configures (registry : Registry) (job : String) (configured : Config.Provider × Nat)
    (built : String × Discoverer) : Prop :=
  built.1 = providerName configured.1.kind configured.2 ∧
    registry.Makes job configured.1 built.2

theorem buildOne_eq_ok_iff :
    registry.buildOne job provider = .ok discoverer ↔ registry.Makes job provider discoverer := by
  unfold buildOne Makes
  cases known : registry provider.kind with
  | none => simp
  | some builder =>
      cases made : builder job provider with
      | ok own => simp [made]
      | error cause => simp [made]

theorem buildOne_eq_error_iff :
    registry.buildOne job provider = .error failure ↔
      ∃ cause, registry.Unbuildable job provider cause ∧ failure = .discovery job cause := by
  constructor
  · intro failed
    unfold buildOne at failed
    split at failed
    · rename_i unknown
      exact ⟨_, .unknownKind unknown, (Except.error.inj failed).symm⟩
    · rename_i builder known
      split at failed
      · cases failed
      · rename_i cause refused
        exact ⟨cause, .refused known refused, (Except.error.inj failed).symm⟩
  · rintro ⟨cause, unbuildable, rfl⟩
    cases unbuildable with
    | unknownKind unknown => simp [buildOne, unknown]
    | refused known failed => simp [buildOne, known, failed]

theorem buildFrom_eq_ok_iff :
    registry.buildFrom job place providers = .ok built ↔
      List.Forall₂ (registry.Configures job) (providers.zipIdx place) built := by
  induction providers generalizing place built with
  | nil => simp [buildFrom, eq_comm]
  | cons provider rest ih =>
      rw [List.zipIdx_cons, List.forall₂_cons_left_iff, buildFrom]
      cases one : registry.buildOne job provider with
      | error failure =>
          simp only [reduceCtorEq, false_iff, Configures, ← buildOne_eq_ok_iff, one]
          simp
      | ok discoverer =>
          simp only [Configures, ← buildOne_eq_ok_iff, one, ← ih]
          cases others : registry.buildFrom job (place + 1) rest with
          | error failure => simp
          | ok later => simp [eq_comm]

theorem failsWith_cons :
    registry.FailsWith job (provider :: providers) cause ↔
      registry.Unbuildable job provider cause ∨
        (∃ discoverer, registry.Makes job provider discoverer) ∧
          registry.FailsWith job providers cause := by
  constructor
  · rintro ⟨before, broken, after, split, built, unbuildable⟩
    cases before with
    | nil =>
        obtain ⟨rfl, rfl⟩ := List.cons.inj split
        exact .inl unbuildable
    | cons first before =>
        obtain ⟨rfl, rfl⟩ := List.cons.inj split
        obtain ⟨own, built⟩ := List.forall_mem_cons.mp built
        exact .inr ⟨own, before, broken, after, rfl, built, unbuildable⟩
  · rintro (unbuildable | ⟨own, before, broken, after, rfl, built, unbuildable⟩)
    · exact ⟨[], provider, providers, rfl, by simp, unbuildable⟩
    · exact ⟨provider :: before, broken, after, rfl, List.forall_mem_cons.mpr ⟨own, built⟩,
        unbuildable⟩

theorem buildFrom_eq_error_iff :
    registry.buildFrom job place providers = .error failure ↔
      ∃ cause, registry.FailsWith job providers cause ∧ failure = .discovery job cause := by
  induction providers generalizing place with
  | nil => simp [buildFrom, FailsWith]
  | cons provider rest ih =>
      simp only [failsWith_cons, or_and_right, exists_or, ← buildOne_eq_error_iff, and_assoc,
        exists_and_left, ← @ih (place + 1), ← buildOne_eq_ok_iff]
      cases one : registry.buildOne job provider with
      | error reason => simp [buildFrom, one]
      | ok discoverer =>
          cases others : registry.buildFrom job (place + 1) rest with
          | error reason => simp [buildFrom, one, others]
          | ok later => simp [buildFrom, one, others]

/-- A job that can be built has a provider for its static targets, if it has any, and each
configured provider under its kind and place. -/
theorem build_eq_ok_iff :
    registry.build job discovery = .ok built ↔
      ∃ configured, List.Forall₂ (registry.Configures job) discovery.providers.zipIdx configured ∧
        built = buildStatic discovery.staticTargets ++ configured := by
  simp only [← buildFrom_eq_ok_iff]
  cases made : registry.buildFrom job 0 discovery.providers with
  | error failure => simp [build, made]
  | ok configured => simp [build, made, eq_comm]

theorem build_eq_error_iff :
    registry.build job discovery = .error failure ↔
      ∃ cause, registry.FailsWith job discovery.providers cause ∧
        failure = .discovery job cause := by
  rw [← buildFrom_eq_error_iff]
  cases made : registry.buildFrom job 0 discovery.providers with
  | error failure => simp [build, made]
  | ok configured => simp [build, made]

/-- A job that has no providers because one of them cannot be built. -/
def Fails (registry : Registry) (job : String) (discovery : Config.Discovery) : Prop :=
  ∃ cause, registry.FailsWith job discovery.providers cause

theorem fails_iff :
    registry.Fails job discovery ↔ ∃ failure, registry.build job discovery = .error failure := by
  simp [Fails, build_eq_error_iff]

theorem not_fails_iff :
    ¬ registry.Fails job discovery ↔ ∃ built, registry.build job discovery = .ok built := by
  rw [fails_iff]
  cases registry.build job discovery <;> simp

end ScrapeRelay.Discovery.Registry
