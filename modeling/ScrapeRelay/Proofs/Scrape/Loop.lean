import ScrapeRelay.Scrape.Loop

namespace ScrapeRelay.Scrape.ScrapeLoop

variable {κ σ τ π : Type} {equipment : Equipment κ σ τ π} {cancelled : Bool} {now : Nat}
  {shared : Shared κ σ} {loop : ScrapeLoop π}

/-- A cancelled loop ends at its next turn, and does nothing else in it. -/
theorem step_of_cancelled (stopped : (cancelled || loop.isCancelled) = true) :
    loop.step equipment cancelled now shared = ⟨.finished, shared, []⟩ := by
  rw [step, if_pos stopped]

theorem resume_goes_on {next : Nat} {commit : π} :
    (loop.resume equipment now next commit shared).phase ≠ .finished := by
  unfold resume
  cases result : (equipment.sink.resume now shared.sink commit).result <;> simp [result]

theorem conclude_goes_on {next started : Nat} {outcome : Outcome} :
    (loop.conclude equipment now next started outcome shared).phase ≠ .finished := by
  unfold conclude
  dsimp only
  split
  · exact resume_goes_on
  · simp

theorem resume_cases (equipment : Equipment κ σ τ π) (now next : Nat) (commit : π)
    (shared : Shared κ σ) (loop : ScrapeLoop π) :
    (loop.resume equipment now next commit shared).shared.scraper = shared.scraper ∧
      ((loop.resume equipment now next commit shared).phase = .waiting next ∨
        ∃ rest, (loop.resume equipment now next commit shared).phase = .committing next rest) := by
  unfold resume
  dsimp only
  split
  · exact ⟨rfl, .inl rfl⟩
  · exact ⟨rfl, .inr ⟨_, rfl⟩⟩

theorem conclude_cases (equipment : Equipment κ σ τ π) (now next started : Nat) (outcome : Outcome)
    (shared : Shared κ σ) (loop : ScrapeLoop π) :
    (loop.conclude equipment now next started outcome shared).shared.scraper = shared.scraper ∧
      ((loop.conclude equipment now next started outcome shared).phase = .waiting next ∨
        ∃ rest, (loop.conclude equipment now next started outcome shared).phase =
          .committing next rest) := by
  unfold conclude
  dsimp only
  split
  · exact resume_cases equipment now next _ _ loop
  · exact ⟨rfl, .inl rfl⟩

theorem step_goes_on (running : (cancelled || loop.isCancelled) = false)
    (unfinished : loop.phase ≠ .finished) :
    (loop.step equipment cancelled now shared).phase ≠ .finished := by
  rw [step, if_neg (by simp [running])]
  cases phase : loop.phase with
  | launched => simp [tick]
  | waiting deadline => simp [tick]
  | scraping next started response =>
      dsimp only
      split
      · exact conclude_goes_on
      · simp
  | committing next commit => exact resume_goes_on
  | finished => exact absurd phase unfinished

end ScrapeRelay.Scrape.ScrapeLoop
