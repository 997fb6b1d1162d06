import AlertRelay.Relay.Task

/-! What the steps of a relay do to its broker, its pipeline and its mailbox. -/

namespace AlertRelay

variable {σ : Type}

/-- A pipeline whose run may be over and that counted failures. -/
def Pipeline.adjusted (p : Pipeline) (phase : Phase) (notDelivered channelErrors : Nat) : Pipeline :=
  { p with
    phase := phase
    backlog := { p.backlog with stats := { p.backlog.stats with
      notDelivered := notDelivered
      channelErrors := channelErrors } } }

theorem Pipeline.recover_adjusts (p : Pipeline) (f : RelayFailure) :
    ∃ phase n c, (p.recover f).2 = p.adjusted phase n c := by
  unfold recover
  split
  · exact ⟨p.phase, _, _, rfl⟩
  · exact ⟨p.phase, _, _, rfl⟩
  · exact ⟨.stopped, _, _, rfl⟩

theorem Pipeline.handle_ok (link : Link σ) (p : Pipeline) (d : Delivery) (broker : σ) :
    ∃ phase n c, (p.handle link (.ok d) broker).2 =
      (adjusted { p with backlog := (p.intake.take link d p.backlog broker).2.1 } phase n c,
        (p.intake.take link d p.backlog broker).2.2) := by
  simp only [handle]
  obtain ⟨outcome, backlog, broker'⟩ := p.intake.take link d p.backlog broker
  cases outcome with
  | ok u => exact ⟨p.phase, _, _, rfl⟩
  | error f =>
    obtain ⟨phase, n, c, hr⟩ := recover_adjusts { p with backlog := backlog } f
    exact ⟨phase, n, c, congrArg (·, broker') hr⟩

namespace RelayState

def withCommands (s : RelayState σ) (rest : List Command) : RelayState σ :=
  { s with mailbox := { s.mailbox with commands := rest } }

theorem begin_eq (link : Link σ) (s : RelayState σ) :
    ∃ phase, (s.begin link).2 = { s with
      pipeline := { s.pipeline with phase := phase }
      broker := (s.pipeline.declare link s.broker).2 } := by
  simp only [begin, Pipeline.prepare]
  obtain ⟨outcome, broker⟩ := s.pipeline.declare link s.broker
  cases outcome with
  | ok u => exact ⟨_, rfl⟩
  | error f => exact ⟨_, rfl⟩

theorem consume_cases (link : Link σ) (s : RelayState σ) :
    (∃ phase n c, (∀ d, (link.nextDelivery s.pipeline.queue s.broker).1 ≠ .ok (some d)) ∧
      (s.consume link).2 = { s with
        pipeline := s.pipeline.adjusted phase n c
        broker := (link.nextDelivery s.pipeline.queue s.broker).2 }) ∨
    ∃ d phase n c, (link.nextDelivery s.pipeline.queue s.broker).1 = .ok (some d) ∧
      (s.consume link).2 = { s with
        pipeline := Pipeline.adjusted { s.pipeline with
          backlog := (s.pipeline.intake.take link d s.pipeline.backlog
            (link.nextDelivery s.pipeline.queue s.broker).2).2.1 } phase n c
        broker := (s.pipeline.intake.take link d s.pipeline.backlog
          (link.nextDelivery s.pipeline.queue s.broker).2).2.2 } := by
  have hfinish : ∀ x, (consume.finish s x).2 = { s with pipeline := x.2.1, broker := x.2.2 } := by
    rintro ⟨outcome, p, broker⟩
    cases outcome <;> rfl
  simp only [consume]
  obtain ⟨outcome, broker⟩ := link.nextDelivery s.pipeline.queue s.broker
  cases outcome with
  | error f =>
    obtain ⟨phase, n, c, hr⟩ := s.pipeline.recover_adjusts (.broker f)
    exact .inl ⟨phase, n, c, by simp, by rw [hfinish, ← hr]; rfl⟩
  | ok d? =>
    cases d? with
    | none => exact .inl ⟨s.pipeline.phase, _, _, by simp, rfl⟩
    | some d =>
      obtain ⟨phase, n, c, hh⟩ := s.pipeline.handle_ok link d broker
      exact .inr ⟨d, phase, n, c, rfl, by rw [hfinish, hh]⟩

end RelayState

theorem RelayState.turn_cases (link : Link σ) (s : RelayState σ) :
    (s.turn link).2 = (s.consume link).2 ∨
    (∃ rest, (s.turn link).2 = (s.withCommands rest).terminate link) ∨
    ∃ id rest, (s.turn link).2 = s.answer id rest := by
  unfold turn
  split
  · exact .inr (.inr ⟨_, _, rfl⟩)
  · exact .inr (.inl ⟨_, rfl⟩)
  · split
    · exact .inl rfl
    · exact .inr (.inl ⟨s.mailbox.commands, rfl⟩)

theorem TaskState.step_cases {link : Link σ} {now delay : Nat} {t t' : TaskState}
    {s s' : RelayState σ} (h : t.step link now delay s = some (t', s')) :
    s' = (s.begin link).2 ∨ s' = (s.consume link).2 ∨
    (∃ rest, s' = (s.withCommands rest).terminate link) ∨ (∃ id rest, s' = s.answer id rest) ∨
    ∃ rest, s' = s.withCommands rest := by
  cases t with
  | running r =>
    cases r with
    | starting =>
      simp only [step, RunState.step] at h
      split at h <;> rename_i hb <;> cases h <;> exact .inl (by rw [hb])
    | consuming seen =>
      simp only [step, RunState.step] at h
      split at h
      · cases h
      · rcases s.turn_cases link with ht | ⟨rest, ht⟩ | ⟨id, rest, ht⟩ <;>
          split at h <;> rename_i hb <;> cases h <;> rw [hb] at ht
        all_goals first
          | exact .inr (.inl ht)
          | exact .inr (.inr (.inl ⟨_, ht⟩))
          | exact .inr (.inr (.inr (.inl ⟨_, _, ht⟩)))
    | finished outcome =>
      cases h
      exact .inr (.inr (.inr (.inr ⟨s.mailbox.commands, rfl⟩)))
  | reconnecting resumeAt =>
    simp only [step] at h
    split at h
    · cases h
      exact .inr (.inr (.inr (.inr ⟨s.mailbox.commands, rfl⟩)))
    · split at h
      · cases h
        exact .inr (.inr (.inr (.inl ⟨_, _, rfl⟩)))
      · cases h
        exact .inr (.inr (.inr (.inr ⟨_, rfl⟩)))
      · split at h
        · cases h
        · cases h
          exact .inr (.inr (.inr (.inr ⟨s.mailbox.commands, rfl⟩)))
  | ended outcome => cases h

/-- A task that ends well reports the counters of that moment. -/
theorem TaskState.step_ended {link : Link σ} {now delay : Nat} {t : TaskState}
    {s s' : RelayState σ} {r : StatsReport}
    (h : t.step link now delay s = some (.ended (.ok r), s')) : r = s'.pipeline.report := by
  cases t with
  | running run =>
    cases run with
    | finished outcome =>
      simp only [step, afterRun] at h
      split at h
      · cases h
        rfl
      · split at h <;> cases h
    | starting =>
      simp only [step] at h
      cases hs : RunState.starting.step link s <;> rw [hs] at h <;> cases h
    | consuming seen =>
      simp only [step] at h
      cases hs : (RunState.consuming seen).step link s <;> rw [hs] at h <;> cases h
  | reconnecting resumeAt =>
    simp only [step] at h
    split at h
    · cases h
    · split at h
      · cases h
      · cases h
        rfl
      · split at h
        · cases h
        · cases h
          rfl
  | ended outcome => cases h

end AlertRelay
