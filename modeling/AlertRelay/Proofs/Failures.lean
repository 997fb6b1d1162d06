import AlertRelay.Proofs.Bookkeeping
import AlertRelay.Proofs.Steps

/-! The failures that a turn of a relay can meet, told by what the broker answers,
and what the turn comes to. -/

namespace AlertRelay

variable {σ : Type}

/-- The broker confirms entries, the oldest first, one after the other. -/
inductive Link.Confirms (l : Link σ) : Backlog → σ → Backlog → σ → Prop
  | none (b : Backlog) (broker : σ) : l.Confirms b broker b broker
  | next {capacity : Nat} {e : Entry} {rest : List Entry} {stats : Stats} {b : Backlog} {s t u : σ}
      (hp : l.publish e.exchange e.key e.alert.wire.toUTF8 s = (.ok (), t))
      (h : l.Confirms ⟨⟨capacity, rest⟩, stats.publish⟩ t b u) :
      l.Confirms ⟨⟨capacity, e :: rest⟩, stats⟩ s b u

namespace Backlog

/-- A message came in that was not acknowledged. -/
def decline (b : Backlog) (rule : Rule) (d : Delivery) : Backlog :=
  { b with stats := rule.countMessage d.body b.stats }

/-- A message came in and was acknowledged; its alerts wait. -/
def accept (b : Backlog) (i : Intake) (d : Delivery) : Backlog :=
  (i.entries d.body).foldl put ⟨b.outbox, (i.rule.countMessage d.body b.stats).acknowledge⟩

end Backlog

/-- The look for a message fails, its acknowledgement, or the publish of the oldest
entry after some were confirmed. The failure leaves this backlog and broker. -/
inductive RelayState.Fails (l : Link σ) (s : RelayState σ) (f : BrokerFailure) : Backlog → σ → Prop
  | looking {t : σ} (h : l.nextDelivery s.pipeline.queue s.broker = (.error f, t)) :
      s.Fails l f s.pipeline.backlog t
  | acknowledging {d : Delivery} {t u : σ}
      (hd : l.nextDelivery s.pipeline.queue s.broker = (.ok (some d), t))
      (h : l.ack d.tag t = (.error f, u)) :
      s.Fails l f (s.pipeline.backlog.decline s.pipeline.intake.rule d) u
  | publishing {d : Delivery} {t u v w : σ} {capacity : Nat} {e : Entry} {rest : List Entry} {stats : Stats}
      (hd : l.nextDelivery s.pipeline.queue s.broker = (.ok (some d), t))
      (ha : l.ack d.tag t = (.ok (), u))
      (hc : l.Confirms (s.pipeline.backlog.accept s.pipeline.intake d) u ⟨⟨capacity, e :: rest⟩, stats⟩ v)
      (h : l.publish e.exchange e.key e.alert.wire.toUTF8 v = (.error f, w)) :
      s.Fails l f ⟨⟨capacity, e :: rest⟩, stats⟩ w

section Drain

variable {l : Link σ} {b b' : Backlog} {s t : σ}

/-- Draining goes on where the confirmations ended. -/
theorem Link.Confirms.drain (h : l.Confirms b s b' t) : b.drain l s = b'.drain l t := by
  induction h with
  | none => rfl
  | next hp _ ih =>
    rw [← ih]
    simp only [Backlog.drain, drainEntries, hp]

theorem Backlog.drain_empty (h : b.outbox.entries = []) : b.drain l s = (.ok (), b, s) := by
  obtain ⟨⟨capacity, entries⟩, stats⟩ := b
  obtain rfl : entries = [] := h
  rfl

theorem Backlog.drain_fails {capacity : Nat} {e : Entry} {rest : List Entry} {stats : Stats} {f : BrokerFailure}
    (h : l.publish e.exchange e.key e.alert.wire.toUTF8 s = (.error f, t)) :
    Backlog.drain l ⟨⟨capacity, e :: rest⟩, stats⟩ s =
      if f.kind = .notDelivered then (.ok (), ⟨⟨capacity, e :: rest⟩, stats.refuse⟩, t)
      else (.error (.broker f), ⟨⟨capacity, e :: rest⟩, stats⟩, t) := by
  simp only [Backlog.drain, drainEntries, h]
  split <;> rfl

/-- Confirmations go on until the outbox is empty or a publish fails. -/
theorem Link.confirms_all (l : Link σ) (b : Backlog) (s : σ) : ∃ b' t, l.Confirms b s b' t ∧
    (b'.outbox.entries = [] ∨ ∃ capacity e rest stats f u, b' = ⟨⟨capacity, e :: rest⟩, stats⟩ ∧
      l.publish e.exchange e.key e.alert.wire.toUTF8 t = (.error f, u)) := by
  obtain ⟨⟨capacity, entries⟩, stats⟩ := b
  induction entries generalizing stats s with
  | nil => exact ⟨_, s, .none _ s, .inl rfl⟩
  | cons e rest ih =>
    rcases hp : l.publish e.exchange e.key e.alert.wire.toUTF8 s with ⟨outcome, t⟩
    cases outcome with
    | ok u =>
      obtain ⟨b', u, hc, hend⟩ := ih t stats.publish
      exact ⟨b', u, .next hp hc, hend⟩
    | error f => exact ⟨_, s, .none _ s, .inr ⟨capacity, e, rest, stats, f, t, rfl, hp⟩⟩

end Drain

section Recover

variable {p : Pipeline} {f : BrokerFailure}

theorem Pipeline.recover_channel (h : f.kind = .channel) : p.recover (.broker f) =
    (.ok (), { p with backlog := { p.backlog with stats := p.backlog.stats.loseChannel } }) := by
  simp only [recover, RelayFailure.kind?, h]

theorem Pipeline.recover_refused (h : f.kind = .notDelivered) : p.recover (.broker f) =
    (.ok (), { p with backlog := { p.backlog with stats := p.backlog.stats.refuse } }) := by
  simp only [recover, RelayFailure.kind?, h]

theorem Pipeline.recover_fatal (h : f.kind = .connection ∨ f.kind = .other) : p.recover (.broker f) =
    (.error (.broker f), { p with phase := .stopped }) := by
  rcases h with h | h <;> simp only [recover, RelayFailure.kind?, h]

end Recover

namespace RelayState

variable {l : Link σ} {s : RelayState σ} {f : BrokerFailure} {b : Backlog} {t u : σ}

theorem begin_ok {s' : RelayState σ} (h : s.begin l = (.ok (), s')) :
    ∃ t, s.pipeline.declare l s.broker = (.ok (), t) ∧
      s' = { s with pipeline := { s.pipeline with phase := .running }, broker := t } := by
  rcases hd : s.pipeline.declare l s.broker with ⟨outcome, t⟩
  cases outcome with
  | ok u =>
    simp only [begin, Pipeline.prepare, hd, Except.mapError] at h
    cases h
    exact ⟨t, rfl, rfl⟩
  | error g =>
    simp only [begin, Pipeline.prepare, hd, Except.mapError] at h
    cases h

theorem begin_error_iff {s' : RelayState σ} {g : RelayFailure} : s.begin l = (.error g, s') ↔
    ∃ f t, s.pipeline.declare l s.broker = (.error f, t) ∧ g = .broker f ∧
      s' = { s with pipeline := { s.pipeline with phase := .stopped }, broker := t } := by
  simp only [begin, Pipeline.prepare]
  obtain ⟨outcome, t⟩ := s.pipeline.declare l s.broker
  cases outcome with
  | ok u => simp [Except.mapError]
  | error f =>
    constructor
    · intro h
      cases h
      exact ⟨f, t, rfl, rfl, rfl⟩
    · rintro ⟨f, t, h, rfl, rfl⟩
      cases h
      rfl

theorem take_ok {i : Intake} {d : Delivery} (ha : l.ack d.tag t = (.ok (), u)) :
    i.take l d b t = (b.accept i d).drain l u := by
  simp only [Intake.take, ha]
  rfl

theorem take_error {i : Intake} {d : Delivery} (ha : l.ack d.tag t = (.error f, u)) :
    i.take l d b t = (.error (.broker f), b.decline i.rule d, u) := by
  simp only [Intake.take, ha]
  rfl

/-- A failure is recovered from, or it ends the run; a publish that is refused
counts as if it had been recovered from. -/
theorem consume_fails (h : s.Fails l f b t) : s.consume l =
    consume.finish s ((({ s.pipeline with backlog := b } : Pipeline).recover (.broker f)).1,
      (({ s.pipeline with backlog := b } : Pipeline).recover (.broker f)).2, t) := by
  cases h with
  | looking h => simp only [consume, h, Pipeline.handle]
  | acknowledging hd h => simp only [consume, hd, Pipeline.handle, take_error h]
  | publishing hd ha hc h =>
    simp only [consume, hd, Pipeline.handle, take_ok ha, hc.drain, Backlog.drain_fails h]
    -- the drain counts a refused publish itself, where others are left to `recover`
    by_cases hk : f.kind = .notDelivered
    · rw [if_pos hk, Pipeline.recover_refused hk]
    · rw [if_neg hk]

/-- A turn that looks for a message finds none, passes on all that waits, or fails. -/
theorem consume_outcomes (l : Link σ) (s : RelayState σ) :
    (∃ t, l.nextDelivery s.pipeline.queue s.broker = (.ok none, t) ∧
      s.consume l = (.waits (l.wakeUps t), { s with broker := t })) ∨
    (∃ d t u b v, l.nextDelivery s.pipeline.queue s.broker = (.ok (some d), t) ∧ l.ack d.tag t = (.ok (), u) ∧
      l.Confirms (s.pipeline.backlog.accept s.pipeline.intake d) u b v ∧ b.outbox.entries = [] ∧
      s.consume l = (.again, { s with pipeline := { s.pipeline with backlog := b }, broker := v })) ∨
    ∃ f b t, s.Fails l f b t := by
  rcases hd : l.nextDelivery s.pipeline.queue s.broker with ⟨outcome, t⟩
  cases outcome with
  | error f => exact .inr (.inr ⟨f, _, t, .looking hd⟩)
  | ok d? =>
    cases d? with
    | none => exact .inl ⟨t, rfl, by simp only [consume, hd]⟩
    | some d =>
      rcases ha : l.ack d.tag t with ⟨outcome, u⟩
      cases outcome with
      | error f => exact .inr (.inr ⟨f, _, u, .acknowledging hd ha⟩)
      | ok =>
        obtain ⟨b, v, hc, hempty | ⟨capacity, e, rest, stats, f, w, rfl, hp⟩⟩ :=
          l.confirms_all (s.pipeline.backlog.accept s.pipeline.intake d) u
        · refine .inr (.inl ⟨d, t, u, b, v, rfl, ha, hc, hempty, ?_⟩)
          simp only [consume, hd, Pipeline.handle, take_ok ha, hc.drain, Backlog.drain_empty hempty]
          rfl
        · exact .inr (.inr ⟨f, _, w, .publishing hd ha hc hp⟩)

theorem consume_channel (h : s.Fails l f b t) (hk : f.kind = .channel) : s.consume l = (.again, { s with
    pipeline := { s.pipeline with backlog := { b with stats := b.stats.loseChannel } }
    broker := t }) := by
  rw [consume_fails h, Pipeline.recover_channel hk]
  rfl

theorem consume_refused (h : s.Fails l f b t) (hk : f.kind = .notDelivered) : s.consume l = (.again, { s with
    pipeline := { s.pipeline with backlog := { b with stats := b.stats.refuse } }
    broker := t }) := by
  rw [consume_fails h, Pipeline.recover_refused hk]
  rfl

theorem consume_fatal (h : s.Fails l f b t) (hk : f.kind = .connection ∨ f.kind = .other) :
    s.consume l = (.ended (.error (.broker f)), { s with
      pipeline := { s.pipeline with backlog := b, phase := .stopped }
      broker := t }) := by
  rw [consume_fails h, Pipeline.recover_fatal hk]
  rfl

theorem Fails.consume_cases (h : s.Fails l f b t) :
    (f.kind = .channel ∨ f.kind = .notDelivered) ∧ (∃ stats, s.consume l = (.again, { s with
      pipeline := { s.pipeline with backlog := { b with stats := stats } }
      broker := t })) ∨
    (f.kind = .connection ∨ f.kind = .other) ∧ s.consume l = (.ended (.error (.broker f)), { s with
      pipeline := { s.pipeline with backlog := b, phase := .stopped }
      broker := t }) := by
  cases hk : f.kind with
  | channel => exact .inl ⟨.inl rfl, _, consume_channel h hk⟩
  | notDelivered => exact .inl ⟨.inr rfl, _, consume_refused h hk⟩
  | connection => exact .inr ⟨.inl rfl, consume_fatal h (.inl hk)⟩
  | other => exact .inr ⟨.inr rfl, consume_fatal h (.inr hk)⟩

theorem consume_again {s' : RelayState σ} (h : s.consume l = (.again, s')) :
    s'.mailbox = s.mailbox ∧ s'.pipeline.phase = s.pipeline.phase := by
  rcases consume_outcomes l s with ⟨t, _, hc⟩ | ⟨_, _, _, b, v, _, _, _, _, hc⟩ | ⟨f, b, t, hf⟩
  · rw [hc] at h
    cases h
  · rw [hc] at h
    cases h
    exact ⟨rfl, rfl⟩
  · rcases hf.consume_cases with ⟨_, stats, hc⟩ | ⟨_, hc⟩ <;> rw [hc] at h <;> cases h
    exact ⟨rfl, rfl⟩

theorem consume_waits {s' : RelayState σ} {n : Nat} (h : s.consume l = (.waits n, s')) :
    ∃ t, l.nextDelivery s.pipeline.queue s.broker = (.ok none, t) ∧ n = l.wakeUps t ∧
      s' = { s with broker := t } := by
  rcases consume_outcomes l s with ⟨t, hd, hc⟩ | ⟨_, _, _, b, v, _, _, _, _, hc⟩ | ⟨f, b, t, hf⟩
  · rw [hc] at h
    cases h
    exact ⟨t, hd, rfl, rfl⟩
  · rw [hc] at h
    cases h
  · rcases hf.consume_cases with ⟨_, stats, hc⟩ | ⟨_, hc⟩ <;> rw [hc] at h <;> cases h

theorem consume_gives_up {s' : RelayState σ} {outcome : Except RelayFailure Unit}
    (h : s.consume l = (.ended outcome, s')) : ∃ f b t, s.Fails l f b t ∧
      (f.kind = .connection ∨ f.kind = .other) ∧ outcome = .error (.broker f) := by
  rcases consume_outcomes l s with ⟨t, _, hc⟩ | ⟨_, _, _, b, v, _, _, _, _, hc⟩ | ⟨f, b, t, hf⟩
  · rw [hc] at h
    cases h
  · rw [hc] at h
    cases h
  · rcases hf.consume_cases with ⟨_, stats, hc⟩ | ⟨hk, hc⟩ <;> rw [hc] at h <;> cases h
    exact ⟨f, b, t, hf, hk, rfl⟩

end RelayState

end AlertRelay
