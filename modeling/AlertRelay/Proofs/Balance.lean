import AlertRelay.Proofs.Bookkeeping
import AlertRelay.Proofs.Supervision

/-! The counters of a supervised relay balance at any time, over any broker and
whatever others do to it. -/

namespace AlertRelay

variable {σ ω : Type}

/-- What others do to the broker is not recorded. -/
def Recorded.others (act : ω → σ → σ) (o : ω) (r : Recorded σ) : Recorded σ :=
  { r with inner := act o r.inner }

/-- A report balances in itself and agrees with the calls that the relay made. -/
structure Balanced (i : Intake) (capacity : Nat) (calls : List Call) (r : StatsReport) : Prop where
  buffered : r.stats.buffered = r.stats.published + r.stats.dropped + r.pending
  pending : r.pending ≤ max 1 capacity
  entered : r.stats.buffered =
    ((Account.of i capacity calls).acknowledged.flatMap fun d => i.rule.alertsOf d.body).length
  received : r.stats.received = (calls.filterMap Call.received?).length
  tags : calls.filterMap Call.acknowledgedTag? = (Account.of i capacity calls).acknowledged.map (·.tag)
  acknowledged : r.stats.acknowledged = (calls.filterMap Call.acknowledgedTag?).length
  settled : r.stats.received = r.stats.acknowledged + calls.countP Call.isRefusal
  rejected : r.stats.rejected = (calls.filterMap Call.received?).countP fun d => i.rule.rejects d.body
  published : r.stats.published = (calls.filterMap Call.confirmed?).length
  hasPublished : r.stats.hasPublished = true ↔ 0 < r.stats.published

theorem Explained.balanced {i : Intake} {capacity : Nat} {calls : List Call} {b : Backlog}
    (h : Explained i capacity calls b) : Balanced i capacity calls b.report := by
  have hkept := Account.of_kept i capacity calls
  have hbuffered := h.account.buffered
  refine ⟨?_, ?_, ?_, ?_, h.tags, ?_, ?_, ?_, ?_, h.account.hasPublished⟩
  · rw [Account.departed_length, ← h.account.published, ← h.account.dropped, ← h.account.outbox] at hbuffered
    exact hbuffered
  · have hfits := hkept.fits
    rw [← h.account.outbox, Nat.max_comm] at hfits
    exact hfits
  · have hlen := congrArg List.length hkept.entries
    rw [List.length_append, List.length_map] at hlen
    simp only [Intake.entries, ← List.map_flatMap, List.length_map] at hlen
    exact hbuffered.trans hlen
  · rw [← Account.of_received i capacity]
    exact h.account.received
  · rw [h.tags, List.length_map]
    exact h.account.acknowledged
  · have hsettled := h.account.settled
    rw [← h.account.received, ← h.account.acknowledged, ← h.refusals] at hsettled
    exact hsettled
  · rw [← Account.of_received i capacity]
    exact h.account.rejected
  · rw [h.sent, List.length_map]
    exact h.account.published

theorem Link.recorded_declares (l : Link σ) (calls : List Call) :
    l.recorded.Declares fun r => r.calls = calls where
  connect h := (Recorded.run_calls ..).trans h
  declareExchange _ _ h := (Recorded.run_calls ..).trans h
  declareQueue _ h := (Recorded.run_calls ..).trans h
  bindQueue _ _ _ h := (Recorded.run_calls ..).trans h
  setPrefetch _ h := (Recorded.run_calls ..).trans h
  confirmDelivery h := (Recorded.run_calls ..).trans h

/-- A relation between backlog and calls that the work of a relay with this intake
keeps, whatever the broker answers. -/
structure Intake.Preserves (i : Intake) (l : Link σ) (R : Backlog → List Call → Prop) : Prop where
  failures {b : Backlog} {calls : List Call} (notDelivered channelErrors : Nat) (h : R b calls) :
    R { b with stats := { b.stats with notDelivered := notDelivered, channelErrors := channelErrors } } calls
  take {b : Backlog} {r : Recorded σ} (d : Delivery) (h : R b r.calls) :
    R (i.take l.recorded d b (r.note (.received d))).2.1 (i.take l.recorded d b (r.note (.received d))).2.2.calls
  drain {b : Backlog} {r : Recorded σ} (h : R b r.calls) :
    R (b.drain l.recorded r).2.1 (b.drain l.recorded r).2.2.calls

/-- The relation holds of the backlog of a relay with this intake and its calls. -/
def RelayState.Relates (i : Intake) (R : Backlog → List Call → Prop) (s : RelayState (Recorded σ)) : Prop :=
  s.pipeline.intake = i ∧ R s.pipeline.backlog s.broker.calls

theorem Intake.Preserves.stays {i : Intake} {l : Link σ} {R : Backlog → List Call → Prop} (h : i.Preserves l R)
    (act : ω → σ → σ) : RelayState.Stays l.recorded (Recorded.others act) (RelayState.Relates i R) where
  begin {s} hs := by
    obtain ⟨phase, hb⟩ := s.begin_eq l.recorded
    have hcalls := (l.recorded_declares s.broker.calls).declare s.pipeline rfl
    rw [hb]
    exact ⟨hs.1, by rw [hcalls]; exact hs.2⟩
  consume {s} hs := by
    obtain ⟨hi, hr⟩ := hs
    rcases s.consume_cases l.recorded with ⟨phase, n, c, hno, hc⟩ | ⟨d, phase, n, c, hd, hc⟩ <;> rw [hc]
    · refine ⟨hi, ?_⟩
      rw [l.recorded_noDelivery hno]
      exact h.failures n c hr
    · rw [l.recorded_delivery hd, hi]
      have ht := h.take (r := ⟨(l.nextDelivery s.pipeline.queue s.broker.inner).2, s.broker.calls⟩) d hr
      exact ⟨hi, h.failures n c ht⟩
  terminate {s} hs := by
    obtain ⟨hi, hr⟩ := hs
    exact ⟨hi, Recorded.silent l.close (Q := fun calls => R _ calls) (h.drain hr)⟩
  mailbox m hs := hs
  meanwhile o hs := hs

theorem Explained.preserves (i : Intake) (capacity : Nat) (l : Link σ) :
    i.Preserves l fun b calls => Explained i capacity calls b where
  failures n c h := { h with account := h.account.failures n c }
  take d h := h.take l d
  drain h := h.drain l

/-- The calls explain the backlog of a relay with this intake. -/
def RelayState.Accountable (i : Intake) (capacity : Nat) (s : RelayState (Recorded σ)) : Prop :=
  s.pipeline.intake = i ∧ Explained i capacity s.broker.calls s.pipeline.backlog

theorem RelayState.accountable_stays (i : Intake) (capacity : Nat) (l : Link σ) (act : ω → σ → σ) :
    RelayState.Stays l.recorded (Recorded.others act) (RelayState.Accountable i capacity) :=
  (Explained.preserves i capacity l).stays act

namespace Supervised

theorem run_recorded (l : Link σ) (act : ω → σ → σ) (delay : Nat) (settings : Settings) (rule : Rule)
    (broker : σ) (schedule : List (Occurrence ω)) :
    ((start settings rule ⟨broker, []⟩).run l.recorded (Recorded.others act) delay schedule).map
        Recorded.inner =
      (start settings rule broker).run l act delay schedule :=
  (run_map l.recorded_lifts (fun _ _ => rfl) delay (start settings rule ⟨broker, []⟩) schedule).symm

/-- Over any broker, whatever others do to it and whenever: the counters of the
relay balance. What the relay reports to those who ask are its counters at some
point of the schedule, and it ends with a report of its last counters. -/
theorem reports_balanced (l : Link σ) (act : ω → σ → σ) (delay : Nat) (settings : Settings) (rule : Rule)
    (broker : σ) (schedule : List (Occurrence ω)) :
    let i := (Pipeline.ofSettings settings rule).intake
    let recorded := (start settings rule ⟨broker, []⟩).run l.recorded (Recorded.others act) delay
    let relay := (start settings rule broker).run l act delay
    (recorded schedule).map Recorded.inner = relay schedule ∧
    Balanced i settings.bufferCapacity (recorded schedule).state.broker.calls (relay schedule).report ∧
    (∀ answer ∈ (relay schedule).state.mailbox.answers, ∃ earlier, earlier <+: schedule ∧
      answer.2 = (relay earlier).report ∧
      Balanced i settings.bufferCapacity (recorded earlier).state.broker.calls answer.2) ∧
    ∀ r, (relay schedule).task = .ended (.ok r) → r = (relay schedule).report := by
  intro i recorded relay
  have hmap : ∀ schedule, (recorded schedule).map Recorded.inner = relay schedule :=
    run_recorded l act delay settings rule broker
  have hstart : RelayState.Accountable i settings.bufferCapacity
      (start settings rule (⟨broker, []⟩ : Recorded σ)).state := ⟨rfl, explained_nil _ _⟩
  have hbalanced : ∀ schedule, Balanced i settings.bufferCapacity
      (recorded schedule).state.broker.calls (relay schedule).report := by
    intro schedule
    have h := run_stays (RelayState.accountable_stays i settings.bufferCapacity l act) delay hstart schedule
    rw [← hmap]
    exact h.2.balanced
  have hanswers : ∀ answer ∈ (relay schedule).state.mailbox.answers,
      ∃ earlier, earlier <+: schedule ∧ answer.2 = (relay earlier).report :=
    run_answers delay (s := start settings rule broker) rfl schedule
  have hended : ∀ r, (relay schedule).task = .ended (.ok r) → r = (relay schedule).report :=
    run_ended delay (s := start settings rule broker) (by simp [start]) schedule
  refine ⟨hmap schedule, hbalanced schedule, ?_, hended⟩
  intro answer ha
  obtain ⟨earlier, hp, he⟩ := hanswers answer ha
  exact ⟨earlier, hp, he, by rw [he]; exact hbalanced earlier⟩

/-- A relay with room for one alert is asked for its counters and shut down. The publish of
its first alert was refused, and the second alert took the place of the first. -/
theorem reports_balanced_overflowing :
    let settings : Settings := { bufferCapacity := 1 }
    let rule : Rule := ⟨"github", fun _ => .ok [.pageInaccessible "x" 5 "p" "r"]⟩
    let act (op : BrokerOperation) (b : Broker) : Broker := (b.perform op).2
    let schedule : List (Occurrence BrokerOperation) :=
      [.work 0, .meanwhile (.declareQueue "q"), .meanwhile (.bindQueue "q" "alert" "alert_router.#"),
        .meanwhile (.failPublish (.injected .notDelivered "nack")),
        .meanwhile (.inject "alert" "alerter.github" "1".toUTF8), .work 0,
        .meanwhile (.inject "alert" "alerter.github" "2".toUTF8), .work 0,
        .send (.report 7), .work 0, .send .shutdown, .work 0, .work 0]
    let i := (Pipeline.ofSettings settings rule).intake
    let recorded := (start settings rule (⟨{}, []⟩ : Recorded Broker)).run Broker.link.recorded
      (Recorded.others act) 5
    let relay := (start settings rule ({} : Broker)).run Broker.link act 5
    let stats : Stats :=
      { received := 2, acknowledged := 2, buffered := 2, published := 1, dropped := 1, notDelivered := 1,
        hasPublished := true }
    let r : StatsReport := ⟨stats, 0⟩
    (7, r) ∈ (relay schedule).state.mailbox.answers ∧
    (relay schedule).task = .ended (.ok r) ∧
    (recorded schedule).map Recorded.inner = relay schedule ∧
    Balanced i 1 (recorded schedule).state.broker.calls (relay schedule).report ∧
    (∃ earlier, earlier <+: schedule ∧ r = (relay earlier).report ∧
      Balanced i 1 (recorded earlier).state.broker.calls r) ∧
    r = (relay schedule).report := by
  intro settings rule act schedule i recorded relay stats r
  have he : (relay schedule).task = .ended (.ok r) := TaskState.eq_ended (by decide +kernel)
  obtain ⟨hmap, hbalanced, hanswers, hended⟩ := reports_balanced Broker.link act 5 settings rule {} schedule
  have hanswer := hanswers (7, r) (by decide +kernel)
  refine ⟨by decide +kernel, he, ?_, ?_, ?_, hended r he⟩
  · simpa only [recorded, relay] using hmap
  · simpa only [recorded, relay] using hbalanced
  · simpa only [recorded, relay] using hanswer

end Supervised

end AlertRelay
