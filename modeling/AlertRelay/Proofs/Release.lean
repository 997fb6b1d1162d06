import AlertRelay.Proofs.Conservation
import AlertRelay.Proofs.Supervision
import AlertRelay.Relay.Service

/-! How a relay leaves its broker when it is shut down. A relay that observes the
shutdown in its loop drops the connection; one that waits for its next attempt
leaves the broker as it is. -/

namespace AlertRelay

variable {σ ω : Type}

/-- A shutdown is the next command, or nobody is left who could send one. -/
def Mailbox.Stops (m : Mailbox) : Prop :=
  m.commands.head? = some .shutdown ∨ m.commands = [] ∧ m.isOpen = false

theorem Pipeline.recover_error {p : Pipeline} {f g : RelayFailure} (h : (p.recover f).1 = .error g) :
    (p.recover f).2.phase = .stopped := by
  unfold recover at h ⊢
  split <;> rename_i hk <;> simp only [hk] at h
  · cases h
  · cases h
  · rfl

theorem Pipeline.handle_error {link : Link σ} {p : Pipeline} {delivery : Outcome Delivery} {broker : σ}
    {g : RelayFailure} (h : (p.handle link delivery broker).1 = .error g) :
    (p.handle link delivery broker).2.1.phase = .stopped := by
  cases delivery with
  | error f => exact recover_error h
  | ok d =>
    simp only [handle] at h ⊢
    generalize p.intake.take link d p.backlog broker = x at h ⊢
    obtain ⟨outcome, backlog, broker'⟩ := x
    cases outcome with
    | ok u => cases h
    | error f => exact recover_error h

namespace RelayState

theorem begin_error {link : Link σ} {s s' : RelayState σ} {f : RelayFailure}
    (h : s.begin link = (.error f, s')) : s'.pipeline.phase = .stopped := by
  unfold begin at h
  split at h <;> cases h
  rfl

theorem consume_ended {link : Link σ} {s s' : RelayState σ} {outcome : Except RelayFailure Unit}
    (h : s.consume link = (.ended outcome, s')) :
    outcome ≠ .ok () ∧ s'.pipeline.phase = .stopped := by
  have hfinish : ∀ {delivery : Outcome Delivery} {broker : σ},
      consume.finish s (s.pipeline.handle link delivery broker) = (.ended outcome, s') →
      outcome ≠ .ok () ∧ s'.pipeline.phase = .stopped := by
    intro delivery broker hf
    have herror : ∀ g, (s.pipeline.handle link delivery broker).1 = .error g →
        (s.pipeline.handle link delivery broker).2.1.phase = .stopped := fun _ => Pipeline.handle_error
    generalize s.pipeline.handle link delivery broker = x at hf herror
    obtain ⟨r, p, broker'⟩ := x
    cases r with
    | ok u => cases hf
    | error g =>
      cases hf
      exact ⟨by simp, herror g rfl⟩
  unfold consume at h
  split at h
  · cases h
  · exact hfinish h
  · exact hfinish h

theorem turn_ended {link : Link σ} {s s' : RelayState σ} {outcome : Except RelayFailure Unit}
    (h : s.turn link = (.ended outcome, s')) :
    s'.pipeline.phase = .stopped ∧ (outcome = .ok () → s.mailbox.Stops ∧
      ∃ rest, s' = (s.withCommands rest).terminate link) := by
  unfold turn at h
  split at h <;> rename_i hc
  · cases h
  · cases h
    exact ⟨rfl, fun _ => ⟨.inl (by rw [hc]; rfl), _, rfl⟩⟩
  · split at h <;> rename_i ho
    · obtain ⟨hne, hp⟩ := consume_ended h
      exact ⟨hp, fun he => absurd he hne⟩
    · cases h
      exact ⟨rfl, fun _ => ⟨.inr ⟨hc, by simpa using ho⟩, s.mailbox.commands, rfl⟩⟩

theorem terminate_closes (s : RelayState Broker) :
    (s.terminate Broker.link).broker.connected = false ∧
      (s.terminate Broker.link).broker.outstanding = [] :=
  ⟨rfl, rfl⟩

end RelayState

theorem RunState.step_finished {link : Link σ} {r : RunState} {s s' : RelayState σ}
    {outcome : Except RelayFailure Unit} (h : r.step link s = some (.finished outcome, s')) :
    s'.pipeline.phase = .stopped ∧ (outcome = .ok () → (∃ seen, r = .consuming seen) ∧
      s.mailbox.Stops ∧ ∃ rest, s' = (s.withCommands rest).terminate link) := by
  cases r with
  | starting =>
    simp only [step] at h
    split at h <;> rename_i hb <;> cases h
    exact ⟨RelayState.begin_error hb, by simp⟩
  | consuming seen =>
    simp only [step] at h
    split at h
    · cases h
    · split at h <;> rename_i ht <;> cases h
      obtain ⟨hp, hok⟩ := RelayState.turn_ended ht
      exact ⟨hp, fun he => ⟨⟨seen, rfl⟩, hok he⟩⟩
  | finished outcome => cases h

namespace TaskState

/-- Neither at the start of a run nor in its loop. -/
def IsOver : TaskState → Prop
  | .running .starting | .running (.consuming _) => False
  | _ => True

/-- Ended well, or about to. -/
def EndsWell : TaskState → Prop
  | .running (.finished (.ok ())) | .ended (.ok _) => True
  | _ => False

section Steps

variable {link : Link σ} {now delay : Nat} {t t' : TaskState} {s s' : RelayState σ}

theorem step_running {r : RunState} (hr : ∀ outcome, r ≠ .finished outcome)
    (h : (running r).step link now delay s = some (t', s')) :
    ∃ r', t' = .running r' ∧ r.step link s = some (r', s') := by
  have hmap : (r.step link s).map (fun x => (TaskState.running x.1, x.2)) = some (t', s') := by
    cases r with
    | finished outcome => exact absurd rfl (hr outcome)
    | _ => exact h
  obtain ⟨⟨r', s''⟩, hstep, he⟩ := Option.map_eq_some_iff.mp hmap
  cases he
  exact ⟨r', rfl, hstep⟩

theorem step_reconnecting {resumeAt : Nat}
    (h : (reconnecting resumeAt).step link now delay s = some (t', s')) :
    s'.pipeline = s.pipeline ∧ s'.broker = s.broker ∧
      (t' = .running .starting ∨ t' = .reconnecting resumeAt ∨
        (∃ r, t' = .ended (.ok r)) ∧ s.mailbox.Stops) := by
  simp only [step] at h
  split at h
  · cases h
    exact ⟨rfl, rfl, .inl rfl⟩
  · split at h <;> rename_i hc
    · cases h
      exact ⟨rfl, rfl, .inr (.inl rfl)⟩
    · cases h
      exact ⟨rfl, rfl, .inr (.inr ⟨⟨_, rfl⟩, .inl (by rw [hc]; rfl)⟩)⟩
    · split at h <;> rename_i ho <;> cases h
      exact ⟨rfl, rfl, .inr (.inr ⟨⟨_, rfl⟩, .inr ⟨hc, by simpa using ho⟩⟩)⟩

/-- A pipeline whose run is over has stopped, until it starts again. -/
theorem step_stopped (h : t.step link now delay s = some (t', s'))
    (hs : t.IsOver → s.pipeline.phase = .stopped) (ht : t'.IsOver) : s'.pipeline.phase = .stopped := by
  have hrun : ∀ r, t = .running r → (∀ outcome, r ≠ .finished outcome) →
      s'.pipeline.phase = .stopped := by
    rintro r rfl hr
    obtain ⟨r', rfl, hstep⟩ := step_running hr h
    cases r' with
    | finished outcome => exact (RunState.step_finished hstep).1
    | _ => exact ht.elim
  cases t with
  | running r =>
    cases r with
    | finished outcome =>
      cases h
      exact hs trivial
    | starting => exact hrun _ rfl (by simp)
    | consuming seen => exact hrun _ rfl (by simp)
  | reconnecting resumeAt =>
    rw [(step_reconnecting h).1]
    exact hs trivial
  | ended outcome => cases h

/-- A task comes to a good end by a shutdown that it observes in its loop or while
it waits for its next attempt. -/
theorem step_endsWell (h : t.step link now delay s = some (t', s')) (ht : t'.EndsWell) :
    t.EndsWell ∧ s'.broker = s.broker ∨
    s.mailbox.Stops ∧
      ((∃ seen, t = .running (.consuming seen)) ∧ (∃ rest, s' = (s.withCommands rest).terminate link) ∨
        (∃ resumeAt, t = .reconnecting resumeAt) ∧ s'.broker = s.broker) := by
  have hrun : ∀ r, t = .running r → (∀ outcome, r ≠ .finished outcome) →
      (∃ seen, r = .consuming seen) ∧ s.mailbox.Stops ∧
        ∃ rest, s' = (s.withCommands rest).terminate link := by
    rintro r rfl hr
    obtain ⟨r', rfl, hstep⟩ := step_running hr h
    cases r' with
    | finished outcome =>
      cases outcome with
      | ok u => exact (RunState.step_finished hstep).2 rfl
      | error f => exact ht.elim
    | _ => exact ht.elim
  cases t with
  | running r =>
    cases r with
    | finished outcome =>
      cases h
      cases outcome with
      | ok u => exact .inl ⟨trivial, rfl⟩
      | error f =>
        simp only [afterRun] at ht
        split at ht <;> exact ht.elim
    | starting =>
      obtain ⟨⟨seen, hc⟩, _⟩ := hrun _ rfl (by simp)
      cases hc
    | consuming seen =>
      obtain ⟨_, hstops, hterm⟩ := hrun _ rfl (by simp)
      exact .inr ⟨hstops, .inl ⟨⟨seen, rfl⟩, hterm⟩⟩
  | reconnecting resumeAt =>
    obtain ⟨_, hb, rfl | rfl | ⟨_, hstops⟩⟩ := step_reconnecting h
    · exact ht.elim
    · exact ht.elim
    · exact .inr ⟨hstops, .inr ⟨⟨resumeAt, rfl⟩, hb⟩⟩
  | ended outcome => cases h

end Steps

end TaskState

/-- What others do, in order. -/
def Occurrence.others (schedule : List (Occurrence ω)) : List ω :=
  schedule.filterMap fun
    | .meanwhile o => some o
    | _ => none

namespace Supervised

/-- The state before the shutdown was observed, the state right after, and what the
task did to the broker in between. -/
structure LetsGo (x y : Supervised Broker) : Prop where
  stops : x.state.mailbox.Stops
  leaves : (∃ seen, x.task = .running (.consuming seen)) ∧ y.state.broker.connected = false ∧
      y.state.broker.outstanding = [] ∨
    (∃ resumeAt, x.task = .reconnecting resumeAt) ∧ y.state.broker = x.state.broker

theorem run_stopped (link : Link σ) (act : ω → σ → σ) (delay : Nat) {s : Supervised σ}
    (hs : s.task.IsOver → s.state.pipeline.phase = .stopped) (schedule : List (Occurrence ω)) :
    (s.run link act delay schedule).task.IsOver →
      (s.run link act delay schedule).state.pipeline.phase = .stopped := by
  refine List.foldlRecOn (motive := fun s : Supervised σ =>
    s.task.IsOver → s.state.pipeline.phase = .stopped) schedule _ hs ?_
  intro s hs o _
  cases o with
  | work now =>
    simp only [next]
    cases ht : s.task.step link now delay s.state with
    | none => exact hs
    | some x => exact TaskState.step_stopped ht hs
  | _ => exact hs

variable {delay : Nat} {s : Supervised Broker}

def brokerActs (op : BrokerOperation) (b : Broker) : Broker := (b.perform op).2

/-- A task that ends well has observed a shutdown; since then only others use the broker. -/
theorem run_endsWell (hs : ¬ s.task.EndsWell) (schedule : List (Occurrence BrokerOperation)) :
    (s.run Broker.link brokerActs delay schedule).task.EndsWell →
    ∃ earlier now later, schedule = earlier ++ .work now :: later ∧
      LetsGo (s.run Broker.link brokerActs delay earlier)
        (s.run Broker.link brokerActs delay (earlier ++ [.work now])) ∧
      (s.run Broker.link brokerActs delay schedule).state.broker =
        (s.run Broker.link brokerActs delay (earlier ++ [.work now])).state.broker.performAll
          (Occurrence.others later) := by
  induction schedule using List.reverseRecOn with
  | nil => exact fun h => absurd h hs
  | append_singleton schedule o ih =>
    intro h
    -- the shutdown was observed before the last occurrence, unless it is the step that observes it
    have hlater : (s.run Broker.link brokerActs delay schedule).task.EndsWell →
        (s.run Broker.link brokerActs delay (schedule ++ [o])).state.broker =
          (s.run Broker.link brokerActs delay schedule).state.broker.performAll (Occurrence.others [o]) →
        ∃ earlier now later, schedule ++ [o] = earlier ++ .work now :: later ∧
          LetsGo (s.run Broker.link brokerActs delay earlier)
            (s.run Broker.link brokerActs delay (earlier ++ [.work now])) ∧
          (s.run Broker.link brokerActs delay (schedule ++ [o])).state.broker =
            (s.run Broker.link brokerActs delay (earlier ++ [.work now])).state.broker.performAll
              (Occurrence.others later) := by
      intro hends hbroker
      obtain ⟨earlier, now, later, rfl, hgo, hb⟩ := ih hends
      refine ⟨earlier, now, later ++ [o], by simp, hgo, ?_⟩
      rw [hbroker, hb, Occurrence.others, Occurrence.others, Occurrence.others, List.filterMap_append]
      exact List.foldl_append.symm
    rw [run_append] at h
    cases o with
    | work now =>
      cases ht : (s.run Broker.link brokerActs delay schedule).task.step Broker.link now delay
          (s.run Broker.link brokerActs delay schedule).state with
      | none =>
        have hnext : (s.run Broker.link brokerActs delay schedule).next Broker.link brokerActs delay
            (.work now) = s.run Broker.link brokerActs delay schedule := by simp only [next, ht]
        rw [hnext] at h
        exact hlater h (by rw [run_append, hnext]; rfl)
      | some x =>
        obtain ⟨t, s'⟩ := x
        have hnext : (s.run Broker.link brokerActs delay schedule).next Broker.link brokerActs delay
            (.work now) = ⟨t, s'⟩ := by simp only [next, ht]
        rw [hnext] at h
        rcases TaskState.step_endsWell ht h with ⟨hends, hb⟩ | ⟨hstops, ⟨hloop, rest, rfl⟩ | ⟨hwait, hb⟩⟩
        · exact hlater hends (by rw [run_append, hnext]; exact hb)
        · refine ⟨schedule, now, [], rfl, ⟨hstops, .inl ⟨hloop, ?_⟩⟩, rfl⟩
          rw [run_append, hnext]
          exact RelayState.terminate_closes _
        · refine ⟨schedule, now, [], rfl, ⟨hstops, .inr ⟨hwait, ?_⟩⟩, rfl⟩
          rw [run_append, hnext]
          exact hb
    | meanwhile op => exact hlater h (by rw [run_append]; rfl)
    | send c => exact hlater h (by rw [run_append]; rfl)
    | hangUp => exact hlater h (by rw [run_append]; rfl)

/-- However a relay came to a good end, its pipeline has stopped, and it had observed
a shutdown: in its loop, and then it left the connection closed and nothing
outstanding, or while it waited for its next attempt, and then it left the broker
as it was. Since then only others have used the broker. -/
theorem shutdown_releases (delay : Nat) (settings : Settings) (rule : Rule) (broker : Broker)
    (schedule : List (Occurrence BrokerOperation)) (report : StatsReport)
    (h : ((start settings rule broker).run Broker.link brokerActs delay schedule).task =
      .ended (.ok report)) :
    let relay := (start settings rule broker).run Broker.link brokerActs delay
    (relay schedule).state.pipeline.phase = .stopped ∧
    ∃ earlier now later, schedule = earlier ++ .work now :: later ∧
      LetsGo (relay earlier) (relay (earlier ++ [.work now])) ∧
      (relay schedule).state.broker =
        (relay (earlier ++ [.work now])).state.broker.performAll (Occurrence.others later) := by
  intro relay
  have hover : (relay schedule).task.IsOver := by rw [h]; trivial
  have hends : (relay schedule).task.EndsWell := by rw [h]; trivial
  have hstart : (start settings rule broker).task.IsOver →
      (start settings rule broker).state.pipeline.phase = .stopped := fun hs => hs.elim
  exact ⟨run_stopped Broker.link brokerActs delay hstart schedule hover,
    run_endsWell (s := start settings rule broker) (fun hs => hs) schedule hends⟩

/-- A relay is shut down in its loop while one of its alerts waits and another consumer holds
a delivery, which goes back to its queue. -/
theorem shutdown_releases_in_loop :
    let rule : Rule := ⟨"github", fun _ => .ok [.pageInaccessible "x" 5 "p" "r"]⟩
    let before : List (Occurrence BrokerOperation) :=
      [.work 0, .meanwhile (.declareQueue "q"), .meanwhile (.bindQueue "q" "alert" "alerter.#"),
        .meanwhile (.inject "alert" "alerter.github" "1".toUTF8), .work 0, .meanwhile (.nextDelivery "q"),
        .send .shutdown]
    let schedule := before ++ [.work 0, .work 0]
    let relay := (start {} rule {}).run Broker.link brokerActs 20
    let report : StatsReport := ⟨{ received := 1, acknowledged := 1, buffered := 1, notDelivered := 2 }, 1⟩
    (relay before).report.pending = 1 ∧
    ((relay before).state.broker.ready "q", (relay before).state.broker.outstanding.length) = (0, 1) ∧
    ((relay schedule).state.broker.ready "q", (relay schedule).state.broker.outstanding.length) = (1, 0) ∧
    (relay schedule).task = .ended (.ok report) ∧
    (relay schedule).state.pipeline.phase = .stopped ∧
    ∃ earlier now later, schedule = earlier ++ .work now :: later ∧
      LetsGo (relay earlier) (relay (earlier ++ [.work now])) ∧
      (relay schedule).state.broker =
        (relay (earlier ++ [.work now])).state.broker.performAll (Occurrence.others later) := by
  intro rule before schedule relay report
  have hended : (relay schedule).task = .ended (.ok report) := TaskState.eq_ended (by decide +kernel)
  have hreleases := shutdown_releases 20 {} rule {} schedule report hended
  refine ⟨by decide +kernel, by decide +kernel, by decide +kernel, hended, ?_⟩
  simpa only [relay] using hreleases

/-- A look for a message fails as if the connection were lost, and the shutdown
comes while the relay waits for its next attempt: it ends well and stays connected. -/
theorem shutdown_while_waiting_stays_connected :
    let schedule : List (Occurrence BrokerOperation) :=
      [.work 0, .meanwhile (.failDelivery (.injected .connection "closed")), .work 0, .work 0,
        .send .shutdown, .work 0]
    let relay := (start {} .gitHub {}).run Broker.link brokerActs 20 schedule
    relay.task = .ended (.ok ⟨{}, 0⟩) ∧ relay.state.pipeline.phase = .stopped ∧
      relay.state.broker.connected = true :=
  ⟨rfl, rfl, rfl⟩

end Supervised

end AlertRelay
