import AlertRelay.Proofs.Balance
import AlertRelay.Proofs.Draining
import AlertRelay.Proofs.Release

/-! Why alerts wait. They wait for the publish that failed last: between two messages an
outbox is empty, or its oldest entry was refused and nothing has moved since. -/

namespace AlertRelay

variable {σ ω : Type}

/-- A call that brings no alert into the outbox and publishes none. -/
def Call.Idle : Call → Prop
  | .received _ | .acknowledged _ (.error _) => True
  | _ => False

namespace Account

variable (i : Intake) (capacity : Nat)

theorem note_idle (a : Account) {c : Call} (h : c.Idle) :
    (a.note i c).outbox = a.outbox ∧ (a.note i c).departed = a.departed := by
  cases c with
  | received d => exact ⟨rfl, rfl⟩
  | acknowledged tag outcome =>
    cases outcome with
    | ok u => exact h.elim
    | error f => cases hd : a.received.getLast? <;> simp [note, hd]
  | published exchange key body outcome => exact h.elim

theorem of_idle (calls : List Call) {since : List Call} (h : ∀ c ∈ since, c.Idle) :
    (of i capacity (calls ++ since)).outbox = (of i capacity calls).outbox ∧
      (of i capacity (calls ++ since)).departed = (of i capacity calls).departed := by
  induction since using List.reverseRecOn with
  | nil => rw [List.append_nil]; exact ⟨rfl, rfl⟩
  | append_singleton since c ih =>
    obtain ⟨ho, hd⟩ := ih fun c hc => h c (List.mem_append_left _ hc)
    obtain ⟨ho', hd'⟩ := (of i capacity (calls ++ since)).note_idle i (h c (by simp))
    rw [← List.append_assoc, of_append]
    exact ⟨ho'.trans ho, hd'.trans hd⟩

end Account

/-- The same alerts wait, and none has come or gone. -/
structure Backlog.Unmoved (b b' : Backlog) : Prop where
  outbox : b'.outbox = b.outbox
  buffered : b'.stats.buffered = b.stats.buffered
  published : b'.stats.published = b.stats.published
  dropped : b'.stats.dropped = b.stats.dropped

theorem Explained.unmoved {i : Intake} {capacity : Nat} {calls since : List Call} {b b' : Backlog}
    (h : Explained i capacity calls b) (h' : Explained i capacity (calls ++ since) b')
    (hidle : ∀ c ∈ since, c.Idle) : b.Unmoved b' := by
  obtain ⟨houtbox, hdeparted⟩ := Account.of_idle i capacity calls hidle
  have ha := h.account
  have ha' := h'.account
  refine ⟨?_, ?_, ?_, ?_⟩
  · rw [ha'.outbox, houtbox, ha.outbox]
  · rw [ha'.buffered, houtbox, hdeparted, ha.buffered]
  · rw [ha'.published, Account.confirmed, hdeparted, ha.published, Account.confirmed]
  · rw [ha'.dropped, Account.evicted, hdeparted, ha.dropped, Account.evicted]

/-- A message that is taken in is not acknowledged, or the outbox is drained with its alerts. -/
theorem Intake.take_cases (i : Intake) (l : Link σ) (d : Delivery) (b : Backlog) (r : Recorded σ) :
    (∃ f t, i.take l.recorded d b r = (.error (.broker f), b.decline i.rule d,
      ⟨t, r.calls ++ [.acknowledged d.tag (.error f)]⟩)) ∨
    ∃ k outcome b' attempts t, (b.accept i d).Drains k outcome b' attempts ∧
      i.take l.recorded d b r = (outcome, b', ⟨t, r.calls ++ .acknowledged d.tag (.ok ()) :: attempts⟩) := by
  have hack := l.recorded_ack d.tag r
  rcases ha : l.ack d.tag r.inner with ⟨answer, t⟩
  rw [ha] at hack
  cases answer with
  | error f => exact .inl ⟨f, t, RelayState.take_error hack⟩
  | ok u =>
    obtain ⟨k, outcome, b', attempts, inner, hd, hk⟩ := Backlog.drains l (b.accept i d) ⟨t, _⟩
    refine .inr ⟨k, outcome, b', attempts, inner, hk, ?_⟩
    rw [RelayState.take_ok hack, hd, List.append_assoc, List.singleton_append]

/-- The last publish was that of the oldest entry that waits, it failed, and the calls
since then are idle. -/
def Refused (entries : List Entry) (calls : List Call) : Prop :=
  ∃ e rest f earlier since, entries = e :: rest ∧ calls = earlier ++ e.call (.error f) :: since ∧
    ∀ c ∈ since, c.Idle

/-- Alerts wait only after a refusal. -/
def Waits (b : Backlog) (calls : List Call) : Prop :=
  b.outbox.entries = [] ∨ Refused b.outbox.entries calls

namespace Waits

variable {b b' : Backlog} {calls : List Call}

theorem idle (h : Waits b calls) {more : List Call} (hmore : ∀ c ∈ more, c.Idle) : Waits b (calls ++ more) := by
  rcases h with hnone | ⟨e, rest, f, earlier, since, he, rfl, hsince⟩
  · exact .inl hnone
  · refine .inr ⟨e, rest, f, earlier, since ++ more, he, by simp, fun c hc => ?_⟩
    exact (List.mem_append.mp hc).elim (hsince c) (hmore c)

/-- However a drain ends, what waits afterwards was refused by it. -/
theorem of_drains {k : Nat} {outcome : Except RelayFailure Unit} {attempts : List Call}
    (h : b.Drains k outcome b' attempts) (calls : List Call) : Waits b' (calls ++ attempts) := by
  rcases h.waiting with hnone | ⟨e, rest, f, earlier, he, rfl⟩
  · exact .inl hnone
  · exact .inr ⟨e, rest, f, calls ++ earlier, [], he, by simp, by simp⟩

theorem preserves (i : Intake) (l : Link σ) : i.Preserves l Waits where
  failures _ _ h := h
  take {b r} d h := by
    rcases i.take_cases l d b (r.note (.received d)) with ⟨f, t, ht⟩ | ⟨k, outcome, b', attempts, t, hk, ht⟩
    · have hdeclined : Waits (b.decline i.rule d) r.calls := h
      have hreceived : Waits (b.decline i.rule d) (r.calls ++ [.received d]) := hdeclined.idle (by simp [Call.Idle])
      rw [ht]
      exact hreceived.idle (by simp [Call.Idle])
    · rw [ht, ← List.singleton_append, ← List.append_assoc]
      exact of_drains hk _
  drain {b r} _ := by
    obtain ⟨k, outcome, b', attempts, t, hd, hk⟩ := b.drains l r
    rw [hd]
    exact of_drains hk _

end Waits

/-- Calls are only added. -/
theorem Intake.calls_grow (i : Intake) (l : Link σ) (calls : List Call) :
    i.Preserves l fun _ later => calls <+: later where
  failures _ _ h := h
  take {b r} d h := by
    rcases i.take_cases l d b (r.note (.received d)) with ⟨f, t, ht⟩ | ⟨k, outcome, b', attempts, t, _, ht⟩ <;>
      rw [ht] <;> exact (h.trans (List.prefix_append _ _)).trans (List.prefix_append _ _)
  drain {b r} h := by
    obtain ⟨k, outcome, b', attempts, t, hd, _⟩ := b.drains l r
    rw [hd]
    exact h.trans (List.prefix_append _ _)

namespace Supervised

/-- Over any broker, whatever it answers, whatever others do and whenever. If alerts wait,
the relay has tried to publish one: its last attempt was the oldest of them and failed.
Since then no message was acknowledged, and from that attempt on the same alerts wait and
none has come or gone. -/
theorem waits_only_after_refusal (l : Link σ) (act : ω → σ → σ) (delay : Nat) (settings : Settings) (rule : Rule)
    (broker : σ) (schedule : List (Occurrence ω)) :
    let recorded := (start settings rule ⟨broker, []⟩).run l.recorded (Recorded.others act) delay
    let relay := (start settings rule broker).run l act delay
    (∀ schedule, (recorded schedule).map Recorded.inner = relay schedule) ∧
    ((relay schedule).state.pipeline.backlog.outbox.entries ≠ [] → ∃ e rest f earlier since,
      (relay schedule).state.pipeline.backlog.outbox.entries = e :: rest ∧
      (recorded schedule).state.broker.calls = earlier ++ Entry.call e (.error f) :: since ∧
      (∀ c ∈ since, c.Idle) ∧
      ∀ before, before <+: schedule →
        earlier ++ [Entry.call e (.error f)] <+: (recorded before).state.broker.calls →
        (relay before).state.pipeline.backlog.Unmoved (relay schedule).state.pipeline.backlog) := by
  intro recorded relay
  let i := (Pipeline.ofSettings settings rule).intake
  have hmap : ∀ schedule, (recorded schedule).map Recorded.inner = relay schedule :=
    run_recorded l act delay settings rule broker
  have hbacklog : ∀ schedule,
      (relay schedule).state.pipeline.backlog = (recorded schedule).state.pipeline.backlog := by
    intro schedule
    rw [← hmap]
    rfl
  have hexplained : ∀ schedule, RelayState.Accountable i settings.bufferCapacity (recorded schedule).state :=
    run_stays (RelayState.accountable_stays i settings.bufferCapacity l act) delay ⟨rfl, explained_nil _ _⟩
  have hwaits : RelayState.Relates i Waits (recorded schedule).state :=
    run_stays ((Waits.preserves i l).stays act) delay ⟨rfl, .inl rfl⟩ schedule
  refine ⟨hmap, fun hsome => ?_⟩
  rw [hbacklog] at hsome ⊢
  obtain ⟨e, rest, f, earlier, since, he, hcalls, hidle⟩ := hwaits.2.resolve_left hsome
  refine ⟨e, rest, f, earlier, since, he, hcalls, hidle, ?_⟩
  intro before hbefore hattempted
  obtain ⟨more, rfl⟩ := hbefore
  -- all calls after the attempt are idle, so are those after `before`
  have hgrown : RelayState.Relates i (fun _ later => (recorded before).state.broker.calls <+: later)
      (recorded (before ++ more)).state := by
    have hsplit : recorded (before ++ more) = (recorded before).run l.recorded (Recorded.others act) delay more :=
      List.foldl_append
    rw [hsplit]
    exact run_stays ((i.calls_grow l _).stays act) delay ⟨(hexplained before).1, List.prefix_refl _⟩ more
  obtain ⟨between, huntil⟩ := hattempted
  obtain ⟨later, hlater⟩ := hgrown.2
  have hsince : between ++ later = since := by
    rw [← hlater, ← huntil] at hcalls
    simpa using hcalls
  have hidle' : ∀ c ∈ later, c.Idle := fun c hc => hidle c (hsince ▸ List.mem_append_right _ hc)
  have hnow := (hexplained (before ++ more)).2
  rw [← hlater] at hnow
  rw [hbacklog]
  exact (hexplained before).2.unmoved hnow hidle'

/-- The alert of a failed poll reaches no queue, then the connection is lost, and the relay
has declared its topology again: the alert still waits. -/
theorem waits_only_after_refusal_reconnected :
    let payload := "\x7b\"error\":\x7b\"meta_data\":\x7b\"repo_name\":\"x\",\"time\":5," ++
      "\"repo_parent_id\":\"p\",\"repo_id\":\"r\"\x7d\x7d\x7d"
    let lost : BrokerFailure := .injected .connection "closed"
    let schedule : List (Occurrence BrokerOperation) :=
      [.work 0, .meanwhile (.inject "alert" "alerter.github" payload.toUTF8), .work 0,
        .meanwhile (.failDelivery lost), .work 1, .work 1, .work 21, .work 21]
    let recorded := (start {} .gitHub ⟨{}, []⟩).run Broker.link.recorded (Recorded.others brokerActs) 20
    let relay := (start {} .gitHub {}).run Broker.link brokerActs 20
    (relay schedule).task.InLoop ∧ (relay schedule).state.pipeline.backlog.outbox.entries ≠ [] ∧
    ∃ e rest f earlier since,
      (relay schedule).state.pipeline.backlog.outbox.entries = e :: rest ∧
      (recorded schedule).state.broker.calls = earlier ++ Entry.call e (.error f) :: since ∧
      (∀ c ∈ since, c.Idle) ∧
      ∀ before, before <+: schedule →
        earlier ++ [Entry.call e (.error f)] <+: (recorded before).state.broker.calls →
        (relay before).state.pipeline.backlog.Unmoved (relay schedule).state.pipeline.backlog := by
  intro payload lost schedule recorded relay
  have hrun : (relay schedule).task.InLoop ∧
      (relay schedule).state.pipeline.backlog.outbox.entries.length = 1 := by
    decide +kernel
  obtain ⟨hloop, hlength⟩ := hrun
  have hsome : (relay schedule).state.pipeline.backlog.outbox.entries ≠ [] := by
    intro hnone
    rw [hnone] at hlength
    cases hlength
  clear_value schedule
  obtain ⟨_, hrefused⟩ := waits_only_after_refusal Broker.link brokerActs 20 {} .gitHub {} schedule
  exact ⟨hloop, hsome, hrefused hsome⟩

end Supervised

end AlertRelay
