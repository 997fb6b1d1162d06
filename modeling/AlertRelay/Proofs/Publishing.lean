import AlertRelay.Proofs.Balance
import AlertRelay.Proofs.Draining
import AlertRelay.Proofs.Timestamps
import AlertRelay.Proofs.WireReading

/-! What a relay publishes: the texts of alerts that its rule yielded, which can be
read back. -/

namespace AlertRelay

variable {σ ω : Type}

def Call.isPublish : Call → Bool
  | .published .. => true
  | _ => false

/-- The alerts that wait have a property, and so have those whose texts were published. -/
structure Publishes (P : Alert → Prop) (b : Backlog) (calls : List Call) : Prop where
  waiting : ∀ e ∈ b.outbox.entries, P e.alert
  published : ∀ exchange key body outcome, .published exchange key body outcome ∈ calls →
    ∃ a, P a ∧ body = a.wire.toUTF8

namespace Publishes

variable {P : Alert → Prop} {b : Backlog} {calls : List Call}

theorem counted (h : Publishes P b calls) (stats : Stats) : Publishes P ⟨b.outbox, stats⟩ calls :=
  ⟨h.waiting, h.published⟩

/-- Other calls do not matter. -/
theorem note (h : Publishes P b calls) {c : Call} (hc : c.isPublish = false) : Publishes P b (calls ++ [c]) where
  waiting := h.waiting
  published exchange key body outcome hmem := by
    rcases List.mem_append.mp hmem with hmem | hlast
    · exact h.published exchange key body outcome hmem
    · rw [← List.mem_singleton.mp hlast] at hc
      cases hc

theorem put (h : Publishes P b calls) {e : Entry} (he : P e.alert) : Publishes P (b.put e) calls where
  waiting x hx := by
    rw [b.put_outbox, Outbox.put] at hx
    split at hx
    · rcases List.mem_append.mp hx with hx | hx
      · exact h.waiting x (List.mem_of_mem_tail hx)
      · exact List.mem_singleton.mp hx ▸ he
    · rcases List.mem_append.mp hx with hx | hx
      · exact h.waiting x hx
      · exact List.mem_singleton.mp hx ▸ he
  published := h.published

theorem foldl_put (h : Publishes P b calls) {es : List Entry} (hes : ∀ e ∈ es, P e.alert) :
    Publishes P (es.foldl Backlog.put b) calls :=
  List.foldlRecOn (motive := fun b => Publishes P b calls) es _ h fun _ hb e he => hb.put (hes e he)

/-- What a drain publishes was waiting, and so was what it leaves. -/
theorem drain (l : Link σ) {r : Recorded σ} (h : Publishes P b r.calls) :
    Publishes P (b.drain l.recorded r).2.1 (b.drain l.recorded r).2.2.calls := by
  obtain ⟨k, outcome, b', attempts, inner, hd, hk⟩ := b.drains l r
  rw [hd]
  refine ⟨fun e he => ?_, fun exchange key body answer hc => ?_⟩
  · rw [hk.entries_eq] at he
    exact h.waiting e (List.mem_of_mem_drop he)
  · rcases List.mem_append.mp hc with hc | hc
    · exact h.published _ _ _ _ hc
    · obtain ⟨e, he, o, hcall⟩ := hk.attempts_mem hc
      cases hcall
      exact ⟨e.alert, h.waiting e he, rfl⟩

theorem take {i : Intake} (hrule : ∀ body, ∀ a ∈ i.rule.alertsOf body, P a) (l : Link σ) {r : Recorded σ}
    (h : Publishes P b r.calls) (d : Delivery) :
    Publishes P (i.take l.recorded d b r).2.1 (i.take l.recorded d b r).2.2.calls := by
  have hentries : ∀ e ∈ i.entries d.body, P e.alert := by
    intro e he
    obtain ⟨a, ha, rfl⟩ := List.mem_map.mp he
    exact hrule d.body a ha
  have hack := l.recorded_ack d.tag r
  rcases ha : l.ack d.tag r.inner with ⟨answer, t⟩
  rw [ha] at hack
  cases answer with
  | error f =>
    rw [RelayState.take_error hack]
    exact (h.note rfl).counted _
  | ok u =>
    have hnoted : Publishes P b (r.calls ++ [.acknowledged d.tag (.ok ())]) := h.note rfl
    rw [RelayState.take_ok hack]
    exact drain l ((hnoted.counted _).foldl_put hentries)

end Publishes

theorem Publishes.preserves {i : Intake} {P : Alert → Prop} (hrule : ∀ body, ∀ a ∈ i.rule.alertsOf body, P a)
    (l : Link σ) : i.Preserves l (Publishes P) where
  failures _ _ h := h.counted _
  take {_ r} d h := Publishes.take hrule l (r := r.note (.received d)) (h.note rfl) d
  drain h := h.drain l

theorem Rule.gitHub_alertsOf_finite (body : ByteArray) :
    ∀ a ∈ Rule.gitHub.alertsOf body, a.timestamp.isFinite = true := by
  unfold Rule.alertsOf
  cases h : Rule.gitHub.classify body with
  | error e => simp [Except.toOption]
  | ok alerts => exact Rule.gitHub_finite body alerts h

/-- Encoding and decoding do not drift apart. Every alert whose timestamp is finite is
read back from its text but for the timestamp, every alert of a message has a finite
timestamp, and so every body that a relay publishes is that of an alert that is read back. -/
theorem Alert.published_read_back (l : Link σ) (act : ω → σ → σ) (delay : Nat) (settings : Settings) (broker : σ)
    (schedule : List (Occurrence ω)) :
    let recorded :=
      (Supervised.start settings .gitHub ⟨broker, []⟩).run l.recorded (Recorded.others act) delay schedule
    (∀ a : Alert, a.timestamp.isFinite = true → ∃ t : Float, t.isFinite = true ∧
      Alert.ofBytes a.wire.toUTF8 = .ok { a with timestamp := t }) ∧
    (∀ body alerts, Rule.gitHub.classify body = .ok alerts → ∀ a ∈ alerts, a.timestamp.isFinite = true) ∧
    recorded.map Recorded.inner = (Supervised.start settings .gitHub broker).run l act delay schedule ∧
    ∀ exchange key body outcome, .published exchange key body outcome ∈ recorded.state.broker.calls →
      ∃ a : Alert, a.timestamp.isFinite = true ∧ body = a.wire.toUTF8 ∧ ∃ t : Float, t.isFinite = true ∧
        Alert.ofBytes body = .ok { a with timestamp := t } := by
  intro recorded
  let i := (Pipeline.ofSettings settings .gitHub).intake
  have hpreserves : i.Preserves l (Publishes fun a => a.timestamp.isFinite = true) :=
    Publishes.preserves Rule.gitHub_alertsOf_finite l
  have hstart : RelayState.Relates i (Publishes fun a => a.timestamp.isFinite = true)
      (Supervised.start settings .gitHub (⟨broker, []⟩ : Recorded σ)).state :=
    ⟨rfl, by simp [Supervised.start, Pipeline.ofSettings, Outbox.new], by simp [Supervised.start]⟩
  have hrun := Supervised.run_stays (hpreserves.stays act) delay hstart schedule
  refine ⟨Alert.ofBytes_wire, fun body alerts h => Rule.gitHub_finite body alerts h,
    Supervised.run_recorded l act delay settings .gitHub broker schedule, ?_⟩
  intro exchange key body outcome hc
  obtain ⟨a, ha, rfl⟩ := hrun.2.published _ _ _ _ hc
  exact ⟨a, ha, rfl, a.ofBytes_wire ha⟩

/-- Quotes, backslashes, control characters, a line separator, a character of four
bytes and JSON as text; and a relay that publishes an alert of a message with an error. -/
theorem Alert.published_read_back_awkward :
    let awkward : Alert := {
      code := ⟨"\x7b\"name\":null\x7d", "\\u0022"⟩
      message := "\x00\x1f\x7f \u2028 𝄞 \"quoted\" \\"
      severity := .error
      parentId := ""
      originId := "\r\n\t\x08\x0c/"
      timestamp := 0.1 }
    let body := "\x7b\"error\":\x7b\"meta_data\":[\"repo\",1.5e3,\"parent\",\"origin\"]\x7d\x7d".toUTF8
    let inject (_ : Unit) (b : Broker) : Broker := (b.inject "alert" "alerter.github" body).2
    let recorded := (Supervised.start {} .gitHub ⟨({} : Broker), []⟩).run Broker.link.recorded
      (Recorded.others inject) 5 [.work 0, .meanwhile (), .work 0]
    (awkward.timestamp.isFinite = true ∧ ∃ t : Float, t.isFinite = true ∧
      Alert.ofBytes awkward.wire.toUTF8 = .ok { awkward with timestamp := t }) ∧
    (∃ a, Rule.gitHub.classify body = .ok [a] ∧ a.timestamp.isFinite = true) ∧
    ∃ exchange key text outcome, .published exchange key text outcome ∈ recorded.state.broker.calls ∧
      ∃ a : Alert, a.timestamp.isFinite = true ∧ text = a.wire.toUTF8 ∧ ∃ t : Float, t.isFinite = true ∧
        Alert.ofBytes text = .ok { a with timestamp := t } := by
  intro awkward body inject recorded
  obtain ⟨hread, hclassify, _, hpublished⟩ :=
    Alert.published_read_back Broker.link inject 5 {} {} [.work 0, .meanwhile (), .work 0]
  have hfinite : awkward.timestamp.isFinite = true := by decide +kernel
  have hone : ((Rule.gitHub.classify body).toOption.map List.length) = some 1 := by decide +kernel
  have hany : recorded.state.broker.calls.any Call.isPublish = true := by decide +kernel
  refine ⟨⟨hfinite, hread awkward hfinite⟩, ?_, ?_⟩
  · cases h : Rule.gitHub.classify body with
    | error e =>
      rw [h] at hone
      cases hone
    | ok alerts =>
      rw [h] at hone
      obtain ⟨a, rfl⟩ := List.length_eq_one_iff.mp (Option.some.inj hone)
      exact ⟨a, rfl, hclassify body [a] h a (List.mem_singleton_self a)⟩
  · obtain ⟨c, hc, hkind⟩ := List.any_eq_true.mp hany
    cases c with
    | published exchange key text outcome =>
      exact ⟨exchange, key, text, outcome, hc, hpublished exchange key text outcome hc⟩
    | received | acknowledged => cases hkind

end AlertRelay
