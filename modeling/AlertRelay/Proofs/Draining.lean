import AlertRelay.Proofs.Failures
import AlertRelay.Proofs.Overflow

/-! What a drain does to the outbox, the counters and the broker, and what a
delivery does that is taken in: where it stops depends on what the broker answers. -/

namespace AlertRelay

variable {σ : Type}

/-- The publish of an entry. -/
def Entry.call (e : Entry) (outcome : Outcome Unit) : Call :=
  .published e.exchange e.key e.alert.wire.toUTF8 outcome

/-- The publishes of `k` alerts were confirmed. -/
def Stats.confirm (s : Stats) (k : Nat) : Stats :=
  { s with published := s.published + k, hasPublished := s.hasPublished || decide (0 < k) }

namespace Stats

@[simp] theorem confirm_zero (s : Stats) : s.confirm 0 = s := by
  simp [confirm]

theorem confirm_succ (s : Stats) (k : Nat) : s.confirm (k + 1) = s.publish.confirm k := by
  simp [confirm, publish]
  omega

end Stats

namespace Backlog

/-- The first `k` entries were confirmed in order, and then the outbox was empty or
the next publish failed: how a drain ends, what it leaves, and its publishes. -/
inductive Drains (b : Backlog) (k : Nat) : Except RelayFailure Unit → Backlog → List Call → Prop
  | emptied (h : b.outbox.entries.length = k) :
      b.Drains k (.ok ()) ⟨{ b.outbox with entries := [] }, b.stats.confirm k⟩
        (b.outbox.entries.map (·.call (.ok ())))
  | refused {e : Entry} {rest : List Entry} {f : BrokerFailure}
      (h : b.outbox.entries.drop k = e :: rest) (hf : f.kind = .notDelivered) :
      b.Drains k (.ok ()) ⟨{ b.outbox with entries := e :: rest }, (b.stats.confirm k).refuse⟩
        ((b.outbox.entries.take k).map (·.call (.ok ())) ++ [e.call (.error f)])
  | failed {e : Entry} {rest : List Entry} {f : BrokerFailure}
      (h : b.outbox.entries.drop k = e :: rest) (hf : f.kind ≠ .notDelivered) :
      b.Drains k (.error (.broker f)) ⟨{ b.outbox with entries := e :: rest }, b.stats.confirm k⟩
        ((b.outbox.entries.take k).map (·.call (.ok ())) ++ [e.call (.error f)])

section Drains

variable {b b' : Backlog} {k capacity : Nat} {e : Entry} {rest : List Entry} {stats : Stats}
  {outcome : Except RelayFailure Unit} {attempts : List Call}

theorem Drains.cons (h : Drains ⟨⟨capacity, rest⟩, stats.publish⟩ k outcome b' attempts) :
    Drains ⟨⟨capacity, e :: rest⟩, stats⟩ (k + 1) outcome b' (e.call (.ok ()) :: attempts) := by
  cases h with
  | emptied hk =>
    rw [← Stats.confirm_succ]
    exact .emptied (congrArg (· + 1) hk)
  | refused hw hf =>
    rw [← Stats.confirm_succ]
    exact .refused (b := ⟨⟨capacity, e :: rest⟩, stats⟩) (k := k + 1) hw hf
  | failed hw hf =>
    rw [← Stats.confirm_succ]
    exact .failed (b := ⟨⟨capacity, e :: rest⟩, stats⟩) (k := k + 1) hw hf

theorem drains (l : Link σ) (b : Backlog) (r : Recorded σ) : ∃ k outcome b' attempts inner,
    b.drain l.recorded r = (outcome, b', ⟨inner, r.calls ++ attempts⟩) ∧ b.Drains k outcome b' attempts := by
  obtain ⟨⟨capacity, entries⟩, stats⟩ := b
  induction entries generalizing stats r with
  | nil =>
    refine ⟨0, .ok (), _, [], r.inner, ?_, .emptied rfl⟩
    simp [drain, drainEntries]
  | cons e rest ih =>
    have hpub := l.recorded_publish e.exchange e.key e.alert.wire.toUTF8 r
    rcases hp : l.publish e.exchange e.key e.alert.wire.toUTF8 r.inner with ⟨answer, t⟩
    rw [hp] at hpub
    cases answer with
    | ok u =>
      obtain ⟨k, outcome, b', attempts, inner, hd, hk⟩ := ih ⟨t, r.calls ++ [e.call (.ok ())]⟩ stats.publish
      refine ⟨k + 1, outcome, b', e.call (.ok ()) :: attempts, inner, ?_, hk.cons⟩
      have hconfirmed : l.recorded.Confirms ⟨⟨capacity, e :: rest⟩, stats⟩ r ⟨⟨capacity, rest⟩, stats.publish⟩ _ :=
        .next hpub (.none _ _)
      rw [hconfirmed.drain]
      refine hd.trans ?_
      rw [List.append_assoc, List.singleton_append]
    | error f =>
      have hstopped : drain l.recorded ⟨⟨capacity, e :: rest⟩, stats⟩ r = _ := drain_fails hpub
      by_cases hf : f.kind = .notDelivered
      · have hrefused := Drains.refused (b := ⟨⟨capacity, e :: rest⟩, stats⟩) (k := 0) rfl hf
        rw [Stats.confirm_zero] at hrefused
        rw [if_pos hf] at hstopped
        exact ⟨0, _, _, _, t, hstopped, hrefused⟩
      · have hfailed := Drains.failed (b := ⟨⟨capacity, e :: rest⟩, stats⟩) (k := 0) rfl hf
        rw [Stats.confirm_zero] at hfailed
        rw [if_neg hf] at hstopped
        exact ⟨0, _, _, _, t, hstopped, hfailed⟩

theorem Drains.le_length (h : b.Drains k outcome b' attempts) : k ≤ b.outbox.length := by
  cases h with
  | emptied h => exact h.ge
  | refused h hf | failed h hf =>
    have hlen := congrArg List.length h
    rw [List.length_drop, List.length_cons] at hlen
    unfold Outbox.length
    omega

theorem Drains.entries_eq (h : b.Drains k outcome b' attempts) :
    b'.outbox = { b.outbox with entries := b.outbox.entries.drop k } := by
  cases h with
  | emptied h => rw [List.drop_of_length_le h.le]
  | refused h hf | failed h hf => rw [h]

theorem Drains.attempts_le (h : b.Drains k outcome b' attempts) : attempts.length ≤ b.outbox.length := by
  have hk := h.le_length
  cases h with
  | emptied h => exact (List.length_map _).le
  | refused h hf | failed h hf =>
    have hlen := congrArg List.length h
    rw [List.length_drop, List.length_cons] at hlen
    simp only [List.length_append, List.length_map, List.length_take, List.length_singleton]
    unfold Outbox.length at *
    omega

/-- A drain publishes only what waits. -/
theorem Drains.attempts_mem (h : b.Drains k outcome b' attempts) {c : Call} (hc : c ∈ attempts) :
    ∃ e ∈ b.outbox.entries, ∃ answer, c = e.call answer := by
  cases h with
  | emptied h =>
    obtain ⟨e, he, rfl⟩ := List.mem_map.mp hc
    exact ⟨e, he, _, rfl⟩
  | refused h hf | failed h hf =>
    rcases List.mem_append.mp hc with hc | hc
    · obtain ⟨e, he, rfl⟩ := List.mem_map.mp hc
      exact ⟨e, List.mem_of_mem_take he, _, rfl⟩
    · rw [List.mem_singleton.mp hc]
      exact ⟨_, List.mem_of_mem_drop (h ▸ List.mem_cons_self), _, rfl⟩

/-- The first publish of a drain is that of the oldest entry. -/
theorem Drains.head (h : b.Drains k outcome b' attempts) (hrest : b.outbox.entries = e :: rest) :
    ∃ answer more, attempts = e.call answer :: more := by
  cases h with
  | emptied h => exact ⟨.ok (), _, by rw [hrest, List.map_cons]⟩
  | refused h hf | failed h hf =>
    cases k with
    | zero =>
      rw [List.drop_zero, hrest] at h
      obtain ⟨rfl, -⟩ := List.cons.inj h
      exact ⟨_, _, rfl⟩
    | succ k => exact ⟨_, _, by rw [hrest, List.take_succ_cons, List.map_cons, List.cons_append]⟩

/-- What still waits after a drain waits because the publish of its oldest entry failed,
and no publish of the drain came later. -/
theorem Drains.waiting (h : b.Drains k outcome b' attempts) : b'.outbox.entries = [] ∨
    ∃ e rest f earlier, b'.outbox.entries = e :: rest ∧ attempts = earlier ++ [e.call (.error f)] := by
  cases h with
  | emptied h => exact .inl rfl
  | refused h hf | failed h hf => exact .inr ⟨_, _, _, _, rfl, rfl⟩

/-- A drain takes in no messages and no alerts. -/
theorem Drains.counters (h : b.Drains k outcome b' attempts) : b'.stats.received = b.stats.received ∧
    b'.stats.acknowledged = b.stats.acknowledged ∧ b'.stats.buffered = b.stats.buffered ∧
    b'.stats.dropped = b.stats.dropped := by
  cases h <;> exact ⟨rfl, rfl, rfl, rfl⟩

end Drains

/-- A drain publishes the entries that wait, oldest first, each once, until a publish
fails. Those confirmed are gone and the others stay, and the next drain begins with
the oldest of them. -/
theorem drain_publishes_prefix (l : Link σ) (b : Backlog) (r : Recorded σ) :
    ∃ k outcome b' attempts inner,
      b.drain l.recorded r = (outcome, b', ⟨inner, r.calls ++ attempts⟩) ∧
      b.Drains k outcome b' attempts ∧ k ≤ b.outbox.length ∧ attempts.length ≤ b.outbox.length ∧
      b'.outbox = { b.outbox with entries := b.outbox.entries.drop k } ∧
      (b'.outbox.entries = [] ∨ ∃ e rest, b'.outbox.entries = e :: rest ∧ ∀ s : Recorded σ,
        ∃ answer more, (b'.drain l.recorded s).2.2.calls = s.calls ++ e.call answer :: more) := by
  obtain ⟨k, outcome, b', attempts, inner, hd, hk⟩ := drains l b r
  refine ⟨k, outcome, b', attempts, inner, hd, hk, hk.le_length, hk.attempts_le, hk.entries_eq, ?_⟩
  cases he : b'.outbox.entries with
  | nil => exact .inl rfl
  | cons e rest =>
    refine .inr ⟨e, rest, rfl, fun s => ?_⟩
    obtain ⟨_, _, _, again, _, hd', hk'⟩ := drains l b' s
    obtain ⟨answer, more, hmore⟩ := hk'.head he
    exact ⟨answer, more, by rw [hd', hmore]⟩

end Backlog

/-- What holds of an outbox from its creation on. -/
structure Outbox.Bounded (o : Outbox) : Prop where
  room : 0 < o.capacity
  fits : o.length ≤ o.capacity

theorem Outbox.bounded_new (capacity : Nat) : (Outbox.new capacity).Bounded :=
  ⟨Nat.lt_of_lt_of_le Nat.one_pos (Nat.le_max_right _ _), Nat.zero_le _⟩

theorem Outbox.Bounded.put {o : Outbox} (ho : o.Bounded) (e : Entry) : (o.put e).2.Bounded := by
  rw [put_newest ho.room ho.fits]
  refine ⟨ho.room, ?_⟩
  rw [length, length_newest]
  exact Nat.min_le_left _ _

namespace Backlog

variable {b : Backlog}

theorem put_stats (hb : b.outbox.Bounded) (e : Entry) : (b.put e).stats = { b.stats with
    buffered := b.stats.buffered + 1
    dropped := b.stats.dropped + (b.outbox.length + 1 - b.outbox.capacity) } := by
  have hroom := hb.room
  have hfits := hb.fits
  obtain ⟨⟨capacity, entries⟩, stats⟩ := b
  simp only [Outbox.length] at hroom hfits
  by_cases hf : capacity ≤ entries.length
  · have hone : entries.length + 1 - capacity = 1 := by omega
    cases entries with
    | nil => simp at hf; omega
    | cons old rest => simp only [put, Outbox.put, Outbox.isFull, Outbox.length, hf, hone, decide_true, if_true,
        List.head?_cons, Stats.drop, Stats.buffer]
  · have hnone : entries.length + 1 - capacity = 0 := by omega
    simp [put, Outbox.put, Outbox.isFull, Outbox.length, hf, hnone, Stats.buffer]

/-- Each entry that came in is counted, and each that had to go for one. -/
theorem foldl_put_stats (hb : b.outbox.Bounded) (es : List Entry) :
    (es.foldl put b).stats = { b.stats with
      buffered := b.stats.buffered + es.length
      dropped := b.stats.dropped + (b.outbox.length + es.length - b.outbox.capacity) } := by
  induction es generalizing b with
  | nil => simp [Nat.sub_eq_zero_of_le hb.fits]
  | cons e es ih =>
    have hput := (b.put_outbox e).trans (Outbox.put_newest hb.room hb.fits e)
    have hlen : (b.put e).outbox.length = min b.outbox.capacity (b.outbox.length + 1) := by
      rw [hput, Outbox.length, length_newest, List.length_append, List.length_singleton, Outbox.length]
    have hcapacity : (b.put e).outbox.capacity = b.outbox.capacity := by rw [hput]
    rw [List.foldl_cons, ih (b.put_outbox e ▸ hb.put e), put_stats hb, hlen, hcapacity]
    have hfits := hb.fits
    simp only [List.length_cons, Stats.mk.injEq, true_and, and_true]
    omega

end Backlog

theorem Rule.countMessage_eq (rule : Rule) (body : ByteArray) (s : Stats) : rule.countMessage body s = { s with
    received := s.received + 1
    rejected := s.rejected + if rule.rejects body then 1 else 0 } := by
  cases h : (rule.classify body).toOption <;> simp [countMessage, rejects, h, Stats.receive, Stats.reject]

theorem Backlog.accept_eq {b : Backlog} (hb : b.outbox.Bounded) (i : Intake) (d : Delivery) : b.accept i d =
    ⟨{ b.outbox with entries := newest b.outbox.capacity (b.outbox.entries ++ i.entries d.body) }, { b.stats with
      received := b.stats.received + 1
      acknowledged := b.stats.acknowledged + 1
      rejected := b.stats.rejected + if i.rule.rejects d.body then 1 else 0
      buffered := b.stats.buffered + (i.entries d.body).length
      dropped := b.stats.dropped + (b.outbox.length + (i.entries d.body).length - b.outbox.capacity) }⟩ := by
  have houtbox := foldl_put_outbox (b := ⟨b.outbox, (i.rule.countMessage d.body b.stats).acknowledge⟩)
    hb.room hb.fits (i.entries d.body)
  have hstats := foldl_put_stats (b := ⟨b.outbox, (i.rule.countMessage d.body b.stats).acknowledge⟩)
    hb (i.entries d.body)
  rw [i.rule.countMessage_eq] at houtbox hstats
  rw [accept, i.rule.countMessage_eq, ← houtbox]
  exact congrArg (Backlog.mk _) hstats

/-- A delivery that is not acknowledged is only counted. The alerts of one that is go
into the outbox, whose newest entries stay, and the outbox is drained. -/
theorem Intake.take_effect (i : Intake) (l : Link σ) (d : Delivery) {b : Backlog} (hb : b.outbox.Bounded)
    (r : Recorded σ) :
    let waiting := newest b.outbox.capacity (b.outbox.entries ++ i.entries d.body)
    let rejected := b.stats.rejected + if i.rule.rejects d.body then 1 else 0
    (∀ f t, l.ack d.tag r.inner = (.error f, t) →
      i.take l.recorded d b r = (.error (.broker f),
        ⟨b.outbox, { b.stats with received := b.stats.received + 1, rejected := rejected }⟩,
        ⟨t, r.calls ++ [.acknowledged d.tag (.error f)]⟩)) ∧
    ∀ t, l.ack d.tag r.inner = (.ok (), t) → ∃ k outcome b' attempts inner,
      i.take l.recorded d b r =
        (outcome, b', ⟨inner, r.calls ++ .acknowledged d.tag (.ok ()) :: attempts⟩) ∧
      Backlog.Drains ⟨{ b.outbox with entries := waiting }, { b.stats with
        received := b.stats.received + 1
        acknowledged := b.stats.acknowledged + 1
        rejected := rejected
        buffered := b.stats.buffered + (i.entries d.body).length
        dropped := b.stats.dropped + (b.outbox.length + (i.entries d.body).length - waiting.length) }⟩
        k outcome b' attempts := by
  intro waiting rejected
  have hack := l.recorded_ack d.tag r
  constructor
  · intro f t ha
    rw [ha] at hack
    rw [RelayState.take_error hack, Backlog.decline, i.rule.countMessage_eq]
  · intro t ha
    rw [ha] at hack
    rw [RelayState.take_ok hack]
    obtain ⟨k, outcome, b', attempts, inner, hd, hk⟩ := Backlog.drains l (b.accept i d) ⟨t, _⟩
    refine ⟨k, outcome, b', attempts, inner, ?_, ?_⟩
    · rw [hd, List.append_assoc, List.singleton_append]
    · have hdropped : b.outbox.length + (i.entries d.body).length - b.outbox.capacity =
          b.outbox.length + (i.entries d.body).length - waiting.length := by
        rw [length_newest, List.length_append, Outbox.length]
        omega
      rwa [Backlog.accept_eq hb, hdropped] at hk

/-- Two alerts for an outbox with room for one drive out the entry in it, and the
second of them the first. -/
theorem Intake.take_effect_overflowing :
    let first : Alert := .newRelease "repo" "one" "v1" 0 "p" "o"
    let second : Alert := .newRelease "repo" "two" "v2" 0 "p" "o"
    let i : Intake := ⟨⟨"pair", fun _ => .ok [first, second]⟩, "alert", "key"⟩
    let b : Backlog := ⟨⟨1, [i.entry first]⟩, {}⟩
    let r : Recorded Broker := ⟨{ connected := true, outstanding := [⟨1, "q", "k", ⟨#[]⟩⟩] }, []⟩
    b.outbox.Bounded ∧
    (∃ t, Broker.link.ack 2 r.inner = (.error (.unknownTag 2), t) ∧
      i.take Broker.link.recorded ⟨2, "k", "0".toUTF8⟩ b r = (.error (.broker (.unknownTag 2)),
        ⟨b.outbox, { received := 1 }⟩, ⟨t, [.acknowledged 2 (.error (.unknownTag 2))]⟩)) ∧
    ∃ t, Broker.link.ack 1 r.inner = (.ok (), t) ∧ ∃ k outcome b' attempts inner,
      i.take Broker.link.recorded ⟨1, "k", "0".toUTF8⟩ b r =
        (outcome, b', ⟨inner, .acknowledged 1 (.ok ()) :: attempts⟩) ∧
      Backlog.Drains ⟨⟨1, [i.entry second]⟩, { received := 1, acknowledged := 1, buffered := 2, dropped := 2 }⟩
        k outcome b' attempts := by
  intro first second i b r
  have hb : b.outbox.Bounded := ⟨by decide, by decide⟩
  have hread : (readJsonBytes? "0".toUTF8).isSome = true := by decide +kernel
  obtain ⟨payload, hpayload⟩ := Option.isSome_iff_exists.mp hread
  have hclassify : i.rule.classify "0".toUTF8 = .ok [first, second] := by
    simp only [Rule.classify, hpayload]
    rfl
  have hrejects : i.rule.rejects "0".toUTF8 = false := by rw [Rule.rejects, hclassify]; rfl
  have hentries : i.entries "0".toUTF8 = [i.entry first, i.entry second] := by
    rw [Intake.entries, Rule.alertsOf, hclassify]
    rfl
  refine ⟨hb, ⟨_, rfl, ?_⟩, ⟨_, rfl, ?_⟩⟩
  · have h := (Intake.take_effect i Broker.link ⟨2, "k", "0".toUTF8⟩ hb r).1 _ _ rfl
    rw [h, hrejects]
    rfl
  · obtain ⟨k, outcome, b', attempts, inner, htake, hk⟩ :=
      (Intake.take_effect i Broker.link ⟨1, "k", "0".toUTF8⟩ hb r).2 _ rfl
    rw [hrejects, hentries] at hk
    exact ⟨k, outcome, b', attempts, inner, htake, hk⟩

end AlertRelay
