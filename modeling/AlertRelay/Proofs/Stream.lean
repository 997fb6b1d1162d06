import AlertRelay.Proofs.Balance

/-! The stream of alerts that a relay passes on. If nobody else takes deliveries
from its queue, the alerts leave the relay in the order in which their messages
were routed to it. -/

namespace AlertRelay

namespace Tracked

/-- None of a queue's deliveries is outstanding, and the copies `ps`, which were
handed out before, come before all that are ready. -/
structure Ahead (queue : String) (ps : List (Nat × Copy)) (t : Tracked) : Prop where
  faithful : t.Faithful
  idle : copiesIn queue (t.ledger.outstanding.map (·.2)) = []
  issued : ps ⊆ t.ledger.issued
  home : ∀ p ∈ ps, p.2.queue = queue
  ordered : ((ps.map (·.2) ++ t.ledger.ready queue).map (·.number)).Pairwise (· < ·)

variable {queue : String} {ps : List (Nat × Copy)} {t : Tracked}

theorem ahead_fresh (queue : String) (keyFault : String → Option String) :
    (fresh keyFault).Ahead queue [] :=
  ⟨faithful_fresh keyFault, rfl, List.nil_subset _, by simp, List.Pairwise.nil⟩

theorem Ahead.mem_routed (h : t.Ahead queue ps) {c : Copy}
    (hc : c ∈ ps.map (·.2) ++ t.ledger.ready queue) : c ∈ t.ledger.routed := by
  rcases List.mem_append.mp hc with hc | hc
  · obtain ⟨p, hp, rfl⟩ := List.mem_map.mp hc
    exact h.faithful.valid.issuedRouted p (h.issued hp)
  · exact h.faithful.valid.mem_routed_of_line (List.mem_append_right _ hc)

/-- Movements leave the queue idle, unless one of its messages is handed out. -/
theorem Ahead.follow_idle (h : t.Ahead queue ps) {mov : Movement}
    (hm : ∀ tag, mov ≠ .handedOut tag queue) :
    copiesIn queue ((t.ledger.follow mov).outstanding.map (·.2)) = [] := by
  cases mov with
  | handedOut tag q =>
    cases hr : t.ledger.ready q with
    | nil => simpa only [Ledger.follow, hr] using h.idle
    | cons c rest =>
      have hc : c.queue = q := h.faithful.valid.home q c (by simp [hr])
      have hne : queue ≠ q := fun he => hm tag (by rw [he])
      have hother : copiesIn queue [c] = [] := copiesIn_of_ne (by simpa using hc) hne
      simp only [Ledger.follow, hr, List.map_append, copiesIn_append, h.idle, List.map_cons, List.map_nil,
        hother, List.append_nil]
  | acknowledged tag => exact copiesIn_filter h.idle _
  | requeued => rfl
  | _ => exact h.idle

theorem Ahead.follow_ordered (h : t.Ahead queue ps) {mov : Movement}
    (hm : ∀ tag, mov ≠ .handedOut tag queue) :
    ((ps.map (·.2) ++ (t.ledger.follow mov).ready queue).map (·.number)).Pairwise (· < ·) := by
  cases mov with
  | routed queues m =>
    simp only [Ledger.follow, ← List.append_assoc]
    exact h.faithful.valid.ordered_append queues m queue h.ordered fun c hc => h.mem_routed hc
  | handedOut tag q =>
    have hne : queue ≠ q := fun he => hm tag (by rw [he])
    cases hr : t.ledger.ready q with
    | nil => simpa only [Ledger.follow, hr] using h.ordered
    | cons c rest => simpa only [Ledger.follow, hr, Function.update_of_ne hne] using h.ordered
  | requeued => simpa only [Ledger.follow, h.idle, List.nil_append] using h.ordered
  | taken q =>
    refine h.ordered.sublist (List.Sublist.map _ ((List.Sublist.refl _).append ?_))
    by_cases hq : queue = q
    · simp [Ledger.follow, hq]
    · simp [Ledger.follow, hq]
  | _ => exact h.ordered

theorem Ahead.perform (h : t.Ahead queue ps) (op : BrokerOperation)
    (hop : ∀ tag, t.broker.movement op ≠ .handedOut tag queue) : (t.perform op).2.Ahead queue ps :=
  ⟨h.faithful.perform op, h.follow_idle hop,
    List.Subset.trans h.issued (t.perform_grows op).1.subset, h.home, h.follow_ordered hop⟩

theorem Ahead.other (h : t.Ahead queue ps) {op : BrokerOperation} (hop : op ≠ .nextDelivery queue) :
    (t.perform op).2.Ahead queue ps := by
  refine h.perform op fun tag hm => ?_
  rcases t.broker.movement_cases op with hc | ⟨_, _, hc, _⟩ | ⟨q, _, _, rfl, hc, _⟩ | ⟨_, _, hc, _⟩ |
    hc | ⟨_, hc⟩ <;> rw [hc] at hm <;> cases hm
  exact hop rfl

theorem Ahead.noDelivery (h : t.Ahead queue ps)
    (hno : ∀ d, (t.broker.nextDelivery queue).1 ≠ .ok (some d)) :
    (t.perform (.nextDelivery queue)).2.Ahead queue ps := by
  refine h.perform _ fun tag hm => ?_
  rcases ho : (t.broker.nextDelivery queue).1 with f | _ | d
  · simp [Broker.movement, ho] at hm
  · simp [Broker.movement, ho] at hm
  · exact hno d ho

/-- A delivery that the queue hands out is acknowledged at once, and its copy is
the next one. -/
theorem Ahead.settle (h : t.Ahead queue ps) {d : Delivery}
    (hd : (t.broker.nextDelivery queue).1 = .ok (some d)) :
    ((t.perform (.nextDelivery queue)).2.broker.ack d.tag).1 = .ok () ∧
    ∃ c, d = delivery (d.tag, c) ∧
      ((t.perform (.nextDelivery queue)).2.perform (.ack d.tag)).2.Ahead queue (ps ++ [(d.tag, c)]) := by
  obtain ⟨c, rest, hr, hdel, hconnected, hl⟩ := h.faithful.handedOut hd
  have hpulled := h.faithful.perform (.nextDelivery queue)
  -- nothing comes between the two: the connection is still up and the tag outstanding
  have hack : ((t.perform (.nextDelivery queue)).2.broker.ack d.tag).1 = .ok () := by
    refine Broker.ack_ok hconnected ⟨⟨d.tag, c.queue, c.message⟩, ?_, rfl⟩
    rw [hpulled.outstanding, hl]
    simp
  refine ⟨hack, c, hdel, ?_⟩
  have hm : (t.perform (.nextDelivery queue)).2.broker.movement (.ack d.tag) = .acknowledged d.tag := by
    simp [Broker.movement, hack]
  have hledger : ((t.perform (.nextDelivery queue)).2.perform (.ack d.tag)).2.ledger =
      (t.perform (.nextDelivery queue)).2.ledger.follow (.acknowledged d.tag) := by
    rw [← hm]
    rfl
  have hc : c.queue = queue := h.faithful.valid.home queue c (by simp [hr])
  refine ⟨hpulled.perform (.ack d.tag), ?_, ?_, ?_, ?_⟩
  · rw [hledger, hl]
    simp only [Ledger.follow, List.filter_append, List.map_append, copiesIn_append,
      copiesIn_filter h.idle, List.nil_append]
    simp [copiesIn]
  · rw [hledger, hl]
    exact List.append_subset.mpr ⟨fun p hp => List.mem_append_left _ (h.issued hp),
      List.subset_append_right _ _⟩
  · intro p hp
    rcases List.mem_append.mp hp with hp | hp
    · exact h.home p hp
    · rw [List.mem_singleton.mp hp]
      exact hc
  · have ho := h.ordered
    rw [hr] at ho
    rw [hledger, hl]
    simpa [Ledger.follow] using ho

end Tracked

abbrev OtherThan (queue : String) := {op : BrokerOperation // op ≠ .nextDelivery queue}

/-- Others use the broker, but they leave the deliveries of the queue alone. -/
def Tracked.others (queue : String) (o : OtherThan queue) (t : Tracked) : Tracked := (t.perform o.1).2

/-- Between two turns, the relay has acknowledged copies of its queue in order. -/
def RelayState.Streams (i : Intake) (capacity : Nat) (queue : String) (s : RelayState (Recorded Tracked)) :
    Prop :=
  s.pipeline.queue = queue ∧ ∃ ps : List (Nat × Copy), s.broker.inner.Ahead queue ps ∧
    (Account.of i capacity s.broker.calls).acknowledged = ps.map Tracked.delivery

theorem RelayState.streams_stays_under {ω : Type} {act : ω → Tracked → Tracked} (i : Intake) (capacity : Nat)
    (queue : String) (hact : ∀ o {ps t}, t.Ahead queue ps → (act o t).Ahead queue ps) :
    RelayState.Stays Tracked.link.recorded (Recorded.others act) (RelayState.Streams i capacity queue) where
  begin {s} h := by
    obtain ⟨hq, ps, ha, hds⟩ := h
    obtain ⟨phase, hb⟩ := s.begin_eq Tracked.link.recorded
    have hkeeps := Tracked.account_keeps i capacity (ps.map Tracked.delivery)
      (P := Tracked.Ahead queue ps) fun op hop ht => ht.other (hop queue)
    rw [hb]
    exact ⟨hq, ps, hkeeps.declare s.pipeline ⟨ha, hds⟩⟩
  consume {s} h := by
    obtain ⟨hq, ps, ha, hds⟩ := h
    rcases s.consume_cases Tracked.link.recorded with ⟨phase, n, c, hno, hc⟩ | ⟨d, phase, n, c, hd, hc⟩ <;>
      rw [hc]
    · refine ⟨hq, ps, ?_, ?_⟩
      · rw [hq] at hno ⊢
        exact ha.noDelivery hno
      · rw [Tracked.link.recorded_noDelivery hno]
        exact hds
    · rw [Tracked.link.recorded_delivery hd]
      rw [hq] at hd ⊢
      obtain ⟨hack, copy, hdel, hafter⟩ := ha.settle hd
      have hkeeps := Tracked.account_keeps i capacity ((ps ++ [(d.tag, copy)]).map Tracked.delivery)
        (P := Tracked.Ahead queue (ps ++ [(d.tag, copy)])) fun op hop ht => ht.other (hop queue)
      have hsettled := Account.of_settled i capacity s.broker.calls d d.tag (.ok ())
      rw [hds] at hsettled
      refine ⟨hq, ps ++ [(d.tag, copy)], hkeeps.take s.pipeline.intake d s.pipeline.backlog ⟨hafter, ?_⟩⟩
      change (Account.of i capacity (s.broker.calls ++ [.received d] ++ [.acknowledged d.tag
        ((s.broker.inner.perform (.nextDelivery queue)).2.broker.ack d.tag).1])).acknowledged = _
      rw [hack, hsettled, List.map_append, List.map_singleton, ← hdel]
  terminate {s} h := by
    obtain ⟨hq, ps, ha, hds⟩ := h
    have hkeeps := Tracked.account_keeps i capacity (ps.map Tracked.delivery)
      (P := Tracked.Ahead queue ps) fun op hop ht => ht.other (hop queue)
    exact ⟨hq, ps, hkeeps.terminate s.pipeline ⟨ha, hds⟩⟩
  mailbox m h := h
  meanwhile {s} o h := by
    obtain ⟨hq, ps, ha, hds⟩ := h
    exact ⟨hq, ps, hact o ha, hds⟩

theorem RelayState.streams_stays (i : Intake) (capacity : Nat) (queue : String) :
    RelayState.Stays Tracked.link.recorded (Recorded.others (Tracked.others queue))
      (RelayState.Streams i capacity queue) :=
  streams_stays_under i capacity queue fun o _ _ h => h.other o.2

/-- Whatever happens between the turns of a relay, as long as nobody else takes
deliveries from its queue: let the stream be the alerts of the messages that the
relay acknowledged, in the order in which these were routed to its queue. Then
the entries that left the outbox, in the order in which they left, followed by
those in it, are the stream. What was confirmed was sent as it is in the stream. -/
theorem Supervised.stream_in_order (keyFault : String → Option String) (delay : Nat) (settings : Settings)
    (rule : Rule) (schedule : List (Occurrence (OtherThan settings.inboundQueue))) :
    let recorded := (start settings rule ⟨Tracked.fresh keyFault, []⟩).run Tracked.link.recorded
      (Recorded.others (Tracked.others settings.inboundQueue)) delay schedule
    let relay := (start settings rule ({ keyFault := keyFault } : Broker)).run Broker.link
      (fun o b => (b.perform o.1).2) delay schedule
    let i := (Pipeline.ofSettings settings rule).intake
    let calls := recorded.state.broker.calls
    let a := Account.of i settings.bufferCapacity calls
    let tags := calls.filterMap Call.acknowledgedTag?
    let copies := recorded.state.broker.inner.ledger.under settings.inboundQueue tags
    let stream := (copies.flatMap fun c => rule.alertsOf c.message.body).map i.entry
    recorded.map (fun r => r.inner.broker) = relay ∧
    recorded.state.broker.inner.Faithful ∧
    copies.length = tags.length ∧
    relay.state.pipeline.backlog.outbox = a.outbox ∧
    stream = a.departed.map (·.entry) ++ a.outbox.entries ∧
    a.confirmed.Sublist stream ∧
    calls.filterMap Call.confirmed? =
      a.confirmed.map fun e => (settings.exchange, settings.outboundKey, e.alert.wire.toUTF8) := by
  intro recorded relay i calls a tags copies stream
  have hmap : recorded.map (fun r => r.inner.broker) = relay :=
    (run_map Tracked.link_lifts (fun _ _ => rfl) delay
      (start settings rule ⟨Tracked.fresh keyFault, []⟩) schedule).symm
  obtain ⟨-, hexplained⟩ := run_stays
    (RelayState.accountable_stays i settings.bufferCapacity Tracked.link
      (Tracked.others settings.inboundQueue)) delay
    (s := start settings rule ⟨Tracked.fresh keyFault, []⟩) ⟨rfl, explained_nil _ _⟩ schedule
  obtain ⟨-, ps, hahead, hds⟩ := run_stays
    (RelayState.streams_stays i settings.bufferCapacity settings.inboundQueue) delay
    (s := start settings rule ⟨Tracked.fresh keyFault, []⟩)
    ⟨rfl, [], Tracked.ahead_fresh settings.inboundQueue keyFault, rfl⟩ schedule
  have htags : tags = ps.map (·.1) := by
    refine hexplained.tags.trans ?_
    rw [hds, List.map_map]
    rfl
  have hordered : ((ps.map (·.2)).map (·.number)).Pairwise (· < ·) :=
    hahead.ordered.sublist ((List.sublist_append_left _ _).map _)
  have hcopies : copies = ps.map (·.2) := by
    have hunder := hahead.faithful.valid.under_eq hahead.issued hahead.home hordered
    rwa [← htags] at hunder
  have hstream : stream = a.departed.map (·.entry) ++ a.outbox.entries := by
    rw [(Account.of_kept i settings.bufferCapacity calls).entries]
    rw [hds]
    simp only [stream, hcopies, List.map_flatMap, List.flatMap_map]
    rfl
  have hsub : a.confirmed.Sublist stream := by
    rw [hstream]
    exact a.confirmed_sublist.trans (List.sublist_append_left _ _)
  refine ⟨hmap, hahead.faithful, ?_, ?_, hstream, hsub, ?_⟩
  · rw [hcopies, htags, List.length_map, List.length_map]
  · rw [← hmap]
    exact hexplained.account.outbox
  · refine hexplained.sent.trans (List.map_congr_left fun e he => ?_)
    obtain ⟨alert, _, rfl⟩ := List.mem_map.mp (hsub.subset he)
    rfl

end AlertRelay
