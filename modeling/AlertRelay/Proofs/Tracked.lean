import AlertRelay.Proofs.Ledger
import AlertRelay.Relay.Link

/-! A broker beside the ledger of its messages. -/

namespace AlertRelay

structure Tracked where
  broker : Broker
  ledger : Ledger := {}

namespace Tracked

def perform (op : BrokerOperation) (t : Tracked) : BrokerReply × Tracked :=
  ((t.broker.perform op).1,
    ⟨(t.broker.perform op).2, t.ledger.follow (t.broker.movement op)⟩)

def performAll (ops : List BrokerOperation) (t : Tracked) : Tracked :=
  ops.foldl (fun t op => (t.perform op).2) t

/-- A broker that nobody has used, with a pattern library. -/
def fresh (keyFault : String → Option String) : Tracked := ⟨{ keyFault := keyFault }, {}⟩

/-- The broker is sound and has the messages that its ledger lists. -/
structure Faithful (t : Tracked) : Prop where
  sound : t.broker.Sound
  agrees : t.broker.stock = t.ledger.stock
  valid : t.ledger.Valid t.broker.lastTag
  acked : t.broker.acked = t.ledger.acknowledged.length

theorem faithful_fresh (keyFault : String → Option String) : (fresh keyFault).Faithful where
  sound := Broker.sound_fresh keyFault
  agrees := rfl
  valid := Ledger.valid_empty
  acked := rfl

theorem Faithful.messages {t : Tracked} (h : t.Faithful) (queue : String) :
    t.broker.messages queue = (t.ledger.ready queue).map (·.message) :=
  congrArg (fun s : Stock => s.ready queue) h.agrees

theorem Faithful.outstanding {t : Tracked} (h : t.Faithful) :
    t.broker.outstanding = t.ledger.outstanding.map fun p => ⟨p.1, p.2.queue, p.2.message⟩ :=
  congrArg Stock.outstanding h.agrees

theorem Faithful.one_of_tag {t : Tracked} (h : t.Faithful) {tag : Nat}
    (ho : ∃ o ∈ t.broker.outstanding, o.tag = tag) :
    (t.ledger.outstanding.filter (·.1 = tag)).length = 1 := by
  have hone := h.sound.one_of_tag ho
  rw [h.outstanding, List.filter_map, List.length_map] at hone
  simpa [Function.comp_def] using hone

theorem Faithful.follow_agrees {t : Tracked} (h : t.Faithful) (op : BrokerOperation) :
    (t.broker.perform op).2.stock = (t.ledger.follow (t.broker.movement op)).stock := by
  rw [Broker.perform_stock h.sound op, h.agrees]
  refine (t.ledger.follow_stock ?_ (fun _ queue _ => h.valid.home queue)).symm
  intro queues m hm
  rcases t.broker.movement_cases op with hc | ⟨_, _, hc, hn⟩ | ⟨_, _, _, _, hc, _⟩ | ⟨_, _, hc, _⟩ |
    hc | ⟨_, hc⟩ <;> rw [hc] at hm <;> cases hm
  exact hn

theorem Faithful.follow_valid {t : Tracked} (h : t.Faithful) (op : BrokerOperation) :
    (t.ledger.follow (t.broker.movement op)).Valid (t.broker.perform op).2.lastTag := by
  rw [(t.broker.perform_counters op).1]
  rcases t.broker.movement_cases op with hc | ⟨queues, m, hc, _⟩ | ⟨queue, _, _, _, hc, _⟩ |
    ⟨tag, _, hc, _⟩ | hc | ⟨queue, hc⟩ <;> rw [hc]
  · exact h.valid
  · exact h.valid.routed queues m
  · exact h.valid.handedOut queue
  · exact h.valid.acknowledged tag
  · exact h.valid.requeued
  · exact h.valid.taken queue

theorem Faithful.follow_acked {t : Tracked} (h : t.Faithful) (op : BrokerOperation) :
    (t.broker.perform op).2.acked =
      (t.ledger.follow (t.broker.movement op)).acknowledged.length := by
  rw [(t.broker.perform_counters op).2, h.acked]
  rcases t.broker.movement_cases op with hc | ⟨_, _, hc, _⟩ | ⟨queue, _, _, _, hc, _⟩ |
    ⟨tag, _, hc, ho⟩ | hc | ⟨_, hc⟩ <;> rw [hc]
  · rfl
  · rfl
  · cases hr : t.ledger.ready queue <;> simp [Ledger.follow, hr]
  · simp [Ledger.follow, h.one_of_tag ho]
  · rfl
  · rfl

theorem Faithful.perform {t : Tracked} (h : t.Faithful) (op : BrokerOperation) :
    (t.perform op).2.Faithful :=
  ⟨Broker.perform_sound h.sound op, h.follow_agrees op, h.follow_valid op, h.follow_acked op⟩

theorem Faithful.performAll {t : Tracked} (h : t.Faithful) (ops : List BrokerOperation) :
    (t.performAll ops).Faithful := by
  induction ops generalizing t with
  | nil => exact h
  | cons op ops ih => exact ih (h.perform op)

/-- What was issued stays issued, and what was acknowledged stays acknowledged. -/
theorem perform_grows (t : Tracked) (op : BrokerOperation) :
    t.ledger.issued.Sublist (t.perform op).2.ledger.issued ∧
      t.ledger.acknowledged.Sublist (t.perform op).2.ledger.acknowledged := by
  change t.ledger.issued.Sublist (t.ledger.follow (t.broker.movement op)).issued ∧
    t.ledger.acknowledged.Sublist (t.ledger.follow (t.broker.movement op)).acknowledged
  cases t.broker.movement op with
  | handedOut tag queue =>
    simp only [Ledger.follow]
    split
    · exact ⟨List.Sublist.refl _, List.Sublist.refl _⟩
    · exact ⟨List.sublist_append_left _ _, List.Sublist.refl _⟩
  | acknowledged tag => exact ⟨List.Sublist.refl _, List.sublist_append_left _ _⟩
  | _ => exact ⟨List.Sublist.refl _, List.Sublist.refl _⟩

def delivery (p : Nat × Copy) : Delivery := ⟨p.1, p.2.message.key, p.2.message.body⟩

/-- A delivery that is handed out is the oldest ready copy of its queue. -/
theorem Faithful.handedOut {t : Tracked} (h : t.Faithful) {queue : String} {d : Delivery}
    (hd : (t.broker.nextDelivery queue).1 = .ok (some d)) :
    ∃ c rest, t.ledger.ready queue = c :: rest ∧ d = delivery (d.tag, c) ∧
      (t.perform (.nextDelivery queue)).2.broker.connected = true ∧
      (t.perform (.nextDelivery queue)).2.ledger =
        { t.ledger with
          ready := Function.update t.ledger.ready queue rest
          outstanding := t.ledger.outstanding ++ [(d.tag, c)]
          issued := t.ledger.issued ++ [(d.tag, c)] } := by
  have hm : t.broker.movement (.nextDelivery queue) = .handedOut d.tag queue := by
    simp [Broker.movement, hd]
  rcases t.broker.nextDelivery_cases queue with ⟨f, faults, hn⟩ | hn | ⟨m, rest, hc, hq, hn⟩
  · rw [hn] at hd
    cases hd
  · rw [hn] at hd
    cases hd
  · rw [hn] at hd
    cases hd
    have hmsg := h.messages queue
    rw [Broker.messages_of_get? hq] at hmsg
    cases hr : t.ledger.ready queue with
    | nil => simp [hr] at hmsg
    | cons c cs =>
      rw [hr, List.map_cons, List.cons.injEq] at hmsg
      refine ⟨c, cs, rfl, by rw [delivery, hmsg.1], ?_, by simp only [Tracked.perform, hm, Ledger.follow, hr]⟩
      simp only [Tracked.perform, Broker.perform, Prod.map, hn]
      exact hc

/-- An acknowledgement that succeeds is of one copy that was issued under its tag. -/
theorem Faithful.ackOk {t : Tracked} (h : t.Faithful) {tag : Nat}
    (ha : (t.broker.ack tag).1 = .ok ()) :
    ∃ c, (tag, c) ∈ t.ledger.outstanding ∧
      (t.perform (.ack tag)).2.ledger.acknowledged = t.ledger.acknowledged ++ [(tag, c)] := by
  have hm : t.broker.movement (.ack tag) = .acknowledged tag := by simp [Broker.movement, ha]
  rcases t.broker.ack_cases tag with ⟨f, hf⟩ | ⟨_, ho, _⟩
  · rw [hf] at ha
    cases ha
  · obtain ⟨p, hp⟩ := List.length_eq_one_iff.mp (h.one_of_tag ho)
    have hmem : p ∈ t.ledger.outstanding.filter (·.1 = tag) := by simp [hp]
    obtain ⟨hout, htag⟩ := List.mem_filter.mp hmem
    obtain ⟨n, c⟩ := p
    have hn : n = tag := of_decide_eq_true htag
    subst hn
    exact ⟨c, hout, by simp only [Tracked.perform, hm, Ledger.follow, hp]⟩

end Tracked

end AlertRelay
