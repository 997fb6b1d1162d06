import AlertRelay.Proofs.Outcomes

/-! Brokers in good order. Every operation keeps them so. -/

namespace AlertRelay

/-- Bindings and outstanding deliveries name queues and exchanges that exist, and
tags are given out in ascending order. -/
structure Broker.Sound (b : Broker) : Prop where
  queueOfBinding : ∀ x ∈ b.bindings, b.queues.has x.queue = true
  exchangeOfBinding : ∀ x ∈ b.bindings, b.exchanges.has x.exchange = true
  queueOfOutstanding : ∀ o ∈ b.outstanding, b.queues.has o.queue = true
  ascending : (b.outstanding.map (·.tag)).Pairwise (· < ·)
  issued : ∀ o ∈ b.outstanding, o.tag ≤ b.lastTag

namespace Broker

theorem sound_fresh (keyFault : String → Option String) : Sound { keyFault := keyFault } :=
  ⟨by simp, by simp, by simp, List.Pairwise.nil, by simp⟩

theorem Sound.one_of_tag {b : Broker} (hb : b.Sound) {tag : Nat}
    (h : ∃ o ∈ b.outstanding, o.tag = tag) : (b.outstanding.filter (·.tag = tag)).length = 1 := by
  have hmem : tag ∈ b.outstanding.map (·.tag) := List.mem_map.mpr h
  have hc := List.count_eq_one_of_mem (hb.ascending.imp Nat.ne_of_lt) hmem
  rw [List.count_eq_countP, List.countP_map, List.countP_eq_length_filter] at hc
  simpa [Function.comp_def, beq_eq_decide] using hc

theorem Sound.has_of_reached {b : Broker} (hb : b.Sound) {exchange key queue : String}
    (h : queue ∈ b.reached exchange key) : b.queues.has queue = true := by
  unfold reached at h
  split at h
  · simp at h
  · simp only [targets, List.mem_eraseDups, List.mem_map, List.mem_filter] at h
    obtain ⟨x, ⟨hx, _⟩, rfl⟩ := h
    exact hb.queueOfBinding x hx

theorem route_sound {b : Broker} (hb : b.Sound) (exchange key : String) (body : ByteArray) :
    (b.route exchange key body).2.wake.Sound := by
  rcases route_cases exchange key body b with ⟨_, h⟩ | h
  · rw [h]
    exact ⟨hb.1, hb.2, hb.3, hb.4, hb.5⟩
  · rw [h]
    refine ⟨?_, hb.2, ?_, hb.4, hb.5⟩
    · intro x hx
      simpa only [wake, Table.has_foldl_update] using hb.queueOfBinding x hx
    · intro o ho
      simpa only [wake, Table.has_foldl_update] using hb.queueOfOutstanding o ho

theorem handOut_sound {b : Broker} (hb : b.Sound) {queue : String} {m : Message}
    {rest : List Message} (hq : b.queues.has queue = true) : (b.handOut queue m rest).Sound where
  queueOfBinding x hx := by simpa [handOut] using hb.queueOfBinding x hx
  exchangeOfBinding := hb.exchangeOfBinding
  queueOfOutstanding o ho := by
    simp only [handOut, List.mem_append, List.mem_singleton] at ho
    rcases ho with ho | rfl
    · simpa [handOut] using hb.queueOfOutstanding o ho
    · simpa [handOut] using hq
  ascending := by
    simp only [handOut, List.map_append, List.map_cons, List.map_nil, List.pairwise_append]
    refine ⟨hb.ascending, List.pairwise_singleton _ _, ?_⟩
    intro t ht u hu
    obtain ⟨o, ho, rfl⟩ := List.mem_map.mp ht
    have hi := hb.issued o ho
    simp only [List.mem_singleton] at hu
    omega
  issued o ho := by
    simp only [handOut, List.mem_append, List.mem_singleton] at ho
    rcases ho with ho | rfl
    · exact Nat.le_succ_of_le (hb.issued o ho)
    · exact Nat.le_refl _

theorem get?_putBack (os : List Outstanding) (queues : Table (List Message)) (queue : String) :
    (os.foldr putBack queues).get? queue =
      (queues.get? queue).map (((os.filter (·.queue = queue)).map (·.message)) ++ ·) := by
  induction os with
  | nil => simp
  | cons o os ih =>
    rw [List.foldr_cons, putBack, Table.get?_update, ih]
    by_cases h : queue = o.queue
    · subst h
      simp [Function.comp_def]
    · simp [h, Ne.symm h]

theorem has_putBack (os : List Outstanding) (queues : Table (List Message)) (queue : String) :
    (os.foldr putBack queues).has queue = queues.has queue := by
  simp [Table.has, get?_putBack]

theorem disconnect_sound {b : Broker} (hb : b.Sound) : b.disconnect.Sound where
  queueOfBinding x hx := by simpa [disconnect, wake, has_putBack] using hb.queueOfBinding x hx
  exchangeOfBinding := hb.exchangeOfBinding
  queueOfOutstanding := by simp [disconnect, wake]
  ascending := List.Pairwise.nil
  issued := by simp [disconnect, wake]

theorem perform_sound {b : Broker} (hb : b.Sound) (op : BrokerOperation) : (b.perform op).2.Sound := by
  cases op with
  | connect => exact ⟨hb.1, hb.2, hb.3, hb.4, hb.5⟩
  | declareExchange name kind =>
    rcases b.declareExchange_cases name kind with ⟨f, h⟩ | ⟨_, h⟩ | ⟨_, h⟩
    · simpa only [perform, Prod.map, h, id_eq] using hb
    · simpa only [perform, Prod.map, h, id_eq] using hb
    · simp only [perform, Prod.map, h]
      exact ⟨hb.1, fun x hx => Table.has_insertNew_of_has _ _ (hb.exchangeOfBinding x hx),
        hb.3, hb.4, hb.5⟩
  | declareQueue name =>
    simp only [perform, declareQueue, whenConnected]
    split
    · exact ⟨fun x hx => Table.has_insertNew_of_has _ _ (hb.queueOfBinding x hx), hb.2,
        fun o ho => Table.has_insertNew_of_has _ _ (hb.queueOfOutstanding o ho), hb.4, hb.5⟩
    · exact hb
  | bindQueue queue exchange key =>
    rcases b.bindQueue_cases queue exchange key with ⟨r, h⟩ | ⟨hq, he, _, h⟩
    · simpa only [perform, Prod.map, h, id_eq] using hb
    · simp only [perform, Prod.map, h]
      refine ⟨?_, ?_, hb.3, hb.4, hb.5⟩ <;>
        intro x hx <;> rcases List.mem_append.mp hx with hx | hx
      · exact hb.queueOfBinding x hx
      · rw [List.mem_singleton.mp hx]
        exact hq
      · exact hb.exchangeOfBinding x hx
      · rw [List.mem_singleton.mp hx]
        exact he
  | setPrefetch count =>
    simp only [perform, setPrefetch, whenConnected]
    split <;> exact ⟨hb.1, hb.2, hb.3, hb.4, hb.5⟩
  | confirmDelivery =>
    simp only [perform, confirmDelivery, whenConnected]
    split <;> exact ⟨hb.1, hb.2, hb.3, hb.4, hb.5⟩
  | nextDelivery queue =>
    rcases b.nextDelivery_cases queue with ⟨f, faults, h⟩ | h | ⟨m, rest, _, hq, h⟩
    · simp only [perform, Prod.map, h]
      exact ⟨hb.1, hb.2, hb.3, hb.4, hb.5⟩
    · simpa only [perform, Prod.map, h, id_eq] using hb
    · simp only [perform, Prod.map, h]
      exact handOut_sound hb (by simp [Table.has, hq])
  | ack tag =>
    rcases b.ack_cases tag with ⟨f, h⟩ | ⟨_, _, h⟩
    · simpa only [perform, Prod.map, h, id_eq] using hb
    · simp only [perform, Prod.map, h]
      have hsub : (b.outstanding.filter (·.tag ≠ tag)).Sublist b.outstanding := List.filter_sublist
      exact ⟨hb.1, hb.2, fun o ho => hb.queueOfOutstanding o (hsub.subset ho),
        hb.ascending.sublist (hsub.map _), fun o ho => hb.issued o (hsub.subset ho)⟩
  | publish exchange key body =>
    rcases b.publish_cases exchange key body with ⟨f, faults, h⟩ | ⟨_, _, _, h⟩
    · simp only [perform, Prod.map, h]
      exact ⟨hb.1, hb.2, hb.3, hb.4, hb.5⟩
    · simp only [perform, Prod.map, h]
      exact route_sound hb exchange key body
  | close => exact disconnect_sound hb
  | inject exchange key body =>
    rcases b.inject_cases exchange key body with ⟨f, h⟩ | h
    · simpa only [perform, Prod.map, h, id_eq] using hb
    · simp only [perform, Prod.map, h]
      exact route_sound hb exchange key body
  | failPublish fault => exact ⟨hb.1, hb.2, hb.3, hb.4, hb.5⟩
  | failDelivery fault => exact ⟨hb.1, hb.2, hb.3, hb.4, hb.5⟩
  | disconnect => exact disconnect_sound hb
  | takeMessages queue =>
    refine ⟨fun x hx => ?_, hb.2, fun o ho => ?_, hb.4, hb.5⟩
    · simpa [perform, takeMessages] using hb.queueOfBinding x hx
    · simpa [perform, takeMessages] using hb.queueOfOutstanding o ho

end Broker

end AlertRelay
