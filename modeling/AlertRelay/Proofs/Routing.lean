import AlertRelay.Proofs.Conservation
import Mathlib.Data.Set.Card

/-! Where a message goes that is routed through an exchange: to the end of each
queue with a binding that accepts its key, once, and nowhere if its publish fails. -/

namespace AlertRelay

namespace Broker

variable {b c : Broker} {exchange : String} {kind : ExchangeKind} {m : Message} {n : Nat}

/-- Some binding of the queue to the exchange accepts the routing key. -/
def Binds (b : Broker) (exchange : String) (kind : ExchangeKind) (key queue : String) : Prop :=
  ∃ x ∈ b.bindings, x.exchange = exchange ∧ x.queue = queue ∧ kind.accepts x.key key = true

/-- A message came to `n` queues, and nothing else happened. -/
structure Routed (b c : Broker) (exchange : String) (kind : ExchangeKind) (m : Message) (n : Nat) : Prop where
  bound : ∀ queue, b.Binds exchange kind m.key queue →
    ∃ ms, b.queues.get? queue = some ms ∧ c.queues.get? queue = some (ms ++ [m])
  others : ∀ queue, ¬ b.Binds exchange kind m.key queue → c.queues.get? queue = b.queues.get? queue
  received : {queue | c.queues.get? queue ≠ b.queues.get? queue}.encard = n
  rest : { c with queues := b.queues, wakeUps := b.wakeUps } = b

theorem mem_reached_iff (he : b.exchanges.get? exchange = some kind) (key queue : String) :
    queue ∈ b.reached exchange key ↔ b.Binds exchange kind key queue := by
  simp only [reached, he, targets, List.mem_eraseDups, List.mem_map, List.mem_filter, Bool.and_eq_true,
    decide_eq_true_eq, Binds]
  constructor
  · rintro ⟨x, ⟨hx, hexchange, hkey⟩, hqueue⟩
    exact ⟨x, hx, hexchange, hqueue, hkey⟩
  · rintro ⟨x, hx, hexchange, hqueue, hkey⟩
    exact ⟨x, ⟨hx, hexchange, hkey⟩, hqueue⟩

theorem Routed.wake (h : b.Routed c exchange kind m n) : b.Routed c.wake exchange kind m n :=
  ⟨h.bound, h.others, h.received, h.rest⟩

/-- The number of queues is the number of those that changed: all that are bound exist. -/
theorem Sound.routed (hb : b.Sound) (he : b.exchanges.get? exchange = some kind) (m : Message) :
    b.Routed (b.route exchange m.key m.body).2 exchange kind m (b.reached exchange m.key).length := by
  have hnodup := b.reached_nodup exchange m.key
  have hget : ∀ queue, (b.route exchange m.key m.body).2.queues.get? queue =
      if queue ∈ b.reached exchange m.key then (b.queues.get? queue).map (· ++ [m])
      else b.queues.get? queue := by
    intro queue
    rw [route_ok he]
    exact Table.get?_foldl_update _ hnodup _ b.queues queue
  have hexists : ∀ queue ∈ b.reached exchange m.key, ∃ ms, b.queues.get? queue = some ms :=
    fun queue hq => Option.isSome_iff_exists.mp (hb.has_of_reached hq)
  refine ⟨fun queue hs => ?_, fun queue hs => ?_, ?_, ?_⟩
  · have hq := (mem_reached_iff he m.key queue).mpr hs
    obtain ⟨ms, hms⟩ := hexists queue hq
    exact ⟨ms, hms, by rw [hget, if_pos hq, hms, Option.map_some]⟩
  · have hq : queue ∉ b.reached exchange m.key := fun hq => hs ((mem_reached_iff he m.key queue).mp hq)
    rw [hget, if_neg hq]
  · have hchanged : {queue | (b.route exchange m.key m.body).2.queues.get? queue ≠ b.queues.get? queue} =
        ((b.reached exchange m.key).toFinset : Set String) := by
      ext queue
      simp only [Set.mem_ofPred_eq, List.coe_toFinset, hget]
      by_cases hq : queue ∈ b.reached exchange m.key
      · obtain ⟨ms, hms⟩ := hexists queue hq
        simp [hq, hms]
      · simp [hq]
    rw [hchanged, Set.encard_coe_eq_coe_finsetCard, List.toFinset_card_of_nodup hnodup]
  · rw [route_ok he]

theorem Sound.performAll (hb : b.Sound) (ops : List BrokerOperation) : (b.performAll ops).Sound := by
  induction ops generalizing b with
  | nil => exact hb
  | cons op ops ih => exact ih (perform_sound hb op)

/-- Whatever was done to a broker that nobody has used: a message that is routed
through an exchange, by a producer from outside or by a publish that no failure
awaits, comes to the end of each queue with a binding that accepts its key, once
however many of its bindings do. The number that is returned is that of the queues
that got it, and the publish succeeds if and only if there is one. A publish that
fails, for whatever reason, leaves the queues alone. -/
theorem routed_once_to_each (keyFault : String → Option String) (ops : List BrokerOperation)
    (exchange key : String) (body : ByteArray) :
    let b := ({ keyFault := keyFault } : Broker).performAll ops
    (∀ kind, b.exchanges.get? exchange = some kind →
      (∃ n c, b.inject exchange key body = (.ok n, c) ∧ b.Routed c exchange kind ⟨key, body⟩ n) ∧
      (b.connected = true → b.publishFaults = [] → ∃ n c, b.Routed c exchange kind ⟨key, body⟩ n ∧
        (b.publish exchange key body = (.ok (), c) ∧ 0 < n ∨
          b.publish exchange key body = (.error (.unroutable exchange key), c) ∧ n = 0))) ∧
    ∀ f c, b.publish exchange key body = (.error f, c) → { c with publishFaults := b.publishFaults } = b := by
  intro b
  have hb : b.Sound := (sound_fresh keyFault).performAll ops
  refine ⟨fun kind he => ⟨?_, fun hc hf => ?_⟩, fun f c hfail => ?_⟩
  · exact ⟨_, _, inject_ok he key body, (hb.routed he ⟨key, body⟩).wake⟩
  · have hrouted := hb.routed he ⟨key, body⟩
    rw [publish_routed hc hf he]
    by_cases hn : (b.reached exchange key).length = 0
    · exact ⟨_, _, hrouted, .inr ⟨if_pos hn, hn⟩⟩
    · exact ⟨_, _, hrouted.wake, .inl ⟨if_neg hn, Nat.pos_of_ne_zero hn⟩⟩
  · rcases b.publish_cases exchange key body with ⟨g, faults, hp⟩ | ⟨_, _, _, hp⟩ <;> rw [hp] at hfail <;> cases hfail
    rfl

/-- A queue with two bindings that accept the key gets the message once; a key that
no binding accepts reaches nothing. -/
theorem routed_once_to_each_twice_bound :
    let ops : List BrokerOperation :=
      [.connect, .declareExchange "alert" .topic, .declareQueue "q", .declareQueue "r",
        .bindQueue "q" "alert" "a.*", .bindQueue "q" "alert" "#.x", .bindQueue "r" "alert" "b"]
    let b := ({} : Broker).performAll ops
    b.exchanges.get? "alert" = some .topic ∧ b.connected = true ∧ b.publishFaults = [] ∧
    (∃ n c, b.inject "alert" "a.x" ⟨#[]⟩ = (.ok n, c) ∧ b.Routed c "alert" .topic ⟨"a.x", ⟨#[]⟩⟩ n) ∧
    (∃ n c, b.Routed c "alert" .topic ⟨"a.x", ⟨#[]⟩⟩ n ∧
      (b.publish "alert" "a.x" ⟨#[]⟩ = (.ok (), c) ∧ 0 < n ∨
        b.publish "alert" "a.x" ⟨#[]⟩ = (.error (.unroutable "alert" "a.x"), c) ∧ n = 0)) ∧
    (b.publish "alert" "c" ⟨#[]⟩).1 = .error (.unroutable "alert" "c") ∧
    { (b.publish "alert" "c" ⟨#[]⟩).2 with publishFaults := b.publishFaults } = b := by
  intro ops b
  have he : b.exchanges.get? "alert" = some .topic := by decide +kernel
  have hc : b.connected = true := by decide +kernel
  have hf : b.publishFaults = [] := by decide +kernel
  have hfail : (b.publish "alert" "c" ⟨#[]⟩).1 = .error (.unroutable "alert" "c") := by decide +kernel
  obtain ⟨hinject, hpublish⟩ := (routed_once_to_each (fun _ => none) ops "alert" "a.x" ⟨#[]⟩).1 .topic he
  have hsame := (routed_once_to_each (fun _ => none) ops "alert" "c" ⟨#[]⟩).2 _ _ (Prod.ext hfail rfl)
  exact ⟨he, hc, hf, hinject, hpublish hc hf, hfail, hsame⟩

end Broker

end AlertRelay
