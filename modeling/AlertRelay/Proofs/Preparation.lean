import AlertRelay.Proofs.Effects
import AlertRelay.Proofs.Routing
import AlertRelay.Proofs.Topology

/-! A relay that begins anew, with messages ready and outstanding from before. What it
declares exists already or is new; nothing else of the broker changes, and to begin once
more changes nothing. -/

namespace AlertRelay

namespace Broker

section Bindings

variable {b c : Broker} {op : BrokerOperation}

theorem Effect.bindings (h : b.Effect op c) (hop : ∀ queue exchange key, op ≠ .bindQueue queue exchange key) :
    c.bindings = b.bindings := by
  cases h with
  | bound new => exact absurd rfl (hop _ _ _)
  | _ => rfl

theorem Effect.keyFault (h : b.Effect op c) : c.keyFault = b.keyFault := by
  cases h <;> rfl

/-- A binding is added only if it is new. -/
theorem perform_bindings (b : Broker) (op : BrokerOperation) : (b.perform op).2.bindings = b.bindings ∨
    ∃ new, new ∉ b.bindings ∧ (b.perform op).2.bindings = b.bindings ++ [new] := by
  have heffect := b.perform_effect op
  cases op with
  | bindQueue queue exchange key =>
    rcases b.bindQueue_cases queue exchange key with ⟨r, h⟩ | ⟨_, _, hn, h⟩
    · exact .inl (by simp only [perform, Prod.map, h, id])
    · exact .inr ⟨_, hn, by simp only [perform, Prod.map, h, id]⟩
  | _ => exact .inl (heffect.bindings fun _ _ _ he => by cases he)

theorem performAll_bindings (hb : b.bindings.Nodup) (ops : List BrokerOperation) :
    (b.performAll ops).bindings.Nodup := by
  refine List.foldlRecOn (motive := fun c : Broker => c.bindings.Nodup) ops _ hb fun c hc op _ => ?_
  rcases c.perform_bindings op with h | ⟨new, hn, h⟩ <;> rw [h]
  · exact hc
  · rw [← List.concat_eq_append]
    exact hc.concat hn

theorem performAll_keyFault (b : Broker) (ops : List BrokerOperation) :
    (b.performAll ops).keyFault = b.keyFault :=
  List.foldlRecOn (motive := fun c : Broker => c.keyFault = b.keyFault) ops _ rfl
    fun c hc op _ => (c.perform_effect op).keyFault.trans hc

end Bindings

/-- A broker after a relay with these settings has begun: all that it needs is there,
and the rest is as before. -/
structure Readied (b c : Broker) (s : Settings) : Prop where
  connected : c.connected = true
  exchange : c.exchanges.get? s.exchange = some .topic
  queue : c.queues.has s.inboundQueue = true
  bound : c.bindings.count ⟨s.inboundQueue, s.exchange, s.inboundKey⟩ = 1
  prefetch : c.prefetch = some s.prefetch
  confirms : c.confirms = true
  messages : ∀ queue, c.messages queue = b.messages queue
  outstanding : c.outstanding = b.outstanding
  acked : c.acked = b.acked
  otherExchanges : ∀ name, name ≠ s.exchange → c.exchanges.get? name = b.exchanges.get? name
  otherQueues : ∀ name, name ≠ s.inboundQueue → c.queues.get? name = b.queues.get? name
  otherBindings : c.bindings.filter (· ≠ ⟨s.inboundQueue, s.exchange, s.inboundKey⟩) =
    b.bindings.filter (· ≠ ⟨s.inboundQueue, s.exchange, s.inboundKey⟩)
  publishFaults : c.publishFaults = b.publishFaults
  deliveryFaults : c.deliveryFaults = b.deliveryFaults

variable {b : Broker}

theorem serving_serving (b : Broker) (p : Pipeline) : (b.serving p).serving p = b.serving p := by
  have hbound : p.binding ∈ (b.serving p).bindings := by
    by_cases hn : p.binding ∈ b.bindings <;> simp [serving, hn]
  rw [serving, hosting, if_pos hbound, Table.insertNew_of_has (by simp [serving, hosting, Table.has_insertNew]),
    Table.insertNew_of_has (by simp [serving, hosting, Table.has_insertNew])]
  rfl

theorem readied_serving (hb : b.bindings.Nodup) {s : Settings} (he : b.exchanges.get? s.exchange ≠ some .direct)
    (rule : Rule) (backlog : Backlog) (phase : Phase) :
    b.Readied (b.serving { Pipeline.ofSettings s rule with backlog := backlog, phase := phase }) s := by
  generalize hp : { Pipeline.ofSettings s rule with backlog := backlog, phase := phase } = p
  have hexchange : p.exchange = s.exchange := by rw [← hp]; rfl
  have hqueue : p.queue = s.inboundQueue := by rw [← hp]; rfl
  have hbinding : p.binding = ⟨s.inboundQueue, s.exchange, s.inboundKey⟩ := by rw [← hp]; rfl
  constructor
  case exchange =>
    rw [serving, hosting, hexchange, Table.get?_insertNew, if_pos rfl]
    cases hk : b.exchanges.get? s.exchange with
    | none => rfl
    | some k =>
      cases k with
      | topic => rfl
      | direct => exact absurd hk he
  case queue =>
    rw [serving, hosting, hqueue]
    exact Table.has_insertNew _ _ _
  case bound =>
    rw [serving, hbinding]
    split
    · exact List.count_eq_one_of_mem hb ‹_›
    · simp [List.count_append, List.count_eq_zero_of_not_mem ‹_›]
  case prefetch => rw [← hp]; rfl
  case messages => exact fun queue => Table.getD_insertNew _ _ _ _
  case otherExchanges =>
    intro name hn
    simp [serving, hosting, hexchange, hn]
  case otherQueues =>
    intro name hn
    simp [serving, hosting, hqueue, hn]
  case otherBindings =>
    rw [serving, hbinding]
    split
    · rfl
    · simp [List.filter_append]
  all_goals rfl

end Broker

theorem Pipeline.prepare_eq {σ : Type} (link : Link σ) (p : Pipeline) (broker : σ) : p.prepare link broker =
    ((p.declare link broker).1.mapError .broker, { p with phase := .initializing }, (p.declare link broker).2) := rfl

/-- Whatever was done to a broker that nobody has used: a relay can begin, unless its
exchange is there and of the other kind. Then all that it needs is there, nothing else
has changed, and to begin again leaves the broker as it is. No binding is ever there
twice, or of a queue or an exchange that is not. -/
theorem Pipeline.prepares_again (keyFault : String → Option String) (ops : List BrokerOperation)
    (s : Settings) (rule : Rule) (backlog : Backlog) (phase : Phase) :
    let b := ({ keyFault := keyFault } : Broker).performAll ops
    let p := { ofSettings s rule with backlog := backlog, phase := phase }
    (keyFault s.inboundKey = none →
      ((∃ f, (p.prepare Broker.link b).1 = .error f) ↔ b.exchanges.get? s.exchange = some .direct) ∧
      ∀ p' c, p.prepare Broker.link b = (.ok (), p', c) →
        b.Readied c s ∧ p'.prepare Broker.link c = (.ok (), p', c)) ∧
    b.bindings.Nodup ∧
    ∀ x ∈ b.bindings, b.queues.has x.queue = true ∧ b.exchanges.has x.exchange = true := by
  intro b p
  have hsound : b.Sound := (Broker.sound_fresh keyFault).performAll ops
  have hnodup : b.bindings.Nodup := Broker.performAll_bindings List.nodup_nil ops
  refine ⟨fun hkey => ?_, hnodup, fun x hx => ⟨hsound.queueOfBinding x hx, hsound.exchangeOfBinding x hx⟩⟩
  have hkept : b.keyFault = keyFault := Broker.performAll_keyFault _ ops
  have hfault : b.keyFault p.inboundKey = none := by
    rw [hkept]
    exact hkey
  by_cases he : b.exchanges.get? s.exchange = some .direct
  · have hconflict : p.declare Broker.link b = _ := Broker.declare_conflict he
    rw [prepare_eq, hconflict]
    refine ⟨iff_of_true ⟨_, rfl⟩ he, fun p' c h => ?_⟩
    cases h
  · have hserving : p.declare Broker.link b = _ := Broker.declare_serving he (.inr hfault)
    have hreadied : b.Readied (b.serving p) s := Broker.readied_serving hnodup he rule backlog phase
    rw [prepare_eq, hserving]
    refine ⟨iff_of_false ?_ he, fun p' c h => ?_⟩
    · rintro ⟨f, hf⟩
      cases hf
    · obtain ⟨rfl, rfl⟩ : { p with phase := .initializing } = p' ∧ b.serving p = c := by
        cases h
        exact ⟨rfl, rfl⟩
      have htopic : (b.serving p).exchanges.get? s.exchange ≠ some .direct := by
        rw [hreadied.exchange]
        decide
      have hagain : p.declare Broker.link (b.serving p) = _ := Broker.declare_serving htopic (.inr hfault)
      have hsame : { p with phase := .initializing }.prepare Broker.link (b.serving p) =
          ((p.declare Broker.link (b.serving p)).1.mapError .broker, { p with phase := .initializing },
            (p.declare Broker.link (b.serving p)).2) := rfl
      refine ⟨hreadied, ?_⟩
      rw [hsame, hagain, Broker.serving_serving]
      rfl

/-- A relay that begins anew while a message is outstanding, and one whose exchange is
of the other kind. -/
theorem Pipeline.prepares_again_outstanding :
    let s : Settings := {}
    let before : List BrokerOperation :=
      [.connect, .declareExchange "alert" .topic, .declareQueue "github_alerter_queue",
        .bindQueue "github_alerter_queue" "alert" "#", .inject "alert" "key" ⟨#[]⟩,
        .nextDelivery "github_alerter_queue"]
    let b := ({} : Broker).performAll before
    let d := ({} : Broker).performAll [.connect, .declareExchange "alert" .direct]
    let p := { ofSettings s .gitHub with backlog := ⟨.new 3, {}⟩, phase := .running }
    b.keyFault s.inboundKey = none ∧ b.outstanding.length = 1 ∧
    (∃ p' c, p.prepare Broker.link b = (.ok (), p', c) ∧ b.Readied c s ∧
      p'.prepare Broker.link c = (.ok (), p', c)) ∧
    ∃ f, (p.prepare Broker.link d).1 = .error f := by
  intro s before b d p
  have houtstanding : b.outstanding.length = 1 := by decide +kernel
  have hok : (p.prepare Broker.link b).1 = .ok () := rfl
  obtain ⟨hready, hagain⟩ :=
    ((prepares_again (fun _ => none) before s .gitHub ⟨.new 3, {}⟩ .running).1 rfl).2 _ _ (Prod.ext hok rfl)
  have hdirect : d.exchanges.get? s.exchange = some .direct := by decide +kernel
  have hfails := ((prepares_again (fun _ => none) [.connect, .declareExchange "alert" .direct] s .gitHub
    ⟨.new 3, {}⟩ .running).1 rfl).1.mpr hdirect
  exact ⟨rfl, houtstanding, ⟨_, _, Prod.ext hok rfl, hready, hagain⟩, hfails⟩

end AlertRelay
