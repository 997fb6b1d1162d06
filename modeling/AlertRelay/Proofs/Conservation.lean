import AlertRelay.Proofs.Tracked

/-! A broker neither loses nor duplicates messages. What was routed into a queue
is ready there, outstanding, acknowledged or taken away. -/

namespace AlertRelay

/-- Messages with the queues they belong to, as they come in and go out: routed
into a queue, acknowledged, or taken from a queue. -/
structure Flow where
  routed : List (String × Message) := []
  acknowledged : List (String × Message) := []
  taken : List (String × Message) := []

def Flow.then (f g : Flow) : Flow :=
  ⟨f.routed ++ g.routed, f.acknowledged ++ g.acknowledged, f.taken ++ g.taken⟩

theorem Flow.then_nil (f : Flow) : f.then {} = f := by
  simp [Flow.then]

theorem Flow.nil_then (f : Flow) : ({} : Flow).then f = f := rfl

theorem Flow.then_assoc (f g k : Flow) : (f.then g).then k = f.then (g.then k) := by
  simp [Flow.then]

def messagesIn (queue : String) (ps : List (String × Message)) : List Message :=
  (ps.filter (·.1 = queue)).map (·.2)

def Outstanding.parcel (o : Outstanding) : String × Message := (o.queue, o.message)

def Copy.parcel (c : Copy) : String × Message := (c.queue, c.message)

theorem messagesIn_copies (queue : String) (cs : List Copy) :
    messagesIn queue (cs.map (·.parcel)) = (copiesIn queue cs).map (·.message) := by
  simp [messagesIn, copiesIn, List.filter_map, Function.comp_def, Copy.parcel]

theorem copiesFrom_parcels (n : Nat) (m : Message) (queues : List String) :
    (copiesFrom n m queues).map (·.parcel) = queues.map (·, m) := by
  induction queues generalizing n with
  | nil => rfl
  | cons q queues ih => rw [copiesFrom, List.map_cons, List.map_cons, ih (n + 1), Copy.parcel]

namespace Broker

def flow (b : Broker) (op : BrokerOperation) : Flow :=
  match b.movement op with
  | .routed queues m => { routed := queues.map (·, m) }
  | .acknowledged tag => { acknowledged := (b.outstanding.filter (·.tag = tag)).map (·.parcel) }
  | .taken queue => { taken := (b.messages queue).map (queue, ·) }
  | _ => {}

def performAll (ops : List BrokerOperation) (b : Broker) : Broker :=
  ops.foldl (fun b op => (b.perform op).2) b

def flowOf : List BrokerOperation → Broker → Flow
  | [], _ => {}
  | op :: ops, b => (b.flow op).then (flowOf ops (b.perform op).2)

def acknowledges : BrokerOperation → BrokerReply → Bool
  | .ack _, .done (.ok ()) => true
  | _, _ => false

def acknowledgements : List BrokerOperation → Broker → Nat
  | [], _ => 0
  | op :: ops, b =>
    (if acknowledges op (b.perform op).1 then 1 else 0) + acknowledgements ops (b.perform op).2

theorem acknowledges_perform (b : Broker) (op : BrokerOperation) :
    acknowledges op (b.perform op).1 =
      match b.movement op with | .acknowledged _ => true | _ => false := by
  cases op with
  | ack tag =>
    rcases b.ack_cases tag with ⟨f, h⟩ | ⟨_, _, h⟩ <;>
      simp only [perform, movement, Prod.map, h] <;> rfl
  | nextDelivery queue =>
    rcases b.nextDelivery_cases queue with ⟨f, faults, h⟩ | h | ⟨m, rest, _, _, h⟩ <;>
      simp only [perform, movement, Prod.map, h] <;> rfl
  | publish exchange key body =>
    rcases b.publish_cases exchange key body with ⟨f, faults, h⟩ | ⟨_, _, _, h⟩ <;>
      simp only [perform, movement, Prod.map, h] <;> rfl
  | inject exchange key body =>
    rcases b.inject_cases exchange key body with ⟨f, h⟩ | h <;>
      simp only [perform, movement, Prod.map, h] <;> rfl
  | _ => rfl

/-- An acknowledgement that succeeds is of one delivery. -/
theorem flow_acknowledged {b : Broker} (hb : b.Sound) (op : BrokerOperation) :
    (b.flow op).acknowledged.length = if acknowledges op (b.perform op).1 then 1 else 0 := by
  rw [acknowledges_perform]
  rcases b.movement_cases op with hc | ⟨_, _, hc, _⟩ | ⟨_, _, _, _, hc, _⟩ | ⟨tag, rfl, hc, ho⟩ |
    hc | ⟨_, hc⟩ <;> simp only [flow, hc]
  case inr.inr.inr.inl => simp [hb.one_of_tag ho]
  all_goals rfl

theorem flowOf_acknowledged {b : Broker} (hb : b.Sound) (ops : List BrokerOperation) :
    (b.flowOf ops).acknowledged.length = b.acknowledgements ops := by
  induction ops generalizing b with
  | nil => rfl
  | cons op ops ih =>
    have hstep := flow_acknowledged hb op
    have hrest := ih (perform_sound hb op)
    simp only [flowOf, Flow.then, List.length_append, acknowledgements]
    omega

end Broker

/-- What the ledger lists came in and went out. -/
def Ledger.flow (l : Ledger) : Flow :=
  ⟨l.routed.map (·.parcel), l.acknowledged.map (·.2.parcel), l.taken.map (·.parcel)⟩

namespace Tracked

theorem Faithful.outstanding_parcels {t : Tracked} (h : t.Faithful) :
    t.broker.outstanding.map (·.parcel) = t.ledger.outstanding.map (·.2.parcel) := by
  rw [h.outstanding, List.map_map]
  rfl

/-- The ledger follows what an operation lets in and out. -/
theorem Faithful.perform_flow {t : Tracked} (h : t.Faithful) (op : BrokerOperation) :
    (t.perform op).2.ledger.flow = t.ledger.flow.then (t.broker.flow op) := by
  change (t.ledger.follow (t.broker.movement op)).flow = _
  rcases t.broker.movement_cases op with hc | ⟨queues, m, hc, _⟩ | ⟨queue, _, _, _, hc, _⟩ |
    ⟨tag, _, hc, _⟩ | hc | ⟨queue, hc⟩ <;> simp only [hc, Broker.flow]
  · exact (Flow.then_nil _).symm
  · simp [Ledger.follow, Ledger.flow, Flow.then, copiesFrom_parcels]
  · rw [Flow.then_nil]
    cases hr : t.ledger.ready queue <;> simp [Ledger.follow, Ledger.flow, hr]
  · have ho : (t.broker.outstanding.filter (·.tag = tag)).map (·.parcel) =
        (t.ledger.outstanding.filter (·.1 = tag)).map (·.2.parcel) := by
      rw [h.outstanding, List.filter_map, List.map_map]
      rfl
    simp only [Ledger.follow, Ledger.flow, Flow.then, ho, List.map_append, List.append_nil]
  · exact (Flow.then_nil _).symm
  · have hr : (t.broker.messages queue).map (queue, ·) = (t.ledger.ready queue).map (·.parcel) := by
      rw [h.messages queue, List.map_map]
      refine List.map_congr_left fun c hc => ?_
      simp [Copy.parcel, h.valid.home queue c hc]
    simp only [Ledger.follow, Ledger.flow, Flow.then, hr, List.map_append, List.append_nil]

theorem Faithful.performAll_flow {t : Tracked} (h : t.Faithful) (ops : List BrokerOperation) :
    (t.performAll ops).ledger.flow = t.ledger.flow.then (t.broker.flowOf ops) := by
  induction ops generalizing t with
  | nil => exact (Flow.then_nil _).symm
  | cons op ops ih =>
    have hrest := ih (h.perform op)
    rw [h.perform_flow op, Flow.then_assoc] at hrest
    exact hrest

theorem performAll_broker (t : Tracked) (ops : List BrokerOperation) :
    (t.performAll ops).broker = t.broker.performAll ops := by
  induction ops generalizing t with
  | nil => rfl
  | cons op ops ih => exact ih (t.perform op).2

end Tracked

/-- Whatever is done to a broker that nobody has used: of each queue, the messages
that were routed into it are those ready, those outstanding, those acknowledged
and those taken away. Each acknowledgement that succeeds is counted and is of
one message. -/
theorem Broker.messages_conserved (keyFault : String → Option String) (ops : List BrokerOperation)
    (queue : String) :
    let b : Broker := { keyFault := keyFault }
    (messagesIn queue (b.flowOf ops).routed : Multiset Message) =
      (b.performAll ops).messages queue +
      messagesIn queue ((b.performAll ops).outstanding.map (·.parcel)) +
      messagesIn queue (b.flowOf ops).acknowledged + messagesIn queue (b.flowOf ops).taken ∧
    (b.performAll ops).acked = b.acknowledgements ops ∧
    (b.flowOf ops).acknowledged.length = b.acknowledgements ops := by
  intro b
  have h := (Tracked.faithful_fresh keyFault).performAll ops
  have hb : ((Tracked.fresh keyFault).performAll ops).broker = b.performAll ops :=
    Tracked.performAll_broker _ ops
  have hflow := (Tracked.faithful_fresh keyFault).performAll_flow ops
  have hcount : (b.flowOf ops).acknowledged.length = b.acknowledgements ops :=
    flowOf_acknowledged (sound_fresh keyFault) ops
  generalize (Tracked.fresh keyFault).performAll ops = t at h hb hflow
  have hf : t.ledger.flow = b.flowOf ops := hflow.trans (Flow.nil_then _)
  have houtstanding := h.outstanding_parcels
  rw [← hf] at hcount
  rw [← hb, ← hf]
  refine ⟨?_, ?_, hcount⟩
  · have hc := congrArg (Multiset.map (·.message)) (h.valid.conserved queue)
    simp only [Ledger.line, ← Multiset.coe_add, Multiset.map_add, Multiset.map_coe, ← messagesIn_copies,
      List.map_map, ← h.messages queue] at hc
    rw [houtstanding]
    refine hc.trans ?_
    rw [add_comm (Multiset.ofList (t.broker.messages queue))]
    rfl
  · rw [h.acked, ← hcount]
    exact (List.length_map _).symm

end AlertRelay
