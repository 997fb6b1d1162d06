import AlertRelay.Proofs.Conservation
import Mathlib.Data.List.Sort

/-! Redelivery keeps the order of a queue. What a queue may still deliver is in
the order in which it was routed, and a lost connection makes all of it ready. -/

namespace AlertRelay

theorem Ledger.Valid.line_sublist {l : Ledger} {lastTag : Nat} (h : l.Valid lastTag) (queue : String) :
    (l.line queue).Sublist (copiesIn queue l.routed) := by
  have hle : (l.line queue : Multiset Copy) ≤ copiesIn queue l.routed := by
    rw [h.conserved queue, add_assoc]
    exact Multiset.le_add_right _ _
  have hqueue : (copiesIn queue l.routed).Pairwise fun c d => c.number < d.number :=
    h.routed_ascending.sublist List.filter_sublist
  have hline : (l.line queue).Pairwise fun c d => c.number < d.number :=
    List.pairwise_map.mp (h.ordered queue)
  -- two lists in the order of the numbers: the one that has less is part of the other
  have hasymm : Std.Antisymm fun c d : Copy => c.number < d.number :=
    ⟨fun _ _ hcd hdc => absurd hcd (Nat.lt_asymm hdc)⟩
  exact List.sublist_of_subperm_of_pairwise (Multiset.coe_le.mp hle) hline hqueue

namespace Broker

/-- The messages that a queue may still deliver: those outstanding, by their
tags, and those ready. -/
def line (b : Broker) (queue : String) : List Message :=
  messagesIn queue (b.outstanding.map (·.parcel)) ++ b.messages queue

theorem disconnect_messages {b : Broker} (hb : b.Sound) (queue : String) :
    b.disconnect.messages queue = b.line queue := by
  have hs := congrArg (fun s : Stock => s.ready queue) (disconnect_stock hb)
  refine hs.trans ?_
  simp [Movement.apply, stock, line, messagesIn, List.filter_map, Function.comp_def, Outstanding.parcel]

end Broker

theorem Tracked.Faithful.line {t : Tracked} (h : t.Faithful) (queue : String) :
    t.broker.line queue = (t.ledger.line queue).map (·.message) := by
  have ho : messagesIn queue (t.broker.outstanding.map (·.parcel)) =
      (copiesIn queue (t.ledger.outstanding.map (·.2))).map (·.message) := by
    rw [h.outstanding_parcels, ← messagesIn_copies, List.map_map]
    rfl
  rw [Broker.line, ho, h.messages queue, ← List.map_append]
  rfl

/-- Whatever is done to a broker that nobody has used: what a queue may still
deliver is part of what was routed into it, in the same order. A lost connection
makes all of it ready, for every queue, and leaves nothing outstanding. -/
theorem Broker.line_in_routing_order (keyFault : String → Option String) (ops : List BrokerOperation) :
    let fresh : Broker := { keyFault := keyFault }
    let b := fresh.performAll ops
    (b.outstanding.map (·.tag)).Pairwise (· < ·) ∧
    (∀ queue, (b.line queue).Sublist (messagesIn queue (fresh.flowOf ops).routed)) ∧
    (∀ queue, b.disconnect.messages queue = b.line queue) ∧
    b.disconnect.outstanding = [] ∧
    b.close = (.ok (), b.disconnect) := by
  intro fresh b
  have h := (Tracked.faithful_fresh keyFault).performAll ops
  have hb : ((Tracked.fresh keyFault).performAll ops).broker = b := Tracked.performAll_broker _ ops
  have hflow := (Tracked.faithful_fresh keyFault).performAll_flow ops
  generalize (Tracked.fresh keyFault).performAll ops = t at h hb hflow
  have hf : t.ledger.flow = fresh.flowOf ops := hflow.trans (Flow.nil_then _)
  rw [← hb, ← hf]
  refine ⟨h.sound.ascending, fun queue => ?_, disconnect_messages h.sound, rfl, rfl⟩
  have hsub := (h.valid.line_sublist queue).map (·.message)
  rwa [← h.line queue, ← messagesIn_copies] at hsub

end AlertRelay
