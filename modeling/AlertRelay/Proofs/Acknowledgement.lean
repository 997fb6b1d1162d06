import AlertRelay.Proofs.Conservation
import AlertRelay.Proofs.Session

/-! What an acknowledgement means over the history of a broker: the tag was handed
out, and since then the connection stayed up and the tag was not acknowledged. -/

namespace AlertRelay

/-- An operation with what the broker answered. -/
abbrev Answered := BrokerOperation × BrokerReply

namespace Answered

def HandsOut (tag : Nat) (e : Answered) : Prop :=
  ∃ queue d, e = (.nextDelivery queue, .looked (.ok (some d))) ∧ d.tag = tag

def Drops (e : Answered) : Prop := e.1 = .disconnect ∨ e.1 = .close

def Acknowledges (tag : Nat) (e : Answered) : Prop := e = (.ack tag, .done (.ok ()))

/-- The tags that were handed out, in order. -/
def tags (history : List Answered) : List Nat :=
  history.filterMap fun e => e.2.delivery?.map (·.tag)

/-- Handed out, and neither lost nor acknowledged since. -/
def Held (tag : Nat) (history : List Answered) : Prop :=
  ∃ before e after, history = before ++ e :: after ∧ HandsOut tag e ∧
    ∀ x ∈ after, ¬ Drops x ∧ ¬ Acknowledges tag x

theorem held_nil (tag : Nat) : ¬ Held tag [] := by
  rintro ⟨before, e, after, h, -⟩
  simp at h

theorem held_append (tag : Nat) (history : List Answered) (e : Answered) :
    Held tag (history ++ [e]) ↔
      HandsOut tag e ∨ Held tag history ∧ ¬ Drops e ∧ ¬ Acknowledges tag e := by
  constructor
  · rintro ⟨before, x, after, h, hx, hafter⟩
    rcases List.eq_nil_or_concat after with rfl | ⟨after, y, rfl⟩
    · have he : e = x := by simpa using congrArg List.getLast? h
      exact .inl (he ▸ hx)
    · have hh : history ++ [e] = (before ++ x :: after) ++ [y] := by simpa using h
      obtain ⟨rfl, he⟩ := List.append_inj' hh rfl
      have hy : e = y := by simpa using he
      refine .inr ⟨⟨before, x, after, rfl, hx, fun z hz => hafter z (by simp [hz])⟩, ?_⟩
      exact hafter e (by simp [hy])
  · rintro (he | ⟨⟨before, x, after, rfl, hx, hafter⟩, hdrop, hack⟩)
    · exact ⟨history, e, [], rfl, he, by simp⟩
    · refine ⟨before, x, after ++ [e], by simp, hx, fun z hz => ?_⟩
      rcases List.mem_append.mp hz with hz | hz
      · exact hafter z hz
      · rw [List.mem_singleton.mp hz]
        exact ⟨hdrop, hack⟩

end Answered

namespace Broker

open Answered

def transcript : List BrokerOperation → Broker → List Answered
  | [], _ => []
  | op :: ops, b => (op, (b.perform op).1) :: transcript ops (b.perform op).2

/-- A delivery of this tag is outstanding. -/
def Holds (b : Broker) (tag : Nat) : Prop := ∃ o ∈ b.outstanding, o.tag = tag

theorem performAll_append (b : Broker) (ops more : List BrokerOperation) :
    b.performAll (ops ++ more) = (b.performAll ops).performAll more :=
  List.foldl_append

theorem transcript_append (b : Broker) (ops : List BrokerOperation) (op : BrokerOperation) :
    b.transcript (ops ++ [op]) = b.transcript ops ++ [(op, ((b.performAll ops).perform op).1)] := by
  induction ops generalizing b with
  | nil => rfl
  | cons o ops ih => exact congrArg (_ :: ·) (ih (b.perform o).2)

theorem ack_ok_iff_holds (b : Broker) (tag : Nat) :
    (b.ack tag).1 = .ok () ↔ b.connected = true ∧ b.Holds tag := by
  constructor
  · intro h
    rcases b.ack_cases tag with ⟨f, hf⟩ | ⟨hc, ho, -⟩
    · rw [hf] at h
      cases h
    · exact ⟨hc, ho⟩
  · rintro ⟨hc, ho⟩
    exact ack_ok hc ho

theorem handsOut_iff (b : Broker) (op : BrokerOperation) (tag : Nat) :
    HandsOut tag (op, (b.perform op).1) ↔ ∃ queue, b.movement op = .handedOut tag queue := by
  constructor
  · rintro ⟨queue, d, he, rfl⟩
    obtain ⟨rfl, hr⟩ := Prod.mk.inj he
    have hd : (b.nextDelivery queue).1 = .ok (some d) := BrokerReply.looked.inj hr
    exact ⟨queue, by simp [movement, hd]⟩
  · rintro ⟨queue, hm⟩
    rcases b.movement_cases op with hc | ⟨_, _, hc, _⟩ | ⟨_, m, _, rfl, hc, _, hd⟩ | ⟨_, _, hc, _⟩ |
      hc | ⟨_, hc⟩ <;> rw [hc] at hm <;> cases hm
    exact ⟨queue, _, congrArg (Prod.mk _) (congrArg BrokerReply.looked hd), rfl⟩

theorem acknowledges_iff (b : Broker) (op : BrokerOperation) (tag : Nat) :
    Acknowledges tag (op, (b.perform op).1) ↔ b.movement op = .acknowledged tag := by
  constructor
  · intro he
    obtain ⟨rfl, hr⟩ := Prod.mk.inj he
    have ha : (b.ack tag).1 = .ok () := BrokerReply.done.inj hr
    simp [movement, ha]
  · intro hm
    rcases b.movement_cases op with hc | ⟨_, _, hc, _⟩ | ⟨_, _, _, _, hc, _⟩ | ⟨t, rfl, hc, _⟩ |
      hc | ⟨_, hc⟩ <;> rw [hc] at hm <;> cases hm
    rcases b.ack_cases tag with ⟨f, h⟩ | ⟨_, _, h⟩
    · simp [movement, h] at hc
    · simp [Acknowledges, perform, Prod.map, h]

theorem drops_iff (b : Broker) (op : BrokerOperation) :
    Drops (op, (b.perform op).1) ↔ b.movement op = .requeued := by
  constructor
  · rintro (rfl | rfl) <;> rfl
  · intro hm
    cases op with
    | close => exact .inr rfl
    | disconnect => exact .inl rfl
    | nextDelivery queue => simp only [movement] at hm; split at hm <;> cases hm
    | ack tag => simp only [movement] at hm; split at hm <;> cases hm
    | publish exchange key body => simp only [movement] at hm; split at hm <;> cases hm
    | inject exchange key body => simp only [movement] at hm; split at hm <;> cases hm
    | _ => cases hm

/-- A tag is held after an operation that hands it out, and as long as none lets it go. -/
theorem holds_perform {b : Broker} (hb : b.Sound) (op : BrokerOperation) (tag : Nat) :
    (b.perform op).2.Holds tag ↔ HandsOut tag (op, (b.perform op).1) ∨
      b.Holds tag ∧ ¬ Drops (op, (b.perform op).1) ∧ ¬ Acknowledges tag (op, (b.perform op).1) := by
  have ho : (b.perform op).2.outstanding = ((b.movement op).apply b.stock).outstanding :=
    congrArg Stock.outstanding (perform_stock hb op)
  rw [handsOut_iff, drops_iff, acknowledges_iff, Holds, ho]
  rcases b.movement_cases op with hc | ⟨_, _, hc, _⟩ | ⟨queue, m, rest, _, hc, hr, _⟩ | ⟨t, _, hc, _⟩ |
    hc | ⟨_, hc⟩ <;> rw [hc]
  case inr.inr.inl =>
    rw [Movement.apply_handedOut hr]
    simp [stock, Holds, or_and_right, exists_or, or_comm]
  case inr.inr.inr.inl =>
    simp only [Movement.apply, stock, List.mem_filter, decide_eq_true_eq]
    constructor
    · rintro ⟨o, ⟨hmem, hne⟩, rfl⟩
      exact .inr ⟨⟨o, hmem, rfl⟩, by simp, by simpa using Ne.symm hne⟩
    · rintro (⟨queue, hq⟩ | ⟨⟨o, hmem, rfl⟩, _, hne⟩)
      · cases hq
      · exact ⟨o, ⟨hmem, fun he => hne (by rw [he])⟩, rfl⟩
  all_goals simp [Movement.apply, stock, Holds]

/-- New tags are above all that were given out before. -/
theorem delivery_tag (b : Broker) (op : BrokerOperation) :
    (b.perform op).1.delivery? = none ∧ (b.perform op).2.lastTag = b.lastTag ∨
    ∃ d, (b.perform op).1.delivery? = some d ∧ d.tag = b.lastTag + 1 ∧
      (b.perform op).2.lastTag = d.tag := by
  rw [(b.perform_counters op).1]
  cases hd : (b.perform op).1.delivery? with
  | none =>
    refine .inl ⟨rfl, ?_⟩
    rcases b.movement_cases op with hc | ⟨_, _, hc, _⟩ | ⟨queue, m, _, rfl, hc, _, hn⟩ | ⟨_, _, hc, _⟩ |
      hc | ⟨_, hc⟩ <;> rw [hc]
    have hsome : (b.perform (.nextDelivery queue)).1.delivery? = some ⟨b.lastTag + 1, m.key, m.body⟩ :=
      congrArg (fun outcome => (BrokerReply.looked outcome).delivery?) hn
    rw [hsome] at hd
    cases hd
  | some d =>
    obtain ⟨queue, rfl, hok⟩ := delivery?_perform hd
    have hm : b.movement (.nextDelivery queue) = .handedOut d.tag queue := by simp [movement, hok]
    refine .inr ⟨d, rfl, ?_, by rw [hm]⟩
    rcases b.nextDelivery_cases queue with ⟨f, faults, h⟩ | h | ⟨m, rest, _, _, h⟩ <;>
      rw [h] at hok <;> cases hok
    rfl

/-- The history tells what is held, and the tags in it ascend. -/
structure Recounts (b : Broker) (history : List Answered) : Prop where
  sound : b.Sound
  held : ∀ tag, b.Holds tag ↔ Held tag history
  ascending : (tags history).Pairwise (· < ·)
  issued : ∀ tag ∈ tags history, tag ≤ b.lastTag

theorem recounts_fresh (keyFault : String → Option String) :
    Recounts { keyFault := keyFault } [] where
  sound := sound_fresh keyFault
  held tag := by simp [Holds, held_nil]
  ascending := List.Pairwise.nil
  issued := by simp [tags]

theorem Recounts.perform {b : Broker} {history : List Answered} (h : b.Recounts history)
    (op : BrokerOperation) :
    (b.perform op).2.Recounts (history ++ [(op, (b.perform op).1)]) := by
  have htags : tags (history ++ [(op, (b.perform op).1)]) =
      tags history ++ ((b.perform op).1.delivery?.map (·.tag)).toList := by
    cases hd : (b.perform op).1.delivery? <;> simp [tags, hd]
  refine ⟨perform_sound h.sound op, fun tag => ?_, ?_, ?_⟩
  · rw [holds_perform h.sound, held_append, h.held]
  · rw [htags]
    rcases b.delivery_tag op with ⟨hd, _⟩ | ⟨d, hd, ht, _⟩ <;> rw [hd]
    · simpa using h.ascending
    · refine List.pairwise_append.mpr ⟨h.ascending, List.pairwise_singleton _ _, ?_⟩
      intro t hmem u hu
      have hle := h.issued t hmem
      have hu' : u = d.tag := by simpa using hu
      omega
  · rw [htags]
    intro t hmem
    rcases b.delivery_tag op with ⟨hd, hl⟩ | ⟨d, hd, ht, hl⟩ <;> rw [hd] at hmem <;> rw [hl]
    · exact h.issued t (by simpa using hmem)
    · rcases List.mem_append.mp hmem with hmem | hmem
      · have hle := h.issued t hmem
        omega
      · exact Nat.le_of_eq (by simpa using hmem)

theorem recounts_performAll (keyFault : String → Option String) (ops : List BrokerOperation) :
    (({ keyFault := keyFault } : Broker).performAll ops).Recounts
      (({ keyFault := keyFault } : Broker).transcript ops) := by
  induction ops using List.reverseRecOn with
  | nil => exact recounts_fresh keyFault
  | append_singleton ops op ih =>
    rw [performAll_append, transcript_append]
    exact ih.perform op

/-- A tag that was let go never comes back. -/
theorem not_holds_performAll {b : Broker} (hb : b.Sound) {tag : Nat} (hle : tag ≤ b.lastTag)
    (hn : ¬ b.Holds tag) (ops : List BrokerOperation) : ¬ (b.performAll ops).Holds tag := by
  induction ops generalizing b with
  | nil => exact hn
  | cons op ops ih =>
    have htag := b.delivery_tag op
    have hle' : tag ≤ (b.perform op).2.lastTag := by
      rcases htag with ⟨_, hl⟩ | ⟨d, _, ht, hl⟩ <;> omega
    refine ih (perform_sound hb op) hle' ?_
    rw [holds_perform hb]
    rintro (⟨queue, d, he, rfl⟩ | ⟨hh, _⟩)
    · have hd : (b.perform op).1.delivery? = some d :=
        congrArg (fun e : Answered => e.2.delivery?) he
      rcases htag with ⟨hno, _⟩ | ⟨d', hd', ht, _⟩
      · rw [hno] at hd
        cases hd
      · rw [hd'] at hd
        cases hd
        omega
    · exact hn hh

/-- Whatever was done to a broker that nobody has used: an acknowledgement succeeds
if and only if the broker is connected and the tag was handed out, and since then
the connection was not dropped and the tag not acknowledged. Tags ascend, over all
queues and connections, so no tag names two deliveries; and one that was handed out
before the connection was dropped fails for good. -/
theorem ack_ok_iff_held (keyFault : String → Option String) (ops : List BrokerOperation) :
    let fresh : Broker := { keyFault := keyFault }
    let b := fresh.performAll ops
    let history := fresh.transcript ops
    (∀ tag, (b.ack tag).1 = .ok () ↔ b.connected = true ∧ Held tag history) ∧
    (tags history).Pairwise (· < ·) ∧
    ∀ tag ∈ tags history, ∀ drop, drop = .disconnect ∨ drop = .close → ∀ later,
      ((fresh.performAll (ops ++ drop :: later)).ack tag).1 ≠ .ok () := by
  intro fresh b history
  have h : b.Recounts history := recounts_performAll keyFault ops
  refine ⟨fun tag => ?_, h.ascending, fun tag htag drop hdrop later => ?_⟩
  · rw [ack_ok_iff_holds, h.held]
  · have hgone : ¬ (b.perform drop).2.Holds tag := by
      rw [holds_perform h.sound]
      rintro (⟨queue, d, he, _⟩ | ⟨_, hkept, _⟩)
      · rcases hdrop with rfl | rfl <;> cases he
      · exact hkept hdrop
    have hle : tag ≤ (b.perform drop).2.lastTag := by
      have hissued := h.issued tag htag
      rcases b.delivery_tag drop with ⟨_, hl⟩ | ⟨d, _, ht, hl⟩ <;> omega
    have hnever := not_holds_performAll (perform_sound h.sound drop) hle hgone later
    rw [performAll_append]
    intro hok
    exact hnever ((ack_ok_iff_holds _ _).mp hok).2

/-- A message that comes again after a reconnect comes under a new tag. -/
theorem ack_ok_iff_held_redelivered :
    let fresh : Broker := {}
    let ops : List BrokerOperation :=
      [.connect, .declareExchange "alert" .direct, .declareQueue "q", .bindQueue "q" "alert" "k",
        .inject "alert" "k" ⟨#[]⟩, .nextDelivery "q"]
    let b := fresh.performAll (ops ++ [.disconnect, .connect, .nextDelivery "q"])
    1 ∈ tags (fresh.transcript ops) ∧ (b.ack 1).1 ≠ .ok () ∧ (b.ack 2).1 = .ok () := by
  intro fresh ops b
  have htags : tags (fresh.transcript ops) = [1] := rfl
  have hissued : 1 ∈ tags (fresh.transcript ops) := htags ▸ List.mem_singleton_self 1
  have hnever := (ack_ok_iff_held (fun _ => none) ops).2.2 1 hissued .disconnect (.inl rfl)
    [.connect, .nextDelivery "q"]
  exact ⟨hissued, hnever, by decide +kernel⟩

end Broker

end AlertRelay
