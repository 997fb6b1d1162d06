import AlertRelay.Proofs.Bookkeeping

/-! Deliveries that are taken in by hand, among any operations of the broker and
in any order: late, after they went back to their queue, or several times. -/

namespace AlertRelay

inductive SessionStep
  | operate (op : BrokerOperation)
  /-- Takes in the delivery that was handed out as number `n`. -/
  | takeIn (n : Nat)

/-- What a session uses of a broker; `taking` notes a delivery that is taken in. -/
structure Access (σ : Type) where
  link : Link σ
  operate : BrokerOperation → σ → BrokerReply × σ
  taking : Delivery → σ → σ

def Broker.access : Access Broker := ⟨Broker.link, Broker.perform, fun _ b => b⟩

def Tracked.access : Access (Recorded Tracked) :=
  ⟨Tracked.link.recorded, fun op => Recorded.run (Tracked.perform op) fun _ => [],
    fun d r => r.note (.received d)⟩

structure Session (σ : Type) where
  broker : σ
  backlog : Backlog
  deliveries : List Delivery := []

def BrokerReply.delivery? : BrokerReply → Option Delivery
  | .looked (.ok d?) => d?
  | _ => none

/-- Only a look for a delivery answers with one. -/
theorem Broker.delivery?_perform {b : Broker} {op : BrokerOperation} {d : Delivery}
    (h : (b.perform op).1.delivery? = some d) :
    ∃ queue, op = .nextDelivery queue ∧ (b.nextDelivery queue).1 = .ok (some d) := by
  cases op with
  | nextDelivery queue =>
    refine ⟨queue, rfl, ?_⟩
    change (BrokerReply.looked (b.nextDelivery queue).1).delivery? = some d at h
    cases ho : (b.nextDelivery queue).1 with
    | error f => simp [ho, BrokerReply.delivery?] at h
    | ok d? =>
      rw [ho] at h
      exact congrArg Except.ok h
  | _ => cases h

namespace Session

variable {σ τ : Type}

def step (x : Access σ) (i : Intake) (s : Session σ) : SessionStep → Session σ
  | .operate op =>
    let (reply, broker) := x.operate op s.broker
    { s with broker := broker, deliveries := s.deliveries ++ reply.delivery?.toList }
  | .takeIn n =>
    match s.deliveries[n]? with
    | none => s
    | some d =>
      let (_, backlog, broker) := i.take x.link d s.backlog (x.taking d s.broker)
      { s with broker := broker, backlog := backlog }

def run (x : Access σ) (i : Intake) (capacity : Nat) (broker : σ) (steps : List SessionStep) : Session σ :=
  steps.foldl (step x i) { broker := broker, backlog := { outbox := .new capacity } }

def map (f : σ → τ) (s : Session σ) : Session τ := ⟨f s.broker, s.backlog, s.deliveries⟩

theorem step_tracked (i : Intake) (s : Session (Recorded Tracked)) (st : SessionStep) :
    (s.step Tracked.access i st).map (fun r => r.inner.broker) =
      (s.map fun r => r.inner.broker).step Broker.access i st := by
  cases st with
  | operate op => rfl
  | takeIn n =>
    simp only [step, map]
    cases s.deliveries[n]? with
    | none => rfl
    | some d =>
      have hh := Tracked.link_lifts.take i d s.backlog (s.broker.note (.received d))
      exact congrArg (fun x => Session.mk x.2.2 x.2.1 s.deliveries) hh.symm

/-- The ledger and the record change nothing. -/
theorem run_tracked (i : Intake) (capacity : Nat) (r : Recorded Tracked) (steps : List SessionStep) :
    (run Tracked.access i capacity r steps).map (fun r => r.inner.broker) =
      run Broker.access i capacity r.inner.broker steps := by
  unfold run
  exact (List.foldl_hom (Session.map _) fun s st => (step_tracked i s st).symm).symm

/-- Deliveries are of copies that were issued, and those that contributed alerts
were acknowledged as the broker listed them. -/
structure Orderly (i : Intake) (capacity : Nat) (s : Session (Recorded Tracked)) : Prop where
  faithful : s.broker.inner.Faithful
  explained : Explained i capacity s.broker.calls s.backlog
  issued : ∀ d ∈ s.deliveries, ∃ p ∈ s.broker.inner.ledger.issued, d = Tracked.delivery p
  contributed : ∃ ps : List (Nat × Copy), ps.Sublist s.broker.inner.ledger.acknowledged ∧
    (Account.of i capacity s.broker.calls).acknowledged = ps.map Tracked.delivery

variable {i : Intake} {capacity : Nat} {s : Session (Recorded Tracked)}

theorem orderly_start (keyFault : String → Option String) :
    Orderly i capacity ⟨⟨Tracked.fresh keyFault, []⟩, { outbox := .new capacity }, []⟩ where
  faithful := Tracked.faithful_fresh keyFault
  explained := explained_nil i capacity
  issued := by simp
  contributed := ⟨[], List.nil_sublist _, rfl⟩

theorem Orderly.operate (h : s.Orderly i capacity) (op : BrokerOperation) :
    (s.step Tracked.access i (.operate op)).Orderly i capacity := by
  obtain ⟨hissued, hacked⟩ := s.broker.inner.perform_grows op
  have hcalls : (s.step Tracked.access i (.operate op)).broker.calls = s.broker.calls := List.append_nil _
  refine ⟨h.faithful.perform op, ?_, ?_, ?_⟩
  · rw [hcalls]
    exact h.explained
  · intro d hd
    rcases List.mem_append.mp hd with hd | hd
    · obtain ⟨p, hp, he⟩ := h.issued d hd
      exact ⟨p, hissued.subset hp, he⟩
    · obtain ⟨queue, rfl, hok⟩ := Broker.delivery?_perform (Option.mem_toList.mp hd)
      obtain ⟨c, rest, _, hdel, _, hl⟩ := h.faithful.handedOut hok
      refine ⟨(d.tag, c), ?_, hdel⟩
      change (d.tag, c) ∈ (s.broker.inner.perform (.nextDelivery queue)).2.ledger.issued
      rw [hl]
      exact List.mem_append_right _ (List.mem_singleton_self _)
  · rw [hcalls]
    obtain ⟨ps, hps, he⟩ := h.contributed
    exact ⟨ps, hps.trans hacked, he⟩

/-- An acknowledgement that succeeds adds the copy that was handed out to those
that contribute; one that fails adds none. -/
theorem Orderly.settle (h : s.Orderly i capacity) {d : Delivery} (hd : d ∈ s.deliveries) :
    ∃ ps : List (Nat × Copy),
      ps.Sublist (s.broker.inner.perform (.ack d.tag)).2.ledger.acknowledged ∧
      (Account.of i capacity (s.broker.calls ++ [.received d] ++
        [.acknowledged d.tag (s.broker.inner.broker.ack d.tag).1])).acknowledged =
          ps.map Tracked.delivery := by
  obtain ⟨p, hp, hdel⟩ := h.issued d hd
  obtain ⟨ps, hps, hds⟩ := h.contributed
  rw [Account.of_settled, hds]
  cases hack : (s.broker.inner.broker.ack d.tag).1 with
  | error f => exact ⟨ps, hps.trans (s.broker.inner.perform_grows _).2, List.append_nil _⟩
  | ok u =>
    obtain ⟨c, hc, hl⟩ := h.faithful.ackOk hack
    have htag : d.tag = p.1 := by rw [hdel]; rfl
    -- however old the delivery is, its tag still names the copy that it was made of
    have hpc : (d.tag, p.2) ∈ s.broker.inner.ledger.issued := by rwa [htag]
    have he := h.faithful.valid.eq_of_tag hpc (h.faithful.valid.outstandingIssued.subset hc)
    refine ⟨ps ++ [p], ?_, ?_⟩
    · rw [hl, ← he, htag]
      exact hps.append (List.Sublist.refl _)
    · rw [List.map_append, List.map_singleton, ← hdel]

def Later (t : Tracked) (ps : List (Nat × Copy)) (u : Tracked) : Prop :=
  u.Faithful ∧ t.ledger.issued.Sublist u.ledger.issued ∧ ps.Sublist u.ledger.acknowledged

theorem later_perform {t u : Tracked} {ps : List (Nat × Copy)} (h : Later t ps u) (op : BrokerOperation) :
    Later t ps (u.perform op).2 := by
  obtain ⟨hissued, hacked⟩ := u.perform_grows op
  exact ⟨h.1.perform op, h.2.1.trans hissued, h.2.2.trans hacked⟩

theorem Orderly.takeIn (h : s.Orderly i capacity) (n : Nat) :
    (s.step Tracked.access i (.takeIn n)).Orderly i capacity := by
  cases hd : s.deliveries[n]? with
  | none => simpa only [step, hd] using h
  | some d =>
    obtain ⟨ps, hps, hds⟩ := h.settle (List.mem_of_getElem? hd)
    have hissued := (s.broker.inner.perform_grows (.ack d.tag)).1
    obtain ⟨⟨hfaithful, hlater, hacked⟩, hcontributed⟩ :=
      (Tracked.account_keeps i capacity _ (P := Later s.broker.inner ps) fun op _ hu =>
        later_perform hu op).take i d s.backlog (s := s.broker.note (.received d))
          ⟨⟨h.faithful.perform (.ack d.tag), hissued, hps⟩, hds⟩
    simp only [step, hd]
    refine ⟨hfaithful, h.explained.take Tracked.link d, ?_, ps, hacked, hcontributed⟩
    intro e he
    obtain ⟨p, hp, hpe⟩ := h.issued e he
    exact ⟨p, hlater.subset hp, hpe⟩

theorem orderly_run (keyFault : String → Option String) (steps : List SessionStep) :
    (run Tracked.access i capacity ⟨Tracked.fresh keyFault, []⟩ steps).Orderly i capacity := by
  refine List.foldlRecOn steps (Session.step Tracked.access i) (orderly_start keyFault) ?_
  intro s hs st _
  cases st with
  | operate op => exact hs.operate op
  | takeIn n => exact hs.takeIn n

/-- Whatever is done to a new broker, and whichever of its deliveries are taken in
when: the alerts that entered the outbox are those of the deliveries that were
acknowledged, and these are of copies that were routed into a queue, no copy
twice. A delivery whose acknowledgement fails leaves the outbox as it is. -/
theorem copies_contribute_once (keyFault : String → Option String) (i : Intake) (capacity : Nat)
    (steps : List SessionStep) :
    let s := run Tracked.access i capacity ⟨Tracked.fresh keyFault, []⟩ steps
    let a := Account.of i capacity s.broker.calls
    s.map (fun r => r.inner.broker) = run Broker.access i capacity { keyFault := keyFault } steps ∧
    s.broker.inner.Faithful ∧
    s.backlog.outbox = a.outbox ∧
    a.departed.map (·.entry) ++ a.outbox.entries = (a.acknowledged.flatMap fun d => i.entries d.body) ∧
    (∃ ps : List (Nat × Copy), a.acknowledged = ps.map Tracked.delivery ∧
      ps ⊆ s.broker.inner.ledger.issued ∧ (ps.map (·.2)).Nodup ∧
      ∀ p ∈ ps, p.2 ∈ s.broker.inner.ledger.routed) ∧
    ∀ d f, (s.broker.inner.broker.ack d.tag).1 = .error f →
      (i.take Broker.link d s.backlog s.broker.inner.broker).2.1.outbox = s.backlog.outbox := by
  intro s a
  have h : s.Orderly i capacity := orderly_run keyFault steps
  have hkept := Account.of_kept i capacity s.broker.calls
  obtain ⟨ps, hps, hds⟩ := h.contributed
  have hvalid := h.faithful.valid
  have hissued : ps ⊆ s.broker.inner.ledger.issued :=
    List.Subset.trans hps.subset hvalid.acknowledgedIssued
  refine ⟨run_tracked i capacity _ steps, h.faithful, h.explained.account.outbox, hkept.entries,
    ⟨ps, hds, hissued, ?_, fun p hp => hvalid.issuedRouted p (hissued hp)⟩, ?_⟩
  · exact hvalid.acknowledged_nodup.sublist (hps.map _)
  · intro d f hf
    simp only [Intake.take]
    split
    · rfl
    · rename_i b hb
      exact absurd (hf.symm.trans (congrArg Prod.fst hb)) (by simp)

/-- A message with an alert went back to its queue and came again: the alert enters the
outbox with the second delivery and not with the first. -/
theorem copies_contribute_once_stale :
    let i : Intake := ⟨.gitHub, "alert", "alert_router.github"⟩
    let body := ("\x7b\"error\":\x7b\"meta_data\":\x7b\"repo_name\":\"x\",\"time\":5," ++
      "\"repo_parent_id\":\"p\",\"repo_id\":\"r\"\x7d\x7d\x7d").toUTF8
    let steps := [.connect, .declareExchange "alert" .direct, .declareQueue "q", .bindQueue "q" "alert" "k",
      .inject "alert" "k" body, .nextDelivery "q", .disconnect, .connect, .nextDelivery "q"].map SessionStep.operate
    let s := run Tracked.access i 1 ⟨Tracked.fresh fun _ => none, []⟩ steps
    let first : Delivery := ⟨1, "k", body⟩
    let second : Delivery := ⟨2, "k", body⟩
    s.deliveries.map (fun d => (d.tag, d.key, d.body)) = [(1, "k", body), (2, "k", body)] ∧ (i.entries body).length = 1 ∧
    (s.broker.inner.broker.ack first.tag).1 = .error (.unknownTag 1) ∧
    (i.take Broker.link first s.backlog s.broker.inner.broker).2.1.outbox = s.backlog.outbox ∧
    (i.take Broker.link second s.backlog s.broker.inner.broker).2.1.outbox.length = 1 := by
  intro i body steps s first second
  have hack : (s.broker.inner.broker.ack first.tag).1 = .error (.unknownTag 1) := by decide +kernel
  have hleaves := (copies_contribute_once (fun _ => none) i 1 steps).2.2.2.2.2 first _ hack
  refine ⟨by decide +kernel, by decide +kernel, hack, ?_, by decide +kernel⟩
  rw [hleaves]

end Session

end AlertRelay
