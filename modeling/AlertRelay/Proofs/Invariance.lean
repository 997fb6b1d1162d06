import AlertRelay.Proofs.Recording

/-! What the operations of a broker keep, a relay keeps that uses them. Looking
for a delivery and acknowledging it are left out: they change what is outstanding. -/

namespace AlertRelay

variable {σ : Type}

structure Link.Declares (l : Link σ) (P : σ → Prop) : Prop where
  connect : ∀ {s}, P s → P (l.connect s).2
  declareExchange : ∀ {s} name kind, P s → P (l.declareExchange name kind s).2
  declareQueue : ∀ {s} name, P s → P (l.declareQueue name s).2
  bindQueue : ∀ {s} queue exchange key, P s → P (l.bindQueue queue exchange key s).2
  setPrefetch : ∀ {s} count, P s → P (l.setPrefetch count s).2
  confirmDelivery : ∀ {s}, P s → P (l.confirmDelivery s).2

structure Link.Keeps (l : Link σ) (P : σ → Prop) : Prop extends l.Declares P where
  publish : ∀ {s} exchange key body, P s → P (l.publish exchange key body s).2
  close : ∀ {s}, P s → P (l.close s).2

namespace Link.Declares

variable {l : Link σ} {P : σ → Prop}

theorem andThen {next : σ → Outcome Unit × σ} (hn : ∀ {s}, P s → P (next s).2)
    {x : Outcome Unit × σ} (hx : P x.2) : P (andThen next x).2 := by
  obtain ⟨outcome, s⟩ := x
  cases outcome with
  | ok u => exact hn hx
  | error f => exact hx

theorem declare (h : l.Declares P) (p : Pipeline) {s : σ} (hs : P s) : P (p.declare l s).2 := by
  have hc := h.connect hs
  have he := andThen (h.declareExchange p.exchange .topic) hc
  have hq := andThen (h.declareQueue p.queue) he
  have hb := andThen (h.bindQueue p.queue p.exchange p.inboundKey) hq
  exact andThen h.confirmDelivery (andThen (h.setPrefetch p.prefetch) hb)

end Link.Declares

/-- What every publish keeps, a drain keeps. -/
theorem Backlog.drain_keeps {l : Link σ} {P : σ → Prop}
    (h : ∀ {s} exchange key body, P s → P (l.publish exchange key body s).2) (b : Backlog) {s : σ} (hs : P s) :
    P (b.drain l s).2.2 := by
  obtain ⟨⟨capacity, entries⟩, stats⟩ := b
  simp only [drain]
  induction entries generalizing stats s with
  | nil => exact hs
  | cons e es ih =>
    have hp := h e.exchange e.key e.alert.wire.toUTF8 hs
    simp only [drainEntries]
    generalize l.publish e.exchange e.key e.alert.wire.toUTF8 s = x at hp ⊢
    obtain ⟨outcome, s'⟩ := x
    cases outcome with
    | ok u => exact ih hp _
    | error f =>
      dsimp only
      split <;> exact hp

namespace Link.Keeps

variable {l : Link σ} {P : σ → Prop}

theorem drain (h : l.Keeps P) (b : Backlog) {s : σ} (hs : P s) : P (b.drain l s).2.2 :=
  b.drain_keeps h.publish hs

theorem take (h : l.Keeps P) (i : Intake) (d : Delivery) (b : Backlog) {s : σ}
    (hs : P (l.ack d.tag s).2) : P (i.take l d b s).2.2 := by
  simp only [Intake.take]
  generalize l.ack d.tag s = x at hs ⊢
  obtain ⟨outcome, s'⟩ := x
  cases outcome with
  | ok u => exact h.drain _ hs
  | error f => exact hs

theorem terminate (h : l.Keeps P) (p : Pipeline) {s : σ} (hs : P s) : P (p.terminate l s).2 :=
  h.close (h.drain p.backlog hs)

end Link.Keeps

theorem Recorded.run_calls {α : Type} (op : σ → α × σ) (r : Recorded σ) :
    (Recorded.run op (fun _ => []) r).2.calls = r.calls :=
  List.append_nil _

theorem Recorded.silent {α : Type} (op : σ → α × σ) {Q : List Call → Prop} {r : Recorded σ}
    (h : Q r.calls) : Q (Recorded.run op (fun _ => []) r).2.calls := by
  rwa [Recorded.run_calls]

/-- What the operations keep of a tracked broker, and publishes of the calls. -/
theorem Tracked.link_keeps {P : Tracked → Prop} {Q : List Call → Prop}
    (hp : ∀ {t} op, (∀ queue, op ≠ .nextDelivery queue) → P t → P (t.perform op).2)
    (hq : ∀ {calls} exchange key body outcome, Q calls → Q (calls ++ [.published exchange key body outcome])) :
    Tracked.link.recorded.Keeps fun r => P r.inner ∧ Q r.calls where
  connect h := ⟨hp .connect (by simp) h.1, Recorded.silent _ h.2⟩
  declareExchange name kind h :=
    ⟨hp (.declareExchange name kind) (by simp) h.1, Recorded.silent _ h.2⟩
  declareQueue name h :=
    ⟨hp (.declareQueue name) (by simp) h.1, Recorded.silent _ h.2⟩
  bindQueue queue exchange key h :=
    ⟨hp (.bindQueue queue exchange key) (by simp) h.1, Recorded.silent _ h.2⟩
  setPrefetch count h :=
    ⟨hp (.setPrefetch count) (by simp) h.1, Recorded.silent _ h.2⟩
  confirmDelivery h := ⟨hp .confirmDelivery (by simp) h.1, Recorded.silent _ h.2⟩
  publish exchange key body h := ⟨hp (.publish exchange key body) (by simp) h.1, hq exchange key body _ h.2⟩
  close h := ⟨hp .close (by simp) h.1, Recorded.silent _ h.2⟩

end AlertRelay
