import AlertRelay.Proofs.Echo
import AlertRelay.Proofs.Publishing
import AlertRelay.Proofs.Routing
import AlertRelay.Proofs.Stream
import AlertRelay.Proofs.Window

/-! A relay whose queue is also bound to the key under which it publishes. What it
publishes comes back to it, is acknowledged like any message, and is the last that is
heard of it: no alert follows from it. -/

namespace AlertRelay

section Returning

variable {exchange key queue : String} {kind : ExchangeKind} {b c : Broker} {op : BrokerOperation}

theorem Broker.Effect.binds (h : b.Effect op c) (hb : b.Binds exchange kind key queue) :
    c.Binds exchange kind key queue := by
  obtain ⟨x, hx, hbinds⟩ := hb
  cases h with
  | bound new => exact ⟨x, List.mem_append_left _ hx, hbinds⟩
  | _ => exact ⟨x, hx, hbinds⟩

theorem Broker.Effect.get?_exchange (h : b.Effect op c) (hb : b.exchanges.get? exchange = some kind) :
    c.exchanges.get? exchange = some kind := by
  cases h with
  | exchange name k => rw [Table.get?_insertNew, hb, Option.some_or]
  | _ => exact hb

theorem Ledger.follow_routed (l : Ledger) (mov : Movement) : ∃ new, (l.follow mov).routed = l.routed ++ new ∧
    ∀ queues m, mov = .routed queues m → new = copiesFrom l.routed.length m queues := by
  cases mov with
  | routed queues m => exact ⟨_, rfl, fun _ _ h => by cases h; rfl⟩
  | handedOut tag queue =>
    refine ⟨[], ?_, fun _ _ h => by cases h⟩
    simp only [follow]
    split <;> exact (List.append_nil _).symm
  | _ => exact ⟨[], (List.append_nil _).symm, fun _ _ h => by cases h⟩

/-- The queue is bound to the key. Of the publishes under it that were confirmed since
the calls `calls`, each one came to the queue after the copies `routed`. -/
structure Recorded.Returns (exchange : String) (kind : ExchangeKind) (key queue : String) (calls : List Call)
    (routed : List Copy) (r : Recorded Tracked) : Prop where
  known : r.inner.broker.exchanges.get? exchange = some kind
  bound : r.inner.broker.Binds exchange kind key queue
  returned : ∃ (newCalls : List Call) (newCopies echoes : List Copy),
    r.calls = calls ++ newCalls ∧ r.inner.ledger.routed = routed ++ newCopies ∧
    echoes.Sublist (copiesIn queue newCopies) ∧
    (newCalls.filterMap Call.confirmed?).filter (fun p => p.1 = exchange ∧ p.2.1 = key) =
      echoes.map fun c => (exchange, c.message.key, c.message.body)

namespace Recorded.Returns

variable {calls : List Call} {routed : List Copy} {r : Recorded Tracked}

/-- An operation after which the publishes it confirmed have come to the queue. -/
theorem extend (h : r.Returns exchange kind key queue calls routed) (op : BrokerOperation) (new : List Call)
    {copies echoes : List Copy}
    (hcopies : (r.inner.perform op).2.ledger.routed = r.inner.ledger.routed ++ copies)
    (hechoes : echoes.Sublist (copiesIn queue copies))
    (hnew : (new.filterMap Call.confirmed?).filter (fun p => p.1 = exchange ∧ p.2.1 = key) =
      echoes.map fun c => (exchange, c.message.key, c.message.body)) :
    Recorded.Returns exchange kind key queue calls routed ⟨(r.inner.perform op).2, r.calls ++ new⟩ := by
  have heffect := r.inner.broker.perform_effect op
  obtain ⟨newCalls, newCopies, earlier, hcalls, hrouted, hsub, hsent⟩ := h.returned
  refine ⟨heffect.get?_exchange h.known, heffect.binds h.bound, newCalls ++ new, newCopies ++ copies,
    earlier ++ echoes, ?_, ?_, ?_, ?_⟩
  · rw [hcalls, List.append_assoc]
  · rw [hcopies, hrouted, List.append_assoc]
  · rw [copiesIn_append]
    exact hsub.append hechoes
  · rw [List.filterMap_append, List.filter_append, hsent, hnew, List.map_append]

/-- Nothing was confirmed, but copies may have come to the queue from elsewhere. -/
theorem quietly (h : r.Returns exchange kind key queue calls routed) (op : BrokerOperation) (new : List Call)
    (hnew : (new.filterMap Call.confirmed?).filter (fun p => p.1 = exchange ∧ p.2.1 = key) = []) :
    Recorded.Returns exchange kind key queue calls routed ⟨(r.inner.perform op).2, r.calls ++ new⟩ := by
  obtain ⟨copies, hcopies, -⟩ := r.inner.ledger.follow_routed (r.inner.broker.movement op)
  exact h.extend op new hcopies (List.nil_sublist _) hnew

/-- A confirmed publish came to all queues that are bound. -/
theorem confirmed (h : r.Returns exchange kind key queue calls routed) {body : ByteArray}
    (hok : (r.inner.broker.publish exchange key body).1 = .ok ()) :
    Recorded.Returns exchange kind key queue calls routed
      ⟨(r.inner.perform (.publish exchange key body)).2, r.calls ++ [.published exchange key body (.ok ())]⟩ := by
  let op := BrokerOperation.publish exchange key body
  have hmovement : r.inner.broker.movement op = .routed (r.inner.broker.reached exchange key) ⟨key, body⟩ := by
    simp only [op, Broker.movement, hok]
  have hreached : queue ∈ r.inner.broker.reached exchange key :=
    (Broker.mem_reached_iff h.known key queue).mpr h.bound
  obtain ⟨copies, hcopies, hnew⟩ := r.inner.ledger.follow_routed (r.inner.broker.movement op)
  have hmessages := copiesIn_copiesFrom r.inner.ledger.routed.length ⟨key, body⟩
    (r.inner.broker.reached_nodup exchange key) queue
  rw [if_pos hreached, ← hnew _ _ hmovement] at hmessages
  obtain ⟨copy, hcopy, hmessage⟩ := List.map_eq_singleton_iff.mp hmessages
  have hhere : [copy].Sublist (copiesIn queue copies) := by
    rw [hcopy]
  refine h.extend op [.published exchange key body (.ok ())] hcopies hhere ?_
  rw [List.map_singleton, hmessage]
  simp [Call.confirmed?]

theorem publish (h : r.Returns exchange kind key queue calls routed) (exchange' key' : String) (body : ByteArray) :
    Recorded.Returns exchange kind key queue calls routed
      (Tracked.link.recorded.publish exchange' key' body r).2 := by
  by_cases hours : exchange' = exchange ∧ key' = key
  · obtain ⟨rfl, rfl⟩ := hours
    cases hok : (r.inner.broker.publish exchange' key' body).1 with
    | ok u =>
      have hc := h.confirmed hok
      rw [← hok] at hc
      exact hc
    | error f =>
      have hq := h.quietly (.publish exchange' key' body) [.published exchange' key' body (.error f)] rfl
      rw [← hok] at hq
      exact hq
  · refine h.quietly (.publish exchange' key' body) [.published exchange' key' body _] ?_
    cases (Tracked.link.publish exchange' key' body r.inner).1 with
    | ok u => simpa [Call.confirmed?] using hours
    | error f => rfl

end Recorded.Returns

end Returning

theorem Call.confirmed?_eq_none {c : Call} (h : c.isPublish = false) : c.confirmed? = none := by
  cases c with
  | published => cases h
  | received | acknowledged => rfl

section Keeping

variable {P : Recorded Tracked → Prop}

/-- A relay keeps of a recorded broker what all operations keep that it uses. -/
theorem Tracked.recorded_keeps
    (hquiet : ∀ {r} op new, (∀ q, op ≠ .takeMessages q) → (∀ c ∈ new, c.isPublish = false) → P r →
      P ⟨(r.inner.perform op).2, r.calls ++ new⟩)
    (hpublish : ∀ {r} exchange key body, P r → P (Tracked.link.recorded.publish exchange key body r).2) :
    Tracked.link.recorded.Keeps P where
  connect h := hquiet .connect [] nofun nofun h
  declareExchange name kind h := hquiet (.declareExchange name kind) [] nofun nofun h
  declareQueue name h := hquiet (.declareQueue name) [] nofun nofun h
  bindQueue queue exchange key h := hquiet (.bindQueue queue exchange key) [] nofun nofun h
  setPrefetch count h := hquiet (.setPrefetch count) [] nofun nofun h
  confirmDelivery h := hquiet .confirmDelivery [] nofun nofun h
  publish exchange key body h := hpublish exchange key body h
  close h := hquiet .close [] nofun nofun h

theorem Tracked.recorded_stays {ω : Type} {act : ω → Tracked → Tracked}
    (hquiet : ∀ {r} op new, (∀ q, op ≠ .takeMessages q) → (∀ c ∈ new, c.isPublish = false) → P r →
      P ⟨(r.inner.perform op).2, r.calls ++ new⟩)
    (hpublish : ∀ {r} exchange key body, P r → P (Tracked.link.recorded.publish exchange key body r).2)
    (hact : ∀ {r} o, P r → P (Recorded.others act o r)) (delay : Nat) :
    Supervised.Stays Tracked.link.recorded (Recorded.others act) delay fun s => P s.state.broker := by
  have hkeeps := Tracked.recorded_keeps (P := P) hquiet hpublish
  have hlook : ∀ {r} queue, P r → P (Tracked.link.recorded.nextDelivery queue r).2 := by
    intro r queue h
    refine hquiet (.nextDelivery queue) _ nofun (fun c hc => ?_) h
    obtain ⟨d, -, rfl⟩ := Option.map_eq_some_iff.mp (Option.mem_toList.mp hc)
    rfl
  have hack : ∀ {r} tag, P r → P (Tracked.link.recorded.ack tag r).2 := by
    intro r tag h
    refine hquiet (.ack tag) _ nofun (fun c hc => ?_) h
    rw [List.mem_singleton.mp hc]
    rfl
  exact .of_keeps hkeeps (RelayState.consume_keeps hkeeps hlook hack) hact delay

end Keeping

/-- Others who send messages and use the broker otherwise, but who get none of the
messages of the queue. -/
abbrev Sender (queue : String) :=
  {op : BrokerOperation // (∀ q, op ≠ .nextDelivery q) ∧ op ≠ .takeMessages queue}

namespace Tracked

variable {queue : String} {t : Tracked}

def senders (queue : String) (o : Sender queue) (t : Tracked) : Tracked := (t.perform o.1).2

theorem movement_taken {b : Broker} {op : BrokerOperation} (h : b.movement op = .taken queue) :
    op = .takeMessages queue := by
  cases op with
  | takeMessages q =>
    cases h
    rfl
  | nextDelivery | ack | publish | inject =>
    simp only [Broker.movement] at h
    split at h <;> cases h
  | _ => cases h

theorem Faithful.untaken (h : t.Faithful) (hno : copiesIn queue t.ledger.taken = []) {op : BrokerOperation}
    (hop : op ≠ .takeMessages queue) : copiesIn queue (t.perform op).2.ledger.taken = [] := by
  change copiesIn queue (t.ledger.follow (t.broker.movement op)).taken = []
  cases hm : t.broker.movement op with
  | taken q =>
    have hne : queue ≠ q := by
      rintro rfl
      exact hop (movement_taken hm)
    have hother : copiesIn queue (t.ledger.ready q) = [] := copiesIn_of_ne (h.valid.home q) hne
    simp only [Ledger.follow, copiesIn_append, hno, hother, List.append_nil]
  | handedOut tag q =>
    simp only [Ledger.follow]
    split <;> exact hno
  | _ => exact hno

end Tracked

theorem Recorded.untaken_stays (queue : String) (delay : Nat) :
    Supervised.Stays Tracked.link.recorded (Recorded.others (Tracked.senders queue)) delay fun s =>
      s.state.broker.inner.Faithful ∧ copiesIn queue s.state.broker.inner.ledger.taken = [] := by
  refine Tracked.recorded_stays
    (P := fun r => r.inner.Faithful ∧ copiesIn queue r.inner.ledger.taken = []) ?_ ?_ ?_ delay
  · intro r op new hop _ h
    exact ⟨h.1.perform op, h.1.untaken h.2 (hop queue)⟩
  · intro r exchange key body h
    exact ⟨h.1.perform (.publish exchange key body), h.1.untaken h.2 nofun⟩
  · intro r o h
    exact ⟨h.1.perform o.1, h.1.untaken h.2 o.2.2⟩

theorem Recorded.returns_stays (exchange : String) (kind : ExchangeKind) (key queue : String) (calls : List Call)
    (routed : List Copy) (delay : Nat) :
    Supervised.Stays Tracked.link.recorded (Recorded.others (Tracked.senders queue)) delay fun s =>
      s.state.broker.Returns exchange kind key queue calls routed := by
  refine Tracked.recorded_stays (P := Recorded.Returns exchange kind key queue calls routed) ?_ ?_ ?_ delay
  · intro r op new _ hnew h
    have hnone : new.filterMap Call.confirmed? = [] :=
      List.filterMap_eq_nil_iff.mpr fun c hc => Call.confirmed?_eq_none (hnew c hc)
    exact h.quietly op new (by rw [hnone, List.filter_nil])
  · exact fun exchange key body h => h.publish exchange key body
  · intro r o h
    have hq := h.quietly o.1 [] rfl
    rw [List.append_nil] at hq
    exact hq

/-- A copy of a queue that nobody has in hand and from which nobody took messages. -/
theorem Ledger.Valid.ready_or_acknowledged {l : Ledger} {lastTag : Nat} {queue : String} (h : l.Valid lastTag)
    (hidle : copiesIn queue (l.outstanding.map (·.2)) = []) (htaken : copiesIn queue l.taken = []) {c : Copy}
    (hc : c ∈ copiesIn queue l.routed) : c ∈ l.ready queue ∨ c ∈ l.acknowledged.map (·.2) := by
  have hm : c ∈ (copiesIn queue l.routed : Multiset Copy) := hc
  rw [h.conserved queue, Ledger.line, hidle, htaken, List.nil_append] at hm
  rcases Multiset.mem_add.mp hm with hm | hm
  · rcases Multiset.mem_add.mp hm with hm | hm
    · exact .inl hm
    · exact .inr (List.mem_of_mem_filter (Multiset.mem_coe.mp hm))
  · cases hm

/-- What is confirmed is the text of an alert, under the exchange and the key of the relay. -/
theorem Explained.confirmed_text {i : Intake} {capacity : Nat} {calls : List Call} {b : Backlog}
    (h : Explained i capacity calls b) :
    ∀ p ∈ calls.filterMap Call.confirmed?, ∃ a : Alert, p = (i.exchange, i.key, a.wire.toUTF8) := by
  intro p hp
  rw [h.sent] at hp
  obtain ⟨e, he, rfl⟩ := List.mem_map.mp hp
  have hdeparted := (Account.of i capacity calls).confirmed_sublist.subset he
  have hentries := List.mem_append_left (Account.of i capacity calls).outbox.entries hdeparted
  rw [(Account.of_kept i capacity calls).entries] at hentries
  obtain ⟨d, -, hd⟩ := List.mem_flatMap.mp hentries
  obtain ⟨a, -, rfl⟩ := List.mem_map.mp hd
  exact ⟨a, rfl⟩

section Runs

/-- A relay in its loop that has nothing to do. -/
def Supervised.Waits (delay now : Nat) (s : Supervised Broker) : Prop :=
  s.task.InLoop ∧ s.task.step Broker.link now delay s.state = none

instance (delay now : Nat) : DecidablePred (Supervised.Waits delay now) := fun s =>
  inferInstanceAs (Decidable (s.task.InLoop ∧ s.task.step Broker.link now delay s.state = none))

/-- A relay that waits has seen all messages of its queue. -/
theorem Supervised.Attentive.nothing_ready {queue : String} {s : Supervised Broker} (h : s.Attentive queue)
    {delay now : Nat} (hwaits : s.Waits delay now) : s.state.broker.messages queue = [] := by
  obtain ⟨⟨seen, htask⟩, hwait⟩ := hwaits
  rw [htask] at hwait
  have hseen : seen = some s.state.broker.wakeUps := by
    simp only [TaskState.step, RunState.step, Option.map_eq_none_iff] at hwait
    split at hwait
    · next hquiet => exact hquiet.1
    · split at hwait <;> cases hwait
  subst hseen
  rcases h.waits _ htask with hlt | ⟨-, hempty⟩
  · exact absurd hlt (Nat.lt_irrefl _)
  · exact hempty

theorem flatMap_filter_of_nil {α β : Type} {f : α → List β} {p : α → Bool} {l : List α}
    (h : ∀ a ∈ l, p a = false → f a = []) : (l.filter p).flatMap f = l.flatMap f := by
  induction l with
  | nil => rfl
  | cons a l ih =>
    have hrest := ih fun x hx => h x (List.mem_cons_of_mem _ hx)
    cases hp : p a with
    | true => rw [List.filter_cons_of_pos hp, List.flatMap_cons, List.flatMap_cons, hrest]
    | false =>
      rw [List.filter_cons_of_neg (by simp [hp]), List.flatMap_cons, h a List.mem_cons_self hp, hrest]
      rfl

/-- The alerts of the copies that a relay acknowledged are those that left its outbox and those in it. -/
theorem RelayState.Streams.entries {i : Intake} {capacity : Nat} {queue : String} {s : RelayState (Recorded Tracked)}
    (h : s.Streams i capacity queue) (he : s.Accountable i capacity) :
    ((s.broker.inner.ledger.under queue (s.broker.calls.filterMap Call.acknowledgedTag?)).flatMap fun c =>
      i.rule.alertsOf c.message.body).map i.entry =
    (Account.of i capacity s.broker.calls).departed.map (·.entry) ++
      (Account.of i capacity s.broker.calls).outbox.entries := by
  obtain ⟨-, ps, hahead, hds⟩ := h
  have htags : s.broker.calls.filterMap Call.acknowledgedTag? = ps.map (·.1) := by
    rw [he.2.tags, hds, List.map_map]
    rfl
  have hordered : ((ps.map (·.2)).map (·.number)).Pairwise (· < ·) :=
    hahead.ordered.sublist ((List.sublist_append_left _ _).map _)
  rw [htags, hahead.faithful.valid.under_eq hahead.issued hahead.home hordered,
    (Account.of_kept i capacity s.broker.calls).entries, hds]
  simp only [List.map_flatMap, List.flatMap_map]
  rfl

end Runs

/-- What became of what a relay published between two points of its run: the copies
`echoes` came to its queue, one for each publish and in the same order; each is ready
there or was acknowledged; and all that ever entered the outbox came of other messages. -/
structure Recorded.Echoed (settings : Settings) (before after : Recorded Tracked) (echoes : List Copy) : Prop where
  routed : echoes.Sublist
    (copiesIn settings.inboundQueue (after.inner.ledger.routed.drop before.inner.ledger.routed.length))
  sent : (after.calls.drop before.calls.length).filterMap Call.confirmed? =
    echoes.map fun c => (settings.exchange, c.message.key, c.message.body)
  settled : ∀ c ∈ echoes, c ∈ after.inner.ledger.ready settings.inboundQueue ∨
    c ∈ after.inner.ledger.acknowledged.map (·.2)
  barren : let i := (Pipeline.ofSettings settings .gitHub).intake
    let a := Account.of i settings.bufferCapacity after.calls
    let acknowledged := after.inner.ledger.under settings.inboundQueue (after.calls.filterMap Call.acknowledgedTag?)
    a.departed.map (·.entry) ++ a.outbox.entries =
      ((acknowledged.filter fun c => c.number ∉ echoes.map (·.number)).flatMap fun c =>
        Rule.gitHub.alertsOf c.message.body).map i.entry

/-- Of what a relay published it gets no alert. -/
theorem Recorded.Returns.echoed {settings : Settings} {kind : ExchangeKind} {before : Recorded Tracked}
    {s : RelayState (Recorded Tracked)}
    (h : s.broker.Returns settings.exchange kind settings.outboundKey settings.inboundQueue before.calls
      before.inner.ledger.routed)
    (haccount : s.Accountable (Pipeline.ofSettings settings .gitHub).intake settings.bufferCapacity)
    (hstreams : s.Streams (Pipeline.ofSettings settings .gitHub).intake settings.bufferCapacity settings.inboundQueue)
    (htaken : copiesIn settings.inboundQueue s.broker.inner.ledger.taken = []) :
    ∃ echoes, Echoed settings before s.broker echoes := by
  obtain ⟨newCalls, newCopies, echoes, hcalls, hrouted, hsub, hsent⟩ := h.returned
  have htexts : ∀ p ∈ newCalls.filterMap Call.confirmed?, ∃ a : Alert,
      p = (settings.exchange, settings.outboundKey, a.wire.toUTF8) := by
    intro p hp
    refine haccount.2.confirmed_text p ?_
    rw [hcalls, List.filterMap_append]
    exact List.mem_append_right _ hp
  have hown : (newCalls.filterMap Call.confirmed?).filter
      (fun p => p.1 = settings.exchange ∧ p.2.1 = settings.outboundKey) = newCalls.filterMap Call.confirmed? := by
    refine List.filter_eq_self.mpr fun p hp => ?_
    obtain ⟨a, rfl⟩ := htexts p hp
    exact decide_eq_true ⟨rfl, rfl⟩
  rw [hown] at hsent
  have hhere : ∀ c ∈ echoes, c ∈ copiesIn settings.inboundQueue s.broker.inner.ledger.routed := by
    intro c hc
    rw [hrouted, copiesIn_append]
    exact List.mem_append_right _ (hsub.subset hc)
  have hnone : ∀ c ∈ echoes, Rule.gitHub.alertsOf c.message.body = [] := by
    intro c hc
    have hparcel : (settings.exchange, c.message.key, c.message.body) ∈ newCalls.filterMap Call.confirmed? := by
      rw [hsent]
      exact List.mem_map.mpr ⟨c, hc, rfl⟩
    obtain ⟨a, ha⟩ := htexts _ hparcel
    have hbody : c.message.body = a.wire.toUTF8 := (Prod.mk.inj (Prod.mk.inj ha).2).2
    rw [hbody, Rule.alertsOf, Rule.gitHub_classify_wire]
    rfl
  have hentries := hstreams.entries haccount
  obtain ⟨-, ps, hahead, -⟩ := hstreams
  have hvalid := hahead.faithful.valid
  refine ⟨echoes, ?_, ?_, fun c hc => hvalid.ready_or_acknowledged hahead.idle htaken (hhere c hc), ?_⟩
  · rw [hrouted, List.drop_left]
    exact hsub
  · rw [hcalls, List.drop_left]
    exact hsent
  · refine hentries.symm.trans (congrArg (List.map _) (flatMap_filter_of_nil fun c hc hp => ?_).symm)
    -- a copy with the number of an echo is that echo
    have hnumber : c.number ∈ echoes.map (·.number) := by simpa using hp
    obtain ⟨e, he, hsame⟩ := List.mem_map.mp hnumber
    have hrouted' : c ∈ s.broker.inner.ledger.routed := List.mem_of_mem_filter (List.mem_of_mem_filter hc)
    rw [← hvalid.eq_of_number (List.mem_of_mem_filter (hhere e he)) hrouted' hsame]
    exact hnone e he

namespace Supervised

/-- No alert follows from the text of an alert. So once the queue of a relay is also
bound to the key under which it publishes, and nobody else gets messages of the queue,
each publish that is confirmed comes back and enters nothing; and whenever the relay
waits, it has acknowledged all that came back. -/
theorem echoes_enter_nothing (keyFault : String → Option String) (delay : Nat) (settings : Settings)
    (earlier later : List (Occurrence (Sender settings.inboundQueue))) :
    let run := (start settings .gitHub ⟨Tracked.fresh keyFault, []⟩).run Tracked.link.recorded
      (Recorded.others (Tracked.senders settings.inboundQueue)) delay
    let relay := (start settings .gitHub ({ keyFault := keyFault } : Broker)).run Broker.link
      (fun o b => (b.perform o.1).2) delay (earlier ++ later)
    let before := (run earlier).state.broker
    let after := (run (earlier ++ later)).state.broker
    (∀ a : Alert, Rule.gitHub.classify a.wire.toUTF8 = .error (.unrecognized .noOutcome)) ∧
    (run (earlier ++ later)).map (fun r => r.inner.broker) = relay ∧
    relay.state.pipeline.backlog.outbox =
      (Account.of (Pipeline.ofSettings settings .gitHub).intake settings.bufferCapacity after.calls).outbox ∧
    ∀ kind, before.inner.broker.exchanges.get? settings.exchange = some kind →
      before.inner.broker.Binds settings.exchange kind settings.outboundKey settings.inboundQueue →
      ∃ echoes, Recorded.Echoed settings before after echoes ∧
        ∀ now, relay.Waits delay now → ∀ c ∈ echoes, c ∈ after.inner.ledger.acknowledged.map (·.2) := by
  intro run relay before after
  let queue := settings.inboundQueue
  let i := (Pipeline.ofSettings settings .gitHub).intake
  have hmap : (run (earlier ++ later)).map (fun r => r.inner.broker) = relay :=
    (run_map Tracked.link_lifts (fun _ _ => rfl) delay
      (start settings .gitHub ⟨Tracked.fresh keyFault, []⟩) (earlier ++ later)).symm
  have haccount : (run (earlier ++ later)).state.Accountable i settings.bufferCapacity :=
    run_stays (RelayState.accountable_stays i settings.bufferCapacity Tracked.link (Tracked.senders queue)) delay
      (s := start settings .gitHub ⟨Tracked.fresh keyFault, []⟩) ⟨rfl, explained_nil _ _⟩ (earlier ++ later)
  have hstreams : (run (earlier ++ later)).state.Streams i settings.bufferCapacity queue :=
    run_stays (RelayState.streams_stays_under i settings.bufferCapacity queue fun o _ _ h =>
        h.other (o.2.1 queue)) delay
      (s := start settings .gitHub ⟨Tracked.fresh keyFault, []⟩)
      ⟨rfl, [], Tracked.ahead_fresh queue keyFault, rfl⟩ (earlier ++ later)
  have huntaken := (Recorded.untaken_stays queue delay).run
    (s := start settings .gitHub ⟨Tracked.fresh keyFault, []⟩)
    ⟨Tracked.faithful_fresh keyFault, rfl⟩ (earlier ++ later)
  have hattentive : relay.Attentive queue :=
    (attentive_stays_under (fun o : Sender queue => o.1) (fun o => o.2.1) delay queue).run
      (s := start settings .gitHub ({ keyFault := keyFault } : Broker)) ⟨rfl, rfl, nofun⟩ (earlier ++ later)
  have houtbox : relay.state.pipeline.backlog.outbox = (Account.of i settings.bufferCapacity after.calls).outbox := by
    rw [← hmap]
    exact haccount.2.account.outbox
  refine ⟨Rule.gitHub_classify_wire, hmap, houtbox, fun kind hkind hbinds => ?_⟩
  have hsplit : run (earlier ++ later) = (run earlier).run Tracked.link.recorded
      (Recorded.others (Tracked.senders queue)) delay later := List.foldl_append
  have hreturns : after.Returns settings.exchange kind settings.outboundKey queue before.calls
      before.inner.ledger.routed := by
    have hbefore : before.Returns settings.exchange kind settings.outboundKey queue before.calls
        before.inner.ledger.routed :=
      ⟨hkind, hbinds, [], [], [], (List.append_nil _).symm, (List.append_nil _).symm, List.Sublist.slnil, rfl⟩
    have hafter := (Recorded.returns_stays settings.exchange kind settings.outboundKey queue before.calls
      before.inner.ledger.routed delay).run hbefore later
    rwa [← hsplit] at hafter
  obtain ⟨echoes, hechoed⟩ := hreturns.echoed haccount hstreams huntaken.2
  refine ⟨echoes, hechoed, fun now hwaits c hc => ?_⟩
  have hempty : after.inner.broker.messages queue = [] := by
    have hnothing := hattentive.nothing_ready hwaits
    rw [← hmap] at hnothing
    exact hnothing
  have hready : after.inner.ledger.ready queue = [] := by
    rw [huntaken.1.messages queue] at hempty
    exact List.map_eq_nil_iff.mp hempty
  rcases hechoed.settled c hc with hc | hc
  · rw [hready] at hc
    cases hc
  · exact hc

/-- A message with an error makes one alert. It comes back, and before the relay
waits again it has acknowledged that too. -/
theorem echoes_enter_nothing_single_error :
    let settings : Settings := {}
    let body := "\x7b\"error\":\x7b\"meta_data\":[\"\",0,\"\",\"\"]\x7d\x7d".toUTF8
    let binding : Sender settings.inboundQueue :=
      ⟨.bindQueue settings.inboundQueue settings.exchange settings.outboundKey, nofun, nofun⟩
    let message : Sender settings.inboundQueue := ⟨.inject settings.exchange settings.inboundKey body, nofun, nofun⟩
    let earlier : List (Occurrence (Sender settings.inboundQueue)) := [.work 0, .meanwhile binding]
    let later : List (Occurrence (Sender settings.inboundQueue)) := [.meanwhile message, .work 0, .work 0, .work 0]
    let run := (start settings .gitHub ⟨Tracked.fresh fun _ => none, []⟩).run Tracked.link.recorded
      (Recorded.others (Tracked.senders settings.inboundQueue)) 5
    let before := (run earlier).state.broker
    let after := (run (earlier ++ later)).state.broker
    ∃ echo, Recorded.Echoed settings before after [echo] ∧ echo ∈ after.inner.ledger.acknowledged.map (·.2) := by
  intro settings body binding message earlier later
  obtain ⟨-, -, -, hechoes⟩ := echoes_enter_nothing (fun _ => none) 5 settings earlier later
  obtain ⟨echoes, hechoed, hacknowledged⟩ := hechoes .topic (by decide +kernel)
    ((Broker.mem_reached_iff (by decide +kernel) _ _).mp (by decide +kernel))
  have hone : echoes.length = 1 := by
    have hlength := congrArg List.length hechoed.sent
    rw [List.length_map] at hlength
    exact hlength.symm.trans (by decide +kernel)
  obtain ⟨echo, rfl⟩ := List.length_eq_one_iff.mp hone
  have hall := hacknowledged 0 (by decide +kernel)
  exact ⟨echo, hechoed, hall echo (List.mem_singleton_self echo)⟩

end Supervised

end AlertRelay
