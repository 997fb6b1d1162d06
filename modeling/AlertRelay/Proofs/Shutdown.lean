import AlertRelay.Proofs.Balance
import AlertRelay.Proofs.Draining
import AlertRelay.Proofs.Recovery

/-! A relay in its loop to which a shutdown is on its way. It answers the requests that
were sent before, drains its outbox once and drops the connection. It looks for no
message any more, whatever others do in the meantime. -/

namespace AlertRelay

variable {σ ω : Type}

namespace Mailbox

/-- A shutdown was sent, or nobody is left who could send one. -/
def WillStop (m : Mailbox) : Prop := .shutdown ∈ m.commands ∨ m.isOpen = false

/-- The requests for the counters that come before a shutdown. -/
def requestsIn : List Command → List Nat
  | .report id :: rest => id :: requestsIn rest
  | _ => []

def requests (m : Mailbox) : List Nat := requestsIn m.commands

variable {m : Mailbox}

theorem requestsIn_append {commands : List Command} (h : .shutdown ∈ commands) (more : List Command) :
    requestsIn (commands ++ more) = requestsIn commands := by
  induction commands with
  | nil => cases h
  | cons c rest ih =>
    cases c with
    | report id =>
      have hrest : Command.shutdown ∈ rest := by simpa using h
      exact congrArg (id :: ·) (ih hrest)
    | shutdown => rfl

theorem WillStop.send (h : m.WillStop) (c : Command) :
    (m.send c).2.WillStop ∧ (m.send c).2.requests = m.requests := by
  unfold Mailbox.send
  split
  · rename_i hroom
    -- a command is taken only while the mailbox is open, and then a shutdown is in it
    have hopen : m.isOpen = true := by simp_all
    have hsent : .shutdown ∈ m.commands := h.resolve_right (by simp [hopen])
    exact ⟨.inl (List.mem_append_left _ hsent), requestsIn_append hsent [c]⟩
  · exact ⟨h, rfl⟩

theorem WillStop.next (h : m.WillStop) :
    (∃ id rest, m.commands = .report id :: rest ∧ m.requests = id :: requestsIn rest ∧
      (.shutdown ∈ rest ∨ m.isOpen = false)) ∨
    m.requests = [] ∧ m.Stops := by
  cases hc : m.commands with
  | nil =>
    have hclosed : m.isOpen = false := h.resolve_left (by simp [hc])
    exact .inr ⟨by rw [requests, hc]; rfl, .inr ⟨hc, hclosed⟩⟩
  | cons c rest =>
    cases c with
    | report id =>
      refine .inl ⟨id, rest, rfl, by rw [requests, hc]; rfl, h.imp_left fun hm => ?_⟩
      simpa [hc] using hm
    | shutdown => exact .inr ⟨by rw [requests, hc]; rfl, .inl (by rw [hc]; rfl)⟩

end Mailbox

/-- How often the task gets to work. -/
def Occurrence.works (schedule : List (Occurrence ω)) : Nat :=
  schedule.countP fun
    | .work _ => true
    | _ => false

namespace Supervised

variable {l : Link σ} {act : ω → σ → σ} {delay : Nat} {s x y : Supervised (Recorded σ)}
  {schedule : List (Occurrence ω)}

/-- From `x` to `y` the relay left the broker and its pipeline alone: only others used
the broker. -/
structure Spares (act : ω → σ → σ) (schedule : List (Occurrence ω)) (x y : Supervised (Recorded σ)) :
    Prop where
  pipeline : y.state.pipeline = x.state.pipeline
  inner : y.state.broker.inner =
    (Occurrence.others schedule).foldl (fun b o => act o b) x.state.broker.inner
  calls : y.state.broker.calls = x.state.broker.calls

theorem spares_refl (act : ω → σ → σ) (x : Supervised (Recorded σ)) : Spares act [] x x := ⟨rfl, rfl, rfl⟩

theorem Spares.report (h : Spares act schedule x y) : y.report = x.report :=
  congrArg Pipeline.report h.pipeline

theorem Spares.of_work {z : Supervised (Recorded σ)} (h : Spares act schedule x y)
    (hp : z.state.pipeline = y.state.pipeline) (hb : z.state.broker = y.state.broker) (now : Nat) :
    Spares act (schedule ++ [.work now]) x z where
  pipeline := hp.trans h.pipeline
  inner := by
    rw [hb, h.inner, Occurrence.others, Occurrence.others, List.filterMap_append]
    exact congrArg (List.foldl _ _) (List.append_nil _).symm
  calls := (congrArg Recorded.calls hb).trans h.calls

/-- What others do, no relay does. -/
theorem Spares.of_other (h : Spares act schedule x y) {o : Occurrence ω} (ho : ∀ now, o ≠ .work now) :
    Spares act (schedule ++ [o]) x (y.next l.recorded (Recorded.others act) delay o) := by
  have hothers : Occurrence.others (schedule ++ [o]) = Occurrence.others schedule ++ Occurrence.others [o] :=
    List.filterMap_append
  have hinner : ∀ b, b = (Occurrence.others [o]).foldl (fun b o => act o b) y.state.broker.inner →
      b = (Occurrence.others (schedule ++ [o])).foldl (fun b o => act o b) x.state.broker.inner := by
    intro b hb
    rw [hothers, List.foldl_append, ← h.inner, hb]
  cases o with
  | work now => exact absurd rfl (ho now)
  | meanwhile o => exact ⟨h.pipeline, hinner _ rfl, h.calls⟩
  | send c => exact ⟨h.pipeline, hinner _ rfl, h.calls⟩
  | hangUp => exact ⟨h.pipeline, hinner _ rfl, h.calls⟩

/-- In `x` the relay is still in its loop and has answered the first `n` requests of `s`,
with the counters that it had in `s`. -/
structure Answered (s : Supervised (Recorded σ)) (n : Nat) (x : Supervised (Recorded σ)) : Prop where
  loop : x.task.InLoop
  willStop : x.state.mailbox.WillStop
  requests : x.state.mailbox.requests = s.state.mailbox.requests.drop n
  answers : x.state.mailbox.answers =
    s.state.mailbox.answers ++ (s.state.mailbox.requests.take n).map fun id => (id, s.report)

theorem Answered.of_other {n : Nat} (h : s.Answered n x) {o : Occurrence ω} (ho : ∀ now, o ≠ .work now) :
    s.Answered n (x.next l.recorded (Recorded.others act) delay o) := by
  cases o with
  | work now => exact absurd rfl (ho now)
  | meanwhile o => exact ⟨h.loop, h.willStop, h.requests, h.answers⟩
  | send c =>
    obtain ⟨hwill, hrequests⟩ := h.willStop.send c
    have hanswers : (x.state.mailbox.send c).2.answers = x.state.mailbox.answers := by
      unfold Mailbox.send
      split <;> rfl
    exact ⟨h.loop, hwill, hrequests.trans h.requests, hanswers.trans h.answers⟩
  | hangUp => exact ⟨h.loop, .inr rfl, h.requests, h.answers⟩

theorem Answered.work (l : Link σ) (act : ω → σ → σ) (delay : Nat) {n : Nat} (h : s.Answered n x)
    (hn : n < s.state.mailbox.requests.length) (hreport : x.report = s.report) (now : Nat) :
    s.Answered (n + 1) (x.next l.recorded (Recorded.others act) delay (.work now)) ∧
    (x.next l.recorded (Recorded.others act) delay (.work now)).state.pipeline = x.state.pipeline ∧
    (x.next l.recorded (Recorded.others act) delay (.work now)).state.broker = x.state.broker := by
  obtain ⟨seen, htask⟩ := h.loop
  have hwaiting := h.requests
  rw [List.drop_eq_getElem_cons hn] at hwaiting
  rcases h.willStop.next with ⟨id, rest, hc, hr, hwill⟩ | ⟨hnone, _⟩
  · rw [hr] at hwaiting
    obtain ⟨hid, hrest⟩ := List.cons.inj hwaiting
    rw [next_of_step htask (.answered hc)]
    refine ⟨⟨⟨none, rfl⟩, hwill, hrest, ?_⟩, rfl, rfl⟩
    calc (x.state.answer id rest).mailbox.answers
      _ = x.state.mailbox.answers ++ [(id, x.report)] := rfl
      _ = s.state.mailbox.answers ++ ((s.state.mailbox.requests.take n).map (fun id => (id, s.report)) ++
          [(s.state.mailbox.requests[n], s.report)]) := by
        rw [h.answers, hreport, hid, List.append_assoc]
      _ = _ := by
        rw [← List.take_append_getElem hn, List.map_append, List.map_singleton]
  · rw [hnone] at hwaiting
    cases hwaiting

/-- As long as requests wait, each step of the task answers one. -/
theorem run_answered (l : Link σ) (act : ω → σ → σ) (delay : Nat) (hloop : s.task.InLoop)
    (hstop : s.state.mailbox.WillStop) (schedule : List (Occurrence ω))
    (hn : Occurrence.works schedule ≤ s.state.mailbox.requests.length) :
    s.Answered (Occurrence.works schedule) (s.run l.recorded (Recorded.others act) delay schedule) ∧
    Spares act schedule s (s.run l.recorded (Recorded.others act) delay schedule) := by
  induction schedule using List.reverseRecOn with
  | nil => exact ⟨⟨hloop, hstop, rfl, (List.append_nil _).symm⟩, spares_refl act s⟩
  | append_singleton schedule o ih =>
    have hworks : Occurrence.works (schedule ++ [o]) = Occurrence.works schedule + Occurrence.works [o] :=
      List.countP_append
    rw [hworks] at hn ⊢
    obtain ⟨ha, hs⟩ := ih (Nat.le_trans (Nat.le_add_right _ _) hn)
    rw [run_append]
    cases o with
    | work now =>
      obtain ⟨ha', hp, hb⟩ := ha.work l act delay hn hs.report now
      exact ⟨ha', hs.of_work hp hb now⟩
    | meanwhile o => exact ⟨ha.of_other (by simp), hs.of_other (by simp)⟩
    | send c => exact ⟨ha.of_other (by simp), hs.of_other (by simp)⟩
    | hangUp => exact ⟨ha.of_other (by simp), hs.of_other (by simp)⟩

/-- After its last step a relay does nothing but report that it ended well. -/
theorem run_finished (l : Link σ) (act : ω → σ → σ) (delay : Nat)
    (hy : y.task = .running (.finished (.ok ()))) (later : List (Occurrence ω)) :
    (y.run l.recorded (Recorded.others act) delay later).task =
      (if Occurrence.works later = 0 then .running (.finished (.ok ())) else .ended (.ok y.report)) ∧
    (y.run l.recorded (Recorded.others act) delay later).state.mailbox.answers = y.state.mailbox.answers ∧
    Spares act later y (y.run l.recorded (Recorded.others act) delay later) := by
  induction later using List.reverseRecOn with
  | nil => exact ⟨hy, rfl, spares_refl act y⟩
  | append_singleton later o ih =>
    obtain ⟨htask, hanswers, hs⟩ := ih
    have hworks : Occurrence.works (later ++ [o]) = Occurrence.works later + Occurrence.works [o] :=
      List.countP_append
    rw [hworks, run_append]
    generalize y.run l.recorded (Recorded.others act) delay later = z at htask hanswers hs ⊢
    cases o with
    | work now =>
      have hreport : z.report = y.report := hs.report
      rw [if_neg (by simp [Occurrence.works])]
      by_cases hw : Occurrence.works later = 0
      · rw [if_pos hw] at htask
        have hended : z.next l.recorded (Recorded.others act) delay (.work now) =
            ⟨.ended (.ok z.report), z.state⟩ := next_of_step htask .ended
        rw [hended, hreport]
        exact ⟨rfl, hanswers, hs.of_work (z := ⟨.ended (.ok y.report), z.state⟩) rfl rfl now⟩
      · rw [if_neg hw] at htask
        have hsame : z.next l.recorded (Recorded.others act) delay (.work now) = z := by
          simp only [next, htask, TaskState.step]
        rw [hsame]
        exact ⟨htask, hanswers, hs.of_work rfl rfl now⟩
    | meanwhile o => exact ⟨htask, hanswers, hs.of_other (by simp)⟩
    | send c =>
      refine ⟨htask, Eq.trans ?_ hanswers, hs.of_other (by simp)⟩
      simp only [next, Mailbox.send]
      split <;> rfl
    | hangUp => exact ⟨htask, hanswers, hs.of_other (by simp)⟩

end Supervised

namespace Broker

/-- The messages that these calls brought into a queue: those of the confirmed publishes
that reach it. -/
def broughtInto (b : Broker) (queue : String) (calls : List Call) : List Message :=
  ((calls.filterMap Call.confirmed?).filter fun p => queue ∈ b.reached p.1 p.2.1).map fun p => ⟨p.2.1, p.2.2⟩

section BroughtInto

variable (b : Broker) (queue exchange key : String) (body : ByteArray)

theorem broughtInto_append (calls more : List Call) :
    b.broughtInto queue (calls ++ more) = b.broughtInto queue calls ++ b.broughtInto queue more := by
  simp only [broughtInto, List.filterMap_append, List.filter_append, List.map_append]

theorem broughtInto_failed (f : BrokerFailure) :
    b.broughtInto queue [.published exchange key body (.error f)] = [] := rfl

theorem broughtInto_confirmed : b.broughtInto queue [.published exchange key body (.ok ())] =
    if queue ∈ b.reached exchange key then [⟨key, body⟩] else [] := by
  have hone : b.broughtInto queue [.published exchange key body (.ok ())] =
    ([(exchange, key, body)].filter fun p => queue ∈ b.reached p.1 p.2.1).map fun p => ⟨p.2.1, p.2.2⟩ := rfl
  rw [hone]
  split
  · rename_i hq
    simp [hq]
  · rename_i hq
    simp [hq]

end BroughtInto

/-- The broker `b` after these publishes. -/
structure AfterPublishes (b : Broker) (attempts : List Call) (c : Broker) : Prop where
  exchanges : c.exchanges = b.exchanges
  bindings : c.bindings = b.bindings
  outstanding : c.outstanding = b.outstanding
  ready : ∀ queue, c.queues.get? queue = (b.queues.get? queue).map (· ++ b.broughtInto queue attempts)

theorem AfterPublishes.publish {b c : Broker} {attempts : List Call} (h : b.AfterPublishes attempts c)
    (exchange key : String) (body : ByteArray) :
    b.AfterPublishes (attempts ++ [.published exchange key body (c.publish exchange key body).1])
      (c.publish exchange key body).2 := by
  have hreached : c.reached exchange key = b.reached exchange key := by
    unfold reached targets
    rw [h.exchanges, h.bindings]
  rcases c.publish_cases exchange key body with ⟨f, faults, hp⟩ | ⟨_, _, hsome, hp⟩
  · rw [hp]
    refine ⟨h.exchanges, h.bindings, h.outstanding, fun queue => ?_⟩
    rw [broughtInto_append, broughtInto_failed, List.append_nil]
    exact h.ready queue
  · rcases c.route_cases exchange key body with ⟨he, _⟩ | hr
    · exact absurd (by rw [reached, he]) hsome
    · rw [hp, hr]
      refine ⟨h.exchanges, h.bindings, h.outstanding, fun queue => ?_⟩
      have hget := Table.get?_foldl_update _ (c.reached_nodup exchange key) (· ++ [⟨key, body⟩]) c.queues queue
      refine hget.trans ?_
      rw [broughtInto_append, broughtInto_confirmed, h.ready queue, hreached]
      split
      · simp [Function.comp_def]
      · simp

theorem drain_publishes (b : Backlog) (r : Recorded Broker) : ∃ attempts,
    (b.drain link.recorded r).2.2.calls = r.calls ++ attempts ∧
      r.inner.AfterPublishes attempts (b.drain link.recorded r).2.2.inner := by
  refine b.drain_keeps (P := fun t : Recorded Broker => ∃ attempts,
    t.calls = r.calls ++ attempts ∧ r.inner.AfterPublishes attempts t.inner) ?_ ?_
  · rintro t exchange key body ⟨attempts, hc, h⟩
    refine ⟨_, ?_, h.publish exchange key body⟩
    rw [link.recorded_publish, hc, List.append_assoc]
    rfl
  · exact ⟨[], (List.append_nil _).symm, rfl, rfl, rfl, fun queue => by simp [broughtInto]⟩

end Broker

namespace Supervised

/-- The last step of a relay that is shut down, from `x` to `y`: it drains its outbox by
these publishes, the first `k` of them confirmed, whatever the drain comes to, and drops
the connection. -/
structure LastDrain (x : Supervised (Recorded Broker)) (k : Nat) (outcome : Except RelayFailure Unit)
    (attempts : List Call) (y : Supervised (Recorded Broker)) : Prop where
  finished : y.task = .running (.finished (.ok ()))
  stopped : y.state.pipeline.phase = .stopped
  drains : x.state.pipeline.backlog.Drains k outcome y.state.pipeline.backlog attempts
  calls : y.state.broker.calls = x.state.broker.calls ++ attempts
  publishes : ∀ c ∈ attempts, ∃ e ∈ x.state.pipeline.backlog.outbox.entries, ∃ answer, c = e.call answer
  waiting : 0 < y.report.pending → ∃ e f earlier, attempts = earlier ++ [Entry.call e (.error f)]
  received : y.report.stats.received = x.report.stats.received
  acknowledged : y.report.stats.acknowledged = x.report.stats.acknowledged
  buffered : y.report.stats.buffered = x.report.stats.buffered
  dropped : y.report.stats.dropped = x.report.stats.dropped
  answers : y.state.mailbox.answers = x.state.mailbox.answers
  disconnected : y.state.broker.inner.connected = false
  settled : y.state.broker.inner.outstanding = []
  ready : ∀ queue, y.state.broker.inner.queues.get? queue =
    (x.state.broker.inner.queues.get? queue).map fun ready =>
      (x.state.broker.inner.outstanding.filter (·.queue = queue)).map (·.message) ++
        (ready ++ x.state.broker.inner.broughtInto queue attempts)

theorem lastDrain {x : Supervised (Recorded Broker)} (hloop : x.task.InLoop) (hstops : x.state.mailbox.Stops)
    (act : ω → Broker → Broker) (delay now : Nat) : ∃ k outcome attempts,
      x.LastDrain k outcome attempts (x.next Broker.link.recorded (Recorded.others act) delay (.work now)) := by
  obtain ⟨seen, htask⟩ := hloop
  obtain ⟨k, outcome, b', attempts, inner, hd, hk⟩ :=
    Backlog.drains Broker.link x.state.pipeline.backlog x.state.broker
  obtain ⟨published, hcalls, hafter⟩ :=
    Broker.drain_publishes x.state.pipeline.backlog x.state.broker
  rw [hd] at hcalls hafter
  obtain rfl : published = attempts := (List.append_cancel_left hcalls).symm
  have hy : x.next Broker.link.recorded (Recorded.others act) delay (.work now) =
      ⟨.running (.finished (.ok ())), { x.state.withCommands x.state.mailbox.commands.tail with
        pipeline := { x.state.pipeline with backlog := b', phase := .stopped }
        broker := ⟨inner.disconnect, x.state.broker.calls ++ published ++ []⟩ }⟩ := by
    rw [next_of_step htask (.stopped hstops), RelayState.terminate, Pipeline.terminate]
    simp only [RelayState.withCommands, hd]
    rfl
  obtain ⟨hreceived, hacknowledged, hbuffered, hdropped⟩ := hk.counters
  refine ⟨k, outcome, published, ?_⟩
  rw [hy]
  refine ⟨rfl, rfl, hk, List.append_nil _, fun c hc => hk.attempts_mem hc, fun hpending => ?_,
    hreceived, hacknowledged, hbuffered, hdropped, rfl, rfl, rfl, fun queue => ?_⟩
  · rcases hk.waiting with hnone | ⟨e, rest, f, earlier, _, he⟩
    · exact absurd hpending (by simp [report, Pipeline.report, Backlog.report, Outbox.length, hnone])
    · exact ⟨e, f, earlier, he⟩
  · have hback := Broker.get?_putBack inner.outstanding inner.queues queue
    refine hback.trans ?_
    rw [hafter.ready queue, hafter.outstanding, Option.map_map]
    rfl

/-- A relay is in its loop and a shutdown is on its way to it, in any state and beside
any broker. Whatever others do and send, each step of its task answers one of the
requests that were sent before the shutdown, with the counters that it had all along, and
does nothing else. The next step drains the outbox, once, and drops the connection, and
the run is a good one whatever the drain comes to. From then on the relay does nothing
but end. Only the drain makes calls, and all of them are publishes. -/
theorem pending_shutdown_stops (delay : Nat) (s : Supervised (Recorded Broker)) (hloop : s.task.InLoop)
    (hstop : s.state.mailbox.WillStop) :
    let relay := s.run Broker.link.recorded (Recorded.others brokerActs) delay
    let n := s.state.mailbox.requests.length
    (∀ schedule, (relay schedule).map Recorded.inner =
      (s.map Recorded.inner).run Broker.link brokerActs delay schedule) ∧
    (∀ schedule, Occurrence.works schedule ≤ n →
      s.Answered (Occurrence.works schedule) (relay schedule) ∧ Spares brokerActs schedule s (relay schedule)) ∧
    ∀ earlier now later, Occurrence.works earlier = n →
      let x := relay earlier
      let y := relay (earlier ++ [.work now])
      let z := relay (earlier ++ .work now :: later)
      s.Answered n x ∧ Spares brokerActs earlier s x ∧ Spares brokerActs later y z ∧
      (∃ k outcome attempts, x.LastDrain k outcome attempts y ∧
        z.state.broker.calls = s.state.broker.calls ++ attempts) ∧
      z.state.mailbox.answers = s.state.mailbox.answers ++ s.state.mailbox.requests.map (fun id => (id, s.report)) ∧
      z.task = if Occurrence.works later = 0 then .running (.finished (.ok ())) else .ended (.ok y.report) := by
  intro relay n
  have hanswered := run_answered Broker.link brokerActs delay hloop hstop
  refine ⟨fun schedule => (run_map Broker.link.recorded_lifts (fun _ _ => rfl) delay s schedule).symm,
    hanswered, ?_⟩
  intro earlier now later hn x y z
  obtain ⟨ha, hx⟩ := hanswered earlier hn.le
  rw [hn] at ha
  -- all requests are answered, so it is the turn of the shutdown
  have hstops : x.state.mailbox.Stops := by
    rcases ha.willStop.next with ⟨id, rest, _, hr, _⟩ | ⟨_, hstops⟩
    · have hnone := ha.requests
      rw [List.drop_length, hr] at hnone
      cases hnone
    · exact hstops
  have hy : y = x.next Broker.link.recorded (Recorded.others brokerActs) delay (.work now) := run_append ..
  have hz : z = y.run Broker.link.recorded (Recorded.others brokerActs) delay later := by
    rw [hy]
    exact List.foldl_append
  obtain ⟨k, outcome, attempts, hlast⟩ := lastDrain ha.loop hstops brokerActs delay now
  rw [← hy] at hlast
  obtain ⟨htask, hanswers, hrest⟩ := run_finished Broker.link brokerActs delay hlast.finished later
  rw [← hz] at htask hanswers hrest
  refine ⟨ha, hx, hrest, ⟨k, outcome, attempts, hlast, ?_⟩, ?_, htask⟩
  · rw [hrest.calls, hlast.calls, hx.calls]
  · rw [hanswers, hlast.answers, ha.answers, List.take_length]

/-- Two requests come before the shutdown and one after it, the first of the alerts that
wait goes to the queue that the relay reads, and the second to an exchange that does not
exist. The queue gets its outstanding message back and keeps the one that is ready. -/
theorem pending_shutdown_stops_outstanding :
    let routed : Entry := ⟨"alert", "key", .newRelease "repo" "one" "v1" 0 "p" "o"⟩
    let lost : Entry := ⟨"gone", "key", .newRelease "repo" "two" "v2" 0 "p" "o"⟩
    let old : Message := ⟨"key", ⟨#[1]⟩⟩
    let new : Message := ⟨"key", ⟨#[2]⟩⟩
    let broker : Broker :=
      { connected := true, exchanges := [("alert", .direct)], queues := [("in", [new])]
        bindings := [⟨"in", "alert", "key"⟩], lastTag := 1, outstanding := [⟨1, "in", old⟩] }
    let pipeline := Pipeline.ofSettings { queue := some "in" } .gitHub
    let s : Supervised (Recorded Broker) :=
      ⟨.running (.consuming none), ⟨broker, []⟩, { pipeline with backlog := ⟨⟨2, [routed, lost]⟩, {}⟩ },
        { commands := [.report 7, .report 8, .shutdown, .report 9] }⟩
    let relay := s.run Broker.link.recorded (Recorded.others brokerActs) 20
    let x := relay [.work 0, .send (.report 10), .work 0]
    let y := relay [.work 0, .send (.report 10), .work 0, .work 0]
    s.task.InLoop ∧ s.state.mailbox.WillStop ∧ s.state.mailbox.requests = [7, 8] ∧
    (∃ k outcome attempts, x.LastDrain k outcome attempts y) ∧
    y.state.mailbox.answers = [(7, ⟨{}, 2⟩), (8, ⟨{}, 2⟩)] ∧
    y.state.broker.calls = [routed.call (.ok ()), lost.call (.error (.noExchange "gone"))] ∧
    y.state.broker.inner.messages "in" = [old, new, ⟨"key", routed.alert.wire.toUTF8⟩] ∧
    y.report = ⟨{ published := 1, hasPublished := true }, 1⟩ := by
  intro routed lost old new broker pipeline s relay x y
  have hloop : s.task.InLoop := ⟨none, rfl⟩
  have hstop : s.state.mailbox.WillStop := .inl (by decide)
  obtain ⟨_, _, hends⟩ := pending_shutdown_stops 20 s hloop hstop
  obtain ⟨_, _, _, ⟨k, outcome, attempts, hlast, _⟩, hanswers, _⟩ :=
    hends [.work 0, .send (.report 10), .work 0] 0 [] rfl
  replace hlast : x.LastDrain k outcome attempts y := hlast
  have hcalls : y.state.broker.calls = [routed.call (.ok ()), lost.call (.error (.noExchange "gone"))] := rfl
  have hattempts : attempts = y.state.broker.calls := hlast.calls.symm
  have hreached : broker.reached "alert" "key" = ["in"] := by decide +kernel
  have hmessages : y.state.broker.inner.messages "in" =
      [old, new] ++ broker.broughtInto "in" [routed.call (.ok ()), lost.call (.error (.noExchange "gone"))] := by
    rw [Broker.messages, hlast.ready "in", hattempts, hcalls]
    rfl
  have hbrought : broker.broughtInto "in" [routed.call (.ok ()), lost.call (.error (.noExchange "gone"))] =
      [⟨"key", routed.alert.wire.toUTF8⟩] := by
    have happend := broker.broughtInto_append "in" [routed.call (.ok ())]
      [lost.call (.error (.noExchange "gone"))]
    have hrouted := broker.broughtInto_confirmed "in" "alert" "key" routed.alert.wire.toUTF8
    rw [hreached] at hrouted
    exact happend.trans (congrArg (· ++ []) hrouted)
  refine ⟨hloop, hstop, rfl, ⟨k, outcome, attempts, hlast⟩, hanswers, hcalls, ?_, by decide +kernel⟩
  rw [hmessages, hbrought]
  rfl

end Supervised

end AlertRelay
