import AlertRelay.Proofs.Lifting
import AlertRelay.Proofs.Passage

/-! While the relay of a replay works, the reader sends lines and looks whether the relay
is idle, and the printer prints. Each operation of the relay is one step at the broker, and
any number of their steps may come before it. -/

namespace AlertRelay

/-- A step of the reader or of the printer. The reader counts first what is ready and then
what is outstanding; the printer takes what is at the sink and writes it later. -/
inductive Act
  | feed (line : String)
  | countReady
  | countOutstanding
  | take
  | write

/-- The lines that are sent. -/
def Act.feeds (acts : List Act) : List String :=
  acts.filterMap fun
    | .feed line => some line
    | _ => none

theorem Act.feeds_append (as bs : List Act) : feeds (as ++ bs) = feeds as ++ feeds bs := List.filterMap_append

theorem Act.feeds_cons (a : Act) (as : List Act) : feeds (a :: as) = feeds [a] ++ feeds as := feeds_append [a] as

theorem Act.feeds_tail_le (coming : List (List Act)) :
    (feeds coming.tail.flatten).length ≤ (feeds coming.flatten).length := by
  cases coming with
  | nil => exact le_refl 0
  | cons as coming =>
    rw [List.flatten_cons, feeds_append, List.length_append]
    exact Nat.le_add_left _ _

/-- A broker with what was printed, what the printer has in hand, and what the reader has
found since it sent the last line. `coming` is what comes before each of the next operations. -/
structure Stage where
  broker : Broker
  printed : List ByteArray := []
  batch : Option (List ByteArray) := none
  isEmpty : Bool := false
  isIdle : Bool := false
  coming : List (List Act) := []

namespace Stage

def inHand (st : Stage) : List ByteArray := st.batch.getD []

def atSink (st : Stage) : List ByteArray := (st.broker.takeMessages sinkQueue).1

def act (s : Settings) (st : Stage) : Act → Stage
  | .feed line => { st with
      broker := (st.broker.inject s.exchange s.inboundKey line.toUTF8).2
      isEmpty := false
      isIdle := false }
  | .countReady => { st with isEmpty := decide (st.broker.ready s.inboundQueue = 0) }
  | .countOutstanding => { st with isIdle := st.isEmpty && st.broker.outstanding.isEmpty }
  | .take =>
    match st.batch with
    | some _ => st
    | none => { st with
        broker := (st.broker.takeMessages sinkQueue).2
        batch := some st.atSink }
  | .write => { st with printed := st.printed ++ st.inHand, batch := none }

def acts (s : Settings) (st : Stage) (as : List Act) : Stage := as.foldl (act s) st

/-- An operation of the relay, after what comes before it. -/
def during {α : Type} (s : Settings) (op : Broker → α × Broker) (st : Stage) : α × Stage :=
  let now := st.acts s (st.coming.headD [])
  ((op now.broker).1, { now with broker := (op now.broker).2, coming := st.coming.tail })

def link (s : Settings) : Link Stage where
  connect := during s Broker.connect
  declareExchange name kind := during s (Broker.declareExchange name kind)
  declareQueue name := during s (Broker.declareQueue name)
  bindQueue queue exchange key := during s (Broker.bindQueue queue exchange key)
  setPrefetch count := during s (Broker.setPrefetch count)
  confirmDelivery := during s Broker.confirmDelivery
  nextDelivery queue := during s (Broker.nextDelivery queue)
  ack tag := during s (Broker.ack tag)
  publish exchange key body := during s (Broker.publish exchange key body)
  close := during s Broker.close
  wakeUps st := st.broker.wakeUps

/-- A broker that the relay has to itself. -/
def alone (b : Broker) : Stage := { broker := b }

theorem alone_lifts (s : Settings) : Broker.link.Lifts alone (link s) := by
  constructor <;> intros <;> rfl

/-- What comes during the next step of the relay. -/
def expect (coming : List (List Act)) (st : Stage) : Stage := { st with coming := coming }

/-- What is left of it comes after the step. -/
def settle (s : Settings) (st : Stage) : Stage := { st.acts s st.coming.flatten with coming := [] }

/-- All that came out: in print, in the hand of the printer, or at the sink. -/
def output (st : Stage) : List ByteArray := st.printed ++ st.inHand ++ st.atSink

/-- The last flush: what is at the sink is taken, and it is written after some more steps. -/
def flush (s : Settings) (between : List Act) (st : Stage) : Stage :=
  let now := { st with broker := (st.broker.takeMessages sinkQueue).2 }.acts s between
  { now with printed := now.printed ++ st.atSink }

/-- What is printed in the end: after the last flush, and when the printer has nothing in
its hand. -/
def Ends (s : Settings) (st : Stage) (output : List ByteArray) : Prop :=
  ∃ between after, Act.feeds (between ++ after) = [] ∧
    ((st.flush s between).acts s after).batch = none ∧ ((st.flush s between).acts s after).printed = output

section Printing

variable {s : Settings} {st : Stage}

theorem atSink_takeMessages (st : Stage) :
    atSink { st with broker := (st.broker.takeMessages sinkQueue).2 } = [] := by
  simp only [atSink, Broker.takeMessages, Table.get?_update, if_pos]
  cases st.broker.queues.get? sinkQueue <;> rfl

/-- The printer takes nothing while it has a batch in its hand. -/
theorem act_take_of_batch {batch : List ByteArray} (h : st.batch = some batch) : st.act s .take = st := by
  simp only [act, h]

theorem act_output {a : Act} (h : Act.feeds [a] = []) : (st.act s a).output = st.output := by
  cases a with
  | feed line => cases h
  | countReady => rfl
  | countOutstanding => rfl
  | take =>
    cases hbatch : st.batch with
    | some batch => rw [act_take_of_batch hbatch]
    | none =>
      have htaken := st.atSink_takeMessages
      simp only [atSink] at htaken
      simp only [act, hbatch, output, inHand, atSink, htaken]
      simp
  | write =>
    have hempty : (st.act s .write).inHand = [] := rfl
    rw [output, hempty, List.append_nil]
    rfl

theorem acts_output {as : List Act} (h : Act.feeds as = []) : (st.acts s as).output = st.output := by
  induction as generalizing st with
  | nil => rfl
  | cons a as ih =>
    rw [Act.feeds_cons, List.append_eq_nil_iff] at h
    exact (ih h.2).trans (act_output h.1)

theorem settle_output (s : Settings) (st : Stage) (h : Act.feeds st.coming.flatten = []) :
    (st.settle s).output = st.output := acts_output (s := s) h

/-- With nothing at the sink, the printer can write what it has in its hand and no more. -/
structure Writes (st st' : Stage) : Prop where
  atSink : st'.atSink = []
  printed : st'.printed = st.printed ∧ st'.inHand = st.inHand ∨
    st'.printed = st.printed ++ st.inHand ∧ st'.inHand = []

theorem Writes.trans {st₁ st₂ : Stage} (h₁ : st.Writes st₁) (h₂ : st₁.Writes st₂) : st.Writes st₂ := by
  refine ⟨h₂.atSink, ?_⟩
  have hprinted := h₂.printed
  rcases h₁.printed with ⟨hp, hh⟩ | ⟨hp, hh⟩ <;> rw [hp, hh] at hprinted
  · exact hprinted
  · rw [List.append_nil, or_self] at hprinted
    exact .inr hprinted

theorem act_writes (hsink : st.atSink = []) {a : Act} (h : Act.feeds [a] = []) : st.Writes (st.act s a) := by
  cases a with
  | feed line => cases h
  | countReady => exact ⟨hsink, .inl ⟨rfl, rfl⟩⟩
  | countOutstanding => exact ⟨hsink, .inl ⟨rfl, rfl⟩⟩
  | take =>
    cases hbatch : st.batch with
    | some batch =>
      rw [act_take_of_batch hbatch]
      exact ⟨hsink, .inl ⟨rfl, rfl⟩⟩
    | none =>
      simp only [act, hbatch]
      refine ⟨st.atSink_takeMessages, .inl ⟨rfl, ?_⟩⟩
      rw [inHand, inHand, hbatch, hsink]
      rfl
  | write => exact ⟨hsink, .inr ⟨rfl, rfl⟩⟩

theorem acts_writes (hsink : st.atSink = []) {as : List Act} (h : Act.feeds as = []) :
    st.Writes (st.acts s as) := by
  induction as generalizing st with
  | nil => exact ⟨hsink, .inl ⟨rfl, rfl⟩⟩
  | cons a as ih =>
    rw [Act.feeds_cons, List.append_eq_nil_iff] at h
    have hwrites := act_writes (s := s) hsink h.1
    exact hwrites.trans (ih hwrites.atSink h.2)

/-- The printer may have a batch in its hand while the last flush takes and writes one:
the two come out in either order. -/
theorem ends_iff (s : Settings) (st : Stage) (output : List ByteArray) :
    st.Ends s output ↔
      output = st.printed ++ st.inHand ++ st.atSink ∨ output = st.printed ++ st.atSink ++ st.inHand := by
  constructor
  · rintro ⟨between, after, hfeeds, hbatch, rfl⟩
    rw [Act.feeds_append, List.append_eq_nil_iff] at hfeeds
    obtain ⟨hsink, hprinted₁⟩ := acts_writes (s := s) st.atSink_takeMessages hfeeds.1
    have hsink' : (st.flush s between).atSink = [] := hsink
    have hprinted₂ := (acts_writes (s := s) hsink' hfeeds.2).printed
    have hdone : ((st.flush s between).acts s after).inHand = [] := by rw [inHand, hbatch]; rfl
    have hflushed : (st.flush s between).printed =
        (acts s { st with broker := (st.broker.takeMessages sinkQueue).2 } between).printed ++ st.atSink := rfl
    have hhand : (st.flush s between).inHand =
        (acts s { st with broker := (st.broker.takeMessages sinkQueue).2 } between).inHand := rfl
    rw [hdone, hflushed, hhand] at hprinted₂
    rcases hprinted₁ with ⟨hp, hh⟩ | ⟨hp, hh⟩ <;> rw [hp, hh] at hprinted₂
    · rcases hprinted₂ with ⟨hout, hnone⟩ | ⟨hout, -⟩
      · -- nothing was in the hand of the printer
        have hnone' : st.inHand = [] := hnone.symm
        rw [hnone', List.append_nil, List.append_nil, or_self]
        exact hout
      · exact .inr hout
    · rw [List.append_nil, or_self] at hprinted₂
      exact .inl hprinted₂.1
  · rintro (rfl | rfl)
    · exact ⟨[.write], [], rfl, rfl, rfl⟩
    · exact ⟨[], [.write], rfl, rfl, rfl⟩

end Printing

/-- The stage of a replay: `out` is what came out of the lines so far, in print, in the hand
of the printer or at the sink. -/
structure Shows (st : Stage) (s : Settings) (out : List ByteArray) (waiting : List String)
    (held : List Outstanding) : Prop where
  broker : ∃ sink, st.broker.Replays s sink (waiting.map s.recorded) held ∧
    st.printed ++ st.inHand ++ sink.map (·.body) = out
  empty : st.isEmpty = true → waiting = []
  idle : st.isIdle = true → waiting = []

/-- The lines that wait or are still to be sent during the step. -/
def Holds (st : Stage) (s : Settings) (out : List ByteArray) (rest : List String) (held : List Outstanding) : Prop :=
  ∃ waiting, st.Shows s out waiting held ∧ waiting ++ Act.feeds st.coming.flatten = rest

variable {st : Stage} {s : Settings} {out : List ByteArray} {waiting rest : List String}
variable {held held' : List Outstanding}

theorem Shows.expect (h : st.Shows s out waiting held) (coming : List (List Act)) :
    (st.expect coming).Holds s out (waiting ++ Act.feeds coming.flatten) held :=
  ⟨waiting, { h with }, rfl⟩

theorem Shows.isIdle (h : st.Shows s out [] []) :
    ((st.act s .countReady).act s .countOutstanding).isIdle = true := by
  obtain ⟨sink, hb, -⟩ := h.broker
  show (decide (st.broker.ready s.inboundQueue = 0) && st.broker.outstanding.isEmpty) = true
  rw [hb.ready_eq, hb.outstanding]
  rfl

section Acts

variable (hs : s.source = "github") (hq : s.inboundQueue ≠ sinkQueue)
include hs hq

theorem Shows.feed (h : st.Shows s out waiting held) (line : String) :
    (st.act s (.feed line)).Shows s out (waiting ++ [line]) held ∧
      (st.act s (.feed line)).broker.wakeUps = st.broker.wakeUps + 1 := by
  obtain ⟨sink, hb, hout⟩ := h.broker
  obtain ⟨b, hinject, hb', hwake⟩ := hb.inject hq hs line
  have hbroker : (st.act s (.feed line)).broker = b := congrArg Prod.snd hinject
  rw [← hbroker] at hb' hwake
  refine ⟨⟨⟨sink, ?_, hout⟩, nofun, nofun⟩, hwake⟩
  rw [List.map_append]
  exact hb'

omit hs in
theorem Shows.act_silent (h : st.Shows s out waiting held) {a : Act} (ha : Act.feeds [a] = []) :
    (st.act s a).Shows s out waiting held ∧ (st.act s a).broker.wakeUps = st.broker.wakeUps := by
  obtain ⟨sink, hb, hout⟩ := h.broker
  cases a with
  | feed line => cases ha
  | countReady =>
    refine ⟨⟨⟨sink, hb, hout⟩, fun hready => ?_, h.idle⟩, rfl⟩
    have hlength := hb.ready_eq
    rw [of_decide_eq_true hready, List.length_map] at hlength
    exact List.length_eq_zero_iff.mp hlength.symm
  | countOutstanding =>
    exact ⟨⟨⟨sink, hb, hout⟩, h.empty, fun hidle => h.empty (Bool.and_eq_true_iff.mp hidle).1⟩, rfl⟩
  | take =>
    cases hbatch : st.batch with
    | some batch =>
      rw [act_take_of_batch hbatch]
      exact ⟨h, rfl⟩
    | none =>
      obtain ⟨b, htake, hb', hwake⟩ := hb.takeMessages hq
      simp only [Stage.act, hbatch, atSink, htake]
      refine ⟨⟨⟨[], hb', ?_⟩, h.empty, h.idle⟩, hwake⟩
      rw [← hout, inHand, inHand, hbatch]
      simp
  | write =>
    refine ⟨⟨⟨sink, hb, ?_⟩, h.empty, h.idle⟩, rfl⟩
    rw [← hout]
    exact congrArg (· ++ _) (List.append_nil _)

theorem Shows.act (h : st.Shows s out waiting held) (a : Act) :
    (st.act s a).Shows s out (waiting ++ Act.feeds [a]) held ∧
      (st.act s a).broker.wakeUps = st.broker.wakeUps + (Act.feeds [a]).length := by
  cases a with
  | feed line => exact h.feed hs hq line
  | _ =>
    rw [Act.feeds, List.filterMap_cons, List.filterMap_nil, List.append_nil]
    exact h.act_silent hq rfl

theorem Shows.acts (h : st.Shows s out waiting held) (as : List Act) :
    (st.acts s as).Shows s out (waiting ++ Act.feeds as) held ∧
      (st.acts s as).broker.wakeUps = st.broker.wakeUps + (Act.feeds as).length := by
  induction as generalizing st waiting with
  | nil =>
    rw [show Act.feeds [] = [] from rfl, List.append_nil]
    exact ⟨h, rfl⟩
  | cons a as ih =>
    obtain ⟨h₁, hwake₁⟩ := h.act hs hq a
    obtain ⟨h₂, hwake₂⟩ := ih h₁
    rw [Act.feeds_cons, ← List.append_assoc, List.length_append, ← Nat.add_assoc, ← hwake₁]
    exact ⟨h₂, hwake₂⟩

theorem Shows.settle (h : st.Shows s out waiting held) :
    (st.settle s).Shows s out (waiting ++ Act.feeds st.coming.flatten) held ∧
      (st.settle s).broker.wakeUps = st.broker.wakeUps + (Act.feeds st.coming.flatten).length := by
  obtain ⟨h', hwake⟩ := h.acts hs hq st.coming.flatten
  exact ⟨{ h' with }, hwake⟩

/-- The stage that an operation finds. -/
theorem Holds.now (h : st.Holds s out rest held) : ∃ waiting,
    (st.acts s (st.coming.headD [])).Shows s out waiting held ∧
      waiting ++ Act.feeds st.coming.tail.flatten = rest := by
  obtain ⟨waiting, hshows, hrest⟩ := h
  refine ⟨_, (hshows.acts hs hq _).1, ?_⟩
  rw [← hrest, List.append_assoc]
  cases st.coming with
  | nil => rfl
  | cons as coming => exact congrArg (waiting ++ ·) (Act.feeds_append ..).symm

theorem Holds.operate {op : Broker → Outcome Unit × Broker} {more : List Message}
    (hop : Broker.Performs op s held held' more) (h : st.Holds s out rest held) :
    ∃ st', during s op st = (.ok (), st') ∧ st'.Holds s (out ++ more.map (·.body)) rest held' := by
  obtain ⟨waiting, hshows, hrest⟩ := h.now hs hq
  obtain ⟨sink, hb, hout⟩ := hshows.broker
  obtain ⟨b, hperform, hb'⟩ := hop hb
  refine ⟨{ st.acts s (st.coming.headD []) with broker := b, coming := st.coming.tail }, ?_,
    waiting, ⟨⟨_, hb', ?_⟩, hshows.empty, hshows.idle⟩, hrest⟩
  · simp only [during, hperform]
  · rw [List.map_append, ← List.append_assoc, ← hout]
    rfl

theorem Holds.operate_silent {op : Broker → Outcome Unit × Broker} (hop : Broker.Performs op s held held' [])
    (h : st.Holds s out rest held) : ∃ st', during s op st = (.ok (), st') ∧ st'.Holds s out rest held' := by
  obtain ⟨st', hperform, h'⟩ := h.operate hs hq hop
  rw [List.map_nil, List.append_nil] at h'
  exact ⟨st', hperform, h'⟩

/-- Declaring the topology again changes nothing of it. -/
theorem Holds.declare (h : st.Holds s out rest held) (rule : Rule) (phase : Phase) (backlog : Backlog) :
    ∃ st', { Pipeline.ofSettings s rule with phase := phase, backlog := backlog }.declare (link s) st = (.ok (), st') ∧
      st'.Holds s out rest held := by
  obtain ⟨st₁, hconnect, h₁⟩ := h.operate_silent hs hq Broker.Replays.connect
  obtain ⟨st₂, hexchange, h₂⟩ := h₁.operate_silent hs hq Broker.Replays.declareExchange
  obtain ⟨st₃, hqueue, h₃⟩ := h₂.operate_silent hs hq Broker.Replays.declareQueue
  obtain ⟨st₄, hbind, h₄⟩ := h₃.operate_silent hs hq Broker.Replays.bindQueue
  obtain ⟨st₅, hprefetch, h₅⟩ := h₄.operate_silent hs hq (Broker.Replays.setPrefetch s.prefetch)
  obtain ⟨st₆, hconfirm, h₆⟩ := h₅.operate_silent hs hq Broker.Replays.confirmDelivery
  refine ⟨st₆, ?_, h₆⟩
  simp only [Pipeline.declare, Pipeline.ofSettings, link, andThen, hconnect, hexchange, hqueue, hbind, hprefetch,
    hconfirm]

theorem Holds.drain (h : st.Holds s out rest held) (stats : Stats) (alerts : List Alert) :
    ∃ stats' st', drainEntries (link s) stats st (alerts.map fun a => ⟨s.exchange, s.outboundKey, a⟩) =
        ⟨.ok (), [], stats', st'⟩ ∧
      st'.Holds s (out ++ alerts.map (·.wire.toUTF8)) rest held := by
  induction alerts generalizing st out stats with
  | nil =>
    refine ⟨stats, st, rfl, ?_⟩
    rw [List.map_nil, List.append_nil]
    exact h
  | cons a alerts ih =>
    obtain ⟨st₁, hpublish, h₁⟩ := h.operate hs hq (Broker.Replays.publish hq hs a.wire.toUTF8)
    obtain ⟨stats', st₂, hdrain, h₂⟩ := ih h₁ stats.publish
    have hlink : (link s).publish s.exchange s.outboundKey a.wire.toUTF8 st = (.ok (), st₁) := hpublish
    refine ⟨stats', st₂, ?_, ?_⟩
    · rw [List.map_cons, drainEntries, hlink]
      exact hdrain
    · simpa only [List.map_cons, List.map_nil, List.append_assoc, List.singleton_append] using h₂

/-- A line that was handed out is taken in: its newest alerts come out, and nothing of it
stays. -/
theorem Holds.take {tag : Nat} {queue line : String} (hc : s.bufferCapacity ≠ 0)
    (h : st.Holds s out rest [⟨tag, queue, s.recorded line⟩]) (key : String) (stats : Stats) :
    ∃ stats' st', (Pipeline.ofSettings s .gitHub).intake.take (link s) ⟨tag, key, line.toUTF8⟩
        ⟨.new s.bufferCapacity, stats⟩ st = (.ok (), ⟨.new s.bufferCapacity, stats'⟩, st') ∧
      st'.Holds s (out ++ s.relayed line) rest [] := by
  obtain ⟨st₁, hack, h₁⟩ := h.operate_silent hs hq (Broker.Replays.ack ⟨tag, queue, s.recorded line⟩)
  have hlink : (link s).ack tag st = (.ok (), st₁) := hack
  have hnew : Outbox.new s.bufferCapacity = ⟨s.bufferCapacity, []⟩ := by
    rw [Outbox.new, Nat.max_eq_left (Nat.one_le_iff_ne_zero.mpr hc)]
  simp only [Intake.take, hlink, hnew]
  generalize hfilled : List.foldl Backlog.put _ _ = filled
  have hentries : filled.outbox = ⟨s.bufferCapacity,
      (newest s.bufferCapacity (Rule.gitHub.alertsOf line.toUTF8)).map fun a => ⟨s.exchange, s.outboundKey, a⟩⟩ := by
    rw [← hfilled, Backlog.foldl_put_outbox (Nat.pos_of_ne_zero hc) (Nat.zero_le _), map_newest]
    rfl
  obtain ⟨stats', st₂, hdrain, h₂⟩ :=
    h₁.drain hs hq filled.stats (newest s.bufferCapacity (Rule.gitHub.alertsOf line.toUTF8))
  refine ⟨stats', st₂, ?_, h₂⟩
  rw [Backlog.drain, hentries, hdrain]

/-- A look for a line finds the next one, if there is one. -/
theorem Holds.look (h : st.Holds s out rest []) :
    (∃ st', (link s).nextDelivery s.inboundQueue st = (.ok none, st') ∧ st'.Shows s out [] [] ∧
      st'.coming = st.coming.tail ∧ Act.feeds st'.coming.flatten = rest) ∨
    ∃ line rest' tag st', (link s).nextDelivery s.inboundQueue st = (.ok (some ⟨tag, s.inboundKey, line.toUTF8⟩), st') ∧
      line :: rest' = rest ∧ st'.Holds s out rest' [⟨tag, s.inboundQueue, s.recorded line⟩] := by
  obtain ⟨waiting, hshows, hrest⟩ := h.now hs hq
  obtain ⟨sink, hb, hout⟩ := hshows.broker
  have hlink : (link s).nextDelivery s.inboundQueue st = during s (Broker.nextDelivery s.inboundQueue) st := rfl
  cases waiting with
  | nil =>
    refine .inl ⟨{ st.acts s (st.coming.headD []) with coming := st.coming.tail }, ?_,
      ⟨⟨sink, hb, hout⟩, fun _ => rfl, fun _ => rfl⟩, rfl, hrest⟩
    simp only [hlink, during, hb.nextDelivery_none]
  | cons line waiting =>
    obtain ⟨tag, b, hnext, hb'⟩ := hb.nextDelivery_line hq
    refine .inr ⟨line, _, tag,
      { st.acts s (st.coming.headD []) with broker := b, coming := st.coming.tail }, ?_, hrest, waiting,
      ⟨⟨sink, hb', hout⟩, fun hempty => ?_, fun hidle => ?_⟩, rfl⟩
    · simp only [hlink, during, hnext]
      rfl
    · cases hshows.empty hempty
    · cases hshows.idle hidle

theorem Holds.close (h : st.Holds s out [] []) : ((link s).close st).2.output = out ∧
    Act.feeds ((link s).close st).2.coming.flatten = [] := by
  obtain ⟨waiting, hshows, hrest⟩ := h.now hs hq
  obtain ⟨rfl, hfeeds⟩ := List.append_eq_nil_iff.mp hrest
  obtain ⟨sink, hb, hout⟩ := hshows.broker
  obtain ⟨b, hclose, hsink⟩ := hb.close
  refine ⟨?_, hfeeds⟩
  simp only [link, during, hclose, output, atSink, Broker.takeMessages, hsink, Option.getD_some]
  exact hout

end Acts

end Stage

end AlertRelay
