import AlertRelay.Proofs.Interference
import AlertRelay.Proofs.Supervision

/-! A replay in any order: the lines are sent and the output is printed between two steps
of the relay or in the middle of one. -/

namespace AlertRelay

/-- A pipeline between two messages of a replay: no alert waits. -/
def Pipeline.Clear (p : Pipeline) (s : Settings) : Prop :=
  ∃ phase stats, p = { Pipeline.ofSettings s .gitHub with
    phase := phase
    backlog := ⟨.new s.bufferCapacity, stats⟩ }

section

variable {σ : Type} (link : Link σ) (now delay : Nat) (s : RelayState σ)

theorem TaskState.step_starting : (running .starting).step link now delay s =
    (RunState.starting.step link s).map fun (r, s) => (.running r, s) := rfl

theorem TaskState.step_consuming (seen : Option Nat) : (running (.consuming seen)).step link now delay s =
    ((RunState.consuming seen).step link s).map fun (r, s) => (.running r, s) := rfl

end

theorem Pipeline.Clear.queue {p : Pipeline} {s : Settings} (h : p.Clear s) : p.queue = s.inboundQueue := by
  obtain ⟨phase, stats, rfl⟩ := h
  rfl

namespace RelayState

variable {r : RelayState Stage} {s : Settings} {out : List ByteArray} {rest : List String}
variable (hs : s.source = "github") (hq : s.inboundQueue ≠ sinkQueue)
include hs hq

theorem begin_clear (hp : r.pipeline.Clear s) (h : r.broker.Holds s out rest []) :
    ∃ r', r.begin (Stage.link s) = (.ok (), r') ∧ r'.mailbox = r.mailbox ∧ r'.pipeline.Clear s ∧
      r'.broker.Holds s out rest [] := by
  obtain ⟨phase, stats, hp⟩ := hp
  obtain ⟨st, hdeclare, h'⟩ := h.declare hs hq .gitHub phase ⟨.new s.bufferCapacity, stats⟩
  refine ⟨{ r with pipeline := { r.pipeline with phase := .running }, broker := st }, ?_, rfl,
    ⟨.running, stats, by rw [hp]⟩, h'⟩
  rw [begin, hp, Pipeline.prepare, hdeclare]
  rfl

/-- A turn without commands lets the next line pass, if it finds one. -/
theorem consume_clear (hc : s.bufferCapacity ≠ 0) (hp : r.pipeline.Clear s) (h : r.broker.Holds s out rest []) :
    (∃ r', r.consume (Stage.link s) = (.waits r'.broker.broker.wakeUps, r') ∧ r'.mailbox = r.mailbox ∧
      r'.pipeline.Clear s ∧ r'.broker.Shows s out [] [] ∧ r'.broker.coming = r.broker.coming.tail ∧
      Act.feeds r'.broker.coming.flatten = rest) ∨
    ∃ line rest' r', r.consume (Stage.link s) = (.again, r') ∧ r'.mailbox = r.mailbox ∧ r'.pipeline.Clear s ∧
      line :: rest' = rest ∧ r'.broker.Holds s (out ++ s.relayed line) rest' [] := by
  have hqueue := hp.queue
  rcases h.look hs hq with ⟨st, hnext, hshows, hcoming, hrest⟩ | ⟨line, rest', tag, st₁, hnext, hrest, h₁⟩
  · refine .inl ⟨{ r with broker := st }, ?_, rfl, hp, hshows, hcoming, hrest⟩
    rw [consume, hqueue, hnext]
    rfl
  · obtain ⟨phase, stats, hp⟩ := hp
    obtain ⟨stats', st₂, htake, h₂⟩ := h₁.take hs hq hc s.inboundKey stats
    have hhandle : r.pipeline.handle (Stage.link s) (.ok ⟨tag, s.inboundKey, line.toUTF8⟩) st₁ =
        (.ok (), { r.pipeline with backlog := ⟨.new s.bufferCapacity, stats'⟩ }, st₂) := by
      rw [Pipeline.handle, hp]
      simp only [htake]
    refine .inr ⟨line, rest',
      { r with pipeline := { r.pipeline with backlog := ⟨.new s.bufferCapacity, stats'⟩ }, broker := st₂ },
      ?_, rfl, ⟨phase, stats', by rw [hp]⟩, hrest, h₂⟩
    rw [consume, hqueue, hnext]
    simp only [hhandle]
    rfl

theorem terminate_clear (hp : r.pipeline.Clear s) (h : r.broker.Holds s out [] []) :
    (r.terminate (Stage.link s)).broker.output = out ∧
      Act.feeds (r.terminate (Stage.link s)).broker.coming.flatten = [] := by
  obtain ⟨phase, stats, hp⟩ := hp
  have hdrain : r.pipeline.backlog.drain (Stage.link s) r.broker = (.ok (), r.pipeline.backlog, r.broker) := by
    rw [hp]
    rfl
  rw [terminate, Pipeline.terminate, hdrain]
  exact h.close hs hq

end RelayState

namespace Stage

/-- A relay that waits since wake-up `n` has missed no line. -/
def Watched (st : Stage) (n : Nat) (waiting : List String) : Prop :=
  n ≤ st.broker.wakeUps ∧ (n = st.broker.wakeUps → waiting = [])

theorem Watched.feeds {st st' : Stage} {n : Nat} {waiting more : List String} (h : st.Watched n waiting)
    (hwake : st'.broker.wakeUps = st.broker.wakeUps + more.length) : st'.Watched n (waiting ++ more) := by
  obtain ⟨hle, hnone⟩ := h
  refine ⟨by omega, fun heq => ?_⟩
  have hmore : more = [] := List.length_eq_zero_iff.mp (by omega)
  rw [hnone (by omega), hmore]
  rfl

end Stage

/-- The relay of a replay with what is around it. -/
abbrev Replay := Supervised Stage

namespace Replay

/-- A step of the relay, with what comes before each of its operations, or a step of the
reader or the printer. -/
inductive Event
  | work (now : Nat) (coming : List (List Act))
  | act (a : Act)

def start (s : Settings) (broker : Broker) : Replay := Supervised.start s .gitHub (Stage.alone broker)

def stage (r : Replay) : Stage := r.state.broker

def occur (s : Settings) (delay : Nat) (r : Replay) (o : Occurrence (Stage → Stage)) : Replay :=
  r.next (Stage.link s) (fun f st => f st) delay o

def next (s : Settings) (delay : Nat) (r : Replay) : Event → Replay
  | .work now coming => ((r.occur s delay (.meanwhile (.expect coming))).occur s delay (.work now)).occur s delay
      (.meanwhile (.settle s))
  | .act a => r.occur s delay (.meanwhile (·.act s a))

def run (s : Settings) (delay : Nat) (r : Replay) (events : List Event) : Replay :=
  events.foldl (next s delay) r

/-- The lines that are sent. -/
def lines (events : List Event) : List String :=
  events.flatMap fun
    | .work _ coming => Act.feeds coming.flatten
    | .act a => Act.feeds [a]

/-- How many steps the relay gets. -/
def works (events : List Event) : Nat :=
  events.countP fun
    | .work _ _ => true
    | _ => false

def stop (s : Settings) (delay : Nat) (r : Replay) : Replay := r.occur s delay (.send .shutdown)

/-- Some lines have passed through the relay, the others wait before it. -/
structure Passes (r : Replay) (s : Settings) (done waiting : List String) : Prop where
  clear : r.state.pipeline.Clear s
  shows : r.stage.Shows s (done.flatMap s.relayed) waiting []

/-- The relay is in its loop. If it waits for a wake-up, no line waits. -/
def Loops (r : Replay) (waiting : List String) : Prop :=
  ∃ seen, r.task = .running (.consuming seen) ∧ ∀ n, seen = some n → r.stage.Watched n waiting

structure Relays (r : Replay) (s : Settings) (done waiting : List String) : Prop extends
    r.Passes s done waiting where
  mailbox : r.state.mailbox = {}
  task : r.task = .running .starting ∨ r.Loops waiting

/-- What the next step of the relay finds. -/
def expecting (r : Replay) (coming : List (List Act)) : RelayState Stage :=
  { r.state with broker := r.stage.expect coming }

section Steps

variable {r : Replay} {s : Settings} {done waiting : List String} (delay : Nat)

theorem next_step {now : Nat} {coming : List (List Act)} {task : TaskState} {state : RelayState Stage}
    (h : r.task.step (Stage.link s) now delay (r.expecting coming) = some (task, state)) :
    r.next s delay (.work now coming) = ⟨task, { state with broker := state.broker.settle s }⟩ := by
  have hexpecting : r.occur s delay (.meanwhile (.expect coming)) = ⟨r.task, r.expecting coming⟩ := rfl
  rw [next, hexpecting]
  simp only [occur, Supervised.next, h]

theorem next_stuck {now : Nat} {coming : List (List Act)}
    (h : r.task.step (Stage.link s) now delay (r.expecting coming) = none) :
    r.next s delay (.work now coming) = ⟨r.task, { r.state with broker := (r.stage.expect coming).settle s }⟩ := by
  have hexpecting : r.occur s delay (.meanwhile (.expect coming)) = ⟨r.task, r.expecting coming⟩ := rfl
  rw [next, hexpecting]
  simp only [occur, Supervised.next, h]
  rfl

variable (hs : s.source = "github") (hq : s.inboundQueue ≠ sinkQueue) (hc : s.bufferCapacity ≠ 0)

include hs hq in
theorem Passes.act (h : r.Passes s done waiting) (a : Act) :
    (r.next s delay (.act a)).Passes s done (waiting ++ Act.feeds [a]) :=
  ⟨h.clear, (h.shows.act hs hq a).1⟩

include hs hq in
theorem Relays.act (h : r.Relays s done waiting) (a : Act) :
    (r.next s delay (.act a)).Relays s done (waiting ++ Act.feeds [a]) ∧
      (r.Loops waiting → (r.next s delay (.act a)).Loops (waiting ++ Act.feeds [a])) := by
  have hloops : r.Loops waiting → (r.next s delay (.act a)).Loops (waiting ++ Act.feeds [a]) := by
    rintro ⟨seen, htask, hseen⟩
    exact ⟨seen, htask, fun n hn => (hseen n hn).feeds (h.shows.act hs hq a).2⟩
  exact ⟨{ h.toPasses.act delay hs hq a with mailbox := h.mailbox, task := h.task.imp id hloops }, hloops⟩

include hs hq in
/-- A step that leaves the relay in its loop and the lines in their order. -/
theorem Relays.of_step (h : r.Relays s done waiting) {now : Nat} {coming : List (List Act)} {seen : Option Nat}
    {state : RelayState Stage}
    (hstep : r.task.step (Stage.link s) now delay (r.expecting coming) = some (.running (.consuming seen), state))
    (hm : state.mailbox = r.state.mailbox) (hp : state.pipeline.Clear s) {done' rest : List String}
    (hshows : state.broker.Shows s (done'.flatMap s.relayed) rest [])
    (hseen : ∀ n, seen = some n → state.broker.Watched n rest) :
    (r.next s delay (.work now coming)).Relays s done' (rest ++ Act.feeds state.broker.coming.flatten) ∧
      (r.next s delay (.work now coming)).Loops (rest ++ Act.feeds state.broker.coming.flatten) := by
  obtain ⟨hshows', hwake⟩ := hshows.settle hs hq
  have hloops : Loops ⟨.running (.consuming seen), { state with broker := state.broker.settle s }⟩
      (rest ++ Act.feeds state.broker.coming.flatten) :=
    ⟨seen, rfl, fun n hn => (hseen n hn).feeds hwake⟩
  rw [next_step delay hstep]
  exact ⟨⟨⟨hp, hshows'⟩, hm.trans h.mailbox, .inr hloops⟩, hloops⟩

include hs hq in
theorem Passes.start_step (h : r.Passes s done waiting) (hstart : r.task = .running .starting) (now : Nat)
    (coming : List (List Act)) :
    ∃ state, r.task.step (Stage.link s) now delay (r.expecting coming) = some (.running (.consuming none), state) ∧
      state.mailbox = r.state.mailbox ∧ state.pipeline.Clear s ∧
      state.broker.Holds s (done.flatMap s.relayed) (waiting ++ Act.feeds coming.flatten) [] := by
  obtain ⟨state, hbegin, hm, hp, hholds⟩ :=
    RelayState.begin_clear (r := r.expecting coming) hs hq h.clear (h.shows.expect coming)
  refine ⟨state, ?_, hm, hp, hholds⟩
  rw [hstart, TaskState.step_starting, RunState.step, hbegin]
  rfl

include hs hq in
theorem Relays.begin (h : r.Relays s done waiting) (hstart : r.task = .running .starting) (now : Nat)
    (coming : List (List Act)) :
    (r.next s delay (.work now coming)).Relays s done (waiting ++ Act.feeds coming.flatten) ∧
      (r.next s delay (.work now coming)).Loops (waiting ++ Act.feeds coming.flatten) := by
  obtain ⟨state, hstep, hm, hp, rest, hshows, hrest⟩ := h.start_step delay hs hq hstart now coming
  rw [← hrest]
  exact h.of_step delay hs hq hstep hm hp hshows fun n hn => by cases hn

include hs hq hc in
/-- A turn of the loop lets the next line pass, if one waits. -/
theorem Relays.pass (h : r.Relays s done waiting) (hloops : r.Loops waiting) (now : Nat) (coming : List (List Act)) :
    ∃ passed rest, passed ++ rest = waiting ++ Act.feeds coming.flatten ∧ (waiting ≠ [] → passed ≠ []) ∧
      (r.next s delay (.work now coming)).Relays s (done ++ passed) rest ∧
      (r.next s delay (.work now coming)).Loops rest := by
  obtain ⟨seen, htask, hseen⟩ := id hloops
  have hquiet : (r.expecting coming).mailbox.isQuiet = true := by
    show r.state.mailbox.isQuiet = true
    rw [h.mailbox]
    rfl
  have hturn : (r.expecting coming).turn (Stage.link s) = (r.expecting coming).consume (Stage.link s) := by
    have hm : (r.expecting coming).mailbox = {} := h.mailbox
    rw [RelayState.turn, hm]
    rfl
  by_cases hwaits : seen = some r.stage.broker.wakeUps
  · obtain rfl : waiting = [] := (hseen _ hwaits).2 rfl
    have hstuck : r.task.step (Stage.link s) now delay (r.expecting coming) = none := by
      rw [htask, TaskState.step_consuming, RunState.step, if_pos ⟨hwaits, hquiet⟩]
      rfl
    have hshows : (r.stage.expect coming).Shows s (done.flatMap s.relayed) [] [] := { h.shows with }
    obtain ⟨hshows', hwake⟩ := hshows.settle hs hq
    have hloops' : Loops ⟨r.task, { r.state with broker := (r.stage.expect coming).settle s }⟩
        (Act.feeds coming.flatten) := ⟨seen, htask, fun n hn => (hseen n hn).feeds hwake⟩
    refine ⟨[], Act.feeds coming.flatten, rfl, fun hne => absurd rfl hne, ?_⟩
    rw [next_stuck delay hstuck, List.append_nil]
    exact ⟨⟨⟨h.clear, hshows'⟩, h.mailbox, .inr hloops'⟩, hloops'⟩
  have hawake : ¬ (seen = some ((Stage.link s).wakeUps (r.expecting coming).broker) ∧
      (r.expecting coming).mailbox.isQuiet = true) := fun hboth => hwaits hboth.1
  rcases RelayState.consume_clear (r := r.expecting coming) hs hq hc h.clear (h.shows.expect coming) with
    ⟨state, hconsume, hm, hp, hshows, hcoming, hrest⟩ | ⟨line, rest, state, hconsume, hm, hp, hrest, waiting', hshows, hwaiting⟩
  · have hstep : r.task.step (Stage.link s) now delay (r.expecting coming) =
        some (.running (.consuming (some state.broker.broker.wakeUps)), state) := by
      rw [htask, TaskState.step_consuming, RunState.step, if_neg hawake, hturn, hconsume]
      rfl
    have hnone : waiting = [] := by
      -- the look came after the first steps of the others
      have htail := Act.feeds_tail_le coming
      have hlength : (Act.feeds coming.tail.flatten).length = (waiting ++ Act.feeds coming.flatten).length :=
        congrArg List.length (hcoming ▸ hrest)
      rw [List.length_append] at hlength
      exact List.length_eq_zero_iff.mp (by omega)
    refine ⟨[], waiting ++ Act.feeds coming.flatten, rfl, fun hne => absurd hnone hne, ?_⟩
    rw [← hrest, List.append_nil]
    exact h.of_step delay hs hq hstep hm hp hshows fun n hn =>
      ⟨Nat.le_of_eq (Option.some.inj hn).symm, fun _ => rfl⟩
  · have hstep : r.task.step (Stage.link s) now delay (r.expecting coming) =
        some (.running (.consuming none), state) := by
      rw [htask, TaskState.step_consuming, RunState.step, if_neg hawake, hturn, hconsume]
      rfl
    have hdone : done.flatMap s.relayed ++ s.relayed line = (done ++ [line]).flatMap s.relayed := by
      rw [List.flatMap_append, List.flatMap_singleton]
    rw [hdone] at hshows
    refine ⟨[line], rest, hrest, fun _ => List.cons_ne_nil _ _, ?_⟩
    rw [← hwaiting]
    exact h.of_step delay hs hq hstep hm hp hshows fun n hn => by cases hn

include hs hq hc in
theorem Relays.next (h : r.Relays s done waiting) (e : Event) :
    ∃ done' waiting', done' ++ waiting' = done ++ waiting ++ lines [e] ∧
      (r.next s delay e).Relays s done' waiting' := by
  cases e with
  | work now coming =>
    have hlines : lines [.work now coming] = Act.feeds coming.flatten := List.flatMap_singleton ..
    rw [hlines, List.append_assoc]
    rcases h.task with hstart | hloops
    · exact ⟨done, _, rfl, (h.begin delay hs hq hstart now coming).1⟩
    · obtain ⟨passed, rest, hpassed, -, hrelays, -⟩ := h.pass delay hs hq hc hloops now coming
      refine ⟨done ++ passed, rest, ?_, hrelays⟩
      rw [List.append_assoc, hpassed]
  | act a =>
    have hlines : lines [.act a] = Act.feeds [a] := List.flatMap_singleton ..
    rw [hlines, List.append_assoc]
    exact ⟨done, _, rfl, (h.act delay hs hq a).1⟩

include hs hq hc in
/-- However the steps mix, the lines come out in the order in which they were sent. -/
theorem Relays.run (h : r.Relays s done waiting) (events : List Event) :
    ∃ done' waiting', done' ++ waiting' = done ++ waiting ++ lines events ∧
      (r.run s delay events).Relays s done' waiting' := by
  induction events generalizing r done waiting with
  | nil => exact ⟨done, waiting, (List.append_nil _).symm, h⟩
  | cons e events ih =>
    obtain ⟨done₁, waiting₁, heq₁, h₁⟩ := h.next delay hs hq hc e
    obtain ⟨done₂, waiting₂, heq₂, h₂⟩ := ih h₁
    refine ⟨done₂, waiting₂, ?_, h₂⟩
    have hlines : lines ([e] ++ events) = lines [e] ++ lines events := List.flatMap_append ..
    rw [List.singleton_append] at hlines
    rw [heq₂, heq₁, hlines, List.append_assoc (done ++ waiting)]

include hs hq hc in
/-- The relay needs a step to start and one for each line, if no more lines come. -/
theorem Relays.catchUp (h : r.Relays s done waiting) {events : List Event} (hlines : lines events = [])
    (hn : waiting.length < works events ∨ r.Loops waiting ∧ waiting.length ≤ works events) :
    (r.run s delay events).Relays s (done ++ waiting) [] := by
  induction events generalizing r done waiting with
  | nil =>
    have hnone : waiting = [] := by
      rcases hn with hlt | ⟨-, hle⟩
      · cases hlt
      · exact List.length_eq_zero_iff.mp (Nat.le_zero.mp hle)
    rw [hnone, List.append_nil]
    exact hnone ▸ h
  | cons e events ih =>
    obtain ⟨hfeeds, hlines'⟩ := List.append_eq_nil_iff.mp hlines
    cases e with
    | work now coming =>
      have hworks : works (.work now coming :: events) = works events + 1 := List.countP_cons_of_pos rfl
      have hfeeds' : Act.feeds coming.flatten = [] := hfeeds
      rw [hworks] at hn
      rcases h.task with hstart | hloops
      · obtain ⟨h₁, hloops₁⟩ := h.begin delay hs hq hstart now coming
        rw [hfeeds', List.append_nil] at h₁ hloops₁
        refine ih h₁ hlines' (.inr ⟨hloops₁, ?_⟩)
        rcases hn with hlt | ⟨⟨seen, hloops, -⟩, -⟩
        · exact Nat.le_of_lt_succ hlt
        · rw [hstart] at hloops
          cases hloops
      · obtain ⟨passed, rest, hpassed, hsome, h₁, hloops₁⟩ := h.pass delay hs hq hc hloops now coming
        rw [hfeeds', List.append_nil] at hpassed
        have hle : rest.length ≤ works events := by
          have hlength := congrArg List.length hpassed
          rw [List.length_append] at hlength
          by_cases hnone : waiting = []
          · rw [hnone, List.length_nil] at hlength
            omega
          · have hpos := List.length_pos_of_ne_nil (hsome hnone)
            omega
        rw [← hpassed, ← List.append_assoc]
        exact ih h₁ hlines' (.inr ⟨hloops₁, hle⟩)
    | act a =>
      have hworks : works (.act a :: events) = works events := List.countP_cons_of_neg nofun
      have hfeeds' : Act.feeds [a] = [] := hfeeds
      obtain ⟨h₁, hloops₁⟩ := h.act delay hs hq a
      rw [hfeeds', List.append_nil] at h₁ hloops₁
      rw [hworks] at hn
      exact ih h₁ hlines' (hn.imp id fun ⟨hl, hle⟩ => ⟨hloops₁ hl, hle⟩)

/-- The reader finds the relay idle if no line waits. -/
theorem Relays.isIdle (h : r.Relays s done []) :
    ((r.next s delay (.act .countReady)).next s delay (.act .countOutstanding)).stage.isIdle = true :=
  h.shows.isIdle

end Steps

section Closing

variable {r : Replay} {s : Settings} {done : List String} (delay : Nat)

/-- A replay after the shutdown was sent, and how many steps its relay still needs. -/
inductive Closing (r : Replay) (s : Settings) (done : List String) : Nat → Prop
  | starting (h : r.Passes s done []) (hm : r.state.mailbox = { commands := [.shutdown] })
      (ht : r.task = .running .starting) : Closing r s done 3
  | looping (h : r.Passes s done []) (hm : r.state.mailbox = { commands := [.shutdown] })
      (seen : Option Nat) (ht : r.task = .running (.consuming seen)) : Closing r s done 2
  | finished (h : r.stage.output = done.flatMap s.relayed) (ht : r.task = .running (.finished (.ok ()))) :
      Closing r s done 1
  | ended (h : r.stage.output = done.flatMap s.relayed) (report : StatsReport) (ht : r.task = .ended (.ok report)) :
      Closing r s done 0

theorem Relays.stop (h : r.Relays s done []) : ∃ left ≤ 3, (r.stop s delay).Closing s done left := by
  have hmail : (r.stop s delay).state.mailbox = { commands := [.shutdown] } := by
    show (r.state.mailbox.send .shutdown).2 = _
    rw [h.mailbox]
    rfl
  have hpasses : (r.stop s delay).Passes s done [] := ⟨h.clear, h.shows⟩
  rcases h.task with hstart | ⟨seen, hloops, _⟩
  · exact ⟨3, le_refl 3, .starting hpasses hmail hstart⟩
  · exact ⟨2, by omega, .looping hpasses hmail seen hloops⟩

variable (hs : s.source = "github") (hq : s.inboundQueue ≠ sinkQueue)
include hs hq

theorem Closing.act {left : Nat} (h : r.Closing s done left) {a : Act} (hfeeds : Act.feeds [a] = []) :
    (r.next s delay (.act a)).Closing s done left := by
  have hpasses : r.Passes s done [] → (r.next s delay (.act a)).Passes s done [] := fun h =>
    hfeeds ▸ h.act delay hs hq a
  have houtput : (r.next s delay (.act a)).stage.output = r.stage.output := Stage.act_output hfeeds
  cases h with
  | starting h hm ht => exact .starting (hpasses h) hm ht
  | looping h hm seen ht => exact .looping (hpasses h) hm seen ht
  | finished h ht => exact .finished (houtput.trans h) ht
  | ended h report ht => exact .ended (houtput.trans h) report ht

theorem Closing.work {left : Nat} (h : r.Closing s done left) (now : Nat) {coming : List (List Act)}
    (hfeeds : Act.feeds coming.flatten = []) : (r.next s delay (.work now coming)).Closing s done (left - 1) := by
  cases h with
  | starting h hm ht =>
    obtain ⟨state, hstep, hm', hp, rest, hshows, hrest⟩ := h.start_step delay hs hq ht now coming
    have hshows' := (hshows.settle hs hq).1
    rw [hrest, hfeeds, List.append_nil] at hshows'
    rw [next_step delay hstep]
    exact .looping ⟨hp, hshows'⟩ (hm'.trans hm) none rfl
  | looping h hm seen ht =>
    have hholds := h.shows.expect coming
    rw [hfeeds, List.append_nil] at hholds
    have hm' : (r.expecting coming).mailbox = { commands := [.shutdown] } := hm
    have hbusy : ¬ (seen = some ((Stage.link s).wakeUps (r.expecting coming).broker) ∧
        (r.expecting coming).mailbox.isQuiet = true) := by
      rw [hm']
      rintro ⟨-, hquiet⟩
      cases hquiet
    have hturn : (r.expecting coming).turn (Stage.link s) =
        (.ended (.ok ()), ((r.expecting coming).withCommands []).terminate (Stage.link s)) := by
      rw [RelayState.turn, RelayState.withCommands, hm']
    have hstep : r.task.step (Stage.link s) now delay (r.expecting coming) =
        some (.running (.finished (.ok ())), ((r.expecting coming).withCommands []).terminate (Stage.link s)) := by
      rw [ht, TaskState.step_consuming, RunState.step, if_neg hbusy, hturn]
      rfl
    obtain ⟨houtput, hcoming⟩ :=
      RelayState.terminate_clear (r := (r.expecting coming).withCommands []) hs hq h.clear hholds
    rw [next_step delay hstep]
    exact .finished ((Stage.settle_output s _ hcoming).trans houtput) rfl
  | finished h ht =>
    have hstep : r.task.step (Stage.link s) now delay (r.expecting coming) =
        some (.ended (.ok r.state.pipeline.report), r.expecting coming) := by
      rw [ht]
      rfl
    rw [next_step delay hstep]
    exact .ended ((Stage.settle_output s (r.stage.expect coming) hfeeds).trans h) _ rfl
  | ended h report ht =>
    have hstuck : r.task.step (Stage.link s) now delay (r.expecting coming) = none := by
      rw [ht]
      rfl
    rw [next_stuck delay hstuck]
    exact .ended ((Stage.settle_output s (r.stage.expect coming) hfeeds).trans h) report ht

theorem Closing.run {left : Nat} (h : r.Closing s done left) {events : List Event} (hlines : lines events = []) :
    (r.run s delay events).Closing s done (left - works events) := by
  induction events generalizing r left with
  | nil => exact h
  | cons e events ih =>
    obtain ⟨hfeeds, hlines'⟩ := List.append_eq_nil_iff.mp hlines
    cases e with
    | work now coming =>
      have hworks : left - works (.work now coming :: events) = left - 1 - works events := by
        rw [works, List.countP_cons_of_pos rfl, ← works]
        omega
      rw [hworks]
      exact ih (h.work delay hs hq now hfeeds) hlines'
    | act a => exact ih (h.act delay hs hq hfeeds) hlines'

end Closing

end Replay

end AlertRelay
