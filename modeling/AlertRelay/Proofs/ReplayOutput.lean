import AlertRelay.Proofs.Feeding
import AlertRelay.Proofs.LineReading
import AlertRelay.Proofs.SettingsText

/-! What a replay prints: of each line its newest alerts, whatever the other lines are. -/

namespace AlertRelay

variable {s : Settings}

theorem sinkBroker_replays (hq : s.inboundQueue ≠ sinkQueue) :
    ∃ b, sinkBroker s = (.ok (), b) ∧ b.Replays s [] [] [] := by
  have hname : (s.inboundQueue == sinkQueue) = false := by simpa using hq
  refine ⟨{
    connected := true
    exchanges := [(s.exchange, .topic)]
    queues := [(sinkQueue, []), (s.inboundQueue, [])]
    bindings := [⟨sinkQueue, s.exchange, sinkKey⟩, ⟨s.inboundQueue, s.exchange, s.inboundKey⟩] }, ?_, ?_⟩
  · simp [sinkBroker, andThen, Broker.connect, Broker.declareExchange, Broker.declareQueue, Broker.bindQueue,
      Broker.whenConnected, Table.insertNew, Table.has, Table.get?, List.lookup_cons, hname, hq]
  · constructor <;> simp [Table.get?, List.lookup_cons, hname]

theorem Replay.start_relays {b : Broker} (hb : b.Replays s [] [] []) : (Replay.start s b).Relays s [] [] where
  clear := ⟨.initializing, {}, rfl⟩
  shows := ⟨⟨[], hb, rfl⟩, nofun, nofun⟩
  mailbox := rfl
  task := .inl rfl

/-- However the steps of a replay mix: if no more lines come, the relay can always catch up,
and then the reader finds it idle. If it is shut down when the reader has found it idle, it
ends well and all that the lines yield has come out. The last flush may overtake the batch
that the printer has in its hand, and nothing else can change the order. -/
theorem Replay.output_of_idle (hs : s.source = "github") (hq : s.inboundQueue ≠ sinkQueue)
    (hc : s.bufferCapacity ≠ 0) (delay : Nat) {b : Broker} (hb : b.Replays s [] [] []) (before : List Event) :
    let fed := (start s b).run s delay before
    (∀ more, lines more = [] → (lines before).length < works more →
      (fed.run s delay (more ++ [.act .countReady, .act .countOutstanding])).stage.isIdle = true) ∧
    (fed.stage.isIdle = true → ∀ after, lines after = [] → 3 ≤ works after →
      let last := (fed.stop s delay).run s delay after
      (∃ report, last.task = .ended (.ok report)) ∧
      last.stage.printed ++ last.stage.inHand ++ last.stage.atSink = (lines before).flatMap s.relayed ∧
      ∀ output, last.stage.Ends s output ↔ output = (lines before).flatMap s.relayed ∨
        output = last.stage.printed ++ last.stage.atSink ++ last.stage.inHand) := by
  intro fed
  obtain ⟨done, waiting, hlines, hfed⟩ := (start_relays hb).run delay hs hq hc before
  rw [List.append_nil, List.nil_append] at hlines
  refine ⟨fun more hmore hn => ?_, fun hidle after hafter hworks => ?_⟩
  · have hlt : waiting.length < works more := by
      have hlength := congrArg List.length hlines
      rw [List.length_append] at hlength
      omega
    have hcaught := hfed.catchUp delay hs hq hc hmore (.inl hlt)
    rw [run, List.foldl_append]
    exact hcaught.isIdle delay
  · obtain rfl : waiting = [] := hfed.shows.idle hidle
    rw [List.append_nil] at hlines
    intro last
    obtain ⟨left, hleft, hstop⟩ := hfed.stop delay
    have hended := hstop.run delay hs hq hafter
    rw [Nat.sub_eq_zero_of_le (hleft.trans hworks), hlines] at hended
    cases hended with
    | ended houtput report htask =>
      have hends := Stage.ends_iff s last.stage
      have hinOrder : last.stage.printed ++ last.stage.inHand ++ last.stage.atSink =
          (lines before).flatMap s.relayed := houtput
      rw [hinOrder] at hends
      exact ⟨⟨report, htask⟩, hinOrder, hends⟩

/-- The printer may have the first of two lines in its hand when the last flush comes. -/
example :
    let line (name : String) : String := "\x7b\"error\":\x7b\"meta_data\":[\"" ++ name ++ "\",5,\"p\",\"r\"]\x7d\x7d"
    let fed := (Replay.start {} (sinkBroker {}).2).run {} 0
      [.act (.feed (line "x")), .work 0 [], .work 0 [[.feed (line "y")]], .act .take, .work 0 [],
        .act .countReady, .act .countOutstanding]
    let last := (fed.stop {} 0).run {} 0 [.work 0 [], .work 0 [], .work 0 []]
    fed.stage.isIdle = true ∧ last.stage.printed ++ last.stage.atSink ++ last.stage.inHand ≠ last.stage.output := by
  decide +kernel

theorem TaskState.settle_stuck {task : TaskState} {state : RelayState Broker} {now delay : Nat}
    (h : task.step Broker.link now delay state = none) (fuel : Nat) :
    task.settle Broker.link now delay fuel state = (task, state) := by
  cases fuel with
  | zero => rfl
  | succ fuel => rw [settle, h]

/-- To settle is to take steps as long as there are any, with nothing around the relay. -/
theorem Replay.settle_run (delay now fuel : Nat) (task : TaskState) (state : RelayState Broker) :
    (⟨(task.settle Broker.link now delay fuel state).1,
      (task.settle Broker.link now delay fuel state).2.map Stage.alone⟩ : Replay) =
      run s delay ⟨task, state.map Stage.alone⟩ (List.replicate fuel (.work now [])) := by
  induction fuel generalizing task state with
  | zero => rfl
  | succ fuel ih =>
    have hlift : task.step (Stage.link s) now delay (expecting ⟨task, state.map Stage.alone⟩ []) =
        (task.step Broker.link now delay state).map (Prod.map id (·.map Stage.alone)) :=
      (Stage.alone_lifts s).taskStep now delay task state
    rw [List.replicate_succ, run, List.foldl_cons, ← run]
    cases hstep : task.step Broker.link now delay state with
    | some taken =>
      obtain ⟨task', state'⟩ := taken
      rw [hstep] at hlift
      rw [next_step delay hlift, TaskState.settle, hstep]
      exact ih task' state'
    | none =>
      rw [hstep] at hlift
      have hrest := ih task state
      rw [TaskState.settle_stuck hstep] at hrest
      rw [next_stuck delay hlift, TaskState.settle, hstep]
      exact hrest

namespace Service

def replaying (v : Service) : Replay := ⟨v.task, v.state.map Stage.alone⟩

theorem settle_replaying (v : Service) : v.settle.replaying =
    v.replaying.run s v.delay (List.replicate v.state.work (.work v.now [])) :=
  Replay.settle_run v.delay v.now v.state.work v.task v.state

/-- A relay that settles has enough steps to let a line pass and to end. -/
theorem work_ge (v : Service) : 8 ≤ v.state.work := Nat.le_add_left _ _

theorem lines_replicate (n now : Nat) : Replay.lines (List.replicate n (.work now [])) = [] :=
  List.flatMap_eq_nil_iff.mpr fun e he => by
    rw [List.eq_of_mem_replicate he]
    rfl

theorem works_replicate (n now : Nat) : Replay.works (List.replicate n (.work now [])) = n := by
  simp [Replay.works, List.countP_replicate]

section Feed

variable (hs : s.source = "github") (hq : s.inboundQueue ≠ sinkQueue) (hc : s.bufferCapacity ≠ 0)
include hs hq hc

theorem settle_relays {v : Service} {done waiting : List String} (h : v.replaying.Relays s done waiting)
    (hone : waiting.length ≤ 1) : v.settle.replaying.Relays s (done ++ waiting) [] := by
  have hwork := v.work_ge
  rw [settle_replaying (s := s)]
  exact h.catchUp v.delay hs hq hc (lines_replicate _ _) (.inl (by rw [works_replicate]; omega))

theorem feed_relays {v : Service} {done : List String} (h : v.replaying.Relays s done []) (line : String) :
    ∃ v', v.feed s line = .ok v' ∧ v'.handles = v.handles ∧ v'.replaying.Relays s (done ++ [line]) [] := by
  obtain ⟨sink, hb, -⟩ := h.shows.broker
  obtain ⟨b, hinject, -, -⟩ := hb.inject hq hs line
  have hfed : (onBroker v (Broker.inject s.exchange s.inboundKey line.toUTF8)).2.replaying =
      v.replaying.next s v.delay (.act (.feed line)) := rfl
  have hrelays := (h.act v.delay hs hq (.feed line)).1
  rw [← hfed] at hrelays
  have hinject' : v.state.broker.inject s.exchange s.inboundKey line.toUTF8 = (.ok 1, b) := hinject
  refine ⟨_, ?_, ?_, settle_relays hs hq hc hrelays (le_refl 1)⟩
  · rw [feed, onBroker, hinject']
  · rfl

theorem feedAll_relays {v : Service} {done : List String} (h : v.replaying.Relays s done []) (lines : List String) :
    ∃ v', lines.foldlM (feed s) v = .ok v' ∧ v'.handles = v.handles ∧ v'.replaying.Relays s (done ++ lines) [] := by
  induction lines generalizing v done with
  | nil => exact ⟨v, rfl, rfl, by rw [List.append_nil]; exact h⟩
  | cons line lines ih =>
    obtain ⟨v₁, hfeed, hhandles₁, h₁⟩ := feed_relays hs hq hc h line
    obtain ⟨v₂, hrest, hhandles₂, h₂⟩ := ih h₁
    refine ⟨v₂, ?_, hhandles₂.trans hhandles₁, ?_⟩
    · rw [List.foldlM_cons, hfeed]
      exact hrest
    · rw [List.append_assoc] at h₂
      exact h₂

end Feed

theorem finishReplay_eq (hs : s.source = "github") (hq : s.inboundQueue ≠ sinkQueue) {v : Service}
    {done : List String} (h : v.replaying.Relays s done []) (hh : v.handles ≠ 0) :
    v.finishReplay = (.ok (), done.flatMap s.relayed) := by
  have hended : v.hasEnded = false := by
    rcases h.task with htask | ⟨seen, htask, _⟩
    · have htask' : v.task = .running .starting := htask
      rw [hasEnded, htask']
    · have htask' : v.task = .running (.consuming seen) := htask
      rw [hasEnded, htask']
  have hshutdown : v.shutdown.replaying = v.replaying.stop s v.delay := by
    have hmailbox : v.state.mailbox = {} := h.mailbox
    simp only [shutdown, send, hh, hended, decide_false, Bool.or_self, Bool.false_eq_true, if_false]
    simp only [replaying, RelayState.map, Replay.stop, Replay.occur, Supervised.next, hmailbox]
    rfl
  obtain ⟨left, hleft, hstop⟩ := h.stop v.delay
  rw [← hshutdown] at hstop
  have hwork := v.shutdown.work_ge
  have hclosed : v.shutdown.settle.replaying.Closing s done 0 := by
    have hrun := hstop.run v.shutdown.delay hs hq (lines_replicate v.shutdown.state.work v.shutdown.now)
    rw [works_replicate, Nat.sub_eq_zero_of_le (by omega)] at hrun
    rw [settle_replaying (s := s)]
    exact hrun
  cases hclosed with
  | ended houtput report htask =>
    have htask' : v.shutdown.settle.task = .ended (.ok report) := htask
    have houtput' : (v.shutdown.settle.state.broker.takeMessages sinkQueue).1 = done.flatMap s.relayed := houtput
    rw [finishReplay, htask']
    exact congrArg (Prod.mk _) houtput'

end Service

theorem relayLines_eq (hs : s.source = "github") (hq : s.inboundQueue ≠ sinkQueue) (hc : s.bufferCapacity ≠ 0)
    {b : Broker} (hb : b.Replays s [] [] []) (delay : Nat) (lines : List String) :
    (Service.spawn (.ofSettings s .gitHub) delay b).relayLines s lines =
      (.ok (), (lines.filter (!isBlankText ·)).flatMap s.relayed) := by
  have hnew : (Service.spawn (.ofSettings s .gitHub) delay b).replaying.Relays s [] [] :=
    Replay.start_relays hb
  obtain ⟨v, hfeed, hhandles, hv⟩ := Service.feedAll_relays hs hq hc
    (Service.settle_relays hs hq hc hnew (Nat.zero_le 1)) (lines.filter (!isBlankText ·))
  rw [Service.relayLines, hfeed]
  exact Service.finishReplay_eq hs hq hv (by rw [hhandles]; exact Nat.one_ne_zero)

namespace Settings

theorem capacity_of_ofFile {capacity? : Option ByteArray} {path : String} {content : Except FileFault ByteArray}
    (h : ofFile capacity? path content = .ok s) : s.bufferCapacity ≠ 0 := by
  unfold ofFile at h
  split at h
  · cases h
  · split at h
    · cases h
    · obtain ⟨t, -, hrest⟩ := bind_eq_ok.mp h
      obtain ⟨u, -, hcheck⟩ := bind_eq_ok.mp hrest
      obtain ⟨rfl, hcapacity, -⟩ := check_eq_ok.mp hcheck
      exact Nat.one_le_iff_ne_zero.mp hcapacity

/-- What a replay prints of a text. -/
def replayOutput (s : Settings) (text : String) : List ByteArray :=
  ((textLines text).filter (!isBlankText ·)).flatMap s.relayed

theorem replayOutput_append (s : Settings) (x y : String) :
    s.replayOutput (x ++ "\n" ++ y) = s.replayOutput (x ++ "\n") ++ s.replayOutput y := by
  rw [replayOutput, textLines_append, List.filter_append, List.flatMap_append]
  rfl

end Settings

theorem Pipeline.allot_eq (grants : Nat → Bool) (hc : s.bufferCapacity ≠ 0) (rule : Rule) :
    Pipeline.allot grants s rule =
      if allocationLimit < Entry.size * s.bufferCapacity then .error .tooLarge
      else if grants (Entry.size * s.bufferCapacity) then .ok (.ofSettings s rule)
      else .error .refused := by
  rw [Pipeline.allot, Outbox.allot, Nat.max_eq_left (Nat.one_le_iff_ne_zero.mpr hc)]
  split
  · rfl
  · split <;> rfl

namespace Surroundings

theorem settings_ok {w : Surroundings} {a : Arguments} {rule : Rule} (h : w.settings a = .ok (s, rule)) :
    s.bufferCapacity ≠ 0 ∧ Rule.forSource s.source = some rule := by
  obtain ⟨environment, -, hread⟩ := bind_eq_ok.mp h
  obtain ⟨t, hfile, hrule⟩ := bind_eq_ok.mp hread
  cases hf : Rule.forSource t.source with
  | none =>
    rw [hf] at hrule
    cases hrule
  | some rule' =>
    rw [hf] at hrule
    cases hrule
    cases ht : Settings.ofFile ((environment.get? capacityVariable).map String.toUTF8) a.settings
        (w.content a.settings) with
    | error e =>
      rw [ht] at hfile
      cases hfile
    | ok u =>
      rw [ht] at hfile
      cases hfile
      exact ⟨Settings.capacity_of_ofFile ht, hf⟩

theorem settings_gitHub {w : Surroundings} {a : Arguments} (h : (w.settings a).toOption.map (·.1) = some s)
    (hs : s.source = "github") : w.settings a = .ok (s, .gitHub) := by
  obtain ⟨⟨t, rule⟩, ht, rfl⟩ := Option.map_eq_some_iff.mp h
  have hsettings : w.settings a = .ok (t, rule) := by
    cases hw : w.settings a with
    | error e =>
      rw [hw] at ht
      cases ht
    | ok x =>
      rw [hw] at ht
      cases ht
      rfl
  have hrule := (settings_ok hsettings).2
  rw [hs] at hrule
  rw [hsettings, ← Option.some.inj hrule]

theorem replay_eq {w : Surroundings} {a : Arguments} {text : String}
    (harguments : CommandLine.ofArguments w.arguments = .run a) (hsettings : w.settings a = .ok (s, .gitHub))
    (hs : s.source = "github") (hq : s.inboundQueue ≠ sinkQueue) (hinput : w.input a = .ok text.toUTF8) :
    w.replay =
      if allocationLimit < Entry.size * s.bufferCapacity then ⟨101, [], none⟩
      else if w.grants (Entry.size * s.bufferCapacity) then ⟨0, s.replayOutput text, none⟩
      else ⟨134, [], none⟩ := by
  have hc := (settings_ok hsettings).1
  obtain ⟨b, hb, hreplays⟩ := sinkBroker_replays hq
  have hallot := Pipeline.allot_eq w.grants hc .gitHub
  have hstart : w.start a = (startRelay w.grants s .gitHub).map (s, ·) := by
    rw [start, hsettings]
    rfl
  rw [startRelay, hb] at hstart
  simp only [hallot] at hstart
  by_cases hlarge : allocationLimit < Entry.size * s.bufferCapacity
  · have hwith : w.replayWith a = (.error (.crash .panic), []) := by
      rw [replayWith, hstart, if_pos hlarge]
      rfl
    rw [replay, harguments, if_pos hlarge]
    simp only [hwith]
    rfl
  rw [if_neg hlarge] at hstart ⊢
  by_cases hgrants : w.grants (Entry.size * s.bufferCapacity) = true
  · have hwith : w.replayWith a = (.ok (), s.replayOutput text) := by
      rw [replayWith, hstart, if_pos hgrants]
      simp only [Except.map, hinput, byteLines_toUTF8, relayLines_eq hs hq hc hreplays]
      rfl
    rw [replay, harguments, if_pos hgrants]
    simp only [hwith]
  · have hwith : w.replayWith a = (.error (.crash .abort), []) := by
      rw [replayWith, hstart, if_neg hgrants]
      rfl
    rw [replay, harguments, if_neg hgrants]
    simp only [hwith]
    rfl

/-- What a replay of a text prints if its outbox is made, and how it ends if there is no
memory for that. It prints, for each line that is not blank and in the order of the lines,
the newest alerts of the line, as many as the buffer holds. What it prints of a text with a
line break is what it prints of the parts. It is so however the steps of the relay, the
reader and the printer mix, up to the two batches that are printed last: the last flush does
not wait for the printer. -/
theorem replay_prints_each_line (w : Surroundings) {a : Arguments} {rule : Rule} {text : String}
    (harguments : CommandLine.ofArguments w.arguments = .run a)
    (hsettings : w.settings a = .ok (s, rule)) (hs : s.source = "github") (hq : s.inboundQueue ≠ sinkQueue)
    (hinput : w.input a = .ok text.toUTF8) :
    (w.replay =
      if allocationLimit < Entry.size * s.bufferCapacity then ⟨101, [], none⟩
      else if w.grants (Entry.size * s.bufferCapacity) then ⟨0, s.replayOutput text, none⟩
      else ⟨134, [], none⟩) ∧
    (∀ x y, s.replayOutput (x ++ "\n" ++ y) = s.replayOutput (x ++ "\n") ++ s.replayOutput y) ∧
    ∃ b, sinkBroker s = (.ok (), b) ∧ ∀ delay before,
      Replay.lines before = (textLines text).filter (!isBlankText ·) →
      let fed := (Replay.start s b).run s delay before
      (∀ more, Replay.lines more = [] → (Replay.lines before).length < Replay.works more →
        (fed.run s delay (more ++ [.act .countReady, .act .countOutstanding])).stage.isIdle = true) ∧
      (fed.stage.isIdle = true → ∀ after, Replay.lines after = [] → 3 ≤ Replay.works after →
        let last := (fed.stop s delay).run s delay after
        (∃ report, last.task = .ended (.ok report)) ∧
        last.stage.printed ++ last.stage.inHand ++ last.stage.atSink = s.replayOutput text ∧
        ∀ output, last.stage.Ends s output ↔ output = s.replayOutput text ∨
          output = last.stage.printed ++ last.stage.atSink ++ last.stage.inHand) := by
  obtain ⟨hc, hrule⟩ := settings_ok hsettings
  obtain rfl : Rule.gitHub = rule := by
    rw [hs] at hrule
    exact Option.some.inj hrule
  obtain ⟨b, hb, hreplays⟩ := sinkBroker_replays hq
  refine ⟨replay_eq harguments hsettings hs hq hinput, s.replayOutput_append, b, hb, fun delay before hbefore => ?_⟩
  obtain ⟨hidle, hend⟩ := Replay.output_of_idle hs hq hc delay hreplays before
  rw [hbefore] at hidle hend ⊢
  exact ⟨hidle, hend⟩

/-- A line with two new releases, a blank line and one that is rejected, with room for
a single alert: the second release is printed. -/
theorem replay_prints_each_line_overflowing :
    let line := "\x7b\"result\":\x7b\"meta_data\":[\"x\",1,\"p\",\"r\"],\"data\":" ++
      "[[3,1],\x7b\"0\":[\"a\",\"v1\"],\"1\":[\"b\",\"v2\"]\x7d]\x7d\x7d"
    let text := line ++ "\r\n \njunk"
    let w : Surroundings :=
      { arguments := ["-f", "relay.json"]
        directory := ["replay", "srv"]
        files := [("relay.json", .ok "\x7b\x7d".toUTF8), ("/srv/.env", .ok (capacityVariable ++ "=1").toUTF8)]
        standardInput := text.toUTF8
        environment := []
        grants := fun _ => true }
    let s : Settings := { bufferCapacity := 1 }
    w.settings ⟨"relay.json", none, false⟩ = .ok (s, .gitHub) ∧
    (Rule.gitHub.alertsOf line.toUTF8).length = 2 ∧
    (newest 1 (Rule.gitHub.alertsOf line.toUTF8)).map (·.message) = ["Repo: x has a new release b tagged v2."] ∧
    w.replay = ⟨0, s.relayed line, none⟩ := by
  intro line text w s
  have hsettings : w.settings ⟨"relay.json", none, false⟩ = .ok (s, .gitHub) :=
    settings_gitHub (by decide +kernel) rfl
  have hlines : (textLines text).filter (!isBlankText ·) = [line, "junk"] := by decide +kernel
  have hjunk : s.relayed "junk" = [] := by decide +kernel
  have hinput : w.input ⟨"relay.json", none, false⟩ = .ok text.toUTF8 := rfl
  have hreplay := (replay_prints_each_line w rfl hsettings rfl (by decide +kernel) hinput).1
  refine ⟨hsettings, by decide +kernel, by decide +kernel, ?_⟩
  rw [hreplay, if_neg (by decide), if_pos rfl, Settings.replayOutput, hlines]
  simp only [List.flatMap_cons, List.flatMap_nil, hjunk, List.append_nil]

/-- A capacity that is accepted, but for which there cannot be enough memory: nothing is
printed. -/
theorem replay_panics_without_memory :
    let line := "\x7b\"error\":\x7b\"meta_data\":\x7b\"repo_name\":\"x\",\"time\":5," ++
      "\"repo_parent_id\":\"p\",\"repo_id\":\"r\"\x7d\x7d\x7d"
    let text := line ++ "\n"
    let w : Surroundings :=
      { arguments := ["-f", "relay.json"]
        directory := []
        files := [("relay.json", .ok "\x7b\"buffer_capacity\":100000000000000000\x7d".toUTF8)]
        standardInput := text.toUTF8
        environment := []
        grants := fun _ => true }
    let s : Settings := { bufferCapacity := 100000000000000000 }
    w.settings ⟨"relay.json", none, false⟩ = .ok (s, .gitHub) ∧ s.source = "github" ∧
    s.inboundQueue ≠ sinkQueue ∧ w.input ⟨"relay.json", none, false⟩ = .ok text.toUTF8 ∧
    (s.replayOutput text).length = 1 ∧ w.replay = ⟨101, [], none⟩ := by
  intro line text w s
  have hsettings : w.settings ⟨"relay.json", none, false⟩ = .ok (s, .gitHub) :=
    settings_gitHub (by decide +kernel) rfl
  have hqueue : s.inboundQueue ≠ sinkQueue := by decide +kernel
  have hinput : w.input ⟨"relay.json", none, false⟩ = .ok text.toUTF8 := rfl
  have hreplay := replay_eq (w := w) rfl hsettings rfl hqueue hinput
  refine ⟨hsettings, rfl, hqueue, hinput, by decide +kernel, ?_⟩
  rw [hreplay, if_pos (by decide)]

end Surroundings

end AlertRelay
