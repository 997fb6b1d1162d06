import AlertRelay.Proofs.Failures

/-! What becomes of a failure that a relay meets, over any broker and whatever else
happens. A failure of the channel and a refused publish are counted and survived, a
failure of the connection leads to another attempt, and any other ends the relay. -/

namespace AlertRelay

variable {σ ω : Type}

namespace TaskState

/-- On the way from one run to the next, or ended well on that way. -/
def BetweenRuns : TaskState → Prop
  | .running (.finished (.error f)) => f.kind? = some .connection
  | .running .starting | .reconnecting _ | .ended (.ok _) => True
  | _ => False

/-- Ended with a failure, or about to. -/
def GivesUp (g : RelayFailure) : TaskState → Prop
  | .running (.finished (.error f)) => f = g ∧ f.kind? ≠ some .connection
  | .ended (.error f) => f = g
  | _ => False

end TaskState

namespace Supervised

variable (link : Link σ) (act : ω → σ → σ) (delay : Nat)

/-- The next step of the relay looks for a message. -/
def Looks (s : Supervised σ) : Prop :=
  ∃ seen, s.task = .running (.consuming seen) ∧ s.state.mailbox.isQuiet = true ∧
    seen ≠ some (link.wakeUps s.state.broker)

/-- Whatever happens, the task ends with the failure at its next step. -/
def EndsWith (f : BrokerFailure) (s : Supervised σ) : Prop :=
  ∀ later, (∃ now, .work now ∈ later) → (s.run link act delay later).task = .ended (.error (.broker f))

def Away (b : Backlog) (s : Supervised σ) : Prop :=
  s.task.BetweenRuns ∧ s.state.pipeline.backlog = b

/-- When the delay is over the next run begins, and whatever happens before that,
nothing but the phase of the pipeline changes until it has begun. -/
structure Reattempts (b : Backlog) (s : Supervised σ) : Prop where
  resumes : ∀ now resumeAt, now + delay ≤ resumeAt →
    s.run link act delay [.work now, .work resumeAt] = { s with task := .running .starting }
  carries : ∀ later, (s.run link act delay later).Away b ∨
    ∃ earlier now rest, later = earlier ++ .work now :: rest ∧
      let before := s.run link act delay earlier
      let after := s.run link act delay (earlier ++ [.work now])
      before.task = .running .starting ∧ before.Away b ∧ after.state.pipeline.backlog = b ∧
        after.state.broker = (before.state.pipeline.declare link before.state.broker).2

/-- What follows a failure in the loop that left this backlog. -/
def Aftermath (f : BrokerFailure) (b : Backlog) (s : Supervised σ) : Prop :=
  match f.kind with
  | .channel => s.task = .running (.consuming none) ∧ s.state.pipeline.phase = .running ∧
      s.state.pipeline.backlog = { b with stats := b.stats.loseChannel }
  | .notDelivered => s.task = .running (.consuming none) ∧ s.state.pipeline.phase = .running ∧
      s.state.pipeline.backlog = { b with stats := b.stats.refuse }
  | .connection => s.state.pipeline.backlog = b ∧ s.Reattempts link act delay b
  | .other => s.state.pipeline.backlog = b ∧ s.EndsWith link act delay f

variable {link act delay} {s : Supervised σ} {f : BrokerFailure} {b : Backlog}

theorem run_of_ended {outcome : Except RelayFailure StatsReport} (h : s.task = .ended outcome)
    (later : List (Occurrence ω)) : (s.run link act delay later).task = .ended outcome := by
  have hstays : Stays link act delay fun s : Supervised σ => s.task = .ended outcome := by
    refine ⟨?_, fun m hs => hs, fun o hs => hs⟩
    intro s t now hs hstep
    rw [hs] at hstep
    cases hstep
  exact hstays.run h later

theorem endsWith_of_finished (h : s.task = .running (.finished (.error (.broker f))))
    (hk : f.kind ≠ .connection) : s.EndsWith link act delay f := by
  intro later hlater
  obtain ⟨now, hmem⟩ := hlater
  induction later generalizing s with
  | nil => cases hmem
  | cons o later ih =>
    -- nothing but a step of the task changes the task, and the first step ends it
    have hother : (s.next link act delay o).task = s.task → .work now ∈ later →
        (s.run link act delay (o :: later)).task = .ended (.error (.broker f)) := by
      intro htask hmem
      rw [run_cons]
      exact ih (by rw [htask, h]) hmem
    cases o with
    | work time =>
      have hkind : (RelayFailure.broker f).kind? ≠ some .connection := fun he => hk (Option.some.inj he)
      rw [run_cons, next_of_step h (.gaveUp hkind)]
      exact run_of_ended rfl later
    | meanwhile o => exact hother rfl (by simpa using hmem)
    | send c => exact hother rfl (by simpa using hmem)
    | hangUp => exact hother rfl (by simpa using hmem)

theorem Away.of_step {s t : Supervised σ} {now : Nat} (h : s.Away b)
    (hstep : TaskState.Step link now delay s.task s.state t.task t.state) :
    t.Away b ∨ s.task = .running .starting ∧ t.state.pipeline.backlog = b ∧
      t.state.broker = (s.state.pipeline.declare link s.state.broker).2 := by
  obtain ⟨hbetween, hb⟩ := h
  obtain ⟨task, state⟩ := s
  obtain ⟨task', state'⟩ := t
  have hbegin : state' = (state.begin link).2 → state'.pipeline.backlog = b ∧
      state'.broker = (state.pipeline.declare link state.broker).2 := by
    rintro rfl
    obtain ⟨phase, hp⟩ := state.begin_eq link
    rw [hp]
    exact ⟨hb, rfl⟩
  cases hstep with
  | begun h => exact .inr ⟨rfl, hbegin (by rw [h])⟩
  | notBegun h => exact .inr ⟨rfl, hbegin (by rw [h])⟩
  | lost => exact .inl ⟨trivial, hb⟩
  | gaveUp hk => exact absurd hbetween hk
  | resumed => exact .inl ⟨trivial, hb⟩
  | answeredAway => exact .inl ⟨trivial, hb⟩
  | stoppedAway => exact .inl ⟨trivial, hb⟩
  | _ => exact hbetween.elim

theorem Away.run (h : s.Away b) (later : List (Occurrence ω)) : (s.run link act delay later).Away b ∨
    ∃ earlier now rest, later = earlier ++ .work now :: rest ∧
      (s.run link act delay earlier).task = .running .starting ∧ (s.run link act delay earlier).Away b ∧
      (s.run link act delay (earlier ++ [.work now])).state.pipeline.backlog = b ∧
      (s.run link act delay (earlier ++ [.work now])).state.broker =
        ((s.run link act delay earlier).state.pipeline.declare link
          (s.run link act delay earlier).state.broker).2 := by
  induction later using List.reverseRecOn with
  | nil => exact .inl h
  | append_singleton later o ih =>
    rcases ih with haway | ⟨earlier, now, rest, rfl, hbegun⟩
    · cases o with
      | work now =>
        rw [run_append]
        rcases (s.run link act delay later).next_work link act delay now with ⟨_, hsame⟩ | hstep
        · rw [hsame]
          exact .inl haway
        · rcases haway.of_step hstep with haway' | ⟨htask, hb, hbroker⟩
          · exact .inl haway'
          · exact .inr ⟨later, now, [], rfl, htask, haway, by rw [run_append]; exact ⟨hb, hbroker⟩⟩
      | meanwhile o => exact .inl (by rw [run_append]; exact haway)
      | send c => exact .inl (by rw [run_append]; exact haway)
      | hangUp => exact .inl (by rw [run_append]; exact haway)
    · -- the next run has begun already
      exact .inr ⟨earlier, now, rest ++ [o], by simp, hbegun⟩

theorem reattempts_of_finished (h : s.task = .running (.finished (.error (.broker f))))
    (hk : f.kind = .connection) (hb : s.state.pipeline.backlog = b) : s.Reattempts link act delay b := by
  have hkind : (RelayFailure.broker f).kind? = some .connection := congrArg some hk
  refine ⟨?_, fun later => Away.run ⟨by rw [h]; exact hkind, hb⟩ later⟩
  intro now resumeAt htime
  rw [run_cons, next_of_step h (.lost hkind), run_cons, next_of_step rfl (.resumed htime)]
  rfl

/-- A relay in its loop is running. -/
theorem run_phase (settings : Settings) (rule : Rule) (broker : σ) (schedule : List (Occurrence ω)) :
    ((start settings rule broker).run link act delay schedule).task.InLoop →
      ((start settings rule broker).run link act delay schedule).state.pipeline.phase = .running := by
  have hstays : Stays link act delay fun s : Supervised σ =>
      s.task.InLoop → s.state.pipeline.phase = .running := by
    refine ⟨?_, fun m hs => hs, fun o hs => hs⟩
    rintro ⟨task, state⟩ ⟨task', state'⟩ now hs hstep ⟨seen, ht⟩
    subst ht
    cases hstep with
    | begun h =>
      obtain ⟨t, _, rfl⟩ := RelayState.begin_ok h
      rfl
    | answered => exact hs ⟨_, rfl⟩
    | consumed hquiet hseen h => exact (RelayState.consume_again h).2.trans (hs ⟨_, rfl⟩)
    | waited hquiet hseen h =>
      obtain ⟨t, _, _, rfl⟩ := RelayState.consume_waits h
      exact hs ⟨_, rfl⟩
  have hstart : ¬ (start settings rule broker).task.InLoop := fun h => nomatch h
  exact hstays.run (fun hloop => absurd hloop hstart) schedule

theorem aftermath (h : s.Looks link) (hphase : s.state.pipeline.phase = .running) {t : σ}
    (hf : s.state.Fails link f b t) (now : Nat) :
    (s.next link act delay (.work now)).state.broker = t ∧
      (s.next link act delay (.work now)).Aftermath link act delay f b := by
  obtain ⟨seen, htask, hquiet, hseen⟩ := h
  have hgoes : ∀ {state}, s.state.consume link = (.again, state) →
      s.next link act delay (.work now) = ⟨.running (.consuming none), state⟩ := by
    intro state hc
    exact next_of_step htask (.consumed hquiet hseen hc)
  have hends : ∀ {state outcome}, s.state.consume link = (.ended outcome, state) →
      s.next link act delay (.work now) = ⟨.running (.finished outcome), state⟩ := by
    intro state outcome hc
    exact next_of_step htask (.failed hquiet hseen hc)
  unfold Aftermath
  cases hk : f.kind with
  | channel =>
    rw [hgoes (RelayState.consume_channel hf hk)]
    exact ⟨rfl, rfl, hphase, rfl⟩
  | notDelivered =>
    rw [hgoes (RelayState.consume_refused hf hk)]
    exact ⟨rfl, rfl, hphase, rfl⟩
  | connection =>
    rw [hends (RelayState.consume_fatal hf (.inl hk))]
    exact ⟨rfl, rfl, reattempts_of_finished rfl hk rfl⟩
  | other =>
    rw [hends (RelayState.consume_fatal hf (.inr hk))]
    exact ⟨rfl, rfl, endsWith_of_finished rfl (by simp [hk])⟩

/-- What it takes to give up: the topology cannot be declared for a reason other than
the connection, or the loop meets a failure of no known class. -/
def Collapses (link : Link σ) (f : BrokerFailure) (s : Supervised σ) : Prop :=
  s.task = .running .starting ∧ f.kind ≠ .connection ∧
      (∃ t, s.state.pipeline.declare link s.state.broker = (.error f, t)) ∨
    s.Looks link ∧ f.kind = .other ∧ ∃ b t, s.state.Fails link f b t

theorem step_givesUp {s t : Supervised σ} {now : Nat} {g : RelayFailure}
    (h : TaskState.Step link now delay s.task s.state t.task t.state) (ht : t.task.GivesUp g) :
    s.task.GivesUp g ∨ ∃ f, g = .broker f ∧ s.Collapses link f := by
  obtain ⟨task, state⟩ := s
  obtain ⟨task', state'⟩ := t
  cases h with
  | notBegun h =>
    obtain ⟨f, t, hd, rfl, _⟩ := RelayState.begin_error_iff.mp h
    obtain ⟨rfl, hk⟩ := ht
    exact .inr ⟨f, rfl, .inl ⟨rfl, fun he => hk (congrArg some he), t, hd⟩⟩
  | failed hquiet hseen h =>
    obtain ⟨f, b, t, hf, hk, rfl⟩ := RelayState.consume_gives_up h
    obtain ⟨rfl, hne⟩ := ht
    have hother : f.kind = .other := hk.resolve_left fun he => hne (congrArg some he)
    exact .inr ⟨f, rfl, .inr ⟨⟨_, rfl, hquiet, hseen⟩, hother, b, t, hf⟩⟩
  | gaveUp hk => exact .inl ⟨ht, hk⟩
  | _ => exact ht.elim

/-- The step that observes a shutdown: it takes the command, if there is one. -/
structure Observes (s t : Supervised σ) : Prop where
  stops : s.state.mailbox.Stops
  takes : t.state.mailbox.commands = s.state.mailbox.commands.tail
  site : s.task.InLoop ∨ ∃ resumeAt, s.task = .reconnecting resumeAt

theorem step_observes {s t : Supervised σ} {now : Nat}
    (h : TaskState.Step link now delay s.task s.state t.task t.state) (ht : t.task.EndsWell) :
    s.task.EndsWell ∨ s.Observes t := by
  obtain ⟨task, state⟩ := s
  obtain ⟨task', state'⟩ := t
  cases h with
  | stopped h => exact .inr ⟨h, rfl, .inl ⟨_, rfl⟩⟩
  | stoppedAway htime h => exact .inr ⟨h, rfl, .inr ⟨_, rfl⟩⟩
  | failed hquiet hseen h =>
    obtain ⟨f, b, t, _, _, rfl⟩ := RelayState.consume_gives_up h
    exact ht.elim
  | ended => exact .inl trivial
  | _ => exact ht.elim

/-- Over any broker, whatever it answers, whatever others do to it and whenever. What
follows a failure in the loop depends on its class alone, and a connection that cannot
be made leads to another attempt. The relay gives up only when it meets a failure of no
known class in its loop, or cannot declare the topology for a reason other than the
connection, and then with that failure. It ends well only by a shutdown, whatever the
publishes answer by which it drains the outbox for the last time. -/
theorem recovery_policy (link : Link σ) (act : ω → σ → σ) (delay : Nat) (settings : Settings) (rule : Rule)
    (broker : σ) (schedule : List (Occurrence ω)) :
    let relay := (start settings rule broker).run link act delay
    let x := relay schedule
    let y := fun now => relay (schedule ++ [.work now])
    (∀ f b t now, x.Looks link → x.state.Fails link f b t →
      (y now).state.broker = t ∧ (y now).Aftermath link act delay f b) ∧
    (∀ f t now, x.task = .running .starting → x.state.pipeline.declare link x.state.broker = (.error f, t) →
      f.kind = .connection → (y now).Reattempts link act delay x.state.pipeline.backlog) ∧
    (∀ g, x.task = .ended (.error g) → ∃ f, g = .broker f ∧ f.kind ≠ .connection ∧
      ∃ earlier now later, schedule = earlier ++ .work now :: later ∧ (relay earlier).Collapses link f) ∧
    (∀ report, x.task = .ended (.ok report) → ∃ earlier now later,
      schedule = earlier ++ .work now :: later ∧ (relay earlier).Observes (relay (earlier ++ [.work now]))) ∧
    (x.task.InLoop → x.state.mailbox.Stops → ∀ now, (y now).task = .running (.finished (.ok ()))) := by
  intro relay x y
  have hy : ∀ now, y now = x.next link act delay (.work now) := fun now => run_append ..
  refine ⟨?_, ?_, ?_, ?_, ?_⟩
  · intro f b t now hlooks hf
    have hphase : x.state.pipeline.phase = .running := by
      obtain ⟨seen, htask, _⟩ := hlooks
      exact run_phase settings rule broker schedule ⟨seen, htask⟩
    rw [hy]
    exact aftermath hlooks hphase hf now
  · intro f t now htask hd hk
    have hbegin := RelayState.begin_error_iff.mpr ⟨f, t, hd, rfl, rfl⟩
    rw [hy, next_of_step htask (.notBegun hbegin)]
    exact reattempts_of_finished rfl hk rfl
  · intro g hg
    have hgives : x.task.GivesUp g := by
      rw [hg]
      rfl
    have hstart : ¬ (start settings rule broker).task.GivesUp g := fun h => h
    obtain ⟨earlier, now, later, hs, f, rfl, hc⟩ :=
      run_reaches (P := TaskState.GivesUp g) step_givesUp hstart schedule hgives
    have hk : f.kind ≠ .connection := by
      rcases hc with ⟨_, hk, _⟩ | ⟨_, hk, _⟩
      · exact hk
      · simp [hk]
    exact ⟨f, rfl, hk, earlier, now, later, hs, hc⟩
  · intro report hr
    have hends : x.task.EndsWell := by
      rw [hr]
      trivial
    have hstart : ¬ (start settings rule broker).task.EndsWell := fun h => h
    exact run_reaches (P := TaskState.EndsWell) step_observes hstart schedule hends
  · rintro ⟨seen, htask⟩ hstops now
    rw [hy, next_of_step htask (.stopped hstops)]

/-- A look for a message fails as no channel and no connection does. -/
theorem recovery_policy_failed_look :
    let f : BrokerFailure := .injected .other "access refused"
    let schedule : List (Occurrence BrokerOperation) := [.work 0, .meanwhile (.failDelivery f)]
    let relay := (start {} .gitHub {}).run Broker.link brokerActs 20
    let x := relay schedule
    (∃ t, x.Looks Broker.link ∧ x.state.Fails Broker.link f x.state.pipeline.backlog t) ∧
    (relay (schedule ++ [.work 0])).EndsWith Broker.link brokerActs 20 f := by
  intro f schedule relay x
  have hseen : none ≠ some (Broker.link.wakeUps x.state.broker) := fun h => nomatch h
  have hlooks : x.Looks Broker.link := ⟨none, rfl, rfl, hseen⟩
  have hfails : x.state.Fails Broker.link f x.state.pipeline.backlog _ := .looking rfl
  have hpolicy := recovery_policy Broker.link brokerActs 20 {} .gitHub {} schedule
  exact ⟨⟨_, hlooks, hfails⟩, (hpolicy.1 f _ _ 0 hlooks hfails).2.2⟩

/-- A relay whose outbox holds an alert is shut down, and the publish by which it
drains the outbox for the last time fails as no channel and no connection does. The
relay has met the failure and ends well. -/
theorem shutdown_swallows_failure :
    let f : BrokerFailure := .injected .other "access refused"
    let payload := "\x7b\"error\":\x7b\"meta_data\":\x7b\"repo_name\":\"x\",\"time\":5," ++
      "\"repo_parent_id\":\"p\",\"repo_id\":\"r\"\x7d\x7d\x7d"
    let schedule : List (Occurrence BrokerOperation) :=
      [.work 0, .meanwhile (.inject "alert" "alerter.github" payload.toUTF8), .work 0,
        .meanwhile (.failPublish f), .send .shutdown]
    let relay := (start {} .gitHub {}).run Broker.link brokerActs 20
    let x := relay schedule
    x.task.InLoop ∧
    (x.state.pipeline.backlog.drain Broker.link x.state.broker).1 = .error (.broker f) ∧
    (relay (schedule ++ [.work 0])).state.broker.publishFaults = [] ∧
    ∃ report, (relay (schedule ++ [.work 0, .work 0])).task = .ended (.ok report) := by
  intro f payload schedule relay x
  have hrun : x.task.InLoop ∧ x.state.mailbox.commands = [.shutdown] ∧
      (x.state.pipeline.backlog.drain Broker.link x.state.broker).1 = .error (.broker f) ∧
      (relay (schedule ++ [.work 0])).state.broker.publishFaults = [] := by
    decide +kernel
  obtain ⟨⟨seen, htask⟩, hcommands, hdrain, hfaults⟩ := hrun
  have hstops : x.state.mailbox.Stops := .inl (by rw [hcommands]; rfl)
  have hends : relay (schedule ++ [.work 0, .work 0]) = (x.next Broker.link brokerActs 20 (.work 0)).next
      Broker.link brokerActs 20 (.work 0) := List.foldl_append
  refine ⟨⟨seen, htask⟩, hdrain, hfaults, ?_⟩
  rw [hends, next_of_step htask (.stopped hstops), next_of_step rfl .ended]
  exact ⟨_, rfl⟩

end Supervised

end AlertRelay
