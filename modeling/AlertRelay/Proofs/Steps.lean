import AlertRelay.Proofs.Release

/-! The steps of a task as a relation, with a constructor for each thing that a
step can do. -/

namespace AlertRelay

variable {σ ω : Type}

inductive TaskState.Step (link : Link σ) (now delay : Nat) :
    TaskState → RelayState σ → TaskState → RelayState σ → Prop
  | begun {s s' : RelayState σ} (h : s.begin link = (.ok (), s')) :
      Step link now delay (.running .starting) s (.running (.consuming none)) s'
  | notBegun {s s' : RelayState σ} {f : RelayFailure} (h : s.begin link = (.error f, s')) :
      Step link now delay (.running .starting) s (.running (.finished (.error f))) s'
  | answered {s : RelayState σ} {seen : Option Nat} {id : Nat} {rest : List Command}
      (h : s.mailbox.commands = .report id :: rest) :
      Step link now delay (.running (.consuming seen)) s (.running (.consuming none)) (s.answer id rest)
  | stopped {s : RelayState σ} {seen : Option Nat} (h : s.mailbox.Stops) :
      Step link now delay (.running (.consuming seen)) s (.running (.finished (.ok ())))
        ((s.withCommands s.mailbox.commands.tail).terminate link)
  | consumed {s s' : RelayState σ} {seen : Option Nat} (hquiet : s.mailbox.isQuiet = true)
      (hseen : seen ≠ some (link.wakeUps s.broker)) (h : s.consume link = (.again, s')) :
      Step link now delay (.running (.consuming seen)) s (.running (.consuming none)) s'
  | waited {s s' : RelayState σ} {seen : Option Nat} {n : Nat} (hquiet : s.mailbox.isQuiet = true)
      (hseen : seen ≠ some (link.wakeUps s.broker)) (h : s.consume link = (.waits n, s')) :
      Step link now delay (.running (.consuming seen)) s (.running (.consuming (some n))) s'
  | failed {s s' : RelayState σ} {seen : Option Nat} {outcome : Except RelayFailure Unit}
      (hquiet : s.mailbox.isQuiet = true) (hseen : seen ≠ some (link.wakeUps s.broker))
      (h : s.consume link = (.ended outcome, s')) :
      Step link now delay (.running (.consuming seen)) s (.running (.finished outcome)) s'
  | ended {s : RelayState σ} :
      Step link now delay (.running (.finished (.ok ()))) s (.ended (.ok s.pipeline.report)) s
  | lost {s : RelayState σ} {f : RelayFailure} (h : f.kind? = some .connection) :
      Step link now delay (.running (.finished (.error f))) s (.reconnecting (now + delay)) s
  | gaveUp {s : RelayState σ} {f : RelayFailure} (h : f.kind? ≠ some .connection) :
      Step link now delay (.running (.finished (.error f))) s (.ended (.error f)) s
  | resumed {s : RelayState σ} {resumeAt : Nat} (h : resumeAt ≤ now) :
      Step link now delay (.reconnecting resumeAt) s (.running .starting) s
  | answeredAway {s : RelayState σ} {resumeAt id : Nat} {rest : List Command} (htime : now < resumeAt)
      (h : s.mailbox.commands = .report id :: rest) :
      Step link now delay (.reconnecting resumeAt) s (.reconnecting resumeAt) (s.answer id rest)
  | stoppedAway {s : RelayState σ} {resumeAt : Nat} (htime : now < resumeAt) (h : s.mailbox.Stops) :
      Step link now delay (.reconnecting resumeAt) s (.ended (.ok s.pipeline.report))
        (s.withCommands s.mailbox.commands.tail)

def TaskState.InLoop (t : TaskState) : Prop := ∃ seen, t = .running (.consuming seen)

instance : DecidablePred TaskState.InLoop
  | .running (.consuming seen) => .isTrue ⟨seen, rfl⟩
  | .running .starting | .running (.finished _) | .reconnecting _ | .ended _ => .isFalse fun h => nomatch h

namespace Mailbox

variable {m : Mailbox}

theorem isQuiet_iff : m.isQuiet = true ↔ m.commands = [] ∧ m.isOpen = true := by
  simp [isQuiet]

theorem Stops.commands (h : m.Stops) :
    m.commands = .shutdown :: m.commands.tail ∨ m.commands = [] ∧ m.isOpen = false := by
  rcases h with h | h
  · exact .inl (List.cons_head?_tail h).symm
  · exact .inr h

theorem Stops.not_quiet (h : m.Stops) : ¬ m.isQuiet = true := by
  intro hquiet
  obtain ⟨hnone, hopen⟩ := isQuiet_iff.mp hquiet
  rcases h.commands with hc | ⟨_, hclosed⟩
  · rw [hnone] at hc
    cases hc
  · rw [hopen] at hclosed
    cases hclosed

/-- A mailbox is quiet, has a request for the counters next, or stops the relay. -/
theorem quiet_or_report_or_stops (m : Mailbox) :
    m.isQuiet = true ∨ (∃ id rest, m.commands = .report id :: rest) ∨ m.Stops := by
  cases hc : m.commands with
  | nil =>
    cases ho : m.isOpen with
    | true => exact .inl (isQuiet_iff.mpr ⟨hc, ho⟩)
    | false => exact .inr (.inr (.inr ⟨hc, ho⟩))
  | cons c rest =>
    cases c with
    | report id => exact .inr (.inl ⟨id, rest, rfl⟩)
    | shutdown => exact .inr (.inr (.inl (by rw [hc]; rfl)))

end Mailbox

namespace RelayState

variable {link : Link σ} {s : RelayState σ}

theorem withCommands_nil (h : s.mailbox.commands = []) : s.withCommands [] = s := by
  rw [withCommands, ← h]

theorem turn_quiet (h : s.mailbox.isQuiet = true) : s.turn link = s.consume link := by
  obtain ⟨hc, ho⟩ := Mailbox.isQuiet_iff.mp h
  rw [turn, hc]
  exact if_pos ho

theorem turn_report {id : Nat} {rest : List Command} (h : s.mailbox.commands = .report id :: rest) :
    s.turn link = (.again, s.answer id rest) := by
  rw [turn, h]

theorem turn_stops (h : s.mailbox.Stops) :
    s.turn link = (.ended (.ok ()), (s.withCommands s.mailbox.commands.tail).terminate link) := by
  rcases h.commands with hc | ⟨hc, ho⟩
  · rw [turn, hc]
    rfl
  · rw [turn, hc, ho, List.tail_nil, withCommands_nil hc]
    rfl

end RelayState

namespace TaskState

variable {link : Link σ} {now delay : Nat} {t t' : TaskState} {s s' : RelayState σ}

theorem step_turn {seen : Option Nat} (h : ¬ (seen = some (link.wakeUps s.broker) ∧ s.mailbox.isQuiet = true)) :
    (running (.consuming seen)).step link now delay s = some (match s.turn link with
      | (.again, s) => (.running (.consuming none), s)
      | (.waits n, s) => (.running (.consuming (some n)), s)
      | (.ended outcome, s) => (.running (.finished outcome), s)) := by
  simp only [step, RunState.step, if_neg h]
  obtain ⟨turn, s'⟩ := s.turn link
  cases turn <;> rfl

theorem Step.of_step (h : t.step link now delay s = some (t', s')) : Step link now delay t s t' s' := by
  cases t with
  | running r =>
    cases r with
    | starting =>
      simp only [step, RunState.step] at h
      split at h <;> rename_i hb <;> cases h
      · exact .begun hb
      · exact .notBegun hb
    | consuming seen =>
      by_cases hwait : seen = some (link.wakeUps s.broker) ∧ s.mailbox.isQuiet = true
      · simp only [step, RunState.step, if_pos hwait] at h
        cases h
      · rw [step_turn hwait] at h
        rcases s.mailbox.quiet_or_report_or_stops with hquiet | ⟨id, rest, hreport⟩ | hstops
        · have hseen : seen ≠ some (link.wakeUps s.broker) := fun he => hwait ⟨he, hquiet⟩
          rw [RelayState.turn_quiet hquiet] at h
          split at h <;> rename_i hc <;> cases h
          · exact .consumed hquiet hseen hc
          · exact .waited hquiet hseen hc
          · exact .failed hquiet hseen hc
        · rw [RelayState.turn_report hreport] at h
          cases h
          exact .answered hreport
        · rw [RelayState.turn_stops hstops] at h
          cases h
          exact .stopped hstops
    | finished outcome =>
      cases outcome with
      | ok u =>
        cases h
        exact .ended
      | error f =>
        by_cases hk : f.kind? = some .connection
        · simp only [step, afterRun, if_pos hk] at h
          cases h
          exact .lost hk
        · simp only [step, afterRun, if_neg hk] at h
          cases h
          exact .gaveUp hk
  | reconnecting resumeAt =>
    simp only [step] at h
    split at h
    · rename_i htime
      cases h
      exact .resumed htime
    · rename_i htime
      have htime := Nat.lt_of_not_le htime
      split at h
      · rename_i hc
        cases h
        exact .answeredAway htime hc
      · rename_i rest hc
        cases h
        have hstops : s.mailbox.Stops := .inl (by rw [hc]; rfl)
        have hs : Step link now delay (.reconnecting resumeAt) s _ _ := .stoppedAway htime hstops
        rwa [hc] at hs
      · rename_i hc
        split at h
        · cases h
        · rename_i ho
          cases h
          have hstops : s.mailbox.Stops := .inr ⟨hc, by simpa using ho⟩
          have hs : Step link now delay (.reconnecting resumeAt) s _ _ := .stoppedAway htime hstops
          rwa [hc, List.tail_nil, RelayState.withCommands_nil hc] at hs
  | ended outcome => cases h

theorem Step.step_eq (h : Step link now delay t s t' s') : t.step link now delay s = some (t', s') := by
  cases h with
  | begun h => simp only [step, RunState.step, h, Option.map_some]
  | notBegun h => simp only [step, RunState.step, h, Option.map_some]
  | answered h =>
    have hquiet : ¬ s.mailbox.isQuiet = true := by
      simp [Mailbox.isQuiet, h]
    rw [step_turn fun hw => hquiet hw.2, RelayState.turn_report h]
  | stopped h => rw [step_turn fun hw => h.not_quiet hw.2, RelayState.turn_stops h]
  | consumed hquiet hseen h => rw [step_turn fun hw => hseen hw.1, RelayState.turn_quiet hquiet, h]
  | waited hquiet hseen h => rw [step_turn fun hw => hseen hw.1, RelayState.turn_quiet hquiet, h]
  | failed hquiet hseen h => rw [step_turn fun hw => hseen hw.1, RelayState.turn_quiet hquiet, h]
  | ended => rfl
  | lost h => simp only [step, afterRun, if_pos h]
  | gaveUp h => simp only [step, afterRun, if_neg h]
  | resumed h => simp only [step, if_pos h]
  | answeredAway htime h => simp only [step, if_neg (Nat.not_le_of_lt htime), h]
  | stoppedAway htime h =>
    rcases h.commands with hc | ⟨hc, ho⟩
    · simp only [step, if_neg (Nat.not_le_of_lt htime)]
      rw [hc]
      rfl
    · simp only [step, if_neg (Nat.not_le_of_lt htime), hc, ho, List.tail_nil, RelayState.withCommands_nil hc]
      rfl

end TaskState

namespace Supervised

variable {link : Link σ} {act : ω → σ → σ} {delay : Nat}

theorem run_cons (s : Supervised σ) (o : Occurrence ω) (later : List (Occurrence ω)) :
    s.run link act delay (o :: later) = (s.next link act delay o).run link act delay later := rfl

theorem next_of_step {s : Supervised σ} {now : Nat} {t t' : TaskState} {r : RelayState σ} (ht : s.task = t)
    (h : TaskState.Step link now delay t s.state t' r) : s.next link act delay (.work now) = ⟨t', r⟩ := by
  subst ht
  simp only [next, h.step_eq]

/-- A relay in its loop that has no command and was woken looks for a message. -/
theorem next_consume {s : Supervised σ} {seen : Option Nat} (ht : s.task = .running (.consuming seen))
    (hquiet : s.state.mailbox.isQuiet = true) (hseen : seen ≠ some (link.wakeUps s.state.broker)) (now : Nat) :
    (s.next link act delay (.work now)).state = (s.state.consume link).2 := by
  rcases hc : s.state.consume link with ⟨turn, s'⟩
  cases turn with
  | again => rw [next_of_step ht (.consumed hquiet hseen hc)]
  | waits n => rw [next_of_step ht (.waited hquiet hseen hc)]
  | ended outcome => rw [next_of_step ht (.failed hquiet hseen hc)]

theorem next_work (link : Link σ) (act : ω → σ → σ) (delay : Nat) (s : Supervised σ) (now : Nat) :
    s.task.step link now delay s.state = none ∧ s.next link act delay (.work now) = s ∨
    TaskState.Step link now delay s.task s.state (s.next link act delay (.work now)).task
      (s.next link act delay (.work now)).state := by
  cases hs : s.task.step link now delay s.state with
  | none => exact .inl ⟨rfl, by simp only [next, hs]⟩
  | some x =>
    have hstep : TaskState.Step link now delay s.task s.state x.1 x.2 := .of_step hs
    rw [next_of_step rfl hstep]
    exact .inr hstep

/-- What a task keeps, and what others leave alone. -/
structure Stays (link : Link σ) (act : ω → σ → σ) (delay : Nat) (P : Supervised σ → Prop) : Prop where
  step : ∀ {s t : Supervised σ} {now}, P s → TaskState.Step link now delay s.task s.state t.task t.state → P t
  mailbox : ∀ {s : Supervised σ} m, P s → P { s with state := { s.state with mailbox := m } }
  meanwhile : ∀ {s : Supervised σ} o, P s → P { s with state := { s.state with broker := act o s.state.broker } }

theorem Stays.run {P : Supervised σ → Prop} (h : Stays link act delay P) {s : Supervised σ} (hs : P s)
    (schedule : List (Occurrence ω)) : P (s.run link act delay schedule) := by
  refine List.foldlRecOn (motive := P) schedule _ hs ?_
  intro s hs o _
  cases o with
  | work now =>
    rcases s.next_work link act delay now with ⟨_, hsame⟩ | hstep
    · rw [hsame]
      exact hs
    · exact h.step hs hstep
  | meanwhile o => exact h.meanwhile o hs
  | send c => exact h.mailbox _ hs
  | hangUp => exact h.mailbox _ hs

theorem Stays.of_relay {I : RelayState σ → Prop} (h : RelayState.Stays link act I) (delay : Nat) :
    Stays link act delay fun s => I s.state where
  step {s t now} hs hstep := by
    have hnext := next_stays h delay hs (.work now)
    rwa [next_of_step rfl hstep] at hnext
  mailbox m hs := h.mailbox m hs
  meanwhile o hs := h.meanwhile o hs

theorem names_stay (link : Link σ) (act : ω → σ → σ) (exchange queue : String) :
    RelayState.Stays link act fun s => s.pipeline.exchange = exchange ∧ s.pipeline.queue = queue where
  begin {s} h := by
    obtain ⟨phase, hb⟩ := s.begin_eq link
    rw [hb]
    exact h
  consume {s} h := by
    rcases s.consume_cases link with ⟨_, _, _, _, hc⟩ | ⟨_, _, _, _, _, hc⟩ <;> rw [hc] <;> exact h
  terminate h := h
  mailbox _ h := h
  meanwhile _ h := h

/-- A task that has come to be `P` has done so in some step. -/
theorem run_reaches {P : TaskState → Prop} {C : Supervised σ → Supervised σ → Prop}
    (hstep : ∀ {x y : Supervised σ} {now}, TaskState.Step link now delay x.task x.state y.task y.state →
      P y.task → P x.task ∨ C x y)
    {s : Supervised σ} (hs : ¬ P s.task) (schedule : List (Occurrence ω)) :
    P (s.run link act delay schedule).task → ∃ earlier now later, schedule = earlier ++ .work now :: later ∧
      C (s.run link act delay earlier) (s.run link act delay (earlier ++ [.work now])) := by
  induction schedule using List.reverseRecOn with
  | nil => exact fun h => absurd h hs
  | append_singleton schedule o ih =>
    intro h
    -- the last occurrence is the step, or `P` held before it
    have hbefore : P (s.run link act delay schedule).task → ∃ earlier now later,
        schedule ++ [o] = earlier ++ .work now :: later ∧
          C (s.run link act delay earlier) (s.run link act delay (earlier ++ [.work now])) := by
      intro hp
      obtain ⟨earlier, now, later, rfl, hc⟩ := ih hp
      exact ⟨earlier, now, later ++ [o], by simp, hc⟩
    rw [run_append] at h
    cases o with
    | work now =>
      rcases (s.run link act delay schedule).next_work link act delay now with ⟨_, hsame⟩ | hnext
      · rw [hsame] at h
        exact hbefore h
      · rcases hstep hnext h with hp | hc
        · exact hbefore hp
        · rw [← run_append] at hc
          exact ⟨schedule, now, [], rfl, hc⟩
    | meanwhile o => exact hbefore h
    | send c => exact hbefore h
    | hangUp => exact hbefore h

end Supervised

end AlertRelay
