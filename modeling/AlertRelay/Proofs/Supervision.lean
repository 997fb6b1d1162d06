import AlertRelay.Proofs.Lifting
import AlertRelay.Proofs.Turns
import Mathlib.Data.List.Induction

/-! A relay's task in its surroundings. Between two steps of the task others use
the broker, commands come in and the last sender may leave, in any order. -/

namespace AlertRelay

/-- What occurs. The time of a step is free, so a task that waits for its next
attempt may find that the time has come or that it has not. -/
inductive Occurrence (ω : Type)
  | work (now : Nat)
  | meanwhile (o : ω)
  | send (c : Command)
  | hangUp

/-- The report of a task that has ended well. -/
def TaskState.lastReport? : TaskState → Option StatsReport
  | .ended (.ok r) => some r
  | _ => none

theorem TaskState.eq_ended {t : TaskState} {r : StatsReport} (h : t.lastReport? = some r) : t = .ended (.ok r) := by
  unfold lastReport? at h
  split at h
  · cases h
    rfl
  · cases h

structure Supervised (σ : Type) where
  task : TaskState := .running .starting
  state : RelayState σ

variable {σ τ ω : Type}

namespace Supervised

/-- `act` is what the others do to the broker. -/
def next (link : Link σ) (act : ω → σ → σ) (delay : Nat) (s : Supervised σ) : Occurrence ω → Supervised σ
  | .work now =>
    match s.task.step link now delay s.state with
    | none => s
    | some (task, state) => ⟨task, state⟩
  | .meanwhile o => { s with state := { s.state with broker := act o s.state.broker } }
  | .send c => { s with state := { s.state with mailbox := (s.state.mailbox.send c).2 } }
  | .hangUp => { s with state := { s.state with mailbox := { s.state.mailbox with isOpen := false } } }

def start (settings : Settings) (rule : Rule) (broker : σ) : Supervised σ where
  state := { broker := broker, pipeline := .ofSettings settings rule }

def run (link : Link σ) (act : ω → σ → σ) (delay : Nat) (s : Supervised σ) (schedule : List (Occurrence ω)) :
    Supervised σ :=
  schedule.foldl (next link act delay) s

def report (s : Supervised σ) : StatsReport := s.state.pipeline.report

def map (f : σ → τ) (s : Supervised σ) : Supervised τ := ⟨s.task, s.state.map f⟩

theorem next_map {f : σ → τ} {l : Link σ} {m : Link τ} (h : l.Lifts f m) {act : ω → σ → σ}
    {act' : ω → τ → τ} (ha : ∀ o s, act' o (f s) = f (act o s)) (delay : Nat) (s : Supervised σ)
    (o : Occurrence ω) : (s.map f).next m act' delay o = (s.next l act delay o).map f := by
  cases o with
  | work now =>
    simp only [next, map, h.taskStep]
    cases s.task.step l now delay s.state <;> rfl
  | meanwhile o => simp only [next, map, RelayState.map, ha]
  | send c => rfl
  | hangUp => rfl

theorem run_map {f : σ → τ} {l : Link σ} {m : Link τ} (h : l.Lifts f m) {act : ω → σ → σ}
    {act' : ω → τ → τ} (ha : ∀ o s, act' o (f s) = f (act o s)) (delay : Nat) (s : Supervised σ)
    (schedule : List (Occurrence ω)) :
    (s.map f).run m act' delay schedule = (s.run l act delay schedule).map f :=
  List.foldl_hom (Supervised.map f) fun s o => next_map h ha delay s o

end Supervised

structure RelayState.Stays (link : Link σ) (act : ω → σ → σ) (I : RelayState σ → Prop) : Prop where
  begin : ∀ {s}, I s → I (s.begin link).2
  consume : ∀ {s}, I s → I (s.consume link).2
  terminate : ∀ {s}, I s → I (s.terminate link)
  mailbox : ∀ {s} m, I s → I { s with mailbox := m }
  meanwhile : ∀ {s} o, I s → I { s with broker := act o s.broker }

namespace Supervised

variable {link : Link σ} {act : ω → σ → σ}

theorem next_stays {I : RelayState σ → Prop} (h : RelayState.Stays link act I) (delay : Nat)
    {s : Supervised σ} (hs : I s.state) (o : Occurrence ω) : I (s.next link act delay o).state := by
  cases o with
  | work now =>
    simp only [next]
    cases ht : s.task.step link now delay s.state with
    | none => exact hs
    | some x =>
      obtain ⟨t, s'⟩ := x
      rcases TaskState.step_cases ht with rfl | rfl | ⟨rest, rfl⟩ | ⟨id, rest, rfl⟩ | ⟨rest, rfl⟩
      · exact h.begin hs
      · exact h.consume hs
      · exact h.terminate (h.mailbox _ hs)
      · exact h.mailbox _ hs
      · exact h.mailbox _ hs
  | meanwhile o => exact h.meanwhile o hs
  | send c => exact h.mailbox _ hs
  | hangUp => exact h.mailbox _ hs

theorem run_stays {I : RelayState σ → Prop} (h : RelayState.Stays link act I) (delay : Nat)
    {s : Supervised σ} (hs : I s.state) (schedule : List (Occurrence ω)) :
    I (s.run link act delay schedule).state :=
  List.foldlRecOn (motive := fun s : Supervised σ => I s.state) schedule _ hs
    fun _ hs o _ => next_stays h delay hs o

theorem next_answers (delay : Nat) (s : Supervised σ) (o : Occurrence ω) :
    (s.next link act delay o).state.mailbox.answers = s.state.mailbox.answers ∨
    ∃ id, (s.next link act delay o).state.mailbox.answers = s.state.mailbox.answers ++ [(id, s.report)] := by
  cases o with
  | work now =>
    simp only [next]
    cases ht : s.task.step link now delay s.state with
    | none => exact .inl rfl
    | some x =>
      obtain ⟨t, s'⟩ := x
      rcases TaskState.step_cases ht with rfl | rfl | ⟨rest, rfl⟩ | ⟨id, rest, rfl⟩ | ⟨rest, rfl⟩
      · obtain ⟨phase, hb⟩ := s.state.begin_eq link
        exact .inl (by rw [hb])
      · rcases s.state.consume_cases link with ⟨_, _, _, _, hc⟩ | ⟨_, _, _, _, _, hc⟩ <;>
          exact .inl (by rw [hc])
      · exact .inl rfl
      · exact .inr ⟨id, rfl⟩
      · exact .inl rfl
  | meanwhile o => exact .inl rfl
  | send c =>
    refine .inl ?_
    simp only [next, Mailbox.send]
    split <;> rfl
  | hangUp => exact .inl rfl

theorem run_append (delay : Nat) (s : Supervised σ) (schedule : List (Occurrence ω)) (o : Occurrence ω) :
    s.run link act delay (schedule ++ [o]) = (s.run link act delay schedule).next link act delay o := by
  simp [run]

/-- Every answer reports the counters as they were at some point of the schedule. -/
theorem run_answers (delay : Nat) {s : Supervised σ} (hs : s.state.mailbox.answers = [])
    (schedule : List (Occurrence ω)) : ∀ answer ∈ (s.run link act delay schedule).state.mailbox.answers,
      ∃ earlier, earlier <+: schedule ∧ answer.2 = (s.run link act delay earlier).report := by
  intro answer h
  induction schedule using List.reverseRecOn with
  | nil =>
    have hm : answer ∈ s.state.mailbox.answers := h
    rw [hs] at hm
    cases hm
  | append_singleton schedule o ih =>
    -- an answer is older than the last occurrence, or given by it
    have hlift : answer ∈ (s.run link act delay schedule).state.mailbox.answers →
        ∃ earlier, earlier <+: schedule ++ [o] ∧ answer.2 = (s.run link act delay earlier).report := by
      intro hm
      obtain ⟨earlier, hp, he⟩ := ih hm
      exact ⟨earlier, hp.trans (List.prefix_append _ _), he⟩
    rw [run_append] at h
    rcases next_answers delay (s.run link act delay schedule) o with ha | ⟨id, ha⟩ <;> rw [ha] at h
    · exact hlift h
    · rcases List.mem_append.mp h with h | h
      · exact hlift h
      · exact ⟨schedule, List.prefix_append _ _, by rw [List.mem_singleton.mp h]⟩

/-- A task that has ended well has reported its last counters. -/
theorem run_ended (delay : Nat) {s : Supervised σ} (hs : ∀ r, s.task ≠ .ended (.ok r))
    (schedule : List (Occurrence ω)) : ∀ r, (s.run link act delay schedule).task = .ended (.ok r) →
      r = (s.run link act delay schedule).report := by
  intro r h
  induction schedule using List.reverseRecOn with
  | nil => exact absurd h (hs r)
  | append_singleton schedule o ih =>
    rw [run_append] at h ⊢
    cases o with
    | work now =>
      simp only [next] at h ⊢
      cases ht : (s.run link act delay schedule).task.step link now delay
          (s.run link act delay schedule).state with
      | none =>
        rw [ht] at h
        exact ih h
      | some x =>
        rw [ht] at h
        obtain ⟨t, s'⟩ := x
        have he : t = .ended (.ok r) := h
        rw [he] at ht
        exact TaskState.step_ended ht
    | meanwhile o => exact ih h
    | send c => exact ih h
    | hangUp => exact ih h

end Supervised

end AlertRelay
