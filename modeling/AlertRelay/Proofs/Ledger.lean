import AlertRelay.Proofs.Movement
import Mathlib.Data.List.Nodup
import Mathlib.Algebra.Order.Group.Multiset

/-! Which copy of a message is where. A message that is routed becomes a copy in
every queue it reaches, and a ledger follows the copies through the movements of
a broker. Copies are numbered in the order in which they were routed. -/

namespace AlertRelay

structure Copy where
  number : Nat
  queue : String
  message : Message

/-- The ledger lists copies with the tags under which they were handed out. -/
structure Ledger where
  routed : List Copy := []
  ready : String → List Copy := fun _ => []
  outstanding : List (Nat × Copy) := []
  issued : List (Nat × Copy) := []
  acknowledged : List (Nat × Copy) := []
  taken : List Copy := []

def copiesIn (queue : String) (cs : List Copy) : List Copy := cs.filter (·.queue = queue)

@[simp] theorem copiesIn_append (queue : String) (cs ds : List Copy) :
    copiesIn queue (cs ++ ds) = copiesIn queue cs ++ copiesIn queue ds := List.filter_append ..

theorem copiesIn_of_forall {queue : String} {cs : List Copy} (h : ∀ c ∈ cs, c.queue = queue) :
    copiesIn queue cs = cs :=
  List.filter_eq_self.mpr fun c hc => decide_eq_true (h c hc)

theorem copiesIn_of_ne {queue other : String} {cs : List Copy} (h : ∀ c ∈ cs, c.queue = other)
    (hne : queue ≠ other) : copiesIn queue cs = [] :=
  List.filter_eq_nil_iff.mpr fun c hc => by simp [h c hc, Ne.symm hne]

theorem copiesIn_filter {queue : String} {os : List (Nat × Copy)} (h : copiesIn queue (os.map (·.2)) = [])
    (p : Nat × Copy → Bool) : copiesIn queue ((os.filter p).map (·.2)) = [] :=
  List.sublist_nil.mp (h ▸ (List.filter_sublist.map _).filter _)

/-- The copies that a message becomes, numbered from `n` on. -/
def copiesFrom (n : Nat) (m : Message) : List String → List Copy
  | [] => []
  | q :: queues => ⟨n, q, m⟩ :: copiesFrom (n + 1) m queues

namespace Ledger

def follow (l : Ledger) : Movement → Ledger
  | .still => l
  | .routed queues m =>
    let new := copiesFrom l.routed.length m queues
    { l with routed := l.routed ++ new, ready := fun q => l.ready q ++ copiesIn q new }
  | .handedOut tag queue =>
    match l.ready queue with
    | [] => l
    | c :: rest => { l with
        ready := Function.update l.ready queue rest
        outstanding := l.outstanding ++ [(tag, c)]
        issued := l.issued ++ [(tag, c)] }
  | .acknowledged tag => { l with
      outstanding := l.outstanding.filter (·.1 ≠ tag)
      acknowledged := l.acknowledged ++ l.outstanding.filter (·.1 = tag) }
  | .requeued => { l with
      ready := fun q => copiesIn q (l.outstanding.map (·.2)) ++ l.ready q
      outstanding := [] }
  | .taken queue => { l with
      ready := Function.update l.ready queue []
      taken := l.taken ++ l.ready queue }

def stock (l : Ledger) : Stock where
  ready q := (l.ready q).map (·.message)
  outstanding := l.outstanding.map fun p => ⟨p.1, p.2.queue, p.2.message⟩

/-- The copies of a queue that may still be delivered: those outstanding, by
their tags, and those ready. -/
def line (l : Ledger) (queue : String) : List Copy :=
  copiesIn queue (l.outstanding.map (·.2)) ++ l.ready queue

end Ledger

theorem copiesIn_copiesFrom (n : Nat) (m : Message) {queues : List String} (hn : queues.Nodup)
    (queue : String) :
    (copiesIn queue (copiesFrom n m queues)).map (·.message) = if queue ∈ queues then [m] else [] := by
  induction queues generalizing n with
  | nil => rfl
  | cons q queues ih =>
    obtain ⟨hq, hn⟩ := List.nodup_cons.mp hn
    have hh := ih (n + 1) hn
    by_cases he : queue = q
    · subst he
      rw [if_neg hq] at hh
      rw [copiesFrom, copiesIn, List.filter_cons_of_pos (by simp), ← copiesIn, List.map_cons, hh]
      simp
    · rw [copiesFrom, copiesIn, List.filter_cons_of_neg (by simpa using Ne.symm he), ← copiesIn, hh]
      simp [he]

theorem copiesFrom_numbers (n : Nat) (m : Message) (queues : List String) :
    (copiesFrom n m queues).map (·.number) = List.range' n (copiesFrom n m queues).length := by
  induction queues generalizing n with
  | nil => rfl
  | cons q queues ih => simp [copiesFrom, List.range'_succ, ih (n + 1)]

/-- The ledger agrees with the broker about every movement. -/
theorem Ledger.follow_stock (l : Ledger) {mov : Movement}
    (hn : ∀ queues m, mov = .routed queues m → queues.Nodup)
    (hr : ∀ tag queue, mov = .handedOut tag queue → ∀ c ∈ l.ready queue, c.queue = queue) :
    (l.follow mov).stock = mov.apply l.stock := by
  cases mov with
  | still => rfl
  | routed queues m =>
    simp only [follow, stock, Movement.apply, Stock.mk.injEq, and_true, List.map_append]
    funext q
    rw [copiesIn_copiesFrom _ _ (hn queues m rfl)]
  | handedOut tag queue =>
    cases h : l.ready queue with
    | nil => simp [follow, stock, Movement.apply, h]
    | cons c rest =>
      have hc := hr tag queue rfl c (by simp [h])
      simp only [follow, stock, Movement.apply, h, List.map_cons, List.map_append, List.map_nil,
        Stock.mk.injEq, hc, and_true]
      funext q
      by_cases hq : q = queue
      · subst hq
        simp
      · simp [hq]
  | acknowledged tag =>
    simp [follow, stock, Movement.apply, List.filter_map, Function.comp_def]
  | requeued =>
    simp only [follow, stock, Movement.apply, Stock.mk.injEq, List.map_nil, and_true]
    funext q
    simp [copiesIn, List.filter_map, Function.comp_def]
  | taken queue =>
    simp only [follow, stock, Movement.apply, Stock.mk.injEq, and_true]
    funext q
    by_cases hq : q = queue
    · subst hq
      simp
    · simp [hq]

namespace Ledger

/-- Copies are numbered as they were routed, and each of them is ready, outstanding,
acknowledged or taken. Within a queue they keep their order. Tags are given out
in ascending order, and none above `lastTag`. -/
structure Valid (l : Ledger) (lastTag : Nat) : Prop where
  numbered : l.routed.map (·.number) = List.range l.routed.length
  home : ∀ q, ∀ c ∈ l.ready q, c.queue = q
  conserved : ∀ q, (copiesIn q l.routed : Multiset Copy) =
    l.line q + copiesIn q (l.acknowledged.map (·.2)) + copiesIn q l.taken
  ordered : ∀ q, ((l.line q).map (·.number)).Pairwise (· < ·)
  ascending : (l.issued.map (·.1)).Pairwise (· < ·)
  bounded : ∀ p ∈ l.issued, p.1 ≤ lastTag
  outstandingIssued : l.outstanding.Sublist l.issued
  acknowledgedIssued : l.acknowledged ⊆ l.issued
  issuedRouted : ∀ p ∈ l.issued, p.2 ∈ l.routed

theorem valid_empty : Valid {} 0 where
  numbered := rfl
  home := by simp
  conserved := by simp [line, copiesIn]
  ordered := by simp [line, copiesIn]
  ascending := List.Pairwise.nil
  bounded := by simp
  outstandingIssued := List.Sublist.refl _
  acknowledgedIssued := List.Subset.refl _
  issuedRouted := by simp

variable {l : Ledger} {lastTag : Nat}

theorem Valid.number_lt (h : l.Valid lastTag) {c : Copy} (hc : c ∈ l.routed) :
    c.number < l.routed.length := by
  have hm : c.number ∈ l.routed.map (·.number) := List.mem_map.mpr ⟨c, hc, rfl⟩
  rw [h.numbered] at hm
  exact List.mem_range.mp hm

theorem Valid.numbers_nodup (h : l.Valid lastTag) : (l.routed.map (·.number)).Nodup := by
  rw [h.numbered]
  exact List.nodup_range

theorem Valid.routed_ascending (h : l.Valid lastTag) : l.routed.Pairwise fun c d => c.number < d.number := by
  have hnumbers : (l.routed.map (·.number)).Pairwise (· < ·) := by
    rw [h.numbered]
    exact List.pairwise_lt_range
  exact List.pairwise_map.mp hnumbers

theorem Valid.eq_of_number (h : l.Valid lastTag) {c d : Copy} (hc : c ∈ l.routed)
    (hd : d ∈ l.routed) (he : c.number = d.number) : c = d :=
  List.inj_on_of_nodup_map h.numbers_nodup hc hd he

theorem Valid.eq_of_tag (h : l.Valid lastTag) {tag : Nat} {c d : Copy} (hc : (tag, c) ∈ l.issued)
    (hd : (tag, d) ∈ l.issued) : c = d := by
  have hn : (l.issued.map (·.1)).Nodup := h.ascending.imp (fun hh => Nat.ne_of_lt hh)
  exact congrArg Prod.snd (List.inj_on_of_nodup_map hn hc hd rfl)

theorem Valid.mem_routed_of_line (h : l.Valid lastTag) {q : String} {c : Copy}
    (hc : c ∈ l.line q) : c ∈ l.routed := by
  have hm : c ∈ (copiesIn q l.routed : Multiset Copy) := by
    rw [h.conserved q]
    exact Multiset.mem_add.mpr (.inl (Multiset.mem_add.mpr (.inl hc)))
  exact List.mem_of_mem_filter (Multiset.mem_coe.mp hm)

/-- No copy is acknowledged twice, however often it was handed out. -/
theorem Valid.acknowledged_nodup (h : l.Valid lastTag) : (l.acknowledged.map (·.2)).Nodup := by
  rw [List.nodup_iff_sublist]
  intro c hc
  have hin : [c, c].Sublist (copiesIn c.queue (l.acknowledged.map (·.2))) := by
    simpa [copiesIn] using hc.filter (fun d => decide (d.queue = c.queue))
  -- conservation bounds the copies that are acknowledged by those that were routed, all different
  have hle : (copiesIn c.queue (l.acknowledged.map (·.2)) : Multiset Copy) ≤ copiesIn c.queue l.routed := by
    rw [h.conserved c.queue, add_right_comm]
    exact Multiset.le_add_left _ _
  have hn : (copiesIn c.queue l.routed).Nodup := (h.numbers_nodup.of_map _).filter _
  have hnin : (copiesIn c.queue (l.acknowledged.map (·.2))).Nodup :=
    Multiset.coe_nodup.mp (Multiset.nodup_of_le hle (Multiset.coe_nodup.mpr hn))
  exact List.nodup_iff_sublist.mp hnin c hin

/-- The copies of a queue that were handed out under one of the tags, in the
order in which they were routed. -/
def under (l : Ledger) (queue : String) (tags : List Nat) : List Copy :=
  (copiesIn queue l.routed).filter fun c =>
    l.issued.any fun p => p.2.number = c.number && tags.contains p.1

/-- Copies that are in the order of their numbers are listed as they were routed. -/
theorem Valid.under_eq (h : l.Valid lastTag) {queue : String} {ps : List (Nat × Copy)}
    (hi : ps ⊆ l.issued) (hq : ∀ p ∈ ps, p.2.queue = queue)
    (ho : ((ps.map (·.2)).map (·.number)).Pairwise (· < ·)) :
    l.under queue (ps.map (·.1)) = ps.map (·.2) := by
  have hunder : (l.under queue (ps.map (·.1))).Pairwise fun a b => a.number < b.number :=
    h.routed_ascending.sublist (List.filter_sublist.trans List.filter_sublist)
  have hcopies : (ps.map (·.2)).Pairwise fun a b => a.number < b.number := List.pairwise_map.mp ho
  have hnodup : ∀ {cs : List Copy}, cs.Pairwise (fun a b => a.number < b.number) → cs.Nodup := by
    intro cs hp
    refine List.Pairwise.imp ?_ hp
    intro a b hlt he
    exact Nat.ne_of_lt hlt (congrArg Copy.number he)
  refine List.Perm.eq_of_pairwise (fun _ _ _ _ hab hba => absurd hab (Nat.lt_asymm hba)) hunder hcopies
    ((List.perm_ext_iff_of_nodup (hnodup hunder) (hnodup hcopies)).mpr fun c => ?_)
  simp only [under, copiesIn, List.mem_filter, List.any_eq_true, Bool.and_eq_true, decide_eq_true_eq,
    List.contains_eq_mem, List.mem_map]
  constructor
  · rintro ⟨⟨hc, _⟩, p, hp, hn, p', hp', ht⟩
    have hsame : p.2 = c := h.eq_of_number (h.issuedRouted p hp) hc hn
    have htag : p'.2 = p.2 := h.eq_of_tag (hi hp') (by rw [ht]; exact hp)
    exact ⟨p', hp', htag.trans hsame⟩
  · rintro ⟨p, hp, rfl⟩
    exact ⟨⟨h.issuedRouted p (hi hp), hq p hp⟩, p, hi hp, rfl, p, hp, rfl⟩

theorem line_routed (l : Ledger) (queues : List String) (m : Message) (q : String) :
    (l.follow (.routed queues m)).line q =
      l.line q ++ copiesIn q (copiesFrom l.routed.length m queues) := by
  simp [follow, line]

theorem line_handedOut (h : l.Valid lastTag) (tag : Nat) (queue q : String) :
    (l.follow (.handedOut tag queue)).line q = l.line q := by
  cases hr : l.ready queue with
  | nil => simp [follow, hr]
  | cons c rest =>
    have hc : c.queue = queue := h.home queue c (by simp [hr])
    by_cases hq : q = queue
    · subst hq
      simp [follow, line, hr, copiesIn, hc]
    · simp [follow, line, hr, copiesIn, hc, hq, Ne.symm hq]

theorem line_requeued (l : Ledger) (q : String) : (l.follow .requeued).line q = l.line q := by
  simp [follow, line, copiesIn]

theorem line_acknowledged (l : Ledger) (tag : Nat) (q : String) :
    (l.line q : Multiset Copy) = (l.follow (.acknowledged tag)).line q +
      copiesIn q ((l.outstanding.filter (·.1 = tag)).map (·.2)) := by
  have hp := List.filter_append_perm (fun p : Nat × Copy => decide (p.1 ≠ tag)) l.outstanding
  have hh := ((hp.map (·.2)).filter (fun c => decide (c.queue = q)))
  have he := Multiset.coe_eq_coe.mpr hh
  simp only [List.map_append, List.filter_append, ← Multiset.coe_add] at he
  simp only [follow, line, ← Multiset.coe_add, copiesIn, ← he]
  simp only [decide_not, Bool.not_not]
  exact add_right_comm _ _ _

/-- New copies come after all that were routed before. -/
theorem Valid.ordered_append (h : l.Valid lastTag) (queues : List String) (m : Message) (q : String)
    {cs : List Copy} (ho : (cs.map (·.number)).Pairwise (· < ·)) (hr : ∀ c ∈ cs, c ∈ l.routed) :
    ((cs ++ copiesIn q (copiesFrom l.routed.length m queues)).map (·.number)).Pairwise (· < ·) := by
  rw [List.map_append, List.pairwise_append]
  have hnew : ((copiesIn q (copiesFrom l.routed.length m queues)).map (·.number)).Sublist
      (List.range' l.routed.length (copiesFrom l.routed.length m queues).length) := by
    rw [← copiesFrom_numbers]
    exact List.filter_sublist.map _
  refine ⟨ho, List.Pairwise.sublist hnew List.pairwise_lt_range', ?_⟩
  intro a ha b hb
  obtain ⟨c, hc, rfl⟩ := List.mem_map.mp ha
  have hlt := h.number_lt (hr c hc)
  have hle := (List.mem_range'_1.mp (hnew.subset hb)).1
  omega

theorem Valid.routed (h : l.Valid lastTag) (queues : List String) (m : Message) :
    (l.follow (.routed queues m)).Valid lastTag where
  numbered := by
    simp only [follow, List.map_append, List.length_append, copiesFrom_numbers, h.numbered]
    rw [List.range_eq_range', List.range_eq_range']
    simpa using List.range'_append_1 (s := 0)
  home q c hc := by
    rcases List.mem_append.mp hc with hc | hc
    · exact h.home q c hc
    · exact of_decide_eq_true (List.mem_filter.mp hc).2
  conserved q := by
    rw [line_routed]
    simp only [follow, copiesIn_append, ← Multiset.coe_add, h.conserved q]
    rw [add_right_comm, add_right_comm (l.line q : Multiset Copy)]
  ordered q := by
    rw [line_routed]
    exact h.ordered_append queues m q (h.ordered q) fun c hc => h.mem_routed_of_line hc
  ascending := h.ascending
  bounded := h.bounded
  outstandingIssued := h.outstandingIssued
  acknowledgedIssued := h.acknowledgedIssued
  issuedRouted p hp := List.mem_append_left _ (h.issuedRouted p hp)

theorem Valid.handedOut (h : l.Valid lastTag) (queue : String) :
    (l.follow (.handedOut (lastTag + 1) queue)).Valid (lastTag + 1) := by
  have hline := line_handedOut h (lastTag + 1) queue
  have hle : ∀ p ∈ l.issued, p.1 ≤ lastTag + 1 := fun p hp => Nat.le_succ_of_le (h.bounded p hp)
  cases hr : l.ready queue with
  | nil =>
    simp only [follow, hr]
    exact { h with bounded := hle }
  | cons c rest =>
    have hc : c ∈ l.routed := h.mem_routed_of_line
      (List.mem_append_right _ (by simp [hr] : c ∈ l.ready queue))
    simp only [follow, hr] at hline ⊢
    exact {
      numbered := h.numbered
      home := by
        intro q d hd
        by_cases hq : q = queue
        · subst hq
          change d ∈ Function.update l.ready q rest q at hd
          rw [Function.update_self] at hd
          exact h.home q d (by simp [hr, hd])
        · change d ∈ Function.update l.ready queue rest q at hd
          rw [Function.update_of_ne hq] at hd
          exact h.home q d hd
      conserved := fun q => by rw [hline q]; exact h.conserved q
      ordered := fun q => by rw [hline q]; exact h.ordered q
      ascending := by
        simp only [List.map_append, List.map_cons, List.map_nil, List.pairwise_append]
        refine ⟨h.ascending, List.pairwise_singleton _ _, ?_⟩
        intro a ha b hb
        obtain ⟨p, hp, rfl⟩ := List.mem_map.mp ha
        have hb' : b = lastTag + 1 := List.mem_singleton.mp hb
        have hp' := h.bounded p hp
        omega
      bounded := by
        intro p hp
        rcases List.mem_append.mp hp with hp | hp
        · exact hle p hp
        · rw [List.mem_singleton.mp hp]
      outstandingIssued := h.outstandingIssued.append (List.Sublist.refl _)
      acknowledgedIssued := List.Subset.trans h.acknowledgedIssued (List.subset_append_left _ _)
      issuedRouted := by
        intro p hp
        rcases List.mem_append.mp hp with hp | hp
        · exact h.issuedRouted p hp
        · rw [List.mem_singleton.mp hp]
          exact hc }

theorem Valid.acknowledged (h : l.Valid lastTag) (tag : Nat) :
    (l.follow (.acknowledged tag)).Valid lastTag where
  numbered := h.numbered
  home := h.home
  conserved q := by
    have hc := h.conserved q
    rw [line_acknowledged l tag q] at hc
    simp only [follow, List.map_append, copiesIn_append, ← Multiset.coe_add] at hc ⊢
    rw [hc, ← add_assoc, add_right_comm (Multiset.ofList (Ledger.line _ q))]
  ordered q := by
    refine (h.ordered q).sublist (List.Sublist.map _ ?_)
    exact ((List.filter_sublist.map _).filter _).append (List.Sublist.refl _)
  ascending := h.ascending
  bounded := h.bounded
  outstandingIssued := List.filter_sublist.trans h.outstandingIssued
  acknowledgedIssued := List.append_subset.mpr
    ⟨h.acknowledgedIssued, (List.filter_sublist.trans h.outstandingIssued).subset⟩
  issuedRouted := h.issuedRouted

theorem Valid.requeued (h : l.Valid lastTag) : (l.follow .requeued).Valid lastTag where
  numbered := h.numbered
  home q c hc := by
    rcases List.mem_append.mp hc with hc | hc
    · exact of_decide_eq_true (List.mem_filter.mp hc).2
    · exact h.home q c hc
  conserved q := by rw [line_requeued]; exact h.conserved q
  ordered q := by rw [line_requeued]; exact h.ordered q
  ascending := h.ascending
  bounded := h.bounded
  outstandingIssued := List.nil_sublist _
  acknowledgedIssued := h.acknowledgedIssued
  issuedRouted := h.issuedRouted

theorem Valid.taken (h : l.Valid lastTag) (queue : String) :
    (l.follow (.taken queue)).Valid lastTag where
  numbered := h.numbered
  home q c hc := by
    by_cases hq : q = queue
    · subst hq
      simp [follow] at hc
    · exact h.home q c (by simpa [follow, hq] using hc)
  conserved q := by
    have hc := h.conserved q
    by_cases hq : q = queue
    · subst hq
      have hhome := copiesIn_of_forall (h.home q)
      simp only [follow, line, Function.update_self, List.append_nil, copiesIn_append, hhome,
        ← Multiset.coe_add] at hc ⊢
      rw [hc, add_right_comm _ (Multiset.ofList (l.ready q)), add_right_comm _ (Multiset.ofList (l.ready q)),
        add_assoc _ (Multiset.ofList (copiesIn q l.taken))]
    · have hother := copiesIn_of_ne (h.home queue) hq
      simpa [follow, line, hq, hother] using hc
  ordered q := by
    refine (h.ordered q).sublist (List.Sublist.map _ ?_)
    by_cases hq : q = queue
    · subst hq
      simp [follow, line]
    · simp [follow, line, hq]
  ascending := h.ascending
  bounded := h.bounded
  outstandingIssued := h.outstandingIssued
  acknowledgedIssued := h.acknowledgedIssued
  issuedRouted := h.issuedRouted

end Ledger

end AlertRelay
