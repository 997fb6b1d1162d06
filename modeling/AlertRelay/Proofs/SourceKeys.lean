import AlertRelay.Proofs.RepeatedHash
import AlertRelay.Proofs.Routing
import AlertRelay.Proofs.Topology

/-! The keys of a source in the binding of its relay. A source is any text, with empty
words and wildcards in it, and it stands in the binding key and in both routing keys
as it is. -/

namespace AlertRelay

open Regex

section Words

variable {t : List Char} {ps : List (List Char)}

theorem words_append_dot {w : List Char} (hw : '.' ∉ w) (t : List Char) : words (w ++ '.' :: t) = w :: words t := by
  induction w with
  | nil => exact if_pos rfl
  | cons c w ih =>
    have hc : c ≠ '.' := (List.ne_of_not_mem_cons hw).symm
    rw [List.cons_append, words, if_neg hc, ih (List.not_mem_of_not_mem_cons hw)]

theorem words_ne_nil (t : List Char) : words t ≠ [] := by
  rw [words_eq_splitOn]
  exact List.splitOn_ne_nil _ _

theorem intercalate_words (t : List Char) : ['.'].intercalate (words t) = t := by
  rw [words_eq_splitOn, List.intercalate_splitOn]

theorem dot_cons_eq_dotted_words (t : List Char) : '.' :: t = dotted (words t) := by
  have h := intercalate_cons [] (words t)
  rwa [List.intercalate_cons_of_ne_nil (words_ne_nil t), intercalate_words] at h

/-- A later word takes itself, also one that is a wildcard. -/
theorem laterWord_matches_itself (p : List Char) : (laterWord p).Matches ('.' :: p) := by
  unfold laterWord
  split
  · next hp =>
    have hplain : Plain p := hp ▸ ⟨by decide, by decide⟩
    exact matches_laterHash_iff.mpr ⟨[p], List.forall_mem_singleton.mpr hplain, by simp [dotted]⟩
  · refine matches_exactly_cat_iff.mpr ⟨p, ?_, rfl⟩
    unfold wordRegex
    split
    · next hp =>
      exact matches_anyWord_iff.mpr (hp ▸ ⟨by decide, by decide⟩)
    · exact matches_literal_iff.mpr rfl

theorem later_matches_itself (ps : List (List Char)) : (sequence (ps.map laterWord)).Matches (dotted ps) := by
  induction ps with
  | nil => exact .empty
  | cons p ps ih => exact .cat (laterWord_matches_itself p) ih

/-- Words that are no wildcards take nothing but themselves. -/
theorem matches_later_literal_iff (hps : ∀ p ∈ ps, p ≠ ['*'] ∧ p ≠ ['#']) :
    (sequence (ps.map laterWord)).Matches t ↔ t = dotted ps := by
  refine ⟨fun h => ?_, fun h => h ▸ later_matches_itself ps⟩
  induction ps generalizing t with
  | nil => exact matches_empty_iff.mp h
  | cons p ps ih =>
    obtain ⟨⟨hstar, hhash⟩, hrest⟩ := List.forall_mem_cons.mp hps
    obtain ⟨u, v, rfl, hu, hv⟩ := matches_cat_iff.mp h
    rw [laterWord, if_neg hhash, wordRegex, if_neg hstar] at hu
    obtain ⟨k, hk, rfl⟩ := matches_exactly_cat_iff.mp hu
    rw [matches_literal_iff.mp hk, ih hrest hv]
    rfl

end Words

namespace Settings

variable {s : Settings} {key : String}

theorem words_inboundKey (s : Settings) :
    words s.inboundKey.toList = "alerter".toList :: words s.source.toList := by
  rw [inboundKey, String.toList_append]
  exact words_append_dot (w := "alerter".toList) (by decide) s.source.toList

theorem words_outboundKey (s : Settings) :
    words s.outboundKey.toList = "alert_router".toList :: words s.source.toList := by
  rw [outboundKey, String.toList_append]
  exact words_append_dot (w := "alert_router".toList) (by decide) s.source.toList

/-- The binding key takes its first word as it is, and the words of the source take
what comes after it. -/
theorem inboundKey_accepts_iff : topicAccepts s.inboundKey key = true ↔ ∃ rest,
    key.toList = "alerter".toList ++ rest ∧
      (sequence ((words s.source.toList).map laterWord)).Matches rest := by
  have hfirst : wordRegex "alerter".toList = literal "alerter".toList := if_neg (by decide)
  rw [topicAccepts_iff_matches, words_inboundKey, patternRegex_words (by decide) (words_ne_nil _), hfirst, matches_cat_iff]
  constructor
  · rintro ⟨u, rest, hkey, hu, hrest⟩
    rw [matches_literal_iff.mp hu] at hkey
    exact ⟨rest, hkey, hrest⟩
  · rintro ⟨rest, hkey, hrest⟩
    exact ⟨_, rest, hkey, matches_literal_iff.mpr rfl, hrest⟩

theorem inboundKey_toList (s : Settings) :
    s.inboundKey.toList = "alerter".toList ++ dotted (words s.source.toList) := by
  rw [inboundKey, String.toList_append, ← dot_cons_eq_dotted_words]
  rfl

theorem inboundKey_accepts_itself (s : Settings) : topicAccepts s.inboundKey s.inboundKey = true :=
  inboundKey_accepts_iff.mpr ⟨_, s.inboundKey_toList, later_matches_itself _⟩

/-- The first words differ in their sixth character. -/
theorem inboundKey_rejects (h : (words key.toList).head? = some "alert_router".toList) :
    topicAccepts s.inboundKey key = false := by
  rw [Bool.eq_false_iff]
  intro haccepts
  obtain ⟨rest, hkey, -⟩ := inboundKey_accepts_iff.mp haccepts
  obtain ⟨ws, hws⟩ := List.head?_eq_some_iff.mp h
  have htext := intercalate_words key.toList
  rw [hws, intercalate_cons, hkey] at htext
  simp at htext

theorem inboundKey_accepts_literal_iff (h : ∀ w ∈ words s.source.toList, w ≠ ['*'] ∧ w ≠ ['#']) :
    topicAccepts s.inboundKey key = true ↔ key = s.inboundKey := by
  rw [inboundKey_accepts_iff]
  constructor
  · rintro ⟨rest, hkey, hrest⟩
    rw [matches_later_literal_iff h] at hrest
    rw [← String.toList_inj, hkey, hrest, inboundKey_toList]
  · rintro rfl
    exact ⟨_, s.inboundKey_toList, later_matches_itself _⟩

end Settings

namespace Broker

variable {b : Broker} {exchange key : String} {x : Binding}

/-- A binding that does not accept a key plays no part in where messages with it go. -/
theorem reached_without (he : b.exchanges.get? exchange = some .topic) (h : topicAccepts x.key key = false) :
    ({ b with bindings := b.bindings.filter (· ≠ x) } : Broker).reached exchange key = b.reached exchange key := by
  simp only [reached, he, targets, List.filter_filter]
  refine congrArg (fun xs => (xs.map Binding.queue).eraseDups) (List.filter_congr fun y _ => ?_)
  by_cases hy : y = x
  · simp [hy, ExchangeKind.accepts, h]
  · simp [hy]

end Broker

/-- Whatever the source of a relay is: the key of its binding accepts the key of its
own messages, no key whose first word is that of published alerts, and no other key
at all if there is no wildcard in the source. So a broker with the binding of the relay
brings to its queue the messages that are for it, and no alert that it publishes
reaches any queue through that binding. -/
theorem Settings.binding_takes_own_messages (s : Settings) (rule : Rule) :
    let binding := (Pipeline.ofSettings s rule).binding
    topicAccepts s.inboundKey s.inboundKey = true ∧
    (∀ key, (words key.toList).head? = some "alert_router".toList → topicAccepts s.inboundKey key = false) ∧
    ((∀ w ∈ words s.source.toList, w ≠ ['*'] ∧ w ≠ ['#']) →
      ∀ key, topicAccepts s.inboundKey key = true ↔ key = s.inboundKey) ∧
    ∀ b : Broker, b.exchanges.get? s.exchange = some .topic → binding ∈ b.bindings →
      s.inboundQueue ∈ b.reached s.exchange s.inboundKey ∧
      ({ b with bindings := b.bindings.filter (· ≠ binding) } : Broker).reached s.exchange s.outboundKey =
        b.reached s.exchange s.outboundKey := by
  intro binding
  have hown := s.inboundKey_accepts_itself
  have hpublished : (words s.outboundKey.toList).head? = some "alert_router".toList := by
    rw [s.words_outboundKey, List.head?_cons]
  refine ⟨hown, fun key => inboundKey_rejects, fun h key => inboundKey_accepts_literal_iff h, ?_⟩
  intro b he hb
  exact ⟨(Broker.mem_reached_iff he _ _).mpr ⟨binding, hb, rfl, rfl, hown⟩,
    Broker.reached_without he (inboundKey_rejects hpublished)⟩

/-- A source with an empty word and a character that expressions use themselves, and a
broker whose queue is bound under a key that takes everything too. -/
theorem Settings.binding_takes_own_messages_dotted :
    let s : Settings := { source := "a..b+" }
    let binding := (Pipeline.ofSettings s .gitHub).binding
    let b : Broker := {
      exchanges := [("alert", .topic)], queues := [(s.inboundQueue, [])]
      bindings := [binding, ⟨s.inboundQueue, "alert", "#"⟩] }
    (words "alert_router.x".toList).head? = some "alert_router".toList ∧
      topicAccepts s.inboundKey "alert_router.x" = false ∧
    (∀ w ∈ words s.source.toList, w ≠ ['*'] ∧ w ≠ ['#']) ∧ topicAccepts s.inboundKey "alerter.a.x.bb" = false ∧
    b.exchanges.get? s.exchange = some .topic ∧ binding ∈ b.bindings ∧
    s.inboundQueue ∈ b.reached s.exchange s.inboundKey ∧
    ({ b with bindings := b.bindings.filter (· ≠ binding) } : Broker).reached s.exchange s.outboundKey =
      b.reached s.exchange s.outboundKey := by
  intro s binding b
  have hfirst : (words "alert_router.x".toList).head? = some "alert_router".toList := by decide
  have hplain : ∀ w ∈ words s.source.toList, w ≠ ['*'] ∧ w ≠ ['#'] := by decide
  have hexchange : b.exchanges.get? s.exchange = some .topic := by decide
  have hbinding : binding ∈ b.bindings := List.mem_cons_self
  obtain ⟨_, hrejects, honly, hbroker⟩ := binding_takes_own_messages s .gitHub
  have hother : topicAccepts s.inboundKey "alerter.a.x.bb" = false := by
    rw [Bool.eq_false_iff, ne_eq, honly hplain]
    decide
  obtain ⟨hreached, hwithout⟩ := hbroker b hexchange hbinding
  exact ⟨hfirst, hrejects _ hfirst, hplain, hother, hexchange, hbinding, hreached, hwithout⟩

end AlertRelay
