import RaftLog.Lib.Quorum

set_option autoImplicit false

namespace RaftLog.Lib

-- The logs of the leaders of a replicated log, term by term: what a leader started
-- from, what it has by now, and what the members have stored of it. A member's
-- current term bounds the votes it has given.
structure Ledgers (Member Entry : Type) where
  won : Nat → Prop
  base : Nat → List Entry
  ledger : Nat → List Entry
  holds : Member → Nat → Nat → Prop
  current : Member → Nat

variable {Member Entry : Type} (term : Entry → Nat)

def endTerm (log : List Entry) : Nat := (log.getLast?.map term).getD 0

-- A leader appends entries of its own term to what it started from, and every older
-- entry stands in the ledger of its term behind the very same entries.
structure Coherent (ledgers : Ledgers Member Entry) : Prop where
  unwon : ∀ leading, ¬ ledgers.won leading → ledgers.ledger leading = []
  based : ∀ leading, ledgers.base leading <+: ledgers.ledger leading
  own : ∀ leading index entry, (ledgers.ledger leading)[index]? = some entry →
    (ledgers.base leading).length ≤ index → term entry = leading
  copied : ∀ leading index entry, (ledgers.ledger leading)[index]? = some entry →
    term entry ≤ leading ∧ ledgers.won (term entry) ∧ (ledgers.base (term entry)).length ≤ index ∧
      (ledgers.ledger leading).take (index + 1) <+: ledgers.ledger (term entry)

-- A log that was taken from the leader of term `source`, or is still empty.
structure Sourced (ledgers : Ledgers Member Entry) (source : Nat) (log : List Entry) : Prop where
  based : ledgers.base source <+: log
  within : log <+: ledgers.ledger source
  led : source = 0 ∨ ledgers.won source

def UpToDate (candidate log : List Entry) : Prop :=
  endTerm term log < endTerm term candidate ∨
    endTerm term log = endTerm term candidate ∧ log.length ≤ candidate.length

-- What a member's vote for a candidate of a term says about the log it had then.
structure Vouched (ledgers : Ledgers Member Entry) (member : Member) (standing source : Nat)
    (log candidate : List Entry) : Prop where
  voted : standing ≤ ledgers.current member
  sourced : Sourced ledgers source log
  upToDate : UpToDate term candidate log
  held : ∀ leading < standing, ∀ count, ledgers.holds member leading count →
    leading ≤ source ∧ (leading = source → count ≤ log.length)

structure Elected (members : Finset Member) (ledgers : Ledgers Member Entry) (leading : Nat) : Prop where
  sourced : ∃ source, source < leading ∧ Sourced ledgers source (ledgers.base leading)
  quorum : ∃ quorum, Majority members quorum ∧ ∀ member ∈ quorum, ∃ source log,
    (source < leading ∨ source = 0) ∧ Vouched term ledgers member leading source log (ledgers.base leading)

-- The first `count` entries of a ledger are chosen when a majority has stored them,
-- the last of them being the leader's own.
structure Chosen (members : Finset Member) (ledgers : Ledgers Member Entry) (leading count : Nat) : Prop where
  won : ledgers.won leading
  own : (ledgers.base leading).length < count
  reached : count ≤ (ledgers.ledger leading).length
  quorum : ∃ quorum, Majority members quorum ∧ ∀ member ∈ quorum, ledgers.holds member leading count

-- The first `commit` entries of the log are chosen, in a term up to `bound`.
def Committed (members : Finset Member) (ledgers : Ledgers Member Entry) (bound : Nat) (log : List Entry)
    (commit : Nat) : Prop :=
  commit = 0 ∨ ∃ leading count, leading ≤ bound ∧ Chosen members ledgers leading count ∧ commit ≤ count ∧
    commit ≤ log.length ∧ log.take commit <+: ledgers.ledger leading

theorem end_term_last (log : List Entry) (filled : 0 < log.length) :
    ∃ entry, log[log.length - 1]? = some entry ∧ endTerm term log = term entry := by
  have last := List.getElem?_eq_getElem (l := log) (i := log.length - 1) (by omega)
  exact ⟨_, last, by rw [endTerm, List.getLast?_eq_getElem?, last]; rfl⟩

theorem prefix_get (short long : List Entry) (index : Nat) (entry : Entry) (within : short <+: long)
    (found : short[index]? = some entry) : long[index]? = some entry := by
  obtain ⟨rest, rfl⟩ := within
  rw [List.getElem?_append_left (List.getElem?_eq_some_iff.mp found).1]
  exact found

theorem take_prefix_of_le (short long : List Entry) (count : Nat) (within : short <+: long)
    (enough : count ≤ short.length) : long.take count <+: short := by
  obtain ⟨rest, rfl⟩ := within
  rw [List.take_append_of_le_length enough]
  exact List.take_prefix _ _

section Coherent

variable (ledgers : Ledgers Member Entry) (coherent : Coherent term ledgers)

include coherent

theorem terms_ascend (leading first second : Nat) (earlier later : Entry) (order : first ≤ second)
    (found : (ledgers.ledger leading)[first]? = some earlier)
    (next : (ledgers.ledger leading)[second]? = some later) : term earlier ≤ term later := by
  obtain ⟨_, _, _, shared⟩ := coherent.copied leading second later next
  have copied : (ledgers.ledger (term later))[first]? = some earlier :=
    prefix_get _ _ first earlier shared (by rw [List.getElem?_take_of_lt (by omega)]; exact found)
  exact (coherent.copied _ _ _ copied).1

-- Two ledgers that hold entries of one term at one place agree up to that place.
theorem ledgers_match (left right index : Nat) (leftEntry rightEntry : Entry)
    (leftFound : (ledgers.ledger left)[index]? = some leftEntry)
    (rightFound : (ledgers.ledger right)[index]? = some rightEntry) (same : term leftEntry = term rightEntry) :
    (ledgers.ledger left).take (index + 1) = (ledgers.ledger right).take (index + 1) := by
  obtain ⟨_, _, _, leftShared⟩ := coherent.copied left index leftEntry leftFound
  obtain ⟨_, _, _, rightShared⟩ := coherent.copied right index rightEntry rightFound
  rw [same] at leftShared
  have leftLong := (List.getElem?_eq_some_iff.mp leftFound).1
  have rightLong := (List.getElem?_eq_some_iff.mp rightFound).1
  refine (List.prefix_of_prefix_length_le leftShared rightShared ?_).eq_of_length ?_
  · rw [List.length_take, List.length_take]
    omega
  · rw [List.length_take, List.length_take]
    omega

-- Two logs from leaders that are equally long and end in one term are the same log.
theorem sourced_match (left right : Nat) (log other : List Entry) (leftWithin : log <+: ledgers.ledger left)
    (rightWithin : other <+: ledgers.ledger right) (length : log.length = other.length)
    (ends : endTerm term log = endTerm term other) : log = other := by
  rcases Nat.eq_zero_or_pos log.length with empty | filled
  · have otherEmpty : other.length = 0 := length.symm.trans empty
    rw [List.eq_nil_of_length_eq_zero empty, List.eq_nil_of_length_eq_zero otherEmpty]
  obtain ⟨leftEntry, leftFound, leftEnds⟩ := end_term_last term log filled
  obtain ⟨rightEntry, rightFound, rightEnds⟩ := end_term_last term other (by omega)
  rw [← length] at rightFound
  have same := ledgers_match term ledgers coherent left right (log.length - 1) leftEntry rightEntry
    (prefix_get _ _ _ _ leftWithin leftFound) (prefix_get _ _ _ _ rightWithin rightFound)
    (leftEnds.symm.trans (ends.trans rightEnds))
  rw [Nat.sub_add_cancel filled] at same
  rw [List.prefix_iff_eq_take.mp leftWithin, List.prefix_iff_eq_take.mp rightWithin, ← length, same]

-- A log that holds an entry of a leader's own was not taken from an earlier leader.
theorem own_entry_source (source leading : Nat) (log : List Entry) (within : log <+: ledgers.ledger source)
    (led : log <+: ledgers.ledger leading) (own : (ledgers.base leading).length < log.length) : leading ≤ source := by
  have found := List.getElem?_eq_getElem (l := log) (i := log.length - 1) (by omega)
  rw [← coherent.own leading (log.length - 1) _ (prefix_get _ _ _ _ led found) (by omega)]
  exact (coherent.copied source (log.length - 1) _ (prefix_get _ _ _ _ within found)).1

-- A log that ends in an entry of a term starts with all that the term's leader started from.
theorem last_term_ledger (source : Nat) (log : List Entry) (filled : 0 < log.length)
    (within : log <+: ledgers.ledger source) :
    endTerm term log ≤ source ∧ ledgers.won (endTerm term log) ∧ ledgers.base (endTerm term log) <+: log ∧
      (ledgers.base (endTerm term log)).length < log.length ∧ log <+: ledgers.ledger (endTerm term log) := by
  obtain ⟨entry, last, ends⟩ := end_term_last term log filled
  obtain ⟨bound, won, based, shared⟩ :=
    coherent.copied source _ entry (prefix_get log _ _ entry within last)
  rw [← ends] at bound won based shared
  have whole : (ledgers.ledger source).take (log.length - 1 + 1) = log := by
    rw [Nat.sub_add_cancel filled]
    exact (List.prefix_iff_eq_take.mp within).symm
  rw [whole] at shared
  exact ⟨bound, won, List.prefix_of_prefix_length_le (coherent.based _) shared (by omega), by omega, shared⟩

-- A candidate at least as up to date as a log with the chosen entries has them too:
-- it ends in the same leader's entries and is no shorter, or in those of a later
-- leader, who started from them.
theorem up_to_date_keeps (leading count source standing : Nat) (log candidate : List Entry)
    (own : (ledgers.base leading).length < count) (reached : count ≤ (ledgers.ledger leading).length)
    (kept : (ledgers.ledger leading).take count <+: log) (logWithin : log <+: ledgers.ledger source)
    (within : candidate <+: ledgers.ledger standing) (upToDate : UpToDate term candidate log)
    (later : ∀ other, leading < other → other ≤ standing → ledgers.won other →
      (ledgers.ledger leading).take count <+: ledgers.base other) :
    (ledgers.ledger leading).take count <+: candidate := by
  have keptLength : count ≤ log.length := by
    have bound := kept.length_le
    rw [List.length_take] at bound
    omega
  have atLeast : leading ≤ endTerm term log := by
    obtain ⟨last, lastFound, ends⟩ := end_term_last term log (by omega)
    have found := List.getElem?_eq_getElem (l := ledgers.ledger leading) (i := count - 1) (by omega)
    have inLog := prefix_get _ log (count - 1) _ kept (by rw [List.getElem?_take_of_lt (by omega)]; exact found)
    rw [ends, ← coherent.own leading (count - 1) _ found (by omega)]
    exact terms_ascend term ledgers coherent source (count - 1) (log.length - 1) _ _ (by omega)
      (prefix_get _ _ _ _ logWithin inLog) (prefix_get _ _ _ _ logWithin lastFound)
  have filled : 0 < candidate.length := by
    by_contra empty
    have nil : candidate = [] := List.eq_nil_of_length_eq_zero (by omega)
    rcases upToDate with newer | ⟨_, longer⟩
    · simp [nil, endTerm] at newer
    · omega
  obtain ⟨bound, won, based, _, shared⟩ := last_term_ledger term ledgers coherent standing candidate filled within
  rcases upToDate with newer | ⟨same, longer⟩
  · exact (later _ (by omega) bound won).trans based
  · rcases Nat.eq_or_lt_of_le atLeast with equal | less
    · rw [← same, ← equal] at shared
      exact take_prefix_of_le _ _ count shared (by omega)
    · exact (later _ (by omega) bound won).trans based

variable [DecidableEq Member] (members : Finset Member)

-- Every later leader started from the chosen entries. The induction is on its term:
-- a member of both majorities had them when it voted.
theorem chosen_in_base (elected : ∀ leading, ledgers.won leading → Elected term members ledgers leading)
    (leading count : Nat) (chosen : Chosen members ledgers leading count) (other : Nat) (later : leading < other)
    (won : ledgers.won other) : (ledgers.ledger leading).take count <+: ledgers.base other := by
  induction other using Nat.strong_induction_on with
  | _ other ih =>
    obtain ⟨⟨started, before, sourced⟩, votes, voteMost, vouches⟩ := elected other won
    obtain ⟨stores, storeMost, stored⟩ := chosen.quorum
    obtain ⟨member, inStores, inVotes⟩ := majorities_meet members stores votes storeMost voteMost
    obtain ⟨source, log, old, vouched⟩ := vouches member inVotes
    obtain ⟨bound, reach⟩ := vouched.held leading later count (stored member inStores)
    have kept : (ledgers.ledger leading).take count <+: log := by
      rcases Nat.eq_or_lt_of_le bound with rfl | newer
      · exact take_prefix_of_le _ _ count vouched.sourced.within (reach rfl)
      · have led : ledgers.won source := vouched.sourced.led.resolve_left (by omega)
        exact (ih source (by omega) newer led).trans vouched.sourced.based
    exact up_to_date_keeps term ledgers coherent leading count source started log _ chosen.own chosen.reached kept
      vouched.sourced.within sourced.within vouched.upToDate fun between newer within led =>
        ih between (by omega) newer led

theorem committed_agree (elected : ∀ leading, ledgers.won leading → Elected term members ledgers leading)
    (leftBound rightBound leftCommit rightCommit count : Nat) (left right : List Entry)
    (leftDone : Committed members ledgers leftBound left leftCommit)
    (rightDone : Committed members ledgers rightBound right rightCommit) (inLeft : count ≤ leftCommit)
    (inRight : count ≤ rightCommit) : left.take count = right.take count := by
  rcases leftDone with rfl | ⟨first, firstCount, _, firstChosen, firstBound, firstLong, firstShared⟩
  · simp [Nat.le_zero.mp inLeft]
  rcases rightDone with rfl | ⟨second, secondCount, _, secondChosen, secondBound, secondLong, secondShared⟩
  · simp [Nat.le_zero.mp inRight]
  -- both logs agree with the ledger of the later of the two terms
  have agrees : ∀ (early late earlyCount : Nat) (log : List Entry) (commit : Nat), early ≤ late →
      Chosen members ledgers early earlyCount → ledgers.won late → commit ≤ earlyCount →
      log.take commit <+: ledgers.ledger early → log.take commit <+: ledgers.ledger late := by
    intro early late earlyCount log commit order chosen won bound shared
    rcases Nat.eq_or_lt_of_le order with rfl | less
    · exact shared
    · have based := chosen_in_base term ledgers coherent members elected early earlyCount chosen late less won
      have short : log.take commit <+: (ledgers.ledger early).take earlyCount :=
        List.prefix_take_iff.mpr ⟨shared, by rw [List.length_take]; omega⟩
      exact (short.trans based).trans (coherent.based late)
  have common : ∃ late, left.take leftCommit <+: ledgers.ledger late ∧ right.take rightCommit <+: ledgers.ledger late := by
    rcases Nat.le_total first second with order | order
    · exact ⟨second, agrees first second firstCount left leftCommit order firstChosen secondChosen.won firstBound firstShared,
        secondShared⟩
    · exact ⟨first, firstShared,
        agrees second first secondCount right rightCommit order secondChosen firstChosen.won secondBound secondShared⟩
  obtain ⟨late, leftShared, rightShared⟩ := common
  have leftTake : left.take count <+: ledgers.ledger late := (List.take_prefix_take_left inLeft).trans leftShared
  have rightTake : right.take count <+: ledgers.ledger late := (List.take_prefix_take_left inRight).trans rightShared
  refine (List.prefix_of_prefix_length_le leftTake rightTake ?_).eq_of_length ?_
  · rw [List.length_take, List.length_take]
    omega
  · rw [List.length_take, List.length_take]
    omega

end Coherent

-- What a step of the protocol may do to the ledgers: it adds to what was won, written
-- and stored, and a member stores only what is of its current term or a later one.
structure Grows (ledgers after : Ledgers Member Entry) : Prop where
  won : ∀ leading, ledgers.won leading → after.won leading
  base : ∀ leading, leading = 0 ∨ ledgers.won leading → after.base leading = ledgers.base leading
  ledger : ∀ leading, ledgers.ledger leading <+: after.ledger leading
  holds : ∀ member leading count, ledgers.holds member leading count → after.holds member leading count
  current : ∀ member, ledgers.current member ≤ after.current member
  fresh : ∀ member leading count, after.holds member leading count →
    ledgers.holds member leading count ∨ ledgers.current member ≤ leading

section Grows

variable (ledgers after : Ledgers Member Entry) (grows : Grows ledgers after)

include grows

theorem sourced_grows (source : Nat) (log : List Entry) (sourced : Sourced ledgers source log) :
    Sourced after source log where
  based := by rw [grows.base source sourced.led]; exact sourced.based
  within := sourced.within.trans (grows.ledger source)
  led := sourced.led.imp id (grows.won source)

theorem vouched_grows (member : Member) (standing source : Nat) (log candidate : List Entry)
    (vouched : Vouched term ledgers member standing source log candidate) :
    Vouched term after member standing source log candidate where
  voted := Nat.le_trans vouched.voted (grows.current member)
  sourced := sourced_grows ledgers after grows source log vouched.sourced
  upToDate := vouched.upToDate
  held := by
    intro leading before count holds
    rcases grows.fresh member leading count holds with old | late
    · exact vouched.held leading before count old
    · exact absurd (Nat.le_trans vouched.voted late) (Nat.not_le_of_lt before)

theorem elected_grows (members : Finset Member) (leading : Nat) (won : ledgers.won leading)
    (elected : Elected term members ledgers leading) : Elected term members after leading where
  sourced := by
    obtain ⟨source, before, sourced⟩ := elected.sourced
    rw [grows.base leading (.inr won)]
    exact ⟨source, before, sourced_grows ledgers after grows source _ sourced⟩
  quorum := by
    obtain ⟨quorum, most, vouches⟩ := elected.quorum
    rw [grows.base leading (.inr won)]
    refine ⟨quorum, most, fun member inQuorum => ?_⟩
    obtain ⟨source, log, old, vouched⟩ := vouches member inQuorum
    exact ⟨source, log, old, vouched_grows term ledgers after grows member leading source log _ vouched⟩

theorem chosen_grows (members : Finset Member) (leading count : Nat) (chosen : Chosen members ledgers leading count) :
    Chosen members after leading count where
  won := grows.won leading chosen.won
  own := by rw [grows.base leading (.inr chosen.won)]; exact chosen.own
  reached := Nat.le_trans chosen.reached (grows.ledger leading).length_le
  quorum := by
    obtain ⟨quorum, most, held⟩ := chosen.quorum
    exact ⟨quorum, most, fun member inQuorum => grows.holds member leading count (held member inQuorum)⟩

theorem committed_grows (members : Finset Member) (bound later : Nat) (log : List Entry) (commit : Nat)
    (order : bound ≤ later) (committed : Committed members ledgers bound log commit) :
    Committed members after later log commit := by
  rcases committed with rfl | ⟨leading, count, within, chosen, bounded, reaches, shared⟩
  · exact .inl rfl
  · exact .inr ⟨leading, count, Nat.le_trans within order, chosen_grows ledgers after grows members leading count chosen,
      bounded, reaches, shared.trans (grows.ledger leading)⟩

end Grows

section Change

variable (ledgers after : Ledgers Member Entry) (coherent : Coherent term ledgers)

include coherent

-- What the members have stored is no part of the ledgers' coherence.
theorem coherent_same (won : after.won = ledgers.won) (base : after.base = ledgers.base)
    (ledger : after.ledger = ledgers.ledger) : Coherent term after where
  unwon := by rw [won, ledger]; exact coherent.unwon
  based := by rw [base, ledger]; exact coherent.based
  own := by rw [base, ledger]; exact coherent.own
  copied := by rw [won, base, ledger]; exact coherent.copied

-- The leader of a term writes an entry of its term.
theorem coherent_append (leading : Nat) (entry : Entry) (own : term entry = leading) (led : ledgers.won leading)
    (won : after.won = ledgers.won) (base : after.base = ledgers.base)
    (ledger : after.ledger = Function.update ledgers.ledger leading (ledgers.ledger leading ++ [entry])) :
    Coherent term after := by
  have longer : ∀ other, ledgers.ledger other <+: after.ledger other := by
    intro other
    by_cases same : other = leading
    · subst same
      rw [ledger, Function.update_self]
      exact List.prefix_append _ _
    · rw [ledger, Function.update_of_ne same]
  -- an entry of the new ledgers is an old one or the one written
  have origin : ∀ other index found, (after.ledger other)[index]? = some found →
      (ledgers.ledger other)[index]? = some found ∧
          (after.ledger other).take (index + 1) = (ledgers.ledger other).take (index + 1) ∨
        other = leading ∧ index = (ledgers.ledger leading).length ∧ found = entry := by
    intro other index found located
    by_cases same : other = leading
    · subst same
      rw [ledger, Function.update_self] at located ⊢
      rcases Nat.lt_trichotomy index (ledgers.ledger other).length with less | equal | more
      · rw [List.getElem?_append_left less] at located
        exact .inl ⟨located, by rw [List.take_append_of_le_length (by omega)]⟩
      · rw [List.getElem?_append_right (by omega), equal, Nat.sub_self] at located
        exact .inr ⟨rfl, equal, by simpa using located.symm⟩
      · rw [List.getElem?_eq_none (by rw [List.length_append, List.length_singleton]; omega)] at located
        cases located
    · rw [ledger, Function.update_of_ne same] at located ⊢
      exact .inl ⟨located, rfl⟩
  constructor
  · intro other lost
    rw [won] at lost
    have apart : other ≠ leading := fun same => lost (same ▸ led)
    rw [ledger, Function.update_of_ne apart]
    exact coherent.unwon other lost
  · intro other
    rw [base]
    exact (coherent.based other).trans (longer other)
  · intro other index found located bound
    rw [base] at bound
    rcases origin other index found located with ⟨old, _⟩ | ⟨rfl, _, rfl⟩
    · exact coherent.own other index found old bound
    · exact own
  · intro other index found located
    rw [won, base]
    rcases origin other index found located with ⟨old, same⟩ | ⟨rfl, rfl, rfl⟩
    · obtain ⟨bound, led, based, shared⟩ := coherent.copied other index found old
      exact ⟨bound, led, based, same ▸ shared.trans (longer _)⟩
    · rw [own]
      exact ⟨Nat.le_refl _, led, (coherent.based other).length_le, List.take_prefix _ _⟩

-- A member wins a term that nobody had won, with a log it got from an earlier leader.
theorem coherent_elect (leading source : Nat) (log : List Entry) (unwon : ¬ ledgers.won leading)
    (before : source < leading) (sourced : Sourced ledgers source log)
    (won : ∀ other, after.won other ↔ ledgers.won other ∨ other = leading)
    (base : after.base = Function.update ledgers.base leading log)
    (ledger : after.ledger = Function.update ledgers.ledger leading log) : Coherent term after := by
  have old : ∀ other, ledgers.won other → after.base other = ledgers.base other ∧ after.ledger other = ledgers.ledger other := by
    intro other led
    have apart : other ≠ leading := fun same => unwon (same ▸ led)
    rw [base, ledger, Function.update_of_ne apart, Function.update_of_ne apart]
    exact ⟨rfl, rfl⟩
  have copied : ∀ other index found, (ledgers.ledger other)[index]? = some found →
      term found ≤ other ∧ after.won (term found) ∧ (after.base (term found)).length ≤ index ∧
        (ledgers.ledger other).take (index + 1) <+: after.ledger (term found) := by
    intro other index found located
    obtain ⟨bound, led, based, shared⟩ := coherent.copied other index found located
    obtain ⟨sameBase, sameLedger⟩ := old (term found) led
    rw [sameBase, sameLedger]
    exact ⟨bound, (won _).mpr (.inl led), based, shared⟩
  constructor
  · intro other lost
    have apart : other ≠ leading := fun same => lost ((won other).mpr (.inr same))
    rw [ledger, Function.update_of_ne apart]
    exact coherent.unwon other fun led => lost ((won other).mpr (.inl led))
  · intro other
    by_cases same : other = leading
    · subst same
      rw [base, ledger, Function.update_self, Function.update_self]
    · rw [base, ledger, Function.update_of_ne same, Function.update_of_ne same]
      exact coherent.based other
  · intro other index found located bound
    by_cases same : other = leading
    · subst same
      rw [base, Function.update_self] at bound
      rw [ledger, Function.update_self, List.getElem?_eq_none bound] at located
      cases located
    · rw [base, Function.update_of_ne same] at bound
      rw [ledger, Function.update_of_ne same] at located
      exact coherent.own other index found located bound
  · intro other index found located
    by_cases same : other = leading
    · subst same
      rw [ledger, Function.update_self] at located
      obtain ⟨bound, led, based, shared⟩ := copied source index found (prefix_get log _ _ _ sourced.within located)
      refine ⟨by omega, led, based, ?_⟩
      have within := (List.getElem?_eq_some_iff.mp located).1
      obtain ⟨rest, whole⟩ := sourced.within
      rw [← whole, List.take_append_of_le_length (by omega)] at shared
      rw [ledger, Function.update_self]
      rwa [ledger] at shared
    · have unchanged : after.ledger other = ledgers.ledger other := by rw [ledger, Function.update_of_ne same]
      rw [unchanged] at located ⊢
      exact copied other index found located

end Change

end RaftLog.Lib
