import RaftLog.Replication.Turns

set_option autoImplicit false

namespace RaftLog.Replication

open Lib

theorem up_to_date_candidate (raft : Raft) (request : VoteRequest) (log plea : List LogEntry)
    (index : raft.lastLogIndex = log.length) (term : raft.lastLogTerm = lastTerm log)
    (pleaIndex : request.lastLogIndex = plea.length) (pleaTerm : request.lastLogTerm = lastTerm plea)
    (upToDate : candidateLogIsUpToDate raft request = true) : UpToDate LogEntry.term plea log := by
  simp only [candidateLogIsUpToDate, Bool.or_eq_true, Bool.and_eq_true, decide_eq_true_eq, beq_iff_eq, index, term,
    pleaIndex, pleaTerm] at upToDate
  exact upToDate.imp id (And.imp_left Eq.symm)

section Votes

variable (voters : List NodeId) (history : History) (cluster : Cluster) (node : NodeId)
  (inv : ClusterInv voters history cluster) (member : node ∈ voters) (final : Node) (packets : List Packet)

include inv member

theorem timeout_turn (drives : Drives .other (cluster.nodes node) .electionTimeout final packets) :
    ∃ after, ClusterInv voters after (cluster.become node final packets) := by
  obtain ⟨network, reach, follows, sent, campaigns, wins⟩ := timeout_simulated voters history.network node member _ final
    packets inv.past.reach (inv.tracks.nodes node) drives
  obtain ⟨rfl, rfl⟩ := timeout_driven .other _ final packets drives
  have own := inv.nodes node member
  have self := self_id voters history cluster node inv _ (inv.tracks.nodes node) member
  obtain ⟨source, stored⟩ := own.stored
  have bound := stored.bound
  have unfought : (node, (cluster.nodes node).raft.currentTerm + 1) ∉ history.network.campaigns := by
    intro fought
    have reached := ((vote_inv voters history inv.past).recorded node (List.mem_toFinset.mpr member) _ node
      (.inl ⟨rfl, fought⟩)).1
    rw [inv.tracks.nodes node] at reached
    omega
  have ext := extends_campaign history network node _ follows _ (cluster.nodes node).log wins campaigns unfought
  have kept : ∀ leading count, (history.campaign network node ((cluster.nodes node).raft.currentTerm + 1)
      (cluster.nodes node).log).ledgers.holds node leading count →
      leading ≤ source ∧ (leading = source → count ≤ (cluster.nodes node).log.length) :=
    fun leading count held => stored.kept leading count (held.imp id (And.imp_left fun won => wins ▸ won))
  have plea : (history.campaign network node ((cluster.nodes node).raft.currentTerm + 1) (cluster.nodes node).log).plea node
      ((cluster.nodes node).raft.currentTerm + 1) = (cluster.nodes node).log := if_pos ⟨rfl, rfl⟩
  have sourced := sourced_grows _ _ ext.grows source _ stored.sourced
  have past := history_extends voters history _ node ext inv.past reach
    (coherent_same LogEntry.term _ _ inv.past.coherent (won_same history _ wins) rfl rfl)
    (fun other leading won => .inl (wins ▸ won)) (by
      intro voter _ standing candidate cast
      rcases cast with ⟨rfl, fought⟩ | grant
      · rw [History.campaign, campaigns] at fought
        rcases List.mem_cons.mp fought with new | old
        · cases new
          refine .inr ⟨source, _, by omega, ?_, sourced, ?_, fun leading _ => kept leading⟩
          · simp [History.ledgers, History.campaign, follows.nodes, campaignRaft]
          · rw [plea]
            exact .inr ⟨rfl, Nat.le_refl _⟩
        · exact .inl (.inl ⟨rfl, old⟩)
      · rcases (sent _).mp grant with old | new
        · exact .inl (.inr old)
        · simp at new)
  refine ⟨_, cluster_inv_become voters history _ cluster node _ _ inv ext past
    (tracks_become _ _ cluster node _ _ inv.tracks follows sent) ?_ ?_⟩
  · exact {
      learners := own.learners
      index := own.index
      term := own.term
      stored := ⟨source, Nat.le_succ_of_le bound, sourced, fun _ same => by simp only [campaignRaft] at same; omega,
        stored.held.imp id (ext.grows.holds node source _), kept⟩
      campaign := fun _ _ => plea
      leads := by simp [campaignRaft]
      progressed := by simp [campaignRaft]
      committed := committed_grows _ _ ext.grows _ _ _ _ _ (Nat.le_succ _) own.committed }
  · intro packet listed
    obtain ⟨peer, _, rfl⟩ := List.mem_map.mp listed
    refine ⟨?_, ?_, ?_⟩
    · simp only [self, History.campaign, campaigns]
      exact List.mem_cons_self
    · simp only [self, plea]
      exact own.index
    · simp only [self, plea]
      exact own.term

theorem request_turn (request : VoteRequest) (sent : .vote (.voteRequest node request) ∈ cluster.sent)
    (drives : Drives .other (cluster.nodes node) (.requestVote request) final packets) :
    ∃ after, ClusterInv voters after (cluster.become node final packets) := by
  have own := inv.nodes node member
  have tracked := inv.tracks.nodes node
  obtain ⟨next, hardState, granted, network, step, rfl, rfl, reach, follows, delivered, campaigns, wins⟩ :=
    request_simulated voters history.network node member _ final packets request inv.past.reach tracked
      (self_id voters history cluster node inv _ tracked member) ((inv.tracks.sent _).mpr sent) drives
  obtain ⟨source, stored⟩ := own.stored
  obtain ⟨fought, index, term⟩ := inv.packets _ sent
  have grows : (cluster.nodes node).raft.currentTerm ≤ next.currentTerm := by rw [step.term]; exact Nat.le_max_left _ _
  have kept : ∀ role, role ≠ .follower → next.role = role → (cluster.nodes node).raft.role = role ∧
      next.currentTerm = (cluster.nodes node).raft.currentTerm := by
    intro role other is
    rcases Nat.eq_or_lt_of_le grows with equal | less
    · exact ⟨(step.kept equal.symm).1.symm.trans is, equal.symm⟩
    · exact absurd (is.symm.trans (step.newer less)) other
  have leader := kept .leader (by decide)
  have ext := extends_move history network node next follows wins campaigns
  have past := history_extends voters history (history.move network) node ext inv.past reach
    (coherent_same LogEntry.term _ _ inv.past.coherent (won_same history _ wins) rfl rfl)
    (fun other leading won => .inl (wins ▸ won)) (by
      intro voter _ standing candidate cast
      rcases cast with ⟨rfl, own⟩ | grant
      · exact .inl (.inl ⟨rfl, campaigns ▸ own⟩)
      rcases (delivered _).mp grant with old | new
      · exact .inl (.inr old)
      simp only [List.mem_singleton, Packet.vote.injEq, Election.Packet.voteResponse.injEq,
        ReceivedVoteResponse.mk.injEq, VoteResponse.mk.injEq] at new
      obtain ⟨rfl, rfl, rfl, yes⟩ := new
      obtain ⟨now, _, upToDate⟩ := step.grant yes.symm
      refine .inr ⟨source, _, Nat.le_trans stored.bound grows, ?_,
        sourced_grows _ _ ext.grows source _ stored.sourced, ?_, ?_⟩
      · simp [History.ledgers, History.move, follows.nodes]
      · rw [← now]
        exact up_to_date_candidate _ request _ _ own.index own.term index term upToDate
      · exact fun leading _ count held => stored.kept leading count ((move_holds history network wins _ _ _).mp held))
  refine ⟨_, cluster_inv_become voters history _ cluster node _ _ inv ext past
    (tracks_become _ _ cluster node _ _ inv.tracks follows delivered) ?_ ?_⟩
  · refine move_node_inv voters history network node _ next _ wins campaigns inv.past member ext tracked own
      (by rw [step.frame]) (by rw [step.frame]) (by rw [step.frame]) grows (fun stands => (kept .candidate (by decide) stands).1)
      leader (still_progressed voters history node _ next _ own (by rw [step.frame]) leader) ?_
    rw [show next.commitIndex = (cluster.nodes node).raft.commitIndex by rw [step.frame]]
    exact later_committed voters _ _ _ _ _ grows own.committed
  · intro packet listed
    obtain rfl := List.mem_singleton.mp listed
    trivial

-- A vote response that elects nobody.
theorem unelected_turn (next : Raft) (network : Election.Network)
    (reach : Reachable (Election.machine voters.toFinset) network) (follows : Follows history.network network node next)
    (sent : network.sent = history.network.sent) (campaigns : network.campaigns = history.network.campaigns)
    (wins : network.wins = history.network.wins) (learners : next.learners = (cluster.nodes node).raft.learners)
    (index : next.lastLogIndex = (cluster.nodes node).raft.lastLogIndex)
    (term : next.lastLogTerm = (cluster.nodes node).raft.lastLogTerm)
    (sameVoters : next.voters = (cluster.nodes node).raft.voters)
    (commit : next.commitIndex = (cluster.nodes node).raft.commitIndex)
    (candidate : next.role = .candidate → (cluster.nodes node).raft.role = .candidate)
    (leader : next.role = .leader → (cluster.nodes node).raft.role = .leader ∧
      next.currentTerm = (cluster.nodes node).raft.currentTerm) :
    ∃ after, ClusterInv voters after (cluster.become node { cluster.nodes node with raft := next } []) := by
  have own := inv.nodes node member
  have tracked := inv.tracks.nodes node
  have grows := follows.grows
  rw [tracked] at grows
  have ext := extends_move history network node next follows wins campaigns
  have coherent : Coherent LogEntry.term (history.move network).ledgers :=
    coherent_same LogEntry.term _ _ inv.past.coherent (won_same history _ wins) rfl rfl
  have past := still_history_inv voters history _ node inv.past ext reach coherent sent campaigns wins
  refine ⟨_, cluster_inv_become voters history _ cluster node _ [] inv ext past
    (tracks_become _ network cluster node _ _ inv.tracks follows (by simp [sent])) ?_ (by simp)⟩
  refine move_node_inv voters history network node _ next _ wins campaigns inv.past member ext tracked own learners index
    term grows candidate leader (still_progressed voters history node _ next _ own sameVoters leader) ?_
  rw [commit]
  exact later_committed voters _ _ _ _ _ grows own.committed

end Votes

section Elected

variable (voters : List NodeId) (history : History) (cluster : Cluster) (node : NodeId)
  (inv : ClusterInv voters history cluster) (member : node ∈ voters) (received : ReceivedVoteResponse)
  (counts : CountsVote (cluster.nodes node).raft received)

include inv member counts

theorem term_unwon (network : Election.Network) (reach : Reachable (Election.machine voters.toFinset) network)
    (wins : network.wins = (node, (cluster.nodes node).raft.currentTerm) :: history.network.wins) :
    ¬ history.ledgers.won (cluster.nodes node).raft.currentTerm := by
  rintro ⟨other, won⟩
  have votes := Election.reachable_votes_inv voters.toFinset network reach
  have same : other = node := Election.winner_unique _ network votes other node (cluster.nodes node).raft.currentTerm
    (by rw [wins]; exact List.mem_cons_of_mem _ won) (by rw [wins]; exact List.mem_cons_self)
  subst same
  have decided := ((vote_inv voters history inv.past).decided other _ won).2.2
  rw [inv.tracks.nodes other] at decided
  exact decided rfl counts.candidate

-- The votes of a new leader say what its voters' logs were, and its base is the log it
-- campaigned with.
theorem elected_votes (sent : .vote (.voteResponse node received) ∈ cluster.sent)
    (unwon : ¬ history.ledgers.won (cluster.nodes node).raft.currentTerm) :
    history.plea node (cluster.nodes node).raft.currentTerm = (cluster.nodes node).log ∧
      ∀ voter ∈ insert received.sender (cluster.nodes node).raft.grantedVotes, voter ∈ voters.toFinset ∧
        ∃ source log, (source < (cluster.nodes node).raft.currentTerm ∨ source = 0) ∧
          Vouched LogEntry.term history.ledgers voter (cluster.nodes node).raft.currentTerm source log
            (cluster.nodes node).log := by
  have tracked := inv.tracks.nodes node
  have votes := vote_inv voters history inv.past
  have counted := Election.counted_vote voters.toFinset history.network node votes (List.mem_toFinset.mpr member) received
    ((inv.tracks.sent _).mpr sent) (tracked ▸ counts)
  rw [tracked] at counted
  obtain ⟨fought, casts⟩ := counted
  have plea := (inv.nodes node member).campaign counts.candidate fought
  refine ⟨plea, fun voter granted => ?_⟩
  obtain ⟨within, cast⟩ := casts voter granted
  obtain ⟨source, log, bound, vouched⟩ := inv.past.votes voter (List.mem_toFinset.mp within) _ node cast
  rw [plea] at vouched
  refine ⟨within, source, log, ?_, vouched⟩
  rcases Nat.eq_or_lt_of_le bound with same | less
  · exact .inr (vouched.sourced.led.resolve_right (same ▸ unwon))
  · exact .inl less

section Turn

variable (network : Election.Network)
  (wins : network.wins = (node, (cluster.nodes node).raft.currentTerm) :: history.network.wins)
  (unwon : ¬ history.ledgers.won (cluster.nodes node).raft.currentTerm) (source : Nat)
  (before : source < (cluster.nodes node).raft.currentTerm)

-- The history in which the candidate leads its term from its own log on.
def History.elected (history : History) (cluster : Cluster) (node : NodeId) (network : Election.Network) : History :=
  history.elect network (cluster.nodes node).raft.currentTerm (cluster.nodes node).log

omit inv member counts in
theorem elected_base :
    (history.elected cluster node network).base (cluster.nodes node).raft.currentTerm = (cluster.nodes node).log :=
  Function.update_self _ _ _

omit inv member counts in
theorem elected_ledger :
    (history.elected cluster node network).ledger (cluster.nodes node).raft.currentTerm = (cluster.nodes node).log :=
  Function.update_self _ _ _

include wins unwon before

omit member counts in
theorem elected_coherent (sourced : Sourced history.ledgers source (cluster.nodes node).log) :
    Coherent LogEntry.term (history.elected cluster node network).ledgers := by
  refine coherent_elect LogEntry.term history.ledgers _ inv.past.coherent _ source _ unwon before sourced ?_ rfl rfl
  intro other
  simp only [History.elected, History.ledgers, History.elect, wins, List.mem_cons, Prod.mk.injEq]
  constructor
  · rintro ⟨winner, ⟨_, same⟩ | old⟩
    · exact .inr same
    · exact .inl ⟨winner, old⟩
  · rintro (⟨winner, old⟩ | same)
    · exact ⟨winner, .inr old⟩
    · exact ⟨node, .inl ⟨rfl, same⟩⟩

variable (grows : Grows history.ledgers (history.elected cluster node network).ledgers)

include grows

omit wins in
theorem elected_majority (sent : .vote (.voteResponse node received) ∈ cluster.sent)
    (most : (insert received.sender (cluster.nodes node).raft.grantedVotes).card >
      (cluster.nodes node).raft.voters.keys.length / 2)
    (sourced : Sourced history.ledgers source (cluster.nodes node).log) :
    Elected LogEntry.term voters.toFinset (history.elected cluster node network).ledgers
      (cluster.nodes node).raft.currentTerm := by
  obtain ⟨_, vouches⟩ := elected_votes voters history cluster node inv member received counts sent unwon
  have base := elected_base history cluster node network
  refine ⟨⟨source, before, ?_⟩, insert received.sender (cluster.nodes node).raft.grantedVotes, ?_, ?_⟩
  · rw [show (history.elected cluster node network).ledgers.base _ = _ from base]
    exact sourced_grows _ _ grows source _ sourced
  · refine Election.majority_of_tally _ (cluster.nodes node).raft _ ?_ (fun voter granted => (vouches voter granted).1) most
    rw [← inv.tracks.nodes node]
    exact (vote_inv voters history inv.past).sameVoters node (List.mem_toFinset.mpr member)
  · intro voter granted
    obtain ⟨_, voterSource, log, old, vouched⟩ := vouches voter granted
    rw [show (history.elected cluster node network).ledgers.base _ = _ from base]
    exact ⟨voterSource, log, old, vouched_grows _ _ _ grows voter _ _ _ _ vouched⟩

omit inv member counts unwon in
-- What the node has stored is the ledger of its term now.
theorem elected_stored (stored : Stored history node (cluster.nodes node).raft (cluster.nodes node).log source) :
    Stored (history.elected cluster node network) node (electedRaft (cluster.nodes node).raft received)
      (cluster.nodes node).log (cluster.nodes node).raft.currentTerm := by
  have base := elected_base history cluster node network
  have ledger := elected_ledger history cluster node network
  have won : (node, (cluster.nodes node).raft.currentTerm) ∈ (history.elected cluster node network).network.wins := by
    simp only [History.elected, History.elect, wins]
    exact List.mem_cons_self
  refine ⟨Nat.le_refl _, ⟨?_, ?_, .inr ⟨node, won⟩⟩, by simp [electedRaft], ?_, ?_⟩
  · rw [show (history.elected cluster node network).ledgers.base _ = _ from base]
  · rw [show (history.elected cluster node network).ledgers.ledger _ = _ from ledger]
  · exact .inr (.inr ⟨won, Nat.le_of_eq (by rw [ledger])⟩)
  · intro leading count held
    by_cases same : leading = (cluster.nodes node).raft.currentTerm
    · subst same
      refine ⟨Nat.le_refl _, fun _ => ?_⟩
      rcases held with ⟨last, bound, acked⟩ | ⟨_, reaches⟩
      · have late := (stored.kept _ _ (.inl ⟨last, bound, acked⟩)).1
        omega
      · rwa [ledger] at reaches
    · rcases grows.fresh node leading count held with old | late
      · have early := (stored.kept leading count old).1
        exact ⟨by omega, fun now => absurd now same⟩
      · rcases held with acked | ⟨led, reaches⟩
        · have early := (stored.kept leading count (.inl acked)).1
          exact ⟨by omega, fun now => absurd now same⟩
        · simp only [History.elected, History.elect, wins, List.mem_cons, Prod.mk.injEq, true_and] at led
          have old := led.resolve_left same
          have early := (stored.kept leading 0 (.inr ⟨old, Nat.zero_le _⟩)).1
          exact ⟨by omega, fun now => absurd now same⟩

end Turn

theorem elected_turn (sent : .vote (.voteResponse node received) ∈ cluster.sent)
    (guard : electionGuard (cluster.nodes node).raft received = true)
    (most : (insert received.sender (cluster.nodes node).raft.grantedVotes).card >
      (cluster.nodes node).raft.voters.keys.length / 2)
    (network : Election.Network) (reach : Reachable (Election.machine voters.toFinset) network)
    (follows : Follows history.network network node (electedRaft (cluster.nodes node).raft received))
    (still : network.sent = history.network.sent) (campaigns : network.campaigns = history.network.campaigns)
    (wins : network.wins = (node, (cluster.nodes node).raft.currentTerm) :: history.network.wins) (packets : List Packet)
    (heartbeats : packets = [] ∨ packets = (cluster.nodes node).raft.peers.map fun peer =>
      .heartbeat peer (cluster.nodes node).raft.heartbeatRequest) :
    ∃ after, ClusterInv voters after
      (cluster.become node { cluster.nodes node with raft := electedRaft (cluster.nodes node).raft received } packets) := by
  have own := inv.nodes node member
  have tracked := inv.tracks.nodes node
  have unwon := term_unwon voters history cluster node inv member received counts network reach wins
  obtain ⟨plea, _⟩ := elected_votes voters history cluster node inv member received counts sent unwon
  obtain ⟨source, stored⟩ := own.stored
  have before : source < (cluster.nodes node).raft.currentTerm :=
    Nat.lt_of_le_of_ne stored.bound (stored.standing counts.candidate)
  have ext := extends_elect history network node _ follows (cluster.nodes node).raft.currentTerm (cluster.nodes node).log
    inv.past.coherent wins campaigns (by omega) unwon (by rw [tracked])
  have base := elected_base history cluster node network
  have won : (node, (cluster.nodes node).raft.currentTerm) ∈ (history.elected cluster node network).network.wins := by
    simp only [History.elected, History.elect, wins]
    exact List.mem_cons_self
  have coherent := elected_coherent voters history cluster node inv network wins unwon source before stored.sourced
  have elected := elected_majority voters history cluster node inv member received counts network unwon source before ext.grows
    sent most stored.sourced
  have past : HistoryInv voters (history.elected cluster node network) := by
    refine history_extends voters history _ node ext inv.past reach coherent ?_ ?_
    · intro other leading led
      simp only [History.elected, History.elect, wins] at led
      rcases List.mem_cons.mp led with new | old
      · cases new
        exact .inr ⟨elected, base.trans plea.symm⟩
      · exact .inl old
    · intro voter _ standing candidate cast
      exact .inl (cast.imp (And.imp id fun fought => campaigns ▸ fought) fun grant => still ▸ grant)
  have moved : NodeInv voters (history.elected cluster node network) node (electedRaft (cluster.nodes node).raft received)
      (cluster.nodes node).log := {
    learners := own.learners
    index := own.index
    term := own.term
    stored := ⟨_, elected_stored history cluster node received network wins source before ext.grows stored⟩
    campaign := by simp [electedRaft]
    leads := fun _ => ⟨won, (elected_ledger history cluster node network).symm⟩
    progressed := by
      intro _ other apart progress found
      have self := self_id voters history cluster node inv _ tracked member
      have small := election_guard_progress _ received guard counts most other (by rw [self]; exact apart) progress found
      refine .inr (.inl ?_)
      rw [show (electedRaft (cluster.nodes node).raft received).currentTerm = (cluster.nodes node).raft.currentTerm from rfl,
        base, ← own.index]
      exact small
    committed := committed_grows _ _ ext.grows _ _ _ _ _ (Nat.le_refl _) own.committed }
  refine ⟨_, cluster_inv_become voters history _ cluster node _ packets inv ext past
    (tracks_become _ network cluster node _ _ inv.tracks follows ?_) moved ?_⟩
  · intro packet
    rcases heartbeats with rfl | rfl <;> simp [still]
  · intro packet listed
    rcases heartbeats with rfl | rfl
    · cases listed
    · obtain ⟨peer, _, rfl⟩ := List.mem_map.mp listed
      exact leader_heartbeat voters _ node _ _ past moved rfl peer

end Elected

theorem vote_response_turn (voters : List NodeId) (history : History) (cluster : Cluster) (node : NodeId)
    (inv : ClusterInv voters history cluster) (member : node ∈ voters) (final : Node) (packets : List Packet)
    (received : ReceivedVoteResponse) (sent : .vote (.voteResponse node received) ∈ cluster.sent)
    (guard : electionGuard (cluster.nodes node).raft received = true)
    (drives : Drives .other (cluster.nodes node) (.voteResponse received) final packets) :
    ∃ after, ClusterInv voters after (cluster.become node final packets) := by
  obtain ⟨next, result, network, step, rfl, heartbeats, reach, follows, still, campaigns, wins⟩ :=
    response_simulated voters history.network node member _ final packets received inv.past.reach (inv.tracks.nodes node)
      ((inv.tracks.sent _).mpr sent) drives
  have unelected := unelected_turn voters history cluster node inv member next network reach follows still campaigns
  cases step with
  | stepsDown =>
      obtain rfl := heartbeats.resolve_right fun both => by cases both.1.2
      exact unelected (by simpa using wins) rfl rfl rfl rfl rfl (by simp) (by simp)
  | notCandidate role =>
      obtain rfl := heartbeats.resolve_right fun both => role both.1.1
      exact unelected (by simpa [role] using wins) rfl rfl rfl rfl rfl id (fun leads => ⟨leads, rfl⟩)
  | ignored =>
      have still : ¬ ((cluster.nodes node).raft.role = .candidate ∧ (cluster.nodes node).raft.role = .leader) :=
        fun both => by cases both.1.symm.trans both.2
      obtain rfl := heartbeats.resolve_right fun both => still both.1
      exact unelected (by simpa [still] using wins) rfl rfl rfl rfl rfl id (fun leads => ⟨leads, rfl⟩)
  | tallied counts =>
      have still : (talliedRaft (cluster.nodes node).raft received).role ≠ .leader := by
        simp [talliedRaft, counts.candidate]
      obtain rfl := heartbeats.resolve_right fun both => still both.1.2
      exact unelected (by simpa [still] using wins) rfl rfl rfl rfl rfl id (fun leads => ⟨leads, rfl⟩)
  | elected counts most =>
      refine elected_turn voters history cluster node inv member received counts sent guard most network reach follows still
        campaigns ?_ packets (heartbeats.imp id And.right)
      rw [wins, if_pos ⟨counts.candidate, rfl⟩]
      rfl

end RaftLog.Replication
