import RaftLog.Replication.History

set_option autoImplicit false

namespace RaftLog.Replication

open Lib

-- One node moved in the election network.
structure Follows (network after : Election.Network) (node : NodeId) (raft : Raft) : Prop where
  nodes : after.nodes = Function.update network.nodes node raft
  grows : (network.nodes node).currentTerm ≤ raft.currentTerm

theorem follows_current (network after : Election.Network) (node : NodeId) (raft : Raft)
    (follows : Follows network after node raft) (other : NodeId) :
    (network.nodes other).currentTerm ≤ (after.nodes other).currentTerm := by
  rw [follows.nodes]
  by_cases same : other = node
  · subst same
    rw [Function.update_self]
    exact follows.grows
  · rw [Function.update_of_ne same]

section Moves

variable (history : History) (network : Election.Network) (node : NodeId) (raft : Raft)
  (follows : Follows history.network network node raft)

def History.move : History := { history with network := network }

def History.campaign (standing : Nat) (log : List LogEntry) : History :=
  { history with
    network := network
    plea := fun other term => if other = node ∧ term = standing then log else history.plea other term }

def History.elect (leading : Nat) (log : List LogEntry) : History :=
  { history with
    network := network, base := Function.update history.base leading log,
    ledger := Function.update history.ledger leading log }

def History.write (leading : Nat) (entry : LogEntry) : History :=
  { history with
    network := network, ledger := Function.update history.ledger leading (history.ledger leading ++ [entry]) }

def History.acknowledge (leading last : Nat) : History :=
  { history with network := network, acks := (node, leading, last) :: history.acks }

include follows

-- No candidate, winner, entry or acknowledgement is added.
theorem extends_move (wins : network.wins = history.network.wins)
    (campaigns : network.campaigns = history.network.campaigns) : Extends history (history.move network) node where
  grows := {
    won := fun _ ⟨other, won⟩ => ⟨other, wins ▸ won⟩
    base := fun _ _ => rfl
    ledger := fun _ => List.prefix_rfl
    holds := fun _ _ _ => Or.imp id (And.imp_left fun won => wins ▸ won)
    current := follows_current history.network network node raft follows
    fresh := fun _ _ _ holds => .inl (holds.imp id (And.imp_left fun won => wins ▸ won)) }
  wins := by rw [History.move, wins]; exact fun _ => id
  campaigns := by rw [History.move, campaigns]; exact fun _ => id
  newCampaign := by rw [History.move, campaigns]; exact fun _ _ => .inl
  plea := fun _ _ _ => rfl
  ledger := fun _ => .inl rfl
  holds := fun _ _ _ _ holds => holds.imp id (And.imp_left fun won => wins ▸ won)
  acks := fun _ => id

theorem extends_campaign (standing : Nat) (log : List LogEntry) (wins : network.wins = history.network.wins)
    (campaigns : network.campaigns = (node, standing) :: history.network.campaigns)
    (unfought : (node, standing) ∉ history.network.campaigns) :
    Extends history (history.campaign network node standing log) node where
  grows := {
    won := fun _ ⟨other, won⟩ => ⟨other, wins ▸ won⟩
    base := fun _ _ => rfl
    ledger := fun _ => List.prefix_rfl
    holds := fun _ _ _ => Or.imp id (And.imp_left fun won => wins ▸ won)
    current := follows_current history.network network node raft follows
    fresh := fun _ _ _ holds => .inl (holds.imp id (And.imp_left fun won => wins ▸ won)) }
  wins := by rw [History.campaign, wins]; exact fun _ => id
  campaigns := by rw [History.campaign, campaigns]; exact List.subset_cons_self _ _
  newCampaign := by
    intro other term fought
    rw [History.campaign, campaigns] at fought
    rcases List.mem_cons.mp fought with new | old
    · cases new
      exact .inr rfl
    · exact .inl old
  plea := by
    intro other term fought
    refine if_neg ?_
    rintro ⟨rfl, rfl⟩
    exact unfought fought
  ledger := fun _ => .inl rfl
  holds := fun _ _ _ _ holds => holds.imp id (And.imp_left fun won => wins ▸ won)
  acks := fun _ => id

theorem extends_elect (leading : Nat) (log : List LogEntry) (coherent : Coherent LogEntry.term history.ledgers)
    (wins : network.wins = (node, leading) :: history.network.wins)
    (campaigns : network.campaigns = history.network.campaigns) (positive : 0 < leading)
    (unwon : ¬ history.ledgers.won leading) (now : (history.network.nodes node).currentTerm = leading) :
    Extends history (history.elect network leading log) node := by
  have old : ∀ other, history.ledgers.won other → other ≠ leading := fun other won same => unwon (same ▸ won)
  have holds : ∀ other term count, (history.elect network leading log).ledgers.holds other term count →
      history.ledgers.holds other term count ∨ other = node ∧ term = leading := by
    rintro other term count (acked | ⟨won, reaches⟩)
    · exact .inl (.inl acked)
    · rw [History.elect, wins] at won
      rcases List.mem_cons.mp won with new | before
      · cases new
        exact .inr ⟨rfl, rfl⟩
      · simp only [History.elect, Function.update_of_ne (old term ⟨other, before⟩)] at reaches
        exact .inl (.inr ⟨before, reaches⟩)
  have more : history.network.wins ⊆ network.wins := by
    rw [wins]
    exact List.subset_cons_self _ _
  exact {
    grows := {
      won := fun _ ⟨other, won⟩ => ⟨other, more won⟩
      base := by
        intro term led
        refine Function.update_of_ne ?_ _ _
        rcases led with rfl | won
        · omega
        · exact old term won
      ledger := by
        intro term
        by_cases same : term = leading
        · subst same
          rw [coherent.unwon term unwon]
          exact List.nil_prefix
        · rw [show (history.elect network leading log).ledgers.ledger term = history.ledger term from
            Function.update_of_ne same _ _]
          exact List.prefix_rfl
      holds := by
        rintro other term count (acked | ⟨won, reaches⟩)
        · exact .inl acked
        · refine .inr ⟨more won, ?_⟩
          rw [show (history.elect network leading log).ledger term = history.ledger term from
            Function.update_of_ne (old term ⟨other, won⟩) _ _]
          exact reaches
      current := follows_current history.network network node raft follows
      fresh := by
        intro other term count stored
        exact (holds other term count stored).imp id fun new => by rw [new.1, new.2]; exact Nat.le_of_eq now }
    wins := more
    campaigns := by rw [History.elect, campaigns]; exact fun _ => id
    newCampaign := by rw [History.elect, campaigns]; exact fun _ _ => .inl
    plea := fun _ _ _ => rfl
    ledger := by
      intro term
      by_cases same : term = leading
      · subst same
        exact .inr (by rw [History.elect, wins]; exact List.mem_cons_self)
      · exact .inl (Function.update_of_ne same _ _)
    holds := fun other apart term count stored => (holds other term count stored).resolve_right fun new => apart new.1
    acks := fun _ => id }

theorem extends_write (leading : Nat) (entry : LogEntry) (wins : network.wins = history.network.wins)
    (campaigns : network.campaigns = history.network.campaigns) (won : (node, leading) ∈ history.network.wins)
    (unique : ∀ other, (other, leading) ∈ history.network.wins → other = node)
    (now : (history.network.nodes node).currentTerm = leading) :
    Extends history (history.write network leading entry) node := by
  have longer : ∀ term, history.ledger term <+: (history.write network leading entry).ledger term := by
    intro term
    by_cases same : term = leading
    · subst same
      simp only [History.write, Function.update_self]
      exact List.prefix_append _ _
    · rw [show (history.write network leading entry).ledger term = history.ledger term from
        Function.update_of_ne same _ _]
  have holds : ∀ other term count, (history.write network leading entry).ledgers.holds other term count →
      history.ledgers.holds other term count ∨ other = node ∧ term = leading := by
    rintro other term count (acked | ⟨led, reaches⟩)
    · exact .inl (.inl acked)
    · have before : (other, term) ∈ history.network.wins := wins ▸ led
      by_cases same : term = leading
      · subst same
        exact .inr ⟨unique other before, rfl⟩
      · simp only [History.write, Function.update_of_ne same] at reaches
        exact .inl (.inr ⟨before, reaches⟩)
  exact {
    grows := {
      won := fun _ ⟨other, won⟩ => ⟨other, wins ▸ won⟩
      base := fun _ _ => rfl
      ledger := longer
      holds := fun _ term _ => Or.imp id fun led => ⟨wins ▸ led.1, Nat.le_trans led.2 (longer term).length_le⟩
      current := follows_current history.network network node raft follows
      fresh := by
        intro other term count stored
        exact (holds other term count stored).imp id fun new => by rw [new.1, new.2]; exact Nat.le_of_eq now }
    wins := by rw [History.write, wins]; exact fun _ => id
    campaigns := by rw [History.write, campaigns]; exact fun _ => id
    newCampaign := by rw [History.write, campaigns]; exact fun _ _ => .inl
    plea := fun _ _ _ => rfl
    ledger := by
      intro term
      by_cases same : term = leading
      · subst same
        exact .inr (by rw [History.write, wins]; exact won)
      · exact .inl (Function.update_of_ne same _ _)
    holds := fun other apart term count stored => (holds other term count stored).resolve_right fun new => apart new.1
    acks := fun _ => id }

theorem extends_acknowledge (leading last : Nat) (wins : network.wins = history.network.wins)
    (campaigns : network.campaigns = history.network.campaigns)
    (fresh : (history.network.nodes node).currentTerm ≤ leading) :
    Extends history (history.acknowledge network node leading last) node := by
  have holds : ∀ other term count, (history.acknowledge network node leading last).ledgers.holds other term count →
      history.ledgers.holds other term count ∨ other = node ∧ term = leading := by
    rintro other term count (⟨most, bound, acked⟩ | ⟨led, reaches⟩)
    · rcases List.mem_cons.mp acked with new | old
      · cases new
        exact .inr ⟨rfl, rfl⟩
      · exact .inl (.inl ⟨most, bound, old⟩)
    · exact .inl (.inr ⟨wins ▸ led, reaches⟩)
  exact {
    grows := {
      won := fun _ ⟨other, won⟩ => ⟨other, wins ▸ won⟩
      base := fun _ _ => rfl
      ledger := fun _ => List.prefix_rfl
      holds := fun _ _ _ stored => stored.imp
        (fun ⟨most, bound, acked⟩ => ⟨most, bound, List.mem_cons_of_mem _ acked⟩) (And.imp_left fun led => wins ▸ led)
      current := follows_current history.network network node raft follows
      fresh := by
        intro other term count stored
        exact (holds other term count stored).imp id fun new => by rw [new.1, new.2]; exact fresh }
    wins := by rw [History.acknowledge, wins]; exact fun _ => id
    campaigns := by rw [History.acknowledge, campaigns]; exact fun _ => id
    newCampaign := by rw [History.acknowledge, campaigns]; exact fun _ _ => .inl
    plea := fun _ _ _ => rfl
    ledger := fun _ => .inl rfl
    holds := fun other apart term count stored => (holds other term count stored).resolve_right fun new => apart new.1
    acks := List.subset_cons_self _ _ }

end Moves

end RaftLog.Replication
