import RaftLog.Lib.History
import RaftLog.Runtime.Writing

set_option autoImplicit false

namespace RaftLog.Calls

open Lib Replication Drive

inductive Status where
  | failedPrecondition (message : String)
  | internal (message : String)
deriving DecidableEq, Repr

-- WriteResponse.ok, or the call's status.
abbrev Answer := Except Status Bool

def display : Failure → String
  | .raft (.notLeader _) => "node is not the leader"
  | .raft .notCandidate => "node is not a candidate"
  | .appendFailed => "appending to local storage failed"
  | .entrySerialisationFailed _ => "log entry serialisation failed"
  | .persistStateFailed message => "persisting Raft hard state failed: " ++ message
  | .readCommittedEntryFailed message => "reading a committed log entry failed: " ++ message
  | .entryDeserialisationFailed message => "decoding a committed log entry failed: " ++ message
  | .applyCommittedEntryFailed message => "applying a committed log entry failed: " ++ message

def answerOf : Except Failure Unit → Answer
  | .ok () => .ok true
  | .error (.raft (.notLeader (some leaderId))) =>
      .error (.failedPrecondition ("node is not the leader; known leader: " ++ leaderId.name))
  | .error (.raft (.notLeader none)) => .error (.failedPrecondition "node is not the leader; leader is unknown")
  | .error failure => .error (.internal (display failure))

-- What tokio's channels say once their other end is gone.
def closed : Answer := .error (.internal "channel closed")

theorem answer_of_ok (result : Except Failure Unit) : answerOf result = .ok true ↔ result = .ok () := by
  constructor
  · intro same
    unfold answerOf at same
    split at same
    · rfl
    all_goals cases same
  · rintro rfl
    rfl

-- The writes that were answered Ok, newest first.
def tookOf (handled : List Message) (replies : List (Nat × Except Failure Unit)) : List Message :=
  (handled.zip replies).filterMap fun (message, _, result) => if result.isOk then some message else none

theorem accepted_took (service : Service) :
    service.accepted = (tookOf service.handled service.runtime.replies).map Message.data := by
  rw [Service.accepted, tookOf, List.map_filterMap]
  congr 1
  funext sent
  obtain ⟨message, reply, result⟩ := sent
  cases result with
  | ok done => rfl
  | error failure => rfl

theorem took_cons (message : Message) (handled : List Message) (reply : Nat) (result : Except Failure Unit)
    (replies : List (Nat × Except Failure Unit)) : tookOf (message :: handled) ((reply, result) :: replies) =
      if result = .ok () then message :: tookOf handled replies else tookOf handled replies := by
  cases result with
  | ok done => rfl
  | error failure => rfl

theorem took_handled (handled : List Message) (replies : List (Nat × Except Failure Unit)) (message : Message)
    (member : message ∈ tookOf handled replies) : message ∈ handled := by
  obtain ⟨⟨other, reply, result⟩, listed, same⟩ := List.mem_filterMap.mp member
  dsimp only at same
  split at same
  · cases same
    exact (List.of_mem_zip listed).1
  · cases same

-- With one channel for each write, what was sent on it says whether the write is among them.
theorem took_iff (handled : List Message) (replies : List (Nat × Except Failure Unit))
    (each : replies.map Prod.fst = handled.map Message.reply) (apart : (handled.map Message.reply).Nodup)
    (message : Message) (member : message ∈ handled) (result : Except Failure Unit)
    (sent : (message.reply, result) ∈ replies) : message ∈ tookOf handled replies ↔ result = .ok () := by
  induction handled generalizing replies with
  | nil => cases member
  | cons newest rest ih =>
      cases replies with
      | nil => cases each
      | cons reply others =>
          obtain ⟨number, answer⟩ := reply
          simp only [List.map_cons, List.cons.injEq] at each
          obtain ⟨rfl, each⟩ := each
          obtain ⟨fresh, apart⟩ := List.nodup_cons.mp apart
          rw [took_cons]
          rcases List.mem_cons.mp member with rfl | before
          · -- the newest write's channel carries the newest answer only
            have own : result = answer := by
              rcases List.mem_cons.mp sent with same | earlier
              · exact congrArg Prod.snd same
              · exact absurd (each ▸ List.mem_map_of_mem earlier) fresh
            rw [own]
            split
            · rename_i ok
              exact iff_of_true List.mem_cons_self ok
            · rename_i refused
              exact iff_of_false (fun inside => fresh (List.mem_map_of_mem (took_handled rest others message inside))) refused
          · have other : message ≠ newest := by
              rintro rfl
              exact fresh (List.mem_map_of_mem before)
            have earlier : (message.reply, result) ∈ others := by
              rcases List.mem_cons.mp sent with same | earlier
              · obtain ⟨sameReply, _⟩ := Prod.mk.inj same
                exact absurd (sameReply ▸ List.mem_map_of_mem before) fresh
              · exact earlier
            rw [← ih others each apart before earlier]
            split
            · rw [List.mem_cons, or_iff_right other]
            · rfl

theorem picked_perm {α : Type} (list : List α) (pick : Nat) (value : α) (picked : list[pick]? = some value) :
    (value :: list.eraseIdx pick).Perm list := by
  obtain ⟨bound, rfl⟩ := List.getElem?_eq_some_iff.mp picked
  exact List.getElem_cons_eraseIdx_perm bound

-- The clients' calls, the channel, and the task that runs Runtime::run.
structure System where
  service : Service
  running : Bool
  cancelled : Bool
  sending : List Message
  queue : List Message
  gone : List Message
  history : List (Moment Message Answer)

-- A send waits while the channel is full, a call waits for its answer until its client
-- goes, and select! takes either of the branches that are ready.
inductive Action where
  | call (data : Bytes)
  | send (pick : Nat)
  | refuse (pick : Nat)
  | handle
  | cancel
  | stop
  | receive (message : Message)
  | leave (message : Message)
deriving DecidableEq, Repr

def toldCalls (history : List (Moment Message Answer)) : List Message :=
  history.filterMap fun
    | .called _ => none
    | .answered message _ => some message

-- The message of a new call, on a channel of its own.
def System.newest (system : System) (data : Bytes) : Message := ⟨data, system.history.length⟩

def System.answer (system : System) (message : Message) (answer : Answer) : System :=
  { system with history := .answered message answer :: system.history }

theorem mem_told_calls (history : List (Moment Message Answer)) (message : Message) :
    message ∈ toldCalls history ↔ Told history message := by
  simp only [toldCalls, List.mem_filterMap, Told]
  constructor
  · rintro ⟨moment, listed, same⟩
    cases moment with
    | called call => cases same
    | answered call answer =>
        cases same
        exact ⟨answer, listed⟩
  · rintro ⟨answer, listed⟩
    exact ⟨_, listed, rfl⟩

-- A call that has not returned.
def System.waits (system : System) (message : Message) : Bool :=
  decide (.called message ∈ system.history) && decide (message ∉ toldCalls system.history) && decide (message ∉ system.gone)

section Step

variable (cfg : SegmentLog.Config) (codec : Codec) (capacity : Nat)

-- What the queue holds when the loop is left is dropped with the receiver.
def step (system : System) : Action → Option System
  | .call data =>
      some { system with
        sending := system.sending ++ [system.newest data], history := .called (system.newest data) :: system.history }
  | .send pick =>
      if system.running && decide (system.queue.length < capacity) then
        system.sending[pick]?.map fun message =>
          { system with sending := system.sending.eraseIdx pick, queue := system.queue ++ [message] }
      else none
  | .refuse pick =>
      if system.running then none
      else system.sending[pick]?.map fun message =>
        { system with sending := system.sending.eraseIdx pick, history := .answered message closed :: system.history }
  | .handle =>
      match system.running, system.queue with
      | true, message :: rest => (serve cfg codec system.service message).map fun service =>
          { system with service := service, queue := rest }
      | _, _ => none
  | .cancel => some { system with cancelled := true }
  | .stop => if system.running && system.cancelled then some { system with running := false } else none
  | .receive message =>
      if system.waits message && decide (message ∉ system.sending) then
        match system.service.runtime.replies.lookup message.reply with
        | some result => some (system.answer message (answerOf result))
        | none => if system.running then none else some (system.answer message closed)
      else none
  | .leave message =>
      if system.waits message then
        some { system with sending := system.sending.erase message, gone := message :: system.gone }
      else none

def Started (id : NodeId) (voters : List NodeId) (state : State) (system : System) : Prop :=
  ∃ service, Drive.Started cfg id voters state service ∧ system = ⟨service, true, false, [], [], [], []⟩

def machine (id : NodeId) (voters : List NodeId) (state : State) : Machine System Action :=
  ⟨Started cfg id voters state, step cfg codec capacity⟩

def permits (system : System) : Action → Bool
  | .handle => system.service.runtime.world.log.roomFor (2 ^ 32)
  | _ => true

end Step

def System.took (system : System) : List Message := tookOf system.service.handled system.service.runtime.replies

def System.places (system : System) : List Message := system.sending ++ system.queue ++ system.service.handled

-- Every call is somewhere, and in one place only.
structure Sound (cfg : SegmentLog.Config) (codec : Codec) (system : System) (data : List Bytes) : Prop where
  persisted : Persisted cfg codec system.service data
  apart : (system.places.map Message.reply).Nodup
  made : ∀ message ∈ system.places, .called message ∈ system.history
  numbered : ∀ message, .called message ∈ system.history → message.reply < system.history.length
  own : ∀ message other, .called message ∈ system.history → .called other ∈ system.history → message.reply = other.reply →
    message = other
  told : ∀ message, Told system.history message → .called message ∈ system.history
  once : (toldCalls system.history).Nodup
  unsent : ∀ message ∈ system.sending, ¬ Told system.history message
  queued : system.running = true → ∀ message ∈ system.queue, ¬ Told system.history message
  placed : ∀ message, .called message ∈ system.history →
    message ∈ system.places ∨ message ∈ system.gone ∨ Told system.history message
  linear : Linear (· = .ok true) system.history system.took

section Keep

variable (cfg : SegmentLog.Config) (codec : Codec) (system : System) (data : List Bytes)

theorem waits_iff (message : Message) : system.waits message = true ↔
    .called message ∈ system.history ∧ ¬ Told system.history message ∧ message ∉ system.gone := by
  simp [System.waits, mem_told_calls, and_assoc]

theorem started_sound (id : NodeId) (voters : List NodeId) (only : ∀ voter, voter ∈ voters ↔ voter = id) (state : State)
    (started : Started cfg id voters state system) : Sound cfg codec system [] := by
  obtain ⟨service, begun, rfl⟩ := started
  have persisted := started_persisted cfg codec id voters only state service begun
  obtain ⟨log, next, _, _, rfl⟩ := begun
  constructor
  case persisted => exact persisted
  case linear => exact linear_nil _
  case apart => exact .nil
  case once => exact .nil
  all_goals simp [System.places, Told]

variable (sound : Sound cfg codec system data)

include sound

theorem call_sound (command : Bytes) : Sound cfg codec { system with
    sending := system.sending ++ [system.newest command]
    history := .called (system.newest command) :: system.history } data := by
  have fresh : Moment.called (system.newest command) ∉ system.history :=
    fun before => Nat.lt_irrefl _ (sound.numbered _ before)
  have places : (system.sending ++ [system.newest command] ++ system.queue ++ system.service.handled).Perm
      (system.newest command :: system.places) := by
    simp only [System.places, List.append_assoc, List.singleton_append]
    exact List.perm_middle
  constructor
  case persisted => exact sound.persisted
  case apart =>
    refine (places.map Message.reply).nodup_iff.mpr ?_
    rw [List.map_cons, List.nodup_cons]
    refine ⟨fun listed => ?_, sound.apart⟩
    obtain ⟨message, member, same⟩ := List.mem_map.mp listed
    have below := sound.numbered message (sound.made message member)
    exact absurd same below.ne
  case made =>
    intro message member
    rcases List.mem_cons.mp (places.mem_iff.mp member) with rfl | before
    · exact List.mem_cons_self
    · exact List.mem_cons_of_mem _ (sound.made message before)
  case numbered =>
    intro message listed
    rcases List.mem_cons.mp listed with same | before
    · cases same
      exact Nat.lt_succ_self _
    · exact Nat.lt_succ_of_lt (sound.numbered message before)
  case own =>
    intro message other listed also same
    rcases List.mem_cons.mp listed with new | before
    · cases new
      rcases List.mem_cons.mp also with new | earlier
      · cases new
        rfl
      · exact absurd same.symm (sound.numbered other earlier).ne
    · rcases List.mem_cons.mp also with new | earlier
      · cases new
        exact absurd same (sound.numbered message before).ne
      · exact sound.own message other before earlier same
  case told => exact fun message told => List.mem_cons_of_mem _ (sound.told message ((told_called _ _ _).mp told))
  case once => exact sound.once
  case unsent =>
    intro message member told
    rw [told_called] at told
    rcases List.mem_append.mp member with before | new
    · exact sound.unsent message before told
    · rw [List.mem_singleton.mp new] at told
      exact fresh (sound.told _ told)
  case queued => exact fun running message member told => sound.queued running message member ((told_called _ _ _).mp told)
  case placed =>
    intro message listed
    rcases List.mem_cons.mp listed with same | before
    · cases same
      exact .inl (places.mem_iff.mpr List.mem_cons_self)
    · exact (sound.placed message before).imp (fun member => places.mem_iff.mpr (List.mem_cons_of_mem _ member))
        (Or.imp_right (told_cons _ _ _))
  case linear => exact linear_call _ _ _ sound.linear _ fresh

-- A call is answered once, and with what became of it.
theorem answer_sound (message : Message) (answer : Answer) (kept : List Message) (made : .called message ∈ system.history)
    (waiting : ¬ Told system.history message) (right : answer = .ok true ↔ message ∈ system.took)
    (fewer : kept.Sublist system.sending) (out : message ∉ kept)
    (rest : ∀ other ∈ system.sending, other ∈ kept ∨ other = message)
    (past : system.running = true → message ∉ system.queue) :
    Sound cfg codec { system with sending := kept, history := .answered message answer :: system.history } data := by
  have places : (kept ++ system.queue ++ system.service.handled).Sublist system.places :=
    (fewer.append_right system.queue).append_right system.service.handled
  constructor
  case persisted => exact sound.persisted
  case apart => exact (places.map Message.reply).nodup sound.apart
  case made => exact fun other member => List.mem_cons_of_mem _ (sound.made other (places.subset member))
  case numbered =>
    intro other listed
    rcases List.mem_cons.mp listed with same | before
    · cases same
    · exact Nat.lt_succ_of_lt (sound.numbered other before)
  case own =>
    intro first second listed also same
    rcases List.mem_cons.mp listed with new | before
    · cases new
    rcases List.mem_cons.mp also with new | earlier
    · cases new
    exact sound.own first second before earlier same
  case told =>
    intro other told
    rcases (told_answered _ _ _ _).mp told with rfl | before
    · exact List.mem_cons_of_mem _ made
    · exact List.mem_cons_of_mem _ (sound.told other before)
  case once => exact List.nodup_cons.mpr ⟨fun listed => waiting ((mem_told_calls _ _).mp listed), sound.once⟩
  case unsent =>
    intro other member told
    rcases (told_answered _ _ _ _).mp told with rfl | before
    · exact out member
    · exact sound.unsent other (fewer.subset member) before
  case queued =>
    intro running other member told
    rcases (told_answered _ _ _ _).mp told with rfl | before
    · exact past running member
    · exact sound.queued running other member before
  case placed =>
    intro other listed
    rcases List.mem_cons.mp listed with same | before
    · cases same
    rcases sound.placed other before with member | gone | told
    · rcases List.mem_append.mp member with early | handled
      · rcases List.mem_append.mp early with sent | queued
        · rcases rest other sent with still | rfl
          · exact .inl (List.mem_append_left _ (List.mem_append_left _ still))
          · exact .inr (.inr ((told_answered _ _ _ _).mpr (.inl rfl)))
        · exact .inl (List.mem_append_left _ (List.mem_append_right _ queued))
      · exact .inl (List.mem_append_right _ handled)
    · exact .inr (.inl gone)
    · exact .inr (.inr (told_cons _ _ _ told))
  case linear => exact linear_answer _ _ _ sound.linear message answer right

theorem sending_apart : system.sending.Nodup ∧ ∀ message ∈ system.sending, message ∉ system.service.handled := by
  have apart := sound.apart.of_map
  rw [System.places, List.append_assoc] at apart
  obtain ⟨own, _, disjoint⟩ := List.nodup_append'.mp apart
  exact ⟨own, fun message sent handled => disjoint sent (List.mem_append_right _ handled)⟩

theorem queue_apart (message : Message) (queued : message ∈ system.queue) : message ∉ system.service.handled := by
  have apart := sound.apart.of_map
  obtain ⟨_, _, disjoint⟩ := List.nodup_append'.mp apart
  exact disjoint (List.mem_append_right _ queued)

-- A reply is on the channel of the write it answers.
theorem reply_handled (message : Message) (made : .called message ∈ system.history) (result : Except Failure Unit)
    (sent : (message.reply, result) ∈ system.service.runtime.replies) : message ∈ system.service.handled := by
  have listed : message.reply ∈ system.service.handled.map Message.reply := by
    rw [← sound.persisted.answered]
    exact List.mem_map_of_mem sent
  obtain ⟨other, handled, same⟩ := List.mem_map.mp listed
  rwa [← sound.own other message (sound.made other (List.mem_append_right _ handled)) made same]

theorem send_sound (pick : Nat) (message : Message) (picked : system.sending[pick]? = some message) :
    Sound cfg codec { system with sending := system.sending.eraseIdx pick, queue := system.queue ++ [message] } data := by
  have perm := picked_perm system.sending pick message picked
  have sent : message ∈ system.sending := List.mem_of_getElem? picked
  have places : (system.sending.eraseIdx pick ++ (system.queue ++ [message]) ++ system.service.handled).Perm system.places := by
    have front : (system.sending.eraseIdx pick ++ (system.queue ++ [message])).Perm (system.sending ++ system.queue) := by
      rw [← List.append_assoc]
      exact List.perm_append_singleton message _ |>.trans (perm.append_right system.queue)
    exact front.append_right system.service.handled
  constructor
  case persisted => exact sound.persisted
  case apart => exact (places.map Message.reply).nodup_iff.mpr sound.apart
  case made => exact fun other member => sound.made other (places.mem_iff.mp member)
  case numbered => exact sound.numbered
  case own => exact sound.own
  case told => exact sound.told
  case once => exact sound.once
  case unsent => exact fun other member => sound.unsent other ((List.eraseIdx_sublist _ _).subset member)
  case queued =>
    intro running other member
    rcases List.mem_append.mp member with before | new
    · exact sound.queued running other before
    · exact List.mem_singleton.mp new ▸ sound.unsent message sent
  case placed => exact fun other listed => (sound.placed other listed).imp_left places.mem_iff.mpr
  case linear => exact sound.linear

theorem refuse_sound (pick : Nat) (message : Message) (stopped : system.running = false)
    (picked : system.sending[pick]? = some message) : Sound cfg codec { system with
      sending := system.sending.eraseIdx pick, history := .answered message closed :: system.history } data := by
  have perm := picked_perm system.sending pick message picked
  have sent : message ∈ system.sending := List.mem_of_getElem? picked
  obtain ⟨own, elsewhere⟩ := sending_apart cfg codec system data sound
  have out : message ∉ system.sending.eraseIdx pick := (List.nodup_cons.mp (perm.nodup_iff.mpr own)).1
  have unhandled : message ∉ system.took := fun member => elsewhere message sent (took_handled _ _ message member)
  apply answer_sound cfg codec system data sound message closed _
    (sound.made message (List.mem_append_left _ (List.mem_append_left _ sent))) (sound.unsent message sent)
    (iff_of_false (by simp [closed]) unhandled) (List.eraseIdx_sublist _ _) out
  · intro other member
    exact (List.mem_cons.mp (perm.mem_iff.mpr member)).symm
  · intro running
    rw [stopped] at running
    cases running

theorem receive_sound (message : Message) (waits : system.waits message = true) (sent : message ∉ system.sending)
    (next : System) (moves : (match system.service.runtime.replies.lookup message.reply with
      | some result => some (system.answer message (answerOf result))
      | none => if system.running then none else some (system.answer message closed)) = some next) :
    Sound cfg codec next data := by
  obtain ⟨made, waiting, _⟩ := (waits_iff system message).mp waits
  have apart : (system.service.handled.map Message.reply).Nodup := by
    have apart := sound.apart
    rw [System.places, List.map_append] at apart
    exact (List.nodup_append'.mp apart).2.1
  have same : ∀ other ∈ system.sending, other ∈ system.sending ∨ other = message := fun _ member => .inl member
  cases found : system.service.runtime.replies.lookup message.reply with
  | some result =>
      rw [found] at moves
      cases moves
      have listed : (message.reply, result) ∈ system.service.runtime.replies := by
        obtain ⟨before, after, split, _⟩ := List.lookup_eq_some_iff.mp found
        rw [split]
        exact List.mem_append_right _ List.mem_cons_self
      have handled := reply_handled cfg codec system data sound message made result listed
      have took : answerOf result = .ok true ↔ message ∈ system.took := by
        rw [answer_of_ok]
        exact (took_iff _ _ sound.persisted.answered apart message handled result listed).symm
      exact answer_sound cfg codec system data sound message (answerOf result) system.sending made waiting took
        (List.Sublist.refl _) sent same fun _ queued => queue_apart cfg codec system data sound message queued handled
  | none =>
      rw [found] at moves
      dsimp only at moves
      split at moves
      case isTrue => cases moves
      rename_i stopped
      cases moves
      have unanswered : message ∉ system.took := by
        intro member
        have handled := took_handled _ _ message member
        have listed : message.reply ∈ system.service.runtime.replies.map Prod.fst := by
          rw [sound.persisted.answered]
          exact List.mem_map_of_mem handled
        obtain ⟨⟨number, result⟩, sent, own⟩ := List.mem_map.mp listed
        have apart := List.lookup_eq_none_iff.mp found (number, result) sent
        dsimp only at own
        simp [own] at apart
      exact answer_sound cfg codec system data sound message closed system.sending made waiting
        (iff_of_false (by simp [closed]) unanswered) (List.Sublist.refl _) sent same fun running => absurd running stopped

theorem leave_sound (message : Message) : Sound cfg codec { system with
    sending := system.sending.erase message, gone := message :: system.gone } data := by
  have fewer : (system.sending.erase message).Sublist system.sending := List.erase_sublist
  have places : (system.sending.erase message ++ system.queue ++ system.service.handled).Sublist system.places :=
    (fewer.append_right system.queue).append_right system.service.handled
  constructor
  case persisted => exact sound.persisted
  case apart => exact (places.map Message.reply).nodup sound.apart
  case made => exact fun other member => sound.made other (places.subset member)
  case numbered => exact sound.numbered
  case own => exact sound.own
  case told => exact sound.told
  case once => exact sound.once
  case unsent => exact fun other member => sound.unsent other (fewer.subset member)
  case queued => exact sound.queued
  case placed =>
    intro other listed
    by_cases same : other = message
    · exact .inr (.inl (List.mem_cons.mpr (.inl same)))
    · refine (sound.placed other listed).imp (fun member => ?_) (Or.imp_left (List.mem_cons_of_mem message))
      simp only [System.places, List.mem_append] at member ⊢
      exact member.imp_left (Or.imp_left (List.mem_erase_of_ne same).mpr)
  case linear => exact sound.linear

theorem stop_sound : Sound cfg codec { system with running := false } data where
  persisted := sound.persisted
  apart := sound.apart
  made := sound.made
  numbered := sound.numbered
  own := sound.own
  told := sound.told
  once := sound.once
  unsent := sound.unsent
  queued := fun running => absurd running Bool.false_ne_true
  placed := sound.placed
  linear := sound.linear

theorem cancel_sound : Sound cfg codec { system with cancelled := true } data where
  persisted := sound.persisted
  apart := sound.apart
  made := sound.made
  numbered := sound.numbered
  own := sound.own
  told := sound.told
  once := sound.once
  unsent := sound.unsent
  queued := sound.queued
  placed := sound.placed
  linear := sound.linear

end Keep

section Serve

variable (cfg : SegmentLog.Config) (codec : Codec) (first : cfg.initalOffset = 1)

include first

theorem serve_replies (service next : Service) (message : Message) (data : List Bytes)
    (persisted : Persisted cfg codec service data) (room : service.runtime.world.log.roomFor (2 ^ 32) = true)
    (served : serve cfg codec service message = some next) :
    ∃ later result, Persisted cfg codec next later ∧ next.handled = message :: service.handled ∧
      next.runtime.replies = (message.reply, result) :: service.runtime.replies := by
  have moves := served
  rw [serve] at moves
  split at moves
  case isFalse => cases moves
  rename_i storable
  obtain ⟨_, stepped, _⟩ := Option.map_eq_some_iff.mp moves
  have ids := step_ids (backed cfg codec) service.runtime _ message stepped
  obtain ⟨after, later, ends, wrote⟩ := persisted_write cfg codec first service message data persisted room storable ids
  cases served.symm.trans (serve_ends cfg codec service message persisted.alone persisted.quiet ids storable after ends)
  cases ends with
  | notLeader => exact ⟨later, _, wrote, rfl, rfl⟩
  | unencoded => exact ⟨later, _, wrote, rfl, rfl⟩
  | unappended => exact ⟨later, _, wrote, rfl, rfl⟩
  | applies => exact ⟨later, _, wrote, rfl, rfl⟩

-- A write takes effect when the runtime handles it.
theorem handle_sound (system : System) (data : List Bytes) (sound : Sound cfg codec system data) (message : Message)
    (rest : List Message) (service : Service) (running : system.running = true) (queue : system.queue = message :: rest)
    (room : system.service.runtime.world.log.roomFor (2 ^ 32) = true)
    (served : serve cfg codec system.service message = some service) :
    ∃ later, Sound cfg codec { system with service := service, queue := rest } later := by
  obtain ⟨later, result, persisted, handled, replies⟩ :=
    serve_replies cfg codec first system.service service message data sound.persisted room served
  have queued : message ∈ system.queue := queue ▸ List.mem_cons_self
  have places : (system.sending ++ rest ++ service.handled).Perm system.places := by
    rw [handled, System.places, queue]
    simp only [List.append_assoc, List.cons_append]
    exact List.perm_middle.append_left system.sending
  refine ⟨later, ?_⟩
  constructor
  case persisted => exact persisted
  case apart => exact (places.map Message.reply).nodup_iff.mpr sound.apart
  case made => exact fun other member => sound.made other (places.mem_iff.mp member)
  case numbered => exact sound.numbered
  case own => exact sound.own
  case told => exact sound.told
  case once => exact sound.once
  case unsent => exact sound.unsent
  case queued => exact fun running other member => sound.queued running other (queue ▸ List.mem_cons_of_mem message member)
  case placed => exact fun other listed => (sound.placed other listed).imp_left places.mem_iff.mpr
  case linear =>
    rw [System.took, handled, replies, took_cons]
    split
    · apply linear_effect _ _ _ sound.linear message
      · exact sound.made message (List.mem_append_left _ (List.mem_append_right _ queued))
      · exact sound.queued running message queued
      · exact fun member => queue_apart cfg codec system data sound message queued (took_handled _ _ message member)
    · exact sound.linear

variable (capacity : Nat)

theorem sound_step (system next : System) (action : Action) (data : List Bytes) (sound : Sound cfg codec system data)
    (permitted : permits system action = true) (moves : step cfg codec capacity system action = some next) :
    ∃ later, Sound cfg codec next later := by
  cases action with
  | call command =>
      cases moves
      exact ⟨data, call_sound cfg codec system data sound command⟩
  | send pick =>
      simp only [step] at moves
      split at moves
      case isFalse => cases moves
      obtain ⟨message, picked, rfl⟩ := Option.map_eq_some_iff.mp moves
      exact ⟨data, send_sound cfg codec system data sound pick message picked⟩
  | refuse pick =>
      simp only [step] at moves
      split at moves
      case isTrue => cases moves
      rename_i stopped
      obtain ⟨message, picked, rfl⟩ := Option.map_eq_some_iff.mp moves
      exact ⟨data, refuse_sound cfg codec system data sound pick message (Bool.not_eq_true _ ▸ stopped) picked⟩
  | handle =>
      simp only [step] at moves
      split at moves
      case h_2 => cases moves
      rename_i message rest running queue
      obtain ⟨service, served, rfl⟩ := Option.map_eq_some_iff.mp moves
      exact handle_sound cfg codec first system data sound message rest service running queue permitted served
  | cancel =>
      cases moves
      exact ⟨data, cancel_sound cfg codec system data sound⟩
  | stop =>
      simp only [step] at moves
      split at moves
      case isFalse => cases moves
      cases moves
      exact ⟨data, stop_sound cfg codec system data sound⟩
  | receive message =>
      simp only [step] at moves
      split at moves
      case isFalse => cases moves
      rename_i ready
      obtain ⟨waits, sent⟩ := Bool.and_eq_true_iff.mp ready
      exact ⟨data, receive_sound cfg codec system data sound message waits (of_decide_eq_true sent) next moves⟩
  | leave message =>
      simp only [step] at moves
      split at moves
      case isFalse => cases moves
      cases moves
      exact ⟨data, leave_sound cfg codec system data sound message⟩

end Serve

section Return

variable (cfg : SegmentLog.Config) (codec : Codec) (capacity : Nat) (system : System)

def Returns (message : Message) : Prop :=
  ∃ action next, step cfg codec capacity system action = some next ∧ Told next.history message

theorem receives (message : Message) (waits : system.waits message = true) (sent : message ∉ system.sending)
    (ready : system.running = false ∨ ∃ result, (message.reply, result) ∈ system.service.runtime.replies) :
    Returns cfg codec capacity system message := by
  have goes : step cfg codec capacity system (.receive message) =
      match system.service.runtime.replies.lookup message.reply with
      | some result => some (system.answer message (answerOf result))
      | none => if system.running then none else some (system.answer message closed) :=
    if_pos (Bool.and_eq_true_iff.mpr ⟨waits, decide_eq_true sent⟩)
  have told : ∀ answer, Told (system.answer message answer).history message :=
    fun answer => ⟨answer, List.mem_cons_self⟩
  cases found : system.service.runtime.replies.lookup message.reply with
  | some result =>
      rw [found] at goes
      exact ⟨_, _, goes, told _⟩
  | none =>
      rw [found] at goes
      rcases ready with stopped | ⟨result, listed⟩
      · rw [stopped] at goes
        exact ⟨_, _, goes, told _⟩
      · have apart := List.lookup_eq_none_iff.mp found (message.reply, result) listed
        simp at apart

theorem stopped_returns (stopped : system.running = false) (message : Message) (waits : system.waits message = true) :
    Returns cfg codec capacity system message := by
  by_cases sent : message ∈ system.sending
  · obtain ⟨pick, picked⟩ := List.mem_iff_getElem?.mp sent
    have moves : step cfg codec capacity system (.refuse pick) = some { system with
        sending := system.sending.eraseIdx pick, history := .answered message closed :: system.history } := by
      simp only [step, stopped, picked, Option.map_some, Bool.false_eq_true, if_false]
    exact ⟨.refuse pick, _, moves, closed, List.mem_cons_self⟩
  · exact receives cfg codec capacity system message waits sent (.inl stopped)

variable (data : List Bytes) (sound : Sound cfg codec system data)

include sound

theorem handled_returns (message : Message) (handled : message ∈ system.service.handled)
    (waits : system.waits message = true) : Returns cfg codec capacity system message := by
  have listed : message.reply ∈ system.service.runtime.replies.map Prod.fst := by
    rw [sound.persisted.answered]
    exact List.mem_map_of_mem handled
  obtain ⟨⟨number, result⟩, replied, rfl⟩ := List.mem_map.mp listed
  obtain ⟨_, elsewhere⟩ := sending_apart cfg codec system data sound
  exact receives cfg codec capacity system message waits (fun sent => elsewhere message sent handled)
    (.inr ⟨result, replied⟩)

theorem queue_handled (first : cfg.initalOffset = 1) (message : Message) (rest : List Message)
    (running : system.running = true) (queue : system.queue = message :: rest)
    (room : system.service.runtime.world.log.roomFor (2 ^ 32) = true)
    (storable : storable codec system.service.runtime message = true) (ids : system.service.handled.length + 1 < u64Max) :
    ∃ next, step cfg codec capacity system .handle = some next := by
  rw [← sound.persisted.ids] at ids
  obtain ⟨service, _, served, _⟩ :=
    persisted_serves cfg codec first system.service message data sound.persisted room storable ids
  refine ⟨{ system with service := service, queue := rest }, ?_⟩
  simp only [step, running, queue, served, Option.map_some]

end Return

-- Every call returns at most once, with what became of it; the FSM is given the calls that
-- took effect, in an order that agrees with what the clients see of one another.
structure Linearizable (cfg : SegmentLog.Config) (codec : Codec) (capacity : Nat) (system : System) : Prop where
  once : (toldCalls system.history).Nodup
  order : Linear (· = .ok true) system.history system.took
  given : system.service.runtime.world.given = system.took.map Message.data
  handled : ∀ message ∈ system.service.handled, system.waits message = true → Returns cfg codec capacity system message
  stopped : system.running = false → ∀ message, system.waits message = true → Returns cfg codec capacity system message

def firstClients : System := ⟨tightStart, true, false, [], [], [], []⟩

def tightCalls : Machine System Action := machine tightConfig shortCodec 1 nodeA [nodeA] ⟨7, none⟩

def callsAfter (actions : List Action) : System := (execWhen tightCalls permits firstClients actions).getD firstClients

-- The second call overtakes the first, and the third comes too late.
def threeCalls : List Action :=
  [.call [1], .call [2], .send 1, .handle, .receive ⟨[2], 1⟩, .call [3], .send 0, .handle, .cancel, .stop,
    .receive ⟨[1], 0⟩, .refuse 0]

end RaftLog.Calls
