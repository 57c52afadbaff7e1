import OfflineChat.Proofs.Repository.Operations
import OfflineChat.Proofs.Sync.CompletePass
import OfflineChat.Proofs.Sync.Course

/-! # Messages that have failed for good

A message that has failed for good is not selected by any pass, so only an operation of the
application can give it another status. Main definitions: `Operation.Unsettles`, when an operation
does so, and `Client.HasFailed`. Main statements: a message keeps its status as long as no operation
unsettles it, and no longer; and the report of a failed upload unsettles it exactly if the error is
not permanent (`Client.failed_stays_iff`). -/

set_option autoImplicit false

namespace OfflineChat

/-! ## Operations that unsettle a message -/

namespace Operation

/-- The operation gives the message of an id another status than the one of a permanent failure, or
removes it. -/
def Unsettles (id : String) (r : Replica) (op : Operation) : Prop :=
  (op = .clearMessages ∧ r.faults .deleteMessages = none) ∨
    -- of several messages of the id the last one stays
    ∃ m, (op.storedMessages r).reverse.find? (fun m => m.id == id) = some m ∧
      m.syncStatus ≠ .failedPermanently

/-- The report of a failed upload succeeds exactly if it stores the message. -/
theorem storedMessages_sendResult (classifier : Classifier) (now : Instant) (m : Message)
    (error : RemoteError) (r : Replica) :
    ((AttachmentSend.onResult classifier now m (.error error) r).1 = .ok () ∧
        (sendResult classifier now m (.error error)).storedMessages r
          = [m.afterFailedSend classifier now error]) ∨
      ((AttachmentSend.onResult classifier now m (.error error) r).1 ≠ .ok () ∧
        (sendResult classifier now m (.error error)).storedMessages r = []) := by
  let failed := m.afterFailedSend classifier now error
  have hfaults := (Users.insert_leaves failed.users r).1
  rw [AttachmentSend.onResult_error, storedMessages]
  cases husers : r.faults (.putUsers (failed.users.map User.id)) with
  | some e => exact .inr ⟨by simp, rfl⟩
  | none =>
      simp only [Option.elim_none, Option.isNone_none, if_true]
      rw [Messages.insertMessage_fst, hfaults]
      cases hmessage : r.faults (.putMessages [failed.id]) with
      | some e => exact .inr ⟨by simp, rfl⟩
      | none => exact .inl ⟨rfl, rfl⟩

/-- The report of a failed upload unsettles the message if it succeeds and the error is not
permanent. -/
theorem unsettles_sendResult_iff (id : String) (r : Replica) (classifier : Classifier)
    (now : Instant) (m : Message) (error : RemoteError) :
    (sendResult classifier now m (.error error)).Unsettles id r ↔
      m.id = id ∧ classifier error m.cid = false ∧
        (AttachmentSend.onResult classifier now m (.error error) r).1 = .ok () := by
  have hid : (m.afterFailedSend classifier now error).id = m.id := rfl
  have hstatus : (m.afterFailedSend classifier now error).syncStatus
      = if classifier error m.cid then .failedPermanently else .syncNeeded := rfl
  unfold Unsettles
  rw [or_iff_right fun h => by cases h.1]
  rcases storedMessages_sendResult classifier now m error r with ⟨hok, hstored⟩ | ⟨hne, hstored⟩
  · rw [hstored, hok]
    by_cases hm : m.id = id <;> cases hc : classifier error m.cid <;>
      simp [hid, hm, hstatus, hc]
  · rw [hstored]
    simp [hne]

end Operation

/-! ## Courses of passes over the messages -/

namespace Client

variable {ρ : Type} {remote : Remote ρ}

/-- The message of an id is stored as one that has failed for good. -/
def HasFailed (id : String) (c : Client ρ) : Prop :=
  ∃ row, c.replica.database.messages.get? id = some row ∧
    row.messageStatus = .integer SyncStatus.failedPermanently.code

/-- A failed message does not wait. -/
theorem HasFailed.not_mem_waiting {id : String} {c : Client ρ} (h : c.HasFailed id) :
    id ∉ ((messageBacking remote).waiting c).map key := by
  obtain ⟨row, hrow, hstatus⟩ := h
  intro hk
  have hwaits : row.messageStatus = .integer SyncStatus.syncNeeded.code :=
    (Backing.status_iff_mem_waiting (B := messageBacking remote) hrow).2 hk
  exact absurd (hwaits.symm.trans hstatus) (by decide)

theorem hasFailed_congr {id : String} {c c' : Client ρ}
    (h : c'.replica.database.messages.get? id = c.replica.database.messages.get? id) :
    c'.HasFailed id ↔ c.HasFailed id := by
  unfold HasFailed
  rw [h]

/-- Removing the messages removes them unless the medium fails. -/
theorem messages_clear (r : Replica) :
    (Operation.clearMessages.apply r).database.messages
      = if (r.faults .deleteMessages).isNone then .empty else r.database.messages := by
  rw [Operation.apply, Messages.database_clear]
  split <;> rfl

/-- A failed message stays one under an operation exactly if the operation does not unsettle it. -/
theorem hasFailed_operation_iff {id : String} {c : Client ρ} (h : c.HasFailed id)
    (op : Operation) : (c.outside (.operation op)).HasFailed id ↔ ¬op.Unsettles id c.replica := by
  obtain ⟨row, hrow, hstatus⟩ := h
  by_cases hclear : op = .clearMessages
  · subst hclear
    have hmessages := messages_clear c.replica
    cases hf : c.replica.faults .deleteMessages with
    | some e =>
        rw [hf] at hmessages
        refine iff_of_true ⟨row, ?_, hstatus⟩ ?_
        · exact (congrArg (Table.get? · id) hmessages).trans hrow
        · rintro (⟨_, hnone⟩ | ⟨m, hm, _⟩)
          · exact absurd (hf.symm.trans hnone) (by simp)
          · exact absurd hm (by simp [Operation.storedMessages])
    | none =>
        rw [hf] at hmessages
        refine iff_of_false ?_ (not_not_intro (.inl ⟨rfl, hf⟩))
        rintro ⟨row', hrow', _⟩
        exact absurd ((congrArg (Table.get? · id) hmessages).symm.trans hrow') (by simp)
  · have hmessages := congrArg (Table.get? · id) (Operation.messages_apply hclear c.replica)
    have hfind : ((op.storedMessages c.replica).map Message.toRow).reverse.find?
        (fun row => key row == id)
        = ((op.storedMessages c.replica).reverse.find? fun m => m.id == id).map Message.toRow := by
      rw [← List.map_reverse, List.find?_map]
      rfl
    simp only [Table.get?_putAll, hfind] at hmessages
    unfold Operation.Unsettles HasFailed
    rw [or_iff_right fun h => hclear h.1]
    cases hm : (op.storedMessages c.replica).reverse.find? fun m => m.id == id with
    | none =>
        rw [hm] at hmessages
        refine iff_of_true ⟨row, hmessages.trans hrow, hstatus⟩ ?_
        rintro ⟨m, h, _⟩
        cases h
    | some m =>
        rw [hm] at hmessages
        constructor
        · rintro ⟨row', hrow', hstatus'⟩ ⟨m', hm', hne⟩
          obtain rfl := Option.some.inj hm'
          obtain rfl : m.toRow = row' := Option.some.inj (hmessages.symm.trans hrow')
          exact hne (SyncStatus.code_injective (Cell.integer.inj hstatus'))
        · intro hnot
          refine ⟨m.toRow, hmessages, ?_⟩
          have hfailed : m.syncStatus = .failedPermanently := by
            by_contra hne
            exact hnot ⟨m, rfl, hne⟩
          rw [messageStatus_toRow, hfailed]

/-! ## The status of a failed message -/

/-- A failed message that is not on the page under way. -/
structure StaysFailed (id : String) (r : RetryCourse (Client ρ) Message) : Prop where
  hasFailed : r.state.HasFailed id
  not_mem_page : id ∉ r.pass.page.map key

theorem staysFailed_step {id : String} {r : RetryCourse (Client ρ) Message}
    (h : StaysFailed id r) : StaysFailed id (r.next (messageExchange remote) outside .step) := by
  obtain ⟨hpage, hrow⟩ := Backing.not_mem_page_turn h.not_mem_page h.hasFailed.not_mem_waiting
    (Backing.turn_step (messageBacking remote) r.rules r.pass r.state)
  exact ⟨(hasFailed_congr hrow).2 h.hasFailed, hpage⟩

/-- The event is an operation that unsettles a message. -/
def IsUnsettled (id : String) (r : RetryCourse (Client ρ) Message)
    (event : RetryEvent (Outside ρ)) : Prop :=
  ∃ op : Operation, event = .others (.operation op) ∧ op.Unsettles id r.state.replica

theorem staysFailed_next {id : String} {r : RetryCourse (Client ρ) Message}
    (h : StaysFailed id r) {event : RetryEvent (Outside ρ)} (hevent : ¬IsUnsettled id r event) :
    StaysFailed id (r.next (messageExchange remote) outside event) := by
  cases event with
  | start rules => exact ⟨h.hasFailed, by simp [RetryCourse.next]⟩
  | step => exact staysFailed_step h
  | others what =>
      refine ⟨?_, h.not_mem_page⟩
      cases what with
      | operation op =>
          exact (hasFailed_operation_iff h.hasFailed op).2 fun hop => hevent ⟨op, rfl, hop⟩
      | circumstance change => cases change <;> exact h.hasFailed

/-- **A message that has failed for good stays so until an operation unsettles it.** The report of a
failed upload does so if it succeeds and its error is not permanent, whatever the status of the
message that it is made with. -/
theorem failed_stays_iff (remote : Remote ρ) (id : String) (r : RetryCourse (Client ρ) Message)
    (hfailed : r.state.HasFailed id) (hpage : id ∉ r.pass.page.map key)
    (events : List (RetryEvent (Outside ρ))) :
    ((∀ n, (r.run (messageExchange remote) outside (events.take n)).state.HasFailed id) ↔
      ∀ n event, events[n]? = some event →
        ¬IsUnsettled id (r.run (messageExchange remote) outside (events.take n)) event) ∧
    ∀ (r : Replica) (classifier : Classifier) (now : Instant) (m : Message) (error : RemoteError),
      (Operation.sendResult classifier now m (.error error)).Unsettles id r ↔
        m.id = id ∧ classifier error m.cid = false ∧
          (AttachmentSend.onResult classifier now m (.error error) r).1 = .ok () := by
  refine ⟨⟨fun hstays n event hevent => ?_, fun hsettled n => ?_⟩,
    Operation.unsettles_sendResult_iff id⟩
  · rintro ⟨op, rfl, hop⟩
    -- such an operation would be seen one event later
    have hnext := hstays (n + 1)
    rw [List.take_add_one, hevent, Option.toList_some, RetryCourse.run_append] at hnext
    exact (hasFailed_operation_iff (hstays n) op).1 hnext hop
  · have hboth : ∀ n, StaysFailed id (r.run (messageExchange remote) outside (events.take n)) := by
      intro n
      induction n with
      | zero => exact ⟨hfailed, hpage⟩
      | succ n ih =>
          cases hevent : events[n]? with
          | none => rwa [List.take_add_one, hevent, Option.toList_none, List.append_nil]
          | some event =>
              rw [List.take_add_one, hevent, Option.toList_some, RetryCourse.run_append]
              exact staysFailed_next ih (hsettled n event hevent)
    exact (hboth n).hasFailed

/-- A message that has failed for good. -/
def failedMessage : Message :=
  { (default : Message) with
    id := "m", cid := "team:b", user := .new "u", syncStatus := .failedPermanently }

/-- No pass is under way on a client whose only message has failed for good. -/
def withFailed : RetryCourse (Client Unit) Message :=
  .new ⟨50, none, .standard, .epoch⟩
    (.new (.new ((Database.create none).putMessages [failedMessage]) none 1 1 1) ())

/-- A pass, and the report of an upload that was rejected, leave the message as it is. -/
theorem failed_stays_withFailed :
    (withFailed.run (messageExchange (.stateless .ok .ok)) outside
      [.start ⟨50, none, .standard, .epoch⟩, .step, .others (.operation
        (.sendResult (fun _ _ => true) .epoch failedMessage (.error .timeout)))]
      ).state.HasFailed "m" := by
  have hstays := failed_stays_iff (.stateless .ok .ok) "m" withFailed
    ⟨failedMessage.toRow, rfl, rfl⟩ List.not_mem_nil
    [.start ⟨50, none, .standard, .epoch⟩, .step, .others (.operation
      (.sendResult (fun _ _ => true) .epoch failedMessage (.error .timeout)))]
  refine hstays.1.2 (fun n event hevent => ?_) 3
  rintro ⟨op, rfl, hop⟩
  obtain rfl : op = .sendResult (fun _ _ => true) .epoch failedMessage (.error .timeout) := by
    match n, hevent with
    | 2, hevent => simpa using hevent.symm
  exact absurd ((hstays.2 _ _ _ _ _).1 hop).2.1 (by decide)

/-- **The report of an upload that timed out lets a failed message wait again**, although it is made
with the failed message itself. -/
theorem failed_waits_again :
    failedMessage.syncStatus = .failedPermanently ∧ withFailed.state.HasFailed "m" ∧
      ∃ row, (withFailed.run (messageExchange (.stateless .ok .ok)) outside
          [.others (.operation (.sendResult .standard .epoch failedMessage (.error .timeout)))]
          ).state.replica.database.messages.get? "m" = some row ∧
        row.messageStatus = .integer SyncStatus.syncNeeded.code :=
  ⟨rfl, ⟨failedMessage.toRow, rfl, rfl⟩,
    (failedMessage.afterFailedSend .standard .epoch .timeout).toRow, rfl, rfl⟩

end Client

end OfflineChat
