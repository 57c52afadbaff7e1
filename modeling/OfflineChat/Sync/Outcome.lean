import OfflineChat.Entity.Channel
import OfflineChat.Entity.Message
import OfflineChat.Remote.Error

/-! # Outcomes of submissions

Messages and channels share what a sync pass does with them: they have a key, belong to a channel
and carry a status. Main definitions: the class `Syncable`, and `Outcome.resolve`, which turns the
answer of the remote service into the entity to be stored. Main statements: no outcome changes the
key (`key_entity_resolve`), and an entity that has failed for good stays as it is
(`resolve_of_isTerminal`). -/

set_option autoImplicit false

namespace OfflineChat

/-- An entity that is uploaded to the remote service. -/
class Syncable (ε : Type) extends Keyed ε where
  /-- The channel it belongs to. -/
  cid : ε → String
  status : ε → SyncStatus
  withStatus : ε → SyncStatus → ε
  /-- The entity after a permanent rejection, with its reason and time. -/
  rejected : ε → String → Instant → ε
  /-- The entity after a local edit, which lets it enter the sync cycle again. -/
  edited : ε → Instant → ε
  key_withStatus : ∀ e s, key (withStatus e s) = key e
  key_rejected : ∀ e r t, key (rejected e r t) = key e
  key_edited : ∀ e t, key (edited e t) = key e
  status_withStatus : ∀ e s, status (withStatus e s) = s
  status_rejected : ∀ e r t, status (rejected e r t) = .failedPermanently
  status_edited : ∀ e t, status (edited e t) = .syncNeeded

/-- A rejected message keeps the reason; an edited one forgets it. -/
instance : Syncable Message where
  cid m := m.cid
  status m := m.syncStatus
  withStatus m s := { m with syncStatus := s }
  rejected m reason now :=
    { m with
      syncStatus := .failedPermanently, syncDescription := some reason
      updatedLocallyAt := some now }
  edited m now :=
    { m with syncStatus := .syncNeeded, syncDescription := none, updatedLocallyAt := some now }
  key_withStatus _ _ := rfl
  key_rejected _ _ _ := rfl
  key_edited _ _ := rfl
  status_withStatus _ _ := rfl
  status_rejected _ _ _ := rfl
  status_edited _ _ := rfl

/-- A channel has nothing but its status to tell. -/
instance : Syncable Channel where
  cid c := c.cid
  status c := c.syncStatus
  withStatus c s := { c with syncStatus := s }
  rejected c _ _ := { c with syncStatus := .failedPermanently }
  edited c _ := { c with syncStatus := .syncNeeded }
  key_withStatus _ _ := rfl
  key_rejected _ _ _ := rfl
  key_edited _ _ := rfl
  status_withStatus _ _ := rfl
  status_rejected _ _ _ := rfl
  status_edited _ _ := rfl

attribute [simp] Syncable.key_withStatus Syncable.key_rejected Syncable.key_edited
  Syncable.status_withStatus Syncable.status_rejected Syncable.status_edited

/-- What the remote service says to a submission. -/
abbrev Answer (ε : Type) := Except RemoteError ε

/-- Where a submission left its entity. -/
inductive Outcome (ε : Type) where
  | completed (e : ε)
  | failedPermanently (e : ε)
  | pending (e : ε)

namespace Outcome

variable {ε : Type}

/-- The entity to be stored. -/
def entity : Outcome ε → ε
  | completed e => e
  | failedPermanently e => e
  | pending e => e

variable [Syncable ε]

/-- Applies an answer to a local entity. An acknowledgement replaces the entity only if it has its
key; a failure is permanent if the classifier says so for the entity's channel. An entity that has
failed for good stays as it is. -/
def resolve (classifier : Classifier) (now : Instant) (e : ε) (answer : Answer ε) : Outcome ε :=
  if (Syncable.status e).isTerminal then failedPermanently e
  else
    match answer with
    | .ok acknowledged =>
        if key acknowledged = key e then completed (Syncable.withStatus acknowledged .completed)
        else completed (Syncable.withStatus e .completed)
    | .error error =>
        if classifier error (Syncable.cid e) then
          failedPermanently (Syncable.rejected e error.reason now)
        else pending (Syncable.withStatus e .syncNeeded)

theorem resolve_of_isTerminal {classifier : Classifier} {now : Instant} {e : ε}
    (answer : Answer ε) (h : (Syncable.status e).isTerminal = true) :
    resolve classifier now e answer = failedPermanently e := by
  simp [resolve, h]

@[simp] theorem key_entity_resolve (classifier : Classifier) (now : Instant) (e : ε)
    (answer : Answer ε) : key (resolve classifier now e answer).entity = key e := by
  unfold resolve
  split
  · rfl
  · split
    · split
      · next h => simpa [entity] using h
      · simp [entity]
    · split <;> simp [entity]

end Outcome

end OfflineChat
