/-! # Sync status

Whether the local state of an entity has reached the remote service. Main definition: `SyncStatus`
with the three ways it is written: a code in tables, a name in documents, a label in listings. Main
statements: code and name are read back (`ofCode?_code`, `ofName?_name`), and no other code is read
(`ofCode?_eq_some_iff`). -/

set_option autoImplicit false

namespace OfflineChat

/-- Where an entity stands between local change and remote acknowledgement. -/
inductive SyncStatus where
  /-- A local change waits to be uploaded. -/
  | syncNeeded
  /-- The remote service has acknowledged the entity. -/
  | completed
  /-- The remote service has rejected the entity for good. -/
  | failedPermanently
  /-- A submission of the entity has not returned yet. -/
  | inProgress
  /-- The attachments of the entity are still being uploaded. -/
  | awaitingAttachments
  deriving DecidableEq, Inhabited

namespace SyncStatus

/-- The code that tables hold. -/
def code : SyncStatus → Int
  | syncNeeded => -1
  | completed => 1
  | failedPermanently => 2
  | inProgress => 3
  | awaitingAttachments => 4

/-- The status with this code. -/
def ofCode? (code : Int) : Option SyncStatus :=
  if code = -1 then some syncNeeded
  else if code = 1 then some completed
  else if code = 2 then some failedPermanently
  else if code = 3 then some inProgress
  else if code = 4 then some awaitingAttachments
  else none

@[simp] theorem ofCode?_code (s : SyncStatus) : ofCode? s.code = some s := by
  cases s <;> rfl

theorem ofCode?_eq_some_iff {code : Int} {s : SyncStatus} :
    ofCode? code = some s ↔ s.code = code := by
  constructor
  · intro h
    unfold ofCode? at h
    repeat' split at h
    all_goals first | (simp only [Option.some.injEq] at h; subst h; simp_all [SyncStatus.code]) |
      exact absurd h (by simp)
  · rintro rfl
    exact ofCode?_code s

theorem code_injective {s t : SyncStatus} (h : s.code = t.code) : s = t := by
  simpa using congrArg ofCode? h

/-- The name that documents hold. -/
def name : SyncStatus → String
  | syncNeeded => "SyncNeeded"
  | completed => "Completed"
  | failedPermanently => "FailedPermanently"
  | inProgress => "InProgress"
  | awaitingAttachments => "AwaitingAttachments"

/-- The status with this name. -/
def ofName? (name : String) : Option SyncStatus :=
  if name = "SyncNeeded" then some syncNeeded
  else if name = "Completed" then some completed
  else if name = "FailedPermanently" then some failedPermanently
  else if name = "InProgress" then some inProgress
  else if name = "AwaitingAttachments" then some awaitingAttachments
  else none

@[simp] theorem ofName?_name (s : SyncStatus) : ofName? s.name = some s := by
  cases s <;> decide

/-- The label that listings show. -/
def label : SyncStatus → String
  | syncNeeded => "SYNC_NEEDED"
  | completed => "COMPLETED"
  | failedPermanently => "FAILED_PERMANENTLY"
  | inProgress => "IN_PROGRESS"
  | awaitingAttachments => "AWAITING_ATTACHMENTS"

/-- Only a permanent failure is never left by another submission. -/
def isTerminal (s : SyncStatus) : Bool := s == failedPermanently

end SyncStatus

end OfflineChat
