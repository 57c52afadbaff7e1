import OfflineChat.Sync.Service

/-! # A simulated service

A remote service that acknowledges every submission, or rejects every `n`-th one. Its state is the
number of submissions so far. -/

set_option autoImplicit false

namespace OfflineChat.Backend

/-- The rejection of a submission, if it is one of those to be rejected. -/
def rejection? (failEvery : Option Nat) (submission : Nat) : Option RemoteError :=
  match failEvery with
  | some k =>
      if 0 < k ∧ submission % k = 0 then
        some (.network RemoteError.moderationCode 400
          s!"submission {submission} rejected by simulated backend")
      else none
  | none => none

/-- The answer to a submission, whose acknowledgement is given. -/
def answer {ε : Type} (failEvery : Option Nat) (acknowledged : ε) (submissions : Nat) :
    Option (Answer ε) × Nat :=
  match rejection? failEvery (submissions + 1) with
  | some e => (some (.error e), submissions + 1)
  | none => (some (.ok acknowledged), submissions + 1)

/-- The service; it dates what it acknowledges. -/
def service (failEvery : Option Nat) (now : Instant) : Remote Nat where
  sendMessage m := answer failEvery { m with createdAt := some now, updatedAt := some now }
  updateChannel c := answer failEvery { c with updatedAt := some now }

end OfflineChat.Backend
