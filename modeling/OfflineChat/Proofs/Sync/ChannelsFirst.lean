import Mathlib.Data.List.Nodup
import OfflineChat.Proofs.Sync.CompletePass

/-! # Channels first

A sync pass deals with the waiting channels before it hands over any message, but it goes on to the
messages when channels are left waiting. Main definitions: `SyncPass.sends`, the messages that the
next step hands over, and `Backing.LeavesWaiting`, when a row is left waiting. Main statement: when
a message is handed over, its channel waits exactly if the pass over the channels has left it so
(`SyncPass.channel_waits_iff`). -/

set_option autoImplicit false

namespace OfflineChat

/-! ## Rows that are left waiting -/

namespace Backing

open RetryPass

variable {σ ε ρ : Type} [Syncable ε] {x : Exchange σ ε}

/-- A pass from `s` leaves the row of a key waiting: the row waits and the budget does not reach it,
or its submission fails in a way that is not permanent. -/
def LeavesWaiting (B : Backing x ρ) (rules : SyncRules) (s : σ) (k : String) : Prop :=
  k ∈ ((B.waiting s).drop (rules.scope (B.waiting s).length)).map key ∨
    ∃ e error, (e, some (.error error)) ∈ (B.submissions s (rules.scope (B.waiting s).length)).1 ∧
      key e = k ∧ rules.classifier error (Syncable.cid e) = false

variable {B : Backing x ρ} {rules : SyncRules} {s₀ s : σ}

/-- After a pass a row waits exactly if the pass has left it waiting. -/
theorem status_of_finished {report : RetryReport} (h : B.Inv rules s₀ (.finished (.ok report)) s)
    {k : String} {row : Row} (hrow : (B.rows s).get? k = some row) :
    B.statusCell row = .integer SyncStatus.syncNeeded.code ↔ B.LeavesWaiting rules s₀ k := by
  obtain ⟨pages, outcomes, hh, hw, _⟩ := h
  obtain ⟨answered, rfl, hsettled⟩ := Settled.of_written hh hw
  unfold LeavesWaiting
  generalize rules.scope (B.waiting s₀).length = d at *
  have hasc : Ascending ((B.waiting s₀).take d ++ (B.waiting s₀).drop d) := by
    rw [List.take_append_drop]
    exact ascending_waiting s₀
  have hnodup := hasc.nodup_keys
  rw [List.map_append, List.nodup_append] at hnodup
  rw [hsettled.pairs_eq]
  by_cases hk : k ∈ ((B.waiting s₀).take d).map key
  · -- the row was submitted, and has the status that the answer decided
    have hnot : k ∉ ((B.waiting s₀).drop d).map key := fun hd => hnodup.2.2 k hk k hd rfl
    rw [← hsettled.applied.keys_eq] at hk
    obtain ⟨⟨e, answer⟩, hp, rfl⟩ := List.mem_map.1 hk
    have hstored := hsettled.applied.get?_of_mem hp
    rw [hrow, Option.some.injEq] at hstored
    rw [hstored, B.status_toRow, hsettled.status_of_mem hp]
    have hsame : ∀ q ∈ answered, key q.1 = key e → q = (e, answer) := fun q hq hkey =>
      List.inj_on_of_nodup_map hsettled.applied.nodup_keys hq hp hkey
    constructor
    · intro hcode
      have hneeded := SyncStatus.code_injective (Cell.integer.inj hcode)
      cases answer with
      | ok acknowledged => exact absurd hneeded (by simp)
      | error error =>
          refine .inr ⟨e, error, List.mem_map.2 ⟨_, hp, rfl⟩, rfl, ?_⟩
          by_contra hpermanent
          have htrue : rules.classifier error (Syncable.cid e) = true := by simpa using hpermanent
          simp [htrue] at hneeded
    · rintro (hd | ⟨e', error, hm, hkey, hclass⟩)
      · exact absurd hd hnot
      · obtain ⟨q, hq, hpair⟩ := List.mem_map.1 hm
        obtain ⟨rfl, hanswer⟩ := Prod.mk.inj hpair
        have hqe := hsame q hq hkey
        subst hqe
        obtain rfl : answer = .error error := Option.some.inj hanswer
        simp [hclass]
  · -- the row was not submitted and is as it was
    have hold := hsettled.applied.get?_of_not_mem hk
    rw [hrow] at hold
    rw [status_iff_mem_waiting hold.symm, ← List.take_append_drop d (B.waiting s₀),
      List.map_append, List.mem_append, List.take_append_drop]
    constructor
    · rintro (hm | hm)
      · exact absurd hm hk
      · exact .inl hm
    · rintro (hm | ⟨e, error, hm, hkey, _⟩)
      · exact .inr hm
      · obtain ⟨q, hq, hpair⟩ := List.mem_map.1 hm
        obtain ⟨rfl, _⟩ := Prod.mk.inj hpair
        exact absurd (hsettled.applied.keys_eq ▸ List.mem_map.2 ⟨q, hq, hkey⟩) hk

end Backing

/-! ## Sync passes -/

namespace Client

variable {ρ : Type}

/-- The messages handed to the remote service, last first. -/
def sentMessages (c : Client ρ) : List Message := c.events.filterMap SyncEvent.sentMessage?

end Client

namespace SyncPass

variable {ρ : Type} {remote : Remote ρ} {rules : SyncRules}

/-- The messages that a pass hands to the remote service in its next step. -/
def sends : SyncPass → List Message
  | messages _ (.submitting page _) => page
  | _ => []

/-- What holds of a sync pass that started on `c₀` and has come to the client `c`. -/
def Inv (remote : Remote ρ) (rules : SyncRules) (c₀ : Client ρ) : SyncPass → Client ρ → Prop
  | channels pass, c => (Client.channelBacking remote).Inv rules c₀ pass c
  | messages report pass, c => ∃ c₁,
      (Client.channelBacking remote).Inv rules c₀ (.finished (.ok report)) c₁ ∧
        (Client.messageBacking remote).Inv rules (c₁.publish (.running .messages)) pass c
  | finished _, _ => True

theorem inv_start {c : Client ρ} (hidle : c.busy = false) :
    Inv remote rules (start c).2 (start c).1 (start c).2 := by
  simp only [start, hidle, Bool.false_eq_true, if_false]
  exact (Client.channelBacking remote).inv_start rules _

theorem inv_step {c₀ c : Client ρ} {pass : SyncPass} (h : Inv remote rules c₀ pass c) :
    Inv remote rules c₀ (step remote rules pass c).1 (step remote rules pass c).2 := by
  cases pass with
  | channels pass =>
      have hnext := Backing.inv_step (B := Client.channelBacking remote) h
      simp only [step]
      split
      · next report c' hstep =>
        rw [hstep] at hnext
        exact ⟨c', hnext, (Client.messageBacking remote).inv_start rules _⟩
      · exact trivial
      · next pass' c' _ _ hstep =>
        rw [hstep] at hnext
        exact hnext
  | messages report pass =>
      obtain ⟨c₁, hchannels, hmessages⟩ := h
      have hnext := Backing.inv_step hmessages
      simp only [step]
      split
      · exact trivial
      · exact trivial
      · next pass' c' _ _ hstep =>
        rw [hstep] at hnext
        exact ⟨c₁, hchannels, hnext⟩
  | finished result => exact trivial

theorem inv_run {c₀ : Client ρ} (n : Nat) {c : Client ρ} {pass : SyncPass}
    (h : Inv remote rules c₀ pass c) :
    Inv remote rules c₀ (pass.run remote rules n c).1 (pass.run remote rules n c).2 := by
  induction n generalizing pass c with
  | zero => exact h
  | succ n ih => exact ih (inv_step h)

theorem sentMessages_step (remote : Remote ρ) (rules : SyncRules) (pass : SyncPass)
    (c : Client ρ) : (step remote rules pass c).2.sentMessages
      = pass.sends.reverse ++ c.sentMessages := by
  cases pass with
  | channels pass =>
      have hkeeps : (pass.step (Client.channelExchange remote) rules c).2.sentMessages
          = c.sentMessages :=
        RetryPass.step_keeps Client.sentMessages (fun _ _ _ => rfl) (fun _ _ => rfl) rules pass c
          fun page _ _ => RetryPass.submitAll_keeps _ (fun _ _ => rfl) page c
      simp only [step]
      split <;> (next hstep => rw [hstep] at hkeeps; exact hkeeps)
  | messages report pass =>
      have hsent : (pass.step (Client.messageExchange remote) rules c).2.sentMessages
          = (messages report pass).sends.reverse ++ c.sentMessages := by
        cases pass with
        | submitting page progress =>
            exact ((Client.messageBacking remote).submitAll_spec page c).2.2.2.1
        | _ =>
            exact RetryPass.step_keeps Client.sentMessages (fun _ _ _ => rfl) (fun _ _ => rfl)
              rules _ c fun _ _ h => nomatch h
      rw [← hsent]
      simp only [step]
      split <;> (next hstep => rw [hstep]; try rfl)
  | finished result => rfl

/-- **When a message is handed over, its channel waits exactly if the pass has left it waiting.** -/
theorem channel_waits_iff (remote : Remote ρ) (rules : SyncRules) (c : Client ρ)
    (hidle : c.busy = false) (n : Nat) :
    let reached := (start c).1.run remote rules n (start c).2
    (step remote rules reached.1 reached.2).2.sentMessages
        = reached.1.sends.reverse ++ reached.2.sentMessages ∧
      ∀ m ∈ reached.1.sends, ∀ row,
        reached.2.replica.database.channels.get? m.cid = some row →
        (row.channelStatus = .integer SyncStatus.syncNeeded.code ↔
          (Client.channelBacking remote).LeavesWaiting rules c m.cid) := by
  intro reached
  refine ⟨sentMessages_step _ _ _ _, fun m hm row hrow => ?_⟩
  have hinv : Inv remote rules (start c).2 reached.1 reached.2 := inv_run n (inv_start hidle)
  generalize reached = reached at *
  obtain ⟨pass, c'⟩ := reached
  cases pass with
  | messages report pass =>
      obtain ⟨c₁, hchannels, hmessages⟩ := hinv
      have hframe := Backing.frame_eq_of_inv hmessages
      have htable : c'.replica.database.channels = c₁.replica.database.channels :=
        congrArg (fun frame => frame.others.channels) hframe
      rw [htable] at hrow
      have hstatus := Backing.status_of_finished hchannels hrow
      simp only [start, hidle, Bool.false_eq_true, if_false] at hstatus
      exact hstatus
  | _ => exact absurd hm (by simp [sends])

/-- A channel that waits. -/
def waitingChannel (id : String) : Channel :=
  { Channel.new "team" id with syncStatus := .syncNeeded }

/-- A message that waits in the channel `b`. -/
def waitingMessage : Message :=
  { (default : Message) with
    id := "m", cid := "team:b", user := .new "u", syncStatus := .syncNeeded }

/-- A client with two waiting channels and a waiting message in the second one, whose author is
cached. -/
def waitingInChannel : Client Unit :=
  let database := ((Database.create none).putChannels
    [waitingChannel "a", waitingChannel "b"]).putMessages [waitingMessage]
  .new { Replica.new database none 1 1 1 with users := (EntityCache.new 1).put (.new "u") } ()

/-- A budget of one page that holds one channel leaves the second channel waiting, and the message
in it is handed over all the same. -/
theorem channel_waits_waitingInChannel :
    (Client.channelBacking (.stateless .ok .ok)).LeavesWaiting ⟨1, some 1, .standard, .epoch⟩
      waitingInChannel "team:b" := by
  obtain ⟨_, hwaits⟩ := channel_waits_iff (.stateless .ok .ok) ⟨1, some 1, .standard, .epoch⟩
    waitingInChannel rfl 5
  have hsent : waitingMessage ∈ [waitingMessage] := List.mem_singleton.2 rfl
  exact (hwaits waitingMessage hsent (waitingChannel "b").toRow rfl).1 rfl

/-- The same happens without a budget when the updates of the channels time out. -/
theorem message_before_channel :
    let remote : Remote Unit := .stateless .ok fun _ => .error .timeout
    let rules : SyncRules := ⟨2, none, .standard, .epoch⟩
    let reached := (start waitingInChannel).1.run remote rules 5 (start waitingInChannel).2
    ∃ m ∈ reached.1.sends, ∃ row,
      reached.2.replica.database.channels.get? m.cid = some row ∧
        row.channelStatus = .integer SyncStatus.syncNeeded.code := by
  have hsent : waitingMessage ∈ [waitingMessage] := List.mem_singleton.2 rfl
  exact ⟨waitingMessage, hsent, (waitingChannel "b").toRow, rfl, rfl⟩

end SyncPass

end OfflineChat
