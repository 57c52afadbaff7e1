import OfflineChat.Proofs.Sync.CompletePass

/-! # Whole sync passes

A sync pass is a pass over the channels and then, in the state that this one leaves, a pass over the
messages. Main definitions: `Client.submissions`, all that a client has handed to the remote
service, and `WholePass`, what a sync pass comes to that nothing keeps from ending. Main statement:
without a budget, with a service that answers and a database that can be read, a sync pass is such
a pass (`Client.exists_wholePass`). -/

set_option autoImplicit false

namespace OfflineChat

/-! ## Logs of submissions -/

/-- A log gets an entry for each entity that is submitted, last first, and no other entry. -/
structure Exchange.Logs {σ ε β : Type} (x : Exchange σ ε) (entry : ε → β) (log : σ → List β) :
    Prop where
  select_eq : ∀ after limit s, log (x.select after limit s).2 = log s
  submit_eq : ∀ e s, log (x.submit e s).2 = entry e :: log s
  write_eq : ∀ es s, log (x.write es s).2 = log s

namespace RetryPass

variable {σ ε β : Type} {x : Exchange σ ε} {entry : ε → β} {log : σ → List β}

theorem log_submitAll (h : x.Logs entry log) (es : List ε) (s : σ) :
    log (submitAll x.submit es s).2 = (es.map entry).reverse ++ log s := by
  induction es generalizing s with
  | nil => rfl
  | cons e es ih =>
      have hrest := ih (x.submit e s).2
      rw [h.submit_eq] at hrest
      rw [List.map_cons, List.reverse_cons, List.append_assoc]
      exact hrest

variable [Syncable ε]

/-- The entities that a pass submits in its next step. -/
def sends : RetryPass ε → List ε
  | submitting page _ => page
  | _ => []

/-- The entities that a pass submits in its next `n` steps. -/
def sent (x : Exchange σ ε) (rules : SyncRules) : Nat → RetryPass ε → σ → List ε
  | 0, _, _ => []
  | n + 1, pass, s => pass.sends ++ sent x rules n (step x rules pass s).1 (step x rules pass s).2

theorem log_step (h : x.Logs entry log) (rules : SyncRules) (pass : RetryPass ε) (s : σ) :
    log (step x rules pass s).2 = (pass.sends.map entry).reverse ++ log s := by
  cases pass with
  | submitting page progress => exact log_submitAll h page s
  | _ => exact step_keeps log h.select_eq h.write_eq rules _ s fun _ _ hpass => nomatch hpass

theorem log_run (h : x.Logs entry log) (rules : SyncRules) (n : Nat) (pass : RetryPass ε) (s : σ) :
    log (run x rules n pass s).2 = ((sent x rules n pass s).map entry).reverse ++ log s := by
  induction n generalizing pass s with
  | zero => rfl
  | succ n ih =>
      have hrest := ih (step x rules pass s).1 (step x rules pass s).2
      rw [log_step h] at hrest
      rw [sent, List.map_append, List.reverse_append, List.append_assoc]
      exact hrest

/-- What all steps keep, a run keeps. -/
theorem run_keeps {α : Type} (f : σ → α)
    (hselect : ∀ after limit s, f (x.select after limit s).2 = f s)
    (hsubmit : ∀ e s, f (x.submit e s).2 = f s) (hwrite : ∀ es s, f (x.write es s).2 = f s)
    (rules : SyncRules) (n : Nat) (pass : RetryPass ε) (s : σ) :
    f (run x rules n pass s).2 = f s := by
  induction n generalizing pass s with
  | zero => rfl
  | succ n ih =>
      have hstep : f (step x rules pass s).2 = f s :=
        step_keeps f hselect hwrite rules pass s fun page _ _ => submitAll_keeps f hsubmit page s
      exact (ih _ _).trans hstep

/-- A pass that has ended stays where it is. -/
theorem run_of_ended (rules : SyncRules) (n : Nat) (result : Except StoreError RetryReport)
    (s : σ) : run x rules n (finished result) s = (finished result, s) := by
  induction n with
  | zero => rfl
  | succ n ih => exact ih

end RetryPass

/-- What an event hands over. -/
def SyncEvent.submission? : SyncEvent → Option (Channel ⊕ Message)
  | published _ => none
  | sentMessage m => some (.inr m)
  | updatedChannel c => some (.inl c)

namespace Client

variable {ρ : Type}

/-- All that a client has handed to the remote service, last first. -/
def submissionLog (c : Client ρ) : List (Channel ⊕ Message) :=
  c.events.filterMap SyncEvent.submission?

/-- All that a client has handed to the remote service, in this order. -/
def submissions (c : Client ρ) : List (Channel ⊕ Message) := c.submissionLog.reverse

theorem channels_logged (remote : Remote ρ) :
    (channelExchange remote).Logs .inl submissionLog :=
  ⟨fun _ _ _ => rfl, fun _ _ => rfl, fun _ _ => rfl⟩

theorem messages_logged (remote : Remote ρ) :
    (messageExchange remote).Logs .inr submissionLog :=
  ⟨fun _ _ _ => rfl, fun _ _ => rfl, fun _ _ => rfl⟩

end Client

/-- The list of the entities that were handed over is a log. -/
theorem Backing.logs {σ ε ρ : Type} [Syncable ε] {x : Exchange σ ε} (B : Backing x ρ) :
    x.Logs id B.handed where
  select_eq after limit s := by
    rcases hselect : x.select after limit s with ⟨e | page, s'⟩
    · exact (B.select_error hselect).2.2.1
    · exact (B.select_ok hselect).2.2.2.1
  submit_eq e s := (B.submit_spec e s).2.2.2.1
  write_eq es s := by
    rcases hwrite : x.write es s with ⟨e | ⟨⟩, s'⟩
    · exact (B.write_error hwrite).2.2.1
    · exact (B.write_ok hwrite).2.2.1

/-! ## A sync pass in two parts -/

namespace SyncPass

variable {ρ ε : Type} {remote : Remote ρ} {rules : SyncRules}

theorem run_of_ended (n : Nat) (result : Except StoreError (Option SyncReport)) (c : Client ρ) :
    run remote rules n (finished result) c = (finished result, c) := by
  induction n with
  | zero => rfl
  | succ n ih => exact ih

theorem run_add (m n : Nat) (pass : SyncPass) (c : Client ρ) :
    run remote rules (m + n) pass c
      = run remote rules n (run remote rules m pass c).1 (run remote rules m pass c).2 := by
  induction m generalizing pass c with
  | zero => rw [Nat.zero_add]; rfl
  | succ m ih =>
      rw [Nat.succ_add]
      exact ih (step remote rules pass c).1 (step remote rules pass c).2

variable [Syncable ε] {x : Exchange (Client ρ) ε}

/-- A sync pass runs a retry pass as one of its parts and leads on from its report. -/
structure RunsPart (remote : Remote ρ) (rules : SyncRules) (x : Exchange (Client ρ) ε)
    (part : RetryPass ε → SyncPass) (next : RetryReport → Client ρ → SyncPass × Client ρ) :
    Prop where
  step_stay : ∀ {pass pass' c c'}, pass.step x rules c = (pass', c') →
    (∀ result, pass' ≠ .finished result) → step remote rules (part pass) c = (part pass', c')
  step_next : ∀ {pass report c c'}, pass.step x rules c = (.finished (.ok report), c') →
    step remote rules (part pass) c = next report c'

/-- A part that comes to a report in `n` steps takes the sync pass no more of them. -/
theorem RunsPart.run {part : RetryPass ε → SyncPass}
    {next : RetryReport → Client ρ → SyncPass × Client ρ}
    (h : RunsPart remote rules x part next) {n : Nat} {pass : RetryPass ε} {c c' : Client ρ}
    {report : RetryReport} (hpass : ∀ result, pass ≠ .finished result)
    (hrun : pass.run x rules n c = (.finished (.ok report), c')) :
    ∃ k ≤ n, SyncPass.run remote rules k (part pass) c = next report c' := by
  induction n generalizing pass c with
  | zero => exact absurd (congrArg Prod.fst hrun) (hpass _)
  | succ n ih =>
      rcases hstep : pass.step x rules c with ⟨pass', c₁⟩
      have hrest : pass'.run x rules n c₁ = (.finished (.ok report), c') := by
        rw [RetryPass.run, hstep] at hrun
        exact hrun
      by_cases hended : ∃ result, pass' = .finished result
      · -- this step ends the part, and the sync pass leads on in the same step
        obtain ⟨result, rfl⟩ := hended
        rw [RetryPass.run_of_ended] at hrest
        obtain ⟨hresult, rfl⟩ := Prod.mk.inj hrest
        rw [hresult] at hstep
        exact ⟨1, by omega, h.step_next hstep⟩
      · have hgoes : ∀ result, pass' ≠ .finished result := fun result he => hended ⟨result, he⟩
        obtain ⟨k, hk, hpart⟩ := ih hgoes hrest
        refine ⟨k + 1, by omega, ?_⟩
        rw [SyncPass.run, h.step_stay hstep hgoes]
        exact hpart

theorem runsPart_channels (remote : Remote ρ) (rules : SyncRules) :
    RunsPart remote rules (Client.channelExchange remote) channels fun report c =>
      (messages report .start, c.publish (.running .messages)) where
  step_stay {pass pass' c c'} hstep hgoes := by
    cases pass' with
    | finished result => exact absurd rfl (hgoes result)
    | _ => simp only [step, hstep]
  step_next hstep := by simp only [step, hstep]

theorem runsPart_messages (remote : Remote ρ) (rules : SyncRules) (report : RetryReport) :
    RunsPart remote rules (Client.messageExchange remote) (messages report) fun report' c =>
      complete ⟨report, report'⟩ c where
  step_stay {pass pass' c c'} hstep hgoes := by
    cases pass' with
    | finished result => exact absurd rfl (hgoes result)
    | _ => simp only [step, hstep]
  step_next hstep := by simp only [step, hstep]

/-- Two parts that come to reports, one after the other, are the sync pass. -/
theorem sync_of_parts {c c₁ c₂ : Client ρ} {report : SyncReport} (hidle : c.busy = false)
    (hchannels : RetryPass.run (Client.channelExchange remote) rules
      (RetryPass.steps c.replica.database.channels.size) .start (start c).2
        = (.finished (.ok report.channels), c₁))
    (hmessages : RetryPass.run (Client.messageExchange remote) rules
      (RetryPass.steps c.replica.database.messages.size) .start (c₁.publish (.running .messages))
        = (.finished (.ok report.messages), c₂)) :
    c.sync remote rules = complete report c₂ := by
  have hstart : (start c).1 = channels .start := by
    rw [start, hidle]
    rfl
  obtain ⟨k, hk, hfirst⟩ :=
    (runsPart_channels remote rules).run (fun _ he => by cases he) hchannels
  obtain ⟨j, hj, hsecond⟩ :=
    (runsPart_messages remote rules report.channels).run (fun _ he => by cases he) hmessages
  obtain ⟨rest, hrest⟩ : ∃ rest, steps c.replica = k + (j + rest) :=
    ⟨steps c.replica - k - j, by unfold steps; omega⟩
  show run remote rules (steps c.replica) (start c).1 (start c).2 = complete report c₂
  rw [hstart, hrest, run_add, hfirst, run_add, hsecond]
  exact run_of_ended rest _ _

end SyncPass

/-! ## Complete passes over states that look alike -/

namespace Backing

variable {σ ε ρ : Type} [Syncable ε] {x : Exchange σ ε}

/-- Nothing that a pass works on tells the two states apart. -/
structure Same (B : Backing x ρ) (s t : σ) : Prop where
  rows_eq : B.rows t = B.rows s
  remote_eq : B.remote t = B.remote s
  handed_eq : B.handed t = B.handed s
  frame_eq : B.frame t = B.frame s

variable {B : Backing x ρ} {s t : σ}

theorem Same.waiting_eq (h : B.Same s t) : B.waiting t = B.waiting s := by
  rw [waiting, waiting, h.rows_eq]

theorem Same.entity_eq (h : B.Same s t) : B.entity t = B.entity s := by
  rw [entity, entity, h.frame_eq]

end Backing

namespace CompletePass

variable {σ ε ρ : Type} [Syncable ε] {x : Exchange σ ε} {B : Backing x ρ} {rules : SyncRules}
  {s s' : σ} {report : RetryReport} {answered : List (ε × Answer ε)}

/-- States that a pass cannot tell apart may stand for its ends. -/
theorem congr (h : CompletePass B rules s s' report answered) {t t' : σ} (hs : B.Same s t)
    (hs' : B.Same s' t') : CompletePass B rules t t' report answered where
  submitted_eq := by rw [hs.waiting_eq, hs.entity_eq]; exact h.submitted_eq
  ascending := h.ascending
  handed_eq := by rw [hs.handed_eq, hs'.handed_eq]; exact h.handed_eq
  answers_eq := by rw [hs.remote_eq, hs'.remote_eq]; exact h.answers_eq
  stored := by rw [hs'.rows_eq]; exact h.stored
  status_eq := h.status_eq
  unchanged := by rw [hs.waiting_eq, hs.rows_eq, hs'.rows_eq]; exact h.unchanged
  frame_eq := by rw [hs.frame_eq, hs'.frame_eq]; exact h.frame_eq
  report_eq := by rw [hs.waiting_eq]; exact h.report_eq
  submitted_count := by rw [hs.waiting_eq]; exact h.submitted_count
  outcome_count := by rw [hs.waiting_eq]; exact h.outcome_count
  pages_eq := by rw [hs.waiting_eq]; exact h.pages_eq

/-- A log of a complete pass shows its submissions. -/
theorem log_eq {β : Type} {entry : ε → β} {log : σ → List β}
    (h : CompletePass B rules s s' report answered) {n : Nat}
    (hrun : RetryPass.run x rules n .start s = (.finished (.ok report), s'))
    (hlog : x.Logs entry log) : log s' = (answered.map fun p => entry p.1).reverse ++ log s := by
  have hhanded := RetryPass.log_run B.logs rules n .start s
  rw [hrun, h.handed_eq, List.map_id] at hhanded
  have hsent : answered.map Prod.fst = RetryPass.sent x rules n .start s :=
    List.reverse_injective (List.append_cancel_right hhanded)
  have hwritten := RetryPass.log_run hlog rules n .start s
  rw [hrun, ← hsent, List.map_map] at hwritten
  exact hwritten

end CompletePass

/-! ## Sync passes that nothing keeps from ending -/

namespace Database

/-- The rows of the channels that wait for a sync pass, by key. -/
def waitingChannels (db : Database) : List Row :=
  db.channels.withStatus Row.channelStatus .syncNeeded none

/-- The rows of the messages that wait for a sync pass, by key. -/
def waitingMessages (db : Database) : List Row :=
  db.messages.withStatus Row.messageStatus .syncNeeded none

/-- All rows that a sync pass reads can be read. -/
structure ServesSync (db : Database) : Prop where
  users : ∀ row ∈ db.users.rows, ∃ record, row.userRecord = .ok record
  channels : ∀ row ∈ db.waitingChannels, ∃ channel, row.channel = .ok channel
  messages : ∀ row ∈ db.waitingMessages, ∃ m, row.message = .ok m

end Database

/-- What a sync pass comes to that starts with the client `c` and ends with `c'`; `between` is the
client when the channels are through, and `channels` and `messages` are the submissions with their
answers. -/
structure WholePass {ρ : Type} (remote : Remote ρ) (rules : SyncRules) (c between c' : Client ρ)
    (report : SyncReport) (channels : List (Channel × Answer Channel))
    (messages : List (Message × Answer Message)) : Prop where
  channels_complete :
    CompletePass (Client.channelBacking remote) rules c between report.channels channels
  messages_complete :
    CompletePass (Client.messageBacking remote) rules between c' report.messages messages
  /-- The channels have no bearing on the users of the messages. -/
  completed_eq : between.replica.completed = c.replica.completed
  /-- All channels come before all messages. -/
  submissions_eq : c'.submissions = c.submissions ++
    ((channels.map fun p => .inl p.1) ++ messages.map fun p => .inr p.1)

namespace Client

variable {ρ : Type} (remote : Remote ρ) (rules : SyncRules)

/-- A pass over the channels has no bearing on the users of messages. -/
theorem completed_of_channels (n : Nat) (pass : RetryPass Channel) (c : Client ρ) :
    (pass.run (channelExchange remote) rules n c).2.replica.completed = c.replica.completed := by
  refine RetryPass.run_keeps (fun c : Client ρ => c.replica.completed) (fun after limit c => ?_)
    (fun _ _ => rfl) (fun channels c => ?_) rules n pass c
  · show (Channels.byStatus .syncNeeded after limit c.replica).2.completed = c.replica.completed
    rcases hselect : Channels.byStatus .syncNeeded after limit c.replica with ⟨e | page, r⟩
    · exact (Channels.byStatus_error hselect).2.completed_eq
    · exact (Channels.byStatus_ok hselect).2.2.completed_eq
  · show (Channels.insert channels c.replica).2.completed = c.replica.completed
    rcases hwrite : Channels.insert channels c.replica with ⟨e | ⟨⟩, r⟩
    · exact (Channels.insert_error hwrite).2.completed_eq
    · exact (Channels.insert_ok hwrite).2.completed_eq

variable {remote rules}

/-- Only the channels of the database differ after a pass over them. -/
theorem database_of_channels {c c' : Client ρ} {report : RetryReport}
    {answered : List (Channel × Answer Channel)}
    (h : CompletePass (channelBacking remote) rules c c' report answered) :
    c'.replica.database
      = { c.replica.database with channels := c'.replica.database.channels } := by
  have hothers : c'.replica.database.withoutChannels = c.replica.database.withoutChannels :=
    congrArg PassFrame.others h.frame_eq
  exact congrArg (fun db => { db with channels := c'.replica.database.channels }) hothers

/-- Only the messages of the database differ after a pass over them. -/
theorem database_of_messages {c c' : Client ρ} {report : RetryReport}
    {answered : List (Message × Answer Message)}
    (h : CompletePass (messageBacking remote) rules c c' report answered) :
    c'.replica.database
      = { c.replica.database with messages := c'.replica.database.messages } := by
  have hothers : c'.replica.database.withoutMessages = c.replica.database.withoutMessages :=
    congrArg PassFrame.others h.frame_eq
  exact congrArg (fun db => { db with messages := c'.replica.database.messages }) hothers

end Client

namespace WholePass

variable {ρ : Type} {remote : Remote ρ} {rules : SyncRules} {c between c' : Client ρ}
  {report : SyncReport} {channels : List (Channel × Answer Channel)}
  {messages : List (Message × Answer Message)}

/-- The messages have no bearing on the channels, -/
theorem channels_kept (h : WholePass remote rules c between c' report channels messages) :
    between.replica.database.channels = c'.replica.database.channels := by
  rw [Client.database_of_messages h.messages_complete]

/-- and the channels none on the messages. -/
theorem messages_kept (h : WholePass remote rules c between c' report channels messages) :
    between.replica.database.messages = c.replica.database.messages := by
  rw [Client.database_of_channels h.channels_complete]

/-- Only the two tables that a sync pass works on differ after it. -/
theorem database_eq (h : WholePass remote rules c between c' report channels messages) :
    c'.replica.database
      = { c.replica.database with
          channels := c'.replica.database.channels
          messages := c'.replica.database.messages } := by
  have hfirst := Client.database_of_channels h.channels_complete
  have hsecond := Client.database_of_messages h.messages_complete
  rw [h.channels_kept] at hfirst
  rw [hfirst] at hsecond
  exact hsecond

end WholePass

namespace Client

variable {ρ : Type} {remote : Remote ρ} {rules : SyncRules}

/-- Publishing changes nothing that a pass works on. -/
theorem same_publish (c : Client ρ) (state : SyncState) (busy : Bool) :
    (channelBacking remote).Same c { c.publish state with busy } ∧
      (messageBacking remote).Same c { c.publish state with busy } :=
  ⟨⟨rfl, rfl, rfl, rfl⟩, ⟨rfl, rfl, rfl, rfl⟩⟩

variable (remote)

/-- The first part of a sync pass over a database that can be read. -/
theorem exists_channelPass (hbudget : rules.maxPages = none)
    (hanswers : ∀ channel r, (remote.updateChannel channel r).1.isSome) {c : Client ρ}
    (hfaultless : c.replica.IsFaultless) (hdb : c.replica.database.ServesSync) :
    ∃ report answered c',
      RetryPass.run (channelExchange remote) rules
          (RetryPass.steps c.replica.database.channels.size) .start c
        = (.finished (.ok report), c') ∧
      CompletePass (channelBacking remote) rules c c' report answered := by
  refine (channelBacking remote).completePass_of_serves hbudget hanswers
    ((channelBacking remote).storeServes_of_reliable rules hfaultless fun row hrow => ?_)
  obtain ⟨channel, hread⟩ := hdb.channels row hrow
  exact Option.isSome_iff_exists.2 ⟨channel, toOption_eq_some_iff.2 hread⟩

/-- The second part of a sync pass, for which no channel is read. -/
theorem exists_messagePass (hbudget : rules.maxPages = none)
    (hanswers : ∀ m r, (remote.sendMessage m r).1.isSome) {c : Client ρ}
    (hfaultless : c.replica.IsFaultless) (husers : c.replica.HasReadableUsers)
    (hread : ∀ row ∈ c.replica.database.waitingMessages, ∃ m, row.message = .ok m) :
    ∃ report answered c',
      RetryPass.run (messageExchange remote) rules
          (RetryPass.steps c.replica.database.messages.size) .start c
        = (.finished (.ok report), c') ∧
      CompletePass (messageBacking remote) rules c c' report answered := by
  refine (messageBacking remote).completePass_of_serves hbudget hanswers
    ((messageBacking remote).storeServes_of_reliable rules ⟨hfaultless, husers⟩
      fun row hrow => ?_)
  obtain ⟨m, hm⟩ := hread row hrow
  have hentity : (messageBacking remote).entity c row = some (c.replica.completed m) :=
    Option.map_eq_some_iff.2 ⟨m, toOption_eq_some_iff.2 hm, rfl⟩
  exact Option.isSome_iff_exists.2 ⟨_, hentity⟩

/-- A client on which a sync pass is announced. -/
def begun (c : Client ρ) : Client ρ := { c.publish (.running .channels) with busy := true }

variable {remote}

/-- Two complete parts, one after the other, make a whole pass. -/
theorem wholePass_of_parts {c c₁ c₂ : Client ρ} {report : SyncReport} {n₁ n₂ : Nat}
    {channels : List (Channel × Answer Channel)} {messages : List (Message × Answer Message)}
    (hrun₁ : RetryPass.run (channelExchange remote) rules n₁ .start c.begun
      = (.finished (.ok report.channels), c₁))
    (h₁ : CompletePass (channelBacking remote) rules c.begun c₁ report.channels channels)
    (hrun₂ : RetryPass.run (messageExchange remote) rules n₂ .start
      (c₁.publish (.running .messages)) = (.finished (.ok report.messages), c₂))
    (h₂ : CompletePass (messageBacking remote) rules (c₁.publish (.running .messages)) c₂
      report.messages messages) :
    WholePass remote rules c (c₁.publish (.running .messages)) (SyncPass.complete report c₂).2
      report channels messages where
  channels_complete := h₁.congr ⟨rfl, rfl, rfl, rfl⟩ (same_publish c₁ _ c₁.busy).1
  messages_complete := h₂.congr ⟨rfl, rfl, rfl, rfl⟩ (same_publish c₂ _ false).2
  completed_eq := by
    have hkeeps := completed_of_channels remote rules n₁ .start c.begun
    rw [hrun₁] at hkeeps
    exact hkeeps
  submissions_eq := by
    have hlog₁ : c₁.submissionLog
        = (channels.map fun p => .inl p.1).reverse ++ c.submissionLog :=
      h₁.log_eq hrun₁ (channels_logged remote)
    have hlog₂ : c₂.submissionLog
        = (messages.map fun p => .inr p.1).reverse ++ c₁.submissionLog :=
      h₂.log_eq hrun₂ (messages_logged remote)
    calc (SyncPass.complete report c₂).2.submissions
        = c₂.submissionLog.reverse := rfl
      _ = c₁.submissionLog.reverse ++ messages.map fun p => .inr p.1 := by
          rw [hlog₂, List.reverse_append, List.reverse_reverse]
      _ = c.submissions ++ ((channels.map fun p => .inl p.1)
            ++ messages.map fun p => .inr p.1) := by
          rw [hlog₁, List.reverse_append, List.reverse_reverse, List.append_assoc]
          rfl

/-- **A sync pass over a database that can be read is whole**, if it has no budget of pages, the
medium does not fail and the remote service answers. -/
theorem exists_wholePass (remote : Remote ρ) (rules : SyncRules) (hbudget : rules.maxPages = none)
    (hmessages : ∀ m r, (remote.sendMessage m r).1.isSome)
    (hchannels : ∀ channel r, (remote.updateChannel channel r).1.isSome) {c : Client ρ}
    (hidle : c.busy = false) (hfaultless : c.replica.IsFaultless)
    (hdb : c.replica.database.ServesSync) :
    ∃ report channels messages between c',
      c.sync remote rules = (.finished (.ok (some report)), c') ∧
        WholePass remote rules c between c' report channels messages := by
  have hstart : (SyncPass.start c).2 = c.begun := by
    rw [SyncPass.start, hidle]
    rfl
  obtain ⟨report₁, channels, c₁, hrun₁, hcomplete₁⟩ :=
    exists_channelPass remote (c := c.begun) hbudget hchannels hfaultless hdb
  -- the messages are sent in a state in which only the channels have changed
  let between : Client ρ := c₁.publish (.running .messages)
  have hdatabase : between.replica.database
      = { c.replica.database with channels := c₁.replica.database.channels } := by
    have hkept := database_of_channels hcomplete₁
    exact hkept
  have hfaultless₁ : between.replica.IsFaultless :=
    (congrArg PassFrame.reliable hcomplete₁.frame_eq).mpr hfaultless
  have husers₁ : between.replica.HasReadableUsers := by
    unfold Replica.HasReadableUsers
    rw [hdatabase]
    exact hdb.users
  obtain ⟨report₂, messages, c₂, hrun₂, hcomplete₂⟩ :=
    exists_messagePass remote (c := between) hbudget hmessages hfaultless₁ husers₁
      (by rw [hdatabase]; exact hdb.messages)
  rw [hdatabase] at hrun₂
  let report : SyncReport := ⟨report₁, report₂⟩
  have hsync : c.sync remote rules = SyncPass.complete report c₂ :=
    SyncPass.sync_of_parts hidle (hstart ▸ hrun₁) hrun₂
  have hwhole : WholePass remote rules c between _ report channels messages :=
    wholePass_of_parts hrun₁ hcomplete₁ hrun₂ hcomplete₂
  exact ⟨report, channels, messages, between, _, hsync, hwhole⟩

end Client

end OfflineChat
