import OfflineChat.Proofs.Repository.Operations
import OfflineChat.Sync.Wipe

/-! # Stages without interruption

The stages of an operation do what the operation does, if nothing comes between them, and so do the
two steps in which a call selects a page of messages or writes a page back. Main definitions:
`Stage.Leads`, where the stages of a task lead, and `Batch.write`, a batch that is filed and put.
Main statements: the stages of an operation lead to where it leads (`Operation.advances_stages`),
also among all that is under way (`Activity.acts_call`), and the two steps of a call are the one step
of a call that has the client to itself (`Activity.acts_poll_poll`). -/

set_option autoImplicit false

namespace OfflineChat

/-! ## Tasks -/

namespace Stage

variable {α : Type}

theorem advances_add (m n : Nat) (task : List Stage) (r : Replica) :
    advances (m + n) task r = advances n (advances m task r).1 (advances m task r).2 := by
  induction m generalizing task r with
  | zero => rw [Nat.zero_add]; rfl
  | succ m ih =>
      rw [Nat.succ_add]
      exact ih (advance task r).1 (advance task r).2

theorem advance_of_ok {stage : Stage} {r r' : Replica} {more : List Stage}
    (h : stage.run r = (.ok more, r')) (task : List Stage) :
    advance (stage :: task) r = (more ++ task, r') := by
  simp only [advance, h]

theorem advance_of_error {stage : Stage} {r r' : Replica} {e : StoreError}
    (h : stage.run r = (.error e, r')) (task : List Stage) :
    advance (stage :: task) r = ([], r') := by
  simp only [advance, h]

/-- What is left to do after an action: all that follows, or nothing after a failure. -/
def continued (task : List Stage) : Except StoreError α × Replica → List Stage × Replica
  | (.ok _, r) => (task, r)
  | (.error _, r) => ([], r)

/-- The stages of a task lead to where an action leads. -/
def Leads (task : List Stage) (r : Replica) (outcome : Except StoreError α × Replica) : Prop :=
  ∀ rest, ∃ n, advances n (task ++ rest) r = continued rest outcome

theorem leads_nil (a : α) (r : Replica) : Leads [] r (Except.ok a, r) := fun _ => ⟨0, rfl⟩

/-- A stage is followed by those that it gives rise to. -/
theorem leads_of_ok {stage : Stage} {r r' : Replica} {more : List Stage}
    {outcome : Except StoreError α × Replica} (h : stage.run r = (.ok more, r'))
    (hmore : Leads more r' outcome) : Leads [stage] r outcome := by
  intro rest
  obtain ⟨n, hn⟩ := hmore rest
  refine ⟨n + 1, ?_⟩
  show advances n (advance (stage :: rest) r).1 (advance (stage :: rest) r).2 = _
  rw [advance_of_ok h]
  exact hn

theorem leads_of_error {stage : Stage} {r r' : Replica} {e : StoreError}
    (h : stage.run r = (.error e, r')) : Leads [stage] r ((.error e : Except StoreError α), r') :=
  fun rest => ⟨1, advance_of_error h rest⟩

/-- A stage that only does what an action does leads to where the action leads. -/
theorem leads_of_run {stage : Stage} {x : Action Replica Unit}
    (h : stage.run = x >>= fun _ => pure []) (r : Replica) : Leads [stage] r (x r) := by
  have hrun : stage.run r = (x >>= fun _ => pure []) r := congrFun h r
  rw [Action.bind_apply] at hrun
  cases hresult : x r with
  | mk result r' =>
      rw [hresult] at hrun
      cases result with
      | error e => exact leads_of_error hrun
      | ok u => exact leads_of_ok hrun (leads_nil u r')

/-- One task after another does one action after another. -/
theorem leads_append {β : Type} {task task' : List Stage} {x : Action Replica α}
    {y : Action Replica β} (hx : ∀ r, Leads task r (x r)) (hy : ∀ r, Leads task' r (y r))
    (r : Replica) : Leads (task ++ task') r ((x >>= fun _ => y) r) := by
  intro rest
  obtain ⟨m, hm⟩ := hx r (task' ++ rest)
  rw [Action.bind_apply]
  cases hresult : x r with
  | mk result r' =>
      rw [hresult] at hm
      cases result with
      | error e =>
          refine ⟨m, ?_⟩
          rw [List.append_assoc, hm]
          rfl
      | ok a =>
          obtain ⟨n, hn⟩ := hy r' rest
          refine ⟨m + n, ?_⟩
          rw [List.append_assoc, advances_add, hm]
          exact hn

/-- The value that an action gives does not matter to what follows. -/
theorem Leads.map {β : Type} {task : List Stage} {x : Action Replica α} {f : α → β}
    {r : Replica} (h : Leads task r (x r)) :
    Leads task r ((x >>= fun a => pure (f a)) r) := by
  intro rest
  obtain ⟨n, hn⟩ := h rest
  refine ⟨n, hn.trans ?_⟩
  rw [Action.bind_apply]
  cases x r with
  | mk result r' => cases result <;> rfl

end Stage

/-! ## Batches -/

namespace Batch

/-- A batch is filed and then put, unless it is empty: this is how each repository inserts. -/
def write (batch : Batch) : Action Replica Unit := do
  if batch.isEmpty then return ()
  .modify batch.file
  batch.put

theorem write_of_isEmpty (batch : Batch) (h : batch.isEmpty = true) (r : Replica) :
    batch.write r = (.ok (), r) := by
  unfold write
  rw [if_pos h]
  rfl

theorem write_of_not_isEmpty (batch : Batch) (h : batch.isEmpty = false) (r : Replica) :
    batch.write r = batch.put (batch.file r) := by
  unfold write
  rw [if_neg (by simp [h])]
  rfl

theorem onReplica_write {ρ : Type} (batch : Batch) (h : batch.isEmpty = false) (c : Client ρ)
    {result : Except StoreError Unit} {replica : Replica}
    (hput : batch.put (batch.file c.replica) = (result, replica)) :
    Client.onReplica batch.write c = (result, { c with replica }) := by
  have hwrite := batch.write_of_not_isEmpty h c.replica
  rw [hput] at hwrite
  simp only [Client.onReplica, Action.lift, hwrite]

theorem leads_insert (batch : Batch) (r : Replica) :
    Stage.Leads (Stage.insert batch) r (batch.write r) := by
  unfold Stage.insert
  split
  · next hempty =>
    rw [write_of_isEmpty batch hempty]
    exact Stage.leads_nil () r
  · next hsome =>
    rw [write_of_not_isEmpty batch (Bool.not_eq_true _ ▸ hsome)]
    exact Stage.leads_append (x := Action.modify batch.file) (Stage.leads_of_run rfl)
      (Stage.leads_of_run rfl) r

end Batch

/-! ## Operations -/

namespace Channels

/-- A channel that was found gets its new last message, if that is not older. -/
def renew (channel : Channel) (message : Message) : Action Replica Bool :=
  match message.effectiveCreatedAt with
  | some time =>
      if channel.isOvertakenAt time then do
        insertChannel (channel.withLastMessage message.id time)
        return true
      else return false
  | none => return false

theorem updateLastMessage_apply (cid : String) (message : Message) (r : Replica) :
    updateLastMessage cid message r
      = (select cid >>= fun found => found.elim (pure false) (renew · message)) r := by
  unfold updateLastMessage
  rw [Action.bind_apply, Action.bind_apply]
  cases select cid r with
  | mk result r' =>
      cases result with
      | error e => rfl
      | ok found =>
          cases found with
          | none => rfl
          | some channel =>
              show _ = renew channel message r'
              unfold renew
              cases message.effectiveCreatedAt <;> rfl

end Channels

namespace Stage

theorem leads_overtake (channel : Channel) (message : Message) (r : Replica) :
    Leads [overtake channel message] r (Channels.renew channel message r) := by
  unfold Channels.renew
  cases htime : message.effectiveCreatedAt with
  | none =>
      have hrun : (overtake channel message).run r = (.ok [], r) := by
        simp only [run, htime]
        rfl
      exact leads_of_ok hrun (leads_nil false r)
  | some time =>
      dsimp only
      by_cases hover : channel.isOvertakenAt time = true
      · let renewed := channel.withLastMessage message.id time
        have hrun : (overtake channel message).run r = (.ok (insert (.channels [renewed])), r) := by
          simp only [run, htime, hover, if_true]
          rfl
        rw [if_pos hover]
        exact leads_of_ok hrun (Batch.leads_insert (.channels [renewed]) r).map
      · have hrun : (overtake channel message).run r = (.ok [], r) := by
          simp only [run, htime, hover]
          rfl
        rw [if_neg hover]
        exact leads_of_ok hrun (leads_nil false r)

/-- A channel is looked for, and what was found is renewed. -/
theorem leads_find (cid : String) (message : Message) (r : Replica) :
    Leads [find cid message] r (Channels.updateLastMessage cid message r) := by
  rw [Channels.updateLastMessage_apply]
  -- what a look at the cache leaves behind
  generalize hr : ({ r with channels := (r.channels.get? cid).2 } : Replica) = r₁
  cases hcached : (r.channels.get? cid).1 with
  | some channel =>
      have hrun : (find cid message).run r = (.ok [overtake channel message], r₁) := by
        simp only [run, Action.bind_apply, Action.update, hcached, hr]
        rfl
      have hselect : Channels.select cid r = (.ok (some channel), r₁) := by
        simp only [Channels.select, Action.bind_apply, Action.update, hcached, hr]
        rfl
      rw [Action.bind_apply_ok hselect]
      exact leads_of_ok hrun (leads_overtake channel message r₁)
  | none =>
      have hrun : (find cid message).run r = (.ok [read cid message], r₁) := by
        simp only [run, Action.bind_apply, Action.update, hcached, hr]
        rfl
      have hselect : Channels.select cid r
          = Replica.read (.channel cid) (fun db => db.channel? cid) r₁ := by
        simp only [Channels.select, Action.bind_apply, Action.update, hcached, hr]
      refine leads_of_ok hrun ?_
      rw [Action.bind_apply, hselect]
      cases hread : Replica.read (.channel cid) (fun db => db.channel? cid) r₁ with
      | mk result r₂ =>
          cases result with
          | error e =>
              have hfails : (read cid message).run r₁ = (.error e, r₂) := by
                simp only [run, Action.bind_apply, hread]
              exact leads_of_error hfails
          | ok stored =>
              cases stored with
              | none =>
                  have hends : (read cid message).run r₁ = (.ok [], r₂) := by
                    simp only [run, Action.bind_apply, hread]
                    rfl
                  exact leads_of_ok hends (leads_nil false r₂)
              | some channel =>
                  have hfound : (read cid message).run r₁
                      = (.ok [overtake channel message], r₂) := by
                    simp only [run, Action.bind_apply, hread]
                    rfl
                  exact leads_of_ok hfound (leads_overtake channel message r₂)

end Stage

namespace Operation

/-- **The stages of an operation lead to where the operation leads**, if nothing comes between
them. -/
theorem advances_stages (op : Operation) (r : Replica) :
    ∃ n, Stage.advances n op.stages r = ([], op.apply r) := by
  have hend : ∀ {α : Type} {task : List Stage} {outcome : Except StoreError α × Replica},
      Stage.Leads task r outcome → ∃ n, Stage.advances n task r = ([], outcome.2) := by
    intro α task outcome h
    obtain ⟨n, hn⟩ := h []
    rw [List.append_nil] at hn
    refine ⟨n, hn.trans ?_⟩
    obtain ⟨result, r'⟩ := outcome
    cases result <;> rfl
  cases op with
  | insertUsers users => exact hend (Batch.leads_insert (.users users) r)
  | insertMe user => exact hend (Stage.leads_of_run rfl r)
  | insertChannels channels => exact hend (Batch.leads_insert (.channels channels) r)
  | insertMessages messages cached => exact hend (Batch.leads_insert (.messages messages cached) r)
  | updateLastMessage cid message => exact hend (Stage.leads_find cid message r)
  | sendRequest message =>
      exact hend (Stage.leads_append (Batch.leads_insert (.messages [message] true))
        (fun r => (Stage.leads_find message.cid message r).map) r)
  | sendResult classifier now message result =>
      cases result with
      | ok acknowledged => exact hend (Stage.leads_nil () r)
      | error error =>
          let failed := message.afterFailedSend classifier now error
          exact hend (Stage.leads_append (Batch.leads_insert (.users failed.users))
            (Batch.leads_insert (.messages [failed] false)) r)
  | _ => exact ⟨1, rfl⟩

end Operation

/-! ## All that is under way -/

namespace RetryPass

variable {σ ε : Type} [Syncable ε]

/-- What a pass writes back are the resolved entities of its page, of which there are some. -/
theorem exists_of_resolved {rules : SyncRules} {pass : RetryPass ε} {es : List ε}
    (h : pass.resolved? rules = some es) : es.isEmpty = false ∧
      ∃ page progress answered, pass = awaiting page progress ∧ answers? page = some answered ∧
        es = (resolveAll rules answered).map Outcome.entity := by
  cases pass with
  | awaiting page progress =>
      simp only [resolved?] at h
      split at h
      · next first more hanswered =>
        obtain rfl := Option.some.inj h
        exact ⟨rfl, page, progress, first :: more, rfl, hanswered, rfl⟩
      · exact nomatch h
  | _ => exact nomatch h

/-- A pass that writes its page back goes on from the result of the write. -/
theorem step_of_resolved {x : Exchange σ ε} {rules : SyncRules} {pass : RetryPass ε} {es : List ε}
    (h : pass.resolved? rules = some es) {result : Except StoreError Unit} {s s' : σ}
    (hwrite : x.write es s = (result, s')) :
    step x rules pass s = step { x with write := fun _ s => (result, s) } rules pass s' := by
  obtain ⟨_, page, progress, answered, rfl, hanswered, rfl⟩ := exists_of_resolved h
  simp only [step, hanswered, hwrite]

end RetryPass

namespace SyncCall

variable {rules : SyncRules}

/-- Rows are read by a call that is about to select a page of messages, and there are some. -/
theorem exists_of_rows {a : SyncCall} {r r' : Replica} {stored : List Message}
    (h : a.rows? rules r = some (stored, r')) : ∃ report after tally,
      a = messages report (.selecting after tally) ∧
        RetryPass.isExhausted rules tally = false ∧ stored ≠ [] ∧
        Replica.read (.messagesByStatus .syncNeeded after rules.limit)
          (fun db => db.messagesByStatus .syncNeeded after rules.limit) r = (.ok stored, r') := by
  cases a with
  | messages report pass =>
      cases pass with
      | selecting after tally =>
          simp only [rows?] at h
          split at h
          · exact absurd h (by simp)
          · next hroom =>
            split at h
            · next first more r₁ hread =>
              obtain ⟨rfl, rfl⟩ := Prod.mk.inj (Option.some.inj h)
              exact ⟨report, after, tally, rfl, Bool.not_eq_true _ ▸ hroom, by simp, hread⟩
            · exact absurd h (by simp)
      | _ => exact absurd h (by simp [rows?])
  | _ => exact absurd h (by simp [rows?])

end SyncCall

namespace Activity

variable {ρ : Type} (remote : Remote ρ) (rules : SyncRules) {s : Activity ρ}

/-- A page is filed and put into the database as a call writes it back in one step. -/
theorem pollWith_of_writeBack {a : SyncCall} {batch : Batch}
    (h : a.writeBack? rules = some batch) (c : Client ρ) {result : Except StoreError Unit}
    {replica : Replica} (hput : batch.put (batch.file c.replica) = (result, replica)) :
    a.pollWith { Client.channelExchange remote with write := fun _ c => (result, c) }
        { Client.messageExchange remote with write := fun _ c => (result, c) } rules
        { c with replica }
      = a.poll remote rules c := by
  cases a with
  | channels pass =>
      obtain ⟨es, hes, rfl⟩ := Option.map_eq_some_iff.1 h
      have hwrite : (Client.channelExchange remote).write es c = (result, { c with replica }) :=
        Batch.onReplica_write (.channels es) (RetryPass.exists_of_resolved hes).1 c hput
      simp only [SyncCall.poll, SyncCall.pollWith]
      rw [RetryPass.step_of_resolved hes hwrite]
  | messages report pass =>
      obtain ⟨es, hes, rfl⟩ := Option.map_eq_some_iff.1 h
      have hwrite : (Client.messageExchange remote).write es c = (result, { c with replica }) :=
        Batch.onReplica_write (.messages es true) (RetryPass.exists_of_resolved hes).1 c hput
      simp only [SyncCall.poll, SyncCall.pollWith]
      rw [RetryPass.step_of_resolved hes hwrite]
  | _ => exact nomatch h

/-- The users of a page are looked up as a call does that selects it in one step. -/
theorem pollWith_of_rows {a : SyncCall} (c : Client ρ) {stored : List Message} {replica : Replica}
    (h : a.rows? rules c.replica = some (stored, replica))
    {result : Except StoreError (List Message)} {replica' : Replica}
    (hhydrate : Messages.hydrate stored replica = (result, replica')) :
    a.pollWith (Client.channelExchange remote)
        { Client.messageExchange remote with select := fun _ _ c => (result, c) } rules
        { c with replica := replica' }
      = a.poll remote rules c := by
  obtain ⟨report, after, tally, rfl, hroom, _, hread⟩ := SyncCall.exists_of_rows h
  have hselect : (Client.messageExchange remote).select after rules.limit c
      = (result, { c with replica := replica' }) := by
    have hpage := Action.bind_apply_ok (f := Messages.hydrate) hread
    rw [hhydrate] at hpage
    show Client.onReplica (Messages.byStatus .syncNeeded after rules.limit) c = _
    simp only [Client.onReplica, Action.lift, Messages.byStatus, hpage]
  simp only [SyncCall.poll, SyncCall.pollWith, RetryPass.step, hroom, hselect, Bool.false_eq_true,
    if_false]

/-- The two halves of a step make up the step. -/
theorem resume_of_halfway {i : Nat} {page : HalfPage} {replica : Replica}
    (h : (s.call i).halfway? rules s.client.replica = some (page, replica)) :
    (s.withReplica replica).resume remote rules i page
      = { s with toSyncCalls := s.toSyncCalls.step remote rules (.poll i) } := by
  have hstep : ∀ {next : SyncCall × Client ρ}, next = (s.call i).poll remote rules s.client →
      ({ s with toSyncCalls := s.toSyncCalls.withCall i next.1 next.2 } : Activity ρ)
        = { s with toSyncCalls := s.toSyncCalls.step remote rules (.poll i) } :=
    fun hnext => hnext ▸ rfl
  unfold SyncCall.halfway? at h
  cases hrows : (s.call i).rows? rules s.client.replica with
  | some found =>
      obtain ⟨stored, r⟩ := found
      rw [hrows] at h
      obtain ⟨rfl, rfl⟩ := Prod.mk.inj (Option.some.inj h)
      exact hstep (pollWith_of_rows remote rules s.client hrows rfl)
  | none =>
      rw [hrows] at h
      obtain ⟨batch, hbatch, hpage⟩ := Option.map_eq_some_iff.1 h
      obtain ⟨rfl, rfl⟩ := Prod.mk.inj hpage
      exact hstep (pollWith_of_writeBack remote rules hbatch s.client rfl)

theorem act_poll_of_whole {i : Nat} (hhalf : s.half i = none)
    (hwhole : (s.call i).halfway? rules s.client.replica = none) :
    s.act remote rules (.poll i)
      = { s with toSyncCalls := s.toSyncCalls.step remote rules (.poll i) } := by
  simp only [act, hhalf, hwhole]

theorem act_poll_of_half {i : Nat} {page : HalfPage} (h : s.half i = some page) :
    s.act remote rules (.poll i) = (s.resume remote rules i page).withHalf i none := by
  simp only [act, h]

theorem act_poll_of_halfway {i : Nat} {page : HalfPage} {replica : Replica}
    (hhalf : s.half i = none)
    (hpage : (s.call i).halfway? rules s.client.replica = some (page, replica)) :
    s.act remote rules (.poll i) = (s.withReplica replica).withHalf i (some page) := by
  simp only [act, hhalf, hpage]

theorem withHalf_withHalf {i : Nat} {page : HalfPage} (hhalf : s.half i = none) :
    (s.withHalf i (some page)).withHalf i none = s := by
  have hrest : (fun j => if j = i then none else if j = i then some page else s.half j)
      = s.half := by
    funext j
    by_cases hj : j = i
    · rw [if_pos hj, hj, hhalf]
    · rw [if_neg hj, if_neg hj]
  unfold withHalf
  rw [hrest]

/-- **A page is selected, or written back, in two steps of a call**: without interruption they are
the one step of a call that has the client to itself. -/
theorem acts_poll_poll {i : Nat} {page : HalfPage} {replica : Replica} (hhalf : s.half i = none)
    (hpage : (s.call i).halfway? rules s.client.replica = some (page, replica)) :
    s.acts remote rules [.poll i, .poll i]
      = { s with toSyncCalls := s.toSyncCalls.step remote rules (.poll i) } := by
  calc s.acts remote rules [.poll i, .poll i]
      = ((s.withReplica replica).withHalf i (some page)).act remote rules (.poll i) :=
        congrArg (fun t => act remote rules t (.poll i))
          (act_poll_of_halfway remote rules hhalf hpage)
    _ = (((s.withReplica replica).withHalf i (some page)).resume remote rules i page).withHalf i
          none := act_poll_of_half remote rules (if_pos rfl)
    _ = (((s.withReplica replica).resume remote rules i page).withHalf i (some page)).withHalf i
          none := by cases page <;> rfl
    _ = { s with toSyncCalls := s.toSyncCalls.step remote rules (.poll i) } := by
        rw [resume_of_halfway remote rules hpage]
        exact withHalf_withHalf hhalf

theorem acts_advance {k : Nat} {task : List Stage} (htask : s.tasks[k]? = some task) (n : Nat) :
    s.acts remote rules (List.replicate n (.advance k))
      = { s.withReplica (Stage.advances n task s.client.replica).2 with
          tasks := s.tasks.set k (Stage.advances n task s.client.replica).1 } := by
  induction n generalizing s task with
  | zero =>
      obtain ⟨hlt, rfl⟩ := List.getElem?_eq_some_iff.1 htask
      show s = { s with tasks := s.tasks.set k s.tasks[k] }
      rw [List.set_getElem_self]
  | succ n ih =>
      have hfirst : s.act remote rules (.advance k)
          = { s.withReplica (Stage.advance task s.client.replica).2 with
              tasks := s.tasks.set k (Stage.advance task s.client.replica).1 } := by
        simp only [act, htask]
      have hlt : k < s.tasks.length := (List.getElem?_eq_some_iff.1 htask).1
      have hnow : (s.act remote rules (.advance k)).tasks[k]?
          = some (Stage.advance task s.client.replica).1 := by
        rw [hfirst]
        exact List.getElem?_set_self hlt
      have hrest := ih hnow
      rw [hfirst] at hrest
      show ((s.act remote rules (.advance k)).acts remote rules (List.replicate n (.advance k))) = _
      rw [hfirst, hrest]
      simp only [Stage.advances, withReplica, List.set_set]

/-- **An operation that nothing comes between does what it does in one step.** -/
theorem acts_call (op : Operation) : ∃ n,
    s.acts remote rules (.call op :: List.replicate n (.advance s.tasks.length))
      = { s.withReplica (op.apply s.client.replica) with tasks := s.tasks ++ [[]] } := by
  obtain ⟨n, hn⟩ := op.advances_stages s.client.replica
  have htask : (s.act remote rules (.call op)).tasks[s.tasks.length]? = some op.stages := by
    show (s.tasks ++ [op.stages])[s.tasks.length]? = _
    rw [List.getElem?_append_right (Nat.le_refl _), Nat.sub_self]
    rfl
  refine ⟨n, ?_⟩
  show (s.act remote rules (.call op)).acts remote rules (List.replicate n (.advance _)) = _
  rw [acts_advance remote rules htask, show Stage.advances n op.stages
    (s.act remote rules (.call op)).client.replica = _ from hn]
  show { s.withReplica (op.apply s.client.replica) with
    tasks := (s.tasks ++ [op.stages]).set s.tasks.length [] } = _
  rw [List.set_append_right _ _ (Nat.le_refl _), Nat.sub_self]
  rfl

end Activity

end OfflineChat
