import OfflineChat.Proofs.Sync.ChannelsFirst
import OfflineChat.Proofs.Sync.Course
import OfflineChat.Proofs.Sync.Stages

/-! # What a wipe leaves behind

After a wipe nothing is left in the replica of a client, and nothing comes back by itself, if nothing
that can still be written is under way while the client is wiped. What is under way is a page whose
rows a pass has read, a batch that is on its way to the database, also when nobody waits for it any
more, or a channel that was found and may get a new last message. Main definitions:
`Replica.StaysEmpty`, for what fills nothing that was empty; `Replica.IsBlank`; and `Activity.Quiet`.
Main statements: what is quiet fills nothing (`Activity.staysEmpty_act`) and stays quiet over empty
tables (`Activity.quiet_act`), so a client that is wiped while it is quiet stays empty
(`Activity.stays_wiped`); otherwise entities can come back (`Activity.comes_back`). -/

set_option autoImplicit false

namespace OfflineChat

/-! ## Empty parts of a replica -/

theorem EntityCache.entries_eq_nil_iff {α : Type} [Keyed α] {c : EntityCache α} :
    c.entries = [] ↔ ∀ k, c.peek? k = none := by
  constructor
  · intro h k
    rw [Cache.peek?, h]
    rfl
  · intro h
    refine List.eq_nil_iff_forall_not_mem.2 fun e he => ?_
    have hpeek : c.peek? e.1 = some e.2 := Cache.peek?_eq_some_iff.2 he
    exact absurd ((h e.1).symm.trans hpeek) (by simp)

namespace Replica

/-- What was empty is still empty. -/
structure StaysEmpty (r r' : Replica) : Prop where
  cachedUsers : r.users.entries = [] → r'.users.entries = []
  cachedChannels : r.channels.entries = [] → r'.channels.entries = []
  cachedMessages : r.messages.entries = [] → r'.messages.entries = []
  users : r.database.users = .empty → r'.database.users = .empty
  channels : r.database.channels = .empty → r'.database.channels = .empty
  messages : r.database.messages = .empty → r'.database.messages = .empty

/-- Nothing is held: all caches and tables are empty. -/
structure IsBlank (r : Replica) : Prop where
  cachedUsers : r.users.entries = []
  cachedChannels : r.channels.entries = []
  cachedMessages : r.messages.entries = []
  users : r.database.users = .empty
  channels : r.database.channels = .empty
  messages : r.database.messages = .empty

variable {r r' r'' : Replica}

theorem StaysEmpty.refl (r : Replica) : r.StaysEmpty r := ⟨id, id, id, id, id, id⟩

theorem StaysEmpty.trans (h : r.StaysEmpty r') (h' : r'.StaysEmpty r'') : r.StaysEmpty r'' where
  cachedUsers := h'.cachedUsers ∘ h.cachedUsers
  cachedChannels := h'.cachedChannels ∘ h.cachedChannels
  cachedMessages := h'.cachedMessages ∘ h.cachedMessages
  users := h'.users ∘ h.users
  channels := h'.channels ∘ h.channels
  messages := h'.messages ∘ h.messages

theorem IsBlank.of_staysEmpty (h : r.IsBlank) (hstays : r.StaysEmpty r') : r'.IsBlank where
  cachedUsers := hstays.cachedUsers h.cachedUsers
  cachedChannels := hstays.cachedChannels h.cachedChannels
  cachedMessages := hstays.cachedMessages h.cachedMessages
  users := hstays.users h.users
  channels := hstays.channels h.channels
  messages := hstays.messages h.messages

/-- Looking fills nothing. -/
theorem OnlyRead.staysEmpty (h : r.OnlyRead r') : r.StaysEmpty r' where
  cachedUsers he := EntityCache.entries_eq_nil_iff.2 fun k =>
    (congrFun h.users_eq k).trans (EntityCache.entries_eq_nil_iff.1 he k)
  cachedChannels he := EntityCache.entries_eq_nil_iff.2 fun k =>
    (congrFun h.channels_eq k).trans (EntityCache.entries_eq_nil_iff.1 he k)
  cachedMessages he := EntityCache.entries_eq_nil_iff.2 fun k =>
    (congrFun h.messages_eq k).trans (EntityCache.entries_eq_nil_iff.1 he k)
  users he := h.database_eq ▸ he
  channels he := h.database_eq ▸ he
  messages he := h.database_eq ▸ he

end Replica

/-! ## Operations -/

namespace Operation

/-- Removing rows and cached entities fills nothing. -/
theorem staysEmpty_delete (c : StoreCall) {change : Database → Nat × Database}
    (hchange : ∀ db : Database,
      (db.users = .empty → (change db).2.users = .empty) ∧
      (db.channels = .empty → (change db).2.channels = .empty) ∧
      (db.messages = .empty → (change db).2.messages = .empty)) (r : Replica) :
    r.StaysEmpty (Replica.delete c change r).2 := by
  unfold Replica.delete Replica.call
  dsimp only
  split
  · exact ⟨id, id, id, id, id, id⟩
  · obtain ⟨husers, hchannels, hmessages⟩ := hchange r.database
    exact ⟨id, id, id, husers, hchannels, hmessages⟩

/-- An operation that does not write fills nothing. -/
theorem staysEmpty_apply {op : Operation} (h : op.writes = false) (r : Replica) :
    r.StaysEmpty (op.apply r) := by
  cases op with
  | clearUsers =>
      have hcache : r.StaysEmpty { r with users := r.users.clear } :=
        ⟨fun _ => rfl, id, id, id, id, id⟩
      exact hcache.trans (staysEmpty_delete .deleteUsers (fun _ => ⟨fun _ => rfl, id, id⟩) _)
  | clearChannels =>
      have hcache : r.StaysEmpty { r with channels := r.channels.clear } :=
        ⟨id, fun _ => rfl, id, id, id, id⟩
      exact hcache.trans (staysEmpty_delete .deleteChannels (fun _ => ⟨id, fun _ => rfl, id⟩) _)
  | clearMessages =>
      have hcache : r.StaysEmpty { r with messages := r.messages.clear } :=
        ⟨id, id, fun _ => rfl, id, id, id⟩
      exact hcache.trans (staysEmpty_delete .deleteMessages (fun _ => ⟨id, id, fun _ => rfl⟩) _)
  | clearCaches => exact ⟨fun _ => rfl, fun _ => rfl, fun _ => rfl, id, id, id⟩
  | insertUsers users => exact nomatch h
  | insertMe user => exact nomatch h
  | insertChannels channels => exact nomatch h
  | updateLastMessage cid message => exact nomatch h
  | insertMessages messages cached => exact nomatch h
  | sendRequest message => exact nomatch h
  | sendResult classifier now message result => exact nomatch h
  | _ => exact (onlyRead_apply rfl r).staysEmpty

/-- What an operation that inserts nothing begins with has nothing in hand. -/
theorem holds_stages {op : Operation} (h : op.inserts = false) :
    ∀ stage ∈ op.stages, stage.holds = false := by
  intro stage hstage
  cases op with
  | updateLastMessage cid message => rw [List.mem_singleton.1 hstage]; rfl
  | insertUsers users => exact nomatch h
  | insertMe user => exact nomatch h
  | insertChannels channels => exact nomatch h
  | insertMessages messages cached => exact nomatch h
  | sendRequest message => exact nomatch h
  | sendResult classifier now message result => exact nomatch h
  | _ => rw [List.mem_singleton.1 hstage]; rfl

end Operation

/-! ## Stages -/

namespace Stage

theorem reads_find (cid : String) (message : Message) : (find cid message).run.Reads := by
  refine Action.Reads.bind
    (fun r => ⟨rfl, rfl, rfl, funext (r.channels.peek?_touch cid), rfl⟩) fun cached => ?_
  cases cached with
  | some channel => exact Action.reads_pure _
  | none => exact Action.reads_pure _

theorem reads_read (cid : String) (message : Message) : (read cid message).run.Reads :=
  (Action.reads_read _ _).bind fun _ => Action.reads_pure _

/-- A stage with nothing in hand fills nothing. -/
theorem staysEmpty_run {stage : Stage} (h : stage.holds = false) (r : Replica) :
    r.StaysEmpty (stage.run r).2 := by
  cases stage with
  | find cid message => exact (reads_find cid message r).staysEmpty
  | read cid message => exact (reads_read cid message r).staysEmpty
  | whole op => exact Operation.staysEmpty_apply h r
  | _ => exact nomatch h

theorem staysEmpty_advance {task : List Stage} (h : ∀ stage ∈ task, stage.holds = false)
    (r : Replica) : r.StaysEmpty (advance task r).2 := by
  cases task with
  | nil => exact .refl r
  | cons stage task =>
      have hrun := staysEmpty_run (h stage (List.mem_cons_self ..)) r
      simp only [advance]
      split <;> (next heq => rw [heq] at hrun; exact hrun)

/-- Where there are no channels, none is found. -/
theorem holds_run {stage : Stage} (h : stage.holds = false) {r r' : Replica} (hblank : r.IsBlank)
    {more : List Stage} (hrun : stage.run r = (.ok more, r')) :
    ∀ next ∈ more, next.holds = false := by
  cases stage with
  | find cid message =>
      have hnone : (r.channels.get? cid).1 = none :=
        EntityCache.entries_eq_nil_iff.1 hblank.cachedChannels cid
      simp only [run, Action.bind_apply, Action.update, hnone, Action.pure_apply, Prod.mk.injEq,
        Except.ok.injEq] at hrun
      rw [← hrun.1]
      intro next hnext
      rw [List.mem_singleton.1 hnext]
      rfl
  | read cid message =>
      have hrow : r.database.channel? cid = .ok none := by
        unfold Database.channel?
        rw [hblank.channels]
        rfl
      rcases hread : Replica.read (.channel cid) (fun db => db.channel? cid) r with
        ⟨_ | stored, r₁⟩
      · simp only [run, Action.bind_apply, hread, Prod.mk.injEq] at hrun
        exact absurd hrun.1 (by simp)
      · obtain rfl : none = stored := Except.ok.inj (hrow.symm.trans (Replica.read_ok hread).1)
        simp only [run, Action.bind_apply, hread, Action.pure_apply, Prod.mk.injEq,
          Except.ok.injEq] at hrun
        rw [← hrun.1]
        exact fun next hnext => absurd hnext (by simp)
  | whole op =>
      obtain rfl : [] = more := Except.ok.inj (Prod.mk.inj hrun).1
      exact fun next hnext => absurd hnext List.not_mem_nil
  | _ => exact absurd h (by simp [holds])

theorem holds_advance {task : List Stage} (h : ∀ stage ∈ task, stage.holds = false) {r : Replica}
    (hblank : r.IsBlank) : ∀ stage ∈ (advance task r).1, stage.holds = false := by
  cases task with
  | nil => exact h
  | cons stage task =>
      have hhead := h stage (List.mem_cons_self ..)
      simp only [advance]
      split
      · next more r' hrun =>
        intro next hnext
        rcases List.mem_append.1 hnext with hmore | htask
        · exact holds_run hhead hblank hrun next hmore
        · exact h next (List.mem_cons_of_mem _ htask)
      · exact fun next hnext => absurd hnext List.not_mem_nil

theorem leftover_subset (task : List Stage) : leftover task ⊆ task := by
  cases task with
  | nil => exact List.nil_subset _
  | cons stage task =>
      cases stage with
      | put batch => exact List.cons_subset.2 ⟨List.mem_cons_self .., List.nil_subset _⟩
      | putMe user => exact List.cons_subset.2 ⟨List.mem_cons_self .., List.nil_subset _⟩
      | _ => exact List.nil_subset _

end Stage

/-! ## Steps of passes and calls -/

namespace RetryPass

variable {σ ε : Type} [Syncable ε] {x : Exchange σ ε}

/-- A pass without a page under way does no more than select one. -/
theorem step_of_page_nil {Q : σ → σ → Prop} (hrefl : ∀ s, Q s s)
    (hselect : ∀ after limit s, Q s (x.select after limit s).2)
    (hwrite : ∀ s, Q s (x.write [] s).2) (rules : SyncRules) {pass : RetryPass ε}
    (hpage : pass.page = []) (s : σ) : Q s (step x rules pass s).2 := by
  cases pass with
  | selecting after report =>
      have hq := hselect after rules.limit s
      simp only [step]
      split
      · exact hrefl s
      · split <;> (next hsel => rw [hsel] at hq; exact hq)
  | submitting page progress =>
      obtain rfl : page = [] := hpage
      exact hrefl s
  | awaiting page progress =>
      obtain rfl : page = [] := List.map_eq_nil_iff.1 hpage
      have hq := hwrite s
      simp only [step, answers?, resolveAll, List.map_nil]
      split
      · next hw => rw [hw] at hq; exact hq
      · next hw => rw [hw] at hq; split <;> exact hq
  | finished result => exact hrefl s

end RetryPass

/-- Where no row waits, no page comes under way. -/
theorem Backing.page_turn_of_waiting_nil {σ ε ρ : Type} [Syncable ε] {x : Exchange σ ε}
    {B : Backing x ρ} {rules : SyncRules} {s s' : σ} {pass pass' : RetryPass ε} {es : List ε}
    (hwaits : B.waiting s = []) (hpage : pass.page = [])
    (hturn : B.Turn rules pass s es pass' s') : pass'.page = [] := by
  have hnone : ∀ k, k ∉ pass'.page.map key := fun k =>
    (not_mem_page_turn (by simp [hpage]) (by simp [hwaits]) hturn).1
  exact List.map_eq_nil_iff.1 (List.eq_nil_iff_forall_not_mem.2 hnone)

namespace SyncCall

variable {ρ : Type} {remote : Remote ρ} {rules : SyncRules}

/-- The call has selected a page that it has not written back. -/
def HoldsPage : SyncCall → Prop
  | channels pass => pass.page ≠ []
  | messages _ pass => pass.page ≠ []
  | _ => False

/-- A call without a page only looks at the replica. -/
theorem onlyRead_poll {a : SyncCall} (h : ¬a.HoldsPage) (c : Client ρ) :
    c.replica.OnlyRead (a.poll remote rules c).2.replica := by
  cases a with
  | channels pass =>
      have hstep : c.replica.OnlyRead
          (pass.step (Client.channelExchange remote) rules c).2.replica :=
        RetryPass.step_of_page_nil (Q := fun c c' : Client ρ => c.replica.OnlyRead c'.replica)
          (fun c => .refl c.replica) (fun _ _ c => Action.reads_read _ _ c.replica)
          (fun c => .refl c.replica) rules (not_not.1 h) c
      simp only [poll, pollWith]
      split <;> (next heq => rw [heq] at hstep; exact hstep)
  | messages report pass =>
      have hstep : c.replica.OnlyRead
          (pass.step (Client.messageExchange remote) rules c).2.replica :=
        RetryPass.step_of_page_nil (Q := fun c c' : Client ρ => c.replica.OnlyRead c'.replica)
          (fun c => .refl c.replica) (fun _ _ c => Messages.reads_byStatus _ _ _ c.replica)
          (fun c => .refl c.replica) rules (not_not.1 h) c
      simp only [poll, pollWith]
      split <;> (next heq => rw [heq] at hstep; exact hstep)
  | ready => simp only [poll, pollWith]; split <;> exact .refl c.replica
  | _ => exact .refl c.replica

/-- Over empty tables a call without a page gets none. -/
theorem not_holdsPage_poll {a : SyncCall} (h : ¬a.HoldsPage) {c : Client ρ}
    (hblank : c.replica.IsBlank) : ¬(a.poll remote rules c).1.HoldsPage := by
  cases a with
  | channels pass =>
      have hwaits : (Client.channelBacking remote).waiting c = [] := by
        show c.replica.database.channels.withStatus _ _ _ = []
        rw [hblank.channels]
        rfl
      have hpage := Backing.page_turn_of_waiting_nil hwaits (not_not.1 h)
        (Backing.turn_step (Client.channelBacking remote) rules pass c)
      simp only [poll, pollWith]
      split
      · exact id
      · exact id
      · next heq => rw [heq] at hpage; exact not_not.2 hpage
  | messages report pass =>
      have hwaits : (Client.messageBacking remote).waiting c = [] := by
        show c.replica.database.messages.withStatus _ _ _ = []
        rw [hblank.messages]
        rfl
      have hpage := Backing.page_turn_of_waiting_nil hwaits (not_not.1 h)
        (Backing.turn_step (Client.messageBacking remote) rules pass c)
      simp only [poll, pollWith]
      split
      · exact id
      · exact id
      · next heq => rw [heq] at hpage; exact not_not.2 hpage
  | ready => simp only [poll, pollWith]; split <;> exact id
  | guarded => exact not_not.2 rfl
  | between report => exact not_not.2 rfl
  | _ => exact id

/-- Nor has it anything to write back. -/
theorem writeBack?_of_not_holdsPage {a : SyncCall} (h : ¬a.HoldsPage) :
    a.writeBack? rules = none := by
  have hnone : ∀ {ε : Type} [Syncable ε] {pass : RetryPass ε}, pass.page = [] →
      pass.resolved? rules = none := by
    intro ε _ pass hpage
    cases pass with
    | awaiting page progress =>
        obtain rfl : page = [] := List.map_eq_nil_iff.1 hpage
        rfl
    | _ => rfl
  cases a with
  | channels pass => exact congrArg (Option.map Batch.channels) (hnone (not_not.1 h))
  | messages report pass =>
      exact congrArg (Option.map fun es => Batch.messages es true) (hnone (not_not.1 h))
  | _ => rfl

/-- There are no rows to read in an empty table. -/
theorem rows?_of_isBlank {a : SyncCall} {r : Replica} (hblank : r.IsBlank) :
    a.rows? rules r = none := by
  refine Option.eq_none_iff_forall_not_mem.2 fun found hrows => ?_
  obtain ⟨_, after, _, _, _, hsome, hread⟩ := exists_of_rows hrows
  have hempty : atMost rules.limit ([] : List Row) = [] :=
    List.sublist_nil.1 (atMost_sublist rules.limit [])
  have hnone : r.database.messagesByStatus .syncNeeded after rules.limit = .ok [] := by
    unfold Database.messagesByStatus
    rw [hblank.messages]
    exact congrArg (Database.readRows Row.message) hempty
  exact hsome (Except.ok.inj (hnone.symm.trans (Replica.read_ok hread).1)).symm

/-- A call without a page only looks at the replica, too, when it gets one in hand. -/
theorem onlyRead_halfway {a : SyncCall} (h : ¬a.HoldsPage) {r r' : Replica} {page : HalfPage}
    (hpage : a.halfway? rules r = some (page, r')) : r.OnlyRead r' := by
  unfold halfway? at hpage
  rw [writeBack?_of_not_holdsPage h] at hpage
  cases hrows : a.rows? rules r with
  | none => rw [hrows] at hpage; exact nomatch hpage
  | some found =>
      obtain ⟨stored, r₁⟩ := found
      rw [hrows] at hpage
      obtain ⟨rfl, rfl⟩ := Prod.mk.inj (Option.some.inj hpage)
      -- reading rows changes nothing
      obtain ⟨_, after, _, _, _, _, hread⟩ := exists_of_rows hrows
      have hreads := Action.reads_read (.messagesByStatus .syncNeeded after rules.limit)
        (fun db => db.messagesByStatus .syncNeeded after rules.limit) r
      rwa [hread] at hreads

/-- Over empty tables it gets none. -/
theorem halfway?_of_isBlank {a : SyncCall} (h : ¬a.HoldsPage) {r : Replica} (hblank : r.IsBlank) :
    a.halfway? rules r = none := by
  unfold halfway?
  rw [rows?_of_isBlank hblank, writeBack?_of_not_holdsPage h]
  rfl

theorem not_holdsPage_drop {a : SyncCall} (h : ¬a.HoldsPage) : ¬a.drop.HoldsPage := by
  cases a with
  | ready => exact id
  | channels pass => exact id
  | messages report pass => exact id
  | _ => exact h

end SyncCall

/-! ## Wiping -/

/-- The parts that steps of a wipe empty are empty. -/
structure Replica.Wiped (r : Replica) (done : List WipeStep) : Prop where
  cachedUsers : .users ∈ done → r.users.entries = []
  cachedMessages : .messages ∈ done → r.messages.entries = []
  cachedChannels : .channels ∈ done → r.channels.entries = []
  rows : .rows ∈ done → r.database.users = .empty ∧ r.database.channels = .empty ∧
    r.database.messages = .empty

theorem Replica.Wiped.of_staysEmpty {r r' : Replica} {done : List WipeStep} (h : r.Wiped done)
    (hstays : r.StaysEmpty r') : r'.Wiped done where
  cachedUsers hd := hstays.cachedUsers (h.cachedUsers hd)
  cachedMessages hd := hstays.cachedMessages (h.cachedMessages hd)
  cachedChannels hd := hstays.cachedChannels (h.cachedChannels hd)
  rows hd :=
    have ⟨husers, hchannels, hmessages⟩ := h.rows hd
    ⟨hstays.users husers, hstays.channels hchannels, hstays.messages hmessages⟩

/-- A step of a wipe fills nothing. -/
theorem WipeStep.staysEmpty_apply (step : WipeStep) (r : Replica) :
    r.StaysEmpty (step.apply r) := by
  cases step with
  | users => exact ⟨fun _ => rfl, id, id, id, id, id⟩
  | messages => exact ⟨id, id, fun _ => rfl, id, id, id⟩
  | channels => exact ⟨id, fun _ => rfl, id, id, id, id⟩
  | rows => exact ⟨id, id, id, fun _ => rfl, fun _ => rfl, fun _ => rfl⟩

theorem Replica.Wiped.step {r : Replica} {done : List WipeStep} (h : r.Wiped done)
    (step : WipeStep) : (step.apply r).Wiped (done ++ [step]) := by
  have hold := h.of_staysEmpty (step.staysEmpty_apply r)
  have hcases : ∀ {part : WipeStep}, part ∈ done ++ [step] → part ∈ done ∨ part = step :=
    fun hp => (List.mem_append.1 hp).imp_right List.mem_singleton.1
  constructor
  · intro hp
    rcases hcases hp with hd | rfl
    · exact hold.cachedUsers hd
    · rfl
  · intro hp
    rcases hcases hp with hd | rfl
    · exact hold.cachedMessages hd
    · rfl
  · intro hp
    rcases hcases hp with hd | rfl
    · exact hold.cachedChannels hd
    · rfl
  · intro hp
    rcases hcases hp with hd | rfl
    · exact hold.rows hd
    · exact ⟨rfl, rfl, rfl⟩

namespace Activity

variable {ρ : Type} (remote : Remote ρ) (rules : SyncRules) {s : Activity ρ}

/-- Nothing is under way that can still be written. -/
structure Quiet (s : Activity ρ) : Prop where
  /-- No call has selected a page that it has not written back. -/
  pages : ∀ i, ¬(s.call i).HoldsPage
  /-- No call waits for the users of a page whose rows it has read, nor for a batch to be written. -/
  halves : ∀ i, s.half i = none
  /-- No task has anything in hand, nor has what is left of a call or an operation. -/
  tasks : ∀ task ∈ s.tasks, ∀ stage ∈ task, stage.holds = false

/-- Whatever happens while all is quiet fills nothing. -/
theorem staysEmpty_act (h : s.Quiet) (action : ClientAction ρ) :
    s.client.replica.StaysEmpty (s.act remote rules action).client.replica := by
  cases action with
  | poll i =>
      cases hpage : (s.call i).halfway? rules s.client.replica with
      | none =>
          rw [act_poll_of_whole remote rules (h.halves i) hpage]
          exact (SyncCall.onlyRead_poll (h.pages i) s.client).staysEmpty
      | some next =>
          rw [act_poll_of_halfway remote rules (h.halves i) hpage]
          exact (SyncCall.onlyRead_halfway (h.pages i) hpage).staysEmpty
  | drop i => exact .refl _
  | call op => exact .refl _
  | advance k =>
      simp only [act]
      cases htask : s.tasks[k]? with
      | none => exact .refl _
      | some task =>
          exact Stage.staysEmpty_advance (h.tasks task (List.mem_of_getElem? htask)) _
  | abandon k =>
      simp only [act]
      cases s.tasks[k]? <;> exact .refl _
  | change circumstance => cases circumstance <;> exact ⟨id, id, id, id, id, id⟩
  | wipe step => exact step.staysEmpty_apply s.client.replica

theorem wiped_act {done : List WipeStep} (hwiped : s.client.replica.Wiped done) (h : s.Quiet)
    (action : ClientAction ρ) :
    (s.act remote rules action).client.replica.Wiped (done ++ action.wipe?.toList) := by
  have hstays := staysEmpty_act remote rules h action
  cases action with
  | wipe step => exact hwiped.step step
  | _ =>
      have hkept := hwiped.of_staysEmpty hstays
      simpa only [ClientAction.wipe?, Option.toList_none, List.append_nil] using hkept

/-- While all is quiet, the steps of a wipe empty what they are for. -/
theorem wiped_acts {done : List WipeStep} {during : List (ClientAction ρ)}
    (hwiped : s.client.replica.Wiped done)
    (hquiet : ∀ n, (s.acts remote rules (during.take n)).Quiet) :
    (s.acts remote rules during).client.replica.Wiped
      (done ++ during.filterMap ClientAction.wipe?) := by
  induction during generalizing s done with
  | nil => rwa [List.filterMap_nil, List.append_nil]
  | cons action during ih =>
      -- what earlier steps of the wipe have emptied is kept empty by this action
      have hnext := wiped_act remote rules hwiped (hquiet 0) action
      have hrest := ih hnext fun n => hquiet (n + 1)
      rw [List.filterMap_cons]
      cases hw : action.wipe? with
      | none => rwa [hw, Option.toList_none, List.append_nil] at hrest
      | some step => rwa [hw, Option.toList_some, List.append_assoc] at hrest

/-- A call of a quiet client changes into one without a page. -/
theorem Quiet.withCall (h : s.Quiet) {i : Nat} {a : SyncCall} (ha : ¬a.HoldsPage)
    (client : Client ρ) : ({ s with toSyncCalls := s.toSyncCalls.withCall i a client } :
      Activity ρ).Quiet := by
  refine ⟨fun j => ?_, h.halves, h.tasks⟩
  by_cases hj : j = i
  · show ¬(if j = i then a else s.call j).HoldsPage
    rw [if_pos hj]
    exact ha
  · show ¬(if j = i then a else s.call j).HoldsPage
    rw [if_neg hj]
    exact h.pages j

/-- A task of a quiet client changes into one with nothing in hand. -/
theorem Quiet.withTask (h : s.Quiet) {k : Nat} {task : List Stage}
    (htask : ∀ stage ∈ task, stage.holds = false) (replica : Replica) :
    ({ s.withReplica replica with tasks := s.tasks.set k task } : Activity ρ).Quiet := by
  refine ⟨h.pages, h.halves, fun other hother => ?_⟩
  rcases List.mem_or_eq_of_mem_set hother with hold | rfl
  · exact h.tasks other hold
  · exact htask

/-- Over empty tables all stays quiet until something is inserted. -/
theorem quiet_act (h : s.Quiet) (hblank : s.client.replica.IsBlank) {action : ClientAction ρ}
    (hinserts : ∀ op ∈ action.operation?, op.inserts = false) :
    (s.act remote rules action).Quiet := by
  cases action with
  | poll i =>
      have hwhole : (s.call i).halfway? rules s.client.replica = none :=
        SyncCall.halfway?_of_isBlank (h.pages i) hblank
      rw [act_poll_of_whole remote rules (h.halves i) hwhole]
      exact h.withCall (SyncCall.not_holdsPage_poll (h.pages i) hblank) _
  | drop i =>
      have hhalf : (fun j => if j = i then none else s.half j) = s.half := by
        funext j
        by_cases hj : j = i
        · rw [if_pos hj, hj, h.halves]
        · rw [if_neg hj]
      simp only [act, withHalf, h.halves i, hhalf, Option.toList_none, List.map_nil,
        List.append_nil]
      exact h.withCall (SyncCall.not_holdsPage_drop (h.pages i)) s.client
  | call op =>
      refine ⟨h.pages, h.halves, fun task htask => ?_⟩
      rcases List.mem_append.1 htask with hold | hnew
      · exact h.tasks task hold
      · rw [List.mem_singleton.1 hnew]
        exact Operation.holds_stages (hinserts op rfl)
  | advance k =>
      simp only [act]
      cases htask : s.tasks[k]? with
      | none => exact h
      | some task =>
          exact h.withTask
            (Stage.holds_advance (h.tasks task (List.mem_of_getElem? htask)) hblank) _
  | abandon k =>
      simp only [act]
      cases htask : s.tasks[k]? with
      | none => exact h
      | some task =>
          have hquiet := h.tasks task (List.mem_of_getElem? htask)
          exact h.withTask (fun stage hs => hquiet stage (Stage.leftover_subset task hs))
            s.client.replica
  | change circumstance => exact ⟨h.pages, h.halves, h.tasks⟩
  | wipe step => exact ⟨h.pages, h.halves, h.tasks⟩

/-- A quiet client that is empty stays so until something is inserted. -/
theorem isBlank_acts {rest : List (ClientAction ρ)} (h : s.Quiet)
    (hblank : s.client.replica.IsBlank)
    (hinserts : ∀ action ∈ rest, ∀ op ∈ action.operation?, op.inserts = false) :
    (s.acts remote rules rest).client.replica.IsBlank := by
  induction rest generalizing s with
  | nil => exact hblank
  | cons action rest ih =>
      have hfirst := hinserts action (List.mem_cons_self ..)
      exact ih (quiet_act remote rules h hblank hfirst)
        (hblank.of_staysEmpty (staysEmpty_act remote rules h action))
        fun a ha => hinserts a (List.mem_cons_of_mem _ ha)

/-- **A client that is wiped while nothing that can still be written is under way stays empty** until
the application inserts something. -/
theorem stays_wiped (remote : Remote ρ) (rules : SyncRules) (s : Activity ρ)
    (during rest : List (ClientAction ρ))
    (hwipe : WipeStep.all.Sublist (during.filterMap ClientAction.wipe?))
    (hquiet : ∀ n, (s.acts remote rules (during.take n)).Quiet)
    (hrest : ∀ action ∈ rest, ∀ op ∈ action.operation?, op.inserts = false) :
    (s.acts remote rules (during ++ rest)).client.replica.IsBlank := by
  have hnone : s.client.replica.Wiped [] := by constructor <;> intro h <;> exact nomatch h
  have hall := wiped_acts remote rules hnone hquiet
  have hdone : ∀ step ∈ WipeStep.all, step ∈ [] ++ during.filterMap ClientAction.wipe? :=
    fun step hstep => hwipe.subset hstep
  -- all is quiet right after the wipe, too, so nothing can come up over the empty tables
  have hlast := hquiet during.length
  rw [List.take_length] at hlast
  have hrows := hall.rows (hdone .rows (by decide))
  have happend : s.acts remote rules (during ++ rest)
      = (s.acts remote rules during).acts remote rules rest := List.foldl_append
  rw [happend]
  refine isBlank_acts remote rules hlast ?_ hrest
  exact
    { cachedUsers := hall.cachedUsers (hdone .users (by decide))
      cachedChannels := hall.cachedChannels (hdone .channels (by decide))
      cachedMessages := hall.cachedMessages (hdone .messages (by decide))
      users := hrows.1
      channels := hrows.2.1
      messages := hrows.2.2 }

/-! ### Entities that come back -/

/-- More happens, while the remote service acknowledges everything. -/
def goOn (s : Activity Unit) (actions : List (ClientAction Unit)) : Activity Unit :=
  s.acts (.stateless .ok .ok) ⟨50, none, .standard, .epoch⟩ actions

/-- A client with two waiting channels, on which these actions come before a wipe. -/
def wipedAfter (actions : List (ClientAction Unit)) : Activity Unit :=
  (new SyncPass.waitingInChannel).goOn (actions ++ WipeStep.all.map .wipe)

/-- A message that is newer than any in its channel. -/
def datedMessage : Message := { SyncPass.waitingMessage with createdAt := some .epoch }

/-- A pass that has not read any rows yet and an operation that has not found its channel yet are
under way when the client is wiped; they go on, and nothing is found any more. -/
theorem stays_wiped_waitingInChannel :
    ((wipedAfter (List.replicate 3 (.poll 0) ++
        [.call (.updateLastMessage "team:b" datedMessage)])).goOn
      ([.advance 0, .advance 0] ++ List.replicate 9 (.poll 0))).client.replica.IsBlank := by
  have hwiped := stays_wiped (.stateless .ok .ok) ⟨50, none, .standard, .epoch⟩
    (new SyncPass.waitingInChannel)
    (List.replicate 3 (.poll 0) ++ [.call (.updateLastMessage "team:b" datedMessage)]
      ++ WipeStep.all.map .wipe)
    ([.advance 0, .advance 0] ++ List.replicate 9 (.poll 0)) (List.Sublist.refl _) (fun n => ?_)
    fun action haction op hop => ?_
  · exact hwiped
  · -- the only call has no page yet, and the only task looks for its channel
    have hpage : ¬(SyncCall.channels .start).HoldsPage := not_not.2 rfl
    have htasks : ∀ task ∈ [[Stage.find "team:b" datedMessage]], ∀ stage ∈ task,
        stage.holds = false := by
      intro task htask stage hstage
      rw [List.mem_singleton.1 htask] at hstage
      rw [List.mem_singleton.1 hstage]
      rfl
    have hnone : ∀ task ∈ ([] : List (List Stage)), ∀ stage ∈ task, stage.holds = false :=
      fun _ htask => absurd htask List.not_mem_nil
    match n with
    | 0 => exact ⟨fun _ => id, fun _ => rfl, hnone⟩
    | 1 | 2 => exact ⟨fun | 0 => id | _ + 1 => id, fun _ => rfl, hnone⟩
    | 3 => exact ⟨fun | 0 => hpage | _ + 1 => id, fun _ => rfl, hnone⟩
    | 4 | 5 | 6 | 7 => exact ⟨fun | 0 => hpage | _ + 1 => id, fun _ => rfl, htasks⟩
    | n + 8 =>
        rw [List.take_of_length_le (by simp [WipeStep.all])]
        exact ⟨fun | 0 => hpage | _ + 1 => id, fun _ => rfl, htasks⟩
  · rcases List.mem_append.1 haction with hadvance | hpoll
    · rcases List.mem_cons.1 hadvance with rfl | hadvance
      · exact nomatch hop
      · rw [List.mem_singleton.1 hadvance] at hop
        exact nomatch hop
    · rw [List.eq_of_mem_replicate hpoll] at hop
      exact nomatch hop

/-- A pass waits for the answers to its two channels when the client is wiped. -/
def wipedInPass : Activity Unit := wipedAfter (List.replicate 5 (.poll 0))

/-- The rows of a page of messages have been read, and their users have not been looked up yet. -/
def wipedBetweenReads : Activity Unit := wipedAfter (List.replicate 9 (.poll 0))

/-- The users of that page are not found any more. -/
theorem hydrate_wipedBetweenReads :
    Messages.hydrate [SyncPass.waitingMessage] wipedBetweenReads.client.replica
      = (.ok [SyncPass.waitingMessage],
          { wipedBetweenReads.client.replica with
            calls := .users ["u"] :: wipedBetweenReads.client.replica.calls }) := by
  have hgroups : groupsOf (maxKeysPerQuery - 1) ["u"] = [["u"]] := by
    simp [groupsOf, maxKeysPerQuery]
  have husers : wipedBetweenReads.client.replica.database.usersOf ["u"] = .ok [] := by
    show (Database.readRows _ ((groupsOf _ ["u"]).flatMap _)).map _ = _
    rw [hgroups]
    rfl
  have hread : Replica.read (.users ["u"]) (fun db => db.usersOf ["u"])
      wipedBetweenReads.client.replica = (.ok [],
        { wipedBetweenReads.client.replica with
          calls := .users ["u"] :: wipedBetweenReads.client.replica.calls }) := by
    show (wipedBetweenReads.client.replica.database.usersOf ["u"], _) = _
    rw [husers]
  have hselect := Action.bind_apply_ok (f := fun stored => pure ([] ++ stored)) hread
  have hdirectory := Action.bind_apply_ok
    (f := fun users => Action.get >>= fun r =>
      pure ((Table.ofList users).putAll r.currentUser.toList)) hselect
  exact Action.bind_apply_ok
    (f := fun directory => pure ([SyncPass.waitingMessage].map (Message.withUsers directory)))
    hdirectory

/-- Its messages are submitted all the same. -/
theorem goOn_wipedBetweenReads (actions : List (ClientAction Unit)) :
    wipedBetweenReads.goOn (.poll 0 :: actions)
      = ((wipedBetweenReads.proceed 0 (Client.channelExchange (.stateless .ok .ok))
          { Client.messageExchange (.stateless .ok .ok) with
            select := fun _ _ c => (.ok [SyncPass.waitingMessage], c) }
          ⟨50, none, .standard, .epoch⟩
          { wipedBetweenReads.client.replica with
            calls := .users ["u"] :: wipedBetweenReads.client.replica.calls }).withHalf 0 none
        ).goOn actions := by
  have hhalf : wipedBetweenReads.half 0 = some (.read [SyncPass.waitingMessage]) := rfl
  show (wipedBetweenReads.act _ _ (.poll 0)).goOn actions = _
  rw [act_poll_of_half _ _ hhalf]
  simp only [resume, hydrate_wipedBetweenReads]

/-- The answers have come, and the call is dropped while the database is to write its page. -/
def wipedAfterDrop : Activity Unit := wipedAfter (List.replicate 6 (.poll 0) ++ [.drop 0])

/-- The channel of a message has been found. -/
def wipedOnceFound : Activity Unit :=
  wipedAfter [.call (.updateLastMessage "team:b" datedMessage), .advance 0, .advance 0]

/-- An insert has filed its channel, and is given up while the database is to write it. -/
def wipedInInsert : Activity Unit :=
  wipedAfter [.call (.insertChannels [SyncPass.waitingChannel "c"]), .advance 0, .abandon 0]

/-- **Wiped data can come back**, though nobody inserts anything after the wipe: a page whose answers
a pass waited for, a page whose rows were read, a batch that a dropped call had on its way to the
database, a channel that was found and then gets its new last message, and an insert that had
begun, though it was given up. -/
theorem comes_back :
    (wipedInPass.client.replica.IsBlank ∧
      (wipedInPass.goOn [.poll 0, .poll 0]).client.replica.database.channels.size = 2 ∧
      (wipedInPass.goOn [.poll 0, .poll 0]).client.replica.channels.size = 1) ∧
    (wipedBetweenReads.client.replica.IsBlank ∧
      (wipedBetweenReads.goOn (List.replicate 4 (.poll 0))
        ).client.replica.database.messages.size = 1 ∧
      (wipedBetweenReads.goOn (List.replicate 4 (.poll 0))).client.replica.messages.size = 1) ∧
    (wipedAfterDrop.client.replica.IsBlank ∧
      (wipedAfterDrop.goOn [.advance 0]).client.replica.database.channels.size = 2) ∧
    (wipedOnceFound.client.replica.IsBlank ∧
      (wipedOnceFound.goOn (List.replicate 3 (.advance 0))
        ).client.replica.database.channels.size = 1 ∧
      (wipedOnceFound.goOn (List.replicate 3 (.advance 0))).client.replica.channels.size = 1) ∧
    wipedInInsert.client.replica.IsBlank ∧
      (wipedInInsert.goOn [.advance 0]).client.replica.database.channels.size = 1 := by
  have hhydrated := goOn_wipedBetweenReads (List.replicate 3 (.poll 0))
  refine ⟨⟨⟨rfl, rfl, rfl, rfl, rfl, rfl⟩, by decide, by decide⟩,
    ⟨⟨rfl, rfl, rfl, rfl, rfl, rfl⟩, ?_⟩,
    ⟨⟨rfl, rfl, rfl, rfl, rfl, rfl⟩, by decide⟩,
    ⟨⟨rfl, rfl, rfl, rfl, rfl, rfl⟩, by decide, by decide⟩,
    ⟨rfl, rfl, rfl, rfl, rfl, rfl⟩, by decide⟩
  rw [List.replicate_succ, hhydrated]
  exact ⟨by decide, by decide⟩

end Activity

end OfflineChat
