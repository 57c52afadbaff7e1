import Mathlib.Data.List.Induction
import OfflineChat.Proofs.Sync.Repositories
import OfflineChat.Sync.Calls

/-! # One pass at a time

However the calls for sync passes interleave, one pass runs at a time, and the states that they
publish are a sequence of blocks, one for each pass, in the order in which the calls got the lock.
Main definitions: `SyncCall.block`, the states that a call has published; the invariant
`SyncCalls.Inv`; `SyncCalls.Lawful`, what holds at any time; and `SyncCalls.GaveUp`, a drop in the
middle of a pass. Main statements: a step keeps the invariant (`SyncCalls.inv_step`), a dropped call
goes on to be idle whatever comes between (`SyncCalls.call_of_gaveUp`), and every run is lawful
(`SyncCalls.run_lawful`). The steps of a single pass are those of `SyncPass`, taken without
interruption (`SyncCall.polls_start`, `SyncCall.polls_step`, `SyncCall.polls_drop`). -/

set_option autoImplicit false

namespace OfflineChat

/-! ## Published states -/

/-- The state that an event publishes. -/
def SyncEvent.published? : SyncEvent → Option SyncState
  | published state => some state
  | _ => none

/-- The states published so far, first one first. -/
def Client.publishedStates {ρ : Type} (c : Client ρ) : List SyncState :=
  (c.events.filterMap SyncEvent.published?).reverse

@[simp] theorem Client.publishedStates_publish {ρ : Type} (c : Client ρ) (state : SyncState) :
    (c.publish state).publishedStates = c.publishedStates ++ [state] := by
  simp [publishedStates, publish, SyncEvent.published?]

/-- What calls see of one another: the published states, and whether the lock is taken. -/
def Client.visible {ρ : Type} (c : Client ρ) : List SyncState × Bool := (c.publishedStates, c.busy)

/-- The action is a step of this call. -/
def SyncAction.isPollOf {ρ : Type} (i : Nat) : SyncAction ρ → Bool
  | poll j => j == i
  | _ => false

/-- A state that ends a pass. -/
def SyncState.isFinal : SyncState → Bool
  | running _ => false
  | _ => true

namespace SyncCall

variable {ρ : Type} {remote : Remote ρ} {rules : SyncRules}

/-- The call has the lock. -/
def hasLock : SyncCall → Bool
  | ready | skipped | discarded | returned _ _ | dropped _ => false
  | _ => true

/-- The call had the lock and has given it back. -/
def isOver : SyncCall → Bool
  | returned _ _ | dropped _ => true
  | _ => false

/-- The call is in the middle of its pass, which waits for the database or the remote service. -/
def waits : SyncCall → Bool
  | channels _ | messages _ _ => true
  | _ => false

/-- What the pass over the channels reported, if it got that far. -/
def channelReport? : SyncCall → Option RetryReport
  | between report => some report
  | messages report _ => some report
  | ended report _ | settled report _ | published report _ | unguarded report _
  | returned report _ | cancelled report | released report | dropped report => report
  | _ => none

/-- The states that are published while a pass runs. -/
def opening (report : Option RetryReport) : List SyncState :=
  .running .channels :: (report.map fun _ => SyncState.running .messages).toList

/-- The states that a call has published. -/
def block : SyncCall → List SyncState
  | ready | skipped | discarded | locked | guarded => []
  | channels _ | between _ => opening none
  | messages report _ => opening (some report)
  | ended report _ | settled report _ | cancelled report => opening report
  | published report result | unguarded report result | returned report result =>
      opening report ++ [finalState result]
  | released report | dropped report => opening report ++ [.idle]

/-! ## Single steps -/

theorem visible_step_channels (remote : Remote ρ) (rules : SyncRules) (pass : RetryPass Channel)
    (c : Client ρ) : (pass.step (Client.channelExchange remote) rules c).2.visible = c.visible :=
  RetryPass.step_keeps Client.visible (fun _ _ _ => rfl) (fun _ _ => rfl) rules pass c
    fun page _ _ => RetryPass.submitAll_keeps Client.visible (fun _ _ => rfl) page c

theorem visible_step_messages (remote : Remote ρ) (rules : SyncRules) (pass : RetryPass Message)
    (c : Client ρ) : (pass.step (Client.messageExchange remote) rules c).2.visible = c.visible :=
  RetryPass.step_keeps Client.visible (fun _ _ _ => rfl) (fun _ _ => rfl) rules pass c
    fun page _ _ => RetryPass.submitAll_keeps Client.visible (fun _ _ => rfl) page c

/-- A call that has the lock publishes what its block grows by; it keeps the lock or is over. -/
theorem poll_of_hasLock (remote : Remote ρ) (rules : SyncRules) {a : SyncCall}
    (h : a.hasLock = true) (c : Client ρ) : ∃ more,
    (a.poll remote rules c).1.block = a.block ++ more ∧
      (a.poll remote rules c).2.publishedStates = c.publishedStates ++ more ∧
      (((a.poll remote rules c).1.hasLock = true ∧ (a.poll remote rules c).2.busy = c.busy) ∨
        ((a.poll remote rules c).1.hasLock = false ∧ (a.poll remote rules c).1.isOver = true ∧
          (a.poll remote rules c).2.busy = false)) := by
  cases a with
  | ready => exact absurd h (by simp [hasLock])
  | skipped => exact absurd h (by simp [hasLock])
  | discarded => exact absurd h (by simp [hasLock])
  | returned report result => exact absurd h (by simp [hasLock])
  | dropped report => exact absurd h (by simp [hasLock])
  | locked => exact ⟨[], rfl, (List.append_nil _).symm, .inl ⟨rfl, rfl⟩⟩
  | guarded => exact ⟨[.running .channels], rfl, c.publishedStates_publish _, .inl ⟨rfl, rfl⟩⟩
  | channels pass =>
      obtain ⟨hpublished, hbusy⟩ := Prod.mk.inj (visible_step_channels remote rules pass c)
      simp only [poll, pollWith]
      split
      all_goals
        next hstep =>
          rw [hstep] at hpublished hbusy
          exact ⟨[], (List.append_nil _).symm, by rw [List.append_nil]; exact hpublished,
            .inl ⟨rfl, hbusy⟩⟩
  | between report =>
      exact ⟨[.running .messages], rfl, c.publishedStates_publish _, .inl ⟨rfl, rfl⟩⟩
  | messages report pass =>
      obtain ⟨hpublished, hbusy⟩ := Prod.mk.inj (visible_step_messages remote rules pass c)
      simp only [poll, pollWith]
      split
      all_goals
        next hstep =>
          rw [hstep] at hpublished hbusy
          exact ⟨[], (List.append_nil _).symm, by rw [List.append_nil]; exact hpublished,
            .inl ⟨rfl, hbusy⟩⟩
  | ended report result =>
      exact ⟨[], (List.append_nil _).symm, (List.append_nil _).symm, .inl ⟨rfl, rfl⟩⟩
  | settled report result =>
      exact ⟨[finalState result], rfl, c.publishedStates_publish _, .inl ⟨rfl, rfl⟩⟩
  | published report result =>
      exact ⟨[], (List.append_nil _).symm, (List.append_nil _).symm, .inl ⟨rfl, rfl⟩⟩
  | unguarded report result =>
      exact ⟨[], (List.append_nil _).symm, (List.append_nil _).symm, .inr ⟨rfl, rfl, rfl⟩⟩
  | cancelled report => exact ⟨[.idle], rfl, c.publishedStates_publish _, .inl ⟨rfl, rfl⟩⟩
  | released report =>
      exact ⟨[], (List.append_nil _).symm, (List.append_nil _).symm, .inr ⟨rfl, rfl, rfl⟩⟩

/-- Giving a call up publishes nothing yet and does not touch the lock. -/
theorem drop_spec (a : SyncCall) :
    a.drop.block = a.block ∧ a.drop.hasLock = a.hasLock ∧ a.drop.isOver = a.isOver := by
  cases a <;> exact ⟨rfl, rfl, rfl⟩

/-- Only a call that waits, or has not begun, can be given up. -/
theorem drop_of_not_waits {a : SyncCall} (hwaits : a.waits = false) (hready : a ≠ ready) :
    a.drop = a := by
  cases a with
  | ready => exact absurd rfl hready
  | channels pass => exact absurd hwaits (by simp [waits])
  | messages report pass => exact absurd hwaits (by simp [waits])
  | _ => rfl

theorem drop_of_waits {a : SyncCall} (h : a.waits = true) : a.drop = cancelled a.channelReport? := by
  cases a with
  | channels pass => rfl
  | messages report pass => rfl
  | _ => exact absurd h (by simp [waits])

/-- Nothing happens any more in a call that has returned or was dropped. -/
theorem poll_of_still (remote : Remote ρ) (rules : SyncRules) {a : SyncCall}
    (hlock : a.hasLock = false) (hready : a ≠ ready) (c : Client ρ) :
    a.poll remote rules c = (a, c) := by
  cases a with
  | ready => exact absurd rfl hready
  | skipped => rfl
  | discarded => rfl
  | returned report result => rfl
  | dropped report => rfl
  | _ => exact absurd hlock (by simp [hasLock])

theorem not_waits_of_still {a : SyncCall} (hlock : a.hasLock = false) : a.waits = false := by
  cases a with
  | channels pass => exact absurd hlock (by simp [hasLock])
  | messages report pass => exact absurd hlock (by simp [hasLock])
  | _ => rfl

end SyncCall

/-! ## The invariant -/

namespace SyncCalls

open SyncCall

variable {ρ : Type} {remote : Remote ρ} {rules : SyncRules} {s : SyncCalls ρ}

/-- The calls that are over, in the order in which they got the lock, and the call that has it. -/
structure Inv (s : SyncCalls ρ) (done : List Nat) (current : Option Nat) : Prop where
  nodup : done.Nodup
  mem_done : ∀ i, i ∈ done ↔ (s.call i).isOver = true
  current_iff : ∀ i, current = some i ↔ (s.call i).hasLock = true
  busy_eq : s.client.busy = current.isSome
  published_eq : s.client.publishedStates
    = (done ++ current.toList).flatMap fun i => (s.call i).block

@[simp] theorem call_withCall_self (s : SyncCalls ρ) (i : Nat) (a : SyncCall) (c : Client ρ) :
    (s.withCall i a c).call i = a := if_pos rfl

theorem call_withCall_of_ne {i j : Nat} (h : j ≠ i) (s : SyncCalls ρ) (a : SyncCall)
    (c : Client ρ) : (s.withCall i a c).call j = s.call j := if_neg h

theorem withCall_self (s : SyncCalls ρ) (i : Nat) : s.withCall i (s.call i) s.client = s := by
  have hcall : (fun j => if j = i then s.call i else s.call j) = s.call := by
    funext j
    by_cases h : j = i
    · rw [if_pos h, h]
    · rw [if_neg h]
  unfold withCall
  rw [hcall]

theorem withCall_withCall (s : SyncCalls ρ) (i : Nat) (a b : SyncCall) (c d : Client ρ) :
    (s.withCall i a c).withCall i b d = s.withCall i b d := by
  have hcall : (fun j => if j = i then b else if j = i then a else s.call j)
      = fun j => if j = i then b else s.call j := by
    funext j
    by_cases h : j = i
    · rw [if_pos h, if_pos h]
    · rw [if_neg h, if_neg h, if_neg h]
  unfold withCall
  rw [hcall]

theorem not_isOver_of_hasLock {a : SyncCall} (h : a.hasLock = true) : a.isOver = false := by
  cases a with
  | returned report result => exact absurd h (by simp [hasLock])
  | dropped report => exact absurd h (by simp [hasLock])
  | _ => rfl

/-- The invariant looks at calls and client from outside only. -/
theorem Inv.congr {done : List Nat} {current : Option Nat} {s' : SyncCalls ρ}
    (h : s.Inv done current) (hvisible : s'.client.visible = s.client.visible)
    (hcall : ∀ i, (s'.call i).block = (s.call i).block ∧
      (s'.call i).hasLock = (s.call i).hasLock ∧ (s'.call i).isOver = (s.call i).isOver) :
    s'.Inv done current := by
  obtain ⟨hpublished, hbusy⟩ := Prod.mk.inj hvisible
  refine ⟨h.nodup, fun i => ?_, fun i => ?_, hbusy.trans h.busy_eq, ?_⟩
  · rw [(hcall i).2.2]
    exact h.mem_done i
  · rw [(hcall i).2.1]
    exact h.current_iff i
  · rw [hpublished, h.published_eq]
    have hblock : (fun i => (s'.call i).block) = fun i => (s.call i).block :=
      funext fun i => (hcall i).1
    rw [hblock]

/-- One call may change into another one that looks the same. -/
theorem Inv.withCall_alike {done : List Nat} {current : Option Nat} (h : s.Inv done current)
    {i : Nat} {a : SyncCall} {c : Client ρ} (hvisible : c.visible = s.client.visible)
    (ha : a.block = (s.call i).block ∧ a.hasLock = (s.call i).hasLock ∧
      a.isOver = (s.call i).isOver) : (s.withCall i a c).Inv done current := by
  refine h.congr hvisible fun j => ?_
  by_cases hj : j = i
  · subst hj
    rw [call_withCall_self]
    exact ha
  · rw [call_withCall_of_ne hj]
    exact ⟨rfl, rfl, rfl⟩

theorem inv_new {client : Client ρ} (hidle : client.busy = false)
    (hnew : client.publishedStates = []) : (new client).Inv [] none where
  nodup := List.nodup_nil
  mem_done _ := ⟨fun h => (nomatch h), fun h => (nomatch h)⟩
  current_iff _ := ⟨fun h => (nomatch h), fun h => (nomatch h)⟩
  busy_eq := hidle
  published_eq := hnew

theorem step_poll (s : SyncCalls ρ) (i : Nat) : s.step remote rules (.poll i)
    = s.withCall i ((s.call i).poll remote rules s.client).1
        ((s.call i).poll remote rules s.client).2 := rfl

theorem step_poll_withCall (s : SyncCalls ρ) (i : Nat) (a : SyncCall) (c : Client ρ) :
    (s.withCall i a c).step remote rules (.poll i)
      = s.withCall i (a.poll remote rules c).1 (a.poll remote rules c).2 := by
  rw [step_poll, call_withCall_self, withCall_withCall]
  rfl

theorem step_drop (s : SyncCalls ρ) (i : Nat) :
    s.step remote rules (.drop i) = s.withCall i (s.call i).drop s.client := rfl

theorem step_drop_of_not_waits {i : Nat} (hwaits : (s.call i).waits = false)
    (hready : s.call i ≠ .ready) : s.step remote rules (.drop i) = s := by
  rw [step_drop, drop_of_not_waits hwaits hready, withCall_self]

/-- A call is dropped while its pass waits, and takes its last two steps. -/
theorem run_cancelled {i : Nat} (h : (s.call i).waits = true) :
    s.run remote rules [.drop i, .poll i, .poll i]
      = s.withCall i (.dropped (s.call i).channelReport?)
          { s.client.publish .idle with busy := false } := by
  show ((s.step remote rules (.drop i)).step remote rules (.poll i)).step remote rules (.poll i) = _
  rw [step_drop, drop_of_waits h, step_poll_withCall, step_poll_withCall]
  rfl

/-- The call that has the lock takes a step. -/
theorem inv_poll_current (remote : Remote ρ) (rules : SyncRules) {done : List Nat} {i : Nat}
    (h : s.Inv done (some i)) :
    ∃ done' current', (s.step remote rules (.poll i)).Inv done' current' := by
  have hlock : (s.call i).hasLock = true := (h.current_iff i).1 rfl
  have hnot : i ∉ done := by
    rw [h.mem_done, not_isOver_of_hasLock hlock]
    exact Bool.false_ne_true
  obtain ⟨more, hblock, hpublished, hnext⟩ :=
    poll_of_hasLock remote rules hlock s.client
  rw [step_poll]
  generalize (s.call i).poll remote rules s.client = next at *
  obtain ⟨a, c⟩ := next
  simp only at hblock hpublished hnext ⊢
  -- the other calls are as they were, and so are their blocks
  have hdone : (done.flatMap fun j => ((s.withCall i a c).call j).block)
      = done.flatMap fun j => (s.call j).block := by
    refine congrArg List.flatten (List.map_congr_left fun j hj => ?_)
    have hne : j ≠ i := fun e => hnot (e ▸ hj)
    rw [call_withCall_of_ne hne]
  have hstates : c.publishedStates
      = (done ++ [i]).flatMap fun j => ((s.withCall i a c).call j).block := by
    calc c.publishedStates
        = ((done ++ [i]).flatMap fun j => (s.call j).block) ++ more := by
          rw [hpublished, h.published_eq]
          rfl
      _ = (done.flatMap fun j => (s.call j).block) ++ a.block := by
          rw [List.flatMap_append, List.flatMap_singleton, List.append_assoc, hblock]
      _ = (done ++ [i]).flatMap fun j => ((s.withCall i a c).call j).block := by
          rw [List.flatMap_append, List.flatMap_singleton, hdone, call_withCall_self]
  rcases hnext with ⟨hl, hbusy⟩ | ⟨hl, hover, hbusy⟩
  · -- it keeps the lock
    refine ⟨done, some i, h.nodup, fun j => ?_, fun j => ?_, hbusy.trans h.busy_eq, hstates⟩
    · by_cases hj : j = i
      · subst hj
        rw [call_withCall_self, not_isOver_of_hasLock hl]
        exact ⟨fun hm => absurd hm hnot, fun hf => absurd hf Bool.false_ne_true⟩
      · rw [call_withCall_of_ne hj]
        exact h.mem_done j
    · by_cases hj : j = i
      · subst hj
        rw [call_withCall_self]
        exact ⟨fun _ => hl, fun _ => rfl⟩
      · rw [call_withCall_of_ne hj]
        exact h.current_iff j
  · -- it gives the lock back and is the last of the calls that are over
    refine ⟨done ++ [i], none, ?_, fun j => ?_, fun j => ?_, hbusy, ?_⟩
    · exact List.nodup_append.2 ⟨h.nodup, List.nodup_cons.2 ⟨List.not_mem_nil, List.nodup_nil⟩,
        fun j hj k hk e => hnot (List.mem_singleton.1 hk ▸ e ▸ hj)⟩
    · rw [List.mem_append, List.mem_singleton]
      by_cases hj : j = i
      · subst hj
        rw [call_withCall_self]
        exact ⟨fun _ => hover, fun _ => .inr rfl⟩
      · rw [call_withCall_of_ne hj, ← h.mem_done j]
        exact ⟨fun hm => hm.resolve_right hj, .inl⟩
    · by_cases hj : j = i
      · subst hj
        rw [call_withCall_self, hl]
        exact ⟨fun e => (nomatch e), fun e => (nomatch e)⟩
      · rw [call_withCall_of_ne hj, ← h.current_iff j]
        exact ⟨fun e => (nomatch e), fun e => absurd (Option.some.inj e).symm hj⟩
    · rw [Option.toList_none, List.append_nil]
      exact hstates

/-- A call takes its first step while no call has the lock: it gets the lock. -/
theorem inv_poll_free (remote : Remote ρ) (rules : SyncRules) {done : List Nat} {i : Nat}
    (h : s.Inv done none) (hready : s.call i = .ready) :
    s.step remote rules (.poll i) = s.withCall i .locked { s.client with busy := true } ∧
      (s.step remote rules (.poll i)).Inv done (some i) := by
  have hbusy : s.client.busy = false := h.busy_eq
  have hstep : s.step remote rules (.poll i)
      = s.withCall i .locked { s.client with busy := true } := by
    simp only [step, hready, poll, pollWith, hbusy, Bool.false_eq_true, if_false]
  refine ⟨hstep, ?_⟩
  rw [hstep]
  refine ⟨h.nodup, fun j => ?_, fun j => ?_, rfl, ?_⟩
  · by_cases hj : j = i
    · subst hj
      rw [call_withCall_self, h.mem_done, hready]
      exact Iff.rfl
    · rw [call_withCall_of_ne hj]
      exact h.mem_done j
  · by_cases hj : j = i
    · subst hj
      rw [call_withCall_self]
      exact ⟨fun _ => rfl, fun _ => rfl⟩
    · rw [call_withCall_of_ne hj, ← h.current_iff j]
      exact ⟨fun e => absurd (Option.some.inj e).symm hj, fun e => (nomatch e)⟩
  · -- the new call has published nothing yet
    have hblock : (fun j =>
        ((s.withCall i SyncCall.locked { s.client with busy := true }).call j).block)
        = fun j => (s.call j).block := by
      funext j
      by_cases hj : j = i
      · subst hj
        rw [call_withCall_self, hready]
        rfl
      · rw [call_withCall_of_ne hj]
    have hstates := h.published_eq
    rw [Option.toList_none, List.append_nil] at hstates
    rw [hblock, List.flatMap_append, ← hstates]
    simp [hready, block, withCall, Client.publishedStates]

/-- A call takes its first step while another one has the lock: it returns at once. -/
theorem step_poll_busy {done : List Nat} {i j : Nat} (h : s.Inv done (some j))
    (hready : s.call i = .ready) :
    s.step remote rules (.poll i) = s.withCall i .skipped s.client := by
  have hbusy : s.client.busy = true := h.busy_eq
  simp only [step, hready, poll, pollWith, hbusy, if_true]

theorem inv_step (remote : Remote ρ) (rules : SyncRules) {done : List Nat}
    {current : Option Nat} (h : s.Inv done current) (action : SyncAction ρ) :
    ∃ done' current', (s.step remote rules action).Inv done' current' := by
  cases action with
  | others replica state => exact ⟨done, current, h.congr rfl fun _ => ⟨rfl, rfl, rfl⟩⟩
  | drop i => exact ⟨done, current, h.withCall_alike rfl (drop_spec (s.call i))⟩
  | poll i =>
      by_cases hready : s.call i = .ready
      · cases current with
        | none => exact ⟨done, some i, (inv_poll_free remote rules h hready).2⟩
        | some j =>
            refine ⟨done, some j, ?_⟩
            rw [step_poll_busy h hready]
            refine h.withCall_alike rfl ?_
            rw [hready]
            exact ⟨rfl, rfl, rfl⟩
      · by_cases hlock : (s.call i).hasLock = true
        · obtain rfl : current = some i := (h.current_iff i).2 hlock
          exact inv_poll_current remote rules h
        · have hstill := poll_of_still remote rules
            (Bool.not_eq_true _ ▸ hlock) hready s.client
          refine ⟨done, current, ?_⟩
          rw [step_poll, hstill, withCall_self]
          exact h

theorem inv_run (remote : Remote ρ) (rules : SyncRules) {done : List Nat}
    {current : Option Nat} (h : s.Inv done current) (actions : List (SyncAction ρ)) :
    ∃ done' current', (s.run remote rules actions).Inv done' current' := by
  induction actions generalizing s done current with
  | nil => exact ⟨done, current, h⟩
  | cons action actions ih =>
      obtain ⟨done', current', hnext⟩ := inv_step remote rules h action
      exact ih hnext

/-! ## What holds at any time -/

/-- What holds at any time of the calls for sync passes. -/
structure Lawful (remote : Remote ρ) (rules : SyncRules) (s : SyncCalls ρ) : Prop where
  /-- At most one call has the lock. -/
  exclusive : ∀ i j, (s.call i).hasLock = true → (s.call j).hasLock = true → i = j
  /-- A call made while another one has it returns without a report, and nothing else happens. -/
  skips : ∀ i j, (s.call i).hasLock = true → s.call j = .ready →
    s.step remote rules (.poll j) = s.withCall j .skipped s.client
  /-- A call that has returned or was dropped does nothing more. -/
  still : ∀ i, (s.call i).hasLock = false → s.call i ≠ .ready →
    s.step remote rules (.poll i) = s ∧ s.step remote rules (.drop i) = s
  /-- The published states are the blocks of the calls that got the lock, in that order, and all
  these calls but the last one are over. -/
  blocks : ∃ order : List Nat, order.Nodup ∧
    (∀ i, i ∈ order ↔ (s.call i).hasLock = true ∨ (s.call i).isOver = true) ∧
    (∀ i ∈ order.dropLast, (s.call i).isOver = true) ∧
    s.client.publishedStates = order.flatMap fun i => (s.call i).block
  /-- The block of a call that is over is whole. -/
  whole : ∀ i, (s.call i).isOver = true →
    ∃ report last, last.isFinal = true ∧ (s.call i).block = opening report ++ [last]
  /-- The block of a call that has the lock is the beginning of a whole one. -/
  begun : ∀ i, (s.call i).hasLock = true →
    ∃ report last, last.isFinal = true ∧ (s.call i).block <+: opening report ++ [last]
  idle_iff : ∀ i, (s.call i).isOver = true →
    (.idle ∈ (s.call i).block ↔ ∃ report, s.call i = .dropped report)
  failed_iff : ∀ i, (s.call i).isOver = true → ∀ text,
    (.failed text ∈ (s.call i).block ↔
      ∃ e, (s.call i).result? = some (.error e) ∧ e.report = text)
  completed_iff : ∀ i, (s.call i).isOver = true → ∀ report,
    (.completed report ∈ (s.call i).block ↔ (s.call i).result? = some (.ok (some report)))
  /-- A call that is dropped while its pass waits publishes that the client is idle and gives the
  lock back, and nothing else happens. -/
  cancels : ∀ i, (s.call i).waits = true →
    s.run remote rules [.drop i, .poll i, .poll i]
      = s.withCall i (.dropped (s.call i).channelReport?)
          { s.client.publish .idle with busy := false }
  /-- A call that is dropped before its first step never takes one. -/
  discards : ∀ i, s.call i = .ready →
    s.step remote rules (.drop i) = s.withCall i .discarded s.client
  /-- Where a call neither waits nor has still to begin, it cannot be dropped. -/
  undropped : ∀ i, (s.call i).waits = false → s.call i ≠ .ready →
    s.step remote rules (.drop i) = s
  /-- If no call has the lock, the next one gets it and runs a pass. -/
  free : (∀ i, (s.call i).hasLock = false) → ∀ j, s.call j = .ready →
    s.run remote rules [.poll j, .poll j, .poll j]
      = s.withCall j (.channels .start)
          ({ s.client with busy := true }.publish (.running .channels))

end SyncCalls

namespace SyncCall

theorem mem_opening_of_isFinal {report : Option RetryReport} {state : SyncState}
    (h : state.isFinal = true) : state ∉ opening report := by
  intro hm
  cases report with
  | none =>
      rw [List.mem_singleton.1 hm] at h
      exact Bool.false_ne_true h
  | some r =>
      rcases List.mem_cons.1 hm with rfl | hm
      · exact Bool.false_ne_true h
      · rw [List.mem_singleton.1 hm] at h
        exact Bool.false_ne_true h

/-- The last state of a whole block is the only final one. -/
theorem mem_whole_iff {report : Option RetryReport} {last state : SyncState}
    (h : state.isFinal = true) : state ∈ opening report ++ [last] ↔ state = last := by
  rw [List.mem_append, List.mem_singleton]
  exact ⟨fun hm => hm.resolve_left (mem_opening_of_isFinal h), .inr⟩

theorem isFinal_finalState (result : Except StoreError SyncReport) :
    (finalState result).isFinal = true := by
  cases result <;> rfl

theorem whole_of_isOver {a : SyncCall} (h : a.isOver = true) :
    ∃ report last, last.isFinal = true ∧ a.block = opening report ++ [last] := by
  cases a with
  | returned report result => exact ⟨report, finalState result, isFinal_finalState result, rfl⟩
  | dropped report => exact ⟨report, .idle, rfl, rfl⟩
  | _ => exact absurd h (by simp [isOver])

/-- Any call goes on to a whole block. -/
theorem begun (a : SyncCall) :
    ∃ report last, last.isFinal = true ∧ a.block <+: opening report ++ [last] := by
  have hopening : ∀ report, opening report <+: opening report ++ [.idle] := fun report =>
    List.prefix_append _ _
  cases a with
  | channels pass => exact ⟨none, .idle, rfl, hopening none⟩
  | between report => exact ⟨none, .idle, rfl, hopening none⟩
  | messages report pass => exact ⟨some report, .idle, rfl, hopening _⟩
  | ended report result => exact ⟨report, .idle, rfl, hopening _⟩
  | settled report result => exact ⟨report, .idle, rfl, hopening _⟩
  | cancelled report => exact ⟨report, .idle, rfl, hopening _⟩
  | published report result =>
      exact ⟨report, finalState result, isFinal_finalState result, List.prefix_rfl⟩
  | unguarded report result =>
      exact ⟨report, finalState result, isFinal_finalState result, List.prefix_rfl⟩
  | returned report result =>
      exact ⟨report, finalState result, isFinal_finalState result, List.prefix_rfl⟩
  | released report => exact ⟨report, .idle, rfl, List.prefix_rfl⟩
  | dropped report => exact ⟨report, .idle, rfl, List.prefix_rfl⟩
  | _ => exact ⟨none, .idle, rfl, List.nil_prefix⟩

theorem idle_mem_iff {a : SyncCall} (h : a.isOver = true) :
    .idle ∈ a.block ↔ ∃ report, a = dropped report := by
  cases a with
  | returned report result =>
      show .idle ∈ opening report ++ [finalState result] ↔ _
      rw [mem_whole_iff rfl]
      cases result <;> exact ⟨fun e => (nomatch e), fun ⟨_, e⟩ => (nomatch e)⟩
  | dropped report => exact ⟨fun _ => ⟨report, rfl⟩, fun _ => (mem_whole_iff rfl).2 rfl⟩
  | _ => exact absurd h (by simp [isOver])

theorem failed_mem_iff {a : SyncCall} (h : a.isOver = true) (text : String) :
    .failed text ∈ a.block ↔ ∃ e, a.result? = some (.error e) ∧ e.report = text := by
  cases a with
  | returned report result =>
      show .failed text ∈ opening report ++ [finalState result] ↔ _
      rw [mem_whole_iff rfl]
      cases result with
      | ok r => exact ⟨fun e => (nomatch e), fun ⟨_, e, _⟩ => (nomatch e)⟩
      | error e =>
          constructor
          · intro he
            exact ⟨e, rfl, (SyncState.failed.inj he).symm⟩
          · rintro ⟨e', he', rfl⟩
            obtain rfl : e = e' := Except.error.inj (Option.some.inj he')
            rfl
  | dropped report =>
      show .failed text ∈ opening report ++ [SyncState.idle] ↔ _
      rw [mem_whole_iff rfl]
      exact ⟨fun e => (nomatch e), fun ⟨_, e, _⟩ => (nomatch e)⟩
  | _ => exact absurd h (by simp [isOver])

theorem completed_mem_iff {a : SyncCall} (h : a.isOver = true) (report : SyncReport) :
    .completed report ∈ a.block ↔ a.result? = some (.ok (some report)) := by
  cases a with
  | returned _ result =>
      show .completed report ∈ opening _ ++ [finalState result] ↔ _
      rw [mem_whole_iff rfl]
      cases result with
      | ok r =>
          constructor
          · intro hr
            rw [SyncState.completed.inj hr]
            rfl
          · intro hr
            rw [Option.some.inj (Except.ok.inj (Option.some.inj hr))]
            rfl
      | error e => exact ⟨fun h => (nomatch h), fun h => (nomatch h)⟩
  | dropped _ =>
      show .completed report ∈ opening _ ++ [SyncState.idle] ↔ _
      rw [mem_whole_iff rfl]
      exact ⟨fun e => (nomatch e), fun e => (nomatch e)⟩
  | _ => exact absurd h (by simp [isOver])

/-- A call that was given up in the middle of its pass, `n` steps later. -/
def givenUp (report : Option RetryReport) : Nat → SyncCall
  | 0 => cancelled report
  | 1 => released report
  | _ + 2 => dropped report

/-- The call was given up in the middle of its pass. -/
def isGivenUp : SyncCall → Bool
  | cancelled _ | released _ | dropped _ => true
  | _ => false

theorem poll_givenUp {ρ : Type} (remote : Remote ρ) (rules : SyncRules)
    (report : Option RetryReport) (n : Nat) (c : Client ρ) :
    ((givenUp report n).poll remote rules c).1 = givenUp report (n + 1) := by
  match n with
  | 0 => rfl
  | 1 => rfl
  | n + 2 => rfl

theorem drop_givenUp (report : Option RetryReport) (n : Nat) :
    (givenUp report n).drop = givenUp report n := by
  match n with
  | 0 => rfl
  | 1 => rfl
  | n + 2 => rfl

/-- The first of the last steps publishes that the client is idle. -/
theorem idle_mem_givenUp_iff {report : Option RetryReport} {n : Nat} :
    .idle ∈ (givenUp report n).block ↔ 0 < n := by
  match n with
  | 0 => exact ⟨fun h => absurd h (mem_opening_of_isFinal rfl), fun h => absurd h (by simp)⟩
  | 1 => exact ⟨fun _ => Nat.one_pos, fun _ => (mem_whole_iff rfl).2 rfl⟩
  | n + 2 => exact ⟨fun _ => Nat.succ_pos _, fun _ => (mem_whole_iff rfl).2 rfl⟩

theorem isGivenUp_of_idle_mem {a : SyncCall} (h : .idle ∈ a.block) : a.isGivenUp = true := by
  have hnever : ∀ (report : Option RetryReport) (result : Except StoreError SyncReport),
      SyncState.idle ∉ opening report ++ [finalState result] := by
    intro report result hm
    rw [mem_whole_iff rfl] at hm
    cases result <;> exact nomatch hm
  cases a with
  | channels pass => exact absurd h (mem_opening_of_isFinal rfl)
  | between report => exact absurd h (mem_opening_of_isFinal rfl)
  | messages report pass => exact absurd h (mem_opening_of_isFinal rfl)
  | ended report result => exact absurd h (mem_opening_of_isFinal rfl)
  | settled report result => exact absurd h (mem_opening_of_isFinal rfl)
  | published report result => exact absurd h (hnever report result)
  | unguarded report result => exact absurd h (hnever report result)
  | returned report result => exact absurd h (hnever report result)
  | cancelled report => rfl
  | released report => rfl
  | dropped report => rfl
  | _ => exact absurd h List.not_mem_nil

theorem isGivenUp_poll {ρ : Type} {remote : Remote ρ} {rules : SyncRules} {a : SyncCall}
    {c : Client ρ} (h : (a.poll remote rules c).1.isGivenUp = true) : a.isGivenUp = true := by
  cases a with
  | ready =>
      simp only [poll, pollWith] at h
      split at h <;> exact absurd h Bool.false_ne_true
  | channels pass =>
      simp only [poll, pollWith] at h
      split at h <;> exact absurd h Bool.false_ne_true
  | messages report pass =>
      simp only [poll, pollWith] at h
      split at h <;> exact absurd h Bool.false_ne_true
  | cancelled report => rfl
  | released report => rfl
  | dropped report => rfl
  | _ => exact absurd h Bool.false_ne_true

theorem isGivenUp_drop {a : SyncCall} (h : a.drop.isGivenUp = true) :
    a.isGivenUp = true ∨ a.waits = true := by
  cases a with
  | channels pass => exact .inr rfl
  | messages report pass => exact .inr rfl
  | cancelled report => exact .inl rfl
  | released report => exact .inl rfl
  | dropped report => exact .inl rfl
  | _ => exact absurd h Bool.false_ne_true

/-- Only a call whose pass over the channels has reported goes on to the messages. -/
theorem channelReport?_of_mem_block {a : SyncCall} (h : .running .messages ∈ a.block) :
    ∃ report, a.channelReport? = some report := by
  have hopening : ∀ report : Option RetryReport, SyncState.running .messages ∈ opening report →
      ∃ r, report = some r := by
    intro report hm
    cases report with
    | none => exact absurd (List.mem_singleton.1 hm) (by simp)
    | some r => exact ⟨r, rfl⟩
  have hwhole : ∀ (report : Option RetryReport) (last : SyncState), last.isFinal = true →
      SyncState.running .messages ∈ opening report ++ [last] → ∃ r, report = some r := by
    intro report last hlast hm
    rcases List.mem_append.1 hm with hm | hm
    · exact hopening report hm
    · rw [← List.mem_singleton.1 hm] at hlast
      exact absurd hlast Bool.false_ne_true
  cases a with
  | channels pass => exact absurd (List.mem_singleton.1 h) (by simp)
  | between report => exact ⟨report, rfl⟩
  | messages report pass => exact ⟨report, rfl⟩
  | ended report result => exact hopening report h
  | settled report result => exact hopening report h
  | cancelled report => exact hopening report h
  | published report result => exact hwhole report _ (isFinal_finalState result) h
  | unguarded report result => exact hwhole report _ (isFinal_finalState result) h
  | returned report result => exact hwhole report _ (isFinal_finalState result) h
  | released report => exact hwhole report _ rfl h
  | dropped report => exact hwhole report _ rfl h
  | _ => exact absurd h List.not_mem_nil

end SyncCall

namespace SyncCalls

open SyncCall

variable {ρ : Type} {remote : Remote ρ} {rules : SyncRules} {s : SyncCalls ρ}

theorem lawful_of_inv {done : List Nat} {current : Option Nat} (h : s.Inv done current) :
    s.Lawful remote rules where
  exclusive i j hi hj :=
    Option.some.inj (((h.current_iff i).2 hi).symm.trans ((h.current_iff j).2 hj))
  skips i j hi hj := by
    obtain rfl := (h.current_iff i).2 hi
    exact step_poll_busy h hj
  still i hlock hready := by
    rw [step_poll, poll_of_still remote rules hlock hready]
    exact ⟨s.withCall_self i, step_drop_of_not_waits (not_waits_of_still hlock) hready⟩
  blocks := by
    refine ⟨done ++ current.toList, ?_, fun i => ?_, fun i hi => ?_, h.published_eq⟩
    · cases current with
      | none => simpa using h.nodup
      | some j =>
          have hnot : j ∉ done := by
            rw [h.mem_done, not_isOver_of_hasLock ((h.current_iff j).1 rfl)]
            exact Bool.false_ne_true
          refine List.nodup_append.2 ⟨h.nodup, by simp, fun i hi k hk e => hnot ?_⟩
          rw [← List.mem_singleton.1 hk, ← e]
          exact hi
    · rw [List.mem_append, Option.mem_toList, h.mem_done, h.current_iff]
      exact or_comm
    · refine (h.mem_done i).1 ?_
      cases current with
      | none => exact (List.dropLast_sublist _).subset (by simpa using hi)
      | some j => simpa using hi
  whole i hi := whole_of_isOver hi
  begun i _ := begun (s.call i)
  idle_iff i hi := idle_mem_iff hi
  failed_iff i hi := failed_mem_iff hi
  completed_iff i hi := completed_mem_iff hi
  cancels i hi := run_cancelled hi
  discards i hi := by rw [step_drop, hi]; rfl
  undropped i hwaits hready := step_drop_of_not_waits hwaits hready
  free hfree j hj := by
    have hcurrent : current = none := by
      cases current with
      | none => rfl
      | some i => exact absurd ((h.current_iff i).1 rfl) (by simp [hfree i])
    subst hcurrent
    show ((s.step remote rules (.poll j)).step remote rules (.poll j)).step remote rules (.poll j)
      = _
    rw [(inv_poll_free remote rules h hj).1, step_poll_withCall, step_poll_withCall]
    rfl

theorem run_append (s : SyncCalls ρ) (before after : List (SyncAction ρ)) :
    s.run remote rules (before ++ after) = (s.run remote rules before).run remote rules after :=
  List.foldl_append

/-- A call has a report of the channels only if their pass has just ended with it. -/
theorem channelReport?_step {action : SyncAction ρ} {i : Nat} {report : RetryReport}
    (h : ((s.step remote rules action).call i).channelReport? = some report) :
    (s.call i).channelReport? = some report ∨
      (action = .poll i ∧ ∃ pass, s.call i = .channels pass ∧
        (pass.step (Client.channelExchange remote) rules s.client).1 = .finished (.ok report)) := by
  cases action with
  | others replica state => exact .inl h
  | drop j =>
      by_cases hj : i = j
      · subst hj
        have hdrop : (s.call i).drop.channelReport? = (s.call i).channelReport? := by
          cases s.call i <;> rfl
        have hsame : ((s.withCall i (s.call i).drop s.client).call i).channelReport?
            = some report := h
        rw [call_withCall_self, hdrop] at hsame
        exact .inl hsame
      · have hsame : ((s.withCall j (s.call j).drop s.client).call i).channelReport?
            = some report := h
        rw [call_withCall_of_ne hj] at hsame
        exact .inl hsame
  | poll j =>
      rw [step_poll] at h
      by_cases hj : i = j
      · subst hj
        rw [call_withCall_self] at h
        cases ha : s.call i with
        | channels pass =>
            rw [ha] at h
            simp only [poll, pollWith] at h
            split at h
            · next report' c hstep =>
              obtain rfl : report' = report := Option.some.inj h
              exact .inr ⟨rfl, pass, rfl, by rw [hstep]⟩
            · exact absurd h (by simp [channelReport?])
            · exact absurd h (by simp [channelReport?])
        | messages report' pass =>
            rw [ha] at h
            simp only [poll, pollWith] at h
            split at h <;> exact .inl h
        | ready =>
            rw [ha] at h
            simp only [poll, pollWith] at h
            split at h <;> exact absurd h (by simp [channelReport?])
        | _ => rw [ha] at h; exact .inl h
      · rw [call_withCall_of_ne hj] at h
        exact .inl h

/-- So that pass has ended at some time before. -/
theorem channelReport?_run (s : SyncCalls ρ) {i : Nat} {report : RetryReport}
    (hnew : (s.call i).channelReport? = none) (actions : List (SyncAction ρ))
    (h : ((s.run remote rules actions).call i).channelReport? = some report) :
    ∃ before after pass, actions = before ++ .poll i :: after ∧
      (s.run remote rules before).call i = .channels pass ∧
      (pass.step (Client.channelExchange remote) rules (s.run remote rules before).client).1
        = .finished (.ok report) := by
  -- from the last action back, so that what came before it is a run again
  induction actions using List.reverseRecOn with
  | nil => exact absurd (hnew.symm.trans h) (by simp)
  | append_singleton actions action ih =>
      rw [run_append] at h
      rcases channelReport?_step h with hbefore | ⟨rfl, pass, hcall, hstep⟩
      · obtain ⟨before, after, pass, rfl, hpass⟩ := ih hbefore
        exact ⟨before, after ++ [action], pass, by simp, hpass⟩
      · exact ⟨actions, [], pass, rfl, hcall, hstep⟩

/-! ## Drops -/

/-- Among these actions a call is given up in the middle of its pass, and `n` steps of it follow. -/
def GaveUp (remote : Remote ρ) (rules : SyncRules) (s : SyncCalls ρ)
    (actions : List (SyncAction ρ)) (i : Nat) (report : Option RetryReport) (n : Nat) : Prop :=
  ∃ before after, actions = before ++ .drop i :: after ∧
    ((s.run remote rules before).call i).waits = true ∧
    ((s.run remote rules before).call i).channelReport? = report ∧
    after.countP (SyncAction.isPollOf i) = n

/-- A call that was given up goes its way, whatever else happens. -/
theorem call_step_of_givenUp (remote : Remote ρ) (rules : SyncRules) {i n : Nat}
    {report : Option RetryReport} (h : s.call i = givenUp report n) (action : SyncAction ρ) :
    (s.step remote rules action).call i
      = givenUp report (n + [action].countP (SyncAction.isPollOf i)) := by
  cases action with
  | others replica state => exact h
  | drop j =>
      rw [step_drop]
      by_cases hj : i = j
      · subst hj
        rw [call_withCall_self, h]
        exact drop_givenUp report n
      · rw [call_withCall_of_ne hj]
        exact h
  | poll j =>
      rw [step_poll]
      by_cases hj : i = j
      · subst hj
        rw [call_withCall_self, h, poll_givenUp]
        simp [SyncAction.isPollOf]
      · rw [call_withCall_of_ne hj, h]
        simp [SyncAction.isPollOf, Ne.symm hj]

theorem call_run_of_givenUp (remote : Remote ρ) (rules : SyncRules) {i n : Nat}
    {report : Option RetryReport} (h : s.call i = givenUp report n) (actions : List (SyncAction ρ)) :
    (s.run remote rules actions).call i
      = givenUp report (n + actions.countP (SyncAction.isPollOf i)) := by
  induction actions generalizing s n with
  | nil => exact h
  | cons action actions ih =>
      have hrest := ih (call_step_of_givenUp remote rules h action)
      rw [Nat.add_assoc, ← List.countP_append] at hrest
      exact hrest

/-- A call that is given up in the middle of its pass has as many of its last steps behind it as it
took since then. -/
theorem call_of_gaveUp {actions : List (SyncAction ρ)} {i n : Nat} {report : Option RetryReport}
    (h : s.GaveUp remote rules actions i report n) :
    (s.run remote rules actions).call i = givenUp report n := by
  obtain ⟨before, after, rfl, hwaits, rfl, rfl⟩ := h
  have hdrop : ((s.run remote rules before).step remote rules (.drop i)).call i
      = givenUp ((s.run remote rules before).call i).channelReport? 0 := by
    rw [step_drop, call_withCall_self, drop_of_waits hwaits]
    rfl
  have hrest := call_run_of_givenUp remote rules hdrop after
  rw [Nat.zero_add] at hrest
  rw [run_append]
  exact hrest

/-- Nothing but a drop in the middle of its pass makes a call one that was given up. -/
theorem isGivenUp_step {i : Nat} {action : SyncAction ρ}
    (h : ((s.step remote rules action).call i).isGivenUp = true) :
    (s.call i).isGivenUp = true ∨ (action = .drop i ∧ (s.call i).waits = true) := by
  cases action with
  | others replica state => exact .inl h
  | drop j =>
      rw [step_drop] at h
      by_cases hj : i = j
      · subst hj
        rw [call_withCall_self] at h
        rcases isGivenUp_drop h with hsame | hwaits
        · exact .inl hsame
        · exact .inr ⟨rfl, hwaits⟩
      · rw [call_withCall_of_ne hj] at h
        exact .inl h
  | poll j =>
      rw [step_poll] at h
      by_cases hj : i = j
      · subst hj
        rw [call_withCall_self] at h
        exact .inl (isGivenUp_poll h)
      · rw [call_withCall_of_ne hj] at h
        exact .inl h

theorem gaveUp_of_isGivenUp {i : Nat} (hnew : (s.call i).isGivenUp = false)
    (actions : List (SyncAction ρ)) (h : ((s.run remote rules actions).call i).isGivenUp = true) :
    ∃ report n, s.GaveUp remote rules actions i report n := by
  -- the last action either was the drop or left a call that was given up before
  induction actions using List.reverseRecOn with
  | nil => exact absurd (hnew.symm.trans h) Bool.false_ne_true
  | append_singleton actions action ih =>
      rw [run_append] at h
      rcases isGivenUp_step h with hbefore | ⟨rfl, hwaits⟩
      · obtain ⟨report, n, before, after, rfl, hwaits, hreport, _⟩ := ih hbefore
        exact ⟨report, _, before, after ++ [action], by simp, hwaits, hreport, rfl⟩
      · exact ⟨_, _, actions, [], rfl, hwaits, rfl, rfl⟩

/-- A call has published that the client is idle exactly if it was given up in the middle of its
pass and took a step since then. -/
theorem idle_mem_iff_gaveUp {actions : List (SyncAction ρ)} {i : Nat}
    (hnew : (s.call i).isGivenUp = false) :
    .idle ∈ ((s.run remote rules actions).call i).block ↔
      ∃ report n, s.GaveUp remote rules actions i report (n + 1) := by
  constructor
  · intro hidle
    obtain ⟨report, n, hgave⟩ := gaveUp_of_isGivenUp hnew actions (isGivenUp_of_idle_mem hidle)
    rw [call_of_gaveUp hgave, idle_mem_givenUp_iff] at hidle
    obtain ⟨n, rfl⟩ := Nat.exists_eq_add_one.2 hidle
    exact ⟨report, n, hgave⟩
  · rintro ⟨report, n, hgave⟩
    rw [call_of_gaveUp hgave]
    exact idle_mem_givenUp_iff.2 n.succ_pos

/-- **Calls for sync passes are lawful at any time**, and none goes on to the messages unless its
pass over the channels has ended with a report. A call goes on to publish that the client is idle,
and to give the lock back, exactly if it was dropped in the middle of its pass. -/
theorem run_lawful (remote : Remote ρ) (rules : SyncRules) (replica : Replica) (state : ρ)
    (actions : List (SyncAction ρ)) :
    let s := (new (.new replica state)).run remote rules actions
    s.Lawful remote rules ∧
      (∀ i, .running .messages ∈ (s.call i).block → ∃ before after pass report,
        actions = before ++ .poll i :: after ∧
        ((new (.new replica state)).run remote rules before).call i = .channels pass ∧
        (pass.step (Client.channelExchange remote) rules
          ((new (.new replica state)).run remote rules before).client).1
            = .finished (.ok report)) ∧
      (∀ i report n, (new (.new replica state)).GaveUp remote rules actions i report n →
        s.call i = givenUp report n) ∧
      ∀ i, .idle ∈ (s.call i).block ↔
        ∃ report n, (new (.new replica state)).GaveUp remote rules actions i report (n + 1) := by
  intro s
  have hnew : (new (.new replica state)).Inv [] none := inv_new rfl rfl
  obtain ⟨done, current, hinv⟩ := inv_run remote rules hnew actions
  refine ⟨lawful_of_inv hinv, fun i hi => ?_, fun i report n => call_of_gaveUp,
    fun i => idle_mem_iff_gaveUp rfl⟩
  obtain ⟨report, hreport⟩ := channelReport?_of_mem_block hi
  obtain ⟨before, after, pass, hpass⟩ := channelReport?_run _ rfl actions hreport
  exact ⟨before, after, pass, report, hpass⟩

end SyncCalls

/-! ## Passes without interruption -/

namespace SyncCall

variable {ρ : Type}

/-- The call stands where the pass stands. -/
def Shows (a : SyncCall) : SyncPass → Prop
  | .channels pass => a = channels pass
  | .messages report pass => a = messages report pass
  | .finished result => a.result? = some result

/-- A pass starts as a call does that nothing comes between. -/
theorem polls_start (remote : Remote ρ) (rules : SyncRules) (c : Client ρ) : ∃ n a,
    polls remote rules n ready c = (a, (SyncPass.start c).2) ∧ a.Shows (SyncPass.start c).1 := by
  unfold SyncPass.start
  cases hbusy : c.busy with
  | true => exact ⟨1, skipped, by simp only [polls, poll, pollWith, hbusy, if_true], rfl⟩
  | false =>
      refine ⟨3, channels .start, ?_, rfl⟩
      simp only [polls, poll, pollWith, hbusy, Bool.false_eq_true, if_false]
      rfl

/-- A step of a pass is a number of steps of its call that nothing comes between. -/
theorem polls_step (remote : Remote ρ) (rules : SyncRules) {a : SyncCall} {p : SyncPass}
    (h : a.Shows p) (c : Client ρ) : ∃ n a',
    polls remote rules n a c = (a', (p.step remote rules c).2) ∧
      a'.Shows (p.step remote rules c).1 := by
  cases p with
  | finished result => exact ⟨0, a, rfl, h⟩
  | channels pass =>
      obtain rfl : a = channels pass := h
      rcases hstep : pass.step (Client.channelExchange remote) rules c with ⟨next, c'⟩
      cases next with
      | finished result =>
          cases result with
          | ok report =>
              -- the pass over the channels is through, and the messages are announced
              refine ⟨2, messages report .start, ?_, ?_⟩
              · simp only [polls, poll, pollWith, hstep, SyncPass.step]
              · simp only [hstep, SyncPass.step]; rfl
          | error e =>
              refine ⟨5, returned none (.error e), ?_, ?_⟩
              · simp only [polls, poll, pollWith, hstep, SyncPass.step, unguard, if_true]; rfl
              · simp only [hstep, SyncPass.step]; rfl
      | _ =>
          refine ⟨1, (poll remote rules (channels pass) c).1, ?_, ?_⟩
          · simp only [polls, poll, pollWith, hstep, SyncPass.step]
          · simp only [poll, pollWith, hstep, SyncPass.step]; rfl
  | messages report pass =>
      obtain rfl : a = messages report pass := h
      rcases hstep : pass.step (Client.messageExchange remote) rules c with ⟨next, c'⟩
      cases next with
      | finished result =>
          cases result with
          | ok report' =>
              refine ⟨5, returned (some report) (.ok ⟨report, report'⟩), ?_, ?_⟩
              · simp only [polls, poll, pollWith, hstep, SyncPass.step, unguard, if_true]; rfl
              · simp only [hstep, SyncPass.step]; rfl
          | error e =>
              refine ⟨5, returned (some report) (.error e), ?_, ?_⟩
              · simp only [polls, poll, pollWith, hstep, SyncPass.step, unguard, if_true]; rfl
              · simp only [hstep, SyncPass.step]; rfl
      | _ =>
          refine ⟨1, (poll remote rules (messages report pass) c).1, ?_, ?_⟩
          · simp only [polls, poll, pollWith, hstep, SyncPass.step]
          · simp only [poll, pollWith, hstep, SyncPass.step]; rfl

/-- Giving a pass up is giving its call up, guard and lock included. -/
theorem polls_drop (remote : Remote ρ) (rules : SyncRules) {a : SyncCall} {p : SyncPass}
    (h : a.Shows p) (c : Client ρ) : ∃ a',
    polls remote rules 2 a.drop c = (a', p.drop c) ∧ a'.hasLock = false := by
  cases p with
  | channels pass =>
      obtain rfl : a = channels pass := h
      exact ⟨dropped none, rfl, rfl⟩
  | messages report pass =>
      obtain rfl : a = messages report pass := h
      exact ⟨dropped (some report), rfl, rfl⟩
  | finished result =>
      cases a with
      | skipped => exact ⟨skipped, rfl, rfl⟩
      | returned report result' => exact ⟨returned report result', rfl, rfl⟩
      | _ => exact absurd h (fun e => (nomatch e))

end SyncCall

end OfflineChat
