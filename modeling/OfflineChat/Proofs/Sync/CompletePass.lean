import OfflineChat.Proofs.Sync.Progress
import OfflineChat.Proofs.Sync.Repositories
import OfflineChat.Proofs.Text.ByteOrder

/-! # Complete passes

A pass without a budget, whose submissions are answered and whose store calls succeed, comes to what
resolving the waiting rows one after another would, whatever its page size. Main definitions:
`StoreServes`, all store calls of a pass succeed, and `CompletePass`, what a pass comes to. Main
statements: such a pass ends as `CompletePass` says (`Backing.completePass_of_serves`), what it
comes to does not depend on its page size (`CompletePass.unique`), and both together for the
repositories of a client (`Client.complete_pass`). -/

set_option autoImplicit false

namespace OfflineChat

variable {σ ε ρ : Type} [Syncable ε]

/-! ## Store calls that succeed -/

namespace RetryPass

variable {x : Exchange σ ε} {rules : SyncRules} {s : σ}

/-- The store call that a pass makes in its next step, if it makes one, succeeds. -/
def StoreSucceeds (x : Exchange σ ε) (rules : SyncRules) : RetryPass ε → σ → Prop
  | selecting after report, s => isExhausted rules report = false →
      ∃ page s', x.select after rules.limit s = (.ok page, s')
  | submitting _ _, _ => True
  | awaiting page _, s => ∀ answered, answers? page = some answered →
      ∃ s', x.write ((resolveAll rules answered).map Outcome.entity) s = (.ok (), s')
  | finished _, _ => True

/-- All store calls of a pass from `s` succeed. -/
def StoreServes (x : Exchange σ ε) (rules : SyncRules) (s : σ) : Prop :=
  ∀ n, StoreSucceeds x rules (run x rules n start s).1 (run x rules n start s).2

theorem run_succ (n : Nat) (pass : RetryPass ε) (s : σ) :
    run x rules (n + 1) pass s
      = step x rules (run x rules n pass s).1 (run x rules n pass s).2 := by
  induction n generalizing pass s with
  | zero => rfl
  | succ n ih => exact ih (step x rules pass s).1 (step x rules pass s).2

/-- Only a store call that does not succeed makes a pass fail. -/
theorem step_ne_error {pass : RetryPass ε} (h : StoreSucceeds x rules pass s)
    (hpass : ∀ e, pass ≠ finished (.error e)) (e : StoreError) :
    (step x rules pass s).1 ≠ finished (.error e) := by
  cases pass with
  | selecting after report =>
      simp only [step]
      split
      · exact fun he => by cases he
      · next hex =>
        obtain ⟨page, s', hselect⟩ := h (by simpa using hex)
        simp only [hselect, ofPage]
        split <;> exact fun he => by cases he
  | submitting page progress => exact fun he => by cases he
  | awaiting page progress =>
      simp only [step]
      split
      · exact fun he => by cases he
      · next answered hanswered =>
        obtain ⟨s', hwrite⟩ := h answered hanswered
        simp only [hwrite]
        split <;> exact fun he => by cases he
  | finished result => exact hpass e

theorem run_ne_error (h : StoreServes x rules s) (n : Nat) (e : StoreError) :
    (run x rules n start s).1 ≠ finished (.error e) := by
  induction n generalizing e with
  | zero => exact fun he => by cases he
  | succ n ih =>
      rw [run_succ]
      exact step_ne_error (h n) ih e

end RetryPass

namespace Backing

open RetryPass

variable {x : Exchange σ ε} {B : Backing x ρ} {rules : SyncRules} {s s₀ : σ}

theorem storeSucceeds_of_inv {pass : RetryPass ε} (h : B.Inv rules s₀ pass s)
    (hreliable : (B.frame s₀).reliable) (hread : ∀ r ∈ B.waiting s₀, (B.entity s₀ r).isSome) :
    StoreSucceeds x rules pass s := by
  cases pass with
  | selecting after report =>
      intro _
      obtain ⟨pages, outcomes, hh, hw, rfl, _⟩ := h
      refine B.select_total (hh.frame_eq ▸ hreliable) fun r hr => ?_
      rw [withStatus_cursor hh hw] at hr
      rw [hh.frame_eq]
      exact hread r (List.mem_of_mem_drop hr)
  | submitting page progress => exact trivial
  | awaiting page progress =>
      intro answered _
      obtain ⟨pages, outcomes, hh, _⟩ := h
      exact B.write_total (hh.frame_eq ▸ hreliable)
  | finished result => exact trivial

/-- A medium that does not fail serves a pass over rows that can be read. -/
theorem storeServes_of_reliable (B : Backing x ρ) (rules : SyncRules) {s : σ}
    (hreliable : (B.frame s).reliable) (hread : ∀ r ∈ B.waiting s, (B.entity s r).isSome) :
    StoreServes x rules s := fun n =>
  storeSucceeds_of_inv (inv_run n (inv_start B rules s)) hreliable hread

end Backing

/-! ## Settled rows -/

open RetryPass

/-- From `s` to `s'` answers were applied to the entities of the first `d` waiting rows, and these
were written back. -/
structure Applied {x : Exchange σ ε} (B : Backing x ρ) (rules : SyncRules) (s s' : σ) (d : Nat)
    (answered : List (ε × Answer ε)) : Prop where
  submitted_eq : (answered.map fun p => some p.1) = ((B.waiting s).take d).map (B.entity s)
  rows_eq : B.rows s' = (B.rows s).putAll (B.outcomeRows (resolveAll rules answered))

namespace Applied

variable {x : Exchange σ ε} {B : Backing x ρ} {rules : SyncRules} {s s' : σ} {d : Nat}
  {answered : List (ε × Answer ε)}

theorem keys_eq (h : Applied B rules s s' d answered) :
    (answered.map fun p => key p.1) = ((B.waiting s).take d).map key := by
  have hsome : (answered.map Prod.fst).map some = ((B.waiting s).take d).map (B.entity s) := by
    rw [List.map_map]
    exact h.submitted_eq
  have hkeys := Backing.keys_of_map_some hsome
  rwa [List.map_map] at hkeys

theorem nodup_keys (h : Applied B rules s s' d answered) :
    (answered.map fun p => key p.1).Nodup := by
  rw [h.keys_eq]
  exact ((Backing.ascending_waiting s).sublist (List.take_sublist _ _)).nodup_keys

theorem keys_outcomeRows (h : Applied B rules s s' d answered) :
    (B.outcomeRows (resolveAll rules answered)).map key = ((B.waiting s).take d).map key := by
  rw [Backing.keys_outcomeRows, h.keys_eq]

/-- A row that was dealt with is the stored form of what the answer made of its entity. -/
theorem get?_of_mem (h : Applied B rules s s' d answered) {p : ε × Answer ε}
    (hp : p ∈ answered) : (B.rows s').get? (key p.1)
      = some (B.toRow (Outcome.resolve rules.classifier rules.now p.1 p.2).entity) := by
  have hkey : key (B.toRow (Outcome.resolve rules.classifier rules.now p.1 p.2).entity) = key p.1 :=
    (B.key_toRow _).trans (Outcome.key_entity_resolve _ _ _ _)
  rw [h.rows_eq, ← hkey]
  refine Table.get?_putAll_of_mem _ ?_ (List.mem_map_of_mem (List.mem_map_of_mem hp))
  rw [h.keys_outcomeRows, ← h.keys_eq]
  exact h.nodup_keys

/-- A row that was not dealt with is as it was. -/
theorem get?_of_not_mem (h : Applied B rules s s' d answered) {k : String}
    (hk : k ∉ ((B.waiting s).take d).map key) : (B.rows s').get? k = (B.rows s).get? k := by
  rw [h.rows_eq]
  refine Table.get?_putAll_of_not_mem _ ?_
  rwa [h.keys_outcomeRows]

/-- A query above the last key finds the rows that were not dealt with yet. -/
theorem withStatus_cursor (h : Applied B rules s s' d answered) :
    (B.rows s').withStatus B.statusCell .syncNeeded (B.cursor s d) = (B.waiting s).drop d := by
  rw [h.rows_eq]
  exact Table.withStatus_putAll_take h.keys_outcomeRows

/-- Another page is applied after the first ones. -/
theorem page {s'' : σ} {pages : Nat} {page : List (ε × Answer ε)}
    (h : Applied B rules s s' (rules.reach pages (B.waiting s).length) answered)
    (hpage : B.IsPage rules s pages (page.map Prod.fst))
    (hrows : B.rows s'' = (B.rows s').putAll (B.outcomeRows (resolveAll rules page))) :
    Applied B rules s s'' (rules.reach (pages + 1) (B.waiting s).length) (answered ++ page) where
  submitted_eq := by
    rw [Backing.IsPage, List.map_map] at hpage
    rw [rules.take_reach_succ, List.map_append, List.map_append, h.submitted_eq, ← hpage]
    rfl
  rows_eq := by
    rw [hrows, h.rows_eq, ← Table.putAll_append]
    simp only [Backing.outcomeRows, resolveAll, List.map_append]

end Applied

/-- From `s` to `s'` the first `d` waiting rows were dealt with: `answered` are the submissions of
their entities with the answers, which were applied and written back. -/
structure Settled {x : Exchange σ ε} (B : Backing x ρ) (rules : SyncRules) (s s' : σ) (d : Nat)
    (answered : List (ε × Answer ε)) : Prop where
  submitted_eq : (answered.map fun p => some p.1) = ((B.waiting s).take d).map (B.entity s)
  pairs_eq : (B.submissions s d).1 = answered.map fun p => (p.1, some p.2)
  rows_eq : B.rows s' = (B.rows s).putAll (B.outcomeRows (resolveAll rules answered))

namespace Settled

variable {x : Exchange σ ε} {B : Backing x ρ} {rules : SyncRules} {s s' : σ} {d : Nat}
  {answered : List (ε × Answer ε)}

theorem of_written {outcomes : List (Outcome ε)} (hh : B.Handed s s' d)
    (hw : B.Written rules s s' d outcomes) :
    ∃ answered, outcomes = resolveAll rules answered ∧ Settled B rules s s' d answered := by
  obtain ⟨answered, hanswered, rfl⟩ := Option.map_eq_some_iff.1 hw.outcomes_eq
  have hfst : answered.map Prod.fst = B.entities s d := by
    rw [map_fst_of_answers? hanswered]
    exact map_fst_submitAll _ _ _
  have hread := Backing.map_entity_take hh.read
  rw [← hfst, List.map_map] at hread
  exact ⟨answered, rfl, hread.symm, eq_map_of_answers? hanswered, hw.rows_eq⟩

theorem applied (h : Settled B rules s s' d answered) : Applied B rules s s' d answered :=
  ⟨h.submitted_eq, h.rows_eq⟩

/-- The answer decides the status, since the entity was waiting. -/
theorem status_of_mem (h : Settled B rules s s' d answered) {p : ε × Answer ε}
    (hp : p ∈ answered) :
    Syncable.status (Outcome.resolve rules.classifier rules.now p.1 p.2).entity =
      match p.2 with
      | .ok _ => .completed
      | .error e =>
          if rules.classifier e (Syncable.cid p.1) then .failedPermanently else .syncNeeded := by
  obtain ⟨r, hr, he⟩ : ∃ r ∈ (B.waiting s).take d, B.entity s r = some p.1 := by
    have hm : some p.1 ∈ ((B.waiting s).take d).map (B.entity s) :=
      h.submitted_eq ▸ List.mem_map_of_mem hp
    exact List.mem_map.1 hm
  have hwaiting := Backing.mem_waiting_iff.1 (List.mem_of_mem_take hr)
  have hstatus : Syncable.status p.1 = .syncNeeded := B.status_entity he hwaiting.2
  exact Outcome.status_resolve (by rw [hstatus]; rfl) p.2

end Settled

/-! ## What a pass comes to -/

/-- What a complete pass comes to that starts in `s` and ends in `s'` with a report; `answered` are
its submissions with their answers. -/
structure CompletePass {x : Exchange σ ε} (B : Backing x ρ) (rules : SyncRules) (s s' : σ)
    (report : RetryReport) (answered : List (ε × Answer ε)) : Prop where
  /-- The submitted entities are those of the waiting rows, one for each row. -/
  submitted_eq : (answered.map fun p => some p.1) = (B.waiting s).map (B.entity s)
  /-- Their keys ascend by their bytes. -/
  ascending : (answered.map fun p => Text.bytes (key p.1)).Pairwise (· < ·)
  /-- They are handed to the remote service in this order, and nothing else is. -/
  handed_eq : B.handed s' = (answered.map Prod.fst).reverse ++ B.handed s
  /-- The remote service answers them one after another. -/
  answers_eq : submitAll B.send (answered.map Prod.fst) (B.remote s)
    = (answered.map fun p => (p.1, some p.2), B.remote s')
  /-- Each of the rows becomes what its answer makes of its entity, under the same key. -/
  stored : ∀ p ∈ answered, (B.rows s').get? (key p.1)
    = some (B.toRow (Outcome.resolve rules.classifier rules.now p.1 p.2).entity)
  /-- An answer decides the status as the classifier says. -/
  status_eq : ∀ p ∈ answered,
    Syncable.status (Outcome.resolve rules.classifier rules.now p.1 p.2).entity =
      match p.2 with
      | .ok _ => .completed
      | .error e =>
          if rules.classifier e (Syncable.cid p.1) then .failedPermanently else .syncNeeded
  /-- All other rows are as they were. -/
  unchanged : ∀ k, k ∉ (B.waiting s).map key → (B.rows s').get? k = (B.rows s).get? k
  /-- And so are all other tables. -/
  frame_eq : B.frame s' = B.frame s
  /-- The report counts the outcomes. -/
  report_eq : report = .tally report.pages (B.waiting s).length (resolveAll rules answered)
  submitted_count : report.submitted = (B.waiting s).length
  outcome_count : report.completed + report.failedPermanently + report.stillPending
    = (B.waiting s).length
  /-- The pages are as many as are needed, unless a page is longer than a query can be told. -/
  pages_eq : rules.limit < 0x8000_0000_0000_0000 ∨ (B.waiting s).length ≤ rules.limit →
    report.pages = ((B.waiting s).length + rules.limit - 1) / rules.limit

namespace Backing

variable {x : Exchange σ ε} {B : Backing x ρ} {rules : SyncRules} {s s' : σ}

/-- A pass that has dealt with all waiting rows is complete. -/
theorem completePass_of_written {report : RetryReport} {pages : Nat}
    {outcomes : List (Outcome ε)} (hh : B.Handed s s' (B.waiting s).length)
    (hw : B.Written rules s s' (B.waiting s).length outcomes)
    (hreport : report = .tally pages (B.waiting s).length outcomes)
    (hall : rules.reach pages (B.waiting s).length = (B.waiting s).length)
    (hneeded : ∀ j < pages, rules.reach j (B.waiting s).length < (B.waiting s).length) :
    ∃ answered, CompletePass B rules s s' report answered := by
  obtain ⟨answered, rfl, hsettled⟩ := Settled.of_written hh hw
  have hkeys := hsettled.applied.keys_eq
  have hread := hsettled.submitted_eq
  rw [List.take_length] at hkeys hread
  have hlength : answered.length = (B.waiting s).length := by
    simpa only [List.length_map] using congrArg List.length hkeys
  have hfst : answered.map Prod.fst = B.entities s (B.waiting s).length := by
    have hpairs := map_fst_submitAll B.send (B.entities s (B.waiting s).length) (B.remote s)
    rw [← submissions, hsettled.pairs_eq, List.map_map] at hpairs
    exact hpairs
  -- keys in the order of strings are in the order of their bytes
  have hasc : ((B.waiting s).map fun r => Text.bytes (key r)).Pairwise (· < ·) :=
    List.pairwise_map.2 ((ascending_waiting s).imp fun h => Text.lt_iff_bytes_lt.1 h)
  have hbytes := congrArg (List.map Text.bytes) hkeys
  rw [List.map_map, List.map_map] at hbytes
  subst hreport
  refine ⟨answered, ?_⟩
  constructor
  case submitted_eq => exact hread
  case ascending => exact hbytes ▸ hasc
  case handed_eq => exact hfst ▸ hh.handed_eq
  case answers_eq =>
    rw [hfst, hh.remote_eq, ← hsettled.pairs_eq]
    rfl
  case stored => exact fun p hp => hsettled.applied.get?_of_mem hp
  case status_eq => exact fun p hp => hsettled.status_of_mem hp
  case unchanged =>
    intro k hk
    exact hsettled.applied.get?_of_not_mem (by rwa [List.take_length])
  case frame_eq => exact hh.frame_eq
  case report_eq => rfl
  case submitted_count => rfl
  case outcome_count =>
    rw [RetryReport.tally_counts, resolveAll, List.length_map, hlength]
  case pages_eq =>
    intro hlimit
    exact (rules.pages_eq_pageCount hall hneeded).trans (rules.pageCount_eq hlimit)

/-- **A pass without a budget whose calls succeed is complete.** -/
theorem completePass_of_serves (B : Backing x ρ) {rules : SyncRules}
    (hbudget : rules.maxPages = none) (hanswers : ∀ e r, (B.send e r).1.isSome) {s : σ}
    (hserves : StoreServes x rules s) : ∃ report answered s',
      run x rules (steps (B.rows s).size) start s = (finished (.ok report), s') ∧
        CompletePass B rules s s' report answered := by
  obtain ⟨result, hresult⟩ := run_finished B rules s hanswers
  have hinv := inv_run (steps (B.rows s).size) (inv_start B rules s)
  have hok := run_ne_error hserves (steps (B.rows s).size)
  rw [hresult] at hinv hok
  cases result with
  | error e => exact absurd rfl (hok e)
  | ok report =>
      obtain ⟨pages, outcomes, hh, hw, hreport, hall, hneeded⟩ := hinv
      have hscope : rules.scope (B.waiting s).length = (B.waiting s).length := by
        rw [SyncRules.scope, hbudget]
        rfl
      rw [hscope] at hh hw hreport hall
      obtain ⟨answered, hcomplete⟩ := completePass_of_written hh hw hreport hall hneeded
      exact ⟨report, answered, _, Prod.ext hresult rfl, hcomplete⟩

end Backing

/-- What a complete pass comes to does not depend on its page size, but for the number of pages. -/
theorem CompletePass.unique {x : Exchange σ ε} {B : Backing x ρ} {rules rules' : SyncRules}
    {s s₁ s₂ : σ} {report₁ report₂ : RetryReport} {answered₁ answered₂ : List (ε × Answer ε)}
    (h₁ : CompletePass B rules s s₁ report₁ answered₁)
    (h₂ : CompletePass B rules' s s₂ report₂ answered₂)
    (hclassifier : rules'.classifier = rules.classifier) (hnow : rules'.now = rules.now) :
    answered₂ = answered₁ ∧ B.rows s₂ = B.rows s₁ ∧ B.remote s₂ = B.remote s₁ ∧
      B.handed s₂ = B.handed s₁ ∧ B.frame s₂ = B.frame s₁ ∧
      { report₂ with pages := report₁.pages } = report₁ := by
  have hfst : answered₂.map Prod.fst = answered₁.map Prod.fst := by
    have hsome := h₂.submitted_eq.trans h₁.submitted_eq.symm
    refine (List.map_inj_right fun _ _ he => Option.some.inj he).1 ?_
    rw [List.map_map, List.map_map]
    exact hsome
  have hanswers := h₂.answers_eq.symm.trans ((congrArg (fun es => submitAll B.send es (B.remote s))
    hfst).trans h₁.answers_eq)
  obtain ⟨hpairs, hremote⟩ := Prod.mk.inj hanswers
  have hanswered : answered₂ = answered₁ := by
    refine (List.map_inj_right fun p q hpq => ?_).1 hpairs
    obtain ⟨he, ha⟩ := Prod.mk.inj hpq
    exact Prod.ext he (Option.some.inj ha)
  subst hanswered
  have hrows : B.rows s₂ = B.rows s₁ := by
    apply Table.ext_get?
    intro k
    by_cases hk : k ∈ (B.waiting s).map key
    · obtain ⟨r, hr, rfl⟩ := List.mem_map.1 hk
      obtain ⟨p, hp, he⟩ : ∃ p ∈ answered₂, some p.1 = B.entity s r :=
        List.mem_map.1 (h₁.submitted_eq ▸ List.mem_map_of_mem hr)
      rw [← B.key_entity he.symm, h₁.stored p hp, h₂.stored p hp, hclassifier, hnow]
    · rw [h₁.unchanged k hk, h₂.unchanged k hk]
  have hhanded : B.handed s₂ = B.handed s₁ := h₂.handed_eq.trans h₁.handed_eq.symm
  have houtcomes : resolveAll rules' answered₂ = resolveAll rules answered₂ := by
    unfold resolveAll
    rw [hclassifier, hnow]
  have hreport : { report₂ with pages := report₁.pages } = report₁ := by
    rw [h₁.report_eq, h₂.report_eq, houtcomes]
    rfl
  exact ⟨rfl, hrows, hremote, hhanded, h₂.frame_eq.trans h₁.frame_eq.symm, hreport⟩

/-! ## Passes of a client -/

/-- A service without a state, which answers every submission. -/
def Remote.stateless (message : Message → Answer Message) (channel : Channel → Answer Channel) :
    Remote Unit where
  sendMessage m r := (some (message m), r)
  updateChannel c r := (some (channel c), r)

/-- The beginning of 1970. -/
def Instant.epoch : Instant := ⟨⟨1970, 1, 1, by decide⟩, 0, 0, 0, 0, by decide⟩

/-- What a pass without a budget has to do on a repository: it ends, and if all its store calls
succeed it ends with a report and is complete; another page size then leads to the same tables, the
same submissions and the same report but for the number of pages. -/
def Backing.PassesComplete {x : Exchange σ ε} (B : Backing x ρ) (rules : SyncRules) (s : σ) :
    Prop :=
  (∃ result, (run x rules (steps (B.rows s).size) start s).1 = finished result) ∧
  (StoreServes x rules s → ∃ report answered s',
    run x rules (steps (B.rows s).size) start s = (finished (.ok report), s') ∧
    CompletePass B rules s s' report answered ∧
    ∀ pageSize, StoreServes x { rules with pageSize } s → ∃ report' s'',
      run x { rules with pageSize } (steps (B.rows s).size) start s
        = (finished (.ok report'), s'') ∧
      B.rows s'' = B.rows s' ∧ B.frame s'' = B.frame s' ∧ B.handed s'' = B.handed s' ∧
      { report' with pages := report.pages } = report)

theorem Backing.passesComplete {x : Exchange σ ε} (B : Backing x ρ) {rules : SyncRules}
    (hbudget : rules.maxPages = none) (hanswers : ∀ e r, (B.send e r).1.isSome) (s : σ) :
    B.PassesComplete rules s := by
  refine ⟨run_finished B rules s hanswers, fun hserves => ?_⟩
  obtain ⟨report, answered, s', hrun, hcomplete⟩ :=
    completePass_of_serves B hbudget hanswers hserves
  refine ⟨report, answered, s', hrun, hcomplete, fun pageSize hserves' => ?_⟩
  have hbudget' : { rules with pageSize }.maxPages = none := hbudget
  obtain ⟨report', answered', s'', hrun', hcomplete'⟩ :=
    completePass_of_serves B hbudget' hanswers hserves'
  obtain ⟨_, hrows, _, hhanded, hframe, hreport⟩ := hcomplete.unique hcomplete' rfl rfl
  exact ⟨report', s'', hrun', hrows, hframe, hhanded, hreport⟩

namespace Client

/-- **A pass over the messages or the channels of a client is complete**, for every page size,
classifier and remote service that answers. -/
theorem complete_pass (remote : Remote ρ) (rules : SyncRules) (hbudget : rules.maxPages = none)
    (hmessages : ∀ m r, (remote.sendMessage m r).1.isSome)
    (hchannels : ∀ channel r, (remote.updateChannel channel r).1.isSome) (c : Client ρ) :
    (messageBacking remote).PassesComplete rules c ∧
      (channelBacking remote).PassesComplete rules c :=
  ⟨(messageBacking remote).passesComplete hbudget hmessages c,
    (channelBacking remote).passesComplete hbudget hchannels c⟩

/-- A client with two channels that wait, and nothing else. -/
def waitingTwice : Client Unit :=
  .new (.new ((Database.create none).putChannels
    [{ Channel.new "team" "b" with syncStatus := .syncNeeded },
      { Channel.new "team" "a" with syncStatus := .syncNeeded }]) none 1 1 1) ()

/-- Two channels that time out take two pages of one, and each is submitted once. -/
theorem complete_pass_waitingTwice : ∃ report c',
    run (channelExchange (.stateless .ok fun _ => .error .timeout)) ⟨0, none, .standard, .epoch⟩
      (steps 2) start waitingTwice = (finished (.ok report), c') ∧
    report.submitted = 2 ∧ report.pages = 2 := by
  let remote : Remote Unit := .stateless .ok fun _ => .error .timeout
  have hserves : StoreServes (channelExchange remote) ⟨0, none, .standard, .epoch⟩ waitingTwice :=
    (channelBacking remote).storeServes_of_reliable _ (fun _ => rfl) (List.all_eq_true.1 rfl)
  have hpasses := complete_pass remote ⟨0, none, .standard, .epoch⟩ rfl (fun _ _ => rfl)
    (fun _ _ => rfl) waitingTwice
  obtain ⟨report, answered, c', hrun, hcomplete, _⟩ := hpasses.2.2 hserves
  have hlen : ((channelBacking remote).waiting waitingTwice).length = 2 := rfl
  refine ⟨report, c', hrun, hcomplete.submitted_count.trans hlen, ?_⟩
  rw [hcomplete.pages_eq (.inl (by decide)), hlen]
  rfl

end Client

end OfflineChat
