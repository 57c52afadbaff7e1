import OfflineChat.Proofs.Store.Selection
import OfflineChat.Sync.Retry

/-! # What stands behind a retry pass

A retry pass sees its surroundings through an `Exchange` only. A `Backing` says what the exchange
does to them: to the table that holds the entities, to the state of the remote service and to the
list of entities that were handed to it. Main definitions: `Backing` with its laws, the waiting rows
`Backing.waiting`, and `Backing.outcomes?`, what becomes of the first of them when they are resolved
one after another. -/

set_option autoImplicit false

namespace OfflineChat

/-! ## Counting outcomes -/

namespace Outcome

variable {ε : Type}

def isCompleted : Outcome ε → Bool
  | completed _ => true
  | _ => false

def isFailed : Outcome ε → Bool
  | failedPermanently _ => true
  | _ => false

def isPending : Outcome ε → Bool
  | pending _ => true
  | _ => false

/-- What the answer to an entity that has not failed for good makes of its status. -/
theorem status_resolve [Syncable ε] {classifier : Classifier} {now : Instant} {e : ε}
    (h : (Syncable.status e).isTerminal = false) (answer : Answer ε) :
    Syncable.status (resolve classifier now e answer).entity =
      match answer with
      | .ok _ => .completed
      | .error error =>
          if classifier error (Syncable.cid e) then .failedPermanently else .syncNeeded := by
  unfold resolve
  rw [h]
  cases answer with
  | ok acknowledged =>
      simp only [Bool.false_eq_true, if_false]
      split <;> exact Syncable.status_withStatus _ _
  | error error =>
      simp only [Bool.false_eq_true, if_false]
      split
      · exact Syncable.status_rejected _ _ _
      · exact Syncable.status_withStatus _ _

end Outcome

namespace RetryReport

variable {ε : Type}

/-- The report after so many pages with so many submissions and these outcomes. -/
def tally (pages submitted : Nat) (outcomes : List (Outcome ε)) : RetryReport where
  pages := pages
  submitted := submitted
  completed := outcomes.countP Outcome.isCompleted
  failedPermanently := outcomes.countP Outcome.isFailed
  stillPending := outcomes.countP Outcome.isPending

theorem withOutcomes_tally (pages submitted : Nat) (done more : List (Outcome ε)) :
    (tally pages submitted done).withOutcomes more = tally pages submitted (done ++ more) := by
  induction more generalizing done with
  | nil => rw [List.append_nil]; rfl
  | cons o more ih =>
      have hone : (tally pages submitted done).withOutcome o
          = tally pages submitted (done ++ [o]) := by
        cases o <;>
          simp [withOutcome, tally, List.countP_append, Outcome.isCompleted, Outcome.isFailed,
            Outcome.isPending]
      show ((tally pages submitted done).withOutcome o).withOutcomes more = _
      rw [hone, ih, List.append_assoc, List.singleton_append]

/-- Every submission is counted as one of the three outcomes. -/
theorem tally_counts (pages submitted : Nat) (outcomes : List (Outcome ε)) :
    (tally pages submitted outcomes).completed + (tally pages submitted outcomes).failedPermanently
      + (tally pages submitted outcomes).stillPending = outcomes.length := by
  induction outcomes with
  | nil => rfl
  | cons o os ih =>
      simp only [tally] at ih ⊢
      cases o <;>
        simp only [List.countP_cons, List.length_cons, Outcome.isCompleted, Outcome.isFailed,
          Outcome.isPending, if_true, Bool.false_eq_true, if_false] <;> omega

end RetryReport

/-! ## Submitting one after another -/

namespace RetryPass

variable {σ ε : Type}

theorem submitAll_append (submit : ε → σ → Option (Answer ε) × σ) (es fs : List ε) (s : σ) :
    submitAll submit (es ++ fs) s =
      ((submitAll submit es s).1 ++ (submitAll submit fs (submitAll submit es s).2).1,
        (submitAll submit fs (submitAll submit es s).2).2) := by
  induction es generalizing s with
  | nil => rfl
  | cons e es ih => simp only [List.cons_append, submitAll, ih]

theorem map_fst_submitAll (submit : ε → σ → Option (Answer ε) × σ) (es : List ε) (s : σ) :
    (submitAll submit es s).1.map Prod.fst = es := by
  induction es generalizing s with
  | nil => rfl
  | cons e es ih => simp only [submitAll, List.map_cons, ih]

theorem submitAll_keeps {α : Type} {submit : ε → σ → Option (Answer ε) × σ}
    (f : σ → α) (h : ∀ e s, f (submit e s).2 = f s) (es : List ε) (s : σ) :
    f (submitAll submit es s).2 = f s := by
  induction es generalizing s with
  | nil => rfl
  | cons e es ih => exact (ih (submit e s).2).trans (h e s)

theorem answers?_append (xs ys : List (ε × Option (Answer ε))) :
    answers? (xs ++ ys) = (answers? xs).bind fun a => (answers? ys).map (a ++ ·) := by
  induction xs with
  | nil => simp [answers?]
  | cons x xs ih =>
      obtain ⟨e, _ | a⟩ := x
      · rfl
      · simp only [List.cons_append, answers?, ih]
        cases answers? xs <;> cases answers? ys <;> rfl

/-- All answers of a page, once they are there, say what the page is. -/
theorem eq_map_of_answers? {xs : List (ε × Option (Answer ε))} {as : List (ε × Answer ε)}
    (h : answers? xs = some as) : xs = as.map fun p => (p.1, some p.2) := by
  induction xs generalizing as with
  | nil =>
      simp only [answers?, Option.some.injEq] at h
      rw [← h]
      rfl
  | cons x xs ih =>
      obtain ⟨e, _ | a⟩ := x
      · exact absurd h (by simp [answers?])
      · simp only [answers?, Option.map_eq_some_iff] at h
        obtain ⟨rest, hrest, rfl⟩ := h
        rw [ih hrest, List.map_cons]

theorem map_fst_of_answers? {xs : List (ε × Option (Answer ε))} {as : List (ε × Answer ε)}
    (h : answers? xs = some as) : as.map Prod.fst = xs.map Prod.fst := by
  rw [eq_map_of_answers? h, List.map_map]
  rfl

/-- A service that answers every submission answers all of them. -/
theorem answers?_submitAll {submit : ε → σ → Option (Answer ε) × σ}
    (h : ∀ e s, (submit e s).1.isSome) (es : List ε) (s : σ) :
    ∃ as, answers? (submitAll submit es s).1 = some as := by
  induction es generalizing s with
  | nil => exact ⟨[], rfl⟩
  | cons e es ih =>
      obtain ⟨a, ha⟩ := Option.isSome_iff_exists.1 (h e s)
      obtain ⟨as, has⟩ := ih (submit e s).2
      exact ⟨(e, a) :: as, by simp only [submitAll, ha, answers?, has, Option.map_some]⟩

variable [Syncable ε]

theorem keys_resolveAll (rules : SyncRules) (as : List (ε × Answer ε)) :
    (resolveAll rules as).map (fun o => key o.entity) = as.map fun p => key p.1 := by
  simp only [resolveAll, List.map_map]
  exact List.map_congr_left fun p _ =>
    Outcome.key_entity_resolve rules.classifier rules.now p.1 p.2

/-- A step keeps what selecting, writing and submitting keep. -/
theorem step_keeps {α : Type} {x : Exchange σ ε} (f : σ → α)
    (hselect : ∀ after limit s, f (x.select after limit s).2 = f s)
    (hwrite : ∀ es s, f (x.write es s).2 = f s) (rules : SyncRules) (pass : RetryPass ε) (s : σ)
    (hsubmit : ∀ page progress, pass = submitting page progress →
      f (submitAll x.submit page s).2 = f s) :
    f (step x rules pass s).2 = f s := by
  cases pass with
  | selecting after report =>
      have hs := hselect after rules.limit s
      simp only [step]
      split
      · rfl
      · split
        · next hsel => rw [hsel] at hs; exact hs
        · next hsel => rw [hsel] at hs; exact hs
  | submitting page progress => exact hsubmit page progress rfl
  | awaiting page progress =>
      simp only [step]
      split
      · rfl
      · next answered _ =>
        have hs := hwrite ((resolveAll rules answered).map Outcome.entity) s
        split
        · next hw => rw [hw] at hs; exact hs
        · next hw => rw [hw] at hs; split <;> exact hs
  | finished result => rfl

end RetryPass

/-! ## Backings -/

variable {σ ε ρ : Type} [Syncable ε]

/-- What a pass leaves as it is. -/
structure PassFrame (ε : Type) where
  /-- The entity that a row stands for, if the row can be read. -/
  entity : Row → Option ε
  /-- The database without the table that holds the entities. -/
  others : Database
  /-- Neither the medium nor anything stored outside the table makes a call fail. -/
  reliable : Prop

/-- What an exchange works on: a table of entities and a remote service. -/
structure Backing (x : Exchange σ ε) (ρ : Type) where
  /-- The table that holds the entities. -/
  rows : σ → Table Row
  /-- The state of the remote service. -/
  remote : σ → ρ
  /-- The entities handed to the remote service, last first. -/
  handed : σ → List ε
  frame : σ → PassFrame ε
  send : ε → ρ → Option (Answer ε) × ρ
  /-- Where a row holds its status. -/
  statusCell : Row → Cell
  toRow : ε → Row
  key_toRow : ∀ e, key (toRow e) = key e
  status_toRow : ∀ e, statusCell (toRow e) = .integer (Syncable.status e).code
  key_entity : ∀ {s r e}, (frame s).entity r = some e → key e = key r
  status_entity : ∀ {s r e status}, (frame s).entity r = some e →
    statusCell r = .integer status.code → Syncable.status e = status
  select_ok : ∀ {after limit s page s'}, x.select after limit s = (.ok page, s') →
    page.map some = (atMost limit
      ((rows s).withStatus statusCell .syncNeeded after)).map (frame s).entity ∧
      rows s' = rows s ∧ remote s' = remote s ∧ handed s' = handed s ∧ frame s' = frame s
  select_total : ∀ {after limit s}, (frame s).reliable →
    (∀ r ∈ (rows s).withStatus statusCell .syncNeeded after, ((frame s).entity r).isSome) →
    ∃ page s', x.select after limit s = (.ok page, s')
  select_error : ∀ {after limit s e s'}, x.select after limit s = (.error e, s') →
    rows s' = rows s ∧ remote s' = remote s ∧ handed s' = handed s ∧ frame s' = frame s
  submit_spec : ∀ e s, (x.submit e s).1 = (send e (remote s)).1 ∧
    rows (x.submit e s).2 = rows s ∧ remote (x.submit e s).2 = (send e (remote s)).2 ∧
    handed (x.submit e s).2 = e :: handed s ∧ frame (x.submit e s).2 = frame s
  write_ok : ∀ {es s s'}, x.write es s = (.ok (), s') →
    rows s' = (rows s).putAll (es.map toRow) ∧ remote s' = remote s ∧ handed s' = handed s ∧
      frame s' = frame s
  write_total : ∀ {es s}, (frame s).reliable → ∃ s', x.write es s = (.ok (), s')
  write_error : ∀ {es s e s'}, x.write es s = (.error e, s') →
    rows s' = rows s ∧ remote s' = remote s ∧ handed s' = handed s ∧ frame s' = frame s

namespace Backing

variable {x : Exchange σ ε} (B : Backing x ρ)

/-- The entity that a row stands for, if the row can be read. -/
def entity (s : σ) : Row → Option ε := (B.frame s).entity

/-- The rows that wait, by key. -/
def waiting (s : σ) : List Row := (B.rows s).withStatus B.statusCell .syncNeeded none

/-- The entities of the first `d` waiting rows, as far as these can be read. -/
def entities (s : σ) (d : Nat) : List ε := ((B.waiting s).take d).filterMap (B.entity s)

/-- The entities of the first `d` waiting rows with their answers, when they are submitted one after
another, and the remote service after that. -/
def submissions (s : σ) (d : Nat) : List (ε × Option (Answer ε)) × ρ :=
  RetryPass.submitAll B.send (B.entities s d) (B.remote s)

/-- What becomes of the first `d` waiting rows, if all their submissions are answered. -/
def outcomes? (rules : SyncRules) (s : σ) (d : Nat) : Option (List (Outcome ε)) :=
  (RetryPass.answers? (B.submissions s d).1).map (RetryPass.resolveAll rules)

/-- The rows that the outcomes are written as. -/
def outcomeRows (outcomes : List (Outcome ε)) : List Row :=
  outcomes.map fun o => B.toRow o.entity

/-- The key above which the rows after the first `d` waiting ones lie. -/
def cursor (s : σ) (d : Nat) : Option String := ((B.waiting s).take d).getLast?.map key

variable {B} {rules : SyncRules} {s : σ} {d : Nat}

/-- Entities that were all read, row by row. -/
theorem map_entity_take (h : ∀ r ∈ (B.waiting s).take d, (B.entity s r).isSome) :
    ((B.waiting s).take d).map (B.entity s) = (B.entities s d).map some := by
  unfold entities
  generalize (B.waiting s).take d = rows at h
  induction rows with
  | nil => rfl
  | cons r rows ih =>
      obtain ⟨e, he⟩ := Option.isSome_iff_exists.1 (h r (by simp))
      rw [List.map_cons, List.filterMap_cons_some he, List.map_cons, he,
        ih fun r hr => h r (List.mem_cons_of_mem _ hr)]

theorem keys_of_map_some {rows : List Row} {es : List ε} (h : es.map some = rows.map (B.entity s)) :
    es.map key = rows.map key := by
  induction rows generalizing es with
  | nil => rw [List.map_eq_nil_iff.1 h]; rfl
  | cons r rows ih =>
      cases es with
      | nil => exact absurd h (by simp)
      | cons e es =>
          simp only [List.map_cons, List.cons.injEq] at h ⊢
          exact ⟨B.key_entity h.1.symm, ih h.2⟩

theorem keys_entities (h : ∀ r ∈ (B.waiting s).take d, (B.entity s r).isSome) :
    (B.entities s d).map key = ((B.waiting s).take d).map key :=
  keys_of_map_some (map_entity_take h).symm

theorem ascending_waiting (s : σ) : Ascending (B.waiting s) :=
  Table.ascending_withStatus _ _ _ _

/-- The rows of a table that a status cell marks as waiting. -/
theorem mem_waiting_iff {r : Row} :
    r ∈ B.waiting s ↔
      r ∈ (B.rows s).rows ∧ B.statusCell r = .integer SyncStatus.syncNeeded.code := by
  unfold waiting
  rw [Table.mem_withStatus_iff, ← Table.mem_rows_iff]
  simp

/-- A row that is stored under a key waits exactly if the key is one of those that wait. -/
theorem status_iff_mem_waiting {k : String} {row : Row} (hrow : (B.rows s).get? k = some row) :
    B.statusCell row = .integer SyncStatus.syncNeeded.code ↔ k ∈ (B.waiting s).map key := by
  have hkey : key row = k := Table.key_of_get? hrow
  constructor
  · intro hstatus
    exact List.mem_map.2 ⟨row, mem_waiting_iff.2 ⟨Table.mem_of_get? hrow, hstatus⟩, hkey⟩
  · intro hmem
    obtain ⟨r, hr, hrk⟩ := List.mem_map.1 hmem
    obtain ⟨hr, hstatus⟩ := mem_waiting_iff.1 hr
    have hget := Table.get?_of_mem hr
    rw [hrk, hrow, Option.some.injEq] at hget
    rw [hget]
    exact hstatus

/-- The rows that outcomes are written as have the keys of the entities that were submitted. -/
theorem keys_outcomeRows (B : Backing x ρ) (rules : SyncRules) (as : List (ε × Answer ε)) :
    (B.outcomeRows (RetryPass.resolveAll rules as)).map key = as.map fun p => key p.1 := by
  calc (B.outcomeRows (RetryPass.resolveAll rules as)).map key
      = (RetryPass.resolveAll rules as).map fun o => key o.entity := by
        simp only [outcomeRows, List.map_map, Function.comp_def, B.key_toRow]
    _ = as.map fun p => key p.1 := RetryPass.keys_resolveAll rules as

theorem keys_of_outcomes {outcomes : List (Outcome ε)} (h : B.outcomes? rules s d = some outcomes) :
    (B.outcomeRows outcomes).map key = (B.entities s d).map key := by
  obtain ⟨as, has, rfl⟩ := Option.map_eq_some_iff.1 h
  have hfst : as.map Prod.fst = B.entities s d := by
    rw [RetryPass.map_fst_of_answers? has]
    exact RetryPass.map_fst_submitAll _ _ _
  rw [keys_outcomeRows, ← hfst, List.map_map]
  rfl

/-- Submitting a page through the exchange is submitting it to the remote service. -/
theorem submitAll_spec (es : List ε) (s : σ) :
    (RetryPass.submitAll x.submit es s).1 = (RetryPass.submitAll B.send es (B.remote s)).1 ∧
    B.rows (RetryPass.submitAll x.submit es s).2 = B.rows s ∧
    B.remote (RetryPass.submitAll x.submit es s).2
      = (RetryPass.submitAll B.send es (B.remote s)).2 ∧
    B.handed (RetryPass.submitAll x.submit es s).2 = es.reverse ++ B.handed s ∧
    B.frame (RetryPass.submitAll x.submit es s).2 = B.frame s := by
  induction es generalizing s with
  | nil => exact ⟨rfl, rfl, rfl, rfl, rfl⟩
  | cons e es ih =>
      obtain ⟨ha, hrows, hremote, hhanded, hframe⟩ := B.submit_spec e s
      -- the remote service is in the state in which the first submission leaves it
      obtain ⟨ia, irows, iremote, ihanded, iframe⟩ := ih (x.submit e s).2
      simp only [RetryPass.submitAll]
      refine ⟨?_, irows.trans hrows, ?_, ?_, iframe.trans hframe⟩
      · rw [ia, ha, hremote]
      · rw [iremote, hremote]
      · rw [ihanded, hhanded, List.reverse_cons, List.append_assoc, List.singleton_append]

end Backing

end OfflineChat
