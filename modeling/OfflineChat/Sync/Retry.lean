import OfflineChat.Store.Action
import OfflineChat.Sync.Outcome

/-! # Retry passes

A retry pass submits the entities that wait for it, page by page. It selects a page of entities
above the last key it has seen, submits all of them at once, waits for all answers and writes the
resolved page back as one batch. It ends with an empty or short page, when its budget of pages is
used up, or with a failure of the store. Main definitions: `Exchange`, what a pass needs of its
surroundings; `RetryPass`, a pass between two of its steps; `RetryPass.step` and `RetryPass.run`. -/

set_option autoImplicit false

namespace OfflineChat

/-- What a pass needs: the waiting entities above a key, up to a limit; the remote service, which
may leave a submission unanswered; and a place to write entities back to. -/
structure Exchange (σ ε : Type) where
  select : Option String → Nat → Action σ (List ε)
  submit : ε → σ → Option (Answer ε) × σ
  write : List ε → Action σ Unit

/-- How a pass works: entities per page, pages per pass, and the judgement on failures. -/
structure SyncRules where
  /-- A page size of 0 counts as 1. -/
  pageSize : Nat
  maxPages : Option Nat
  classifier : Classifier
  /-- The time that is noted on rejected entities. -/
  now : Instant

/-- The number of entities on a full page. -/
def SyncRules.limit (rules : SyncRules) : Nat := max rules.pageSize 1

/-- What a pass has done. -/
structure RetryReport where
  pages : Nat
  submitted : Nat
  completed : Nat
  failedPermanently : Nat
  stillPending : Nat
  deriving DecidableEq

namespace RetryReport

/-- Nothing. -/
def empty : RetryReport := ⟨0, 0, 0, 0, 0⟩

/-- One more page, with this many submissions. -/
def withPage (r : RetryReport) (submitted : Nat) : RetryReport :=
  { r with pages := r.pages + 1, submitted := r.submitted + submitted }

/-- One more outcome. -/
def withOutcome {ε : Type} (r : RetryReport) : Outcome ε → RetryReport
  | .completed _ => { r with completed := r.completed + 1 }
  | .failedPermanently _ => { r with failedPermanently := r.failedPermanently + 1 }
  | .pending _ => { r with stillPending := r.stillPending + 1 }

/-- More outcomes. -/
def withOutcomes {ε : Type} (r : RetryReport) (outcomes : List (Outcome ε)) : RetryReport :=
  outcomes.foldl withOutcome r

end RetryReport

/-- The greatest key of the entities. -/
def greatestKey? {ε : Type} [Keyed ε] (page : List ε) : Option String :=
  page.foldl
    (fun greatest e => some (greatest.elim (key e) fun k => if k < key e then key e else k)) none

/-- Where a pass stands while a page is under way: the key above which the next page starts, whether
this page is the last one, and the tally. -/
structure Progress where
  after : Option String
  isLast : Bool
  report : RetryReport

/-- A retry pass between two of its steps. -/
inductive RetryPass (ε : Type) where
  /-- A page is to be selected above a key. -/
  | selecting (after : Option String) (report : RetryReport)
  /-- A page is to be submitted. -/
  | submitting (page : List ε) (progress : Progress)
  /-- All entities of a page are submitted, and those that are answered stand with their answers. -/
  | awaiting (page : List (ε × Option (Answer ε))) (progress : Progress)
  /-- The pass has ended. -/
  | finished (result : Except StoreError RetryReport)

namespace RetryPass

variable {σ ε : Type}

/-- A pass that has done nothing yet. -/
def start : RetryPass ε := selecting none .empty

/-- The answers of a page, if all are there. -/
def answers? : List (ε × Option (Answer ε)) → Option (List (ε × Answer ε))
  | [] => some []
  | (_, none) :: _ => none
  | (e, some a) :: page => (answers? page).map ((e, a) :: ·)

/-- Submits entities one after another, without waiting for answers. -/
def submitAll (submit : ε → σ → Option (Answer ε) × σ) :
    List ε → σ → List (ε × Option (Answer ε)) × σ
  | [], s => ([], s)
  | e :: es, s =>
      let (answer, s) := submit e s
      let (rest, s) := submitAll submit es s
      ((e, answer) :: rest, s)

variable [Syncable ε]

/-- A selected page is submitted next, each key once; an empty one ends the pass. -/
def ofPage (limit : Nat) (report : RetryReport) (page : List ε) : RetryPass ε :=
  if page.isEmpty then finished (.ok report)
  else
    let distinct := firstOfKeys page
    -- whether the page is full, and where the next one starts, is judged with repeated keys in it
    submitting distinct
      { after := greatestKey? page, isLast := page.length < limit
        report := report.withPage distinct.length }

/-- The outcomes of answered submissions. -/
def resolveAll (rules : SyncRules) (answered : List (ε × Answer ε)) : List (Outcome ε) :=
  answered.map fun p => Outcome.resolve rules.classifier rules.now p.1 p.2

/-- Whether the budget of pages is used up. -/
def isExhausted (rules : SyncRules) (report : RetryReport) : Bool :=
  rules.maxPages.any fun most => most ≤ report.pages

/-- The next step. A pass that waits for an answer, or has ended, stays where it is. -/
def step (x : Exchange σ ε) (rules : SyncRules) : RetryPass ε → σ → RetryPass ε × σ
  | selecting after report, s =>
      if isExhausted rules report then (finished (.ok report), s)
      else
        match x.select after rules.limit s with
        | (.ok page, s) => (ofPage rules.limit report page, s)
        | (.error e, s) => (finished (.error e), s)
  | submitting page progress, s =>
      let (page, s) := submitAll x.submit page s
      (awaiting page progress, s)
  | awaiting page progress, s =>
      match answers? page with
      | none => (awaiting page progress, s)
      | some answered =>
          let outcomes := resolveAll rules answered
          match x.write (outcomes.map Outcome.entity) s with
          | (.error e, s) => (finished (.error e), s)
          | (.ok (), s) =>
              -- the outcomes count only once they are written
              let report := progress.report.withOutcomes outcomes
              if progress.isLast then (finished (.ok report), s)
              else (selecting progress.after report, s)
  | finished result, s => (finished result, s)

/-- Takes `n` steps. -/
def run (x : Exchange σ ε) (rules : SyncRules) : Nat → RetryPass ε → σ → RetryPass ε × σ
  | 0, p, s => (p, s)
  | n + 1, p, s =>
      let (p, s) := step x rules p s
      run x rules n p s

/-- Three steps for each page and each of as many rows, and one to find that there is no page left:
enough steps to end a pass over a table of `rows` rows. -/
def steps (rows : Nat) : Nat := 3 * rows + 3

end RetryPass

end OfflineChat
