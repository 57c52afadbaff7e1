import OfflineChat.Proofs.Sync.CompletePass
import OfflineChat.Proofs.Sync.Runs

/-! # Interrupted passes

A pass can end early: its budget is used up, a store call fails, or it is given up while answers are
missing. At any moment of it the pages that are written back are the first ones, and at most one
more page is with the remote service. Main definitions: `CleanPrefix`, what holds of a pass at any
moment, and `Backing.PassInterrupted`. Main statements: a step keeps the invariant `Backing.Reached`
(`Backing.reached_step`), so that every moment is one of a clean prefix (`Backing.passInterrupted`),
for the repositories of a client in `Client.interrupted_pass`. -/

set_option autoImplicit false

namespace OfflineChat

/-- The number of pages that a pass of these rules gets to over `n` rows. -/
def SyncRules.pageBudget (rules : SyncRules) (n : Nat) : Nat :=
  rules.maxPages.elim (rules.pageCount n) fun most => min most (rules.pageCount n)

theorem SyncRules.pageBudget_of_all {rules : SyncRules} {pages n : Nat}
    (hallowed : ∀ most ∈ rules.maxPages, pages ≤ most) (hpages : pages = rules.pageCount n) :
    rules.pageBudget n = pages := by
  unfold pageBudget
  cases hm : rules.maxPages with
  | none => exact hpages.symm
  | some most =>
      have hle := hallowed most hm
      show min most (rules.pageCount n) = pages
      omega

theorem SyncRules.le_pageBudget {rules : SyncRules} {pages n : Nat}
    (hallowed : ∀ most ∈ rules.maxPages, pages ≤ most) (hpages : pages ≤ rules.pageCount n) :
    pages ≤ rules.pageBudget n := by
  unfold pageBudget
  cases hm : rules.maxPages with
  | none => exact hpages
  | some most =>
      have hle := hallowed most hm
      show pages ≤ min most (rules.pageCount n)
      omega

/-! ## Failures of a pass -/

namespace RetryPass

variable {σ ε : Type}

/-- The failure of the store call that the next step makes, if it makes one that fails. -/
def storeError? [Syncable ε] (x : Exchange σ ε) (rules : SyncRules) :
    RetryPass ε → σ → Option StoreError
  | selecting after report, s =>
      if isExhausted rules report then none
      else
        match (x.select after rules.limit s).1 with
        | .ok _ => none
        | .error e => some e
  | awaiting page _, s =>
      match answers? page with
      | none => none
      | some answered =>
          match (x.write ((resolveAll rules answered).map Outcome.entity) s).1 with
          | .ok () => none
          | .error e => some e
  | _, _ => none

end RetryPass

namespace RetryCourse

variable {σ ε τ : Type}

/-- A pass is about to start. -/
def begun (rules : SyncRules) (s : σ) : RetryCourse σ ε := ⟨s, rules, .start⟩

variable [Syncable ε] {x : Exchange σ ε} {others : τ → σ → σ}

/-- The rules of a pass stay while no other one starts. -/
theorem rules_next {r : RetryCourse σ ε} {event : RetryEvent τ} (h : event.isStart = false) :
    (r.next x others event).rules = r.rules := by
  cases event with
  | start rules => exact absurd h (by simp [RetryEvent.isStart])
  | step => rfl
  | others what => rfl

theorem rules_run {r : RetryCourse σ ε} {events : List (RetryEvent τ)}
    (hevents : ∀ event ∈ events, event.isStart = false) :
    (r.run x others events).rules = r.rules := by
  induction events generalizing r with
  | nil => rfl
  | cons event events ih =>
      have hrest := ih (r := r.next x others event) fun e he =>
        hevents e (List.mem_cons_of_mem _ he)
      exact hrest.trans (rules_next (hevents event (List.mem_cons_self ..)))

/-- Steps without anything between them are a run of the pass. -/
theorem run_replicate_step (n : Nat) (r : RetryCourse σ ε) :
    r.run x others (List.replicate n .step)
      = { r with
          pass := (r.pass.run x r.rules n r.state).1
          state := (r.pass.run x r.rules n r.state).2 } := by
  induction n generalizing r with
  | zero => rfl
  | succ n ih => rw [List.replicate_succ, run_cons, ih]; rfl

end RetryCourse

namespace Backing

open RetryPass

variable {σ ε ρ τ : Type} [Syncable ε] {x : Exchange σ ε}

/-- Others leave alone what a pass works on, except for the remote service and the medium. -/
structure Undisturbed (B : Backing x ρ) (others : τ → σ → σ) : Prop extends
    B.LeftAlone others where
  entity_eq : ∀ what s, B.entity (others what s) = B.entity s
  others_eq : ∀ what s, (B.frame (others what s)).others = (B.frame s).others

/-! ## The invariant -/

/-- A pass that started in `s₀` has written `pages` pages back by `s`: `answered` are their
submissions with the answers, `underWay` those of the page after them, if it is submitted, and
`asked` are all submissions. -/
structure Reached (B : Backing x ρ) (rules : SyncRules) (s₀ s : σ)
    (asked : List (ε × Option (Answer ε))) (pages : Nat) (answered : List (ε × Answer ε))
    (underWay : List (ε × Option (Answer ε))) : Prop where
  applied : Applied B rules s₀ s (rules.reach pages (B.waiting s₀).length) answered
  asked_eq : asked = (answered.map fun p => (p.1, some p.2)) ++ underWay
  handed_eq : B.handed s = (asked.map Prod.fst).reverse ++ B.handed s₀
  entity_eq : B.entity s = B.entity s₀
  others_eq : (B.frame s).others = (B.frame s₀).others
  allowed : ∀ most ∈ rules.maxPages, pages ≤ most
  needed : ∀ j < pages, rules.reach j (B.waiting s₀).length < (B.waiting s₀).length

/-- Where a pass stands that has written `pages` pages back. -/
def Stands (B : Backing x ρ) (rules : SyncRules) (s₀ : σ) (pages : Nat)
    (answered : List (ε × Answer ε)) (underWay : List (ε × Option (Answer ε))) :
    RetryPass ε → Prop
  | .selecting after report =>
      let d := rules.reach pages (B.waiting s₀).length
      underWay = [] ∧ after = B.cursor s₀ d ∧ report = .tally pages d (resolveAll rules answered)
  | .submitting page progress => underWay = [] ∧ B.IsPage rules s₀ pages page ∧
      B.OnPage rules s₀ pages (resolveAll rules answered) progress
  | .awaiting page progress => underWay = page ∧ B.IsPage rules s₀ pages (page.map Prod.fst) ∧
      B.OnPage rules s₀ pages (resolveAll rules answered) progress
  | .finished (.ok report) => underWay = [] ∧
      report = .tally pages (rules.reach pages (B.waiting s₀).length) (resolveAll rules answered) ∧
      pages = rules.pageBudget (B.waiting s₀).length
  | .finished (.error _) => underWay = [] ∨ B.IsPage rules s₀ pages (underWay.map Prod.fst)

variable {B : Backing x ρ} {rules : SyncRules} {s₀ s s' : σ}
  {asked : List (ε × Option (Answer ε))} {pages : Nat} {answered : List (ε × Answer ε)}
  {underWay : List (ε × Option (Answer ε))}

theorem Reached.congr (h : B.Reached rules s₀ s asked pages answered underWay)
    (hrows : B.rows s' = B.rows s) (hhanded : B.handed s' = B.handed s)
    (hentity : B.entity s' = B.entity s) (hothers : (B.frame s').others = (B.frame s).others) :
    B.Reached rules s₀ s' asked pages answered underWay where
  applied := ⟨h.applied.submitted_eq, hrows.trans h.applied.rows_eq⟩
  asked_eq := h.asked_eq
  handed_eq := hhanded.trans h.handed_eq
  entity_eq := hentity.trans h.entity_eq
  others_eq := hothers.trans h.others_eq
  allowed := h.allowed
  needed := h.needed

theorem Reached.congr_frame (h : B.Reached rules s₀ s asked pages answered underWay)
    (hrows : B.rows s' = B.rows s) (hhanded : B.handed s' = B.handed s)
    (hframe : B.frame s' = B.frame s) : B.Reached rules s₀ s' asked pages answered underWay :=
  h.congr hrows hhanded (congrArg PassFrame.entity hframe) (congrArg PassFrame.others hframe)

theorem reached_begun (B : Backing x ρ) (rules : SyncRules) (s : σ) :
    B.Reached rules s s [] 0 [] [] ∧ B.Stands rules s 0 [] [] .start := by
  refine ⟨⟨⟨?_, rfl⟩, rfl, rfl, rfl, rfl, fun _ _ => Nat.zero_le _, fun j hj => ?_⟩, ?_⟩
  · rw [rules.reach_zero]
    rfl
  · exact absurd hj (Nat.not_lt_zero j)
  · refine ⟨rfl, ?_, ?_⟩
    · rw [rules.reach_zero]
      rfl
    · rw [rules.reach_zero]
      rfl

/-! ## One step -/

/-- A pass that started in `s₀` and has made these submissions stands where a number of pages is
written back. -/
def ReachedBy (B : Backing x ρ) (rules : SyncRules) (s₀ : σ)
    (asked : List (ε × Option (Answer ε))) (pass : RetryPass ε) (s : σ) : Prop :=
  ∃ pages answered underWay, B.Reached rules s₀ s asked pages answered underWay ∧
    B.Stands rules s₀ pages answered underWay pass

theorem reached_step_selecting {after : Option String} {report : RetryReport}
    (h : B.Reached rules s₀ s asked pages answered underWay)
    (hstands : B.Stands rules s₀ pages answered underWay (.selecting after report)) :
    B.ReachedBy rules s₀ asked (step x rules (.selecting after report) s).1
      (step x rules (.selecting after report) s).2 := by
  obtain ⟨rfl, rfl, rfl⟩ := hstands
  simp only [step]
  split
  · -- the budget is used up
    next hex =>
    obtain ⟨most, hmost, hle⟩ := isExhausted_tally.1 hex
    obtain rfl : pages = most := Nat.le_antisymm (h.allowed most hmost) hle
    have hcount : pages ≤ rules.pageCount (B.waiting s₀).length := by
      cases pages with
      | zero => exact Nat.zero_le _
      | succ j => exact rules.reach_lt_iff.1 (h.needed j (Nat.lt_succ_self j))
    have hbudget : pages = rules.pageBudget (B.waiting s₀).length := by
      rw [SyncRules.pageBudget, hmost]
      exact (Nat.min_eq_left hcount).symm
    exact ⟨pages, answered, [], h, rfl, rfl, hbudget⟩
  · next hex =>
    have hallowed : ∀ most ∈ rules.maxPages, pages + 1 ≤ most := by
      intro most hmost
      by_contra hlt
      exact hex (isExhausted_tally.2 ⟨most, hmost, by omega⟩)
    split
    · next page s' hselect =>
      obtain ⟨hpage, hrows, _, hhanded, hframe⟩ := B.select_ok hselect
      have h' := h.congr_frame hrows hhanded hframe
      have hpage : B.IsPage rules s₀ pages page := by
        rw [h.applied.withStatus_cursor] at hpage
        exact hpage.trans (congrArg (List.map · _) h.entity_eq)
      obtain ⟨hall, hof⟩ | ⟨progress, hon, hof⟩ :=
        ofPage_cases (resolveAll rules answered) hallowed hpage
      · -- no row is left
        have hcount := rules.pages_eq_pageCount hall h.needed
        rw [hof]
        exact ⟨pages, answered, [], h', rfl, rfl,
          (SyncRules.pageBudget_of_all h.allowed hcount).symm⟩
      · rw [hof]
        exact ⟨pages, answered, [], h', rfl, hpage, hon⟩
    · next e s' hselect =>
      obtain ⟨hrows, _, hhanded, hframe⟩ := B.select_error hselect
      exact ⟨pages, answered, [], h.congr_frame hrows hhanded hframe, .inl rfl⟩

theorem reached_step_submitting {page : List ε} {progress : Progress}
    (h : B.Reached rules s₀ s asked pages answered underWay)
    (hstands : B.Stands rules s₀ pages answered underWay (.submitting page progress)) :
    B.ReachedBy rules s₀ (asked ++ (submitAll x.submit page s).1)
      (step x rules (.submitting page progress) s).1
      (step x rules (.submitting page progress) s).2 := by
  obtain ⟨rfl, hpage, hon⟩ := hstands
  obtain ⟨_, hrows, _, hhanded, hframe⟩ := B.submitAll_spec page s
  have hfst : (submitAll x.submit page s).1.map Prod.fst = page := map_fst_submitAll _ _ _
  refine ⟨pages, answered, (submitAll x.submit page s).1, ?_, rfl, ?_, hon⟩
  · constructor
    case applied => exact ⟨h.applied.submitted_eq, hrows.trans h.applied.rows_eq⟩
    case asked_eq => rw [h.asked_eq, List.append_nil]
    case handed_eq =>
      calc B.handed (submitAll x.submit page s).2
          = page.reverse ++ ((asked.map Prod.fst).reverse ++ B.handed s₀) := by
            rw [hhanded, h.handed_eq]
        _ = ((asked ++ (submitAll x.submit page s).1).map Prod.fst).reverse ++ B.handed s₀ := by
            rw [List.map_append, hfst, List.reverse_append, List.append_assoc]
    case entity_eq => exact (congrArg PassFrame.entity hframe).trans h.entity_eq
    case others_eq => exact (congrArg PassFrame.others hframe).trans h.others_eq
    case allowed => exact h.allowed
    case needed => exact h.needed
  · rw [hfst]
    exact hpage

theorem reached_step_awaiting {page : List (ε × Option (Answer ε))} {progress : Progress}
    (h : B.Reached rules s₀ s asked pages answered underWay)
    (hstands : B.Stands rules s₀ pages answered underWay (.awaiting page progress)) :
    B.ReachedBy rules s₀ asked (step x rules (.awaiting page progress) s).1
      (step x rules (.awaiting page progress) s).2 := by
  obtain ⟨rfl, hpage, hon⟩ := hstands
  simp only [step]
  split
  · exact ⟨pages, answered, underWay, h, rfl, hpage, hon⟩
  · next more hmore =>
    have hunderWay := eq_map_of_answers? hmore
    split
    · -- the page could not be written back, but it was submitted
      next e s' hwrite =>
      obtain ⟨hrows, _, hhanded, hframe⟩ := B.write_error hwrite
      exact ⟨pages, answered, underWay, h.congr_frame hrows hhanded hframe, .inr hpage⟩
    · next s' hwrite =>
      obtain ⟨hrows, _, hhanded, hframe⟩ := B.write_ok hwrite
      have hmorePage : B.IsPage rules s₀ pages (more.map Prod.fst) := by
        rwa [hunderWay, List.map_map] at hpage
      have houtcomes : resolveAll rules (answered ++ more)
          = resolveAll rules answered ++ resolveAll rules more := List.map_append
      have hneeded : ∀ j < pages + 1,
          rules.reach j (B.waiting s₀).length < (B.waiting s₀).length := by
        intro j hj
        have hmono := rules.reach_mono (Nat.le_of_lt_succ hj) (B.waiting s₀).length
        have hlt := hon.more
        omega
      have h' : B.Reached rules s₀ s' asked (pages + 1) (answered ++ more) [] := by
        constructor
        case applied => exact h.applied.page hmorePage (by rw [hrows, List.map_map]; rfl)
        case asked_eq => rw [h.asked_eq, hunderWay, List.map_append, List.append_nil]
        case handed_eq => exact hhanded.trans h.handed_eq
        case entity_eq => exact (congrArg PassFrame.entity hframe).trans h.entity_eq
        case others_eq => exact (congrArg PassFrame.others hframe).trans h.others_eq
        case allowed => exact hon.allowed
        case needed => exact hneeded
      have hreport : progress.report.withOutcomes (resolveAll rules more)
          = .tally (pages + 1) (rules.reach (pages + 1) (B.waiting s₀).length)
              (resolveAll rules (answered ++ more)) := by
        rw [hon.report_eq, RetryReport.withOutcomes_tally, houtcomes]
      split
      · -- the page was short: nothing waits after it
        next hlast =>
        have hcount := rules.pages_eq_pageCount (hon.isLast_imp hlast) hneeded
        exact ⟨pages + 1, answered ++ more, [], h', rfl, hreport,
          (SyncRules.pageBudget_of_all hon.allowed hcount).symm⟩
      · exact ⟨pages + 1, answered ++ more, [], h', rfl, hon.after_eq, hreport⟩

/-- **A step keeps the invariant**, with the submissions that it makes. -/
theorem reached_step {pass : RetryPass ε} (h : B.ReachedBy rules s₀ asked pass s) :
    B.ReachedBy rules s₀ (asked ++ pass.asked x s) (step x rules pass s).1
      (step x rules pass s).2 := by
  have h' := h
  obtain ⟨pages, answered, underWay, hreached, hstands⟩ := h
  cases pass with
  | selecting after report =>
      show B.ReachedBy rules s₀ (asked ++ []) _ _
      rw [List.append_nil]
      exact reached_step_selecting hreached hstands
  | submitting page progress => exact reached_step_submitting hreached hstands
  | awaiting page progress =>
      show B.ReachedBy rules s₀ (asked ++ []) _ _
      rw [List.append_nil]
      exact reached_step_awaiting hreached hstands
  | finished result =>
      show B.ReachedBy rules s₀ (asked ++ []) _ _
      rw [List.append_nil]
      exact h'

/-! ## Whole runs -/

variable {others : τ → σ → σ} {r : RetryCourse σ ε}

theorem reached_next (hothers : B.Undisturbed others) {event : RetryEvent τ}
    (hevent : event.isStart = false) (h : B.ReachedBy r.rules s₀ asked r.pass r.state) :
    B.ReachedBy r.rules s₀ (asked ++ r.askedBy x event) (r.next x others event).pass
      (r.next x others event).state := by
  cases event with
  | start rules => exact absurd hevent (by simp [RetryEvent.isStart])
  | step => exact reached_step h
  | others what =>
      obtain ⟨pages, answered, underWay, hreached, hstands⟩ := h
      show B.ReachedBy r.rules s₀ (asked ++ []) _ _
      rw [List.append_nil]
      exact ⟨pages, answered, underWay, hreached.congr (hothers.rows_eq what r.state)
        (hothers.handed_eq what r.state) (hothers.entity_eq what r.state)
        (hothers.others_eq what r.state), hstands⟩

theorem reached_run (hothers : B.Undisturbed others) {events : List (RetryEvent τ)}
    (hevents : ∀ event ∈ events, event.isStart = false)
    (h : B.ReachedBy r.rules s₀ asked r.pass r.state) :
    B.ReachedBy r.rules s₀ (asked ++ r.asked x others events) (r.run x others events).pass
      (r.run x others events).state := by
  induction events generalizing r asked with
  | nil =>
      rw [RetryCourse.asked, List.append_nil]
      exact h
  | cons event events ih =>
      have hevent := hevents event (List.mem_cons_self ..)
      have hrules : (r.next x others event).rules = r.rules := RetryCourse.rules_next hevent
      have hnext := reached_next hothers hevent h
      rw [← hrules] at hnext
      have hrest := ih (fun e he => hevents e (List.mem_cons_of_mem _ he)) hnext
      rw [RetryCourse.asked, ← List.append_assoc, RetryCourse.run_cons, ← hrules]
      exact hrest

end Backing

/-! ## Clean prefixes -/

open RetryPass

/-- What holds at any moment of a pass that started in `s₀`: `pages` pages are written back,
`answered` are their submissions with the answers, `underWay` those of one page more, or none, and
`asked` are all submissions. -/
structure CleanPrefix {σ ε ρ : Type} [Syncable ε] {x : Exchange σ ε} (B : Backing x ρ)
    (rules : SyncRules) (s₀ : σ) (r : RetryCourse σ ε) (asked : List (ε × Option (Answer ε)))
    (pages : Nat) (answered : List (ε × Answer ε)) (underWay : List (ε × Option (Answer ε))) :
    Prop where
  /-- The first pages of the rows that waited, in the order of their keys, are dealt with: their
  entities were answered, -/
  answered_eq : (answered.map fun p => some p.1)
    = ((B.waiting s₀).take (rules.reach pages (B.waiting s₀).length)).map (B.entity s₀)
  /-- and each of these rows is what resolving the answer makes of its entity. -/
  stored : ∀ p ∈ answered, (B.rows r.state).get? (key p.1)
    = some (B.toRow (Outcome.resolve rules.classifier rules.now p.1 p.2).entity)
  /-- All other rows are as they were, -/
  unchanged : ∀ k,
    k ∉ ((B.waiting s₀).take (rules.reach pages (B.waiting s₀).length)).map key →
      (B.rows r.state).get? k = (B.rows s₀).get? k
  /-- and so are all other tables. -/
  others_eq : (B.frame r.state).others = (B.frame s₀).others
  /-- Submitted were the entities of these pages, with the answers that were applied, -/
  asked_eq : asked = (answered.map fun p => (p.1, some p.2)) ++ underWay
  /-- and after that those of the next page at most. -/
  underWay_eq : underWay = [] ∨ B.IsPage rules s₀ pages (underWay.map Prod.fst)
  /-- These and no others were handed over, in this order, -/
  handed_eq : B.handed r.state = (asked.map Prod.fst).reverse ++ B.handed s₀
  /-- each of them once. -/
  nodup_keys : (asked.map fun p => key p.1).Nodup
  /-- No more submissions than a page holds are not written back yet, unless there are more rows
  than a query can be told. -/
  underWay_le : underWay.length ≤ rules.limit ∨ 0x8000_0000_0000_0000 ≤ (B.waiting s₀).length
  /-- The pages stay within the budget. -/
  pages_le : pages ≤ rules.pageBudget (B.waiting s₀).length
  /-- A pass that has ended without a failure has used its budget, or dealt with all pages. -/
  ended : ∀ report, r.pass = .finished (.ok report) → underWay = [] ∧
    pages = rules.pageBudget (B.waiting s₀).length ∧
    report = .tally pages (rules.reach pages (B.waiting s₀).length) (resolveAll rules answered)

namespace Backing

variable {σ ε ρ τ : Type} [Syncable ε] {x : Exchange σ ε} {B : Backing x ρ} {rules : SyncRules}
  {s₀ : σ} {others : τ → σ → σ} {r : RetryCourse σ ε} {asked : List (ε × Option (Answer ε))}

/-- Pages that are dealt with and one page more hold no key twice. -/
theorem Reached.nodup_keys {s : σ} {pages : Nat} {answered : List (ε × Answer ε)}
    {underWay : List (ε × Option (Answer ε))}
    (h : B.Reached rules s₀ s asked pages answered underWay)
    (hunderWay : underWay = [] ∨ B.IsPage rules s₀ pages (underWay.map Prod.fst)) :
    (asked.map fun p => key p.1).Nodup := by
  have hanswered := h.applied.keys_eq
  have hsplit : (asked.map fun p => key p.1)
      = (answered.map fun p => key p.1) ++ underWay.map fun p => key p.1 := by
    rw [h.asked_eq, List.map_append, List.map_map]
    rfl
  rcases hunderWay with rfl | hpage
  · rw [hsplit, List.map_nil, List.append_nil]
    exact h.applied.nodup_keys
  · have hkeys := keys_of_map_some hpage
    rw [List.map_map] at hkeys
    have hall : (asked.map fun p => key p.1) = ((B.waiting s₀).take
        (rules.reach (pages + 1) (B.waiting s₀).length)).map key := by
      rw [rules.take_reach_succ, List.map_append, ← hanswered, ← hkeys, hsplit]
      rfl
    rw [hall]
    exact ((ascending_waiting s₀).sublist (List.take_sublist _ _)).nodup_keys

theorem IsPage.length_le {pages : Nat} {page : List ε} (h : B.IsPage rules s₀ pages page) :
    page.length ≤ rules.limit ∨ 0x8000_0000_0000_0000 ≤ (B.waiting s₀).length := by
  have hle := rules.reach_le (pages + 1) (B.waiting s₀).length
  rw [h.length_eq]
  unfold SyncRules.reach SyncRules.isUnpaged at hle ⊢
  by_cases hu : 0x8000_0000_0000_0000 ≤ rules.limit
  · simp only [hu, decide_true, if_true, Nat.add_one_ne_zero, if_false] at hle ⊢
    omega
  · simp only [hu, decide_false, Bool.false_eq_true, if_false, Nat.add_one_mul] at hle ⊢
    omega

theorem cleanPrefix_of_reached {pages : Nat} {answered : List (ε × Answer ε)}
    {underWay : List (ε × Option (Answer ε))}
    (h : B.Reached rules s₀ r.state asked pages answered underWay)
    (hstands : B.Stands rules s₀ pages answered underWay r.pass) :
    CleanPrefix B rules s₀ r asked pages answered underWay := by
  have hunderWay : underWay = [] ∨ B.IsPage rules s₀ pages (underWay.map Prod.fst) := by
    cases hpass : r.pass with
    | selecting after report => rw [hpass] at hstands; exact .inl hstands.1
    | submitting page progress => rw [hpass] at hstands; exact .inl hstands.1
    | awaiting page progress =>
        rw [hpass] at hstands
        obtain ⟨rfl, hpage, _⟩ := hstands
        exact .inr hpage
    | finished result =>
        rw [hpass] at hstands
        cases result with
        | ok report => exact .inl hstands.1
        | error e => exact hstands
  have hcount : pages ≤ rules.pageCount (B.waiting s₀).length := by
    cases pages with
    | zero => exact Nat.zero_le _
    | succ j => exact rules.reach_lt_iff.1 (h.needed j (Nat.lt_succ_self j))
  constructor
  case answered_eq => exact h.applied.submitted_eq
  case stored => exact fun p hp => h.applied.get?_of_mem hp
  case unchanged => exact fun k hk => h.applied.get?_of_not_mem hk
  case others_eq => exact h.others_eq
  case asked_eq => exact h.asked_eq
  case underWay_eq => exact hunderWay
  case handed_eq => exact h.handed_eq
  case nodup_keys => exact h.nodup_keys hunderWay
  case underWay_le =>
    rcases hunderWay with rfl | hpage
    · exact .inl (Nat.zero_le _)
    · have hle := hpage.length_le
      rwa [List.length_map] at hle
  case pages_le => exact SyncRules.le_pageBudget h.allowed hcount
  case ended =>
    intro report hpass
    rw [hpass] at hstands
    exact ⟨hstands.1, hstands.2.2, hstands.2.1⟩

/-! ## Failures -/

/-- A step whose store call fails ends the pass with the failure, and does nothing else. -/
theorem step_of_storeError {pass : RetryPass ε} {s : σ} {e : StoreError} (B : Backing x ρ)
    (h : pass.storeError? x rules s = some e) :
    (step x rules pass s).1 = .finished (.error e) ∧
      B.rows (step x rules pass s).2 = B.rows s ∧
      B.handed (step x rules pass s).2 = B.handed s := by
  cases pass with
  | selecting after report =>
      by_cases hex : isExhausted rules report = true
      · rw [storeError?, if_pos hex] at h
        exact absurd h (by simp)
      · rw [storeError?, if_neg hex] at h
        rw [step, if_neg hex]
        cases hselect : x.select after rules.limit s with
        | mk result s' =>
            rw [hselect] at h
            cases result with
            | ok page => exact absurd h (by simp)
            | error e' =>
                obtain ⟨hrows, _, hhanded, _⟩ := B.select_error hselect
                obtain rfl : e' = e := Option.some.inj h
                exact ⟨rfl, hrows, hhanded⟩
  | submitting page progress => exact absurd h (by simp [storeError?])
  | awaiting page progress =>
      cases hanswered : answers? page with
      | none =>
          simp only [storeError?, hanswered] at h
          exact absurd h (by simp)
      | some answered =>
          simp only [storeError?, hanswered] at h
          simp only [step, hanswered]
          cases hwrite : x.write ((resolveAll rules answered).map Outcome.entity) s with
          | mk result s' =>
              rw [hwrite] at h
              cases result with
              | ok u => exact absurd h (by simp)
              | error e' =>
                  obtain ⟨hrows, _, hhanded, _⟩ := B.write_error hwrite
                  obtain rfl : e' = e := Option.some.inj h
                  exact ⟨rfl, hrows, hhanded⟩
  | finished result => exact absurd h (by simp [storeError?])

/-- A pass that has ended stays as it is, and does nothing more. -/
theorem run_of_finished {result : Except StoreError RetryReport} (hothers : B.LeftAlone others)
    (hpass : r.pass = .finished result) {events : List (RetryEvent τ)}
    (hevents : ∀ event ∈ events, event.isStart = false) :
    (r.run x others events).pass = .finished result ∧
      B.rows (r.run x others events).state = B.rows r.state ∧
      B.handed (r.run x others events).state = B.handed r.state := by
  induction events generalizing r with
  | nil => exact ⟨hpass, rfl, rfl⟩
  | cons event events ih =>
      have hlater : ∀ e ∈ events, e.isStart = false := fun e he =>
        hevents e (List.mem_cons_of_mem _ he)
      cases event with
      | start rules =>
          exact absurd (hevents _ (List.mem_cons_self ..)) (by simp [RetryEvent.isStart])
      | step =>
          have hnext : r.next x others .step = r := by
            unfold RetryCourse.next
            rw [hpass]
            cases r
            simp only [step] at hpass ⊢
            rw [hpass]
          rw [RetryCourse.run_cons, hnext]
          exact ih hpass hlater
      | others what =>
          have hlast : (r.next x others (.others what)).pass = .finished result := hpass
          obtain ⟨hfinal, hrows, hhanded⟩ := ih hlast hlater
          exact ⟨hfinal, hrows.trans (hothers.rows_eq what r.state),
            hhanded.trans (hothers.handed_eq what r.state)⟩

/-! ## Passes that are interrupted -/

/-- What holds of a pass from `s₀` that may be interrupted at any moment. -/
structure PassInterrupted (B : Backing x ρ) (others : τ → σ → σ) (rules : SyncRules) (s₀ : σ) :
    Prop where
  /-- Whenever it is given up, a clean prefix is left. -/
  clean : ∀ events : List (RetryEvent τ), (∀ event ∈ events, event.isStart = false) →
    ∃ pages answered underWay,
      CleanPrefix B rules s₀ ((RetryCourse.begun rules s₀).run x others events)
        ((RetryCourse.begun rules s₀).asked x others events) pages answered underWay
  /-- A failure of the store ends it with this failure. Nothing is written or submitted after
  that. -/
  failed : ∀ events more : List (RetryEvent τ), (∀ event ∈ events, event.isStart = false) →
    (∀ event ∈ more, event.isStart = false) → ∀ e,
    let r := (RetryCourse.begun rules s₀).run x others events
    r.pass.storeError? x rules r.state = some e →
    let r' := r.run x others (.step :: more)
    r'.pass = .finished (.error e) ∧ B.rows r'.state = B.rows r.state ∧
      B.handed r'.state = B.handed r.state
  /-- If store and remote service answer, it ends where its budget says, or after the last page. -/
  budgeted : (∀ e remote, (B.send e remote).1.isSome) → StoreServes x rules s₀ →
    ∃ report, ((RetryCourse.begun rules s₀).run x others
        (List.replicate (steps (B.rows s₀).size) .step)).pass = .finished (.ok report) ∧
      report.pages = rules.pageBudget (B.waiting s₀).length

/-- **Whenever a pass is interrupted, it leaves a clean prefix.** -/
theorem passInterrupted (hothers : B.Undisturbed others) (rules : SyncRules) (s₀ : σ) :
    B.PassInterrupted others rules s₀ := by
  have hclean : ∀ events : List (RetryEvent τ), (∀ event ∈ events, event.isStart = false) →
      ∃ pages answered underWay,
        CleanPrefix B rules s₀ ((RetryCourse.begun rules s₀).run x others events)
          ((RetryCourse.begun rules s₀).asked x others events) pages answered underWay := by
    intro events hevents
    have hbegun : B.ReachedBy rules s₀ [] .start s₀ := ⟨0, [], [], reached_begun B rules s₀⟩
    obtain ⟨pages, answered, underWay, hreached, hstands⟩ :=
      reached_run (r := RetryCourse.begun rules s₀) hothers hevents hbegun
    exact ⟨pages, answered, underWay, cleanPrefix_of_reached hreached hstands⟩
  constructor
  case clean => exact hclean
  case failed =>
    intro events more hevents hmore e r he r'
    have hrules : r.rules = rules := RetryCourse.rules_run hevents
    rw [← hrules] at he
    obtain ⟨hpass, hrows, hhanded⟩ := step_of_storeError B he
    obtain ⟨hfinal, hrows', hhanded'⟩ :=
      run_of_finished (r := r.next x others .step) hothers.toLeftAlone hpass hmore
    exact ⟨hfinal, hrows'.trans hrows, hhanded'.trans hhanded⟩
  case budgeted =>
    intro hanswers hserves
    have hevents : ∀ event ∈ List.replicate (steps (B.rows s₀).size) (.step : RetryEvent τ),
        event.isStart = false := by
      intro event he
      rw [List.eq_of_mem_replicate he]
      rfl
    obtain ⟨pages, answered, underWay, hprefix⟩ := hclean _ hevents
    obtain ⟨result, hresult⟩ := run_finished B rules s₀ hanswers
    have hpass : ((RetryCourse.begun rules s₀).run x others
        (List.replicate (steps (B.rows s₀).size) .step)).pass = .finished result := by
      rw [RetryCourse.run_replicate_step]
      exact hresult
    cases result with
    | error e => exact absurd hresult (run_ne_error hserves _ e)
    | ok report =>
        obtain ⟨_, hpages, hreport⟩ := hprefix.ended report hpass
        refine ⟨report, hpass, ?_⟩
        rw [hreport, ← hpages]
        rfl

end Backing

/-! ## The repositories of a client -/

namespace Client

variable {ρ : Type}

theorem messages_undisturbed (remote : Remote ρ) :
    (messageBacking remote).Undisturbed
      (Client.under : Circumstance ρ → Client ρ → Client ρ) where
  toLeftAlone := messages_leftAlone remote
  entity_eq change c := by cases change <;> rfl
  others_eq change c := by cases change <;> rfl

theorem channels_undisturbed (remote : Remote ρ) :
    (channelBacking remote).Undisturbed
      (Client.under : Circumstance ρ → Client ρ → Client ρ) where
  toLeftAlone := channels_leftAlone remote
  entity_eq change c := by cases change <;> rfl
  others_eq change c := by cases change <;> rfl

/-- **An interrupted pass over the messages, or over the channels, leaves a clean prefix**, whatever
the client holds, wherever the pass stops and however medium and remote service behave. -/
theorem interrupted_pass (remote : Remote ρ) (rules : SyncRules) (c : Client ρ) :
    (messageBacking remote).PassInterrupted under rules c ∧
      (channelBacking remote).PassInterrupted under rules c :=
  ⟨Backing.passInterrupted (messages_undisturbed remote) rules c,
    Backing.passInterrupted (channels_undisturbed remote) rules c⟩

/-- The medium has no room for the second of the two channels when its page is to be written. -/
def secondWriteFails : RetryCourse (Client Unit) Channel :=
  (RetryCourse.begun ⟨1, none, .standard, .epoch⟩ waitingTwice).run
    (channelExchange (.stateless .ok .ok)) under
    [.step, .step, .step, .step, .others (.medium fun call =>
      if call = .putChannels ["team:b"] then some (.medium "full") else none), .step]

/-- The pass ends with this failure; the first channel is written back, the second one still waits,
though both were handed over. -/
theorem interrupted_pass_secondWriteFails :
    let r := secondWriteFails.run (channelExchange (.stateless .ok .ok)) under [.step, .step]
    r.pass = .finished (.error (.medium "full")) ∧
      (channelBacking (.stateless .ok .ok)).handed r.state
        = (channelBacking (.stateless .ok .ok)).handed secondWriteFails.state ∧
      ((channelBacking (.stateless .ok .ok)).handed r.state).map Channel.cid
        = ["team:b", "team:a"] ∧
      ((channelBacking (.stateless .ok .ok)).waiting r.state).map key = ["team:b"] := by
  have hpass := (interrupted_pass (.stateless .ok .ok) ⟨1, none, .standard, .epoch⟩ waitingTwice).2
  obtain ⟨hfailed, _, hhanded⟩ := hpass.failed [.step, .step, .step, .step, .others (.medium
    fun call => if call = .putChannels ["team:b"] then some (.medium "full") else none), .step]
    [.step] (by simp [RetryEvent.isStart]) (by simp [RetryEvent.isStart]) (.medium "full") rfl
  exact ⟨hfailed, hhanded, rfl, rfl⟩

end Client

end OfflineChat
