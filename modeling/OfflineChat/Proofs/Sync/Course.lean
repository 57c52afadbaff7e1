import OfflineChat.Proofs.Sync.Progress
import OfflineChat.Sync.Course

/-! # Steps of passes that others interfere with

While others write to the same table a pass cannot be followed through all its pages, but each of
its steps can: it ends the pass, or selects, submits or writes one page. Main definitions:
`Backing.Turn`, the kinds of steps; `Backing.Orderly`, what holds of the page under way whatever
others do; and `RetryCourse.asked` and `RetryCourse.askedInPass`, the submissions with their
answers. Main statements: every step is of one of these kinds (`Backing.turn_step`), the page is in
order after any number of events (`Backing.orderly_run`), and its answers are those of the service
(`RetryCourse.noted_run`). -/

set_option autoImplicit false

namespace OfflineChat

/-! ## The page under way -/

namespace RetryPass

variable {ε : Type}

/-- The entities that are selected and not yet written back. -/
def page : RetryPass ε → List ε
  | submitting page _ => page
  | awaiting page _ => page.map Prod.fst
  | _ => []

/-- The entities that are selected and not yet submitted. -/
def unsubmitted : RetryPass ε → List ε
  | submitting page _ => page
  | _ => []

/-- The entities that wait for their answers. -/
def unanswered : RetryPass ε → List ε
  | awaiting page _ => page.map Prod.fst
  | _ => []

/-- The submissions of the page under way, with their answers as far as there are any. -/
def noted : RetryPass ε → List (ε × Option (Answer ε))
  | awaiting page _ => page
  | _ => []

/-- The submissions that the next step makes, with their answers as far as there are any. -/
def asked {σ : Type} (x : Exchange σ ε) : RetryPass ε → σ → List (ε × Option (Answer ε))
  | submitting page _, s => (submitAll x.submit page s).1
  | _, _ => []

/-- The pass can still select the key. -/
def isAhead : RetryPass ε → String → Prop
  | selecting after _, k => ∀ a ∈ after, a < k
  | submitting _ progress, k => ∀ a ∈ progress.after, a < k
  | awaiting _ progress, k => ∀ a ∈ progress.after, a < k
  | finished _, _ => False

/-- The entities that the next step writes back. -/
def written {σ : Type} [Syncable ε] (x : Exchange σ ε) (rules : SyncRules) :
    RetryPass ε → σ → List ε
  | awaiting page _, s =>
      match answers? page with
      | none => []
      | some answered =>
          let entities := (resolveAll rules answered).map Outcome.entity
          match (x.write entities s).1 with
          | .ok () => entities
          | .error _ => []
  | _, _ => []

@[simp] theorem page_selecting (after : Option String) (report : RetryReport) :
    (selecting after report : RetryPass ε).page = [] := rfl

@[simp] theorem page_submitting (page : List ε) (progress : Progress) :
    (submitting page progress).page = page := rfl

@[simp] theorem page_awaiting (page : List (ε × Option (Answer ε))) (progress : Progress) :
    (awaiting page progress).page = page.map Prod.fst := rfl

@[simp] theorem page_finished (result : Except StoreError RetryReport) :
    (finished result : RetryPass ε).page = [] := rfl

@[simp] theorem page_start : (start : RetryPass ε).page = [] := rfl

/-- The keys of a page whose answers have all come. -/
theorem keys_page_of_answered [Keyed ε] {page : List (ε × Option (Answer ε))}
    {answered : List (ε × Answer ε)} (h : page = answered.map fun p => (p.1, some p.2))
    (progress : Progress) :
    (awaiting page progress : RetryPass ε).page.map key = answered.map fun p => key p.1 := by
  rw [page_awaiting, h, List.map_map, List.map_map]
  rfl

end RetryPass

namespace Backing

open RetryPass

variable {σ ε ρ : Type} [Syncable ε] {x : Exchange σ ε}

/-! ## Kinds of steps -/

/-- What a step of a pass can be, and what it does to the rows and to the list of entities that were
handed over. The list in the middle holds the entities that it writes back. -/
inductive Turn (B : Backing x ρ) (rules : SyncRules) :
    RetryPass ε → σ → List ε → RetryPass ε → σ → Prop where
  /-- The pass ends, or has ended; a page that could not be written is lost. -/
  | ended {pass : RetryPass ε} {s s' : σ} {result : Except StoreError RetryReport}
      (rows_eq : B.rows s' = B.rows s) (handed_eq : B.handed s' = B.handed s) :
      Turn B rules pass s [] (finished result) s'
  /-- A page was selected: its rows wait, and its keys lie above those of the pages before it. -/
  | selected {after : Option String} {report : RetryReport} {s s' : σ} {page : List ε}
      {progress : Progress} (nodup : (page.map key).Nodup)
      (waits : ∀ k ∈ page.map key, k ∈ (B.waiting s).map key ∧ ∀ a ∈ after, a < k)
      (reached : ∃ last ∈ page.map key, progress.after = some last ∧
        ∀ k ∈ page.map key, ¬last < k)
      (rows_eq : B.rows s' = B.rows s) (handed_eq : B.handed s' = B.handed s) :
      Turn B rules (selecting after report) s [] (submitting page progress) s'
  /-- A page was submitted. -/
  | submitted {entities : List ε} {progress : Progress} {s s' : σ}
      {page : List (ε × Option (Answer ε))} (page_eq : page.map Prod.fst = entities)
      (rows_eq : B.rows s' = B.rows s) (handed_eq : B.handed s' = entities.reverse ++ B.handed s) :
      Turn B rules (submitting entities progress) s [] (awaiting page progress) s'
  /-- An answer is missing. -/
  | waited {page : List (ε × Option (Answer ε))} {progress : Progress} {s : σ} :
      Turn B rules (awaiting page progress) s [] (awaiting page progress) s
  /-- A page was written back, and the pass ends or goes on above it. -/
  | wrote {page : List (ε × Option (Answer ε))} {progress : Progress} {s s' : σ}
      {pass : RetryPass ε} {answered : List (ε × Answer ε)}
      (page_eq : page = answered.map fun p => (p.1, some p.2))
      (pass_eq : (∃ report, pass = selecting progress.after report) ∨
        ∃ report, pass = finished (.ok report))
      (rows_eq : B.rows s' = (B.rows s).putAll (B.outcomeRows (resolveAll rules answered)))
      (handed_eq : B.handed s' = B.handed s) :
      Turn B rules (awaiting page progress) s ((resolveAll rules answered).map Outcome.entity)
        pass s'

variable {B : Backing x ρ} {rules : SyncRules} {s s' : σ} {pass pass' : RetryPass ε} {es : List ε}

/-- A selected page has the keys of waiting rows, in order. -/
theorem keys_of_select {after : Option String} {limit : Nat} {page : List ε}
    (h : x.select after limit s = (.ok page, s')) :
    Ascending page ∧
      ∀ k ∈ page.map key, k ∈ (B.waiting s).map key ∧ ∀ a ∈ after, a < k := by
  have hpage := keys_of_map_some (B := B) (B.select_ok h).1
  have hsub := atMost_sublist limit ((B.rows s).withStatus B.statusCell .syncNeeded after)
  have hrows := Table.ascending_withStatus (B.rows s) B.statusCell .syncNeeded after
  refine ⟨ascending_of_keys hpage (hrows.sublist hsub), fun k hk => ?_⟩
  rw [hpage] at hk
  obtain ⟨row, hrow, rfl⟩ := List.mem_map.1 hk
  obtain ⟨hget, hcell, hafter⟩ := Table.mem_withStatus_iff.1 (hsub.subset hrow)
  have hwaits : row ∈ B.waiting s := Table.mem_withStatus_iff.2 ⟨hget, hcell, by simp⟩
  exact ⟨List.mem_map_of_mem hwaits, hafter⟩

theorem turn_selecting (B : Backing x ρ) (rules : SyncRules) (after : Option String)
    (report : RetryReport) (s : σ) :
    B.Turn rules (selecting after report) s (written x rules (selecting after report) s)
      (step x rules (selecting after report) s).1
      (step x rules (selecting after report) s).2 := by
  simp only [step, written]
  split
  · exact .ended rfl rfl
  · split
    · next page s' hselect =>
      obtain ⟨_, hrows, _, hhanded, _⟩ := B.select_ok hselect
      obtain ⟨hasc, hkeys⟩ := keys_of_select (B := B) hselect
      unfold ofPage
      split
      · exact .ended hrows hhanded
      · next hne =>
        have hne : page ≠ [] := by simpa using hne
        have hdistinct : firstOfKeys page = page := firstOfKeys_of_nodup hasc.nodup_keys
        rw [hdistinct]
        obtain ⟨last, hlast⟩ : ∃ last, page.getLast? = some last :=
          ⟨_, List.getLast?_eq_some_getLast hne⟩
        have hafter : page.getLast?.map key = some (key last) := by rw [hlast]; rfl
        refine .selected hasc.nodup_keys hkeys ⟨key last, ?_, ?_, ?_⟩ hrows hhanded
        · exact List.mem_map_of_mem (List.mem_of_getLast? hlast)
        · exact (greatestKey?_of_ascending hasc).trans hafter
        · intro k hk
          obtain ⟨e, he, rfl⟩ := List.mem_map.1 hk
          exact hasc.not_lt_getLast hafter he
    · next e s' hselect =>
      obtain ⟨hrows, _, hhanded, _⟩ := B.select_error hselect
      exact .ended hrows hhanded

theorem turn_awaiting (B : Backing x ρ) (rules : SyncRules) (page : List (ε × Option (Answer ε)))
    (progress : Progress) (s : σ) :
    B.Turn rules (awaiting page progress) s (written x rules (awaiting page progress) s)
      (step x rules (awaiting page progress) s).1
      (step x rules (awaiting page progress) s).2 := by
  simp only [step, written]
  cases hanswered : answers? page with
  | none => exact .waited
  | some answered =>
      have hpage := eq_map_of_answers? hanswered
      dsimp only
      cases hwrite : x.write ((resolveAll rules answered).map Outcome.entity) s with
      | mk result s' =>
          cases result with
          | error e =>
              obtain ⟨hrows, _, hhanded, _⟩ := B.write_error hwrite
              exact .ended hrows hhanded
          | ok u =>
              obtain ⟨hrows, _, hhanded, _⟩ := B.write_ok hwrite
              rw [List.map_map] at hrows
              dsimp only
              -- a short page ends the pass
              split
              · exact .wrote hpage (.inr ⟨_, rfl⟩) hrows hhanded
              · exact .wrote hpage (.inl ⟨_, rfl⟩) hrows hhanded

/-- **Every step of a pass is of one of these kinds.** -/
theorem turn_step (B : Backing x ρ) (rules : SyncRules) (pass : RetryPass ε) (s : σ) :
    B.Turn rules pass s (written x rules pass s) (step x rules pass s).1
      (step x rules pass s).2 := by
  cases pass with
  | selecting after report => exact turn_selecting B rules after report s
  | submitting page progress =>
      obtain ⟨_, hrows, _, hhanded, _⟩ := B.submitAll_spec page s
      exact .submitted (map_fst_submitAll _ _ _) hrows hhanded
  | awaiting page progress => exact turn_awaiting B rules page progress s
  | finished result => exact .ended rfl rfl

/-- The rows change by what is written back. -/
theorem Turn.rows_eq (h : B.Turn rules pass s es pass' s') :
    B.rows s' = (B.rows s).putAll (es.map B.toRow) := by
  cases h with
  | ended rows_eq _ => exact rows_eq
  | selected _ _ _ rows_eq _ => exact rows_eq
  | submitted _ rows_eq _ => exact rows_eq
  | waited => rfl
  | wrote _ _ rows_eq _ => rw [rows_eq, List.map_map]; rfl

/-- Only entities of the page are written back. -/
theorem Turn.mem_page_of_written {k : String} (h : B.Turn rules pass s es pass' s')
    (hk : k ∈ es.map key) : k ∈ pass.page.map key := by
  cases h with
  | @wrote page progress s s' pass' answered page_eq _ _ _ =>
      rw [List.map_map] at hk
      rw [keys_page_of_answered page_eq]
      exact keys_resolveAll rules answered ▸ hk
  | _ => exact absurd hk (by simp)

theorem Turn.get?_of_not_mem {k : String} (h : B.Turn rules pass s es pass' s')
    (hk : k ∉ es.map key) :
    (B.rows s').get? k = (B.rows s).get? k := by
  rw [h.rows_eq]
  refine Table.get?_putAll_of_not_mem _ ?_
  simpa only [List.map_map, Function.comp_def, B.key_toRow] using hk

/-- A key that does not wait, and is not on the page under way, does not get there, and its row
stays as it is. -/
theorem not_mem_page_turn {k : String} (hpage : k ∉ pass.page.map key)
    (hwaits : k ∉ (B.waiting s).map key) (hturn : B.Turn rules pass s es pass' s') :
    k ∉ pass'.page.map key ∧ (B.rows s').get? k = (B.rows s).get? k := by
  refine ⟨?_, hturn.get?_of_not_mem fun hk => hpage (hturn.mem_page_of_written hk)⟩
  cases hturn with
  | ended _ _ => simp
  | selected _ waits _ _ _ => exact fun hk => hwaits (waits k hk).1
  | submitted page_eq _ _ => rwa [page_awaiting, page_eq]
  | waited => exact hpage
  | wrote _ pass_eq _ _ => obtain ⟨report, rfl⟩ | ⟨report, rfl⟩ := pass_eq <;> simp

/-! ## The order of a page -/

/-- What holds of the page under way, whatever others do: its keys are distinct, the pass will not
come to them again, and entities that wait for their answers were handed over. -/
structure Orderly (B : Backing x ρ) (pass : RetryPass ε) (s : σ) : Prop where
  nodup : (pass.page.map key).Nodup
  not_ahead : ∀ k ∈ pass.page.map key, ¬pass.isAhead k
  handed : ∀ e ∈ pass.unanswered, e ∈ B.handed s

/-- Nothing is asked of a pass that has no page under way. -/
theorem orderly_of_page_nil (hpage : pass.page = []) (hunanswered : pass.unanswered = []) :
    B.Orderly pass s where
  nodup := by rw [hpage]; exact List.nodup_nil
  not_ahead k hk := by rw [hpage] at hk; exact absurd hk (by simp)
  handed e he := by rw [hunanswered] at he; exact absurd he (by simp)

theorem Orderly.of_handed (h : B.Orderly pass s) (hhanded : B.handed s' = B.handed s) :
    B.Orderly pass s' :=
  ⟨h.nodup, h.not_ahead, fun e he => hhanded ▸ h.handed e he⟩

theorem Orderly.turn (h : B.Orderly pass s) (hturn : B.Turn rules pass s es pass' s') :
    B.Orderly pass' s' := by
  cases hturn with
  | ended _ _ => exact orderly_of_page_nil rfl rfl
  | selected nodup waits reached rows_eq handed_eq =>
      obtain ⟨last, _, hafter, hlast⟩ := reached
      refine ⟨nodup, fun k hk hahead => ?_, fun e he => absurd he (by simp [unanswered])⟩
      exact hlast k hk (hahead last hafter)
  | @submitted entities progress s s' page page_eq rows_eq handed_eq =>
      have hpage : (awaiting page progress).page = entities := page_eq
      refine ⟨?_, ?_, fun e he => ?_⟩
      · rw [hpage]; exact h.nodup
      · rw [hpage]; exact h.not_ahead
      · have he : e ∈ entities := page_eq ▸ he
        rw [handed_eq]
        exact List.mem_append_left _ (List.mem_reverse.2 he)
  | waited => exact h
  | wrote _ pass_eq _ _ =>
      obtain ⟨report, rfl⟩ | ⟨report, rfl⟩ := pass_eq <;> exact orderly_of_page_nil rfl rfl

/-- **Whatever others do, the page under way stays in order**, if they hand nothing over. -/
theorem orderly_next {τ : Type} {others : τ → σ → σ} {r : RetryCourse σ ε}
    (hothers : ∀ what s, B.handed (others what s) = B.handed s) (event : RetryEvent τ)
    (h : B.Orderly r.pass r.state) :
    B.Orderly (r.next x others event).pass (r.next x others event).state := by
  cases event with
  | start rules => exact orderly_of_page_nil rfl rfl
  | step => exact h.turn (turn_step B r.rules r.pass r.state)
  | others what => exact h.of_handed (hothers what r.state)

end Backing

/-! ## Events one after another -/

namespace RetryCourse

variable {σ ε τ : Type} [Syncable ε] {x : Exchange σ ε} {others : τ → σ → σ}
  {r : RetryCourse σ ε}

@[simp] theorem run_nil : r.run x others [] = r := rfl

@[simp] theorem run_cons (event : RetryEvent τ) (events : List (RetryEvent τ)) :
    r.run x others (event :: events) = (r.next x others event).run x others events := rfl

theorem run_append (events more : List (RetryEvent τ)) :
    r.run x others (events ++ more) = (r.run x others events).run x others more :=
  List.foldl_append

/-- The submissions that an event makes, with their answers as far as there are any. -/
def askedBy (x : Exchange σ ε) (r : RetryCourse σ ε) :
    RetryEvent τ → List (ε × Option (Answer ε))
  | .step => r.pass.asked x r.state
  | _ => []

/-- The submissions that are made while one event follows another. -/
def asked (x : Exchange σ ε) (others : τ → σ → σ) :
    RetryCourse σ ε → List (RetryEvent τ) → List (ε × Option (Answer ε))
  | _, [] => []
  | r, event :: events => r.askedBy x event ++ asked x others (r.next x others event) events

end RetryCourse

end OfflineChat
