import Mathlib.Tactic.Common
import OfflineChat.Proofs.Sync.Backing

/-! # How far a retry pass has come

Between two of its steps a pass has dealt with a whole number of pages: the rows of these pages are
written as resolving them one after another gives, all other rows are as they were, and the entities
handed to the remote service are those of these pages and perhaps of one more. Main definitions:
`SyncRules.reach`, the number of rows on the first pages, and the invariant `Backing.Inv`. Main
statements: a step keeps the invariant (`inv_step`), and so does a run (`inv_run`). -/

set_option autoImplicit false

namespace OfflineChat

/-! ## Pages -/

/-- Whether a page holds everything there is: its size is more than a query can be told. -/
def SyncRules.isUnpaged (rules : SyncRules) : Bool := 0x8000_0000_0000_0000 ≤ rules.limit

/-- The number of rows on the first `pages` pages of `n` rows. -/
def SyncRules.reach (rules : SyncRules) (pages n : Nat) : Nat :=
  if rules.isUnpaged then if pages = 0 then 0 else n else min (pages * rules.limit) n

namespace SyncRules

variable (rules : SyncRules)

theorem limit_pos : 0 < rules.limit := by
  unfold limit
  omega

@[simp] theorem reach_zero (n : Nat) : rules.reach 0 n = 0 := by
  simp [reach]

theorem reach_le (pages n : Nat) : rules.reach pages n ≤ n := by
  unfold reach
  split
  · split <;> omega
  · exact Nat.min_le_right _ _

/-- A page holds the rows from where the pages before it end. -/
theorem length_page {α : Type} (items : List α) (pages : Nat) :
    (atMost rules.limit (items.drop (rules.reach pages items.length))).length
      = rules.reach (pages + 1) items.length - rules.reach pages items.length := by
  unfold atMost reach isUnpaged
  by_cases h : rules.limit < 0x8000_0000_0000_0000
  · have hle : ¬(0x8000_0000_0000_0000 ≤ rules.limit) := by omega
    simp only [h, hle, if_true, decide_false, Bool.false_eq_true, if_false, List.length_take,
      List.length_drop, Nat.add_one_mul]
    omega
  · have hle : 0x8000_0000_0000_0000 ≤ rules.limit := by omega
    simp only [h, hle, if_false, decide_true, if_true, List.length_drop]
    split <;> simp_all

theorem reach_le_succ (pages n : Nat) : rules.reach pages n ≤ rules.reach (pages + 1) n := by
  unfold reach
  split
  · rw [if_neg (Nat.add_one_ne_zero pages)]
    split <;> omega
  · rw [Nat.add_one_mul]
    omega

theorem reach_mono {m k : Nat} (h : m ≤ k) (n : Nat) : rules.reach m n ≤ rules.reach k n := by
  induction h with
  | refl => exact Nat.le_refl _
  | step _ ih => exact Nat.le_trans ih (rules.reach_le_succ _ n)

/-- The rows of a page, seen from the first row. -/
theorem take_reach_succ {α : Type} (items : List α) (pages : Nat) :
    items.take (rules.reach (pages + 1) items.length)
      = items.take (rules.reach pages items.length)
        ++ atMost rules.limit (items.drop (rules.reach pages items.length)) := by
  have hlen := rules.length_page items pages
  have hle := rules.reach_le_succ pages items.length
  have hpre : atMost rules.limit (items.drop (rules.reach pages items.length))
      <+: items.drop (rules.reach pages items.length) := by
    unfold atMost
    split
    · exact List.take_prefix _ _
    · exact List.prefix_rfl
  rw [List.prefix_iff_eq_take.1 hpre, hlen, ← List.take_add]
  congr 1
  omega

/-- A page that is not full is the last one. -/
theorem reach_of_short {pages n : Nat}
    (h : rules.reach (pages + 1) n - rules.reach pages n < rules.limit)
    (hn : rules.reach pages n < n) : rules.reach (pages + 1) n = n := by
  unfold reach at *
  by_cases hu : rules.isUnpaged
  · simp [hu]
  · simp only [hu, Bool.false_eq_true, if_false, Nat.add_one_mul] at *
    omega

/-- As long as rows are left, the next page is not empty. -/
theorem reach_lt_succ {pages n : Nat} (h : rules.reach pages n < n) :
    rules.reach pages n < rules.reach (pages + 1) n := by
  have := rules.limit_pos
  unfold reach at *
  by_cases hu : rules.isUnpaged
  · simp only [hu, if_true, Nat.add_one_ne_zero, if_false] at *
    exact h
  · simp only [hu, Bool.false_eq_true, if_false, Nat.add_one_mul] at *
    omega

/-- The number of pages that `n` rows fill. -/
def pageCount (n : Nat) : Nat :=
  if rules.isUnpaged then min n 1 else (n + rules.limit - 1) / rules.limit

/-- Rows are left after fewer pages than they fill, and only then. -/
theorem reach_lt_iff {pages n : Nat} : rules.reach pages n < n ↔ pages < rules.pageCount n := by
  have hpos := rules.limit_pos
  unfold reach pageCount
  by_cases hu : rules.isUnpaged
  · simp only [hu, if_true]
    split <;> omega
  · simp only [hu, Bool.false_eq_true, if_false]
    rw [Nat.lt_iff_add_one_le (m := pages), Nat.le_div_iff_mul_le hpos, Nat.add_one_mul]
    omega

theorem pageCount_eq {n : Nat} (h : rules.limit < 0x8000_0000_0000_0000 ∨ n ≤ rules.limit) :
    rules.pageCount n = (n + rules.limit - 1) / rules.limit := by
  unfold pageCount
  by_cases hu : rules.isUnpaged
  · have hlarge : 0x8000_0000_0000_0000 ≤ rules.limit := by simpa [isUnpaged] using hu
    have hle : n ≤ rules.limit := by omega
    rw [if_pos hu]
    symm
    rw [Nat.div_eq_iff rules.limit_pos]
    rcases Nat.eq_zero_or_pos n with rfl | hn
    · rw [Nat.zero_min, Nat.zero_mul]
      omega
    · rw [Nat.min_eq_right hn, Nat.one_mul]
      omega
  · rw [if_neg hu]

/-- All rows are dealt with after the last page that was needed. -/
theorem pages_eq_pageCount {pages n : Nat} (hall : rules.reach pages n = n)
    (hneeded : ∀ j < pages, rules.reach j n < n) : pages = rules.pageCount n := by
  have hle : ¬pages < rules.pageCount n := fun h => by
    have := rules.reach_lt_iff.2 h
    omega
  cases pages with
  | zero => omega
  | succ pages =>
      have := rules.reach_lt_iff.1 (hneeded pages (Nat.lt_succ_self _))
      omega

/-- The number of rows that a pass of these rules gets to, out of `n`. -/
def scope (n : Nat) : Nat := rules.maxPages.elim n fun most => rules.reach most n

theorem scope_of_all {pages n : Nat} (hb : ∀ most ∈ rules.maxPages, pages ≤ most)
    (h : rules.reach pages n = n) : rules.scope n = n := by
  unfold scope
  cases hm : rules.maxPages with
  | none => rfl
  | some most =>
      have h1 := rules.reach_mono (hb most hm) n
      have h2 := rules.reach_le most n
      show rules.reach most n = n
      omega

end SyncRules

/-! ## Pages of ascending keys -/

section

variable {ε : Type} [Keyed ε]

/-- The greatest key of a page in order is its last one. -/
theorem greatestKey?_of_ascending {page : List ε} (h : Ascending page) :
    greatestKey? page = page.getLast?.map key := by
  have hfold : ∀ (front : List ε) (rest : List ε), front ≠ [] → Ascending (front ++ rest) →
      rest.foldl (fun (greatest : Option String) e =>
        some (greatest.elim (key e) fun k => if k < key e then key e else k))
        (front.getLast?.map key) = (front ++ rest).getLast?.map key := by
    intro front rest
    induction rest generalizing front with
    | nil => intro _ _; rw [List.append_nil]; rfl
    | cons e rest ih =>
        intro hne hasc
        obtain ⟨l, hl⟩ : ∃ l, front.getLast? = some l := ⟨_, List.getLast?_eq_some_getLast hne⟩
        have hle : key l < key e :=
          (List.pairwise_append.1 hasc).2.2 l (List.mem_of_getLast? hl) e (by simp)
        have hstep := ih (front ++ [e]) (by simp) (by simpa using hasc)
        rw [List.append_assoc, List.singleton_append] at hstep
        have hmax : (if key l < key e then key e else key l) = key e := if_pos hle
        rw [List.foldl_cons, ← hstep, hl, List.getLast?_concat, Option.map_some, Option.elim_some,
          hmax, Option.map_some]
  cases page with
  | nil => rfl
  | cons e page => exact hfold [e] page (by simp) h

theorem ascending_of_keys {α : Type} [Keyed α] {xs : List ε} {ys : List α}
    (h : xs.map key = ys.map key) (hy : Ascending ys) : Ascending xs := by
  have hk : (ys.map key).Pairwise (· < ·) := List.pairwise_map.2 hy
  rw [← h] at hk
  exact List.pairwise_map.1 hk

end

/-! ## The invariant -/

namespace Backing

open RetryPass

variable {σ ε ρ : Type} [Syncable ε] {x : Exchange σ ε}

/-- From `s₀` to `s` the entities of the first `d` waiting rows were handed over. -/
structure Handed (B : Backing x ρ) (s₀ s : σ) (d : Nat) : Prop where
  read : ∀ r ∈ (B.waiting s₀).take d, (B.entity s₀ r).isSome
  remote_eq : B.remote s = (B.submissions s₀ d).2
  handed_eq : B.handed s = (B.entities s₀ d).reverse ++ B.handed s₀
  frame_eq : B.frame s = B.frame s₀

/-- From `s₀` to `s` the outcomes of the first `d` waiting rows were written, and nothing else. -/
structure Written (B : Backing x ρ) (rules : SyncRules) (s₀ s : σ) (d : Nat)
    (outcomes : List (Outcome ε)) : Prop where
  outcomes_eq : B.outcomes? rules s₀ d = some outcomes
  rows_eq : B.rows s = (B.rows s₀).putAll (B.outcomeRows outcomes)

/-- After `pages` pages with these outcomes another one is under way. -/
structure OnPage (B : Backing x ρ) (rules : SyncRules) (s₀ : σ) (pages : Nat)
    (outcomes : List (Outcome ε)) (progress : Progress) : Prop where
  more : rules.reach pages (B.waiting s₀).length < (B.waiting s₀).length
  allowed : ∀ most ∈ rules.maxPages, pages + 1 ≤ most
  after_eq : progress.after = B.cursor s₀ (rules.reach (pages + 1) (B.waiting s₀).length)
  report_eq : progress.report
    = .tally (pages + 1) (rules.reach (pages + 1) (B.waiting s₀).length) outcomes
  isLast_imp : progress.isLast = true →
    rules.reach (pages + 1) (B.waiting s₀).length = (B.waiting s₀).length

/-- What holds of a pass that started in `s₀` and has come to the state `s`. -/
def Inv (B : Backing x ρ) (rules : SyncRules) (s₀ : σ) : RetryPass ε → σ → Prop
  | .selecting after report, s => ∃ pages outcomes,
      let d := rules.reach pages (B.waiting s₀).length
      B.Handed s₀ s d ∧ B.Written rules s₀ s d outcomes ∧ after = B.cursor s₀ d ∧
        report = .tally pages d outcomes ∧ (∀ most ∈ rules.maxPages, pages ≤ most) ∧
        ∀ j < pages, rules.reach j (B.waiting s₀).length < (B.waiting s₀).length
  | .submitting page progress, s => ∃ pages outcomes,
      let d := rules.reach pages (B.waiting s₀).length
      let d' := rules.reach (pages + 1) (B.waiting s₀).length
      B.Handed s₀ s d ∧ B.Written rules s₀ s d outcomes ∧
        (∀ r ∈ (B.waiting s₀).take d', (B.entity s₀ r).isSome) ∧
        B.entities s₀ d' = B.entities s₀ d ++ page ∧ B.OnPage rules s₀ pages outcomes progress
  | .awaiting page progress, s => ∃ pages outcomes,
      let d := rules.reach pages (B.waiting s₀).length
      let d' := rules.reach (pages + 1) (B.waiting s₀).length
      B.Handed s₀ s d' ∧ B.Written rules s₀ s d outcomes ∧
        (B.submissions s₀ d').1 = (B.submissions s₀ d).1 ++ page ∧
        B.OnPage rules s₀ pages outcomes progress
  | .finished (.ok report), s => ∃ pages outcomes,
      let d := rules.scope (B.waiting s₀).length
      B.Handed s₀ s d ∧ B.Written rules s₀ s d outcomes ∧ report = .tally pages d outcomes ∧
        rules.reach pages (B.waiting s₀).length = d ∧
        ∀ j < pages, rules.reach j (B.waiting s₀).length < (B.waiting s₀).length
  | .finished (.error _), s => ∃ pages outcomes,
      let d := rules.reach pages (B.waiting s₀).length
      let d' := rules.reach (pages + 1) (B.waiting s₀).length
      (B.Handed s₀ s d ∨ B.Handed s₀ s d') ∧ B.Written rules s₀ s d outcomes

variable {B : Backing x ρ} {rules : SyncRules} {s₀ s s' : σ}

theorem Handed.congr {d : Nat} (h : B.Handed s₀ s d) (hremote : B.remote s' = B.remote s)
    (hhanded : B.handed s' = B.handed s) (hframe : B.frame s' = B.frame s) :
    B.Handed s₀ s' d where
  read := h.read
  remote_eq := hremote.trans h.remote_eq
  handed_eq := hhanded.trans h.handed_eq
  frame_eq := hframe.trans h.frame_eq

theorem Written.congr {d : Nat} {outcomes : List (Outcome ε)}
    (h : B.Written rules s₀ s d outcomes) (hrows : B.rows s' = B.rows s) :
    B.Written rules s₀ s' d outcomes where
  outcomes_eq := h.outcomes_eq
  rows_eq := hrows.trans h.rows_eq

theorem inv_start (B : Backing x ρ) (rules : SyncRules) (s : σ) :
    B.Inv rules s RetryPass.start s := by
  refine ⟨0, [], ?_, ?_, ?_, ?_, fun _ _ => Nat.zero_le _, fun j hj => absurd hj (by omega)⟩
  · rw [rules.reach_zero]
    exact ⟨by simp, rfl, rfl, rfl⟩
  · rw [rules.reach_zero]
    exact ⟨rfl, rfl⟩
  · rw [rules.reach_zero]
    rfl
  · rw [rules.reach_zero]
    rfl

/-- A pass leaves its frame as it is. -/
theorem frame_eq_of_inv {pass : RetryPass ε} (h : B.Inv rules s₀ pass s) :
    B.frame s = B.frame s₀ := by
  cases pass with
  | selecting after report =>
      obtain ⟨_, _, hh, _⟩ := h
      exact hh.frame_eq
  | submitting page progress =>
      obtain ⟨_, _, hh, _⟩ := h
      exact hh.frame_eq
  | awaiting page progress =>
      obtain ⟨_, _, hh, _⟩ := h
      exact hh.frame_eq
  | finished result =>
      cases result with
      | ok report =>
          obtain ⟨_, _, hh, _⟩ := h
          exact hh.frame_eq
      | error e =>
          obtain ⟨_, _, hh | hh, _⟩ := h
          · exact hh.frame_eq
          · exact hh.frame_eq

/-! ## One step -/

/-- A query above the cursor finds the rows after those that were dealt with. -/
theorem withStatus_cursor {d : Nat} {outcomes : List (Outcome ε)} (hh : B.Handed s₀ s d)
    (hw : B.Written rules s₀ s d outcomes) :
    (B.rows s).withStatus B.statusCell .syncNeeded (B.cursor s₀ d) = (B.waiting s₀).drop d := by
  rw [hw.rows_eq]
  refine Table.withStatus_putAll_take ?_
  rw [keys_of_outcomes hw.outcomes_eq, keys_entities hh.read]
  rfl

omit [Syncable ε] in
theorem isExhausted_tally {pages submitted : Nat} {outcomes : List (Outcome ε)} :
    isExhausted rules (.tally pages submitted outcomes) = true ↔
      ∃ most, rules.maxPages = some most ∧ most ≤ pages := by
  unfold isExhausted RetryReport.tally
  cases rules.maxPages <;> simp

theorem filterMap_of_map_some {α β : Type} {f : α → Option β} {as : List α} {bs : List β}
    (h : bs.map some = as.map f) : as.filterMap f = bs := by
  calc as.filterMap f = (as.map f).filterMap id := by rw [List.filterMap_map]; rfl
    _ = (bs.map some).filterMap id := by rw [h]
    _ = bs := by rw [List.filterMap_map]; exact List.filterMap_some

/-- The last key of a page is where the rows before the next page end. -/
theorem cursor_succ {pages : Nat} {page : List ε} (hne : page ≠ [])
    (hkeys : page.map key = (atMost rules.limit ((B.waiting s₀).drop
      (rules.reach pages (B.waiting s₀).length))).map key) :
    B.cursor s₀ (rules.reach (pages + 1) (B.waiting s₀).length) = page.getLast?.map key := by
  rw [cursor, rules.take_reach_succ, ← List.getLast?_map, ← List.getLast?_map, List.map_append,
    ← hkeys, List.getLast?_append, List.getLast?_map, List.getLast?_eq_some_getLast hne]
  rfl

/-- The entities are those of the page that follows the first `pages` ones. -/
def IsPage (B : Backing x ρ) (rules : SyncRules) (s₀ : σ) (pages : Nat) (page : List ε) : Prop :=
  page.map some = (atMost rules.limit ((B.waiting s₀).drop
    (rules.reach pages (B.waiting s₀).length))).map (B.entity s₀)

theorem IsPage.length_eq {pages : Nat} {page : List ε} (h : B.IsPage rules s₀ pages page) :
    page.length = rules.reach (pages + 1) (B.waiting s₀).length
      - rules.reach pages (B.waiting s₀).length := by
  rw [← rules.length_page (B.waiting s₀) pages, ← @List.length_map _ _ page some, h,
    List.length_map]

theorem IsPage.ascending {pages : Nat} {page : List ε} (h : B.IsPage rules s₀ pages page) :
    Ascending page :=
  ascending_of_keys (keys_of_map_some h) ((ascending_waiting s₀).sublist
    ((atMost_sublist _ _).trans (List.drop_sublist _ _)))

/-- A selected page ends the pass if no rows are left, and goes under way else. -/
theorem ofPage_cases {pages : Nat} {page : List ε} (outcomes : List (Outcome ε))
    (hallowed : ∀ most ∈ rules.maxPages, pages + 1 ≤ most) (hpage : B.IsPage rules s₀ pages page) :
    let report := RetryReport.tally pages (rules.reach pages (B.waiting s₀).length) outcomes
    (rules.reach pages (B.waiting s₀).length = (B.waiting s₀).length ∧
        ofPage rules.limit report page = finished (.ok report)) ∨
      ∃ progress, B.OnPage rules s₀ pages outcomes progress ∧
        ofPage rules.limit report page = submitting page progress := by
  intro report
  have hle := rules.reach_le (pages + 1) (B.waiting s₀).length
  have hle' := rules.reach_le_succ pages (B.waiting s₀).length
  have hlen := hpage.length_eq
  unfold ofPage
  split
  · -- no row is left
    next hempty =>
    rw [List.isEmpty_iff] at hempty
    refine .inl ⟨?_, rfl⟩
    rw [hempty, List.length_nil] at hlen
    by_contra hne
    have hmore : rules.reach pages (B.waiting s₀).length < (B.waiting s₀).length :=
      Nat.lt_of_le_of_ne (rules.reach_le _ _) hne
    have hnext := rules.reach_lt_succ hmore
    omega
  · -- the page holds the next waiting rows, and nothing is left out of it
    next hempty =>
    have hne : page ≠ [] := by simpa using hempty
    have hpos : 0 < page.length := List.length_pos_iff.2 hne
    rw [firstOfKeys_of_nodup hpage.ascending.nodup_keys]
    refine .inr ⟨_, ⟨by omega, hallowed, ?_, ?_, ?_⟩, rfl⟩
    · rw [cursor_succ hne (keys_of_map_some hpage), greatestKey?_of_ascending hpage.ascending]
    · simp only [report, RetryReport.withPage, RetryReport.tally]
      congr 1
      omega
    · intro hlast
      have hshort : page.length < rules.limit := by simpa using hlast
      exact rules.reach_of_short (by omega) (by omega)

/-- A selected page goes under way, unless it is empty and ends the pass. -/
theorem inv_ofPage {pages : Nat} {outcomes : List (Outcome ε)} {page : List ε}
    (hh : B.Handed s₀ s (rules.reach pages (B.waiting s₀).length))
    (hw : B.Written rules s₀ s (rules.reach pages (B.waiting s₀).length) outcomes)
    (hneeded : ∀ j < pages, rules.reach j (B.waiting s₀).length < (B.waiting s₀).length)
    (hallowed : ∀ most ∈ rules.maxPages, pages + 1 ≤ most)
    (hpage : B.IsPage rules s₀ pages page) :
    B.Inv rules s₀ (ofPage rules.limit
      (.tally pages (rules.reach pages (B.waiting s₀).length) outcomes) page) s := by
  obtain ⟨hall, hof⟩ | ⟨progress, hon, hof⟩ := ofPage_cases outcomes hallowed hpage
  · have hbudget : ∀ most ∈ rules.maxPages, pages ≤ most := fun most hmost =>
      Nat.le_of_succ_le (hallowed most hmost)
    have hscope : rules.scope (B.waiting s₀).length = rules.reach pages (B.waiting s₀).length :=
      (rules.scope_of_all hbudget hall).trans hall.symm
    rw [hof]
    refine ⟨pages, outcomes, ?_⟩
    rw [hscope]
    exact ⟨hh, hw, rfl, rfl, hneeded⟩
  · have hread : ∀ r ∈ (B.waiting s₀).take (rules.reach (pages + 1) (B.waiting s₀).length),
        (B.entity s₀ r).isSome := by
      intro r hr
      rw [rules.take_reach_succ, List.mem_append] at hr
      rcases hr with hr | hr
      · exact hh.read r hr
      · have hm : B.entity s₀ r ∈ page.map some := hpage ▸ List.mem_map_of_mem hr
        obtain ⟨e, _, he⟩ := List.mem_map.1 hm
        rw [← he]
        rfl
    have hentities : B.entities s₀ (rules.reach (pages + 1) (B.waiting s₀).length)
        = B.entities s₀ (rules.reach pages (B.waiting s₀).length) ++ page := by
      rw [entities, rules.take_reach_succ, List.filterMap_append, filterMap_of_map_some hpage]
      rfl
    rw [hof]
    exact ⟨pages, outcomes, hh, hw, hread, hentities, hon⟩

theorem inv_step_selecting {after : Option String} {report : RetryReport}
    (h : B.Inv rules s₀ (.selecting after report) s) :
    B.Inv rules s₀ (step x rules (.selecting after report) s).1
      (step x rules (.selecting after report) s).2 := by
  obtain ⟨pages, outcomes, hh, hw, rfl, rfl, hbudget, hneeded⟩ := h
  simp only [step]
  split
  · -- the budget is used up: what was dealt with is the scope of the pass
    next hex =>
    obtain ⟨most, hmost, hle⟩ := isExhausted_tally.1 hex
    obtain rfl : pages = most := Nat.le_antisymm (hbudget most hmost) hle
    have hscope : rules.scope (B.waiting s₀).length
        = rules.reach pages (B.waiting s₀).length := by
      simp only [SyncRules.scope, hmost, Option.elim_some]
    refine ⟨pages, outcomes, ?_⟩
    rw [hscope]
    exact ⟨hh, hw, rfl, rfl, hneeded⟩
  · next hex =>
    have hallowed : ∀ most ∈ rules.maxPages, pages + 1 ≤ most := by
      intro most hmost
      by_contra hlt
      exact hex (isExhausted_tally.2 ⟨most, hmost, by omega⟩)
    split
    · next page s' hsel =>
      obtain ⟨hpage, hrows, hremote, hhanded, hframe⟩ := B.select_ok hsel
      rw [withStatus_cursor hh hw, hh.frame_eq] at hpage
      exact inv_ofPage (hh.congr hremote hhanded hframe) (hw.congr hrows) hneeded hallowed hpage
    · next e s' hsel =>
      obtain ⟨hrows, hremote, hhanded, hframe⟩ := B.select_error hsel
      exact ⟨pages, outcomes, .inl (hh.congr hremote hhanded hframe), hw.congr hrows⟩

theorem inv_step_submitting {page : List ε} {progress : Progress}
    (h : B.Inv rules s₀ (.submitting page progress) s) :
    B.Inv rules s₀ (step x rules (.submitting page progress) s).1
      (step x rules (.submitting page progress) s).2 := by
  obtain ⟨pages, outcomes, hh, hw, hread, hentities, hon⟩ := h
  obtain ⟨hpage, hrows, hremote, hhanded, hframe⟩ := B.submitAll_spec page s
  have hsub := submitAll_append B.send
    (B.entities s₀ (rules.reach pages (B.waiting s₀).length)) page (B.remote s₀)
  rw [← hentities] at hsub
  -- the page is submitted to the remote service as the pages before it have left it
  have hremote' : B.remote (submitAll x.submit page s).2
      = (B.submissions s₀ (rules.reach (pages + 1) (B.waiting s₀).length)).2 := by
    rw [hremote, hh.remote_eq, submissions, submissions, hsub]
  have hhanded' : B.handed (submitAll x.submit page s).2
      = (B.entities s₀ (rules.reach (pages + 1) (B.waiting s₀).length)).reverse ++ B.handed s₀ := by
    calc B.handed (submitAll x.submit page s).2
        = page.reverse ++ ((B.entities s₀ (rules.reach pages (B.waiting s₀).length)).reverse
            ++ B.handed s₀) := by rw [hhanded, hh.handed_eq]
      _ = _ := by rw [hentities, List.reverse_append, List.append_assoc]
  have hpage' : (B.submissions s₀ (rules.reach (pages + 1) (B.waiting s₀).length)).1
      = (B.submissions s₀ (rules.reach pages (B.waiting s₀).length)).1
        ++ (submitAll x.submit page s).1 := by
    rw [hpage, hh.remote_eq, submissions, submissions, hsub]
  exact ⟨pages, outcomes, ⟨hread, hremote', hhanded', hframe.trans hh.frame_eq⟩, hw.congr hrows,
    hpage', hon⟩

theorem inv_step_awaiting {page : List (ε × Option (Answer ε))} {progress : Progress}
    (h : B.Inv rules s₀ (.awaiting page progress) s) :
    B.Inv rules s₀ (step x rules (.awaiting page progress) s).1
      (step x rules (.awaiting page progress) s).2 := by
  have h' := h
  obtain ⟨pages, outcomes, hh, hw, hsub, hon⟩ := h
  simp only [step]
  split
  · exact h'
  · next answered hans =>
    split
    · -- the page could not be written, but it has been handed over
      next e s' hwrite =>
      obtain ⟨hrows, hremote, hhanded, hframe⟩ := B.write_error hwrite
      exact ⟨pages, outcomes, .inr (hh.congr hremote hhanded hframe), hw.congr hrows⟩
    · next s' hwrite =>
      obtain ⟨hrows, hremote, hhanded, hframe⟩ := B.write_ok hwrite
      have hh' := hh.congr hremote hhanded hframe
      obtain ⟨before, hbefore, rfl⟩ := Option.map_eq_some_iff.1 hw.outcomes_eq
      have hw' : B.Written rules s₀ s' (rules.reach (pages + 1) (B.waiting s₀).length)
          (resolveAll rules before ++ resolveAll rules answered) := by
        constructor
        · rw [outcomes?, hsub, answers?_append, hbefore, hans, resolveAll, resolveAll,
            ← List.map_append]
          rfl
        · rw [hrows, hw.rows_eq, outcomeRows, outcomeRows, List.map_append, Table.putAll_append,
            List.map_map]
          rfl
      have hneeded : ∀ j < pages + 1,
          rules.reach j (B.waiting s₀).length < (B.waiting s₀).length := by
        intro j hj
        have := rules.reach_mono (Nat.le_of_lt_succ hj) (B.waiting s₀).length
        have := hon.more
        omega
      split
      · -- the page was short: nothing waits after it
        next hlast =>
        have hall := hon.isLast_imp hlast
        refine ⟨pages + 1, resolveAll rules before ++ resolveAll rules answered, ?_⟩
        rw [rules.scope_of_all hon.allowed hall, hon.report_eq, RetryReport.withOutcomes_tally]
        rw [hall] at hh' hw' ⊢
        exact ⟨hh', hw', rfl, rfl, hneeded⟩
      · refine ⟨pages + 1, resolveAll rules before ++ resolveAll rules answered, hh', hw',
          hon.after_eq, ?_, hon.allowed, hneeded⟩
        rw [hon.report_eq, RetryReport.withOutcomes_tally]

/-! ## Whole runs -/

theorem inv_step {pass : RetryPass ε} (h : B.Inv rules s₀ pass s) :
    B.Inv rules s₀ (step x rules pass s).1 (step x rules pass s).2 := by
  cases pass with
  | selecting after report => exact inv_step_selecting h
  | submitting page progress => exact inv_step_submitting h
  | awaiting page progress => exact inv_step_awaiting h
  | finished result => exact h

theorem inv_run (n : Nat) {pass : RetryPass ε} (h : B.Inv rules s₀ pass s) :
    B.Inv rules s₀ (run x rules n pass s).1 (run x rules n pass s).2 := by
  induction n generalizing pass s with
  | zero => exact h
  | succ n ih => exact ih (inv_step h)

/-! ## Termination -/

/-- Enough steps to end a pass over `n` waiting rows: three for every page, and there are at most as
many pages as rows. -/
def stepsLeft (rules : SyncRules) (n : Nat) : RetryPass ε → Nat
  | .selecting _ report => 3 * (n - rules.reach report.pages n) + 1
  | .submitting _ progress => 3 * (n - rules.reach progress.report.pages n) + 3
  | .awaiting _ progress => 3 * (n - rules.reach progress.report.pages n) + 2
  | .finished _ => 0

theorem stepsLeft_ofPage {limit : Nat} {report : RetryReport} {page : List ε}
    (h : B.Inv rules s₀ (ofPage limit report page) s) :
    stepsLeft rules (B.waiting s₀).length (ofPage limit report page)
      ≤ 3 * (B.waiting s₀).length - 3 * rules.reach report.pages (B.waiting s₀).length := by
  unfold ofPage at *
  split at h
  · next hempty =>
    simp only [hempty, if_true, stepsLeft]
    omega
  · next hempty =>
    obtain ⟨pages, outcomes, _, _, _, _, hon⟩ := h
    have hpages : report.pages + 1 = pages + 1 := by
      simpa only [RetryReport.withPage, RetryReport.tally]
        using congrArg RetryReport.pages hon.report_eq
    obtain rfl : report.pages = pages := by omega
    have hmore := hon.more
    have hlt := rules.reach_lt_succ hmore
    have hle := rules.reach_le (report.pages + 1) (B.waiting s₀).length
    simp only [hempty, Bool.false_eq_true, if_false, stepsLeft, RetryReport.withPage]
    omega

/-- A service that answers leaves no page waiting. -/
theorem answers?_of_awaiting {page : List (ε × Option (Answer ε))} {progress : Progress}
    (h : B.Inv rules s₀ (.awaiting page progress) s) (hans : ∀ e r, (B.send e r).1.isSome) :
    ∃ answered, answers? page = some answered := by
  obtain ⟨pages, outcomes, _, _, hsub, _⟩ := h
  obtain ⟨all, hall⟩ := answers?_submitAll hans
    (B.entities s₀ (rules.reach (pages + 1) (B.waiting s₀).length)) (B.remote s₀)
  rw [← submissions, hsub, answers?_append] at hall
  obtain ⟨_, _, hmap⟩ := Option.bind_eq_some_iff.1 hall
  obtain ⟨answered, hanswered, _⟩ := Option.map_eq_some_iff.1 hmap
  exact ⟨answered, hanswered⟩

/-- Every step of a pass that is answered brings it closer to its end. -/
theorem stepsLeft_step {pass : RetryPass ε} (h : B.Inv rules s₀ pass s)
    (hans : ∀ e r, (B.send e r).1.isSome) :
    stepsLeft rules (B.waiting s₀).length (step x rules pass s).1
      ≤ stepsLeft rules (B.waiting s₀).length pass - 1 := by
  have hnext := inv_step (x := x) h
  cases pass with
  | selecting after report =>
      simp only [step] at hnext ⊢
      split at hnext
      · next hex => simp only [hex, if_true, stepsLeft]; omega
      · next hex =>
        simp only [hex, Bool.false_eq_true, if_false]
        split at hnext
        · next page s' hsel =>
          have := stepsLeft_ofPage hnext
          simp only [stepsLeft] at this ⊢
          omega
        · next e s' hsel => simp only [stepsLeft]; omega
  | submitting page progress => simp only [step, stepsLeft]; omega
  | awaiting page progress =>
      obtain ⟨answered, hanswered⟩ := answers?_of_awaiting h hans
      have hpages : (progress.report.withOutcomes (resolveAll rules answered)).pages
          = progress.report.pages := by
        obtain ⟨pages, outcomes, _, _, _, hon⟩ := h
        rw [hon.report_eq, RetryReport.withOutcomes_tally]
        rfl
      simp only [step, hanswered]
      split
      · simp only [stepsLeft]; omega
      · split
        · simp only [stepsLeft]; omega
        · simp only [stepsLeft, hpages]; omega
  | finished result => simp only [step, stepsLeft]; omega

theorem run_of_stepsLeft {pass : RetryPass ε} (h : B.Inv rules s₀ pass s)
    (hans : ∀ e r, (B.send e r).1.isSome) {n : Nat}
    (hn : stepsLeft rules (B.waiting s₀).length pass ≤ n) :
    ∃ result, (run x rules n pass s).1 = .finished result := by
  induction n generalizing pass s with
  | zero =>
      cases pass with
      | finished result => exact ⟨result, rfl⟩
      | _ => simp only [stepsLeft] at hn; omega
  | succ n ih =>
      have hstep := stepsLeft_step h hans
      have hle : stepsLeft rules (B.waiting s₀).length (step x rules pass s).1 ≤ n := by omega
      exact ih (inv_step h) hle

/-- **A pass that is answered ends.** -/
theorem run_finished (B : Backing x ρ) (rules : SyncRules) (s : σ)
    (hans : ∀ e r, (B.send e r).1.isSome) :
    ∃ result, (run x rules (steps (B.rows s).size) .start s).1 = .finished result := by
  -- no more rows wait than there are, and the steps are counted by the latter
  refine run_of_stepsLeft (inv_start B rules s) hans ?_
  have hle : (B.waiting s).length ≤ (B.rows s).size := List.length_filter_le _ _
  simp only [RetryPass.start, stepsLeft, steps]
  omega

end Backing

end OfflineChat
