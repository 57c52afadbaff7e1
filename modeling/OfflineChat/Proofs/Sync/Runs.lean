import Mathlib.Data.List.Nodup
import OfflineChat.Proofs.Sync.Course
import OfflineChat.Proofs.Sync.Repositories
import OfflineChat.Sync.Operation

/-! # Runs of passes

Passes follow one another over a table that nobody else writes; each of them may be stopped by its
budget, by a store call that fails, by an answer that never comes, or by the next one. Main
definitions: `Backing.Steady`, how the rows may change, `Backing.timesHanded`, how often a key was
handed over, and `RetryCourse.startsWaiting`, how many passes started while it waited. Main
statements: the rows of a run are steady (`Backing.steady_run`), no pass hands a key over twice, and
a key is handed over no more often than passes started while it waited
(`Backing.timesHanded_run_le`); all of it for the repositories of a client in
`Client.passes_lawful`. -/

set_option autoImplicit false

namespace OfflineChat

/-- The answers to an entity leave it in one of three statuses. -/
theorem Outcome.status_resolve_mem {ε : Type} [Syncable ε] (classifier : Classifier)
    (now : Instant) (e : ε) (answer : Answer ε) :
    Syncable.status (resolve classifier now e answer).entity
      ∈ [SyncStatus.syncNeeded, .completed, .failedPermanently] := by
  cases hterminal : (Syncable.status e).isTerminal with
  | true =>
      rw [resolve_of_isTerminal answer hterminal]
      cases hstatus : Syncable.status e <;> simp_all [SyncStatus.isTerminal, entity]
  | false =>
      rw [status_resolve hterminal answer]
      cases answer with
      | ok acknowledged => simp
      | error error => dsimp only; split <;> simp

/-- A pass starts with this event. -/
def RetryEvent.isStart {τ : Type} : RetryEvent τ → Bool
  | start _ => true
  | _ => false

namespace Backing

open RetryPass

variable {σ ε ρ τ : Type} [Syncable ε] {x : Exchange σ ε}

/-- How often a key was handed to the remote service. -/
def timesHanded (B : Backing x ρ) (s : σ) (k : String) : Nat := ((B.handed s).map key).count k

/-- The rows have changed from `s` to `s'` as passes may change them. -/
structure Steady (B : Backing x ρ) (s s' : σ) : Prop where
  /-- No row is added or removed. -/
  keys_eq : (B.rows s').rows.map key = (B.rows s).rows.map key
  /-- A row that does not wait stays as it is, -/
  settled : ∀ k row, (B.rows s).get? k = some row →
    B.statusCell row ≠ .integer SyncStatus.syncNeeded.code → (B.rows s').get? k = some row
  /-- and its key is not handed over, nor is a key without a row. -/
  kept : ∀ k, k ∉ (B.waiting s).map key → B.timesHanded s' k = B.timesHanded s k
  /-- A row that waits is given one of three statuses. -/
  resolved : ∀ k ∈ (B.waiting s).map key, ∀ row, (B.rows s').get? k = some row →
    ∃ status ∈ [SyncStatus.syncNeeded, .completed, .failedPermanently],
      B.statusCell row = .integer status.code

variable {B : Backing x ρ} {rules : SyncRules} {s s' s'' : σ} {pass pass' : RetryPass ε}
  {es : List ε}

/-! ## Steady rows -/

/-- A key that waits has a row that waits. -/
theorem exists_of_mem_waiting {k : String} (h : k ∈ (B.waiting s).map key) :
    ∃ row, (B.rows s).get? k = some row ∧
      B.statusCell row = .integer SyncStatus.syncNeeded.code := by
  obtain ⟨row, hrow, rfl⟩ := List.mem_map.1 h
  obtain ⟨hmem, hstatus⟩ := mem_waiting_iff.1 hrow
  exact ⟨row, Table.get?_of_mem hmem, hstatus⟩

/-- Rows that are as they were are steady if only waiting keys were handed over. -/
theorem steady_of_rows_eq (hrows : B.rows s' = B.rows s)
    (hkept : ∀ k, k ∉ (B.waiting s).map key → B.timesHanded s' k = B.timesHanded s k) :
    B.Steady s s' where
  keys_eq := by rw [hrows]
  settled k row hrow _ := by rw [hrows]; exact hrow
  kept := hkept
  resolved k hk row hrow := by
    obtain ⟨row', hrow', hstatus⟩ := exists_of_mem_waiting hk
    rw [hrows, hrow', Option.some.injEq] at hrow
    exact ⟨.syncNeeded, by simp, hrow ▸ hstatus⟩

theorem Steady.refl (B : Backing x ρ) (s : σ) : B.Steady s s :=
  steady_of_rows_eq rfl fun _ _ => rfl

/-- No key comes to wait. -/
theorem Steady.waiting_subset (h : B.Steady s s') {k : String}
    (hk : k ∈ (B.waiting s').map key) : k ∈ (B.waiting s).map key := by
  obtain ⟨row', hrow', hstatus'⟩ := exists_of_mem_waiting hk
  have hkeys : k ∈ (B.rows s).rows.map key := h.keys_eq ▸ Table.mem_keys_iff.2 ⟨row', hrow'⟩
  obtain ⟨row, hrow⟩ := Table.mem_keys_iff.1 hkeys
  by_contra hnot
  have hstatus := fun hc => hnot ((status_iff_mem_waiting hrow).1 hc)
  have hsame := h.settled k row hrow hstatus
  rw [hrow', Option.some.injEq] at hsame
  exact hstatus (hsame ▸ hstatus')

theorem Steady.trans (h : B.Steady s s') (h' : B.Steady s' s'') : B.Steady s s'' where
  keys_eq := h'.keys_eq.trans h.keys_eq
  settled k row hrow hstatus := h'.settled k row (h.settled k row hrow hstatus) hstatus
  kept k hk := (h'.kept k fun hk' => hk (h.waiting_subset hk')).trans (h.kept k hk)
  resolved k hk row'' hrow'' := by
    by_cases hk' : k ∈ (B.waiting s').map key
    · exact h'.resolved k hk' row'' hrow''
    · -- the row is through, and the statuses it can have by then are known
      have hkeys : k ∈ (B.rows s').rows.map key := h'.keys_eq ▸ Table.mem_keys_iff.2 ⟨row'', hrow''⟩
      obtain ⟨row', hrow'⟩ := Table.mem_keys_iff.1 hkeys
      have hsame := h'.settled k row' hrow' fun hc => hk' ((status_iff_mem_waiting hrow').1 hc)
      rw [hrow'', Option.some.injEq] at hsame
      exact hsame ▸ h.resolved k hk row' hrow'

theorem timesHanded_of_handed_eq (h : B.handed s' = B.handed s) (k : String) :
    B.timesHanded s' k = B.timesHanded s k := by
  unfold timesHanded
  rw [h]

/-- The rows that a page is written back as have its keys, and one of three statuses. -/
theorem outcomeRow_of_mem {answered : List (ε × Answer ε)} {row : Row}
    (h : row ∈ B.outcomeRows (resolveAll rules answered)) :
    key row ∈ (answered.map fun p => key p.1) ∧
      ∃ status ∈ [SyncStatus.syncNeeded, .completed, .failedPermanently],
        B.statusCell row = .integer status.code := by
  constructor
  · rw [← keys_outcomeRows B rules answered]
    exact List.mem_map_of_mem h
  · obtain ⟨outcome, houtcome, rfl⟩ := List.mem_map.1 h
    obtain ⟨p, hp, rfl⟩ := List.mem_map.1 houtcome
    exact ⟨_, Outcome.status_resolve_mem rules.classifier rules.now p.1 p.2, B.status_toRow _⟩

/-- A page of waiting rows is written back steadily. -/
theorem steady_of_wrote {answered : List (ε × Answer ε)}
    (hwaits : ∀ k ∈ answered.map fun p => key p.1, k ∈ (B.waiting s).map key)
    (hrows : B.rows s' = (B.rows s).putAll (B.outcomeRows (resolveAll rules answered)))
    (hhanded : B.handed s' = B.handed s) : B.Steady s s' where
  keys_eq := by
    rw [hrows]
    refine Table.keys_putAll fun k hk => ?_
    rw [keys_outcomeRows] at hk
    obtain ⟨row, hrow, _⟩ := exists_of_mem_waiting (hwaits k hk)
    exact Table.mem_keys_iff.2 ⟨row, hrow⟩
  settled k row hrow hstatus := by
    have hk : k ∉ (B.outcomeRows (resolveAll rules answered)).map key := by
      rw [keys_outcomeRows]
      exact fun hk => hstatus ((status_iff_mem_waiting hrow).2 (hwaits k hk))
    rw [hrows, Table.get?_putAll_of_not_mem _ hk]
    exact hrow
  kept k _ := timesHanded_of_handed_eq hhanded k
  resolved k hk row hrow := by
    rw [hrows, Table.get?_putAll] at hrow
    rcases Option.or_eq_some_iff.1 hrow with hwritten | ⟨_, hold⟩
    · have hmem := List.mem_reverse.1 (List.mem_of_find?_eq_some hwritten)
      exact (outcomeRow_of_mem hmem).2
    · exact ⟨.syncNeeded, by simp, (status_iff_mem_waiting hold).2 hk⟩

/-! ## The invariant -/

/-- The page under way is in order, and its rows wait. -/
structure HoldsWaiting (B : Backing x ρ) (pass : RetryPass ε) (s : σ) : Prop where
  orderly : B.Orderly pass s
  waits : ∀ k ∈ pass.page.map key, k ∈ (B.waiting s).map key

theorem holdsWaiting_of_page_nil (hpage : pass.page = []) (hunanswered : pass.unanswered = []) :
    B.HoldsWaiting pass s :=
  ⟨orderly_of_page_nil hpage hunanswered, by simp [hpage]⟩

theorem waiting_of_rows_eq (h : B.rows s' = B.rows s) : B.waiting s' = B.waiting s := by
  unfold waiting
  rw [h]

/-- A step keeps the invariant and the rows steady. -/
theorem HoldsWaiting.turn (h : B.HoldsWaiting pass s) (hturn : B.Turn rules pass s es pass' s') :
    B.HoldsWaiting pass' s' ∧ B.Steady s s' := by
  have horderly := h.orderly.turn hturn
  cases hturn with
  | ended rows_eq handed_eq =>
      exact ⟨holdsWaiting_of_page_nil rfl rfl,
        steady_of_rows_eq rows_eq fun k _ => timesHanded_of_handed_eq handed_eq k⟩
  | selected _ waits _ rows_eq handed_eq =>
      refine ⟨⟨horderly, fun k hk => ?_⟩,
        steady_of_rows_eq rows_eq fun k _ => timesHanded_of_handed_eq handed_eq k⟩
      rw [waiting_of_rows_eq rows_eq]
      exact (waits k hk).1
  | submitted page_eq rows_eq handed_eq =>
      refine ⟨⟨horderly, fun k hk => ?_⟩, steady_of_rows_eq rows_eq fun k hk => ?_⟩
      · rw [waiting_of_rows_eq rows_eq]
        rw [page_awaiting, page_eq] at hk
        exact h.waits k hk
      · -- only the keys of the page are handed over, and these wait
        unfold timesHanded
        rw [handed_eq, List.map_append, List.count_append, List.count_eq_zero.2, Nat.zero_add]
        rw [List.map_reverse, List.mem_reverse]
        exact fun hpage => hk (h.waits k hpage)
  | waited => exact ⟨h, Steady.refl B s⟩
  | wrote page_eq pass_eq rows_eq handed_eq =>
      refine ⟨?_, steady_of_wrote (fun k hk => ?_) rows_eq handed_eq⟩
      · obtain ⟨report, rfl⟩ | ⟨report, rfl⟩ := pass_eq <;> exact holdsWaiting_of_page_nil rfl rfl
      · exact h.waits k (keys_page_of_answered page_eq _ ▸ hk)

/-- Others leave rows and handed entities alone. -/
structure LeftAlone (B : Backing x ρ) (others : τ → σ → σ) : Prop where
  rows_eq : ∀ what s, B.rows (others what s) = B.rows s
  handed_eq : ∀ what s, B.handed (others what s) = B.handed s

variable {others : τ → σ → σ} {r : RetryCourse σ ε}

theorem HoldsWaiting.next (h : B.HoldsWaiting r.pass r.state) (hothers : B.LeftAlone others)
    (event : RetryEvent τ) :
    B.HoldsWaiting (r.next x others event).pass (r.next x others event).state ∧
      B.Steady r.state (r.next x others event).state := by
  cases event with
  | start rules => exact ⟨holdsWaiting_of_page_nil rfl rfl, Steady.refl B r.state⟩
  | step => exact h.turn (turn_step B r.rules r.pass r.state)
  | others what =>
      have hrows := hothers.rows_eq what r.state
      have hhanded := hothers.handed_eq what r.state
      refine ⟨⟨h.orderly.of_handed hhanded, fun k hk => ?_⟩,
        steady_of_rows_eq hrows fun k _ => timesHanded_of_handed_eq hhanded k⟩
      have hwaiting : B.waiting (others what r.state) = B.waiting r.state :=
        waiting_of_rows_eq hrows
      rw [RetryCourse.next, hwaiting]
      exact h.waits k hk

/-- **Whatever happens, the rows change only as passes may change them.** -/
theorem steady_run (h : B.HoldsWaiting r.pass r.state) (hothers : B.LeftAlone others)
    (events : List (RetryEvent τ)) :
    B.HoldsWaiting (r.run x others events).pass (r.run x others events).state ∧
      B.Steady r.state (r.run x others events).state := by
  induction events generalizing r with
  | nil => exact ⟨h, Steady.refl B r.state⟩
  | cons event events ih =>
      obtain ⟨hnext, hsteady⟩ := h.next hothers event
      obtain ⟨hlast, hrest⟩ := ih hnext
      exact ⟨hlast, hsteady.trans hrest⟩

/-! ## Submissions -/

/-- The pass may yet hand the key over: it is on a page that is to be submitted, or it waits above
the pages so far. -/
def MayHand (B : Backing x ρ) (pass : RetryPass ε) (s : σ) (k : String) : Prop :=
  k ∈ pass.unsubmitted.map key ∨ (pass.isAhead k ∧ k ∈ (B.waiting s).map key)

/-- From one moment to a later one of the same pass a key was not handed over, or once for all. -/
def HandsAtMostOnce (B : Backing x ρ) (k : String) (pass : RetryPass ε) (s : σ)
    (pass' : RetryPass ε) (s' : σ) : Prop :=
  (B.timesHanded s' k = B.timesHanded s k ∧ (B.MayHand pass' s' k → B.MayHand pass s k)) ∨
    (B.timesHanded s' k = B.timesHanded s k + 1 ∧ B.MayHand pass s k ∧ ¬B.MayHand pass' s' k)

theorem mayHand_of_rows_eq {k : String} (hrows : B.rows s' = B.rows s)
    (h : B.MayHand pass s' k) : B.MayHand pass s k := by
  unfold MayHand at *
  rwa [waiting_of_rows_eq hrows] at h

/-- A step of a pass hands a key over once at most. -/
theorem handsAtMostOnce_turn (horderly : B.Orderly pass s) (hturn : B.Turn rules pass s es pass' s')
    (k : String) : B.HandsAtMostOnce k pass s pass' s' := by
  cases hturn with
  | ended _ handed_eq =>
      refine .inl ⟨timesHanded_of_handed_eq handed_eq k, fun hmay => ?_⟩
      exact absurd hmay (by simp [MayHand, unsubmitted, isAhead])
  | selected _ waits reached rows_eq handed_eq =>
      refine .inl ⟨timesHanded_of_handed_eq handed_eq k, fun hmay => ?_⟩
      rcases mayHand_of_rows_eq rows_eq hmay with hpage | ⟨hahead, hwaits⟩
      · exact .inr ⟨(waits k hpage).2, (waits k hpage).1⟩
      · -- what lies above the new page lies above the pages before it
        obtain ⟨last, hlast, hafter, _⟩ := reached
        exact .inr ⟨fun a ha => String.lt_trans ((waits last hlast).2 a ha) (hahead last hafter),
          hwaits⟩
  | @submitted entities progress s s' page page_eq rows_eq handed_eq =>
      have hcount : B.timesHanded s' k = (entities.map key).count k + B.timesHanded s k := by
        unfold timesHanded
        rw [handed_eq, List.map_append, List.count_append, List.map_reverse, List.count_reverse]
      by_cases hk : k ∈ entities.map key
      · have hone : (entities.map key).count k = 1 :=
          List.count_eq_one_of_mem horderly.nodup hk
        refine .inr ⟨by omega, .inl hk, ?_⟩
        rintro (hnil | ⟨hahead, _⟩)
        · exact absurd hnil (by simp [unsubmitted])
        · exact horderly.not_ahead k hk hahead
      · have hzero : (entities.map key).count k = 0 := List.count_eq_zero.2 hk
        refine .inl ⟨by omega, fun hmay => ?_⟩
        rcases mayHand_of_rows_eq rows_eq hmay with hnil | hahead
        · exact absurd hnil (by simp [unsubmitted])
        · exact .inr hahead
  | waited => exact .inl ⟨rfl, id⟩
  | @wrote page progress s s' pass' answered page_eq pass_eq rows_eq handed_eq =>
      refine .inl ⟨timesHanded_of_handed_eq handed_eq k, fun hmay => ?_⟩
      obtain ⟨report, rfl⟩ | ⟨report, rfl⟩ := pass_eq
      · obtain ⟨hahead, hwaits⟩ := hmay.resolve_left (by simp [unsubmitted])
        -- the page that was written lies below, so this row is as it was
        have hk : k ∉ (B.outcomeRows (resolveAll rules answered)).map key := by
          rw [keys_outcomeRows]
          exact fun hk => horderly.not_ahead k (keys_page_of_answered page_eq _ ▸ hk) hahead
        obtain ⟨row, hrow, hstatus⟩ := exists_of_mem_waiting hwaits
        rw [rows_eq, Table.get?_putAll_of_not_mem _ hk] at hrow
        exact .inr ⟨hahead, (status_iff_mem_waiting hrow).1 hstatus⟩
      · exact absurd hmay (by simp [MayHand, unsubmitted, isAhead])

/-- There is room for `n` submissions of a key in all, the one that the pass may yet make among
them. -/
def HasRoom (B : Backing x ρ) (k : String) (n : Nat) (r : RetryCourse σ ε) : Prop :=
  B.timesHanded r.state k ≤ n ∧ (B.MayHand r.pass r.state k → B.timesHanded r.state k < n)

/-- The key waits when the event starts a pass. -/
def startsWaiting (B : Backing x ρ) (k : String) (r : RetryCourse σ ε) (event : RetryEvent τ) :
    Nat :=
  if event.isStart = true ∧ k ∈ (B.waiting r.state).map key then 1 else 0

/-- The number of passes that start while a key waits. -/
def passesWaiting (B : Backing x ρ) (others : τ → σ → σ) (k : String) :
    RetryCourse σ ε → List (RetryEvent τ) → Nat
  | _, [] => 0
  | r, event :: events =>
      B.startsWaiting k r event + B.passesWaiting others k (r.next x others event) events

/-- The start of a pass makes room for one more submission, if the key waits. -/
theorem HasRoom.start {k : String} {n : Nat} (h : B.timesHanded r.state k ≤ n)
    (rules : SyncRules) :
    B.HasRoom k (n + B.startsWaiting k r (.start rules : RetryEvent τ))
      (r.next x others (.start rules)) := by
  refine ⟨Nat.le_add_right_of_le h, fun hmay => ?_⟩
  have hwaits : k ∈ (B.waiting r.state).map key :=
    (hmay.resolve_left (by simp [RetryCourse.next, RetryPass.start, unsubmitted])).2
  rw [startsWaiting, if_pos ⟨rfl, hwaits⟩]
  exact Nat.lt_succ_of_le h

theorem HasRoom.next {k : String} {n : Nat} (h : B.HasRoom k n r)
    (horderly : B.Orderly r.pass r.state) (hothers : B.LeftAlone others) (event : RetryEvent τ) :
    B.HasRoom k (n + B.startsWaiting k r event) (r.next x others event) := by
  obtain ⟨hle, hlt⟩ := h
  cases event with
  | start rules => exact HasRoom.start hle rules
  | step =>
      have hzero : B.startsWaiting k r (.step : RetryEvent τ) = 0 := rfl
      rw [hzero, Nat.add_zero]
      rcases handsAtMostOnce_turn horderly (turn_step B r.rules r.pass r.state) k with
        ⟨hcount, hmay⟩ | ⟨hcount, hmay, hdone⟩
      · exact ⟨hcount ▸ hle, fun h => hcount ▸ hlt (hmay h)⟩
      · exact ⟨hcount ▸ hlt hmay, fun h => absurd h hdone⟩
  | others what =>
      have hzero : B.startsWaiting k r (.others what) = 0 := rfl
      have hcount := timesHanded_of_handed_eq (hothers.handed_eq what r.state) k
      rw [hzero, Nat.add_zero]
      exact ⟨hcount ▸ hle, fun h =>
        hcount ▸ hlt (mayHand_of_rows_eq (hothers.rows_eq what r.state) h)⟩

/-- **A key is handed over no more often than passes start while it waits**, except for what the
pass under way may yet hand over. -/
theorem timesHanded_run_le {k : String} {n : Nat} (h : B.HasRoom k n r)
    (horderly : B.Orderly r.pass r.state) (hothers : B.LeftAlone others)
    (events : List (RetryEvent τ)) :
    B.timesHanded (r.run x others events).state k ≤ n + B.passesWaiting others k r events := by
  induction events generalizing r n with
  | nil => exact h.1
  | cons event events ih =>
      have hnext := orderly_next hothers.handed_eq event horderly
      have hrest := ih (h.next horderly hothers event) hnext
      rw [RetryCourse.run_cons, passesWaiting, ← Nat.add_assoc]
      exact hrest

/-- Events among which no pass starts. -/
theorem passesWaiting_eq_zero {k : String} {events : List (RetryEvent τ)}
    (h : ∀ event ∈ events, event.isStart = false) : B.passesWaiting others k r events = 0 := by
  induction events generalizing r with
  | nil => rfl
  | cons event events ih =>
      have hhead := h event (List.mem_cons_self ..)
      rw [passesWaiting, ih fun e he => h e (List.mem_cons_of_mem _ he), startsWaiting, hhead]
      simp

/-! ## Runs -/

/-- What holds of all passes from a moment at which none is under way. -/
structure PassesLawful (B : Backing x ρ) (others : τ → σ → σ) (r : RetryCourse σ ε) : Prop where
  /-- From any moment to any later one the rows change only as passes may change them. -/
  steady : ∀ before events : List (RetryEvent τ),
    B.Steady (r.run x others before).state (r.run x others (before ++ events)).state
  /-- A pass hands a key over at most once, and only if it waits at the start. -/
  once : ∀ (before : List (RetryEvent τ)) (rules : SyncRules) (events : List (RetryEvent τ)),
    (∀ event ∈ events, event.isStart = false) → ∀ k,
      B.timesHanded (r.run x others (before ++ .start rules :: events)).state k
        ≤ B.timesHanded (r.run x others before).state k
          + B.startsWaiting k (r.run x others before) (.start rules : RetryEvent τ)
  /-- All passes together hand a key over as often as they start while it waits, at most. -/
  total : ∀ (events : List (RetryEvent τ)) (k : String),
    B.timesHanded (r.run x others events).state k
      ≤ B.timesHanded r.state k + B.passesWaiting others k r events

/-- Passes are lawful if others leave rows and handed entities alone. -/
theorem passesLawful (hothers : B.LeftAlone others) (rules : SyncRules) (s : σ) :
    B.PassesLawful others (.new rules s) := by
  have hnew : B.HoldsWaiting (RetryCourse.new rules s : RetryCourse σ ε).pass s :=
    holdsWaiting_of_page_nil rfl rfl
  have hreached (before : List (RetryEvent τ)) := (steady_run hnew hothers before).1
  constructor
  · intro before events
    rw [RetryCourse.run_append]
    exact (steady_run (hreached before) hothers events).2
  · intro before rules' events hnone k
    rw [RetryCourse.run_append, RetryCourse.run_cons]
    have hreach := hreached before
    generalize (RetryCourse.new rules s).run x others before = r at hreach ⊢
    have hroom : B.HasRoom k _ (r.next x others (.start rules')) :=
      HasRoom.start (Nat.le_refl (B.timesHanded r.state k)) rules'
    have horderly := orderly_next hothers.handed_eq (.start rules') hreach.orderly
    have hle := timesHanded_run_le hroom horderly hothers events
    rwa [passesWaiting_eq_zero hnone, Nat.add_zero] at hle
  · intro events k
    have hroom : B.HasRoom k (B.timesHanded s k) (RetryCourse.new rules s) :=
      ⟨Nat.le_refl _, fun hmay => absurd hmay (by simp [MayHand, RetryCourse.new, unsubmitted,
        isAhead])⟩
    exact timesHanded_run_le hroom hnew.orderly hothers events

end Backing

/-! ## The repositories of a client -/

namespace Client

variable {ρ : Type}

theorem messages_leftAlone (remote : Remote ρ) :
    (messageBacking remote).LeftAlone (Client.under : Circumstance ρ → Client ρ → Client ρ) where
  rows_eq change c := by cases change <;> rfl
  handed_eq change c := by cases change <;> rfl

theorem channels_leftAlone (remote : Remote ρ) :
    (channelBacking remote).LeftAlone (Client.under : Circumstance ρ → Client ρ → Client ρ) where
  rows_eq change c := by cases change <;> rfl
  handed_eq change c := by cases change <;> rfl

/-- **Runs of passes over the messages, or over the channels, are lawful**, however medium and
remote service behave. -/
theorem passes_lawful (remote : Remote ρ) (rules : SyncRules) (c : Client ρ) :
    (messageBacking remote).PassesLawful under (.new rules c) ∧
      (channelBacking remote).PassesLawful under (.new rules c) :=
  ⟨Backing.passesLawful (messages_leftAlone remote) rules c,
    Backing.passesLawful (channels_leftAlone remote) rules c⟩

end Client

end OfflineChat
