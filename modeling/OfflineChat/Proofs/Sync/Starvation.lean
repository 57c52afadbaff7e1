import OfflineChat.Proofs.Sync.ChannelsFirst
import OfflineChat.Proofs.Sync.Interruption

/-! # Passes with a budget, one after another

A budget bounds the rows that a pass gets to, and every pass starts again from the first key. A key
whose submissions fail for the time being keeps its place in the order, and takes up a place of
every budget. Main definitions: `Backing.passes`, passes one after another, `Backing.stalls`, the
keys that stay in the way, and `SyncRules.Reaches`, how many rows may lie before one that a pass
gets to. Main statements: what a pass leaves waiting (`Backing.pending_pass`), and that an
acknowledged key comes to be completed exactly if the keys that stall before it leave room for it
(`Backing.completesBehind`), for the repositories of a client in
`Client.completes_behind_stalled`. -/

set_option autoImplicit false

namespace OfflineChat

/-! ## The reach of a budget -/

namespace SyncRules

variable (rules : SyncRules)

/-- A pass gets to a waiting row that so many others lie before. -/
def Reaches (before : Nat) : Prop := before < rules.scope (before + 1)

variable {rules}

/-- Whether a pass gets to a row depends on the rows before it only. -/
theorem lt_scope_iff {i n : Nat} (h : i < n) : i < rules.scope n ↔ rules.Reaches i := by
  unfold Reaches scope
  cases rules.maxPages with
  | none => simp only [Option.elim_none]; omega
  | some most =>
      simp only [Option.elim_some, reach]
      split
      · split <;> omega
      · omega

theorem Reaches.of_le {i j : Nat} (h : rules.Reaches j) (hij : i ≤ j) : rules.Reaches i := by
  have hscope : j < rules.scope (j + 1) := (lt_scope_iff (Nat.lt_succ_self j)).2 h
  exact (lt_scope_iff (Nat.lt_succ_of_le hij)).1 (Nat.lt_of_le_of_lt hij hscope)

/-- A budget of pages reaches as far as that many full pages. -/
theorem reaches_iff {budget before : Nat} (hbudget : rules.maxPages = some budget)
    (hpos : 0 < budget) :
    rules.Reaches before ↔
      0x8000_0000_0000_0000 ≤ rules.limit ∨ before < budget * rules.limit := by
  unfold Reaches scope
  rw [hbudget]
  simp only [Option.elim_some, reach, isUnpaged, decide_eq_true_eq]
  split
  · next hlimit => rw [if_neg (by omega)]; omega
  · next hlimit => omega

end SyncRules

/-! ## Keys that stay in the way -/

section

variable {stalls : String → Bool} {d : Nat} {front rest : List String}

/-- The keys that are left when the first `d` of them had their turn and those that stall stay. -/
def swept (stalls : String → Bool) (d : Nat) (ks : List String) : List String :=
  (ks.take d).filter stalls ++ ks.drop d

theorem swept_append (h : d ≤ front.length) :
    swept stalls d (front ++ rest) = swept stalls d front ++ rest := by
  unfold swept
  rw [List.take_append_of_le_length h, List.drop_append_of_le_length h, List.append_assoc]

/-- No key that stalls is left out. -/
theorem countP_swept (stalls : String → Bool) (d : Nat) (ks : List String) :
    (swept stalls d ks).countP stalls = ks.countP stalls := by
  unfold swept
  rw [List.countP_append, List.countP_filter]
  simp only [Bool.and_self]
  rw [← List.countP_append, List.take_append_drop]

/-- Keys that do not stall make room, if there are not enough that stall to fill the budget. -/
theorem countP_not_swept (hd : d ≤ front.length) (hroom : front.countP stalls < d) :
    (swept stalls d front).countP (fun k => !stalls k) < front.countP fun k => !stalls k := by
  have hgone : ((front.take d).filter stalls).countP (fun k => !stalls k) = 0 := by
    rw [List.countP_eq_zero]
    intro k hk
    rw [(List.mem_filter.1 hk).2]
    exact Bool.false_ne_true
  have hsplit : front.countP (fun k => !stalls k)
      = (front.take d).countP (fun k => !stalls k)
        + (front.drop d).countP fun k => !stalls k := by
    rw [← List.countP_append, List.take_append_drop]
  have hlength : (front.take d).length
      = (front.take d).countP stalls + (front.take d).countP fun k => !stalls k := by
    simpa using List.length_eq_countP_add_countP stalls (l := front.take d)
  have hfew : (front.take d).countP stalls ≤ front.countP stalls :=
    (List.take_sublist d front).countP_le
  rw [List.length_take, Nat.min_eq_left hd] at hlength
  rw [swept, List.countP_append, hgone, hsplit]
  omega

end

namespace Backing

open RetryPass

variable {σ ε ρ : Type} [Syncable ε] {x : Exchange σ ε}

/-! ## One pass -/

/-- The state after a pass. -/
def pass (B : Backing x ρ) (rules : SyncRules) (s : σ) : σ :=
  (run x rules (steps (B.rows s).size) start s).2

/-- The state after a number of passes, one after another. -/
def passes (B : Backing x ρ) (rules : SyncRules) : Nat → σ → σ
  | 0, s => s
  | n + 1, s => passes B rules n (B.pass rules s)

/-- The keys that wait, in their order. -/
def pending (B : Backing x ρ) (s : σ) : List String := (B.waiting s).map key

/-- The failure that an answer reports. -/
def failureOf : Answer ε → Option RemoteError
  | .ok _ => none
  | .error error => some error

/-- The remote service answers every submission, and the key decides whether it acknowledges it and
how it fails otherwise. -/
def AnswersByKey (B : Backing x ρ) (failure? : String → Option RemoteError) : Prop :=
  ∀ e r, (B.send e r).1.map failureOf = some (failure? (key e))

/-- What is read from the row of an entity that still waits belongs to the same channel. -/
def KeepsChannels (B : Backing x ρ) : Prop :=
  ∀ s e e', B.entity s (B.toRow (Syncable.withStatus e .syncNeeded)) = some e' →
    Syncable.cid e' = Syncable.cid e

/-- The entity that is stored under a key, if there is one and it can be read. -/
def entityAt (B : Backing x ρ) (s : σ) (k : String) : Option ε :=
  ((B.rows s).get? k).bind (B.entity s)

/-- The submissions of a key leave it waiting: they fail, and not for good in the channel of the
entity that is stored, as far as that can be read. -/
def stalls (B : Backing x ρ) (rules : SyncRules) (failure? : String → Option RemoteError) (s : σ)
    (k : String) : Bool :=
  match failure? k with
  | none => false
  | some error => (B.entityAt s k).all fun e => !rules.classifier error (Syncable.cid e)

variable {B : Backing x ρ} {rules : SyncRules} {failure? : String → Option RemoteError} {s : σ}

theorem ascending_pending (s : σ) : Ascending (B.pending s) :=
  List.pairwise_map.2 (ascending_waiting s)

theorem length_pending (s : σ) : (B.pending s).length = (B.waiting s).length := List.length_map key

/-- A pass changes rows as passes may. -/
theorem steady_pass (B : Backing x ρ) (rules : SyncRules) (s : σ) :
    B.Steady s (B.pass rules s) := by
  let nothing (_ : Unit) (s : σ) : σ := s
  have hnothing : B.LeftAlone nothing := ⟨fun _ _ => rfl, fun _ _ => rfl⟩
  have hsteady := (steady_run (r := .begun rules s) (holdsWaiting_of_page_nil rfl rfl) hnothing
    (List.replicate (steps (B.rows s).size) .step)).2
  rw [RetryCourse.run_replicate_step] at hsteady
  exact hsteady

theorem mem_submitAll {submit : ε → ρ → Option (Answer ε) × ρ}
    (h : ∀ e r, (submit e r).1.map failureOf = some (failure? (key e))) {es : List ε} {r : ρ}
    {p : ε × Option (Answer ε)} (hp : p ∈ (submitAll submit es r).1) :
    p.2.map failureOf = some (failure? (key p.1)) := by
  induction es generalizing r with
  | nil => exact absurd hp List.not_mem_nil
  | cons e es ih =>
      rcases List.mem_cons.1 hp with rfl | hp
      · exact h e r
      · exact ih hp

/-- A pass whose store calls succeed ends with a report, and it has settled the rows that it gets
to. -/
theorem settled_pass (hanswer : B.AnswersByKey failure?) (hserves : StoreServes x rules s) :
    ∃ report answered,
      (run x rules (steps (B.rows s).size) start s).1 = finished (.ok report) ∧
      B.Inv rules s (finished (.ok report)) (B.pass rules s) ∧
      Settled B rules s (B.pass rules s) (rules.scope (B.waiting s).length) answered ∧
      (∀ p ∈ answered, failureOf p.2 = failure? (key p.1)) ∧
      B.entity (B.pass rules s) = B.entity s := by
  have hanswers : ∀ e r, (B.send e r).1.isSome := fun e r => by
    rw [← Option.isSome_map (f := failureOf), hanswer e r]
    rfl
  obtain ⟨result, hresult⟩ := run_finished B rules s hanswers
  have hinv := inv_run (steps (B.rows s).size) (inv_start B rules s)
  have hok := run_ne_error hserves (steps (B.rows s).size)
  rw [hresult] at hinv hok
  cases result with
  | error e => exact absurd rfl (hok e)
  | ok report =>
      obtain ⟨pages, outcomes, hh, hw, _⟩ := id hinv
      obtain ⟨answered, -, hsettled⟩ := Settled.of_written hh hw
      refine ⟨report, answered, hresult, hinv, hsettled, fun p hp => ?_, ?_⟩
      · have hpair : (p.1, some p.2) ∈ (B.submissions s (rules.scope (B.waiting s).length)).1 :=
          hsettled.pairs_eq ▸ List.mem_map.2 ⟨p, hp, rfl⟩
        exact Option.some.inj (mem_submitAll hanswer hpair)
      · exact congrArg PassFrame.entity hh.frame_eq

variable {s' : σ} {d : Nat} {answered : List (ε × Answer ε)}

/-- What was submitted under a key is what was stored under it. -/
theorem entityAt_of_mem (h : Settled B rules s s' d answered) {p : ε × Answer ε}
    (hp : p ∈ answered) : B.entityAt s (key p.1) = some p.1 := by
  obtain ⟨row, hrow, he⟩ : ∃ row ∈ (B.waiting s).take d, B.entity s row = some p.1 :=
    List.mem_map.1 (h.submitted_eq ▸ List.mem_map_of_mem hp)
  have hmem := (mem_waiting_iff.1 (List.mem_of_mem_take hrow)).1
  have hget : (B.rows s).get? (key p.1) = some row := by
    rw [B.key_entity he]
    exact Table.get?_of_mem hmem
  rw [entityAt, hget]
  exact he

/-- The keys that had their turn are the first ones that waited. -/
theorem mem_take_pending (h : Settled B rules s s' d answered) {k : String} :
    k ∈ (B.pending s).take d ↔ ∃ p ∈ answered, key p.1 = k := by
  rw [pending, ← List.map_take, ← h.applied.keys_eq, List.mem_map]

/-- A submission leaves its entity waiting exactly if it stalls. -/
theorem status_eq_syncNeeded_iff (h : Settled B rules s s' d answered) {p : ε × Answer ε}
    (hp : p ∈ answered) (hanswer : failureOf p.2 = failure? (key p.1)) :
    Syncable.status (Outcome.resolve rules.classifier rules.now p.1 p.2).entity = .syncNeeded ↔
      B.stalls rules failure? s (key p.1) = true := by
  rw [h.status_of_mem hp, stalls, entityAt_of_mem h hp, ← hanswer]
  cases p.2 with
  | ok acknowledged => simp [failureOf]
  | error error => cases hc : rules.classifier error (Syncable.cid p.1) <;> simp [failureOf, hc]

/-- **What a pass leaves waiting**: of the keys that it gets to those that stall, and those behind
them. -/
theorem pending_pass (hanswer : B.AnswersByKey failure?) (hserves : StoreServes x rules s) :
    B.pending (B.pass rules s)
      = swept (B.stalls rules failure? s) (rules.scope (B.pending s).length) (B.pending s) := by
  obtain ⟨report, answered, -, -, hsettled, hanswered, -⟩ := settled_pass hanswer hserves
  rw [length_pending]
  generalize rules.scope (B.waiting s).length = d at hsettled ⊢
  have hsplit := List.take_append_drop d (B.pending s)
  have hnodup : (B.pending s).Nodup := (ascending_waiting s).nodup_keys
  have hsublist : (swept (B.stalls rules failure? s) d (B.pending s)).Sublist (B.pending s) := by
    unfold swept
    conv_rhs => rw [← hsplit]
    exact List.Sublist.append List.filter_sublist (List.Sublist.refl _)
  -- both lists are in order, so it is enough that they have the same keys
  refine ascending_ext (ascending_pending _) ((ascending_pending s).sublist hsublist) fun k => ?_
  unfold swept
  rw [List.mem_append, List.mem_filter]
  by_cases hk : k ∈ (B.pending s).take d
  · have hnot : k ∉ (B.pending s).drop d := by
      rw [← hsplit, List.nodup_append] at hnodup
      exact fun hdrop => hnodup.2.2 k hk k hdrop rfl
    obtain ⟨p, hp, rfl⟩ := (mem_take_pending hsettled).1 hk
    have hstatus := status_iff_mem_waiting (hsettled.applied.get?_of_mem hp)
    rw [B.status_toRow] at hstatus
    have hcode := status_eq_syncNeeded_iff hsettled hp (hanswered p hp)
    rw [← pending] at hstatus
    rw [← hstatus]
    constructor
    · intro h
      exact .inl ⟨hk, hcode.1 (SyncStatus.code_injective (Cell.integer.inj h))⟩
    · rintro (⟨-, h⟩ | h)
      · rw [hcode.2 h]
      · exact absurd h hnot
  · -- the row of such a key is as it was
    have hsame : (B.rows (B.pass rules s)).get? k = (B.rows s).get? k :=
      hsettled.applied.get?_of_not_mem (by rwa [List.map_take])
    have hwaits : k ∈ B.pending (B.pass rules s) ↔ k ∈ B.pending s := by
      constructor
      · intro h
        obtain ⟨row, hrow, hstatus⟩ := exists_of_mem_waiting h
        exact (status_iff_mem_waiting (hsame ▸ hrow)).1 hstatus
      · intro h
        obtain ⟨row, hrow, hstatus⟩ := exists_of_mem_waiting h
        exact (status_iff_mem_waiting (hsame.trans hrow)).1 hstatus
    rw [hwaits, ← hsplit, List.mem_append]
    simp only [hsplit, hk, false_and, false_or]

/-- What stalls is written back as it was, up to its status. -/
theorem entity_resolve_of_stalls (h : Settled B rules s s' d answered) {p : ε × Answer ε}
    (hp : p ∈ answered) (hanswer : failureOf p.2 = failure? (key p.1))
    (hstalls : B.stalls rules failure? s (key p.1) = true) :
    (Outcome.resolve rules.classifier rules.now p.1 p.2).entity
      = Syncable.withStatus p.1 .syncNeeded := by
  have hstatus := (status_eq_syncNeeded_iff h hp hanswer).2 hstalls
  rw [stalls, ← hanswer, entityAt_of_mem h hp] at hstalls
  unfold Outcome.resolve at *
  cases hterminal : (Syncable.status p.1).isTerminal with
  | true =>
      rw [hterminal, if_pos rfl] at hstatus
      have hentity : Syncable.status p.1 = .syncNeeded := hstatus
      rw [hentity] at hterminal
      exact absurd hterminal (by decide)
  | false =>
      cases hp2 : p.2 with
      | ok acknowledged => rw [hp2] at hstalls; exact absurd hstalls (by simp [failureOf])
      | error error =>
          have hclass : rules.classifier error (Syncable.cid p.1) = false := by
            simpa [hp2, failureOf] using hstalls
          simp [hclass, Outcome.entity]

/-- **A key that waits after a pass stalls then if it did before.** -/
theorem stalls_pass (hkeeps : B.KeepsChannels) (hanswer : B.AnswersByKey failure?)
    (hserves : StoreServes x rules s) {k : String} (hk : k ∈ B.pending (B.pass rules s)) :
    B.stalls rules failure? (B.pass rules s) k = B.stalls rules failure? s k := by
  obtain ⟨-, answered, -, -, hsettled, hanswered, hentity⟩ := settled_pass hanswer hserves
  by_cases hturn : k ∈ (B.pending s).take (rules.scope (B.waiting s).length)
  · -- the key had its turn and stalls, and what was written back belongs to the same channel
    obtain ⟨p, hp, rfl⟩ := (mem_take_pending hsettled).1 hturn
    have hrow := hsettled.applied.get?_of_mem hp
    have hstatus := (status_iff_mem_waiting hrow).2 hk
    rw [B.status_toRow] at hstatus
    have hstalls := (status_eq_syncNeeded_iff hsettled hp (hanswered p hp)).1
      (SyncStatus.code_injective (Cell.integer.inj hstatus))
    rw [entity_resolve_of_stalls hsettled hp (hanswered p hp) hstalls] at hrow
    rw [hstalls]
    unfold stalls at *
    cases hfailure : failure? (key p.1) with
    | none => rw [hfailure] at hstalls; exact hstalls
    | some error =>
        rw [hfailure, entityAt_of_mem hsettled hp] at hstalls
        dsimp only at hstalls ⊢
        rw [entityAt, hrow, Option.bind_some, hentity]
        cases hread : B.entity s (B.toRow (Syncable.withStatus p.1 .syncNeeded)) with
        | none => rfl
        | some e =>
            rw [Option.all_some, hkeeps s p.1 e hread]
            exact hstalls
  · -- the row of the key is as it was
    have hsame : (B.rows (B.pass rules s)).get? k = (B.rows s).get? k :=
      hsettled.applied.get?_of_not_mem (by rwa [List.map_take])
    unfold stalls entityAt
    rw [hsame, hentity]

/-! ## Passes one after another -/

theorem steady_passes (B : Backing x ρ) (rules : SyncRules) (n : Nat) (s : σ) :
    B.Steady s (B.passes rules n s) := by
  induction n generalizing s with
  | zero => exact Steady.refl B s
  | succ n ih => exact (steady_pass B rules s).trans (ih (B.pass rules s))

variable {k : String} {front back : List String}

/-- A pass that does not get to a key leaves it where it is, behind the keys that are left. -/
theorem pending_pass_behind (hanswer : B.AnswersByKey failure?) (hserves : StoreServes x rules s)
    (hpending : B.pending s = front ++ k :: back) (hfar : ¬rules.Reaches front.length) :
    rules.scope (B.pending s).length ≤ front.length ∧
      B.pending (B.pass rules s)
        = swept (B.stalls rules failure? s) (rules.scope (B.pending s).length) front
          ++ k :: back := by
  have hlt : front.length < (B.pending s).length := by
    rw [hpending, List.length_append, List.length_cons]
    omega
  have hd : rules.scope (B.pending s).length ≤ front.length := by
    rw [← SyncRules.lt_scope_iff hlt] at hfar
    omega
  refine ⟨hd, ?_⟩
  rw [pending_pass hanswer hserves]
  generalize rules.scope (B.pending s).length = d at hd
  rw [hpending, swept_append hd]

/-- Neither does it change the row of the key. -/
theorem get?_pass_behind (hanswer : B.AnswersByKey failure?) (hserves : StoreServes x rules s)
    (hpending : B.pending s = front ++ k :: back) (hfar : ¬rules.Reaches front.length) :
    (B.rows (B.pass rules s)).get? k = (B.rows s).get? k := by
  obtain ⟨-, answered, -, -, hsettled, -, -⟩ := settled_pass hanswer hserves
  obtain ⟨hd, -⟩ := pending_pass_behind hanswer hserves hpending hfar
  have hnodup : (B.pending s).Nodup := (ascending_waiting s).nodup_keys
  rw [length_pending] at hd
  refine hsettled.applied.get?_of_not_mem fun hmem => ?_
  rw [List.map_take, ← pending, hpending, List.take_append_of_le_length hd] at hmem
  rw [hpending, List.nodup_append] at hnodup
  exact hnodup.2.2 k (List.mem_of_mem_take hmem) k List.mem_cons_self rfl

/-- The keys before it that stall are the same as before the pass. -/
theorem countP_stalls_pass (hkeeps : B.KeepsChannels) (hanswer : B.AnswersByKey failure?)
    (hserves : StoreServes x rules s)
    (hpending : B.pending (B.pass rules s) = front ++ k :: back) :
    front.countP (B.stalls rules failure? (B.pass rules s))
        = front.countP (B.stalls rules failure? s) ∧
      front.countP (fun k => !B.stalls rules failure? (B.pass rules s) k)
        = front.countP fun k => !B.stalls rules failure? s k := by
  have hsame : ∀ k' ∈ front, B.stalls rules failure? (B.pass rules s) k'
      = B.stalls rules failure? s k' := fun k' hk' =>
    stalls_pass hkeeps hanswer hserves (hpending ▸ List.mem_append_left _ hk')
  constructor
  · exact List.countP_congr fun k' hk' => by rw [hsame k' hk']
  · exact List.countP_congr fun k' hk' => by rw [hsame k' hk']

/-- **A key behind too many that stall is never submitted**: its row stays as it is. -/
theorem get?_passes_of_crowded (hkeeps : B.KeepsChannels) (hanswer : B.AnswersByKey failure?)
    {n : Nat} (hserves : ∀ i < n, StoreServes x rules (B.passes rules i s))
    (hpending : B.pending s = front ++ k :: back)
    (hcrowded : ¬rules.Reaches (front.countP (B.stalls rules failure? s))) :
    (B.rows (B.passes rules n s)).get? k = (B.rows s).get? k := by
  induction n generalizing s front with
  | zero => rfl
  | succ n ih =>
      have hfirst : StoreServes x rules s := hserves 0 (Nat.succ_pos n)
      have hrest := fun i hi => hserves (i + 1) (Nat.succ_lt_succ hi)
      have hfar : ¬rules.Reaches front.length := fun h => hcrowded (h.of_le List.countP_le_length)
      obtain ⟨-, hnext⟩ := pending_pass_behind hanswer hfirst hpending hfar
      obtain ⟨hcount, -⟩ := countP_stalls_pass hkeeps hanswer hfirst hnext
      have hlater := ih hrest hnext (by rwa [hcount, countP_swept])
      exact hlater.trans (get?_pass_behind hanswer hfirst hpending hfar)

/-- A key that has its turn and does not stall waits no longer. -/
theorem not_mem_pending_pass (hanswer : B.AnswersByKey failure?) (hserves : StoreServes x rules s)
    (hpending : B.pending s = front ++ k :: back) (hnear : rules.Reaches front.length)
    (hgoes : B.stalls rules failure? s k = false) : k ∉ B.pending (B.pass rules s) := by
  have hlt : front.length < (B.pending s).length := by
    rw [hpending, List.length_append, List.length_cons]
    omega
  have hd := (SyncRules.lt_scope_iff hlt).2 hnear
  have hnodup : (B.pending s).Nodup := (ascending_waiting s).nodup_keys
  rw [pending_pass hanswer hserves]
  generalize rules.scope (B.pending s).length = d at hd
  rw [← List.take_append_drop d (B.pending s), List.nodup_append] at hnodup
  have hturn : k ∈ (B.pending s).take d := by
    rw [hpending, List.take_append, List.mem_append]
    right
    obtain ⟨more, hmore⟩ : ∃ more, d - front.length = more + 1 := ⟨d - front.length - 1, by omega⟩
    rw [hmore, List.take_succ_cons]
    exact List.mem_cons_self
  rw [swept, List.mem_append, List.mem_filter]
  rintro (⟨-, hstalls⟩ | hdrop)
  · rw [hgoes] at hstalls
    exact absurd hstalls Bool.false_ne_true
  · exact hnodup.2.2 k hturn k hdrop rfl

/-- **A key behind few enough that stall has its turn.** Each pass before makes room, since one at
least of the keys that it gets to does not stall. -/
theorem not_mem_pending_passes (hkeeps : B.KeepsChannels) (hanswer : B.AnswersByKey failure?)
    {n : Nat} (hserves : ∀ i < n, StoreServes x rules (B.passes rules i s))
    (hpending : B.pending s = front ++ k :: back)
    (hroom : rules.Reaches (front.countP (B.stalls rules failure? s)))
    (hgoes : ∀ s, B.stalls rules failure? s k = false)
    (hn : front.countP (fun k => !B.stalls rules failure? s k) < n) :
    k ∉ B.pending (B.passes rules n s) := by
  -- the induction is on the passes, and the keys in front that do not stall grow fewer
  induction n generalizing s front with
  | zero => omega
  | succ n ih =>
      have hfirst : StoreServes x rules s := hserves 0 (Nat.succ_pos n)
      have hrest := fun i hi => hserves (i + 1) (Nat.succ_lt_succ hi)
      by_cases hnear : rules.Reaches front.length
      · have hgone := not_mem_pending_pass hanswer hfirst hpending hnear (hgoes s)
        exact fun h => hgone ((steady_passes B rules n (B.pass rules s)).waiting_subset h)
      · obtain ⟨hd, hnext⟩ := pending_pass_behind hanswer hfirst hpending hnear
        obtain ⟨hcount, hothers⟩ := countP_stalls_pass hkeeps hanswer hfirst hnext
        have hlt : front.countP (B.stalls rules failure? s) < (B.pending s).length := by
          have hle := List.countP_le_length (p := B.stalls rules failure? s) (l := front)
          rw [hpending, List.length_append, List.length_cons]
          omega
        have hfewer := countP_not_swept hd ((SyncRules.lt_scope_iff hlt).2 hroom)
        exact ih hrest hnext (by rwa [hcount, countP_swept]) (by omega)

/-- The row of a key is stored as completed. -/
def IsCompleted (B : Backing x ρ) (s : σ) (k : String) : Prop :=
  ∃ row, (B.rows s).get? k = some row ∧ B.statusCell row = .integer SyncStatus.completed.code

/-- An acknowledged key waits until it is completed, and stays so. -/
theorem pending_or_isCompleted_pass (hanswer : B.AnswersByKey failure?)
    (hserves : StoreServes x rules s) (hok : failure? k = none)
    (h : k ∈ B.pending s ∨ B.IsCompleted s k) :
    k ∈ B.pending (B.pass rules s) ∨ B.IsCompleted (B.pass rules s) k := by
  obtain ⟨-, answered, -, -, hsettled, hanswered, -⟩ := settled_pass hanswer hserves
  rcases h with hk | ⟨row, hrow, hstatus⟩
  · by_cases hturn : k ∈ (B.pending s).take (rules.scope (B.waiting s).length)
    · obtain ⟨p, hp, rfl⟩ := (mem_take_pending hsettled).1 hturn
      refine .inr ⟨_, hsettled.applied.get?_of_mem hp, ?_⟩
      have hacknowledged := (hanswered p hp).trans hok
      rw [B.status_toRow, hsettled.status_of_mem hp]
      cases hp2 : p.2 with
      | ok acknowledged => rfl
      | error error => rw [hp2] at hacknowledged; exact absurd hacknowledged (by simp [failureOf])
    · have hsame : (B.rows (B.pass rules s)).get? k = (B.rows s).get? k :=
        hsettled.applied.get?_of_not_mem (by rwa [List.map_take])
      obtain ⟨row, hrow, hstatus⟩ := exists_of_mem_waiting hk
      exact .inl ((status_iff_mem_waiting (hsame.trans hrow)).1 hstatus)
  · refine .inr ⟨row, (steady_pass B rules s).settled k row hrow ?_, hstatus⟩
    rw [hstatus]
    exact fun h => absurd (SyncStatus.code_injective (Cell.integer.inj h)) (by decide)

theorem pending_or_isCompleted_passes (hanswer : B.AnswersByKey failure?) {n : Nat}
    (hserves : ∀ i < n, StoreServes x rules (B.passes rules i s)) (hok : failure? k = none)
    (h : k ∈ B.pending s ∨ B.IsCompleted s k) :
    k ∈ B.pending (B.passes rules n s) ∨ B.IsCompleted (B.passes rules n s) k := by
  induction n generalizing s with
  | zero => exact h
  | succ n ih =>
      have hfirst : StoreServes x rules s := hserves 0 (Nat.succ_pos n)
      exact ih (fun i hi => hserves (i + 1) (Nat.succ_lt_succ hi))
        (pending_or_isCompleted_pass hanswer hfirst hok h)

/-! ## What the budget is taken up by -/

/-- The waiting keys before a key whose submissions leave them waiting. -/
def stalledBefore (B : Backing x ρ) (rules : SyncRules) (failure? : String → Option RemoteError)
    (s : σ) (k : String) : Nat :=
  (B.pending s).countP fun k' => decide (k' < k) && B.stalls rules failure? s k'

theorem stalledBefore_eq (hpending : B.pending s = front ++ k :: back) :
    B.stalledBefore rules failure? s k = front.countP (B.stalls rules failure? s) := by
  have hasc : Ascending (front ++ k :: back) := hpending ▸ ascending_pending s
  obtain ⟨-, hback, hcross⟩ := List.pairwise_append.1 hasc
  have hbehind : (k :: back).countP
      (fun k' => decide (k' < k) && B.stalls rules failure? s k') = 0 := by
    rw [List.countP_eq_zero]
    intro k' hk' hlt
    have hlt : k' < k := of_decide_eq_true (Bool.and_eq_true_iff.1 hlt).1
    rcases List.mem_cons.1 hk' with rfl | hk'
    · exact String.lt_irrefl _ hlt
    · exact String.lt_asymm hlt ((List.pairwise_cons.1 hback).1 k' hk')
  have hbefore : front.countP (fun k' => decide (k' < k) && B.stalls rules failure? s k')
      = front.countP (B.stalls rules failure? s) := by
    refine List.countP_congr fun k' hk' => ?_
    have hlt : k' < k := hcross k' hk' k List.mem_cons_self
    simp [hlt]
  rw [stalledBefore, hpending, List.countP_append, hbehind, hbefore, Nat.add_zero]

/-- What `n` passes with a budget do to a key that the remote service acknowledges. If the keys that
stall before it leave room in the budget, it is completed once there were as many passes as keys
waited; otherwise its row is not touched. A page that is longer than a query can be told holds
everything. -/
def CompletesBehind (B : Backing x ρ) (rules : SyncRules) (failure? : String → Option RemoteError)
    (budget : Nat) (s : σ) (n : Nat) : Prop :=
  (∀ i < n, ∃ report, (run x rules (steps (B.rows (B.passes rules i s)).size) start
    (B.passes rules i s)).1 = finished (.ok report)) ∧
  ∀ k ∈ B.pending s, failure? k = none →
    if 0x8000_0000_0000_0000 ≤ rules.limit ∨
        B.stalledBefore rules failure? s k < budget * rules.limit then
      (B.pending s).length ≤ n → B.IsCompleted (B.passes rules n s) k
    else
      (B.rows (B.passes rules n s)).get? k = (B.rows s).get? k

theorem completesBehind (hkeeps : B.KeepsChannels) (hanswer : B.AnswersByKey failure?)
    {budget : Nat} (hbudget : rules.maxPages = some budget) (hpos : 0 < budget) {n : Nat}
    (hserves : ∀ i < n, StoreServes x rules (B.passes rules i s)) :
    B.CompletesBehind rules failure? budget s n := by
  refine ⟨fun i hi => ?_, fun k hk hok => ?_⟩
  · obtain ⟨report, -, hreport, -⟩ := settled_pass hanswer (hserves i hi)
    exact ⟨report, hreport⟩
  · obtain ⟨front, back, hpending⟩ := List.append_of_mem hk
    have hgoes : ∀ s, B.stalls rules failure? s k = false := fun s => by rw [stalls, hok]
    have hreaches : rules.Reaches (front.countP (B.stalls rules failure? s)) ↔ _ :=
      SyncRules.reaches_iff hbudget hpos
    rw [stalledBefore_eq hpending]
    split
    · next hroom =>
      intro hn
      have hfew : front.countP (fun k => !B.stalls rules failure? s k) < n := by
        have hle := List.countP_le_length (p := fun k => !B.stalls rules failure? s k) (l := front)
        rw [hpending, List.length_append, List.length_cons] at hn
        omega
      exact (pending_or_isCompleted_passes hanswer hserves hok (.inl hk)).resolve_left
        (not_mem_pending_passes hkeeps hanswer hserves hpending (hreaches.2 hroom) hgoes hfew)
    · next hcrowded =>
      exact get?_passes_of_crowded hkeeps hanswer hserves hpending fun h => hcrowded (hreaches.1 h)

end Backing

/-! ## Passes of a client -/

namespace Client

open Backing RetryPass

variable {ρ : Type}

theorem messages_keepsChannels (remote : Remote ρ) :
    (messageBacking remote).KeepsChannels := by
  intro c m m' h
  obtain ⟨stored, hstored, rfl⟩ := Option.map_eq_some_iff.1 h
  have hcid := Row.cid_of_message (toOption_eq_some_iff.1 hstored)
  exact (Cell.text.inj hcid).symm

/-- The key of a channel names it. -/
theorem channels_keepsChannels (remote : Remote ρ) :
    (channelBacking remote).KeepsChannels := by
  intro c channel channel' h
  exact (channelBacking remote).key_entity h

/-- **Under a budget the keys that stall decide which keys behind them have their turn**, for passes
over the messages and over the channels of a client whose remote service answers by the key. -/
theorem completes_behind_stalled (remote : Remote ρ)
    (message? channel? : String → Option RemoteError)
    (hmessage : ∀ m r, (remote.sendMessage m r).1.map failureOf = some (message? (key m)))
    (hchannel : ∀ c r, (remote.updateChannel c r).1.map failureOf = some (channel? (key c)))
    (rules : SyncRules) (budget : Nat) (hbudget : rules.maxPages = some budget)
    (hpos : 0 < budget) (c : Client ρ) (n : Nat) :
    ((∀ i < n,
        StoreServes (messageExchange remote) rules ((messageBacking remote).passes rules i c)) →
      (messageBacking remote).CompletesBehind rules message? budget c n) ∧
    ((∀ i < n,
        StoreServes (channelExchange remote) rules ((channelBacking remote).passes rules i c)) →
      (channelBacking remote).CompletesBehind rules channel? budget c n) :=
  ⟨(messageBacking remote).completesBehind (messages_keepsChannels remote) hmessage hbudget hpos,
    (channelBacking remote).completesBehind (channels_keepsChannels remote) hchannel hbudget hpos⟩

/-- A client with three channels that wait, and nothing else. -/
def waitingThrice : Client Unit :=
  .new (.new ((Database.create none).putChannels
    [SyncPass.waitingChannel "a", SyncPass.waitingChannel "b", SyncPass.waitingChannel "c"])
    none 1 1 1) ()

/-- Updates of the first channel time out. -/
def firstTimesOut (cid : String) : Option RemoteError :=
  if cid = "team:a" then some .timeout else none

/-- A service that acknowledges everything else. -/
def slowRemote : Remote Unit :=
  .stateless .ok fun c => (firstTimesOut c.cid).elim (.ok c) .error

theorem slowRemote_channel (c : Channel) (r : Unit) :
    (slowRemote.updateChannel c r).1.map failureOf = some (firstTimesOut (key c)) := by
  show some (failureOf ((firstTimesOut c.cid).elim (.ok c) .error)) = some (firstTimesOut c.cid)
  cases firstTimesOut c.cid <;> rfl

/-- With one page of two channels for each pass, the third channel has its turn in the second pass,
though the first one times out each time. -/
theorem completes_behind_stalled_waitingThrice :
    (channelBacking slowRemote).IsCompleted
      ((channelBacking slowRemote).passes ⟨2, some 1, .standard, .epoch⟩ 3 waitingThrice)
      "team:c" := by
  have hserves : ∀ i < 3, StoreServes (channelExchange slowRemote) ⟨2, some 1, .standard, .epoch⟩
      ((channelBacking slowRemote).passes ⟨2, some 1, .standard, .epoch⟩ i waitingThrice) := by
    intro i hi
    obtain rfl | rfl | rfl : i = 0 ∨ i = 1 ∨ i = 2 := by omega
    all_goals
      exact (channelBacking slowRemote).storeServes_of_reliable _ (fun _ => rfl)
        (List.all_eq_true.1 rfl)
  have hpasses := (completes_behind_stalled slowRemote (fun _ => none) firstTimesOut
    (fun _ _ => rfl) slowRemote_channel ⟨2, some 1, .standard, .epoch⟩ 1 rfl Nat.one_pos
    waitingThrice 3).2 hserves
  have hwaits : "team:c" ∈ (channelBacking slowRemote).pending waitingThrice := by decide
  have hroom := hpasses.2 "team:c" hwaits rfl
  rw [if_pos (.inr (by decide))] at hroom
  exact hroom (by decide)

/-- With one page of one channel the first channel, which times out, is all that ever has its turn:
after as many passes as channels wait, one that would be acknowledged still waits. -/
theorem starves_behind_stalled :
    let B := channelBacking slowRemote
    let rules : SyncRules := ⟨1, some 1, .standard, .epoch⟩
    B.AnswersByKey firstTimesOut ∧
      (∀ i < 3, StoreServes (channelExchange slowRemote) rules (B.passes rules i waitingThrice)) ∧
      (B.pending waitingThrice).length = 3 ∧ firstTimesOut "team:b" = none ∧
      "team:b" ∈ B.pending waitingThrice ∧
      ¬B.IsCompleted (B.passes rules 3 waitingThrice) "team:b" ∧
      "team:b" ∈ B.pending (B.passes rules 3 waitingThrice) := by
  refine ⟨slowRemote_channel, fun i hi => ?_, by decide, rfl, by decide, ?_, by decide⟩
  · obtain rfl | rfl | rfl : i = 0 ∨ i = 1 ∨ i = 2 := by omega
    all_goals
      exact (channelBacking slowRemote).storeServes_of_reliable _ (fun _ => rfl)
        (List.all_eq_true.1 rfl)
  · rintro ⟨row, hrow, hstatus⟩
    have hget : some (SyncPass.waitingChannel "b").toRow = some row := hrow
    rw [← Option.some.inj hget] at hstatus
    exact absurd hstatus (by decide)

end Client

end OfflineChat
