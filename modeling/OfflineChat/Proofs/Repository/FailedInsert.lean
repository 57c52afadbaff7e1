import OfflineChat.Proofs.Repository.Lawful

/-! # Inserts that fail

An insert files its batch in the cache before it writes it, so when the write fails the cache holds
entities that no row holds. Two runs are compared, one with the failed insert and one without it.
Main definitions: `FailedInsert`, such an insert with all that is called before and after it;
`Shelf.Unaffected`, for keys of which the two runs show the same; and `Shelf.Unsaved`, what reads
show after the insert. Main statement: `FailedInsert.unsaved`, of all three repositories. -/

set_option autoImplicit false

namespace OfflineChat

/-- The call brings only entities that are read back, and the medium fails none of its reads. -/
structure OperationCall.IsSound (call : OperationCall) : Prop where
  readable : call.operation.IsReadable
  reads : ∀ c, c.isRead = true → call.faults c = none

/-! ## Two replicas -/

namespace KeyEffect

variable {α : Type}

/-- What was cached or stored before does not matter any more. -/
def IsFinal : KeyEffect α → Prop
  | writes _ | removes => True
  | _ => False

end KeyEffect

namespace Shelf

variable {α : Type} [Keyed α] (S : Shelf α)

/-- Two replicas have the same row under a key, and both caches are faithful to it. -/
structure Matches (k : String) (r r' : Replica) : Prop where
  row_eq : (S.rows r').get? k = (S.rows r).get? k
  left : S.Faithful r k
  right : S.Faithful r' k

/-- The call has one and the same effect on the key in both replicas: it writes the key or removes
it. -/
def Resets (k : String) (call : OperationCall) (r r' : Replica) : Prop :=
  ∃ effect, effect.IsFinal ∧ S.effect call.operation (r.withFaults call.faults) k = effect ∧
    S.effect call.operation (r'.withFaults call.faults) k = effect

/-- The calls do nothing to the key. -/
def LeavesAlone (k : String) : Replica → List OperationCall → Prop
  | _, [] => True
  | r, call :: calls => S.effect call.operation (r.withFaults call.faults) k = .keeps ∧
      LeavesAlone k (call.operation.apply (r.withFaults call.faults)) calls

variable {S} {r r' s s' : Replica} {k : String} {effect : KeyEffect α}

/-- The same is done to the same row. -/
theorem Follows.row_eq (h : S.Follows k r s effect) (h' : S.Follows k r' s' effect)
    (hthrough : effect.IsThrough) (hrow : (S.rows r').get? k = (S.rows r).get? k) :
    (S.rows s').get? k = (S.rows s).get? k := by
  cases effect with
  | keeps => rw [h.2, h'.2, hrow]
  | writes a => rw [h.2, h'.2]
  | files a => exact absurd hthrough id
  | bypasses a => exact absurd hthrough id
  | removes => rw [h.2, h'.2]

theorem Matches.shown_eq (h : S.Matches k r r') : S.shown r k = S.shown r' k :=
  shown_eq_of_faithful h.left h.right h.row_eq

/-- A key that is written or removed matches, whatever there was before. -/
theorem Follows.matches_of_isFinal (h : S.Follows k r s effect) (h' : S.Follows k r' s' effect)
    (hfinal : effect.IsFinal) (hreadable : ∀ a ∈ effect.entity?, S.IsReadable a) :
    S.Matches k s s' := by
  cases effect with
  | writes a =>
      have ha := hreadable a rfl
      exact ⟨h'.2.trans h.2.symm, h.faithful_of_writes ha, h'.faithful_of_writes ha⟩
  | removes =>
      exact ⟨h'.2.trans h.2.symm, faithful_of_uncached h.1, faithful_of_uncached h'.1⟩
  | keeps => exact absurd hfinal id
  | files a => exact absurd hfinal id
  | bypasses a => exact absurd hfinal id

theorem Follows.keeps_trans (h : S.Follows k r r' .keeps) (h' : S.Follows k r' s .keeps) :
    S.Follows k r s .keeps :=
  ⟨fun b hb => h.1 b (h'.1 b hb), h'.2.trans h.2⟩

namespace Lawful

variable (hS : S.Lawful)
include hS

/-- A successful insert of a key resets it. -/
theorem resets_insert {as : List α} {faults : StoreCall → Option StoreError}
    (hk : k ∈ as.map key) (hok : faults (S.putCall (as.map key)) = none) (r r' : Replica) :
    S.Resets k ⟨S.insertOperation as, faults⟩ r r' := by
  cases hlast : lastOfKey as k with
  | none => exact absurd hk (lastOfKey_eq_none_iff.1 hlast)
  | some a =>
      have heffect : ∀ s : Replica,
          S.effect (S.insertOperation as) (s.withFaults faults) k = .writes a := by
        intro s
        have hfault : (s.withFaults faults).faults (S.putCall (as.map key)) = none := hok
        rw [hS.effect_insertOperation, hfault, KeyEffect.ofBatch, hlast]
        rfl
      exact ⟨.writes a, trivial, heffect r, heffect r'⟩

/-- Calls that do nothing to a key keep it. -/
theorem follows_after_of_leavesAlone {calls : List OperationCall} (h : S.LeavesAlone k r calls) :
    S.Follows k r (r.after calls) .keeps := by
  induction calls generalizing r with
  | nil => exact ⟨fun b hb => hb, rfl⟩
  | cons call calls ih =>
      have hcall := hS.follows_call call r k
      rw [h.1] at hcall
      exact hcall.keeps_trans (ih h.2)

/-- A key that matches still does after a call that writes it, if at all, with success. -/
theorem matches_call {call : OperationCall} (hr : r.IsLegible) (hr' : r'.IsLegible)
    (hsound : call.IsSound) (hcommits : S.Commits k call) (hk : S.isBypassed k = false)
    (h : S.Matches k r r') :
    S.Matches k (call.operation.apply (r.withFaults call.faults))
      (call.operation.apply (r'.withFaults call.faults)) := by
  have hshown : S.shown (r'.withFaults call.faults) k = S.shown (r.withFaults call.faults) k := by
    rw [(hS.spares_withFaults r call.faults).shown_eq, (hS.spares_withFaults r' _).shown_eq]
    exact h.shown_eq.symm
  -- the same is shown of the key, so the call does the same to it
  have heffect : S.effect call.operation (r'.withFaults call.faults) k
      = S.effect call.operation (r.withFaults call.faults) k :=
    hS.effect_congr call.operation rfl hsound.reads (hr.withFaults _) (hr'.withFaults _) hshown
  have hfollows := hS.follows_call call r k
  have hfollows' := hS.follows_call call r' k
  rw [heffect] at hfollows'
  exact ⟨hfollows.row_eq hfollows' (hS.isThrough_effect call.operation hcommits hk) h.row_eq,
    hS.faithful_call hr hsound.readable hcommits hk h.left,
    hS.faithful_call hr' hsound.readable hcommits hk h.right⟩

theorem matches_after {calls : List OperationCall} (hr : r.IsLegible) (hr' : r'.IsLegible)
    (hsound : ∀ call ∈ calls, call.IsSound) (hcommits : ∀ call ∈ calls, S.Commits k call)
    (hk : S.isBypassed k = false) (h : S.Matches k r r') :
    S.Matches k (r.after calls) (r'.after calls) := by
  induction calls generalizing r r' with
  | nil => exact h
  | cons call calls ih =>
      obtain ⟨hcall, hrest⟩ := List.forall_mem_cons.1 hsound
      obtain ⟨hput, hputs⟩ := List.forall_mem_cons.1 hcommits
      exact ih ((hr.withFaults _).apply hcall.readable) ((hr'.withFaults _).apply hcall.readable)
        hrest hputs (hS.matches_call hr hr' hcall hput hk h)

/-- A key matches after a call that resets it. -/
theorem matches_of_resets {call : OperationCall} (hr : r.IsLegible)
    (hreadable : call.operation.IsReadable) (h : S.Resets k call r r') :
    S.Matches k (call.operation.apply (r.withFaults call.faults))
      (call.operation.apply (r'.withFaults call.faults)) := by
  obtain ⟨effect, hfinal, heffect, heffect'⟩ := h
  have hfollows := hS.follows_call call r k
  have hfollows' := hS.follows_call call r' k
  have hentity := hS.isReadable_effect hreadable (hr.withFaults call.faults) k
  rw [heffect] at hfollows hentity
  rw [heffect'] at hfollows'
  exact hfollows.matches_of_isFinal hfollows' hfinal hentity

/-- A failed insert files the last entity of each of its keys. -/
theorem follows_failed {as : List α} {e : StoreError} (h : (S.insert as r).1 = .error e)
    (k : String) : S.Follows k r (S.insert as r).2 (.ofBatch (some e) as k) := by
  have hfollows := hS.follows (S.insertOperation as) r k
  rw [hS.apply_insertOperation, hS.effect_insertOperation, (hS.insert_error h).1] at hfollows
  exact hfollows

end Lawful

end Shelf

/-! ## With the insert and without it -/

/-- An insert that fails, with what is called before and after it. -/
structure FailedInsert (α : Type) where
  start : Replica
  before : List OperationCall
  /-- How the medium fails the insert. -/
  faults : StoreCall → Option StoreError
  batch : List α
  later : List OperationCall

namespace FailedInsert

variable {α : Type} (x : FailedInsert α)

/-- The replica that the insert is called on. -/
def reached : Replica := (x.start.after x.before).withFaults x.faults

/-- The replica in the end if the insert was not called; the medium has recovered. -/
def withoutInsert : Replica := (x.reached.after x.later).recovered

variable [Keyed α] (S : Shelf α)

/-- The replica right after the insert. -/
def failed : Replica := (S.insert x.batch x.reached).2

/-- The replica in the end; the medium has recovered. -/
def withInsert : Replica := ((x.failed S).after x.later).recovered

/-- The insert fails in a run in which all that is written can be read back, and the medium fails no
reads of the calls after it. -/
structure IsSound : Prop where
  start : ∃ db currentUser userCapacity channelCapacity messageCapacity, db.HoldsReadable ∧
    x.start = .new db currentUser userCapacity channelCapacity messageCapacity
  before : ∀ call ∈ x.before, call.operation.IsReadable
  batch : ∀ a ∈ x.batch, S.IsReadable a
  fails : ∃ e, (S.insert x.batch x.reached).1 = .error e
  later : ∀ call ∈ x.later, call.IsSound

end FailedInsert

namespace Shelf

variable {α : Type} [Keyed α] (S : Shelf α)

/-- The failure of the insert does not matter to a key, at least in the end. -/
inductive Unaffected (x : FailedInsert α) (k : String) : Prop where
  /-- The key is not in the batch, and its own writes succeed. -/
  | spared (notInBatch : k ∉ x.batch.map key)
      (commits : ∀ call ∈ x.before ++ x.later, S.Commits k call)
  /-- After the insert the key was written or removed, and its own writes succeed from then on. -/
  | reset (earlier : List OperationCall) (call : OperationCall) (rest : List OperationCall)
      (later_eq : x.later = earlier ++ call :: rest)
      (resets : S.Resets k call ((x.failed S).after earlier) (x.reached.after earlier))
      (commits : ∀ call ∈ rest, S.Commits k call)

/-- What an insert leaves behind that fails. Nothing is said of keys that are also written past the
cache. -/
structure Unsaved (x : FailedInsert α) : Prop where
  database_eq : (x.failed S).database = x.reached.database
  select : ∀ k, S.isBypassed k = false → S.Unaffected x k →
    S.SelectsAlike k (x.withInsert S) x.withoutInsert
  selectMany : ∀ ks, (∀ k ∈ ks, S.isBypassed k = false ∧ S.Unaffected x k) →
    S.SelectsManyAlike ks (x.withInsert S) x.withoutInsert
  /-- An insert that succeeds resets the keys of its batch. -/
  resets_insert : ∀ (as : List α) (faults : StoreCall → Option StoreError) (k : String)
    (r r' : Replica), k ∈ as.map key → faults (S.putCall (as.map key)) = none →
      S.Resets k ⟨S.insertOperation as, faults⟩ r r'
  /-- As long as nothing is done to a key of the batch, its last entity in the batch is shown while
  it is cached, and what was shown before the insert once it is not. -/
  standing : ∀ k a, lastOfKey x.batch k = some a → S.isBypassed k = false →
    (∀ call ∈ x.before, S.Commits k call) → S.LeavesAlone k (x.failed S) x.later →
      ((S.cache (x.withInsert S)).peek? k = some a ∧
        (S.select k (x.withInsert S)).1 = .ok (some a)) ∨
      ((S.cache (x.withInsert S)).peek? k = none ∧
        S.SelectsAlike k (x.withInsert S) x.reached.recovered)

end Shelf

namespace FailedInsert.IsSound

variable {α : Type} [Keyed α] {S : Shelf α} {x : FailedInsert α} (hS : S.Lawful)
  (hx : x.IsSound S)
include hx

theorem isLegible_start : x.start.IsLegible := by
  obtain ⟨db, currentUser, _, _, _, hdb, hstart⟩ := hx.start
  rw [hstart]
  exact .new hdb _ _ _ _

theorem isLegible_reached : x.reached.IsLegible :=
  (hx.isLegible_start.after hx.before).withFaults _

include hS

theorem isLegible_failed : (x.failed S).IsLegible := by
  have hinsert := hx.isLegible_reached.apply (hS.isReadable_insertOperation hx.batch)
  rwa [hS.apply_insertOperation] at hinsert

/-- Both runs end legible, and without faults. -/
theorem isLegible_end : (x.withInsert S).IsLegible ∧ x.withoutInsert.IsLegible :=
  ⟨((hx.isLegible_failed hS).after fun call hcall => (hx.later call hcall).readable).recovered,
    (hx.isLegible_reached.after fun call hcall => (hx.later call hcall).readable).recovered⟩

theorem faithful_reached {k : String} (hk : S.isBypassed k = false)
    (hcommits : ∀ call ∈ x.before, S.Commits k call) : S.Faithful x.reached k := by
  have hstart : S.Faithful x.start k := by
    obtain ⟨db, currentUser, _, _, _, _, hstart⟩ := hx.start
    rw [hstart]
    exact hS.faithful_new _ _ _ _ _ k
  have hbefore := hS.faithful_after hx.isLegible_start hx.before hcommits hk hstart
  exact (hS.spares_withFaults _ _).faithful hbefore

/-- A key outside the batch matches right after the insert. -/
theorem matches_failed {k : String} (hk : S.isBypassed k = false) (hbatch : k ∉ x.batch.map key)
    (hcommits : ∀ call ∈ x.before, S.Commits k call) : S.Matches k (x.failed S) x.reached := by
  obtain ⟨e, hfails⟩ := hx.fails
  have hfollows := hS.follows_failed hfails k
  rw [KeyEffect.ofBatch_of_not_mem hbatch] at hfollows
  have hfaithful := hx.faithful_reached hS hk hcommits
  have hkept : S.Faithful (x.failed S) k :=
    hfollows.faithful trivial (fun _ ha => absurd ha KeyEffect.not_mem_entity?_keeps) hfaithful
  exact ⟨hfollows.2.symm, hkept, hfaithful⟩

/-- Unaffected keys match in the end. -/
theorem matches_end {k : String} (hk : S.isBypassed k = false) (h : S.Unaffected x k) :
    S.Matches k ((x.failed S).after x.later) (x.reached.after x.later) := by
  have hfailed := hx.isLegible_failed hS
  have hreached := hx.isLegible_reached
  cases h with
  | spared hbatch hcommits =>
      obtain ⟨hbefore, hlater⟩ := List.forall_mem_append.1 hcommits
      exact hS.matches_after hfailed hreached hx.later hlater hk
        (hx.matches_failed hS hk hbatch hbefore)
  | reset earlier call rest hsplit hresets hcommits =>
      -- up to the call that resets the key the runs may differ in it
      have hsound := hx.later
      rw [hsplit] at hsound ⊢
      obtain ⟨hearlier, htail⟩ := List.forall_mem_append.1 hsound
      obtain ⟨hcall, hrest⟩ := List.forall_mem_cons.1 htail
      have hleft := hfailed.after fun c hc => (hearlier c hc).readable
      have hright := hreached.after fun c hc => (hearlier c hc).readable
      rw [Replica.after_append, Replica.after_append, Replica.after_cons, Replica.after_cons]
      exact hS.matches_after ((hleft.withFaults _).apply hcall.readable)
        ((hright.withFaults _).apply hcall.readable) hrest hcommits hk
        (hS.matches_of_resets hleft hcall.readable hresets)

/-- The two runs show the same of an unaffected key. -/
theorem shown_eq {k : String} (hk : S.isBypassed k = false) (h : S.Unaffected x k) :
    S.shown (x.withInsert S) k = S.shown x.withoutInsert k := by
  have hleft := (hS.spares_withFaults ((x.failed S).after x.later) fun _ => none).shown_eq
  have hright := (hS.spares_withFaults (x.reached.after x.later) fun _ => none).shown_eq
  calc S.shown (x.withInsert S) k
      = S.shown ((x.failed S).after x.later) k := congrFun hleft k
    _ = S.shown (x.reached.after x.later) k := (hx.matches_end hS hk h).shown_eq
    _ = S.shown x.withoutInsert k := (congrFun hright k).symm

/-- What is shown of a key of the batch to which nothing was done since. -/
theorem standing {k : String} {a : α} (hlast : lastOfKey x.batch k = some a)
    (hk : S.isBypassed k = false) (hcommits : ∀ call ∈ x.before, S.Commits k call)
    (halone : S.LeavesAlone k (x.failed S) x.later) :
    ((S.cache (x.withInsert S)).peek? k = some a ∧
      (S.select k (x.withInsert S)).1 = .ok (some a)) ∨
    ((S.cache (x.withInsert S)).peek? k = none ∧
      S.SelectsAlike k (x.withInsert S) x.reached.recovered) := by
  obtain ⟨e, hfails⟩ := hx.fails
  have hbatch : S.Follows k x.reached (x.failed S) (.files a) := by
    have hfollows := hS.follows_failed hfails k
    rwa [KeyEffect.ofBatch, hlast] at hfollows
  have hkeeps := hS.follows_after_of_leavesAlone halone
  have hspares := hS.spares_withFaults ((x.failed S).after x.later) fun _ => none
  have hcached : ∀ b, (S.cache (x.withInsert S)).peek? k = some b → b = a := by
    intro b hb
    rw [withInsert, Replica.recovered, hspares.cache_eq] at hb
    exact hbatch.1 b (hkeeps.1 b hb)
  -- once the entity of the batch is given up, only the row is left, as it was before the insert
  cases hpeek : (S.cache (x.withInsert S)).peek? k with
  | some b =>
      obtain rfl := hcached b hpeek
      exact .inl ⟨rfl, hS.select_cached hpeek⟩
  | none =>
      have hrow : (S.rows x.reached.recovered).get? k = (S.rows (x.withInsert S)).get? k := by
        rw [withInsert, Replica.recovered, Replica.recovered, hspares.rows_eq, hkeeps.2, hbatch.2,
          (hS.spares_withFaults x.reached fun _ => none).rows_eq]
      have hfaithful := (hS.spares_withFaults x.reached fun _ => none).faithful
        (hx.faithful_reached hS hk hcommits)
      have hshown : S.shown (x.withInsert S) k = S.shown x.reached.recovered k :=
        Shelf.shown_eq_of_faithful (Shelf.faithful_of_uncached hpeek) hfaithful hrow
      exact .inr ⟨rfl, hS.selectsAlike (Replica.isFaultless_recovered _) (hx.isLegible_end hS).1
        (Replica.isFaultless_recovered _) hx.isLegible_reached.recovered hshown⟩

/-- What an insert into a lawful shelf leaves behind that fails. -/
theorem unsaved_of_lawful : S.Unsaved x where
  database_eq := by
    obtain ⟨e, hfails⟩ := hx.fails
    exact (hS.insert_error hfails).2
  select k hk h := hS.selectsAlike (Replica.isFaultless_recovered _) (hx.isLegible_end hS).1
    (Replica.isFaultless_recovered _) (hx.isLegible_end hS).2 (hx.shown_eq hS hk h)
  selectMany ks h := hS.selectsManyAlike (Replica.isFaultless_recovered _) (hx.isLegible_end hS).1
    (Replica.isFaultless_recovered _) (hx.isLegible_end hS).2
    fun k hk => hx.shown_eq hS (h k hk).1 (h k hk).2
  resets_insert _ _ _ r r' hk hok := hS.resets_insert hk hok r r'
  standing k a hlast hk hcommits halone := hx.standing hS hlast hk hcommits halone

end FailedInsert.IsSound

/-! ## The three repositories -/

namespace FailedInsert

/-- **What a failed insert leaves behind**, in each of the three repositories: the database is as it
was; reads of keys that are not in the batch, or that were written or removed since, give what they
would have given without the insert; and a key of the batch is shown as the insert would have left
it, but only while it is cached and nothing else was done to it. -/
theorem unsaved :
    (∀ x : FailedInsert User, x.IsSound userShelf → userShelf.Unsaved x) ∧
    (∀ x : FailedInsert Channel, x.IsSound channelShelf → channelShelf.Unsaved x) ∧
    (∀ x : FailedInsert Message, x.IsSound messageShelf → messageShelf.Unsaved x) :=
  ⟨fun _ hx => hx.unsaved_of_lawful userShelf_lawful,
    fun _ hx => hx.unsaved_of_lawful channelShelf_lawful,
    fun _ hx => hx.unsaved_of_lawful messageShelf_lawful⟩

/-- The medium fails just this call. -/
def failing (c : StoreCall) : StoreCall → Option StoreError :=
  fun other => if other = c then some (.medium "full") else none

/-- The channel `team:a` is not saved, over a cache with room for one channel that another was
inserted into before. -/
def secondFails (first : OperationCall) (later : List OperationCall) : FailedInsert Channel where
  start := .new (.create none) none 1 1 1
  before := [first]
  faults := failing (.putChannels ["team:a"])
  batch := [.new "team" "a"]
  later := later

/-- The first channel is shown as it was saved, and the second one as it was saved in the end. -/
theorem unsaved_secondFails :
    let x := secondFails ⟨.insertChannels [.new "team" "b"], fun _ => none⟩
      [⟨.insertChannels [{ Channel.new "team" "a" with frozen := true }], fun _ => none⟩]
    channelShelf.SelectsManyAlike ["team:a", "team:b"] (x.withInsert channelShelf)
      x.withoutInsert := by
  intro x
  have hsound : x.IsSound channelShelf := by
    refine ⟨⟨.create none, none, 1, 1, 1, Database.holdsReadable_create none, rfl⟩, ?_, ?_,
      ⟨.medium "full", rfl⟩, ?_⟩
    · intro call hcall
      obtain rfl := List.mem_singleton.1 hcall
      intro c hc
      exact List.mem_singleton.1 hc ▸ Channel.isReadable_new "team" "b"
    · intro c hc
      exact List.mem_singleton.1 hc ▸ Channel.isReadable_new "team" "a"
    · intro call hcall
      obtain rfl := List.mem_singleton.1 hcall
      refine ⟨fun c hc => ?_, fun _ _ => rfl⟩
      obtain rfl := List.mem_singleton.1 hc
      exact Channel.isReadable_new "team" "a"
  refine (unsaved.2.1 x hsound).selectMany _ fun k hk => ⟨rfl, ?_⟩
  rcases List.mem_cons.1 hk with rfl | hk
  · have hresets : ∀ r r', channelShelf.Resets "team:a"
        ⟨.insertChannels [{ Channel.new "team" "a" with frozen := true }], fun _ => none⟩ r r' :=
      channelShelf_lawful.resets_insert (List.mem_singleton.2 rfl) rfl
    exact .reset [] _ [] rfl (hresets _ _) fun call hcall => absurd hcall List.not_mem_nil
  · obtain rfl := List.mem_singleton.1 hk
    have hother : "team:b" ∉ [Channel.new "team" "a"].map key := by decide
    refine .spared hother fun call hcall => ?_
    have hfaults : call.faults = fun _ => none := by
      rcases List.mem_cons.1 hcall with rfl | hcall
      · rfl
      · exact List.mem_singleton.1 hcall ▸ rfl
    exact fun _ _ => congrFun hfaults _

/-- A message with this author. -/
def messageFrom (author : User) : Message := { (default : Message) with id := "m1", user := author }

/-- A message is not saved, over a cache with room for one message, which another one has; its
author was banned since. -/
def secondMessageFails : FailedInsert Message where
  start := .new (.create none) none 1 1 1
  before := [⟨.insertMessages [messageFrom (.new "alice")] true, fun _ => none⟩,
    ⟨.insertUsers [{ User.new "alice" with banned := true }], fun _ => none⟩]
  faults := failing (.putMessages ["m2"])
  batch := [{ (default : Message) with id := "m2" }]
  later := []

/-- A user is not saved, over a cache with room for one user, which an old session user has. -/
def secondUserFails : FailedInsert User where
  start := .new (.create none) none 1 1 1
  before := [⟨.insertUsers [.new sessionUserId], fun _ => none⟩,
    ⟨.insertMe { User.new "alice" with banned := true }, fun _ => none⟩]
  faults := failing (.putUsers ["bob"])
  batch := [.new "bob"]
  later := []

/-- **A failed insert is visible**: the channel that was not saved is shown. It also takes the place
of another entity in the cache. That shows if the other one was not saved either, if its row cannot
be read, if the medium fails to read it when it is to get a new last message, if it is a message
whose author has changed, and if it is the session user. -/
theorem failed_insert_visible :
    let saved := secondFails ⟨.insertChannels [.new "team" "b"], fun _ => none⟩ []
    let lost := secondFails
      ⟨.insertChannels [.new "team" "b"], failing (.putChannels ["team:b"])⟩ []
    let unreadable := secondFails ⟨.insertChannels [{ Channel.new "team" "b" with
      updatedAt := some Database.year10000 }], fun _ => none⟩ []
    let message : Message :=
      { (default : Message) with id := "m1", createdAt := some Database.leapSecond }
    let missed := secondFails ⟨.insertChannels [.new "team" "b"], fun _ => none⟩
      [⟨.updateLastMessage "team:b" message, failing (.channel "team:b")⟩]
    ((Channels.select "team:a" (saved.withInsert channelShelf)).1
        = .ok (some (.new "team" "a")) ∧
      (Channels.select "team:a" saved.withoutInsert).1 = .ok none) ∧
    ((Channels.select "team:b" (lost.withInsert channelShelf)).1 = .ok none ∧
      (Channels.select "team:b" lost.withoutInsert).1 = .ok (some (.new "team" "b"))) ∧
    ((Channels.select "team:b" (unreadable.withInsert channelShelf)).1
        = .error (.unreadable 11 .timestamp) ∧
      (Channels.select "team:b" unreadable.withoutInsert).1
        = .ok (some { Channel.new "team" "b" with updatedAt := some Database.year10000 })) ∧
    ((Channels.select "team:b" (missed.withInsert channelShelf)).1
        = .ok (some (.new "team" "b")) ∧
      (Channels.select "team:b" missed.withoutInsert).1
        = .ok (some ((Channel.new "team" "b").withLastMessage "m1" Database.leapSecond))) ∧
    ((Messages.select "m1" (secondMessageFails.withInsert messageShelf)).1
        = .ok (some (messageFrom { User.new "alice" with banned := true })) ∧
      (Messages.select "m1" secondMessageFails.withoutInsert).1
        = .ok (some (messageFrom (.new "alice")))) ∧
    ((Users.select sessionUserId (secondUserFails.withInsert userShelf)).1
        = .ok (some { User.new sessionUserId with banned := true }) ∧
      (Users.select sessionUserId secondUserFails.withoutInsert).1
        = .ok (some (.new sessionUserId))) :=
  ⟨⟨rfl, rfl⟩, ⟨rfl, rfl⟩, ⟨rfl, rfl⟩, ⟨rfl, rfl⟩, ⟨rfl, rfl⟩, ⟨rfl, rfl⟩⟩

end FailedInsert

end OfflineChat
