import OfflineChat.Proofs.Sync.WholePass
import OfflineChat.Tool.Backend

/-! # Passes through the simulated service

The simulated service numbers what is submitted to it and answers by the numbers alone. So the
numbers of its submissions say what a complete pass has left, and dividing says how many of them
were rejected, whatever the pages were. Main definitions: `Backend.Rejects` and
`Backend.rejections`, `Backend.settled`, what a submission makes of its entity, and `SimulatedPass`,
what a complete pass comes to. Main statements: the rejections among consecutive numbers
(`Backend.countP_rejects`), and that complete passes are simulated ones
(`CompletePass.simulatedPass`). -/

set_option autoImplicit false

namespace OfflineChat

/-! ## The numbers of submissions -/

namespace Backend

/-- A submission is rejected if its number is a multiple of the given one, which is not 0. -/
def Rejects (failEvery : Option Nat) (submission : Nat) : Prop :=
  ∃ k ∈ failEvery, 0 < k ∧ k ∣ submission

instance (failEvery : Option Nat) (submission : Nat) : Decidable (Rejects failEvery submission) :=
  match failEvery with
  | none => .isFalse (by simp [Rejects])
  | some k => decidable_of_iff (0 < k ∧ k ∣ submission) (by simp [Rejects])

/-- The number of rejections among the first `n` submissions; a division by 0 gives 0. -/
def rejections (failEvery : Option Nat) (n : Nat) : Nat := failEvery.elim 0 fun k => n / k

theorem rejections_zero (failEvery : Option Nat) : rejections failEvery 0 = 0 := by
  cases failEvery <;> simp [rejections]

theorem rejections_succ (failEvery : Option Nat) (n : Nat) :
    rejections failEvery (n + 1)
      = rejections failEvery n + if Rejects failEvery (n + 1) then 1 else 0 := by
  cases failEvery with
  | none => simp [rejections, Rejects]
  | some k =>
      simp only [rejections, Option.elim_some, Rejects, Option.mem_some_iff, exists_eq_left']
      rw [Nat.succ_div]
      cases k with
      | zero => simp
      | succ k => simp

/-- Counting the rejections of consecutive submissions one by one is dividing. -/
theorem countP_rejects {α : Type} (failEvery : Option Nat) (as : List α) (n : Nat) :
    rejections failEvery n + (as.zipIdx (n + 1)).countP (fun p => Rejects failEvery p.2)
      = rejections failEvery (n + as.length) := by
  induction as generalizing n with
  | nil => simp
  | cons a as ih =>
      have hlength : n + 1 + as.length = n + (a :: as).length := by
        rw [List.length_cons]
        omega
      calc rejections failEvery n
              + ((a :: as).zipIdx (n + 1)).countP (fun p => Rejects failEvery p.2)
          = rejections failEvery n + (if Rejects failEvery (n + 1) then 1 else 0)
              + (as.zipIdx (n + 1 + 1)).countP (fun p => Rejects failEvery p.2) := by
            rw [List.zipIdx_cons, List.countP_cons]
            simp only [decide_eq_true_eq]
            omega
        _ = rejections failEvery (n + 1)
              + (as.zipIdx (n + 1 + 1)).countP (fun p => Rejects failEvery p.2) := by
            rw [rejections_succ]
        _ = rejections failEvery (n + 1 + as.length) := ih (n + 1)
        _ = rejections failEvery (n + (a :: as).length) := by rw [hlength]

/-- The rejection of a submission. -/
def rejectionOf (submission : Nat) : RemoteError :=
  .network RemoteError.moderationCode 400 s!"submission {submission} rejected by simulated backend"

/-- The reason that is noted on a rejected message. -/
def rejectionReason (submission : Nat) : String :=
  s!"message failed moderation: submission {submission} rejected by simulated backend"

theorem reason_rejectionOf (submission : Nat) :
    (rejectionOf submission).reason = rejectionReason submission := by
  have hreason : (rejectionOf submission).reason
      = "message failed moderation: " ++ ("submission " ++ toString submission
        ++ " rejected by simulated backend") := rfl
  have hprefix : "message failed moderation: submission "
      = "message failed moderation: " ++ "submission " := by decide
  rw [hreason, String.append_assoc, ← String.append_assoc, ← hprefix, ← String.append_assoc]
  rfl

theorem rejection?_eq (failEvery : Option Nat) (submission : Nat) :
    rejection? failEvery submission
      = if Rejects failEvery submission then some (rejectionOf submission) else none := by
  cases failEvery with
  | none => simp [rejection?, Rejects]
  | some k =>
      simp only [rejection?, Rejects, Option.mem_some_iff, exists_eq_left', Nat.dvd_iff_mod_eq_zero]
      rfl

variable {ε : Type}

/-- The answer to the submission with a number; its acknowledgement is given. -/
def verdict (failEvery : Option Nat) (submission : Nat) (acknowledged : ε) : Answer ε :=
  if Rejects failEvery submission then .error (rejectionOf submission) else .ok acknowledged

theorem answer_eq (failEvery : Option Nat) (acknowledged : ε) (n : Nat) :
    answer failEvery acknowledged n = (some (verdict failEvery (n + 1) acknowledged), n + 1) := by
  unfold answer verdict
  rw [rejection?_eq]
  by_cases hrejects : Rejects failEvery (n + 1) <;> simp [hrejects]

/-- The submissions of a list, with their numbers. -/
theorem submitAll_answer {failEvery : Option Nat} {send : ε → Nat → Option (Answer ε) × Nat}
    {acknowledged : ε → ε} (hsend : ∀ e n, send e n = answer failEvery (acknowledged e) n)
    (es : List ε) (n : Nat) :
    RetryPass.submitAll send es n
      = ((es.zipIdx (n + 1)).map fun p => (p.1, some (verdict failEvery p.2 (acknowledged p.1))),
          n + es.length) := by
  induction es generalizing n with
  | nil => rfl
  | cons e es ih =>
      have hlength : n + 1 + es.length = n + (es.length + 1) := by omega
      simp only [RetryPass.submitAll, hsend, answer_eq, ih, hlength, List.zipIdx_cons,
        List.map_cons, List.length_cons]

/-- The status that the submission with a number leads to. -/
def finalStatus (failEvery : Option Nat) (submission : Nat) : SyncStatus :=
  if Rejects failEvery submission then .failedPermanently else .completed

theorem finalStatus_eq_failed_iff {failEvery : Option Nat} {submission : Nat} :
    finalStatus failEvery submission = .failedPermanently ↔ Rejects failEvery submission := by
  unfold finalStatus
  split <;> simp_all

theorem finalStatus_ne_syncNeeded (failEvery : Option Nat) (submission : Nat) :
    finalStatus failEvery submission ≠ .syncNeeded := by
  unfold finalStatus
  split <;> simp

variable [Syncable ε]

/-- What becomes of an entity whose submission has a number, when its acknowledgement is given. -/
def settled (failEvery : Option Nat) (now : Instant) (submission : Nat) (e acknowledged : ε) : ε :=
  if Rejects failEvery submission then Syncable.rejected e (rejectionReason submission) now
  else Syncable.withStatus acknowledged .completed

theorem status_settled (failEvery : Option Nat) (now : Instant) (submission : Nat)
    (e acknowledged : ε) : Syncable.status (settled failEvery now submission e acknowledged)
      = finalStatus failEvery submission := by
  unfold settled finalStatus
  split
  · exact Syncable.status_rejected _ _ _
  · exact Syncable.status_withStatus _ _

/-- How the submission with a number ends. -/
def outcome (failEvery : Option Nat) (now : Instant) (submission : Nat) (e acknowledged : ε) :
    Outcome ε :=
  if Rejects failEvery submission
  then .failedPermanently (settled failEvery now submission e acknowledged)
  else .completed (settled failEvery now submission e acknowledged)

section

variable (failEvery : Option Nat) (now : Instant) (submission : Nat) (e acknowledged : ε)

@[simp] theorem entity_outcome : (outcome failEvery now submission e acknowledged).entity
    = settled failEvery now submission e acknowledged := by
  unfold outcome
  split <;> rfl

@[simp] theorem isFailed_outcome : (outcome failEvery now submission e acknowledged).isFailed
    = decide (finalStatus failEvery submission = .failedPermanently) := by
  unfold outcome finalStatus
  split <;> simp [Outcome.isFailed]

@[simp] theorem isCompleted_outcome :
    (outcome failEvery now submission e acknowledged).isCompleted
      = decide (finalStatus failEvery submission = .completed) := by
  unfold outcome finalStatus
  split <;> simp [Outcome.isCompleted]

@[simp] theorem isPending_outcome :
    (outcome failEvery now submission e acknowledged).isPending = false := by
  unfold outcome
  split <;> rfl

variable {e acknowledged}

/-- The standard judgement makes a rejection permanent, and an acknowledgement completes. -/
theorem resolve_verdict (hstatus : Syncable.status e = .syncNeeded)
    (hkey : key acknowledged = key e) :
    Outcome.resolve .standard now e (verdict failEvery submission acknowledged)
      = outcome failEvery now submission e acknowledged := by
  have hterminal : (Syncable.status e).isTerminal = false := by rw [hstatus]; rfl
  unfold Outcome.resolve verdict outcome settled
  rw [hterminal]
  by_cases hrejects : Rejects failEvery submission
  · have hpermanent : Classifier.standard (rejectionOf submission) (Syncable.cid e) = true := rfl
    simp [hrejects, hpermanent, reason_rejectionOf]
  · simp [hrejects, hkey]

end

end Backend

/-! ## Reports and tables -/

/-- The number of the keys whose rows have a status; `cell` is where it is held. -/
def Table.countStatus (t : Table Row) (cell : Row → Cell) (status : SyncStatus)
    (keys : List String) : Nat :=
  keys.countP fun k => (t.get? k).any fun row => cell row == .integer status.code

/-- A report tells how the rows of the submitted keys stand, none of which is pending. -/
structure RetryReport.Tells (report : RetryReport) (t : Table Row) (cell : Row → Cell)
    (keys : List String) : Prop where
  submitted_eq : report.submitted = keys.length
  completed_eq : report.completed = t.countStatus cell .completed keys
  failed_eq : report.failedPermanently = t.countStatus cell .failedPermanently keys
  pending_eq : report.stillPending = 0
  all_eq : report.completed + report.failedPermanently = report.submitted

/-! ## A pass through the simulated service -/

section

variable {σ ε : Type} [Syncable ε] {x : Exchange σ ε}

/-- The simulated service stands behind an exchange; `acknowledged` is what it makes of entities. -/
structure Backing.IsSimulated (B : Backing x Nat) (failEvery : Option Nat)
    (acknowledged : ε → ε) : Prop where
  send_eq : ∀ e n, B.send e n = Backend.answer failEvery (acknowledged e) n
  key_eq : ∀ e, key (acknowledged e) = key e

/-- What a pass through the simulated service comes to that starts in `s` and ends in `s'`: the
entities `es` are submitted. -/
structure SimulatedPass (B : Backing x Nat) (failEvery : Option Nat) (now : Instant)
    (acknowledged : ε → ε) (s s' : σ) (report : RetryReport) (es : List ε) : Prop where
  submitted_eq : es.map some = (B.waiting s).map (B.entity s)
  remote_eq : B.remote s' = B.remote s + es.length
  /-- A submission with a number leaves the row that the number decides. -/
  stored : ∀ p ∈ es.zipIdx (B.remote s + 1), (B.rows s').get? (key p.1)
    = some (B.toRow (Backend.settled failEvery now p.2 p.1 (acknowledged p.1)))
  unchanged : ∀ k ∉ es.map key, (B.rows s').get? k = (B.rows s).get? k
  waiting_eq : B.waiting s' = []
  failed_eq : Backend.rejections failEvery (B.remote s) + report.failedPermanently
    = Backend.rejections failEvery (B.remote s + es.length)
  tells : report.Tells (B.rows s') B.statusCell (es.map key)

variable {B : Backing x Nat} {rules : SyncRules} {failEvery : Option Nat} {acknowledged : ε → ε}
  {s s' : σ} {report : RetryReport} {answered : List (ε × Answer ε)}

namespace CompletePass

variable (h : CompletePass B rules s s' report answered)
  (hB : B.IsSimulated failEvery acknowledged)
include h hB

/-- The service numbers the submissions and answers by their numbers. -/
theorem simulated_eq :
    answered = ((answered.map Prod.fst).zipIdx (B.remote s + 1)).map
        (fun p => (p.1, Backend.verdict failEvery p.2 (acknowledged p.1))) ∧
      B.remote s' = B.remote s + answered.length := by
  have hanswers := h.answers_eq
  rw [Backend.submitAll_answer hB.send_eq] at hanswers
  obtain ⟨hpairs, hremote⟩ := Prod.mk.inj hanswers
  refine ⟨?_, by rw [← hremote, List.length_map]⟩
  refine (List.map_inj_right (f := fun p : ε × Answer ε => (p.1, some p.2)) fun p q hpq => ?_).1 ?_
  · obtain ⟨he, ha⟩ := Prod.mk.inj hpq
    exact Prod.ext he (Option.some.inj ha)
  · rw [List.map_map]
    exact hpairs.symm

omit hB in
/-- What was submitted has waited. -/
theorem waits_of_mem {p : ε × Answer ε} (hp : p ∈ answered) :
    Syncable.status p.1 = .syncNeeded := by
  have hm : some p.1 ∈ (B.waiting s).map (B.entity s) := h.submitted_eq ▸ List.mem_map_of_mem hp
  obtain ⟨r, hr, he⟩ := List.mem_map.1 hm
  exact B.status_entity he (Backing.mem_waiting_iff.1 hr).2

theorem mem_answered_iff {q : ε × Answer ε} : q ∈ answered ↔
    ∃ p ∈ (answered.map Prod.fst).zipIdx (B.remote s + 1),
      q = (p.1, Backend.verdict failEvery p.2 (acknowledged p.1)) := by
  conv_lhs => rw [(h.simulated_eq hB).1]
  simp only [List.mem_map, eq_comm]

/-- Every submission ends as its number decides. -/
theorem resolveAll_eq (hclassifier : rules.classifier = .standard) :
    RetryPass.resolveAll rules answered
      = ((answered.map Prod.fst).zipIdx (B.remote s + 1)).map fun p =>
          Backend.outcome failEvery rules.now p.2 p.1 (acknowledged p.1) := by
  calc RetryPass.resolveAll rules answered
      = ((answered.map Prod.fst).zipIdx (B.remote s + 1)).map (fun p =>
          Outcome.resolve rules.classifier rules.now p.1
            (Backend.verdict failEvery p.2 (acknowledged p.1))) := by
        conv_lhs => rw [(h.simulated_eq hB).1]
        rw [RetryPass.resolveAll, List.map_map]
        rfl
    _ = ((answered.map Prod.fst).zipIdx (B.remote s + 1)).map (fun p =>
          Backend.outcome failEvery rules.now p.2 p.1 (acknowledged p.1)) := by
        refine List.map_congr_left fun p hp => ?_
        have hmem := (h.mem_answered_iff hB).2 ⟨p, hp, rfl⟩
        rw [hclassifier]
        exact Backend.resolve_verdict _ _ _ (h.waits_of_mem hmem) (hB.key_eq p.1)

/-- The row of a submission is the one that its number decides. -/
theorem stored_settled (hclassifier : rules.classifier = .standard) {p : ε × Nat}
    (hp : p ∈ (answered.map Prod.fst).zipIdx (B.remote s + 1)) :
    (B.rows s').get? (key p.1)
      = some (B.toRow (Backend.settled failEvery rules.now p.2 p.1 (acknowledged p.1))) := by
  have hmem := (h.mem_answered_iff hB).2 ⟨p, hp, rfl⟩
  have hstored := h.stored _ hmem
  rw [hclassifier, Backend.resolve_verdict _ _ _ (h.waits_of_mem hmem) (hB.key_eq p.1),
    Backend.entity_outcome] at hstored
  exact hstored

/-- How many of the submitted keys have a status is decided by the numbers of the submissions. -/
theorem countStatus_eq (hclassifier : rules.classifier = .standard) (status : SyncStatus) :
    (B.rows s').countStatus B.statusCell status ((answered.map Prod.fst).map key)
      = ((answered.map Prod.fst).zipIdx (B.remote s + 1)).countP fun p =>
          Backend.finalStatus failEvery p.2 = status := by
  have hkeys : (answered.map Prod.fst).map key
      = ((answered.map Prod.fst).zipIdx (B.remote s + 1)).map fun p => key p.1 := by
    conv_lhs => rw [← List.zipIdx_map_fst (B.remote s + 1) (answered.map Prod.fst), List.map_map]
    rfl
  rw [Table.countStatus, hkeys, List.countP_map]
  refine List.countP_congr fun p hp => ?_
  rw [Function.comp_apply, h.stored_settled hB hclassifier hp, Option.any_some, B.status_toRow,
    Backend.status_settled, beq_iff_eq, decide_eq_true_iff, Cell.integer.injEq]
  exact ⟨SyncStatus.code_injective, congrArg SyncStatus.code⟩

/-- The tally counts the outcomes that the numbers of the submissions decide. -/
theorem tally_eq (hclassifier : rules.classifier = .standard) :
    report.completed = ((answered.map Prod.fst).zipIdx (B.remote s + 1)).countP
        (fun p => Backend.finalStatus failEvery p.2 = .completed) ∧
      report.failedPermanently = ((answered.map Prod.fst).zipIdx (B.remote s + 1)).countP
        (fun p => Backend.finalStatus failEvery p.2 = .failedPermanently) ∧
      report.stillPending = 0 := by
  have hreport := h.report_eq
  rw [h.resolveAll_eq hB hclassifier] at hreport
  rw [hreport]
  simp only [RetryReport.tally, List.countP_map, Function.comp_def, Backend.isCompleted_outcome,
    Backend.isFailed_outcome, Backend.isPending_outcome, List.countP_false]
  exact ⟨trivial, trivial, rfl⟩

omit hB in
theorem keys_submitted : (answered.map Prod.fst).map key = (B.waiting s).map key := by
  have hread : (answered.map Prod.fst).map some = (B.waiting s).map (B.entity s) := by
    rw [List.map_map]
    exact h.submitted_eq
  exact Backing.keys_of_map_some hread

/-- No row waits afterwards: what was submitted is settled, and nothing else has waited. -/
theorem waiting_eq_nil (hclassifier : rules.classifier = .standard) : B.waiting s' = [] := by
  refine List.eq_nil_iff_forall_not_mem.2 fun row hrow => ?_
  obtain ⟨hrow, hstatus⟩ := Backing.mem_waiting_iff.1 hrow
  have hget := Table.get?_of_mem hrow
  by_cases hk : key row ∈ (answered.map Prod.fst).map key
  · rw [← List.zipIdx_map_fst (B.remote s + 1) (answered.map Prod.fst), List.map_map] at hk
    obtain ⟨p, hp, hkey⟩ := List.mem_map.1 hk
    have hsettled := h.stored_settled hB hclassifier hp
    rw [show key p.1 = key row from hkey, hget, Option.some.injEq] at hsettled
    rw [hsettled, B.status_toRow, Backend.status_settled] at hstatus
    exact Backend.finalStatus_ne_syncNeeded _ _
      (SyncStatus.code_injective (Cell.integer.inj hstatus))
  · rw [h.keys_submitted] at hk
    rw [h.unchanged _ hk] at hget
    exact hk ((Backing.status_iff_mem_waiting hget).1 hstatus)

/-- **A complete pass through the simulated service ends as the numbers of its submissions
decide.** -/
theorem simulatedPass (hclassifier : rules.classifier = .standard) :
    SimulatedPass B failEvery rules.now acknowledged s s' report (answered.map Prod.fst) := by
  obtain ⟨hcompleted, hfailed, hpending⟩ := h.tally_eq hB hclassifier
  have hkeys := h.keys_submitted
  constructor
  case submitted_eq => rw [List.map_map]; exact h.submitted_eq
  case remote_eq => rw [List.length_map]; exact (h.simulated_eq hB).2
  case stored => exact fun p hp => h.stored_settled hB hclassifier hp
  case unchanged => exact fun k hk => h.unchanged k (hkeys ▸ hk)
  case waiting_eq => exact h.waiting_eq_nil hB hclassifier
  case failed_eq =>
    simp only [hfailed, Backend.finalStatus_eq_failed_iff]
    exact Backend.countP_rejects _ _ _
  case tells =>
    have hlength : report.submitted = ((answered.map Prod.fst).map key).length := by
      rw [hkeys, List.length_map]
      exact h.submitted_count
    have hcount := h.outcome_count
    constructor
    case submitted_eq => exact hlength
    case completed_eq => exact hcompleted.trans (h.countStatus_eq hB hclassifier .completed).symm
    case failed_eq =>
      exact hfailed.trans (h.countStatus_eq hB hclassifier .failedPermanently).symm
    case pending_eq => exact hpending
    case all_eq =>
      rw [h.submitted_count]
      omega

end CompletePass

/-- Of two passes, one after the other, the second goes on with the numbers of the first. -/
theorem SimulatedPass.failed_add {τ ε' : Type} [Syncable ε'] {x' : Exchange τ ε'}
    {B' : Backing x' Nat} {now : Instant} {acknowledged' : ε' → ε'} {t t' : τ}
    {report' : RetryReport} {es : List ε} {es' : List ε'}
    (h : SimulatedPass B failEvery now acknowledged s s' report es)
    (h' : SimulatedPass B' failEvery now acknowledged' t t' report' es')
    (hnone : B.remote s = 0) (hnext : B'.remote t = es.length) :
    report.failedPermanently + report'.failedPermanently
      = Backend.rejections failEvery (es.length + es'.length) := by
  have hfirst := h.failed_eq
  have hsecond := h'.failed_eq
  rw [hnone, Backend.rejections_zero, Nat.zero_add, Nat.zero_add] at hfirst
  rw [hnext] at hsecond
  rw [hfirst, hsecond]

end

end OfflineChat
