import Mathlib.Data.List.Induction
import OfflineChat.Repository.Channels

/-! # The latest message

What messages make of a channel if they are announced to it one after another. Main definitions:
`IsLatest`, the latest of some times; `Channel.afterMessage`, what one message makes of a channel; and
`Channel.FollowsMaximum`, what many of them should have made of it. Main statement: a channel follows
the maximum, message by message (`Channel.followsMaximum_foldl`), so that the time of its last message
does not depend on the order in which messages come (`Channel.FollowsMaximum.lastMessageAt_eq`). -/

set_option autoImplicit false

namespace OfflineChat

/-! ## The latest of some times -/

/-- The latest of some times, if there are any. -/
structure IsLatest (times : List Instant) (t : Option Instant) : Prop where
  mem : ∀ s ∈ t, s ∈ times
  le : ∀ s ∈ times, ∃ u ∈ t, s ≤ u

namespace IsLatest

variable {times : List Instant} {s : Instant} {t t' : Option Instant}

theorem toList (t : Option Instant) : IsLatest t.toList t := by
  refine ⟨fun s hs => Option.mem_toList.2 hs, fun s hs => ?_⟩
  exact ⟨s, Option.mem_toList.1 hs, Int.le_refl _⟩

/-- A time that is not before the latest one is the latest now. -/
theorem concat_of_le (h : IsLatest times t) (hs : ∀ u ∈ t, u ≤ s) :
    IsLatest (times ++ [s]) (some s) := by
  refine ⟨fun u hu => ?_, fun u hu => ⟨s, rfl, ?_⟩⟩
  · obtain rfl := Option.some.inj hu
    exact List.mem_append_right _ (List.mem_singleton_self _)
  · rcases List.mem_append.1 hu with hu | hu
    · obtain ⟨v, hv, huv⟩ := h.le u hu
      exact Int.le_trans huv (hs v hv)
    · exact List.mem_singleton.1 hu ▸ Int.le_refl _

/-- A time before the latest one changes nothing. -/
theorem concat_of_lt {u : Instant} (h : IsLatest times (some u)) (hs : ¬u ≤ s) :
    IsLatest (times ++ [s]) (some u) := by
  refine ⟨fun v hv => List.mem_append_left _ (h.mem v hv), fun v hv => ?_⟩
  rcases List.mem_append.1 hv with hv | hv
  · exact h.le v hv
  · exact ⟨u, rfl, List.mem_singleton.1 hv ▸ (Instant.le_total u s).resolve_left hs⟩

/-- It does not matter in which order the times are listed. -/
theorem unique {times' : List Instant} (h : IsLatest times t) (h' : IsLatest times' t')
    (hsame : ∀ s, s ∈ times ↔ s ∈ times') : t = t' := by
  cases t with
  | none =>
      cases t' with
      | none => rfl
      | some u =>
          obtain ⟨v, hv, -⟩ := h.le u ((hsame u).2 (h'.mem u rfl))
          exact absurd hv (Option.not_mem_none _)
  | some s =>
      obtain ⟨u, hu, hsu⟩ := h'.le s ((hsame s).1 (h.mem s rfl))
      obtain ⟨v, hv, huv⟩ := h.le u ((hsame u).2 (h'.mem u hu))
      obtain rfl := Option.some.inj hv
      rw [Option.mem_def.1 hu, Instant.rank_injective (Int.le_antisymm hsu huv)]

end IsLatest

/-! ## What messages make of a channel -/

/-- The id of the last of these messages that has this time, if it is one. -/
def lastIdAt (time : Option Instant) (messages : List Message) : Option String :=
  (messages.reverse.find? fun m =>
    m.effectiveCreatedAt.isSome && decide (m.effectiveCreatedAt = time)).map Message.id

theorem lastIdAt_concat (time : Option Instant) (messages : List Message) (m : Message) :
    lastIdAt time (messages ++ [m])
      = if m.effectiveCreatedAt.isSome ∧ m.effectiveCreatedAt = time then some m.id
        else lastIdAt time messages := by
  unfold lastIdAt
  rw [List.reverse_append, List.reverse_singleton, List.singleton_append, List.find?_cons]
  have htest : (m.effectiveCreatedAt.isSome && decide (m.effectiveCreatedAt = time)) = true
      ↔ m.effectiveCreatedAt.isSome ∧ m.effectiveCreatedAt = time := by
    rw [Bool.and_eq_true, decide_eq_true_iff]
  by_cases h : m.effectiveCreatedAt.isSome ∧ m.effectiveCreatedAt = time
  · rw [if_pos h, htest.2 h]
    rfl
  · rw [if_neg h, Bool.eq_false_iff.2 (htest.not.2 h)]

namespace Channel

/-- The message becomes the last one of the channel. -/
def Accepts (c : Channel) (m : Message) : Prop :=
  ∃ t ∈ m.effectiveCreatedAt, ∀ s ∈ c.lastMessageAt, s ≤ t

/-- The channel after a message was announced to it. -/
def afterMessage (c : Channel) (m : Message) : Channel :=
  match m.effectiveCreatedAt with
  | some time => if c.isOvertakenAt time then c.withLastMessage m.id time else c
  | none => c

/-- What messages should make of a channel: its last message is the latest, of equally late ones the
one that came last; messages without a time count for nothing; and everything else stays. -/
structure FollowsMaximum (c : Channel) (messages : List Message) (c' : Channel) : Prop where
  lastMessageAt : IsLatest
    (c.lastMessageAt.toList ++ messages.filterMap Message.effectiveCreatedAt) c'.lastMessageAt
  lastMessageId : c'.lastMessageId = (lastIdAt c'.lastMessageAt messages).or c.lastMessageId
  others : c'
    = { c with lastMessageId := c'.lastMessageId, lastMessageAt := c'.lastMessageAt }

variable {c c' : Channel} {m : Message} {time : Instant} {messages : List Message}

theorem isOvertakenAt_iff : c.isOvertakenAt time = true ↔ ∀ s ∈ c.lastMessageAt, s ≤ time := by
  unfold isOvertakenAt
  cases c.lastMessageAt <;> simp

/-- A message without a time, or with one before the last message, changes nothing. -/
theorem afterMessage_of_not_accepts (h : ¬c.Accepts m) : c.afterMessage m = c := by
  unfold afterMessage
  cases ht : m.effectiveCreatedAt with
  | none => rfl
  | some time => exact if_neg fun hnew => h ⟨time, ht, isOvertakenAt_iff.1 hnew⟩

theorem afterMessage_of_accepts (ht : m.effectiveCreatedAt = some time)
    (h : ∀ s ∈ c.lastMessageAt, s ≤ time) : c.afterMessage m = c.withLastMessage m.id time := by
  unfold afterMessage
  rw [ht]
  exact if_pos (isOvertakenAt_iff.2 h)

/-- One message more keeps the channel at the maximum. -/
theorem FollowsMaximum.concat (h : c.FollowsMaximum messages c') (m : Message) :
    c.FollowsMaximum (messages ++ [m]) (c'.afterMessage m) := by
  have htimes : c.lastMessageAt.toList ++ (messages ++ [m]).filterMap Message.effectiveCreatedAt
      = (c.lastMessageAt.toList ++ messages.filterMap Message.effectiveCreatedAt)
        ++ m.effectiveCreatedAt.toList := by
    rw [List.filterMap_append, List.append_assoc]
    cases ht : m.effectiveCreatedAt <;> simp [ht]
  by_cases haccepts : c'.Accepts m
  · obtain ⟨time, ht, hle⟩ := haccepts
    rw [Option.mem_def] at ht
    rw [afterMessage_of_accepts ht hle]
    refine ⟨?_, ?_, ?_⟩
    · rw [htimes, ht]
      exact h.lastMessageAt.concat_of_le hle
    · have hlast : m.effectiveCreatedAt.isSome ∧ m.effectiveCreatedAt = some time := by simp [ht]
      show some m.id = (lastIdAt (some time) _).or _
      rw [lastIdAt_concat, if_pos hlast, Option.some_or]
    · rw [h.others]
      rfl
  · rw [afterMessage_of_not_accepts haccepts]
    refine ⟨?_, ?_, h.others⟩
    · rw [htimes]
      cases ht : m.effectiveCreatedAt with
      | none => simpa using h.lastMessageAt
      | some time =>
          -- the last message has a time, or else every message would be accepted
          obtain ⟨s, hs, hlt⟩ : ∃ s ∈ c'.lastMessageAt, ¬s ≤ time := by
            by_contra hnone
            exact haccepts ⟨time, ht, fun s hs => by_contra fun hlt => hnone ⟨s, hs, hlt⟩⟩
          rw [Option.mem_def] at hs
          have hlatest := h.lastMessageAt
          rw [hs] at hlatest ⊢
          exact hlatest.concat_of_lt hlt
    · have hnot : ¬(m.effectiveCreatedAt.isSome ∧ m.effectiveCreatedAt = c'.lastMessageAt) := by
        rintro ⟨hsome, hsame⟩
        obtain ⟨time, ht⟩ := Option.isSome_iff_exists.1 hsome
        refine haccepts ⟨time, ht, fun s hs => ?_⟩
        rw [← hsame, ht] at hs
        exact Option.some.inj hs ▸ Int.le_refl _
      rw [lastIdAt_concat, if_neg hnot]
      exact h.lastMessageId

/-- **Messages that are announced one after another keep the channel at the maximum.** -/
theorem followsMaximum_foldl (c : Channel) (messages : List Message) :
    c.FollowsMaximum messages (messages.foldl afterMessage c) := by
  induction messages using List.reverseRecOn with
  | nil => exact ⟨by simpa using IsLatest.toList c.lastMessageAt, rfl, rfl⟩
  | append_singleton messages m ih =>
      rw [List.foldl_append, List.foldl_cons, List.foldl_nil]
      exact ih.concat m

/-- The time of the last message does not depend on the order of the messages. -/
theorem FollowsMaximum.lastMessageAt_eq {messages' : List Message} {c'' : Channel}
    (h : c.FollowsMaximum messages c') (h' : c.FollowsMaximum messages' c'')
    (hperm : messages'.Perm messages) : c''.lastMessageAt = c'.lastMessageAt := by
  refine h'.lastMessageAt.unique h.lastMessageAt fun s => ?_
  rw [List.mem_append, List.mem_append, (hperm.filterMap _).mem_iff]

end Channel

end OfflineChat
