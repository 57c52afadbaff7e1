import OfflineChat.Proofs.Repository.Caching
import OfflineChat.Proofs.Repository.Operations
import OfflineChat.Proofs.Store.ReadBack

/-! # Repositories as shelves

A repository is a cache in front of a table, and all that matters of an operation for one key is
what it does to the two places where the key can be found. Main definitions: `Shelf`, a repository
seen that way, and its three instances `userShelf`, `channelShelf` and `messageShelf`; `KeyEffect`,
what an operation does to a key, with `Shelf.Follows`; and `Shelf.Faithful`, the cache agrees with
the table. Main statement: an effect that goes through to the table keeps the cache faithful
(`Shelf.Follows.faithful`). -/

set_option autoImplicit false

namespace OfflineChat

/-! ## Calls of the application -/

/-- The call writes rows. -/
def StoreCall.isPut : StoreCall → Bool
  | putUsers _ | putUserRecord _ _ | putChannels _ | putMessages _ => true
  | _ => false

/-- The call only reads. -/
def StoreCall.isRead : StoreCall → Bool
  | putUsers _ | putUserRecord _ _ | putChannels _ | putMessages _ => false
  | deleteUsers | deleteChannels | deleteMessages => false
  | _ => true

/-- A call of the application, and how the medium fails the store calls that it makes. -/
structure OperationCall where
  operation : Operation
  faults : StoreCall → Option StoreError

namespace Replica

/-- The replica while the medium fails these calls. -/
def withFaults (r : Replica) (faults : StoreCall → Option StoreError) : Replica :=
  { r with faults }

/-- The replica with a medium that fails no call. -/
def recovered (r : Replica) : Replica := r.withFaults fun _ => none

/-- The replica after one call of the application after another. -/
def after (r : Replica) (calls : List OperationCall) : Replica :=
  calls.foldl (fun r call => call.operation.apply (r.withFaults call.faults)) r

@[simp] theorem after_nil (r : Replica) : r.after [] = r := rfl

@[simp] theorem after_cons (r : Replica) (call : OperationCall) (calls : List OperationCall) :
    r.after (call :: calls)
      = (call.operation.apply (r.withFaults call.faults)).after calls := rfl

theorem after_append (r : Replica) (calls more : List OperationCall) :
    r.after (calls ++ more) = (r.after calls).after more :=
  List.foldl_append

theorem isFaultless_recovered (r : Replica) : r.recovered.IsFaultless := fun _ => rfl

end Replica

/-! ## Entities that are read back -/

/-- The user is read back from its row: its numbers are integers, and all its columns can be
read. -/
def User.IsReadable (u : User) : Prop :=
  u.extraData.toJson.Integral ∧ ∀ c ∈ u.textColumns, c.2.IsReadable

/-- The channel is read back from its row. -/
def Channel.IsReadable (c : Channel) : Prop :=
  c.extraData.toJson.Integral ∧ ∀ column ∈ c.textColumns, column.2.IsReadable

/-- The message is read back from its row, but for its users. -/
def Message.IsReadable (m : Message) : Prop :=
  m.IsIntegral ∧ ∀ c ∈ m.textColumns, c.2.IsReadable

/-- A user nothing is known of is read back. -/
theorem User.isReadable_new (id : String) : (User.new id).IsReadable := by
  refine ⟨trivial, fun c hc => ?_⟩
  have hreadable : ∀ c ∈ (User.new "").textColumns, c.2.IsReadable := by decide
  exact hreadable c hc

/-- A channel nothing is known of is read back. -/
theorem Channel.isReadable_new (type id : String) : (Channel.new type id).IsReadable := by
  refine ⟨trivial, fun c hc => ?_⟩
  have hreadable : ∀ c ∈ (Channel.new "" "").textColumns, c.2.IsReadable := by decide
  exact hreadable c hc

/-- The entities that an operation brings are read back from their rows. -/
def Operation.IsReadable : Operation → Prop
  | insertUsers users => ∀ u ∈ users, u.IsReadable
  | insertMe user => user.IsReadable
  | insertChannels channels => ∀ c ∈ channels, c.IsReadable
  | updateLastMessage _ message => ∀ t ∈ message.effectiveCreatedAt, t.HasShortYear
  | insertMessages messages _ => ∀ m ∈ messages, m.IsReadable
  | sendRequest message => message.IsReadable
  | sendResult _ now message _ =>
      message.IsReadable ∧ now.HasShortYear ∧ ∀ u ∈ message.users, u.IsReadable
  | _ => True

/-! ## Effects -/

/-- What an operation does to a key of a repository. -/
inductive KeyEffect (α : Type) where
  /-- Its row stays, and so does its snapshot, unless the cache gives it up. -/
  | keeps
  /-- An entity is written, and perhaps cached. -/
  | writes (a : α)
  /-- An entity could not be written, but is perhaps cached. -/
  | files (a : α)
  /-- An entity is written past the cache. -/
  | bypasses (a : α)
  /-- Row and snapshot are removed. -/
  | removes

namespace KeyEffect

variable {α : Type}

/-- The entity that the effect brings. -/
def entity? : KeyEffect α → Option α
  | writes a | files a | bypasses a => some a
  | _ => none

/-- Cache and table are treated alike. -/
def IsThrough : KeyEffect α → Prop
  | files _ | bypasses _ => False
  | _ => True

/-- A batch writes or files the last entity of a key. -/
def ofBatch [Keyed α] (fault : Option StoreError) (as : List α) (k : String) : KeyEffect α :=
  match lastOfKey as k with
  | none => keeps
  | some a => if fault.isNone then writes a else files a

/-- A batch that is written past the cache, from which its keys are taken out. -/
def ofUncached [Keyed α] (fault : Option StoreError) (as : List α) (k : String) : KeyEffect α :=
  if fault.isNone then ofBatch fault as k else keeps

/-- Everything is removed, unless the call fails. -/
def ofDelete (fault : Option StoreError) : KeyEffect α :=
  if fault.isNone then removes else keeps

theorem isThrough_ofDelete (fault : Option StoreError) :
    (ofDelete fault : KeyEffect α).IsThrough := by
  unfold ofDelete
  split <;> trivial

theorem not_mem_entity?_keeps {a : α} : a ∉ (keeps : KeyEffect α).entity? := Option.not_mem_none a

theorem not_mem_entity?_ofDelete (fault : Option StoreError) {a : α} :
    a ∉ (ofDelete fault : KeyEffect α).entity? := by
  unfold ofDelete
  split <;> exact Option.not_mem_none a

variable [Keyed α]

theorem ofBatch_of_not_mem {as : List α} {k : String} (h : k ∉ as.map key)
    (fault : Option StoreError) : ofBatch fault as k = keeps := by
  rw [ofBatch, lastOfKey_eq_none_iff.2 h]

/-- A batch that is written is through. -/
theorem isThrough_ofBatch {fault : Option StoreError} {as : List α} {k : String}
    (h : k ∈ as.map key → fault = none) : (ofBatch fault as k).IsThrough := by
  unfold ofBatch
  cases hlast : lastOfKey as k with
  | none => trivial
  | some a =>
      have hmem : k ∈ as.map key :=
        key_of_lastOfKey hlast ▸ List.mem_map_of_mem (mem_of_lastOfKey hlast)
      rw [h hmem]
      trivial

theorem isThrough_ofUncached (fault : Option StoreError) (as : List α) (k : String) :
    (ofUncached fault as k).IsThrough := by
  unfold ofUncached
  split
  · next hok => exact isThrough_ofBatch fun _ => Option.isNone_iff_eq_none.1 hok
  · trivial

/-- A batch brings entities of the batch. -/
theorem mem_of_entity?_ofBatch {fault : Option StoreError} {as : List α} {k : String} {a : α}
    (h : (ofBatch fault as k).entity? = some a) : a ∈ as := by
  unfold ofBatch at h
  cases hlast : lastOfKey as k with
  | none => rw [hlast] at h; exact absurd h (by simp [entity?])
  | some b =>
      rw [hlast] at h
      have hb : b = a := by
        dsimp only at h
        split at h <;> exact Option.some.inj h
      exact hb ▸ mem_of_lastOfKey hlast

theorem mem_of_entity?_ofUncached {fault : Option StoreError} {as : List α} {k : String} {a : α}
    (h : (ofUncached fault as k).entity? = some a) : a ∈ as := by
  unfold ofUncached at h
  split at h
  · exact mem_of_entity?_ofBatch h
  · exact absurd h (by simp [entity?])

end KeyEffect

/-! ## Shelves -/

/-- A repository as a cache in front of a table. -/
structure Shelf (α : Type) [Keyed α] where
  cache : Replica → EntityCache α
  rows : Replica → Table Row
  read : Row → Except StoreError α
  toRow : α → Row
  /-- What is left of an entity in its row. -/
  part : α → α
  IsReadable : α → Prop
  select : String → Action Replica (Option α)
  selectMany : List String → Action Replica (List α)
  insert : List α → Action Replica Unit
  insertOperation : List α → Operation
  /-- The store call that writes entities with these keys. -/
  putCall : List String → StoreCall
  /-- The row of this key is also written past the cache. -/
  isBypassed : String → Bool
  /-- What an operation does to a key. -/
  effect : Operation → Replica → String → KeyEffect α
  key_toRow : ∀ a, key (toRow a) = key a
  key_read : ∀ {row a}, read row = .ok a → key a = key row
  read_toRow : ∀ {a}, IsReadable a → read (toRow a) = .ok (part a)
  part_read : ∀ {row a}, read row = .ok a → part a = a
  isReadable_part : ∀ {a}, IsReadable a → IsReadable (part a)

namespace Shelf

variable {α : Type} [Keyed α] (S : Shelf α)

/-- The stored entity of a key, if there is one that can be read. -/
def stored (r : Replica) (k : String) : Option α :=
  ((S.rows r).get? k).bind fun row => (S.read row).toOption

/-- What is shown of the entity of a key, except for what a row does not hold. -/
def shown (r : Replica) (k : String) : Option α :=
  (((S.cache r).peek? k).map S.part).or (S.stored r k)

/-- The snapshot of a key, if it has one, is what its row holds. -/
def Faithful (r : Replica) (k : String) : Prop :=
  ∀ a, (S.cache r).peek? k = some a → S.stored r k = some (S.part a)

/-- All rows and snapshots hold entities that are read back. -/
structure Legible (r : Replica) : Prop where
  rows : ∀ {k row}, (S.rows r).get? k = some row → ∃ a, S.read row = .ok a ∧ S.IsReadable a
  cache : ∀ {k a}, (S.cache r).peek? k = some a → S.IsReadable a

/-- Rows and snapshots are left alone. -/
structure Spares (r r' : Replica) : Prop where
  cache_eq : (S.cache r').peek? = (S.cache r).peek?
  rows_eq : S.rows r' = S.rows r

/-- An operation that leads from one replica to another has this effect on a key. -/
def Follows (k : String) (r r' : Replica) : KeyEffect α → Prop
  | .keeps => (∀ b, (S.cache r').peek? k = some b → (S.cache r).peek? k = some b) ∧
      (S.rows r').get? k = (S.rows r).get? k
  | .writes a => (∀ b, (S.cache r').peek? k = some b → b = a) ∧
      (S.rows r').get? k = some (S.toRow a)
  | .files a => (∀ b, (S.cache r').peek? k = some b → b = a) ∧
      (S.rows r').get? k = (S.rows r).get? k
  | .bypasses a => (∀ b, (S.cache r').peek? k = some b → (S.cache r).peek? k = some b) ∧
      ∃ row, (S.rows r').get? k = some row ∧ (S.IsReadable a → S.read row = .ok (S.part a))
  | .removes => (S.cache r').peek? k = none ∧ (S.rows r').get? k = none

variable {S} {r r' : Replica} {k : String}

theorem stored_congr (h : (S.rows r').get? k = (S.rows r).get? k) :
    S.stored r' k = S.stored r k := by
  unfold stored
  rw [h]

theorem stored_of_row {row : Row} {a : α} (hrow : (S.rows r).get? k = some row)
    (hread : S.read row = .ok a) : S.stored r k = some a := by
  rw [stored, hrow, Option.bind_some, hread]
  rfl

/-- What is stored has lost what a row does not hold. -/
theorem part_of_stored {a : α} (h : S.stored r k = some a) : S.part a = a := by
  obtain ⟨row, _, hread⟩ := Option.bind_eq_some_iff.1 h
  exact S.part_read (toOption_eq_some_iff.1 hread)

/-- A faithful cache shows what is stored. -/
theorem Faithful.shown_eq (h : S.Faithful r k) : S.shown r k = S.stored r k := by
  unfold shown
  cases hcached : (S.cache r).peek? k with
  | none => rfl
  | some a => rw [h a hcached]; rfl

theorem faithful_of_uncached (h : (S.cache r).peek? k = none) : S.Faithful r k := by
  intro a ha
  rw [h] at ha
  exact absurd ha (by simp)

/-! ### What effects do -/

theorem Spares.trans {r'' : Replica} (h : S.Spares r r') (h' : S.Spares r' r'') :
    S.Spares r r'' :=
  ⟨h'.cache_eq.trans h.cache_eq, h'.rows_eq.trans h.rows_eq⟩

/-- What is left alone is kept. -/
theorem Spares.keeps (h : S.Spares r r') : S.Follows k r r' .keeps := by
  refine ⟨fun b hb => ?_, by rw [h.rows_eq]⟩
  rwa [h.cache_eq] at hb

/-- It does not matter what was left alone before. -/
theorem Spares.follows {r'' : Replica} {effect : KeyEffect α} (h : S.Spares r r')
    (h' : S.Follows k r' r'' effect) : S.Follows k r r'' effect := by
  cases effect <;> simp only [Follows, h.cache_eq, h.rows_eq] at h' ⊢ <;> exact h'

/-- It does not matter what is left alone after that. -/
theorem Follows.spares {r'' : Replica} {effect : KeyEffect α} (h : S.Follows k r r' effect)
    (h' : S.Spares r' r'') : S.Follows k r r'' effect := by
  cases effect <;> simp only [Follows, h'.cache_eq, h'.rows_eq] at h ⊢ <;> exact h

/-- The row of a key after a batch that is written if the medium allows it. -/
theorem get?_rows_of_batch {fault : Option StoreError} {as : List α}
    (hrows : S.rows r'
      = if fault.isNone then (S.rows r).putAll (as.map S.toRow) else S.rows r) (k : String) :
    (S.rows r').get? k = if fault.isNone then
      ((lastOfKey as k).map S.toRow).or ((S.rows r).get? k) else (S.rows r).get? k := by
  rw [hrows]
  split
  · rw [Table.get?_putAll_last, lastOfKey_map S.key_toRow]
  · rfl

/-- A batch is filed, and then written if the medium allows it. -/
theorem follows_ofBatch {fault : Option StoreError} {as : List α}
    (hcache : S.cache r' = (S.cache r).putAll as)
    (hrows : S.rows r'
      = if fault.isNone then (S.rows r).putAll (as.map S.toRow) else S.rows r) :
    S.Follows k r r' (.ofBatch fault as k) := by
  have hcached : ∀ b, (S.cache r').peek? k = some b →
      (lastOfKey as k).or ((S.cache r).peek? k) = some b := by
    intro b hb
    rw [hcache] at hb
    exact EntityCache.peek?_putAll hb
  have hrow := get?_rows_of_batch hrows k
  -- an entry that is there is the last one of the batch; an older one only if the batch has none
  unfold KeyEffect.ofBatch
  cases hlast : lastOfKey as k with
  | none =>
      rw [hlast] at hcached hrow
      refine ⟨fun b hb => ?_, ?_⟩
      · have hold := hcached b hb
        rwa [Option.none_or] at hold
      · rw [hrow, Option.map_none, Option.none_or, ite_self]
  | some a =>
      rw [hlast] at hcached hrow
      have hlatest : ∀ b, (S.cache r').peek? k = some b → b = a := fun b hb =>
        (Option.some.inj (hcached b hb)).symm
      cases fault with
      | none => exact ⟨hlatest, hrow⟩
      | some e => exact ⟨hlatest, hrow⟩

/-- The keys of a batch are taken out of the cache, and then it is written if the medium allows
it. -/
theorem follows_ofUncached {fault : Option StoreError} {as : List α}
    (hcache : S.cache r' = (S.cache r).removeAll (as.map key))
    (hrows : S.rows r'
      = if fault.isNone then (S.rows r).putAll (as.map S.toRow) else S.rows r) :
    S.Follows k r r' (.ofUncached fault as k) := by
  have hcached : ∀ b, (S.cache r').peek? k = some b →
      k ∉ as.map key ∧ (S.cache r).peek? k = some b := by
    intro b hb
    rw [hcache] at hb
    exact EntityCache.peek?_removeAll hb
  have hrow := get?_rows_of_batch hrows k
  cases fault with
  | some e => exact ⟨fun b hb => (hcached b hb).2, hrow⟩
  | none =>
      show S.Follows k r r' (.ofBatch none as k)
      unfold KeyEffect.ofBatch
      cases hlast : lastOfKey as k with
      | none =>
          rw [hlast] at hrow
          exact ⟨fun b hb => (hcached b hb).2, hrow⟩
      | some a =>
          have hmem : k ∈ as.map key :=
            key_of_lastOfKey hlast ▸ List.mem_map_of_mem (mem_of_lastOfKey hlast)
          rw [hlast] at hrow
          exact ⟨fun b hb => absurd hmem (hcached b hb).1, hrow⟩

/-- A cache is emptied, and then the table if the medium allows it. -/
theorem follows_ofDelete {fault : Option StoreError} (hcache : S.cache r' = (S.cache r).clear)
    (hrows : S.rows r' = if fault.isNone then .empty else S.rows r) :
    S.Follows k r r' (.ofDelete fault) := by
  have hcached : (S.cache r').peek? k = none := by rw [hcache, EntityCache.peek?_clear]
  cases fault with
  | none => exact ⟨hcached, by rw [hrows]; rfl⟩
  | some e =>
      refine ⟨fun b hb => ?_, by rw [hrows]; rfl⟩
      rw [hcached] at hb
      exact absurd hb (by simp)

/-- **An effect that goes through to the table keeps the cache faithful.** -/
theorem Follows.faithful {effect : KeyEffect α} (h : S.Follows k r r' effect)
    (hthrough : effect.IsThrough) (hreadable : ∀ a ∈ effect.entity?, S.IsReadable a)
    (hfaithful : S.Faithful r k) : S.Faithful r' k := by
  cases effect with
  | keeps =>
      obtain ⟨hcache, hrow⟩ := h
      intro a ha
      rw [stored_congr hrow]
      exact hfaithful a (hcache a ha)
  | writes a =>
      obtain ⟨hcache, hrow⟩ := h
      intro b hb
      rw [hcache b hb]
      exact stored_of_row hrow (S.read_toRow (hreadable a rfl))
  | files a => exact absurd hthrough id
  | bypasses a => exact absurd hthrough id
  | removes => exact faithful_of_uncached h.1

/-- A key that is written is faithful from then on, whatever was cached for it before. -/
theorem Follows.faithful_of_writes {a : α} (h : S.Follows k r r' (.writes a))
    (hreadable : S.IsReadable a) : S.Faithful r' k := by
  intro b hb
  rw [h.1 b hb]
  exact stored_of_row h.2 (S.read_toRow hreadable)

/-- A replica that can be read still can be if only entities are brought that are read back. -/
theorem legible_of_follows (hr : S.Legible r) {effect : String → KeyEffect α}
    (h : ∀ k, S.Follows k r r' (effect k))
    (hreadable : ∀ k, ∀ a ∈ (effect k).entity?, S.IsReadable a) : S.Legible r' := by
  constructor
  · intro k row hrow
    have hk := h k
    have hentity := hreadable k
    cases heffect : effect k with
    | keeps =>
        rw [heffect] at hk
        exact hr.rows (hk.2 ▸ hrow)
    | writes a =>
        rw [heffect] at hk hentity
        have ha := hentity a rfl
        obtain rfl : S.toRow a = row := Option.some.inj (hk.2.symm.trans hrow)
        exact ⟨S.part a, S.read_toRow ha, S.isReadable_part ha⟩
    | files a =>
        rw [heffect] at hk
        exact hr.rows (hk.2 ▸ hrow)
    | bypasses a =>
        rw [heffect] at hk hentity
        have ha := hentity a rfl
        obtain ⟨_, row', hrow', hread⟩ := hk
        obtain rfl : row' = row := Option.some.inj (hrow'.symm.trans hrow)
        exact ⟨S.part a, hread ha, S.isReadable_part ha⟩
    | removes =>
        rw [heffect] at hk
        exact absurd (hk.2.symm.trans hrow) (by simp)
  · intro k b hb
    have hk := h k
    have hentity := hreadable k
    cases heffect : effect k with
    | keeps => rw [heffect] at hk; exact hr.cache (hk.1 b hb)
    | writes a =>
        rw [heffect] at hk hentity
        exact hk.1 b hb ▸ hentity a rfl
    | files a =>
        rw [heffect] at hk hentity
        exact hk.1 b hb ▸ hentity a rfl
    | bypasses a => rw [heffect] at hk; exact hr.cache (hk.1 b hb)
    | removes =>
        rw [heffect] at hk
        exact absurd (hk.1.symm.trans hb) (by simp)

end Shelf

/-! ## The three repositories -/

theorem User.readBack_eq {u : UserRecord} (h : u.user.IsReadable) : u.toRow.userRecord = .ok u := by
  rw [Row.userRecord_toRow h.1, readBack_of_readable h.2]

theorem Channel.readBack_eq {c : Channel} (h : c.IsReadable) : c.toRow.channel = .ok c := by
  rw [Row.channel_toRow h.1, readBack_of_readable h.2]

theorem Message.readBack_eq {m : Message} (h : m.IsReadable) :
    m.toRow.message = .ok m.withUserIds := by
  rw [Row.message_toRow h.1, readBack_of_readable h.2]

/-- The users of a message that was read are known by their ids only. -/
theorem Row.withUserIds_of_message {row : Row} {m : Message} (h : row.message = .ok m) :
    m.withUserIds = m := by
  unfold Row.message at h
  iterate 14 obtain ⟨_, _, h⟩ := bind_eq_ok_iff.1 h
  rw [← Except.ok.inj h]
  simp only [Message.withUserIds, List.map_map]
  rfl

/-- The row of a message does not tell its users apart from their ids. -/
theorem Message.isReadable_withUserIds {m : Message} (h : m.IsReadable) :
    m.withUserIds.IsReadable := by
  have hids : m.withUserIds.mentionedUsers.map User.id = m.mentionedUsers.map User.id := by
    simp only [Message.withUserIds, List.map_map]
    rfl
  refine ⟨h.1, ?_⟩
  have hcolumns : m.withUserIds.textColumns = m.textColumns := by
    unfold Message.textColumns
    rw [hids]
    rfl
  rw [hcolumns]
  exact h.2

namespace Operation

/-- What an operation does to a user. -/
def userEffect : Operation → Replica → String → KeyEffect User
  | insertUsers users, r, k => .ofBatch (r.faults (.putUsers (users.map User.id))) users k
  | insertMe user, r, k =>
      if k = sessionUserId ∧ (r.faults (.putUserRecord sessionUserId (some user.id))).isNone then
        .bypasses { user with id := sessionUserId }
      else .keeps
  | clearUsers, r, _ => .ofDelete (r.faults .deleteUsers)
  | sendResult classifier now message (.error error), r, k =>
      let users := (message.afterFailedSend classifier now error).users
      .ofBatch (r.faults (.putUsers (users.map User.id))) users k
  | _, _, _ => .keeps

/-- The channel that a new last message makes of a channel, if it makes anything of it. -/
def renewedChannels (cid : String) (message : Message) (r : Replica) : List Channel :=
  match (Channels.select cid r).1, message.effectiveCreatedAt with
  | .ok (some channel), some time =>
      if channel.isOvertakenAt time then [channel.withLastMessage message.id time] else []
  | _, _ => []

/-- What a new last message does to a channel. -/
def lastMessageEffect (cid : String) (message : Message) (r : Replica) (k : String) :
    KeyEffect Channel :=
  let channels := renewedChannels cid message r
  .ofBatch (r.faults (.putChannels (channels.map Channel.cid))) channels k

/-- What an operation does to a channel. -/
def channelEffect : Operation → Replica → String → KeyEffect Channel
  | insertChannels channels, r, k =>
      .ofBatch (r.faults (.putChannels (channels.map Channel.cid))) channels k
  | updateLastMessage cid message, r, k => lastMessageEffect cid message r k
  | clearChannels, r, _ => .ofDelete (r.faults .deleteChannels)
  | sendRequest message, r, k =>
      -- the channel is not reached if the message cannot be written
      if (r.faults (.putMessages [message.id])).isNone then
        lastMessageEffect message.cid message r k
      else .keeps
  | _, _, _ => .keeps

/-- What an operation does to a message. -/
def messageEffect : Operation → Replica → String → KeyEffect Message
  | insertMessages messages cached, r, k =>
      let fault := r.faults (.putMessages (messages.map Message.id))
      if cached then .ofBatch fault messages k else .ofUncached fault messages k
  | clearMessages, r, _ => .ofDelete (r.faults .deleteMessages)
  | sendRequest message, r, k => .ofBatch (r.faults (.putMessages [message.id])) [message] k
  | sendResult classifier now message (.error error), r, k =>
      let failed := message.afterFailedSend classifier now error
      -- the message is not reached if its users cannot be written
      if (r.faults (.putUsers (failed.users.map User.id))).isNone then
        .ofUncached (r.faults (.putMessages [failed.id])) [failed] k
      else .keeps
  | _, _, _ => .keeps

end Operation

/-- The repository of users. The row of the session user is written past the cache. -/
def userShelf : Shelf User where
  cache r := r.users
  rows r := r.database.users
  read row := row.userRecord.map UserRecord.user
  toRow u := (⟨u, none⟩ : UserRecord).toRow
  part := id
  IsReadable := User.IsReadable
  select := Users.select
  selectMany := Users.selectMany
  insert := Users.insert
  insertOperation := .insertUsers
  putCall := .putUsers
  isBypassed k := k == sessionUserId
  effect := Operation.userEffect
  key_toRow _ := rfl
  key_read h := by
    obtain ⟨record, hread, rfl⟩ := map_eq_ok_iff.1 h
    exact Row.key_of_userRecord hread
  read_toRow {u} h := by
    have hread : (⟨u, none⟩ : UserRecord).toRow.userRecord = .ok ⟨u, none⟩ :=
      User.readBack_eq (u := ⟨u, none⟩) h
    rw [hread]
    rfl
  part_read _ := rfl
  isReadable_part h := h

/-- The repository of channels. -/
def channelShelf : Shelf Channel where
  cache r := r.channels
  rows r := r.database.channels
  read := Row.channel
  toRow := Channel.toRow
  part := id
  IsReadable := Channel.IsReadable
  select := Channels.select
  selectMany := Channels.selectMany
  insert := Channels.insert
  insertOperation := .insertChannels
  putCall := .putChannels
  isBypassed _ := false
  effect := Operation.channelEffect
  key_toRow := key_toRow_channel
  key_read h := Row.key_of_channel h
  read_toRow h := Channel.readBack_eq h
  part_read _ := rfl
  isReadable_part h := h

/-- The repository of messages, as it is written through the cache. -/
def messageShelf : Shelf Message where
  cache r := r.messages
  rows r := r.database.messages
  read := Row.message
  toRow := Message.toRow
  part := Message.withUserIds
  IsReadable := Message.IsReadable
  select := Messages.select
  selectMany := Messages.selectMany
  insert messages := Messages.insert messages true
  insertOperation messages := .insertMessages messages true
  putCall := .putMessages
  isBypassed _ := false
  effect := Operation.messageEffect
  key_toRow := key_toRow_message
  key_read h := Row.key_of_message h
  read_toRow h := Message.readBack_eq h
  part_read h := Row.withUserIds_of_message h
  isReadable_part h := Message.isReadable_withUserIds h

end OfflineChat
