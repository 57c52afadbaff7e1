import OfflineChat.Repository.Replica

/-! # The users of a replica

Users are written through the cache and looked up there first; what the database answers is not
cached. The session user has a row of its own under a fixed id, which keeps the real id. Main
definitions: `Users.insert`, `Users.select`, `Users.selectMany`, `Users.directory` (users by id, the
current user included), `Users.insertMe` and `Users.selectMe`. -/

set_option autoImplicit false

namespace OfflineChat.Users

/-- Files users in the cache and then writes them; nothing happens without users. -/
def insert (users : List User) : Action Replica Unit := do
  if users.isEmpty then return ()
  .modify fun r => { r with users := r.users.putAll users }
  Replica.write (.putUsers (users.map User.id)) fun db => db.putUsers users

/-- Files and writes one user. -/
def insertUser (user : User) : Action Replica Unit := insert [user]

/-- Writes the session user, past the cache. -/
def insertMe (user : User) : Action Replica Unit :=
  Replica.write (.putUserRecord sessionUserId (some user.id)) fun db =>
    db.putUserRecords [⟨{ user with id := sessionUserId }, some user.id⟩]

/-- The session user as last written, with the real id. -/
def selectMe : Action Replica (Option User) := do
  let record ← Replica.read (.userRecord sessionUserId) fun db => db.userRecord? sessionUserId
  return record.map fun r => { r.user with id := r.realId.getD r.user.id }

/-- The user with this id: from the cache, else from the database. -/
def select (id : String) : Action Replica (Option User) := do
  let cached ← .update fun r =>
    let (user, users) := r.users.get? id
    (user, { r with users })
  match cached with
  | some user => return some user
  | none =>
      let record ← Replica.read (.user id) fun db => db.userRecord? id
      return record.map UserRecord.user

/-- The users with these ids: the cached ones, then the stored ones among the others. -/
def selectMany (ids : List String) : Action Replica (List User) := do
  let (hits, misses) ← .update fun r =>
    let (found, users) := r.users.getAll (firstOfKeys ids)
    (found, { r with users })
  if misses.isEmpty then return hits
  let stored ← Replica.read (.users misses) fun db => db.usersOf misses
  return hits ++ stored

/-- The users with these ids and the current user, by id. -/
def directory (ids : List String) : Action Replica (Table User) := do
  let users ← selectMany ids
  let r ← .get
  return (Table.ofList users).putAll r.currentUser.toList

/-- Removes all users from cache and database. -/
def clear : Action Replica Nat := do
  .modify fun r => { r with users := r.users.clear }
  Replica.delete .deleteUsers Database.deleteUsers

end OfflineChat.Users
