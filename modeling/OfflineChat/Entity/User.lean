import OfflineChat.Json.Basic
import OfflineChat.Keyed
import OfflineChat.Time.Instant

/-! # Users

A chat user as held locally. Main definitions: `User`, `User.new`, and `UserRecord`, a user as the
table holds it: the row of the session user is filed under a fixed id and keeps the real one beside
it. -/

set_option autoImplicit false

namespace OfflineChat

/-- A known chat user. -/
structure User where
  id : String
  role : String
  name : Option String
  image : Option String
  createdAt : Option Instant
  updatedAt : Option Instant
  lastActive : Option Instant
  invisible : Bool
  banned : Bool
  /-- The ids of the users that this user has muted. -/
  mutes : List String
  extraData : ExtraData

instance : Keyed User := ⟨User.id⟩

@[simp] theorem key_user (u : User) : key u = u.id := rfl

/-- A user of whom the id and the role are known. -/
def User.withRole (id role : String) : User where
  id := id
  role := role
  name := none
  image := none
  createdAt := none
  updatedAt := none
  lastActive := none
  invisible := false
  banned := false
  mutes := []
  extraData := .empty

/-- A user of whom only the id is known. -/
def User.new (id : String) : User := User.withRole id "user"

/-- A user nothing is known of. -/
instance : Inhabited User := ⟨User.withRole "" ""⟩

@[simp] theorem User.id_new (id : String) : (User.new id).id = id := rfl

/-- A user as the table holds it. The real id is kept for the session user only. -/
structure UserRecord where
  user : User
  realId : Option String

instance : Keyed UserRecord := ⟨fun r => r.user.id⟩

@[simp] theorem key_userRecord (r : UserRecord) : key r = r.user.id := rfl

/-- The id under which the session user is filed. -/
def sessionUserId : String := "me"

end OfflineChat
