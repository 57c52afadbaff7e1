import OfflineChat.Config
import OfflineChat.Sync.Service

/-! # Clients from settings

How the settings size the caches of a replica and the passes of its client. -/

set_option autoImplicit false

namespace OfflineChat.Config

/-- The replica in front of a database. -/
def replica (c : Config) (database : Database) (currentUser : Option User) : Replica :=
  .new database currentUser c.userCacheSize c.channelCacheSize c.messageCacheSize

/-- The way passes work. -/
def rules (c : Config) (classifier : Classifier) (now : Instant) : SyncRules where
  pageSize := c.retryPageSize
  maxPages := c.maxRetryPages
  classifier := classifier
  now := now

/-- A client on which nothing has happened. -/
def client {ρ : Type} (c : Config) (database : Database) (currentUser : Option User) (remote : ρ) :
    Client ρ :=
  .new (c.replica database currentUser) remote

end OfflineChat.Config
