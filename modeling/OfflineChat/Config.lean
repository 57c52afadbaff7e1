import OfflineChat.Text.Numeral

/-! # Settings

The settings of a client, each read from a variable of its own. A number that is missing, malformed,
zero or too large for 64 bits leaves the default. Main definitions: `Config` and
`Config.ofEnvironment`. -/

set_option autoImplicit false

namespace OfflineChat

/-- The settings of a client. -/
structure Config where
  /-- The database file; without one the default location is used. -/
  databasePath : Option String
  userCacheSize : Nat
  messageCacheSize : Nat
  channelCacheSize : Nat
  retryPageSize : Nat
  /-- Milliseconds between scheduled passes. -/
  retryInterval : Nat
  /-- The budget of pages of a pass. -/
  maxRetryPages : Option Nat
  deriving DecidableEq

namespace Config

/-- The settings without any variable. -/
def standard : Config where
  databasePath := none
  userCacheSize := 100
  messageCacheSize := 1000
  channelCacheSize := 100
  retryPageSize := 50
  retryInterval := 30 * 1000
  maxRetryPages := none

/-- A positive number of 64 bits. -/
def positive? (text : Option String) : Option Nat :=
  (text.bind Numeral.count?).filter (0 < ·)

/-- The largest cache for which room can be reserved. The places of a cache are a power of two, of
which seven eighths may be taken, and there are at most `2 ^ 58` places. -/
def largestCache : Nat := 252_201_579_132_747_776

/-- Room can be reserved for the caches. -/
def cachesFit (c : Config) : Bool :=
  [c.userCacheSize, c.messageCacheSize, c.channelCacheSize].all (· ≤ largestCache)

/-- The variables that hold settings. -/
def variableNames : List String :=
  [ "PARLEY_DATABASE_PATH", "PARLEY_USER_CACHE_SIZE", "PARLEY_MESSAGE_CACHE_SIZE",
    "PARLEY_CHANNEL_CACHE_SIZE", "PARLEY_RETRY_PAGE_SIZE", "PARLEY_RETRY_INTERVAL_SECS",
    "PARLEY_MAX_RETRY_PAGES" ]

/-- The settings that an environment makes. -/
def ofEnvironment (lookup : String → Option String) : Config where
  databasePath := (lookup "PARLEY_DATABASE_PATH").filter (· ≠ "")
  userCacheSize := (positive? (lookup "PARLEY_USER_CACHE_SIZE")).getD standard.userCacheSize
  messageCacheSize :=
    (positive? (lookup "PARLEY_MESSAGE_CACHE_SIZE")).getD standard.messageCacheSize
  channelCacheSize :=
    (positive? (lookup "PARLEY_CHANNEL_CACHE_SIZE")).getD standard.channelCacheSize
  retryPageSize := (positive? (lookup "PARLEY_RETRY_PAGE_SIZE")).getD standard.retryPageSize
  retryInterval :=
    ((positive? (lookup "PARLEY_RETRY_INTERVAL_SECS")).map (· * 1000)).getD standard.retryInterval
  maxRetryPages := positive? (lookup "PARLEY_MAX_RETRY_PAGES")

end Config

end OfflineChat
