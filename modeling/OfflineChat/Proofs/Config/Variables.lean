import OfflineChat.Config
import OfflineChat.Proofs.Text.Numeral

/-! # Settings come from their variables

Each setting is what its own variable makes of it: a number if the variable holds a positive one that
a word of 64 bits holds, else its default. Main definitions: `Config.MakesSetting`, what a variable
makes of a number; `Config.IsReadFrom`, all settings of a configuration; `Config.AgreesWhere`, two
configurations are alike where their environments are; and `Config.IsUsable`. Main statement: what an
environment makes is that and nothing else (`Config.settings_from_variables`). -/

set_option autoImplicit false

namespace OfflineChat

/-- A text spells a positive number that a word of 64 bits holds. -/
def SpellsSize (text : String) (n : Nat) : Prop :=
  Numeral.Spells text n ∧ 1 ≤ n ∧ n < 0x1_0000_0000_0000_0000

theorem SpellsSize.unique {text : String} {m n : Nat} (h : SpellsSize text m)
    (h' : SpellsSize text n) : m = n := h.1.unique h'.1

namespace Config

variable {lookup lookup' : String → Option String} {c c' : Config}

theorem positive?_eq_some_iff {text : Option String} {n : Nat} :
    positive? text = some n ↔ ∃ s ∈ text, SpellsSize s n := by
  unfold positive?
  rw [Option.filter_eq_some_iff, Option.bind_eq_some_iff]
  constructor
  · rintro ⟨⟨s, hs, hcount⟩, hpositive⟩
    obtain ⟨hspells, hlt⟩ := Numeral.count?_eq_some_iff.1 hcount
    exact ⟨s, hs, hspells, of_decide_eq_true hpositive, hlt⟩
  · rintro ⟨s, hs, hspells, hpositive, hlt⟩
    have hcount := Numeral.count?_eq_some_iff.2 ⟨hspells, hlt⟩
    exact ⟨⟨s, hs, hcount⟩, decide_eq_true hpositive⟩

/-! ## One setting -/

/-- What a variable makes of a setting: of a positive number that is `given`, and otherwise, when the
variable is not set, zero or malformed, the default. -/
inductive MakesSetting {α : Type} (given : Nat → α) (standard : α) (text : Option String) : α → Prop
  | given {s : String} {n : Nat} (hs : s ∈ text) (hn : SpellsSize s n) :
      MakesSetting given standard text (given n)
  | standard (h : ∀ s ∈ text, ∀ n, ¬SpellsSize s n) : MakesSetting given standard text standard

section

variable {α : Type} {given : Nat → α} {standard : α} {text : Option String}

/-- A variable makes one thing of a setting. -/
theorem MakesSetting.unique {a b : α} (ha : MakesSetting given standard text a)
    (hb : MakesSetting given standard text b) : a = b := by
  cases ha with
  | given hs hn =>
      cases hb with
      | given hs' hn' =>
          obtain rfl := Option.mem_unique hs hs'
          rw [hn.unique hn']
      | standard hnone => exact absurd hn (hnone _ hs _)
  | standard hnone =>
      cases hb with
      | given hs hn => exact absurd hn (hnone _ hs _)
      | standard => rfl

/-- What holds of the default and of what is made of every positive number holds of a setting. -/
theorem MakesSetting.induct {P : α → Prop} {a : α} (h : MakesSetting given standard text a)
    (hstandard : P standard) (hgiven : ∀ n, 1 ≤ n → P (given n)) : P a := by
  cases h with
  | given hs hn => exact hgiven _ hn.2.1
  | standard => exact hstandard

theorem makesSetting_positive? (given : Nat → α) (standard : α) (text : Option String) :
    MakesSetting given standard text (((positive? text).map given).getD standard) := by
  cases hn : positive? text with
  | some n =>
      obtain ⟨s, hs, hspells⟩ := positive?_eq_some_iff.1 hn
      exact .given hs hspells
  | none =>
      refine .standard fun s hs n hspells => ?_
      rw [positive?_eq_some_iff.2 ⟨s, hs, hspells⟩] at hn
      exact nomatch hn

/-- A size is the number itself. -/
theorem makesSize_positive? (standard : Nat) (text : Option String) :
    MakesSetting id standard text ((positive? text).getD standard) := by
  have h := makesSetting_positive? id standard text
  rwa [Option.map_id_fun] at h

/-- A budget is there only for a number. -/
theorem makesBudget_positive? (text : Option String) :
    MakesSetting some none text (positive? text) := by
  have h := makesSetting_positive? some none text
  cases hn : positive? text <;> rwa [hn] at h

end

/-! ## All settings -/

/-- All settings of a configuration are what their own variables make of them. -/
structure IsReadFrom (lookup : String → Option String) (c : Config) : Prop where
  databasePath : ∀ path, c.databasePath = some path ↔
    lookup "PARLEY_DATABASE_PATH" = some path ∧ path ≠ ""
  userCacheSize : MakesSetting id standard.userCacheSize (lookup "PARLEY_USER_CACHE_SIZE")
    c.userCacheSize
  messageCacheSize : MakesSetting id standard.messageCacheSize (lookup "PARLEY_MESSAGE_CACHE_SIZE")
    c.messageCacheSize
  channelCacheSize : MakesSetting id standard.channelCacheSize (lookup "PARLEY_CHANNEL_CACHE_SIZE")
    c.channelCacheSize
  retryPageSize : MakesSetting id standard.retryPageSize (lookup "PARLEY_RETRY_PAGE_SIZE")
    c.retryPageSize
  /-- The variable holds seconds. -/
  retryInterval : MakesSetting (· * 1000) standard.retryInterval
    (lookup "PARLEY_RETRY_INTERVAL_SECS") c.retryInterval
  /-- Zero is no budget of no pages. -/
  maxRetryPages : MakesSetting some none (lookup "PARLEY_MAX_RETRY_PAGES") c.maxRetryPages

/-- Settings are the same wherever the variables are. -/
structure AgreesWhere (lookup lookup' : String → Option String) (c c' : Config) : Prop where
  databasePath : lookup "PARLEY_DATABASE_PATH" = lookup' "PARLEY_DATABASE_PATH" →
    c.databasePath = c'.databasePath
  userCacheSize : lookup "PARLEY_USER_CACHE_SIZE" = lookup' "PARLEY_USER_CACHE_SIZE" →
    c.userCacheSize = c'.userCacheSize
  messageCacheSize : lookup "PARLEY_MESSAGE_CACHE_SIZE" = lookup' "PARLEY_MESSAGE_CACHE_SIZE" →
    c.messageCacheSize = c'.messageCacheSize
  channelCacheSize : lookup "PARLEY_CHANNEL_CACHE_SIZE" = lookup' "PARLEY_CHANNEL_CACHE_SIZE" →
    c.channelCacheSize = c'.channelCacheSize
  retryPageSize : lookup "PARLEY_RETRY_PAGE_SIZE" = lookup' "PARLEY_RETRY_PAGE_SIZE" →
    c.retryPageSize = c'.retryPageSize
  retryInterval : lookup "PARLEY_RETRY_INTERVAL_SECS" = lookup' "PARLEY_RETRY_INTERVAL_SECS" →
    c.retryInterval = c'.retryInterval
  maxRetryPages : lookup "PARLEY_MAX_RETRY_PAGES" = lookup' "PARLEY_MAX_RETRY_PAGES" →
    c.maxRetryPages = c'.maxRetryPages

/-- A client works with the settings: caches and pages have places, passes have pages, and there is
at least a second between passes. -/
structure IsUsable (c : Config) : Prop where
  userCacheSize : 1 ≤ c.userCacheSize
  messageCacheSize : 1 ≤ c.messageCacheSize
  channelCacheSize : 1 ≤ c.channelCacheSize
  retryPageSize : 1 ≤ c.retryPageSize
  retryInterval : 1000 ≤ c.retryInterval
  maxRetryPages : c.maxRetryPages ≠ some 0

namespace IsReadFrom

/-- Each setting depends on its own variable only. -/
theorem agreesWhere (h : c.IsReadFrom lookup) (h' : c'.IsReadFrom lookup') :
    AgreesWhere lookup lookup' c c' where
  databasePath hsame := by
    refine Option.ext fun path => ?_
    rw [h.databasePath path, h'.databasePath path, hsame]
  userCacheSize hsame := h.userCacheSize.unique (hsame ▸ h'.userCacheSize)
  messageCacheSize hsame := h.messageCacheSize.unique (hsame ▸ h'.messageCacheSize)
  channelCacheSize hsame := h.channelCacheSize.unique (hsame ▸ h'.channelCacheSize)
  retryPageSize hsame := h.retryPageSize.unique (hsame ▸ h'.retryPageSize)
  retryInterval hsame := h.retryInterval.unique (hsame ▸ h'.retryInterval)
  maxRetryPages hsame := h.maxRetryPages.unique (hsame ▸ h'.maxRetryPages)

/-- One configuration only is read from an environment. -/
theorem unique (h : c.IsReadFrom lookup) (h' : c'.IsReadFrom lookup) : c = c' := by
  have hagrees := h.agreesWhere h'
  cases c
  cases c'
  congr
  · exact hagrees.databasePath rfl
  · exact hagrees.userCacheSize rfl
  · exact hagrees.messageCacheSize rfl
  · exact hagrees.channelCacheSize rfl
  · exact hagrees.retryPageSize rfl
  · exact hagrees.retryInterval rfl
  · exact hagrees.maxRetryPages rfl

/-- What is read can be worked with. -/
theorem isUsable (h : c.IsReadFrom lookup) : c.IsUsable where
  userCacheSize := h.userCacheSize.induct (by decide) fun _ hn => hn
  messageCacheSize := h.messageCacheSize.induct (by decide) fun _ hn => hn
  channelCacheSize := h.channelCacheSize.induct (by decide) fun _ hn => hn
  retryPageSize := h.retryPageSize.induct (by decide) fun _ hn => hn
  retryInterval := by
    refine h.retryInterval.induct (by decide) fun n hn => ?_
    omega
  maxRetryPages := by
    refine h.maxRetryPages.induct (P := fun budget => budget ≠ some 0) nofun fun n hn hzero => ?_
    have hn0 : n = 0 := Option.some.inj hzero
    omega

end IsReadFrom

theorem isReadFrom_ofEnvironment (lookup : String → Option String) :
    (ofEnvironment lookup).IsReadFrom lookup where
  databasePath path := by
    unfold ofEnvironment
    rw [Option.filter_eq_some_iff, decide_eq_true_iff]
  userCacheSize := makesSize_positive? _ _
  messageCacheSize := makesSize_positive? _ _
  channelCacheSize := makesSize_positive? _ _
  retryPageSize := makesSize_positive? _ _
  retryInterval := makesSetting_positive? _ _ _
  maxRetryPages := makesBudget_positive? _

/-- **Settings come from their own variables, and can always be worked with.** For every environment:
the configuration that it makes is the only one of which each setting is what its own variable makes
of it; two environments make the same of a setting if they agree on its variable; and no size, page
or interval is empty, and no budget of pages is zero. -/
theorem settings_from_variables (lookup : String → Option String) :
    (∀ c : Config, c.IsReadFrom lookup ↔ c = ofEnvironment lookup) ∧
    (∀ lookup', AgreesWhere lookup lookup' (ofEnvironment lookup) (ofEnvironment lookup')) ∧
    (ofEnvironment lookup).IsUsable := by
  have hread := isReadFrom_ofEnvironment lookup
  refine ⟨fun c => ⟨fun hc => hc.unique hread, fun hc => hc ▸ hread⟩, fun lookup' => ?_,
    hread.isUsable⟩
  exact hread.agreesWhere (isReadFrom_ofEnvironment lookup')

/-- An environment with a sign and zeros in front of a number, a number that is too large for 64
bits, two signs, a budget of zero and an empty path. -/
def oddTexts : String → Option String
  | "PARLEY_USER_CACHE_SIZE" => some "+007"
  | "PARLEY_MESSAGE_CACHE_SIZE" => some "18446744073709551616"
  | "PARLEY_RETRY_PAGE_SIZE" => some "++5"
  | "PARLEY_MAX_RETRY_PAGES" => some "0"
  | "PARLEY_DATABASE_PATH" => some ""
  | _ => none

/-- Only the first of these texts is a setting, and another environment that has it too makes the
same of it. -/
theorem settings_from_variables_oddTexts :
    ofEnvironment oddTexts = { standard with userCacheSize := 7 } ∧
    (ofEnvironment fun _ => some "+007").userCacheSize = 7 ∧ (ofEnvironment oddTexts).IsUsable := by
  obtain ⟨hread, hagrees, husable⟩ := settings_from_variables oddTexts
  have hseven : SpellsSize "+007" 7 :=
    ⟨⟨_, ((Numeral.Denotes.digit 0).snoc 0).snoc 7, .inr rfl⟩, by decide, by decide⟩
  have hseventh : ({ standard with userCacheSize := 7 } : Config).IsReadFrom oddTexts :=
    { databasePath := fun path => iff_of_false nofun fun h => h.2 (Option.some.inj h.1).symm
      userCacheSize := @MakesSetting.given _ id _ _ _ _ rfl hseven
      messageCacheSize := makesSize_positive? _ (some "18446744073709551616")
      channelCacheSize := .standard nofun
      retryPageSize := makesSize_positive? _ (some "++5")
      retryInterval := .standard nofun
      maxRetryPages := makesBudget_positive? (some "0") }
  have hodd : ofEnvironment oddTexts = { standard with userCacheSize := 7 } :=
    ((hread _).1 hseventh).symm
  refine ⟨hodd, ?_, husable⟩
  rw [← (hagrees fun _ => some "+007").userCacheSize rfl, hodd]

end Config

end OfflineChat
