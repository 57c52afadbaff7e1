import OfflineChat.Json.Token

/-! # Parsed documents

A `Draft` is a parsed document before anyone has asked whether its numbers and strings stand for
anything and how deep it nests: the parts that a reader skips need not. Main definitions:
`Draft.parse?`, a machine with a stack of open containers, and `Draft.value?`, which reads a whole
draft as a document value within a budget of nesting. Main statement: that value is canonical
(`canonical_of_value?`). -/

set_option autoImplicit false

namespace OfflineChat

/-- A parsed document. -/
inductive Draft where
  | null
  | bool (b : Bool)
  | number (n : Option Number)
  | string (s : Option String)
  | array (items : List Draft)
  | object (fields : List (Option String × Draft))

namespace Draft

/-! ## Parsing -/

/-- An open container with what it holds so far, last first. A `member` waits for the value of its
last key. -/
inductive Frame where
  | array (done : List Draft)
  | object (done : List (Option String × Draft))
  | member (done : List (Option String × Draft)) (name : Option String)

/-- What may come next, and the open containers, innermost first. -/
inductive Machine where
  | value (open_ : List Frame)
  | firstItem (open_ : List Frame)
  | firstKey (open_ : List Frame)
  | key (done : List (Option String × Draft)) (open_ : List Frame)
  | colon (done : List (Option String × Draft)) (name : Option String) (open_ : List Frame)
  | more (inner : Frame) (open_ : List Frame)
  | finished (d : Draft)

namespace Machine

/-- A value is complete: it goes into the innermost container. -/
def push (d : Draft) : List Frame → Machine
  | [] => .finished d
  | .array done :: open_ => .more (.array (d :: done)) open_
  | .object done :: open_ => .more (.object ((none, d) :: done)) open_
  | .member done name :: open_ => .more (.object ((name, d) :: done)) open_

/-- The value that a token starts, where a value may stand. -/
def start? (open_ : List Frame) : Token → Option Machine
  | .beginObject => some (.firstKey open_)
  | .beginArray => some (.firstItem open_)
  | .null => some (push .null open_)
  | .bool b => some (push (.bool b) open_)
  | .number n => some (push (.number n) open_)
  | .string s => some (push (.string s) open_)
  | .endObject | .endArray | .colon | .comma => none

/-- Takes one token. -/
def step? : Machine → Token → Option Machine
  | .value open_, t => start? open_ t
  | .firstItem open_, .endArray => some (push (.array []) open_)
  | .firstItem open_, t => start? (.array [] :: open_) t
  | .firstKey open_, .endObject => some (push (.object []) open_)
  | .firstKey open_, .string s => some (.colon [] s open_)
  | .firstKey _, _ => none
  | .key done open_, .string s => some (.colon done s open_)
  | .key _ _, _ => none
  | .colon done name open_, .colon => some (.value (.member done name :: open_))
  | .colon _ _ _, _ => none
  | .more (.array done) open_, .comma => some (.value (.array done :: open_))
  | .more (.array done) open_, .endArray => some (push (.array done.reverse) open_)
  | .more (.object done) open_, .comma => some (.key done open_)
  | .more (.object done) open_, .endObject => some (push (.object done.reverse) open_)
  | .more _ _, _ => none
  | .finished _, _ => none

/-- Takes tokens one after another. -/
def run? : Machine → List Token → Option Machine
  | m, [] => some m
  | m, t :: ts =>
      match m.step? t with
      | some m => run? m ts
      | none => none

end Machine

/-- The document that a list of tokens spells. -/
def ofTokens? (ts : List Token) : Option Draft :=
  match Machine.run? (.value []) ts with
  | some (.finished d) => some d
  | _ => none

/-- The document that a text spells, with nothing but spaces around it. -/
def parse? (cs : List Char) : Option Draft := (Token.scan? cs).bind ofTokens?

/-! ## Reading values -/

/-- Containers may nest this deep. -/
def maxDepth : Nat := 127

mutual

/-- The document value, if its numbers and strings stand for something and its containers nest at
most `depth` deep; of equal keys in an object the last one counts. -/
def value? (depth : Nat) : Draft → Option Json
  | .null => some .null
  | .bool b => some (.bool b)
  | .number none => none
  | .number (some n) => if n.Fits then some (.number n) else none
  | .string s => s.map .string
  | .array items =>
      match depth with
      | 0 => none
      | depth + 1 => (values? depth items).map .array
  | .object fields =>
      match depth with
      | 0 => none
      | depth + 1 => (fieldValues? depth fields).map fun fs => .object (Json.sortFields fs)

/-- The values of all items. -/
def values? (depth : Nat) : List Draft → Option (List Json)
  | [] => some []
  | item :: items => do
      let v ← value? depth item
      let vs ← values? depth items
      return v :: vs

/-- The keys and values of all fields. -/
def fieldValues? (depth : Nat) : List (Option String × Draft) → Option (List (String × Json))
  | [] => some []
  | (none, _) :: _ => none
  | (some key, d) :: fields => do
      let v ← value? depth d
      let fs ← fieldValues? depth fields
      return (key, v) :: fs

end

mutual

theorem canonical_of_value? {depth : Nat} {d : Draft} {v : Json} (h : value? depth d = some v) :
    v.Canonical := by
  match d, depth with
  | .null, _ | .bool _, _ =>
      simp only [value?, Option.some.injEq] at h
      subst h
      simp [Json.Canonical]
  | .number none, _ | .array _, 0 | .object _, 0 => simp [value?] at h
  | .number (some n), _ =>
      simp only [value?] at h
      split at h
      · next hf =>
          simp only [Option.some.injEq] at h
          subst h
          simpa only [Json.Canonical] using hf
      · exact absurd h (by simp)
  | .string s, _ =>
      simp only [value?, Option.map_eq_some_iff] at h
      obtain ⟨_, _, rfl⟩ := h
      simp [Json.Canonical]
  | .array items, depth + 1 =>
      simp only [value?, Option.map_eq_some_iff] at h
      obtain ⟨vs, hv, rfl⟩ := h
      simpa only [Json.Canonical] using canonical_of_values? hv
  | .object fields, depth + 1 =>
      simp only [value?, Option.map_eq_some_iff] at h
      obtain ⟨fs, hf, rfl⟩ := h
      simp only [Json.Canonical]
      exact ⟨Json.ascendingKeys_sortFields fs,
        Json.canonicalFields_sortFields (canonical_of_fieldValues? hf)⟩

theorem canonical_of_values? {depth : Nat} {ds : List Draft} {vs : List Json}
    (h : values? depth ds = some vs) : Json.CanonicalItems vs := by
  match ds with
  | [] =>
      simp only [values?, Option.some.injEq] at h
      subst h
      simp [Json.CanonicalItems]
  | d :: ds =>
      simp only [values?, Option.bind_eq_bind, Option.bind_eq_some_iff, Option.pure_def,
        Option.some.injEq] at h
      obtain ⟨v, hv, ws, hw, rfl⟩ := h
      exact ⟨canonical_of_value? hv, canonical_of_values? hw⟩

theorem canonical_of_fieldValues? {depth : Nat} {ds : List (Option String × Draft)}
    {fs : List (String × Json)} (h : fieldValues? depth ds = some fs) :
    Json.CanonicalFields fs := by
  match ds with
  | [] =>
      simp only [fieldValues?, Option.some.injEq] at h
      subst h
      simp [Json.CanonicalFields]
  | (none, d) :: ds => simp [fieldValues?] at h
  | (some key, d) :: ds =>
      simp only [fieldValues?, Option.bind_eq_bind, Option.bind_eq_some_iff, Option.pure_def,
        Option.some.injEq] at h
      obtain ⟨v, hv, gs, hg, rfl⟩ := h
      exact ⟨canonical_of_value? hv, canonical_of_fieldValues? hg⟩

end

/-- The value of a whole text. -/
def valueOf? (cs : List Char) : Option Json := (parse? cs).bind (value? maxDepth)

end Draft

end OfflineChat
