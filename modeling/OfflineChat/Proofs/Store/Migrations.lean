import OfflineChat.Proofs.Store.FileImage
import OfflineChat.Store.Calls

/-! # Migrations keep every row

A database is opened if its schema has the version 0 or 1, and is then at version 1 with the same
rows; otherwise it is refused and stays as it is. It makes no difference whether the migrations run
on the open database or its file is closed and opened again. Main statements: what each version
leads to (`Opening.run_of_known`, `Opening.run_of_lt`, `Opening.run_of_neg`), and
`Database.migrations_keep_rows`, about any run of openings and overwritten versions. -/

set_option autoImplicit false

namespace OfflineChat

namespace Database

variable {db : Database}

/-! ## One opening -/

theorem migrate_of_neg (h : db.version < 0) : db.migrate = .error (.outOfRange 0 db.version) := by
  have hfile : db.file.migrate = .error (.outOfRange 0 db.version) := if_pos h
  rw [migrate, DatabaseFile.opened, hfile]
  rfl

theorem migrate_of_lt (h : 1 < db.version) : db.migrate = .error (.newerSchema db.version 1) := by
  have hneg : ¬db.file.version < 0 := by
    show ¬db.version < 0
    omega
  have hlt : currentVersion < db.file.version := h
  have hfile : db.file.migrate = .error (.newerSchema db.version 1) := by
    rw [DatabaseFile.migrate, if_neg hneg, if_pos hlt]
    rfl
  rw [migrate, DatabaseFile.opened, hfile]
  rfl

theorem migrate_of_known (h : db.version = 0 ∨ db.version = 1) :
    db.migrate = .ok { db with version := 1 } := by
  obtain ⟨path, version, users, channels, messages⟩ := db
  rcases h with rfl | rfl
  · rfl
  · rfl

/-- Closing the file and opening it again loses nothing. -/
theorem reopen_eq_migrate (h : db.file.Fits) : db.reopen = db.migrate := by
  rw [reopen, DatabaseFile.ofImage?_image h]
  rfl

end Database

namespace Opening

theorem opened_eq (o : Opening) {db : Database} (h : db.file.Fits) : o.opened db = db.migrate := by
  cases o with
  | migrate => rfl
  | reopen => exact Database.reopen_eq_migrate h

variable {db : Database} (h : db.file.Fits) (o : Opening)
include h

theorem run_of_known (hv : db.version = 0 ∨ db.version = 1) :
    o.run db = (.ok (), { db with version := 1 }) := by
  rw [run, o.opened_eq h, Database.migrate_of_known hv]

theorem run_of_lt (hv : 1 < db.version) :
    o.run db = (.error (.newerSchema db.version 1), db) := by
  rw [run, o.opened_eq h, Database.migrate_of_lt hv]

theorem run_of_neg (hv : db.version < 0) :
    o.run db = (.error (.outOfRange 0 db.version), db) := by
  rw [run, o.opened_eq h, Database.migrate_of_neg hv]

theorem run_ok_iff : (o.run db).1 = .ok () ↔ db.version = 0 ∨ db.version = 1 := by
  constructor
  · intro hok
    by_cases hneg : db.version < 0
    · rw [run_of_neg h o hneg] at hok
      exact absurd hok (by simp)
    · by_cases hlt : 1 < db.version
      · rw [run_of_lt h o hlt] at hok
        exact absurd hok (by simp)
      · omega
  · intro hv
    rw [run_of_known h o hv]

/-- Whether or not it is refused, an opening leaves everything but the version. -/
theorem exists_run_eq :
    ∃ v, (v = db.version ∨ v = 1) ∧ (o.run db).2 = { db with version := v } := by
  by_cases hneg : db.version < 0
  · exact ⟨db.version, .inl rfl, by rw [run_of_neg h o hneg]⟩
  · by_cases hlt : 1 < db.version
    · exact ⟨db.version, .inl rfl, by rw [run_of_lt h o hlt]⟩
    · exact ⟨1, .inr rfl, by rw [run_of_known h o (by omega)]⟩

end Opening

/-! ## Runs of events -/

/-- A file fits with any version of 32 bits. -/
theorem DatabaseFile.Fits.withVersion {db : Database} (h : db.file.Fits) {v : Int}
    (hv : -0x8000_0000 ≤ v ∧ v < 0x8000_0000) : ({ db with version := v } : Database).file.Fits :=
  ⟨hv, h.users, h.channels, h.messages⟩

namespace SchemaEvent

/-- An event leaves everything but the version, which has 32 bits afterwards. -/
theorem exists_apply_eq (e : SchemaEvent) {db : Database} (h : db.file.Fits) :
    ∃ v, (-0x8000_0000 ≤ v ∧ v < 0x8000_0000) ∧ e.apply db = { db with version := v } := by
  cases e with
  | opening o =>
      obtain ⟨v, hv, hrun⟩ := Opening.exists_run_eq h o
      refine ⟨v, ?_, hrun⟩
      rcases hv with rfl | rfl
      · exact h.version
      · decide
  | version n =>
      refine ⟨_, ?_, rfl⟩
      split
      · assumption
      · decide

/-- Events one after another leave everything but the version. -/
theorem exists_applyAll_eq (events : List SchemaEvent) {db : Database} (h : db.file.Fits) :
    ∃ v, (-0x8000_0000 ≤ v ∧ v < 0x8000_0000) ∧ applyAll events db = { db with version := v } := by
  induction events generalizing db with
  | nil => exact ⟨db.version, h.version, rfl⟩
  | cons e events ih =>
      obtain ⟨v, hv, he⟩ := e.exists_apply_eq h
      obtain ⟨w, hw, hrest⟩ := ih (h.withVersion hv)
      exact ⟨w, hw, by rw [applyAll, List.foldl_cons, he]; exact hrest⟩

/-- A database at version 1 is opened as often as one likes, and stays as it is. -/
theorem applyAll_openings {db : Database} (h : db.file.Fits) (hv : db.version = 1)
    (os : List Opening) : applyAll (os.map opening) db = db := by
  have hsame : ({ db with version := 1 } : Database) = db := by rw [← hv]
  induction os with
  | nil => rfl
  | cons o os ih =>
      have hrun : (o.run db).2 = db := by rw [Opening.run_of_known h o (.inr hv), hsame]
      calc applyAll ((o :: os).map opening) db = applyAll (os.map opening) (o.run db).2 := rfl
        _ = db := by rw [hrun, ih]

end SchemaEvent

/-- **Migrations lose no row and refuse cleanly.** A database is opened just if its version is 0 or
1, and has the version 1 and the same rows afterwards; a later version and a negative one are
refused, each with its own failure, and nothing changes. So whatever happens to the schema, no row
ever changes; and once an opening has succeeded, all those after it succeed and change nothing,
unless the version is overwritten. -/
theorem Database.migrations_keep_rows (db : Database) (h : db.file.Fits) :
    (∀ o : Opening,
      ((o.run db).1 = .ok () ↔ db.version = 0 ∨ db.version = 1) ∧
      ((o.run db).1 = .ok () → (o.run db).2 = { db with version := 1 }) ∧
      (1 < db.version → o.run db = (.error (.newerSchema db.version 1), db)) ∧
      (db.version < 0 → o.run db = (.error (.outOfRange 0 db.version), db))) ∧
    (∀ events : List SchemaEvent, ∃ v, SchemaEvent.applyAll events db = { db with version := v }) ∧
    (∀ (before : List SchemaEvent) (o : Opening),
      (o.run (SchemaEvent.applyAll before db)).1 = .ok () →
        ∀ (between : List Opening) (o' : Opening),
          let opened := (o.run (SchemaEvent.applyAll before db)).2
          o'.run (SchemaEvent.applyAll (between.map .opening) opened) = (.ok (), opened)) := by
  refine ⟨fun o => ⟨Opening.run_ok_iff h o, fun hok => ?_, Opening.run_of_lt h o,
    Opening.run_of_neg h o⟩, fun events => ?_, fun before o hok between o' => ?_⟩
  · rw [Opening.run_of_known h o ((Opening.run_ok_iff h o).1 hok)]
  · obtain ⟨v, -, hv⟩ := SchemaEvent.exists_applyAll_eq events h
    exact ⟨v, hv⟩
  · obtain ⟨v, hv, hbefore⟩ := SchemaEvent.exists_applyAll_eq before h
    have hfits : (SchemaEvent.applyAll before db).file.Fits := hbefore ▸ h.withVersion hv
    have hknown := (Opening.run_ok_iff hfits o).1 hok
    -- the opening has left version 1
    rw [Opening.run_of_known hfits o hknown]
    have hopened := hfits.withVersion (v := 1) (by decide)
    show o'.run (SchemaEvent.applyAll (between.map .opening) _) = _
    rw [SchemaEvent.applyAll_openings hopened rfl between,
      Opening.run_of_known hopened o' (.inr rfl)]

/-- A file of a later version is refused when it is opened again; once its version has been set
back, it is opened as often as one likes, and has its user all the time. -/
theorem Database.migrations_keep_rows_alice :
    let db := ((create (some "chat.db")).putUsers [User.new "alice"]).withVersion 7
    let opened := (Opening.reopen.run (db.withVersion 0)).2
    db.file.Fits ∧
    Opening.reopen.run db = (.error (.newerSchema 7 1), db) ∧
    (∃ v, SchemaEvent.applyAll [.version 0, .opening .reopen, .version (-1), .opening .migrate] db
      = { db with version := v }) ∧
    (Opening.reopen.run (db.withVersion 0)).1 = .ok () ∧
    Opening.migrate.run (SchemaEvent.applyAll [.opening .reopen] opened) = (.ok (), opened) := by
  intro db opened
  have husers : db.users.Fits := by
    intro r hr
    obtain rfl := List.mem_singleton.1 hr
    exact UserRecord.fits_toRow _
  have hnone : (Table.empty : Table Row).Fits := fun r hr => absurd hr List.not_mem_nil
  have h : db.file.Fits :=
    ⟨by decide, fun t ht => Option.some.inj ht ▸ husers, fun t ht => Option.some.inj ht ▸ hnone,
      fun t ht => Option.some.inj ht ▸ hnone⟩
  have hok : (Opening.reopen.run (db.withVersion 0)).1 = .ok () :=
    (Opening.run_ok_iff (h.withVersion (by decide)) .reopen).2 (.inl rfl)
  obtain ⟨hopening, hevents, hagain⟩ := migrations_keep_rows db h
  exact ⟨h, (hopening .reopen).2.2.1 (by decide), hevents _, hok,
    hagain [.version 0] .reopen hok [.reopen] .migrate⟩

end OfflineChat
