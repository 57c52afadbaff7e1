import OfflineChat.Sync.Retry

/-! # Courses of retry passes

Passes over one repository follow one another, and between their steps other things happen to what
they work on. A pass need not come to its end: it stays where it waits for an answer, and it is
given up when another one starts. A page that is on its way to the database by then is written all
the same, and counts as written back before. Main definitions: `RetryEvent`, what can happen next,
and `RetryCourse` with `RetryCourse.next` and `RetryCourse.run`. -/

set_option autoImplicit false

namespace OfflineChat

/-- What can happen next. -/
inductive RetryEvent (τ : Type) where
  /-- A pass starts; one that is under way is given up. -/
  | start (rules : SyncRules)
  /-- The pass takes a step. -/
  | step
  /-- Something else happens. -/
  | others (what : τ)

/-- What passes work on, and the pass that is under way with its rules. -/
structure RetryCourse (σ ε : Type) where
  state : σ
  rules : SyncRules
  pass : RetryPass ε

namespace RetryCourse

variable {σ ε τ : Type}

/-- No pass is under way. -/
def new (rules : SyncRules) (s : σ) : RetryCourse σ ε := ⟨s, rules, .finished (.ok .empty)⟩

variable [Syncable ε]

/-- One thing happens. -/
def next (x : Exchange σ ε) (others : τ → σ → σ) (r : RetryCourse σ ε) :
    RetryEvent τ → RetryCourse σ ε
  | .start rules => { r with rules, pass := .start }
  | .step =>
      let (pass, state) := r.pass.step x r.rules r.state
      { r with pass, state }
  | .others what => { r with state := others what r.state }

/-- One thing happens after another. -/
def run (x : Exchange σ ε) (others : τ → σ → σ) (r : RetryCourse σ ε)
    (events : List (RetryEvent τ)) : RetryCourse σ ε :=
  events.foldl (next x others) r

end RetryCourse

end OfflineChat
