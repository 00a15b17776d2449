import NoteIndex.Failure

/-! Notices that operations leave in the log, and operations that may leave some and may fail. -/
namespace NoteIndex

/-- What the log tells. -/
inductive Notice where
  | defaultSettings
  | missingFolder
  | unreadableDirectory
  | unknownFolder
  | failedFolder
  | unexpectedVersion
  | unindexedChange
  | outsideFolders
  | failedEvent
  | failedRequest
  | nonFileDocument
  | nonFileFolder
  deriving DecidableEq, Repr

namespace Notice

/-- Whether a notice tells of an error, and not only a warning. -/
def isError : Notice → Bool
  | failedFolder => true
  | outsideFolders => true
  | failedEvent => true
  | failedRequest => true
  | _ => false

def message : Notice → String
  | defaultSettings => "using default settings"
  | missingFolder => "workspace folder does not exist"
  | unreadableDirectory => "skipping unreadable directory"
  | unknownFolder => "removing unknown workspace folder"
  | failedFolder => "failed to scan added workspace folder, leaving it out"
  | unexpectedVersion => "unexpected document version, applying edits as given"
  | unindexedChange => "change for a document that is not indexed"
  | outsideFolders => "path is outside every workspace folder"
  | failedEvent => "event failed, keeping the previous state"
  | failedRequest => "request failed"
  | nonFileDocument => "ignoring non-file document"
  | nonFileFolder => "skipping non-file workspace folder"

end Notice

theorem bind_eq_ok_iff {ε α β : Type} {x : Except ε α} {f : α → Except ε β} {b : β} :
    x >>= f = .ok b ↔ ∃ a, x = .ok a ∧ f a = .ok b := by
  cases x <;> simp [bind, Except.bind]

theorem eq_ok_get {ε α : Type} {x : Except ε α} (h : x.toOption.isSome = true) :
    x = .ok (x.toOption.get h) := by
  cases x with
  | error e => simp [Except.toOption] at h
  | ok a => rfl

theorem exists_error_iff {ε α : Type} {x : Except ε α} :
    (∃ e, x = .error e) ↔ ¬∃ a, x = .ok a := by
  cases x <;> simp

/-- What every step of a fold preserves holds of its result. -/
theorem foldlM_preserves {ε α β : Type} {f : β → α → Except ε β} {P : β → Prop} {xs : List α}
    (hstep : ∀ b, ∀ a ∈ xs, ∀ c, f b a = .ok c → P b → P c) {init result : β}
    (h : xs.foldlM f init = .ok result) (hinit : P init) : P result := by
  induction xs generalizing init with
  | nil =>
    cases h
    exact hinit
  | cons x xs ih =>
    rw [List.foldlM_cons] at h
    obtain ⟨next, hnext, hrest⟩ := bind_eq_ok_iff.1 h
    have hmem : x ∈ x :: xs := List.mem_cons_self
    exact ih (fun b a ha => hstep b a (List.mem_cons_of_mem x ha)) hrest
      (hstep init x hmem next hnext hinit)

/-- Every result of a traversal is the result of one of its inputs. -/
theorem exists_of_mem_mapM {ε α β : Type} {f : α → Except ε β} {xs : List α} {ys : List β}
    (h : xs.mapM f = .ok ys) : ∀ y ∈ ys, ∃ x ∈ xs, f x = .ok y := by
  induction xs generalizing ys with
  | nil =>
    cases h
    simp
  | cons x xs ih =>
    rw [List.mapM_cons] at h
    obtain ⟨first, hfirst, h⟩ := bind_eq_ok_iff.1 h
    obtain ⟨rest, hrest, h⟩ := bind_eq_ok_iff.1 h
    cases h
    intro y hy
    rcases List.mem_cons.1 hy with rfl | hy
    · exact ⟨x, List.mem_cons_self, hfirst⟩
    · obtain ⟨z, hz, hzy⟩ := ih hrest y hy
      exact ⟨z, List.mem_cons_of_mem x hz, hzy⟩

/-- A result, and the notices on the way to it in order. -/
structure Logged (α : Type) where
  value : α
  log : List Notice

namespace Logged

instance : Monad Logged where
  pure a := ⟨a, []⟩
  bind x f := ⟨(f x.value).value, x.log ++ (f x.value).log⟩

def note (notice : Notice) : Logged Unit := ⟨(), [notice]⟩

@[simp] theorem value_pure {α : Type} (a : α) : (pure a : Logged α).value = a := rfl

@[simp] theorem value_bind {α β : Type} (x : Logged α) (f : α → Logged β) :
    (x >>= f).value = (f x.value).value := rfl

@[simp] theorem log_pure {α : Type} (a : α) : (pure a : Logged α).log = [] := rfl

@[simp] theorem log_bind {α β : Type} (x : Logged α) (f : α → Logged β) :
    (x >>= f).log = x.log ++ (f x.value).log := rfl

instance : LawfulMonad Logged := LawfulMonad.mk' Logged
  (fun x => by
    change (⟨x.value, x.log ++ []⟩ : Logged _) = x
    rw [List.append_nil])
  (fun a f => by
    change (⟨(f a).value, [] ++ (f a).log⟩ : Logged _) = f a
    rw [List.nil_append])
  (fun x f g => by
    change (⟨_, (x.log ++ (f x.value).log) ++ _⟩ : Logged _) = ⟨_, x.log ++ ((f x.value).log ++ _)⟩
    rw [List.append_assoc]
    rfl)

theorem value_foldlM {α β : Type} (f : β → α → Logged β) (init : β) (xs : List α) :
    (xs.foldlM f init).value = xs.foldl (fun b a => (f b a).value) init := by
  induction xs generalizing init with
  | nil => rfl
  | cons x xs ih => simp only [List.foldlM_cons, value_bind, ih, List.foldl_cons]

end Logged

/-- An operation that may leave notices and may fail. -/
abbrev Step (α : Type) := ExceptT Failure Logged α

namespace Step

def note (notice : Notice) : Step Unit := ExceptT.lift (Logged.note notice)

def noteAll (notices : List Notice) : Step Unit := ExceptT.lift ⟨(), notices⟩

/-- The outcome of an operation without its notices. -/
def outcome {α : Type} (step : Step α) : Except Failure α := step.run.value

/-- The notices of an operation. -/
def log {α : Type} (step : Step α) : List Notice := step.run.log

@[simp] theorem outcome_pure {α : Type} (a : α) : outcome (pure a) = .ok a := rfl

@[simp] theorem outcome_throw {α : Type} (failure : Failure) :
    outcome (throw failure : Step α) = .error failure := rfl

@[simp] theorem outcome_note (notice : Notice) : outcome (note notice) = .ok () := rfl

@[simp] theorem outcome_noteAll (notices : List Notice) : outcome (noteAll notices) = .ok () := rfl

@[simp] theorem outcome_bind {α β : Type} (x : Step α) (f : α → Step β) :
    outcome (x >>= f) = x.outcome >>= fun a => (f a).outcome := by
  change (ExceptT.bindCont f x.run.value).value = _
  unfold ExceptT.bindCont outcome
  cases x.run.value <;> rfl

@[simp] theorem outcome_liftExcept {α : Type} (x : Except Failure α) :
    outcome (liftM x : Step α) = x := rfl

@[simp] theorem outcome_liftLogged {α : Type} (x : Logged α) :
    outcome (liftM x : Step α) = .ok x.value := rfl

theorem outcome_foldlM {α β : Type} (f : β → α → Step β) (init : β) (xs : List α) :
    outcome (xs.foldlM f init) = xs.foldlM (fun b a => (f b a).outcome) init := by
  induction xs generalizing init with
  | nil => rfl
  | cons x xs ih => simp only [List.foldlM_cons, outcome_bind, ih]

theorem outcome_mapM {α β : Type} (f : α → Step β) (xs : List α) :
    outcome (xs.mapM f) = xs.mapM fun a => (f a).outcome := by
  induction xs with
  | nil => rfl
  | cons x xs ih => simp only [List.mapM_cons, outcome_bind, outcome_pure, ih]; rfl

end Step

end NoteIndex
