import Mathlib.Data.Option.Basic

/-!
# Machinery/Savepoint — one connection, its failed statements and its savepoints

    BEGIN ▸ statement ▸ statement fails ▸ every statement fails … ▸ ROLLBACK
    BEGIN ▸ SAVEPOINT ▸ statement fails ▸ ROLLBACK TO ▸ statement ▸ COMMIT

A call on a connection returns a value or an error and leaves the connection behind: an error that
its caller handles is not undone.  A statement that fails aborts the connection, and an aborted
connection refuses every statement until the transaction, or the savepoint it is in, is rolled
back.
-/

namespace Sql

variable {D E α β : Type}

/-- A connection inside a transaction: what it sees, and whether a statement has failed. -/
structure Conn (D : Type) where
  db : D
  aborted : Bool

/-- Why a call fails: for itself, or because an earlier statement aborted the connection. -/
inductive Failure (E : Type)
  | failed (e : E)
  | aborted

/-- A call on a connection. -/
def Call (D E α : Type) := Conn D → Except (Failure E) α × Conn D

namespace Call

/-- Go on with the result, or stop with the error. -/
protected def bind (x : Call D E α) (f : α → Call D E β) : Call D E β := fun c =>
  match x c with
  | (.ok a, c) => f a c
  | (.error e, c) => (.error e, c)

instance : Monad (Call D E) where
  pure a := fun c => (.ok a, c)
  bind := Call.bind

/-- An error of the caller itself, which no statement made. -/
def fail (e : E) : Call D E α := fun c => (.error (.failed e), c)

/-- One statement. -/
def statement (f : D → Except E (α × D)) : Call D E α := fun c =>
  if c.aborted then (.error .aborted, c)
  else
    match f c.db with
    | .ok (a, db) => (.ok a, ⟨db, false⟩)
    | .error e => (.error (.failed e), ⟨c.db, true⟩)

/-- Handle the error of a call as a value. -/
def attempt (x : Call D E α) : Call D E (Except (Failure E) α) := fun c =>
  let (r, c) := x c
  (.ok r, c)

/-- A transaction inside the transaction. -/
def savepoint (x : Call D E α) : Call D E α := fun c =>
  if c.aborted then (.error .aborted, c)
  else
    match x c with
    | (.ok a, c') => if c'.aborted then (.error .aborted, c) else (.ok a, c')
    | (.error e, _) => (.error e, c)

/-- The whole transaction: its result and what it commits, or the error it rolled back for. -/
def transaction (x : Call D E α) (db : D) : Except (Failure E) (α × D) :=
  match x ⟨db, false⟩ with
  | (.ok a, c) => if c.aborted then .error .aborted else .ok (a, c.db)
  | (.error e, _) => .error e

/-! ## How calls compose -/

@[simp] theorem pure_run (a : α) (c : Conn D) : (pure a : Call D E α) c = (.ok a, c) := rfl

theorem bind_ok {x : Call D E α} {f : α → Call D E β} {c c' : Conn D} {a : α}
    (h : x c = (.ok a, c')) : (x >>= f) c = f a c' := by
  simp only [bind, Call.bind, h]

theorem bind_error {x : Call D E α} {f : α → Call D E β} {c c' : Conn D} {e : Failure E}
    (h : x c = (.error e, c')) : (x >>= f) c = (.error e, c') := by
  simp only [bind, Call.bind, h]

theorem attempt_bind {x : Call D E α} {f : Except (Failure E) α → Call D E β} {c c' : Conn D}
    {r : Except (Failure E) α} (h : x c = (r, c')) : (attempt x >>= f) c = f r c' := by
  refine bind_ok ?_
  simp only [attempt, h]

theorem statement_ok {f : D → Except E (α × D)} {db db' : D} {a : α} (h : f db = .ok (a, db')) :
    statement f ⟨db, false⟩ = (.ok a, ⟨db', false⟩) := by
  simp [statement, h]

theorem statement_error {f : D → Except E (α × D)} {db : D} {e : E} (h : f db = .error e) :
    statement f ⟨db, false⟩ = (.error (.failed e), ⟨db, true⟩) := by
  simp [statement, h]

theorem statement_aborted (f : D → Except E (α × D)) (db : D) :
    statement f ⟨db, true⟩ = (.error .aborted, ⟨db, true⟩) := rfl

theorem savepoint_ok {x : Call D E α} {db db' : D} {a : α}
    (h : x ⟨db, false⟩ = (.ok a, ⟨db', false⟩)) :
    savepoint x ⟨db, false⟩ = (.ok a, ⟨db', false⟩) := by
  simp [savepoint, h]

/-- **A failure inside a savepoint is undone.** -/
theorem savepoint_error {x : Call D E α} {db : D} {c : Conn D} {e : Failure E}
    (h : x ⟨db, false⟩ = (.error e, c)) : savepoint x ⟨db, false⟩ = (.error e, ⟨db, false⟩) := by
  simp [savepoint, h]

theorem transaction_ok {x : Call D E α} {db db' : D} {a : α}
    (h : x ⟨db, false⟩ = (.ok a, ⟨db', false⟩)) : transaction x db = .ok (a, db') := by
  simp [transaction, h]

theorem transaction_error {x : Call D E α} {db : D} {c : Conn D} {e : Failure E}
    (h : x ⟨db, false⟩ = (.error e, c)) : transaction x db = .error e := by
  simp [transaction, h]

/-! ## What a call that succeeded has done -/

theorem eq_ok_of_bind {x : Call D E α} {f : α → Call D E β} {c c' : Conn D} {b : β}
    (h : (x >>= f) c = (.ok b, c')) : ∃ a c₁, x c = (.ok a, c₁) ∧ f a c₁ = (.ok b, c') := by
  match hx : x c with
  | (.ok a, c₁) => exact ⟨a, c₁, rfl, (bind_ok hx).symm.trans h⟩
  | (.error e, c₁) =>
    rw [bind_error hx] at h
    cases h

theorem eq_ok_of_statement {f : D → Except E (α × D)} {c c' : Conn D} {a : α}
    (h : statement f c = (.ok a, c')) :
    c.aborted = false ∧ c'.aborted = false ∧ f c.db = .ok (a, c'.db) := by
  obtain ⟨db, aborted⟩ := c
  cases aborted with
  | true => cases h
  | false =>
    match hf : f db with
    | .ok (a', db') =>
      cases (statement_ok hf).symm.trans h
      exact ⟨rfl, rfl, rfl⟩
    | .error e =>
      rw [statement_error hf] at h
      cases h

theorem eq_ok_of_transaction {x : Call D E α} {db db' : D} {a : α}
    (h : transaction x db = .ok (a, db')) : x ⟨db, false⟩ = (.ok a, ⟨db', false⟩) := by
  unfold transaction at h
  match hx : x ⟨db, false⟩ with
  | (.ok a', ⟨db₁, true⟩) => simp [hx] at h
  | (.ok a', ⟨db₁, false⟩) =>
    obtain ⟨rfl, rfl⟩ : a' = a ∧ db₁ = db' := by simpa [hx] using h
    rfl
  | (.error e, c) => simp [hx] at h

/-- What `φ` reads is left alone by a call that succeeds. -/
def Keeps {γ : Type} (φ : D → γ) (x : Call D E α) : Prop :=
  ∀ c a c', x c = (.ok a, c') → φ c'.db = φ c.db

section Keeps

variable {γ : Type} {φ : D → γ}

theorem keeps_pure (a : α) : Keeps φ (pure a : Call D E α) := by
  intro c b c' h
  cases h
  rfl

theorem keeps_fail (e : E) : Keeps φ (fail e : Call D E α) := fun _ _ _ h => (nomatch h)

theorem keeps_statement {f : D → Except E (α × D)}
    (h : ∀ db a db', f db = .ok (a, db') → φ db' = φ db) : Keeps φ (statement f) :=
  fun _ _ _ hs => h _ _ _ (eq_ok_of_statement hs).2.2

theorem Keeps.bind {x : Call D E α} {f : α → Call D E β} (hx : Keeps φ x)
    (hf : ∀ a, Keeps φ (f a)) : Keeps φ (x >>= f) := by
  intro c b c' h
  obtain ⟨a, c₁, h₁, h₂⟩ := eq_ok_of_bind h
  exact (hf a _ _ _ h₂).trans (hx _ _ _ h₁)

end Keeps

/-- A call moves the tables along `R` only, also when it fails. -/
def Moves (R : D → D → Prop) (x : Call D E α) : Prop := ∀ c, R c.db (x c).2.db

section Moves

variable {R : D → D → Prop}

theorem moves_pure (hrefl : ∀ d, R d d) (a : α) : Moves R (pure a : Call D E α) := fun c => hrefl c.db

theorem moves_statement (hrefl : ∀ d, R d d) {f : D → Except E (α × D)}
    (h : ∀ db a db', f db = .ok (a, db') → R db db') : Moves R (statement f) := by
  rintro ⟨db, aborted⟩
  cases aborted with
  | true => exact hrefl db
  | false =>
    match hf : f db with
    | .ok (a, db') =>
      rw [statement_ok hf]
      exact h db a db' hf
    | .error e =>
      rw [statement_error hf]
      exact hrefl db

theorem Moves.bind (htrans : ∀ {a b c}, R a b → R b c → R a c) {x : Call D E α}
    {f : α → Call D E β} (hx : Moves R x) (hf : ∀ a, Moves R (f a)) : Moves R (x >>= f) := by
  intro c
  have hfirst := hx c
  match hrun : x c with
  | (.ok a, c₁) =>
    rw [bind_ok hrun]
    rw [hrun] at hfirst
    exact htrans hfirst (hf a c₁)
  | (.error e, c₁) =>
    rw [bind_error hrun]
    rwa [hrun] at hfirst

/-- A savepoint that fails moves nothing. -/
theorem Moves.savepoint (hrefl : ∀ d, R d d) {x : Call D E α} (hx : Moves R x) :
    Moves R (savepoint x) := by
  intro c
  have hinner := hx c
  unfold Call.savepoint
  split
  · exact hrefl c.db
  split
  next a c' hrun =>
    split
    · exact hrefl c.db
    · rwa [hrun] at hinner
  next => exact hrefl c.db

end Moves

theorem eq_ok_of_savepoint {x : Call D E α} {c c' : Conn D} {a : α}
    (h : savepoint x c = (.ok a, c')) : x c = (.ok a, c') ∧ c.aborted = false := by
  unfold savepoint at h
  split at h
  · cases h
  · next haborted =>
    refine ⟨?_, by simpa using haborted⟩
    split at h
    next a' c₁ hrun =>
      split at h
      · cases h
      · exact hrun.trans h
    next => cases h

end Call

end Sql
