import Mathlib.Logic.Function.Basic
import Mathlib.Logic.Relation
import Mathlib.Tactic.Common

/-!
# Machinery/Transaction — sessions over one database, under READ COMMITTED

    session 1   stmt ── stmt ── commit ─────────────────▸
    session 2         stmt ──────────── stmt ── rollback ─▸
    database    d ──────────── d₁ ──────────────────────▸

A session runs a program of statements.  A statement reads the committed database with the
session's own pending writes over it (`Session.view`), waits until no other session holds a
conflicting lock, and adds its writes to the pending ones; `commit` publishes them in one step.
Statement by statement this is READ COMMITTED with row locks: a filter is evaluated on the rows as
they are once the lock is granted.

Each statement also takes an outcome `C` from outside — the clock, a sequence, the rows that
`SKIP LOCKED` passes over — and nothing is assumed about it.
-/

namespace Transaction

variable {I C D W K α β : Type}

/-! ## The database engine -/

/-- What a write does, the locks it takes, and which locks exclude each other. -/
structure Engine (D W K : Type) where
  apply : D → W → D
  locks : W → List K
  conflict : K → K → Prop

/-- The database with a list of writes over it. -/
def Engine.applyAll (e : Engine D W K) (d : D) (ws : List W) : D := ws.foldl e.apply d

@[simp] theorem Engine.applyAll_nil (e : Engine D W K) (d : D) : e.applyAll d [] = d := rfl

@[simp] theorem Engine.applyAll_cons (e : Engine D W K) (d : D) (w : W) (ws : List W) :
    e.applyAll d (w :: ws) = e.applyAll (e.apply d w) ws := rfl

theorem Engine.applyAll_append (e : Engine D W K) (d : D) (ws ws' : List W) :
    e.applyAll d (ws ++ ws') = e.applyAll (e.applyAll d ws) ws' := List.foldl_append

/-- No lock of one list conflicts with a lock of the other. -/
def Engine.Compatible (e : Engine D W K) (h h' : List K) : Prop :=
  ∀ k ∈ h, ∀ k' ∈ h', ¬ e.conflict k k' ∧ ¬ e.conflict k' k

theorem Engine.Compatible.symm {e : Engine D W K} {h h' : List K} (hc : e.Compatible h h') :
    e.Compatible h' h := fun k hk k' hk' => (hc k' hk' k hk).symm

theorem Engine.compatible_nil (e : Engine D W K) (h : List K) : e.Compatible [] h :=
  fun _ hk => (List.not_mem_nil hk).elim

theorem Engine.compatible_append {e : Engine D W K} {h₁ h₂ h : List K} :
    e.Compatible (h₁ ++ h₂) h ↔ e.Compatible h₁ h ∧ e.Compatible h₂ h := by
  refine ⟨fun hc => ⟨fun k hk => hc k (List.mem_append_left _ hk),
    fun k hk => hc k (List.mem_append_right _ hk)⟩, fun hc k hk => ?_⟩
  rcases List.mem_append.mp hk with hk | hk
  · exact hc.1 k hk
  · exact hc.2 k hk

/-- The pending writes are on locked rows. -/
def Engine.Covered (e : Engine D W K) (h : List K) (p : List W) : Prop :=
  ∀ w ∈ p, ∀ k ∈ e.locks w, k ∈ h

/-- The locks a statement asks for: those it names, and those of its writes. -/
def Engine.wanted (e : Engine D W K) (named : List K) (ws : List W) : List K :=
  named ++ ws.flatMap e.locks

theorem Engine.Covered.append {e : Engine D W K} {h : List K} {p : List W} (hp : e.Covered h p)
    (named : List K) (ws : List W) : e.Covered (h ++ e.wanted named ws) (p ++ ws) := by
  intro w hw k hk
  rcases List.mem_append.mp hw with hw | hw
  · exact List.mem_append_left _ (hp w hw k hk)
  · refine List.mem_append_right _ (List.mem_append_right _ ?_)
    exact List.mem_flatMap.mpr ⟨w, hw, hk⟩

/-! ## Programs -/

/-- A program of a session; `err` is where it goes when the statement fails. -/
inductive Prog (C D W K : Type)
  | done
  | stmt (locks : C → D → List K) (writes : C → D → List W) (next : C → D → Prog C D W K)
      (err : Prog C D W K)
  | commit (next err : Prog C D W K)
  | rollback (next : Prog C D W K)

/-- The program has nothing left to run. -/
def Prog.isDone : Prog C D W K → Bool
  | done => true
  | _ => false

theorem Prog.eq_done {p : Prog C D W K} (h : p.isDone) : p = .done := by
  cases p with
  | done => rfl
  | stmt | commit | rollback => cases h

/-- Go on with what comes from outside and what is committed, without a transaction. -/
def Prog.ask (next : C → D → Prog C D W K) : Prog C D W K :=
  .stmt (fun _ _ => []) (fun _ _ => []) next .done

/-- What the next statement of a program writes. -/
def Prog.writes (c : C) (d : D) : Prog C D W K → List W
  | stmt _ writes _ _ => writes c d
  | _ => []

/-- The body of a transaction. -/
inductive Tx (C D W K α : Type)
  | ret (a : α)
  | throw
  | stmt (locks : C → D → List K) (writes : C → D → List W) (next : C → D → Tx C D W K α)

namespace Tx

/-- Sequencing. -/
def bind : Tx C D W K α → (α → Tx C D W K β) → Tx C D W K β
  | ret a, f => f a
  | throw, _ => throw
  | stmt l w n, f => stmt l w fun c d => (n c d).bind f

instance : Monad (Tx C D W K) where
  pure := ret
  bind := bind

/-- One statement: its locks, its writes and its result; no result is an error. -/
def statement (locks : C → D → List K) (writes : C → D → List W) (result : C → D → Option α) :
    Tx C D W K α :=
  stmt locks writes fun c d => (result c d).elim throw ret

/-- A plain `SELECT`. -/
def query (result : C → D → α) : Tx C D W K α :=
  stmt (fun _ _ => []) (fun _ _ => []) fun c d => ret (result c d)

/-- Run the body as a transaction: commit its result, or roll back and go on at `err`. -/
def run (ok : α → Prog C D W K) (err : Prog C D W K) : Tx C D W K α → Prog C D W K
  | ret a => .commit (ok a) err
  | throw => .rollback err
  | stmt l w n => .stmt l w (fun c d => (n c d).run ok err) (.rollback err)

theorem bind_assoc {γ : Type} (t : Tx C D W K α) (f : α → Tx C D W K β) (g : β → Tx C D W K γ) :
    (t >>= f) >>= g = t >>= fun a => f a >>= g := by
  change (t.bind f).bind g = t.bind fun a => (f a).bind g
  induction t with
  | ret a => rfl
  | throw => rfl
  | stmt l w n ih => simp only [bind, ih]

/-- A transaction that starts with a statement. -/
theorem run_statement_bind (locks : C → D → List K) (writes : C → D → List W)
    (result : C → D → Option α) (f : α → Tx C D W K β) (ok : β → Prog C D W K)
    (err : Prog C D W K) :
    (statement locks writes result >>= f).run ok err = .stmt locks writes
      (fun c d => (result c d).elim (.rollback err) fun a => (f a).run ok err) (.rollback err) := by
  change Prog.stmt locks writes _ _ = _
  congr
  funext c d
  change (((result c d).elim throw ret).bind f).run ok err = _
  cases result c d <;> rfl

/-- Every write of the body satisfies `P`. -/
def Writes (P : W → Prop) : Tx C D W K α → Prop
  | ret _ => True
  | throw => True
  | stmt _ w n => ∀ c d, (∀ x ∈ w c d, P x) ∧ (n c d).Writes P

end Tx

/-! ## Sessions and the world -/

/-- A session: what it has left to run, the locks it holds and its pending writes. -/
structure Session (C D W K : Type) where
  prog : Prog C D W K
  held : List K
  pend : List W

/-- What a statement of the session reads. -/
def Session.view (e : Engine D W K) (s : Session C D W K) (d : D) : D := e.applyAll d s.pend

/-- One committed transaction: whose, on which database, with which locks and writes. -/
structure Commit (I D W K : Type) where
  session : I
  before : D
  held : List K
  writes : List W

/-- The committed database, the sessions, and what was committed so far (newest first). -/
structure World (I C D W K : Type) where
  db : D
  session : I → Session C D W K
  log : List (Commit I D W K)

variable [DecidableEq I]

/-- Change one session. -/
def World.set (w : World I C D W K) (i : I) (s : Session C D W K) : World I C D W K :=
  { w with session := Function.update w.session i s }

@[simp] theorem World.set_self (w : World I C D W K) (i : I) (s : Session C D W K) :
    (w.set i s).session i = s := Function.update_self ..

theorem World.set_of_ne (w : World I C D W K) {i j : I} (h : j ≠ i) (s : Session C D W K) :
    (w.set i s).session j = w.session j := Function.update_of_ne h ..

/-- What can happen next, and to which session. -/
inductive Event (I C D W K : Type)
  | start (i : I) (p : Prog C D W K)
  | exec (i : I) (c : C)
  | fail (i : I)
  | commit (i : I)
  | commitFails (i : I)
  | rollback (i : I)
  | crash (i : I)

/-- The event can happen: a program is started that the session may run, a statement is granted its
locks. -/
def Event.Enabled (e : Engine D W K) (starts : I → Prog C D W K → Prop) (w : World I C D W K) :
    Event I C D W K → Prop
  | start i p => (w.session i).prog = .done ∧ starts i p
  | exec i c => ∃ l wr n err, (w.session i).prog = .stmt l wr n err ∧
      ∀ j, j ≠ i → e.Compatible
        (e.wanted (l c ((w.session i).view e w.db)) (wr c ((w.session i).view e w.db)))
        (w.session j).held
  | fail i => ∃ l wr n err, (w.session i).prog = .stmt l wr n err
  | commit i | commitFails i => ∃ n err, (w.session i).prog = .commit n err
  | rollback i => ∃ n, (w.session i).prog = .rollback n
  | crash _ => True

/-- The world after an event. -/
def World.after (e : Engine D W K) (w : World I C D W K) : Event I C D W K → World I C D W K
  | .start i p => w.set i ⟨p, [], []⟩
  | .exec i c =>
    match (w.session i).prog with
    | .stmt l wr n _ =>
      let v := (w.session i).view e w.db
      w.set i ⟨n c v, (w.session i).held ++ e.wanted (l c v) (wr c v),
        (w.session i).pend ++ wr c v⟩
    | _ => w
  | .fail i =>
    match (w.session i).prog with
    | .stmt _ _ _ err => w.set i ⟨err, (w.session i).held, (w.session i).pend⟩
    | _ => w
  | .commit i =>
    match (w.session i).prog with
    | .commit n _ =>
      let s := w.session i
      { db := e.applyAll w.db s.pend
        session := Function.update w.session i ⟨n, [], []⟩
        log := ⟨i, w.db, s.held, s.pend⟩ :: w.log }
    | _ => w
  | .commitFails i =>
    match (w.session i).prog with
    | .commit _ err => w.set i ⟨err, [], []⟩
    | _ => w
  | .rollback i =>
    match (w.session i).prog with
    | .rollback n => w.set i ⟨n, [], []⟩
    | _ => w
  | .crash i => w.set i ⟨.done, [], []⟩

/-- **The worlds reached from `w₀`**, by any interleaving. -/
inductive Reachable (e : Engine D W K) (starts : I → Prog C D W K → Prop) (w₀ : World I C D W K) :
    World I C D W K → Prop
  | refl : Reachable e starts w₀ w₀
  | step {w : World I C D W K} (ev : Event I C D W K) :
      Reachable e starts w₀ w → ev.Enabled e starts w → Reachable e starts w₀ (w.after e ev)

theorem Reachable.trans {e : Engine D W K} {starts : I → Prog C D W K → Prop}
    {w₀ w₁ w₂ : World I C D W K} (h : Reachable e starts w₀ w₁) (h' : Reachable e starts w₁ w₂) :
    Reachable e starts w₀ w₂ := by
  induction h' with
  | refl => exact h
  | step ev _ hev ih => exact ih.step ev hev

theorem Reachable.start {e : Engine D W K} {starts : I → Prog C D W K → Prop}
    {w₀ w : World I C D W K} (h : Reachable e starts w₀ w) {i : I} {q : Prog C D W K}
    (hidle : (w.session i).prog = .done) (hq : starts i q) :
    Reachable e starts w₀ (w.after e (.start i q)) :=
  h.step (.start i q) ⟨hidle, hq⟩

/-- The world with an idle session for everyone and nothing committed. -/
def World.idle (d : D) : World I C D W K := ⟨d, fun _ => ⟨.done, [], []⟩, []⟩

/-! ## One session by itself

While the others hold no lock that matters, a session runs from its outcomes alone. -/

/-- The next event of a session: its statement with the outcome `c`, or the end of its
transaction. -/
def World.nextEvent (w : World I C D W K) (i : I) (c : C) : Event I C D W K :=
  match (w.session i).prog with
  | .done => .crash i
  | .stmt .. => .exec i c
  | .commit .. => .commit i
  | .rollback .. => .rollback i

/-- Run a session over a list of outcomes. -/
def World.advance (e : Engine D W K) (i : I) (w : World I C D W K) (cs : List C) :
    World I C D W K :=
  cs.foldl (fun w c => w.after e (w.nextEvent i c)) w

theorem World.session_nextEvent (e : Engine D W K) {i j : I} (hj : j ≠ i) (w : World I C D W K)
    (c : C) : (w.after e (w.nextEvent i c)).session j = w.session j := by
  unfold nextEvent
  split
  · exact World.set_of_ne w hj _
  · next h =>
    simp only [World.after, h]
    exact World.set_of_ne w hj _
  · next h =>
    simp only [World.after, h]
    exact Function.update_of_ne hj ..
  · next h =>
    simp only [World.after, h]
    exact World.set_of_ne w hj _

theorem reachable_advance {e : Engine D W K} {starts : I → Prog C D W K → Prop}
    {w₀ w : World I C D W K} (hw : Reachable e starts w₀ w) {i : I}
    (hfree : ∀ j, j ≠ i → ∀ h, e.Compatible h (w.session j).held) (cs : List C) :
    Reachable e starts w₀ (w.advance e i cs) := by
  induction cs generalizing w with
  | nil => exact hw
  | cons c cs ih =>
    have hstep : (w.nextEvent i c).Enabled e starts w := by
      unfold World.nextEvent
      split
      · exact trivial
      · next h => exact ⟨_, _, _, _, h, fun j hj => hfree j hj _⟩
      · next h => exact ⟨_, _, h⟩
      · next h => exact ⟨_, h⟩
    refine ih (hw.step _ hstep) fun j hj h => ?_
    rw [World.session_nextEvent e hj]
    exact hfree j hj h

/-- A session that runs while no other holds a lock. -/
theorem Reachable.advance {e : Engine D W K} {starts : I → Prog C D W K → Prop}
    {w₀ w : World I C D W K} (hw : Reachable e starts w₀ w) {i : I}
    (hfree : ∀ j, j ≠ i → (w.session j).held = []) (cs : List C) :
    Reachable e starts w₀ (w.advance e i cs) := by
  refine reachable_advance hw (fun j hj h => ?_) cs
  rw [hfree j hj]
  exact (Engine.compatible_nil e h).symm

/-! ## Runs whose steps satisfy a condition -/

/-- **The worlds reached from `w₀` by steps that all satisfy `P`.** -/
inductive ReachableBy (e : Engine D W K) (starts : I → Prog C D W K → Prop)
    (P : World I C D W K → Event I C D W K → Prop) (w₀ : World I C D W K) :
    World I C D W K → Prop
  | refl : ReachableBy e starts P w₀ w₀
  | step {w : World I C D W K} (ev : Event I C D W K) :
      ReachableBy e starts P w₀ w → ev.Enabled e starts w → P w ev →
      ReachableBy e starts P w₀ (w.after e ev)

/-! ## Runs that keep some locks apart

A pair of locks that the engine does not keep apart may still be kept apart by the run. -/

/-- The engine in which the pairs of `x` exclude each other, too. -/
def Engine.excluding (e : Engine D W K) (x : K → K → Prop) : Engine D W K :=
  { e with conflict := fun k k' => e.conflict k k' ∨ x k k' }

/-- The statement of the event takes no lock while another session holds its counterpart in `x`. -/
def Event.Excludes (e : Engine D W K) (x : K → K → Prop) (w : World I C D W K) :
    Event I C D W K → Prop
  | exec i c => ∀ l wr n err, (w.session i).prog = .stmt l wr n err → ∀ j, j ≠ i →
      ∀ k ∈ e.wanted (l c ((w.session i).view e w.db)) (wr c ((w.session i).view e w.db)),
        ∀ k' ∈ (w.session j).held, ¬ x k k' ∧ ¬ x k' k
  | _ => True

/-- **The worlds reached from `w₀` by steps that all keep `x` apart.** -/
inductive ReachableApart (e : Engine D W K) (x : K → K → Prop) (starts : I → Prog C D W K → Prop)
    (w₀ : World I C D W K) : World I C D W K → Prop
  | refl : ReachableApart e x starts w₀ w₀
  | step {w : World I C D W K} (ev : Event I C D W K) :
      ReachableApart e x starts w₀ w → ev.Enabled e starts w → ev.Excludes e x w →
      ReachableApart e x starts w₀ (w.after e ev)

theorem ReachableApart.start {e : Engine D W K} {x : K → K → Prop}
    {starts : I → Prog C D W K → Prop} {w₀ w : World I C D W K} (h : ReachableApart e x starts w₀ w)
    {i : I} {q : Prog C D W K} (hidle : (w.session i).prog = .done) (hq : starts i q) :
    ReachableApart e x starts w₀ (w.after e (.start i q)) :=
  h.step (.start i q) ⟨hidle, hq⟩ trivial

/-- A session that runs while no other holds a lock overlaps with nobody. -/
theorem ReachableApart.advance {e : Engine D W K} {x : K → K → Prop}
    {starts : I → Prog C D W K → Prop} {w₀ w : World I C D W K} (h : ReachableApart e x starts w₀ w)
    {i : I} (hfree : ∀ j, j ≠ i → (w.session j).held = []) (cs : List C) :
    ReachableApart e x starts w₀ (w.advance e i cs) := by
  induction cs generalizing w with
  | nil => exact h
  | cons c cs ih =>
    have hstep : (w.nextEvent i c).Enabled e starts w ∧ (w.nextEvent i c).Excludes e x w := by
      unfold World.nextEvent
      split
      · exact ⟨trivial, trivial⟩
      · next hprog =>
        refine ⟨⟨_, _, _, _, hprog, fun j hj => ?_⟩, fun _ _ _ _ _ j hj k _ k' hk' => ?_⟩
        · rw [hfree j hj]
          exact (Engine.compatible_nil e _).symm
        · rw [hfree j hj] at hk'
          cases hk'
      · next hprog => exact ⟨⟨_, _, hprog⟩, trivial⟩
      · next hprog => exact ⟨⟨_, hprog⟩, trivial⟩
    refine ih (h.step _ hstep.1 hstep.2) fun j hj => ?_
    rw [World.session_nextEvent e hj]
    exact hfree j hj

theorem World.after_excluding (e : Engine D W K) (x : K → K → Prop) (w : World I C D W K)
    (ev : Event I C D W K) : w.after (e.excluding x) ev = w.after e ev := by
  cases ev <;> rfl

omit [DecidableEq I] in
theorem Event.enabled_excluding {e : Engine D W K} {x : K → K → Prop}
    {starts : I → Prog C D W K → Prop} {w : World I C D W K} {ev : Event I C D W K}
    (h : ev.Enabled e starts w) (hx : ev.Excludes e x w) : ev.Enabled (e.excluding x) starts w := by
  cases ev with
  | exec i c =>
    obtain ⟨l, wr, n, err, hprog, hfree⟩ := h
    refine ⟨l, wr, n, err, hprog, fun j hj k hk k' hk' => ?_⟩
    obtain ⟨h₁, h₂⟩ := hfree j hj k hk k' hk'
    obtain ⟨h₃, h₄⟩ := hx l wr n err hprog j hj k hk k' hk'
    exact ⟨not_or.mpr ⟨h₁, h₃⟩, not_or.mpr ⟨h₂, h₄⟩⟩
  | _ => exact h

/-- Such a run is a run of the engine that excludes the pairs. -/
theorem ReachableApart.excluding {e : Engine D W K} {x : K → K → Prop}
    {starts : I → Prog C D W K → Prop} {w₀ w : World I C D W K}
    (h : ReachableApart e x starts w₀ w) : Reachable (e.excluding x) starts w₀ w := by
  induction h with
  | refl => exact .refl
  | step ev _ hev hx ih =>
    rw [← World.after_excluding e x]
    exact ih.step ev (Event.enabled_excluding hev hx)

end Transaction
