import DevPortal.Machinery.Transaction

/-!
# Machinery/RelyGuarantee — reasoning about one session while the others commit

    {A} stmt {A'} stmt {A''} commit       A, A', A'' stable under what the others may commit

`Rule.guar i d h p` says what session `i` may commit: on the database `d`, holding the locks `h`,
the writes `p`.  From it comes what a session relies on (`Relies`): between two of its statements
the others commit, but only what they guarantee, and nothing on a row it has locked.  A program that
is `Safe` under this rely commits what it guarantees; `sound` puts the sessions together, and
`history` reads the committed database as a chain of guaranteed commits.
-/

namespace Transaction

variable {I C D W K α β : Type}

/-- The invariant of the committed database, and what each session guarantees when it commits. -/
structure Rule (I : Type) (e : Engine D W K) where
  inv : D → Prop
  guar : I → D → List K → List W → Prop
  inv_commit : ∀ {i d h p}, inv d → e.Covered h p → guar i d h p → inv (e.applyAll d p)

variable {e : Engine D W K} (ρ : Rule I e)

/-- **One commit of another session**, seen by a session `i` that holds `h`. -/
def Relies (i : I) (h : List K) (d d' : D) : Prop :=
  ∃ j hj pj, j ≠ i ∧ ρ.guar j d hj pj ∧ e.Covered hj pj ∧ e.Compatible hj h
    ∧ d' = e.applyAll d pj

/-- Any number of commits of the others, each on a database that satisfies the invariant. -/
inductive Meanwhile (i : I) (h : List K) (d : D) : D → Prop
  | refl : Meanwhile i h d d
  | step {d' d'' : D} : Meanwhile i h d d' → ρ.inv d' → Relies ρ i h d' d'' → Meanwhile i h d d''

variable {ρ}

theorem Meanwhile.inv {i : I} {h : List K} {d d' : D} (hm : Meanwhile ρ i h d d') (hd : ρ.inv d) :
    ρ.inv d' := by
  induction hm with
  | refl => exact hd
  | step _ hi hr _ =>
    obtain ⟨j, hj, pj, -, hg, hcov, -, rfl⟩ := hr
    exact ρ.inv_commit hi hcov hg

theorem Meanwhile.head {i : I} {h : List K} {d d' d'' : D} (hd : ρ.inv d) (hr : Relies ρ i h d d')
    (hm : Meanwhile ρ i h d' d'') : Meanwhile ρ i h d d'' := by
  induction hm with
  | refl => exact .step .refl hd hr
  | step _ hi hr' ih => exact .step ih hi hr'

/-- An assertion about the committed database and the session's locks and pending writes. -/
abbrev Assertion (D W K : Type) := D → List K → List W → Prop

variable (ρ) in
/-- The others cannot falsify the assertion. -/
def Stable (i : I) (A : Assertion D W K) : Prop :=
  ∀ d d' h p, ρ.inv d → A d h p → Relies ρ i h d d' → A d' h p

theorem Stable.meanwhile {i : I} {A : Assertion D W K} (hA : Stable ρ i A) {d d' : D} {h : List K}
    {p : List W} (ha : A d h p) (hm : Meanwhile ρ i h d d') : A d' h p := by
  induction hm with
  | refl => exact ha
  | step _ hi hr ih => exact hA _ _ _ _ hi ih hr

theorem Stable.and {i : I} {A B : Assertion D W K} (hA : Stable ρ i A) (hB : Stable ρ i B) :
    Stable ρ i fun d h p => A d h p ∧ B d h p :=
  fun d d' h p hi hab hr => ⟨hA d d' h p hi hab.1 hr, hB d d' h p hi hab.2 hr⟩

/-! ## Safe programs -/

variable (ρ) in
/-- **The program commits only what its session guarantees**, whatever the others commit
meanwhile. -/
def Safe (i : I) : Prog C D W K → Assertion D W K
  | .done, _, _, _ => True
  | .stmt l w n err, d, h, p => ∀ d', Meanwhile ρ i h d d' →
      (∀ c, Safe i (n c (e.applyAll d' p)) d'
        (h ++ e.wanted (l c (e.applyAll d' p)) (w c (e.applyAll d' p)))
        (p ++ w c (e.applyAll d' p)))
      ∧ Safe i err d' h p
  | .commit n err, d, h, p => ∀ d', Meanwhile ρ i h d d' →
      ρ.guar i d' h p ∧ Safe i n (e.applyAll d' p) [] [] ∧ Safe i err d' [] []
  | .rollback n, d, h, _ => ∀ d', Meanwhile ρ i h d d' → Safe i n d' [] []

variable (ρ) in
/-- The program is safe to start on every database that satisfies the invariant. -/
def Sound (i : I) (q : Prog C D W K) : Prop := ∀ d, ρ.inv d → Safe ρ i q d [] []

/-- A safe program stays safe while the others commit. -/
theorem Safe.relies {i : I} {q : Prog C D W K} {d d' : D} {h : List K} {p : List W}
    (hs : Safe ρ i q d h p) (hd : ρ.inv d) (hr : Relies ρ i h d d') : Safe ρ i q d' h p := by
  cases q with
  | done => trivial
  | stmt l w n err => exact fun d'' hm => hs d'' (hm.head hd hr)
  | commit n err => exact fun d'' hm => hs d'' (hm.head hd hr)
  | rollback n => exact fun d'' hm => hs d'' (hm.head hd hr)

theorem sound_done (i : I) : Sound ρ i (.done : Prog C D W K) := fun _ _ => trivial

/-- **The rule of what is asked between two transactions.** -/
theorem Safe.ask (i : I) {A : Assertion D W K} (hA : Stable ρ i A) {next : C → D → Prog C D W K}
    (hnext : ∀ c d h p, ρ.inv d → A d h p → Safe ρ i (next c (e.applyAll d p)) d h p) {d : D}
    {h : List K} {p : List W} (hd : ρ.inv d) (ha : A d h p) : Safe ρ i (.ask next) d h p := by
  intro d' hm
  refine ⟨fun c => ?_, trivial⟩
  simpa [Engine.wanted] using hnext c d' h p (hm.inv hd) (hA.meanwhile ha hm)

/-! ## Transactions -/

variable (ρ) in
/-- **The weakest assertion under which the body reaches `Q`** with its locks and writes. -/
def Tx.wp (i : I) : Tx C D W K α → (α → Assertion D W K) → Assertion D W K
  | .ret a, Q => Q a
  | .throw, _ => fun _ _ _ => True
  | .stmt l w n, Q => fun d h p => ∀ d', Meanwhile ρ i h d d' → ∀ c,
      Tx.wp i (n c (e.applyAll d' p)) Q d'
        (h ++ e.wanted (l c (e.applyAll d' p)) (w c (e.applyAll d' p)))
        (p ++ w c (e.applyAll d' p))

/-- The body in front of a continuation. -/
theorem Tx.wp_bind (i : I) (t : Tx C D W K α) (f : α → Tx C D W K β) (Q : β → Assertion D W K) :
    Tx.wp ρ i (t >>= f) Q = Tx.wp ρ i t fun a => Tx.wp ρ i (f a) Q := by
  show Tx.wp ρ i (t.bind f) Q = _
  induction t with
  | ret a => rfl
  | throw => rfl
  | stmt l w n ih =>
    funext d h p
    simp only [Tx.bind, Tx.wp, ih]

theorem Tx.wp_pure (i : I) (a : α) (Q : α → Assertion D W K) :
    Tx.wp ρ i (pure a : Tx C D W K α) Q = Q a := rfl

/-- **The consequence rule**; where the body ends, the invariant holds. -/
theorem Tx.wp_mono (i : I) {t : Tx C D W K α} {Q Q' : α → Assertion D W K}
    (hQ : ∀ a d h p, ρ.inv d → Q a d h p → Q' a d h p) {d : D} {h : List K} {p : List W}
    (hd : ρ.inv d) (ht : Tx.wp ρ i t Q d h p) : Tx.wp ρ i t Q' d h p := by
  induction t generalizing d h p with
  | ret a => exact hQ a d h p hd ht
  | throw => trivial
  | stmt l w n ih => exact fun d' hm c => ih c _ (hm.inv hd) (ht d' hm c)

/-- **The statement rule.**  From a stable assertion, whatever the statement reads, its result
satisfies `Q` with the locks and writes it adds. -/
theorem Tx.wp_statement (i : I) {A : Assertion D W K} (hA : Stable ρ i A)
    {l : C → D → List K} {w : C → D → List W} {result : C → D → Option α}
    {Q : α → Assertion D W K}
    (hQ : ∀ c d h p a, ρ.inv d → A d h p → result c (e.applyAll d p) = some a →
      Q a d (h ++ e.wanted (l c (e.applyAll d p)) (w c (e.applyAll d p)))
        (p ++ w c (e.applyAll d p)))
    {d : D} {h : List K} {p : List W} (hd : ρ.inv d) (ha : A d h p) :
    Tx.wp ρ i (Tx.statement l w result) Q d h p := by
  intro d' hm c
  show Tx.wp ρ i ((result c (e.applyAll d' p)).elim _ _) Q d' _ _
  cases hres : result c (e.applyAll d' p) with
  | none => trivial
  | some a => exact hQ c d' h p a (hm.inv hd) (hA.meanwhile ha hm) hres

/-- The rule of a plain `SELECT`. -/
theorem Tx.wp_query (i : I) {A : Assertion D W K} (hA : Stable ρ i A) {result : C → D → α}
    {Q : α → Assertion D W K}
    (hQ : ∀ c d h p, ρ.inv d → A d h p → Q (result c (e.applyAll d p)) d h p)
    {d : D} {h : List K} {p : List W} (hd : ρ.inv d) (ha : A d h p) :
    Tx.wp ρ i (Tx.query result) Q d h p := by
  intro d' hm c
  simpa [Engine.wanted, Tx.wp] using hQ c d' h p (hm.inv hd) (hA.meanwhile ha hm)

/-- **The frame rule**: a stable assertion that more locks and writes in `P` do not falsify survives
a body that writes only in `P`. -/
theorem Tx.wp_frame (i : I) {A : Assertion D W K} (hA : Stable ρ i A) {P : W → Prop}
    (hext : ∀ d h p l ws, (∀ x ∈ ws, P x) → A d h p → A d (h ++ e.wanted l ws) (p ++ ws))
    {t : Tx C D W K α} (ht : t.Writes P) {d : D} {h : List K} {p : List W} (hd : ρ.inv d)
    (ha : A d h p) : Tx.wp ρ i t (fun _ => A) d h p := by
  induction t generalizing d h p with
  | ret a => exact ha
  | throw => trivial
  | stmt l w n ih =>
    intro d' hm c
    obtain ⟨hw, hn⟩ := ht c (e.applyAll d' p)
    exact ih c _ hn (hm.inv hd) (hext d' h p _ _ hw (hA.meanwhile ha hm))

/-- **The transaction rule**: a body that ends where the session may commit is safe, if what follows is
safe on what it leaves. -/
theorem Safe.runThen (i : I) {t : Tx C D W K α} {ok : α → Prog C D W K} {err : Prog C D W K}
    (herr : Sound ρ i err) {Q : α → Assertion D W K} (hQ : ∀ a, Stable ρ i (Q a))
    (hok : ∀ a d h p, ρ.inv d → e.Covered h p → Q a d h p →
      ρ.guar i d h p ∧ Safe ρ i (ok a) (e.applyAll d p) [] [])
    {d : D} {h : List K} {p : List W} (hd : ρ.inv d) (hcov : e.Covered h p)
    (ht : Tx.wp ρ i t Q d h p) : Safe ρ i (t.run ok err) d h p := by
  induction t generalizing d h p with
  | ret a =>
    intro d' hm
    obtain ⟨hg, hnext⟩ := hok a d' h p (hm.inv hd) hcov ((hQ a).meanwhile ht hm)
    exact ⟨hg, hnext, herr d' (hm.inv hd)⟩
  | throw => exact fun d' hm => herr d' (hm.inv hd)
  | stmt l w n ih =>
    intro d' hm
    exact ⟨fun c => ih c _ (hm.inv hd) (hcov.append _ _) (ht d' hm c),
      fun d'' hm' => herr d'' (hm'.inv (hm.inv hd))⟩

/-- The same, where what follows is sound by itself. -/
theorem Safe.run (i : I) {t : Tx C D W K α} {ok : α → Prog C D W K} {err : Prog C D W K}
    (hok : ∀ a, Sound ρ i (ok a)) (herr : Sound ρ i err) {Q : α → Assertion D W K}
    (hQ : ∀ a, Stable ρ i (Q a)) (hguar : ∀ a d h p, ρ.inv d → Q a d h p → ρ.guar i d h p)
    {d : D} {h : List K} {p : List W} (hd : ρ.inv d) (hcov : e.Covered h p)
    (ht : Tx.wp ρ i t Q d h p) : Safe ρ i (t.run ok err) d h p := by
  refine Safe.runThen i herr hQ (fun a d h p hd hcov hq => ?_) hd hcov ht
  have hg := hguar a d h p hd hq
  exact ⟨hg, hok a _ (ρ.inv_commit hd hcov hg)⟩

theorem Sound.run (i : I) {t : Tx C D W K α} {ok : α → Prog C D W K} {err : Prog C D W K}
    (hok : ∀ a, Sound ρ i (ok a)) (herr : Sound ρ i err) {Q : α → Assertion D W K}
    (hQ : ∀ a, Stable ρ i (Q a)) (hguar : ∀ a d h p, ρ.inv d → Q a d h p → ρ.guar i d h p)
    (ht : ∀ d, ρ.inv d → Tx.wp ρ i t Q d [] []) : Sound ρ i (t.run ok err) :=
  fun d hd => Safe.run i hok herr hQ hguar hd (fun _ hw => (List.not_mem_nil hw).elim) (ht d hd)

/-! ## All sessions together -/

variable [DecidableEq I]

omit [DecidableEq I] in
variable (ρ) in
/-- **What holds of every reachable world.** -/
structure World.Ok (w : World I C D W K) : Prop where
  inv : ρ.inv w.db
  safe : ∀ i, Safe ρ i (w.session i).prog w.db (w.session i).held (w.session i).pend
  covered : ∀ i, e.Covered (w.session i).held (w.session i).pend
  compatible : ∀ i j, i ≠ j → e.Compatible (w.session i).held (w.session j).held

/-- A session that moves by itself, without a commit. -/
theorem World.Ok.set {w : World I C D W K} (h : w.Ok ρ) {i : I} {s : Session C D W K}
    (hsafe : Safe ρ i s.prog w.db s.held s.pend) (hcov : e.Covered s.held s.pend)
    (hcomp : ∀ j, j ≠ i → e.Compatible s.held (w.session j).held) : (w.set i s).Ok ρ := by
  refine ⟨h.inv, fun j => ?_, fun j => ?_, fun j k hjk => ?_⟩
  · rcases eq_or_ne j i with rfl | hj
    · rw [World.set_self]
      exact hsafe
    · rw [World.set_of_ne w hj]
      exact h.safe j
  · rcases eq_or_ne j i with rfl | hj
    · rw [World.set_self]
      exact hcov
    · rw [World.set_of_ne w hj]
      exact h.covered j
  · rcases eq_or_ne j i with rfl | hj
    · rw [World.set_self, World.set_of_ne w hjk.symm]
      exact hcomp k hjk.symm
    · rw [World.set_of_ne w hj]
      rcases eq_or_ne k i with rfl | hk
      · rw [World.set_self]
        exact (hcomp j hj).symm
      · rw [World.set_of_ne w hk]
        exact h.compatible j k hjk

/-- A session that lets go of everything. -/
theorem World.Ok.reset {w : World I C D W K} (h : w.Ok ρ) {i : I} {q : Prog C D W K}
    (hq : Safe ρ i q w.db [] []) : (w.set i ⟨q, [], []⟩).Ok ρ :=
  h.set hq (fun _ hw => (List.not_mem_nil hw).elim) fun _ _ => e.compatible_nil _

/-- One commit, as the log records it. -/
structure Committed (ρ : Rule I e) (w w' : World I C D W K) (c : Commit I D W K) : Prop where
  log : w'.log = c :: w.log
  before : c.before = w.db
  after : w'.db = e.applyAll w.db c.writes
  inv : ρ.inv c.before
  covered : e.Covered c.held c.writes
  guar : ρ.guar c.session c.before c.held c.writes

/-- **One event keeps the world in order**, and changes the database by a guaranteed commit or not
at all. -/
theorem World.Ok.after {starts : I → Prog C D W K → Prop} (hstarts : ∀ i q, starts i q → Sound ρ i q)
    {w : World I C D W K} (h : w.Ok ρ) {ev : Event I C D W K} (hev : ev.Enabled e starts w) :
    (w.after e ev).Ok ρ ∧ ((∃ c, Committed ρ w (w.after e ev) c)
      ∨ ((w.after e ev).db = w.db ∧ (w.after e ev).log = w.log)) := by
  cases ev with
  | start i q => exact ⟨h.reset (hstarts i q hev.2 w.db h.inv), Or.inr ⟨rfl, rfl⟩⟩
  | crash i => exact ⟨h.reset trivial, Or.inr ⟨rfl, rfl⟩⟩
  | exec i c =>
    obtain ⟨l, wr, n, err, hprog, hfree⟩ := hev
    have hsafe := h.safe i
    rw [hprog] at hsafe
    simp only [World.after, hprog]
    refine ⟨h.set ((hsafe w.db .refl).1 c) ((h.covered i).append _ _) fun j hj => ?_,
      Or.inr ⟨rfl, rfl⟩⟩
    exact Engine.compatible_append.mpr ⟨h.compatible i j hj.symm, hfree j hj⟩
  | fail i =>
    obtain ⟨l, wr, n, err, hprog⟩ := hev
    have hsafe := h.safe i
    rw [hprog] at hsafe
    simp only [World.after, hprog]
    exact ⟨h.set (hsafe w.db .refl).2 (h.covered i) fun j hj => h.compatible i j hj.symm,
      Or.inr ⟨rfl, rfl⟩⟩
  | commitFails i =>
    obtain ⟨n, err, hprog⟩ := hev
    have hsafe := h.safe i
    rw [hprog] at hsafe
    simp only [World.after, hprog]
    exact ⟨h.reset (hsafe w.db .refl).2.2, Or.inr ⟨rfl, rfl⟩⟩
  | rollback i =>
    obtain ⟨n, hprog⟩ := hev
    have hsafe := h.safe i
    rw [hprog] at hsafe
    simp only [World.after, hprog]
    exact ⟨h.reset (hsafe w.db .refl), Or.inr ⟨rfl, rfl⟩⟩
  | commit i =>
    obtain ⟨n, err, hprog⟩ := hev
    have hsafe := h.safe i
    rw [hprog] at hsafe
    obtain ⟨hguar, hnext, -⟩ := hsafe w.db .refl
    simp only [World.after, hprog]
    -- the sessions first see the commit, then session `i` lets go
    have hseen : World.Ok ρ ⟨e.applyAll w.db (w.session i).pend,
        Function.update w.session i ⟨.done, [], []⟩, w.log⟩ := by
      have hidle := h.reset (i := i) (q := .done) trivial
      refine ⟨ρ.inv_commit h.inv (h.covered i) hguar, fun j => ?_, hidle.covered,
        hidle.compatible⟩
      rcases eq_or_ne j i with rfl | hj
      · simp only [Function.update_self]
        trivial
      · simp only [Function.update_of_ne hj]
        refine (h.safe j).relies h.inv ⟨i, _, _, hj.symm, hguar, h.covered i,
          h.compatible i j hj.symm, rfl⟩
    have hdone := hseen.reset (i := i) (q := n) hnext
    refine ⟨⟨hdone.inv, fun j => ?_, fun j => ?_, fun j k hjk => ?_⟩,
      Or.inl ⟨⟨i, w.db, (w.session i).held, (w.session i).pend⟩, rfl, rfl, rfl, h.inv,
        h.covered i, hguar⟩⟩
    · simpa [World.set] using hdone.safe j
    · simpa [World.set] using hdone.covered j
    · simpa [World.set] using hdone.compatible j k hjk

/-- **Soundness**: if every program that is started is sound, every reachable world is in order. -/
theorem sound {starts : I → Prog C D W K → Prop} (hstarts : ∀ i q, starts i q → Sound ρ i q)
    {w₀ w : World I C D W K} (h₀ : w₀.Ok ρ) (hw : Reachable e starts w₀ w) : w.Ok ρ := by
  induction hw with
  | refl => exact h₀
  | step ev _ hev ih => exact (ih.after hstarts hev).1

/-- What a session that has ended leaves behind stays, as far as the others cannot falsify it. -/
theorem Stable.outlives {starts : I → Prog C D W K → Prop}
    (hstarts : ∀ i q, starts i q → Sound ρ i q) {i : I} (hidle : ∀ q, ¬ starts i q)
    {A : Assertion D W K} (hA : Stable ρ i A) {w w' : World I C D W K} (hok : w.Ok ρ)
    (hdone : (w.session i).prog = .done) (ha : A w.db [] []) (hw : Reachable e starts w w') :
    (w'.session i).prog = .done ∧ A w'.db [] [] := by
  induction hw with
  | refl => exact ⟨hdone, ha⟩
  | @step v ev hv hev ih =>
    obtain ⟨hdone, ha⟩ := ih
    have hvok := sound hstarts hok hv
    -- an event of the session itself is none: it has no program
    have hset : ∀ j s, j ≠ i → ((v.set j s).session i).prog = .done ∧ A (v.set j s).db [] [] :=
      fun j s hj => ⟨by rw [World.set_of_ne v hj.symm]; exact hdone, ha⟩
    cases ev with
    | start j q =>
      rcases eq_or_ne j i with rfl | hj
      · exact (hidle q hev.2).elim
      · exact hset j _ hj
    | crash j =>
      rcases eq_or_ne j i with rfl | hj
      · exact ⟨by simp only [World.after, World.set_self], ha⟩
      · exact hset j _ hj
    | exec j c =>
      obtain ⟨l, wr, n, err, hprog, -⟩ := hev
      have hj : j ≠ i := fun hj => by rw [hj, hdone] at hprog; cases hprog
      simp only [World.after, hprog]
      exact hset j _ hj
    | fail j =>
      obtain ⟨l, wr, n, err, hprog⟩ := hev
      have hj : j ≠ i := fun hj => by rw [hj, hdone] at hprog; cases hprog
      simp only [World.after, hprog]
      exact hset j _ hj
    | commitFails j =>
      obtain ⟨n, err, hprog⟩ := hev
      have hj : j ≠ i := fun hj => by rw [hj, hdone] at hprog; cases hprog
      simp only [World.after, hprog]
      exact hset j _ hj
    | rollback j =>
      obtain ⟨n, hprog⟩ := hev
      have hj : j ≠ i := fun hj => by rw [hj, hdone] at hprog; cases hprog
      simp only [World.after, hprog]
      exact hset j _ hj
    | commit j =>
      obtain ⟨n, err, hprog⟩ := hev
      have hj : j ≠ i := fun hj => by rw [hj, hdone] at hprog; cases hprog
      have hsafe := hvok.safe j
      rw [hprog] at hsafe
      simp only [World.after, hprog]
      refine ⟨?_, hA _ _ _ _ hvok.inv ha ⟨j, _, _, hj, (hsafe v.db .refl).1, hvok.covered j,
        (e.compatible_nil _).symm, rfl⟩⟩
      show (Function.update v.session j _ i).prog = .done
      rw [Function.update_of_ne hj.symm]
      exact hdone

omit [DecidableEq I] in
theorem World.ok_idle {d : D} (hd : ρ.inv d) : (World.idle d : World I C D W K).Ok ρ :=
  ⟨hd, fun _ => trivial, fun _ _ hw => (List.not_mem_nil hw).elim,
    fun _ _ _ => e.compatible_nil _⟩

/-! ## The history of the database -/

variable (ρ) in
/-- The database `d` came from `d₀` by the commits of the log, newest first. -/
inductive History (d₀ : D) : List (Commit I D W K) → D → Prop
  | nil : History d₀ [] d₀
  | cons {log : List (Commit I D W K)} {c : Commit I D W K} : History d₀ log c.before →
      ρ.inv c.before → e.Covered c.held c.writes →
      ρ.guar c.session c.before c.held c.writes →
      History d₀ (c :: log) (e.applyAll c.before c.writes)

omit [DecidableEq I] in
/-- Every commit of a history is guaranteed. -/
theorem History.of_mem {d₀ d : D} {log : List (Commit I D W K)} (h : History ρ d₀ log d)
    {c : Commit I D W K} (hc : c ∈ log) :
    ρ.inv c.before ∧ e.Covered c.held c.writes ∧ ρ.guar c.session c.before c.held c.writes := by
  induction h with
  | nil => exact (List.not_mem_nil hc).elim
  | cons _ hinv hcov hguar ih =>
    rcases List.mem_cons.mp hc with rfl | hc
    · exact ⟨hinv, hcov, hguar⟩
    · exact ih hc

/-- **The committed database is a chain of guaranteed commits**: between two reachable worlds, the
new part of the log is the history of the database. -/
theorem history {starts : I → Prog C D W K → Prop} (hstarts : ∀ i q, starts i q → Sound ρ i q)
    {w₀ w : World I C D W K} (h₀ : w₀.Ok ρ) (hw : Reachable e starts w₀ w) :
    ∃ new, w.log = new ++ w₀.log ∧ History ρ w₀.db new w.db := by
  induction hw with
  | refl => exact ⟨[], rfl, .nil⟩
  | step ev hw hev ih =>
    obtain ⟨new, hlog, hhist⟩ := ih
    rcases ((sound hstarts h₀ hw).after hstarts hev).2 with ⟨c, hc⟩ | ⟨hdb, hlog'⟩
    · refine ⟨c :: new, by rw [hc.log, hlog]; rfl, ?_⟩
      rw [hc.after, ← hc.before]
      exact .cons (hc.before ▸ hhist) hc.inv hc.covered hc.guar
    · exact ⟨new, hlog'.trans hlog, hdb ▸ hhist⟩

end Transaction
