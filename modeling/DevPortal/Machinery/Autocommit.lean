import Mathlib.Logic.Function.Basic
import Mathlib.Logic.Relation
import Mathlib.Tactic.Common

/-!
# Machinery/Autocommit — requests whose statements are transactions of their own

    request 1   stmt ─────────── stmt ──▸ answer          past: ⟨d₂, d₃⟩, ⟨d, d₁⟩
    request 2         stmt ─ stmt ────▸ crash
    state       d ─▸ d₁ ─▸ … ─▸ d₂ ─▸ d₃

A *routine* reads and changes a shared state one statement at a time; between two of its statements
anything may happen to the state.  What it has done so far is its *past*, the list of its steps, so
that a condition on a step can speak of what the same request saw before.

* `wp` — from the past on, every step satisfies a condition, and the end of the routine another;
* `Reachable.ok` — routines that satisfy it by themselves do so in every interleaving;
* `Reachable.confined` — what the requests of a kind may rely on, if no step of anyone breaks it.
-/

namespace Autocommit

/-- A statement that has been carried out: the state it found, and the state it left. -/
structure Step (D : Type) where
  before : D
  after : D

/-- A routine of statements, each with an outcome `C` from outside. -/
inductive Routine (C D ε α : Type)
  | ret (a : α)
  | throw (error : ε)
  | stmt (write : C → D → D) (next : C → D → Routine C D ε α)

namespace Routine

variable {C D ε α β : Type}

def bind : Routine C D ε α → (α → Routine C D ε β) → Routine C D ε β
  | ret a, f => f a
  | throw e, _ => throw e
  | stmt write next, f => stmt write fun c d => (next c d).bind f

instance : Monad (Routine C D ε) where
  pure := ret
  bind := bind

/-- A statement that only reads. -/
def read (result : C → D → α) : Routine C D ε α := stmt (fun _ d => d) fun c d => ret (result c d)

/-- The routine by itself, every statement with the outcome `c`: its end, and the state it leaves. -/
def eval (c : C) : Routine C D ε α → D → Except ε α × D
  | ret a, d => (.ok a, d)
  | throw e, d => (.error e, d)
  | stmt write next, d => (next c d).eval c (write c d)

theorem eval_bind (c : C) (x : Routine C D ε α) (f : α → Routine C D ε β) (d : D) :
    (x >>= f).eval c d = match x.eval c d with
      | (.ok a, d') => (f a).eval c d'
      | (.error e, d') => (.error e, d') := by
  change (x.bind f).eval c d = _
  induction x generalizing d with
  | ret a => rfl
  | throw e => rfl
  | stmt write next ih => exact ih c d (write c d)

/-! ## What holds of every step -/

/-- **From a past on, every step satisfies `P`**; the routine ends in `Q`, or with an error in `E`. -/
def wp (P : List (Step D) → Step D → Prop) (E : ε → List (Step D) → Prop) :
    Routine C D ε α → (α → List (Step D) → Prop) → List (Step D) → Prop
  | ret a, Q, past => Q a past
  | throw e, _, past => E e past
  | stmt write next, Q, past => ∀ c d, P past ⟨d, write c d⟩ ∧
      (next c d).wp P E Q (⟨d, write c d⟩ :: past)

variable {P : List (Step D) → Step D → Prop} {E : ε → List (Step D) → Prop}
  {Q Q' : α → List (Step D) → Prop} {past : List (Step D)}

theorem wp_ret (a : α) : (ret a : Routine C D ε α).wp P E Q past ↔ Q a past := Iff.rfl

theorem wp_stmt {write : C → D → D} {next : C → D → Routine C D ε α} :
    (stmt write next).wp P E Q past ↔ ∀ c d, P past ⟨d, write c d⟩ ∧
      (next c d).wp P E Q (⟨d, write c d⟩ :: past) := Iff.rfl

@[simp] theorem wp_pure (a : α) : (pure a : Routine C D ε α).wp P E Q past ↔ Q a past := Iff.rfl

@[simp] theorem wp_throw (e : ε) : (throw e : Routine C D ε α).wp P E Q past ↔ E e past := Iff.rfl

/-- **One routine after another.** -/
@[simp] theorem wp_bind (x : Routine C D ε α) (f : α → Routine C D ε β)
    {Q : β → List (Step D) → Prop} :
    (x >>= f).wp P E Q past ↔ x.wp P E (fun a => (f a).wp P E Q) past := by
  change (x.bind f).wp P E Q past ↔ _
  induction x generalizing past with
  | ret a => rfl
  | throw e => rfl
  | stmt write next ih =>
    exact forall_congr' fun c => forall_congr' fun d => and_congr_right fun _ => ih c d

/-- **The consequence rule**; the routine only adds to the past. -/
theorem wp_mono {x : Routine C D ε α} (h : x.wp P E Q past)
    (hQ : ∀ a new, Q a (new ++ past) → Q' a (new ++ past)) : x.wp P E Q' past := by
  induction x generalizing past with
  | ret a => exact hQ a [] h
  | throw e => exact h
  | stmt write next ih =>
    intro c d
    obtain ⟨hstep, hnext⟩ := h c d
    refine ⟨hstep, ih c d hnext fun a new hq => ?_⟩
    have hsplit : new ++ ⟨d, write c d⟩ :: past = (new ++ [⟨d, write c d⟩]) ++ past := by simp
    rw [hsplit] at hq ⊢
    exact hQ a _ hq

theorem wp_read {result : C → D → α} (hP : ∀ d, P past ⟨d, d⟩)
    (hQ : ∀ c d, Q (result c d) (⟨d, d⟩ :: past)) :
    (read result : Routine C D ε α).wp P E Q past :=
  fun c d => ⟨hP d, hQ c d⟩

/-- Two conditions on the steps at once. -/
theorem wp_and {P' : List (Step D) → Step D → Prop} {E' : ε → List (Step D) → Prop}
    {x : Routine C D ε α} (h : x.wp P E Q past) (h' : x.wp P' E' Q' past) :
    x.wp (fun p s => P p s ∧ P' p s) (fun e p => E e p ∧ E' e p) (fun a p => Q a p ∧ Q' a p)
      past := by
  induction x generalizing past with
  | ret a => exact ⟨h, h'⟩
  | throw e => exact ⟨h, h'⟩
  | stmt write next ih =>
    intro c d
    obtain ⟨hstep, hnext⟩ := h c d
    obtain ⟨hstep', hnext'⟩ := h' c d
    exact ⟨⟨hstep, hstep'⟩, ih c d hnext hnext'⟩

-- A routine is read call by call, by its rules; it is never run to see what it comes to.
attribute [irreducible] wp

end Routine

/-! ## Requests side by side -/

variable {I R C D ε α : Type}

/-- A request on its way: what is left of its routine, and what it has done. -/
structure Serving (R C D ε α : Type) where
  request : R
  routine : Routine C D ε α
  past : List (Step D)

/-- A step of a request, and what the request had done before. -/
structure Record (R D : Type) where
  request : R
  past : List (Step D)
  step : Step D

/-- An answer, and what the request has done. -/
structure Answer (R D ε α : Type) where
  request : R
  result : Except ε α
  past : List (Step D)

/-- The state, the requests on their way, all steps so far and all answers so far (newest first). -/
structure World (I R C D ε α : Type) where
  state : D
  serving : I → Option (Serving R C D ε α)
  log : List (Record R D)
  answers : List (Answer R D ε α)

/-- No request on its way. -/
def World.idle (d : D) : World I R C D ε α := ⟨d, fun _ => none, [], []⟩

variable [DecidableEq I]

/-- **What can happen next**: a request comes in, carries out a statement, is answered or breaks off,
and `outside` changes the state. -/
inductive Next (serve : R → Routine C D ε α) (outside : D → D → Prop) (w : World I R C D ε α) :
    World I R C D ε α → Prop
  | start (i : I) (r : R) (hi : w.serving i = none) :
    Next serve outside w { w with serving := Function.update w.serving i (some ⟨r, serve r, []⟩) }
  | exec (i : I) (k : Serving R C D ε α) (c : C) (write : C → D → D)
    (next : C → D → Routine C D ε α) (hi : w.serving i = some k)
    (hk : k.routine = .stmt write next) :
    Next serve outside w
      { w with
        state := write c w.state
        serving := Function.update w.serving i
          (some ⟨k.request, next c w.state, ⟨w.state, write c w.state⟩ :: k.past⟩)
        log := ⟨k.request, k.past, ⟨w.state, write c w.state⟩⟩ :: w.log }
  | answer (i : I) (k : Serving R C D ε α) (a : α) (hi : w.serving i = some k)
    (hk : k.routine = .ret a) :
    Next serve outside w
      { w with
        serving := Function.update w.serving i none
        answers := ⟨k.request, .ok a, k.past⟩ :: w.answers }
  | fail (i : I) (k : Serving R C D ε α) (e : ε) (hi : w.serving i = some k)
    (hk : k.routine = .throw e) :
    Next serve outside w
      { w with
        serving := Function.update w.serving i none
        answers := ⟨k.request, .error e, k.past⟩ :: w.answers }
  | breakOff (i : I) : Next serve outside w { w with serving := Function.update w.serving i none }
  | outside (d : D) (hd : outside w.state d) : Next serve outside w { w with state := d }

/-- **The worlds reached from `w`**, by any interleaving. -/
abbrev Reachable (serve : R → Routine C D ε α) (outside : D → D → Prop) :
    World I R C D ε α → World I R C D ε α → Prop :=
  Relation.ReflTransGen (Next serve outside)

/-- Conditions on the steps and on the answers of each request. -/
structure Contract (serve : R → Routine C D ε α) where
  step : R → List (Step D) → Step D → Prop
  error : R → ε → List (Step D) → Prop
  ok : R → α → List (Step D) → Prop
  serves : ∀ r, (serve r).wp (step r) (error r) (ok r) []

namespace Contract

variable {serve : R → Routine C D ε α} (γ : Contract serve)

/-- An answer satisfies its condition. -/
def Answered (a : Answer R D ε α) : Prop :=
  match a.result with
  | .ok x => γ.ok a.request x a.past
  | .error e => γ.error a.request e a.past

omit [DecidableEq I] in
/-- **What holds of every reachable world.** -/
structure Ok (w : World I R C D ε α) : Prop where
  serving : ∀ i k, w.serving i = some k →
    k.routine.wp (γ.step k.request) (γ.error k.request) (γ.ok k.request) k.past
  log : ∀ c ∈ w.log, γ.step c.request c.past c.step
  answers : ∀ a ∈ w.answers, γ.Answered a

omit [DecidableEq I] in
theorem ok_idle (d : D) : γ.Ok (World.idle d : World I R C D ε α) where
  serving _ _ h := (nomatch h)
  log _ h := (List.not_mem_nil h).elim
  answers _ h := (List.not_mem_nil h).elim

omit [DecidableEq I] in
/-- The requests on their way, one of them changed. -/
theorem serving_update [DecidableEq I] {w : World I R C D ε α} {p : Serving R C D ε α → Prop}
    (h : ∀ i k, w.serving i = some k → p k) {i : I} {new : Option (Serving R C D ε α)}
    (hnew : ∀ k, new = some k → p k) :
    ∀ j k, Function.update w.serving i new j = some k → p k := by
  intro j k hj
  rcases eq_or_ne j i with rfl | hne
  · rw [Function.update_self] at hj
    exact hnew k hj
  · rw [Function.update_of_ne hne] at hj
    exact h j k hj

variable {γ}

/-- One step of the world. -/
theorem Ok.next {outside : D → D → Prop} {w w' : World I R C D ε α} (h : γ.Ok w)
    (hn : Next serve outside w w') : γ.Ok w' := by
  cases hn with
  | start i r hi =>
    refine ⟨serving_update h.serving fun k hk => ?_, h.log, h.answers⟩
    obtain rfl := Option.some.inj hk
    exact γ.serves r
  | exec i k c write next hi hk =>
    have hwp := h.serving i k hi
    rw [hk] at hwp
    obtain ⟨hstep, hnext⟩ := Routine.wp_stmt.mp hwp c w.state
    refine ⟨serving_update h.serving fun k' hk' => ?_, fun x hx => ?_, h.answers⟩
    · obtain rfl := Option.some.inj hk'
      exact hnext
    · rcases List.mem_cons.mp hx with rfl | hx
      · exact hstep
      · exact h.log x hx
  | answer i k a hi hk =>
    have hwp := h.serving i k hi
    rw [hk, Routine.wp_ret] at hwp
    refine ⟨serving_update h.serving fun k' hk' => (nomatch hk'), h.log, fun x hx => ?_⟩
    rcases List.mem_cons.mp hx with rfl | hx
    · exact hwp
    · exact h.answers x hx
  | fail i k e hi hk =>
    have hwp := h.serving i k hi
    rw [hk, Routine.wp_throw] at hwp
    refine ⟨serving_update h.serving fun k' hk' => (nomatch hk'), h.log, fun x hx => ?_⟩
    rcases List.mem_cons.mp hx with rfl | hx
    · exact hwp
    · exact h.answers x hx
  | breakOff i =>
    exact ⟨serving_update h.serving fun k' hk' => (nomatch hk'), h.log, h.answers⟩
  | outside d hd => exact ⟨h.serving, h.log, h.answers⟩

/-- The contract of some requests only. -/
def comap {R' : Type} (γ : Contract serve) (f : R' → R) : Contract fun r => serve (f r) where
  step r := γ.step (f r)
  error r := γ.error (f r)
  ok r := γ.ok (f r)
  serves r := γ.serves (f r)

end Contract

variable {serve : R → Routine C D ε α} {outside : D → D → Prop}

/-- **Routines that satisfy their contract do so in every interleaving.** -/
theorem Reachable.ok {γ : Contract serve} {w w' : World I R C D ε α}
    (h : Reachable serve outside w w') (hw : γ.Ok w) : γ.Ok w' := by
  induction h with
  | refl => exact hw
  | tail _ hn ih => exact ih.next hn

/-! ## One request by itself -/

/-- What a request does next, with the outcome `c`. -/
def World.advance (i : I) (w : World I R C D ε α) (c : C) : World I R C D ε α :=
  match w.serving i with
  | none => w
  | some ⟨r, .ret a, past⟩ =>
    { w with
      serving := Function.update w.serving i none
      answers := ⟨r, .ok a, past⟩ :: w.answers }
  | some ⟨r, .throw e, past⟩ =>
    { w with
      serving := Function.update w.serving i none
      answers := ⟨r, .error e, past⟩ :: w.answers }
  | some ⟨r, .stmt write next, past⟩ =>
    { w with
      state := write c w.state
      serving := Function.update w.serving i
        (some ⟨r, next c w.state, ⟨w.state, write c w.state⟩ :: past⟩)
      log := ⟨r, past, ⟨w.state, write c w.state⟩⟩ :: w.log }

/-- A request that comes in and is served with the outcomes `cs`. -/
def World.serveAlone (serve : R → Routine C D ε α) (i : I) (w : World I R C D ε α) (r : R)
    (cs : List C) : World I R C D ε α :=
  cs.foldl (World.advance i)
    { w with serving := Function.update w.serving i (some ⟨r, serve r, []⟩) }

theorem reachable_advance (i : I) (w : World I R C D ε α) (c : C) :
    Reachable serve outside w (w.advance i c) := by
  unfold World.advance
  split
  · exact .refl
  · next hi => exact .single (.answer i _ _ hi rfl)
  · next hi => exact .single (.fail i _ _ hi rfl)
  · next hi => exact .single (.exec i _ c _ _ hi rfl)

/-- **A request that is served alone** is a run. -/
theorem reachable_serveAlone {i : I} {w : World I R C D ε α} (hi : w.serving i = none) (r : R)
    (cs : List C) : Reachable serve outside w (w.serveAlone serve i r cs) := by
  refine Relation.ReflTransGen.head (Next.start i r hi) ?_
  rw [World.serveAlone]
  generalize World.mk _ _ _ _ = v
  induction cs generalizing v with
  | nil => exact .refl
  | cons c cs ih => exact (reachable_advance i v c).trans (ih _)

/-! ## What requests of a kind rely on -/

section Confined

variable {inv : D → Prop} {p : R → Prop}

/-- A request has seen states with `inv` only. -/
def SawOnly (inv : D → Prop) (past : List (Step D)) : Prop :=
  ∀ s ∈ past, inv s.before ∧ inv s.after

omit [DecidableEq I] in
/-- The state satisfies `inv`, and the requests of the kind `p` have seen no other. -/
structure Confined (inv : D → Prop) (p : R → Prop) (w : World I R C D ε α) : Prop where
  state : inv w.state
  serving : ∀ i k, w.serving i = some k → p k.request → SawOnly inv k.past

omit [DecidableEq I] in
/-- The world `w'` adds steps and answers, and those of requests of the kind `p` saw states with
`inv` only. -/
structure Extends (inv : D → Prop) (p : R → Prop) (w w' : World I R C D ε α) : Prop where
  log : ∃ new, w'.log = new ++ w.log ∧ ∀ c ∈ new, p c.request → SawOnly inv (c.step :: c.past)
  answers : ∃ new, w'.answers = new ++ w.answers ∧ ∀ a ∈ new, p a.request → SawOnly inv a.past

theorem SawOnly.cons {past : List (Step D)} {s : Step D} (h : SawOnly inv past)
    (hbefore : inv s.before) (hafter : inv s.after) : SawOnly inv (s :: past) := by
  intro s' hs'
  rcases List.mem_cons.mp hs' with rfl | hs'
  · exact ⟨hbefore, hafter⟩
  · exact h s' hs'

omit [DecidableEq I] in
theorem Extends.of_eq {w w' : World I R C D ε α} (hlog : w'.log = w.log)
    (hanswers : w'.answers = w.answers) : Extends inv p w w' :=
  ⟨⟨[], hlog, fun _ h => (List.not_mem_nil h).elim⟩,
    ⟨[], hanswers, fun _ h => (List.not_mem_nil h).elim⟩⟩

omit [DecidableEq I] in
theorem Extends.trans {w w' w'' : World I R C D ε α} (h : Extends inv p w w')
    (h' : Extends inv p w' w'') : Extends inv p w w'' := by
  obtain ⟨⟨log, hlog, hsteps⟩, answers, hanswers, hends⟩ := h
  obtain ⟨⟨log', hlog', hsteps'⟩, answers', hanswers', hends'⟩ := h'
  refine ⟨⟨log' ++ log, by rw [hlog', hlog, List.append_assoc], fun c hc => ?_⟩,
    ⟨answers' ++ answers, by rw [hanswers', hanswers, List.append_assoc], fun a ha => ?_⟩⟩
  · exact (List.mem_append.mp hc).elim (hsteps' c) (hsteps c)
  · exact (List.mem_append.mp ha).elim (hends' a) (hends a)

/-- One step of the world. -/
theorem Confined.next {γ : Contract serve}
    (hkeeps : ∀ r past s, (p r → SawOnly inv past) → inv s.before → γ.step r past s → inv s.after)
    (houtside : ∀ d d', inv d → outside d d' → inv d') {w w' : World I R C D ε α} (hok : γ.Ok w)
    (h : Confined inv p w) (hn : Next serve outside w w') :
    Confined inv p w' ∧ Extends inv p w w' := by
  cases hn with
  | start i r hi =>
    refine ⟨⟨h.state, Contract.serving_update h.serving fun k hk => ?_⟩, .of_eq rfl rfl⟩
    obtain rfl := Option.some.inj hk
    exact fun _ _ hs => (List.not_mem_nil hs).elim
  | exec i k c write next hi hk =>
    have hwp := hok.serving i k hi
    rw [hk] at hwp
    have hafter := hkeeps k.request k.past _ (h.serving i k hi) h.state
      (Routine.wp_stmt.mp hwp c w.state).1
    have hsaw : p k.request → SawOnly inv (⟨w.state, write c w.state⟩ :: k.past) :=
      fun hp => (h.serving i k hi hp).cons h.state hafter
    refine ⟨⟨hafter, Contract.serving_update h.serving fun k' hk' => ?_⟩,
      ⟨⟨[_], rfl, fun x hx => ?_⟩, [], rfl, fun _ hx => (List.not_mem_nil hx).elim⟩⟩
    · obtain rfl := Option.some.inj hk'
      exact hsaw
    · obtain rfl := List.mem_singleton.mp hx
      exact hsaw
  | answer i k a hi hk =>
    refine ⟨⟨h.state, Contract.serving_update h.serving fun k' hk' => (nomatch hk')⟩,
      ⟨⟨[], rfl, fun _ hx => (List.not_mem_nil hx).elim⟩, [_], rfl, fun x hx => ?_⟩⟩
    obtain rfl := List.mem_singleton.mp hx
    exact h.serving i k hi
  | fail i k e hi hk =>
    refine ⟨⟨h.state, Contract.serving_update h.serving fun k' hk' => (nomatch hk')⟩,
      ⟨⟨[], rfl, fun _ hx => (List.not_mem_nil hx).elim⟩, [_], rfl, fun x hx => ?_⟩⟩
    obtain rfl := List.mem_singleton.mp hx
    exact h.serving i k hi
  | breakOff i =>
    exact ⟨⟨h.state, Contract.serving_update h.serving fun k' hk' => (nomatch hk')⟩, .of_eq rfl rfl⟩
  | outside d hd => exact ⟨⟨houtside _ _ h.state hd, h.serving⟩, .of_eq rfl rfl⟩

/-- **What nobody breaks, requests of a kind may rely on from their start to their end**: let a step
that satisfies its contract keep `inv`, given that a request of the kind `p` has seen states with `inv`
only; then these have seen no other. -/
theorem Reachable.confined {γ : Contract serve}
    (hkeeps : ∀ r past s, (p r → SawOnly inv past) → inv s.before → γ.step r past s → inv s.after)
    (houtside : ∀ d d', inv d → outside d d' → inv d') {w w' : World I R C D ε α}
    (h : Reachable serve outside w w') (hok : γ.Ok w) (hw : Confined inv p w) :
    Confined inv p w' ∧ Extends inv p w w' := by
  induction h with
  | refl => exact ⟨hw, .of_eq rfl rfl⟩
  | tail hv hn ih =>
    obtain ⟨hconf, hext⟩ := ih
    obtain ⟨hconf', hext'⟩ := hconf.next hkeeps houtside (Reachable.ok hv hok) hn
    exact ⟨hconf', hext.trans hext'⟩

end Confined

end Autocommit
