import Mathlib.Logic.Relation
import Mathlib.Tactic.Common

/-!
# Machinery/Rounds — a program that asks the outside, and begins again

    body s ─ q₁ ▸ r₁ ─ q₂ ▸ r₂ ─ … ─▸ s'      body s' ─ q₃ ▸ r₃ ─ …

A *program* asks requests and goes on with the replies, whatever they are, or stops for good.  A *service*
runs a program again and again, each time with what it came to.  What a service has done is its *past*, the
list of its exchanges, the latest first.

* `wp` — from a past on, every exchange satisfies a condition, and the end of the program another;
* `Reaches.all` — an invariant of the rounds, and each exchange of a service satisfies the condition.
-/

namespace Rounds

/-- A request with its reply. -/
structure Asked {Q : Type} (R : Q → Type) where
  request : Q
  reply : R request

/-- A program of requests `q`, each with replies of its own type. -/
inductive Program {Q : Type} (R : Q → Type) (α : Type)
  | ret (a : α)
  | stop
  | ask (q : Q) (next : R q → Program R α)

namespace Program

variable {Q : Type} {R : Q → Type} {α β : Type}

def bind : Program R α → (α → Program R β) → Program R β
  | ret a, f => f a
  | stop, _ => stop
  | ask q next, f => ask q fun r => (next r).bind f

instance : Monad (Program R) where
  pure := ret
  bind := bind

/-- One request. -/
def request (q : Q) : Program R (R q) := ask q ret

/-- A result, if there is one. -/
def ofOption : Option α → Program R α
  | some a => ret a
  | none => stop

/-! ## What holds of every exchange -/

/-- **From a past on, every exchange satisfies `P`**, and the program ends in `Post`. -/
def wp (P : List (Asked R) → Asked R → Prop) :
    Program R α → (α → List (Asked R) → Prop) → List (Asked R) → Prop
  | ret a, Post, past => Post a past
  | stop, _, _ => True
  | ask q next, Post, past =>
    ∀ r, P past ⟨q, r⟩ ∧ (next r).wp P Post (⟨q, r⟩ :: past)

variable {P : List (Asked R) → Asked R → Prop} {Post Post' : α → List (Asked R) → Prop}
  {past : List (Asked R)}

theorem wp_mono {x : Program R α} (h : x.wp P Post past)
    (hpost : ∀ a past', Post a past' → Post' a past') : x.wp P Post' past := by
  induction x generalizing past with
  | ret a => exact hpost a past h
  | stop => trivial
  | ask q next ih => exact fun r => ⟨(h r).1, ih r (h r).2⟩

theorem wp_bind {x : Program R α} {f : α → Program R β} {Post : β → List (Asked R) → Prop} :
    (x >>= f).wp P Post past ↔ x.wp P (fun a past' => (f a).wp P Post past') past := by
  change (x.bind f).wp P Post past ↔ _
  induction x generalizing past with
  | ret a | stop => exact Iff.rfl
  | ask q next ih =>
    exact forall_congr' fun r => and_congr_right fun _ => ih r

/-- A request, and what comes after it. -/
theorem wp_request_bind (q : Q) {f : R q → Program R β} {Post : β → List (Asked R) → Prop} :
    (request q >>= f).wp P Post past ↔
      ∀ r, P past ⟨q, r⟩ ∧ (f r).wp P Post (⟨q, r⟩ :: past) := Iff.rfl

/-- A result, if there is one, and what comes after it. -/
theorem wp_ofOption_bind (o : Option α) {f : α → Program R β} {Post : β → List (Asked R) → Prop} :
    (ofOption o >>= f).wp P Post past ↔ ∀ a, o = some a → (f a).wp P Post past := by
  cases o with
  | none => exact iff_of_true trivial fun _ h => by cases h
  | some a => exact ⟨fun h _ ha => Option.some.inj ha ▸ h, fun h => h a rfl⟩

/-- **The rule of sequence**: what the first program ends in is enough for the second. -/
theorem wp_bind_of {x : Program R α} {f : α → Program R β} {Post : β → List (Asked R) → Prop}
    {Mid : α → List (Asked R) → Prop} (hx : x.wp P Mid past)
    (hf : ∀ a past', Mid a past' → (f a).wp P Post past') : (x >>= f).wp P Post past :=
  wp_bind.mpr (wp_mono hx hf)

/-- The program with the replies of an outside that answers by what was asked before. -/
def answered (outside : List (Asked R) → (q : Q) → R q) :
    Program R α → List (Asked R) → Option α × List (Asked R)
  | ret a, past => (some a, past)
  | stop, past => (none, past)
  | ask q next, past => (next (outside past q)).answered outside (⟨q, outside past q⟩ :: past)

end Program

/-! ## Services -/

section Service

variable {Q S : Type} {R : Q → Type}

/-- Where a service is that began with `s`: in the midst of a round, with the past it has. -/
inductive Reaches (body : S → Program R S) (s : S) : Program R S → List (Asked R) → Prop
  | start : Reaches body s (body s) []
  | reply {q : Q} {next : R q → Program R S} {past : List (Asked R)}
    (h : Reaches body s (.ask q next) past) (r : R q) : Reaches body s (next r) (⟨q, r⟩ :: past)
  | again {s' : S} {past : List (Asked R)} (h : Reaches body s (.ret s') past) :
    Reaches body s (body s') past

variable {body : S → Program R S} {s : S} {P : List (Asked R) → Asked R → Prop}
  {Inv : S → List (Asked R) → Prop} {x : Program R S} {past : List (Asked R)}

/-- **An invariant of the rounds** is kept wherever the service is. -/
theorem Reaches.wp (hbody : ∀ s past, Inv s past → (body s).wp P Inv past) (hs : Inv s [])
    (h : Reaches body s x past) : x.wp P Inv past := by
  induction h with
  | start => exact hbody s [] hs
  | reply _ r ih => exact (ih r).2
  | again _ ih => exact hbody _ _ ih

/-- **Every exchange of a service satisfies the condition**, on the past it had. -/
theorem Reaches.all (hbody : ∀ s past, Inv s past → (body s).wp P Inv past) (hs : Inv s [])
    (h : Reaches body s x past) {before after : List (Asked R)} {e : Asked R}
    (hpast : past = after ++ e :: before) : P before e := by
  induction h generalizing after with
  | start => cases after <;> cases hpast
  | reply h r ih =>
    cases after with
    | nil =>
      cases hpast
      exact (h.wp hbody hs r).1
    | cons e' after =>
      exact ih (List.cons.inj hpast).2
  | again _ ih => exact ih hpast

/-- So many rounds with the replies of an outside, or fewer if the service stops. -/
def rounds (outside : List (Asked R) → (q : Q) → R q) (body : S → Program R S) :
    Nat → Option S × List (Asked R) → Option S × List (Asked R)
  | n + 1, (some s, past) => rounds outside body n ((body s).answered outside past)
  | _, at' => at'

theorem Reaches.answered (outside : List (Asked R) → (q : Q) → R q) (h : Reaches body s x past) :
    Reaches body s (.ofOption (x.answered outside past).1) (x.answered outside past).2 := by
  induction x generalizing past with
  | ret a | stop => exact h
  | ask q next ih => exact ih _ (h.reply (outside past q))

theorem Reaches.rounds (outside : List (Asked R) → (q : Q) → R q) {o : Option S}
    (h : Reaches body s (.ofOption o) past) (n : Nat) :
    Reaches body s (.ofOption (rounds outside body n (o, past)).1)
      (rounds outside body n (o, past)).2 := by
  induction n generalizing o past with
  | zero => exact h
  | succ n ih =>
    cases o with
    | none => exact h
    | some s' => exact ih (h.again.answered outside)

/-- **Rounds with the replies of an outside are rounds of the service.** -/
theorem reaches_rounds (outside : List (Asked R) → (q : Q) → R q) (body : S → Program R S) (s : S)
    (n : Nat) : ∃ x, Reaches body s x (rounds outside body n (some s, [])).2 := by
  cases n with
  | zero => exact ⟨_, .start⟩
  | succ n => exact ⟨_, (Reaches.start.answered outside).rounds outside n⟩

end Service

end Rounds
