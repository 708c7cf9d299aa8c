import Mathlib.Logic.Function.Basic
import Mathlib.Logic.Relation
import Mathlib.Order.Basic
import Mathlib.Tactic.Common

/-!
# Frontend/SessionTabs — who a tab shows, and whose the cookie is

    tab 1   sign in ─ cookie ─ /me ─ shows bob ── "signed-in" ──┐
    tab 2   shows ada ─────────────────────────────────────────▾─ restore ─ /me ─ shows bob
    jar     ada's ────▴ bob's

All tabs of a browser send one cookie, and each remembers by itself whose it is.  A tab that signs in
tells the others, and these ask the server again.  Until then they show the old user, and act as the new
one; and a tab that is not told, for the browser gives no storage, goes on so.
-/

namespace DevPortal

namespace SessionTabs

/-! ## A tab by itself -/

/-- `SessionEvent`. -/
inductive SessionEvent
  | signedIn | signedOut
  deriving DecidableEq

/-- Why a request failed: its session is not there, or for another reason. -/
inductive Failure
  | unauthorized | other
  deriving DecidableEq

/-- The session state of `App`. -/
structure App (U : Type) where
  user : Option U
  restoreError : Option Failure
  booting : Bool
  restoreAttempt : Nat
  restoreRequestIdRef : Nat
  sessionGenerationRef : Nat

namespace App

variable {U : Type}

/-- The first render. -/
def initial : App U := ⟨none, none, true, 0, 0, 0⟩

/-- `clearSessionState`. -/
def clearSessionState (a : App U) : App U :=
  { a with
    sessionGenerationRef := a.sessionGenerationRef + 1
    restoreRequestIdRef := a.restoreRequestIdRef + 1
    user := none
    restoreError := none
    booting := false }

/-- `requestSessionRestore`. -/
def requestSessionRestore (a : App U) : App U :=
  { a with
    restoreRequestIdRef := a.restoreRequestIdRef + 1
    user := none
    restoreError := none
    booting := true
    restoreAttempt := a.restoreAttempt + 1 }

/-- The listener of `subscribeToSessionEvents`. -/
def handleSessionEvent (a : App U) : SessionEvent → App U
  | .signedOut => a.clearSessionState
  | .signedIn =>
    requestSessionRestore { a with sessionGenerationRef := a.sessionGenerationRef + 1 }

/-- What the restore effect does when it goes: its request counts no more, if it still did. -/
def cleanup (a : App U) (requestId : Nat) : App U :=
  if a.restoreRequestIdRef = requestId then
    { a with restoreRequestIdRef := a.restoreRequestIdRef + 1 }
  else a

/-- The restore effect up to its request. -/
def restore (a : App U) : App U :=
  { a with
    restoreRequestIdRef := a.restoreRequestIdRef + 1
    booting := true
    restoreError := none
    user := none }

/-- The restore effect once its request is through. -/
def settleRestore (a : App U) (requestId : Nat) (outcome : Except Failure U) : App U :=
  if a.restoreRequestIdRef ≠ requestId then a
  else match outcome with
    | .ok me => { a with user := some me, booting := false }
    | .error .unauthorized => a.clearSessionState
    | .error .other => { a with user := none, restoreError := some .other, booting := false }

section SettleRestore

variable {a : App U} {requestId : Nat}

/-- A request that counts no more. -/
theorem settleRestore_stale (h : a.restoreRequestIdRef ≠ requestId) (outcome : Except Failure U) :
    a.settleRestore requestId outcome = a :=
  if_pos h

theorem settleRestore_ok (h : a.restoreRequestIdRef = requestId) (me : U) :
    a.settleRestore requestId (.ok me) = { a with user := some me, booting := false } :=
  if_neg (not_not.mpr h)

theorem settleRestore_unauthorized (h : a.restoreRequestIdRef = requestId) :
    a.settleRestore requestId (.error .unauthorized) = a.clearSessionState :=
  if_neg (not_not.mpr h)

theorem settleRestore_other (h : a.restoreRequestIdRef = requestId) :
    a.settleRestore requestId (.error .other) =
      { a with user := none, restoreError := some .other, booting := false } :=
  if_neg (not_not.mpr h)

theorem settleRestore_restoreAttempt (a : App U) (requestId : Nat) (outcome : Except Failure U) :
    (a.settleRestore requestId outcome).restoreAttempt = a.restoreAttempt := by
  unfold settleRestore
  split <;> [rfl; split <;> rfl]

theorem le_settleRestore (a : App U) (requestId : Nat) (outcome : Except Failure U) :
    a.restoreRequestIdRef ≤ (a.settleRestore requestId outcome).restoreRequestIdRef := by
  unfold settleRestore
  split
  · exact Nat.le_refl _
  · split <;> [exact Nat.le_refl _; exact Nat.le_succ _; exact Nat.le_refl _]

end SettleRestore

theorem le_cleanup (a : App U) (requestId : Nat) :
    a.restoreRequestIdRef ≤ (a.cleanup requestId).restoreRequestIdRef := by
  rw [cleanup]
  split <;> [exact Nat.le_succ _; exact Nat.le_refl _]

/-- The end of `handleLogin`. -/
def signIn (a : App U) (me : U) : App U :=
  { a with
    sessionGenerationRef := a.sessionGenerationRef + 1
    restoreRequestIdRef := a.restoreRequestIdRef + 1
    user := some me
    restoreError := none
    booting := false }

end App

/-- The request of a restore: the cookie it was sent with, and its outcome. -/
structure Probe (T U : Type) where
  requestId : Nat
  token : Option T
  outcome : Option (Except Failure U)

/-- What a request of `client` is for. -/
inductive CallKind
  | view | logout | revokeAll
  deriving DecidableEq

/-- A request of `client`, with the session generation it was sent in. -/
structure Call (T : Type) where
  kind : CallKind
  generation : Nat
  token : Option T
  outcome : Option (Except Failure Unit)

/-- A sign-in.  `handleLogin`: its cookie has come, it has asked who that is, it has been told.  Or the tab
was loaded by the redirect of a sign-in with Microsoft, and the restore is to say who that is. -/
inductive Login (T U : Type)
  | posted
  | asked (token : Option T)
  | told (me : U)
  | redirected

/-- A tab: what it shows, the attempt its restore effect ran for and the request of that, and what is on
its way. -/
structure Tab (T U : Type) where
  app : App U
  effect : Option (Nat × Nat)
  probes : List (Probe T U)
  calls : List (Call T)
  login : Option (Login T U)
  events : List SessionEvent

namespace Tab

variable {T U : Type}

/-- A tab that is opened. -/
def opened : Tab T U := ⟨.initial, none, [], [], none, []⟩

/-- The effect is to run: for the first time, or for another attempt. -/
def EffectPending (t : Tab T U) : Prop := t.effect.map Prod.fst ≠ some t.app.restoreAttempt

instance (t : Tab T U) : Decidable t.EffectPending := inferInstanceAs (Decidable (_ ≠ _))

/-- The effect goes, if it ran before, and comes again. -/
def runEffect (t : Tab T U) (jar : Option T) : Tab T U :=
  let app := (t.effect.elim t.app fun e => t.app.cleanup e.2).restore
  { t with
    app := app
    effect := some (app.restoreAttempt, app.restoreRequestIdRef)
    probes := ⟨app.restoreRequestIdRef, jar, none⟩ :: t.probes }

end Tab

/-! ## All tabs -/

/-- The tabs of a browser, its cookie, and the sessions of the server. -/
structure World (I T U : Type) where
  tabs : I → Tab T U
  jar : Option T
  sessions : T → Option U

namespace World

variable {I T U : Type}

/-- The user of the cookie. -/
def holder (w : World I T U) : Option U := w.jar.bind w.sessions

variable [DecidableEq I]

/-- A tab changed. -/
def setTab (w : World I T U) (i : I) (t : Tab T U) : World I T U :=
  { w with tabs := Function.update w.tabs i t }

/-- The other tabs will hear of it. -/
def publish (w : World I T U) (i : I) (e : SessionEvent) : World I T U :=
  { w with
    tabs := fun j => if j = i then w.tabs j else { w.tabs j with events := (w.tabs j).events ++ [e] } }

/-- `publishSessionEvent`: where the event cannot be `stored`, nobody hears of it. -/
def publishSessionEvent (w : World I T U) (i : I) (e : SessionEvent) (stored : Bool) : World I T U :=
  if stored then w.publish i e else w

/-- The sessions with `p` end. -/
def endSessions (w : World I T U) (p : T → U → Bool) : World I T U :=
  { w with sessions := fun t => (w.sessions t).filter fun u => !p t u }

/-- What the server says to a request with the cookie `token`. -/
def me (w : World I T U) (token : Option T) : Except Failure U :=
  match token.bind w.sessions with
  | some u => .ok u
  | none => .error .unauthorized

/-- The sessions that a call ends. -/
def endedBy [DecidableEq T] [DecidableEq U] (w : World I T U) (c : Call T) : T → U → Bool :=
  match c.kind with
  | .view => fun _ _ => false
  | .logout => fun t _ => c.token = some t
  | .revokeAll => fun _ u => c.token.bind w.sessions = some u

/-- What a call comes to: a sign-out that has been carried out, or one that the server asks for. -/
def settleCall (w : World I T U) (i : I) (c : Call T) (outcome : Except Failure Unit)
    (stored : Bool) : World I T U :=
  let t := w.tabs i
  let cleared := w.setTab i { t with app := t.app.clearSessionState }
  match outcome with
  | .ok () =>
    if c.kind = .view then w
    else { cleared.publishSessionEvent i .signedOut stored with jar := none }
  | .error .unauthorized =>
    if c.generation = t.app.sessionGenerationRef then
      cleared.publishSessionEvent i .signedOut stored
    else w
  | .error .other => w

/-- What can happen. -/
inductive Event (I T U : Type)
  | opens (i : I) | effect (i : I)
  | answerProbe (i : I) | failProbe (i : I) | settleProbe (i : I)
  | call (i : I) (kind : CallKind)
  | answerCall (i : I) | failCall (i : I) | settleCall (i : I) (stored : Bool)
  | loginArrives (i : I) (token : T) (user : U)
  | loginAsks (i : I) | loginTold (i : I) | loginDone (i : I) (stored : Bool) | loginFails (i : I)
  | redirects (i : I) (token : T) (user : U) | redirectDone (i : I) (stored : Bool)
  | storage (i : I)
  | retry (i : I)
  | ends
  | dropsCookie

/-- **What an event does.**  A cookie comes and goes with the answer that sets or removes it; sessions end
for reasons of their own as well, and so may the cookie. -/
inductive Next [DecidableEq T] [DecidableEq U] (w : World I T U) : Event I T U → World I T U → Prop
  | opens (i : I) : Next w (.opens i) (w.setTab i .opened)
  | effect (i : I) (h : (w.tabs i).EffectPending) :
    Next w (.effect i) (w.setTab i ((w.tabs i).runEffect w.jar))
  | answerProbe (i : I) {ps qs : List (Probe T U)} {p : Probe T U}
    (h : (w.tabs i).probes = ps ++ p :: qs) (hp : p.outcome = none) :
    Next w (.answerProbe i) (w.setTab i { w.tabs i with
      probes := ps ++ { p with outcome := some (w.me p.token) } :: qs })
  | failProbe (i : I) {ps qs : List (Probe T U)} {p : Probe T U}
    (h : (w.tabs i).probes = ps ++ p :: qs) (hp : p.outcome = none) :
    Next w (.failProbe i) (w.setTab i { w.tabs i with
      probes := ps ++ { p with outcome := some (.error .other) } :: qs })
  | settleProbe (i : I) {ps qs : List (Probe T U)} {p : Probe T U} {o : Except Failure U}
    (h : (w.tabs i).probes = ps ++ p :: qs) (ho : p.outcome = some o) :
    Next w (.settleProbe i) (w.setTab i { w.tabs i with
      app := (w.tabs i).app.settleRestore p.requestId o
      probes := ps ++ qs })
  | call (i : I) (kind : CallKind) :
    Next w (.call i kind) (w.setTab i { w.tabs i with
      calls := ⟨kind, (w.tabs i).app.sessionGenerationRef, w.jar, none⟩ :: (w.tabs i).calls })
  | answerCall (i : I) {cs ds : List (Call T)} {c : Call T}
    (h : (w.tabs i).calls = cs ++ c :: ds) (hc : c.outcome = none) :
    Next w (.answerCall i) ((w.endSessions (w.endedBy c)).setTab i { w.tabs i with
      calls := cs ++ { c with outcome := some ((w.me c.token).map fun _ => ()) } :: ds })
  | failCall (i : I) {cs ds : List (Call T)} {c : Call T}
    (h : (w.tabs i).calls = cs ++ c :: ds) (hc : c.outcome = none) :
    Next w (.failCall i) (w.setTab i { w.tabs i with
      calls := cs ++ { c with outcome := some (.error .other) } :: ds })
  | settleCall (i : I) {cs ds : List (Call T)} {c : Call T} {o : Except Failure Unit} (stored : Bool)
    (h : (w.tabs i).calls = cs ++ c :: ds) (ho : c.outcome = some o) :
    Next w (.settleCall i stored)
      ((w.setTab i { w.tabs i with calls := cs ++ ds }).settleCall i c o stored)
  | loginArrives (i : I) (token : T) (user : U) (h : (w.tabs i).login = none) :
    Next w (.loginArrives i token user) { w.setTab i { w.tabs i with login := some .posted } with
      jar := some token
      sessions := Function.update w.sessions token (some user) }
  | loginAsks (i : I) (h : (w.tabs i).login = some .posted) :
    Next w (.loginAsks i) (w.setTab i { w.tabs i with login := some (.asked w.jar) })
  | loginTold (i : I) {token : Option T} {me : U} (h : (w.tabs i).login = some (.asked token))
    (hme : w.me token = .ok me) :
    Next w (.loginTold i) (w.setTab i { w.tabs i with login := some (.told me) })
  | loginDone (i : I) {me : U} (stored : Bool) (h : (w.tabs i).login = some (.told me)) :
    Next w (.loginDone i stored) ((w.setTab i { w.tabs i with
      app := (w.tabs i).app.signIn me
      login := none }).publishSessionEvent i .signedIn stored)
  | loginFails (i : I) (h : (w.tabs i).login.isSome) :
    Next w (.loginFails i) (w.setTab i { w.tabs i with login := none })
  | redirects (i : I) (token : T) (user : U) (h : (w.tabs i).login = none) :
    Next w (.redirects i token user) { w.setTab i { Tab.opened with login := some .redirected } with
      jar := some token
      sessions := Function.update w.sessions token (some user) }
  | redirectDone (i : I) (stored : Bool) (h : (w.tabs i).login = some .redirected)
    (hbooting : (w.tabs i).app.booting = false) (herror : (w.tabs i).app.restoreError = none)
    (huser : (w.tabs i).app.user.isSome) :
    Next w (.redirectDone i stored)
      ((w.setTab i { w.tabs i with login := none }).publishSessionEvent i .signedIn stored)
  | storage (i : I) {e : SessionEvent} {es : List SessionEvent} (h : (w.tabs i).events = e :: es) :
    Next w (.storage i) (w.setTab i { w.tabs i with
      app := (w.tabs i).app.handleSessionEvent e
      events := es })
  | retry (i : I) (hnobody : (w.tabs i).app.user = none) (h : (w.tabs i).app.restoreError.isSome) :
    Next w (.retry i) (w.setTab i { w.tabs i with app := (w.tabs i).app.requestSessionRestore })
  | ends (p : T → U → Bool) : Next w .ends (w.endSessions p)
  | dropsCookie : Next w .dropsCookie { w with jar := none }

/-- A sign-in begins when no other is under way, it is not broken off, and the news of it can be stored. -/
def Calm (w : World I T U) : Event I T U → Prop
  | .loginArrives _ _ _ | .redirects _ _ _ => ∀ j, (w.tabs j).login = none
  | .loginFails _ => False
  | .loginDone _ stored | .redirectDone _ stored => stored
  | .opens i => (w.tabs i).login = none
  | _ => True

/-- The worlds that a browser comes to while sign-ins are calm. -/
abbrev Reachable [DecidableEq T] [DecidableEq U] : World I T U → World I T U → Prop :=
  Relation.ReflTransGen fun w w' => ∃ e, Next w e w' ∧ w.Calm e

end World

/-! ## What a tab shows -/

namespace Tab

variable {T U : Type} {jar : Option T} {holder : Option U} {t : Tab T U}

/-- A sign-in was announced to the tab, or the tab is about to ask again. -/
def Awaits (t : Tab T U) : Prop := .signedIn ∈ t.events ∨ t.EffectPending

instance (t : Tab T U) : Decidable t.Awaits := inferInstanceAs (Decidable (_ ∨ _))

/-- Numbers do not run ahead. -/
structure Numbered (t : Tab T U) : Prop where
  probes : ∀ p ∈ t.probes, p.requestId ≤ t.app.restoreRequestIdRef
  effect : ∀ a n, t.effect = some (a, n) → a ≤ t.app.restoreAttempt

/-- The tab shows the holder of the cookie, if anybody, and so will what it waits for. -/
structure Honest (jar : Option T) (holder : Option U) (t : Tab T U) : Prop where
  user : ∀ u, t.app.user = some u → holder = some u
  asked : ∀ p ∈ t.probes, p.requestId = t.app.restoreRequestIdRef → p.outcome = none → p.token = jar
  told : ∀ p ∈ t.probes, p.requestId = t.app.restoreRequestIdRef → ∀ u, p.outcome = some (.ok u) →
    holder = some u

/-- A tab that shows nobody, and whose requests count no more. -/
theorem Honest.of_cleared (huser : t.app.user = none)
    (hprobes : ∀ p ∈ t.probes, p.requestId < t.app.restoreRequestIdRef) : t.Honest jar holder where
  user := fun u hu => by rw [huser] at hu; cases hu
  asked := fun p hp heq => absurd heq (Nat.ne_of_lt (hprobes p hp))
  told := fun p hp heq => absurd heq (Nat.ne_of_lt (hprobes p hp))

theorem numbered_opened : (opened : Tab T U).Numbered :=
  ⟨fun _ hp => (List.not_mem_nil hp).elim, fun _ _ h => by cases h⟩

theorem effectPending_opened : (opened : Tab T U).EffectPending := fun h => by cases h

/-- The request of the effect is the last. -/
theorem lt_runEffect (t : Tab T U) (jar : Option T) :
    t.app.restoreRequestIdRef < (t.runEffect jar).app.restoreRequestIdRef := by
  cases h : t.effect with
  | none =>
    rw [runEffect, h]
    exact Nat.lt_succ_self _
  | some e =>
    rw [runEffect, h]
    exact Nat.lt_succ_of_le (t.app.le_cleanup e.2)

/-- Fewer requests, and nobody else shown. -/
theorem Honest.of_subset (h : t.Honest jar holder) {t' : Tab T U}
    (hprobes : ∀ p ∈ t'.probes, p ∈ t.probes)
    (hrequest : t'.app.restoreRequestIdRef = t.app.restoreRequestIdRef)
    (huser : ∀ u, t'.app.user = some u → holder = some u) : t'.Honest jar holder where
  user := huser
  asked := fun p hp heq => h.asked p (hprobes p hp) (heq.trans hrequest)
  told := fun p hp heq => h.told p (hprobes p hp) (heq.trans hrequest)

theorem Awaits.of_eq (h : t.Awaits) {t' : Tab T U} (hevents : t'.events = t.events)
    (heffect : t'.effect = t.effect) (hattempt : t'.app.restoreAttempt = t.app.restoreAttempt) :
    t'.Awaits := by
  refine h.imp (fun h => hevents ▸ h) fun h => ?_
  rw [EffectPending, heffect, hattempt]
  exact h

/-- After another attempt was asked for, the effect is to run. -/
theorem Numbered.effectPending (h : t.Numbered) {app : App U}
    (happ : t.app.restoreAttempt < app.restoreAttempt) : { t with app := app }.EffectPending := by
  intro heq
  obtain ⟨⟨a, n⟩, heffect, hattempt⟩ := Option.map_eq_some_iff.mp heq
  have hle := h.effect a n heffect
  change a = app.restoreAttempt at hattempt
  omega

/-- Numbers that grow do not run ahead either. -/
theorem Numbered.of_le (h : t.Numbered) {t' : Tab T U} (heffect : t'.effect = t.effect)
    (hprobes : ∀ p ∈ t'.probes, ∃ q ∈ t.probes, q.requestId = p.requestId)
    (hrequest : t.app.restoreRequestIdRef ≤ t'.app.restoreRequestIdRef)
    (hattempt : t.app.restoreAttempt ≤ t'.app.restoreAttempt) : t'.Numbered where
  probes := fun p hp => by
    obtain ⟨q, hq, hid⟩ := hprobes p hp
    exact hid ▸ Nat.le_trans (h.probes q hq) hrequest
  effect := fun a n ha => Nat.le_trans (h.effect a n (heffect ▸ ha)) hattempt

end Tab

namespace World

variable {I T U : Type} {w : World I T U}

/-- No sign-in is under way, or the tab was loaded by it. -/
def Quiet (w : World I T U) (i : I) : Prop :=
  (∀ j, (w.tabs j).login = none) ∨ (w.tabs i).login = some .redirected

/-- Where the sign-ins are the same, the same tabs are quiet. -/
theorem Quiet.of_login {w' : World I T U} (hlogin : ∀ j, (w'.tabs j).login = (w.tabs j).login) {i : I}
    (h : w'.Quiet i) : w.Quiet i :=
  h.imp (fun h j => (hlogin j).symm.trans (h j)) (hlogin i).symm.trans

/-- What holds of every world: a tab shows the holder of the cookie, unless there is none any more, or a
sign-in is under way, or the tab is about to learn of one. -/
structure Sound (w : World I T U) : Prop where
  numbered : ∀ i, (w.tabs i).Numbered
  honest : w.holder ≠ none → ∀ i, w.Quiet i → ¬ (w.tabs i).Awaits → (w.tabs i).Honest w.jar w.holder
  asked : w.holder ≠ none → ∀ i token, (w.tabs i).login = some (.asked token) → token = w.jar
  told : w.holder ≠ none → ∀ i me, (w.tabs i).login = some (.told me) → w.holder = some me
  single : ∀ i j, (w.tabs i).login ≠ none → (w.tabs j).login ≠ none → i = j

theorem sound_opened (jar : Option T) (sessions : T → Option U) :
    Sound (⟨fun _ => .opened, jar, sessions⟩ : World I T U) where
  numbered := fun _ => Tab.numbered_opened
  honest := fun _ _ _ hawaits => absurd (Or.inr Tab.effectPending_opened) hawaits
  asked := fun _ _ _ h => by cases h
  told := fun _ _ _ h => by cases h
  single := fun _ _ h => absurd rfl h

/-! ### Changes of everything but the tabs -/

/-- The same tabs and the same cookie, whose session may be gone. -/
theorem Sound.of_holder (h : Sound w) {sessions : T → Option U}
    (hholder : w.jar.bind sessions ≠ none → w.jar.bind sessions = w.holder) :
    Sound { w with sessions := sessions } where
  numbered := h.numbered
  honest := fun hne i hquiet hawaits => by
    have heq := hholder hne
    change (w.tabs i).Honest w.jar (w.jar.bind sessions)
    rw [heq]
    exact h.honest (heq ▸ hne) i hquiet hawaits
  asked := fun hne => h.asked (hholder hne ▸ hne)
  told := fun hne i me hlogin => (hholder hne).trans (h.told (hholder hne ▸ hne) i me hlogin)
  single := h.single

/-- The same tabs without a cookie. -/
theorem Sound.dropsCookie (h : Sound w) : Sound { w with jar := none } where
  numbered := h.numbered
  honest := fun hne => absurd rfl hne
  asked := fun hne => absurd rfl hne
  told := fun hne => absurd rfl hne
  single := h.single

theorem Sound.endSessions (h : Sound w) (p : T → U → Bool) : Sound (w.endSessions p) := by
  refine h.of_holder fun hne => ?_
  rw [holder]
  cases hjar : w.jar with
  | none => rfl
  | some t =>
    rw [hjar] at hne
    change (w.sessions t).filter (fun u => !p t u) ≠ none at hne
    change (w.sessions t).filter (fun u => !p t u) = w.sessions t
    obtain ⟨u, hu⟩ := Option.ne_none_iff_exists'.mp hne
    exact hu.trans (Option.filter_eq_some_iff.mp hu).1.symm

theorem me_ok {token : Option T} {u : U} : w.me token = .ok u ↔ token.bind w.sessions = some u := by
  rw [me]
  cases token.bind w.sessions with
  | none => exact ⟨fun h => (by cases h), fun h => (by cases h)⟩
  | some v =>
    exact ⟨fun h => congrArg some (Except.ok.inj h), fun h => congrArg Except.ok (Option.some.inj h)⟩

/-! ### Changes of a tab -/

variable [DecidableEq I]

@[simp] theorem setTab_self (i : I) (t : Tab T U) : (w.setTab i t).tabs i = t :=
  Function.update_self ..

theorem setTab_other {i j : I} (hne : j ≠ i) (t : Tab T U) : (w.setTab i t).tabs j = w.tabs j :=
  Function.update_of_ne hne ..

theorem forall_setTab {p : Tab T U → Prop} {i : I} {t : Tab T U} (hi : p t)
    (h : ∀ j, p (w.tabs j)) (j : I) : p ((w.setTab i t).tabs j) := by
  rcases eq_or_ne j i with rfl | hne
  · rw [setTab_self]
    exact hi
  · rw [setTab_other hne]
    exact h j

theorem login_setTab {i : I} {t : Tab T U} (h : t.login = (w.tabs i).login) (j : I) :
    ((w.setTab i t).tabs j).login = (w.tabs j).login := by
  rcases eq_or_ne j i with rfl | hne
  · rw [setTab_self, h]
  · rw [setTab_other hne]

/-- A tab changes beside its sign-in. -/
theorem Sound.setTab (h : Sound w) {i : I} {t : Tab T U} (hlogin : t.login = (w.tabs i).login)
    (hnumbered : t.Numbered)
    (hhonest : (¬ (w.tabs i).Awaits → (w.tabs i).Honest w.jar w.holder) → ¬ t.Awaits →
      t.Honest w.jar w.holder) : Sound (w.setTab i t) where
  numbered := forall_setTab hnumbered h.numbered
  honest := fun hne j hquiet' hawaits => by
    have hquiet : w.Quiet j := hquiet'.of_login (login_setTab hlogin)
    change ((w.setTab i t).tabs j).Honest w.jar w.holder
    rcases eq_or_ne j i with rfl | hji
    · rw [setTab_self] at hawaits ⊢
      exact hhonest (h.honest hne j hquiet) hawaits
    · rw [setTab_other hji] at hawaits ⊢
      exact h.honest hne j hquiet hawaits
  asked := fun hne j token hj => h.asked hne j token ((login_setTab hlogin j).symm.trans hj)
  told := fun hne j me hj => h.told hne j me ((login_setTab hlogin j).symm.trans hj)
  single := fun j k hj hk => by
    rw [login_setTab hlogin] at hj hk
    exact h.single j k hj hk

/-- A tab whose requests count no more and that shows nobody. -/
theorem Sound.cleared (h : Sound w) {i : I} {app : App U} (huser : app.user = none)
    (hrequest : (w.tabs i).app.restoreRequestIdRef < app.restoreRequestIdRef)
    (hattempt : (w.tabs i).app.restoreAttempt ≤ app.restoreAttempt) :
    Sound (w.setTab i { w.tabs i with app := app }) :=
  h.setTab rfl
    ((h.numbered i).of_le rfl (fun p hp => ⟨p, hp, rfl⟩) (Nat.le_of_lt hrequest) hattempt)
    fun _ _ => .of_cleared huser fun p hp => Nat.lt_of_le_of_lt ((h.numbered i).probes p hp) hrequest

theorem publish_self (i : I) (e : SessionEvent) : (w.publish i e).tabs i = w.tabs i := if_pos rfl

theorem publish_other {i j : I} (hne : j ≠ i) (e : SessionEvent) :
    (w.publish i e).tabs j = { w.tabs j with events := (w.tabs j).events ++ [e] } := if_neg hne

theorem login_publish (i : I) (e : SessionEvent) (j : I) :
    ((w.publish i e).tabs j).login = (w.tabs j).login := by
  rcases eq_or_ne j i with rfl | hne
  · rw [publish_self]
  · rw [publish_other hne]

theorem numbered_publish (h : ∀ j, (w.tabs j).Numbered) (i : I) (e : SessionEvent) (j : I) :
    ((w.publish i e).tabs j).Numbered := by
  rcases eq_or_ne j i with rfl | hne
  · rw [publish_self]
    exact h j
  · rw [publish_other hne]
    exact ⟨(h j).probes, (h j).effect⟩

/-- The other tabs are told. -/
theorem Sound.publish (h : Sound w) (i : I) (e : SessionEvent) : Sound (w.publish i e) where
  numbered := numbered_publish h.numbered i e
  honest := fun hne j hquiet' hawaits => by
    have hquiet : w.Quiet j := hquiet'.of_login (login_publish i e)
    change ((w.publish i e).tabs j).Honest w.jar w.holder
    rcases eq_or_ne j i with rfl | hji
    · rw [publish_self] at hawaits ⊢
      exact h.honest hne j hquiet hawaits
    · rw [publish_other hji] at hawaits ⊢
      have hold := h.honest hne j hquiet fun hold =>
        hawaits (hold.imp_left (List.mem_append_left _))
      exact ⟨hold.user, hold.asked, hold.told⟩
  asked := fun hne j token hj => h.asked hne j token ((login_publish i e j).symm.trans hj)
  told := fun hne j me hj => h.told hne j me ((login_publish i e j).symm.trans hj)
  single := fun j k hj hk => by
    rw [login_publish] at hj hk
    exact h.single j k hj hk

theorem Sound.publishSessionEvent (h : Sound w) (i : I) (e : SessionEvent) (stored : Bool) :
    Sound (w.publishSessionEvent i e stored) := by
  rw [World.publishSessionEvent]
  split
  · exact h.publish i e
  · exact h

/-! ### Restores -/

/-- The effect runs. -/
theorem Sound.runEffect (h : Sound w) (i : I) :
    Sound (w.setTab i ((w.tabs i).runEffect w.jar)) := by
  have hlater : ∀ p ∈ (w.tabs i).probes,
      p.requestId < ((w.tabs i).runEffect w.jar).app.restoreRequestIdRef :=
    fun p hp => Nat.lt_of_le_of_lt ((h.numbered i).probes p hp) (Tab.lt_runEffect ..)
  refine h.setTab rfl ⟨fun p hp => ?_, fun a n ha => ?_⟩ fun _ _ =>
    ⟨fun u hu => ?_, fun p hp heq _ => ?_, fun p hp heq u hu => ?_⟩
  · rcases List.mem_cons.mp hp with rfl | hp
    · exact Nat.le_refl _
    · exact Nat.le_of_lt (hlater p hp)
  · exact Nat.le_of_eq (Prod.mk.inj (Option.some.inj ha)).1.symm
  · cases hu
  · rcases List.mem_cons.mp hp with rfl | hp
    · rfl
    · exact absurd heq (Nat.ne_of_lt (hlater p hp))
  · rcases List.mem_cons.mp hp with rfl | hp
    · cases hu
    · exact absurd heq (Nat.ne_of_lt (hlater p hp))

section Probes

variable {i : I} {ps qs : List (Probe T U)} {p : Probe T U} {o : Except Failure U}

/-- A request gets its outcome; one that counts gets the holder of the cookie, if anybody. -/
theorem Sound.answered (h : Sound w) (hprobes : (w.tabs i).probes = ps ++ p :: qs)
    (ho : (w.tabs i).Honest w.jar w.holder → p.requestId = (w.tabs i).app.restoreRequestIdRef →
      ∀ u, o = .ok u → w.holder = some u) :
    Sound (w.setTab i { w.tabs i with probes := ps ++ { p with outcome := some o } :: qs }) := by
  have hmem : p ∈ (w.tabs i).probes := hprobes ▸ List.mem_append_right _ (List.mem_cons_self ..)
  have hcases : ∀ x ∈ ps ++ { p with outcome := some o } :: qs,
      x ∈ (w.tabs i).probes ∨ x = { p with outcome := some o } := by
    intro x hx
    rw [hprobes]
    rcases List.mem_append.mp hx with hx | hx
    · exact Or.inl (List.mem_append_left _ hx)
    · rcases List.mem_cons.mp hx with rfl | hx
      · exact Or.inr rfl
      · exact Or.inl (List.mem_append_right _ (List.mem_cons_of_mem _ hx))
  refine h.setTab rfl ((h.numbered i).of_le rfl (fun x hx => ?_) (Nat.le_refl _) (Nat.le_refl _))
    fun hold hawaits => ?_
  · rcases hcases x hx with hx | rfl
    · exact ⟨x, hx, rfl⟩
    · exact ⟨p, hmem, rfl⟩
  · have hold := hold hawaits
    refine ⟨hold.user, fun x hx heq hnone => ?_, fun x hx heq u hu => ?_⟩
    · rcases hcases x hx with hx | rfl
      · exact hold.asked x hx heq hnone
      · cases hnone
    · rcases hcases x hx with hx | rfl
      · exact hold.told x hx heq u hu
      · exact ho hold heq u (Option.some.inj hu)

theorem Sound.answerProbe (h : Sound w) (hprobes : (w.tabs i).probes = ps ++ p :: qs)
    (hp : p.outcome = none) :
    Sound (w.setTab i { w.tabs i with
      probes := ps ++ { p with outcome := some (w.me p.token) } :: qs }) := by
  refine h.answered hprobes fun hold heq u hu => ?_
  have hmem : p ∈ (w.tabs i).probes := hprobes ▸ List.mem_append_right _ (List.mem_cons_self ..)
  rw [me_ok, hold.asked p hmem heq hp] at hu
  exact hu

/-- A restore comes to its end. -/
theorem Sound.settleProbe (h : Sound w) (hprobes : (w.tabs i).probes = ps ++ p :: qs)
    (ho : p.outcome = some o) :
    Sound (w.setTab i { w.tabs i with
      app := (w.tabs i).app.settleRestore p.requestId o
      probes := ps ++ qs }) := by
  have hmem : p ∈ (w.tabs i).probes := hprobes ▸ List.mem_append_right _ (List.mem_cons_self ..)
  have hsub : ∀ x ∈ ps ++ qs, x ∈ (w.tabs i).probes := by
    intro x hx
    rw [hprobes]
    exact (List.mem_append.mp hx).elim (List.mem_append_left _)
      fun hx => List.mem_append_right _ (List.mem_cons_of_mem _ hx)
  have hnumbered : Tab.Numbered { w.tabs i with
      app := (w.tabs i).app.settleRestore p.requestId o, probes := ps ++ qs } :=
    (h.numbered i).of_le rfl (fun x hx => ⟨x, hsub x hx, rfl⟩) (App.le_settleRestore ..)
      (Nat.le_of_eq (App.settleRestore_restoreAttempt ..).symm)
  refine h.setTab rfl hnumbered fun hold hawaits => ?_
  have hold := hold fun hold => hawaits (hold.of_eq rfl rfl (App.settleRestore_restoreAttempt ..))
  by_cases hcounts : (w.tabs i).app.restoreRequestIdRef = p.requestId
  · cases o with
    | ok me =>
      rw [App.settleRestore_ok hcounts]
      refine hold.of_subset hsub rfl fun u hu => ?_
      obtain rfl := Option.some.inj hu
      exact hold.told p hmem hcounts.symm me ho
    | error e =>
      cases e with
      | unauthorized =>
        rw [App.settleRestore_unauthorized hcounts]
        exact .of_cleared rfl fun x hx => Nat.lt_succ_of_le ((h.numbered i).probes x (hsub x hx))
      | other =>
        rw [App.settleRestore_other hcounts]
        exact hold.of_subset hsub rfl fun u hu => by cases hu
  · rw [App.settleRestore_stale hcounts]
    exact hold.of_subset hsub rfl hold.user

end Probes

/-! ### Sign-outs and sign-ins -/

/-- The calls of a tab say nothing of whom it shows. -/
theorem Sound.calls (h : Sound w) (i : I) (calls : List (Call T)) :
    Sound (w.setTab i { w.tabs i with calls := calls }) := by
  refine h.setTab rfl ⟨(h.numbered i).probes, (h.numbered i).effect⟩ fun hold hawaits => ?_
  have hold := hold fun hold => hawaits (hold.of_eq rfl rfl rfl)
  exact hold.of_subset (fun _ hp => hp) rfl hold.user

/-- A sign-out, by the tab or by the server. -/
theorem Sound.settleCall (h : Sound w) (i : I) (c : Call T) (o : Except Failure Unit)
    (stored : Bool) : Sound (w.settleCall i c o stored) := by
  have hcleared : Sound (w.setTab i { w.tabs i with app := (w.tabs i).app.clearSessionState }) :=
    h.cleared rfl (Nat.lt_succ_self _) (Nat.le_refl _)
  cases o with
  | ok done =>
    rw [World.settleCall]
    split
    · exact h
    · exact (hcleared.publishSessionEvent i .signedOut stored).dropsCookie
  | error e =>
    cases e with
    | unauthorized =>
      rw [World.settleCall]
      split
      · exact hcleared.publishSessionEvent i .signedOut stored
      · exact h
    | other => exact h

/-- A sign-in changes the cookie: of no tab is known yet what it shows. -/
theorem Sound.begins (h : Sound w) {i : I} (hcalm : ∀ j, (w.tabs j).login = none) (t : Tab T U)
    (hnumbered : t.Numbered)
    (ht : t.login = some .posted ∨ t.login = some .redirected ∧ t.EffectPending)
    (jar : Option T) (sessions : T → Option U) :
    Sound { w.setTab i t with jar := jar, sessions := sessions } := by
  have hbusy : t.login ≠ none := fun hnone => by
    rw [hnone] at ht
    rcases ht with ht | ⟨ht, _⟩ <;> cases ht
  have hlogin : ∀ j, ((w.setTab i t).tabs j).login ≠ none → j = i := by
    intro j hj
    by_contra hne
    rw [setTab_other hne] at hj
    exact hj (hcalm j)
  refine ⟨forall_setTab hnumbered h.numbered, fun _ j hquiet hawaits => ?_, fun _ j token hj => ?_,
    fun _ j me hj => ?_, fun j k hj hk => (hlogin j hj).trans (hlogin k hk).symm⟩
  · exfalso
    rcases hquiet with hnone | hj
    · exact hbusy ((congrArg Tab.login (setTab_self i t)).symm.trans (hnone i))
    · obtain rfl := hlogin j (by rw [hj]; exact Option.some_ne_none _)
      have hj : t.login = some .redirected := (congrArg Tab.login (setTab_self j t)).symm.trans hj
      have hawaits : ¬ t.Awaits := setTab_self (w := w) j t ▸ hawaits
      rcases ht with ht | ⟨_, hpending⟩
      · cases hj.symm.trans ht
      · exact hawaits (Or.inr hpending)
  all_goals
    obtain rfl := hlogin j (by rw [hj]; exact Option.some_ne_none _)
    have hj := (congrArg Tab.login (setTab_self j t)).symm.trans hj
    rcases ht with ht | ⟨ht, _⟩ <;> cases hj.symm.trans ht

/-- `handleLogin` goes on. -/
theorem Sound.loginGoesOn (h : Sound w) {i : I} {old new : Login T U}
    (hold : (w.tabs i).login = some old) (hnew : new ≠ .redirected)
    (hasked : w.holder ≠ none → ∀ token, new = .asked token → token = w.jar)
    (htold : w.holder ≠ none → ∀ me, new = .told me → w.holder = some me) :
    Sound (w.setTab i { w.tabs i with login := some new }) := by
  let t : Tab T U := { w.tabs i with login := some new }
  have hself : ((w.setTab i t).tabs i).login = some new := congrArg Tab.login (setTab_self i t)
  have hlogin : ∀ j, ((w.setTab i t).tabs j).login ≠ none → j = i := by
    intro j hj
    by_contra hne
    rw [setTab_other hne] at hj
    exact hne (h.single j i hj (hold ▸ Option.some_ne_none _))
  have hnew' : ∀ j l, ((w.setTab i t).tabs j).login = some l → l = new := by
    intro j l hj
    obtain rfl := hlogin j (hj ▸ Option.some_ne_none _)
    exact Option.some.inj (hj.symm.trans hself)
  refine ⟨forall_setTab ⟨(h.numbered i).probes, (h.numbered i).effect⟩ h.numbered,
    fun _ j hquiet => ?_, fun hne j token hj => hasked hne token (hnew' j _ hj).symm,
    fun hne j me hj => htold hne me (hnew' j _ hj).symm,
    fun j k hj hk => (hlogin j hj).trans (hlogin k hk).symm⟩
  rcases hquiet with hnone | hj
  · cases (hnone i).symm.trans hself
  · exact absurd (hnew' j _ hj).symm hnew

/-- **A sign-in is over**: the tab shows the holder of the cookie, and the others are told. -/
theorem Sound.announced (h : Sound w) {i : I} (hbusy : (w.tabs i).login ≠ none) {t : Tab T U}
    (hidle : t.login = none) (hnumbered : t.Numbered)
    (hhonest : w.holder ≠ none → ¬ t.Awaits → t.Honest w.jar w.holder) :
    Sound ((w.setTab i t).publish i .signedIn) := by
  have hi : ((w.setTab i t).publish i .signedIn).tabs i = t :=
    (publish_self ..).trans (setTab_self ..)
  have hother : ∀ j, j ≠ i → ((w.setTab i t).publish i .signedIn).tabs j =
      { w.tabs j with events := (w.tabs j).events ++ [.signedIn] } := fun j hne => by
    rw [publish_other hne, setTab_other hne]
  have hlogin : ∀ j, (((w.setTab i t).publish i .signedIn).tabs j).login = none := by
    intro j
    rcases eq_or_ne j i with rfl | hne
    · rw [hi, hidle]
    · rw [hother j hne]
      by_contra hj
      exact hne (h.single j i hj hbusy)
  refine ⟨numbered_publish (forall_setTab hnumbered h.numbered) i _, fun hne j _ hawaits => ?_,
    fun _ j token hj => ?_, fun _ j me hj => ?_, fun j _ hj => absurd (hlogin j) hj⟩
  · rcases eq_or_ne j i with rfl | hji
    · rw [hi] at hawaits ⊢
      exact hhonest hne hawaits
    · rw [hother j hji] at hawaits
      exact absurd (Or.inl (List.mem_append_right _ (List.mem_singleton.mpr rfl))) hawaits
  · cases (hlogin j).symm.trans hj
  · cases (hlogin j).symm.trans hj

theorem Sound.loginDone (h : Sound w) {i : I} {me : U} (hlogin : (w.tabs i).login = some (.told me)) :
    Sound ((w.setTab i { w.tabs i with
      app := (w.tabs i).app.signIn me
      login := none }).publish i .signedIn) := by
  refine h.announced (hlogin ▸ Option.some_ne_none _) rfl
    ((h.numbered i).of_le rfl (fun p hp => ⟨p, hp, rfl⟩) (Nat.le_succ _) (Nat.le_refl _)) fun hne _ => ?_
  have hlast : ∀ p ∈ (w.tabs i).probes, p.requestId < (w.tabs i).app.restoreRequestIdRef + 1 :=
    fun p hp => Nat.lt_succ_of_le ((h.numbered i).probes p hp)
  refine ⟨fun u hu => ?_, fun p hp heq => absurd heq (Nat.ne_of_lt (hlast p hp)),
    fun p hp heq => absurd heq (Nat.ne_of_lt (hlast p hp))⟩
  obtain rfl := Option.some.inj hu
  exact h.told hne i me hlogin

theorem Sound.redirectDone (h : Sound w) {i : I} (hlogin : (w.tabs i).login = some .redirected) :
    Sound ((w.setTab i { w.tabs i with login := none }).publish i .signedIn) := by
  refine h.announced (hlogin ▸ Option.some_ne_none _) rfl
    ⟨(h.numbered i).probes, (h.numbered i).effect⟩ fun hne hawaits => ?_
  have hold := h.honest hne i (Or.inr hlogin) hawaits
  exact ⟨hold.user, hold.asked, hold.told⟩

/-! ### Events -/

/-- A tab hears of a sign-in or a sign-out. -/
theorem Sound.storage (h : Sound w) {i : I} {e : SessionEvent} {es : List SessionEvent} :
    Sound (w.setTab i { w.tabs i with
      app := (w.tabs i).app.handleSessionEvent e
      events := es }) := by
  cases e with
  | signedOut =>
    refine h.setTab rfl
      ((h.numbered i).of_le rfl (fun p hp => ⟨p, hp, rfl⟩) (Nat.le_succ _) (Nat.le_refl _))
      fun _ _ => .of_cleared rfl fun p hp => ?_
    exact Nat.lt_succ_of_le ((h.numbered i).probes p hp)
  | signedIn =>
    refine h.setTab rfl
      ((h.numbered i).of_le rfl (fun p hp => ⟨p, hp, rfl⟩) (Nat.le_succ _) (Nat.le_succ _))
      fun _ hawaits => absurd (Or.inr ?_) hawaits
    exact (h.numbered i).effectPending (Nat.lt_succ_self _)

/-- **One event.** -/
theorem Sound.next [DecidableEq T] [DecidableEq U] {w' : World I T U} {e : Event I T U} (h : Sound w)
    (hnext : Next w e w') (hcalm : w.Calm e) : Sound w' := by
  cases hnext with
  | opens i =>
    exact h.setTab hcalm.symm Tab.numbered_opened
      fun _ hawaits => absurd (Or.inr Tab.effectPending_opened) hawaits
  | effect i _ => exact h.runEffect i
  | answerProbe i hprobes hp => exact h.answerProbe hprobes hp
  | failProbe i hprobes _ => exact h.answered hprobes fun _ _ _ hu => by cases hu
  | settleProbe i hprobes ho => exact h.settleProbe hprobes ho
  | call i kind => exact h.calls i _
  | answerCall i _ _ => exact (h.endSessions _).calls i _
  | failCall i _ _ => exact h.calls i _
  | settleCall i stored _ _ => exact (h.calls i _).settleCall i _ _ stored
  | loginArrives i token user _ =>
    exact h.begins hcalm { w.tabs i with login := some .posted }
      ⟨(h.numbered i).probes, (h.numbered i).effect⟩ (Or.inl rfl) _ _
  | loginAsks i hlogin =>
    exact h.loginGoesOn hlogin (fun heq => by cases heq)
      (fun _ token htoken => (Login.asked.inj htoken).symm) fun _ _ hme => by cases hme
  | loginTold i hlogin hme =>
    refine h.loginGoesOn hlogin (fun heq => by cases heq) (fun _ _ htoken => by cases htoken)
      fun hne u hu => ?_
    obtain rfl := Login.told.inj hu
    rw [me_ok, h.asked hne i _ hlogin] at hme
    exact hme
  | loginDone i stored hlogin =>
    have hstored : stored = true := hcalm
    rw [World.publishSessionEvent, if_pos hstored]
    exact h.loginDone hlogin
  | loginFails i _ => exact hcalm.elim
  | redirects i token user _ =>
    have hnumbered : (Tab.opened : Tab T U).Numbered := Tab.numbered_opened
    have hpending : (Tab.opened : Tab T U).EffectPending := Tab.effectPending_opened
    exact h.begins hcalm { Tab.opened with login := some .redirected }
      ⟨hnumbered.probes, hnumbered.effect⟩ (Or.inr ⟨rfl, hpending⟩) _ _
  | redirectDone i stored hlogin _ _ _ =>
    have hstored : stored = true := hcalm
    rw [World.publishSessionEvent, if_pos hstored]
    exact h.redirectDone hlogin
  | storage i _ => exact h.storage
  | retry i _ _ => exact h.cleared rfl (Nat.lt_succ_self _) (Nat.le_succ _)
  | ends p => exact h.endSessions p
  | dropsCookie => exact h.dropsCookie

/-- **All events.** -/
theorem Sound.of_reachable [DecidableEq T] [DecidableEq U] {w' : World I T U} (h : Sound w)
    (hw : Reachable w w') : Sound w' := by
  induction hw with
  | refl => exact h
  | tail _ hstep ih =>
    obtain ⟨e, hnext, hcalm⟩ := hstep
    exact ih.next hnext hcalm

/-- **A tab shows whoever the cookie belongs to.**  Let sign-ins of the tabs of a browser not overlap and
not be broken off, and let the browser store the news of each.  Then, in whatever order requests, answers
and messages between the tabs come, a tab that shows a user shows the holder of the cookie; or that session
is gone, or a sign-in is under way, or the news of one is on its way to the tab, or the tab is about to ask
again. -/
theorem tabs_show_holder [DecidableEq T] [DecidableEq U] {jar : Option T} {sessions : T → Option U}
    {w : World I T U} (hw : Reachable ⟨fun _ => .opened, jar, sessions⟩ w) {i : I} {u : U}
    (hu : (w.tabs i).app.user = some u) :
    w.holder = some u ∨ w.holder = none ∨ (∃ j, (w.tabs j).login ≠ none) ∨ (w.tabs i).Awaits := by
  have hsound : Sound w := (sound_opened jar sessions).of_reachable hw
  by_cases hne : w.holder = none
  · exact Or.inr (Or.inl hne)
  by_cases hbusy : ∃ j, (w.tabs j).login ≠ none
  · exact Or.inr (Or.inr (Or.inl hbusy))
  by_cases hawaits : (w.tabs i).Awaits
  · exact Or.inr (Or.inr (Or.inr hawaits))
  have hcalm : ∀ j, (w.tabs j).login = none := fun j => by
    by_contra hj
    exact hbusy ⟨j, hj⟩
  exact Or.inl ((hsound.honest hne i (Or.inl hcalm) hawaits).user u hu)

namespace Scenario

/-- Two tabs, and nobody is signed in. -/
def browser : World Bool Nat Nat := ⟨fun _ => .opened, none, fun _ => none⟩

/-- One tab signs in as user 7; the other, which knew of nobody, hears of it and asks. -/
theorem joined : ∃ w, Reachable browser w ∧ (w.tabs true).app.user = some 7 ∧ w.holder ≠ none ∧
    (∀ j, (w.tabs j).login = none) ∧ ¬ (w.tabs true).Awaits := by
  have hw : Reachable browser _ :=
    ((((((((((Relation.ReflTransGen.refl.tail
      ⟨_, Next.effect true (by decide), trivial⟩).tail
      ⟨_, Next.answerProbe true (show _ = [] ++ _ :: _ from rfl) rfl, trivial⟩).tail
      ⟨_, Next.settleProbe true (show _ = [] ++ _ :: _ from rfl) rfl, trivial⟩).tail
      ⟨_, Next.loginArrives false 1 7 rfl, fun j => by cases j <;> rfl⟩).tail
      ⟨_, Next.loginAsks false rfl, trivial⟩).tail
      ⟨_, Next.loginTold false rfl rfl, trivial⟩).tail
      ⟨_, Next.loginDone false true rfl, rfl⟩).tail
      ⟨_, Next.storage true rfl, trivial⟩).tail
      ⟨_, Next.effect true (by decide), trivial⟩).tail
      ⟨_, Next.answerProbe true (show _ = [] ++ _ :: _ from rfl) rfl, trivial⟩).tail
      ⟨_, Next.settleProbe true (show _ = [] ++ _ :: _ from rfl) rfl, trivial⟩
  exact ⟨_, hw, rfl, by decide, fun j => by cases j <;> rfl, by decide⟩

theorem joined_shows_holder :
    ∃ w, Reachable browser w ∧ (w.tabs true).app.user = some 7 ∧ w.holder = some 7 := by
  obtain ⟨w, hw, huser, hne, hidle, hawaits⟩ := joined
  refine ⟨w, hw, huser, ?_⟩
  rcases tabs_show_holder hw huser with hholder | hnone | ⟨j, hbusy⟩ | hnews
  · exact hholder
  · exact absurd hnone hne
  · exact absurd (hidle j) hbusy
  · exact absurd hnews hawaits

end Scenario

end World

end SessionTabs

end DevPortal
