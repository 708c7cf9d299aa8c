import Mathlib.Data.List.Basic
import Mathlib.Logic.Relation

/-!
# Frontend/AsyncData — a page shows the answer to what it has asked last

    effect, reload ▸ a call with the next number ─ answered ─ settled ▸ shown, if its number is the last
    cleanup        ▸ a number that no call has

Answers come in any order, and the server changes in between.  Numbers only grow, so what is shown is what
the last call has got, and a value was read from the server after that call was made.  As long as the last
call has not come in, the value stays that was shown when it was made.

A `reload` belongs to the render it was made in.  One that is kept across a change of the dependencies asks
for the old ones, and then these are what is shown.
-/

namespace DevPortal

namespace UseAsyncData

variable {G S E T : Type}

/-! ## The hook -/

/-- `AsyncState`. -/
structure AsyncState (E T : Type) where
  loading : Bool
  error : Option E
  value : Option T

/-- What a call that is over leaves. -/
def AsyncState.settled : Except E T → AsyncState E T
  | .ok value => ⟨false, none, some value⟩
  | .error error => ⟨false, some error, none⟩

/-- The state and the two references. -/
structure Hook (E T : Type) where
  state : AsyncState E T
  mountedRef : Bool
  requestIdRef : Nat

namespace Hook

/-- The first render. -/
def initial : Hook E T := ⟨⟨true, none, none⟩, false, 0⟩

/-- `reload` up to the call of the loader. -/
def reload (h : Hook E T) : Hook E T where
  state := if h.mountedRef then { h.state with loading := true, error := none } else h.state
  mountedRef := h.mountedRef
  requestIdRef := h.requestIdRef + 1

/-- `reload` once the loader is through: with `value`, or with the `error` it threw. -/
def settle (h : Hook E T) (requestId : Nat) (outcome : Except E T) : Hook E T :=
  if h.mountedRef = true ∧ h.requestIdRef = requestId then { h with state := .settled outcome } else h

/-- The effect: it is mounted, and it reloads. -/
def effect (h : Hook E T) : Hook E T := reload { h with mountedRef := true }

/-- What the effect leaves to be done when it goes. -/
def cleanup (h : Hook E T) : Hook E T :=
  { h with mountedRef := false, requestIdRef := h.requestIdRef + 1 }

@[simp] theorem reload_mountedRef (h : Hook E T) : h.reload.mountedRef = h.mountedRef := rfl

@[simp] theorem reload_requestIdRef (h : Hook E T) : h.reload.requestIdRef = h.requestIdRef + 1 := rfl

theorem reload_state {h : Hook E T} (hm : h.mountedRef = true) :
    h.reload.state = ⟨true, none, h.state.value⟩ := by
  simp [reload, hm]

@[simp] theorem settle_mountedRef (h : Hook E T) (n : Nat) (o : Except E T) :
    (h.settle n o).mountedRef = h.mountedRef := by
  rw [settle]
  split <;> rfl

@[simp] theorem settle_requestIdRef (h : Hook E T) (n : Nat) (o : Except E T) :
    (h.settle n o).requestIdRef = h.requestIdRef := by
  rw [settle]
  split <;> rfl

theorem settle_last {h : Hook E T} (hm : h.mountedRef = true) (o : Except E T) :
    (h.settle h.requestIdRef o).state = .settled o := by
  rw [settle, if_pos ⟨hm, rfl⟩]

theorem settle_older {h : Hook E T} {n : Nat} (hn : h.requestIdRef ≠ n) (o : Except E T) :
    h.settle n o = h := by
  rw [settle, if_neg fun hboth => hn hboth.2]

end Hook

/-! ## The hook and the server -/

/-- A call of the loader: which it is, and the number that the hook has given it. -/
structure Call (G E T : Type) where
  serial : Nat
  requestId : Nat
  deps : G
  outcome : Option (Except E T)

/-- A component with the hook, and the server its loader asks.  No part of the program reads the last five:
they keep of the call that was made last which it is, its dependencies, what the server has held since,
what it has got, and the value that was shown when it was made. -/
structure World (G S E T : Type) where
  hook : Hook E T
  deps : Option G
  calls : List (Call G E T)
  server : S
  serial : Nat
  asked : Option G
  since : List S
  got : Option (Except E T)
  before : Option T

/-- What can happen.  A `reload` carries the dependencies of the render it was made in. -/
inductive Event (G S E : Type) where
  | effect (deps : G)
  | cleanup
  | reload (deps : G)
  | change (server : S)
  | answer (call : Nat)
  | fail (call : Nat) (error : E)
  | settle (call : Nat)

namespace World

def initial (server : S) : World G S E T := ⟨.initial, none, [], server, 0, none, [], none, none⟩

/-- The loader is called, with the number the hook has taken. -/
def ask (w : World G S E T) (hook : Hook E T) (g : G) : World G S E T :=
  { w with
    hook := hook
    calls := ⟨w.serial + 1, hook.requestIdRef, g, none⟩ :: w.calls
    serial := w.serial + 1
    asked := some g
    since := [w.server]
    got := none
    before := w.hook.state.value }

/-- A call has got its outcome. -/
def finish (w : World G S E T) (i : Nat) (c : Call G E T) (o : Except E T) : World G S E T :=
  { w with
    calls := w.calls.set i { c with outcome := some o }
    got := if c.serial = w.serial then some o else w.got }

/-- One event; `read` is what the server answers to the loader. -/
def step (read : G → S → Except E T) (w : World G S E T) : Event G S E → Option (World G S E T)
  | .effect g =>
    if w.hook.mountedRef then none
    else some (ask { w with deps := some g } w.hook.effect g)
  | .cleanup =>
    if w.hook.mountedRef then some { w with hook := w.hook.cleanup, deps := none } else none
  | .reload g => some (w.ask w.hook.reload g)
  | .change s => some { w with server := s, since := s :: w.since }
  | .answer i =>
    match w.calls[i]? with
    | some c => if c.outcome.isNone then some (w.finish i c (read c.deps w.server)) else none
    | none => none
  | .fail i e =>
    match w.calls[i]? with
    | some c => if c.outcome.isNone then some (w.finish i c (.error e)) else none
    | none => none
  | .settle i =>
    match w.calls[i]? with
    | some ⟨_, n, _, some o⟩ => some { w with hook := w.hook.settle n o, calls := w.calls.eraseIdx i }
    | _ => none

/-- What an event does, where it can happen. -/
inductive Next (read : G → S → Except E T) (w : World G S E T) :
    Event G S E → World G S E T → Prop
  | effect (g : G) (hm : w.hook.mountedRef = false) :
    Next read w (.effect g) (ask { w with deps := some g } w.hook.effect g)
  | cleanup (hm : w.hook.mountedRef = true) :
    Next read w .cleanup { w with hook := w.hook.cleanup, deps := none }
  | reload (g : G) : Next read w (.reload g) (w.ask w.hook.reload g)
  | change (s : S) : Next read w (.change s) { w with server := s, since := s :: w.since }
  | answer (i : Nat) (c : Call G E T) (hc : w.calls[i]? = some c) :
    Next read w (.answer i) (w.finish i c (read c.deps w.server))
  | fail (i : Nat) (c : Call G E T) (e : E) (hc : w.calls[i]? = some c) :
    Next read w (.fail i e) (w.finish i c (.error e))
  | settle (i : Nat) (c : Call G E T) (o : Except E T) (hc : w.calls[i]? = some c)
    (ho : c.outcome = some o) :
    Next read w (.settle i) { w with hook := w.hook.settle c.requestId o, calls := w.calls.eraseIdx i }

theorem step_next {read : G → S → Except E T} {w w' : World G S E T} {e : Event G S E}
    (h : w.step read e = some w') : Next read w e w' := by
  cases e with
  | effect g =>
    rw [step] at h
    split at h
    case isTrue => cases h
    case isFalse hm => exact Option.some.inj h ▸ .effect g (Bool.eq_false_iff.mpr hm)
  | cleanup =>
    rw [step] at h
    split at h
    case isTrue hm => exact Option.some.inj h ▸ .cleanup hm
    case isFalse => cases h
  | reload g => exact Option.some.inj h ▸ .reload g
  | change s => exact Option.some.inj h ▸ .change s
  | answer i =>
    rw [step] at h
    split at h
    case h_1 c hc =>
      split at h
      case isTrue => exact Option.some.inj h ▸ .answer i c hc
      case isFalse => cases h
    case h_2 => cases h
  | fail i e =>
    rw [step] at h
    split at h
    case h_1 c hc =>
      split at h
      case isTrue => exact Option.some.inj h ▸ .fail i c e hc
      case isFalse => cases h
    case h_2 => cases h
  | settle i =>
    rw [step] at h
    split at h
    case h_1 k n g o hc => exact Option.some.inj h ▸ .settle i ⟨k, n, g, some o⟩ o hc rfl
    case h_2 => cases h

/-- A run, event after event. -/
def run (read : G → S → Except E T) : World G S E T → List (Event G S E) → Option (World G S E T)
  | w, [] => some w
  | w, e :: es => (w.step read e).bind fun w' => run read w' es

/-- What every step keeps, a run keeps. -/
theorem run_keeps {read : G → S → Except E T} {p : World G S E T → Prop}
    (hstep : ∀ w e w', p w → Next read w e w' → p w') {es : List (Event G S E)}
    {w w' : World G S E T} (h : w.run read es = some w') (hw : p w) : p w' := by
  induction es generalizing w with
  | nil => exact Option.some.inj h ▸ hw
  | cons e es ih =>
    obtain ⟨v, hv, hrest⟩ := Option.bind_eq_some_iff.mp h
    exact ih hrest (hstep w e v hw (step_next hv))

/-! ## What is shown -/

/-- Of the call that was made last, with the dependencies `g`: it is the one that has the hook's number, a
value it got was read from the server since, and what is shown is that it is on its way, with the value that
was there when it was made, or what it got. -/
structure Latest (read : G → S → Except E T) (w : World G S E T) (g : G) : Prop where
  asked : w.asked = some g
  current : w.server ∈ w.since
  number : ∀ c ∈ w.calls, c.requestId = w.hook.requestIdRef ↔ c.serial = w.serial
  calls : ∀ c ∈ w.calls, c.serial = w.serial → c.deps = g ∧ c.outcome = w.got
  got : ∀ v, w.got = some (.ok v) → ∃ s ∈ w.since, read g s = .ok v
  shown : (w.hook.state = ⟨true, none, w.before⟩ ∧ w.serial ∈ w.calls.map Call.serial) ∨
    ∃ o, w.got = some o ∧ w.hook.state = .settled o ∧ w.serial ∉ w.calls.map Call.serial

/-- The numbers of the calls do not run ahead, no two calls are one, and a mounted component shows its last
call. -/
structure Fresh (read : G → S → Except E T) (w : World G S E T) : Prop where
  numbers : ∀ c ∈ w.calls, c.requestId ≤ w.hook.requestIdRef
  serials : ∀ c ∈ w.calls, c.serial ≤ w.serial
  distinct : (w.calls.map Call.serial).Nodup
  latest : w.hook.mountedRef = true → ∃ g, Latest read w g

section Steps

variable {read : G → S → Except E T} {w : World G S E T}

theorem fresh_initial (server : S) : Fresh read (initial server) where
  numbers := fun _ hc => (List.not_mem_nil hc).elim
  serials := fun _ hc => (List.not_mem_nil hc).elim
  distinct := List.nodup_nil
  latest := fun hm => Bool.noConfusion hm

/-- A call with a number that none has yet. -/
theorem Fresh.ask {hook : Hook E T} (h : Fresh read w)
    (hnumber : hook.requestIdRef = w.hook.requestIdRef + 1)
    (hstate : hook.mountedRef = true → hook.state = ⟨true, none, w.hook.state.value⟩) (g : G) :
    Fresh read (w.ask hook g) := by
  have hnew : ∀ c ∈ w.calls, c.requestId ≠ hook.requestIdRef ∧ c.serial ≠ w.serial + 1 :=
    fun c hc => ⟨hnumber ▸ Nat.ne_of_lt (Nat.lt_succ_of_le (h.numbers c hc)),
      Nat.ne_of_lt (Nat.lt_succ_of_le (h.serials c hc))⟩
  refine ⟨fun c hc => ?_, fun c hc => ?_, List.nodup_cons.mpr ⟨fun hmem => ?_, h.distinct⟩, fun hm => ⟨g, {
    asked := rfl
    current := List.mem_singleton.mpr rfl
    number := ?_
    calls := ?_
    got := fun v hv => by cases hv
    shown := Or.inl ⟨hstate hm, List.mem_cons_self ..⟩ }⟩⟩
  · rcases List.mem_cons.mp hc with rfl | hc
    · exact Nat.le_refl _
    · show c.requestId ≤ hook.requestIdRef
      rw [hnumber]
      exact Nat.le_succ_of_le (h.numbers c hc)
  · rcases List.mem_cons.mp hc with rfl | hc
    · exact Nat.le_refl _
    · exact Nat.le_succ_of_le (h.serials c hc)
  · obtain ⟨c, hc, hserial⟩ := List.mem_map.mp hmem
    exact (hnew c hc).2 hserial
  · intro c hc
    rcases List.mem_cons.mp hc with rfl | hc
    · exact iff_of_true rfl rfl
    · exact iff_of_false (hnew c hc).1 (hnew c hc).2
  · intro c hc hlast
    rcases List.mem_cons.mp hc with rfl | hc
    · exact ⟨rfl, rfl⟩
    · exact absurd hlast (hnew c hc).2

theorem Fresh.reload (h : Fresh read w) (g : G) : Fresh read (w.ask w.hook.reload g) :=
  h.ask rfl (fun hm => Hook.reload_state hm) g

theorem Fresh.effect (h : Fresh read w) (g : G) :
    Fresh read (World.ask { w with deps := some g } w.hook.effect g) := by
  have hdeps : Fresh read { w with deps := some g } :=
    ⟨h.numbers, h.serials, h.distinct, fun hm => (h.latest hm).imp fun _ hg =>
      ⟨hg.asked, hg.current, hg.number, hg.calls, hg.got, hg.shown⟩⟩
  exact hdeps.ask rfl (fun _ => rfl) g

theorem Fresh.cleanup (h : Fresh read w) :
    Fresh read { w with hook := w.hook.cleanup, deps := none } where
  numbers := fun c hc => Nat.le_succ_of_le (h.numbers c hc)
  serials := h.serials
  distinct := h.distinct
  latest := fun hm => Bool.noConfusion hm

theorem Latest.change {g : G} (h : Latest read w g) (s : S) :
    Latest read { w with server := s, since := s :: w.since } g where
  asked := h.asked
  current := List.mem_cons_self ..
  number := h.number
  calls := h.calls
  got := fun v hv => (h.got v hv).imp fun _ hs => ⟨List.mem_cons_of_mem _ hs.1, hs.2⟩
  shown := h.shown

theorem Fresh.change (h : Fresh read w) (s : S) :
    Fresh read { w with server := s, since := s :: w.since } :=
  ⟨h.numbers, h.serials, h.distinct, fun hm => (h.latest hm).imp fun _ hg => hg.change s⟩

/-- Which calls there are does not change when one gets its outcome. -/
theorem finish_serials {i : Nat} {c : Call G E T} (hc : w.calls[i]? = some c) (o : Except E T) :
    (w.finish i c o).calls.map Call.serial = w.calls.map Call.serial := by
  have hi : (w.calls.map Call.serial)[i]? = some c.serial := by
    rw [List.getElem?_map, hc, Option.map_some]
  obtain ⟨hlt, heq⟩ := List.getElem?_eq_some_iff.mp hi
  rw [finish, List.map_set]
  exact heq ▸ List.set_getElem_self hlt

/-- A call that is the last one is no other. -/
theorem Fresh.eq_of_serial (h : Fresh read w) {i j : Nat} {c c' : Call G E T}
    (hc : w.calls[i]? = some c) (hc' : w.calls[j]? = some c') (hserial : c.serial = c'.serial) :
    i = j := by
  have hi : (w.calls.map Call.serial)[i]? = some c.serial := by
    rw [List.getElem?_map, hc, Option.map_some]
  have hj : (w.calls.map Call.serial)[j]? = some c'.serial := by
    rw [List.getElem?_map, hc', Option.map_some]
  obtain ⟨hlt, -⟩ := List.getElem?_eq_some_iff.mp hi
  exact (List.getElem?_inj hlt h.distinct).mp (by rw [hi, hj, hserial])

theorem Latest.finish {g : G} {i : Nat} {c : Call G E T} {o : Except E T} (h : Latest read w g)
    (hfresh : Fresh read w) (hc : w.calls[i]? = some c)
    (ho : c.deps = g → ∀ v, o = .ok v → ∃ s ∈ w.since, read g s = .ok v) :
    Latest read (w.finish i c o) g where
  asked := h.asked
  current := h.current
  number := by
    intro c' hc'
    rcases List.mem_or_eq_of_mem_set hc' with hold | rfl
    · exact h.number c' hold
    · exact h.number c (List.mem_of_getElem? hc)
  calls := by
    intro c' hc' hlast
    obtain ⟨j, hj⟩ := List.mem_iff_getElem?.mp hc'
    rcases eq_or_ne i j with rfl | hne
    · have hnew : (w.finish i c o).calls[i]? = some { c with outcome := some o } :=
        List.getElem?_set_self (List.getElem?_eq_some_iff.mp hc).1
      obtain rfl := Option.some.inj (hnew.symm.trans hj)
      exact ⟨(h.calls c (List.mem_of_getElem? hc) hlast).1, (if_pos hlast).symm⟩
    · have hold : w.calls[j]? = some c' := (List.getElem?_set_ne hne).symm.trans hj
      have hother : c.serial ≠ w.serial := fun heq =>
        hne (hfresh.eq_of_serial hc hold (heq.trans hlast.symm))
      obtain ⟨hdeps, houtcome⟩ := h.calls c' (List.mem_of_getElem? hold) hlast
      exact ⟨hdeps, houtcome.trans (if_neg hother).symm⟩
  got := by
    intro v hv
    by_cases hlast : c.serial = w.serial
    · have hdeps := (h.calls c (List.mem_of_getElem? hc) hlast).1
      exact ho hdeps v (Option.some.inj ((if_pos hlast).symm.trans hv))
    · exact h.got v ((if_neg hlast).symm.trans hv)
  shown := by
    rw [finish_serials hc]
    refine h.shown.imp id fun ⟨o', hgot, hstate, hgone⟩ => ⟨o', ?_, hstate, hgone⟩
    have hother : c.serial ≠ w.serial := fun heq =>
      hgone (heq ▸ List.mem_map_of_mem (List.mem_of_getElem? hc))
    exact (if_neg hother).trans hgot

theorem Fresh.finish {i : Nat} {c : Call G E T} {o : Except E T} (h : Fresh read w)
    (hc : w.calls[i]? = some c)
    (ho : ∀ g, Latest read w g → c.deps = g → ∀ v, o = .ok v → ∃ s ∈ w.since, read g s = .ok v) :
    Fresh read (w.finish i c o) where
  numbers := by
    intro c' hc'
    rcases List.mem_or_eq_of_mem_set hc' with hold | rfl
    · exact h.numbers c' hold
    · exact h.numbers c (List.mem_of_getElem? hc)
  serials := by
    intro c' hc'
    rcases List.mem_or_eq_of_mem_set hc' with hold | rfl
    · exact h.serials c' hold
    · exact h.serials c (List.mem_of_getElem? hc)
  distinct := by
    rw [finish_serials hc]
    exact h.distinct
  latest := fun hm => (h.latest hm).imp fun g hg => hg.finish h hc (ho g hg)

/-- The last call is over. -/
theorem Latest.settle_last {g : G} {i : Nat} {c : Call G E T} {o : Except E T} (h : Latest read w g)
    (hfresh : Fresh read w) (hm : w.hook.mountedRef = true) (hc : w.calls[i]? = some c)
    (ho : c.outcome = some o) (hlast : c.requestId = w.hook.requestIdRef) :
    Latest read { w with hook := w.hook.settle c.requestId o, calls := w.calls.eraseIdx i } g where
  asked := h.asked
  current := h.current
  number := fun c' hc' => by
    rw [Hook.settle_requestIdRef]
    exact h.number c' (List.mem_of_mem_eraseIdx hc')
  calls := fun c' hc' => h.calls c' (List.mem_of_mem_eraseIdx hc')
  got := h.got
  shown := by
    have hserial := (h.number c (List.mem_of_getElem? hc)).mp hlast
    refine Or.inr ⟨o, ?_, hlast ▸ Hook.settle_last hm o, fun hmem => ?_⟩
    · exact (h.calls c (List.mem_of_getElem? hc) hserial).2.symm.trans ho
    · obtain ⟨c', hc', heq⟩ := List.mem_map.mp hmem
      obtain ⟨j, hne, hj⟩ := List.mem_eraseIdx_iff_getElem?.mp hc'
      exact hne (hfresh.eq_of_serial hj hc (heq.trans hserial.symm))

/-- A call is over that was not the last. -/
theorem Latest.settle_older {g : G} {i : Nat} {c : Call G E T} {o : Except E T} (h : Latest read w g)
    (hc : w.calls[i]? = some c) (holder : c.requestId ≠ w.hook.requestIdRef) :
    Latest read { w with hook := w.hook.settle c.requestId o, calls := w.calls.eraseIdx i } g := by
  rw [Hook.settle_older (Ne.symm holder)]
  have hkept : ∀ {c'}, c' ∈ w.calls.eraseIdx i → c' ∈ w.calls := List.mem_of_mem_eraseIdx
  refine ⟨h.asked, h.current, fun c' hc' => h.number c' (hkept hc'),
    fun c' hc' => h.calls c' (hkept hc'), h.got, h.shown.imp (fun ⟨hstate, hpending⟩ => ⟨hstate, ?_⟩)
      fun ⟨o', hgot, hstate, hgone⟩ => ⟨o', hgot, hstate, fun hmem => hgone ?_⟩⟩
  · obtain ⟨c', hc', hserial⟩ := List.mem_map.mp hpending
    obtain ⟨j, hj⟩ := List.mem_iff_getElem?.mp hc'
    have hij : j ≠ i := by
      rintro rfl
      obtain rfl := Option.some.inj (hj.symm.trans hc)
      exact holder ((h.number c' hc').mpr hserial)
    exact List.mem_map.mpr ⟨c', List.mem_eraseIdx_iff_getElem?.mpr ⟨j, hij, hj⟩, hserial⟩
  · obtain ⟨c', hc', heq⟩ := List.mem_map.mp hmem
    exact List.mem_map.mpr ⟨c', hkept hc', heq⟩

theorem Fresh.settle {i : Nat} {c : Call G E T} {o : Except E T} (h : Fresh read w)
    (hc : w.calls[i]? = some c) (ho : c.outcome = some o) :
    Fresh read { w with hook := w.hook.settle c.requestId o, calls := w.calls.eraseIdx i } where
  numbers := fun c' hc' => by
    rw [Hook.settle_requestIdRef]
    exact h.numbers c' (List.mem_of_mem_eraseIdx hc')
  serials := fun c' hc' => h.serials c' (List.mem_of_mem_eraseIdx hc')
  distinct := h.distinct.sublist ((List.eraseIdx_sublist ..).map Call.serial)
  latest := fun hm => by
    rw [Hook.settle_mountedRef] at hm
    obtain ⟨g, hg⟩ := h.latest hm
    rcases eq_or_ne c.requestId w.hook.requestIdRef with hlast | holder
    · exact ⟨g, hg.settle_last h hm hc ho hlast⟩
    · exact ⟨g, hg.settle_older hc holder⟩

theorem Fresh.next {w' : World G S E T} {e : Event G S E} (h : Fresh read w) (hnext : Next read w e w') :
    Fresh read w' := by
  cases hnext with
  | effect g hm => exact h.effect g
  | cleanup hm => exact h.cleanup
  | reload g => exact h.reload g
  | change s => exact h.change s
  | answer i c hc =>
    exact h.finish hc fun g hg hdeps v hv => ⟨w.server, hg.current, hdeps ▸ hv⟩
  | fail i c e hc => exact h.finish hc fun _ _ _ v hv => by cases hv
  | settle i c o hc ho => exact h.settle hc ho

end Steps

/-- **What is shown, of the last call and its dependencies `g`**: that it is on its way, with the value that
was there when it was made; or just what it has got, and a value is one that the server has answered with for
`g` since it was made. -/
def Shows (read : G → S → Except E T) (w : World G S E T) (g : G) : Prop :=
  (w.hook.state = ⟨true, none, w.before⟩ ∧ ∃ c ∈ w.calls, c.serial = w.serial ∧ c.deps = g) ∨
    ∃ o, w.got = some o ∧ w.hook.state = .settled o ∧
      ∀ v, o = .ok v → ∃ s ∈ w.since, read g s = .ok v

theorem Latest.shows {read : G → S → Except E T} {w : World G S E T} {g : G} (h : Latest read w g) :
    w.Shows read g := by
  refine h.shown.imp (fun ⟨hstate, hpending⟩ => ⟨hstate, ?_⟩) fun ⟨o, hgot, hstate, _⟩ =>
    ⟨o, hgot, hstate, fun v hv => h.got v (hv ▸ hgot)⟩
  obtain ⟨c, hc, hserial⟩ := List.mem_map.mp hpending
  exact ⟨c, hc, hserial, (h.calls c hc hserial).1⟩

/-- **What is shown is the answer to what was asked last.**  However the calls overtake one another and
whatever the server does meanwhile, a mounted component shows that its last call is on its way, beside the
value it showed when it made it, or what that call has got; and a value it got is one the server has held
since the call was made. -/
theorem shows_latest {read : G → S → Except E T} {server : S} {events : List (Event G S E)}
    {w : World G S E T} (h : (World.initial server).run read events = some w)
    (hm : w.hook.mountedRef = true) : ∃ g, w.asked = some g ∧ w.Shows read g := by
  have hfresh : Fresh read w := run_keeps (fun _ _ _ hw hnext => hw.next hnext) h (fresh_initial server)
  obtain ⟨g, hg⟩ := hfresh.latest hm
  exact ⟨g, hg.asked, hg.shows⟩

/-! ## A call that is overtaken -/

namespace Scenario

/-- The server holds a number, and answers with it and what it is asked. -/
def read (g s : Nat) : Except String (Nat × Nat) := .ok (g, s)

/-- The dependencies change, and the second call is answered before the first. -/
def overtaken : List (Event Nat Nat String) :=
  [.effect 1, .cleanup, .change 20, .effect 2, .answer 0, .settle 0, .answer 0, .settle 0]

theorem overtaken_shows_latest : ∃ w, (World.initial 10).run read overtaken = some w ∧
    w.hook.state.value = some (2, 20) ∧ ∃ g, w.asked = some g ∧ w.Shows read g :=
  ⟨_, rfl, rfl, @shows_latest _ _ _ _ read 10 overtaken _ rfl rfl⟩

end Scenario

end World

/-! ## The members of a maintainer -/

/-- `CatalogView` with its second hook, whose dependency is the maintainer that is selected.  Of each
`saveMember` and `removeMember` that has not come to its `reload`, the maintainer selected in the render it
was begun in. -/
structure Page (G S E T : Type) where
  world : World G S E T
  inProgress : List G

inductive PageEvent (G S E : Type) where
  | select (maintainer : G)
  | refresh
  | begin
  | finish (n : Nat)
  | abandon (n : Nat)
  | change (server : S)
  | answer (call : Nat)
  | fail (call : Nat) (error : E)
  | settle (call : Nat)

namespace Page

/-- The page is opened with a maintainer selected. -/
def opened (server : S) (maintainer : G) : Page G S E T where
  world := { World.initial server with deps := some maintainer }.ask Hook.initial.effect maintainer
  inProgress := []

/-- What an event is to the hook, and what it leaves in progress. -/
def step (read : G → S → Except E T) (p : Page G S E T) : PageEvent G S E → Option (Page G S E T)
  | .select g => (p.world.run read [.cleanup, .effect g]).map fun w => { p with world := w }
  | .refresh => do
    let g ← p.world.deps
    let w ← p.world.step read (.reload g)
    return { p with world := w }
  | .begin => do
    let g ← p.world.deps
    return { p with inProgress := g :: p.inProgress }
  | .finish n => do
    let g ← p.inProgress[n]?
    let w ← p.world.step read (.reload g)
    return ⟨w, p.inProgress.eraseIdx n⟩
  | .abandon n => some { p with inProgress := p.inProgress.eraseIdx n }
  | .change s => (p.world.step read (.change s)).map fun w => { p with world := w }
  | .answer i => (p.world.step read (.answer i)).map fun w => { p with world := w }
  | .fail i e => (p.world.step read (.fail i e)).map fun w => { p with world := w }
  | .settle i => (p.world.step read (.settle i)).map fun w => { p with world := w }

/-- An event of the page in which the selection stays while something is in progress. -/
def CalmStep (read : G → S → Except E T) (p p' : Page G S E T) : Prop :=
  ∃ e, p.step read e = some p' ∧ ∀ g, e = .select g → p.inProgress = []

/-- The maintainer that is selected is the one asked for, and the one everything in progress is about. -/
structure Selected (read : G → S → Except E T) (p : Page G S E T) (g : G) : Prop where
  fresh : World.Fresh read p.world
  mounted : p.world.hook.mountedRef = true
  deps : p.world.deps = some g
  asked : p.world.asked = some g
  inProgress : ∀ f ∈ p.inProgress, f = g

section Steps

variable {read : G → S → Except E T} {p : Page G S E T} {g : G}

theorem selected_opened (server : S) (g : G) :
    Selected read (opened server g : Page G S E T) g where
  fresh := World.Fresh.effect (World.fresh_initial server) g
  mounted := rfl
  deps := rfl
  asked := rfl
  inProgress := fun _ hf => (List.not_mem_nil hf).elim

theorem Selected.reload (h : Selected read p g) {w : World G S E T}
    (hw : p.world.step read (.reload g) = some w) : Selected read ⟨w, p.inProgress⟩ g := by
  obtain rfl := Option.some.inj hw
  exact ⟨h.fresh.reload g, h.mounted, h.deps, rfl, h.inProgress⟩

/-- What the server does, and what it has answered, does not change what is asked. -/
theorem Selected.server (h : Selected read p g) {w : World G S E T} {e : Event G S E}
    (hw : World.Next read p.world e w) (he : ∀ f, e ≠ .effect f ∧ e ≠ .reload f) (hc : e ≠ .cleanup) :
    Selected read ⟨w, p.inProgress⟩ g := by
  have hfresh := h.fresh.next hw
  cases hw with
  | effect f => exact absurd rfl (he f).1
  | cleanup => exact absurd rfl hc
  | reload f => exact absurd rfl (he f).2
  | change s => exact ⟨hfresh, h.mounted, h.deps, h.asked, h.inProgress⟩
  | answer i c => exact ⟨hfresh, h.mounted, h.deps, h.asked, h.inProgress⟩
  | fail i c e => exact ⟨hfresh, h.mounted, h.deps, h.asked, h.inProgress⟩
  | settle i c o =>
    refine ⟨hfresh, ?_, h.deps, h.asked, h.inProgress⟩
    exact (Hook.settle_mountedRef ..).trans h.mounted

theorem Selected.select (h : Selected read p g) (hnone : p.inProgress = []) {f : G}
    {w : World G S E T} (hw : p.world.run read [.cleanup, .effect f] = some w) :
    Selected read ⟨w, p.inProgress⟩ f := by
  obtain ⟨v, hv, hrest⟩ := Option.bind_eq_some_iff.mp hw
  obtain ⟨w', hw', hlast⟩ := Option.bind_eq_some_iff.mp hrest
  obtain rfl := Option.some.inj hlast
  have hfresh := (h.fresh.next (World.step_next hv)).next (World.step_next hw')
  cases World.step_next hw' with
  | effect _ hm =>
    exact ⟨hfresh, rfl, rfl, rfl, fun x hx => absurd hx (hnone ▸ List.not_mem_nil)⟩

theorem Selected.next {p' : Page G S E T} (h : Selected read p g) (hstep : CalmStep read p p') :
    ∃ g', Selected read p' g' := by
  obtain ⟨e, he, hcalm⟩ := hstep
  cases e with
  | select f =>
    obtain ⟨w, hw, rfl⟩ := Option.map_eq_some_iff.mp he
    exact ⟨f, h.select (hcalm f rfl) hw⟩
  | refresh =>
    simp only [step, h.deps, Option.bind_eq_bind, Option.bind_some] at he
    obtain ⟨w, hw, hp⟩ := Option.bind_eq_some_iff.mp he
    obtain rfl := Option.some.inj hp
    exact ⟨g, h.reload hw⟩
  | begin =>
    simp only [step, h.deps, Option.bind_eq_bind, Option.bind_some] at he
    obtain rfl := Option.some.inj he
    refine ⟨g, h.fresh, h.mounted, h.deps, h.asked, fun x hx => ?_⟩
    rcases List.mem_cons.mp hx with rfl | hx
    · rfl
    · exact h.inProgress x hx
  | finish n =>
    obtain ⟨f, hf, hrest⟩ := Option.bind_eq_some_iff.mp he
    obtain ⟨w, hw, hp⟩ := Option.bind_eq_some_iff.mp hrest
    obtain rfl := Option.some.inj hp
    obtain rfl := h.inProgress f (List.mem_of_getElem? hf)
    have hkept := h.reload hw
    exact ⟨f, hkept.fresh, hkept.mounted, hkept.deps, hkept.asked,
      fun x hx => h.inProgress x (List.mem_of_mem_eraseIdx hx)⟩
  | abandon n =>
    obtain rfl := Option.some.inj he
    exact ⟨g, h.fresh, h.mounted, h.deps, h.asked,
      fun x hx => h.inProgress x (List.mem_of_mem_eraseIdx hx)⟩
  | change s =>
    rw [step] at he
    obtain ⟨w, hw, rfl⟩ := Option.map_eq_some_iff.mp he
    exact ⟨g, h.server (World.step_next hw) (by simp) (by simp)⟩
  | answer i =>
    obtain ⟨w, hw, rfl⟩ := Option.map_eq_some_iff.mp he
    exact ⟨g, h.server (World.step_next hw) (by simp) (by simp)⟩
  | fail i e =>
    obtain ⟨w, hw, rfl⟩ := Option.map_eq_some_iff.mp he
    exact ⟨g, h.server (World.step_next hw) (by simp) (by simp)⟩
  | settle i =>
    obtain ⟨w, hw, rfl⟩ := Option.map_eq_some_iff.mp he
    exact ⟨g, h.server (World.step_next hw) (by simp) (by simp)⟩

end Steps

/-- **What is shown of the members is about the selected maintainer**, if the selection stays while a member
is saved or removed: what was asked last was asked for that maintainer, and its members are shown as the
server has held them since, or why they could not be had.  As long as they are on their way, what was shown
before stays, and that may be the members of the maintainer that was selected earlier. -/
theorem shows_selected {read : G → S → Except E T} {server : S} {maintainer : G} {p : Page G S E T}
    (h : Relation.ReflTransGen (CalmStep read) (opened server maintainer) p) :
    ∃ g, p.world.deps = some g ∧ p.world.Shows read g := by
  have hselected : ∃ g, Selected read p g := by
    induction h with
    | refl => exact ⟨maintainer, selected_opened server maintainer⟩
    | tail _ hstep ih =>
      obtain ⟨g, hg⟩ := ih
      exact hg.next hstep
  obtain ⟨g, hg⟩ := hselected
  obtain ⟨f, hf⟩ := hg.fresh.latest hg.mounted
  obtain rfl := Option.some.inj (hg.asked.symm.trans hf.asked)
  exact ⟨g, hg.deps, hf.shows⟩

/-! ## A member that is saved -/

namespace Scenario

open World.Scenario

/-- What is there after some events. -/
def after (events : List (PageEvent Nat Nat String)) : Option (Page Nat Nat String (Nat × Nat)) :=
  events.foldlM (fun p e => p.step read e) (opened 10 1)

/-- Another maintainer is selected, a member is saved, and the first call comes in last. -/
def saved : List (PageEvent Nat Nat String) :=
  [.select 2, .begin, .change 20, .finish 0, .answer 0, .settle 0, .answer 1, .settle 1]

theorem calm_after {events : List (PageEvent Nat Nat String)} (hcalm : ∀ e ∈ events, ∀ g, e ≠ .select g)
    {p q : Page Nat Nat String (Nat × Nat)} (h : events.foldlM (fun p e => p.step read e) p = some q) :
    Relation.ReflTransGen (CalmStep read) p q := by
  induction events generalizing p with
  | nil => exact Option.some.inj h ▸ .refl
  | cons e es ih =>
    rw [List.foldlM_cons] at h
    obtain ⟨v, hv, hrest⟩ := Option.bind_eq_some_iff.mp h
    refine Relation.ReflTransGen.head ⟨e, hv, fun g hg => ?_⟩
      (ih (fun e' he' => hcalm e' (List.mem_cons_of_mem _ he')) hrest)
    exact absurd hg (hcalm e (List.mem_cons_self ..) g)

/-- The members of the first maintainer are still there when the second is selected. -/
example : (after [.answer 0, .settle 0, .select 2]).map
    (fun p => (p.world.deps, p.world.hook.state.loading, p.world.hook.state.value))
      = some (some 2, true, some (1, 10)) := rfl

theorem saved_shows_selected : ∃ p, after saved = some p ∧ p.world.hook.state.value = some (2, 20) ∧
    ∃ g, p.world.deps = some g ∧ p.world.Shows read g := by
  refine ⟨_, rfl, rfl, @shows_selected _ _ _ _ read 10 1 _ ?_⟩
  have hcalm : ∀ e ∈ saved.tail, ∀ g, e ≠ .select g := by
    rintro e he g rfl
    simp [saved] at he
  exact Relation.ReflTransGen.head ⟨.select 2, rfl, fun _ _ => rfl⟩ (calm_after hcalm rfl)

end Scenario

end Page

end UseAsyncData

end DevPortal
