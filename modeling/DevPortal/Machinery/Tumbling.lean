import Mathlib.Data.List.TakeWhile
import Mathlib.Data.List.Basic

/-!
# Machinery/Tumbling — windows that open with an event

    t₁ t₂ t₃ │ t₄ t₅ │ t₆           beyond t₁ t₄,  beyond t₄ t₆
    ╰ window ╯ ╰────╯ ╰──

A history is cut into windows: the first event opens one, every event up to the first that lies
beyond its end belongs to it, and that one opens the next.  What a counter has to keep is the window
that is open at the end: one more event joins it or opens another (`current_concat`).
-/

namespace Tumbling

variable {τ : Type}

/-- A window: the event that opened it, and those that followed. -/
structure Window (τ : Type) where
  opened : τ
  later : List τ
  deriving DecidableEq

/-- The events of a window. -/
def Window.count (w : Window τ) : Nat := w.later.length + 1

/-- One more event. -/
def Window.join (w : Window τ) (t : τ) : Window τ := ⟨w.opened, w.later ++ [t]⟩

@[simp] theorem Window.join_opened (w : Window τ) (t : τ) : (w.join t).opened = w.opened := rfl

@[simp] theorem Window.join_count (w : Window τ) (t : τ) : (w.join t).count = w.count + 1 := by
  simp [Window.count, Window.join]

/-- The windows of a history; `beyond s t` says that `t` lies beyond the window that `s` opened. -/
def windows (beyond : τ → τ → Bool) : List τ → List (Window τ)
  | [] => []
  | t :: ts =>
    ⟨t, ts.takeWhile (!beyond t ·)⟩ :: windows beyond (ts.dropWhile (!beyond t ·))
termination_by ts => ts.length
decreasing_by exact Nat.lt_succ_of_le (List.length_dropWhile_le _ _)

/-- The window that is open at the end. -/
def current (beyond : τ → τ → Bool) (ts : List τ) : Option (Window τ) := (windows beyond ts).getLast?

variable (beyond : τ → τ → Bool)

@[simp] theorem current_nil : current beyond [] = none := by
  simp [current, windows]

theorem windows_ne_nil {ts : List τ} (h : ts ≠ []) : windows beyond ts ≠ [] := by
  obtain ⟨t, ts, rfl⟩ := List.exists_cons_of_ne_nil h
  rw [windows]
  exact List.cons_ne_nil _ _

/-- The first window, or what is open behind it. -/
theorem current_cons (t : τ) (ts : List τ) :
    current beyond (t :: ts) =
      if ts.dropWhile (!beyond t ·) = [] then some ⟨t, ts⟩
      else current beyond (ts.dropWhile (!beyond t ·)) := by
  rw [current, windows]
  split
  next h =>
    have htake : ts.takeWhile (!beyond t ·) = ts := by
      have := List.takeWhile_append_dropWhile (p := (!beyond t ·)) (l := ts)
      rwa [h, List.append_nil] at this
    rw [h, htake, windows]
    rfl
  next h =>
    obtain ⟨w, ws, hws⟩ := List.exists_cons_of_ne_nil (windows_ne_nil beyond h)
    rw [current, hws, List.getLast?_cons_cons]

/-- **One more event joins the window that is open, or opens another.** -/
theorem current_concat (ts : List τ) (t : τ) :
    current beyond (ts ++ [t]) = some
      (match current beyond ts with
        | some w => if beyond w.opened t then ⟨t, []⟩ else w.join t
        | none => ⟨t, []⟩) := by
  -- By induction on the history that the first window leaves behind it.
  induction h : ts.length using Nat.strongRecOn generalizing ts with
  | ind n ih =>
    rcases ts with _ | ⟨s, ts⟩
    · simp [current_cons]
    subst h
    rw [List.cons_append, current_cons, current_cons]
    by_cases hall : ts.dropWhile (!beyond s ·) = []
    · have hopen : ∀ x ∈ ts, (!beyond s x) = true := List.dropWhile_eq_nil_iff.mp hall
      rw [List.dropWhile_append_of_pos hopen, if_pos hall]
      rcases hbeyond : beyond s t with _ | _
      · simp [hbeyond, Window.join]
      · simp [hbeyond, current_cons]
    · have hdrop : (ts ++ [t]).dropWhile (!beyond s ·) = ts.dropWhile (!beyond s ·) ++ [t] := by
        rw [List.dropWhile_append, if_neg (by simpa using hall)]
      rw [hdrop, if_neg (by simp), if_neg hall]
      exact ih _ (Nat.lt_succ_of_le (List.length_dropWhile_le _ _)) _ rfl

/-- Events none of which lies beyond the first are one window. -/
theorem current_of_forall {s : τ} {ts : List τ} (h : ∀ t ∈ ts, beyond s t = false) :
    current beyond (s :: ts) = some ⟨s, ts⟩ := by
  rw [current_cons, if_pos]
  exact List.dropWhile_eq_nil_iff.mpr fun t ht => by simp [h t ht]

end Tumbling
