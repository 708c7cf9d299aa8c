import Mathlib.Data.List.Nodup
import Mathlib.Logic.Function.Basic
import Mathlib.Tactic.Common

/-!
# Machinery/Edits — reading, computing and writing back

    edit 1    read ─────────────── write
    edit 2           read ── write
    value     s ─────────────▸ s₁ ─────▸ s₂

An *edit* reads a shared value, makes a change of what it read, and writes the change over the value
that is there by then; nothing is locked in between.  Where each write is the one the edit would
make of the value it finds (`fresh`), the value is that of the edits one after the other, in the
order of their writes (`Interleaved.serial`).
-/

/-- An edit: the change it makes of what it reads, and how a change is written. -/
structure Edit (σ ω ε : Type) where
  compute : σ → Except ε ω
  write : ω → σ → Except ε σ

namespace Edit

variable {σ ω ε ι : Type}

/-- The edit with nobody else around. -/
def alone (op : Edit σ ω ε) (s : σ) : Except ε σ := do
  let change ← op.compute s
  op.write change s

/-- Edits one after the other. -/
def serial (ops : ι → Edit σ ω ε) : List ι → σ → Except ε σ
  | [], s => .ok s
  | i :: order, s => do
    let s ← (ops i).alone s
    serial ops order s

theorem serial_concat (ops : ι → Edit σ ω ε) (order : List ι) (i : ι) (s : σ) :
    serial ops (order ++ [i]) s = (do
      let s ← serial ops order s
      (ops i).alone s) := by
  induction order generalizing s with
  | nil =>
    simp only [List.nil_append, serial]
    exact bind_pure ((ops i).alone s)
  | cons j order ih =>
    simp only [List.cons_append, serial, ih]
    cases (ops j).alone s <;> rfl

/-- How far an edit is. -/
inductive Phase (σ : Type)
  | idle
  | read (s : σ)
  | done

variable [DecidableEq ι]

/-- **The values reached from `s₀` by reads and writes in any order**, with how far every edit is
and the order of the writes; a write over `s` of an edit that read `r` is under `fresh i r s`. -/
inductive Interleaved (ops : ι → Edit σ ω ε) (fresh : ι → σ → σ → Prop) (s₀ : σ) :
    σ → (ι → Phase σ) → List ι → Prop
  | start : Interleaved ops fresh s₀ s₀ (fun _ => .idle) []
  | read (i : ι) {s : σ} {phase : ι → Phase σ} {order : List ι} :
      Interleaved ops fresh s₀ s phase order → phase i = .idle →
      Interleaved ops fresh s₀ s (Function.update phase i (.read s)) order
  | write (i : ι) {r s s' : σ} {change : ω} {phase : ι → Phase σ} {order : List ι} :
      Interleaved ops fresh s₀ s phase order → phase i = .read r →
      (ops i).compute r = .ok change → (ops i).write change s = .ok s' → fresh i r s →
      Interleaved ops fresh s₀ s' (Function.update phase i .done) (order ++ [i])

variable {ops : ι → Edit σ ω ε} {fresh : ι → σ → σ → Prop} {s₀ s : σ} {phase : ι → Phase σ}
  {order : List ι}

/-- The order has the edits that are done, each once. -/
theorem Interleaved.order_done (h : Interleaved ops fresh s₀ s phase order) :
    order.Nodup ∧ ∀ i, i ∈ order ↔ phase i = .done := by
  induction h with
  | start => exact ⟨List.nodup_nil, by simp⟩
  | read i h hi ih =>
    refine ⟨ih.1, fun j => ?_⟩
    rw [ih.2 j]
    rcases eq_or_ne j i with rfl | hne
    · simp [hi]
    · rw [Function.update_of_ne hne]
  | @write i r s s' change phase order h hi hc hw hf ih =>
    have hout : i ∉ order := fun hmem => by
      rw [(ih.2 i).mp hmem] at hi
      cases hi
    refine ⟨List.nodup_append.mpr ⟨ih.1, List.nodup_singleton i, ?_⟩, fun j => ?_⟩
    · rintro j hj k hk rfl
      exact hout (List.mem_singleton.mp hk ▸ hj)
    · rw [List.mem_append, List.mem_singleton, ih.2 j]
      rcases eq_or_ne j i with rfl | hne
      · simp
      · simp [hne]

/-- **Writes that are fresh make a serial run**, in the order of the writes. -/
theorem Interleaved.serial
    (hfresh : ∀ i r s change, fresh i r s → (ops i).compute r = .ok change →
      (ops i).compute s = .ok change)
    (h : Interleaved ops fresh s₀ s phase order) : Edit.serial ops order s₀ = .ok s := by
  induction h with
  | start => rfl
  | read i h hi ih => exact ih
  | write i h hi hc hw hf ih =>
    have hnow := hfresh i _ _ _ hf hc
    simp only [serial_concat, ih, alone, bind, Except.bind, hnow, hw]

end Edit
