import Mathlib.Data.List.Basic
import Mathlib.Data.List.Nodup
import Mathlib.Data.List.Forall2

/-!
# Machinery/Json — values, paths, and walks that cut at keys

    { "a": { "key": x }, "b": [ { "key": y } ] }
             ╰─ stop                ╰─ stop

A *walk* visits a value from the root, descends through objects and arrays, and edits what stands
under a stopping key instead of descending there.  It carries a context that follows the path
(`down`), and it may fail.

* `Walk.run_at_stop`, `Walk.run_head` — the result is the value edited at its stops;
* `Walk.run_ok_iff` — the walk succeeds iff every edit does;
* `Agree.eq` — a value is determined by its heads off the stops and by what stands at them;
* `Walk.run_congr` — a run, failures included, depends on the open heads and on the edits only.
-/

/-- A JSON value with numbers in `ν`; an object is the list of its members. -/
inductive Json (ν : Type)
  | null
  | bool (b : Bool)
  | number (n : ν)
  | str (s : String)
  | array (items : List (Json ν))
  | object (fields : List (String × Json ν))

namespace Json

variable {ν δ ε : Type}

/-! ## Values -/

/-- The keys of every object are distinct. -/
inductive Wf : Json ν → Prop
  | null : Wf null
  | bool (b : Bool) : Wf (bool b)
  | number (n : ν) : Wf (number n)
  | str (s : String) : Wf (str s)
  | array {items : List (Json ν)} (h : ∀ v ∈ items, Wf v) : Wf (array items)
  | object {fields : List (String × Json ν)} (keys : (fields.map Prod.fst).Nodup)
      (h : ∀ kv ∈ fields, Wf kv.2) : Wf (object fields)

/-- One step of a path. -/
inductive Step
  | key (k : String)
  | index (i : Nat)
  deriving DecidableEq

/-- The child at a step: a member of an object, an item of an array. -/
def child : Step → Json ν → Option (Json ν)
  | .key k, object fields => fields.lookup k
  | .index i, array items => items[i]?
  | _, _ => none

/-- The value at a path. -/
def at? : Json ν → List Step → Option (Json ν)
  | v, [] => some v
  | v, s :: p => (v.child s).bind (·.at? p)

@[simp] theorem at?_nil (v : Json ν) : v.at? [] = some v := rfl

@[simp] theorem at?_cons (v : Json ν) (s : Step) (p : List Step) :
    v.at? (s :: p) = (v.child s).bind (·.at? p) := rfl

@[simp] theorem at?_singleton (v : Json ν) (s : Step) : v.at? [s] = v.child s := by
  rw [at?_cons]
  cases v.child s <;> rfl

theorem at?_append (v : Json ν) (p t : List Step) :
    v.at? (p ++ t) = (v.at? p).bind (·.at? t) := by
  induction p generalizing v with
  | nil => rfl
  | cons s p ih =>
    simp only [List.cons_append, at?_cons, Option.bind_assoc]
    exact Option.bind_congr fun x _ => ih x

/-- A member of an object. -/
def get (v : Json ν) (field : String) : Option (Json ν) := v.child (.key field)

def asArray : Json ν → Option (List (Json ν))
  | array items => some items
  | _ => none

def asStr : Json ν → Option String
  | str s => some s
  | _ => none

def isNull : Json ν → Bool
  | null => true
  | _ => false

/-- What a value is without what stands below it. -/
inductive Head (ν : Type)
  | null
  | bool (b : Bool)
  | number (n : ν)
  | str (s : String)
  | array (length : Nat)
  | object (keys : List String)

def head : Json ν → Head ν
  | null => .null
  | bool b => .bool b
  | number n => .number n
  | str s => .str s
  | array items => .array items.length
  | object fields => .object (fields.map Prod.fst)

/-- With distinct keys, looking a key up is being a member. -/
theorem lookup_eq_some {fields : List (String × Json ν)} (hf : (fields.map Prod.fst).Nodup)
    {k : String} {v : Json ν} : fields.lookup k = some v ↔ (k, v) ∈ fields := by
  induction fields with
  | nil => simp
  | cons kv fields ih =>
    obtain ⟨k', v'⟩ := kv
    obtain ⟨hk, hf⟩ := List.nodup_cons.mp hf
    rw [List.lookup_cons, List.mem_cons]
    rcases eq_or_ne k k' with rfl | hne
    · have hout : (k, v) ∉ fields := fun h => hk (List.mem_map.mpr ⟨_, h, rfl⟩)
      simp [hout, eq_comm]
    · rw [beq_false_of_ne hne]
      simp [hne, ih hf]

/-! ## Members -/

/-- The order of keys, by their characters. -/
def keyBefore (k k' : String) : Bool := List.lex k.toList k'.toList fun c c' => c.toNat < c'.toNat

/-- A member set: an object keeps its members in the order of their keys. -/
def insertField (k : String) (v : Json ν) (fields : List (String × Json ν)) :
    List (String × Json ν) :=
  let rest := fields.filter (·.1 != k)
  rest.takeWhile (keyBefore ·.1 k) ++ (k, v) :: rest.dropWhile (keyBefore ·.1 k)

/-- A member removed. -/
def removeField (k : String) (fields : List (String × Json ν)) : List (String × Json ν) :=
  fields.filter (·.1 != k)

theorem perm_insertField (k : String) (v : Json ν) (fields : List (String × Json ν)) :
    (insertField k v fields).Perm ((k, v) :: removeField k fields) := by
  unfold insertField
  refine List.perm_middle.trans (List.Perm.cons _ ?_)
  rw [List.takeWhile_append_dropWhile]
  exact .refl _

theorem removeField_keys {fields : List (String × Json ν)} (hf : (fields.map Prod.fst).Nodup)
    (k : String) : ((removeField k fields).map Prod.fst).Nodup :=
  (List.filter_sublist.map Prod.fst).nodup hf

theorem insertField_keys {fields : List (String × Json ν)} (hf : (fields.map Prod.fst).Nodup)
    (k : String) (v : Json ν) : ((insertField k v fields).map Prod.fst).Nodup := by
  rw [((perm_insertField k v fields).map Prod.fst).nodup_iff, List.map_cons, List.nodup_cons]
  refine ⟨fun h => ?_, removeField_keys hf k⟩
  obtain ⟨kv, hkv, hk⟩ := List.mem_map.mp h
  simp [removeField, hk] at hkv

theorem lookup_removeField (k k' : String) (fields : List (String × Json ν)) :
    (removeField k fields).lookup k' = if k' = k then none else fields.lookup k' := by
  unfold removeField
  induction fields with
  | nil => simp
  | cons kv fields ih =>
    obtain ⟨k'', v⟩ := kv
    rcases eq_or_ne k'' k with rfl | hne
    · rw [List.filter_cons_of_neg (by simp), ih, List.lookup_cons]
      split
      · rfl
      · next h => rw [beq_false_of_ne h]
    · rw [List.filter_cons_of_pos (by simpa using hne), List.lookup_cons, ih, List.lookup_cons]
      rcases eq_or_ne k' k'' with rfl | hk
      · simp [hne]
      · rw [beq_false_of_ne hk]

theorem lookup_insertField (k k' : String) (v : Json ν) (fields : List (String × Json ν)) :
    (insertField k v fields).lookup k' = if k' = k then some v else fields.lookup k' := by
  have hsplit := lookup_removeField k k' fields
  unfold removeField at hsplit
  unfold insertField
  rw [← List.takeWhile_append_dropWhile (p := fun kv => keyBefore kv.1 k)
    (l := fields.filter (·.1 != k)), List.lookup_append] at hsplit
  rw [List.lookup_append, List.lookup_cons]
  rcases eq_or_ne k' k with rfl | hne
  · rw [if_pos rfl, Option.or_eq_none_iff] at hsplit
    simp [hsplit.1]
  · rw [beq_false_of_ne hne, if_neg hne]
    rwa [if_neg hne] at hsplit

/-! ## Walks -/

/-- A walk: where it stops, how its context follows a step, and what it does at a stop. -/
structure Walk (ν δ ε : Type) where
  stops : String → Bool
  down : Step → δ → δ
  edit : String → δ → Json ν → Except ε (Json ν)

namespace Walk

variable (w : Walk ν δ ε)

mutual

/-- The walk from a value. -/
def run (d : δ) : Json ν → Except ε (Json ν)
  | object fields => do return object (← runFields d fields)
  | array items => do return array (← runItems d 0 items)
  | v => .ok v

def runFields (d : δ) : List (String × Json ν) → Except ε (List (String × Json ν))
  | [] => .ok []
  | (k, v) :: rest => do
    let v ← if w.stops k then w.edit k (w.down (.key k) d) v else run (w.down (.key k) d) v
    return (k, v) :: (← runFields d rest)

def runItems (d : δ) (i : Nat) : List (Json ν) → Except ε (List (Json ν))
  | [] => .ok []
  | v :: rest => do
    let v ← run (w.down (.index i) d) v
    return v :: (← runItems d (i + 1) rest)

end

/-- What the walk does to the child at a step. -/
def step : Step → δ → Json ν → Except ε (Json ν)
  | .key k, d, v =>
      if w.stops k then w.edit k (w.down (.key k) d) v else w.run (w.down (.key k) d) v
  | .index i, d, v => w.run (w.down (.index i) d) v

/-- The context at a path. -/
def along (p : List Step) (d : δ) : δ := p.foldl (fun d s => w.down s d) d

/-- No stopping key on the path. -/
def Open (p : List Step) : Prop := ∀ k, Step.key k ∈ p → ¬ w.stops k

variable {w}

theorem Open.tail {s : Step} {p : List Step} (h : w.Open (s :: p)) : w.Open p :=
  fun k hk => h k (List.mem_cons_of_mem s hk)

theorem step_of_open {s : Step} {p : List Step} (h : w.Open (s :: p)) (d : δ) (v : Json ν) :
    w.step s d v = w.run (w.down s d) v := by
  cases s with
  | key k => exact if_neg (h k (List.mem_cons_self ..))
  | index i => rfl

theorem step_of_stop {k : String} (h : w.stops k) (d : δ) (v : Json ν) :
    w.step (.key k) d v = w.edit k (w.down (.key k) d) v := if_pos h

/-! ## One level of a walk -/

/-- A bind that succeeds. -/
theorem bind_eq_ok {α β : Type} {x : Except ε α} {f : α → Except ε β} {b : β} :
    x >>= f = .ok b ↔ ∃ a, x = .ok a ∧ f a = .ok b := by
  cases x with
  | error e => exact ⟨fun h => (nomatch h), fun ⟨_, h, _⟩ => (nomatch h)⟩
  | ok a => exact ⟨fun h => ⟨a, rfl, h⟩, fun ⟨_, ha, h⟩ => Except.ok.inj ha ▸ h⟩

theorem runFields_cons (d : δ) (k : String) (v : Json ν) (rest : List (String × Json ν)) :
    w.runFields d ((k, v) :: rest)
      = (do
        let v ← w.step (.key k) d v
        let rest ← w.runFields d rest
        return (k, v) :: rest) := by
  rw [runFields, step]
  split <;> rfl

theorem runItems_cons (d : δ) (i : Nat) (v : Json ν) (rest : List (Json ν)) :
    w.runItems d i (v :: rest)
      = (do
        let v ← w.step (.index i) d v
        let rest ← w.runItems d (i + 1) rest
        return v :: rest) := rfl

/-- The members after a walk: the same keys, each with its own result. -/
theorem runFields_eq_ok {d : δ} {fields fields' : List (String × Json ν)} :
    w.runFields d fields = .ok fields' ↔
      List.Forall₂ (fun a b => a.1 = b.1 ∧ w.step (.key a.1) d a.2 = .ok b.2) fields fields' := by
  induction fields generalizing fields' with
  | nil =>
    rw [List.forall₂_nil_left_iff]
    refine ⟨fun h => (Except.ok.inj h).symm, ?_⟩
    rintro rfl
    rfl
  | cons kv fields ih =>
    obtain ⟨k, v⟩ := kv
    rw [runFields_cons, List.forall₂_cons_left_iff, bind_eq_ok]
    constructor
    · rintro ⟨v', hv, h⟩
      obtain ⟨rest, hrest, h⟩ := bind_eq_ok.mp h
      exact ⟨(k, v'), rest, ⟨rfl, hv⟩, ih.mp hrest, (Except.ok.inj h).symm⟩
    · rintro ⟨⟨k', v'⟩, rest, ⟨hk, hv⟩, hrest, rfl⟩
      obtain rfl : k = k' := hk
      exact ⟨v', hv, bind_eq_ok.mpr ⟨rest, ih.mpr hrest, rfl⟩⟩

/-- …and the items, each at its own index. -/
theorem runItems_eq_ok {d : δ} {i : Nat} {items items' : List (Json ν)} :
    w.runItems d i items = .ok items' ↔ items'.length = items.length ∧
      ∀ j v, items[j]? = some v → ∃ v', items'[j]? = some v' ∧ w.step (.index (i + j)) d v = .ok v' := by
  induction items generalizing i items' with
  | nil =>
    rw [List.length_nil, List.length_eq_zero_iff]
    refine ⟨fun h => ⟨(Except.ok.inj h).symm, fun j v hj => by simp at hj⟩, ?_⟩
    rintro ⟨rfl, -⟩
    rfl
  | cons v items ih =>
    rw [runItems_cons, bind_eq_ok]
    constructor
    · rintro ⟨v', hv, h⟩
      obtain ⟨rest, hrest, h⟩ := bind_eq_ok.mp h
      obtain rfl := Except.ok.inj h
      obtain ⟨hlen, hat⟩ := ih.mp hrest
      refine ⟨by simp [hlen], fun j x hj => ?_⟩
      cases j with
      | zero =>
        obtain rfl : v = x := by simpa using hj
        exact ⟨v', rfl, hv⟩
      | succ j =>
        obtain ⟨x', hx', hstep⟩ := hat j x (by simpa using hj)
        exact ⟨x', by simpa using hx', by rwa [show i + 1 + j = i + (j + 1) by omega] at hstep⟩
    · rintro ⟨hlen, hat⟩
      cases items' with
      | nil => cases hlen
      | cons v' rest =>
        obtain ⟨x, hx, hv⟩ := hat 0 v rfl
        obtain rfl : v' = x := by simpa using hx
        refine ⟨v', hv, bind_eq_ok.mpr ⟨rest, ih.mpr ⟨by simpa using hlen, fun j x hj => ?_⟩, rfl⟩⟩
        obtain ⟨x', hx', hstep⟩ := hat (j + 1) x (by simpa using hj)
        exact ⟨x', by simpa using hx', by rwa [show i + (j + 1) = i + 1 + j by omega] at hstep⟩

theorem runFields_ok_iff {d : δ} {fields : List (String × Json ν)} :
    (∃ fields', w.runFields d fields = .ok fields') ↔
      ∀ k v, (k, v) ∈ fields → ∃ v', w.step (.key k) d v = .ok v' := by
  induction fields with
  | nil => exact ⟨fun _ k v h => by simp at h, fun _ => ⟨[], rfl⟩⟩
  | cons kv fields ih =>
    obtain ⟨k, v⟩ := kv
    rw [runFields_cons]
    constructor
    · rintro ⟨fields', h⟩ k' x hx
      obtain ⟨v', hv, h⟩ := bind_eq_ok.mp h
      obtain ⟨rest, hrest, -⟩ := bind_eq_ok.mp h
      rcases List.mem_cons.mp hx with hx | hx
      · obtain ⟨rfl, rfl⟩ := Prod.mk.inj hx
        exact ⟨v', hv⟩
      · exact ih.mp ⟨rest, hrest⟩ k' x hx
    · intro h
      obtain ⟨v', hv⟩ := h k v (List.mem_cons_self ..)
      obtain ⟨rest, hrest⟩ := ih.mpr fun k x hx => h k x (List.mem_cons_of_mem _ hx)
      exact ⟨(k, v') :: rest, bind_eq_ok.mpr ⟨v', hv, bind_eq_ok.mpr ⟨rest, hrest, rfl⟩⟩⟩

theorem runItems_ok_iff {d : δ} {i : Nat} {items : List (Json ν)} :
    (∃ items', w.runItems d i items = .ok items') ↔
      ∀ j v, items[j]? = some v → ∃ v', w.step (.index (i + j)) d v = .ok v' := by
  constructor
  · rintro ⟨items', h⟩ j v hj
    obtain ⟨v', -, hv⟩ := (runItems_eq_ok.mp h).2 j v hj
    exact ⟨v', hv⟩
  · intro h
    induction items generalizing i with
    | nil => exact ⟨[], rfl⟩
    | cons v items ih =>
      obtain ⟨v', hv⟩ := h 0 v rfl
      obtain ⟨rest, hrest⟩ := ih (i := i + 1) fun j x hj => by
        rw [show i + 1 + j = i + (j + 1) by omega]
        exact h (j + 1) x (by simpa using hj)
      rw [runItems_cons]
      exact ⟨v' :: rest, bind_eq_ok.mpr ⟨v', hv, bind_eq_ok.mpr ⟨rest, hrest, rfl⟩⟩⟩

theorem run_object_eq_ok {d : δ} {fields : List (String × Json ν)} {r : Json ν} :
    w.run d (object fields) = .ok r ↔
      ∃ fields', w.runFields d fields = .ok fields' ∧ r = object fields' := by
  rw [run, bind_eq_ok]
  exact exists_congr fun _ => and_congr_right fun _ => ⟨fun h => (Except.ok.inj h).symm,
    fun h => h ▸ rfl⟩

theorem run_array_eq_ok {d : δ} {items : List (Json ν)} {r : Json ν} :
    w.run d (array items) = .ok r ↔ ∃ items', w.runItems d 0 items = .ok items' ∧ r = array items' := by
  rw [run, bind_eq_ok]
  exact exists_congr fun _ => and_congr_right fun _ => ⟨fun h => (Except.ok.inj h).symm,
    fun h => h ▸ rfl⟩

/-- A walk keeps the head. -/
theorem head_of_run {d : δ} {v r : Json ν} (h : w.run d v = .ok r) : r.head = v.head := by
  cases v with
  | object fields =>
    obtain ⟨fields', hf, rfl⟩ := run_object_eq_ok.mp h
    have hkeys : fields.map Prod.fst = fields'.map Prod.fst := by
      have hrel := runFields_eq_ok.mp hf
      clear h hf
      induction hrel with
      | nil => rfl
      | cons hab _ ih => simp [hab.1, ih]
    simp [head, hkeys]
  | array items =>
    obtain ⟨items', hi, rfl⟩ := run_array_eq_ok.mp h
    simp [head, (runItems_eq_ok.mp hi).1]
  | null | bool | number | str =>
    obtain rfl := Except.ok.inj h
    rfl

/-- **The children after a walk** are the results at the children. -/
theorem child_of_run {d : δ} {v r : Json ν} (h : w.run d v = .ok r) (s : Step) :
    Option.Rel (fun x y => w.step s d x = .ok y) (v.child s) (r.child s) := by
  cases v with
  | object fields =>
    obtain ⟨fields', hf, rfl⟩ := run_object_eq_ok.mp h
    cases s with
    | index i => exact .none
    | key k =>
      simp only [child]
      have hrel := runFields_eq_ok.mp hf
      clear h hf
      induction hrel with
      | nil => exact .none
      | @cons a b fields fields' hab _ ih =>
        obtain ⟨k', v⟩ := a
        obtain ⟨k'', v'⟩ := b
        obtain ⟨rfl, hstep⟩ : k' = k'' ∧ w.step (.key k') d v = .ok v' := hab
        rw [List.lookup_cons, List.lookup_cons]
        rcases eq_or_ne k k' with rfl | hne
        · rw [beq_self_eq_true]
          exact .some hstep
        · rw [beq_false_of_ne hne]
          exact ih
  | array items =>
    obtain ⟨items', hi, rfl⟩ := run_array_eq_ok.mp h
    obtain ⟨hlen, hat⟩ := runItems_eq_ok.mp hi
    cases s with
    | key k => exact .none
    | index j =>
      simp only [child]
      cases hj : items[j]? with
      | none =>
        rw [List.getElem?_eq_none_iff] at hj
        rw [List.getElem?_eq_none_iff.mpr (by omega)]
        exact .none
      | some x =>
        obtain ⟨x', hx', hstep⟩ := hat j x hj
        rw [hx']
        exact .some (Nat.zero_add j ▸ hstep)
  | null | bool | number | str =>
    obtain rfl := Except.ok.inj h
    cases s <;> exact .none

/-- A walk succeeds iff it does at every child. -/
theorem run_ok_iff_child {d : δ} {v : Json ν} (hv : v.Wf) :
    (∃ r, w.run d v = .ok r) ↔ ∀ s x, v.child s = some x → ∃ y, w.step s d x = .ok y := by
  cases hv with
  | object keys _ =>
    simp only [run_object_eq_ok, exists_comm (α := Json ν)]
    simp only [exists_eq_right, runFields_ok_iff]
    constructor
    · intro h s x hx
      cases s with
      | index i => cases hx
      | key k => exact h k x ((lookup_eq_some keys).mp hx)
    · exact fun h k x hx => h (.key k) x ((lookup_eq_some keys).mpr hx)
  | array _ =>
    simp only [run_array_eq_ok, exists_comm (α := Json ν)]
    simp only [exists_eq_right, runItems_ok_iff]
    constructor
    · intro h s x hx
      cases s with
      | key k => cases hx
      | index i => exact Nat.zero_add i ▸ h i x hx
    · exact fun h i x hx => (Nat.zero_add i).symm ▸ h (.index i) x hx
  | null | bool | number | str =>
    refine ⟨fun _ s x hx => ?_, fun _ => ⟨_, rfl⟩⟩
    cases s <;> cases hx

/-! ## Paths of a walk -/

/-- Off the stops, the walk does to what stands at a path what it does from there. -/
theorem run_at_open {q : List Step} (hq : w.Open q) {d : δ} {v r : Json ν}
    (h : w.run d v = .ok r) :
    Option.Rel (fun x y => w.run (w.along q d) x = .ok y) (v.at? q) (r.at? q) := by
  induction q generalizing d v r with
  | nil => exact .some h
  | cons s q ih =>
    have hchild := child_of_run h s
    rw [at?_cons, at?_cons]
    revert hchild
    generalize v.child s = x
    generalize r.child s = y
    rintro (hstep | -)
    · exact ih hq.tail (step_of_open hq d _ ▸ hstep)
    · exact .none

/-- **Off the stops the heads stay.** -/
theorem run_head {q : List Step} (hq : w.Open q) {d : δ} {v r : Json ν} (h : w.run d v = .ok r) :
    (r.at? q).map head = (v.at? q).map head := by
  have hrel := run_at_open hq h
  revert hrel
  generalize v.at? q = x
  generalize r.at? q = y
  rintro (hrun | -)
  · exact congrArg some (head_of_run hrun)
  · rfl

/-- **At a stop stands what the edit made of it.** -/
theorem run_at_stop {q : List Step} (hq : w.Open q) {k : String} (hk : w.stops k) {d : δ}
    {v r : Json ν} (h : w.run d v = .ok r) :
    Option.Rel (fun x y => w.edit k (w.along (q ++ [.key k]) d) x = .ok y)
      (v.at? (q ++ [.key k])) (r.at? (q ++ [.key k])) := by
  have hrel := run_at_open hq h
  rw [at?_append, at?_append]
  revert hrel
  generalize v.at? q = x
  generalize r.at? q = y
  rintro (hrun | -)
  · have hchild := child_of_run hrun (.key k)
    simp only [step_of_stop hk] at hchild
    simpa only [Option.bind_some, at?_singleton, along, List.foldl_append, List.foldl_cons,
      List.foldl_nil] using hchild
  · exact .none

/-- A stop at the top. -/
theorem get_of_run {k : String} (hk : w.stops k) {d : δ} {v r x : Json ν} (h : w.run d v = .ok r)
    (hx : v.get k = some x) :
    ∃ y, r.get k = some y ∧ w.edit k (w.down (.key k) d) x = .ok y := by
  have hchild := child_of_run h (.key k)
  simp only [show v.child (.key k) = some x from hx, step_of_stop hk] at hchild
  change Option.Rel _ _ (r.get k) at hchild
  generalize r.get k = y at hchild
  cases hchild with
  | some hedit => exact ⟨_, rfl, hedit⟩

theorem along_cons (s : Step) (p : List Step) (d : δ) :
    w.along (s :: p) d = w.along p (w.down s d) := rfl

theorem Open.cons {s : Step} {p : List Step} (hs : ∀ k, s = .key k → ¬ w.stops k)
    (h : w.Open p) : w.Open (s :: p) := fun k hk => by
  rcases List.mem_cons.mp hk with hk | hk
  · exact hs k hk.symm
  · exact h k hk

theorem open_nil : w.Open [] := fun _ hk => (List.not_mem_nil hk).elim

/-- A path is open, or there is a first stop on it. -/
theorem open_or_stop (w : Walk ν δ ε) (p : List Step) :
    w.Open p ∨ ∃ q k t, p = q ++ [.key k] ++ t ∧ w.Open q ∧ w.stops k := by
  induction p with
  | nil => exact Or.inl open_nil
  | cons s p ih =>
    by_cases hs : ∀ k, s = .key k → ¬ w.stops k
    · rcases ih with h | ⟨q, k, t, rfl, hq, hk⟩
      · exact Or.inl (h.cons hs)
      · exact Or.inr ⟨s :: q, k, t, rfl, hq.cons hs, hk⟩
    · push Not at hs
      obtain ⟨k, rfl, hk⟩ := hs
      exact Or.inr ⟨[], k, p, rfl, open_nil, hk⟩

/-- Every edit the walk makes succeeds. -/
def CanEdit (w : Walk ν δ ε) (d : δ) (v : Json ν) : Prop :=
  ∀ q k x, w.Open q → w.stops k → v.at? (q ++ [.key k]) = some x →
    ∃ y, w.edit k (w.along (q ++ [.key k]) d) x = .ok y

theorem CanEdit.step {d : δ} {v : Json ν} (h : w.CanEdit d v) {s : Step} {x : Json ν}
    (hx : v.child s = some x) (ih : ∀ d, w.CanEdit d x → ∃ r, w.run d x = .ok r) :
    ∃ y, w.step s d x = .ok y := by
  by_cases hs : ∀ k, s = .key k → ¬ w.stops k
  · rw [step_of_open (open_nil.cons hs)]
    refine ih _ fun q k y hq hk hy => ?_
    rw [← along_cons, ← List.cons_append]
    refine h (s :: q) k y (hq.cons hs) hk ?_
    rw [List.cons_append, at?_cons, hx]
    exact hy
  · push Not at hs
    obtain ⟨k, rfl, hk⟩ := hs
    rw [step_of_stop hk]
    exact h [] k x open_nil hk (by rwa [List.nil_append, at?_singleton])

/-- **A walk succeeds iff every edit does.** -/
theorem run_ok_iff {d : δ} {v : Json ν} (hv : v.Wf) :
    (∃ r, w.run d v = .ok r) ↔ w.CanEdit d v := by
  constructor
  · rintro ⟨r, h⟩ q k x hq hk hx
    have hrel := run_at_stop hq hk h
    rw [hx] at hrel
    revert hrel
    generalize r.at? _ = y
    rintro (hedit | -)
    exact ⟨_, hedit⟩
  · intro h
    induction hv generalizing d with
    | object keys hw ih =>
      refine (run_ok_iff_child (.object keys hw)).mpr fun s x hx => h.step hx fun d hd => ?_
      cases s with
      | index i => cases hx
      | key k => exact ih (k, x) ((lookup_eq_some keys).mp hx) hd
    | array hw ih =>
      refine (run_ok_iff_child (.array hw)).mpr fun s x hx => h.step hx fun d hd => ?_
      cases s with
      | key k => cases hx
      | index i => exact ih x (List.mem_of_getElem? hx) hd
    | null | bool | number | str => exact ⟨_, rfl⟩

/-- A child of the result is the result at a child. -/
theorem child_back {d : δ} {v r : Json ν} (h : w.run d v = .ok r) {s : Step} {y : Json ν}
    (hy : r.child s = some y) : ∃ x, v.child s = some x ∧ w.step s d x = .ok y := by
  have hchild := child_of_run h s
  rw [hy] at hchild
  revert hchild
  generalize v.child s = x
  rintro (hstep | -)
  exact ⟨_, rfl, hstep⟩

/-- A walk whose edits are well formed keeps well-formedness. -/
theorem wf_of_run (hw : ∀ k d x y, x.Wf → w.edit k d x = .ok y → y.Wf) {d : δ} {v r : Json ν}
    (hv : v.Wf) (h : w.run d v = .ok r) : r.Wf := by
  have hstep : ∀ {s d x y}, x.Wf → (∀ d r, w.run d x = .ok r → r.Wf) → w.step s d x = .ok y →
      y.Wf := by
    intro s d x y hx ih hy
    cases s with
    | index i => exact ih _ _ hy
    | key k =>
      rw [step] at hy
      split at hy
      · exact hw _ _ _ _ hx hy
      · exact ih _ _ hy
  induction hv generalizing d r with
  | object keys hfields ih =>
    have hhead := head_of_run h
    obtain ⟨fields', -, rfl⟩ := run_object_eq_ok.mp h
    rw [head, head, Head.object.injEq] at hhead
    have keys' : (fields'.map Prod.fst).Nodup := hhead ▸ keys
    refine .object keys' fun kv hkv => ?_
    obtain ⟨x, hx, hrun⟩ := child_back (s := .key kv.1) h ((lookup_eq_some keys').mpr hkv)
    have hmem := (lookup_eq_some keys).mp hx
    exact hstep (hfields _ hmem) (fun d r => ih _ hmem) hrun
  | array hitems ih =>
    obtain ⟨items', -, rfl⟩ := run_array_eq_ok.mp h
    refine .array fun y hy => ?_
    obtain ⟨i, hi⟩ := List.mem_iff_getElem?.mp hy
    obtain ⟨x, hx, hrun⟩ := child_back (s := .index i) h hi
    have hmem := List.mem_of_getElem? hx
    exact hstep (hitems x hmem) (fun d r => ih x hmem) hrun
  | null | bool | number | str =>
    obtain rfl := Except.ok.inj h
    constructor

end Walk

/-! ## A value is known by its open heads and its stops -/

/-- Members with the same distinct keys and the same lookups are the same. -/
theorem eq_of_lookup {fields fields' : List (String × Json ν)} (hf : (fields.map Prod.fst).Nodup)
    (hkeys : fields'.map Prod.fst = fields.map Prod.fst)
    (hlookup : ∀ k, fields'.lookup k = fields.lookup k) : fields' = fields := by
  induction fields generalizing fields' with
  | nil => exact List.map_eq_nil_iff.mp hkeys
  | cons kv fields ih =>
    obtain ⟨k, v⟩ := kv
    obtain ⟨⟨k', v'⟩, rest, rfl, hk, hrest⟩ := List.map_eq_cons_iff.mp hkeys
    obtain rfl : k' = k := hk
    obtain ⟨hout, hf⟩ := List.nodup_cons.mp hf
    have hv : v' = v := by simpa using hlookup k'
    have hnone : ∀ {l : List (String × Json ν)}, l.map Prod.fst = fields.map Prod.fst →
        l.lookup k' = none := fun hl => List.lookup_eq_none_iff.mpr fun p hp => by
      have hmem : p.1 ∈ fields.map Prod.fst := hl ▸ List.mem_map_of_mem hp
      exact bne_iff_ne.mpr fun he : k' = p.1 => hout (show k' ∈ _ from he ▸ hmem)
    rw [hv, ih hf hrest fun k'' => ?_]
    rcases eq_or_ne k'' k' with rfl | hne
    · rw [hnone hrest, hnone rfl]
    · have := hlookup k''
      rwa [List.lookup_cons, List.lookup_cons, beq_false_of_ne hne] at this

theorem eq_of_child {v r : Json ν} (hv : v.Wf) (hhead : r.head = v.head)
    (hchild : ∀ s, r.child s = v.child s) : r = v := by
  cases hv with
  | object keys _ =>
    cases r with
    | object fields' =>
      rw [head, head, Head.object.injEq] at hhead
      rw [eq_of_lookup keys hhead fun k => hchild (.key k)]
    | _ => cases hhead
  | array _ =>
    cases r with
    | array items' => rw [List.ext_getElem? fun i => hchild (.index i)]
    | _ => cases hhead
  | null | bool | number | str =>
    cases r <;> cases hhead
    rfl

/-- The same heads off the stops, and the same values at them. -/
structure Agree (w : Walk ν δ ε) (v r : Json ν) : Prop where
  heads : ∀ q, w.Open q → (r.at? q).map head = (v.at? q).map head
  stops : ∀ q k, w.Open q → w.stops k → r.at? (q ++ [.key k]) = v.at? (q ++ [.key k])

theorem Agree.child {w : Walk ν δ ε} {v r : Json ν} (h : Agree w v r) (s : Step)
    (ih : ∀ x y, v.child s = some x → Agree w x y → y = x) : r.child s = v.child s := by
  by_cases hs : ∀ k, s = .key k → ¬ w.stops k
  · have hone := h.heads [s] (Walk.open_nil.cons hs)
    rw [at?_singleton, at?_singleton] at hone
    cases hx : v.child s with
    | none => rwa [hx, Option.map_none, Option.map_eq_none_iff] at hone
    | some x =>
      rw [hx] at hone
      obtain ⟨y, hy, -⟩ := Option.map_eq_some_iff.mp hone
      rw [hy, ih x y hx ⟨fun q hq => ?_, fun q k hq hk => ?_⟩]
      · simpa only [at?_cons, hx, hy, Option.bind_some] using h.heads (s :: q) (hq.cons hs)
      · simpa only [List.cons_append, at?_cons, hx, hy, Option.bind_some]
          using h.stops (s :: q) k (hq.cons hs) hk
  · push Not at hs
    obtain ⟨k, rfl, hk⟩ := hs
    simpa using h.stops [] k Walk.open_nil hk

/-- **Values that agree are equal.**  The induction is on the value. -/
theorem Agree.eq {w : Walk ν δ ε} {v r : Json ν} (hv : v.Wf) (h : Agree w v r) : r = v := by
  have hhead : ∀ {v r : Json ν}, Agree w v r → r.head = v.head := fun h => by
    simpa using h.heads [] Walk.open_nil
  induction hv generalizing r with
  | object keys hw ih =>
    refine eq_of_child (.object keys hw) (hhead h) fun s => h.child s fun x y hx hxy => ?_
    cases s with
    | index i => cases hx
    | key k => exact ih (k, x) ((lookup_eq_some keys).mp hx) hxy
  | array hw ih =>
    refine eq_of_child (.array hw) (hhead h) fun s => h.child s fun x y hx hxy => ?_
    cases s with
    | key k => cases hx
    | index i => exact ih x (List.mem_of_getElem? hx) hxy
  | null | bool | number | str =>
    refine eq_of_child (by constructor) (hhead h) fun s => h.child s fun x y hx _ => ?_
    cases s <;> cases hx

namespace Walk

variable {w : Walk ν δ ε}

/-- A result is known by what the edits make of the stops. -/
theorem run_eq_ok_of {d : δ} {v r : Json ν} (hv : v.Wf) (hr : r.Wf)
    (hheads : ∀ q, w.Open q → (r.at? q).map head = (v.at? q).map head)
    (hstops : ∀ q k, w.Open q → w.stops k →
      Option.Rel (fun x y => w.edit k (w.along (q ++ [.key k]) d) x = .ok y)
        (v.at? (q ++ [.key k])) (r.at? (q ++ [.key k]))) : w.run d v = .ok r := by
  have hok : w.CanEdit d v := fun q k x hq hk hx => by
    have hrel := hstops q k hq hk
    rw [hx] at hrel
    revert hrel
    generalize r.at? _ = y
    rintro (hedit | -)
    exact ⟨_, hedit⟩
  obtain ⟨r', hrun⟩ := (run_ok_iff hv).mpr hok
  have hagree : Agree w r r' := by
    refine ⟨fun q hq => ?_, fun q k hq hk => ?_⟩
    · rw [run_head hq hrun, hheads q hq]
    have hrel := run_at_stop hq hk hrun
    have hrel' := hstops q k hq hk
    revert hrel hrel'
    generalize v.at? _ = x
    generalize r.at? _ = y
    generalize r'.at? _ = y'
    rintro (hedit | -) (hedit' | -)
    · rw [hedit] at hedit'
      rw [Except.ok.inj hedit']
    · rfl
  rw [hrun, hagree.eq hr]

/-! ## Two runs of a walk -/

theorem runFields_congr {d : δ} {fields fields' : List (String × Json ν)}
    (keys : (fields.map Prod.fst).Nodup) (hkeys : fields'.map Prod.fst = fields.map Prod.fst)
    (h : ∀ k x y, fields.lookup k = some x → fields'.lookup k = some y →
      w.step (.key k) d x = w.step (.key k) d y) :
    w.runFields d fields = w.runFields d fields' := by
  induction fields generalizing fields' with
  | nil => rw [List.map_eq_nil_iff.mp hkeys]
  | cons kv fields ih =>
    obtain ⟨k, v⟩ := kv
    obtain ⟨⟨k', v'⟩, rest, rfl, hk, hrest⟩ := List.map_eq_cons_iff.mp hkeys
    obtain rfl : k' = k := hk
    obtain ⟨hout, htail⟩ := List.nodup_cons.mp keys
    have hhead := h k' v v' (by simp) (by simp)
    rw [runFields_cons, runFields_cons, hhead, ih htail hrest fun k x y hx hy => ?_]
    -- a later key is another one
    have hne : k ≠ k' := by
      rintro rfl
      exact hout (List.mem_map.mpr ⟨(k, x), (lookup_eq_some htail).mp hx, rfl⟩)
    refine h k x y ?_ ?_ <;> rw [List.lookup_cons, beq_false_of_ne hne] <;> assumption

theorem runItems_congr {d : δ} {i : Nat} {items items' : List (Json ν)}
    (hlen : items'.length = items.length)
    (h : ∀ j x y, items[j]? = some x → items'[j]? = some y →
      w.step (.index (i + j)) d x = w.step (.index (i + j)) d y) :
    w.runItems d i items = w.runItems d i items' := by
  induction items generalizing i items' with
  | nil => rw [List.length_eq_zero_iff.mp hlen]
  | cons v items ih =>
    obtain ⟨v', rest, rfl⟩ := List.exists_cons_of_length_eq_add_one hlen
    have hhead := h 0 v v' rfl rfl
    rw [Nat.add_zero] at hhead
    rw [runItems_cons, runItems_cons, hhead, ih (by simpa using hlen) fun j x y hx hy => ?_]
    rw [show i + 1 + j = i + (j + 1) by omega]
    exact h (j + 1) x y (by simpa using hx) (by simpa using hy)

/-- The same heads off the stops, and the same edits at them. -/
structure Alike (w : Walk ν δ ε) (d : δ) (v r : Json ν) : Prop where
  heads : ∀ q, w.Open q → (r.at? q).map head = (v.at? q).map head
  edits : ∀ q k x y, w.Open q → w.stops k → v.at? (q ++ [.key k]) = some x →
    r.at? (q ++ [.key k]) = some y →
    w.edit k (w.along (q ++ [.key k]) d) x = w.edit k (w.along (q ++ [.key k]) d) y

theorem Alike.head_eq {d : δ} {v r : Json ν} (h : w.Alike d v r) : r.head = v.head := by
  simpa using h.heads [] open_nil

theorem Alike.step {d : δ} {v r : Json ν} (h : w.Alike d v r) {s : Step} {x y : Json ν}
    (hx : v.child s = some x) (hy : r.child s = some y)
    (ih : ∀ d, w.Alike d x y → w.run d x = w.run d y) : w.step s d x = w.step s d y := by
  by_cases hs : ∀ k, s = .key k → ¬ w.stops k
  · rw [step_of_open (open_nil.cons hs), step_of_open (open_nil.cons hs)]
    refine ih _ ⟨fun q hq => ?_, fun q k x' y' hq hk hx' hy' => ?_⟩
    · simpa only [at?_cons, hx, hy, Option.bind_some] using h.heads (s :: q) (hq.cons hs)
    · refine h.edits (s :: q) k x' y' (hq.cons hs) hk ?_ ?_
      · rwa [List.cons_append, at?_cons, hx]
      · rwa [List.cons_append, at?_cons, hy]
  · push Not at hs
    obtain ⟨k, rfl, hk⟩ := hs
    rw [step_of_stop hk, step_of_stop hk]
    exact h.edits [] k x y open_nil hk (by simpa using hx) (by simpa using hy)

/-- **A run depends on the open heads and on the edits only.** -/
theorem run_congr {d : δ} {v r : Json ν} (hv : v.Wf) (h : w.Alike d v r) :
    w.run d v = w.run d r := by
  have hhead := h.head_eq
  induction hv generalizing d r with
  | @object fields keys hw ih =>
    cases r with
    | object fields' =>
      rw [head, head, Head.object.injEq] at hhead
      rw [run, run, runFields_congr keys hhead fun k x y hx hy => ?_]
      exact h.step (s := .key k) hx hy fun d hd =>
        ih (k, x) ((lookup_eq_some keys).mp hx) hd hd.head_eq
    | _ => cases hhead
  | @array items hw ih =>
    cases r with
    | array items' =>
      rw [head, head, Head.array.injEq] at hhead
      rw [run, run, runItems_congr hhead fun i x y hx hy => ?_]
      rw [Nat.zero_add]
      exact h.step (s := .index i) hx hy fun d hd => ih x (List.mem_of_getElem? hx) hd hd.head_eq
    | _ => cases hhead
  | null | bool | number | str =>
    cases r <;> cases hhead
    rfl

end Walk

end Json
