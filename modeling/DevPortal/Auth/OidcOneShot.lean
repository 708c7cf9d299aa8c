import DevPortal.Auth.OidcLogin

/-!
# Auth/OidcOneShot — a login transaction is used once, by the browser that started it

    stored = still in the table ⊎ consumed              a session ▸ one consumed row, and its request
    pending now ≤ 10000, counted at an instant before now, under the lock

A row leaves the table in one commit, with the request that takes it; from then on only that request
can make a session of it.  The capacity is counted at an instant that was read before the lock: what
has not expired *now* had not expired then.
-/

namespace DevPortal

open Transaction OidcLoginTransactionRepository

variable {I γ κ : Type}

/-! ## What a session rests on -/

section Bound

variable (prims : EntraPrimitives γ κ) (config : AppConfig) (requests : I → OidcRequest)

/-- **A callback may consume a row**: its state and its cookie are those of the row, which has not
expired. -/
def MayConsume (request : OidcRequest) (t : OidcLoginTransaction) (now : DateTime) : Prop :=
  ∃ query cookie state binding, request = .finish query cookie ∧ query.state = some state
    ∧ cookie = some binding ∧ sha256Hex prims state = t.stateHash
    ∧ sha256Hex prims binding = t.browserBindingHash ∧ now < t.expiresAt

/-- The token of a session is valid for the nonce of the row it came of. -/
def Validated (l : EntraLogin I κ) : Prop :=
  ∃ entra, config.entra = some entra ∧ decodeAndValidateIdToken prims l.idToken l.key entra
    l.transaction.nonce l.validatedAt = .ok l.claims

/-- **The invariant of the store.** -/
structure OidcInv (d : OidcStore I κ) : Prop where
  keyed : Table.Keyed (·.stateHash) d.transactions
  numbered : d.stored.map (·.number) = List.range d.stored.length
  known : ∀ t, t ∈ d.transactions ∨ t ∈ d.consumed.map (·.transaction) → t ∈ d.stored
  parted : (d.consumed.map (·.transaction) ++ d.transactions).Nodup
  bound : ∀ c ∈ d.consumed, c.now ≤ d.clock ∧ MayConsume prims (requests c.request) c.transaction c.now
  logged : ∀ l ∈ d.logins, l.consumption ∈ d.consumed ∧ Validated prims config l
  once : (d.logins.map (·.transaction)).Nodup
  capacity : ((d.pending d.clock).length : Int) ≤ maxPendingOidcTransactions

/-- The rows that are left when those of some states are deleted. -/
def OidcStore.without (d : OidcStore I κ) (hashes : List String) : OidcStore I κ :=
  { d with transactions := d.transactions.filter fun t => t.stateHash ∉ hashes }

/-- **What the request `i` commits**, on the store `d`. -/
inductive OidcGuar (i : I) (d : OidcStore I κ) (h : List OidcLock) (p : List (OidcWrite I κ)) : Prop
  | ticks (t : DateTime) (hp : p = [.tick t])
  | deletes (hashes : List String) (hp : p = hashes.map .delete)
  | creates (hashes : List String) (row : NewOidcLoginTransaction) (now : DateTime)
      (hp : p = hashes.map .delete ++ [.insert row]) (locked : .capacity ∈ h) (clock : now ≤ d.clock)
      (room : (((d.without hashes).pending now).length : Int) < maxPendingOidcTransactions)
      (fresh : ∀ t ∈ (d.without hashes).transactions, t.stateHash ≠ row.stateHash)
  | consumes (t : OidcLoginTransaction) (now : DateTime) (hp : p = [.consume i t.stateHash now])
      (found : t ∈ d.transactions) (clock : now ≤ d.clock)
      (may : MayConsume prims (requests i) t now)
  | logs (l : EntraLogin I κ) (hp : p = [.login l]) (own : l.consumption.request = i)
      (consumed : l.consumption ∈ d.consumed) (unused : l.transaction ∉ d.logins.map (·.transaction))
      (valid : Validated prims config l)

end Bound

/-! ## What a commit changes -/

section Commits

variable {prims : EntraPrimitives γ κ} {config : AppConfig} {requests : I → OidcRequest}
variable {i : I} {d d' : OidcStore I κ} {h : List OidcLock} {p : List (OidcWrite I κ)}

/-- Deleting the rows of some states. -/
theorem oidc_applyAll_deletes (d : OidcStore I κ) (hashes : List String) :
    (oidcEngine I κ).applyAll d (hashes.map .delete) = d.without hashes := by
  induction hashes generalizing d with
  | nil => simp [OidcStore.without]
  | cons hash hashes ih =>
    rw [List.map_cons, Engine.applyAll_cons, ih]
    show OidcStore.mk _ _ _ _ _ = _
    congr 1
    show List.filter _ (Table.delete _ d.transactions) = _
    rw [Table.delete, List.filter_filter]
    refine List.filter_congr fun t _ => ?_
    by_cases ht : t.stateHash = hash <;> simp [ht]

theorem oidc_applyAll_creates (d : OidcStore I κ) (hashes : List String)
    (row : NewOidcLoginTransaction) :
    (oidcEngine I κ).applyAll d (hashes.map .delete ++ [.insert row])
      = (OidcWrite.insert row).apply (d.without hashes) := by
  rw [Engine.applyAll_append, oidc_applyAll_deletes]
  rfl

/-- The rows with the state of a row of the table are that row. -/
theorem filter_stateHash (hd : Table.Keyed (·.stateHash) d.transactions) {t : OidcLoginTransaction}
    (ht : t ∈ d.transactions) :
    (d.transactions.filter fun r => r.stateHash = t.stateHash) = [t] := by
  have hmem : t ∈ d.transactions.filter fun r => r.stateHash = t.stateHash := by simp [ht]
  have hlen : (d.transactions.filter fun r => r.stateHash = t.stateHash).length = 1 :=
    Nat.le_antisymm (Table.length_filter_le_one hd t.stateHash) (List.length_pos_of_mem hmem)
  obtain ⟨r, hr⟩ := List.length_eq_one_iff.mp hlen
  rw [hr] at hmem ⊢
  rw [List.mem_singleton.mp hmem]

/-- The row of a callback goes from the table to what was consumed. -/
theorem oidc_applyAll_consume (hd : Table.Keyed (·.stateHash) d.transactions)
    {t : OidcLoginTransaction} (ht : t ∈ d.transactions) (now : DateTime) :
    (oidcEngine I κ).applyAll d [.consume i t.stateHash now]
      = { d.without [t.stateHash] with consumed := d.consumed ++ [⟨i, t, now⟩] } := by
  show OidcStore.mk _ _ _ _ _ = _
  rw [filter_stateHash hd ht]
  congr 1
  refine List.filter_congr fun r _ => ?_
  by_cases hr : r.stateHash = t.stateHash <;> simp [hr]

/-- **What a commit of the request `j` changes**, which holds `h`: the clock goes on; rows appear
under the capacity, and go under their key; what was consumed stays so; and a session comes of a row
that `j` has consumed. -/
structure OidcMoved (j : I) (d : OidcStore I κ) (h : List OidcLock) (d' : OidcStore I κ) : Prop where
  clock : d.clock ≤ d'.clock
  rows : .capacity ∉ h → d'.transactions.Sublist d.transactions
  kept : ∀ t ∈ d.transactions, .key t.stateHash ∉ h → t ∈ d'.transactions
  consumed : ∀ c ∈ d.consumed, c ∈ d'.consumed
  logins : ∀ l ∈ d'.logins, l ∈ d.logins ∨ l.consumption.request = j ∧ l.consumption ∈ d.consumed

theorem mem_without {hashes : List String} {t : OidcLoginTransaction} :
    t ∈ (d.without hashes).transactions ↔ t ∈ d.transactions ∧ t.stateHash ∉ hashes := by
  simp [OidcStore.without]

/-- The deletion of rows whose keys are locked. -/
theorem moved_without {hashes : List String} (hlocked : ∀ hash ∈ hashes, .key hash ∈ h) :
    OidcMoved i d h (d.without hashes) where
  clock := Int.le_refl _
  rows := fun _ => List.filter_sublist
  kept := fun _ ht hfree => mem_without.mpr ⟨ht, fun hmem => hfree (hlocked _ hmem)⟩
  consumed := fun _ hc => hc
  logins := fun _ hl => Or.inl hl

/-- The keys of the rows a transaction deletes are locked. -/
theorem locked_of_covered {hashes : List String} (hcov : (oidcEngine I κ).Covered h p)
    (hp : ∀ hash ∈ hashes, .delete hash ∈ p) : ∀ hash ∈ hashes, .key hash ∈ h :=
  fun hash hmem => hcov _ (hp hash hmem) _ (List.mem_singleton.mpr rfl)

theorem OidcGuar.moved (hd : OidcInv prims config requests d)
    (hp : OidcGuar prims config requests i d h p) (hcov : (oidcEngine I κ).Covered h p) :
    OidcMoved i d h ((oidcEngine I κ).applyAll d p) := by
  cases hp with
  | ticks _ hp =>
    subst hp
    exact ⟨Int.le_max_left _ _, fun _ => List.Sublist.refl _, fun _ ht _ => ht, fun _ hc => hc,
      fun _ hl => Or.inl hl⟩
  | deletes hashes hp =>
    subst hp
    rw [oidc_applyAll_deletes]
    exact moved_without (locked_of_covered hcov fun _ hmem => List.mem_map_of_mem hmem)
  | creates hashes row now hp locked =>
    subst hp
    have hm : OidcMoved i d h (d.without hashes) := moved_without <| locked_of_covered hcov
      fun _ hmem => List.mem_append_left _ (List.mem_map_of_mem hmem)
    rw [oidc_applyAll_creates]
    exact ⟨hm.clock, fun hfree => (hfree locked).elim,
      fun t ht hfree => List.mem_append_left _ (hm.kept t ht hfree), hm.consumed, hm.logins⟩
  | consumes t now hp found =>
    subst hp
    have hlocked : .key t.stateHash ∈ h :=
      hcov _ (List.mem_singleton.mpr rfl) _ (List.mem_singleton.mpr rfl)
    have hm : OidcMoved i d h (d.without [t.stateHash]) :=
      moved_without fun hash hmem => List.mem_singleton.mp hmem ▸ hlocked
    rw [oidc_applyAll_consume hd.keyed found]
    exact ⟨hm.clock, hm.rows, hm.kept, fun c hc => List.mem_append_left _ hc, hm.logins⟩
  | logs l hp own consumed =>
    subst hp
    refine ⟨Int.le_refl _, fun _ => List.Sublist.refl _, fun _ ht _ => ht, fun _ hc => hc,
      fun l' hl' => ?_⟩
    rcases List.mem_append.mp hl' with hl' | hl'
    · exact Or.inl hl'
    · rw [List.mem_singleton.mp hl']
      exact Or.inr ⟨own, consumed⟩

/-! ## The invariant -/

/-- A row has not expired now, so it had not at an earlier instant. -/
theorem length_pending_le {now now' : DateTime} (h : now ≤ now') :
    (d.pending now').length ≤ (d.pending now).length := by
  refine List.Sublist.length_le (List.monotone_filter_right _ fun t ht => ?_)
  have hexp : now' < t.expiresAt := by simpa using ht
  exact decide_eq_true (Int.lt_of_le_of_lt h hexp)

theorem length_pending_without_le (hashes : List String) (now : DateTime) :
    ((d.without hashes).pending now).length ≤ (d.pending now).length :=
  (List.filter_sublist.filter _).length_le

/-- What the invariant says is kept when rows go. -/
theorem OidcInv.without (hd : OidcInv prims config requests d) (hashes : List String) :
    OidcInv prims config requests (d.without hashes) where
  keyed := hd.keyed.sublist (List.filter_sublist.map _)
  numbered := hd.numbered
  known := fun t ht => hd.known t (ht.imp_left fun ht => (mem_without.mp ht).1)
  parted := hd.parted.sublist (List.filter_sublist.append_left _)
  bound := hd.bound
  logged := hd.logged
  once := hd.once
  capacity := by
    have hle := length_pending_without_le (d := d) hashes d.clock
    have hcap := hd.capacity
    show (((d.without hashes).pending d.clock).length : Int) ≤ _
    omega

/-- A new row has a number that none had. -/
theorem OidcInv.insert (hd : OidcInv prims config requests d) {row : NewOidcLoginTransaction}
    {now : DateTime} (hclock : now ≤ d.clock)
    (hroom : ((d.pending now).length : Int) < maxPendingOidcTransactions)
    (hfresh : ∀ t ∈ d.transactions, t.stateHash ≠ row.stateHash) :
    OidcInv prims config requests ((OidcWrite.insert row).apply d) := by
  have hnew : (⟨row, d.stored.length⟩ : OidcLoginTransaction) ∉ d.stored := by
    intro hmem
    have hnumber := List.mem_map_of_mem (f := (·.number)) hmem
    rw [hd.numbered] at hnumber
    exact Nat.lt_irrefl _ (List.mem_range.mp hnumber)
  refine ⟨?_, ?_, fun t ht => ?_, ?_, hd.bound, hd.logged, hd.once, ?_⟩
  · refine Table.keyed_concat hd.keyed (Table.lookup_eq_none.mpr fun t ht => hfresh t ht)
  · show (d.stored ++ [_]).map _ = List.range (d.stored ++ [_]).length
    rw [List.map_append, hd.numbered, List.length_append, List.length_singleton, List.range_succ]
    rfl
  · rcases ht with ht | ht
    · rcases List.mem_append.mp ht with ht | ht
      · exact List.mem_append_left _ (hd.known t (Or.inl ht))
      · exact List.mem_append_right _ ht
    · exact List.mem_append_left _ (hd.known t (Or.inr ht))
  · show (_ ++ (d.transactions ++ [_])).Nodup
    rw [← List.append_assoc]
    refine List.nodup_append.mpr ⟨hd.parted, List.nodup_singleton _, fun a ha b hb heq => ?_⟩
    obtain rfl := List.mem_singleton.mp hb
    refine hnew (hd.known _ ?_)
    rw [← heq]
    exact (List.mem_append.mp ha).symm
  · have hle := length_pending_le (d := d) hclock
    have happ : ((OidcWrite.insert row).apply d).pending d.clock
        = d.pending d.clock ++ [(⟨row, d.stored.length⟩ : OidcLoginTransaction)].filter
          fun t => d.clock < t.expiresAt := List.filter_append ..
    have hone := List.length_filter_le (fun t => decide (d.clock < t.expiresAt))
      [(⟨row, d.stored.length⟩ : OidcLoginTransaction)]
    show ((((OidcWrite.insert row).apply d).pending d.clock).length : Int) ≤ _
    rw [happ, List.length_append]
    rw [List.length_singleton] at hone
    omega

/-- A row that is consumed is still one that was stored. -/
theorem OidcInv.consume (hd : OidcInv prims config requests d) {t : OidcLoginTransaction}
    (ht : t ∈ d.transactions) {now : DateTime} (hclock : now ≤ d.clock)
    (hmay : MayConsume prims (requests i) t now) :
    OidcInv prims config requests
      { d.without [t.stateHash] with consumed := d.consumed ++ [⟨i, t, now⟩] } := by
  have hw := hd.without [t.stateHash]
  refine ⟨hw.keyed, hw.numbered, fun r hr => ?_, ?_, fun c hc => ?_, fun l hl => ?_, hw.once,
    hw.capacity⟩
  · rcases hr with hr | hr
    · exact hw.known r (Or.inl hr)
    · rw [List.map_append, List.mem_append] at hr
      rcases hr with hr | hr
      · exact hd.known r (Or.inr hr)
      · rw [List.mem_singleton.mp hr]
        exact hd.known t (Or.inl ht)
  · obtain ⟨hconsumed, htable, hapart⟩ := List.nodup_append.mp hd.parted
    show ((d.consumed ++ [_]).map _ ++ (d.without [t.stateHash]).transactions).Nodup
    rw [List.map_append, List.append_assoc]
    refine List.nodup_append.mpr ⟨hconsumed, List.nodup_cons.mpr ⟨fun hmem => ?_,
      htable.sublist List.filter_sublist⟩, fun a ha b hb => hapart a ha b ?_⟩
    · exact (mem_without.mp hmem).2 (List.mem_singleton.mpr rfl)
    · rcases List.mem_cons.mp hb with rfl | hb
      · exact ht
      · exact (mem_without.mp hb).1
  · rcases List.mem_append.mp hc with hc | hc
    · exact hd.bound c hc
    · rw [List.mem_singleton.mp hc]
      exact ⟨hclock, hmay⟩
  · exact ⟨List.mem_append_left _ (hd.logged l hl).1, (hd.logged l hl).2⟩

/-- A session is one more, of a row that had none. -/
theorem OidcInv.login (hd : OidcInv prims config requests d) {l : EntraLogin I κ}
    (hconsumed : l.consumption ∈ d.consumed)
    (hunused : l.transaction ∉ d.logins.map (·.transaction)) (hvalid : Validated prims config l) :
    OidcInv prims config requests { d with logins := d.logins ++ [l] } := by
  refine ⟨hd.keyed, hd.numbered, hd.known, hd.parted, hd.bound, fun l' hl' => ?_, ?_, hd.capacity⟩
  · rcases List.mem_append.mp hl' with hl' | hl'
    · exact hd.logged l' hl'
    · rw [List.mem_singleton.mp hl']
      exact ⟨hconsumed, hvalid⟩
  · show ((d.logins ++ [l]).map _).Nodup
    rw [List.map_append]
    refine List.nodup_append.mpr ⟨hd.once, List.nodup_singleton _, fun a ha b hb heq => ?_⟩
    obtain rfl := List.mem_singleton.mp hb
    rw [show a = l.transaction from heq] at ha
    exact hunused ha

/-- The clock goes on. -/
theorem OidcInv.tick (hd : OidcInv prims config requests d) (t : DateTime) :
    OidcInv prims config requests { d with clock := max d.clock t } := by
  have hclock : d.clock ≤ max d.clock t := Int.le_max_left _ _
  refine ⟨hd.keyed, hd.numbered, hd.known, hd.parted, fun c hc => ?_, hd.logged, hd.once, ?_⟩
  · exact ⟨Int.le_trans (hd.bound c hc).1 hclock, (hd.bound c hc).2⟩
  · have hle := length_pending_le (d := d) hclock
    have hcap := hd.capacity
    show ((d.pending (max d.clock t)).length : Int) ≤ _
    omega

theorem OidcInv.commit (hd : OidcInv prims config requests d)
    (hp : OidcGuar prims config requests i d h p) :
    OidcInv prims config requests ((oidcEngine I κ).applyAll d p) := by
  cases hp with
  | ticks t hp =>
    subst hp
    exact hd.tick t
  | deletes hashes hp =>
    subst hp
    rw [oidc_applyAll_deletes]
    exact hd.without hashes
  | creates hashes row now hp _ clock room fresh =>
    subst hp
    rw [oidc_applyAll_creates]
    exact (hd.without hashes).insert clock room fresh
  | consumes t now hp found clock may =>
    subst hp
    rw [oidc_applyAll_consume hd.keyed found]
    exact hd.consume found clock may
  | logs l hp _ consumed unused valid =>
    subst hp
    exact hd.login consumed unused valid

end Commits

/-- The rule of the logins. -/
def oidcRule (prims : EntraPrimitives γ κ) (config : AppConfig) (requests : I → OidcRequest) :
    Rule I (oidcEngine I κ) where
  inv := OidcInv prims config requests
  guar := OidcGuar prims config requests
  inv_commit := fun hd _ hp => hd.commit hp

/-! ## Assertions that the others keep -/

namespace Oidc

section Programs

variable {prims : EntraPrimitives γ κ} {config : AppConfig} {requests : I → OidcRequest}
variable {i : I} {d d' : OidcStore I κ} {h : List OidcLock} {p : List (OidcWrite I κ)}

/-- What another request commits, seen by one that holds `h`. -/
theorem oidcMoved_of_relies (hd : OidcInv prims config requests d)
    (hr : Relies (oidcRule prims config requests) i h d d') :
    ∃ j h', j ≠ i ∧ OidcMoved j d h' d' ∧ (oidcEngine I κ).Compatible h' h := by
  obtain ⟨j, h', p', hj, hguar, hcov, hcomp, rfl⟩ := hr
  exact ⟨j, h', hj, OidcGuar.moved hd hguar hcov, hcomp⟩

/-- What a start has locked, and the instant it counts at. -/
structure Counting (now : DateTime) (d : OidcStore I κ) (h : List OidcLock) : Prop where
  locked : .capacity ∈ h
  clock : now ≤ d.clock

/-- A start that deletes `hashes` finds at most `n` rows that have not expired. -/
def Counted (now : DateTime) (n : Int) : Assertion (OidcStore I κ) (OidcWrite I κ) OidcLock :=
  fun d h p => Counting now d h ∧ ∃ hashes : List String, p = hashes.map .delete
    ∧ (((d.without hashes).pending now).length : Int) ≤ n

/-- It has inserted its row. -/
def Created (row : NewOidcLoginTransaction) : Assertion (OidcStore I κ) (OidcWrite I κ) OidcLock :=
  fun d h p => ∃ (now : DateTime) (hashes : List String), Counting now d h
    ∧ p = hashes.map .delete ++ [.insert row]
    ∧ (((d.without hashes).pending now).length : Int) < maxPendingOidcTransactions
    ∧ ∀ t ∈ (d.without hashes).transactions, t.stateHash ≠ row.stateHash

/-- A callback has deleted a row. -/
def Consuming (i : I) (c : OidcConsumption I) :
    Assertion (OidcStore I κ) (OidcWrite I κ) OidcLock :=
  fun d h p => p = [.consume i c.transaction.stateHash c.now] ∧ c.transaction ∈ d.transactions
    ∧ .key c.transaction.stateHash ∈ h ∧ c.now ≤ d.clock

/-- A row was consumed, and no session has come of it. -/
def Unspent (c : OidcConsumption I) : Assertion (OidcStore I κ) (OidcWrite I κ) OidcLock :=
  fun d _ p => p = [] ∧ c ∈ d.consumed ∧ c.transaction ∉ d.logins.map (·.transaction)

/-- While a start holds the capacity, rows only go. -/
theorem Counting.moved {now : DateTime} (hc : Counting now d h) {j : I} {h' : List OidcLock}
    (hm : OidcMoved j d h' d') (hcomp : (oidcEngine I κ).Compatible h' h) :
    Counting now d' h ∧ ∀ hashes, (d'.without hashes).transactions.Sublist
      (d.without hashes).transactions :=
  ⟨⟨hc.locked, Int.le_trans hc.clock hm.clock⟩, fun _ =>
    (hm.rows fun hcap => (hcomp _ hcap _ hc.locked).1 rfl).filter _⟩

theorem stable_empty : Stable (oidcRule prims config requests) i fun _ _ p => p = [] :=
  fun _ _ _ _ _ hp _ => hp

theorem stable_counting (now : DateTime) :
    Stable (oidcRule prims config requests) i fun d h p => p = [] ∧ Counting now d h := by
  rintro d d' h p hd ⟨hp, hc⟩ hr
  obtain ⟨j, h', -, hm, hcomp⟩ := oidcMoved_of_relies hd hr
  exact ⟨hp, (hc.moved hm hcomp).1⟩

theorem stable_counted (now : DateTime) (n : Int) :
    Stable (oidcRule prims config requests) i (Counted now n) := by
  rintro d d' h p hd ⟨hc, hashes, hp, hn⟩ hr
  obtain ⟨j, h', -, hm, hcomp⟩ := oidcMoved_of_relies hd hr
  obtain ⟨hc', hsub⟩ := hc.moved hm hcomp
  have hle := ((hsub hashes).filter fun t => now < t.expiresAt).length_le
  refine ⟨hc', hashes, hp, ?_⟩
  show ((((d'.without hashes).transactions.filter fun t => now < t.expiresAt).length : Nat) : Int) ≤ n
  exact Int.le_trans (Int.ofNat_le.mpr hle) hn

theorem stable_created (row : NewOidcLoginTransaction) :
    Stable (oidcRule prims config requests) i (Created row) := by
  rintro d d' h p hd ⟨now, hashes, hc, hp, hroom, hfresh⟩ hr
  obtain ⟨j, h', -, hm, hcomp⟩ := oidcMoved_of_relies hd hr
  obtain ⟨hc', hsub⟩ := hc.moved hm hcomp
  have hle := ((hsub hashes).filter fun t => now < t.expiresAt).length_le
  refine ⟨now, hashes, hc', hp, ?_, fun t ht => hfresh t ((hsub hashes).subset ht)⟩
  exact Int.lt_of_le_of_lt (Int.ofNat_le.mpr hle) hroom

theorem stable_consuming (c : OidcConsumption I) :
    Stable (oidcRule prims config requests) i (Consuming i c) := by
  rintro d d' h p hd ⟨hp, hfound, hlocked, hclock⟩ hr
  obtain ⟨j, h', -, hm, hcomp⟩ := oidcMoved_of_relies hd hr
  exact ⟨hp, hm.kept _ hfound fun hkey => (hcomp _ hkey _ hlocked).1 rfl, hlocked,
    Int.le_trans hclock hm.clock⟩

/-- Only the request that consumed a row makes a session of it. -/
theorem stable_unspent {c : OidcConsumption I} (hc : c.request = i) :
    Stable (oidcRule prims config requests) i (Unspent c) := by
  rintro d d' h p hd ⟨hp, hconsumed, hunused⟩ hr
  obtain ⟨j, h', hj, hm, -⟩ := oidcMoved_of_relies hd hr
  refine ⟨hp, hm.consumed c hconsumed, fun hmem => ?_⟩
  obtain ⟨l, hl, heq⟩ := List.mem_map.mp hmem
  rcases hm.logins l hl with hl | ⟨hreq, hl⟩
  · exact hunused (List.mem_map.mpr ⟨l, hl, heq⟩)
  · have hsame : l.consumption = c :=
      List.inj_on_of_nodup_map (List.nodup_append.mp hd.parted).1 hl hconsumed heq
    exact hj (by rw [← hreq, hsame, hc])

/-! ## Starts -/

/-- What a start has done, by what it returns. -/
def Started (result : Option NewOidcLoginTransaction) :
    Assertion (OidcStore I κ) (OidcWrite I κ) OidcLock :=
  fun d h p => result.elim (∃ hashes : List String, p = hashes.map .delete) fun row => Created row d h p

theorem stable_deletes :
    Stable (oidcRule prims config requests) i fun _ _ p => ∃ hashes : List String,
      p = hashes.map .delete :=
  fun _ _ _ _ _ hp _ => hp

theorem stable_started (result : Option NewOidcLoginTransaction) :
    Stable (oidcRule prims config requests) i (Started result) := by
  cases result with
  | none => exact stable_deletes
  | some row => exact stable_created row

/-- The instant a start has read stays past. -/
theorem stable_past (now : DateTime) :
    Stable (oidcRule prims config requests) i fun d _ p => p = [] ∧ now ≤ d.clock := by
  rintro d d' h p hd ⟨hp, hclock⟩ hr
  obtain ⟨j, h', -, hm, -⟩ := oidcMoved_of_relies hd hr
  exact ⟨hp, Int.le_trans hclock hm.clock⟩

/-- The `DELETE` of what has expired. -/
theorem deletes_eq (d : OidcStore I κ) (now : DateTime) :
    ((d.transactions.filter fun t => t.expiresAt ≤ now).map fun t => OidcWrite.delete t.stateHash)
      = (((d.transactions.filter fun t => t.expiresAt ≤ now).map (·.stateHash)).map .delete :
        List (OidcWrite I κ)) := by
  rw [List.map_map]
  rfl

/-- The `COUNT`. -/
theorem wp_countPending {Q : Int → Assertion (OidcStore I κ) (OidcWrite I κ) OidcLock}
    {now : DateTime} (hQ : ∀ n d h p, OidcInv prims config requests d → Counted now n d h p → Q n d h p)
    (hd : OidcInv prims config requests d) {hashes : List String} (hc : Counting now d h) :
    Tx.wp (oidcRule prims config requests) i (countPending now) Q d h (hashes.map .delete) := by
  have hstable : Stable (oidcRule prims config requests) i fun d h p =>
      p = hashes.map .delete ∧ Counting now d h := by
    rintro d d' h p hd ⟨hp, hc⟩ hr
    obtain ⟨j, h', -, hm, hcomp⟩ := oidcMoved_of_relies hd hr
    exact ⟨hp, (hc.moved hm hcomp).1⟩
  refine Tx.wp_query i hstable (fun c d h p hd hp => hQ _ d h p hd ?_) hd ⟨rfl, hc⟩
  obtain ⟨rfl, hc⟩ := hp
  rw [oidc_applyAll_deletes]
  exact ⟨hc, hashes, rfl, Int.le_refl _⟩

/-- The `INSERT`, where there is room. -/
theorem wp_insertTransaction {row : NewOidcLoginTransaction} {now : DateTime} {n : Int}
    (hn : n < maxPendingOidcTransactions) (hd : OidcInv prims config requests d)
    (hc : Counted now n d h p) :
    Tx.wp (oidcRule prims config requests) i (insertTransaction row) Started d h p := by
  refine Tx.wp_statement i (stable_counted now n) (fun c d h p result hd hc hres => ?_) hd hc
  obtain ⟨hc, hashes, rfl, hcount⟩ := hc
  rw [oidc_applyAll_deletes] at hres
  split at hres
  · cases hres
  · next hfree =>
    obtain rfl := Option.some.inj hres
    refine ⟨now, hashes, ⟨List.mem_append_left _ hc.locked, hc.clock⟩, rfl,
      Int.lt_of_le_of_lt hcount hn, fun t ht heq => hfree ?_⟩
    exact List.any_eq_true.mpr ⟨t, ht, decide_eq_true heq⟩

/-- **A start, from its lock to its row.** -/
theorem wp_createBounded {row : NewOidcLoginTransaction} {now : DateTime}
    (hd : OidcInv prims config requests d) (hclock : now ≤ d.clock) :
    Tx.wp (oidcRule prims config requests) i (createBounded row now maxPendingOidcTransactions)
      Started d h [] := by
  unfold createBounded
  rw [Tx.wp_bind]
  refine Tx.wp_statement i (stable_past now) (fun c d h p _ hd hp _ => ?_) hd ⟨rfl, hclock⟩
  rw [Tx.wp_bind]
  refine Tx.wp_statement i (stable_counting now) (fun c d h p _ hd hp _ => ?_) hd
    ⟨by simp [hp.1], by simp [Engine.wanted], hp.2⟩
  obtain ⟨rfl, hc⟩ := hp
  rw [Tx.wp_bind, Engine.applyAll_nil, List.nil_append, deletes_eq]
  refine wp_countPending (fun n d h p hd hcounted => ?_) hd
    ⟨List.mem_append_left _ hc.locked, hc.clock⟩
  split
  · obtain ⟨-, hashes, rfl, -⟩ := hcounted
    exact ⟨hashes, rfl⟩
  · next hroom => exact wp_insertTransaction (by omega) hd hcounted

theorem Started.guar {result : Option NewOidcLoginTransaction} (hs : Started result d h p) :
    OidcGuar prims config requests i d h p := by
  cases result with
  | none =>
    obtain ⟨hashes, rfl⟩ := hs
    exact .deletes hashes rfl
  | some row =>
    obtain ⟨now, hashes, hc, rfl, hroom, hfresh⟩ := hs
    exact .creates hashes row now rfl hc.locked hc.clock hroom hfresh

theorem sound_startEntraLogin (returnTo : Option String) :
    Sound (oidcRule prims config requests) i (startEntraLogin prims config returnTo) := by
  unfold startEntraLogin
  split
  · exact sound_done i
  · intro d hd
    refine Safe.ask i stable_empty (fun c d h p hd hp => ?_) hd rfl
    subst hp
    split
    · trivial
    · exact Safe.run i (fun _ => sound_done i) (sound_done i) stable_started
        (fun _ d h p _ hs => hs.guar) hd (fun _ hw => (List.not_mem_nil hw).elim)
        (wp_createBounded hd (Int.le_refl _))

/-! ## Callbacks -/

/-- The session of a row that is the request's, and has none. -/
theorem safe_establishSession {l : EntraLogin I κ} (hown : l.consumption.request = i)
    (hvalid : Validated prims config l) (hd : OidcInv prims config requests d)
    (hu : Unspent l.consumption d h []) :
    Safe (oidcRule prims config requests) i ((establishSession l).run (fun _ => .done) .done) d h []
    := by
  have hstable : Stable (oidcRule prims config requests) i fun d h p =>
      p = [.login l] ∧ Unspent l.consumption d h [] := by
    rintro d d' h p hd ⟨hp, hu⟩ hr
    exact ⟨hp, stable_unspent hown d d' h [] hd hu hr⟩
  refine Safe.run i (fun _ => sound_done i) (sound_done i)
    (Q := fun _ d h p => p = [.login l] ∧ Unspent l.consumption d h []) (fun _ => hstable)
    (fun _ d h p _ hp => ?_) hd (fun _ hw => (List.not_mem_nil hw).elim) ?_
  · obtain ⟨rfl, -, hconsumed, hunused⟩ := hp
    exact .logs l rfl hown hconsumed hunused hvalid
  · refine Tx.wp_statement i (stable_unspent hown) (fun c d h p _ hd hp _ => ?_) hd hu
    obtain ⟨rfl, hu⟩ := hp
    exact ⟨rfl, rfl, hu⟩

/-- A callback that has consumed a row. -/
theorem safe_finishConsumed {entra : EntraSettings} (hentra : config.entra = some entra)
    {query : EntraCallbackQuery} {consumption : OidcConsumption I} (hown : consumption.request = i)
    (hd : OidcInv prims config requests d) (hu : Unspent consumption d h []) :
    Safe (oidcRule prims config requests) i (finishConsumed prims entra query consumption) d h []
    := by
  have hstable : Stable (oidcRule prims config requests) i (Unspent consumption) :=
    stable_unspent hown
  unfold finishConsumed
  split
  · trivial
  refine Safe.ask i hstable (fun c d h p hd hu => ?_) hd hu
  split
  · trivial
  refine Safe.ask i hstable (fun c d h p hd hu => ?_) hd hu
  split
  · trivial
  split
  · trivial
  next hclaims =>
  refine Safe.ask i hstable (fun c d h p hd hu => ?_) hd hu
  split
  · trivial
  obtain rfl := hu.1
  exact safe_establishSession hown ⟨entra, hentra, hclaims⟩ hd hu

/-- The `DELETE … RETURNING`, and what it returns. -/
theorem wp_consume {state binding : String} {query : EntraCallbackQuery} {cookie : Option String}
    (hreq : requests i = .finish query cookie) (hstate : query.state = some state)
    (hcookie : cookie = some binding) {now : DateTime} (hd : OidcInv prims config requests d)
    (hclock : now ≤ d.clock) :
    Tx.wp (oidcRule prims config requests) i
      (consume i (sha256Hex prims state) (sha256Hex prims binding) now)
      (fun c d h p => c.request = i ∧ MayConsume prims (requests i) c.transaction c.now
        ∧ Consuming i c d h p) d h [] := by
  refine Tx.wp_statement i (stable_past now) (fun c d h p consumption hd hp hres => ?_) hd
    ⟨rfl, hclock⟩
  obtain ⟨rfl, hclock⟩ := hp
  obtain ⟨t, hfind, rfl⟩ := Option.map_eq_some_iff.mp hres
  have hmatch := List.find?_some hfind
  simp only [Bool.and_eq_true, decide_eq_true_eq] at hmatch
  rw [hfind]
  exact ⟨rfl, ⟨query, cookie, state, binding, hreq, hstate, hcookie, hmatch.1.1.symm,
    hmatch.1.2.symm, hmatch.2⟩, rfl, List.mem_of_find?_eq_some hfind,
    List.mem_append_right _ (List.mem_singleton.mpr rfl), hclock⟩

/-- A row that was just consumed is the request's, and no session has come of it. -/
theorem Consuming.unspent {c : OidcConsumption I} (hc : Consuming i c d h p)
    (hown : c.request = i) (hd : OidcInv prims config requests d) :
    Unspent c ((oidcEngine I κ).applyAll d p) [] [] := by
  obtain ⟨rfl, hfound, -, -⟩ := hc
  rw [oidc_applyAll_consume hd.keyed hfound]
  refine ⟨rfl, List.mem_append_right _ (List.mem_singleton.mpr ?_), fun hmem => ?_⟩
  · rw [← hown]
  · obtain ⟨l, hl, heq⟩ := List.mem_map.mp hmem
    have hspent : c.transaction ∈ d.consumed.map (·.transaction) :=
      List.mem_map.mpr ⟨l.consumption, (hd.logged l hl).1, heq⟩
    exact (List.nodup_append.mp hd.parted).2.2 _ hspent _ hfound rfl

theorem sound_finishEntraLogin {query : EntraCallbackQuery} {cookie : Option String}
    (hreq : requests i = .finish query cookie) :
    Sound (oidcRule prims config requests) i (finishEntraLogin prims config i query cookie) := by
  unfold finishEntraLogin
  split
  · next entra state binding hentra hstate hbinding =>
    intro d hd
    refine Safe.ask i stable_empty (fun c d h p hd hp => ?_) hd rfl
    subst hp
    refine Safe.runThen i (sound_done i) (fun c => ?_) (fun c d h p hd hcov hp => ?_) hd
      (fun _ hw => (List.not_mem_nil hw).elim)
      (wp_consume hreq (Option.eq_some_of_filter_eq_some hstate)
        (Option.eq_some_of_filter_eq_some hbinding) hd (Int.le_refl _))
    · rintro d d' h p hd ⟨hown, hmay, hcons⟩ hr
      exact ⟨hown, hmay, stable_consuming c d d' h p hd hcons hr⟩
    · obtain ⟨hown, hmay, hcons⟩ := hp
      have hguar : OidcGuar prims config requests i d h p :=
        .consumes c.transaction c.now hcons.1 hcons.2.1 hcons.2.2.2 hmay
      exact ⟨hguar, safe_finishConsumed hentra hown (hd.commit hguar) (hcons.unspent hown hd)⟩
  · exact sound_done i

/-! ## All requests together -/

theorem sound_program {request : OidcRequest} (hreq : requests i = request) :
    Sound (oidcRule prims config requests) i (request.program prims config i) := by
  cases request with
  | start returnTo => exact sound_startEntraLogin returnTo
  | finish query cookie => exact sound_finishEntraLogin hreq
  | cleanup =>
    intro d hd
    refine Safe.ask i stable_empty (fun c d h p hd hp => ?_) hd rfl
    subst hp
    refine Safe.run i (fun _ => sound_done i) (sound_done i)
      (Q := fun _ _ _ p => ∃ hashes : List String, p = hashes.map .delete) (fun _ => stable_deletes)
      (fun _ _ _ _ _ ⟨hashes, hp⟩ => .deletes hashes hp) hd
      (fun _ hw => (List.not_mem_nil hw).elim) ?_
    refine Tx.wp_statement i stable_empty (fun c d h p _ hd hp _ => ?_) hd rfl
    subst hp
    exact ⟨_, deletes_eq d _⟩
  | tick t =>
    refine Sound.run i (fun _ => sound_done i) (sound_done i) (Q := fun _ _ _ p => p = [.tick t])
      (fun _ _ _ _ _ _ hp _ => hp) (fun _ _ _ _ _ hp => .ticks t hp) fun d hd => ?_
    refine Tx.wp_statement i stable_empty (fun c d h p _ hd hp _ => ?_) hd rfl
    subst hp
    rfl

theorem oidcInv_empty (clock : DateTime) :
    OidcInv prims config requests (OidcStore.empty clock : OidcStore I κ) where
  keyed := List.nodup_nil
  numbered := rfl
  known := fun _ ht => by simp [OidcStore.empty] at ht
  parted := List.nodup_nil
  bound := fun _ hc => (List.not_mem_nil hc).elim
  logged := fun _ hl => (List.not_mem_nil hl).elim
  once := List.nodup_nil
  capacity := by
    show ((0 : Nat) : Int) ≤ 10000
    decide

theorem ok_oidcWorld (clock : DateTime) :
    (oidcWorld prims config requests clock).Ok (oidcRule prims config requests) where
  inv := oidcInv_empty clock
  safe := fun _ => sound_program rfl _ (oidcInv_empty clock)
  covered := fun _ _ hw => (List.not_mem_nil hw).elim
  compatible := fun _ _ _ => Engine.compatible_nil _ _

end Programs

end Oidc

/-! ## One session for each login -/

section OneShot

variable (prims : EntraPrimitives γ κ) (config : AppConfig) (requests : I → OidcRequest)

/-- **What a session of a callback rests on**: the callback may consume the row, at an instant that is
past, and its token is valid for the nonce of that row. -/
def RestsOn (d : OidcStore I κ) (l : EntraLogin I κ) : Prop :=
  l.transaction ∈ d.stored ∧ l.consumption.now ≤ d.clock
    ∧ MayConsume prims (requests l.consumption.request) l.transaction l.consumption.now
    ∧ Validated prims config l

/-- **A row is used up**: it is not in the table, no other request has consumed it, and no session came
of it. -/
def UsedUp (d : OidcStore I κ) (c : OidcConsumption I) : Prop :=
  c.transaction ∉ d.transactions ∧ (∀ c' ∈ d.consumed, c'.transaction = c.transaction → c' = c)
    ∧ c.transaction ∉ d.logins.map (·.transaction)

variable [DecidableEq I] {requests}

/-- **A login transaction is used once.**  Whatever the requests are and however they interleave, each
row that was stored leads to one session at most, of a callback that brings its state, its cookie and
a token for its nonce before it expires; a callback that has consumed a row and ends without a session
leaves it used up; and never more than `MAX_PENDING_OIDC_TRANSACTIONS` rows are there that have not
expired. -/
theorem oidc_login_one_shot (clock : DateTime)
    {w : World I (OidcDraw κ) (OidcStore I κ) (OidcWrite I κ) OidcLock}
    (hw : Reachable (oidcEngine I κ) (fun _ _ => False) (oidcWorld prims config requests clock) w) :
    (w.db.stored.Nodup ∧ (w.db.logins.map (·.transaction)).Nodup)
    ∧ (∀ l ∈ w.db.logins, RestsOn prims config requests w.db l)
    ∧ (∀ c ∈ w.db.consumed, (w.session c.request).prog = .done →
      c.transaction ∉ w.db.logins.map (·.transaction) → ∀ w',
        Reachable (oidcEngine I κ) (fun _ _ => False) w w' → UsedUp w'.db c)
    ∧ ((w.db.pending w.db.clock).length : Int) ≤ maxPendingOidcTransactions := by
  have hstarts : ∀ (i : I) (q : OidcProgram I κ), False →
      Sound (oidcRule prims config requests) i q := fun _ _ h => h.elim
  have hok := sound hstarts (Oidc.ok_oidcWorld clock) hw
  have hinv : OidcInv prims config requests w.db := hok.inv
  refine ⟨⟨?_, hinv.once⟩, fun l hl => ?_, fun c hc hdone hnone w' hw' => ?_, hinv.capacity⟩
  · refine List.Nodup.of_map (·.number) ?_
    rw [hinv.numbered]
    exact List.nodup_range
  · obtain ⟨hconsumed, hvalid⟩ := hinv.logged l hl
    obtain ⟨hclock, hmay⟩ := hinv.bound _ hconsumed
    exact ⟨hinv.known _ (Or.inr (List.mem_map_of_mem hconsumed)), hclock, hmay, hvalid⟩
  · have hinv' : OidcInv prims config requests w'.db := (sound hstarts hok hw').inv
    obtain ⟨-, -, hconsumed, hunused⟩ := Stable.outlives hstarts (fun _ h => h)
      (Oidc.stable_unspent (c := c) rfl) hok hdone ⟨rfl, hc, hnone⟩ hw'
    obtain ⟨honce, -, hapart⟩ := List.nodup_append.mp hinv'.parted
    refine ⟨fun htable => ?_, fun c' hc' heq => ?_, hunused⟩
    · exact hapart _ (List.mem_map_of_mem hconsumed) _ htable rfl
    · exact List.inj_on_of_nodup_map honce hc' hconsumed heq

end OneShot

namespace Sample

/-- A provider whose tokens are all for the nonce `n`, and ciphers that hide nothing. -/
def plainPrimitives : EntraPrimitives Unit Unit where
  parsers := ⟨fun _ => none, some⟩
  digest := id
  newFromSlice := fun _ => some ()
  encrypt := fun _ _ plaintext _ => some plaintext
  decrypt := fun _ _ ciphertext _ => some ciphertext
  encode := fun bytes => String.ofList (bytes.map fun b => Char.ofNat b.toNat)
  decodeBase64 := fun text => some text.toUTF8.toList
  tokenResponse := fun _ => some "header.claims.signature"
  decodeHeader := fun _ => some ⟨.rs256, some "kid"⟩
  decode := fun _ _ _ _ => some ⟨"sub", "tenant", "object", some "2.0", some "n", .one "client", none,
    some 1, [], some "alice@x", none, none⟩

theorem transactionTtl_between : (60 : Int) ≤ 600 ∧ (600 : Int) ≤ 1800 := by decide

theorem jwksCache_between : (30 : Int) ≤ 300 ∧ (300 : Int) ≤ 86400 := by decide

theorem clockSkew_between : (1 : Int) ≤ 120 ∧ (120 : Int) ≤ 300 := by decide

theorem fiveFailures_positive : 0 < (5 : Int) ∧ (5 : Int) ≤ i32Max := by decide

theorem tenFailures_positive : 0 < (10 : Int) ∧ (10 : Int) ≤ i32Max := by decide

theorem fiveMinutes_positive : 0 < (300 : Int) ∧ (300 : Int) ≤ i64Max := by decide

theorem hour_positive : 0 < (3600 : Int) ∧ (3600 : Int) ≤ i64Max := by decide

theorem fiveSessions_between : (1 : Int) ≤ 5 ∧ (5 : Int) ≤ 100 := by decide

theorem five_twice : (5 : Int) * 2 ≤ 10 := by decide

def entraSettings : EntraSettings where
  issuer := "issuer"
  jitProvisioning := true
  tenantId := "tenant"
  clientId := "client"
  clientSecret := none
  transactionKey := "key"
  redirectUri := "https://portal.test/auth/entra/callback"
  authorizationUrl := "https://provider.test/authorize"
  tokenUrl := "https://provider.test/token"
  jwksUrl := "https://provider.test/keys"
  requiredRole := none
  transactionTtlSeconds := ⟨600, transactionTtl_between⟩
  jwksCacheSeconds := ⟨300, jwksCache_between⟩
  clockSkewSeconds := ⟨120, clockSkew_between⟩

def entraConfig : AppConfig where
  maxFailures := ⟨5, fiveFailures_positive⟩
  accountMaxFailures := ⟨10, tenFailures_positive⟩
  windowSeconds := ⟨300, fiveMinutes_positive⟩
  lockoutSeconds := ⟨300, fiveMinutes_positive⟩
  twice := five_twice
  environment := "development"
  authTokenTtlSeconds := ⟨3600, hour_positive⟩
  authMaxActiveSessionsPerUser := ⟨5, fiveSessions_between⟩
  authCookieSecure := false
  authPasswordLoginEnabled := true
  entra := some entraSettings

/-- A start with the state `s` and the cookie `b`, and a callback that brings them. -/
def startAndFinish : Bool → OidcRequest
  | false => .start none
  | true => .finish ⟨some "code", some "s", none⟩ (some "b")

/-- One draw for all of their statements. -/
def oidcDraw : OidcDraw Unit where
  state := [0x73]
  browserBinding := [0x62]
  nonce := [0x6e]
  pkceVerifier := [0x76]
  cipherNonce := List.replicate 12 0x78
  tokenEndpoint := fun _ => .response true none []
  decodingKey := fun _ => .ok ()
  portalUser := fun _ => .ok ⟨1, "alice", "hash"⟩

abbrev BoolWorld : Type := World Bool (OidcDraw Unit) (OidcStore Bool Unit) (OidcWrite Bool Unit) OidcLock

/-- The start has run. -/
def worldStarted : BoolWorld :=
  (oidcWorld plainPrimitives entraConfig startAndFinish 1000000).advance (oidcEngine Bool Unit) false
    (List.replicate 6 oidcDraw)

/-- Then the callback. -/
def worldFinished : BoolWorld :=
  worldStarted.advance (oidcEngine Bool Unit) true (List.replicate 8 oidcDraw)

theorem reachable_worldFinished :
    Reachable (oidcEngine Bool Unit) (fun _ _ => False)
      (oidcWorld plainPrimitives entraConfig startAndFinish 1000000) worldFinished := by
  refine reachable_advance (reachable_advance .refl (fun j hj h => ?_) _) (fun j hj h => ?_) _
  · exact (Engine.compatible_nil _ _).symm
  · cases j with
    | false => exact (Engine.compatible_nil _ _).symm
    | true => exact (hj rfl).elim

end Sample

/-- The callback of a start has its session, and the row is gone. -/
theorem oidc_login_alice :
    Sample.worldFinished.db.logins.map (fun l => (l.transaction.nonce, l.user.id)) = [("n", 1)]
    ∧ Sample.worldFinished.db.transactions = []
    ∧ (Sample.worldFinished.db.logins.map (·.transaction)).Nodup := by
  refine ⟨by decide +kernel, by decide +kernel, ?_⟩
  exact (oidc_login_one_shot Sample.plainPrimitives Sample.entraConfig 1000000
    Sample.reachable_worldFinished).1.2

end DevPortal
