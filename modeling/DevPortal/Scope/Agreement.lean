import DevPortal.Imports.Isolation
import DevPortal.Machinery.RelyGuarantee
import DevPortal.Scope.Sessions

/-!
# Scope/Agreement — when a record has the scope of its connector

    an import     reads scope of c ─────────────────────▸ INSERT with the scope it read ▸ COMMIT
    update_scope        lock c ▸ new scope ▸ sweep ▸ COMMIT

The sweep does not see a row that is inserted after it, and a row that is written back after it gets
its old scope again.  As long as no `update_scope` of a connector overlaps with a transaction that
has read the connector's scope (`overlap`), every commit keeps the two in agreement; the database
does not see to that.
-/

namespace DevPortal

open Transaction

/-! ## Agreement -/

/-- The owner and the maintainer. -/
def Connector.audience (c : Connector) : Option Nat × Option Nat := (c.ownerUserId, c.maintainerId)

def NewRecord.audience {β : Type} (r : NewRecord β) : Option Nat × Option Nat :=
  (r.ownerUserId, r.maintainerId)

def Scope.audience (s : Scope) : Option Nat × Option Nat := (s.ownerUserId, s.maintainerId)

/-- **Every record of a connector has its owner and its maintainer.** -/
def ScopesAgree (d : ScopeStore) : Prop :=
  ∀ t, ∀ r ∈ d.records t, ∀ c ∈ d.connectors, r.connectorId = some c.id → r.audience = c.audience

/-- The invariant of the tables. -/
structure ScopeInv (d : ScopeStore) : Prop where
  keyed : Table.Keyed (fun c : Connector => c.id) d.connectors
  agree : ScopesAgree d

/-- A session has read the scope of the connector, and another one changes it. -/
def overlap : ScopeLock → ScopeLock → Prop
  | .reads c, .rescopes c' => c = c'
  | _, _ => False

/-- The database of the runs in which these do not overlap. -/
abbrev apartEngine : Engine ScopeStore ScopeWrite ScopeLock := scopeEngine.excluding overlap

theorem not_overlap_of_compatible {h h' : List ScopeLock} (hc : apartEngine.Compatible h h')
    {c : Nat} (hw : .rescopes c ∈ h) (hr : .reads c ∈ h') : False :=
  (hc _ hw _ hr).2 (Or.inr rfl)

/-! ## One write -/

namespace ScopeStore

variable (d : ScopeStore) {t t' : RecordTarget}
  (f : List (Record t.Content) → List (Record t.Content))

@[simp] theorem records_modify_self : (d.modify t f).records t = f (d.records t) :=
  Function.update_self ..

theorem records_modify_of_ne (h : t' ≠ t) : (d.modify t f).records t' = d.records t' :=
  Function.update_of_ne h ..

@[simp] theorem connectors_modify : (d.modify t f).connectors = d.connectors := rfl

end ScopeStore

/-- The connector and the scope of the record that a write stores. -/
def ScopeWrite.copied : ScopeWrite → Option (Option Nat × (Option Nat × Option Nat))
  | insert _ row => some (row.connectorId, row.audience)
  | update _ _ new _ => some (new.connectorId, new.audience)
  | _ => none

namespace ScopeWrite

/-- A connector has the scope it had, or the one it was given. -/
theorem connector_back {x : ScopeWrite} {d : ScopeStore} {k' : Connector}
    (hk' : k' ∈ (x.apply d).connectors) :
    ∃ k ∈ d.connectors, k.id = k'.id
      ∧ (k'.audience = k.audience ∨ ∃ s now, x = .setScope k'.id s now ∧ k'.audience = s.audience) := by
  cases x with
  | setScope id s now =>
    obtain ⟨k, hk, rfl⟩ := Table.mem_update.mp hk'
    refine ⟨k, hk, ?_⟩
    split
    · next h =>
      obtain rfl : k.id = id := by simpa using h
      exact ⟨rfl, Or.inr ⟨s, now, rfl, rfl⟩⟩
    · exact ⟨rfl, Or.inl rfl⟩
  | touch id status finishedAt now =>
    obtain ⟨k, hk, rfl⟩ := Table.mem_update.mp hk'
    refine ⟨k, hk, ?_⟩
    split <;> exact ⟨rfl, Or.inl rfl⟩
  | insert | update | archive | rescope => exact ⟨k', hk', rfl, Or.inl rfl⟩

/-- A row has the id, the connector and the scope it had, or is rescoped, or was just stored. -/
theorem record_back {x : ScopeWrite} {d : ScopeStore} {t : RecordTarget} {r' : Record t.Content}
    (hr' : r' ∈ (x.apply d).records t) :
    (∃ r ∈ d.records t, r.id = r'.id ∧ r.connectorId = r'.connectorId
      ∧ (r'.audience = r.audience ∨ ∃ c s now, x = .rescope t r'.id c s now
        ∧ r'.connectorId = some c ∧ r'.audience = s.audience))
      ∨ x.copied = some (r'.connectorId, r'.audience) := by
  cases x with
  | setScope | touch => exact Or.inl ⟨r', hr', rfl, rfl, Or.inl rfl⟩
  | insert t₁ row =>
    rcases eq_or_ne t t₁ with rfl | ht
    · rw [apply, ScopeStore.records_modify_self] at hr'
      rcases List.mem_append.mp hr' with hr' | hr'
      · exact Or.inl ⟨r', hr', rfl, rfl, Or.inl rfl⟩
      · obtain rfl := List.mem_singleton.mp hr'
        exact Or.inr rfl
    · rw [apply, ScopeStore.records_modify_of_ne d _ ht] at hr'
      exact Or.inl ⟨r', hr', rfl, rfl, Or.inl rfl⟩
  | update t₁ id new now =>
    rcases eq_or_ne t t₁ with rfl | ht
    · rw [apply, ScopeStore.records_modify_self] at hr'
      obtain ⟨r, hr, rfl⟩ := Table.mem_update.mp hr'
      split
      · exact Or.inr rfl
      · exact Or.inl ⟨r, hr, rfl, rfl, Or.inl rfl⟩
    · rw [apply, ScopeStore.records_modify_of_ne d _ ht] at hr'
      exact Or.inl ⟨r', hr', rfl, rfl, Or.inl rfl⟩
  | archive t₁ id now =>
    rcases eq_or_ne t t₁ with rfl | ht
    · rw [apply, ScopeStore.records_modify_self] at hr'
      obtain ⟨r, hr, rfl⟩ := Table.mem_update.mp hr'
      refine Or.inl ⟨r, hr, ?_⟩
      split <;> exact ⟨rfl, rfl, Or.inl rfl⟩
    · rw [apply, ScopeStore.records_modify_of_ne d _ ht] at hr'
      exact Or.inl ⟨r', hr', rfl, rfl, Or.inl rfl⟩
  | rescope t₁ id c s now =>
    rcases eq_or_ne t t₁ with rfl | ht
    · rw [apply, ScopeStore.records_modify_self] at hr'
      obtain ⟨r, hr, rfl⟩ := Table.mem_update.mp hr'
      refine Or.inl ⟨r, hr, ?_⟩
      split
      · next h =>
        obtain ⟨rfl, hc⟩ : r.id = id ∧ r.connectorId = some c := by simpa using h
        exact ⟨rfl, rfl, Or.inr ⟨c, s, now, rfl, hc, rfl⟩⟩
      · exact ⟨rfl, rfl, Or.inl rfl⟩
    · rw [apply, ScopeStore.records_modify_of_ne d _ ht] at hr'
      exact Or.inl ⟨r', hr', rfl, rfl, Or.inl rfl⟩

theorem audience_setScope {d : ScopeStore} {c : Nat} {s : Scope} {now : DateTime} {k' : Connector}
    (hk' : k' ∈ ((setScope c s now).apply d).connectors) (hid : k'.id = c) :
    k'.audience = s.audience := by
  obtain ⟨k, hk, rfl⟩ := Table.mem_update.mp hk'
  split at hid
  · next h => rw [if_pos h]; rfl
  · next h => exact (h (by simpa using hid)).elim

theorem audience_rescope {d : ScopeStore} {t : RecordTarget} {c : Nat} {s : Scope} {now : DateTime}
    {r' : Record t.Content} (hr' : r' ∈ ((rescope t r'.id c s now).apply d).records t)
    (hc : r'.connectorId = some c) : r'.audience = s.audience := by
  rw [apply, ScopeStore.records_modify_self] at hr'
  obtain ⟨r, hr, he⟩ := Table.mem_update.mp hr'
  split at he
  · rw [← he]; rfl
  · next h =>
    rw [he] at h
    exact (h (by simp [hc])).elim

theorem keyed_apply (x : ScopeWrite) {d : ScopeStore}
    (h : Table.Keyed (fun c : Connector => c.id) d.connectors) :
    Table.Keyed (fun c : Connector => c.id) (x.apply d).connectors := by
  cases x with
  | setScope | touch =>
    refine Table.keyed_update ?_ h
    exact fun _ => rfl
  | insert | update | archive | rescope => exact h

end ScopeWrite

/-! ## What is read stays current -/

/-- The scope was read from the connector, if there is one, and is still its scope. -/
def Current (connectorId : Option Nat) (audience : Option Nat × Option Nat) (d : ScopeStore)
    (h : List ScopeLock) : Prop :=
  ∀ c, connectorId = some c → .reads c ∈ h ∧ ∀ k ∈ d.connectors, k.id = c → k.audience = audience

theorem Current.mono {connectorId : Option Nat} {audience : Option Nat × Option Nat}
    {d : ScopeStore} {h h' : List ScopeLock} (hh : ∀ k ∈ h, k ∈ h')
    (hc : Current connectorId audience d h) : Current connectorId audience d h' :=
  fun c he => ⟨hh _ (hc c he).1, (hc c he).2⟩

/-- A write that leaves the connector's scope alone leaves the copy current. -/
theorem Current.apply {connectorId : Option Nat} {audience : Option Nat × Option Nat}
    {d : ScopeStore} {h : List ScopeLock} {x : ScopeWrite}
    (hx : ∀ c s now, connectorId = some c → x ≠ .setScope c s now)
    (hc : Current connectorId audience d h) : Current connectorId audience (x.apply d) h := by
  refine fun c he => ⟨(hc c he).1, fun k' hk' hid => ?_⟩
  obtain ⟨k, hk, hkid, haud | ⟨s, now, rfl, -⟩⟩ := ScopeWrite.connector_back hk'
  · rw [haud]
    exact (hc c he).2 k hk (hkid.trans hid)
  · exact (hx c s now he (by rw [hid])).elim

/-- The write stores a record with a current scope, and changes no other. -/
def CopyOk (d : ScopeStore) (h : List ScopeLock) : ScopeWrite → Prop
  | .insert _ row => Current row.connectorId row.audience d h
  | .update _ _ new _ => Current new.connectorId new.audience d h
  | .touch .. | .archive .. => True
  | .setScope .. | .rescope .. => False

theorem CopyOk.copied {d : ScopeStore} {h : List ScopeLock} {x : ScopeWrite} (hx : CopyOk d h x)
    {connectorId : Option Nat} {audience : Option Nat × Option Nat}
    (he : x.copied = some (connectorId, audience)) : Current connectorId audience d h := by
  cases x with
  | insert | update =>
    cases he
    exact hx
  | setScope | touch | archive | rescope => cases he

theorem CopyOk.ne_setScope {d : ScopeStore} {h : List ScopeLock} {x : ScopeWrite}
    (hx : CopyOk d h x) (c : Nat) (s : Scope) (now : DateTime) : x ≠ .setScope c s now := by
  rintro rfl
  exact hx

theorem CopyOk.mono {d : ScopeStore} {h h' : List ScopeLock} (hh : ∀ k ∈ h, k ∈ h')
    {x : ScopeWrite} (hx : CopyOk d h x) : CopyOk d h' x := by
  cases x with
  | insert | update => exact Current.mono hh hx
  | setScope | touch | archive | rescope => exact hx

theorem CopyOk.of_current {d d' : ScopeStore} {h : List ScopeLock} {x : ScopeWrite}
    (hcur : ∀ connectorId audience, Current connectorId audience d h →
      Current connectorId audience d' h) (hx : CopyOk d h x) : CopyOk d' h x := by
  cases x with
  | insert | update => exact hcur _ _ hx
  | setScope | touch | archive | rescope => exact hx

/-- **A current copy keeps the tables in agreement.** -/
theorem ScopesAgree.apply {d : ScopeStore} {h : List ScopeLock} {x : ScopeWrite}
    (hd : ScopesAgree d) (hx : CopyOk d h x) : ScopesAgree (x.apply d) := by
  intro t r' hr' k' hk' hc
  obtain ⟨k, hk, hkid, haud | ⟨s, now, rfl, -⟩⟩ := ScopeWrite.connector_back hk'
  · rw [haud]
    rcases ScopeWrite.record_back hr' with ⟨r, hr, -, hrc, hraud | ⟨c, s, now, rfl, -⟩⟩ | hcopied
    · rw [hraud]
      exact hd t r hr k hk (by rw [hrc, hc, hkid])
    · exact hx.elim
    · exact ((hx.copied hcopied k'.id hc).2 k hk hkid).symm
  · exact hx.elim

/-! ## What a session may commit -/

/-- The writes of an import or of a `PUT`. -/
def Copies (d : ScopeStore) (h : List ScopeLock) (p : List ScopeWrite) : Prop :=
  ∀ x ∈ p, CopyOk d h x

theorem Copies.tail {d : ScopeStore} {h : List ScopeLock} {x : ScopeWrite} {p : List ScopeWrite}
    (hp : Copies d h (x :: p)) : Copies (x.apply d) h p := by
  intro y hy
  refine (hp y (List.mem_cons_of_mem _ hy)).of_current fun _ _ hcur => ?_
  exact hcur.apply fun c s now _ => (hp x (List.mem_cons_self ..)).ne_setScope c s now

theorem Copies.current {d : ScopeStore} {h h' : List ScopeLock} {p : List ScopeWrite}
    (hp : Copies d h p) {connectorId : Option Nat} {audience : Option Nat × Option Nat}
    (hc : Current connectorId audience d h') :
    Current connectorId audience (apartEngine.applyAll d p) h' := by
  induction p generalizing d with
  | nil => exact hc
  | cons x p ih =>
    exact ih hp.tail (hc.apply fun c s now _ => (hp x (List.mem_cons_self ..)).ne_setScope c s now)

theorem Copies.agree {d : ScopeStore} {h : List ScopeLock} {p : List ScopeWrite}
    (hd : ScopesAgree d) (hp : Copies d h p) : ScopesAgree (apartEngine.applyAll d p) := by
  induction p generalizing d with
  | nil => exact hd
  | cons x p ih => exact ih (hd.apply (hp x (List.mem_cons_self ..))) hp.tail

/-- A row of a connector was one before, or whoever stored it has read the connector. -/
theorem Copies.record_back {d : ScopeStore} {h : List ScopeLock} {p : List ScopeWrite}
    (hp : Copies d h p) {t : RecordTarget} {r' : Record t.Content} {c : Nat}
    (hr' : r' ∈ (apartEngine.applyAll d p).records t) (hc : r'.connectorId = some c) :
    (∃ r ∈ d.records t, r.id = r'.id ∧ r.connectorId = some c) ∨ .reads c ∈ h := by
  induction p generalizing d with
  | nil => exact Or.inl ⟨r', hr', rfl, hc⟩
  | cons x p ih =>
    rcases ih hp.tail hr' with ⟨r₁, hr₁, hid₁, hc₁⟩ | hread
    · rcases ScopeWrite.record_back hr₁ with ⟨r, hr, hid, hrc, -⟩ | hcopied
      · exact Or.inl ⟨r, hr, hid.trans hid₁, hrc.trans hc₁⟩
      · exact Or.inr ((hp x (List.mem_cons_self ..)).copied hcopied c hc₁).1
    · exact Or.inr hread

section Sweep

variable {c : Nat} {s : Scope} {d : ScopeStore} {p : List ScopeWrite}

/-- What the sweep of a connector writes. -/
def Sweeping (c : Nat) (s : Scope) (x : ScopeWrite) : Prop :=
  (∃ now, x = .setScope c s now) ∨ ∃ t id now, x = .rescope t id c s now

/-- A connector keeps its scope, and the swept one has the new scope. -/
theorem sweeping_connector (hp : ∀ x ∈ p, Sweeping c s x) {k' : Connector}
    (hk' : k' ∈ (apartEngine.applyAll d p).connectors) :
    ∃ k ∈ d.connectors, k.id = k'.id
      ∧ (k'.audience = k.audience ∨ k'.id = c ∧ k'.audience = s.audience)
      ∧ (k'.id = c → (∃ now, .setScope c s now ∈ p) → k'.audience = s.audience) := by
  induction p generalizing d with
  | nil =>
    exact ⟨k', hk', rfl, Or.inl rfl, fun _ ⟨_, hmem⟩ => (List.not_mem_nil hmem).elim⟩
  | cons x p ih =>
    obtain ⟨k₁, hk₁, hid₁, haud₁, hset₁⟩ := ih (fun y hy => hp y (List.mem_cons_of_mem _ hy)) hk'
    obtain ⟨k, hk, hid, hback⟩ := ScopeWrite.connector_back hk₁
    have haud : k₁.audience = k.audience ∨ k'.id = c ∧ k₁.audience = s.audience := by
      rcases hback with he | ⟨s', now, rfl, he⟩
      · exact Or.inl he
      · obtain ⟨now', hx⟩ | ⟨t, id, now', hx⟩ := hp _ (List.mem_cons_self ..)
        · cases hx
          exact Or.inr ⟨hid₁.symm, he⟩
        · cases hx
    refine ⟨k, hk, hid.trans hid₁, ?_, ?_⟩
    · rcases haud₁ with he | he
      · rw [he]
        exact haud
      · exact Or.inr he
    · rintro hc ⟨now, hmem⟩
      rcases List.mem_cons.mp hmem with rfl | hmem
      · have hset := ScopeWrite.audience_setScope hk₁ (hid₁.trans hc)
        exact haud₁.elim (fun he => he.trans hset) And.right
      · exact hset₁ hc ⟨now, hmem⟩

/-- A row keeps its id, its connector and its scope, and a swept one has the new scope. -/
theorem sweeping_record (hp : ∀ x ∈ p, Sweeping c s x) {t : RecordTarget} {r' : Record t.Content}
    (hr' : r' ∈ (apartEngine.applyAll d p).records t) :
    ∃ r ∈ d.records t, r.id = r'.id ∧ r.connectorId = r'.connectorId
      ∧ (r'.audience = r.audience ∨ r'.connectorId = some c ∧ r'.audience = s.audience)
      ∧ (r'.connectorId = some c → (∃ now, .rescope t r.id c s now ∈ p) →
        r'.audience = s.audience) := by
  induction p generalizing d with
  | nil =>
    exact ⟨r', hr', rfl, rfl, Or.inl rfl, fun _ ⟨_, hmem⟩ => (List.not_mem_nil hmem).elim⟩
  | cons x p ih =>
    obtain ⟨r₁, hr₁, hid₁, hcon₁, haud₁, hset₁⟩ :=
      ih (fun y hy => hp y (List.mem_cons_of_mem _ hy)) hr'
    have hx := hp x (List.mem_cons_self ..)
    obtain ⟨r, hr, hid, hcon, hback⟩ : ∃ r ∈ d.records t, r.id = r₁.id
        ∧ r.connectorId = r₁.connectorId
        ∧ (r₁.audience = r.audience ∨ r'.connectorId = some c ∧ r₁.audience = s.audience) := by
      rcases ScopeWrite.record_back hr₁ with ⟨r, hr, hid, hcon, he | ⟨c', s', now, rfl, hc', he⟩⟩ | he
      · exact ⟨r, hr, hid, hcon, Or.inl he⟩
      · obtain ⟨now', hx⟩ | ⟨t', id', now', hx⟩ := hx
        · cases hx
        · cases hx
          exact ⟨r, hr, hid, hcon, Or.inr ⟨hcon₁.symm.trans hc', he⟩⟩
      · obtain ⟨now', rfl⟩ | ⟨t', id', now', rfl⟩ := hx <;> cases he
    refine ⟨r, hr, hid.trans hid₁, hcon.trans hcon₁, ?_, ?_⟩
    · rcases haud₁ with he | he
      · rw [he]
        exact hback
      · exact Or.inr he
    · rintro hc ⟨now, hmem⟩
      rw [hid] at hmem
      rcases List.mem_cons.mp hmem with rfl | hmem
      · have hset := ScopeWrite.audience_rescope hr₁ (hcon₁.trans hc)
        exact haud₁.elim (fun he => he.trans hset) And.right
      · exact hset₁ hc ⟨now, hmem⟩

/-- Every row is still there, under its id and its connector. -/
theorem sweeping_forward (hp : ∀ x ∈ p, Sweeping c s x) {t : RecordTarget} {r : Record t.Content}
    (hr : r ∈ d.records t) :
    ∃ r' ∈ (apartEngine.applyAll d p).records t, r'.id = r.id ∧ r'.connectorId = r.connectorId := by
  induction p generalizing d r with
  | nil => exact ⟨r, hr, rfl, rfl⟩
  | cons x p ih =>
    have hstep : ∃ r₁ ∈ (x.apply d).records t, r₁.id = r.id ∧ r₁.connectorId = r.connectorId := by
      obtain ⟨now, rfl⟩ | ⟨t', id, now, rfl⟩ := hp x (List.mem_cons_self ..)
      · exact ⟨r, hr, rfl, rfl⟩
      · rcases eq_or_ne t t' with rfl | ht
        · rw [ScopeWrite.apply, ScopeStore.records_modify_self]
          refine ⟨_, Table.mem_update.mpr ⟨r, hr, rfl⟩, ?_⟩
          split <;> exact ⟨rfl, rfl⟩
        · refine ⟨r, ?_, rfl, rfl⟩
          rw [ScopeWrite.apply, ScopeStore.records_modify_of_ne d _ ht]
          exact hr
    obtain ⟨r₁, hr₁, hid₁, hc₁⟩ := hstep
    obtain ⟨r', hr', hid, hc⟩ := ih (fun y hy => hp y (List.mem_cons_of_mem _ hy)) hr₁
    exact ⟨r', hr', hid.trans hid₁, hc.trans hc₁⟩

end Sweep

/-- The writes of `update_scope`, after it has swept the targets `ts`: it has changed the connector,
and every committed row of the connector in these targets. -/
structure Sweeps (ts : List RecordTarget) (c : Nat) (s : Scope) (d : ScopeStore)
    (h : List ScopeLock) (p : List ScopeWrite) : Prop where
  lock : .rescopes c ∈ h
  writes : ∀ x ∈ p, Sweeping c s x
  scope : ∃ now, .setScope c s now ∈ p
  swept : ∀ t ∈ ts, ∀ r ∈ d.records t, r.connectorId = some c →
    ∃ now, .rescope t r.id c s now ∈ p

/-- **A whole sweep keeps the tables in agreement.** -/
theorem Sweeps.agree {ts : List RecordTarget} {c : Nat} {s : Scope} {d : ScopeStore}
    {h : List ScopeLock} {p : List ScopeWrite} (hd : ScopesAgree d) (hall : ∀ t, t ∈ ts)
    (hp : Sweeps ts c s d h p) : ScopesAgree (apartEngine.applyAll d p) := by
  intro t r' hr' k' hk' hc
  obtain ⟨k, hk, hkid, hkaud, hkset⟩ := sweeping_connector hp.writes hk'
  obtain ⟨r, hr, -, hrc, hraud, hrset⟩ := sweeping_record hp.writes hr'
  by_cases hck : k'.id = c
  · have hcon : r'.connectorId = some c := by rw [hc, hck]
    rw [hkset hck hp.scope, hrset hcon (hp.swept t (hall t) r hr (hrc.trans hcon))]
  · have hkeep : k'.audience = k.audience := hkaud.resolve_right fun h => hck h.1
    have hrkeep : r'.audience = r.audience := hraud.resolve_right fun h => hck (by
      rw [hc] at h
      exact Option.some.inj h.1)
    rw [hkeep, hrkeep]
    exact hd t r hr k hk (by rw [hrc, hc, hkid])

/-- The targets, the last one swept first. -/
def allTargets : List RecordTarget := [.calendarEvents, .notifications, .workCards]

theorem mem_allTargets (t : RecordTarget) : t ∈ allTargets := by
  cases t <;> simp [allTargets]

theorem keyed_applyAll {d : ScopeStore} (p : List ScopeWrite)
    (hd : Table.Keyed (fun c : Connector => c.id) d.connectors) :
    Table.Keyed (fun c : Connector => c.id) (apartEngine.applyAll d p).connectors := by
  induction p generalizing d with
  | nil => exact hd
  | cons x p ih => exact ih (x.keyed_apply hd)

/-- **What a session may commit**: current copies, or a whole sweep. -/
def scopeRule (I : Type) : Rule I apartEngine where
  inv := ScopeInv
  guar := fun _ d h p => Copies d h p ∨ ∃ c s, Sweeps allTargets c s d h p
  inv_commit := by
    rintro _ d h p hd - (hp | ⟨c, s, hp⟩)
    · exact ⟨keyed_applyAll p hd.keyed, hp.agree hd.agree⟩
    · exact ⟨keyed_applyAll p hd.keyed, hp.agree hd.agree mem_allTargets⟩

/-! ## What the others may commit meanwhile -/

section Programs

variable {I : Type} {i : I}

/-- **A scope that was read stays current**: whoever changes it would overlap. -/
theorem stable_current (connectorId : Option Nat) (audience : Option Nat × Option Nat) :
    Stable (scopeRule I) i fun d h _ => Current connectorId audience d h := by
  rintro d d' h p - hcur ⟨j, hj, pj, -, hg, -, hc, rfl⟩
  rcases hg with hg | ⟨c, s, hg⟩
  · exact hg.current hcur
  · refine fun c₀ he => ⟨(hcur c₀ he).1, fun k' hk' hid => ?_⟩
    obtain ⟨k, hk, hkid, haud | ⟨hck, -⟩, -⟩ := sweeping_connector hg.writes hk'
    · rw [haud]
      exact (hcur c₀ he).2 k hk (hkid.trans hid)
    · obtain rfl : c₀ = c := hid.symm.trans hck
      exact (not_overlap_of_compatible hc hg.lock (hcur c₀ he).1).elim

theorem stable_copies : Stable (scopeRule I) i Copies := by
  intro d d' h p hd hp hrel x hx
  exact (hp x hx).of_current fun connectorId audience hcur =>
    stable_current connectorId audience d d' h p hd hcur hrel

/-- **A sweep stays complete**: whoever adds a row of the connector would overlap. -/
theorem stable_sweeps (ts : List RecordTarget) (c : Nat) (s : Scope) :
    Stable (scopeRule I) i (Sweeps ts c s) := by
  rintro d d' h p - hp ⟨j, hj, pj, -, hg, -, hc, rfl⟩
  refine ⟨hp.lock, hp.writes, hp.scope, fun t ht r' hr' hcon => ?_⟩
  obtain ⟨r, hr, hid, hrc⟩ : ∃ r ∈ d.records t, r.id = r'.id ∧ r.connectorId = some c := by
    rcases hg with hg | ⟨c', s', hg⟩
    · refine (hg.record_back hr' hcon).resolve_right fun hread => ?_
      exact not_overlap_of_compatible hc.symm hp.lock hread
    · obtain ⟨r, hr, hid, hrc, -⟩ := sweeping_record hg.writes hr'
      exact ⟨r, hr, hid, hrc.trans hcon⟩
  rw [← hid]
  exact hp.swept t ht r hr hrc

/-! ## Imports and `PUT`s -/

/-- The copies so far, and the scope that the next ones get. -/
def Copying (connectorId : Option Nat) (audience : Option Nat × Option Nat) :
    Assertion ScopeStore ScopeWrite ScopeLock :=
  fun d h p => Copies d h p ∧ Current connectorId audience d h

theorem stable_copying (connectorId : Option Nat) (audience : Option Nat × Option Nat) :
    Stable (scopeRule I) i (Copying connectorId audience) :=
  stable_copies.and (stable_current connectorId audience)

/-- A statement that stores copies. -/
theorem wp_copy {connectorId : Option Nat} {audience : Option Nat × Option Nat} {α : Type}
    {w : Drawn → ScopeStore → List ScopeWrite} {result : Drawn → ScopeStore → Option α}
    (hw : ∀ o view d h, Current connectorId audience d h → ∀ x ∈ w o view, CopyOk d h x)
    {d : ScopeStore} {h : List ScopeLock} {p : List ScopeWrite} (hd : ScopeInv d)
    (hp : Copying connectorId audience d h p) :
    Tx.wp (scopeRule I) i (Tx.statement (fun _ _ => []) w result)
      (fun _ => Copying connectorId audience) d h p := by
  refine Tx.wp_statement i (stable_copying connectorId audience) ?_ hd hp
  rintro o d h p a - hp -
  have hmono : ∀ k ∈ h, k ∈ h ++ apartEngine.wanted [] (w o (apartEngine.applyAll d p)) :=
    fun k hk => List.mem_append_left _ hk
  refine ⟨fun x hx => ?_, hp.2.mono hmono⟩
  rcases List.mem_append.mp hx with hx | hx
  · exact (hp.1 x hx).mono hmono
  · exact (hw o _ d h hp.2 x hx).mono hmono

theorem wp_updateBody (t : RecordTarget) (id : Nat) (new : NewRecord t.Content) {d : ScopeStore}
    {h : List ScopeLock} {p : List ScopeWrite} (hd : ScopeInv d)
    (hp : Copying new.connectorId new.audience d h p) :
    Tx.wp (scopeRule I) i (RecordRepository.updateBody t id new)
      (fun _ => Copying new.connectorId new.audience) d h p := by
  refine wp_copy (fun o view d h hcur x hx => ?_) hd hp
  obtain ⟨r, -, rfl⟩ := Option.map_eq_some_iff.mp (Option.mem_toList.mp hx)
  exact hcur

theorem wp_upsertFromConnectorBody (t : RecordTarget) (new : NewRecord t.Content) {d : ScopeStore}
    {h : List ScopeLock} {p : List ScopeWrite} (hd : ScopeInv d)
    (hp : Copying new.connectorId new.audience d h p) :
    Tx.wp (scopeRule I) i (RecordRepository.upsertFromConnectorBody t new)
      (fun _ => Copying new.connectorId new.audience) d h p := by
  rw [RecordRepository.upsertFromConnectorBody, Tx.wp_bind]
  refine Tx.wp_query i (stable_copying new.connectorId new.audience)
    (fun o d h p hd hp => ?_) hd hp
  generalize new.externalId.bind _ = existing
  cases existing with
  | some existing => exact wp_updateBody t existing.id new hd hp
  | none =>
    refine wp_copy (fun o view d h hcur x hx => ?_) hd hp
    obtain rfl := List.mem_singleton.mp hx
    exact hcur

/-- Nothing is written yet. -/
def Fresh : Assertion ScopeStore ScopeWrite ScopeLock := fun _ _ p => p = []

theorem stable_fresh : Stable (scopeRule I) i Fresh := fun _ _ _ _ _ hp _ => hp

theorem wp_readConnector (source : String) {d : ScopeStore} {h : List ScopeLock}
    {p : List ScopeWrite} (hd : ScopeInv d) (hp : Fresh d h p) :
    Tx.wp (scopeRule I) i (Runtime.readConnector source)
      (fun c => Copying (some c.id) c.audience) d h p := by
  refine Tx.wp_statement i stable_fresh ?_ hd hp
  rintro o d h p c hd rfl hfound
  have hmem := Table.mem_of_lookup hfound
  refine ⟨fun x hx => (List.not_mem_nil hx).elim, ?_⟩
  rintro _ ⟨⟩
  refine ⟨?_, fun k hk hid => ?_⟩
  · simp only [Engine.wanted, hfound]
    simp
  · rw [Table.eq_of_key_eq hd.keyed hk hmem hid]

theorem wp_executeItemsBody (t : RecordTarget) (source : String) (connector : Connector)
    (runId : Nat) (items : List t.Item) {d : ScopeStore} {h : List ScopeLock}
    {p : List ScopeWrite} (hd : ScopeInv d)
    (hp : Copying (some connector.id) connector.audience d h p) :
    Tx.wp (scopeRule I) i (Runtime.executeItemsBody t source connector runId items)
      (fun _ => Copying (some connector.id) connector.audience) d h p := by
  induction items generalizing d h p with
  | nil => exact hp
  | cons item items ih =>
    unfold Runtime.executeItemsBody
    split
    · rw [Tx.wp_bind]
      exact ih hd hp
    · next new hcheck =>
      obtain ⟨sourceUpdatedAt, content, rfl⟩ := t.builds.check hcheck
      rw [Tx.wp_bind]
      refine Tx.wp_mono i (fun _ d h p hd hp => ?_) hd (wp_upsertFromConnectorBody t _ hd hp)
      rw [Tx.wp_bind]
      exact ih hd hp

theorem wp_importRecordsBody (t : RecordTarget) (source : String) (runId : Nat)
    (items : List t.Item) (snapshotComplete : Option Bool) {d : ScopeStore} (hd : ScopeInv d) :
    Tx.wp (scopeRule I) i (Runtime.importRecordsBody t source runId items snapshotComplete)
      (fun _ => Copies) d [] [] := by
  rw [Runtime.importRecordsBody, Tx.wp_bind]
  refine Tx.wp_mono i (fun connector d h p hd hp => ?_) hd (wp_readConnector source hd rfl)
  rw [Tx.wp_bind]
  refine Tx.wp_mono i (fun counts d h p hd hp => ?_) hd
    (wp_executeItemsBody t source connector runId items hd hp)
  have htouch : ∀ d h p, ScopeInv d → Copying (some connector.id) connector.audience d h p →
      Tx.wp (scopeRule I) i (Runtime.touchBody source (finishStatus counts.1 counts.2))
        (fun _ => Copies) d h p := by
    intro d h p hd hp
    refine Tx.wp_mono i (fun _ _ _ _ _ hp => hp.1) hd
      (wp_copy (fun o view d h _ x hx => ?_) hd hp)
    obtain ⟨k, -, rfl⟩ := Option.map_eq_some_iff.mp (Option.mem_toList.mp hx)
    exact trivial
  dsimp only
  split
  · rw [Tx.wp_bind]
    refine Tx.wp_mono i (fun _ d h p hd hp => htouch d h p hd hp) hd
      (wp_copy (fun o view d h _ x hx => ?_) hd hp)
    obtain ⟨r, -, rfl⟩ := List.mem_map.mp hx
    exact trivial
  · exact htouch d h p hd hp

theorem wp_putBody (t : RecordTarget) (id : Nat) (write : Record t.Content → NewRecord t.Content)
    (hwrite : ∀ r, (write r).connectorId = r.connectorId ∧ (write r).audience = r.audience)
    {d : ScopeStore} (hd : ScopeInv d) :
    Tx.wp (scopeRule I) i (putBody t id write) (fun _ => Copies) d [] [] := by
  rw [putBody, Tx.wp_bind]
  refine Tx.wp_statement i stable_fresh ?_ hd rfl
  rintro o d h p existing hd rfl hfound
  have hmem : existing ∈ d.records t := Table.mem_of_lookup hfound
  refine Tx.wp_mono i (fun _ _ _ _ _ hp => hp.1) hd (wp_updateBody t id (write existing) hd ?_)
  refine ⟨fun x hx => (List.not_mem_nil hx).elim, fun c hc => ?_⟩
  rw [(hwrite existing).1] at hc
  refine ⟨?_, fun k hk hid => ?_⟩
  · rw [Engine.applyAll_nil] at hfound ⊢
    simp [Engine.wanted, hfound, hc]
  · rw [(hwrite existing).2]
    exact (hd.agree t existing hmem k hk (by rw [hc, hid])).symm

/-! ## `update_scope` -/

/-- The connector is about to be changed, and nothing is written yet. -/
def Locked (c : Nat) : Assertion ScopeStore ScopeWrite ScopeLock :=
  fun _ h p => .rescopes c ∈ h ∧ p = []

theorem stable_locked (c : Nat) : Stable (scopeRule I) i (Locked c) := fun _ _ _ _ _ hp _ => hp

theorem wp_lockForScope (source : String) {d : ScopeStore} (hd : ScopeInv d) :
    Tx.wp (scopeRule I) i (ConnectorRepository.lockForScope source) (fun c => Locked c.id)
      d [] [] := by
  refine Tx.wp_statement i stable_fresh ?_ hd rfl
  rintro o d h p c hd rfl hfound
  refine ⟨?_, rfl⟩
  rw [Engine.applyAll_nil] at hfound ⊢
  simp [Engine.wanted, hfound]

theorem wp_setScope (c : Nat) (s : Scope) {d : ScopeStore} {h : List ScopeLock}
    {p : List ScopeWrite} (hd : ScopeInv d) (hp : Locked c d h p) :
    Tx.wp (scopeRule I) i (ConnectorRepository.setScope c s) (fun _ => Sweeps [] c s) d h p := by
  refine Tx.wp_statement i (stable_locked c) ?_ hd hp
  rintro o d h p _ hd ⟨hlock, rfl⟩ -
  refine ⟨List.mem_append_left _ hlock, fun x hx => ?_, ⟨o.now, by simp⟩,
    fun _ ht => (List.not_mem_nil ht).elim⟩
  obtain rfl : x = .setScope c s o.now := by simpa using hx
  exact Or.inl ⟨o.now, rfl⟩

/-- **One more target is swept**: the rows it has now. -/
theorem wp_rescope (ts : List RecordTarget) (t : RecordTarget) (c : Nat) (s : Scope)
    {d : ScopeStore} {h : List ScopeLock} {p : List ScopeWrite} (hd : ScopeInv d)
    (hp : Sweeps ts c s d h p) :
    Tx.wp (scopeRule I) i (ConnectorRepository.rescope t c s) (fun _ => Sweeps (t :: ts) c s)
      d h p := by
  refine Tx.wp_statement i (stable_sweeps ts c s) ?_ hd hp
  rintro o d h p _ hd hp -
  refine ⟨List.mem_append_left _ hp.lock, fun x hx => ?_, ?_, fun t' ht' r hr hc => ?_⟩
  · rcases List.mem_append.mp hx with hx | hx
    · exact hp.writes x hx
    · obtain ⟨r, -, rfl⟩ := List.mem_map.mp hx
      exact Or.inr ⟨t, r.id, o.now, rfl⟩
  · obtain ⟨now, hmem⟩ := hp.scope
    exact ⟨now, List.mem_append_left _ hmem⟩
  · rcases List.mem_cons.mp ht' with rfl | ht'
    · -- the statement sees the row under its own earlier writes
      obtain ⟨r', hr', hid, hc'⟩ := sweeping_forward hp.writes hr
      refine ⟨o.now, List.mem_append_right _ (List.mem_map.mpr ⟨r', ?_, by rw [hid]⟩)⟩
      exact List.mem_filter.mpr ⟨hr', by simp [hc', hc]⟩
    · obtain ⟨now, hmem⟩ := hp.swept t' ht' r hr hc
      exact ⟨now, List.mem_append_left _ hmem⟩

theorem wp_updateScopeBody (source : String) (s : Scope) {d : ScopeStore} (hd : ScopeInv d) :
    Tx.wp (scopeRule I) i (ConnectorRepository.updateScopeBody source s)
      (fun _ d h p => ∃ c, Sweeps allTargets c s d h p) d [] [] := by
  rw [ConnectorRepository.updateScopeBody, Tx.wp_bind]
  refine Tx.wp_mono i (fun c d h p hd hp => ?_) hd (wp_lockForScope source hd)
  rw [Tx.wp_bind]
  refine Tx.wp_mono i (fun _ d h p hd hp => ?_) hd (wp_setScope c.id s hd hp)
  rw [Tx.wp_bind]
  refine Tx.wp_mono i (fun _ d h p hd hp => ?_) hd (wp_rescope [] .workCards c.id s hd hp)
  rw [Tx.wp_bind]
  refine Tx.wp_mono i (fun _ d h p hd hp => ?_) hd
    (wp_rescope [.workCards] .notifications c.id s hd hp)
  exact Tx.wp_mono i (fun _ _ _ _ _ hp => ⟨c.id, hp⟩) hd
    (wp_rescope [.notifications, .workCards] .calendarEvents c.id s hd hp)

/-- A transaction of copies is sound. -/
theorem sound_copies (body : ScopeBody Unit)
    (hbody : ∀ d, ScopeInv d → Tx.wp (scopeRule I) i body (fun _ => Copies) d [] []) :
    Sound (scopeRule I) i (body.run (fun _ => .done) .done) :=
  Sound.run i (fun _ => sound_done i) (sound_done i) (fun _ => stable_copies)
    (fun _ _ _ _ _ hp => Or.inl hp) hbody

theorem sound_updateScope (source : String) (s : Scope) :
    Sound (scopeRule I) i
      ((ConnectorRepository.updateScopeBody source s).run (fun _ => .done) .done) := by
  refine Sound.run i (fun _ => sound_done i) (sound_done i) (fun _ => ?_)
    (fun _ _ _ _ _ ⟨c, hp⟩ => Or.inr ⟨c, s, hp⟩) fun d hd => wp_updateScopeBody source s hd
  rintro d d' h p hd ⟨c, hp⟩ hrel
  exact ⟨c, stable_sweeps allTargets c s d d' h p hd hp hrel⟩

/-- **Whatever a session may start is sound.** -/
theorem sound_of_scopeStarts {q : ScopeProgram} (hq : ScopeStarts q) : Sound (scopeRule I) i q := by
  cases hq with
  | updateScope source s => exact sound_updateScope source s
  | importRecords t source runId items snapshotComplete =>
    exact sound_copies (Runtime.importRecordsBody t source runId items snapshotComplete)
      fun d hd => wp_importRecordsBody t source runId items snapshotComplete hd
  | updateWorkCard id request =>
    exact sound_copies (updateWorkCardBody id request)
      fun d hd => wp_putBody .workCards id request.keeping (fun _ => ⟨rfl, rfl⟩) hd
  | updateNotification id request =>
    exact sound_copies (updateNotificationBody id request)
      fun d hd => wp_putBody .notifications id (NewRecord.keeping request) (fun _ => ⟨rfl, rfl⟩) hd

end Programs

/-- **Scopes agree as long as no change of a scope overlaps with a copy of it.**  From any tables
in agreement, by any interleaving of `update_scope`, imports, runs and `PUT`s in which no
`update_scope` of a connector overlaps with a transaction that has read this connector's scope,
every record has the scope of its connector. -/
theorem scopes_agree_apart {I : Type} [DecidableEq I] {d : ScopeStore} (hd : ScopeInv d)
    {w : World I Drawn ScopeStore ScopeWrite ScopeLock}
    (hw : ReachableApart scopeEngine overlap (fun _ => ScopeStarts) (World.idle d) w) :
    ScopesAgree w.db :=
  (sound (fun _ _ => sound_of_scopeStarts) (World.ok_idle hd) hw.excluding).inv.agree

/-! ### An import and an `update_scope`

The connector of the samples, whose scope is global and becomes that of user 7, and an import of one
card. -/

namespace Sample

/-- No records yet. -/
def scopes : ScopeStore := ⟨[connector], fun _ => []⟩

theorem scopeInv_scopes : ScopeInv scopes :=
  ⟨List.nodup_singleton _, fun _ _ hr => (List.not_mem_nil hr).elim⟩

def importProgram : ScopeProgram :=
  (Runtime.importRecordsBody .workCards "erp" 1 [card "a" "A" none] none).run (fun _ => .done) .done

def scopeProgram : ScopeProgram :=
  (ConnectorRepository.updateScopeBody "erp" ⟨.user, some 7, none⟩).run (fun _ => .done) .done

theorem starts_importProgram : ScopeStarts importProgram := .importRecords ..

theorem starts_scopeProgram : ScopeStarts scopeProgram := .updateScope ..

/-- Outcomes at one instant, whose sequence draws `1`. -/
def draws (n : Nat) : List Drawn := List.replicate n ⟨5, 1⟩

/-- The import has read the connector. -/
def worldRead : World Bool Drawn ScopeStore ScopeWrite ScopeLock :=
  ((World.idle scopes).after scopeEngine (.start false importProgram)).advance scopeEngine false
    (draws 1)

/-- Then the scope is changed, from the lock to the commit. -/
def worldRescoped : World Bool Drawn ScopeStore ScopeWrite ScopeLock :=
  (worldRead.after scopeEngine (.start true scopeProgram)).advance scopeEngine true (draws 6)

/-- Then the import goes on to its commit. -/
def worldStale : World Bool Drawn ScopeStore ScopeWrite ScopeLock :=
  worldRescoped.advance scopeEngine false (draws 4)

end Sample

/-- Marks keep nobody waiting. -/
theorem compatible_marks {h held : List ScopeLock} (hm : held.all fun k => !k.isRow) :
    scopeEngine.Compatible h held := by
  intro k hk k' hk'
  have hrow : k'.isRow = false := by simpa using List.all_eq_true.mp hm k' hk'
  constructor
  · rintro ⟨rfl, hrow'⟩
    rw [hrow] at hrow'
    cases hrow'
  · rintro ⟨-, hrow'⟩
    rw [hrow] at hrow'
    cases hrow'

theorem Sample.reachable_worldStale :
    Reachable scopeEngine (fun _ => ScopeStarts) (World.idle Sample.scopes) Sample.worldStale := by
  have hread : Reachable scopeEngine (fun _ => ScopeStarts) (World.idle Sample.scopes)
      Sample.worldRead := by
    refine reachable_advance (Reachable.refl.start rfl Sample.starts_importProgram)
      (fun j hj h => compatible_marks ?_) _
    cases j with
    | false => exact (hj rfl).elim
    | true => rfl
  have hrescoped : Reachable scopeEngine (fun _ => ScopeStarts) (World.idle Sample.scopes)
      Sample.worldRescoped := by
    refine reachable_advance (hread.start rfl Sample.starts_scopeProgram)
      (fun j hj h => compatible_marks ?_) _
    cases j with
    | false => rfl
    | true => exact (hj rfl).elim
  refine reachable_advance hrescoped (fun j hj h => compatible_marks ?_) _
  cases j with
  | false => exact (hj rfl).elim
  | true => rfl

/-- **An import that read the scope before it was narrowed writes the old one after it**: in the end
nothing is open, and the card is for everyone although its connector is user 7's. -/
theorem import_keeps_old_scope :
    ∃ w : World Bool Drawn ScopeStore ScopeWrite ScopeLock,
      Reachable scopeEngine (fun _ => ScopeStarts) (World.idle Sample.scopes) w
      ∧ ScopeInv Sample.scopes ∧ (∀ i, (w.session i).prog = .done) ∧ ¬ ScopesAgree w.db := by
  refine ⟨Sample.worldStale, Sample.reachable_worldStale, Sample.scopeInv_scopes,
    fun i => ?_, fun hagree => ?_⟩
  · cases i <;> rfl
  · have hrows : (Sample.worldStale.db.records .workCards).map
        (fun r => (r.connectorId, r.audience)) = [(some 3, none, none)] := rfl
    have hconnectors : Sample.worldStale.db.connectors.map (fun c => (c.id, c.audience))
        = [(3, some 7, none)] := rfl
    obtain ⟨r, hr, hcopy⟩ := List.mem_map.mp (hrows ▸ List.mem_singleton_self _)
    obtain ⟨c, hc, hscope⟩ := List.mem_map.mp (hconnectors ▸ List.mem_singleton_self _)
    obtain ⟨hrc, hra⟩ := Prod.mk.inj hcopy
    obtain ⟨hid, hca⟩ := Prod.mk.inj hscope
    have hsame := hagree .workCards r hr c hc (by rw [hrc, hid])
    rw [hra, hca] at hsame
    cases hsame

namespace Sample

/-- A first import, and a second one that begins while `update_scope` holds the connector and goes on
when it has committed. -/
def worldApart : World Bool Drawn ScopeStore ScopeWrite ScopeLock :=
  let imported := ((World.idle scopes).after scopeEngine (.start false importProgram)).advance
    scopeEngine false (draws 5)
  let locked := (imported.after scopeEngine (.start true scopeProgram)).advance scopeEngine true
    (draws 1)
  ((locked.after scopeEngine (.start false importProgram)).advance scopeEngine true
    (draws 5)).advance scopeEngine false (draws 5)

theorem reachable_worldApart :
    ReachableApart scopeEngine overlap (fun _ => ScopeStarts) (World.idle scopes) worldApart := by
  have himport : ReachableApart scopeEngine overlap (fun _ => ScopeStarts) (World.idle scopes)
      ((World.idle scopes).after scopeEngine (.start false importProgram)) :=
    .start .refl rfl starts_importProgram
  have hlock := (himport.advance (i := false) (by decide) (draws 5)).start (i := true) rfl
    starts_scopeProgram
  have hagain := (hlock.advance (i := true) (by decide) (draws 1)).start (i := false) rfl
    starts_importProgram
  exact (hagain.advance (by decide) (draws 5)).advance (by decide) (draws 5)

end Sample

/-- The card gets the scope of user 7 with its connector, and the second import leaves it that. -/
theorem scopes_agree_worldApart :
    (∀ i, (Sample.worldApart.session i).prog.isDone) ∧ Sample.worldApart.log.length = 3
    ∧ (Sample.worldApart.db.records .workCards).map (·.audience) = [(some 7, none)]
    ∧ ScopesAgree Sample.worldApart.db :=
  ⟨by decide, rfl, rfl, scopes_agree_apart Sample.scopeInv_scopes Sample.reachable_worldApart⟩

end DevPortal
