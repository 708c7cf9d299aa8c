import DevPortal.Access.Queries

/-!
# Access/Receipts — what a user did with a notification

    missing ──insert──▸ receipt ──on conflict──▸ receipt

Each of the five operations is one `INSERT … ON CONFLICT DO UPDATE`, and says its effect twice: in
the values of the insert and in the assignments of the update.  `ReceiptAction.effect` says it once;
both halves agree with it (`upsert_spec`), a missing receipt counting as a blank one.  What holds of
`effect` holds therefore over every run: no receipt is dismissed and asleep.
-/

namespace DevPortal

open Table

/-! ## The state machine -/

/-- What a receipt says. -/
structure ReceiptState where
  readAt : Option DateTime
  dismissedAt : Option DateTime
  snoozedUntil : Option DateTime
  deriving DecidableEq, Repr

/-- The receipt of a user who did nothing. -/
def ReceiptState.blank : ReceiptState := ⟨none, none, none⟩

/-- Not dismissed and asleep at once. -/
def ReceiptState.Exclusive (s : ReceiptState) : Prop :=
  ¬ (s.dismissedAt.isSome ∧ s.snoozedUntil.isSome)

/-- The five operations. -/
inductive ReceiptAction
  | markRead | markUnread | dismiss
  | snooze (snoozedUntil : DateTime)
  | restore
  deriving DecidableEq, Repr

/-- What an operation at `now` is for. -/
def ReceiptAction.effect (now : DateTime) (s : ReceiptState) : ReceiptAction → ReceiptState
  | .markRead => { s with readAt := some now }
  | .markUnread => { s with readAt := none }
  | .dismiss => { s with dismissedAt := some now, snoozedUntil := none }
  | .snooze t => { s with dismissedAt := none, snoozedUntil := some t }
  | .restore => { s with dismissedAt := none, snoozedUntil := none }

theorem ReceiptState.exclusive_blank : ReceiptState.blank.Exclusive := by
  simp [Exclusive, blank]

theorem ReceiptAction.exclusive_effect {now : DateTime} {s : ReceiptState} (hs : s.Exclusive)
    (a : ReceiptAction) : (a.effect now s).Exclusive := by
  cases a with
  | markRead => exact hs
  | markUnread => exact hs
  | dismiss => simp [effect, ReceiptState.Exclusive]
  | snooze t => simp [effect, ReceiptState.Exclusive]
  | restore => simp [effect, ReceiptState.Exclusive]

/-- The operations that touch `read_at` alone. -/
def ReceiptAction.reads : ReceiptAction → Bool
  | .markRead | .markUnread => true
  | .dismiss | .snooze _ | .restore => false

/-- **An operation touches one half of the state.** -/
theorem ReceiptAction.effect_preserves (now : DateTime) (s : ReceiptState) (a : ReceiptAction) :
    if a.reads then (a.effect now s).dismissedAt = s.dismissedAt
      ∧ (a.effect now s).snoozedUntil = s.snoozedUntil
    else (a.effect now s).readAt = s.readAt := by
  cases a with
  | markRead => exact ⟨rfl, rfl⟩
  | markUnread => exact ⟨rfl, rfl⟩
  | dismiss => rfl
  | snooze t => rfl
  | restore => rfl

/-! ## The table -/

namespace NotificationReceipt

/-- `UNIQUE (notification_id, user_id)`. -/
def pair (r : NotificationReceipt) : Nat × Nat := (r.notificationId, r.userId)

def state (r : NotificationReceipt) : ReceiptState := ⟨r.readAt, r.dismissedAt, r.snoozedUntil⟩

end NotificationReceipt

/-- `notification_receipts`, the sequence of its `id`, and the keys its foreign keys point to. -/
structure ReceiptTables where
  notifications : List Nat
  users : List Nat
  receipts : List NotificationReceipt
  nextReceiptId : Nat
  deriving DecidableEq, Repr

/-- A statement of a receipt fails on a foreign key alone. -/
inductive ReceiptError
  | foreignKey
  deriving DecidableEq, Repr

namespace NotificationReceiptRepository

/-- The outcome of a statement, with the tables it leaves. -/
abbrev Outcome := Except ReceiptError NotificationReceipt × ReceiptTables

/-- `INSERT … VALUES … ON CONFLICT (notification_id, user_id) DO UPDATE SET … RETURNING *`: the
values, the assignments, and the `now()` of the database behind the defaults of the timestamps. -/
def upsert (dbNow : DateTime) (notificationId userId : Nat) (values : ReceiptState)
    (set : NotificationReceipt → NotificationReceipt) (d : ReceiptTables) : Outcome :=
  let id := d.nextReceiptId
  -- the sequence is advanced whatever becomes of the statement
  let d := { d with nextReceiptId := d.nextReceiptId + 1 }
  match lookup NotificationReceipt.pair (notificationId, userId) d.receipts with
  | some r =>
    (.ok (set r),
      { d with receipts := update (fun r => r.pair = (notificationId, userId)) set d.receipts })
  | none =>
    if notificationId ∈ d.notifications ∧ userId ∈ d.users then
      let r : NotificationReceipt :=
        { id := id
          notificationId := notificationId
          userId := userId
          readAt := values.readAt
          dismissedAt := values.dismissedAt
          snoozedUntil := values.snoozedUntil
          createdAt := dbNow
          updatedAt := dbNow }
      (.ok r, { d with receipts := d.receipts ++ [r] })
    else (.error .foreignKey, d)

variable (now dbNow : DateTime) (notificationId userId : Nat)

/-- `mark_read`. -/
def markRead : ReceiptTables → Outcome :=
  upsert dbNow notificationId userId
    { readAt := some now, dismissedAt := none, snoozedUntil := none }
    fun r => { r with readAt := some now, updatedAt := now }

/-- `mark_unread`. -/
def markUnread : ReceiptTables → Outcome :=
  upsert dbNow notificationId userId
    { readAt := none, dismissedAt := none, snoozedUntil := none }
    fun r => { r with readAt := none, updatedAt := now }

/-- `dismiss`. -/
def dismiss : ReceiptTables → Outcome :=
  upsert dbNow notificationId userId
    { readAt := none, dismissedAt := some now, snoozedUntil := none }
    fun r => { r with dismissedAt := some now, snoozedUntil := none, updatedAt := now }

/-- `snooze`. -/
def snooze (snoozedUntil : DateTime) : ReceiptTables → Outcome :=
  upsert dbNow notificationId userId
    { readAt := none, dismissedAt := none, snoozedUntil := some snoozedUntil }
    fun r => { r with dismissedAt := none, snoozedUntil := some snoozedUntil, updatedAt := now }

/-- `restore`. -/
def restore : ReceiptTables → Outcome :=
  upsert dbNow notificationId userId
    { readAt := none, dismissedAt := none, snoozedUntil := none }
    fun r => { r with dismissedAt := none, snoozedUntil := none, updatedAt := now }

end NotificationReceiptRepository

/-- A call of a user: the clock of the program, and that of the database. -/
structure ReceiptCall where
  action : ReceiptAction
  notificationId : Nat
  userId : Nat
  now : DateTime
  dbNow : DateTime
  deriving DecidableEq, Repr

namespace ReceiptCall

open NotificationReceiptRepository

/-- The row it is about. -/
def target (c : ReceiptCall) : Nat × Nat := (c.notificationId, c.userId)

def run (c : ReceiptCall) : ReceiptTables → Outcome :=
  match c.action with
  | .markRead => markRead c.now c.dbNow c.notificationId c.userId
  | .markUnread => markUnread c.now c.dbNow c.notificationId c.userId
  | .dismiss => dismiss c.now c.dbNow c.notificationId c.userId
  | .snooze t => snooze c.now c.dbNow c.notificationId c.userId t
  | .restore => restore c.now c.dbNow c.notificationId c.userId

/-- The receipt before a call: a blank one where there is none. -/
def before (c : ReceiptCall) (d : ReceiptTables) : ReceiptState :=
  ((lookup NotificationReceipt.pair c.target d.receipts).map (·.state)).getD .blank

/-- The assignments of the update. -/
def set (c : ReceiptCall) (r : NotificationReceipt) : NotificationReceipt :=
  let s := c.action.effect c.now r.state
  { r with
    readAt := s.readAt
    dismissedAt := s.dismissedAt
    snoozedUntil := s.snoozedUntil
    updatedAt := c.now }

/-- **Both halves of every operation say the same**: the values are the effect on a blank receipt,
the assignments the effect on the one there is. -/
theorem run_eq (c : ReceiptCall) (d : ReceiptTables) :
    c.run d = upsert c.dbNow c.notificationId c.userId (c.action.effect c.now .blank) c.set d := by
  obtain ⟨a, n, u, now, dbNow⟩ := c
  cases a with
  | markRead => rfl
  | markUnread => rfl
  | dismiss => rfl
  | snooze t => rfl
  | restore => rfl

@[simp] theorem pair_set (c : ReceiptCall) (r : NotificationReceipt) : (c.set r).pair = r.pair := rfl

@[simp] theorem state_set (c : ReceiptCall) (r : NotificationReceipt) :
    (c.set r).state = c.action.effect c.now r.state := rfl

/-- What a call does. -/
inductive Effect (c : ReceiptCall) (d : ReceiptTables) : Outcome → Prop
  | updated (r : NotificationReceipt) (hr : lookup NotificationReceipt.pair c.target d.receipts = some r) :
    Effect c d (.ok (c.set r), { d with
      receipts := update (fun r => r.pair = c.target) c.set d.receipts
      nextReceiptId := d.nextReceiptId + 1 })
  | inserted (r : NotificationReceipt)
      (hnone : lookup NotificationReceipt.pair c.target d.receipts = none)
      (hexists : c.notificationId ∈ d.notifications ∧ c.userId ∈ d.users)
      (hpair : r.pair = c.target) (hstate : r.state = c.action.effect c.now .blank) :
    Effect c d (.ok r, { d with
      receipts := d.receipts ++ [r], nextReceiptId := d.nextReceiptId + 1 })
  | refused (hnone : lookup NotificationReceipt.pair c.target d.receipts = none)
      (hmissing : ¬ (c.notificationId ∈ d.notifications ∧ c.userId ∈ d.users)) :
    Effect c d (.error .foreignKey, { d with nextReceiptId := d.nextReceiptId + 1 })

/-- **The step lemma.** -/
theorem run_effect (c : ReceiptCall) (d : ReceiptTables) : c.Effect d (c.run d) := by
  rw [run_eq, upsert]
  dsimp only
  split
  · next r hr => exact .updated r hr
  · next hnone =>
    split
    · next hexists => exact .inserted _ hnone hexists rfl rfl
    · next hmissing => exact .refused hnone hmissing

theorem before_of_some {c : ReceiptCall} {d : ReceiptTables} {r : NotificationReceipt}
    (hr : lookup NotificationReceipt.pair c.target d.receipts = some r) : c.before d = r.state := by
  rw [before, hr]
  rfl

theorem before_of_none {c : ReceiptCall} {d : ReceiptTables}
    (hnone : lookup NotificationReceipt.pair c.target d.receipts = none) :
    c.before d = .blank := by
  rw [before, hnone]
  rfl

/-- **The spec of a call that succeeds**: it returns the row it stores, which is the effect on the
row before. -/
theorem run_ok {c : ReceiptCall} {d : ReceiptTables} {r : NotificationReceipt}
    (h : (c.run d).1 = .ok r) :
    lookup NotificationReceipt.pair c.target (c.run d).2.receipts = some r
      ∧ r.state = c.action.effect c.now (c.before d) := by
  have heffect := c.run_effect d
  generalize c.run d = o at heffect h
  cases heffect with
  | updated r' hr' =>
    obtain rfl := Except.ok.inj h
    rw [before_of_some hr', lookup_update_key c.pair_set, if_pos rfl, hr']
    exact ⟨rfl, rfl⟩
  | inserted r' hnone hexists hpair hstate =>
    obtain rfl := Except.ok.inj h
    rw [before_of_none hnone, lookup_concat, hnone, if_pos hpair]
    exact ⟨rfl, hstate⟩
  | refused hnone hmissing => cases h

/-- **The frame of a call**: the other rows stay. -/
theorem run_frame (c : ReceiptCall) (d : ReceiptTables) :
    (c.run d).2.receipts.filter (fun r => r.pair ≠ c.target)
      = d.receipts.filter fun r => r.pair ≠ c.target := by
  have heffect := c.run_effect d
  generalize c.run d = o at heffect
  cases heffect with
  | updated r hr =>
    rw [update, List.filter_map]
    have hpred : (fun r : NotificationReceipt => decide (r.pair ≠ c.target))
        ∘ (fun r => if decide (r.pair = c.target) = true then c.set r else r)
        = fun r => decide (r.pair ≠ c.target) := by
      funext r
      by_cases hpair : r.pair = c.target <;> simp [hpair]
    rw [hpred]
    refine (List.map_congr_left fun r hr => ?_).trans (List.map_id _)
    have hpair := of_decide_eq_true (List.mem_filter.mp hr).2
    simp [hpair]
  | inserted r hnone hexists hpair hstate => simp [hpair]
  | refused hnone hmissing => rfl

/-- A call that fails stores nothing. -/
theorem run_error {c : ReceiptCall} {d : ReceiptTables} {e : ReceiptError}
    (h : (c.run d).1 = .error e) : (c.run d).2.receipts = d.receipts := by
  have heffect := c.run_effect d
  generalize c.run d = o at heffect h
  cases heffect with
  | updated r hr => cases h
  | inserted r hnone hexists hpair hstate => cases h
  | refused hnone hmissing => rfl

end ReceiptCall

/-! ## Runs -/

/-- A step of a run: a call, or what becomes of the rows the receipts point to. -/
inductive ReceiptStep
  | call (c : ReceiptCall)
  | createNotification (id : Nat)
  | createUser (id : Nat)
  | deleteNotification (id : Nat)
  | deleteUser (id : Nat)
  deriving DecidableEq, Repr

/-- A step; the foreign keys are `ON DELETE CASCADE`. -/
def ReceiptStep.apply (d : ReceiptTables) : ReceiptStep → ReceiptTables
  | .call c => (c.run d).2
  | .createNotification id => { d with notifications := d.notifications ++ [id] }
  | .createUser id => { d with users := d.users ++ [id] }
  | .deleteNotification id =>
    { d with
      notifications := d.notifications.filter (· ≠ id)
      receipts := delete (fun r => r.notificationId = id) d.receipts }
  | .deleteUser id =>
    { d with
      users := d.users.filter (· ≠ id)
      receipts := delete (fun r => r.userId = id) d.receipts }

def ReceiptTables.runSteps (steps : List ReceiptStep) (d : ReceiptTables) : ReceiptTables :=
  steps.foldl ReceiptStep.apply d

/-- The table as the migration creates it. -/
def ReceiptTables.created (notifications users : List Nat) : ReceiptTables :=
  { notifications, users, receipts := [], nextReceiptId := 1 }

namespace ReceiptTables

/-- What holds of the table at every moment. -/
structure Sound (d : ReceiptTables) : Prop where
  unique : Keyed NotificationReceipt.pair d.receipts
  exclusive : ∀ r ∈ d.receipts, r.state.Exclusive
  referenced : ∀ r ∈ d.receipts, r.notificationId ∈ d.notifications ∧ r.userId ∈ d.users

theorem sound_created (notifications users : List Nat) : (created notifications users).Sound where
  unique := keyed_nil
  exclusive := by simp [created]
  referenced := by simp [created]

/-- **A call keeps the table sound.** -/
theorem Sound.call {d : ReceiptTables} (hd : d.Sound) (c : ReceiptCall) : (c.run d).2.Sound := by
  have heffect := c.run_effect d
  generalize c.run d = o at heffect
  cases heffect with
  | updated r hr =>
    refine ⟨keyed_update c.pair_set hd.unique, fun r' hr' => ?_, fun r' hr' => ?_⟩
    · obtain ⟨r, hr, rfl⟩ := mem_update.mp hr'
      split
      · exact c.action.exclusive_effect (hd.exclusive r hr)
      · exact hd.exclusive r hr
    · obtain ⟨r, hr, rfl⟩ := mem_update.mp hr'
      split
      · exact hd.referenced r hr
      · exact hd.referenced r hr
  | inserted r hnone hexists hpair hstate =>
    refine ⟨keyed_concat hd.unique (hpair ▸ hnone), fun r' hr' => ?_, fun r' hr' => ?_⟩
    · rcases List.mem_append.mp hr' with hr' | hr'
      · exact hd.exclusive r' hr'
      · obtain rfl := List.mem_singleton.mp hr'
        rw [hstate]
        exact c.action.exclusive_effect ReceiptState.exclusive_blank
    · rcases List.mem_append.mp hr' with hr' | hr'
      · exact hd.referenced r' hr'
      · obtain rfl := List.mem_singleton.mp hr'
        obtain ⟨hnotification, huser⟩ := Prod.mk.inj hpair
        exact hnotification ▸ huser ▸ hexists
  | refused hnone hmissing => exact ⟨hd.unique, hd.exclusive, hd.referenced⟩

theorem Sound.apply {d : ReceiptTables} (hd : d.Sound) (step : ReceiptStep) :
    (step.apply d).Sound := by
  cases step with
  | call c => exact hd.call c
  | createNotification id =>
    exact ⟨hd.unique, hd.exclusive, fun r hr =>
      ⟨List.mem_append_left _ (hd.referenced r hr).1, (hd.referenced r hr).2⟩⟩
  | createUser id =>
    exact ⟨hd.unique, hd.exclusive, fun r hr =>
      ⟨(hd.referenced r hr).1, List.mem_append_left _ (hd.referenced r hr).2⟩⟩
  | deleteNotification id =>
    refine ⟨keyed_delete hd.unique, fun r hr => hd.exclusive r (mem_delete.mp hr).1,
      fun r hr => ?_⟩
    obtain ⟨hr, hid⟩ := mem_delete.mp hr
    exact ⟨List.mem_filter.mpr ⟨(hd.referenced r hr).1, by simpa using hid⟩, (hd.referenced r hr).2⟩
  | deleteUser id =>
    refine ⟨keyed_delete hd.unique, fun r hr => hd.exclusive r (mem_delete.mp hr).1,
      fun r hr => ?_⟩
    obtain ⟨hr, hid⟩ := mem_delete.mp hr
    exact ⟨(hd.referenced r hr).1, List.mem_filter.mpr ⟨(hd.referenced r hr).2, by simpa using hid⟩⟩

/-- **The run lemma.** -/
theorem Sound.runSteps {d : ReceiptTables} (hd : d.Sound) (steps : List ReceiptStep) :
    (d.runSteps steps).Sound := by
  induction steps generalizing d with
  | nil => exact hd
  | cons step steps ih => exact ih (hd.apply step)

end ReceiptTables

/-- What an operation does to the receipts, at a moment of a run. -/
structure ReceiptCall.Lawful (c : ReceiptCall) (d : ReceiptTables) : Prop where
  /-- it succeeds if the notification and the user exist -/
  succeeds : (∃ r, (c.run d).1 = .ok r) ↔ c.notificationId ∈ d.notifications ∧ c.userId ∈ d.users
  /-- it returns the receipt that is stored now -/
  stored : ∀ r, (c.run d).1 = .ok r →
    lookup NotificationReceipt.pair c.target (c.run d).2.receipts = some r
  /-- a missing receipt counts as a blank one -/
  missing : ∀ r b : NotificationReceipt, (c.run d).1 = .ok r →
    lookup NotificationReceipt.pair c.target d.receipts = none →
    b.pair = c.target → b.state = .blank →
    ∃ r', (c.run { d with receipts := d.receipts ++ [b] }).1 = .ok r' ∧ r'.state = r.state
  /-- `dismiss`, `snooze` and `restore` keep `read_at` -/
  keepsRead : ∀ r, (c.run d).1 = .ok r → c.action.reads = false →
    r.readAt = (c.before d).readAt
  /-- `mark_read` and `mark_unread` keep the other two -/
  keepsOthers : ∀ r, (c.run d).1 = .ok r → c.action.reads = true →
    r.dismissedAt = (c.before d).dismissedAt ∧ r.snoozedUntil = (c.before d).snoozedUntil
  /-- `restore` clears them -/
  restores : ∀ r, (c.run d).1 = .ok r → c.action = .restore →
    r.dismissedAt = none ∧ r.snoozedUntil = none
  /-- the receipts of other users and of other notifications stay -/
  frame : (c.run d).2.receipts.filter (fun r => r.pair ≠ c.target)
    = d.receipts.filter fun r => r.pair ≠ c.target
  /-- a call that fails changes no receipt -/
  unchanged : ∀ e, (c.run d).1 = .error e → (c.run d).2.receipts = d.receipts

theorem ReceiptCall.succeeds_iff {d : ReceiptTables} (hd : d.Sound) (c : ReceiptCall) :
    (∃ r, (c.run d).1 = .ok r) ↔ c.notificationId ∈ d.notifications ∧ c.userId ∈ d.users := by
  have heffect := c.run_effect d
  generalize c.run d = o at heffect
  cases heffect with
  | updated r hr =>
    refine ⟨fun _ => ?_, fun _ => ⟨_, rfl⟩⟩
    have hpair : r.pair = c.target := key_of_lookup hr
    obtain ⟨hnotification, huser⟩ := Prod.mk.inj hpair
    exact hnotification ▸ huser ▸ hd.referenced r (mem_of_lookup hr)
  | inserted r hnone hexists hpair hstate => exact ⟨fun _ => hexists, fun _ => ⟨_, rfl⟩⟩
  | refused hnone hmissing =>
    refine ⟨fun ⟨r, h⟩ => ?_, fun h => (hmissing h).elim⟩
    cases h

/-- On a blank receipt an operation does what it does on a missing one. -/
theorem ReceiptCall.run_blank {c : ReceiptCall} {d : ReceiptTables} {r b : NotificationReceipt}
    (h : (c.run d).1 = .ok r) (hnone : lookup NotificationReceipt.pair c.target d.receipts = none)
    (hpair : b.pair = c.target) (hblank : b.state = .blank) :
    ∃ r', (c.run { d with receipts := d.receipts ++ [b] }).1 = .ok r' ∧ r'.state = r.state := by
  have hb : lookup NotificationReceipt.pair c.target (d.receipts ++ [b]) = some b := by
    rw [lookup_concat, hnone, if_pos hpair]
    rfl
  refine ⟨c.set b, ?_, ?_⟩
  · have heffect := c.run_effect { d with receipts := d.receipts ++ [b] }
    generalize c.run { d with receipts := d.receipts ++ [b] } = o at heffect
    cases heffect with
    | updated r' hr' =>
      obtain rfl := Option.some.inj (hb.symm.trans hr')
      rfl
    | inserted r' hnone' => exact absurd (hb.symm.trans hnone') (by simp)
    | refused hnone' => exact absurd (hb.symm.trans hnone') (by simp)
  · rw [(run_ok h).2, before_of_none hnone, state_set, hblank]

theorem ReceiptCall.lawful {d : ReceiptTables} (hd : d.Sound) (c : ReceiptCall) : c.Lawful d where
  succeeds := c.succeeds_iff hd
  stored := fun r h => (run_ok h).1
  missing := fun r b h hnone hpair hblank => run_blank h hnone hpair hblank
  keepsRead := fun r h hreads => by
    have hkeeps := c.action.effect_preserves c.now (c.before d)
    rw [hreads, ← (run_ok h).2] at hkeeps
    exact hkeeps
  keepsOthers := fun r h hreads => by
    have hkeeps := c.action.effect_preserves c.now (c.before d)
    rw [hreads, ← (run_ok h).2] at hkeeps
    exact hkeeps
  restores := fun r h hrestore => by
    have hstate := (run_ok h).2
    rw [hrestore] at hstate
    exact ⟨congrArg ReceiptState.dismissedAt hstate, congrArg ReceiptState.snoozedUntil hstate⟩
  frame := c.run_frame d
  unchanged := fun e h => run_error h

/-- **The receipts over every run**: one for each notification and user, none dismissed and asleep,
and every operation lawful at every moment. -/
theorem receipts_lawful (notifications users : List Nat) (steps : List ReceiptStep) :
    let d := (ReceiptTables.created notifications users).runSteps steps
    (∀ k, (d.receipts.filter fun r => r.pair = k).length ≤ 1)
    ∧ (∀ r ∈ d.receipts, ¬ (r.dismissedAt.isSome ∧ r.snoozedUntil.isSome))
    ∧ ∀ c : ReceiptCall, c.Lawful d := by
  intro d
  have hd : d.Sound := (ReceiptTables.sound_created notifications users).runSteps steps
  exact ⟨length_filter_le_one hd.unique, hd.exclusive, fun c => c.lawful hd⟩

end DevPortal
