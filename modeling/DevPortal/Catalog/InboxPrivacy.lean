import DevPortal.Catalog.InboxRequests

/-!
# Catalog/InboxPrivacy — what a request of the inbox may see and change

    seen by the request:  session ─ user u ─ notification n, which u may see
                                               │
    a statement of it  ── upserts the row (n, u) ◂┘              (`InboxChange`)
    its answer         ── views of such n, with receipts of u    (`InboxAnswered`)

So nothing anybody else does, an administrator included, changes the receipts of a user.
-/

namespace DevPortal

open Autocommit

namespace Catalog

/-! ## What may be seen and changed -/

/-- The user may see the notification, as far as the request has seen. -/
inductive MaySee (past : List (Step Store)) (u : Nat) (n : Notification) : Prop
  | admin (h : SeenAdmin past u)
  | own (h : n.ownerUserId = some u)
  | everybody (howner : n.ownerUserId = none) (hmaintainer : n.maintainerId = none)
  | member {m : Nat} (hm : n.maintainerId = some m)
    (h : Seen past fun d => ∃ x ∈ d.members, x.isOf m u)

/-- A view is one of a notification that the user may see, and of a receipt of the user. -/
def Shown (past : List (Step Store)) (u : Nat) (v : NotificationView) : Prop :=
  ∃ n receipt, v = .fromRecord n receipt ∧ Seen past (fun d => n ∈ d.notifications) ∧
    MaySee past u n ∧ ∀ r ∈ receipt, r.pair = (n.id, u) ∧ Seen past fun d => r ∈ d.receipts

/-- What a route does with which notification, and its name in the log. -/
def InboxRoute.action : InboxRoute → Option (Int × String × ReceiptAction)
  | markNotificationRead id => some (id, "mark_read", .markRead)
  | markNotificationUnread id => some (id, "mark_unread", .markUnread)
  | dismissNotification id => some (id, "dismiss", .dismiss)
  | snoozeNotification id (some t) => some (id, "snooze", .snooze t)
  | restoreNotification id => some (id, "restore", .restore)
  | snoozeNotification _ none | getInbox _ | viewNotification _ => none

/-- The request is one of the user. -/
abbrev InboxAuthentic (env : InboxEnv) (r : InboxRequest) (past : List (Step Store))
    (auth : AuthenticatedUser) : Prop :=
  AuthenticAs env.toAuthEnv r.route.method r.headers past auth

/-- **A step that acts on a notification**: the receipt it leaves is that of the user, and says what the
action makes of the one before; the log entry tells it. -/
inductive Acted (env : InboxEnv) (route : InboxRoute) (u : Nat) (n : Notification) :
    Step Store → NotificationReceipt → NewAuditLog → Prop
  | intro (d : Store) {name : String} {action : ReceiptAction} {id : Nat}
    {receipt : NotificationReceipt} (hroute : route.action = some ((n.id : Int), name, action))
    (hstored : receipt ∈ (d.act action n.id u id).receipts) (hpair : receipt.pair = (n.id, u))
    (hstate : receipt.state = action.effect d.clock
      ((d.receiptCall action n.id u).before (d.receiptTables id))) :
    Acted env route u n ⟨d, d.act action n.id u id⟩ receipt
      (receiptLogged env.timestamp u name n.id receipt)

/-- **What a statement of a request may do**, given what the request has seen. -/
inductive InboxChange (env : InboxEnv) (r : InboxRequest) (past : List (Step Store)) :
    Step Store → Prop
  | reads (d : Store) : InboxChange env r past ⟨d, d⟩
  | dropsStale (d : Store) {token : RequestToken} (htoken : env.requestToken r.headers = some token)
    (hstale : SeenStale env.sessionTokenHash past token.value) :
    InboxChange env r past ⟨d, d.dropToken env.sessionTokenHash token.value⟩
  | acts (d : Store) {auth : AuthenticatedUser} (ha : InboxAuthentic env r past auth)
    {n : Notification} {name : String} {action : ReceiptAction}
    (hroute : r.route.action = some ((n.id : Int), name, action))
    (hn : Seen past fun d => n ∈ d.notifications) (hsee : MaySee past auth.user.id n) (id : Nat) :
    InboxChange env r past ⟨d, d.act action n.id auth.user.id id⟩
  | logs (d : Store) {auth : AuthenticatedUser} (ha : InboxAuthentic env r past auth) {row : AuditLog}
    {n : Notification} {receipt : NotificationReceipt} {s : Step Store} {rest : List (Step Store)}
    (hpast : past = s :: rest)
    (h : Acted env r.route auth.user.id n s receipt row.toNewAuditLog) :
    InboxChange env r past ⟨d, { d with auditLogs := d.auditLogs ++ [row] }⟩

/-- **What an answer says**, given what the request has done. -/
inductive InboxAnswered (env : InboxEnv) (r : InboxRequest) : InboxAnswer → List (Step Store) → Prop
  | acted (d : Store) {auth : AuthenticatedUser} {row : AuditLog} {n : Notification}
    {receipt : NotificationReceipt} {s : Step Store} {rest : List (Step Store)}
    (ha : InboxAuthentic env r (s :: rest) auth) (hsee : MaySee (s :: rest) auth.user.id n)
    (h : Acted env r.route auth.user.id n s receipt row.toNewAuditLog) :
    InboxAnswered env r (.view (.fromRecord n (some receipt)))
      (⟨d, { d with auditLogs := d.auditLogs ++ [row] }⟩ :: s :: rest)
  | shown {auth : AuthenticatedUser} {past : List (Step Store)} {v : NotificationView}
    (ha : InboxAuthentic env r past auth) (hroute : r.route = .viewNotification v.record.id)
    (h : Shown past auth.user.id v) : InboxAnswered env r (.view v) past
  | listed {auth : AuthenticatedUser} {past : List (Step Store)} {query : InboxQuery}
    {items : List NotificationView} {total : Nat} {page pageSize : Int}
    (ha : InboxAuthentic env r past auth) (hroute : r.route = .getInbox query)
    (h : ∀ v ∈ items, Shown past auth.user.id v) :
    InboxAnswered env r (.inbox items total page pageSize) past

/-! ## Rules -/

section Rules

variable {P : List (Step Store) → Step Store → Prop} {E : ApiError → List (Step Store) → Prop}
  {past : List (Step Store)} {auth : AuthenticatedUser}

theorem MaySee.append {u : Nat} {n : Notification} (h : MaySee past u n) (new : List (Step Store)) :
    MaySee (new ++ past) u n := by
  cases h with
  | admin h => exact .admin (h.append new)
  | own h => exact .own h
  | everybody howner hmaintainer => exact .everybody howner hmaintainer
  | member hm h => exact .member hm (h.append new)

/-- The memberships of a user that were read. -/
def SeenMemberships (past : List (Step Store)) (u : Nat) (rows : List MaintainerMember) : Prop :=
  Seen past fun d => ∀ x ∈ rows, x ∈ d.members ∧ x.userId = (u : Int)

theorem maySee_of_member {rows : List MaintainerMember} {n : Notification} {m : Nat}
    (hrows : SeenMemberships past auth.user.id rows) (hm : n.maintainerId = some m)
    (hmem : m ∈ (accessScope auth rows).maintainerIds) : MaySee past auth.user.id n := by
  obtain ⟨x, hx, hnat⟩ := List.mem_filterMap.mp hmem
  obtain ⟨s, hs, hseen⟩ := hrows
  refine .member hm ⟨s, hs, x, (hseen x hx).1, isOf_iff.mpr ⟨?_, (hseen x hx).2⟩⟩
  exact (Int.mem_toNat?.mp hnat)

/-- What the program allows may be seen. -/
theorem maySee_of_allows {rows : List MaintainerMember} {n : Notification}
    (hadmin : auth.isAdmin → SeenAdmin past auth.user.id)
    (hrows : SeenMemberships past auth.user.id rows)
    (h : (accessScope auth rows).allows n.ownerUserId n.maintainerId) :
    MaySee past auth.user.id n := by
  unfold RecordAccessScope.allows at h
  split at h
  · next hisAdmin => exact .admin (hadmin hisAdmin)
  split at h
  · next howner hmaintainer => exact .own (howner.trans (congrArg some (of_decide_eq_true h)))
  · next howner hmaintainer => exact maySee_of_member hrows hmaintainer (of_decide_eq_true h)
  · next howner hmaintainer => exact .everybody howner hmaintainer
  · cases h

/-- What the filter of the database selects may be seen. -/
theorem maySee_of_selects {rows : List MaintainerMember} {p : NotificationRepository.Joined}
    (hadmin : auth.isAdmin → SeenAdmin past auth.user.id)
    (hrows : SeenMemberships past auth.user.id rows)
    (h : (NotificationRepository.joinedScopeFilter (accessScope auth rows)).selects p) :
    MaySee past auth.user.id p.1 := by
  rw [NotificationRepository.joinedScopeFilter, scopeFilter] at h
  split at h
  · next hisAdmin => exact .admin (hadmin hisAdmin)
  rw [Sql.Where.selects_cons, Sql.Cond.or_holds, Sql.Cond.or_holds, Sql.Cond.and_holds,
    Sql.isNull_holds, Sql.isNull_holds] at h
  obtain ⟨(howner | hmember) | ⟨howner, hmaintainer⟩, -⟩ := h
  · exact .own (Sql.eq_some_holds.mp howner)
  · obtain ⟨m, hm, hmem⟩ := Sql.eqAny_holds.mp hmember
    exact maySee_of_member hrows hm hmem
  · exact .everybody howner hmaintainer

variable (hidle : ∀ past d, P past ⟨d, d⟩) (hE : ∀ e p, E e p)

include hidle hE

theorem wp_recordAccessScope {Q : RecordAccessScope → List (Step Store) → Prop}
    (h : ∀ d rows, SeenMemberships (⟨d, d⟩ :: past) auth.user.id rows →
      Q (accessScope auth rows) (⟨d, d⟩ :: past)) :
    (recordAccessScope auth).wp P E Q past := by
  rw [recordAccessScope, Routine.wp_bind]
  refine wp_found hidle hE fun d rows hrows => ?_
  obtain rfl := Except.ok.inj hrows
  refine wp_returns (h d _ (seen_head fun x hx => ?_))
  obtain ⟨hmem, huser⟩ := List.mem_filter.mp (List.mem_mergeSort.mp hx)
  exact ⟨hmem, of_decide_eq_true huser⟩

/-- **The rule of `find_accessible_notification`.** -/
theorem wp_findAccessibleNotification {id : Int} {Q : Notification → List (Step Store) → Prop}
    (hadmin : auth.isAdmin → SeenAdmin past auth.user.id)
    (h : ∀ new (n : Notification), (n.id : Int) = id →
      Seen (new ++ past) (fun d => n ∈ d.notifications) → MaySee (new ++ past) auth.user.id n →
      Q n (new ++ past)) :
    (findAccessibleNotification auth id).wp P E Q past := by
  rw [findAccessibleNotification, Routine.wp_bind]
  refine wp_found hidle hE fun d₁ n hn => ?_
  obtain ⟨hrow, hid⟩ := getResult_ok hn
  rw [Routine.wp_bind]
  refine wp_recordAccessScope hidle hE fun d₂ rows hrows => ?_
  split
  · next hallows =>
    refine wp_returns (h [⟨d₂, d₂⟩, ⟨d₁, d₁⟩] n (of_decide_eq_true hid)
      ((seen_head hrow).cons _) (maySee_of_allows (fun hisAdmin => ?_) hrows hallows))
    exact (hadmin hisAdmin).append [⟨d₂, d₂⟩, ⟨d₁, d₁⟩]
  · exact wp_fails hE

/-- **The rule of an upsert.** -/
theorem wp_upsertReceipt {action : ReceiptAction} {n u : Nat}
    {Q : NotificationReceipt → List (Step Store) → Prop}
    (h : ∀ (d : Store) id (receipt : NotificationReceipt),
      receipt ∈ (d.act action n u id).receipts → receipt.pair = (n, u) →
      receipt.state = action.effect d.clock
        ((d.receiptCall action n u).before (d.receiptTables id)) →
      P past ⟨d, d.act action n u id⟩ ∧ Q receipt (⟨d, d.act action n u id⟩ :: past)) :
    (orFail (NotificationReceiptRepository.upsert action n u)).wp P E Q past := by
  refine wp_statement hidle hE fun c d receipt d' hrun => ?_
  split at hrun
  · next receipt' hok =>
    obtain ⟨rfl, rfl⟩ := Prod.mk.inj (Except.ok.inj hrun)
    obtain ⟨hstored, hstate⟩ := ReceiptCall.run_ok hok
    exact h d c.id receipt' (Table.mem_of_lookup hstored) (Table.key_of_lookup hstored) hstate
  · cases hrun

end Rules

/-! ## The routes by themselves -/

section Routes

variable {env : InboxEnv} {r : InboxRequest} {past : List (Step Store)} {auth : AuthenticatedUser}

theorem inboxChange_idle (past : List (Step Store)) (d : Store) : InboxChange env r past ⟨d, d⟩ :=
  .reads d

/-- A call satisfies the conditions of its request. -/
abbrev InboxMeets (env : InboxEnv) (r : InboxRequest) (x : Call InboxAnswer)
    (past : List (Step Store)) : Prop :=
  x.wp (InboxChange env r) anyError (InboxAnswered env r) past

/-- **The end of the routes that act on a notification.** -/
theorem meets_actOnNotification {n : Notification} {name : String} {action : ReceiptAction}
    (ha : InboxAuthentic env r past auth) (hroute : r.route.action = some ((n.id : Int), name, action))
    (hn : Seen past fun d => n ∈ d.notifications) (hsee : MaySee past auth.user.id n) :
    InboxMeets env r (actOnNotification env auth n.id name action n) past := by
  rw [InboxMeets, actOnNotification, Routine.wp_bind, Int.toNat_natCast]
  refine wp_upsertReceipt inboxChange_idle (fun _ _ => trivial)
    fun d id receipt hmem hpair hstate => ⟨.acts d ha hroute hn hsee id, ?_⟩
  have hacted : Acted env r.route auth.user.id n ⟨d, d.act action n.id auth.user.id id⟩ receipt
      (receiptLogged env.timestamp auth.user.id name n.id receipt) :=
    .intro d hroute hmem hpair hstate
  rw [Routine.wp_bind]
  refine wp_recordAuditLog inboxChange_idle (fun _ _ => trivial) fun d' row hrow => ?_
  rw [← hrow] at hacted
  exact ⟨.logs d' (ha.cons _) rfl hacted,
    wp_returns (.acted d' (ha.cons _) (hsee.append [_]) hacted)⟩

/-- Four of the five routes. -/
theorem meets_found {id : Int} {name : String} {action : ReceiptAction}
    (ha : InboxAuthentic env r past auth) (hroute : r.route.action = some (id, name, action)) :
    InboxMeets env r (findAccessibleNotification auth id >>= actOnNotification env auth id name action)
      past := by
  rw [InboxMeets, Routine.wp_bind]
  refine wp_findAccessibleNotification inboxChange_idle (fun _ _ => trivial) ha.seenAdmin
    fun new n hid hn hsee => ?_
  subst hid
  exact meets_actOnNotification (ha.append new) hroute hn hsee

theorem meets_snoozeNotification {id : Int} {body : Option DateTime}
    (ha : InboxAuthentic env r past auth) (hroute : r.route = .snoozeNotification id body) :
    InboxMeets env r (snoozeNotification env auth id body) past := by
  rw [InboxMeets, snoozeNotification, Routine.wp_bind]
  refine wp_jsonBody (fun _ _ => trivial) fun t hbody => ?_
  subst hbody
  rw [Routine.wp_bind]
  refine wp_findAccessibleNotification inboxChange_idle (fun _ _ => trivial) ha.seenAdmin
    fun new n hid hn hsee => ?_
  subst hid
  rw [Routine.wp_bind]
  refine Routine.wp_read (inboxChange_idle _) fun _ d => ?_
  rw [Routine.wp_bind]
  refine wp_validateRequest (fun _ _ => trivial) ?_
  exact meets_actOnNotification ((ha.append new).cons _) (by rw [hroute]; rfl) (hn.cons _)
    (hsee.append [_])

theorem meets_viewNotification {id : Int} (ha : InboxAuthentic env r past auth)
    (hroute : r.route = .viewNotification id) :
    InboxMeets env r (viewNotification auth id) past := by
  rw [InboxMeets, viewNotification, Routine.wp_bind]
  refine wp_findAccessibleNotification inboxChange_idle (fun _ _ => trivial) ha.seenAdmin
    fun new n hid hn hsee => ?_
  subst hid
  rw [Routine.wp_bind]
  refine wp_found inboxChange_idle (fun _ _ => trivial) fun d receipt hreceipt => ?_
  obtain rfl := Except.ok.inj hreceipt
  refine wp_returns (.shown ((ha.append new).cons _) hroute
    ⟨n, _, rfl, hn.cons _, hsee.append [_], fun receipt hfind => ?_⟩)
  have hfind := Option.mem_def.mp hfind
  have hpair := List.find?_some hfind
  exact ⟨of_decide_eq_true hpair, seen_head (List.mem_of_find?_eq_some hfind)⟩

/-- A notification is joined with a receipt of its own and of the user, if with any. -/
theorem mem_withReceipt {u : Nat} {notifications : List Notification}
    {receipts : List NotificationReceipt} {p : NotificationRepository.Joined}
    (hp : p ∈ NotificationRepository.withReceipt u notifications receipts) :
    p.1 ∈ notifications ∧ ∀ r ∈ p.2, r.pair = (p.1.id, u) ∧ r ∈ receipts := by
  refine ⟨Sql.fst_mem_of_mem_leftJoin hp, ?_⟩
  obtain ⟨n, -, hp⟩ := List.mem_flatMap.mp hp
  split at hp
  · obtain rfl := List.mem_singleton.mp hp
    exact fun r hr => (Option.not_mem_none r hr).elim
  · obtain ⟨r, hr, rfl⟩ := List.mem_map.mp hp
    rintro r' hr'
    obtain rfl := Option.some.inj hr'
    obtain ⟨hmem, hon⟩ := List.mem_filter.mp hr
    obtain ⟨hid, huser⟩ := (Sql.Cond.and_holds ..).mp (of_decide_eq_true hon)
    exact ⟨Prod.ext (Option.some.inj (Sql.eq_some_holds.mp hid))
      (Option.some.inj (Sql.eq_some_holds.mp huser)), hmem⟩

/-- What a query of the inbox lists is shown. -/
theorem shown_inboxForAccess {rows : List MaintainerMember} {now : DateTime} {filters : InboxFilters}
    {number pageSize : Nat} {d : Store} {v : NotificationView}
    (hadmin : auth.isAdmin → SeenAdmin past auth.user.id)
    (hrows : SeenMemberships past auth.user.id rows)
    (hv : v ∈ (NotificationRepository.inboxForAccess env.ilike now (accessScope auth rows) filters
      number pageSize d.notifications d.receipts).1) :
    Shown (⟨d, d⟩ :: past) auth.user.id v := by
  obtain ⟨p, hp, rfl⟩ := List.mem_map.mp hv
  have hp := Sql.Order.mem_sort.mp (List.mem_of_mem_drop (List.mem_of_mem_take hp))
  obtain ⟨hjoined, hselects⟩ := Sql.Where.mem_rows.mp hp
  rw [Sql.Where.selects_append, Bool.and_eq_true] at hselects
  obtain ⟨hmem, hreceipt⟩ := mem_withReceipt hjoined
  exact ⟨p.1, p.2, rfl, seen_head hmem,
    (maySee_of_selects hadmin hrows hselects.2).append [_],
    fun r hr => ⟨(hreceipt r hr).1, seen_head (hreceipt r hr).2⟩⟩

theorem meets_getInbox {query : InboxQuery} (ha : InboxAuthentic env r past auth)
    (hroute : r.route = .getInbox query) : InboxMeets env r (getInbox env auth query) past := by
  rw [InboxMeets, getInbox, Routine.wp_bind]
  refine wp_validateRequest (fun _ _ => trivial) ?_
  rw [Routine.wp_bind]
  refine wp_recordAccessScope inboxChange_idle (fun _ _ => trivial) fun d₁ rows hrows => ?_
  rw [Routine.wp_bind]
  refine Routine.wp_read (inboxChange_idle _) fun _ d₂ => ?_
  rw [Routine.wp_bind]
  refine wp_found inboxChange_idle (fun _ _ => trivial) fun d₃ total _ => ?_
  rw [Routine.wp_bind]
  refine wp_found inboxChange_idle (fun _ _ => trivial) fun d₄ items hitems => ?_
  obtain rfl := Except.ok.inj hitems
  have ha := ((ha.cons ⟨d₁, d₁⟩).cons ⟨d₂, d₂⟩).cons ⟨d₃, d₃⟩
  have hrows : SeenMemberships (⟨d₃, d₃⟩ :: ⟨d₂, d₂⟩ :: ⟨d₁, d₁⟩ :: past) auth.user.id rows :=
    Seen.append hrows [⟨d₃, d₃⟩, ⟨d₂, d₂⟩]
  exact wp_returns (.listed (ha.cons _) hroute fun v hv =>
    shown_inboxForAccess ha.seenAdmin hrows hv)

/-- **Every route**, once the guard has let the request through. -/
theorem inboxMeets_run (ha : InboxAuthentic env r past auth) :
    InboxMeets env r (r.route.run env auth) past := by
  cases hroute : r.route with
  | getInbox query => exact meets_getInbox ha hroute
  | viewNotification id => exact meets_viewNotification ha hroute
  | markNotificationRead id => exact meets_found ha (by rw [hroute]; rfl)
  | markNotificationUnread id => exact meets_found ha (by rw [hroute]; rfl)
  | dismissNotification id => exact meets_found ha (by rw [hroute]; rfl)
  | snoozeNotification id body => exact meets_snoozeNotification ha hroute
  | restoreNotification id => exact meets_found ha (by rw [hroute]; rfl)

/-- **Every request by itself**, whatever states it finds. -/
theorem serveInbox_wp (env : InboxEnv) (r : InboxRequest) :
    InboxMeets env r (serveInbox env r) [] := by
  rw [InboxMeets, serveInbox, Routine.wp_bind]
  refine wp_fromRequest inboxChange_idle (fun _ _ => trivial)
    (fun past d token htoken hstale => .dropsStale d htoken hstale) fun auth new ha => ?_
  rw [Routine.wp_bind]
  exact wp_connect inboxChange_idle (fun _ _ => trivial) fun d => inboxMeets_run (ha.cons _)

end Routes

/-! ## All requests together -/

/-- The routes and what they keep to. -/
def inboxPrivacy (env : InboxEnv) : Contract (serveInbox env) where
  step := InboxChange env
  error := fun _ => anyError
  ok := InboxAnswered env
  serves := serveInbox_wp env

/-- **An inbox is shown to its user, and changed by its user**: in every run, a statement of a request
changes nothing, or the receipt of its own user for a notification that the request has seen and its user
may see, to what the action makes of it, or it adds the audit row of that, or removes sessions of the
request's token that the guard has seen expired; and each answer shows such notifications and receipts
only. -/
theorem inbox_requests_authorized {I : Type} [DecidableEq I] (env : InboxEnv)
    {outside : Store → Store → Prop} {d₀ : Store}
    {w : World I InboxRequest Outcome Store ApiError InboxAnswer}
    (hw : Reachable (serveInbox env) outside (World.idle d₀) w) :
    (∀ c ∈ w.log, InboxChange env c.request c.past c.step) ∧
      ∀ a ∈ w.answers, ∀ answer, a.result = .ok answer → InboxAnswered env a.request answer a.past := by
  have hok := Reachable.ok hw ((inboxPrivacy env).ok_idle d₀)
  refine ⟨hok.log, fun a ha answer hresult => ?_⟩
  have hanswer := hok.answers a ha
  rw [Contract.Answered, hresult] at hanswer
  exact hanswer

/-! ## A notification that is dismissed -/

namespace Scenario

def inboxEnv : InboxEnv where
  toAuthEnv := env
  ilike := fun _ _ => false
  timestamp := fun _ => "t"

/-- A request with a bearer token. -/
def inboxBearer (token : String) (route : InboxRoute) : InboxRequest :=
  ⟨⟨["Bearer " ++ token], [], []⟩, route⟩

def dismissed : World Unit InboxRequest Outcome Store ApiError InboxAnswer :=
  (World.idle store).serveAlone (serveInbox inboxEnv) ()
    (inboxBearer "ada-token" (.dismissNotification 5)) outcomes

theorem dismissed_authorized :
    (dismissed.state.receipts.map fun r => (r.pair, r.dismissedAt)) = [((5, 1), some 0)] ∧
      (dismissed.state.auditLogs.map fun l => (l.actorUserId, l.action)) = [(some 1, "dismiss")] ∧
      ((∀ c ∈ dismissed.log, InboxChange inboxEnv c.request c.past c.step) ∧
        ∀ a ∈ dismissed.answers, ∀ answer, a.result = .ok answer →
          InboxAnswered inboxEnv a.request answer a.past) :=
  ⟨by decide +kernel, by decide +kernel, @inbox_requests_authorized Unit _ inboxEnv
    (fun _ _ => False) store dismissed (reachable_serveAlone rfl _ _)⟩

end Scenario

/-! ## What the others do -/

/-- The receipts of a user. -/
def receiptsOf (u : Nat) (d : Store) : List NotificationReceipt :=
  d.receipts.filter fun r => r.userId = u

/-- An action of another user leaves them. -/
theorem receiptsOf_act {u v : Nat} (hne : v ≠ u) (d : Store) (action : ReceiptAction) (n id : Nat) :
    receiptsOf u (d.act action n v id) = receiptsOf u d := by
  let call := d.receiptCall action n v
  have hother : ∀ rows : List NotificationReceipt, rows.filter (fun r => r.userId = u) =
      (rows.filter fun r => r.pair ≠ call.target).filter fun r => r.userId = u := by
    intro rows
    rw [List.filter_filter]
    refine List.filter_congr fun r _ => ?_
    by_cases huser : r.userId = u
    · have hpair : r.pair ≠ call.target := fun h => hne ((congrArg Prod.snd h).symm.trans huser)
      simp [huser, hpair]
    · simp [huser]
  have hframe : (call.run (d.receiptTables id)).2.receipts.filter (fun r => r.pair ≠ call.target) =
      d.receipts.filter fun r => r.pair ≠ call.target := call.run_frame _
  change (call.run (d.receiptTables id)).2.receipts.filter (fun r => r.userId = u) = _
  rw [hother, hframe, ← hother]
  rfl

theorem InboxChange.receiptsOf_eq {env : InboxEnv} {r : InboxRequest} {past : List (Step Store)}
    {s : Step Store} {u : Nat} (h : InboxChange env r past s)
    (hother : ∀ auth, InboxAuthentic env r past auth → auth.user.id ≠ u) :
    receiptsOf u s.after = receiptsOf u s.before := by
  cases h with
  | acts d ha hroute hn hsee id => exact receiptsOf_act (hother _ ha) d _ _ _
  | _ => rfl

theorem InboxChange.sessions {env : InboxEnv} {r : InboxRequest} {past : List (Step Store)}
    {s : Step Store} (h : InboxChange env r past s) : ∀ x ∈ s.after.sessions, x ∈ s.before.sessions := by
  cases h with
  | dropsStale => exact fun x hx => (List.mem_filter.mp hx).1
  | _ => exact fun x hx => hx

/-- The requests of a coalition. -/
abbrev Coalition.serveInbox (k : Coalition) (env : InboxEnv)
    (r : { r : InboxRequest // k.Knows env.toAuthEnv r.headers }) : Call InboxAnswer :=
  Catalog.serveInbox env r.1

/-- **What the others do leaves an inbox alone.**  Requests of any other users, administrators among them,
in any order and side by side, leave the receipts of a user as they are, while nothing from outside
changes them or gives the others a session of the user. -/
theorem others_leave_inbox {I : Type} [DecidableEq I] {k : Coalition} {env : InboxEnv} {u : Nat}
    (hu : ¬ k.users u) {outside : Store → Store → Prop} {d₀ : Store}
    (h₀ : k.SignedIn env.sessionTokenHash d₀)
    (houtside : ∀ d d', outside d d' → k.SignedIn env.sessionTokenHash d →
      k.SignedIn env.sessionTokenHash d' ∧ receiptsOf u d' = receiptsOf u d)
    {w : World I { r : InboxRequest // k.Knows env.toAuthEnv r.headers } Outcome Store ApiError
      InboxAnswer}
    (hw : Reachable (k.serveInbox env) outside (World.idle d₀) w) :
    receiptsOf u w.state = receiptsOf u d₀ := by
  let γ := (inboxPrivacy env).comap
    (fun r : { r : InboxRequest // k.Knows env.toAuthEnv r.headers } => r.1)
  let inv : Store → Prop := fun d =>
    k.SignedIn env.sessionTokenHash d ∧ receiptsOf u d = receiptsOf u d₀
  have hkeeps : ∀ r past s, (True → SawOnly inv past) → inv s.before → γ.step r past s →
      inv s.after := by
    intro r past s hpast hs hstep
    have hstep : InboxChange env r.1 past s := hstep
    have hsigned : SawOnly (k.SignedIn env.sessionTokenHash) past :=
      fun s' hs' => ⟨(hpast trivial s' hs').1.1, (hpast trivial s' hs').2.1⟩
    refine ⟨fun token ht x hx => hs.1 token ht x (hstep.sessions x hx), ?_⟩
    refine (hstep.receiptsOf_eq fun auth ha heq => hu ?_).trans hs.2
    exact heq ▸ AuthenticAs.mem_coalition hsigned ha r.2
  have hout : ∀ d d', inv d → outside d d' → inv d' := fun d d' hd ho =>
    ⟨(houtside d d' ho hd.1).1, (houtside d d' ho hd.1).2.trans hd.2⟩
  exact (Reachable.confined hkeeps hout hw (γ.ok_idle d₀)
    ⟨⟨h₀, rfl⟩, fun _ _ h => (nomatch h)⟩).1.state.2

namespace Scenario

theorem stranger_knows (route : InboxRoute) :
    stranger.Knows inboxEnv.toAuthEnv (inboxBearer "bob-token" route).headers :=
  stranger_sends .me

/-- The stranger dismisses a notification. -/
def elsewhere : World Unit { r : InboxRequest // stranger.Knows inboxEnv.toAuthEnv r.headers } Outcome
    Store ApiError InboxAnswer :=
  (World.idle store).serveAlone (stranger.serveInbox inboxEnv) ()
    ⟨inboxBearer "bob-token" (.dismissNotification 5), stranger_knows _⟩ outcomes

theorem elsewhere_leaves_inbox :
    (elsewhere.state.receipts.map (·.pair)) = [(5, 2)] ∧
      receiptsOf 1 elsewhere.state = receiptsOf 1 store :=
  ⟨by decide +kernel, @others_leave_inbox Unit _ stranger inboxEnv 1 (show ¬(1 = 2) by decide)
    (fun _ _ => False) store stranger_powerless.sessions (fun _ _ h => h.elim) _ (reachable_serveAlone rfl _ _)⟩

end Scenario

end Catalog

end DevPortal
