import DevPortal.Access.Queries
import DevPortal.Machinery.Paging

/-!
# Access/Attention — the attention order of the work page

    blocked ▸ overdue ▸ open ▸ done, and in each by priority, due date, source update, id

The second key of the query is `status <> 'done' AND due_at < today`, in descending order.  For an
open card without a due date it is `NULL`, and `NULL` comes first: such a card stands before the
overdue ones, and before the dated ones whatever their priority.  The query keeps the order just if
no open card without a due date meets a dated one that should stand before it
(`items_attention_iff`).
-/

namespace DevPortal

open Sql

namespace WorkCardRepository

/-! ## The order asked for -/

/-- Not done, and due before today. -/
def overdue (today : DateTime) (c : WorkCard) : Bool :=
  c.content.status ≠ "done" && c.content.dueAt.any fun t => t < today

/-- Blocked cards first. -/
def blockedOrder : Order WorkCard := Order.desc fun c => some (decide (c.content.status = "blocked"))

/-- Done cards last. -/
def doneOrder : Order WorkCard := Order.asc fun c => some (decide (c.content.status = "done"))

/-- The order in a group: by priority, then due date with missing dates last, then most recent
source update with missing ones last, then id. -/
def detailOrder : Order WorkCard :=
  (Order.desc fun c : WorkCard => some (priorityRank c.content.priority)).andThen <|
  (Order.asc fun c => some c.content.dueAt.isNone).andThen <|
  (Order.asc fun c => c.content.dueAt).andThen <|
  (Order.asc fun c => some c.sourceUpdatedAt.isNone).andThen <|
  (Order.desc fun c => c.sourceUpdatedAt).andThen <|
  Order.asc fun c => some c.id

/-- **The attention order**: blocked cards first, then the overdue ones, and done cards last. -/
def attentionOrder (today : DateTime) : Order WorkCard :=
  blockedOrder.andThen <| (Order.desc fun c => some (overdue today c)).andThen <|
    doneOrder.andThen detailOrder

/-- The second key of the query. -/
def overdueColumn (today : DateTime) (c : WorkCard) : Option Bool :=
  condColumn ((Cond.ofBool (c.content.status ≠ "done")).and (before c.content.dueAt (some today)))

/-- The order of the query. -/
def queryOrder (today : DateTime) : Order WorkCard :=
  blockedOrder.andThen <| (Order.desc (overdueColumn today)).andThen <| doneOrder.andThen detailOrder

theorem myWorkOrder_attention (filters : MyWorkCardFilters) :
    myWorkOrder { filters with sort := .attention } = queryOrder filters.todayStart := rfl

instance : Std.TransCmp blockedOrder := by
  unfold blockedOrder
  infer_instance

instance (today : DateTime) : Std.TransCmp (queryOrder today) := by
  unfold queryOrder blockedOrder doneOrder detailOrder
  infer_instance

/-! ## Where the two part -/

/-- Open, and without a due date. -/
def undated (c : WorkCard) : Bool := c.content.status ≠ "done" && c.content.dueAt.isNone

variable {today : DateTime} {c d : WorkCard}

/-- **The key of the query is missing for such a card**, and else says whether it is overdue. -/
theorem overdueColumn_eq (today : DateTime) (c : WorkCard) :
    overdueColumn today c = if undated c then none else some (overdue today c) := by
  unfold overdueColumn undated overdue before compareWith
  by_cases hdone : c.content.status = "done"
  · simp [hdone, Cond.ofBool, Cond.and, condColumn]
  · cases c.content.dueAt with
    | none => simp [hdone, Cond.ofBool, Cond.and, condColumn]
    | some t =>
      by_cases hdue : t < today
      · simp [hdone, hdue, Cond.ofBool, Cond.and, condColumn]
      · simp [hdone, hdue, Cond.ofBool, Cond.and, condColumn]

theorem overdue_of_undated (h : undated c) : overdue today c = false := by
  simp only [undated, Bool.and_eq_true, Option.isNone_iff_eq_none] at h
  simp [overdue, h.2]

/-- Between two cards with a due date, or two without, the orders agree. -/
theorem queryOrder_eq (h : undated c = undated d) : queryOrder today c d = attentionOrder today c d := by
  have hkey : Order.desc (overdueColumn today) c d = Order.desc (fun c => some (overdue today c)) c d := by
    simp only [Order.desc, Order.asc, overdueColumn_eq, ← h]
    by_cases hc : undated c = true
    · have hd : undated d = true := h ▸ hc
      simp [hc, overdue_of_undated hc, overdue_of_undated hd]
    · simp [hc]
  simp only [queryOrder, attentionOrder, Order.andThen, hkey]

/-- Cards with one flag go on to the other keys. -/
theorem queryOrder_of_blocked (h : blockedOrder c d = .eq) :
    queryOrder today c d = (Order.desc (overdueColumn today)).andThen (doneOrder.andThen detailOrder) c d := by
  simp [queryOrder, Order.andThen, h]

/-- **An undated card comes before every other one with its flag.** -/
theorem queryOrder_undated (hflag : blockedOrder c d = .eq) (hc : undated c) (hd : undated d = false) :
    queryOrder today c d = .lt := by
  rw [queryOrder_of_blocked hflag]
  simp [Order.andThen, Order.desc, Order.asc, overdueColumn_eq, hc, hd]

/-- A dated card that should stand before an undated one with its flag. -/
def precedes (today : DateTime) (c d : WorkCard) : Prop :=
  d.content.status ≠ "done" ∧ d.content.dueAt.isSome
    ∧ (overdue today d ∨ priorityRank c.content.priority ≤ priorityRank d.content.priority)

instance (today : DateTime) (c d : WorkCard) : Decidable (precedes today c d) :=
  inferInstanceAs (Decidable (_ ∧ _ ∧ _))

theorem compare_false_true : compare false true = .lt := rfl

theorem compare_true_false : compare true false = .gt := rfl

/-- **What the attention order says of an undated card and another with its flag.** -/
theorem attentionOrder_undated (hflag : blockedOrder c d = .eq) (hc : undated c)
    (hd : undated d = false) : attentionOrder today c d = .gt ↔ precedes today c d := by
  have hover : overdue today c = false := overdue_of_undated hc
  simp only [undated, Bool.and_eq_true, decide_eq_true_eq, Option.isNone_iff_eq_none] at hc
  obtain ⟨hopen, hnone⟩ := hc
  simp only [attentionOrder, Order.andThen, hflag, Ordering.eq_then]
  by_cases hdone : d.content.status = "done"
  · have hlate : overdue today d = false := by simp [overdue, hdone]
    simp [precedes, doneOrder, Order.asc, Order.desc, hover, hlate, hopen, hdone, compare_false_true]
  · have hdate : d.content.dueAt.isNone = false := by
      simpa [undated, hdone] using hd
    have hsome : d.content.dueAt.isSome = true := by simpa using hdate
    cases hlate : overdue today d with
    | true => simp [precedes, Order.desc, Order.asc, hover, hlate, hdone, hsome, compare_true_false]
    | false =>
      simp only [precedes, doneOrder, detailOrder, Order.desc, Order.asc, Order.andThen, hover, hlate,
        hopen, hdone, hnone, hdate, hsome]
      rcases Nat.lt_trichotomy (priorityRank d.content.priority) (priorityRank c.content.priority)
        with hlt | heq | hgt
      · simp [Nat.compare_eq_lt.mpr hlt, Nat.not_le.mpr hlt]
      · simp [heq, hdone, compare_true_false]
      · simp [Nat.compare_eq_gt.mpr hgt, Nat.le_of_lt hgt, hdone]

/-! ## The list that comes out -/

/-- No undated card meets a dated one that should stand before it. -/
def UndatedInPlace (today : DateTime) (rows : List WorkCard) : Prop :=
  ∀ c ∈ rows, ∀ d ∈ rows, (c.content.status = "blocked" ↔ d.content.status = "blocked") →
    undated c = true → ¬ precedes today c d

theorem blockedOrder_eq :
    blockedOrder c d = .eq ↔ (c.content.status = "blocked" ↔ d.content.status = "blocked") := by
  rw [blockedOrder, Order.desc_some_eq, decide_eq_decide]

/-- A step down in the query is none in the attention order, where nothing disturbs. -/
theorem attentionOrder_ne_gt {rows : List WorkCard} (h : UndatedInPlace today rows) (hc : c ∈ rows)
    (hd : d ∈ rows) (hquery : queryOrder today c d ≠ .gt) : attentionOrder today c d ≠ .gt := by
  by_cases hagree : undated c = undated d
  · rwa [← queryOrder_eq hagree]
  by_cases hflag : blockedOrder c d = .eq
  · cases hund : undated c with
    | true =>
      have hdated : undated d = false := by simpa [hund] using hagree
      rw [ne_eq, attentionOrder_undated hflag hund hdated]
      exact h c hc d hd (blockedOrder_eq.mp hflag) hund
    | false =>
      -- the query would have them the other way round
      have hdated : undated d = true := by simpa [hund] using hagree
      have hflag' : blockedOrder d c = .eq := Std.OrientedCmp.eq_symm hflag
      have hlt : queryOrder today d c = .lt := queryOrder_undated hflag' hdated hund
      exact absurd (Std.OrientedCmp.gt_of_lt hlt) hquery
  · have hsame : attentionOrder today c d = queryOrder today c d := by
      simp only [attentionOrder, queryOrder, Order.andThen]
      cases hcmp : blockedOrder c d with
      | lt => rfl
      | gt => rfl
      | eq => exact absurd hcmp hflag
    rwa [hsame]

/-- **The sorted cards are in attention order just if nothing disturbs.** -/
theorem sort_attention_iff (rows : List WorkCard) :
    ((queryOrder today).sort rows).Pairwise (fun c d => attentionOrder today c d ≠ .gt)
      ↔ UndatedInPlace today rows := by
  have hsort : (queryOrder today).Sorts rows ((queryOrder today).sort rows) := Order.sorts_sort rows
  constructor
  · intro hattention c hc d hd hsame hund hprecedes
    have hflag : blockedOrder c d = .eq := blockedOrder_eq.mpr hsame
    have hdated : undated d = false := by
      obtain ⟨hopen, hdate, -⟩ := hprecedes
      simpa [undated, hopen] using hdate
    have hlt : queryOrder today c d = .lt := queryOrder_undated hflag hund hdated
    have hgt : attentionOrder today c d = .gt := (attentionOrder_undated hflag hund hdated).mpr hprecedes
    have hne : c ≠ d := by
      rintro rfl
      simp [hund] at hdated
    rcases related_of_pairwise (hattention.and hsort.sorted) (hsort.perm.mem_iff.mpr hc)
      (hsort.perm.mem_iff.mpr hd) hne with ⟨hle, -⟩ | ⟨-, hle⟩
    · exact hle hgt
    · exact hle (Std.OrientedCmp.gt_of_lt hlt)
  · intro h
    exact hsort.sorted.imp_of_mem fun hc hd => attentionOrder_ne_gt h
      (hsort.perm.mem_iff.mp hc) (hsort.perm.mem_iff.mp hd)

end WorkCardRepository

open WorkCardRepository

/-- **The lists of `find_my_work` are in attention order just if no open card without a due date meets
one that should stand before it**: an open card with the same flag and a due date, overdue or of at
least its priority. -/
theorem items_attention_iff (access : RecordAccessScope) (filters : MyWorkCardFilters)
    (cards : List WorkCard) :
    (∀ number pageSize, (findMyWork access { filters with sort := .attention } number pageSize
        cards).items.Pairwise fun c d => attentionOrder filters.todayStart c d ≠ .gt)
      ↔ UndatedInPlace filters.todayStart
          (myWorkRows access { filters with sort := .attention } cards) := by
  rw [← sort_attention_iff]
  constructor
  · intro h
    have hall := h 1 (myWorkRows access { filters with sort := .attention } cards).length
    simp only [findMyWork, page, myWorkOrder_attention, Nat.sub_self, Nat.zero_mul, List.drop_zero] at hall
    rwa [List.take_of_length_le] at hall
    exact Nat.le_of_eq (Order.length_sort _ _)
  · intro h number pageSize
    exact h.sublist ((List.take_sublist _ _).trans (List.drop_sublist _ _))

/-- A card of user 7, in the state `todo`. -/
def todoCard (id : Nat) (priority : String) (dueAt : Option DateTime) : WorkCard where
  source := "azure-devops"
  externalId := none
  content :=
    { title := "Rotate the signing key"
      status := "todo"
      priority := priority
      assignee := none
      project := none
      workItemType := none
      assigneeSourceId := none
      assigneeUserId := some 7
      dueAt := dueAt
      url := none }
  connectorId := none
  ownerUserId := none
  maintainerId := none
  sourceUpdatedAt := none
  lastSeenRunId := none
  archivedAt := none
  id := id
  createdAt := 0
  updatedAt := 0

/-- The first page of a user with no filters, on the day that starts at 1000. -/
def plainFilters : MyWorkCardFilters where
  status := none
  due := none
  project := none
  workItemType := none
  source := none
  sort := .attention
  todayStart := 1000
  tomorrowStart := 2000
  nextSevenDaysEnd := 8000

/-- **An open card of low priority without a due date comes before an urgent one that is overdue.** -/
theorem undated_before_overdue :
    (findMyWork ⟨7, false, []⟩ plainFilters 1 25
        [todoCard 2 "low" none, todoCard 1 "urgent" (some 900)]).items
      = [todoCard 2 "low" none, todoCard 1 "urgent" (some 900)]
    ∧ overdue 1000 (todoCard 1 "urgent" (some 900)) = true
    ∧ overdue 1000 (todoCard 2 "low" none) = false
    ∧ ¬ (findMyWork ⟨7, false, []⟩ plainFilters 1 25
        [todoCard 2 "low" none, todoCard 1 "urgent" (some 900)]).items.Pairwise
          fun c d => attentionOrder plainFilters.todayStart c d ≠ .gt := by
  have hrows : (myWorkBaseQuery ⟨7, false, []⟩ ++ myWorkFilters plainFilters).rows
      [todoCard 2 "low" none, todoCard 1 "urgent" (some 900)]
      = [todoCard 2 "low" none, todoCard 1 "urgent" (some 900)] := by decide
  have hsort : (myWorkOrder plainFilters).sort
      [todoCard 2 "low" none, todoCard 1 "urgent" (some 900)]
      = [todoCard 2 "low" none, todoCard 1 "urgent" (some 900)] :=
    List.mergeSort_of_pairwise (by decide)
  have hitems : (findMyWork ⟨7, false, []⟩ plainFilters 1 25
      [todoCard 2 "low" none, todoCard 1 "urgent" (some 900)]).items
      = [todoCard 2 "low" none, todoCard 1 "urgent" (some 900)] := by
    rw [findMyWork, hrows, hsort]
    rfl
  refine ⟨hitems, by decide, by decide, ?_⟩
  rw [hitems]
  decide

end DevPortal
