import Mathlib.Data.List.Basic

/-!
# Machinery/Client — asking a server, and what it may have kept back

    request ▸ reply ▸ request ▸ reply ▸ …        the exchanges, in their order

A *client* is a program that sends requests and may fail; the server answers each from the exchanges
before it.  What a client read says something about what the server holds:

* an answer under limits (`Honours`) may be short exactly when its length is one of them
  (`exists_honours_lt`);
* a collection read page by page (`Paged`) is known to its end once a page without a link is read
  (`Paged.eq_flatten`), and never before (`paged_append`).
-/

/-- A server: its reply, from the exchanges so far and the request. -/
abbrev Server (q r : Type) := List (q × r) → q → r

/-- A program that asks a server: its result, and the exchanges with those it made. -/
def Client (q r ε α : Type) := Server q r → List (q × r) → Except ε α × List (q × r)

namespace Client

variable {q r ε α β : Type}

instance : Monad (Client q r ε) where
  pure a := fun _ log => (.ok a, log)
  bind x f := fun server log =>
    match x server log with
    | (.ok a, log) => f a server log
    | (.error e, log) => (.error e, log)

/-- A request, and its reply. -/
def ask (request : q) : Client q r ε r := fun server log =>
  (.ok (server log request), log ++ [(request, server log request)])

/-- A step that asks nothing. -/
def ofExcept (x : Except ε α) : Client q r ε α := fun _ log => (x, log)

/-- The error of a program, rewritten. -/
def mapError (f : ε → ε) (x : Client q r ε α) : Client q r ε α := fun server log =>
  ((x server log).1.mapError f, (x server log).2)

/-- A program inside one that has other errors. -/
def withError {ε' : Type} (f : ε → ε') (x : Client q r ε α) : Client q r ε' α := fun server log =>
  ((x server log).1.mapError f, (x server log).2)

/-! ## What a program that succeeded did -/

variable {server : Server q r} {log log' : List (q × r)}

theorem pure_ok {a b : α} :
    (pure a : Client q r ε α) server log = (.ok b, log') ↔ a = b ∧ log = log' := by
  constructor
  · intro h
    exact ⟨Except.ok.inj (Prod.mk.inj h).1, (Prod.mk.inj h).2⟩
  · rintro ⟨rfl, rfl⟩
    rfl

theorem bind_ok {x : Client q r ε α} {f : α → Client q r ε β} {b : β} :
    (x >>= f) server log = (.ok b, log') ↔
      ∃ a mid, x server log = (.ok a, mid) ∧ f a server mid = (.ok b, log') := by
  change (match x server log with
    | (.ok a, log) => f a server log
    | (.error e, log) => (.error e, log)) = _ ↔ _
  rcases x server log with ⟨_ | a, mid⟩
  · exact ⟨fun h => (nomatch (Prod.mk.inj h).1), fun ⟨_, _, h, _⟩ => (nomatch (Prod.mk.inj h).1)⟩
  · constructor
    · intro h
      exact ⟨a, mid, rfl, h⟩
    · rintro ⟨a', mid', h, h'⟩
      obtain ⟨ha, rfl⟩ := Prod.mk.inj h
      obtain rfl := Except.ok.inj ha
      exact h'

theorem ask_ok {request : q} {reply : r} :
    (ask request : Client q r ε r) server log = (.ok reply, log') ↔
      server log request = reply ∧ log' = log ++ [(request, reply)] := by
  constructor
  · intro h
    obtain ⟨hr, rfl⟩ := Prod.mk.inj h
    obtain rfl := Except.ok.inj hr
    exact ⟨rfl, rfl⟩
  · rintro ⟨rfl, rfl⟩
    rfl

theorem ofExcept_ok {x : Except ε α} {a : α} :
    (ofExcept x : Client q r ε α) server log = (.ok a, log') ↔ x = .ok a ∧ log = log' := by
  simp [ofExcept]

/-- A step that asks nothing, in front of a program. -/
theorem ofExcept_bind_ok {x : Except ε α} {f : α → Client q r ε β} {b : β} :
    (ofExcept x >>= f) server log = (.ok b, log') ↔
      ∃ a, x = .ok a ∧ f a server log = (.ok b, log') := by
  simp only [bind_ok, ofExcept_ok]
  constructor
  · rintro ⟨a, _, ⟨hx, rfl⟩, h⟩
    exact ⟨a, hx, h⟩
  · rintro ⟨a, hx, h⟩
    exact ⟨a, log, ⟨hx, rfl⟩, h⟩

/-- The same, whatever is exchanged afterwards. -/
theorem ofExcept_bind_fst {x : Except ε α} {f : α → Client q r ε β} {a : α} {b : β}
    (hx : x = .ok a) (hf : (f a server log).1 = .ok b) :
    ((ofExcept x >>= f) server log).1 = .ok b := by
  subst hx
  exact hf

theorem mapError_ok {f : ε → ε} {x : Client q r ε α} {a : α} :
    mapError f x server log = (.ok a, log') ↔ x server log = (.ok a, log') := by
  unfold mapError
  rcases x server log with ⟨_ | b, mid⟩
  · exact ⟨fun h => (nomatch (Prod.mk.inj h).1), fun h => (nomatch (Prod.mk.inj h).1)⟩
  · exact Iff.rfl

theorem withError_ok {ε' : Type} {f : ε → ε'} {x : Client q r ε α} {a : α} :
    withError f x server log = (.ok a, log') ↔ x server log = (.ok a, log') := by
  unfold withError
  rcases x server log with ⟨_ | b, mid⟩
  · exact ⟨fun h => (nomatch (Prod.mk.inj h).1), fun h => (nomatch (Prod.mk.inj h).1)⟩
  · simp [Except.mapError]

theorem withError_of_ok {ε' : Type} {f : ε → ε'} {x : Client q r ε α} {a : α}
    (h : x server log = (.ok a, log')) : withError f x server log = (.ok a, log') :=
  withError_ok.mpr h

theorem withError_of_error {ε' : Type} {f : ε → ε'} {x : Client q r ε α} {e : ε}
    (h : x server log = (.error e, log')) : withError f x server log = (.error (f e), log') := by
  unfold withError
  rw [h]
  rfl

@[simp] theorem ofExcept_ok_bind (a : α) (f : α → Client q r ε β) :
    (ofExcept (.ok a) >>= f) = f a := rfl

@[simp] theorem ofExcept_error_bind (e : ε) (f : α → Client q r ε β) :
    (ofExcept (.error e) >>= f) = ofExcept (.error e) := rfl

/-- Two programs that start alike show the same of their results if they do behind the start. -/
theorem bind_map_congr {γ : Type} {φ : β → γ} {x : Client q r ε α} {f g : α → Client q r ε β}
    (h : ∀ a log, (f a server log).1.map φ = (g a server log).1.map φ) :
    ((x >>= f) server log).1.map φ = ((x >>= g) server log).1.map φ := by
  change (match x server log with
    | (.ok a, log) => f a server log
    | (.error e, log) => (.error e, log)).1.map φ
    = (match x server log with
    | (.ok a, log) => g a server log
    | (.error e, log) => (.error e, log)).1.map φ
  rcases x server log with ⟨_ | a, mid⟩
  · rfl
  · exact h a mid

/-! ## What a program asked -/

theorem bind_of_ok {x : Client q r ε α} {f : α → Client q r ε β} {a : α}
    (h : x server log = (.ok a, log')) : (x >>= f) server log = f a server log' := by
  change (match x server log with
    | (.ok a, log) => f a server log
    | (.error e, log) => (.error e, log)) = _
  rw [h]

theorem bind_of_error {x : Client q r ε α} {f : α → Client q r ε β} {e : ε}
    (h : x server log = (.error e, log')) : (x >>= f) server log = (.error e, log') := by
  change (match x server log with
    | (.ok a, log) => f a server log
    | (.error e, log) => (.error e, log)) = _
  rw [h]

/-- What stands before a program may be put elsewhere. -/
theorem bind_congr {x y : Client q r ε α} {f : α → Client q r ε β} {mid : List (q × r)}
    (h : x server log = y server mid) : (x >>= f) server log = (y >>= f) server mid := by
  change (match x server log with
    | (.ok a, log) => f a server log
    | (.error e, log) => (.error e, log)) = _
  rw [h]
  rfl

/-- A program of two parts, in front of a program. -/
theorem bind_bind {γ : Type} (x : Client q r ε α) (f : α → Client q r ε β)
    (g : β → Client q r ε γ) : (x >>= f) >>= g = x >>= fun a => f a >>= g := by
  funext server log
  rcases hrun : x server log with ⟨_ | a, mid⟩
  · rw [bind_of_error hrun, bind_of_error (bind_of_error hrun)]
  · rw [bind_of_ok hrun, bind_congr (bind_of_ok hrun)]

theorem withError_congr {ε' : Type} {f : ε → ε'} {x y : Client q r ε α} {mid : List (q × r)}
    (h : x server log = y server mid) : withError f x server log = withError f y server mid := by
  unfold withError
  rw [h]

/-- A request that was asked behind a step shows that the step went well. -/
theorem ofExcept_bind_asked {x : Except ε α} {f : α → Client q r ε β} {e : q × r}
    (h : e ∈ ((ofExcept x >>= f) server []).2) : ∃ a, x = .ok a ∧ e ∈ (f a server []).2 := by
  cases x with
  | error e => cases h
  | ok a => exact ⟨a, rfl, h⟩

/-- **The requests a program sends**, whatever it is answered. -/
def Sends (p : q → Prop) (x : Client q r ε α) : Prop :=
  ∀ server log, ∃ more, (x server log).2 = log ++ more ∧ ∀ e ∈ more, p e.1

theorem Sends.pure (p : q → Prop) (a : α) : Sends p (pure a : Client q r ε α) :=
  fun _ _ => ⟨[], (List.append_nil _).symm, fun _ he => nomatch he⟩

theorem Sends.ofExcept (p : q → Prop) (x : Except ε α) :
    Sends p (ofExcept x : Client q r ε α) :=
  fun _ _ => ⟨[], (List.append_nil _).symm, fun _ he => nomatch he⟩

theorem Sends.ask {p : q → Prop} {request : q} (h : p request) :
    Sends p (ask request : Client q r ε r) :=
  fun server log => ⟨[(request, server log request)], rfl, List.forall_mem_singleton.mpr h⟩

theorem Sends.bind {p : q → Prop} {x : Client q r ε α} {f : α → Client q r ε β} (hx : Sends p x)
    (hf : ∀ a, Sends p (f a)) : Sends p (x >>= f) := by
  intro server log
  obtain ⟨more, hmore, hp⟩ := hx server log
  rcases hrun : x server log with ⟨result, mid⟩
  rw [hrun] at hmore
  cases result with
  | error e => exact ⟨more, by rw [bind_of_error hrun, hmore], hp⟩
  | ok a =>
    obtain ⟨more', hmore', hp'⟩ := hf a server mid
    refine ⟨more ++ more', ?_, List.forall_mem_append.mpr ⟨hp, hp'⟩⟩
    rw [bind_of_ok hrun, hmore', ← List.append_assoc, ← hmore]

theorem Sends.mapError {p : q → Prop} {x : Client q r ε α} {f : ε → ε} (h : Sends p x) :
    Sends p (Client.mapError f x) := h

/-- **The requests of a program, in their order**, whatever it is answered. -/
def Asks (p : List q → Prop) (x : Client q r ε α) : Prop :=
  ∀ server log, ∃ more, (x server log).2 = log ++ more ∧ p (more.map Prod.fst)

theorem Asks.mono {p p' : List q → Prop} {x : Client q r ε α} (h : Asks p x)
    (hp : ∀ requests, p requests → p' requests) : Asks p' x := by
  intro server log
  obtain ⟨more, hmore, hp'⟩ := h server log
  exact ⟨more, hmore, hp _ hp'⟩

theorem Asks.pure {p : List q → Prop} (h : p []) (a : α) : Asks p (pure a : Client q r ε α) :=
  fun _ _ => ⟨[], (List.append_nil _).symm, h⟩

theorem Asks.ofExcept {p : List q → Prop} (h : p []) (x : Except ε α) :
    Asks p (ofExcept x : Client q r ε α) :=
  fun _ _ => ⟨[], (List.append_nil _).symm, h⟩

/-- A step that asks nothing, in front of a program. -/
theorem Asks.ofExcept_bind {p : List q → Prop} {x : Except ε α} {f : α → Client q r ε β}
    (h : p []) (hf : ∀ a, x = .ok a → Asks p (f a)) : Asks p (Client.ofExcept x >>= f) := by
  cases x with
  | error e => exact Asks.ofExcept h (.error e)
  | ok a => exact hf a rfl

/-- A request in front of a program. -/
theorem Asks.ask_bind {p : List q → Prop} {request : q} {f : r → Client q r ε α}
    (hf : ∀ reply, Asks (fun requests => p (request :: requests)) (f reply)) :
    Asks p (ask request >>= f) := by
  intro server log
  obtain ⟨more, hmore, hp⟩ := hf (server log request) server
    (log ++ [(request, server log request)])
  refine ⟨(request, server log request) :: more, ?_, hp⟩
  rw [bind_of_ok (ask_ok.mpr ⟨rfl, rfl⟩), hmore, List.append_assoc, List.singleton_append]

/-- **How a program ends**: its result beside the exchanges it added, whatever it is answered. -/
def Ends (p : Except ε α → List (q × r) → Prop) (x : Client q r ε α) : Prop :=
  ∀ server log, ∃ more, (x server log).2 = log ++ more ∧ p (x server log).1 more

theorem Ends.mono {p p' : Except ε α → List (q × r) → Prop} {x : Client q r ε α} (h : Ends p x)
    (hp : ∀ result more, p result more → p' result more) : Ends p' x := by
  intro server log
  obtain ⟨more, hmore, hp'⟩ := h server log
  exact ⟨more, hmore, hp _ _ hp'⟩

theorem Ends.pure {p : Except ε α → List (q × r) → Prop} {a : α} (h : p (.ok a) []) :
    Ends p (pure a : Client q r ε α) :=
  fun _ _ => ⟨[], (List.append_nil _).symm, h⟩

theorem Ends.ofExcept {p : Except ε α → List (q × r) → Prop} {x : Except ε α} (h : p x []) :
    Ends p (ofExcept x : Client q r ε α) :=
  fun _ _ => ⟨[], (List.append_nil _).symm, h⟩

/-- A step that asks nothing: it fails, or a program is behind it. -/
theorem Ends.ofExcept_bind {p : Except ε β → List (q × r) → Prop} {x : Except ε α}
    {f : α → Client q r ε β} (he : ∀ e, x = .error e → p (.error e) [])
    (hf : ∀ a, x = .ok a → Ends p (f a)) : Ends p (Client.ofExcept x >>= f) := by
  cases x with
  | error e => exact Ends.ofExcept (he e rfl)
  | ok a => exact hf a rfl

/-- A request in front of a program. -/
theorem Ends.ask_bind {p : Except ε α → List (q × r) → Prop} {request : q}
    {f : r → Client q r ε α}
    (hf : ∀ reply, Ends (fun result more => p result ((request, reply) :: more)) (f reply)) :
    Ends p (ask request >>= f) := by
  intro server log
  obtain ⟨more, hmore, hp⟩ := hf (server log request) server
    (log ++ [(request, server log request)])
  refine ⟨(request, server log request) :: more, ?_, hp⟩
  rw [bind_of_ok (ask_ok.mpr ⟨rfl, rfl⟩), hmore, List.append_assoc, List.singleton_append]

/-- A request that the second program cannot have sent was sent by the first. -/
theorem bind_asked {p : q → Prop} {x : Client q r ε α} {f : α → Client q r ε β}
    (hf : ∀ a, Sends p (f a)) {e : q × r} (he : ¬ p e.1) (h : e ∈ ((x >>= f) server log).2) :
    e ∈ (x server log).2 := by
  rcases hrun : x server log with ⟨result, mid⟩
  cases result with
  | error error => rwa [bind_of_error hrun] at h
  | ok a =>
    obtain ⟨more, hmore, hp⟩ := hf a server mid
    rw [bind_of_ok hrun, hmore] at h
    exact (List.mem_append.mp h).resolve_right fun hmem => he (hp e hmem)

/-- What the first program asked was asked. -/
theorem asked_bind {p : q → Prop} {x : Client q r ε α} {f : α → Client q r ε β}
    (hf : ∀ a, Sends p (f a)) {e : q × r} (h : e ∈ (x server log).2) :
    e ∈ ((x >>= f) server log).2 := by
  rcases hrun : x server log with ⟨result, mid⟩
  rw [hrun] at h
  cases result with
  | error error => rwa [bind_of_error hrun]
  | ok a =>
    obtain ⟨more, hmore, -⟩ := hf a server mid
    rw [bind_of_ok hrun, hmore]
    exact List.mem_append_left _ h

end Client

/-! ## Answers under limits -/

section Limits

variable {α : Type}

/-- A server that holds `full` and honours limits: it gives all, or as much as one of them lets. -/
def Honours (limits : List Nat) (full answer : List α) : Prop :=
  answer = full ∨ ∃ limit ∈ limits, answer = full.take limit

/-- A server that held something back gave what one of the limits lets. -/
theorem Honours.length_mem {limits : List Nat} {full answer : List α}
    (h : Honours limits full answer) (hne : answer ≠ full) :
    answer.length ∈ limits ∧ answer.length < full.length := by
  obtain ⟨limit, hmem, heq⟩ := h.resolve_left hne
  have hlt : limit < full.length := by
    by_contra hge
    exact hne (heq.trans (List.take_of_length_le (by omega)))
  have hlen : answer.length = limit := by
    rw [heq, List.length_take, Nat.min_eq_left (Nat.le_of_lt hlt)]
  exact ⟨hlen ▸ hmem, hlen ▸ hlt⟩

/-- **An answer can have been cut exactly when it fills a limit.** -/
theorem exists_honours_lt [Nonempty α] {limits : List Nat} {answer : List α} :
    (∃ full, Honours limits full answer ∧ answer.length < full.length) ↔
      answer.length ∈ limits := by
  constructor
  · rintro ⟨full, h, hlt⟩
    exact (h.length_mem fun heq => absurd hlt (by rw [heq]; omega)).1
  · intro hmem
    obtain ⟨a⟩ := ‹Nonempty α›
    refine ⟨answer ++ [a], Or.inr ⟨answer.length, hmem, ?_⟩, by simp⟩
    rw [List.take_left]

end Limits

/-! ## Collections read page by page -/

section Pages

variable {α : Type}

/-- The pages a client read of `full`, each with whether it links to a next one.  A page without a
link is the last; behind the last page read, a link may lead anywhere. -/
inductive Paged : List (List α × Bool) → List α → Prop
  | unread (rest : List α) : Paged [] rest
  | last (items : List α) : Paged [(items, false)] items
  | more {pages : List (List α × Bool)} {rest : List α} (items : List α) (h : Paged pages rest) :
      Paged ((items, true) :: pages) (items ++ rest)

/-- The items of the pages. -/
def pageItems (pages : List (List α × Bool)) : List α := (pages.map Prod.fst).flatten

/-- **A page without a link ends the collection.** -/
theorem Paged.eq_flatten {pages : List (List α × Bool)} {items full : List α}
    (h : Paged (pages ++ [(items, false)]) full) : full = pageItems (pages ++ [(items, false)]) := by
  induction pages generalizing full with
  | nil =>
    cases h
    simp [pageItems]
  | cons page pages ih =>
    rw [List.cons_append] at h ⊢
    generalize hrest : pages ++ [(items, false)] = rest at h ih ⊢
    cases h with
    | last => simp at hrest
    | more first h => simp [pageItems, ih h]

/-- As long as every page links on, anything may follow. -/
theorem paged_append {pages : List (List α × Bool)} (h : ∀ page ∈ pages, page.2 = true)
    (rest : List α) : Paged pages (pageItems pages ++ rest) := by
  induction pages with
  | nil => exact .unread rest
  | cons page pages ih =>
    obtain ⟨items, linked⟩ := page
    obtain rfl : linked = true := h _ List.mem_cons_self
    have ih := ih fun p hp => h p (List.mem_cons_of_mem _ hp)
    simpa [pageItems] using Paged.more items ih

end Pages
