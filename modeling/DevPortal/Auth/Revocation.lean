import DevPortal.Catalog.Authority

/-!
# Auth/Revocation — a session that is gone is gone

    logout ▸ DELETE by token         revoke all ▸ DELETE by user
                └─ no session under the token ─▸ every request that begins later is refused

A request that was on its way when the session went may still finish: it has seen the session.  One that
begins later sees none, and so it changes nothing, not even the session table, and is answered with an
error.
-/

namespace DevPortal

open Autocommit

namespace Catalog

/-- No session under the token. -/
def Store.NoSession (hash : String → String) (token : String) (d : Store) : Prop :=
  ∀ s ∈ d.sessions, s.tokenHash ≠ hash token

/-- The request carries the token. -/
def Request.presents (env : AuthEnv) (token : String) (r : Request) : Prop :=
  ∃ t, env.requestToken r.headers = some t ∧ t.value = token

theorem noSession_dropToken (hash : String → String) (token : String) (d : Store) :
    (d.dropToken hash token).NoSession hash token := by
  intro s hs
  simpa using (List.mem_filter.mp hs).2

/-- **A logout that was answered** has left no session under its token. -/
theorem noSession_of_logout {env : AuthEnv} {r : Request} {past : List (Step Store)}
    {token : String} {response : Response} (h : Answered env r response past)
    (hroute : r.route = .logout) (hr : r.presents env token) :
    ∃ s rest, past = s :: rest ∧ s.after.NoSession env.sessionTokenHash token := by
  cases h with
  | logged d ha htells => rw [hroute] at htells; cases htells
  | listed ha h => rw [hroute] at h; cases h
  | revoked d count ha h => rw [hroute] at h; cases h
  | me d ha h => rw [hroute] at h; cases h
  | @loggedOut d auth past ha =>
    obtain ⟨t, ht, -, hauth⟩ := ha
    obtain ⟨t', ht', rfl⟩ := hr
    obtain rfl := Option.some.inj (ht.symm.trans ht')
    exact ⟨_, _, rfl, hauth.presented ▸ noSession_dropToken _ _ d⟩

section Gone

variable {env : AuthEnv} {token : String} {r : Request} {past : List (Step Store)}
  (hpast : SawOnly (Store.NoSession env.sessionTokenHash token) past)

include hpast

theorem not_seen_session (hr : r.presents env token) {t : RequestToken}
    (ht : env.requestToken r.headers = some t) {session : PortalSession}
    (hhash : session.tokenHash = env.sessionTokenHash t.value) :
    ¬ Seen past fun d => session ∈ d.sessions := by
  rintro ⟨s, hs, hmem⟩
  obtain ⟨t', ht', rfl⟩ := hr
  obtain rfl := Option.some.inj (ht.symm.trans ht')
  exact (hpast s hs).1 session hmem hhash

/-- A request with the token is one of nobody. -/
theorem not_authentic (hr : r.presents env token) (auth : AuthenticatedUser) :
    ¬ Authentic env r past auth := by
  rintro ⟨t, ht, -, hauth⟩
  obtain ⟨session, hhash, -, hrow, -⟩ := hauth.session
  exact not_seen_session hpast hr ht hhash hrow

theorem Change.eq_of_gone {s : Step Store} (h : Change env r past s) (hr : r.presents env token) :
    s.after = s.before := by
  cases h with
  | reads => rfl
  | dropsStale d ht hstale =>
    obtain ⟨session, hhash, hrow, -⟩ := hstale
    exact absurd hrow (not_seen_session hpast hr ht hhash)
  | logsOut d ha => exact absurd ha (not_authentic hpast hr _)
  | revokes d ha => exact absurd ha (not_authentic hpast hr _)
  | maintainers d ha => exact absurd ha (not_authentic hpast hr _)
  | dropsMaintainer d ha => exact absurd ha (not_authentic hpast hr _)
  | members d ha => exact absurd ha (not_authentic hpast hr _)
  | packages d ha => exact absurd ha (not_authentic hpast hr _)
  | services d ha => exact absurd ha (not_authentic hpast hr _)
  | logs d ha => exact absurd ha (not_authentic hpast hr _)

end Gone

theorem not_answered {env : AuthEnv} {token : String} {r : Request} {past : List (Step Store)}
    (hpast : SawOnly (Store.NoSession env.sessionTokenHash token) past) (hr : r.presents env token)
    (response : Response) : ¬ Answered env r response past := by
  intro h
  have htail : ∀ {s : Step Store} {rest : List (Step Store)}, past = s :: rest →
      SawOnly (Store.NoSession env.sessionTokenHash token) rest :=
    fun hsplit x hx => hpast x (hsplit ▸ List.mem_cons_of_mem _ hx)
  cases h with
  | logged d ha => exact not_authentic (htail rfl) hr _ ha
  | listed ha => exact not_authentic hpast hr _ ha
  | loggedOut d ha => exact not_authentic (htail rfl) hr _ ha
  | revoked d count ha => exact not_authentic (htail rfl) hr _ ha
  | me d ha => exact not_authentic (htail rfl) hr _ ha

/-- **A session that is gone is gone.**  Once no session is left under a token and no request with it is on
its way, no later catalog request with the token changes anything, and each is answered with an error;
whatever else goes on, as long as no session is made for the token. -/
theorem revoked_token_powerless {I : Type} [DecidableEq I] {env : AuthEnv} {token : String}
    {outside : Store → Store → Prop}
    (houtside : ∀ d d', outside d d' → d.NoSession env.sessionTokenHash token →
      d'.NoSession env.sessionTokenHash token) {d₀ : Store}
    {w₁ w₂ : World I Request Outcome Store ApiError Response}
    (h₁ : Reachable (serve env) outside (World.idle d₀) w₁)
    (hgone : w₁.state.NoSession env.sessionTokenHash token)
    (hnone : ∀ i k, w₁.serving i = some k → ¬ k.request.presents env token)
    (h₂ : Reachable (serve env) outside w₁ w₂) :
    (∃ log, w₂.log = log ++ w₁.log ∧
      ∀ c ∈ log, c.request.presents env token → c.step.after = c.step.before) ∧
    ∃ answers, w₂.answers = answers ++ w₁.answers ∧
      ∀ a ∈ answers, a.request.presents env token → ∃ e, a.result = .error e := by
  have hok₁ := Reachable.ok h₁ ((authority env).ok_idle d₀)
  have hok₂ := Reachable.ok h₂ hok₁
  have hkeeps : ∀ r past s, (r.presents env token →
      SawOnly (Store.NoSession env.sessionTokenHash token) past) →
      s.before.NoSession env.sessionTokenHash token → (authority env).step r past s →
      s.after.NoSession env.sessionTokenHash token :=
    fun r past s _ hs hstep x hx => hs x ((Change.frame hstep).1 x hx)
  obtain ⟨-, ⟨log, hlog, hsteps⟩, answers, hanswers, hends⟩ :=
    Reachable.confined (p := Request.presents env token) hkeeps
      (fun d d' hd ho => houtside d d' ho hd) h₂ hok₁
      ⟨hgone, fun i k hi hp => absurd hp (hnone i k hi)⟩
  refine ⟨⟨log, hlog, fun c hc hp => ?_⟩, answers, hanswers, fun a ha hp => ?_⟩
  · have hchange : Change env c.request c.past c.step :=
      hok₂.log c (hlog ▸ List.mem_append_left _ hc)
    exact hchange.eq_of_gone (fun s hs => hsteps c hc hp s (List.mem_cons_of_mem _ hs)) hp
  · have hanswer := hok₂.answers a (hanswers ▸ List.mem_append_left _ ha)
    cases hresult : a.result with
    | error e => exact ⟨e, rfl⟩
    | ok response =>
      rw [Contract.Answered, hresult] at hanswer
      exact absurd hanswer (not_answered (hends a ha hp) hp response)

/-! ## A token after a logout -/

namespace Scenario

def loggedOut : World Unit Request Outcome Store ApiError Response :=
  served (World.idle store) (bearer "ada-token" .logout)

def refused : World Unit Request Outcome Store ApiError Response :=
  served loggedOut (bearer "ada-token" (.deleteMaintainerMember 7 1))

theorem refused_powerless :
    (refused.log.length = 10 ∧ refused.answers.length = 2) ∧
      (∃ log, refused.log = log ++ loggedOut.log ∧
        ∀ c ∈ log, c.request.presents env "ada-token" → c.step.after = c.step.before) ∧
      ∃ answers, refused.answers = answers ++ loggedOut.answers ∧
        ∀ a ∈ answers, a.request.presents env "ada-token" → ∃ e, a.result = .error e := by
  have hgone : loggedOut.state.sessions.all fun s => s.tokenHash ≠ "ada-token" := by decide +kernel
  have hidle : loggedOut.serving () = none := by
    have : (loggedOut.serving ()).isNone := by decide +kernel
    exact Option.isNone_iff_eq_none.mp this
  refine ⟨by decide +kernel, @revoked_token_powerless Unit _ env "ada-token" (fun _ _ => False)
    (fun _ _ h => h.elim) store loggedOut refused (reachable_serveAlone rfl _ _)
    (fun s hs => ?_) (fun i k hi => ?_) (reachable_serveAlone hidle _ _)⟩
  · exact of_decide_eq_true (List.all_eq_true.mp hgone s hs)
  · rw [hidle] at hi
    cases hi

end Scenario

end Catalog

end DevPortal
