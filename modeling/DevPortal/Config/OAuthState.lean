import DevPortal.Config.LostUpdates

/-!
# Config/OAuthState — connecting an account with a state that is used once

    authorize   SELECT ▸ UPDATE { oauth_state: s, … }
    callback                        SELECT { oauth_state: s } ▸ token endpoint ▸ UPDATE { tokens }

The state that a callback must carry is a member of the config, next to the redirect URI and the
instant it expires at.  A callback that succeeds takes it out, and a new start puts another in its
place; but a callback compares the state in the config it *read*, and waits for the token endpoint
before it writes.  Where the pending state is still the one it read (`StillPending`), the write
before its own is that of the start that issued its state (`Interleaved.redeemed`), from which the
rest follows.
-/

namespace DevPortal

open Crypto

variable {ν κ υ ι : Type}

/-! ## What a callback is compared with -/

section Pending

variable (env : ConfigEnv ν κ υ)

/-- The value of a connector's config, where it can be read. -/
def configValue (source : String) (configs : List ConnectorConfig) : Option (Json ν) :=
  (ConnectorConfigRepository.findBySource source configs).bind fun c =>
    (env.decryptConfigJson c.config).toOption

/-- The pending state of a connector. -/
def pendingState (source : String) (configs : List ConnectorConfig) : Option String :=
  (configValue env source configs).bind fun v => env.configField v ["oauth_state"]

/-- A request of the two routes, for a connector. -/
def OAuthSession (source : String) (x : ConfigSession ν) : Prop :=
  match x.op with
  | .authorize source' _ => source' = source
  | .callback request _ => env.stateSource request.state = some source
  | .run .. | .put .. => False

/-- The state a start issues. -/
def issued (x : ConfigSession ν) : Option String :=
  match x.op with
  | .authorize source _ => (env.encodeState source x.moment.nonce x.moment.clock.now).toOption
  | .run .. | .put .. | .callback .. => none

/-- The state a callback carries. -/
def carried (x : ConfigSession ν) : Option String :=
  match x.op with
  | .callback request _ => some request.state
  | .run .. | .put .. | .authorize .. => none

/-- The callback `x` is for the state the start `y` issued. -/
def Redeems (x y : ConfigSession ν) : Prop :=
  ∃ state, carried x = some state ∧ issued env y = some state

/-- The callback `x` names the redirect URI of the start `y`, and comes before its state expires. -/
def Answers (x y : ConfigSession ν) : Prop :=
  match x.op, y.op with
  | .callback request _, .authorize _ start =>
    request.redirectUri = start.redirectUri
      ∧ x.moment.ahead (y.moment.clock.secondsAfter 600) = some true
  | _, _ => False

/-- **The pending state is as the callback read it.** -/
def StillPending (source : String) (x : ConfigSession ν) (before now : List ConnectorConfig) :
    Prop :=
  match x.op with
  | .callback .. => pendingState env source before = pendingState env source now
  | .run .. | .put .. | .authorize .. => True

/-- The redirect URI a start names has no blanks around it: a callback is compared with the trimmed
one. -/
def Trimmed (x : ConfigSession ν) : Prop :=
  match x.op with
  | .authorize _ request => Text.trimmed? request.redirectUri = some request.redirectUri
  | .run .. | .put .. | .callback .. => True

/-- What is relied on of the texts that are drawn: a state is a text without blanks that holds a
fresh UUID, and an instant is a text without blanks. -/
structure StatesFresh (sessions : ι → ConfigSession ν) (source : String)
    (configs : List ConnectorConfig) : Prop where
  plain : ∀ i state, issued env (sessions i) = some state → Text.trimmed? state = some state
  distinct : ∀ i j state, issued env (sessions i) = some state →
    issued env (sessions j) = some state → i = j
  unused : ∀ i state, issued env (sessions i) = some state →
    pendingState env source configs ≠ some state
  instant : ∀ i, Text.trimmed? ((sessions i).moment.clock.secondsAfter 600)
    = some ((sessions i).moment.clock.secondsAfter 600)

/-- One write comes before another. -/
def Before (order : List ι) (i j : ι) : Prop :=
  ∃ a b : Nat, a < b ∧ order[a]? = some i ∧ order[b]? = some j

/-- **The states of a connector are used once**, in the order of the writes so far: a state is
redeemed by one callback, as the start asked for it; and after another write no callback redeems
it, nor would one that reads the configs as they are now. -/
structure SingleUse (sessions : ι → ConfigSession ν) (source : String)
    (configs : List ConnectorConfig) (order : List ι) : Prop where
  once : ∀ i k k', k ∈ order → k' ∈ order → Redeems env (sessions k) (sessions i) →
    Redeems env (sessions k') (sessions i) → k = k'
  bound : ∀ i k, k ∈ order → Redeems env (sessions k) (sessions i) →
    Answers (sessions k) (sessions i)
  superseded : ∀ i j k, Before order i j → Before order j k →
    ¬ Redeems env (sessions k) (sessions i)
  unusable : ∀ i j x, Before order i j → OAuthSession env source x →
    Redeems env x (sessions i) → ∀ change, x.compute env configs ≠ .ok change

end Pending

/-! ## What a config shows of what was written -/

section Shows

variable {env : ConfigEnv ν κ υ} {m : Moment}

theorem wf_of_decryptConfigJson {config : String} {v : Json ν}
    (h : env.decryptConfigJson config = .ok v) : v.Wf := by
  obtain ⟨text, -, h⟩ := Json.Walk.bind_eq_ok.mp h
  obtain ⟨value, -, h⟩ := Json.Walk.bind_eq_ok.mp h
  rw [← Except.ok.inj h]
  exact value.2

theorem removeField_wf (key : String) {fields : List (String × Json ν)}
    (h : (Json.object fields).Wf) : (Json.object (Json.removeField key fields)).Wf := by
  cases h with
  | object keys h =>
    exact .object (Json.removeField_keys keys key) fun kv hkv => h kv (List.mem_of_mem_filter hkv)

theorem setTexts_wf (texts : List (String × String)) (removed : List String)
    {fields : List (String × Json ν)} (h : (Json.object fields).Wf) :
    (setTexts texts removed fields).Wf := by
  unfold setTexts
  have hset := insertTexts_wf texts h
  generalize insertTexts texts fields = fields at hset ⊢
  induction removed generalizing fields with
  | nil => exact hset
  | cons key removed ih => exact ih _ (removeField_wf key hset)

/-- **Off the secrets, what was written is read again.** -/
theorem head_get_of_encrypted (hcodec : env.codec.ReadsBack) {v w : Json ν} (hv : v.Wf)
    {text : String} (hwrite : env.encryptConnectorConfigJson m v = .ok text)
    (hread : env.decryptConfigJson text = .ok w) {f : String} (hf : ¬ isSecretKey f) :
    (w.get f).map Json.head = (v.get f).map Json.head := by
  obtain ⟨plain, hplain, hencrypt⟩ := Json.Walk.bind_eq_ok.mp hwrite
  have hplain := hcodec.fromStr_of_toString hv (mapError_eq_ok.mp hplain)
  obtain ⟨e, he, htext⟩ := encryptConnectorConfig_eq_ok hcodec hplain (mapError_eq_ok.mp hencrypt)
  obtain ⟨opened, hopened, hparse⟩ := Json.Walk.bind_eq_ok.mp hread
  have hopened := mapError_eq_ok.mp hopened
  rw [ConfigEnv.decrypt, decryptConnectorConfig_eq htext] at hopened
  obtain ⟨d, hd, hencode⟩ := Json.Walk.bind_eq_ok.mp hopened
  have hdwf : d.Wf := wf_decryptJsonSecrets e.2 hd
  have hback := hcodec.fromStr_of_toString hdwf (mapError_eq_ok.mp hencode)
  obtain ⟨w', hw', hret⟩ := Json.Walk.bind_eq_ok.mp hparse
  rw [mapError_eq_ok.mp hw'] at hback
  obtain rfl := Except.ok.inj hback
  obtain rfl := Except.ok.inj hret
  have hopen : ∀ (δ ε : Type) (walk : Json.Walk ν δ ε), walk.stops = isSecretKey →
      walk.Open [.key f] := fun _ _ walk hstops k hk => by
    rw [Json.Step.key.inj (List.mem_singleton.mp hk), hstops]
    exact hf
  have hdec := Json.Walk.run_head (hopen _ _ (decryptWalk ν env.cipher env.secrets) rfl) hd
  have henc := Json.Walk.run_head
    (hopen _ _ (encryptWalk (ν := ν) env.cipher.toPrimitives env.secrets) rfl) he
  rw [Json.at?_singleton, Json.at?_singleton] at hdec henc
  exact hdec.trans henc

theorem scalarToString_of_head {numbers : Numbers ν} {v w : Json ν} (h : w.head = v.head) :
    scalarToString numbers w = scalarToString numbers v := by
  have hhead : ∀ u : Json ν, scalarToString numbers u = match u.head with
      | .str value => some value
      | .number value => some (numbers.text value)
      | _ => none := fun u => by cases u <;> rfl
  rw [hhead, hhead, h]

theorem configField_singleton (v : Json ν) (f : String) : env.configField v [f]
    = ((v.get f).bind (scalarToString env.adapters.numbers)).bind Text.trimmed? := by
  have hfield : field v [f] = v.get f := by
    unfold field
    rw [List.findSome?_cons]
    cases v.get f <;> rfl
  rw [← hfield]
  rfl

/-- A field is read off the head of its member. -/
theorem configField_of_head {v w : Json ν} {f : String}
    (h : (w.get f).map Json.head = (v.get f).map Json.head) :
    env.configField w [f] = env.configField v [f] := by
  rw [configField_singleton, configField_singleton]
  cases hv : v.get f with
  | none =>
    rw [hv, Option.map_none, Option.map_eq_none_iff] at h
    rw [h]
  | some x =>
    rw [hv, Option.map_some] at h
    obtain ⟨y, hy, hhead⟩ := Option.map_eq_some_iff.mp h
    rw [hy, Option.bind_some, Option.bind_some, scalarToString_of_head hhead]

/-- A text that was set is found, without the blanks around it. -/
theorem configField_set {texts : List (String × String)} {removed : List String}
    {fields : List (String × Json ν)} {f text : String} (hf : texts.reverse.lookup f = some text)
    (hr : f ∉ removed) :
    env.configField (setTexts texts removed fields) [f] = Text.trimmed? text := by
  rw [configField_singleton, get_setTexts_eq, if_neg hr, hf]
  simp only [Option.map_some, Option.some_or, Option.bind_some, scalarToString]

/-- A member that was removed is not. -/
theorem configField_removed {texts : List (String × String)} {removed : List String}
    {fields : List (String × Json ν)} {f : String} (hr : f ∈ removed) :
    env.configField (setTexts texts removed fields) [f] = none := by
  rw [configField_singleton, get_setTexts_eq, if_pos hr]
  rfl

/-- **What `validate_pending_oauth_state` accepts.** -/
theorem validatePendingOAuthState_ok {v : Json ν} {state redirectUri : String}
    (h : validatePendingOAuthState env m v state redirectUri = .ok ()) :
    env.configField v ["oauth_state"] = some state
      ∧ env.configField v ["oauth_redirect_uri"] = some redirectUri
      ∧ (env.configField v ["oauth_state_expires_at"]).bind m.ahead = some true := by
  obtain ⟨stored, hstored, h⟩ := Json.Walk.bind_eq_ok.mp h
  split at h
  · cases h
  next hstate =>
  obtain ⟨storedUri, huri, h⟩ := Json.Walk.bind_eq_ok.mp h
  split at h
  · cases h
  next hredirect =>
  obtain ⟨ahead, hahead, h⟩ := Json.Walk.bind_eq_ok.mp h
  split at h
  · next htrue =>
    refine ⟨?_, ?_, ?_⟩
    · rw [require_ok hstored, not_not.mp hstate]
    · rw [require_ok huri, not_not.mp hredirect]
    · rw [require_ok hahead, htrue]
  · cases h

end Shows

/-! ## One request -/

/-- What a request leaves in the config it writes: a start its state with what belongs to it, a
callback no state. -/
def Leaves (env : ConfigEnv ν κ υ) (x : ConfigSession ν) (v : Json ν) : Prop :=
  match x.op with
  | .authorize _ request =>
    (∃ state, issued env x = some state
      ∧ env.configField v ["oauth_state"] = Text.trimmed? state)
    ∧ env.configField v ["oauth_redirect_uri"] = Text.trimmed? request.redirectUri
    ∧ env.configField v ["oauth_state_expires_at"]
      = Text.trimmed? (x.moment.clock.secondsAfter 600)
  | .callback .. => env.configField v ["oauth_state"] = none
  | .run .. | .put .. => True

section Request

variable {env : ConfigEnv ν κ υ} {x : ConfigSession ν} {source : String}
  {read : List ConnectorConfig} {change : ConfigChange}

theorem isSecretKey_pending : ∀ f ∈ ["oauth_state", "oauth_redirect_uri", "oauth_state_expires_at"],
    ¬ isSecretKey f := by
  decide +kernel

/-- **A request writes the config of its connector**, and leaves there what it should. -/
theorem leaves_of_compute (hcodec : env.codec.ReadsBack) (hx : OAuthSession env source x)
    (h : x.compute env read = .ok change) :
    ∃ text, change = .text source text
      ∧ ∀ v, env.decryptConfigJson text = .ok v → Leaves env x v := by
  obtain ⟨op, m, connectors⟩ := x
  have hkeep : ∀ {v w : Json ν} {text : String}, v.Wf →
      env.encryptConnectorConfigJson m v = .ok text → env.decryptConfigJson text = .ok w →
      ∀ f ∈ ["oauth_state", "oauth_redirect_uri", "oauth_state_expires_at"],
        env.configField w [f] = env.configField v [f] := fun hv hwrite hread f hf =>
    configField_of_head (head_get_of_encrypted hcodec hv hwrite hread (isSecretKey_pending f hf))
  cases op with
  | run run server => exact hx.elim
  | put source' request => exact hx.elim
  | authorize source' request =>
    obtain rfl : source' = source := hx
    obtain ⟨⟨text, response⟩, hstart, heq⟩ := except_map_eq_ok.mp h
    obtain ⟨c, state, fields, -, hread, hstate, htext, -⟩ := startMicrosoftOAuth_ok hstart
    have hwf := setTexts_wf (pendingTexts m state request.redirectUri) ["oauth_last_error"]
      (wf_of_decryptConfigJson hread)
    refine ⟨text, heq.symm, fun v hv => ⟨⟨state, ?_, ?_⟩, ?_, ?_⟩⟩
    · simp only [issued, hstate]
      rfl
    · rw [hkeep hwf htext hv _ (by simp), configField_set rfl (by decide)]
    · rw [hkeep hwf htext hv _ (by simp), configField_set rfl (by decide)]
    · rw [hkeep hwf htext hv _ (by simp), configField_set rfl (by decide)]
  | callback request server =>
    have hsource : env.stateSource request.state = some source := hx
    obtain ⟨⟨source', text⟩, hfinish, heq⟩ := except_map_eq_ok.mp h
    obtain ⟨c, fields, response, accessToken, refreshToken, hsource', -, hread, -, htext⟩ :=
      finishMicrosoftOAuth_ok hfinish
    obtain rfl : source' = source := Option.some.inj (hsource'.symm.trans hsource)
    have hwf := setTexts_wf (connectedTexts m response accessToken refreshToken) pendingNames
      (wf_of_decryptConfigJson hread)
    refine ⟨text, heq.symm, fun v hv => ?_⟩
    exact (hkeep hwf htext hv _ (by simp)).trans (configField_removed (by decide))

/-- **A callback that succeeds found its own state pending**, with its redirect URI, before it
expired. -/
theorem found_of_compute {request : MicrosoftOAuthCallbackRequest}
    {server : Server Request (Reply ν)} (hop : x.op = .callback request server)
    (hx : OAuthSession env source x) (h : x.compute env read = .ok change) :
    ∃ v, configValue env source read = some v
      ∧ env.configField v ["oauth_state"] = some request.state
      ∧ env.configField v ["oauth_redirect_uri"] = some request.redirectUri
      ∧ (env.configField v ["oauth_state_expires_at"]).bind x.moment.ahead = some true := by
  obtain ⟨op, m, connectors⟩ := x
  obtain rfl : op = .callback request server := hop
  have hsource : env.stateSource request.state = some source := hx
  obtain ⟨⟨source', text⟩, hfinish, -⟩ := except_map_eq_ok.mp h
  obtain ⟨c, fields, response, accessToken, refreshToken, hsource', hc, hread, hpending, -⟩ :=
    finishMicrosoftOAuth_ok hfinish
  obtain rfl : source' = source := Option.some.inj (hsource'.symm.trans hsource)
  refine ⟨.object fields, ?_, validatePendingOAuthState_ok hpending⟩
  rw [configValue, hc, Option.bind_some, hread]
  rfl

/-- What is read after a write is the text written. -/
theorem configValue_write {m : Moment} {text : String} {configs configs' : List ConnectorConfig}
    (h : (ConfigChange.text source text).write m configs = .ok configs') :
    configValue env source configs' = (env.decryptConfigJson text).toOption := by
  obtain ⟨c, hc, hret⟩ := Json.Walk.bind_eq_ok.mp h
  obtain rfl := Except.ok.inj hret
  rw [configValue, findBySource_updateConfig (found_ok hc)]
  rfl

end Request

/-! ## Runs -/

section Runs

variable {env : ConfigEnv ν κ υ} {sessions : ι → ConfigSession ν} {source : String}
  {configs₀ configs : List ConnectorConfig} {order : List ι}

/-- What the configs show is what the last write left. -/
def Tracked (env : ConfigEnv ν κ υ) (sessions : ι → ConfigSession ν) (source : String)
    (configs₀ configs : List ConnectorConfig) (order : List ι) : Prop :=
  match order.getLast? with
  | none => configs = configs₀
  | some i => ∀ v, configValue env source configs = some v → Leaves env (sessions i) v

/-- The writes that redeemed a state came right after the one that issued it, and as it asked. -/
def Redeemed (env : ConfigEnv ν κ υ) (sessions : ι → ConfigSession ν) (order : List ι) : Prop :=
  ∀ n k i, order[n]? = some k → Redeems env (sessions k) (sessions i) →
    (∃ a, n = a + 1 ∧ order[a]? = some i) ∧ Answers (sessions k) (sessions i)

/-- **A state that is pending was issued by the last write.** -/
theorem Tracked.getLast_eq (h : Tracked env sessions source configs₀ configs order)
    (hsessions : ∀ i, OAuthSession env source (sessions i))
    (hstates : StatesFresh env sessions source configs₀) {state : String}
    (hpending : pendingState env source configs = some state) {i : ι}
    (hi : issued env (sessions i) = some state) : order.getLast? = some i := by
  unfold Tracked at h
  cases hlast : order.getLast? with
  | none =>
    simp only [hlast] at h
    subst h
    exact absurd hpending (hstates.unused i state hi)
  | some j =>
    simp only [hlast] at h
    obtain ⟨v, hv, hfield⟩ := Option.bind_eq_some_iff.mp hpending
    have hleaves := h v hv
    have hj := hsessions j
    unfold Leaves at hleaves
    unfold OAuthSession at hj
    cases hop : (sessions j).op with
    | run run server =>
      rw [hop] at hj
      exact hj.elim
    | put source' request =>
      rw [hop] at hj
      exact hj.elim
    | callback request server =>
      rw [hop] at hleaves
      simp only [hleaves] at hfield
      cases hfield
    | authorize source' request =>
      simp only [hop] at hleaves
      obtain ⟨⟨state', hissued, hstate'⟩, -, -⟩ := hleaves
      rw [hfield, hstates.plain j state' hissued] at hstate'
      obtain rfl := Option.some.inj hstate'
      rw [hstates.distinct j i state hissued hi]

/-- **A callback that read what a start left answers it.** -/
theorem answers_of_leaves (hstates : StatesFresh env sessions source configs₀) {x : ConfigSession ν}
    {i : ι} (htrimmed : Trimmed (sessions i)) {state : String}
    (hi : issued env (sessions i) = some state) {request : MicrosoftOAuthCallbackRequest}
    {server : Server Request (Reply ν)} (hop : x.op = .callback request server) {v : Json ν}
    (hleaves : Leaves env (sessions i) v)
    (huri : env.configField v ["oauth_redirect_uri"] = some request.redirectUri)
    (hahead : (env.configField v ["oauth_state_expires_at"]).bind x.moment.ahead = some true) :
    Answers x (sessions i) := by
  have hinstant := hstates.instant i
  unfold Leaves at hleaves
  unfold Trimmed at htrimmed
  unfold issued at hi
  unfold Answers
  cases hstart : (sessions i).op with
  | run run server => simp [hstart] at hi
  | put source' request => simp [hstart] at hi
  | callback request' server' => simp [hstart] at hi
  | authorize source' start =>
    simp only [hstart] at hleaves htrimmed
    obtain ⟨-, hredirect, hexpires⟩ := hleaves
    rw [huri, htrimmed] at hredirect
    rw [hexpires, hinstant, Option.bind_some] at hahead
    simp only [hop]
    exact ⟨Option.some.inj hredirect, hahead⟩

theorem callback_of_carried {x : ConfigSession ν} {state : String} (h : carried x = some state) :
    ∃ request server, x.op = .callback request server ∧ request.state = state := by
  unfold carried at h
  split at h
  · exact ⟨_, _, ‹_›, Option.some.inj h⟩
  all_goals cases h

/-- **A callback that finds its state still pending** comes right after the start that issued it,
and answers it. -/
theorem Tracked.redeems (h : Tracked env sessions source configs₀ configs order)
    (hsessions : ∀ i, OAuthSession env source (sessions i)) (htrimmed : ∀ i, Trimmed (sessions i))
    (hstates : StatesFresh env sessions source configs₀) {read : List ConnectorConfig}
    {earlier : List ι} (hread : Tracked env sessions source configs₀ read earlier) {k i : ι}
    {change : ConfigChange} (hcompute : (sessions k).compute env read = .ok change)
    (hstill : StillPending env source (sessions k) read configs)
    (hredeems : Redeems env (sessions k) (sessions i)) :
    order.getLast? = some i ∧ Answers (sessions k) (sessions i) := by
  obtain ⟨state, hcarried, hissued⟩ := hredeems
  obtain ⟨request, server, hop, rfl⟩ := callback_of_carried hcarried
  obtain ⟨v, hv, hfield, huri, hahead⟩ := found_of_compute hop (hsessions k) hcompute
  have hbefore : pendingState env source read = some request.state := by
    rw [pendingState, hv]
    exact hfield
  have hnow : pendingState env source configs = some request.state := by
    simp only [StillPending, hop] at hstill
    rw [← hstill, hbefore]
  have hstart := hread.getLast_eq hsessions hstates hbefore hissued
  have hleft : Leaves env (sessions i) v := by
    unfold Tracked at hread
    rw [hstart] at hread
    exact hread v hv
  exact ⟨h.getLast_eq hsessions hstates hnow hissued,
    answers_of_leaves hstates (htrimmed i) hissued hop hleft huri hahead⟩

variable [DecidableEq ι]

/-- **Every interleaving is tracked**: the configs show what the last write left, as did those a
request has read; and what was redeemed was so in order. -/
theorem Interleaved.redeemed (hcodec : env.codec.ReadsBack)
    (hsessions : ∀ i, OAuthSession env source (sessions i)) (htrimmed : ∀ i, Trimmed (sessions i))
    (hstates : StatesFresh env sessions source configs₀)
    {phase : ι → Edit.Phase (List ConnectorConfig)}
    (h : Edit.Interleaved (fun i => (sessions i).edit env)
      (fun i before now => StillPending env source (sessions i) before now) configs₀ configs phase
      order) :
    Tracked env sessions source configs₀ configs order
      ∧ (∀ i read, phase i = .read read →
        ∃ earlier, Tracked env sessions source configs₀ read earlier)
      ∧ Redeemed env sessions order := by
  induction h with
  | start =>
    refine ⟨rfl, fun i read hi => ?_, fun n k i hk => ?_⟩
    · cases hi
    · simp at hk
  | @read i configs phase order h hi ih =>
    refine ⟨ih.1, fun j read hj => ?_, ih.2.2⟩
    rcases eq_or_ne j i with rfl | hne
    · rw [Function.update_self] at hj
      obtain rfl := Edit.Phase.read.inj hj
      exact ⟨order, ih.1⟩
    · rw [Function.update_of_ne hne] at hj
      exact ih.2.1 j read hj
  | @write i read configs configs' change phase order h hi hcompute hwrite hstill ih =>
    obtain ⟨htracked, hreads, hredeemed⟩ := ih
    rw [ConfigSession.edit_compute] at hcompute
    obtain ⟨text, rfl, hleaves⟩ := leaves_of_compute hcodec (hsessions i) hcompute
    refine ⟨?_, fun j read' hj => ?_, fun n k s hk hredeems => ?_⟩
    · unfold Tracked
      rw [List.getLast?_concat]
      intro v hv
      rw [configValue_write hwrite] at hv
      cases hopened : env.decryptConfigJson text with
      | error e =>
        rw [hopened] at hv
        cases hv
      | ok w =>
        rw [hopened] at hv
        obtain rfl := Option.some.inj hv
        exact hleaves w hopened
    · rcases eq_or_ne j i with rfl | hne
      · rw [Function.update_self] at hj
        cases hj
      · rw [Function.update_of_ne hne] at hj
        exact hreads j read' hj
    · -- the writes before this one are as they were
      rcases Nat.lt_or_ge n order.length with hlt | hge
      · rw [List.getElem?_append_left hlt] at hk
        obtain ⟨⟨a, rfl, ha⟩, hanswers⟩ := hredeemed n k s hk hredeems
        refine ⟨⟨a, rfl, ?_⟩, hanswers⟩
        rwa [List.getElem?_append_left (by omega)]
      obtain ⟨hn, rfl⟩ : n = order.length ∧ i = k := by
        rw [List.getElem?_append_right hge, List.getElem?_singleton] at hk
        split at hk
        · exact ⟨by omega, Option.some.inj hk⟩
        · cases hk
      subst hn
      obtain ⟨earlier, hearlier⟩ := hreads i read hi
      obtain ⟨hlast, hanswers⟩ := htracked.redeems hsessions htrimmed hstates hearlier hcompute
        hstill hredeems
      obtain ⟨before, rfl⟩ := List.getLast?_eq_some_iff.mp hlast
      refine ⟨⟨before.length, by rw [List.length_append]; rfl, ?_⟩, hanswers⟩
      simp

omit [DecidableEq ι] in
/-- A place in the order, from either end of a write that redeems. -/
theorem Redeemed.place (h : Redeemed env sessions order) (hnodup : order.Nodup) {i k : ι}
    {a n : Nat} (ha : order[a]? = some i) (hn : order[n]? = some k)
    (hredeems : Redeems env (sessions k) (sessions i)) : n = a + 1 := by
  obtain ⟨⟨b, rfl, hb⟩, -⟩ := h n k i hn hredeems
  have hlt : a < order.length := (List.getElem?_eq_some_iff.mp ha).1
  rw [(List.getElem?_inj hlt hnodup).mp (ha.trans hb.symm)]

/-- **A state is used once**, in every interleaving in which each callback that writes finds the
pending state as it read it, and no start names a redirect URI with blanks around it. -/
theorem oauth_state_single_use (env : ConfigEnv ν κ υ) (hcodec : env.codec.ReadsBack)
    (source : String) (sessions : ι → ConfigSession ν)
    (hsessions : ∀ i, OAuthSession env source (sessions i)) (htrimmed : ∀ i, Trimmed (sessions i))
    (configs₀ configs : List ConnectorConfig) (hstates : StatesFresh env sessions source configs₀)
    (phase : ι → Edit.Phase (List ConnectorConfig)) (order : List ι)
    (h : Edit.Interleaved (fun i => (sessions i).edit env)
      (fun i before now => StillPending env source (sessions i) before now) configs₀ configs phase
      order) : SingleUse env sessions source configs order := by
  obtain ⟨htracked, -, hredeemed⟩ :=
    Interleaved.redeemed hcodec hsessions htrimmed hstates h
  obtain ⟨hnodup, -⟩ := h.order_done
  refine ⟨fun i k k' hk hk' hredeems hredeems' => ?_, fun i k hk hredeems => ?_,
    fun i j k hij hjk hredeems => ?_, fun i j x hij hx hredeems change hcompute => ?_⟩
  · obtain ⟨n, hn⟩ := List.mem_iff_getElem?.mp hk
    obtain ⟨n', hn'⟩ := List.mem_iff_getElem?.mp hk'
    obtain ⟨⟨a, rfl, ha⟩, -⟩ := hredeemed n k i hn hredeems
    obtain rfl := hredeemed.place hnodup ha hn' hredeems'
    exact Option.some.inj (hn.symm.trans hn')
  · obtain ⟨n, hn⟩ := List.mem_iff_getElem?.mp hk
    exact (hredeemed n k i hn hredeems).2
  · obtain ⟨a, b, hab, ha, hb⟩ := hij
    obtain ⟨b', c, hbc, hb', hc⟩ := hjk
    have hlt : b < order.length := (List.getElem?_eq_some_iff.mp hb).1
    obtain rfl : b = b' := (List.getElem?_inj hlt hnodup).mp (hb.trans hb'.symm)
    have hplace := hredeemed.place hnodup ha hc hredeems
    omega
  · obtain ⟨a, b, hab, ha, hb⟩ := hij
    obtain ⟨state, hcarried, hissued⟩ := hredeems
    obtain ⟨request, server, hop, rfl⟩ := callback_of_carried hcarried
    obtain ⟨v, hv, hfield, -⟩ := found_of_compute hop hx hcompute
    have hpending : pendingState env source configs = some request.state := by
      rw [pendingState, hv]
      exact hfield
    have hlast := htracked.getLast_eq hsessions hstates hpending hissued
    rw [List.getLast?_eq_getElem?] at hlast
    have hlt : a < order.length := (List.getElem?_eq_some_iff.mp ha).1
    have hend := (List.getElem?_inj hlt hnodup).mp (ha.trans hlast.symm)
    have hb := (List.getElem?_eq_some_iff.mp hb).1
    omega

end Runs

/-! ## A code that is sent twice -/

/-- An object of texts none of which is a secret has no ciphertexts. -/
theorem untagged_of_texts {fields : List (String × Json ν)}
    (htexts : ∀ k x, (Json.object fields).get k = some x → ∃ text, x = .str text)
    (hopen : ∀ k, isSecretKey k → (Json.object fields).get k = none) :
    Untagged (Json.object fields) := by
  rintro p s ⟨q, k, rfl, hk, -⟩ hs
  exfalso
  cases q with
  | nil =>
    rw [List.nil_append, Json.at?_singleton] at hs
    rw [show (Json.object fields).child (.key k) = none from hopen k hk] at hs
    cases hs
  | cons step q =>
    rw [List.cons_append, Json.at?_cons] at hs
    obtain ⟨x, hx, hrest⟩ := Option.bind_eq_some_iff.mp hs
    cases step with
    | index i => cases hx
    | key k' =>
      obtain ⟨text, rfl⟩ := htexts k' x hx
      rw [at?_str text (by simp)] at hrest
      cases hrest

/-- What is read depends on the members that are named. -/
theorem configField_congr {env : ConfigEnv ν κ υ} {v w : Json ν} {names : List String}
    (h : ∀ name ∈ names, v.get name = w.get name) :
    env.configField v names = env.configField w names := by
  have hfield : field v names = field w names := by
    unfold field
    induction names with
    | nil => rfl
    | cons name names ih =>
      obtain ⟨hname, hnames⟩ := List.forall_mem_cons.mp h
      rw [List.findSome?_cons, List.findSome?_cons, hname, ih hnames]
  unfold ConfigEnv.configField fieldString
  rw [hfield]

/-- **A callback succeeds**, where each of its steps does. -/
theorem finishMicrosoftOAuth_of (connectors : List Connector) (configs : List ConnectorConfig)
    (server : Server Request (Reply ν)) {env : ConfigEnv ν κ υ} {m : Moment}
    {request : MicrosoftOAuthCallbackRequest} {code source source' clientId scope text : String} {connector : Connector}
    {row : ConnectorConfig} {v config : Json ν} {response : GraphTokenResponse}
    (hrequest : validated MicrosoftOAuthCallbackRequest.validate request = .ok request)
    (herror : request.error.bind Text.trimmed? = none)
    (hcode : request.code.bind Text.trimmed? = some code)
    (hsource : env.stateSource request.state = some source)
    (hsource' : validateSource source = .ok source')
    (hconnector : ConnectorRepository.findBySource source' connectors = some connector)
    (hrow : ConnectorConfigRepository.findBySource source' configs = some row)
    (hread : env.decryptConfigJson row.config = .ok v)
    (hpending : validatePendingOAuthState env m v request.state request.redirectUri = .ok ())
    (hclient : env.configField v clientIdNames = some clientId)
    (hscope : oauthScope env v = .ok scope)
    (hurl : requireHttpUrl "token_url" (graphTokenUrl env.adapters.numbers v) = .ok ())
    (hbuild : under "oauth" (env.adapters.web.build 15) = .ok ())
    (hreply : ∀ q, under "oauth" (exchanged env (server [] q)) = .ok response)
    (happly : applyTokenResponse m v response = .ok config)
    (hwrite : env.encryptConnectorConfigJson m config = .ok text) :
    (finishMicrosoftOAuth env m request connectors configs server []).1 = .ok (source', text) := by
  unfold finishMicrosoftOAuth
  simp only [hrequest, herror, hcode, hsource, hsource', hconnector, hrow, hread, hpending, hclient,
    hscope, hurl, hbuild, require, found, Client.ofExcept_ok_bind]
  rw [Client.bind_of_ok (x := Client.ask _) rfl, hreply]
  simp only [happly, hwrite, Client.ofExcept_ok_bind]
  rfl

namespace Replay

/-- The clock, at one instant. -/
def clock : AdapterClock where
  now := "2026-05-01T08:00:00Z"
  hoursAgo := fun _ => ""
  secondsAfter := fun _ => "2026-05-01T08:10:00Z"
  reaches := fun n => n ≤ 86400
  hoursAfter := fun _ _ => ""
  expiresIn := fun _ => none

def moment : Moment where
  uuids := fun _ => nilUuid
  nonce := "6f1c2a54-8b0e-4d0c-9a51-3f9d7f2b7a11"
  clock := clock
  ahead := fun text => some (text == "2026-05-01T08:10:00Z")
  now := 0
  id := 0

def connector : Connector :=
  { toNewConnector := ConnectorRepository.defaultConnector "mail" "mail"
    id := 0
    lastRunAt := none
    lastSuccessAt := none
    createdAt := 0
    updatedAt := 0 }

def stored (config : String) : List ConnectorConfig :=
  [{ target := "notifications"
     enabled := true
     scheduleCron := none
     config := config
     samplePayload := "[]"
     id := 0
     source := "mail"
     createdAt := 0
     updatedAt := 0
     lastScheduledAt := none
     nextRunAt := none
     lastScheduledRunId := none }]

def redirectUri : String := "https://portal.test/oauth/microsoft/callback"

/-- What the token endpoint answers. -/
def tokens : GraphTokenResponse := { accessToken := some "at", refreshToken := some "rt" }

/-- The config before anything is connected. -/
def plain : List (String × Json Nat) :=
  [("adapter", .str "outlook_mail"), ("client_id", .str "portal")]

section State

variable (state : String)

/-- The state is the one that is issued, and the token endpoint answers. -/
def env : ConfigEnv Nat Unit String :=
  { TwoAdmins.env with
    adapters := { TwoAdmins.env.adapters with
      serde := { TwoAdmins.env.adapters.serde with tokenResponse := fun _ => .ok tokens } }
    encodeState := fun _ _ _ => .ok state
    stateSource := fun text => if text = state then some "mail" else none }

/-- The config with the state pending. -/
def pending : Json Nat :=
  setTexts (pendingTexts moment state redirectUri) ["oauth_last_error"] plain

/-- The callback of the browser, with its code. -/
def request : MicrosoftOAuthCallbackRequest := ⟨some "code", state, redirectUri, none, none⟩

/-- Who is at work: a start, and the callback of the browser twice. -/
inductive Attempt
  | start
  | first
  | second
  deriving DecidableEq

def sessions : Attempt → ConfigSession Nat
  | .start => ⟨.authorize "mail" ⟨redirectUri, none⟩, moment, [connector]⟩
  | .first | .second =>
    ⟨.callback (request state) fun _ _ => .answer (.object []), moment, [connector]⟩

variable {state}

theorem plain_wf : (Json.object plain).Wf := by
  refine .object (by decide) fun kv hkv => ?_
  simp only [plain, List.mem_cons, List.not_mem_nil, or_false] at hkv
  rcases hkv with rfl | rfl <;> exact .str _

variable (state) in
theorem pending_wf : (pending state).Wf := setTexts_wf _ _ plain_wf

/-- The members of the config, with the state pending or not. -/
def names : List String :=
  ["adapter", "client_id", "oauth_provider", "oauth_state", "oauth_state_expires_at",
    "oauth_redirect_uri"]

theorem not_isSecretKey : ∀ k ∈ names, ¬ isSecretKey k := by decide +kernel

theorem get_plain {k : String} {x : Json Nat} (h : (Json.object plain).get k = some x) :
    k ∈ names ∧ ∃ text, x = .str text := by
  have hmem := (Json.lookup_eq_some (by decide)).mp
    (show plain.lookup k = some x from h)
  simp only [plain, List.mem_cons, Prod.mk.injEq, List.not_mem_nil, or_false] at hmem
  rcases hmem with ⟨rfl, rfl⟩ | ⟨rfl, rfl⟩ <;> simp [names]

theorem get_pending {k : String} {x : Json Nat} (h : (pending state).get k = some x) :
    k ∈ names ∧ ∃ text, x = .str text := by
  rw [pending, get_setTexts_eq] at h
  split at h
  · cases h
  rcases Option.or_eq_some_iff.mp h with hset | ⟨-, hold⟩
  · obtain ⟨text, htext, rfl⟩ := Option.map_eq_some_iff.mp hset
    refine ⟨?_, text, rfl⟩
    by_contra hk
    rw [lookup_of_not_mem fun hmem => hk (List.mem_append_right ["adapter", "client_id"] hmem)]
      at htext
    cases htext
  · exact get_plain hold

theorem untagged_of_names {fields : List (String × Json Nat)}
    (h : ∀ k x, (Json.object fields).get k = some x → k ∈ names ∧ ∃ text, x = .str text) :
    Untagged (Json.object fields) := by
  refine untagged_of_texts (fun k x hx => (h k x hx).2) fun k hk => ?_
  cases hx : (Json.object fields).get k with
  | none => rfl
  | some x => exact absurd hk (not_isSecretKey k (h k x hx).1)

variable (state) in
/-- **A config without secrets is read as it was written.** -/
theorem written_and_read {v : Json Nat} (hv : v.Wf) (huntagged : Untagged v) :
    ∃ text, (env state).encryptConnectorConfigJson moment v = .ok text
      ∧ (env state).decryptConfigJson text = .ok v := by
  have hread := compact_fromStr ⟨v, hv⟩
  have hkey : cipher wrapping.toPrimitives development = .ok () := rfl
  obtain ⟨text, e, htext, -, hstored, -, hdec⟩ := exists_encryptConnectorConfig readsBack_compact
    lawful_wrapping hkey hread moment.uuids
  obtain ⟨opened, hopened, hvalue⟩ :=
    decryptConnectorConfig_of_untagged readsBack_compact hstored hdec huntagged
  exact ⟨text, Json.Walk.bind_eq_ok.mpr ⟨_, rfl, mapError_eq_ok.mpr htext⟩,
    Json.Walk.bind_eq_ok.mpr ⟨opened, mapError_eq_ok.mpr hopened,
      Json.Walk.bind_eq_ok.mpr ⟨_, mapError_eq_ok.mpr hvalue, rfl⟩⟩⟩

variable (state) in
/-- **Any config can be encrypted.** -/
theorem encrypts {v : Json Nat} (hv : v.Wf) :
    ∃ text, (env state).encryptConnectorConfigJson moment v = .ok text := by
  have hread := compact_fromStr ⟨v, hv⟩
  have hkey : cipher wrapping.toPrimitives development = .ok () := rfl
  obtain ⟨text, -, htext, -⟩ := exists_encryptConnectorConfig readsBack_compact lawful_wrapping hkey
    hread moment.uuids
  exact ⟨text, Json.Walk.bind_eq_ok.mpr ⟨_, rfl, mapError_eq_ok.mpr htext⟩⟩

/-- What the start does not set is as before. -/
theorem configField_pending {wanted : List String}
    (h : ∀ name ∈ wanted, name ∉ (pendingTexts moment state redirectUri).map Prod.fst
      ∧ name ∉ ["oauth_last_error"]) :
    (env state).configField (pending state) wanted
      = (env state).configField (.object plain) wanted :=
  configField_congr fun name hname => get_setTexts (h name hname).1 (h name hname).2

theorem authorizationUrl_plain : microsoftAuthorizationUrl (env state) (.object plain)
    = "https://login.microsoftonline.com/organizations/oauth2/v2.0/authorize" := by
  change microsoftAuthorizationUrl TwoAdmins.env (.object plain) = _
  decide +kernel

theorem scope_plain : oauthScope (env state) (.object plain)
    = .ok "https://graph.microsoft.com/Mail.Read offline_access" := rfl

/-- What the start makes of the config. -/
theorem compute_start {config text : String}
    (hread : (env state).decryptConfigJson config = .ok (.object plain))
    (hwrite : (env state).encryptConnectorConfigJson moment (pending state) = .ok text) :
    (sessions state .start).compute (env state) (stored config) = .ok (.text "mail" text) := by
  have hurl : requireHttpUrl "authorization_url"
      (microsoftAuthorizationUrl (env state) (.object plain)) = .ok () := by
    rw [authorizationUrl_plain]
    rfl
  obtain ⟨response, hstart⟩ : ∃ response, startMicrosoftOAuth (env state) moment "mail"
      ⟨redirectUri, none⟩ [connector] (stored config) = .ok (text, response) := by
    refine ⟨_, Json.Walk.bind_eq_ok.mpr ⟨"mail", rfl, Json.Walk.bind_eq_ok.mpr
      ⟨⟨redirectUri, none⟩, rfl, Json.Walk.bind_eq_ok.mpr ⟨connector, rfl,
      Json.Walk.bind_eq_ok.mpr ⟨_, rfl, Json.Walk.bind_eq_ok.mpr ⟨.object plain,
      hread, Json.Walk.bind_eq_ok.mpr ⟨_, scope_plain, Json.Walk.bind_eq_ok.mpr ⟨"portal", rfl,
      Json.Walk.bind_eq_ok.mpr ⟨(), hurl, Json.Walk.bind_eq_ok.mpr ⟨state, rfl,
      Json.Walk.bind_eq_ok.mpr ⟨(), rfl, Json.Walk.bind_eq_ok.mpr ⟨plain, rfl,
      Json.Walk.bind_eq_ok.mpr ⟨text, hwrite, rfl⟩⟩⟩⟩⟩⟩⟩⟩⟩⟩⟩⟩⟩
  exact except_map_eq_ok.mpr ⟨(text, response), hstart, rfl⟩

theorem tokenUrl_pending : graphTokenUrl (env state).adapters.numbers (pending state)
    = "https://login.microsoftonline.com/organizations/oauth2/v2.0/token" := by
  have hurl : (env state).configField (pending state) ["token_url", "oauth_token_url"] = none :=
    configField_pending (by simp [pendingTexts])
  have htenant : (env state).configField (pending state) ["tenant_id", "tenant", "directory_id"]
      = none := configField_pending (by simp [pendingTexts])
  unfold ConfigEnv.configField at hurl htenant
  unfold graphTokenUrl
  rw [hurl, htenant]
  decide +kernel

theorem scope_pending : oauthScope (env state) (pending state)
    = .ok "https://graph.microsoft.com/Mail.Read offline_access" := by
  have hadapter : (env state).configField (pending state) ["adapter"] = some "outlook_mail" :=
    configField_pending (by simp [pendingTexts])
  have hscope : (env state).configField (pending state) ["scope", "scopes"] = none :=
    configField_pending (by simp [pendingTexts])
  have hscopes : (pending state).get "scopes" = none :=
    get_setTexts (by simp [pendingTexts]) (by decide)
  unfold ConfigEnv.configField at hscope
  unfold oauthScope graphScope
  rw [hadapter, hscope, hscopes]
  rfl

theorem clientId_pending : (env state).configField (pending state) clientIdNames
    = some "portal" := configField_pending (by simp [pendingTexts, clientIdNames])

theorem pending_valid (hstate : Text.trimmed? state = some state) :
    validatePendingOAuthState (env state) moment (pending state) (request state).state
      (request state).redirectUri = .ok () := by
  have hstored : (env state).configField (pending state) ["oauth_state"] = some state :=
    (configField_set rfl (by decide)).trans hstate
  have huri : (env state).configField (pending state) ["oauth_redirect_uri"] = some redirectUri :=
    (configField_set rfl (by decide)).trans (by decide +kernel)
  have hexpires : (env state).configField (pending state) ["oauth_state_expires_at"]
      = some "2026-05-01T08:10:00Z" := (configField_set rfl (by decide)).trans (by decide +kernel)
  have hahead : moment.ahead "2026-05-01T08:10:00Z" = some true := by decide +kernel
  simp only [validatePendingOAuthState, request, hstored, huri, hexpires, Option.bind_some, hahead, require,
    bind, Except.bind, ne_eq, not_true_eq_false, if_false, if_true]

variable (state) in
/-- The tokens are put in place of the state. -/
theorem connects : ∃ connected, applyTokenResponse moment (pending state) tokens = .ok connected
    ∧ connected.Wf := by
  refine ⟨_, Json.Walk.bind_eq_ok.mpr ⟨"at", rfl, Json.Walk.bind_eq_ok.mpr ⟨"rt", rfl,
    Json.Walk.bind_eq_ok.mpr ⟨(), rfl, Json.Walk.bind_eq_ok.mpr ⟨_, rfl, rfl⟩⟩⟩⟩, ?_⟩
  exact setTexts_wf _ pendingNames (pending_wf state)

/-- What the callback makes of the config in which its state is pending. -/
theorem compute_callback (hstate : Text.trimmed? state = some state)
    (hvalid : (request state).validate = []) {config : String}
    (hread : (env state).decryptConfigJson config = .ok (pending state)) :
    ∃ text, ∀ i, i ≠ .start →
      (sessions state i).compute (env state) (stored config) = .ok (.text "mail" text) := by
  have hrequest : validated MicrosoftOAuthCallbackRequest.validate (request state)
      = .ok (request state) := by
    simp only [validated, hvalid, List.isEmpty_nil, if_true]
  have hsource : (env state).stateSource (request state).state = some "mail" := if_pos rfl
  have hurl : requireHttpUrl "token_url"
      (graphTokenUrl (env state).adapters.numbers (pending state)) = .ok () := by
    rw [tokenUrl_pending]
    rfl
  obtain ⟨connected, happly, hwf⟩ := connects state
  obtain ⟨text, hwrite⟩ := encrypts state hwf
  have hreply : under "oauth" (exchanged (env state) (.answer (.object []))) = .ok tokens := rfl
  have hfinish := finishMicrosoftOAuth_of [connector] (stored config)
    (fun _ _ => .answer (.object [])) hrequest rfl rfl hsource rfl rfl rfl hread
    (pending_valid hstate) clientId_pending scope_pending hurl rfl (fun _ => hreply) happly hwrite
  refine ⟨text, fun i hi => ?_⟩
  cases i with
  | start => exact absurd rfl hi
  | first => exact except_map_eq_ok.mpr ⟨("mail", text), hfinish, rfl⟩
  | second => exact except_map_eq_ok.mpr ⟨("mail", text), hfinish, rfl⟩

theorem write_text (i : Attempt) (config text : String) :
    ((sessions state i).edit (env state)).write (.text "mail" text) (stored config)
      = .ok (stored text) := by
  cases i <;> rfl

variable (state) in
theorem oauthSession_sessions (i : Attempt) : OAuthSession (env state) "mail" (sessions state i) := by
  cases i with
  | start => rfl
  | first => exact if_pos rfl
  | second => exact if_pos rfl

variable (state) in
theorem trimmed_sessions (i : Attempt) : Trimmed (sessions state i) := by
  cases i with
  | start => exact (by decide +kernel : Text.trimmed? redirectUri = some redirectUri)
  | first => trivial
  | second => trivial

/-- Only the start issues a state. -/
theorem eq_start_of_issued {i : Attempt} {text : String}
    (h : issued (env state) (sessions state i) = some text) : i = .start ∧ text = state := by
  cases i with
  | start => exact ⟨rfl, (Option.some.inj h).symm⟩
  | first => cases h
  | second => cases h

theorem statesFresh (hstate : Text.trimmed? state = some state) {config : String}
    (hread : (env state).decryptConfigJson config = .ok (.object plain)) :
    StatesFresh (env state) (sessions state) "mail" (stored config) where
  plain := fun i text h => (eq_start_of_issued h).2 ▸ hstate
  distinct := fun i j text hi hj => (eq_start_of_issued hi).1.trans (eq_start_of_issued hj).1.symm
  unused := fun i text _ h => by
    have hvalue : configValue (env state) "mail" (stored config) = some (.object plain) :=
      congrArg Except.toOption hread
    rw [pendingState, hvalue] at h
    cases h
  instant := fun i => by
    have hinstant : (sessions state i).moment = moment := by cases i <;> rfl
    rw [hinstant]
    exact (by decide +kernel : Text.trimmed? "2026-05-01T08:10:00Z" = some "2026-05-01T08:10:00Z")

/-- The texts of the config along the way, and what the requests make of them. -/
theorem texts_along_the_way (hstate : Text.trimmed? state = some state)
    (hvalid : (request state).validate = []) : ∃ before waiting after,
    (env state).decryptConfigJson before = .ok (.object plain)
    ∧ ((sessions state .start).edit (env state)).compute (stored before)
      = .ok (.text "mail" waiting)
    ∧ ∀ i, i ≠ .start →
      ((sessions state i).edit (env state)).compute (stored waiting) = .ok (.text "mail" after) := by
  obtain ⟨before, -, hbefore⟩ := written_and_read state plain_wf
    (untagged_of_names fun k x => get_plain)
  obtain ⟨waiting, hwaiting, hread⟩ := written_and_read state (pending_wf state)
    (untagged_of_names fun k x => get_pending)
  obtain ⟨after, hafter⟩ := compute_callback hstate hvalid hread
  exact ⟨before, waiting, after, hbefore, compute_start hbefore hwaiting, hafter⟩

end State

/-- The text of the connector, the UUID and the instant, in base64. -/
def issuedState : String :=
  "eyJzb3VyY2UiOiJtYWlsIiwibm9uY2UiOiI2ZjFjMmE1NC04YjBlLTRkMGMtOWE1MS0zZjlkN2YyYjdhMTEiLCJpc3N1ZWRfYXQiOiIyMDI2LTA1LTAxVDA4OjAwOjAwWiJ9"

theorem trimmed_issuedState : Text.trimmed? issuedState = some issuedState := by decide +kernel

theorem valid_issuedState : (request issuedState).validate = [] := by decide +kernel

end Replay

open Replay in
/-- A start, and the callback of the browser. -/
theorem oauth_state_single_use_mail : ∃ configs₀ configs phase,
    StatesFresh (env issuedState) (sessions issuedState) "mail" configs₀
    ∧ Edit.Interleaved (fun i => (sessions issuedState i).edit (env issuedState))
      (fun i before now => StillPending (env issuedState) "mail" (sessions issuedState i) before now)
      configs₀ configs phase [.start, .first]
    ∧ SingleUse (env issuedState) (sessions issuedState) "mail" configs [.start, .first] := by
  obtain ⟨before, waiting, after, hbefore, hstart, hcallback⟩ :=
    texts_along_the_way trimmed_issuedState valid_issuedState
  have hrun : Edit.Interleaved (fun i => (sessions issuedState i).edit (env issuedState))
      (fun i before now => StillPending (env issuedState) "mail" (sessions issuedState i) before now)
      (stored before) (stored before) (fun _ => .idle) [] := .start
  have hissued := (hrun.read Attempt.start rfl).write Attempt.start rfl hstart (write_text _ before waiting) trivial
  have hredeemed := (hissued.read Attempt.first rfl).write Attempt.first rfl (hcallback .first (by decide))
    (write_text _ waiting after) rfl
  have hfresh := statesFresh trimmed_issuedState hbefore
  exact ⟨_, _, _, hfresh, hredeemed, oauth_state_single_use (env issuedState) readsBack_compact
    "mail" (sessions issuedState) (oauthSession_sessions issuedState)
    (trimmed_sessions issuedState) _ _ hfresh _ _ hredeemed⟩

open Replay in
/-- **A state is redeemed twice**: both callbacks read the config while the state is pending, and
both succeed. -/
theorem oauth_state_redeemed_twice : ∃ configs₀ configs phase,
    (∀ i, OAuthSession (env issuedState) "mail" (sessions issuedState i))
    ∧ (∀ i, Trimmed (sessions issuedState i))
    ∧ StatesFresh (env issuedState) (sessions issuedState) "mail" configs₀
    ∧ Edit.Interleaved (fun i => (sessions issuedState i).edit (env issuedState))
      (fun _ _ _ => True) configs₀ configs phase [.start, .first, .second]
    ∧ ¬ SingleUse (env issuedState) (sessions issuedState) "mail" configs
      [.start, .first, .second] := by
  obtain ⟨before, waiting, after, hbefore, hstart, hcallback⟩ :=
    texts_along_the_way trimmed_issuedState valid_issuedState
  have hrun : Edit.Interleaved (fun i => (sessions issuedState i).edit (env issuedState))
      (fun _ _ _ => True) (stored before) (stored before) (fun _ => .idle) [] := .start
  have hissued := (hrun.read Attempt.start rfl).write Attempt.start rfl hstart (write_text _ before waiting) trivial
  have hreads := (hissued.read Attempt.first rfl).read Attempt.second rfl
  have hfirst := hreads.write Attempt.first rfl (hcallback .first (by decide))
    (write_text _ waiting after) trivial
  have hsecond := hfirst.write Attempt.second rfl (hcallback .second (by decide))
    (write_text _ after after) trivial
  refine ⟨_, _, _, oauthSession_sessions issuedState, trimmed_sessions issuedState,
    statesFresh trimmed_issuedState hbefore, hsecond, fun h => ?_⟩
  have honce := h.once .start .first .second (by decide) (by decide) ⟨issuedState, rfl, rfl⟩
    ⟨issuedState, rfl, rfl⟩
  cases honce

end DevPortal
