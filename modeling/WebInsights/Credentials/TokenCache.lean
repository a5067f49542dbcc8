/-
What the token cache of `AzureManagedCredential` serves, and when it is refilled.

A call looks into the cache and fills it under the mutex, so between its answers nobody
else changes anything. The invariant over all interleavings: every entry is what the
answer to a request for its url was stored as, and the last request for a url that brought
a token is in the cache, unless the call that holds the mutex is just about to store it.
From it follow the single flight to the service and, except for a token that is valid for
exactly the reserve of 1200 seconds, that no expired token is served.
-/
import WebInsights.Credentials.ManagedCredential

set_option autoImplicit false

namespace WebInsights.Credentials

open Data Effect Js AzureManagedCredential CredentialState

abbrev Answered : Type := List (Sigma CredentialOperation.Result)

/-- The token an answer of the service brings, if it brings one. -/
def tokenAnswer (platform : Platform) :
    Except CredentialError (Option String) → Option ImdsToken
  | .ok (some body) => (platform.parse body).toOption
  | _ => none

/-- How long a token is kept, in seconds. -/
def lifetime (token : ImdsToken) : ℤ := token.expires_in - cacheCheckPeriod * 2

variable {platform : Platform} {scopes : Scopes}

/-! ## The steps of a call -/

/-- How the part of a call under the mutex ends, by what it was answered. -/
inductive Served (platform : Platform) (scopes : Scopes) :
    Answered → Except CredentialError ImdsToken → Prop
  | badUrl {e : CredentialError} (h : getRequestUrl platform scopes = .error e) :
      Served platform scopes [⟨.acquire, ()⟩] (.error e)
  | hit {url : String} {token : ImdsToken} (h : getRequestUrl platform scopes = .ok url) :
      Served platform scopes [⟨.acquire, ()⟩, ⟨.cacheGet url, some token⟩] (.ok token)
  | failed {url : String} {timeout : Option ℕ} {answer : Except CredentialError (Option String)}
      {e : CredentialError} (h : getRequestUrl platform scopes = .ok url)
      (hanswer : tokenAnswer platform answer = none) :
      Served platform scopes
        [⟨.acquire, ()⟩, ⟨.cacheGet url, none⟩, ⟨.httpGet url timeout, answer⟩] (.error e)
  | stored {url : String} {timeout : Option ℕ} {answer : Except CredentialError (Option String)}
      {token : ImdsToken} (h : getRequestUrl platform scopes = .ok url)
      (hanswer : tokenAnswer platform answer = some token) :
      Served platform scopes [⟨.acquire, ()⟩, ⟨.cacheGet url, none⟩,
        ⟨.httpGet url timeout, answer⟩, ⟨.cacheSet url token (lifetime token), ()⟩] (.ok token)

/-- What a call does next. -/
inductive Follows (platform : Platform) (scopes : Scopes) : Answered → CredentialOperation → Prop
  | acquire : Follows platform scopes [] .acquire
  | cacheGet {url : String} (h : getRequestUrl platform scopes = .ok url) :
      Follows platform scopes [⟨.acquire, ()⟩] (.cacheGet url)
  | httpGet {url : String} {timeout : Option ℕ} (h : getRequestUrl platform scopes = .ok url) :
      Follows platform scopes [⟨.acquire, ()⟩, ⟨.cacheGet url, none⟩] (.httpGet url timeout)
  | cacheSet {url : String} {timeout : Option ℕ} {answer : Except CredentialError (Option String)}
      {token : ImdsToken} (h : getRequestUrl platform scopes = .ok url)
      (hanswer : tokenAnswer platform answer = some token) :
      Follows platform scopes
        [⟨.acquire, ()⟩, ⟨.cacheGet url, none⟩, ⟨.httpGet url timeout, answer⟩]
        (.cacheSet url token (lifetime token))
  | release {seen : Answered} {x : Except CredentialError ImdsToken}
      (h : Served platform scopes seen x) : Follows platform scopes seen .release

/-- How a call ends. -/
def Finishes (platform : Platform) (scopes : Scopes) (seen : Answered)
    (r : Except CredentialError AccessToken) : Prop :=
  ∃ seen' x, Served platform scopes seen' x ∧ seen = seen' ++ [⟨.release, ()⟩] ∧
    r = x.map accessToken

theorem meets_getMsiToken (timeout : Option ℕ) :
    (getMsiToken platform scopes timeout).Meets (Follows platform scopes)
      (Served platform scopes) [⟨.acquire, ()⟩] := by
  unfold getMsiToken
  rcases hurl : getRequestUrl platform scopes with e | url
  · exact Program.meets_throw (.badUrl hurl)
  · refine Program.meets_perform (.cacheGet hurl) fun cached => ?_
    rcases cached with _ | token
    · refine Program.meets_perform (.httpGet hurl) fun answer => ?_
      rcases answer with e | _ | body
      · exact Program.meets_throw (.failed hurl rfl)
      · exact Program.meets_throw (.failed hurl rfl)
      · rcases hparse : platform.parse body with e | token
        · have hnone : tokenAnswer platform (.ok (some body)) = none := by
            simp only [tokenAnswer, hparse, Except.toOption]
          simp only [hparse]
          exact Program.meets_throw (.failed hurl hnone)
        · have hsome : tokenAnswer platform (.ok (some body)) = some token := by
            simp only [tokenAnswer, hparse, Except.toOption]
          simp only [hparse]
          exact Program.meets_perform (.cacheSet hurl hsome) fun _ =>
            Program.meets_pure (.stored hurl hsome)
    · exact Program.meets_pure (.hit hurl)

theorem meets_getToken (platform : Platform) (scopes : Scopes) (timeout : Option ℕ) :
    (getToken platform scopes timeout).Meets (Follows platform scopes)
      (Finishes platform scopes) [] := by
  have hexclusive : (Program.runExclusive CredentialOperation.acquire .release
      (getMsiToken platform scopes timeout)).Meets (Follows platform scopes)
      (fun seen r => ∃ seen', Served platform scopes seen' r ∧ seen = seen' ++ [⟨.release, ()⟩])
      [] :=
    Program.meets_runExclusive .acquire (fun _ => meets_getMsiToken timeout)
      fun seen' x h => ⟨.release h, fun _ => ⟨seen', h, rfl⟩⟩
  refine hexclusive.bind ?_ ?_
  · rintro seen token ⟨seen', hserved, rfl⟩
    exact Program.meets_pure ⟨seen', .ok token, hserved, rfl, rfl⟩
  · rintro seen e ⟨seen', hserved, rfl⟩
    exact ⟨seen', .error e, hserved, rfl, rfl⟩

/-- All a call does beyond asking for the mutex it does while it holds it. -/
theorem Follows.held {seen : Answered} {op : CredentialOperation}
    (h : Follows platform scopes seen op) :
    mutex.sets op = some true ∨ mutex.Held seen = true := by
  cases h with
  | acquire => exact Or.inl rfl
  | release h => cases h <;> exact Or.inr rfl
  | _ => exact Or.inr rfl

/-! ## One step of the call that holds the mutex -/

/-- The call was answered a token and has not stored it yet. -/
def Pending (platform : Platform) (seen : Answered) (url : String) (token : ImdsToken) : Prop :=
  ∃ timeout answer, seen = [⟨.acquire, ()⟩, ⟨.cacheGet url, none⟩, ⟨.httpGet url timeout, answer⟩] ∧
    tokenAnswer platform answer = some token

theorem Pending.held {seen : Answered} {url : String} {token : ImdsToken}
    (h : Pending platform seen url token) : mutex.Held seen = true := by
  obtain ⟨timeout, answer, rfl, -⟩ := h
  rfl

/-- A token is pending after three answers only. -/
theorem not_pending_of_length {seen : Answered} (h : seen.length ≠ 3) (url : String)
    (token : ImdsToken) : ¬ Pending platform seen url token := by
  rintro ⟨timeout, answer, rfl, -⟩
  exact h rfl

/-- Every entry is what the answer to a request for its url was stored as. -/
def Origin (platform : Platform) (s : CredentialState) : Prop :=
  ∀ url e, s.cache url = some e → ∃ r ∈ s.requests, r.url = url ∧
    ∃ token, tokenAnswer platform r.answer = some token ∧
      e = Entry.store token (lifetime token) r.answeredAt

/-- The token of the last request for the url is in the cache, if it brought one. -/
def Matches (platform : Platform) (s : CredentialState) (url : String) : Prop :=
  ∀ r token, s.lastRequest url = some r → tokenAnswer platform r.answer = some token →
    s.cache url = some (Entry.store token (lifetime token) r.answeredAt)

/-- What a call knows of the state from its own answers. -/
structure Knows (platform : Platform) (s : CredentialState) (seen : Answered) : Prop where
  pending : ∀ url token, Pending platform seen url token →
    ∃ r, s.lastRequest url = some r ∧ tokenAnswer platform r.answer = some token ∧
      r.answeredAt = s.now
  missed : ∀ url, seen = [⟨.acquire, ()⟩, ⟨.cacheGet url, none⟩] → s.cache.get url s.now = none

/-- A call without the mutex knows nothing that could change. -/
theorem knows_of_not_held {s : CredentialState} {seen : Answered}
    (h : mutex.Held seen ≠ true) : Knows platform s seen where
  pending := fun _ _ hp => absurd hp.held h
  missed := by
    rintro url rfl
    exact absurd rfl h

/-- What holds while only this call can be between its answers. -/
structure Holding (platform : Platform) (s : CredentialState) (seen : Answered) : Prop where
  origin : Origin platform s
  knows : Knows platform s seen
  matched : ∀ url, Matches platform s url ∨ ∃ token, Pending platform seen url token

theorem lastRequest_cons (s : CredentialState) (r : ImdsRequest) (url : String) :
    ({ s with requests := r :: s.requests } : CredentialState).lastRequest url =
      if r.url = url then some r else s.lastRequest url := by
  unfold CredentialState.lastRequest
  rw [List.find?_cons]
  by_cases h : r.url = url
  · simp [h]
  · simp [h]

theorem lastRequest_mem {s : CredentialState} {url : String} {r : ImdsRequest}
    (h : s.lastRequest url = some r) : r ∈ s.requests ∧ r.url = url := by
  refine ⟨List.mem_of_find?_eq_some h, ?_⟩
  simpa using List.find?_some h

/-- A call that is not about to store a token leaves nothing unmatched. -/
theorem Holding.matches {s : CredentialState} {seen : Answered} (h : Holding platform s seen)
    {url : String} (hnot : ∀ token, ¬ Pending platform seen url token) : Matches platform s url :=
  (h.matched url).resolve_right fun ⟨token, hp⟩ => hnot token hp

/-- A served call is not about to store a token. -/
theorem Served.not_pending {seen : Answered} {x : Except CredentialError ImdsToken}
    (h : Served platform scopes seen x) (url : String) (token : ImdsToken) :
    ¬ Pending platform seen url token := by
  rintro ⟨timeout, answer, hseen, hanswer⟩
  cases h with
  | failed h hnone =>
    cases hseen
    rw [hnone] at hanswer
    cases hanswer
  | _ => cases hseen

/-- A step that changes neither cache nor requests, by a call that is not about to store a
token and is not afterwards. -/
theorem Holding.quiet {s s' : CredentialState} {seen seen' : Answered}
    (h : Holding platform s seen) (hcache : s'.cache = s.cache)
    (hrequests : s'.requests = s.requests)
    (hnot : ∀ url token, ¬ Pending platform seen url token)
    (hknows : Knows platform s' seen') : Holding platform s' seen' where
  origin := by
    unfold Origin
    rw [hcache, hrequests]
    exact h.origin
  knows := hknows
  matched := fun url => by
    left
    have hlast : s'.lastRequest url = s.lastRequest url := by
      unfold CredentialState.lastRequest
      rw [hrequests]
    unfold Matches
    rw [hcache, hlast]
    exact h.matches (hnot url)

/-- A request: its answer is now the last one for the url, and is not stored yet. -/
theorem Holding.httpGet {s : CredentialState} {url : String} {timeout : Option ℕ}
    (h : Holding platform s [⟨.acquire, ()⟩, ⟨.cacheGet url, none⟩]) :
    Holding platform (handle (.httpGet url timeout) s).2
      [⟨.acquire, ()⟩, ⟨.cacheGet url, none⟩,
        ⟨.httpGet url timeout, (handle (.httpGet url timeout) s).1⟩] := by
  have hlast : ∀ url', (handle (.httpGet url timeout) s).2.lastRequest url' =
      if url = url' then some ⟨url, s.answers s.requests.length url, s.wait.now⟩
      else s.lastRequest url' := fun url' => lastRequest_cons s.wait _ url'
  refine ⟨?_, ⟨?_, ?_⟩, ?_⟩
  · intro url' e he
    obtain ⟨r, hr, hrest⟩ := h.origin url' e he
    exact ⟨r, List.mem_cons_of_mem _ hr, hrest⟩
  · rintro url' token ⟨timeout', answer, hseen, hanswer⟩
    cases hseen
    exact ⟨_, (hlast url).trans (if_pos rfl), hanswer, rfl⟩
  · intro url' hseen
    cases hseen
  · intro url'
    by_cases hsame : url = url'
    · subst hsame
      rcases htoken : tokenAnswer platform (s.answers s.requests.length url) with _ | token
      · -- no token came, so there is none to find
        left
        intro r token hr hanswer
        rw [hlast, if_pos rfl] at hr
        cases hr
        rw [htoken] at hanswer
        cases hanswer
      · exact Or.inr ⟨token, timeout, _, rfl, htoken⟩
    · left
      intro r token hr
      rw [hlast, if_neg hsame] at hr
      exact h.matches (not_pending_of_length (by simp) url') r token hr

/-- A token is stored as of the moment its request was answered. -/
theorem Holding.cacheSet {s : CredentialState} {url : String} {timeout : Option ℕ}
    {answer : Except CredentialError (Option String)} {token : ImdsToken}
    (h : Holding platform s
      [⟨.acquire, ()⟩, ⟨.cacheGet url, none⟩, ⟨.httpGet url timeout, answer⟩])
    (hanswer : tokenAnswer platform answer = some token) :
    Holding platform (handle (.cacheSet url token (lifetime token)) s).2
      [⟨.acquire, ()⟩, ⟨.cacheGet url, none⟩, ⟨.httpGet url timeout, answer⟩,
        ⟨.cacheSet url token (lifetime token), ()⟩] := by
  obtain ⟨r, hlast, htoken, hat⟩ := h.knows.pending url token ⟨timeout, answer, rfl, hanswer⟩
  obtain ⟨hmem, hr⟩ := lastRequest_mem hlast
  -- no time passed since the answer, so the entry is as old as that
  have hself : (handle (.cacheSet url token (lifetime token)) s).2.cache url =
      some (Entry.store token (lifetime token) r.answeredAt) := by
    rw [hat]
    exact TimedCache.set_self s.cache url token (lifetime token) s.now
  have hother : ∀ url', url' ≠ url →
      (handle (.cacheSet url token (lifetime token)) s).2.cache url' = s.cache url' :=
    fun url' hne => TimedCache.set_ne s.cache hne token (lifetime token) s.now
  refine ⟨?_, ⟨?_, ?_⟩, ?_⟩
  · intro url' e he
    by_cases hsame : url' = url
    · subst hsame
      rw [hself] at he
      exact ⟨r, hmem, hr, token, htoken, (Option.some.inj he).symm⟩
    · rw [hother url' hsame] at he
      exact h.origin url' e he
  · exact fun url' token' hp => absurd hp (not_pending_of_length (by simp) url' token')
  · intro url' hseen
    cases hseen
  · intro url'
    left
    by_cases hsame : url' = url
    · subst hsame
      intro r' token' hr' hanswer'
      obtain rfl : r = r' := Option.some.inj (hlast.symm.trans hr')
      obtain rfl : token = token' := Option.some.inj (htoken.symm.trans hanswer')
      exact hself
    · intro r' token' hr' hanswer'
      rw [hother url' hsame]
      refine h.matches ?_ r' token' hr' hanswer'
      rintro token'' ⟨timeout', answer', hseen, -⟩
      cases hseen
      exact hsame rfl

/-- **One step** of a call, while nobody else takes one. -/
theorem Follows.step {s : CredentialState} {seen : Answered} {op : CredentialOperation}
    (hop : Follows platform scopes seen op) (h : Holding platform s seen) :
    Holding platform (handle op s).2 (seen ++ [⟨op, (handle op s).1⟩]) := by
  -- only the answer of the request and the write to the cache change what is pending
  cases hop with
  | acquire =>
    refine h.quiet rfl rfl (not_pending_of_length (by simp)) ⟨?_, ?_⟩
    · exact fun url token hp => absurd hp (not_pending_of_length (by simp) url token)
    · intro url hseen
      cases hseen
  | @cacheGet url hurl =>
    refine h.quiet rfl rfl (not_pending_of_length (by simp)) ⟨?_, ?_⟩
    · exact fun url token hp => absurd hp (not_pending_of_length (by simp) url token)
    · intro url' hseen
      simp only [List.cons_append, List.nil_append, List.cons.injEq, Sigma.mk.injEq,
        CredentialOperation.cacheGet.injEq, and_true, true_and] at hseen
      obtain ⟨rfl, hmiss⟩ := hseen
      exact eq_of_heq hmiss
  | httpGet hurl => exact h.httpGet
  | cacheSet hurl hanswer => exact h.cacheSet hanswer
  | release hserved =>
    refine h.quiet rfl rfl hserved.not_pending ⟨?_, ?_⟩
    · rintro url token ⟨timeout, answer, hseen, -⟩
      cases hserved <;> cases hseen
    · intro url hseen
      cases hserved <;> cases hseen

/-! ## The invariant of all interleavings -/

/-- One `getToken` call. -/
structure TokenCall where
  scopes : Scopes
  timeout : Option ℕ

variable {ι : Type} [DecidableEq ι]

abbrev Callers (ι : Type) : Type :=
  Pool ι CredentialOperation CredentialOperation.Result CredentialState CredentialError AccessToken

/-- The calls, all at their beginning. -/
def callers (platform : Platform) (calls : ι → TokenCall) (s₀ : CredentialState) : Callers ι :=
  Pool.start (fun i => getToken platform (calls i).scopes (calls i).timeout) s₀

/-- The mutex is given to one call at a time. -/
def Admitted (p : Callers ι) (_ : ι) (op : CredentialOperation) : Prop := mutex.Admits p op

/-- What holds of the cache, the requests and the calls in every reachable state. -/
structure Cached (platform : Platform) (p : Callers ι) : Prop where
  origin : Origin platform p.shared
  knows : ∀ i, Knows platform p.shared (p.threads i).seen
  matched : ∀ url, Matches platform p.shared url ∨
    ∃ i token, Pending platform (p.threads i).seen url token

variable {calls : ι → TokenCall} {s₀ : CredentialState} {p : Callers ι}

/-- What a call does next, wherever it is. -/
theorem follows (hrun : Pool.Runs handle Admitted (callers platform calls s₀) p) {i : ι}
    {op : CredentialOperation} {k : op.Result → Requests AccessToken}
    (hk : (p.threads i).prog = .call op k) :
    Follows platform (calls i).scopes (p.threads i).seen op :=
  hrun.allowed (fun i => meets_getToken platform (calls i).scopes (calls i).timeout) hk

/-- While a call holds the mutex, only it takes steps. -/
theorem only_holder (hrun : Pool.Runs handle Admitted (callers platform calls s₀) p) {i j : ι}
    {op : CredentialOperation} {k : op.Result → Requests AccessToken}
    (hj : mutex.Held (p.threads j).seen = true) (hG : Admitted p i op)
    (hk : (p.threads i).prog = .call op k) : j = i := by
  have hnone : ∀ op, (fun _ => False) op → mutex.sets op = none := fun _ h => h.elim
  exact (mutex.only_holder_steps hrun (fun _ _ _ h => h)
    (fun i => meets_getToken platform (calls i).scopes (calls i).timeout) hnone
    (fun _ _ _ h => h.held.imp_right Or.inl) hj hG hk).resolve_right id

/-- **The invariant.** The step of the call that takes one says everything, because the
others wait for the mutex. -/
theorem run_cached (h₀ : s₀.Fresh)
    (hrun : Pool.Runs handle Admitted (callers platform calls s₀) p) : Cached platform p := by
  refine hrun.invariant_reached (I := Cached platform) ⟨?_, ?_, ?_⟩ ?_
  · intro url e he
    rw [callers, Pool.start, h₀.cache] at he
    cases he
  · exact fun i => knows_of_not_held (by simp [callers, Pool.start])
  · intro url
    left
    intro r token hr
    rw [callers, Pool.start, CredentialState.lastRequest, h₀.requests] at hr
    cases hr
  rintro p i op k hp ⟨horigin, hknows, hmatched⟩ hG hk
  -- the others wait, so all that is known is known by the call that steps
  have hholder : ∀ j, mutex.Held (p.threads j).seen = true → j = i :=
    fun j hj => only_holder hp hj hG hk
  have hbefore : Holding platform p.shared (p.threads i).seen := by
    refine ⟨horigin, hknows i, fun url => (hmatched url).imp_right ?_⟩
    rintro ⟨j, token, hpending⟩
    obtain rfl := hholder j hpending.held
    exact ⟨token, hpending⟩
  have hafter := (follows hp hk).step hbefore
  have hself := Pool.perform_threads_self handle p i op k
  refine ⟨hafter.origin, fun j => ?_, fun url => (hafter.matched url).imp_right ?_⟩
  · by_cases hj : j = i
    · subst hj
      rw [hself]
      exact hafter.knows
    · rw [Pool.perform_threads_ne handle p hj]
      exact knows_of_not_held fun hheld => hj (hholder j hheld)
  · rintro ⟨token, hpending⟩
    refine ⟨i, token, ?_⟩
    rw [hself]
    exact hpending

/-! ## Single flight -/

/-- The url asks for a token for the first of the scopes: for its host, under https, and for the
principal of the platform. -/
def RequestsFirst (platform : Platform) (scopes : Scopes) (url : String) : Prop :=
  ∃ scope hostname, (scopes = .one scope ∨ ∃ others, scopes = .many (scope :: others)) ∧
    platform.hostname scope = .ok hostname ∧
    url = "http://169.254.169.254/metadata/identity/oauth2/token?api-version=2019-08-01" ++
      "&resource=" ++ encodeURI ("https://" ++ hostname.getD "null") ++
      "&principal_id=" ++ platform.principalId.getD "undefined"

theorem requestsFirst_of_url {url : String} (h : getRequestUrl platform scopes = .ok url) :
    RequestsFirst platform scopes url := by
  unfold getRequestUrl at h
  rcases hfirst : firstScope scopes with e | scope
  · rw [hfirst] at h
    cases h
  · rcases hhost : platform.hostname scope with e | hostname
    · rw [hfirst] at h
      simp only [bind, Except.bind, hhost] at h
      cases h
    · rw [hfirst] at h
      simp only [bind, Except.bind, hhost] at h
      refine ⟨scope, hostname, ?_, hhost, (Except.ok.inj h).symm⟩
      rcases scopes with scope' | _ | ⟨scope', others⟩
      · cases hfirst
        exact Or.inl rfl
      · cases hfirst
      · cases hfirst
        exact Or.inr ⟨others, rfl⟩

/-- A call that was answered a token from the cache asked for its own resource, and returns
the text and the expiry of the token. -/
theorem hit_returned (hrun : Pool.Runs handle Admitted (callers platform calls s₀) p) {i : ι}
    {url : String} {token : ImdsToken}
    (hhit : (⟨.cacheGet url, some token⟩ : Sigma CredentialOperation.Result) ∈ (p.threads i).seen) :
    getRequestUrl platform (calls i).scopes = .ok url ∧ ((p.threads i).prog.Ended →
      (p.threads i).prog = .pure ⟨token.access_token, token.expires_on⟩) := by
  have hmeets := hrun.meets
    (fun i => meets_getToken platform (calls i).scopes (calls i).timeout) i
  -- of all the ways a call is served, only a hit has such an answer
  have hserved : ∀ {seen x}, Served platform (calls i).scopes seen x →
      (⟨.cacheGet url, some token⟩ : Sigma CredentialOperation.Result) ∈ seen →
      getRequestUrl platform (calls i).scopes = .ok url ∧ x = .ok token := by
    intro seen x h hmem
    cases h with
    | @hit url' token' h =>
      simp at hmem
      obtain ⟨rfl, rfl⟩ := hmem
      exact ⟨h, rfl⟩
    | _ => simp at hmem
  rcases hprog : (p.threads i).prog with access | e | ⟨op, k⟩
  · rw [hprog] at hmeets
    obtain ⟨seen, x, h, hseen, hx⟩ := hmeets
    rw [hseen] at hhit
    obtain ⟨hurl, rfl⟩ := hserved h (by simpa using hhit)
    exact ⟨hurl, fun _ => congrArg _ (Except.ok.inj hx)⟩
  · rw [hprog] at hmeets
    obtain ⟨seen, x, h, hseen, hx⟩ := hmeets
    rw [hseen] at hhit
    obtain ⟨-, rfl⟩ := hserved h (by simpa using hhit)
    cases hx
  · rw [hprog] at hmeets
    refine ⟨?_, fun hend => hend.elim⟩
    have hfollows : Follows platform (calls i).scopes (p.threads i).seen op := hmeets.1
    generalize (p.threads i).seen = seen at hfollows hhit
    cases hfollows with
    | release h => exact (hserved h hhit).1
    | _ => simp at hhit

/-- What a call was answered from the cache was brought by a request for the same url. -/
theorem hit_requested (h₀ : s₀.Fresh)
    (hrun : Pool.Runs handle Admitted (callers platform calls s₀) p) {i : ι} {url : String}
    {token : ImdsToken}
    (hhit : (⟨.cacheGet url, some token⟩ : Sigma CredentialOperation.Result) ∈ (p.threads i).seen) :
    ∃ r ∈ p.shared.requests, r.url = url ∧ tokenAnswer platform r.answer = some token := by
  revert i url token
  refine hrun.invariant_reached (I := fun p => ∀ {i : ι} {url : String} {token : ImdsToken},
    (⟨.cacheGet url, some token⟩ : Sigma CredentialOperation.Result) ∈ (p.threads i).seen →
    ∃ r ∈ p.shared.requests, r.url = url ∧ tokenAnswer platform r.answer = some token) ?_ ?_
  · intro i url token hhit
    exact absurd hhit List.not_mem_nil
  intro p i op k hp hinv _ hk j url token hhit
  -- requests are never forgotten
  have hgrows : p.shared.requests ⊆ (p.perform handle i op k).shared.requests := by
    intro r hr
    cases op with
    | httpGet url timeout => exact List.mem_cons_of_mem _ hr
    | _ => exact hr
  have hold : (⟨.cacheGet url, some token⟩ : Sigma CredentialOperation.Result) ∈
      (p.threads j).seen → ∃ r ∈ (p.perform handle i op k).shared.requests, r.url = url ∧
        tokenAnswer platform r.answer = some token := by
    intro h
    obtain ⟨r, hr, hrest⟩ := hinv h
    exact ⟨r, hgrows hr, hrest⟩
  by_cases hj : j = i
  · subst hj
    rw [Pool.perform_threads_self] at hhit
    rcases List.mem_append.mp hhit with hhit | hhit
    · exact hold hhit
    · -- this is the look up: the live entry came of a request
      have heq := List.mem_singleton.mp hhit
      cases op with
      | cacheGet url' =>
        simp only [Sigma.mk.injEq, CredentialOperation.cacheGet.injEq] at heq
        obtain ⟨rfl, hget⟩ := heq
        obtain ⟨e, he, -, rfl⟩ := TimedCache.get_eq_some (eq_of_heq hget).symm
        obtain ⟨r, hr, hurl, token, htoken, rfl⟩ := (run_cached h₀ hp).origin url e he
        exact ⟨r, hgrows hr, hurl, htoken⟩
      | _ => simp at heq
  · rw [Pool.perform_threads_ne handle p hj] at hhit
    exact hold hhit

/-- **Single flight to the service.** At most one request is in flight; when one is, it is for
the resource of its call, and the last one for the same url failed, brought a token that is not
kept, or its entry is expired; and a call that finds a live entry looked its own resource up, and
returns the text and the expiry of the token that a request for it brought. -/
theorem getToken_singleFlight (h₀ : s₀.Fresh)
    (hrun : Pool.Runs handle Admitted (callers platform calls s₀) p) :
    (∀ i j url url' timeout timeout' k k',
      (p.threads i).prog = .call (.httpGet url timeout) k →
      (p.threads j).prog = .call (.httpGet url' timeout') k' → i = j) ∧
    (∀ i url timeout k, (p.threads i).prog = .call (.httpGet url timeout) k →
      RequestsFirst platform (calls i).scopes url ∧
      ∀ r, p.shared.lastRequest url = some r →
        tokenAnswer platform r.answer = none ∨
          ∃ token, tokenAnswer platform r.answer = some token ∧
            (token.expires_in < 1200 ∨
              ∃ e, p.shared.cache url = some e ∧ e.value = token ∧ e.storedAt = r.answeredAt ∧
                e.Live p.shared.now = false)) ∧
    (∀ i url token,
      (⟨.cacheGet url, some token⟩ : Sigma CredentialOperation.Result) ∈ (p.threads i).seen →
      RequestsFirst platform (calls i).scopes url ∧
        (∃ r ∈ p.shared.requests, r.url = url ∧ tokenAnswer platform r.answer = some token) ∧
        ((p.threads i).prog.Ended →
          (p.threads i).prog = .pure ⟨token.access_token, token.expires_on⟩)) := by
  have hmeets := fun i => meets_getToken platform (calls i).scopes (calls i).timeout
  have hinv := run_cached h₀ hrun
  -- a call with a request in flight missed the cache, under the mutex
  have hflight : ∀ {i url timeout k}, (p.threads i).prog = .call (.httpGet url timeout) k →
      (p.threads i).seen = [⟨.acquire, ()⟩, ⟨.cacheGet url, none⟩] := by
    intro i url timeout k hk
    have hfollows := follows hrun hk
    generalize (p.threads i).seen = seen at hfollows
    cases hfollows
    rfl
  have hreleases : ∀ i seen op, Follows platform (calls i).scopes seen op →
      mutex.sets op = some false → mutex.Held seen = true := by
    intro i seen op h hsets
    refine h.held.resolve_left fun htakes => ?_
    rw [hsets] at htakes
    cases htakes
  have honly := (mutex.exclusive hrun (fun _ _ _ h => h) hmeets hreleases).2
  refine ⟨?_, ?_, ?_⟩
  · intro i j url url' timeout timeout' k k' hi hj
    exact honly i j (by rw [hflight hi]; rfl) (by rw [hflight hj]; rfl)
  · intro i url timeout k hk
    have hurl : getRequestUrl platform (calls i).scopes = .ok url := by
      have hfollows := follows hrun hk
      generalize (p.threads i).seen = seen at hfollows
      cases hfollows with
      | httpGet h => exact h
    refine ⟨requestsFirst_of_url hurl, fun r hlast => ?_⟩
    have hmiss := (hinv.knows i).missed url (hflight hk)
    have hmatches : Matches platform p.shared url := by
      refine (hinv.matched url).resolve_right ?_
      rintro ⟨j, token, hpending⟩
      obtain rfl := honly j i hpending.held (by rw [hflight hk]; rfl)
      exact not_pending_of_length (by rw [hflight hk]; simp) url token hpending
    rcases htoken : tokenAnswer platform r.answer with _ | token
    · exact Or.inl rfl
    · have hentry := hmatches r token hlast htoken
      exact Or.inr ⟨token, rfl, Or.inr ⟨_, hentry, rfl, rfl, TimedCache.get_eq_none hmiss hentry⟩⟩
  · intro i url token hhit
    obtain ⟨hurl, hreturns⟩ := hit_returned hrun hhit
    exact ⟨requestsFirst_of_url hurl, hit_requested h₀ hrun hhit, hreturns⟩

/-! ## Expired tokens -/

/-- **No expired token is served**, as long as no token is fetched that is valid for exactly
the reserve of 1200 seconds. -/
theorem getToken_unexpired (h₀ : s₀.Fresh)
    (hrun : Pool.Runs handle Admitted (callers platform calls s₀) p)
    (hreserve : ∀ r ∈ p.shared.requests, ∀ token, tokenAnswer platform r.answer = some token →
      token.expires_in ≠ 1200) {i : ι} {url : String}
    {k : CredentialOperation.Result (.cacheGet url) → Requests AccessToken} {token : ImdsToken}
    (hk : (p.threads i).prog = .call (.cacheGet url) k)
    (hhit : (handle (.cacheGet url) p.shared).1 = some token) :
    getRequestUrl platform (calls i).scopes = .ok url ∧
      ∃ r ∈ p.shared.requests, r.url = url ∧ tokenAnswer platform r.answer = some token ∧
        (p.shared.cache url).map Entry.storedAt = some r.answeredAt ∧
        p.shared.now < r.answeredAt + token.expires_in * 1000 := by
  have hown : getRequestUrl platform (calls i).scopes = .ok url := by
    have hfollows := follows hrun hk
    generalize (p.threads i).seen = seen at hfollows
    cases hfollows with
    | cacheGet h => exact h
  obtain ⟨e, he, hlive, rfl⟩ := TimedCache.get_eq_some hhit
  obtain ⟨r, hr, hurl, token, htoken, rfl⟩ := (run_cached h₀ hrun).origin url e he
  refine ⟨hown, r, hr, hurl, htoken, by rw [he]; rfl, ?_⟩
  -- a lifetime of 0 would be kept without end
  have hne : lifetime token ≠ 0 := by
    have hexpires := hreserve r hr token htoken
    unfold lifetime cacheCheckPeriod
    omega
  have hkept := Entry.live_store hne hlive
  show p.shared.now < r.answeredAt + token.expires_in * 1000
  unfold lifetime cacheCheckPeriod at hkept
  omega

/-! ## Runs -/

/-- A platform for one resource, whose service brings tokens of this validity. -/
def samplePlatform (expires_in : ℕ) : Platform where
  hostname := fun _ => .ok (some "vault.azure.net")
  parse := fun _ => .ok ⟨"eyJ0e_3g", expires_in, 1633500000⟩
  principalId := some "sp-id"

/-- Two calls for it. -/
def sampleCalls : Fin 2 → TokenCall := fun _ => ⟨.one "https://vault.azure.net/default", some 30⟩

/-- A new credential; the third wait, that of the second call for the mutex, is long. -/
def sampleState (pause : ℕ) : CredentialState where
  cache := fun _ => none
  locked := false
  now := 0
  waits := 0
  pauses := fun n => if n = 2 then pause else 0
  answers := fun _ _ => .ok (some "\x7b\"access_token\":\"eyJ0e_3g\"\x7d")
  requests := []

theorem fresh_sampleState (pause : ℕ) : (sampleState pause).Fresh := ⟨fun _ => rfl, rfl⟩

/-- The calls took their turns in this order, where the mutex admitted them. -/
def samplePool (expires_in pause : ℕ) (schedule : List (Fin 2)) : Callers (Fin 2) :=
  (callers (samplePlatform expires_in) sampleCalls (sampleState pause)).playIf handle mutex.admits
    schedule

theorem runs_samplePool (expires_in pause : ℕ) (schedule : List (Fin 2)) :
    Pool.Runs handle Admitted
      (callers (samplePlatform expires_in) sampleCalls (sampleState pause))
      (samplePool expires_in pause schedule) :=
  Pool.runs_playIf handle (fun _ _ _ h => mutex.admits_of_admits h) _ schedule

/-- The look up a call is about to make, and the request it has in flight. -/
def nextKey : Requests AccessToken → Option String
  | .call (.cacheGet url) _ => some url
  | _ => none

def nextUrl : Requests AccessToken → Option String
  | .call (.httpGet url _) _ => some url
  | _ => none

theorem eq_of_nextKey {prog : Requests AccessToken} {url : String} (h : nextKey prog = some url) :
    ∃ k, prog = .call (.cacheGet url) k := by
  unfold nextKey at h
  split at h
  · cases h
    exact ⟨_, rfl⟩
  · cases h

theorem eq_of_nextUrl {prog : Requests AccessToken} {url : String} (h : nextUrl prog = some url) :
    ∃ timeout k, prog = .call (.httpGet url timeout) k := by
  unfold nextUrl at h
  split at h
  · cases h
    exact ⟨_, _, rfl⟩
  · cases h

/-- The url both calls request. -/
def sampleUrl : String :=
  imdsEndpoint ++ "&resource=https://vault.azure.net&principal_id=sp-id"

/-- The first call has stored a token that is valid for an hour; the second one, half an hour
later, is about to look it up. -/
theorem getToken_unexpired_sample :
    ∃ r ∈ (samplePool 3600 1800000 [0, 0, 0, 0, 0, 1]).shared.requests, r.url = sampleUrl ∧
      (samplePool 3600 1800000 [0, 0, 0, 0, 0, 1]).shared.now < r.answeredAt + 3600 * 1000 := by
  have hkey : nextKey ((samplePool 3600 1800000 [0, 0, 0, 0, 0, 1]).threads 1).prog =
      some sampleUrl := by decide +kernel
  obtain ⟨k, hk⟩ := eq_of_nextKey hkey
  have hreserve : ∀ r ∈ (samplePool 3600 1800000 [0, 0, 0, 0, 0, 1]).shared.requests, ∀ token,
      tokenAnswer (samplePlatform 3600) r.answer = some token → token.expires_in ≠ 1200 := by
    intro r _ token htoken
    unfold tokenAnswer at htoken
    split at htoken
    · cases htoken
      decide
    · cases htoken
  obtain ⟨-, r, hr, hurl, -, -, hnow⟩ := @getToken_unexpired _ _ _ _ _ _ (fresh_sampleState 1800000)
    (runs_samplePool 3600 1800000 [0, 0, 0, 0, 0, 1]) hreserve 1 sampleUrl k
    ⟨"eyJ0e_3g", 3600, 1633500000⟩ hk (by decide +kernel)
  exact ⟨r, hr, hurl, hnow⟩

/-- A token that is valid for exactly 1200 seconds is stored without expiry: eleven days later
it is still served. -/
theorem getToken_expired :
    ∃ p, Pool.Runs handle Admitted
        (callers (samplePlatform 1200) sampleCalls (sampleState 1000000000)) p ∧
      (∃ k, (p.threads 1).prog = .call (.cacheGet sampleUrl) k) ∧
      (handle (.cacheGet sampleUrl) p.shared).1 = some ⟨"eyJ0e_3g", 1200, 1633500000⟩ ∧
      ∀ r ∈ p.shared.requests, r.answeredAt + 1200 * 1000 ≤ p.shared.now :=
  ⟨_, runs_samplePool 1200 1000000000 [0, 0, 0, 0, 0, 1], eq_of_nextKey (by decide +kernel),
    by decide +kernel, by decide +kernel⟩

/-- Once a token valid for twenty-five minutes has been kept for five, the second call
requests another one. -/
theorem getToken_singleFlight_sample :
    ∃ timeout k r, ((samplePool 1500 600000 [0, 0, 0, 0, 0, 1, 1]).threads 1).prog =
        .call (.httpGet sampleUrl timeout) k ∧
      (samplePool 1500 600000 [0, 0, 0, 0, 0, 1, 1]).shared.lastRequest sampleUrl = some r ∧
      RequestsFirst (samplePlatform 1500) (sampleCalls 1).scopes sampleUrl ∧
      (tokenAnswer (samplePlatform 1500) r.answer = none ∨
        ∃ token, tokenAnswer (samplePlatform 1500) r.answer = some token ∧
          (token.expires_in < 1200 ∨ ∃ e,
            (samplePool 1500 600000 [0, 0, 0, 0, 0, 1, 1]).shared.cache sampleUrl = some e ∧
            e.value = token ∧ e.storedAt = r.answeredAt ∧
            e.Live (samplePool 1500 600000 [0, 0, 0, 0, 0, 1, 1]).shared.now = false)) := by
  obtain ⟨timeout, k, hk⟩ : ∃ timeout k,
      ((samplePool 1500 600000 [0, 0, 0, 0, 0, 1, 1]).threads 1).prog =
        .call (.httpGet sampleUrl timeout) k := eq_of_nextUrl (by decide +kernel)
  obtain ⟨r, hr⟩ : ∃ r,
      (samplePool 1500 600000 [0, 0, 0, 0, 0, 1, 1]).shared.lastRequest sampleUrl = some r :=
    Option.isSome_iff_exists.mp (by decide +kernel)
  obtain ⟨hown, hlast⟩ := (getToken_singleFlight (fresh_sampleState 600000)
    (runs_samplePool 1500 600000 [0, 0, 0, 0, 0, 1, 1])).2.1 1 sampleUrl timeout k hk
  exact ⟨timeout, k, r, hk, hr, hown, hlast r hr⟩

end WebInsights.Credentials
