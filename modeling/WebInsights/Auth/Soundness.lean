/-
Soundness of the access decision.

Any number of requests are authorized at the same time; between any two of their
operations the secrets may change and the cached lists expire. A request that is
let in showed a token that was verified against the list in force, and the list
in force has all its parts: it was read in full just now, or it comes from the
cache, and only such lists are cached (`Acl.Sound`). The id of the application is
looked up by `_.includes`, which looks for a part of the text where the secret
holds a text instead of a list (`Listed`).
-/
import WebInsights.Auth.AzureAdAuth
import WebInsights.Effect.Trace

set_option autoImplicit false

namespace WebInsights.Auth

open Effect Js WebApi
open Cosmos (JsError property_eq_ok)

/-! ## The outside world -/

/-- The cache, and what the key vault, the token library and the clock will answer the
operations to come. -/
structure World where
  cache : String → Option Acl
  clock : ℕ
  expired : ℕ → String → Bool
  secret : ℕ → String → Except JsError Secret
  verify : ℕ → String → VerifyOptions → Except JsError Val

namespace World

def tick (w : World) : World := { w with clock := w.clock + 1 }

def withCache (w : World) (aclName : String) (acl : Option Acl) : World :=
  { w with cache := Function.update w.cache aclName acl }

/-- How the world answers an operation. -/
def handle : Handler Operation Operation.Result World
  | .cacheGet aclName, w =>
    if w.expired w.clock aclName = true then (none, (w.withCache aclName none).tick)
    else (w.cache aclName, w.tick)
  | .cacheSet aclName acl, w => ((), (w.withCache aclName (some acl)).tick)
  | .getSecret name, w => (w.secret w.clock name, w.tick)
  | .verifyToken token options, w => (w.verify w.clock token options, w.tick)

@[simp] theorem withCache_self (w : World) (aclName : String) (acl : Option Acl) :
    (w.withCache aclName acl).cache aclName = acl := by
  simp only [withCache, Function.update_self]

theorem withCache_ne (w : World) {aclName name : String} (h : name ≠ aclName) (acl : Option Acl) :
    (w.withCache aclName acl).cache name = w.cache name := by
  simp only [withCache, Function.update_of_ne h]

theorem handle_expired {w : World} {aclName : String} (h : w.expired w.clock aclName = true) :
    handle (.cacheGet aclName) w = (none, (w.withCache aclName none).tick) := if_pos h

theorem handle_cached {w : World} {aclName : String} (h : ¬ w.expired w.clock aclName = true) :
    handle (.cacheGet aclName) w = (w.cache aclName, w.tick) := if_neg h

end World

/-! ## Access that is granted -/

/-- A list with all its parts. -/
structure Acl.Sound (acl : Acl) : Prop where
  valid : acl.valid = true
  issuer : isEmpty acl.issuer = false
  publicKeysUrl : isEmpty acl.publicKeysUrl = false
  audience : isEmpty acl.audience = false
  appIds : isEmpty acl.appIds = false

/-- The list in force for a request, by the answers the request was given: the cached
one, or what three secrets say. -/
inductive InForce (aclName : String) (seen : List (Sigma Operation.Result)) : Acl → Prop
  | cached {acl : Acl} (h : ⟨.cacheGet aclName, some acl⟩ ∈ seen) : InForce aclName seen acl
  | read {issuer publicKeysUrl entries : Secret} {value : Val} {valid : Bool}
      (hissuer : ⟨.getSecret "aclIssuer", .ok issuer⟩ ∈ seen)
      (hurl : ⟨.getSecret "aclPublicKeysUrl", .ok publicKeysUrl⟩ ∈ seen)
      (hentries : ⟨.getSecret aclName, .ok entries⟩ ∈ seen) (hvalue : entries.parse = .ok value) :
      InForce aclName seen
        ⟨issuer.value, publicKeysUrl.value, value.get "audience", value.get "appIds", valid⟩

/-- The application id is one of those listed. -/
def IsOneOf (appIds appid : Val) : Prop :=
  match appIds with
  | .arr ids => appid ∈ ids
  | .obj fs => ∃ p ∈ fs, p.2 = appid
  | ids => appid = ids

/-- The application id is one of those listed, or a part of the text that stands where
a list should. -/
def Listed (appIds appid : Val) : Prop :=
  IsOneOf appIds appid ∨
    ∃ ids, appIds = .str ids ∧ (toStr appid).toList <:+: ids.toList

/-- What a request that is let in has shown, by the answers it was given. -/
structure Granted (listed : Val → Val → Prop) (authHeader : Option String) (aclName : String)
    (seen : List (Sigma Operation.Result)) (token : String) (acl : Acl) (payload : Val) :
    Prop where
  header : authHeader = some ("Bearer " ++ token)
  token_ne : token ≠ ""
  aclName_ne : aclName ≠ ""
  inForce : InForce aclName seen acl
  sound : acl.Sound
  verified : ⟨.verifyToken token ⟨acl.publicKeysUrl, acl.issuer, acl.audience⟩, .ok payload⟩ ∈ seen
  audience : payload.get "aud" = acl.audience
  appId : listed acl.appIds (payload.get "appid")

/-! ## The cache -/

/-- Only lists with all their parts are cached. -/
def CachesSound : Operation → Prop
  | .cacheSet _ acl => acl.Sound
  | _ => True

/-- The answers of a world whose cached lists have all their parts. -/
def AnswersSound : (op : Operation) → op.Result → Prop
  | .cacheGet _, cachedAcl => ∀ acl ∈ cachedAcl, acl.Sound
  | _, _ => True

/-- A list is valid exactly when no part is empty. -/
theorem validateAcl_iff {issuer publicKeysUrl audience appIds : Val} :
    AclProvider.validateAcl issuer publicKeysUrl audience appIds = true ↔
      (⟨issuer, publicKeysUrl, audience, appIds, true⟩ : Acl).Sound := by
  unfold AclProvider.validateAcl
  simp only [List.any_cons, List.any_nil, Bool.or_false, Bool.not_eq_true', Bool.or_eq_false_iff]
  constructor
  · rintro ⟨h₁, h₂, h₃, h₄⟩
    exact ⟨rfl, h₁, h₂, h₃, h₄⟩
  · intro h
    exact ⟨h.issuer, h.publicKeysUrl, h.audience, h.appIds⟩

theorem uses_getSecret (name : String) : (getSecret name).Uses CachesSound :=
  Program.uses_bind ((Program.uses_perform _).mpr trivial) fun _ => Program.uses_ofExcept _

theorem uses_verifyToken (token : String) (options : VerifyOptions) :
    (verifyToken token options).Uses CachesSound :=
  Program.uses_bind ((Program.uses_perform _).mpr trivial) fun _ => Program.uses_ofExcept _

theorem uses_getAclEntries (aclName : String) :
    (AclProvider.getAclEntries aclName).Uses CachesSound :=
  Program.uses_tryCatch
    (Program.uses_bind (uses_getSecret aclName) fun _ => Program.uses_ofExcept _)
    fun _ => trivial

/-- What is cached was validated. -/
theorem uses_getAclExclusive (aclName : String) :
    (AclProvider.getAclExclusive aclName).Uses CachesSound := by
  unfold AclProvider.getAclExclusive AclProvider.readAcl
  simp only [bind_assoc, pure_bind]
  refine Program.uses_bind (uses_getSecret _) fun issuer => ?_
  refine Program.uses_bind (uses_getSecret _) fun publicKeysUrl => ?_
  refine Program.uses_bind (uses_getAclEntries _) fun entries => ?_
  split
  · rename_i hvalid
    have hsound := validateAcl_iff.mp hvalid
    refine Program.uses_bind ((Program.uses_perform _).mpr ?_) fun _ => trivial
    exact ⟨hvalid, hsound.issuer, hsound.publicKeysUrl, hsound.audience, hsound.appIds⟩
  · trivial

theorem uses_getAcl (aclName : String) : (AclProvider.getAcl aclName).Uses CachesSound := by
  unfold AclProvider.getAcl
  refine Program.uses_bind ((Program.uses_perform _).mpr trivial) fun cachedAcl => ?_
  cases cachedAcl with
  | some acl => trivial
  | none => exact uses_getAclExclusive aclName

theorem uses_azureAdAuth (token aclName : String) :
    (AzureAdAuth.authorize token aclName).Uses CachesSound := by
  unfold AzureAdAuth.authorize
  refine Program.uses_bind (uses_getAcl aclName) fun acl => ?_
  split
  · refine Program.uses_tryCatch ?_ fun _ => trivial
    refine Program.uses_bind (uses_verifyToken _ _) fun payload => ?_
    refine Program.uses_bind (Program.uses_ofExcept _) fun aud => ?_
    exact Program.uses_bind (Program.uses_ofExcept _) fun appid => trivial
  · trivial

/-- **Only sound lists are cached**, whatever the request is answered. -/
theorem uses_authorize (authHeader : Option String) (aclName : String)
    (res : Option HttpResponse) :
    (WebControllerAuth.authorize authHeader aclName res).Uses CachesSound := by
  unfold WebControllerAuth.authorize
  split
  · split
    · refine Program.uses_bind (uses_azureAdAuth _ _) fun authorized => ?_
      split <;> trivial
    · trivial
  · trivial

/-- A world that caches sound lists goes on to do so. -/
theorem World.handle_sound {op : Operation} {w : World} (hop : CachesSound op)
    (h : ∀ aclName, ∀ acl ∈ w.cache aclName, acl.Sound) :
    ∀ aclName, ∀ acl ∈ (World.handle op w).2.cache aclName, acl.Sound := by
  intro aclName acl hacl
  -- a step of the cache touches one name, and what it puts there is sound
  have hupdate : ∀ (name : String) (cached : Option Acl), (∀ acl ∈ cached, acl.Sound) →
      acl ∈ (w.withCache name cached).cache aclName → acl.Sound := by
    intro name cached hcached hmem
    by_cases hname : aclName = name
    · rw [hname, World.withCache_self] at hmem
      exact hcached acl hmem
    · rw [World.withCache_ne w hname] at hmem
      exact h aclName acl hmem
  cases op with
  | cacheGet name =>
    by_cases hexpired : w.expired w.clock name = true
    · rw [World.handle_expired hexpired] at hacl
      exact hupdate name none nofun hacl
    · rw [World.handle_cached hexpired] at hacl
      exact h aclName acl hacl
  | cacheSet name set =>
    refine hupdate name (some set) (fun acl hset => ?_) hacl
    obtain rfl := Option.mem_some_iff.mp hset
    exact hop
  | getSecret name => exact h aclName acl hacl
  | verifyToken token options => exact h aclName acl hacl

theorem World.handle_answer (op : Operation) {w : World}
    (h : ∀ aclName, ∀ acl ∈ w.cache aclName, acl.Sound) :
    AnswersSound op (World.handle op w).1 := by
  cases op with
  | cacheGet name =>
    intro acl hacl
    by_cases hexpired : w.expired w.clock name = true
    · rw [World.handle_expired hexpired] at hacl
      cases hacl
    · rw [World.handle_cached hexpired] at hacl
      exact h name acl hacl
  | cacheSet name set => trivial
  | getSecret name => trivial
  | verifyToken token options => trivial

/-! ## What a request that is let in was answered -/

section

variable {seen : List (Sigma Operation.Result)}

theorem getSecret_trace {name : String} {s : Secret} (h : Trace (getSecret name) seen (.pure s)) :
    seen = [⟨.getSecret name, .ok s⟩] := by
  obtain ⟨seen₁, seen₂, answer, rfl, h₁, h₂⟩ := Trace.of_bind h
  obtain ⟨rfl, rfl⟩ := Trace.of_ofExcept h₂
  obtain rfl := Trace.of_perform h₁
  rfl

theorem verifyToken_trace {token : String} {options : VerifyOptions} {payload : Val}
    (h : Trace (verifyToken token options) seen (.pure payload)) :
    seen = [⟨.verifyToken token options, .ok payload⟩] := by
  obtain ⟨seen₁, seen₂, answer, rfl, h₁, h₂⟩ := Trace.of_bind h
  obtain ⟨rfl, rfl⟩ := Trace.of_ofExcept h₂
  obtain rfl := Trace.of_perform h₁
  rfl

/-- The entries of a list: `undefined`, or what the secret of the list says. -/
theorem getAclEntries_trace {aclName : String} {value : Val}
    (h : Trace (AclProvider.getAclEntries aclName) seen (.pure value)) :
    value = .undefined ∨ ∃ entries : Secret,
      (⟨.getSecret aclName, .ok entries⟩ : Sigma Operation.Result) ∈ seen ∧
        entries.parse = .ok value := by
  rcases Trace.of_tryCatch h with h | ⟨seen₁, seen₂, e, rfl, -, h⟩
  · obtain ⟨seen₁, seen₂, entries, rfl, h₁, h₂⟩ := Trace.of_bind h
    obtain ⟨hparse, rfl⟩ := Trace.of_ofExcept h₂
    obtain rfl := getSecret_trace h₁
    exact Or.inr ⟨entries, by simp, hparse⟩
  · exact Or.inl (Trace.of_pure h).1.symm

/-- A valid list that was read is in force, and has all its parts. -/
theorem readAcl_trace {aclName : String} {acl : Acl}
    (h : Trace (AclProvider.readAcl aclName) seen (.pure acl)) (hvalid : acl.valid = true) :
    InForce aclName seen acl ∧ acl.Sound := by
  obtain ⟨seen₁, seen', issuer, rfl, h₁, hrest₁⟩ := Trace.of_bind h
  obtain ⟨seen₂, seen'', publicKeysUrl, rfl, h₂, hrest₂⟩ := Trace.of_bind hrest₁
  obtain ⟨seen₃, seen₄, value, rfl, h₃, h₄⟩ := Trace.of_bind hrest₂
  obtain rfl := getSecret_trace h₁
  obtain rfl := getSecret_trace h₂
  obtain ⟨rfl, rfl⟩ := Trace.of_pure h₄
  have hsound := validateAcl_iff.mp hvalid
  refine ⟨?_, ⟨hvalid, hsound.issuer, hsound.publicKeysUrl, hsound.audience, hsound.appIds⟩⟩
  rcases getAclEntries_trace h₃ with rfl | ⟨entries, hentries, hparse⟩
  · -- with no entries there is no audience
    exact absurd hsound.audience nofun
  · exact .read (by simp) (by simp) (by simp [hentries]) hparse

theorem InForce.mono {aclName : String} {acl : Acl} {seen' : List (Sigma Operation.Result)}
    (h : InForce aclName seen acl) (hsub : seen ⊆ seen') : InForce aclName seen' acl := by
  cases h with
  | cached h => exact .cached (hsub h)
  | read hissuer hurl hentries hvalue =>
    exact .read (hsub hissuer) (hsub hurl) (hsub hentries) hvalue

/-- **A valid list** that a request gets is in force, and has all its parts. -/
theorem getAcl_trace {aclName : String} {acl : Acl}
    (h : Trace (AclProvider.getAcl aclName) seen (.pure acl)) (hvalid : acl.valid = true)
    (hseen : ∀ x ∈ seen, AnswersSound x.1 x.2) : InForce aclName seen acl ∧ acl.Sound := by
  obtain ⟨seen₁, seen₂, cachedAcl, rfl, h₁, h₂⟩ := Trace.of_bind h
  obtain rfl := Trace.of_perform h₁
  cases cachedAcl with
  | some cached =>
    obtain ⟨rfl, rfl⟩ := Trace.of_pure h₂
    exact ⟨.cached (by simp), hseen ⟨.cacheGet aclName, some cached⟩ (by simp) _ rfl⟩
  -- a miss reads the list, and caches it if it is valid: either way it is the result
  | none =>
    obtain ⟨seen₂, seen₃, read, rfl, h₂, h₃⟩ := Trace.of_bind h₂
    have hread : read = acl := by
      by_cases hcond : read.valid = true
      · rw [if_pos hcond] at h₃
        obtain ⟨seen₄, seen₅, u, rfl, -, h₃⟩ := Trace.of_bind h₃
        exact (Trace.of_pure h₃).1
      · rw [if_neg hcond] at h₃
        exact (Trace.of_pure h₃).1
    obtain ⟨hforce, hsound⟩ := readAcl_trace (hread ▸ h₂) hvalid
    refine ⟨hforce.mono fun x hx => ?_, hsound⟩
    simp [hx]

/-- A token is what stands behind `Bearer `. -/
theorem getToken_eq_some {authHeader : Option String} {token : String}
    (h : WebControllerAuth.getToken authHeader = some token) :
    authHeader = some ("Bearer " ++ token) := by
  unfold WebControllerAuth.getToken at h
  cases authHeader with
  | none => cases h
  | some header =>
    dsimp only at h
    split at h
    · rename_i hcond
      obtain ⟨rest, hrest⟩ := hcond.2
      obtain rfl := Option.some.inj h
      have hdrop : header.toList.drop 7 = rest := by
        rw [← hrest]
        exact List.drop_left' rfl
      have htoken : (String.ofList (header.toList.drop 7)).toList = rest := by
        rw [hdrop, String.toList_ofList]
      refine congrArg some (String.toList_injective ?_)
      rw [String.toList_append, htoken, hrest]
    · cases h

/-- What `_.includes` finds is listed. -/
theorem listed_of_includes {appIds appid : Val} (hne : isEmpty appid = false)
    (h : includes appIds appid = true) : Listed appIds appid := by
  unfold includes at h
  split at h
  · exact Or.inr ⟨_, rfl, by simpa using h⟩
  · left
    obtain ⟨v, hv, hsame⟩ := List.any_eq_true.mp h
    rw [← eq_of_sameValueZero hsame] at hv
    exact hv
  · left
    rename_i fs
    obtain ⟨v, hv, hsame⟩ := List.any_eq_true.mp h
    obtain rfl := eq_of_sameValueZero hsame
    rcases hlen : arrayLikeLength fs with _ | n
    · rw [hlen] at hv
      obtain ⟨p, hp, hpv⟩ := List.mem_map.mp hv
      exact ⟨p, hp, hpv⟩
    · rw [hlen] at hv
      -- an element of an array-like object is one of its values
      obtain ⟨i, -, hi⟩ := List.mem_map.mp hv
      have hkey : toString i ∈ Fields.keys fs := by
        by_contra hnot
        rw [Fields.get_eq_undefined_of_notMem hnot] at hi
        rw [← hi] at hne
        cases hne
      exact ⟨_, Fields.mem_of_mem_keys hkey, hi⟩
  · cases h

/-- **A decision of `AzureAdAuth`** in favour of a token. -/
theorem azureAdAuth_trace {token aclName : String}
    (h : Trace (AzureAdAuth.authorize token aclName) seen (.pure true))
    (hseen : ∀ x ∈ seen, AnswersSound x.1 x.2) :
    ∃ acl payload, InForce aclName seen acl ∧ acl.Sound ∧
      (⟨.verifyToken token ⟨acl.publicKeysUrl, acl.issuer, acl.audience⟩, .ok payload⟩ :
        Sigma Operation.Result) ∈ seen ∧
      payload.get "aud" = acl.audience ∧ Listed acl.appIds (payload.get "appid") := by
  obtain ⟨seen₁, seen₂, acl, rfl, h₁, h₂⟩ := Trace.of_bind h
  by_cases hvalid : acl.valid = true
  · rw [if_pos hvalid] at h₂
    obtain ⟨hforce, hsound⟩ := getAcl_trace h₁ hvalid fun x hx =>
      hseen x (List.mem_append_left _ hx)
    rcases Trace.of_tryCatch h₂ with h₂ | ⟨seen₃, seen₄, e, rfl, -, h₂⟩
    · -- the token was verified, and both claims were read from it
      obtain ⟨seen₃, seen₄, payload, rfl, h₃, h₄⟩ := Trace.of_bind h₂
      obtain ⟨seen₅, seen₆, aud, rfl, h₅, h₆⟩ := Trace.of_bind h₄
      obtain ⟨seen₇, seen₈, appid, rfl, h₇, h₈⟩ := Trace.of_bind h₆
      obtain rfl := verifyToken_trace h₃
      obtain rfl := property_eq_ok (Trace.of_ofExcept h₅).1
      obtain rfl := property_eq_ok (Trace.of_ofExcept h₇).1
      have hgrants := (Trace.of_pure h₈).1
      simp only [AzureAdAuth.grants, Bool.and_eq_true, Bool.not_eq_true'] at hgrants
      obtain ⟨⟨⟨-, hne⟩, haud⟩, hincludes⟩ := hgrants
      refine ⟨acl, payload, hforce.mono fun x hx => List.mem_append_left _ hx, hsound, by simp,
        eq_of_sameValueZero haud, listed_of_includes hne hincludes⟩
    · exact absurd (Trace.of_pure h₂).1 nofun
  · rw [if_neg hvalid] at h₂
    exact absurd (Trace.of_pure h₂).1 nofun

/-- A request is let in by `AzureAdAuth`, with its token and the list its controller
names, or refused. -/
theorem authorize_cases {authHeader : Option String} {aclName : String}
    {res res' : Option HttpResponse} {authorized : Bool}
    (h : Trace (WebControllerAuth.authorize authHeader aclName res) seen
      (.pure (authorized, res'))) :
    (authorized = true ∧ res' = res ∧ ∃ token, authHeader = some ("Bearer " ++ token) ∧
      token ≠ "" ∧ aclName ≠ "" ∧ Trace (AzureAdAuth.authorize token aclName) seen (.pure true)) ∨
    (authorized = false ∧ res' = some (getErrorResponse WebApiErrorCodes.unauthorized)) := by
  unfold WebControllerAuth.authorize at h
  have hrefused : ∀ {seen : List (Sigma Operation.Result)},
      Trace (.pure (false, some (getErrorResponse WebApiErrorCodes.unauthorized)) :
        AsyncAuth (Bool × Option HttpResponse)) seen (.pure (authorized, res')) →
      authorized = false ∧ res' = some (getErrorResponse WebApiErrorCodes.unauthorized) := by
    intro seen h
    have heq := Prod.mk.inj (Trace.of_pure h).1
    exact ⟨heq.1.symm, heq.2.symm⟩
  rcases htoken : WebControllerAuth.getToken authHeader with _ | token
  · rw [htoken] at h
    exact Or.inr (hrefused h)
  · rw [htoken] at h
    dsimp only at h
    by_cases hne : token ≠ "" ∧ aclName ≠ ""
    · rw [if_pos hne] at h
      obtain ⟨seen₁, seen₂, granted, rfl, h₁, h₂⟩ := Trace.of_bind h
      cases granted with
      | true =>
        left
        -- the token is for the list that the controller names
        obtain ⟨heq, rfl⟩ := Trace.of_pure h₂
        obtain ⟨rfl, rfl⟩ := Prod.mk.inj heq
        rw [List.append_nil]
        exact ⟨rfl, rfl, token, getToken_eq_some htoken, hne.1, hne.2, h₁⟩
      | false => exact Or.inr (hrefused h₂)
    · rw [if_neg hne] at h
      exact Or.inr (hrefused h)

/-- **The outcome of a request** that was not ended by an exception. -/
theorem authorize_trace {authHeader : Option String} {aclName : String}
    {res res' : Option HttpResponse} {authorized : Bool}
    (h : Trace (WebControllerAuth.authorize authHeader aclName res) seen
      (.pure (authorized, res')))
    (hseen : ∀ x ∈ seen, AnswersSound x.1 x.2) :
    (authorized = true ∧ res' = res ∧
      ∃ token acl payload, Granted Listed authHeader aclName seen token acl payload) ∨
    (authorized = false ∧ res' = some (getErrorResponse WebApiErrorCodes.unauthorized)) := by
  rcases authorize_cases h with ⟨hauth, hres, token, hheader, htoken, hname, h⟩ | hrefused
  · obtain ⟨acl, payload, hforce, hsound, hverified, haud, hlisted⟩ := azureAdAuth_trace h hseen
    exact Or.inl ⟨hauth, hres, token, acl, payload, hheader, htoken, hname, hforce, hsound,
      hverified, haud, hlisted⟩
  · exact Or.inr hrefused

end

/-! ## Soundness -/

/-- A request that is to be authorized, with what its context holds so far. -/
structure AuthRequest where
  authHeader : Option String
  aclName : String
  res : Option HttpResponse

def AuthRequest.authorize (r : AuthRequest) : AsyncAuth (Bool × Option HttpResponse) :=
  WebControllerAuth.authorize r.authHeader r.aclName r.res

/-- Any steps of any requests, from a world that has nothing cached. -/
def Runs {ι : Type} [DecidableEq ι] (requests : ι → AuthRequest) (w : World)
    (q : Pool ι Operation Operation.Result World JsError (Bool × Option HttpResponse)) : Prop :=
  w.cache = (fun _ => none) ∧
    Pool.Runs World.handle (fun _ _ _ => True)
      (Pool.start (fun i => (requests i).authorize) w) q

/-- **Soundness of the access decision.** Whatever requests come together, and whatever
the secrets, the cache and the verification of tokens answer them, a request that is
decided is let in with all that `Granted` says, or is refused with the response 401. -/
theorem authorize_sound {ι : Type} [DecidableEq ι] (requests : ι → AuthRequest) (w : World)
    {q : Pool ι Operation Operation.Result World JsError (Bool × Option HttpResponse)}
    (hrun : Runs requests w q) (i : ι) {authorized : Bool} {res : Option HttpResponse}
    (hend : (q.threads i).prog = .pure (authorized, res)) :
    (authorized = true ∧ res = (requests i).res ∧
      ∃ token acl payload, Granted Listed (requests i).authHeader (requests i).aclName
        (q.threads i).seen token acl payload) ∨
    (authorized = false ∧ res = some ⟨some 401, none, WebApiErrorCodes.unauthorized.body⟩) := by
  obtain ⟨hcache, hrun⟩ := hrun
  have htrace := hrun.trace i
  rw [hend] at htrace
  have hanswers := hrun.answers (P := CachesSound)
    (I := fun w => ∀ aclName, ∀ acl ∈ w.cache aclName, acl.Sound) (R := AnswersSound)
    (fun i => uses_authorize _ _ _) (by rw [hcache]; nofun)
    (fun op w hop hw => World.handle_sound hop hw) (fun op w hw => World.handle_answer op hw)
  exact authorize_trace htrace (hanswers.2 i)

/-! ### One application, and two ways to list it -/

/-- The secrets of a service whose list grants `audience` to `appIds`, and a token of the
application `app-1`. -/
def sampleWorld (entries : Secret) : World where
  cache := fun _ => none
  clock := 0
  expired := fun _ _ => false
  secret := fun _ name =>
    if name = "aclIssuer" then .ok (.unparsable "https://sts.windows.net/tenant/")
    else if name = "aclPublicKeysUrl" then .ok (.unparsable "https://login.test/keys")
    else .ok entries
  verify := fun _ _ _ =>
    .ok (.obj [("aud", .str "api://web-insights"), ("appid", .str "app-1")])

/-- The list of one application. -/
def listedSecret : Secret :=
  .json "\x7b\"audience\":\"api://web-insights\",\"appIds\":[\"app-1\"]\x7d"
    ⟨.obj [("audience", .str "api://web-insights"), ("appIds", .arr [.str "app-1"])], by decide⟩

/-- The id of another application, where a list should stand. -/
def textSecret : Secret :=
  .json "\x7b\"audience\":\"api://web-insights\",\"appIds\":\"app-12\"\x7d"
    ⟨.obj [("audience", .str "api://web-insights"), ("appIds", .str "app-12")], by decide⟩

def sampleRequest : AuthRequest where
  authHeader := some "Bearer token"
  aclName := "aclApiReadAll"
  res := none

/-- What that request is answered, with the list `acl` read from the secret `entries`. -/
def sampleSeen (entries : Secret) (acl : Acl) : List (Sigma Operation.Result) :=
  [⟨.cacheGet "aclApiReadAll", none⟩,
    ⟨.getSecret "aclIssuer", .ok (.unparsable "https://sts.windows.net/tenant/")⟩,
    ⟨.getSecret "aclPublicKeysUrl", .ok (.unparsable "https://login.test/keys")⟩,
    ⟨.getSecret "aclApiReadAll", .ok entries⟩, ⟨.cacheSet "aclApiReadAll" acl, ()⟩,
    ⟨.verifyToken "token" ⟨acl.publicKeysUrl, acl.issuer, acl.audience⟩,
      .ok (.obj [("aud", .str "api://web-insights"), ("appid", .str "app-1")])⟩]

/-- The list in force is the one the secret says. -/
theorem inForce_sampleSeen {entries : Secret} {acl read : Acl} {value : Val}
    (hparse : entries.parse = .ok value)
    (h : InForce "aclApiReadAll" (sampleSeen entries read) acl) :
    acl.appIds = value.get "appIds" := by
  cases h with
  | cached h => simp [sampleSeen] at h
  | read hissuer hurl hentries hvalue =>
    simp only [sampleSeen, List.mem_cons, List.not_mem_nil, or_false] at hentries
    rcases hentries with h | h | h | h | h | h
    · cases h
    · simp at h
    · simp at h
    · cases h
      rw [hparse] at hvalue
      cases hvalue
      rfl
    · cases h
    · cases h

/-- The application `app-1` is let in by a secret that names `app-12` only. -/
theorem authorize_partOfText :
    ∃ q, Runs (fun _ : Unit => sampleRequest) (sampleWorld textSecret) q ∧
      (q.threads ()).prog = .pure (true, none) ∧
      ¬ ∃ token acl payload, Granted IsOneOf sampleRequest.authHeader sampleRequest.aclName
        (q.threads ()).seen token acl payload := by
  have hrun : ∃ q, Runs (fun _ : Unit => sampleRequest) (sampleWorld textSecret) q ∧
      (q.threads ()).prog = .pure (true, none) ∧
      ∃ read, (q.threads ()).seen = sampleSeen textSecret read := by
    refine ⟨_, ⟨rfl, .step (i := ()) (.step (i := ()) (.step (i := ()) (.step (i := ())
      (.step (i := ()) (.step (i := ()) .refl trivial (.perform _ rfl)) trivial (.perform _ rfl))
      trivial (.perform _ rfl)) trivial (.perform _ rfl)) trivial (.perform _ rfl)) trivial
      (.perform _ rfl)⟩, rfl, _, rfl⟩
  obtain ⟨q, hrun, hend, read, hseen⟩ := hrun
  refine ⟨q, hrun, hend, ?_⟩
  rintro ⟨token, acl, payload, h⟩
  rw [hseen] at h
  have hparse : textSecret.parse = .ok (.obj [("audience", .str "api://web-insights"),
      ("appIds", .str "app-12")]) := rfl
  -- the secret names one application, as a text
  have happIds : acl.appIds = .str "app-12" := inForce_sampleSeen hparse h.inForce
  -- only the last answer is about a token
  have hpayload : payload.get "appid" = .str "app-1" := by
    have hverified := h.verified
    simp only [sampleSeen, List.mem_cons, List.not_mem_nil, or_false] at hverified
    rcases hverified with hv | hv | hv | hv | hv | hv
    · cases hv
    · cases hv
    · cases hv
    · cases hv
    · cases hv
    · simp only [Sigma.mk.injEq, Operation.verifyToken.injEq, heq_eq_eq, Except.ok.injEq] at hv
      rw [hv.2]
      rfl
  have happId := h.appId
  rw [happIds, hpayload] at happId
  exact absurd (show Val.str "app-1" = .str "app-12" from happId) (by decide)

/-- The application `app-1` is let in by a secret that lists it. -/
theorem authorize_sound_listed :
    ∃ q : Pool Unit Operation Operation.Result World JsError (Bool × Option HttpResponse),
      (q.threads ()).prog = .pure (true, none) ∧
      ∃ token acl payload, Granted Listed (some "Bearer token") "aclApiReadAll"
        (q.threads ()).seen token acl payload := by
  have hrun : ∃ q, Runs (fun _ : Unit => sampleRequest) (sampleWorld listedSecret) q ∧
      (q.threads ()).prog = .pure (true, none) := by
    refine ⟨_, ⟨rfl, .step (i := ()) (.step (i := ()) (.step (i := ()) (.step (i := ())
      (.step (i := ()) (.step (i := ()) .refl trivial (.perform _ rfl)) trivial (.perform _ rfl))
      trivial (.perform _ rfl)) trivial (.perform _ rfl)) trivial (.perform _ rfl)) trivial
      (.perform _ rfl)⟩, rfl⟩
  obtain ⟨q, hrun, hend⟩ := hrun
  rcases authorize_sound _ _ hrun () hend with ⟨-, -, hgranted⟩ | ⟨hfalse, -⟩
  · exact ⟨q, hend, hgranted⟩
  · cases hfalse

end WebInsights.Auth
