/-
A website that the client posted is read back by the client.

A request that reads does nothing to the storage, so it does not matter how many of them are
served before a response comes back (`getWebsite_over`). What the response to `postWebsite` says
of the website is then what every later `getWebsite` returns, unless something on the way
answers in place of the service.
-/
import WebInsights.StorageApiClient.RepeatedPosts

set_option autoImplicit false

namespace WebInsights.StorageApiClient

open Common Cosmos Effect Js Js.Val Providers StorageApi WebApi

/-! ## The path of an id -/

/-- What an id is made of: the dash, and digits in either case. -/
theorem toNat_of_accepts {p : CharClass} {c : Char} (h : p.accepts c = true) :
    c.toNat = 45 ∨ 48 ≤ c.toNat ∧ c.toNat ≤ 57 ∨ 65 ≤ c.toNat ∧ c.toNat ≤ 70 ∨
      97 ≤ c.toNat ∧ c.toNat ≤ 102 := by
  have hle : ∀ a b : Char, a ≤ b ↔ a.toNat ≤ b.toNat := fun _ _ => Iff.rfl
  cases p with
  | hexDigit =>
    simp only [CharClass.accepts, Bool.or_eq_true, Bool.and_eq_true, decide_eq_true_eq, hle] at h
    rcases h with (hdigit | hlower) | hupper
    · exact Or.inr (Or.inl hdigit)
    · exact Or.inr (Or.inr (Or.inr hlower))
    · exact Or.inr (Or.inr (Or.inl hupper))
  | dash =>
    obtain rfl : c = '-' := by simpa [CharClass.accepts] using h
    exact Or.inl rfl
  | six =>
    obtain rfl : c = '6' := by simpa [CharClass.accepts] using h
    exact Or.inr (Or.inl (by decide))

theorem accepts_of_matchesClasses {ps : List CharClass} {cs : List Char}
    (h : matchesClasses ps cs = true) : ∀ c ∈ cs, ∃ p : CharClass, p.accepts c = true := by
  induction ps generalizing cs with
  | nil =>
    cases cs with
    | nil => exact List.forall_mem_nil _
    | cons c cs => cases h
  | cons p ps ih =>
    cases cs with
    | nil => cases h
    | cons c cs =>
      rw [matchesClasses, Bool.and_eq_true] at h
      exact List.forall_mem_cons.mpr ⟨⟨p, h.1⟩, ih h.2⟩

/-- A valid id arrives as it was written. -/
theorem urlKeeps_of_isValidV6Guid {id : String} (h : isValidV6Guid id = true) : UrlKeeps id := by
  have hchars : ∀ c ∈ id.toList, c.toNat = 45 ∨ 48 ≤ c.toNat ∧ c.toNat ≤ 57 ∨
      65 ≤ c.toNat ∧ c.toNat ≤ 70 ∨ 97 ≤ c.toNat ∧ c.toNat ≤ 102 := by
    intro c hc
    obtain ⟨p, hp⟩ := accepts_of_matchesClasses h c hc
    exact toNat_of_accepts hp
  refine ⟨?_, ?_, ?_, fun hlast => ?_, fun c hc => ?_⟩
  · rintro rfl
    exact absurd h (by decide)
  · rintro rfl
    exact absurd h (by decide)
  · rintro rfl
    exact absurd h (by decide)
  · exact absurd (hchars ' ' (List.mem_of_getLast? hlast)) (by decide)
  · have hcode := hchars c hc
    refine ⟨by omega, by omega, ?_⟩
    refine ⟨?_, ?_, ?_, ?_, ?_⟩ <;> rintro rfl <;> exact absurd hcode (by decide)

/-! ## Reading -/

section

variable {client : WebInsightsStorageClient} (hversion : client.apiVersion = "1.0")
  {env : Environment} {id : String} (hid : isValidV6Guid id = true)

/-- The request of `getWebsite`, as it arrives. -/
abbrev getWebsiteContext (client : WebInsightsStorageClient) (id : String) : Context :=
  contextOf ((Call.getWebsite id).request client) (Call.getWebsite id).arguments

include hversion hid

/-- The request of `getWebsite` is accepted. -/
theorem accepted_getWebsite :
    (ApiRequest.mk .getWebsite (getWebsiteContext client id)).Accepted env := by
  have hget : ¬ (getWebsiteContext client id).SendsPayload := by
    simp [Context.SendsPayload, contextOf, Call.request, Call.line]
  have hnamed : (getWebsiteContext client id).apiVersion = some "1.0" := by
    rw [← hversion]
    rfl
  refine GetWebsiteRequestValidator.follows.accepted_iff.mpr (List.forall_mem_append.mpr ⟨?_, ?_⟩)
  · exact met_apiRequirements hnamed (List.mem_singleton.mpr rfl) hget
  · exact List.forall_mem_singleton.mpr hid

end

section

variable {texts : ErrorTexts} {client : WebInsightsStorageClient}
  (hversion : client.apiVersion = "1.0") {host : FunctionHost client.baseUrl}
  {env : Environment} {svc : Service} {others : HttpRequest → World → Val × World}
  {id : String} (hid : isValidV6Guid id = true)

include hversion hid

/-- **A website is read over the network**: nothing is written, and what the service responds is
the website as it is stored. -/
theorem getWebsite_over {w : World} (hw : w.faults = [])
    (hshape : w.Shaped svc (shape env.fnv1a fun _ => True)) {D : Document}
    (hD : storedWebsite w id = some D) (course : Course) (acquired sent : ℕ) :
    ∃ out s', (Call.getWebsite id).over texts client course (serveStorage host env svc others)
        ⟨w, acquired, sent⟩ = (out, s') ∧ s'.state = w ∧
      ∀ response, out = .ok response →
        (∃ n < client.maxRetryCount, course.deliveries (sent + n) = .refused response) ∨
        response = gotResponse 200 (websiteBody D (pagesOf w id)).toJson := by
  have hkept : (Call.getWebsite id).KeptArguments := by
    simpa [Call.KeptArguments, Call.arguments] using urlKeeps_of_isValidV6Guid hid
  have hserved : ServedAs (serveStorage host env svc others) ((Call.getWebsite id).request client)
      (serveEndpoint host env svc ⟨.getWebsite, getWebsiteContext client id⟩) :=
    servedAs_endpoint hkept rfl
  have hserve : serveEndpoint host env svc ⟨.getWebsite, getWebsiteContext client id⟩ w =
      (gotResponse 200 (websiteBody D (pagesOf w id)).toJson, w) := by
    have hread := ApiRequest.run_serve_ok env svc (accepted_getWebsite hversion hid)
      (run_getWebsite hw hshape hD rfl
        ((ApiRequest.mk .getWebsite (getWebsiteContext client id)).validated env).2)
    unfold serveEndpoint
    rw [hread]
    exact Prod.ext (host.responds _ _ _) rfl
  obtain ⟨n, hn, -, hstate, hresponse⟩ := @over_served _ texts client (.getWebsite id) course _ _
    hserved ⟨w, acquired, sent⟩
  -- served any number of times, it leaves the storage as it is
  have hfixed : ∀ k, (fun w => (serveEndpoint host env svc
      ⟨.getWebsite, getWebsiteContext client id⟩ w).2)^[k] w = w := fun k =>
    Function.iterate_fixed (congrArg Prod.snd hserve) k
  refine ⟨_, _, rfl, hstate.trans (hfixed _), fun response hout => ?_⟩
  obtain ⟨m, hm, hrefused | ⟨-, hanswer⟩⟩ := hresponse response hout
  · exact Or.inl ⟨m, by omega, hrefused⟩
  · right
    rw [hanswer, hfixed, hserve]

end

/-! ## What was posted comes back -/

/-- What a response says of a website that was posted. -/
structure DescribesPosted (payload : Fields) (id : String) (json : Val) : Prop where
  named : json.get "id" = .str id
  /-- A website without an id is described as it was posted. -/
  posted : Fields.get payload "id" = .undefined → ∀ k, k ≠ "id" → k ≠ "pages" →
    json.get k = Fields.get payload k
  /-- Each known page that was posted has an entry. -/
  pages : ∃ entries, json.get "pages" = .arr entries ∧
    ∀ vs, Fields.get payload "knownPages" = .arr (strings vs) →
      ∀ u ∈ vs, ∃ entry ∈ entries, entry.get "url" = .str u

theorem describesPosted {w w' : World} {payload : Fields} (hp : WebsitePayload payload)
    (hjson : (Val.obj payload).IsJson) {id : String} {D : Document}
    (hknown : ∀ S, storedWebsite w id = some S → ∃ us, S.get "knownPages" = .arr (strings us))
    (h : Posted w payload id D w') :
    DescribesPosted payload id (websiteBody D (pagesOf w' id)).toJson := by
  have hget : ∀ k, (websiteBody D (pagesOf w' id)).toJson.get k =
      ((websiteBody D (pagesOf w' id)).get k).toJson := fun k => get_toJsonFields _ k
  have hreturned := h.returned hp
  refine ⟨?_, fun hnone k hid hpages => ?_, ?_⟩
  · rw [hget, hreturned.named]
    rfl
  · -- without an id a new one is drawn, so nothing of the website was stored
    have hnew : storedWebsite w id = none := by
      rcases hreturned.given with hgiven | ⟨-, hnew⟩
      · rw [hnone] at hgiven
        cases hgiven
      · exact hnew
    rw [hget, hreturned.posted hnew k hid hpages, ← get_toJsonFields]
    exact congrArg (Fields.get · k) (Val.obj.inj hjson.toJson_eq)
  · obtain ⟨ks, -, hsub, hthere⟩ := complete_of_posted hknown h
    rw [hget, hreturned.pages, Val.toJson, toJsonElems_eq_map, List.map_map]
    refine ⟨_, rfl, fun vs hvs u hu => ?_⟩
    obtain ⟨P, hP, hurl⟩ := List.mem_map.mp (hthere u (hsub vs hvs hu))
    refine ⟨_, List.mem_map.mpr ⟨P, hP, rfl⟩, ?_⟩
    have hentry : Fields.get (pageObject P) "url" = P.get "url" :=
      get_copyProperties (by decide)
    exact (get_toJsonFields (pageObject P) "url").trans (by rw [hentry, hurl]; rfl)

/-- The last of the requests. -/
theorem Posts.last {payload : Fields} {w w' : World} {before : List (String × Document)}
    {id : String} {D : Document} (h : Posts payload w (before ++ [(id, D)]) w') :
    ∃ w₀, (∀ S, storedWebsite w₀ id = some S → ∃ us, S.get "knownPages" = .arr (strings us)) ∧
      Posted w₀ payload id D w' := by
  generalize hall : before ++ [(id, D)] = posted at h
  cases h with
  | nil => simp at hall
  | post h hknown hpost =>
    obtain ⟨-, hlast⟩ := List.append_inj' hall rfl
    obtain ⟨rfl, rfl⟩ := Prod.mk.inj (List.singleton_inj.mp hlast)
    exact ⟨_, hknown, hpost⟩

/-- **A website that was posted is read back**, whatever requests and responses got lost: a
response to `postWebsite` describes what was posted, and `getWebsite` returns the same body again
and again. A response that is of another kind was given on the way. The service creates the pages
of a request one after another. -/
theorem postWebsite_readBack (texts : ErrorTexts) {client : WebInsightsStorageClient}
    (hversion : client.apiVersion = "1.0") (host : FunctionHost client.baseUrl)
    {env : Environment} {svc : Service} (hnewId : ∀ n, isValidV6Guid (svc.newId n) = false)
    (others : HttpRequest → World → Val × World) {website : Json} {payload : Fields}
    (hpayload : website.val = .obj payload)
    (haccepted : (ApiRequest.mk .postWebsite (postContext website)).Accepted env)
    {guids : ℕ → V6Guid} {faults : List (Option Fault)} {w : World}
    (hreach : Reaches env svc (fun _ _ => True) { World.empty guids with faults := faults } w)
    (hunused : ∀ k < client.maxRetryCount,
      Unused (afterPosts host env svc website k w.faultless)
        (uuidsFor (afterPosts host env svc website k w.faultless) payload))
    (course : Course) (acquired sent : ℕ) :
    ∃ out s', (Call.postWebsite website.val).over texts client course
        (serveStorage host env svc others) ⟨w.faultless, acquired, sent⟩ = (out, s') ∧
      ∀ response, out = .ok response →
        (∃ n < client.maxRetryCount, course.deliveries (sent + n) = .refused response) ∨
        ∃ id status json, status ∈ [200, 201] ∧ response = gotResponse status json ∧
          DescribesPosted payload id json ∧
          ∀ (course' : Course) (acquired' sent' : ℕ), ∃ out' s'',
            (Call.getWebsite id).over texts client course' (serveStorage host env svc others)
              ⟨s'.state, acquired', sent'⟩ = (out', s'') ∧ s''.state = s'.state ∧
            ∀ response', out' = .ok response' →
              (∃ n < client.maxRetryCount,
                course'.deliveries (sent' + n) = .refused response') ∨
              response' = gotResponse 200 json := by
  obtain ⟨payload', hp, hparsed⟩ := websitePayload_of_accepted haccepted
  obtain rfl : payload = payload' :=
    Val.obj.inj (hpayload.symm.trans (congrArg Prod.fst (hparsed none)))
  obtain ⟨n, hn, out, s', posted, hover, -, hposts, hfaults, hshape, hresponse⟩ :=
    @posts_over texts client hversion host env svc hnewId others website payload hpayload haccepted
      w.faultless rfl (hreach.shaped_faultless hnewId) hunused course acquired sent
  refine ⟨out, s', hover, fun response hout => ?_⟩
  rcases hresponse response hout with ⟨m, hm, hrefused⟩ | hanswered
  · exact Or.inl ⟨m, by omega, hrefused⟩
  · obtain ⟨before, id, D, status, rfl, hstatus, hid, hstored, rfl⟩ := hanswered
    -- the response is about the last post, and so is what is read from then on
    obtain ⟨w₀, hknown, hposted⟩ := hposts.last
    have hjson : (Val.obj payload).IsJson := hpayload ▸ website.isJson
    exact Or.inr ⟨id, status, _, hstatus, rfl, describesPosted hp hjson hknown hposted,
      fun course' acquired' sent' => getWebsite_over hversion hid hfaults hshape hstored course'
        acquired' sent'⟩

/-- The website is posted twice, and read. -/
theorem postWebsite_readBack_sample :
    ∃ out s', (Call.postWebsite samplePosted.val).over sampleTexts twiceClient losesResponse
        (serveStorage sampleHost sampleEnvironment Service.counting fun _ w => (.undefined, w))
        ⟨(World.empty V6Guid.sample).faultless, 0, 0⟩ = (out, s') ∧
      ∀ response, out = .ok response →
        (∃ n < 2, losesResponse.deliveries (0 + n) = .refused response) ∨
        ∃ id status json, status ∈ [200, 201] ∧ response = gotResponse status json ∧
          DescribesPosted (sampleWebsite 0 ["a"]) id json ∧
          ∀ (course' : Course) (acquired' sent' : ℕ), ∃ out' s'',
            (Call.getWebsite id).over sampleTexts twiceClient course'
              (serveStorage sampleHost sampleEnvironment Service.counting
                fun _ w => (.undefined, w)) ⟨s'.state, acquired', sent'⟩ = (out', s'') ∧
            s''.state = s'.state ∧
            ∀ response', out' = .ok response' →
              (∃ n < 2, course'.deliveries (sent' + n) = .refused response') ∨
              response' = gotResponse 200 json := by
  exact @postWebsite_readBack sampleTexts twiceClient rfl sampleHost sampleEnvironment
    Service.counting not_valid_newId (fun _ w => (.undefined, w)) samplePosted
    (sampleWebsite 0 ["a"]) rfl (by decide) V6Guid.sample [] (World.empty V6Guid.sample) .refl
    unused_samplePosts losesResponse 0 0

end WebInsights.StorageApiClient
