/-
Every request of the client is signed, and it asks no more often than it may.

A call of the client is a loop of tries around a loop of tries: each try of the request first
tries to acquire a token. The answers of either loop are told by `Tries`, and what is said of a
try and of a pause carries over to the whole by induction on the turns that are left. The
statements are about a call that has ended, whatever it was answered.
-/
import WebInsights.StorageApiClient.WebInsightsStorageClient

set_option autoImplicit false

namespace WebInsights.StorageApiClient

open Common Effect Js
open Common.RetryHelper (Tries)
open Effect.Program (Ends)

/-- An operation and its answer. -/
abbrev Answer : Type := Sigma ClientOperation.Result

/-- What of a call is counted. -/
inductive Kind where
  | token
  | request
  /-- The log line before a request is tried again; the one of the credential has no
  properties. -/
  | retry
  | other
  deriving DecidableEq

def ClientOperation.kind : ClientOperation → Kind
  | .acquireTokenByClientCredential _ => .token
  | .send _ => .request
  | .logError _ [] => .other
  | .logError _ (_ :: _) => .retry
  | .sleep _ => .other

/-- How many of the answers are to operations of such a kind. -/
def countOf (kind : Kind) (seen : List Answer) : ℕ :=
  seen.countP fun x => x.1.kind = kind

section Count

variable {kind : Kind} {seen rest : List Answer}

@[simp] theorem countOf_nil : countOf kind [] = 0 := rfl

@[simp] theorem countOf_append :
    countOf kind (seen ++ rest) = countOf kind seen + countOf kind rest :=
  List.countP_append

@[simp] theorem countOf_cons {x : Answer} :
    countOf kind (x :: seen) = countOf kind seen + if x.1.kind = kind then 1 else 0 := by
  simp [countOf, List.countP_cons]

theorem countOf_eq_zero : countOf kind seen = 0 ↔ ∀ x ∈ seen, x.1.kind ≠ kind := by
  simp [countOf, List.countP_eq_zero]

end Count

/-! ## Lists of answers -/

/-- An answer among two lists is in one of them. -/
theorem append_eq_split {α : Type} {as bs before after : List α} {x : α}
    (h : as ++ bs = before ++ x :: after) :
    (∃ after', as = before ++ x :: after' ∧ after = after' ++ bs) ∨
      ∃ before', before = as ++ before' ∧ bs = before' ++ x :: after := by
  rcases List.append_eq_append_iff.mp h with ⟨before', rfl, hbs⟩ | ⟨rest, rfl, hrest⟩
  · exact Or.inr ⟨before', rfl, hbs⟩
  · rcases List.cons_eq_append_iff.mp hrest with ⟨rfl, rfl⟩ | ⟨after', rfl, rfl⟩
    · exact Or.inr ⟨[], by simp, rfl⟩
    · exact Or.inl ⟨after', rfl, rfl⟩

/-! ## The pauses -/

section Pause

variable {ε : Type} {helper : RetryHelper ClientOperation ClientOperation.Result ε LastError}
  {onRetry : LastError → AsyncClient LastError Unit} {n i : ℕ} {r : ℚ} {error : LastError}
  {seen : List Answer} {out : Except LastError Unit}

/-- A pause logs once, unless the try was the last one, and does nothing else that counts. -/
theorem ends_pause
    (hsleep : ∀ milliseconds, helper.sleepFunction milliseconds =
      Program.perform (ClientOperation.sleep milliseconds))
    {message : String} {properties : List (String × String)}
    (hretry : onRetry error = Program.perform (ClientOperation.logError message properties))
    (h : (helper.pause onRetry n r i error).Ends seen out) :
    out = .ok () ∧ countOf .request seen = 0 ∧ countOf .token seen = 0 ∧
      countOf .retry seen = if i + 1 < n ∧ properties ≠ [] then 1 else 0 := by
  unfold RetryHelper.pause at h
  -- there is no pause after the last try
  by_cases hi : i < n - 1
  · have hlast : i + 1 < n := by omega
    rw [if_pos hi, hretry] at h
    obtain ⟨u, rest, rfl, h⟩ := h
    have hrest : out = .ok () ∧ countOf .request rest = 0 ∧ countOf .token rest = 0 ∧
        countOf .retry rest = 0 := by
      by_cases hr : 0 < r
      · rw [if_pos hr, hsleep] at h
        obtain ⟨u, rfl, rfl⟩ := Ends.of_perform h
        exact ⟨rfl, rfl, rfl, rfl⟩
      · rw [if_neg hr] at h
        obtain ⟨rfl, rfl⟩ := h
        exact ⟨rfl, rfl, rfl, rfl⟩
    obtain ⟨rfl, hrequest, htoken, hretries⟩ := hrest
    cases properties with
    | nil => simp [hrequest, htoken, hretries, ClientOperation.kind]
    | cons property properties =>
      simp [hrequest, htoken, hretries, ClientOperation.kind, hlast]
  · have hlast : ¬ i + 1 < n := by omega
    rw [if_neg hi] at h
    obtain ⟨rfl, rfl⟩ := h
    simp [hlast]

end Pause

/-! ## The token -/

section Token

variable {texts : ErrorTexts} {credential : WebInsightsAPICredential} {seen : List Answer}

/-- The answers of `getToken` with so many tries, and how it ends. -/
structure TokenAnswers (credential : WebInsightsAPICredential) (turns : ℕ) (seen : List Answer)
    (out : Except LastError (Option AuthenticationResult)) : Prop where
  noRequest : countOf .request seen = 0
  noRetry : countOf .retry seen = 0
  bounded : countOf .token seen ≤ turns
  /-- The token is the one that was acquired last. -/
  acquired : ∀ token, out = .ok token → ∃ earlier, seen = earlier ++
    [⟨.acquireTokenByClientCredential [credential.tokenScope], .ok token⟩]

theorem ends_acquireToken {out : Except Thrown (Option AuthenticationResult)}
    (h : credential.acquireToken.Ends seen out) :
    seen = [⟨.acquireTokenByClientCredential [credential.tokenScope], out⟩] := by
  obtain ⟨answer, rest, rfl, h⟩ := h
  obtain ⟨rfl, rfl⟩ := Ends.of_ofExcept h
  rfl

theorem tokenAnswers_of_tries {n turns i : ℕ} {r : ℚ} {lastError : LastError}
    {out : Except LastError (Option AuthenticationResult)}
    (h : WebInsightsAPICredential.retryHelper.Tries credential.acquireToken
      (WebInsightsAPICredential.onRetry texts) n r turns i lastError seen out) :
    TokenAnswers credential turns seen out := by
  induction h with
  | runsOut => exact ⟨rfl, rfl, le_rfl, fun token h => by cases h⟩
  | resolves htry =>
    obtain rfl := ends_acquireToken htry
    refine ⟨rfl, rfl, ?_, fun token h => ⟨[], ?_⟩⟩
    · simp [ClientOperation.kind]
    · obtain rfl := Except.ok.inj h
      rfl
  | noError htry =>
    obtain rfl := ends_acquireToken htry
    refine ⟨rfl, rfl, ?_, fun token h => by cases h⟩
    simp [ClientOperation.kind]
  | interrupted htry herror hpause =>
    obtain ⟨hout, -⟩ := ends_pause (fun _ => rfl) rfl hpause
    cases hout
  | @again _ _ _ _ paused _ e _ _ htry herror hpause hrest ih =>
    obtain rfl := ends_acquireToken htry
    obtain ⟨-, hrequest, htoken, hretry⟩ := ends_pause (fun _ => rfl) rfl hpause
    refine ⟨?_, ?_, ?_, fun token h => ?_⟩
    · simp [ClientOperation.kind, hrequest, ih.noRequest]
    · simp [ClientOperation.kind, hretry, ih.noRetry]
    · have hbounded := ih.bounded
      simp only [countOf_append, countOf_cons, countOf_nil, htoken, ClientOperation.kind]
      simp only [if_true]
      omega
    · -- the token is the last answer of the tries that follow
      obtain ⟨earlier, rfl⟩ := ih.acquired token h
      exact ⟨⟨.acquireTokenByClientCredential [credential.tokenScope], .error e⟩ ::
        (paused ++ earlier), by simp⟩

theorem tokenAnswers_of_getToken {out : Except LastError (Option AuthenticationResult)}
    (h : (credential.getToken texts).Ends seen out) :
    TokenAnswers credential credential.maxTokenAttempts seen out :=
  tokenAnswers_of_tries (RetryHelper.tries_of_executeWithRetries h)

end Token

/-! ## A try -/

section Try

variable {texts : ErrorTexts} {client : WebInsightsStorageClient} {request : HttpRequest}

/-- The answers of one try of a request, and how it ends. -/
inductive RequestTry (texts : ErrorTexts) (client : WebInsightsStorageClient)
    (request : HttpRequest) : List Answer → Except RequestThrown Val → Prop
  /-- There was no token, and nothing was sent. -/
  | unsigned {seen : List Answer} {e : RequestThrown} (hrequest : countOf .request seen = 0)
      (hretry : countOf .retry seen = 0)
      (hbounded : countOf .token seen ≤ client.credential.maxTokenAttempts)
      (herror : ∃ error, e.asError texts = .ok error) :
      RequestTry texts client request seen (.error e)
  /-- The request was sent, signed with the token that was acquired last. -/
  | sent {earlier : List Answer} {token : AuthenticationResult} {answer : Except Thrown Val}
      (hrequest : countOf .request earlier = 0) (hretry : countOf .retry earlier = 0)
      (hbounded : countOf .token earlier + 1 ≤ client.credential.maxTokenAttempts) :
      RequestTry texts client request
        (earlier ++ [⟨.acquireTokenByClientCredential [client.credential.tokenScope],
          .ok (some token)⟩, ⟨.send (request.signed token), answer⟩])
        (answer.mapError .thrown)

theorem exists_asError_lastError (error : LastError) :
    ∃ error', (RequestThrown.lastError error).asError texts = .ok error' := by
  cases error <;> exact ⟨_, rfl⟩

theorem requestTry_of_ends {seen : List Answer} {out : Except RequestThrown Val}
    (h : (client.executeRequest texts request).Ends seen out) :
    RequestTry texts client request seen out := by
  -- the token comes first
  have hsigned : ∀ {seen : List Answer} {out : Except RequestThrown HttpRequest},
      (client.signRequest texts request).Ends seen out →
      (∃ e, out = .error e ∧ countOf .request seen = 0 ∧ countOf .retry seen = 0 ∧
        countOf .token seen ≤ client.credential.maxTokenAttempts ∧
        ∃ error, e.asError texts = .ok error) ∨
      ∃ earlier token, out = .ok (request.signed token) ∧ seen = earlier ++
        [⟨.acquireTokenByClientCredential [client.credential.tokenScope], .ok (some token)⟩] ∧
        countOf .request seen = 0 ∧ countOf .retry seen = 0 ∧
        countOf .token seen ≤ client.credential.maxTokenAttempts := by
    intro seen out h
    rcases Ends.of_bind h with ⟨first, rest, answer, rfl, hattempt, hafter⟩ | ⟨e, -, hattempt⟩
    · obtain ⟨x, hx, htoken⟩ := Ends.of_attempt hattempt
      obtain rfl := Except.ok.inj hx
      have htoken := tokenAnswers_of_getToken htoken
      rcases answer with e | token
      · obtain ⟨rfl, rfl⟩ := hafter
        rw [List.append_nil]
        exact Or.inl ⟨_, rfl, htoken.noRequest, htoken.noRetry, htoken.bounded,
          exists_asError_lastError e⟩
      · rcases token with _ | token
        · obtain ⟨rfl, rfl⟩ := hafter
          rw [List.append_nil]
          exact Or.inl ⟨_, rfl, htoken.noRequest, htoken.noRetry, htoken.bounded, _, rfl⟩
        · obtain ⟨rfl, rfl⟩ := hafter
          rw [List.append_nil]
          obtain ⟨earlier, hearlier⟩ := htoken.acquired _ rfl
          exact Or.inr ⟨earlier, token, rfl, hearlier, htoken.noRequest, htoken.noRetry,
            htoken.bounded⟩
    · obtain ⟨x, hx, -⟩ := Ends.of_attempt hattempt
      cases hx
  rcases Ends.of_bind h with ⟨first, rest, signed, rfl, hfirst, hafter⟩ | ⟨e, rfl, hfirst⟩
  · rcases hsigned hfirst with ⟨e, he, -⟩ | ⟨earlier, token, hout, rfl, hrequest, hretry, hbounded⟩
    · cases he
    · obtain rfl := Except.ok.inj hout
      obtain ⟨answer, rest', rfl, hanswer⟩ := hafter
      obtain ⟨rfl, rfl⟩ := Ends.of_ofExcept hanswer
      simp only [countOf_append, countOf_cons, countOf_nil, ClientOperation.kind, if_true]
        at hrequest hretry hbounded
      rw [List.append_assoc]
      refine .sent ?_ ?_ ?_ <;> omega
  · rcases hsigned hfirst with ⟨e', he, hrequest, hretry, hbounded, herror⟩ | ⟨_, _, hout, -⟩
    · obtain rfl := Except.error.inj he
      exact .unsigned hrequest hretry hbounded herror
    · cases hout

end Try

/-! ## A call -/

section Call

variable {texts : ErrorTexts} {client : WebInsightsStorageClient} {request : HttpRequest}

/-- The answers of a request with so many tries left, and how it ends. -/
structure Conversation (client : WebInsightsStorageClient) (request : HttpRequest) (turns : ℕ)
    (seen : List Answer) (out : Except LastError Val) : Prop where
  /-- What is sent is the request with one header more, that has the token that was acquired
  right before. -/
  signed : ∀ before sent answer after, seen = before ++ ⟨.send sent, answer⟩ :: after →
    ∃ earlier token, sent = { request with headers := request.headers ++
        [("authorization", token.tokenType ++ " " ++ token.accessToken)] } ∧
      before = earlier ++ [⟨.acquireTokenByClientCredential
        ["api://" ++ client.credential.resourceClientId ++ "/.default"], .ok (some token)⟩]
  /-- A request that is answered is the last one, and the answer is what the call returns. -/
  answered : ∀ before sent response after, seen = before ++ ⟨.send sent, .ok response⟩ :: after →
    after = [] ∧ out = .ok response
  returned : ∀ response, out = .ok response → ∃ before sent,
    seen = before ++ [⟨.send sent, .ok response⟩]
  requests : countOf .request seen ≤ turns
  tokens : countOf .token seen ≤ turns * client.credential.maxTokenAttempts
  /-- It gives up only after all its tries, or over a value that has no JSON. -/
  givesUp : ∀ e, out = .error e →
    (∃ sent message, ⟨.send sent, .error (.value (.error message))⟩ ∈ seen) ∨
      countOf .retry seen = turns - 1

/-- The answers of a try that failed, with those of the pause after it. -/
structure FailedTry (client : WebInsightsStorageClient) (request : HttpRequest) (retries : ℕ)
    (seen : List Answer) : Prop where
  signed : ∀ before sent answer after, seen = before ++ ⟨.send sent, answer⟩ :: after →
    ∃ earlier token, sent = request.signed token ∧ before = earlier ++
      [⟨.acquireTokenByClientCredential [client.credential.tokenScope], .ok (some token)⟩]
  failed : ∀ sent response, ⟨.send sent, .ok response⟩ ∉ seen
  requests : countOf .request seen ≤ 1
  tokens : countOf .token seen ≤ client.credential.maxTokenAttempts
  retry : countOf .retry seen = retries

/-- A list without requests has none that is not signed. -/
theorem not_split_of_countOf {seen before after : List Answer} {sent : HttpRequest}
    {answer : Except Thrown Val} (h : countOf .request seen = 0) :
    seen ≠ before ++ ⟨.send sent, answer⟩ :: after := by
  rintro rfl
  exact countOf_eq_zero.mp h ⟨.send sent, answer⟩ (by simp) rfl

theorem RequestTry.signed {seen : List Answer} {out : Except RequestThrown Val}
    (h : RequestTry texts client request seen out) :
    ∀ before sent answer after, seen = before ++ ⟨.send sent, answer⟩ :: after →
      out = answer.mapError .thrown ∧ after = [] ∧
      ∃ earlier token, sent = request.signed token ∧ before = earlier ++
        [⟨.acquireTokenByClientCredential [client.credential.tokenScope], .ok (some token)⟩] := by
  intro before sent answer after hsplit
  cases h with
  | unsigned hrequest => exact absurd hsplit (not_split_of_countOf hrequest)
  | @sent earlier token answer' hrequest =>
    rcases append_eq_split hsplit with ⟨after', rfl, -⟩ | ⟨before', rfl, hrest⟩
    · exact absurd rfl (not_split_of_countOf hrequest)
    · -- the request is the second of the two
      rcases before' with _ | ⟨x, before'⟩
      · cases (List.cons.inj hrest).1
      · obtain ⟨rfl, hsecond⟩ := List.cons.inj hrest
        rcases before' with _ | ⟨y, before'⟩
        · obtain ⟨hsent, rfl⟩ := List.cons.inj hsecond
          cases hsent
          exact ⟨rfl, rfl, earlier, token, rfl, rfl⟩
        · have hnil := (List.cons.inj hsecond).2
          simp at hnil

theorem RequestTry.counts {seen : List Answer} {out : Except RequestThrown Val}
    (h : RequestTry texts client request seen out) :
    countOf .request seen ≤ 1 ∧ countOf .token seen ≤ client.credential.maxTokenAttempts ∧
      countOf .retry seen = 0 := by
  cases h with
  | unsigned hrequest hretry hbounded => exact ⟨by omega, hbounded, hretry⟩
  | sent hrequest hretry hbounded =>
    simp [hrequest, hretry, ClientOperation.kind]
    omega

/-- A try that failed, and the pause after it. -/
theorem RequestTry.failed {seen paused : List Answer} {e : RequestThrown} {retries : ℕ}
    (h : RequestTry texts client request seen (.error e)) (hrequest : countOf .request paused = 0)
    (htoken : countOf .token paused = 0) (hretry : countOf .retry paused = retries) :
    FailedTry client request retries (seen ++ paused) := by
  obtain ⟨hrequests, htokens, hretries⟩ := h.counts
  refine ⟨?_, ?_, ?_, ?_, ?_⟩
  · intro before sent answer after hsplit
    rcases append_eq_split hsplit with ⟨after', hseen, -⟩ | ⟨before', -, hpaused⟩
    · exact (h.signed _ _ _ _ hseen).2.2
    · exact absurd hpaused (not_split_of_countOf hrequest)
  · intro sent response hmem
    obtain ⟨before, after, hsplit⟩ := List.append_of_mem hmem
    rcases append_eq_split hsplit with ⟨after', hseen, -⟩ | ⟨before', -, hpaused⟩
    · cases (h.signed _ _ _ _ hseen).1
    · exact absurd hpaused (not_split_of_countOf hrequest)
  · rw [countOf_append]
    omega
  · rw [countOf_append]
    omega
  · rw [countOf_append]
    omega

/-- A failed try before a conversation. -/
theorem Conversation.after_failed {turns : ℕ} {first rest : List Answer}
    {out : Except LastError Val} (h : Conversation client request turns rest out)
    (hfirst : FailedTry client request (if turns = 0 then 0 else 1) first) :
    Conversation client request (turns + 1) (first ++ rest) out := by
  refine ⟨?_, ?_, ?_, ?_, ?_, ?_⟩
  · -- a request stands in the failed try or in what follows it
    intro before sent answer after hsplit
    rcases append_eq_split hsplit with ⟨after', hseen, -⟩ | ⟨before', rfl, hrest⟩
    · exact hfirst.signed _ _ _ _ hseen
    · obtain ⟨earlier, token, hsent, rfl⟩ := h.signed _ _ _ _ hrest
      exact ⟨first ++ earlier, token, hsent, by simp⟩
  · intro before sent response after hsplit
    rcases append_eq_split hsplit with ⟨after', rfl, -⟩ | ⟨before', rfl, hrest⟩
    · exact absurd (by simp) (hfirst.failed sent response)
    · exact h.answered _ _ _ _ hrest
  · intro response hout
    obtain ⟨before, sent, rfl⟩ := h.returned response hout
    exact ⟨first ++ before, sent, by simp⟩
  · have hrequests := h.requests
    have hone := hfirst.requests
    rw [countOf_append]
    omega
  · have htokens := h.tokens
    have hmore := hfirst.tokens
    rw [countOf_append, Nat.succ_mul]
    omega
  · intro e hout
    rcases h.givesUp e hout with ⟨sent, message, hmem⟩ | hcount
    · exact Or.inl ⟨sent, message, List.mem_append_right _ hmem⟩
    · refine Or.inr ?_
      rw [countOf_append, hfirst.retry, hcount]
      split_ifs <;> omega

/-- A conversation of one try that was answered. -/
theorem RequestTry.conversation {turns : ℕ} {seen : List Answer} {response : Val}
    (h : RequestTry texts client request seen (.ok response)) :
    Conversation client request (turns + 1) seen (.ok response) := by
  obtain ⟨hrequests, htokens, -⟩ := h.counts
  refine ⟨?_, ?_, ?_, ?_, ?_, ?_⟩
  · exact fun before sent answer after hsplit => (h.signed _ _ _ _ hsplit).2.2
  · intro before sent response' after hsplit
    obtain ⟨hout, hafter, -⟩ := h.signed _ _ _ _ hsplit
    cases hout
    exact ⟨hafter, rfl⟩
  · -- the request that was answered is the last thing the try awaited
    intro response' hout
    obtain rfl := Except.ok.inj hout
    generalize hres : (Except.ok response : Except RequestThrown Val) = res at h
    cases h with
    | unsigned => cases hres
    | @sent earlier token answer =>
      rcases answer with e | response'
      · cases hres
      · cases hres
        exact ⟨earlier ++ [⟨.acquireTokenByClientCredential [client.credential.tokenScope],
          .ok (some token)⟩], request.signed token, by simp⟩
  · omega
  · rw [Nat.succ_mul]
    omega
  · intro e hout
    cases hout

theorem conversation_of_tries {message : String} {n turns i : ℕ} {r : ℚ} {lastError : LastError}
    {seen : List Answer} {out : Except LastError Val} (hturns : i + turns = n)
    (h : (WebInsightsStorageClient.retryHelper texts).Tries (client.executeRequest texts request)
      (WebInsightsStorageClient.onRetry texts message request.url) n r turns i lastError seen
      out) :
    Conversation client request turns seen out := by
  induction h with
  | runsOut =>
    refine ⟨?_, ?_, ?_, le_rfl, Nat.zero_le _, fun e _ => Or.inr rfl⟩
    · exact fun before sent answer after h => absurd h.symm (by simp)
    · exact fun before sent response after h => absurd h.symm (by simp)
    · intro response hout
      cases hout
  | resolves htry => exact (requestTry_of_ends htry).conversation
  | @noError turns i _ seen e e' htry herror =>
    -- only what `got` throws may have no JSON
    have hrun := requestTry_of_ends htry
    have hfailed := @RequestTry.failed texts client request seen [] e 0 hrun rfl rfl rfl
    rw [List.append_nil] at hfailed
    refine ⟨hfailed.signed, ?_, ?_, ?_, ?_, ?_⟩
    · intro before sent response after hsplit
      exact absurd (hsplit ▸ by simp) (hfailed.failed sent response)
    · intro response hout
      cases hout
    · have := hfailed.requests
      omega
    · have := hfailed.tokens
      rw [Nat.succ_mul]
      omega
    · intro _ _
      left
      generalize hres : (Except.error e : Except RequestThrown Val) = res at hrun
      cases hrun with
      | unsigned _ _ _ hmade =>
        obtain ⟨error, hmade⟩ := hmade
        obtain rfl := Except.error.inj hres
        rw [show RequestThrown.asError texts e = _ from herror] at hmade
        cases hmade
      | @sent earlier token answer =>
        rcases answer with thrown | response
        · obtain rfl : e = .thrown thrown := Except.error.inj hres
          rcases thrown with message | json | json
          · cases herror
          · exact ⟨request.signed token, json, List.mem_append_right _ (by simp)⟩
          · cases herror
        · cases hres
  | interrupted htry herror hpause =>
    obtain ⟨hout, -⟩ := ends_pause (fun _ => rfl) rfl hpause
    cases hout
  | @again turns i _ seen paused rest e error out htry herror hpause hrest ih =>
    obtain ⟨-, hrequest, htoken, hretry⟩ := ends_pause (fun _ => rfl) rfl hpause
    have hfailed := (requestTry_of_ends htry).failed hrequest htoken hretry
    have hretries : (if i + 1 < n ∧ [("url", request.url),
        ("error", texts.serializeError error)] ≠ [] then 1 else 0) =
        if turns = 0 then 0 else 1 := by
      by_cases hlast : turns = 0
      · rw [if_pos hlast, if_neg (by omega)]
      · rw [if_neg hlast, if_pos ⟨by omega, by simp⟩]
    rw [hretries] at hfailed
    rw [← List.append_assoc]
    exact (ih (by omega)).after_failed hfailed

/-- **A call of the client** that has ended, whatever it was answered: nothing was sent but its
request, each time signed with a token that was acquired right before; the first answer is what
it returns, and the last thing it awaits; and it gives up only after all its tries, unless what
was thrown has no JSON. -/
theorem execute_signed (texts : ErrorTexts) (client : WebInsightsStorageClient) (call : Call)
    {seen : List Answer} {out : Except LastError Val}
    (h : (call.execute texts client).Ends seen out) :
    Conversation client (call.request client) client.maxRetryCount seen out := by
  obtain ⟨message, hexecute⟩ := call.exists_execute texts client
  rw [hexecute] at h
  exact conversation_of_tries (Nat.zero_add _) (RetryHelper.tries_of_executeWithRetries h)

end Call

/-! ### A call whose first request is lost -/

def sampleTexts : ErrorTexts where
  serializeError := fun error => match error with
    | .undefined => "undefined"
    | .error message => message
    | .retryError message => message.getD ""
  retryErrorJson := fun message => message.getD ""

def sampleClient : WebInsightsStorageClient where
  baseUrl := "https://wis/storage/api"
  credential := { resourceClientId := "resource" }

/-- Every token is acquired, and every request but the first is answered. -/
def losesFirst : Handler ClientOperation ClientOperation.Result ℕ
  | .acquireTokenByClientCredential _, sent => (.ok (some ⟨"Bearer", "token"⟩), sent)
  | .send _, 0 => (.error (.error "ECONNRESET"), 1)
  | .send _, sent + 1 => (.ok (.obj [("statusCode", .num 200)]), sent + 2)
  | .logError _ _, sent => ((), sent)
  | .sleep _, sent => ((), sent)

/-- The second request is answered. -/
theorem execute_signed_sample :
    countOf .request (((Call.getWebsite "website").execute sampleTexts sampleClient).answers
        losesFirst 0) = 2 ∧
      (((Call.getWebsite "website").execute sampleTexts sampleClient).run losesFirst 0).1 =
        .ok (.obj [("statusCode", .num 200)]) ∧
      Conversation sampleClient ((Call.getWebsite "website").request sampleClient) 5
        (((Call.getWebsite "website").execute sampleTexts sampleClient).answers losesFirst 0)
        (((Call.getWebsite "website").execute sampleTexts sampleClient).run losesFirst 0).1 :=
  ⟨rfl, rfl, execute_signed sampleTexts sampleClient (.getWebsite "website")
    (Program.ends_run losesFirst _ 0)⟩

end WebInsights.StorageApiClient
