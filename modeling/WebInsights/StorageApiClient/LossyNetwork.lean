/-
The client over a network that loses requests and responses.

A request that is sent may get lost, be answered on the way, be served, or be served without its
response coming back; a token may be acquired or not. What a call of the client does to the
state behind the network is then told by the number of its requests that were served
(`over_served`): the client tries again whatever was lost, so a request may be served more than
once, and what it returns is the last response.
-/
import WebInsights.StorageApiClient.Routes
import WebInsights.StorageApiClient.SignedRequests

set_option autoImplicit false

namespace WebInsights.StorageApiClient

open Common Effect Js

variable {σ : Type}

/-! ## The network -/

/-- What becomes of a request that is sent. -/
inductive Delivery where
  | lost (error : Thrown)
  /-- It is answered on the way: by a gateway, or before the request is let in. -/
  | refused (response : Val)
  | served
  /-- It is served, and the response is lost. -/
  | unanswered (error : Thrown)

def Delivery.serves : Delivery → Bool
  | .served | .unanswered _ => true
  | _ => false

/-- How the tokens and the requests of a run fare, in order. -/
structure Course where
  tokens : ℕ → Except Thrown (Option AuthenticationResult)
  deliveries : ℕ → Delivery
  /-- The message of the error that `got` makes of a response when it is to throw one. -/
  httpError : Val → String

/-- The state behind the network, and how many tokens were asked for and requests sent. -/
structure Network (σ : Type) where
  state : σ
  acquired : ℕ
  sent : ℕ

/-- A status that is no failure to `got`. -/
def isResponseOk (response : Val) : Bool :=
  match response.get "statusCode" with
  | .num statusCode => (200 ≤ statusCode && statusCode ≤ 299) || statusCode = 304
  | _ => false

namespace Course

variable (course : Course) (serve : HttpRequest → σ → Val × σ)

/-- A response, where it comes back. -/
def received (request : HttpRequest) (response : Val) : Except Thrown Val :=
  if request.throwHttpErrors && !isResponseOk response then
    .error (.error (course.httpError response))
  else .ok response

def handle : Handler ClientOperation ClientOperation.Result (Network σ)
  | .acquireTokenByClientCredential _, s =>
    (course.tokens s.acquired, { s with acquired := s.acquired + 1 })
  | .send request, s =>
    match course.deliveries s.sent with
    | .lost error => (.error error, { s with sent := s.sent + 1 })
    | .refused response => (course.received request response, { s with sent := s.sent + 1 })
    | .served => (course.received request (serve request s.state).1,
        { s with sent := s.sent + 1, state := (serve request s.state).2 })
    | .unanswered error =>
      (.error error, { s with sent := s.sent + 1, state := (serve request s.state).2 })
  | .logError _ _, s => ((), s)
  | .sleep _, s => ((), s)

/-- How many of the next requests are served. -/
def served (sent n : ℕ) : ℕ :=
  (List.range n).countP fun i => (course.deliveries (sent + i)).serves

theorem served_le (sent n : ℕ) : course.served sent n ≤ n := by
  have hle := @List.countP_le_length ℕ (fun i => (course.deliveries (sent + i)).serves)
    (List.range n)
  rwa [List.length_range] at hle

theorem served_succ (sent n : ℕ) : course.served sent (n + 1) =
    course.served sent n + if (course.deliveries (sent + n)).serves then 1 else 0 := by
  simp [served, List.range_succ, List.countP_append, List.countP_cons]

theorem served_add (sent m n : ℕ) :
    course.served sent (m + n) = course.served sent m + course.served (sent + m) n := by
  induction n with
  | zero => rfl
  | succ n ih =>
    rw [← Nat.add_assoc, served_succ, served_succ, ih, Nat.add_assoc sent, Nat.add_assoc]

end Course

/-! ## What a list of answers does -/

section

variable {course : Course} {serve : HttpRequest → σ → Val × σ}

open Program (stateAfter)

/-- The request is served in one way, whatever token it is signed with. -/
def ServedAs (serve : HttpRequest → σ → Val × σ) (request : HttpRequest) (f : σ → Val × σ) : Prop :=
  ∀ token state, serve (request.signed token) state = f state

/-- All that is sent is the request, signed. -/
def SendsOnly (request : HttpRequest) (seen : List Answer) : Prop :=
  ∀ sent answer, ⟨.send sent, answer⟩ ∈ seen → ∃ token, sent = request.signed token

variable {request : HttpRequest} {f : σ → Val × σ}

theorem handle_other {op : ClientOperation} (h : op.kind ≠ .request) (s : Network σ) :
    (course.handle serve op s).2.state = s.state ∧ (course.handle serve op s).2.sent = s.sent := by
  cases op with
  | send request => exact absurd rfl h
  | _ => exact ⟨rfl, rfl⟩

theorem handle_send (hserve : ServedAs serve request f) (token : AuthenticationResult)
    (s : Network σ) :
    (course.handle serve (.send (request.signed token)) s).2.sent = s.sent + 1 ∧
      (course.handle serve (.send (request.signed token)) s).2.state =
        if (course.deliveries s.sent).serves then (f s.state).2 else s.state := by
  have hstate := congrArg Prod.snd (hserve token s.state)
  rcases hdelivery : course.deliveries s.sent with error | response | _ | error
  all_goals simp [Course.handle, hdelivery, Delivery.serves, hstate]

/-- **The state behind the network** after some answers: as many of the requests as were served
have been. -/
theorem stateAfter_eq (hserve : ServedAs serve request f) {seen : List Answer}
    (hsends : SendsOnly request seen) (s : Network σ) :
    (stateAfter (course.handle serve) seen s).sent = s.sent + countOf .request seen ∧
      (stateAfter (course.handle serve) seen s).state =
        (fun state => (f state).2)^[course.served s.sent (countOf .request seen)] s.state := by
  induction seen using List.reverseRecOn with
  | nil => exact ⟨rfl, rfl⟩
  | append_singleton seen x ih =>
    obtain ⟨hsent, hstate⟩ := ih fun sent answer hmem => hsends sent answer
      (List.mem_append_left _ hmem)
    rw [Program.stateAfter_append, countOf_append]
    generalize stateAfter (course.handle serve) seen s = s' at hsent hstate
    obtain ⟨op, r⟩ := x
    -- only a request gets to the state
    by_cases hkind : op.kind = .request
    · obtain ⟨sent, rfl⟩ : ∃ sent, op = .send sent := by
        cases op with
        | send sent => exact ⟨sent, rfl⟩
        | logError message properties => cases properties <;> cases hkind
        | _ => cases hkind
      obtain ⟨token, rfl⟩ := hsends sent r (by simp)
      obtain ⟨hsent', hstate'⟩ := @handle_send _ course _ _ _ hserve token s'
      have hone : countOf .request [(⟨.send (request.signed token), r⟩ : Answer)] = 1 := rfl
      rw [hone, course.served_succ]
      refine ⟨hsent'.trans (by omega), hstate'.trans ?_⟩
      rw [hsent, hstate]
      split
      · rw [Function.iterate_succ_apply']
      · rfl
    · obtain ⟨hstate', hsent'⟩ := @handle_other _ course serve op hkind s'
      have hzero : countOf .request [(⟨op, r⟩ : Answer)] = 0 := by simp [hkind]
      rw [hzero]
      exact ⟨hsent'.trans hsent, hstate'.trans hstate⟩

end

/-! ## A call -/

/-- A call of the client over the network. -/
def Call.over (call : Call) (texts : ErrorTexts) (client : WebInsightsStorageClient)
    (course : Course) (serve : HttpRequest → σ → Val × σ) (s : Network σ) :
    Except LastError Val × Network σ :=
  (call.execute texts client).run (course.handle serve) s

section

variable {texts : ErrorTexts} {client : WebInsightsStorageClient} {call : Call} {course : Course}
  {serve : HttpRequest → σ → Val × σ} {f : σ → Val × σ}

/-- The response of a request that was sent after `n` others. -/
def Responds (course : Course) (f : σ → Val × σ) (s : Network σ) (n : ℕ) (response : Val) :
    Prop :=
  course.deliveries (s.sent + n) = .refused response ∨
    course.deliveries (s.sent + n) = .served ∧
      response = (f ((fun state => (f state).2)^[course.served s.sent n] s.state)).1

/-- **A call over the network**: the state behind it is as after so many requests that were
served, and what is returned is the response to the last one. -/
theorem over_served (hserve : ServedAs serve (call.request client) f) (s : Network σ) :
    ∃ n ≤ client.maxRetryCount, (call.over texts client course serve s).2.sent = s.sent + n ∧
      (call.over texts client course serve s).2.state =
        (fun state => (f state).2)^[course.served s.sent n] s.state ∧
      ∀ response, (call.over texts client course serve s).1 = .ok response →
        ∃ m, n = m + 1 ∧ Responds course f s m response := by
  unfold Call.over
  obtain ⟨message, hexecute⟩ := call.exists_execute texts client
  have hconversation : Conversation client (call.request client) client.maxRetryCount
      ((call.execute texts client).answers (course.handle serve) s)
      ((call.execute texts client).run (course.handle serve) s).1 := by
    have hends := Program.ends_run (course.handle serve) (call.execute texts client) s
    rw [hexecute] at hends ⊢
    exact conversation_of_tries (Nat.zero_add _) (RetryHelper.tries_of_executeWithRetries hends)
  generalize hseen : (call.execute texts client).answers (course.handle serve) s = seen
    at hconversation
  have hsends : SendsOnly (call.request client) seen := by
    intro sent answer hmem
    obtain ⟨before, after, hsplit⟩ := List.append_of_mem hmem
    obtain ⟨-, token, hsent, -⟩ := hconversation.signed _ _ _ _ hsplit
    exact ⟨token, hsent⟩
  obtain ⟨hsent, hstate⟩ := @stateAfter_eq _ course serve _ f hserve seen hsends s
  rw [← hseen, ← Program.run_state, hseen] at hsent hstate
  refine ⟨countOf .request seen, hconversation.requests, hsent, hstate, fun response hout => ?_⟩
  -- the response is the last answer, given in the state that the requests before it left
  obtain ⟨before, sent, hlast⟩ := hconversation.returned response hout
  obtain ⟨-, token, hsigned, -⟩ := hconversation.signed _ _ _ _ hlast
  obtain rfl : sent = (call.request client).signed token := hsigned
  have hbefore : SendsOnly (call.request client) before := fun sent' answer hmem =>
    hsends sent' answer (hlast ▸ List.mem_append_left _ hmem)
  obtain ⟨hsent', hstate'⟩ := @stateAfter_eq _ course serve _ f hserve before hbefore s
  have hanswer := Program.answer_eq (hseen.trans hlast)
  refine ⟨countOf .request before, by rw [hlast, countOf_append]; rfl, ?_⟩
  generalize Program.stateAfter (course.handle serve) before s = s' at hsent' hstate' hanswer
  unfold Responds
  rw [← hsent', ← hstate']
  unfold Course.handle at hanswer
  rcases hdelivery : course.deliveries s'.sent with error | refused | _ | error
  · simp [hdelivery] at hanswer
  · left
    simp only [hdelivery, Course.received] at hanswer
    split at hanswer
    · cases hanswer
    · rw [Except.ok.inj hanswer]
  · right
    simp only [hdelivery, Course.received, hserve token s'.state] at hanswer
    split at hanswer
    · cases hanswer
    · exact ⟨rfl, Except.ok.inj hanswer⟩
  · simp [hdelivery] at hanswer

end

end WebInsights.StorageApiClient
