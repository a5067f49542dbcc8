/-
The routes of the storage API, and the requests of the client that arrive at them.

Each function of the API is bound to a method and a route by its `function.json`. The host that
matches a url with the routes is not part of the repository, nor is `got`, which sends it:
`FunctionHost` says of the two what is documented, for urls that keep their segments (`UrlKeeps`).
The client builds its urls by hand, and every one of them names the function it is meant for
(`Call.receives`).
-/
import WebInsights.StorageApi.Controllers
import WebInsights.StorageApiClient.WebInsightsStorageClient

set_option autoImplicit false

namespace WebInsights.StorageApiClient

open Cosmos (JsError)
open Js StorageApi WebApi

/-! ## The routes -/

/-- The functions of the storage API. -/
inductive ApiFunction where
  | getHealthReport
  | getWebsite
  | getWebsiteScan
  | postPage
  | postWebsite
  | postWebsiteScan
  deriving DecidableEq

/-- A segment of a route. -/
inductive Segment where
  | text (text : String)
  /-- `{name}`, `{name?}` and `{name:alpha?}`. -/
  | parameter (name : String) (optional alpha : Bool)
  deriving DecidableEq

namespace ApiFunction

def method : ApiFunction → Method
  | .getHealthReport | .getWebsite | .getWebsiteScan => .get
  | .postPage | .postWebsite | .postWebsiteScan => .post

/-- `route` in the `function.json` of the function. -/
def route : ApiFunction → List Segment
  | .getHealthReport =>
    [.text "health", .parameter "target" true true, .parameter "targetId" true false]
  | .getWebsite => [.text "websites", .parameter "websiteId" false false]
  | .getWebsiteScan => [.text "websites", .parameter "websiteId" false false, .text "scans",
      .parameter "scanType" false false, .parameter "scanIdOrLatest" false false]
  | .postPage => [.text "pages"]
  | .postWebsite => [.text "websites"]
  | .postWebsiteScan => [.text "websites", .text "scans"]

end ApiFunction

/-- What the segments of a path bind of a route, if they match it. -/
def matchRoute : List Segment → List String → Option (List (String × String))
  | [], [] => some []
  | .text text :: route, segment :: path =>
    if segment = text then matchRoute route path else none
  | .parameter name _ alpha :: route, segment :: path =>
    if alpha = true ∧ segment.toList.all Char.isAlpha = false then none
    else (matchRoute route path).map ((name, segment) :: ·)
  | .parameter _ true _ :: route, [] => matchRoute route []
  | _, _ => none

/-- A character of a path that `got` escapes where it has to be, and that the host unescapes. The
others end the segment, are an escape already or are not sent. -/
def UrlKeepsChar (c : Char) : Prop :=
  32 ≤ c.toNat ∧ c.toNat ≠ 127 ∧ c ≠ '/' ∧ c ≠ '\\' ∧ c ≠ '?' ∧ c ≠ '#' ∧ c ≠ '%'

instance : DecidablePred UrlKeepsChar := fun _ => inferInstanceAs (Decidable (_ ∧ _))

/-- A segment that arrives as it was written into a url. Dot segments are resolved, and the url
loses a space at its end. -/
def UrlKeeps (segment : String) : Prop :=
  segment ≠ "" ∧ segment ≠ "." ∧ segment ≠ ".." ∧ segment.toList.getLast? ≠ some ' ' ∧
    ∀ c ∈ segment.toList, UrlKeepsChar c

instance (segment : String) : Decidable (UrlKeeps segment) :=
  have : Decidable (∀ c ∈ segment.toList, UrlKeepsChar c) := List.decidableBAll _ _
  inferInstanceAs (Decidable (_ ∧ _))

example : UrlKeeps "1.0.42" ∧ UrlKeeps "release id" ∧ ¬ UrlKeeps "release/42" := by decide

/-- The path of segments. -/
def pathOf (segments : List String) : String := String.join (segments.map ("/" ++ ·))

/-! ## The host -/

def lowerCase (name : String) : String := String.ofList (name.toList.map Char.toLower)

/-- The request as the function sees it: the names of headers in lower case, and the body that
`got` makes of the option `json`. -/
def contextOf (request : HttpRequest) (bindingData : List (String × String)) : Context where
  method := match request.method with
    | .get => "GET"
    | .post => "POST"
  headers := some (request.headers.map fun header => (lowerCase header.1, header.2))
  query := some request.searchParams
  rawBody := match request.json with
    | none => .noBody
    | some json => if h : json = .undefined then .noBody else .json ⟨json.toJson, Val.isJson_toJson h⟩
  bindingData := bindingData

/-- A response as `got` returns it. -/
def gotResponse (statusCode : ℕ) (body : Val) : Val :=
  .obj [("statusCode", .num statusCode), ("body", body)]

/-- The host of the functions: to which of them it hands a request, and what it makes of
`context.res`. -/
structure FunctionHost (baseUrl : String) where
  receive : HttpRequest → Option (ApiFunction × Context)
  respond : Except JsError (Option HttpResponse) → Val
  /-- A request is handed to the function whose method and route it matches. -/
  receives : ∀ (request : HttpRequest) (segments : List String) (function : ApiFunction)
    (bindingData : List (String × String)),
    request.url = baseUrl ++ pathOf segments → (∀ segment ∈ segments, UrlKeeps segment) →
    function.method = request.method → matchRoute function.route segments = some bindingData →
    receive request = some (function, contextOf request bindingData)
  /-- A response with a status is sent with its body as JSON. -/
  responds : ∀ (status : ℕ) (headers : Option Fields) (body : Val),
    respond (.ok (some ⟨some status, headers, body⟩)) = gotResponse status body.toJson

/-! ## The requests of the client -/

namespace Call

/-- The function a call is meant for. -/
def function : Call → ApiFunction
  | .postWebsite _ => .postWebsite
  | .getWebsite _ => .getWebsite
  | .postPage _ => .postPage
  | .postWebsiteScan _ => .postWebsiteScan
  | .getWebsiteScan _ _ _ | .getLatestWebsiteScan _ _ => .getWebsiteScan
  | .pingHealth | .getHealthReport _ => .getHealthReport

/-- What it passes to the function in its url. -/
def arguments : Call → List (String × String)
  | .getWebsite websiteId => [("websiteId", websiteId)]
  | .getWebsiteScan websiteId scanType websiteScanId =>
    [("websiteId", websiteId), ("scanType", scanType), ("scanIdOrLatest", websiteScanId)]
  | .getLatestWebsiteScan websiteId scanType =>
    [("websiteId", websiteId), ("scanType", scanType), ("scanIdOrLatest", "latest")]
  | .getHealthReport none => [("target", "release")]
  | .getHealthReport (some releaseId) =>
    if releaseId = "" then [("target", "release")]
    else [("target", "release"), ("targetId", releaseId)]
  | _ => []

/-- The arguments arrive as they are; the release may be empty. -/
def KeptArguments (call : Call) : Prop :=
  ∀ argument ∈ call.arguments, UrlKeeps argument.2

/-- The path of a call, segment by segment. -/
def segments : Call → List String
  | .postWebsite _ => ["websites"]
  | .getWebsite websiteId => ["websites", websiteId]
  | .postPage _ => ["pages"]
  | .postWebsiteScan _ => ["websites", "scans"]
  | .getWebsiteScan websiteId scanType websiteScanId =>
    ["websites", websiteId, "scans", scanType, websiteScanId]
  | .getLatestWebsiteScan websiteId scanType => ["websites", websiteId, "scans", scanType, "latest"]
  | .pingHealth => ["health"]
  | .getHealthReport none => ["health", "release"]
  | .getHealthReport (some releaseId) =>
    if releaseId = "" then ["health", "release"] else ["health", "release", releaseId]

theorem request_url (client : WebInsightsStorageClient) (call : Call) :
    (call.request client).url = client.baseUrl ++ pathOf call.segments := by
  -- the texts in the source join the slashes and the words of the route
  have hwebsites : "/websites/" = "/" ++ "websites" ++ "/" := by decide
  have hscans : "/scans/" = "/" ++ "scans" ++ "/" := by decide
  have hrelease : "/health/release/" = "/" ++ "health" ++ "/" ++ "release" ++ "/" := by decide
  have hjoin : ∀ segments : List String, pathOf segments =
      segments.foldl (fun path segment => path ++ "/" ++ segment) "" := by
    intro segments
    rw [pathOf, String.join, List.foldl_map]
    simp only [String.append_assoc]
  rw [hjoin]
  cases call with
  | getHealthReport releaseId =>
    rcases releaseId with _ | releaseId
    · exact congrArg (client.baseUrl ++ ·) (by decide)
    · refine congrArg (client.baseUrl ++ ·) ?_
      by_cases hempty : releaseId = ""
      · simp only [segments, line, if_pos hempty]
        decide
      · simp only [segments, line, if_neg hempty, hrelease, List.foldl_cons, List.foldl_nil,
          String.empty_append, String.append_assoc]
  | getWebsite websiteId =>
    refine congrArg (client.baseUrl ++ ·) ?_
    simp only [segments, line, hwebsites, List.foldl_cons, List.foldl_nil, String.empty_append,
      String.append_assoc]
  | getWebsiteScan websiteId scanType websiteScanId =>
    refine congrArg (client.baseUrl ++ ·) ?_
    simp only [segments, line, hwebsites, hscans, List.foldl_cons, List.foldl_nil,
      String.empty_append, String.append_assoc]
  | getLatestWebsiteScan websiteId scanType =>
    refine congrArg (client.baseUrl ++ ·) ?_
    simp only [segments, line, hwebsites, hscans, List.foldl_cons, List.foldl_nil,
      String.empty_append, String.append_assoc]
  | _ =>
    refine congrArg (client.baseUrl ++ ·) ?_
    simp only [segments, line]
    decide

/-- The path of a call matches the route of its function. -/
theorem matchRoute_segments (call : Call) :
    matchRoute call.function.route call.segments = some call.arguments := by
  cases call with
  | getHealthReport releaseId =>
    rcases releaseId with _ | releaseId
    · decide
    · by_cases hempty : releaseId = ""
      · simp only [segments, arguments, if_pos hempty]
        rfl
      · simp only [segments, arguments, if_neg hempty]
        rfl
  | _ => rfl

theorem urlKeeps_segments {call : Call} (hkept : call.KeptArguments) :
    ∀ segment ∈ call.segments, UrlKeeps segment := by
  have hwebsites : UrlKeeps "websites" := by decide
  have hscans : UrlKeeps "scans" := by decide
  have hpages : UrlKeeps "pages" := by decide
  have hhealth : UrlKeeps "health" := by decide
  have hrelease : UrlKeeps "release" := by decide
  unfold KeptArguments at hkept
  cases call with
  | getHealthReport releaseId =>
    rcases releaseId with _ | releaseId
    · simp [segments, hhealth, hrelease]
    · by_cases hempty : releaseId = ""
      · simp [segments, hempty, hhealth, hrelease]
      · simp only [arguments, if_neg hempty] at hkept
        simp only [segments, if_neg hempty]
        simp_all
  | _ => simp_all [segments, arguments]

/-- **Every request of the client arrives** at the function it is meant for, with its arguments
bound, whatever token it was signed with. -/
theorem receives {client : WebInsightsStorageClient} (host : FunctionHost client.baseUrl)
    {call : Call} (hkept : call.KeptArguments) (token : AuthenticationResult) :
    host.receive ((call.request client).signed token) =
      some (call.function, contextOf ((call.request client).signed token) call.arguments) := by
  refine host.receives _ call.segments _ _ (call.request_url client) (urlKeeps_segments hkept) ?_
    call.matchRoute_segments
  cases call with
  | getHealthReport releaseId => cases releaseId <;> rfl
  | _ => rfl

end Call

/-! ## A host that goes by the routes -/

/-- What stands between the slashes. -/
def splitSlashes : List Char → List (List Char)
  | [] => [[]]
  | c :: cs => if c = '/' then [] :: splitSlashes cs else (splitSlashes cs).modifyHead (c :: ·)

theorem splitSlashes_append {segment rest : List Char} (h : '/' ∉ segment) :
    splitSlashes (segment ++ rest) = (splitSlashes rest).modifyHead (segment ++ ·) := by
  induction segment with
  | nil =>
    rw [List.nil_append]
    cases splitSlashes rest <;> rfl
  | cons c segment ih =>
    rw [List.mem_cons, not_or] at h
    rw [List.cons_append, splitSlashes, if_neg (Ne.symm h.1), ih h.2]
    cases splitSlashes rest <;> rfl

theorem UrlKeeps.ne {segment : String} (h : UrlKeeps segment) {c : Char} (hc : c ∈ segment.toList) :
    c ≠ '/' ∧ c ≠ '\\' :=
  ⟨(h.2.2.2.2 c hc).2.2.1, (h.2.2.2.2 c hc).2.2.2.1⟩

theorem UrlKeeps.not_slash {segment : String} (h : UrlKeeps segment) : '/' ∉ segment.toList :=
  fun hmem => (h.ne hmem).1 rfl

/-- The segments of a path are read back from it. -/
theorem splitSlashes_pathOf {segments : List String} (h : ∀ segment ∈ segments, UrlKeeps segment) :
    splitSlashes (pathOf segments).toList = [] :: segments.map String.toList := by
  have hflat : (pathOf segments).toList =
      segments.flatMap fun segment => '/' :: segment.toList := by
    rw [pathOf, String.toList_join, List.flatMap_map]
    refine List.flatMap_congr fun segment _ => ?_
    rw [String.toList_append]
    rfl
  rw [hflat]
  clear hflat
  induction segments with
  | nil => rfl
  | cons segment segments ih =>
    rw [List.flatMap_cons, List.cons_append, splitSlashes, if_pos rfl,
      splitSlashes_append (h segment List.mem_cons_self).not_slash,
      ih fun s hs => h s (List.mem_cons_of_mem _ hs)]
    simp

def allFunctions : List ApiFunction :=
  [.getHealthReport, .getWebsite, .getWebsiteScan, .postPage, .postWebsite, .postWebsiteScan]

theorem mem_allFunctions (function : ApiFunction) : function ∈ allFunctions := by
  cases function <;> decide

/-- The function a path names, and what it binds. -/
def findFunction (method : Method) (segments : List String) :
    Option (ApiFunction × List (String × String)) :=
  allFunctions.findSome? fun function =>
    if function.method = method then
      (matchRoute function.route segments).map fun bindingData => (function, bindingData)
    else none

/-- What only one element of a list yields is found. -/
theorem findSome?_of_unique {α β : Type} {f : α → Option β} {as : List α} {a : α} {b : β}
    (hmem : a ∈ as) (hb : f a = some b) (hunique : ∀ a' ∈ as, a' ≠ a → f a' = none) :
    as.findSome? f = some b := by
  induction as with
  | nil => cases hmem
  | cons a' as ih =>
    rw [List.findSome?_cons]
    by_cases ha : a' = a
    · rw [ha, hb]
    · rw [hunique a' List.mem_cons_self ha]
      exact ih ((List.mem_cons.mp hmem).resolve_left fun h => ha h.symm)
        fun x hx => hunique x (List.mem_cons_of_mem _ hx)

/-- No path matches the routes of two functions of one method: the first segment or the number
of the segments tells them apart. -/
theorem matchRoute_unique {function other : ApiFunction} {segments : List String}
    {bindingData : List (String × String)}
    (h : matchRoute function.route segments = some bindingData) (hne : other ≠ function)
    (hmethod : other.method = function.method) : matchRoute other.route segments = none := by
  cases function <;> cases other <;> first | exact absurd rfl hne | cases hmethod
  all_goals
    rcases segments with _ | ⟨a, _ | ⟨b, _ | ⟨c, segments⟩⟩⟩ <;>
      simp_all [matchRoute, ApiFunction.route]

theorem findFunction_eq {function : ApiFunction} {segments : List String}
    {bindingData : List (String × String)}
    (h : matchRoute function.route segments = some bindingData) :
    findFunction function.method segments = some (function, bindingData) := by
  refine findSome?_of_unique (mem_allFunctions function) ?_ fun other _ hne => ?_
  · rw [if_pos rfl, h]
    rfl
  · by_cases hmethod : other.method = function.method
    · rw [if_pos hmethod, matchRoute_unique h hne hmethod]
      rfl
    · rw [if_neg hmethod]

/-- The host that goes by the routes, and answers with the status 500 for an exception and 204
for a request that is left without a response. -/
def routingHost (baseUrl : String) : FunctionHost baseUrl where
  receive request :=
    (findFunction request.method ((splitSlashes
        (request.url.toList.drop baseUrl.toList.length)).tail.map String.ofList)).map
      fun found => (found.1, contextOf request found.2)
  respond
    | .ok (some ⟨some status, _, body⟩) => gotResponse status body.toJson
    | .ok _ => gotResponse 204 .undefined
    | .error _ => gotResponse 500 .undefined
  receives request segments function bindingData hurl hkept hmethod hmatch := by
    rw [hurl, String.toList_append, List.drop_left, splitSlashes_pathOf hkept, List.tail_cons,
      List.map_map, ← hmethod]
    have hsegments : segments.map (String.ofList ∘ String.toList) = segments := by
      refine (List.map_congr_left fun segment _ => ?_).trans (List.map_id segments)
      exact String.ofList_toList
    rw [hsegments, findFunction_eq hmatch]
    rfl
  responds _ _ _ := rfl

end WebInsights.StorageApiClient
