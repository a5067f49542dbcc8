/-
Requests that overlap.

Any number of requests are served at once, their operations on the storage one after another in
any order, and any of them may fail. What a handler relies on is what every handler keeps
(`keeps_request`), so no document is ever lost, each document stays in the partition it belongs
to, and a website that is stored is returned from then on, with all of its pages.
-/
import WebInsights.StorageApi.RoundTrip
import WebInsights.StorageApi.ScanWellFormed

set_option autoImplicit false

namespace WebInsights.StorageApi

open Common Cosmos Effect Js Providers WebApi

abbrev RequestPool (ι : Type) : Type :=
  Pool ι Operation Operation.Result World JsError (Option HttpResponse)

variable {ι : Type} {env : Environment} {svc : Service}

/-- The requests, before any of them has asked anything of the storage. -/
def RequestPool.start (env : Environment) (requests : ι → ApiRequest) (w : World) :
    RequestPool ι :=
  Pool.start (fun i => (requests i).serve env) w

/-- What holds of a pool of requests. -/
structure Overlap (env : Environment) (svc : Service) (p : RequestPool ι) : Prop where
  shaped : p.shared.Shaped svc (shape env.fnv1a fun _ => True)
  keeps (i : ι) : Keeps env svc (fun _ => True) (fun _ => True) (p.threads i).prog

section

variable {p q : RequestPool ι}

/-- **An interleaving of requests** keeps the shape of the storage, and loses no document. -/
theorem Overlap.run [DecidableEq ι] (h : Overlap env svc p)
    (hrun : Pool.Runs (World.handle svc) (fun _ _ _ => True) p q) :
    Overlap env svc q ∧ StillStored p.shared q.shared := by
  have hkept := hrun.guarantees
    -- the documents of `p` are what a step must still leave stored
    (I := fun w => w.Shaped svc (shape env.fnv1a fun _ => True) ∧ StillStored p.shared w)
    (fun _ _ hop hw => ⟨hw.1.handle hop, hw.2.handle hop⟩) (fun op _ hw => hw.1.answer op)
    h.keeps ⟨h.shaped, fun _ d hd => ⟨d, hd, rfl⟩⟩
  exact ⟨⟨hkept.1.1, hkept.2⟩, hkept.1.2⟩

/-- A website that is stored is returned by GET requests, once the storage works. -/
theorem Overlap.getWebsite (h : Overlap env svc q) {id : String} {D : Document}
    (hD : storedWebsite q.shared id = some D) {get : Context}
    (haccepted : (ApiRequest.mk .getWebsite get).Accepted env)
    (hid : bindingData get "websiteId" = id) :
    ((ApiRequest.mk .getWebsite get).serve env).run (World.handle svc) q.shared.faultless =
      (.ok (some (jsonResponse 200 (websiteBody D (pagesOf q.shared id)))), q.shared.faultless) :=
  -- a fault that is still to come is no part of the shape
  ApiRequest.run_serve_ok env svc haccepted
    (run_getWebsite rfl h.shaped.faultless hD hid
      ((ApiRequest.mk .getWebsite get).validated env).2)

end

/-- **Requests that overlap.** Let any requests be served at once, in a storage that requests
one after another have led to. From one moment to a later one no document is lost, whatever
failed in between. A website that was stored at the first has known pages at the second, and is
returned with each document that is a page of it, wherever that is stored. Requests overlap, but
each creates its own pages one after another. -/
theorem requests_overlap [DecidableEq ι] (svc : Service)
    (hnewId : ∀ n, isValidV6Guid (svc.newId n) = false)
    {guids : ℕ → V6Guid} {faults : List (Option Fault)} {w : World}
    (hreach : Reaches env svc (fun _ _ => True) { World.empty guids with faults := faults } w)
    (requests : ι → ApiRequest) {p q : RequestPool ι}
    (hfirst : Pool.Runs (World.handle svc) (fun _ _ _ => True) (RequestPool.start env requests w) p)
    (hlater : Pool.Runs (World.handle svc) (fun _ _ _ => True) p q) :
    StillStored w p.shared ∧ StillStored p.shared q.shared ∧
      ∀ id, isValidV6Guid id = true → storedWebsite p.shared id ≠ none →
        ∃ D urls, storedWebsite q.shared id = some D ∧
          D.get "knownPages" = .arr (strings urls) ∧
          ∀ get : Context, (ApiRequest.mk .getWebsite get).Accepted env →
            bindingData get "websiteId" = id →
            ((ApiRequest.mk .getWebsite get).serve env).run (World.handle svc)
                q.shared.faultless =
              (.ok (some (jsonResponse 200 (websiteBody D (pagesOf q.shared id)))),
                q.shared.faultless) := by
  have hstart : Overlap env svc (RequestPool.start env requests w) :=
    ⟨hreach.shaped hnewId (World.shaped_empty guids faults),
      fun i => keeps_request hnewId (requests i)⟩
  obtain ⟨hp, hbefore⟩ := hstart.run hfirst
  obtain ⟨hq, hafter⟩ := hp.run hlater
  refine ⟨hbefore, hafter, fun id hvalid hstored => ?_⟩
  -- the website is still there, and so is what makes it one
  obtain ⟨D, hD⟩ :=
    Option.ne_none_iff_exists'.mp (storedWebsite_of_stillStored hafter id hstored)
  obtain ⟨urls, hurls⟩ := exists_knownPages hq.shaped hD hvalid
  exact ⟨D, urls, hD, hurls, fun get haccepted hid => hq.getWebsite hD haccepted hid⟩

/-! ### Two websites that are posted at once -/

def overlapRequests : Bool → ApiRequest := fun _ => postSampleWebsite 0 ["a", "b"]

/-- Both have drawn their UUIDs, and one has written its website. -/
def overlapFirst : RequestPool Bool :=
  (RequestPool.start sampleEnvironment overlapRequests (World.empty V6Guid.sample)).play
    (World.handle Service.counting) [false, true, false]

/-- The other writes its own, while the first one creates a page. -/
def overlapSecond : RequestPool Bool :=
  overlapFirst.play (World.handle Service.counting) [true, false, true, false, false]

theorem requests_overlap_two :
    StillStored overlapFirst.shared overlapSecond.shared ∧
    ∃ D urls, storedWebsite overlapSecond.shared (V6Guid.sample 0).text = some D ∧
      D.get "knownPages" = .arr (strings urls) ∧
      ∀ get : Context, (ApiRequest.mk .getWebsite get).Accepted sampleEnvironment →
        bindingData get "websiteId" = (V6Guid.sample 0).text →
        ((ApiRequest.mk .getWebsite get).serve sampleEnvironment).run
            (World.handle Service.counting) overlapSecond.shared.faultless =
          (.ok (some (jsonResponse 200
            (websiteBody D (pagesOf overlapSecond.shared (V6Guid.sample 0).text)))),
            overlapSecond.shared.faultless) := by
  have hstored : storedWebsite overlapFirst.shared (V6Guid.sample 0).text ≠ none :=
    Option.isSome_iff_ne_none.mp (by decide +kernel)
  have h := @requests_overlap Bool sampleEnvironment _ Service.counting not_valid_newId
    V6Guid.sample [] (World.empty V6Guid.sample) .refl overlapRequests overlapFirst overlapSecond
    (Pool.runs_play _ _ _) (Pool.runs_play _ _ _)
  exact ⟨h.2.1, h.2.2 _ (V6Guid.sample 0).valid hstored⟩

end WebInsights.StorageApi
