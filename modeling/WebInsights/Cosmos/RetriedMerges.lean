/-
Concurrent merges of one document, each retried by `tryExecuteOperation`.

A merge that is refused with 412 is a response, and 412 is among the status codes that
`tryExecuteOperation` retries on. A caller is refused only if another one has succeeded since
it read, and a caller succeeds once; so its turns are never more than the callers that have
succeeded before. As many turns as there are callers are enough for every caller, whatever
the interleaving, and what is stored is what their merges make one after another.
-/
import Mathlib.Data.Fintype.Card
import WebInsights.Cosmos.MergeCalls
import WebInsights.Cosmos.TryExecuteOperation
import WebInsights.Effect.Interpret

set_option autoImplicit false

namespace WebInsights.Cosmos.CosmosContainerClient

open Effect Js CosmosClientWrapper

/-! ## One caller -/

/-- A caller of `tryExecuteOperation`: the merge it is to execute, and what its clock shows. -/
structure RetriedMerge (pause : ℚ) where
  call : MergeCall
  clock : Clock pause

section Caller

variable (container : Container) (retryOptions : RetryOptions) (rejection : JsError → Rejection)

/-- What a caller performs: its merge, with what that throws as a rejection, and looks at its
clock, which has counted its turns. -/
def executing (caller : RetriedMerge retryOptions.intervalMilliseconds) :
    (op : ExecutionStep) → ℕ →
      Program Operation Operation.Result ExecutionError (op.Result × ℕ)
  | .operation, turn => (caller.call.program container).attempt >>= fun r =>
      pure (r.mapError rejection, turn + 1)
  | .now, 0 => pure (caller.clock.start, 0)
  | .now, turn + 1 => pure (caller.clock.time turn, turn + 1)
  | .wait _, turn => pure ((), turn)

abbrev Retried : Type :=
  Program Operation Operation.Result ExecutionError (Option CosmosOperationResponse × ℕ)

variable (fuel : ℕ) (caller : RetriedMerge retryOptions.intervalMilliseconds)

/-- `tryExecuteOperation` with a merge for its operation. -/
def RetriedMerge.program : Retried :=
  (tryExecuteOperation fuel retryOptions).interpret
    (executing container retryOptions rejection caller) 0

/-- The loop from a turn on. -/
def RetriedMerge.turns (turn : ℕ) : ℕ → Retried := fun fuel =>
  (Program.iterate (fun _ : Unit => executeBy caller.clock) fuel ()).interpret
    (executing container retryOptions rejection caller) turn

/-- What follows the merge of a turn. -/
def RetriedMerge.afterMerge (turn fuel : ℕ) : Except JsError CosmosOperationResponse → Retried
  | .error e => throw (customError (rejection e))
  | .ok response =>
    if Completed retryOptions response.statusCode then pure (some response, turn + 1)
    else if caller.clock.start + retryOptions.timeoutMilliseconds < caller.clock.time turn then
      throw (.response response)
    else caller.turns container retryOptions rejection (turn + 1) fuel

theorem RetriedMerge.program_eq : caller.program container retryOptions rejection fuel =
    caller.turns container retryOptions rejection 0 fuel := rfl

/-- A turn is a merge and what follows it. -/
theorem RetriedMerge.turns_succ (turn : ℕ) :
    caller.turns container retryOptions rejection turn (fuel + 1) =
      (caller.call.program container).attempt >>=
        caller.afterMerge container retryOptions rejection turn fuel := by
  -- one turn of the loop, interpreted: the merge, the check of its status, the clock
  unfold turns
  rw [Program.interpret_iterate_succ]
  unfold executeBy execute
  rw [Program.interpret_perform_bind, executing, bind_assoc, bind_assoc]
  refine congrArg _ (funext fun r => ?_)
  rw [pure_bind]
  rcases r with e | response
  · rfl
  · unfold afterMerge
    dsimp only [Except.mapError]
    by_cases hcompleted : Completed retryOptions response.statusCode
    · rw [if_pos hcompleted, if_pos hcompleted]
      rfl
    · rw [if_neg hcompleted, if_neg hcompleted, Program.interpret_bind, isPast,
        Program.interpret_perform_bind]
      show (Program.interpret _ (if decide _ = true then _ else _) (turn + 1) >>= _) = _
      by_cases hlate : caller.clock.start + retryOptions.timeoutMilliseconds <
          caller.clock.time turn
      · rw [if_pos (decide_eq_true hlate), if_pos hlate]
        rfl
      · rw [if_neg (by simpa using hlate), if_neg hlate]
        rfl

/-- What follows the read of a turn that found a document: the upsert of the merge. -/
def RetriedMerge.upserting (turn fuel : ℕ) (merged : Fields) (pk : String) : Retried :=
  .call (.cosmos container (upsertRequest merged (.str pk))) fun answer =>
    (caller.call.afterUpsert (Fields.get (assignPartitionKey merged (.str pk)) "id")
      answer).attempt >>= caller.afterMerge container retryOptions rejection turn fuel

/-- What follows the read of a turn. -/
def RetriedMerge.afterRead (turn fuel : ℕ) (pk : String) (answer : Except SdkError Answer) :
    Retried :=
  (caller.call.afterRead container pk answer).attempt >>=
    caller.afterMerge container retryOptions rejection turn fuel

variable {container retryOptions rejection fuel caller} {id pk : String}

theorem RetriedMerge.turns_eq_call (h : caller.call.Targets id pk) (turn : ℕ) :
    caller.turns container retryOptions rejection turn (fuel + 1) =
      .call (.cosmos container (.read (.str id) (.str pk)))
        (caller.afterRead container retryOptions rejection turn fuel pk) := by
  rw [turns_succ, MergeCall.program_eq h]
  rfl

theorem RetriedMerge.afterRead_found (turn : ℕ) {S : Document} {merged : Fields}
    (hmerged : mergedDocument S.val caller.call.document.fields caller.call.customMerge =
      .ok merged) :
    caller.afterRead container retryOptions rejection turn fuel pk (.ok ⟨S.val, .code 200⟩) =
      caller.upserting container retryOptions rejection turn fuel merged pk := by
  unfold afterRead MergeCall.afterRead
  rw [readResponse, Program.ofExcept_ok, pure_bind, mergeOrWrite_merged (by simp) hmerged,
    MergeCall.upsertItem_eq_call]
  rfl

/-- An upsert that was admitted ends the call. -/
theorem RetriedMerge.afterMerge_ok (turn : ℕ) (v : Val) (answer : Answer) :
    ((caller.call.afterUpsert v (.ok answer)).attempt >>=
        caller.afterMerge container retryOptions rejection turn fuel) =
      pure (some (upsertSuccess answer), turn + 1) := by
  show caller.afterMerge container retryOptions rejection turn fuel (.ok (upsertSuccess answer)) = _
  unfold afterMerge
  exact if_pos (Or.inl (by decide))

/-- An upsert that was refused ends it past the deadline, and else leads to another turn. -/
theorem RetriedMerge.afterMerge_conflict (hquiet : caller.call.throwIfNotSuccess = false)
    (hretry : 412 ∈ retryOptions.retryingOnStatusCodes) (turn : ℕ) (v : Val) (message : String) :
    ((caller.call.afterUpsert v (.error ⟨some (.code 412), message⟩)).attempt >>=
        caller.afterMerge container retryOptions rejection turn fuel) =
      if caller.clock.start + retryOptions.timeoutMilliseconds < caller.clock.time turn then
        throw (.response ⟨.undefined, .str message, .code 412⟩)
      else caller.turns container retryOptions rejection (turn + 1) fuel := by
  have hcode : (caller.call.afterUpsert v (.error ⟨some (.code 412), message⟩)) =
      pure ⟨.undefined, .str message, .code 412⟩ := by
    rw [MergeCall.afterUpsert, hquiet, handleFailedOperationResponse_false]
    rfl
  have hcompleted : ¬ Completed retryOptions (.code 412) := by
    rintro (h | h)
    · omega
    · exact h (List.mem_append_right _ hretry)
  rw [hcode]
  show caller.afterMerge container retryOptions rejection turn fuel (.ok _) = _
  unfold afterMerge
  exact if_neg hcompleted

end Caller

/-! ## Interleaved callers -/

section Interleaved

variable {ι : Type} [DecidableEq ι]

/-- The callers in flight over one storage. -/
abbrev RetryPool (ι : Type) : Type :=
  Pool ι Operation Operation.Result World ExecutionError (Option CosmosOperationResponse × ℕ)

/-- The caller has got a response that reports success. -/
def Retried.Succeeds (p : Retried) : Prop :=
  ∃ response turn, p = .pure (some response, turn) ∧
    client.isSuccessStatusCode response.statusCode = true

instance : DecidablePred Retried.Succeeds
  | .pure (some response, turn) =>
    decidable_of_iff (client.isSuccessStatusCode response.statusCode = true)
      ⟨fun h => ⟨response, turn, rfl, h⟩, by rintro ⟨_, _, h, hsuccess⟩; cases h; exact hsuccess⟩
  | .pure (none, _) => isFalse (by rintro ⟨_, _, h, -⟩; cases h)
  | .throw _ => isFalse (by rintro ⟨_, _, h, -⟩; cases h)
  | .call _ _ => isFalse (by rintro ⟨_, _, h, -⟩; cases h)

variable (svc : Service) (container : Container) (retryOptions : RetryOptions)
  (rejection : JsError → Rejection) (fuel : ℕ)

/-- Where a caller can be in a run after `commits` of them have succeeded, and whether it is
one of these. Its turns are counted, and its answers: two for each turn. -/
inductive Retrying (caller : RetriedMerge retryOptions.intervalMilliseconds) (id pk : String)
    (repo : Collection) (committed : Prop) (commits : ℕ) :
    Thread Operation Operation.Result ExecutionError (Option CosmosOperationResponse × ℕ) → Prop
  | waiting {turn rest seen} (h : ¬ committed) (hturn : turn ≤ commits)
      (hfuel : turn + (rest + 1) = fuel) (hseen : seen.length = 2 * turn) :
      Retrying caller id pk repo committed commits
        ⟨caller.turns container retryOptions rejection turn (rest + 1), seen⟩
  | merging {turn rest seen} (h : ¬ committed) (hturn : turn ≤ commits)
      (hfuel : turn + (rest + 1) = fuel) (hseen : seen.length = 2 * turn + 1) {S : Document}
      {merged : Fields} (hkey : S.key = (.str pk, .str id))
      (hsnap : Snapshot etagOf (etagStamp svc) repo.writes (repo.find (.str pk, .str id)) S)
      (hmerged : mergedDocument S.val caller.call.document.fields caller.call.customMerge =
        .ok merged)
      (hstale : repo.find (.str pk, .str id) ≠ some S → turn + 1 ≤ commits) :
      Retrying caller id pk repo committed commits
        ⟨caller.upserting container retryOptions rejection turn rest merged pk, seen⟩
  | gaveUp {prog turn seen} (h : ¬ committed) (hend : prog.Ended) (hfail : ¬ Retried.Succeeds prog)
      (hturn : turn + 1 ≤ commits) (hseen : seen.length = 2 * turn + 2)
      (hout : caller.clock.Late retryOptions.timeoutMilliseconds turn ∨ turn + 1 = fuel) :
      Retrying caller id pk repo committed commits ⟨prog, seen⟩
  | done {prog turn seen} (h : committed) (hturn : turn + 1 ≤ commits)
      (hdone : Retried.Succeeds prog) (hseen : seen.length = 2 * turn + 2) :
      Retrying caller id pk repo committed commits ⟨prog, seen⟩

/-- What holds of every pool a run reaches, with the callers that have succeeded in their
order. -/
structure Retrials (callers : ι → RetriedMerge retryOptions.intervalMilliseconds)
    (id pk : String) (w : World) (p : RetryPool ι) (order : List ι) : Prop where
  nodup : order.Nodup
  faultless : p.shared.faults = []
  isSerial : p.shared.repo = (serial (fun i => (callers i).call.apply svc container) order w).repo
  stamped : (p.shared.repo container).Stamped svc
  found : ∃ S, (p.shared.repo container).find (.str pk, .str id) = some S
  progress : ∀ i, Retrying svc container retryOptions rejection fuel (callers i) id pk
    (p.shared.repo container) (i ∈ order) order.length (p.threads i)

variable {svc container retryOptions rejection fuel}
  {callers : ι → RetriedMerge retryOptions.intervalMilliseconds}
  {caller : RetriedMerge retryOptions.intervalMilliseconds} {id pk : String} {w : World}
  {p : RetryPool ι} {order : List ι}

theorem Retrying.succeeds_iff {repo : Collection} {committed : Prop} {commits : ℕ}
    {t : Thread Operation Operation.Result ExecutionError (Option CosmosOperationResponse × ℕ)}
    (h : Retrying svc container retryOptions rejection fuel caller id pk repo committed commits t)
    (htargets : caller.call.Targets id pk) : committed ↔ Retried.Succeeds t.prog := by
  cases h with
  | waiting h =>
    refine iff_of_false h ?_
    rintro ⟨response, turn, hresponse, -⟩
    dsimp only at hresponse
    rw [RetriedMerge.turns_eq_call htargets] at hresponse
    cases hresponse
  | merging h =>
    refine iff_of_false h ?_
    rintro ⟨response, turn, hresponse, -⟩
    cases hresponse
  | gaveUp h _ hfail => exact iff_of_false h hfail
  | done h _ hdone => exact iff_of_true h hdone

/-- A step of another caller that writes nothing. -/
theorem Retrying.congr {repo : Collection} {c c' : Prop} (hc : c ↔ c') {commits : ℕ}
    {t : Thread Operation Operation.Result ExecutionError (Option CosmosOperationResponse × ℕ)}
    (h : Retrying svc container retryOptions rejection fuel caller id pk repo c commits t) :
    Retrying svc container retryOptions rejection fuel caller id pk repo c' commits t := by
  rwa [← propext hc]

/-- The success of another caller makes a caller's copy stale, and leaves it a turn for that. -/
theorem Retrying.write {repo : Collection} {committed : Prop} {commits : ℕ}
    {t : Thread Operation Operation.Result ExecutionError (Option CosmosOperationResponse × ℕ)}
    (h : Retrying svc container retryOptions rejection fuel caller id pk repo committed commits t)
    {d : Document} (hkey : d.key = (.str pk, .str id))
    (hetag : etagOf d = etagStamp svc repo.writes) :
    Retrying svc container retryOptions rejection fuel caller id pk (repo.put d) committed
      (commits + 1) t := by
  cases h with
  | waiting h hturn hfuel hseen => exact .waiting h (by omega) hfuel hseen
  | merging h hturn hfuel hseen hS hsnap hmerged hstale =>
    exact .merging h (by omega) hfuel hseen hS (snapshot_put hsnap hkey hetag) hmerged
      fun _ => by omega
  | gaveUp h hend hfail hturn hseen hout => exact .gaveUp h hend hfail (by omega) hseen hout
  | done h hturn hdone hseen => exact .done h (by omega) hdone hseen

omit [DecidableEq ι] in
/-- The storage after the callers have succeeded in this order has nothing to fail. -/
theorem faults_serial (hw : w.faults = []) (order : List ι) :
    (serial (fun i => (callers i).call.apply svc container) order w).faults = [] := by
  induction order using List.reverseRecOn with
  | nil => exact hw
  | append_singleton order i ih =>
    rw [serial_concat]
    exact World.run_faults svc _ ih

/-- **The read of a turn** finds the document. -/
theorem Retrials.read
    (h : Retrials svc container retryOptions rejection fuel callers id pk w p order)
    (htotal : ∀ i S, ∃ merged, mergedDocument (Document.val S) (callers i).call.document.fields
      (callers i).call.customMerge = .ok merged) {i : ι} (hi : i ∉ order) {turn rest : ℕ}
    (hturn : turn ≤ order.length) (hfuel : turn + (rest + 1) = fuel)
    (hseen : (p.threads i).seen.length = 2 * turn) :
    Retrials svc container retryOptions rejection fuel callers id pk w
      (p.perform (World.handle svc) i (.cosmos container (.read (.str id) (.str pk)))
        ((callers i).afterRead container retryOptions rejection turn rest pk)) order := by
  obtain ⟨S, hfind⟩ := h.found
  have hhandle : World.handle svc (.cosmos container (.read (.str id) (.str pk))) p.shared =
      (.ok ⟨S.val, .code 200⟩, p.shared) := by
    rw [World.handle_faultless svc h.faultless, Collection.serve_read_some svc hfind,
      World.withRepo_eq_self]
  have hshared : (p.perform (World.handle svc) i (.cosmos container (.read (.str id) (.str pk)))
      ((callers i).afterRead container retryOptions rejection turn rest pk)).shared =
      p.shared := congrArg Prod.snd hhandle
  -- what is merged carries the etag that is stored now
  obtain ⟨merged, hmerged⟩ := htotal i S
  refine ⟨h.nodup, ?_, ?_, ?_, ?_, fun j => ?_⟩
  · rw [hshared]
    exact h.faultless
  · rw [hshared]
    exact h.isSerial
  · rw [hshared]
    exact h.stamped
  · rw [hshared]
    exact h.found
  rw [hshared]
  by_cases hj : j = i
  · subst hj
    have hmem := Collection.find_eq_some_iff.mp hfind
    rw [Pool.perform_threads_self, hhandle, RetriedMerge.afterRead_found turn hmerged]
    refine .merging hi hturn hfuel ?_ hmem.2 ?_ hmerged fun hne => absurd hfind hne
    · rw [List.length_append, hseen]
      rfl
    · rw [hfind]
      exact .of_read (h.stamped S hmem.1)
  · rw [Pool.perform_threads_ne _ _ hj]
    exact h.progress j

section Upsert

variable (h : Retrials svc container retryOptions rejection fuel callers id pk w p order)
  {i : ι} (hi : i ∉ order) {turn : ℕ} (hseen : (p.threads i).seen.length = 2 * turn + 1)
  {merged : Fields} (haddr : Addressed merged id pk) {k : Except SdkError Answer → Retried}

include h hi hseen haddr

/-- **An upsert that is admitted**: the caller is the next one in the order. -/
theorem Retrials.upsert_admitted (hturn : turn ≤ order.length)
    (hadmits : (p.shared.repo container).Admits (.str pk, .str id)
      (getOptions (assignPartitionKey merged (.str pk))))
    (happly : ∀ w' : World, w'.faults = [] → w'.repo = p.shared.repo →
      ((callers i).call.apply svc container w').repo = written svc container merged pk w')
    (hw : w.faults = []) (hdone : ∀ answer, Retried.Succeeds (k (.ok answer))) :
    Retrials svc container retryOptions rejection fuel callers id pk w
      (p.perform (World.handle svc) i (.cosmos container (upsertRequest merged (.str pk))) k)
      (order ++ [i]) := by
  have hkey := haddr.key_stamp svc (p.shared.repo container).writes
  have hhandle := World.handle_faultless svc h.faultless container (upsertRequest merged (.str pk))
  rw [upsertRequest, Collection.serve_upsert svc (hkey.symm ▸ hadmits)] at hhandle
  -- the pool after the step: its storage, and the one collection that was written
  generalize hq : p.perform (World.handle svc) i
    (.cosmos container (upsertRequest merged (.str pk))) k = q
  have hrepo : q.shared.repo = written svc container merged pk p.shared := by
    rw [← hq]
    exact congrArg (fun r => r.2.repo) hhandle
  have hcollection : q.shared.repo container = (p.shared.repo container).put
      (svc.stamp (p.shared.repo container).writes (assignPartitionKey merged (.str pk))) := by
    rw [hrepo, written, Function.update_self]
  refine ⟨?_, ?_, ?_, ?_, ?_, fun j => ?_⟩
  · refine List.nodup_append.mpr ⟨h.nodup, List.nodup_singleton i, ?_⟩
    rintro j hj l hl rfl
    exact hi (List.mem_singleton.mp hl ▸ hj)
  · rw [← hq]
    exact (congrArg (fun r => r.2.faults) hhandle).trans h.faultless
  · rw [hrepo, serial_concat, happly _ (faults_serial hw order) h.isSerial.symm, written, written,
      h.isSerial]
  · rw [hcollection]
    exact h.stamped.put (assignPartitionKey merged (.str pk))
  · rw [hcollection, ← hkey]
    exact ⟨_, Collection.find_put_self _ _⟩
  · rw [hcollection, List.length_append, List.length_singleton, ← hq]
    by_cases hj : j = i
    · subst hj
      rw [Pool.perform_threads_self]
      refine .done (List.mem_append_right _ List.mem_cons_self)
        (show turn + 1 ≤ _ by omega) ?_ ?_
      · rw [upsertRequest, hhandle]
        exact hdone _
      · rw [List.length_append, hseen]
        rfl
    · rw [Pool.perform_threads_ne _ _ hj]
      have hmem : j ∈ order ↔ j ∈ order ++ [i] := by simp [hj]
      exact ((h.progress j).write hkey (svc.get_stamp_etag _ _)).congr hmem

/-- **An upsert that is refused**: the document has changed since it was read. -/
theorem Retrials.upsert_refused
    (hadmits : ¬ (p.shared.repo container).Admits (.str pk, .str id)
      (getOptions (assignPartitionKey merged (.str pk))))
    (hnext : ∀ message seen, seen.length = 2 * turn + 2 →
      Retrying svc container retryOptions rejection fuel (callers i) id pk
        (p.shared.repo container) (i ∈ order) order.length
        ⟨k (.error ⟨some (.code 412), message⟩), seen⟩) :
    Retrials svc container retryOptions rejection fuel callers id pk w
      (p.perform (World.handle svc) i (.cosmos container (upsertRequest merged (.str pk))) k)
      order := by
  have hkey := haddr.key_stamp svc (p.shared.repo container).writes
  have hhandle := World.handle_faultless svc h.faultless container (upsertRequest merged (.str pk))
  rw [upsertRequest, Collection.serve_upsert_conflict svc (hkey.symm ▸ hadmits),
    World.withRepo_eq_self] at hhandle
  generalize hq : p.perform (World.handle svc) i
    (.cosmos container (upsertRequest merged (.str pk))) k = q
  have hshared : q.shared = p.shared := by
    rw [← hq]
    exact congrArg Prod.snd hhandle
  -- nothing is stored, so the others are where they were
  refine ⟨h.nodup, hshared ▸ h.faultless, hshared ▸ h.isSerial, hshared ▸ h.stamped,
    hshared ▸ h.found, fun j => ?_⟩
  rw [hshared, ← hq]
  by_cases hj : j = i
  · subst hj
    rw [Pool.perform_threads_self, upsertRequest, hhandle]
    refine hnext _ _ ?_
    rw [List.length_append, hseen]
    rfl
  · rw [Pool.perform_threads_ne _ _ hj]
    exact h.progress j

end Upsert

/-- What a caller does next that was refused. -/
theorem Retrying.refused {repo : Collection} {committed : Prop} {commits turn rest : ℕ}
    (h : ¬ committed) (hstale : turn + 1 ≤ commits) (hfuel : turn + (rest + 1) = fuel)
    (hquiet : caller.call.throwIfNotSuccess = false)
    (hretry : 412 ∈ retryOptions.retryingOnStatusCodes) (v : Val) {seen : List (Sigma _)}
    (hseen : seen.length = 2 * turn + 2) (message : String) :
    Retrying svc container retryOptions rejection fuel caller id pk repo committed commits
      ⟨(caller.call.afterUpsert v (.error ⟨some (.code 412), message⟩)).attempt >>=
        caller.afterMerge container retryOptions rejection turn rest, seen⟩ := by
  rw [RetriedMerge.afterMerge_conflict hquiet hretry]
  by_cases hlate : caller.clock.start + retryOptions.timeoutMilliseconds < caller.clock.time turn
  · rw [if_pos hlate]
    refine .gaveUp h trivial ?_ hstale hseen (Or.inl ?_)
    · rintro ⟨response, turn, hresponse, -⟩
      cases hresponse
    · unfold Clock.Late
      linarith
  · rw [if_neg hlate]
    rcases rest with _ | rest
    · -- no turn is left
      refine .gaveUp h trivial ?_ hstale hseen (Or.inr hfuel)
      rintro ⟨response, turn, hresponse, -⟩
      cases hresponse
    · exact .waiting h hstale (by omega) (by omega)

/-- **One step** of a caller. -/
theorem Retrials.step
    (h : Retrials svc container retryOptions rejection fuel callers id pk w p order)
    (htargets : ∀ i, (callers i).call.Targets id pk)
    (hquiet : ∀ i, (callers i).call.throwIfNotSuccess = false)
    (htotal : ∀ i S, ∃ merged, mergedDocument (Document.val S) (callers i).call.document.fields
      (callers i).call.customMerge = .ok merged)
    (hretry : 412 ∈ retryOptions.retryingOnStatusCodes) (hw : w.faults = []) {i : ι}
    {op : Operation} {k : op.Result → Retried} (hk : (p.threads i).prog = .call op k) :
    ∃ order', Retrials svc container retryOptions rejection fuel callers id pk w
      (p.perform (World.handle svc) i op k) order' := by
  have hprogress := h.progress i
  generalize ht : p.threads i = t at hprogress hk
  have hthread : (p.threads i).seen = t.seen := congrArg Thread.seen ht
  cases hprogress with
  | waiting hi hturn hfuel hseen =>
    dsimp only at hk
    rw [RetriedMerge.turns_eq_call (htargets i)] at hk
    cases hk
    exact ⟨order, h.read htotal hi hturn hfuel ((congrArg List.length hthread).trans hseen)⟩
  | @merging turn rest seen hi hturn hfuel hseen S merged hkey hsnap hmerged hstale =>
    cases hk
    obtain ⟨n, -, hetag⟩ := hsnap.old
    obtain ⟨haddr, hoptions⟩ := (htargets i).merged hkey hetag hmerged
    have hseen' := (congrArg List.length hthread).trans hseen
    by_cases hadmits : (p.shared.repo container).Admits (.str pk, .str id)
        (getOptions (assignPartitionKey merged (.str pk)))
    · refine ⟨_, h.upsert_admitted hi hseen' haddr hturn hadmits ?_ hw ?_⟩
      · intro w' hw' hrepo
        -- the version that was read is still there, so what was read is
        rw [hoptions, Collection.admits_some] at hadmits
        obtain ⟨d, hd, hversion⟩ := hadmits
        have hfind := hsnap.eq_cell hd (hversion.trans hetag.symm)
        rw [← hrepo] at hfind
        exact apply_found (htargets i) hw' hfind hetag hmerged
      · intro answer
        rw [RetriedMerge.afterMerge_ok]
        exact ⟨_, _, rfl, rfl⟩
    · have hchanged : (p.shared.repo container).find (.str pk, .str id) ≠ some S := by
        intro hfind
        rw [hoptions, Collection.admits_some] at hadmits
        exact hadmits ⟨S, hfind, hetag⟩
      refine ⟨order, h.upsert_refused hi hseen' haddr hadmits ?_⟩
      intro message seen hseen
      exact .refused hi (hstale hchanged) hfuel (hquiet i) hretry _ hseen message
  | gaveUp _ hend =>
    dsimp only at hk
    rw [hk] at hend
    exact hend.elim
  | done _ _ hdone =>
    obtain ⟨response, turn, hresponse, -⟩ := hdone
    dsimp only at hk
    rw [hk] at hresponse
    cases hresponse

/-- What holds of every pool that is reached. -/
theorem exists_retrials (htargets : ∀ i, (callers i).call.Targets id pk)
    (hquiet : ∀ i, (callers i).call.throwIfNotSuccess = false)
    (htotal : ∀ i S, ∃ merged, mergedDocument (Document.val S) (callers i).call.document.fields
      (callers i).call.customMerge = .ok merged)
    (hretry : 412 ∈ retryOptions.retryingOnStatusCodes) (hfuel : 0 < fuel) (hw : w.faults = [])
    (hstamped : (w.repo container).Stamped svc)
    (hfound : ∃ S, (w.repo container).find (.str pk, .str id) = some S) {q : RetryPool ι}
    (hrun : Pool.Runs (World.handle svc) (fun _ _ _ => True)
      (Pool.start (fun i => (callers i).program container retryOptions rejection fuel) w) q) :
    ∃ order, Retrials svc container retryOptions rejection fuel callers id pk w q order := by
  refine hrun.invariant (I := fun p =>
    ∃ order, Retrials svc container retryOptions rejection fuel callers id pk w p order) ⟨[], ?_⟩ ?_
  · obtain ⟨rest, rfl⟩ : ∃ rest, fuel = rest + 1 := ⟨fuel - 1, by omega⟩
    refine ⟨List.nodup_nil, hw, rfl, hstamped, hfound, fun i => ?_⟩
    exact .waiting List.not_mem_nil (Nat.zero_le _) (Nat.zero_add _) rfl
  · rintro p i op k ⟨order, h⟩ - hk
    exact h.step htargets hquiet htotal hretry hw hk

omit [DecidableEq ι] in
theorem length_lt_card [Fintype ι] (hnd : order.Nodup) {i : ι} (hi : i ∉ order) :
    order.length < Fintype.card ι :=
  (List.nodup_cons.mpr ⟨hi, hnd⟩).length_le_card

/-- **Retried merges of one document.** In every state that an interleaving of callers
reaches, what is stored is what the callers that have succeeded make of the document, each
once, one after another. A caller sends no more than two requests for each of the callers,
and gives up only past its deadline, after no more turns than others have succeeded. -/
theorem retriedMerges_serial [Fintype ι] (svc : Service) (container : Container)
    (retryOptions : RetryOptions) (hretry : 412 ∈ retryOptions.retryingOnStatusCodes)
    (rejection : JsError → Rejection)
    (callers : ι → RetriedMerge retryOptions.intervalMilliseconds) {id pk : String}
    (htargets : ∀ i, (callers i).call.Targets id pk)
    (hquiet : ∀ i, (callers i).call.throwIfNotSuccess = false)
    (htotal : ∀ i S, ∃ merged, mergedDocument (Document.val S) (callers i).call.document.fields
      (callers i).call.customMerge = .ok merged) {w : World} (hw : w.faults = [])
    (hstamped : (w.repo container).Stamped svc)
    (hfound : ∃ S, (w.repo container).find (.str pk, .str id) = some S) {fuel : ℕ}
    (hfuel : Fintype.card ι < fuel) {q : RetryPool ι}
    (hrun : Pool.Runs (World.handle svc) (fun _ _ _ => True)
      (Pool.start (fun i => (callers i).program container retryOptions rejection fuel) w) q) :
    ∃ order : List ι, order.Nodup ∧ (∀ i, i ∈ order ↔ Retried.Succeeds (q.threads i).prog) ∧
      q.shared.repo = (serial (fun i => (callers i).call.apply svc container) order w).repo ∧
      ∀ i, (q.threads i).seen.length ≤ 2 * Fintype.card ι ∧
        ((q.threads i).prog.Ended → i ∈ order ∨
          ∃ turn < order.length, (callers i).clock.Late retryOptions.timeoutMilliseconds turn) := by
  obtain ⟨order, h⟩ := exists_retrials htargets hquiet htotal hretry (by omega) hw hstamped hfound
    hrun
  refine ⟨order, h.nodup, fun i => (h.progress i).succeeds_iff (htargets i), h.isSerial,
    fun i => ?_⟩
  have hle := h.nodup.length_le_card
  have hprogress := h.progress i
  generalize q.threads i = t at hprogress
  -- each turn that did not succeed was refused over the success of another caller
  cases hprogress with
  | @waiting turn rest seen hi hturn _ hseen =>
    have hlt := length_lt_card h.nodup hi
    refine ⟨by dsimp only; omega, fun hended => ?_⟩
    rw [RetriedMerge.turns_eq_call (htargets i)] at hended
    exact hended.elim
  | merging hi hturn _ hseen =>
    have hlt := length_lt_card h.nodup hi
    exact ⟨by dsimp only; omega, fun hended => hended.elim⟩
  | @gaveUp prog turn seen hi _ _ hturn hseen hout =>
    have hlt := length_lt_card h.nodup hi
    refine ⟨by dsimp only; omega, fun _ => Or.inr ⟨turn, hturn, ?_⟩⟩
    exact hout.resolve_right (by omega)
  | done hi hturn _ hseen => exact ⟨by dsimp only; omega, fun _ => Or.inl hi⟩

end Interleaved

/-! ### Two callers that read the same version -/

/-- A clock that shows nothing but the pauses. -/
def pausesClock : Clock RetryOptions.default.intervalMilliseconds where
  start := 0
  time k := k * RetryOptions.default.intervalMilliseconds
  start_le := by simp
  advances k := by
    push_cast
    linarith

/-- One of two callers that each bring a property of their own. -/
def adding (b : Bool) : RetriedMerge RetryOptions.default.intervalMilliseconds where
  call := { creation b with throwIfNotSuccess := false }
  clock := pausesClock

/-- The storage before them: their document is there. -/
def addingWorld : World :=
  creationWorld.store Service.counting .websiteData [("id", .str "a"), ("partitionKey", .str "p")]

/-- Both read, the first one writes, the second one is refused and has another turn. -/
def addingPool : RetryPool Bool :=
  (Pool.start (fun b => (adding b).program .websiteData .default (fun _ => .error "") 3)
    addingWorld).play (World.handle Service.counting) [true, false, true, false, false, false]

theorem retriedMerges_serial_adding : (∀ b, Retried.Succeeds (addingPool.threads b).prog) ∧
    ∃ order : List Bool, order.Nodup ∧
      (∀ b, b ∈ order ↔ Retried.Succeeds (addingPool.threads b).prog) ∧
      addingPool.shared.repo = (serial (fun b => (adding b).call.apply Service.counting .websiteData)
        order addingWorld).repo ∧
      ∀ b, (addingPool.threads b).seen.length ≤ 2 * 2 ∧
        ((addingPool.threads b).prog.Ended → b ∈ order ∨
          ∃ turn < order.length, (adding b).clock.Late RetryOptions.default.timeoutMilliseconds
            turn) := by
  have hfound : ∃ S, (addingWorld.repo .websiteData).find (.str "p", .str "a") = some S :=
    ⟨_, rfl⟩
  constructor
  · decide +kernel
  · refine retriedMerges_serial Service.counting .websiteData .default (by decide)
      (fun _ => .error "") adding (fun b => ?_) (fun _ => rfl) (fun b S => ?_) rfl ?_ hfound
      (by decide) (Pool.runs_play _ _ _)
    · exact ⟨by decide, rfl, rfl, Or.inl (by decide), fun k _ f hf => by cases hf⟩
    · exact exists_mergedDocument S _
    · intro d hd
      obtain rfl := List.mem_singleton.mp hd
      exact ⟨0, by decide, rfl⟩

end WebInsights.Cosmos.CosmosContainerClient
