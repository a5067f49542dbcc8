/-
How often `AclProvider` reads the secrets.

A call looks into the cache before it waits for the mutex, and not again when it gets it.
So a call that missed and then waited reads the secrets once more, although the call
before it has stored the list in the meantime. Where no call for a list waits while that
list is stored, the secrets are read only while the cache has nothing to serve: a call that
waits or reads has a miss that still stands, which is the invariant.
-/
import WebInsights.Auth.AclCache

set_option autoImplicit false

namespace WebInsights.Auth.AclCache

open Data Effect AclProvider AclState
open Cosmos (JsError)

/-- The operations of a call that has missed and has not stored yet. -/
def ToVault : LockedOperation → Prop
  | .acquire => True
  | .plain (.getSecret _) => True
  | _ => False

/-- What a call does after its last answer. -/
inductive Next (aclName : String) : Sigma LockedOperation.Result → LockedOperation → Prop
  | acquire : Next aclName ⟨.plain (.cacheGet aclName), none⟩ .acquire
  | read {start : ℕ} {name : String} : Next aclName ⟨.acquire, start⟩ (.plain (.getSecret name))
  | readOn {name name' : String} {secret : Except JsError Secret} :
      Next aclName ⟨.plain (.getSecret name), secret⟩ (.plain (.getSecret name'))
  | store {name : String} {secret : Except JsError Secret} {acl : Acl} :
      Next aclName ⟨.plain (.getSecret name), secret⟩ (.plain (.cacheSet aclName acl))
  | giveUp {name : String} {secret : Except JsError Secret} :
      Next aclName ⟨.plain (.getSecret name), secret⟩ .release
  | release {name : String} {acl : Acl} : Next aclName ⟨.plain (.cacheSet name acl), ()⟩ .release

theorem eq_of_append {seen seen' : Answered} {x y : Sigma LockedOperation.Result}
    (h : seen ++ [x] = seen' ++ [y]) : x = y :=
  List.singleton_inj.mp (List.append_inj' h rfl).2

theorem Follows.next {aclName : String} {seen : Answered} {x : Sigma LockedOperation.Result}
    {op : LockedOperation} (h : Follows aclName (seen ++ [x]) op) : Next aclName x op := by
  generalize hseen : seen ++ [x] = all at h
  cases h with
  | cacheGet => simp at hseen
  | acquire =>
    obtain rfl := eq_of_append (hseen.trans (List.nil_append _).symm)
    exact .acquire
  | issuer => exact eq_of_append hseen ▸ .read
  | publicKeysUrl => exact eq_of_append hseen ▸ .readOn
  | entries => exact eq_of_append hseen ▸ .readOn
  | cacheSet => exact eq_of_append hseen ▸ .store
  | release h =>
    cases h with
    | noIssuer => exact eq_of_append hseen ▸ .giveUp
    | noKeys => exact eq_of_append hseen ▸ .giveUp
    | invalid => exact eq_of_append hseen ▸ .giveUp
    | stored => exact eq_of_append hseen ▸ .release

/-- Before a call waits or reads it missed, or it was on its way already. -/
theorem Next.before {aclName : String} {x : Sigma LockedOperation.Result} {op : LockedOperation}
    (h : Next aclName x op) (hop : ToVault op) :
    x = ⟨.plain (.cacheGet aclName), none⟩ ∨ ToVault x.1 := by
  cases h with
  | acquire => exact Or.inl rfl
  | read => exact Or.inr trivial
  | readOn => exact Or.inr trivial
  | store => exact hop.elim
  | giveUp => exact hop.elim
  | release => exact hop.elim

/-- A call begins with the look up. -/
theorem Follows.not_toVault {aclName : String} {op : LockedOperation} (h : Follows aclName [] op) :
    ¬ ToVault op := by
  intro hop
  generalize hseen : ([] : Answered) = seen at h
  cases h with
  | acquire => cases hseen
  | issuer => cases hseen
  | publicKeysUrl => cases hseen
  | entries => cases hseen
  | _ => exact hop

/-- A call stores the list of its own name. -/
theorem Follows.stores {aclName : String} {seen : Answered} {name : String} {acl : Acl}
    (h : Follows aclName seen (.plain (.cacheSet name acl))) : name = aclName := by
  cases h
  rfl

/-- A call reads while it holds the mutex. -/
theorem Follows.held_of_getSecret {aclName : String} {seen : Answered} {name : String}
    (h : Follows aclName seen (.plain (.getSecret name))) : mutex.Held seen = true := by
  rcases h.held with htakes | hheld | hfree
  · cases htakes
  · exact hheld
  · exact hfree.elim

variable {ι : Type} [DecidableEq ι]

/-- The call stores a list, and another call for the same list waits for the mutex. -/
def Contended (names : ι → String) (p : Callers ι) (i : ι) (op : LockedOperation) : Prop :=
  (∃ aclName acl, op = .plain (.cacheSet aclName acl)) ∧
    ∃ j k, names j = names i ∧ (p.threads j).prog = .call .acquire k

/-- The mutex is given to one call at a time, and nobody waits for a list that is stored. -/
def Uncontended (names : ι → String) (p : Callers ι) (i : ι) (op : LockedOperation) : Prop :=
  Admitted p i op ∧ ¬ Contended names p i op

variable {names : ι → String} {s₀ : AclState} {p : Callers ι}

/-- A call that waits or reads has a miss that still stands. -/
def Missing (names : ι → String) (p : Callers ι) : Prop :=
  ∀ i op k, (p.threads i).prog = .call op k → ToVault op →
    p.shared.cache.get (names i) p.shared.now = none

/-- What a step leaves to a miss, unless it stores that list. -/
theorem get_handle {op : LockedOperation} {s : AclState} {aclName : String}
    (hop : ∀ acl, op ≠ .plain (.cacheSet aclName acl))
    (h : s.cache.get aclName s.now = none) :
    (handle op s).2.cache.get aclName (handle op s).2.now = none := by
  by_cases hset : ∃ name acl, op = .plain (.cacheSet name acl)
  · obtain ⟨name, acl, rfl⟩ := hset
    have hname : aclName ≠ name := by
      rintro rfl
      exact hop acl rfl
    have hcache : (handle (.plain (.cacheSet name acl)) s).2.cache aclName = s.cache aclName :=
      TimedCache.set_ne s.cache hname _ _ _
    unfold TimedCache.get at h ⊢
    rw [hcache]
    exact h
  · rw [handle_cache (fun name acl heq => hset ⟨name, acl, heq⟩)]
    exact TimedCache.get_none_mono (now_handle op s) h

/-- **The invariant**, where nobody waits for a list that is stored. -/
theorem run_missing (hrun : Pool.Runs handle (Uncontended names) (callers names s₀) p) :
    Missing names p := by
  refine hrun.invariant_reached (I := Missing names) ?_ ?_
  · intro i op k hk hop
    have hfollows : Follows (names i) [] op := follows (G := Uncontended names) .refl hk
    exact absurd hop hfollows.not_toVault
  intro p i op k hp hmissing hG hk j op' k' hk' hop'
  by_cases hj : j = i
  · subst hj
    -- the call itself: it looked up just now, or it was on its way
    have hnext := follows (.step hp hG (.perform k hk)) hk'
    rw [Pool.perform_threads_self] at hnext
    rcases hnext.next.before hop' with heq | hbefore
    · obtain ⟨rfl, hanswer⟩ := Sigma.mk.inj heq
      exact Option.map_eq_none_iff.mp (eq_of_heq hanswer)
    · refine get_handle ?_ (hmissing j op k hk hbefore)
      rintro acl rfl
      exact hbefore.elim
  · rw [Pool.perform_threads_ne handle p hj] at hk'
    refine get_handle ?_ (hmissing j op' k' hk' hop')
    rintro acl rfl
    -- the other call stores this list: this one cannot be waiting, nor can it be reading
    have hname : names j = names i := (follows hp hk).stores
    rcases op' with _ | _ | (_ | _ | _ | _)
    · exact hG.2 ⟨⟨_, _, rfl⟩, j, k', hname, hk'⟩
    · exact hop'.elim
    · exact hop'.elim
    · exact hop'.elim
    · have hheld := (follows hp hk').held_of_getSecret
      rcases only_holder (fun _ _ _ h => h.1) hp hheld hG hk with hji | hfree
      · exact hj hji
      · exact hfree.elim
    · exact hop'.elim

/-! ## A call that waits reads again -/

/-- Only a look up that is served and the release of the mutex are the last of a call. -/
theorem Finishes.last {aclName : String} {seen : Answered} {x : Sigma LockedOperation.Result}
    {r : Except JsError Acl} (h : Finishes aclName (seen ++ [x]) r) :
    x = ⟨.release, ()⟩ ∨ ∃ acl, x = ⟨.plain (.cacheGet aclName), some acl⟩ := by
  rcases h with ⟨acl, hall, -⟩ | ⟨seen', -, hall⟩
  · exact Or.inr ⟨acl, eq_of_append (hall.trans (List.nil_append _).symm)⟩
  · exact Or.inl (eq_of_append hall)

/-- A call that was answered something else goes on. -/
theorem goesOn {G : Callers ι → ι → LockedOperation → Prop}
    (hrun : Pool.Runs handle G (callers names s₀) p) {i : ι} {seen : Answered}
    {x : Sigma LockedOperation.Result} (hseen : (p.threads i).seen = seen ++ [x])
    (hrelease : x ≠ ⟨.release, ()⟩)
    (hserved : ∀ acl, x ≠ ⟨.plain (.cacheGet (names i)), some acl⟩) :
    ∃ op k, (p.threads i).prog = .call op k ∧ Next (names i) x op := by
  have hmeets := hrun.meets (fun i => meets_getAclOnce (names i)) i
  have hends : ∀ r, ¬ Finishes (names i) (p.threads i).seen r := by
    intro r h
    rw [hseen] at h
    rcases h.last with hx | ⟨acl, hx⟩
    · exact hrelease hx
    · exact hserved acl hx
  rcases hprog : (p.threads i).prog with acl | e | ⟨op, k⟩
  · rw [hprog] at hmeets
    exact (hends _ hmeets).elim
  · rw [hprog] at hmeets
    exact (hends _ hmeets).elim
  · have hfollows := follows hrun hprog
    rw [hseen] at hfollows
    exact ⟨op, k, rfl, hfollows.next⟩

/-- Where a call stores a list that another one waits for, the other may read the secrets
while the list is served. -/
theorem contended_reads (hrun : Pool.Runs handle Admitted (callers names s₀) p) {i j : ι}
    {aclName : String} {acl : Acl}
    {k : (LockedOperation.plain (.cacheSet aclName acl)).Result → Locked Acl}
    {kj : LockedOperation.acquire.Result → Locked Acl}
    (hi : (p.threads i).prog = .call (.plain (.cacheSet aclName acl)) k)
    (hj : (p.threads j).prog = .call .acquire kj) (hname : names j = names i)
    (hpause : p.shared.pauses (p.shared.clock + 2) ≤ 600 * 1000) :
    ∃ q name kq, Pool.Runs handle Admitted (callers names s₀) q ∧
      (q.threads j).prog = .call (.plain (.getSecret name)) kq ∧
      ∃ cached, q.shared.cache.get (names j) q.shared.now = some cached ∧ cached.acl = acl := by
  have hji : j ≠ i := by
    rintro rfl
    rw [hi] at hj
    cases hj
  -- the store
  have hrun₁ := hrun.perform (fun hsets => by cases hsets) hi
  have hseen₁ : ((p.perform handle i _ k).threads i).seen = (p.threads i).seen ++
      [⟨.plain (.cacheSet aclName acl), ()⟩] := by
    rw [Pool.perform_threads_self]
  -- the release
  obtain ⟨op, k₁, hk₁, hnext₁⟩ := goesOn hrun₁ hseen₁ (by simp) (by simp)
  cases hnext₁
  have hrun₂ := hrun₁.perform (fun hsets => by cases hsets) hk₁
  -- the mutex is free, and the other call takes it
  have hk₂ : (((p.perform handle i _ k).perform handle i _ k₁).threads j).prog =
      .call .acquire kj := by
    rw [Pool.perform_threads_ne handle _ hji, Pool.perform_threads_ne handle p hji]
    exact hj
  have hrun₃ := hrun₂.perform (fun _ => rfl) hk₂
  have hseen₃ : ((((p.perform handle i _ k).perform handle i _ k₁).perform handle j _ kj).threads
      j).seen = (((p.perform handle i _ k).perform handle i _ k₁).threads j).seen ++
        [⟨.acquire, p.shared.clock + 2⟩] := by
    rw [Pool.perform_threads_self]
    rfl
  obtain ⟨op, k₃, hk₃, hnext₃⟩ := goesOn hrun₃ hseen₃ (by simp) (by simp)
  cases hnext₃
  refine ⟨_, _, k₃, hrun₃, hk₃, ⟨acl, p.shared.readStart⟩, ?_, rfl⟩
  -- the entry is served for 600 seconds
  obtain rfl : aclName = names j := (follows hrun hi).stores.trans hname.symm
  refine TimedCache.get_set_self p.shared.cache (names j) _ ?_
  show p.shared.now + p.shared.pauses (p.shared.clock + 2) ≤ p.shared.now + 600 * 1000
  omega

/-- **One read of the secrets for an entry's lifetime**, where no call for a list waits for
the mutex while that list is stored: a call that reads has a cache with nothing to serve.
Where one does wait, it reads again. -/
theorem getAcl_singleFlight (names : ι → String) (s₀ : AclState) :
    (∀ p, Pool.Runs handle (Uncontended names) (callers names s₀) p →
      ∀ i name k, (p.threads i).prog = .call (.plain (.getSecret name)) k →
        p.shared.cache.get (names i) p.shared.now = none) ∧
    (∀ p, Pool.Runs handle Admitted (callers names s₀) p →
      ∀ i j aclName acl k kj, (p.threads i).prog = .call (.plain (.cacheSet aclName acl)) k →
        (p.threads j).prog = .call .acquire kj → names j = names i →
        p.shared.pauses (p.shared.clock + 2) ≤ 600 * 1000 →
        ∃ q name kq, Pool.Runs handle Admitted (callers names s₀) q ∧
          (q.threads j).prog = .call (.plain (.getSecret name)) kq ∧
          ∃ cached, q.shared.cache.get (names j) q.shared.now = some cached ∧ cached.acl = acl) :=
  ⟨fun _ hrun i _ _ hk => run_missing hrun i _ _ hk trivial,
    fun _ hrun _ _ _ _ _ _ hi hj hname hpause => contended_reads hrun hi hj hname hpause⟩

/-- The secret a call is reading. -/
def nextSecret : Locked Acl → Option String
  | .call (.plain (.getSecret name)) _ => some name
  | _ => none

theorem eq_of_nextSecret {prog : Locked Acl} {name : String} (h : nextSecret prog = some name) :
    ∃ k, prog = .call (.plain (.getSecret name)) k := by
  unfold nextSecret at h
  split at h
  · cases h
    exact ⟨_, rfl⟩
  · cases h

/-- The call waits for the mutex. -/
def waits : Locked Acl → Bool
  | .call .acquire _ => true
  | _ => false

def stores : LockedOperation → Bool
  | .plain (.cacheSet _ _) => true
  | _ => false

/-- [`Uncontended`] as a check. -/
def uncontended (p : Callers (Fin 2)) (i : Fin 2) (op : LockedOperation) : Bool :=
  mutex.admits p i op && !(stores op && (waits (p.threads 0).prog || waits (p.threads 1).prog))

theorem uncontended_of_uncontended {p : Callers (Fin 2)} {i : Fin 2} {op : LockedOperation}
    (h : uncontended p i op = true) : Uncontended sampleNames p i op := by
  unfold uncontended at h
  rw [Bool.and_eq_true, Bool.not_eq_true', Bool.and_eq_false_iff, Bool.or_eq_false_iff] at h
  refine ⟨mutex.admits_of_admits h.1, ?_⟩
  rintro ⟨⟨aclName, acl, rfl⟩, j, k, -, hj⟩
  have hwaits : waits (p.threads j).prog = true := by
    rw [hj]
    rfl
  rcases h.2 with hstores | ⟨h0, h1⟩
  · cases hstores
  · match j with
    | 0 => exact absurd hwaits (Bool.eq_false_iff.mp h0)
    | 1 => exact absurd hwaits (Bool.eq_false_iff.mp h1)

/-- The second call reads the secrets eleven minutes after the first one has stored; and where
it waits while the first one stores, it reads them at once. -/
theorem getAcl_singleFlight_sample :
    ((callers sampleNames (sampleState 660000)).playIf handle uncontended
        [0, 0, 0, 0, 0, 0, 0, 1, 1]).shared.cache.get "aclApiReadAll"
      ((callers sampleNames (sampleState 660000)).playIf handle uncontended
        [0, 0, 0, 0, 0, 0, 0, 1, 1]).shared.now = none ∧
    ∃ q name kq, Pool.Runs handle Admitted (callers sampleNames (sampleState 1000)) q ∧
      (q.threads 1).prog = .call (.plain (.getSecret name)) kq ∧
      ∃ cached, q.shared.cache.get "aclApiReadAll" q.shared.now = some cached := by
  constructor
  · have hreads : nextSecret (((callers sampleNames (sampleState 660000)).playIf handle uncontended
        [0, 0, 0, 0, 0, 0, 0, 1, 1]).threads 1).prog = some "aclIssuer" := by decide +kernel
    obtain ⟨k, hk⟩ := eq_of_nextSecret hreads
    exact (getAcl_singleFlight sampleNames (sampleState 660000)).1 _
      (Pool.runs_playIf handle (fun _ _ _ h => uncontended_of_uncontended h) _ _) 1 _ k hk
  · obtain ⟨q, name, kq, hrun, hq, cached, hcached, -⟩ :=
      (getAcl_singleFlight sampleNames (sampleState 1000)).2 _
        (runs_samplePool [0, 1, 0, 0, 0, 0]) 0 1 "aclApiReadAll" _ _ _ rfl rfl rfl
        (by decide +kernel)
    exact ⟨q, name, kq, hrun, hq, cached, hcached⟩

/-- Both calls look up before the first one stores: the second one reads the secrets while
the list of the first one is served. -/
theorem getAcl_readAgain :
    ∃ p, Pool.Runs handle Admitted (callers sampleNames (sampleState 1000)) p ∧
      (∃ acl, (p.threads 0).prog = .pure acl ∧ acl.valid = true) ∧
      (∃ k, (p.threads 1).prog = .call (.plain (.getSecret "aclIssuer")) k) ∧
      ∃ cached, p.shared.cache.get "aclApiReadAll" p.shared.now = some cached := by
  have hend : ∃ acl, ((samplePool [0, 1, 0, 0, 0, 0, 0, 0, 1]).threads 0).prog = .pure acl ∧
      acl.valid = true := ⟨_, rfl, rfl⟩
  exact ⟨_, runs_samplePool [0, 1, 0, 0, 0, 0, 0, 0, 1], hend, eq_of_nextSecret (by decide +kernel),
    Option.isSome_iff_exists.mp (by decide +kernel)⟩

end WebInsights.Auth.AclCache
