/-
What the cache of `AclProvider` holds, over all interleavings.

The look up needs no mutex; the read of the secrets and the store happen while the call
holds it. So between the answers of the call that holds the mutex the others only look
up. The invariant: every entry is a list with all its parts, kept for 600 seconds, whose
read started no later than the mutex was last given away; and before the holder of the mutex
stores, every entry's read started before its own.
-/
import WebInsights.Auth.AclProvider

set_option autoImplicit false

namespace WebInsights.Auth

open Data Effect Js AclProvider AclState
open Cosmos (JsError)

namespace AclCache

abbrev Answered : Type := List (Sigma LockedOperation.Result)

/-! ## The steps of a call -/

/-- The list that is made of the answers to the three reads. -/
def readAclOf (issuer publicKeysUrl : Secret) (entries : Except JsError Secret) : Acl :=
  let aclEntries : Val := match entries with
    | .ok secret => match secret.parse with
      | .ok value => value
      | .error _ => .undefined
    | .error _ => .undefined
  ⟨issuer.value, publicKeysUrl.value, aclEntries.get "audience", aclEntries.get "appIds",
    validateAcl issuer.value publicKeysUrl.value (aclEntries.get "audience")
      (aclEntries.get "appIds")⟩

/-- The answers up to the mutex, and up to each of the three reads. -/
def missed (aclName : String) : Answered := [⟨.plain (.cacheGet aclName), none⟩]

def began (aclName : String) (start : ℕ) : Answered := missed aclName ++ [⟨.acquire, start⟩]

def readOne (aclName : String) (start : ℕ) (issuer : Except JsError Secret) : Answered :=
  began aclName start ++ [⟨.plain (.getSecret "aclIssuer"), issuer⟩]

def readTwo (aclName : String) (start : ℕ) (issuer : Secret)
    (publicKeysUrl : Except JsError Secret) : Answered :=
  readOne aclName start (.ok issuer) ++ [⟨.plain (.getSecret "aclPublicKeysUrl"), publicKeysUrl⟩]

def readThree (aclName : String) (start : ℕ) (issuer publicKeysUrl : Secret)
    (entries : Except JsError Secret) : Answered :=
  readTwo aclName start issuer (.ok publicKeysUrl) ++ [⟨.plain (.getSecret aclName), entries⟩]

/-- How the part of a call under the mutex ends. -/
inductive Read (aclName : String) : Answered → Except JsError Acl → Prop
  | noIssuer {start : ℕ} {e : JsError} : Read aclName (readOne aclName start (.error e)) (.error e)
  | noKeys {start : ℕ} {issuer : Secret} {e : JsError} :
      Read aclName (readTwo aclName start issuer (.error e)) (.error e)
  | invalid {start : ℕ} {issuer publicKeysUrl : Secret} {entries : Except JsError Secret}
      (h : (readAclOf issuer publicKeysUrl entries).valid = false) :
      Read aclName (readThree aclName start issuer publicKeysUrl entries)
        (.ok (readAclOf issuer publicKeysUrl entries))
  | stored {start : ℕ} {issuer publicKeysUrl : Secret} {entries : Except JsError Secret}
      (h : (readAclOf issuer publicKeysUrl entries).valid = true) :
      Read aclName (readThree aclName start issuer publicKeysUrl entries ++
          [⟨.plain (.cacheSet aclName (readAclOf issuer publicKeysUrl entries)), ()⟩])
        (.ok (readAclOf issuer publicKeysUrl entries))

/-- What a call does next. -/
inductive Follows (aclName : String) : Answered → LockedOperation → Prop
  | cacheGet : Follows aclName [] (.plain (.cacheGet aclName))
  | acquire : Follows aclName (missed aclName) .acquire
  | issuer {start : ℕ} : Follows aclName (began aclName start) (.plain (.getSecret "aclIssuer"))
  | publicKeysUrl {start : ℕ} {issuer : Secret} :
      Follows aclName (readOne aclName start (.ok issuer)) (.plain (.getSecret "aclPublicKeysUrl"))
  | entries {start : ℕ} {issuer publicKeysUrl : Secret} :
      Follows aclName (readTwo aclName start issuer (.ok publicKeysUrl))
        (.plain (.getSecret aclName))
  | cacheSet {start : ℕ} {issuer publicKeysUrl : Secret} {entries : Except JsError Secret}
      (h : (readAclOf issuer publicKeysUrl entries).valid = true) :
      Follows aclName (readThree aclName start issuer publicKeysUrl entries)
        (.plain (.cacheSet aclName (readAclOf issuer publicKeysUrl entries)))
  | release {seen : Answered} {x : Except JsError Acl} (h : Read aclName seen x) :
      Follows aclName seen .release

/-- How a call ends: with what the cache answered, or with what it read. -/
def Finishes (aclName : String) (seen : Answered) (x : Except JsError Acl) : Prop :=
  (∃ acl, seen = [⟨.plain (.cacheGet aclName), some acl⟩] ∧ x = .ok acl) ∨
    ∃ seen', Read aclName seen' x ∧ seen = seen' ++ [⟨.release, ()⟩]

/-- The rest of the read, once the entries were answered. -/
theorem meets_store (aclName : String) (start : ℕ) (issuer publicKeysUrl : Secret)
    (entries : Except JsError Secret) :
    (plainly (do
      let acl : Acl := readAclOf issuer publicKeysUrl entries
      if acl.valid = true then
        Program.perform (Operation.cacheSet aclName acl)
      pure acl)).Meets (Follows aclName) (Read aclName)
      (readThree aclName start issuer publicKeysUrl entries) := by
  by_cases hvalid : (readAclOf issuer publicKeysUrl entries).valid = true
  · simp only [if_pos hvalid]
    exact ⟨.cacheSet hvalid, fun _ => .stored hvalid⟩
  · simp only [if_neg hvalid]
    exact .invalid (Bool.eq_false_iff.mpr hvalid)

theorem meets_getAclExclusive (aclName : String) (start : ℕ) :
    (plainly (getAclExclusive aclName)).Meets (Follows aclName) (Read aclName)
      (began aclName start) := by
  refine ⟨.issuer, fun issuer => ?_⟩
  rcases issuer with e | issuer
  · exact .noIssuer
  refine ⟨.publicKeysUrl, fun publicKeysUrl => ?_⟩
  rcases publicKeysUrl with e | publicKeysUrl
  · exact .noKeys
  refine ⟨.entries, fun entries => ?_⟩
  have hstore := meets_store aclName start issuer publicKeysUrl entries
  rcases entries with e | _ | text | ⟨text, value⟩
  · exact hstore
  · exact hstore
  · exact hstore
  · exact hstore

theorem meets_getAclOnce (aclName : String) :
    (getAclOnce aclName).Meets (Follows aclName) (Finishes aclName) [] := by
  refine Program.meets_perform .cacheGet fun cached => ?_
  rcases cached with _ | acl
  · exact Program.meets_runExclusive .acquire (fun start => meets_getAclExclusive aclName start)
      fun seen x h => ⟨.release h, fun _ => Or.inr ⟨seen, h, rfl⟩⟩
  · exact Program.meets_pure (Or.inl ⟨acl, rfl, rfl⟩)

/-- The operations a call does without the mutex. -/
def Free : LockedOperation → Prop
  | .plain (.cacheGet _) => True
  | _ => False

theorem Follows.held {aclName : String} {seen : Answered} {op : LockedOperation}
    (h : Follows aclName seen op) :
    mutex.sets op = some true ∨ mutex.Held seen = true ∨ Free op := by
  cases h with
  | cacheGet => exact Or.inr (Or.inr trivial)
  | acquire => exact Or.inl rfl
  | release h => cases h <;> exact Or.inr (Or.inl rfl)
  | _ => exact Or.inr (Or.inl rfl)

/-! ## What the cache holds -/

/-- The entries: lists with all their parts, kept for 600 seconds, read no later than the
mutex was last given away. -/
structure Entries (s : AclState) : Prop where
  sound : ∀ aclName e, s.cache aclName = some e → Acl.Sound e.value.acl
  kept : ∀ aclName e, s.cache aclName = some e →
    e = Entry.store e.value cacheExpirationTime e.storedAt
  started : ∀ aclName e, s.cache aclName = some e → e.value.startedAt ≤ s.readStart
  clock : s.readStart < s.clock

def IsSecret : LockedOperation → Prop
  | .plain (.getSecret _) => True
  | _ => False

/-- A call was given the mutex at this moment, and has only read secrets since. -/
def ReadingSince (seen : Answered) (start : ℕ) : Prop :=
  ∃ aclName rest, seen = missed aclName ++ ⟨.acquire, start⟩ :: rest ∧ ∀ x ∈ rest, IsSecret x.1

/-- What a call that is reading knows: it was the last to be given the mutex, and what is
cached was read before. -/
def Knows (s : AclState) (seen : Answered) : Prop :=
  ∀ start, ReadingSince seen start → start = s.readStart ∧
    ∀ name e, s.cache name = some e → e.value.startedAt < start

theorem mutex_sets_of_isSecret {op : LockedOperation} (h : IsSecret op) :
    mutex.sets op = none := by
  rcases op with _ | _ | op
  · exact h.elim
  · exact h.elim
  · rfl

theorem ReadingSince.held {seen : Answered} {start : ℕ} (h : ReadingSince seen start) :
    mutex.Held seen = true := by
  obtain ⟨aclName, rest, rfl, hrest⟩ := h
  have hkeep : ∀ rest : Answered, (∀ x ∈ rest, IsSecret x.1) →
      rest.foldl (fun held x => (mutex.sets x.1).getD held) true = true := by
    intro rest
    induction rest with
    | nil => exact fun _ => rfl
    | cons x rest ih =>
      intro hrest
      rw [List.foldl_cons, mutex_sets_of_isSecret (hrest x List.mem_cons_self)]
      exact ih fun y hy => hrest y (List.mem_cons_of_mem _ hy)
  exact hkeep rest hrest

/-- A call starts to read when it is given the mutex, and goes on only with secrets. -/
theorem ReadingSince.of_append {seen : Answered} {x : Sigma LockedOperation.Result} {start : ℕ}
    (h : ReadingSince (seen ++ [x]) start) :
    x = ⟨.acquire, start⟩ ∨ (IsSecret x.1 ∧ ReadingSince seen start) := by
  obtain ⟨aclName, rest, hseen, hrest⟩ := h
  rcases rest.eq_nil_or_concat with rfl | ⟨rest', y, rfl⟩
  · obtain ⟨-, hx⟩ := List.append_inj' hseen rfl
    exact Or.inl (List.singleton_inj.mp hx)
  · rw [List.concat_eq_append, ← List.cons_append, ← List.append_assoc] at hseen
    obtain ⟨hbefore, hx⟩ := List.append_inj' hseen rfl
    obtain rfl := List.singleton_inj.mp hx
    rw [List.concat_eq_append] at hrest
    refine Or.inr ⟨hrest x (by simp), aclName, rest', hbefore, fun z hz => hrest z ?_⟩
    exact List.mem_append_left _ hz

/-- Only sound lists are valid. -/
theorem sound_of_valid {issuer publicKeysUrl : Secret} {entries : Except JsError Secret}
    (h : (readAclOf issuer publicKeysUrl entries).valid = true) :
    Acl.Sound (readAclOf issuer publicKeysUrl entries) := by
  have hsound := validateAcl_iff.mp h
  exact ⟨h, hsound.issuer, hsound.publicKeysUrl, hsound.audience, hsound.appIds⟩

/-- What an operation other than a store leaves. -/
theorem Entries.keep {s s' : AclState} (h : Entries s) (hcache : s'.cache = s.cache)
    (hstart : s.readStart ≤ s'.readStart) (hclock : s'.readStart < s'.clock) : Entries s' where
  sound := hcache ▸ h.sound
  kept := hcache ▸ h.kept
  started := by
    rw [hcache]
    exact fun name e he => (h.started name e he).trans hstart
  clock := hclock

/-- What a store leaves: the new entry belongs to the last call that was given the mutex. -/
theorem Entries.store {s s' : AclState} (h : Entries s) {aclName : String} {acl : Acl}
    (hacl : acl.Sound)
    (hcache : s'.cache = s.cache.set aclName ⟨acl, s.readStart⟩ cacheExpirationTime s.now)
    (hstart : s'.readStart = s.readStart) (hclock : s'.readStart < s'.clock) : Entries s' := by
  -- an entry is the one that was stored, or an old one
  have hentry : ∀ name e, s'.cache name = some e →
      e = Entry.store ⟨acl, s.readStart⟩ cacheExpirationTime s.now ∨ s.cache name = some e := by
    intro name e he
    rw [hcache] at he
    by_cases hname : name = aclName
    · subst hname
      rw [TimedCache.set_self] at he
      exact Or.inl (Option.some.inj he).symm
    · rw [TimedCache.set_ne _ hname] at he
      exact Or.inr he
  refine ⟨?_, ?_, ?_, hclock⟩
  · intro name e he
    rcases hentry name e he with rfl | hold
    · exact hacl
    · exact h.sound name e hold
  · intro name e he
    rcases hentry name e he with rfl | hold
    · rfl
    · exact h.kept name e hold
  · intro name e he
    rw [hstart]
    rcases hentry name e he with rfl | hold
    · exact le_rfl
    · exact h.started name e hold

/-- **One step** of a call, while nobody else reads. -/
theorem Follows.step {aclName : String} {s : AclState} {seen : Answered} {op : LockedOperation}
    (hop : Follows aclName seen op) (hs : Entries s) (hknows : Knows s seen) :
    Entries (handle op s).2 ∧ Knows (handle op s).2 (seen ++ [⟨op, (handle op s).1⟩]) := by
  have hclock : s.readStart < s.clock + 1 := Nat.lt_succ_of_lt hs.clock
  -- a read goes on with the next secret
  have hsecret : ∀ name, Entries (handle (.plain (.getSecret name)) s).2 ∧
      Knows (handle (.plain (.getSecret name)) s).2
        (seen ++ [⟨.plain (.getSecret name), (handle (.plain (.getSecret name)) s).1⟩]) := by
    intro name
    refine ⟨hs.keep rfl le_rfl hclock, fun start hreading => ?_⟩
    rcases hreading.of_append with hx | ⟨-, hreading⟩
    · cases hx
    · exact hknows start hreading
  cases hop with
  | cacheGet =>
    refine ⟨hs.keep rfl le_rfl hclock, fun start hreading => ?_⟩
    rcases hreading.of_append with hx | ⟨hnot, -⟩
    · cases hx
    · exact hnot.elim
  | acquire =>
    refine ⟨hs.keep rfl hs.clock.le (Nat.lt_succ_self _), fun start hreading => ?_⟩
    rcases hreading.of_append with hx | ⟨hnot, -⟩
    · cases hx
      exact ⟨rfl, fun name e he => lt_of_le_of_lt (hs.started name e he) hs.clock⟩
    · exact hnot.elim
  | issuer => exact hsecret _
  | publicKeysUrl => exact hsecret _
  | entries => exact hsecret _
  | cacheSet hvalid =>
    refine ⟨hs.store (sound_of_valid hvalid) rfl rfl hclock, fun start hreading => ?_⟩
    rcases hreading.of_append with hx | ⟨hnot, -⟩
    · cases hx
    · exact hnot.elim
  | release hread =>
    refine ⟨hs.keep rfl le_rfl hclock, fun start hreading => ?_⟩
    rcases hreading.of_append with hx | ⟨hnot, -⟩
    · cases hx
    · exact hnot.elim

/-! ## All interleavings -/

variable {ι : Type} [DecidableEq ι]

abbrev Callers (ι : Type) : Type :=
  Pool ι LockedOperation LockedOperation.Result AclState JsError Acl

/-- One `getAcl` call for each name, all at their beginning. -/
def callers (names : ι → String) (s₀ : AclState) : Callers ι :=
  Pool.start (fun i => getAclOnce (names i)) s₀

/-- The mutex is given to one call at a time. -/
def Admitted (p : Callers ι) (_ : ι) (op : LockedOperation) : Prop := mutex.Admits p op

variable {names : ι → String} {s₀ : AclState} {p : Callers ι}
  {G : Callers ι → ι → LockedOperation → Prop}

theorem follows (hrun : Pool.Runs handle G (callers names s₀) p) {i : ι} {op : LockedOperation}
    {k : op.Result → Locked Acl} (hk : (p.threads i).prog = .call op k) :
    Follows (names i) (p.threads i).seen op :=
  hrun.allowed (fun i => meets_getAclOnce (names i)) hk

/-- While a call holds the mutex, the others only look up. -/
theorem only_holder (hG : ∀ p i op, G p i op → Admitted p i op)
    (hrun : Pool.Runs handle G (callers names s₀) p) {i j : ι} {op : LockedOperation}
    {k : op.Result → Locked Acl} (hj : mutex.Held (p.threads j).seen = true) (hop : G p i op)
    (hk : (p.threads i).prog = .call op k) : j = i ∨ Free op := by
  have hfree : ∀ op, Free op → mutex.sets op = none := by
    intro op h
    rcases op with _ | _ | op
    · exact h.elim
    · exact h.elim
    · rfl
  exact mutex.only_holder_steps hrun hG (fun i => meets_getAclOnce (names i)) hfree
    (fun _ _ _ h => h.held) hj hop hk

/-- **The invariant.** -/
theorem run_entries (h₀ : s₀.Fresh) (hG : ∀ p i op, G p i op → Admitted p i op)
    (hrun : Pool.Runs handle G (callers names s₀) p) :
    Entries p.shared ∧ ∀ i, Knows p.shared (p.threads i).seen := by
  refine hrun.invariant_reached
    (I := fun p => Entries p.shared ∧ ∀ i, Knows p.shared (p.threads i).seen) ⟨?_, ?_⟩ ?_
  · have hnone : ∀ {P : Prop} {name e}, s₀.cache name = some e → P := by
      intro P name e he
      rw [h₀.cache] at he
      cases he
    exact ⟨fun _ _ => hnone, fun _ _ => hnone, fun _ _ => hnone, h₀.readStart⟩
  · exact fun i start h => absurd h.held Bool.false_ne_true
  rintro p i op k hp ⟨hs, hknows⟩ hop hk
  obtain ⟨hs', hknows'⟩ := (follows hp hk).step hs (hknows i)
  refine ⟨hs', fun j => ?_⟩
  by_cases hj : j = i
  · subst hj
    rw [Pool.perform_threads_self]
    exact hknows'
  · rw [Pool.perform_threads_ne handle p hj]
    intro start hreading
    -- another call is reading, so this one only looked up
    have hfree := (only_holder hG hp hreading.held hop hk).resolve_left hj
    rcases op with _ | _ | (name | _ | _ | _)
    · exact hfree.elim
    · exact hfree.elim
    · exact hknows j start hreading
    · exact hfree.elim
    · exact hfree.elim
    · exact hfree.elim

/-! ## Cache safety -/

/-- A call that stored read every secret, and what it read is valid. -/
theorem Read.valid {aclName : String} {seen : Answered} {x : Except JsError Acl}
    (h : Read aclName seen x) {name : String} {acl : Acl}
    (hmem : (⟨.plain (.cacheSet name acl), ()⟩ : Sigma LockedOperation.Result) ∈ seen) :
    (∀ name e, (⟨.plain (.getSecret name), .error e⟩ : Sigma LockedOperation.Result) ∉ seen) ∧
      ∃ acl, x = .ok acl ∧ acl.valid = true := by
  cases h with
  | noIssuer => simp [readOne, began, missed] at hmem
  | noKeys => simp [readTwo, readOne, began, missed] at hmem
  | invalid => simp [readThree, readTwo, readOne, began, missed] at hmem
  | @stored start issuer publicKeysUrl entries hvalid =>
    refine ⟨fun name e herror => ?_, _, rfl, hvalid⟩
    simp [readThree, readTwo, readOne, began, missed] at herror
    obtain ⟨-, rfl⟩ := herror
    -- without entries the list has no audience
    have haudience := (sound_of_valid hvalid).audience
    cases haudience

/-- A call that has stored did not fail to read. -/
theorem stored_valid (hrun : Pool.Runs handle G (callers names s₀) p) {i : ι} {name : String}
    {acl : Acl}
    (hmem : (⟨.plain (.cacheSet name acl), ()⟩ : Sigma LockedOperation.Result) ∈
      (p.threads i).seen) :
    (∀ name e, (⟨.plain (.getSecret name), .error e⟩ : Sigma LockedOperation.Result) ∉
        (p.threads i).seen) ∧
      (∀ e, (p.threads i).prog ≠ .throw e) ∧ ∀ acl, (p.threads i).prog = .pure acl →
        acl.valid = true := by
  have hmeets := hrun.meets (fun i => meets_getAclOnce (names i)) i
  have hfinishes : ∀ {x}, Finishes (names i) (p.threads i).seen x →
      (∀ name e, (⟨.plain (.getSecret name), .error e⟩ : Sigma LockedOperation.Result) ∉
        (p.threads i).seen) ∧ ∃ acl, x = .ok acl ∧ acl.valid = true := by
    -- it was served and read nothing, or it read what it returns
    rintro x (⟨acl, hseen, -⟩ | ⟨seen', hread, hseen⟩)
    · rw [hseen] at hmem
      simp at hmem
    · rw [hseen] at hmem ⊢
      obtain ⟨hsecrets, hvalid⟩ := hread.valid (by simpa using hmem)
      exact ⟨fun name e => by simpa using hsecrets name e, hvalid⟩
  rcases hprog : (p.threads i).prog with acl' | e | ⟨op, k⟩
  · rw [hprog] at hmeets
    obtain ⟨hsecrets, acl, hacl, hvalid⟩ := hfinishes hmeets
    cases hacl
    refine ⟨hsecrets, nofun, fun acl hacl => ?_⟩
    cases hacl
    exact hvalid
  · rw [hprog] at hmeets
    obtain ⟨-, acl, hacl, -⟩ := hfinishes hmeets
    cases hacl
  · refine ⟨?_, nofun, nofun⟩
    -- only the release is left to a call that has stored
    have hfollows := follows hrun hprog
    generalize (p.threads i).seen = seen at hfollows hmem
    cases hfollows with
    | release h => exact (h.valid hmem).1
    | _ => simp [readThree, readTwo, readOne, began, missed] at hmem

/-- What a call was answered from the cache has all its parts. -/
theorem served_sound (h₀ : s₀.Fresh) (hG : ∀ p i op, G p i op → Admitted p i op)
    (hrun : Pool.Runs handle G (callers names s₀) p) {i : ι} {name : String} {acl : Acl}
    (hmem : (⟨.plain (.cacheGet name), some acl⟩ : Sigma LockedOperation.Result) ∈
      (p.threads i).seen) : acl.Sound := by
  revert i name acl
  refine hrun.invariant_reached (I := fun p => ∀ {i : ι} {name : String} {acl : Acl},
    (⟨.plain (.cacheGet name), some acl⟩ : Sigma LockedOperation.Result) ∈ (p.threads i).seen →
    acl.Sound) ?_ ?_
  · intro i name acl hmem
    exact absurd hmem List.not_mem_nil
  intro p i op k hp hinv _ hk j name acl hmem
  by_cases hj : j = i
  · subst hj
    rw [Pool.perform_threads_self] at hmem
    rcases List.mem_append.mp hmem with hmem | hmem
    · exact hinv hmem
    · have heq := List.mem_singleton.mp hmem
      rcases op with _ | _ | (name' | _ | _ | _)
      · simp at heq
      · simp at heq
      · -- the look up: the entry is sound
        simp only [Sigma.mk.injEq, LockedOperation.plain.injEq, Operation.cacheGet.injEq] at heq
        obtain ⟨rfl, hget⟩ := heq
        obtain ⟨c, hc, rfl⟩ := Option.map_eq_some_iff.mp (eq_of_heq hget).symm
        obtain ⟨e, he, -, rfl⟩ := TimedCache.get_eq_some hc
        exact (run_entries h₀ hG hp).1.sound name e he
      · simp at heq
      · simp at heq
      · simp at heq
  · rw [Pool.perform_threads_ne handle p hj] at hmem
    exact hinv hmem

/-- **The cache of access control lists is safe**, in every interleaving and whatever the
key vault answers.

* Every entry has all its parts, and so has everything that is served from the cache.
* A store replaces an entry only by one whose read started later.
* An entry is served for 600 seconds at most.
* A call that failed to read, or read an invalid list, stored nothing; and nothing but a
  store changes the cache.
-/
theorem getAcl_cacheSafe (h₀ : s₀.Fresh)
    (hrun : Pool.Runs handle Admitted (callers names s₀) p) :
    ((∀ name e, p.shared.cache name = some e → Acl.Sound e.value.acl) ∧
      ∀ i name acl, (⟨.plain (.cacheGet name), some acl⟩ : Sigma LockedOperation.Result) ∈
        (p.threads i).seen → acl.Sound) ∧
    (∀ i name acl k e, (p.threads i).prog = .call (.plain (.cacheSet name acl)) k →
      p.shared.cache name = some e →
      ∃ start, (⟨.acquire, start⟩ : Sigma LockedOperation.Result) ∈ (p.threads i).seen ∧
        e.value.startedAt < start ∧
        (handle (.plain (.cacheSet name acl)) p.shared).2.cache name =
          some (Entry.store ⟨acl, start⟩ 600 p.shared.now)) ∧
    (∀ name acl, (handle (.plain (.cacheGet name)) p.shared).1 = some acl →
      ∃ e, p.shared.cache name = some e ∧ e.value.acl = acl ∧
        (handle (.plain (.cacheGet name)) p.shared).2.now ≤ e.storedAt + 600 * 1000) ∧
    ((∀ i, ((∃ name e, (⟨.plain (.getSecret name), .error e⟩ : Sigma LockedOperation.Result) ∈
          (p.threads i).seen) ∨ (∃ e, (p.threads i).prog = .throw e) ∨
          ∃ acl, (p.threads i).prog = .pure acl ∧ acl.valid = false) →
        ∀ name acl, (⟨.plain (.cacheSet name acl), ()⟩ : Sigma LockedOperation.Result) ∉
          (p.threads i).seen) ∧
      ∀ op s, (∀ name acl, op ≠ .plain (.cacheSet name acl)) →
        (handle op s).2.cache = s.cache) := by
  obtain ⟨hentries, hknows⟩ := run_entries h₀ (fun _ _ _ h => h) hrun
  refine ⟨⟨hentries.sound, fun i name acl => served_sound h₀ (fun _ _ _ h => h) hrun⟩, ?_, ?_, ?_,
    fun op s h => handle_cache h s⟩
  · intro i name acl k e hk he
    obtain ⟨start, hmem, hreading⟩ : ∃ start,
        (⟨.acquire, start⟩ : Sigma LockedOperation.Result) ∈ (p.threads i).seen ∧
        ReadingSince (p.threads i).seen start := by
      -- the call that is about to store is the one that is reading
      have hfollows := follows hrun hk
      generalize (p.threads i).seen = seen at hfollows
      cases hfollows with
      | @cacheSet start issuer publicKeysUrl entries hvalid =>
        refine ⟨start, by simp [readThree, readTwo, readOne, began], names i, _, rfl, ?_⟩
        simp [IsSecret]
    obtain ⟨hstart, hbefore⟩ := hknows i start hreading
    refine ⟨start, hmem, hbefore name e he, ?_⟩
    rw [hstart]
    exact TimedCache.set_self p.shared.cache name _ _ _
  · intro name acl hget
    obtain ⟨c, hc, rfl⟩ := Option.map_eq_some_iff.mp hget
    obtain ⟨e, he, hlive, rfl⟩ := TimedCache.get_eq_some hc
    refine ⟨e, he, rfl, ?_⟩
    -- every entry was stored for 600 seconds
    rw [hentries.kept name e he] at hlive
    exact Entry.live_store (by decide) hlive
  · intro i hfailed name acl hmem
    obtain ⟨hsecrets, hthrow, hvalid⟩ := stored_valid hrun hmem
    rcases hfailed with ⟨name', e, herror⟩ | ⟨e, he⟩ | ⟨acl', hpure, hinvalid⟩
    · exact hsecrets name' e herror
    · exact hthrow e he
    · rw [hvalid acl' hpure] at hinvalid
      cases hinvalid

/-! ### Two calls for one list -/

/-- A new provider, over a key vault that answers each read in a second; the eighth wait, that
of the second call once the first one has ended, may be longer. -/
def sampleState (pause : ℕ) : AclState where
  cache := fun _ => none
  locked := false
  now := 0
  clock := 1
  readStart := 0
  pauses := fun n => if n = 8 then pause else 1000
  secret := (sampleWorld listedSecret).secret
  verify := (sampleWorld listedSecret).verify

theorem fresh_sampleState (pause : ℕ) : (sampleState pause).Fresh :=
  ⟨fun _ => rfl, Nat.zero_lt_one⟩

def sampleNames : Fin 2 → String := fun _ => "aclApiReadAll"

/-- The calls took their turns in this order, where the mutex admitted them. -/
def samplePool (schedule : List (Fin 2)) : Callers (Fin 2) :=
  (callers sampleNames (sampleState 1000)).playIf handle mutex.admits schedule

theorem runs_samplePool (schedule : List (Fin 2)) :
    Pool.Runs handle Admitted (callers sampleNames (sampleState 1000)) (samplePool schedule) :=
  Pool.runs_playIf handle (fun _ _ _ h => mutex.admits_of_admits h) _ schedule

/-- The second call is served what the first one has stored. -/
theorem getAcl_cacheSafe_sample :
    ∃ acl e, (handle (.plain (.cacheGet "aclApiReadAll"))
        (samplePool [0, 0, 0, 0, 0, 0]).shared).1 = some acl ∧
      (samplePool [0, 0, 0, 0, 0, 0]).shared.cache "aclApiReadAll" = some e ∧
      e.value.acl = acl ∧ acl.Sound ∧
      (handle (.plain (.cacheGet "aclApiReadAll")) (samplePool [0, 0, 0, 0, 0, 0]).shared).2.now ≤
        e.storedAt + 600 * 1000 := by
  obtain ⟨⟨hsound, -⟩, -, hserved, -⟩ :=
    getAcl_cacheSafe (fresh_sampleState 1000) (runs_samplePool [0, 0, 0, 0, 0, 0])
  obtain ⟨acl, hget⟩ : ∃ acl, (handle (.plain (.cacheGet "aclApiReadAll"))
      (samplePool [0, 0, 0, 0, 0, 0]).shared).1 = some acl :=
    Option.isSome_iff_exists.mp (by decide +kernel)
  obtain ⟨e, he, hacl, hnow⟩ := hserved "aclApiReadAll" acl hget
  exact ⟨acl, e, hget, he, hacl, hacl ▸ hsound _ e he, hnow⟩

end AclCache

end WebInsights.Auth
