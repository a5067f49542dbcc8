/-
`AclProvider` with its mutex and its clock.

`getAcl` looks into the cache at once and, on a miss, waits for the one mutex of the
provider; the read of the three secrets and the store are `getAclExclusive` as it stands,
run under the mutex. Time passes until a call begins, while it waits and while the key
vault answers. The provider's state notes, for no answer, when the lock was last given
away: that is when the read of its holder starts.
-/
import WebInsights.Auth.Soundness
import WebInsights.Data.TimedCache
import WebInsights.Effect.Mutex

set_option autoImplicit false

namespace WebInsights.Auth

open Data Effect Js
open Cosmos (JsError)

/-- The operations of the provider, and those of its mutex. -/
inductive LockedOperation where
  | acquire
  | release
  | plain (op : Operation)

/-- What an operation is answered; who takes the mutex is told when. -/
abbrev LockedOperation.Result : LockedOperation → Type
  | .acquire => ℕ
  | .release => Unit
  | .plain op => op.Result

abbrev Locked (α : Type) : Type := Program LockedOperation LockedOperation.Result JsError α

/-- A method that does not touch the mutex. -/
def plainly {α : Type} : AsyncAuth α → Locked α
  | .pure a => .pure a
  | .throw e => .throw e
  | .call op k => .call (.plain op) fun r => plainly (k r)

namespace AclProvider

def cacheExpirationTime : ℤ := 600

/-- `getAclExclusive` under the mutex. -/
def getAclLocked (aclName : String) : Locked Acl :=
  Program.runExclusive .acquire .release (plainly (getAclExclusive aclName))

def getAclOnce (aclName : String) : Locked Acl := do
  let cachedAcl ← Program.perform (LockedOperation.plain (.cacheGet aclName))
  match cachedAcl with
  | some acl => pure acl
  | none => getAclLocked aclName

/-- What a method does to everything but the mutex. -/
def unlocked {α : Type} : Locked α → AsyncAuth α
  | .pure a => .pure a
  | .throw e => .throw e
  | .call .acquire k => unlocked (k 0)
  | .call .release k => unlocked (k ())
  | .call (.plain op) k => .call op fun r => unlocked (k r)

theorem unlocked_runExclusive {α : Type} (body : AsyncAuth α) :
    unlocked (Program.runExclusive .acquire .release (plainly body)) = body := by
  have hbody : ∀ body : AsyncAuth α, unlocked ((plainly body).settle >>= fun r =>
      (do
        let _ ← Program.perform LockedOperation.release
        Program.ofExcept r : Locked α)) = body := by
    intro body
    induction body with
    | pure a => rfl
    | throw e => rfl
    | call op k ih => exact congrArg (Program.call op) (funext fun r => ih r)
  exact hbody body

/-- But for the mutex, the provider is the one that the access decision reads. -/
theorem unlocked_getAclOnce (aclName : String) :
    unlocked (getAclOnce aclName) = getAcl aclName := by
  refine congrArg (Program.call (Operation.cacheGet aclName)) (funext fun cached => ?_)
  cases cached with
  | some acl => rfl
  | none => exact unlocked_runExclusive _

end AclProvider

/-! ## The cache, the mutex, the clock and the key vault -/

/-- A cached list, with the moment its read started. -/
structure CachedAcl where
  acl : Acl
  startedAt : ℕ

/-- The state the callers of one provider share.

* `clock`: how many operations there were.
* `readStart`: the moment the mutex was last given away.
* `pauses n`: how long the wait before the `n`-th operation takes.
* `secret n name`: what the key vault answers at the `n`-th operation.
-/
structure AclState where
  cache : TimedCache String CachedAcl
  locked : Bool
  now : ℤ
  clock : ℕ
  readStart : ℕ
  pauses : ℕ → ℕ
  secret : ℕ → String → Except JsError Secret
  verify : ℕ → String → VerifyOptions → Except JsError Val

namespace AclState

/-- One more operation, at once. -/
def tick (s : AclState) : AclState := { s with clock := s.clock + 1 }

/-- One more operation, after a wait. -/
def wait (s : AclState) : AclState := { s.tick with now := s.now + s.pauses s.clock }

def handle : Handler LockedOperation LockedOperation.Result AclState
  | .acquire, s => (s.clock, { s.wait with locked := true, readStart := s.clock })
  | .release, s => ((), { s.tick with locked := false })
  | .plain (.cacheGet aclName), s =>
    ((s.cache.get aclName s.wait.now).map CachedAcl.acl, s.wait)
  | .plain (.cacheSet aclName acl), s =>
    ((), { s.tick with
      cache := s.cache.set aclName ⟨acl, s.readStart⟩ AclProvider.cacheExpirationTime s.now })
  | .plain (.getSecret name), s => (s.secret s.clock name, s.wait)
  | .plain (.verifyToken token options), s => (s.verify s.clock token options, s.wait)

/-- The mutex of a provider. -/
def mutex : Lock handle where
  sets
    | .acquire => some true
    | .release => some false
    | .plain _ => none
  locked := locked
  locked_handle := by
    intro op s
    rcases op with _ | _ | (_ | _ | _ | _) <;> rfl

/-- Only a store changes the cache. -/
theorem handle_cache {op : LockedOperation} (h : ∀ aclName acl, op ≠ .plain (.cacheSet aclName acl))
    (s : AclState) : (handle op s).2.cache = s.cache := by
  rcases op with _ | _ | (_ | ⟨aclName, acl⟩ | _ | _)
  · rfl
  · rfl
  · rfl
  · exact absurd rfl (h aclName acl)
  · rfl
  · rfl

/-- Time does not go back. -/
theorem now_handle (op : LockedOperation) (s : AclState) : s.now ≤ (handle op s).2.now := by
  have hwait : s.now ≤ s.wait.now := Int.le_add_of_nonneg_right (Int.natCast_nonneg _)
  rcases op with _ | _ | (_ | _ | _ | _)
  · exact hwait
  · exact Int.le_refl _
  · exact hwait
  · exact Int.le_refl _
  · exact hwait
  · exact hwait

/-- A provider that was just made. -/
structure Fresh (s : AclState) : Prop where
  cache : ∀ aclName, s.cache aclName = none
  readStart : s.readStart < s.clock

end AclState

end WebInsights.Auth
