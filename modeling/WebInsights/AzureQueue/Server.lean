/-
The queue service.

Of Azure only this is used: a receive hides messages for a time, counts them up and gives
them a new pop receipt; a delete needs the pop receipt of the last receive; a message gets
an id of its own when it is sent; and no message expires. Which messages a receive picks,
which visibility timeouts have passed and which calls fail, before or after they took
effect, is decided by a stream of choices, so that every behaviour is that of some stream.

The server remembers, for no answer, where a message comes from (`origin`) and which
messages a consumer deleted (`consumed`). The lemmas say once what an operation does to the
messages a queue holds.
-/
import Mathlib.Logic.Function.Iterate
import WebInsights.AzureQueue.Queue

set_option autoImplicit false

namespace WebInsights.AzureQueue

open Effect Js Queue

structure QueueMessage where
  messageId : ℕ
  messageText : String
  dequeueCount : ℕ
  popReceipt : ℕ
  visible : Bool
  deriving DecidableEq

/-- How a call goes. -/
inductive Fate where
  | succeeds
  /-- The response to a send has no message id. -/
  | unconfirmed
  | failsBefore
  | failsAfter
  deriving DecidableEq

/-- What the service and the network decide about one operation.

* `timeouts`: the messages whose visibility timeout has passed by then.
* `picks`: the ids a receive considers, in its order.
-/
structure Choice where
  fate : Fate
  timeouts : ℕ → Bool
  picks : List ℕ

/-- A message as it was created: its queue, its id there and its text. -/
structure Origin where
  queue : String
  messageId : ℕ
  text : String
  deriving DecidableEq

structure Server where
  queues : String → List QueueMessage
  /-- The next message id, and the next pop receipt. -/
  nextId : ℕ
  visibilityTimeout : ℕ
  choices : ℕ → Choice
  clock : ℕ
  origin : ℕ → Origin
  consumed : List Origin

namespace Server

def choice (s : Server) : Choice := s.choices s.clock

/-- Time passes until the next operation. -/
def tick (s : Server) : Server where
  queues := fun q => (s.queues q).map fun m =>
    if s.choice.timeouts m.messageId then { m with visible := true } else m
  nextId := s.nextId
  visibilityTimeout := s.visibilityTimeout
  choices := s.choices
  clock := s.clock + 1
  origin := s.origin
  consumed := s.consumed

/-- The messages a receive takes: visible ones among the picked, at most so many. -/
def taken (s : Server) (picks : List ℕ) (q : String) (n : ℕ) : List QueueMessage :=
  (picks.dedup.filterMap fun id =>
    (s.queues q).find? fun m => m.messageId = id ∧ m.visible).take n

/-- A message that was taken. -/
def take (receipt : ℕ) (m : QueueMessage) : QueueMessage where
  messageId := m.messageId
  messageText := m.messageText
  dequeueCount := m.dequeueCount + 1
  popReceipt := receipt
  visible := false

def item (m : QueueMessage) : DequeuedMessageItem :=
  ⟨m.messageId, m.messageText, m.popReceipt, m.dequeueCount⟩

def received (s : Server) (picks : List ℕ) (q : String) (n : ℕ) : List DequeuedMessageItem :=
  (s.taken picks q n).map fun m => item (take s.nextId m)

def receive (s : Server) (picks : List ℕ) (q : String) (n : ℕ) : Server :=
  { s with
    queues := Function.update s.queues q
      ((s.queues q).map fun m => if m ∈ s.taken picks q n then take s.nextId m else m)
    nextId := s.nextId + 1 }

/-- The origin of a message that is sent now. -/
def originOf (s : Server) (q text : String) : Option ℕ → Origin
  | none => ⟨q, s.nextId, text⟩
  | some id => s.origin id

def send (s : Server) (q text : String) (copyOf : Option ℕ) : Server :=
  { s with
    queues := Function.update s.queues q (s.queues q ++ [⟨s.nextId, text, 0, s.nextId, true⟩])
    nextId := s.nextId + 1
    origin := Function.update s.origin s.nextId (s.originOf q text copyOf) }

def hasReceipt (id : ℕ) (receipt : Option ℕ) (m : QueueMessage) : Bool :=
  m.messageId = id ∧ some m.popReceipt = receipt

def delete (s : Server) (q : String) (id : ℕ) (receipt : Option ℕ) (purpose : Purpose) : Server :=
  { s with
    queues := Function.update s.queues q ((s.queues q).filter fun m => ¬ hasReceipt id receipt m)
    consumed := if purpose = .consumed then s.origin id :: s.consumed else s.consumed }

/-- A request that arrives. -/
def serve (picks : List ℕ) : (op : QueueOperation) → Server → op.Result × Server
  | .getQueueClient _, s => (.ok (), s)
  | .getQueueConfig, s => (.ok s.visibilityTimeout, s)
  | .createIfNotExists _, s => (.ok (), s)
  | .receiveMessages q n _, s =>
    if 1 ≤ n ∧ n ≤ 32 then (.ok (s.received picks q n.toNat), s.receive picks q n.toNat)
    else (.error (.rest "OutOfRangeQueryParameterValue"), s)
  | .sendMessage q text copyOf, s => (.ok (some s.nextId), s.send q text copyOf)
  | .deleteMessage q id receipt purpose, s =>
    if (s.queues q).any (hasReceipt id receipt) then (.ok (), s.delete q id receipt purpose)
    else (.error (.rest "PopReceiptMismatch"), s)

/-- The answer to a request whose response has no message id. -/
def unconfirm : (op : QueueOperation) → op.Result → op.Result
  | .sendMessage _ _ _, .ok _ => .ok none
  | _, r => r

def handle : Handler QueueOperation QueueOperation.Result Server := fun op s =>
  let served := serve s.choice.picks op s.tick
  match s.choice.fate with
  | .succeeds => served
  | .unconfirmed => (unconfirm op served.1, served.2)
  | .failsBefore => (.error (.rest "ServerBusy"), s.tick)
  | .failsAfter => (.error (.rest "RequestTimeout"), served.2)

/-! ## What a queue holds -/

/-- The queue holds a message with this id and text. -/
def Holds (s : Server) (q : String) (id : ℕ) (text : String) : Prop :=
  ∃ m ∈ s.queues q, m.messageId = id ∧ m.messageText = text

/-- The state before and after differ in no message's id and text, and in no origin. -/
structure SameMessages (s s' : Server) : Prop where
  holds : ∀ q id text, s'.Holds q id text ↔ s.Holds q id text
  nextId : s.nextId ≤ s'.nextId
  origin : s'.origin = s.origin
  consumed : s'.consumed = s.consumed

/-- To rewrite the messages of one queue without touching ids and texts leaves what it
holds. -/
theorem holds_map {s : Server} {q : String} {f : QueueMessage → QueueMessage}
    (hid : ∀ m, (f m).messageId = m.messageId) (htext : ∀ m, (f m).messageText = m.messageText)
    {id : ℕ} {text : String} :
    (∃ m ∈ (s.queues q).map f, m.messageId = id ∧ m.messageText = text) ↔ s.Holds q id text := by
  unfold Holds
  simp only [List.mem_map, exists_exists_and_eq_and, hid, htext]

theorem sameMessages_tick (s : Server) : SameMessages s s.tick where
  holds := fun q id text => by
    apply holds_map
    · intro m
      split <;> rfl
    · intro m
      split <;> rfl
  nextId := le_rfl
  origin := rfl
  consumed := rfl

theorem sameMessages_receive (s : Server) (picks : List ℕ) (q : String) (n : ℕ) :
    SameMessages s (s.receive picks q n) where
  holds := fun q' id text => by
    by_cases hq : q' = q
    · subst hq
      unfold Holds receive
      simp only [Function.update_self]
      apply holds_map
      · intro m
        split <;> rfl
      · intro m
        split <;> rfl
    · unfold Holds receive
      simp only [Function.update_of_ne hq]
  nextId := Nat.le_succ _
  origin := rfl
  consumed := rfl

theorem holds_send (s : Server) (q text : String) (copyOf : Option ℕ) (q' : String) (id : ℕ)
    (text' : String) :
    (s.send q text copyOf).Holds q' id text' ↔
      s.Holds q' id text' ∨ (q' = q ∧ id = s.nextId ∧ text' = text) := by
  unfold Holds send
  by_cases hq : q' = q
  · subst hq
    simp only [Function.update_self, List.mem_append, List.mem_singleton, or_and_right, exists_or,
      exists_eq_left, true_and]
    refine or_congr Iff.rfl ⟨fun h => ⟨h.1.symm, h.2.symm⟩, fun h => ⟨h.1.symm, h.2.symm⟩⟩
  · simp only [Function.update_of_ne hq, hq, false_and, or_false]

/-- A delete takes away nothing but the message it names. -/
theorem holds_delete {s : Server} {q : String} {id : ℕ} {receipt : Option ℕ} {purpose : Purpose}
    {q' : String} {id' : ℕ} {text : String} :
    ((s.delete q id receipt purpose).Holds q' id' text → s.Holds q' id' text) ∧
      (s.Holds q' id' text → (s.delete q id receipt purpose).Holds q' id' text ∨
        (q' = q ∧ id' = id)) := by
  unfold Holds delete
  by_cases hq : q' = q
  · subst hq
    simp only [Function.update_self, List.mem_filter]
    constructor
    · rintro ⟨m, ⟨hm, -⟩, hid, htext⟩
      exact ⟨m, hm, hid, htext⟩
    · rintro ⟨m, hm, rfl, htext⟩
      by_cases hreceipt : hasReceipt id receipt m = true
      · simp only [hasReceipt, decide_eq_true_eq] at hreceipt
        exact Or.inr ⟨trivial, hreceipt.1⟩
      · exact Or.inl ⟨m, ⟨hm, by simpa using hreceipt⟩, rfl, htext⟩
  · simp only [Function.update_of_ne hq]
    exact ⟨fun h => h, Or.inl⟩

/-- What a receive answers, the queue held. -/
theorem mem_receive {s : Server} {picks : List ℕ} {q : String} {n : ℕ} {x : DequeuedMessageItem}
    (h : x ∈ s.received picks q n) :
    ∃ m ∈ s.queues q, x = item (take s.nextId m) ∧ m ∈ s.taken picks q n := by
  obtain ⟨m, hm, rfl⟩ := List.mem_map.mp h
  have hfound := List.mem_of_mem_take hm
  obtain ⟨id, -, hfind⟩ := List.mem_filterMap.mp hfound
  exact ⟨m, List.mem_of_find?_eq_some hfind, rfl, hm⟩

/-! ## One operation -/

/-- What an operation does to the messages, to their origins and to what consumers
deleted. -/
inductive Performs (s : Server) : QueueOperation → Server → Prop
  | same {op : QueueOperation} {s' : Server} (h : SameMessages s s') : Performs s op s'
  | sent {q text : String} {copyOf : Option ℕ} {s₁ s' : Server} (h₁ : SameMessages s s₁)
      (h : s' = s₁.send q text copyOf) : Performs s (.sendMessage q text copyOf) s'
  | deleted {q : String} {id : ℕ} {receipt : Option ℕ} {purpose : Purpose} {s₁ s' : Server}
      (h₁ : SameMessages s s₁) (h : s' = s₁.delete q id receipt purpose) :
      Performs s (.deleteMessage q id receipt purpose) s'

theorem performs_serve (picks : List ℕ) (op : QueueOperation) {s s₁ : Server}
    (h₁ : SameMessages s s₁) : Performs s op (serve picks op s₁).2 := by
  -- what takes a message away or adds one is told apart; the rest keeps them
  cases op with
  | getQueueClient q => exact .same h₁
  | getQueueConfig => exact .same h₁
  | createIfNotExists q => exact .same h₁
  | sendMessage q text copyOf => exact .sent h₁ rfl
  | receiveMessages q n timeout =>
    by_cases hn : 1 ≤ n ∧ n ≤ 32
    · simp only [serve, if_pos hn]
      have h₂ := sameMessages_receive s₁ picks q n.toNat
      exact .same ⟨fun q' id text => (h₂.holds q' id text).trans (h₁.holds q' id text),
        h₁.nextId.trans h₂.nextId, h₂.origin.trans h₁.origin, h₂.consumed.trans h₁.consumed⟩
    · simp only [serve, if_neg hn]
      exact .same h₁
  | deleteMessage q id receipt purpose =>
    by_cases hany : (s₁.queues q).any (hasReceipt id receipt) = true
    · simp only [serve, if_pos hany]
      exact .deleted h₁ rfl
    · simp only [serve, if_neg hany]
      exact .same h₁

/-- **What one operation can do**, whichever way it goes. -/
theorem performs_handle (op : QueueOperation) (s : Server) : Performs s op (handle op s).2 := by
  have hserved := performs_serve s.choice.picks op (sameMessages_tick s)
  unfold handle
  rcases s.choice.fate with _ | _ | _ | _
  · exact hserved
  · exact hserved
  · exact .same (sameMessages_tick s)
  · exact hserved

/-- What an operation resolves to came of serving it. -/
theorem handle_ok {op : QueueOperation} {s : Server} {v : op.Value}
    (h : (handle op s).1 = .ok v) :
    (handle op s).2 = (serve s.choice.picks op s.tick).2 ∧
      ((serve s.choice.picks op s.tick).1 = .ok v ∨
        unconfirm op (serve s.choice.picks op s.tick).1 = .ok v) := by
  unfold handle at h ⊢
  rcases hfate : s.choice.fate with _ | _ | _ | _
  · simp only [hfate] at h
    exact ⟨rfl, Or.inl h⟩
  · simp only [hfate] at h
    exact ⟨rfl, Or.inr h⟩
  · simp only [hfate] at h
    cases h
  · simp only [hfate] at h
    cases h

/-- A send that was confirmed with an id took place, under that id. -/
theorem handle_send {q text : String} {copyOf : Option ℕ} {s : Server} {id : ℕ}
    (h : (handle (.sendMessage q text copyOf) s).1 = .ok (some id)) :
    id = s.nextId ∧ (handle (.sendMessage q text copyOf) s).2 = s.tick.send q text copyOf := by
  obtain ⟨hstate, hok | hok⟩ := handle_ok h
  · exact ⟨(Option.some.inj (Except.ok.inj hok)).symm, hstate⟩
  · cases hok

/-- What a receive resolves to are messages the queue held, counted up by one. -/
theorem handle_receive {q : String} {n : ℤ} {timeout : ℕ} {s : Server}
    {items : List DequeuedMessageItem}
    (h : (handle (.receiveMessages q n timeout) s).1 = .ok items) :
    items = s.tick.received s.choice.picks q n.toNat ∧
      (handle (.receiveMessages q n timeout) s).2 = s.tick.receive s.choice.picks q n.toNat := by
  obtain ⟨hstate, hok⟩ := handle_ok h
  have hok : (serve s.choice.picks (.receiveMessages q n timeout) s.tick).1 = .ok items :=
    hok.elim id id
  by_cases hn : 1 ≤ n ∧ n ≤ 32
  · simp only [serve, if_pos hn] at hok hstate
    exact ⟨(Except.ok.inj hok).symm, hstate⟩
  · simp only [serve, if_neg hn] at hok
    cases hok

end Server

end WebInsights.AzureQueue
