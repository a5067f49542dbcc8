/-
Which messages are dead-lettered, and with what text.

The server counts a message up when it is received, and the caller learns of it only if
its whole call completes. So a message that is moved was received before, by this run or
before it, and the call that took it first returned it, failed, or has not completed. That
is what the run lemma carries: a message that is counted up was so from the beginning, or
some receive of the run was carried out that took it for the first time.

The text of a message that was moved is its text in the queue, encoded once more.
-/
import WebInsights.AzureQueue.Delivery

set_option autoImplicit false

namespace WebInsights.AzureQueue

open Effect Js Queue

namespace Server

/-- Time counts no message up. -/
theorem mem_tick {s : Server} {q : String} {m : QueueMessage} (h : m ∈ s.tick.queues q) :
    ∃ m₀ ∈ s.queues q, m₀.messageId = m.messageId ∧ m₀.dequeueCount = m.dequeueCount := by
  obtain ⟨m₀, hm₀, rfl⟩ := List.mem_map.mp h
  refine ⟨m₀, hm₀, ?_⟩
  split <;> exact ⟨rfl, rfl⟩

/-- What a served request leaves in a queue: what was there, a new message, and what a receive
took. -/
theorem mem_serve {s : Server} {picks : List ℕ} {op : QueueOperation} {q : String}
    {m : QueueMessage} (h : m ∈ (serve picks op s).2.queues q) :
    m ∈ s.queues q ∨ m.dequeueCount = 0 ∨
      ∃ n timeout, op = .receiveMessages q n timeout ∧ (1 ≤ n ∧ n ≤ 32) ∧
        ∃ m₀ ∈ s.taken picks q n.toNat, m = take s.nextId m₀ := by
  cases op with
  | getQueueClient _ => exact Or.inl h
  | getQueueConfig => exact Or.inl h
  | createIfNotExists _ => exact Or.inl h
  | sendMessage q' text copyOf =>
    by_cases hq : q = q'
    · subst hq
      simp only [serve, send, Function.update_self] at h
      rcases List.mem_append.mp h with h | h
      · exact Or.inl h
      · obtain rfl := List.mem_singleton.mp h
        exact Or.inr (Or.inl rfl)
    · simp only [serve, send, Function.update_of_ne hq] at h
      exact Or.inl h
  | deleteMessage q' id receipt purpose =>
    left
    by_cases hany : (s.queues q').any (hasReceipt id receipt) = true
    · simp only [serve, if_pos hany] at h
      by_cases hq : q = q'
      · subst hq
        simp only [delete, Function.update_self] at h
        -- what is left after a delete was there before
        exact (List.mem_filter.mp h).1
      · simpa only [delete, Function.update_of_ne hq] using h
    · simpa only [serve, if_neg hany] using h
  | receiveMessages q' n timeout =>
    by_cases hn : 1 ≤ n ∧ n ≤ 32
    · simp only [serve, if_pos hn] at h
      by_cases hq : q = q'
      · subst hq
        simp only [receive, Function.update_self] at h
        obtain ⟨m₀, hm₀, rfl⟩ := List.mem_map.mp h
        by_cases htaken : m₀ ∈ s.taken picks q n.toNat
        · rw [if_pos htaken]
          exact Or.inr (Or.inr ⟨n, timeout, rfl, hn, m₀, htaken, rfl⟩)
        · rw [if_neg htaken]
          exact Or.inl hm₀
      · simp only [receive, Function.update_of_ne hq] at h
        exact Or.inl h
    · simp only [serve, if_neg hn] at h
      exact Or.inl h

/-- The operation takes the message out of the queue: it is a receive that is carried out,
whatever becomes of its answer, and the message is among those it takes. -/
def Takes (s : Server) (op : QueueOperation) (q : String) (m : QueueMessage) : Prop :=
  ∃ n timeout, op = .receiveMessages q n timeout ∧ (1 ≤ n ∧ n ≤ 32) ∧
    s.choice.fate ≠ .failsBefore ∧ m ∈ s.tick.taken s.choice.picks q n.toNat

/-- What is taken is in the queue. -/
theorem Takes.mem_queue {s : Server} {op : QueueOperation} {q : String} {m : QueueMessage}
    (h : s.Takes op q m) :
    ∃ m₀ ∈ s.queues q, m₀.messageId = m.messageId ∧ m₀.dequeueCount = m.dequeueCount := by
  obtain ⟨n, -, -, -, -, hm⟩ := h
  obtain ⟨id, -, hfind⟩ := List.mem_filterMap.mp (List.mem_of_mem_take hm)
  exact mem_tick (List.mem_of_find?_eq_some hfind)

/-- What a state holds that the one before did not count the same way: new messages, and
messages that this operation took. -/
theorem mem_handle {s : Server} {op : QueueOperation} {q : String} {m : QueueMessage}
    (h : m ∈ (handle op s).2.queues q) :
    (∃ m₀ ∈ s.queues q, m₀.messageId = m.messageId ∧ m₀.dequeueCount = m.dequeueCount) ∨
      m.dequeueCount = 0 ∨ ∃ m₀, s.Takes op q m₀ ∧ m = take s.tick.nextId m₀ := by
  -- whatever its fate, a request leaves what time or serving it left
  have hcases : m ∈ s.tick.queues q ∨
      s.choice.fate ≠ .failsBefore ∧ m ∈ (serve s.choice.picks op s.tick).2.queues q := by
    unfold handle at h
    rcases hfate : s.choice.fate with _ | _ | _ | _
    · simp only [hfate] at h
      exact Or.inr ⟨nofun, h⟩
    · simp only [hfate] at h
      exact Or.inr ⟨nofun, h⟩
    · simp only [hfate] at h
      exact Or.inl h
    · simp only [hfate] at h
      exact Or.inr ⟨nofun, h⟩
  rcases hcases with h | ⟨hfate, h⟩
  · exact Or.inl (mem_tick h)
  · rcases mem_serve h with h | hzero | ⟨n, timeout, hop, hn, m₀, hm₀, hm⟩
    · exact Or.inl (mem_tick h)
    · exact Or.inr (Or.inl hzero)
    · exact Or.inr (Or.inr ⟨m₀, ⟨n, timeout, hop, hn, hfate, hm₀⟩, hm⟩)

/-- A message that is received again was counted up before. -/
theorem counted_before {s : Server} {picks : List ℕ} {q : String} {n : ℕ}
    {x : DequeuedMessageItem} (hx : x ∈ s.tick.received picks q n) (hcount : 1 < x.dequeueCount) :
    ∃ m₀ ∈ s.queues q, m₀.messageId = x.messageId ∧ m₀.dequeueCount ≠ 0 := by
  obtain ⟨m, hm, rfl, -⟩ := mem_receive hx
  obtain ⟨m₀, hm₀, hid, hsame⟩ := mem_tick hm
  refine ⟨m₀, hm₀, hid, ?_⟩
  have htwice : 1 < m.dequeueCount + 1 := hcount
  omega

end Server

/-! ## Who received a message first -/

section

variable {ι : Type} [DecidableEq ι] {maxEnqueueRetryCount : ℕ} {calls : ι → Call} {s₀ : Server}
  {p : Pool ι QueueOperation QueueOperation.Result Server QueueError Outcome}

/-- On the way to `p`, the call `j` made the receive that took the message for the first
time. -/
def TookFirst (start p : Pool ι QueueOperation QueueOperation.Result Server QueueError Outcome)
    (queue : String) (id : ℕ) (j : ι) : Prop :=
  ∃ p₁ op k m, Pool.Runs Server.handle (fun _ _ _ => True) start p₁ ∧
    (p₁.threads j).prog = .call op k ∧ p₁.shared.Takes op queue m ∧ m.messageId = id ∧
    m.dequeueCount = 0 ∧
    Pool.Runs Server.handle (fun _ _ _ => True) (p₁.perform Server.handle j op k) p

/-- The answers hold the message as one that was received for the first time, or a receive
of its queue failed. -/
def ReceivedFirst (seen : Answers) (queue : String) (id : ℕ) : Prop :=
  (∃ x, Took seen queue x ∧ x.messageId = id ∧ x.dequeueCount = 1) ∨ ReceiveFailed seen queue

theorem ReceivedFirst.mono {seen seen' : Answers} {queue : String} {id : ℕ}
    (h : ReceivedFirst seen queue id) (hsub : seen ⊆ seen') : ReceivedFirst seen' queue id := by
  rcases h with ⟨x, htook, hx⟩ | ⟨n, timeout, e, hmem⟩
  · exact Or.inl ⟨x, htook.mono hsub, hx⟩
  · exact Or.inr ⟨n, timeout, e, hsub hmem⟩

/-- The message had been received when the run began. -/
def Server.ReceivedBefore (s : Server) (queue : String) (id : ℕ) : Prop :=
  ∃ m ∈ s.queues queue, m.messageId = id ∧ m.dequeueCount ≠ 0

/-- The message had been received when the run began, or some call took it first. -/
def WasReceived (maxEnqueueRetryCount : ℕ) (calls : ι → Call) (s₀ : Server)
    (p : Pool ι QueueOperation QueueOperation.Result Server QueueError Outcome) (queue : String)
    (id : ℕ) : Prop :=
  s₀.ReceivedBefore queue id ∨ ∃ j, (calls j).Reads queue ∧
    TookFirst (clients maxEnqueueRetryCount calls s₀) p queue id j ∧
    ReceivedFirst (p.threads j).seen queue id

/-- What was received stays received. -/
theorem WasReceived.perform {queue : String} {id : ℕ}
    (h : WasReceived maxEnqueueRetryCount calls s₀ p queue id) {i : ι} {op : QueueOperation}
    {k : op.Result → Awaits Outcome} (hk : (p.threads i).prog = .call op k) :
    WasReceived maxEnqueueRetryCount calls s₀ (p.perform Server.handle i op k) queue id := by
  rcases h with hbefore | ⟨j, hreads, ⟨p₁, op₁, k₁, m, hp₁, hk₁, htakes, hid, hcount, hrun⟩, hfirst⟩
  · exact Or.inl hbefore
  refine Or.inr ⟨j, hreads, ⟨p₁, op₁, k₁, m, hp₁, hk₁, htakes, hid, hcount,
    hrun.perform trivial hk⟩, hfirst.mono ?_⟩
  by_cases hj : j = i
  · subst hj
    rw [Pool.perform_threads_self]
    exact List.subset_append_left _ _
  · rw [Pool.perform_threads_ne _ p hj]
    exact List.Subset.refl _

/-- A receive that takes a message for the first time. -/
theorem WasReceived.take
    (hp : Pool.Runs Server.handle (fun _ _ _ => True) (clients maxEnqueueRetryCount calls s₀) p)
    {i : ι} {op : QueueOperation} {k : op.Result → Awaits Outcome}
    (hk : (p.threads i).prog = .call op k) {queue : String} {m : QueueMessage}
    (htakes : p.shared.Takes op queue m) (hfirst : m.dequeueCount = 0) :
    WasReceived maxEnqueueRetryCount calls s₀ (p.perform Server.handle i op k) queue
      m.messageId := by
  have hcareful := hp.allowed (fun i => meets_program maxEnqueueRetryCount (calls i)) hk
  obtain ⟨n, timeout, rfl, hn, hfate, hm⟩ := htakes
  refine Or.inr ⟨i, hcareful, ⟨p, _, k, m, hp, hk, ⟨n, timeout, rfl, hn, hfate, hm⟩, rfl, hfirst,
    .refl⟩, ?_⟩
  rw [Pool.perform_threads_self]
  -- the receive answered the message, or failed
  rcases hr : (Server.handle (.receiveMessages queue n timeout) p.shared).1 with e | items
  · exact Or.inr ⟨n, timeout, e, List.mem_append_right _ List.mem_cons_self⟩
  · obtain ⟨rfl, -⟩ := Server.handle_receive hr
    refine Or.inl ⟨_, ⟨n, timeout, _, List.mem_append_right _ List.mem_cons_self,
      List.mem_map_of_mem hm⟩, rfl, ?_⟩
    exact congrArg (· + 1) hfirst

/-- **The invariant of every run.** A message that is counted up was received, and so was one
that a call received for a second time. -/
theorem run_wasReceived
    (hrun : Pool.Runs Server.handle (fun _ _ _ => True) (clients maxEnqueueRetryCount calls s₀) p) :
    (∀ q, ∀ m ∈ p.shared.queues q, m.dequeueCount ≠ 0 →
        WasReceived maxEnqueueRetryCount calls s₀ p q m.messageId) ∧
      ∀ i q x, Took (p.threads i).seen q x → 1 < x.dequeueCount →
        WasReceived maxEnqueueRetryCount calls s₀ p q x.messageId := by
  refine hrun.invariant_reached (I := fun p =>
    (∀ q, ∀ m ∈ p.shared.queues q, m.dequeueCount ≠ 0 →
        WasReceived maxEnqueueRetryCount calls s₀ p q m.messageId) ∧
      ∀ i q x, Took (p.threads i).seen q x → 1 < x.dequeueCount →
        WasReceived maxEnqueueRetryCount calls s₀ p q x.messageId) ⟨?_, ?_⟩ ?_
  · exact fun q m hm hcount => Or.inl ⟨m, hm, rfl, hcount⟩
  · rintro i q x ⟨n, timeout, items, hmem, -⟩
    exact absurd hmem List.not_mem_nil
  rintro p i op k hp ⟨hqueues, htook⟩ - hk
  constructor
  · intro q m hm hcount
    rcases Server.mem_handle hm with ⟨m₀, hm₀, hid, hsame⟩ | hzero | ⟨m₀, htakes, rfl⟩
    · rw [← hid]
      exact (hqueues q m₀ hm₀ (hsame ▸ hcount)).perform hk
    · exact absurd hzero hcount
    · by_cases hfirst : m₀.dequeueCount = 0
      · have htaken := WasReceived.take hp hk htakes hfirst
        exact htaken
      · obtain ⟨m₁, hm₁, hid, hsame⟩ := htakes.mem_queue
        have hbefore := (hqueues q m₁ hm₁ (hsame ▸ hfirst)).perform hk
        rwa [hid] at hbefore
  · intro j q x hx hcount
    by_cases hj : j = i
    · subst hj
      rw [Pool.perform_threads_self] at hx
      obtain ⟨n, timeout, items, hmem, hx⟩ := hx
      rcases List.mem_append.mp hmem with hmem | hmem
      · exact (htook j q x ⟨n, timeout, items, hmem, hx⟩ hcount).perform hk
      · -- the message was counted up before this receive
        have heq := List.mem_singleton.mp hmem
        obtain ⟨rfl, hr⟩ := Sigma.mk.inj heq
        have hr := eq_of_heq hr
        obtain ⟨rfl, -⟩ := Server.handle_receive hr.symm
        obtain ⟨m₀, hm₀, hid, hbefore⟩ := Server.counted_before hx hcount
        rw [← hid]
        exact (hqueues q m₀ hm₀ hbefore).perform hk
    · rw [Pool.perform_threads_ne _ p hj] at hx
      exact (htook j q x hx hcount).perform hk

/-- **Dead-lettered messages were received before.** Where a call moves a message, the message
had been received when the run began, or some call has made the receive that took it for the
first time; that call returned the message, failed, or has not completed. -/
theorem moved_received
    (hrun : Pool.Runs Server.handle (fun _ _ _ => True) (clients maxEnqueueRetryCount calls s₀) p)
    {i : ι} {deadQueue text : String} {id : ℕ}
    {k : QueueOperation.Result (.sendMessage deadQueue text (some id)) → Awaits Outcome}
    (hmove : (p.threads i).prog = .call (.sendMessage deadQueue text (some id)) k) :
    ∃ queue, deadQueue = deadName queue ∧ (s₀.ReceivedBefore queue id ∨
      ∃ j, TookFirst (clients maxEnqueueRetryCount calls s₀) p queue id j ∧
        ((∃ messages, (p.threads j).prog = .pure (.messages messages) ∧
            id ∈ messages.map Message.messageId) ∨
          (∃ e, (p.threads j).prog = .throw e) ∨ ¬ (p.threads j).prog.Ended)) := by
  have hmeets := fun i => meets_program maxEnqueueRetryCount (calls i)
  obtain ⟨queue, x, htook, rfl, hdead, -, hcount⟩ := hrun.allowed hmeets hmove
  refine ⟨queue, hdead, ?_⟩
  rcases (run_wasReceived hrun).2 i queue x htook hcount with hbefore | ⟨j, hreads, htaken, hfirst⟩
  · exact Or.inl hbefore
  refine Or.inr ⟨j, htaken, ?_⟩
  rcases hprog : (p.threads j).prog with result | e | ⟨op, k'⟩
  · left
    -- a call that returned kept what it received first, and no receive of it failed
    have hends := hrun.returned hmeets hprog
    have hkept : ∃ messages, result = .messages messages ∧
        Kept queue messages (p.threads j).seen := by
      rcases hcall : calls j with ⟨q, message⟩ | ⟨q, n⟩ | ⟨q, n⟩ | ⟨q, message⟩
      · rw [hcall] at hreads
        exact hreads.elim
      · rw [hcall] at hreads hends
        obtain rfl : q = queue := hreads
        exact hends result rfl
      · rw [hcall] at hreads hends
        obtain rfl : q = queue := hreads
        exact hends result rfl
      · rw [hcall] at hreads
        exact hreads.elim
    obtain ⟨messages, rfl, hkept⟩ := hkept
    rcases hfirst with ⟨y, hy, hid, hone⟩ | hfailed
    · exact ⟨messages, rfl, hid ▸ hkept.handedOut y hy (le_of_eq hone)⟩
    · exact absurd hfailed hkept.received
  · exact Or.inr (Or.inl ⟨e, rfl⟩)
  · exact Or.inr (Or.inr fun h => h)

end

/-! ## Runs -/

/-- The move a call is about to make: the dead-letter queue, the text and the message. -/
def nextMove : Awaits Outcome → Option (QueueClient × String × ℕ)
  | .call (.sendMessage deadQueue text (some id)) _ => some (deadQueue, text, id)
  | _ => none

theorem eq_of_nextMove {prog : Awaits Outcome} {deadQueue : QueueClient} {text : String} {id : ℕ}
    (h : nextMove prog = some (deadQueue, text, id)) :
    ∃ k, prog = .call (.sendMessage deadQueue text (some id)) k := by
  unfold nextMove at h
  split at h
  · cases h
    exact ⟨_, rfl⟩
  · cases h

/-- The service of the sample, but for one failure: the nineteenth operation is rejected
and has no effect. -/
def Server.sampleFailing : Server :=
  { Server.sample with
    choices := fun n => ⟨if n = 18 then .failsBefore else .succeeds, fun _ => true, List.range 10⟩ }

/-- Two messages and three calls that take messages; the first of them takes one only. -/
def failingCalls : Fin 5 → Call
  | 0 => .createMessage "q" (.str "a")
  | 1 => .createMessage "q" (.str "b")
  | 2 => .getMessages "q" 1
  | _ => .getMessages "q" 32

def failingPool (turns : ℕ) :
    Pool (Fin 5) QueueOperation QueueOperation.Result Server QueueError Outcome :=
  (clients 3 failingCalls Server.sampleFailing).play Server.handle
    (List.replicate 3 0 ++ List.replicate 3 1 ++ List.replicate 6 2 ++ List.replicate 7 3 ++
      List.replicate turns 4)

/-- The last call is about to move the second message. The call before took it first, and
failed. -/
theorem moved_received_sample : ∃ queue j, "q-dead" = deadName queue ∧
    TookFirst (clients 3 failingCalls Server.sampleFailing) (failingPool 8) queue 1 j ∧
    ((∃ messages, ((failingPool 8).threads j).prog = .pure (.messages messages) ∧
        1 ∈ messages.map Message.messageId) ∨
      (∃ e, ((failingPool 8).threads j).prog = .throw e) ∨
      ¬ ((failingPool 8).threads j).prog.Ended) := by
  obtain ⟨k, hk⟩ : ∃ k, ((failingPool 8).threads 4).prog =
      .call (.sendMessage "q-dead" "\"\\\"b\\\"\"" (some 1)) k :=
    eq_of_nextMove (by decide +kernel)
  obtain ⟨queue, hdead, ⟨m, hm, -⟩ | ⟨j, htaken, hended⟩⟩ :=
    moved_received (Pool.runs_play Server.handle _ _) hk
  · exact absurd hm List.not_mem_nil
  · exact ⟨queue, j, hdead, htaken, hended⟩

/-- A message that was received before, though by none of the calls. -/
def Server.sampleRead : Server :=
  { Server.sample with
    queues := fun q => if q = "q" then [⟨0, "\"a\"", 1, 0, true⟩] else []
    nextId := 1
    origin := fun _ => ⟨"q", 0, "\"a\""⟩ }

/-- The call returned the message. -/
def handsOut (id : ℕ) : Awaits Outcome → Bool
  | .pure (.messages messages) => id ∈ messages.map Message.messageId
  | _ => false

theorem not_mem_of_handsOut {id : ℕ} {prog : Awaits Outcome} (h : handsOut id prog = false)
    {messages : List Message} (hprog : prog = .pure (.messages messages)) :
    id ∉ messages.map Message.messageId := by
  rw [hprog] at h
  exact of_decide_eq_false h

/-- The second call takes both messages, and fails because it cannot move the one that was
taken before; the third one then finds the other taken before, too. It moves that one,
though no call ever returned it. And what was received before is moved by the first call. -/
theorem moved_unreturned :
    (∃ p, Pool.Runs Server.handle (fun _ _ _ => True)
        (clients 3 failingCalls Server.sampleFailing) p ∧
      (∃ m ∈ p.shared.queues "q-dead", p.shared.origin m.messageId = ⟨"q", 1, "\"b\""⟩) ∧
      ∀ i messages, (p.threads i).prog = .pure (.messages messages) →
        1 ∉ messages.map Message.messageId) ∧
    ∃ p, Pool.Runs Server.handle (fun _ _ _ => True)
        (clients 3 (fun _ : Fin 1 => .getMessages "q" 32) Server.sampleRead) p ∧
      (∃ m ∈ p.shared.queues "q-dead", p.shared.origin m.messageId = ⟨"q", 0, "\"a\""⟩) ∧
      ∀ i messages, (p.threads i).prog = .pure (.messages messages) →
        0 ∉ messages.map Message.messageId := by
  refine ⟨⟨failingPool 10, Pool.runs_play _ _ _, by decide +kernel, ?_⟩,
    ⟨_, Pool.runs_play _ _ (List.replicate 8 0), by decide +kernel, ?_⟩⟩
  · intro i messages hprog
    have hnone : ∀ i, handsOut 1 ((failingPool 10).threads i).prog = false := by
      decide +kernel
    exact not_mem_of_handsOut (hnone i) hprog
  · intro i messages hprog
    have hnone : ∀ i, handsOut 0 ((Pool.play Server.handle
        (clients 3 (fun _ : Fin 1 => .getMessages "q" 32) Server.sampleRead)
          (List.replicate 8 0)).threads i).prog = false := by
      decide +kernel
    exact not_mem_of_handsOut (hnone i) hprog

/-! ## The text of a dead-lettered message -/

/-- Reading the JSON of a text gives the text. -/
def ReadsTexts (parse : String → Option Val) : Prop :=
  ∀ text, parse (quote text) = some (.str text)

section

variable {ι : Type} [DecidableEq ι] {maxEnqueueRetryCount : ℕ} {calls : ι → Call} {s₀ : Server}
  {p : Pool ι QueueOperation QueueOperation.Result Server QueueError Outcome}

/-- **A message keeps its text as long as it is not moved, and no longer.** The move encodes
the text it received, which is JSON already. So in a dead-letter queue there is the JSON of
that JSON, and reading it does not give the payload. -/
theorem text_kept_iff_unmoved (h₀ : s₀.Initial)
    (hrun : Pool.Runs Server.handle (fun _ _ _ => True) (clients maxEnqueueRetryCount calls s₀) p)
    {queue text : String} {id : ℕ} (hholds : p.shared.Holds queue id text) :
    (text = (p.shared.origin id).text ↔ queue = (p.shared.origin id).queue) ∧
      (queue = deadName (p.shared.origin id).queue → text = quote (p.shared.origin id).text) ∧
      ∀ parse, ReadsTexts parse → ∀ payload,
        stringify payload = some (p.shared.origin id).text →
        queue ≠ (p.shared.origin id).queue → parse text ≠ some payload := by
  obtain ⟨-, k, rfl, rfl, -⟩ := (run_ordered h₀ hrun).1 _ _ _ hholds
  have hplace : ∀ j, (p.shared.origin id).place k = (p.shared.origin id).place j ↔ k = j :=
    fun j => ⟨iterate_deadName_inj, fun h => h ▸ rfl⟩
  refine ⟨?_, ?_, ?_⟩
  · exact iterate_quote_eq_self_iff.trans (hplace 0).symm
  · intro hdead
    obtain rfl := (hplace 1).mp hdead
    rfl
  · intro parse hparse payload hpayload hmoved hread
    obtain ⟨j, rfl⟩ := Nat.exists_eq_succ_of_ne_zero fun hk => hmoved ((hplace 0).mpr hk)
    -- what is read is a text, and its JSON would have to be the text of the payload
    rw [Function.iterate_succ_apply', hparse, Option.some_inj] at hread
    rw [← hread, stringify, Option.some_inj, ← Function.iterate_succ_apply' quote] at hpayload
    exact absurd (iterate_quote_eq_self_iff.mp hpayload) (Nat.succ_ne_zero j)

end

theorem movedPool_holds : movedPool.shared.Holds "q-dead" 3 "\"\\\"a\\\"\"" := by
  unfold Server.Holds
  decide +kernel

/-- The moved message does not have its text any more. -/
theorem text_kept_iff_unmoved_sample :
    (movedPool.shared.origin 3).queue = "q" ∧
      "\"\\\"a\\\"\"" ≠ (movedPool.shared.origin 3).text := by
  have hqueue : (movedPool.shared.origin 3).queue = "q" := by decide +kernel
  refine ⟨hqueue, fun hkept => ?_⟩
  have hunmoved : "q-dead" = (movedPool.shared.origin 3).queue :=
    (text_kept_iff_unmoved Server.initial_sample (Pool.runs_play Server.handle _ _)
      movedPool_holds).1.mp hkept
  rw [hqueue] at hunmoved
  exact absurd hunmoved (by decide)

/-- The payload `"a"` is in the queue as its JSON, and in the dead-letter queue as another
text. -/
theorem moved_text_requoted :
    ∃ p, Pool.Runs Server.handle (fun _ _ _ => True) (clients 3 sampleCalls Server.sample) p ∧
      ∃ id text, p.shared.Holds (deadName "q") id text ∧
        p.shared.origin id = ⟨"q", 0, "\"a\""⟩ ∧ stringify (.str "a") = some "\"a\"" ∧
        text ≠ "\"a\"" :=
  ⟨movedPool, Pool.runs_play _ _ _, 3, _, movedPool_holds, by decide +kernel, by decide +kernel,
    by decide⟩

end WebInsights.AzureQueue
