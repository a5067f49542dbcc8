/-
What the calls of a client do, told by what they were answered.

`Careful` says what a call takes care of: it takes messages only from the queue it reads,
it sends to a dead-letter queue only what it took from the queue, and it deletes a message
as moved only after its copy was confirmed. `Ends` says what its result says about the
answers: a created message was sent and confirmed, and a call that hands out messages hands
out every message it took for the first time, and had no receive that failed.
-/
import WebInsights.AzureQueue.Server

set_option autoImplicit false

namespace WebInsights.AzureQueue

open Effect Js Queue

/-- The answers a call was given. -/
abbrev Answers : Type := List (Sigma QueueOperation.Result)

/-- A receive was answered this message. -/
def Took (seen : Answers) (q : String) (x : DequeuedMessageItem) : Prop :=
  ∃ n timeout items,
    (⟨.receiveMessages q n timeout, .ok items⟩ : Sigma QueueOperation.Result) ∈ seen ∧ x ∈ items

/-- A receive failed. -/
def ReceiveFailed (seen : Answers) (q : String) : Prop :=
  ∃ n timeout e, (⟨.receiveMessages q n timeout, .error e⟩ : Sigma QueueOperation.Result) ∈ seen

/-- A send was confirmed. -/
def Confirmed (seen : Answers) (q text : String) (copyOf : Option ℕ) (id : ℕ) : Prop :=
  (⟨.sendMessage q text copyOf, .ok (some id)⟩ : Sigma QueueOperation.Result) ∈ seen

/-- What a call that reads the queues in `Reads` takes care of before an operation. -/
def Careful (Reads : String → Prop) (seen : Answers) : QueueOperation → Prop
  | .receiveMessages q _ _ => Reads q
  | .sendMessage q' text (some id) =>
    ∃ q x, Took seen q x ∧ x.messageId = id ∧ q' = deadName q ∧ text = quote x.messageText ∧
      maxDequeueCount < x.dequeueCount
  | .deleteMessage q id _ .moved => ∃ text id', Confirmed seen (deadName q) text (some id) id'
  | _ => True

/-! ## Answers that are no receives -/

def IsReceive : QueueOperation → Prop
  | .receiveMessages _ _ _ => True
  | _ => False

/-- From `seen` to `seen'` only answers to other operations than receives were added. -/
structure Quiet (seen seen' : Answers) : Prop where
  sub : seen ⊆ seen'
  new : ∀ x ∈ seen', x ∈ seen ∨ ¬ IsReceive x.1

theorem Quiet.refl (seen : Answers) : Quiet seen seen := ⟨List.Subset.refl _, fun _ => Or.inl⟩

theorem Quiet.trans {seen₁ seen₂ seen₃ : Answers} (h : Quiet seen₁ seen₂) (h' : Quiet seen₂ seen₃) :
    Quiet seen₁ seen₃ where
  sub := List.Subset.trans h.sub h'.sub
  new := fun x hx => (h'.new x hx).elim (h.new x) Or.inr

theorem quiet_append (seen : Answers) {op : QueueOperation} (hop : ¬ IsReceive op) (r : op.Result) :
    Quiet seen (seen ++ [⟨op, r⟩]) where
  sub := List.subset_append_left _ _
  new := by
    intro x hx
    rcases List.mem_append.mp hx with hx | hx
    · exact Or.inl hx
    · obtain rfl := List.mem_singleton.mp hx
      exact Or.inr hop

theorem Took.mono {seen seen' : Answers} {q : String} {x : DequeuedMessageItem}
    (h : Took seen q x) (hsub : seen ⊆ seen') : Took seen' q x := by
  obtain ⟨n, timeout, items, hmem, hx⟩ := h
  exact ⟨n, timeout, items, hsub hmem, hx⟩

theorem Quiet.took {seen seen' : Answers} (h : Quiet seen seen') {q : String}
    {x : DequeuedMessageItem} (hx : Took seen' q x) : Took seen q x := by
  obtain ⟨n, timeout, items, hmem, hx⟩ := hx
  rcases h.new _ hmem with hold | hnot
  · exact ⟨n, timeout, items, hold, hx⟩
  · exact absurd trivial hnot

theorem Quiet.receiveFailed {seen seen' : Answers} (h : Quiet seen seen') {q : String}
    (hf : ReceiveFailed seen' q) : ReceiveFailed seen q := by
  obtain ⟨n, timeout, e, hmem⟩ := hf
  rcases h.new _ hmem with hold | hnot
  · exact ⟨n, timeout, e, hold⟩
  · exact absurd trivial hnot

/-! ## The methods -/

variable {Reads : String → Prop} {seen : Answers}

/-- What an `await` ends with is what it was answered. -/
theorem meets_await {C : Answers → QueueOperation → Prop} {op : QueueOperation} (h : C seen op) :
    (await op).Meets C (fun seen' r => seen' = seen ++ [⟨op, r⟩]) seen := by
  refine ⟨h, fun r => ?_⟩
  rcases r with e | v
  · exact Program.meets_throw rfl
  · exact Program.meets_pure rfl

theorem meets_getQueueClient (queueName : String) :
    (getQueueClient queueName).Meets (Careful Reads)
      (fun seen' r => Quiet seen seen' ∧ ∀ c, r = .ok c → c = queueName) seen := by
  refine (meets_await trivial).bind ?_ ?_
  · rintro seen' _ rfl
    refine Program.meets_pure ⟨quiet_append _ id _, fun c hc => ?_⟩
    exact (Except.ok.inj hc).symm
  · rintro seen' e rfl
    exact ⟨quiet_append _ id _, nofun⟩

theorem meets_ensureQueueExists (queueClient : QueueClient) :
    (ensureQueueExists queueClient).Meets (Careful Reads) (fun seen' _ => Quiet seen seen') seen :=
  (meets_await trivial).mono (fun _ _ h => h) fun _ _ h => h ▸ quiet_append _ id _

theorem meets_deleteQueueMessage {queueClient : QueueClient} {messageId : ℕ}
    {popReceipt : Option ℕ} {purpose : Purpose}
    (h : Careful Reads seen (.deleteMessage queueClient messageId popReceipt purpose)) :
    (deleteQueueMessage queueClient messageId popReceipt purpose).Meets (Careful Reads)
      (fun seen' _ => Quiet seen seen') seen := by
  refine (meets_await h).tryCatch ?_ ?_
  · rintro seen' _ rfl
    exact quiet_append _ id _
  · rintro seen' e rfl
    exact Program.meets_pure (quiet_append _ id _)

/-- A message was sent and the send was confirmed. -/
def Sent (queueClient : QueueClient) (message : Val) (copyOf : Option ℕ) (seen : Answers) : Prop :=
  ∃ text id, stringify message = some text ∧ Confirmed seen queueClient text copyOf id

theorem meets_createQueueMessage {queueClient : QueueClient} {message : Val} {copyOf : Option ℕ}
    (h : ∀ text, stringify message = some text →
      Careful Reads seen (.sendMessage queueClient text copyOf)) :
    (createQueueMessage queueClient message copyOf).Meets (Careful Reads)
      (fun seen' r => Quiet seen seen' ∧ (r = .ok () → Sent queueClient message copyOf seen'))
      seen := by
  unfold createQueueMessage
  rcases htext : stringify message with _ | text
  · exact Program.meets_throw ⟨.refl _, nofun⟩
  · refine (meets_await (h text htext)).bind ?_ ?_
    · rintro seen' (_ | messageId) rfl
      · exact Program.meets_throw ⟨quiet_append _ id _, nofun⟩
      · refine Program.meets_pure ⟨quiet_append _ id _, fun _ => ⟨text, messageId, htext, ?_⟩⟩
        exact List.mem_append_right _ List.mem_cons_self
    · rintro seen' e rfl
      exact ⟨quiet_append _ id _, nofun⟩

/-- A message that was taken is moved: sent first, deleted once that was confirmed. -/
theorem meets_moveToDeadQueue {queue : String} {x : DequeuedMessageItem} (hx : Took seen queue x)
    (hcount : maxDequeueCount < x.dequeueCount) :
    (moveToDeadQueue queue (deadName queue) x).Meets (Careful Reads)
      (fun seen' _ => Quiet seen seen') seen := by
  refine (meets_createQueueMessage ?_).bind ?_ ?_
  · intro text htext
    exact ⟨queue, x, hx, rfl, rfl, (Option.some.inj htext).symm, hcount⟩
  · rintro seen' ⟨⟩ ⟨hquiet, hsent⟩
    obtain ⟨text, copyId, -, hconfirmed⟩ := hsent rfl
    have hcareful : Careful Reads seen'
        (.deleteMessage queue x.messageId (some x.popReceipt) .moved) := ⟨text, copyId, hconfirmed⟩
    exact (meets_deleteQueueMessage hcareful).mono (fun _ _ h => h)
      fun _ _ h => hquiet.trans h
  · exact fun seen' e h => h.1

theorem meets_getQueueMessages {queue : String} (hreads : Reads queue) (numberOfMessages : ℤ) :
    (getQueueMessages queue numberOfMessages).Meets (Careful Reads)
      (fun seen' r => ∀ items, r = .ok items → ∃ seen₁ timeout, Quiet seen seen₁ ∧
        seen' = seen₁ ++ [⟨.receiveMessages queue numberOfMessages timeout, .ok items⟩]) seen := by
  refine (meets_await trivial).bind ?_ fun _ _ _ => nofun
  rintro seen' timeout rfl
  refine (meets_await hreads).mono (fun _ _ h => h) ?_
  rintro seen'' _ rfl items rfl
  exact ⟨_, timeout, quiet_append _ id _, rfl⟩

/-- No receive failed, and every message taken for the first time is among these. -/
structure Kept (queue : String) (messages : List Message) (seen : Answers) : Prop where
  received : ¬ ReceiveFailed seen queue
  handedOut : ∀ x, Took seen queue x → x.dequeueCount ≤ maxDequeueCount →
    x.messageId ∈ messages.map Message.messageId

theorem kept_nil (queue : String) : Kept queue [] [] where
  received := by
    rintro ⟨n, timeout, e, h⟩
    exact absurd h List.not_mem_nil
  handedOut := by
    rintro x ⟨n, timeout, items, h, -⟩
    exact absurd h List.not_mem_nil

theorem Kept.quiet {queue : String} {messages : List Message} {seen' : Answers}
    (h : Kept queue messages seen) (hquiet : Quiet seen seen') : Kept queue messages seen' where
  received := fun hf => h.received (hquiet.receiveFailed hf)
  handedOut := fun x hx => h.handedOut x (hquiet.took hx)

/-- The loop over the received messages: those that are still to come are all that is
missing. -/
theorem meets_distribute {queue : String} {earlier messages : List Message}
    {items : List DequeuedMessageItem} (hreceived : ¬ ReceiveFailed seen queue)
    (htook : ∀ x ∈ items, Took seen queue x)
    (hkept : ∀ x, Took seen queue x → x.dequeueCount ≤ maxDequeueCount →
      x.messageId ∈ (earlier ++ messages).map Message.messageId ∨ x ∈ items) :
    (distribute queue (deadName queue) messages items).Meets (Careful Reads)
      (fun seen' r => ∀ batch, r = .ok batch → Kept queue (earlier ++ batch) seen') seen := by
  induction items generalizing messages seen with
  | nil =>
    refine Program.meets_pure fun batch hbatch => ?_
    obtain rfl := Except.ok.inj hbatch
    exact ⟨hreceived, fun x hx hcount => (hkept x hx hcount).resolve_right List.not_mem_nil⟩
  | cons y ys ih =>
    unfold distribute
    by_cases hcount : y.dequeueCount > maxDequeueCount
    · rw [if_pos hcount]
      -- received before: it is moved, and no message of the others is lost by that
      refine (meets_moveToDeadQueue (htook y List.mem_cons_self) hcount).extends.bind ?_
        fun _ _ _ => nofun
      rintro seen' ⟨⟩ ⟨hsub, hquiet⟩
      refine ih (fun hf => hreceived (hquiet.receiveFailed hf)) ?_ ?_
      · exact fun x hx => (htook x (List.mem_cons_of_mem _ hx)).mono hsub
      · intro x hx hle
        rcases hkept x (hquiet.took hx) hle with hin | hin
        · exact Or.inl hin
        · rcases List.mem_cons.mp hin with rfl | hin
          · exact absurd hle (Nat.not_le.mpr hcount)
          · exact Or.inr hin
    · rw [if_neg hcount]
      -- received for the first time: it goes over to the messages
      refine ih hreceived (fun x hx => htook x (List.mem_cons_of_mem _ hx)) ?_
      intro x hx hle
      rw [← List.append_assoc, List.map_append]
      rcases hkept x hx hle with hin | hin
      · exact Or.inl (List.mem_append_left _ hin)
      · rcases List.mem_cons.mp hin with rfl | hin
        · exact Or.inl (List.mem_append_right _ List.mem_cons_self)
        · exact Or.inr hin

/-- `getMessages` hands out, with the messages handed out before, all that was taken for
the first time. -/
theorem meets_getMessages {queue : String} (hreads : Reads queue) (numberOfMessages : ℤ)
    {earlier : List Message} (h : Kept queue earlier seen) :
    (getMessages queue numberOfMessages).Meets (Careful Reads)
      (fun seen' r => ∀ batch, r = .ok batch → Kept queue (earlier ++ batch) seen') seen := by
  refine (meets_getQueueClient queue).bind ?_ fun _ _ _ => nofun
  rintro seen₁ c ⟨hquiet₁, hc⟩
  obtain rfl := hc c rfl
  refine (meets_getQueueClient (deadName c)).bind ?_ fun _ _ _ => nofun
  rintro seen₂ d ⟨hquiet₂, hd⟩
  obtain rfl := hd d rfl
  refine (meets_ensureQueueExists c).bind ?_ fun _ _ _ => nofun
  rintro seen₃ ⟨⟩ hquiet₃
  refine (meets_ensureQueueExists (deadName c)).bind ?_ fun _ _ _ => nofun
  rintro seen₄ ⟨⟩ hquiet₄
  refine (meets_getQueueMessages hreads numberOfMessages).bind ?_ fun _ _ _ => nofun
  rintro seen₅ items hitems
  obtain ⟨seen₆, timeout, hquiet₅, rfl⟩ := hitems items rfl
  have hkept := h.quiet
    ((((hquiet₁.trans hquiet₂).trans hquiet₃).trans hquiet₄).trans hquiet₅)
  -- the last answer is the receive: it did not fail, and all it gave is still to come
  refine meets_distribute ?_ ?_ ?_
  · rintro ⟨n, timeout', e, hmem⟩
    rcases List.mem_append.mp hmem with hmem | hmem
    · exact hkept.received ⟨n, timeout', e, hmem⟩
    · cases List.mem_singleton.mp hmem
  · exact fun x hx => ⟨_, _, items, List.mem_append_right _ List.mem_cons_self, hx⟩
  · rintro x ⟨n, timeout', items', hmem, hx⟩ hle
    rw [List.append_nil]
    rcases List.mem_append.mp hmem with hmem | hmem
    · exact Or.inl (hkept.handedOut x ⟨n, timeout', items', hmem, hx⟩ hle)
    · cases List.mem_singleton.mp hmem
      exact Or.inr hx

/-- The loop asks again as long as it was given messages and lacks some, so it does not
run out of turns. -/
theorem meets_getMessagesWithTotalCount {queue : String} (hreads : Reads queue)
    (totalMessagesCount : ℤ) :
    (getMessagesWithTotalCount queue totalMessagesCount).Meets (Careful Reads)
      (fun seen' r => ∀ result, r = .ok result →
        ∃ messages, result = some messages ∧ Kept queue messages seen') [] := by
  refine Program.meets_iterate (I := fun messages seen => Kept queue messages seen)
    (μ := fun messages => (totalMessagesCount - messages.length).toNat) ?_ (kept_nil queue) ?_
  · intro messages seen hkept
    refine (meets_getMessages hreads _ hkept).bind ?_ fun seen' e _ => nofun
    intro seen' batch hbatch
    have hnow := hbatch batch rfl
    by_cases hempty : batch.length = 0
    · rw [if_pos hempty]
      rw [List.eq_nil_of_length_eq_zero hempty, List.append_nil] at hnow
      refine Program.meets_pure fun result hresult => ?_
      exact ⟨messages, (Except.ok.inj hresult).symm, hnow⟩
    · rw [if_neg hempty]
      by_cases hless : ((messages ++ batch).length : ℤ) < totalMessagesCount
      · rw [if_pos hless]
        -- the batch was not empty, so fewer are lacking
        have hmeasure : (totalMessagesCount - (messages ++ batch).length).toNat <
            (totalMessagesCount - messages.length).toNat := by
          rw [List.length_append] at hless ⊢
          omega
        exact Program.meets_pure ⟨hnow, hmeasure⟩
      · rw [if_neg hless]
        refine Program.meets_pure fun result hresult => ?_
        exact ⟨messages ++ batch, (Except.ok.inj hresult).symm, hnow⟩
  · rw [List.length_nil]
    omega

theorem meets_deleteMessage (queue : String) (message : Message) :
    (deleteMessage queue message).Meets (Careful Reads) (fun _ _ => True) seen := by
  refine (meets_getQueueClient queue).bind ?_ fun _ _ _ => trivial
  rintro seen' c -
  have hcareful : Careful Reads seen'
      (.deleteMessage c message.messageId message.popReceipt .consumed) := trivial
  exact (meets_deleteQueueMessage hcareful).mono (fun _ _ h => h) fun _ _ _ => trivial

/-- A try that does not throw sent the message. -/
theorem meets_executeWithRetries {α : Type} {action : Awaits α} {P : Answers → Prop}
    (h : ∀ seen, action.Meets (Careful Reads) (fun seen' r => ∀ a, r = .ok a → P seen') seen)
    (maxRetryCount : ℕ) :
    (executeWithRetries action maxRetryCount).Meets (Careful Reads)
      (fun seen' r => ∀ a, r = .ok a → P seen') seen := by
  have hloop : ∀ turns i seen lastError, (retryHelper.retrying action.settle (fun _ => pure ())
      maxRetryCount 1000 turns i lastError).Meets (Careful Reads)
        (fun seen' r => ∀ a, r = .ok a → P seen') seen := by
    intro turns
    induction turns with
    | zero => exact fun i seen lastError => Program.meets_throw fun a => nofun
    | succ turns ih =>
      intro i seen lastError
      refine (h seen).settle.bind ?_ fun _ _ h => nofun
      rintro seen' outcome ⟨x, hx, hsent⟩
      obtain rfl := Except.ok.inj hx
      rcases outcome with error | a
      · -- a try that failed says nothing, the others do
        refine (Program.meets_ofExcept (Q := fun _ _ => True) trivial).bind ?_ fun _ _ _ => nofun
        intro seen' lastError _
        split_ifs <;> exact ih _ _ _
      · exact Program.meets_pure fun b hb => hsent a rfl
  exact hloop _ _ _ _

theorem meets_createMessage (maxEnqueueRetryCount : ℕ) (queue : String) (message : Val) :
    (createMessage maxEnqueueRetryCount queue message).Meets (Careful Reads)
      (fun seen' r => r = .ok true → Sent queue message none seen') seen := by
  have htry : ∀ seen, ((do
      let queueURL ← getQueueClient queue
      ensureQueueExists queueURL
      createQueueMessage queueURL message none : Awaits Unit)).Meets (Careful Reads)
        (fun seen' r => ∀ a, r = .ok a → Sent queue message none seen') seen := by
    intro seen
    refine (meets_getQueueClient queue).bind ?_ fun _ _ _ _ => nofun
    rintro seen₁ c ⟨-, hc⟩
    obtain rfl := hc c rfl
    refine (meets_ensureQueueExists c).bind ?_ fun _ _ _ _ => nofun
    rintro seen₂ ⟨⟩ -
    have hcareful : ∀ text, stringify message = some text →
        Careful Reads seen₂ (.sendMessage c text none) := fun _ _ => trivial
    exact (meets_createQueueMessage hcareful).mono (fun _ _ h => h) fun _ _ h _ hr => h.2 hr
  -- what is caught resolves to `false`, which claims nothing
  refine Program.Meets.tryCatch (R := fun seen' r => ∀ a, r = .ok a → Sent queue message none seen')
    ?_ ?_ ?_
  · refine (meets_executeWithRetries htry maxEnqueueRetryCount).bind ?_ fun _ _ _ _ => nofun
    rintro seen' ⟨⟩ hsent
    exact Program.meets_pure fun _ _ => hsent () rfl
  · exact fun seen' a hsent _ => hsent a rfl
  · exact fun seen' e _ => Program.meets_pure nofun

/-! ## Calls -/

/-- What the result of a call says about what it was answered. -/
def Ends : Call → Answers → Except QueueError Outcome → Prop
  | .createMessage queue message, seen, r => r = .ok (.created true) → Sent queue message none seen
  | .getMessages queue _, seen, r =>
    ∀ result, r = .ok result → ∃ messages, result = .messages messages ∧ Kept queue messages seen
  | .getMessagesWithTotalCount queue _, seen, r =>
    ∀ result, r = .ok result → ∃ messages, result = .messages messages ∧ Kept queue messages seen
  | .deleteMessage _ _, _, _ => True

/-- **Every call is careful**, and its result says what it should. -/
theorem meets_program (maxEnqueueRetryCount : ℕ) (call : Call) :
    (call.program maxEnqueueRetryCount).Meets (Careful fun q => call.Reads q) (Ends call) [] := by
  cases call with
  | createMessage queue message =>
    refine (meets_createMessage maxEnqueueRetryCount queue message).bind ?_ fun _ _ _ => nofun
    intro seen' done hsent
    refine Program.meets_pure fun hdone => hsent ?_
    cases hdone
    rfl
  | getMessages queue numberOfMessages =>
    refine (meets_getMessages rfl numberOfMessages (kept_nil queue)).bind ?_ fun _ _ _ _ => nofun
    intro seen' batch hkept
    refine Program.meets_pure fun result hresult => ⟨batch, (Except.ok.inj hresult).symm, ?_⟩
    exact hkept batch rfl
  | getMessagesWithTotalCount queue totalMessagesCount =>
    refine (meets_getMessagesWithTotalCount rfl totalMessagesCount).bind ?_ fun _ _ _ _ => nofun
    intro seen' result hkept
    obtain ⟨messages, rfl, hnow⟩ := hkept result rfl
    exact Program.meets_pure fun r hr => ⟨messages, (Except.ok.inj hr).symm, hnow⟩
  | deleteMessage queue message =>
    refine (meets_deleteMessage queue message).bind ?_ fun _ _ _ => trivial
    exact fun _ _ _ => Program.meets_pure trivial

end WebInsights.AzureQueue
