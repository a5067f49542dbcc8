/-
How many messages `getMessagesWithTotalCount` returns.

The queue is left alone here: no call fails, nobody else takes messages, no message comes
back while the loop runs, and a receive takes the first visible messages and hides them.
What the loop sees of the queue is then the list of its visible messages, taken off in
batches. A message that was taken before is moved, not returned, so a batch of such
messages only looks empty to the loop, which stops at it. The count is therefore the one
that was asked for, or the one that is there, exactly when the queue is `Fed` to it without
such a batch.
-/
import Mathlib.Data.List.Dedup
import WebInsights.AzureQueue.Delivery
import WebInsights.Data.Batches
import WebInsights.Effect.Returns

set_option autoImplicit false

namespace WebInsights.AzureQueue

open Effect Js Queue Batches

/-! ## Every receive asks for what the service serves -/

/-- A receive asks for 1 to 32 messages. -/
def InRange : QueueOperation → Prop
  | .receiveMessages _ numberOfMessages _ => 1 ≤ numberOfMessages ∧ numberOfMessages ≤ 32
  | _ => True

section

variable {seen : Answers}

theorem meets_inRange_await {op : QueueOperation} (h : InRange op) :
    (await op).Meets (fun _ op => InRange op) (fun _ _ => True) seen :=
  (meets_await (C := fun _ op => InRange op) h).mono (fun _ _ h => h) fun _ _ _ => trivial

theorem meets_inRange_moveToDeadQueue (queue dead : QueueClient) (x : DequeuedMessageItem) :
    (moveToDeadQueue queue dead x).Meets (fun _ op => InRange op) (fun _ _ => True) seen := by
  refine Program.Meets.bind (R := fun _ _ => True) ?_ (fun seen' _ _ => ?_) fun _ _ _ => trivial
  · refine (meets_inRange_await (by trivial)).bind (fun seen' r _ => ?_) fun _ _ _ => trivial
    cases r with
    | none => exact Program.meets_throw trivial
    | some id => exact Program.meets_pure trivial
  · exact (meets_inRange_await (by trivial)).tryCatch (fun _ _ h => h)
      fun _ _ _ => Program.meets_pure trivial

theorem meets_inRange_distribute (queue dead : QueueClient) (messages : List Message)
    (items : List DequeuedMessageItem) :
    (distribute queue dead messages items).Meets (fun _ op => InRange op) (fun _ _ => True)
      seen := by
  induction items generalizing messages seen with
  | nil => exact Program.meets_pure trivial
  | cons x items ih =>
    unfold distribute
    by_cases hcount : x.dequeueCount > maxDequeueCount
    · rw [if_pos hcount]
      exact (meets_inRange_moveToDeadQueue queue dead x).bind (fun _ _ _ => ih messages)
        fun _ _ _ => trivial
    · rw [if_neg hcount]
      exact ih _

theorem meets_inRange_getMessages (queue : String) {numberOfMessages : ℤ}
    (h : 1 ≤ numberOfMessages ∧ numberOfMessages ≤ 32) :
    (getMessages queue numberOfMessages).Meets (fun _ op => InRange op) (fun _ _ => True)
      seen := by
  have hclient : ∀ (name : String) {seen : Answers},
      (getQueueClient name).Meets (fun _ op => InRange op) (fun _ _ => True) seen := fun _ _ =>
    (meets_inRange_await (by trivial)).bind (fun _ _ _ => Program.meets_pure trivial)
      fun _ _ _ => trivial
  refine (hclient queue).bind (fun seen₁ c _ => ?_) fun _ _ _ => trivial
  refine (hclient (deadName queue)).bind (fun seen₂ d _ => ?_) fun _ _ _ => trivial
  refine (meets_inRange_await (by trivial)).bind (fun seen₃ _ _ => ?_) fun _ _ _ => trivial
  refine (meets_inRange_await (by trivial)).bind (fun seen₄ _ _ => ?_) fun _ _ _ => trivial
  refine Program.Meets.bind (R := fun _ _ => True) ?_ (fun seen₅ items _ => ?_)
    fun _ _ _ => trivial
  · exact (meets_inRange_await (by trivial)).bind (fun _ _ _ => meets_inRange_await h)
      fun _ _ _ => trivial
  · exact meets_inRange_distribute c d [] items

/-- **Every receive of the loop is in range**, whatever the service answers: the loop goes on
only while messages are missing. -/
theorem meets_inRange_getMessagesWithTotalCount (queue : String) {n : ℕ} (hn : 1 ≤ n) :
    (getMessagesWithTotalCount queue n).Meets (fun _ op => InRange op) (fun _ _ => True) seen := by
  -- messages are missing at each turn, and fewer at the next
  refine Program.meets_iterate (I := fun messages _ => messages.length < n)
    (μ := fun messages => n - messages.length) ?_ hn (by simp)
  intro messages seen hless
  have hrange : 1 ≤ (if (n : ℤ) - messages.length > 32 then 32 else (n : ℤ) - messages.length) ∧
      (if (n : ℤ) - messages.length > 32 then 32 else (n : ℤ) - messages.length) ≤ 32 := by
    split_ifs <;> omega
  refine (meets_inRange_getMessages queue hrange).bind (fun seen' batch _ => ?_)
    fun _ _ _ => trivial
  by_cases hempty : batch.length = 0
  · rw [if_pos hempty]
    exact Program.meets_pure trivial
  · rw [if_neg hempty]
    by_cases hgoes : ((messages ++ batch).length : ℤ) < n
    · rw [if_pos hgoes]
      have hmeasure : n - (messages ++ batch).length < n - messages.length := by
        rw [List.length_append]
        omega
      exact Program.meets_pure ⟨by exact_mod_cast hgoes, hmeasure⟩
    · rw [if_neg hgoes]
      exact Program.meets_pure trivial

end

/-! ## A queue that is left alone -/

namespace Server

/-- From now on every call succeeds, no hidden message comes back, and a receive takes the
messages of the queue in their order. -/
structure Undisturbed (queue : String) (s : Server) : Prop where
  succeeds : ∀ t, s.clock ≤ t → (s.choices t).fate = .succeeds
  still : ∀ t, s.clock ≤ t → ∀ id, (s.choices t).timeouts id = false
  inOrder : ∀ t, s.clock ≤ t →
    ((s.queues queue).map QueueMessage.messageId).Sublist (s.choices t).picks
  nodup : ∀ t, s.clock ≤ t → (s.choices t).picks.Nodup

/-- The messages a receive can take. -/
def visible (s : Server) (queue : String) : List QueueMessage :=
  (s.queues queue).filter QueueMessage.visible

variable {queue : String} {s s' : Server}

/-- A message that is not over the threshold when it is received. -/
def live (m : QueueMessage) : Bool := m.dequeueCount + 1 ≤ maxDequeueCount

theorem Undisturbed.of_sublist (h : Undisturbed queue s) (hchoices : s'.choices = s.choices)
    (hclock : s.clock ≤ s'.clock)
    (hqueue : ((s'.queues queue).map QueueMessage.messageId).Sublist
      ((s.queues queue).map QueueMessage.messageId)) : Undisturbed queue s' where
  succeeds := fun t ht => by
    rw [hchoices]
    exact h.succeeds t (hclock.trans ht)
  still := fun t ht => by
    rw [hchoices]
    exact h.still t (hclock.trans ht)
  inOrder := fun t ht => by
    rw [hchoices]
    exact hqueue.trans (h.inOrder t (hclock.trans ht))
  nodup := fun t ht => by
    rw [hchoices]
    exact h.nodup t (hclock.trans ht)

theorem Undisturbed.ids_nodup (h : Undisturbed queue s) :
    ((s.queues queue).map QueueMessage.messageId).Nodup :=
  (h.nodup s.clock le_rfl).sublist (h.inOrder s.clock le_rfl)

/-- The state when the next operation arrives. -/
def later (s : Server) : Server := { s with clock := s.clock + 1 }

theorem Undisturbed.tick_eq (h : Undisturbed queue s) : s.tick = s.later := by
  have hqueues : (fun q => (s.queues q).map fun m =>
      if s.choice.timeouts m.messageId then { m with visible := true } else m) = s.queues := by
    funext q
    rw [List.map_congr_left (g := id), List.map_id]
    intro m _
    rw [choice, h.still s.clock le_rfl m.messageId, if_neg Bool.false_ne_true]
    rfl
  rw [tick, hqueues, later]

theorem Undisturbed.handle_eq (h : Undisturbed queue s) (op : QueueOperation) :
    handle op s = serve s.choice.picks op s.later := by
  have hfate : s.choice.fate = .succeeds := h.succeeds s.clock le_rfl
  rw [handle, hfate, h.tick_eq]

/-! ### What a receive takes -/

/-- Looking up the ids of the messages in their order finds the messages. -/
theorem filterMap_find?_eq {picks : List ℕ} {messages : List QueueMessage}
    (hsub : (messages.map QueueMessage.messageId).Sublist picks) (hnodup : picks.Nodup) :
    (picks.filterMap fun id => messages.find? fun m => m.messageId = id ∧ m.visible) =
      messages.filter QueueMessage.visible := by
  induction picks generalizing messages with
  | nil =>
    obtain rfl := List.map_eq_nil_iff.mp (List.sublist_nil.mp hsub)
    rfl
  | cons i picks ih =>
    rw [List.nodup_cons] at hnodup
    rcases List.sublist_cons_iff.mp hsub with hrest | ⟨ids, hids, hrest⟩
    · -- the id is none of the queue's
      have hnone : (messages.find? fun m => m.messageId = i ∧ m.visible) = none := by
        rw [List.find?_eq_none]
        intro m hm hfound
        have hid : m.messageId = i := (of_decide_eq_true hfound).1
        exact hnodup.1 (hid ▸ hrest.subset (List.mem_map_of_mem hm))
      simp only [List.filterMap_cons, hnone]
      exact ih hrest hnodup.2
    · obtain ⟨m, messages, rfl, rfl, rfl⟩ := List.map_eq_cons_iff.mp hids
      -- the other ids do not find the first message
      have hothers : (picks.filterMap fun id =>
          (m :: messages).find? fun m => m.messageId = id ∧ m.visible) =
          picks.filterMap fun id => messages.find? fun m => m.messageId = id ∧ m.visible := by
        apply List.filterMap_congr
        intro id hid
        have hne : m.messageId ≠ id := fun e => hnodup.1 (e ▸ hid)
        simp [hne]
      have hnone : (messages.find? fun m' => m'.messageId = m.messageId ∧ m'.visible) = none := by
        rw [List.find?_eq_none]
        intro m' hm' hfound
        have hid : m'.messageId = m.messageId := (of_decide_eq_true hfound).1
        exact hnodup.1 (hid ▸ hrest.subset (List.mem_map_of_mem hm'))
      have hih := ih hrest hnodup.2
      by_cases hvisible : m.visible = true
      · have hhead : ((m :: messages).find? fun m' =>
            m'.messageId = m.messageId ∧ m'.visible) = some m :=
          List.find?_cons_of_pos (decide_eq_true ⟨rfl, hvisible⟩)
        simp only [List.filterMap_cons, hhead]
        rw [hothers, hih, List.filter_cons_of_pos hvisible]
      · have hhead : ((m :: messages).find? fun m' =>
            m'.messageId = m.messageId ∧ m'.visible) = none := by
          rw [List.find?_cons_of_neg fun hfound => hvisible (of_decide_eq_true hfound).2]
          exact hnone
        simp only [List.filterMap_cons, hhead]
        rw [hothers, hih, List.filter_cons_of_neg hvisible]

theorem Undisturbed.taken_eq (h : Undisturbed queue s) (k : ℕ) :
    s.later.taken s.choice.picks queue k = (s.visible queue).take k := by
  have hdedup : s.choice.picks.dedup = s.choice.picks :=
    List.dedup_eq_self.mpr (h.nodup s.clock le_rfl)
  rw [taken, hdedup, visible, ← filterMap_find?_eq (h.inOrder s.clock le_rfl)
    (h.nodup s.clock le_rfl)]
  rfl

/-- What is no longer in front is behind. -/
theorem filter_not_mem_take {α : Type} [DecidableEq α] {l : List α} (h : l.Nodup) (k : ℕ) :
    l.filter (fun x => x ∉ l.take k) = l.drop k := by
  have hsplit : (l.take k ++ l.drop k).Nodup := by rwa [List.take_append_drop]
  have hfront : (l.take k).filter (fun x => x ∉ l.take k) = [] := by
    rw [List.filter_eq_nil_iff]
    intro x hx
    simpa using hx
  have hback : (l.drop k).filter (fun x => x ∉ l.take k) = l.drop k := by
    rw [List.filter_eq_self]
    intro x hx
    have hnot : x ∉ l.take k := fun hx' => List.disjoint_of_nodup_append hsplit hx' hx
    simpa using hnot
  calc l.filter (fun x => x ∉ l.take k)
      = (l.take k ++ l.drop k).filter (fun x => x ∉ l.take k) := by rw [List.take_append_drop]
    _ = l.drop k := by rw [List.filter_append, hfront, hback, List.nil_append]

/-- A receive hides what it takes, and nothing else. -/
theorem visible_receive {picks : List ℕ} {k : ℕ}
    (hnodup : ((s.queues queue).map QueueMessage.messageId).Nodup)
    (htaken : s.taken picks queue k = (s.visible queue).take k) :
    (s.receive picks queue k).visible queue = (s.visible queue).drop k := by
  have hmessages : (s.queues queue).Nodup := hnodup.of_map _
  have hshown : ∀ m, (if m ∈ s.taken picks queue k then take s.nextId m else m).visible =
      (decide (m ∉ s.taken picks queue k) && m.visible) := by
    intro m
    by_cases hm : m ∈ s.taken picks queue k
    · simp [hm, take]
    · simp [hm]
  -- a message that is still visible was not touched
  have hself : ∀ m ∈ (s.queues queue).filter fun m =>
      decide (m ∉ s.taken picks queue k) && m.visible,
      (if m ∈ s.taken picks queue k then take s.nextId m else m) = m := by
    intro m hm
    have hnot := (List.mem_filter.mp hm).2
    rw [Bool.and_eq_true, decide_eq_true_eq] at hnot
    exact if_neg hnot.1
  calc (s.receive picks queue k).visible queue
      = ((s.queues queue).map fun m =>
          if m ∈ s.taken picks queue k then take s.nextId m else m).filter
            QueueMessage.visible := by
        simp only [visible, receive, Function.update_self]
    _ = (s.queues queue).filter fun m => decide (m ∉ s.taken picks queue k) && m.visible := by
        rw [List.filter_map, List.map_congr_left (g := id)]
        · rw [List.map_id]
          exact List.filter_congr fun m _ => hshown m
        · intro m hm
          apply hself
          rw [List.mem_filter] at hm ⊢
          exact ⟨hm.1, (hshown m).symm.trans hm.2⟩
    _ = (s.visible queue).filter fun m => m ∉ (s.visible queue).take k := by
        rw [htaken, visible, List.filter_filter]
    _ = (s.visible queue).drop k := filter_not_mem_take (hmessages.filter _) k

/-! ### What the other requests leave -/

theorem ids_receive (s : Server) (picks : List ℕ) (queue : String) (k : ℕ) :
    ((s.receive picks queue k).queues queue).map QueueMessage.messageId =
      (s.queues queue).map QueueMessage.messageId := by
  simp only [receive, Function.update_self, List.map_map]
  apply List.map_congr_left
  intro m _
  show (if m ∈ s.taken picks queue k then take s.nextId m else m).messageId = m.messageId
  split <;> rfl

theorem ids_delete (s : Server) (queue : String) (id : ℕ) (receipt : Option ℕ)
    (purpose : Purpose) :
    (((s.delete queue id receipt purpose).queues queue).map QueueMessage.messageId).Sublist
      ((s.queues queue).map QueueMessage.messageId) := by
  simp only [delete, Function.update_self]
  exact List.filter_sublist.map _

/-- A delete of a message that is hidden leaves the visible ones. -/
theorem visible_delete {id : ℕ} (h : ∀ m ∈ s.visible queue, m.messageId ≠ id)
    (receipt : Option ℕ) (purpose : Purpose) :
    (s.delete queue id receipt purpose).visible queue = s.visible queue := by
  simp only [visible, delete, Function.update_self]
  rw [List.filter_comm, List.filter_eq_self]
  intro m hm
  have hne := h m hm
  simp [hasReceipt, hne]

theorem queues_send_ne {q : String} (h : queue ≠ q) (text : String) (copyOf : Option ℕ) :
    (s.send q text copyOf).queues queue = s.queues queue := by
  simp only [send, Function.update_of_ne h]

/-! ### The operations of the loop -/

/-- An await returns what the operation is answered. -/
theorem run_await (op : QueueOperation) (s : Server) : (await op).run handle s = handle op s := by
  rw [await, Program.perform_bind, Program.run_call]
  rcases handle op s with ⟨e | v, s'⟩
  · rfl
  · rfl

/-- The queue is left alone, and these are its visible messages. -/
structure Offers (queue : String) (messages : List QueueMessage) (s : Server) : Prop where
  undisturbed : Undisturbed queue s
  shown : s.visible queue = messages

variable {messages : List QueueMessage}

theorem Offers.later (h : Offers queue messages s) : Offers queue messages s.later where
  undisturbed := h.undisturbed.of_sublist rfl (Nat.le_succ _) (List.Sublist.refl _)
  shown := h.shown

/-- What an operation that succeeds leaves is what is left of the queue after it was served. -/
theorem Offers.await (h : Offers queue messages s) {op : QueueOperation} {v : op.Value}
    {s' : Server} (hserve : serve s.choice.picks op s.later = (.ok v, s'))
    {Q : op.Value → Server → Prop} (hQ : Q v s') :
    (AzureQueue.await op).Returns handle s Q := by
  refine ⟨v, s', ?_, hQ⟩
  rw [run_await, h.undisturbed.handle_eq, hserve]

theorem Offers.getQueueClient (h : Offers queue messages s) (name : String) :
    (Queue.getQueueClient name).Returns handle s
      fun c s' => c = name ∧ Offers queue messages s' := by
  refine (h.await (Q := fun _ s' => Offers queue messages s') rfl h.later).bind ?_
  exact fun _ s' h' => Program.returns_pure ⟨rfl, h'⟩

theorem Offers.ensureQueueExists (h : Offers queue messages s) (c : QueueClient) :
    (Queue.ensureQueueExists c).Returns handle s fun _ s' => Offers queue messages s' :=
  h.await rfl h.later

/-- A receive takes the first messages off the list. -/
theorem Offers.getQueueMessages (h : Offers queue messages s) {k : ℤ} (hk : 1 ≤ k ∧ k ≤ 32) :
    (Queue.getQueueMessages queue k).Returns handle s fun items s' =>
      (∃ receipt, items = (messages.take k.toNat).map fun m => item (take receipt m)) ∧
      Offers queue (messages.drop k.toNat) s' := by
  refine (h.await (Q := fun _ s' => Offers queue messages s') rfl h.later).bind ?_
  intro timeout s₁ h₁
  have htaken := h₁.undisturbed.taken_eq k.toNat
  have hserve : serve s₁.choice.picks (.receiveMessages queue k timeout) s₁.later =
      (.ok (s₁.later.received s₁.choice.picks queue k.toNat),
        s₁.later.receive s₁.choice.picks queue k.toNat) := by rw [serve, if_pos hk]
  refine h₁.await hserve ?_
  refine ⟨⟨s₁.nextId, ?_⟩, ?_, ?_⟩
  · rw [received, htaken, h₁.shown]
    rfl
  · refine h₁.undisturbed.of_sublist rfl (Nat.le_succ _) ?_
    rw [ids_receive]
    exact List.Sublist.refl _
  · rw [visible_receive h₁.later.undisturbed.ids_nodup htaken, ← h₁.shown]
    rfl

/-- A message that was received is moved: nothing that can be taken goes. -/
theorem Offers.moveToDeadQueue (h : Offers queue messages s) {x : DequeuedMessageItem}
    (hx : ∀ m ∈ messages, m.messageId ≠ x.messageId) :
    (Queue.moveToDeadQueue queue (deadName queue) x).Returns handle s
      fun _ s' => Offers queue messages s' := by
  have hdead : queue ≠ deadName queue := fun e =>
    absurd (iterate_deadName_inj (j := 0) (k := 1) e) (by decide)
  have hsent : (createQueueMessage (deadName queue) (.str x.messageText)
      (some x.messageId)).Returns handle s fun _ s' => Offers queue messages s' := by
    have hqueue := queues_send_ne (s := s.later) hdead (quote x.messageText) (some x.messageId)
    refine (h.await (Q := fun id s' => id = some s.nextId ∧ Offers queue messages s')
      rfl ⟨rfl, ?_, ?_⟩).bind ?_
    · refine h.undisturbed.of_sublist rfl (Nat.le_succ _) ?_
      rw [hqueue]
      exact List.Sublist.refl _
    · rw [visible, hqueue, ← h.shown]
      rfl
    · rintro _ s' ⟨rfl, h'⟩
      exact Program.returns_pure h'
  refine hsent.bind fun _ s₁ h₁ => ?_
  -- a rejected delete is caught; either way the visible messages stay
  have hkept : Offers queue messages
      (handle (.deleteMessage queue x.messageId (some x.popReceipt) .moved) s₁).2 := by
    rw [h₁.undisturbed.handle_eq, serve]
    split_ifs
    · refine ⟨h₁.undisturbed.of_sublist rfl (Nat.le_succ _) (ids_delete _ _ _ _ _), ?_⟩
      refine (visible_delete ?_ _ _).trans h₁.shown
      exact fun m hm => hx m (h₁.shown ▸ hm)
    · exact h₁.later
  refine ⟨(), _, ?_, hkept⟩
  rw [deleteQueueMessage, Program.run_tryCatch, run_await]
  rcases handle (.deleteMessage queue x.messageId (some x.popReceipt) .moved) s₁ with ⟨e | v, s'⟩
  · rfl
  · rfl

/-- The received messages that are not over the threshold are handed out, the others moved. -/
theorem Offers.distribute (h : Offers queue messages s) {items : List DequeuedMessageItem}
    (hitems : ∀ x ∈ items, ∀ m ∈ messages, m.messageId ≠ x.messageId) (had : List Message) :
    (Queue.distribute queue (deadName queue) had items).Returns handle s fun batch s' =>
      batch = had ++ (items.filter fun x => x.dequeueCount ≤ maxDequeueCount).map
        DequeuedMessageItem.toMessage ∧ Offers queue messages s' := by
  induction items generalizing had s with
  | nil => exact Program.returns_pure ⟨(List.append_nil had).symm, h⟩
  | cons x items ih =>
    have hrest : ∀ y ∈ items, ∀ m ∈ messages, m.messageId ≠ y.messageId :=
      fun y hy => hitems y (List.mem_cons_of_mem _ hy)
    unfold Queue.distribute
    by_cases hcount : x.dequeueCount > maxDequeueCount
    · have hover : ¬ x.dequeueCount ≤ maxDequeueCount := Nat.not_le.mpr hcount
      rw [if_pos hcount, List.filter_cons_of_neg (by simpa using hover)]
      exact (h.moveToDeadQueue (hitems x List.mem_cons_self)).bind fun _ s₁ h₁ => ih h₁ hrest had
    · have hunder : x.dequeueCount ≤ maxDequeueCount := Nat.not_lt.mp hcount
      rw [if_neg hcount, List.filter_cons_of_pos (by simpa using hunder), List.map_cons]
      refine (ih h hrest _).mono ?_
      rintro batch s' ⟨rfl, h'⟩
      exact ⟨by rw [List.append_assoc, List.singleton_append], h'⟩

/-- **One `getMessages`** takes a batch off the list and hands out the live messages of it. -/
theorem Offers.getMessages (h : Offers queue messages s) {k : ℤ} (hk : 1 ≤ k ∧ k ≤ 32) :
    (Queue.getMessages queue k).Returns handle s fun batch s' =>
      (∃ receipt, batch = ((messages.take k.toNat).filter live).map fun m =>
        (item (take receipt m)).toMessage) ∧
      Offers queue (messages.drop k.toNat) s' := by
  refine (h.getQueueClient queue).bind ?_
  rintro _ s₁ ⟨rfl, h₁⟩
  refine (h₁.getQueueClient (deadName _)).bind ?_
  rintro _ s₂ ⟨rfl, h₂⟩
  refine (h₂.ensureQueueExists _).bind fun _ s₃ h₃ => ?_
  refine (h₃.ensureQueueExists _).bind fun _ s₄ h₄ => ?_
  refine (h₄.getQueueMessages hk).bind ?_
  rintro _ s₅ ⟨⟨receipt, rfl⟩, h₅⟩
  have hids : (messages.map QueueMessage.messageId).Nodup := by
    rw [← h₄.shown]
    exact h₄.undisturbed.ids_nodup.sublist (List.filter_sublist.map _)
  -- a message that was received is not one of those that are left
  have hapart : ∀ x ∈ (messages.take k.toNat).map (fun m => item (take receipt m)),
      ∀ m ∈ messages.drop k.toNat, m.messageId ≠ x.messageId := by
    intro x hx m hm heq
    obtain ⟨m₀, hm₀, rfl⟩ := List.mem_map.mp hx
    rw [← List.take_append_drop k.toNat messages, List.map_append] at hids
    have hid : m.messageId = m₀.messageId := heq
    have hmem : m.messageId ∈ (messages.drop k.toNat).map QueueMessage.messageId :=
      List.mem_map_of_mem hm
    rw [hid] at hmem
    exact List.disjoint_of_nodup_append hids (List.mem_map_of_mem hm₀) hmem
  refine (h₅.distribute hapart []).mono ?_
  rintro _ s' ⟨rfl, h'⟩
  refine ⟨⟨receipt, ?_⟩, h'⟩
  rw [List.nil_append, List.filter_map, List.map_map]
  rfl

end Server

/-! ## The loop -/

/-- What a caller sees of a message. -/
def Message.content (m : Message) : ℕ × String := (m.messageId, m.messageText)

def QueueMessage.content (m : QueueMessage) : ℕ × String := (m.messageId, m.messageText)

open Server in
/-- How far the loop is: it has `messages`, and `left` of `all` are still in the queue. -/
structure Gathered (n : ℕ) (all : List QueueMessage) (messages : List Message)
    (left : List QueueMessage) : Prop where
  content : messages.map Message.content ++ (left.filter live).map QueueMessage.content =
    (all.filter live).map QueueMessage.content
  fed : Fed live 32 n all ↔ Fed live 32 (n - messages.length) left
  bound : messages.length ≤ n

namespace Gathered

open Server

variable {n : ℕ} {all left : List QueueMessage} {messages : List Message}

theorem start (n : ℕ) (all : List QueueMessage) : Gathered n all [] all where
  content := rfl
  fed := Iff.rfl
  bound := Nat.zero_le n

theorem length_live (h : Gathered n all messages left) :
    messages.length + (left.filter live).length = (all.filter live).length := by
  have hlength := congrArg List.length h.content
  simpa using hlength

/-- A batch with a live message takes the loop on. -/
theorem batch (h : Gathered n all messages left) {batch : List Message}
    (hbatch : batch.map Message.content =
      (goods live 32 (n - messages.length) left).map QueueMessage.content)
    (hne : batch ≠ []) :
    Gathered n all (messages ++ batch) (rest 32 (n - messages.length) left) where
  content := by
    rw [List.map_append, hbatch, List.append_assoc, ← List.map_append, goods_append]
    exact h.content
  fed := by
    have hgoods : goods live 32 (n - messages.length) left ≠ [] := by
      intro hnil
      rw [hnil, List.map_nil, List.map_eq_nil_iff] at hbatch
      exact hne hbatch
    have hlength : batch.length = (goods live 32 (n - messages.length) left).length := by
      simpa using congrArg List.length hbatch
    rw [h.fed, fed_iff_of_goods hgoods, List.length_append, hlength, Nat.sub_sub]
  bound := by
    have hlength : batch.length = (goods live 32 (n - messages.length) left).length := by
      simpa using congrArg List.length hbatch
    have hle := length_goods_le live 32 (n - messages.length) left
    have hbound := h.bound
    rw [List.length_append]
    omega

/-- What the loop returns is in order a part of what there is, and all of it, or as much as
was asked for, exactly when the queue was fed to it. -/
theorem result (h : Gathered n all messages left)
    (hstop : messages.length = n ∨ (messages.length < n ∧
      goods live 32 (n - messages.length) left = [])) :
    messages.map Message.content <+: (all.filter live).map QueueMessage.content ∧
      (messages.length = min n (all.filter live).length ↔ Fed live 32 n all) := by
  refine ⟨⟨_, h.content⟩, ?_⟩
  have htotal := h.length_live
  rcases hstop with hfull | ⟨hless, hempty⟩
  · rw [h.fed, hfull, Nat.sub_self]
    have hmin : n = min n (all.filter live).length := by omega
    exact ⟨fun _ => Fed.enough, fun _ => hmin⟩
  · rw [h.fed, fed_iff_of_goods_eq_nil (by omega) hempty, ← List.length_eq_zero_iff]
    omega

end Gathered

section

open Server

variable {queue : String} {s : Server}

/-- The numbers of messages of a batch, in the code and on the list. -/
theorem toNat_batchCount {n len : ℕ} (h : len < n) :
    (if (n : ℤ) - len > 32 then 32 else (n : ℤ) - len).toNat = min (n - len) 32 := by
  split_ifs <;> omega

/-- **The loop ends**, and what it returns is told by `Gathered`. -/
theorem returns_getMessagesWithTotalCount (h : Undisturbed queue s) {n : ℕ} (hn : 1 ≤ n) :
    (getMessagesWithTotalCount queue n).Returns handle s fun r _ => ∃ messages,
      r = some messages ∧ messages.length ≤ n ∧
      messages.map Message.content <+:
        ((s.visible queue).filter live).map QueueMessage.content ∧
      (messages.length = min n ((s.visible queue).filter live).length ↔
        Fed live 32 n (s.visible queue)) := by
  refine (Program.returns_iterate (I := fun messages s' => messages.length < n ∧
      ∃ left, Offers queue left s' ∧ Gathered n (s.visible queue) messages left)
    (Q := fun messages _ => messages.length ≤ n ∧
      messages.map Message.content <+:
        ((s.visible queue).filter live).map QueueMessage.content ∧
      (messages.length = min n ((s.visible queue).filter live).length ↔
        Fed live 32 n (s.visible queue)))
    (μ := fun messages => n - messages.length) ?_ ?_ (by simp)).mono ?_
  · -- one turn: an empty batch ends the loop, and any other shortens what is missing
    rintro messages s₁ ⟨hless, left, hoffers, hgathered⟩
    have hrange : 1 ≤ (if (n : ℤ) - messages.length > 32 then 32 else (n : ℤ) - messages.length) ∧
        (if (n : ℤ) - messages.length > 32 then 32 else (n : ℤ) - messages.length) ≤ 32 := by
      split_ifs <;> omega
    refine (hoffers.getMessages hrange).bind ?_
    rintro batch s₂ ⟨⟨receipt, hbatch⟩, hoffers'⟩
    rw [toNat_batchCount hless] at hbatch hoffers'
    have hcontent : batch.map Message.content =
        (goods live 32 (n - messages.length) left).map QueueMessage.content := by
      rw [hbatch, List.map_map]
      rfl
    by_cases hempty : batch.length = 0
    · rw [if_pos hempty]
      have hnil : goods live 32 (n - messages.length) left = [] := by
        rw [List.eq_nil_of_length_eq_zero hempty, List.map_nil] at hcontent
        exact List.map_eq_nil_iff.mp hcontent.symm
      exact Program.returns_pure ⟨hgathered.bound, hgathered.result (Or.inr ⟨hless, hnil⟩)⟩
    · rw [if_neg hempty]
      have hnext := hgathered.batch hcontent fun e => hempty (by rw [e, List.length_nil])
      by_cases hgoes : ((messages ++ batch).length : ℤ) < n
      · rw [if_pos hgoes]
        have hmeasure : n - (messages ++ batch).length < n - messages.length := by
          rw [List.length_append]
          omega
        exact Program.returns_pure ⟨⟨by exact_mod_cast hgoes, _, hoffers', hnext⟩, hmeasure⟩
      · rw [if_neg hgoes]
        have hbound := hnext.bound
        have hfull : (messages ++ batch).length = n := by omega
        exact Program.returns_pure ⟨hbound, hnext.result (Or.inl hfull)⟩
  · exact ⟨hn, s.visible queue, ⟨h, rfl⟩, .start n _⟩
  · rintro r s' ⟨messages, rfl, hresult⟩
    exact ⟨messages, rfl, hresult⟩

/-- **`getMessagesWithTotalCount` returns as many messages as there are, exactly when it is
fed to them.** Every receive asks for 1 to 32 messages, the loop ends, and it returns the
first of the messages that are not over the threshold, each once and at most `n`. Their
number is the smaller of `n` and what there is if and only if no batch consists of messages
over the threshold while others are wanted and left. -/
theorem totalCount_exact_iff_fed (h : Undisturbed queue s) {n : ℕ} (hn : 1 ≤ n) :
    (getMessagesWithTotalCount queue n).Meets (fun _ op => InRange op) (fun _ _ => True) [] ∧
    ∃ messages s', (getMessagesWithTotalCount queue n).run handle s = (.ok (some messages), s') ∧
      messages.length ≤ n ∧ (messages.map Message.messageId).Nodup ∧
      messages.map Message.content <+:
        ((s.visible queue).filter live).map QueueMessage.content ∧
      (messages.length = min n ((s.visible queue).filter live).length ↔
        Fed live 32 n (s.visible queue)) := by
  refine ⟨meets_inRange_getMessagesWithTotalCount queue hn, ?_⟩
  obtain ⟨_, s', hrun, messages, rfl, hbound, hpart, hcount⟩ :=
    returns_getMessagesWithTotalCount h hn
  refine ⟨messages, s', hrun, hbound, ?_, hpart, hcount⟩
  have hids : messages.map Message.messageId <+:
      ((s.visible queue).filter live).map QueueMessage.messageId := by
    have hfirst := hpart.map Prod.fst
    rwa [List.map_map, List.map_map] at hfirst
  have hnodup : (((s.visible queue).filter live).map QueueMessage.messageId).Nodup :=
    h.ids_nodup.sublist ((List.filter_sublist.trans List.filter_sublist).map _)
  exact hnodup.sublist hids.sublist

end

/-- A queue with two messages, of which the first one was taken before. -/
def Server.takenBefore : Server :=
  { Server.sample with
    queues := fun q => if q = "q" then [⟨0, "\"a\"", 1, 0, true⟩, ⟨1, "\"b\"", 0, 1, true⟩] else []
    nextId := 2
    choices := fun _ => ⟨.succeeds, fun _ => false, [0, 1]⟩ }

theorem Server.undisturbed_takenBefore : Server.takenBefore.Undisturbed "q" where
  succeeds := fun _ _ => rfl
  still := fun _ _ _ => rfl
  inOrder := fun _ _ => List.Sublist.refl _
  nodup := fun _ _ => by
    show [0, 1].Nodup
    decide

/-- Asked for two messages, the loop returns the one that is there. -/
theorem totalCount_exact_iff_fed_two :
    ∃ messages s', (getMessagesWithTotalCount "q" 2).run Server.handle Server.takenBefore =
        (.ok (some messages), s') ∧
      messages.length = min 2 ((Server.takenBefore.visible "q").filter Server.live).length := by
  obtain ⟨-, messages, s', hrun, -, -, -, hcount⟩ :=
    totalCount_exact_iff_fed (n := 2) Server.undisturbed_takenBefore (by decide)
  refine ⟨messages, s', hrun, hcount.mpr (.batch ?_ (.dry ?_))⟩
  · decide
  · decide

/-- Asked for one message, the loop takes the first one, moves it and stops; the second one
would have been the one asked for. -/
theorem totalCount_stops_short :
    Server.takenBefore.Undisturbed "q" ∧
      ∃ s', (getMessagesWithTotalCount "q" 1).run Server.handle Server.takenBefore =
        (.ok (some []), s') ∧
      min 1 ((Server.takenBefore.visible "q").filter Server.live).length = 1 :=
  ⟨Server.undisturbed_takenBefore, _, rfl, by decide⟩

end WebInsights.AzureQueue
