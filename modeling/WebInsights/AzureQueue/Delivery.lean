/-
The queue loses no message.

Every message on the server is a copy of one that was created: `k` moves later it is in
the queue whose name has `k` suffixes more, and its text is quoted `k` times. What a call
that moves a message relies on is that there is a copy further on (`Copy`), and that stays
true whatever the others do, because whoever takes away that copy relies on the same thing
one queue further. So no interleaving and no failure can lose a message; only a consumer's
`deleteMessage` takes one away.
-/
import WebInsights.AzureQueue.Calls

set_option autoImplicit false

namespace WebInsights.AzureQueue

open Effect Js Queue

/-! ## Names of dead-letter queues -/

theorem deadName_injective : Function.Injective deadName := by
  intro q q' h
  have hlist := congrArg String.toList h
  simp only [deadName, String.toList_append] at hlist
  exact String.toList_injective (List.append_cancel_right hlist)

theorem length_iterate_deadName (q : String) (k : ℕ) :
    (deadName^[k] q).length = q.length + 5 * k := by
  induction k with
  | zero => rfl
  | succ k ih =>
    rw [Function.iterate_succ_apply', deadName, String.length_append, ih]
    have hsuffix : "-dead".length = 5 := by decide
    omega

theorem iterate_deadName_inj {q : String} {j k : ℕ} (h : deadName^[j] q = deadName^[k] q) :
    j = k := by
  have hlength := congrArg String.length h
  rw [length_iterate_deadName, length_iterate_deadName] at hlength
  omega

/-- The queue a message is in after `k` moves. -/
def Origin.place (o : Origin) (k : ℕ) : String := deadName^[k] o.queue

theorem Origin.place_succ (o : Origin) (k : ℕ) : o.place (k + 1) = deadName (o.place k) :=
  Function.iterate_succ_apply' deadName k o.queue

/-! ## Copies -/

namespace Server

variable {Reads : String → Prop}

/-- The message that `q` holds under `id` is where the moves of its origin lead, and each
queue it was moved out of is read by someone. -/
structure Placed (Reads : String → Prop) (s : Server) (q : String) (id : ℕ) (text : String) :
    Prop where
  known : id < s.nextId
  moves : ∃ k, q = (s.origin id).place k ∧ text = quote^[k] (s.origin id).text ∧
    ∀ j < k, Reads ((s.origin id).place j)

/-- All messages on the server are placed. -/
def Ordered (Reads : String → Prop) (s : Server) : Prop :=
  ∀ q id text, s.Holds q id text → Placed Reads s q id text

/-- A consumer deleted the message, or a copy of it is at least `k` moves on. -/
def Copy (s : Server) (o : Origin) (k : ℕ) : Prop :=
  o ∈ s.consumed ∨ ∃ j id text, k ≤ j ∧ s.Holds (o.place j) id text ∧ s.origin id = o

/-- What a step takes nothing of away: the origins that are known and the copies. -/
structure Keeps (s s' : Server) : Prop where
  nextId : s.nextId ≤ s'.nextId
  origin : ∀ id < s.nextId, s'.origin id = s.origin id
  copy : ∀ o k, s.Copy o k → s'.Copy o k

theorem Placed.keeps {s s' : Server} (h : Keeps s s') {q : String} {id : ℕ} {text : String}
    (hp : Placed Reads s q id text) : Placed Reads s' q id text where
  known := lt_of_lt_of_le hp.known h.nextId
  moves := by
    rw [h.origin id hp.known]
    exact hp.moves

theorem Keeps.trans {s₁ s₂ s₃ : Server} (h : Keeps s₁ s₂) (h' : Keeps s₂ s₃) : Keeps s₁ s₃ where
  nextId := h.nextId.trans h'.nextId
  origin := fun id hid => (h'.origin id (lt_of_lt_of_le hid h.nextId)).trans (h.origin id hid)
  copy := fun o k hcopy => h'.copy o k (h.copy o k hcopy)

theorem SameMessages.keeps {s s' : Server} (h : SameMessages s s') : Keeps s s' where
  nextId := h.nextId
  origin := fun id _ => by rw [h.origin]
  copy := by
    rintro o k (hconsumed | ⟨j, id, text, hle, hholds, horigin⟩)
    · exact Or.inl (h.consumed ▸ hconsumed)
    · refine Or.inr ⟨j, id, text, hle, (h.holds _ _ _).mpr hholds, ?_⟩
      rw [h.origin, horigin]

theorem SameMessages.ordered {s s' : Server} (h : SameMessages s s') (hs : Ordered Reads s) :
    Ordered Reads s' := fun q id text hholds =>
  (hs q id text ((h.holds q id text).mp hholds)).keeps h.keeps

/-! ## Sends -/

theorem origin_send_ne {s : Server} {q text : String} {copyOf : Option ℕ} {id : ℕ}
    (h : id < s.nextId) : (s.send q text copyOf).origin id = s.origin id := by
  unfold send
  exact Function.update_of_ne (Nat.ne_of_lt h) _ _

theorem origin_send_self (s : Server) (q text : String) (copyOf : Option ℕ) :
    (s.send q text copyOf).origin s.nextId = s.originOf q text copyOf := by
  unfold send
  exact Function.update_self _ _ _

theorem keeps_send {s : Server} (hs : Ordered Reads s) (q text : String) (copyOf : Option ℕ) :
    Keeps s (s.send q text copyOf) where
  nextId := Nat.le_succ _
  origin := fun id hid => origin_send_ne hid
  copy := by
    rintro o k (hconsumed | ⟨j, id, text', hle, hholds, horigin⟩)
    · exact Or.inl hconsumed
    · refine Or.inr ⟨j, id, text', hle, (holds_send s q text copyOf _ _ _).mpr (Or.inl hholds), ?_⟩
      rw [origin_send_ne (hs _ _ _ hholds).known, horigin]

/-- A confirmed send is a copy: of a new message in its own queue, or of the message it was
sent for. -/
theorem copy_send (s : Server) (q text : String) (copyOf : Option ℕ) {k : ℕ}
    (hq : q = (s.originOf q text copyOf).place k) :
    (s.send q text copyOf).Copy (s.originOf q text copyOf) k := by
  refine Or.inr ⟨k, s.nextId, text, le_rfl, ?_, origin_send_self s q text copyOf⟩
  exact (holds_send s q text copyOf _ _ _).mpr (Or.inr ⟨hq.symm, rfl, rfl⟩)

/-- A move is one queue on. -/
theorem ordered_send {s : Server} (hs : Ordered Reads s) {q text : String} {copyOf : Option ℕ}
    (hmove : ∀ id, copyOf = some id → ∃ q₀ text₀, Placed Reads s q₀ id text₀ ∧ Reads q₀ ∧
      q = deadName q₀ ∧ text = quote text₀) : Ordered Reads (s.send q text copyOf) := by
  intro q' id text' hholds
  rcases (holds_send s q text copyOf q' id text').mp hholds with hold | ⟨rfl, rfl, rfl⟩
  · exact (hs _ _ _ hold).keeps (keeps_send hs q text copyOf)
  · refine ⟨Nat.lt_succ_self _, ?_⟩
    rw [origin_send_self]
    rcases copyOf with _ | id
    · exact ⟨0, rfl, rfl, nofun⟩
    · obtain ⟨q₀, text₀, ⟨-, k, hq₀, htext₀, hreads⟩, hread, hq, htext⟩ := hmove id rfl
      -- a copy is one move further than the message it was sent for
      refine ⟨k + 1, ?_, ?_, ?_⟩
      · exact hq.trans (by rw [originOf, Origin.place_succ, ← hq₀])
      · exact htext.trans (by rw [originOf, Function.iterate_succ_apply', ← htext₀])
      · intro j hj
        rcases Nat.lt_succ_iff_lt_or_eq.mp hj with hj | rfl
        · exact hreads j hj
        · rw [originOf, ← hq₀]
          exact hread

/-! ## Deletes -/

/-- Who deletes a moved message relies on a copy one queue further, so every copy that is
relied on stays or is replaced by one that is even further. -/
theorem keeps_delete {s : Server} {q : String} {id : ℕ} {receipt : Option ℕ} {purpose : Purpose}
    (hmoved : purpose = .moved → ∃ k, q = (s.origin id).place k ∧ s.Copy (s.origin id) (k + 1)) :
    Keeps s (s.delete q id receipt purpose) where
  nextId := le_rfl
  origin := fun _ _ => rfl
  copy := by
    have hconsumed : ∀ o ∈ s.consumed, o ∈ (s.delete q id receipt purpose).consumed := by
      intro o ho
      unfold delete
      by_cases hp : purpose = .consumed
      · simp only [if_pos hp]
        exact List.mem_cons_of_mem _ ho
      · simp only [if_neg hp]
        exact ho
    -- a copy elsewhere stays
    have hstays : ∀ o j id' text, s.Holds (o.place j) id' text → s.origin id' = o →
        (o.place j = q ∧ id' = id) ∨ ∀ k ≤ j, (s.delete q id receipt purpose).Copy o k := by
      intro o j id' text hholds horigin
      rcases holds_delete.2 hholds with hholds' | hgone
      · exact Or.inr fun k hk => Or.inr ⟨j, id', text, hk, hholds', horigin⟩
      · exact Or.inl hgone
    rintro o k (ho | ⟨j, id', text, hle, hholds, horigin⟩)
    · exact Or.inl (hconsumed o ho)
    · rcases hstays o j id' text hholds horigin with ⟨hq, rfl⟩ | hcopy
      · cases purpose with
        | consumed =>
          left
          unfold delete
          rw [if_pos rfl, horigin]
          exact List.mem_cons_self
        | moved =>
          -- the copy that the move relied on is a queue further, so it is not the one deleted
          obtain ⟨i, hi, hcopy⟩ := hmoved rfl
          rw [horigin] at hi hcopy
          have hij : j = i := iterate_deadName_inj (hq.trans hi)
          rcases hcopy with ho | ⟨j', id'', text', hle', hholds', horigin'⟩
          · exact Or.inl (hconsumed o ho)
          · rcases hstays o j' id'' text' hholds' horigin' with ⟨hq', -⟩ | hcopy
            · have hij' : j' = i := iterate_deadName_inj (hq'.trans hi)
              omega
            · exact hcopy k (by omega)
      · exact hcopy k hle

theorem ordered_delete {s : Server} (hs : Ordered Reads s) (q : String) (id : ℕ)
    (receipt : Option ℕ) (purpose : Purpose) : Ordered Reads (s.delete q id receipt purpose) := by
  intro q' id' text hholds
  have hp := hs q' id' text (holds_delete.1 hholds)
  exact ⟨hp.known, hp.moves⟩

/-! ## One operation -/

/-- What an operation relies on in the state it is performed in. -/
def Relies (Reads : String → Prop) (s : Server) : QueueOperation → Prop
  | .receiveMessages q _ _ => Reads q
  | .sendMessage q text (some id) => ∃ q₀ text₀, Placed Reads s q₀ id text₀ ∧ Reads q₀ ∧
      q = deadName q₀ ∧ text = quote text₀
  | .deleteMessage q id _ .moved =>
    ∃ k, q = (s.origin id).place k ∧ id < s.nextId ∧ s.Copy (s.origin id) (k + 1)
  | _ => True

theorem Performs.keeps {s s' : Server} {op : QueueOperation} (h : Performs s op s')
    (hs : Ordered Reads s) (hop : Relies Reads s op) : Keeps s s' ∧ Ordered Reads s' := by
  cases h with
  | same h => exact ⟨h.keeps, h.ordered hs⟩
  | @sent q text copyOf s₁ _ h₁ h =>
    subst h
    have hs₁ := h₁.ordered hs
    refine ⟨h₁.keeps.trans (keeps_send hs₁ q text copyOf), ordered_send hs₁ ?_⟩
    rintro id rfl
    obtain ⟨q₀, text₀, hplaced, hrest⟩ := hop
    exact ⟨q₀, text₀, hplaced.keeps h₁.keeps, hrest⟩
  -- only a delete of a message that was moved needs its copy
  | @deleted q id receipt purpose s₁ _ h₁ h =>
    subst h
    refine ⟨h₁.keeps.trans (keeps_delete ?_), ordered_delete (h₁.ordered hs) q id receipt purpose⟩
    rintro rfl
    obtain ⟨k, hq, hid, hcopy⟩ := hop
    refine ⟨k, ?_, ?_⟩
    · rw [h₁.origin]
      exact hq
    · rw [h₁.origin]
      exact h₁.keeps.copy _ _ hcopy

/-- What an answer says about the state from then on. -/
def Fact (Reads : String → Prop) (s : Server) : (op : QueueOperation) → op.Result → Prop
  | .receiveMessages q _ _, .ok items =>
    Reads q ∧ ∀ x ∈ items, Placed Reads s q x.messageId x.messageText
  | .sendMessage q text none, .ok (some id) => s.Copy ⟨q, id, text⟩ 0
  | .sendMessage q _ (some id), .ok (some _) =>
    id < s.nextId ∧ ∃ k, q = (s.origin id).place (k + 1) ∧ s.Copy (s.origin id) (k + 1)
  | _, _ => True

theorem Fact.keeps {s s' : Server} (h : Keeps s s') {op : QueueOperation} {r : op.Result}
    (hf : Fact Reads s op r) : Fact Reads s' op r := by
  unfold Fact at hf ⊢
  split at hf
  · exact ⟨hf.1, fun x hx => (hf.2 x hx).keeps h⟩
  · exact h.copy _ _ hf
  · obtain ⟨hid, k, hq, hcopy⟩ := hf
    refine ⟨lt_of_lt_of_le hid h.nextId, k, ?_⟩
    rw [h.origin _ hid]
    exact ⟨hq, h.copy _ _ hcopy⟩
  · trivial

/-- What a careful call was answered is what its next operation relies on. -/
theorem relies_of_careful {s : Server} {seen : Answers} {op : QueueOperation}
    (hseen : ∀ x ∈ seen, Fact Reads s x.1 x.2) (h : Careful Reads seen op) : Relies Reads s op := by
  cases op with
  | receiveMessages q n timeout => exact h
  | sendMessage q text copyOf =>
    cases copyOf with
    | none => trivial
    | some id =>
      -- the text of the copy was received, so the message was there
      obtain ⟨q₀, x, ⟨n, timeout, items, hmem, hx⟩, rfl, hq, htext, -⟩ := h
      have hfact := hseen _ hmem
      exact ⟨q₀, x.messageText, hfact.2 x hx, hfact.1, hq, htext⟩
  | deleteMessage q id receipt purpose =>
    cases purpose with
    | consumed => trivial
    | moved =>
      -- the copy was sent to the dead letter queue before
      obtain ⟨text, id', hmem⟩ := h
      obtain ⟨hid, k, hq, hcopy⟩ := hseen _ hmem
      rw [Origin.place_succ] at hq
      exact ⟨k, deadName_injective hq, hid, hcopy⟩
  | _ => trivial

/-- An answer tells a fact about the state it leaves. -/
theorem fact_handle {s : Server} {op : QueueOperation} (hs : Ordered Reads s)
    (hop : Relies Reads s op) : Fact Reads (handle op s).2 op (handle op s).1 := by
  have hkeeps := ((performs_handle op s).keeps hs hop).1
  rcases hanswer : (handle op s).1 with e | v
  · unfold Fact
    split <;> trivial
  · cases op with
    | receiveMessages q n timeout =>
      refine ⟨hop, fun x hx => ?_⟩
      obtain ⟨rfl, -⟩ := handle_receive hanswer
      obtain ⟨m, hm, rfl, -⟩ := mem_receive hx
      have hholds : s.tick.Holds q m.messageId m.messageText := ⟨m, hm, rfl, rfl⟩
      exact (hs _ _ _ (((sameMessages_tick s).holds _ _ _).mp hholds)).keeps hkeeps
    | sendMessage q text copyOf =>
      rcases v with _ | id
      · cases copyOf <;> trivial
      · obtain ⟨rfl, hstate⟩ := handle_send hanswer
        rw [hstate] at hkeeps ⊢
        cases copyOf with
        | none => exact copy_send s.tick q text none rfl
        | some id =>
          obtain ⟨q₀, text₀, ⟨hid, k, hq₀, -, -⟩, -, hq, -⟩ := hop
          -- the copy of a moved message has its origin
          have hplace : q = (s.origin id).place (k + 1) := by
            rw [hq, Origin.place_succ, ← hq₀]
          have horigin := hkeeps.origin id hid
          refine ⟨lt_of_lt_of_le hid hkeeps.nextId, k, ?_, ?_⟩
          · rw [horigin]
            exact hplace
          · rw [horigin]
            exact copy_send s.tick q text (some id) hplace
    | _ => trivial

/-- Nothing was moved yet: every message is where it was created. -/
structure Initial (s : Server) : Prop where
  placed : ∀ q id text, s.Holds q id text → id < s.nextId ∧ s.origin id = ⟨q, id, text⟩

theorem Initial.ordered {s : Server} (h : s.Initial) : Ordered Reads s := by
  intro q id text hholds
  obtain ⟨hid, horigin⟩ := h.placed q id text hholds
  refine ⟨hid, 0, ?_⟩
  rw [horigin]
  exact ⟨rfl, rfl, nofun⟩

end Server

/-! ## Runs of many clients -/

section

variable {ι : Type} [DecidableEq ι] {maxEnqueueRetryCount : ℕ} {calls : ι → Call} {s₀ : Server}
  {p : Pool ι QueueOperation QueueOperation.Result Server QueueError Outcome}

/-- Some client takes messages from this queue. -/
def IsRead (calls : ι → Call) (queue : String) : Prop := ∃ i, (calls i).Reads queue

/-- The calls of the clients, all at their beginning. -/
def clients (maxEnqueueRetryCount : ℕ) (calls : ι → Call) (s₀ : Server) :
    Pool ι QueueOperation QueueOperation.Result Server QueueError Outcome :=
  Pool.start (fun i => (calls i).program maxEnqueueRetryCount) s₀

/-- **The invariant of every run.** All messages are placed, and what any call was
answered tells a fact about the state. -/
theorem run_ordered (h₀ : s₀.Initial)
    (hrun : Pool.Runs Server.handle (fun _ _ _ => True) (clients maxEnqueueRetryCount calls s₀) p) :
    Server.Ordered (IsRead calls) p.shared ∧
      ∀ i, ∀ x ∈ (p.threads i).seen, Server.Fact (IsRead calls) p.shared x.1 x.2 := by
  refine hrun.invariant_reached (I := fun p => Server.Ordered (IsRead calls) p.shared ∧
    ∀ i, ∀ x ∈ (p.threads i).seen, Server.Fact (IsRead calls) p.shared x.1 x.2)
    ⟨h₀.ordered, fun i x hx => absurd hx List.not_mem_nil⟩ ?_
  rintro p i op k hp ⟨hordered, hfacts⟩ - hk
  -- the caller relies on what it was answered; that carries over to the new state
  have hcareful : Careful (IsRead calls) (p.threads i).seen op := by
    have h := hp.allowed (fun i => meets_program maxEnqueueRetryCount (calls i)) hk
    unfold Careful at h ⊢
    split at h
    · exact ⟨i, h⟩
    · exact h
    · exact h
    · trivial
  have hrelies := Server.relies_of_careful (hfacts i) hcareful
  obtain ⟨hkeeps, hordered'⟩ := (Server.performs_handle op p.shared).keeps hordered hrelies
  refine ⟨hordered', fun j x hx => ?_⟩
  by_cases hj : j = i
  · subst hj
    rw [Pool.perform_threads_self] at hx
    rcases List.mem_append.mp hx with hx | hx
    · exact (hfacts j x hx).keeps hkeeps
    · obtain rfl := List.mem_singleton.mp hx
      exact Server.fact_handle hordered hrelies
  · rw [Pool.perform_threads_ne _ p hj] at hx
    exact (hfacts j x hx).keeps hkeeps

/-- **A created message stays.** Whatever the clients do and whichever of their calls fail,
a message that was created and that no consumer's `deleteMessage` removed is in its queue,
or where the moves of `getMessages` took it; in its queue or its dead-letter queue, if
nobody takes messages from that one. -/
theorem createMessage_kept (h₀ : s₀.Initial)
    (hrun : Pool.Runs Server.handle (fun _ _ _ => True) (clients maxEnqueueRetryCount calls s₀) p)
    {i : ι} {queue : String} {message : Val} (hcall : calls i = .createMessage queue message)
    (hdone : (p.threads i).prog = .pure (.created true)) :
    ∃ text id, stringify message = some text ∧ Confirmed (p.threads i).seen queue text none id ∧
      (⟨queue, id, text⟩ ∈ p.shared.consumed ∨
        (∃ k id', p.shared.Holds (deadName^[k] queue) id' (quote^[k] text) ∧
          p.shared.origin id' = ⟨queue, id, text⟩) ∧
        (¬ IsRead calls (deadName queue) → ∃ id', p.shared.origin id' = ⟨queue, id, text⟩ ∧
          (p.shared.Holds queue id' text ∨ p.shared.Holds (deadName queue) id' (quote text)))) := by
  have hends := hrun.returned (fun i => meets_program maxEnqueueRetryCount (calls i)) hdone
  rw [hcall] at hends
  obtain ⟨text, id, htext, hconfirmed⟩ := hends rfl
  obtain ⟨hordered, hfacts⟩ := run_ordered h₀ hrun
  refine ⟨text, id, htext, hconfirmed, ?_⟩
  have hcopy : p.shared.Copy ⟨queue, id, text⟩ 0 := hfacts i _ hconfirmed
  rcases hcopy with hconsumed | ⟨k, id', text', -, hholds, horigin⟩
  · exact Or.inl hconsumed
  · right
    obtain ⟨-, j, hplace, htext', hreads⟩ := hordered _ _ _ hholds
    rw [horigin] at hplace htext' hreads
    obtain rfl : k = j := iterate_deadName_inj hplace
    rw [htext'] at hholds
    refine ⟨⟨k, id', hholds, horigin⟩, fun hunread => ⟨id', horigin, ?_⟩⟩
    -- two moves would have been made out of the dead-letter queue
    match k with
    | 0 => exact Or.inl hholds
    | 1 => exact Or.inr hholds
    | k + 2 => exact absurd (hreads 1 (by omega)) hunread

end

/-! ## A message that is moved twice -/

/-- An empty service on which every call succeeds and every visibility timeout has passed
by the next one. -/
def Server.sample : Server where
  queues := fun _ => []
  nextId := 0
  visibilityTimeout := 30
  choices := fun _ => ⟨.succeeds, fun _ => true, List.range 10⟩
  clock := 0
  origin := fun _ => ⟨"", 0, ""⟩
  consumed := []

theorem Server.initial_sample : Server.sample.Initial where
  placed := fun _ _ _ h => by
    obtain ⟨m, hm, -⟩ := h
    exact absurd hm List.not_mem_nil

/-- One client creates a message; two calls take messages from its queue, and two more from
the dead-letter queue. -/
def sampleCalls : ℕ → Call
  | 0 => .createMessage "q" (.str "a")
  | 1 => .getMessages "q" 32
  | 2 => .getMessages "q" 32
  | _ => .getMessages "q-dead" 32

def samplePool (schedule : List ℕ) :
    Pool ℕ QueueOperation QueueOperation.Result Server QueueError Outcome :=
  (clients 3 sampleCalls Server.sample).play Server.handle schedule

/-- The call has created its message. -/
def hasCreated : Awaits Outcome → Bool
  | .pure (.created true) => true
  | _ => false

theorem eq_of_hasCreated {prog : Awaits Outcome} (h : hasCreated prog = true) :
    prog = .pure (.created true) := by
  unfold hasCreated at h
  split at h
  · rfl
  · cases h

/-- The sample after two calls took the message: the second one sent it on. -/
def movedPool : Pool ℕ QueueOperation QueueOperation.Result Server QueueError Outcome :=
  samplePool (List.replicate 3 0 ++ List.replicate 6 1 ++ List.replicate 8 2)

/-- The message has left its queue, and is kept all the same. -/
theorem createMessage_kept_sample :
    movedPool.shared.queues "q" = [] ∧ movedPool.shared.consumed = [] ∧
      ∃ text id, stringify (.str "a") = some text ∧ ∃ k id',
        movedPool.shared.Holds (deadName^[k] "q") id' (quote^[k] text) ∧
        movedPool.shared.origin id' = ⟨"q", id, text⟩ := by
  have hconsumed : movedPool.shared.consumed = [] := by decide +kernel
  obtain ⟨text, id, htext, -, h⟩ := createMessage_kept Server.initial_sample
    (Pool.runs_play Server.handle (clients 3 sampleCalls Server.sample)
      (List.replicate 3 0 ++ List.replicate 6 1 ++ List.replicate 8 2))
    (show sampleCalls 0 = .createMessage "q" (.str "a") from rfl)
    (eq_of_hasCreated (by decide +kernel))
  refine ⟨by decide +kernel, hconsumed, text, id, htext, (h.resolve_left fun hmem => ?_).1⟩
  have hmem' : (⟨"q", id, text⟩ : Origin) ∈ movedPool.shared.consumed := hmem
  rw [hconsumed] at hmem'
  exact absurd hmem' List.not_mem_nil

/-- The second pair of calls moves the message on: it is neither in its queue nor in its
dead-letter queue, though no client ever deletes one. -/
theorem createMessage_moved_twice :
    ∃ p, Pool.Runs Server.handle (fun _ _ _ => True) (clients 3 sampleCalls Server.sample) p ∧
      (p.threads 0).prog = .pure (.created true) ∧
      (∀ i queue message, sampleCalls i ≠ .deleteMessage queue message) ∧
      p.shared.queues "q" = [] ∧ p.shared.queues "q-dead" = [] := by
  refine ⟨_, Pool.runs_play _ _ (List.replicate 3 0 ++ List.replicate 6 1 ++ List.replicate 8 2 ++
    List.replicate 6 3 ++ List.replicate 8 4), eq_of_hasCreated (by decide +kernel), ?_, ?_, ?_⟩
  · intro i queue message
    unfold sampleCalls
    split <;> nofun
  · decide +kernel
  · decide +kernel

end WebInsights.AzureQueue
