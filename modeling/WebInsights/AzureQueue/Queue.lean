/-
`Queue`: the storage queues of the service.

A client creates messages, takes them and deletes them. A message that was taken
before and comes again is not handed out: it is sent to the queue's dead-letter queue and
then deleted from its own. The two calls are separate, the second one's failure is
swallowed, and the first one's ends the whole `getMessages`.

Every call of a client library is an awaited operation that may fail. Two operations
carry a remark that is no part of the request and that no answer depends on: which message
a text was sent for (`copyOf`), and on whose behalf a message is deleted (`Purpose`). Log
lines, the names in error texts, the stack of a `RetryError` and the pauses between retries
are left out.
-/
import WebInsights.Common.RetryHelper
import WebInsights.Effect.History
import WebInsights.Js.Json

set_option autoImplicit false

namespace WebInsights.AzureQueue

open Common Effect Js

/-! ## What the class awaits -/

abbrev QueueClient : Type := String

inductive QueueError where
  /-- The client library rejected. -/
  | rest (message : String)
  /-- ``new Error(`Enqueue failed with response: ..`)`` -/
  | enqueueFailed
  /-- `throw lastError` of an action that was never tried. -/
  | undefined
  /-- The client library rejected with something that is no `Error`, told as in `Thrown`. -/
  | value (json : Except String (Option String))
  /-- What the retries make of it. -/
  | retryError (message : Option String)

structure DequeuedMessageItem where
  messageId : ℕ
  messageText : String
  popReceipt : ℕ
  dequeueCount : ℕ
  deriving DecidableEq

structure Message where
  messageText : String
  messageId : ℕ
  popReceipt : Option ℕ
  deriving DecidableEq

/-- What is handed out of a message. -/
def DequeuedMessageItem.toMessage (item : DequeuedMessageItem) : Message :=
  ⟨item.messageText, item.messageId, some item.popReceipt⟩

/-- On whose behalf a message is deleted. -/
inductive Purpose where
  /-- A consumer called `deleteMessage`. -/
  | consumed
  /-- The message was sent to the dead-letter queue. -/
  | moved
  deriving DecidableEq

inductive QueueOperation where
  | getQueueClient (queueName : String)
  | getQueueConfig
  | createIfNotExists (queueClient : QueueClient)
  | receiveMessages (queueClient : QueueClient) (numberOfMessages : ℤ) (visibilityTimeout : ℕ)
  /-- The response may lack a message id. -/
  | sendMessage (queueClient : QueueClient) (messageText : String) (copyOf : Option ℕ)
  | deleteMessage (queueClient : QueueClient) (messageId : ℕ) (popReceipt : Option ℕ)
    (purpose : Purpose)

/-- What an operation resolves to. -/
abbrev QueueOperation.Value : QueueOperation → Type
  | .getQueueClient _ => Unit
  | .getQueueConfig => ℕ
  | .createIfNotExists _ => Unit
  | .receiveMessages _ _ _ => List DequeuedMessageItem
  | .sendMessage _ _ _ => Option ℕ
  | .deleteMessage _ _ _ _ => Unit

abbrev QueueOperation.Result (op : QueueOperation) : Type := Except QueueError op.Value

abbrev Awaits (α : Type) : Type := Program QueueOperation QueueOperation.Result QueueError α

/-- Await an operation; a rejection is thrown. -/
def await (op : QueueOperation) : Awaits op.Value := do
  match ← Program.perform op with
  | .ok value => pure value
  | .error e => throw e

/-! ## `RetryHelper` -/

/-- `error instanceof Error ? error : { name: 'RetryError', .. }` -/
def QueueError.asError : QueueError → Except QueueError QueueError
  | .value (.ok json) => .ok (.retryError json)
  | .value (.error message) => .error (.rest message)
  | .undefined => .ok (.retryError none)
  | .retryError message => .ok (.retryError (stringify (.obj [("name", .str "RetryError"),
      ("message", (message.map Val.str).getD .undefined)])))
  | error => .ok error

def retryHelper : RetryHelper QueueOperation QueueOperation.Result QueueError QueueError where
  sleepFunction := fun _ => pure ()
  undefined := .undefined
  asError := QueueError.asError

/-- The retries of an action, with an `onRetry` that does nothing. -/
def executeWithRetries {α : Type} (action : Awaits α) (maxRetryCount : ℕ) : Awaits α :=
  retryHelper.executeWithRetries action.settle (fun _ => pure ()) maxRetryCount 1000

/-! ## `Queue` -/

namespace Queue

/-- Increasing dequeue count may destroy global scan retry logic. -/
def maxDequeueCount : ℕ := 1

/-- The name of a queue's dead-letter queue. -/
def deadName (queue : String) : String := queue ++ "-dead"

def getQueueClient (queueName : String) : Awaits QueueClient := do
  await (.getQueueClient queueName)
  pure queueName

def ensureQueueExists (queueClient : QueueClient) : Awaits Unit :=
  await (.createIfNotExists queueClient)

def deleteQueueMessage (queueClient : QueueClient) (messageId : ℕ) (popReceipt : Option ℕ)
    (purpose : Purpose) : Awaits Unit :=
  -- a rejected delete is logged, not thrown
  tryCatch (await (.deleteMessage queueClient messageId popReceipt purpose)) fun _ => pure ()

def createQueueMessage (queueClient : QueueClient) (message : Val) (copyOf : Option ℕ) :
    Awaits Unit :=
  match stringify message with
  -- `JSON.stringify` gave `undefined`, which `sendMessage` refuses
  | none => throw (.rest "messageText cannot be null or undefined.")
  | some text => do
    match ← await (.sendMessage queueClient text copyOf) with
    -- `_.isNil(response.messageId)`
    | none => throw .enqueueFailed
    | some _ => pure ()

def moveToDeadQueue (originQueueClient deadQueueClient : QueueClient)
    (queueMessage : DequeuedMessageItem) : Awaits Unit := do
  createQueueMessage deadQueueClient (.str queueMessage.messageText) (some queueMessage.messageId)
  deleteQueueMessage originQueueClient queueMessage.messageId (some queueMessage.popReceipt) .moved

def getQueueMessages (queueClient : QueueClient) (numberOfMessages : ℤ) :
    Awaits (List DequeuedMessageItem) := do
  let messageVisibilityTimeoutInSeconds ← await .getQueueConfig
  await (.receiveMessages queueClient numberOfMessages messageVisibilityTimeoutInSeconds)

/-- The loop of `getMessages` over the messages it received, with those it hands out. -/
def distribute (queueClient deadQueueURL : QueueClient) (messages : List Message) :
    List DequeuedMessageItem → Awaits (List Message)
  | [] => pure messages
  | serverMessage :: serverMessages => do
    if serverMessage.dequeueCount > maxDequeueCount then
      moveToDeadQueue queueClient deadQueueURL serverMessage
      distribute queueClient deadQueueURL messages serverMessages
    else
      distribute queueClient deadQueueURL
        (messages ++ [serverMessage.toMessage]) serverMessages

def getMessages (queue : String) (numberOfMessages : ℤ) : Awaits (List Message) := do
  let queueClient ← getQueueClient queue
  let deadQueueURL ← getQueueClient (deadName queue)
  ensureQueueExists queueClient
  ensureQueueExists deadQueueURL
  let serverMessages ← getQueueMessages queueClient numberOfMessages
  distribute queueClient deadQueueURL [] serverMessages

/-- The loop of `getMessagesWithTotalCount`: every turn but the last adds a message, so
there are at most as many turns as messages were asked for, and one more. -/
def getMessagesWithTotalCount (queue : String) (totalMessagesCount : ℤ) :
    Awaits (Option (List Message)) :=
  Program.iterate (fun (messages : List Message) => do
    let remainingMessagesCount := totalMessagesCount - messages.length
    let currentBatchCount := if remainingMessagesCount > 32 then 32 else remainingMessagesCount
    let batch ← getMessages queue currentBatchCount
    -- an empty batch breaks the loop
    if batch.length = 0 then pure (some (.inr messages))
    else
      let messages := messages ++ batch
      if (messages.length : ℤ) < totalMessagesCount then pure (some (.inl messages))
      else pure (some (.inr messages))) (totalMessagesCount.toNat + 1) []

def deleteMessage (queue : String) (message : Message) : Awaits Unit := do
  let queueURL ← getQueueClient queue
  deleteQueueMessage queueURL message.messageId message.popReceipt .consumed

def tryCreateMessage (maxEnqueueRetryCount : ℕ) (queue : String) (message : Val) : Awaits Unit :=
  executeWithRetries (do
    let queueURL ← getQueueClient queue
    ensureQueueExists queueURL
    createQueueMessage queueURL message none) maxEnqueueRetryCount

def createMessage (maxEnqueueRetryCount : ℕ) (queue : String) (message : Val) : Awaits Bool :=
  tryCatch (do
    tryCreateMessage maxEnqueueRetryCount queue message
    pure true) fun _ => pure false

end Queue

/-! ## Calls of clients -/

/-- One call of a client. A client that makes several calls, one after the other, is
several of them in an interleaving. -/
inductive Call where
  | createMessage (queue : String) (message : Val)
  | getMessages (queue : String) (numberOfMessages : ℤ)
  | getMessagesWithTotalCount (queue : String) (totalMessagesCount : ℤ)
  | deleteMessage (queue : String) (message : Message)

/-- What a call resolves to. -/
inductive Outcome where
  | created (done : Bool)
  | messages (messages : List Message)
  | deleted

def Call.program (maxEnqueueRetryCount : ℕ) : Call → Awaits Outcome
  | .createMessage queue message =>
    Outcome.created <$> Queue.createMessage maxEnqueueRetryCount queue message
  | .getMessages queue numberOfMessages =>
    Outcome.messages <$> Queue.getMessages queue numberOfMessages
  | .getMessagesWithTotalCount queue totalMessagesCount => do
    let messages ← Queue.getMessagesWithTotalCount queue totalMessagesCount
    pure (.messages (messages.getD []))
  | .deleteMessage queue message => do
    Queue.deleteMessage queue message
    pure .deleted

/-- The call takes messages from this queue. -/
def Call.Reads (queue : String) : Call → Prop
  | .getMessages queue' _ => queue' = queue
  | .getMessagesWithTotalCount queue' _ => queue' = queue
  | _ => False

end WebInsights.AzureQueue
