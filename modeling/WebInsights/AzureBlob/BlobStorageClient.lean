/-
`BlobStorageClient`, and the reading of a test website from a blob.

A text is uploaded with its own length, which is that of its UTF-16 form, while the service
stores so many bytes of its UTF-8 form. Where both are the same the blob has all of the
text; elsewhere its end is missing (`blob_roundTrip_iff`).

What the service and its client library do is a parameter (`BlobService`): an upload that
succeeds stores the first bytes of the body, as many as it was told, and a download has the
bytes that are stored.
-/
import WebInsights.Data.Utf8
import WebInsights.Effect.Program
import WebInsights.Js.Value

set_option autoImplicit false

namespace WebInsights.AzureBlob

open Effect Js

/-! ## What the client awaits -/

/-- The condition of an upload. -/
inductive UploadCondition where
  | ifMatch (etag : String)
  | ifNoneMatch (etag : String)
  deriving DecidableEq

inductive BlobOperation where
  | getBlobServiceClient
  | download (containerName blobName : String)
  | upload (containerName blobName body : String) (contentLength : ℕ)
      (conditions : Option UploadCondition)
  deriving DecidableEq

/-- What is thrown: `undefined` or `null`, or something that may have a `statusCode`. -/
inductive BlobError where
  | nil
  | error (statusCode : Option ℤ) (message : String)

/-- A stream: the chunks it delivers, and the error it breaks off with. -/
structure ReadableStream where
  chunks : List (List UInt8)
  failure : Option String

structure DownloadResponse where
  readableStreamBody : ReadableStream
  etag : String

structure UploadResponse where
  status : ℤ
  etag : String

abbrev BlobOperation.Result : BlobOperation → Type
  | .getBlobServiceClient => Except BlobError Unit
  | .download _ _ => Except BlobError DownloadResponse
  | .upload _ _ _ _ _ => Except BlobError UploadResponse

abbrev Blobs (α : Type) : Type := Program BlobOperation BlobOperation.Result BlobError α

/-! ## `BlobStorageClient` -/

structure BlobContentDownloadResponse where
  notFound : Bool
  content : Option ReadableStream := none
  etag : Option String := none

structure BlobContentUploadResponse where
  statusCode : ℤ
  etag : String

structure BlobSaveCondition where
  ifMatchEtag : Option String
  ifNoneMatchEtag : Option String

/-- The client of a blob is its name, once there is a client of the service. -/
def getBlobClient : Blobs Unit := do
  Program.ofExcept (← Program.perform BlobOperation.getBlobServiceClient)

def getBlobContent (containerName blobName : String) : Blobs BlobContentDownloadResponse := do
  getBlobClient
  match ← Program.perform (BlobOperation.download containerName blobName) with
  | .ok response =>
    pure { notFound := false
           content := some response.readableStreamBody
           etag := some response.etag }
  | .error (.error (some 404) _) => pure { notFound := true }
  | .error e => throw e

/-- `options` -/
def uploadOptions : Option BlobSaveCondition → Option UploadCondition
  | some ⟨some etag, _⟩ => some (.ifMatch etag)
  | some ⟨none, some etag⟩ => some (.ifNoneMatch etag)
  | _ => none

/-- `content.length`: the code units of a string. -/
def length (content : String) : ℕ := Utf8.utf16Length content.toList

def uploadBlobContent (containerName blobName content : String)
    (condition : Option BlobSaveCondition) : Blobs BlobContentUploadResponse := do
  getBlobClient
  let response ← Program.ofExcept (← Program.perform
    (BlobOperation.upload containerName blobName content (length content)
      (uploadOptions condition)))
  pure ⟨response.status, response.etag⟩

/-! ## `E2ETestDataProvider` -/

inductive ReadErrorCode where
  | blobNotFound
  | jsonParseError
  | streamError
  | invalidFormat
  deriving DecidableEq

structure E2ETestDataError where
  errorCode : ReadErrorCode
  data : Option String

structure E2ETestDataReadResponse where
  error : Option E2ETestDataError := none
  item : Option Val := none

/-- `BodyParser.getRawBody`: all bytes of a stream. -/
def getRawBody : Option ReadableStream → Except String (List UInt8)
  | none => .error "argument stream must be a stream"
  | some ⟨_, some message⟩ => .error message
  | some ⟨chunks, none⟩ => .ok chunks.flatten

/-- `buffer.toString()` -/
def toString (buffer : List UInt8) : String := String.ofList (Utf8.decode buffer)

/-- `contentString`, or why there is none. -/
def readContentString (containerName blobName : String) :
    Blobs (Except E2ETestDataError String) := do
  let downloadResponse ← getBlobContent containerName blobName
  if downloadResponse.notFound then
    pure (.error ⟨.blobNotFound, none⟩)
  else match getRawBody downloadResponse.content with
    | .error message => pure (.error ⟨.streamError, some message⟩)
    | .ok body => pure (.ok (toString body))

/-- `readTestWebsite`, with `JSON.parse` and the validator it is constructed with. -/
def readTestWebsite (parse : String → Except String Val) (isValidWebsiteObject : Val → Bool)
    (blobName : String) : Blobs E2ETestDataReadResponse := do
  match ← readContentString "e2e-test-data" blobName with
  | .error error => pure { error := some error }
  | .ok contentString =>
    match parse contentString with
    | .error message => pure { error := some ⟨.jsonParseError, some message⟩ }
    | .ok testWebsite =>
      if isValidWebsiteObject testWebsite then
        pure { item := some testWebsite }
      else
        pure { error := some ⟨.invalidFormat,
          some ("Object is not a valid website object: " ++ contentString)⟩ }

/-! ## The service -/

/-- The service and its client library. -/
structure BlobService (σ : Type) where
  handle : Handler BlobOperation BlobOperation.Result σ
  /-- The bytes of a blob. -/
  stored : σ → String → String → Option (List UInt8)
  client_keeps : ∀ s, stored (handle .getBlobServiceClient s).2 = stored s
  upload_stores : ∀ s containerName blobName body contentLength conditions response,
    (handle (.upload containerName blobName body contentLength conditions) s).1 = .ok response →
      stored (handle (.upload containerName blobName body contentLength conditions) s).2
        containerName blobName = some ((Utf8.encode body.toList).take contentLength)
  download_reads : ∀ s containerName blobName response,
    (handle (.download containerName blobName) s).1 = .ok response →
      response.readableStreamBody.failure = none →
        stored s containerName blobName = some response.readableStreamBody.chunks.flatten

/-! ## The round trip -/

section RoundTrip

variable {σ : Type} (service : BlobService σ) {s s' : σ} {containerName blobName content : String}
  {condition : Option BlobSaveCondition}

/-- After an upload that succeeded the blob has as many bytes of the text as it has code units. -/
theorem stored_of_upload {response : BlobContentUploadResponse}
    (h : (uploadBlobContent containerName blobName content condition).run service.handle s =
      (.ok response, s')) :
    service.stored s' containerName blobName =
      some ((Utf8.encode content.toList).take (length content)) := by
  obtain ⟨-, s₁, -, hrest⟩ := Program.run_bind_eq_ok _ h
  rw [Program.perform_bind, Program.run_call] at hrest
  obtain ⟨answer, s₂, hanswer, hend⟩ := Program.run_bind_eq_ok _ hrest
  obtain ⟨rfl, hok⟩ := Program.run_ofExcept_eq_ok _ hanswer
  cases hend
  exact service.upload_stores _ _ _ _ _ _ _ hok

theorem getBlobContent_ok {r : BlobContentDownloadResponse}
    (h : (getBlobContent containerName blobName).run service.handle s = (.ok r, s')) :
    r.notFound = true ∨ ∃ s₁ response, service.stored s₁ = service.stored s ∧
      (service.handle (.download containerName blobName) s₁).1 = .ok response ∧
        r.content = some response.readableStreamBody := by
  obtain ⟨_, s₁, hclient, hrest⟩ := Program.run_bind_eq_ok _ h
  obtain ⟨rfl, -⟩ := Program.run_ofExcept_eq_ok _ hclient
  rw [Program.perform_bind, Program.run_call] at hrest
  rcases hanswer : (service.handle (.download containerName blobName)
      (service.handle .getBlobServiceClient s).2).1 with e | response
  · rw [hanswer] at hrest
    split at hrest
    · rename_i heq
      cases heq
    · cases hrest
      exact Or.inl rfl
    · cases hrest
  · rw [hanswer] at hrest
    cases hrest
    exact Or.inr ⟨_, response, service.client_keeps s, hanswer, rfl⟩

/-- A text that was read is what the bytes of the blob are decoded to. -/
theorem stored_of_read {text : String}
    (h : (readContentString containerName blobName).run service.handle s = (.ok (.ok text), s')) :
    ∃ bytes, service.stored s containerName blobName = some bytes ∧ text = toString bytes := by
  obtain ⟨r, s₁, hcontent, hrest⟩ := Program.run_bind_eq_ok _ h
  rcases getBlobContent_ok service hcontent with hnotFound | ⟨s₂, response, hkeeps, hanswer, hbody⟩
  · rw [if_pos hnotFound] at hrest
    cases hrest
  · by_cases hnotFound : r.notFound = true
    · rw [if_pos hnotFound] at hrest
      cases hrest
    · rw [if_neg hnotFound, hbody] at hrest
      rcases hstream : response.readableStreamBody with ⟨chunks, _ | message⟩
      · rw [hstream] at hrest
        have hstored := service.download_reads _ _ _ _ hanswer (by rw [hstream])
        rw [hkeeps, hstream] at hstored
        cases hrest
        exact ⟨chunks.flatten, hstored, rfl⟩
      · rw [hstream] at hrest
        cases hrest

theorem ofList_eq_iff {cs : List Char} {text : String} :
    String.ofList cs = text ↔ cs = text.toList := by
  constructor
  · rintro rfl
    exact String.toList_ofList.symm
  · rintro rfl
    exact String.ofList_toList

/-- A text has only characters of ASCII. -/
def IsAscii (content : String) : Prop := Utf8.IsAscii content.toList

/-- When a text that was uploaded is read again. -/
theorem read_eq_iff {response : BlobContentUploadResponse} {text : String} {s'' : σ}
    (hupload : (uploadBlobContent containerName blobName content condition).run service.handle s =
      (.ok response, s'))
    (hread : (readContentString containerName blobName).run service.handle s' =
      (.ok (.ok text), s'')) :
    text = content ↔ IsAscii content ∨ ∃ ascii, IsAscii ascii ∧ content = ascii ++ "\uFFFD" := by
  obtain ⟨bytes, hbytes, rfl⟩ := stored_of_read service hread
  obtain rfl := Option.some.inj ((stored_of_upload service hupload).symm.trans hbytes)
  rw [toString, ofList_eq_iff, length, Utf8.decode_take_utf16Length_iff]
  refine or_congr_right ⟨?_, ?_⟩
  · rintro ⟨ascii, hascii, hcontent⟩
    refine ⟨String.ofList ascii, by rwa [IsAscii, String.toList_ofList], ?_⟩
    rw [← ofList_eq_iff.mpr hcontent.symm, String.ofList_append]
    rfl
  · rintro ⟨ascii, hascii, rfl⟩
    exact ⟨ascii.toList, hascii, String.toList_append⟩

/-- **The round trip of a blob**: a text that was uploaded is read again exactly if it is ASCII,
perhaps with one U+FFFD at its end; and the length it is uploaded with is the number of its
bytes exactly if it is ASCII. -/
theorem blob_roundTrip_iff {response : BlobContentUploadResponse} {text : String} {s'' : σ}
    (hupload : (uploadBlobContent containerName blobName content condition).run service.handle s =
      (.ok response, s'))
    (hread : (readContentString containerName blobName).run service.handle s' =
      (.ok (.ok text), s'')) :
    (text = content ↔
      IsAscii content ∨ ∃ ascii, IsAscii ascii ∧ content = ascii ++ "\uFFFD") ∧
    (length content = (Utf8.encode content.toList).length ↔ IsAscii content) :=
  ⟨read_eq_iff service hupload hread, Utf8.utf16Length_eq_iff⟩

/-- A test website whose JSON is ASCII is read as it was uploaded. -/
theorem readTestWebsite_of_upload {response : BlobContentUploadResponse} {text : String} {s'' : σ}
    {parse : String → Except String Val} {isValidWebsiteObject : Val → Bool} {website : Val}
    (hascii : IsAscii content) (hparse : parse content = .ok website)
    (hvalid : isValidWebsiteObject website = true)
    (hupload : (uploadBlobContent "e2e-test-data" blobName content condition).run service.handle s =
      (.ok response, s'))
    (hread : (readContentString "e2e-test-data" blobName).run service.handle s' =
      (.ok (.ok text), s'')) :
    (readTestWebsite parse isValidWebsiteObject blobName).run service.handle s' =
      (.ok { item := some website }, s'') := by
  obtain rfl : text = content := (read_eq_iff service hupload hread).mpr (Or.inl hascii)
  rw [readTestWebsite, Program.run_bind_ok _ hread]
  dsimp only
  rw [hparse]
  dsimp only
  rw [if_pos hvalid]
  rfl

/-! A service that keeps the blobs in memory. -/

abbrev Memory : Type := String → String → Option (List UInt8)

def memoryHandle : Handler BlobOperation BlobOperation.Result Memory
  | .getBlobServiceClient, s => (.ok (), s)
  | .download containerName blobName, s =>
    match s containerName blobName with
    | some bytes => (.ok ⟨⟨[bytes], none⟩, "etag"⟩, s)
    | none => (.error (.error (some 404) "The specified blob does not exist."), s)
  | .upload containerName blobName body contentLength _, s =>
    (.ok ⟨201, "etag"⟩, fun c b =>
      if c = containerName ∧ b = blobName then some ((Utf8.encode body.toList).take contentLength)
      else s c b)

def memory : BlobService Memory where
  handle := memoryHandle
  stored := fun s => s
  client_keeps := fun _ => rfl
  upload_stores := fun _ _ _ _ _ _ _ _ => if_pos ⟨rfl, rfl⟩
  download_reads := by
    intro s containerName blobName response hresponse _
    simp only [memoryHandle] at hresponse
    rcases hstored : s containerName blobName with _ | bytes
    · rw [hstored] at hresponse
      cases hresponse
    · rw [hstored] at hresponse
      obtain rfl := Except.ok.inj hresponse
      simp

/-- The blobs after a text was uploaded. -/
def uploaded (content : String) : Memory :=
  ((uploadBlobContent "e2e-test-data" "blob" content none).run memoryHandle fun _ _ => none).2

/-- A text that is read again though it was uploaded with less than its length. -/
theorem blob_roundTrip_iff_sample :
    ((readContentString "e2e-test-data" "blob").run memoryHandle (uploaded "ok\uFFFD")).1 =
        .ok (.ok "ok\uFFFD") ∧
      length "ok\uFFFD" ≠ (Utf8.encode "ok\uFFFD".toList).length := by
  have hread : (readContentString "e2e-test-data" "blob").run memoryHandle (uploaded "ok\uFFFD") =
      (.ok (.ok "ok\uFFFD"), uploaded "ok\uFFFD") := rfl
  obtain ⟨-, hlength⟩ := @blob_roundTrip_iff Memory memory (fun _ _ => none) (uploaded "ok\uFFFD")
    "e2e-test-data" "blob" "ok\uFFFD" none ⟨201, "etag"⟩ "ok\uFFFD" (uploaded "ok\uFFFD") rfl hread
  refine ⟨congrArg Prod.fst hread, fun h => ?_⟩
  exact absurd (hlength.mp h '\uFFFD' (by decide)) (by decide)

/-- Of the two bytes of `é` the first one is stored, and what is read is another text. -/
theorem blob_roundTrip_cut :
    length "é" = 1 ∧ (Utf8.encode "é".toList).length = 2 ∧
      ((uploadBlobContent "e2e-test-data" "blob" "é" none).run memoryHandle
        fun _ _ => none).1.toOption.map BlobContentUploadResponse.statusCode = some 201 ∧
      ((readContentString "e2e-test-data" "blob").run memoryHandle (uploaded "é")).1.toOption.map
        Except.toOption = some (some "\uFFFD") ∧ "\uFFFD" ≠ "é" := by
  decide

end RoundTrip

end WebInsights.AzureBlob
