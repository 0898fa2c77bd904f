import OnceMesh.Federation.Http
import OnceMesh.Federation.Identity
import OnceMesh.Python.Json.Adequacy

/-!
# The origin of a federation pilot

An origin is configured by a manifest: a document that names its keys, its peers, its limits and the
files of the results it publishes. `load_origin_pilot` reads the manifest, and
`_prepare_origin_catalog` publishes the results of the files.

The paths of the host are given by the operations of `pathlib` that are used; the files are what is
at each resolved path.
-/

namespace OnceMesh.Federation

open Python

/-! ### Files -/

/-- The paths of a host. -/
structure Pathlib (Path : Type) where
  /-- `Path(text).resolve()`. -/
  resolve : Str → Except PyError Path
  /-- `path.parent`. -/
  parent : Path → Path
  /-- `(selected if selected.is_absolute() else base / selected).resolve()`, for the path of a
  text. -/
  resolveBelow : Path → Str → Except PyError Path
  /-- `str(path)`. -/
  text : Path → Str

/-- What there is at a path. -/
inductive Node where
  | absent
  | directory
  /-- A file that raises `OSError` when it is read. -/
  | unreadable
  | file (contents : Bytes)
  deriving DecidableEq

namespace Node

/-- `path.exists()`. -/
def exists? : Node → Bool
  | absent => false
  | _ => true

/-- `path.is_file()`. -/
def isFile : Node → Bool
  | unreadable | file _ => true
  | _ => false

end Node

variable {Path : Type}

/-- `_strict_json` of the text of a file, which refuses the constants. -/
def strictFiniteJson (contents : Bytes) : Except PyError Value :=
  match decodeUtf8 contents with
  | none => .error .unicodeError
  | some text => Json.loadsWith .strictFinite (universalNewlines text)

/-- `raise ValueError(f"cannot read JSON document {path}")`. -/
def cannotRead {α : Type} (pathlib : Pathlib Path) (path : Path) : Except PyError α :=
  .error (.valueError (lit "cannot read JSON document " ++ pathlib.text path) [])

/-- `_load_document`. -/
def loadDocument (pathlib : Pathlib Path) (disk : Path → Node) (path : Path) :
    Except PyError Value :=
  match disk path with
  | .file contents =>
    match strictFiniteJson contents with
    | .ok value =>
      if value.isDict then .ok value
      else .error (.valueError
        (lit "JSON document " ++ pathlib.text path ++ lit " must be an object") [])
    | .error e =>
      match e with
      | .unicodeError | .jsonDecodeError => cannotRead pathlib path
      | e => .error e
  | _ => cannotRead pathlib path

/-- `_relative`. -/
def relative (pathlib : Pathlib Path) (base : Path) (value : Value) (label : String) :
    Except PyError Path :=
  match value with
  | .str text =>
    if text = [] ∨ 0 ∈ text then raiseValueError (label ++ " path is invalid")
    else pathlib.resolveBelow base text
  | _ => raiseValueError (label ++ " path is invalid")

/-! ### Fields -/

/-- `_bounded_integer`. -/
def boundedInteger (value : Value) (label : String) (minimum maximum : ℤ) : Except PyError ℤ :=
  orRaise (boundedInt? value minimum maximum) (lit (label ++ " is outside the supported range"))

/-- A text that is not empty. -/
def requireText (value : Value) (message : String) : Except PyError Str :=
  match value with
  | .str (c :: s) => .ok (c :: s)
  | _ => raiseValueError message

/-- An array of at most a thousand elements. -/
def requireBoundedArray (value : Value) (empty : Bool) (message : String) :
    Except PyError (List Value) :=
  match value with
  | .list items =>
    if (items = [] && !empty) || 1000 < items.length then raiseValueError message else .ok items
  | _ => raiseValueError message

/-- `ENV_NAME_PATTERN.fullmatch`. -/
def isEnvName (text : Str) : Bool :=
  text.head?.any (fun c => 0x41 ≤ c.val ∧ c.val ≤ 0x5A) &&
    text.all fun c => (0x41 ≤ c.val ∧ c.val ≤ 0x5A) || isDigit c || c.val = 0x5F

/-- The text of a name that is ASCII. -/
def nameText (name : Str) : String := String.ofList (name.map fun c => Char.ofNat c.val)

/-- `_seed_from_environment`. -/
def seedFromEnvironment (name : Value) (environment : Str → Option Str) : Except PyError Bytes :=
  match name with
  | .str text =>
    if isEnvName text then
      match environment text with
      | none => raiseValueError
          ("required private seed environment variable " ++ nameText text ++ " is missing")
      | some value => decode32 (.str value) ("environment variable " ++ nameText text)
    else raiseValueError "private seed environment name is invalid"
  | _ => raiseValueError "private seed environment name is invalid"

section

variable [Sha256]

/-- The body of the loop of `_public_key_records`. -/
def publicKeyRecord (label : String) (result : Dict Str Bytes) (entry : Value) :
    Except PyError (Dict Str Bytes) := do
  DocumentValidation.exactKeys entry [lit "key_id", lit "public_key_base64url"] (label ++ " entry")
  let publicKey ← decode32 (entry.get (lit "public_key_base64url")) (label ++ " public key")
  let keyId ← requireDigest (entry.get (lit "key_id")) (label ++ " key_id is invalid")
  raiseIf (digestBytes publicKey ≠ keyId) (label ++ " key_id does not match public key")
  raiseIf (result.contains keyId) (label ++ " key identifiers must be unique")
  pure (result.set keyId publicKey)

/-- `_public_key_records`. -/
def publicKeyRecords (value : Value) (label : String) : Except PyError (Dict Str Bytes) := do
  let entries ← requireBoundedArray value false (label ++ " must be a non-empty bounded array")
  entries.foldlM (publicKeyRecord label) .empty

end

/-- The body of the loop over the authorized requesters. -/
def authorizedRequester (keys : Dict Str Bytes) (entry : Value) :
    Except PyError (Dict Str Bytes) := do
  DocumentValidation.exactKeys entry [lit "peer_id", lit "public_key_base64url"]
    "authorized requester"
  let message := "authorized requester peer identifiers must be non-empty and unique"
  let peerId ← requireText (entry.get (lit "peer_id")) message
  raiseIf (keys.contains peerId) message
  let publicKey ← decode32 (entry.get (lit "public_key_base64url")) "requester public key"
  pure (keys.set peerId publicKey)

/-! ### The manifest -/

/-- `OriginPilotConfig`. -/
structure OriginPilotConfig (Path : Type) where
  peerId : Str
  host : Str
  port : ℤ
  certificateFile : Path
  privateKeyFile : Path
  availabilitySeed : Bytes
  receiptPublicKeys : Dict Str Bytes
  authorizedRequesters : Dict Str Bytes
  publicationFiles : List Path
  requestMaxAgeSeconds : ℤ
  maxFutureClockSkewSeconds : ℤ
  maxRememberedNonces : ℤ
  maxResponseBytes : ℤ
  maxConcurrentRequests : ℤ
  maxRequestsPerWindow : ℤ
  rateWindowSeconds : ℤ

/-- The keys of an origin manifest. -/
def originManifestKeys : List Str :=
  [lit "spec_version", lit "role", lit "peer_id", lit "listen", lit "tls",
    lit "availability_private_seed_env", lit "receipt_public_keys", lit "authorized_requesters",
    lit "publications", lit "limits"]

/-- The checks of a manifest that its readers share. -/
def checkOriginManifest (document : Value) : Except PyError Unit := do
  DocumentValidation.exactKeys document originManifestKeys "origin pilot manifest"
  raiseIf (!(document.get (lit "spec_version")).eqStr (lit "oncemesh.federation-pilot/v0") ||
      !(document.get (lit "role")).eqStr (lit "origin"))
    "unsupported origin pilot manifest"

/-- The file a reference names, relative to the directory of the manifest. -/
def referenceFile (pathlib : Pathlib Path) (base : Path) (reference : Value) :
    Except PyError Path := do
  DocumentValidation.exactKeys reference [lit "file"] "publication reference"
  relative pathlib base (reference.get (lit "file")) "publication"

/-- The body of the loop of `load_origin_pilot` over the publications. -/
def publicationFile (pathlib : Pathlib Path) (disk : Path → Node) (base : Path) (entry : Value) :
    Except PyError Path := do
  let file ← referenceFile pathlib base entry
  raiseIf (!(disk file).isFile) "publication file must exist"
  pure file

/-- `load_origin_pilot` after the document has been loaded; `publications` is the member under that
name. -/
def originPilotOf [Sha256] (pathlib : Pathlib Path) (disk : Path → Node)
    (environment : Str → Option Str) (base : Path) (document publications : Value) :
    Except PyError (OriginPilotConfig Path) := do
  checkOriginManifest document
  let peerId ← requireText (document.get (lit "peer_id")) "origin peer_id must not be empty"
  let listen := document.get (lit "listen")
  DocumentValidation.exactKeys listen [lit "host", lit "port"] "origin listen"
  let host ← requireText (listen.get (lit "host")) "origin listen host must not be empty"
  let port ← boundedInteger (listen.get (lit "port")) "origin listen port" 0 65535
  let tls := document.get (lit "tls")
  DocumentValidation.exactKeys tls [lit "certificate_file", lit "private_key_file"] "origin TLS"
  let certificateFile ← relative pathlib base (tls.get (lit "certificate_file")) "certificate_file"
  let privateKeyFile ← relative pathlib base (tls.get (lit "private_key_file")) "private_key_file"
  raiseIf (!(disk certificateFile).isFile || !(disk privateKeyFile).isFile)
    "origin TLS certificate and private key files must exist"
  let requesters ← requireBoundedArray (document.get (lit "authorized_requesters")) false
    "authorized_requesters must be a non-empty bounded array"
  let authorizedRequesters ← requesters.foldlM authorizedRequester .empty
  let entries ← requireBoundedArray publications true "publications must be a bounded array"
  let publicationFiles ← entries.mapM (publicationFile pathlib disk base)
  let limits := document.get (lit "limits")
  DocumentValidation.exactKeys limits
    [lit "request_max_age_seconds", lit "max_future_clock_skew_seconds",
      lit "max_remembered_nonces", lit "max_response_bytes", lit "max_concurrent_requests",
      lit "max_requests_per_window", lit "rate_window_seconds"] "origin limits"
  let limit := fun name => boundedInteger (limits.get (lit name)) name
  let availabilitySeed ←
    seedFromEnvironment (document.get (lit "availability_private_seed_env")) environment
  let receiptPublicKeys ←
    publicKeyRecords (document.get (lit "receipt_public_keys")) "receipt_public_keys"
  let requestMaxAgeSeconds ← limit "request_max_age_seconds" 1 3600
  let maxFutureClockSkewSeconds ← limit "max_future_clock_skew_seconds" 0 300
  let maxRememberedNonces ← limit "max_remembered_nonces" 1 1000000
  let maxResponseBytes ← limit "max_response_bytes" 1024 1000000000
  let maxConcurrentRequests ← limit "max_concurrent_requests" 1 10000
  let maxRequestsPerWindow ← limit "max_requests_per_window" 1 1000000
  let rateWindowSeconds ← limit "rate_window_seconds" 1 3600
  pure {
    peerId, host, port, certificateFile, privateKeyFile, availabilitySeed, receiptPublicKeys,
    authorizedRequesters, publicationFiles, requestMaxAgeSeconds, maxFutureClockSkewSeconds,
    maxRememberedNonces, maxResponseBytes, maxConcurrentRequests, maxRequestsPerWindow,
    rateWindowSeconds }

/-- `load_origin_pilot`. -/
def loadOriginPilot [Sha256] (pathlib : Pathlib Path) (disk : Path → Node)
    (environment : Str → Option Str) (path : Str) : Except PyError (OriginPilotConfig Path) := do
  let manifestPath ← pathlib.resolve path
  let document ← loadDocument pathlib disk manifestPath
  originPilotOf pathlib disk environment (pathlib.parent manifestPath) document
    (document.get (lit "publications"))

/-! ### The publications -/

/-- A publication: the action, its manifest and the receipt. -/
structure Publication where
  action : Value
  manifest : Manifest
  receipt : Value

/-- The keys of a publication. -/
def publicationKeys : List Str :=
  [lit "spec_version", lit "classification", lit "action", lit "manifest", lit "receipt",
    lit "artifacts"]

section

variable [Sha256]

/-- The loop of `_load_publication_document` over the descriptors. -/
def putArtifacts (artifacts : Value) (store : MemoryStore) :
    List ArtifactDescriptor → Except PyError MemoryStore
  | [] => .ok store
  | descriptor :: rest => do
    let blob ← decodePilotBlob (artifacts.get descriptor.name) "publication artifact"
    raiseIf (blob.length ≠ descriptor.size || digestBytes blob ≠ descriptor.digest)
      "publication artifact integrity check failed"
    putArtifacts artifacts (store.putBlob blob) rest

/-- `_load_publication_document`. -/
def loadPublicationDocument (document : Value) (store : MemoryStore) :
    Except PyError (MemoryStore × Publication) := do
  DocumentValidation.exactKeys document publicationKeys "federation publication"
  raiseIf (!(document.get (lit "spec_version")).eqStr (lit "oncemesh.federation-publication/v0") ||
      !(document.get (lit "classification")).eqStr (lit "public"))
    "federation publication must be explicitly public"
  validateAction (document.get (lit "action"))
  let manifest ← Manifest.ofValue (document.get (lit "manifest"))
  let _ ← validateReceipt (document.get (lit "receipt")) true
  let artifacts := document.get (lit "artifacts")
  raiseIf (!artifacts.isDict) "publication artifacts must be an object"
  raiseIf (!artifacts.hasExactKeys (manifest.fields.artifacts.map ArtifactDescriptor.name))
    "publication artifact names do not match manifest"
  let store ← putArtifacts artifacts store manifest.fields.artifacts
  pure (store, ⟨document.get (lit "action"), manifest, document.get (lit "receipt")⟩)

/-- `_load_publication`. -/
def loadPublication (pathlib : Pathlib Path) (disk : Path → Node) (path : Path)
    (store : MemoryStore) : Except PyError (MemoryStore × Publication) := do
  loadPublicationDocument (← loadDocument pathlib disk path) store

/-! ### The catalog -/

/-- The constructor of `PublicPeerCatalog`, for a store whose results may be exported. -/
def PublicPeerCatalog.create (peerId : Str) (availabilityPrivateSeed : Bytes)
    (receiptPublicKeys : Dict Str Bytes) : Except PyError PublicPeerCatalog :=
  if hpeer : peerId = [] then raiseValueError "peer_id must not be empty"
  else if hseed : availabilityPrivateSeed.length = 32 then
    .ok ⟨peerId, availabilityPrivateSeed, receiptPublicKeys, .empty, hpeer, hseed⟩
  else raiseValueError "availability private seed must contain 32 bytes"

/-- An element of the summaries. -/
def publicationSummary (requested resultDigest : Str) (manifest : Manifest) : Value :=
  .dict [(lit "action_digest", .str requested), (lit "result_digest", .str resultDigest),
    (lit "producer", manifest.document.get (lit "producer")),
    (lit "artifacts", .list (manifest.fields.artifacts.map fun item =>
      .dict [(lit "name", .str item.name), (lit "digest", .str item.digest),
        (lit "size", .int item.size)]))]

/-- An origin while its catalog is prepared. -/
structure OriginState where
  store : MemoryStore
  catalog : PublicPeerCatalog
  summaries : List Value

variable [Ed25519]

/-- The body of the loop of `_prepare_origin_catalog`. -/
def publishFile (pathlib : Pathlib Path) (disk : Path → Node) (state : OriginState) (file : Path) :
    Except PyError OriginState := do
  let (store, publication) ← loadPublication pathlib disk file state.store
  match PublicPeerCatalog.publish store.view publication.action publication.manifest.document
      publication.receipt (lit "public") state.catalog with
  | (.error e, _) => .error e
  | (.ok resultDigest, catalog) =>
    let requested ← actionDigest publication.action
    let summary := publicationSummary requested resultDigest publication.manifest
    pure ⟨store, catalog, state.summaries ++ [summary]⟩

/-- `_prepare_origin_catalog`. -/
def prepareOriginCatalog (pathlib : Pathlib Path) (disk : Path → Node)
    (config : OriginPilotConfig Path) : Except PyError OriginState := do
  let catalog ← PublicPeerCatalog.create config.peerId config.availabilitySeed
    config.receiptPublicKeys
  let store := MemoryStore.empty (config.peerId ++ lit "-pilot-origin")
  config.publicationFiles.foldlM (publishFile pathlib disk) ⟨store, catalog, []⟩

end

end OnceMesh.Federation
