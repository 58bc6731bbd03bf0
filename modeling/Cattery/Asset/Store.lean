import Cattery.Asset.Job
import Cattery.Settings.Config
import Cattery.Settings.Credential
import Cattery.World.Program

namespace Cattery.Asset

def checkPath (path : String) : Except Failure Unit :=
  if Text.isBlank path then .error (.invalidPath "empty path")
  else if Path.staysBelow path then .ok ()
  else .error (.invalidPath path)

structure DirectoryStore where
  root : String
deriving DecidableEq, Repr

namespace DirectoryStore

def file (store : DirectoryStore) (path : String) : String :=
  Path.join store.root path

def upload (store : DirectoryStore) (path : String) (content : List UInt8) :
    Program (Except Failure Unit) :=
  match checkPath path with
  | .error failure => return .error failure
  | .ok () => do
    let file := store.file path
    if ← Program.perform (.makeDirectories (Path.parent file)) then
      if ← Program.perform (.writeFile file content) then return .ok ()
      else return .error .io
    else return .error .io

/-- The URL of the file of an object, which has to be there. Such URLs do not expire. -/
def signedUrl (store : DirectoryStore) (path : String) : Program (Except Failure String) :=
  match checkPath path with
  | .error failure => return .error failure
  | .ok () => do
    let file := store.file path
    match ← Program.perform (.inspect file) with
    | .unreachable => return .error .io
    | .missing => return .error (.sign (path ++ " does not exist"))
    | .present =>
      let current ← Program.perform .currentDirectory
      return .ok ("file://" ++ Path.absolute current file)

end DirectoryStore

structure BucketStore where
  /-- The URL of the storage, without slashes at its end. -/
  baseUrl : String
  bucket : String
  key : Credential
deriving DecidableEq, Repr

namespace BucketStore

def create (baseUrl bucket : String) (key : Credential) : Except Failure BucketStore :=
  match Text.nonBlank? baseUrl, Text.nonBlank? bucket with
  | none, _ => .error (.notConfigured "storage base_url is empty")
  | some _, none => .error (.notConfigured "storage bucket is empty")
  | some baseUrl, some bucket =>
    .ok {
      baseUrl := String.ofList (baseUrl.toList.reverse.dropWhile (· == '/')).reverse
      bucket, key }

def objectUrl (store : BucketStore) (path : String) : String :=
  store.baseUrl ++ "/object/" ++ store.bucket ++ "/" ++ path

def signUrl (store : BucketStore) (path : String) : String :=
  store.baseUrl ++ "/object/sign/" ++ store.bucket ++ "/" ++ path

/-- A URL as the storage gives it out, which may be a path below the URL of the storage. -/
def absoluteUrl (store : BucketStore) (signed : String) : String :=
  if ["http://", "https://"].any fun start => start.toList.isPrefixOf signed.toList then signed
  else if Path.isAbsolute signed then store.baseUrl ++ signed
  else store.baseUrl ++ "/" ++ signed

def keyHeaders (store : BucketStore) : List (String × String) :=
  [Http.bearer store.key.value, ("apikey", store.key.value)]

def uploadDraft (store : BucketStore) (path : String) (content : List UInt8)
    (contentType : String) : Http.Draft :=
  { url := store.objectUrl path
    headers := store.keyHeaders ++ [("Content-Type", contentType), ("x-upsert", "true")]
    body := content }

def signDraft (store : BucketStore) (path : String) (ttlSecs : UInt64) : Http.Draft :=
  let draft : Http.Draft := { url := store.signUrl path, headers := store.keyHeaders, body := [] }
  draft.withJson (.object [("expiresIn", .ofUInt64 ttlSecs)])

def failureText (reply : Http.Reply) : String :=
  let body := reply.textOrEmpty
  let named := (Json.parse? body).bind fun value =>
    ((value.get? "message").or (value.get? "error")).bind Json.string?
  "HTTP " ++ toString reply.status ++ ": " ++ Text.trim (named.getD body)

def concludeUpload (reply : Http.Reply) : Except Failure Unit :=
  if reply.isSuccess then .ok () else .error (.upload (failureText reply))

def concludeSign (store : BucketStore) (reply : Http.Reply) : Except Failure String :=
  if !reply.isSuccess then .error (.sign (failureText reply))
  else
    let value? :=
      if reply.complete then (Utf8.decode? reply.body).bind Json.parse? else none
    match value? with
    | none => .error .http
    | some value =>
      match ((value.get? "signedURL").or (value.get? "signedUrl")).bind Json.string? with
      | some signed =>
        if signed.isEmpty then .error (.sign "response carried no signed URL")
        else .ok (store.absoluteUrl signed)
      | none => .error (.sign "response carried no signed URL")

def upload (store : BucketStore) (path : String) (content : List UInt8) (contentType : String) :
    Program (Except Failure Unit) :=
  match checkPath path with
  | .error failure => return .error failure
  | .ok () => do
    match ← Program.exchange (store.uploadDraft path content contentType) with
    | none => return .error .http
    | some reply => return concludeUpload reply

def signedUrl (store : BucketStore) (path : String) (ttlSecs : UInt64) :
    Program (Except Failure String) :=
  match checkPath path with
  | .error failure => return .error failure
  | .ok () => do
    match ← Program.exchange (store.signDraft path ttlSecs) with
    | none => return .error .http
    | some reply => return store.concludeSign reply

def shown (store : BucketStore) : String :=
  "HttpAssetStore \x7b base_url: " ++ Text.quoted store.baseUrl ++ ", bucket: " ++
    Text.quoted store.bucket ++ ", api_key: " ++ store.key.shown ++ " \x7d"

end BucketStore

inductive Store where
  | directory (store : DirectoryStore)
  | bucket (store : BucketStore)
deriving DecidableEq, Repr

namespace Store

def name : Store → String
  | .directory _ => Backend.directory.name
  | .bucket _ => Backend.bucket.name

def answer (store : Store) (call : Call) : Program Answer := do
  match store, call with
  | .directory inner, .upload path content _ =>
    match ← inner.upload path content with
    | .ok () => return .stored
    | .error failure => return .failed failure
  | .directory inner, .sign path _ =>
    match ← inner.signedUrl path with
    | .ok url => return .signed url
    | .error failure => return .failed failure
  | .bucket inner, .upload path content contentType =>
    match ← inner.upload path content contentType with
    | .ok () => return .stored
    | .error failure => return .failed failure
  | .bucket inner, .sign path ttlSecs =>
    match ← inner.signedUrl path ttlSecs with
    | .ok url => return .signed url
    | .error failure => return .failed failure

end Store

/-- The root of a local store, where `~/` at its start stands for the home directory. -/
def rootPath (storage : Storage) (home : Option String) : String :=
  match "~/".toList.isPrefixOf? storage.root.toList, home with
  | some rest, some home => Path.join home (String.ofList rest)
  | _, _ => storage.root

def storeOf (storage : Storage) (home : Option String)
    (key : Except Credential.Missing Credential) : Except Failure Store :=
  match storage.backend with
  | .directory => .ok (.directory ⟨rootPath storage home⟩)
  | .bucket =>
    match key with
    | .error missing => .error (.notConfigured missing.message)
    | .ok key => (BucketStore.create storage.baseUrl storage.bucket key).map .bucket

def Persister.standard : Persister :=
  { userId := Storage.standard.userId, signedUrlTtlSecs := Storage.standard.signedUrlTtlSecs }

def Persister.ofStorage (storage : Storage) : Persister :=
  { Persister.standard.withUserId storage.userId with
    signedUrlTtlSecs := storage.signedUrlTtlSecs }

def Persister.shown (persister : Persister) (store : String) : String :=
  "AssetPersister \x7b store: " ++ Text.quoted store ++ ", user_id: " ++
    Text.quoted persister.userId ++ ", signed_url_ttl_secs: " ++
    toString persister.signedUrlTtlSecs.toNat ++ " \x7d"

end Cattery.Asset
