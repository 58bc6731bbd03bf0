import Cattery.Json.Decode
import Cattery.Step.Basic

namespace Cattery

structure Endpoint where
  baseUrl : String
  accessTokenEnv : String
  timeoutSecs : Option UInt64
  /-- Headers sent with every request, in ascending order of their names. -/
  headers : List (String × String)
deriving DecidableEq, Repr

inductive Backend where
  | directory
  | bucket
deriving DecidableEq, Repr

structure Storage where
  backend : Backend
  root : String
  baseUrl : String
  bucket : String
  apiKeyEnv : String
  signedUrlTtlSecs : UInt64
  userId : String
deriving DecidableEq, Repr

structure Settings where
  endpoint : Endpoint
  storage : Storage
  defaults : Step.Defaults
deriving DecidableEq, Repr

def Backend.name : Backend → String
  | .directory => "local"
  | .bucket => "http"

def Backend.ofName? (name : String) : Option Backend :=
  if name = "local" then some .directory
  else if name = "http" then some .bucket
  else none

def Endpoint.standard : Endpoint :=
  { baseUrl := "http://localhost:8787/v1"
    accessTokenEnv := "CATFLOW_ACCESS_TOKEN"
    timeoutSecs := none
    headers := [] }

def Storage.standard : Storage :=
  { backend := .directory
    root := "~/.catflow/assets"
    baseUrl := ""
    bucket := "cat-assets"
    apiKeyEnv := "CATFLOW_STORAGE_KEY"
    signedUrlTtlSecs := 60 * 60 * 24 * 7
    userId := "local" }

def Settings.standard : Settings :=
  { endpoint := Endpoint.standard, storage := Storage.standard, defaults := Step.Defaults.standard }

def Endpoint.toJson (endpoint : Endpoint) : Json :=
  .object [
    ("base_url", .string endpoint.baseUrl),
    ("access_token_env", .string endpoint.accessTokenEnv),
    ("timeout_secs", match endpoint.timeoutSecs with
      | some secs => .ofUInt64 secs
      | none => .null),
    ("headers", .object (endpoint.headers.map fun (name, value) => (name, .string value)))]

def Storage.toJson (storage : Storage) : Json :=
  .object [
    ("backend", .string storage.backend.name),
    ("root", .string storage.root),
    ("base_url", .string storage.baseUrl),
    ("bucket", .string storage.bucket),
    ("api_key_env", .string storage.apiKeyEnv),
    ("signed_url_ttl_secs", .ofUInt64 storage.signedUrlTtlSecs),
    ("user_id", .string storage.userId)]

def Step.Defaults.toJson (defaults : Step.Defaults) : Json :=
  .object [
    ("model_id", .string defaults.modelId),
    ("image_model_id", .string defaults.imageModelId)]

def Settings.toJson (settings : Settings) : Json :=
  .object [
    ("endpoint", settings.endpoint.toJson),
    ("storage", settings.storage.toJson),
    ("defaults", settings.defaults.toJson)]

section Reading

variable {α : Type} [Source α]

open Source

/-- The headers in an object of texts, of which the last one of a name counts. -/
def Endpoint.readHeaders? (value : α) : Option (List (String × String)) :=
  match shape value with
  | .object members =>
    (members.mapM fun ((name, value) : String × α) =>
      (text? value).map fun text => (name, text)).map Assoc.ofEntries
  | _ => none

def Endpoint.fields : List (List String) :=
  [["base_url", "baseUrl"], ["access_token_env", "accessTokenEnv"], ["timeout_secs", "timeoutSecs"],
    ["headers"]]

def Endpoint.ofFields? : List (Option α) → Option Endpoint
  | [baseUrl, accessTokenEnv, timeoutSecs, headers] => do
    some {
      baseUrl := ← defaulted? text? standard.baseUrl baseUrl
      accessTokenEnv := ← defaulted? text? standard.accessTokenEnv accessTokenEnv
      timeoutSecs := ← defaulted? (nullable? uint64?) standard.timeoutSecs timeoutSecs
      headers := ← defaulted? readHeaders? standard.headers headers }
  | _ => none

def Endpoint.read? (value : α) : Option Endpoint :=
  (record? fields value).bind ofFields?

def Storage.fields : List (List String) :=
  [["backend"], ["root"], ["base_url", "baseUrl"], ["bucket"], ["api_key_env", "apiKeyEnv"],
    ["signed_url_ttl_secs", "signedUrlTtlSecs"], ["user_id", "userId"]]

def Backend.read? (value : α) : Option Backend :=
  (choiceName? value).bind ofName?

def Storage.ofFields? : List (Option α) → Option Storage
  | [backend, root, baseUrl, bucket, apiKeyEnv, signedUrlTtlSecs, userId] => do
    some {
      backend := ← defaulted? Backend.read? standard.backend backend
      root := ← defaulted? text? standard.root root
      baseUrl := ← defaulted? text? standard.baseUrl baseUrl
      bucket := ← defaulted? text? standard.bucket bucket
      apiKeyEnv := ← defaulted? text? standard.apiKeyEnv apiKeyEnv
      signedUrlTtlSecs := ← defaulted? uint64? standard.signedUrlTtlSecs signedUrlTtlSecs
      userId := ← defaulted? text? standard.userId userId }
  | _ => none

def Storage.read? (value : α) : Option Storage :=
  (record? fields value).bind ofFields?

def Step.Defaults.fields : List (List String) :=
  [["model_id", "modelId"], ["image_model_id", "imageModelId"]]

def Step.Defaults.ofFields? : List (Option α) → Option Step.Defaults
  | [modelId, imageModelId] => do
    some {
      modelId := ← defaulted? text? standard.modelId modelId
      imageModelId := ← defaulted? text? standard.imageModelId imageModelId }
  | _ => none

def Step.Defaults.read? (value : α) : Option Step.Defaults :=
  (record? fields value).bind ofFields?

def Settings.fields : List (List String) :=
  [["endpoint"], ["storage"], ["defaults"]]

def Settings.ofFields? : List (Option α) → Option Settings
  | [endpoint, storage, defaults] => do
    some {
      endpoint := ← defaulted? Endpoint.read? standard.endpoint endpoint
      storage := ← defaulted? Storage.read? standard.storage storage
      defaults := ← defaulted? Step.Defaults.read? standard.defaults defaults }
  | _ => none

def Settings.read? (value : α) : Option Settings :=
  (record? fields value).bind ofFields?

end Reading

/-- The settings that JSON text spells. What is not known in them only has to follow the
grammar. -/
def Settings.parse? (text : String) : Option Settings :=
  (Tree.ofChars? text.toList).bind Settings.read?

end Cattery
