import Cattery.Asset.Image

namespace Cattery.Asset

inductive Failure where
  | decode (fault : Image.Fault)
  | invalidPath (reason : String)
  | upload (reason : String)
  | sign (reason : String)
  | notConfigured (reason : String)
  | io
  | http
deriving DecidableEq, Repr

def Failure.message : Failure → String
  | .decode .malformed => "invalid image data"
  | .decode .empty => "invalid image data: empty image"
  | .invalidPath reason => "invalid object path: " ++ reason
  | .upload reason => "upload failed: " ++ reason
  | .sign reason => "could not sign url: " ++ reason
  | .notConfigured reason => "storage not configured: " ++ reason
  | .io => "io error"
  | .http => "http error"

end Cattery.Asset
