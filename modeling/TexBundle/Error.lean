import TexBundle.Asset
import TexBundle.Storage.Error

/-!
# Errors of bundle operations

What a bundle operation can fail with, in three classes: problems the caller can mend, things that
do not exist, and everything else. What an operation recovers from by itself never shows up here.
-/

namespace TexBundle

inductive ErrorClass where
  | validation
  | notFound
  | internal
deriving DecidableEq, Repr

inductive BundleError where
  | manifestInvalid (reason : Text)
  | documentNotFound (id : Text)
  | entryNotFound (path : Text)
  | fileNotFound (path : Text)
  | traversal (path : Text)
  | incomplete (defects : List Defect)
  | storage (cause : StorageError)
  | internal (description : Text)
deriving DecidableEq, Repr

namespace BundleError

def message : BundleError → Text
  | manifestInvalid reason => "invalid manifest: " ++ reason
  | documentNotFound id => "document not found: " ++ id
  | entryNotFound path => "entry file not found: " ++ path
  | fileNotFound path => "bundle file not found: " ++ path
  | traversal path => "path traversal rejected: " ++ path
  | incomplete defects => Text.ofNat defects.length ++ " referenced file(s) missing or invalid"
  | storage cause => cause.message
  | internal description => description

def errorClass : BundleError → ErrorClass
  | manifestInvalid _ | traversal _ | incomplete _ => .validation
  | documentNotFound _ | entryNotFound _ | fileNotFound _ => .notFound
  | storage _ | internal _ => .internal

/-- Whether the same call may succeed once the caller has mended its input. -/
def isRetryable (e : BundleError) : Bool := e.errorClass == .validation

/-- The problems that made a package incomplete. -/
def defects? : BundleError → Option (List Defect)
  | incomplete defects => some defects
  | _ => none

end BundleError

end TexBundle
