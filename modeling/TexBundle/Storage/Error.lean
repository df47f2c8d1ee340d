import TexBundle.Text.Basic

/-!
# Storage errors

Why the file system, or an object store, refused an operation, and how that is reported.
-/

namespace TexBundle

/-- What a file operation can fail with. -/
inductive FileError where
  | notFound
  | exists
  | notDirectory
  | isDirectory
  | nameTooLong
  | nulByte
  | notUtf8
  | other (description : Text)
deriving DecidableEq, Repr

def FileError.message : FileError → Text
  | notFound => "No such file or directory (os error 2)"
  | .exists => "File exists (os error 17)"
  | notDirectory => "Not a directory (os error 20)"
  | isDirectory => "Is a directory (os error 21)"
  | nameTooLong => "File name too long (os error 36)"
  | nulByte => "file name contained an unexpected NUL byte"
  | notUtf8 => "stream did not contain valid UTF-8"
  | other description => description

/-- What an operation of an object store can fail with. -/
inductive StorageError where
  | notFound (bucket key : Text)
  | bucketNotFound (bucket : Text)
  | bucketExists (bucket : Text)
  | objectExists (bucket key : Text)
  | invalidKey (key : Text)
  | io (cause : FileError)
  | backend (description : Text)
deriving DecidableEq, Repr

def StorageError.message : StorageError → Text
  | notFound bucket key => "object not found: " ++ bucket ++ "/" ++ key
  | bucketNotFound bucket => "bucket not found: " ++ bucket
  | bucketExists bucket => "bucket already exists: " ++ bucket
  | objectExists bucket key => "object already exists: " ++ bucket ++ "/" ++ key
  | invalidKey key => "invalid object key: " ++ key
  | io cause => "storage i/o error: " ++ cause.message
  | backend description => "storage backend error: " ++ description

end TexBundle
