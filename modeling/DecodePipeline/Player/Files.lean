/-!
This module contains what the player asks of the file system.
-/

namespace DecodePipeline

inductive FileFault where
  | notFound
  | notDirectory
  | isDirectory
  | permissionDenied
  | nameTooLong
  | notText
  | other (reason : String)
  deriving DecidableEq

def FileFault.message : FileFault → String
  | notFound => "No such file or directory (os error 2)"
  | notDirectory => "Not a directory (os error 20)"
  | isDirectory => "Is a directory (os error 21)"
  | permissionDenied => "Permission denied (os error 13)"
  | nameTooLong => "File name too long (os error 36)"
  | notText => "stream did not contain valid UTF-8"
  | other reason => reason

structure FileAccess (m : Type → Type) (σ : Type) where
  read : String → m (Except FileFault String)
  create : String → m (Except FileFault σ)

end DecodePipeline
