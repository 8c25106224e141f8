import ModelGuard.Exceptions
import ModelGuard.Hashing.Digest

/-!
# The exceptions of hashing
-/

namespace ModelGuard.Hashing

open Lib

/-- `str(path / relative)`. -/
def joinPath (path : Str) (relative : RelPath) : Str :=
  if relative = [] then path
  else if path = str "." then pathText relative
  else if path.getLast? = some (cp '/') then path ++ pathText relative
  else path ++ str "/" ++ pathText relative

/-- The exception behind an error of the hashing functions. -/
def raisedBy (host : Host) (path : Str) : HashError → Raised
  | .artifactNotFound => .modelGuard .artifactNotFoundError (str "Artifact path does not exist: " ++ path)
  | .unsafePath relative reason =>
    .modelGuard .unsafePathError
      (str "Unsafe path rejected: " ++ joinPath path relative ++ str " (" ++ str reason ++ str ")")
  | .emptyArtifact => .modelGuard .emptyArtifactError (str "Artifact contains no hashable files: " ++ path)
  | .valueError reason => .external (str "ValueError") (str reason)
  | .osError => .external (host.osError path).1 (host.osError path).2

end ModelGuard.Hashing
