/-!
# Failures

No call schema can be made for a function whose documentation lacks a part that is needed. A
failure names the function and the missing part.
-/

namespace CallSchema

/-- The part of the documentation that is missing. -/
inductive Missing where
  | documentation
  | shortDescription
  /-- A long description is asked for and there is none. -/
  | longDescription
deriving DecidableEq, Repr, Inhabited

namespace Missing

/-- The missing part in words. -/
def words : Missing → String
  | documentation => "documentation"
  | shortDescription => "short description"
  | longDescription => "long description"

end Missing

/-- The reason why a function has no call schema. -/
structure Failure where
  function : String
  missing : Missing
deriving DecidableEq, Repr, Inhabited

/-- The sentence that tells of a failure. -/
def Failure.message (failure : Failure) : String :=
  "function '" ++ failure.function ++ "' has no " ++ failure.missing.words

end CallSchema
