import Triage.Label

/-!
# Store errors

What a store reports when it cannot do its work, and what a store on a database file reports
before its errors join the common ones.
-/

namespace Triage

/-- What went wrong in a store. -/
inductive StoreErrorKind
  | notFound
  | conflict
  | io
  | corrupt
  | versionMismatch
  | invalid
  | other
deriving DecidableEq, Repr

/-- The words that introduce an error of the kind. -/
def StoreErrorKind.heading : StoreErrorKind → String
  | .notFound => "issue store: unknown issue: "
  | .conflict => "issue store conflict: "
  | .io => "issue store io error: "
  | .corrupt => "issue store corruption: "
  | .versionMismatch => "issue store version mismatch: "
  | .invalid => "issue store invalid data: "
  | .other => "issue store error: "

instance : Label StoreErrorKind where
  noun := "store error"
  all := [.notFound, .conflict, .io, .corrupt, .versionMismatch, .invalid, .other]
  label
    | .notFound => "NotFound"
    | .conflict => "Conflict"
    | .io => "Io"
    | .corrupt => "Corrupt"
    | .versionMismatch => "VersionMismatch"
    | .invalid => "Invalid"
    | .other => "Store"

/-- An error of a store. -/
structure StoreError where
  kind : StoreErrorKind
  detail : String
deriving DecidableEq, Repr

/-- The text of the error. -/
def StoreError.message (e : StoreError) : String := e.kind.heading ++ e.detail

/-- An error of a store on a database file. -/
inductive DatabaseError
  | io (detail : String)
  | engine (detail : String)
  | corrupt (detail : String)
  | versionMismatch (detail : String)
  | invalid (detail : String)
  | notFound (key : String)
  | conflict (detail : String)
  | tooLarge (max actual : Nat)
deriving DecidableEq, Repr

namespace DatabaseError

/-- The text of the error. -/
def message : DatabaseError → String
  | .io d => "sqlite store io error: " ++ d
  | .engine d => "sqlite store db error: " ++ d
  | .corrupt d => "sqlite store corruption: " ++ d
  | .versionMismatch d => "sqlite store version mismatch: " ++ d
  | .invalid d => "sqlite store invalid data: " ++ d
  | .notFound k => "sqlite store unknown issue: " ++ k
  | .conflict d => "sqlite store conflict: " ++ d
  | .tooLarge max actual => s!"sqlite store payload too large: {actual} bytes (max {max})"

/-- The error as every store reports it. -/
def toStoreError : DatabaseError → StoreError
  | .io d => ⟨.io, d⟩
  | .engine d => ⟨.other, d⟩
  | .corrupt d => ⟨.corrupt, d⟩
  | .versionMismatch d => ⟨.versionMismatch, d⟩
  | .invalid d => ⟨.invalid, d⟩
  | .notFound k => ⟨.notFound, k⟩
  | .conflict d => ⟨.conflict, d⟩
  | .tooLarge max actual =>
    ⟨.invalid, s!"issue payload exceeds size limit: {actual} bytes (max {max})"⟩

end DatabaseError

end Triage
