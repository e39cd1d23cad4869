import Orchestrator.Common.Base64url
import Orchestrator.Common.Errors
import Orchestrator.Common.IsoDate
import Orchestrator.Common.JsonParse

/-!
# The cursor of the intent list

`cursor.ts`: the place of a row in the list, as the base64url text of a small JSON object.

* `encodeCursor`, `decodeCursor`;
* **`decodeCursor_encodeCursor`**.
-/

namespace Orchestrator

/-- `/^[0-9a-f]{8}-[0-9a-f]{4}-[0-9a-f]{4}-[0-9a-f]{4}-[0-9a-f]{12}$/`. -/
def isUuid (s : String) : Bool :=
  let parts := s.toList.splitOn '-'
  parts.map List.length == [8, 4, 4, 4, 12] &&
    parts.flatten.all fun c => c.isDigit || ('a' ≤ c && c ≤ 'f')

structure IntentCursor where
  createdAt : ℤ
  id : String
  deriving DecidableEq

def encodeCursor (cursor : IntentCursor) : String :=
  Base64url.encode
    (Json.obj [("c", .str (IsoDate.toISOString cursor.createdAt)), ("i", .str cursor.id)]).stringify

def invalidCursor : Failure := ApiError .validationError "cursor is not valid"

/-- `lossy` is how `Buffer` reads bytes that are not UTF-8. -/
def decodeCursor (lossy : ByteArray → String) (value : String) : Except Failure IntentCursor :=
  match parseJson (Base64url.decode lossy value) with
  | some (.obj parsed) => match Record.get? parsed "c", Record.get? parsed "i" with
    | some (.str c), some (.str i) =>
      if !isUuid i then .error invalidCursor
      else match IsoDate.ofISOString c with
        | none => .error invalidCursor
        | some createdAt =>
          if IsoDate.toISOString createdAt ≠ c then .error invalidCursor
          else .ok ⟨createdAt, i⟩
    | _, _ => .error invalidCursor
  | _ => .error invalidCursor

/-- **A cursor survives its text.** -/
theorem decodeCursor_encodeCursor (lossy : ByteArray → String) {cursor : IntentCursor}
    (hid : isUuid cursor.id = true) (ht : cursor.createdAt.natAbs ≤ IsoDate.maxTime) :
    decodeCursor lossy (encodeCursor cursor) = .ok cursor := by
  rw [decodeCursor, encodeCursor, Base64url.decode_encode, parseJson_stringify_pair (by decide)]
  simp [hid, IsoDate.ofISOString_toISOString ht]

end Orchestrator
