/-
Purpose: The query for the records below a prim: a range scan on the indexed prim column, under
  SQLite's byte-wise comparison of UTF-8 text.
Trusted boundary: the identifier characters are Unicode's
Main exports: StoredEvent, EventStore.getByPrimPrefix, EventStore.recordsWithPrefix
-/
import UsdConnect.Lib.Utf8Order
import UsdConnect.Server.History
import UsdConnect.Server.PrimTracking

namespace UsdConnect

/-! ### Prim paths -/

/-- The characters that begin and that continue an identifier. -/
structure IdentifierChars where
  start : Char → Bool
  continued : Char → Bool

namespace IdentifierChars

/-- `Sdf.Path.IsValidIdentifier`. -/
def isIdentifier (chars : IdentifierChars) : List Char → Bool
  | [] => false
  | first :: rest => (first = '_' || chars.start first) && rest.all chars.continued

/-- `_require_prim_path`: an absolute path of a prim that is not the pseudo-root, with no variant
selection. -/
def requirePrimPath (chars : IdentifierChars) : PathText → Bool
  | '/' :: names => (names.splitOn '/').all chars.isIdentifier
  | _ => false

end IdentifierChars

/-! ### The query -/

/-- Columns of a row of `events` that the query reads. -/
structure StoredEvent (Blob : Type) where
  eventBin : Blob
  kind : Option String
  prim : Option PathText

namespace StoredEvent

variable {Blob : Type}

/-- `prim >= ? AND prim < ?`; nothing compares with a null. -/
def primInRange (record : StoredEvent Blob) (lower upper : PathText) : Bool :=
  record.prim.any fun prim => !decide (utf8 prim < utf8 lower) && decide (utf8 prim < utf8 upper)

/-- `kind IN (..)`. -/
def kindIn (record : StoredEvent Blob) (kinds : List String) : Bool :=
  record.kind.any fun kind => kinds.contains kind

/-- `prim.startswith(prefix)`. -/
def primStartsWith (record : StoredEvent Blob) (start : PathText) : Bool :=
  record.prim.any fun prim => start.isPrefixOf prim

end StoredEvent

namespace EventStore

variable {Blob : Type}

/-- `get_by_prim_prefix`. -/
def getByPrimPrefix (store : EventStore (StoredEvent Blob)) (start : PathText)
    (kinds : List String) : List Blob :=
  if kinds.isEmpty then []
  else
    let upper := start ++ [Char.ofNat 0xFFFF]
    let rows := store.events.filter fun row =>
      row.2.primInRange start upper && row.2.kindIn kinds
    (sortRows rows).map (·.2.eventBin)

/-- The records of the kinds whose prim starts with a prefix, in the order of their sequence
numbers. -/
def recordsWithPrefix (store : EventStore (StoredEvent Blob)) (start : PathText)
    (kinds : List String) : List Blob :=
  let rows := store.events.filter fun row =>
    row.2.primStartsWith start && row.2.kindIn kinds
  (sortRows rows).map (·.2.eventBin)

/-- No record of the kinds goes on, right behind the prefix, with a character from U+FFFF on. -/
def StaysBelow (store : EventStore (StoredEvent Blob)) (start : PathText) (kinds : List String) :
    Prop :=
  ∀ row ∈ store.events, row.2.kindIn kinds = true → ∀ next rest,
    row.2.prim = some (start ++ next :: rest) → next < Char.ofNat 0xFFFF

end EventStore

end UsdConnect
