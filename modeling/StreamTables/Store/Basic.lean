import StreamTables.Codec.Payload
import StreamTables.Store.Entries

/-!
# Stores

A store keeps the latest row of each key, as payloads. What it holds is read back from its
payload, also right after it was written.

## What is here

* `Store`: a named store.
* `Store.get`, `Store.put`: reading a key, and writing or deleting it.
-/

set_option autoImplicit false

-- payloads are compared as the core library does it
attribute [instance (high)] ByteArray.instDecidableEq

namespace StreamTables

/-- The latest row of each key. -/
structure Store where
  name : String
  codecs : Codecs
  entries : Entries ByteArray ByteArray

namespace Store

/-- A store that holds nothing. -/
def new (name : String) (codecs : Codecs) : Store := ⟨name, codecs, .empty⟩

/-- How many keys a store holds. -/
def size (s : Store) : Nat := s.entries.size

/-- The row that is held under the payload of a key. -/
def read (s : Store) (keyPayload : ByteArray) : Except Error (Option Row) :=
  match s.entries.get? keyPayload with
  | some payload => (s.codecs.row.decode payload).map some
  | none => .ok none

/-- The row that is held for a key. -/
def get (s : Store) (key : Key) : Except Error (Option Row) := do
  s.read (← s.codecs.key.encode key)

/-- The store after a row was written or, without a row, deleted. -/
def write (s : Store) (key : Key) : Option Row → Except Error Store
  | some row => do
    let keyPayload ← s.codecs.key.encode key
    let payload ← s.codecs.row.encode row
    return { s with entries := s.entries.insert keyPayload payload }
  | none => do
    let keyPayload ← s.codecs.key.encode key
    return { s with entries := s.entries.erase keyPayload }

/-- Writes or deletes the row of a key, and then reads what the store holds. What was written stays
written even if it cannot be read. -/
def put (s : Store) (key : Key) (row : Option Row) : Store × Except Error (Option Row) :=
  match s.write key row with
  | .ok s' => (s', s'.get key)
  | .error e => (s, .error e)

end Store
end StreamTables
