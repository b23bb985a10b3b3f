/-
  Offside.Cache
  ─────────────
  A bounded store that forgets what was used least recently.

  Entries are kept in the order of their last use, the least recent first.
  An entry is too old once more than the time to live has passed since it was
  put in, and outdated once what it was made from has a later modification
  time.  Every operation takes the time at which it happens.  Where that time
  and the time of an entry are too far apart to be compared, `isUndated`
  says so; the operations then take the entry for a young one.
-/
import Offside.Time

namespace Offside

/-- A stored value, when it was stored, and the modification time of what it
was made from, if that is known. -/
structure Cache.Entry (α : Type) where
  value : α
  storedAt : Time
  mtime : Option Time
  deriving Repr, DecidableEq

/-- The store, with the number of lookups that found something and of those
that did not. -/
structure Cache (κ α : Type) where
  capacity : Nat
  ttl : Time
  /-- The entries, the least recently used first. -/
  entries : List (κ × Cache.Entry α)
  hits : Nat
  misses : Nat
  deriving Repr

namespace Cache

variable {κ α : Type} [BEq κ]

/-! ## §1. Making a cache. -/

/-- A capacity that no cache can have. -/
structure BadCapacity where
  capacity : Int
  deriving Repr, DecidableEq

/-- What is wrong with such a capacity. -/
def BadCapacity.message (e : BadCapacity) : String :=
  s!"capacity must be at least 1, got {e.capacity}"

/-- How many entries a cache holds unless told otherwise. -/
def defaultCapacity : Nat := 100

/-- How long an entry lives unless told otherwise. -/
def defaultTtl : Time := .real (Binary64.ofRatio false 300 1)

/-- An empty cache. -/
def empty (capacity : Nat) (ttl : Time) : Cache κ α :=
  ⟨capacity, ttl, [], 0, 0⟩

/-- An empty cache of a capacity that is at least one. -/
def make (capacity : Int) (ttl : Time) : Except BadCapacity (Cache κ α) :=
  if capacity < 1 then .error ⟨capacity⟩ else .ok (empty capacity.toNat ttl)

/-! ## §2. Looking at entries. -/

/-- The entry of a key, whatever its age. -/
def find? (c : Cache κ α) (key : κ) : Option (Entry α) :=
  (c.entries.find? fun e => e.1 == key).map (·.2)

/-- Whether an entry is too old. -/
def expired (c : Cache κ α) (now : Time) (e : Entry α) : Bool :=
  match now.since e.storedAt with
  | some age => c.ttl.before age
  | none => false

/-- Whether the age of an entry cannot be told. -/
def ageless (now : Time) (e : Entry α) : Bool := (now.since e.storedAt).isNone

/-- Whether an entry was made from something that has changed since. -/
def outdated (mtime : Time) (e : Entry α) : Bool :=
  match e.mtime with
  | none => false
  | some stored => stored.before mtime

/-- Whether a key has an entry whose age cannot be told. -/
def isUndated (c : Cache κ α) (now : Time) (key : κ) : Bool :=
  match c.find? key with
  | none => false
  | some e => ageless now e

/-- Whether there is an entry whose age cannot be told. -/
def hasUndated (c : Cache κ α) (now : Time) : Bool := c.entries.any fun e => ageless now e.2

/-- The cache without the entry of a key. -/
def erase (c : Cache κ α) (key : κ) : Cache κ α :=
  { c with entries := c.entries.filter fun e => !(e.1 == key) }

/-- The cache with the entry of a key as the most recently used. -/
def promote (c : Cache κ α) (key : κ) (e : Entry α) : Cache κ α :=
  { c with entries := (c.erase key).entries ++ [(key, e)] }

/-! ## §3. Operations. -/

/-- Look up a key.  A hit makes its entry the most recently used; an entry
that is too old is dropped and counts as a miss. -/
def get (c : Cache κ α) (now : Time) (key : κ) : Option α × Cache κ α :=
  match c.find? key with
  | none => (none, { c with misses := c.misses + 1 })
  | some e =>
    if c.expired now e then (none, { c.erase key with misses := c.misses + 1 })
    else (some e.value, { c.promote key e with hits := c.hits + 1 })

/-- Store a value as the most recently used.  A new key in a full cache
pushes out the least recently used entry. -/
def set (c : Cache κ α) (now : Time) (key : κ) (value : α) (mtime : Option Time) :
    Cache κ α :=
  let entry : Entry α := ⟨value, now, mtime⟩
  if (c.find? key).isSome then c.promote key entry
  else if c.capacity ≤ c.entries.length then
    { c with entries := c.entries.drop 1 ++ [(key, entry)] }
  else { c with entries := c.entries ++ [(key, entry)] }

/-- Drop the entry of a key and say whether there was one. -/
def delete (c : Cache κ α) (key : κ) : Bool × Cache κ α :=
  ((c.find? key).isSome, c.erase key)

/-- Whether a key has an entry that is neither too old nor outdated; one that
is either is dropped.  The order of use stays. -/
def isValid (c : Cache κ α) (now : Time) (key : κ) (mtime : Time) :
    Bool × Cache κ α :=
  match c.find? key with
  | none => (false, c)
  | some e =>
    if c.expired now e || outdated mtime e then (false, c.erase key) else (true, c)

/-- Whether a key has an entry that is not too old; one that is, is dropped.
The order of use stays. -/
def contains (c : Cache κ α) (now : Time) (key : κ) : Bool × Cache κ α :=
  match c.find? key with
  | none => (false, c)
  | some e => if c.expired now e then (false, c.erase key) else (true, c)

/-- Drop every entry that is too old and say how many there were. -/
def cleanup (c : Cache κ α) (now : Time) : Nat × Cache κ α :=
  let kept := c.entries.filter fun e => !c.expired now e.2
  (c.entries.length - kept.length, { c with entries := kept })

/-- Drop every entry. -/
def clear (c : Cache κ α) : Cache κ α := { c with entries := [] }

/-! ## §4. What a cache says about itself. -/

/-- How many entries there are, too old or not. -/
def size (c : Cache κ α) : Nat := c.entries.length

/-- The share of lookups that found something; none of no lookups. -/
def hitRatio (c : Cache κ α) : Binary64 :=
  if c.hits + c.misses == 0 then Binary64.ofRatio false 0 1
  else Binary64.ofRatio false c.hits (c.hits + c.misses)

/-- The stored keys, the least recently used first. -/
def keys (c : Cache κ α) : List κ := c.entries.map (·.1)

end Cache

end Offside
