/-
Readers of typed values.

A reader takes the tree of a text and gives a typed value or the first fault that
reading from left to right meets.  Objects are read member by member into a record of
what was found so far; members of unknown name are stepped over.  Two kinds of object
occur.  A *declared* one refuses a name that comes twice and may also be given as an
array of its fields in order; a *plain* one takes the last of several members and is
never an array.
-/
import NodeFencing.Json.Document
import NodeFencing.Json.Value
import NodeFencing.Labels

namespace NodeFencing.Json

/-- Reads a typed value from the tree of a text. -/
abbrev Reader (α : Type) := Document → Except Fault α

namespace Reader

variable {α β P : Type}

/-- A text. -/
def text : Reader String
  | .text s => s
  | d => d.refuse

/-- A truth value. -/
def bool : Reader Bool
  | .bool b => .ok b
  | d => d.refuse

/-- A whole number from `low` to `high`, written without fraction and exponent. -/
def whole (low high : Int) : Reader Int
  | .number n =>
    match n.value? with
    | some (.int i) => if low ≤ i ∧ i ≤ high then .ok i else .error .mismatched
    | some _ => .error .mismatched
    | none => .error .malformed
  | d => d.refuse

/-- A whole number of 64 bits with a sign. -/
def int64 : Reader Int := whole (-9223372036854775808) 9223372036854775807

/-- A whole number of 32 bits with a sign. -/
def int32 : Reader Int := whole (-2147483648) 2147483647

/-- A value or `null`. -/
def optional (read : Reader α) : Reader (Option α)
  | .null => .ok none
  | d => some <$> read d

/-- What a reader makes of a text that was read, `refuse` where it makes nothing. -/
def filtered (read : Reader α) (f : α → Option β) : Reader β := fun d => do
  match f (← read d) with
  | some b => .ok b
  | none => .error .mismatched

/-- Reads a text that has to be the given one. -/
def exactly (wanted : String) : Reader Unit :=
  filtered text fun s => if s = wanted then some () else none

/-- The end of a container. -/
def closed : Option Break → Except Fault Unit
  | none => .ok ()
  | some b => .error b.wanted

/-- The items of an array. -/
def list (read : Reader α) : Reader (List α)
  | .array items close => do
    let values ← items.mapM read
    closed close
    return values
  | d => d.refuse

/-- Reads members from left to right into what was found so far. -/
def members (put : P → String → Document → Except Fault P) (start : P) :
    List (Name × Document) → Except Fault P
  | [] => .ok start
  | (name, d) :: rest => do
    let found ← put start (← name) d
    members put found rest

/-- A plain object. -/
def plain (put : P → String → Document → Except Fault P) (start : P) : Reader P
  | .object ms close => do
    let found ← members put start ms
    closed close
    return found
  | d => d.refuse

/-- Steps over an object of any members, or `null`. -/
def anyObject : Reader Unit
  | .null => .ok ()
  | .object ms close => (Document.object ms close).skip
  | d => d.refuse

/-- A map from names to values; of several members with a name the last counts. -/
def map (read : Reader α) : Reader (Ordered String α) :=
  plain (fun m name d => do return m.insert name (← read d)) .empty

/-- Keeps the last value read for a field of a plain object. -/
def last (read : Reader α) (d : Document) : Except Fault (Option α) := optional read d

/-- Reads a field of a declared object, which must not have been read before. -/
def once (read : Reader α) (found : Option α) (d : Document) : Except Fault (Option α) :=
  if found.isSome then .error .mismatched else some <$> read d

/-- A field that has to be there. -/
def required : Option α → Except Fault α
  | some a => .ok a
  | none => .error .mismatched

end Reader

/-- A declared object: the names of its fields in order, how many of them an array has to give,
how a member is read into what was found so far, and what the whole of it makes. -/
structure Declared (P α : Type) where
  fields : List String
  needed : Nat
  start : P
  put : P → String → Document → Except Fault P
  finish : P → Except Fault α

/-- Reads a declared object from its members, or from an array of its fields. -/
def Declared.read {P α : Type} (o : Declared P α) : Reader α
  | .object ms close => do
    let found ← Reader.members o.put o.start ms
    Reader.closed close
    o.finish found
  | .array items close => do
    let named : List (Name × Document) := (o.fields.map Except.ok).zip items
    let found ← Reader.members o.put o.start named
    if o.fields.length < items.length then .error .malformed
    Reader.closed close
    if items.length < o.needed then .error .mismatched
    o.finish found
  | d => d.refuse

/-- Reads the one value that a text holds. -/
def decode {α : Type} (read : Reader α) (s : String) : Except Fault α := do
  let (d, rest) := Document.ofText s
  let a ← read d
  if rest.isEmpty then return a else .error .malformed

/-! ### Values of any shape

Values that are stepped over may be nested as deeply as they like, and those of the other shapes
are nested no deeper than their shape says.  So it is only here that it is told how many
containers may still be opened.
-/

/-- How many containers may be nested in a text. -/
def nesting : Nat := 127

mutual

/-- A value of any shape in which at most so many containers are nested; its objects come in the
order of their names, and of several members with a name the last counts. -/
def ofDocument : Nat → Document → Except Fault Json
  | _, .null => .ok .null
  | _, .bool b => .ok (.bool b)
  | _, .number n =>
    match n.value? with
    | some j => .ok j
    | none => .error .malformed
  | _, .text s => .text <$> s
  | 0, .array _ _ => .error .malformed
  | room + 1, .array items close => do
    let values ← ofItems room items
    Reader.closed close
    return .array values
  | 0, .object _ _ => .error .malformed
  | room + 1, .object ms close => do
    let values ← ofMembers room ms
    Reader.closed close
    return .object (Labels.placeAll values)
  | _, .broken b => .error b.wanted

/-- The items of an array of any shape. -/
def ofItems : Nat → List Document → Except Fault (List Json)
  | _, [] => .ok []
  | room, d :: rest => do return (← ofDocument room d) :: (← ofItems room rest)

/-- The members of an object of any shape. -/
def ofMembers : Nat → List (Name × Document) → Except Fault (List (String × Json))
  | _, [] => .ok []
  | room, (name, d) :: rest => do
    let name ← name
    let value ← ofDocument room d
    return (name, value) :: (← ofMembers room rest)

end

/-- An object of any members in which at most so many containers are nested. -/
def readObject (room : Nat) : Reader Json
  | .object ms close => ofDocument room (.object ms close)
  | d => d.refuse

end NodeFencing.Json
