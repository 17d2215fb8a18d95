/-
The tree of a JSON text, as far as the text can be followed.

`Document.ofTokens` builds the tree of any run of tokens.  Where the text breaks off,
the tree breaks off too: the value that was due is `broken`, or the container that
was open has a `close` that is at fault.  So the faults of a text stand in the tree at
the place where a reader from left to right meets them, and a reader that refuses a
value earlier never comes to see them.

The builder keeps the open containers in a list, innermost first, and takes one token
at a time.  It builds trees of any depth; how deeply containers may be nested is up to the
reader.
-/
import NodeFencing.Json.Token

namespace NodeFencing.Json

/-- A name or the fault it has for a reader who wants it. -/
abbrev Name := Except Fault String

/-- The tree of a text; a `close` that holds a break says how an open container broke off. -/
inductive Document where
  | null
  | bool (b : Bool)
  | number (n : Numeral)
  | text (value : Except Fault String)
  | array (items : List Document) (close : Option Break)
  | object (members : List (Name × Document)) (close : Option Break)
  | broken (b : Break)
deriving Inhabited

namespace Document

/-- An open container: what it holds so far, latest first, and the name that waits for a value. -/
inductive Level where
  | array (items : List Document)
  | object (members : List (Name × Document)) (pending : Option Name)

/-- The container with one more value in it. -/
def Level.add : Level → Document → Level
  | .array items, d => .array (d :: items)
  | .object members (some name), d => .object ((name, d) :: members) none
  | .object members none, _ => .object members none

/-- The container as a value. -/
def Level.close : Level → Option Break → Document
  | .array items, close => .array items.reverse close
  | .object members _, close => .object members.reverse close

/-- The tree of a text that breaks off after a value, inside the open containers. -/
def abandon (b : Break) (d : Document) : List Level → Document
  | [] => d
  | level :: levels => abandon b ((level.add d).close (some b)) levels

/-- The tree of a text that breaks off where the innermost container might have closed. -/
def abandonOpen (b : Break) : List Level → Document
  | [] => .broken b
  | level :: levels => abandon b (level.close (some b)) levels

/-- What may come next. -/
inductive Due where
  /-- A value. -/
  | value
  /-- A value or the end of an array that has none. -/
  | firstItem
  /-- A name or the end of an object that has none. -/
  | firstMember
  /-- A name. -/
  | member
  /-- The colon after a name. -/
  | colon
  /-- A comma or the end of the container. -/
  | more
deriving DecidableEq, Repr

/-- The value that a token is by itself. -/
def scalar? : Token → Option Document
  | .null => some .null
  | .bool b => some (.bool b)
  | .number n => some (.number n)
  | .text s => some (.text s)
  | _ => none

/-- The tree that breaks off at the end of the tokens. -/
def atEnd (levels : List Level) (due : Due) : Document :=
  match due with
  | .value | .colon => abandon (.both .truncated) (.broken (.both .truncated)) levels
  | _ => abandonOpen (.both .truncated) levels

/-- Builds on: the tree of the first value, and the tokens after it. -/
def build : List Level → Due → List Token → Document × List Token
  | levels, due, [] => (atEnd levels due, [])
  | levels, due, token :: rest =>
    let settled (d : Document) (outer : List Level) : Document × List Token :=
      match outer with
      | [] => (d, rest)
      | level :: outer => build (level.add d :: outer) .more rest
    let value : Document × List Token :=
      match token with
      | .openArray => build (.array [] :: levels) .firstItem rest
      | .openObject => build (.object [] none :: levels) .firstMember rest
      | .broken b | .brokenText b => (abandon b (.broken b) levels, [])
      | token =>
        match scalar? token with
        | some d => settled d levels
        | none => (abandon (.both .malformed) (.broken (.both .malformed)) levels, [])
    let refused : Document × List Token := (abandonOpen (.both .malformed) levels, [])
    match due with
    | .value => value
    | .firstItem =>
      match token, levels with
      | .closeArray, level :: outer => settled (level.close none) outer
      | _, _ => value
    | .firstMember | .member =>
      match token, levels with
      | .closeObject, level :: outer =>
        if due = .firstMember then settled (level.close none) outer else refused
      | .text name, .object members _ :: outer =>
        build (.object members (some name) :: outer) .colon rest
      | .brokenText b, _ => (abandonOpen b levels, [])
      | _, _ => refused
    | .colon =>
      match token with
      | .colon => build levels .value rest
      | _ => (abandon (.both .malformed) (.broken (.both .malformed)) levels, [])
    | .more =>
      match token, levels with
      | .comma, .array _ :: _ => build levels .value rest
      | .comma, .object _ _ :: _ => build levels .member rest
      | .closeArray, .array items :: outer => settled (Level.close (.array items) none) outer
      | .closeObject, .object members name :: outer =>
        settled (Level.close (.object members name) none) outer
      | _, _ => refused

/-- The tree of the first value among the tokens, and the tokens after it. -/
def ofTokens (tokens : List Token) : Document × List Token := build [] .value tokens

/-- The tree of the first value of a text, and the tokens after it. -/
def ofText (s : String) : Document × List Token := ofTokens (tokens s.toList)

/-! ### Stepping over a value -/

mutual

/-- Steps over a value, to the first place where the text breaks off. -/
def skip : Document → Except Fault Unit
  | .broken b => .error b.skipped
  | .array items close => do
    skipItems items
    match close with
    | none => .ok ()
    | some b => .error b.skipped
  | .object members close => do
    skipMembers members
    match close with
    | none => .ok ()
    | some b => .error b.skipped
  | _ => .ok ()

/-- Steps over items from left to right. -/
def skipItems : List Document → Except Fault Unit
  | [] => .ok ()
  | d :: rest => do skip d; skipItems rest

/-- Steps over members from left to right. -/
def skipMembers : List (Name × Document) → Except Fault Unit
  | [] => .ok ()
  | (_, d) :: rest => do skip d; skipMembers rest

end

/-- The fault of a value that is wanted in another shape: that, unless it breaks off itself. -/
def refusal : Document → Fault
  | .broken b => b.wanted
  | .number n => if n.value?.isNone then .malformed else .mismatched
  | .text (.error f) => f
  | _ => .mismatched

/-- Refuses a value that is wanted in another shape. -/
def refuse {α : Type} (d : Document) : Except Fault α := .error d.refusal

end Document

end NodeFencing.Json
