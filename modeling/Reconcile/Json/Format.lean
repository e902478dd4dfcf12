import Reconcile.Json.Reader
import Reconcile.Json.Value
import Reconcile.Text

/-!
# Formats

A format says how the values of a type are read from JSON text and written as JSON documents, so
that both directions stand side by side. Formats of compound values are put together from those of
their parts. A record may be given as an object, with its fields in any order, or as an array of its
fields in the order of their declaration.
-/

namespace Reconcile.Json

/-- How the values of a type are read and written. -/
structure Format (α : Type) where
  read : Reader α
  write : α → Json

namespace Format

def decode {α : Type} (format : Format α) (text : String) : Except Fault α := do
  let (a, rest) ← format.read.run text.toList
  if rest.all Reader.isBlank then return a else throw .malformed

/-- A format carried over to another type of the same content. -/
def carry {α β : Type} (format : Format α) (pack : α → β) (unpack : β → α) : Format β where
  read := pack <$> format.read
  write b := format.write (unpack b)

/-! ## Scalars -/

/-- Reads a string; `wanted` names it in a message. -/
def readString (wanted : String) : Reader String := do
  match ← Reader.ahead with
  | '"' :: cs => do
    set cs
    Reader.string
  | _ => Reader.wrongType wanted

def text : Format String where
  read := readString "a string"
  write := .text

def bool : Format Bool where
  read := do
    match ← Reader.ahead with
    | 't' :: cs => do
      set cs
      Reader.word "rue".toList
      return true
    | 'f' :: cs => do
      set cs
      Reader.word "alse".toList
      return false
    | _ => Reader.wrongType "a boolean"
  write := .bool

/-- The instant of a Unix timestamp, which must be a 64-bit integer and one that an instant has. -/
def instantOfNumeral : Numeral → Except Fault Instant
  | .real t => .error (.mismatch (.wrongType (.real t) "a unix timestamp in seconds"))
  | .integer n =>
    match Instant.ofSeconds? n with
    | some t => .ok t
    | none => .error (.mismatch (.timestampOutOfRange n))

/-- An instant as a Unix timestamp in seconds, rounded down. -/
def seconds : Format Instant where
  read := do
    match ← Reader.ahead with
    | [] => throw .incomplete
    | c :: cs =>
      if c = '-' || c.isDigit then
        let (n, rest) ← numeral (c = '-') (if c = '-' then cs else c :: cs)
        set rest
        instantOfNumeral n
      else Reader.wrongType "a unix timestamp in seconds"
  write t := .int t.seconds

def stamp : Format Stamp where
  read := do
    let s ← readString "an RFC 3339 formatted date and time string"
    match Stamp.ofChars s.toList with
    | .ok stamp => return stamp
    | .error fault => throw (.mismatch (.badStamp fault))
  write s := .text s.text

def caseOf {α : Type} (cases : List (String × α)) (name : String) : Except Fault α :=
  match cases.lookup name with
  | some a => .ok a
  | none => .error (.mismatch (.unknownVariant name (cases.map Prod.fst)))

/-- One of some named values, given by its name, or as the only key of an object whose value is
null. -/
def variant {α : Type} (cases : List (String × α)) (nameOf : α → String) : Format α where
  read := do
    match ← Reader.ahead with
    | [] => throw .incomplete
    | '"' :: cs => do
      set cs
      caseOf cases (← Reader.string)
    | '\x7b' :: cs => do
      set cs
      let a ← caseOf cases (← readString "variant identifier")
      Reader.colon
      match ← Reader.ahead with
      | 'n' :: cs => do
        set cs
        Reader.word "ull".toList
      | _ => Reader.wrongType "unit"
      Reader.mapEnd
      return a
    | _ => throw .malformed
  write a := .text (nameOf a)

/-! ## Compound values -/

/-- A value that may be absent, given as null. -/
def optional {α : Type} (format : Format α) : Format (Option α) where
  read := do
    match ← Reader.ahead with
    | 'n' :: cs => do
      set cs
      Reader.word "ull".toList
      return none
    | _ => some <$> format.read
  write
    | some a => format.write a
    | none => .null

def list {α : Type} (format : Format α) : Format (List α) where
  read := do
    match ← Reader.ahead with
    | '[' :: cs => do
      set cs
      let items ← Reader.items format.read (← Reader.fuel) true
      Reader.sequenceEnd
      return items
    | _ => Reader.wrongType "a sequence"
  write items := .array (items.map format.write)

/-- A map from names. Of several members with one name the last counts. -/
def dict {α : Type} (format : Format α) : Format (Dict α) where
  read := do
    match ← Reader.ahead with
    | '\x7b' :: cs => do
      set cs
      let member (key : String) (d : Dict α) : Reader (Dict α) := do
        Reader.colon
        return d.insert key (← format.read)
      let d ← Reader.members member (← Reader.fuel) true ∅
      Reader.mapEnd
      return d
    | _ => Reader.wrongType "a map"
  write d := .object (d.toList.map fun (k, a) => (k, format.write a))

/-! ## Records -/

/-- A field of a record. A field without a value of its own for being absent must be given. -/
structure Field (α : Type) where
  name : String
  format : Format α
  absent : Option α := none
  omits : α → Bool := fun _ => false

/-- The fields of a record, in the order of their declaration. -/
inductive Fields : Type → Type 1 where
  | nil : Fields Unit
  | cons {α τ : Type} (field : Field α) (rest : Fields τ) : Fields (α × τ)

namespace Fields

/-- What has been read of a record: a value for each field that has been met. -/
def Draft : {τ : Type} → Fields τ → Type
  | _, .nil => Unit
  | _, @cons α _ _ rest => Option α × rest.Draft

def blank : {τ : Type} → (fields : Fields τ) → fields.Draft
  | _, .nil => ()
  | _, .cons _ rest => (none, rest.blank)

/-- Reads the member with a key. A field given twice is a fault, and an unknown one is skipped. -/
def member : {τ : Type} → (fields : Fields τ) → String → fields.Draft → Reader fields.Draft
  | _, .nil, _, draft => do
    Reader.colon
    Reader.skip
    return draft
  | _, .cons field rest, key, draft =>
    let (value, draft) : Option _ × rest.Draft := draft
    if key = field.name then
      if value.isSome then throw (.mismatch (.duplicateField key))
      else do
        Reader.colon
        return (some (← field.format.read), draft)
    else do
      return (value, ← rest.member key draft)

/-- Reads the fields as the items of an array, as far as they go. -/
def itemsInOrder : {τ : Type} → (fields : Fields τ) → Bool → Reader fields.Draft
  | _, .nil, _ => return ()
  | _, .cons field rest, first => do
    if ← Reader.anotherItem first then
      let a ← field.format.read
      return (some a, ← rest.itemsInOrder false)
    else return (none, rest.blank)

/-- The record that has been read. The first missing field that must be given is reported; its
position counts from the given one. -/
def finish (missing : Nat → String → Mismatch) :
    {τ : Type} → (fields : Fields τ) → Nat → fields.Draft → Except Fault τ
  | _, .nil, _, _ => .ok ()
  | _, .cons field rest, position, draft =>
    let (value, draft) : Option _ × rest.Draft := draft
    match value.or field.absent with
    | none => .error (.mismatch (missing position field.name))
    | some a => do
      return (a, ← rest.finish missing (position + 1) draft)

def size : {τ : Type} → Fields τ → Nat
  | _, .nil => 0
  | _, .cons _ rest => rest.size + 1

def write : {τ : Type} → Fields τ → τ → List (String × Json)
  | _, .nil, _ => []
  | _, .cons field rest, (a, values) =>
    (if field.omits a then [] else [(field.name, field.format.write a)]) ++ rest.write values

end Fields

def recordLength (title : String) (size : Nat) : String :=
  "struct " ++ title ++ " with " ++ toString size ++ (if size = 1 then " element" else " elements")

/-- A record with some fields; `title` names it in messages. -/
def record {τ : Type} (title : String) (fields : Fields τ) : Format τ where
  read := do
    match ← Reader.ahead with
    | '\x7b' :: cs => do
      set cs
      let draft ← Reader.members fields.member (← Reader.fuel) true fields.blank
      let values ← fields.finish (fun _ name => .missingField name) 0 draft
      Reader.mapEnd
      return values
    | '[' :: cs => do
      set cs
      let draft ← fields.itemsInOrder true
      let wanted := recordLength title fields.size
      let values ← fields.finish (fun position _ => .wrongLength position wanted) 0 draft
      Reader.sequenceEnd
      return values
    | _ => Reader.wrongType ("struct " ++ title)
  write values := .object (fields.write values)

/-! ## Kinds of fields -/

def required {α : Type} (name : String) (format : Format α) : Field α where
  name := name
  format := format

/-- A field that is always written but may be left out. -/
def defaulted {α : Type} (name : String) (format : Format α) (value : α) : Field α where
  name := name
  format := format
  absent := some value

/-- A field that may be absent, and is then not written. -/
def maybe {α : Type} (name : String) (format : Format α) : Field (Option α) where
  name := name
  format := optional format
  absent := some none
  omits := Option.isNone

/-- A list that is not written when it is empty. -/
def someOf {α : Type} (name : String) (format : Format α) : Field (List α) where
  name := name
  format := list format
  absent := some []
  omits := List.isEmpty

/-- A map that is not written when it is empty. -/
def entriesOf {α : Type} (name : String) (format : Format α) : Field (Dict α) where
  name := name
  format := dict format
  absent := some ∅
  omits := fun d => d.isEmpty

end Format

end Reconcile.Json
