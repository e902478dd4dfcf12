import Reconcile.Json.Numeral

/-!
# Reading JSON

Readers take a value off the front of a text. They never look back, so a text is read once from
front to end and the first problem decides the fault. A value that nobody wants is skipped by laxer
rules: its numbers have no limits, and its strings may name halves of surrogate pairs.
-/

namespace Reconcile.Json

/-- A reader takes a value off the front of a text and leaves the rest. -/
abbrev Reader (α : Type) : Type := StateT (List Char) (Except Fault) α

namespace Reader

/-- The four characters that may stand between the parts of a document. -/
def isBlank (c : Char) : Bool :=
  c = ' ' || c = '\n' || c = '\t' || c = '\r'

/-- Skips blanks and gives the text that follows. -/
def ahead : Reader (List Char) := do
  modify (List.dropWhile isBlank)
  get

def word : List Char → Reader Unit
  | [] => pure ()
  | c :: rest => do
    match ← get with
    | [] => throw .incomplete
    | d :: cs =>
      if d = c then
        set cs
        word rest
      else throw .malformed

/-! ## Strings -/

inductive StringPhase where
  | plain
  | escaped
  /-- With some hexadecimal digits to come; `lead` is the first half of a pair, if one is open. -/
  | hex (left value : Nat) (lead : Option Nat)
  /-- Behind the first half of a pair. -/
  | lead (value : Nat)
  | leadEscaped (value : Nat)
deriving DecidableEq, Repr

def hexValue? (c : Char) : Option Nat :=
  if c.isDigit then some (c.toNat - '0'.toNat)
  else if 'a' ≤ c ∧ c ≤ 'f' then some (c.toNat - 'a'.toNat + 10)
  else if 'A' ≤ c ∧ c ≤ 'F' then some (c.toNat - 'A'.toNat + 10)
  else none

def escapedChar? (c : Char) : Option Char :=
  match c with
  | '"' => some '"'
  | '\\' => some '\\'
  | '/' => some '/'
  | 'b' => some '\x08'
  | 'f' => some '\x0c'
  | 'n' => some '\n'
  | 'r' => some '\r'
  | 't' => some '\t'
  | _ => none

/-- Whether fewer than four bytes are left, so that no four digits can follow. -/
def endsWithinFour (cs : List Char) : Bool :=
  (cs.take 4).foldl (fun bytes c => bytes + c.utf8Size) 0 < 4

/-- Whether a 16-bit unit is the first half of a pair. -/
def isLead (n : Nat) : Bool := 0xD800 ≤ n && n ≤ 0xDBFF

def isTrail (n : Nat) : Bool := 0xDC00 ≤ n && n ≤ 0xDFFF

def pairChar (lead trail : Nat) : Char :=
  Char.ofNat (0x10000 + (lead - 0xD800) * 0x400 + (trail - 0xDC00))

/-- The characters of a string up to its closing quote, behind those already taken, which are kept
last first. -/
def stringBody (phase : StringPhase) (taken : List Char) :
    List Char → Except Fault (List Char × List Char)
  | [] => .error .incomplete
  | c :: rest =>
    match phase with
    | .plain =>
      if c = '"' then .ok (taken.reverse, rest)
      else if c = '\\' then stringBody .escaped taken rest
      else if c.toNat < 32 then .error .malformed
      else stringBody .plain (c :: taken) rest
    | .escaped =>
      if c = 'u' then
        if endsWithinFour rest then .error .incomplete else stringBody (.hex 4 0 none) taken rest
      else
        match escapedChar? c with
        | some d => stringBody .plain (d :: taken) rest
        | none => .error .malformed
    | .hex left value lead =>
      match hexValue? c with
      | none => .error .malformed
      | some d =>
        let n := value * 16 + d
        if 1 < left then stringBody (.hex (left - 1) n lead) taken rest
        else
          match lead with
          | some l =>
            if isTrail n then stringBody .plain (pairChar l n :: taken) rest else .error .malformed
          | none =>
            if isTrail n then .error .malformed
            else if isLead n then stringBody (.lead n) taken rest
            else stringBody .plain (Char.ofNat n :: taken) rest
    | .lead l => if c = '\\' then stringBody (.leadEscaped l) taken rest else .error .malformed
    | .leadEscaped l =>
      if c = 'u' then
        if endsWithinFour rest then .error .incomplete
        else stringBody (.hex 4 0 (some l)) taken rest
      else .error .malformed

def string : Reader String := fun cs => do
  let (taken, rest) ← stringBody .plain [] cs
  return (String.ofList taken, rest)

/-- What is left behind a string nobody wants. Escaped units need not pair up. -/
def skipStringBody (phase : StringPhase) : List Char → Except Fault (List Char)
  | [] => .error .incomplete
  | c :: rest =>
    match phase with
    | .escaped =>
      if c = 'u' then
        if endsWithinFour rest then .error .incomplete else skipStringBody (.hex 4 0 none) rest
      else if (escapedChar? c).isSome then skipStringBody .plain rest
      else .error .malformed
    | .hex left _ _ =>
      if (hexValue? c).isNone then .error .malformed
      else if 1 < left then skipStringBody (.hex (left - 1) 0 none) rest
      else skipStringBody .plain rest
    | _ =>
      if c = '"' then .ok rest
      else if c = '\\' then skipStringBody .escaped rest
      else if c.toNat < 32 then .error .malformed
      else skipStringBody .plain rest

def skipString : Reader Unit := fun cs => do
  return ((), ← skipStringBody .plain cs)

/-! ## A value of the wrong kind -/

/-- Reads so much of the value ahead as is needed to say what it is, and reports it. -/
def wrongType {α : Type} (wanted : String) : Reader α := do
  let found : Found ← match ← get with
    | [] => throw .incomplete
    | c :: cs =>
      set cs
      match c with
      | 'n' => word "ull".toList *> pure Found.null
      | 't' => word "rue".toList *> pure (Found.boolean true)
      | 'f' => word "alse".toList *> pure (Found.boolean false)
      | '"' => Found.text <$> string
      | '[' => pure Found.sequence
      | '\x7b' => pure Found.map
      | c =>
        if c = '-' || c.isDigit then
          let (n, rest) ← numeral (c = '-') (if c = '-' then cs else c :: cs)
          set rest
          match n with
          | .integer n => pure (Found.integer n)
          | .real t => pure (Found.real t)
        else throw .malformed
  throw (.mismatch (.wrongType found wanted))

/-! ## Sequences and members -/

/-- Whether another item of a sequence follows, its comma taken. -/
def anotherItem (first : Bool) : Reader Bool := do
  match ← ahead with
  | [] => throw .incomplete
  | ']' :: _ => return false
  | c :: cs =>
    if first then return true
    else if c = ',' then
      set cs
      match ← ahead with
      | [] => throw .incomplete
      | d :: _ => if d = ']' then throw .malformed else return true
    else throw .malformed

def sequenceEnd : Reader Unit := do
  match ← ahead with
  | [] => throw .incomplete
  | c :: cs => if c = ']' then set cs else throw .malformed

def nextKey (first : Bool) : Reader (Option String) := do
  match ← ahead with
  | [] => throw .incomplete
  | '\x7d' :: _ => return none
  | c :: cs =>
    if first then
      if c = '"' then
        set cs
        some <$> string
      else throw .malformed
    else if c = ',' then
      set cs
      match ← ahead with
      | [] => throw .incomplete
      | d :: cs =>
        if d = '"' then
          set cs
          some <$> string
        else throw .malformed
    else throw .malformed

def colon : Reader Unit := do
  match ← ahead with
  | [] => throw .incomplete
  | c :: cs => if c = ':' then set cs else throw .malformed

def mapEnd : Reader Unit := do
  match ← ahead with
  | [] => throw .incomplete
  | c :: cs => if c = '\x7d' then set cs else throw .malformed

/-- The items of a sequence. Every item takes at least one character, so `fuel` may be the number
of characters left. -/
def items {α : Type} (item : Reader α) : Nat → Bool → Reader (List α)
  | 0, _ => throw .incomplete
  | fuel + 1, first => do
    if ← anotherItem first then
      let a ← item
      let rest ← items item fuel false
      return a :: rest
    else return []

/-- The members of a map, each read by its key into what has been gathered so far. -/
def members {σ : Type} (member : String → σ → Reader σ) : Nat → Bool → σ → Reader σ
  | 0, _, _ => throw .incomplete
  | fuel + 1, first, s => do
    match ← nextKey first with
    | none => return s
    | some key =>
      let s ← member key s
      members member fuel false s

/-- One more than the number of characters left. -/
def fuel : Reader Nat := do
  return (← get).length + 1

/-! ## Values nobody wants -/

inductive Frame where
  | sequence
  | map
deriving DecidableEq, Repr

inductive SkipPhase where
  /-- In front of a value. -/
  | value
  /-- Behind an opening bracket. -/
  | opened
  /-- Behind a value. -/
  | closed
deriving DecidableEq, Repr

/-- Skips the key and colon of a member; a sequence has none. -/
def skipKey : Frame → Reader Unit
  | .sequence => pure ()
  | .map => do
    match ← ahead with
    | [] => throw .incomplete
    | c :: cs =>
      if c = '"' then
        set cs
        skipString
        colon
      else throw .malformed

/-- Skips a value that opens no bracket, or opens one. -/
def skipScalar : Reader (Option Frame) := do
  match ← ahead with
  | [] => throw .incomplete
  | c :: cs =>
    set cs
    match c with
    | 'n' => word "ull".toList *> pure none
    | 't' => word "rue".toList *> pure none
    | 'f' => word "alse".toList *> pure none
    | '"' => skipString *> pure none
    | '[' => return some .sequence
    | '\x7b' => return some .map
    | c =>
      if c = '-' then
        set (← skipNumeral cs)
        return none
      else if c.isDigit then
        set (← skipNumeral (c :: cs))
        return none
      else throw .malformed

def Frame.isClosedBy (frame : Frame) (c : Char) : Bool :=
  match frame with
  | .sequence => c = ']'
  | .map => c = '\x7d'

/-- Skips to the end of a value inside open brackets, innermost first. Two steps are taken for
every character at most. -/
def skipWithin : Nat → SkipPhase → List Frame → Reader Unit
  | 0, _, _ => throw .incomplete
  | fuel + 1, .value, frames => do
    match ← skipScalar with
    | none => skipWithin fuel .closed frames
    | some frame => skipWithin fuel .opened (frame :: frames)
  | _ + 1, _, [] => pure ()
  | fuel + 1, .opened, frame :: frames => do
    match ← ahead with
    | [] => throw .incomplete
    | c :: cs =>
      if frame.isClosedBy c then
        set cs
        skipWithin fuel .closed frames
      else
        skipKey frame
        skipWithin fuel .value (frame :: frames)
  | fuel + 1, .closed, frame :: frames => do
    match ← ahead with
    | [] => throw .incomplete
    | c :: cs =>
      if c = ',' then
        set cs
        skipKey frame
        skipWithin fuel .value (frame :: frames)
      else if frame.isClosedBy c then
        set cs
        skipWithin fuel .closed frames
      else throw .malformed

def skip : Reader Unit := do
  skipWithin (2 * (← fuel)) .value []

end Reader

end Reconcile.Json
