/-!
# JSON documents

The documents this library writes: numbers are whole, and the members of an object keep the order
in which they are given. A document is printed on one line or spread over indented lines.
-/

namespace Reconcile

inductive Json where
  | null
  | bool (b : Bool)
  | int (n : Int)
  | text (s : String)
  | array (items : List Json)
  | object (members : List (String × Json))

namespace Json

def hexDigit (n : Nat) : Char :=
  if n < 10 then Char.ofNat ('0'.toNat + n) else Char.ofNat ('a'.toNat + (n - 10))

/-- A character as it stands in a JSON string. -/
def stringChar (c : Char) : List Char :=
  match c with
  | '"' => ['\\', '"']
  | '\\' => ['\\', '\\']
  | '\x08' => ['\\', 'b']
  | '\x0c' => ['\\', 'f']
  | '\n' => ['\\', 'n']
  | '\r' => ['\\', 'r']
  | '\t' => ['\\', 't']
  | c =>
    if c.toNat < 32 then ['\\', 'u', '0', '0', hexDigit (c.toNat / 16), hexDigit (c.toNat % 16)]
    else [c]

def stringChars (s : String) : List Char :=
  ['"'] ++ s.toList.flatMap stringChar ++ ['"']

def intChars (n : Int) : List Char :=
  if n < 0 then '-' :: Nat.toDigits 10 n.natAbs else Nat.toDigits 10 n.natAbs

/-! ## On one line -/

mutual

/-- A document without any blanks. -/
def chars : Json → List Char
  | .null => "null".toList
  | .bool b => if b then "true".toList else "false".toList
  | .int n => intChars n
  | .text s => stringChars s
  | .array items => ['['] ++ itemChars items ++ [']']
  | .object members => ['\x7b'] ++ memberChars members ++ ['\x7d']

def itemChars : List Json → List Char
  | [] => []
  | [v] => chars v
  | v :: rest => chars v ++ [','] ++ itemChars rest

def memberChars : List (String × Json) → List Char
  | [] => []
  | [(k, v)] => stringChars k ++ [':'] ++ chars v
  | (k, v) :: rest => stringChars k ++ [':'] ++ chars v ++ [','] ++ memberChars rest

end

def compact (v : Json) : String :=
  String.ofList v.chars

/-! ## On indented lines -/

def lineStart (depth : Nat) : List Char :=
  '\n' :: List.replicate (2 * depth) ' '

mutual

/-- A document whose first line stands at some depth. -/
def lines (depth : Nat) : Json → List Char
  | .array items =>
    if items.isEmpty then ['[', ']']
    else ['['] ++ itemLines (depth + 1) items ++ lineStart depth ++ [']']
  | .object members =>
    if members.isEmpty then ['\x7b', '\x7d']
    else ['\x7b'] ++ memberLines (depth + 1) members ++ lineStart depth ++ ['\x7d']
  | .null => "null".toList
  | .bool b => if b then "true".toList else "false".toList
  | .int n => intChars n
  | .text s => stringChars s

def itemLines (depth : Nat) : List Json → List Char
  | [] => []
  | [v] => lineStart depth ++ lines depth v
  | v :: rest => lineStart depth ++ lines depth v ++ [','] ++ itemLines depth rest

def memberLines (depth : Nat) : List (String × Json) → List Char
  | [] => []
  | [(k, v)] => lineStart depth ++ stringChars k ++ [':', ' '] ++ lines depth v
  | (k, v) :: rest =>
    lineStart depth ++ stringChars k ++ [':', ' '] ++ lines depth v ++ [','] ++
      memberLines depth rest

end

def pretty (v : Json) : String :=
  String.ofList (v.lines 0)

end Json

end Reconcile
