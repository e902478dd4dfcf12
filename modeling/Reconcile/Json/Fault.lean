import Reconcile.Text
import Reconcile.Time.Stamp

/-!
# Why a text is no document of a wanted form

A text can end too early, it can break the rules of JSON, or it can hold a value that is not the
wanted one. Texts are read from the front, and the first of these that is met is reported.
-/

namespace Reconcile.Json

inductive Found where
  | null
  | boolean (b : Bool)
  | integer (n : Int)
  | real (text : String)
  | text (s : String)
  | sequence
  | map
deriving DecidableEq, Repr

def Found.description : Found → String
  | .null => "null"
  | .boolean b => "boolean `" ++ (if b then "true" else "false") ++ "`"
  | .integer n => "integer `" ++ toString n ++ "`"
  | .real t => "floating point `" ++ t ++ "`"
  | .text s => "string " ++ Text.quoted s
  | .sequence => "sequence"
  | .map => "map"

inductive Mismatch where
  | wrongType (found : Found) (wanted : String)
  | wrongLength (length : Nat) (wanted : String)
  | missingField (name : String)
  | duplicateField (name : String)
  | unknownVariant (name : String) (known : List String)
  | timestampOutOfRange (seconds : Int)
  | badStamp (fault : StampFault)
deriving DecidableEq, Repr

def named (s : String) : String :=
  "`" ++ s ++ "`"

/-- The choice between some names, in words. -/
def choice : List String → String
  | [] => "there are no variants"
  | [a] => "expected " ++ named a
  | [a, b] => "expected " ++ named a ++ " or " ++ named b
  | names => "expected one of " ++ ", ".intercalate (names.map named)

def Mismatch.message : Mismatch → String
  | .wrongType found wanted => "invalid type: " ++ found.description ++ ", expected " ++ wanted
  | .wrongLength length wanted =>
    "invalid length " ++ toString length ++ ", expected " ++ wanted
  | .missingField name => "missing field " ++ named name
  | .duplicateField name => "duplicate field " ++ named name
  | .unknownVariant name known => "unknown variant " ++ named name ++ ", " ++ choice known
  | .timestampOutOfRange seconds => "value is not a legal timestamp: " ++ toString seconds
  | .badStamp fault => fault.message

inductive Fault where
  | incomplete
  | malformed
  | mismatch (cause : Mismatch)
deriving DecidableEq, Repr

end Reconcile.Json
