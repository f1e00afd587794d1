/-!
128-bit identifiers and their text: thirty-two hexadecimal digits in groups of 8, 4, 4, 4 and 12.

Reading takes letters of either case, and besides the grouped form the bare digits, the grouped form
in braces, and the grouped form after `urn:uuid:`.
-/
namespace OptimisticStore

structure Uuid where
  bits : BitVec 128
deriving DecidableEq, Inhabited

namespace Uuid

def hexDigit (n : Nat) : Char := (Nat.digitChar (n % 16))

def hexDigits (n : Nat) : Nat → List Char
  | 0 => []
  | count + 1 => hexDigits (n / 16) count ++ [hexDigit n]

def grouped : List Nat → List Char → List Char
  | [], _ => []
  | [width], digits => digits.take width
  | width :: widths, digits => digits.take width ++ '-' :: grouped widths (digits.drop width)

def groupWidths : List Nat := [8, 4, 4, 4, 12]

def text (id : Uuid) : String := String.ofList (grouped groupWidths (hexDigits id.bits.toNat 32))

def hexValue? (c : Char) : Option Nat :=
  if '0' ≤ c && c ≤ '9' then some (c.toNat - '0'.toNat)
  else if 'a' ≤ c && c ≤ 'f' then some (c.toNat - 'a'.toNat + 10)
  else if 'A' ≤ c && c ≤ 'F' then some (c.toNat - 'A'.toNat + 10)
  else none

def ofDigits? (digits : List Char) : Option Uuid :=
  if digits.length = 32 then do
    let value ← digits.foldlM (fun sofar c => do return 16 * sofar + (← hexValue? c)) 0
    return ⟨BitVec.ofNat 128 value⟩
  else none

def ungrouped? : List Nat → List Char → Option (List Char)
  | [], rest => if rest.isEmpty then some [] else none
  | [width], rest => if rest.length = width then some rest else none
  | width :: widths, rest =>
    match rest.drop width with
    | '-' :: later => do return rest.take width ++ (← ungrouped? widths later)
    | _ => none

def ofGrouped? (rest : List Char) : Option Uuid := do ofDigits? (← ungrouped? groupWidths rest)

def read? (source : String) : Option Uuid :=
  let whole := source.toList
  match whole.length with
  | 32 => ofDigits? whole
  | 36 => ofGrouped? whole
  | 38 => if whole.head? = some '\x7b' ∧ whole.getLast? = some '\x7d' then
      ofGrouped? (whole.drop 1).dropLast else none
  | 45 => if (whole.take 9).map Char.toLower = "urn:uuid:".toList then
      ofGrouped? (whole.drop 9) else none
  | _ => none

/-- The time-ordered identifier (version 7) that carries `payload` in its lowest 62 bits. It stands for the
one that a generator outside of the library makes of the clock and random bits at the draw of this number:
like that one it has the version and the variant of its kind, and no two draws come to the same. -/
def ordered (payload : Nat) : Uuid :=
  ⟨BitVec.ofNat 128 (7 <<< 76 + 2 <<< 62 + payload % 1 <<< 62)⟩

def version (id : Uuid) : Nat := (id.bits.toNat >>> 76) % 16

end Uuid

instance : Ord Uuid := ⟨compareOn Uuid.bits⟩

instance : Std.TransOrd Uuid := inferInstanceAs (Std.TransCmp (compareOn Uuid.bits))

instance : Std.LawfulEqOrd Uuid where
  eq_of_compare {a b} same := by
    cases a; cases b
    exact congrArg Uuid.mk (Std.LawfulEqOrd.compare_eq_iff_eq.mp same)

end OptimisticStore
