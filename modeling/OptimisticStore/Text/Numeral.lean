/-!
Whole numbers written in decimal digits.

`digitsValue?` reads a non-empty run of ASCII digits, leading zeros allowed; `readUnsigned` also takes
one plus sign in front. Main statement: the digits that `Nat` is written with are read back.
-/
namespace OptimisticStore.Text

def digitValue? (c : Char) : Option Nat :=
  if '0' ≤ c && c ≤ '9' then some (c.toNat - '0'.toNat) else none

def digitsFrom (sofar : Nat) : List Char → Option Nat
  | [] => some sofar
  | c :: rest => do digitsFrom (10 * sofar + (← digitValue? c)) rest

def digitsValue? : List Char → Option Nat
  | [] => none
  | digits => digitsFrom 0 digits

/-- An optional plus sign and at least one digit, nothing else. -/
def readUnsigned (text : String) : Option Nat :=
  match text.toList with
  | '+' :: digits => digitsValue? digits
  | digits => digitsValue? digits

def readBelow (bound : Nat) (text : String) : Option Nat :=
  (readUnsigned text).filter (· < bound)

theorem digitsFrom_eq_ofDigitChars {digits : List Char} (all : ∀ c ∈ digits, c.isDigit) (sofar : Nat) :
    digitsFrom sofar digits = some (Nat.ofDigitChars 10 digits sofar) := by
  induction digits generalizing sofar with
  | nil => simp [digitsFrom]
  | cons c rest ih =>
    have digit : c.isDigit := all c (by simp)
    have value : digitValue? c = some (c.toNat - '0'.toNat) := by
      simp only [Char.isDigit, Bool.and_eq_true, decide_eq_true_eq, ge_iff_le] at digit
      unfold digitValue?
      rw [if_pos]
      simpa [Char.le_def] using digit
    simp only [digitsFrom, value, Option.bind_eq_bind, Option.bind_some, Nat.ofDigitChars_cons]
    exact ih (fun d within => all d (List.mem_cons_of_mem _ within)) _

theorem digitsValue_toDigits (n : Nat) : digitsValue? (Nat.toDigits 10 n) = some n := by
  have all : ∀ c ∈ Nat.toDigits 10 n, c.isDigit := fun c within =>
    Nat.isDigit_of_mem_toDigits (by decide) (by decide) within
  have value := digitsFrom_eq_ofDigitChars all 0
  rw [Nat.ofDigitChars_toDigits (by decide) (by decide)] at value
  cases shape : Nat.toDigits 10 n with
  | nil => exact absurd shape Nat.toDigits_ne_nil
  | cons c rest =>
    rw [shape] at value
    simpa [digitsValue?] using value

end OptimisticStore.Text
