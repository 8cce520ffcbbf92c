/-!
# Decimal numbers

Numbers are written in base ten without leading zeros and with a hyphen in front of a negative
one. A number can also be filled up with zeros to a least width, as in the codes of diagnostics.

`ofDigitChars_natDigits` reads the digits of a natural number back.
-/

namespace TemplateDump.Text

/-- The digits of a natural number, at least one and the first not zero unless the number is. -/
def natDigits (n : Nat) : List Char :=
  Nat.toDigits 10 n

/-- The characters of an integer. -/
def intDigits : Int → List Char
  | .ofNat n => natDigits n
  | .negSucc n => '-' :: natDigits (n + 1)

/-- The digits of a number with zeros in front of them up to a least width. -/
def paddedDigits (width n : Nat) : List Char :=
  (natDigits n).leftpad width '0'

/-- A natural number in base ten. -/
def decimalNat (n : Nat) : String :=
  String.ofList (natDigits n)

/-- An integer in base ten. -/
def decimal (i : Int) : String :=
  String.ofList (intDigits i)

@[simp] theorem toList_decimal (i : Int) : (decimal i).toList = intDigits i :=
  String.toList_ofList

theorem isDigit_of_mem_natDigits {n : Nat} {c : Char} (h : c ∈ natDigits n) : c.isDigit = true :=
  Nat.isDigit_of_mem_toDigits (by decide) (by decide) h

theorem natDigits_ne_nil (n : Nat) : natDigits n ≠ [] :=
  Nat.toDigits_ne_nil

/-- Reading the digits back gives the number. -/
theorem ofDigitChars_natDigits (n : Nat) : Nat.ofDigitChars 10 (natDigits n) 0 = n :=
  Nat.ofDigitChars_toDigits (by decide) (by decide)

theorem natDigits_inj {m n : Nat} : natDigits m = natDigits n ↔ m = n :=
  ⟨fun h => by rw [← ofDigitChars_natDigits m, h, ofDigitChars_natDigits], congrArg _⟩

end TemplateDump.Text
