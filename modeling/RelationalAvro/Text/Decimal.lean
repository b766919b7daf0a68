/-!
# Numbers in decimal

Naturals are written in decimal with ASCII digits and no leading zeros, and read from ASCII digits
of any number, leading zeros allowed. Integers take a sign.
-/

namespace RelationalAvro.Text

/-- The value of the ASCII digit `c`. -/
def digitValue (c : Char) : Nat :=
  c.toNat - '0'.toNat

/-- The value of a text of ASCII digits, most significant first. -/
def digitsValue (digits : List Char) : Nat :=
  digits.foldl (fun value c => 10 * value + digitValue c) 0

/-- The decimal digits of `n`. -/
def natDigits (n : Nat) : List Char :=
  if n < 10 then [Nat.digitChar n] else natDigits (n / 10) ++ [Nat.digitChar (n % 10)]
decreasing_by omega

/-- The decimal text of `n`. -/
def natText (n : Nat) : String :=
  String.ofList (natDigits n)

/-- The decimal text of `i`, with a minus sign if it is negative. -/
def intText (i : Int) : String :=
  if i < 0 then String.ofList ('-' :: natDigits i.natAbs) else natText i.natAbs

/-- The natural that a nonempty text of ASCII digits denotes. -/
def nat? (digits : List Char) : Option Nat :=
  if digits ≠ [] ∧ digits.all Char.isDigit then some (digitsValue digits) else none

/-- The integer that ASCII digits after an optional sign denote. -/
def int? : List Char → Option Int
  | '+' :: digits => (nat? digits).map Int.ofNat
  | '-' :: digits => (nat? digits).map fun n => -Int.ofNat n
  | digits => (nat? digits).map Int.ofNat

/-- One more digit makes ten times the number, and the digit. -/
theorem digitsValue_append_singleton (digits : List Char) (c : Char) :
    digitsValue (digits ++ [c]) = 10 * digitsValue digits + digitValue c := by
  simp [digitsValue]

/-- The characters of the numbers below ten are digits. -/
private theorem isDigit_digitChar {n : Nat} (h : n < 10) : (Nat.digitChar n).isDigit = true := by
  have : ∀ m : Fin 10, (Nat.digitChar m).isDigit = true := by decide
  exact this ⟨n, h⟩

/-- The digit of a number below ten stands for that number. -/
private theorem digitValue_digitChar {n : Nat} (h : n < 10) : digitValue (Nat.digitChar n) = n := by
  have : ∀ m : Fin 10, digitValue (Nat.digitChar m) = m := by decide
  exact this ⟨n, h⟩

/-- A decimal text holds ASCII digits only. -/
theorem isDigit_of_mem_natDigits {n : Nat} {c : Char} (h : c ∈ natDigits n) : c.isDigit = true := by
  induction n using natDigits.induct with
  | case1 n hn =>
    rw [natDigits, if_pos hn, List.mem_singleton] at h
    exact h ▸ isDigit_digitChar hn
  | case2 n hn ih =>
    rw [natDigits, if_neg hn, List.mem_append, List.mem_singleton] at h
    rcases h with h | rfl
    · exact ih h
    · exact isDigit_digitChar (Nat.mod_lt _ (by decide))

/-- Every number has a digit. -/
theorem natDigits_ne_nil (n : Nat) : natDigits n ≠ [] := by
  rw [natDigits]
  split <;> simp

/-- Reading a decimal text gives the number written. -/
theorem digitsValue_natDigits (n : Nat) : digitsValue (natDigits n) = n := by
  induction n using natDigits.induct with
  | case1 n hn =>
    rw [natDigits, if_pos hn]
    simpa [digitsValue] using digitValue_digitChar hn
  | case2 n hn ih =>
    rw [natDigits, if_neg hn, digitsValue_append_singleton, ih,
      digitValue_digitChar (Nat.mod_lt _ (by decide))]
    omega

/-- What is written for a number reads back as it. -/
@[simp] theorem nat?_natDigits (n : Nat) : nat? (natDigits n) = some n := by
  have h : (natDigits n).all Char.isDigit = true :=
    List.all_eq_true.2 fun _ hc => isDigit_of_mem_natDigits hc
  simp [nat?, natDigits_ne_nil, h, digitsValue_natDigits]

end RelationalAvro.Text
