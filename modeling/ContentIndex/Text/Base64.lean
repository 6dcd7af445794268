/-
  Base64 text of bytes: each three bytes are four characters of the standard alphabet, and one or
  two bytes at the end are filled up with equality signs.
-/

namespace ContentIndex.Text

/-- The sixty-four characters of the standard alphabet. -/
def base64Alphabet : List Char :=
  "ABCDEFGHIJKLMNOPQRSTUVWXYZabcdefghijklmnopqrstuvwxyz0123456789+/".toList

/-- The character of six bits. -/
def base64Char (n : Nat) : Char :=
  base64Alphabet.getD (n % 64) '='

/-- The characters of a list of bytes. -/
def base64Chars : List UInt8 → List Char
  | [] => []
  | [a] =>
    let n := a.toNat * 16
    [base64Char (n / 64), base64Char n, '=', '=']
  | [a, b] =>
    let n := (a.toNat * 256 + b.toNat) * 4
    [base64Char (n / 4096), base64Char (n / 64), base64Char n, '=']
  | a :: b :: c :: r =>
    let n := (a.toNat * 256 + b.toNat) * 256 + c.toNat
    base64Char (n / 262144) :: base64Char (n / 4096) :: base64Char (n / 64) :: base64Char n
      :: base64Chars r

/-- The UTF-8 bytes of a text in Base64. -/
def base64 (s : String) : String :=
  String.ofList (base64Chars s.toUTF8.toList)

/-! ## Laws -/

/-- Four characters stand for each group of three bytes begun. -/
theorem base64Chars_length (bs : List UInt8) :
    (base64Chars bs).length = 4 * ((bs.length + 2) / 3) := by
  fun_induction base64Chars bs with
  | case1 => rfl
  | case2 => simp
  | case3 => simp
  | case4 a b c r n ih =>
    simp only [List.length_cons, ih]
    omega

end ContentIndex.Text
