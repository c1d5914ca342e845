import ApiProjection.Text.Lower
/-!
# Letters of either case

`Text.caseVariants` lists the characters that count as one letter when case makes no difference: small
letters with one capital, and every capital of theirs.
-/
namespace ApiProjection.Text

/-- Small letters that have one capital. -/
def smallLetterSets : List (List Nat) := [
  [0x69, 0x131], [0x73, 0x17f], [0xb5, 0x3bc], [0x345, 0x3b9, 0x1fbe], [0x390, 0x1fd3],
  [0x3b0, 0x1fe3], [0x3b2, 0x3d0], [0x3b5, 0x3f5], [0x3b8, 0x3d1], [0x3ba, 0x3f0], [0x3c0, 0x3d6],
  [0x3c1, 0x3f1], [0x3c2, 0x3c3], [0x3c6, 0x3d5], [0x432, 0x1c80], [0x434, 0x1c81],
  [0x43e, 0x1c82], [0x441, 0x1c83], [0x442, 0x1c84, 0x1c85], [0x44a, 0x1c86], [0x463, 0x1c87],
  [0x1c88, 0xa64b], [0x1e61, 0x1e9b], [0xfb05, 0xfb06]]

/-- The lower case of a character where one character has to stand for it. -/
def smallLetter (c : Char) : Char := if c = '\u0130' then 'i' else lowerChar c

/-- The capitals with a lower case. -/
def capitalsOf (small : Nat) : List Nat :=
  (if small = 0x69 then [0x130] else []) ++
  capitalRuns.filterMap fun r =>
    let n := ((small : Int) - r.shift).toNat
    if r.first ≤ n && n ≤ r.last && (n - r.first) % r.step = 0 then some n else none

/-- The characters that differ from one in case alone, itself among them. -/
def caseVariants (c : Char) : List Nat :=
  let small := (smallLetter c).toNat
  let smalls := (smallLetterSets.find? fun s => s.contains small).getD [small]
  smalls.flatMap fun n =>
    (if n < 0x80 then [n, (Char.ofNat n).toUpper.toNat] else [n]) ++ capitalsOf n

/-- The ASCII letters that differ from a character in case alone, and the character itself. -/
def asciiCaseVariants (c : Char) : List Nat := [c.toLower.toNat, c.toUpper.toNat]

end ApiProjection.Text
