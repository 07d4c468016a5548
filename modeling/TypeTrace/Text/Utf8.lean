/-!
# Decoding UTF-8

Bytes are decoded from left to right. A byte sequence that no character has is
cut into its maximal ill-formed parts: each part is the longest start of a
well-formed sequence, or one byte if there is no such start. The strict reading
refuses such a part; the lenient one puts a replacement character for it.
-/

namespace TypeTrace.Text.Utf8

/-- What a lead byte says of the bytes that follow it: how many there are, the
bounds of the first of them and the bits that the lead byte itself carries. -/
structure Lead where
  following : Nat
  low : UInt8
  high : UInt8
  bits : Nat

/-- The meaning of a lead byte; none for a byte that starts no character. The
bounds keep out overlong forms, surrogates and code points past U+10FFFF. -/
def lead? (b : UInt8) : Option Lead :=
  let n := b.toNat
  if n < 0x80 then some ⟨0, 0x80, 0xbf, n⟩
  else if n < 0xc2 then none
  else if n < 0xe0 then some ⟨1, 0x80, 0xbf, n - 0xc0⟩
  else if n == 0xe0 then some ⟨2, 0xa0, 0xbf, 0⟩
  else if n == 0xed then some ⟨2, 0x80, 0x9f, 0x0d⟩
  else if n < 0xf0 then some ⟨2, 0x80, 0xbf, n - 0xe0⟩
  else if n == 0xf0 then some ⟨3, 0x90, 0xbf, 0⟩
  else if n < 0xf4 then some ⟨3, 0x80, 0xbf, n - 0xf0⟩
  else if n == 0xf4 then some ⟨3, 0x80, 0x8f, 4⟩
  else none

/-- Reads `k` more bytes of a character whose bits so far are `bits`. Gives its
code point, or nothing if a byte does not fit, with the bytes left. -/
def follow : (k : Nat) → (low high : UInt8) → (bits : Nat) → List UInt8 → Option Nat × List UInt8
  | 0, _, _, bits, rest => (some bits, rest)
  | _ + 1, _, _, _, [] => (none, [])
  | k + 1, low, high, bits, b :: rest =>
    if low ≤ b ∧ b ≤ high then follow k 0x80 0xbf (bits * 64 + b.toNat % 64) rest
    else (none, b :: rest)

theorem length_follow_le (k : Nat) (low high : UInt8) (bits : Nat) (bs : List UInt8) :
    (follow k low high bits bs).2.length ≤ bs.length := by
  induction k generalizing low high bits bs with
  | zero => simp [follow]
  | succ k ih =>
    cases bs with
    | nil => simp [follow]
    | cons b rest =>
      simp only [follow]
      split
      · exact Nat.le_succ_of_le (ih _ _ _ _)
      · exact Nat.le_refl _

/-- The characters of a byte sequence, with nothing for each ill-formed part. -/
def scan : List UInt8 → List (Option Char)
  | [] => []
  | b :: rest =>
    match lead? b with
    | none => none :: scan rest
    | some l =>
      let step := follow l.following l.low l.high l.bits rest
      step.1.map Char.ofNat :: scan step.2
termination_by bs => bs.length
decreasing_by
  · simp
  · have := length_follow_le l.following l.low l.high l.bits rest
    simp only [List.length_cons]
    omega

/-- The text that well-formed bytes encode; none for other bytes. -/
def decode? (bytes : List UInt8) : Option (List Char) := (scan bytes).mapM id

/-- The text of any bytes, with U+FFFD for each ill-formed part. -/
def decodeLenient (bytes : List UInt8) : List Char :=
  (scan bytes).map fun c => c.getD '\uFFFD'

end TypeTrace.Text.Utf8
