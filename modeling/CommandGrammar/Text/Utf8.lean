/-! Texts as bytes and bytes as texts, by UTF-8. Bytes that make no character are shown by
replacement characters, one for each piece that could have begun a character and did not go on as
one. -/
namespace CommandGrammar.Utf8

def encode (text : List Char) : List UInt8 := text.flatMap String.utf8EncodeChar

/-- What stands for bytes that are no character. -/
def replacement : Char := '\uFFFD'

/-- A character of which some bytes have been read. The next byte has bounds of its own, so that
each character has one encoding and no surrogate has any. -/
structure Begun where
  bits : Nat
  low : Nat
  high : Nat
  /-- How many bytes are due behind the next one. -/
  further : Nat

/-- What a byte tells where a character may begin. -/
def first (byte : Nat) : List Char × Option Begun :=
  if byte < 0x80 then ([.ofNat byte], none)
  else if byte < 0xC2 then ([replacement], none)
  else if byte < 0xE0 then ([], some ⟨byte - 0xC0, 0x80, 0xBF, 0⟩)
  else if byte < 0xF0 then
    ([], some ⟨byte - 0xE0, if byte = 0xE0 then 0xA0 else 0x80,
      if byte = 0xED then 0x9F else 0xBF, 1⟩)
  else if byte < 0xF5 then
    ([], some ⟨byte - 0xF0, if byte = 0xF0 then 0x90 else 0x80,
      if byte = 0xF4 then 0x8F else 0xBF, 2⟩)
  else ([replacement], none)

/-- A byte that does not continue a character may still begin the next one. -/
def step : Option Begun → Nat → List Char × Option Begun
  | none, byte => first byte
  | some begun, byte =>
    if begun.low ≤ byte ∧ byte ≤ begun.high then
      let bits := begun.bits * 64 + (byte - 0x80)
      match begun.further with
      | 0 => ([.ofNat bits], none)
      | further + 1 => ([], some ⟨bits, 0x80, 0xBF, further⟩)
    else (replacement :: (first byte).1, (first byte).2)

def decodeFrom : Option Begun → List UInt8 → List Char
  | none, [] => []
  | some _, [] => [replacement]
  | begun, byte :: rest =>
    let (chars, next) := step begun byte.toNat
    chars ++ decodeFrom next rest

/-- The text that bytes are shown as. -/
def decode (bytes : List UInt8) : List Char := decodeFrom none bytes

section
variable {byte low high bits further : Nat} {rest : List UInt8} {begun : Begun}

theorem toNat_ofNat (small : byte < 0x100) : (UInt8.ofNat byte).toNat = byte := by
  rw [UInt8.toNat_ofNat']
  omega

theorem decodeFrom_single (small : byte < 0x80) :
    decodeFrom none (.ofNat byte :: rest) = .ofNat byte :: decodeFrom none rest := by
  rw [decodeFrom, toNat_ofNat (by omega), step, first, if_pos small]
  rfl

theorem decodeFrom_begin (small : byte < 0x100) (begins : first byte = ([], some begun)) :
    decodeFrom none (.ofNat byte :: rest) = decodeFrom (some begun) rest := by
  rw [decodeFrom, toNat_ofNat small, step, begins]
  rfl

theorem decodeFrom_continue (small : byte < 0x100) (above : low ≤ byte) (below : byte ≤ high) :
    decodeFrom (some ⟨bits, low, high, further + 1⟩) (.ofNat byte :: rest) =
      decodeFrom (some ⟨bits * 64 + (byte - 0x80), 0x80, 0xBF, further⟩) rest := by
  rw [decodeFrom, toNat_ofNat small, step, if_pos ⟨above, below⟩]
  rfl

theorem decodeFrom_end (small : byte < 0x100) (above : low ≤ byte) (below : byte ≤ high) :
    decodeFrom (some ⟨bits, low, high, 0⟩) (.ofNat byte :: rest) =
      .ofNat (bits * 64 + (byte - 0x80)) :: decodeFrom none rest := by
  rw [decodeFrom, toNat_ofNat small, step, if_pos ⟨above, below⟩]
  rfl

theorem first_of_two (above : 0xC2 ≤ byte) (below : byte < 0xE0) :
    first byte = ([], some ⟨byte - 0xC0, 0x80, 0xBF, 0⟩) := by
  rw [first, if_neg (by omega), if_neg (by omega), if_pos below]

theorem first_of_three (above : 0xE0 ≤ byte) (below : byte < 0xF0) :
    first byte = ([], some ⟨byte - 0xE0, if byte = 0xE0 then 0xA0 else 0x80,
      if byte = 0xED then 0x9F else 0xBF, 1⟩) := by
  rw [first, if_neg (by omega), if_neg (by omega), if_neg (by omega), if_pos below]

theorem first_of_four (above : 0xF0 ≤ byte) (below : byte < 0xF5) :
    first byte = ([], some ⟨byte - 0xF0, if byte = 0xF0 then 0x90 else 0x80,
      if byte = 0xF4 then 0x8F else 0xBF, 2⟩) := by
  rw [first, if_neg (by omega), if_neg (by omega), if_neg (by omega), if_neg (by omega),
    if_pos below]

end

/-- The bytes of a character are decoded as the character, whatever follows them. -/
theorem decodeFrom_char (c : Char) (rest : List UInt8) :
    decodeFrom none (String.utf8EncodeChar c ++ rest) = c :: decodeFrom none rest := by
  obtain ⟨n, code, same⟩ : ∃ n, c.val.toNat = n ∧ Char.ofNat n = c := ⟨_, rfl, c.ofNat_toNat⟩
  have scalar : n < 0xD800 ∨ 0xDFFF < n ∧ n < 0x110000 := code ▸ c.valid
  simp only [String.utf8EncodeChar, code]
  split
  case isTrue => rw [List.singleton_append, decodeFrom_single (by omega), same]
  split
  case isTrue two =>
    have bits : (n / 64 % 32 + 192 - 0xC0) * 64 + (n % 64 + 128 - 0x80) = n := by omega
    rw [List.cons_append, decodeFrom_begin (by omega) (first_of_two (by omega) (by omega)),
      List.singleton_append, decodeFrom_end (by omega) (by omega) (by omega), bits, same]
  split
  case isTrue three =>
    have bits : ((n / 4096 % 16 + 224 - 0xE0) * 64 + (n / 64 % 64 + 128 - 0x80)) * 64 +
        (n % 64 + 128 - 0x80) = n := by omega
    rw [List.cons_append, decodeFrom_begin (by omega) (first_of_three (by omega) (by omega)),
      List.cons_append, decodeFrom_continue (by omega) (by split <;> omega) (by split <;> omega),
      List.singleton_append, decodeFrom_end (by omega) (by omega) (by omega), bits, same]
  case isFalse four =>
    have bits : (((n / 262144 % 8 + 240 - 0xF0) * 64 + (n / 4096 % 64 + 128 - 0x80)) * 64 +
        (n / 64 % 64 + 128 - 0x80)) * 64 + (n % 64 + 128 - 0x80) = n := by omega
    rw [List.cons_append, decodeFrom_begin (by omega) (first_of_four (by omega) (by omega)),
      List.cons_append, decodeFrom_continue (by omega) (by split <;> omega) (by split <;> omega),
      List.cons_append, decodeFrom_continue (by omega) (by omega) (by omega),
      List.singleton_append, decodeFrom_end (by omega) (by omega) (by omega), bits, same]

theorem decode_encode (text : List Char) : decode (encode text) = text := by
  unfold decode encode
  induction text with
  | nil => rfl
  | cons c rest ih => rw [List.flatMap_cons, decodeFrom_char, ih]

-- A byte that begins nothing, and two characters cut short.
example : decode [0x61, 0xFF, 0xE2, 0x82, 0x62, 0xF0, 0x9F] =
    ['a', replacement, replacement, 'b', replacement] := by decide

end CommandGrammar.Utf8
