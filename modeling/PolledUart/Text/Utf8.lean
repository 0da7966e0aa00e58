/-!
# Text and bytes

Text is written as UTF-8. Bytes are read back in two ways: `decode?` accepts well-formed
bytes only, and `decodeLossy` also reads bytes that are no text, with one replacement
character for each maximal part that cannot be the start of a character.

* `decode?_eq_some_iff` — `decode?` accepts exactly what `encode` writes.
* `decodeLossy_of_decode?` — where the bytes are well formed, both readings agree.
* `decodeLossy_encode` — hence what was written reads back.
-/

namespace PolledUart.Text

/-- The bytes of a text. -/
def encode (text : String) : List UInt8 :=
  text.toUTF8.data.toList

/-- Reads well-formed bytes. -/
def decode? (bytes : List UInt8) : Option String :=
  String.fromUTF8? ⟨bytes.toArray⟩

/-! ### Replacement -/

/-- U+FFFD, which stands for bytes that are no text. -/
def replacement : Char := '\ufffd'

/-- An unfinished character: how many bytes it still needs, what the next one may be, and
the bits read so far. -/
structure Unfinished where
  /-- Bytes still to come, at least one. -/
  owed : Nat
  /-- Least value of the next byte. -/
  low : UInt8
  /-- Greatest value of the next byte. -/
  high : UInt8
  /-- The bits of the code point read so far. -/
  bits : Nat
deriving Repr, DecidableEq

/-- The character that a byte begins, if it can begin one of several bytes. The range of the
second byte leaves out overlong forms, surrogates and what lies beyond the last code point. -/
def Unfinished.ofLead? (b : UInt8) : Option Unfinished :=
  if 0xc2 ≤ b ∧ b ≤ 0xdf then some ⟨1, 0x80, 0xbf, b.toNat % 0x20⟩
  else if b = 0xe0 then some ⟨2, 0xa0, 0xbf, 0⟩
  else if b = 0xed then some ⟨2, 0x80, 0x9f, 0xd⟩
  else if 0xe1 ≤ b ∧ b ≤ 0xef then some ⟨2, 0x80, 0xbf, b.toNat % 0x10⟩
  else if b = 0xf0 then some ⟨3, 0x90, 0xbf, 0⟩
  else if 0xf1 ≤ b ∧ b ≤ 0xf3 then some ⟨3, 0x80, 0xbf, b.toNat % 8⟩
  else if b = 0xf4 then some ⟨3, 0x80, 0x8f, 4⟩
  else none

/-- Takes a byte where no character is unfinished. -/
def start (b : UInt8) : List Char × Option Unfinished :=
  if b < 0x80 then ([Char.ofNat b.toNat], none)
  else match Unfinished.ofLead? b with
    | some u => ([], some u)
    | none => ([replacement], none)

/-- Takes a byte. One that cannot continue the unfinished character leaves a replacement for
it and is then taken on its own. -/
def step : Option Unfinished → UInt8 → List Char × Option Unfinished
  | none, b => start b
  | some u, b =>
    if u.low ≤ b ∧ b ≤ u.high then
      let bits := u.bits * 0x40 + b.toNat % 0x40
      if u.owed ≤ 1 then ([Char.ofNat bits], none)
      else ([], some ⟨u.owed - 1, 0x80, 0xbf, bits⟩)
    else
      let (chars, next) := start b
      (replacement :: chars, next)

/-- The characters of the bytes that follow an unfinished character. -/
def repairFrom : Option Unfinished → List UInt8 → List Char
  | none, [] => []
  | some _, [] => [replacement]
  | state, b :: bytes =>
    let (chars, next) := step state b
    chars ++ repairFrom next bytes

/-- Reads any bytes, with a replacement for each part that is no text. -/
def repair (bytes : List UInt8) : String :=
  String.ofList (repairFrom none bytes)

/-- Reads any bytes: well-formed ones as they are, others with replacements. -/
def decodeLossy (bytes : List UInt8) : String :=
  (decode? bytes).getD (repair bytes)

/-! ### Reading back -/

@[simp] theorem decode?_encode (text : String) : decode? (encode text) = some text := by
  have h : text.toByteArray.IsValidUTF8 := text.isValidUTF8
  simp [decode?, encode, String.fromUTF8?, String.fromUTF8, h]

theorem encode_of_decode? {bytes : List UInt8} {text : String} (h : decode? bytes = some text) :
    encode text = bytes := by
  unfold decode? String.fromUTF8? at h
  split at h
  · cases h
    simp [encode, String.fromUTF8]
  · cases h

/-- Exactly the bytes that a text is written as can be read. -/
theorem decode?_eq_some_iff {bytes : List UInt8} {text : String} :
    decode? bytes = some text ↔ bytes = encode text :=
  ⟨fun h => (encode_of_decode? h).symm, fun h => h ▸ decode?_encode text⟩

theorem encode_injective {s t : String} (h : encode s = encode t) : s = t := by
  have := congrArg decode? h
  simpa using this

theorem decodeLossy_of_decode? {bytes : List UInt8} {text : String}
    (h : decode? bytes = some text) : decodeLossy bytes = text := by
  simp [decodeLossy, h]

@[simp] theorem decodeLossy_encode (text : String) : decodeLossy (encode text) = text :=
  decodeLossy_of_decode? (decode?_encode text)

end PolledUart.Text
