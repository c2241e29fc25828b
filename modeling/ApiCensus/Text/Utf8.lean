import ApiCensus.Text.Hex

/-!
# Reading UTF-8

A byte sequence is read character by character.  The first byte of a character
fixes how many bytes follow and which range the second byte is restricted to, so
that overlong forms, surrogates and code points above U+10FFFF are refused as
soon as they are certain.  An error names the bytes of the character that could
not be completed.
-/

namespace ApiCensus.Text.Utf8

/-- Why a byte sequence is no UTF-8 text. -/
inductive Reason
  | startByte
  | continuationByte
  | endOfData
deriving DecidableEq, Repr

/-- The wording of a reason. -/
def Reason.text : Reason → String
  | .startByte => "invalid start byte"
  | .continuationByte => "invalid continuation byte"
  | .endOfData => "unexpected end of data"

/-- Where and why reading stopped: the `length` bytes from position `start` on,
of which the first is `first`, begin no character. -/
structure DecodeError where
  start : Nat
  length : Nat
  first : UInt8
  reason : Reason
deriving DecidableEq, Repr

/-- The wording of a decoding error. -/
def DecodeError.message (error : DecodeError) : String :=
  let place :=
    if error.length = 1 then
      let code := String.ofList (hexDigits 2 error.first.toNat)
      s!"byte 0x{code} in position {error.start}"
    else
      s!"bytes in position {error.start}-{error.start + error.length - 1}"
  s!"'utf-8' codec can't decode {place}: {error.reason.text}"

/-- What the first byte of a character announces: the payload bits it carries,
the number of bytes that follow and the range of the first of these. -/
structure Lead where
  payload : Nat
  following : Nat
  low : Nat
  high : Nat

/-- What a byte announces as the first byte of a character. -/
def lead? (byte : UInt8) : Option Lead :=
  let code := byte.toNat
  if code < 0x80 then some ⟨code, 0, 0x80, 0xbf⟩
  else if code < 0xc2 then none
  else if code < 0xe0 then some ⟨code - 0xc0, 1, 0x80, 0xbf⟩
  else if code < 0xf0 then
    some ⟨code - 0xe0, 2, if code = 0xe0 then 0xa0 else 0x80,
      if code = 0xed then 0x9f else 0xbf⟩
  else if code < 0xf5 then
    some ⟨code - 0xf0, 3, if code = 0xf0 then 0x90 else 0x80,
      if code = 0xf4 then 0x8f else 0xbf⟩
  else none

/-- Where a character was left incomplete: after how many further bytes, and why. -/
structure Stop where
  consumed : Nat
  reason : Reason

/-- Read the bytes that follow the first byte of a character. -/
def following : (count : Nat) → (low high payload consumed : Nat) → List UInt8 →
    Except Stop (Nat × List UInt8)
  | 0, _, _, payload, _, bytes => .ok (payload, bytes)
  | _ + 1, _, _, _, consumed, [] => .error ⟨consumed, .endOfData⟩
  | count + 1, low, high, payload, consumed, byte :: bytes =>
      if low ≤ byte.toNat && byte.toNat ≤ high then
        following count 0x80 0xbf (payload * 64 + (byte.toNat - 0x80)) (consumed + 1) bytes
      else .error ⟨consumed, .continuationByte⟩

/-- The bytes left after a character are a tail of the bytes given. -/
theorem length_following_le {count low high payload consumed code : Nat}
    {bytes rest : List UInt8}
    (read : following count low high payload consumed bytes = .ok (code, rest)) :
    rest.length ≤ bytes.length := by
  induction count generalizing low high payload consumed bytes with
  | zero =>
      simp only [following, Except.ok.injEq, Prod.mk.injEq] at read
      exact Nat.le_of_eq (congrArg List.length read.2.symm)
  | succ count ih =>
      cases bytes with
      | nil => simp [following] at read
      | cons byte bytes =>
          simp only [following] at read
          split at read
          · exact Nat.le_succ_of_le (ih read)
          · cases read

/-- Read characters from position `position` on; `done` holds those already
read, last first. -/
def decodeFrom (position : Nat) (done : List Char) (bytes : List UInt8) :
    Except DecodeError (List Char) :=
  match bytes with
  | [] => .ok done.reverse
  | byte :: rest =>
      match lead? byte with
      | none => .error ⟨position, 1, byte, .startByte⟩
      | some lead =>
          match read : following lead.following lead.low lead.high lead.payload 1 rest with
          | .error stop => .error ⟨position, stop.consumed, byte, stop.reason⟩
          | .ok (code, left) =>
              decodeFrom (position + 1 + lead.following) (Char.ofNat code :: done) left
termination_by bytes.length
decreasing_by
  have bound := length_following_le read
  simp only [List.length_cons]
  omega

/-- The text of a byte sequence. -/
def decode (bytes : List UInt8) : Except DecodeError String :=
  (decodeFrom 0 [] bytes).map String.ofList

/-- The bytes of a text. -/
def encode (text : String) : List UInt8 :=
  text.toUTF8.toList

end ApiCensus.Text.Utf8
