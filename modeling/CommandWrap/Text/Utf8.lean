import CommandWrap.Text.Quoted

/-!
UTF-8. Where bytes are no UTF-8, `decode` names the longest beginning of a sequence that could not be
completed. Surrogates have no bytes, except that some are kept for bytes that are no UTF-8.
-/
namespace CommandWrap

abbrev Bytes := List UInt8

namespace Utf8

inductive Flaw
  | startByte
  | continuation
  | unexpectedEnd
deriving DecidableEq

/-- Bytes `first` to `last` form no code point. `byte` is the first of them. -/
structure DecodeError where
  flaw : Flaw
  byte : UInt8
  first : Nat
  last : Nat
deriving DecidableEq

def encodeCodePoint (c : CodePoint) : Bytes :=
  let tail (shift : Nat) : UInt8 := UInt8.ofNat (0x80 + c.val / shift % 64)
  if c.val < 0x80 then [UInt8.ofNat c.val]
  else if c.val < 0x800 then [UInt8.ofNat (0xC0 + c.val / 64), tail 1]
  else if c.val < 0x10000 then [UInt8.ofNat (0xE0 + c.val / 4096), tail 64, tail 1]
  else [UInt8.ofNat (0xF0 + c.val / 262144), tail 4096, tail 64, tail 1]

/-- A surrogate has no encoding that reads back. -/
def encode (t : Text) : Bytes := t.flatMap encodeCodePoint

def isContinuation (b : UInt8) : Bool := 0x80 ≤ b && b ≤ 0xBF

/-- The values of the second byte that keep a sequence shortest, in range and free of surrogates. -/
def secondByteFits (lead b : UInt8) : Bool :=
  isContinuation b &&
    (lead != 0xE0 || 0xA0 ≤ b) && (lead != 0xED || b < 0xA0) &&
    (lead != 0xF0 || 0x90 ≤ b) && (lead != 0xF4 || b < 0x90)

/-- The code point that the payload bits of a sequence form. -/
def assemble (leadBits : Nat) (tail : List UInt8) : CodePoint :=
  .ofNat (tail.foldl (fun n b => 64 * n + (b.toNat - 0x80)) leadBits)

/-- Decodes bytes that stand at `position` in the whole. -/
def decodeFrom (position : Nat) : Bytes → Except DecodeError Text
  | [] => .ok []
  | lead :: rest =>
    let fail (flaw : Flaw) (length : Nat) : Except DecodeError Text :=
      .error ⟨flaw, lead, position, position + length - 1⟩
    if lead < 0x80 then
      (decodeFrom (position + 1) rest).map (.ofNat lead.toNat :: ·)
    else if lead < 0xC2 ∨ 0xF4 < lead then fail .startByte 1
    else match rest with
      | [] => fail .unexpectedEnd 1
      | b :: rest =>
        if !secondByteFits lead b then fail .continuation 1
        else if lead < 0xE0 then
          (decodeFrom (position + 2) rest).map (assemble (lead.toNat - 0xC0) [b] :: ·)
        else match rest with
          | [] => fail .unexpectedEnd 2
          | c :: rest =>
            if !isContinuation c then fail .continuation 2
            else if lead < 0xF0 then
              (decodeFrom (position + 3) rest).map (assemble (lead.toNat - 0xE0) [b, c] :: ·)
            else match rest with
              | [] => fail .unexpectedEnd 3
              | d :: rest =>
                if !isContinuation d then fail .continuation 3
                else
                  (decodeFrom (position + 4) rest).map (assemble (lead.toNat - 0xF0) [b, c, d] :: ·)

def decode (bytes : Bytes) : Except DecodeError Text := decodeFrom 0 bytes

/-! ### Texts without bytes -/

/-- Code points `first` to `last` have no bytes. `codePoint` is the first of them. -/
structure EncodeError where
  first : Nat
  last : Nat
  codePoint : CodePoint
deriving DecidableEq

/-- A byte that is no part of any UTF-8 sequence is kept as one of these code points. -/
def isStrayByte (c : CodePoint) : Bool := 0xDC80 ≤ c.val && c.val ≤ 0xDCFF

/-- The first surrogates, from `position` on, that have no bytes. Those in `kept` have. -/
def encodeError? (kept : CodePoint → Bool) (position : Nat) : Text → Option EncodeError
  | [] => none
  | c :: rest =>
    if c.isSurrogate && !kept c then
      some ⟨position, position + (rest.takeWhile CodePoint.isSurrogate).length, c⟩
    else encodeError? kept (position + 1) rest

/-! ### Messages -/

def Flaw.message : Flaw → Text
  | .startByte => "invalid start byte"
  | .continuation => "invalid continuation byte"
  | .unexpectedEnd => "unexpected end of data"

def DecodeError.message (error : DecodeError) : Text :=
  let which : Text :=
    if error.first = error.last then
      "byte 0x" ++ Text.hex 2 error.byte.toNat ++ " in position " ++ Text.ofNat error.first
    else
      "bytes in position " ++ Text.ofNat error.first ++ "-" ++ Text.ofNat error.last
  "'utf-8' codec can't decode " ++ which ++ ": " ++ error.flaw.message

def EncodeError.message (error : EncodeError) : Text :=
  let which : Text :=
    if error.first = error.last then
      "character '" ++ Text.numericEscape error.codePoint ++ "' in position " ++ Text.ofNat error.first
    else
      "characters in position " ++ Text.ofNat error.first ++ "-" ++ Text.ofNat error.last
  "'utf-8' codec can't encode " ++ which ++ ": surrogates not allowed"

end Utf8
end CommandWrap
