import SharedUtility.Bytes

/-!
# Utf8Checker — the validation of `utf8_checker.c`
-/

namespace SharedUtility

/-- A byte of the form `10xxxxxx`. -/
def isContinuationByte (b : UInt8) : Bool :=
  b >>> 6 == 0x02

/-- `code_point <<= 6; code_point += b & 0x3F`. -/
def pushContinuation (codePoint : Nat) (b : UInt8) : Nat :=
  codePoint <<< 6 + (b &&& 0x3F).toNat

/-- `utf8_checker_is_valid_utf8` on a buffer that is not NULL. -/
def utf8CheckerIsValidUtf8 : Bytes → Bool
  | [] => true
  | b0 :: rest =>
    if b0 >>> 3 == 0x1E then
      -- 4 bytes
      match rest with
      | b1 :: b2 :: b3 :: rest =>
        isContinuationByte b1 && isContinuationByte b2 && isContinuationByte b3 &&
          decide (0xFFFF < pushContinuation
            (pushContinuation (pushContinuation (b0 &&& 0x07).toNat b1) b2) b3) &&
          utf8CheckerIsValidUtf8 rest
      | _ => false
    else if b0 >>> 4 == 0x0E then
      -- 3 bytes
      match rest with
      | b1 :: b2 :: rest =>
        isContinuationByte b1 && isContinuationByte b2 &&
          decide (0x7FF < pushContinuation (pushContinuation (b0 &&& 0x0F).toNat b1) b2) &&
          utf8CheckerIsValidUtf8 rest
      | _ => false
    else if b0 >>> 5 == 0x06 then
      -- 2 bytes
      match rest with
      | b1 :: rest =>
        isContinuationByte b1 &&
          decide (0x7F < pushContinuation (b0 &&& 0x1F).toNat b1) &&
          utf8CheckerIsValidUtf8 rest
      | _ => false
    else if b0 >>> 7 == 0x00 then utf8CheckerIsValidUtf8 rest
    else false

end SharedUtility
