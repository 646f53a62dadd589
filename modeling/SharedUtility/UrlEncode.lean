import SharedUtility.Bytes

/-!
# UrlEncode — the encoder of `urlencode.c`
-/

namespace SharedUtility

/-- `IS_PRINTABLE`, with its reserved, unreserved and additional characters. -/
def isPrintable (c : UInt8) : Bool :=
  c == 0 || (ascii "!*'();:@&=+$,/?#[]").contains c ||
    (0x41 ≤ c && c ≤ 0x5A) || (0x61 ≤ c && c ≤ 0x7A) || (0x30 ≤ c && c ≤ 0x39) ||
    (ascii "-_.~").contains c || (ascii "\"\\").contains c

def nibbleToString (c : UInt8) : UInt8 :=
  if c < 10 then c + 0x30 else c - 10 + 0x61

/-- `URL_PrintableChar`: the characters that it writes. -/
def urlPrintableChar (charVal : UInt8) : Bytes :=
  if isPrintable charVal then [charVal]
  else
    let bigNibbleVal := charVal >>> 4
    let littleNibbleVal := charVal &&& 0x0F
    let bigNibbleVal := if bigNibbleVal ≥ 0x0C then bigNibbleVal - 0x04 else bigNibbleVal
    if charVal < 0x80 then
      [0x25, nibbleToString bigNibbleVal, nibbleToString littleNibbleVal]
    else
      [0x25, 0x63, if charVal < 0xC0 then 0x32 else 0x33, 0x25, nibbleToString bigNibbleVal,
        nibbleToString littleNibbleVal]

/-- `URL_Encode`, with all allocations succeeding. -/
def urlEncode (input : Bytes) : Bytes :=
  input.flatMap urlPrintableChar

theorem urlEncode_of_printable {input : Bytes} (h : ∀ c ∈ input, isPrintable c = true) :
    urlEncode input = input := by
  induction input with
  | nil => rfl
  | cons c rest ih =>
    have hc : urlPrintableChar c = [c] := by
      simp [urlPrintableChar, h c (List.mem_cons_self ..)]
    have hrest : urlEncode rest = rest := ih fun c hc => h c (List.mem_cons_of_mem _ hc)
    rw [urlEncode, List.flatMap_cons, hc]
    rw [urlEncode] at hrest
    rw [hrest, List.singleton_append]

end SharedUtility
