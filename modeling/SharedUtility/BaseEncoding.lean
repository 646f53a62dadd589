import Mathlib.Algebra.Group.Nat.Defs
import Mathlib.Data.List.Basic
import Mathlib.Tactic.Common

/-!
# BaseEncoding — bytes as text over an alphabet

The encodings of RFC 4648: a block of bytes is one number, whose digits in the base of the alphabet are
the characters of the block. The last block may be shorter: zero bits complete it, and padding stands for
the characters that hold no bit of it.
-/

namespace SharedUtility.BaseEncoding

/-- An alphabet, and the blocks that fit it. -/
structure Scheme where
  blockBytes : Nat
  blockChars : Nat
  charBits : Nat
  alphabet : List UInt8
  pad : UInt8
  blockBytes_pos : 0 < blockBytes
  bits_eq : 8 * blockBytes = charBits * blockChars
  alphabet_length : alphabet.length = 2 ^ charBits

/-- The number that bytes are, the first as the highest. -/
def number (bytes : List UInt8) : Nat :=
  bytes.foldl (fun n b => n * 256 + b.toNat) 0

namespace Scheme

variable (S : Scheme)

/-- The character at place `i` of the digits of a block. -/
def char (n i : Nat) : UInt8 :=
  S.alphabet.getD (n / 2 ^ (S.charBits * (S.blockChars - 1 - i)) % 2 ^ S.charBits) S.pad

/-- How many characters hold the bits of so many bytes. -/
def charCount (bytes : Nat) : Nat :=
  (8 * bytes + S.charBits - 1) / S.charBits

/-- The characters of one block. -/
def blockText (block : List UInt8) : List UInt8 :=
  (List.range S.blockChars).map fun i =>
    if i < S.charCount block.length then
      S.char (number block * 256 ^ (S.blockBytes - block.length)) i
    else S.pad

def text (bytes : List UInt8) : List UInt8 :=
  if bytes = [] then []
  else S.blockText (bytes.take S.blockBytes) ++ text (bytes.drop S.blockBytes)
termination_by bytes.length
decreasing_by
  rename_i hne
  have hpos := List.length_pos_of_ne_nil hne
  have hblock := S.blockBytes_pos
  rw [List.length_drop]
  omega

@[simp] theorem text_nil : S.text [] = [] := by
  rw [text, if_pos rfl]

theorem text_append {block : List UInt8} (h : block.length = S.blockBytes) (rest : List UInt8) :
    S.text (block ++ rest) = S.blockText block ++ S.text rest := by
  have hne : block ++ rest ≠ [] := by
    intro hnil
    rw [List.append_eq_nil_iff] at hnil
    have hpos := S.blockBytes_pos
    rw [← h, hnil.1] at hpos
    exact absurd hpos (Nat.lt_irrefl 0)
  rw [text, if_neg hne, List.take_left' h, List.drop_left' h]

theorem text_last {block : List UInt8} (hne : block ≠ []) (h : block.length ≤ S.blockBytes) :
    S.text block = S.blockText block := by
  rw [text, if_neg hne, List.take_of_length_le h, List.drop_of_length_le h, text_nil,
    List.append_nil]

theorem length_blockText (block : List UInt8) : (S.blockText block).length = S.blockChars := by
  rw [blockText, List.length_map, List.length_range]

theorem length_text (bytes : List UInt8) :
    (S.text bytes).length = (bytes.length + S.blockBytes - 1) / S.blockBytes * S.blockChars := by
  have hpos := S.blockBytes_pos
  induction bytes using text.induct S with
  | case1 => rw [text_nil, List.length_nil, Nat.zero_add, Nat.div_eq_of_lt (by omega), Nat.zero_mul]
  | case2 bytes hne ih =>
    have hbytes := List.length_pos_of_ne_nil hne
    rw [text, if_neg hne, List.length_append, length_blockText, ih, List.length_drop]
    rcases Nat.lt_or_ge bytes.length S.blockBytes with hlt | hge
    · have hone : (bytes.length + S.blockBytes - 1) / S.blockBytes = 1 := by
        rw [Nat.div_eq_iff hpos]
        omega
      rw [hone, Nat.sub_eq_zero_of_le (Nat.le_of_lt hlt), Nat.div_eq_of_lt (by omega)]
      omega
    · have hone : (bytes.length + S.blockBytes - 1) / S.blockBytes =
          (bytes.length - S.blockBytes + S.blockBytes - 1) / S.blockBytes + 1 := by
        rw [← Nat.add_div_right _ hpos]
        congr 1
        omega
      rw [hone, Nat.add_mul, Nat.one_mul, Nat.add_comm]

theorem char_mem (n i : Nat) : S.char n i ∈ S.alphabet := by
  have hindex : n / 2 ^ (S.charBits * (S.blockChars - 1 - i)) % 2 ^ S.charBits <
      S.alphabet.length := by
    rw [S.alphabet_length]
    exact Nat.mod_lt _ (Nat.two_pow_pos _)
  rw [char, List.getD_eq_getElem?_getD, List.getElem?_eq_getElem hindex]
  exact List.getElem_mem _

theorem mem_text {c : UInt8} {bytes : List UInt8} (h : c ∈ S.text bytes) :
    c ∈ S.alphabet ∨ c = S.pad := by
  induction bytes using text.induct S with
  | case1 =>
    rw [text_nil] at h
    cases h
  | case2 bytes hne ih =>
    rw [text, if_neg hne] at h
    rcases List.mem_append.1 h with hblock | hrest
    · rcases List.mem_map.1 hblock with ⟨i, -, hi⟩
      split_ifs at hi
      · exact Or.inl (hi ▸ S.char_mem _ _)
      · exact Or.inr hi.symm
    · exact ih hrest

end Scheme

end SharedUtility.BaseEncoding
