/-
Decoding UTF-8 with replacement characters.

A decoder reads bytes one after the other and never fails: where they are no UTF-8, it says
U+FFFD and goes on, with one such character for as many bytes as could have begun a
character. What it makes of an encoding is what was encoded (`decode_encode`), and what it
makes of an encoding that was cut off inside a character is what came before, and U+FFFD
(`decode_take_encode`).

The bytes are those of `String.utf8EncodeChar`.
-/
import Mathlib.Algebra.BigOperators.Group.List.Basic
import Mathlib.Tactic.Common

set_option autoImplicit false

namespace WebInsights.Utf8

/-! ## The decoder -/

/-- The code point so far, how many more bytes it needs, and the bounds of the next one. -/
structure Decoder where
  codePoint : ℕ
  needed : ℕ
  lower : ℕ
  upper : ℕ
  deriving DecidableEq

/-- The decoder between two characters. -/
def idle : Decoder := ⟨0, 0, 0x80, 0xBF⟩

def replacement : Char := '\uFFFD'

/-- What the first byte of a character says, and what is left to do. -/
def first (b : ℕ) : List Char × Decoder :=
  if b ≤ 0x7F then ([Char.ofNat b], idle)
  else if 0xC2 ≤ b ∧ b ≤ 0xDF then ([], ⟨b - 0xC0, 1, 0x80, 0xBF⟩)
  else if 0xE0 ≤ b ∧ b ≤ 0xEF then
    ([], ⟨b - 0xE0, 2, if b = 0xE0 then 0xA0 else 0x80, if b = 0xED then 0x9F else 0xBF⟩)
  else if 0xF0 ≤ b ∧ b ≤ 0xF4 then
    ([], ⟨b - 0xF0, 3, if b = 0xF0 then 0x90 else 0x80, if b = 0xF4 then 0x8F else 0xBF⟩)
  else ([replacement], idle)

def next (d : Decoder) (b : ℕ) : List Char × Decoder :=
  if d.needed = 0 then first b
  else if d.lower ≤ b ∧ b ≤ d.upper then
    if d.needed = 1 then ([Char.ofNat (d.codePoint * 64 + (b - 0x80))], idle)
    else ([], ⟨d.codePoint * 64 + (b - 0x80), d.needed - 1, 0x80, 0xBF⟩)
  -- the byte is no part of the character that was begun, and may begin another one
  else (replacement :: (first b).1, (first b).2)

def feed (d : Decoder) : List ℕ → List Char × Decoder
  | [] => ([], d)
  | b :: bytes => ((next d b).1 ++ (feed (next d b).2 bytes).1, (feed (next d b).2 bytes).2)

/-- The characters of the bytes. -/
def decode (bytes : List UInt8) : List Char :=
  (feed idle (bytes.map UInt8.toNat)).1 ++
    if (feed idle (bytes.map UInt8.toNat)).2.needed = 0 then [] else [replacement]

def encode (cs : List Char) : List UInt8 := cs.flatMap String.utf8EncodeChar

example : decode [0x61, 0xE2, 0x82, 0x62, 0xC3, 0xA9, 0xF0, 0x9F] =
    ['a', '�', 'b', 'é', '�'] := by decide

theorem feed_append (d : Decoder) (bytes bytes' : List ℕ) :
    feed d (bytes ++ bytes') =
      ((feed d bytes).1 ++ (feed (feed d bytes).2 bytes').1, (feed (feed d bytes).2 bytes').2) := by
  induction bytes generalizing d with
  | nil => rfl
  | cons b bytes ih => rw [List.cons_append, feed, feed, ih, List.append_assoc]

/-! ## One byte -/

section Byte

variable {x y cp n lower upper : ℕ}

theorem first_one (h : x ≤ 0x7F) : first x = ([Char.ofNat x], idle) := if_pos h

theorem first_two (hlow : 2 ≤ x) (hhigh : x < 32) :
    first (x + 0xC0) = ([], ⟨x, 1, 0x80, 0xBF⟩) := by
  rw [first, if_neg (by omega), if_pos (by omega), Nat.add_sub_cancel]

theorem first_three (h : x < 16) : first (x + 0xE0) =
    ([], ⟨x, 2, if x = 0 then 0xA0 else 0x80, if x = 13 then 0x9F else 0xBF⟩) := by
  rw [first, if_neg (by omega), if_neg (by omega), if_pos (by omega), Nat.add_sub_cancel]
  simp only [Nat.add_eq_right, show x + 0xE0 = 0xED ↔ x = 13 by omega]

theorem first_four (h : x ≤ 4) : first (x + 0xF0) =
    ([], ⟨x, 3, if x = 0 then 0x90 else 0x80, if x = 4 then 0x8F else 0xBF⟩) := by
  rw [first, if_neg (by omega), if_neg (by omega), if_neg (by omega), if_pos (by omega),
    Nat.add_sub_cancel]
  simp only [Nat.add_eq_right, show x + 0xF0 = 0xF4 ↔ x = 4 by omega]

/-- A byte in the middle of a character. -/
theorem next_more (hlow : lower ≤ y + 0x80) (hhigh : y + 0x80 ≤ upper) :
    next ⟨cp, n + 2, lower, upper⟩ (y + 0x80) = ([], ⟨cp * 64 + y, n + 1, 0x80, 0xBF⟩) := by
  rw [next, if_neg (by simp), if_pos ⟨hlow, hhigh⟩, if_neg (by simp), Nat.add_sub_cancel]
  rfl

/-- The last byte of a character. -/
theorem next_last (hlow : lower ≤ y + 0x80) (hhigh : y + 0x80 ≤ upper) :
    next ⟨cp, 1, lower, upper⟩ (y + 0x80) = ([Char.ofNat (cp * 64 + y)], idle) := by
  rw [next, if_neg (by simp), if_pos ⟨hlow, hhigh⟩, if_pos rfl, Nat.add_sub_cancel]

theorem next_idle (b : ℕ) : next idle b = first b := if_pos rfl

end Byte

/-! ## One character -/

/-- The bytes of a code point, as numbers. -/
def units (v : ℕ) : List ℕ :=
  if v ≤ 0x7F then [v]
  else if v ≤ 0x7FF then [v / 64 + 0xC0, v % 64 + 0x80]
  else if v ≤ 0xFFFF then [v / 4096 + 0xE0, v / 64 % 64 + 0x80, v % 64 + 0x80]
  else [v / 262144 + 0xF0, v / 4096 % 64 + 0x80, v / 64 % 64 + 0x80, v % 64 + 0x80]

section Char

theorem toNat_lt (c : Char) : c.toNat < 0xD800 ∨ 0xDFFF < c.toNat ∧ c.toNat < 0x110000 := c.valid

theorem toNat_ofNat {n : ℕ} (h : n < 256) : (UInt8.ofNat n).toNat = n := by
  rw [UInt8.toNat_ofNat']
  exact Nat.mod_eq_of_lt h

theorem map_toNat_utf8EncodeChar (c : Char) :
    (String.utf8EncodeChar c).map UInt8.toNat = units c.toNat := by
  have hv : c.val.toNat = c.toNat := rfl
  have hlt := toNat_lt c
  rw [String.utf8EncodeChar, units, hv]
  split_ifs with h1 h2 h3
  · rw [List.map_singleton, toNat_ofNat (by omega)]
  · rw [List.map_cons, List.map_singleton, toNat_ofNat (by omega), toNat_ofNat (by omega),
      Nat.mod_eq_of_lt (by omega)]
  · rw [List.map_cons, List.map_cons, List.map_singleton, toNat_ofNat (by omega),
      toNat_ofNat (by omega), toNat_ofNat (by omega), Nat.mod_eq_of_lt (by omega)]
  · rw [List.map_cons, List.map_cons, List.map_cons, List.map_singleton, toNat_ofNat (by omega),
      toNat_ofNat (by omega), toNat_ofNat (by omega), toNat_ofNat (by omega),
      Nat.mod_eq_of_lt (by omega)]

/-- A list of bytes, each of which but the last leaves the decoder waiting. -/
inductive Reads : Decoder → List ℕ → Char → Prop
  | last {d : Decoder} {b : ℕ} {c : Char} (h : next d b = ([c], idle)) : Reads d [b] c
  | more {d d' : Decoder} {b : ℕ} {bytes : List ℕ} {c : Char} (h : next d b = ([], d'))
      (hneeded : d'.needed ≠ 0) (rest : Reads d' bytes c) : Reads d (b :: bytes) c

theorem Reads.feed {d : Decoder} {bytes : List ℕ} {c : Char} (h : Reads d bytes c) :
    feed d bytes = ([c], idle) := by
  induction h with
  | last h => rw [Utf8.feed, h]; rfl
  | more h _ _ ih => rw [Utf8.feed, h, ih]; rfl

/-- Before its last byte nothing is said of a character. -/
theorem Reads.feed_take {d : Decoder} {bytes : List ℕ} {c : Char} (h : Reads d bytes c) {k : ℕ}
    (hpos : 0 < k) (hk : k < bytes.length) :
    ∃ d', Utf8.feed d (bytes.take k) = ([], d') ∧ d'.needed ≠ 0 := by
  induction h generalizing k with
  | last h => simp at hk; omega
  | @more d d' b bytes c h hneeded rest ih =>
    obtain ⟨k, rfl⟩ : ∃ n, k = n + 1 := ⟨k - 1, by omega⟩
    rw [List.take_succ_cons, Utf8.feed, h]
    rcases Nat.eq_zero_or_pos k with rfl | hk'
    · exact ⟨d', rfl, hneeded⟩
    · obtain ⟨d'', hfeed, hneeded''⟩ := ih hk' (by simpa using hk)
      exact ⟨d'', by rw [hfeed]; rfl, hneeded''⟩

/-- The bytes of a character are read as that character. -/
theorem reads_units (c : Char) : Reads idle (units c.toNat) c := by
  have hlt := toNat_lt c
  have hc : ∀ {n}, n = c.toNat → Char.ofNat n = c := by
    rintro n rfl
    exact Char.ofNat_toNat c
  rw [units]
  -- one to four bytes, by the code point
  split_ifs with h1 h2 h3
  · refine .last ?_
    rw [next_idle, first_one h1, hc rfl]
  · refine .more ((next_idle _).trans (first_two (by omega) (by omega))) (Nat.succ_ne_zero _)
      (.last ?_)
    rw [next_last (by omega) (by omega), hc (by omega)]
  · refine .more ((next_idle _).trans (first_three (by omega))) (Nat.succ_ne_zero _)
      (.more (next_more ?_ ?_) (Nat.succ_ne_zero _) (.last ?_))
    · split_ifs <;> omega
    · split_ifs <;> omega
    · rw [next_last (by omega) (by omega), hc (by omega)]
  · refine .more ((next_idle _).trans (first_four (by omega))) (Nat.succ_ne_zero _)
      (.more (next_more ?_ ?_) (Nat.succ_ne_zero _)
        (.more (next_more (by omega) (by omega)) (Nat.succ_ne_zero _) (.last ?_)))
    · split_ifs <;> omega
    · split_ifs <;> omega
    · rw [next_last (by omega) (by omega), hc (by omega)]

end Char

/-! ## Texts -/

section Text

variable {c : Char} {cs : List Char} {n k : ℕ}

theorem encode_cons (c : Char) (cs : List Char) :
    encode (c :: cs) = String.utf8EncodeChar c ++ encode cs := List.flatMap_cons

theorem encode_append (cs cs' : List Char) : encode (cs ++ cs') = encode cs ++ encode cs' :=
  List.flatMap_append

/-- What was encoded before some bytes is decoded before them. -/
theorem decode_encode_append (cs : List Char) (bytes : List UInt8) :
    decode (encode cs ++ bytes) = cs ++ decode bytes := by
  induction cs with
  | nil => rfl
  | cons c cs ih =>
    have hfeed := (reads_units c).feed
    rw [← map_toNat_utf8EncodeChar] at hfeed
    rw [encode_cons, List.append_assoc, decode, List.map_append, feed_append, hfeed,
      List.append_assoc]
    exact congrArg (c :: ·) ih

/-- **Decoding undoes encoding.** -/
theorem decode_encode (cs : List Char) : decode (encode cs) = cs := by
  have h := decode_encode_append cs []
  rwa [List.append_nil, show decode [] = [] from rfl, List.append_nil] at h

/-- A character that is cut off becomes one replacement character. -/
theorem decode_take_utf8EncodeChar (hpos : 0 < k) (hk : k < c.utf8Size) :
    decode ((String.utf8EncodeChar c).take k) = [replacement] := by
  have hlength : (units c.toNat).length = c.utf8Size := by
    rw [← map_toNat_utf8EncodeChar, List.length_map, String.length_utf8EncodeChar]
  obtain ⟨d, hfeed, hneeded⟩ := (reads_units c).feed_take hpos (by rwa [hlength])
  rw [← map_toNat_utf8EncodeChar, ← List.map_take] at hfeed
  rw [decode, hfeed, if_neg hneeded]
  rfl

/-- An encoding that is cut off ends between two characters, or inside one. -/
theorem take_encode (cs : List Char) (n : ℕ) :
    (∃ q rest, cs = q ++ rest ∧ (encode cs).take n = encode q ∧
      (rest = [] ∨ n = (encode q).length)) ∨
    ∃ q c rest k, cs = q ++ c :: rest ∧ 0 < k ∧ k < c.utf8Size ∧
      (encode cs).take n = encode q ++ (String.utf8EncodeChar c).take k ∧
      n = (encode q).length + k := by
  induction cs generalizing n with
  | nil => exact Or.inl ⟨[], [], rfl, List.take_nil, Or.inl rfl⟩
  | cons c cs ih =>
    have hlength : (String.utf8EncodeChar c).length = c.utf8Size := String.length_utf8EncodeChar c
    rcases Nat.eq_zero_or_pos n with rfl | hpos
    · exact Or.inl ⟨[], c :: cs, rfl, rfl, Or.inr rfl⟩
    rcases Nat.lt_or_ge n c.utf8Size with hlt | hge
    · refine Or.inr ⟨[], c, cs, n, rfl, hpos, hlt, ?_, (Nat.zero_add n).symm⟩
      rw [encode_cons, List.take_append_of_le_length (by omega)]
      rfl
    · -- all of the first character, and what is left for the others
      obtain ⟨n, rfl⟩ : ∃ m, n = c.utf8Size + m := ⟨n - c.utf8Size, by omega⟩
      have htake : (encode (c :: cs)).take (c.utf8Size + n) =
          String.utf8EncodeChar c ++ (encode cs).take n := by
        rw [encode_cons, ← hlength, List.take_length_add_append]
      rcases ih n with ⟨q, rest, rfl, hq, hn⟩ | ⟨q, c', rest, k, rfl, hk, hk', hq, hn⟩
      · refine Or.inl ⟨c :: q, rest, rfl, by rw [htake, hq, encode_cons], hn.imp_right ?_⟩
        intro hn
        rw [encode_cons, List.length_append, hlength, ← hn]
      · refine Or.inr ⟨c :: q, c', rest, k, rfl, hk, hk', ?_, ?_⟩
        · rw [htake, hq, encode_cons, List.append_assoc]
        · rw [encode_cons, List.length_append, hlength, hn, Nat.add_assoc]

end Text

/-! ## Lengths -/

section Length

variable {cs : List Char}

/-- The code units of a character in UTF-16. -/
def utf16Size (c : Char) : ℕ := if c.toNat < 0x10000 then 1 else 2

def utf16Length : List Char → ℕ
  | [] => 0
  | c :: cs => utf16Size c + utf16Length cs

def IsAscii (cs : List Char) : Prop := ∀ c ∈ cs, c.toNat ≤ 0x7F

theorem utf8Size_eq (c : Char) : c.utf8Size = (units c.toNat).length := by
  rw [← map_toNat_utf8EncodeChar, List.length_map, String.length_utf8EncodeChar]

/-- A character takes more bytes than code units, unless it is ASCII. -/
theorem utf16Size_cases (c : Char) :
    (c.toNat ≤ 0x7F ∧ utf16Size c = c.utf8Size) ∨ (0x7F < c.toNat ∧ utf16Size c < c.utf8Size) := by
  rw [utf8Size_eq, units]
  rcases Nat.lt_or_ge 0x7F c.toNat with hlt | hle
  · refine Or.inr ⟨hlt, ?_⟩
    rw [if_neg (by omega), utf16Size]
    split_ifs
    all_goals
      simp only [List.length_cons, List.length_nil]
      omega
  · refine Or.inl ⟨hle, ?_⟩
    rw [if_pos hle, utf16Size, if_pos (by omega)]
    rfl

theorem length_encode_cons (c : Char) (cs : List Char) :
    (encode (c :: cs)).length = c.utf8Size + (encode cs).length := by
  rw [encode_cons, List.length_append, String.length_utf8EncodeChar]

theorem utf16Length_cons (c : Char) (cs : List Char) :
    utf16Length (c :: cs) = utf16Size c + utf16Length cs := rfl

theorem utf16Length_le (cs : List Char) : utf16Length cs ≤ (encode cs).length := by
  induction cs with
  | nil => exact Nat.zero_le _
  | cons c cs ih =>
    rw [utf16Length_cons, length_encode_cons]
    rcases utf16Size_cases c with ⟨-, h⟩ | ⟨-, h⟩ <;> omega

/-- **The two lengths are the same for ASCII alone.** -/
theorem utf16Length_eq_iff : utf16Length cs = (encode cs).length ↔ IsAscii cs := by
  induction cs with
  | nil => exact ⟨fun _ => nofun, fun _ => rfl⟩
  | cons c cs ih =>
    have hle := utf16Length_le cs
    rw [IsAscii, List.forall_mem_cons, ← IsAscii, ← ih, utf16Length_cons, length_encode_cons]
    rcases utf16Size_cases c with ⟨hc, hsize⟩ | ⟨hc, hsize⟩
    · constructor
      · exact fun h => ⟨hc, by omega⟩
      · exact fun h => by omega
    · constructor
      · exact fun h => by omega
      · exact fun h => by omega

/-! ## As many bytes as code units -/

theorem utf16Length_append (cs cs' : List Char) :
    utf16Length (cs ++ cs') = utf16Length cs + utf16Length cs' := by
  induction cs with
  | nil => exact (Nat.zero_add _).symm
  | cons c cs ih => rw [List.cons_append, utf16Length_cons, utf16Length_cons, ih, Nat.add_assoc]

/-- **The first bytes of an encoding, as many as the text has code units,** are decoded to the
text exactly if it is ASCII, perhaps with one replacement character at the end. -/
theorem decode_take_utf16Length_iff :
    decode ((encode cs).take (utf16Length cs)) = cs ↔
      IsAscii cs ∨ ∃ ascii, IsAscii ascii ∧ cs = ascii ++ [replacement] := by
  constructor
  · intro h
    rcases take_encode cs (utf16Length cs) with ⟨q, rest, hcs, htake, hrest⟩ |
      ⟨q, c, rest, k, hcs, hpos, hk, htake, hn⟩
    · rw [htake, decode_encode] at h
      subst h
      have hle := utf16Length_le q
      have hall : (encode q).length ≤ utf16Length q := by
        have hlength := congrArg List.length htake
        rw [List.length_take] at hlength
        omega
      exact Or.inl (utf16Length_eq_iff.mp (by omega))
    · rw [htake, decode_encode_append, decode_take_utf8EncodeChar hpos hk] at h
      -- the text is `q` and the replacement character, of which one byte is there
      have hc : [replacement] = c :: rest := List.append_cancel_left (h.trans hcs)
      obtain ⟨rfl, rfl⟩ := List.cons.inj hc
      subst hcs
      have hle := utf16Length_le q
      have hsize : utf16Length [replacement] = 1 := rfl
      rw [utf16Length_append, hsize] at hn
      exact Or.inr ⟨q, utf16Length_eq_iff.mp (by omega), rfl⟩
  · rintro (hascii | ⟨ascii, hascii, rfl⟩)
    · rw [utf16Length_eq_iff.mpr hascii, List.take_length, decode_encode]
    · have hsize : utf16Length [replacement] = 1 := rfl
      rw [utf16Length_append, utf16Length_eq_iff.mpr hascii, hsize, encode_append,
        List.take_length_add_append, decode_encode_append]
      rfl

end Length

end WebInsights.Utf8
