/-! UTF-8 as lenient readers decode it: a browser makes one replacement character of every
longest ill-formed start of a character, Go of every byte that begins none. And strings as
the lists of their bytes. -/
namespace LearnPg.Basis.Utf8

/-- What the first byte of a longer character announces: how many bytes follow,
the range of the first of them, and the bits the byte itself contributes. -/
structure Lead where
  count : Nat
  low : UInt8
  high : UInt8
  bits : Nat
deriving DecidableEq

def lead (b : UInt8) : Option Lead :=
  if 0xC2 ≤ b ∧ b ≤ 0xDF then some ⟨1, 0x80, 0xBF, b.toNat - 0xC0⟩
  else if b = 0xE0 then some ⟨2, 0xA0, 0xBF, 0⟩
  else if b = 0xED then some ⟨2, 0x80, 0x9F, 0x0D⟩
  else if 0xE1 ≤ b ∧ b ≤ 0xEF then some ⟨2, 0x80, 0xBF, b.toNat - 0xE0⟩
  else if b = 0xF0 then some ⟨3, 0x90, 0xBF, 0⟩
  else if 0xF1 ≤ b ∧ b ≤ 0xF3 then some ⟨3, 0x80, 0xBF, b.toNat - 0xF0⟩
  else if b = 0xF4 then some ⟨3, 0x80, 0x8F, 4⟩
  else none

def isContinuation (b : UInt8) : Bool := 0x80 ≤ b && b ≤ 0xBF

/-- The bytes after a first byte that can belong to its character. -/
def followers (l : Lead) : List UInt8 → List UInt8
  | [] => []
  | b :: bs =>
    if l.low ≤ b ∧ b ≤ l.high then b :: (bs.take (l.count - 1)).takeWhile isContinuation else []

def codePoint (l : Lead) (tail : List UInt8) : Nat :=
  tail.foldl (fun bits b => bits * 64 + (b.toNat - 0x80)) l.bits

def replacement : Char := Char.ofNat 0xFFFD

def decodeLossy : List UInt8 → List Char
  | [] => []
  | b :: rest =>
    if b < 0x80 then Char.ofNat b.toNat :: decodeLossy rest
    else
      match lead b with
      | none => replacement :: decodeLossy rest
      | some l =>
        (if (followers l rest).length = l.count then Char.ofNat (codePoint l (followers l rest))
          else replacement) :: decodeLossy (rest.drop (followers l rest).length)
termination_by bytes => bytes.length
decreasing_by
  · simp
  · simp
  · simp only [List.length_drop, List.length_cons]
    omega

theorem decodeLossy_ascii {bytes : List UInt8} (h : ∀ b ∈ bytes, b < 0x80) :
    decodeLossy bytes = bytes.map fun b => Char.ofNat b.toNat := by
  induction bytes with
  | nil => rw [decodeLossy, List.map_nil]
  | cons b rest ih =>
    obtain ⟨hb, hrest⟩ := List.forall_mem_cons.mp h
    rw [decodeLossy, if_pos hb, ih hrest, List.map_cons]

example : decodeLossy [0xC3, 0xA9, 0xE2, 0x82, 0x41] = ['é', replacement, 'A'] := by
  simp [decodeLossy, lead, followers, isContinuation, codePoint, replacement]

theorem toList_loop (bytes : ByteArray) (i : Nat) (r : List UInt8) :
    ByteArray.toList.loop bytes i r = r.reverse ++ bytes.data.toList.drop i := by
  fun_induction ByteArray.toList.loop bytes i r with
  | case1 i r h ih =>
    have hi : i < bytes.data.toList.length := h
    have hbyte : bytes.get! i = bytes.data.toList[i] := getElem!_pos bytes.data i h
    rw [ih, hbyte, List.reverse_cons, List.append_assoc, List.drop_eq_getElem_cons hi]
    rfl
  | case2 i r h =>
    have hend : bytes.data.toList.length ≤ i := Nat.not_lt.mp h
    rw [List.drop_eq_nil_of_le hend, List.append_nil]

theorem toList_eq (bytes : ByteArray) : bytes.toList = bytes.data.toList :=
  toList_loop bytes 0 []

theorem utf8_append (s t : String) :
    (s ++ t).toUTF8.toList = s.toUTF8.toList ++ t.toUTF8.toList := by
  simp only [toList_eq, String.toUTF8_eq_toByteArray, String.toByteArray_append,
    ByteArray.toList_data_append]

theorem utf8_inj {s t : String} : s.toUTF8.toList = t.toUTF8.toList ↔ s = t := by
  rw [toList_eq, toList_eq, Array.toList_inj, ← ByteArray.ext_iff, String.toUTF8_eq_toByteArray,
    String.toUTF8_eq_toByteArray, String.toByteArray_inj]

/-- As Go reads it: every byte that begins no character is one replacement character. -/
def decodeRunes : List UInt8 → List Char
  | [] => []
  | b :: rest =>
    match (b :: rest).toByteArray.utf8DecodeChar? 0 with
    | some c => c :: decodeRunes (rest.drop (c.utf8Size - 1))
    | none => replacement :: decodeRunes rest
termination_by bytes => bytes.length
decreasing_by
  · simp only [List.length_drop, List.length_cons]
    omega
  · simp

def encodeRunes (cs : List Char) : List UInt8 := cs.flatMap String.utf8EncodeChar

theorem decodeRunes_char (c : Char) (bytes : List UInt8) :
    decodeRunes (String.utf8EncodeChar c ++ bytes) = c :: decodeRunes bytes := by
  have hlength : (String.utf8EncodeChar c).length = c.utf8Size := String.length_utf8EncodeChar c
  have hread : (String.utf8EncodeChar c ++ bytes).toByteArray.utf8DecodeChar? 0 = some c := by
    rw [List.toByteArray_append]
    exact ByteArray.utf8DecodeChar?_utf8EncodeChar_append
  cases hbytes : String.utf8EncodeChar c with
  | nil => exact absurd hbytes String.utf8EncodeChar_ne_nil
  | cons b more =>
    rw [hbytes] at hread hlength
    rw [List.length_cons] at hlength
    rw [List.cons_append] at hread ⊢
    rw [decodeRunes, hread]
    simp only
    rw [← hlength, Nat.add_sub_cancel, List.drop_left]

theorem decodeRunes_encodeRunes (cs : List Char) : decodeRunes (encodeRunes cs) = cs := by
  induction cs with
  | nil => rw [encodeRunes, List.flatMap_nil, decodeRunes]
  | cons c cs ih =>
    rw [encodeRunes, List.flatMap_cons, decodeRunes_char]
    exact congrArg (c :: ·) ih

end LearnPg.Basis.Utf8
