import LearnPg.Basis.Base64
import LearnPg.Basis.HexText
import Mathlib.Data.Bool.AllAny

/-! The texts of an encryption key. Two decoders are tried in turn on one text; its length
tells them apart. -/
namespace LearnPg.Workspace.KeyText
open LearnPg.Basis

def keyLen : Nat := 32

def errEncryptionKeyInvalid : String := "encryption key must be 32 bytes (hex-encoded)"

def charOf (b : UInt8) : Char := Char.ofNat b.toNat

/-- `base64.StdEncoding.DecodeString`, which passes over line ends. -/
def decodeString (s : List UInt8) : Option (List UInt8) :=
  Base64.decode ((s.filter fun b => b ≠ 10 ∧ b ≠ 13).map charOf)

def hexNibble (c : UInt8) : Except String UInt8 :=
  if 48 ≤ c ∧ c ≤ 57 then .ok (c - 48)
  else if 97 ≤ c ∧ c ≤ 102 then .ok (c - 97 + 10)
  else if 65 ≤ c ∧ c ≤ 70 then .ok (c - 65 + 10)
  else .error "not hex"

/-- The loop of `hexDecode`, two digits a round. -/
def hexPairs : List UInt8 → Except String (List UInt8)
  | c :: d :: rest => do
    let hi ← hexNibble c
    let lo ← hexNibble d
    let out ← hexPairs rest
    return (hi <<< 4 ||| lo) :: out
  | _ => .ok []

def hexDecode (s : List UInt8) : Except String (List UInt8) :=
  if s.length ≠ keyLen * 2 then .error "hex length must be 64" else hexPairs s

/-- The second attempt of `parseEncryptionKey`. -/
def parseHexKey (raw : List UInt8) : Except String (Option (List UInt8)) :=
  match hexDecode raw with
  | .ok hb => if hb.length = keyLen then .ok (some hb) else .error errEncryptionKeyInvalid
  | .error _ => .error errEncryptionKeyInvalid

def parseEncryptionKey (raw : List UInt8) : Except String (Option (List UInt8)) :=
  if raw = [] then .ok none
  else
    match decodeString raw with
    | some b => if b.length = keyLen then .ok (some b) else parseHexKey raw
    | none => parseHexKey raw

def base64Text (key : List UInt8) : List UInt8 :=
  (Base64.encode key).map fun c => .ofNat c.toNat

def nibbles (b : UInt8) : List Nat := [b.toNat / 16, b.toNat % 16]

/-- The text consists of the hexadecimal digits of `key`, each in either case. -/
def HexOf (key text : List UInt8) : Prop :=
  text.map (HexText.digitValue ∘ charOf) = (key.flatMap nibbles).map some

structure ParsesKeys (parse : List UInt8 → Except String (Option (List UInt8))) : Prop where
  base64 : ∀ key, key.length = keyLen → parse (base64Text key) = .ok (some key)
  hex : ∀ key text, key.length = keyLen → HexOf key text → parse text = .ok (some key)
  accepted : ∀ raw result, raw ≠ [] → parse raw = .ok result →
    ∃ key, result = some key ∧ key.length = keyLen ∧
      (decodeString raw = some key ∨ HexOf key raw)
  unambiguous : ∀ raw key key', key.length = keyLen → key'.length = keyLen →
    decodeString raw = some key → HexOf key' raw → key = key'
  rejected : ∀ raw, raw ≠ [] →
    (∀ key, key.length = keyLen → decodeString raw ≠ some key ∧ ¬ HexOf key raw) →
      parse raw = .error errEncryptionKeyInvalid

section

variable {key text raw : List UInt8} {b c : UInt8}

theorem digitValue_nibble : ∀ n < 256, HexText.digitValue (Char.ofNat n) =
    (hexNibble (.ofNat n)).toOption.map UInt8.toNat := by decide +kernel

theorem digitValue_charOf (c : UInt8) :
    HexText.digitValue (charOf c) = (hexNibble c).toOption.map UInt8.toNat := by
  have h := digitValue_nibble c.toNat c.toNat_lt
  rwa [UInt8.ofNat_toNat] at h

theorem hexNibble_lt (h : hexNibble c = .ok b) : b.toNat < 16 := by
  have hvalue := digitValue_charOf c
  rw [h] at hvalue
  exact HexText.digitValue_lt hvalue

theorem join_nibbles : ∀ n < 16, ∀ m < 16,
    (UInt8.ofNat n <<< 4 ||| UInt8.ofNat m).toNat = 16 * n + m := by decide +kernel

theorem toNat_join {hi lo : UInt8} (hhi : hi.toNat < 16) (hlo : lo.toNat < 16) :
    (hi <<< 4 ||| lo).toNat = 16 * hi.toNat + lo.toNat := by
  have h := join_nibbles hi.toNat hhi lo.toNat hlo
  rwa [UInt8.ofNat_toNat, UInt8.ofNat_toNat] at h

theorem hexOf_nil_iff : HexOf key [] ↔ key = [] := by
  cases key <;> simp [HexOf, nibbles]

theorem hexOf_cons_iff {d : UInt8} {rest : List UInt8} : HexOf key (c :: d :: rest) ↔
    ∃ b bytes, key = b :: bytes ∧ HexText.digitValue (charOf c) = some (b.toNat / 16) ∧
      HexText.digitValue (charOf d) = some (b.toNat % 16) ∧ HexOf bytes rest := by
  cases key <;> simp [HexOf, nibbles, and_assoc]

theorem hexPairs_cons_iff {d : UInt8} {rest : List UInt8} : hexPairs (c :: d :: rest) = .ok key ↔
    ∃ hi lo out, hexNibble c = .ok hi ∧ hexNibble d = .ok lo ∧ hexPairs rest = .ok out ∧
      key = (hi <<< 4 ||| lo) :: out := by
  rw [hexPairs]
  cases hexNibble c with
  | error _ => simp [bind, Except.bind]
  | ok hi =>
    cases hexNibble d with
    | error _ => simp [bind, Except.bind]
    | ok lo => cases hexPairs rest <;> simp [bind, Except.bind, pure, Except.pure, eq_comm]

theorem nibbles_iff {hi lo : UInt8} (hhi : hi.toNat < 16) (hlo : lo.toNat < 16) :
    b = (hi <<< 4 ||| lo) ↔ b.toNat / 16 = hi.toNat ∧ b.toNat % 16 = lo.toNat := by
  rw [← UInt8.toNat_inj, toNat_join hhi hlo]
  omega

theorem digitValue_iff {n : Nat} : HexText.digitValue (charOf c) = some n ↔
    ∃ hi, hexNibble c = .ok hi ∧ n = hi.toNat := by
  rw [digitValue_charOf]
  cases hexNibble c <;> simp [Except.toOption, eq_comm]

theorem hexPairs_iff (heven : text.length % 2 = 0) : hexPairs text = .ok key ↔ HexOf key text := by
  induction text using hexPairs.induct generalizing key with
  | case1 c d rest ih =>
    have hrest : rest.length % 2 = 0 := by
      simp only [List.length_cons] at heven
      omega
    simp only [hexPairs_cons_iff, hexOf_cons_iff, digitValue_iff, ih hrest]
    constructor
    · rintro ⟨hi, lo, out, hc, hd, hout, rfl⟩
      have hbyte := (nibbles_iff (hexNibble_lt hc) (hexNibble_lt hd)).mp rfl
      exact ⟨_, out, rfl, ⟨hi, hc, hbyte.1⟩, ⟨lo, hd, hbyte.2⟩, hout⟩
    · rintro ⟨b, bytes, rfl, ⟨hi, hc, hdiv⟩, ⟨lo, hd, hmod⟩, hbytes⟩
      have hbyte := (nibbles_iff (hexNibble_lt hc) (hexNibble_lt hd)).mpr ⟨hdiv, hmod⟩
      exact ⟨hi, lo, bytes, hc, hd, hbytes, by rw [hbyte]⟩
  | case2 text h =>
    cases text with
    | nil => simp [hexPairs, hexOf_nil_iff, eq_comm]
    | cons c rest =>
      cases rest with
      | nil => simp at heven
      | cons d rest => exact absurd rfl (h c d rest)

theorem HexOf.length (h : HexOf key text) : text.length = key.length * 2 := by
  have hlength := congrArg List.length h
  simpa [nibbles, List.length_flatMap] using hlength

theorem hexDecode_iff (hkey : key.length = keyLen) : hexDecode text = .ok key ↔ HexOf key text := by
  unfold hexDecode
  split
  next hlength =>
    simp only [reduceCtorEq, false_iff]
    intro h
    rw [h.length, hkey] at hlength
    exact hlength rfl
  next hlength =>
    rw [ne_eq, not_not] at hlength
    exact hexPairs_iff (by rw [hlength]; rfl)

theorem hexNibble_ok (h : hexNibble c = .ok b) : c ≠ 61 ∧ c ≠ 10 ∧ c ≠ 13 := by
  have hother : ∀ d ∈ [61, 10, 13], (hexNibble d).toOption = none :=
    List.all_iff_forall_prop.mp rfl
  have hne : ∀ d ∈ [61, 10, 13], c ≠ d := by
    rintro d hd rfl
    have hnone := hother c hd
    rw [h] at hnone
    cases hnone
  simpa using hne

theorem HexOf.hexNibble (h : HexOf key text) : ∀ c ∈ text, ∃ b, hexNibble c = .ok b := by
  intro c hc
  have hmem : (HexText.digitValue ∘ charOf) c ∈ (key.flatMap nibbles).map some := by
    rw [← h]
    exact List.mem_map_of_mem hc
  obtain ⟨n, _, hn⟩ := List.mem_map.mp hmem
  obtain ⟨hi, hhi, _⟩ := digitValue_iff.mp hn.symm
  exact ⟨hi, hhi⟩

theorem charOf_ne : ∀ n < 256, n ≠ 61 → Char.ofNat n ≠ '=' := by decide +kernel

/-- A hexadecimal text of a key is no base64 text of a key: it is too long. -/
theorem HexOf.not_base64 {key' : List UInt8} (h : HexOf key text) (hkey : key.length = keyLen)
    (hdecode : decodeString text = some key') : key'.length ≠ keyLen := by
  have hkeep : text.filter (fun b => b ≠ 10 ∧ b ≠ 13) = text := by
    rw [List.filter_eq_self]
    intro c hc
    obtain ⟨b, hb⟩ := h.hexNibble c hc
    simp [(hexNibble_ok hb).2]
  have hpad : '=' ∉ text.map charOf := by
    intro hmem
    obtain ⟨c, hc, heq⟩ := List.mem_map.mp hmem
    obtain ⟨b, hb⟩ := h.hexNibble c hc
    refine charOf_ne c.toNat c.toNat_lt ?_ heq
    exact fun hc => (hexNibble_ok hb).1 (UInt8.toNat_inj.mp hc)
  rw [decodeString, hkeep] at hdecode
  have hlength := Base64.decode_length hpad hdecode
  rw [List.length_map, h.length, hkey] at hlength
  unfold keyLen at hlength ⊢
  omega

theorem parseHexKey_ok (hkey : key.length = keyLen) (h : HexOf key raw) :
    parseHexKey raw = .ok (some key) := by
  simp [parseHexKey, (hexDecode_iff hkey).mpr h, hkey]

theorem charOf_digit : ∀ n < 65, charOf (.ofNat (Base64.digit n).toNat) = Base64.digit n ∧
    UInt8.ofNat (Base64.digit n).toNat ≠ 10 ∧ UInt8.ofNat (Base64.digit n).toNat ≠ 13 := by
  decide +kernel

theorem decodeString_base64Text (key : List UInt8) : decodeString (base64Text key) = some key := by
  have hkeep : (base64Text key).filter (fun b => b ≠ 10 ∧ b ≠ 13) = base64Text key := by
    rw [List.filter_eq_self]
    intro b hb
    obtain ⟨c, hc, rfl⟩ := List.mem_map.mp hb
    obtain ⟨n, hn, rfl⟩ := Base64.mem_encode c hc
    simp [(charOf_digit n hn).2]
  have hchars : (base64Text key).map charOf = Base64.encode key := by
    rw [base64Text, List.map_map]
    refine List.map_congr_left (g := id) ?_ |>.trans (List.map_id _)
    intro c hc
    obtain ⟨n, hn, rfl⟩ := Base64.mem_encode c hc
    exact (charOf_digit n hn).1
  rw [decodeString, hkeep, hchars, Base64.decode_encode]

theorem parseHexKey_cases (raw : List UInt8) :
    (∃ key, key.length = keyLen ∧ HexOf key raw ∧ parseHexKey raw = .ok (some key)) ∨
      (∀ key, key.length = keyLen → ¬ HexOf key raw) ∧
        parseHexKey raw = .error errEncryptionKeyInvalid := by
  by_cases h : ∃ key, key.length = keyLen ∧ HexOf key raw
  · obtain ⟨key, hkey, htext⟩ := h
    exact .inl ⟨key, hkey, htext, parseHexKey_ok hkey htext⟩
  · push Not at h
    refine .inr ⟨h, ?_⟩
    unfold parseHexKey
    split
    next hb hdecode =>
      rw [if_neg]
      intro hlength
      exact h hb hlength ((hexDecode_iff hlength).mp hdecode)
    · rfl

theorem parseEncryptionKey_cases (hne : raw ≠ []) :
    (∃ key, key.length = keyLen ∧ (decodeString raw = some key ∨ HexOf key raw) ∧
      parseEncryptionKey raw = .ok (some key)) ∨
    (∀ key, key.length = keyLen → decodeString raw ≠ some key ∧ ¬ HexOf key raw) ∧
      parseEncryptionKey raw = .error errEncryptionKeyInvalid := by
  by_cases h : ∃ key, key.length = keyLen ∧ decodeString raw = some key
  · obtain ⟨key, hkey, hdecode⟩ := h
    exact .inl ⟨key, hkey, .inl hdecode, by simp [parseEncryptionKey, hne, hdecode, hkey]⟩
  · push Not at h
    have hhex : parseEncryptionKey raw = parseHexKey raw := by
      unfold parseEncryptionKey
      rw [if_neg hne]
      split
      next b hdecode => rw [if_neg fun hlength => h b hlength hdecode]
      · rfl
    rw [hhex]
    obtain ⟨key, hkey, htext, hok⟩ | ⟨hnone, herr⟩ := parseHexKey_cases raw
    · exact .inl ⟨key, hkey, .inr htext, hok⟩
    · exact .inr ⟨fun key hkey => ⟨h key hkey, hnone key hkey⟩, herr⟩

end

/-- The two forms are told apart, and nothing else is accepted. -/
theorem keys_parsed : ParsesKeys parseEncryptionKey := by
  constructor
  · intro key hkey
    have hne : base64Text key ≠ [] := by
      intro hnil
      have hdecode := decodeString_base64Text key
      rw [hnil] at hdecode
      cases hdecode
      cases hkey
    simp [parseEncryptionKey, hne, decodeString_base64Text, hkey]
  · intro key text hkey htext
    have hne : text ≠ [] := by
      rintro rfl
      rw [hexOf_nil_iff.mp htext] at hkey
      cases hkey
    unfold parseEncryptionKey
    rw [if_neg hne, parseHexKey_ok hkey htext]
    split
    next key' hdecode => rw [if_neg (htext.not_base64 hkey hdecode)]
    · rfl
  · intro raw result hne hok
    obtain ⟨key, hkey, hform, hparse⟩ | ⟨_, herr⟩ := parseEncryptionKey_cases hne
    · rw [hparse] at hok
      cases hok
      exact ⟨key, rfl, hkey, hform⟩
    · rw [herr] at hok
      cases hok
  · intro raw key key' hkey hkey' hdecode htext
    exact absurd hkey (htext.not_base64 hkey' hdecode)
  · intro raw hne hnone
    obtain ⟨key, hkey, hform, _⟩ | ⟨_, herr⟩ := parseEncryptionKey_cases hne
    · obtain ⟨hbase64, hhex⟩ := hnone key hkey
      exact (hform.elim hbase64 hhex).elim
    · exact herr

end LearnPg.Workspace.KeyText
